import CyberBrain.Foundation.Loops
import CyberBrain.Foundation.SelfMeasuring
import CyberBrain.Relations.Recall
import CyberBrain.Relations.Soundness
import CyberBrain.Relations.TraversalLimits

/-!
# Grounded recall

Every path that `recall` returns still stands on the records that were read again, and all that it
rests on is among the returned rows, which hold nothing else. Every path that is left out has a
reason.
-/

namespace CyberBrain.Relations

open CyberBrain.Core Program Python Schemas Tenancy RelationTraversal
open Dreaming (spacedDialect)

variable {py : Runtime}

/-! ### Paths that stand -/

section Standing

variable (known : KnowledgeRecord py → Prop) (seen : EpisodeRecord → Prop)
  (policy : TraversalPolicy) (at' : Instant)

/-- A piece of evidence stands on a known record of the partition. -/
def EvidenceStands (scope : RelationScope py) (ref : EvidenceRef) : Prop :=
  match ref.recordType with
  | .knowledge => ∃ r, known r ∧ r.id = ref.id ∧ visible policy at' false r ∧
      sharesPartition scope r.toIdentityValues
  | .episode   => ∃ r, seen r ∧ r.id = ref.id ∧ visibleEpisode at' r ∧
      sharesPartition scope (episodeIdentity r)

/-- A known record is still the entity of a key. -/
structure EndpointStands (id : Uuid) (key : String) (r : KnowledgeRecord py) : Prop where
  mem : known r
  id : r.id = id
  visible : visible policy at' true r
  entity : ∃ ref, entityOf r = .ok ref ∧ ref.key = key

/-- A step of a path follows an assertion of a known version of its owner. -/
structure StepStands (path : TraversalPath) (position : ℕ) (step : TraversalStep)
    (owner : KnowledgeRecord py) (edge : RelationEdge py) : Prop where
  mem : known owner
  id : owner.id = step.ownerRecordId
  visible : visible policy at' true owner
  version : owner.version = step.ownerVersion
  verified : verifyProjection owner = .ok ()
  asserted : edge ∈ owner.bundle.edges
  named : edge.relationId = step.relationId
  confirms : confirms at' path position step edge
  evidence : ∀ ref ∈ step.evidence, EvidenceStands known seen policy at' edge.source.scope ref

/-- A path of which all ends and all steps stand. -/
structure PathStands (path : TraversalPath) : Prop where
  ends : List.Forall₂ (fun id key => ∃ r, EndpointStands known policy at' id key r)
    path.recordIds path.nodeKeys
  steps : ∀ i step, path.steps[i]? = some step →
    ∃ owner edge, StepStands known seen policy at' path i step owner edge

variable {known seen policy at'} {known' : KnowledgeRecord py → Prop} {seen' : EpisodeRecord → Prop}

lemma EvidenceStands.mono (hknown : ∀ r, known r → known' r) (hseen : ∀ r, seen r → seen' r)
    {scope : RelationScope py} {ref : EvidenceRef}
    (h : EvidenceStands known seen policy at' scope ref) :
    EvidenceStands known' seen' policy at' scope ref := by
  unfold EvidenceStands at h ⊢
  cases hkind : ref.recordType with
  | knowledge =>
    rw [hkind] at h
    obtain ⟨r, hr, h⟩ := h
    exact ⟨r, hknown r hr, h⟩
  | episode =>
    rw [hkind] at h
    obtain ⟨r, hr, h⟩ := h
    exact ⟨r, hseen r hr, h⟩

lemma PathStands.mono (hknown : ∀ r, known r → known' r) (hseen : ∀ r, seen r → seen' r)
    {path : TraversalPath} (h : PathStands known seen policy at' path) :
    PathStands known' seen' policy at' path where
  ends := h.ends.imp fun _ _ ⟨r, hr⟩ => ⟨r, { hr with mem := hknown r hr.mem }⟩
  steps i step hi := by
    obtain ⟨owner, edge, hstep⟩ := h.steps i step hi
    exact ⟨owner, edge, { hstep with
      mem := hknown owner hstep.mem
      evidence := fun ref href => (hstep.evidence ref href).mono hknown hseen }⟩

end Standing

/-! ### Revalidation -/

section Revalidation

variable {policy : TraversalPolicy} {at' : Instant} {h : Hydrated py} {path : TraversalPath}

namespace Hydrated

/-- The Knowledge that is found under its own id. -/
def Known (h : Hydrated py) (r : KnowledgeRecord py) : Prop := h.knowledge? r.id = some r

/-- The episodes that are found under their own ids. -/
def Seen (h : Hydrated py) (r : EpisodeRecord) : Prop := h.episode? r.id = some r

lemma Known.mem {r : KnowledgeRecord py} (hr : h.Known r) : r ∈ h.knowledge :=
  List.mem_of_find?_eq_some hr

lemma Seen.mem {r : EpisodeRecord} (hr : h.Seen r) : r ∈ h.episodes :=
  List.mem_of_find?_eq_some hr

lemma Known.unique {r r' : KnowledgeRecord py} (hr : h.Known r) (hr' : h.Known r')
    (hid : r.id = r'.id) : r = r' := Option.some.inj ((hr.symm.trans (hid ▸ rfl)).trans hr')

lemma Seen.unique {r r' : EpisodeRecord} (hr : h.Seen r) (hr' : h.Seen r')
    (hid : r.id = r'.id) : r = r' := Option.some.inj ((hr.symm.trans (hid ▸ rfl)).trans hr')

end Hydrated

lemma knowledge?_eq_some {id : Uuid} {r : KnowledgeRecord py} (hr : h.knowledge? id = some r) :
    h.Known r ∧ r.id = id := by
  have hid : r.id = id := by simpa using List.find?_some hr
  exact ⟨by rw [Hydrated.Known, hid, hr], hid⟩

lemma episode?_eq_some {id : Uuid} {r : EpisodeRecord} (hr : h.episode? id = some r) :
    h.Seen r ∧ r.id = id := by
  have hid : r.id = id := by simpa using List.find?_some hr
  exact ⟨by rw [Hydrated.Seen, hid, hr], hid⟩

lemma evidenceStands_of_proofStands {scope : RelationScope py} {ref : EvidenceRef}
    (hproof : proofStands policy at' h scope ref) :
    EvidenceStands h.Known h.Seen policy at' scope ref := by
  unfold proofStands at hproof
  unfold EvidenceStands
  cases hkind : ref.recordType with
  | knowledge =>
    rw [hkind] at hproof
    obtain ⟨r, hr, hvisible, hshares⟩ := hproof
    obtain ⟨hmem, hid⟩ := knowledge?_eq_some hr
    exact ⟨r, hmem, hid, hvisible, hshares⟩
  | episode =>
    rw [hkind] at hproof
    obtain ⟨r, hr, hvisible, hshares⟩ := hproof
    obtain ⟨hmem, hid⟩ := episode?_eq_some hr
    exact ⟨r, hmem, hid, hvisible, hshares⟩

/-- What the loop over the steps has checked when it finds them valid. -/
lemma stepsStand_spec {position : ℕ} {steps : List TraversalStep}
    (hsteps : stepsStand policy at' h path position steps = .ok true) :
    ∀ i step, steps[i]? = some step → ∃ owner edge,
      StepStands h.Known h.Seen policy at' path (position + i) step owner
        edge := by
  induction steps generalizing position with
  | nil => simp
  | cons step steps ih =>
    rw [stepsStand] at hsteps
    cases howner : h.knowledge? step.ownerRecordId with
    | none => simp [howner, pure, Except.pure] at hsteps
    | some owner =>
      simp only [howner] at hsteps
      split_ifs at hsteps with hvisible
      · obtain ⟨_, hverify, hsteps⟩ := CyberBrain.bind_eq_ok.mp hsteps
        cases hedge : owner.bundle.edges.find? (·.relationId = step.relationId) with
        | none => simp [hedge, pure, Except.pure] at hsteps
        | some edge =>
          simp only [hedge] at hsteps
          split_ifs at hsteps with hconfirms
          · obtain ⟨rest, hrest, hsteps⟩ := CyberBrain.bind_eq_ok.mp hsteps
            have hboth := Except.ok.inj hsteps
            rw [Bool.and_eq_true, decide_eq_true_eq] at hboth
            obtain ⟨hproofs, rfl⟩ := hboth
            obtain ⟨hmem, hid⟩ := knowledge?_eq_some howner
            intro i step' hi
            cases i with
            | zero =>
              obtain rfl : step = step' := by simpa using hi
              exact ⟨owner, edge, hmem, hid, hvisible.1, hvisible.2, hverify,
                List.mem_of_find?_eq_some hedge, by simpa using List.find?_some hedge, hconfirms,
                fun ref href => evidenceStands_of_proofStands (hproofs ref href)⟩
            | succ i =>
              have hnext := ih hrest i step' (by simpa using hi)
              rwa [Nat.add_assoc, Nat.add_comm 1 i] at hnext
          · simp [pure, Except.pure] at hsteps
      · simp [pure, Except.pure] at hsteps

lemma keysAgree_spec {ids : List Uuid} {keys : List String}
    (hagree : keysAgree h ids keys = .ok true) :
    List.Forall₂ (fun id key => ∃ r, h.knowledge? id = some r ∧
      ∃ ref, entityOf r = .ok ref ∧ ref.key = key) ids keys := by
  induction ids generalizing keys with
  | nil =>
    cases keys with
    | nil => exact .nil
    | cons key keys => cases hagree
  | cons id ids ih =>
    cases keys with
    | nil => cases hagree
    | cons key keys =>
      obtain ⟨r, hr, hagree⟩ := CyberBrain.bind_eq_ok.mp hagree
      obtain ⟨ref, href, hagree⟩ := CyberBrain.bind_eq_ok.mp hagree
      split_ifs at hagree with hkey
      · exact .cons ⟨r, orRaise_eq_ok.mp hr, ref, href, hkey⟩ (ih hagree)
      · simp [pure, Except.pure] at hagree

/-- A path that is found valid stands on what was read again. -/
lemma pathStands_spec (hpath : pathStands policy at' h path = .ok true) :
    PathStands h.Known h.Seen policy at' path := by
  obtain ⟨ends, hends, hpath⟩ := CyberBrain.bind_eq_ok.mp hpath
  obtain ⟨steps, hsteps, hpath⟩ := CyberBrain.bind_eq_ok.mp hpath
  have hboth := Except.ok.inj hpath
  rw [Bool.and_eq_true] at hboth
  obtain ⟨rfl, rfl⟩ := hboth
  refine ⟨?_, fun i step hi => by simpa using stepsStand_spec hsteps i step hi⟩
  rw [endsStand] at hends
  split_ifs at hends with hvisible
  · have hids : List.Forall₂ (fun id key => id ∈ path.recordIds ∧ ∃ r, h.knowledge? id = some r ∧
        ∃ ref, entityOf r = .ok ref ∧ ref.key = key) path.recordIds path.nodeKeys :=
      (List.forall₂_and_left _ _).mpr ⟨fun _ hid => hid, keysAgree_spec hends⟩
    refine hids.imp fun id key hid => ?_
    obtain ⟨hmem, r, hr, hentity⟩ := hid
    obtain ⟨r', hr', hvisible⟩ := hvisible id hmem
    obtain rfl : r = r' := Option.some.inj (hr.symm.trans hr')
    obtain ⟨hknown, hid⟩ := knowledge?_eq_some hr
    exact ⟨r, hknown, hid, hvisible, hentity⟩
  · simp [pure, Except.pure] at hends

end Revalidation

/-! ### Rows -/

section Rows

variable (known : KnowledgeRecord py → Prop) (seen : EpisodeRecord → Prop) (recordTokens : ℕ)

/-- A row shows a known record under its reference. -/
def RowShows (ref : EvidenceRef) (row : RecallRow) : Prop :=
  match ref.recordType with
  | .knowledge => ∃ r, known r ∧ r.id = ref.id ∧ row = knowledgeRow recordTokens r
  | .episode   => ∃ r, seen r ∧ r.id = ref.id ∧ row = episodeRow recordTokens r

variable {known seen recordTokens} {known' : KnowledgeRecord py → Prop}
  {seen' : EpisodeRecord → Prop} {ref : EvidenceRef} {row : RecallRow}

lemma RowShows.mono (hknown : ∀ r, known r → known' r) (hseen : ∀ r, seen r → seen' r)
    (h : RowShows known seen recordTokens ref row) :
    RowShows known' seen' recordTokens ref row := by
  unfold RowShows at h ⊢
  cases hkind : ref.recordType with
  | knowledge =>
    rw [hkind] at h
    obtain ⟨r, hr, h⟩ := h
    exact ⟨r, hknown r hr, h⟩
  | episode =>
    rw [hkind] at h
    obtain ⟨r, hr, h⟩ := h
    exact ⟨r, hseen r hr, h⟩

lemma rowShows_of_rowOf {h : Hydrated py} (hrow : rowOf recordTokens h ref = some row) :
    RowShows h.Known h.Seen recordTokens ref row := by
  unfold rowOf at hrow
  unfold RowShows
  cases hkind : ref.recordType with
  | knowledge =>
    simp only [hkind, Option.map_eq_some_iff] at hrow
    obtain ⟨r, hr, rfl⟩ := hrow
    obtain ⟨hmem, hid⟩ := knowledge?_eq_some hr
    exact ⟨r, hmem, hid, rfl⟩
  | episode =>
    simp only [hkind, Option.map_eq_some_iff] at hrow
    obtain ⟨r, hr, rfl⟩ := hrow
    obtain ⟨hmem, hid⟩ := episode?_eq_some hr
    exact ⟨r, hmem, hid, rfl⟩

end Rows

/-! ### Packing -/

section Packing

variable {request : RelationRecallRequest} {h : Hydrated py}

/-- The references of the rows. -/
def RecallResult.refs (r : RecallResult) : List EvidenceRef := r.records.rows.map Prod.fst

/-- Rows are added under the references, and each is the row of its reference. -/
lemma addRows_spec {rows rows' : RecallRows} {refs : List EvidenceRef}
    (hadd : addRows request h rows refs = .ok rows')
    (hrows : ∀ row ∈ rows.rows, rowOf request.recordTokens h row.1 = some row.2) :
    (∀ ref, ref ∈ rows'.rows.map Prod.fst ↔ ref ∈ rows.rows.map Prod.fst ∨ ref ∈ refs) ∧
      ∀ row ∈ rows'.rows, rowOf request.recordTokens h row.1 = some row.2 := by
  refine foldlM_loop (fun done (u : RecallRows) =>
    (∀ ref, ref ∈ u.rows.map Prod.fst ↔ ref ∈ rows.rows.map Prod.fst ∨ ref ∈ done) ∧
      ∀ row ∈ u.rows, rowOf request.recordTokens h row.1 = some row.2)
    (fun done ref u v hu hv => ?_) ⟨by simp, hrows⟩ hadd
  obtain ⟨row, hrow, hv⟩ := CyberBrain.bind_eq_ok.mp hv
  cases hv
  obtain ⟨hkeys, hall⟩ := hu
  refine ⟨fun ref' => ?_, fun e he => ?_⟩
  · rw [Table.mem_keys_upsert, hkeys, List.mem_append, List.mem_singleton]
    tauto
  · have hfind := Table.mem_rows_iff.mp he
    rw [Table.find?_upsert] at hfind
    split_ifs at hfind with hsame
    · cases hfind
      exact orRaise_eq_ok.mp hrow
    · exact hall e (Table.mem_of_find? hfind)

/-- Why a path is left out. -/
def packingReasons : List String := ["revalidation", "context_tokens"]

/-- What becomes of a path: it is left out for a reason, or it stands and is added with its rows. -/
lemma packPath_cases {s s' : RecallResult × List String} {path : TraversalPath}
    (hpack : packPath request h s path = .ok s') :
    (∃ reason ∈ packingReasons, s' = (s.1, s.2.insert reason)) ∨
      ∃ records, pathStands request.policy s.1.evaluatedAt h path = .ok true ∧
        addRows request h s.1.records (FrozenSet.ofList path.refs).sorted = .ok records ∧
        tokenCounter.estimateTokens (jsonText py
          (.obj { s.1 with paths := s.1.paths ++ [path], records }.items)) ≤
            request.contextTokens - 64 ∧
        s' = ({ s.1 with paths := s.1.paths ++ [path], records }, s.2) := by
  obtain ⟨stands, hstands, hpack⟩ := CyberBrain.bind_eq_ok.mp hpack
  cases stands with
  | false =>
    cases hpack
    exact .inl ⟨_, List.mem_cons_self, rfl⟩
  | true =>
    obtain ⟨records, hrecords, hpack⟩ := CyberBrain.bind_eq_ok.mp hpack
    dsimp only at hpack
    split_ifs at hpack with hover
    · cases hpack
      exact .inl ⟨_, List.mem_cons_of_mem _ List.mem_cons_self, rfl⟩
    · cases hpack
      exact .inr ⟨records, hstands, hrecords, not_lt.mp hover, rfl⟩

variable (request h) in
/-- What is packed when some of the paths are done. -/
structure Packed (start : RecallResult) (reasons : List String) (done : List TraversalPath)
    (s : RecallResult × List String) : Prop where
  frame : s.1 = { start with paths := s.1.paths, records := s.1.records }
  sublist : s.1.paths.Sublist done
  left_out : s.1.paths = done ∨ ∃ reason ∈ packingReasons, reason ∈ s.2
  reasons : ∀ reason ∈ reasons, reason ∈ s.2
  stands : ∀ p ∈ s.1.paths,
    PathStands h.Known h.Seen request.policy start.evaluatedAt p
  refs : ∀ ref, ref ∈ s.1.refs ↔ ∃ p ∈ s.1.paths, ref ∈ p.refs
  rows : ∀ row ∈ s.1.records.rows, rowOf request.recordTokens h row.1 = some row.2

variable {start : RecallResult} {reasons : List String} {done : List TraversalPath}

lemma Packed.step {s s' : RecallResult × List String} (hs : Packed request h start reasons done s)
    {path : TraversalPath} (hpack : packPath request h s path = .ok s') :
    Packed request h start reasons (done ++ [path]) s' := by
  rcases packPath_cases hpack with ⟨reason, hreason, rfl⟩ | ⟨records, hstands, hrecords, -, rfl⟩
  · exact {
      frame := hs.frame
      sublist := hs.sublist.trans (List.sublist_append_left _ _)
      left_out := .inr ⟨reason, hreason, List.mem_insert_self⟩
      reasons := fun r hr => List.mem_insert_of_mem (hs.reasons r hr)
      stands := hs.stands
      refs := hs.refs
      rows := hs.rows }
  · obtain ⟨hkeys, hrows⟩ := addRows_spec hrecords hs.rows
    have hat : s.1.evaluatedAt = start.evaluatedAt := by rw [hs.frame]
    rw [hat] at hstands
    refine {
      frame := ?_
      sublist := hs.sublist.append (List.Sublist.refl _)
      left_out := hs.left_out.imp (congrArg (· ++ [path])) id
      reasons := hs.reasons
      stands := fun p hp => ?_
      refs := fun ref => ?_
      rows := hrows }
    · rw [hs.frame]
    · rcases List.mem_append.mp hp with hp | hp
      · exact hs.stands p hp
      · obtain rfl := List.mem_singleton.mp hp
        exact pathStands_spec hstands
    · have hrefs := hs.refs ref
      simp only [RecallResult.refs] at hrefs ⊢
      rw [hkeys, hrefs, ← FrozenSet.mem_def, FrozenSet.mem_ofList]
      simp only [List.mem_append, List.mem_singleton, or_and_right, exists_or, exists_eq_left]

/-- The loop over the paths of a traversal. -/
theorem packed_of_foldlM (hstart : start.paths = [] ∧ start.records = Table.empty _)
    {paths : List TraversalPath} {s' : RecallResult × List String}
    (hpack : paths.foldlM (packPath request h) (start, reasons) = .ok s') :
    Packed request h start reasons paths s' := by
  refine foldlM_loop (Packed request h start reasons) (fun done path s t hs ht => hs.step ht) ?_
    hpack
  obtain ⟨hpaths, hrecords⟩ := hstart
  exact {
    frame := rfl
    sublist := by simp [hpaths]
    left_out := .inl hpaths
    reasons := fun _ => id
    stands := by simp [hpaths]
    refs := by simp [hpaths, hrecords, RecallResult.refs]
    rows := by simp [hrecords] }

end Packing

/-! ### Hydration -/

section Hydration

variable {t : RelationTraversal py} {store : RelationStore py} {maximum : ℕ} {s : TraversalState}

/-- A record is stored and lies within the grant of the caller. -/
def Held {ρ : Type} (schema : RecordSchema ρ) (points : RelationPoints ρ)
    (bound : Option (CallerAuthority py)) (r : ρ) : Prop :=
  (∃ p ∈ points.rows, canonical schema p = .ok r) ∧
    ∃ caller, bound = some caller ∧ (grantFilter caller).accepts (schema.fields r) = true

lemma hydrateRecords_triple {ρ : Type} {schema : RecordSchema ρ} {scroll : RelationScroll ρ}
    (hlawful : scroll.Lawful schema) (points : RelationPoints ρ) (recordType : EvidenceType)
    (ids : List Uuid) :
    Triple (Kept maximum s) (t.hydrateRecords schema recordType (scroll points) maximum ids)
      (fun records u => Kept maximum s u ∧ ∀ r ∈ records, Held schema points t.bound r)
      (Cut maximum s) := by
  unfold RelationTraversal.hydrateRecords
  refine Triple.ite (fun _ => Triple.pure fun u hu => ⟨hu, by simp⟩) fun _ => ?_
  refine Triple.bind _ (read_triple maximum t hlawful points _ _) fun page => ?_
  refine Triple.of_forall fun u hu => ?_
  obtain ⟨hkept, caller, hcaller, hanswer⟩ := hu
  refine Triple.ofExcept (fun records hrecords v hv => ?_) fun e he v hv => ?_
  · subst hv
    refine ⟨hkept, fun r hr => ?_⟩
    obtain ⟨p, hp, hpr⟩ := (mem_of_mapM (mapError_eq_ok.mp hrecords)).mp hr
    obtain ⟨hrow, hmatches⟩ := (hanswer.mem_iff p).mp hp
    have hgrant := hmatches.1
    rw [Query.within, Filter.accepts_append, Bool.and_eq_true, fields_of_canonical hpr] at hgrant
    exact ⟨⟨p, hrow, hpr⟩, caller, hcaller, hgrant.1⟩
  · subst hv
    obtain ⟨e', -, rfl⟩ : ∃ e', page.mapM (canonical schema) = .error e' ∧ .raised e' = e := by
      cases hm : page.mapM (canonical schema) with
      | ok records => rw [hm] at he; cases he
      | error e' => rw [hm] at he; cases he; exact ⟨e', rfl, rfl⟩
    exact hkept.raised e'

/-- What is read again is stored and lies within the grant of the caller. -/
lemma hydrate_triple (hknowledge : t.scrollKnowledge.Lawful (knowledgeSchema py))
    (hepisodes : t.scrollEpisodes.Lawful episodeSchema) (paths : List TraversalPath) :
    Triple (Kept maximum s) (t.hydrate maximum paths)
      (fun h u => Kept maximum s u ∧
        (∀ r ∈ h.knowledge, Held (knowledgeSchema py) t.store.knowledge t.bound r) ∧
        ∀ r ∈ h.episodes, Held episodeSchema t.store.episodes t.bound r)
      (Cut maximum s) := by
  unfold RelationTraversal.hydrate
  refine Triple.bind _ (hydrateRecords_triple hknowledge _ _ _) fun knowledge => ?_
  refine Triple.of_forall fun u hu => ?_
  refine (Triple.bind (fun episodes v => Kept maximum s v ∧
    ∀ r ∈ episodes, Held episodeSchema t.store.episodes t.bound r)
    (hydrateRecords_triple hepisodes _ _ _) fun episodes => ?_).pre fun v hv => hv ▸ hu.1
  exact Triple.pure fun v hv => ⟨hv.1, hu.2, hv.2⟩

end Hydration

/-! ### Recall -/

section Recall

variable {t : RelationTraversal py} {later : RelationStore py} {request : RelationRecallRequest}
  {result : RecallResult}

variable (t later request) in
/-- What a recall has packed of what its traversal found: the paths that still stand on what was
read again, or none, when the records could not be read. -/
inductive Gathered (found : TraversalResult) : RecallResult × List String → Prop
  | packed (h : Hydrated py) (s : RecallResult × List String)
      (knowledge : ∀ r ∈ h.knowledge, Held (knowledgeSchema py) later.knowledge t.bound r)
      (episodes : ∀ r ∈ h.episodes, Held episodeSchema later.episodes t.bound r)
      (packed : Packed request h (.start found request.contextTokens) found.truncationReasons
        found.paths s)
      (run : found.paths.foldlM (packPath request h)
        (.start found request.contextTokens, found.truncationReasons) = .ok s) :
      Gathered found s
  | unread (reason : String) (read : reason ∈ readReasons) :
      Gathered found (.start found request.contextTokens, found.truncationReasons.insert reason)

lemma hydrateRecords_tidy {policy : TraversalPolicy} {ρ : Type} {schema : RecordSchema ρ}
    {scroll : Query → ℕ → List (RelationPoint ρ) × Bool} {recordType : EvidenceType}
    {ids : List Uuid} :
    Triple (Tidy policy)
      (t.hydrateRecords schema recordType scroll policy.maxStorageCalls ids)
      (fun _ => Tidy policy) (Ended policy) := by
  unfold RelationTraversal.hydrateRecords
  refine Triple.ite (fun _ => Triple.pure fun _ hu => hu) fun _ => ?_
  refine Triple.bind _ (read_tidy t) fun page => ?_
  exact Triple.ofExcept (fun _ _ _ hu => hu) fun e he u hu => by
    obtain ⟨e', rfl⟩ : ∃ e', .raised e' = e := by
      cases hm : page.mapM (canonical schema) with
      | ok records => rw [hm] at he; cases he
      | error e' => rw [hm] at he; cases he; exact ⟨e', rfl⟩
    exact hu.raised e'

/-- The records are read again within the calls that are left. -/
lemma hydrate_cases (hknowledge : t.scrollKnowledge.Lawful (knowledgeSchema py))
    (hepisodes : t.scrollEpisodes.Lawful episodeSchema) {policy : TraversalPolicy} {used : ℕ}
    (hused : used ≤ policy.maxStorageCalls) (paths : List TraversalPath) :
    Triple (fun s => s = { used })
      (RelationTraversal.hydrate { t with store := later } policy.maxStorageCalls paths)
      (fun h s => s.used ≤ policy.maxStorageCalls ∧
        (∀ r ∈ h.knowledge, Held (knowledgeSchema py) later.knowledge t.bound r) ∧
        ∀ r ∈ h.episodes, Held episodeSchema later.episodes t.bound r)
      (fun e s => s.used ≤ policy.maxStorageCalls ∧
        ∀ reason, e = .limit reason → reason ∈ readReasons) := by
  have hhydrate := @hydrate_triple py { t with store := later } policy.maxStorageCalls { used }
    hknowledge hepisodes paths
  have htidy : Triple (Tidy policy)
      (RelationTraversal.hydrate { t with store := later } policy.maxStorageCalls paths)
      (fun _ => Tidy policy) (Ended policy) := by
    unfold RelationTraversal.hydrate
    refine Triple.bind _ hydrateRecords_tidy fun _ => ?_
    exact Triple.bind _ hydrateRecords_tidy fun _ => Triple.pure fun _ hu => hu
  refine (hhydrate.and htidy).conseq ?_ (fun h s hs => ⟨hs.1.1.used, hs.1.2⟩)
    fun e s hs => ⟨hs.1.used, hs.2.limit⟩
  rintro s rfl
  exact ⟨⟨hused, rfl, rfl, rfl, rfl⟩, ⟨hused, Nat.zero_le _, Nat.zero_le _, Nat.zero_le _⟩,
    List.nodup_nil, List.nil_subset _⟩

/-- How a recall that returns has packed what its traversal found. -/
theorem recall_eq_ok (hknowledge : t.scrollKnowledge.Lawful (knowledgeSchema py))
    (hepisodes : t.scrollEpisodes.Lawful episodeSchema)
    (h : RelationRecallService.recall t later request = .ok result) :
    ∃ found, t.traverse request.seedIds request.policy = .ok found ∧
      ∃ used s, used ≤ request.policy.maxStorageCalls ∧ Gathered t later request found s ∧
        result = (((s.1.close used s.2).measured py).measured py).measured py := by
  obtain ⟨found, hfound, h⟩ := CyberBrain.bind_eq_ok.mp h
  obtain ⟨u, hu, heq⟩ := traverse_tidy hknowledge hfound
  have hcalls : found.storageCalls ≤ request.policy.maxStorageCalls := by
    rw [heq]
    exact hu.budget.used
  have hcases := @hydrate_cases py t later hknowledge hepisodes request.policy _ hcalls
    found.paths _ rfl
  refine ⟨found, hfound, ?_⟩
  obtain ⟨⟨used, packed⟩, hgather, h⟩ := CyberBrain.bind_eq_ok.mp h
  cases h
  rw [gather] at hgather
  rcases hrun : RelationTraversal.hydrate { t with store := later } request.policy.maxStorageCalls
    found.paths { used := found.storageCalls } with ⟨e | hydrated, s⟩ <;>
    rw [hrun] at hgather hcases
  · cases e with
    | raised e => cases hgather
    | limit reason =>
      cases hgather
      exact ⟨_, _, hcases.1, .unread reason (hcases.2 reason rfl), rfl⟩
  · obtain ⟨packed, hpacked, hpair⟩ := map_eq_ok.mp hgather
    cases hpair
    exact ⟨_, _, hcases.1, .packed hydrated _ hcases.2.1 hcases.2.2
      (packed_of_foldlM ⟨rfl, rfl⟩ hpacked) hpacked, rfl⟩

/-- What a recall has returned of what its traversal found, on the records that were read again. -/
structure Grounded (t : RelationTraversal py) (later : RelationStore py)
    (request : RelationRecallRequest) (found : TraversalResult) (h : Hydrated py)
    (result : RecallResult) : Prop where
  knowledge : ∀ r, h.Known r → Held (knowledgeSchema py) later.knowledge t.bound r
  episodes : ∀ r, h.Seen r → Held episodeSchema later.episodes t.bound r
  evaluated : result.evaluatedAt = found.evaluatedAt
  sublist : result.paths.Sublist found.paths
  whole : result.truncated = false → result.paths = found.paths ∧ found.truncated = false
  stands : ∀ p ∈ result.paths, PathStands h.Known h.Seen request.policy found.evaluatedAt p
  refs : ∀ ref, ref ∈ result.records.rows.map Prod.fst ↔ ∃ p ∈ result.paths, ref ∈ p.refs
  rows : ∀ row ∈ result.records.rows, RowShows h.Known h.Seen request.recordTokens row.1 row.2

lemma recall_spec (hknowledge : t.scrollKnowledge.Lawful (knowledgeSchema py))
    (hepisodes : t.scrollEpisodes.Lawful episodeSchema)
    (h : RelationRecallService.recall t later request = .ok result) :
    ∃ found hydrated, t.traverse request.seedIds request.policy = .ok found ∧
      Grounded t later request found hydrated result := by
  obtain ⟨found, hfound, used, s, -, hgathered, rfl⟩ := recall_eq_ok hknowledge hepisodes h
  obtain ⟨u, -, heq⟩ := traverse_tidy hknowledge hfound
  have htruncated : found.truncated = decide (found.truncationReasons ≠ []) := by
    rw [heq]
    simp [RelationTraversal.result, ← List.length_eq_zero_iff]
  cases hgathered with
  | packed hydrated s hheld hheldEpisodes hpacked =>
    refine ⟨found, hydrated, hfound, {
      knowledge := fun r hr => hheld r hr.mem
      episodes := fun r hr => hheldEpisodes r hr.mem
      evaluated := ?_
      sublist := hpacked.sublist
      whole := fun hwhole => ?_
      stands := hpacked.stands
      refs := hpacked.refs
      rows := fun row hrow => rowShows_of_rowOf (hpacked.rows row hrow) }⟩
    · exact congrArg RecallResult.evaluatedAt hpacked.frame
    · have hnil : s.2 = [] := by simpa [RecallResult.measured, RecallResult.close] using hwhole
      refine ⟨hpacked.left_out.resolve_right fun ⟨reason, _, hmem⟩ => ?_, ?_⟩
      · rw [hnil] at hmem
        cases hmem
      · rw [htruncated, decide_eq_false_iff_not, not_not, List.eq_nil_iff_forall_not_mem]
        intro reason hmem
        have hkept := hpacked.reasons reason hmem
        rw [hnil] at hkept
        cases hkept
  | unread reason _ =>
    refine ⟨found, {}, hfound, {
      knowledge := fun r hr => absurd hr.mem List.not_mem_nil
      episodes := fun r hr => absurd hr.mem List.not_mem_nil
      evaluated := rfl
      sublist := List.nil_sublist _
      whole := fun hwhole => ?_
      stands := nofun
      refs := fun ref => ⟨nofun, nofun⟩
      rows := nofun }⟩
    have hnil : found.truncationReasons.insert reason = [] := by
      simpa [RecallResult.measured, RecallResult.close] using hwhole
    have hmem : reason ∈ found.truncationReasons.insert reason := List.mem_insert_self
    rw [hnil] at hmem
    cases hmem

/-- Recall is grounded: each path that is returned stands on the records that were read again, the
rows are those of all that the paths rest on and of nothing else, and a path that is missing has a
reason. -/
theorem recall_grounded (hknowledge : t.scrollKnowledge.Lawful (knowledgeSchema py))
    (hepisodes : t.scrollEpisodes.Lawful episodeSchema)
    (h : RelationRecallService.recall t later request = .ok result) :
    ∃ found, t.traverse request.seedIds request.policy = .ok found ∧
      result.paths.Sublist found.paths ∧
      (result.truncated = false → result.paths = found.paths ∧ found.truncated = false) ∧
      (∀ p ∈ result.paths, PathStands (Held (knowledgeSchema py) later.knowledge t.bound)
        (Held episodeSchema later.episodes t.bound) request.policy found.evaluatedAt p) ∧
      (∀ ref, ref ∈ result.records.rows.map Prod.fst ↔ ∃ p ∈ result.paths, ref ∈ p.refs) ∧
      ∀ row ∈ result.records.rows, RowShows (Held (knowledgeSchema py) later.knowledge t.bound)
        (Held episodeSchema later.episodes t.bound) request.recordTokens row.1 row.2 := by
  obtain ⟨found, hydrated, hfound, hgrounded⟩ := recall_spec hknowledge hepisodes h
  exact ⟨found, hfound, hgrounded.sublist, hgrounded.whole,
    fun p hp => (hgrounded.stands p hp).mono hgrounded.knowledge hgrounded.episodes,
    hgrounded.refs,
    fun row hrow => (hgrounded.rows row hrow).mono hgrounded.knowledge hgrounded.episodes⟩

end Recall

/-! ### A path that is recalled -/

section Sample

lemma record_within : 32 ≤ 256 ∧ 256 ≤ 1024 := by decide

def sampleRequest : RelationRecallRequest where
  seedIds := [.ofNat 1]
  policy := pastPolicy
  seeds_bounds := by decide
  context_bounds := by decide
  record_bounds := record_within

/-- The two versions, read again. -/
def hydratedAB : Hydrated sizes := { knowledge := [versionA, versionB] }

def startAB : RecallResult :=
  .start (RelationTraversal.result pastPolicy (.ofMicros 1) foundAB) 4096

/-- The rows of the two versions. -/
def rowsAB : RecallRows where
  rows := [(⟨.knowledge, .ofNat 1⟩, knowledgeRow 256 versionA),
    (⟨.knowledge, .ofNat 3⟩, knowledgeRow 256 versionB)]
  nodup := by decide

def packedAB : RecallResult := { startAB with paths := [pathAB], records := rowsAB }

/-- The dump of the path, with its keys and the id of its assertion. -/
def shownAB : Json :=
  .obj [("node_keys", .arr [.str "157", .str "158"]),
    ("record_ids", .arr [.str (Uuid.ofNat 1).text, .str (Uuid.ofNat 3).text]),
    ("steps", .arr [.obj [("relation_id", .str "47"), ("kind", .str "depends_on"),
      ("direction", .str "out"), ("owner_record_id", .str (Uuid.ofNat 1).text),
      ("owner_version", .int 1), ("target_record_id", .str (Uuid.ofNat 3).text),
      ("evidence", .arr [EvidenceRef.dump ⟨.knowledge, .ofNat 3⟩]),
      ("valid_from", .str (Instant.ofMicros 0).iso), ("valid_until", .null)]])]

/-- The records of the path are visible, its evidence stands, and its text is short. -/
lemma pathAB_facts : endpointsVisible pastPolicy (.ofMicros 1) hydratedAB pathAB ∧
    (∀ ref ∈ (stepAlong versionA edgeAB .outward).evidence,
      proofStands pastPolicy (.ofMicros 1) hydratedAB edgeAB.source.scope ref) ∧
    (visible pastPolicy (.ofMicros 1) true versionA ∧
      versionA.version = (stepAlong versionA edgeAB .outward).ownerVersion) ∧
    ((FrozenSet.ofList pathAB.refs).sorted =
        [⟨.knowledge, .ofNat 1⟩, ⟨.knowledge, .ofNat 3⟩] ∧
      hydratedIds .knowledge [pathAB] = [.ofNat 1, .ofNat 3] ∧
      hydratedIds .episode [pathAB] = []) ∧
    fingerprint sizes (.obj [("kind", .str "depends_on"),
      ("endpoints", .arr [.str "157", .str "158"])]) = "47" ∧
    (spacedDialect sizes).bytesBound
      (.obj (packedAB.items.set 0 ("paths", .arr [shownAB]))) ≤ 4000 * 4 := by
  decide +kernel

lemma pathAB_stands : pathStands pastPolicy (.ofMicros 1) hydratedAB pathAB = .ok true := by
  have hA : hydratedAB.knowledge? versionA.id = some versionA := rfl
  have hB : hydratedAB.knowledge? versionB.id = some versionB := rfl
  have hends : endsStand pastPolicy (.ofMicros 1) hydratedAB pathAB = .ok true := by
    rw [endsStand, if_pos pathAB_facts.1]
    change keysAgree hydratedAB [versionA.id, versionB.id] ["157", "158"] = _
    refine CyberBrain.bind_eq_ok.mpr ⟨versionA, orRaise_eq_ok.mpr hA,
      CyberBrain.bind_eq_ok.mpr ⟨entityA, entityOf_versionA, ?_⟩⟩
    rw [if_pos entityA_key]
    refine CyberBrain.bind_eq_ok.mpr ⟨versionB, orRaise_eq_ok.mpr hB,
      CyberBrain.bind_eq_ok.mpr ⟨entityB, entityOf_versionB, ?_⟩⟩
    rw [if_pos entityB_key]
    rfl
  have hstep : stepsStand pastPolicy (.ofMicros 1) hydratedAB pathAB 0 pathAB.steps = .ok true := by
    change stepsStand pastPolicy (.ofMicros 1) hydratedAB pathAB 0
      [stepAlong versionA edgeAB .outward] = _
    have hedge : versionA.bundle.edges.find?
        (·.relationId = (stepAlong versionA edgeAB .outward).relationId) = some edgeAB := by
      simp [KnowledgeRecord.bundle, versionA, sampleVersion, bundleAB, stepAlong]
    have hconfirms : confirms (.ofMicros 1) pathAB 0 (stepAlong versionA edgeAB .outward) edgeAB := by
      have hsource : edgeAB.source.key = "157" := entityA_key
      have htarget : edgeAB.target.key = "158" := entityB_key
      refine ⟨⟨rfl, rfl, by decide, fun t ht => absurd ht (Option.not_mem_none t)⟩,
        ⟨?_, rfl, rfl, rfl⟩, rfl⟩
      change ["157", "158"] = [edgeAB.source.key, edgeAB.target.key]
      rw [hsource, htarget]
    have hproofs : ∀ ref ∈ (stepAlong versionA edgeAB .outward).evidence,
        proofStands pastPolicy (.ofMicros 1) hydratedAB edgeAB.source.scope ref := pathAB_facts.2.1
    have howner : hydratedAB.knowledge? (stepAlong versionA edgeAB .outward).ownerRecordId =
        some versionA := rfl
    have hvisible : visible pastPolicy (.ofMicros 1) true versionA ∧
        versionA.version = (stepAlong versionA edgeAB .outward).ownerVersion := pathAB_facts.2.2.1
    rw [stepsStand]
    simp only [howner, hedge]
    rw [if_pos hvisible]
    refine CyberBrain.bind_eq_ok.mpr ⟨(), versionA_verifies, ?_⟩
    rw [if_pos hconfirms]
    refine CyberBrain.bind_eq_ok.mpr ⟨true, rfl, ?_⟩
    rw [decide_eq_true hproofs]
    rfl
  exact CyberBrain.bind_eq_ok.mpr ⟨true, hends, CyberBrain.bind_eq_ok.mpr ⟨true, hstep, rfl⟩⟩

lemma addRows_sample : addRows sampleRequest hydratedAB (Table.empty _)
    (FrozenSet.ofList pathAB.refs).sorted = .ok rowsAB := by
  have hrefs : (FrozenSet.ofList pathAB.refs).sorted =
      [⟨.knowledge, .ofNat 1⟩, ⟨.knowledge, .ofNat 3⟩] := pathAB_facts.2.2.2.1.1
  have hne : (⟨.knowledge, .ofNat 3⟩ : EvidenceRef) ≠ ⟨.knowledge, .ofNat 1⟩ := by decide
  rw [hrefs]
  refine congrArg Except.ok ?_
  simp only [Table.upsert, Table.rows_empty]
  simp only [rowsAB]
  simp [hne]
  exact ⟨rfl, rfl⟩

lemma edgeAB_relationId : edgeAB.relationId = "47" := by
  have hsource : edgeAB.source.key = "157" := entityA_key
  have htarget : edgeAB.target.key = "158" := entityB_key
  rw [RelationEdge.relationId, relationIdOf, hsource, htarget]
  exact pathAB_facts.2.2.2.2.1

lemma dump_pathAB : pathAB.dump = shownAB := by
  rw [shownAB, ← edgeAB_relationId]
  rfl

/-- The text of a value takes no more than the bytes of its strings, escaped. -/
lemma length_spaced_le (value : Json) :
    ((spacedDialect py).print value).length ≤ (spacedDialect py).bytesBound value :=
  Printing.Dialect.length_print_le (fun s => (Printing.length_quoted_le s).trans
    (Nat.add_le_add_left (Nat.mul_le_mul_left 6 (Printing.length_le_bytes s)) 2)) value

lemma length_packedAB : ((spacedDialect sizes).print (.obj packedAB.items)).length ≤ 4000 * 4 := by
  have hitems : packedAB.items = packedAB.items.set 0 ("paths", .arr [shownAB]) := by
    rw [← dump_pathAB]
    rfl
  rw [hitems]
  exact (length_spaced_le _).trans pathAB_facts.2.2.2.2.2

lemma packPath_sample : packPath sampleRequest hydratedAB (startAB, ["depth"]) pathAB =
    .ok (packedAB, ["depth"]) := by
  have hlength := length_packedAB.trans (show 4000 * 4 ≤ 4032 * 4 by decide)
  have hfits : tokenCounter.estimateTokens (jsonText sizes (.obj packedAB.items)) ≤ 4032 :=
    DeterministicTokenCounter.estimateTokens_le (by decide)
      (by rwa [jsonText, String.length_ofList])
  refine CyberBrain.bind_eq_ok.mpr ⟨true, pathAB_stands, ?_⟩
  refine CyberBrain.bind_eq_ok.mpr ⟨rowsAB, addRows_sample, ?_⟩
  exact if_neg (not_lt.mpr hfits)

lemma hydrate_sample {used : ℕ} (hused : used < 8) :
    verifiedSample.hydrate 8 [pathAB] { used } = (.ok hydratedAB, { used := used + 1 }) := by
  have hids : hydratedIds .knowledge [pathAB] = [.ofNat 1, .ofNat 3] := pathAB_facts.2.2.2.1.2.1
  have hepisodes : hydratedIds .episode [pathAB] = [] := pathAB_facts.2.2.2.1.2.2
  have hread := @sample_read [] (by decide)
    { must := [.field (.matchValue "record_type" (.str "knowledge"))]
      ids := some [.ofNat 1, .ofNat 3] } 256 true { used }
    [pointOf versionA, pointOf versionB] hused (by simp)
    (filter_pair (by rw [if_pos (by decide), if_pos (by decide)])) (by decide)
  rw [RelationTraversal.hydrate, hids, hepisodes]
  refine (bind_apply_of_ok (a := [versionA, versionB]) (t := { used := used + 1 }) ?_).trans rfl
  rw [hydrateRecords, if_neg (List.cons_ne_nil _ _)]
  exact (bind_apply_of_ok hread).trans rfl

theorem sample_recall : ∃ result,
    RelationRecallService.recall verifiedSample verifiedSample.store sampleRequest = .ok result ∧
      result.paths = [pathAB] := by
  have hfound := @sample_traverse [] (by decide) (by simp)
  have hgather : gather verifiedSample verifiedSample.store sampleRequest
      (RelationTraversal.result pastPolicy (.ofMicros 1) foundAB) = .ok (5, packedAB, ["depth"]) := by
    have hpack : [pathAB].foldlM (packPath sampleRequest hydratedAB) (startAB, ["depth"]) =
        .ok (packedAB, ["depth"]) := by
      rw [List.foldlM_cons, packPath_sample]
      rfl
    have hhydrate : RelationTraversal.hydrate { verifiedSample with store := verifiedSample.store }
        sampleRequest.policy.maxStorageCalls
        (RelationTraversal.result pastPolicy (.ofMicros 1) foundAB).paths
        { used := (RelationTraversal.result pastPolicy (.ofMicros 1) foundAB).storageCalls } =
          (.ok hydratedAB, { used := 5 }) := hydrate_sample (by decide)
    rw [gather, hhydrate]
    exact map_eq_ok.mpr ⟨_, hpack, rfl⟩
  refine ⟨(((packedAB.close 5 ["depth"]).measured sizes).measured sizes).measured sizes, ?_, rfl⟩
  exact CyberBrain.bind_eq_ok.mpr ⟨_, hfound, CyberBrain.bind_eq_ok.mpr ⟨_, hgather, rfl⟩⟩
theorem recall_grounded_sample : ∃ result,
    RelationRecallService.recall verifiedSample verifiedSample.store sampleRequest = .ok result ∧
      result.paths = [pathAB] ∧
      (∀ p ∈ result.paths,
        PathStands (Held (knowledgeSchema sizes) verifiedSample.store.knowledge (some owner))
          (Held episodeSchema verifiedSample.store.episodes (some owner)) pastPolicy (.ofMicros 1)
          p) ∧
      ∀ ref, ref ∈ result.records.rows.map Prod.fst ↔ ∃ p ∈ result.paths, ref ∈ p.refs := by
  obtain ⟨result, hresult, hpaths⟩ := sample_recall
  obtain ⟨found, hfound, -, -, hstands, hrefs, -⟩ :=
    recall_grounded (firstPage_lawful _) (firstPage_lawful _) hresult
  have hat : found = RelationTraversal.result pastPolicy (.ofMicros 1) foundAB :=
    Except.ok.inj (hfound.symm.trans (@sample_traverse [] (by decide) (by simp)))
  subst hat
  exact ⟨result, hresult, hpaths, hstands, hrefs⟩

end Sample

end CyberBrain.Relations
