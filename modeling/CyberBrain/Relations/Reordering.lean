import CyberBrain.Foundation.Lists
import CyberBrain.Foundation.TwoRuns
import CyberBrain.Relations.Search

/-!
# Reads in different orders

Two traversals of the same store receive its points in different orders. Their reads end alike, and
what they show of a level differs in its order only.
-/

namespace CyberBrain.Relations

open Program Python Schemas Tenancy RelationTraversal

variable {py : Runtime}

/-! ### Orders -/

/-- A repository that answers from its matching points in some order. -/
def RelationScroll.Scans {ρ : Type} (scroll : RelationScroll ρ) (schema : RecordSchema ρ) : Prop :=
  ∀ points q limit, ∃ l : List (RelationPoint ρ), l.Perm (points.rows.filter fun p => q.matches schema p) ∧
    scroll points q limit = (l.take limit, decide (limit < l.length))

lemma RelationScroll.Scans.lawful {ρ : Type} {schema : RecordSchema ρ}
    {scroll : RelationScroll ρ} (h : scroll.Scans schema) : scroll.Lawful schema := by
  refine ⟨fun points q limit => ?_, fun points q limit p hp => ?_, fun points q limit hmore p hp hq => ?_⟩
  · obtain ⟨l, hl, hscroll⟩ := h points q limit
    rw [hscroll]
    exact (hl.nodup_iff.mpr (points.nodup_rows.filter _)).sublist (List.take_sublist _ _)
  · obtain ⟨l, hl, hscroll⟩ := h points q limit
    rw [hscroll] at hp
    obtain ⟨hrow, hmatch⟩ := List.mem_filter.mp (hl.mem_iff.mp (List.mem_of_mem_take hp))
    exact ⟨hrow, of_decide_eq_true hmatch⟩
  · obtain ⟨l, hl, hscroll⟩ := h points q limit
    rw [hscroll] at hmore ⊢
    rw [List.take_of_length_le (not_lt.mp (of_decide_eq_false hmore))]
    exact hl.mem_iff.mpr (List.mem_filter.mpr ⟨hp, decide_eq_true hq⟩)

/-- The traversal over repositories that answer in other orders. -/
abbrev RelationTraversal.inOrder (t : RelationTraversal py)
    (scrollKnowledge : RelationScroll (KnowledgeRecord py))
    (scrollEpisodes : RelationScroll EpisodeRecord) : RelationTraversal py :=
  { t with scrollKnowledge, scrollEpisodes }

/-- Both calls return the same set of paths and the same reasons, or both raise. -/
def SameFindings : Except Exc TraversalResult → Except Exc TraversalResult → Prop :=
  SameOutcome fun a b =>
    (∀ p, p ∈ a.paths ↔ p ∈ b.paths) ∧ a.truncationReasons = b.truncationReasons

/-- A call finds the same in whichever order the points are received. -/
def OrderFree (t : RelationTraversal py) (seedIds : List Uuid) (policy : TraversalPolicy) : Prop :=
  ∀ scrollKnowledge scrollEpisodes, scrollKnowledge.Scans (knowledgeSchema py) →
    scrollEpisodes.Scans episodeSchema →
    SameFindings (t.traverse seedIds policy)
      ((t.inOrder scrollKnowledge scrollEpisodes).traverse seedIds policy)

/-! ### What does not depend on the order -/

section Outcomes

variable {at' : Instant} {historical : Bool} {policy : TraversalPolicy} {keys : List String}

lemma mapM_outcome {ε α β : Type} {f : α → Except ε β} {l m : List α} (h : l.Perm m) :
    SameOutcome List.Perm (l.mapM f) (m.mapM f) := by
  refine .intro (fun bs hbs => ?_) (fun cs hcs => ?_) fun bs cs hbs hcs => ?_
  · obtain ⟨cs, hcs, -⟩ := mapM_perm h hbs
    exact ⟨cs, hcs⟩
  · obtain ⟨bs, hbs, -⟩ := mapM_perm h.symm hcs
    exact ⟨bs, hbs⟩
  · obtain ⟨cs', hcs', hperm⟩ := mapM_perm h hbs
    rw [hcs] at hcs'
    exact Except.ok.inj hcs' ▸ hperm

lemma collectClaims_outcome {owners owners' : List (RelationPoint (KnowledgeRecord py))}
    (h : owners.Perm owners') : SameOutcome List.Perm (collectClaims policy at' keys owners)
      (collectClaims policy at' keys owners') := by
  refine (mapM_outcome h).bind fun claims claims' hclaims => ?_
  exact hclaims.flatten

section Claims

variable {claims claims' : List (KnowledgeRecord py × RelationEdge py)}

lemma headKeys_perm (h : claims.Perm claims') : headKeys keys claims = headKeys keys claims' := by
  rw [headKeys, headKeys]
  refine congrArg FrozenSet.sorted (FrozenSet.ext fun key => ?_)
  simp only [FrozenSet.mem_ofList, List.mem_append, List.mem_flatMap, h.mem_iff]

lemma proofIds_perm (h : claims.Perm claims') (recordType : EvidenceType) :
    proofIds recordType claims = proofIds recordType claims' := by
  have hperm := (h.flatMap_right fun c =>
    (c.2.evidence.sorted.filter (·.recordType = recordType)).map (·.id)).dedup
  refine List.Perm.eq_of_pairwise (fun a b _ _ hab hba => ?_) (List.pairwise_insertionSort _ _)
    (List.pairwise_insertionSort _ _)
    (((List.perm_insertionSort _ _).trans hperm).trans (List.perm_insertionSort _ _).symm)
  exact Uuid.text_injective (le_antisymm hab hba)

end Claims

section Heads

variable {candidates candidates' : List (KnowledgeRecord py)}
  {points points' : List (RelationPoint (KnowledgeRecord py))}

lemma exists_cons_cons {α : Type*} {a b : α} {l m : List α}
    (h : (a :: b :: l).length = m.length) : ∃ c d rest, m = c :: d :: rest := by
  cases m with
  | nil         => cases h
  | cons c rest =>
    cases rest with
    | nil         => cases h
    | cons d rest => exact ⟨c, d, rest, rfl⟩

lemma chooseHead_perm (h : candidates.Perm candidates') :
    chooseHead historical candidates = chooseHead historical candidates' := by
  have hversions : (headVersions historical candidates).Perm
      (headVersions historical candidates') := by
    cases historical with
    | false => exact h.filter _
    | true =>
      have hlatest : (fun r : KnowledgeRecord py => decide (∀ q ∈ candidates, q.version ≤ r.version)) =
          fun r => decide (∀ q ∈ candidates', q.version ≤ r.version) :=
        funext fun r => by simp only [h.mem_iff]
      simp only [headVersions, if_true, hlatest]
      exact h.filter _
  simp only [chooseHead]
  generalize headVersions historical candidates = versions at hversions
  generalize headVersions historical candidates' = versions' at hversions
  cases versions with
  | nil           => rw [List.nil_perm.mp hversions]
  | cons r rest =>
    cases rest with
    | nil           => rw [List.singleton_perm.mp hversions]
    | cons r' rest =>
      obtain ⟨q, q', rest', rfl⟩ : ∃ q q' rest', versions' = q :: q' :: rest' :=
        exists_cons_cons hversions.length_eq
      rfl

/-- The heads among the same points are the same. -/
lemma headMap_outcome (h : points.Perm points') :
    SameOutcome (fun heads heads' => ∀ key, heads.lookup key = heads'.lookup key)
      (headMap at' historical points) (headMap at' historical points') := by
  have hsome {points points' : List (RelationPoint (KnowledgeRecord py))} (h : points.Perm points')
      {heads : List (String × KnowledgeRecord py)} (hheads : headMap at' historical points = .ok heads) :
      ∃ heads', headMap at' historical points' = .ok heads' := by
    obtain ⟨found, hfound, hrest⟩ := bind_eq_ok.mp hheads
    obtain ⟨chosen, hchosen, -⟩ := bind_eq_ok.mp hrest
    obtain ⟨found', hfound', hperm⟩ := mapM_perm h hfound
    have hcandidates : found.reduceOption.Perm found'.reduceOption := hperm.filterMap id
    have hturns (key : String) :
        chooseHead historical ((found.reduceOption.filter (·.1 = key)).map (·.2)) =
          chooseHead historical ((found'.reduceOption.filter (·.1 = key)).map (·.2)) :=
      chooseHead_perm ((hcandidates.filter _).map _)
    simp only [hturns] at hchosen
    obtain ⟨chosen', hchosen', -⟩ := mapM_perm (hcandidates.map (·.1)).dedup hchosen
    exact ⟨_, bind_eq_ok.mpr ⟨found', hfound', bind_eq_ok.mpr ⟨chosen', hchosen', rfl⟩⟩⟩
  refine .intro (fun _ hheads => hsome h hheads) (fun _ hheads => hsome h.symm hheads)
    fun heads heads' hheads hheads' key => Option.ext fun r => ?_
  rw [headMap_lookup hheads, headMap_lookup hheads']
  simp only [h.mem_iff]

end Heads

lemma namedPoints_perm {points points' : List (RelationPoint (KnowledgeRecord py))}
    (h : points.Perm points') : (namedPoints keys points).Perm (namedPoints keys points') :=
  h.filter _

lemma sharedScope_iff {refs : List (EntityRef py)} {scope : RelationScope py} :
    sharedScope refs = .ok scope ↔ ¬ refs = [] ∧ ∀ ref ∈ refs, ref.scope = scope := by
  refine ⟨sharedScope_eq_ok, fun ⟨hne, hall⟩ => ?_⟩
  cases refs with
  | nil => exact absurd rfl hne
  | cons ref refs =>
    obtain ⟨rfl, hrest⟩ := List.forall_mem_cons.mp hall
    exact bind_eq_ok.mpr ⟨(), if_pos hrest, rfl⟩

end Outcomes

/-! ### Reads side by side -/

/-- Two traversals have made as many calls. -/
def SameCalls (s s' : TraversalState) : Prop := s.used = s'.used

/-- Two traversals end early for the same limit, or both with an exception. -/
def SameEnd : Interruption → Interruption → Prop
  | .limit reason, .limit reason' => reason = reason'
  | .raised _, .raised _          => True
  | _, _                          => False

/-- Two traversals end early after as many calls. -/
def EndAlike (e e' : Interruption) (s s' : TraversalState) : Prop := SameEnd e e' ∧ SameCalls s s'

section Reads

variable {t : RelationTraversal py} {scrollKnowledge : RelationScroll (KnowledgeRecord py)}
  {scrollEpisodes : RelationScroll EpisodeRecord} {policy : TraversalPolicy} {at' : Instant}
  {scope : RelationScope py} {maximum : ℕ}

lemma checked_alike {α β γ κ : Type} {x : Except Exc α} {y : Except Exc β} {V : α → β → Prop}
    {f : α → Traversing γ} {g : β → Traversing κ} {R : γ → κ → TraversalState → TraversalState → Prop}
    (h : SameOutcome V x y) (hfg : ∀ a b, V a b → Alike SameCalls (f a) (g b) R EndAlike) :
    Alike SameCalls (checked x >>= f) (checked y >>= g) R EndAlike := by
  rcases x with e | a <;> rcases y with d | b
  · exact fun s t hst => ⟨trivial, hst⟩
  · exact h.elim
  · exact h.elim
  · exact hfg a b h

lemma charge_alike : Alike SameCalls (RelationTraversal.charge maximum)
    (RelationTraversal.charge maximum) (fun _ _ => SameCalls) EndAlike := by
  intro s s' hused
  have hused : s.used = s'.used := hused
  by_cases h : maximum ≤ s.used
  · simp only [RelationTraversal.charge, if_pos h, if_pos (hused ▸ h)]
    exact ⟨rfl, hused⟩
  · simp only [RelationTraversal.charge, if_neg h, if_neg (hused ▸ h)]
    exact congrArg (· + 1) hused

/-- A read returns the same points in both orders, or is cut in both. -/
lemma read_alike {ρ : Type} {schema : RecordSchema ρ} {scroll scroll' : RelationScroll ρ}
    (h : scroll.Scans schema) (h' : scroll'.Scans schema) (points : RelationPoints ρ)
    (episode : Bool) (q : Query) {limit : ℕ} (hlimit : 0 < limit) (complete : Bool) :
    Alike SameCalls (t.read (scroll points) episode maximum q limit complete)
      (t.read (scroll' points) episode maximum q limit complete)
      (fun page page' s s' => SameCalls s s' ∧ (complete = true → page.Perm page') ∧
        page.isEmpty = page'.isEmpty) EndAlike := by
  unfold RelationTraversal.read
  refine checked_alike (V := Eq) (.of_iff fun _ => Iff.rfl) ?_
  rintro conditions _ rfl
  refine Alike.bind _ charge_alike fun _ _ => ?_
  obtain ⟨l, hl, hscroll⟩ := h points (q.within conditions) limit
  obtain ⟨l', hl', hscroll'⟩ := h' points (q.within conditions) limit
  have hperm : l.Perm l' := hl.trans hl'.symm
  simp only [hscroll, hscroll', hperm.length_eq]
  refine Alike.ite Iff.rfl (fun _ _ => Alike.raise fun s s' hs => ⟨rfl, hs⟩) fun hwhole _ => ?_
  refine Alike.pure fun s s' hs => ⟨hs, fun hcomplete => ?_, ?_⟩
  · have hle : l'.length ≤ limit := by simpa [hcomplete] using hwhole
    rw [List.take_of_length_le hle, List.take_of_length_le (hperm.length_eq ▸ hle)]
    exact hperm
  · cases hempty : l with
    | nil =>
      rw [hempty] at hperm
      rw [List.nil_perm.mp hperm]
    | cons a rest =>
      rw [hempty] at hperm
      obtain ⟨b, rest', rfl⟩ := List.exists_cons_of_ne_nil (l := l') fun hnil => by
        rw [hnil] at hperm
        exact List.cons_ne_nil _ _ (List.perm_nil.mp hperm)
      obtain ⟨n, rfl⟩ := Nat.exists_eq_succ_of_ne_zero hlimit.ne'
      rfl

section Orders

variable (hknowledge : t.scrollKnowledge.Scans (knowledgeSchema py))
  (hknowledge' : scrollKnowledge.Scans (knowledgeSchema py))
  (hepisodes : t.scrollEpisodes.Scans episodeSchema)
  (hepisodes' : scrollEpisodes.Scans episodeSchema)

include hknowledge hknowledge'

lemma requireReady_alike :
    Alike SameCalls (t.requireReady maximum)
      ((t.inOrder scrollKnowledge scrollEpisodes).requireReady maximum)
      (fun _ _ => SameCalls) EndAlike := by
  unfold RelationTraversal.requireReady
  refine checked_alike (V := fun _ _ => True) ?_ fun _ _ _ => ?_
  · exact SameOutcome.mono (.of_iff fun _ => Iff.rfl) fun _ _ _ => trivial
  refine checked_alike (V := fun _ _ => True) ?_ fun _ _ _ => ?_
  · exact SameOutcome.mono (.of_iff fun _ => Iff.rfl) fun _ _ _ => trivial
  refine Alike.bind _ (read_alike hknowledge hknowledge' t.store.knowledge false _ Nat.one_pos false)
    fun points points' => ?_
  rintro s s' ⟨hs, -, hempty⟩
  by_cases hnone : points'.isEmpty = true
  · simp only [require, hempty, if_pos hnone]
    exact hs
  · simp only [require, hempty, if_neg hnone]
    exact ⟨trivial, hs⟩

lemma readSeeds_alike (seedIds : List Uuid) :
    Alike SameCalls (t.readSeeds policy at' seedIds)
      ((t.inOrder scrollKnowledge scrollEpisodes).readSeeds policy at' seedIds)
      (fun _ _ => SameCalls) EndAlike := by
  unfold RelationTraversal.readSeeds
  refine Alike.bind _ (read_alike hknowledge hknowledge' t.store.knowledge false _ (by decide) true)
    fun points points' => ?_
  refine Alike.given fun hpoints => ?_
  refine checked_alike (mapM_outcome (hpoints.1 rfl)) fun seeds seeds' hseeds => ?_
  refine checked_alike (V := fun _ _ => True) ?_ fun _ _ _ => ?_
  · refine SameOutcome.mono (.of_iff fun u => ?_) fun _ _ _ => trivial
    simp only [require_eq_ok, hseeds.mem_iff]
  refine checked_alike (mapM_outcome hseeds) fun refs refs' hrefs => ?_
  refine checked_alike (V := fun _ _ => True) ?_ fun _ _ _ => ?_
  · refine SameOutcome.mono (.of_iff fun scope => ?_) fun _ _ _ => trivial
    rw [sharedScope_iff, sharedScope_iff, ← List.length_eq_zero_iff, hrefs.length_eq,
      List.length_eq_zero_iff]
    simp only [hrefs.mem_iff]
  refine checked_alike (V := fun _ _ => True) ?_ fun _ _ _ => Alike.pure fun _ _ => id
  refine SameOutcome.mono (.of_iff fun u => ?_) fun _ _ _ => trivial
  simp only [forM_eq_ok, hseeds.mem_iff]

include hepisodes hepisodes'

omit hknowledge hknowledge' in
lemma readProofs_alike (proofs : List Uuid) :
    Alike SameCalls (t.readProofs policy scope proofs)
      ((t.inOrder scrollKnowledge scrollEpisodes).readProofs policy scope proofs)
      (fun points points' s s' => SameCalls s s' ∧ points.Perm points') EndAlike := by
  unfold RelationTraversal.readProofs
  refine Alike.ite Iff.rfl (fun _ _ => ?_) fun _ _ => ?_
  · exact Alike.pure fun _ _ hs => ⟨hs, List.Perm.refl _⟩
  · refine (read_alike hepisodes hepisodes' t.store.episodes true _ (by decide) true).conseq
      (fun _ _ => id) (fun _ _ _ _ h => ⟨h.1, h.2.1 rfl⟩) fun _ _ _ _ => id

variable (policy at' scope) in
/-- The reads of a level end alike from frontiers that come to the same entities. -/
theorem candidatePaths_alike {frontier frontier' : List TraversalPath}
    (hfrontier : frontier.Perm frontier') :
    Alike SameCalls (t.candidatePaths policy at' scope frontier)
      ((t.inOrder scrollKnowledge scrollEpisodes).candidatePaths policy at' scope frontier')
      (fun _ _ => SameCalls) EndAlike := by
  have hkeys : FrozenSet.ofList (frontier.map (·.lastKey)) =
      FrozenSet.ofList (frontier'.map (·.lastKey)) :=
    FrozenSet.ext fun key => by simp only [FrozenSet.mem_ofList, (hfrontier.map _).mem_iff]
  unfold RelationTraversal.candidatePaths
  dsimp only
  rw [hkeys]
  have hread (q : Query) := @read_alike _ t policy.maxStorageCalls _ _ _ _ hknowledge hknowledge'
    t.store.knowledge false q 256 (by decide) true
  refine Alike.bind _ (hread _) fun owners owners' => ?_
  refine Alike.given fun howners => ?_
  refine checked_alike (collectClaims_outcome (howners.1 rfl)) fun claims claims' hclaims => ?_
  rw [headKeys_perm hclaims, proofIds_perm hclaims, proofIds_perm hclaims]
  refine Alike.bind _ (hread _) fun records records' => ?_
  refine Alike.given fun hrecords => ?_
  refine checked_alike (mapM_outcome (hrecords.1 rfl)) fun _ _ _ => ?_
  refine checked_alike (headMap_outcome (namedPoints_perm (hrecords.1 rfl))) fun _ _ _ => ?_
  refine Alike.bind _ (readProofs_alike hepisodes hepisodes' _)
    fun points points' => ?_
  refine Alike.given fun hpoints => ?_
  exact checked_alike (mapM_outcome hpoints) fun _ _ _ => Alike.pure fun _ _ => id

end Orders

end Reads

end CyberBrain.Relations
