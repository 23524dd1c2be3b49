import CyberBrain.Relations.Reordering
import CyberBrain.Relations.Soundness
import Mathlib.Data.Set.Card

/-!
# The order of storage

A traversal finds the same in whichever order it receives the points, where no budget cuts its
search, or where it starts from one record and no two assertions are tied.
-/

namespace CyberBrain.Relations

open Program Python Schemas Tenancy RelationTraversal

variable {py : Runtime}

/-! ### A level in two orders -/

section Level

variable {store : RelationStore py} {caller : CallerAuthority py} {policy : TraversalPolicy}
  {at' : Instant} {scope : RelationScope py} {keys : List String} {l l' : Level py}

/-- Complete answers to one query differ in their order only. -/
lemma Answer.perm {ρ : Type} {schema : RecordSchema ρ} {points : RelationPoints ρ} {q : Query}
    {page page' : List (RelationPoint ρ)} (h : Answer schema points q page)
    (h' : Answer schema points q page') : page.Perm page' :=
  (List.perm_ext_iff_of_nodup h.nodup h'.nodup).mpr fun p =>
    (h.mem_iff p).trans (h'.mem_iff p).symm

namespace Level

lemma Reads.claims_perm (h : l.Reads store caller policy at' scope keys)
    (h' : l'.Reads store caller policy at' scope keys) : l.claims.Perm l'.claims := by
  have houtcome := @collectClaims_outcome _ at' policy keys _ _ (h.owners.perm h'.owners)
  rwa [h.claims, h'.claims] at houtcome

lemma Reads.lookup_eq (h : l.Reads store caller policy at' scope keys)
    (h' : l'.Reads store caller policy at' scope keys) (key : String) :
    l.heads.lookup key = l'.heads.lookup key := by
  have hclaims := h.claims_perm h'
  have hrecords := h.records
  have hheads := h.heads
  rw [headKeys_perm hclaims, proofIds_perm hclaims] at hrecords
  rw [headKeys_perm hclaims] at hheads
  have houtcome := @headMap_outcome _ at' policy.asOf.isSome _ _
    (@namedPoints_perm _ (headKeys keys l'.claims) _ _ (hrecords.perm h'.records))
  rw [hheads, h'.heads] at houtcome
  exact houtcome key

/-- The transitions of a level differ in their order only. -/
lemma Reads.adjacency_perm (h : l.Reads store caller policy at' scope keys)
    (h' : l'.Reads store caller policy at' scope keys)
    (hsha : Set.InjOn py.sha256 (entityTexts store)) (hseen : Seen caller scope) :
    (l.adjacency policy at' scope).Perm (l'.adjacency policy at' scope) := by
  refine (List.perm_ext_iff_of_nodup h.nodup_adjacency h'.nodup_adjacency).mpr fun tr => ?_
  rw [h.mem_adjacency hsha hseen, h'.mem_adjacency hsha hseen]
  simp only [(h.claims_perm h').mem_iff]

variable (store policy at' scope) in
/-- Moves between the same entities along one relation take the same step. -/
def Untied : Prop :=
  ∀ key r key' r₁ r₂ step₁ step₂,
    Move store policy at' scope (NamedVersion store at') key r key' r₁ step₁ →
    Move store policy at' scope (NamedVersion store at') key r key' r₂ step₂ →
    step₁.relationId = step₂.relationId → step₁ = step₂

/-- Where no assertions are tied, the transitions of a level are tried in the same order. -/
lemma Reads.ordered_eq (h : l.Reads store caller policy at' scope keys)
    (h' : l'.Reads store caller policy at' scope keys)
    (hsha : Set.InjOn py.sha256 (entityTexts store)) (hseen : Seen caller scope)
    (huntied : Untied store policy at' scope) (key : String) :
    orderedTransitions (l.adjacency policy at' scope) key =
      orderedTransitions (l'.adjacency policy at' scope) key := by
  have hperm := h.adjacency_perm h' hsha hseen
  refine List.Perm.eq_of_pairwise (fun a b ha hb hab hba => ?_) (List.pairwise_insertionSort _ _)
    (List.pairwise_insertionSort _ _) (((List.perm_insertionSort _ _).trans
      (hperm.filter _)).trans (List.perm_insertionSort _ _).symm)
  obtain ⟨ha, hstart⟩ := List.mem_filter.mp ((List.mem_insertionSort _).mp ha)
  obtain ⟨hb, hstart'⟩ := List.mem_filter.mp ((List.mem_insertionSort _).mp hb)
  have hsame := toLex.injective (le_antisymm hab hba)
  obtain ⟨hfinish, hrelation⟩ := Prod.mk.inj hsame
  have hstart : a.start = b.start := (of_decide_eq_true hstart).trans (of_decide_eq_true hstart').symm
  obtain ⟨r, r₁, hmove, hendpoint⟩ := h.move_of_mem hsha hseen ha
  obtain ⟨q, r₂, hmove', hendpoint'⟩ := h'.move_of_mem hsha hseen hb
  rw [← hstart, ← hfinish] at hmove'
  obtain rfl : r = q := hmove.heads.1.1.eq hmove'.heads.1.1
  obtain rfl : r₁ = r₂ := hmove.heads.2.1.eq hmove'.heads.2.1
  have hstep := huntied _ _ _ _ _ _ _ hmove hmove' hrelation
  cases a
  cases b
  simp_all

end Level

variable {p : TraversalPath}

/-- The longer paths that are tried from a path differ in their order only. -/
lemma Level.Reads.longer_perm (h : l.Reads store caller policy at' scope keys)
    (h' : l'.Reads store caller policy at' scope keys)
    (hsha : Set.InjOn py.sha256 (entityTexts store)) (hseen : Seen caller scope) :
    (longerPaths at' l.heads (l.adjacency policy at' scope) p).Perm
      (longerPaths at' l'.heads (l'.adjacency policy at' scope) p) := by
  have hordered : (orderedTransitions (l.adjacency policy at' scope) p.lastKey).Perm
      (orderedTransitions (l'.adjacency policy at' scope) p.lastKey) :=
    ((List.perm_insertionSort _ _).trans ((h.adjacency_perm h' hsha hseen).filter _)).trans
      (List.perm_insertionSort _ _).symm
  unfold longerPaths
  rw [h.lookup_eq h']
  cases l'.heads.lookup p.lastKey with
  | none => exact List.Perm.refl _
  | some head =>
    dsimp only
    split_ifs
    · exact (hordered.filter _).map _
    · exact List.Perm.refl _

/-- Where no assertions are tied, the same longer paths are tried in the same order. -/
lemma Level.Reads.longer_eq (h : l.Reads store caller policy at' scope keys)
    (h' : l'.Reads store caller policy at' scope keys)
    (hsha : Set.InjOn py.sha256 (entityTexts store)) (hseen : Seen caller scope)
    (huntied : Untied store policy at' scope) :
    longerPaths at' l.heads (l.adjacency policy at' scope) p =
      longerPaths at' l'.heads (l'.adjacency policy at' scope) p := by
  unfold longerPaths
  rw [h.lookup_eq h', h.ordered_eq h' hsha hseen huntied]

end Level

/-! ### Searches that fit their budgets -/

section Budgets

variable (store : RelationStore py) (policy : TraversalPolicy) (at' : Instant)
  (scope : RelationScope py) (ids : List Uuid)

/-- The walks that a search may find. -/
def walkedPaths : Set TraversalPath :=
  {p | IsWalk store policy at' scope ids p ∧ 1 ≤ p.steps.length ∧ p.steps.length ≤ policy.depth}

/-- The entities that a search may come to. -/
def walkedKeys : Set String :=
  {key | ∃ p, IsWalk store policy at' scope ids p ∧ p.steps.length ≤ policy.depth ∧
    key ∈ p.nodeKeys}

/-- The relations that a search may follow. -/
def walkedRelations : Set String :=
  {id | ∃ p, IsWalk store policy at' scope ids p ∧ p.steps.length ≤ policy.depth ∧
    ∃ step ∈ p.steps, step.relationId = id}

/-- All that a search may find fits its budgets. -/
structure Fits : Prop where
  paths : (walkedPaths store policy at' scope ids).encard ≤ policy.maxPaths
  keys : (walkedKeys store policy at' scope ids).encard ≤ policy.maxNodes
  relations : (walkedRelations store policy at' scope ids).encard ≤ policy.maxEdges

/-- What a search has found and used is among what it may find. -/
structure Within (s : TraversalState) : Prop where
  paths_nodup : s.paths.Nodup
  paths : ∀ p ∈ s.paths, p ∈ walkedPaths store policy at' scope ids
  nodes_nodup : s.nodes.Nodup
  nodes : ∀ key ∈ s.nodes, key ∈ walkedKeys store policy at' scope ids
  edges_nodup : s.edgeIds.Nodup
  edges : ∀ id ∈ s.edgeIds, id ∈ walkedRelations store policy at' scope ids

end Budgets

section Admission

variable {store : RelationStore py} {policy : TraversalPolicy} {at' : Instant}
  {scope : RelationScope py} {ids : List Uuid} {s : TraversalState}

/-- A list of some elements of a set that misses one is shorter than the set. -/
lemma length_lt_of_encard {α : Type*} {S : Set α} {n : ℕ} (hS : S.encard ≤ n) {l : List α}
    (hnodup : l.Nodup) (hl : ∀ b ∈ l, b ∈ S) {a : α} (ha : a ∈ S) (hnew : a ∉ l) :
    l.length < n := by
  classical
  have hsubset : ((a :: l).toFinset : Set α) ⊆ S := by
    intro b hb
    rcases List.mem_cons.mp (List.mem_toFinset.mp hb) with rfl | hb
    · exact ha
    · exact hl b hb
  have hcard := (Set.encard_le_encard hsubset).trans hS
  rw [Set.encard_coe_eq_coe_finsetCard,
    List.toFinset_card_of_nodup (List.nodup_cons.mpr ⟨hnew, hnodup⟩)] at hcard
  exact_mod_cast hcard

lemma nodup_insert {l : List String} {a : String} (h : l.Nodup) : (l.insert a).Nodup := by
  by_cases hmem : a ∈ l
  · rwa [List.insert_of_mem hmem]
  · rw [List.insert_of_not_mem hmem]
    exact List.nodup_cons.mpr ⟨hmem, h⟩

/-- A longer path that a search may find is kept, where all of them fit. -/
lemma Within.admitPath (hfits : Fits store policy at' scope ids)
    (h : Within store policy at' scope ids s) (next : List TraversalPath) {p : TraversalPath}
    {tr : Transition} (hp : p ∈ walkedPaths store policy at' scope ids)
    (hkey : tr.finish ∈ walkedKeys store policy at' scope ids)
    (hrelation : tr.step.relationId ∈ walkedRelations store policy at' scope ids)
    (hnew : p ∉ s.paths) :
    ∃ s', Relations.admitPath policy (s, next) (p, tr) = (s', next ++ [p]) ∧
      s'.paths = s.paths ++ [p] ∧ s'.reasons = s.reasons ∧ s'.used = s.used ∧
      Within store policy at' scope ids s' := by
  have hnodes : ¬ (tr.finish ∉ s.nodes ∧ policy.maxNodes ≤ s.nodes.length) := fun ⟨hmem, hle⟩ =>
    absurd (length_lt_of_encard hfits.keys h.nodes_nodup h.nodes hkey hmem) (not_lt.mpr hle)
  have hedges : ¬ (tr.step.relationId ∉ s.edgeIds ∧ policy.maxEdges ≤ s.edgeIds.length) :=
    fun ⟨hmem, hle⟩ =>
      absurd (length_lt_of_encard hfits.relations h.edges_nodup h.edges hrelation hmem)
        (not_lt.mpr hle)
  have hpaths : ¬ policy.maxPaths ≤ s.paths.length :=
    not_le.mpr (length_lt_of_encard hfits.paths h.paths_nodup h.paths hp hnew)
  simp only [Relations.admitPath, if_neg hnodes, if_neg hedges, if_neg hpaths]
  refine ⟨_, rfl, rfl, rfl, rfl, ?_, ?_, nodup_insert h.nodes_nodup, ?_, nodup_insert h.edges_nodup, ?_⟩
  · rw [← List.concat_eq_append]
    exact h.paths_nodup.concat hnew
  · intro q hq
    rcases List.mem_append.mp hq with hq | hq
    · exact h.paths q hq
    · exact List.mem_singleton.mp hq ▸ hp
  · intro key hmem
    rcases List.mem_insert_iff.mp hmem with rfl | hmem
    · exact hkey
    · exact h.nodes key hmem
  · intro id hmem
    rcases List.mem_insert_iff.mp hmem with rfl | hmem
    · exact hrelation
    · exact h.edges id hmem

/-- All longer paths are kept, where all that a search may find fits. -/
lemma Within.admitAll (hfits : Fits store policy at' scope ids)
    (candidates : List (TraversalPath × Transition)) (h : Within store policy at' scope ids s)
    (next : List TraversalPath)
    (hall : ∀ c ∈ candidates, c.1 ∈ walkedPaths store policy at' scope ids ∧
      c.2.finish ∈ walkedKeys store policy at' scope ids ∧
      c.2.step.relationId ∈ walkedRelations store policy at' scope ids)
    (hnodup : (s.paths ++ candidates.map (·.1)).Nodup) :
    ∃ s', candidates.foldl (Relations.admitPath policy) (s, next) =
        (s', next ++ candidates.map (·.1)) ∧
      s'.paths = s.paths ++ candidates.map (·.1) ∧ s'.reasons = s.reasons ∧ s'.used = s.used ∧
      Within store policy at' scope ids s' := by
  induction candidates generalizing s next with
  | nil => exact ⟨s, by simp, by simp, rfl, rfl, h⟩
  | cons c candidates ih =>
    obtain ⟨⟨hp, hkey, hrelation⟩, hrest⟩ := List.forall_mem_cons.mp hall
    rw [List.map_cons, List.append_cons] at hnodup
    have hnew : c.1 ∉ s.paths := fun hmem => by
      have := (List.nodup_append.mp hnodup).1
      exact (List.nodup_append.mp this).2.2 _ hmem _ (List.mem_singleton_self _) rfl
    obtain ⟨s₁, hturn, hpaths, hreasons, hused, hwithin⟩ :=
      @Within.admitPath _ _ _ _ _ _ _ hfits h next c.1 c.2 hp hkey hrelation hnew
    obtain ⟨s₂, hfold, hpaths', hreasons', hused', hwithin'⟩ :=
      ih hwithin (next ++ [c.1]) hrest (hpaths ▸ hnodup)
    refine ⟨s₂, ?_, ?_, hreasons'.trans hreasons, hused'.trans hused, hwithin'⟩
    · rw [List.foldl_cons, hturn, hfold, List.append_assoc]
      rfl
    · rw [hpaths', hpaths, List.append_assoc]
      rfl

end Admission

/-! ### Two searches -/

/-- Two searches have found the same paths and name the same reasons. -/
def SameFound (s s' : TraversalState) : Prop := s.paths.Perm s'.paths ∧ s.reasons = s'.reasons

section Searches

variable (store : RelationStore py) (policy : TraversalPolicy) (at' : Instant)
  (scope : RelationScope py) (ids : List Uuid)

/-- Two searches agree before a level: either nothing is tied and they are in the same state, or
whatever they may find fits the budgets. -/
structure Agree (frontier frontier' : List TraversalPath) (s s' : TraversalState) : Prop where
  calls : SameCalls s s'
  perm : frontier.Perm frontier'
  found : SameFound s s'
  mode : Level.Untied store policy at' scope ∧ frontier = frontier' ∧ s = s' ∨
    Fits store policy at' scope ids ∧ Within store policy at' scope ids s ∧
      Within store policy at' scope ids s'

end Searches

section Loop

variable {t : RelationTraversal py} {policy : TraversalPolicy} {at' : Instant}
  {scope : RelationScope py} {ids : List Uuid} {caller : CallerAuthority py} {k : ℕ}
  {frontier frontier' : List TraversalPath} {s s' u u' : TraversalState}

lemma Within.kept {store : RelationStore py} {maximum : ℕ}
    (h : Within store policy at' scope ids s) (hkept : Kept maximum s u) :
    Within store policy at' scope ids u := by
  constructor
  · exact hkept.paths ▸ h.paths_nodup
  · exact hkept.paths ▸ h.paths
  · exact hkept.nodes ▸ h.nodes_nodup
  · exact hkept.nodes ▸ h.nodes
  · exact hkept.edgeIds ▸ h.edges_nodup
  · exact hkept.edgeIds ▸ h.edges

lemma SameFound.kept {maximum : ℕ} (h : SameFound s s') (hkept : Kept maximum s u)
    (hkept' : Kept maximum s' u') : SameFound u u' := by
  rw [SameFound, hkept.paths, hkept'.paths, hkept.reasons, hkept'.reasons]
  exact h

lemma Agree.kept {store : RelationStore py} {maximum : ℕ}
    (h : Agree store policy at' scope ids frontier frontier' s s') (hkept : Kept maximum s u)
    (hkept' : Kept maximum s' u') (hcalls : SameCalls u u') :
    Agree store policy at' scope ids frontier frontier' u u' := by
  refine ⟨hcalls, h.perm, h.found.kept hkept hkept', ?_⟩
  rcases h.mode with ⟨huntied, hsame, rfl⟩ | ⟨hfits, hwithin, hwithin'⟩
  · refine .inl ⟨huntied, hsame, ?_⟩
    have hpaths := hkept.paths.trans hkept'.paths.symm
    have hnodes := hkept.nodes.trans hkept'.nodes.symm
    have hedges := hkept.edgeIds.trans hkept'.edgeIds.symm
    have hreasons := hkept.reasons.trans hkept'.reasons.symm
    have hcalls : u.used = u'.used := hcalls
    cases u
    cases u'
    simp_all
  · exact .inr ⟨hfits, hwithin.kept hkept, hwithin'.kept hkept'⟩

/-- What a longer path that a level tries is. -/
lemma Searched.longer (h : Searched t.store policy at' scope ids k frontier s)
    (hsha : Set.InjOn py.sha256 (entityTexts t.store)) (hseen : Seen caller scope) {l : Level py}
    (hreads : l.Reads t.store caller policy at' scope
      (FrozenSet.ofList (frontier.map (·.lastKey))).sorted) {c : TraversalPath × Transition}
    (hc : c ∈ frontier.flatMap (longerPaths at' l.heads (l.adjacency policy at' scope))) :
    IsWalk t.store policy at' scope ids c.1 ∧ c.1.steps.length = k + 1 ∧
      c.2.finish ∈ c.1.nodeKeys ∧ c.2.step ∈ c.1.steps := by
  obtain ⟨p, hp, hlonger⟩ := List.mem_flatMap.mp hc
  obtain ⟨⟨key, r, hwalk⟩, hlength⟩ := h.frontier_sound p hp
  have hkey : key ∈ (FrozenSet.ofList (frontier.map (·.lastKey))).sorted := by
    rw [← FrozenSet.mem_def, FrozenSet.mem_ofList, ← hwalk.last.1]
    exact List.mem_map_of_mem hp
  obtain ⟨r', hmove, hnew, heq⟩ := hreads.move_of_longer hsha hseen hwalk hkey hlonger
  rw [heq, length_extend, hlength]
  refine ⟨⟨c.2.finish, r', .move hwalk hmove hnew⟩, rfl, ?_, ?_⟩
  · exact List.mem_append_right _ (List.mem_singleton_self _)
  · exact List.mem_append_right _ (List.mem_singleton_self _)

/-- A level keeps all its longer paths, where all that may be found fits. -/
lemma Within.level (h : Within t.store policy at' scope ids s)
    (hfits : Fits t.store policy at' scope ids) (hk : k < policy.depth)
    (hsearched : Searched t.store policy at' scope ids k frontier s)
    (hsha : Set.InjOn py.sha256 (entityTexts t.store)) (hseen : Seen caller scope) {l : Level py}
    (hreads : l.Reads t.store caller policy at' scope
      (FrozenSet.ofList (frontier.map (·.lastKey))).sorted) {candidates}
    (hcandidates : candidates =
      frontier.flatMap (longerPaths at' l.heads (l.adjacency policy at' scope))) :
    ∃ v, RelationTraversal.admitAll policy candidates s = (.ok (candidates.map (·.1)), v) ∧
      v.paths = s.paths ++ candidates.map (·.1) ∧ v.reasons = s.reasons ∧ v.used = s.used ∧
      Within t.store policy at' scope ids v := by
  subst hcandidates
  have hlonger {c : TraversalPath × Transition} := hsearched.longer hsha hseen hreads (c := c)
  have hdisjoint : s.paths.Disjoint ((frontier.flatMap
      (longerPaths at' l.heads (l.adjacency policy at' scope))).map (·.1)) := by
    refine List.disjoint_left.mpr fun p hp hmem => ?_
    obtain ⟨c, hc, rfl⟩ := List.mem_map.mp hmem
    have hle := (hsearched.sound _ hp).2.2
    rw [(hlonger hc).2.1] at hle
    omega
  have hnodup := hsearched.nodup.append
    (nodup_longerPaths hreads.nodup_adjacency hsearched.frontier_nodup) hdisjoint
  obtain ⟨v, hfold, hv⟩ := h.admitAll hfits _ [] (fun c hc => by
    obtain ⟨hwalk, hlength, hkey, hstep⟩ := hlonger hc
    have hdepth : c.1.steps.length ≤ policy.depth := by omega
    exact ⟨⟨hwalk, by omega, hdepth⟩, ⟨c.1, hwalk, hdepth, hkey⟩,
      ⟨c.1, hwalk, hdepth, c.2.step, hstep, rfl⟩⟩) hnodup
  refine ⟨v, ?_, hv⟩
  rw [RelationTraversal.admitAll, hfold, List.nil_append]

/-- Two searches that agree before a level agree after it. -/
theorem Agree.level (h : Agree t.store policy at' scope ids frontier frontier' s s')
    (hk : k < policy.depth) (hs : Searched t.store policy at' scope ids k frontier s)
    (hs' : Searched t.store policy at' scope ids k frontier' s')
    (hsha : Set.InjOn py.sha256 (entityTexts t.store)) (hseen : Seen caller scope)
    {l l' : Level py}
    (hreads : l.Reads t.store caller policy at' scope
      (FrozenSet.ofList (frontier.map (·.lastKey))).sorted)
    (hreads' : l'.Reads t.store caller policy at' scope
      (FrozenSet.ofList (frontier'.map (·.lastKey))).sorted) :
    ∃ next next' v v',
      RelationTraversal.admitAll policy
        (frontier.flatMap (longerPaths at' l.heads (l.adjacency policy at' scope))) s =
          (.ok next, v) ∧
      RelationTraversal.admitAll policy
        (frontier'.flatMap (longerPaths at' l'.heads (l'.adjacency policy at' scope))) s' =
          (.ok next', v') ∧
      Agree t.store policy at' scope ids next next' v v' := by
  rcases h.mode with ⟨huntied, rfl, rfl⟩ | ⟨hfits, hwithin, hwithin'⟩
  · have hsame : frontier.flatMap (longerPaths at' l'.heads (l'.adjacency policy at' scope)) =
        frontier.flatMap (longerPaths at' l.heads (l.adjacency policy at' scope)) :=
      List.flatMap_congr fun p _ => (hreads.longer_eq hreads' hsha hseen huntied).symm
    rw [hsame]
    exact ⟨_, _, _, _, rfl, rfl, rfl, List.Perm.refl _, ⟨List.Perm.refl _, rfl⟩,
      .inl ⟨huntied, rfl, rfl⟩⟩
  · have hkeys : FrozenSet.ofList (frontier'.map (·.lastKey)) =
        FrozenSet.ofList (frontier.map (·.lastKey)) :=
      FrozenSet.ext fun key => by simp only [FrozenSet.mem_ofList, (h.perm.map _).mem_iff]
    obtain ⟨v, hturn, hpaths, hreasons, hused, hv⟩ :=
      hwithin.level hfits hk hs hsha hseen hreads rfl
    obtain ⟨v', hturn', hpaths', hreasons', hused', hv'⟩ :=
      hwithin'.level hfits hk hs' hsha hseen hreads' rfl
    have hcandidates : (frontier.flatMap
        (longerPaths at' l.heads (l.adjacency policy at' scope))).Perm (frontier'.flatMap
        (longerPaths at' l'.heads (l'.adjacency policy at' scope))) :=
      h.perm.flatMap fun p _ => hreads.longer_perm (hkeys ▸ hreads') hsha hseen
    refine ⟨_, _, v, v', hturn, hturn', ?_, hcandidates.map _, ⟨?_, ?_⟩, .inr ⟨hfits, hv, hv'⟩⟩
    · exact hused.trans (h.calls.trans hused'.symm)
    · rw [hpaths, hpaths']
      exact h.found.1.append (hcandidates.map _)
    · rw [hreasons, hreasons', h.found.2]

/-- Two searches end early alike, and have found the same. -/
def EndSame (e e' : Interruption) (s s' : TraversalState) : Prop := SameEnd e e' ∧ SameFound s s'

section Orders

variable {scrollKnowledge : RelationScroll (KnowledgeRecord py)}
  {scrollEpisodes : RelationScroll EpisodeRecord}
  (hknowledge : t.scrollKnowledge.Scans (knowledgeSchema py))
  (hknowledge' : scrollKnowledge.Scans (knowledgeSchema py))
  (hepisodes : t.scrollEpisodes.Scans episodeSchema)
  (hepisodes' : scrollEpisodes.Scans episodeSchema)
  (hsha : Set.InjOn py.sha256 (entityTexts t.store))

include hknowledge hknowledge' hepisodes hepisodes' hsha

variable (ids) in
/-- The loops over the levels find the same. -/
theorem searchLevels_alike (hcaller : t.bound = some caller) (hseen : Seen caller scope)
    (level : ℕ) (hk : k + level = policy.depth) :
    Alike (fun s s' => Agree t.store policy at' scope ids frontier frontier' s s' ∧
        Searched t.store policy at' scope ids k frontier s ∧
        Searched t.store policy at' scope ids k frontier' s')
      (t.searchLevels policy at' scope level frontier)
      ((t.inOrder scrollKnowledge scrollEpisodes).searchLevels policy at' scope level frontier')
      (fun _ _ => SameFound) EndSame := by
  induction level generalizing k frontier frontier' with
  | zero => exact Alike.pure fun s s' h => h.1.found
  | succ level ih =>
    unfold RelationTraversal.searchLevels
    refine Alike.of_forall ?_
    rintro s s' ⟨hagree, hs, hs'⟩
    have hnil : frontier = [] ↔ frontier' = [] := by
      rw [← List.length_eq_zero_iff, hagree.perm.length_eq, List.length_eq_zero_iff]
    refine Alike.ite hnil (fun _ _ => ?_) fun _ _ => ?_
    · refine Alike.pure ?_
      rintro u u' ⟨rfl, rfl⟩
      exact hagree.found
    have hreads := (candidatePaths_alike policy at' scope hknowledge hknowledge' hepisodes
      hepisodes' hagree.perm).and
      (candidatePaths_triple (s := s) hknowledge.lawful hepisodes.lawful policy at' scope frontier)
      (candidatePaths_triple (t := t.inOrder scrollKnowledge scrollEpisodes) (s := s')
        hknowledge'.lawful hepisodes'.lawful policy at' scope frontier')
    refine Alike.bind _ (hreads.conseq ?_ (fun _ _ _ _ => id) ?_) fun candidates candidates' => ?_
    · rintro u u' ⟨rfl, rfl⟩
      exact ⟨hagree.calls, ⟨hs.budget.used, rfl, rfl, rfl, rfl⟩, hs'.budget.used, rfl, rfl, rfl, rfl⟩
    · rintro e e' u u' ⟨⟨hsame, -⟩, hcut, hcut'⟩
      exact ⟨hsame, hagree.found.kept hcut.toKept hcut'.toKept⟩
    refine Alike.of_forall ?_
    rintro u u' ⟨hcalls, ⟨hkept, c, hc, l, hl, rfl⟩, hkept', c', hc', l', hl', rfl⟩
    obtain rfl : caller = c := Option.some.inj (hcaller.symm.trans hc)
    obtain rfl : caller = c' := Option.some.inj (hcaller.symm.trans hc')
    have hu := hs.kept hkept
    have hu' := hs'.kept hkept'
    obtain ⟨next, next', v, v', hturn, hturn', hnext⟩ :=
      (hagree.kept hkept hkept' hcalls).level (by omega) hu hu' hsha hseen hl hl'
    have hv := (Searched.admitAll_triple hsha hseen _).ok ⟨hu, l, hl, rfl⟩ hturn
    have hv' := (Searched.admitAll_triple (t := t) hsha hseen _).ok ⟨hu', l', hl', rfl⟩ hturn'
    refine Alike.bind (fun a a' w w' => a = next ∧ a' = next' ∧ w = v ∧ w' = v') ?_ ?_
    · rintro w w' ⟨rfl, rfl⟩
      rw [hturn, hturn']
      exact ⟨rfl, rfl, rfl, rfl⟩
    · intro a a'
      refine Alike.of_forall ?_
      rintro w w' ⟨rfl, rfl, rfl, rfl⟩
      have hdeeper : a ≠ [] ↔ a' ≠ [] := by
        rw [← List.length_pos_iff, hnext.perm.length_eq, List.length_pos_iff]
      refine Alike.ite (and_congr_right fun _ => hdeeper) (fun _ _ => ?_) fun _ _ => ?_
      · rintro x x' ⟨rfl, rfl⟩
        exact ⟨hnext.found.1, congrArg (List.insert "depth") hnext.found.2⟩
      · have hrest : k + 1 + level = policy.depth := by omega
        refine (ih hrest).conseq ?_ (fun _ _ _ _ => id) fun _ _ _ _ => id
        rintro x x' ⟨rfl, rfl⟩
        exact ⟨hnext, hv, hv'⟩

end Orders

end Loop

/-! ### Seeds in two orders -/

section Seeds

variable {t t' : RelationTraversal py} {policy : TraversalPolicy} {at' : Instant}
  {scope scope' : RelationScope py} {ids : List Uuid} {s s' : TraversalState}
  {seeds seeds' : List (EntityRef py × KnowledgeRecord py)}

lemma SeedsRead.mem (h : SeedsRead t scope ids seeds) (h' : SeedsRead t' scope' ids seeds')
    (hstore : t'.store = t.store) {kv : EntityRef py × KnowledgeRecord py}
    (hkv : kv ∈ seeds) : kv ∈ seeds' := by
  obtain ⟨hseed, hentity⟩ := h.sound kv hkv
  obtain ⟨kv', hkv', hid⟩ := h'.found kv.2.id hseed.chosen
  obtain ⟨hseed', hentity'⟩ := h'.sound kv' hkv'
  have hrecord : kv'.2 = kv.2 := (hstore ▸ hseed'.canonical).eq_of_id hseed.canonical hid
  rw [hrecord, hentity] at hentity'
  rwa [show kv = kv' from Prod.ext (Except.ok.inj hentity') hrecord.symm]

/-- The seeds that were read of the same ids differ in their order only. -/
lemma SeedsRead.perm (h : SeedsRead t scope ids seeds) (h' : SeedsRead t' scope' ids seeds')
    (hstore : t'.store = t.store) : seeds.Perm seeds' :=
  (List.perm_ext_iff_of_nodup (List.Nodup.of_map _ h.nodup) (List.Nodup.of_map _ h'.nodup)).mpr
    fun _ => ⟨h.mem h' hstore, h'.mem h hstore.symm⟩

/-- The seeds of the same ids share one partition. -/
lemma SeedsRead.scope_eq (h : SeedsRead t scope ids seeds) (h' : SeedsRead t' scope' ids seeds')
    (hstore : t'.store = t.store) (hids : ids ≠ []) : scope = scope' := by
  obtain ⟨id, hid⟩ := List.exists_mem_of_ne_nil ids hids
  obtain ⟨kv, hkv, -⟩ := h.found id hid
  have hpartition := (h.sound kv hkv).1.partition
  rw [(h'.sound kv (h.mem h' hstore hkv)).1.partition] at hpartition
  cases scope
  cases scope'
  simpa using hpartition.symm

/-- One id has one seed. -/
lemma SeedsRead.length_le (h : SeedsRead t scope ids seeds)
    (hone : ∀ id ∈ ids, ∀ id' ∈ ids, id = id') : seeds.length ≤ 1 := by
  match seeds, h with
  | [], _ => exact Nat.zero_le 1
  | [_], _ => exact le_refl 1
  | kv :: kv' :: rest, h =>
    have hne : kv.2.id ≠ kv'.2.id := by
      have := h.nodup
      simp only [List.map_cons, List.nodup_cons, List.mem_cons, not_or] at this
      exact this.1.1
    exact absurd (hone _ (h.sound kv (by simp)).1.chosen _ (h.sound kv' (by simp)).1.chosen) hne

lemma seeds_eq_of_perm (h : seeds.Perm seeds') (hone : seeds.length ≤ 1) : seeds = seeds' := by
  rcases seeds with _ | ⟨kv, _ | ⟨kv', rest⟩⟩
  · exact (List.nil_perm.mp h).symm
  · exact List.singleton_perm.mp h ▸ rfl
  · exact absurd hone (by simp)

variable (t policy at' ids) in
/-- What makes the order of storage irrelevant: all that may be found fits the budgets, or there is
one seed and nothing is tied. -/
def Orderly (scope : RelationScope py) : Prop :=
  Fits t.store policy at' scope ids ∨
    (∀ id ∈ ids, ∀ id' ∈ ids, id = id') ∧ Level.Untied t.store policy at' scope

/-- Two searches agree at their seeds. -/
lemma Agree.of_seeds (horderly : Orderly t policy at' ids scope)
    (h : SeedsRead t scope ids seeds) (h' : SeedsRead t' scope ids seeds')
    (hstore : t'.store = t.store) (hs : Kept policy.maxStorageCalls {} s) (hs' : Kept policy.maxStorageCalls {} s')
    (hcalls : SameCalls s s') :
    Agree t.store policy at' scope ids (seeds.map seedPath) (seeds'.map seedPath)
      { s with nodes := (seeds.map (·.1.key)).dedup }
      { s' with nodes := (seeds'.map (·.1.key)).dedup } := by
  have hperm := h.perm h' hstore
  have hwithin {seeds : List (EntityRef py × KnowledgeRecord py)} {s : TraversalState}
      (h : SeedsRead t scope ids seeds) (hs : Kept policy.maxStorageCalls {} s) :
      Within t.store policy at' scope ids { s with nodes := (seeds.map (·.1.key)).dedup } := by
    refine ⟨by simp [hs.paths], by simp [hs.paths], List.nodup_dedup _, fun key hkey => ?_,
      by simp [hs.edgeIds], by simp [hs.edgeIds]⟩
    obtain ⟨kv, hkv, rfl⟩ := List.mem_map.mp (List.mem_dedup.mp hkey)
    obtain ⟨hseed, hentity⟩ := h.sound kv hkv
    exact ⟨seedPath kv, ⟨kv.1.key, kv.2, .seed hseed hentity⟩, Nat.zero_le _,
      List.mem_singleton_self _⟩
  refine ⟨hcalls, hperm.map _, ⟨?_, ?_⟩, ?_⟩
  · rw [hs.paths, hs'.paths]
  · rw [hs.reasons, hs'.reasons]
  · rcases horderly with hfits | ⟨hone, huntied⟩
    · refine .inr ⟨hfits, hwithin h hs, hwithin ?_ hs'⟩
      exact ⟨hstore ▸ h'.sound, h'.found, h'.nodup⟩
    · obtain rfl := seeds_eq_of_perm hperm (h.length_le hone)
      refine .inl ⟨huntied, rfl, ?_⟩
      have hpaths := hs.paths.trans hs'.paths.symm
      have hedges := hs.edgeIds.trans hs'.edgeIds.symm
      have hreasons := hs.reasons.trans hs'.reasons.symm
      have hcalls : s.used = s'.used := hcalls
      cases s
      cases s'
      simp_all

end Seeds

/-! ### Whole traversals -/

section Traversals

variable {t : RelationTraversal py} {policy : TraversalPolicy}
  {scrollKnowledge : RelationScroll (KnowledgeRecord py)}
  {scrollEpisodes : RelationScroll EpisodeRecord}

/-- The searches of two traversals find the same. -/
theorem search_alike (hknowledge : t.scrollKnowledge.Scans (knowledgeSchema py))
    (hknowledge' : scrollKnowledge.Scans (knowledgeSchema py))
    (hepisodes : t.scrollEpisodes.Scans episodeSchema)
    (hepisodes' : scrollEpisodes.Scans episodeSchema)
    (hsha : Set.InjOn py.sha256 (entityTexts t.store)) (at' : Instant) {ids : List Uuid}
    (hne : ids ≠ []) (hids : ids.length ≤ policy.maxNodes)
    (horderly : ∀ scope, SharedBy t.store ids scope → Orderly t policy at' ids scope) :
    Alike (fun s s' => s = {} ∧ s' = {}) (t.search policy at' ids)
      ((t.inOrder scrollKnowledge scrollEpisodes).search policy at' ids)
      (fun _ _ => SameFound) EndSame := by
  have hcut (e e' : Interruption) (s s' : TraversalState)
      (h : EndAlike e e' s s' ∧ Cut policy.maxStorageCalls {} e s ∧
        Cut policy.maxStorageCalls {} e' s') : EndSame e e' s s' := by
    refine ⟨h.1.1, ?_, ?_⟩
    · rw [h.2.1.paths, h.2.2.paths]
    · rw [h.2.1.reasons, h.2.2.reasons]
  unfold RelationTraversal.search
  refine Alike.bind (fun _ _ s s' => SameCalls s s' ∧ Kept policy.maxStorageCalls {} s ∧
    Kept policy.maxStorageCalls {} s') ?_ fun _ _ => ?_
  · refine ((requireReady_alike hknowledge hknowledge').and requireReady_triple
      requireReady_triple).conseq ?_ (fun _ _ _ _ => id) hcut
    rintro s s' ⟨rfl, rfl⟩
    exact ⟨rfl, ⟨Nat.zero_le _, rfl, rfl, rfl, rfl⟩, Nat.zero_le _, rfl, rfl, rfl, rfl⟩
  refine Alike.bind _ (((readSeeds_alike hknowledge hknowledge' ids).and
    (readSeeds_triple hknowledge.lawful) (readSeeds_triple hknowledge'.lawful)).conseq
      (fun _ _ => id) (fun _ _ _ _ => id) hcut) fun out out' => ?_
  obtain ⟨seeds, scope⟩ := out
  obtain ⟨seeds', scope'⟩ := out'
  refine Alike.of_forall ?_
  rintro s s' ⟨hcalls, ⟨hs, hseeds, caller, hcaller, hseen⟩, hs', hseeds', -⟩
  obtain rfl : scope = scope' := hseeds.scope_eq hseeds' rfl hne
  have hagree := Agree.of_seeds (horderly scope hseeds.shared) hseeds hseeds' rfl hs hs' hcalls
  refine Alike.bind (fun _ _ u u' => u = { s with nodes := (seeds.map (·.1.key)).dedup } ∧
    u' = { s' with nodes := (seeds'.map (·.1.key)).dedup }) ?_ fun _ _ => ?_
  · rintro u u' ⟨rfl, rfl⟩
    exact ⟨rfl, rfl⟩
  · refine (searchLevels_alike ids hknowledge hknowledge' hepisodes hepisodes' hsha hcaller hseen
      policy.depth (Nat.zero_add _)).conseq ?_ (fun _ _ _ _ => id) fun _ _ _ _ => id
    rintro u u' ⟨rfl, rfl⟩
    exact ⟨hagree, hseeds.searched hids hs, hseeds'.searched hids hs'⟩

lemma orderly_sortIds {at' : Instant} {seedIds : List Uuid} {scope : RelationScope py} :
    Orderly t policy at' (sortIds seedIds) scope ↔ Orderly t policy at' seedIds scope := by
  have hwalks : IsWalk t.store policy at' scope (sortIds seedIds) =
      IsWalk t.store policy at' scope seedIds := by
    funext p
    simp only [IsWalk, Walked, seed_sortIds]
  have hfits : Fits t.store policy at' scope (sortIds seedIds) ↔
      Fits t.store policy at' scope seedIds := by
    constructor
    · rintro ⟨hpaths, hkeys, hrelations⟩
      simp only [walkedPaths, walkedKeys, walkedRelations, hwalks] at hpaths hkeys hrelations
      exact ⟨hpaths, hkeys, hrelations⟩
    · rintro ⟨hpaths, hkeys, hrelations⟩
      constructor <;> simp only [walkedPaths, walkedKeys, walkedRelations, hwalks]
      · exact hpaths
      · exact hkeys
      · exact hrelations
  simp only [Orderly, hfits, Level.mem_sortIds]

/-- A path that another order loses. -/
lemma not_orderFree {seedIds : List Uuid} (hknowledge : scrollKnowledge.Scans (knowledgeSchema py))
    (hepisodes : scrollEpisodes.Scans episodeSchema) {found found' : TraversalResult}
    (hfound : t.traverse seedIds policy = .ok found)
    (hfound' : (t.inOrder scrollKnowledge scrollEpisodes).traverse seedIds policy = .ok found')
    {p : TraversalPath} (hp : p ∈ found.paths) (hp' : p ∉ found'.paths) :
    ¬ OrderFree t seedIds policy := by
  intro h
  have hsame := h scrollKnowledge scrollEpisodes hknowledge hepisodes
  rw [hfound, hfound'] at hsame
  exact hp' ((hsame.1 p).mp hp)

end Traversals

/-! ### Two seeds and one path -/

section Sample

/-- Points in the order of the store, or backwards. -/
def ordered {α : Type} (backwards : Bool) (l : List α) : List α :=
  if backwards then l.reverse else l

/-- A repository that answers in the order of the store, or backwards. -/
def pageIn (backwards : Bool) {ρ : Type} (schema : RecordSchema ρ) : RelationScroll ρ :=
  fun points q limit =>
    ((ordered backwards (points.rows.filter fun p => q.matches schema p)).take limit,
      limit < (points.rows.filter fun p => q.matches schema p).length)

lemma pageIn_scans (backwards : Bool) {ρ : Type} (schema : RecordSchema ρ) :
    (pageIn backwards schema).Scans schema := by
  intro points q limit
  cases backwards with
  | false => exact ⟨_, List.Perm.refl _, rfl⟩
  | true => exact ⟨_, List.reverse_perm _, by rw [List.length_reverse]; rfl⟩

lemma one_of_paths : 1 ≤ 1 ∧ 1 ≤ 512 := by decide

/-- A policy under which one path is found, in either direction. -/
def onePath : TraversalPolicy :=
  { pastPolicy with maxPaths := 1, direction := .both, paths_bounds := one_of_paths }

/-- The two versions, read in the order of the store or backwards. -/
def pairIn (backwards : Bool) : RelationTraversal sizes :=
  verifiedSample.inOrder (pageIn backwards (knowledgeSchema sizes)) (pageIn backwards episodeSchema)

lemma pairIn_conditions (backwards : Bool) : conditions (pairIn backwards).bound
    (pairIn backwards).background false = .ok (grantFilter owner) :=
  @sample_conditions [] (by decide) false

variable {backwards : Bool} {s : TraversalState}

variable (backwards) in
lemma pairIn_read (q : Query) (limit : ℕ) (complete : Bool)
    (page : List (RelationPoint (KnowledgeRecord sizes))) (hused : s.used < 8)
    (hpage : ([pointOf versionA, pointOf versionB].filter fun p =>
      (q.within (grantFilter owner)).matches (knowledgeSchema _) p) = page)
    (hlimit : page.length ≤ limit) :
    (pairIn backwards).readKnowledge 8 q limit complete s =
      (.ok (ordered backwards page), { s with used := s.used + 1 }) := by
  have hlength : (ordered backwards page).length = page.length := by
    cases backwards <;> simp [ordered]
  have hscroll : (pairIn backwards).scrollKnowledge (pairIn backwards).store.knowledge
      (q.within (grantFilter owner)) limit = (ordered backwards page, false) := by
    change pageIn backwards _ _ _ _ = _
    have hrows : ((pairIn backwards).store.knowledge.rows.filter fun p =>
        (q.within (grantFilter owner)).matches (knowledgeSchema _) p) = page := hpage
    rw [pageIn, hrows, List.take_of_length_le (hlength ▸ hlimit),
      decide_eq_false (not_lt.mpr hlimit)]
  unfold RelationTraversal.readKnowledge RelationTraversal.read
  rw [pairIn_conditions]
  refine (bind_apply_of_ok (x := checked _) rfl).trans ?_
  refine (bind_apply_of_ok (t := { s with used := s.used + 1 }) (a := ()) ?_).trans ?_
  · rw [RelationTraversal.charge, if_neg (not_le.mpr hused)]
  · rw [hscroll]
    simp only [Bool.false_eq_true, and_false, if_false]
    rfl

def seedB : TraversalPath := ⟨["158"], [versionB.id], []⟩

def stepBA : Transition := ⟨"158", "157", versionA.id, stepAlong versionA edgeAB .inward⟩

def pathBA : TraversalPath := seedB.extend "157" versionA.id stepBA.step

lemma claims_of_versions {keys : List String} (l : List (KnowledgeRecord sizes))
    (h : ∀ r ∈ l, verifyProjection r = .ok ()) :
    collectClaims onePath (.ofMicros 1) keys (l.map pointOf) =
      .ok (l.flatMap (ownerClaims onePath (.ofMicros 1) keys)) := by
  refine bind_eq_ok.mpr ⟨l.map (ownerClaims onePath (.ofMicros 1) keys), ?_, rfl⟩
  induction l with
  | nil => rfl
  | cons r l ih =>
    obtain ⟨hr, hl⟩ := List.forall_mem_cons.mp h
    rw [List.map_cons, List.mapM_cons]
    refine bind_eq_ok.mpr ⟨ownerClaims onePath (.ofMicros 1) keys r, ?_, ?_⟩
    · exact bind_eq_ok.mpr ⟨r, canonical_eq_ok.mpr ⟨rfl, rfl⟩, bind_eq_ok.mpr ⟨(), hr, rfl⟩⟩
    · exact bind_eq_ok.mpr ⟨_, ih hl, rfl⟩

lemma pair_claims : collectClaims onePath (.ofMicros 1) ["157", "158"]
    (ordered backwards [pointOf versionA, pointOf versionB]) = .ok [(versionA, edgeAB)] := by
  have hA : ownerClaims onePath (.ofMicros 1) ["157", "158"] versionA = [(versionA, edgeAB)] := by
    have hedges : versionA.bundle.edges = [edgeAB] := rfl
    have hclaimed : edgeValid onePath (.ofMicros 1) edgeAB ∧
        (edgeAB.source.key ∈ ["157", "158"] ∧ followsOut onePath edgeAB ∨
          edgeAB.target.key ∈ ["157", "158"] ∧ followsIn onePath edgeAB) :=
      ⟨by decide, .inl ⟨entityA_key ▸ List.mem_cons_self, .inr (.inl rfl)⟩⟩
    rw [ownerClaims, if_pos (by decide), hedges, List.filter_cons,
      if_pos (decide_eq_true hclaimed), List.filter_nil, List.map_singleton]
  have hB : ownerClaims onePath (.ofMicros 1) ["157", "158"] versionB = [] := by
    have hedges : versionB.bundle.edges = [] := rfl
    rw [ownerClaims, hedges, List.filter_nil, List.map_nil, ite_self]
  have hpoints : ordered backwards [pointOf versionA, pointOf versionB] =
      (ordered backwards [versionA, versionB]).map pointOf := by
    cases backwards <;> rfl
  rw [hpoints, claims_of_versions]
  · cases backwards with
    | false =>
      rw [show ordered false [versionA, versionB] = [versionA, versionB] from rfl,
        List.flatMap_cons, List.flatMap_singleton, hA, hB, List.append_nil]
    | true =>
      rw [show ordered true [versionA, versionB] = [versionB, versionA] from rfl,
        List.flatMap_cons, List.flatMap_singleton, hA, hB, List.nil_append]
  · have hverified : ∀ r ∈ [versionA, versionB], verifyProjection r = .ok () := by
      simp [versionA_verifies, versionB_verifies]
    cases backwards with
    | false => exact hverified
    | true => exact fun r hr => hverified r (List.mem_reverse.mp hr)

lemma pair_heads : headMap (.ofMicros 1) true
    (ordered backwards [pointOf versionA, pointOf versionB]) =
      .ok (ordered backwards [("157", versionA), ("158", versionB)]) := by
  have hA : headCandidate (.ofMicros 1) (pointOf versionA) = .ok (some ("157", versionA)) :=
    headCandidate_eq_ok.mpr ⟨canonical_eq_ok.mpr ⟨rfl, rfl⟩, versionA_verifies,
      ⟨entityA, entityOf_versionA, entityA_key⟩, by decide, rfl⟩
  have hB : headCandidate (.ofMicros 1) (pointOf versionB) = .ok (some ("158", versionB)) :=
    headCandidate_eq_ok.mpr ⟨canonical_eq_ok.mpr ⟨rfl, rfl⟩, versionB_verifies,
      ⟨entityB, entityOf_versionB, entityB_key⟩, by decide, rfl⟩
  cases backwards with
  | false => exact sample_heads
  | true =>
    have hpoints : ordered true [pointOf versionA, pointOf versionB] =
      [pointOf versionB, pointOf versionA] := rfl
    simp only [headMap, hpoints, List.mapM_cons, List.mapM_nil, hA, hB]
    rfl

lemma pair_lookup : (ordered backwards [("157", versionA), ("158", versionB)]).lookup "157" =
      some versionA ∧
    (ordered backwards [("157", versionA), ("158", versionB)]).lookup "158" = some versionB := by
  cases backwards <;> exact ⟨rfl, rfl⟩

lemma pair_transitions : claimTransitions onePath (.ofMicros 1) entityA.scope
    (ordered backwards [("157", versionA), ("158", versionB)])
    (ordered backwards [versionA, versionB]) [] (versionA, edgeAB) = [stepAB, stepBA] := by
  have hsource : edgeAB.source.key = "157" := entityA_key
  have htarget : edgeAB.target.key = "158" := entityB_key
  simp only [claimTransitions, hsource, htarget, pair_lookup.1, pair_lookup.2]
  have hchecks : versionB.id = edgeAB.targetRecordId ∧
      eligible (.ofMicros 1) versionA ∧ eligible (.ofMicros 1) versionB ∧
      ∀ ref ∈ edgeAB.evidence.sorted, proofValid (.ofMicros 1) entityA.scope
        (ordered backwards [versionA, versionB]) [] ref := by
    cases backwards <;> decide
  rw [if_pos ⟨trivial, hchecks⟩, edgeTransitions, hsource, htarget, if_pos (.inr (.inl rfl)),
    if_pos (.inr (.inl rfl))]
  rfl

lemma pair_longer :
    longerPaths (.ofMicros 1) (ordered backwards [("157", versionA), ("158", versionB)])
      [stepAB, stepBA] seedA = [(pathAB, stepAB)] ∧
    longerPaths (.ofMicros 1) (ordered backwards [("157", versionA), ("158", versionB)])
      [stepAB, stepBA] seedB = [(pathBA, stepBA)] := by
  have hlast : seedA.lastKey = "157" := rfl
  have hlast' : seedB.lastKey = "158" := rfl
  have hordered : orderedTransitions [stepAB, stepBA] "157" = [stepAB] := rfl
  have hordered' : orderedTransitions [stepAB, stepBA] "158" = [stepBA] := rfl
  have hnew : stepAB.finish ∉ seedA.nodeKeys := by decide
  have hnew' : stepBA.finish ∉ seedB.nodeKeys := by decide
  simp only [longerPaths, hlast, hlast', pair_lookup.1, pair_lookup.2, hordered, hordered']
  rw [if_pos ⟨rfl, by decide⟩, if_pos ⟨rfl, by decide⟩,
    List.filter_cons_of_pos (p := fun tr : Transition => tr.finish ∉ seedA.nodeKeys)
      (decide_eq_true hnew),
    List.filter_cons_of_pos (p := fun tr : Transition => tr.finish ∉ seedB.nodeKeys)
      (decide_eq_true hnew')]
  exact ⟨rfl, rfl⟩

variable (backwards) in
/-- The reads of the level that starts at both entities. -/
lemma pair_level (hused : s.used < 7) :
    (pairIn backwards).candidatePaths onePath (.ofMicros 1) entityA.scope
        (ordered backwards [seedA, seedB]) s =
      (.ok (ordered backwards [(pathAB, stepAB), (pathBA, stepBA)]),
        { s with used := s.used + 2 }) := by
  have hkeys : (FrozenSet.ofList ((ordered backwards [seedA, seedB]).map (·.lastKey))).sorted =
      ["157", "158"] := by
    cases backwards <;> decide
  have howners := pairIn_read backwards (s := s) (ownersQuery onePath (.ofMicros 1) entityA.scope ["157", "158"]) 256 true
    [pointOf versionA, pointOf versionB] (by omega)
    (filter_pair (by rw [if_pos (by decide), if_pos (by decide)])) (by simp)
  have hrecords := pairIn_read backwards (s := { s with used := s.used + 1 })
    (recordsQuery (.ofMicros 1) entityA.scope ["157", "158"] [.ofNat 3]) 256 true
    [pointOf versionA, pointOf versionB] (by dsimp only; omega)
    (filter_pair (by rw [if_pos (by decide), if_pos (by decide)])) (by simp)
  have hheadKeys : headKeys ["157", "158"] [(versionA, edgeAB)] = ["157", "158"] := by
    have hsource : edgeAB.source.key = "157" := entityA_key
    have htarget : edgeAB.target.key = "158" := entityB_key
    simp only [headKeys, List.flatMap_cons, List.flatMap_nil, hsource, htarget]
    decide
  have hproofs : proofIds .knowledge [(versionA, edgeAB)] = [.ofNat 3] := by decide
  have hepisodes : proofIds .episode [(versionA, edgeAB)] = [] := by decide
  have hnamed : namedPoints ["157", "158"]
      (ordered backwards [pointOf versionA, pointOf versionB]) =
      ordered backwards [pointOf versionA, pointOf versionB] := by
    refine List.filter_eq_self.mpr ?_
    cases backwards <;> decide
  unfold RelationTraversal.candidatePaths
  dsimp only
  rw [hkeys]
  refine (bind_apply_of_ok howners).trans ?_
  rw [pair_claims]
  refine (bind_apply_of_ok (x := checked _) (a := [(versionA, edgeAB)]) rfl).trans ?_
  rw [hheadKeys, hproofs, hepisodes]
  refine (bind_apply_of_ok hrecords).trans ?_
  have hcanonical : (ordered backwards [pointOf versionA, pointOf versionB]).mapM
      (canonical (knowledgeSchema sizes)) = .ok (ordered backwards [versionA, versionB]) := by
    cases backwards <;> rfl
  rw [hcanonical, hnamed]
  refine (bind_apply_of_ok (x := checked _) (a := ordered backwards [versionA, versionB])
    rfl).trans ?_
  have hheads : headMap (.ofMicros 1) onePath.asOf.isSome
      (ordered backwards [pointOf versionA, pointOf versionB]) =
      .ok (ordered backwards [("157", versionA), ("158", versionB)]) := pair_heads
  rw [hheads]
  refine (bind_apply_of_ok (x := checked _)
    (a := ordered backwards [("157", versionA), ("158", versionB)]) rfl).trans ?_
  refine (bind_apply_of_ok (a := []) (t := { s with used := s.used + 2 }) rfl).trans ?_
  refine (bind_apply_of_ok (x := checked _) (a := []) rfl).trans ?_
  rw [List.flatMap_singleton, pair_transitions]
  have hlonger : (ordered backwards [seedA, seedB]).flatMap (longerPaths (.ofMicros 1)
      (ordered backwards [("157", versionA), ("158", versionB)]) [stepAB, stepBA]) =
      ordered backwards [(pathAB, stepAB), (pathBA, stepBA)] := by
    cases backwards with
    | false =>
      rw [show ordered false [seedA, seedB] = [seedA, seedB] from rfl, List.flatMap_cons,
        List.flatMap_singleton, pair_longer.1, pair_longer.2]
      rfl
    | true =>
      rw [show ordered true [seedA, seedB] = [seedB, seedA] from rfl, List.flatMap_cons,
        List.flatMap_singleton, pair_longer.1, pair_longer.2]
      rfl
  rw [hlonger]
  rfl

/-- The seeds in the order in which they are read. -/
lemma pair_seeds (hused : s.used < 8) :
    (pairIn backwards).readSeeds onePath (.ofMicros 1) [.ofNat 1, .ofNat 3] s =
      (.ok (ordered backwards [(entityA, versionA), (entityB, versionB)], entityA.scope),
        { s with used := s.used + 1 }) := by
  have hread := pairIn_read backwards (s := s) (seedsQuery onePath (.ofMicros 1) [.ofNat 1, .ofNat 3]) 256 true
    [pointOf versionA, pointOf versionB] hused
    (filter_pair (by rw [if_pos (by decide), if_pos (by decide)])) (by simp)
  have hcanonical : (ordered backwards [pointOf versionA, pointOf versionB]).mapM
      (canonical (knowledgeSchema sizes)) = .ok (ordered backwards [versionA, versionB]) := by
    cases backwards <;> rfl
  have hentities : (ordered backwards [versionA, versionB]).mapM entityOf =
      .ok (ordered backwards [entityA, entityB]) := by
    refine mapM_eq_ok_iff_forall₂.mpr ?_
    cases backwards with
    | false => exact .cons entityOf_versionA (.cons entityOf_versionB .nil)
    | true => exact .cons entityOf_versionB (.cons entityOf_versionA .nil)
  have hscope : sharedScope (ordered backwards [entityA, entityB]) = .ok entityA.scope := by
    refine sharedScope_iff.mpr ?_
    cases backwards <;> decide
  have hverified : forM (ordered backwards [versionA, versionB]) verifyProjection =
      (.ok () : Except Exc Unit) := by
    refine forM_eq_ok.mpr ?_
    cases backwards <;> simp [ordered, versionA_verifies, versionB_verifies]
  unfold RelationTraversal.readSeeds
  refine (bind_apply_of_ok hread).trans ?_
  rw [hcanonical]
  refine (bind_apply_of_ok (x := checked _) (a := ordered backwards [versionA, versionB])
    rfl).trans ?_
  have hchosen : (∀ id ∈ [Uuid.ofNat 1, .ofNat 3], ∃ r ∈ ordered backwards [versionA, versionB],
      r.id = id) ∧ ∀ r ∈ ordered backwards [versionA, versionB],
        r.id ∈ [Uuid.ofNat 1, .ofNat 3] ∧ eligible (.ofMicros 1) r := by
    cases backwards <;> decide
  rw [require, if_pos hchosen]
  refine (bind_apply_of_ok (x := checked _) (a := ()) rfl).trans ?_
  rw [hentities]
  refine (bind_apply_of_ok (x := checked _) (a := ordered backwards [entityA, entityB])
    rfl).trans ?_
  rw [hscope]
  refine (bind_apply_of_ok (x := checked _) (a := entityA.scope) rfl).trans ?_
  rw [hverified]
  cases backwards <;> rfl

/-- Of two paths between entities that were reached, the first is kept. -/
lemma onePath_admits (c d : TraversalPath × Transition) {used : ℕ} {nodes : List String}
    (hc : c.2.finish ∈ nodes) (hd : d.2.finish ∈ nodes) :
    ∃ v, RelationTraversal.admitAll onePath [c, d] { used, nodes } = (.ok [c.1], v) ∧
      v.paths = [c.1] := by
  obtain ⟨p, tr⟩ := c
  obtain ⟨q, tr'⟩ := d
  have hfirst : admitPath onePath ({ used, nodes }, []) (p, tr) =
      ({ used, paths := [p], nodes, edgeIds := [tr.step.relationId] }, [p]) := by
    simp only [admitPath]
    rw [if_neg fun h => h.1 hc, if_neg (by simp [onePath, pastPolicy]), if_neg (by simp [onePath]),
      List.insert_of_mem hc]
    simp
  have hsecond : admitPath onePath
      ({ used, paths := [p], nodes, edgeIds := [tr.step.relationId] }, [p]) (q, tr') =
      (addReason "paths" { used, paths := [p], nodes, edgeIds := [tr.step.relationId] }, [p]) := by
    simp only [admitPath]
    rw [if_neg fun h => h.1 hd, if_neg (by simp [onePath, pastPolicy]), if_pos (by simp [onePath])]
  refine ⟨addReason "paths" { used, paths := [p], nodes, edgeIds := [tr.step.relationId] }, ?_, rfl⟩
  simp only [RelationTraversal.admitAll, List.foldl_cons, List.foldl_nil, hfirst, hsecond]

variable (backwards) in
/-- The one path that is found starts from the seed that is read first. -/
lemma pair_traverse : ∃ result,
    (pairIn backwards).traverse [.ofNat 1, .ofNat 3] onePath = .ok result ∧
      result.paths = [if backwards then pathBA else pathAB] := by
  have hready : (pairIn backwards).requireReady 8 {} = (.ok (), { used := 1 }) := by
    have hread := pairIn_read backwards (s := {})
      { must := knowledgeFilter
        mustNot := [.field (.matchValue (indexPrefix ++ ".schema_version") (.int 1))] } 1 false []
      (by decide) (filter_pair (by rw [if_neg (by decide), if_neg (by decide)]))
      (by simp)
    unfold RelationTraversal.requireReady
    rw [pairIn_conditions]
    refine (bind_apply_of_ok (x := checked _) (a := grantFilter owner) rfl).trans ?_
    refine (bind_apply_of_ok (x := checked _) (a := ()) rfl).trans ?_
    refine (bind_apply_of_ok hread).trans ?_
    cases backwards <;> rfl
  have hseeds : (ordered backwards [(entityA, versionA), (entityB, versionB)]).map seedPath =
      ordered backwards [seedA, seedB] := by
    cases backwards <;> simp [ordered, seedPath, seedA, seedB, entityA_key, entityB_key]
  have hnodes : ((ordered backwards [(entityA, versionA), (entityB, versionB)]).map
      (·.1.key)).dedup = ordered backwards ["157", "158"] := by
    cases backwards <;> simp [ordered, entityA_key, entityB_key]
  have hsearch : ∃ s, (pairIn backwards).search onePath (.ofMicros 1) [.ofNat 1, .ofNat 3] {} =
      (.ok (), s) ∧ s.paths = [if backwards then pathBA else pathAB] := by
    have hlevel := pair_level backwards (s := { used := 2, nodes := ordered backwards ["157", "158"] }) (show 2 < 7 by decide)
    obtain ⟨v, hadmitted, hpaths⟩ : ∃ v, RelationTraversal.admitAll onePath
        (ordered backwards [(pathAB, stepAB), (pathBA, stepBA)])
        { used := 4, nodes := ordered backwards ["157", "158"] } =
          (.ok [if backwards then pathBA else pathAB], v) ∧
        v.paths = [if backwards then pathBA else pathAB] := by
      cases backwards
      · exact onePath_admits (pathAB, stepAB) (pathBA, stepBA) (by decide) (by decide)
      · exact onePath_admits (pathBA, stepBA) (pathAB, stepAB) (by decide) (by decide)
    refine ⟨addReason "depth" v, ?_, hpaths⟩
    unfold RelationTraversal.search
    refine (bind_apply_of_ok hready).trans ?_
    refine (bind_apply_of_ok (pair_seeds (by decide))).trans ?_
    refine (bind_apply_of_ok (x := update _) rfl).trans ?_
    rw [hseeds, hnodes]
    change (pairIn backwards).searchLevels _ _ _ 1 _ _ = _
    unfold RelationTraversal.searchLevels
    rw [if_neg (by cases backwards <;> exact List.cons_ne_nil _ _)]
    refine (bind_apply_of_ok hlevel).trans ?_
    exact (bind_apply_of_ok hadmitted).trans rfl
  obtain ⟨s, hsearch, hpaths⟩ := hsearch
  have hids : sortIds [.ofNat 1, .ofNat 3] = [.ofNat 1, .ofNat 3] := by decide
  have htime : evaluationTime (pairIn backwards).now onePath.asOf = .ok (.ofMicros 1) := rfl
  refine ⟨RelationTraversal.result onePath (.ofMicros 1) s, ?_, hpaths⟩
  rw [RelationTraversal.traverse]
  refine bind_eq_ok.mpr ⟨(), if_pos (by decide), bind_eq_ok.mpr ⟨_, htime, ?_⟩⟩
  rw [hids, hsearch]
  rfl

/-- The moves of the sample go along its one edge. -/
lemma pair_move {policy : TraversalPolicy} {at' : Instant} {scope : RelationScope sizes}
    {key key' : String} {r r' : KnowledgeRecord sizes} {step : TraversalStep}
    (h : Move verifiedSample.store policy at' scope (NamedVersion verifiedSample.store at') key r key'
      r' step) :
    key = "157" ∧ step = stepAlong versionA edgeAB .outward ∨
      key = "158" ∧ step = stepAlong versionA edgeAB .inward := by
  have hedge {source target : KnowledgeRecord sizes} {edge : RelationEdge sizes}
      (hhop : Hop verifiedSample.store policy at' scope (NamedVersion verifiedSample.store at')
        source target edge) : source = versionA ∧ edge = edgeAB := by
    have howned := hhop.owned
    rcases List.mem_pair.mp (canonical_sample.mp hhop.source_head.version.1.canonical).1 with
      rfl | rfl
    · exact ⟨rfl, List.mem_singleton.mp howned⟩
    · exact absurd howned List.not_mem_nil
  cases h with
  | outward hhop =>
    obtain ⟨rfl, rfl⟩ := hedge hhop
    exact .inl ⟨entityA_key, rfl⟩
  | inward hhop =>
    obtain ⟨rfl, rfl⟩ := hedge hhop
    exact .inr ⟨entityB_key, rfl⟩

lemma pair_orderly {at' : Instant} {scope : RelationScope sizes} :
    Orderly (pairIn false) onePath at' [.ofNat 1] scope := by
  refine .inr ⟨by simp, fun key r key' r₁ r₂ step₁ step₂ h₁ h₂ _ => ?_⟩
  rcases pair_move h₁ with ⟨hkey, hstep⟩ | ⟨hkey, hstep⟩ <;>
    rcases pair_move h₂ with ⟨hkey', hstep'⟩ | ⟨hkey', hstep'⟩
  · rw [hstep, hstep']
  · exact absurd (hkey.symm.trans hkey') (by decide)
  · exact absurd (hkey.symm.trans hkey') (by decide)
  · rw [hstep, hstep']

end Sample

end CyberBrain.Relations
