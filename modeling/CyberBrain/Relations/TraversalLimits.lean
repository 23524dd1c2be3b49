import CyberBrain.Relations.Search

/-!
# Limits of a traversal

However it ends, a traversal has kept to its budgets, and it gives each reason once and out of a
fixed list. This rests on no property of digests.
-/

namespace CyberBrain.Relations

open Program Python Schemas Tenancy RelationTraversal

variable {py : Runtime} {t : RelationTraversal py} {policy : TraversalPolicy} {at' : Instant}
  {scope : RelationScope py} {ids : List Uuid} {s : TraversalState} {reason : String}

/-- The reasons for which a read ends a traversal. -/
def readReasons : List String := ["storage_calls", "candidate_capacity"]

/-- The reasons of a traversal. -/
def traversalReasons : List String := ["nodes", "edges", "paths", "depth"] ++ readReasons

/-- A traversal within its budgets, with different reasons out of the list. -/
structure Tidy (policy : TraversalPolicy) (s : TraversalState) : Prop where
  budget : Budget policy s
  distinct : s.reasons.Nodup
  known : s.reasons ⊆ traversalReasons

/-- A traversal that ended early, when it was at a limit for one of the reasons of a read. -/
structure Ended (policy : TraversalPolicy) (e : Interruption) (s : TraversalState) : Prop where
  tidy : Tidy policy s
  limit : ∀ reason, e = .limit reason → reason ∈ readReasons

lemma Tidy.addReason (h : Tidy policy s) (hreason : reason ∈ traversalReasons) :
    Tidy policy (addReason reason s) where
  budget := ⟨h.budget.used, h.budget.nodes, h.budget.edges, h.budget.paths⟩
  distinct := h.distinct.insert
  known := by
    intro r hr
    rcases mem_addReason.mp hr with rfl | hr
    · exact hreason
    · exact h.known hr

lemma Tidy.raised (h : Tidy policy s) (e : Exc) : Ended policy (.raised e) s := ⟨h, by simp⟩

lemma Tidy.limit (h : Tidy policy s) (hreason : reason ∈ readReasons) :
    Ended policy (.limit reason) s :=
  ⟨h, fun _ heq => Interruption.limit.inj heq ▸ hreason⟩

/-! ### Reads -/

lemma charge_tidy : Triple (Tidy policy) (RelationTraversal.charge policy.maxStorageCalls)
    (fun _ => Tidy policy) (Ended policy) := by
  intro s hs
  unfold RelationTraversal.charge
  by_cases h : policy.maxStorageCalls ≤ s.used
  · rw [if_pos h]
    exact hs.limit (by simp [readReasons])
  · rw [if_neg h]
    refine ⟨⟨?_, hs.budget.nodes, hs.budget.edges, hs.budget.paths⟩, hs.distinct, hs.known⟩
    exact Nat.succ_le_of_lt (not_le.mp h)

lemma read_tidy (t : RelationTraversal py) {ρ : Type}
    {scroll : Query → ℕ → List (RelationPoint ρ) × Bool} {episode complete : Bool} {q : Query}
    {limit : ℕ} :
    Triple (Tidy policy) (t.read scroll episode policy.maxStorageCalls q limit complete)
      (fun _ => Tidy policy) (Ended policy) := by
  unfold RelationTraversal.read
  refine checked_bind (fun scope _ => ?_) fun e _ hu => hu.raised e
  refine Triple.bind _ charge_tidy fun _ => ?_
  refine Triple.ite (fun _ => Triple.raise fun _ hu => ?_) fun _ => Triple.pure fun _ hu => hu
  exact hu.limit (by simp [readReasons])

lemma requireReady_tidy : Triple (Tidy policy) (t.requireReady policy.maxStorageCalls)
    (fun _ => Tidy policy) (Ended policy) := by
  unfold RelationTraversal.requireReady
  refine checked_bind (fun _ _ => ?_) fun e _ hu => hu.raised e
  refine checked_bind (fun _ _ => ?_) fun e _ hu => hu.raised e
  refine Triple.bind _ (read_tidy t) fun points s hs => ?_
  by_cases hempty : points.isEmpty = true
  · rw [require, if_pos hempty]
    exact hs
  · rw [require, if_neg hempty]
    exact hs.raised _

lemma readSeeds_tidy : Triple (Tidy policy) (t.readSeeds policy at' ids)
    (fun _ => Tidy policy) (Ended policy) := by
  unfold RelationTraversal.readSeeds
  refine Triple.bind _ (read_tidy t) fun points => ?_
  refine checked_bind (fun _ _ => ?_) fun e _ hu => hu.raised e
  refine checked_bind (fun _ _ => ?_) fun e _ hu => hu.raised e
  refine checked_bind (fun _ _ => ?_) fun e _ hu => hu.raised e
  refine checked_bind (fun _ _ => ?_) fun e _ hu => hu.raised e
  refine checked_bind (fun _ _ => ?_) fun e _ hu => hu.raised e
  exact Triple.pure fun _ hu => hu

lemma readProofs_tidy {proofs : List Uuid} : Triple (Tidy policy) (t.readProofs policy scope proofs)
    (fun _ => Tidy policy) (Ended policy) := by
  unfold RelationTraversal.readProofs
  exact Triple.ite (fun _ => Triple.pure fun _ hu => hu) fun _ => read_tidy t

lemma candidatePaths_tidy {frontier : List TraversalPath} :
    Triple (Tidy policy) (t.candidatePaths policy at' scope frontier)
      (fun _ => Tidy policy) (Ended policy) := by
  unfold RelationTraversal.candidatePaths
  refine Triple.bind _ (read_tidy t) fun owners => ?_
  refine checked_bind (fun _ _ => ?_) fun e _ hu => hu.raised e
  refine Triple.bind _ (read_tidy t) fun records => ?_
  refine checked_bind (fun _ _ => ?_) fun e _ hu => hu.raised e
  refine checked_bind (fun _ _ => ?_) fun e _ hu => hu.raised e
  refine Triple.bind _ readProofs_tidy fun points => ?_
  refine checked_bind (fun _ _ => ?_) fun e _ hu => hu.raised e
  exact Triple.pure fun _ hu => hu

/-! ### Levels -/

lemma admitPath_tidy (h : Tidy policy s) (next : List TraversalPath)
    (extended : TraversalPath × Transition) :
    Tidy policy (admitPath policy (s, next) extended).1 := by
  have hcases := @admitPath_cases policy s next extended
  obtain ⟨path, tr⟩ := extended
  unfold admitPath at hcases ⊢
  dsimp only at hcases ⊢
  split_ifs at hcases ⊢ with hnodes hedges hpaths
  · exact h.addReason (by simp [traversalReasons])
  · exact h.addReason (by simp [traversalReasons])
  · exact h.addReason (by simp [traversalReasons])
  · rcases hcases with ⟨reason, -, heq⟩ | ⟨s', heq, -, -, -, hbudget⟩
    · simp at heq
    · obtain ⟨rfl, -⟩ := Prod.mk.inj heq
      exact ⟨hbudget h.budget, h.distinct, h.known⟩

lemma admitAll_tidy (candidates : List (TraversalPath × Transition)) :
    Triple (Tidy policy) (admitAll policy candidates) (fun _ => Tidy policy) (Ended policy) := by
  intro s hs
  suffices hfold : ∀ u : TraversalState × List TraversalPath, Tidy policy u.1 →
      Tidy policy (candidates.foldl (admitPath policy) u).1 from hfold (s, []) hs
  induction candidates with
  | nil => exact fun u hu => hu
  | cons extended candidates ih => exact fun u hu => ih _ (admitPath_tidy hu u.2 extended)

lemma searchLevels_tidy {level : ℕ} {frontier : List TraversalPath} :
    Triple (Tidy policy) (t.searchLevels policy at' scope level frontier)
      (fun _ => Tidy policy) (Ended policy) := by
  induction level generalizing frontier with
  | zero => exact Triple.pure fun _ hu => hu
  | succ level ih =>
    unfold RelationTraversal.searchLevels
    refine Triple.ite (fun _ => Triple.pure fun _ hu => hu) fun _ => ?_
    refine Triple.bind _ candidatePaths_tidy fun candidates => ?_
    refine Triple.bind _ (admitAll_tidy candidates) fun next => ?_
    refine Triple.ite (fun _ u hu => ?_) fun _ => ih
    exact Tidy.addReason hu (by simp [traversalReasons])

/-! ### Calls -/

lemma SeedsRead.length_le_ids {seeds : List (EntityRef py × KnowledgeRecord py)}
    (h : SeedsRead t scope ids seeds) : seeds.length ≤ ids.length := by
  have hsubset : seeds.map (·.2.id) ⊆ ids := by
    intro id hid
    obtain ⟨kv, hkv, rfl⟩ := List.mem_map.mp hid
    exact (h.sound kv hkv).1.chosen
  simpa using (h.nodup.subperm hsubset).length_le

lemma search_tidy (hknowledge : t.scrollKnowledge.Lawful (knowledgeSchema py))
    (hids : ids.length ≤ policy.maxNodes) :
    Triple (fun s => s = {}) (t.search policy at' ids) (fun _ => Tidy policy) (Ended policy) := by
  have hempty : Tidy policy {} :=
    ⟨⟨Nat.zero_le _, Nat.zero_le _, Nat.zero_le _, Nat.zero_le _⟩, List.nodup_nil,
      List.nil_subset _⟩
  unfold RelationTraversal.search
  refine Triple.bind (fun _ s => Kept policy.maxStorageCalls {} s ∧ Tidy policy s) ?_ fun _ => ?_
  · refine ((@requireReady_triple py t policy {}).and requireReady_tidy).conseq ?_
      (fun _ _ => id) fun _ _ h => h.2
    rintro s rfl
    exact ⟨⟨Nat.zero_le _, rfl, rfl, rfl, rfl⟩, hempty⟩
  refine Triple.bind _ (((readSeeds_triple hknowledge).and readSeeds_tidy).post (fun _ _ => id)
    fun _ _ h => h.2) fun out => ?_
  obtain ⟨seeds, scope⟩ := out
  refine Triple.bind (fun _ => Tidy policy) ?_ fun _ => searchLevels_tidy
  rintro s ⟨⟨-, hseeds, -⟩, hs⟩
  refine ⟨⟨hs.budget.used, ?_, hs.budget.edges, hs.budget.paths⟩, hs.distinct, hs.known⟩
  calc ((seeds.map (·.1.key)).dedup).length
      ≤ (seeds.map (·.1.key)).length := (List.dedup_sublist _).length_le
    _ = seeds.length := List.length_map _
    _ ≤ policy.maxNodes := hseeds.length_le_ids.trans hids

/-- What a traversal that returns has found is within its limits. -/
theorem traverse_tidy (hknowledge : t.scrollKnowledge.Lawful (knowledgeSchema py))
    {seedIds : List Uuid} {found : TraversalResult}
    (h : t.traverse seedIds policy = .ok found) :
    ∃ s, Tidy policy s ∧ found = RelationTraversal.result policy found.evaluatedAt s := by
  obtain ⟨_, hcount, h⟩ := CyberBrain.bind_eq_ok.mp h
  obtain ⟨at', -, h⟩ := CyberBrain.bind_eq_ok.mp h
  rw [require_eq_ok] at hcount
  have hlength : (sortIds seedIds).length ≤ policy.maxNodes := by
    rw [sortIds, List.length_insertionSort]
    exact ((List.dedup_sublist seedIds).length_le).trans hcount.2
  have hsearch := @search_tidy py t policy at' _ hknowledge hlength {} rfl
  rcases hrun : t.search policy at' (sortIds seedIds) {} with ⟨e | _, s⟩ <;> rw [hrun] at h hsearch
  · cases e with
    | raised e => cases h
    | limit reason =>
      cases h
      refine ⟨_, hsearch.tidy.addReason ?_, rfl⟩
      exact List.mem_append_right _ (hsearch.limit reason rfl)
  · cases h
    exact ⟨s, hsearch, rfl⟩

end CyberBrain.Relations
