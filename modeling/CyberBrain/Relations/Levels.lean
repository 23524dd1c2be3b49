import CyberBrain.Relations.Adjacency

/-!
# The levels of a search

A level finds the walks that are one step longer than those of its frontier, and keeps those that
fit the budgets.
-/

namespace CyberBrain.Relations

open Program Python Schemas Tenancy RelationTraversal

variable {py : Runtime} {store : RelationStore py} {caller : CallerAuthority py}
  {policy : TraversalPolicy} {at' : Instant} {scope : RelationScope py} {keys : List String}
  {l : Level py} {ids : List Uuid}

/-! ### Longer paths -/

variable (store policy at' scope ids) in
/-- What a search walks: the heads are those among the versions whose projections name them. -/
abbrev Walked : TraversalPath → String → KnowledgeRecord py → Prop :=
  Walk store policy at' scope (NamedVersion store at') (Seed store scope ids)

section LongerPaths

variable {p : TraversalPath} {key : String} {r : KnowledgeRecord py}

lemma mem_longerPaths {heads : List (String × KnowledgeRecord py)} {adjacency : List Transition}
    {p' : TraversalPath} {tr : Transition} :
    (p', tr) ∈ longerPaths at' heads adjacency p ↔ ∃ head,
      (heads.lookup p.lastKey = some head ∧ p.recordIds.getLast? = some head.id ∧
        eligible at' head) ∧ tr ∈ adjacency ∧ tr.start = p.lastKey ∧ tr.finish ∉ p.nodeKeys ∧
      p' = p.extend tr.finish tr.endpoint tr.step := by
  unfold longerPaths
  cases heads.lookup p.lastKey with
  | none => simp
  | some head =>
    dsimp only
    constructor
    · intro hmem
      split_ifs at hmem with h
      · obtain ⟨tr', htried, heq⟩ := List.mem_map.mp hmem
        obtain ⟨rfl, rfl⟩ := Prod.mk.inj heq
        obtain ⟨hordered, hnew⟩ := List.mem_filter.mp htried
        obtain ⟨htr, hstart⟩ := List.mem_filter.mp ((List.mem_insertionSort _).mp hordered)
        exact ⟨head, ⟨rfl, h⟩, htr, of_decide_eq_true hstart, of_decide_eq_true hnew, rfl⟩
      · cases hmem
    · rintro ⟨_, ⟨hhead, h⟩, hmem, hstart, hnew, rfl⟩
      obtain rfl := Option.some.inj hhead
      rw [if_pos h]
      refine List.mem_map.mpr ⟨tr, List.mem_filter.mpr ⟨?_, decide_eq_true hnew⟩, rfl⟩
      exact (List.mem_insertionSort _).mpr (List.mem_filter.mpr ⟨hmem, decide_eq_true hstart⟩)

/-- The heads of a level are those of the entities that its walks have come to. -/
lemma Level.Reads.lookup_of_walk (h : l.Reads store caller policy at' scope keys)
    (hsha : Set.InjOn py.sha256 (entityTexts store)) (hseen : Seen caller scope)
    (hwalk : Walked store policy at' scope ids p key r) (hkey : key ∈ keys)
    (q : KnowledgeRecord py) : l.heads.lookup key = some q ↔
      IsHead (NamedVersion store at' key) policy.asOf.isSome q := by
  obtain ⟨hcanonical, ⟨ref, hentity, rfl⟩, hpartition⟩ := hwalk.standing fun _ _ => And.left
  exact h.heads_lookup hsha hseen ⟨r, hcanonical, .inl hentity⟩
    ((scope_of_entityOf hentity).trans hpartition) (Level.mem_headKeys.mpr (.inl hkey)) q

/-- A longer path that a level tries goes one move further. -/
theorem Level.Reads.move_of_longer (h : l.Reads store caller policy at' scope keys)
    (hsha : Set.InjOn py.sha256 (entityTexts store)) (hseen : Seen caller scope)
    (hwalk : Walked store policy at' scope ids p key r) (hkey : key ∈ keys) {p' : TraversalPath}
    {tr : Transition} (hlonger : (p', tr) ∈ longerPaths at' l.heads (l.adjacency policy at' scope) p) :
    ∃ r', Move store policy at' scope (NamedVersion store at') key r tr.finish r' tr.step ∧
      tr.finish ∉ p.nodeKeys ∧ p' = p.extend tr.finish r'.id tr.step := by
  obtain ⟨head, ⟨hlookup, hlast, -⟩, hmem, hstart, hnew, rfl⟩ := mem_longerPaths.mp hlonger
  obtain ⟨hkeyLast, hid⟩ := hwalk.last
  rw [hkeyLast] at hlookup hstart
  have hhead := (h.lookup_of_walk hsha hseen hwalk hkey head).mp hlookup
  obtain rfl : head = r := hhead.version.1.canonical.eq_of_id
    (hwalk.standing fun _ _ => And.left).1 (Option.some.inj (hlast.symm.trans hid))
  obtain ⟨source, r', hmove, hendpoint⟩ := h.move_of_mem hsha hseen hmem
  rw [hstart] at hmove
  -- the transition starts at the head that the path has come to
  obtain rfl : source = head := hmove.heads.1.1.eq hhead
  exact ⟨r', hmove, hnew, by rw [hendpoint]⟩

/-- Every move further is tried, where projections are correct. -/
theorem Level.Reads.longer_of_move (h : l.Reads store caller policy at' scope keys)
    (hsha : Set.InjOn py.sha256 (entityTexts store)) (hseen : Seen caller scope)
    (hverify : ∀ r, Canonical store r → verifyProjection r = .ok ())
    (hwalk : Walked store policy at' scope ids p key r) (hkey : key ∈ keys) {key' : String}
    {r' : KnowledgeRecord py} {step : TraversalStep}
    (hmove : Move store policy at' scope (NamedVersion store at') key r key' r' step)
    (hnew : key' ∉ p.nodeKeys) : (p.extend key' r'.id step, ⟨key, key', r'.id, step⟩) ∈
      longerPaths at' l.heads (l.adjacency policy at' scope) p := by
  obtain ⟨hkeyLast, hid⟩ := hwalk.last
  obtain ⟨hhead, heligible, -⟩ := hmove.heads.1
  refine mem_longerPaths.mpr ⟨r, ⟨?_, hid, heligible⟩,
    h.mem_of_move hsha hseen hverify hkey hmove, hkeyLast.symm, hnew, rfl⟩
  rw [hkeyLast]
  exact (h.lookup_of_walk hsha hseen hwalk hkey r).mpr hhead

/-! ### No path comes twice -/

lemma extend_inj {q : TraversalPath} {key key' : String} {id id' : Uuid}
    {step step' : TraversalStep} (h : p.extend key id step = q.extend key' id' step') :
    p = q ∧ key = key' ∧ id = id' ∧ step = step' := by
  simp only [TraversalPath.extend, TraversalPath.mk.injEq] at h
  obtain ⟨hkeys, hids, hsteps⟩ := h
  obtain ⟨hkeys, hkey⟩ := List.append_inj' hkeys rfl
  obtain ⟨hids, hid⟩ := List.append_inj' hids rfl
  obtain ⟨hsteps, hstep⟩ := List.append_inj' hsteps rfl
  simp only [List.cons.injEq, and_true] at hkey hid hstep
  cases p
  cases q
  simp only at hkeys hids hsteps
  rw [hkeys, hids, hsteps]
  exact ⟨rfl, hkey, hid, hstep⟩

/-- The longer paths from different paths along different transitions are different. -/
lemma nodup_longerPaths {heads : List (String × KnowledgeRecord py)} {adjacency : List Transition}
    (hadjacency : adjacency.Nodup) {frontier : List TraversalPath} (hfrontier : frontier.Nodup) :
    ((frontier.flatMap (longerPaths at' heads adjacency)).map (·.1)).Nodup := by
  rw [List.map_flatMap, List.nodup_flatMap]
  constructor
  · intro p _
    have hpairs : (longerPaths at' heads adjacency p).Nodup := by
      unfold longerPaths
      split
      · split_ifs
        · refine List.Nodup.map (fun _ _ h => (Prod.mk.inj h).2) (List.Nodup.filter _ ?_)
          exact ((List.perm_insertionSort _ _).nodup_iff).mpr (hadjacency.filter _)
        · exact List.nodup_nil
      · exact List.nodup_nil
    refine hpairs.map_on ?_
    rintro ⟨p', tr⟩ h ⟨q', tr'⟩ h' (rfl : p' = q')
    obtain ⟨-, -, -, hstart, -, hp⟩ := mem_longerPaths.mp h
    obtain ⟨-, -, -, hstart', -, hq⟩ := mem_longerPaths.mp h'
    obtain ⟨-, hfinish, hendpoint, hstep⟩ := extend_inj (hp.symm.trans hq)
    cases tr
    cases tr'
    simp_all
  · refine hfrontier.imp_of_mem fun {p q} _ _ hne => List.disjoint_left.mpr ?_
    simp only [List.mem_map, not_exists, not_and]
    rintro _ ⟨⟨p', tr⟩, hp', rfl⟩ ⟨q', tr'⟩ hq' (rfl : q' = p')
    obtain ⟨-, -, -, -, -, hp⟩ := mem_longerPaths.mp hp'
    obtain ⟨-, -, -, -, -, hq⟩ := mem_longerPaths.mp hq'
    exact hne (extend_inj (hp.symm.trans hq)).1

end LongerPaths

/-! ### Budgets -/

/-- What was found and used fits the policy. -/
structure Budget (policy : TraversalPolicy) (s : TraversalState) : Prop where
  used : s.used ≤ policy.maxStorageCalls
  nodes : s.nodes.length ≤ policy.maxNodes
  edges : s.edgeIds.length ≤ policy.maxEdges
  paths : s.paths.length ≤ policy.maxPaths

/-- Nothing was left out, but for what lies deeper. -/
def Whole (s : TraversalState) : Prop := ∀ reason ∈ s.reasons, reason = "depth"

/-- What happens to a longer path: it is left out for a reason, or kept within the budgets. -/
lemma admitPath_cases (s : TraversalState) (next : List TraversalPath)
    (extended : TraversalPath × Transition) :
    (∃ reason ≠ "depth", admitPath policy (s, next) extended = (addReason reason s, next)) ∨
      ∃ s', admitPath policy (s, next) extended = (s', next ++ [extended.1]) ∧
        s'.paths = s.paths ++ [extended.1] ∧ s'.used = s.used ∧ s'.reasons = s.reasons ∧
        (Budget policy s → Budget policy s') := by
  obtain ⟨path, tr⟩ := extended
  unfold admitPath
  dsimp only
  split_ifs with hnodes hedges hpaths
  · exact .inl ⟨"nodes", by decide, rfl⟩
  · exact .inl ⟨"edges", by decide, rfl⟩
  · exact .inl ⟨"paths", by decide, rfl⟩
  · refine .inr ⟨_, rfl, rfl, rfl, rfl, fun h => ⟨h.used, ?_, ?_, ?_⟩⟩
    · by_cases hmem : tr.finish ∈ s.nodes
      · simpa [List.insert_of_mem hmem] using h.nodes
      · rw [List.length_insert_of_not_mem hmem]
        exact not_le.mp fun hle => hnodes ⟨hmem, hle⟩
    · by_cases hmem : tr.step.relationId ∈ s.edgeIds
      · simpa [List.insert_of_mem hmem] using h.edges
      · rw [List.length_insert_of_not_mem hmem]
        exact not_le.mp fun hle => hedges ⟨hmem, hle⟩
    · rw [List.length_append]
      exact not_le.mp hpaths

@[simp] lemma mem_addReason {s : TraversalState} {reason reason' : String} :
    reason' ∈ (addReason reason s).reasons ↔ reason' = reason ∨ reason' ∈ s.reasons :=
  List.mem_insert_iff

/-- What a level keeps of the longer paths. -/
structure Admitted (policy : TraversalPolicy) (s : TraversalState)
    (candidates : List TraversalPath) (s' : TraversalState) (kept : List TraversalPath) : Prop where
  sublist : kept.Sublist candidates
  paths : s'.paths = s.paths ++ kept
  depth : "depth" ∈ s'.reasons ↔ "depth" ∈ s.reasons
  whole : Whole s' → Whole s ∧ kept = candidates
  budget : Budget policy s → Budget policy s'

theorem admitPath_fold (policy : TraversalPolicy) (candidates : List (TraversalPath × Transition))
    (s : TraversalState) (next : List TraversalPath) : ∃ kept,
      (candidates.foldl (admitPath policy) (s, next)).2 = next ++ kept ∧
      Admitted policy s (candidates.map (·.1)) (candidates.foldl (admitPath policy) (s, next)).1
        kept := by
  induction candidates generalizing s next with
  | nil =>
    exact ⟨[], by simp, List.Sublist.refl _, by simp, Iff.rfl, fun h => ⟨h, rfl⟩, id⟩
  | cons extended candidates ih =>
    rw [List.foldl_cons]
    rcases admitPath_cases s next extended with ⟨reason, hreason, hturn⟩ |
      ⟨s', hturn, hpaths, hused, hreasons, hbudget⟩
    · obtain ⟨kept, hnext, hkept⟩ := ih (addReason reason s) next
      rw [hturn]
      refine ⟨kept, hnext, hkept.sublist.cons _, hkept.paths, ?_, fun hwhole => ?_,
        fun h => hkept.budget ⟨h.used, h.nodes, h.edges, h.paths⟩⟩
      · rw [hkept.depth, mem_addReason]
        exact or_iff_right hreason.symm
      · exact absurd ((hkept.whole hwhole).1 reason (mem_addReason.mpr (.inl rfl))) hreason
    · obtain ⟨kept, hnext, hkept⟩ := ih s' (next ++ [extended.1])
      rw [hturn]
      refine ⟨extended.1 :: kept, by rw [hnext, List.append_assoc]; rfl, hkept.sublist.cons_cons _,
        ?_, by rw [hkept.depth, hreasons], fun hwhole => ?_, fun h => hkept.budget (hbudget h)⟩
      · rw [hkept.paths, hpaths, List.append_assoc]
        rfl
      · obtain ⟨hrest, hall⟩ := hkept.whole hwhole
        refine ⟨fun reason hmem => hrest reason (hreasons ▸ hmem), ?_⟩
        rw [hall]
        rfl

end CyberBrain.Relations
