import CyberBrain.Relations.Levels

/-!
# The search over levels

What a search has found, level by level: all of it consists of walks, and nothing is missing unless
a reason says so.
-/

namespace CyberBrain.Relations

open Program Python Schemas Tenancy RelationTraversal

variable {py : Runtime}

/-- Every canonical record carries its projection. -/
def Verified (store : RelationStore py) : Prop :=
  ∀ r, Canonical store r → verifyProjection r = .ok ()

section Invariants

variable (store : RelationStore py) (policy : TraversalPolicy) (at' : Instant)
  (scope : RelationScope py) (ids : List Uuid)

/-- A walk from a seed. -/
def IsWalk (p : TraversalPath) : Prop := ∃ key r, Walked store policy at' scope ids p key r

/-- What holds of a search however it ends. -/
structure Found (s : TraversalState) : Prop where
  budget : Budget policy s
  sound : ∀ p ∈ s.paths, IsWalk store policy at' scope ids p ∧ 1 ≤ p.steps.length ∧
    p.steps.length ≤ policy.depth

/-- What holds before a level: the paths have up to `k` steps, those of the frontier have `k`. -/
structure Searched (k : ℕ) (frontier : List TraversalPath) (s : TraversalState) : Prop where
  budget : Budget policy s
  sound : ∀ p ∈ s.paths, IsWalk store policy at' scope ids p ∧ 1 ≤ p.steps.length ∧
    p.steps.length ≤ k
  frontier_sound : ∀ p ∈ frontier, IsWalk store policy at' scope ids p ∧ p.steps.length = k
  nodup : s.paths.Nodup
  frontier_nodup : frontier.Nodup
  complete : Verified store → Whole s → ∀ p, IsWalk store policy at' scope ids p →
    (1 ≤ p.steps.length → p.steps.length ≤ k → p ∈ s.paths) ∧ (p.steps.length = k → p ∈ frontier)

/-- What holds of a search that is not interrupted. -/
structure Finished (s : TraversalState) : Prop extends Found store policy at' scope ids s where
  nodup : s.paths.Nodup
  complete : Verified store → Whole s → ∀ p, IsWalk store policy at' scope ids p →
    1 ≤ p.steps.length → p.steps.length ≤ policy.depth → p ∈ s.paths
  exhausted : Verified store → Whole s → "depth" ∉ s.reasons →
    ∀ p, IsWalk store policy at' scope ids p → p.steps.length ≤ policy.depth

/-- How a search is interrupted. -/
structure Interrupted (e : Interruption) (s : TraversalState) : Prop
    extends Found store policy at' scope ids s where
  not_depth : e ≠ .limit "depth"

end Invariants

section Levels

variable {t : RelationTraversal py} {policy : TraversalPolicy} {at' : Instant}
  {scope : RelationScope py} {ids : List Uuid} {caller : CallerAuthority py} {k : ℕ}
  {frontier : List TraversalPath} {s u : TraversalState}

/-- A walk with a step has come from a shorter one. -/
lemma exists_move {p : TraversalPath} (h : IsWalk t.store policy at' scope ids p)
    (hlength : p.steps.length = k + 1) :
    ∃ q key r, Walked t.store policy at' scope ids q key r ∧ q.steps.length = k ∧
      ∃ key' r' step, Move t.store policy at' scope (NamedVersion t.store at') key r key' r' step ∧
        key' ∉ q.nodeKeys ∧ p = q.extend key' r'.id step := by
  obtain ⟨key', r', hwalk⟩ := h
  cases hwalk with
  | seed => cases hlength
  | @move q key _ r _ step hwalk hmove hnew =>
    rw [length_extend, Nat.succ_inj] at hlength
    exact ⟨q, key, r, hwalk, hlength, key', r', step, hmove, hnew, rfl⟩

/-- Where nothing has `k` steps, nothing has more. -/
lemma length_lt_of_none (h : ∀ p, IsWalk t.store policy at' scope ids p → p.steps.length ≠ k)
    {p : TraversalPath} (hwalk : IsWalk t.store policy at' scope ids p) : p.steps.length < k := by
  by_contra hle
  obtain ⟨key, r, hwalk⟩ := hwalk
  obtain ⟨q, key', r', hq, hlength⟩ := hwalk.shorter (not_lt.mp hle)
  exact h q ⟨key', r', hq⟩ hlength

lemma Searched.found (h : Searched t.store policy at' scope ids k frontier s)
    (hk : k ≤ policy.depth) : Found t.store policy at' scope ids s :=
  ⟨h.budget, fun p hp => ⟨(h.sound p hp).1, (h.sound p hp).2.1, (h.sound p hp).2.2.trans hk⟩⟩

/-- Where the frontier is empty, the search is finished. -/
lemma Searched.finished (h : Searched t.store policy at' scope ids k [] s)
    (hk : k ≤ policy.depth) : Finished t.store policy at' scope ids s := by
  have hshort (hverify : Verified t.store) (hwhole : Whole s) {p : TraversalPath}
      (hp : IsWalk t.store policy at' scope ids p) : p.steps.length < k :=
    length_lt_of_none (fun q hq hlength =>
      absurd ((h.complete hverify hwhole q hq).2 hlength) (List.not_mem_nil)) hp
  refine ⟨h.found hk, h.nodup, fun hverify hwhole p hp hstep _ => ?_, fun hverify hwhole _ p hp => ?_⟩
  · exact (h.complete hverify hwhole p hp).1 hstep (hshort hverify hwhole hp).le
  · exact (hshort hverify hwhole hp).le.trans hk

/-- The bounds of a budget hold of what only charged calls. -/
lemma Searched.kept (h : Searched t.store policy at' scope ids k frontier s)
    (hkept : Kept policy.maxStorageCalls s u) :
    Searched t.store policy at' scope ids k frontier u := by
  refine ⟨⟨hkept.used, hkept.nodes ▸ h.budget.nodes, hkept.edgeIds ▸ h.budget.edges,
    hkept.paths ▸ h.budget.paths⟩, hkept.paths ▸ h.sound, h.frontier_sound, hkept.paths ▸ h.nodup,
    h.frontier_nodup, fun hverify hwhole => ?_⟩
  rw [hkept.paths]
  exact h.complete hverify fun reason hmem => hwhole reason (hkept.reasons ▸ hmem)

/-- A level adds the walks that are one step longer. -/
lemma Searched.level (h : Searched t.store policy at' scope ids k frontier s)
    (hsha : Set.InjOn py.sha256 (entityTexts t.store)) (hseen : Seen caller scope) {l : Level py}
    (hreads : l.Reads t.store caller policy at' scope
      (FrozenSet.ofList (frontier.map (·.lastKey))).sorted) {kept : List TraversalPath}
    (hkept : Admitted policy s ((frontier.flatMap
      (longerPaths at' l.heads (l.adjacency policy at' scope))).map (·.1)) u kept) :
    Searched t.store policy at' scope ids (k + 1) kept u := by
  have hkey {p : TraversalPath} {key : String} {r : KnowledgeRecord py} (hp : p ∈ frontier)
      (hwalk : Walked t.store policy at' scope ids p key r) :
      key ∈ (FrozenSet.ofList (frontier.map (·.lastKey))).sorted := by
    rw [← FrozenSet.mem_def, FrozenSet.mem_ofList, ← hwalk.last.1]
    exact List.mem_map_of_mem hp
  have hsound : ∀ p' ∈ kept, IsWalk t.store policy at' scope ids p' ∧ p'.steps.length = k + 1 := by
    intro p' hp'
    obtain ⟨⟨_, tr⟩, hmem, rfl⟩ := List.mem_map.mp (hkept.sublist.subset hp')
    obtain ⟨p, hp, hlonger⟩ := List.mem_flatMap.mp hmem
    obtain ⟨⟨key, r, hwalk⟩, hlength⟩ := h.frontier_sound p hp
    obtain ⟨r', hmove, hnew, heq⟩ :=
      hreads.move_of_longer hsha hseen hwalk (hkey hp hwalk) hlonger
    rw [heq, length_extend, hlength]
    exact ⟨⟨tr.finish, r', .move hwalk hmove hnew⟩, rfl⟩
  have hdisjoint : s.paths.Disjoint kept := by
    refine List.disjoint_left.mpr fun p hp hp' => ?_
    have hle := (h.sound p hp).2.2
    rw [(hsound p hp').2] at hle
    omega
  have hnodup := hkept.sublist.nodup (nodup_longerPaths hreads.nodup_adjacency h.frontier_nodup)
  refine ⟨hkept.budget h.budget, ?_, hsound, ?_, hnodup, fun hverify hwhole p hp => ?_⟩
  · rw [hkept.paths]
    intro p hp
    rcases List.mem_append.mp hp with hp | hp
    · obtain ⟨hwalk, hone, hle⟩ := h.sound p hp
      exact ⟨hwalk, hone, by omega⟩
    · obtain ⟨hwalk, hlength⟩ := hsound p hp
      exact ⟨hwalk, by omega, by omega⟩
  · rw [hkept.paths]
    exact h.nodup.append hnodup hdisjoint
  · obtain ⟨hwhole, hall⟩ := hkept.whole hwhole
    have hlonger : p.steps.length = k + 1 → p ∈ kept := by
      intro hlength
      obtain ⟨q, key, r, hwalk, hq, key', r', step, hmove, hnew, rfl⟩ := exists_move hp hlength
      have hmem := (h.complete hverify hwhole q ⟨key, r, hwalk⟩).2 hq
      rw [hall]
      exact List.mem_map.mpr ⟨_, List.mem_flatMap.mpr ⟨q, hmem, hreads.longer_of_move hsha hseen
        hverify hwalk (hkey hmem hwalk) hmove hnew⟩, rfl⟩
    refine ⟨fun hone hle => ?_, hlonger⟩
    rw [hkept.paths, List.mem_append]
    rcases Nat.lt_or_ge k p.steps.length with hlt | hge
    · exact .inr (hlonger (by omega))
    · exact .inl ((h.complete hverify hwhole p hp).1 hone hge)

variable (t policy at' scope caller frontier) in
/-- The longer paths that the reads of a level show. -/
def Tried (candidates : List (TraversalPath × Transition)) : Prop :=
  ∃ l : Level py, l.Reads t.store caller policy at' scope
      (FrozenSet.ofList (frontier.map (·.lastKey))).sorted ∧
    candidates = frontier.flatMap (longerPaths at' l.heads (l.adjacency policy at' scope))

/-- The reads of a level. -/
lemma Searched.candidates_triple (hknowledge : t.scrollKnowledge.Lawful (knowledgeSchema py))
    (hepisodes : t.scrollEpisodes.Lawful episodeSchema) (hcaller : t.bound = some caller)
    (hk : k ≤ policy.depth) :
    Triple (Searched t.store policy at' scope ids k frontier)
      (t.candidatePaths policy at' scope frontier)
      (fun candidates u => Searched t.store policy at' scope ids k frontier u ∧
        Tried t policy at' scope caller frontier candidates)
      (Interrupted t.store policy at' scope ids) := by
  refine Triple.of_forall fun s hs => ?_
  have hreads := candidatePaths_triple (s := s) hknowledge hepisodes policy at' scope frontier
  refine (hreads.pre ?_).post (fun candidates u hu => ?_) fun e u hu => ?_
  · rintro u rfl
    exact ⟨hs.budget.used, rfl, rfl, rfl, rfl⟩
  · obtain ⟨hu, caller', hcaller', l, hl, rfl⟩ := hu
    obtain rfl : caller = caller' := Option.some.inj (hcaller.symm.trans hcaller')
    exact ⟨hs.kept hu, l, hl, rfl⟩
  · exact ⟨(hs.kept hu.toKept).found hk, hu.not_depth⟩

/-- What a level keeps. -/
lemma Searched.admitAll_triple (hsha : Set.InjOn py.sha256 (entityTexts t.store))
    (hseen : Seen caller scope) (candidates : List (TraversalPath × Transition)) :
    Triple (fun u => Searched t.store policy at' scope ids k frontier u ∧
        Tried t policy at' scope caller frontier candidates)
      (admitAll policy candidates)
      (fun next => Searched t.store policy at' scope ids (k + 1) next)
      (Interrupted t.store policy at' scope ids) := by
  rintro u ⟨hu, l, hl, rfl⟩
  obtain ⟨kept, hnext, hkept⟩ := admitPath_fold policy (frontier.flatMap
    (longerPaths at' l.heads (l.adjacency policy at' scope))) u []
  simp only [admitAll, hnext, List.nil_append]
  exact hu.level hsha hseen hl hkept

lemma Searched.depth (h : Searched t.store policy at' scope ids policy.depth frontier s) :
    Finished t.store policy at' scope ids (addReason "depth" s) := by
  have hwhole (h : Whole (addReason "depth" s)) : Whole s :=
    fun reason hmem => h reason (mem_addReason.mpr (.inr hmem))
  refine ⟨⟨⟨h.budget.used, h.budget.nodes, h.budget.edges, h.budget.paths⟩, h.sound⟩, h.nodup, ?_, ?_⟩
  · exact fun hverify hall p hp hone hle => (h.complete hverify (hwhole hall) p hp).1 hone hle
  · exact fun _ _ hdepth => absurd (mem_addReason.mpr (.inl rfl)) hdepth

/-- The loop over the levels finds the walks of up to `depth` steps. -/
theorem searchLevels_triple (hknowledge : t.scrollKnowledge.Lawful (knowledgeSchema py))
    (hepisodes : t.scrollEpisodes.Lawful episodeSchema)
    (hsha : Set.InjOn py.sha256 (entityTexts t.store)) (hcaller : t.bound = some caller)
    (hseen : Seen caller scope) (level : ℕ) (hk : k + level = policy.depth)
    (hlast : level = 0 → frontier = []) :
    Triple (Searched t.store policy at' scope ids k frontier)
      (t.searchLevels policy at' scope level frontier)
      (fun _ => Finished t.store policy at' scope ids)
      (Interrupted t.store policy at' scope ids) := by
  induction level generalizing k frontier with
  | zero =>
    obtain rfl := hlast rfl
    exact Triple.pure fun s hs => hs.finished (by omega)
  | succ level ih =>
    unfold RelationTraversal.searchLevels
    refine Triple.ite (fun hnil => ?_) fun _ => ?_
    · subst hnil
      exact Triple.pure fun s hs => hs.finished (by omega)
    · refine Triple.bind _ (Searched.candidates_triple hknowledge hepisodes hcaller (by omega))
        fun candidates => ?_
      refine Triple.bind _ (Searched.admitAll_triple hsha hseen candidates) fun next => ?_
      refine Triple.ite (fun hdepth => ?_) fun hrest => ?_
      · rintro u hu
        have heq : k + 1 = policy.depth := by omega
        rw [heq] at hu
        exact hu.depth
      · exact ih (by omega) fun hzero => by_contra fun hne => hrest ⟨hzero, hne⟩

end Levels

/-! ### Seeds -/

section Seeds

variable {t : RelationTraversal py} {policy : TraversalPolicy} {at' : Instant}
  {scope : RelationScope py} {ids : List Uuid} {s : TraversalState}

variable (t scope ids) in
/-- The seeds that were read with their entities. -/
structure SeedsRead (seeds : List (EntityRef py × KnowledgeRecord py)) : Prop where
  sound : ∀ kv ∈ seeds, Seed t.store scope ids kv.2 ∧ entityOf kv.2 = .ok kv.1
  found : ∀ id ∈ ids, ∃ kv ∈ seeds, kv.2.id = id
  nodup : (seeds.map (·.2.id)).Nodup

/-- The seeds share a partition. -/
def SharedBy (store : RelationStore py) (ids : List Uuid) (scope : RelationScope py) : Prop :=
  ∀ id ∈ ids, ∃ r, Seed store scope ids r ∧ r.id = id

lemma requireReady_triple :
    Triple (Kept policy.maxStorageCalls s) (t.requireReady policy.maxStorageCalls)
      (fun _ => Kept policy.maxStorageCalls s) (Cut policy.maxStorageCalls s) := by
  unfold RelationTraversal.requireReady
  refine checked_bind (fun _ _ => ?_) fun e _ hu => hu.raised e
  refine checked_bind (fun _ _ => ?_) fun e _ hu => hu.raised e
  refine Triple.bind _ (read_kept t) fun points u hu => ?_
  by_cases hempty : points.isEmpty = true
  · rw [require, if_pos hempty]
    exact hu
  · rw [require, if_neg hempty]
    exact hu.raised _

lemma sharedScope_eq_ok {refs : List (EntityRef py)} (h : sharedScope refs = .ok scope) :
    refs ≠ [] ∧ ∀ ref ∈ refs, ref.scope = scope := by
  cases refs with
  | nil => cases h
  | cons ref refs =>
    obtain ⟨_, hall, heq⟩ := bind_eq_ok.mp h
    cases heq
    rw [require_eq_ok] at hall
    exact ⟨List.cons_ne_nil _ _, List.forall_mem_cons.mpr ⟨rfl, hall⟩⟩

/-- Reading the seeds finds them all in one partition that the caller may read. -/
lemma readSeeds_triple (hknowledge : t.scrollKnowledge.Lawful (knowledgeSchema py)) :
    Triple (Kept policy.maxStorageCalls s) (t.readSeeds policy at' ids)
      (fun out u => Kept policy.maxStorageCalls s u ∧ SeedsRead t out.2 ids out.1 ∧
        ∃ caller, t.bound = some caller ∧ Seen caller out.2)
      (Cut policy.maxStorageCalls s) := by
  unfold RelationTraversal.readSeeds
  refine Triple.bind _ (read_triple _ t hknowledge t.store.knowledge false _) fun points =>
    Triple.of_forall ?_
  rintro u ⟨hu, caller, hcaller, hpoints⟩
  have hcut (e : Exc) (v : TraversalState) (hv : v = u) :
      Cut policy.maxStorageCalls s (.raised e) v := (hv ▸ hu).raised e
  refine checked_bind (fun seeds hseeds => ?_) hcut
  refine checked_bind (fun _ hchosen => ?_) hcut
  refine checked_bind (fun refs hrefs => ?_) hcut
  refine checked_bind (fun scope hscope => ?_) hcut
  refine checked_bind (fun _ _ => ?_) hcut
  rw [require_eq_ok] at hchosen
  obtain ⟨hnonempty, hshared⟩ := sharedScope_eq_ok hscope
  have hentities := forall₂_of_mapM hrefs
  have hsnd : (refs.zip seeds).map (·.2) = seeds :=
    List.map_snd_zip hentities.length_eq.le
  -- the points of the seeds
  have hpoint : ∀ r ∈ seeds, Canonical t.store r ∧
      (grantFilter caller).accepts ((knowledgeSchema py).fields r) = true := by
    intro r hr
    obtain ⟨p, hp, hcanonical⟩ := (mem_of_mapM hseeds).mp hr
    obtain ⟨hrow, hmatch⟩ := (hpoints.mem_iff p).mp hp
    obtain ⟨haccepts, hclass, -⟩ := (seedsQuery_matches hcanonical).mp hmatch
    exact ⟨⟨⟨p, hrow, hcanonical⟩, hclass⟩, haccepts⟩
  have hzip : ∀ kv ∈ refs.zip seeds, kv.1 ∈ refs ∧ kv.2 ∈ seeds ∧ entityOf kv.2 = .ok kv.1 :=
    fun kv hkv => ⟨(List.of_mem_zip hkv).1, (List.of_mem_zip hkv).2,
      (List.forall₂_iff_zip.mp hentities.flip).2 hkv⟩
  have hpartition : ∀ kv ∈ refs.zip seeds, kv.2.toIdentityValues = scope.toIdentityValues := by
    intro kv hkv
    obtain ⟨href, -, hentity⟩ := hzip kv hkv
    rw [← scope_of_entityOf hentity, hshared _ href]
  refine Triple.pure fun v hv => ⟨hv ▸ hu, ⟨fun kv hkv => ?_, fun id hid => ?_, ?_⟩, caller,
    hcaller, ?_⟩
  · obtain ⟨-, hr, hentity⟩ := hzip kv hkv
    exact ⟨⟨(hpoint _ hr).1, (hchosen.2 _ hr).1, hpartition kv hkv⟩, hentity⟩
  · obtain ⟨r, hr, rfl⟩ := hchosen.1 id hid
    rw [← hsnd] at hr
    obtain ⟨kv, hkv, rfl⟩ := List.mem_map.mp hr
    exact ⟨kv, hkv, rfl⟩
  · have hids : (refs.zip seeds).map (·.2.id) = points.map (·.id) := by
      have hcanonical : seeds.map (·.id) = points.map (·.id) := by
        have hall := forall₂_of_mapM hseeds
        clear * - hall
        induction hall with
        | nil => rfl
        | cons hr _ ih =>
          have hid : _ = _ := (canonical_eq_ok.mp hr).2
          rw [List.map_cons, List.map_cons, ih]
          exact congrArg (· :: _) hid
      rw [← hcanonical]
      nth_rewrite 2 [← hsnd]
      rw [List.map_map]
      rfl
    rw [hids]
    exact hpoints.nodup.map_on fun p hp q hq hid =>
      Table.eq_of_key_eq ((hpoints.mem_iff p).mp hp).1 ((hpoints.mem_iff q).mp hq).1 hid
  · obtain ⟨ref, href⟩ := List.exists_mem_of_ne_nil refs hnonempty
    obtain ⟨r, hr, hentity⟩ := (mem_of_mapM hrefs).mp href
    refine ⟨(knowledgeSchema py).fields r, ?_, (hpoint r hr).2⟩
    have heq : r.toIdentityValues = scope.toIdentityValues := by
      rw [← scope_of_entityOf hentity, hshared _ href]
    exact heq ▸ knowledge_carries r

lemma SeedsRead.shared {seeds : List (EntityRef py × KnowledgeRecord py)}
    (h : SeedsRead t scope ids seeds) : SharedBy t.store ids scope := by
  intro id hid
  obtain ⟨kv, hkv, rfl⟩ := h.found id hid
  exact ⟨kv.2, (h.sound kv hkv).1, rfl⟩

/-- The walks without a step are the seeds that were read. -/
lemma SeedsRead.searched {seeds : List (EntityRef py × KnowledgeRecord py)}
    (h : SeedsRead t scope ids seeds) (hids : ids.length ≤ policy.maxNodes)
    (hkept : Kept policy.maxStorageCalls {} s) :
    Searched t.store policy at' scope ids 0 (seeds.map seedPath)
      { s with nodes := (seeds.map (·.1.key)).dedup } := by
  have hlength : seeds.length ≤ ids.length := by
    have hsubset : seeds.map (·.2.id) ⊆ ids := by
      intro id hid
      obtain ⟨kv, hkv, rfl⟩ := List.mem_map.mp hid
      exact (h.sound kv hkv).1.chosen
    simpa using (h.nodup.subperm hsubset).length_le
  refine ⟨⟨hkept.used, ?_, ?_, ?_⟩, ?_, ?_, ?_, ?_, ?_⟩
  · calc ((seeds.map (·.1.key)).dedup).length
        ≤ (seeds.map (·.1.key)).length := (List.dedup_sublist _).length_le
      _ = seeds.length := List.length_map _
      _ ≤ policy.maxNodes := hlength.trans hids
  · simp [hkept.edgeIds]
  · simp [hkept.paths]
  · simp [hkept.paths]
  · intro p hp
    obtain ⟨kv, hkv, rfl⟩ := List.mem_map.mp hp
    obtain ⟨hseed, hentity⟩ := h.sound kv hkv
    exact ⟨⟨kv.1.key, kv.2, .seed hseed hentity⟩, rfl⟩
  · simp [hkept.paths]
  · refine List.Nodup.of_map (fun p : TraversalPath => p.recordIds) ?_
    rw [List.map_map]
    have := h.nodup.map (f := fun id => [id]) fun _ _ heq => List.singleton_inj.mp heq
    rwa [List.map_map] at this
  · rintro - - p ⟨key, r, hwalk⟩
    refine ⟨fun hone hzero => by omega, fun hzero => ?_⟩
    cases hwalk with
    | @seed r ref hseed hentity =>
      obtain ⟨kv, hkv, hid⟩ := h.found r.id hseed.chosen
      obtain ⟨hseed', hentity'⟩ := h.sound kv hkv
      obtain rfl : kv.2 = r := hseed'.canonical.eq_of_id hseed.canonical hid
      rw [hentity] at hentity'
      exact List.mem_map.mpr ⟨kv, hkv, by rw [Except.ok.inj hentity']⟩
    | move =>
      rw [length_extend] at hzero
      cases hzero

end Seeds

/-! ### The whole search -/

section Search

variable {t : RelationTraversal py} {policy : TraversalPolicy} {ids : List Uuid}

/-- A search finds the walks from its seeds. -/
theorem search_triple (at' : Instant) (hknowledge : t.scrollKnowledge.Lawful (knowledgeSchema py))
    (hepisodes : t.scrollEpisodes.Lawful episodeSchema)
    (hsha : Set.InjOn py.sha256 (entityTexts t.store)) (hids : ids.length ≤ policy.maxNodes) :
    Triple (fun s => s = {}) (t.search policy at' ids)
      (fun _ s => ∃ scope, SharedBy t.store ids scope ∧ Finished t.store policy at' scope ids s)
      (fun e s => (s.paths = [] ∧ Budget policy s ∧ e ≠ .limit "depth") ∨
        ∃ scope, SharedBy t.store ids scope ∧ Interrupted t.store policy at' scope ids e s) := by
  have hcut (e : Interruption) (s : TraversalState) (h : Cut policy.maxStorageCalls {} e s) :
      s.paths = [] ∧ Budget policy s ∧ e ≠ .limit "depth" :=
    ⟨h.paths, ⟨h.used, by simp [h.nodes], by simp [h.edgeIds], by simp [h.paths]⟩, h.not_depth⟩
  unfold RelationTraversal.search
  refine Triple.bind (fun _ => Kept policy.maxStorageCalls {}) ?_ fun _ => ?_
  · refine (requireReady_triple.pre ?_).post (fun _ _ => id) fun e s h => .inl (hcut e s h)
    rintro s rfl
    exact ⟨Nat.zero_le _, rfl, rfl, rfl, rfl⟩
  refine Triple.bind _ ((readSeeds_triple hknowledge).post (fun _ _ => id)
    fun e s h => .inl (hcut e s h)) fun out => ?_
  obtain ⟨seeds, scope⟩ := out
  refine Triple.bind (fun _ s => Searched t.store policy at' scope ids 0 (seeds.map seedPath) s ∧
    SharedBy t.store ids scope ∧ ∃ caller, t.bound = some caller ∧ Seen caller scope) ?_ fun _ => ?_
  · rintro s ⟨hs, hseeds, hseen⟩
    exact ⟨hseeds.searched hids hs, hseeds.shared, hseen⟩
  · refine Triple.of_forall ?_
    rintro s ⟨hs, hshared, caller, hcaller, hseen⟩
    have hlevels : Triple (Searched t.store policy at' scope ids 0 (seeds.map seedPath))
        (t.searchLevels policy at' scope policy.depth (seeds.map seedPath))
        (fun _ => Finished t.store policy at' scope ids)
        (Interrupted t.store policy at' scope ids) :=
      searchLevels_triple hknowledge hepisodes hsha hcaller hseen policy.depth (Nat.zero_add _)
        fun hzero => absurd policy.depth_bounds.1 (by omega)
    refine (hlevels.pre fun u (hu : u = s) => hu ▸ hs).post (fun _ u hu => ?_) fun e u hu => ?_
    · exact ⟨scope, hshared, hu⟩
    · exact .inr ⟨scope, hshared, hu⟩

end Search

end CyberBrain.Relations
