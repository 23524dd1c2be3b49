import CyberBrain.Relations.Search

/-!
# Soundness of traversal

Every path that `traverse` returns is a walk, however its search ends. The heads that it goes by are
those among the versions whose stored projections name their entity.
-/

namespace CyberBrain.Relations

open Program Python Schemas Tenancy RelationTraversal

variable {py : Runtime} {t : RelationTraversal py} {policy : TraversalPolicy} {at' : Instant}
  {scope : RelationScope py} {seedIds : List Uuid} {result : TraversalResult}

/-! ### The calls -/

lemma seed_sortIds {store : RelationStore py} :
    Seed store scope (sortIds seedIds) = Seed store scope seedIds := by
  funext r
  refine propext ⟨fun h => ⟨h.canonical, Level.mem_sortIds.mp h.chosen, h.partition⟩, fun h => ?_⟩
  exact ⟨h.canonical, Level.mem_sortIds.mpr h.chosen, h.partition⟩

lemma sharedBy_sortIds {store : RelationStore py} :
    SharedBy store (sortIds seedIds) scope ↔ SharedBy store seedIds scope := by
  simp only [SharedBy, seed_sortIds, Level.mem_sortIds]

lemma length_sortIds_le : (sortIds seedIds).length ≤ seedIds.length := by
  rw [sortIds, List.length_insertionSort]
  exact (List.dedup_sublist seedIds).length_le

/-- How a call that returns has searched. -/
theorem traverse_eq_ok (hknowledge : t.scrollKnowledge.Lawful (knowledgeSchema py))
    (hepisodes : t.scrollEpisodes.Lawful episodeSchema)
    (hsha : Set.InjOn py.sha256 (entityTexts t.store))
    (h : t.traverse seedIds policy = .ok result) : ∃ at', evaluationTime t.now policy.asOf = .ok at' ∧
      ∃ s, result = RelationTraversal.result policy at' s ∧
        ((∃ scope, SharedBy t.store seedIds scope ∧
            Finished t.store policy at' scope (sortIds seedIds) s) ∨
          ∃ reason u, reason ≠ "depth" ∧ s = addReason reason u ∧
            (u.paths = [] ∧ Budget policy u ∨ ∃ scope, SharedBy t.store seedIds scope ∧
              Found t.store policy at' scope (sortIds seedIds) u)) := by
  obtain ⟨_, hcount, h⟩ := bind_eq_ok.mp h
  obtain ⟨at', htime, h⟩ := bind_eq_ok.mp h
  rw [require_eq_ok] at hcount
  have hsearch := search_triple at' hknowledge hepisodes hsha
    (length_sortIds_le.trans hcount.2) {} rfl
  refine ⟨at', htime, ?_⟩
  rcases hrun : t.search policy at' (sortIds seedIds) {} with ⟨e | _, s⟩ <;>
    rw [hrun] at h hsearch
  · cases e with
    | raised e => cases h
    | limit reason =>
      cases h
      refine ⟨_, rfl, .inr ⟨reason, s, ?_⟩⟩
      rcases hsearch with ⟨hpaths, hbudget, hdepth⟩ | ⟨scope, hshared, hfound⟩
      · exact ⟨fun heq => hdepth (by rw [heq]), rfl, .inl ⟨hpaths, hbudget⟩⟩
      · exact ⟨fun heq => hfound.not_depth (by rw [heq]), rfl,
          .inr ⟨scope, sharedBy_sortIds.mp hshared, hfound.toFound⟩⟩
  · cases h
    obtain ⟨scope, hshared, hfinished⟩ := hsearch
    exact ⟨s, rfl, .inl ⟨scope, sharedBy_sortIds.mp hshared, hfinished⟩⟩

/-! ### Soundness -/

/-- Where projections are correct, all versions of an entity are named. -/
lemma namedVersion_eq {store : RelationStore py} (h : Verified store) :
    NamedVersion store at' = Version store at' := by
  funext key r
  refine propext ⟨And.left, fun hversion => ⟨hversion, ?_⟩⟩
  obtain ⟨ref, hentity, rfl⟩ := hversion.entity
  exact (owner_of_verifies (h r hversion.canonical) hentity).1

lemma budget_addReason {s : TraversalState} {reason : String} (h : Budget policy s) :
    Budget policy (addReason reason s) :=
  ⟨h.used, h.nodes, h.edges, h.paths⟩

variable (t policy at' scope seedIds) in
/-- A path of the search: a walk from one of the seeds over pairwise different entities. -/
structure SoundPath (p : TraversalPath) : Prop where
  steps : 1 ≤ p.steps.length ∧ p.steps.length ≤ policy.depth
  simple : p.nodeKeys.Nodup
  walk : ∃ key r, Walk t.store policy at' scope (NamedVersion t.store at')
    (Seed t.store scope seedIds) p key r
  verified : Verified t.store → ∃ key r, Walk t.store policy at' scope (Version t.store at')
    (Seed t.store scope seedIds) p key r

/-- What `traverse` returns is sound and within its budgets. -/
theorem traverse_sound (hknowledge : t.scrollKnowledge.Lawful (knowledgeSchema py))
    (hepisodes : t.scrollEpisodes.Lawful episodeSchema)
    (hsha : Set.InjOn py.sha256 (entityTexts t.store))
    (h : t.traverse seedIds policy = .ok result) :
    evaluationTime t.now policy.asOf = .ok result.evaluatedAt ∧
      (∀ p ∈ result.paths, ∃ scope, SharedBy t.store seedIds scope ∧
        SoundPath t policy result.evaluatedAt scope seedIds p) ∧
      result.nodeCount ≤ policy.maxNodes ∧ result.edgeCount ≤ policy.maxEdges ∧
      result.paths.length ≤ policy.maxPaths ∧ result.storageCalls ≤ policy.maxStorageCalls := by
  obtain ⟨at', htime, s, rfl, hsearch⟩ := traverse_eq_ok hknowledge hepisodes hsha h
  have hsound {scope : RelationScope py} {s : TraversalState}
      (hfound : Found t.store policy at' scope (sortIds seedIds) s) :
      ∀ p ∈ s.paths, SoundPath t policy at' scope seedIds p := by
    intro p hp
    obtain ⟨⟨key, r, hwalk⟩, hone, hdepth⟩ := hfound.sound p hp
    rw [Walked, seed_sortIds] at hwalk
    exact ⟨⟨hone, hdepth⟩, hwalk.nodup, ⟨key, r, hwalk⟩,
      fun hverified => ⟨key, r, namedVersion_eq hverified ▸ hwalk⟩⟩
  suffices hfound : (∀ p ∈ s.paths, ∃ scope, SharedBy t.store seedIds scope ∧
      SoundPath t policy at' scope seedIds p) ∧ Budget policy s from
    ⟨htime, hfound.1, hfound.2.nodes, hfound.2.edges, hfound.2.paths, hfound.2.used⟩
  rcases hsearch with ⟨scope, hshared, hfinished⟩ | ⟨reason, u, -, rfl, hrest⟩
  · exact ⟨fun p hp => ⟨scope, hshared, hsound hfinished.toFound p hp⟩, hfinished.budget⟩
  · rcases hrest with ⟨hpaths, hbudget⟩ | ⟨scope, hshared, hfound⟩
    · refine ⟨fun p hp => ?_, budget_addReason hbudget⟩
      have hnil : (addReason reason u).paths = [] := hpaths
      rw [hnil] at hp
      cases hp
    · exact ⟨fun p hp => ⟨scope, hshared, hsound hfound p hp⟩, budget_addReason hfound.budget⟩

/-! ### Two small stores -/

section Samples

/-- A repository that answers a query from its start. -/
def firstPage {ρ : Type} (schema : RecordSchema ρ) : RelationScroll ρ := fun points q limit =>
  ((points.rows.filter fun p => q.matches schema p).take limit,
    limit < (points.rows.filter fun p => q.matches schema p).length)

lemma firstPage_lawful {ρ : Type} (schema : RecordSchema ρ) :
    (firstPage schema).Lawful schema := by
  refine ⟨fun points q limit => ?_, fun points q limit p hp => ?_, fun points q limit hmore p hp hq => ?_⟩
  · exact (points.nodup_rows.filter _).sublist (List.take_sublist _ _)
  · obtain ⟨hrow, hmatch⟩ := List.mem_filter.mp (List.mem_of_mem_take hp)
    exact ⟨hrow, of_decide_eq_true hmatch⟩
  · have hlength := of_decide_eq_false hmore
    rw [firstPage, List.take_of_length_le (not_lt.mp hlength)]
    exact List.mem_filter.mpr ⟨hp, decide_eq_true hq⟩

/-- A runtime that digests a text to its size. -/
def sizes : Runtime := { Runtime.ascii with sha256 := fun s => toString s.utf8ByteSize }

lemma ownerOperations_nonempty : ({OperationClass.read} : Finset OperationClass).Nonempty :=
  Finset.singleton_nonempty OperationClass.read

/-- A caller who may read everything of the deployment. -/
def owner : CallerAuthority sizes where
  deploymentMode := .singleOwner
  grant :=
    { scope := .unrestricted
      operations := {.read}
      operations_nonempty := ownerOperations_nonempty }

def labelsOf (name : String) : EntityLabels := ⟨"d", "t", "e", name⟩

/-- The entity of a name. -/
def entityNamed (name : String) (h : (EntityRef.make sizes (labelsOf name) [] {}).toOption.isSome) :
    EntityRef sizes :=
  (EntityRef.make sizes (labelsOf name) [] {}).toOption.get h

lemma make_entityNamed {name : String}
    (h : (EntityRef.make sizes (labelsOf name) [] {}).toOption.isSome) :
    EntityRef.make sizes (labelsOf name) [] {} = .ok (entityNamed name h) :=
  toOption_eq_some.mp (Option.some_get h).symm

def entityA : EntityRef sizes := entityNamed "a" (by decide)

def entityB : EntityRef sizes := entityNamed "bb" (by decide)

lemma entity_keys : entityA.key = "157" ∧ entityB.key = "158" := by decide +kernel

lemma entityA_key : entityA.key = "157" := entity_keys.1

lemma entityB_key : entityB.key = "158" := entity_keys.2

/-- An edge from one entity to the other, whose record is its evidence. -/
def edgeAB : RelationEdge sizes where
  kind := .dependsOn
  source := entityA
  target := entityB
  targetRecordId := .ofNat 3
  evidence := FrozenSet.ofList [⟨.knowledge, .ofNat 3⟩]
  status := .accepted
  validFrom := .ofMicros 0
  validUntil := none
  reviewNote := some "seen"
  not_self := by rw [entityA_key, entityB_key]; decide
  same_partition := by decide
  follows := by simp
  reviewed_note := fun _ => ⟨"seen", rfl, by decide⟩

def bundleAB : RelationBundle sizes := ⟨[edgeAB], List.pairwise_singleton _ _⟩

/-- A version of the entity of that name. -/
def sampleVersion (id : ℕ) (name : String) (version : ℕ) (status : KnowledgeStatus)
    (extensions : Extensions sizes) : KnowledgeRecord sizes where
  toEntityLabels := labelsOf name
  toIdentityValues := {}
  id := .ofNat id
  content := name
  summary := none
  recordClass := .knowledge
  identityTrust := .unspecified
  version
  status
  supersedesId := none
  changeReason := none
  importance := none
  verification := .unverified
  confidence := none
  provenanceType := none
  source := none
  evidenceIds := []
  origin := .manual
  dreamRunId := none
  negativeKnowledge := false
  contentHash := ""
  embeddingVersion := none
  ordinaryRecall := true
  retentionDirective := .default
  context := []
  extensions
  createdAt := .ofMicros 0
  updatedAt := .ofMicros 0

/-- The version that asserts the edge. -/
def versionA : KnowledgeRecord sizes := sampleVersion 1 "a" 1 .superseded
  { relations := some bundleAB
    relationIndex := some (.eligible "157" (FrozenSet.ofList ["158"]) bundleAB.digest) }

/-- The head of the other entity. -/
def versionB : KnowledgeRecord sizes := sampleVersion 3 "bb" 1 .active
  { relationIndex := some (.eligible "158" (FrozenSet.ofList []) (RelationBundle.empty sizes).digest) }

/-- The next version of the first entity, whose projection does not name it. -/
def nextA : KnowledgeRecord sizes :=
  sampleVersion 2 "a" 2 .active { relationIndex := some .ineligible }

def pointOf (r : KnowledgeRecord sizes) : RelationPoint (KnowledgeRecord sizes) := ⟨r.id, .dump r⟩

/-- A traversal over the two versions and others. -/
def sampleTraversal (others : List (KnowledgeRecord sizes))
    (h : ((versionA :: others ++ [versionB]).map (·.id)).Nodup) : RelationTraversal sizes where
  store :=
    { knowledge := ⟨(versionA :: others ++ [versionB]).map pointOf, by rwa [List.map_map]⟩
      episodes := Table.empty _ }
  scrollKnowledge := firstPage (knowledgeSchema _)
  scrollEpisodes := firstPage episodeSchema
  bound := some owner
  now := .ofMicros 1

lemma entityOf_versionA : entityOf versionA = .ok entityA := make_entityNamed _

lemma entityOf_versionB : entityOf versionB = .ok entityB := make_entityNamed _

lemma versionA_verifies : verifyProjection versionA = .ok () := by
  suffices hproject : projectRecord versionA =
      .ok (.eligible "157" (FrozenSet.ofList ["158"]) bundleAB.digest) from
    verifyProjection_eq_ok hproject rfl
  have hmake : EntityRef.make sizes versionA.toEntityLabels versionA.context
      versionA.toIdentityValues = .ok entityA := entityOf_versionA
  have hbundle : versionA.bundle = bundleAB := rfl
  have htargets : targetKeys bundleAB = FrozenSet.ofList ["158"] := by
    simp [targetKeys, bundleAB, edgeAB, entityB_key]
  simp only [projectRecord, projectRelations, hmake, hbundle, htargets, entityA_key]
  rw [if_neg]
  simp [bundleAB, edgeAB, entityA_key]

lemma versionB_verifies : verifyProjection versionB = .ok () := by
  suffices hproject : projectRecord versionB =
      .ok (.eligible "158" (FrozenSet.ofList []) (RelationBundle.empty sizes).digest) from
    verifyProjection_eq_ok hproject rfl
  have hmake : EntityRef.make sizes versionB.toEntityLabels versionB.context
      versionB.toIdentityValues = .ok entityB := entityOf_versionB
  have hbundle : versionB.bundle = .empty sizes := rfl
  simp only [projectRecord, projectRelations, hmake, hbundle, entityB_key]
  rw [if_neg (by simp [RelationBundle.empty])]
  rfl

lemma nodes_within : 1 ≤ 32 ∧ 32 ≤ 128 := by decide

lemma edges_within : 1 ≤ 64 ∧ 64 ≤ 256 := by decide

/-- A policy that looks one step into the past. -/
def pastPolicy : TraversalPolicy where
  depth := 1
  asOf := some (.ofMicros 1)
  depth_bounds := by decide
  nodes_bounds := nodes_within
  edges_bounds := edges_within
  paths_bounds := by decide
  calls_bounds := by decide

/-- The record is in no answer of the sample. -/
def Unread (r : KnowledgeRecord sizes) : Prop :=
  ∀ q ∈ [{ must := knowledgeFilter
           mustNot := [.field (.matchValue (indexPrefix ++ ".schema_version") (.int 1))] },
    seedsQuery pastPolicy (.ofMicros 1) [.ofNat 1],
    ownersQuery pastPolicy (.ofMicros 1) entityA.scope ["157"],
    recordsQuery (.ofMicros 1) entityA.scope ["157", "158"] [.ofNat 3]],
    ¬ (q.within (grantFilter owner)).matches (knowledgeSchema _) (pointOf r)

instance (r : KnowledgeRecord sizes) : Decidable (Unread r) :=
  inferInstanceAs (Decidable (∀ q ∈ _, _))

lemma nextA_unread : Unread nextA := by decide

section Run

variable {others : List (KnowledgeRecord sizes)}
  {h : ((versionA :: others ++ [versionB]).map (·.id)).Nodup}

lemma sample_conditions (episode : Bool) : conditions (sampleTraversal others h).bound
    (sampleTraversal others h).background episode = .ok (grantFilter owner) := by
  have hsome : (conditions (some owner) false episode).toOption.isSome = true := by
    cases episode <;> decide
  obtain ⟨f, hf⟩ := Option.isSome_iff_exists.mp hsome
  obtain ⟨caller, hcaller, rfl⟩ := conditions_eq_ok (toOption_eq_some.mp hf)
  cases hcaller
  exact toOption_eq_some.mp hf

/-- A read of the sample answers from the two versions. -/
lemma sample_read (q : Query) (limit : ℕ) (complete : Bool) {s : TraversalState}
    (page : List (RelationPoint (KnowledgeRecord sizes))) (hused : s.used < 8)
    (hothers : ∀ r ∈ others, ¬ (q.within (grantFilter owner)).matches (knowledgeSchema _) (pointOf r))
    (hpage : ([pointOf versionA, pointOf versionB].filter fun p =>
      (q.within (grantFilter owner)).matches (knowledgeSchema _) p) = page)
    (hlimit : page.length ≤ limit) :
    (sampleTraversal others h).readKnowledge 8 q limit complete s =
      (.ok page, { s with used := s.used + 1 }) := by
  have hrows : ((sampleTraversal others h).store.knowledge.rows.filter fun p =>
      (q.within (grantFilter owner)).matches (knowledgeSchema _) p) = page := by
    have hnone : ((others.map pointOf).filter fun p =>
        (q.within (grantFilter owner)).matches (knowledgeSchema _) p) = [] := by
      simpa [List.filter_eq_nil_iff] using hothers
    have happend : (sampleTraversal others h).store.knowledge.rows =
        [pointOf versionA] ++ (others.map pointOf ++ [pointOf versionB]) := by
      simp [sampleTraversal]
    rw [happend, List.filter_append, List.filter_append, hnone, List.nil_append,
      ← List.filter_append]
    exact hpage
  have hscroll : (sampleTraversal others h).scrollKnowledge (sampleTraversal others h).store.knowledge
      (q.within (grantFilter owner)) limit = (page, false) := by
    change firstPage _ _ _ _ = _
    rw [firstPage, hrows, List.take_of_length_le hlimit, decide_eq_false (not_lt.mpr hlimit)]
  unfold RelationTraversal.readKnowledge RelationTraversal.read
  rw [sample_conditions]
  refine (bind_apply_of_ok (x := checked _) rfl).trans ?_
  refine (bind_apply_of_ok (t := { s with used := s.used + 1 }) (a := ()) ?_).trans ?_
  · rw [RelationTraversal.charge, if_neg (not_le.mpr hused)]
  · rw [hscroll]
    simp only [Bool.false_eq_true, and_false, if_false]
    rfl

/-- The step from one entity to the other. -/
def stepAB : Transition := ⟨"157", "158", versionB.id, stepAlong versionA edgeAB .outward⟩

def seedA : TraversalPath := ⟨["157"], [versionA.id], []⟩

def pathAB : TraversalPath := seedA.extend "158" versionB.id stepAB.step

lemma sample_claims : collectClaims pastPolicy (.ofMicros 1) ["157"] [pointOf versionA] =
    .ok [(versionA, edgeAB)] := by
  have hcanonical : canonical (knowledgeSchema sizes) (pointOf versionA) = .ok versionA :=
    canonical_eq_ok.mpr ⟨rfl, rfl⟩
  have hclaims : ownerClaims pastPolicy (.ofMicros 1) ["157"] versionA = [(versionA, edgeAB)] := by
    have hedges : versionA.bundle.edges = [edgeAB] := rfl
    have hsource : edgeAB.source.key = "157" := entityA_key
    have hvalid : edgeValid pastPolicy (.ofMicros 1) edgeAB := by decide
    have heligible : eligible (.ofMicros 1) versionA := by decide
    have hkey : edgeAB.source.key ∈ ["157"] := by simp [hsource]
    have hclaimed : edgeValid pastPolicy (.ofMicros 1) edgeAB ∧
        (edgeAB.source.key ∈ ["157"] ∧ followsOut pastPolicy edgeAB ∨
          edgeAB.target.key ∈ ["157"] ∧ followsIn pastPolicy edgeAB) :=
      ⟨hvalid, .inl ⟨hkey, .inl rfl⟩⟩
    rw [ownerClaims, if_pos heligible, hedges]
    rw [List.filter_cons, if_pos (decide_eq_true hclaimed), List.filter_nil, List.map_singleton]
  refine bind_eq_ok.mpr ⟨[[(versionA, edgeAB)]], ?_, rfl⟩
  rw [List.mapM_cons]
  refine bind_eq_ok.mpr ⟨[(versionA, edgeAB)], ?_, rfl⟩
  exact bind_eq_ok.mpr ⟨versionA, hcanonical,
    bind_eq_ok.mpr ⟨(), versionA_verifies, congrArg Except.ok hclaims⟩⟩

lemma sample_headKeys : headKeys ["157"] [(versionA, edgeAB)] = ["157", "158"] := by
  have hsource : edgeAB.source.key = "157" := entityA_key
  have htarget : edgeAB.target.key = "158" := entityB_key
  simp only [headKeys, List.flatMap_cons, List.flatMap_nil, hsource, htarget]
  decide

lemma sample_heads : headMap (.ofMicros 1) true [pointOf versionA, pointOf versionB] =
    .ok [("157", versionA), ("158", versionB)] := by
  have hA : headCandidate (.ofMicros 1) (pointOf versionA) = .ok (some ("157", versionA)) :=
    headCandidate_eq_ok.mpr ⟨canonical_eq_ok.mpr ⟨rfl, rfl⟩, versionA_verifies,
      ⟨entityA, entityOf_versionA, entityA_key⟩, by decide, rfl⟩
  have hB : headCandidate (.ofMicros 1) (pointOf versionB) = .ok (some ("158", versionB)) :=
    headCandidate_eq_ok.mpr ⟨canonical_eq_ok.mpr ⟨rfl, rfl⟩, versionB_verifies,
      ⟨entityB, entityOf_versionB, entityB_key⟩, by decide, rfl⟩
  simp only [headMap, List.mapM_cons, List.mapM_nil, hA, hB]
  rfl

lemma sample_transitions : claimTransitions pastPolicy (.ofMicros 1) entityA.scope
    [("157", versionA), ("158", versionB)] [versionA, versionB] [] (versionA, edgeAB) =
    [stepAB] := by
  have hsource : edgeAB.source.key = "157" := entityA_key
  have htarget : edgeAB.target.key = "158" := entityB_key
  have hfirst : ([("157", versionA), ("158", versionB)] : List (String × KnowledgeRecord sizes)).lookup
      (versionA, edgeAB).2.source.key = some versionA := by
    rw [hsource]
    rfl
  have hsecond : ([("157", versionA), ("158", versionB)] : List (String × KnowledgeRecord sizes)).lookup
      (versionA, edgeAB).2.target.key = some versionB := by
    rw [htarget]
    rfl
  have hin : ¬ followsIn pastPolicy edgeAB := by decide
  rw [claimTransitions, hfirst, hsecond]
  refine (if_pos (by decide)).trans ?_
  rw [edgeTransitions, hsource, htarget, if_pos (.inl rfl), if_neg hin]
  rfl

lemma sample_longer : longerPaths (.ofMicros 1) [("157", versionA), ("158", versionB)] [stepAB]
    seedA = [(pathAB, stepAB)] := by
  have hlast : seedA.lastKey = "157" := rfl
  have hlookup : ([("157", versionA), ("158", versionB)] : List (String × KnowledgeRecord sizes)).lookup
      "157" = some versionA := rfl
  have hordered : orderedTransitions [stepAB] "157" = [stepAB] := rfl
  have hnew : "158" ∉ seedA.nodeKeys := by decide
  simp only [longerPaths, hlast, hlookup, hordered]
  rw [if_pos ⟨rfl, by decide⟩, List.filter_cons_of_pos
    (p := fun tr : Transition => tr.finish ∉ seedA.nodeKeys) (decide_eq_true hnew)]
  rfl

lemma filter_pair {α : Type*} {P : α → Bool} {a b : α} {l : List α}
    (h : (if P a then a :: if P b then [b] else [] else if P b then [b] else []) = l) :
    [a, b].filter P = l := by
  rw [← h]
  cases ha : P a <;> cases hb : P b <;> simp [ha, hb]

/-- The reads of the level that starts at the first entity. -/
lemma sample_level (hothers : ∀ r ∈ others, Unread r) {s : TraversalState} (hused : s.used < 7) :
    (sampleTraversal others h).candidatePaths pastPolicy (.ofMicros 1) entityA.scope [seedA] s =
      (.ok [(pathAB, stepAB)], { s with used := s.used + 2 }) := by
  have hkeys : (FrozenSet.ofList ([seedA].map (·.lastKey))).sorted = ["157"] := by decide
  have howners := sample_read (h := h) (s := s)
    (ownersQuery pastPolicy (.ofMicros 1) entityA.scope ["157"]) 256 true [pointOf versionA]
    (by omega) (fun r hr => hothers r hr _ (by simp))
    (filter_pair (by rw [if_pos (by decide), if_neg (by decide)])) (by simp)
  have hrecords := sample_read (h := h) (s := { s with used := s.used + 1 })
    (recordsQuery (.ofMicros 1) entityA.scope ["157", "158"] [.ofNat 3]) 256 true
    [pointOf versionA, pointOf versionB] (by dsimp only; omega)
    (fun r hr => hothers r hr _ (by simp))
    (filter_pair (by rw [if_pos (by decide), if_pos (by decide)])) (by simp)
  have hproofs : proofIds .knowledge [(versionA, edgeAB)] = [.ofNat 3] := by decide
  have hepisodes : proofIds .episode [(versionA, edgeAB)] = [] := by decide
  have hnamed : namedPoints ["157", "158"] [pointOf versionA, pointOf versionB] =
      [pointOf versionA, pointOf versionB] :=
    filter_pair (by rw [if_pos (by decide), if_pos (by decide)])
  unfold RelationTraversal.candidatePaths
  dsimp only
  rw [hkeys]
  refine (bind_apply_of_ok howners).trans ?_
  rw [sample_claims]
  refine (bind_apply_of_ok (x := checked _) (a := [(versionA, edgeAB)]) rfl).trans ?_
  rw [sample_headKeys, hproofs, hepisodes]
  refine (bind_apply_of_ok hrecords).trans ?_
  have hcanonical : [pointOf versionA, pointOf versionB].mapM (canonical (knowledgeSchema sizes)) =
      .ok [versionA, versionB] := rfl
  rw [hcanonical, hnamed]
  refine (bind_apply_of_ok (x := checked _) (a := [versionA, versionB]) rfl).trans ?_
  have hheads : headMap (.ofMicros 1) pastPolicy.asOf.isSome [pointOf versionA, pointOf versionB] =
      .ok [("157", versionA), ("158", versionB)] := sample_heads
  rw [hheads]
  refine (bind_apply_of_ok (x := checked _) (a := [("157", versionA), ("158", versionB)])
    rfl).trans ?_
  refine (bind_apply_of_ok (a := []) (t := { s with used := s.used + 2 }) rfl).trans ?_
  refine (bind_apply_of_ok (x := checked _) (a := []) rfl).trans ?_
  rw [List.flatMap_singleton, List.flatMap_singleton, sample_transitions, sample_longer]
  rfl

/-- The seed of the sample. -/
lemma sample_seeds (hothers : ∀ r ∈ others, Unread r) {s : TraversalState} (hused : s.used < 8) :
    (sampleTraversal others h).readSeeds pastPolicy (.ofMicros 1) [.ofNat 1] s =
      (.ok ([(entityA, versionA)], entityA.scope), { s with used := s.used + 1 }) := by
  have hread := sample_read (h := h) (s := s) (seedsQuery pastPolicy (.ofMicros 1) [.ofNat 1])
    256 true [pointOf versionA] hused
    (fun r hr => hothers r hr _ (by simp))
    (filter_pair (by rw [if_pos (by decide), if_neg (by decide)])) (by simp)
  have hcanonical : [pointOf versionA].mapM (canonical (knowledgeSchema sizes)) =
      .ok [versionA] := rfl
  have hentities : [versionA].mapM entityOf = .ok [entityA] := by
    rw [List.mapM_cons, entityOf_versionA]
    rfl
  have hverified : forM [versionA] verifyProjection = (.ok () : Except Exc Unit) :=
    forM_eq_ok.mpr (by simp [versionA_verifies])
  unfold RelationTraversal.readSeeds
  refine (bind_apply_of_ok hread).trans ?_
  rw [hcanonical]
  refine (bind_apply_of_ok (x := checked _) (a := [versionA]) rfl).trans ?_
  rw [require, if_pos (by decide)]
  refine (bind_apply_of_ok (x := checked _) (a := ()) rfl).trans ?_
  rw [hentities]
  refine (bind_apply_of_ok (x := checked _) (a := [entityA]) rfl).trans ?_
  refine (bind_apply_of_ok (x := checked _) (a := entityA.scope) rfl).trans ?_
  rw [hverified]
  rfl

/-- What the sample finds. -/
def foundAB : TraversalState where
  used := 4
  paths := [pathAB]
  nodes := ["158", "157"]
  edgeIds := [edgeAB.relationId]
  reasons := ["depth"]

/-- The traversal of the sample returns the step from one entity to the other. -/
theorem sample_traverse (hothers : ∀ r ∈ others, Unread r) :
    (sampleTraversal others h).traverse [.ofNat 1] pastPolicy =
      .ok (RelationTraversal.result pastPolicy (.ofMicros 1) foundAB) := by
  have hready : (sampleTraversal others h).requireReady 8 {} = (.ok (), { used := 1 }) := by
    have hread := sample_read (h := h) (s := {})
      { must := knowledgeFilter
        mustNot := [.field (.matchValue (indexPrefix ++ ".schema_version") (.int 1))] } 1 false []
      (by decide) (fun r hr => hothers r hr _ (by simp))
      (filter_pair (by rw [if_neg (by decide), if_neg (by decide)])) (by simp)
    unfold RelationTraversal.requireReady
    rw [sample_conditions]
    refine (bind_apply_of_ok (x := checked _) (a := grantFilter owner) rfl).trans ?_
    refine (bind_apply_of_ok (x := checked _) (a := ()) rfl).trans ?_
    refine (bind_apply_of_ok hread).trans ?_
    rfl
  have hsearch : (sampleTraversal others h).search pastPolicy (.ofMicros 1) [.ofNat 1] {} =
      (.ok (), foundAB) := by
    unfold RelationTraversal.search
    refine (bind_apply_of_ok hready).trans ?_
    refine (bind_apply_of_ok (sample_seeds hothers (by decide))).trans ?_
    refine (bind_apply_of_ok (x := update _) rfl).trans ?_
    have hseed : [(entityA, versionA)].map seedPath = [seedA] := by
      simp [seedPath, seedA, entityA_key]
    rw [hseed]
    change (sampleTraversal others h).searchLevels _ _ _ 1 _ _ = _
    unfold RelationTraversal.searchLevels
    rw [if_neg (List.cons_ne_nil _ _)]
    refine (bind_apply_of_ok (sample_level hothers (by decide))).trans ?_
    have hdedup : ["157"].dedup = ["157"] := by decide
    rw [List.map_singleton, entityA_key, hdedup]
    rfl
  have hids : sortIds [.ofNat 1] = [.ofNat 1] := rfl
  have htime : evaluationTime (sampleTraversal others h).now pastPolicy.asOf = .ok (.ofMicros 1) :=
    rfl
  rw [RelationTraversal.traverse]
  refine bind_eq_ok.mpr ⟨(), if_pos (by decide), bind_eq_ok.mpr ⟨_, htime, ?_⟩⟩
  rw [hids, hsearch]
  rfl

end Run

section Stores

variable {others : List (KnowledgeRecord sizes)}
  {h : ((versionA :: others ++ [versionB]).map (·.id)).Nodup} {r : KnowledgeRecord sizes}

lemma canonical_sample : Canonical (sampleTraversal others h).store r ↔
    r ∈ versionA :: others ++ [versionB] ∧ r.recordClass = .knowledge := by
  constructor
  · rintro ⟨⟨p, hp, hr⟩, hclass⟩
    obtain ⟨v, hv, rfl⟩ := List.mem_map.mp hp
    obtain rfl := Except.ok.inj ((canonical_eq_ok.mpr ⟨rfl, rfl⟩ : canonical _ (pointOf v) =
      .ok v).symm.trans hr)
    exact ⟨hv, hclass⟩
  · rintro ⟨hr, hclass⟩
    exact ⟨⟨pointOf r, List.mem_map_of_mem hr, canonical_eq_ok.mpr ⟨rfl, rfl⟩⟩, hclass⟩

/-- Where the other records are about the two entities and have no edges, the digests of the sample
are different. -/
lemma sizes_injOn (hothers : ∀ r ∈ others, entityOf r ∈ [.ok entityA, .ok entityB] ∧
    r.bundle.edges = []) :
    Set.InjOn sizes.sha256 (entityTexts (sampleTraversal others h).store) := by
  have hmentioned {e : EntityRef sizes} (he : Mentioned (sampleTraversal others h).store e) :
      e = entityA ∨ e = entityB := by
    obtain ⟨r, hr, he⟩ := he
    have hrecord := (canonical_sample.mp hr).1
    rw [List.cons_append, List.mem_cons, List.mem_append, List.mem_singleton] at hrecord
    rcases hrecord with rfl | hr | rfl
    · rcases he with he | ⟨edge, hedge, he⟩
      · exact .inl (Except.ok.inj (he.symm.trans entityOf_versionA))
      · obtain rfl : edge = edgeAB := List.mem_singleton.mp hedge
        exact he
    · obtain ⟨hentity, hedges⟩ := hothers r hr
      rcases he with he | ⟨edge, hedge, he⟩
      · rw [he] at hentity
        simpa using hentity
      · rw [hedges] at hedge
        cases hedge
    · rcases he with he | ⟨edge, hedge, he⟩
      · exact .inr (Except.ok.inj (he.symm.trans entityOf_versionB))
      · cases hedge
  have hne : entityA.key ≠ entityB.key := by
    rw [entityA_key, entityB_key]
    decide
  rintro _ ⟨e, he, rfl⟩ _ ⟨f, hf, rfl⟩ hkey
  rcases hmentioned he with rfl | rfl <;> rcases hmentioned hf with rfl | rfl
  · rfl
  · exact absurd hkey hne
  · exact absurd hkey.symm hne
  · rfl

end Stores

/-- A traversal of the past follows the edge of a version that is not the head, when the projection
of the head does not name its entity. -/
def misprojected : RelationTraversal sizes := sampleTraversal [nextA] (by decide)

theorem replaced_version_followed : ∃ result p,
    misprojected.traverse [.ofNat 1] pastPolicy = .ok result ∧ p ∈ result.paths ∧
      ∀ scope key r, ¬ Walk misprojected.store pastPolicy result.evaluatedAt scope
        (Version misprojected.store result.evaluatedAt)
        (Seed misprojected.store scope [.ofNat 1]) p key r := by
  refine ⟨_, pathAB, sample_traverse (by simpa using nextA_unread), List.mem_singleton_self _, ?_⟩
  intro scope key r hwalk
  have hrow {v : KnowledgeRecord sizes} (hv : v ∈ [versionA, nextA, versionB])
      (hclass : v.recordClass = .knowledge) : Canonical misprojected.store v :=
    canonical_sample.mpr ⟨hv, hclass⟩
  generalize hpath : pathAB = path at hwalk
  cases hwalk with
  | seed => exact absurd (congrArg (fun p => p.steps.length) hpath) Nat.one_ne_zero
  | @move q key _ r r' step hwalk hmove hnew =>
    -- the step is owned by the first version
    have hid : r.id = versionA.id := by
      have hlast := hwalk.last.2
      rw [← (extend_inj hpath).1] at hlast
      exact (Option.some.inj hlast).symm
    obtain ⟨hhead, -⟩ := hmove.heads.1
    obtain rfl : r = versionA := hhead.version.canonical.eq_of_id (hrow (by simp) rfl) hid
    have hentity : entityOf nextA = .ok entityA := make_entityNamed _
    have hkey := hhead.version.entity
    rw [entityOf_versionA, ← hentity] at hkey
    have hnext : Version misprojected.store (.ofMicros 1) key nextA :=
      ⟨hrow (by simp) rfl, hkey, by decide, rfl⟩
    exact absurd (hhead.latest rfl _ hnext) (by decide)

theorem traverse_sound_misprojected : ∃ scope,
    SharedBy misprojected.store [.ofNat 1] scope ∧
      SoundPath misprojected pastPolicy (.ofMicros 1) scope [.ofNat 1] pathAB :=
  have hentity : entityOf nextA = .ok entityA := make_entityNamed _
  (traverse_sound (firstPage_lawful _) (firstPage_lawful _)
    (sizes_injOn (by simp [hentity]; rfl)) (sample_traverse (by simpa using nextA_unread))).2.1
      pathAB (List.mem_singleton_self _)

end Samples

/-! ### Completeness -/

/-- Where projections are correct and no reason but the depth is given, `traverse` returns every
walk of up to `depth` steps, each once; where no reason is given, there are no longer ones. -/
theorem traverse_complete (hknowledge : t.scrollKnowledge.Lawful (knowledgeSchema py))
    (hepisodes : t.scrollEpisodes.Lawful episodeSchema)
    (hsha : Set.InjOn py.sha256 (entityTexts t.store)) (hverified : Verified t.store)
    (h : t.traverse seedIds policy = .ok result)
    (hreasons : ∀ reason ∈ result.truncationReasons, reason = "depth") :
    evaluationTime t.now policy.asOf = .ok result.evaluatedAt ∧
      ∃ scope, SharedBy t.store seedIds scope ∧ result.paths.Nodup ∧
        (∀ p key r, Walk t.store policy result.evaluatedAt scope (Version t.store result.evaluatedAt)
            (Seed t.store scope seedIds) p key r →
          1 ≤ p.steps.length → p.steps.length ≤ policy.depth → p ∈ result.paths) ∧
        (result.truncationReasons = [] → ∀ p key r,
          Walk t.store policy result.evaluatedAt scope (Version t.store result.evaluatedAt)
            (Seed t.store scope seedIds) p key r → p.steps.length ≤ policy.depth) := by
  obtain ⟨at', htime, s, rfl, hsearch⟩ := traverse_eq_ok hknowledge hepisodes hsha h
  refine ⟨htime, ?_⟩
  have hmem (reason : String) : reason ∈ (RelationTraversal.result policy at' s).truncationReasons ↔
      reason ∈ s.reasons := List.mem_insertionSort _
  have hwhole : Whole s := fun reason hs => hreasons reason ((hmem reason).mpr hs)
  rcases hsearch with ⟨scope, hshared, hfinished⟩ | ⟨reason, u, hdepth, rfl, -⟩
  · have hwalk {p : TraversalPath} {key : String} {r : KnowledgeRecord py}
        (hp : Walk t.store policy at' scope (Version t.store at') (Seed t.store scope seedIds)
          p key r) : IsWalk t.store policy at' scope (sortIds seedIds) p := by
      refine ⟨key, r, ?_⟩
      rw [Walked, seed_sortIds, namedVersion_eq hverified]
      exact hp
    refine ⟨scope, hshared, hfinished.nodup, fun p key r hp hone hle => ?_, fun hnil p key r hp => ?_⟩
    · exact hfinished.complete hverified hwhole p (hwalk hp) hone hle
    · refine hfinished.exhausted hverified hwhole (fun hdepth => ?_) p (hwalk hp)
      rw [← hmem, hnil] at hdepth
      cases hdepth
  · exact absurd (hwhole reason (mem_addReason.mpr (.inl rfl))) hdepth

/-- The two versions by themselves. -/
def verifiedSample : RelationTraversal sizes := sampleTraversal [] (by decide)

lemma verifiedSample_verified : Verified verifiedSample.store := by
  intro r hr
  rcases List.mem_pair.mp (canonical_sample.mp hr).1 with rfl | rfl
  · exact versionA_verifies
  · exact versionB_verifies

theorem traverse_complete_sample : ∃ scope, SharedBy verifiedSample.store [.ofNat 1] scope ∧
    [pathAB].Nodup ∧ ∀ p key r,
      Walk verifiedSample.store pastPolicy (.ofMicros 1) scope
        (Version verifiedSample.store (.ofMicros 1)) (Seed verifiedSample.store scope [.ofNat 1])
        p key r → 1 ≤ p.steps.length → p.steps.length ≤ 1 → p ∈ [pathAB] := by
  have hreasons : ∀ reason ∈ (RelationTraversal.result pastPolicy (.ofMicros 1)
      foundAB).truncationReasons, reason = "depth" := fun reason hmem =>
    List.mem_singleton.mp hmem
  obtain ⟨-, scope, hshared, hnodup, hall, -⟩ := traverse_complete (firstPage_lawful _)
    (firstPage_lawful _) (sizes_injOn (by simp)) verifiedSample_verified
    (sample_traverse (by simp)) hreasons
  exact ⟨scope, hshared, hnodup, hall⟩

end CyberBrain.Relations
