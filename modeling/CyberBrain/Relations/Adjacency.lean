import CyberBrain.Relations.Answers
import CyberBrain.Relations.HeadMap

/-!
# The adjacency of a level

What the reads of a level show: the transitions from the keys of its frontier are the hops of the
store, where the projections that the reads rely on are correct.
-/

namespace CyberBrain.Relations

open Program Python Schemas Tenancy RelationTraversal

variable {py : Runtime}

/-! ### A level -/

variable (py) in
/-- What the reads of a level show. -/
structure Level where
  owners : List (RelationPoint (KnowledgeRecord py))
  claims : List (KnowledgeRecord py × RelationEdge py)
  records : List (RelationPoint (KnowledgeRecord py))
  knowledge : List (KnowledgeRecord py)
  heads : List (String × KnowledgeRecord py)
  points : List (RelationPoint EpisodeRecord)
  episodes : List EpisodeRecord

namespace Level

/-- The transitions of a level. -/
def adjacency (l : Level py) (policy : TraversalPolicy) (at' : Instant)
    (scope : RelationScope py) : List Transition :=
  l.claims.flatMap (claimTransitions policy at' scope l.heads l.knowledge l.episodes)

/-- The reads of a level from its keys, under the grant of the caller. -/
structure Reads (store : RelationStore py) (caller : CallerAuthority py) (policy : TraversalPolicy)
    (at' : Instant) (scope : RelationScope py) (keys : List String) (l : Level py) : Prop where
  owners : Answer (knowledgeSchema py) store.knowledge
    ((ownersQuery policy at' scope keys).within (grantFilter caller)) l.owners
  claims : collectClaims policy at' keys l.owners = .ok l.claims
  records : Answer (knowledgeSchema py) store.knowledge
    ((recordsQuery at' scope (headKeys keys l.claims) (proofIds .knowledge l.claims)).within
      (grantFilter caller)) l.records
  knowledge : l.records.mapM (canonical (knowledgeSchema py)) = .ok l.knowledge
  heads : headMap at' policy.asOf.isSome (namedPoints (headKeys keys l.claims) l.records) =
    .ok l.heads
  points : proofIds .episode l.claims ≠ [] → Answer episodeSchema store.episodes
    ((episodesQuery scope (proofIds .episode l.claims)).within (grantFilter caller)) l.points
  points_mem : ∀ p ∈ l.points, p ∈ store.episodes.rows
  episodes : l.points.mapM (canonical episodeSchema) = .ok l.episodes

end Level

/-- The read of episodes shows the evidence among them. -/
lemma readProofs_triple {t : RelationTraversal py} {s : TraversalState}
    (hepisodes : t.scrollEpisodes.Lawful episodeSchema) {caller : CallerAuthority py}
    (hcaller : t.bound = some caller) {policy : TraversalPolicy} {scope : RelationScope py}
    {proofs : List Uuid} :
    Triple (Kept policy.maxStorageCalls s) (t.readProofs policy scope proofs)
      (fun points u => Kept policy.maxStorageCalls s u ∧
        (proofs ≠ [] → Answer episodeSchema t.store.episodes
          ((episodesQuery scope proofs).within (grantFilter caller)) points) ∧
        ∀ p ∈ points, p ∈ t.store.episodes.rows)
      (Cut policy.maxStorageCalls s) := by
  unfold readProofs
  refine Triple.ite (fun hnil => ?_) fun hne => ?_
  · exact Triple.pure fun u hu => ⟨hu, fun hne => absurd hnil hne, by simp⟩
  · refine (read_triple _ t hepisodes t.store.episodes true _).post ?_ fun _ _ hu => hu
    rintro points u ⟨hu, caller', hcaller', hanswer⟩
    obtain rfl : caller = caller' := Option.some.inj (hcaller.symm.trans hcaller')
    exact ⟨hu, fun _ => hanswer, fun p hp => ((hanswer.mem_iff p).mp hp).1⟩

/-- A level tries the longer paths over the transitions that its reads show. -/
theorem candidatePaths_triple {t : RelationTraversal py} {s : TraversalState}
    (hknowledge : t.scrollKnowledge.Lawful (knowledgeSchema py))
    (hepisodes : t.scrollEpisodes.Lawful episodeSchema) (policy : TraversalPolicy) (at' : Instant)
    (scope : RelationScope py) (frontier : List TraversalPath) :
    Triple (Kept policy.maxStorageCalls s) (t.candidatePaths policy at' scope frontier)
      (fun candidates u => Kept policy.maxStorageCalls s u ∧ ∃ caller, t.bound = some caller ∧
        ∃ l : Level py, l.Reads t.store caller policy at' scope
          (FrozenSet.ofList (frontier.map (·.lastKey))).sorted ∧
          candidates = frontier.flatMap (longerPaths at' l.heads (l.adjacency policy at' scope)))
      (Cut policy.maxStorageCalls s) := by
  unfold candidatePaths
  have hread (q : Query) := read_triple (s := s) policy.maxStorageCalls t hknowledge
    t.store.knowledge false q
  refine Triple.bind _ (hread _) fun owners => Triple.of_forall ?_
  rintro u ⟨hu, caller, hcaller, howners⟩
  refine checked_bind (fun claims hclaims => ?_) fun e _ hv => (hv ▸ hu).raised e
  refine Triple.pre ?_ fun v (hv : v = u) => hv ▸ hu
  refine Triple.bind _ (hread _) fun records => Triple.of_forall ?_
  rintro v ⟨hv, caller', hcaller', hrecords⟩
  obtain rfl : caller = caller' := Option.some.inj (hcaller.symm.trans hcaller')
  refine checked_bind (fun knowledge hcanonical => ?_) fun e _ hw => (hw ▸ hv).raised e
  refine checked_bind (fun heads hheads => ?_) fun e _ hw => (hw ▸ hv).raised e
  refine Triple.pre ?_ fun w (hw : w = v) => hw ▸ hv
  refine Triple.bind _ (readProofs_triple hepisodes hcaller) fun points => Triple.of_forall ?_
  rintro w ⟨hw, hpoints, hmem⟩
  refine checked_bind (fun episodes hepisodes => ?_) fun e _ hx => (hx ▸ hw).raised e
  refine Triple.pure fun x (hx : x = w) => ⟨hx ▸ hw, caller, hcaller, ?_⟩
  exact ⟨⟨owners, claims, records, knowledge, heads, points, episodes⟩,
    ⟨howners, hclaims, hrecords, hcanonical, hheads, hpoints, hmem, hepisodes⟩, rfl⟩

/-! ### What a level shows -/

/-- The caller may read the partition. -/
def Seen (caller : CallerAuthority py) (scope : RelationScope py) : Prop :=
  ∃ fields, Carries fields scope.toIdentityValues ∧ (grantFilter caller).accepts fields = true

lemma Seen.accepts {caller : CallerAuthority py} {scope : RelationScope py} (h : Seen caller scope)
    {fields : Fields} {values : IdentityValues} (hfields : Carries fields values)
    (hshared : sharesPartition scope values) : (grantFilter caller).accepts fields = true := by
  obtain ⟨seen, hseen, haccepts⟩ := h
  exact grantFilter_of_shared hseen haccepts hfields hshared

namespace Level

variable {store : RelationStore py} {caller : CallerAuthority py} {policy : TraversalPolicy}
  {at' : Instant} {scope : RelationScope py} {keys : List String} {l : Level py}

lemma mem_ownerClaims {r r' : KnowledgeRecord py} {edge : RelationEdge py} :
    (r', edge) ∈ ownerClaims policy at' keys r ↔ r' = r ∧ eligible at' r ∧
      edge ∈ r.bundle.edges ∧ edgeValid policy at' edge ∧
      (edge.source.key ∈ keys ∧ followsOut policy edge ∨
        edge.target.key ∈ keys ∧ followsIn policy edge) := by
  unfold ownerClaims
  by_cases h : eligible at' r
  · rw [if_pos h]
    simp only [List.mem_map, List.mem_filter, decide_eq_true_eq, Prod.mk.injEq]
    constructor
    · rintro ⟨edge', ⟨hedge, hvalid, htouch⟩, rfl, rfl⟩
      exact ⟨rfl, h, hedge, hvalid, htouch⟩
    · rintro ⟨rfl, -, hedge, hvalid, htouch⟩
      exact ⟨edge, ⟨hedge, hvalid, htouch⟩, rfl, rfl⟩
  · simp [h]

/-- The owner of a claim. -/
structure Owner (store : RelationStore py) (policy : TraversalPolicy) (at' : Instant)
    (scope : RelationScope py) (r : KnowledgeRecord py) : Prop where
  canonical : Canonical store r
  verifies : verifyProjection r = .ok ()
  partition : r.toIdentityValues = scope.toIdentityValues
  current : policy.asOf.isSome = false → r.status = .active

/-- A claim is an edge of a record that was read as an owner. -/
lemma Reads.claim (h : l.Reads store caller policy at' scope keys) {owner : KnowledgeRecord py}
    {edge : RelationEdge py} (hclaim : (owner, edge) ∈ l.claims) :
    Owner store policy at' scope owner ∧ (owner, edge) ∈ ownerClaims policy at' keys owner := by
  obtain ⟨claims, hclaims, heq⟩ := bind_eq_ok.mp h.claims
  rw [← Except.ok.inj heq] at hclaim
  obtain ⟨cs, hcs, hmem⟩ := List.mem_flatten.mp hclaim
  obtain ⟨p, hp, hturn⟩ := (mem_of_mapM hclaims).mp hcs
  obtain ⟨r, hr, hturn⟩ := bind_eq_ok.mp hturn
  obtain ⟨_, hverifies, hturn⟩ := bind_eq_ok.mp hturn
  cases hturn
  obtain ⟨rfl, -⟩ := mem_ownerClaims.mp hmem
  obtain ⟨hrow, hmatch⟩ := (h.owners.mem_iff p).mp hp
  obtain ⟨-, hclass, hpartition, hcurrent, -⟩ := (ownersQuery_matches hr).mp hmatch
  exact ⟨⟨⟨⟨p, hrow, hr⟩, hclass⟩, hverifies, hpartition, hcurrent⟩, hmem⟩

/-- An edge of a record that is read as an owner is claimed. -/
lemma Reads.claim_of_owner (h : l.Reads store caller policy at' scope keys)
    (hseen : Seen caller scope) {owner : KnowledgeRecord py} {edge : RelationEdge py}
    (howner : Owner store policy at' scope owner)
    (htouch : (∃ key ∈ ownerKey owner, key ∈ keys) ∨ ∃ key ∈ storedTargets owner, key ∈ keys)
    (hmem : (owner, edge) ∈ ownerClaims policy at' keys owner) : (owner, edge) ∈ l.claims := by
  obtain ⟨⟨p, hrow, hr⟩, hclass⟩ := howner.canonical
  have heligible := (mem_ownerClaims.mp hmem).2.1
  have haccepts := hseen.accepts (knowledge_carries owner)
    (howner.partition ▸ sharesPartition_self)
  have hp : p ∈ l.owners := (h.owners.mem_iff p).mpr ⟨hrow, (ownersQuery_matches hr).mpr
    ⟨haccepts, hclass, howner.partition, howner.current, heligible.2.1, htouch⟩⟩
  obtain ⟨claims, hclaims, heq⟩ := bind_eq_ok.mp h.claims
  rw [← Except.ok.inj heq]
  refine List.mem_flatten.mpr ⟨ownerClaims policy at' keys owner, ?_, hmem⟩
  refine (mem_of_mapM hclaims).mpr ⟨p, hp, ?_⟩
  exact bind_eq_ok.mpr ⟨owner, hr, bind_eq_ok.mpr ⟨(), howner.verifies, rfl⟩⟩

lemma mem_headKeys {claims : List (KnowledgeRecord py × RelationEdge py)} {key : String} :
    key ∈ headKeys keys claims ↔ key ∈ keys ∨
      ∃ c ∈ claims, key = c.2.source.key ∨ key = c.2.target.key := by
  rw [headKeys, ← FrozenSet.mem_def, FrozenSet.mem_ofList]
  simp

/-- The heads of a level are those among the versions of an entity whose projections name it. -/
theorem Reads.heads_lookup (h : l.Reads store caller policy at' scope keys)
    (hsha : Set.InjOn py.sha256 (entityTexts store)) (hseen : Seen caller scope)
    {e : EntityRef py} (he : Mentioned store e)
    (hscope : e.scope.toIdentityValues = scope.toIdentityValues)
    (hkey : e.key ∈ headKeys keys l.claims) (r : KnowledgeRecord py) :
    l.heads.lookup e.key = some r ↔
      IsHead (NamedVersion store at' e.key) policy.asOf.isSome r := by
  rw [headMap_lookup h.heads]
  suffices hsame : (fun q => ∃ p ∈ namedPoints (headKeys keys l.claims) l.records,
      headCandidate at' p = .ok (some (e.key, q))) = NamedVersion store at' e.key by rw [hsame]
  funext q
  refine propext ⟨?_, ?_⟩
  · rintro ⟨p, hp, hcandidate⟩
    obtain ⟨hq, hverifies, ⟨ref, hentity, hrefkey⟩, hcreated, hstaged⟩ :=
      headCandidate_eq_ok.mp hcandidate
    obtain ⟨hrow, hmatch⟩ := (h.records.mem_iff p).mp (List.mem_of_mem_filter hp)
    obtain ⟨-, hclass, -⟩ := (recordsQuery_matches hq).mp hmatch
    refine ⟨⟨⟨⟨p, hrow, hq⟩, hclass⟩, ⟨ref, hentity, hrefkey⟩, hcreated, hstaged⟩, ?_⟩
    rw [← hrefkey]
    exact (owner_of_verifies hverifies hentity).1
  · rintro ⟨⟨⟨⟨p, hrow, hq⟩, hclass⟩, ⟨ref, hentity, hrefkey⟩, hcreated, hstaged⟩, hnamed⟩
    have hcanonical : Canonical store q := ⟨⟨p, hrow, hq⟩, hclass⟩
    -- the version has the entity, so it lies in the partition
    obtain rfl : ref = e :=
      Mentioned.eq_of_key hsha ⟨q, hcanonical, .inl hentity⟩ he hrefkey
    have hpartition : q.toIdentityValues = scope.toIdentityValues := by
      rw [← scope_of_entityOf hentity, hscope]
    have hshared : sharesPartition scope q.toIdentityValues := hpartition ▸ sharesPartition_self
    have hp : p ∈ l.records := (h.records.mem_iff p).mpr ⟨hrow, (recordsQuery_matches hq).mpr
      ⟨hseen.accepts (knowledge_carries q) hshared, hclass, hshared, hcreated,
        .inl ⟨ref.key, hnamed, hkey⟩⟩⟩
    have hnamedPoint : p ∈ namedPoints (headKeys keys l.claims) l.records := by
      refine List.mem_filter.mpr ⟨hp, ?_⟩
      rw [(canonical_eq_ok.mp hq).1]
      simpa using ⟨ref.key, hnamed, hkey⟩
    obtain ⟨found, hfound, -⟩ := bind_eq_ok.mp h.heads
    obtain ⟨o, -, ho⟩ := ok_of_mapM hfound hnamedPoint
    -- the point was verified, or the heads would have raised
    have hverifies : verifyProjection q = .ok () := by
      obtain ⟨q', hq', ho⟩ := bind_eq_ok.mp ho
      obtain ⟨_, hverifies, -⟩ := bind_eq_ok.mp ho
      rw [hq] at hq'
      cases hq'
      exact hverifies
    exact ⟨p, hnamedPoint,
      headCandidate_eq_ok.mpr ⟨hq, hverifies, ⟨ref, hentity, rfl⟩, hcreated, hstaged⟩⟩

/-! ### Evidence -/

lemma mem_sortIds {ids : List Uuid} {id : Uuid} : id ∈ sortIds ids ↔ id ∈ ids := by
  rw [sortIds, List.mem_insertionSort, List.mem_dedup]

lemma mem_proofIds {recordType : EvidenceType}
    {claims : List (KnowledgeRecord py × RelationEdge py)} {owner : KnowledgeRecord py}
    {edge : RelationEdge py} (hclaim : (owner, edge) ∈ claims) {ref : EvidenceRef}
    (href : ref ∈ edge.evidence) (htype : ref.recordType = recordType) :
    ref.id ∈ proofIds recordType claims := by
  rw [proofIds, mem_sortIds, List.mem_flatMap]
  refine ⟨(owner, edge), hclaim, List.mem_map_of_mem (List.mem_filter.mpr ⟨?_, ?_⟩)⟩
  · exact FrozenSet.mem_def.mp href
  · exact decide_eq_true htype

/-- Knowledge that a level reads is canonical. -/
lemma Reads.knowledge_canonical (h : l.Reads store caller policy at' scope keys)
    {r : KnowledgeRecord py} (hr : r ∈ l.knowledge) : Canonical store r := by
  obtain ⟨p, hp, hcanonical⟩ := (mem_of_mapM h.knowledge).mp hr
  obtain ⟨hrow, hmatch⟩ := (h.records.mem_iff p).mp hp
  exact ⟨⟨p, hrow, hcanonical⟩, ((recordsQuery_matches hcanonical).mp hmatch).2.1⟩

lemma Reads.episode_canonical (h : l.Reads store caller policy at' scope keys)
    {r : EpisodeRecord} (hr : r ∈ l.episodes) : CanonicalEpisode store r := by
  obtain ⟨p, hp, hcanonical⟩ := (mem_of_mapM h.episodes).mp hr
  exact ⟨p, h.points_mem p hp, hcanonical⟩

/-- The check of the evidence of a claim finds what is in the store. -/
theorem Reads.proofValid_iff (h : l.Reads store caller policy at' scope keys)
    (hseen : Seen caller scope) {owner : KnowledgeRecord py} {edge : RelationEdge py}
    (hclaim : (owner, edge) ∈ l.claims) {ref : EvidenceRef} (href : ref ∈ edge.evidence) :
    proofValid at' scope l.knowledge l.episodes ref ↔ Proven store at' scope ref := by
  rcases href' : ref.recordType with _ | _
  · simp only [proofValid, Proven, href', Option.mem_def]
    constructor
    · rintro ⟨r, hfind, heligible, hshared⟩
      have hid := List.find?_some hfind
      exact ⟨r, h.knowledge_canonical (List.mem_of_find?_eq_some hfind), by simpa using hid,
        heligible, hshared⟩
    · rintro ⟨r, hcanonical, hid, heligible, hshared⟩
      obtain ⟨⟨p, hrow, hr⟩, hclass⟩ := id hcanonical
      have hp : p ∈ l.records := (h.records.mem_iff p).mpr ⟨hrow, (recordsQuery_matches hr).mpr
        ⟨hseen.accepts (knowledge_carries r) hshared, hclass, hshared, heligible.2.1,
          .inr (hid ▸ mem_proofIds hclaim href href')⟩⟩
      have hmem : r ∈ l.knowledge := (mem_of_mapM h.knowledge).mpr ⟨p, hp, hr⟩
      rw [← hid]
      exact ⟨r, find?_key_of_unique hmem fun q hq hqid =>
        (h.knowledge_canonical hq).eq_of_id hcanonical hqid, heligible, hshared⟩
  · simp only [proofValid, Proven, href', Option.mem_def]
    constructor
    · rintro ⟨r, hfind, hrest⟩
      have hid := List.find?_some hfind
      exact ⟨r, h.episode_canonical (List.mem_of_find?_eq_some hfind), by simpa using hid, hrest⟩
    · rintro ⟨r, hcanonical, hid, heligible, htime, hshared⟩
      obtain ⟨p, hrow, hr⟩ := id hcanonical
      have hproof := mem_proofIds hclaim href href'
      have hanswer := h.points (List.ne_nil_of_mem hproof)
      have hp : p ∈ l.points := (hanswer.mem_iff p).mpr ⟨hrow, (episodesQuery_matches hr).mpr
        ⟨hseen.accepts (episode_carries r) hshared, hshared, hid ▸ hproof⟩⟩
      have hmem : r ∈ l.episodes := (mem_of_mapM h.episodes).mpr ⟨p, hp, hr⟩
      rw [← hid]
      exact ⟨r, find?_key_of_unique hmem fun q hq hqid =>
        (h.episode_canonical hq).eq_of_id hcanonical hqid, heligible, htime, hshared⟩

/-! ### Moves -/

/-- The ends of an edge of an owner are entities of its partition. -/
lemma Owner.ends {owner : KnowledgeRecord py} {edge : RelationEdge py}
    (howner : Owner store policy at' scope owner)
    (hsha : Set.InjOn py.sha256 (entityTexts store)) (hedge : edge ∈ owner.bundle.edges) :
    edge.source.scope.toIdentityValues = scope.toIdentityValues ∧
      edge.target.scope.toIdentityValues = scope.toIdentityValues := by
  obtain ⟨ref, hentity⟩ := entity_of_verifies howner.verifies hedge
  have hkey := (owner_of_verifies howner.verifies hentity).2.1 edge hedge
  have hsource : edge.source = ref := Mentioned.eq_of_key hsha
    ⟨owner, howner.canonical, .inr ⟨edge, hedge, .inl rfl⟩⟩
    ⟨owner, howner.canonical, .inl hentity⟩ hkey
  have hscope : edge.source.scope.toIdentityValues = scope.toIdentityValues := by
    rw [hsource, scope_of_entityOf hentity, howner.partition]
  exact ⟨hscope, edge.same_partition ▸ hscope⟩

/-- What is checked of a claim makes it a hop. -/
theorem Reads.hop_iff (h : l.Reads store caller policy at' scope keys)
    (hsha : Set.InjOn py.sha256 (entityTexts store)) (hseen : Seen caller scope)
    {owner source target : KnowledgeRecord py} {edge : RelationEdge py}
    (hclaim : (owner, edge) ∈ l.claims) :
    (l.heads.lookup edge.source.key = some source ∧ l.heads.lookup edge.target.key = some target ∧
      source.id = owner.id ∧ target.id = edge.targetRecordId ∧ eligible at' source ∧
      eligible at' target ∧
      ∀ ref ∈ edge.evidence.sorted, proofValid at' scope l.knowledge l.episodes ref) ↔
    source = owner ∧ Hop store policy at' scope (NamedVersion store at') source target edge := by
  obtain ⟨howner, hmem⟩ := h.claim hclaim
  obtain ⟨-, -, hedge, hvalid, -⟩ := mem_ownerClaims.mp hmem
  obtain ⟨hsourceScope, htargetScope⟩ := howner.ends hsha hedge
  have hsourceMention : Mentioned store edge.source :=
    ⟨owner, howner.canonical, .inr ⟨edge, hedge, .inl rfl⟩⟩
  have htargetMention : Mentioned store edge.target :=
    ⟨owner, howner.canonical, .inr ⟨edge, hedge, .inr rfl⟩⟩
  rw [h.heads_lookup hsha hseen hsourceMention hsourceScope
      (mem_headKeys.mpr (.inr ⟨_, hclaim, .inl rfl⟩)),
    h.heads_lookup hsha hseen htargetMention htargetScope
      (mem_headKeys.mpr (.inr ⟨_, hclaim, .inr rfl⟩))]
  constructor
  · rintro ⟨hsource, htarget, hid, hanchor, hsourceEligible, htargetEligible, hproofs⟩
    obtain rfl : source = owner := hsource.version.1.canonical.eq_of_id howner.canonical hid
    have hpartition := htarget.version.1.partition hsha htargetMention
    exact ⟨rfl, hedge, hvalid, hsource, htarget, hanchor, hsourceEligible, htargetEligible,
      howner.partition, hpartition.trans htargetScope,
      fun ref href => (h.proofValid_iff hseen hclaim href).mp
        (hproofs ref (FrozenSet.mem_def.mp href))⟩
  · rintro ⟨rfl, hhop⟩
    exact ⟨hhop.source_head, hhop.target_head, rfl, hhop.anchored, hhop.source_eligible,
      hhop.target_eligible, fun ref href => (h.proofValid_iff hseen hclaim
        (FrozenSet.mem_def.mpr href)).mpr (hhop.proven ref (FrozenSet.mem_def.mpr href))⟩

lemma mem_claimTransitions {heads : List (String × KnowledgeRecord py)}
    {knowledge : List (KnowledgeRecord py)} {episodes : List EpisodeRecord}
    {owner : KnowledgeRecord py} {edge : RelationEdge py} {tr : Transition} :
    tr ∈ claimTransitions policy at' scope heads knowledge episodes (owner, edge) ↔
      ∃ source target, (heads.lookup edge.source.key = some source ∧
        heads.lookup edge.target.key = some target ∧ source.id = owner.id ∧
        target.id = edge.targetRecordId ∧ eligible at' source ∧ eligible at' target ∧
        ∀ ref ∈ edge.evidence.sorted, proofValid at' scope knowledge episodes ref) ∧
      tr ∈ edgeTransitions policy owner source target edge := by
  unfold claimTransitions
  cases heads.lookup edge.source.key with
  | none => simp
  | some source =>
    cases heads.lookup edge.target.key with
    | none => simp
    | some target => simp [and_assoc]

/-- The transitions of a level are the moves along its claims. -/
theorem Reads.mem_adjacency (h : l.Reads store caller policy at' scope keys)
    (hsha : Set.InjOn py.sha256 (entityTexts store)) (hseen : Seen caller scope)
    {tr : Transition} : tr ∈ l.adjacency policy at' scope ↔
      ∃ source target edge, (source, edge) ∈ l.claims ∧
        Hop store policy at' scope (NamedVersion store at') source target edge ∧
        tr ∈ edgeTransitions policy source source target edge := by
  simp only [adjacency, List.mem_flatMap, Prod.exists]
  constructor
  · rintro ⟨owner, edge, hclaim, htr⟩
    obtain ⟨source, target, hchecks, htr⟩ := mem_claimTransitions.mp htr
    obtain ⟨rfl, hhop⟩ := (h.hop_iff hsha hseen hclaim).mp hchecks
    exact ⟨source, target, edge, hclaim, hhop, htr⟩
  · rintro ⟨source, target, edge, hclaim, hhop, htr⟩
    exact ⟨source, edge, hclaim, mem_claimTransitions.mpr
      ⟨source, target, (h.hop_iff hsha hseen hclaim).mpr ⟨rfl, hhop⟩, htr⟩⟩

/-- A transition is a move. -/
lemma Reads.move_of_mem (h : l.Reads store caller policy at' scope keys)
    (hsha : Set.InjOn py.sha256 (entityTexts store)) (hseen : Seen caller scope)
    {tr : Transition} (htr : tr ∈ l.adjacency policy at' scope) :
    ∃ r r', Move store policy at' scope (NamedVersion store at') tr.start r tr.finish r' tr.step ∧
      r'.id = tr.endpoint := by
  obtain ⟨source, target, edge, -, hhop, htr⟩ := (h.mem_adjacency hsha hseen).mp htr
  rcases List.mem_append.mp htr with htr | htr
  · rw [List.mem_ite_nil_right, List.mem_singleton] at htr
    obtain ⟨hfollow, rfl⟩ := htr
    exact ⟨source, target, .outward hhop hfollow, rfl⟩
  · rw [List.mem_ite_nil_right, List.mem_singleton] at htr
    obtain ⟨hfollow, rfl⟩ := htr
    exact ⟨target, source, .inward hhop hfollow, rfl⟩

/-- An edge that touches the keys in a direction that may be followed is claimed. -/
lemma Reads.claim_of_hop (h : l.Reads store caller policy at' scope keys)
    (hseen : Seen caller scope) {source target : KnowledgeRecord py} {edge : RelationEdge py}
    (hverifies : verifyProjection source = .ok ())
    (hhop : Hop store policy at' scope (NamedVersion store at') source target edge)
    (htouch : edge.source.key ∈ keys ∧ followsOut policy edge ∨
      edge.target.key ∈ keys ∧ followsIn policy edge) : (source, edge) ∈ l.claims := by
  have hversion := hhop.source_head.version
  refine h.claim_of_owner hseen ⟨hversion.1.canonical, hverifies, hhop.source_partition,
    hhop.source_head.active⟩ ?_
    (mem_ownerClaims.mpr ⟨rfl, hhop.source_eligible, hhop.owned, hhop.valid, htouch⟩)
  rcases htouch with ⟨hkey, -⟩ | ⟨hkey, -⟩
  · exact .inl ⟨_, hversion.2, hkey⟩
  · obtain ⟨ref, hentity⟩ := entity_of_verifies hverifies hhop.owned
    have hindex := (owner_of_verifies hverifies hentity).2.2
    have hstored : storedTargets source = (targetKeys source.bundle).sorted := by
      rw [storedTargets, hindex]
    refine .inr ⟨edge.target.key, ?_, hkey⟩
    rw [hstored, ← FrozenSet.mem_def, targetKeys, FrozenSet.mem_ofList]
    exact List.mem_map_of_mem (List.mem_filter.mpr ⟨hhop.owned, decide_eq_true hhop.valid.1⟩)

/-- A move from one of the keys is a transition, where projections are correct. -/
lemma Reads.mem_of_move (h : l.Reads store caller policy at' scope keys)
    (hsha : Set.InjOn py.sha256 (entityTexts store)) (hseen : Seen caller scope)
    (hverify : ∀ r, Canonical store r → verifyProjection r = .ok ()) {key key' : String}
    {r r' : KnowledgeRecord py} {step : TraversalStep} (hkey : key ∈ keys)
    (hmove : Move store policy at' scope (NamedVersion store at') key r key' r' step) :
    (⟨key, key', r'.id, step⟩ : Transition) ∈ l.adjacency policy at' scope := by
  rw [h.mem_adjacency hsha hseen]
  cases hmove with
  | @outward _ _ edge hhop hfollow =>
    refine ⟨r, r', edge, h.claim_of_hop hseen (hverify r hhop.source_head.version.1.canonical) hhop
      (.inl ⟨hkey, hfollow⟩), hhop, List.mem_append_left _ ?_⟩
    rw [if_pos hfollow]
    exact List.mem_singleton_self _
  | @inward _ _ edge hhop hfollow =>
    refine ⟨r', r, edge, h.claim_of_hop hseen (hverify r' hhop.source_head.version.1.canonical) hhop
      (.inr ⟨hkey, hfollow⟩), hhop, List.mem_append_right _ ?_⟩
    rw [if_pos hfollow]
    exact List.mem_singleton_self _

/-! ### No transition comes twice -/

/-- The edges of a bundle have different ids. -/
lemma nodup_ownerClaims (keys : List String) (owner : KnowledgeRecord py) :
    ((ownerClaims policy at' keys owner).map fun c => (c.1.id, c.2.relationId)).Nodup := by
  unfold ownerClaims
  split_ifs
  · rw [List.map_map]
    have hids : (owner.bundle.edges.map (·.relationId)).Nodup :=
      owner.bundle.increasing.imp ne_of_lt
    have hpairs : (owner.bundle.edges.map fun edge => (owner.id, edge.relationId)).Nodup := by
      have := hids.map (f := fun relationId => (owner.id, relationId)) fun _ _ => by simp
      rwa [List.map_map] at this
    exact hpairs.sublist (List.filter_sublist.map _)
  · exact List.nodup_nil

/-- Claims differ in their owner or in their edge. -/
lemma Reads.nodup_claims (h : l.Reads store caller policy at' scope keys) :
    (l.claims.map fun c => (c.1.id, c.2.relationId)).Nodup := by
  obtain ⟨claims, hclaims, heq⟩ := bind_eq_ok.mp h.claims
  rw [← Except.ok.inj heq]
  have hids : (l.owners.map (·.id)).Nodup := h.owners.nodup.map_on fun p hp q hq hid =>
    Table.eq_of_key_eq ((h.owners.mem_iff p).mp hp).1 ((h.owners.mem_iff q).mp hq).1 hid
  have hall := forall₂_of_mapM hclaims
  suffices ∀ owners claims, List.Forall₂ (fun p (c : List (KnowledgeRecord py × RelationEdge py)) =>
      (do
        let r ← canonical (knowledgeSchema py) p
        verifyProjection r
        pure (ownerClaims policy at' keys r)) = .ok c) owners claims →
      (owners.map (·.id)).Nodup →
      (claims.flatten.map fun c => (c.1.id, c.2.relationId)).Nodup ∧
        ∀ c ∈ claims.flatten, c.1.id ∈ owners.map (·.id) from (this _ _ hall hids).1
  intro owners claims hall
  induction hall with
  | nil => simp
  | @cons p c owners claims hturn _ ih =>
    intro hnodup
    obtain ⟨ihnodup, ihmem⟩ := ih hnodup.of_cons
    obtain ⟨r, hr, hturn⟩ := bind_eq_ok.mp hturn
    obtain ⟨_, -, hturn⟩ := bind_eq_ok.mp hturn
    obtain rfl := Except.ok.inj hturn
    have hid : r.id = p.id := (canonical_eq_ok.mp hr).2
    have howner : ∀ c ∈ ownerClaims policy at' keys r, c.1.id = p.id := by
      rintro ⟨owner, edge⟩ hc
      rw [(mem_ownerClaims.mp hc).1, hid]
    constructor
    · rw [List.flatten_cons, List.map_append]
      refine (nodup_ownerClaims keys r).append ihnodup ?_
      simp only [List.disjoint_left, List.mem_map, not_exists, not_and]
      rintro _ ⟨c, hc, rfl⟩ d hd heq
      have hmem := ihmem d hd
      rw [(Prod.mk.inj heq).1, howner c hc] at hmem
      exact (List.nodup_cons.mp hnodup).1 hmem
    · intro c hc
      rcases List.mem_append.mp hc with hc | hc
      · exact List.mem_cons.mpr (.inl (howner c hc))
      · exact List.mem_cons_of_mem _ (ihmem c hc)

lemma step_of_mem {owner source target : KnowledgeRecord py} {edge : RelationEdge py}
    {tr : Transition} (h : tr ∈ edgeTransitions policy owner source target edge) :
    tr.step.ownerRecordId = owner.id ∧ tr.step.relationId = edge.relationId := by
  rcases List.mem_append.mp h with h | h <;> rw [List.mem_ite_nil_right, List.mem_singleton] at h <;>
    obtain ⟨-, rfl⟩ := h <;> exact ⟨rfl, rfl⟩

lemma nodup_edgeTransitions (owner source target : KnowledgeRecord py) (edge : RelationEdge py) :
    (edgeTransitions policy owner source target edge).Nodup := by
  unfold edgeTransitions
  split_ifs <;> simp [edge.not_self]

/-- The transitions of a level are different. -/
theorem Reads.nodup_adjacency (h : l.Reads store caller policy at' scope keys) :
    (l.adjacency policy at' scope).Nodup := by
  refine List.nodup_flatMap.mpr ⟨fun c _ => ?_, ?_⟩
  · unfold claimTransitions
    split
    · split_ifs
      · exact nodup_edgeTransitions _ _ _ _
      · exact List.nodup_nil
    · exact List.nodup_nil
  · refine (List.pairwise_map.mp h.nodup_claims).imp fun {c d} hne => ?_
    refine List.disjoint_left.mpr fun tr hc hd => hne ?_
    obtain ⟨_, _, -, hc⟩ := mem_claimTransitions.mp hc
    obtain ⟨_, _, -, hd⟩ := mem_claimTransitions.mp hd
    rw [← (step_of_mem hc).1, ← (step_of_mem hc).2, (step_of_mem hd).1, (step_of_mem hd).2]

end Level

end CyberBrain.Relations
