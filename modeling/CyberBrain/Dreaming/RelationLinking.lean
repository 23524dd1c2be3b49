import CyberBrain.Dreaming.Assembly
import CyberBrain.Dreaming.Writeback
import CyberBrain.Relations.RoundTrip
import Mathlib.Data.List.ReduceOption

/-!
# Relations of promoted candidates

`write_candidate` links what it stores to similar Knowledge. The source of the links is the entity
that it expects to store, and the store derives the entity anew, from the context of the candidate
and the scope of the caller as well.
-/

namespace CyberBrain.Dreaming

open Knowledge Python Relations Schemas Tenancy

variable {py : Runtime}

/-! ### What is stored -/

/-- The attribution of a candidate, which names no session. -/
def StoreTarget.identity (target : StoreTarget) : IdentityValues where
  tenant := target.tenant
  user := target.user
  agent := target.agent
  project := target.project

/-- The labels under which a candidate is stored. -/
def StoreTarget.labels (target : StoreTarget) (candidate : DreamCandidate) : EntityLabels where
  domain := target.domain
  topic := target.topic
  entityType := candidate.entityType
  entityName := candidate.entityName

/-- The doubles of a decision. -/
structure DecisionScores where
  reasonerConfidence : Binary64
  evidenceStrength : Binary64
  promotionConfidence : Binary64

/-- The arguments with which `write_candidate` calls `store`. -/
def candidateArgs (target : StoreTarget) (candidate : DreamCandidate) (scores : DecisionScores)
    (runId : String) (relations : Option (RelationBundle py)) : StoreArgs where
  toEntityLabels := target.labels candidate
  toIdentityValues := target.identity
  content := candidate.content
  summary := some candidate.summary
  changeReason := some "promoted from Dreaming evidence gate"
  verification := target.verification
  confidence := some scores.promotionConfidence
  provenanceType := some "dream"
  source := some ("dream_run:" ++ runId)
  evidenceIds := target.evidenceIds
  origin := .dream
  dreamRunId := some runId
  negativeKnowledge := candidate.negativeKnowledge
  context := semanticContext candidate
  extensions :=
    { relations := relations.map fun b => .edges (b.edges.map (·.input))
      other := [("reasoner_confidence", .float scores.reasonerConfidence),
        ("evidence_strength", .float scores.evidenceStrength),
        ("promotion_confidence", .float scores.promotionConfidence),
        ("dream_classification", .str candidate.classification)] }

/-! ### What is linked -/

/-- A point that the search for similar Knowledge has found. -/
structure Match where
  id : String
  payload : List (String × Json) := []

/-- A field of a payload is a given text. -/
def Match.has (m : Match) (key value : String) : Bool :=
  match m.payload.lookup key with
  | some (.str s) => s = value
  | _             => false

section Linking

variable (py)

/-- `EntityRef.from_payload` on a stored payload. -/
def entityFromPayload (payload : List (String × Json)) : Except Exc (EntityRef py) := do
  let label (key : String) : Except Exc String := do
    let v ← orRaise (payload.lookup key) (.keyError key)
    readText v
  let domain ← label "domain"
  let topic ← label "topic"
  let entityType ← label "entity_type"
  let entityName ← label "entity_name"
  let context ← readContext
    (((payload.lookup "context").filter fun v => !isFalsy v).getD (.obj []))
  let values ← IdentityDimension.traverse fun d =>
    readField payload d.field (readNullable readText) (some none)
  EntityRef.make py { domain, topic, entityType, entityName } context
    { tenant := values .tenant, user := values .user, agent := values .agent
      project := values .project, sessionId := values .session }

/-- `source_ref`. -/
def sourceRef (target : StoreTarget) (candidate : DreamCandidate) : Except Exc (EntityRef py) :=
  EntityRef.make py (target.labels candidate) [] target.identity

variable {py}

/-- The body of the loop of `_build_candidate_relations`. -/
def linkMatch (source : EntityRef py) (status : RelationStatus) (now : Instant)
    (evidenceIds : List Uuid) (m : Match) : Except Exc (Option (RelationEdge py)) :=
  if m.has "status" "active" ∧ m.has "record_type" "knowledge" then
    match entityFromPayload py m.payload with
    | .error _ => pure none
    | .ok ref  =>
      if ref.key = source.key then pure none
      else do
        let id ← orRaise (Uuid.parse m.id) (.valueError "badly formed hexadecimal UUID string")
        some <$> RelationEdge.make py {
          kind := .supports
          source := source.input
          target := ref.input
          targetRecordId := id
          evidence := (evidenceIds.map fun id => ⟨.episode, id⟩).take 1
          status
          validFrom := now
          reviewNote := some "Automated dream semantic relation link" }
  else pure none

/-- `_build_candidate_relations`, with what the search for matches gives. -/
def buildCandidateRelations (bound : Option (CallerAuthority py)) (source : EntityRef py)
    (now : Instant) (evidenceIds : List Uuid) (found : Except Exc (List Match)) :
    Option (RelationBundle py) :=
  let status : RelationStatus := if CanReview bound then .accepted else .proposed
  let built := do
    let points ← found
    let edges ← points.mapM (linkMatch source status now evidenceIds)
    RelationBundle.validate py (.edges (edges.reduceOption.map RelationEdge.input))
  (built.toOption).filter fun bundle => !bundle.edges.isEmpty

/-- The relations that `write_candidate` passes to `store`. -/
def linkedRelations (bound : Option (CallerAuthority py)) (target : StoreTarget)
    (candidate : DreamCandidate) (now : Instant) (found : Except Exc (List Match)) :
    Option (RelationBundle py) :=
  match sourceRef py target candidate with
  | .error _   => none
  | .ok source => buildCandidateRelations bound source now target.evidenceIds found

end Linking

/-! ### The entity of the store -/

/-- The entity that `store` derives from its arguments. -/
def storedEntity (bound : Option (CallerAuthority py)) (args : StoreArgs) :
    Except Exc (EntityRef py) := do
  let values ← scopedIdentity bound args
  EntityRef.make py args.toEntityLabels args.context values

def foreignSource : Exc :=
  .configurationError "relation source differs from canonical Knowledge identity"

/-- What `store` admits relations for is the entity that it derives. -/
lemma storedEntity_of_prepare {service : Service} {call : StoreCall py} {p : Prepared py}
    {ref : EntityRef py} {bundle : RelationBundle py} (h : prepare service call = .ok p)
    (hrelations : p.relations = some (ref, bundle)) :
    storedEntity call.bound call.args = .ok ref := by
  obtain ⟨values, hvalues, h⟩ := bind_eq_ok.mp h
  obtain ⟨normalized, -, h⟩ := bind_eq_ok.mp h
  obtain ⟨_, -, h⟩ := bind_eq_ok.mp h
  obtain ⟨_, -, h⟩ := bind_eq_ok.mp h
  obtain ⟨relations, hadmit, h⟩ := bind_eq_ok.mp h
  obtain ⟨digest, -, h⟩ := bind_eq_ok.mp h
  cases h
  obtain rfl : relations = some (ref, bundle) := hrelations
  cases hraw : call.args.extensions.relations with
  | none =>
    rw [hraw] at hadmit
    cases hadmit
  | some raw =>
    rw [hraw] at hadmit
    obtain ⟨_, -, hadmit⟩ := bind_eq_ok.mp hadmit
    obtain ⟨ref', hmake, hadmit⟩ := bind_eq_ok.mp hadmit
    obtain ⟨bundle', -, hadmit⟩ := bind_eq_ok.mp hadmit
    cases hadmit
    refine bind_eq_ok.mpr ⟨values, hvalues, ?_⟩
    cases hentity : EntityRef.make py call.args.toEntityLabels call.args.context values with
    | error e =>
      rw [hentity] at hmake
      cases hmake
    | ok e =>
      rw [hentity] at hmake
      cases hmake
      rfl

/-- Every edge of every bundle that is built has the entity of the store as its source, and is not
refused as foreign. -/
def LinksOwnEntity (bound : Option (CallerAuthority py)) (target : StoreTarget)
    (candidate : DreamCandidate) (scores : DecisionScores) (runId : String) : Prop :=
  ∀ now found bundle ref, linkedRelations bound target candidate now found = some bundle →
    storedEntity bound (candidateArgs target candidate scores runId (some bundle)) = .ok ref →
      ∀ edge ∈ bundle.edges,
        edge.source.key = ref.key ∧ admitEdge bound ref edge ≠ .error foreignSource

/-- The candidate has no context but the labels of its run, and the caller's scope leaves its
attribution as it is; unless nothing can be linked or stored. -/
def SameIdentity (bound : Option (CallerAuthority py)) (target : StoreTarget)
    (candidate : DreamCandidate) (scores : DecisionScores) (runId : String) : Prop :=
  (∃ source, sourceRef py target candidate = .ok source) → target.evidenceIds ≠ [] →
    (∃ ref, storedEntity bound (candidateArgs target candidate scores runId
      (none : Option (RelationBundle py))) = .ok ref) →
    semanticContext candidate = [] ∧
      scopedIdentity bound (candidateArgs target candidate scores runId
        (none : Option (RelationBundle py))) = .ok target.identity

section Links

variable {bound : Option (CallerAuthority py)} {target : StoreTarget} {candidate : DreamCandidate}
  {scores : DecisionScores} {runId : String} {source ref : EntityRef py} {now : Instant}
  {found : Except Exc (List Match)} {bundle : RelationBundle py}

/-- An edge that is built for a match starts at the source. -/
lemma linkMatch_source {status : RelationStatus} {ids : List Uuid} {m : Match}
    {edge : RelationEdge py} (hsized : source.Sized)
    (h : linkMatch source status now ids m = .ok (some edge)) :
    edge.source = source ∧ edge.Admitted ∧ ids ≠ [] := by
  simp only [linkMatch] at h
  split_ifs at h with hactive
  · split at h
    · cases h
    · next target htarget =>
      split_ifs at h with hself
      · cases h
      · obtain ⟨id, hid, h⟩ := bind_eq_ok.mp h
        obtain ⟨made, hmade, h⟩ := bind_eq_ok.mp h
        cases h
        have hto := RelationEdge.make_eq_ok.mp hmade
        refine ⟨Except.ok.inj (hto.source.symm.trans (EntityRef.make_self hsized)), hto.admitted, ?_⟩
        rintro rfl
        exact hto.evidence_length.1 rfl
  · cases h

/-- The edges of a bundle that is built start at the source. -/
lemma linkedRelations_source (h : linkedRelations bound target candidate now found = some bundle) :
    ∃ source, sourceRef py target candidate = .ok source ∧ target.evidenceIds ≠ [] ∧
      ∀ edge ∈ bundle.edges, edge.source = source := by
  unfold linkedRelations at h
  split at h
  · cases h
  · next source hsource =>
    obtain ⟨hbuilt, hedges⟩ := Option.filter_eq_some_iff.mp h
    obtain ⟨points, -, hbuilt⟩ := bind_eq_ok.mp (toOption_eq_some.mp hbuilt)
    obtain ⟨edges, hlinked, hbuilt⟩ := bind_eq_ok.mp hbuilt
    obtain ⟨-, -, results, hresults, hperm⟩ := RelationBundle.validate_eq_ok.mp hbuilt
    have hall : ∀ edge ∈ bundle.edges, edge.source = source ∧ target.evidenceIds ≠ [] := by
      intro edge hedge
      obtain ⟨input, hinput, hmake⟩ := (mem_of_mapM hresults).mp (hperm.mem_iff.mpr hedge)
      obtain ⟨made, hmade, rfl⟩ := List.mem_map.mp hinput
      obtain ⟨m, -, hmatch⟩ := (mem_of_mapM hlinked).mp (List.reduceOption_mem_iff.mp hmade)
      obtain ⟨hstart, hadmitted, hids⟩ := linkMatch_source (EntityRef.sized_of_make hsource) hmatch
      have hself := RelationEdge.make_eq_ok.mpr hadmitted.validatesTo
      cases Except.ok.inj (hmake.symm.trans hself)
      exact ⟨hstart, hids⟩
    obtain ⟨edge, hedge⟩ := List.exists_mem_of_ne_nil bundle.edges (by simpa using hedges)
    exact ⟨source, hsource, (hall edge hedge).2, fun edge hedge => (hall edge hedge).1⟩

/-- A payload of active Knowledge with a name, in a partition. -/
def knowledgePayload (labels : EntityLabels) (values : IdentityValues) : List (String × Json) :=
  (("record_type", .str "knowledge") :: ("record_class", .str "knowledge") ::
    ("status", .str "active") :: labels.items.map fun kv => (kv.1, Json.str kv.2)) ++
    values.items.map fun kv => (kv.1, Json.ofText? kv.2)

lemma entityFromPayload_knowledge (labels : EntityLabels) (values : IdentityValues) :
    entityFromPayload py (knowledgePayload labels values) =
      EntityRef.make py labels [] values := by
  have hvalues : IdentityDimension.traverse (fun d => readField (knowledgePayload labels values)
      d.field (readNullable readText) (some none)) = .ok values.get := by
    refine IdentityDimension.traverse_eq_ok_iff.mpr fun d => ?_
    have hlookup : (knowledgePayload labels values).lookup d.field =
        some (Json.ofText? (values.get d)) := by
      cases d <;> rfl
    rw [readField_eq hlookup, readNullable_ofText?]
  have hbind : entityFromPayload py (knowledgePayload labels values) =
      (IdentityDimension.traverse (fun d => readField (knowledgePayload labels values)
        d.field (readNullable readText) (some none)) >>= fun values' =>
          EntityRef.make py labels [] { tenant := values' .tenant, user := values' .user
                                        agent := values' .agent, project := values' .project
                                        sessionId := values' .session }) := rfl
  rw [hbind, hvalues]
  rfl

lemma exists_other_label (s : String) : ∃ name, CanonicalLabel name ∧ name ≠ s := by
  by_cases h : s = "a"
  · exact ⟨"b", by decide, by simp [h]⟩
  · exact ⟨"a", by decide, Ne.symm h⟩

/-- The bundle of one edge. -/
lemma validate_singleton {e : RelationEdge py} (h : e.Admitted) :
    RelationBundle.validate py (.edges [e.input]) = .ok ⟨[e], List.pairwise_singleton _ _⟩ := by
  refine RelationBundle.validate_eq_ok.mpr ⟨by simp, ?_, [e], ?_, .refl _⟩
  · refine (FrozenSet.length_sorted_ofList_le _).trans ?_
    simp only [List.flatMap_cons, List.flatMap_nil, List.append_nil]
    exact h.evidence_length.2.trans (by decide)
  · exact mapM_eq_ok_iff_forall₂.mpr (.cons (RelationEdge.make_eq_ok.mpr h.validatesTo) .nil)

/-- A match with such a payload. -/
def knowledgeMatch (labels : EntityLabels) (values : IdentityValues) : Match where
  id := (Uuid.ofNat 0).text
  payload := knowledgePayload labels values

/-- A match with other Knowledge of the partition is linked. -/
lemma linkMatch_knowledge {other : EntityRef py} {labels : EntityLabels} {values : IdentityValues}
    {ids : List Uuid} (hsized : source.Sized)
    (hother : EntityRef.make py labels [] values = .ok other) (hscope : other.scope = source.scope)
    (hkey : other.key ≠ source.key) (hids : ids ≠ []) (status : RelationStatus) (now : Instant) :
    ∃ edge, linkMatch source status now ids (knowledgeMatch labels values) =
      .ok (some edge) := by
  obtain ⟨first, rest, rfl⟩ := List.exists_cons_of_ne_nil hids
  let edge : RelationEdge py := {
    kind := .supports
    source := source
    target := other
    targetRecordId := .ofNat 0
    evidence := FrozenSet.ofList [⟨.episode, first⟩]
    status := status
    validFrom := now
    validUntil := none
    reviewNote := some "Automated dream semantic relation link"
    not_self := hkey.symm
    same_partition := hscope.symm
    follows := by simp
    reviewed_note := fun _ => ⟨_, rfl, by decide⟩ }
  have hmake := @RelationEdge.make_eq_ok py {
    kind := .supports
    source := source.input
    target := other.input
    targetRecordId := .ofNat 0
    evidence := [⟨.episode, first⟩]
    status := status
    validFrom := now
    reviewNote := some "Automated dream semantic relation link" } edge |>.mpr
      { source := EntityRef.make_self hsized
        target := EntityRef.make_self (EntityRef.sized_of_make hother)
        evidence_length := by simp
        note_length := by
          rintro note ⟨rfl⟩
          decide
        relationId := by simp
        kind := rfl
        targetRecordId := rfl
        evidence := rfl
        status := rfl
        validFrom := rfl
        validUntil := rfl
        reviewNote := rfl }
  refine ⟨edge, ?_⟩
  have hpayload : (knowledgeMatch labels values).payload = knowledgePayload labels values := rfl
  have hid : (knowledgeMatch labels values).id = (Uuid.ofNat 0).text := rfl
  rw [linkMatch, if_pos ⟨rfl, rfl⟩, hpayload, entityFromPayload_knowledge, hother]
  dsimp only
  rw [if_neg hkey, hid, Uuid.parse_text]
  refine bind_eq_ok.mpr ⟨.ofNat 0, rfl, ?_⟩
  rw [List.map_cons, List.take_succ_cons, List.take_zero, hmake]
  rfl

/-- Where the source is well formed and there is evidence, Knowledge of the same partition under
another name is linked. -/
lemma linkedRelations_knowledge (hsha : Set.InjOn py.sha256 (Set.range (canonicalJson py)))
    (hsource : sourceRef py target candidate = .ok source) (hids : target.evidenceIds ≠ [])
    {name : String} (hname : CanonicalLabel name) (hne : name ≠ candidate.entityName)
    (bound : Option (CallerAuthority py)) (now : Instant) : ∃ bundle,
      linkedRelations bound target candidate now (.ok [knowledgeMatch
        { target.labels candidate with entityName := name } target.identity]) = some bundle ∧
        ∃ edge ∈ bundle.edges, edge.source = source := by
  obtain ⟨hscope, hlabels, hsize, hsourceLabels, -⟩ := EntityRef.make_eq_ok.mp hsource
  have hcanonical : ∀ kv ∈ EntityLabels.items { target.labels candidate with entityName := name },
      CanonicalLabel kv.2 := by
    simp only [EntityLabels.items, List.forall_mem_cons] at hlabels ⊢
    exact ⟨hlabels.1, hlabels.2.1, hlabels.2.2.1, hname, by simp⟩
  let other : EntityRef py := {
    toEntityLabels := { target.labels candidate with entityName := name }
    context := sortedContext []
    scope := source.scope
    labels_canonical := hcanonical
    context_canonical := sortedContext_canonical [] }
  have hother : EntityRef.make py { target.labels candidate with entityName := name } []
      target.identity = .ok other :=
    EntityRef.make_eq_ok.mpr ⟨hscope, hcanonical, hsize, rfl, rfl⟩
  have hkey : other.key ≠ source.key := by
    rw [Ne, EntityRef.key_inj hsha]
    intro heq
    have hlabel : name = (target.labels candidate).entityName := by
      rw [← hsourceLabels, ← heq]
    exact hne hlabel
  have hsized := EntityRef.sized_of_make hsource
  obtain ⟨edge, hedge⟩ := linkMatch_knowledge hsized hother rfl hkey hids
    (if CanReview bound then .accepted else .proposed) now
  obtain ⟨hstart, hadmitted, -⟩ := linkMatch_source hsized hedge
  refine ⟨⟨[edge], List.pairwise_singleton _ _⟩, ?_, edge, List.mem_singleton_self _, hstart⟩
  rw [linkedRelations, hsource]
  exact Option.filter_eq_some_iff.mpr ⟨toOption_eq_some.mpr (bind_eq_ok.mpr ⟨_, rfl,
    bind_eq_ok.mpr ⟨[some edge], mapM_eq_ok_iff_forall₂.mpr (.cons hedge .nil),
      validate_singleton hadmitted⟩⟩), rfl⟩

/-- The entity of the store is the source only without a context. -/
lemma context_of_key_eq (hsha : Set.InjOn py.sha256 (Set.range (canonicalJson py)))
    (hsource : sourceRef py target candidate = .ok source)
    {relations : Option (RelationBundle py)}
    (href : storedEntity bound (candidateArgs target candidate scores runId relations) = .ok ref)
    (hkey : source.key = ref.key) : semanticContext candidate = [] ∧
      scopedIdentity bound (candidateArgs target candidate scores runId relations) =
        .ok target.identity := by
  rw [EntityRef.key_inj hsha] at hkey
  subst hkey
  obtain ⟨values, hvalues, hmake⟩ := bind_eq_ok.mp href
  obtain ⟨hscope, -, -, -, hcontext⟩ := EntityRef.make_eq_ok.mp hmake
  obtain ⟨hscope', -, -, -, hcontext'⟩ := EntityRef.make_eq_ok.mp hsource
  constructor
  · exact sortedContext_eq_nil.mp (hcontext.symm.trans hcontext')
  · rw [hvalues, ← RelationScope.make_ok hscope, RelationScope.make_ok hscope']

/-- An edge from the entity of the store is not refused as foreign. -/
lemma admitEdge_own {edge : RelationEdge py} (h : edge.source.key = ref.key) :
    admitEdge bound ref edge ≠ .error foreignSource := by
  rw [admitEdge, (require_eq_ok (u := ())).mpr h]
  show (if edge.status ≠ .proposed then requireReviewAuthority bound else .ok ()) ≠ _
  split_ifs
  · rw [requireReviewAuthority, require]
    split_ifs
    · simp
    · rw [Ne, Except.error.injEq, foreignSource, Exc.configurationError.injEq]
      decide
  · simp

end Links

/-- Links start at the entity of the store exactly where the candidate has no context of its own
and the caller leaves its attribution as it is. -/
theorem linksOwnEntity_iff (hsha : Set.InjOn py.sha256 (Set.range (canonicalJson py)))
    (bound : Option (CallerAuthority py)) (target : StoreTarget) (candidate : DreamCandidate)
    (scores : DecisionScores) (runId : String) :
    LinksOwnEntity bound target candidate scores runId ↔
      SameIdentity bound target candidate scores runId := by
  constructor
  · rintro hlinks ⟨source, hsource⟩ hids ⟨ref, href⟩
    obtain ⟨name, hname, hne⟩ := exists_other_label candidate.entityName
    obtain ⟨bundle, hlinked, edge, hedge, hstart⟩ :=
      linkedRelations_knowledge hsha hsource hids hname hne bound (.ofMicros 0)
    obtain ⟨hkey, -⟩ := hlinks _ _ bundle ref hlinked href edge hedge
    rw [hstart] at hkey
    exact context_of_key_eq hsha hsource href hkey
  · intro hsame now found bundle ref hlinked href edge hedge
    obtain ⟨source, hsource, hids, hstart⟩ := linkedRelations_source hlinked
    obtain ⟨hcontext, hvalues⟩ := hsame ⟨source, hsource⟩ hids ⟨ref, href⟩
    obtain ⟨values, hvalues', hmake⟩ := bind_eq_ok.mp href
    cases hvalues.symm.trans hvalues'
    have hsame : source = ref := by
      have hmake' : EntityRef.make py (target.labels candidate) (semanticContext candidate)
        target.identity = .ok ref := hmake
      rw [hcontext] at hmake'
      exact Except.ok.inj (hsource.symm.trans hmake')
    have hkey : edge.source.key = ref.key := by rw [hstart edge hedge, hsame]
    exact ⟨hkey, admitEdge_own hkey⟩

/-! ### A candidate with a topic -/

section Sample

/-- The scores of a decision. -/
def sampleScores : DecisionScores := ⟨.one, .one, .one⟩

/-- A candidate as it is made from a claim, with its topic in the context. -/
def topicCandidate : DreamCandidate where
  entityName := "routing_lesson"
  entityType := "lesson"
  summary := "a lesson"
  content := "a lesson"
  evidenceIds := [(Uuid.ofNat 1).text]
  confidence := .one
  classification := "new_knowledge"
  context := [("task_id", .str "run:1:durable_lesson"), ("topic", .str "routing")]

/-- A request with one episode of one domain. -/
def topicRequest : DreamReasoningRequest :=
  sampleRequest [{ sampleEvidence (Uuid.ofNat 1).text with metadata := [("domain", .str "ops")] }]

/-- Where the candidate is stored. -/
def topicTarget : StoreTarget where
  domain := "ops"
  topic := "routing"
  tenant := none
  user := none
  agent := none
  project := none
  verification := .derived
  evidenceIds := [.ofNat 1]

/-- Similar Knowledge of the domain. -/
def topicMatch : Match :=
  knowledgeMatch { topicTarget.labels topicCandidate with entityName := "b" } topicTarget.identity

/-- The plan of the candidate is to store it there. -/
def plansTarget : WritePlan → Bool
  | .settled _    => false
  | .store target =>
    target.domain = "ops" && target.topic = "routing" && target.identity = {} &&
      target.verification = .derived && target.evidenceIds = [.ofNat 1]

lemma eq_of_plansTarget {plan : Except Exc WritePlan}
    (h : plan.toOption.any plansTarget = true) : plan = .ok (.store topicTarget) := by
  obtain ⟨plan, hplan, htarget⟩ := (Option.any_eq_true _ _).mp h
  rw [toOption_eq_some.mp hplan]
  cases plan with
  | settled result => cases htarget
  | store target =>
    obtain ⟨domain, topic, tenant, user, agent, project, verification, ids⟩ := target
    simp only [plansTarget, StoreTarget.identity, Bool.and_eq_true, decide_eq_true_eq,
      IdentityValues.mk.injEq] at htarget
    obtain ⟨⟨⟨⟨rfl, rfl⟩, rfl, rfl, rfl, rfl, -⟩, rfl⟩, rfl⟩ := htarget
    rfl

/-- The bundle that is built for the candidate has an edge that the store refuses as foreign: the
store has the topic in the context of the entity. -/
theorem topic_context_is_foreign :
    planWrite Runtime.ascii none topicRequest topicCandidate .promote [] 0 none =
        .ok (.store topicTarget) ∧
      (∃ (bundle : RelationBundle .ascii) (ref : EntityRef .ascii),
        linkedRelations none topicTarget topicCandidate (.ofMicros 0) (.ok [topicMatch]) =
          some bundle ∧
        storedEntity none (candidateArgs topicTarget topicCandidate sampleScores "run"
          (some bundle)) = .ok ref ∧
        ∃ edge ∈ bundle.edges, admitEdge none ref edge = .error foreignSource) ∧
      ¬ LinksOwnEntity (none : Option (CallerAuthority .ascii)) topicTarget topicCandidate
        sampleScores "run" := by
  have hsource : (sourceRef Runtime.ascii topicTarget topicCandidate).toOption.isSome = true := by
    decide +kernel
  have hstored : (storedEntity (none : Option (CallerAuthority .ascii)) (candidateArgs topicTarget
      topicCandidate sampleScores "run" (none : Option (RelationBundle .ascii)))).toOption.isSome =
        true := by
    decide +kernel
  obtain ⟨source, hsource⟩ := Option.isSome_iff_exists.mp hsource
  obtain ⟨ref, href⟩ := Option.isSome_iff_exists.mp hstored
  rw [toOption_eq_some] at hsource href
  have hname : CanonicalLabel "b" := by decide
  obtain ⟨bundle, hlinked, edge, hedge, hstart⟩ := linkedRelations_knowledge
    (fun _ _ _ _ => id) hsource (by simp [topicTarget]) hname (by decide) none (.ofMicros 0)
  have hforeign : edge.source.key ≠ ref.key := by
    intro hkey
    rw [hstart] at hkey
    obtain ⟨hcontext, -⟩ := context_of_key_eq (fun _ _ _ _ => id) hsource href hkey
    simp [semanticContext, topicCandidate] at hcontext
  refine ⟨eq_of_plansTarget (by decide +kernel), ⟨bundle, ref, hlinked, href, edge, hedge, ?_⟩,
    fun hlinks => hforeign (hlinks _ _ bundle ref hlinked href edge hedge).1⟩
  rw [admitEdge, require, if_neg hforeign]
  rfl

/-- The theorem on the same candidate without its topic, which is linked under its own entity. -/
theorem linksOwnEntity_iff_sample :
    (LinksOwnEntity (none : Option (CallerAuthority .ascii)) topicTarget
        { topicCandidate with context := [] } sampleScores "run" ↔
      SameIdentity (none : Option (CallerAuthority .ascii)) topicTarget
        { topicCandidate with context := [] } sampleScores "run") ∧
    SameIdentity (none : Option (CallerAuthority .ascii)) topicTarget
      { topicCandidate with context := [] } sampleScores "run" :=
  ⟨linksOwnEntity_iff (fun _ _ _ _ => id) none _ _ _ _, fun _ _ _ => ⟨rfl, rfl⟩⟩

end Sample

end CyberBrain.Dreaming
