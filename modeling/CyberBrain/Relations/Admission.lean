import CyberBrain.Relations.Index
import CyberBrain.Tenancy.Runtime

/-!
# Admission of relations

Explicit assertions are admitted when their endpoints and their evidence are visible to the caller.
An assertion that is reviewed needs a caller with review authority.
-/

namespace CyberBrain.Relations

open Python Schemas Tenancy

variable {py : Runtime}

/-- The caller may review. -/
def CanReview (bound : Option (CallerAuthority py)) : Prop :=
  ∃ caller ∈ bound, .adminReview ∈ caller.grant.operations

instance (bound : Option (CallerAuthority py)) : Decidable (CanReview bound) :=
  decidable_of_iff (∃ caller ∈ bound.toList, .adminReview ∈ caller.grant.operations) (by
    simp [CanReview])

/-- `require_review_authority`. -/
def requireReviewAuthority (bound : Option (CallerAuthority py)) : Except Exc Unit :=
  require (CanReview bound)
    (.configurationError "relation review requires authenticated admin_review authority")

/-- `_partition_conditions`. -/
def scopeFilter (scope : RelationScope py) (includeSession : Bool) : Filter :=
  (scope.items.filter fun kv => kv.1 ≠ "session_id" || includeSession).map fun kv =>
    Condition.optionalText kv.1 kv.2

/-- `PointRepository.retrieve` with a filter. -/
def retrieve {ρ : Type} {id : ρ → Uuid} (points : Table id) (fields : ρ → Fields) (key : Uuid)
    (filter : Filter) : Option ρ :=
  (points.find? key).filter fun r => filter.accepts (fields r)

/-- `target_filter`. -/
def targetFilter (source : EntityRef py) (plan : Option (EnforcementPlan py)) : Filter :=
  scopeFilter source.scope true ++ scopeConditions plan ++
    [.field (.matchValue "status" (.str "active")),
      .should [.matchValue "record_class" (.str "knowledge"), .isEmpty "record_class"],
      .should [.matchValue "ordinary_recall" (.bool true), .isEmpty "ordinary_recall"]]

/-- `historical_target_filter`. -/
def historicalTargetFilter (source : EntityRef py) (plan : Option (EnforcementPlan py)) : Filter :=
  scopeFilter source.scope true ++ scopeConditions plan ++
    [.field (.matchValue "record_class" (.str "knowledge"))]

/-- `evidence_filter`. -/
def evidenceFilter (source : EntityRef py) (plan : Option (EnforcementPlan py))
    (recordType : EvidenceType) : Filter :=
  scopeFilter source.scope source.scope.sessionId.isSome ++ scopeConditions plan ++
    .field (.matchValue "record_type" (.str recordType.text)) ::
    (if recordType = .knowledge then [.field (.matchValue "record_class" (.str "knowledge"))] else [])

def unavailable : Exc := .configurationError "relation endpoint or evidence unavailable"

/-- The loop over the targets: the record is visible and has the asserted identity. -/
def admitTarget (source : EntityRef py) (plan : Option (EnforcementPlan py)) (seen : Collection py)
    (edge : RelationEdge py) : Except Exc Unit := do
  let filter := if edge.status = .rejected then historicalTargetFilter source plan
    else targetFilter source plan
  let target ← orRaise (retrieve seen KnowledgeRecord.fields edge.targetRecordId filter) unavailable
  match EntityRef.make py target.toEntityLabels target.context target.toIdentityValues with
  | .error _ => .error unavailable
  | .ok ref  => require (ref.key = edge.target.key) unavailable

/-- `ordinary_recall` of a piece of evidence, when it is visible. -/
def evidenceRecall (source : EntityRef py) (knowledgePlan episodePlan : Option (EnforcementPlan py))
    (seen : Collection py) (episodes : Option Episodes) (ref : EvidenceRef) : Option Bool :=
  match ref.recordType with
  | .knowledge =>
    (retrieve seen KnowledgeRecord.fields ref.id (evidenceFilter source knowledgePlan .knowledge)).map
      (·.ordinaryRecall)
  | .episode   =>
    (episodes.bind fun points =>
      retrieve points EpisodeRecord.fields ref.id (evidenceFilter source episodePlan .episode)).map
      (·.ordinaryRecall)

/-- The loop over the evidence of an edge. A reference that was read before is not read again in
the source; the repository would give the same record. -/
def admitEvidence (source : EntityRef py) (knowledgePlan episodePlan : Option (EnforcementPlan py))
    (seen : Collection py) (episodes : Option Episodes) (historical : Bool) (ref : EvidenceRef) :
    Except Exc Unit := do
  let recalled ← orRaise (evidenceRecall source knowledgePlan episodePlan seen episodes ref)
    unavailable
  require (historical = true ∨ recalled = true) unavailable

/-- The check of one edge before anything is read. -/
def admitEdge (bound : Option (CallerAuthority py)) (source : EntityRef py)
    (edge : RelationEdge py) : Except Exc Unit := do
  require (edge.source.key = source.key)
    (.configurationError "relation source differs from canonical Knowledge identity")
  if edge.status ≠ .proposed then requireReviewAuthority bound else .ok ()

/-- An edge of the bundle cites an episode. -/
def citesEpisodes (bundle : RelationBundle py) : Bool :=
  bundle.edges.any fun edge => edge.evidence.sorted.any fun ref => ref.recordType = .episode

/-- The plan under which episodes are read, when there are any. -/
def enforceEpisodes (bound : Option (CallerAuthority py)) :
    Bool → Except Exc (Option (EnforcementPlan py))
  | true  => enforceOperation bound .memoryGet fun _ => none
  | false => .ok none

/-- `admit_relations`, where `seen` is the Knowledge collection that it reads. -/
def admitRelations (bound : Option (CallerAuthority py)) (raw : RawRelations)
    (source : EntityRef py) (seen : Collection py) (episodes : Option Episodes) :
    Except Exc (RelationBundle py) := do
  let bundle ← (RelationBundle.validate py raw).mapError fun _ =>
    .configurationError "invalid relations schema or assertion"
  forM bundle.edges (admitEdge bound source)
  let knowledgePlan ← enforceOperation bound .knowledgeGet fun _ => none
  let episodePlan ← enforceEpisodes bound (citesEpisodes bundle)
  require (citesEpisodes bundle = false ∨ episodes.isSome)
    (.configurationError "episodic relation evidence repository is not configured")
  forM bundle.edges fun edge => do
    admitTarget source knowledgePlan seen edge
    forM edge.evidence.sorted
      (admitEvidence source knowledgePlan episodePlan seen episodes (edge.status = .rejected))
  pure bundle

/-- Without review authority, only proposals are admitted. -/
theorem admitRelations_proposed {bound : Option (CallerAuthority py)} {raw : RawRelations}
    {source : EntityRef py} {seen : Collection py} {episodes : Option Episodes}
    {bundle : RelationBundle py} (hreview : ¬ CanReview bound)
    (h : admitRelations bound raw source seen episodes = .ok bundle) :
    ∀ edge ∈ bundle.edges, edge.status = .proposed := by
  obtain ⟨valid, -, h⟩ := bind_eq_ok.mp h
  obtain ⟨_, hedges, h⟩ := bind_eq_ok.mp h
  obtain ⟨knowledgePlan, -, h⟩ := bind_eq_ok.mp h
  obtain ⟨episodePlan, -, h⟩ := bind_eq_ok.mp h
  obtain ⟨-, -, h⟩ := bind_eq_ok.mp h
  obtain ⟨-, -, h⟩ := bind_eq_ok.mp h
  cases h
  intro edge hedge
  obtain ⟨_, -, hstatus⟩ := bind_eq_ok.mp (forM_eq_ok.mp hedges edge hedge)
  by_contra hne
  rw [if_pos hne, requireReviewAuthority, require_eq_ok] at hstatus
  exact hreview hstatus

end CyberBrain.Relations
