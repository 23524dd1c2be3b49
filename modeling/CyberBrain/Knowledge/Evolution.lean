import CyberBrain.Core.Content
import CyberBrain.Foundation.Except
import CyberBrain.Knowledge.Repository
import CyberBrain.Relations.Admission

/-!
# Knowledge evolution

`KnowledgeEvolutionService` stores versions of Knowledge. A new version of a record is staged as a
deprecated record, its predecessor is superseded, and the new version is activated: three writes
with a possible crash between any two. A later call recovers what a crash left.
-/

namespace CyberBrain.Knowledge

open Program Python Relations Schemas Tenancy

variable {py : Runtime}

/-! ### Identities -/

/-- `identity_values`: the identity fields and the record class. -/
@[ext] structure Partition extends IdentityValues where
  recordClass : KnowledgeRecordClass
  deriving DecidableEq

/-- The arguments that name a Knowledge entity. -/
structure Subject extends EntityLabels where
  context : Context
  partition : Partition

/-- A canonical identity, with the context up to Python's equality. -/
@[ext] structure Identity extends EntityLabels where
  context : PyValue
  partition : Partition
  deriving DecidableEq

def Subject.identity (s : Subject) : Identity :=
  { s with context := (Json.obj s.context).value }

/-- The entity that a record is about. -/
def subjectOf (r : KnowledgeRecord py) : Subject where
  toEntityLabels := r.toEntityLabels
  context := r.context
  partition := { r.toIdentityValues with recordClass := r.recordClass }

abbrev identityOf (r : KnowledgeRecord py) : Identity := (subjectOf r).identity

/-- The items of `identity_values`. -/
def Partition.items (p : Partition) : List (String × Json) :=
  (p.toIdentityValues.items.map fun kv => (kv.1, Json.ofText? kv.2)) ++
    [("record_class", .str p.recordClass.text)]

variable (py) in
/-- `_identity_key`. -/
def identityKey (s : Subject) : String :=
  String.intercalate "|" [py.lower (strip s.domain), py.lower (strip s.topic),
    py.lower (strip s.entityType), py.lower (strip s.entityName),
    String.ofList (reprPairs py (sortItems s.context)),
    String.ofList (reprPairs py (sortItems s.partition.items))]

/-! ### Filters -/

def labelConditions (labels : EntityLabels) : Filter :=
  labels.items.map fun kv => .field (.matchValue kv.1 (.str kv.2))

/-- `_partition_conditions`. -/
def partitionConditions (p : Partition) : Filter :=
  (p.toIdentityValues.items.map fun kv => Condition.optionalText kv.1 kv.2) ++
    [if p.recordClass = .knowledge then
      .should [.matchValue "record_class" (.str "knowledge"), .isEmpty "record_class"]
    else .field (.matchValue "record_class" (.str p.recordClass.text))]

/-- The value of `_evolution_state` in a pending record. -/
def pendingActivation : String := "pending_activation"

def statusCondition (status : KnowledgeStatus) : Condition :=
  .field (.matchValue "status" (.str status.text))

def stateCondition : Condition :=
  .field (.matchValue "extensions._evolution_state" (.str pendingActivation))

/-- `_active_filter`. -/
def activeFilter (s : Subject) : Filter :=
  labelConditions s.toEntityLabels ++ statusCondition .active :: partitionConditions s.partition

/-- `_pending_filter`. -/
def pendingFilter (s : Subject) : Filter :=
  labelConditions s.toEntityLabels ++ statusCondition .deprecated :: stateCondition ::
    partitionConditions s.partition

/-- `_same_partition`. -/
def samePartition (r : KnowledgeRecord py) (p : Partition) : Bool := (subjectOf r).partition = p

/-- `payload.get("context", {}) == context`. -/
def sameContext (r : KnowledgeRecord py) (context : Context) : Bool :=
  (Json.obj r.context).value = (Json.obj context).value

/-- `_pending_state(point) == _PENDING`. -/
def isPendingState (r : KnowledgeRecord py) : Bool :=
  match r.extensions.evolutionState with
  | some (.str state) => state = pendingActivation
  | _                 => false

/-! ### Writes -/

/-- The payload that marks a record as superseded. -/
def supersede (next : Uuid) (now : Instant) (r : KnowledgeRecord py) : KnowledgeRecord py :=
  { r with status := .superseded, supersededById := some next, updatedAt := now }

/-- The payload that activates a staged record. -/
def activate (extensions : Extensions py) (now : Instant) (r : KnowledgeRecord py) :
    KnowledgeRecord py :=
  { r with status := .active, extensions := extensions, updatedAt := now }

/-- `_staging_extensions`. -/
def stagingExtensions (extensions : Extensions py) (previousId : Option Uuid) : Extensions py :=
  match previousId with
  | none    => extensions
  | some id => { extensions with evolutionState := some (.str pendingActivation)
                                 evolutionPreviousId := some (.str id.text) }

/-- `_committed_extensions`. -/
def committedExtensions (extensions : Extensions py) : Extensions py :=
  { extensions with evolutionState := some (.str "committed"), evolutionPreviousId := none }

section Recovery

variable (env : Environment py)

def supersedePoint (id next : Uuid) : Program (CallState py) Exc Unit :=
  env.setPayload id (supersede next) fun _ _ h => h

/-- `_activate_staged`. -/
def activateStaged (staged : KnowledgeRecord py) : Program (CallState py) Exc Unit :=
  env.setPayload staged.id (activate (committedExtensions staged.extensions)) fun _ _ h => h

/-! ### Recovery -/

def multiplePending : String :=
  "multiple pending evolutions exist for canonical entity identity"

def multipleActive : String := "multiple active versions exist for canonical entity identity"

def versionChanged : String := "Knowledge source version changed; reload before review"

def contextChanged : String := "relation entity context changed; explicit migration required"

/-- `not value` in Python. -/
def isFalsy : Json → Bool
  | .null      => true
  | .bool b    => !b
  | .int i     => i = 0
  | .float x   => x.value = 0
  | .str s     => s = ""
  | .arr vs    => vs.isEmpty
  | .obj items => items.isEmpty

variable (py) in
/-- `str(value)`. -/
def pyStr : Json → String
  | .str s => s
  | v      => String.ofList ((reprDialect py).print v)

/-- The predecessor that a pending record names. -/
def previousIdOf (r : KnowledgeRecord py) : Except Exc Uuid := do
  let raw ← orRaise (r.extensions.evolutionPreviousId.filter fun v => !isFalsy v)
    (.conflictError "pending evolution is missing previous knowledge id")
  orRaise (Uuid.parse (pyStr py raw)) (.valueError "badly formed hexadecimal UUID string")

/-- The part of `_recover_pending` that settles the predecessor. -/
def settlePrevious (point previous : KnowledgeRecord py) : Program (CallState py) Exc Unit :=
  if previous.status = .active then
    if previous.supersededById = none ∨ previous.supersededById = some point.id then
      supersedePoint env previous.id point.id
    else raise (.conflictError "active previous record points to a different successor")
  else if previous.status = .superseded ∧ previous.supersededById = some point.id then pure ()
  else raise (.conflictError "pending evolution previous record is in an inconsistent state")

/-- The part of `_recover_pending` for the one pending record. -/
def recoverPoint (partition : Partition) (points : Collection py) (point : KnowledgeRecord py) :
    Program (CallState py) Exc Unit := do
  let previousId ← ofExcept (previousIdOf point)
  let previous ← ofExcept (orRaise (points.find? previousId)
    (.conflictError "pending evolution previous knowledge record is missing"))
  ofExcept (require (samePartition previous partition = true)
    (.conflictError "pending evolution predecessor scope differs"))
  settlePrevious env point previous
  activateStaged env point

/-- What the pending scroll of `_recover_pending` finds. -/
def pendingPoints (s : Subject) (points : Collection py) : List (KnowledgeRecord py) :=
  (env.repository.scroll points (pendingFilter s) 20).filter fun r =>
    sameContext r s.context && isPendingState r && samePartition r s.partition

/-- `_recover_pending`. -/
def recoverPending (s : Subject) : Program (CallState py) Exc Unit := do
  let points ← Environment.points
  match pendingPoints env s points with
  | []      => pure ()
  | [point] => recoverPoint env s.partition points point
  | _       => raise (.conflictError multiplePending)

end Recovery

/-! ### Reconciliation -/

/-- The strict filter of `reconcile_pending`. -/
def allPendingFilter : Filter := [statusCondition .deprecated, stateCondition]

/-- The entity of a pending record, with its labels stripped. -/
def strippedSubject (r : KnowledgeRecord py) : Subject :=
  { subjectOf r with domain := strip r.domain, topic := strip r.topic
                     entityType := strip r.entityType, entityName := strip r.entityName }

/-- The loop of `reconcile_pending` that groups the pending records by identity key. -/
def groupPending : List String → List (KnowledgeRecord py) → Except Exc (List Subject)
  | _, []         => .ok []
  | keys, r :: rs => do
    let s := strippedSubject r
    require (∀ kv ∈ s.items, kv.2 ≠ "")
      (.conflictError "pending evolution is missing canonical identity fields")
    let key := identityKey py s
    require (key ∉ keys) (.conflictError multiplePending)
    let rest ← groupPending (key :: keys) rs
    pure (s :: rest)

/-- The pending records that `reconcile_pending` reads. -/
def allPending (env : Environment py) (maxPending : ℕ) (points : Collection py) :
    List (KnowledgeRecord py) :=
  (env.repository.scroll points allPendingFilter (maxPending + 1)).filter fun r =>
    r.status = .deprecated && isPendingState r

/-- `reconcile_pending`. -/
def reconcilePending (bound : Option (CallerAuthority py)) (env : Environment py) (maxPending : ℤ) :
    Program (CallState py) Exc ℕ := do
  ofExcept (require (∀ caller ∈ bound, caller.grant.scope.asDict = [])
    (.configurationError "global reconciliation is unavailable to scoped callers"))
  ofExcept (require (1 ≤ maxPending) (.valueError "max_pending must be >= 1"))
  let points ← Environment.points
  let pending := allPending env maxPending.toNat points
  ofExcept (require (pending.length ≤ maxPending.toNat)
    (.conflictError "pending evolution reconciliation limit exceeded"))
  let subjects ← ofExcept (groupPending [] pending)
  forEach (recoverPending env) subjects
  pure subjects.length

/-! ### Storing -/

/-- The extensions that a caller passes. -/
structure ExtensionsInput where
  relations : Option RawRelations := none
  relationIndex : Option Json := none
  evolutionState : Option Json := none
  evolutionPreviousId : Option Json := none
  other : List (String × Json) := []

/-- The arguments of `store`. -/
structure StoreArgs extends EntityLabels, IdentityValues where
  content : String
  summary : Option String := none
  recordClass : KnowledgeRecordClass := .knowledge
  identityTrust : IdentityTrust := .unspecified
  ordinaryRecall : Bool := true
  retentionDirective : RetentionDirective := .default
  changeReason : Option String := none
  importance : Option String := none
  verification : Verification := .unverified
  confidence : Option Binary64 := none
  provenanceType : Option String := none
  source : Option String := none
  evidenceIds : List Uuid := []
  origin : Origin := .ingestion
  dreamRunId : Option String := none
  negativeKnowledge : Bool := false
  context : Context := []
  extensions : ExtensionsInput := {}
  forceEvolution : Bool := false
  expectedPreviousId : Option Uuid := none

/-- The collaborators of the service: the embedding provider, which gives a vector or the message
of an `EmbeddingError`, and the secret scanner, which gives the kinds of secrets that it finds in
the texts, the context and the extensions of a call. -/
structure Service where
  embed : String → Except String (List Binary64)
  embeddingVersion : String
  scan : List (Option String) → Context → ExtensionsInput → List String

/-- `assert_safe`. -/
def Service.assertSafe (service : Service) (texts : List (Option String)) (context : Context)
    (extensions : ExtensionsInput) : Except Exc Unit :=
  let kinds := (FrozenSet.ofList (service.scan texts context extensions)).sorted
  require (kinds = []) (.sensitiveDataError
    ("sensitive data rejected before ingestion: " ++ String.intercalate ", " kinds))

/-- The vector of a text. -/
def Service.vector (service : Service) (text : String) : Except Exc (List Binary64) :=
  (service.embed text).mapError .embeddingError

variable (py) in
/-- A call of `store`: its caller and arguments, the stores that the admission of relations reads
before the guard, what the call meets under the guard, and the id that it draws. -/
structure StoreCall extends Environment py where
  bound : Option (CallerAuthority py) := none
  args : StoreArgs
  seen : Collection py := Table.empty _
  episodes : Option Episodes := none
  newId : Uuid

inductive EvolutionOutcome
  | insertNew
  | noChange
  | evolve
  deriving DecidableEq, Repr

variable (py) in
structure EvolutionResult where
  outcome : EvolutionOutcome
  record : KnowledgeRecord py
  previousId : Option Uuid := none

variable (py) in
/-- What `store` has computed when it enters its guarded section. -/
structure Prepared where
  subject : Subject
  content : String
  digest : String
  relations : Option (EntityRef py × RelationBundle py)
  extensions : Extensions py

/-- The text of an identity field after scoping. -/
def scopedText (values : Fields) (d : IdentityDimension) : Option String :=
  match values d.field with
  | some (.str s) => some s
  | _             => none

/-- The scoped identity values of a call. -/
def scopedIdentity (bound : Option (CallerAuthority py)) (args : StoreArgs) :
    Except Exc IdentityValues := do
  let fields : Fields := fun key => (args.toIdentityValues.items.lookup key).map Json.ofText?
  let values ← scopedValues bound fields .knowledgeWrite
  .ok { tenant := scopedText values .tenant, user := scopedText values .user
        agent := scopedText values .agent, project := scopedText values .project
        sessionId := scopedText values .session }

/-- The admission of the relations that a call passes. -/
def admitArgs (call : StoreCall py) (values : IdentityValues) :
    Option RawRelations → Except Exc (Option (EntityRef py × RelationBundle py))
  | none     => .ok none
  | some raw => do
    require (call.args.recordClass = .knowledge)
      (.configurationError "relations require canonical Knowledge")
    let ref ← (EntityRef.make py call.args.toEntityLabels call.args.context values).mapError
      fun _ => .configurationError "invalid relation source identity"
    let bundle ← admitRelations call.bound raw ref call.seen call.episodes
    pure (some (ref, bundle))

/-- The part of `store` before its guarded section. -/
def prepare (service : Service) (call : StoreCall py) : Except Exc (Prepared py) := do
  let args := call.args
  let values ← scopedIdentity call.bound args
  let normalized ← normalizeContent args.content
  service.assertSafe
    [some normalized, args.summary, values.project, args.changeReason, args.source]
    args.context args.extensions
  require (args.extensions.relationIndex.isNone)
    (.configurationError "relation index is server-owned")
  let relations ← admitArgs call values args.extensions.relations
  let digest ← contentHash py normalized
  pure {
    subject :=
      { args.toEntityLabels with context := args.context
                                 partition := { values with recordClass := args.recordClass } }
    content := normalized
    digest
    relations
    extensions :=
      { relations := relations.map (·.2), evolutionState := args.extensions.evolutionState
        evolutionPreviousId := args.extensions.evolutionPreviousId
        other := args.extensions.other } }

section Store

variable (service : Service) (call : StoreCall py) (p : Prepared py)

/-- What the active lookup of `store` finds. -/
def activePoints (vector : List Binary64) (points : Collection py) : List (KnowledgeRecord py) :=
  (call.repository.search points vector 10 (activeFilter p.subject)).filter fun r =>
    sameContext r p.subject.context && samePartition r p.subject.partition

/-- The relations of the previous version. -/
def previousRelations (previous : Option (KnowledgeRecord py)) : RelationBundle py :=
  (previous.map (·.bundle)).getD (.empty py)

/-- `same_content`. -/
def sameContent (previous : Option (KnowledgeRecord py)) : Bool :=
  previous.any (·.contentHash = p.digest)

/-- `relations_changed`. -/
def relationsChanged (previous : Option (KnowledgeRecord py)) : Bool :=
  match p.relations with
  | some (_, bundle) => bundle.digest ≠ (previousRelations previous).digest
  | none             => (!sameContent p previous || call.args.forceEvolution) &&
    !(previousRelations previous).edges.isEmpty

/-- The check that the relations of the previous version are about the same entity. -/
def checkEntity (previous : Option (KnowledgeRecord py)) : Except Exc Unit :=
  match previous, p.relations with
  | some r, some (ref, _) =>
    if r.bundle.edges ≠ [] then do
      let entity ← EntityRef.make py r.toEntityLabels r.context r.toIdentityValues
      require (entity.key = ref.key) (.conflictError contextChanged)
    else .ok ()
  | _, _ => .ok ()

/-- The check that reviewed relations change under review authority only. -/
def checkReview (previous : Option (KnowledgeRecord py)) : Except Exc Unit :=
  if relationsChanged call p previous ∧
      ∃ edge ∈ (previousRelations previous).edges, edge.status ≠ .proposed then
    requireReviewAuthority call.bound
  else .ok ()

/-- `base_extensions`. -/
def baseExtensions : Except Exc (Extensions py) :=
  if p.subject.partition.recordClass = .knowledge then do
    let index ← projectRelations p.subject.toEntityLabels p.subject.context
      p.subject.partition.toIdentityValues (p.extensions.relations.getD (.empty py))
    pure { p.extensions with relationIndex := some index }
  else .ok p.extensions

/-- The validated confidence. -/
def checkConfidence : Option Binary64 → Except Exc (Option Confidence)
  | none   => .ok none
  | some x =>
    if h : 0 ≤ x.value ∧ x.value ≤ 1 then .ok (some ⟨x, h⟩)
    else .error (.valueError "confidence must be between 0 and 1")

/-- The record that `store` writes. -/
def buildRecord (previous : Option (KnowledgeRecord py)) (base : Extensions py)
    (confidence : Option Confidence) (now : Instant) : KnowledgeRecord py :=
  let args := call.args
  { toEntityLabels := p.subject.toEntityLabels
    toIdentityValues := p.subject.partition.toIdentityValues
    id := call.newId
    content := p.content
    summary := args.summary
    recordClass := p.subject.partition.recordClass
    identityTrust := args.identityTrust
    version := (previous.map (·.version)).getD 0 + 1
    status := if previous.isSome then .deprecated else .active
    supersedesId := previous.map (·.id)
    changeReason := args.changeReason
    importance := args.importance
    verification := args.verification
    confidence
    provenanceType := args.provenanceType
    source := args.source
    evidenceIds := args.evidenceIds
    origin := args.origin
    dreamRunId := args.dreamRunId
    negativeKnowledge := args.negativeKnowledge
    contentHash := p.digest
    embeddingVersion := some service.embeddingVersion
    ordinaryRecall := args.ordinaryRecall
    retentionDirective := args.retentionDirective
    context := p.subject.context
    extensions := stagingExtensions base (previous.map (·.id))
    createdAt := now
    updatedAt := now }

/-- `_commit_staged_evolution`. -/
def commitStagedEvolution (env : Environment py) (staged previous : KnowledgeRecord py) :
    Program (CallState py) Exc Unit := do
  ofExcept (require
    (previous.supersededById = none ∨ previous.supersededById = some staged.id)
    (.conflictError "previous knowledge already points to a different successor"))
  supersedePoint env previous.id staged.id
  activateStaged env staged

/-- The part of `store` that writes a new version. -/
def evolve (previous : Option (KnowledgeRecord py)) :
    Program (CallState py) Exc (EvolutionResult py) := do
  let now ← Program.reads fun s => call.clock s.writes
  let base ← ofExcept (baseExtensions p)
  let confidence ← ofExcept (checkConfidence call.args.confidence)
  let record := buildRecord service call p previous base confidence now
  let _ ← ofExcept (service.vector record.content)
  call.upsert record
  match previous with
  | none          => pure { outcome := .insertNew, record }
  | some previous => do
    commitStagedEvolution call.toEnvironment record previous
    pure {
      outcome := .evolve
      record := { record with status := .active, extensions := committedExtensions base }
      previousId := some previous.id }

/-- The part of `store` after its lookups. -/
def decideOutcome (previous : Option (KnowledgeRecord py)) :
    Program (CallState py) Exc (EvolutionResult py) := do
  ofExcept (require (∀ id ∈ call.args.expectedPreviousId, previous.map (·.id) = some id)
    (.conflictError versionChanged))
  ofExcept (checkEntity p previous)
  ofExcept (checkReview call p previous)
  match previous with
  | some r =>
    if sameContent p previous ∧ relationsChanged call p previous = false ∧
        call.args.forceEvolution = false then
      pure { outcome := .noChange, record := r, previousId := some r.id }
    else evolve service call p previous
  | none   => evolve service call p previous

/-- The guarded section of `store`. -/
def storeGuarded : Program (CallState py) Exc (EvolutionResult py) := do
  recoverPending call.toEnvironment p.subject
  let vector ← ofExcept (service.vector (p.subject.topic ++ " " ++ p.subject.entityName))
  let points ← Environment.points
  match activePoints call p vector points with
  | []         => decideOutcome service call p none
  | [previous] => decideOutcome service call p (some previous)
  | _          => raise (.conflictError multipleActive)

end Store

/-- `store`. -/
def store (service : Service) (call : StoreCall py) :
    Program (CallState py) Exc (EvolutionResult py) := do
  let p ← ofExcept (prepare service call)
  storeGuarded service call p

end CyberBrain.Knowledge
