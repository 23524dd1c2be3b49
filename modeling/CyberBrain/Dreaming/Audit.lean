import CyberBrain.Dreaming.Gate
import CyberBrain.Foundation.Program
import CyberBrain.Foundation.Table
import CyberBrain.Tenancy.Durable

/-!
# The audit of Dream runs

`DreamRunAuditStore` keeps for every run the decision on each candidate, the resolution of each
reviewed candidate and the outcome of each write. A review is inserted once; a write is recorded over
whatever was recorded before.

Requests, candidates and snapshots are kept as the values that their JSON stands for.
-/

namespace CyberBrain.Dreaming

open Program Python Tenancy

variable {py : Runtime}

/-! ### Rows -/

inductive RunStatus
  | processing
  | evaluated
  | failed
  deriving DecidableEq, Repr

/-- A row of `dream_runs`. -/
structure DreamRunRow where
  id : String
  sessionId : String
  requestId : String
  status : RunStatus
  inputEvidenceIds : List String
  request : DreamReasoningRequest
  candidateCount : ℕ := 0
  createdAt : Instant
  completedAt : Option Instant := none
  authority : Option Json

/-- The primary key of a candidate: its run and its index. -/
abbrev CandidateKey := String × ℤ

/-- A row of `dream_candidate_decisions`. -/
structure DecisionRow where
  key : CandidateKey
  candidate : DreamCandidate
  decision : PromotionDecision
  reasonerConfidence : Binary64
  evidenceStrength : ℚ
  promotionConfidence : ℚ
  evidenceIds : List String
  reasons : List String
  createdAt : Instant

inductive DreamWriteStatus
  | written
  | skippedNotPromoted
  | blockedMetadata
  | blockedEvidenceId
  deriving DecidableEq, Repr

/-- What `Evolution.store` returned for a candidate. -/
structure StoreOutcome where
  outcome : Knowledge.EvolutionOutcome
  knowledgeId : Uuid
  previousId : Option Uuid := none
  deriving DecidableEq

structure DreamWriteResult where
  candidateIndex : ℤ
  status : DreamWriteStatus
  reason : String
  evolution : Option StoreOutcome := none
  deriving DecidableEq

/-- A row of `dream_candidate_writes`. -/
structure WriteRow where
  key : CandidateKey
  status : DreamWriteStatus
  reason : String
  evolutionOutcome : Option Knowledge.EvolutionOutcome
  knowledgeId : Option Uuid
  previousKnowledgeId : Option Uuid
  createdAt : Instant

/-- A row of `dream_candidate_reviews`. -/
structure ReviewRow where
  key : CandidateKey
  resolution : String
  reviewer : String
  reason : Option String
  createdAt : Instant

/-- The tables of the audit. -/
structure AuditStore where
  runs : Table DreamRunRow.id := .empty _
  decisions : Table DecisionRow.key := .empty _
  writes : Table WriteRow.key := .empty _
  reviews : Table ReviewRow.key := .empty _

namespace AuditStore

/-! ### Runs -/

section Calls

variable (bound : Option (CallerAuthority py)) (runId : String)

/-- `assert_visible`. -/
def assertVisible (store : AuditStore) : Except Exc Unit := do
  let row ← orRaise (store.runs.find? runId) (.keyError runId)
  let visible ← snapshotVisible bound row.authority
  require (visible = true) (.keyError runId)

/-- `get_by_request`. -/
def getByRequest (requestId : String) (store : AuditStore) : Except Exc DreamRunRow := do
  let row ← orRaise (store.runs.rows.find? (·.requestId = requestId)) (.keyError requestId)
  let visible ← snapshotVisible bound row.authority
  require (visible = true) (.keyError requestId)
  pure row

/-- The insertion of `start`, which passes over a request that has a run. -/
def insertRun (now : Instant) (request : DreamReasoningRequest) (store : AuditStore) :
    Except Exc AuditStore :=
  if store.runs.rows.any (·.requestId = request.requestId) then pure store
  else if (store.runs.find? runId).isSome then
    -- SQLite's integrity error
    .error (.runtimeError "UNIQUE constraint failed: dream_runs.id")
  else
    pure { store with
      runs := store.runs.upsert
        { id := runId, sessionId := request.sessionId, requestId := request.requestId
          status := .processing
          inputEvidenceIds :=
            sortTexts ((request.evidenceByTopic.flatMap Prod.snd).map (·.id)).dedup
          request := request, createdAt := now, authority := some (authoritySnapshot bound) } }

/-- `start`. -/
def start (now : Instant) (request : DreamReasoningRequest) : Program AuditStore Exc DreamRunRow :=
  fun store =>
    match insertRun bound runId now request store with
    | .error e  => (.error e, store)
    | .ok store => (getByRequest bound request.requestId store, store)

/-- The row of a decision. -/
def decisionRow (now : Instant) (candidate : DreamCandidate) (d : CandidateGateResult) :
    DecisionRow where
  key := (runId, d.candidateIndex)
  candidate := candidate
  decision := d.decision
  reasonerConfidence := d.reasonerConfidence
  evidenceStrength := d.evidenceStrength
  promotionConfidence := d.promotionConfidence
  evidenceIds := d.evidenceIds
  reasons := d.reasons
  createdAt := now

/-- `complete`, in one transaction. -/
def complete (now : Instant) (result : DreamReasoningResult) (gate : DreamGateResult) :
    Program AuditStore Exc Unit :=
  .atomically fun store => do
    assertVisible bound runId store
    let rows ← gate.candidates.mapM fun d => do
      let candidate ← orRaise result.candidates[d.candidateIndex]?
        (.valueError "list index out of range")
      pure (decisionRow runId now candidate d)
    pure ((), { store with
      decisions := rows.foldl Table.upsert store.decisions
      runs := store.runs.modify runId (fun row =>
        { row with status := .evaluated, candidateCount := result.candidates.length
                   completedAt := some now }) fun _ h => h })

/-- `mark_failed`. -/
def markFailed (now : Instant) : Program AuditStore Exc Unit :=
  .atomically fun store => do
    assertVisible bound runId store
    pure ((), { store with
      runs := store.runs.modify runId (fun row =>
        { row with status := .failed, completedAt := some now }) fun _ h => h })

/-- `request_snapshot`. -/
def requestSnapshot (store : AuditStore) : Except Exc DreamReasoningRequest := do
  assertVisible bound runId store
  let row ← orRaise (store.runs.find? runId) (.keyError runId)
  pure row.request

/-! ### Candidates -/

variable (index : ℤ)

/-- `decision`. -/
def decision (store : AuditStore) : Except Exc DecisionRow := do
  assertVisible bound runId store
  orRaise (store.decisions.find? (runId, index)) (.keyError (runId ++ ", " ++ toString index))

/-- `write`. -/
def write (store : AuditStore) : Except Exc (Option WriteRow) := do
  assertVisible bound runId store
  pure (store.writes.find? (runId, index))

/-- `record_write`. -/
def recordWrite (now : Instant) (result : DreamWriteResult) : Program AuditStore Exc Unit :=
  .atomically fun store => do
    assertVisible bound runId store
    pure ((), { store with
      writes := store.writes.upsert
        { key := (runId, index), status := result.status, reason := result.reason
          evolutionOutcome := result.evolution.map (·.outcome)
          knowledgeId := result.evolution.map (·.knowledgeId)
          previousKnowledgeId := result.evolution.bind (·.previousId), createdAt := now } })

/-- `review_resolution`. -/
def reviewResolution (store : AuditStore) : Except Exc (Option ReviewRow) := do
  assertVisible bound runId store
  pure (store.reviews.find? (runId, index))

/-- The checks of `resolve_review` up to its first query. -/
def checkDecision (resolution reviewer : String) (store : AuditStore) : Except Exc Unit := do
  assertVisible bound runId store
  require (resolution ∈ ["approved", "rejected"])
    (.valueError "review resolution must be approved or rejected")
  require (strip reviewer ≠ "") (.valueError "reviewer must not be empty")
  let row ← orRaise (store.decisions.find? (runId, index))
    (.keyError (runId ++ ", " ++ toString index))
  require (row.decision = .review) (.valueError "only review candidates can be manually resolved")

/-- The second query of `resolve_review`. -/
def checkUnresolved (store : AuditStore) : Except Exc Unit :=
  require ((store.reviews.find? (runId, index)).isNone)
    (.valueError "review candidate is already resolved")

/-- The insertion of `resolve_review`. -/
def insertReview (now : Instant) (resolution reviewer : String) (reason : Option String) :
    Program AuditStore Exc Unit :=
  .atomically fun store => do
    -- SQLite's integrity error
    require ((store.reviews.find? (runId, index)).isNone)
      (.runtimeError "UNIQUE constraint failed: dream_candidate_reviews")
    pure ((), { store with
      reviews := store.reviews.upsert
        { key := (runId, index), resolution, reviewer := strip reviewer, reason
          createdAt := now } })

end Calls

end AuditStore

end CyberBrain.Dreaming
