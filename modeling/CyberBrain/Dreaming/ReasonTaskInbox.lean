import CyberBrain.Foundation.Except
import CyberBrain.Foundation.Program
import CyberBrain.Foundation.Table
import CyberBrain.ReasonerProvider.Contracts
import CyberBrain.Tenancy.Durable
import Mathlib.Data.Prod.Lex

/-!
# The reason task inbox

`DreamReasonTaskInbox` hands the tasks of a Dream run to MCP clients and keeps one result for each
task, from a client or from a fallback. Its methods are transactions over two tables.

A time is stored as its ISO text; it is kept here as the instant, and compared by its text wherever
the source compares texts. The stored request and result are kept as the values that their JSON
stands for. Arguments that pydantic validates come as the outcome of the validation.
-/

namespace CyberBrain.Dreaming

open Python ReasonerProvider Tenancy

/-! ### Tables -/

inductive TaskStatus
  | pending
  | claimed
  | completed
  | fallback
  deriving DecidableEq, Repr

/-- A row of `dream_reason_tasks`. -/
structure TaskRow where
  taskId : String
  requestId : String
  request : ReasonTaskRequest
  status : TaskStatus
  claimToken : Option String := none
  claimedBy : Option String := none
  leaseUntil : Option Instant := none
  deadlineAt : Instant
  result : Option ReasonTaskResult := none
  route : Option String := none
  createdAt : Instant
  updatedAt : Instant
  authority : Option Json

/-- A row of `dream_reason_runs`. -/
structure RunRow where
  requestId : String
  request : Json
  expectedTaskCount : ℕ
  deadlineAt : Instant
  createdAt : Instant
  updatedAt : Instant
  authority : Option Json
  retiredAt : Option Instant := none

structure Inbox where
  tasks : Table TaskRow.taskId := Table.empty _
  runs : Table RunRow.requestId := Table.empty _

def Inbox.task? (inbox : Inbox) (taskId : String) : Option TaskRow := inbox.tasks.find? taskId

def Inbox.run? (inbox : Inbox) (requestId : String) : Option RunRow := inbox.runs.find? requestId

/-- `UPDATE dream_reason_tasks SET … WHERE task_id=?`. -/
def Inbox.updateTask (inbox : Inbox) (taskId : String) (f : TaskRow → TaskRow)
    (hf : ∀ r, r.taskId = taskId → (f r).taskId = taskId) : Inbox :=
  { inbox with tasks := inbox.tasks.modify taskId f hf }

variable {py : Runtime}

/-! ### Checks -/

/-- `_assert_row_visible`. -/
def assertRowVisible (bound : Option (CallerAuthority py)) (authority : Option Json)
    (identity : String) : Except Exc Unit := do
  let visible ← snapshotVisible bound authority
  require (visible = true) (.keyError identity)

/-- `_assert_not_retired`. -/
def assertNotRetired (inbox : Inbox) (requestId : String) : Except Exc Unit :=
  require ((inbox.run? requestId).bind (·.retiredAt) = none)
    (.valueError "reason run has been retired; replay is not allowed")

variable (py) in
/-- `now + timedelta(seconds=float(wait_seconds))`. -/
def deadlineAfter (now : Instant) (waitSeconds : Binary64) : Except Exc Instant := do
  let delta ← orRaise (py.timedelta waitSeconds) (.overflowError "timedelta value out of range")
  orRaise (now.add? delta) (.overflowError "date value out of range")

/-! ### Registration -/

/-- The `ON CONFLICT` branch of `_upsert_task`: a completed task keeps its outcome. -/
def TaskRow.register (row : TaskRow) (request : ReasonTaskRequest) (requestId : String)
    (deadlineAt now : Instant) : TaskRow :=
  { row with
    requestId := requestId
    request := request
    status := if row.status = .completed then .completed else .pending
    deadlineAt := deadlineAt
    claimToken := if row.status = .completed then row.claimToken else none
    claimedBy := if row.status = .completed then row.claimedBy else none
    leaseUntil := if row.status = .completed then row.leaseUntil else none
    result := if row.status = .completed then row.result else none
    route := if row.status = .completed then row.route else none
    updatedAt := now }

/-- `_upsert_task`. -/
def upsertTask (bound : Option (CallerAuthority py)) (requestId : String) (deadlineAt now : Instant)
    (inbox : Inbox) (request : ReasonTaskRequest) : Except Exc Inbox :=
  match inbox.task? request.taskId with
  | none     =>
    let row : TaskRow :=
      { taskId := request.taskId, requestId, request, status := .pending, deadlineAt
        createdAt := now, updatedAt := now, authority := some (authoritySnapshot bound) }
    .ok { inbox with tasks := inbox.tasks.upsert row }
  | some row => do
    assertRowVisible bound row.authority request.taskId
    pure (inbox.updateTask request.taskId (fun r => r.register request requestId deadlineAt now)
      fun _ h => h)

/-- The upsert of the run row in `register_run`. -/
def upsertRun (bound : Option (CallerAuthority py)) (requestId : String) (request : Json)
    (taskCount : ℕ) (deadlineAt now : Instant) (inbox : Inbox) : Except Exc Inbox :=
  match inbox.run? requestId with
  | none     =>
    let row : RunRow :=
      { requestId, request, expectedTaskCount := taskCount, deadlineAt, createdAt := now
        updatedAt := now, authority := some (authoritySnapshot bound) }
    .ok { inbox with runs := inbox.runs.upsert row }
  | some row => do
    assertRowVisible bound row.authority requestId
    pure { inbox with runs := inbox.runs.modify requestId (fun r =>
      { r with request := request, expectedTaskCount := taskCount, deadlineAt := deadlineAt
               updatedAt := now }) fun _ h => h }

/-- `register_run`. -/
def registerRun (bound : Option (CallerAuthority py)) (now : Instant) (requestId : String)
    (request : Json) (tasks : Except Exc (List ReasonTaskRequest)) (waitSeconds : Binary64) :
    Program Inbox Exc Unit :=
  .atomically fun inbox => do
    let value := strip requestId
    require (value ≠ "") (.valueError "request_id must not be empty")
    require (0 ≤ waitSeconds.value) (.valueError "wait_seconds must be >= 0")
    let tasks ← tasks
    let ids := tasks.map (·.taskId)
    let duplicates := (FrozenSet.ofList (ids.filter fun id => 1 < ids.count id)).sorted
    require (duplicates = [])
      (.valueError ("duplicate reason task IDs in run: " ++ reprStrs py duplicates))
    let wrongRun := ((tasks.filter (·.requestId ≠ value)).map (·.taskId)).insertionSort (· ≤ ·)
    require (wrongRun = []) (.valueError ("reason tasks do not belong to request " ++
      String.ofList (reprStr py value) ++ ": " ++ reprStrs py wrongRun))
    let deadline ← deadlineAfter py now waitSeconds
    assertNotRetired inbox value
    let inbox ← upsertRun bound value request tasks.length deadline now inbox
    let inbox ← tasks.foldlM (upsertTask bound value deadline now) inbox
    pure ((), inbox)

variable (py) in
/-- The deadline of a published task. -/
def publishDeadline (now : Instant) (waitSeconds : Binary64) :
    Option Instant → Except Exc Instant
  | some deadline => .ok deadline
  | none          => deadlineAfter py now waitSeconds

/-- The run of a published task: `request_id or request.request_id`, stripped. -/
def publishRunId (request : ReasonTaskRequest) : Option String → String
  | some id => strip (if id ≠ "" then id else request.requestId)
  | none    => strip request.requestId

/-- `publish`. -/
def publish (bound : Option (CallerAuthority py)) (now : Instant)
    (request : Except Exc ReasonTaskRequest) (waitSeconds : Binary64) (requestId : Option String)
    (deadlineAt : Option Instant) : Program Inbox Exc Unit :=
  .atomically fun inbox => do
    require (0 ≤ waitSeconds.value) (.valueError "wait_seconds must be >= 0")
    let request ← request
    let deadline ← publishDeadline py now waitSeconds deadlineAt
    let runId := publishRunId request requestId
    require (runId ≠ "") (.valueError "request_id must not be empty")
    assertNotRetired inbox runId
    let inbox ← upsertTask bound runId deadline now inbox request
    pure ((), inbox)

/-! ### MCP clients -/

/-- The `WHERE` clause of `claim_next`: the task is open and nobody holds a current lease on it. -/
def TaskRow.claimable (row : TaskRow) (now : Instant) : Bool :=
  now.iso < row.deadlineAt.iso && (row.status = .pending || (row.status = .claimed &&
    row.leaseUntil.all fun lease => lease.iso ≤ now.iso))

structure ReasonTaskLease where
  task : ReasonTaskRequest
  claimToken : String
  claimedBy : String
  leaseUntil : Instant
  deadlineAt : Instant

variable (py) in
/-- The row that `claim_next` selects: the first open one that the caller sees. -/
def nextTask (clauses : List SnapshotClause) (now : Instant) (inbox : Inbox) : Option TaskRow :=
  let render v := String.ofList ((jsonDialect py).print v)
  ((inbox.tasks.rows.filter fun row =>
      row.claimable now && satisfies clauses render fun _ => row.authority).insertionSort fun a b =>
    toLex (a.createdAt.iso, a.taskId) ≤ toLex (b.createdAt.iso, b.taskId)).head?

/-- `claim_next`, with the token that it draws. -/
def claimNext (bound : Option (CallerAuthority py)) (now : Instant) (token : String)
    (claimedBy : String) (leaseSeconds : ℤ) : Program Inbox Exc (Option ReasonTaskLease) :=
  .atomically fun inbox => do
    let consumer := strip claimedBy
    require (consumer ≠ "") (.valueError "claimed_by must not be empty")
    require (30 ≤ leaseSeconds ∧ leaseSeconds ≤ 3600)
      (.valueError "lease_seconds must be between 30 and 3600")
    let leaseUntil ← orRaise (now.add? (leaseSeconds * 1000000))
      (.overflowError "date value out of range")
    let clauses ← snapshotSqlFilter bound "authority_json"
    match nextTask py clauses now inbox with
    | none     => pure (none, inbox)
    | some row => do
      assertRowVisible bound row.authority row.taskId
      if row.claimable now then
        pure (some { task := row.request, claimToken := token, claimedBy := consumer, leaseUntil
                     deadlineAt := row.deadlineAt },
          inbox.updateTask row.taskId (fun r =>
            { r with status := .claimed, claimToken := some token, claimedBy := some consumer
                     leaseUntil := some leaseUntil, updatedAt := now }) fun _ h => h)
      else pure (none, inbox)

/-- The completion of a task, by a client or a fallback. -/
def TaskRow.complete (row : TaskRow) (result : ReasonTaskResult) (route : String) (now : Instant) :
    TaskRow :=
  { row with status := .completed, result := some result, route := some route, updatedAt := now }

structure SubmitReply where
  taskId : String
  status : String
  route : String
  claims : List ReasonTaskClaim

/-- `submit`. -/
def submit (bound : Option (CallerAuthority py)) (now : Instant) (taskId claimToken : String)
    (claims : Except Exc (List ReasonTaskClaim)) : Program Inbox Exc SubmitReply :=
  .atomically fun inbox => do
    let task := strip taskId
    let token := strip claimToken
    require (task ≠ "" ∧ token ≠ "") (.valueError "task_id and claim_token must not be empty")
    let row ← orRaise (inbox.task? task) (.keyError task)
    assertRowVisible bound row.authority task
    require (row.status = .claimed) (.valueError "reason task is not currently claimed")
    require (row.claimToken.getD "" = token) (.valueError "reason task claim token does not match")
    let leaseUntil ← orRaise row.leaseUntil (.valueError "Invalid isoformat string: 'None'")
    require (now < leaseUntil) (.valueError "reason task lease has expired")
    require (now < row.deadlineAt) (.valueError "reason task deadline has expired")
    let claims ← claims
    let result ← validateTaskResult py row.request { taskId := task, claims }
    require (row.claimToken = some token ∧ now.iso < row.deadlineAt.iso)
      (.valueError "reason task changed before MCP submission completed")
    pure ({ taskId := task, status := "completed", route := "mcp", claims := result.claims },
      inbox.updateTask task (fun r => r.complete result "mcp" now) fun _ h => h)

/-! ### Fallbacks -/

/-- `complete_fallback`. -/
def completeFallback (py : Runtime) (now : Instant) (taskId : String)
    (result : Except Exc ReasonTaskResult) (route : String) :
    Program Inbox Exc ReasonTaskResult :=
  .atomically fun inbox => do
    let task := strip taskId
    let route := strip route
    require (task ≠ "") (.valueError "task_id must not be empty")
    require (route ≠ "" ∧ route ≠ "mcp")
      (.valueError "fallback route must identify a non-MCP route")
    let row ← orRaise (inbox.task? task) (.keyError task)
    if row.status = .completed then
      let stored ← orRaise row.result (.valueError "Expecting value: line 1 column 1 (char 0)")
      pure (stored, inbox)
    else
      let result ← result
      let result ← validateTaskResult py row.request result
      -- The update finds the row open, within one transaction: the branch of a lost race is dead.
      pure (result, inbox.updateTask task (fun r => r.complete result route now) fun _ h => h)

/-- The check of `mark_fallback`: `task_state` finds the task. -/
def checkMark (bound : Option (CallerAuthority py)) (taskId : String) (inbox : Inbox) :
    Except Exc Unit := do
  let row ← orRaise (inbox.task? (strip taskId)) (.keyError taskId)
  assertRowVisible bound row.authority taskId

/-- The update of `mark_fallback`. -/
def markFallback (now : Instant) (taskId route : String) (inbox : Inbox) : Inbox :=
  inbox.updateTask (strip taskId) (fun r =>
    if r.status ≠ .completed then
      { r with status := .fallback, route := some route, updatedAt := now }
    else r) fun r h => by split_ifs <;> exact h

/-! ### Retirement -/

structure RetireReply where
  dryRun : Bool
  eligible : List String := []
  blocked : List String := []
  taskCount : ℕ := 0

/-- The tasks of a run that `retire_finalized_runs` finds eligible; `none` when it is blocked. -/
def eligibleTasks (bound : Option (CallerAuthority py)) (instant : Instant) (cutoff : String)
    (inbox : Inbox) (requestId : String) : Except Exc (Option (List TaskRow)) :=
  match inbox.run? requestId with
  | none     => .ok none
  | some run => do
    let visible ← snapshotVisible bound run.authority
    let tasks := inbox.tasks.rows.filter (·.requestId = requestId)
    if visible = false ∨ run.retiredAt ≠ none then pure none
    else if cutoff ≤ run.deadlineAt.iso ∨ cutoff ≤ run.updatedAt.iso ∨
        tasks.length ≠ run.expectedTaskCount ∨
        tasks.any (fun task => cutoff ≤ task.updatedAt.iso || cutoff ≤ task.deadlineAt.iso ||
          task.leaseUntil.any fun lease => instant.iso < lease.iso) then pure none
    else pure (some tasks)

/-- The two statements that retire a run. -/
def Inbox.retire (inbox : Inbox) (requestId : String) (instant : Instant) : Inbox where
  tasks := inbox.tasks.filter (·.requestId ≠ requestId)
  runs := inbox.runs.modify requestId (fun r =>
    { r with retiredAt := some instant, request := .obj [], expectedTaskCount := 0 }) fun _ h => h

/-- The loop of `retire_finalized_runs`. -/
def retireLoop (bound : Option (CallerAuthority py)) (instant : Instant) (cutoff : String)
    (reply : RetireReply) (inbox : Inbox) : List String → Except Exc (RetireReply × Inbox)
  | []        => .ok (reply, inbox)
  | id :: ids => do
    let tasks ← eligibleTasks bound instant cutoff inbox id
    match tasks with
    | none       =>
      retireLoop bound instant cutoff { reply with blocked := reply.blocked ++ [id] } inbox ids
    | some tasks =>
      retireLoop bound instant cutoff
        { reply with eligible := reply.eligible ++ [id]
                     taskCount := reply.taskCount + tasks.length }
        (if reply.dryRun then inbox else inbox.retire id instant) ids

/-- `retire_finalized_runs`. -/
def retireFinalizedRuns (bound : Option (CallerAuthority py)) (instant : Instant)
    (requestIds : List String) (before : Instant) (dryRun : Bool) :
    Program Inbox Exc RetireReply :=
  .atomically fun inbox => do
    require (before.micros ≤ instant.micros + 3600 * 1000000)
      (.valueError "before must not be in the future")
    let before := if instant < before then instant else before
    let ids := (FrozenSet.ofList (requestIds.map strip)).sorted
    require (ids ≠ [] ∧ ids.length ≤ 100 ∧ "" ∉ ids)
      (.valueError "provide between 1 and 100 finalized request IDs")
    retireLoop bound instant before.iso { dryRun } inbox ids

end CyberBrain.Dreaming
