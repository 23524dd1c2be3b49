import CyberBrain.Foundation.DateTime
import CyberBrain.Foundation.Except
import CyberBrain.Foundation.Program
import CyberBrain.Foundation.PythonPrinting
import CyberBrain.Foundation.Table
import CyberBrain.Tenancy.Durable
import CyberBrain.Tenancy.Runtime
import Mathlib.Data.Prod.Lex

/-!
# The Dream queue

`DreamQueue` keeps one job for each session and scope. Workers claim pending jobs and mark their
outcome; failed jobs are retried, and jobs that a stopped worker left behind are recovered.

As in the inbox, a time is kept as an instant and compared by its ISO text, and a snapshot or a
scope key as the value that its JSON stands for. Where an `ORDER BY` leaves rows tied the database may return them in
any order: `rank` orders the ids of tied rows.
-/

namespace CyberBrain.Dreaming

open Python Tenancy

/-! ### Jobs -/

inductive JobStatus
  | pending
  | processing
  | processed
  | failed
  deriving DecidableEq, Repr

structure DreamJob where
  id : ℕ
  sessionId : String
  topics : List String
  status : JobStatus
  attemptCount : ℤ
  createdAt : Instant
  updatedAt : Instant
  lastError : Option String
  authority : Option Json

/-- The items of a scope, sorted by dimension. -/
abbrev ScopeKey := List (String × List String)

/-- A row of `dream_jobs`. -/
structure JobRow where
  id : ℕ
  sessionId : String
  topics : List String
  status : JobStatus
  attemptCount : ℤ := 0
  createdAt : Instant
  updatedAt : Instant
  lastError : Option String := none
  authority : Option Json
  scopeKey : ScopeKey
  availableAt : Binary64 := .zero

/-- `_row_to_job`. -/
def JobRow.toJob (row : JobRow) : DreamJob := { row with }

/-- The table of the queue, with the last id that it gave out. -/
structure DreamQueue where
  jobs : Table JobRow.id
  lastId : ℕ
  id_le_lastId : ∀ row ∈ jobs.rows, row.id ≤ lastId

namespace DreamQueue

/-- A new queue. -/
def empty : DreamQueue := ⟨Table.empty _, 0, fun _ h => absurd h List.not_mem_nil⟩

def job? (q : DreamQueue) (id : ℕ) : Option JobRow := q.jobs.find? id

@[simp] lemma job?_empty (id : ℕ) : empty.job? id = none := rfl

lemma id_of_job? {q : DreamQueue} {id : ℕ} {row : JobRow} (h : q.job? id = some row) :
    row.id = id := Table.key_of_find? h

lemma job?_of_mem {q : DreamQueue} {row : JobRow} (h : row ∈ q.jobs.rows) :
    q.job? row.id = some row := Table.find?_of_mem h

/-- `UPDATE dream_jobs SET … WHERE id=?`. -/
def update (q : DreamQueue) (id : ℕ) (f : JobRow → JobRow) (hf : ∀ r, r.id = id → (f r).id = id) :
    DreamQueue where
  jobs := q.jobs.modify id f hf
  lastId := q.lastId
  id_le_lastId row hrow := by
    obtain ⟨r, hr, rfl⟩ := List.mem_map.mp hrow
    have hle := q.id_le_lastId r hr
    split_ifs with hid
    · rwa [hf r hid, ← hid]
    · exact hle

lemma job?_update (q : DreamQueue) (id id' : ℕ) (f : JobRow → JobRow)
    (hf : ∀ r, r.id = id → (f r).id = id) : (q.update id f hf).job? id' =
      if id' = id then (q.job? id').map f else q.job? id' :=
  Table.find?_modify q.jobs id id' f hf

/-- The insertion of a row with a new id. -/
def insert (q : DreamQueue) (row : JobRow) (h : q.lastId < row.id) : DreamQueue where
  jobs := q.jobs.upsert row
  lastId := row.id
  id_le_lastId r hr := by
    have hnone : q.jobs.find? row.id = none :=
      Table.find?_eq_none.mpr fun r hr hid => absurd (q.id_le_lastId r hr) (by omega)
    rcases (Table.mem_upsert_of_fresh hnone).mp hr with rfl | hr
    · exact le_rfl
    · exact (q.id_le_lastId r hr).trans h.le

lemma job?_eq_none_of_lt {q : DreamQueue} {id : ℕ} (h : q.lastId < id) : q.job? id = none :=
  Table.find?_eq_none.mpr fun r hr hid => absurd (q.id_le_lastId r hr) (by omega)

lemma job?_insert (q : DreamQueue) (row : JobRow) (h : q.lastId < row.id) (id : ℕ) :
    (q.insert row h).job? id = if id = row.id then some row else q.job? id :=
  Table.find?_upsert q.jobs row id

/-- A loop that updates one row after the other. -/
def updateAll {α : Type} (q : DreamQueue) (key : α → ℕ) (f : α → JobRow → JobRow)
    (hf : ∀ a r, r.id = key a → (f a r).id = key a) (as : List α) : DreamQueue :=
  as.foldl (fun q a => q.update (key a) (f a) (hf a)) q

end DreamQueue

variable {py : Runtime}

/-! ### Queries -/

variable (py) in
/-- The row satisfies the scope clauses of a query. -/
def JobRow.inScope (row : JobRow) (clauses : List SnapshotClause) : Bool :=
  satisfies clauses (fun v => String.ofList ((jsonDialect py).print v)) fun _ => row.authority

variable (py) in
/-- `json_extract(authority_json, '$.mode') = ?`, which only a queue of several owners asks. -/
def JobRow.inMode (row : JobRow) (mode : DeploymentMode) : Bool :=
  mode = .singleOwner || (row.authority.bind (Sql.atPath · ["mode"])).any fun v =>
    (Sql.ofJson (fun v => String.ofList ((jsonDialect py).print v)) v).eq (.text mode.text) =
      some true

/-- `ORDER BY` a time. -/
def orderBy (time : JobRow → Instant) (rank : ℕ → ℕ) (rows : List JobRow) : List JobRow :=
  rows.insertionSort fun a b =>
    toLex ((time a).iso, rank a.id) ≤ toLex ((time b).iso, rank b.id)

/-- `LIMIT`, which a negative number lifts. -/
def limitTo (limit : ℤ) (rows : List JobRow) : List JobRow :=
  if limit < 0 then rows else rows.take limit.toNat

lemma mem_of_mem_orderBy {time : JobRow → Instant} {rank : ℕ → ℕ} {rows : List JobRow}
    {row : JobRow} (h : row ∈ orderBy time rank rows) : row ∈ rows :=
  (List.perm_insertionSort _ _).mem_iff.mp h

lemma limitTo_sublist (limit : ℤ) (rows : List JobRow) : (limitTo limit rows).Sublist rows := by
  unfold limitTo
  split_ifs
  · exact List.Sublist.refl _
  · exact List.take_sublist _ _

/-- `assert_visible`. -/
def assertVisible (bound : Option (CallerAuthority py)) (jobId : ℕ) (q : DreamQueue) :
    Except Exc Unit := do
  let row ← orRaise (q.job? jobId) (.keyError (toString jobId))
  let visible ← snapshotVisible bound row.authority
  require (visible = true) (.keyError (toString jobId))

/-! ### Enqueuing -/

variable (py) in
/-- `identity_key`. -/
def identityKey (snapshot : Json) : Except Exc ScopeKey := do
  let authority ← restoreAuthority py snapshot
  pure (sortItems (authority.grant.scope.asDict.map fun dv => (dv.1.text, dv.2)))

/-- The snapshot that `enqueue` stores: the given one, or that of a caller delegated to all
operations inside its scope. -/
def enqueueSnapshot (bound : Option (CallerAuthority py)) (sessionId : String)
    (authorityJson : Option Json) : Except Exc Json := do
  let plan ← enforceOperation bound .memoryWrite fun key =>
    if key = "session_id" then some (.str sessionId) else none
  match authorityJson, bound with
  | some snapshot, _    => pure snapshot
  | none, none          => pure (authoritySnapshot bound)
  | none, some caller   => do
    -- a plan that allows the operation has a scope
    let scope ← orRaise (plan.bind (·.effectiveScope))
      (.typeError "'NoneType' object has no attribute 'values'")
    let delegated ← authorityForAuthenticatedScope py caller.deploymentMode scope
      {.adminReview, .backgroundReasoning, .read, .write}
    pure (authoritySnapshot bound (some delegated))

/-- `get_by_session`, given the snapshot. -/
def getBySession (bound : Option (CallerAuthority py)) (sessionId : String) (snapshot : Json)
    (q : DreamQueue) : Except Exc DreamJob := do
  let key ← identityKey py snapshot
  let row ← orRaise (q.jobs.rows.find? fun row => row.sessionId = sessionId ∧ row.scopeKey = key)
    (.keyError sessionId)
  let visible ← snapshotVisible bound row.authority
  require (visible = true) (.keyError sessionId)
  pure row.toJob

/-- The upsert of `enqueue`. The new id is above every id that was given out, by more than one where
the database skips some. -/
def upsertJob (now : Instant) (sessionId : String) (topics : List String) (snapshot : Json)
    (key : ScopeKey) (skipped : ℕ) (q : DreamQueue) : DreamQueue :=
  match q.jobs.rows.find? fun row => row.sessionId = sessionId ∧ row.scopeKey = key with
  | some row =>
    q.update row.id (fun r => { r with topics := topics, updatedAt := now }) fun _ h => h
  | none     =>
    q.insert { id := q.lastId + 1 + skipped, sessionId, topics, status := .pending
               createdAt := now, updatedAt := now, authority := some snapshot, scopeKey := key }
      (by simp only; omega)

/-- `enqueue`. -/
def enqueue (bound : Option (CallerAuthority py)) (now : Instant) (sessionId : String)
    (topics : List String) (authorityJson : Option Json) (skipped : ℕ) :
    Program DreamQueue Exc DreamJob := fun q =>
  match (do
    let snapshot ← enqueueSnapshot bound sessionId authorityJson
    let key ← identityKey py snapshot
    pure (snapshot, key) : Except Exc (Json × ScopeKey)) with
  | .error e            => (.error e, q)
  | .ok (snapshot, key) =>
    let q' := upsertJob now sessionId topics snapshot key skipped q
    (getBySession bound sessionId snapshot q', q')

/-! ### Claims -/

/-- The row of a job after `claim_next` claimed it. -/
def JobRow.claim (row : JobRow) (now : Instant) : JobRow :=
  { row with status := .processing, attemptCount := row.attemptCount + 1, updatedAt := now
             lastError := none }

@[simp] lemma JobRow.claim_id (row : JobRow) (now : Instant) : (row.claim now).id = row.id := rfl

/-- `claim_next`. Its update finds the row still pending, within one transaction. -/
def DreamQueue.claimNext (bound : Option (CallerAuthority py)) (mode : DeploymentMode) (now : Instant)
    (time : Binary64) (rank : ℕ → ℕ) : Program DreamQueue Exc (Option DreamJob) :=
  .atomically fun q => do
    let clauses ← snapshotSqlFilter bound "authority_json"
    let rows := q.jobs.rows.filter fun row => row.status = .pending &&
      row.availableAt.value ≤ time.value && row.inScope py clauses && row.inMode py mode
    match (orderBy (·.createdAt) rank rows).head? with
    | none     => pure (none, q)
    | some row =>
      pure (some (row.claim now).toJob, q.update row.id (fun r => r.claim now)
        fun r h => (r.claim_id now).trans h)

/-! ### Retries -/

/-- The rows that `retry_failed` selects. -/
def selectFailed (bound : Option (CallerAuthority py)) (maxAttempts limit : ℤ) (rank : ℕ → ℕ)
    (q : DreamQueue) : Except Exc (List ℕ) := do
  let clauses ← snapshotSqlFilter bound "authority_json"
  require (1 ≤ maxAttempts) (.valueError "max_attempts must be >= 1")
  let rows := q.jobs.rows.filter fun row =>
    row.status = .failed && row.attemptCount < maxAttempts && row.inScope py clauses
  pure ((limitTo limit (orderBy (·.updatedAt) rank rows)).map (·.id))

def JobRow.retry (row : JobRow) (now : Instant) : JobRow :=
  { row with status := .pending, updatedAt := now }

@[simp] lemma JobRow.retry_id (row : JobRow) (now : Instant) : (row.retry now).id = row.id := rfl

/-- The updates of `retry_failed`. -/
def updateRetried (now : Instant) (ids : List ℕ) (q : DreamQueue) : DreamQueue :=
  q.updateAll id (fun _ r => r.retry now) (fun _ r h => (r.retry_id now).trans h) ids

/-- `retry_failed`. -/
def retryFailed (bound : Option (CallerAuthority py)) (now : Instant) (maxAttempts limit : ℤ)
    (rank : ℕ → ℕ) : Program DreamQueue Exc ℕ :=
  .atomically fun q => do
    let ids ← selectFailed bound maxAttempts limit rank q
    pure (ids.length, updateRetried now ids q)

/-- The rows that `requeue_all_failed` selects. -/
def selectAllFailed (bound : Option (CallerAuthority py)) (limit : ℤ) (rank : ℕ → ℕ)
    (q : DreamQueue) : Except Exc (List ℕ) := do
  let clauses ← snapshotSqlFilter bound "authority_json"
  let rows := q.jobs.rows.filter fun row => row.status = .failed && row.inScope py clauses
  pure ((limitTo limit (orderBy (·.updatedAt) rank rows)).map (·.id))

def JobRow.requeue (row : JobRow) (now : Instant) : JobRow :=
  { row with status := .pending, attemptCount := 0, lastError := none, availableAt := .zero
             updatedAt := now }

@[simp] lemma JobRow.requeue_id (row : JobRow) (now : Instant) :
    (row.requeue now).id = row.id := rfl

/-- The updates of `requeue_all_failed`. -/
def updateRequeued (now : Instant) (ids : List ℕ) (q : DreamQueue) : DreamQueue :=
  q.updateAll id (fun _ r => r.requeue now) (fun _ r h => (r.requeue_id now).trans h) ids

/-! ### Recovery -/

/-- The rows that `recover_processing` selects, with their attempts. -/
def selectProcessing (bound : Option (CallerAuthority py)) (maxAttempts : ℤ) (q : DreamQueue) :
    Except Exc (List (ℕ × ℤ)) := do
  let clauses ← snapshotSqlFilter bound "authority_json"
  require (1 ≤ maxAttempts) (.valueError "max_attempts must be >= 1")
  pure ((q.jobs.rows.filter fun row => row.status = .processing && row.inScope py clauses).map
    fun row => (row.id, row.attemptCount))

def JobRow.recover (row : JobRow) (status : JobStatus) (now : Instant) : JobRow :=
  { row with status := status, lastError := some "worker_restarted", updatedAt := now }

@[simp] lemma JobRow.recover_id (row : JobRow) (status : JobStatus) (now : Instant) :
    (row.recover status now).id = row.id := rfl

/-- The status that `recover_processing` gives to a job. -/
def recoveredStatus (maxAttempts attempts : ℤ) : JobStatus :=
  if attempts < maxAttempts then .pending else .failed

/-- The updates of `recover_processing`. -/
def updateRecovered (now : Instant) (maxAttempts : ℤ) (rows : List (ℕ × ℤ)) (q : DreamQueue) :
    DreamQueue :=
  q.updateAll Prod.fst (fun p r => r.recover (recoveredStatus maxAttempts p.2) now)
    (fun _ r h => (r.recover_id _ now).trans h) rows

/-- `recover_processing`. -/
def recoverProcessing (bound : Option (CallerAuthority py)) (now : Instant) (maxAttempts : ℤ) :
    Program DreamQueue Exc ℕ :=
  .atomically fun q => do
    let rows ← selectProcessing bound maxAttempts q
    pure (rows.length, updateRecovered now maxAttempts rows q)

/-! ### Outcomes -/

/-- The row of a job that `defer` put off. -/
def JobRow.defer (row : JobRow) (availableAt : Binary64) (now : Instant) : JobRow :=
  { row with status := .pending, availableAt := availableAt
             attemptCount := max (row.attemptCount - 1) 0
             lastError := some "quota_exceeded", updatedAt := now }

@[simp] lemma JobRow.defer_id (row : JobRow) (availableAt : Binary64) (now : Instant) :
    (row.defer availableAt now).id = row.id := rfl

/-- `defer`, with the time `time.time() + retry_after` that it computes. -/
def defer (bound : Option (CallerAuthority py)) (now : Instant) (jobId : ℕ)
    (availableAt : Binary64) : Program DreamQueue Exc Unit :=
  .atomically fun q => do
    assertVisible bound jobId q
    pure ((), q.update jobId (fun r => if r.status = .processing then r.defer availableAt now else r)
      fun r h => by split_ifs <;> simpa using h)

/-- `mark_processed`. -/
def markProcessed (bound : Option (CallerAuthority py)) (now : Instant) (jobId : ℕ) :
    Program DreamQueue Exc Unit :=
  .atomically fun q => do
    assertVisible bound jobId q
    pure ((), q.update jobId (fun r => { r with status := .processed, updatedAt := now }) fun _ h => h)

/-- `mark_failed`. -/
def markFailed (bound : Option (CallerAuthority py)) (now : Instant) (jobId : ℕ) (error : String) :
    Program DreamQueue Exc Unit :=
  .atomically fun q => do
    assertVisible bound jobId q
    pure ((), q.update jobId (fun r =>
      { r with status := .failed, lastError := some (String.ofList (error.toList.take 1000))
               updatedAt := now }) fun _ h => h)

/-! ### Operations -/

variable (py) in
/-- One operation of the queue, with its outside values. -/
inductive QueueOp
  | enqueue (bound : Option (CallerAuthority py)) (now : Instant) (sessionId : String)
      (topics : List String) (authorityJson : Option Json) (skipped : ℕ)
  | claimNext (bound : Option (CallerAuthority py)) (mode : DeploymentMode) (now : Instant)
      (time : Binary64) (rank : ℕ → ℕ)
  | defer (bound : Option (CallerAuthority py)) (now : Instant) (jobId : ℕ) (availableAt : Binary64)
  | markProcessed (bound : Option (CallerAuthority py)) (now : Instant) (jobId : ℕ)
  | markFailed (bound : Option (CallerAuthority py)) (now : Instant) (jobId : ℕ) (error : String)
  | retryFailed (bound : Option (CallerAuthority py)) (now : Instant) (limit : ℤ) (rank : ℕ → ℕ)
  | recoverProcessing (bound : Option (CallerAuthority py)) (now : Instant)

/-- The queue after an operation, whether the call returned or raised. -/
def DreamQueue.step (maxAttempts : ℤ) (q : DreamQueue) : QueueOp py → DreamQueue
  | .enqueue bound now sessionId topics authorityJson skipped =>
    (Dreaming.enqueue bound now sessionId topics authorityJson skipped q).2
  | .claimNext bound mode now time rank    => (DreamQueue.claimNext bound mode now time rank q).2
  | .defer bound now jobId availableAt     => (Dreaming.defer bound now jobId availableAt q).2
  | .markProcessed bound now jobId         => (Dreaming.markProcessed bound now jobId q).2
  | .markFailed bound now jobId error      => (Dreaming.markFailed bound now jobId error q).2
  | .retryFailed bound now limit rank      =>
    (Dreaming.retryFailed bound now maxAttempts limit rank q).2
  | .recoverProcessing bound now           =>
    (Dreaming.recoverProcessing bound now maxAttempts q).2

/-- The queue after a list of operations. -/
def DreamQueue.run (maxAttempts : ℤ) (q : DreamQueue) (ops : List (QueueOp py)) : DreamQueue :=
  ops.foldl (DreamQueue.step maxAttempts) q

end CyberBrain.Dreaming
