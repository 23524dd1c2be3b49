import CyberBrain.Dreaming.Assembly
import CyberBrain.Dreaming.KeptResults
import CyberBrain.Dreaming.RunCounts

/-!
# Reasoning through the inbox

`MCPFirstDreamReasoner.reason` registers its tasks, waits for MCP clients to complete them, and
resolves what they leave open by a fallback. Clients claim and submit between any two of its steps.
-/

namespace CyberBrain.Dreaming

open Python ReasonerProvider Tenancy

variable {py : Runtime}

/-! ### Requests as the inbox keeps them -/

def evidenceJson (item : EvidenceItem) : Json :=
  .obj [("id", .str item.id), ("record_type", .str item.recordType), ("content", .str item.content),
    ("score", item.score.elim .null .float),
    ("event_time", item.eventTime.elim .null fun time => .str time.isoformat),
    ("metadata", .obj item.metadata)]

/-- `_serialize_request`. -/
def serializeRequest (request : DreamReasoningRequest) : Json :=
  .obj [("request_id", .str request.requestId), ("session_id", .str request.sessionId),
    ("focal_topics", .arr (request.focalTopics.map .str)),
    ("session_start", .str request.sessionStart.isoformat),
    ("session_end", .str request.sessionEnd.isoformat),
    ("instructions_version", .str request.instructionsVersion),
    ("evidence_by_topic", .obj (request.evidenceByTopic.map fun kv =>
      (kv.1, .arr (kv.2.map evidenceJson))))]

/-! ### The reasoner -/

variable (py) in
/-- A call of `reason`: its collaborators, the authority it runs under and its request. -/
structure MCPFirstDreamReasoner where
  multipass : MultipassDreamReasoner
  bound : Option (CallerAuthority py) := none
  waitSeconds : Binary64
  request : DreamReasoningRequest

/-- How far a call of `reason` has come. In `fallingBack` it has read its next task as open, and
runs the fallback for it. -/
inductive ReasonPhase
  | start
  | polling
  | resolving (used : List (ReasoningTask × ReasoningTaskResult)) (rest : List ReasoningTask)
  | fallingBack (used : List (ReasoningTask × ReasoningTaskResult)) (task : ReasoningTask)
      (rest : List ReasoningTask)
  | returned (used : List (ReasoningTask × ReasoningTaskResult)) (result : DreamReasoningResult)
  | raised (e : Exc)

structure ReasonState where
  system : InboxSystem
  phase : ReasonPhase := .start

variable (py) in
/-- A step of `reason` or of a client. The deadline of the wait may pass at any time. -/
inductive ReasonEvent
  | register (now : Instant)
  | poll
  | timeout
  | read
  | fallbackRaises (e : Exc)
  | fallback (now : Instant) (result : Except Exc ReasonTaskResult)
  | assemble
  | claimNext (bound : Option (CallerAuthority py)) (now : Instant) (token claimedBy : String)
      (leaseSeconds : ℤ)
  | submit (bound : Option (CallerAuthority py)) (now : Instant) (taskId claimToken : String)
      (claims : Except Exc (List ReasonTaskClaim))

/-- `_all_completed`. -/
def allCompleted (bound : Option (CallerAuthority py)) (requestId : String) (inbox : Inbox) :
    Except Exc Bool := do
  let run ← orRaise (inbox.run? (strip requestId)) (.keyError requestId)
  assertRowVisible bound run.authority requestId
  let states := inbox.tasksOf (strip requestId)
  pure (!states.isEmpty && states.all (·.status = .completed))

/-- `task_state`: the row of a task that the caller sees. -/
def taskState (bound : Option (CallerAuthority py)) (taskId : String) (inbox : Inbox) :
    Except Exc (Option TaskRow) :=
  match inbox.task? (strip taskId) with
  | none     => .ok none
  | some row => do
    let visible ← snapshotVisible bound row.authority
    pure (if visible then some row else none)

namespace MCPFirstDreamReasoner

variable (r : MCPFirstDreamReasoner py)

def tasks : List ReasoningTask := r.multipass.buildTasks py r.request

/-- The registration of the run. -/
def registration (now : Instant) : InboxOp py :=
  .registerRun r.bound now r.request.requestId (serializeRequest r.request)
    (.ok (r.tasks.map serializeTask)) r.waitSeconds

/-- The first part of `_resolve_task`, which reads the state of the task. -/
def readTask (inbox : Inbox) (used : List (ReasoningTask × ReasoningTaskResult))
    (task : ReasoningTask) (rest : List ReasoningTask) : ReasonPhase :=
  match taskState r.bound task.taskId inbox with
  | .error e      => .raised e
  | .ok none      =>
    .raised (.runtimeError ("reason task disappeared from inbox: " ++ task.taskId))
  | .ok (some row) =>
    match row.status, row.result with
    | .completed, some raw => .resolving (used ++ [(task, parseResult raw)]) rest
    | _, _                 => .fallingBack used task rest

/-- The phase that a step of `reason` leads to. -/
def nextPhase (inbox : Inbox) : ReasonPhase → ReasonEvent py → ReasonPhase
  | .start, .register now =>
    match (registerRun r.bound now r.request.requestId (serializeRequest r.request)
        (.ok (r.tasks.map serializeTask)) r.waitSeconds inbox).1 with
    | .ok _    => .polling
    | .error e => .raised e
  | .polling, .poll =>
    match allCompleted r.bound r.request.requestId inbox with
    | .ok true  => .resolving [] r.tasks
    | .ok false => .polling
    | .error e  => .raised e
  | .polling, .timeout => .resolving [] r.tasks
  | .resolving used (task :: rest), .read => r.readTask inbox used task rest
  | .resolving used [], .assemble =>
    match r.multipass.assemble py r.request r.tasks (used.map Prod.snd) with
    | .ok result => .returned used result
    | .error e   => .raised e
  | .fallingBack _ _ _, .fallbackRaises e => .raised e
  | .fallingBack used task rest, .fallback now result =>
    match (completeFallback py now task.taskId result "fallback-router" inbox).1 with
    | .ok winner => .resolving (used ++ [(task, parseResult winner)]) rest
    | .error e   => .raised e
  | phase, _ => phase

/-- The call of the inbox that a step makes, if it makes one. -/
def call : ReasonPhase → ReasonEvent py → Option (InboxOp py)
  | .start, .register now => some (r.registration now)
  | .fallingBack _ task _, .fallback now result =>
    some (.completeFallback now task.taskId result "fallback-router")
  | _, .claimNext bound now token claimedBy leaseSeconds =>
    some (.claimNext bound now token claimedBy leaseSeconds)
  | _, .submit bound now taskId claimToken claims =>
    some (.submit bound now taskId claimToken claims)
  | _, _ => none

/-- A step of `reason` or of a client. -/
def step (s : ReasonState) (event : ReasonEvent py) : ReasonState where
  system := (r.call s.phase event).elim s.system s.system.step
  phase := r.nextPhase s.system.inbox s.phase event

/-- The state after a list of steps. -/
def run (s : ReasonState) (events : List (ReasonEvent py)) : ReasonState :=
  events.foldl r.step s

end MCPFirstDreamReasoner

end CyberBrain.Dreaming
