import CyberBrain.Dreaming.ReasonTaskInbox
import Mathlib.Logic.Relation

/-!
# The first completion of a task wins

Clients call the inbox in any order. What any call can do to one task is a short list of changes;
none of them touches the outcome of a completed task except the retirement of its run.
-/

namespace CyberBrain.Dreaming

open Python ReasonerProvider Tenancy Relation

variable {py : Runtime}

/-! ### What a call can do to a task -/

/-- A change of the row under one task id. -/
inductive TaskStep : Option TaskRow → Option TaskRow → Prop
  | insert (row : TaskRow) (h : row.status = .pending) : TaskStep none (some row)
  | register (row : TaskRow) (request : ReasonTaskRequest) (requestId : String)
      (deadlineAt now : Instant) :
      TaskStep (some row) (some (row.register request requestId deadlineAt now))
  | claim (row : TaskRow) (token consumer : String) (lease now : Instant)
      (h : row.status ≠ .completed) :
      TaskStep (some row) (some { row with status := .claimed, claimToken := some token
                                           claimedBy := some consumer, leaseUntil := some lease
                                           updatedAt := now })
  | complete (row : TaskRow) (result : ReasonTaskResult) (route : String) (now : Instant)
      (h : row.status ≠ .completed) (hid : row.taskId ≠ "") :
      TaskStep (some row) (some (row.complete result route now))
  | mark (row : TaskRow) (route : String) (now : Instant) (h : row.status ≠ .completed) :
      TaskStep (some row) (some { row with status := .fallback, route := some route
                                           updatedAt := now })

/-- The changes one call makes to the row under one task id. -/
abbrev TaskSteps : Option TaskRow → Option TaskRow → Prop := ReflTransGen TaskStep

lemma Inbox.task?_updateTask (inbox : Inbox) (taskId id : String) (f : TaskRow → TaskRow)
    (hf : ∀ r, r.taskId = taskId → (f r).taskId = taskId) :
    (inbox.updateTask taskId f hf).task? id =
      if id = taskId then (inbox.task? id).map f else inbox.task? id := by
  simp only [Inbox.task?, Inbox.updateTask, Table.find?_modify]

lemma Inbox.taskId_of_task? {inbox : Inbox} {taskId : String} {row : TaskRow}
    (h : inbox.task? taskId = some row) : row.taskId = taskId :=
  Table.key_of_find? h

/-- An update of one task takes one step there and none elsewhere. -/
lemma steps_updateTask {inbox : Inbox} {taskId : String} {row : TaskRow}
    (hrow : inbox.task? taskId = some row) {f : TaskRow → TaskRow}
    {hf : ∀ r, r.taskId = taskId → (f r).taskId = taskId}
    (hstep : TaskStep (some row) (some (f row))) (id : String) :
    TaskSteps (inbox.task? id) ((inbox.updateTask taskId f hf).task? id) := by
  rw [Inbox.task?_updateTask]
  split_ifs with h
  · subst h
    rw [hrow]
    exact .single hstep
  · exact .refl

section Registration

variable {bound : Option (CallerAuthority py)} {requestId : String} {deadlineAt now : Instant}
  {inbox inbox' : Inbox}

lemma upsertTask_steps {request : ReasonTaskRequest}
    (h : upsertTask bound requestId deadlineAt now inbox request = .ok inbox') :
    inbox'.runs = inbox.runs ∧ ∀ id, TaskSteps (inbox.task? id) (inbox'.task? id) := by
  unfold upsertTask at h
  split at h
  · rename_i hnone
    cases h
    refine ⟨rfl, fun id => ?_⟩
    simp only [Inbox.task?, Table.find?_upsert] at hnone ⊢
    split_ifs with hid
    · subst hid
      rw [hnone]
      exact .single (.insert _ rfl)
    · exact .refl
  · rename_i row hrow
    obtain ⟨-, -, h⟩ := bind_eq_ok.mp h
    cases h
    exact ⟨rfl, steps_updateTask hrow (.register _ _ _ _ _)⟩

lemma foldlM_upsertTask_steps {requests : List ReasonTaskRequest}
    (h : requests.foldlM (upsertTask bound requestId deadlineAt now) inbox = .ok inbox') :
    inbox'.runs = inbox.runs ∧ ∀ id, TaskSteps (inbox.task? id) (inbox'.task? id) := by
  induction requests generalizing inbox with
  | nil => cases h; exact ⟨rfl, fun _ => .refl⟩
  | cons request requests ih =>
    rw [List.foldlM_cons] at h
    obtain ⟨mid, hmid, h⟩ := bind_eq_ok.mp h
    obtain ⟨hruns, hsteps⟩ := upsertTask_steps hmid
    obtain ⟨hruns', hsteps'⟩ := ih h
    exact ⟨hruns'.trans hruns, fun id => (hsteps id).trans (hsteps' id)⟩

end Registration

/-! ### Retired runs -/

/-- The run of a request is stored and retired. -/
def Inbox.Retired (inbox : Inbox) (requestId : String) : Prop :=
  ∃ run, inbox.run? requestId = some run ∧ run.retiredAt ≠ none

/-- The run is stored and finished: everything of it lies before the cutoff, and no lease on its
tasks is current. -/
structure Inbox.Retirable (inbox : Inbox) (instant : Instant) (cutoff : String)
    (requestId : String) (run : RunRow) : Prop where
  stored : inbox.run? requestId = some run
  live : run.retiredAt = none
  deadline : run.deadlineAt.iso < cutoff
  updated : run.updatedAt.iso < cutoff
  tasks : ∀ row ∈ inbox.tasks.rows, row.requestId = requestId → row.updatedAt.iso < cutoff ∧
    row.deadlineAt.iso < cutoff ∧ ∀ lease ∈ row.leaseUntil, lease.iso ≤ instant.iso

/-- The runs are retired one after the other. -/
def Inbox.retireAll (inbox : Inbox) (ids : List String) (instant : Instant) : Inbox :=
  ids.foldl (fun inbox id => inbox.retire id instant) inbox

section Retirement

variable {bound : Option (CallerAuthority py)} {instant : Instant} {cutoff : String}
  {reply reply' : RetireReply} {inbox inbox' : Inbox}

lemma eligibleTasks_some {requestId : String} {tasks : List TaskRow}
    (h : eligibleTasks bound instant cutoff inbox requestId = .ok (some tasks)) :
    ∃ run, inbox.Retirable instant cutoff requestId run := by
  unfold eligibleTasks at h
  split at h
  · cases h
  · rename_i run hrun
    obtain ⟨visible, -, h⟩ := bind_eq_ok.mp h
    dsimp only at h
    split_ifs at h with hhidden hrecent
    · cases h
    · cases h
    · simp only [not_or, not_le, List.any_eq_true, not_exists, not_and, List.mem_filter,
        decide_eq_true_eq, Bool.or_eq_true] at hrecent
      obtain ⟨hdeadline, hupdated, -, htasks⟩ := hrecent
      refine ⟨run, hrun, not_not.mp fun hne => hhidden (.inr hne), hdeadline, hupdated, ?_⟩
      intro row hrow hid
      obtain ⟨⟨hold, hpast⟩, hlease⟩ := htasks row ⟨hrow, hid⟩
      refine ⟨hold, hpast, fun lease hmem => ?_⟩
      rw [Option.mem_def] at hmem
      rw [hmem, Option.any_some, decide_eq_true_eq] at hlease
      exact not_lt.mp hlease

lemma Inbox.task?_retire (inbox : Inbox) (requestId : String) (instant : Instant) (id : String) :
    (inbox.retire requestId instant).task? id =
      (inbox.task? id).filter fun row => row.requestId ≠ requestId := by
  simp only [Inbox.task?, Inbox.retire, Table.find?_filter]

lemma Inbox.run?_retire (inbox : Inbox) (requestId : String) (instant : Instant) (id : String) :
    (inbox.retire requestId instant).run? id = if id = requestId then
      (inbox.run? id).map fun r =>
        { r with retiredAt := some instant, request := .obj [], expectedTaskCount := 0 }
      else inbox.run? id := by
  simp only [Inbox.run?, Inbox.retire, Table.find?_modify]

/-- Retirement deletes the tasks of the retired runs. -/
lemma Inbox.tasks_retireAll (inbox : Inbox) (ids : List String) (instant : Instant) :
    (inbox.retireAll ids instant).tasks =
      inbox.tasks.filter fun row => row.requestId ∉ ids := by
  induction ids generalizing inbox with
  | nil => simp [retireAll]
  | cons id ids ih =>
    refine (ih _).trans ?_
    refine (Table.filter_filter _ _ _).trans (congrArg inbox.tasks.filter (funext fun row => ?_))
    simp [Bool.and_comm]

lemma Inbox.task?_retireAll (inbox : Inbox) (ids : List String) (instant : Instant)
    (id : String) : (inbox.retireAll ids instant).task? id =
      (inbox.task? id).filter fun row => row.requestId ∉ ids := by
  rw [Inbox.task?, Inbox.tasks_retireAll, Table.find?_filter, Inbox.task?]

/-- Retirement leaves the other runs alone. -/
lemma Inbox.run?_retireAll_of_notMem (inbox : Inbox) {ids : List String} {id : String}
    (h : id ∉ ids) (instant : Instant) :
    (inbox.retireAll ids instant).run? id = inbox.run? id := by
  induction ids generalizing inbox with
  | nil => rfl
  | cons first ids ih =>
    obtain ⟨hne, hids⟩ := List.ne_and_not_mem_of_not_mem_cons h
    refine (ih _ hids).trans ?_
    rw [Inbox.run?_retire, if_neg hne]

lemma Inbox.Retired.retireAll {requestId : String} (h : inbox.Retired requestId)
    (ids : List String) (instant : Instant) : (inbox.retireAll ids instant).Retired requestId := by
  induction ids generalizing inbox with
  | nil => exact h
  | cons id ids ih =>
    obtain ⟨run, hrun, hretired⟩ := h
    refine ih ?_
    by_cases hid : requestId = id
    · exact ⟨_, by rw [Inbox.run?_retire, if_pos hid, hrun]; rfl, Option.some_ne_none _⟩
    · exact ⟨run, by rw [Inbox.run?_retire, if_neg hid, hrun], hretired⟩

/-- Retirement retires the stored runs among the ids. -/
lemma Inbox.retired_retireAll {ids : List String} {id : String} (h : id ∈ ids) {run : RunRow}
    (hrun : inbox.run? id = some run) (instant : Instant) :
    (inbox.retireAll ids instant).Retired id := by
  induction ids generalizing inbox run with
  | nil => cases h
  | cons first ids ih =>
    by_cases hid : id = first
    · have hfirst : (inbox.retire first instant).Retired id :=
        ⟨_, by rw [Inbox.run?_retire, if_pos hid, hrun]; rfl, Option.some_ne_none _⟩
      exact hfirst.retireAll ids instant
    · have hkept : (inbox.retire first instant).run? id = some run := by
        rw [Inbox.run?_retire, if_neg hid, hrun]
      exact ih (List.mem_of_ne_of_mem hid h) hkept

/-- A run that can be retired after another one could be retired before it. -/
lemma Inbox.Retirable.of_retire {id requestId : String} {run : RunRow}
    (h : (inbox.retire id instant).Retirable instant cutoff requestId run) :
    inbox.Retirable instant cutoff requestId run := by
  obtain ⟨hstored, hlive, hdeadline, hupdated, htasks⟩ := h
  have hne : requestId ≠ id := by
    rintro rfl
    rw [Inbox.run?_retire, if_pos rfl, Option.map_eq_some_iff] at hstored
    obtain ⟨old, -, rfl⟩ := hstored
    cases hlive
  refine ⟨by rwa [Inbox.run?_retire, if_neg hne] at hstored, hlive, hdeadline, hupdated, ?_⟩
  intro row hrow hid
  refine htasks row ?_ hid
  simp only [Inbox.retire, Table.filter, List.mem_filter, decide_eq_true_eq]
  exact ⟨hrow, hid ▸ hne⟩

/-- The loop sorts the ids into eligible and blocked ones, and retires the eligible ones unless it
runs dry. -/
theorem retireLoop_spec {ids : List String}
    (h : retireLoop bound instant cutoff reply inbox ids = .ok (reply', inbox')) :
    ∃ eligible blocked, reply'.eligible = reply.eligible ++ eligible ∧
      reply'.blocked = reply.blocked ++ blocked ∧ (eligible ++ blocked).Perm ids ∧
      (∀ id ∈ eligible, ∃ run, inbox.Retirable instant cutoff id run) ∧
      inbox' = inbox.retireAll (if reply.dryRun then [] else eligible) instant := by
  induction ids generalizing reply inbox with
  | nil =>
    cases h
    exact ⟨[], [], by simp, by simp, .nil, by simp, by split_ifs <;> rfl⟩
  | cons id ids ih =>
    rw [retireLoop] at h
    obtain ⟨tasks, heligible, h⟩ := bind_eq_ok.mp h
    cases tasks with
    | none =>
      obtain ⟨eligible, blocked, heq, hblocked, hperm, hretirable, hinbox⟩ := ih h
      refine ⟨eligible, id :: blocked, heq, by simpa using hblocked, ?_, hretirable, hinbox⟩
      exact List.perm_middle.trans (hperm.cons id)
    | some tasks =>
      have hfirst := eligibleTasks_some heligible
      obtain ⟨eligible, blocked, heq, hblocked, hperm, hretirable, hinbox⟩ := ih h
      refine ⟨id :: eligible, blocked, by simpa using heq, hblocked, hperm.cons id, ?_, ?_⟩
      · intro id' hid'
        rcases List.mem_cons.mp hid' with rfl | hid'
        · exact hfirst
        · obtain ⟨run, hrun⟩ := hretirable id' hid'
          split_ifs at hrun with hdry
          · exact ⟨run, hrun⟩
          · exact ⟨run, hrun.of_retire⟩
      · dsimp only at hinbox
        split_ifs at hinbox ⊢ with hdry
        · exact hinbox
        · exact hinbox

/-- The loop either keeps a task as it is or deletes it and retires its run. -/
lemma retireLoop_task {ids : List String}
    (h : retireLoop bound instant cutoff reply inbox ids = .ok (reply', inbox')) (id : String) :
    inbox'.task? id = inbox.task? id ∨
      ∃ row, inbox.task? id = some row ∧ inbox'.task? id = none ∧ ¬ inbox.Retired row.requestId ∧
        inbox'.Retired row.requestId := by
  obtain ⟨eligible, -, -, -, -, hretirable, rfl⟩ := retireLoop_spec h
  split_ifs with hdry
  · exact .inl rfl
  rw [Inbox.task?_retireAll]
  cases hrow : inbox.task? id with
  | none => exact .inl rfl
  | some row =>
    by_cases hrun : row.requestId ∈ eligible
    · obtain ⟨run, hstored, hlive, -⟩ := hretirable _ hrun
      refine .inr ⟨row, rfl, by simp [hrun], ?_, Inbox.retired_retireAll hrun hstored instant⟩
      rintro ⟨run', hrun', hretired⟩
      rw [hstored] at hrun'
      cases hrun'
      exact hretired hlive
    · exact .inl (by simp [hrun])

end Retirement

/-! ### What each method does to a task -/

section Methods

variable (bound : Option (CallerAuthority py)) (now : Instant) (inbox : Inbox) (id : String)

lemma upsertRun_tasks {requestId : String} {request : Json} {taskCount : ℕ} {deadlineAt : Instant}
    {inbox' : Inbox}
    (h : upsertRun bound requestId request taskCount deadlineAt now inbox = .ok inbox') :
    inbox'.tasks = inbox.tasks := by
  unfold upsertRun at h
  split at h
  · cases h; rfl
  · obtain ⟨-, -, h⟩ := bind_eq_ok.mp h
    cases h
    rfl

lemma registerRun_steps (requestId : String) (request : Json)
    (tasks : Except Exc (List ReasonTaskRequest)) (waitSeconds : Binary64) :
    TaskSteps (inbox.task? id)
      ((registerRun bound now requestId request tasks waitSeconds inbox).2.task? id) := by
  unfold registerRun
  rcases Program.atomically_cases _ inbox with ⟨_, t, h, heq⟩ | ⟨e, -, heq⟩ <;> rw [heq]
  · simp only [bind_eq_ok] at h
    obtain ⟨-, -, -, -, requests, -, -, -, -, -, deadline, -, -, -, mid, hmid, t', hfold, h⟩ := h
    cases h
    have hsame : inbox.task? id = mid.task? id := by
      rw [Inbox.task?, Inbox.task?, upsertRun_tasks bound now inbox hmid]
    rw [hsame]
    exact (foldlM_upsertTask_steps hfold).2 id

lemma publish_steps (request : Except Exc ReasonTaskRequest) (waitSeconds : Binary64)
    (requestId : Option String) (deadlineAt : Option Instant) :
    TaskSteps (inbox.task? id)
      ((publish bound now request waitSeconds requestId deadlineAt inbox).2.task? id) := by
  unfold publish
  rcases Program.atomically_cases _ inbox with ⟨_, t, h, heq⟩ | ⟨e, -, heq⟩ <;> rw [heq]
  · simp only [bind_eq_ok] at h
    obtain ⟨-, -, request, -, deadline, -, -, -, -, -, t', hupsert, h⟩ := h
    cases h
    exact (upsertTask_steps hupsert).2 id

lemma mem_of_nextTask {clauses : List SnapshotClause} {row : TaskRow}
    (h : nextTask py clauses now inbox = some row) : row ∈ inbox.tasks.rows := by
  have hmem := List.mem_of_mem_head? h
  rw [List.mem_insertionSort] at hmem
  exact List.mem_of_mem_filter hmem

lemma claimNext_steps (token claimedBy : String) (leaseSeconds : ℤ) :
    TaskSteps (inbox.task? id)
      ((claimNext bound now token claimedBy leaseSeconds inbox).2.task? id) := by
  unfold claimNext
  rcases Program.atomically_cases _ inbox with ⟨_, t, h, heq⟩ | ⟨e, -, heq⟩ <;> rw [heq]
  · simp only [bind_eq_ok] at h
    obtain ⟨-, -, -, -, lease, -, clauses, -, h⟩ := h
    split at h
    · cases h
      exact .refl
    · rename_i row hrow
      obtain ⟨-, -, h⟩ := bind_eq_ok.mp h
      split_ifs at h with hclaimable
      · cases h
        refine steps_updateTask (Table.find?_of_mem (mem_of_nextTask now inbox hrow)) ?_ id
        refine .claim row _ _ _ _ fun hdone => ?_
        simp [TaskRow.claimable, hdone] at hclaimable
      · cases h
        exact .refl

lemma submit_steps (taskId claimToken : String) (claims : Except Exc (List ReasonTaskClaim)) :
    TaskSteps (inbox.task? id)
      ((submit bound now taskId claimToken claims inbox).2.task? id) := by
  unfold submit
  rcases Program.atomically_cases _ inbox with ⟨_, t, h, heq⟩ | ⟨e, -, heq⟩ <;> rw [heq]
  · simp only [bind_eq_ok, require_eq_ok, orRaise_eq_ok] at h
    obtain ⟨-, ⟨htask, -⟩, row, hrow, -, -, -, hclaimed, -, -, lease, -, -, -, -, -, claims', -,
      result, -, -, -, h⟩ := h
    cases h
    refine steps_updateTask hrow (.complete row _ _ _ ?_ ?_) id
    · simp [hclaimed]
    · rwa [Inbox.taskId_of_task? hrow]

lemma completeFallback_steps (taskId : String) (result : Except Exc ReasonTaskResult)
    (route : String) :
    TaskSteps (inbox.task? id)
      ((completeFallback py now taskId result route inbox).2.task? id) := by
  unfold completeFallback
  rcases Program.atomically_cases _ inbox with ⟨_, t, h, heq⟩ | ⟨e, -, heq⟩ <;> rw [heq]
  · simp only [bind_eq_ok, require_eq_ok, orRaise_eq_ok] at h
    obtain ⟨-, htask, -, -, row, hrow, h⟩ := h
    by_cases hdone : row.status = .completed
    · rw [if_pos hdone, bind_eq_ok] at h
      obtain ⟨stored, -, h⟩ := h
      cases h
      exact .refl
    · rw [if_neg hdone] at h
      simp only [bind_eq_ok] at h
      obtain ⟨result, -, result', -, h⟩ := h
      cases h
      refine steps_updateTask hrow (.complete row _ _ _ hdone ?_) id
      rwa [Inbox.taskId_of_task? hrow]

lemma markFallback_steps (taskId route : String) :
    TaskSteps (inbox.task? id) ((markFallback now taskId route inbox).task? id) := by
  unfold markFallback
  rw [Inbox.task?_updateTask]
  split_ifs with hid
  · cases hrow : inbox.task? id with
    | none => exact .refl
    | some row =>
      by_cases hdone : row.status = .completed
      · simp only [Option.map_some, ne_eq, hdone, not_true, if_false]
        exact .refl
      · simp only [Option.map_some, ne_eq, hdone, not_false_eq_true, if_true]
        exact .single (.mark row route now hdone)
  · exact .refl

end Methods

/-! ### Clients in any order -/

/-- The inbox with the `mark_fallback` calls that are between their check and their update. -/
structure InboxSystem where
  inbox : Inbox := {}
  marking : List (String × String) := []

variable (py) in
/-- One atomic step of some client. -/
inductive InboxOp
  | registerRun (bound : Option (CallerAuthority py)) (now : Instant) (requestId : String)
      (request : Json) (tasks : Except Exc (List ReasonTaskRequest)) (waitSeconds : Binary64)
  | publish (bound : Option (CallerAuthority py)) (now : Instant)
      (request : Except Exc ReasonTaskRequest) (waitSeconds : Binary64)
      (requestId : Option String) (deadlineAt : Option Instant)
  | claimNext (bound : Option (CallerAuthority py)) (now : Instant) (token claimedBy : String)
      (leaseSeconds : ℤ)
  | submit (bound : Option (CallerAuthority py)) (now : Instant) (taskId claimToken : String)
      (claims : Except Exc (List ReasonTaskClaim))
  | completeFallback (now : Instant) (taskId : String) (result : Except Exc ReasonTaskResult)
      (route : String)
  | checkMark (bound : Option (CallerAuthority py)) (taskId route : String)
  | markFallback (now : Instant) (taskId route : String)
  | retireFinalizedRuns (bound : Option (CallerAuthority py)) (instant : Instant)
      (requestIds : List String) (before : Instant) (dryRun : Bool)

/-- The state after a step, whether the call returned or raised. -/
def InboxSystem.step (s : InboxSystem) : InboxOp py → InboxSystem
  | .registerRun bound now requestId request tasks waitSeconds =>
    { s with inbox := (registerRun bound now requestId request tasks waitSeconds s.inbox).2 }
  | .publish bound now request waitSeconds requestId deadlineAt =>
    { s with inbox := (publish bound now request waitSeconds requestId deadlineAt s.inbox).2 }
  | .claimNext bound now token claimedBy leaseSeconds =>
    { s with inbox := (claimNext bound now token claimedBy leaseSeconds s.inbox).2 }
  | .submit bound now taskId claimToken claims =>
    { s with inbox := (submit bound now taskId claimToken claims s.inbox).2 }
  | .completeFallback now taskId result route =>
    { s with inbox := (completeFallback py now taskId result route s.inbox).2 }
  | .checkMark bound taskId route =>
    match checkMark bound taskId s.inbox with
    | .ok _    => { s with marking := (taskId, route) :: s.marking }
    | .error _ => s
  | .markFallback now taskId route =>
    if (taskId, route) ∈ s.marking then
      { inbox := markFallback now taskId route s.inbox
        marking := s.marking.erase (taskId, route) }
    else s
  | .retireFinalizedRuns bound instant requestIds before dryRun =>
    { s with inbox := (retireFinalizedRuns bound instant requestIds before dryRun s.inbox).2 }

/-- The state after a list of steps. -/
def InboxSystem.run (s : InboxSystem) (ops : List (InboxOp py)) : InboxSystem :=
  ops.foldl InboxSystem.step s

lemma InboxSystem.run_concat (s : InboxSystem) (ops : List (InboxOp py)) (op : InboxOp py) :
    s.run (ops ++ [op]) = (s.run ops).step op := by
  simp only [run, List.foldl_append, List.foldl_cons, List.foldl_nil]

/-- What any step does to any task: a list of changes, or a deletion that retires the run. -/
theorem step_task (s : InboxSystem) (op : InboxOp py) (id : String) :
    TaskSteps (s.inbox.task? id) ((s.step op).inbox.task? id) ∨
      ∃ row, s.inbox.task? id = some row ∧ (s.step op).inbox.task? id = none ∧
        ¬ s.inbox.Retired row.requestId ∧ (s.step op).inbox.Retired row.requestId := by
  cases op <;> simp only [InboxSystem.step]
  case registerRun bound now requestId request tasks waitSeconds =>
    exact .inl (registerRun_steps bound now s.inbox id requestId request tasks waitSeconds)
  case publish bound now request waitSeconds requestId deadlineAt =>
    exact .inl (publish_steps bound now s.inbox id request waitSeconds requestId deadlineAt)
  case claimNext bound now token claimedBy leaseSeconds =>
    exact .inl (claimNext_steps bound now s.inbox id token claimedBy leaseSeconds)
  case submit bound now taskId claimToken claims =>
    exact .inl (submit_steps bound now s.inbox id taskId claimToken claims)
  case completeFallback now taskId result route =>
    exact .inl (completeFallback_steps now s.inbox id taskId result route)
  case checkMark bound taskId route =>
    refine .inl ?_
    split <;> exact .refl
  case markFallback now taskId route =>
    refine .inl ?_
    split_ifs
    · exact markFallback_steps now s.inbox id taskId route
    · exact .refl
  case retireFinalizedRuns bound instant requestIds before dryRun =>
    simp only [retireFinalizedRuns]
    rcases Program.atomically_cases _ s.inbox with ⟨_, t, h, heq⟩ | ⟨e, -, heq⟩ <;> rw [heq]
    · simp only [bind_eq_ok] at h
      obtain ⟨-, -, -, -, h⟩ := h
      rcases retireLoop_task h id with hsame | hgone
      · exact .inl (hsame ▸ .refl)
      · exact .inr hgone
    · exact .inl .refl

/-! ### Completed tasks -/

/-- The outcome of a completed task. -/
structure TaskRow.Keeps (row row' : TaskRow) : Prop where
  status : row'.status = .completed
  result : row'.result = row.result
  route : row'.route = row.route

/-- A change keeps the outcome of a completed task. -/
lemma TaskStep.keeps {row : TaskRow} {o : Option TaskRow} (h : TaskStep (some row) o)
    (hdone : row.status = .completed) : ∃ row', o = some row' ∧ row.Keeps row' := by
  cases h with
  | register =>
    exact ⟨_, rfl, by constructor <;> simp [TaskRow.register, hdone]⟩
  | claim _ _ _ _ _ hne => exact absurd hdone hne
  | complete _ _ _ _ hne => exact absurd hdone hne
  | mark _ _ _ hne => exact absurd hdone hne

lemma TaskSteps.keeps {row : TaskRow} {o : Option TaskRow} (h : TaskSteps (some row) o)
    (hdone : row.status = .completed) : ∃ row', o = some row' ∧ row.Keeps row' := by
  induction h with
  | refl => exact ⟨row, rfl, hdone, rfl, rfl⟩
  | tail _ hstep ih =>
    obtain ⟨mid, rfl, hmid⟩ := ih
    obtain ⟨row', rfl, hrow'⟩ := hstep.keeps hmid.status
    exact ⟨row', rfl, hrow'.status, hrow'.result.trans hmid.result,
      hrow'.route.trans hmid.route⟩

/-- A completed task has a result and a proper id. -/
def TaskRow.Finished (row : TaskRow) : Prop :=
  row.status = .completed → row.result.isSome ∧ row.taskId ≠ ""

lemma TaskStep.finished {o o' : Option TaskRow} (h : TaskStep o o')
    (hfin : ∀ row, o = some row → row.Finished) : ∀ row, o' = some row → row.Finished := by
  rintro row rfl
  cases h with
  | insert _ hpending => exact fun hdone => absurd (hpending.symm.trans hdone) nofun
  | register row request requestId deadlineAt now =>
    intro hdone
    simp only [TaskRow.register] at hdone ⊢
    split_ifs at hdone with hrow
    simpa [hrow] using hfin row rfl hrow
  | claim row token consumer lease now hne => exact nofun
  | complete row result route now hne hid => exact fun _ => ⟨rfl, hid⟩
  | mark row route now hne => exact nofun

/-- In every state a run reaches, completed tasks have results. -/
theorem finished_of_run (ops : List (InboxOp py)) (id : String) :
    ∀ row, (InboxSystem.run {} ops).inbox.task? id = some row → row.Finished := by
  induction ops using List.reverseRecOn with
  | nil =>
    intro row hrow
    have hnone : (@InboxSystem.run py {} []).inbox.task? id = none := rfl
    exact absurd (hnone.symm.trans hrow) (Option.some_ne_none row).symm
  | append_singleton ops op ih =>
    rw [InboxSystem.run_concat]
    rcases step_task (InboxSystem.run {} ops) op id with hsteps | ⟨_, -, hnone, -⟩
    · have : ∀ o, TaskSteps ((InboxSystem.run {} ops).inbox.task? id) o →
          ∀ row, o = some row → row.Finished := by
        intro o ho
        induction ho with
        | refl => exact ih
        | tail _ hstep ih' => exact hstep.finished ih'
      exact this _ hsteps
    · intro row hrow
      exact absurd (hnone.symm.trans hrow) (Option.some_ne_none row).symm

/-- The step retires the run that the task under `taskId` belongs to. -/
def RetiresRunOf (s : InboxSystem) (taskId : String) (op : InboxOp py) : Prop :=
  ∃ row, s.inbox.task? taskId = some row ∧ ¬ s.inbox.Retired row.requestId ∧
    (s.step op).inbox.Retired row.requestId

/-- A completed task keeps its outcome until its run is retired. -/
theorem run_keeps {s : InboxSystem} {taskId : String} {row : TaskRow}
    (hrow : s.inbox.task? taskId = some row) (hdone : row.status = .completed)
    (ops : List (InboxOp py))
    (hkeep : ∀ done op rest, ops = done ++ op :: rest → ¬ RetiresRunOf (s.run done) taskId op) :
    ∃ row', (s.run ops).inbox.task? taskId = some row' ∧ row.Keeps row' := by
  induction ops using List.reverseRecOn with
  | nil => exact ⟨row, hrow, hdone, rfl, rfl⟩
  | append_singleton ops op ih =>
    obtain ⟨mid, hmid, hkeeps⟩ := ih fun done op' rest h =>
      hkeep done op' (rest ++ [op]) (by simp [h])
    have hlast := hkeep ops op [] rfl
    rw [InboxSystem.run_concat]
    rcases step_task (s.run ops) op taskId with hsteps | ⟨mid', hmid', -, hnot, hretired⟩
    · rw [hmid] at hsteps
      obtain ⟨row', hrow', hkeeps'⟩ := hsteps.keeps hkeeps.status
      exact ⟨row', hrow', hkeeps'.status, hkeeps'.result.trans hkeeps.result,
        hkeeps'.route.trans hkeeps.route⟩
    · exact absurd ⟨mid', hmid', hnot, hretired⟩ hlast

/-- A fallback for a completed task returns the stored result and changes nothing. -/
lemma completeFallback_completed {inbox : Inbox} {taskId route : String} {row : TaskRow}
    {stored : ReasonTaskResult} (hrow : inbox.task? (strip taskId) = some row)
    (hdone : row.status = .completed) (hresult : row.result = some stored)
    (hid : strip taskId ≠ "") (hroute : strip route ≠ "" ∧ strip route ≠ "mcp") (now : Instant)
    (result : Except Exc ReasonTaskResult) :
    completeFallback py now taskId result route inbox = (.ok stored, inbox) := by
  simp [completeFallback, Program.atomically, require, orRaise, hid, hroute, hrow, hdone, hresult,
    bind, Except.bind, pure, Except.pure]

/-- The first completion wins: from any state that clients reach, in whatever order, a completed
task keeps its status, result and route until its run is retired, and every fallback for it
returns the stored result. -/
theorem first_completion_wins (before after : List (InboxOp py)) {taskId : String} {row : TaskRow}
    (hrow : (InboxSystem.run {} before).inbox.task? taskId = some row)
    (hdone : row.status = .completed)
    (hkeep : ∀ done op rest, after = done ++ op :: rest →
      ¬ RetiresRunOf ((InboxSystem.run {} before).run done) taskId op) :
    ∃ row' stored, ((InboxSystem.run {} before).run after).inbox.task? taskId = some row' ∧
      row.Keeps row' ∧ row.result = some stored ∧
      ∀ now taskId' result route, strip taskId' = taskId →
        strip route ≠ "" → strip route ≠ "mcp" →
        completeFallback py now taskId' result route
            ((InboxSystem.run {} before).run after).inbox =
          (.ok stored, ((InboxSystem.run {} before).run after).inbox) := by
  obtain ⟨hsome, hid⟩ := finished_of_run before taskId row hrow hdone
  obtain ⟨stored, hstored⟩ := Option.isSome_iff_exists.mp hsome
  obtain ⟨row', hrow', hkeeps⟩ := run_keeps hrow hdone after hkeep
  refine ⟨row', stored, hrow', hkeeps, hstored, ?_⟩
  rintro now taskId' result route rfl hroute hmcp
  rw [Inbox.taskId_of_task? hrow] at hid
  exact completeFallback_completed hrow' hkeeps.status (hkeeps.result.trans hstored) hid
    ⟨hroute, hmcp⟩ now result


section Sample

/-- A task without evidence. -/
def sampleTask : ReasonTaskRequest where
  taskId := "t1"
  requestId := "r1"
  topic := "topic"
  kind := .currentState
  instruction := "state it"
  evidence := []

/-- Publish the sample task. -/
def samplePublish : InboxOp Runtime.ascii :=
  .publish none (.ofMicros 0) (.ok sampleTask) .zero none (some (.ofMicros 3600000000))

/-- A published task that a fallback completes with no claims. -/
def sampleRun : List (InboxOp Runtime.ascii) :=
  [samplePublish, .completeFallback (.ofMicros 1) "t1" (.ok ⟨"t1", []⟩) "deterministic"]

/-- Publishing the task again changes nothing about its outcome. -/
theorem first_completion_wins_republish :
    ∃ row row' stored, (InboxSystem.run {} sampleRun).inbox.task? "t1" = some row ∧
      ((InboxSystem.run {} sampleRun).run [samplePublish]).inbox.task? "t1" = some row' ∧
      row.Keeps row' ∧ row.result = some stored ∧
      ∀ now taskId' result route, strip taskId' = "t1" →
        strip route ≠ "" → strip route ≠ "mcp" →
        completeFallback Runtime.ascii now taskId' result route
            ((InboxSystem.run {} sampleRun).run [samplePublish]).inbox =
          (.ok stored, ((InboxSystem.run {} sampleRun).run [samplePublish]).inbox) := by
  have hsome : ((InboxSystem.run {} sampleRun).inbox.task? "t1").isSome := by decide +kernel
  have hdone : ((InboxSystem.run {} sampleRun).inbox.task? "t1").map (·.status) =
      some .completed := by decide +kernel
  have hruns : ((InboxSystem.run {} sampleRun).step samplePublish).inbox.runs.rows.length = 0 := by
    decide +kernel
  obtain ⟨row, hrow⟩ := Option.isSome_iff_exists.mp hsome
  rw [hrow] at hdone
  have hkeep : ∀ done op rest, [samplePublish] = done ++ op :: rest →
      ¬ RetiresRunOf ((InboxSystem.run {} sampleRun).run done) "t1" op := by
    rintro done op rest h ⟨last, -, -, run, hrun, -⟩
    cases done with
    | nil =>
      obtain ⟨rfl, -⟩ := List.cons.inj h
      have hmem := Table.mem_of_find? hrun
      rw [InboxSystem.run, List.foldl_nil, List.length_eq_zero_iff.mp hruns] at hmem
      cases hmem
    | cons _ done => simp at h
  obtain ⟨row', stored, h⟩ :=
    first_completion_wins sampleRun [samplePublish] hrow (Option.some.inj hdone) hkeep
  exact ⟨row, row', stored, hrow, h⟩

end Sample
end CyberBrain.Dreaming
