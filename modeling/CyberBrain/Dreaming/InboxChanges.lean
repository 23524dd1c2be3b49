import CyberBrain.Dreaming.FirstCompletion

/-!
# What the calls of the inbox change

A call does to one task one of a few things, each under the conditions that the call has checked.
The results about runs of the inbox are case analyses over these changes.
-/

namespace CyberBrain.Dreaming

open Python ReasonerProvider Tenancy

variable {py : Runtime}

@[simp] lemma Inbox.task?_empty (id : String) : ({} : Inbox).task? id = none := rfl

@[simp] lemma Inbox.run?_empty (id : String) : ({} : Inbox).run? id = none := rfl

/-! ### Registrations -/

/-- What a successful `register_run` or `publish` writes into the tasks; the first of them also
registers the run. -/
structure Registration where
  wholeRun : Bool
  requestId : String
  deadlineAt : Instant
  now : Instant
  authority : Json
  requests : List ReasonTaskRequest

/-- The row that `_upsert_task` leaves. -/
def Registration.row (reg : Registration) (request : ReasonTaskRequest) : Option TaskRow → TaskRow
  | none     =>
    { taskId := request.taskId, requestId := reg.requestId, request, status := .pending
      deadlineAt := reg.deadlineAt, createdAt := reg.now, updatedAt := reg.now
      authority := some reg.authority }
  | some row => row.register request reg.requestId reg.deadlineAt reg.now

/-- The task that the registration leaves under an id. -/
def Registration.write (reg : Registration) (inbox : Inbox) (id : String) : Option TaskRow :=
  match reg.requests.find? fun request => request.taskId = id with
  | some request => some (reg.row request (inbox.task? id))
  | none         => inbox.task? id

/-- The registration that a call makes, if it makes one. -/
def InboxOp.registration (s : InboxSystem) : InboxOp py → Option Registration
  | .registerRun bound now requestId request tasks waitSeconds => do
    (Dreaming.registerRun bound now requestId request tasks waitSeconds s.inbox).1.toOption
    let requests ← tasks.toOption
    let deadlineAt ← (deadlineAfter py now waitSeconds).toOption
    some { wholeRun := true, requestId := strip requestId, deadlineAt, now
           authority := authoritySnapshot bound, requests }
  | .publish bound now request waitSeconds requestId deadlineAt => do
    (Dreaming.publish bound now request waitSeconds requestId deadlineAt s.inbox).1.toOption
    let request ← request.toOption
    let deadlineAt ← (publishDeadline py now waitSeconds deadlineAt).toOption
    some { wholeRun := false, requestId := publishRunId request requestId, deadlineAt, now
           authority := authoritySnapshot bound, requests := [request] }
  | _ => none

@[simp] lemma Registration.row_taskId {reg : Registration} {request : ReasonTaskRequest}
    {o : Option TaskRow} (h : ∀ row ∈ o, row.taskId = request.taskId) :
    (reg.row request o).taskId = request.taskId := by
  cases o with
  | none => rfl
  | some row => exact h row rfl

@[simp] lemma Registration.row_requestId (reg : Registration) (request : ReasonTaskRequest)
    (o : Option TaskRow) : (reg.row request o).requestId = reg.requestId := by
  cases o <;> rfl

@[simp] lemma Registration.row_request (reg : Registration) (request : ReasonTaskRequest)
    (o : Option TaskRow) : (reg.row request o).request = request := by
  cases o <;> rfl

/-- A registration keeps the outcome of a completed task, and opens every other one. -/
lemma Registration.row_status (reg : Registration) (request : ReasonTaskRequest)
    (o : Option TaskRow) : (reg.row request o).status = .completed ∧
        (∃ row, o = some row ∧ row.status = .completed ∧
          (reg.row request o).result = row.result) ∨
      (reg.row request o).status = .pending ∧ (reg.row request o).claimToken = none := by
  cases o with
  | none => exact .inr ⟨rfl, rfl⟩
  | some row =>
    by_cases hdone : row.status = .completed
    · exact .inl ⟨by simp [Registration.row, TaskRow.register, hdone], row, rfl, hdone,
        by simp [Registration.row, TaskRow.register, hdone]⟩
    · exact .inr ⟨by simp [Registration.row, TaskRow.register, hdone],
        by simp [Registration.row, TaskRow.register, hdone]⟩

lemma Registration.write_of_mem {reg : Registration}
    (hnodup : (reg.requests.map (·.taskId)).Nodup) {request : ReasonTaskRequest}
    (h : request ∈ reg.requests) (inbox : Inbox) : reg.write inbox request.taskId =
      some (reg.row request (inbox.task? request.taskId)) := by
  rw [Registration.write, find?_key_of_mem hnodup h]

section Writes

variable {bound : Option (CallerAuthority py)} {reg : Registration} {inbox inbox' : Inbox}

lemma upsertTask_write (reg : Registration) (hauth : reg.authority = authoritySnapshot bound)
    {request : ReasonTaskRequest}
    (h : upsertTask bound reg.requestId reg.deadlineAt reg.now inbox request = .ok inbox')
    (id : String) : inbox'.task? id =
      if id = request.taskId then some (reg.row request (inbox.task? id)) else inbox.task? id := by
  unfold upsertTask at h
  split at h
  · rename_i hnone
    cases h
    simp only [Inbox.task?, Table.find?_upsert] at hnone ⊢
    split_ifs with hid
    · rw [hid, hnone, Registration.row, hauth]
    · rfl
  · rename_i row hrow
    obtain ⟨-, -, h⟩ := bind_eq_ok.mp h
    cases h
    refine (Inbox.task?_updateTask inbox request.taskId id _ _).trans ?_
    split_ifs with hid
    · rw [hid, hrow]
      rfl
    · rfl

lemma foldlM_upsertTask_write (reg : Registration) (hauth : reg.authority = authoritySnapshot bound)
    {requests : List ReasonTaskRequest} (hnodup : (requests.map (·.taskId)).Nodup)
    (h : requests.foldlM (upsertTask bound reg.requestId reg.deadlineAt reg.now) inbox =
      .ok inbox') (id : String) :
    inbox'.task? id = match requests.find? fun request => request.taskId = id with
      | some request => some (reg.row request (inbox.task? id))
      | none         => inbox.task? id := by
  induction requests generalizing inbox with
  | nil => cases h; rfl
  | cons request requests ih =>
    rw [List.foldlM_cons] at h
    obtain ⟨mid, hmid, h⟩ := bind_eq_ok.mp h
    obtain ⟨hfresh, hnodup⟩ := List.nodup_cons.mp hnodup
    have hwrite := upsertTask_write reg hauth hmid id
    rw [ih hnodup h, List.find?_cons]
    by_cases hid : request.taskId = id
    · have hnone : (requests.find? fun r => r.taskId = id) = none := by
        rw [List.find?_eq_none]
        intro r hr hrid
        exact hfresh (List.mem_map.mpr ⟨r, hr, (of_decide_eq_true hrid).trans hid.symm⟩)
      rw [if_pos hid.symm] at hwrite
      simp only [hnone, hid, decide_true]
      exact hwrite
    · rw [if_neg (Ne.symm hid)] at hwrite
      simp only [hid, decide_false, hwrite]

lemma upsertRun_write {requestId : String} {request : Json} {taskCount : ℕ}
    {deadlineAt now : Instant}
    (h : upsertRun bound requestId request taskCount deadlineAt now inbox = .ok inbox')
    (id : String) : (id ≠ requestId → inbox'.run? id = inbox.run? id) ∧
      ∃ run, inbox'.run? requestId = some run ∧ run.expectedTaskCount = taskCount ∧
        run.retiredAt = (inbox.run? requestId).bind (·.retiredAt) := by
  unfold upsertRun at h
  split at h
  · rename_i hnone
    cases h
    refine ⟨fun hne => Table.find?_upsert_of_ne _ _ hne, _, Table.find?_upsert_self _ _, rfl, ?_⟩
    rw [hnone]
    rfl
  · rename_i run hrun
    obtain ⟨-, -, h⟩ := bind_eq_ok.mp h
    cases h
    refine ⟨fun hne => Table.find?_modify_of_ne _ _ ?_ hne, _,
      (Table.find?_modify_self _ _ _ ?_).trans (congrArg (Option.map _) hrun), rfl, ?_⟩
    · exact fun _ h => h
    · exact fun _ h => h
    · rw [hrun]
      rfl

end Writes

lemma not_retired_of_assert {inbox : Inbox} {requestId : String} {u : Unit}
    (h : assertNotRetired inbox requestId = .ok u) : ¬ inbox.Retired requestId := by
  rintro ⟨run, hrun, hne⟩
  rw [assertNotRetired, require_eq_ok, hrun] at h
  exact hne h

/-- What `register_run` does when it returns. -/
lemma registerRun_ok {bound : Option (CallerAuthority py)} {now : Instant} {requestId : String}
    {request : Json} {tasks : Except Exc (List ReasonTaskRequest)} {waitSeconds : Binary64}
    {inbox : Inbox}
    (h : (registerRun bound now requestId request tasks waitSeconds inbox).1 = .ok ()) :
    ∃ requests deadlineAt, tasks = .ok requests ∧ deadlineAfter py now waitSeconds = .ok deadlineAt ∧
      (requests.map (·.taskId)).Nodup ∧ ¬ inbox.Retired (strip requestId) ∧
      ∃ mid, upsertRun bound (strip requestId) request requests.length deadlineAt now inbox =
          .ok mid ∧
        requests.foldlM (upsertTask bound (strip requestId) deadlineAt now) mid =
          .ok (registerRun bound now requestId request tasks waitSeconds inbox).2 := by
  revert h
  unfold registerRun
  rcases Program.atomically_cases _ inbox with ⟨_, t, h, heq⟩ | ⟨e, -, heq⟩ <;> rw [heq]
  · intro _
    simp only [bind_eq_ok] at h
    obtain ⟨-, -, -, -, requests, htasks, _, hdup, -, -, deadline, hdeadline, _, hretired, mid,
      hmid, t', hfold, h⟩ := h
    rw [require_eq_ok] at hdup
    cases h
    refine ⟨requests, deadline, htasks, hdeadline, ?_, ?_, mid, hmid, hfold⟩
    · rw [List.nodup_iff_count_le_one]
      intro id
      by_contra hcount
      have hmem : id ∈ FrozenSet.ofList
          ((requests.map (·.taskId)).filter fun id => 1 < (requests.map (·.taskId)).count id) := by
        rw [FrozenSet.mem_ofList, List.mem_filter]
        exact ⟨List.count_pos_iff.mp (by omega), by simpa using hcount⟩
      rw [FrozenSet.mem_def, hdup] at hmem
      cases hmem
    · exact not_retired_of_assert hretired
  · exact fun h => absurd h (by simp)

/-- What `publish` does when it returns. -/
lemma publish_ok {bound : Option (CallerAuthority py)} {now : Instant}
    {request : Except Exc ReasonTaskRequest} {waitSeconds : Binary64} {requestId : Option String}
    {deadlineAt : Option Instant} {inbox : Inbox}
    (h : (publish bound now request waitSeconds requestId deadlineAt inbox).1 = .ok ()) :
    ∃ r deadline, request = .ok r ∧ publishDeadline py now waitSeconds deadlineAt = .ok deadline ∧
      ¬ inbox.Retired (publishRunId r requestId) ∧
      upsertTask bound (publishRunId r requestId) deadline now inbox r =
        .ok (publish bound now request waitSeconds requestId deadlineAt inbox).2 := by
  revert h
  unfold publish
  rcases Program.atomically_cases _ inbox with ⟨_, t, h, heq⟩ | ⟨e, -, heq⟩ <;> rw [heq]
  · intro _
    simp only [bind_eq_ok] at h
    obtain ⟨-, -, r, hrequest, deadline, hdeadline, -, -, _, hretired, t', hupsert, h⟩ := h
    cases h
    exact ⟨r, deadline, hrequest, hdeadline, not_retired_of_assert hretired, hupsert⟩
  · exact fun h => absurd h (by simp)

/-- A registration: distinct tasks of a run that is not retired. -/
theorem registration_spec {s : InboxSystem} {op : InboxOp py} {reg : Registration}
    (h : op.registration s = some reg) : (reg.requests.map (·.taskId)).Nodup ∧
      ¬ s.inbox.Retired reg.requestId ∧
        ∀ id, (s.step op).inbox.task? id = reg.write s.inbox id := by
  cases op <;> simp only [InboxOp.registration] at h
  case registerRun bound now requestId request tasks waitSeconds =>
    simp only [Option.bind_eq_bind, Option.bind_eq_some_iff, toOption_eq_some] at h
    obtain ⟨_, hok, requests, htasks, deadlineAt, hdeadline, h⟩ := h
    cases h
    obtain ⟨requests', deadlineAt', htasks', hdeadline', hnodup, hretired, mid, hmid, hfold⟩ :=
      registerRun_ok hok
    cases htasks.symm.trans htasks'
    cases hdeadline.symm.trans hdeadline'
    refine ⟨hnodup, hretired, fun id => ?_⟩
    have hsame : mid.task? id = s.inbox.task? id := by
      rw [Inbox.task?, Inbox.task?, upsertRun_tasks bound now s.inbox hmid]
    have hwrite := foldlM_upsertTask_write ⟨true, strip requestId, deadlineAt, now,
      authoritySnapshot bound, requests⟩ rfl hnodup hfold id
    rw [hsame] at hwrite
    exact hwrite
  case publish bound now request waitSeconds requestId deadlineAt =>
    simp only [Option.bind_eq_bind, Option.bind_eq_some_iff, toOption_eq_some] at h
    obtain ⟨_, hok, request, hrequest, deadline, hdeadline, h⟩ := h
    cases h
    obtain ⟨request', deadline', hrequest', hdeadline', hretired, hupsert⟩ := publish_ok hok
    cases hrequest.symm.trans hrequest'
    cases hdeadline.symm.trans hdeadline'
    refine ⟨List.nodup_singleton _, hretired, fun id => ?_⟩
    have hwrite := upsertTask_write ⟨false, publishRunId request requestId, deadline, now,
      authoritySnapshot bound, [request]⟩ rfl hupsert id
    simp only [Registration.write, List.find?_cons, List.find?_nil]
    by_cases hid : request.taskId = id
    · rw [if_pos hid.symm] at hwrite
      simp only [hid, decide_true]
      exact hwrite
    · rw [if_neg (Ne.symm hid)] at hwrite
      simp only [hid, decide_false]
      exact hwrite
  all_goals cases h

lemma registerRun_none {s : InboxSystem} {bound : Option (CallerAuthority py)} {now : Instant}
    {requestId : String} {request : Json} {tasks : Except Exc (List ReasonTaskRequest)}
    {waitSeconds : Binary64} (h : (InboxOp.registerRun bound now requestId request tasks
      waitSeconds).registration s = none) :
    (registerRun bound now requestId request tasks waitSeconds s.inbox).2 = s.inbox := by
  cases hok : (registerRun bound now requestId request tasks waitSeconds s.inbox).1 with
  | error e => exact Program.atomically_error hok
  | ok =>
    obtain ⟨requests, deadlineAt, rfl, hdeadline, -⟩ := registerRun_ok hok
    simp [InboxOp.registration, hok, hdeadline, Except.toOption] at h

lemma publish_none {s : InboxSystem} {bound : Option (CallerAuthority py)} {now : Instant}
    {request : Except Exc ReasonTaskRequest} {waitSeconds : Binary64} {requestId : Option String}
    {deadlineAt : Option Instant} (h : (InboxOp.publish bound now request waitSeconds requestId
      deadlineAt).registration s = none) :
    (publish bound now request waitSeconds requestId deadlineAt s.inbox).2 = s.inbox := by
  cases hok : (publish bound now request waitSeconds requestId deadlineAt s.inbox).1 with
  | error e => exact Program.atomically_error hok
  | ok =>
    obtain ⟨r, deadline, rfl, hdeadline, -⟩ := publish_ok hok
    simp [InboxOp.registration, hok, hdeadline, Except.toOption] at h

/-! ### Leases and completions -/

/-- The row of a task after `claim_next` leased it. -/
def TaskRow.claim (row : TaskRow) (lease : ReasonTaskLease) (now : Instant) : TaskRow :=
  { row with status := .claimed, claimToken := some lease.claimToken
             claimedBy := some lease.claimedBy, leaseUntil := some lease.leaseUntil
             updatedAt := now }

/-- The lease that a call hands out, if it hands one out. -/
def InboxOp.lease? (s : InboxSystem) : InboxOp py → Option ReasonTaskLease
  | .claimNext bound now token claimedBy leaseSeconds =>
    match (Dreaming.claimNext bound now token claimedBy leaseSeconds s.inbox).1 with
    | .ok lease => lease
    | .error _  => none
  | _ => none

/-- `claim_next` hands out a lease on an open task, or changes nothing. -/
lemma claimNext_cases (bound : Option (CallerAuthority py)) (now : Instant)
    (token claimedBy : String) (leaseSeconds : ℤ) (inbox : Inbox) :
    ((claimNext bound now token claimedBy leaseSeconds inbox).2 = inbox ∧
        ∀ lease, (claimNext bound now token claimedBy leaseSeconds inbox).1 ≠ .ok (some lease)) ∨
      ∃ row lease, (claimNext bound now token claimedBy leaseSeconds inbox).1 = .ok (some lease) ∧
        inbox.task? row.taskId = some row ∧ row.claimable now ∧ lease.task = row.request ∧
        lease.claimToken = token ∧ lease.deadlineAt = row.deadlineAt ∧ now < lease.leaseUntil ∧
        (claimNext bound now token claimedBy leaseSeconds inbox).2.runs = inbox.runs ∧
        ∀ id, (claimNext bound now token claimedBy leaseSeconds inbox).2.task? id =
          if id = row.taskId then some (row.claim lease now) else inbox.task? id := by
  unfold claimNext
  rcases Program.atomically_cases _ inbox with ⟨_, t, h, heq⟩ | ⟨e, -, heq⟩ <;> rw [heq]
  · simp only [bind_eq_ok] at h
    obtain ⟨-, -, _, hseconds, leaseUntil, hlease, clauses, -, h⟩ := h
    have hbefore : now < leaseUntil :=
      Instant.lt_of_add? (orRaise_eq_ok.mp hlease) (by have := require_eq_ok.mp hseconds; omega)
    split at h
    · cases h
      exact .inl ⟨rfl, fun lease h => absurd h (by simp)⟩
    · rename_i row hnext
      obtain ⟨-, -, h⟩ := bind_eq_ok.mp h
      have hrow := Table.find?_of_mem (mem_of_nextTask now inbox hnext)
      split_ifs at h with hclaimable
      · cases h
        refine .inr ⟨row, _, rfl, hrow, hclaimable, rfl, rfl, rfl, hbefore, rfl, fun id => ?_⟩
        refine (Inbox.task?_updateTask inbox row.taskId id _ _).trans ?_
        split_ifs with hid
        · rw [hid]
          exact congrArg (Option.map _) hrow
        · rfl
      · cases h
        exact .inl ⟨rfl, fun lease h => absurd h (by simp)⟩
  · exact .inl ⟨rfl, fun lease h => absurd h (by simp)⟩

/-- `submit` completes the task for the holder of a current lease, or changes nothing. -/
lemma submit_cases (bound : Option (CallerAuthority py)) (now : Instant)
    (taskId claimToken : String) (claims : Except Exc (List ReasonTaskClaim)) (inbox : Inbox) :
    ((submit bound now taskId claimToken claims inbox).2 = inbox ∧
        ∀ reply, (submit bound now taskId claimToken claims inbox).1 ≠ .ok reply) ∨
      ∃ row lease result, inbox.task? (strip taskId) = some row ∧ row.status = .claimed ∧
        row.claimToken = some (strip claimToken) ∧ row.leaseUntil = some lease ∧ now < lease ∧
        now < row.deadlineAt ∧ result.taskId = strip taskId ∧ claims = .ok result.claims ∧
        validateTaskResult py row.request result = .ok result ∧
        (submit bound now taskId claimToken claims inbox).2.runs = inbox.runs ∧
        ∀ id, (submit bound now taskId claimToken claims inbox).2.task? id =
          if id = strip taskId then some (row.complete result "mcp" now) else inbox.task? id := by
  unfold submit
  rcases Program.atomically_cases _ inbox with ⟨_, t, h, heq⟩ | ⟨e, -, heq⟩ <;> rw [heq]
  · simp only [bind_eq_ok, require_eq_ok, orRaise_eq_ok] at h
    obtain ⟨-, -, row, hrow, -, -, -, hclaimed, -, -, lease, hlease, -, hbefore, -, hdeadline,
      claims', hclaims, result, hresult, -, ⟨htoken, -⟩, h⟩ := h
    cases h
    obtain rfl := validateTaskResult_ok hresult
    refine .inr ⟨row, lease, _, hrow, hclaimed, htoken, hlease, hbefore, hdeadline, rfl, hclaims,
      hresult, rfl, fun id => ?_⟩
    refine (Inbox.task?_updateTask inbox (strip taskId) id _ _).trans ?_
    split_ifs with hid
    · rw [hid, hrow]
      rfl
    · rfl
  · exact .inl ⟨rfl, fun reply h => absurd h (by simp)⟩

/-- `complete_fallback` completes an open task, or changes nothing. -/
lemma completeFallback_cases (now : Instant) (taskId : String)
    (result : Except Exc ReasonTaskResult) (route : String) (inbox : Inbox) :
    (completeFallback py now taskId result route inbox).2 = inbox ∨
      ∃ row result', inbox.task? (strip taskId) = some row ∧ row.status ≠ .completed ∧
        result = .ok result' ∧ validateTaskResult py row.request result' = .ok result' ∧
        (completeFallback py now taskId result route inbox).2.runs = inbox.runs ∧
        ∀ id, (completeFallback py now taskId result route inbox).2.task? id =
          if id = strip taskId then some (row.complete result' (strip route) now)
          else inbox.task? id := by
  unfold completeFallback
  rcases Program.atomically_cases _ inbox with ⟨_, t, h, heq⟩ | ⟨e, -, heq⟩ <;> rw [heq]
  · simp only [bind_eq_ok, require_eq_ok, orRaise_eq_ok] at h
    obtain ⟨-, -, -, -, row, hrow, h⟩ := h
    by_cases hdone : row.status = .completed
    · rw [if_pos hdone, bind_eq_ok] at h
      obtain ⟨stored, -, h⟩ := h
      cases h
      exact .inl rfl
    · rw [if_neg hdone] at h
      simp only [bind_eq_ok] at h
      obtain ⟨result', hresult, result'', hvalid, h⟩ := h
      cases h
      obtain rfl := validateTaskResult_ok hvalid
      refine .inr ⟨row, _, hrow, hdone, hresult, hvalid, rfl, fun id => ?_⟩
      refine (Inbox.task?_updateTask inbox (strip taskId) id _ _).trans ?_
      split_ifs with hid
      · rw [hid, hrow]
        rfl
      · rfl
  · exact .inl rfl

/-! ### Retirements -/

/-- The cutoff of a retirement: `before`, or the present if that is earlier. -/
def retireCutoff (instant before : Instant) : Instant := if instant < before then instant else before

lemma Inbox.Retirable.not_retired {inbox : Inbox} {instant : Instant} {cutoff requestId : String}
    {run : RunRow} (h : inbox.Retirable instant cutoff requestId run) :
    ¬ inbox.Retired requestId := by
  rintro ⟨run', hrun', hretired⟩
  rw [h.stored] at hrun'
  cases hrun'
  exact hretired h.live

/-- `retire_finalized_runs` retires the runs that it reports as eligible, unless it runs dry. -/
lemma retireFinalizedRuns_cases (bound : Option (CallerAuthority py)) (instant : Instant)
    (requestIds : List String) (before : Instant) (dryRun : Bool) (inbox : Inbox) :
    ((retireFinalizedRuns bound instant requestIds before dryRun inbox).2 = inbox ∧
        ∀ reply, (retireFinalizedRuns bound instant requestIds before dryRun inbox).1 ≠ .ok reply) ∨
      ∃ reply, (retireFinalizedRuns bound instant requestIds before dryRun inbox).1 = .ok reply ∧
        (reply.eligible ++ reply.blocked).Nodup ∧
        (∀ id ∈ reply.eligible, ∃ run,
          inbox.Retirable instant (retireCutoff instant before).iso id run) ∧
        (retireFinalizedRuns bound instant requestIds before dryRun inbox).2 =
          inbox.retireAll (if dryRun then [] else reply.eligible) instant := by
  unfold retireFinalizedRuns
  rcases Program.atomically_cases _ inbox with ⟨reply, t, h, heq⟩ | ⟨e, -, heq⟩ <;> rw [heq]
  · simp only [bind_eq_ok] at h
    obtain ⟨-, -, -, -, h⟩ := h
    obtain ⟨eligible, blocked, heligible, hblocked, hperm, hretirable, hinbox⟩ := retireLoop_spec h
    rw [List.nil_append] at heligible hblocked
    subst heligible hblocked
    exact .inr ⟨reply, rfl, hperm.nodup_iff.mpr (FrozenSet.nodup_sorted _), hretirable, hinbox⟩
  · exact .inl ⟨rfl, fun reply h => absurd h (by simp)⟩

/-! ### The changes of one task -/

/-- What a call makes of the task under `id`. -/
inductive TaskChange (s : InboxSystem) (id : String) : InboxOp py → Option TaskRow → Prop
  | keep (op : InboxOp py) : TaskChange s id op (s.inbox.task? id)
  | register {op : InboxOp py} {reg : Registration} {request : ReasonTaskRequest}
      (hreg : op.registration s = some reg) (hmem : request ∈ reg.requests)
      (hid : request.taskId = id) :
      TaskChange s id op (some (reg.row request (s.inbox.task? id)))
  | claim {bound : Option (CallerAuthority py)} {now : Instant} {token claimedBy : String}
      {leaseSeconds : ℤ} {row : TaskRow} {lease : ReasonTaskLease}
      (hlease : (InboxOp.claimNext bound now token claimedBy leaseSeconds).lease? s = some lease)
      (hrow : s.inbox.task? id = some row) (hclaimable : row.claimable now)
      (htask : lease.task = row.request) (htoken : lease.claimToken = token)
      (hdeadline : lease.deadlineAt = row.deadlineAt) (hbefore : now < lease.leaseUntil) :
      TaskChange s id (.claimNext bound now token claimedBy leaseSeconds)
        (some (row.claim lease now))
  | complete {op : InboxOp py} {row : TaskRow} {result : ReasonTaskResult} {route : String}
      {now : Instant} (hrow : s.inbox.task? id = some row) (hopen : row.status ≠ .completed)
      (hvalid : validateTaskResult py row.request result = .ok result) :
      TaskChange s id op (some (row.complete result route now))
  | mark {op : InboxOp py} {row : TaskRow} {route : String} {now : Instant}
      (hrow : s.inbox.task? id = some row) (hopen : row.status ≠ .completed) :
      TaskChange s id op (some { row with status := .fallback, route := some route
                                          updatedAt := now })
  | retire {bound : Option (CallerAuthority py)} {instant : Instant} {requestIds : List String}
      {before : Instant} {row : TaskRow} {run : RunRow} (hrow : s.inbox.task? id = some row)
      (hrun : s.inbox.Retirable instant (retireCutoff instant before).iso row.requestId run)
      (hretired : (s.step (.retireFinalizedRuns bound instant requestIds before false)).inbox.Retired
        row.requestId) :
      TaskChange s id (.retireFinalizedRuns bound instant requestIds before false) none

/-- One call makes one change of a task. -/
theorem taskChange_step (s : InboxSystem) (op : InboxOp py) (id : String) :
    TaskChange s id op ((s.step op).inbox.task? id) := by
  have hkeep : ∀ {o}, o = s.inbox.task? id → TaskChange s id op o := by
    rintro _ rfl
    exact .keep op
  cases hreg : op.registration s with
  | some reg =>
    have hwrite := (registration_spec hreg).2.2 id
    rw [Registration.write] at hwrite
    split at hwrite
    · rename_i request hfind
      rw [hwrite]
      exact .register hreg (List.mem_of_find?_eq_some hfind) (by simpa using List.find?_some hfind)
    · exact hkeep hwrite
  | none =>
    cases op with
    | registerRun => exact hkeep (congrArg (Inbox.task? · id) (registerRun_none hreg))
    | publish => exact hkeep (congrArg (Inbox.task? · id) (publish_none hreg))
    | claimNext bound now token claimedBy leaseSeconds =>
      simp only [InboxSystem.step]
      rcases claimNext_cases bound now token claimedBy leaseSeconds s.inbox with
        ⟨hsame, -⟩ |
          ⟨row, lease, hok, hrow, hclaimable, htask, htoken, hdeadline, hbefore, -, hwrite⟩
      · exact hkeep (by rw [hsame])
      · have hlease : (InboxOp.claimNext bound now token claimedBy leaseSeconds).lease? s =
            some lease := by
          rw [InboxOp.lease?, hok]
        by_cases hid : id = row.taskId
        · rw [hwrite, if_pos hid]
          exact .claim hlease (hid ▸ hrow) hclaimable htask htoken hdeadline hbefore
        · exact hkeep (by rw [hwrite, if_neg hid])
    | submit bound now taskId claimToken claims =>
      simp only [InboxSystem.step]
      rcases submit_cases bound now taskId claimToken claims s.inbox with
        ⟨hsame, -⟩ | ⟨row, lease, result, hrow, hclaimed, -, -, -, -, -, -, hvalid, -, hwrite⟩
      · exact hkeep (by rw [hsame])
      · by_cases hid : id = strip taskId
        · rw [hwrite, if_pos hid]
          exact .complete (hid ▸ hrow) (by simp [hclaimed]) hvalid
        · exact hkeep (by rw [hwrite, if_neg hid])
    | completeFallback now taskId result route =>
      simp only [InboxSystem.step]
      rcases completeFallback_cases now taskId result route s.inbox with
        hsame | ⟨row, result', hrow, hopen, -, hvalid, -, hwrite⟩
      · exact hkeep (by rw [hsame])
      · by_cases hid : id = strip taskId
        · rw [hwrite, if_pos hid]
          exact .complete (hid ▸ hrow) hopen hvalid
        · exact hkeep (by rw [hwrite, if_neg hid])
    | checkMark bound taskId route =>
      refine hkeep ?_
      simp only [InboxSystem.step]
      split <;> rfl
    | markFallback now taskId route =>
      simp only [InboxSystem.step]
      split_ifs
      · simp only [markFallback, Inbox.task?_updateTask]
        split_ifs with hid
        · cases hrow : s.inbox.task? id with
          | none => exact hkeep hrow.symm
          | some row =>
            by_cases hdone : row.status = .completed
            · exact hkeep (by simp [hrow, hdone])
            · simp only [Option.map_some, ne_eq, hdone, not_false_eq_true, if_true]
              exact .mark hrow hdone
        · exact hkeep rfl
      · exact hkeep rfl
    | retireFinalizedRuns bound instant requestIds before dryRun =>
      rcases retireFinalizedRuns_cases bound instant requestIds before dryRun s.inbox with
        ⟨hsame, -⟩ | ⟨reply, -, -, hretirable, hinbox⟩
      · exact hkeep (by rw [InboxSystem.step, hsame])
      · have htask : (s.step (.retireFinalizedRuns bound instant requestIds before
            dryRun)).inbox.task? id = (s.inbox.task? id).filter fun row =>
              row.requestId ∉ if dryRun then [] else reply.eligible := by
          rw [InboxSystem.step, hinbox, Inbox.task?_retireAll]
        cases hrow : s.inbox.task? id with
        | none => exact hkeep (by rw [htask, hrow]; rfl)
        | some row =>
          by_cases hmem : row.requestId ∈ if dryRun then [] else reply.eligible
          · cases dryRun with
            | true => cases hmem
            | false =>
              obtain ⟨run, hrun⟩ := hretirable _ hmem
              have hnone : (s.step (.retireFinalizedRuns bound instant requestIds before
                  false)).inbox.task? id = none := by
                rw [htask, hrow, Option.filter_some, if_neg]
                exact fun h => of_decide_eq_true h hmem
              rw [hnone]
              refine .retire hrow hrun ?_
              rw [InboxSystem.step, hinbox]
              exact Inbox.retired_retireAll hmem hrun.stored instant
          · refine hkeep ?_
            rw [htask, hrow, Option.filter_some, if_pos (decide_eq_true hmem)]

/-! ### The changes of the runs -/

/-- The registration of a whole run writes its row; every other row stays as it is. -/
theorem registration_run {s : InboxSystem} {op : InboxOp py} {reg : Registration}
    (h : op.registration s = some reg) (id : String) :
    (reg.wholeRun = true → ∃ run, (s.step op).inbox.run? reg.requestId = some run ∧
      run.expectedTaskCount = reg.requests.length ∧ run.retiredAt = none) ∧
    ((reg.wholeRun = true → id ≠ reg.requestId) →
      (s.step op).inbox.run? id = s.inbox.run? id) := by
  cases op <;> simp only [InboxOp.registration] at h
  case registerRun bound now requestId request tasks waitSeconds =>
    simp only [Option.bind_eq_bind, Option.bind_eq_some_iff, toOption_eq_some] at h
    obtain ⟨_, hok, requests, htasks, deadlineAt, hdeadline, h⟩ := h
    cases h
    obtain ⟨requests', deadlineAt', htasks', hdeadline', hnodup, hretired, mid, hmid, hfold⟩ :=
      registerRun_ok hok
    cases htasks.symm.trans htasks'
    have hruns : ∀ id, (s.step (.registerRun bound now requestId request tasks
        waitSeconds)).inbox.run? id = mid.run? id := fun id => by
      rw [Inbox.run?, Inbox.run?, InboxSystem.step, (foldlM_upsertTask_steps hfold).1]
    obtain ⟨hother, run, hrun, hcount, hnone⟩ := upsertRun_write hmid id
    refine ⟨fun _ => ⟨run, (hruns _).trans hrun, hcount, ?_⟩, fun hne => ?_⟩
    · rw [hnone]
      by_contra hne
      obtain ⟨at', hat⟩ := Option.ne_none_iff_exists'.mp hne
      obtain ⟨old, hold, hold'⟩ := Option.bind_eq_some_iff.mp hat
      exact hretired ⟨old, hold, by simp [hold']⟩
    · exact (hruns id).trans (hother (hne rfl))
  case publish bound now request waitSeconds requestId deadlineAt =>
    simp only [Option.bind_eq_bind, Option.bind_eq_some_iff, toOption_eq_some] at h
    obtain ⟨_, hok, request, hrequest, deadline, hdeadline, h⟩ := h
    cases h
    obtain ⟨request', deadline', hrequest', hdeadline', hretired, hupsert⟩ := publish_ok hok
    refine ⟨fun h => absurd h (by simp), fun _ => ?_⟩
    rw [Inbox.run?, Inbox.run?, InboxSystem.step, (upsertTask_steps hupsert).1]
  all_goals cases h

/-- A call that registers nothing keeps a run as it is or retires it and deletes its tasks. -/
theorem run?_step {s : InboxSystem} {op : InboxOp py} (h : op.registration s = none)
    (id : String) : (s.step op).inbox.run? id = s.inbox.run? id ∨
      ¬ s.inbox.Retired id ∧ (s.step op).inbox.Retired id ∧
        ∀ taskId row, (s.step op).inbox.task? taskId = some row → row.requestId ≠ id := by
  have hkeep : ∀ {inbox : Inbox}, inbox.runs = s.inbox.runs →
      inbox.run? id = s.inbox.run? id := fun h => by
    rw [Inbox.run?, Inbox.run?, h]
  cases op <;> simp only [InboxSystem.step]
  case registerRun => exact .inl (congrArg (Inbox.run? · id) (registerRun_none h))
  case publish => exact .inl (congrArg (Inbox.run? · id) (publish_none h))
  case claimNext bound now token claimedBy leaseSeconds =>
    rcases claimNext_cases bound now token claimedBy leaseSeconds s.inbox with
      ⟨hsame, -⟩ | ⟨row, lease, -, -, -, -, -, -, -, hruns, -⟩
    · exact .inl (by rw [hsame])
    · exact .inl (hkeep hruns)
  case submit bound now taskId claimToken claims =>
    rcases submit_cases bound now taskId claimToken claims s.inbox with
      ⟨hsame, -⟩ | ⟨row, lease, result, -, -, -, -, -, -, -, -, -, hruns, -⟩
    · exact .inl (by rw [hsame])
    · exact .inl (hkeep hruns)
  case completeFallback now taskId result route =>
    rcases completeFallback_cases now taskId result route s.inbox with
      hsame | ⟨row, result', -, -, -, -, hruns, -⟩
    · exact .inl (by rw [hsame])
    · exact .inl (hkeep hruns)
  case checkMark =>
    refine .inl ?_
    split <;> rfl
  case markFallback =>
    refine .inl ?_
    split_ifs <;> rfl
  case retireFinalizedRuns bound instant requestIds before dryRun =>
    rcases retireFinalizedRuns_cases bound instant requestIds before dryRun s.inbox with
      ⟨hsame, -⟩ | ⟨reply, -, -, hretirable, hinbox⟩
    · exact .inl (by rw [hsame])
    rw [hinbox]
    by_cases hid : id ∈ if dryRun then [] else reply.eligible
    · obtain ⟨run, hrun⟩ : ∃ run,
          s.inbox.Retirable instant (retireCutoff instant before).iso id run := by
        cases dryRun with
        | true => cases hid
        | false => exact hretirable id hid
      refine .inr ⟨hrun.not_retired, Inbox.retired_retireAll hid hrun.stored instant, ?_⟩
      rintro taskId row hrow rfl
      rw [Inbox.task?_retireAll, Option.filter_eq_some_iff] at hrow
      exact absurd hid (of_decide_eq_true hrow.2)
    · exact .inl (Inbox.run?_retireAll_of_notMem _ hid instant)

end CyberBrain.Dreaming
