import CyberBrain.Dreaming.InboxChanges
import CyberBrain.Foundation.Run

/-!
# Completed tasks and their requests

A result is validated when its task is completed. A later registration of the task replaces the
request and keeps the result, which still answers the request only if the new evidence covers it.
-/

namespace CyberBrain.Dreaming

open Python ReasonerProvider Tenancy

variable {py : Runtime}

/-! ### Tasks, their requests and their results -/

/-- The request and the result of a task carry its id. -/
structure TaskRow.Consistent (row : TaskRow) : Prop where
  request : row.request.taskId = row.taskId
  result : row.status = .completed → ∃ result, row.result = some result ∧
    result.taskId = row.taskId

def InboxSystem.Consistent (s : InboxSystem) : Prop :=
  ∀ id row, s.inbox.task? id = some row → row.Consistent

lemma Registration.consistent_row {reg : Registration} {request : ReasonTaskRequest}
    {o : Option TaskRow} (hid : ∀ row ∈ o, row.taskId = request.taskId)
    (h : ∀ row ∈ o, row.Consistent) : (reg.row request o).Consistent where
  request := by rw [reg.row_request, Registration.row_taskId hid]
  result hdone := by
    rcases reg.row_status request o with ⟨-, row, rfl, hrow, hresult⟩ | ⟨hpending, -⟩
    · obtain ⟨result, hsome, htask⟩ := (h row rfl).result hrow
      refine ⟨result, hresult.trans hsome, ?_⟩
      rw [htask, Registration.row_taskId hid, hid row rfl]
    · exact absurd (hpending.symm.trans hdone) (by simp)

lemma TaskRow.Consistent.complete {row : TaskRow} (h : row.Consistent)
    {result : ReasonTaskResult} (hvalid : validateTaskResult py row.request result = .ok result)
    (route : String) (now : Instant) : (row.complete result route now).Consistent :=
  ⟨h.request, fun _ => ⟨result, rfl, (validateTaskResult_eq_ok.mp hvalid).1.trans h.request⟩⟩

lemma InboxSystem.Consistent.step {s : InboxSystem} (h : s.Consistent) (op : InboxOp py) :
    (s.step op).Consistent := by
  intro id row' hrow'
  have hchange := taskChange_step s op id
  rw [hrow'] at hchange
  generalize ho : some row' = o at hchange
  cases hchange with
  | keep => exact h id row' ho.symm
  | register hreg hmem hid =>
    cases ho
    subst hid
    exact Registration.consistent_row (fun row hrow => Inbox.taskId_of_task? hrow)
      fun row hrow => h _ row hrow
  | claim _ hrow hclaimable =>
    cases ho
    exact ⟨(h id _ hrow).request, fun hdone => absurd hdone (by simp [TaskRow.claim])⟩
  | complete hrow _ hvalid =>
    cases ho
    exact (h id _ hrow).complete hvalid _ _
  | mark hrow =>
    cases ho
    exact ⟨(h id _ hrow).request, fun hdone => absurd hdone (by simp)⟩
  | retire => cases ho

/-! ### Answers -/

variable (py) in
/-- The stored result of a completed task is one that its stored request accepts. -/
def TaskRow.Answers (row : TaskRow) : Prop :=
  row.status = .completed →
    ∃ result, row.result = some result ∧ validateTaskResult py row.request result = .ok result

variable (py) in
def InboxSystem.Answers (s : InboxSystem) : Prop :=
  ∀ id row, s.inbox.task? id = some row → row.Answers py

/-- The result that a completed task keeps is covered by the evidence of a new request for it. -/
def InboxSystem.KeptCovered (s : InboxSystem) (request : ReasonTaskRequest) : Prop :=
  ∀ row, s.inbox.task? request.taskId = some row → row.status = .completed →
    ∀ result, row.result = some result → result.CitesOnly request

/-- The call registers a completed task only with evidence that covers the result it keeps. -/
def InboxOp.Covers (s : InboxSystem) (op : InboxOp py) : Prop :=
  ∀ reg, op.registration s = some reg → ∀ request ∈ reg.requests, s.KeptCovered request

/-- A step keeps the answers exactly if it covers the results that it keeps. -/
lemma InboxSystem.answers_step_iff {s : InboxSystem} {op : InboxOp py} (hcons : s.Consistent)
    (h : s.Answers py) : (s.step op).Answers py ↔ op.Covers s := by
  constructor
  · intro hstep reg hreg request hmem row hrow hdone result hresult
    obtain ⟨hnodup, -, hwrite⟩ := registration_spec hreg
    have hnew : (s.step op).inbox.task? request.taskId = some (reg.row request (some row)) := by
      rw [hwrite, Registration.write_of_mem hnodup hmem, hrow]
    rcases reg.row_status request (some row) with ⟨hstatus, row', hrow', -, hkept⟩ | ⟨hopen, -⟩
    · cases hrow'
      obtain ⟨result', hresult', hvalid⟩ := hstep _ _ hnew hstatus
      rw [hkept, hresult] at hresult'
      cases hresult'
      rw [reg.row_request] at hvalid
      exact (validateTaskResult_eq_ok.mp hvalid).2
    · simp [Registration.row, TaskRow.register, hdone] at hopen
  · intro hcovers id row' hrow' hdone
    have hchange := taskChange_step s op id
    rw [hrow'] at hchange
    generalize ho : some row' = o at hchange
    cases hchange with
    | keep => exact h id row' ho.symm hdone
    | register hreg hmem hid =>
      rename_i reg request
      cases ho
      subst hid
      rcases reg.row_status request (s.inbox.task? request.taskId) with
        ⟨-, row, hrow, hstatus, hkept⟩ | ⟨hopen, -⟩
      · obtain ⟨result, hresult, htask⟩ := (hcons _ row hrow).result hstatus
        refine ⟨result, hkept.trans hresult, ?_⟩
        rw [reg.row_request, validateTaskResult_eq_ok]
        exact ⟨htask.trans (Inbox.taskId_of_task? hrow),
          hcovers reg hreg request hmem row hrow hstatus result hresult⟩
      · exact absurd (hopen.symm.trans hdone) (by simp)
    | claim => cases ho; exact absurd hdone (by simp [TaskRow.claim])
    | complete _ _ hvalid => cases ho; exact ⟨_, rfl, hvalid⟩
    | mark => cases ho; exact absurd hdone (by simp)
    | retire => cases ho

/-- In a run from the empty inbox, every completed task answers its stored request at all times
exactly if every registration covers the results that it keeps. -/
theorem completed_answers_iff (ops : List (InboxOp py)) :
    (∀ done rest, ops = done ++ rest → (InboxSystem.run {} done).Answers py) ↔
      ∀ done op rest, ops = done ++ op :: rest → op.Covers (InboxSystem.run {} done) :=
  forall_prefix_iff (I := InboxSystem.Consistent)
    (fun _ _ hcons h => InboxSystem.answers_step_iff hcons h) (fun _ op h => h.step op)
    (fun id row h => absurd h (by simp)) (fun id row h => absurd h (by simp)) ops

section Sample

/-- A claim that cites one piece of evidence. -/
def sampleClaim : ReasonTaskClaim where
  claim := "a fact"
  evidenceIds := ["e1"]
  confidence := .zero
  confidence_nonneg := Binary64.value_zero_nonneg
  confidence_le_one := Binary64.value_zero_le_one

/-- The sample task with that evidence. -/
def citedTask : ReasonTaskRequest :=
  { sampleTask with evidence := [⟨"e1", "episode", "it is so", none, none, []⟩] }

/-- The task is completed with its evidence, then published again without. -/
def uncoveredRun : List (InboxOp Runtime.ascii) :=
  [.publish none (.ofMicros 0) (.ok citedTask) .zero none (some (.ofMicros 3600000000)),
    .completeFallback (.ofMicros 1) "t1" (.ok ⟨"t1", [sampleClaim]⟩) "deterministic",
    samplePublish]

/-- A task that is published again with other evidence keeps a result that its stored request does
not accept. -/
theorem republished_task_keeps_result : ∃ row result,
    (InboxSystem.run {} uncoveredRun).inbox.task? "t1" = some row ∧ row.status = .completed ∧
      row.result = some result ∧ validateTaskResult Runtime.ascii row.request result ≠ .ok result ∧
      ¬ (InboxSystem.run {} uncoveredRun).Answers Runtime.ascii := by
  have hcheck : ((InboxSystem.run {} uncoveredRun).inbox.task? "t1").any (fun row =>
      row.status = .completed && row.result.any fun result =>
        (validateTaskResult Runtime.ascii row.request result).toOption.isNone) = true := by
    decide +kernel
  obtain ⟨row, hrow, hcheck⟩ := (Option.any_eq_true _ _).mp hcheck
  rw [Bool.and_eq_true, decide_eq_true_eq] at hcheck
  obtain ⟨hdone, hcheck⟩ := hcheck
  obtain ⟨result, hresult, hcheck⟩ := (Option.any_eq_true _ _).mp hcheck
  have hrejected : validateTaskResult Runtime.ascii row.request result ≠ .ok result := by
    intro hvalid
    simp [hvalid, Except.toOption] at hcheck
  refine ⟨row, result, hrow, hdone, hresult, hrejected, fun hanswers => ?_⟩
  obtain ⟨result', hresult', hvalid⟩ := hanswers "t1" row hrow hdone
  rw [hresult] at hresult'
  cases hresult'
  exact hrejected hvalid

end Sample

end CyberBrain.Dreaming
