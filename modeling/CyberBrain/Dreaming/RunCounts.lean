import CyberBrain.Dreaming.InboxChanges
import CyberBrain.Foundation.Run
import Mathlib.Data.Finset.Card

/-!
# The task counts of runs

A run stores how many tasks it expects, and the tasks name their run. The two agree as long as
registrations neither leave tasks of a run behind nor move tasks between registered runs.
-/

namespace CyberBrain.Dreaming

open Python ReasonerProvider Tenancy

variable {py : Runtime}

/-- The rows that `SELECT … WHERE request_id=?` finds. -/
def Inbox.tasksOf (inbox : Inbox) (requestId : String) : List TaskRow :=
  inbox.tasks.rows.filter (·.requestId = requestId)

/-- `run_ready`, on one state of the store. -/
def runReady (bound : Option (CallerAuthority py)) (now : Instant) (requestId : String)
    (inbox : Inbox) : Except Exc Bool := do
  let value := strip requestId
  let run ← orRaise (inbox.run? value) (.keyError value)
  assertRowVisible bound run.authority value
  let rows := inbox.tasksOf value
  require (rows.length = run.expectedTaskCount) (.runtimeError
    ("reason run task count mismatch: expected=" ++ toString run.expectedTaskCount ++
      ", actual=" ++ toString rows.length))
  if run.expectedTaskCount = 0 then pure true
  else if rows.all (·.status = .completed) then pure true
  else pure (run.deadlineAt ≤ now)

/-- The run is registered and not retired. -/
def Inbox.Live (inbox : Inbox) (requestId : String) : Prop :=
  ∃ run, inbox.run? requestId = some run ∧ run.retiredAt = none

/-- Every live run has as many tasks as it expects. -/
def Inbox.Counted (inbox : Inbox) : Prop :=
  ∀ id run, inbox.run? id = some run → run.retiredAt = none →
    (inbox.tasksOf id).length = run.expectedTaskCount

/-- Then `run_ready` answers for every live run that the caller sees. -/
lemma Inbox.Counted.runReady {inbox : Inbox} (h : inbox.Counted)
    {bound : Option (CallerAuthority py)} {requestId : String} {run : RunRow}
    (hrun : inbox.run? (strip requestId) = some run) (hlive : run.retiredAt = none)
    (hvisible : snapshotVisible bound run.authority = .ok true) (now : Instant) :
    ∃ ready, runReady bound now requestId inbox = .ok ready := by
  have hcount := h _ run hrun hlive
  simp only [Dreaming.runReady, bind_eq_ok, orRaise_eq_ok, require_eq_ok, assertRowVisible]
  by_cases hzero : run.expectedTaskCount = 0
  · exact ⟨true, run, hrun, (), ⟨true, hvisible, rfl⟩, (), hcount, by rw [if_pos hzero]; rfl⟩
  · by_cases hall : (inbox.tasksOf (strip requestId)).all (·.status = .completed)
    · exact ⟨true, run, hrun, (), ⟨true, hvisible, rfl⟩, (), hcount,
        by rw [if_neg hzero, if_pos hall]; rfl⟩
    · exact ⟨run.deadlineAt ≤ now, run, hrun, (), ⟨true, hvisible, rfl⟩, (), hcount,
        by rw [if_neg hzero, if_neg hall]; rfl⟩

/-! ### The ids of the tasks of a run -/

def Inbox.idsOf (inbox : Inbox) (requestId : String) : Finset String :=
  ((inbox.tasksOf requestId).map (·.taskId)).toFinset

lemma Inbox.mem_idsOf {inbox : Inbox} {requestId id : String} : id ∈ inbox.idsOf requestId ↔
    ∃ row, inbox.task? id = some row ∧ row.requestId = requestId := by
  simp only [idsOf, tasksOf, List.mem_toFinset, List.mem_map, List.mem_filter, decide_eq_true_eq]
  constructor
  · rintro ⟨row, ⟨hrow, hrun⟩, rfl⟩
    exact ⟨row, Table.find?_of_mem hrow, hrun⟩
  · rintro ⟨row, hrow, hrun⟩
    exact ⟨row, ⟨Table.mem_of_find? hrow, hrun⟩, Inbox.taskId_of_task? hrow⟩

lemma Inbox.card_idsOf (inbox : Inbox) (requestId : String) :
    (inbox.idsOf requestId).card = (inbox.tasksOf requestId).length := by
  have hnodup : ((inbox.tasksOf requestId).map (·.taskId)).Nodup :=
    inbox.tasks.nodup.sublist (List.filter_sublist.map _)
  rw [idsOf, List.toFinset_card_of_nodup hnodup, List.length_map]

/-- The ids of the tasks that a registration writes. -/
def Registration.ids (reg : Registration) : Finset String :=
  (reg.requests.map (·.taskId)).toFinset

lemma Registration.mem_ids {reg : Registration} {id : String} :
    id ∈ reg.ids ↔ ∃ request ∈ reg.requests, request.taskId = id := by
  simp [ids]

section Registered

variable {s : InboxSystem} {op : InboxOp py} {reg : Registration}

/-- A registration puts its tasks under its run, and no other task anywhere else. -/
lemma mem_idsOf_registration (h : op.registration s = some reg) {requestId id : String} :
    id ∈ (s.step op).inbox.idsOf requestId ↔
      if id ∈ reg.ids then requestId = reg.requestId else id ∈ s.inbox.idsOf requestId := by
  obtain ⟨hnodup, -, hwrite⟩ := registration_spec h
  simp only [Inbox.mem_idsOf, hwrite]
  split_ifs with hid
  · obtain ⟨request, hmem, rfl⟩ := Registration.mem_ids.mp hid
    rw [Registration.write_of_mem hnodup hmem]
    simp [eq_comm]
  · have hnone : (reg.requests.find? fun request => request.taskId = id) = none := by
      rw [List.find?_eq_none]
      intro request hmem hrid
      exact hid (Registration.mem_ids.mpr ⟨request, hmem, of_decide_eq_true hrid⟩)
    rw [Registration.write, hnone]

lemma idsOf_registration_self (h : op.registration s = some reg) :
    (s.step op).inbox.idsOf reg.requestId = reg.ids ∪ s.inbox.idsOf reg.requestId := by
  ext id
  rw [mem_idsOf_registration h, Finset.mem_union]
  by_cases hid : id ∈ reg.ids <;> simp [hid]

lemma idsOf_registration_of_ne (h : op.registration s = some reg) {requestId : String}
    (hne : requestId ≠ reg.requestId) :
    (s.step op).inbox.idsOf requestId = s.inbox.idsOf requestId \ reg.ids := by
  ext id
  rw [mem_idsOf_registration h, Finset.mem_sdiff]
  by_cases hid : id ∈ reg.ids <;> simp [hid, hne]

lemma card_ids (h : op.registration s = some reg) : reg.ids.card = reg.requests.length := by
  rw [Registration.ids, List.toFinset_card_of_nodup (registration_spec h).1, List.length_map]

/-- A call that registers nothing leaves the tasks of a live run where they are. -/
lemma idsOf_step (h : op.registration s = none) {requestId : String}
    (hlive : (s.step op).inbox.Live requestId) :
    (s.step op).inbox.idsOf requestId = s.inbox.idsOf requestId := by
  ext id
  rw [Inbox.mem_idsOf, Inbox.mem_idsOf]
  have hnot : ¬ (s.step op).inbox.Retired requestId := by
    obtain ⟨run, hrun, hnone⟩ := hlive
    rintro ⟨run', hrun', hne⟩
    rw [hrun] at hrun'
    cases hrun'
    exact hne hnone
  have hchange := taskChange_step s op id
  generalize (s.step op).inbox.task? id = o at hchange
  cases hchange with
  | keep => exact Iff.rfl
  | register hreg => rw [h] at hreg; cases hreg
  | claim _ hrow => simp [hrow, TaskRow.claim]
  | complete hrow => simp [hrow, TaskRow.complete]
  | mark hrow => simp [hrow]
  | retire hrow _ hretired =>
    -- the run of a removed task is retired now, so it is not the live one
    constructor
    · rintro ⟨row, hrow', -⟩
      cases hrow'
    · rintro ⟨row', hrow', rfl⟩
      rw [hrow] at hrow'
      cases hrow'
      exact absurd hretired hnot

end Registered

/-! ### Counts over runs -/

/-- The registration leaves no task of its run out, and takes no task from another live run. -/
structure Registration.KeepsCounts (reg : Registration) (inbox : Inbox) : Prop where
  /-- No task comes from another live run. -/
  stays : ∀ id, inbox.Live id → id ≠ reg.requestId → Disjoint (inbox.idsOf id) reg.ids
  /-- A whole run names every task that the run has. -/
  lists : reg.wholeRun = true → inbox.idsOf reg.requestId ⊆ reg.ids
  /-- A single task of a live run is one that the run has. -/
  belongs : reg.wholeRun = false → inbox.Live reg.requestId → reg.ids ⊆ inbox.idsOf reg.requestId

/-- What the call registers keeps the counts. -/
def InboxOp.KeepsCounts (s : InboxSystem) (op : InboxOp py) : Prop :=
  ∀ reg, op.registration s = some reg → reg.KeepsCounts s.inbox

lemma card_union_eq_left {α : Type*} [DecidableEq α] {s t : Finset α} :
    (s ∪ t).card = s.card ↔ t ⊆ s := by
  constructor
  · intro h
    have heq : s = s ∪ t := Finset.eq_of_subset_of_card_le Finset.subset_union_left h.le
    rw [heq]
    exact Finset.subset_union_right
  · intro h
    rw [Finset.union_eq_left.mpr h]

lemma card_sdiff_eq_left {α : Type*} [DecidableEq α] {s t : Finset α} :
    (s \ t).card = s.card ↔ Disjoint s t := by
  constructor
  · intro h
    exact Finset.sdiff_eq_self_iff_disjoint.mp
      (Finset.eq_of_subset_of_card_le Finset.sdiff_subset h.ge)
  · intro h
    rw [Finset.sdiff_eq_self_of_disjoint h]

/-- Counted runs, by the ids of their tasks. -/
lemma Inbox.counted_iff {inbox : Inbox} : inbox.Counted ↔
    ∀ id run, inbox.run? id = some run → run.retiredAt = none →
      (inbox.idsOf id).card = run.expectedTaskCount := by
  simp only [Counted, card_idsOf]

/-- A step keeps the counts exactly if what it registers does. -/
lemma InboxSystem.counted_step_iff {s : InboxSystem} {op : InboxOp py} (h : s.inbox.Counted) :
    (s.step op).inbox.Counted ↔ op.KeepsCounts s := by
  rw [Inbox.counted_iff] at h ⊢
  cases hreg : op.registration s with
  | none =>
    refine iff_of_true (fun id run hrun hlive => ?_) fun reg h' => absurd (hreg.symm.trans h') ?_
    · rcases run?_step hreg id with hsame | ⟨-, ⟨run', hrun', hne⟩, -⟩
      · rw [idsOf_step hreg ⟨run, hrun, hlive⟩]
        exact h id run (hsame.symm.trans hrun) hlive
      · rw [hrun] at hrun'
        cases hrun'
        exact absurd hlive hne
    · simp
  | some reg =>
    have hone : op.KeepsCounts s ↔ reg.KeepsCounts s.inbox :=
      ⟨fun h => h reg hreg, fun h reg' hreg' => Option.some.inj (hreg.symm.trans hreg') ▸ h⟩
    rw [hone]
    constructor
    · intro hcounted
      refine ⟨fun id ⟨run, hrun, hlive⟩ hne => ?_, fun hwhole => ?_, fun hsingle => ?_⟩
      · have hcard := hcounted id run
          (((registration_run hreg id).2 fun _ => hne).trans hrun) hlive
        rw [idsOf_registration_of_ne hreg hne, ← h id run hrun hlive] at hcard
        exact card_sdiff_eq_left.mp hcard
      · obtain ⟨run, hrun, hexpected, hlive⟩ := (registration_run hreg reg.requestId).1 hwhole
        have hcard := hcounted _ run hrun hlive
        rw [idsOf_registration_self hreg, hexpected, ← card_ids hreg] at hcard
        exact card_union_eq_left.mp hcard
      · rintro ⟨run, hrun, hlive⟩
        have hsame := (registration_run hreg reg.requestId).2 fun h => by simp [hsingle] at h
        have hcard := hcounted _ run (hsame.trans hrun) hlive
        rw [idsOf_registration_self hreg, ← h _ run hrun hlive, Finset.union_comm] at hcard
        exact card_union_eq_left.mp hcard
    · rintro ⟨hstays, hlists, hbelongs⟩ id run hrun hlive
      by_cases hid : id = reg.requestId
      · subst hid
        rw [idsOf_registration_self hreg]
        by_cases hwhole : reg.wholeRun = true
        · obtain ⟨run', hrun', hexpected, -⟩ := (registration_run hreg reg.requestId).1 hwhole
          rw [hrun] at hrun'
          cases hrun'
          rw [hexpected, ← card_ids hreg]
          exact card_union_eq_left.mpr (hlists hwhole)
        · have hsame := (registration_run hreg reg.requestId).2 fun h => absurd h hwhole
          rw [hsame] at hrun
          rw [← h _ run hrun hlive, Finset.union_comm]
          exact card_union_eq_left.mpr (hbelongs (Bool.not_eq_true _ ▸ hwhole) ⟨run, hrun, hlive⟩)
      · rw [(registration_run hreg id).2 fun _ => hid] at hrun
        rw [idsOf_registration_of_ne hreg hid, ← h id run hrun hlive]
        exact card_sdiff_eq_left.mpr (hstays id ⟨run, hrun, hlive⟩ hid)

variable (py) in
/-- `run_ready` returns for every live run that its caller sees. -/
def Inbox.Answering (inbox : Inbox) : Prop :=
  ∀ (bound : Option (CallerAuthority py)) now requestId run,
    inbox.run? (strip requestId) = some run → run.retiredAt = none →
      snapshotVisible bound run.authority = .ok true →
        ∃ ready, runReady bound now requestId inbox = .ok ready

/-- In a run from the empty inbox, every live run has the tasks that it expects and `run_ready`
answers at all times exactly if every registration keeps the counts. -/
theorem run_counts_iff (ops : List (InboxOp py)) :
    (∀ done rest, ops = done ++ rest → (InboxSystem.run {} done).inbox.Counted ∧
        (InboxSystem.run {} done).inbox.Answering py) ↔
      ∀ done op rest, ops = done ++ op :: rest → op.KeepsCounts (InboxSystem.run {} done) := by
  have hanswering {s : InboxSystem} (h : s.inbox.Counted) : s.inbox.Answering py :=
    fun _ now _ _ hrun hlive hvisible => h.runReady hrun hlive hvisible now
  have hempty : ({} : InboxSystem).inbox.Counted := fun id run h => absurd h (by simp)
  exact forall_prefix_iff (I := fun _ => True)
    (P := fun s : InboxSystem => s.inbox.Counted ∧ s.inbox.Answering py)
    (fun s op _ h => ⟨fun h' => (InboxSystem.counted_step_iff h.1).mp h'.1,
      fun h' => have hnext := (InboxSystem.counted_step_iff h.1).mpr h'
        ⟨hnext, hanswering hnext⟩⟩)
    (fun _ _ _ => trivial) trivial ⟨hempty, hanswering hempty⟩ ops

section Sample

/-- A run of two tasks, registered again with only one of them. -/
def shrinkingRun : List (InboxOp Runtime.ascii) :=
  [.registerRun none (.ofMicros 0) "r1" (.obj []) (.ok [sampleTask, { sampleTask with
      taskId := "t2" }]) .zero,
    .registerRun none (.ofMicros 1) "r1" (.obj []) (.ok [sampleTask]) .zero]

/-- A run that is registered again with fewer tasks makes `run_ready` raise. -/
theorem shrinking_run_miscounts :
    runReady (none : Option (CallerAuthority Runtime.ascii)) (.ofMicros 2) "r1"
        (InboxSystem.run {} shrinkingRun).inbox =
      .error (.runtimeError "reason run task count mismatch: expected=1, actual=2") ∧
    ¬ (InboxSystem.run {} shrinkingRun).inbox.Counted := by
  refine ⟨by decide +kernel, fun h => ?_⟩
  have hcheck : ((InboxSystem.run {} shrinkingRun).inbox.run? "r1").any (fun run =>
      run.retiredAt = none && ((InboxSystem.run {} shrinkingRun).inbox.tasksOf "r1").length ≠
        run.expectedTaskCount) = true := by
    decide +kernel
  obtain ⟨run, hrun, hcheck⟩ := (Option.any_eq_true _ _).mp hcheck
  simp only [Bool.and_eq_true, decide_eq_true_eq] at hcheck
  exact hcheck.2 (h "r1" run hrun hcheck.1)

end Sample

end CyberBrain.Dreaming
