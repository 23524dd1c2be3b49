import CyberBrain.Dreaming.RunCounts

/-!
# Retired runs

A retirement deletes the tasks of finished runs and leaves their rows as tombstones. No later call
takes a tombstone away or puts a task under it.
-/

namespace CyberBrain.Dreaming

open Python ReasonerProvider Tenancy

variable {py : Runtime}

/-! ### Tombstones -/

lemma Inbox.Retired.of_run? {inbox inbox' : Inbox} {id : String} (h : inbox.Retired id)
    (hsame : inbox'.run? id = inbox.run? id) : inbox'.Retired id := by
  obtain ⟨run, hrun, hretired⟩ := h
  exact ⟨run, hsame.trans hrun, hretired⟩

/-- No call takes a tombstone away. -/
lemma InboxSystem.retired_step {s : InboxSystem} {id : String} (h : s.inbox.Retired id)
    (op : InboxOp py) : (s.step op).inbox.Retired id := by
  cases hreg : op.registration s with
  | none =>
    rcases run?_step hreg id with hsame | ⟨hnot, -⟩
    · exact h.of_run? hsame
    · exact absurd h hnot
  | some reg =>
    refine h.of_run? ((registration_run hreg id).2 fun _ => ?_)
    rintro rfl
    exact (registration_spec hreg).2.1 h

lemma InboxSystem.retired_run {s : InboxSystem} {id : String} (h : s.inbox.Retired id)
    (ops : List (InboxOp py)) : (s.run ops).inbox.Retired id :=
  foldl_invariant (I := fun s : InboxSystem => s.inbox.Retired id)
    (fun _ op h => InboxSystem.retired_step h op) h ops

/-- A run that is retired after a call was retired before it, or has no tasks after it. -/
lemma InboxSystem.retired_before {s : InboxSystem} {op : InboxOp py} {id : String}
    (h : (s.step op).inbox.Retired id) : s.inbox.Retired id ∨
      ∀ taskId row, (s.step op).inbox.task? taskId = some row → row.requestId ≠ id := by
  cases hreg : op.registration s with
  | none =>
    rcases run?_step hreg id with hsame | ⟨-, -, hgone⟩
    · exact .inl (h.of_run? hsame.symm)
    · exact .inr hgone
  | some reg =>
    obtain ⟨hwhole, hsame⟩ := registration_run hreg id
    refine .inl (h.of_run? (hsame fun hw => ?_).symm)
    rintro rfl
    obtain ⟨run, hrun, -, hnone⟩ := hwhole hw
    obtain ⟨run', hrun', hretired⟩ := h
    rw [hrun] at hrun'
    cases hrun'
    exact hretired hnone

/-- Retired runs have no tasks. -/
def InboxSystem.Emptied (s : InboxSystem) : Prop :=
  ∀ taskId row, s.inbox.task? taskId = some row → ¬ s.inbox.Retired row.requestId

lemma InboxSystem.Emptied.step {s : InboxSystem} (h : s.Emptied) (op : InboxOp py) :
    (s.step op).Emptied := by
  intro id row' hrow' hretired
  rcases InboxSystem.retired_before hretired with hbefore | hgone
  · have hchange := taskChange_step s op id
    rw [hrow'] at hchange
    generalize ho : some row' = o at hchange
    cases hchange with
    | keep => exact h id row' ho.symm hbefore
    | register hreg =>
      cases ho
      rw [Registration.row_requestId] at hbefore
      exact (registration_spec hreg).2.1 hbefore
    | claim _ hrow => cases ho; exact h id _ hrow hbefore
    | complete hrow => cases ho; exact h id _ hrow hbefore
    | mark hrow => cases ho; exact h id _ hrow hbefore
    | retire => cases ho
  · exact hgone id row' hrow' rfl

/-- In every state that clients reach, retired runs have no tasks. -/
lemma InboxSystem.emptied_run (ops : List (InboxOp py)) : (InboxSystem.run {} ops).Emptied :=
  foldl_invariant (fun _ op h => h.step op) (fun id row h => absurd h (by simp)) ops

lemma registerRun_retired {inbox : Inbox} {requestId : String}
    (h : inbox.Retired (strip requestId)) (bound : Option (CallerAuthority py)) (now : Instant)
    (request : Json) (tasks : Except Exc (List ReasonTaskRequest)) (waitSeconds : Binary64) :
    ∃ e, (registerRun bound now requestId request tasks waitSeconds inbox).1 = .error e := by
  cases hok : (registerRun bound now requestId request tasks waitSeconds inbox).1 with
  | error e => exact ⟨e, rfl⟩
  | ok =>
    obtain ⟨requests, deadlineAt, -, -, -, hnot, -⟩ := registerRun_ok hok
    exact absurd h hnot

lemma publish_retired {inbox : Inbox} {request : Except Exc ReasonTaskRequest}
    {requestId : Option String}
    (h : ∀ r, request = .ok r → inbox.Retired (publishRunId r requestId))
    (bound : Option (CallerAuthority py)) (now : Instant) (waitSeconds : Binary64)
    (deadlineAt : Option Instant) :
    ∃ e, (publish bound now request waitSeconds requestId deadlineAt inbox).1 = .error e := by
  cases hok : (publish bound now request waitSeconds requestId deadlineAt inbox).1 with
  | error e => exact ⟨e, rfl⟩
  | ok =>
    obtain ⟨r, deadline, hr, -, hnot, -⟩ := publish_ok hok
    exact absurd (h r hr) hnot

/-! ### What a retirement takes -/

lemma Inbox.tasksOf_retireAll {inbox : Inbox} {ids : List String} {id : String} (h : id ∉ ids)
    (instant : Instant) : (inbox.retireAll ids instant).tasksOf id = inbox.tasksOf id := by
  simp only [tasksOf, Inbox.tasks_retireAll, Table.filter, List.filter_filter]
  refine List.filter_congr fun row _ => ?_
  by_cases hid : row.requestId = id <;> simp [hid, h]

/-- A task disappears only in the retirement of its finished run. -/
lemma retired_of_deleted {s : InboxSystem} {op : InboxOp py} {taskId : String} {row : TaskRow}
    (hrow : s.inbox.task? taskId = some row) (hgone : (s.step op).inbox.task? taskId = none) :
    ∃ (bound : Option (CallerAuthority py)) (instant : Instant) (requestIds : List String)
      (before : Instant) (run : RunRow),
      op = .retireFinalizedRuns bound instant requestIds before false ∧
        s.inbox.Retirable instant (retireCutoff instant before).iso row.requestId run := by
  have hchange := taskChange_step s op taskId
  rw [hgone] at hchange
  generalize ho : none = o at hchange
  cases hchange with
  | keep => exact absurd (ho.trans hrow) (by simp)
  | retire hrow' hrun =>
    rw [hrow] at hrow'
    cases hrow'
    exact ⟨_, _, _, _, _, rfl, hrun⟩
  | _ => cases ho

/-- Retired runs are never replayed, and a retirement takes only finished work: after a retirement,
whatever clients do, the run has no tasks and its registration fails; a task is deleted only by the
retirement of a run that lies before the cutoff, with its own times before the cutoff and no
current lease; and a dry run changes nothing, nor does a retirement change a run that it blocks. -/
theorem retirement_final (ops : List (InboxOp py)) :
    (∀ before bound instant requestIds cutoff after reply,
      ops = before ++ .retireFinalizedRuns bound instant requestIds cutoff false :: after →
      (retireFinalizedRuns bound instant requestIds cutoff false
        (InboxSystem.run {} before).inbox).1 = .ok reply →
      ∀ id ∈ reply.eligible, (InboxSystem.run {} ops).inbox.tasksOf id = [] ∧
        (∀ (bound : Option (CallerAuthority py)) now requestId request tasks waitSeconds,
          strip requestId = id → ∃ e, (registerRun bound now requestId request tasks waitSeconds
            (InboxSystem.run {} ops).inbox).1 = .error e) ∧
        ∀ (bound : Option (CallerAuthority py)) now request waitSeconds requestId deadlineAt,
          publishRunId request requestId = id → ∃ e, (publish bound now (.ok request) waitSeconds
            requestId deadlineAt (InboxSystem.run {} ops).inbox).1 = .error e) ∧
    (∀ (op : InboxOp py) taskId row, (InboxSystem.run {} ops).inbox.task? taskId = some row →
      ((InboxSystem.run {} ops).step op).inbox.task? taskId = none →
      ∃ bound instant requestIds before run,
        op = .retireFinalizedRuns bound instant requestIds before false ∧
        (InboxSystem.run {} ops).inbox.run? row.requestId = some run ∧
        run.deadlineAt < retireCutoff instant before ∧
        run.updatedAt < retireCutoff instant before ∧
        row.updatedAt < retireCutoff instant before ∧
        row.deadlineAt < retireCutoff instant before ∧
        ∀ lease ∈ row.leaseUntil, lease ≤ instant) ∧
    ∀ (bound : Option (CallerAuthority py)) instant requestIds before,
      (retireFinalizedRuns bound instant requestIds before true
        (InboxSystem.run {} ops).inbox).2 = (InboxSystem.run {} ops).inbox ∧
      ∀ reply after, retireFinalizedRuns bound instant requestIds before false
          (InboxSystem.run {} ops).inbox = (.ok reply, after) →
        ∀ id ∈ reply.blocked, after.run? id = (InboxSystem.run {} ops).inbox.run? id ∧
          after.tasksOf id = (InboxSystem.run {} ops).inbox.tasksOf id := by
  refine ⟨?_, fun op taskId row hrow hgone => ?_, fun bound instant requestIds before => ⟨?_, ?_⟩⟩
  · rintro before bound instant requestIds cutoff after reply rfl hok id hid
    have hretired : (InboxSystem.run {} (before ++ InboxOp.retireFinalizedRuns bound instant
        requestIds cutoff false :: after)).inbox.Retired id := by
      rw [InboxSystem.run, List.foldl_append, List.foldl_cons]
      refine InboxSystem.retired_run ?_ after
      rcases retireFinalizedRuns_cases bound instant requestIds cutoff false
          (InboxSystem.run {} before).inbox with
        ⟨-, hnot⟩ | ⟨reply', hok', -, hretirable, hinbox⟩
      · exact absurd hok (hnot reply)
      · rw [hok] at hok'
        cases hok'
        obtain ⟨run, hrun⟩ := hretirable id hid
        simp only [InboxSystem.step]
        refine hinbox ▸ Inbox.retired_retireAll ?_ hrun.stored instant
        exact hid
    refine ⟨?_, ?_, ?_⟩
    · rw [Inbox.tasksOf, List.filter_eq_nil_iff]
      intro row hrow hrun
      have hemptied := InboxSystem.emptied_run _ _ _ (Table.find?_of_mem hrow)
      exact hemptied (of_decide_eq_true hrun ▸ hretired)
    · rintro bound now requestId request tasks waitSeconds rfl
      exact registerRun_retired hretired bound now request tasks waitSeconds
    · rintro bound now request waitSeconds requestId deadlineAt rfl
      refine publish_retired (fun r hr => ?_) bound now waitSeconds deadlineAt
      cases hr
      exact hretired
  · obtain ⟨bound, instant, requestIds, before, run, rfl, hrun⟩ := retired_of_deleted hrow hgone
    obtain ⟨hold, hpast, hlease⟩ := hrun.tasks row (Table.mem_of_find? hrow) rfl
    refine ⟨bound, instant, requestIds, before, run, rfl, hrun.stored,
      Instant.iso_lt_iso.mp hrun.deadline, Instant.iso_lt_iso.mp hrun.updated,
      Instant.iso_lt_iso.mp hold, Instant.iso_lt_iso.mp hpast, fun lease hmem => ?_⟩
    exact Instant.iso_le_iso.mp (hlease lease hmem)
  · rcases retireFinalizedRuns_cases bound instant requestIds before true
        (InboxSystem.run {} ops).inbox with ⟨hsame, -⟩ | ⟨reply, -, -, -, hinbox⟩
    · exact hsame
    · exact hinbox
  · intro reply after h id hid
    rcases retireFinalizedRuns_cases bound instant requestIds before false
        (InboxSystem.run {} ops).inbox with ⟨-, hnot⟩ | ⟨reply', hok, hnodup, -, hinbox⟩
    · exact absurd (congrArg Prod.fst h) (hnot reply)
    · rw [h] at hok hinbox
      cases hok
      have hnot : id ∉ reply.eligible := fun hmem => List.disjoint_of_nodup_append hnodup hmem hid
      dsimp only at hinbox
      rw [hinbox]
      exact ⟨Inbox.run?_retireAll_of_notMem _ hnot instant, Inbox.tasksOf_retireAll hnot instant⟩

section Sample

/-- A run of one task that is over at once. -/
def finishedRun : List (InboxOp Runtime.ascii) :=
  [.registerRun none (.ofMicros 0) "r1" (.obj []) (.ok [sampleTask]) .zero]

/-- Its retirement, a minute later. -/
def sampleRetirement : InboxOp Runtime.ascii :=
  .retireFinalizedRuns none (.ofMicros 60000000) ["r1"] (.ofMicros 30000000) false

/-- After the retirement the task cannot be published again. -/
theorem retirement_final_republish : finishedRun.length = 1 ∧
    (InboxSystem.run {} (finishedRun ++ [sampleRetirement, samplePublish])).inbox.tasksOf "r1" =
      [] := by
  have hcheck : (retireFinalizedRuns (none : Option (CallerAuthority Runtime.ascii))
      (.ofMicros 60000000) ["r1"] (.ofMicros 30000000) false
      (InboxSystem.run {} finishedRun).inbox).1.toOption.any (·.eligible = ["r1"]) = true := by
    decide +kernel
  obtain ⟨reply, hreply, heligible⟩ := (Option.any_eq_true _ _).mp hcheck
  have hmem : "r1" ∈ reply.eligible := by
    rw [of_decide_eq_true heligible]
    exact List.mem_singleton_self _
  exact ⟨rfl, ((retirement_final (finishedRun ++ [sampleRetirement, samplePublish])).1 finishedRun
    none _ _ _ [samplePublish] reply rfl (toOption_eq_some.mp hreply) "r1" hmem).1⟩

end Sample

end CyberBrain.Dreaming
