import CyberBrain.Dreaming.Workers

/-!
# The topics of completed runs

A worker processes the copy of a job that it claimed. An `enqueue` rewrites the topics of the row,
whatever its status, and leaves the status as it is: topics that arrive while a run is on its way,
or after it has completed, are stored and never used.
-/

namespace CyberBrain.Dreaming

open Python Tenancy

variable {py : Runtime}

/-- The job that a step completes, with the topics of the run. -/
def WorkerEvent.completes (s : WorkerSystem) : WorkerEvent py → Option (ℕ × List String)
  | .finish w .processed now =>
    match s.phase w with
    | .holding job => do
      let caller ← (bindJobAuthority py job.authority).toOption
      (markProcessed (some caller) now job.id s.queue).1.toOption
      some (job.id, job.topics)
    | _ => none
  | _ => none

/-- The workers, with the topics of the last completed run of each job. -/
structure RunLog where
  system : WorkerSystem := {}
  lastTopics : ℕ → Option (List String) := fun _ => none

namespace RunLog

section Steps

variable (mode : DeploymentMode) (maxAttempts : ℤ)

/-- A step of the workers, logged. -/
def step (l : RunLog) (e : WorkerEvent py) : RunLog where
  system := l.system.step mode maxAttempts e
  lastTopics :=
    match e.completes l.system with
    | some (id, topics) => Function.update l.lastTopics id (some topics)
    | none              => l.lastTopics

/-- The log after a list of steps. -/
def run (l : RunLog) (events : List (WorkerEvent py)) : RunLog :=
  events.foldl (step mode maxAttempts) l

end Steps

/-- The topics on the row of every processed job are those of its last completed run. -/
def Current (l : RunLog) : Prop :=
  ∀ id row, l.system.queue.job? id = some row → row.status = .processed →
    l.lastTopics id = some row.topics

end RunLog

/-- The step changes no topics of a processed job, and completes a job only with the topics that its
row has. -/
structure WorkerEvent.KeepsTopics (s : WorkerSystem) (e : WorkerEvent py) : Prop where
  rewrites : ∀ row topics, e.rewrites s = some (row, topics) → row.status = .processed →
    topics = row.topics
  completes : ∀ id topics, e.completes s = some (id, topics) →
    ∀ row, s.queue.job? id = some row → row.topics = topics

section Steps

variable {mode : DeploymentMode} {maxAttempts : ℤ} {s : WorkerSystem} {e : WorkerEvent py}

variable (mode maxAttempts) in
/-- A completion marks the row of the job, and does nothing else to the queue. -/
lemma completes_spec {id : ℕ} {topics : List String} (h : e.completes s = some (id, topics)) :
    e.rewrites s = none ∧ ∃ now, ∀ id', (s.step mode maxAttempts e).queue.job? id' =
      if id' = id then (s.queue.job? id').map (Outcome.processed.apply now)
      else s.queue.job? id' := by
  unfold WorkerEvent.completes at h
  split at h
  · rename_i w now
    split at h
    · rename_i job hholds
      simp only [Option.bind_eq_bind, Option.bind_eq_some_iff, toOption_eq_some] at h
      obtain ⟨caller, hcaller, _, hok, h⟩ := h
      cases h
      refine ⟨rfl, now, fun id' => ?_⟩
      have hwrite := Outcome.processed.write_job hok id'
      simp only [WorkerSystem.step, hholds, hcaller]
      split <;> rename_i heq <;> rw [heq] at hwrite <;> exact hwrite
    · cases h
  · cases h

/-- A step that completes nothing leaves a job processed only if it was, and then with topics that
the step has not changed. -/
lemma processed_of_step (hcompletes : e.completes s = none) {id : ℕ} {row' : JobRow}
    (hrow' : (s.step mode maxAttempts e).queue.job? id = some row')
    (hprocessed : row'.status = .processed) :
    ∃ row, s.queue.job? id = some row ∧ row.status = .processed ∧
      (row'.topics = row.topics ∨ e.rewrites s = some (row, row'.topics)) := by
  have hchange := s.change_step mode maxAttempts e
  generalize s.step mode maxAttempts e = s' at hchange hrow'
  cases hchange with
  | keep hqueue => exact ⟨row', hqueue ▸ hrow', hprocessed, .inl rfl⟩
  | enqueue _ _ hold hnew hrewrite =>
    cases hrow : s.queue.job? id with
    | none =>
      have hpending := hnew id row' hrow hrow'
      rw [hprocessed] at hpending
      cases hpending
    | some row =>
      by_cases htopics : ∃ topics, e.rewrites s = some (row, topics)
      · obtain ⟨topics, htopics⟩ := htopics
        obtain ⟨-, now, hupdate⟩ := hrewrite row topics htopics
        rw [DreamQueue.id_of_job? hrow] at hupdate
        rw [hupdate] at hrow'
        cases hrow'
        exact ⟨row, rfl, hprocessed, .inr htopics⟩
      · rw [hold id row hrow (not_exists.mp htopics)] at hrow'
        cases hrow'
        exact ⟨_, rfl, hprocessed, .inl rfl⟩
  | putBack hqueue =>
    by_cases hid : id ∈ e.resets s
    · cases hrow : s.queue.job? id with
      | none =>
        rw [hqueue.absent id hrow] at hrow'
        cases hrow'
      | some row =>
        obtain ⟨back, hback, hstatus, -⟩ := hqueue.reset id hid row hrow
        rw [hrow'] at hback
        cases hback
        rcases hstatus with hstatus | hstatus <;> rw [hprocessed] at hstatus <;> cases hstatus
    · rw [hqueue.other id hid] at hrow'
      exact ⟨row', hrow', hprocessed, .inl rfl⟩
  | @claim w row now _ _ hrow =>
    rw [WorkerSystem.move_queue, DreamQueue.job?_update] at hrow'
    split_ifs at hrow' with hid
    · rw [hid, hrow] at hrow'
      cases hrow'
      cases hprocessed
    · exact ⟨row', hrow', hprocessed, .inl rfl⟩
  | @finish w job outcome caller now he hholds hcaller hok =>
    rw [WorkerSystem.move_queue, outcome.write_job hok] at hrow'
    split_ifs at hrow' with hid
    · obtain ⟨row, hrow, rfl⟩ := Option.map_eq_some_iff.mp hrow'
      cases outcome with
      | processed =>
        have hmark : (markProcessed (some caller) now job.id s.queue).1 = .ok () := hok
        simp [he, WorkerEvent.completes, hholds, hcaller, hmark, Except.toOption] at hcompletes
      | failed error => cases hprocessed
      | deferred availableAt =>
        simp only [Outcome.apply] at hprocessed ⊢
        split_ifs at hprocessed ⊢ with hstatus
        · cases hprocessed
        · exact ⟨row, hrow, hprocessed, .inl rfl⟩
    · exact ⟨row', hrow', hprocessed, .inl rfl⟩

variable (mode maxAttempts) in
/-- An `enqueue` rewrites the topics of the job that it finds, and completes nothing. -/
lemma rewrites_spec {row : JobRow} {topics : List String}
    (h : e.rewrites s = some (row, topics)) : e.completes s = none ∧
      s.queue.job? row.id = some row ∧ ∃ now, (s.step mode maxAttempts e).queue.job? row.id =
        some { row with topics := topics, updatedAt := now } := by
  have hchange := s.change_step mode maxAttempts e
  generalize s.step mode maxAttempts e = s' at hchange
  cases hchange with
  | keep _ _ _ _ hrewrites => rw [h] at hrewrites; cases hrewrites
  | putBack _ _ _ _ hrewrites => rw [h] at hrewrites; cases hrewrites
  | claim _ _ _ _ _ _ hrewrites => rw [h] at hrewrites; cases hrewrites
  | finish he => rw [he] at h; cases h
  | enqueue hworker _ _ _ hrewrite =>
    refine ⟨?_, hrewrite row topics h⟩
    cases e <;> first | rfl | cases hworker

/-- A step keeps the topics current exactly if it keeps the topics of completed jobs. -/
lemma RunLog.current_step_iff {l : RunLog} (h : l.Current) :
    (l.step mode maxAttempts e).Current ↔ e.KeepsTopics l.system := by
  constructor
  · intro hcurrent
    constructor
    · intro row topics hrewrites hprocessed
      obtain ⟨hcompletes, hrow, now, hnew⟩ :=
        rewrites_spec mode maxAttempts hrewrites
      have hafter := hcurrent row.id _ hnew hprocessed
      simp only [step, hcompletes, h row.id row hrow hprocessed] at hafter
      exact (Option.some.inj hafter).symm
    · intro id topics hcompletes row hrow
      obtain ⟨-, now, hqueue⟩ := completes_spec mode maxAttempts hcompletes
      have hnew := hqueue id
      rw [if_pos rfl, hrow] at hnew
      have hafter := hcurrent id _ hnew rfl
      simp only [step, hcompletes, Function.update_self] at hafter
      exact (Option.some.inj hafter).symm
  · rintro ⟨hrewrites, hkeeps⟩ id row' hrow' hprocessed
    simp only [step] at hrow' ⊢
    cases hcompletes : e.completes l.system with
    | none =>
      obtain ⟨row, hrow, hdone, htopics⟩ := processed_of_step hcompletes hrow' hprocessed
      simp only [h id row hrow hdone]
      rcases htopics with hsame | hrewrite
      · rw [hsame]
      · rw [hrewrites row _ hrewrite hdone]
    | some p =>
      obtain ⟨jobId, topics⟩ := p
      obtain ⟨-, now, hqueue⟩ := completes_spec mode maxAttempts hcompletes
      rw [hqueue] at hrow'
      split_ifs at hrow' with hid
      · obtain ⟨row, hrow, rfl⟩ := Option.map_eq_some_iff.mp hrow'
        rw [hid] at hrow ⊢
        simp only [Function.update_self, Outcome.apply]
        rw [hkeeps jobId topics hcompletes row hrow]
      · simp only [Function.update_of_ne hid]
        exact h id row' hrow' hprocessed

end Steps

variable (mode : DeploymentMode) (maxAttempts : ℤ)

/-- In a run of the queue with any number of workers, every processed job has at all times the topics
of its last completed run exactly if no step changes the topics of a processed job, and every job is
completed with the topics that its row has. -/
theorem enqueued_topics_iff (events : List (WorkerEvent py)) :
    (∀ done rest, events = done ++ rest → (RunLog.run mode maxAttempts {} done).Current) ↔
      ∀ done e rest, events = done ++ e :: rest →
        e.KeepsTopics (RunLog.run mode maxAttempts {} done).system :=
  forall_prefix_iff (I := fun _ => True) (P := RunLog.Current)
    (C := fun l (e : WorkerEvent py) => e.KeepsTopics l.system)
    (fun _ _ _ h => RunLog.current_step_iff h) (fun _ _ _ => trivial) trivial
    (fun id row h => absurd h (by simp)) events

section Sample

/-- A job is queued again with other topics while a worker runs it. -/
def lateEnqueue : List (WorkerEvent Runtime.ascii) :=
  [.enqueue none (.ofMicros 0) "session" ["routing"] none 0,
    .recoverSelect 0, .recoverUpdate 0 (.ofMicros 1), .claim 0 (.ofMicros 2) .zero id,
    .enqueue none (.ofMicros 3) "session" ["storage"] none 0,
    .finish 0 .processed (.ofMicros 4)]

/-- The job is processed with the topics of the second call, which no run has used. -/
theorem late_enqueue_lost :
    ((RunLog.run .singleOwner 3 {} lateEnqueue).system.queue.job? 1).map
        (fun row => (row.status, row.topics)) = some (.processed, ["storage"]) ∧
      (RunLog.run .singleOwner 3 {} lateEnqueue).lastTopics 1 = some ["routing"] ∧
      ¬ (RunLog.run .singleOwner 3 {} lateEnqueue).Current := by
  have hrow : ((RunLog.run .singleOwner 3 {} lateEnqueue).system.queue.job? 1).map
      (fun row => (row.status, row.topics)) = some (.processed, ["storage"]) := by
    decide +kernel
  have hlast : (RunLog.run .singleOwner 3 {} lateEnqueue).lastTopics 1 = some ["routing"] := by
    decide +kernel
  refine ⟨hrow, hlast, fun hcurrent => ?_⟩
  obtain ⟨row, hrow, heq⟩ := Option.map_eq_some_iff.mp hrow
  obtain ⟨hprocessed, htopics⟩ := Prod.mk.inj heq
  have hsame := hcurrent 1 row hrow hprocessed
  rw [hlast, htopics] at hsame
  exact absurd hsame (by decide)

end Sample

end CyberBrain.Dreaming
