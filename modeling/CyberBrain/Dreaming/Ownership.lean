import CyberBrain.Dreaming.Workers

/-!
# Who owns a job

A worker that has claimed a job should be alone with it until it writes the outcome. Claims check
the status of a job, but recovery and retries put back what they have selected: a worker that
starts resets the jobs of the others.
-/

namespace CyberBrain.Dreaming

open Python Tenancy

variable {py : Runtime}

namespace WorkerSystem

variable (mode : DeploymentMode) (maxAttempts : ℤ)

/-- The step leaves the jobs that other workers hold alone: their status stays, and nobody else
claims them. -/
def Undisturbed (s : WorkerSystem) (e : WorkerEvent py) : Prop :=
  ∀ w job, s.phase w = .holding job → e.worker ≠ some w →
    ((s.step mode maxAttempts e).queue.job? job.id).map (·.status) =
        (s.queue.job? job.id).map (·.status) ∧
      ∀ w' job', e.worker = some w' → (s.step mode maxAttempts e).phase w' = .holding job' →
        job'.id ≠ job.id

/-- The step puts no job back that a worker holds. -/
def SparesHeld (s : WorkerSystem) (e : WorkerEvent py) : Prop :=
  ∀ w job, s.phase w = .holding job → job.id ∉ e.resets s

/-- Every job that a worker holds is in processing, and no other worker holds it. -/
structure Owned (s : WorkerSystem) : Prop where
  processing : ∀ w job, s.phase w = .holding job →
    ∃ row, s.queue.job? job.id = some row ∧ row.status = .processing
  alone : ∀ w job w' job', s.phase w = .holding job → s.phase w' = .holding job' →
    job'.id = job.id → w' = w

variable {mode maxAttempts} {s : WorkerSystem}

/-- What a step keeps of a job that another worker holds. -/
lemma Owned.kept (h : s.Owned) {e : WorkerEvent py} (hspares : s.SparesHeld e) {s' : WorkerSystem}
    (hchange : s.Change e s') {w : ℕ} {job : DreamJob} (hholds : s.phase w = .holding job)
    (hother : e.worker ≠ some w) :
    ((∃ row, s'.queue.job? job.id = some row ∧ row.status = .processing) ∧
      s'.phase w = .holding job) ∧
        ∀ w' job', w' ≠ w → s'.phase w' = .holding job' → job'.id ≠ job.id := by
  obtain ⟨row, hrow, hprocessing⟩ := h.processing w job hholds
  have halone : ∀ w' job', w' ≠ w → s.phase w' = .holding job' → job'.id ≠ job.id :=
    fun w' job' hne hholds' hid => hne (h.alone w job w' job' hholds hholds' hid)
  cases hchange with
  | keep hqueue hphase hstay =>
    rw [hqueue, hstay w hother]
    exact ⟨⟨⟨row, hrow, hprocessing⟩, hholds⟩,
      fun w' job' hne hholds' => halone w' job' hne (hphase w' job' hholds')⟩
  | enqueue hworker _ hold _ hrewrite =>
    refine ⟨⟨?_, hholds⟩, halone⟩
    by_cases htopics : ∃ topics, e.rewrites s = some (row, topics)
    · obtain ⟨topics, htopics⟩ := htopics
      obtain ⟨-, now, hnew⟩ := hrewrite row topics htopics
      rw [DreamQueue.id_of_job? hrow] at hnew
      exact ⟨_, hnew, hprocessing⟩
    · exact ⟨row, hold job.id row hrow (not_exists.mp htopics), hprocessing⟩
  | putBack hqueue hphase hstay =>
    rw [hqueue.other job.id (hspares w job hholds), hstay w hother]
    exact ⟨⟨⟨row, hrow, hprocessing⟩, hholds⟩,
      fun w' job' hne hholds' => halone w' job' hne (hphase w' job' hholds')⟩
  | @claim w₀ row₀ now hworker hpolling hrow₀ hpending =>
    have hw : w ≠ w₀ := fun h => hother (h ▸ hworker)
    have hid : job.id ≠ row₀.id := by
      intro heq
      rw [heq, hrow₀] at hrow
      cases hrow
      rw [hpending] at hprocessing
      cases hprocessing
    refine ⟨⟨⟨row, ?_, hprocessing⟩, ?_⟩, fun w' job' hne hholds' => ?_⟩
    · rw [move_queue, DreamQueue.job?_update, if_neg hid, hrow]
    · rw [move_phase_of_ne s _ _ hw, hholds]
    · by_cases hw' : w' = w₀
      · subst hw'
        rw [move_phase_self] at hholds'
        cases hholds'
        exact hid.symm
      · rw [move_phase_of_ne s _ _ hw'] at hholds'
        exact halone w' job' hne hholds'
  | @finish w₀ job₀ outcome caller now he hholds₀ _ hok =>
    have hw : w ≠ w₀ := by
      rintro rfl
      exact hother (by rw [he]; rfl)
    have hid : job.id ≠ job₀.id := (halone w₀ job₀ hw.symm hholds₀).symm
    refine ⟨⟨⟨row, ?_, hprocessing⟩, ?_⟩, fun w' job' hne hholds' => ?_⟩
    · rw [move_queue, outcome.write_job hok, if_neg hid, hrow]
    · rw [move_phase_of_ne s _ _ hw, hholds]
    · exact halone w' job' hne (holding_move s (by simp) hholds')

/-- A worker holds after the step of another one what it held before. -/
lemma Change.held {e : WorkerEvent py} {s' : WorkerSystem} (hchange : s.Change e s') {w : ℕ}
    {job : DreamJob} (hholds : s'.phase w = .holding job) (hother : e.worker ≠ some w) :
    s.phase w = .holding job := by
  cases hchange with
  | keep _ hphase => exact hphase w job hholds
  | enqueue => exact hholds
  | putBack _ hphase => exact hphase w job hholds
  | claim now hworker =>
    rwa [move_phase_of_ne s _ _] at hholds
    rintro rfl
    exact hother hworker
  | finish => exact holding_move s (by simp) hholds

/-- A step that puts no held job back keeps the ownership. -/
lemma Owned.change (h : s.Owned) {e : WorkerEvent py} (hspares : s.SparesHeld e)
    {s' : WorkerSystem} (hchange : s.Change e s') : s'.Owned := by
  constructor
  · intro w job hholds
    by_cases hw : e.worker = some w
    · cases hchange with
      | keep hqueue hphase =>
        rw [hqueue]
        exact h.processing w job (hphase w job hholds)
      | enqueue hworker => rw [hworker] at hw; cases hw
      | putBack _ hphase _ hfree => exact absurd (hphase w job hholds) (hfree w job hw)
      | @claim w₀ row now hworker hpolling hrow =>
        rw [hworker] at hw
        cases hw
        rw [move_phase_self] at hholds
        cases hholds
        refine ⟨row.claim now, ?_, rfl⟩
        rw [move_queue, DreamQueue.job?_update]
        simp [JobRow.toJob, hrow]
      | finish he =>
        rw [he] at hw
        cases hw
        rw [move_phase_self] at hholds
        cases hholds
    · exact (h.kept hspares hchange (hchange.held hholds hw) hw).1.1
  · intro w job w' job' hholds hholds' hid
    by_contra hne
    by_cases hw : e.worker = some w
    · have hw' : e.worker ≠ some w' := by
        rw [hw]
        exact fun h => hne (Option.some.inj h).symm
      have halone := (h.kept hspares hchange (hchange.held hholds' hw') hw').2
      exact halone w job (Ne.symm hne) hholds hid.symm
    · exact (h.kept hspares hchange (hchange.held hholds hw) hw).2 w' job' hne hholds' hid

/-- Under ownership, a step disturbs nobody exactly if it puts back no job that is held. -/
lemma Owned.undisturbed_iff (h : s.Owned) (e : WorkerEvent py) :
    s.Undisturbed mode maxAttempts e ↔ s.SparesHeld e := by
  have hchange := s.change_step mode maxAttempts e
  constructor
  · intro hundisturbed w job hholds hmem
    obtain ⟨row, hrow, hprocessing⟩ := h.processing w job hholds
    generalize hs' : s.step mode maxAttempts e = s' at hchange
    cases hchange with
    | keep _ _ _ hresets => rw [hresets] at hmem; cases hmem
    | enqueue _ hresets => rw [hresets] at hmem; cases hmem
    | claim _ _ _ _ _ hresets => rw [hresets] at hmem; cases hmem
    | finish he => rw [he] at hmem; cases hmem
    | putBack hqueue _ _ hfree =>
      obtain ⟨hstatus, -⟩ := hundisturbed w job hholds fun hw => hfree w job hw hholds
      obtain ⟨row', hrow', hback⟩ := hqueue.reset job.id hmem row hrow
      rw [hs', hrow', hrow, Option.map_some, Option.map_some, hprocessing] at hstatus
      rcases hback.status with hback | hback <;> rw [hback] at hstatus <;> cases hstatus
  · intro hspares w job hholds hother
    obtain ⟨row, hrow, hprocessing⟩ := h.processing w job hholds
    obtain ⟨⟨⟨row', hrow', hprocessing'⟩, -⟩, halone⟩ := h.kept hspares hchange hholds hother
    refine ⟨by rw [hrow', hrow, Option.map_some, Option.map_some, hprocessing, hprocessing'],
      fun w' job' hw' hholds' => halone w' job' ?_ hholds'⟩
    rintro rfl
    exact hother hw'

variable (mode maxAttempts) in
/-- In a run of any number of workers, no job is disturbed between its claim and the outcome that
its worker writes exactly if no step puts back a job that a worker holds. -/
theorem exclusive_ownership_iff (events : List (WorkerEvent py)) :
    (∀ done e rest, events = done ++ e :: rest →
        (run mode maxAttempts {} done).Undisturbed mode maxAttempts e) ↔
      ∀ done e rest, events = done ++ e :: rest → (run mode maxAttempts {} done).SparesHeld e :=
  forall_step_iff (P := Owned) (fun _ e h => h.undisturbed_iff e)
    (fun s e h hspares => h.change hspares (s.change_step mode maxAttempts e))
    ⟨fun _ _ h => (WorkerPhase.noConfusion h), fun _ _ _ _ h => (WorkerPhase.noConfusion h)⟩ events

section Sample

/-- The first worker claims a job; then a second one starts, recovers the job and claims it too. -/
def restartedWorker : List (WorkerEvent Runtime.ascii) :=
  [.enqueue none (.ofMicros 0) "session" [] none 0,
    .recoverSelect 0, .recoverUpdate 0 (.ofMicros 1), .claim 0 (.ofMicros 2) .zero id,
    .recoverSelect 1, .recoverUpdate 1 (.ofMicros 3), .claim 1 (.ofMicros 4) .zero id]

/-- The job id that a worker holds. -/
def heldId (s : WorkerSystem) (w : ℕ) : Option ℕ :=
  match s.phase w with
  | .holding job => some job.id
  | _            => none

lemma holding_of_heldId {s : WorkerSystem} {w n : ℕ} (h : heldId s w = some n) :
    ∃ job, s.phase w = .holding job ∧ job.id = n := by
  unfold heldId at h
  split at h
  · rename_i job hholds
    exact ⟨job, hholds, Option.some.inj h⟩
  · cases h

/-- A second worker that starts takes the job of the first: both hold it. -/
theorem starting_worker_takes_job :
    heldId (run .singleOwner 3 {} restartedWorker) 0 = some 1 ∧
      heldId (run .singleOwner 3 {} restartedWorker) 1 = some 1 ∧
      ¬ ∀ done e rest, restartedWorker = done ++ e :: rest →
        (run .singleOwner 3 {} done).Undisturbed .singleOwner 3 e := by
  have hfirst : heldId (run .singleOwner 3 {} (restartedWorker.take 6)) 0 = some 1 := by
    decide +kernel
  have hsecond : heldId (run .singleOwner 3 {} restartedWorker) 1 = some 1 := by decide +kernel
  refine ⟨by decide +kernel, hsecond, fun h => ?_⟩
  obtain ⟨job, hholds, hid⟩ := holding_of_heldId hfirst
  obtain ⟨job', hholds', hid'⟩ := holding_of_heldId hsecond
  have hlast := h (restartedWorker.take 6) (.claim 1 (.ofMicros 4) .zero id) [] rfl 0 job hholds
    (by simp [WorkerEvent.worker])
  exact hlast.2 1 job' rfl hholds' (hid'.trans hid.symm)

end Sample

end WorkerSystem

end CyberBrain.Dreaming
