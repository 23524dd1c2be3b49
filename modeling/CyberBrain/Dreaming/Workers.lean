import CyberBrain.Dreaming.Attempts

/-!
# Workers of the Dream queue

Several workers run `run_worker` against one queue: each recovers the jobs in processing when it
starts, then claims jobs, processes them and writes their outcome, and retries failed jobs when
there is nothing to claim. Recovery and retries select rows in one step and update them in another.
-/

namespace CyberBrain.Dreaming

open Python Tenancy

variable {py : Runtime}

/-! ### The workers -/

/-- Where a worker is: before its recovery or between its two steps, about to claim, processing the
job that it holds, about to retry or between its two steps, or stopped. -/
inductive WorkerPhase
  | starting
  | recovering (rows : List (ℕ × ℤ))
  | polling
  | holding (job : DreamJob)
  | idle
  | retrying (ids : List ℕ)
  | stopped

/-- The queue, the workers by number, and the `requeue_all_failed` calls between their two steps. -/
structure WorkerSystem where
  queue : DreamQueue := .empty
  phase : ℕ → WorkerPhase := fun _ => .starting
  requeuing : List (List ℕ) := []

/-- How `process_job` ends. -/
inductive Outcome
  | processed
  | failed (error : String)
  | deferred (availableAt : Binary64)

variable (py) in
/-- A step of a worker, or of another user of the queue. A worker may stop at any time. -/
inductive WorkerEvent
  | enqueue (bound : Option (CallerAuthority py)) (now : Instant) (sessionId : String)
      (topics : List String) (authorityJson : Option Json) (skipped : ℕ)
  | recoverSelect (w : ℕ)
  | recoverUpdate (w : ℕ) (now : Instant)
  | claim (w : ℕ) (now : Instant) (time : Binary64) (rank : ℕ → ℕ)
  | finish (w : ℕ) (outcome : Outcome) (now : Instant)
  | retrySelect (w : ℕ) (rank : ℕ → ℕ)
  | retryUpdate (w : ℕ) (now : Instant)
  | stop (w : ℕ)
  | requeueSelect (bound : Option (CallerAuthority py)) (limit : ℤ) (rank : ℕ → ℕ)
  | requeueUpdate (ids : List ℕ) (now : Instant)

variable (py) in
/-- `bind_job_authority`. -/
def bindJobAuthority : Option Json → Except Exc (CallerAuthority py)
  | none          => .ok (singleOwner py)
  | some snapshot => restoreAuthority py snapshot

/-- The call of the queue that ends `process_job`. -/
def Outcome.write (bound : Option (CallerAuthority py)) (now : Instant) (jobId : ℕ) :
    Outcome → Program DreamQueue Exc Unit
  | .processed            => markProcessed bound now jobId
  | .failed error         => markFailed bound now jobId error
  | .deferred availableAt => defer bound now jobId availableAt

lemma Outcome.write_error {bound : Option (CallerAuthority py)} {now : Instant} {jobId : ℕ}
    {outcome : Outcome} {q : DreamQueue} {e : Exc}
    (h : (outcome.write bound now jobId q).1 = .error e) :
    (outcome.write bound now jobId q).2 = q := by
  cases outcome <;> exact Program.atomically_error h

/-- What the write makes of the row of the job. -/
def Outcome.apply (now : Instant) (outcome : Outcome) (row : JobRow) : JobRow :=
  match outcome with
  | .processed            => { row with status := .processed, updatedAt := now }
  | .failed error         =>
    { row with status := .failed, lastError := some (String.ofList (error.toList.take 1000))
               updatedAt := now }
  | .deferred availableAt =>
    if row.status = .processing then row.defer availableAt now else row

lemma Outcome.write_job {bound : Option (CallerAuthority py)} {now : Instant} {jobId : ℕ}
    (outcome : Outcome) {q : DreamQueue} (h : (outcome.write bound now jobId q).1 = .ok ()) (id : ℕ) :
    (outcome.write bound now jobId q).2.job? id =
      if id = jobId then (q.job? id).map (outcome.apply now) else q.job? id := by
  revert h
  cases outcome <;> simp only [Outcome.write, markProcessed, markFailed, Dreaming.defer]
  all_goals
    rcases Program.atomically_cases _ q with ⟨value, t, h, heq⟩ | ⟨e, -, heq⟩ <;> rw [heq]
    · intro _
      obtain ⟨_, -, h⟩ := bind_eq_ok.mp h
      cases h
      exact q.job?_update jobId id _ _
    · exact fun h => absurd h (by simp)

/-- The phase of a worker whose last write raised: a failed `mark_processed` is caught, and followed
by `mark_failed`. -/
def Outcome.onError (job : DreamJob) : Outcome → WorkerPhase
  | .processed => .holding job
  | _          => .stopped

namespace WorkerSystem

/-- The worker moves on, with the queue as it has left it. -/
def move (s : WorkerSystem) (w : ℕ) (queue : DreamQueue) (phase : WorkerPhase) : WorkerSystem :=
  { s with queue := queue, phase := Function.update s.phase w phase }

@[simp] lemma move_queue (s : WorkerSystem) (w : ℕ) (queue : DreamQueue) (phase : WorkerPhase) :
    (s.move w queue phase).queue = queue := rfl

@[simp] lemma move_phase_self (s : WorkerSystem) (w : ℕ) (queue : DreamQueue)
    (phase : WorkerPhase) : (s.move w queue phase).phase w = phase := by
  simp [move]

lemma move_phase_of_ne (s : WorkerSystem) {w w' : ℕ} (queue : DreamQueue) (phase : WorkerPhase)
    (h : w' ≠ w) : (s.move w queue phase).phase w' = s.phase w' := by
  simp [move, h]

variable (mode : DeploymentMode) (maxAttempts : ℤ)

/-- The system after a step. The workers run without an authority, except for the last write of a
job, which runs under the authority of the job. -/
def step (s : WorkerSystem) : WorkerEvent py → WorkerSystem
  | .enqueue bound now sessionId topics authorityJson skipped =>
    { s with queue := (Dreaming.enqueue bound now sessionId topics authorityJson skipped s.queue).2 }
  | .recoverSelect w =>
    match s.phase w with
    | .starting =>
      match selectProcessing (none : Option (CallerAuthority py)) maxAttempts s.queue with
      | .ok rows => s.move w s.queue (.recovering rows)
      | .error _ => s.move w s.queue .stopped
    | _ => s
  | .recoverUpdate w now =>
    match s.phase w with
    | .recovering rows => s.move w (updateRecovered now maxAttempts rows s.queue) .polling
    | _                => s
  | .claim w now time rank =>
    match s.phase w with
    | .polling =>
      match DreamQueue.claimNext (none : Option (CallerAuthority py)) mode now time rank s.queue with
      | (.ok (some job), queue) => s.move w queue (.holding job)
      | (.ok none, queue)       => s.move w queue .idle
      | (.error _, queue)       => s.move w queue .stopped
    | _ => s
  | .finish w outcome now =>
    match s.phase w with
    | .holding job =>
      match bindJobAuthority py job.authority with
      | .error _   => s.move w s.queue .stopped
      | .ok caller =>
        match outcome.write (some caller) now job.id s.queue with
        | (.ok _, queue)    => s.move w queue .polling
        | (.error _, queue) => s.move w queue (outcome.onError job)
    | _ => s
  | .retrySelect w rank =>
    match s.phase w with
    | .idle =>
      match selectFailed (none : Option (CallerAuthority py)) maxAttempts 1 rank s.queue with
      | .ok ids  => s.move w s.queue (.retrying ids)
      | .error _ => s.move w s.queue .stopped
    | _ => s
  | .retryUpdate w now =>
    match s.phase w with
    | .retrying ids => s.move w (updateRetried now ids s.queue) .polling
    | _             => s
  | .stop w => s.move w s.queue .stopped
  | .requeueSelect bound limit rank =>
    match selectAllFailed bound limit rank s.queue with
    | .ok ids  => { s with requeuing := ids :: s.requeuing }
    | .error _ => s
  | .requeueUpdate ids now =>
    if ids ∈ s.requeuing then
      { s with queue := updateRequeued now ids s.queue, requeuing := s.requeuing.erase ids }
    else s

/-- The system after a list of steps. -/
def run (s : WorkerSystem) (events : List (WorkerEvent py)) : WorkerSystem :=
  events.foldl (step mode maxAttempts) s

end WorkerSystem

/-! ### What a step does -/

/-- The job that an `enqueue` finds for its session and scope. -/
def enqueueTarget (bound : Option (CallerAuthority py)) (sessionId : String)
    (authorityJson : Option Json) (q : DreamQueue) : Option JobRow := do
  let snapshot ← (enqueueSnapshot bound sessionId authorityJson).toOption
  let key ← (identityKey py snapshot).toOption
  q.jobs.rows.find? fun row => row.sessionId = sessionId ∧ row.scopeKey = key

/-- The job whose topics a step rewrites, with the new topics. -/
def WorkerEvent.rewrites (s : WorkerSystem) : WorkerEvent py → Option (JobRow × List String)
  | .enqueue bound _ sessionId topics authorityJson _ =>
    (enqueueTarget bound sessionId authorityJson s.queue).map fun row => (row, topics)
  | _ => none

/-- The jobs that a step puts back whatever their status is. -/
def WorkerEvent.resets (s : WorkerSystem) : WorkerEvent py → List ℕ
  | .recoverUpdate w _   =>
    match s.phase w with
    | .recovering rows => rows.map Prod.fst
    | _                => []
  | .retryUpdate w _     =>
    match s.phase w with
    | .retrying ids => ids
    | _             => []
  | .requeueUpdate ids _ => if ids ∈ s.requeuing then ids else []
  | _                    => []

/-- The worker that takes a step. -/
def WorkerEvent.worker : WorkerEvent py → Option ℕ
  | .recoverSelect w | .recoverUpdate w _ | .claim w _ _ _ | .finish w _ _ | .retrySelect w _
  | .retryUpdate w _ | .stop w => some w
  | _ => none

/-- A row that was put back: open or failed, with its topics. -/
structure JobRow.PutBack (row row' : JobRow) : Prop where
  status : row'.status = .pending ∨ row'.status = .failed
  topics : row'.topics = row.topics

/-- A queue in which the given jobs were put back. -/
structure DreamQueue.PutBack (q q' : DreamQueue) (ids : List ℕ) : Prop where
  other : ∀ id, id ∉ ids → q'.job? id = q.job? id
  absent : ∀ id, q.job? id = none → q'.job? id = none
  reset : ∀ id ∈ ids, ∀ row, q.job? id = some row →
    ∃ row', q'.job? id = some row' ∧ row.PutBack row'

lemma DreamQueue.PutBack.updateAll {α : Type} (q : DreamQueue) (key : α → ℕ)
    (f : α → JobRow → JobRow) (hf : ∀ a r, r.id = key a → (f a r).id = key a) (as : List α)
    (hback : ∀ a (r : JobRow), r.PutBack (f a r)) : q.PutBack (q.updateAll key f hf as) (as.map key) where
  other id h := q.job?_updateAll_of_notMem key f hf h
  absent id h := by
    unfold DreamQueue.updateAll
    induction as generalizing q with
    | nil => exact h
    | cons a as ih =>
      rw [List.foldl_cons]
      refine ih _ ?_
      rw [DreamQueue.job?_update, h]
      split_ifs <;> rfl
  reset id hid row hrow := by
    unfold DreamQueue.updateAll
    induction as generalizing q row with
    | nil => cases hid
    | cons a as ih =>
      rw [List.foldl_cons]
      have hnext : (q.update (key a) (f a) (hf a)).job? id =
          some (if id = key a then f a row else row) := by
        rw [DreamQueue.job?_update, hrow]
        split_ifs <;> rfl
      by_cases hrest : id ∈ as.map key
      · obtain ⟨row', hrow', hstatus, htopics⟩ := ih _ hrest _ hnext
        refine ⟨row', hrow', hstatus, htopics.trans ?_⟩
        split_ifs
        · exact (hback a row).topics
        · rfl
      · have hhead : id = key a := by simpa [hrest] using hid
        have hsame := (q.update (key a) (f a) (hf a)).job?_updateAll_of_notMem key f hf hrest
        unfold DreamQueue.updateAll at hsame
        exact ⟨f a row, by rw [hsame, hnext, if_pos hhead], hback a row⟩

/-- What a step makes of the system. -/
inductive WorkerSystem.Change (s : WorkerSystem) (e : WorkerEvent py) : WorkerSystem → Prop
  | keep {s' : WorkerSystem} (hqueue : s'.queue = s.queue)
      (hphase : ∀ w job, s'.phase w = .holding job → s.phase w = .holding job)
      (hstay : ∀ w, e.worker ≠ some w → s'.phase w = s.phase w) (hresets : e.resets s = [])
      (hrewrites : e.rewrites s = none) : Change s e s'
  | enqueue {queue : DreamQueue} (hworker : e.worker = none) (hresets : e.resets s = [])
      (hold : ∀ id row, s.queue.job? id = some row →
        (∀ topics, e.rewrites s ≠ some (row, topics)) → queue.job? id = some row)
      (hnew : ∀ id row, s.queue.job? id = none → queue.job? id = some row →
        row.status = .pending)
      (hrewrite : ∀ row topics, e.rewrites s = some (row, topics) →
        s.queue.job? row.id = some row ∧
          ∃ now, queue.job? row.id = some { row with topics := topics, updatedAt := now }) :
      Change s e { s with queue := queue }
  | putBack {s' : WorkerSystem} (hqueue : s.queue.PutBack s'.queue (e.resets s))
      (hphase : ∀ w job, s'.phase w = .holding job → s.phase w = .holding job)
      (hstay : ∀ w, e.worker ≠ some w → s'.phase w = s.phase w)
      (hfree : ∀ w job, e.worker = some w → s.phase w ≠ .holding job)
      (hrewrites : e.rewrites s = none) : Change s e s'
  | claim {w : ℕ} {row : JobRow} (now : Instant) (hworker : e.worker = some w)
      (hphase : s.phase w = .polling) (hrow : s.queue.job? row.id = some row)
      (hstatus : row.status = .pending) (hresets : e.resets s = [])
      (hrewrites : e.rewrites s = none) :
      Change s e (s.move w (s.queue.update row.id (fun r => r.claim now)
        fun r h => (r.claim_id now).trans h) (.holding (row.claim now).toJob))
  | finish {w : ℕ} {job : DreamJob} {outcome : Outcome} {caller : CallerAuthority py}
      {now : Instant} (he : e = .finish w outcome now) (hphase : s.phase w = .holding job)
      (hcaller : bindJobAuthority py job.authority = .ok caller)
      (hok : (outcome.write (some caller) now job.id s.queue).1 = .ok ()) :
      Change s e (s.move w (outcome.write (some caller) now job.id s.queue).2 .polling)

/-- An `enqueue` finds the job of its session and scope, inserts a new one, or raises. -/
lemma enqueue_cases (bound : Option (CallerAuthority py)) (now : Instant) (sessionId : String)
    (topics : List String) (authorityJson : Option Json) (skipped : ℕ) (q : DreamQueue) :
    (∃ row, enqueueTarget bound sessionId authorityJson q = some row ∧
        q.job? row.id = some row ∧
        (enqueue bound now sessionId topics authorityJson skipped q).2 =
          q.update row.id (fun r => { r with topics := topics, updatedAt := now }) fun _ h => h) ∨
      enqueueTarget bound sessionId authorityJson q = none ∧
        ((enqueue bound now sessionId topics authorityJson skipped q).2 = q ∨
          ∃ row, row.status = .pending ∧ q.lastId < row.id ∧ ∀ id,
            (enqueue bound now sessionId topics authorityJson skipped q).2.job? id =
              if id = row.id then some row else q.job? id) := by
  unfold enqueue enqueueTarget
  cases hsnapshot : enqueueSnapshot bound sessionId authorityJson with
  | error e => exact .inr ⟨rfl, .inl rfl⟩
  | ok snapshot =>
    cases hkey : identityKey py snapshot with
    | error e => exact .inr (by simp [bind, Except.bind, hkey, Except.toOption])
    | ok key =>
      simp only [bind, Except.bind, hkey, pure, Except.pure, Except.toOption, Option.bind_some,
        upsertJob]
      cases hrow : q.jobs.rows.find? fun row => row.sessionId = sessionId ∧ row.scopeKey = key with
      | none =>
        refine .inr ⟨rfl, .inr ⟨_, rfl, ?_, fun id => DreamQueue.job?_insert q _ _ id⟩⟩
        simp only
        omega
      | some row =>
        exact .inl ⟨row, rfl, DreamQueue.job?_of_mem (List.mem_of_find?_eq_some hrow), rfl⟩

namespace WorkerSystem

variable (mode : DeploymentMode) (maxAttempts : ℤ) (s : WorkerSystem)

lemma change_enqueue (bound : Option (CallerAuthority py)) (now : Instant) (sessionId : String)
    (topics : List String) (authorityJson : Option Json) (skipped : ℕ) :
    s.Change (.enqueue bound now sessionId topics authorityJson skipped)
      { s with queue :=
        (Dreaming.enqueue bound now sessionId topics authorityJson skipped s.queue).2 } := by
  rcases enqueue_cases bound now sessionId topics authorityJson skipped s.queue with
    ⟨target, htarget, hstored, hqueue⟩ | ⟨htarget, hqueue | ⟨row, hpending, hlt, hqueue⟩⟩
  · rw [hqueue]
    have hrewrites : (WorkerEvent.enqueue bound now sessionId topics authorityJson
        skipped).rewrites s = some (target, topics) := by
      simp [WorkerEvent.rewrites, htarget]
    have hupdate (id : ℕ) := s.queue.job?_update target.id id
      (fun r => { r with topics := topics, updatedAt := now }) fun _ h => h
    refine .enqueue rfl rfl (fun id row hrow hother => ?_) (fun id row hnone hrow => ?_) ?_
    · rw [hupdate, if_neg, hrow]
      rintro rfl
      rw [hstored] at hrow
      cases hrow
      exact hother topics hrewrites
    · rw [hupdate, hnone] at hrow
      simp at hrow
    · intro row topics' hsome
      rw [hrewrites] at hsome
      cases hsome
      refine ⟨hstored, now, ?_⟩
      rw [hupdate, if_pos rfl, hstored]
      rfl
  · rw [hqueue]
    refine .enqueue rfl rfl (fun id row hrow _ => hrow) (fun id row hnone hrow => ?_) ?_
    · rw [hnone] at hrow
      cases hrow
    · intro row topics' hsome
      simp [WorkerEvent.rewrites, htarget] at hsome
  · refine .enqueue rfl rfl (fun id row' hrow _ => ?_) (fun id row' hnone hrow => ?_) ?_
    · rw [hqueue, if_neg, hrow]
      rintro rfl
      rw [DreamQueue.job?_eq_none_of_lt hlt] at hrow
      cases hrow
    · rw [hqueue, hnone] at hrow
      split_ifs at hrow
      cases hrow
      exact hpending
    · intro row' topics' hsome
      simp [WorkerEvent.rewrites, htarget] at hsome

lemma holding_move {w w' : ℕ} {queue : DreamQueue} {phase : WorkerPhase} {job : DreamJob}
    (hphase : ∀ job, phase ≠ .holding job) (h : (s.move w queue phase).phase w' = .holding job) :
    s.phase w' = .holding job := by
  by_cases hw : w' = w
  · subst hw
    rw [move_phase_self] at h
    exact absurd h (hphase job)
  · rwa [move_phase_of_ne s queue phase hw] at h

/-- A step that only moves a worker on. -/
lemma Change.moveOn {e : WorkerEvent py} {w : ℕ} (hworker : e.worker = some w)
    (phase : WorkerPhase) (hphase : ∀ job, phase = .holding job → s.phase w = .holding job)
    (hresets : e.resets s = []) (hrewrites : e.rewrites s = none) :
    s.Change e (s.move w s.queue phase) := by
  refine .keep rfl (fun w' job h => ?_) (fun w' hne => ?_) hresets hrewrites
  · by_cases hw : w' = w
    · subst hw
      rw [move_phase_self] at h
      exact hphase job h
    · rwa [move_phase_of_ne s s.queue phase hw] at h
  · exact move_phase_of_ne s s.queue phase fun h => hne (h ▸ hworker)

lemma Change.same {e : WorkerEvent py} (hresets : e.resets s = []) (hrewrites : e.rewrites s = none) :
    s.Change e s :=
  .keep rfl (fun _ _ h => h) (fun _ _ => rfl) hresets hrewrites

/-- A step that updates the rows that a worker has selected. -/
lemma Change.update {e : WorkerEvent py} {w : ℕ} {queue : DreamQueue}
    (hworker : e.worker = some w) (hfree : ∀ job, s.phase w ≠ .holding job)
    (hqueue : s.queue.PutBack queue (e.resets s)) (hrewrites : e.rewrites s = none) :
    s.Change e (s.move w queue .polling) := by
  refine .putBack hqueue (fun w' job h => holding_move s (by simp) h) (fun w' hne => ?_)
    (fun w' job hw' => ?_) hrewrites
  · exact move_phase_of_ne s queue .polling fun h => hne (h ▸ hworker)
  · rw [hworker] at hw'
    cases hw'
    exact hfree job

/-- Every step is one of these. -/
theorem change_step (e : WorkerEvent py) : s.Change e (step mode maxAttempts s e) := by
  cases e <;> simp only [step]
  case enqueue bound now sessionId topics authorityJson skipped =>
    exact s.change_enqueue bound now sessionId topics authorityJson skipped
  case recoverSelect w =>
    split
    · split
      · exact Change.moveOn s rfl _ (by simp) rfl rfl
      · exact Change.moveOn s rfl _ (by simp) rfl rfl
    · exact Change.same s rfl rfl
  case recoverUpdate w now =>
    split
    · rename_i rows hphase
      refine Change.update s rfl (by simp [hphase]) ?_ rfl
      simp only [WorkerEvent.resets, hphase, updateRecovered]
      exact DreamQueue.PutBack.updateAll _ _ _ _ _ fun p row => ⟨by
        simp only [JobRow.recover, recoveredStatus]
        split_ifs <;> simp, rfl⟩
    · rename_i hphase
      refine Change.same s ?_ rfl
      simp only [WorkerEvent.resets]
  case claim w now time rank =>
    split
    · rename_i hpolling
      rcases claimNext_job (none : Option (CallerAuthority py)) mode now time rank s.queue with
        ⟨hsame, hnone⟩ | ⟨row, hrow, hpending, hjob, hqueue⟩
      · split <;> rename_i queue heq <;> rw [heq] at hsame <;> obtain rfl : queue = s.queue := hsame
        · rename_i job
          exact absurd (congrArg Prod.fst heq) (hnone job)
        · exact Change.moveOn s rfl _ (by simp) rfl rfl
        · exact Change.moveOn s rfl _ (by simp) rfl rfl
      · have heq : DreamQueue.claimNext (none : Option (CallerAuthority py)) mode now time rank s.queue =
            (.ok (some (row.claim now).toJob), s.queue.update row.id (fun r => r.claim now)
              fun r h => (r.claim_id now).trans h) := Prod.ext hjob hqueue
        rw [heq]
        exact .claim now rfl hpolling hrow hpending rfl rfl
    · exact Change.same s rfl rfl
  case finish w outcome now =>
    split
    · rename_i job hholding
      split
      · exact Change.moveOn s rfl _ (by simp) rfl rfl
      · rename_i caller hcaller
        split
        · rename_i u queue heq
          have hok : (outcome.write (some caller) now job.id s.queue).1 = .ok () :=
            congrArg Prod.fst heq
          have hqueue : (outcome.write (some caller) now job.id s.queue).2 = queue :=
            congrArg Prod.snd heq
          rw [← hqueue]
          exact .finish rfl hholding hcaller hok
        · rename_i e queue heq
          have hqueue : queue = s.queue := by
            have herror : (outcome.write (some caller) now job.id s.queue).1 = .error e :=
              congrArg Prod.fst heq
            rw [← outcome.write_error herror, heq]
          rw [hqueue]
          refine Change.moveOn s rfl _ (fun job' h => ?_) rfl rfl
          cases outcome <;> simp [Outcome.onError] at h
          rw [hholding, h]
    · exact Change.same s rfl rfl
  case retrySelect w rank =>
    split
    · split
      · exact Change.moveOn s rfl _ (by simp) rfl rfl
      · exact Change.moveOn s rfl _ (by simp) rfl rfl
    · exact Change.same s rfl rfl
  case retryUpdate w now =>
    split
    · rename_i ids hphase
      refine Change.update s rfl (by simp [hphase]) ?_ rfl
      simp only [WorkerEvent.resets, hphase, updateRetried]
      have hback := DreamQueue.PutBack.updateAll s.queue id (fun _ r => r.retry now)
        (fun _ r h => (r.retry_id now).trans h) ids fun _ row => ⟨.inl rfl, rfl⟩
      rwa [List.map_id] at hback
    · rename_i hphase
      refine Change.same s ?_ rfl
      simp only [WorkerEvent.resets]
  case stop w => exact Change.moveOn s rfl _ (by simp) rfl rfl
  case requeueSelect bound limit rank =>
    split
    · exact .keep rfl (fun _ _ h => h) (fun _ _ => rfl) rfl rfl
    · exact Change.same s rfl rfl
  case requeueUpdate ids now =>
    split_ifs with hmem
    · refine .putBack ?_ (fun _ _ h => h) (fun _ _ => rfl) (by simp [WorkerEvent.worker]) rfl
      simp only [WorkerEvent.resets, hmem, if_true, updateRequeued]
      have hback := DreamQueue.PutBack.updateAll s.queue id (fun _ r => r.requeue now)
        (fun _ r h => (r.requeue_id now).trans h) ids fun _ row => ⟨.inl rfl, rfl⟩
      rwa [List.map_id] at hback
    · exact Change.same s (by simp [WorkerEvent.resets, hmem]) rfl

end WorkerSystem

end CyberBrain.Dreaming
