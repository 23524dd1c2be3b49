import CyberBrain.Dreaming.CompletedRuns
import CyberBrain.Dreaming.Sessions

/-!
# The Dream scheduler

`run_once` groups the pending episodes by session and authority and enqueues a job for every group
that has been quiet for long enough. It passes over the groups that own a job, whatever the status
of the job is: episodes that arrive after a session was dreamed stay pending.
-/

namespace CyberBrain.Dreaming

open Python Tenancy

variable {py : Runtime}

/-! ### Candidates -/

/-- `Counter.update` with one text, where there is one. -/
def countText (counter : List (String × ℕ)) (text : String) : List (String × ℕ) :=
  if text = "" then counter
  else if text ∈ counter.map Prod.fst then
    counter.map fun p => if p.1 = text then (p.1, p.2 + 1) else p
  else counter ++ [(text, 1)]

structure SessionCandidate where
  sessionId : String
  latestEvent : Instant
  episodeCount : ℕ := 0
  topics : List (String × ℕ) := []
  projects : List (String × ℕ) := []
  authority : Json

/-- The sessions by group key, and the group keys by partition. -/
structure Groups where
  sessions : Table (Prod.fst : String × SessionCandidate → String) := .empty _
  partitions : Table (Prod.fst : (String × ScopeKey) × String → String × ScopeKey) := .empty _

/-- A pending episode that belongs to a partition. -/
structure PendingEpisode where
  sessionId : String
  time : Instant
  authority : Json
  key : ScopeKey
  topic : String
  project : String

def PendingEpisode.partition (e : PendingEpisode) : String × ScopeKey := (e.sessionId, e.key)

section Collect

variable (py) (mode : DeploymentMode) (clock : Clock)

/-- The authority that the identity of an episode gives. -/
def scopedAuthority (payload : Fields) : Except Exc (CallerAuthority py) := do
  let identity := ["tenant", "user", "agent", "project"].filterMap fun key =>
    match payload key with
    | none | some .null => none
    | some v            => some (key, v)
  let scope ← IdentityScope.fromValues py identity
  authorityForAuthenticatedScope py mode scope {.adminReview, .backgroundReasoning, .read, .write}

/-- The part of the loop of `collect_candidates` that places an episode. -/
def placeEpisode (e : Episode) : Except Exc (Option PendingEpisode) := do
  let sessionId := fieldText py e.payload "session_id"
  match ← clock.eventTime ((e.payload "event_time").getD .null) with
  | none      => pure none
  | some time =>
    if sessionId = "" then pure none
    else
      match scopedAuthority py mode e.payload with
      | .error (.valueError message) =>
        -- an episode of an unknown owner is passed over where there are several owners
        if mode = .singleOwner then .error (.valueError message) else pure none
      | .error error   => .error error
      | .ok authority  => do
        let key ← identityKey py authority.snapshot
        pure (some { sessionId, time, authority := authority.snapshot, key
                     topic := fieldText py e.payload "topic"
                     project := fieldText py e.payload "project" })

/-- A candidate with one more episode. -/
def SessionCandidate.add (c : SessionCandidate) (e : PendingEpisode) : SessionCandidate :=
  { c with
    episodeCount := c.episodeCount + 1
    latestEvent := if c.latestEvent < e.time then e.time else c.latestEvent
    topics := countText c.topics e.topic
    projects := countText c.projects e.project }

/-- The group key of a partition, where it has one, or a new one. -/
def Groups.groupKey (g : Groups) (e : PendingEpisode) : String :=
  match g.partitions.find? e.partition with
  | some p => p.2
  | none   =>
    if (g.sessions.find? e.sessionId).isNone then e.sessionId
    else e.sessionId ++ ":" ++ toString g.sessions.rows.length

/-- The part of the loop that adds a placed episode. -/
def Groups.add (g : Groups) (e : PendingEpisode) : Groups :=
  let groupKey := g.groupKey e
  let candidate := (g.sessions.find? groupKey).elim
    { sessionId := e.sessionId, latestEvent := e.time, authority := e.authority } Prod.snd
  { sessions := g.sessions.upsert (groupKey, candidate.add e)
    partitions := g.partitions.upsert (e.partition, groupKey) }

/-- `collect_candidates`. -/
def collectCandidates (points : List Episode) : Except Exc Groups := do
  let placed ← points.mapM (placeEpisode py mode clock)
  pure (placed.reduceOption.foldl Groups.add {})

/-- `top_values`. -/
def topValues (counter : List (String × ℕ)) (limit : ℤ) : List String :=
  (upTo (counter.insertionSort fun a b =>
    toLex (-(a.2 : ℤ), py.casefold a.1) ≤ toLex (-(b.2 : ℤ), py.casefold b.1)) limit).map Prod.fst

end Collect

/-! ### One run -/

/-- The settings of the scheduler. -/
structure SchedulerSettings where
  mode : DeploymentMode
  maxPoints : ℕ
  quietMinutes : ℤ
  topicLimit : ℤ
  dryRun : Bool := false

/-- The counts of `dream_scheduler_summary`. -/
structure SchedulerSummary where
  pendingPoints : ℕ
  pendingSessions : ℕ
  eligible : ℕ := 0
  enqueued : ℕ := 0
  deferredActive : ℕ := 0
  skippedExisting : ℕ := 0
  deriving DecidableEq

/-- `qdrant_scroll_pending`. -/
def scrollPending (maxPoints : ℕ) (episodes : Episodes) : Except Exc (List Episode) := do
  require (1 ≤ maxPoints) (.valueError "CYBERBRAIN_DREAM_SCHEDULER_MAX_POINTS must be >= 1")
  let points := episodes.scroll maxPoints
    [.field (.matchValue "dream_status" (.str DreamStatus.pending.text))]
  require (points.length < maxPoints) (.runtimeError ("pending Episode scan reached safety cap " ++
    toString maxPoints ++ "; refusing partial enqueue"))
  pure points

section Run

variable (py) (settings : SchedulerSettings) (cutoff : Instant)

/-- The body of the loop of `run_once`. The time and the gap in the ids of an `enqueue` come from
outside. -/
def scheduleCandidate (now : Instant) (skipped : ℕ) (candidate : SessionCandidate)
    (summary : SchedulerSummary) : Program DreamQueue Exc SchedulerSummary := fun q =>
  if cutoff < candidate.latestEvent then
    (.ok { summary with deferredActive := summary.deferredActive + 1 }, q)
  else
    match getBySession (none : Option (CallerAuthority py)) candidate.sessionId candidate.authority
      q with
    | .ok _                => (.ok { summary with skippedExisting := summary.skippedExisting + 1 }, q)
    | .error (.keyError _) =>
      let summary := { summary with eligible := summary.eligible + 1 }
      if settings.dryRun then (.ok summary, q)
      else
        match enqueue (none : Option (CallerAuthority py)) now candidate.sessionId
          (topValues py candidate.topics settings.topicLimit) (some candidate.authority) skipped q with
        | (.ok _, q')        => (.ok { summary with enqueued := summary.enqueued + 1 }, q')
        | (.error error, q') => (.error error, q')
    | .error error         => (.error error, q)

/-- The loop of `run_once`. -/
def scheduleAll (times : String → Instant × ℕ) :
    List (String × SessionCandidate) → SchedulerSummary → Program DreamQueue Exc SchedulerSummary
  | [], summary                            => pure summary
  | (groupKey, candidate) :: rest, summary => do
    let (now, skipped) := times groupKey
    let summary ← scheduleCandidate py settings cutoff now skipped candidate summary
    scheduleAll times rest summary

/-- `now - timedelta(minutes=quiet_minutes)`. -/
def quietCutoff (now : Instant) : Except Exc Instant := do
  require (0 ≤ settings.quietMinutes)
    (.valueError "CYBERBRAIN_DREAM_SCHEDULER_QUIET_MINUTES must be >= 0")
  require (0 ≤ settings.topicLimit)
    (.valueError "CYBERBRAIN_DREAM_SCHEDULER_TOPIC_LIMIT must be >= 0")
  orRaise (now.add? (-(settings.quietMinutes * 60000000))) (.overflowError "date value out of range")

/-- The groups in the order in which `run_once` visits them. -/
def Groups.sorted (g : Groups) : List (String × SessionCandidate) :=
  g.sessions.rows.insertionSort fun a b => a.1 ≤ b.1

/-- `run_once`. -/
def runOnce (clock : Clock) (episodes : Episodes) (now : Instant) (times : String → Instant × ℕ) :
    Program DreamQueue Exc SchedulerSummary := do
  let cutoff ← .ofExcept (quietCutoff settings now)
  let points ← .ofExcept (scrollPending settings.maxPoints episodes)
  let groups ← .ofExcept (collectCandidates py settings.mode clock points)
  scheduleAll py settings cutoff times groups.sorted
    { pendingPoints := points.length, pendingSessions := groups.sessions.rows.length }

end Run

/-! ### What a run does to the queue -/

/-- The job of a session and scope. -/
def DreamQueue.jobOf (q : DreamQueue) (partition : String × ScopeKey) : Option JobRow :=
  q.jobs.rows.find? fun row => row.sessionId = partition.1 ∧ row.scopeKey = partition.2

variable (py) in
/-- The partition of a candidate. -/
def SessionCandidate.Owns (c : SessionCandidate) (partition : String × ScopeKey) : Prop :=
  c.sessionId = partition.1 ∧ identityKey py c.authority = .ok partition.2

variable (py) in
/-- The queue after a run: every job is as it was, and a partition without a job has a pending one
if it is the partition of one of the quiet candidates. -/
structure Scheduled (cutoff : Instant) (candidates : List (String × SessionCandidate))
    (q q' : DreamQueue) : Prop where
  kept : ∀ p row, q.jobOf p = some row → q'.jobOf p = some row
  pending : ∀ p row, q.jobOf p = none → q'.jobOf p = some row → row.status = .pending
  exists_iff : ∀ p, q.jobOf p = none → ((q'.jobOf p).isSome ↔
    ∃ c ∈ candidates, c.2.Owns py p ∧ c.2.latestEvent ≤ cutoff)

variable (py) in
lemma Scheduled.nil (cutoff : Instant) (q : DreamQueue) : Scheduled py cutoff [] q q where
  kept _ _ h := h
  pending _ _ h h' := by rw [h] at h'; cases h'
  exists_iff _ h := by simp [h]

lemma jobOf_insert (q : DreamQueue) (row : JobRow) (h : q.lastId < row.id)
    (p : String × ScopeKey) : (q.insert row h).jobOf p =
      (q.jobOf p).or (if row.sessionId = p.1 ∧ row.scopeKey = p.2 then some row else none) := by
  have hrows : (q.insert row h).jobs.rows = q.jobs.rows ++ [row] := by
    have hfresh : row.id ∉ q.jobs.rows.map (·.id) := fun hmem => by
      obtain ⟨r, hr, hid⟩ := List.mem_map.mp hmem
      have := q.id_le_lastId r hr
      omega
    simp only [DreamQueue.insert, Table.upsert, dif_neg hfresh]
  simp only [DreamQueue.jobOf, hrows, List.find?_append, List.find?_cons, List.find?_nil]
  split_ifs with hrow <;> simp [hrow]

lemma identityKey_error {snapshot : Json} {e : Exc} (h : identityKey py snapshot = .error e) :
    e = .configurationError "invalid durable authority snapshot" := by
  unfold identityKey restoreAuthority at h
  cases hdecode : decodeSnapshot py snapshot with
  | ok authority => rw [hdecode] at h; cases h
  | error error => rw [hdecode] at h; cases h; rfl

/-- Without a caller, the lookup of a job finds the job of its partition. -/
lemma getBySession_none {sessionId : String} {snapshot : Json} {key : ScopeKey}
    (hkey : identityKey py snapshot = .ok key) (q : DreamQueue) :
    getBySession (none : Option (CallerAuthority py)) sessionId snapshot q =
      (q.jobOf (sessionId, key)).elim (.error (.keyError sessionId)) fun row => .ok row.toJob := by
  have hfind : (q.jobs.rows.find? fun row => row.sessionId = sessionId ∧ row.scopeKey = key) =
      q.jobOf (sessionId, key) := rfl
  simp only [getBySession, hkey, bind, Except.bind, hfind]
  cases q.jobOf (sessionId, key) <;> rfl

/-- Without a caller, an `enqueue` for a partition without a job inserts a pending one. -/
lemma enqueue_none {sessionId : String} {snapshot : Json} {key : ScopeKey}
    (hkey : identityKey py snapshot = .ok key) {q : DreamQueue}
    (hnone : q.jobOf (sessionId, key) = none) (now : Instant) (topics : List String)
    (skipped : ℕ) : ∃ job row, row.status = .pending ∧
      enqueue (none : Option (CallerAuthority py)) now sessionId topics (some snapshot) skipped q =
        (.ok job, upsertJob now sessionId topics snapshot key skipped q) ∧
      ∀ p, (upsertJob now sessionId topics snapshot key skipped q).jobOf p =
        (q.jobOf p).or (if (sessionId, key) = p then some row else none) := by
  obtain ⟨row, hpending, hjob⟩ : ∃ row : JobRow, row.status = .pending ∧
      ∀ p, (upsertJob now sessionId topics snapshot key skipped q).jobOf p =
        (q.jobOf p).or (if (sessionId, key) = p then some row else none) := by
    have hfind : (q.jobs.rows.find? fun row => row.sessionId = sessionId ∧ row.scopeKey = key) =
        none := hnone
    refine ⟨{ id := q.lastId + 1 + skipped, sessionId, topics, status := .pending
              createdAt := now, updatedAt := now, authority := some snapshot, scopeKey := key },
      rfl, fun p => ?_⟩
    simp only [upsertJob, hfind, jobOf_insert, Prod.ext_iff]
  have hself : (upsertJob now sessionId topics snapshot key skipped q).jobOf (sessionId, key) =
      some row := by rw [hjob, hnone, if_pos rfl]; rfl
  refine ⟨row.toJob, row, hpending, ?_, hjob⟩
  have hsnapshot : enqueueSnapshot (none : Option (CallerAuthority py)) sessionId (some snapshot) =
      .ok snapshot := rfl
  simp only [enqueue, hsnapshot, hkey, bind, Except.bind, pure, Except.pure,
    getBySession_none hkey, hself]
  rfl

section Loop

variable {settings : SchedulerSettings} {cutoff : Instant} {q q' : DreamQueue}
  {summary summary' : SchedulerSummary}

/-- One pass of the loop settles the partition of its candidate. -/
lemma scheduleCandidate_spec {now : Instant} {skipped : ℕ} {groupKey : String}
    {candidate : SessionCandidate} (hdry : settings.dryRun = false)
    (h : scheduleCandidate py settings cutoff now skipped candidate summary q =
      (.ok summary', q')) : Scheduled py cutoff [(groupKey, candidate)] q q' := by
  unfold scheduleCandidate at h
  by_cases hactive : cutoff < candidate.latestEvent
  · rw [if_pos hactive] at h
    cases h
    refine { Scheduled.nil py cutoff q with exists_iff := fun p hp => ?_ }
    have hlate : ¬ candidate.latestEvent ≤ cutoff := fun hle => absurd hactive (Nat.not_lt.mpr hle)
    simp [hp, hlate]
  · rw [if_neg hactive] at h
    cases hkey : identityKey py candidate.authority with
    | error error =>
      cases identityKey_error hkey
      simp only [getBySession, hkey, bind, Except.bind] at h
      cases h
    | ok key =>
      have howns : ∀ p, candidate.Owns py p ↔ (candidate.sessionId, key) = p := by
        intro p
        simp [SessionCandidate.Owns, hkey, Prod.ext_iff]
      rw [getBySession_none hkey] at h
      cases hjob : q.jobOf (candidate.sessionId, key) with
      | some row =>
        rw [hjob] at h
        cases h
        refine { Scheduled.nil py cutoff q with exists_iff := fun p hp => ?_ }
        have hne : ¬ candidate.Owns py p := fun hp' => by
          rw [(howns p).mp hp', hp] at hjob
          cases hjob
        simp [hp, hne]
      | none =>
        obtain ⟨job, row, hpending, henqueue, hafter⟩ := enqueue_none hkey hjob now
          (topValues py candidate.topics settings.topicLimit) skipped
        simp only [hjob, Option.elim_none, hdry, henqueue] at h
        cases h
        refine ⟨fun p row' hp => ?_, fun p row' hp hp' => ?_, fun p hp => ?_⟩
        · rw [hafter, hp]
          rfl
        · rw [hafter, hp] at hp'
          split_ifs at hp' <;> cases hp'
          exact hpending
        · have hquiet : candidate.latestEvent ≤ cutoff := Nat.not_lt.mp hactive
          rw [hafter, hp]
          split_ifs with heq <;> simp [howns, heq, hquiet]

lemma Scheduled.append {q'' : DreamQueue} {cs ds : List (String × SessionCandidate)}
    (h : Scheduled py cutoff cs q q') (h' : Scheduled py cutoff ds q' q'') :
    Scheduled py cutoff (cs ++ ds) q q'' where
  kept p row hrow := h'.kept p row (h.kept p row hrow)
  pending p row hnone hrow := by
    cases hmid : q'.jobOf p with
    | none => exact h'.pending p row hmid hrow
    | some row' =>
      rw [h'.kept p row' hmid] at hrow
      cases hrow
      exact h.pending p row hnone hmid
  exists_iff p hnone := by
    have hfirst := h.exists_iff p hnone
    simp only [List.mem_append, or_and_right, exists_or]
    cases hmid : q'.jobOf p with
    | none =>
      rw [hmid] at hfirst
      rw [h'.exists_iff p hmid, ← hfirst]
      simp
    | some row =>
      rw [hmid] at hfirst
      rw [h'.kept p row hmid, ← hfirst]
      simp

/-- The loop settles the partitions of its candidates. -/
lemma scheduleAll_spec (hdry : settings.dryRun = false) {times : String → Instant × ℕ}
    {candidates : List (String × SessionCandidate)}
    (h : scheduleAll py settings cutoff times candidates summary q = (.ok summary', q')) :
    Scheduled py cutoff candidates q q' := by
  induction candidates generalizing summary q with
  | nil =>
    cases h
    exact Scheduled.nil py cutoff _
  | cons c rest ih =>
    obtain ⟨groupKey, candidate⟩ := c
    simp only [scheduleAll] at h
    obtain ⟨summary₁, q₁, hfirst, hrest⟩ := Program.bind_eq_ok h
    exact (scheduleCandidate_spec hdry hfirst).append (ih hrest)

end Loop

/-! ### Coverage -/

variable (py) in
/-- The partition is quiet: it has a placed episode, and all of them are old enough. -/
def Quiet (mode : DeploymentMode) (clock : Clock) (cutoff : Instant) (points : List Episode)
    (p : String × ScopeKey) : Prop :=
  (∃ e ∈ points, ∃ placed, placeEpisode py mode clock e = .ok (some placed) ∧
    placed.partition = p) ∧
  ∀ e ∈ points, ∀ placed, placeEpisode py mode clock e = .ok (some placed) →
    placed.partition = p → placed.time ≤ cutoff

variable (py) in
/-- Every quiet partition owns a job that is not processed. -/
def Covered (mode : DeploymentMode) (clock : Clock) (cutoff : Instant) (points : List Episode)
    (q : DreamQueue) : Prop :=
  ∀ p, Quiet py mode clock cutoff points p → ∃ row, q.jobOf p = some row ∧ row.status ≠ .processed

variable (py) in
/-- Every quiet partition owns a job that is not processed, or owns no job and has a quiet candidate
of its own. -/
def Coverable (mode : DeploymentMode) (clock : Clock) (cutoff : Instant) (points : List Episode)
    (q : DreamQueue) : Prop :=
  ∀ p, Quiet py mode clock cutoff points p →
    match q.jobOf p with
    | some row => row.status ≠ .processed
    | none     => ∃ groups, collectCandidates py mode clock points = .ok groups ∧
      ∃ c ∈ groups.sessions.rows, c.2.Owns py p ∧ c.2.latestEvent ≤ cutoff

/-- A run that is not dry covers the quiet partitions exactly if they could be covered. -/
lemma covered_iff {settings : SchedulerSettings} {clock : Clock} {episodes : Episodes}
    {now : Instant} {times : String → Instant × ℕ} {q q' : DreamQueue} {summary : SchedulerSummary}
    (hdry : settings.dryRun = false)
    (h : runOnce py settings clock episodes now times q = (.ok summary, q')) :
    ∃ cutoff points, quietCutoff settings now = .ok cutoff ∧
      scrollPending settings.maxPoints episodes = .ok points ∧
      (Covered py settings.mode clock cutoff points q' ↔
        Coverable py settings.mode clock cutoff points q) := by
  obtain ⟨cutoff, hcutoff, h⟩ := Program.ofExcept_bind_eq_ok h
  obtain ⟨points, hpoints, h⟩ := Program.ofExcept_bind_eq_ok h
  obtain ⟨groups, hgroups, h⟩ := Program.ofExcept_bind_eq_ok h
  have hscheduled := scheduleAll_spec hdry h
  refine ⟨cutoff, points, hcutoff, hpoints, forall_congr' fun p => imp_congr_right fun _ => ?_⟩
  have hmem : ∀ c, c ∈ groups.sorted ↔ c ∈ groups.sessions.rows := fun c =>
    (List.perm_insertionSort _ _).mem_iff
  cases hjob : q.jobOf p with
  | some row => simp [hscheduled.kept p row hjob]
  | none =>
    have hexists := hscheduled.exists_iff p hjob
    simp only [hmem] at hexists
    simp only [hgroups, Except.ok.injEq, exists_eq_left', ← hexists]
    cases hafter : q'.jobOf p with
    | none => simp
    | some row => simp [hscheduled.pending p row hjob hafter]

/-! ### Histories -/

/-- The episodes, with the queue and its workers. -/
structure Lifecycle where
  episodes : Episodes := .empty _
  system : WorkerSystem := {}

variable (py) in
/-- A step of a history: an episode is stored or marked, a worker or another user of the queue takes
a step, or the scheduler runs. -/
inductive LifecycleEvent
  | store (e : Episode)
  | mark (id : Uuid) (stamp : Stamp)
  | work (e : WorkerEvent py)
  | schedule (settings : SchedulerSettings) (now : Instant) (times : String → Instant × ℕ)

namespace Lifecycle

variable (mode : DeploymentMode) (maxAttempts : ℤ) (clock : Clock)

/-- The state after a step. -/
def step (s : Lifecycle) : LifecycleEvent py → Lifecycle
  | .store e                     => { s with episodes := s.episodes.upsert e }
  | .mark id stamp               =>
    { s with episodes := Episodes.setPayload s.episodes id stamp.payload }
  | .work e                      => { s with system := s.system.step mode maxAttempts e }
  | .schedule settings now times =>
    { s with system :=
      { s.system with
        queue := (runOnce py settings clock s.episodes now times s.system.queue).2 } }

/-- The state after a list of steps. -/
def run (s : Lifecycle) (events : List (LifecycleEvent py)) : Lifecycle :=
  events.foldl (step mode maxAttempts clock) s

/-- After a run of the scheduler that is not dry, every quiet partition owns a job that is not
processed. -/
def Covers (s : Lifecycle) (e : LifecycleEvent py) : Prop :=
  ∀ settings now times, e = .schedule settings now times → settings.dryRun = false →
    ∀ summary q', runOnce py settings clock s.episodes now times s.system.queue =
      (.ok summary, q') →
    ∀ cutoff points, quietCutoff settings now = .ok cutoff →
      scrollPending settings.maxPoints s.episodes = .ok points →
      Covered py settings.mode clock cutoff points q'

/-- Before such a run, no quiet partition owns a processed job, and each one without a job has a
quiet candidate of its own. -/
def CanCover (s : Lifecycle) (e : LifecycleEvent py) : Prop :=
  ∀ settings now times, e = .schedule settings now times → settings.dryRun = false →
    ∀ summary q', runOnce py settings clock s.episodes now times s.system.queue =
      (.ok summary, q') →
    ∀ cutoff points, quietCutoff settings now = .ok cutoff →
      scrollPending settings.maxPoints s.episodes = .ok points →
      Coverable py settings.mode clock cutoff points s.system.queue

variable {mode maxAttempts clock}

lemma covers_iff (s : Lifecycle) (e : LifecycleEvent py) : s.Covers clock e ↔ s.CanCover clock e := by
  constructor
  · intro h settings now times he hdry summary q' hrun cutoff points hcutoff hpoints
    obtain ⟨_, _, hcutoff', hpoints', hiff⟩ := covered_iff hdry hrun
    cases hcutoff.symm.trans hcutoff'
    cases hpoints.symm.trans hpoints'
    exact hiff.mp (h settings now times he hdry summary q' hrun _ _ hcutoff hpoints)
  · intro h settings now times he hdry summary q' hrun cutoff points hcutoff hpoints
    obtain ⟨_, _, hcutoff', hpoints', hiff⟩ := covered_iff hdry hrun
    cases hcutoff.symm.trans hcutoff'
    cases hpoints.symm.trans hpoints'
    exact hiff.mpr (h settings now times he hdry summary q' hrun _ _ hcutoff hpoints)

end Lifecycle

/-- In a history, every run of the scheduler that is not dry covers the quiet partitions exactly if
no quiet partition owns a processed job before such a run, and each one without a job has a quiet
candidate of its own. -/
theorem scheduler_covers_iff (mode : DeploymentMode) (maxAttempts : ℤ) (clock : Clock)
    (events : List (LifecycleEvent py)) :
    (∀ done e rest, events = done ++ e :: rest →
      (Lifecycle.run mode maxAttempts clock {} done).Covers clock e) ↔
        ∀ done e rest, events = done ++ e :: rest →
          (Lifecycle.run mode maxAttempts clock {} done).CanCover clock e :=
  forall_congr' fun _ => forall_congr' fun e => forall_congr' fun _ =>
    imp_congr_right fun _ => Lifecycle.covers_iff _ e

section Sample

/-- The settings of a scheduler with a quiet hour. -/
def sampleSettings : SchedulerSettings where
  mode := .singleOwner
  maxPoints := 20000
  quietMinutes := 60
  topicLimit := 3

/-- Some hours into the sample day. -/
def sampleHour (hours : ℕ) : Instant := .ofMicros (62135596800000000 + hours * 3600000000)

/-- A run of the scheduler. -/
def sampleSchedule (hours : ℕ) : LifecycleEvent Runtime.ascii :=
  .schedule sampleSettings (sampleHour hours) fun _ => (sampleHour hours, 0)

/-- A session is dreamed, and receives another episode. -/
def dreamedSession : Lifecycle :=
  .run .singleOwner 3 sampleClock {} ([.store (sampleEpisode 1), sampleSchedule 2,
    .work (.recoverSelect 0), .work (.recoverUpdate 0 (.ofMicros 1)),
    .work (.claim 0 (.ofMicros 2) .zero id), .mark (.ofNat 1) ⟨.processed, some "run", none⟩,
    .work (.finish 0 .processed (.ofMicros 3)), .store (sampleEpisode 2)] :
      List (LifecycleEvent Runtime.ascii))

/-- The next run of the scheduler on that session. -/
def nextRun : Except Exc SchedulerSummary × DreamQueue :=
  runOnce Runtime.ascii sampleSettings sampleClock dreamedSession.episodes (sampleHour 30)
    (fun _ => (sampleHour 30, 0)) dreamedSession.system.queue

/-- All episodes of a scan belong to one partition, and are old enough. -/
def allQuiet (cutoff : Instant) (p : String × ScopeKey) (points : List Episode) : Bool :=
  !points.isEmpty && points.all fun e =>
    (placeEpisode Runtime.ascii .singleOwner sampleClock e).toOption.join.any fun placed =>
      placed.partition = p && placed.time ≤ cutoff

lemma quiet_of_allQuiet {points : List Episode} {cutoff : Instant} {p : String × ScopeKey}
    (h : allQuiet cutoff p points = true) :
    Quiet Runtime.ascii .singleOwner sampleClock cutoff points p := by
  simp only [allQuiet, Bool.and_eq_true, Bool.not_eq_true', List.isEmpty_eq_false_iff,
    List.all_eq_true, Option.any_eq_true, decide_eq_true_eq] at h
  obtain ⟨hne, hall⟩ := h
  have hplace : ∀ e ∈ points, ∃ placed,
      placeEpisode Runtime.ascii .singleOwner sampleClock e = .ok (some placed) ∧
        placed.partition = p ∧ placed.time ≤ cutoff := by
    intro e he
    obtain ⟨placed, hsome, hpartition, htime⟩ := hall e he
    exact ⟨placed, toOption_eq_some.mp (Option.join_eq_some_iff.mp hsome), hpartition, htime⟩
  obtain ⟨e, he⟩ := List.exists_mem_of_ne_nil points hne
  obtain ⟨placed, hplaced, hpartition, -⟩ := hplace e he
  refine ⟨⟨e, he, placed, hplaced, hpartition⟩, fun e' he' placed' hplaced' _ => ?_⟩
  obtain ⟨_, hplaced, -, htime⟩ := hplace e' he'
  cases hplaced.symm.trans hplaced'
  exact htime

/-- The scheduler leaves the session with its finished job, and the episode pending. -/
theorem dreamed_session_not_covered :
    ¬ dreamedSession.Covers sampleClock (sampleSchedule 30) := by
  intro hcovers
  have hok : nextRun.1.toOption.isSome = true := by decide +kernel
  have hcutoff : quietCutoff sampleSettings (sampleHour 30) = .ok (sampleHour 29) := by
    decide +kernel
  have hpoints : (scrollPending 20000 dreamedSession.episodes).toOption.map
      (allQuiet (sampleHour 29) ("session", [])) = some true := by
    decide +kernel
  have hjob : (dreamedSession.system.queue.jobOf ("session", [])).map (·.status) =
      some .processed := by
    decide +kernel
  obtain ⟨summary, hsummary⟩ := Option.isSome_iff_exists.mp hok
  have hrun : nextRun = (.ok summary, nextRun.2) :=
    Prod.ext (toOption_eq_some.mp hsummary) rfl
  obtain ⟨points, hscroll, hplaced⟩ := Option.map_eq_some_iff.mp hpoints
  obtain ⟨row, hrow, hprocessed⟩ := Option.map_eq_some_iff.mp hjob
  have hcan := (Lifecycle.covers_iff _ _).mp hcovers _ _ _ rfl rfl summary _ hrun _ _ hcutoff
    (toOption_eq_some.mp hscroll) _ (quiet_of_allQuiet hplaced)
  rw [hrow] at hcan
  exact hcan hprocessed

end Sample

end CyberBrain.Dreaming
