import CyberBrain.Dreaming.Queue
import CyberBrain.Foundation.Run

/-!
# Attempts of jobs

Every operation does to one job one of a few things. The attempts of a job are its claims less its
deferrals, and never more than the limit that recovery and retries observe.
-/

namespace CyberBrain.Dreaming

open Python Tenancy

variable {py : Runtime}

/-! ### Updates of rows -/

namespace DreamQueue

variable {α : Type} (q : DreamQueue) (key : α → ℕ) (f : α → JobRow → JobRow)
  (hf : ∀ a r, r.id = key a → (f a r).id = key a) {as : List α}

lemma job?_updateAll_of_notMem {id : ℕ} (h : id ∉ as.map key) :
    (q.updateAll key f hf as).job? id = q.job? id := by
  unfold updateAll
  induction as generalizing q with
  | nil => rfl
  | cons a as ih =>
    rw [List.map_cons, List.mem_cons, not_or] at h
    obtain ⟨hne, h⟩ := h
    rw [List.foldl_cons, ih _ h, job?_update, if_neg hne]

lemma job?_updateAll_of_mem (hnodup : (as.map key).Nodup) {a : α} (ha : a ∈ as) :
    (q.updateAll key f hf as).job? (key a) = (q.job? (key a)).map (f a) := by
  induction as generalizing q with
  | nil => cases ha
  | cons b as ih =>
    obtain ⟨hfresh, hnodup⟩ := List.nodup_cons.mp hnodup
    have hcons : q.updateAll key f hf (b :: as) =
        (q.update (key b) (f b) (hf b)).updateAll key f hf as := rfl
    rw [hcons]
    rcases List.mem_cons.mp ha with rfl | ha
    · rw [job?_updateAll_of_notMem _ key f hf hfresh, job?_update, if_pos rfl]
    · have hne : key a ≠ key b := fun h => hfresh (h ▸ List.mem_map_of_mem ha)
      rw [ih _ hnodup ha, job?_update, if_neg hne]

end DreamQueue

/-! ### Selected rows -/

/-- A selection of rows: distinct rows of the table that pass a condition. -/
structure Selection (q : DreamQueue) (p : JobRow → Prop) (rows : List JobRow) : Prop where
  nodup : (rows.map (·.id)).Nodup
  stored : ∀ row ∈ rows, q.job? row.id = some row ∧ p row

lemma Selection.filter (q : DreamQueue) (p : JobRow → Bool) :
    Selection q (fun row => p row = true) (q.jobs.rows.filter p) where
  nodup := q.jobs.nodup.sublist (List.filter_sublist.map _)
  stored row hrow := by
    obtain ⟨hmem, hp⟩ := List.mem_filter.mp hrow
    exact ⟨DreamQueue.job?_of_mem hmem, hp⟩

lemma Selection.imp {q : DreamQueue} {p p' : JobRow → Prop} {rows : List JobRow}
    (h : Selection q p rows) (himp : ∀ row, p row → p' row) : Selection q p' rows :=
  ⟨h.nodup, fun row hrow => (h.stored row hrow).imp_right (himp row)⟩

lemma Selection.sublist {q : DreamQueue} {p : JobRow → Prop} {rows rows' : List JobRow}
    (h : Selection q p rows) (hsub : rows'.Sublist rows) : Selection q p rows' :=
  ⟨h.nodup.sublist (hsub.map _), fun row hrow => h.stored row (hsub.subset hrow)⟩

lemma Selection.orderBy {q : DreamQueue} {p : JobRow → Prop} {rows : List JobRow}
    (h : Selection q p rows) (time : JobRow → Instant) (rank : ℕ → ℕ) :
    Selection q p (orderBy time rank rows) :=
  ⟨((List.perm_insertionSort _ _).map _).nodup_iff.mpr h.nodup,
    fun row hrow => h.stored row (mem_of_mem_orderBy hrow)⟩

/-- The rows that `retry_failed` selects are failed, with attempts left. -/
lemma selectFailed_ok {bound : Option (CallerAuthority py)} {maxAttempts limit : ℤ}
    {rank : ℕ → ℕ} {q : DreamQueue} {ids : List ℕ}
    (h : selectFailed bound maxAttempts limit rank q = .ok ids) :
    ∃ rows, ids = rows.map (·.id) ∧
      Selection q (fun row => row.status = .failed ∧ row.attemptCount < maxAttempts) rows := by
  simp only [selectFailed, bind_eq_ok] at h
  obtain ⟨clauses, -, _, -, h⟩ := h
  cases h
  refine ⟨_, rfl, Selection.sublist (Selection.orderBy ?_ _ _) (limitTo_sublist _ _)⟩
  refine (Selection.filter q _).imp fun row hrow => ?_
  simp only [Bool.and_eq_true, decide_eq_true_eq] at hrow
  exact hrow.1

/-- The rows that `recover_processing` selects are in processing. -/
lemma selectProcessing_ok {bound : Option (CallerAuthority py)} {maxAttempts : ℤ}
    {q : DreamQueue} {pairs : List (ℕ × ℤ)}
    (h : selectProcessing bound maxAttempts q = .ok pairs) :
    ∃ rows : List JobRow, pairs = rows.map (fun row => (row.id, row.attemptCount)) ∧
      Selection q (fun row => row.status = .processing) rows := by
  simp only [selectProcessing, bind_eq_ok] at h
  obtain ⟨clauses, -, _, -, h⟩ := h
  cases h
  refine ⟨_, rfl, (Selection.filter q _).imp fun row hrow => ?_⟩
  simp only [Bool.and_eq_true, decide_eq_true_eq] at hrow
  exact hrow.1

/-! ### What an operation does to a job -/

/-- The job that an operation hands out. -/
def QueueOp.claimed (q : DreamQueue) : QueueOp py → Option ℕ
  | .claimNext bound mode now time rank =>
    match (DreamQueue.claimNext bound mode now time rank q).1 with
    | .ok job  => job.map (·.id)
    | .error _ => none
  | _ => none

/-- The job in processing that an operation defers. -/
def QueueOp.deferred (q : DreamQueue) : QueueOp py → Option ℕ
  | .defer bound now jobId availableAt =>
    match (Dreaming.defer bound now jobId availableAt q).1 with
    | .ok _    => (q.job? jobId).bind fun row => if row.status = .processing then some jobId else none
    | .error _ => none
  | _ => none

/-- What an operation that neither hands out nor defers a job makes of it. -/
inductive JobUpdate (maxAttempts : ℤ) : Option JobRow → Option JobRow → Prop
  | keep (o : Option JobRow) : JobUpdate maxAttempts o o
  | insert {row : JobRow} (hstatus : row.status = .pending) (hcount : row.attemptCount = 0) :
      JobUpdate maxAttempts none (some row)
  | topics (row : JobRow) (topics : List String) (now : Instant) :
      JobUpdate maxAttempts (some row) (some { row with topics := topics, updatedAt := now })
  | outcome {row row' : JobRow} (hstatus : row'.status = .processed ∨ row'.status = .failed)
      (hcount : row'.attemptCount = row.attemptCount) (htopics : row'.topics = row.topics) :
      JobUpdate maxAttempts (some row) (some row')
  | retry (row : JobRow) (now : Instant) (hstatus : row.status = .failed)
      (hcount : row.attemptCount < maxAttempts) :
      JobUpdate maxAttempts (some row) (some (row.retry now))
  | recover (row : JobRow) (now : Instant) (hstatus : row.status = .processing) :
      JobUpdate maxAttempts (some row)
        (some (row.recover (recoveredStatus maxAttempts row.attemptCount) now))

/-- What an operation makes of the job under an id. -/
inductive JobChange (maxAttempts : ℤ) (q : DreamQueue) (op : QueueOp py) (id : ℕ) :
    Option JobRow → Prop
  | claim {row : JobRow} (now : Instant) (hclaimed : op.claimed q = some id)
      (hrow : q.job? id = some row) (hstatus : row.status = .pending) :
      JobChange maxAttempts q op id (some (row.claim now))
  | defer {row : JobRow} (availableAt : Binary64) (now : Instant)
      (hdeferred : op.deferred q = some id) (hrow : q.job? id = some row)
      (hstatus : row.status = .processing) :
      JobChange maxAttempts q op id (some (row.defer availableAt now))
  | other {o : Option JobRow} (hclaimed : op.claimed q ≠ some id)
      (hdeferred : op.deferred q ≠ some id) (h : JobUpdate maxAttempts (q.job? id) o) :
      JobChange maxAttempts q op id o

lemma upsertJob_update (maxAttempts : ℤ) (now : Instant) (sessionId : String)
    (topics : List String) (snapshot : Json) (key : ScopeKey) (skipped : ℕ) (q : DreamQueue)
    (id : ℕ) : JobUpdate maxAttempts (q.job? id)
      ((upsertJob now sessionId topics snapshot key skipped q).job? id) := by
  unfold upsertJob
  split
  · rename_i row hrow
    rw [DreamQueue.job?_update]
    split_ifs with hid
    · subst hid
      rw [DreamQueue.job?_of_mem (List.mem_of_find?_eq_some hrow)]
      exact .topics row topics now
    · exact .keep _
  · rw [DreamQueue.job?_insert]
    split_ifs with hid
    · have hlt : q.lastId < id := by
        rw [hid]
        simp only
        omega
      rw [DreamQueue.job?_eq_none_of_lt hlt]
      exact .insert rfl rfl
    · exact .keep _

lemma enqueue_update (maxAttempts : ℤ) (bound : Option (CallerAuthority py)) (now : Instant)
    (sessionId : String) (topics : List String) (authorityJson : Option Json) (skipped : ℕ)
    (q : DreamQueue) (id : ℕ) : JobUpdate maxAttempts (q.job? id)
      ((enqueue bound now sessionId topics authorityJson skipped q).2.job? id) := by
  unfold enqueue
  split
  · exact .keep _
  · exact upsertJob_update maxAttempts now sessionId topics _ _ skipped q id

/-- `claim_next` hands out a pending job, or changes nothing. -/
lemma claimNext_job (bound : Option (CallerAuthority py)) (mode : DeploymentMode) (now : Instant)
    (time : Binary64) (rank : ℕ → ℕ) (q : DreamQueue) :
    ((DreamQueue.claimNext bound mode now time rank q).2 = q ∧
        ∀ job, (DreamQueue.claimNext bound mode now time rank q).1 ≠ .ok (some job)) ∨
      ∃ row, q.job? row.id = some row ∧ row.status = .pending ∧
        (DreamQueue.claimNext bound mode now time rank q).1 = .ok (some (row.claim now).toJob) ∧
        (DreamQueue.claimNext bound mode now time rank q).2 =
          q.update row.id (fun r => r.claim now) fun r h => (r.claim_id now).trans h := by
  unfold DreamQueue.claimNext
  rcases Program.atomically_cases _ q with ⟨value, t, h, heq⟩ | ⟨e, -, heq⟩ <;> rw [heq]
  · obtain ⟨clauses, -, h⟩ := bind_eq_ok.mp h
    simp only at h
    split at h
    · cases h
      exact .inl ⟨rfl, fun job => by simp⟩
    · rename_i row hhead
      cases h
      obtain ⟨hmem, hrow⟩ := List.mem_filter.mp (mem_of_mem_orderBy (List.mem_of_head? hhead))
      simp only [Bool.and_eq_true, decide_eq_true_eq] at hrow
      exact .inr ⟨row, DreamQueue.job?_of_mem hmem, hrow.1.1.1, rfl, rfl⟩
  · exact .inl ⟨rfl, fun job => by simp⟩

lemma defer_job (bound : Option (CallerAuthority py)) (now : Instant) (jobId : ℕ)
    (availableAt : Binary64) (q : DreamQueue) :
    (defer bound now jobId availableAt q).2 = q ∧
        (∃ e, (defer bound now jobId availableAt q).1 = .error e) ∨
      (defer bound now jobId availableAt q).1 = .ok () ∧ ∀ id,
        (defer bound now jobId availableAt q).2.job? id =
          if id = jobId then (q.job? id).map fun r =>
            if r.status = .processing then r.defer availableAt now else r
          else q.job? id := by
  unfold defer
  rcases Program.atomically_cases _ q with ⟨value, t, h, heq⟩ | ⟨e, -, heq⟩ <;> rw [heq]
  · obtain ⟨_, -, h⟩ := bind_eq_ok.mp h
    cases h
    exact .inr ⟨rfl, fun id => DreamQueue.job?_update q jobId id _ _⟩
  · exact .inl ⟨rfl, e, rfl⟩

/-- The two outcomes only set the status, the error and the time of a job. -/
lemma outcome_update (maxAttempts : ℤ) {q : DreamQueue} {jobId : ℕ} {f : JobRow → JobRow}
    {hf : ∀ r, r.id = jobId → (f r).id = jobId}
    (hstatus : ∀ r, (f r).status = .processed ∨ (f r).status = .failed)
    (hcount : ∀ r, (f r).attemptCount = r.attemptCount) (htopics : ∀ r, (f r).topics = r.topics)
    (id : ℕ) : JobUpdate maxAttempts (q.job? id) ((q.update jobId f hf).job? id) := by
  rw [DreamQueue.job?_update]
  split_ifs with hid
  · cases q.job? id with
    | none => exact .keep _
    | some row => exact .outcome (hstatus row) (hcount row) (htopics row)
  · exact .keep _

lemma markProcessed_update (maxAttempts : ℤ) (bound : Option (CallerAuthority py)) (now : Instant)
    (jobId : ℕ) (q : DreamQueue) (id : ℕ) :
    JobUpdate maxAttempts (q.job? id) ((markProcessed bound now jobId q).2.job? id) := by
  unfold markProcessed
  rcases Program.atomically_cases _ q with ⟨value, t, h, heq⟩ | ⟨e, -, heq⟩ <;> rw [heq]
  · obtain ⟨_, -, h⟩ := bind_eq_ok.mp h
    cases h
    refine outcome_update maxAttempts ?_ ?_ ?_ id
    · exact fun _ => .inl rfl
    · exact fun _ => rfl
    · exact fun _ => rfl
  · exact .keep _

lemma markFailed_update (maxAttempts : ℤ) (bound : Option (CallerAuthority py)) (now : Instant)
    (jobId : ℕ) (error : String) (q : DreamQueue) (id : ℕ) :
    JobUpdate maxAttempts (q.job? id) ((markFailed bound now jobId error q).2.job? id) := by
  unfold markFailed
  rcases Program.atomically_cases _ q with ⟨value, t, h, heq⟩ | ⟨e, -, heq⟩ <;> rw [heq]
  · obtain ⟨_, -, h⟩ := bind_eq_ok.mp h
    cases h
    refine outcome_update maxAttempts ?_ ?_ ?_ id
    · exact fun _ => .inr rfl
    · exact fun _ => rfl
    · exact fun _ => rfl
  · exact .keep _

lemma retryFailed_update (maxAttempts : ℤ) (bound : Option (CallerAuthority py)) (now : Instant)
    (limit : ℤ) (rank : ℕ → ℕ) (q : DreamQueue) (jobId : ℕ) :
    JobUpdate maxAttempts (q.job? jobId)
      ((retryFailed bound now maxAttempts limit rank q).2.job? jobId) := by
  unfold retryFailed
  rcases Program.atomically_cases _ q with ⟨value, t, h, heq⟩ | ⟨e, -, heq⟩ <;> rw [heq]
  · obtain ⟨ids, hids, h⟩ := bind_eq_ok.mp h
    cases h
    obtain ⟨rows, rfl, hrows⟩ := selectFailed_ok hids
    simp only [updateRetried]
    by_cases hid : jobId ∈ rows.map (·.id)
    · obtain ⟨row, hrow, rfl⟩ := List.mem_map.mp hid
      obtain ⟨hstored, hstatus, hcount⟩ := hrows.stored row hrow
      have hnodup : ((rows.map (·.id)).map id).Nodup := by simpa using hrows.nodup
      have hupdate := q.job?_updateAll_of_mem id (fun _ r => r.retry now)
        (fun _ r h => (r.retry_id now).trans h) hnodup hid
      simp only [id_eq, hstored, Option.map_some] at hupdate
      rw [hupdate, hstored]
      exact .retry row now hstatus hcount
    · rw [← List.map_id (rows.map (·.id))] at hid
      rw [q.job?_updateAll_of_notMem id (fun _ r => r.retry now)
        (fun _ r h => (r.retry_id now).trans h) hid]
      exact .keep _
  · exact .keep _

lemma recoverProcessing_update (maxAttempts : ℤ) (bound : Option (CallerAuthority py))
    (now : Instant) (q : DreamQueue) (id : ℕ) : JobUpdate maxAttempts (q.job? id)
      ((recoverProcessing bound now maxAttempts q).2.job? id) := by
  unfold recoverProcessing
  rcases Program.atomically_cases _ q with ⟨value, t, h, heq⟩ | ⟨e, -, heq⟩ <;> rw [heq]
  · obtain ⟨pairs, hpairs, h⟩ := bind_eq_ok.mp h
    cases h
    obtain ⟨rows, rfl, hrows⟩ := selectProcessing_ok hpairs
    simp only [updateRecovered]
    have hkeys : (rows.map fun row => (row.id, row.attemptCount)).map Prod.fst =
        rows.map (·.id) := by simp
    by_cases hid : id ∈ rows.map (·.id)
    · obtain ⟨row, hrow, rfl⟩ := List.mem_map.mp hid
      obtain ⟨hstored, hstatus⟩ := hrows.stored row hrow
      have hmem := List.mem_map_of_mem (f := fun row : JobRow => (row.id, row.attemptCount)) hrow
      have hupdate := q.job?_updateAll_of_mem Prod.fst
        (fun p r => r.recover (recoveredStatus maxAttempts p.2) now)
        (fun _ r h => (r.recover_id _ now).trans h)
        (hkeys ▸ hrows.nodup) hmem
      simp only [hstored, Option.map_some] at hupdate
      rw [hupdate, hstored]
      exact .recover row now hstatus
    · rw [← hkeys] at hid
      rw [q.job?_updateAll_of_notMem Prod.fst
        (fun p r => r.recover (recoveredStatus maxAttempts p.2) now)
        (fun _ r h => (r.recover_id _ now).trans h) hid]
      exact .keep _
  · exact .keep _

/-- What a step of the queue does to a job. -/
theorem jobChange_step (maxAttempts : ℤ) (q : DreamQueue) (op : QueueOp py) (id : ℕ) :
    JobChange maxAttempts q op id ((q.step maxAttempts op).job? id) := by
  cases op <;> simp only [DreamQueue.step]
  case enqueue bound now sessionId topics authorityJson skipped =>
    exact .other (by simp [QueueOp.claimed]) (by simp [QueueOp.deferred])
      (enqueue_update maxAttempts bound now sessionId topics authorityJson skipped q id)
  case claimNext bound mode now time rank =>
    rcases claimNext_job bound mode now time rank q with ⟨hsame, hnone⟩ | ⟨row, hrow, hpending,
      hjob, hupdate⟩
    · rw [hsame]
      refine .other ?_ (by simp [QueueOp.deferred]) (.keep _)
      simp only [QueueOp.claimed]
      split
      · rename_i job hjob
        cases job with
        | none => simp
        | some job => exact absurd hjob (hnone job)
      · simp
    · have hclaimed : (QueueOp.claimNext bound mode now time rank).claimed q = some row.id := by
        simp only [QueueOp.claimed, hjob]
        rfl
      rw [hupdate, DreamQueue.job?_update]
      split_ifs with hid
      · subst hid
        rw [hrow]
        exact .claim now hclaimed hrow hpending
      · refine .other ?_ (by simp [QueueOp.deferred]) (.keep _)
        rw [hclaimed]
        exact fun h => hid (Option.some.inj h).symm
  case defer bound now jobId availableAt =>
    have hclaimed : (QueueOp.defer bound now jobId availableAt).claimed q ≠ some id := by
      simp [QueueOp.claimed]
    rcases defer_job bound now jobId availableAt q with ⟨hsame, e, herror⟩ | ⟨hok, hupdate⟩
    · rw [hsame]
      exact .other hclaimed (by simp [QueueOp.deferred, herror]) (.keep _)
    · have hdeferred : (QueueOp.defer bound now jobId availableAt).deferred q =
          (q.job? jobId).bind fun row => if row.status = .processing then some jobId else none := by
        simp only [QueueOp.deferred, hok]
      rw [hupdate]
      split_ifs with hid
      · subst hid
        cases hrow : q.job? id with
        | none =>
          refine .other hclaimed (by simp [hdeferred, hrow]) ?_
          rw [hrow]
          exact .keep _
        | some row =>
          rw [hrow, Option.bind_some] at hdeferred
          by_cases hstatus : row.status = .processing
          · rw [if_pos hstatus] at hdeferred
            rw [Option.map_some, if_pos hstatus]
            exact .defer availableAt now hdeferred hrow hstatus
          · rw [if_neg hstatus] at hdeferred
            rw [Option.map_some, if_neg hstatus]
            refine .other hclaimed (by simp [hdeferred]) ?_
            rw [hrow]
            exact .keep _
      · refine .other hclaimed ?_ (.keep _)
        rw [hdeferred]
        intro h
        obtain ⟨row, -, h⟩ := Option.bind_eq_some_iff.mp h
        split_ifs at h
        exact hid (Option.some.inj h).symm
  case markProcessed bound now jobId =>
    exact .other (by simp [QueueOp.claimed]) (by simp [QueueOp.deferred])
      (markProcessed_update maxAttempts bound now jobId q id)
  case markFailed bound now jobId error =>
    exact .other (by simp [QueueOp.claimed]) (by simp [QueueOp.deferred])
      (markFailed_update maxAttempts bound now jobId error q id)
  case retryFailed bound now limit rank =>
    exact .other (by simp [QueueOp.claimed]) (by simp [QueueOp.deferred])
      (retryFailed_update maxAttempts bound now limit rank q id)
  case recoverProcessing bound now =>
    exact .other (by simp [QueueOp.claimed]) (by simp [QueueOp.deferred])
      (recoverProcessing_update maxAttempts bound now q id)

/-! ### Attempts -/

/-- The attempts of a job stay within the limit, with one left while it is pending. -/
structure JobRow.Bounded (maxAttempts : ℤ) (row : JobRow) : Prop where
  nonneg : 0 ≤ row.attemptCount
  le : row.attemptCount ≤ maxAttempts
  pending : row.status = .pending → row.attemptCount < maxAttempts
  processing : row.status = .processing → 1 ≤ row.attemptCount

/-- Every job of the queue is bounded. -/
def DreamQueue.Bounded (maxAttempts : ℤ) (q : DreamQueue) : Prop :=
  ∀ id row, q.job? id = some row → row.Bounded maxAttempts

lemma JobUpdate.bounded {maxAttempts : ℤ} (hmax : 1 ≤ maxAttempts) {o : Option JobRow}
    {row' : JobRow} (h : JobUpdate maxAttempts o (some row'))
    (hbounded : ∀ row, o = some row → row.Bounded maxAttempts) : row'.Bounded maxAttempts := by
  cases h with
  | keep => exact hbounded row' rfl
  | insert hstatus hcount => constructor <;> simp [hstatus, hcount] <;> omega
  | topics row topics now =>
    obtain ⟨hnonneg, hle, hpending, hprocessing⟩ := hbounded row rfl
    exact ⟨hnonneg, hle, hpending, hprocessing⟩
  | outcome hstatus hcount =>
    obtain ⟨hnonneg, hle, -, -⟩ := hbounded _ rfl
    rcases hstatus with hstatus | hstatus <;> constructor <;> simp [hstatus, hcount, hnonneg, hle]
  | retry row now hstatus hcount =>
    obtain ⟨hnonneg, hle, -, -⟩ := hbounded row rfl
    exact ⟨hnonneg, hle, fun _ => hcount, fun h => by simp [JobRow.retry] at h⟩
  | recover row now hstatus =>
    obtain ⟨hnonneg, hle, -, hprocessing⟩ := hbounded row rfl
    refine ⟨hnonneg, hle, fun hpending => ?_, fun h => ?_⟩
    · by_contra hcount
      simp [JobRow.recover, recoveredStatus] at hpending
      exact hcount hpending
    · simp only [JobRow.recover, recoveredStatus] at h
      split_ifs at h

lemma DreamQueue.Bounded.step {maxAttempts : ℤ} (hmax : 1 ≤ maxAttempts) {q : DreamQueue}
    (h : q.Bounded maxAttempts) (op : QueueOp py) : (q.step maxAttempts op).Bounded maxAttempts := by
  intro id row' hrow'
  have hchange := jobChange_step maxAttempts q op id
  rw [hrow'] at hchange
  generalize ho : some row' = o at hchange
  cases hchange with
  | claim now _ hrow hstatus =>
    cases ho
    obtain ⟨hnonneg, hle, hpending, -⟩ := h id _ hrow
    have hlt := hpending hstatus
    constructor <;> simp only [JobRow.claim] <;> intros <;> first | omega | contradiction
  | defer availableAt now _ hrow hstatus =>
    cases ho
    obtain ⟨hnonneg, hle, -, hprocessing⟩ := h id _ hrow
    constructor <;> simp only [JobRow.defer] <;> intros <;> first | omega | contradiction
  | other _ _ hupdate =>
    subst ho
    exact hupdate.bounded hmax (h id)

/-! ### Executions -/

/-- The attempts of the job under an id. -/
def DreamQueue.attempts (q : DreamQueue) (id : ℕ) : ℤ := (q.job? id).elim 0 (·.attemptCount)

lemma DreamQueue.Bounded.attempts_le {maxAttempts : ℤ} (hmax : 1 ≤ maxAttempts) {q : DreamQueue}
    (h : q.Bounded maxAttempts) (id : ℕ) : q.attempts id ≤ maxAttempts := by
  unfold DreamQueue.attempts
  cases hrow : q.job? id with
  | none => exact (zero_le_one).trans hmax
  | some row => exact (h id row hrow).le

lemma JobUpdate.attempts {maxAttempts : ℤ} {o o' : Option JobRow}
    (h : JobUpdate maxAttempts o o') :
    o'.elim 0 (·.attemptCount) = o.elim 0 (·.attemptCount) := by
  cases h with
  | keep => rfl
  | insert _ hcount => exact hcount
  | topics => rfl
  | outcome _ hcount => exact hcount
  | retry => rfl
  | recover => rfl

/-- Claims add an attempt and deferrals take it back. -/
lemma attempts_step {maxAttempts : ℤ} {q : DreamQueue} (h : q.Bounded maxAttempts)
    (op : QueueOp py) (id : ℕ) :
    (q.step maxAttempts op).attempts id + (if op.deferred q = some id then 1 else 0) =
      q.attempts id + (if op.claimed q = some id then 1 else 0) := by
  have hchange := jobChange_step maxAttempts q op id
  unfold DreamQueue.attempts
  generalize (q.step maxAttempts op).job? id = o at hchange
  cases hchange with
  | claim now hclaimed hrow =>
    have hdeferred : op.deferred q ≠ some id := by
      cases op <;> simp [QueueOp.claimed] at hclaimed
      simp [QueueOp.deferred]
    rw [if_neg hdeferred, if_pos hclaimed, hrow]
    simp [JobRow.claim]
  | defer availableAt now hdeferred hrow hstatus =>
    have hclaimed : op.claimed q ≠ some id := by
      cases op <;> simp [QueueOp.deferred] at hdeferred
      simp [QueueOp.claimed]
    have hpos := (h id _ hrow).processing hstatus
    rw [if_neg hclaimed, if_pos hdeferred, hrow]
    simp only [JobRow.defer, Option.elim_some]
    omega
  | other hclaimed hdeferred hupdate =>
    rw [if_neg hclaimed, if_neg hdeferred, hupdate.attempts]

variable (maxAttempts : ℤ)

/-- How often a run of the queue hands out a job: its executions. -/
def claims (id : ℕ) (q : DreamQueue) (ops : List (QueueOp py)) : ℕ :=
  countSteps (DreamQueue.step maxAttempts) (fun q op => op.claimed q = some id) q ops

/-- How often a run of the queue defers a job in processing. -/
def deferrals (id : ℕ) (q : DreamQueue) (ops : List (QueueOp py)) : ℕ :=
  countSteps (DreamQueue.step maxAttempts) (fun q op => op.deferred q = some id) q ops

/-- In every state that a run of the queue reaches, the attempts of every job are within the limit
and below it while the job is pending; and no job is executed more often than the limit, not
counting deferrals. -/
theorem attempts_bounded (hmax : 1 ≤ maxAttempts) (ops : List (QueueOp py)) :
    (∀ row ∈ (DreamQueue.empty.run maxAttempts ops).jobs.rows,
        0 ≤ row.attemptCount ∧ row.attemptCount ≤ maxAttempts ∧
          (row.status = .pending → row.attemptCount < maxAttempts)) ∧
      ∀ id, (claims maxAttempts id .empty ops : ℤ) ≤
        maxAttempts + deferrals maxAttempts id .empty ops := by
  have hempty : DreamQueue.empty.Bounded maxAttempts := fun id row h => absurd h (by simp)
  have hstep (q : DreamQueue) (op : QueueOp py) : q.Bounded maxAttempts →
      (q.step maxAttempts op).Bounded maxAttempts := fun h => h.step hmax op
  have hrun : (DreamQueue.empty.run maxAttempts ops).Bounded maxAttempts :=
    foldl_invariant hstep hempty ops
  constructor
  · intro row hrow
    obtain ⟨hnonneg, hle, hpending, -⟩ := hrun row.id row (DreamQueue.job?_of_mem hrow)
    exact ⟨hnonneg, hle, hpending⟩
  · intro id
    have hcount : (DreamQueue.empty.run maxAttempts ops).attempts id +
        deferrals maxAttempts id .empty ops = DreamQueue.empty.attempts id +
          claims maxAttempts id .empty ops :=
      count_add_countSteps (fun q => q.attempts id) (fun q op => op.claimed q = some id)
        (fun q op => op.deferred q = some id)
        (fun q op h => by simpa using attempts_step h op id) hstep hempty ops
    have hle := hrun.attempts_le hmax id
    have hzero : DreamQueue.empty.attempts id = 0 := rfl
    rw [hzero, zero_add] at hcount
    calc (claims maxAttempts id .empty ops : ℤ)
        = (DreamQueue.empty.run maxAttempts ops).attempts id +
            deferrals maxAttempts id .empty ops := hcount.symm
      _ ≤ maxAttempts + deferrals maxAttempts id .empty ops := by omega

section Sample

/-- A job that is claimed, deferred, claimed again and fails at a limit of one attempt. -/
def deferredJob : List (QueueOp Runtime.ascii) :=
  [.enqueue none (.ofMicros 0) "session" [] none 0,
    .claimNext none .singleOwner (.ofMicros 1) .zero id,
    .defer none (.ofMicros 2) 1 .zero,
    .claimNext none .singleOwner (.ofMicros 3) .zero id,
    .markFailed none (.ofMicros 4) 1 "no evidence",
    .retryFailed none (.ofMicros 5) 1 id]

/-- The job is executed twice, one of them deferred, and then stays failed. -/
theorem attempts_bounded_deferred :
    claims 1 1 .empty deferredJob = 2 ∧ deferrals 1 1 .empty deferredJob = 1 ∧
      (claims 1 1 .empty deferredJob : ℤ) ≤ 1 + deferrals 1 1 .empty deferredJob ∧
      ((DreamQueue.empty.run 1 deferredJob).job? 1).map (·.status) = some .failed :=
  ⟨by decide +kernel, by decide +kernel, (attempts_bounded 1 le_rfl deferredJob).2 1,
    by decide +kernel⟩

end Sample

end CyberBrain.Dreaming
