import CyberBrain.Dreaming.ReviewCalls

/-!
# Recorded writes

The worker evaluates a run and stores its promoted candidates one by one; only then does it record
what became of each candidate, the skipped ones included. Reviewers can approve a candidate from the
evaluation on, and record its write before the worker comes to it.
-/

namespace CyberBrain.Dreaming

open Python Tenancy

variable {py : Runtime}

/-! ### The worker -/

variable (py) in
/-- What the worker calls `evaluate` and `write_and_audit` with. -/
structure WriteCall where
  bound : Option (CallerAuthority py)
  runId : String
  request : DreamReasoningRequest
  result : DreamReasoningResult

variable (py) in
/-- Where the worker is: before each of its statements, in `Evolution.store`, or at its end. -/
inductive WritebackPhase
  | starting (w : WriteCall py)
  | evaluating (w : WriteCall py) (runId : String)
  | failing (w : WriteCall py) (runId : String) (e : Exc)
  | writing (w : WriteCall py) (runId : String) (result : DreamReasoningResult)
      (rest : List CandidateGateResult) (writes : List DreamWriteResult)
  | storing (w : WriteCall py) (runId : String) (result : DreamReasoningResult) (index : ℕ)
      (rest : List CandidateGateResult) (writes : List DreamWriteResult)
  | recording (w : WriteCall py) (runId : String) (writes rest : List DreamWriteResult)
  | returned (writes : List DreamWriteResult)
  | raised (e : Exc)
  | aborted

variable (py) in
/-- The calls of `review`, with the audit, and the worker. -/
structure WritebackSystem where
  reviews : ReviewSystem py
  worker : WritebackPhase py

variable (py) in
/-- A review call or the worker moves. -/
inductive WritebackEvent
  | review (e : ReviewEvent py)
  | advance (now : Instant)
  | stored (result : Except Exc StoreOutcome)
  | abort

section Steps

variable (policy : PromotionPolicy) (defaultDomain : Option String)

/-- The next statement of the worker: the phase after it and the audit. -/
def WritebackPhase.advance (now : Instant) (store : AuditStore) :
    WritebackPhase py → WritebackPhase py × AuditStore
  | .starting w =>
    match AuditStore.start w.bound w.runId now w.request store with
    | (.ok row, store)  => (.evaluating w row.id, store)
    | (.error e, store) => (.raised e, store)
  | .evaluating w runId =>
    match DreamEvidenceGate.evaluate py policy w.request w.result with
    | .error e           => (.failing w runId e, store)
    | .ok (result, gate) =>
      match AuditStore.complete w.bound runId now result gate store with
      | (.error e, store) => (.failing w runId e, store)
      | (.ok _, store)    =>
        if result.requestId = w.request.requestId ∧ gate.requestId = w.request.requestId then
          (.writing w runId result gate.candidates [], store)
        else (.raised (.valueError "request/result/gate request_id mismatch"), store)
  | .failing w runId e =>
    match AuditStore.markFailed w.bound runId now store with
    | (.error e', store) => (.raised e', store)
    | (.ok _, store)     => (.raised e, store)
  | .writing w runId _ [] writes => (.recording w runId writes writes, store)
  | .writing w runId result (d :: rest) writes =>
    match (do
      let candidate ← orRaise result.candidates[d.candidateIndex]?
        (Exc.valueError "gate candidate index is out of range")
      planWrite py defaultDomain w.request candidate d.decision d.evidenceIds d.candidateIndex
        none) with
    | .error e            => (.raised e, store)
    | .ok (.settled done) => (.writing w runId result rest (writes ++ [done]), store)
    | .ok (.store _)      => (.storing w runId result d.candidateIndex rest writes, store)
  | .recording _ _ writes [] => (.returned writes, store)
  | .recording w runId writes (result :: rest) =>
    match AuditStore.recordWrite w.bound runId result.candidateIndex now result store with
    | (.error e, store) => (.raised e, store)
    | (.ok _, store)    => (.recording w runId writes rest, store)
  | phase => (phase, store)

/-- The worker after `Evolution.store`. -/
def WritebackPhase.stored (result : Except Exc StoreOutcome) :
    WritebackPhase py → WritebackPhase py
  | .storing w runId reasoning index rest writes =>
    match result with
    | .error e    => .raised e
    | .ok outcome => .writing w runId reasoning rest (writes ++ [writtenResult index outcome])
  | phase => phase

namespace WritebackSystem

/-- The audit. -/
def store (s : WritebackSystem py) : AuditStore := s.reviews.store

/-- The system after an event. -/
def step (s : WritebackSystem py) : WritebackEvent py → WritebackSystem py
  | .review e       => { s with reviews := s.reviews.step defaultDomain e }
  | .advance now    =>
    let (phase, store) := s.worker.advance policy defaultDomain now s.store
    { reviews := { s.reviews with store }, worker := phase }
  | .stored result  => { s with worker := s.worker.stored result }
  | .abort          => { s with worker := .aborted }

/-- The system after a list of events. -/
def run (s : WritebackSystem py) (events : List (WritebackEvent py)) : WritebackSystem py :=
  events.foldl (step policy defaultDomain) s

end WritebackSystem

end Steps

/-! ### Records -/

/-- The step records a result for a candidate. -/
def WritebackSystem.Records (s : WritebackSystem py) (key : CandidateKey)
    (result : DreamWriteResult) : WritebackEvent py → Prop
  | .review (.advance r _) => ∃ c, s.reviews.phase r = .recording c result ∧ c.key = key ∧
    s.store.assertVisible c.bound c.runId = .ok ()
  | .advance _ => ∃ w runId writes rest, s.worker = .recording w runId writes (result :: rest) ∧
    (runId, result.candidateIndex) = key ∧ s.store.assertVisible w.bound runId = .ok ()
  | _ => False

/-- A write of a Knowledge record is recorded for a candidate. -/
def AuditStore.WrittenAs (store : AuditStore) (key : CandidateKey) (knowledgeId : Option Uuid) :
    Prop :=
  ∃ row, store.writes.find? key = some row ∧ row.status = .written ∧ row.knowledgeId = knowledgeId

/-- What the step records for a candidate, if it records anything, is a write of that Knowledge
record. -/
def WritebackSystem.Keeps (s : WritebackSystem py) (key : CandidateKey)
    (knowledgeId : Option Uuid) (e : WritebackEvent py) : Prop :=
  ∀ result, s.Records key result e →
    result.status = .written ∧ result.evolution.map (·.knowledgeId) = knowledgeId

section Records

variable {policy : PromotionPolicy} {defaultDomain : Option String} {now : Instant}
  {store : AuditStore} {key : CandidateKey}

/-- The worker changes no write but by a record. -/
lemma WritebackPhase.writes_advance (phase : WritebackPhase py)
    (h : ∀ w runId writes result rest, phase ≠ .recording w runId writes (result :: rest)) :
    (phase.advance policy defaultDomain now store).2.writes = store.writes := by
  cases phase with
  | starting w =>
    have hstart : (AuditStore.start w.bound w.runId now w.request store).2.writes =
        store.writes := by
      simp only [AuditStore.start, AuditStore.insertRun]
      split <;> rename_i heq
      · rfl
      · split_ifs at heq <;> cases heq <;> rfl
    simp only [WritebackPhase.advance]
    split <;> rename_i heq <;> rw [heq] at hstart <;> exact hstart
  | evaluating w runId =>
    simp only [WritebackPhase.advance]
    split
    · rfl
    · rename_i result gate _
      have hcomplete : (AuditStore.complete w.bound runId now result gate store).2.writes =
          store.writes := by
        refine Program.atomically_frame AuditStore.writes fun _ _ heq => ?_
        obtain ⟨_, -, heq⟩ := bind_eq_ok.mp heq
        obtain ⟨_, -, heq⟩ := bind_eq_ok.mp heq
        cases heq
        rfl
      split <;> rename_i heq <;> rw [heq] at hcomplete
      · exact hcomplete
      · split_ifs <;> exact hcomplete
  | failing w runId e =>
    have hfailed : (AuditStore.markFailed w.bound runId now store).2.writes = store.writes := by
      refine Program.atomically_frame AuditStore.writes fun _ _ heq => ?_
      obtain ⟨_, -, heq⟩ := bind_eq_ok.mp heq
      cases heq
      rfl
    simp only [WritebackPhase.advance]
    split <;> rename_i heq <;> rw [heq] at hfailed <;> exact hfailed
  | writing w runId result rest writes =>
    cases rest with
    | nil => rfl
    | cons d rest =>
      simp only [WritebackPhase.advance]
      split <;> rfl
  | storing w runId result index rest writes => rfl
  | recording w runId writes rest =>
    cases rest with
    | nil => rfl
    | cons result rest => exact absurd rfl (h w runId writes result rest)
  | returned writes => rfl
  | raised e => rfl
  | aborted => rfl

/-- A review call changes no write but by a record. -/
lemma AuditChange.writes {p : ReviewPhase py} {store' : AuditStore} (h : AuditChange store p store')
    (hp : ∀ c result, p ≠ .recording c result) : store'.writes = store.writes := by
  cases h with
  | keep => rfl
  | review => rfl
  | @write c result => exact absurd rfl (hp c result)

/-- A row that a statement upserts is the one found for its key; every other row is as it was. -/
lemma AuditStore.find?_record (store : AuditStore) (row : WriteRow) (key : CandidateKey) :
    (row.key = key ∧ (store.writes.upsert row).find? key = some row) ∨
      (row.key ≠ key ∧ (store.writes.upsert row).find? key = store.writes.find? key) := by
  by_cases h : row.key = key
  · subst h
    exact .inl ⟨rfl, Table.find?_upsert_self _ _⟩
  · exact .inr ⟨h, Table.find?_upsert_of_ne _ _ (Ne.symm h)⟩

namespace WritebackSystem

variable {s : WritebackSystem py} {e : WritebackEvent py}

lemma Records.unique {result result' : DreamWriteResult} (h : s.Records key result e)
    (h' : s.Records key result' e) : result = result' := by
  cases e with
  | review e =>
    cases e with
    | advance r now =>
      obtain ⟨c, hphase, -⟩ := h
      obtain ⟨c', hphase', -⟩ := h'
      cases hphase.symm.trans hphase'
      rfl
    | _ => exact h.elim
  | advance now =>
    obtain ⟨w, runId, writes, rest, hphase, -⟩ := h
    obtain ⟨w', runId', writes', rest', hphase', -⟩ := h'
    cases hphase.symm.trans hphase'
    rfl
  | stored => exact h.elim
  | abort => exact h.elim

/-- After a step the row of a candidate is the one that the step records, or as it was. -/
lemma find?_write_step (s : WritebackSystem py) (e : WritebackEvent py) (key : CandidateKey) :
    (∃ result now, s.Records key result e ∧
      (s.step policy defaultDomain e).store.writes.find? key = some (result.row key now)) ∨
    ((∀ result, ¬ s.Records key result e) ∧
      (s.step policy defaultDomain e).store.writes.find? key = s.store.writes.find? key) := by
  cases e with
  | review e =>
    cases e with
    | call r c => exact .inr ⟨fun _ => id, rfl⟩
    | advance r now =>
      by_cases hrecording : ∃ c result, s.reviews.phase r = .recording c result
      · obtain ⟨c, result, hphase⟩ := hrecording
        have hstore : (s.step policy defaultDomain (.review (.advance r now))).store =
            ((ReviewPhase.recording c result).advance defaultDomain now s.store).2 := by
          rw [← hphase]
          rfl
        rw [hstore]
        rcases recordWrite_cases now s.store c.bound c.runId c.index result with
          ⟨e, heq, hinvisible⟩ | ⟨hvisible, heq⟩
        · refine .inr ⟨?_, by rw [ReviewPhase.advance, heq]⟩
          rintro result' ⟨c', hphase', -, hvisible⟩
          cases hphase.symm.trans hphase'
          rw [hinvisible] at hvisible
          cases hvisible
        · rw [ReviewPhase.advance, heq]
          rcases s.store.find?_record (result.row (c.runId, c.index) now) key with
            ⟨hkey, hfound⟩ | ⟨hkey, hfound⟩
          · exact .inl ⟨result, now, ⟨c, hphase, hkey, hvisible⟩, hkey ▸ hfound⟩
          · refine .inr ⟨?_, hfound⟩
            rintro result' ⟨c', hphase', hkey', -⟩
            cases hphase.symm.trans hphase'
            exact hkey hkey'
      · refine .inr ⟨?_, ?_⟩
        · rintro result ⟨c, hphase, -⟩
          exact hrecording ⟨c, result, hphase⟩
        · have hwrites : ((s.reviews.phase r).advance defaultDomain now s.store).2.writes =
              s.store.writes := (auditChange_advance _).writes fun c result hphase =>
                hrecording ⟨c, result, hphase⟩
          exact congrArg (·.find? key) hwrites
    | stored r result =>
      refine .inr ⟨fun _ => id, ?_⟩
      simp only [step, store, ReviewSystem.step]
      split <;> rfl
    | abort r => exact .inr ⟨fun _ => id, rfl⟩
  | advance now =>
    by_cases hrecording : ∃ w runId writes result rest,
      s.worker = .recording w runId writes (result :: rest)
    · obtain ⟨w, runId, writes, result, rest, hphase⟩ := hrecording
      have hstore : (s.step policy defaultDomain (.advance now)).store =
          ((WritebackPhase.recording w runId writes (result :: rest)).advance policy defaultDomain
            now s.store).2 := by
        rw [← hphase]
        rfl
      rw [hstore]
      rcases recordWrite_cases now s.store w.bound runId result.candidateIndex result with
        ⟨e, heq, hinvisible⟩ | ⟨hvisible, heq⟩
      · refine .inr ⟨?_, by rw [WritebackPhase.advance, heq]⟩
        rintro result' ⟨w', runId', writes', rest', hphase', -, hvisible⟩
        cases hphase.symm.trans hphase'
        rw [hinvisible] at hvisible
        cases hvisible
      · rw [WritebackPhase.advance, heq]
        rcases s.store.find?_record (result.row (runId, result.candidateIndex) now) key with
          ⟨hkey, hfound⟩ | ⟨hkey, hfound⟩
        · exact .inl ⟨result, now, ⟨w, runId, writes, rest, hphase, hkey, hvisible⟩,
            hkey ▸ hfound⟩
        · refine .inr ⟨?_, hfound⟩
          rintro result' ⟨w', runId', writes', rest', hphase', hkey', -⟩
          cases hphase.symm.trans hphase'
          exact hkey hkey'
    · refine .inr ⟨?_, ?_⟩
      · rintro result ⟨w, runId, writes, rest, hphase, -⟩
        exact hrecording ⟨w, runId, writes, result, rest, hphase⟩
      · have hwrites : (s.worker.advance policy defaultDomain now s.store).2.writes =
            s.store.writes := s.worker.writes_advance fun w runId writes result rest hphase =>
              hrecording ⟨w, runId, writes, result, rest, hphase⟩
        exact congrArg (·.find? key) hwrites
  | stored result => exact .inr ⟨fun _ => id, rfl⟩
  | abort => exact .inr ⟨fun _ => id, rfl⟩

/-- A step keeps a recorded write exactly if it keeps it when it records. -/
lemma writtenAs_step_iff {knowledgeId : Option Uuid} (h : s.store.WrittenAs key knowledgeId) :
    (s.step policy defaultDomain e).store.WrittenAs key knowledgeId ↔
      s.Keeps key knowledgeId e := by
  rcases s.find?_write_step e key with ⟨result, now, hrecords, hfound⟩ | ⟨hnone, hfound⟩
  · constructor
    · rintro ⟨row, hrow, hstatus, hid⟩ result' hrecords'
      cases hrecords.unique hrecords'
      cases hfound.symm.trans hrow
      exact ⟨hstatus, hid⟩
    · intro hkeeps
      obtain ⟨hstatus, hid⟩ := hkeeps result hrecords
      exact ⟨_, hfound, hstatus, hid⟩
  · constructor
    · exact fun _ result hrecords => absurd hrecords (hnone result)
    · intro _
      obtain ⟨row, hrow, hrest⟩ := h
      exact ⟨row, hfound.trans hrow, hrest⟩

end WritebackSystem

end Records

/-! ### Candidates that nobody else is about to record -/

/-- The worker has not recorded yet what became of the candidate. -/
def WritebackPhase.Pending (key : CandidateKey) : WritebackPhase py → Prop
  | .starting _ => True
  | .evaluating _ runId | .writing _ runId _ _ _ | .storing _ runId _ _ _ _ => runId = key.1
  | .recording _ runId _ rest => ∃ result ∈ rest, (runId, result.candidateIndex) = key
  | _ => False

/-- Neither the worker nor a review call is on its way to a record for the candidate. -/
structure WritebackSystem.Alone (s : WritebackSystem py) (key : CandidateKey) : Prop where
  worker : ¬ s.worker.Pending key
  reviews : ∀ r, ¬ (s.reviews.phase r).Unwritten key

section Alone

variable {policy : PromotionPolicy} {defaultDomain : Option String} {now : Instant}
  {store : AuditStore} {key : CandidateKey}

/-- The worker that has recorded a candidate, or works on another run, does not come to it again. -/
lemma WritebackPhase.not_pending_advance {phase : WritebackPhase py} (h : ¬ phase.Pending key) :
    ¬ (phase.advance policy defaultDomain now store).1.Pending key := by
  cases phase with
  | starting w => exact absurd trivial h
  | evaluating w runId =>
    simp only [WritebackPhase.advance]
    split
    · exact id
    · split
      · exact id
      · split_ifs
        · exact h
        · exact id
  | failing w runId e =>
    simp only [WritebackPhase.advance]
    split <;> exact id
  | writing w runId result rest writes =>
    cases rest with
    | nil =>
      rintro ⟨result, -, hkey⟩
      exact h (congrArg Prod.fst hkey)
    | cons d rest =>
      simp only [WritebackPhase.advance]
      split
      · exact id
      · exact h
      · exact h
  | storing w runId result index rest writes => exact h
  | recording w runId writes rest =>
    cases rest with
    | nil => exact id
    | cons result rest =>
      simp only [WritebackPhase.advance]
      split
      · exact id
      · rintro ⟨result', hmem, hkey⟩
        exact h ⟨result', List.mem_cons_of_mem _ hmem, hkey⟩
  | returned writes => exact id
  | raised e => exact id
  | aborted => exact id

namespace WritebackSystem

variable {s : WritebackSystem py} {e : WritebackEvent py}

/-- Nothing is recorded for a candidate that nobody is on the way to. -/
lemma Alone.not_records (h : s.Alone key) (result : DreamWriteResult) :
    ¬ s.Records key result e := by
  cases e with
  | review e =>
    cases e with
    | advance r now =>
      rintro ⟨c, hphase, hkey, -⟩
      apply h.reviews r
      rw [hphase]
      exact hkey
    | _ => exact id
  | advance now =>
    rintro ⟨w, runId, writes, rest, hphase, hkey, -⟩
    apply h.worker
    rw [hphase]
    exact ⟨result, List.mem_cons_self, hkey⟩
  | stored => exact id
  | abort => exact id

lemma Alone.step (h : s.Alone key) (hwritten : s.store.Written key) :
    (s.step policy defaultDomain e).Alone key := by
  cases e with
  | review e => exact ⟨h.worker, fun r => ReviewSystem.not_unwritten_step hwritten (h.reviews r)⟩
  | advance now => exact ⟨WritebackPhase.not_pending_advance h.worker, h.reviews⟩
  | stored result =>
    refine ⟨?_, h.reviews⟩
    have hworker := h.worker
    simp only [WritebackSystem.step]
    cases hphase : s.worker with
    | storing w runId reasoning index rest writes =>
      rw [hphase] at hworker
      cases result with
      | error e => exact id
      | ok outcome => exact hworker
    | _ =>
      rw [hphase] at hworker
      exact hworker
  | abort => exact ⟨id, h.reviews⟩

end WritebackSystem

end Alone

/-- A recorded write stays exactly as long as every later record for its candidate is a write of the
same Knowledge record; and if nobody else is on the way to a record when the write is there, it stays
for good. -/
theorem recorded_write_stays_iff (policy : PromotionPolicy) (defaultDomain : Option String)
    (store : AuditStore) (w : WriteCall py) (before after : List (WritebackEvent py)) :
    let s := WritebackSystem.run policy defaultDomain ⟨{ store }, .starting w⟩ before
    ∀ key knowledgeId, s.store.WrittenAs key knowledgeId →
      ((∀ done rest, after = done ++ rest →
          (s.run policy defaultDomain done).store.WrittenAs key knowledgeId) ↔
        ∀ done e rest, after = done ++ e :: rest →
          (s.run policy defaultDomain done).Keeps key knowledgeId e) ∧
      (s.Alone key → ∀ done rest, after = done ++ rest →
        (s.run policy defaultDomain done).store.WrittenAs key knowledgeId) := by
  intro s key knowledgeId hwritten
  refine ⟨?_, fun halone done rest _ => ?_⟩
  · exact forall_prefix_iff (I := fun _ => True)
      (P := fun t : WritebackSystem py => t.store.WrittenAs key knowledgeId)
      (C := fun t e => t.Keeps key knowledgeId e)
      (fun _ _ _ => WritebackSystem.writtenAs_step_iff) (fun _ _ _ => trivial) trivial hwritten after
  · have hstep (t : WritebackSystem py) (e : WritebackEvent py)
        (h : t.store.WrittenAs key knowledgeId ∧ t.Alone key) :
        (t.step policy defaultDomain e).store.WrittenAs key knowledgeId ∧
          (t.step policy defaultDomain e).Alone key := by
      obtain ⟨ht, halone⟩ := h
      refine ⟨(WritebackSystem.writtenAs_step_iff ht).mpr fun result hrecords => ?_, ?_⟩
      · exact absurd hrecords (halone.not_records result)
      · obtain ⟨row, hrow, hstatus, -⟩ := ht
        exact halone.step ⟨row, hrow, hstatus⟩
    exact (foldl_invariant hstep ⟨hwritten, halone⟩ done).1

section Sample

/-- The answer to a request about two pieces of evidence: one candidate that contradicts what is
known, which the gate sends to review. -/
def contradictionCall : WriteCall Runtime.ascii where
  bound := none
  runId := "run"
  request :=
    { requestId := "request", sessionId := "session", focalTopics := ["routing"]
      sessionStart := ⟨.ofMicros 0, some 0⟩, sessionEnd := ⟨.ofMicros 1, some 0⟩
      evidenceByTopic := [("routing", [
        { id := "00000000-0000-0000-0000-000000000001", recordType := "episode"
          content := "it is so", score := none, eventTime := none },
        { id := "00000000-0000-0000-0000-000000000002", recordType := "episode"
          content := "it is not so", score := none, eventTime := none }])] }
  result :=
    { requestId := "request"
      candidates := [
        { entityName := "routing", entityType := "component", summary := "it is not so"
          content := "it is not so"
          evidenceIds := ["00000000-0000-0000-0000-000000000001",
            "00000000-0000-0000-0000-000000000002"]
          confidence := .zero, classification := "contradiction" }] }

/-- The worker evaluates the run and skips the candidate; a reviewer approves it, and the write is
recorded. -/
def approvedMeanwhile : List (WritebackEvent Runtime.ascii) :=
  List.replicate 4 (.advance (.ofMicros 2)) ++
    (.call 0 (approval (some "infra")) :: statements 0 8 ++
      .stored 0 (.ok { outcome := .insertNew, knowledgeId := .ofNat 7 }) :: statements 0 2).map
    .review

lemma approvedMeanwhile_writtenAs :
    (WritebackSystem.run {} none ⟨{ store := {} }, .starting contradictionCall⟩
      approvedMeanwhile).store.WrittenAs ("run", 0) (some (.ofNat 7)) := by
  have hwritten : ((WritebackSystem.run {} none ⟨{ store := {} }, .starting contradictionCall⟩
      approvedMeanwhile).store.writes.find? ("run", 0)).map (fun row =>
        (row.status, row.knowledgeId)) = some (.written, some (.ofNat 7)) := by decide +kernel
  obtain ⟨row, hrow, heq⟩ := Option.map_eq_some_iff.mp hwritten
  exact ⟨row, hrow, congrArg Prod.fst heq, congrArg Prod.snd heq⟩

theorem recorded_write_stays_sample :
    (∀ done rest, [WritebackEvent.advance (.ofMicros 4)] = done ++ rest →
      ((WritebackSystem.run {} none ⟨{ store := {} }, .starting contradictionCall⟩
        approvedMeanwhile).run {} none done).store.WrittenAs ("run", 0) (some (.ofNat 7))) ↔
    ∀ done e rest, [WritebackEvent.advance (.ofMicros 4)] = done ++ e :: rest →
      ((WritebackSystem.run {} none ⟨{ store := {} }, .starting contradictionCall⟩
        approvedMeanwhile).run {} none done).Keeps ("run", 0) (some (.ofNat 7)) e :=
  (recorded_write_stays_iff {} none {} contradictionCall approvedMeanwhile
    [.advance (.ofMicros 4)] ("run", 0) (some (.ofNat 7)) approvedMeanwhile_writtenAs).1

/-- The worker records that it skipped the candidate, over the write. -/
theorem recorded_write_overwritten :
    (WritebackSystem.run {} none ⟨{ store := {} }, .starting contradictionCall⟩
      approvedMeanwhile).store.WrittenAs ("run", 0) (some (.ofNat 7)) ∧
    ∃ row, ((WritebackSystem.run {} none ⟨{ store := {} }, .starting contradictionCall⟩
      approvedMeanwhile).run {} none [.advance (.ofMicros 4)]).store.writes.find? ("run", 0) =
        some row ∧ row.status = .skippedNotPromoted := by
  have hskipped : (((WritebackSystem.run {} none ⟨{ store := {} }, .starting contradictionCall⟩
      approvedMeanwhile).run {} none [.advance (.ofMicros 4)]).store.writes.find? ("run", 0)).map
        (·.status) = some .skippedNotPromoted := by decide +kernel
  exact ⟨approvedMeanwhile_writtenAs, Option.map_eq_some_iff.mp hskipped⟩

end Sample

end CyberBrain.Dreaming
