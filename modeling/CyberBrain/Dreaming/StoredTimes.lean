import CyberBrain.Dreaming.ReasonTaskInbox

/-!
# Stored times

The inbox stores times as the ISO texts of their form in UTC and compares the texts. Their order is
the order of the times, so that claims and retirements go by the time.
-/

namespace CyberBrain.Dreaming

open Python ReasonerProvider Tenancy

variable {py : Runtime}

/-! ### Texts of datetimes -/

/-- A datetime with an offset from UTC, of less than a day. -/
structure AwareDateTime where
  wall : Instant
  offset : ℤ
  lt_day : offset.natAbs < 86400000000

/-- The time in microseconds of UTC. -/
def AwareDateTime.utcMicros (value : AwareDateTime) : ℤ := value.wall.micros - value.offset

/-- `value.astimezone(UTC)`. -/
def astimezoneUtc (value : AwareDateTime) : Except Exc DateTime :=
  (orRaise (value.wall.add? (-value.offset)) (.overflowError "date value out of range")).map
    fun a => ⟨a, some 0⟩

/-- `_iso`. -/
def isoText (value : AwareDateTime) : Except Exc String := (astimezoneUtc value).map (·.isoformat)

/-- The text is that of the instant. -/
lemma exists_iso {value : AwareDateTime} {s : String} (h : isoText value = .ok s) :
    ∃ a : Instant, (a.micros : ℤ) = value.utcMicros ∧ s = a.iso := by
  cases hinstant : value.wall.add? (-value.offset) with
  | none   => simp [isoText, astimezoneUtc, hinstant, orRaise, Except.map] at h
  | some a =>
    have hmicros : (a.micros : ℤ) = value.utcMicros := by
      simp only [Instant.add?] at hinstant
      split_ifs at hinstant with hrange
      cases hinstant
      simp [AwareDateTime.utcMicros]
      omega
    have htext : (⟨a, some 0⟩ : DateTime).isoformat = a.iso := by
      have hoffset : DateTime.offsetChars 0 = ['+', '0', '0', ':', '0', '0'] := by decide
      simp [DateTime.isoformat, Instant.iso, hoffset]
    refine ⟨a, hmicros, ?_⟩
    simpa [isoText, astimezoneUtc, hinstant, orRaise, Except.map, htext] using h.symm

/-! ### Comparisons by the time -/

/-- What the `WHERE` clause of `claim_next` is for: the deadline is to come, and the task is pending
or its lease has ended. -/
def TaskRow.openAt (row : TaskRow) (now : Instant) : Bool :=
  now < row.deadlineAt && (row.status = .pending || (row.status = .claimed &&
    row.leaseUntil.all (· ≤ now)))

/-- What the checks of `retire_finalized_runs` are for: all of the run lies before the cutoff, and
no lease on its tasks lasts longer than now. -/
def eligibleAt (bound : Option (CallerAuthority py)) (now before : Instant) (inbox : Inbox)
    (requestId : String) : Except Exc (Option (List TaskRow)) :=
  match inbox.run? requestId with
  | none     => .ok none
  | some run => do
    let visible ← snapshotVisible bound run.authority
    let tasks := inbox.tasks.rows.filter (·.requestId = requestId)
    if visible = false ∨ run.retiredAt ≠ none then pure none
    else if before ≤ run.deadlineAt ∨ before ≤ run.updatedAt ∨
        tasks.length ≠ run.expectedTaskCount ∨
        tasks.any (fun task => before ≤ task.updatedAt || before ≤ task.deadlineAt ||
          task.leaseUntil.any (now < ·)) then pure none
    else pure (some tasks)

/-- The texts of aware datetimes are ordered as the times are and equal only for equal times, and
what `claim_next` and `retire_finalized_runs` decide by texts they decide by the times. -/
theorem isoText_chronological {a b : AwareDateTime} {s t : String} (ha : isoText a = .ok s)
    (hb : isoText b = .ok t) :
    (s < t ↔ a.utcMicros < b.utcMicros) ∧ (s = t ↔ a.utcMicros = b.utcMicros) ∧
      (∀ (row : TaskRow) now, row.claimable now = row.openAt now) ∧
      ∀ (bound : Option (CallerAuthority py)) now before inbox requestId,
        eligibleTasks bound now before.iso inbox requestId =
          eligibleAt bound now before inbox requestId := by
  obtain ⟨x, hx, rfl⟩ := exists_iso ha
  obtain ⟨y, hy, rfl⟩ := exists_iso hb
  rw [← hx, ← hy]
  refine ⟨?_, ?_, fun row now => ?_, fun bound now before inbox requestId => ?_⟩
  · rw [Instant.iso_lt_iso]
    exact Int.ofNat_lt.symm
  · constructor
    · intro h
      rcases lt_trichotomy x.micros y.micros with hlt | heq | hlt
      · exact absurd h (Instant.iso_lt hlt).ne
      · rw [heq]
      · exact absurd h (Instant.iso_lt hlt).ne'
    · intro h
      rw [Instant.ext (Int.ofNat_inj.mp h)]
  · simp only [TaskRow.claimable, TaskRow.openAt, Instant.iso_lt_iso, Instant.iso_le_iso]
  · simp only [eligibleTasks, eligibleAt]
    cases inbox.run? requestId with
    | none     => rfl
    | some run => simp only [Instant.iso_lt_iso, Instant.iso_le_iso]

/-- Half past nine, an hour east of Greenwich. -/
def easternTime : AwareDateTime := ⟨⟨63902770200000000, by decide⟩, 3600000000, by decide⟩

/-- A microsecond later, in UTC. -/
def laterTime : AwareDateTime := ⟨⟨63902766600000001, by decide⟩, 0, by decide⟩

theorem isoText_chronological_eastern :
    isoText easternTime = .ok "2025-12-31T08:30:00+00:00" ∧
      isoText laterTime = .ok "2025-12-31T08:30:00.000001+00:00" ∧
      ("2025-12-31T08:30:00+00:00" < "2025-12-31T08:30:00.000001+00:00" ↔
        easternTime.utcMicros < laterTime.utcMicros) ∧
      ("2025-12-31T08:30:00+00:00" = "2025-12-31T08:30:00.000001+00:00" ↔
        easternTime.utcMicros = laterTime.utcMicros) ∧
      (∀ (row : TaskRow) now, row.claimable now = row.openAt now) ∧
      ∀ (bound : Option (CallerAuthority Runtime.ascii)) now before inbox requestId,
        eligibleTasks bound now before.iso inbox requestId =
          eligibleAt bound now before inbox requestId := by
  have heastern : isoText easternTime = .ok "2025-12-31T08:30:00+00:00" := by decide +kernel
  have hlater : isoText laterTime = .ok "2025-12-31T08:30:00.000001+00:00" := by decide +kernel
  exact ⟨heastern, hlater, isoText_chronological heastern hlater⟩

end CyberBrain.Dreaming
