import CyberBrain.WorkingMemory.Service

/-!
# Sessions

Calls of a working memory service, on any identities and ledgers, one after the other. What a call
answers depends on the snapshots that have not expired at its time and on the ledger, so whether an
expired snapshot was dropped before makes no difference.
-/

namespace CyberBrain.WorkingMemory

open Python CyberBrain.Core

/-! ### What is left of the snapshots at a time -/

namespace Snapshots

variable (s s' : Snapshots) (identity who : WorkingMemoryIdentity) (t now : Instant)

/-- The snapshot of an identity, unless it has expired. -/
def view : Option WorkingMemorySnapshot := (s.find? identity).filter (·.aliveAt t)

variable {s identity} in
lemma view_eq {snapshot : WorkingMemorySnapshot} (h : s.find? identity = some snapshot) :
    s.view identity t = if snapshot.expiresAt ≤ t then none else some snapshot := by
  rw [view, h, Option.filter_some]
  by_cases hexpired : snapshot.expiresAt ≤ t <;>
    simp [hexpired, WorkingMemorySnapshot.aliveAt_iff]

/-- What is visible at a time is what is left of what was visible before. -/
lemma view_eq_filter {t t' : Instant} (ht : t ≤ t') :
    s.view identity t' = (s.view identity t).filter (·.aliveAt t') := by
  unfold view
  rw [Option.filter_filter]
  congr 1
  funext snapshot
  cases h : snapshot.aliveAt t' with
  | false => rw [Bool.and_false]
  | true  => rw [WorkingMemorySnapshot.aliveAt_mono ht h, Bool.and_true]

lemma view_filter_ne :
    Snapshots.view (s.filter (·.identity ≠ identity)) who t =
      if who = identity then none else s.view who t := by
  rw [view, view, Table.find?_filter]
  cases h : s.find? who with
  | none          => simp
  | some snapshot =>
    have hkey : snapshot.identity = who := Table.key_of_find? h
    by_cases hwho : who = identity <;> simp [hkey, hwho, Option.filter_some]

lemma view_upsert (snapshot : WorkingMemorySnapshot) :
    Snapshots.view (s.upsert snapshot) who t =
      if who = snapshot.identity then (some snapshot).filter (·.aliveAt t) else s.view who t := by
  rw [view, Table.find?_upsert]
  split_ifs <;> rfl

lemma view_purge : Snapshots.view (s.filter (¬ ·.expiresAt ≤ now)) who t =
    (s.view who t).filter (·.aliveAt now) := by
  rw [view, view, Table.find?_filter, Option.filter_filter, Option.filter_filter]
  congr 1
  funext snapshot
  rw [Bool.and_comm]
  congr 1
  exact Bool.eq_iff_iff.mpr (decide_eq_true_iff.trans WorkingMemorySnapshot.aliveAt_iff.symm)

@[simp] lemma active_fst : (s.active identity now).1 = s.view identity now := by
  unfold active
  cases h : s.find? identity with
  | none          => simp [view, h]
  | some snapshot =>
    rw [view_eq now h]
    by_cases hexpired : snapshot.expiresAt ≤ now <;> simp [hexpired]

lemma view_active : Snapshots.view (s.active identity now).2 who t =
    if who = identity then (s.view who t).filter (·.aliveAt now) else s.view who t := by
  unfold active
  cases h : s.find? identity with
  | none          =>
    split_ifs with hwho
    · simp [view, hwho, h]
    · rfl
  | some snapshot =>
    have hview : (s.view identity t).filter (·.aliveAt now) =
        if snapshot.expiresAt ≤ now then none else s.view identity t := by
      rw [view, h, Option.filter_filter, Option.filter_some, Option.filter_some]
      by_cases hexpired : snapshot.expiresAt ≤ now <;>
        simp [hexpired, WorkingMemorySnapshot.aliveAt_iff]
    by_cases hexpired : snapshot.expiresAt ≤ now
    · simp only [hexpired, if_true, view_filter_ne] at hview ⊢
      split_ifs with hwho
      · rw [hwho, hview]
      · rfl
    · simp only [hexpired, if_false] at hview ⊢
      split_ifs with hwho
      · rw [hwho, hview]
      · rfl

section Later

variable {t now}

/-- What is visible has not expired before. -/
lemma view_filter_of_le (ht : now ≤ t) :
    (s.view who t).filter (·.aliveAt now) = s.view who t := by
  unfold view
  rw [Option.filter_filter]
  congr 1
  funext snapshot
  cases h : snapshot.aliveAt t with
  | false => rw [Bool.false_and]
  | true  => rw [WorkingMemorySnapshot.aliveAt_mono ht h, Bool.true_and]

/-- A lookup leaves what is visible from then on. -/
lemma view_active_of_le (ht : now ≤ t) :
    Snapshots.view (s.active identity now).2 who t = s.view who t := by
  rw [view_active, view_filter_of_le s who ht]
  split_ifs <;> rfl

lemma view_purge_of_le (ht : now ≤ t) :
    Snapshots.view (s.filter (¬ ·.expiresAt ≤ now)) who t = s.view who t := by
  rw [view_purge, view_filter_of_le s who ht]

end Later

@[simp] lemma view_filter_self :
    (s.view identity t).filter (·.aliveAt t) = s.view identity t := by
  simp only [view, Option.filter_filter, Bool.and_self]

end Snapshots

/-! ### Calls -/

variable {ι : Type*}

/-- The calls, with ledgers of the callers. -/
inductive Call (ι : Type*)
  | activate (identity : WorkingMemoryIdentity) (candidates : List WorkingMemoryCandidate)
      (now : DateTime)
  | get (identity : WorkingMemoryIdentity) (now : DateTime)
  | emit (identity : WorkingMemoryIdentity) (ledger : ι) (now : DateTime)
  | close (identity : WorkingMemoryIdentity) (now : DateTime)
  | purgeExpired (now : DateTime)

inductive Outcome
  | activated (snapshot : WorkingMemorySnapshot)
  | found (snapshot : Option WorkingMemorySnapshot)
  | emitted (emission : WorkingMemoryEmission)
  | closed (closeout : WorkingMemoryCloseout)
  | purged (count : ℕ)

/-- A call and what became of it. -/
abbrev Entry (ι : Type*) := Call ι × Except Exc Outcome

namespace Call

def now : Call ι → DateTime
  | activate _ _ now => now
  | get _ now        => now
  | emit _ _ now     => now
  | close _ now      => now
  | purgeExpired now => now

def isPurge : Call ι → Bool
  | purgeExpired _ => true
  | _              => false

/-- A call that has no instant after `t`. -/
def NotAfter (t : Instant) (call : Call ι) : Prop := ∀ now, utc call.now = .ok now → now ≤ t

/-- Calls in the order of their instants. -/
def Ordered (calls : List (Call ι)) : Prop :=
  calls.Pairwise fun call call' => ∀ t, utc call'.now = .ok t → call.NotAfter t

end Call

/-- A service and its callers. -/
structure Sessions (ι : Type*) where
  snapshots : Snapshots := .empty _
  ledgers : ι → WorkingMemoryEmissionLedger

namespace Sessions

/-- No snapshots, and ledgers on which nothing was emitted. -/
def opened (owner : ι → WorkingMemoryIdentity) : Sessions ι where
  ledgers ledger := { identity := owner ledger }

/-- The snapshot of an identity after a call. -/
def noted (who : WorkingMemoryIdentity) (kept : Option WorkingMemorySnapshot) :
    Entry ι → Option WorkingMemorySnapshot
  | (.activate identity _ _, .ok (.activated snapshot)) =>
    if who = identity then some snapshot else kept
  | (.close identity _, .ok (.closed _))                => if who = identity then none else kept
  | _                                                   => kept

variable [DecidableEq ι] (service : WorkingMemoryService) (s : Sessions ι)

/-- One call. -/
def step : Call ι → Except Exc Outcome × Sessions ι
  | .activate identity candidates now =>
    let (snapshot, snapshots) := service.activate s.snapshots identity now candidates
    (.activated <$> snapshot, { s with snapshots })
  | .get identity now                 =>
    let (snapshot, snapshots) := WorkingMemoryService.get s.snapshots identity now
    (.found <$> snapshot, { s with snapshots })
  | .emit identity ledger now         =>
    let (emission, snapshots, after) :=
      WorkingMemoryService.emit s.snapshots identity now (s.ledgers ledger)
    (.emitted <$> emission, ⟨snapshots, Function.update s.ledgers ledger after⟩)
  | .close identity now               =>
    let (closeout, snapshots) := WorkingMemoryService.close s.snapshots identity now
    (.closed <$> closeout, { s with snapshots })
  | .purgeExpired now                 =>
    let (count, snapshots) := WorkingMemoryService.purgeExpired s.snapshots now
    (.purged <$> count, { s with snapshots })

/-- The calls of a run, with what became of them. -/
def run (s : Sessions ι) : List (Call ι) → List (Entry ι) × Sessions ι
  | []            => ([], s)
  | call :: calls =>
    let (outcome, s) := s.step service call
    let (log, s) := run s calls
    ((call, outcome) :: log, s)

/-! ### One call -/

/-- What a call other than `purge_expired` answers to what is visible. -/
def answer (visible : WorkingMemoryIdentity → Instant → Option WorkingMemorySnapshot)
    (ledgers : ι → WorkingMemoryEmissionLedger) : Call ι → Except Exc Outcome
  | .activate identity candidates now => do
    let instant ← utc now
    let (items, report) ← service.selector.select identity candidates
    .activated <$> service.snapshot identity (visible identity instant) items report instant
  | .get identity now                 => do
    let instant ← utc now
    pure (.found (visible identity instant))
  | .emit identity ledger now         => do
    require ((ledgers ledger).identity = identity)
      (.valueError "working memory emission ledger identity mismatch")
    let instant ← utc now
    pure (.emitted ((ledgers ledger).emission identity (visible identity instant)).1)
  | .close identity now               => do
    let instant ← utc now
    pure (.closed (WorkingMemoryService.closeout identity (visible identity instant)))
  | .purgeExpired _                   => .ok (.purged 0)

/-- What a call emits on a ledger. -/
def emissionOn (ledger : ι) : Entry ι → Option WorkingMemoryEmission
  | (.emit _ which _, .ok (.emitted emission)) => if which = ledger then some emission else none
  | _                                          => none

def itemsOn (ledger : ι) (entry : Entry ι) : List WorkingMemoryItem :=
  (emissionOn ledger entry).elim [] (·.items)

variable {service s}

section Operations

variable {s : Snapshots} {identity : WorkingMemoryIdentity} {now : DateTime} {instant : Instant}
  {items : List WorkingMemoryItem} {report : WorkingMemorySelectionReport}

/-- Activating selected items. -/
lemma activate_eq {candidates : List WorkingMemoryCandidate} (hutc : utc now = .ok instant)
    (hselect : service.selector.select identity candidates = .ok (items, report)) :
    service.activate s identity now candidates =
      attempt (service.snapshot identity (s.view identity instant) items report instant)
        (s.active identity instant).2
        fun snapshot => (.ok snapshot, (s.active identity instant).2.upsert snapshot) := by
  simp only [WorkingMemoryService.activate, hutc, hselect, attempt_ok, Snapshots.active_fst]

lemma identity_of_snapshot {previous : Option WorkingMemorySnapshot}
    {snapshot : WorkingMemorySnapshot}
    (h : service.snapshot identity previous items report instant = .ok snapshot) :
    snapshot.identity = identity := by
  obtain ⟨expires, -, hmake⟩ := bind_eq_ok.mp h
  exact (WorkingMemorySnapshot.of_make hmake).1

lemma get_eq (hutc : utc now = .ok instant) : WorkingMemoryService.get s identity now =
    (.ok (s.view identity instant), (s.active identity instant).2) := by
  simp only [WorkingMemoryService.get, hutc, attempt_ok, Snapshots.active_fst]

lemma emit_eq {ledger : WorkingMemoryEmissionLedger} (hutc : utc now = .ok instant) :
    WorkingMemoryService.emit s ledger.identity now ledger =
      (.ok (ledger.emission ledger.identity (s.view ledger.identity instant)).1,
        (s.active ledger.identity instant).2,
        (ledger.emission ledger.identity (s.view ledger.identity instant)).2) := by
  simp only [WorkingMemoryService.emit, get_eq hutc, attempt_ok, ne_eq, not_true_eq_false, if_false]

lemma emit_of_ne {ledger : WorkingMemoryEmissionLedger} (h : ledger.identity ≠ identity) :
    WorkingMemoryService.emit s identity now ledger =
      (.error (.valueError "working memory emission ledger identity mismatch"), s, ledger) :=
  if_pos h

lemma emit_error {ledger : WorkingMemoryEmissionLedger} {e : Exc} (hutc : utc now = .error e) :
    WorkingMemoryService.emit s ledger.identity now ledger = (.error e, s, ledger) := by
  simp only [WorkingMemoryService.emit, WorkingMemoryService.get, hutc, attempt_error, ne_eq,
    not_true_eq_false, if_false]

lemma close_eq (hutc : utc now = .ok instant) : WorkingMemoryService.close s identity now =
    (.ok (WorkingMemoryService.closeout identity (s.view identity instant)),
      Table.filter (s.active identity instant).2 (·.identity ≠ identity)) := by
  simp only [WorkingMemoryService.close, hutc, attempt_ok, Snapshots.active_fst]

end Operations

variable (service s) in
/-- A call without an instant raises and changes nothing. -/
lemma step_of_error {call : Call ι} {e : Exc} (hutc : utc call.now = .error e) :
    ∃ e', s.step service call = (.error e', s) := by
  cases call with
  | activate identity candidates now =>
    change utc now = .error e at hutc
    simp only [step, WorkingMemoryService.activate, hutc, attempt_error]
    exact ⟨e, rfl⟩
  | get identity now =>
    change utc now = .error e at hutc
    simp only [step, WorkingMemoryService.get, hutc, attempt_error]
    exact ⟨e, rfl⟩
  | emit identity ledger now =>
    change utc now = .error e at hutc
    by_cases howner : (s.ledgers ledger).identity = identity
    · subst howner
      simp only [step, emit_error hutc, Function.update_eq_self]
      exact ⟨e, rfl⟩
    · simp only [step, emit_of_ne howner, Function.update_eq_self]
      exact ⟨_, rfl⟩
  | close identity now =>
    change utc now = .error e at hutc
    simp only [step, WorkingMemoryService.close, hutc, attempt_error]
    exact ⟨e, rfl⟩
  | purgeExpired now =>
    change utc now = .error e at hutc
    simp only [step, WorkingMemoryService.purgeExpired, hutc, attempt_error]
    exact ⟨e, rfl⟩

/-- The answers are those to what is visible. -/
lemma step_fst {call : Call ι} (h : call.isPurge = false) :
    (s.step service call).1 = answer service s.snapshots.view s.ledgers call := by
  cases call with
  | activate identity candidates now =>
    simp only [step, answer]
    cases hutc : utc now with
    | error e    =>
      simp only [WorkingMemoryService.activate, hutc, attempt_error]
      rfl
    | ok instant =>
      cases hselect : service.selector.select identity candidates with
      | error e  =>
        simp only [WorkingMemoryService.activate, hutc, hselect, attempt_ok, attempt_error]
        rfl
      | ok found =>
        rw [activate_eq hutc hselect]
        show _ = Outcome.activated <$> service.snapshot identity (s.snapshots.view identity instant)
          found.1 found.2 instant
        cases service.snapshot identity (s.snapshots.view identity instant) found.1 found.2 instant
          <;> rfl
  | get identity now =>
    simp only [step, answer]
    cases hutc : utc now with
    | error e    =>
      simp only [WorkingMemoryService.get, hutc, attempt_error]
      rfl
    | ok instant =>
      rw [get_eq hutc]
      rfl
  | emit identity ledger now =>
    simp only [step, answer]
    by_cases howner : (s.ledgers ledger).identity = identity
    · subst howner
      rw [require, if_pos rfl]
      cases hutc : utc now with
      | error e    =>
        rw [emit_error hutc]
        rfl
      | ok instant =>
        rw [emit_eq hutc]
        rfl
    · rw [emit_of_ne howner, require, if_neg howner]
      rfl
  | close identity now =>
    simp only [step, answer]
    cases hutc : utc now with
    | error e    =>
      simp only [WorkingMemoryService.close, hutc, attempt_error]
      rfl
    | ok instant =>
      rw [close_eq hutc]
      rfl
  | purgeExpired now => cases h

/-- What is visible after a call, from its instant on. -/
lemma view_step {call : Call ι} {t : Instant} (ht : call.NotAfter t)
    (who : WorkingMemoryIdentity) :
    (s.step service call).2.snapshots.view who t =
      (noted who (s.snapshots.view who t) (call, (s.step service call).1)).filter (·.aliveAt t) := by
  cases hutc : utc call.now with
  | error e =>
    obtain ⟨e', hstep⟩ := step_of_error service s hutc
    rw [hstep]
    cases call <;> exact (Snapshots.view_filter_self ..).symm
  | ok now =>
    have hle := ht now hutc
    cases call with
    | activate identity candidates now =>
      change utc now = .ok _ at hutc
      cases hselect : service.selector.select identity candidates with
      | error e  =>
        simp only [step, WorkingMemoryService.activate, hutc, hselect, attempt_ok, attempt_error]
        exact (Snapshots.view_filter_self ..).symm
      | ok found =>
        simp only [step, activate_eq hutc hselect]
        generalize hsnapshot : service.snapshot identity _ found.1 found.2 _ = made
        cases made with
        | error e     =>
          show Snapshots.view (s.snapshots.active identity _).2 who t = _
          rw [Snapshots.view_active_of_le _ _ _ hle]
          exact (Snapshots.view_filter_self ..).symm
        | ok snapshot =>
          obtain rfl := identity_of_snapshot hsnapshot
          show Snapshots.view (Table.upsert (s.snapshots.active snapshot.identity _).2 snapshot) who t
            = Option.filter _ (if who = snapshot.identity then some snapshot else _)
          rw [Snapshots.view_upsert, Snapshots.view_active_of_le _ _ _ hle]
          split_ifs
          · rfl
          · exact (Snapshots.view_filter_self ..).symm
    | get identity now =>
      change utc now = .ok _ at hutc
      simp only [step, get_eq hutc]
      show Snapshots.view (s.snapshots.active identity _).2 who t = _
      rw [Snapshots.view_active_of_le _ _ _ hle]
      exact (Snapshots.view_filter_self ..).symm
    | emit identity ledger now =>
      change utc now = .ok _ at hutc
      by_cases howner : (s.ledgers ledger).identity = identity
      · subst howner
        simp only [step, emit_eq hutc]
        show Snapshots.view (s.snapshots.active _ _).2 who t = _
        rw [Snapshots.view_active_of_le _ _ _ hle]
        exact (Snapshots.view_filter_self ..).symm
      · simp only [step, emit_of_ne howner]
        exact (Snapshots.view_filter_self ..).symm
    | close identity now =>
      change utc now = .ok _ at hutc
      simp only [step, close_eq hutc]
      show Snapshots.view (Table.filter (s.snapshots.active identity _).2 _) who t =
        Option.filter _ (if who = identity then none else _)
      rw [Snapshots.view_filter_ne, Snapshots.view_active_of_le _ _ _ hle]
      split_ifs
      · rfl
      · exact (Snapshots.view_filter_self ..).symm
    | purgeExpired now =>
      change utc now = .ok _ at hutc
      simp only [step, WorkingMemoryService.purgeExpired, hutc, attempt_ok]
      show Snapshots.view (Table.filter s.snapshots _) who t = _
      rw [Snapshots.view_purge_of_le _ _ hle]
      exact (Snapshots.view_filter_self ..).symm

/-! ### Ledgers -/

/-- Emitting records the emitted items. -/
lemma emitItems_ledger (ledger : WorkingMemoryEmissionLedger) (items : List WorkingMemoryItem) :
    (ledger.emitItems items).2.2 = (ledger.emitItems items).1.foldl .record ledger := by
  induction items generalizing ledger with
  | nil              => rfl
  | cons item items ih =>
    rw [WorkingMemoryEmissionLedger.emitItems]
    split_ifs
    · exact ih ledger
    · exact ih (ledger.record item)

lemma emission_ledger (ledger : WorkingMemoryEmissionLedger) (identity : WorkingMemoryIdentity)
    (snapshot : Option WorkingMemorySnapshot) :
    (ledger.emission identity snapshot).2 =
      (ledger.emission identity snapshot).1.items.foldl .record ledger := by
  cases snapshot with
  | none          => rfl
  | some snapshot => exact emitItems_ledger ledger snapshot.items

/-- A call records on a ledger what it emits on it. -/
lemma ledgers_step (call : Call ι) (ledger : ι) :
    (s.step service call).2.ledgers ledger =
      (itemsOn ledger (call, (s.step service call).1)).foldl .record (s.ledgers ledger) := by
  cases call with
  | emit identity which now =>
    by_cases howner : (s.ledgers which).identity = identity
    · subst howner
      cases hutc : utc now with
      | error e    =>
        simp only [step, emit_error hutc, Function.update_eq_self]
        rfl
      | ok instant =>
        simp only [step, emit_eq hutc]
        show Function.update s.ledgers which _ ledger =
          List.foldl _ _ (Option.elim (if which = ledger then some _ else none) [] WorkingMemoryEmission.items)
        by_cases h : which = ledger
        · subst h
          rw [Function.update_self, if_pos rfl]
          exact emission_ledger ..
        · rw [Function.update_of_ne (Ne.symm h), if_neg h]
          rfl
    · simp only [step, emit_of_ne howner, Function.update_eq_self]
      rfl
  | activate identity candidates now => rfl
  | get identity now                 => rfl
  | close identity now               => rfl
  | purgeExpired now                 => rfl

end Sessions

end CyberBrain.WorkingMemory
