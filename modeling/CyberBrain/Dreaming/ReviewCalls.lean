import CyberBrain.Dreaming.Writeback
import CyberBrain.Foundation.Run

/-!
# Manual reviews

`DreamOperations.review` resolves a candidate, stores it if it is approved, and records the write:
three commits, with other calls in between. A resolution is inserted once and never changes. The
record of a write replaces the one before it, also a record that another call has written since.
-/

namespace CyberBrain.Dreaming

open Python Tenancy

variable {py : Runtime}

/-! ### Calls -/

variable (py) in
/-- The arguments of a call of `review`, with the authority bound to it. -/
structure ReviewCall where
  bound : Option (CallerAuthority py)
  runId : String
  index : ℤ
  resolution : String
  reviewer : String
  reason : Option String := none
  domain : Option String := none

def ReviewCall.key (c : ReviewCall py) : CandidateKey := (c.runId, c.index)

variable (py) in
/-- Where a call is: before each of its statements, in `Evolution.store`, or at its end. -/
inductive ReviewPhase
  | idle
  | reading (c : ReviewCall py)
  | resolving (c : ReviewCall py)
  | excluding (c : ReviewCall py)
  | inserting (c : ReviewCall py)
  | resolved (c : ReviewCall py)
  | checking (c : ReviewCall py)
  | deciding (c : ReviewCall py)
  | planning (c : ReviewCall py) (row : DecisionRow)
  | storing (c : ReviewCall py)
  | recording (c : ReviewCall py) (result : DreamWriteResult)
  | confirming (c : ReviewCall py)
  | returned (c : ReviewCall py) (write : Option WriteRow)
  | raised (c : ReviewCall py) (e : Exc)

/-- The call of a phase. -/
def ReviewPhase.call? : ReviewPhase py → Option (ReviewCall py)
  | .idle => none
  | .reading c | .resolving c | .excluding c | .inserting c | .resolved c | .checking c
  | .deciding c | .planning c _ | .storing c | .recording c _ | .confirming c | .returned c _
  | .raised c _ => some c

variable (py) in
/-- The audit, with the calls by number. -/
structure ReviewSystem where
  store : AuditStore := {}
  phase : ℕ → ReviewPhase py := fun _ => .idle

variable (py) in
/-- A call starts, executes its next statement, leaves `Evolution.store`, or aborts. -/
inductive ReviewEvent
  | call (r : ℕ) (c : ReviewCall py)
  | advance (r : ℕ) (now : Instant)
  | stored (r : ℕ) (result : Except Exc StoreOutcome)
  | abort (r : ℕ)

/-- The next phase after a statement that may raise. -/
def ReviewCall.next {α : Type} (c : ReviewCall py) (result : Except Exc α)
    (f : α → ReviewPhase py) : ReviewPhase py :=
  match result with
  | .ok a    => f a
  | .error e => .raised c e

section Steps

variable (defaultDomain : Option String)

/-- The next statement of a call: the phase after it and the audit. -/
def ReviewPhase.advance (now : Instant) (store : AuditStore) :
    ReviewPhase py → ReviewPhase py × AuditStore
  | .reading c =>
    (c.next (store.reviewResolution c.bound c.runId c.index) fun
      | none     => .resolving c
      | some row =>
        if row.resolution = c.resolution then .resolved c
        else .raised c (.valueError "review candidate is already resolved differently"), store)
  | .resolving c =>
    (c.next (store.checkDecision c.bound c.runId c.index c.resolution c.reviewer)
      fun _ => .excluding c, store)
  | .excluding c =>
    (c.next (store.checkUnresolved c.runId c.index) fun _ => .inserting c, store)
  | .inserting c =>
    match AuditStore.insertReview c.runId c.index now c.resolution c.reviewer c.reason store with
    | (result, store) => (c.next result fun _ => .resolved c, store)
  | .resolved c =>
    (c.next (store.reviewResolution c.bound c.runId c.index) fun
      | none   => .raised c (.runtimeError "review resolution was not persisted")
      | some _ => if c.resolution = "approved" then .checking c else .returned c none, store)
  | .checking c =>
    (c.next (store.write c.bound c.runId c.index) fun write =>
      if write.map (·.status) = some .written then .returned c write else .deciding c, store)
  | .deciding c =>
    (c.next (store.decision c.bound c.runId c.index) fun row =>
      if row.decision = .review then .planning c row
      else .raised c (.valueError "manual approval requires an original review decision"), store)
  | .planning c row =>
    (c.next (do
      let request ← store.requestSnapshot c.bound c.runId
      planWrite py defaultDomain request row.candidate .promote row.evidenceIds c.index c.domain) fun
      | .settled result => .recording c result
      | .store _        => .storing c, store)
  | .recording c result =>
    match AuditStore.recordWrite c.bound c.runId c.index now result store with
    | (result, store) => (c.next result fun _ => .confirming c, store)
  | .confirming c =>
    (c.next (store.write c.bound c.runId c.index) fun write => .returned c write, store)
  | phase => (phase, store)

namespace ReviewSystem

/-- The system after a call moved on. -/
def move (s : ReviewSystem py) (r : ℕ) (phase : ReviewPhase py) (store : AuditStore) :
    ReviewSystem py where
  store := store
  phase := Function.update s.phase r phase

@[simp] lemma move_store (s : ReviewSystem py) (r : ℕ) (phase : ReviewPhase py)
    (store : AuditStore) : (s.move r phase store).store = store := rfl

@[simp] lemma move_phase_self (s : ReviewSystem py) (r : ℕ) (phase : ReviewPhase py)
    (store : AuditStore) : (s.move r phase store).phase r = phase := by
  simp [move]

lemma move_phase_of_ne (s : ReviewSystem py) {r r' : ℕ} (phase : ReviewPhase py)
    (store : AuditStore) (h : r' ≠ r) : (s.move r phase store).phase r' = s.phase r' := by
  simp [move, h]

/-- The system after an event. -/
def step (s : ReviewSystem py) : ReviewEvent py → ReviewSystem py
  | .call r c        => s.move r (.reading c) s.store
  | .advance r now   =>
    let (phase, store) := (s.phase r).advance defaultDomain now s.store
    s.move r phase store
  | .stored r result =>
    match s.phase r with
    | .storing c => s.move r (c.next result fun outcome =>
        .recording c (writtenResult c.index outcome)) s.store
    | _ => s
  | .abort r         => s.move r .idle s.store

/-- The system after a list of events. -/
def run (s : ReviewSystem py) (events : List (ReviewEvent py)) : ReviewSystem py :=
  events.foldl (step defaultDomain) s

end ReviewSystem

end Steps

/-! ### What a statement does -/

/-- The row that `record_write` records. -/
def DreamWriteResult.row (result : DreamWriteResult) (key : CandidateKey) (now : Instant) :
    WriteRow where
  key := key
  status := result.status
  reason := result.reason
  evolutionOutcome := result.evolution.map (·.outcome)
  knowledgeId := result.evolution.map (·.knowledgeId)
  previousKnowledgeId := result.evolution.bind (·.previousId)
  createdAt := now

/-- What one statement of a call does to the audit: nothing, or it inserts the resolution of a
candidate that had none, or it records a write. -/
inductive AuditChange (store : AuditStore) : ReviewPhase py → AuditStore → Prop
  | keep (phase : ReviewPhase py) : AuditChange store phase store
  | review {c : ReviewCall py} {row : ReviewRow} (hkey : row.key = c.key)
      (hresolution : row.resolution = c.resolution) (hnone : store.reviews.find? c.key = none) :
      AuditChange store (.inserting c) { store with reviews := store.reviews.upsert row }
  | write {c : ReviewCall py} {result : DreamWriteResult} (now : Instant)
      (hvisible : store.assertVisible c.bound c.runId = .ok ()) :
      AuditChange store (.recording c result)
        { store with writes := store.writes.upsert (result.row c.key now) }

variable {defaultDomain : Option String} {now : Instant} {store : AuditStore}

variable (now store) in
lemma insertReview_cases (c : ReviewCall py) :
    (∃ e, AuditStore.insertReview c.runId c.index now c.resolution c.reviewer c.reason store =
      (.error e, store)) ∨
    ∃ row : ReviewRow, row.key = c.key ∧ row.resolution = c.resolution ∧
      store.reviews.find? c.key = none ∧
      AuditStore.insertReview c.runId c.index now c.resolution c.reviewer c.reason store =
        (.ok (), { store with reviews := store.reviews.upsert row }) := by
  cases hnone : store.reviews.find? c.key with
  | some row =>
    refine .inl ⟨.runtimeError "UNIQUE constraint failed: dream_candidate_reviews", ?_⟩
    have hsome : ¬ (store.reviews.find? (c.runId, c.index)).isNone = true := by
      rw [show (c.runId, c.index) = c.key from rfl, hnone]
      simp
    simp only [AuditStore.insertReview, Program.atomically, require, if_neg hsome, bind, Except.bind]
  | none =>
    have htrue : (store.reviews.find? (c.runId, c.index)).isNone = true := by
      rw [show (c.runId, c.index) = c.key from rfl, hnone]
      rfl
    refine .inr ⟨{ key := c.key, resolution := c.resolution, reviewer := strip c.reviewer
                   reason := c.reason, createdAt := now }, rfl, rfl, rfl, ?_⟩
    simp only [AuditStore.insertReview, Program.atomically, require, if_pos htrue, bind, Except.bind]
    rfl

variable (now store) in
lemma recordWrite_cases (bound : Option (CallerAuthority py)) (runId : String) (index : ℤ)
    (result : DreamWriteResult) :
    (∃ e, AuditStore.recordWrite bound runId index now result store = (.error e, store) ∧
      store.assertVisible bound runId = .error e) ∨
    (store.assertVisible bound runId = .ok () ∧
      AuditStore.recordWrite bound runId index now result store =
        (.ok (), { store with writes := store.writes.upsert (result.row (runId, index) now) })) := by
  cases hvisible : store.assertVisible bound runId with
  | error e =>
    refine .inl ⟨e, ?_, rfl⟩
    simp [AuditStore.recordWrite, Program.atomically, hvisible, bind, Except.bind]
  | ok u =>
    refine .inr ⟨rfl, ?_⟩
    simp only [AuditStore.recordWrite, Program.atomically, hvisible, bind, Except.bind, pure,
      Except.pure]
    rfl

/-- Every statement of a call changes the audit in one of these ways. -/
lemma auditChange_advance (phase : ReviewPhase py) :
    AuditChange store phase (phase.advance defaultDomain now store).2 := by
  cases phase with
  | inserting c =>
    rcases insertReview_cases now store c with
      ⟨e, heq⟩ | ⟨row, hkey, hres, hnone, heq⟩
    · rw [ReviewPhase.advance, heq]
      exact .keep _
    · rw [ReviewPhase.advance, heq]
      exact .review hkey hres hnone
  | recording c result =>
    rcases recordWrite_cases now store c.bound c.runId c.index result with
      ⟨e, heq, -⟩ | ⟨hvisible, heq⟩
    · rw [ReviewPhase.advance, heq]
      exact .keep _
    · rw [ReviewPhase.advance, heq]
      exact .write now hvisible
  | _ => exact .keep _

namespace AuditChange

variable {phase : ReviewPhase py} {store' : AuditStore}

lemma runs (h : AuditChange store phase store') : store'.runs = store.runs := by
  cases h <;> rfl

lemma decisions (h : AuditChange store phase store') : store'.decisions = store.decisions := by
  cases h <;> rfl

/-- A persisted resolution stays. -/
lemma reviews (h : AuditChange store phase store') {key : CandidateKey} {row : ReviewRow}
    (hrow : store.reviews.find? key = some row) : store'.reviews.find? key = some row := by
  cases h with
  | keep => exact hrow
  | @review c new hkey _ hnone =>
    have hne : key ≠ new.key := by
      rintro rfl
      rw [hkey, hnone] at hrow
      cases hrow
    exact (Table.find?_upsert_of_ne _ _ hne).trans hrow
  | write => exact hrow

/-- A recorded write stays recorded, in some form. -/
lemma writes_isSome (h : AuditChange store phase store') {key : CandidateKey}
    (hrow : (store.writes.find? key).isSome) : (store'.writes.find? key).isSome := by
  cases h with
  | keep => exact hrow
  | review => exact hrow
  | write =>
    rw [Table.find?_upsert]
    split_ifs
    · rfl
    · exact hrow

end AuditChange

/-! ### What a call knows -/

/-- A resolution is persisted for a candidate. -/
def AuditStore.Resolved (store : AuditStore) (key : CandidateKey) (resolution : String) : Prop :=
  ∃ row, store.reviews.find? key = some row ∧ row.resolution = resolution

/-- The gate sent a candidate to review. -/
def AuditStore.Reviewable (store : AuditStore) (key : CandidateKey) : Prop :=
  ∃ row, store.decisions.find? key = some row ∧ row.decision = .review

/-- What holds of the audit when a call is in a phase. -/
def ReviewPhase.Sound (store : AuditStore) : ReviewPhase py → Prop
  | .resolved c                  => store.Resolved c.key c.resolution
  | .checking c | .deciding c    => c.resolution = "approved" ∧ store.Resolved c.key "approved"
  | .planning c row              => c.resolution = "approved" ∧ store.Resolved c.key "approved" ∧
    store.decisions.find? c.key = some row ∧ row.decision = .review
  | .storing c | .recording c _  => c.resolution = "approved" ∧ store.Resolved c.key "approved" ∧
    store.Reviewable c.key
  | .confirming c                => c.resolution = "approved" ∧ (store.writes.find? c.key).isSome
  | .returned c write            => c.resolution = "approved" → write.isSome
  | _                            => True

section Sound

variable {phase : ReviewPhase py} {store' : AuditStore}

lemma AuditChange.resolved {p : ReviewPhase py} (h : AuditChange store p store')
    {key : CandidateKey} {resolution : String} (hres : store.Resolved key resolution) :
    store'.Resolved key resolution := by
  obtain ⟨row, hrow, hresolution⟩ := hres
  exact ⟨row, h.reviews hrow, hresolution⟩

/-- A statement of any call leaves what a call knows true. -/
lemma ReviewPhase.Sound.change {p : ReviewPhase py} (h : AuditChange store p store')
    (hsound : phase.Sound store) : phase.Sound store' := by
  cases phase with
  | resolved c => exact h.resolved hsound
  | checking c => exact ⟨hsound.1, h.resolved hsound.2⟩
  | deciding c => exact ⟨hsound.1, h.resolved hsound.2⟩
  | planning c row =>
    obtain ⟨happroved, hres, hrow, hreview⟩ := hsound
    exact ⟨happroved, h.resolved hres, h.decisions ▸ hrow, hreview⟩
  | storing c =>
    obtain ⟨happroved, hres, row, hrow, hreview⟩ := hsound
    exact ⟨happroved, h.resolved hres, row, h.decisions ▸ hrow, hreview⟩
  | recording c result =>
    obtain ⟨happroved, hres, row, hrow, hreview⟩ := hsound
    exact ⟨happroved, h.resolved hres, row, h.decisions ▸ hrow, hreview⟩
  | confirming c => exact ⟨hsound.1, h.writes_isSome hsound.2⟩
  | _ => exact hsound

lemma ReviewCall.next_sound {α : Type} {c : ReviewCall py} {result : Except Exc α}
    {f : α → ReviewPhase py} (h : ∀ a, result = .ok a → (f a).Sound store) :
    (c.next result f).Sound store := by
  cases result with
  | ok a => exact h a rfl
  | error e => exact trivial

lemma assertVisible_of_reviewResolution {bound : Option (CallerAuthority py)} {runId : String}
    {index : ℤ} {row : Option ReviewRow}
    (h : store.reviewResolution bound runId index = .ok row) :
    store.assertVisible bound runId = .ok () ∧ store.reviews.find? (runId, index) = row := by
  obtain ⟨u, hvisible, h⟩ := bind_eq_ok.mp h
  cases h
  exact ⟨hvisible, rfl⟩

/-- A call knows after its statement what its next phase needs. -/
lemma ReviewPhase.Sound.advance (hsound : phase.Sound store) :
    (phase.advance defaultDomain now store).1.Sound (phase.advance defaultDomain now store).2 := by
  cases phase with
  | idle => exact trivial
  | reading c =>
    refine ReviewCall.next_sound fun found hfound => ?_
    obtain ⟨-, hrow⟩ := assertVisible_of_reviewResolution hfound
    cases found with
    | none => exact trivial
    | some row =>
      dsimp only
      split_ifs with hsame
      · exact ⟨row, hrow, hsame⟩
      · exact trivial
  | resolving c => exact ReviewCall.next_sound fun _ _ => trivial
  | excluding c => exact ReviewCall.next_sound fun _ _ => trivial
  | inserting c =>
    rcases insertReview_cases now store c with
      ⟨e, heq⟩ | ⟨row, hkey, hres, -, heq⟩ <;> rw [ReviewPhase.advance, heq]
    · exact trivial
    · refine ⟨row, ?_, hres⟩
      rw [← hkey]
      exact Table.find?_upsert_self _ _
  | resolved c =>
    refine ReviewCall.next_sound fun found hfound => ?_
    cases found with
    | none => exact trivial
    | some row =>
      dsimp only
      split_ifs with happroved
      · exact ⟨happroved, happroved ▸ hsound⟩
      · exact fun h => absurd h happroved
  | checking c =>
    refine ReviewCall.next_sound fun found hfound => ?_
    split_ifs with hwritten
    · obtain ⟨row, rfl, -⟩ := Option.map_eq_some_iff.mp hwritten
      exact fun _ => rfl
    · exact hsound
  | deciding c =>
    refine ReviewCall.next_sound fun row hrow => ?_
    split_ifs with hreview
    · obtain ⟨_, -, h⟩ := bind_eq_ok.mp hrow
      exact ⟨hsound.1, hsound.2, orRaise_eq_ok.mp h, hreview⟩
    · exact trivial
  | planning c row =>
    obtain ⟨happroved, hres, hrow, hreview⟩ := hsound
    refine ReviewCall.next_sound fun plan hplan => ?_
    cases plan with
    | settled result => exact ⟨happroved, hres, row, hrow, hreview⟩
    | store target => exact ⟨happroved, hres, row, hrow, hreview⟩
  | storing c => exact hsound
  | recording c result =>
    rcases recordWrite_cases now store c.bound c.runId c.index result with
      ⟨e, heq, -⟩ | ⟨-, heq⟩ <;> rw [ReviewPhase.advance, heq]
    · exact trivial
    · refine ⟨hsound.1, ?_⟩
      have hfound := Table.find?_upsert_self store.writes (result.row c.key now)
      exact Option.isSome_iff_exists.mpr ⟨_, hfound⟩
  | confirming c =>
    refine ReviewCall.next_sound fun found hfound => ?_
    obtain ⟨_, -, h⟩ := bind_eq_ok.mp hfound
    cases h
    exact fun _ => hsound.2
  | returned c write => exact hsound
  | raised c e => exact trivial

end Sound

namespace ReviewSystem

variable {s : ReviewSystem py} {e : ReviewEvent py}

/-- Every call knows what its phase needs. -/
def Sound (s : ReviewSystem py) : Prop := ∀ r, (s.phase r).Sound s.store

lemma Sound.move {r : ℕ} {phase : ReviewPhase py} {store' : AuditStore} (h : s.Sound)
    (hphase : phase.Sound store') (hother : ∀ p : ReviewPhase py, p.Sound s.store → p.Sound store') :
    (s.move r phase store').Sound := by
  intro r'
  by_cases hr : r' = r
  · subst hr
    rw [move_phase_self]
    exact hphase
  · rw [move_phase_of_ne s _ _ hr]
    exact hother _ (h r')

lemma Sound.step (h : s.Sound) : (s.step defaultDomain e).Sound := by
  cases e with
  | call r c => exact h.move trivial fun _ => id
  | advance r now =>
    exact h.move (h r).advance fun p hp => hp.change (auditChange_advance (s.phase r))
  | stored r result =>
    simp only [ReviewSystem.step]
    split
    · rename_i c hphase
      have hr := h r
      rw [hphase] at hr
      exact h.move (ReviewCall.next_sound fun _ _ => hr) fun _ => id
    · exact h
  | abort r => exact h.move trivial fun _ => id

/-- What a step does to the audit is what one statement does. -/
lemma auditChange_step (s : ReviewSystem py) (e : ReviewEvent py) :
    ∃ phase : ReviewPhase py, AuditChange s.store phase (s.step defaultDomain e).store := by
  cases e with
  | call r c => exact ⟨.idle, .keep _⟩
  | advance r now => exact ⟨s.phase r, auditChange_advance (s.phase r)⟩
  | stored r result =>
    refine ⟨.idle, ?_⟩
    simp only [ReviewSystem.step]
    split <;> exact .keep _
  | abort r => exact ⟨.idle, .keep _⟩

end ReviewSystem

/-! ### Repeated calls -/

/-- A candidate that may still be approved: nobody has resolved it, or it is approved. -/
def AuditStore.Approvable (store : AuditStore) (key : CandidateKey) : Prop :=
  store.reviews.find? key = none ∨ store.Resolved key "approved"

variable (defaultDomain) in
/-- A call that repeats an approval: the gate sent the candidate to review, nobody rejected it, the
caller sees the run, and nothing fails before the store. -/
structure ReviewCall.Repeats (c : ReviewCall py) (store : AuditStore) : Prop where
  approved : c.resolution = "approved"
  reviewer : strip c.reviewer ≠ ""
  approvable : store.Approvable c.key
  visible : store.assertVisible c.bound c.runId = .ok ()
  plan : ∃ row request plan, store.decisions.find? c.key = some row ∧ row.decision = .review ∧
    store.requestSnapshot c.bound c.runId = .ok request ∧
      planWrite py defaultDomain request row.candidate .promote row.evidenceIds c.index c.domain =
        .ok plan

/-- A phase that a repeated call may be in. -/
inductive ReviewPhase.Resuming (c : ReviewCall py) (store : AuditStore) : ReviewPhase py → Prop
  | reading : Resuming c store (.reading c)
  | resolving (hnone : store.reviews.find? c.key = none) : Resuming c store (.resolving c)
  | excluding (hnone : store.reviews.find? c.key = none) : Resuming c store (.excluding c)
  | inserting (hnone : store.reviews.find? c.key = none) : Resuming c store (.inserting c)
  | resolved (hres : store.Resolved c.key "approved") : Resuming c store (.resolved c)
  | checking : Resuming c store (.checking c)
  | deciding : Resuming c store (.deciding c)
  | planning {row : DecisionRow} (hrow : store.decisions.find? c.key = some row) :
      Resuming c store (.planning c row)
  | storing : Resuming c store (.storing c)
  | recording (result : DreamWriteResult) : Resuming c store (.recording c result)
  | confirming (hwrite : (store.writes.find? c.key).isSome) : Resuming c store (.confirming c)
  | returned {row : WriteRow} (hkey : row.key = c.key)
      (hwrite : (store.writes.find? c.key).isSome) : Resuming c store (.returned c (some row))

/-- How many statements a repeated call has left at most, with its store counted as one. -/
def ReviewPhase.rank : ReviewPhase py → ℕ
  | .reading _     => 11
  | .resolving _   => 10
  | .excluding _   => 9
  | .inserting _   => 8
  | .resolved _    => 7
  | .checking _    => 6
  | .deciding _    => 5
  | .planning _ _  => 4
  | .storing _     => 3
  | .recording _ _ => 2
  | .confirming _  => 1
  | _              => 0

/-- The event fails nothing in a call, starts no other one in its place, and does not resolve the
candidate before it. -/
def ReviewSystem.Spares (r : ℕ) (key : CandidateKey) (s : ReviewSystem py) :
    ReviewEvent py → Prop
  | .call r' _ | .abort r' | .stored r' (.error _) => r' ≠ r
  | .advance r' _ => r' ≠ r → ∀ c, s.phase r' = .inserting c → c.key = key →
    (s.store.reviews.find? key).isSome
  | .stored _ (.ok _) => True

/-- The event moves a call on. -/
def ReviewSystem.moves (r : ℕ) (s : ReviewSystem py) : ReviewEvent py → Bool
  | .advance r' _ =>
    r' = r &&
      match s.phase r with
      | .storing _ | .returned _ _ | .raised _ _ | .idle => false
      | _ => true
  | .stored r' (.ok _) =>
    r' = r &&
      match s.phase r with
      | .storing _ => true
      | _ => false
  | _ => false

section Repeats

variable {c : ReviewCall py} {phase p : ReviewPhase py} {store' : AuditStore} {key : CandidateKey}

lemma assertVisible_congr {bound : Option (CallerAuthority py)} {runId : String}
    (h : store'.runs = store.runs) :
    store'.assertVisible bound runId = store.assertVisible bound runId := by
  simp only [AuditStore.assertVisible, h]

/-- A candidate stays unresolved while nobody inserts a resolution of it. -/
lemma AuditChange.unresolved (h : AuditChange store p store')
    (hother : ∀ c : ReviewCall py, p = .inserting c → c.key ≠ key)
    (hnone : store.reviews.find? key = none) : store'.reviews.find? key = none := by
  cases h with
  | keep => exact hnone
  | @review c row hkey _ _ =>
    have hne : key ≠ row.key := by
      rw [hkey]
      exact (hother c rfl).symm
    exact (Table.find?_upsert_of_ne _ _ hne).trans hnone
  | write => exact hnone

/-- A call that approves leaves a candidate approvable. -/
lemma AuditChange.approvable (h : AuditChange store p store')
    (hother : ∀ c : ReviewCall py, p = .inserting c → c.key = key → c.resolution = "approved")
    (happ : store.Approvable key) : store'.Approvable key := by
  rcases happ with hnone | hres
  · cases h with
    | keep => exact .inl hnone
    | @review c row hkey hresolution _ =>
      by_cases hc : c.key = key
      · refine .inr ⟨row, ?_, hresolution.trans (hother c rfl hc)⟩
        rw [← hc, ← hkey]
        exact Table.find?_upsert_self _ _
      · have hne : key ≠ row.key := by
          rw [hkey]
          exact Ne.symm hc
        exact .inl ((Table.find?_upsert_of_ne _ _ hne).trans hnone)
    | write => exact .inl hnone
  · exact .inr (h.resolved hres)

lemma ReviewCall.Repeats.change (h : c.Repeats defaultDomain store)
    (hchange : AuditChange store p store') (happ : store'.Approvable c.key) :
    c.Repeats defaultDomain store' where
  approved := h.approved
  reviewer := h.reviewer
  approvable := happ
  visible := (assertVisible_congr hchange.runs).trans h.visible
  plan := by
    simp only [AuditStore.requestSnapshot, assertVisible_congr hchange.runs, hchange.runs,
      hchange.decisions]
    exact h.plan

/-- A statement of another call leaves a repeated call where it is. -/
lemma ReviewPhase.Resuming.change (h : phase.Resuming c store)
    (hchange : AuditChange store p store')
    (hkept : store.reviews.find? c.key = none → store'.reviews.find? c.key = none) :
    phase.Resuming c store' := by
  cases h with
  | reading => exact .reading
  | resolving hnone => exact .resolving (hkept hnone)
  | excluding hnone => exact .excluding (hkept hnone)
  | inserting hnone => exact .inserting (hkept hnone)
  | resolved hres => exact .resolved (hchange.resolved hres)
  | checking => exact .checking
  | deciding => exact .deciding
  | planning hrow => exact .planning (hchange.decisions ▸ hrow)
  | storing => exact .storing
  | recording result => exact .recording result
  | confirming hwrite => exact .confirming (hchange.writes_isSome hwrite)
  | returned hkey hwrite => exact .returned hkey (hchange.writes_isSome hwrite)

variable (now) in
/-- A repeated call raises nothing by itself, and every statement brings it nearer to its end. -/
lemma ReviewPhase.Resuming.advance (hrepeats : c.Repeats defaultDomain store)
    (h : phase.Resuming c store) :
    (phase.advance defaultDomain now store).1.Resuming c
        (phase.advance defaultDomain now store).2 ∧
      ((phase.advance defaultDomain now store).1.rank < phase.rank ∨
        (phase.advance defaultDomain now store).1 = phase ∧
          ((∃ c', phase = .storing c') ∨ ∃ c' write, phase = .returned c' write)) := by
  obtain ⟨happroved, hreviewer, happ, hvisible, row, request, plan, hrow, hdecision, hrequest,
    hplan⟩ := hrepeats
  have hread : store.reviewResolution c.bound c.runId c.index =
      .ok (store.reviews.find? c.key) := by
    simp only [AuditStore.reviewResolution, hvisible, bind, Except.bind]
    rfl
  have hwrite : store.write c.bound c.runId c.index = .ok (store.writes.find? c.key) := by
    simp only [AuditStore.write, hvisible, bind, Except.bind]
    rfl
  cases h with
  | reading =>
    rcases happ with hnone | ⟨review, hreview, hresolution⟩
    · simp only [ReviewPhase.advance, hread, hnone, ReviewCall.next]
      exact ⟨.resolving hnone, .inl (by simp [ReviewPhase.rank])⟩
    · simp only [ReviewPhase.advance, hread, hreview, ReviewCall.next, hresolution, happroved,
        if_true]
      exact ⟨.resolved ⟨review, hreview, hresolution⟩, .inl (by simp [ReviewPhase.rank])⟩
  | resolving hnone =>
    have hcheck : store.checkDecision c.bound c.runId c.index c.resolution c.reviewer = .ok () := by
      have hfound : store.decisions.find? (c.runId, c.index) = some row := hrow
      simp [AuditStore.checkDecision, hvisible, happroved, hreviewer, hfound, hdecision, require,
        orRaise, bind, Except.bind]
    simp only [ReviewPhase.advance, hcheck, ReviewCall.next]
    exact ⟨.excluding hnone, .inl (by simp [ReviewPhase.rank])⟩
  | excluding hnone =>
    have hcheck : store.checkUnresolved c.runId c.index = .ok () := by
      have hfound : store.reviews.find? (c.runId, c.index) = none := hnone
      simp [AuditStore.checkUnresolved, hfound, require]
    simp only [ReviewPhase.advance, hcheck, ReviewCall.next]
    exact ⟨.inserting hnone, .inl (by simp [ReviewPhase.rank])⟩
  | inserting hnone =>
    rcases insertReview_cases now store c with
      ⟨e, heq⟩ | ⟨new, hkey, hresolution, -, heq⟩
    · have hfound : store.reviews.find? (c.runId, c.index) = none := hnone
      simp [AuditStore.insertReview, Program.atomically, hfound, require, bind, Except.bind, pure,
        Except.pure] at heq
    · rw [ReviewPhase.advance, heq]
      have hlt : (ReviewPhase.resolved c).rank < (ReviewPhase.inserting c).rank := by
        simp [ReviewPhase.rank]
      refine ⟨.resolved ⟨new, ?_, hresolution.trans happroved⟩, .inl hlt⟩
      rw [← hkey]
      exact Table.find?_upsert_self _ _
  | resolved hres =>
    obtain ⟨review, hreview, -⟩ := hres
    simp only [ReviewPhase.advance, hread, hreview, ReviewCall.next, happroved, if_true]
    exact ⟨.checking, .inl (by simp [ReviewPhase.rank])⟩
  | checking =>
    simp only [ReviewPhase.advance, hwrite, ReviewCall.next]
    split_ifs with hwritten
    · obtain ⟨row, hrow, -⟩ := Option.map_eq_some_iff.mp hwritten
      rw [hrow]
      exact ⟨.returned (Table.key_of_find? hrow) (Option.isSome_iff_exists.mpr ⟨row, hrow⟩),
        .inl (by simp [ReviewPhase.rank])⟩
    · exact ⟨.deciding, .inl (by simp [ReviewPhase.rank])⟩
  | deciding =>
    have hfound : store.decision c.bound c.runId c.index = .ok row := by
      simp only [AuditStore.decision, hvisible, bind, Except.bind]
      exact orRaise_eq_ok.mpr hrow
    simp only [ReviewPhase.advance, hfound, ReviewCall.next, hdecision, if_true]
    exact ⟨.planning hrow, .inl (by simp [ReviewPhase.rank])⟩
  | planning hrow' =>
    cases hrow.symm.trans hrow'
    simp only [ReviewPhase.advance, hrequest, hplan, ReviewCall.next, bind, Except.bind]
    cases plan with
    | settled result => exact ⟨.recording result, .inl (by simp [ReviewPhase.rank])⟩
    | store target => exact ⟨.storing, .inl (by simp [ReviewPhase.rank])⟩
  | storing => exact ⟨.storing, .inr ⟨rfl, .inl ⟨c, rfl⟩⟩⟩
  | recording result =>
    rcases recordWrite_cases now store c.bound c.runId c.index result with
      ⟨e, -, hinvisible⟩ | ⟨-, heq⟩
    · rw [hvisible] at hinvisible
      cases hinvisible
    · rw [ReviewPhase.advance, heq]
      have hfound := Table.find?_upsert_self store.writes (result.row c.key now)
      have hlt : (ReviewPhase.confirming c).rank < (ReviewPhase.recording c result).rank := by
        simp [ReviewPhase.rank]
      exact ⟨.confirming (Option.isSome_iff_exists.mpr ⟨_, hfound⟩), .inl hlt⟩
  | confirming hsome =>
    obtain ⟨row, hrow⟩ := Option.isSome_iff_exists.mp hsome
    simp only [ReviewPhase.advance, hwrite, ReviewCall.next, hrow]
    exact ⟨.returned (Table.key_of_find? hrow) hsome, .inl (by simp [ReviewPhase.rank])⟩
  | returned hkey hsome => exact ⟨.returned hkey hsome, .inr ⟨rfl, .inr ⟨c, _, rfl⟩⟩⟩

end Repeats

namespace ReviewSystem

variable {s : ReviewSystem py} {e : ReviewEvent py} {r : ℕ} {c : ReviewCall py}

/-- A phase is what it was after a step of another call. -/
lemma step_phase_of_ne {r' : ℕ} (h : r' ≠ r)
    (he : match e with
      | .call r'' _ | .advance r'' _ | .stored r'' _ | .abort r'' => r'' = r') :
    (s.step defaultDomain e).phase r = s.phase r := by
  cases e with
  | call r'' c => exact move_phase_of_ne s _ _ (he ▸ h.symm)
  | advance r'' now => exact move_phase_of_ne s _ _ (he ▸ h.symm)
  | stored r'' result =>
    simp only [ReviewSystem.step]
    split
    · exact move_phase_of_ne s _ _ (he ▸ h.symm)
    · rfl
  | abort r'' => exact move_phase_of_ne s _ _ (he ▸ h.symm)

/-- A step that spares a repeated call leaves it repeating, and it moves on or stays. -/
lemma resuming_step (hrepeats : c.Repeats defaultDomain s.store)
    (h : (s.phase r).Resuming c s.store) (hspares : s.Spares r c.key e) :
    c.Repeats defaultDomain (s.step defaultDomain e).store ∧
      ((s.step defaultDomain e).phase r).Resuming c (s.step defaultDomain e).store ∧
      ((s.step defaultDomain e).phase r).rank + (if s.moves r e then 1 else 0) ≤
        (s.phase r).rank := by
  cases e with
  | call r' c' =>
    have hphase : (s.step defaultDomain (.call r' c')).phase r = s.phase r :=
      step_phase_of_ne hspares rfl
    rw [hphase]
    exact ⟨hrepeats, h, le_rfl⟩
  | advance r' now =>
    have hchange : AuditChange s.store (s.phase r')
        ((s.phase r').advance defaultDomain now s.store).2 := auditChange_advance (s.phase r')
    by_cases hr : r' = r
    · subst hr
      obtain ⟨hnext, hrank⟩ := h.advance now hrepeats
      have happ : ((s.phase r').advance defaultDomain now s.store).2.Approvable c.key := by
        refine hchange.approvable (fun c' hinserting _ => ?_) hrepeats.approvable
        rw [hinserting] at h
        cases h
        exact hrepeats.approved
      refine ⟨hrepeats.change hchange happ, ?_, ?_⟩
      · simpa only [ReviewSystem.step, move_phase_self, move_store] using hnext
      · simp only [ReviewSystem.step, move_phase_self]
        rcases hrank with hlt | ⟨heq, ⟨c', hstoring⟩ | ⟨c', write, hreturned⟩⟩
        · split_ifs <;> omega
        · rw [heq]
          simp [moves, hstoring]
        · rw [heq]
          simp [moves, hreturned]
    · have hother := hspares hr
      have hphase : (s.step defaultDomain (.advance r' now)).phase r = s.phase r :=
        step_phase_of_ne hr rfl
      rw [hphase]
      have hkept (hnone : s.store.reviews.find? c.key = none) :
          ((s.phase r').advance defaultDomain now s.store).2.reviews.find? c.key = none := by
        refine hchange.unresolved (fun c' hinserting hkey => ?_) hnone
        have hsome := hother c' hinserting hkey
        rw [hnone] at hsome
        cases hsome
      have happ : ((s.phase r').advance defaultDomain now s.store).2.Approvable c.key := by
        rcases hrepeats.approvable with hnone | hres
        · exact .inl (hkept hnone)
        · exact .inr (hchange.resolved hres)
      refine ⟨hrepeats.change hchange happ, h.change hchange hkept, ?_⟩
      simp [moves, hr]
  | stored r' result =>
    by_cases hr : r' = r
    · subst hr
      cases result with
      | error e => exact absurd rfl hspares
      | ok outcome =>
        simp only [ReviewSystem.step]
        split
        · rename_i c' hphase
          rw [hphase] at h
          cases h
          rw [move_phase_self, hphase]
          refine ⟨hrepeats, .recording _, ?_⟩
          simp [moves, hphase, ReviewCall.next, ReviewPhase.rank]
        · rename_i hphase
          refine ⟨hrepeats, h, ?_⟩
          have hstays : s.moves r' (.stored r' (.ok outcome)) = false := by
            simp only [moves, decide_true, Bool.true_and]
          simp [hstays]
    · have hphase : (s.step defaultDomain (.stored r' result)).phase r = s.phase r :=
        step_phase_of_ne hr rfl
      have hstore : (s.step defaultDomain (.stored r' result)).store = s.store := by
        simp only [ReviewSystem.step]
        split <;> rfl
      rw [hphase, hstore]
      refine ⟨hrepeats, h, ?_⟩
      cases result <;> simp [moves, hr]
  | abort r' =>
    have hphase : (s.step defaultDomain (.abort r')).phase r = s.phase r :=
      step_phase_of_ne hspares rfl
    rw [hphase]
    exact ⟨hrepeats, h, le_rfl⟩

/-- A repeated call that is spared from now on stays on its way, and each move uses up one of its
statements. -/
lemma resuming_run {events : List (ReviewEvent py)} (hrepeats : c.Repeats defaultDomain s.store)
    (h : (s.phase r).Resuming c s.store)
    (hspares : ∀ done e rest, events = done ++ e :: rest →
      (s.run defaultDomain done).Spares r c.key e) :
    ((s.run defaultDomain events).phase r).Resuming c (s.run defaultDomain events).store ∧
      ((s.run defaultDomain events).phase r).rank +
        countSteps (step defaultDomain) (moves r) s events ≤ (s.phase r).rank := by
  induction events generalizing s with
  | nil => exact ⟨h, le_rfl⟩
  | cons e events ih =>
    obtain ⟨hrepeats', h', hrank⟩ := resuming_step hrepeats h (hspares [] e events rfl)
    obtain ⟨hlast, hcount⟩ := ih hrepeats' h' fun done e' rest heq =>
      hspares (e :: done) e' rest (by rw [heq]; rfl)
    refine ⟨hlast, ?_⟩
    simp only [run, List.foldl_cons, countSteps] at hcount ⊢
    omega

/-- A repeated call that has not returned can move on. -/
lemma exists_moves (h : (s.phase r).Resuming c s.store) (key : CandidateKey) :
    (∃ row, s.phase r = .returned c (some row)) ∨ ∃ e, s.Spares r key e ∧ s.moves r e := by
  rcases hphase : s.phase r with _ | _ | _ | _ | _ | _ | _ | _ | _ | _ | _ | _ | _ | _ <;>
    rw [hphase] at h
  case returned c' write =>
    cases h
    exact .inl ⟨_, rfl⟩
  case storing c' =>
    exact .inr ⟨.stored r (.ok { outcome := .noChange, knowledgeId := .ofNat 0 }), trivial,
      by simp [moves, hphase]⟩
  case idle => cases h
  case raised => cases h
  all_goals
    exact .inr ⟨.advance r (.ofMicros 0), fun hne => absurd rfl hne, by simp [moves, hphase]⟩

end ReviewSystem

/-! ### Written candidates -/

/-- A write is recorded for a candidate. -/
def AuditStore.Written (store : AuditStore) (key : CandidateKey) : Prop :=
  ∃ row, store.writes.find? key = some row ∧ row.status = .written

/-- The event records nothing but a write over a recorded write. -/
def ReviewSystem.KeepsWritten (s : ReviewSystem py) : ReviewEvent py → Prop
  | .advance r _ => ∀ c result, s.phase r = .recording c result → s.store.Written c.key →
    result.status = .written
  | _ => True

/-- The call has found the candidate not written and has not recorded its own write yet. -/
def ReviewPhase.Unwritten (key : CandidateKey) : ReviewPhase py → Prop
  | .deciding c | .planning c _ | .storing c | .recording c _ => c.key = key
  | _ => False

section Written

variable {c : ReviewCall py} {phase p : ReviewPhase py} {store' : AuditStore} {key : CandidateKey}

/-- A recorded write stays one if the statement records nothing else over it. -/
lemma AuditChange.written (h : AuditChange store p store')
    (hkeeps : ∀ c result, p = .recording c result → store.Written c.key → result.status = .written)
    (hwritten : store.Written key) : store'.Written key := by
  cases h with
  | keep => exact hwritten
  | review => exact hwritten
  | @write c result now hvisible =>
    by_cases hc : key = c.key
    · subst hc
      refine ⟨result.row c.key now, ?_, hkeeps c result rfl hwritten⟩
      exact Table.find?_upsert_self store.writes (result.row c.key now)
    · obtain ⟨row, hrow, hstatus⟩ := hwritten
      have hother := Table.find?_upsert_of_ne store.writes (result.row c.key now) hc
      exact ⟨row, hother.trans hrow, hstatus⟩

/-- A call that checks a written candidate does not go on to the store. -/
lemma ReviewPhase.not_unwritten_advance (hwritten : store.Written key)
    (h : ¬ phase.Unwritten key) :
    ¬ (phase.advance defaultDomain now store).1.Unwritten key := by
  have hnext {α : Type} {c : ReviewCall py} {result : Except Exc α} {f : α → ReviewPhase py}
      (hf : ∀ a, result = .ok a → ¬ (f a).Unwritten key) : ¬ (c.next result f).Unwritten key := by
    cases result with
    | ok a => exact hf a rfl
    | error e => exact id
  cases phase with
  | idle => exact id
  | reading c =>
    refine hnext fun found _ => ?_
    cases found with
    | none => exact id
    | some row =>
      dsimp only
      split_ifs <;> exact id
  | resolving c => exact hnext fun _ _ => id
  | excluding c => exact hnext fun _ _ => id
  | inserting c => exact hnext fun _ _ => id
  | resolved c =>
    refine hnext fun found _ => ?_
    cases found with
    | none => exact id
    | some row =>
      dsimp only
      split_ifs <;> exact id
  | checking c =>
    refine hnext fun found hfound => ?_
    split_ifs with hstatus
    · exact id
    · rintro rfl
      obtain ⟨row, hrow, hrowWritten⟩ := hwritten
      obtain ⟨_, -, hread⟩ := bind_eq_ok.mp hfound
      cases hread
      apply hstatus
      rw [show store.writes.find? (c.runId, c.index) = some row from hrow]
      exact congrArg _ hrowWritten
  | deciding c =>
    refine hnext fun row _ => ?_
    split_ifs
    · exact h
    · exact id
  | planning c row =>
    refine hnext fun plan _ => ?_
    cases plan <;> exact h
  | storing c => exact h
  | recording c result => exact hnext fun _ _ => id
  | confirming c => exact hnext fun _ _ => id
  | returned c write => exact id
  | raised c e => exact id

end Written

namespace ReviewSystem

variable {s : ReviewSystem py} {e : ReviewEvent py} {key : CandidateKey} {r : ℕ}

lemma written_step (hkeeps : s.KeepsWritten e) (hwritten : s.store.Written key) :
    (s.step defaultDomain e).store.Written key := by
  cases e with
  | call r c => exact hwritten
  | advance r now => exact (auditChange_advance (s.phase r)).written hkeeps hwritten
  | stored r result =>
    simp only [ReviewSystem.step]
    split <;> exact hwritten
  | abort r => exact hwritten

lemma not_unwritten_step (hwritten : s.store.Written key) (h : ¬ (s.phase r).Unwritten key) :
    ¬ ((s.step defaultDomain e).phase r).Unwritten key := by
  have hmove {r' : ℕ} {phase : ReviewPhase py} {store' : AuditStore}
      (hphase : r' = r → ¬ phase.Unwritten key) :
      ¬ ((s.move r' phase store').phase r).Unwritten key := by
    by_cases hr : r = r'
    · subst hr
      rw [move_phase_self]
      exact hphase rfl
    · rw [move_phase_of_ne s _ _ hr]
      exact h
  cases e with
  | call r' c => exact hmove fun _ => id
  | advance r' now =>
    refine hmove ?_
    rintro rfl
    exact ReviewPhase.not_unwritten_advance hwritten h
  | stored r' result =>
    simp only [ReviewSystem.step]
    split
    · rename_i c hphase
      refine hmove ?_
      rintro rfl
      rw [hphase] at h
      cases result with
      | ok outcome => exact h
      | error e => exact id
    · exact h
  | abort r' => exact hmove fun _ => id

/-- A written candidate stays written, and a call that has not found it unwritten never will, in a
run that records nothing but writes over writes. -/
lemma written_run {events : List (ReviewEvent py)}
    (hkeeps : ∀ done e rest, events = done ++ e :: rest →
      (s.run defaultDomain done).KeepsWritten e)
    (hwritten : s.store.Written key) :
    (s.run defaultDomain events).store.Written key ∧
      ∀ r, ¬ (s.phase r).Unwritten key →
        ¬ ((s.run defaultDomain events).phase r).Unwritten key := by
  refine foldl_of_forall (I := fun _ => True)
    (P := fun t : ReviewSystem py => t.store.Written key ∧
      ∀ r, ¬ (s.phase r).Unwritten key → ¬ (t.phase r).Unwritten key) ?_
    (fun _ _ _ => trivial) trivial ⟨hwritten, fun _ => id⟩ hkeeps
  intro t e _ hP hC
  exact ⟨written_step hC hP.1, fun r hr => not_unwritten_step hP.1 (hP.2 r hr)⟩

lemma reviews_run {row : ReviewRow} (hrow : s.store.reviews.find? key = some row)
    (events : List (ReviewEvent py)) :
    (s.run defaultDomain events).store.reviews.find? key = some row :=
  foldl_invariant (I := fun s : ReviewSystem py => s.store.reviews.find? key = some row)
    (fun s e h => by
      obtain ⟨_, hchange⟩ := auditChange_step s e
      exact hchange.reviews h) hrow events

lemma Sound.run (h : s.Sound) (events : List (ReviewEvent py)) :
    (s.run defaultDomain events).Sound :=
  foldl_invariant (fun _ _ => Sound.step) h events

end ReviewSystem

/-- In every run of review calls, a resolution stays as it was first persisted; only approved
candidates that the gate sent to review get to the store; a repeated approval returns with the row of
its write; and as long as nothing but writes is recorded over writes, no call that has not yet found
a written candidate unwritten stores it again. -/
theorem review_write_safe (defaultDomain : Option String) (store : AuditStore)
    (before after : List (ReviewEvent py)) :
    let s := ReviewSystem.run defaultDomain { store } before
    let t := s.run defaultDomain after
    (∀ key row, s.store.reviews.find? key = some row → t.store.reviews.find? key = some row) ∧
    (∀ r c, t.phase r = .storing c →
      t.store.Resolved c.key "approved" ∧ t.store.Reviewable c.key) ∧
    (∀ r c, s.phase r = .reading c → c.Repeats defaultDomain s.store →
      (∀ done e rest, after = done ++ e :: rest → (s.run defaultDomain done).Spares r c.key e) →
      (t.phase r).Resuming c t.store ∧
        countSteps (ReviewSystem.step defaultDomain) (ReviewSystem.moves r) s after ≤ 11 ∧
        ((∃ row, t.phase r = .returned c (some row)) ∨ ∃ e, t.Spares r c.key e ∧ t.moves r e)) ∧
    (∀ key, s.store.Written key →
      (∀ done e rest, after = done ++ e :: rest → (s.run defaultDomain done).KeepsWritten e) →
      t.store.Written key ∧
        ∀ r, ¬ (s.phase r).Unwritten key → ∀ c, t.phase r = .storing c → c.key ≠ key) := by
  intro s t
  have hsound : t.Sound := by
    apply ReviewSystem.Sound.run
    apply ReviewSystem.Sound.run
    exact fun _ => trivial
  refine ⟨fun key row hrow => ReviewSystem.reviews_run hrow after, ?_, ?_, ?_⟩
  · intro r c hphase
    have hr := hsound r
    rw [hphase] at hr
    exact hr.2
  · intro r c hphase hrepeats hspares
    have hreading : (s.phase r).Resuming c s.store := by
      rw [hphase]
      exact .reading
    obtain ⟨hresuming, hcount⟩ := ReviewSystem.resuming_run hrepeats hreading hspares
    have hrank : (s.phase r).rank = 11 := by rw [hphase, ReviewPhase.rank]
    exact ⟨hresuming, by omega, ReviewSystem.exists_moves hresuming c.key⟩
  · intro key hwritten hkeeps
    obtain ⟨hlast, hcalls⟩ := ReviewSystem.written_run hkeeps hwritten
    refine ⟨hlast, fun r hr c hstoring hkey => ?_⟩
    have hunwritten := hcalls r hr
    rw [hstoring] at hunwritten
    exact hunwritten hkey

section Sample

/-- A run with one candidate to review, whose evidence names no domain. -/
def reviewStore : AuditStore where
  runs := (Table.empty _).upsert
    { id := "run", sessionId := "session", requestId := "request", status := .evaluated
      inputEvidenceIds := ["00000000-0000-0000-0000-000000000001"]
      request :=
        { requestId := "request", sessionId := "session", focalTopics := ["routing"]
          sessionStart := ⟨.ofMicros 0, some 0⟩, sessionEnd := ⟨.ofMicros 1, some 0⟩
          evidenceByTopic := [("routing", [
            { id := "00000000-0000-0000-0000-000000000001", recordType := "episode"
              content := "it is so", score := none, eventTime := none }])] }
      candidateCount := 1, createdAt := .ofMicros 2, authority := none }
  decisions := (Table.empty _).upsert
    { key := ("run", 0)
      candidate :=
        { entityName := "routing", entityType := "component", summary := "it is so"
          content := "it is so", evidenceIds := ["00000000-0000-0000-0000-000000000001"]
          confidence := .zero, classification := "fact" }
      decision := .review, reasonerConfidence := .zero, evidenceStrength := 0
      promotionConfidence := 0, evidenceIds := ["00000000-0000-0000-0000-000000000001"]
      reasons := [], createdAt := .ofMicros 2 }

/-- An approval of the candidate. -/
def approval (domain : Option String) : ReviewCall Runtime.ascii where
  bound := none
  runId := "run"
  index := 0
  resolution := "approved"
  reviewer := "reviewer"
  domain := domain

/-- The next statements of a call. -/
def statements (r n : ℕ) : List (ReviewEvent Runtime.ascii) :=
  List.replicate n (.advance r (.ofMicros 3))

/-- One call approves and stores the candidate; the other, which names no domain, has found no write
before. -/
def storedOnce : List (ReviewEvent Runtime.ascii) :=
  .call 0 (approval (some "infra")) :: statements 0 8 ++ .call 1 (approval none) :: statements 1 3 ++
    .stored 0 (.ok { outcome := .insertNew, knowledgeId := .ofNat 7 }) :: statements 0 2

/-- The other call records that it is blocked, and the first approval is repeated. -/
def storedAgain : List (ReviewEvent Runtime.ascii) :=
  statements 1 3 ++ .call 2 (approval (some "infra")) :: statements 2 5

/-- A repeated approval stores a written candidate again. -/
theorem written_review_stored_again :
    (ReviewSystem.run none { store := reviewStore } storedOnce).store.Written ("run", 0) ∧
    ¬ ((ReviewSystem.run none { store := reviewStore } storedOnce).phase 2).Unwritten ("run", 0) ∧
    ∃ c, ((ReviewSystem.run none { store := reviewStore } storedOnce).run none storedAgain).phase 2 =
      .storing c ∧ c.key = ("run", 0) := by
  have hwritten : ((ReviewSystem.run none { store := reviewStore } storedOnce).store.writes.find?
      ("run", 0)).map (·.status) = some .written := by decide +kernel
  have hidle : (match (ReviewSystem.run none { store := reviewStore } storedOnce).phase 2 with
      | .idle => true
      | _ => false) = true := by decide +kernel
  have hstoring : (match ((ReviewSystem.run none { store := reviewStore } storedOnce).run none
      storedAgain).phase 2 with
      | .storing c => decide (c.key = ("run", 0))
      | _ => false) = true := by decide +kernel
  refine ⟨Option.map_eq_some_iff.mp hwritten, ?_, ?_⟩
  · split at hidle
    · rename_i hphase
      rw [hphase]
      exact id
    · cases hidle
  · split at hstoring
    · rename_i c hphase
      exact ⟨c, hphase, of_decide_eq_true hstoring⟩
    · cases hstoring

end Sample

end CyberBrain.Dreaming
