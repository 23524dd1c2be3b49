import CyberBrain.Cognition.Recording
import CyberBrain.Foundation.KeyedLock

/-!
# Retries of predictions

Calls of `record_prediction` with correlation ids, made by threads and processes that share the lock
files. A call looks up its prediction and stores it under the lock of the stripe of its id, and it
can be aborted at any point. A retry is one more call.
-/

namespace CyberBrain.Cognition

open Python Relation Relations Schemas Tenancy

variable {py : Runtime} {ι : Type*}

/-! ### Runs -/

/-- How far a call has come. -/
inductive Stage
  | begun
  /-- The retry lookup has found nothing. -/
  | absent
  | stored (r : EpisodeRecord)
  | returned (r : EpisodeRecord)
  | stopped

/-- The locks of the stripes, how far each call has come, the stored episodes, and the episodes that
the calls have stored so far. -/
structure RetryState (ι : Type*) where
  lock : LockState ι ℕ
  stage : ι → Stage
  points : RelationPoints EpisodeRecord
  written : List EpisodeRecord

variable (recorder : PredictionRecorder) (calls : ι → PredictionCall py)

/-- The stripe of a call. -/
def stripe (i : ι) : ℕ :=
  match recorder.prepare (calls i) with
  | .ok p    => p.id.value % 64
  | .error _ => 0

/-- The key of a call with a correlation id. -/
def keyOf (call : PredictionCall py) : Option PredictionKey :=
  match recorder.prepare call with
  | .ok p    => p.input.correlationId.map (PredictionRecorder.key p)
  | .error _ => none

/-- The keys of the calls. -/
def keys : Set PredictionKey := {key | ∃ i, keyOf recorder (calls i) = some key}

section Keys

variable {recorder calls} {i j : ι} {key : PredictionKey} {p : PreparedPrediction}

lemma keyOf_eq_some : keyOf recorder (calls i) = some key ↔ ∃ p correlationId,
    recorder.prepare (calls i) = .ok p ∧ p.input.correlationId = some correlationId ∧
      PredictionRecorder.key p correlationId = key := by
  unfold keyOf
  cases recorder.prepare (calls i) with
  | error e => simp
  | ok p =>
    simp only [Option.map_eq_some_iff, Except.ok.injEq]
    constructor
    · rintro ⟨c, hc, hkey⟩
      exact ⟨p, c, rfl, hc, hkey⟩
    · rintro ⟨_, c, rfl, hc, hkey⟩
      exact ⟨c, hc, hkey⟩

/-- The id of a correlated call is that of its key. -/
lemma id_of_keyOf (hkey : keyOf recorder (calls i) = some key)
    (hp : recorder.prepare (calls i) = .ok p) : p.id = recorder.predictionId py key := by
  obtain ⟨q, c, hq, hc, rfl⟩ := keyOf_eq_some.mp hkey
  obtain rfl := Except.ok.inj (hq.symm.trans hp)
  exact PredictionRecorder.prepare_id hq hc

lemma stripe_of_keyOf (hkey : keyOf recorder (calls i) = some key) :
    stripe recorder calls i = (recorder.predictionId py key).value % 64 := by
  obtain ⟨p, -, hp, -, -⟩ := keyOf_eq_some.mp hkey
  rw [← id_of_keyOf hkey hp]
  unfold stripe
  rw [hp]

/-- Different keys have different ids, where `uuid5` tells their names apart. -/
lemma predictionId_injOn
    (hinj : Set.InjOn recorder.uuid5 (PredictionKey.name py '' keys recorder calls)) :
    Set.InjOn (recorder.predictionId py) (keys recorder calls) := fun _ hk _ hk' h =>
  PredictionKey.name_injective
    (hinj (Set.mem_image_of_mem _ hk) (Set.mem_image_of_mem _ hk') h)

end Keys

namespace RetryState

/-- The prediction of a key is stored. -/
def Stores (py : Runtime) (s : RetryState ι) (key : PredictionKey) (r : EpisodeRecord) : Prop :=
  s.points.find? (recorder.predictionId py key) = some ⟨recorder.predictionId py key, .dump r⟩ ∧
    recorder.Identifies py key r

/-- An episode is stored. -/
def store (s : RetryState ι) (r : EpisodeRecord) : RetryState ι :=
  { s with points := s.points.upsert ⟨r.id, .dump r⟩, written := s.written ++ [r] }

section Stores

variable {recorder calls} {s t : RetryState ι} {i : ι} {key key' : PredictionKey}
  {p : PreparedPrediction} {r r' : EpisodeRecord}

lemma Stores.eq (h : s.Stores recorder py key r) (h' : s.Stores recorder py key r') : r = r' := by
  have hpoint := Option.some.inj (h.1.symm.trans h'.1)
  cases hpoint
  rfl

lemma stores_congr (h : t.points = s.points) :
    t.Stores recorder py key r ↔ s.Stores recorder py key r := by
  rw [Stores, Stores, h]

/-- A call stores the prediction of its key. -/
lemma stores_store (hr : recorder.Identifies py key r) : (s.store r).Stores recorder py key r := by
  refine ⟨?_, hr⟩
  have hfind := s.points.find?_upsert_self ⟨r.id, .dump r⟩
  dsimp only at hfind
  rw [hr.id] at hfind
  simpa only [store, hr.id] using hfind

/-- It stores no other one. -/
lemma stores_store_of_ne (hids : Set.InjOn (recorder.predictionId py) (keys recorder calls))
    (hr : recorder.Identifies py key r) (hkey : key ∈ keys recorder calls)
    (hkey' : key' ∈ keys recorder calls) (hne : key' ≠ key) :
    (s.store r).Stores recorder py key' r' ↔ s.Stores recorder py key' r' := by
  have hid : recorder.predictionId py key' ≠ r.id := fun h =>
    hne (hids hkey' hkey (h.trans hr.id))
  have hfind : (s.store r).points.find? (recorder.predictionId py key') =
      s.points.find? (recorder.predictionId py key') := Table.find?_upsert_of_ne _ _ hid
  rw [Stores, Stores, hfind]

/-- Where a call has begun its lookup and found nothing, its prediction is not stored. -/
lemma not_stores_of_lookup (hkey : keyOf recorder (calls i) = some key)
    (hp : recorder.prepare (calls i) = .ok p)
    (hnone : PredictionRecorder.lookup (calls i) p s.points = none) :
    ¬ s.Stores recorder py key r := by
  rintro ⟨hfind, hr⟩
  obtain ⟨q, c, hq, hc, rfl⟩ := keyOf_eq_some.mp hkey
  obtain rfl := Except.ok.inj (hq.symm.trans hp)
  rw [← id_of_keyOf hkey hp] at hfind
  rw [PredictionRecorder.lookup_of_identifies hfind rfl hr] at hnone
  cases hnone

/-- What a call returns from its lookup is stored. -/
lemma stores_of_returnStored {point : RelationPoint EpisodeRecord}
    (hkey : keyOf recorder (calls i) = some key) (hp : recorder.prepare (calls i) = .ok p)
    (hfound : PredictionRecorder.lookup (calls i) p s.points = some point)
    (hr : recorder.returnStored py p point = .ok r) : s.Stores recorder py key r := by
  have hid := id_of_keyOf hkey hp
  obtain ⟨q, c, hq, hc, rfl⟩ := keyOf_eq_some.mp hkey
  obtain rfl := Except.ok.inj (hq.symm.trans hp)
  obtain ⟨hpayload, hidentifies⟩ := PredictionRecorder.returnStored_identifies hp hc hr
  have hfind : s.points.find? q.id = some point := by
    unfold PredictionRecorder.lookup at hfound
    split at hfound
    · exact hfound
    · exact (Option.filter_eq_some_iff.mp hfound).1
  obtain ⟨id, payload⟩ := point
  obtain rfl : payload = .dump r := hpayload
  obtain rfl : id = q.id := Table.key_of_find? hfind
  rw [Stores, ← hid]
  exact ⟨hfind, hidentifies⟩

end Stores

variable [DecidableEq ι]

/-- A call leaves its guard at a stage. -/
def leave (s : RetryState ι) (i : ι) (stage : Stage) : RetryState ι :=
  { s with lock := s.lock.move (stripe recorder calls) i .done none
           stage := Function.update s.stage i stage }

/-- A call goes on inside its guard. -/
def goOn (s : RetryState ι) (i : ι) (stage : Stage) : RetryState ι :=
  { s with stage := Function.update s.stage i stage }

/-- What one call does next. -/
inductive Step (s : RetryState ι) : RetryState ι → Prop
  | enter (i : ι) {key : PredictionKey} (hkey : keyOf recorder (calls i) = some key)
      (hstage : s.stage i = .begun) (hwaiting : s.lock.phase i = .waiting)
      (hfree : s.lock.holder (stripe recorder calls i) = none) :
      Step s { s with lock := s.lock.move (stripe recorder calls) i .inside (some i) }
  | returnFound (i : ι) {p : PreparedPrediction} {point : RelationPoint EpisodeRecord}
      {r : EpisodeRecord} (hp : recorder.prepare (calls i) = .ok p)
      (hinside : s.lock.phase i = .inside) (hstage : s.stage i = .begun)
      (hfound : PredictionRecorder.lookup (calls i) p s.points = some point)
      (hr : recorder.returnStored py p point = .ok r) :
      Step s (s.leave recorder calls i (.returned r))
  | findNone (i : ι) {p : PreparedPrediction} (hp : recorder.prepare (calls i) = .ok p)
      (hinside : s.lock.phase i = .inside) (hstage : s.stage i = .begun)
      (hnone : PredictionRecorder.lookup (calls i) p s.points = none) :
      Step s (s.goOn i .absent)
  | store (i : ι) {p : PreparedPrediction} {r : EpisodeRecord}
      (hp : recorder.prepare (calls i) = .ok p) (hstage : s.stage i = .absent)
      (hr : recorder.newRecord (calls i) p = .ok r) :
      Step s ((s.store r).goOn i (.stored r))
  | returnNew (i : ι) {r : EpisodeRecord} (hstage : s.stage i = .stored r) :
      Step s (s.leave recorder calls i (.returned r))
  /-- An abort inside the guard, which releases it. -/
  | abort (i : ι) (hinside : s.lock.phase i = .inside) : Step s (s.leave recorder calls i .stopped)
  /-- A failure before the guard, such as a timeout. -/
  | giveUp (i : ι) (hwaiting : s.lock.phase i = .waiting) : Step s (s.goOn i .stopped)

/-- The interleavings of the calls. -/
abbrev Run (s t : RetryState ι) : Prop := ReflTransGen (Step recorder calls) s t

/-- No call has begun. -/
structure Starts (s : RetryState ι) : Prop where
  lock : s.lock = .initial
  stage : ∀ i, s.stage i = .begun
  written : s.written = []

variable {recorder calls} {s t start : RetryState ι} {i j : ι} {key key' : PredictionKey}
  {p : PreparedPrediction} {r r' : EpisodeRecord}

section Frame

variable (stage : Stage)

@[simp] lemma points_leave : (s.leave recorder calls i stage).points = s.points := rfl

@[simp] lemma written_leave : (s.leave recorder calls i stage).written = s.written := rfl

@[simp] lemma points_goOn : (s.goOn i stage).points = s.points := rfl

@[simp] lemma written_goOn : (s.goOn i stage).written = s.written := rfl

@[simp] lemma lock_goOn : (s.goOn i stage).lock = s.lock := rfl

lemma stage_goOn : (s.goOn i stage).stage j = if j = i then stage else s.stage j :=
  Function.update_apply ..

lemma stage_leave :
    (s.leave recorder calls i stage).stage j = if j = i then stage else s.stage j :=
  Function.update_apply ..

end Frame

/-! ### Steps -/

/-- Of the stored episodes, a step keeps all or changes the one that a call stores. -/
lemma Step.points_cases (h : Step recorder calls s t) :
    (t.points = s.points ∧ t.written = s.written) ∨ ∃ i p r,
      recorder.prepare (calls i) = .ok p ∧ s.stage i = .absent ∧
      recorder.newRecord (calls i) p = .ok r ∧ t = (s.store r).goOn i (.stored r) := by
  cases h with
  | store i hp hstage hr => exact .inr ⟨i, _, _, hp, hstage, hr, rfl⟩
  | _ => exact .inl ⟨rfl, rfl⟩

variable (recorder calls) in
/-- What holds in every state that the calls reach from one where none has begun. -/
structure Safe (start s : RetryState ι) : Prop where
  lock : LockState.Reachable (stripe recorder calls) s.lock
  /-- A call inside its guard has a key. -/
  keyed : ∀ i, s.lock.phase i = .inside → ∃ key, keyOf recorder (calls i) = some key
  /-- A call holds its guard between its lookup and its return. -/
  inside : ∀ i, s.stage i = .absent ∨ (∃ r, s.stage i = .stored r) → s.lock.phase i = .inside
  /-- What the lookup has not found is not there until the call stores it. -/
  absent : ∀ i key, s.stage i = .absent → keyOf recorder (calls i) = some key →
    ∀ r, ¬ s.Stores recorder py key r
  /-- What a call has stored or returned is there. -/
  returned : ∀ i key r, s.stage i = .stored r ∨ s.stage i = .returned r →
    keyOf recorder (calls i) = some key → s.Stores recorder py key r
  /-- What was stored before the calls is there. -/
  kept : ∀ key ∈ keys recorder calls, ∀ r, start.Stores recorder py key r →
    s.Stores recorder py key r
  /-- A prediction is written only where none was before. -/
  written : ∀ key ∈ keys recorder calls,
    s.written.countP (fun r => decide (recorder.Identifies py key r)) = 0 ∨
    s.written.countP (fun r => decide (recorder.Identifies py key r)) = 1 ∧
      (∃ r, s.Stores recorder py key r) ∧ ∀ r, ¬ start.Stores recorder py key r

/-- A step of one call that stores nothing. -/
lemma Safe.of_frame (h : Safe recorder calls start s)
    (hlock : LockState.Reachable (stripe recorder calls) t.lock) (hpoints : t.points = s.points)
    (hwritten : t.written = s.written) (hstage : ∀ j, j ≠ i → t.stage j = s.stage j)
    (hphase : ∀ j, j ≠ i → t.lock.phase j = s.lock.phase j)
    (hkeyed : t.lock.phase i = .inside → ∃ key, keyOf recorder (calls i) = some key)
    (hinside : t.stage i = .absent ∨ (∃ r, t.stage i = .stored r) → t.lock.phase i = .inside)
    (habsent : ∀ key, t.stage i = .absent → keyOf recorder (calls i) = some key →
      ∀ r, ¬ s.Stores recorder py key r)
    (hreturned : ∀ key r, t.stage i = .stored r ∨ t.stage i = .returned r →
      keyOf recorder (calls i) = some key → s.Stores recorder py key r) :
    Safe recorder calls start t where
  lock := hlock
  keyed j hj := by
    by_cases hji : j = i
    · subst hji
      exact hkeyed hj
    · exact h.keyed j (hphase j hji ▸ hj)
  inside j hj := by
    by_cases hji : j = i
    · subst hji
      exact hinside hj
    · rw [hphase j hji]
      exact h.inside j (hstage j hji ▸ hj)
  absent j key hj hkey r := by
    rw [stores_congr hpoints]
    by_cases hji : j = i
    · subst hji
      exact habsent key hj hkey r
    · exact h.absent j key (hstage j hji ▸ hj) hkey r
  returned j key r hj hkey := by
    rw [stores_congr hpoints]
    by_cases hji : j = i
    · subst hji
      exact hreturned key r hj hkey
    · exact h.returned j key r (hstage j hji ▸ hj) hkey
  kept key hkey r hr := (stores_congr hpoints).mpr (h.kept key hkey r hr)
  written key hkey := by
    simp only [hwritten, stores_congr hpoints]
    exact h.written key hkey

/-- Two calls with the same key are not both inside their guards. -/
lemma Safe.eq_of_inside (h : Safe recorder calls start s)
    (hi : s.lock.phase i = .inside) (hj : s.lock.phase j = .inside)
    (hkey : keyOf recorder (calls i) = some key) (hkey' : keyOf recorder (calls j) = some key) :
    i = j := by
  have hstripe : stripe recorder calls i = stripe recorder calls j := by
    rw [stripe_of_keyOf hkey, stripe_of_keyOf hkey']
  have hheld := h.lock.held
  exact Option.some.inj ((hheld i hi).symm.trans (hstripe ▸ hheld j hj))

/-- A call that has found no prediction stores the one of its key. -/
lemma Safe.identifies (h : Safe recorder calls start s)
    (hp : recorder.prepare (calls i) = .ok p) (hstage : s.stage i = .absent)
    (hr : recorder.newRecord (calls i) p = .ok r) :
    ∃ key, keyOf recorder (calls i) = some key ∧ recorder.Identifies py key r := by
  obtain ⟨key, hkey⟩ := h.keyed i (h.inside i (.inl hstage))
  obtain ⟨q, c, hq, hc, rfl⟩ := keyOf_eq_some.mp hkey
  obtain rfl := Except.ok.inj (hq.symm.trans hp)
  exact ⟨_, hkey, PredictionRecorder.newRecord_identifies hp hc hr⟩

/-- What is stored stays when a call stores its prediction. -/
lemma Safe.store_keeps (h : Safe recorder calls start s)
    (hids : Set.InjOn (recorder.predictionId py) (keys recorder calls))
    (hp : recorder.prepare (calls i) = .ok p) (hstage : s.stage i = .absent)
    (hr : recorder.newRecord (calls i) p = .ok r) (hkey' : key' ∈ keys recorder calls)
    (hr' : s.Stores recorder py key' r') : (s.store r).Stores recorder py key' r' := by
  obtain ⟨key, hkey, hidentifies⟩ := h.identifies hp hstage hr
  by_cases heq : key' = key
  · -- the lookup of the call would have found it
    subst heq
    exact absurd hr' (h.absent i key' hstage hkey r')
  · exact (stores_store_of_ne hids hidentifies ⟨i, hkey⟩ hkey' heq).mpr hr'

/-- A call that has not found its prediction stores it. -/
lemma Safe.store (h : Safe recorder calls start s)
    (hids : Set.InjOn (recorder.predictionId py) (keys recorder calls))
    (hp : recorder.prepare (calls i) = .ok p) (hstage : s.stage i = .absent)
    (hr : recorder.newRecord (calls i) p = .ok r) :
    Safe recorder calls start ((s.store r).goOn i (.stored r)) := by
  have hinside := h.inside i (.inl hstage)
  obtain ⟨key, hkey, hidentifies⟩ := h.identifies hp hstage hr
  have hmem : key ∈ keys recorder calls := ⟨i, hkey⟩
  have hstores : (s.store r).Stores recorder py key r := stores_store hidentifies
  have hne {j : ι} {key' : PredictionKey} (hji : j ≠ i) (hj : s.lock.phase j = .inside)
      (hkey' : keyOf recorder (calls j) = some key') : key' ≠ key := fun heq =>
    hji (h.eq_of_inside hj hinside hkey' (heq ▸ hkey))
  have hkeeps {key' : PredictionKey} (hkey' : key' ∈ keys recorder calls) {r' : EpisodeRecord}
      (hr' : s.Stores recorder py key' r') : (s.store r).Stores recorder py key' r' :=
    h.store_keeps hids hp hstage hr hkey' hr'
  constructor
  case lock => exact h.lock
  case keyed => exact h.keyed
  case inside =>
    intro j hj
    by_cases hji : j = i
    · exact hji ▸ hinside
    · rw [stage_goOn, if_neg hji] at hj
      exact h.inside j hj
  case absent =>
    intro j key' hj hkey' r'
    rw [stage_goOn] at hj
    split_ifs at hj with hji
    have hne' := hne hji (h.inside j (.inl hj)) hkey'
    rw [stores_congr (points_goOn _), stores_store_of_ne hids hidentifies hmem ⟨j, hkey'⟩ hne']
    exact h.absent j key' hj hkey' r'
  case returned =>
    intro j key' r' hj hkey'
    rw [stores_congr (points_goOn _)]
    rw [stage_goOn] at hj
    split_ifs at hj with hji
    · subst hji
      obtain rfl := Option.some.inj (hkey.symm.trans hkey')
      rcases hj with hj | hj <;> cases hj
      exact hstores
    · exact hkeeps ⟨j, hkey'⟩ (h.returned j key' r' hj hkey')
  case kept => exact fun key' hkey' r' hr' => hkeeps hkey' (h.kept key' hkey' r' hr')
  case written =>
    intro key' hkey'
    simp only [written_goOn, RetryState.store, List.countP_append, List.countP_singleton]
    by_cases heq : key' = key
    · subst heq
      have hnone := h.absent i key' hstage hkey
      rcases h.written key' hkey' with hzero | ⟨-, ⟨r', hr'⟩, -⟩
      · simp only [hzero, hidentifies, decide_true, if_true, zero_add]
        exact .inr ⟨trivial, ⟨r, hstores⟩, fun r' hr' => hnone r' (h.kept key' hkey' r' hr')⟩
      · exact absurd hr' (hnone r')
    · have hnot : ¬ recorder.Identifies py key' r := fun h' => heq (h'.eq hidentifies)
      simp only [hnot, decide_false, Bool.false_eq_true, if_false, add_zero]
      rcases h.written key' hkey' with hzero | ⟨hone, ⟨r', hr'⟩, hstart⟩
      · exact .inl hzero
      · exact .inr ⟨hone, ⟨r', hkeeps hkey' hr'⟩, hstart⟩

/-- A call leaves its guard with what it has stored or found, or without a record. -/
lemma Safe.leave (h : Safe recorder calls start s)
    (hinside : s.lock.phase i = .inside) {stage : Stage}
    (hstage : stage = .stopped ∨ ∃ r, stage = .returned r ∧
      ∀ key, keyOf recorder (calls i) = some key → s.Stores recorder py key r) :
    Safe recorder calls start (s.leave recorder calls i stage) := by
  have hself : (s.leave recorder calls i stage).stage i = stage := by rw [stage_leave, if_pos rfl]
  have hdone : (s.leave recorder calls i stage).lock.phase i = .done := LockState.move_phase_self
  refine h.of_frame (i := i) (.tail h.lock (.release i hinside)) rfl rfl ?_ ?_ ?_ ?_ ?_ ?_
  · exact fun j hji => by rw [stage_leave, if_neg hji]
  · exact fun j hji => LockState.move_phase_of_ne hji
  · exact fun hi => absurd (hdone.symm.trans hi) (by simp)
  · rw [hself]
    rcases hstage with rfl | ⟨r, rfl, -⟩ <;> simp
  · rw [hself]
    rcases hstage with rfl | ⟨r, rfl, -⟩ <;> simp
  · rw [hself]
    rintro key r hr hkey
    rcases hstage with rfl | ⟨r', rfl, hr'⟩
    · simp at hr
    · rcases hr with hr | hr <;> cases hr
      exact hr' key hkey

/-- Every step keeps what holds. -/
theorem Safe.step (h : Safe recorder calls start s)
    (hids : Set.InjOn (recorder.predictionId py) (keys recorder calls))
    (hstep : Step recorder calls s t) : Safe recorder calls start t := by
  cases hstep with
  | enter i hkey hstage hwaiting hfree =>
    refine h.of_frame (i := i) (.tail h.lock (.acquire i hwaiting hfree)) rfl rfl
      (fun _ _ => rfl) (fun j hji => LockState.move_phase_of_ne hji) (fun _ => ⟨_, hkey⟩) ?_ ?_ ?_
    · exact fun _ => LockState.move_phase_self
    · exact fun key hi => absurd (hstage.symm.trans hi) (by simp)
    · rintro key r (hi | hi) <;> exact absurd (hstage.symm.trans hi) (by simp)
  | returnFound i hp hinside hstage hfound hr =>
    exact h.leave hinside (.inr ⟨_, rfl, fun key hkey => stores_of_returnStored hkey hp hfound hr⟩)
  | findNone i hp hinside hstage hnone =>
    have hself : (s.goOn i .absent).stage i = .absent := by rw [stage_goOn, if_pos rfl]
    refine h.of_frame (i := i) h.lock rfl rfl (fun j hji => by rw [stage_goOn, if_neg hji])
      (fun _ _ => rfl) (h.keyed i) (fun _ => hinside) ?_ ?_
    · exact fun key _ hkey r => not_stores_of_lookup hkey hp hnone
    · rw [hself]
      simp
  | store i hp hstage hr => exact h.store hids hp hstage hr
  | returnNew i hstage =>
    exact h.leave (h.inside i (.inr ⟨_, hstage⟩))
      (.inr ⟨_, rfl, fun key hkey => h.returned i key _ (.inl hstage) hkey⟩)
  | abort i hinside => exact h.leave hinside (.inl rfl)
  | giveUp i hwaiting =>
    have hself : (s.goOn i .stopped).stage i = .stopped := by rw [stage_goOn, if_pos rfl]
    refine h.of_frame (i := i) h.lock rfl rfl (fun j hji => by rw [stage_goOn, if_neg hji])
      (fun _ _ => rfl) (h.keyed i) ?_ ?_ ?_ <;> rw [hself] <;> simp

lemma Starts.safe (h : s.Starts) : Safe recorder calls s s where
  lock := h.lock ▸ .refl
  keyed i hi := by
    rw [h.lock] at hi
    cases hi
  inside i hi := by simp [h.stage] at hi
  absent i key hi := by simp [h.stage] at hi
  returned i key r hi := by simp [h.stage] at hi
  kept key hkey r hr := hr
  written key hkey := by simp [h.written]

/-- What holds in every state of a run. -/
theorem Run.safe (hids : Set.InjOn (recorder.predictionId py) (keys recorder calls))
    (hstart : start.Starts) (h : Run recorder calls start s) :
    Safe recorder calls start s := by
  induction h with
  | refl => exact hstart.safe
  | tail _ hstep ih => exact ih.step hids hstep

/-- A stored prediction stays as it is. -/
theorem Run.keeps (hids : Set.InjOn (recorder.predictionId py) (keys recorder calls))
    (hstart : start.Starts) (hs : Run recorder calls start s) (h : Run recorder calls s t)
    (hkey : key ∈ keys recorder calls) (hr : s.Stores recorder py key r) :
    t.Stores recorder py key r := by
  induction h with
  | refl => exact hr
  | tail hmid hstep ih =>
    have hsafe := Run.safe hids hstart (hs.trans hmid)
    rcases hstep.points_cases with ⟨hpoints, -⟩ | ⟨i, p, r', hp, hstage, hr', rfl⟩
    · exact (stores_congr hpoints).mpr ih
    · exact (stores_congr (points_goOn _)).mpr (hsafe.store_keeps hids hp hstage hr' hkey ih)

/-! ### Retries -/

/-- Retries are idempotent: of the predictions with one key, the calls store at most one and none
where there is one already, a stored one never changes, and every call that returns has returned it.
Calls with different keys use different ids. -/
theorem retries_idempotent
    (hinj : Set.InjOn recorder.uuid5 (PredictionKey.name py '' keys recorder calls))
    (hstart : start.Starts) (hrun : Run recorder calls start t) :
    (∀ key ∈ keys recorder calls,
      t.written.countP (fun r => decide (recorder.Identifies py key r)) ≤ 1 ∧
      ∀ r, start.Stores recorder py key r →
        t.written.countP (fun r => decide (recorder.Identifies py key r)) = 0) ∧
    (∀ s, Run recorder calls start s → Run recorder calls s t → ∀ key ∈ keys recorder calls,
      ∀ r, s.Stores recorder py key r → t.Stores recorder py key r) ∧
    (∀ i key r, keyOf recorder (calls i) = some key → t.stage i = .returned r →
      t.Stores recorder py key r) ∧
    ∀ i j key key' p q, keyOf recorder (calls i) = some key → keyOf recorder (calls j) = some key' →
      recorder.prepare (calls i) = .ok p → recorder.prepare (calls j) = .ok q → key ≠ key' →
      p.id ≠ q.id := by
  have hids := predictionId_injOn hinj
  have hsafe := Run.safe hids hstart hrun
  refine ⟨?_, ?_, ?_, ?_⟩
  · intro key hkey
    rcases hsafe.written key hkey with hzero | ⟨hone, -, hnone⟩
    · exact ⟨hzero ▸ Nat.zero_le 1, fun _ _ => hzero⟩
    · exact ⟨hone.le, fun r hr => absurd hr (hnone r)⟩
  · intro s hs hst key hkey r hr
    exact Run.keeps hids hstart hs hst hkey hr
  · intro i key r hkey hr
    exact hsafe.returned i key r (.inr hr) hkey
  · intro i j key key' p q hkey hkey' hp hq hne heq
    rw [id_of_keyOf hkey hp, id_of_keyOf hkey' hq] at heq
    exact hne (hids ⟨i, hkey⟩ ⟨j, hkey'⟩ heq)

/-! ### A call and its retry -/

/-- A recorder without secrets, with one id for every name. -/
def sampleRecorder : PredictionRecorder where
  memory := { embed := fun _ => .ok [], embeddingVersion := "v1", scan := fun _ _ _ => [] }
  uuid5 _ := .ofNat 7
  floats := { ofInt := fun _ => none, ofText := fun _ => none, mean := fun _ => .zero }

/-- A correlated call and its retry. -/
def sampleCalls (_ : Bool) : PredictionCall Runtime.ascii where
  expectedOutcome := "rain"
  confidence := .one
  sessionId := "s1"
  eventTime := .ofMicros 0
  correlationId := some "c1"
  freshId := .ofNat 1
  now := .ofMicros 1

def samplePrepared : PreparedPrediction where
  input := { expectedOutcome := some "rain", confidence := .one, action := none, rationale := none
             strategyTags := [], correlationId := some "c1" }
  attribution := { sessionId := some "s1" }
  id := .ofNat 7

lemma sample_prepare (i : Bool) : sampleRecorder.prepare (sampleCalls i) = .ok samplePrepared := by
  cases i <;> decide +kernel

def sampleKey : PredictionKey := ⟨{ sessionId := some "s1" }, "c1"⟩

lemma sample_key (i : Bool) : keyOf sampleRecorder (sampleCalls i) = some sampleKey :=
  keyOf_eq_some.mpr ⟨samplePrepared, "c1", sample_prepare i, rfl, rfl⟩

def sampleStart : RetryState Bool := ⟨.initial, fun _ => .begun, .empty _, []⟩

/-- The first of the two calls stores its prediction and is aborted, and the second one returns it. -/
lemma sample_run : ∃ t r, Run sampleRecorder sampleCalls sampleStart t ∧
    t.stage true = .returned r := by
  have hok : (sampleRecorder.newRecord (sampleCalls false) samplePrepared).isOk = true := by
    decide +kernel
  cases hr : sampleRecorder.newRecord (sampleCalls false) samplePrepared with
  | error e => rw [hr] at hok; cases hok
  | ok r =>
  have hp := sample_prepare
  have hstripe :
      stripe sampleRecorder sampleCalls true = stripe sampleRecorder sampleCalls false := by
    rw [stripe_of_keyOf (sample_key true), stripe_of_keyOf (sample_key false)]
  have hid : r.id = samplePrepared.id :=
    (PredictionRecorder.newRecord_identifies (hp false) rfl hr).id
  have hrun : Run sampleRecorder sampleCalls sampleStart sampleStart := .refl
  have hrun := hrun.tail (.enter false (sample_key false) rfl rfl rfl)
  have hrun := hrun.tail (.findNone false (hp false) LockState.move_phase_self rfl rfl)
  have hrun := hrun.tail (.store false (hp false) (by rw [stage_goOn, if_pos rfl]) hr)
  have hrun := hrun.tail (.abort false LockState.move_phase_self)
  have hrun := hrun.tail (.enter true (sample_key true) rfl rfl
    (hstripe ▸ LockState.move_holder_self))
  have hfind : (sampleStart.store r).points.find? samplePrepared.id =
      some ⟨samplePrepared.id, .dump r⟩ := by
    rw [← hid]
    exact sampleStart.points.find?_upsert_self ⟨r.id, .dump r⟩
  obtain ⟨point, hfound, hreturn⟩ := PredictionRecorder.returnStored_newRecord (hp false) (hp true)
    rfl rfl rfl rfl (by decide) hr hfind
  have hrun := hrun.tail (.returnFound true (hp true) LockState.move_phase_self rfl hfound hreturn)
  exact ⟨_, r, hrun, by rw [stage_leave, if_pos rfl]⟩

lemma sample_starts : sampleStart.Starts := ⟨rfl, fun _ => rfl, rfl⟩

lemma sample_injOn : Set.InjOn sampleRecorder.uuid5
    (PredictionKey.name Runtime.ascii '' keys sampleRecorder sampleCalls) := by
  refine Set.Subsingleton.injOn (Set.Subsingleton.image ?_ _) _
  rintro key ⟨i, hkey⟩ key' ⟨j, hkey'⟩
  rw [sample_key] at hkey hkey'
  exact Option.some.inj (hkey.symm.trans hkey')

theorem retries_idempotent_sample : ∃ t r, Run sampleRecorder sampleCalls sampleStart t ∧
    t.stage true = .returned r ∧ t.Stores sampleRecorder Runtime.ascii sampleKey r ∧
    t.written.countP (fun r => decide (sampleRecorder.Identifies Runtime.ascii sampleKey r)) ≤ 1 := by
  obtain ⟨t, r, hrun, hreturned⟩ := sample_run
  obtain ⟨hwritten, -, hstores, -⟩ := retries_idempotent sample_injOn sample_starts hrun
  exact ⟨t, r, hrun, hreturned, hstores true _ r (sample_key true) hreturned,
    (hwritten _ ⟨true, sample_key true⟩).1⟩

end RetryState

end CyberBrain.Cognition
