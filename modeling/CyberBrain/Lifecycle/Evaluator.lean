import CyberBrain.Foundation.Lists
import CyberBrain.Lifecycle.Models

/-!
# Lifecycle evaluation

A record is scored by a weighted sum of its signals, and the score decides whether it is suppressed
or reactivated. Every test that a signal passes leaves a reason code, and a decision needs one: of a
record that passes no test and keeps its state there is no decision.
-/

namespace CyberBrain.Lifecycle

open Python Schemas

/-- `math.log1p` on the doubles from 0 on. Its last bits are up to the C library. -/
structure Logarithm where
  log1p : Binary64 → Binary64
  log1p_pos : ∀ x, 1 ≤ x.value → 0 < (log1p x).value

namespace Logarithm

/-- `math.log1p(n)` of a natural number. -/
def ofNat (m : Logarithm) (n : ℕ) : Except Exc Double := do
  let x ← orRaise (Binary64.nearest false n) (.overflowError "int too large to convert to float")
  pure (.finite (m.log1p x))

end Logarithm

/-! ### Scores -/

/-- A code for a test that has passed. -/
def reasonIf (c : Prop) [Decidable c] (reason : LifecycleReasonCode) : List LifecycleReasonCode :=
  if c then [reason] else []

@[simp] lemma reasonIf_eq_nil {c : Prop} [Decidable c] {reason : LifecycleReasonCode} :
    reasonIf c reason = [] ↔ ¬ c := by
  simp [reasonIf]

namespace LifecyclePolicy

variable (p : LifecyclePolicy) (m : Logarithm) (s : LifecycleSignals)

/-- The reason codes that `_score` appends. -/
def scoreReasons : List LifecycleReasonCode :=
  reasonIf (Double.finite s.ageDays ≤ p.recentDays) .recent ++
  reasonIf (s.daysSinceLastAccess = none) .neverAccessed ++
  reasonIf (p.frequentAccessCount ≤ s.accessCount) .frequentlyAccessed ++
  reasonIf (Double.literal 0.7 ≤ .finite s.salienceScore.val) .highSalience ++
  reasonIf s.conceptLinked .conceptLinked ++
  reasonIf s.unresolved .unresolved ++
  reasonIf (p.staleDays ≤ .finite s.ageDays) .stale ++
  reasonIf s.supersededOrContradicted .supersededOrContradicted ++
  reasonIf (Double.literal 0.5 ≤ .finite s.storagePressure.val) .storagePressure

/-- `max(0.0, 1.0 - days / stale_days)`. -/
def freshness (days : Binary64) : Except Exc Double := do
  let ratio ← (Double.finite days).div p.staleDays
  pure (Double.zero.max (.one - ratio))

/-- The freshness of the last access, if there was one. -/
def accessFreshness : Option Binary64 → Except Exc Double
  | none      => .ok .zero
  | some days => p.freshness days

/-- The number that `_score` returns. -/
def score : Except Exc Double := do
  let recency ← p.freshness s.ageDays
  let lastAccess ← p.accessFreshness s.daysSinceLastAccess
  let count ← m.ofNat s.accessCount
  let frequent ← m.ofNat p.frequentAccessCount.toNat
  let ratio ← count.div frequent
  let access := Double.one.min ratio
  let raw := .literal 0.10 + .literal 0.18 * recency + .literal 0.12 * lastAccess +
    .literal 0.15 * access + .literal 0.22 * .finite s.salienceScore.val +
    (if s.conceptLinked then .literal 0.10 else .zero) +
    (if s.unresolved then .literal 0.15 else .zero) -
    (if s.supersededOrContradicted then .literal 0.20 else .zero) -
    .literal 0.12 * .finite s.storagePressure.val
  pure (Double.one.min (Double.zero.max raw))

/-- The decision about a scored record. -/
def decideScored (score : Double) : Except Exc LifecycleDecision :=
  let decision := LifecycleDecision.make s.recordId
  let reasons := p.scoreReasons s
  let relevance := reasonIf s.explicitRelevance .explicitRelevance
  if s.lifecycleState = .suppressed then
    if s.explicitRelevance ∨ s.unresolved ∨
        p.reactivationThreshold ≤ .finite s.salienceScore.val ∨
        p.reactivationThreshold ≤ score then
      decision .reactivate score
        (reasons ++ relevance ++ [LifecycleReasonCode.aboveReactivationThreshold]).eraseDups
    else decision .remainSuppressed score reasons.eraseDups
  else if s.explicitRelevance ∨ s.unresolved then
    decision .keepActive (score.max p.suppressionThreshold)
      (reasons ++ relevance ++ reasonIf s.unresolved .unresolved).eraseDups
  else if score < p.suppressionThreshold then
    decision .suppress score
      (reasons ++ [LifecycleReasonCode.belowSuppressionThreshold]).eraseDups
  else decision .keepActive score reasons.eraseDups

/-- `LifecycleEvaluator.evaluate`. -/
def evaluate : Except Exc LifecycleDecision :=
  if s.retentionDirective = .keep then
    LifecycleDecision.make s.recordId
      (if s.lifecycleState = .suppressed then .reactivate else .keepActive) .one [.explicitKeep]
  else do
    let score ← p.score m s
    p.decideScored s score

end LifecyclePolicy

/-! ### Which scores there are -/

/-- A number between 0 and 1. -/
def InUnit (x : Double) : Prop := ∃ c : Confidence, x = .finite c.val

lemma inUnit_finite {x : Binary64} (h : 0 ≤ x.value) (h' : x.value ≤ 1) : InUnit (.finite x) :=
  ⟨⟨x, h, h'⟩, rfl⟩

lemma inUnit_zero : InUnit .zero := inUnit_finite Binary64.value_zero_nonneg Binary64.value_zero_le_one

lemma inUnit_one : InUnit .one := inUnit_finite Binary64.value_one_nonneg Binary64.value_one_le_one

/-- What is strictly between two numbers of the unit interval is in it. -/
lemma inUnit_of_lt {x : Double} (h : Double.zero < x) (h' : x < Double.one) : InUnit x := by
  cases x with
  | finite x =>
    have hpos : Binary64.zero.value < x.value := h
    have hlt : x.value < Binary64.one.value := h'
    rw [Binary64.value_zero] at hpos
    rw [Binary64.value_one] at hlt
    exact inUnit_finite hpos.le hlt.le
  | inf neg =>
    have hpos : neg = false := h
    have hneg : neg = true := h'
    rw [hpos] at hneg
    cases hneg
  | nan => exact h.elim

/-- The limits of a score hold whatever the sum is. -/
lemma inUnit_clamp (raw : Double) : InUnit (Double.one.min (Double.zero.max raw)) := by
  unfold Double.min Double.max
  split_ifs with hpos hlt hlt
  · exact inUnit_of_lt hpos hlt
  · exact inUnit_one
  · exact inUnit_zero
  · exact inUnit_one

lemma InUnit.max {x y : Double} (hx : InUnit x) (hy : InUnit y) : InUnit (x.max y) := by
  unfold Double.max
  split_ifs
  · exact hy
  · exact hx

section Scores

variable {p : LifecyclePolicy} {m : Logarithm} {s : LifecycleSignals} {score : Double}

lemma LifecyclePolicy.freshness_ok {days : Binary64} :
    (∃ x, p.freshness days = .ok x) ↔ ¬ p.staleDays.IsZero := by
  constructor
  · rintro ⟨x, h⟩
    obtain ⟨_, hratio, -⟩ := bind_eq_ok.mp h
    obtain ⟨_, hne, -⟩ := bind_eq_ok.mp hratio
    exact require_eq_ok.mp hne
  · intro h
    exact ⟨_, bind_eq_ok.mpr ⟨_, bind_eq_ok.mpr ⟨(), require_eq_ok.mpr h, rfl⟩, rfl⟩⟩

lemma LifecyclePolicy.accessFreshness_ok (h : ¬ p.staleDays.IsZero) (days : Option Binary64) :
    ∃ x, p.accessFreshness days = .ok x := by
  cases days with
  | none => exact ⟨_, rfl⟩
  | some days => exact freshness_ok.mpr h

lemma Logarithm.ofNat_ok {n : ℕ} {x : Double} (h : m.ofNat n = .ok x) :
    ∃ y, Binary64.nearest false n = some y ∧ x = .finite (m.log1p y) := by
  obtain ⟨y, hy, h⟩ := bind_eq_ok.mp h
  cases h
  exact ⟨y, orRaise_eq_ok.mp hy, rfl⟩

lemma Logarithm.exists_ofNat {n : ℕ} : (∃ x, m.ofNat n = .ok x) ↔ n < Binary64.floatLimit := by
  rw [← @Binary64.nearest_natCast_isSome false, Option.isSome_iff_exists]
  constructor
  · rintro ⟨x, h⟩
    obtain ⟨y, hy, -⟩ := ofNat_ok h
    exact ⟨y, hy⟩
  · rintro ⟨y, hy⟩
    exact ⟨_, bind_eq_ok.mpr ⟨y, orRaise_eq_ok.mpr hy, rfl⟩⟩

/-- The divisor of the access frequency is not zero. -/
lemma Logarithm.not_isZero_ofNat {n : ℕ} {x : Double} (hn : 1 ≤ n) (h : m.ofNat n = .ok x) :
    ¬ x.IsZero := by
  obtain ⟨y, hy, rfl⟩ := ofNat_ok h
  have hround : 1 ≤ y.value := by
    rw [Binary64.nearest_value hy]
    exact_mod_cast Binary64.natCast_le_round (n := 1) (by norm_num) (by exact_mod_cast hn)
  exact (m.log1p_pos y hround).ne'

variable (p s) in
/-- The divisions and conversions of `_score` are defined. -/
structure InRange : Prop where
  staleDays : ¬ p.staleDays.IsZero
  accessCount : s.accessCount < Binary64.floatLimit
  frequent : p.frequentAccessCount.toNat < Binary64.floatLimit

lemma score_inUnit (h : p.score m s = .ok score) : InUnit score := by
  obtain ⟨_, _, h⟩ := bind_eq_ok.mp h
  obtain ⟨_, _, h⟩ := bind_eq_ok.mp h
  obtain ⟨_, _, h⟩ := bind_eq_ok.mp h
  obtain ⟨_, _, h⟩ := bind_eq_ok.mp h
  obtain ⟨_, _, h⟩ := bind_eq_ok.mp h
  cases h
  exact inUnit_clamp _

/-- There is a score exactly in range. -/
lemma exists_score : (∃ score, p.score m s = .ok score) ↔ InRange p s := by
  have hfrequent : 1 ≤ p.frequentAccessCount.toNat := by
    have := p.frequent
    omega
  constructor
  · rintro ⟨score, h⟩
    obtain ⟨_, hrecency, h⟩ := bind_eq_ok.mp h
    obtain ⟨_, _, h⟩ := bind_eq_ok.mp h
    obtain ⟨_, hcount, h⟩ := bind_eq_ok.mp h
    obtain ⟨_, hfrequent, h⟩ := bind_eq_ok.mp h
    exact ⟨LifecyclePolicy.freshness_ok.mp ⟨_, hrecency⟩, Logarithm.exists_ofNat.mp ⟨_, hcount⟩,
      Logarithm.exists_ofNat.mp ⟨_, hfrequent⟩⟩
  · intro h
    obtain ⟨_, hrecency⟩ := (@LifecyclePolicy.freshness_ok p s.ageDays).mpr h.staleDays
    obtain ⟨_, hcount⟩ := Logarithm.exists_ofNat (m := m).mpr h.accessCount
    obtain ⟨_, hdivisor⟩ := Logarithm.exists_ofNat (m := m).mpr h.frequent
    have hratio := Logarithm.not_isZero_ofNat hfrequent hdivisor
    obtain ⟨_, haccess⟩ := p.accessFreshness_ok h.staleDays s.daysSinceLastAccess
    exact ⟨_, bind_eq_ok.mpr ⟨_, hrecency, bind_eq_ok.mpr ⟨_, haccess, bind_eq_ok.mpr ⟨_, hcount,
      bind_eq_ok.mpr ⟨_, hdivisor, bind_eq_ok.mpr ⟨_, bind_eq_ok.mpr ⟨(),
        require_eq_ok.mpr hratio, rfl⟩, rfl⟩⟩⟩⟩⟩⟩

/-! ### Which decisions there are -/

lemma LifecycleDecision.make_decision {id : String} {kind : LifecycleDecisionKind}
    {reasons : List LifecycleReasonCode} {d : LifecycleDecision}
    (h : LifecycleDecision.make id kind score reasons = .ok d) : d.decision = kind := by
  obtain ⟨_, -, h⟩ := bind_eq_ok.mp h
  obtain ⟨_, -, h⟩ := bind_eq_ok.mp h
  split_ifs at h
  cases h
  rfl

/-- A score and pairwise different codes make a decision, if there is a code. -/
lemma LifecycleDecision.exists_make {id : String} {kind : LifecycleDecisionKind}
    {reasons : List LifecycleReasonCode} (hscore : InUnit score) (hnodup : reasons.Nodup) :
    (∃ d, LifecycleDecision.make id kind score reasons = .ok d) ↔ reasons ≠ [] := by
  obtain ⟨c, rfl⟩ := hscore
  constructor
  · rintro ⟨d, h⟩ rfl
    obtain ⟨_, -, h⟩ := bind_eq_ok.mp h
    obtain ⟨_, -, h⟩ := bind_eq_ok.mp h
    rw [dif_pos rfl] at h
    cases h
  · intro hnil
    refine ⟨⟨id, kind, c, reasons, lifecycleVersion, hnil, hnodup⟩, bind_eq_ok.mpr ⟨c.val, rfl, ?_⟩⟩
    refine bind_eq_ok.mpr ⟨c, dif_pos c.property, ?_⟩
    rw [dif_neg hnil, dif_pos hnodup]
    rfl

variable (p s) in
/-- None of the tests of `_score` passes: the record is neither new nor old, it is accessed but not
often, and no signal about it is high. -/
structure Unremarkable : Prop where
  not_recent : ¬ Double.finite s.ageDays ≤ p.recentDays
  accessed : s.daysSinceLastAccess ≠ none
  not_frequent : ¬ p.frequentAccessCount ≤ s.accessCount
  salience : ¬ Double.literal 0.7 ≤ .finite s.salienceScore.val
  not_linked : ¬ s.conceptLinked
  resolved : ¬ s.unresolved
  not_stale : ¬ p.staleDays ≤ .finite s.ageDays
  not_superseded : ¬ s.supersededOrContradicted
  pressure : ¬ Double.literal 0.5 ≤ .finite s.storagePressure.val

lemma scoreReasons_eq_nil : p.scoreReasons s = [] ↔ Unremarkable p s := by
  simp only [LifecyclePolicy.scoreReasons, List.append_eq_nil_iff, reasonIf_eq_nil]
  constructor
  · rintro ⟨⟨⟨⟨⟨⟨⟨⟨h1, h2⟩, h3⟩, h4⟩, h5⟩, h6⟩, h7⟩, h8⟩, h9⟩
    exact ⟨h1, h2, h3, h4, h5, h6, h7, h8, h9⟩
  · rintro ⟨h1, h2, h3, h4, h5, h6, h7, h8, h9⟩
    exact ⟨⟨⟨⟨⟨⟨⟨⟨h1, h2⟩, h3⟩, h4⟩, h5⟩, h6⟩, h7⟩, h8⟩, h9⟩

variable (p s) in
/-- The record keeps its state on its score alone: it is neither protected nor, for its state, past
the threshold. -/
def KeepsState (score : Double) : Prop :=
  ¬ s.explicitRelevance ∧ ¬ s.unresolved ∧
    if s.lifecycleState = .suppressed then
      ¬ p.reactivationThreshold ≤ .finite s.salienceScore.val ∧ ¬ p.reactivationThreshold ≤ score
    else ¬ score < p.suppressionThreshold

lemma inUnit_suppressionThreshold : InUnit p.suppressionThreshold := by
  obtain ⟨hpos, hlt, hone⟩ := p.thresholds
  exact inUnit_of_lt hpos (Double.lt_trans hlt hone)

/-- A scored record gets a decision unless it is unremarkable and keeps its state. -/
lemma exists_decideScored (hscore : InUnit score) :
    (∃ d, p.decideScored s score = .ok d) ↔ ¬ (Unremarkable p s ∧ KeepsState p s score) := by
  have hmake {kind : LifecycleDecisionKind} {x : Double} {reasons : List LifecycleReasonCode}
      (hx : InUnit x) : (∃ d, LifecycleDecision.make s.recordId kind x reasons.eraseDups = .ok d) ↔
        reasons ≠ [] := by
    rw [LifecycleDecision.exists_make hx (nodup_eraseDups _), Ne, eraseDups_eq_nil]
  have hmax := hscore.max (inUnit_suppressionThreshold (p := p))
  unfold LifecyclePolicy.decideScored KeepsState
  dsimp only
  by_cases hsuppressed : s.lifecycleState = .suppressed
  · simp only [if_pos hsuppressed]
    by_cases hreact : s.explicitRelevance ∨ s.unresolved ∨
        p.reactivationThreshold ≤ .finite s.salienceScore.val ∨ p.reactivationThreshold ≤ score
    · rw [if_pos hreact, hmake hscore]
      refine iff_of_true (by simp) ?_
      rintro ⟨-, hrelevant, hresolved, hsalience, hbelow⟩
      rcases hreact with h | h | h | h
      · exact hrelevant h
      · exact hresolved h
      · exact hsalience h
      · exact hbelow h
    · rw [if_neg hreact, hmake hscore, Ne, scoreReasons_eq_nil]
      simp only [not_or] at hreact
      exact not_congr ⟨fun h => ⟨h, hreact⟩, And.left⟩
  · simp only [if_neg hsuppressed]
    by_cases hprotected : s.explicitRelevance ∨ s.unresolved
    · rw [if_pos hprotected, hmake hmax]
      refine iff_of_true ?_ ?_
      · rcases hprotected with h | h <;> simp [reasonIf, h]
      · rintro ⟨-, hrelevant, hresolved, -⟩
        exact hprotected.elim hrelevant hresolved
    · rw [if_neg hprotected]
      rw [not_or] at hprotected
      by_cases hlow : score < p.suppressionThreshold
      · rw [if_pos hlow, hmake hscore]
        exact iff_of_true (by simp) fun h => h.2.2.2 hlow
      · rw [if_neg hlow, hmake hscore, Ne, scoreReasons_eq_nil]
        exact not_congr ⟨fun h => ⟨h, hprotected.1, hprotected.2, hlow⟩, And.left⟩

variable (p m s) in
/-- The evaluation of a record ends with a decision. -/
def Decides : Prop :=
  s.retentionDirective = .keep ∨ InRange p s ∧
    ∀ score, p.score m s = .ok score → ¬ (Unremarkable p s ∧ KeepsState p s score)

lemma exists_evaluate : (∃ d, p.evaluate m s = .ok d) ↔ Decides p m s := by
  unfold LifecyclePolicy.evaluate Decides
  by_cases hkeep : s.retentionDirective = .keep
  · rw [if_pos hkeep]
    refine iff_of_true ?_ (.inl hkeep)
    exact (LifecycleDecision.exists_make inUnit_one (List.nodup_singleton _)).mpr
      (List.cons_ne_nil _ _)
  · rw [if_neg hkeep, or_iff_right hkeep]
    constructor
    · rintro ⟨d, h⟩
      obtain ⟨score, hscore, h⟩ := bind_eq_ok.mp h
      refine ⟨exists_score.mp ⟨score, hscore⟩, fun score' hscore' => ?_⟩
      obtain rfl := Except.ok.inj (hscore.symm.trans hscore')
      exact (exists_decideScored (score_inUnit hscore)).mp ⟨d, h⟩
    · rintro ⟨hrange, hdecides⟩
      obtain ⟨score, hscore⟩ := (exists_score (m := m)).mpr hrange
      obtain ⟨d, h⟩ := (exists_decideScored (score_inUnit hscore)).mpr (hdecides score hscore)
      exact ⟨d, bind_eq_ok.mpr ⟨score, hscore, h⟩⟩

end Scores

end CyberBrain.Lifecycle
