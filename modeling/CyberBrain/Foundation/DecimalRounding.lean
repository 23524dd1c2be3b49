import CyberBrain.Foundation.Double

/-!
# Rounding to decimals

Python's `round(x, digits)`: the decimal nearest to the value, and the double nearest to that. It
keeps the unit interval.
-/

namespace CyberBrain

namespace Binary64

/-- Rounding does not cross a natural number from below. -/
lemma round_le_natCast {n : ℕ} {q : ℚ} (hq : q < 2 ^ 53) (h : q ≤ n) : round q ≤ n := by
  obtain ⟨m, hm⟩ := natCast_div_ulp hq n
  have hle : q / ulp q ≤ m := hm ▸ div_le_div_of_nonneg_right h (ulp_pos q).le
  calc round q = roundEven (q / ulp q) * ulp q := rfl
    _ ≤ m * ulp q :=
      mul_le_mul_of_nonneg_right (by exact_mod_cast roundEven_le hle) (ulp_pos q).le
    _ = n := by rw [← hm, div_mul_cancel₀ _ (ulp_pos q).ne']

end Binary64

namespace Double

/-- A double in the unit interval. -/
def InUnit (x : Double) : Prop := zero ≤ x ∧ x ≤ one

instance (x : Double) : Decidable x.InUnit := inferInstanceAs (Decidable (_ ∧ _))

lemma inUnit_finite {x : Binary64} : InUnit (.finite x) ↔ 0 ≤ x.value ∧ x.value ≤ 1 := by
  rw [InUnit, zero_le_finite, ← Binary64.value_one]
  rfl

lemma InUnit.exists_finite {x : Double} (h : InUnit x) : ∃ y, x = .finite y := by
  obtain ⟨hzero, hone⟩ := h
  cases x with
  | finite x => exact ⟨x, rfl⟩
  | inf neg  =>
    cases neg
    · exact absurd (hone : false = true) (by decide)
    · exact absurd (hzero : true = false) (by decide)
  | nan      => exact hzero.elim

lemma inUnit_rounded {q : ℚ} (hzero : 0 ≤ q) (hone : q ≤ 1) : InUnit (rounded false q) := by
  have hround : Binary64.round q ≤ 1 := by
    exact_mod_cast Binary64.round_le_natCast (n := 1) (by linarith) (by exact_mod_cast hone)
  obtain ⟨x, hx⟩ := Option.isSome_iff_exists.mp
    ((Binary64.nearest_isSome hzero).mpr (hround.trans_lt (one_lt_pow₀ one_lt_two (by decide))) :
      (Binary64.nearest false q).isSome)
  rw [rounded, hx]
  exact inUnit_finite.mpr
    ⟨Binary64.nearest_nonneg hzero hx, (Binary64.nearest_value hx).trans_le hround⟩

/-- `max(0.0, min(1.0, x))` lies in the unit interval. -/
lemma inUnit_clamp (x : Double) : InUnit (zero.max (one.min x)) := by
  have hzero : InUnit zero := by decide +kernel
  have hone : InUnit one := by decide +kernel
  unfold Double.min Double.max
  split_ifs with hlt hpos hpos
  · cases x with
    | finite x =>
      refine inUnit_finite.mpr ⟨?_, ?_⟩
      · have hpos' : Binary64.zero.value < x.value := hpos
        rw [Binary64.value_zero] at hpos'
        exact hpos'.le
      · have hlt' : x.value < Binary64.one.value := hlt
        rw [Binary64.value_one] at hlt'
        exact hlt'.le
    | inf neg  =>
      cases neg
      · exact absurd (hlt : false = true) (by decide)
      · exact absurd (hpos : true = false) (by decide)
    | nan      => exact hlt.elim
  · exact hzero
  · exact hone
  · exact hzero

/-- `round(x, digits)`. -/
def roundDecimal (digits : ℕ) : Double → Double
  | .finite x => rounded x.neg (Binary64.roundEven (|x.value| * 10 ^ digits) / 10 ^ digits)
  | .inf neg  => .inf neg
  | .nan      => .nan

/-- A double that is not negative: its sign bit may be that of the negative zero. -/
lemma inUnit_rounded_zero (neg : Bool) : InUnit (rounded neg 0) := by
  cases neg <;> decide +kernel

/-- Rounding to decimals keeps the unit interval. -/
lemma inUnit_roundDecimal {x : Double} (h : InUnit x) (digits : ℕ) :
    InUnit (roundDecimal digits x) := by
  obtain ⟨x, rfl⟩ := h.exists_finite
  obtain ⟨hzero, hone⟩ := inUnit_finite.mp h
  have hscale : (0 : ℚ) < 10 ^ digits := by positivity
  rw [roundDecimal, abs_of_nonneg hzero]
  rcases hzero.eq_or_lt with heq | hpos
  · have hnone : Binary64.roundEven (0 * 10 ^ digits) = 0 := by
      rw [zero_mul]
      exact_mod_cast Binary64.roundEven_intCast 0
    rw [← heq, hnone, Int.cast_zero, zero_div]
    exact inUnit_rounded_zero _
  · rw [Binary64.neg_of_pos hpos]
    have hlow : (0 : ℤ) ≤ Binary64.roundEven (x.value * 10 ^ digits) :=
      Binary64.le_roundEven (by exact_mod_cast (by positivity))
    have hhigh : Binary64.roundEven (x.value * 10 ^ digits) ≤ (10 ^ digits : ℤ) := by
      refine Binary64.roundEven_le ?_
      push_cast
      exact mul_le_of_le_one_left hscale.le hone
    refine inUnit_rounded (div_nonneg (by exact_mod_cast hlow) hscale.le) ?_
    rw [div_le_one hscale]
    exact_mod_cast hhigh

end Double

end CyberBrain
