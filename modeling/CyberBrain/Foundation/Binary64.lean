import Mathlib.Algebra.Order.Field.Power
import Mathlib.Data.Int.Log
import Mathlib.Data.Rat.Floor
import Mathlib.Tactic.Linarith
import Mathlib.Tactic.NormNum
import Mathlib.Tactic.Positivity
import Mathlib.Tactic.FieldSimp

/-!
# Binary64 numbers

Finite IEEE 754 doubles, their exact rational values, rounding to nearest even on non-negative
rationals, and the floor division that CPython computes on doubles. Arithmetic is exact wherever
the exact result is a natural number below `2 ^ 53`; above that bound the floor division may miss
the true quotient.
-/

namespace CyberBrain

/-- A finite double: a sign and an odd significand scaled by a power of two, or a signed zero. The
form is unique, so equality of the fields is equality of the bit patterns. -/
structure Binary64 where
  neg : Bool
  mant : ℕ
  exp : ℤ
  canonical : (mant = 0 ∧ exp = 0) ∨
    (mant % 2 = 1 ∧ mant < 2 ^ 53 ∧ -1074 ≤ exp ∧ exp + Nat.log 2 mant ≤ 1023)
  deriving DecidableEq

namespace Binary64

lemma zero_canonical : ((0 : ℕ) = 0 ∧ (0 : ℤ) = 0) ∨
    ((0 : ℕ) % 2 = 1 ∧ 0 < 2 ^ 53 ∧ (-1074 : ℤ) ≤ 0 ∧ (0 : ℤ) + Nat.log 2 0 ≤ 1023) :=
  .inl ⟨rfl, rfl⟩

/-- The rational number a double stands for. -/
def value (x : Binary64) : ℚ := (if x.neg then -1 else 1) * (x.mant * 2 ^ x.exp)

/-- The double `0.0`. -/
def zero : Binary64 := ⟨false, 0, 0, zero_canonical⟩

@[simp] lemma value_zero : zero.value = 0 := by simp [value, zero]

lemma value_zero_nonneg : 0 ≤ zero.value := value_zero.ge

lemma value_zero_le_one : zero.value ≤ 1 := value_zero.trans_le zero_le_one

lemma value_zero_mem : 0 ≤ zero.value ∧ zero.value ≤ 1 := ⟨value_zero_nonneg, value_zero_le_one⟩

/-- The double `1.0`. -/
def one : Binary64 := ⟨false, 1, 0, by decide⟩

@[simp] lemma value_one : one.value = 1 := by simp [value, one]

lemma value_one_nonneg : 0 ≤ one.value := value_one.symm ▸ zero_le_one

lemma value_one_le_one : one.value ≤ 1 := value_one.le

/-! ### Rounding -/

/-- The nearest integer, with ties going to the even neighbour. -/
def roundEven (q : ℚ) : ℤ :=
  if q - ⌊q⌋ < 1 / 2 then ⌊q⌋
  else if 1 / 2 < q - ⌊q⌋ then ⌊q⌋ + 1
  else if ⌊q⌋ % 2 = 0 then ⌊q⌋ else ⌊q⌋ + 1

/-- The gap between neighbouring doubles around a positive `q`. -/
def ulp (q : ℚ) : ℚ := 2 ^ max (Int.log 2 q - 52) (-1074)

/-- The double nearest to a non-negative `q`, as a rational. -/
def round (q : ℚ) : ℚ := roundEven (q / ulp q) * ulp q

/-- The value of `float(n)`; an overflow raises. -/
def ofNat? (n : ℕ) : Option ℚ := if round n < 2 ^ 1024 then some (round n) else none

/-- CPython's `x // w` on non-negative doubles: the remainder is exact, the difference and the
quotient are rounded, and the quotient is snapped to an integer. -/
def floorDiv (x w : ℚ) : ℚ :=
  let r := x - w * ⌊x / w⌋
  let d := round (round (x - r) / w)
  if d = 0 then 0 else if 1 / 2 < round (d - ⌊d⌋) then round (⌊d⌋ + 1) else ⌊d⌋

@[simp] lemma roundEven_intCast (n : ℤ) : roundEven n = n := by
  simp [roundEven]

lemma le_roundEven {n : ℤ} {q : ℚ} (h : (n : ℚ) ≤ q) : n ≤ roundEven q := by
  have hfloor : n ≤ ⌊q⌋ := Int.le_floor.mpr h
  unfold roundEven
  split_ifs <;> omega

lemma ulp_pos (q : ℚ) : 0 < ulp q := by unfold ulp; positivity

@[simp] lemma round_zero : round 0 = 0 := by
  have : roundEven 0 = 0 := by exact_mod_cast roundEven_intCast 0
  simp [round, this]

/-- Below `2 ^ 53` the gap divides every natural number. -/
lemma natCast_div_ulp {q : ℚ} (hq : q < 2 ^ 53) (n : ℕ) : ∃ m : ℤ, (n : ℚ) / ulp q = m := by
  have hlog : Int.log 2 q ≤ 52 := by
    rcases le_or_gt q 0 with h | h
    · rw [Int.log_of_right_le_zero 2 h]; norm_num
    · have : Int.log 2 q < 53 := (Int.lt_zpow_iff_log_lt (by norm_num) h).mp (by exact_mod_cast hq)
      omega
  obtain ⟨k, hk⟩ : ∃ k : ℕ, max (Int.log 2 q - 52) (-1074) = -(k : ℤ) :=
    ⟨(-max (Int.log 2 q - 52) (-1074)).toNat, by omega⟩
  refine ⟨n * 2 ^ k, ?_⟩
  rw [ulp, hk, zpow_neg, zpow_natCast]
  push_cast
  field_simp

/-- Natural numbers below `2 ^ 53` are doubles. -/
lemma round_natCast {n : ℕ} (h : n < 2 ^ 53) : round n = n := by
  obtain ⟨m, hm⟩ := natCast_div_ulp (q := n) (by exact_mod_cast h) n
  rw [round, hm, roundEven_intCast, ← hm, div_mul_cancel₀ _ (ulp_pos _).ne']

/-- Rounding does not cross a natural number up to `2 ^ 53`. -/
lemma natCast_le_round {n : ℕ} {q : ℚ} (hn : n ≤ 2 ^ 53) (h : (n : ℚ) ≤ q) : (n : ℚ) ≤ round q := by
  rcases lt_or_ge q (2 ^ 53) with hq | hq
  · obtain ⟨m, hm⟩ := natCast_div_ulp hq n
    have hle : (m : ℚ) ≤ q / ulp q := hm ▸ div_le_div_of_nonneg_right h (ulp_pos q).le
    have := le_roundEven hle
    calc (n : ℚ) = m * ulp q := by rw [← hm, div_mul_cancel₀ _ (ulp_pos q).ne']
      _ ≤ roundEven (q / ulp q) * ulp q := by
        exact mul_le_mul_of_nonneg_right (by exact_mod_cast this) (ulp_pos q).le
  · have hpos : 0 < q := lt_of_lt_of_le (by norm_num) hq
    have hlog : 53 ≤ Int.log 2 q :=
      (Int.zpow_le_iff_le_log (by norm_num) hpos).mp (by exact_mod_cast hq)
    have hulp : ulp q = 2 ^ (Int.log 2 q - 52) := by
      rw [ulp, max_eq_left (by omega)]
    have hself : (2 : ℚ) ^ Int.log 2 q ≤ q := by
      exact_mod_cast Int.zpow_log_le_self (b := 2) (by norm_num) hpos
    have hsplit : (2 : ℚ) ^ Int.log 2 q = 2 ^ (52 : ℤ) * ulp q := by
      rw [hulp, ← zpow_add₀ (by norm_num)]; congr 1; ring
    have hle : ((2 ^ 52 : ℤ) : ℚ) ≤ q / ulp q := by
      rw [le_div_iff₀ (ulp_pos q)]
      calc ((2 ^ 52 : ℤ) : ℚ) * ulp q = 2 ^ Int.log 2 q := by rw [hsplit]; norm_num
        _ ≤ q := hself
    have hround := le_roundEven hle
    calc (n : ℚ) ≤ 2 ^ (53 : ℤ) := by exact_mod_cast hn
      _ ≤ 2 ^ Int.log 2 q := zpow_le_zpow_right₀ (by norm_num) hlog
      _ = ((2 ^ 52 : ℤ) : ℚ) * ulp q := by rw [hsplit]; norm_num
      _ ≤ roundEven (q / ulp q) * ulp q :=
        mul_le_mul_of_nonneg_right (by exact_mod_cast hround) (ulp_pos q).le

/-! ### Floor division below `2 ^ 53` -/

lemma ofNat?_of_lt {n : ℕ} (h : n < 2 ^ 53) : ofNat? n = some (n : ℚ) := by
  have hlt : (n : ℚ) < 2 ^ 1024 := by
    calc (n : ℚ) < 2 ^ 53 := by exact_mod_cast h
      _ ≤ 2 ^ 1024 := pow_le_pow_right₀ (by norm_num) (by norm_num)
  rw [ofNat?, round_natCast h, if_pos hlt]

lemma le_of_ofNat? {n : ℕ} {w : ℚ} (hn : 2 ^ 53 ≤ n) (h : ofNat? n = some w) : 2 ^ 53 ≤ w := by
  unfold ofNat? at h
  split_ifs at h
  cases h
  have := natCast_le_round (n := 2 ^ 53) (q := n) le_rfl (by exact_mod_cast hn)
  exact_mod_cast this

/-- A divisor above the dividend leaves a zero quotient. -/
lemma floorDiv_of_lt {x w : ℚ} (hx : 0 ≤ x) (hxw : x < w) : floorDiv x w = 0 := by
  have hw : 0 < w := lt_of_le_of_lt hx hxw
  have hfloor : ⌊x / w⌋ = 0 :=
    Int.floor_eq_zero_iff.mpr ⟨div_nonneg hx hw.le, (div_lt_one hw).mpr hxw⟩
  simp [floorDiv, hfloor]

/-- The floor division is exact for a dividend below `2 ^ 53`. -/
theorem floorDiv_eq {x w : ℚ} {n : ℕ} (hx : 0 ≤ x) (hlt : x < 2 ^ 53) (hn : 0 < n)
    (hw : ofNat? n = some w) : floorDiv x w = ⌊x / n⌋ := by
  rcases lt_or_ge n (2 ^ 53) with hsmall | hlarge
  · rw [ofNat?_of_lt hsmall] at hw
    cases hw
    have hnpos : (0 : ℚ) < n := by exact_mod_cast hn
    obtain ⟨k, hk⟩ : ∃ k : ℕ, ⌊x / (n : ℚ)⌋ = k :=
      Int.eq_ofNat_of_zero_le (Int.floor_nonneg.mpr (div_nonneg hx hnpos.le))
    have hmul : (n : ℚ) * k ≤ x := by
      have : (k : ℚ) ≤ x / n := by
        have := Int.floor_le (x / (n : ℚ))
        rw [hk] at this
        exact_mod_cast this
      rwa [le_div_iff₀ hnpos, mul_comm] at this
    have hnk : n * k < 2 ^ 53 := by exact_mod_cast lt_of_le_of_lt hmul hlt
    have hk53 : k < 2 ^ 53 := lt_of_le_of_lt (Nat.le_mul_of_pos_left k hn) hnk
    have hdiff : round ((n : ℚ) * k) = n * k := by exact_mod_cast round_natCast hnk
    have hquot : (n : ℚ) * k / n = k := by field_simp
    have hround : round (k : ℚ) = k := round_natCast hk53
    simp only [floorDiv, hk, Int.cast_natCast, sub_sub_cancel, hdiff, hquot, hround,
      Int.floor_natCast, sub_self, round_zero]
    split_ifs with h1 h2
    · exact h1.symm
    · norm_num at h2
    · rfl
  · have hxw : x < w := lt_of_lt_of_le hlt (le_of_ofNat? hlarge hw)
    have hxn : x < n := lt_of_lt_of_le hlt (by exact_mod_cast hlarge)
    have hnpos : (0 : ℚ) < n := lt_of_le_of_lt hx hxn
    have hfloor : ⌊x / (n : ℚ)⌋ = 0 :=
      Int.floor_eq_zero_iff.mpr ⟨div_nonneg hx hnpos.le, (div_lt_one hnpos).mpr hxn⟩
    rw [floorDiv_of_lt hx hxw, hfloor, Int.cast_zero]

end Binary64

end CyberBrain
