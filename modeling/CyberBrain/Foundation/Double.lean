import CyberBrain.Core.Errors
import CyberBrain.Foundation.Binary64
import CyberBrain.Foundation.Except

/-!
# Doubles

IEEE 754 doubles with infinities and a single NaN, compared as IEEE 754 compares them, and the
correctly rounded arithmetic on them. The smaller and the larger of two doubles are those of
Python's `min` and `max`, which keep their first argument unless the second one is strictly beyond
it.
-/

namespace CyberBrain

/-! ### Doubles of a given value -/

namespace Binary64

/-- The exponent of the last place around a positive `q`. -/
def scale (q : ℚ) : ℤ := max (Int.log 2 q - 52) (-1074)

/-- The significand and the exponent with the factors of two moved into the exponent. -/
def reduce : ℕ → ℕ → ℤ → ℕ × ℤ
  | 0, m, e        => (m, e)
  | fuel + 1, m, e => if m % 2 = 0 then reduce fuel (m / 2) (e + 1) else (m, e)

variable {fuel m : ℕ} {e : ℤ} {q : ℚ}

lemma ulp_eq : ulp q = 2 ^ scale q := rfl

lemma reduce_value : ((reduce fuel m e).1 : ℚ) * 2 ^ (reduce fuel m e).2 = m * 2 ^ e := by
  induction fuel generalizing m e with
  | zero => rfl
  | succ fuel ih =>
    rw [reduce]
    split_ifs with heven
    · have hm : (m : ℚ) = (m / 2 : ℕ) * 2 := by
        exact_mod_cast (Nat.div_mul_cancel (Nat.dvd_of_mod_eq_zero heven)).symm
      rw [ih, hm, zpow_add₀ (by norm_num), zpow_one]
      ring
    · rfl

lemma reduce_le : (reduce fuel m e).1 ≤ m ∧ e ≤ (reduce fuel m e).2 := by
  induction fuel generalizing m e with
  | zero => exact ⟨le_rfl, le_rfl⟩
  | succ fuel ih =>
    rw [reduce]
    split_ifs
    · obtain ⟨hm, he⟩ := @ih (m / 2) (e + 1)
      exact ⟨hm.trans (Nat.div_le_self m 2), by omega⟩
    · exact ⟨le_rfl, le_rfl⟩

lemma reduce_odd (hm : m ≠ 0) (hlt : m < 2 ^ fuel) : (reduce fuel m e).1 % 2 = 1 := by
  induction fuel generalizing m e with
  | zero => omega
  | succ fuel ih =>
    rw [reduce]
    split_ifs with heven
    · exact ih (by omega) (by rw [pow_succ] at hlt; omega)
    · omega

/-- A significand and an exponent in range give a double. -/
lemma canonical_reduce (hm : m ≠ 0) (hle : m ≤ 2 ^ 53) (he : -1074 ≤ e)
    (hlt : (m : ℚ) * 2 ^ e < 2 ^ 1024) :
    (reduce 54 m e).1 % 2 = 1 ∧ (reduce 54 m e).1 < 2 ^ 53 ∧ -1074 ≤ (reduce 54 m e).2 ∧
      (reduce 54 m e).2 + Nat.log 2 (reduce 54 m e).1 ≤ 1023 := by
  have hodd : (reduce 54 m e).1 % 2 = 1 := reduce_odd hm (hle.trans_lt (by norm_num))
  have hreduce := @reduce_le 54 m e
  refine ⟨hodd, ?_, he.trans hreduce.2, ?_⟩
  · have hle' := hreduce.1.trans hle
    have hne : (reduce 54 m e).1 ≠ 2 ^ 53 := fun h => by norm_num [h] at hodd
    exact lt_of_le_of_ne hle' hne
  · rw [← @reduce_value 54 m e] at hlt
    generalize reduce 54 m e = r at *
    have hself : (2 : ℚ) ^ (Nat.log 2 r.1 : ℤ) ≤ r.1 := by
      exact_mod_cast Nat.pow_log_le_self 2 (by omega)
    have hpow : (2 : ℚ) ^ ((Nat.log 2 r.1 : ℤ) + r.2) < 2 ^ (1024 : ℤ) := by
      rw [zpow_add₀ (by norm_num)]
      exact (mul_le_mul_of_nonneg_right hself (by positivity)).trans_lt (by exact_mod_cast hlt)
    have := (zpow_lt_zpow_iff_right₀ (by norm_num : (1 : ℚ) < 2)).mp hpow
    omega

lemma neg_of_pos {x : Binary64} (h : 0 < x.value) : x.neg = false := by
  by_contra hneg
  rw [Bool.not_eq_false] at hneg
  rw [value, if_pos hneg, neg_one_mul, neg_pos] at h
  exact absurd h (not_lt.mpr (by positivity))

/-- The zero of a sign. -/
def signedZero (neg : Bool) : Binary64 := ⟨neg, 0, 0, zero_canonical⟩

/-- The double of a sign, a significand and an exponent in range. -/
def ofScaled (neg : Bool) (m : ℕ) (e : ℤ)
    (h : m ≤ 2 ^ 53 ∧ -1074 ≤ e ∧ (m : ℚ) * 2 ^ e < 2 ^ 1024) : Binary64 :=
  if hm : m = 0 then signedZero neg
  else ⟨neg, (reduce 54 m e).1, (reduce 54 m e).2, .inr (canonical_reduce hm h.1 h.2.1 h.2.2)⟩

lemma roundEven_le {n : ℤ} (h : q ≤ n) : roundEven q ≤ n := by
  rcases h.lt_or_eq with hlt | heq
  · have hfloor : ⌊q⌋ < n := Int.floor_lt.mpr hlt
    unfold roundEven
    split_ifs <;> omega
  · rw [heq, roundEven_intCast]

/-- The significand of the double nearest to a non-negative `q`. -/
def significand (q : ℚ) : ℕ := (roundEven (q / ulp q)).toNat

lemma significand_le (q : ℚ) : significand q ≤ 2 ^ 53 := by
  have hlt : q < 2 ^ (Int.log 2 q + 1) := by exact_mod_cast Int.lt_zpow_succ_log_self (by norm_num) q
  have hle : q / ulp q ≤ ((2 ^ 53 : ℤ) : ℚ) := by
    rw [div_le_iff₀ (ulp_pos q)]
    calc q ≤ 2 ^ (53 + scale q) := by
          refine hlt.le.trans (zpow_le_zpow_right₀ (by norm_num) ?_)
          have : Int.log 2 q - 52 ≤ scale q := le_max_left _ _
          omega
      _ = ((2 ^ 53 : ℤ) : ℚ) * ulp q := by
          rw [ulp_eq, zpow_add₀ (by norm_num)]
          norm_num
  have := roundEven_le hle
  unfold significand
  omega

lemma significand_value (hq : 0 ≤ q) : (significand q : ℚ) * 2 ^ scale q = round q := by
  have hnonneg : 0 ≤ roundEven (q / ulp q) :=
    le_roundEven (by exact_mod_cast div_nonneg hq (ulp_pos q).le)
  have hcast : (significand q : ℚ) = roundEven (q / ulp q) := by
    exact_mod_cast Int.toNat_of_nonneg hnonneg
  rw [hcast, round, ulp_eq]

lemma scale_ge (q : ℚ) : -1074 ≤ scale q := le_max_right _ _

/-- The finite double of a sign that is nearest to a magnitude, where there is one. -/
def nearest (neg : Bool) (q : ℚ) : Option Binary64 :=
  if h : 0 ≤ q ∧ round q < 2 ^ 1024 then
    some (ofScaled neg (significand q) (scale q)
      ⟨significand_le q, scale_ge q, (significand_value h.1).trans_lt h.2⟩)
  else none

lemma value_ofScaled {h : m ≤ 2 ^ 53 ∧ -1074 ≤ e ∧ (m : ℚ) * 2 ^ e < 2 ^ 1024} :
    (ofScaled false m e h).value = m * 2 ^ e := by
  unfold ofScaled
  split_ifs with hm
  · simp [signedZero, value, hm]
  · simpa [value] using @reduce_value 54 m e

lemma nearest_value {x : Binary64} (h : nearest false q = some x) : x.value = round q := by
  unfold nearest at h
  split_ifs at h with hq
  cases h
  rw [value_ofScaled, significand_value hq.1]

lemma nearest_nonneg (hq : 0 ≤ q) {x : Binary64} (h : nearest false q = some x) : 0 ≤ x.value := by
  rw [nearest_value h, ← significand_value hq]
  positivity

lemma nearest_isSome {neg : Bool} (hq : 0 ≤ q) :
    (nearest neg q).isSome ↔ round q < 2 ^ 1024 := by
  unfold nearest
  split_ifs with h
  · simpa using h.2
  · simpa [hq] using h

/-! ### Natural numbers in range -/

/-- Rounding does not cross the power of two below a number. -/
lemma zpow_log_le_round (hq : 0 < q) (hlog : -1022 ≤ Int.log 2 q) :
    (2 : ℚ) ^ Int.log 2 q ≤ round q := by
  have hscale : scale q = Int.log 2 q - 52 := max_eq_left (by omega)
  have hself : (2 : ℚ) ^ Int.log 2 q ≤ q := by
    exact_mod_cast Int.zpow_log_le_self (b := 2) (by norm_num) hq
  have hsplit : (2 : ℚ) ^ Int.log 2 q = ((2 ^ 52 : ℤ) : ℚ) * ulp q := by
    rw [ulp_eq, hscale, zpow_sub₀ (by norm_num)]
    norm_num [mul_div_cancel₀]
  rw [hsplit] at hself ⊢
  have hle := le_roundEven ((le_div_iff₀ (ulp_pos q)).mpr hself)
  exact mul_le_mul_of_nonneg_right (by exact_mod_cast hle) (ulp_pos q).le

/-- The last number below the largest power of two whose rounding stays below it is half a place
away from it. -/
lemma roundEven_lt_iff : roundEven q < 2 ^ 53 ↔ q < 2 ^ 53 - 1 / 2 := by
  constructor
  · intro h
    by_contra hge
    rw [not_lt] at hge
    have hfloor : 2 ^ 53 - 1 ≤ ⌊q⌋ := Int.le_floor.mpr (by push_cast; linarith)
    rcases hfloor.lt_or_eq with hlt | heq
    · have : ((2 ^ 53 : ℤ) : ℚ) ≤ q := Int.le_floor.mp (by omega)
      exact absurd (le_roundEven this) (by omega)
    · have hcast : (⌊q⌋ : ℚ) = 2 ^ 53 - 1 := by
        rw [← heq]
        norm_num
      unfold roundEven at h
      split_ifs at h with h1 h2 h3
      · rw [hcast] at h1
        linarith
      · omega
      · omega
      · omega
  · intro h
    unfold roundEven
    have hfloor : ⌊q⌋ ≤ 2 ^ 53 - 1 := by
      have : ⌊q⌋ < 2 ^ 53 := Int.floor_lt.mpr (by push_cast; linarith)
      omega
    have hlast : ⌊q⌋ = 2 ^ 53 - 1 → q - ⌊q⌋ < 1 / 2 := by
      intro heq
      rw [heq]
      push_cast
      linarith
    split_ifs with h1 h2 h3
    · omega
    · have hne : ⌊q⌋ ≠ 2 ^ 53 - 1 := fun heq => h1 (hlast heq)
      omega
    · omega
    · have hne : ⌊q⌋ ≠ 2 ^ 53 - 1 := fun heq => h1 (hlast heq)
      omega

/-- The first natural number that `float` does not convert. -/
def floatLimit : ℕ := 2 ^ 1024 - 2 ^ 970

lemma floatLimit_eq : floatLimit = (2 ^ 54 - 1) * 2 ^ 970 := by
  rw [floatLimit, Nat.sub_mul, ← pow_add, one_mul]

lemma two_pow_lt_floatLimit : 2 ^ 1023 < floatLimit := by
  rw [floatLimit_eq, show 2 ^ 1023 = 2 ^ 53 * 2 ^ 970 by rw [← pow_add]]
  exact Nat.mul_lt_mul_of_pos_right (by norm_num) (by positivity)

lemma floatLimit_lt : floatLimit < 2 ^ 1024 := by
  rw [floatLimit_eq, show 2 ^ 1024 = 2 ^ 54 * 2 ^ 970 by rw [← pow_add]]
  exact Nat.mul_lt_mul_of_pos_right (by norm_num) (by positivity)

/-- The natural numbers that `float` converts. -/
lemma nearest_natCast_isSome {neg : Bool} {n : ℕ} :
    (nearest neg n).isSome ↔ n < floatLimit := by
  rw [nearest_isSome (Nat.cast_nonneg n)]
  rcases Nat.eq_zero_or_pos n with rfl | hpos
  · refine iff_of_true ?_ ((by positivity : 0 < 2 ^ 1023).trans two_pow_lt_floatLimit)
    rw [Nat.cast_zero, round_zero]
    positivity
  have hq : (0 : ℚ) < n := by exact_mod_cast hpos
  rcases lt_trichotomy (Int.log 2 (n : ℚ)) 1023 with hlt | heq | hgt
  · have hn : n < 2 ^ 1023 := by
      exact_mod_cast (Int.lt_zpow_iff_log_lt (b := 2) (by norm_num) hq).mpr hlt
    refine iff_of_true ?_ (hn.trans two_pow_lt_floatLimit)
    have hscale : scale (n : ℚ) ≤ 970 := max_le (by omega) (by norm_num)
    rw [← significand_value hq.le]
    calc (significand n : ℚ) * 2 ^ scale (n : ℚ) ≤ 2 ^ 53 * 2 ^ (970 : ℤ) :=
          mul_le_mul (by exact_mod_cast significand_le n)
            (zpow_le_zpow_right₀ (by norm_num) hscale) (by positivity) (by positivity)
      _ = 2 ^ 1023 := by rw [zpow_ofNat, ← pow_add]
      _ < 2 ^ 1024 := pow_lt_pow_right₀ (by norm_num) (by norm_num)
  · -- here the place of the last digit is `2 ^ 971`
    have hulp : ulp (n : ℚ) = 2 ^ 971 := by
      rw [ulp_eq, scale, heq]
      rfl
    have hround : round n < 2 ^ 1024 ↔ roundEven ((n : ℚ) / ulp n) < 2 ^ 53 := by
      have hpow : (2 : ℚ) ^ 1024 = 2 ^ 53 * 2 ^ 971 := by rw [← pow_add]
      rw [round, hulp, hpow, mul_lt_mul_iff_left₀ (by positivity)]
      exact_mod_cast Iff.rfl
    have hlimit : ((2 : ℚ) ^ 53 - 1 / 2) * 2 ^ 971 = (floatLimit : ℕ) := by
      have hdouble : (2 : ℚ) ^ 971 = 2 * 2 ^ 970 := pow_succ' 2 970
      rw [hdouble, floatLimit_eq, Nat.cast_mul, Nat.cast_pow, Nat.cast_ofNat, ← mul_assoc]
      congr 1
      norm_num
    rw [hround, roundEven_lt_iff, hulp, div_lt_iff₀ (by positivity), hlimit]
    exact_mod_cast Iff.rfl
  · have hlarge : (2 : ℚ) ^ (1024 : ℤ) ≤ 2 ^ Int.log 2 (n : ℚ) :=
      zpow_le_zpow_right₀ (by norm_num) (by omega)
    have hround := hlarge.trans (zpow_log_le_round hq (by omega))
    have hself : (2 : ℚ) ^ Int.log 2 (n : ℚ) ≤ n := by
      exact_mod_cast Int.zpow_log_le_self (b := 2) (by norm_num) hq
    have hn : 2 ^ 1024 ≤ n := by exact_mod_cast hlarge.trans hself
    refine iff_of_false (not_lt.mpr (by exact_mod_cast hround)) ?_
    exact not_lt.mpr (floatLimit_lt.le.trans hn)

end Binary64

/-! ### Doubles -/

/-- A double, with the infinities and a NaN. -/
inductive Double
  | finite (x : Binary64)
  | inf (neg : Bool)
  | nan
  deriving DecidableEq

namespace Double

def zero : Double := .finite .zero

def one : Double := .finite .one

/-- `x < y`. -/
def Less : Double → Double → Prop
  | .finite x, .finite y => x.value < y.value
  | .finite _, .inf neg  => neg = false
  | .inf neg, .finite _  => neg = true
  | .inf neg, .inf neg'  => neg = true ∧ neg' = false
  | .nan, _              => False
  | _, .nan              => False

/-- `x <= y`. -/
def AtMost : Double → Double → Prop
  | .finite x, .finite y => x.value ≤ y.value
  | .finite _, .inf neg  => neg = false
  | .inf neg, .finite _  => neg = true
  | .inf neg, .inf neg'  => neg = true ∨ neg' = false
  | .nan, _              => False
  | _, .nan              => False

instance : LT Double := ⟨Less⟩

instance : LE Double := ⟨AtMost⟩

instance (x y : Double) : Decidable (x < y) :=
  match x, y with
  | .finite x, .finite y => inferInstanceAs (Decidable (x.value < y.value))
  | .finite _, .inf neg  => inferInstanceAs (Decidable (neg = false))
  | .inf neg, .finite _  => inferInstanceAs (Decidable (neg = true))
  | .inf neg, .inf neg'  => inferInstanceAs (Decidable (neg = true ∧ neg' = false))
  | .nan, .finite _      => .isFalse id
  | .nan, .inf _         => .isFalse id
  | .nan, .nan           => .isFalse id
  | .finite _, .nan      => .isFalse id
  | .inf _, .nan         => .isFalse id

instance (x y : Double) : Decidable (x ≤ y) :=
  match x, y with
  | .finite x, .finite y => inferInstanceAs (Decidable (x.value ≤ y.value))
  | .finite _, .inf neg  => inferInstanceAs (Decidable (neg = false))
  | .inf neg, .finite _  => inferInstanceAs (Decidable (neg = true))
  | .inf neg, .inf neg'  => inferInstanceAs (Decidable (neg = true ∨ neg' = false))
  | .nan, .finite _      => .isFalse id
  | .nan, .inf _         => .isFalse id
  | .nan, .nan           => .isFalse id
  | .finite _, .nan      => .isFalse id
  | .inf _, .nan         => .isFalse id

lemma lt_def {x y : Double} : x < y ↔ Less x y := Iff.rfl

lemma le_def {x y : Double} : x ≤ y ↔ AtMost x y := Iff.rfl

lemma lt_trans {x y z : Double} (h : x < y) (h' : y < z) : x < z := by
  rw [lt_def] at *
  cases x <;> cases y <;> cases z <;> simp only [Less] at *
  case finite.finite.finite => exact h.trans h'
  all_goals simp_all

lemma lt_irrefl (x : Double) : ¬ x < x := by
  rw [lt_def]
  cases x <;> simp [Less]

lemma le_trans_lt {x y z : Double} (h : x ≤ y) (h' : y < z) : x < z := by
  rw [lt_def] at *
  rw [le_def] at h
  cases x <;> cases y <;> cases z <;> simp only [Less, AtMost] at *
  case finite.finite.finite => exact lt_of_le_of_lt h h'
  all_goals simp_all

/-- `min(x, y)`. -/
def min (x y : Double) : Double := if y < x then y else x

/-- `max(x, y)`. -/
def max (x y : Double) : Double := if x < y then y else x

/-- The double nearest to a signed magnitude; what is too large for a finite one is infinite. -/
def rounded (neg : Bool) (q : ℚ) : Double :=
  match Binary64.nearest neg q with
  | some x => .finite x
  | none   => .inf neg

/-- The double of a decimal literal. -/
def literal (q : ℚ) : Double := rounded (q < 0) |q|

def opposite : Double → Double
  | .finite x => .finite ⟨!x.neg, x.mant, x.exp, x.canonical⟩
  | .inf neg  => .inf !neg
  | .nan      => .nan

/-- `x + y`. -/
def add : Double → Double → Double
  | .finite x, .finite y =>
    if x.value + y.value = 0 then .finite (.signedZero (x.neg && y.neg))
    else rounded (x.value + y.value < 0) |x.value + y.value|
  | .finite _, .inf neg  => .inf neg
  | .inf neg, .finite _  => .inf neg
  | .inf neg, .inf neg'  => if neg = neg' then .inf neg else .nan
  | .nan, _              => .nan
  | _, .nan              => .nan

/-- `x - y`. -/
def sub (x y : Double) : Double := x.add y.opposite

/-- `x * y`. -/
def mul : Double → Double → Double
  | .finite x, .finite y => rounded (x.neg ^^ y.neg) |x.value * y.value|
  | .finite x, .inf neg  => if x.value = 0 then .nan else .inf (x.neg ^^ neg)
  | .inf neg, .finite y  => if y.value = 0 then .nan else .inf (neg ^^ y.neg)
  | .inf neg, .inf neg'  => .inf (neg ^^ neg')
  | .nan, _              => .nan
  | _, .nan              => .nan

/-- `x / y` for a `y` that is not zero. -/
def quotient : Double → Double → Double
  | .finite x, .finite y => rounded (x.neg ^^ y.neg) |x.value / y.value|
  | .finite x, .inf neg  => .finite (.signedZero (x.neg ^^ neg))
  | .inf neg, .finite y  => .inf (neg ^^ y.neg)
  | .inf _, .inf _       => .nan
  | .nan, _              => .nan
  | _, .nan              => .nan

def IsZero : Double → Prop
  | .finite x => x.value = 0
  | _         => False

instance (x : Double) : Decidable x.IsZero :=
  match x with
  | .finite x => inferInstanceAs (Decidable (x.value = 0))
  | .inf _    => .isFalse id
  | .nan      => .isFalse id

lemma rounded_one : rounded false 1 = .one := by decide +kernel

lemma zero_le_rounded {q : ℚ} (hq : 0 ≤ q) : zero ≤ rounded false q := by
  unfold rounded
  cases h : Binary64.nearest false q with
  | none => rfl
  | some x =>
    have hvalue := Binary64.nearest_nonneg hq h
    rw [← Binary64.value_zero] at hvalue
    exact hvalue

lemma zero_le_quotient {x y : Binary64} (hx : 0 < x.value) (hy : 0 < y.value) :
    zero ≤ (finite x).quotient (.finite y) := by
  rw [quotient, Binary64.neg_of_pos hx, Binary64.neg_of_pos hy]
  exact zero_le_rounded (abs_nonneg _)

lemma quotient_self {x : Binary64} (hx : 0 < x.value) : (finite x).quotient (.finite x) = .one := by
  rw [quotient, div_self hx.ne', abs_one, Bool.xor_self, rounded_one]

/-- `x / y`. -/
def div (x y : Double) : Except Exc Double := do
  require (¬ y.IsZero) (.zeroDivisionError "float division by zero")
  pure (x.quotient y)

/-- `float(n)` of a natural number. -/
def ofNat (n : ℕ) : Except Exc Double := do
  let x ← orRaise (Binary64.nearest false n) (.overflowError "int too large to convert to float")
  pure (.finite x)

instance : Add Double := ⟨add⟩

instance : Sub Double := ⟨sub⟩

instance : Mul Double := ⟨mul⟩

/-! ### Sums of numbers that are not negative -/

lemma one_le_rounded {q : ℚ} (hq : 1 ≤ q) : one ≤ rounded false q := by
  unfold rounded
  cases h : Binary64.nearest false q with
  | none => rfl
  | some x =>
    have hvalue : 1 ≤ x.value := by
      rw [Binary64.nearest_value h]
      exact_mod_cast Binary64.natCast_le_round (n := 1) (by norm_num) (by exact_mod_cast hq)
    rw [← Binary64.value_one] at hvalue
    exact hvalue

lemma zero_le_finite {x : Binary64} : zero ≤ finite x ↔ 0 ≤ x.value := by
  rw [← Binary64.value_zero]
  rfl

lemma one_le_finite {x : Binary64} : one ≤ finite x ↔ 1 ≤ x.value := by
  rw [← Binary64.value_one]
  rfl

lemma add_finite_of_pos {x y : Binary64} (h : 0 < x.value + y.value) :
    finite x + finite y = rounded false (x.value + y.value) := by
  have hneg : decide (x.value + y.value < 0) = false := decide_eq_false (not_lt.mpr h.le)
  have hadd : finite x + finite y = if x.value + y.value = 0 then
      finite (.signedZero (x.neg && y.neg))
      else rounded (x.value + y.value < 0) |x.value + y.value| := rfl
  rw [hadd, if_neg h.ne', hneg, abs_of_pos h]

lemma one_le_add {x y : Double} (hx : zero ≤ x) (hy : zero ≤ y) (h : one ≤ x ∨ one ≤ y) :
    one ≤ x + y := by
  cases x <;> cases y
  case finite.finite x y =>
    rw [zero_le_finite] at hx hy
    rw [one_le_finite, one_le_finite] at h
    have hsum : 1 ≤ x.value + y.value := by rcases h with h | h <;> linarith
    rw [add_finite_of_pos (by linarith)]
    exact one_le_rounded hsum
  case inf.inf neg neg' =>
    obtain rfl : neg = false := hx
    obtain rfl : neg' = false := hy
    rfl
  all_goals first | exact hx.elim | exact hy.elim | exact hx | exact hy

lemma zero_le_add {x y : Double} (hx : zero ≤ x) (hy : zero ≤ y) : zero ≤ x + y := by
  cases x <;> cases y
  case finite.finite x y =>
    rw [zero_le_finite] at hx hy
    rcases (add_nonneg hx hy).eq_or_lt with hzero | hpos
    · have hadd : finite x + finite y = finite (.signedZero (x.neg && y.neg)) := if_pos hzero.symm
      rw [hadd, zero_le_finite]
      simp [Binary64.signedZero, Binary64.value]
    · rw [add_finite_of_pos hpos]
      exact zero_le_rounded hpos.le
  case inf.inf neg neg' =>
    obtain rfl : neg = false := hx
    obtain rfl : neg' = false := hy
    rfl
  all_goals first | exact hx.elim | exact hy.elim | exact hx | exact hy

end Double

end CyberBrain
