import CyberBrain.Foundation.Digits
import Mathlib.Data.String.Basic
import Mathlib.Order.Basic

/-!
# Instants and their ISO form

An aware datetime is compared and stored by its instant in UTC. Instants are counted in
microseconds from the start of year 1, as far as the end of year 9999. `iso` prints the calendar
form that Python's `isoformat` gives to a UTC datetime.
-/

namespace CyberBrain

/-- The number of microseconds in the years 1 to 9999. -/
def instantLimit : ℕ := 3652059 * 86400 * 1000000

/-- An instant, in microseconds since `0001-01-01T00:00:00+00:00`. -/
@[ext] structure Instant where
  micros : ℕ
  lt_limit : micros < instantLimit
  deriving DecidableEq

namespace Instant

instance : LE Instant := ⟨fun a b => a.micros ≤ b.micros⟩

instance : LT Instant := ⟨fun a b => a.micros < b.micros⟩

instance (a b : Instant) : Decidable (a ≤ b) := inferInstanceAs (Decidable (a.micros ≤ b.micros))

instance (a b : Instant) : Decidable (a < b) := inferInstanceAs (Decidable (a.micros < b.micros))

/-- The instant of a number of microseconds within the calendar. -/
def ofMicros (n : ℕ) : Instant := ⟨n % instantLimit, Nat.mod_lt _ (by decide)⟩

/-- `datetime + timedelta`, which fails outside the calendar. -/
def add? (a : Instant) (delta : ℤ) : Option Instant :=
  let n := a.micros + delta
  if h : 0 ≤ n ∧ n.toNat < instantLimit then some ⟨n.toNat, h.2⟩ else none

lemma lt_of_add? {a b : Instant} {delta : ℤ} (h : a.add? delta = some b) (hpos : 0 < delta) :
    a < b := by
  simp only [add?] at h
  split_ifs at h with hrange
  cases h
  show a.micros < (a.micros + delta).toNat
  omega

/-! ### Calendar -/

/-- The days before each month of a common year; months count from 1. -/
def daysBeforeMonth : ℕ → ℕ
  | 1  => 0   | 2  => 31  | 3  => 59  | 4  => 90
  | 5  => 120 | 6  => 151 | 7  => 181 | 8  => 212
  | 9  => 243 | 10 => 273 | 11 => 304 | _  => 334

/-- The days before a month, with the leap day. -/
def daysBefore (month : ℕ) (leap : Bool) : ℕ :=
  daysBeforeMonth month + if 2 < month ∧ leap then 1 else 0

/-- The year, month and day of a day counted from `0001-01-01`, as `_ord2ymd` finds them: whole
cycles of 400, 100, 4 and 1 years, then an estimate of the month that is at most one too large. -/
def civil (days : ℕ) : ℕ × ℕ × ℕ :=
  let n400 := days / 146097
  let n := days % 146097
  let n100 := n / 36524
  let n := n % 36524
  let n4 := n / 1461
  let n := n % 1461
  let n1 := n / 365
  let n := n % 365
  let year := n400 * 400 + 1 + n100 * 100 + n4 * 4 + n1
  if n1 = 4 ∨ n100 = 4 then (year - 1, 12, 31)
  else
    let leap := n1 = 3 ∧ (n4 ≠ 24 ∨ n100 = 3)
    let month := (n + 50) / 32
    let month := if n < daysBefore month leap then month - 1 else month
    (year, month, n - daysBefore month leap + 1)

/-- The date and time of an instant, up to its zone. -/
def isoChars (a : Instant) : List Char :=
  let seconds := a.micros / 1000000
  let micros := a.micros % 1000000
  let (year, month, day) := civil (seconds / 86400)
  let second := seconds % 86400
  let padded := fixedDigits 10
  padded 4 year ++ '-' :: padded 2 month ++ '-' :: padded 2 day ++
    'T' :: padded 2 (second / 3600) ++ ':' :: padded 2 (second / 60 % 60) ++
    ':' :: padded 2 (second % 60) ++ (if micros = 0 then [] else '.' :: padded 6 micros)

/-- `datetime.isoformat` in UTC. -/
def iso (a : Instant) : String := String.ofList (a.isoChars ++ ['+', '0', '0', ':', '0', '0'])

/-- The form in which pydantic dumps a UTC datetime to JSON. -/
def jsonText (a : Instant) : String := String.ofList (a.isoChars ++ ['Z'])

example : (⟨63902822399000001, by decide⟩ : Instant).iso = "2025-12-31T23:59:59.000001+00:00" := by
  decide +kernel

/-! ### Dates tell instants apart -/

def isLeap (year : ℕ) : Bool := year % 4 = 0 ∧ (year % 100 ≠ 0 ∨ year % 400 = 0)

/-- The day of a date, counted from `0001-01-01`. -/
def ordinal (date : ℕ × ℕ × ℕ) : ℕ :=
  let years := date.1 - 1
  years * 365 + years / 4 - years / 100 + years / 400 +
    daysBefore date.2.1 (isLeap date.1) + date.2.2 - 1

/-- The month found for a day of the year, which falls into it. -/
lemma month_spec {n : ℕ} (leap : Bool) (h : n < 365 + leap.toNat) :
    let month := (n + 50) / 32
    let month := if n < daysBefore month leap then month - 1 else month
    daysBefore month leap ≤ n ∧ month < 100 ∧ n - daysBefore month leap + 1 < 100 := by
  have hall : ∀ leap : Bool, ∀ n < 366, n < 365 + leap.toNat →
      let month := (n + 50) / 32
      let month := if n < daysBefore month leap then month - 1 else month
      daysBefore month leap ≤ n ∧ month < 100 ∧ n - daysBefore month leap + 1 < 100 := by
    decide +kernel
  exact hall leap n (by cases leap <;> simp at h <;> omega) h

/-- Whether the year `n400 * 400 + 1 + n100 * 100 + n4 * 4 + n1` is a leap year. -/
lemma isLeap_cycles {n400 n100 n4 n1 : ℕ} (h100 : n100 ≤ 3) (h4 : n4 ≤ 24) (h1 : n1 ≤ 3) :
    isLeap (n400 * 400 + 1 + n100 * 100 + n4 * 4 + n1) =
      decide (n1 = 3 ∧ (n4 ≠ 24 ∨ n100 = 3)) := by
  obtain ⟨y, hy⟩ : ∃ y, y = n400 * 400 + n100 * 100 + n4 * 4 + n1 := ⟨_, rfl⟩
  have hyear : n400 * 400 + 1 + n100 * 100 + n4 * 4 + n1 = y + 1 := by omega
  have hmod4 : (y + 1) % 4 = 0 ↔ n1 = 3 := by omega
  have hmod100 : (y + 1) % 100 = 0 ↔ n4 = 24 ∧ n1 = 3 := by omega
  have hmod400 : (y + 1) % 400 = 0 ↔ n100 = 3 ∧ n4 = 24 ∧ n1 = 3 := by omega
  rw [hyear]
  simp only [isLeap, hmod4, ne_eq, hmod100, hmod400]
  by_cases h1 : n1 = 3 <;> by_cases h4 : n4 = 24 <;> simp [h1, h4]

/-- The day of a date in the year that follows whole cycles of 400, 100, 4 and 1 years. -/
lemma ordinal_cycles {n400 n100 n4 n1 : ℕ} (h100 : n100 ≤ 3) (h4 : n4 ≤ 24) (h1 : n1 ≤ 3)
    (month day : ℕ) :
    ordinal (n400 * 400 + 1 + n100 * 100 + n4 * 4 + n1, month, day) =
      n400 * 146097 + n100 * 36524 + n4 * 1461 + n1 * 365 +
        daysBefore month (decide (n1 = 3 ∧ (n4 ≠ 24 ∨ n100 = 3))) + day - 1 := by
  obtain ⟨y, hy⟩ : ∃ y, y = n400 * 400 + n100 * 100 + n4 * 4 + n1 := ⟨_, rfl⟩
  have hyear : n400 * 400 + 1 + n100 * 100 + n4 * 4 + n1 = y + 1 := by omega
  have hdiv4 : y / 4 = n400 * 100 + n100 * 25 + n4 := by omega
  have hdiv100 : y / 100 = n400 * 4 + n100 := by omega
  have hdiv400 : y / 400 = n400 := by omega
  have hleap : isLeap (n400 * 400 + 1 + n100 * 100 + n4 * 4 + n1) =
      decide (n1 = 3 ∧ (n4 ≠ 24 ∨ n100 = 3)) := isLeap_cycles h100 h4 h1
  rw [hyear] at hleap ⊢
  rw [ordinal, hleap]
  dsimp only
  rw [Nat.add_sub_cancel, hdiv4, hdiv100, hdiv400, hy]
  generalize daysBefore month _ = before
  omega

/-- The day is found again from the date. -/
theorem ordinal_civil (days : ℕ) : ordinal (civil days) = days := by
  obtain ⟨n400, h400⟩ : ∃ n, n = days / 146097 := ⟨_, rfl⟩
  obtain ⟨n100, h100⟩ : ∃ n, n = days % 146097 / 36524 := ⟨_, rfl⟩
  obtain ⟨n4, h4⟩ : ∃ n, n = days % 146097 % 36524 / 1461 := ⟨_, rfl⟩
  obtain ⟨n1, h1⟩ : ∃ n, n = days % 146097 % 36524 % 1461 / 365 := ⟨_, rfl⟩
  obtain ⟨n, hn⟩ : ∃ n, n = days % 146097 % 36524 % 1461 % 365 := ⟨_, rfl⟩
  have hdays : days = n400 * 146097 + n100 * 36524 + n4 * 1461 + n1 * 365 + n := by omega
  simp only [civil, ← h400, ← h100, ← h4, ← h1, ← hn]
  split_ifs with hspecial hmonth
  · -- the last day of a cycle of 400 or of 4 years, which is a leap day
    have hn4 : n4 ≤ 23 ∨ n100 = 4 := by omega
    by_cases hlast : n100 = 4
    · have hrest : n4 = 0 ∧ n1 = 0 ∧ n = 0 := by omega
      have hyear : n400 * 400 + 1 + n100 * 100 + n4 * 4 + n1 - 1 =
          n400 * 400 + 1 + 3 * 100 + 24 * 4 + 3 := by omega
      have hbefore : daysBefore 12 (decide (3 = 3 ∧ (24 ≠ 24 ∨ 3 = 3))) = 335 := by decide
      rw [hyear, ordinal_cycles (by decide) (by decide) (by decide), hbefore]
      clear h400 h100 h4 h1 hn hyear hbefore
      omega
    · have hn1 : n1 = 4 ∧ n = 0 := by omega
      have hyear : n400 * 400 + 1 + n100 * 100 + n4 * 4 + n1 - 1 =
          n400 * 400 + 1 + n100 * 100 + n4 * 4 + 3 := by omega
      have hne : n4 ≠ 24 := by omega
      have hbefore : daysBefore 12 (decide (3 = 3 ∧ (n4 ≠ 24 ∨ n100 = 3))) = 335 := by
        simp [daysBefore, daysBeforeMonth, hne]
      rw [hyear, ordinal_cycles (by omega) (by omega) (by decide), hbefore]
      clear h400 h100 h4 h1 hn hyear hbefore
      omega
  all_goals
    obtain ⟨hbefore, -, -⟩ := month_spec (n := n)
      (decide (n1 = 3 ∧ (n4 ≠ 24 ∨ n100 = 3))) (by omega)
    simp only [hmonth, if_true, if_false] at hbefore
    rw [ordinal_cycles (by omega) (by omega) (by omega)]
    omega

/-- The fields of a date fit their columns. -/
lemma civil_bounds (days : ℕ) (h : days < 3652059) :
    (civil days).1 < 10 ^ 4 ∧ (civil days).2.1 < 10 ^ 2 ∧ (civil days).2.2 < 10 ^ 2 := by
  obtain ⟨n400, h400⟩ : ∃ n, n = days / 146097 := ⟨_, rfl⟩
  obtain ⟨n100, h100⟩ : ∃ n, n = days % 146097 / 36524 := ⟨_, rfl⟩
  obtain ⟨n4, h4⟩ : ∃ n, n = days % 146097 % 36524 / 1461 := ⟨_, rfl⟩
  obtain ⟨n1, h1⟩ : ∃ n, n = days % 146097 % 36524 % 1461 / 365 := ⟨_, rfl⟩
  obtain ⟨n, hn⟩ : ∃ n, n = days % 146097 % 36524 % 1461 % 365 := ⟨_, rfl⟩
  simp only [civil, ← h400, ← h100, ← h4, ← h1, ← hn]
  split_ifs with hspecial
  · exact ⟨by omega, (by decide : 12 < 10 ^ 2), (by decide : 31 < 10 ^ 2)⟩
  all_goals
    obtain ⟨-, hmonth, hday⟩ := month_spec (n := n)
      (decide (n1 = 3 ∧ (n4 ≠ 24 ∨ n100 = 3))) (by omega)
    simp_all only [if_true, if_false]
    exact ⟨by omega, hmonth, hday⟩

theorem isoChars_injective : Function.Injective isoChars := by
  intro a b h
  have ha := a.lt_limit
  have hb := b.lt_limit
  simp only [instantLimit] at ha hb
  obtain ⟨hay, ham, had⟩ := civil_bounds (a.micros / 1000000 / 86400) (by omega)
  obtain ⟨hby, hbm, hbd⟩ := civil_bounds (b.micros / 1000000 / 86400) (by omega)
  simp only [isoChars, List.append_assoc, List.cons_append] at h
  have hlen : ∀ width m n, (fixedDigits 10 width m).length = (fixedDigits 10 width n).length :=
    fun width m n => by simp
  obtain ⟨hyear, h⟩ := List.append_inj h (hlen _ _ _)
  obtain ⟨hmonth, h⟩ := List.append_inj (List.cons.inj h).2 (hlen _ _ _)
  obtain ⟨hday, h⟩ := List.append_inj (List.cons.inj h).2 (hlen _ _ _)
  obtain ⟨hhour, h⟩ := List.append_inj (List.cons.inj h).2 (hlen _ _ _)
  obtain ⟨hminute, h⟩ := List.append_inj (List.cons.inj h).2 (hlen _ _ _)
  obtain ⟨hsecond, h⟩ := List.append_inj (List.cons.inj h).2 (hlen _ _ _)
  have hdate : civil (a.micros / 1000000 / 86400) = civil (b.micros / 1000000 / 86400) :=
    Prod.ext (fixedDigits_injective (by decide) (by decide) hay hby hyear)
      (Prod.ext (fixedDigits_injective (by decide) (by decide) ham hbm hmonth)
        (fixedDigits_injective (by decide) (by decide) had hbd hday))
  have hdays : a.micros / 1000000 / 86400 = b.micros / 1000000 / 86400 := by
    rw [← ordinal_civil (a.micros / 1000000 / 86400), hdate, ordinal_civil]
  have hhours := fixedDigits_injective (by decide) (by decide) (by omega) (by omega) hhour
  have hminutes := fixedDigits_injective (by decide) (by decide) (by omega) (by omega) hminute
  have hseconds := fixedDigits_injective (by decide) (by decide) (by omega) (by omega) hsecond
  have hmicros : a.micros % 1000000 = b.micros % 1000000 := by
    split_ifs at h with h0 h0'
    · rw [h0, h0']
    · exact fixedDigits_injective (by decide) (by decide) (by omega) (by omega)
        (List.cons.inj h).2
  exact Instant.ext (by omega)

lemma jsonText_injective : Function.Injective jsonText := fun a b h => by
  have := String.ofList_injective h
  exact isoChars_injective (List.append_inj_left' this rfl)

/-! ### Texts are ordered as their instants -/

/-- The days up to the end of a month. -/
def daysThrough (month : ℕ) (leap : Bool) : ℕ :=
  if month < 12 then daysBefore (month + 1) leap else 365 + leap.toNat

/-- A date of the calendar. -/
structure IsDate (year month day : ℕ) : Prop where
  year_pos : 1 ≤ year
  month_pos : 1 ≤ month
  month_le : month ≤ 12
  day_pos : 1 ≤ day
  day_le : daysBefore month (isLeap year) + day ≤ daysThrough month (isLeap year)

/-- The month found for a day of the year is the one that it falls into. -/
lemma month_isMonth {n : ℕ} (leap : Bool) (h : n < 365 + leap.toNat) :
    let month := (n + 50) / 32
    let month := if n < daysBefore month leap then month - 1 else month
    1 ≤ month ∧ month ≤ 12 ∧ n < daysThrough month leap := by
  have hall : ∀ leap : Bool, ∀ n < 366, n < 365 + leap.toNat →
      let month := (n + 50) / 32
      let month := if n < daysBefore month leap then month - 1 else month
      1 ≤ month ∧ month ≤ 12 ∧ n < daysThrough month leap := by
    decide +kernel
  exact hall leap n (by cases leap <;> simp at h <;> omega) h

lemma daysThrough_le_daysBefore {month month' : ℕ} (leap : Bool) (hpos : 1 ≤ month)
    (h : month < month') (hle : month' ≤ 12) :
    daysThrough month leap ≤ daysBefore month' leap := by
  have hall : ∀ leap : Bool, ∀ month' < 13, ∀ month < month', 1 ≤ month →
      daysThrough month leap ≤ daysBefore month' leap := by decide
  exact hall leap month' (by omega) month h hpos

lemma daysThrough_le_year {month : ℕ} (leap : Bool) (hle : month ≤ 12) :
    daysThrough month leap ≤ 365 + leap.toNat := by
  have hall : ∀ leap : Bool, ∀ month < 13, daysThrough month leap ≤ 365 + leap.toNat := by decide
  exact hall leap month (by omega)

lemma isDate_civil (days : ℕ) : IsDate (civil days).1 (civil days).2.1 (civil days).2.2 := by
  obtain ⟨n400, h400⟩ : ∃ n, n = days / 146097 := ⟨_, rfl⟩
  obtain ⟨n100, h100⟩ : ∃ n, n = days % 146097 / 36524 := ⟨_, rfl⟩
  obtain ⟨n4, h4⟩ : ∃ n, n = days % 146097 % 36524 / 1461 := ⟨_, rfl⟩
  obtain ⟨n1, h1⟩ : ∃ n, n = days % 146097 % 36524 % 1461 / 365 := ⟨_, rfl⟩
  obtain ⟨n, hn⟩ : ∃ n, n = days % 146097 % 36524 % 1461 % 365 := ⟨_, rfl⟩
  simp only [civil, ← h400, ← h100, ← h4, ← h1, ← hn]
  split_ifs with hspecial hmonth
  · -- the last day of a leap year
    have hleap : isLeap (n400 * 400 + 1 + n100 * 100 + n4 * 4 + n1 - 1) = true := by
      have hn4 : n4 ≤ 23 ∨ n100 = 4 := by omega
      by_cases hlast : n100 = 4
      · have hyear : n400 * 400 + 1 + n100 * 100 + n4 * 4 + n1 - 1 =
            n400 * 400 + 1 + 3 * 100 + 24 * 4 + 3 := by omega
        rw [hyear, isLeap_cycles (by decide) (by decide) (by decide)]
        rfl
      · have hyear : n400 * 400 + 1 + n100 * 100 + n4 * 4 + n1 - 1 =
            n400 * 400 + 1 + n100 * 100 + n4 * 4 + 3 := by omega
        have hne : n4 ≠ 24 := by omega
        rw [hyear, isLeap_cycles (by omega) (by omega) (by decide)]
        simp [hne]
    refine ⟨by dsimp only; omega, (by decide : 1 ≤ 12), (by decide : 12 ≤ 12),
      (by decide : 1 ≤ 31), ?_⟩
    dsimp only
    rw [hleap]
    decide
  all_goals
    obtain ⟨hbefore, -, -⟩ := month_spec (n := n)
      (decide (n1 = 3 ∧ (n4 ≠ 24 ∨ n100 = 3))) (by omega)
    obtain ⟨hpos, hle, hthrough⟩ := month_isMonth (n := n)
      (decide (n1 = 3 ∧ (n4 ≠ 24 ∨ n100 = 3))) (by omega)
    simp only [hmonth, if_true, if_false] at hbefore hpos hle hthrough
    refine ⟨by dsimp only; omega, hpos, hle, by dsimp only; omega, ?_⟩
    dsimp only
    rw [isLeap_cycles (by omega) (by omega) (by omega)]
    omega

/-- The first day of the next year. -/
lemma ordinal_newYear {year : ℕ} (h : 1 ≤ year) :
    ordinal (year + 1, 1, 1) = ordinal (year, 1, 1) + (365 + (isLeap year).toNat) := by
  obtain ⟨y, rfl⟩ : ∃ y, year = y + 1 := ⟨year - 1, by omega⟩
  have hfirst : ∀ leap, daysBefore 1 leap = 0 := by decide
  have h4 : (y + 1) / 4 = y / 4 + (if 4 ∣ y + 1 then 1 else 0) := Nat.succ_div
  have h100 : (y + 1) / 100 = y / 100 + (if 100 ∣ y + 1 then 1 else 0) := Nat.succ_div
  have h400 : (y + 1) / 400 = y / 400 + (if 400 ∣ y + 1 then 1 else 0) := Nat.succ_div
  have hle : y / 100 ≤ y / 4 := Nat.div_le_div_left (by decide) (by decide)
  have hdvd : 100 ∣ y + 1 → 4 ∣ y + 1 := (by decide : 4 ∣ 100).trans
  have hdvd' : 400 ∣ y + 1 → 100 ∣ y + 1 := (by decide : 100 ∣ 400).trans
  have hleap : isLeap (y + 1) = decide (4 ∣ y + 1 ∧ (¬ 100 ∣ y + 1 ∨ 400 ∣ y + 1)) := by
    simp only [isLeap, Nat.dvd_iff_mod_eq_zero, ne_eq]
  simp only [ordinal, hfirst, hleap, Nat.add_sub_cancel]
  rw [h4, h100, h400]
  generalize y / 4 = q4 at hle ⊢
  generalize y / 100 = q100 at hle ⊢
  generalize y / 400 = q400
  by_cases h4 : 4 ∣ y + 1 <;> by_cases h100 : 100 ∣ y + 1 <;> by_cases h400 : 400 ∣ y + 1 <;>
    simp only [h4, h100, h400, not_true, not_false_eq_true, forall_const, imp_false, if_true,
      if_false, and_true, and_false, or_self, or_true, or_false, decide_true, decide_false,
      Bool.toNat_true, Bool.toNat_false] at hdvd hdvd' ⊢ <;>
    omega

lemma ordinal_newYear_le {year year' : ℕ} (h : 1 ≤ year) (hle : year ≤ year') :
    ordinal (year, 1, 1) ≤ ordinal (year', 1, 1) := by
  induction year', hle using Nat.le_induction with
  | base => exact le_rfl
  | succ year' hle ih =>
    rw [ordinal_newYear (h.trans hle)]
    exact ih.trans (Nat.le_add_right _ _)

lemma ordinal_eq {year month day : ℕ} (h : 1 ≤ day) :
    ordinal (year, month, day) =
      ordinal (year, 1, 1) + (daysBefore month (isLeap year) + day - 1) := by
  have hfirst : ∀ leap, daysBefore 1 leap = 0 := by decide
  simp only [ordinal, hfirst]
  omega

/-- Dates are ordered as their days. -/
lemma ordinal_lt {year month day year' month' day' : ℕ} (hdate : IsDate year month day)
    (hdate' : IsDate year' month' day')
    (h : year < year' ∨ year = year' ∧ (month < month' ∨ month = month' ∧ day < day')) :
    ordinal (year, month, day) < ordinal (year', month', day') := by
  have hpos := hdate.day_pos
  have hpos' := hdate'.day_pos
  have hday := hdate.day_le
  rw [ordinal_eq hpos, ordinal_eq hpos']
  rcases h with h | ⟨rfl, h | ⟨rfl, h⟩⟩
  · have hend := daysThrough_le_year (isLeap year) hdate.month_le
    have hyear := ordinal_newYear hdate.year_pos
    have hle : ordinal (year + 1, 1, 1) ≤ ordinal (year', 1, 1) :=
      ordinal_newYear_le (Nat.succ_pos year) h
    omega
  · have hend := daysThrough_le_daysBefore (isLeap year) hdate.month_pos h hdate'.month_le
    omega
  · omega

/-- The columns of the date of a later day. -/
lemma civil_lt {days days' : ℕ} (h : days < days') :
    (civil days).1 < (civil days').1 ∨ (civil days).1 = (civil days').1 ∧
      ((civil days).2.1 < (civil days').2.1 ∨ (civil days).2.1 = (civil days').2.1 ∧
        (civil days).2.2 < (civil days').2.2) := by
  by_contra hnot
  have hback : (civil days').1 < (civil days).1 ∨ (civil days').1 = (civil days).1 ∧
      ((civil days').2.1 < (civil days).2.1 ∨ (civil days').2.1 = (civil days).2.1 ∧
        (civil days').2.2 < (civil days).2.2) ∨ civil days' = civil days := by
    rw [Prod.ext_iff, Prod.ext_iff]
    omega
  have hord : ordinal ((civil days).1, (civil days).2.1, (civil days).2.2) = days :=
    ordinal_civil days
  have hord' : ordinal ((civil days').1, (civil days').2.1, (civil days').2.2) = days' :=
    ordinal_civil days'
  rcases hback with hback | hback | hback
  · have := ordinal_lt (isDate_civil days') (isDate_civil days) (.inl hback)
    omega
  · have := ordinal_lt (isDate_civil days') (isDate_civil days) (.inr hback)
    omega
  · rw [hback] at hord'
    omega

/-- Texts with one zone are ordered as the instants: of two texts that differ only in that one has a
fraction, the other comes first, as a sign comes before the point. -/
lemma isoChars_append_lt {a b : Instant} (h : a < b) {zone : List Char}
    (hzone : ∀ c ∈ zone.head?, c < '.') : a.isoChars ++ zone < b.isoChars ++ zone := by
  have ha := a.lt_limit
  have hb := b.lt_limit
  have hab : a.micros < b.micros := h
  simp only [instantLimit] at ha hb
  obtain ⟨hyear, hmonth, hday⟩ := civil_bounds (b.micros / 1000000 / 86400) (by omega)
  simp only [isoChars, List.append_assoc, List.cons_append]
  by_cases hdays : a.micros / 1000000 / 86400 < b.micros / 1000000 / 86400
  · exact fixedDigits_cons_lt hyear ((civil_lt hdays).imp_right fun ⟨heq, h⟩ =>
      ⟨heq, fixedDigits_cons_lt hmonth (h.imp_right fun ⟨heq, h⟩ =>
        ⟨heq, fixedDigits_cons_lt hday (.inl h)⟩)⟩)
  have hsame : a.micros / 1000000 / 86400 = b.micros / 1000000 / 86400 := by omega
  rw [hsame]
  refine fixedDigits_cons_lt hyear (.inr ⟨rfl, fixedDigits_cons_lt hmonth (.inr ⟨rfl,
    fixedDigits_cons_lt hday (.inr ⟨rfl, fixedDigits_cons_lt (by omega) ?_⟩)⟩)⟩)
  by_cases hhours : a.micros / 1000000 % 86400 / 3600 < b.micros / 1000000 % 86400 / 3600
  · exact .inl hhours
  refine .inr ⟨by omega, fixedDigits_cons_lt (by omega) ?_⟩
  by_cases hminutes :
      a.micros / 1000000 % 86400 / 60 % 60 < b.micros / 1000000 % 86400 / 60 % 60
  · exact .inl hminutes
  refine .inr ⟨by omega, fixedDigits_append_lt (by omega) ?_⟩
  by_cases hseconds : a.micros / 1000000 % 86400 % 60 < b.micros / 1000000 % 86400 % 60
  · exact .inl hseconds
  refine .inr ⟨by omega, ?_⟩
  split_ifs with h0 h0'
  · omega
  · cases zone with
    | nil         => exact .nil
    | cons c zone => exact .rel (hzone c rfl)
  · omega
  · exact .cons (fixedDigits_append_lt (by omega) (.inl (by omega)))

lemma iso_lt {a b : Instant} (h : a < b) : a.iso < b.iso := by
  rw [String.lt_iff_toList_lt, iso, iso, String.toList_ofList, String.toList_ofList]
  exact isoChars_append_lt h (by simp)

lemma iso_lt_iso {a b : Instant} : a.iso < b.iso ↔ a < b := by
  refine ⟨fun h => ?_, iso_lt⟩
  by_contra hnot
  rcases Nat.lt_or_eq_of_le (Nat.le_of_not_lt hnot) with hlt | heq
  · exact lt_asymm h (iso_lt hlt)
  · exact absurd h (Instant.ext heq ▸ lt_irrefl _)

lemma iso_le_iso {a b : Instant} : a.iso ≤ b.iso ↔ a ≤ b := by
  rw [← not_lt, iso_lt_iso]
  exact Nat.not_lt

end Instant

/-! ### Datetimes -/

/-- A datetime: the reading of its clock and, if it is aware, its offset from UTC in
microseconds. -/
structure DateTime where
  wall : Instant
  offset : Option ℤ := some 0

namespace DateTime

/-- The offset as `isoformat` prints it, with seconds and microseconds only where they count. -/
def offsetChars (offset : ℤ) : List Char :=
  let n := offset.natAbs
  (if offset < 0 then '-' else '+') :: fixedDigits 10 2 (n / 3600000000) ++
    ':' :: fixedDigits 10 2 (n / 60000000 % 60) ++
    (if n % 60000000 = 0 then [] else ':' :: fixedDigits 10 2 (n / 1000000 % 60) ++
      if n % 1000000 = 0 then [] else '.' :: fixedDigits 10 6 (n % 1000000))

/-- `datetime.isoformat`. -/
def isoformat (d : DateTime) : String :=
  String.ofList (d.wall.isoChars ++ d.offset.elim [] offsetChars)

/-- Datetimes with one offset are ordered as their texts. -/
lemma isoformat_lt {d d' : DateTime} (h : d.wall < d'.wall) (hoffset : d.offset = d'.offset) :
    d.isoformat < d'.isoformat := by
  have hzone : ∀ (o : Option ℤ), ∀ c ∈ (o.elim [] offsetChars).head?, c < '.' := by
    intro o c hc
    cases o with
    | none   => cases hc
    | some n =>
      cases hc
      split_ifs <;> decide
  rw [String.lt_iff_toList_lt, isoformat, isoformat, String.toList_ofList, String.toList_ofList,
    hoffset]
  exact Instant.isoChars_append_lt h (hzone _)

/-- The instant of a datetime, a naive one read in UTC. -/
def instant? (d : DateTime) : Option Instant := d.wall.add? (-d.offset.getD 0)

example : (⟨⟨63902822399000001, by decide⟩, some (-19800000000)⟩ : DateTime).isoformat =
    "2025-12-31T23:59:59.000001-05:30" := by
  decide +kernel

end DateTime

end CyberBrain
