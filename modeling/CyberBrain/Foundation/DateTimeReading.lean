import CyberBrain.Foundation.DateTime

/-!
# Reading the JSON form of an instant

The reader of the text that `Instant.jsonText` prints: columns of digits, each ended by its
separator.
-/

namespace CyberBrain

/-- The number with the given decimal digits, after those of `n`. -/
def readDecimal : ℕ → List Char → Option ℕ
  | n, []      => some n
  | n, c :: cs => if c.isDigit then readDecimal (10 * n + (c.toNat - 48)) cs else none

lemma readDecimal_append (n : ℕ) (cs ds : List Char) :
    readDecimal n (cs ++ ds) = (readDecimal n cs).bind fun m => readDecimal m ds := by
  induction cs generalizing n with
  | nil => rfl
  | cons c cs ih =>
    simp only [List.cons_append, readDecimal, ih]
    split_ifs <;> rfl

lemma digitChar_decimal {n : ℕ} (h : n < 10) :
    (Nat.digitChar n).isDigit = true ∧ (Nat.digitChar n).toNat - 48 = n := by
  have hall : ∀ n < 10, (Nat.digitChar n).isDigit = true ∧ (Nat.digitChar n).toNat - 48 = n := by
    decide
  exact hall n h

/-- A number is read back from its digits. -/
lemma readDecimal_fixedDigits {width n : ℕ} (h : n < 10 ^ width) (m : ℕ) :
    readDecimal m (fixedDigits 10 width n) = some (m * 10 ^ width + n) := by
  induction width generalizing n with
  | zero => simp_all [fixedDigits, readDecimal]
  | succ width ih =>
    have hdiv : n / 10 < 10 ^ width := Nat.div_lt_of_lt_mul (by rw [pow_succ] at h; linarith)
    obtain ⟨hdigit, hvalue⟩ := digitChar_decimal (Nat.mod_lt n (by decide : 0 < 10))
    rw [fixedDigits, readDecimal_append, ih hdiv]
    simp only [readDecimal, Option.bind_some, hdigit, hvalue, if_true, Option.some.injEq]
    rw [pow_succ]
    have := Nat.div_add_mod n 10
    linarith

/-- A column of digits that ends in a separator, and the rest of the text. -/
def readColumn (width : ℕ) (separator : Char) (cs : List Char) : Option (ℕ × List Char) :=
  match cs.drop width with
  | []        => none
  | c :: rest =>
    if c = separator then (readDecimal 0 (cs.take width)).map fun n => (n, rest) else none

lemma readColumn_fixedDigits {width n : ℕ} (h : n < 10 ^ width) (separator c : Char)
    (rest : List Char) :
    readColumn width separator (fixedDigits 10 width n ++ c :: rest) =
      if c = separator then some (n, rest) else none := by
  have hlen : (fixedDigits 10 width n).length = width := length_fixedDigits 10 width n
  have hdrop : (fixedDigits 10 width n ++ c :: rest).drop width = c :: rest :=
    List.drop_left' hlen
  have htake : (fixedDigits 10 width n ++ c :: rest).take width = fixedDigits 10 width n :=
    List.take_left' hlen
  simp only [readColumn, hdrop, htake, readDecimal_fixedDigits h, zero_mul, zero_add,
    Option.map_some]

namespace Instant

/-- The seconds and microseconds at the end of a text. -/
def readSeconds (cs : List Char) : Option (ℕ × ℕ) :=
  match readColumn 2 'Z' cs with
  | some (second, []) => some (second, 0)
  | _                 => do
    let (second, cs) ← readColumn 2 '.' cs
    let (micros, cs) ← readColumn 6 'Z' cs
    if cs = [] then some (second, micros) else none

/-- The instant with the given date and time, if there is one. -/
def ofCivil (year month day hour minute second micros : ℕ) : Option Instant :=
  let days := ordinal (year, month, day)
  let total := ((days * 24 + hour) * 60 + minute) * 60 + second
  let total := total * 1000000 + micros
  if h : civil days = (year, month, day) ∧ hour < 24 ∧ minute < 60 ∧ second < 60 ∧
      micros < 1000000 ∧ total < instantLimit then
    some ⟨total, h.2.2.2.2.2⟩
  else none

/-- The instant with the given JSON form. -/
def readJson (s : String) : Option Instant := do
  let (year, cs) ← readColumn 4 '-' s.toList
  let (month, cs) ← readColumn 2 '-' cs
  let (day, cs) ← readColumn 2 'T' cs
  let (hour, cs) ← readColumn 2 ':' cs
  let (minute, cs) ← readColumn 2 ':' cs
  let (second, micros) ← readSeconds cs
  ofCivil year month day hour minute second micros

lemma readSeconds_fixedDigits {second micros : ℕ} (hsecond : second < 10 ^ 2)
    (hmicros : micros < 10 ^ 6) :
    readSeconds (fixedDigits 10 2 second ++
      ((if micros = 0 then [] else '.' :: fixedDigits 10 6 micros) ++ ['Z'])) =
      some (second, micros) := by
  split_ifs with h
  · rw [List.nil_append, readSeconds, readColumn_fixedDigits hsecond, if_pos rfl, h]
  · rw [List.cons_append, readSeconds, readColumn_fixedDigits hsecond, if_neg (by decide)]
    simp only [readColumn_fixedDigits hsecond, readColumn_fixedDigits hmicros, if_true,
      Option.bind_eq_bind, Option.bind_some]

/-- An instant is read back from its JSON form. -/
@[simp] theorem readJson_jsonText (a : Instant) : readJson a.jsonText = some a := by
  have ha := a.lt_limit
  simp only [instantLimit] at ha
  obtain ⟨hyear, hmonth, hday⟩ := civil_bounds (a.micros / 1000000 / 86400) (by omega)
  have hhour : a.micros / 1000000 % 86400 / 3600 < 10 ^ 2 := by omega
  have hminute : a.micros / 1000000 % 86400 / 60 % 60 < 10 ^ 2 := by omega
  have htotal : (((a.micros / 1000000 / 86400 * 24 + a.micros / 1000000 % 86400 / 3600) * 60 +
      a.micros / 1000000 % 86400 / 60 % 60) * 60 + a.micros / 1000000 % 86400 % 60) * 1000000 +
      a.micros % 1000000 = a.micros := by omega
  have hcivil : ofCivil (civil (a.micros / 1000000 / 86400)).1
      (civil (a.micros / 1000000 / 86400)).2.1 (civil (a.micros / 1000000 / 86400)).2.2
      (a.micros / 1000000 % 86400 / 3600) (a.micros / 1000000 % 86400 / 60 % 60)
      (a.micros / 1000000 % 86400 % 60) (a.micros % 1000000) = some a := by
    have hdays := ordinal_civil (a.micros / 1000000 / 86400)
    simp only [ofCivil, Prod.mk.eta, hdays, htotal]
    rw [dif_pos ⟨trivial, by omega, by omega, by omega, by omega, a.lt_limit⟩]
  simp only [readJson, jsonText, isoChars, String.toList_ofList, List.append_assoc,
    List.cons_append, readColumn_fixedDigits hyear, readColumn_fixedDigits hmonth,
    readColumn_fixedDigits hday, readColumn_fixedDigits hhour, readColumn_fixedDigits hminute,
    if_true, Option.bind_eq_bind, Option.bind_some]
  rw [readSeconds_fixedDigits (by omega) (by omega)]
  exact hcivil

end Instant

end CyberBrain
