import Mathlib.Data.List.Basic

/-!
# Base64 with the alphabet of URLs

Groups of three bytes as four characters, with `-` and `_` for the last two digits and padding at
the end. Reading is strict about characters and padding, drops the unused bits of the last digit and
takes `+` and `/` for `-` and `_`.
-/

namespace CyberBrain.Base64

/-! ### Digits -/

/-- The character of a digit below 64. -/
def digit (n : ℕ) : Char :=
  if n < 26 then Char.ofNat (65 + n)
  else if n < 52 then Char.ofNat (71 + n)
  else if n < 62 then Char.ofNat (n - 4)
  else if n = 62 then '-'
  else '_'

/-- The value of a character. -/
def value (c : Char) : Option ℕ :=
  if c.isUpper then some (c.toNat - 65)
  else if c.isLower then some (c.toNat - 71)
  else if c.isDigit then some (c.toNat + 4)
  else if c = '-' ∨ c = '+' then some 62
  else if c = '_' ∨ c = '/' then some 63
  else none

lemma value_digit {n : ℕ} (h : n < 64) : value (digit n) = some n := by
  have hall : ∀ n < 64, value (digit n) = some n := by decide
  exact hall n h

lemma digit_ne_pad {n : ℕ} (h : n < 64) : digit n ≠ '=' := by
  have hall : ∀ n < 64, digit n ≠ '=' := by decide
  exact hall n h

/-! ### Texts -/

/-- `base64.urlsafe_b64encode`. -/
def encode : List UInt8 → List Char
  | []               => []
  | [a]              => [digit (a.toNat / 4), digit (a.toNat % 4 * 16), '=', '=']
  | [a, b]           =>
    [digit (a.toNat / 4), digit (a.toNat % 4 * 16 + b.toNat / 16), digit (b.toNat % 16 * 4), '=']
  | a :: b :: c :: l =>
    digit (a.toNat / 4) :: digit (a.toNat % 4 * 16 + b.toNat / 16) ::
      digit (b.toNat % 16 * 4 + c.toNat / 64) :: digit (c.toNat % 64) :: encode l

/-- `base64.b64decode` with the alphabet of URLs and validation. -/
def decode : List Char → Option (List UInt8)
  | []                    => some []
  | p :: q :: r :: s :: l => do
    let p ← value p
    let q ← value q
    let a := UInt8.ofNat (p * 4 + q / 16)
    if r = '=' then
      if s = '=' ∧ l = [] then some [a] else none
    else
      let r ← value r
      let b := UInt8.ofNat (q % 16 * 16 + r / 4)
      if s = '=' then
        if l = [] then some [a, b] else none
      else
        let s ← value s
        let rest ← decode l
        some (a :: b :: UInt8.ofNat (r % 4 * 64 + s) :: rest)
  | _                     => none

lemma ofNat_eq {a : UInt8} {n : ℕ} (h : n = a.toNat) : UInt8.ofNat n = a := by
  rw [h, UInt8.ofNat_toNat]

/-- Bytes are read back from their text. -/
@[simp] theorem decode_encode (l : List UInt8) : decode (encode l) = some l := by
  induction l using encode.induct with
  | case1 => rfl
  | case2 a =>
    have ha := a.toNat_lt
    simp only [encode, decode, value_digit (show a.toNat / 4 < 64 by omega),
      value_digit (show a.toNat % 4 * 16 < 64 by omega), Option.bind_eq_bind, Option.bind_some,
      and_self, if_true, Option.some.injEq, List.cons.injEq, and_true]
    exact ofNat_eq (by omega)
  | case3 a b =>
    have ha := a.toNat_lt
    have hb := b.toNat_lt
    simp only [encode, decode, value_digit (show a.toNat / 4 < 64 by omega),
      value_digit (show a.toNat % 4 * 16 + b.toNat / 16 < 64 by omega),
      value_digit (show b.toNat % 16 * 4 < 64 by omega),
      digit_ne_pad (show b.toNat % 16 * 4 < 64 by omega), Option.bind_eq_bind, Option.bind_some,
      if_true, if_false, Option.some.injEq, List.cons.injEq, and_true]
    exact ⟨ofNat_eq (by omega), ofNat_eq (by omega)⟩
  | case4 a b c l ih =>
    have ha := a.toNat_lt
    have hb := b.toNat_lt
    have hc := c.toNat_lt
    simp only [encode, decode, value_digit (show a.toNat / 4 < 64 by omega),
      value_digit (show a.toNat % 4 * 16 + b.toNat / 16 < 64 by omega),
      value_digit (show b.toNat % 16 * 4 + c.toNat / 64 < 64 by omega),
      value_digit (show c.toNat % 64 < 64 by omega),
      digit_ne_pad (show b.toNat % 16 * 4 + c.toNat / 64 < 64 by omega),
      digit_ne_pad (show c.toNat % 64 < 64 by omega), ih, Option.bind_eq_bind, Option.bind_some,
      if_false, Option.some.injEq, List.cons.injEq, and_true]
    exact ⟨ofNat_eq (by omega), ofNat_eq (by omega), ofNat_eq (by omega)⟩

/-- Four characters for every three bytes, or part of three. -/
lemma length_encode (l : List UInt8) : (encode l).length = (l.length + 2) / 3 * 4 := by
  induction l using encode.induct with
  | case1 => rfl
  | case2 a => simp [encode]
  | case3 a b => simp [encode]
  | case4 a b c l ih =>
    simp only [encode, List.length_cons, ih]
    omega

end CyberBrain.Base64
