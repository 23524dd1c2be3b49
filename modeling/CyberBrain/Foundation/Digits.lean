import Mathlib.Data.Nat.Digits.Defs
import Mathlib.Tactic.Linarith

/-!
# Digits of a fixed width

Numbers padded with zeros, as in dates and escapes.
-/

namespace CyberBrain

/-- The last `width` digits of a number. -/
def fixedDigits (base : ℕ) : ℕ → ℕ → List Char
  | 0, _         => []
  | width + 1, n => fixedDigits base width (n / base) ++ [Nat.digitChar (n % base)]

@[simp] lemma length_fixedDigits (base width n : ℕ) :
    (fixedDigits base width n).length = width := by
  induction width generalizing n with
  | zero => rfl
  | succ width ih => simp [fixedDigits, ih]

lemma digitChar_injective {m n : ℕ} (hm : m < 16) (hn : n < 16)
    (h : Nat.digitChar m = Nat.digitChar n) : m = n := by
  have hall : ∀ m < 16, ∀ n < 16, Nat.digitChar m = Nat.digitChar n → m = n := by decide
  exact hall m hm n hn h

/-- Numbers that fit the width are told apart by their digits. -/
lemma fixedDigits_injective {base width m n : ℕ} (hbase : 0 < base) (hle : base ≤ 16)
    (hm : m < base ^ width) (hn : n < base ^ width)
    (h : fixedDigits base width m = fixedDigits base width n) : m = n := by
  induction width generalizing m n with
  | zero => simp_all
  | succ width ih =>
    rw [pow_succ] at hm hn
    obtain ⟨hinit, hlast⟩ := List.append_inj' h rfl
    have hdiv := ih (Nat.div_lt_of_lt_mul (by linarith)) (Nat.div_lt_of_lt_mul (by linarith)) hinit
    have hmod := digitChar_injective ((Nat.mod_lt m hbase).trans_le hle)
      ((Nat.mod_lt n hbase).trans_le hle) (List.singleton_inj.mp hlast)
    rw [← Nat.div_add_mod m base, ← Nat.div_add_mod n base, hdiv, hmod]

/-! ### Order -/

lemma digitChar_lt_digitChar {m n : ℕ} (h : m < n) (hn : n < 10) :
    Nat.digitChar m < Nat.digitChar n := by
  have hall : ∀ n < 10, ∀ m < n, Nat.digitChar m < Nat.digitChar n := by decide
  exact hall n hn m h

/-- Two texts with prefixes of one length are compared by their prefixes first. -/
lemma append_lt_append {xs ys : List Char} (hlen : xs.length = ys.length) (h : xs < ys)
    (s t : List Char) : xs ++ s < ys ++ t := by
  induction h with
  | nil => simp at hlen
  | rel h => exact .rel h
  | cons _ ih => exact .cons (ih (by simpa using hlen))

/-- Numbers that fit the width are ordered as their digits. -/
lemma fixedDigits_lt {width m n : ℕ} (h : m < n) (hn : n < 10 ^ width) :
    fixedDigits 10 width m < fixedDigits 10 width n := by
  induction width generalizing m n with
  | zero => omega
  | succ width ih =>
    rw [pow_succ] at hn
    by_cases hdiv : m / 10 < n / 10
    · exact append_lt_append (by simp) (ih hdiv (Nat.div_lt_of_lt_mul (by linarith))) _ _
    · have heq : m / 10 = n / 10 := by omega
      rw [fixedDigits, fixedDigits, heq]
      exact List.append_left_lt (.rel (digitChar_lt_digitChar (by omega) (by omega)))
/-- The first differing column decides the order. -/
lemma fixedDigits_append_lt {width m n : ℕ} {s t : List Char} (hn : n < 10 ^ width)
    (h : m < n ∨ m = n ∧ s < t) : fixedDigits 10 width m ++ s < fixedDigits 10 width n ++ t := by
  rcases h with h | ⟨rfl, h⟩
  · exact append_lt_append (by simp) (fixedDigits_lt h hn) s t
  · exact List.append_left_lt h

/-- The first differing column decides the order, with columns that end in a separator. -/
lemma fixedDigits_cons_lt {width m n : ℕ} {c : Char} {s t : List Char} (hn : n < 10 ^ width)
    (h : m < n ∨ m = n ∧ s < t) :
    fixedDigits 10 width m ++ c :: s < fixedDigits 10 width n ++ c :: t :=
  fixedDigits_append_lt hn (h.imp_right fun ⟨heq, h⟩ => ⟨heq, .cons h⟩)

/-! ### Hexadecimal digits -/

/-- The value of a hexadecimal digit, in either case. -/
def hexValue (c : Char) : Option ℕ :=
  if '0' ≤ c ∧ c ≤ '9' then some (c.toNat - 48)
  else if 'a' ≤ c ∧ c ≤ 'f' then some (c.toNat - 87)
  else if 'A' ≤ c ∧ c ≤ 'F' then some (c.toNat - 55)
  else none

/-- The number with the given hexadecimal digits, after those of `n`. -/
def readHex : ℕ → List Char → Option ℕ
  | n, []      => some n
  | n, c :: cs => (hexValue c).bind fun v => readHex (16 * n + v) cs

lemma hexValue_digitChar {n : ℕ} (h : n < 16) : hexValue (Nat.digitChar n) = some n := by
  have hall : ∀ n < 16, hexValue (Nat.digitChar n) = some n := by decide
  exact hall n h

lemma readHex_append (n : ℕ) (cs ds : List Char) :
    readHex n (cs ++ ds) = (readHex n cs).bind fun m => readHex m ds := by
  induction cs generalizing n with
  | nil => rfl
  | cons c cs ih =>
    simp only [List.cons_append, readHex, ih]
    cases hexValue c <;> rfl

/-- A number is read back from its digits. -/
lemma readHex_fixedDigits {width n : ℕ} (h : n < 16 ^ width) (m : ℕ) :
    readHex m (fixedDigits 16 width n) = some (m * 16 ^ width + n) := by
  induction width generalizing n with
  | zero => simp_all [fixedDigits, readHex]
  | succ width ih =>
    have hdiv : n / 16 < 16 ^ width := Nat.div_lt_of_lt_mul (by rw [pow_succ] at h; linarith)
    rw [fixedDigits, readHex_append, ih hdiv]
    simp only [readHex, Option.bind_some, hexValue_digitChar (Nat.mod_lt n (by decide)),
      Option.some.injEq]
    rw [pow_succ]
    have := Nat.div_add_mod n 16
    linarith

lemma hexValue_fixedDigits {width n : ℕ} {c : Char} (h : c ∈ fixedDigits 16 width n) :
    hexValue c ≠ none := by
  induction width generalizing n with
  | zero => cases h
  | succ width ih =>
    rcases List.mem_append.mp h with h | h
    · exact ih h
    · rw [List.mem_singleton.mp h, hexValue_digitChar (Nat.mod_lt n (by decide))]
      exact Option.some_ne_none _

end CyberBrain
