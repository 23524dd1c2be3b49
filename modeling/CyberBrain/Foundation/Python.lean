import CyberBrain.Foundation.Binary64
import Mathlib.Data.List.DropRight
import Mathlib.Logic.Function.Basic

/-!
# The Python runtime

What the program takes from its runtime. `strip` is defined here; the functions that rest on the
Unicode database, on the shortest decimal form of a double or on a digest are the fields of a
`Runtime`, together with the documented laws that proofs use. That a digest has no collisions is
not a law but a hypothesis of the results that need it.
-/

namespace CyberBrain

namespace Python

/-- `str.isspace` on one character. -/
def isSpace (c : Char) : Bool :=
  let n := c.toNat
  (9 ≤ n && n ≤ 13) || (28 ≤ n && n ≤ 32) || n = 0x85 || n = 0xA0 || n = 0x1680 ||
    (0x2000 ≤ n && n ≤ 0x200A) || n = 0x2028 || n = 0x2029 || n = 0x202F || n = 0x205F ||
    n = 0x3000

/-- `str.strip` on the characters of a text. -/
def stripChars (cs : List Char) : List Char := (cs.dropWhile isSpace).rdropWhile isSpace

/-- `str.strip`. -/
def strip (s : String) : String := String.ofList (stripChars s.toList)

/-- `marker in s`. -/
def contains (s marker : String) : Bool := decide (marker.toList <:+: s.toList)

/-- `xs[:n]`. -/
def upTo {α : Type*} (xs : List α) (n : ℤ) : List α :=
  xs.take (if 0 ≤ n then n else xs.length + n).toNat

/-- `a.replace("\r\n", "\n").replace("\r", "\n")` on the characters of a text. -/
def universalNewlines : List Char → List Char
  | '\r' :: '\n' :: cs => '\n' :: universalNewlines cs
  | '\r' :: cs         => '\n' :: universalNewlines cs
  | c :: cs            => c :: universalNewlines cs
  | []                 => []

/-- A C0 control character or DEL. -/
def isControl (c : Char) : Bool := c.toNat < 32 || c.toNat = 127

lemma dropWhile_rdropWhile {p : Char → Bool} (cs : List Char) :
    ((cs.dropWhile p).rdropWhile p).dropWhile p = (cs.dropWhile p).rdropWhile p := by
  rw [List.dropWhile_eq_self_iff]
  intro hl
  obtain ⟨t, ht⟩ := List.rdropWhile_prefix p (l := cs.dropWhile p)
  have hpos : 0 < (cs.dropWhile p).length :=
    lt_of_lt_of_le hl (List.rdropWhile_prefix p (l := cs.dropWhile p)).length_le
  have hhead := List.dropWhile_get_zero_not p cs hpos
  simp only [List.get_eq_getElem] at hhead ⊢
  have : ((cs.dropWhile p).rdropWhile p)[0] = (cs.dropWhile p)[0] := by
    conv_rhs => rw [List.getElem_of_eq ht.symm]
    rw [List.getElem_append_left hl]
  rwa [this]

lemma stripChars_stripChars (cs : List Char) : stripChars (stripChars cs) = stripChars cs := by
  unfold stripChars
  rw [dropWhile_rdropWhile, List.rdropWhile_idempotent]

@[simp] lemma strip_strip (s : String) : strip (strip s) = strip s := by
  simp [strip, stripChars_stripChars]

/-- A text without blanks has none to strip. -/
lemma strip_eq_self {s : String} (h : ∀ c ∈ s.toList, isSpace c = false) : strip s = s := by
  have hdrop : s.toList.dropWhile isSpace = s.toList :=
    List.dropWhile_eq_self_iff.mpr fun hpos => by simp [h _ (List.getElem_mem hpos)]
  have hrdrop : s.toList.rdropWhile isSpace = s.toList :=
    List.rdropWhile_eq_self_iff.mpr fun hne => by simp [h _ (List.getLast_mem hne)]
  rw [strip, stripChars, hdrop, hrdrop, String.ofList_toList]

/-! ### Integers -/

/-- `int.__repr__`. -/
def reprInt (i : ℤ) : List Char :=
  if i < 0 then '-' :: Nat.toDigits 10 i.natAbs else Nat.toDigits 10 i.natAbs

lemma isDigit_of_mem_toDigits {n : ℕ} {c : Char} (h : c ∈ Nat.toDigits 10 n) : c.isDigit :=
  Nat.isDigit_of_mem_toDigits (by decide) (by decide) h

lemma toDigits_injective : Function.Injective (Nat.toDigits 10) := fun m n h => by
  rw [← Nat.ofDigitChars_ten_toDigits (n := m), h, Nat.ofDigitChars_ten_toDigits]

lemma toDigits_ne_minus_cons {n : ℕ} {cs : List Char} : Nat.toDigits 10 n ≠ '-' :: cs := by
  intro h
  exact absurd (isDigit_of_mem_toDigits (n := n) (h ▸ List.mem_cons_self)) (by decide)

lemma reprInt_injective : Function.Injective reprInt := by
  intro i j h
  unfold reprInt at h
  split_ifs at h with hi hj hj
  · have := toDigits_injective (List.cons.inj h).2
    omega
  · exact absurd h.symm toDigits_ne_minus_cons
  · exact absurd h toDigits_ne_minus_cons
  · have := toDigits_injective h
    omega

lemma reprInt_chars {i : ℤ} {c : Char} (h : c ∈ reprInt i) : c.isDigit ∨ c = '-' := by
  unfold reprInt at h
  split_ifs at h
  · rcases List.mem_cons.mp h with rfl | h
    · exact .inr rfl
    · exact .inl (isDigit_of_mem_toDigits h)
  · exact .inl (isDigit_of_mem_toDigits h)

lemma reprInt_ne_nil (i : ℤ) : reprInt i ≠ [] := by
  unfold reprInt
  split_ifs
  · exact List.cons_ne_nil _ _
  · exact Nat.toDigits_ne_nil

/-! ### Runtime -/

/-- The runtime functions that are not defined here, with their documented laws. -/
structure Runtime where
  /-- `unicodedata.normalize("NFC", s)`. -/
  nfc : String → String
  /-- `str.casefold`. -/
  casefold : String → String
  /-- `str.lower`. -/
  lower : String → String
  /-- `str.isprintable` on one character. -/
  isPrintable : Char → Bool
  /-- `float.__repr__` on a finite double. -/
  reprFloat : Binary64 → List Char
  /-- `hashlib.sha256(s.encode("utf-8")).hexdigest()`. -/
  sha256 : String → String
  /-- `timedelta(seconds=x)` in microseconds, unless it overflows. -/
  timedelta : Binary64 → Option ℤ
  /-- Normalisation is idempotent. -/
  nfc_nfc : ∀ s, nfc (nfc s) = nfc s
  /-- Normalisation forms are closed under taking substrings. -/
  nfc_strip : ∀ s, nfc s = s → nfc (strip s) = strip s
  /-- The decimal form of a double reads back as that double. -/
  reprFloat_injective : Function.Injective reprFloat
  /-- It starts with a digit or a minus sign. -/
  reprFloat_head : ∀ x, ∃ c cs, reprFloat x = c :: cs ∧ (c.isDigit ∨ c = '-')
  /-- It is made of digits, signs, the point and the exponent mark. -/
  reprFloat_chars : ∀ x, ∀ c ∈ reprFloat x, c.isDigit ∨ c ∈ ['-', '+', '.', 'e']
  /-- It has a point or an exponent, which sets it apart from an integer. -/
  reprFloat_mark : ∀ x, '.' ∈ reprFloat x ∨ 'e' ∈ reprFloat x

/-! ### A runtime for ASCII texts -/

/-- A double as its significand and its binary exponent. -/
def asciiFloat (x : Binary64) : List Char :=
  (if x.neg then ['-'] else []) ++ (Nat.toDigits 10 x.mant ++ 'e' :: reprInt x.exp)

lemma asciiFloat_injective : Function.Injective asciiFloat := by
  intro x y h
  have hbody : ∀ u v : Binary64, Nat.toDigits 10 u.mant ++ 'e' :: reprInt u.exp =
      Nat.toDigits 10 v.mant ++ 'e' :: reprInt v.exp → u.mant = v.mant ∧ u.exp = v.exp := by
    intro u v huv
    have hmant : 'e' ∉ Nat.toDigits 10 u.mant := fun h =>
      absurd (isDigit_of_mem_toDigits h) (by decide)
    have hexp : 'e' ∉ reprInt u.exp := fun h => absurd (reprInt_chars h) (by decide)
    obtain ⟨hm, -, he⟩ := (List.append_cons_inj_of_notMem hmant hexp).mp huv
    exact ⟨toDigits_injective hm, reprInt_injective he⟩
  have hdigit : ∀ (u : Binary64) (cs : List Char),
      Nat.toDigits 10 u.mant ++ 'e' :: reprInt u.exp ≠ '-' :: cs := by
    intro u cs hu
    cases hd : Nat.toDigits 10 u.mant with
    | nil => exact Nat.toDigits_ne_nil hd
    | cons d ds =>
      rw [hd] at hu
      have hminus : d = '-' := (List.cons.inj hu).1
      exact toDigits_ne_minus_cons (hminus ▸ hd)
  obtain ⟨xneg, xmant, xexp, hx⟩ := x
  obtain ⟨yneg, ymant, yexp, hy⟩ := y
  cases xneg <;> cases yneg
  · obtain ⟨rfl, rfl⟩ := hbody _ _ h
    rfl
  · exact absurd h (hdigit ⟨false, xmant, xexp, hx⟩ _)
  · exact absurd h.symm (hdigit ⟨false, ymant, yexp, hy⟩ _)
  · obtain ⟨rfl, rfl⟩ := hbody _ _ (List.cons.inj h).2
    rfl

lemma asciiFloat_chars (x : Binary64) :
    ∀ c ∈ asciiFloat x, c.isDigit ∨ c ∈ ['-', '+', '.', 'e'] := by
  intro c hc
  simp only [asciiFloat, List.mem_append, List.mem_cons] at hc
  rcases hc with hc | hc | rfl | hc
  · split_ifs at hc
    · exact .inr (by simp_all)
    · cases hc
  · exact .inl (isDigit_of_mem_toDigits hc)
  · exact .inr (by decide)
  · exact (reprInt_chars hc).imp id fun h => by simp [h]

lemma asciiFloat_head (x : Binary64) :
    ∃ c cs, asciiFloat x = c :: cs ∧ (c.isDigit ∨ c = '-') := by
  unfold asciiFloat
  split_ifs
  · exact ⟨_, _, rfl, .inr rfl⟩
  · cases hd : Nat.toDigits 10 x.mant with
    | nil => exact absurd hd Nat.toDigits_ne_nil
    | cons d ds =>
      exact ⟨d, _, rfl, .inl (isDigit_of_mem_toDigits (hd ▸ List.mem_cons_self))⟩

/-- The runtime restricted to ASCII texts, with texts as their own digests. -/
def Runtime.ascii : Runtime where
  nfc s := s
  casefold s := s.map Char.toLower
  lower s := s.map Char.toLower
  isPrintable c := 32 ≤ c.toNat && c.toNat < 127
  reprFloat := asciiFloat
  sha256 s := s
  timedelta x := some (Binary64.roundEven (x.value * 1000000))
  nfc_nfc _ := rfl
  nfc_strip _ _ := rfl
  reprFloat_injective := asciiFloat_injective
  reprFloat_head := asciiFloat_head
  reprFloat_chars := asciiFloat_chars
  reprFloat_mark x := .inr (by simp [asciiFloat])

end Python

end CyberBrain
