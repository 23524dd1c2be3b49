import CyberBrain.Foundation.DateTimeReading
import CyberBrain.Foundation.PythonPrinting

/-!
# JSON texts in ASCII

The text that `json.dumps` makes of a string or a number by default, with escapes for everything
outside ASCII, and the readers of the decoder for the two. The readers return the rest of the text.
-/

namespace CyberBrain.Python

/-! ### Strings -/

/-- The UTF-16 code units of a character. -/
def codeUnits (c : Char) : List ℕ :=
  if c.toNat < 0x10000 then [c.toNat]
  else [0xD800 + (c.toNat - 0x10000) / 0x400, 0xDC00 + (c.toNat - 0x10000) % 0x400]

/-- How a character is written inside quotes. -/
def asciiEscape (c : Char) : List Char :=
  match jsonEscapes.simple c with
  | some e => ['\\', e]
  | none   =>
    if 32 ≤ c.toNat ∧ c.toNat < 127 then [c]
    else (codeUnits c).flatMap fun n => '\\' :: 'u' :: fixedDigits 16 4 n

/-- `json.dumps` of a string. -/
def asciiQuoted (s : String) : List Char := '"' :: (s.toList.flatMap asciiEscape ++ ['"'])

/-- The character that a letter after a backslash stands for. -/
def unescape (e : Char) : Option Char :=
  if e = '"' ∨ e = '\\' ∨ e = '/' then some e
  else if e = 'b' then some '\x08'
  else if e = 'f' then some '\x0c'
  else if e = 'n' then some '\n'
  else if e = 'r' then some '\r'
  else if e = 't' then some '\t'
  else none

/-- The code units up to the closing quote, and the rest of the text. -/
def readUnits : List Char → Option (List ℕ × List Char)
  | []        => none
  | c :: rest =>
    if c = '"' then some ([], rest)
    else if c = '\\' then
      match rest with
      | []        => none
      | e :: rest =>
        if e = 'u' then
          match rest with
          | a :: b :: c :: d :: rest => do
            let n ← readHex 0 [a, b, c, d]
            let (units, rest) ← readUnits rest
            some (n :: units, rest)
          | _ => none
        else do
          let c ← unescape e
          let (units, rest) ← readUnits rest
          some (c.toNat :: units, rest)
    -- control characters are written as escapes
    else if c.toNat < 32 then none
    else do
      let (units, rest) ← readUnits rest
      some (c.toNat :: units, rest)

/-- The characters with the given code units; a surrogate outside a pair is no character. -/
def ofCodeUnits : List ℕ → Option (List Char)
  | []      => some []
  | n :: ns =>
    if 0xD800 ≤ n ∧ n < 0xDC00 then
      match ns with
      | []      => none
      | m :: ns =>
        if 0xDC00 ≤ m ∧ m < 0xE000 then
          (ofCodeUnits ns).map
            (Char.ofNat (0x10000 + (n - 0xD800) * 0x400 + (m - 0xDC00)) :: ·)
        else none
    else if 0xDC00 ≤ n ∧ n < 0xE000 then none
    else (ofCodeUnits ns).map (Char.ofNat n :: ·)

/-- The string at the head of a text. -/
def readQuoted : List Char → Option (String × List Char)
  | '"' :: rest => do
    let (units, rest) ← readUnits rest
    let cs ← ofCodeUnits units
    some (String.ofList cs, rest)
  | _           => none

lemma toNat_lt (c : Char) : c.toNat < 0xD800 ∨ 0xE000 ≤ c.toNat ∧ c.toNat < 0x110000 := by
  rcases c.valid with h | ⟨h, h'⟩
  · exact .inl h
  · exact .inr ⟨h, h'⟩

/-- A character is read back from its code units. -/
lemma ofCodeUnits_codeUnits (c : Char) (ns : List ℕ) :
    ofCodeUnits (codeUnits c ++ ns) = (ofCodeUnits ns).map (c :: ·) := by
  have hc := toNat_lt c
  unfold codeUnits
  split_ifs with h
  · rw [List.singleton_append, ofCodeUnits.eq_def]
    dsimp only
    rw [if_neg (by omega), if_neg (by omega), Char.ofNat_toNat]
  · rw [List.cons_append, List.singleton_append, ofCodeUnits.eq_def]
    dsimp only
    have hn : 0x10000 + (0xD800 + (c.toNat - 0x10000) / 0x400 - 0xD800) * 0x400 +
        (0xDC00 + (c.toNat - 0x10000) % 0x400 - 0xDC00) = c.toNat := by omega
    rw [if_pos (by omega), if_pos (by omega), hn, Char.ofNat_toNat]

lemma ofCodeUnits_flatMap (cs : List Char) : ofCodeUnits (cs.flatMap codeUnits) = some cs := by
  induction cs with
  | nil => rfl
  | cons c cs ih => rw [List.flatMap_cons, ofCodeUnits_codeUnits, ih, Option.map_some]

lemma codeUnits_lt {c : Char} {n : ℕ} (h : n ∈ codeUnits c) : n < 0x10000 := by
  have hc := toNat_lt c
  unfold codeUnits at h
  split_ifs at h
  · rw [List.mem_singleton.mp h]
    assumption
  · rw [List.mem_pair] at h
    omega

/-- Digits after `\u` are read as a code unit. -/
lemma readUnits_hex {n : ℕ} (h : n < 0x10000) (rest : List Char) :
    readUnits ('\\' :: 'u' :: (fixedDigits 16 4 n ++ rest)) =
      (readUnits rest).map fun r => (n :: r.1, r.2) := by
  obtain ⟨a, b, c, d, hdigits⟩ : ∃ a b c d, fixedDigits 16 4 n = [a, b, c, d] :=
    ⟨_, _, _, _, rfl⟩
  have hread := readHex_fixedDigits (show n < 16 ^ 4 by omega) 0
  rw [hdigits, zero_mul, zero_add] at hread
  rw [hdigits, List.cons_append, List.cons_append, List.cons_append, List.singleton_append]
  simp only [readUnits, hread]
  cases readUnits rest <;> rfl

lemma readUnits_hexes {units : List ℕ} (h : ∀ n ∈ units, n < 0x10000) (rest : List Char) :
    readUnits (units.flatMap (fun n => '\\' :: 'u' :: fixedDigits 16 4 n) ++ rest) =
      (readUnits rest).map fun r => (units ++ r.1, r.2) := by
  induction units with
  | nil => simp
  | cons n units ih =>
    rw [List.forall_mem_cons] at h
    rw [List.flatMap_cons, List.append_assoc, List.cons_append, List.cons_append,
      readUnits_hex h.1, ih h.2, Option.map_map]
    rfl

lemma jsonEscapes_simple {c e : Char} (h : jsonEscapes.simple c = some e) :
    unescape e = some c ∧ e ≠ 'u' ∧ c.toNat < 0x10000 := by
  simp only [jsonEscapes] at h
  split at h <;> cases h <;> decide

/-- A character is read back from its escaped form, as its code units. -/
lemma readUnits_asciiEscape (c : Char) (rest : List Char) :
    readUnits (asciiEscape c ++ rest) = (readUnits rest).map fun r => (codeUnits c ++ r.1, r.2) := by
  unfold asciiEscape
  split
  case h_1 e he =>
    obtain ⟨hunescape, hne, hc⟩ := jsonEscapes_simple he
    have hunits : codeUnits c = [c.toNat] := if_pos hc
    rw [hunits, List.cons_append, List.singleton_append, readUnits.eq_def]
    simp only [hunescape, hne, if_false]
    cases readUnits rest <;> rfl
  case h_2 hsimple =>
    split_ifs with hc
    · have hunits : codeUnits c = [c.toNat] := if_pos (by omega)
      have hquote : c ≠ '"' := by
        rintro rfl
        cases hsimple
      have hescape : c ≠ '\\' := by
        rintro rfl
        cases hsimple
      rw [hunits, List.singleton_append, readUnits.eq_def]
      simp only [hquote, hescape, not_lt.mpr hc.1, if_false]
      cases readUnits rest <;> rfl
    · exact readUnits_hexes (fun n => codeUnits_lt) rest

lemma readUnits_quoted (cs rest : List Char) :
    readUnits (cs.flatMap asciiEscape ++ '"' :: rest) = some (cs.flatMap codeUnits, rest) := by
  induction cs with
  | nil =>
    rw [List.flatMap_nil, List.nil_append, readUnits.eq_def]
    simp
  | cons c cs ih =>
    rw [List.flatMap_cons, List.append_assoc, readUnits_asciiEscape, ih]
    rfl

/-- A string is read back from its text. -/
@[simp] theorem readQuoted_asciiQuoted (s : String) (rest : List Char) :
    readQuoted (asciiQuoted s ++ rest) = some (s, rest) := by
  rw [asciiQuoted, List.cons_append, List.append_assoc, List.singleton_append, readQuoted,
    readUnits_quoted]
  simp [ofCodeUnits_flatMap]

/-- `json.dumps` with compact separators. -/
def asciiDialect (py : Runtime) : Printing.Dialect :=
  { jsonDialect py with
    string := asciiQuoted
    string_head := fun _ => ⟨'"', _, rfl, .inl rfl⟩
    string_selfDelimiting := by
      intro s t x y h
      have hread := congrArg readQuoted h
      rw [readQuoted_asciiQuoted, readQuoted_asciiQuoted] at hread
      exact Prod.mk.inj (Option.some.inj hread) }

/-! ### Numbers and punctuation -/

/-- The integer at the head of a text. Its digits do not start with a zero, unless it is zero. -/
def readInt (cs : List Char) : Option (ℤ × List Char) :=
  let negative := cs.head? = some '-'
  let cs := if negative then cs.tail else cs
  let digits := cs.takeWhile Char.isDigit
  let n := Nat.ofDigitChars 10 digits 0
  if Nat.toDigits 10 n = digits then
    some (if negative then -n else n, cs.dropWhile Char.isDigit)
  else none

/-- The text after white space. -/
def skipSpaces (cs : List Char) : List Char := cs.dropWhile (· ∈ [' ', '\t', '\n', '\r'])

/-- The text after white space and a punctuation mark. -/
def readMark (mark : Char) (cs : List Char) : Option (List Char) :=
  match skipSpaces cs with
  | []        => none
  | c :: rest => if c = mark then some rest else none

lemma isDigit_toDigits (n : ℕ) : ∀ c ∈ Nat.toDigits 10 n, c.isDigit = true :=
  fun _ => isDigit_of_mem_toDigits

/-- An integer is read back from its text, before anything but a digit. -/
lemma readInt_reprInt (i : ℤ) {rest : List Char} (hrest : ∀ c ∈ rest.head?, c.isDigit = false) :
    readInt (reprInt i ++ rest) = some (i, rest) := by
  have htake : (Nat.toDigits 10 i.natAbs ++ rest).takeWhile Char.isDigit =
      Nat.toDigits 10 i.natAbs := by
    rw [List.takeWhile_append_of_pos (isDigit_toDigits _)]
    cases rest with
    | nil => simp
    | cons c rest => simp [hrest c rfl]
  have hdrop : (Nat.toDigits 10 i.natAbs ++ rest).dropWhile Char.isDigit = rest := by
    rw [List.dropWhile_append_of_pos (isDigit_toDigits _)]
    cases rest with
    | nil => rfl
    | cons c rest => simp [hrest c rfl]
  unfold reprInt
  split_ifs with hneg
  · simp only [readInt, List.cons_append, List.head?_cons, List.tail_cons, if_true, htake, hdrop,
      Nat.ofDigitChars_ten_toDigits, Option.some.injEq, Prod.mk.injEq, and_true]
    omega
  · have hhead : (Nat.toDigits 10 i.natAbs ++ rest).head? ≠ some '-' := by
      intro hhead
      cases hdigits : Nat.toDigits 10 i.natAbs with
      | nil => exact Nat.toDigits_ne_nil hdigits
      | cons d ds =>
        rw [hdigits, List.cons_append, List.head?_cons, Option.some.injEq] at hhead
        exact absurd (isDigit_toDigits i.natAbs d (hdigits ▸ List.mem_cons_self)) (by
          rw [hhead]
          decide)
    simp only [readInt, hhead, if_false, htake, hdrop, Nat.ofDigitChars_ten_toDigits, if_true,
      Option.some.injEq, Prod.mk.injEq, and_true]
    omega

/-- What does not start with white space is not skipped. -/
lemma skipSpaces_cons {c : Char} (h : c ∉ [' ', '\t', '\n', '\r']) (rest : List Char) :
    skipSpaces (c :: rest) = c :: rest := by
  simp only [skipSpaces, List.dropWhile_cons, h, decide_false, Bool.false_eq_true, if_false]

lemma skipSpaces_asciiQuoted (s : String) (rest : List Char) :
    skipSpaces (asciiQuoted s ++ rest) = asciiQuoted s ++ rest :=
  skipSpaces_cons (by decide) _

lemma skipSpaces_reprInt (i : ℤ) (rest : List Char) :
    skipSpaces (reprInt i ++ rest) = reprInt i ++ rest := by
  cases h : reprInt i with
  | nil => exact absurd h (reprInt_ne_nil i)
  | cons c cs =>
    rcases reprInt_chars (h ▸ List.mem_cons_self : c ∈ reprInt i) with hc | rfl
    · refine skipSpaces_cons (fun hmem => ?_) _
      simp only [List.mem_cons, List.not_mem_nil, or_false] at hmem
      rcases hmem with rfl | rfl | rfl | rfl <;> exact absurd hc (by decide)
    · exact skipSpaces_cons (by decide) _

lemma readMark_self {mark : Char} (h : mark ∉ [' ', '\t', '\n', '\r']) (rest : List Char) :
    readMark mark (mark :: rest) = some rest := by
  simp [readMark, skipSpaces_cons h]

/-! ### Sizes -/

lemma utf8Size_eq_one {c : Char} (h : c.toNat < 128) : c.utf8Size = 1 := by
  rw [Char.utf8Size_eq_one_iff, UInt32.le_iff_toNat_le]
  exact Nat.le_of_lt_succ h

/-- Characters of ASCII take one byte each. -/
lemma utf8ByteSize_of_ascii {cs : List Char} (h : ∀ c ∈ cs, c.toNat < 128) :
    (String.ofList cs).utf8ByteSize = cs.length := by
  rw [String.utf8ByteSize_ofList]
  induction cs with
  | nil => rfl
  | cons c cs ih =>
    rw [List.forall_mem_cons] at h
    rw [String.utf8Len_cons, ih h.2, utf8Size_eq_one h.1, List.length_cons]

lemma exists_of_mem_fixedDigits {base width n : ℕ} (hbase : 0 < base) {c : Char}
    (h : c ∈ fixedDigits base width n) : ∃ m < base, c = Nat.digitChar m := by
  induction width generalizing n with
  | zero => cases h
  | succ width ih =>
    rcases List.mem_append.mp h with h | h
    · exact ih h
    · exact ⟨n % base, Nat.mod_lt n hbase, List.mem_singleton.mp h⟩

/-- Escapes are written in ASCII. -/
lemma asciiEscape_ascii {c d : Char} (h : d ∈ asciiEscape c) : d.toNat < 128 := by
  have hdigit : ∀ m < 16, (Nat.digitChar m).toNat < 128 := by decide
  unfold asciiEscape at h
  split at h
  case h_1 e he =>
    have hletter : e.toNat < 128 := by
      simp only [jsonEscapes] at he
      split at he <;> cases he <;> decide
    rcases List.mem_pair.mp h with rfl | rfl
    · decide
    · exact hletter
  case h_2 =>
    split_ifs at h with hc
    · rw [List.mem_singleton.mp h]
      omega
    · obtain ⟨n, -, hd⟩ := List.mem_flatMap.mp h
      rcases List.mem_cons.mp hd with rfl | hd
      · decide
      · rcases List.mem_cons.mp hd with rfl | hd
        · decide
        · obtain ⟨m, hm, rfl⟩ := exists_of_mem_fixedDigits (by decide) hd
          exact hdigit m hm

lemma asciiQuoted_ascii {s : String} {d : Char} (h : d ∈ asciiQuoted s) : d.toNat < 128 := by
  rcases List.mem_cons.mp h with rfl | h
  · decide
  · rcases List.mem_append.mp h with h | h
    · obtain ⟨c, -, hd⟩ := List.mem_flatMap.mp h
      exact asciiEscape_ascii hd
    · rw [List.mem_singleton.mp h]
      decide

/-- The character is written as itself. -/
def IsPlain (c : Char) : Prop := 32 ≤ c.toNat ∧ c.toNat < 127 ∧ c ≠ '"' ∧ c ≠ '\\'

instance : DecidablePred IsPlain := fun _ => inferInstanceAs (Decidable (_ ∧ _))

lemma asciiEscape_plain {c : Char} (h : IsPlain c) : asciiEscape c = [c] := by
  obtain ⟨hlow, hhigh, hquote, hslash⟩ := h
  have hsimple : jsonEscapes.simple c = none := by
    simp only [jsonEscapes]
    split <;> first | rfl | contradiction
  simp only [asciiEscape, hsimple]
  exact if_pos ⟨hlow, hhigh⟩

lemma length_asciiQuoted_plain {s : String} (h : ∀ c ∈ s.toList, IsPlain c) :
    (asciiQuoted s).length = s.length + 2 := by
  have hself : s.toList.flatMap asciiEscape = s.toList := by
    refine (List.flatMap_congr fun c hc => asciiEscape_plain (h c hc)).trans ?_
    simp
  rw [asciiQuoted, hself, List.length_cons, List.length_append, String.length_toList]
  rfl
end CyberBrain.Python
