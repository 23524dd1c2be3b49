import CyberBrain.Foundation.JsonReading

/-!
# The grammar of JSON

What a JSON text stands for, as a grammar, and the decoder, which reads exactly that. What a number
stands for is left open. Like the decoder, the grammar has `NaN` and `Infinity`.
-/

namespace CyberBrain.JsonText

open Python

/-- A decoded value. Strings are lists of code points, objects the list of their members. -/
inductive Decoded (ν : Type*)
  | null
  | bool (b : Bool)
  | number (x : ν)
  | str (points : List ℕ)
  | arr (items : List (Decoded ν))
  | obj (members : List (List ℕ × Decoded ν))

/-- White space between tokens. -/
def Blank (cs : List Char) : Prop := ∀ c ∈ cs, c ∈ [' ', '\t', '\n', '\r']

/-! ### Strings -/

/-- The code points of a string with the given code units: a pair of surrogates is one point. -/
def codePoints : List ℕ → List ℕ
  | []           => []
  | [n]          => [n]
  | n :: m :: ns =>
    if (0xD800 ≤ n ∧ n < 0xDC00) ∧ 0xDC00 ≤ m ∧ m < 0xE000 then
      (0x10000 + (n - 0xD800) * 0x400 + (m - 0xDC00)) :: codePoints ns
    else n :: codePoints (m :: ns)

/-- The text between the quotes of a string, with its code units. -/
inductive StringBody : List Char → List ℕ → Prop
  | done : StringBody [] []
  | plain {c : Char} {cs : List Char} {ns : List ℕ} (hc : 32 ≤ c.toNat) (hquote : c ≠ '"')
      (hslash : c ≠ '\\') (h : StringBody cs ns) : StringBody (c :: cs) (c.toNat :: ns)
  | escape {e c : Char} {cs : List Char} {ns : List ℕ} (he : unescape e = some c)
      (h : StringBody cs ns) : StringBody ('\\' :: e :: cs) (c.toNat :: ns)
  | unicode {a b c d : Char} {n : ℕ} {cs : List Char} {ns : List ℕ}
      (hn : readHex 0 [a, b, c, d] = some n) (h : StringBody cs ns) :
      StringBody ('\\' :: 'u' :: a :: b :: c :: d :: cs) (n :: ns)

/-- What a character adds to the code units after it. -/
def addUnit (n : ℕ) (r : List ℕ × List Char) : List ℕ × List Char := (n :: r.1, r.2)

lemma readUnits_quote (rest : List Char) : readUnits ('"' :: rest) = some ([], rest) := by
  rw [readUnits.eq_def]
  simp

lemma readUnits_plain {c : Char} (hc : ¬ c.toNat < 32) (hquote : c ≠ '"') (hslash : c ≠ '\\')
    (rest : List Char) : readUnits (c :: rest) = (readUnits rest).map (addUnit c.toNat) := by
  rw [readUnits.eq_def]
  simp only [hquote, hslash, hc, if_false]
  cases readUnits rest <;> rfl

lemma readUnits_escape {e : Char} (he : e ≠ 'u') (rest : List Char) :
    readUnits ('\\' :: e :: rest) =
      (unescape e).bind fun c => (readUnits rest).map (addUnit c.toNat) := by
  rw [readUnits.eq_def]
  simp only [he, if_true, if_false, show '\\' ≠ '"' by decide]
  cases unescape e <;> cases readUnits rest <;> rfl

lemma readUnits_unicode (a b c d : Char) (rest : List Char) :
    readUnits ('\\' :: 'u' :: a :: b :: c :: d :: rest) =
      (readHex 0 [a, b, c, d]).bind fun n => (readUnits rest).map (addUnit n) := by
  rw [readUnits.eq_def]
  simp only [if_true, if_false, show '\\' ≠ '"' by decide]
  cases readHex 0 [a, b, c, d] <;> cases readUnits rest <;> rfl

/-- A string is read up to its closing quote. -/
lemma readUnits_body {body : List Char} {ns : List ℕ} (h : StringBody body ns)
    (rest : List Char) : readUnits (body ++ '"' :: rest) = some (ns, rest) := by
  induction h with
  | done => exact readUnits_quote rest
  | plain hc hquote hslash _ ih =>
    rw [List.cons_append, readUnits_plain (not_lt.mpr hc) hquote hslash, ih]
    rfl
  | @escape e c _ _ he _ ih =>
    have hne : e ≠ 'u' := by
      rintro rfl
      cases he
    rw [List.cons_append, List.cons_append, readUnits_escape hne, he, ih]
    rfl
  | unicode hn _ ih =>
    simp only [List.cons_append]
    rw [readUnits_unicode, hn, ih]
    rfl

lemma exists_of_map_addUnit {o : Option (List ℕ × List Char)} {n : ℕ} {ns : List ℕ}
    {rest : List Char} (h : o.map (addUnit n) = some (ns, rest)) :
    ∃ ms, ns = n :: ms ∧ o = some (ms, rest) := by
  obtain ⟨⟨ms, rest'⟩, rfl, heq⟩ := Option.map_eq_some_iff.mp h
  cases heq
  exact ⟨ms, rfl, rfl⟩

/-- What is read up to a quote is the text of a string. -/
lemma body_of_readUnits {cs rest : List Char} {ns : List ℕ} (h : readUnits cs = some (ns, rest)) :
    ∃ body, cs = body ++ '"' :: rest ∧ StringBody body ns := by
  induction cs using readUnits.induct generalizing ns rest with
  | case1 => cases h
  | case2 tail =>
    rw [readUnits_quote] at h
    cases h
    exact ⟨[], rfl, .done⟩
  | case3 => cases h
  | case4 a b c d tail _ ih =>
    rw [readUnits_unicode] at h
    obtain ⟨n, hn, h⟩ := Option.bind_eq_some_iff.mp h
    obtain ⟨ms, rfl, htail⟩ := exists_of_map_addUnit h
    obtain ⟨body, rfl, hbody⟩ := ih htail
    exact ⟨'\\' :: 'u' :: a :: b :: c :: d :: body, rfl, .unicode hn hbody⟩
  | case5 tail hshort =>
    rw [readUnits.eq_def] at h
    simp only [if_true, if_false, show '\\' ≠ '"' by decide] at h
    cases h
  | case6 e tail hu _ ih =>
    rw [readUnits_escape hu] at h
    obtain ⟨c, hc, h⟩ := Option.bind_eq_some_iff.mp h
    obtain ⟨ms, rfl, htail⟩ := exists_of_map_addUnit h
    obtain ⟨body, rfl, hbody⟩ := ih htail
    exact ⟨'\\' :: e :: body, rfl, .escape hc hbody⟩
  | case7 c tail hquote hslash hcontrol =>
    rw [readUnits.eq_def] at h
    simp [hquote, hslash, hcontrol] at h
  | case8 c tail hquote hslash hcontrol ih =>
    rw [readUnits_plain hcontrol hquote hslash] at h
    obtain ⟨ms, rfl, htail⟩ := exists_of_map_addUnit h
    obtain ⟨body, rfl, hbody⟩ := ih htail
    exact ⟨c :: body, rfl, .plain (not_lt.mp hcontrol) hquote hslash hbody⟩

/-! ### Numbers -/

/-- Digits, at least one. -/
def Digits (ds : List Char) : Prop := ds ≠ [] ∧ ∀ d ∈ ds, d.isDigit

/-- The digits before the point: no zero comes first, unless it is the only one. -/
def Whole (ds : List Char) : Prop := Digits ds ∧ (ds.head? = some '0' → ds = ['0'])

def Sign (allowed s : List Char) : Prop := s = [] ∨ ∃ c ∈ allowed, s = [c]

/-- The point and the digits after it, if there is a point. -/
def Fraction (cs : List Char) : Prop := cs = [] ∨ ∃ ds, cs = '.' :: ds ∧ Digits ds

/-- The exponent, if there is one. -/
def Exponent (cs : List Char) : Prop :=
  cs = [] ∨ ∃ e sign ds, cs = e :: (sign ++ ds) ∧ e ∈ ['e', 'E'] ∧ Sign ['+', '-'] sign ∧ Digits ds

/-- What the decoder takes for numbers although JSON does not have it. -/
def constants : List (List Char) :=
  ["NaN".toList, "Infinity".toList, "-Infinity".toList]

inductive IsNumber : List Char → Prop
  | constant {cs : List Char} (h : cs ∈ constants) : IsNumber cs
  | decimal {sign whole fraction exponent : List Char} (hsign : Sign ['-'] sign)
      (hwhole : Whole whole) (hfraction : Fraction fraction) (hexponent : Exponent exponent) :
      IsNumber (sign ++ whole ++ fraction ++ exponent)

/-- The sign at the head of a text. -/
def readSign (allowed : List Char) : List Char → List Char × List Char
  | []      => ([], [])
  | c :: cs => if c ∈ allowed then ([c], cs) else ([], c :: cs)

def readDigits (cs : List Char) : List Char × List Char :=
  (cs.takeWhile Char.isDigit, cs.dropWhile Char.isDigit)

def readWhole : List Char → Option (List Char × List Char)
  | []      => none
  | c :: cs =>
    if c = '0' then some (['0'], cs)
    else if c.isDigit then some (readDigits (c :: cs)) else none

def readFraction : List Char → List Char × List Char
  | []      => ([], [])
  | c :: cs =>
    let digits := readDigits cs
    if c = '.' ∧ digits.1 ≠ [] then ('.' :: digits.1, digits.2) else ([], c :: cs)

def readExponent : List Char → List Char × List Char
  | []      => ([], [])
  | c :: cs =>
    let sign := readSign ['+', '-'] cs
    let digits := readDigits sign.2
    if c ∈ ['e', 'E'] ∧ digits.1 ≠ [] then (c :: (sign.1 ++ digits.1), digits.2) else ([], c :: cs)

/-- The number at the head of a text and the rest of the text. -/
def readNumber (cs : List Char) : Option (List Char × List Char) :=
  match constants.find? (·.isPrefixOf cs) with
  | some constant => some (constant, cs.drop constant.length)
  | none          =>
    let sign := readSign ['-'] cs
    (readWhole sign.2).map fun whole =>
      let fraction := readFraction whole.2
      let exponent := readExponent fraction.2
      (sign.1 ++ whole.1 ++ fraction.1 ++ exponent.1, exponent.2)

/-- The text does not go on with one of these characters. -/
def Before (p : Char → Prop) (rest : List Char) : Prop := ∀ c ∈ rest.head?, ¬ p c

/-- A number ends where its text cannot go on. -/
def EndsNumber (rest : List Char) : Prop :=
  Before (fun c => c.isDigit ∨ c = '.' ∨ c ∈ ['e', 'E']) rest

section Numbers

variable {cs ds rest : List Char} {allowed : List Char} {p q : Char → Prop}

lemma Before.mono (h : Before p rest) (hpq : ∀ c, q c → p c) : Before q rest :=
  fun c hc hq => h c hc (hpq c hq)

lemma before_cons {c : Char} (h : ¬ p c) : Before p (c :: rest) := by
  intro d hd
  cases hd
  exact h

lemma readSign_append {s : List Char} (h : Sign allowed s) (hrest : Before (· ∈ allowed) rest) :
    readSign allowed (s ++ rest) = (s, rest) := by
  rcases h with rfl | ⟨c, hc, rfl⟩
  · cases rest with
    | nil         => rfl
    | cons c rest => simp [readSign, hrest c rfl]
  · simp [readSign, hc]

lemma readSign_sound (allowed cs : List Char) :
    cs = (readSign allowed cs).1 ++ (readSign allowed cs).2 ∧
      Sign allowed (readSign allowed cs).1 := by
  cases cs with
  | nil => exact ⟨rfl, .inl rfl⟩
  | cons c cs =>
    rw [readSign]
    split_ifs with hc
    · exact ⟨rfl, .inr ⟨c, hc, rfl⟩⟩
    · exact ⟨rfl, .inl rfl⟩

lemma readDigits_append (h : ∀ d ∈ ds, d.isDigit) (hrest : Before (·.isDigit) rest) :
    readDigits (ds ++ rest) = (ds, rest) := by
  rw [readDigits, List.takeWhile_append_of_pos h, List.dropWhile_append_of_pos h]
  cases rest with
  | nil         => simp
  | cons c rest => simp [hrest c rfl]

lemma readDigits_sound (cs : List Char) :
    cs = (readDigits cs).1 ++ (readDigits cs).2 ∧ ∀ d ∈ (readDigits cs).1, d.isDigit :=
  ⟨List.takeWhile_append_dropWhile.symm, fun _ => List.mem_takeWhile_imp⟩

lemma readWhole_append (h : Whole ds) (hrest : Before (·.isDigit) rest) :
    readWhole (ds ++ rest) = some (ds, rest) := by
  obtain ⟨⟨hne, hdigits⟩, hzero⟩ := h
  cases ds with
  | nil => exact absurd rfl hne
  | cons d ds =>
    by_cases hd : d = '0'
    · subst hd
      obtain rfl := (List.cons.inj (hzero rfl)).2
      rfl
    · have hread := readDigits_append hdigits hrest
      rw [List.cons_append] at hread ⊢
      rw [readWhole, if_neg hd, if_pos (hdigits d List.mem_cons_self), hread]

lemma readWhole_sound (h : readWhole cs = some (ds, rest)) : cs = ds ++ rest ∧ Whole ds := by
  cases cs with
  | nil => cases h
  | cons c cs =>
    rw [readWhole] at h
    split_ifs at h with hzero hdigit
    · cases h
      exact ⟨by rw [hzero]; rfl, ⟨by simp, by simp⟩, fun _ => rfl⟩
    · have hsound := readDigits_sound (c :: cs)
      rw [Option.some.inj h] at hsound
      have hds : ds = c :: cs.takeWhile Char.isDigit := by
        rw [readDigits, Option.some.injEq, List.takeWhile_cons_of_pos hdigit] at h
        exact (congrArg Prod.fst h).symm
      refine ⟨hsound.1, ⟨by simp [hds], hsound.2⟩, fun hhead => ?_⟩
      rw [hds, List.head?_cons, Option.some.injEq] at hhead
      exact absurd hhead hzero

lemma readFraction_append (h : Fraction ds)
    (hrest : Before (fun c => c.isDigit ∨ c = '.') rest) :
    readFraction (ds ++ rest) = (ds, rest) := by
  rcases h with rfl | ⟨ds, rfl, hne, hdigits⟩
  · cases rest with
    | nil         => rfl
    | cons c rest =>
      have hc : c ≠ '.' := fun heq => hrest c rfl (.inr heq)
      simp [readFraction, hc]
  · rw [List.cons_append, readFraction, readDigits_append hdigits (hrest.mono fun _ => .inl)]
    simp [hne]

lemma readFraction_sound (cs : List Char) :
    cs = (readFraction cs).1 ++ (readFraction cs).2 ∧ Fraction (readFraction cs).1 := by
  cases cs with
  | nil => exact ⟨rfl, .inl rfl⟩
  | cons c cs =>
    obtain ⟨hsplit, hdigits⟩ := readDigits_sound cs
    rw [readFraction]
    split_ifs with h
    · obtain ⟨rfl, hne⟩ := h
      exact ⟨congrArg (List.cons '.') hsplit, .inr ⟨_, rfl, hne, hdigits⟩⟩
    · exact ⟨rfl, .inl rfl⟩

lemma readExponent_append (h : Exponent ds)
    (hrest : Before (fun c => c.isDigit ∨ c ∈ ['e', 'E']) rest) :
    readExponent (ds ++ rest) = (ds, rest) := by
  rcases h with rfl | ⟨e, sign, ds, rfl, he, hsign, hne, hdigits⟩
  · cases rest with
    | nil         => rfl
    | cons c rest =>
      have hc : c ∉ ['e', 'E'] := fun hmem => hrest c rfl (.inr hmem)
      simp only [readExponent, hc, false_and, if_false, List.nil_append]
  · have hafter : Before (· ∈ ['+', '-']) (ds ++ rest) := by
      cases ds with
      | nil       => exact absurd rfl hne
      | cons d ds =>
        refine before_cons fun hmem => absurd (hdigits d List.mem_cons_self) ?_
        rcases List.mem_pair.mp hmem with rfl | rfl <;> decide
    rw [List.cons_append, List.append_assoc, readExponent, readSign_append hsign hafter,
      readDigits_append hdigits (hrest.mono fun _ => .inl), if_pos ⟨he, hne⟩]

lemma readExponent_sound (cs : List Char) :
    cs = (readExponent cs).1 ++ (readExponent cs).2 ∧ Exponent (readExponent cs).1 := by
  cases cs with
  | nil => exact ⟨rfl, .inl rfl⟩
  | cons c cs =>
    obtain ⟨hsign, hallowed⟩ := readSign_sound ['+', '-'] cs
    obtain ⟨hsplit, hdigits⟩ := readDigits_sound (readSign ['+', '-'] cs).2
    rw [readExponent]
    split_ifs with h
    · refine ⟨?_, .inr ⟨c, _, _, rfl, h.1, hallowed, h.2, hdigits⟩⟩
      rw [List.cons_append, List.append_assoc, ← hsplit, ← hsign]
    · exact ⟨rfl, .inl rfl⟩

lemma isDigit_head_whole (h : Whole ds) : ∃ d, ds.head? = some d ∧ d.isDigit := by
  obtain ⟨⟨hne, hdigits⟩, -⟩ := h
  cases ds with
  | nil       => exact absurd rfl hne
  | cons d ds => exact ⟨d, rfl, hdigits d List.mem_cons_self⟩

/-- The decimal forms are none of the constants. -/
lemma find?_constants {sign whole : List Char} (hsign : Sign ['-'] sign) (hwhole : Whole whole)
    (rest : List Char) :
    constants.find? (·.isPrefixOf (sign ++ (whole ++ rest))) = none := by
  obtain ⟨d, hhead, hd⟩ := isDigit_head_whole hwhole
  cases whole with
  | nil => cases hhead
  | cons d' whole =>
    cases hhead
    have hN : d ≠ 'N' := by rintro rfl; cases hd
    have hI : d ≠ 'I' := by rintro rfl; cases hd
    have hminus : d ≠ '-' := by rintro rfl; cases hd
    rcases hsign with rfl | ⟨c, hc, rfl⟩
    · simp [constants, hN.symm, hI.symm, hminus.symm]
    · cases List.mem_singleton.mp hc
      simp [constants, hI.symm]

lemma find?_constants_self (h : cs ∈ constants) (rest : List Char) :
    constants.find? (·.isPrefixOf (cs ++ rest)) = some cs := by
  simp only [constants, List.mem_cons, List.not_mem_nil, or_false] at h
  rcases h with rfl | rfl | rfl <;> rfl

/-- A number is read up to its end. -/
lemma readNumber_append (h : IsNumber cs) (hrest : EndsNumber rest) :
    readNumber (cs ++ rest) = some (cs, rest) := by
  cases h with
  | constant hcs =>
    rw [readNumber, find?_constants_self hcs]
    simp
  | @decimal sign whole fraction exponent hsign hwhole hfraction hexponent =>
    have hexponentEnd : Before (fun c => c.isDigit ∨ c ∈ ['e', 'E']) rest :=
      hrest.mono fun _ h => h.imp_right .inr
    have hfractionEnd : Before (fun c => c.isDigit ∨ c = '.') (exponent ++ rest) := by
      rcases hexponent with rfl | ⟨e, sign, ds, rfl, he, -⟩
      · exact hrest.mono fun _ h => h.imp_right .inl
      · refine before_cons ?_
        rcases List.mem_pair.mp he with rfl | rfl <;> decide
    have hwholeEnd : Before (·.isDigit) (fraction ++ (exponent ++ rest)) := by
      rcases hfraction with rfl | ⟨ds, rfl, -⟩
      · exact hfractionEnd.mono fun _ => .inl
      · exact before_cons (by decide)
    have hsignEnd : Before (· ∈ ['-']) (whole ++ (fraction ++ (exponent ++ rest))) := by
      obtain ⟨d, hhead, hd⟩ := isDigit_head_whole hwhole
      intro c hc hmem
      cases whole with
      | nil => cases hhead
      | cons d' whole =>
        cases hhead
        cases hc
        cases List.mem_singleton.mp hmem
        cases hd
    simp only [List.append_assoc]
    rw [readNumber, find?_constants hsign hwhole]
    simp [readSign_append hsign hsignEnd, readWhole_append hwhole hwholeEnd,
      readFraction_append hfraction hfractionEnd, readExponent_append hexponent hexponentEnd]

/-- What is read as a number is one. -/
lemma readNumber_sound (h : readNumber cs = some (ds, rest)) : cs = ds ++ rest ∧ IsNumber ds := by
  rw [readNumber] at h
  cases hfind : constants.find? (·.isPrefixOf cs) with
  | some constant =>
    rw [hfind] at h
    cases h
    have hstart := List.find?_some hfind
    obtain ⟨tail, rfl⟩ := List.isPrefixOf_iff_prefix.mp hstart
    exact ⟨by simp, .constant (List.mem_of_find?_eq_some hfind)⟩
  | none =>
    rw [hfind] at h
    obtain ⟨hsignSplit, hsign⟩ := readSign_sound ['-'] cs
    obtain ⟨⟨whole, afterWhole⟩, hwhole, h⟩ := Option.map_eq_some_iff.mp h
    obtain ⟨hwholeSplit, hwhole⟩ := readWhole_sound hwhole
    obtain ⟨hfractionSplit, hfraction⟩ := readFraction_sound afterWhole
    obtain ⟨hexponentSplit, hexponent⟩ := readExponent_sound (readFraction afterWhole).2
    obtain ⟨rfl, rfl⟩ := Prod.mk.inj h
    refine ⟨?_, .decimal hsign hwhole hfraction hexponent⟩
    rw [List.append_assoc, ← hexponentSplit, List.append_assoc, ← hfractionSplit,
      List.append_assoc, ← hwholeSplit, ← hsignSplit]

end Numbers

/-! ### Values -/

/-- What a text can be: a value, the items of an array or the members of an object. -/
inductive Form (ν : Type*)
  | value (v : Decoded ν)
  | items (vs : List (Decoded ν))
  | members (ms : List (List ℕ × Decoded ν))

/-- The key of a member, with what stands between it and the value. -/
inductive Key : List ℕ → List Char → Prop
  | mk {body b c : List Char} {ns : List ℕ} (h : StringBody body ns) (hb : Blank b)
      (hc : Blank c) : Key (codePoints ns) ('"' :: (body ++ '"' :: (b ++ ':' :: c)))

variable {ν : Type*} (number : List Char → ν)

/-- The texts of values. -/
inductive Text : Form ν → List Char → Prop
  | null : Text (.value .null) "null".toList
  | yes : Text (.value (.bool true)) "true".toList
  | no : Text (.value (.bool false)) "false".toList
  | number {cs : List Char} (h : IsNumber cs) : Text (.value (.number (number cs))) cs
  | str {body : List Char} {ns : List ℕ} (h : StringBody body ns) :
      Text (.value (.str (codePoints ns))) ('"' :: (body ++ ['"']))
  | noItems {a : List Char} (ha : Blank a) : Text (.value (.arr [])) ('[' :: (a ++ [']']))
  | arr {vs : List (Decoded ν)} {cs : List Char} (h : Text (.items vs) cs) :
      Text (.value (.arr vs)) ('[' :: (cs ++ [']']))
  | noMembers {a : List Char} (ha : Blank a) : Text (.value (.obj [])) ('{' :: (a ++ ['}']))
  | obj {ms : List (List ℕ × Decoded ν)} {cs : List Char} (h : Text (.members ms) cs) :
      Text (.value (.obj ms)) ('{' :: (cs ++ ['}']))
  | lastItem {v : Decoded ν} {a cs b : List Char} (ha : Blank a) (h : Text (.value v) cs)
      (hb : Blank b) : Text (.items [v]) (a ++ (cs ++ b))
  | item {v : Decoded ν} {vs : List (Decoded ν)} {a cs b rest : List Char} (ha : Blank a)
      (h : Text (.value v) cs) (hb : Blank b) (hrest : Text (.items vs) rest) :
      Text (.items (v :: vs)) (a ++ (cs ++ (b ++ ',' :: rest)))
  | lastMember {k : List ℕ} {v : Decoded ν} {a key cs b : List Char} (ha : Blank a)
      (hkey : Key k key) (h : Text (.value v) cs) (hb : Blank b) :
      Text (.members [(k, v)]) (a ++ (key ++ (cs ++ b)))
  | member {k : List ℕ} {v : Decoded ν} {ms : List (List ℕ × Decoded ν)}
      {a key cs b rest : List Char} (ha : Blank a) (hkey : Key k key) (h : Text (.value v) cs)
      (hb : Blank b) (hrest : Text (.members ms) rest) :
      Text (.members ((k, v) :: ms)) (a ++ (key ++ (cs ++ (b ++ ',' :: rest))))

/-! ### The decoder -/

/-- The key at the head of a text, up to the value. -/
def readKey : List Char → Option (List ℕ × List Char)
  | []      => none
  | c :: cs =>
    if c = '"' then
      (readUnits cs).bind fun key =>
        (readMark ':' key.2).map fun rest => (codePoints key.1, skipSpaces rest)
    else none

mutual
/-- The value at the head of a text and the rest of the text. -/
def readValue : ℕ → List Char → Option (Decoded ν × List Char)
  | 0, _          => none
  | _, []         => none
  | n + 1, c :: cs =>
    if c = '"' then (readUnits cs).map fun r => (.str (codePoints r.1), r.2)
    else if c = '{' then
      match readMark '}' cs with
      | some rest => some (.obj [], rest)
      | none      => (readMembers n cs).map fun r => (.obj r.1, r.2)
    else if c = '[' then
      match readMark ']' cs with
      | some rest => some (.arr [], rest)
      | none      => (readItems n cs).map fun r => (.arr r.1, r.2)
    else if "null".toList.isPrefixOf (c :: cs) then some (.null, cs.drop 3)
    else if "true".toList.isPrefixOf (c :: cs) then some (.bool true, cs.drop 3)
    else if "false".toList.isPrefixOf (c :: cs) then some (.bool false, cs.drop 4)
    else (readNumber (c :: cs)).map fun r => (.number (number r.1), r.2)

/-- The items of an array, up to its end. -/
def readItems : ℕ → List Char → Option (List (Decoded ν) × List Char)
  | 0, _      => none
  | n + 1, cs =>
    (readValue n (skipSpaces cs)).bind fun v =>
      match readMark ']' v.2 with
      | some rest => some ([v.1], rest)
      | none      =>
        (readMark ',' v.2).bind fun rest =>
          (readItems n rest).map fun r => (v.1 :: r.1, r.2)

/-- The members of an object, up to its end. -/
def readMembers : ℕ → List Char → Option (List (List ℕ × Decoded ν) × List Char)
  | 0, _      => none
  | n + 1, cs =>
    (readKey (skipSpaces cs)).bind fun key =>
      (readValue n key.2).bind fun v =>
        match readMark '}' v.2 with
        | some rest => some ([(key.1, v.1)], rest)
        | none      =>
          (readMark ',' v.2).bind fun rest =>
            (readMembers n rest).map fun r => ((key.1, v.1) :: r.1, r.2)
end

/-- `json.loads`. -/
def loads (cs : List Char) : Option (Decoded ν) :=
  (readValue number cs.length (skipSpaces cs)).bind fun r =>
    if skipSpaces r.2 = [] then some r.1 else none

/-! ### Every text is read -/

section Complete

variable {number} {f : Form ν} {v : Decoded ν} {a b cs rest : List Char}

lemma skipSpaces_append (ha : Blank a) (cs : List Char) : skipSpaces (a ++ cs) = skipSpaces cs :=
  List.dropWhile_append_of_pos fun c hc => by simpa using ha c hc

/-- A character that is no white space. -/
def Solid (c : Char) : Prop := c ∉ [' ', '\t', '\n', '\r']

lemma skipSpaces_solid {c : Char} (hc : Solid c) (ha : Blank a) (cs : List Char) :
    skipSpaces (a ++ c :: cs) = c :: cs := by
  rw [skipSpaces_append ha, skipSpaces_cons hc]

lemma readMark_append {mark : Char} (hmark : Solid mark) (ha : Blank a) (cs : List Char) :
    readMark mark (a ++ mark :: cs) = some cs := by
  simp [readMark, skipSpaces_solid hmark ha]

lemma readMark_ne {c mark : Char} (hc : Solid c) (hne : c ≠ mark) (ha : Blank a)
    (cs : List Char) : readMark mark (a ++ c :: cs) = none := by
  simp [readMark, skipSpaces_solid hc ha, hne]

lemma IsNumber.head (h : IsNumber cs) :
    ∃ c tail, cs = c :: tail ∧ (c.isDigit ∨ c ∈ ['-', 'N', 'I']) := by
  cases h with
  | constant hcs =>
    simp only [constants, List.mem_cons, List.not_mem_nil, or_false] at hcs
    rcases hcs with rfl | rfl | rfl
    · exact ⟨'N', _, rfl, by simp⟩
    · exact ⟨'I', _, rfl, by simp⟩
    · exact ⟨'-', _, rfl, by simp⟩
  | @decimal sign whole fraction exponent hsign hwhole hfraction hexponent =>
    obtain ⟨d, hhead, hd⟩ := isDigit_head_whole hwhole
    cases whole with
    | nil => cases hhead
    | cons d' whole =>
      cases hhead
      rcases hsign with rfl | ⟨c, hc, rfl⟩
      · exact ⟨d, _, rfl, .inl hd⟩
      · exact ⟨c, _, rfl, .inr (List.mem_cons.mpr (.inl (List.mem_singleton.mp hc)))⟩

/-- A value starts with none of the marks that end or separate values. -/
lemma Text.head (h : Text number (.value v) cs) :
    ∃ c tail, cs = c :: tail ∧ Solid c ∧ c ∉ [']', '}', ','] := by
  cases h with
  | number h =>
    obtain ⟨c, tail, rfl, hc⟩ := h.head
    refine ⟨c, tail, rfl, ?_⟩
    constructor
    all_goals
      intro hmem
      simp only [List.mem_cons, List.not_mem_nil, or_false] at hmem hc
      rcases hmem with rfl | rfl | rfl | rfl <;> simp [Char.isDigit] at hc
  | _ => exact ⟨_, _, rfl, by unfold Solid; decide, by decide⟩

lemma endsNumber_append {c : Char} (hb : Blank b) (hc : ¬ (c.isDigit ∨ c = '.' ∨ c ∈ ['e', 'E']))
    (cs : List Char) : EndsNumber (b ++ c :: cs) := by
  cases b with
  | nil       => exact before_cons hc
  | cons d b =>
    refine before_cons ?_
    have hd := hb d List.mem_cons_self
    simp only [List.mem_cons, List.not_mem_nil, or_false] at hd
    rcases hd with rfl | rfl | rfl | rfl <;> decide

lemma readKey_append {k : List ℕ} {key : List Char} (h : Key k key) (rest : List Char) :
    readKey (key ++ rest) = some (k, skipSpaces rest) := by
  cases h with
  | @mk body b c ns hbody hb hc =>
    have hunits := readUnits_body hbody (b ++ ':' :: (c ++ rest))
    have hmark : readMark ':' (b ++ ':' :: (c ++ rest)) = some (c ++ rest) :=
      readMark_append (by unfold Solid; decide) hb _
    simp only [List.cons_append, List.append_assoc, readKey, if_true, hunits, Option.bind_some,
      hmark, Option.map_some, skipSpaces_append hc]

lemma Key.skip {k : List ℕ} {key : List Char} (h : Key k key) (ha : Blank a)
    (rest : List Char) : skipSpaces (a ++ (key ++ rest)) = key ++ rest := by
  cases h with
  | mk hbody hb hc => exact skipSpaces_solid (by unfold Solid; decide) ha _

lemma Text.skip (h : Text number (.value v) cs) (ha : Blank a) (rest : List Char) :
    skipSpaces (a ++ (cs ++ rest)) = cs ++ rest := by
  obtain ⟨c, tail, rfl, hc, -⟩ := h.head
  exact skipSpaces_solid hc ha (tail ++ rest)

variable (number) in
/-- The decoder reads a text up to its end. -/
def Reads : Form ν → List Char → Prop
  | .value v, cs    => ∀ n rest, cs.length ≤ n → EndsNumber rest →
      readValue number n (cs ++ rest) = some (v, rest)
  | .items vs, cs   => ∀ n rest, cs.length < n →
      readItems number n (cs ++ ']' :: rest) = some (vs, rest)
  | .members ms, cs => ∀ n rest, cs.length < n →
      readMembers number n (cs ++ '}' :: rest) = some (ms, rest)

lemma solid_bracket : Solid ']' ∧ Solid '}' ∧ Solid ',' := by
  unfold Solid
  decide

/-- What is not a string, an array, an object or a name is read as a number. -/
lemma readValue_number {c : Char} (hc : c.isDigit ∨ c ∈ ['-', 'N', 'I']) (n : ℕ)
    (tail : List Char) : readValue number (n + 1) (c :: tail) =
      (readNumber (c :: tail)).map fun r => (.number (number r.1), r.2) := by
  have hne : c ∉ ['"', '{', '[', 'n', 't', 'f'] := by
    intro hmem
    simp only [List.mem_cons, List.not_mem_nil, or_false] at hmem hc
    rcases hmem with rfl | rfl | rfl | rfl | rfl | rfl <;> simp [Char.isDigit] at hc
  simp only [List.mem_cons, List.not_mem_nil, or_false, not_or] at hne
  obtain ⟨hquote, hbrace, hbracket, hn, ht, hf⟩ := hne
  simp [readValue, hquote, hbrace, hbracket, Ne.symm hn, Ne.symm ht, Ne.symm hf]

/-- The decoder reads every text. -/
theorem Text.reads (h : Text number f cs) : Reads number f cs := by
  induction h with
  | null | yes | no =>
    intro n rest hn _
    cases n with
    | zero   => cases hn
    | succ n => rfl
  | @number cs h =>
    intro n rest hn hrest
    obtain ⟨c, tail, rfl, hc⟩ := h.head
    cases n with
    | zero   => cases hn
    | succ n =>
      have hread := readNumber_append h hrest
      rw [List.cons_append] at hread ⊢
      rw [readValue_number hc, hread]
      rfl
  | @str body ns h =>
    intro n rest hn _
    cases n with
    | zero   => cases hn
    | succ n => simp [readValue, readUnits_body h]
  | @noItems a ha =>
    intro n rest hn _
    cases n with
    | zero   => cases hn
    | succ n => simp [readValue, readMark_append solid_bracket.1 ha]
  | @arr vs cs h ih =>
    intro n rest hn _
    cases n with
    | zero   => cases hn
    | succ n =>
      have hlength : cs.length < n := by
        simp only [List.length_cons, List.length_append, List.length_nil] at hn
        omega
      have hmark : readMark ']' (cs ++ ']' :: rest) = none := by
        cases h with
        | lastItem ha h hb | item ha h hb =>
          obtain ⟨c, tail, rfl, hc, hne⟩ := h.head
          simp only [List.append_assoc, List.cons_append]
          exact readMark_ne hc (fun heq => hne (by simp [heq])) ha _
      simp [readValue, hmark, ih n rest hlength]
  | @noMembers a ha =>
    intro n rest hn _
    cases n with
    | zero   => cases hn
    | succ n => simp [readValue, readMark_append solid_bracket.2.1 ha]
  | @obj ms cs h ih =>
    intro n rest hn _
    cases n with
    | zero   => cases hn
    | succ n =>
      have hlength : cs.length < n := by
        simp only [List.length_cons, List.length_append, List.length_nil] at hn
        omega
      have hmark : readMark '}' (cs ++ '}' :: rest) = none := by
        cases h with
        | lastMember ha hkey h hb | member ha hkey h hb =>
          cases hkey with
          | mk hbody hb' hc =>
            simp only [List.append_assoc, List.cons_append]
            exact readMark_ne (by unfold Solid; decide) (by decide) ha _
      simp [readValue, hmark, ih n rest hlength]
  | @lastItem v a cs b ha h hb ih =>
    intro n rest hn
    cases n with
    | zero   => cases hn
    | succ n =>
      simp only [List.length_append] at hn
      have hend : EndsNumber (b ++ ']' :: rest) := endsNumber_append hb (by decide) rest
      simp [readItems, h.skip ha, ih n _ (by omega) hend, readMark_append solid_bracket.1 hb]
  | @item v vs a cs b rest' ha h hb hrest ih ihrest =>
    intro n rest hn
    cases n with
    | zero   => cases hn
    | succ n =>
      simp only [List.length_append, List.length_cons] at hn
      have hend : EndsNumber (b ++ ',' :: (rest' ++ ']' :: rest)) :=
        endsNumber_append hb (by decide) _
      simp [readItems, h.skip ha, ih n _ (by omega) hend,
        readMark_ne solid_bracket.2.2 (show ',' ≠ ']' by decide) hb,
        readMark_append solid_bracket.2.2 hb, ihrest n rest (by omega)]
  | @lastMember k v a key cs b ha hkey h hb ih =>
    intro n rest hn
    cases n with
    | zero   => cases hn
    | succ n =>
      simp only [List.length_append] at hn
      have hend : EndsNumber (b ++ '}' :: rest) := endsNumber_append hb (by decide) rest
      have hskip := @Text.skip _ number v [] cs h (by simp [Blank]) (b ++ '}' :: rest)
      rw [List.nil_append] at hskip
      simp [readMembers, hkey.skip ha, readKey_append hkey, hskip, ih n _ (by omega) hend,
        readMark_append solid_bracket.2.1 hb]
  | @member k v ms a key cs b rest' ha hkey h hb hrest ih ihrest =>
    intro n rest hn
    cases n with
    | zero   => cases hn
    | succ n =>
      simp only [List.length_append, List.length_cons] at hn
      have hend : EndsNumber (b ++ ',' :: (rest' ++ '}' :: rest)) :=
        endsNumber_append hb (by decide) _
      have hskip := @Text.skip _ number v [] cs h (by simp [Blank])
        (b ++ ',' :: (rest' ++ '}' :: rest))
      rw [List.nil_append] at hskip
      simp [readMembers, hkey.skip ha, readKey_append hkey, hskip, ih n _ (by omega) hend,
        readMark_ne solid_bracket.2.2 (show ',' ≠ '}' by decide) hb,
        readMark_append solid_bracket.2.2 hb, ihrest n rest (by omega)]

end Complete

/-! ### Nothing else is read -/

section Sound

variable {number} {v : Decoded ν} {cs rest : List Char}

lemma skipSpaces_sound (cs : List Char) : ∃ a, Blank a ∧ cs = a ++ skipSpaces cs := by
  refine ⟨cs.takeWhile (· ∈ [' ', '\t', '\n', '\r']), fun c hc => ?_,
    List.takeWhile_append_dropWhile.symm⟩
  simpa using List.mem_takeWhile_imp hc

lemma readMark_sound {mark : Char} (h : readMark mark cs = some rest) :
    ∃ a, Blank a ∧ cs = a ++ mark :: rest := by
  obtain ⟨a, ha, hcs⟩ := skipSpaces_sound cs
  rw [readMark] at h
  cases hskip : skipSpaces cs with
  | nil => rw [hskip] at h; cases h
  | cons c tail =>
    rw [hskip] at h hcs
    dsimp only at h
    split_ifs at h with hc
    cases h
    exact ⟨a, ha, hc ▸ hcs⟩

lemma readKey_sound {k : List ℕ} (h : readKey cs = some (k, rest)) :
    ∃ key, Key k key ∧ cs = key ++ rest := by
  cases cs with
  | nil => cases h
  | cons c cs =>
    rw [readKey] at h
    split_ifs at h with hc
    subst hc
    obtain ⟨⟨ns, tail⟩, hunits, h⟩ := Option.bind_eq_some_iff.mp h
    obtain ⟨after, hmark, heq⟩ := Option.map_eq_some_iff.mp h
    obtain ⟨body, rfl, hbody⟩ := body_of_readUnits hunits
    obtain ⟨b, hb, rfl⟩ := readMark_sound hmark
    obtain ⟨c, hc, hafter⟩ := skipSpaces_sound after
    cases heq
    refine ⟨_, .mk hbody hb hc, ?_⟩
    simp only [List.cons_append, List.append_assoc, ← hafter]

lemma append_drop_name {name : List Char} (h : name.isPrefixOf cs) :
    cs = name ++ cs.drop name.length := by
  obtain ⟨tail, rfl⟩ := List.isPrefixOf_iff_prefix.mp h
  simp

variable (number) in
/-- Up to a depth, the decoder reads texts only. -/
structure SoundUpTo (n : ℕ) : Prop where
  value : ∀ {cs rest : List Char} {v : Decoded ν}, readValue number n cs = some (v, rest) →
    ∃ used, cs = used ++ rest ∧ Text number (.value v) used
  items : ∀ {cs rest : List Char} {vs : List (Decoded ν)},
    readItems number n cs = some (vs, rest) →
      ∃ used, cs = used ++ ']' :: rest ∧ Text number (.items vs) used
  members : ∀ {cs rest : List Char} {ms : List (List ℕ × Decoded ν)},
    readMembers number n cs = some (ms, rest) →
      ∃ used, cs = used ++ '}' :: rest ∧ Text number (.members ms) used

lemma SoundUpTo.succ_value {n : ℕ} (ih : SoundUpTo number n) {c : Char}
    (h : readValue number (n + 1) (c :: cs) = some (v, rest)) :
    ∃ used, c :: cs = used ++ rest ∧ Text number (.value v) used := by
  rw [readValue] at h
  split_ifs at h with hquote hbrace hbracket hnull hyes hno
  · obtain ⟨⟨ns, tail⟩, hunits, heq⟩ := Option.map_eq_some_iff.mp h
    obtain ⟨body, rfl, hbody⟩ := body_of_readUnits hunits
    cases heq
    exact ⟨'"' :: (body ++ ['"']), by simp [hquote], .str hbody⟩
  · cases hmark : readMark '}' cs with
    | some tail =>
      rw [hmark] at h
      cases h
      obtain ⟨a, ha, rfl⟩ := readMark_sound hmark
      exact ⟨'{' :: (a ++ ['}']), by simp [hbrace], .noMembers ha⟩
    | none =>
      rw [hmark] at h
      obtain ⟨⟨ms, tail⟩, hmembers, heq⟩ := Option.map_eq_some_iff.mp h
      obtain ⟨used, rfl, htext⟩ := ih.members hmembers
      cases heq
      exact ⟨'{' :: (used ++ ['}']), by simp [hbrace], .obj htext⟩
  · cases hmark : readMark ']' cs with
    | some tail =>
      rw [hmark] at h
      cases h
      obtain ⟨a, ha, rfl⟩ := readMark_sound hmark
      exact ⟨'[' :: (a ++ [']']), by simp [hbracket], .noItems ha⟩
    | none =>
      rw [hmark] at h
      obtain ⟨⟨vs, tail⟩, hitems, heq⟩ := Option.map_eq_some_iff.mp h
      obtain ⟨used, rfl, htext⟩ := ih.items hitems
      cases heq
      exact ⟨'[' :: (used ++ [']']), by simp [hbracket], .arr htext⟩
  · cases h
    exact ⟨_, append_drop_name hnull, .null⟩
  · cases h
    exact ⟨_, append_drop_name hyes, .yes⟩
  · cases h
    exact ⟨_, append_drop_name hno, .no⟩
  · obtain ⟨⟨lexeme, tail⟩, hnumber, heq⟩ := Option.map_eq_some_iff.mp h
    obtain ⟨hsplit, hlexeme⟩ := readNumber_sound hnumber
    cases heq
    exact ⟨lexeme, hsplit, .number hlexeme⟩

lemma SoundUpTo.succ_items {n : ℕ} (ih : SoundUpTo number n) {vs : List (Decoded ν)}
    (h : readItems number (n + 1) cs = some (vs, rest)) :
    ∃ used, cs = used ++ ']' :: rest ∧ Text number (.items vs) used := by
  rw [readItems] at h
  obtain ⟨⟨v, after⟩, hvalue, h⟩ := Option.bind_eq_some_iff.mp h
  obtain ⟨a, ha, hcs⟩ := skipSpaces_sound cs
  obtain ⟨used, hused, htext⟩ := ih.value hvalue
  rw [hused] at hcs
  dsimp only at h
  cases hend : readMark ']' after with
  | some tail =>
    rw [hend] at h
    cases h
    obtain ⟨b, hb, rfl⟩ := readMark_sound hend
    exact ⟨_, by rw [hcs]; simp, .lastItem ha htext hb⟩
  | none =>
    rw [hend] at h
    obtain ⟨tail, hcomma, h⟩ := Option.bind_eq_some_iff.mp h
    obtain ⟨⟨vs', rest'⟩, hitems, heq⟩ := Option.map_eq_some_iff.mp h
    obtain ⟨b, hb, rfl⟩ := readMark_sound hcomma
    obtain ⟨others, rfl, hothers⟩ := ih.items hitems
    cases heq
    exact ⟨_, by rw [hcs]; simp, .item ha htext hb hothers⟩

lemma SoundUpTo.succ_members {n : ℕ} (ih : SoundUpTo number n)
    {ms : List (List ℕ × Decoded ν)} (h : readMembers number (n + 1) cs = some (ms, rest)) :
    ∃ used, cs = used ++ '}' :: rest ∧ Text number (.members ms) used := by
  rw [readMembers] at h
  obtain ⟨⟨k, afterKey⟩, hkey, h⟩ := Option.bind_eq_some_iff.mp h
  obtain ⟨⟨v, after⟩, hvalue, h⟩ := Option.bind_eq_some_iff.mp h
  obtain ⟨a, ha, hcs⟩ := skipSpaces_sound cs
  obtain ⟨key, hkeyText, hkeySplit⟩ := readKey_sound hkey
  obtain ⟨used, hused, htext⟩ := ih.value hvalue
  dsimp only at hused h
  rw [hkeySplit, hused] at hcs
  cases hend : readMark '}' after with
  | some tail =>
    rw [hend] at h
    cases h
    obtain ⟨b, hb, rfl⟩ := readMark_sound hend
    exact ⟨_, by rw [hcs]; simp, .lastMember ha hkeyText htext hb⟩
  | none =>
    rw [hend] at h
    obtain ⟨tail, hcomma, h⟩ := Option.bind_eq_some_iff.mp h
    obtain ⟨⟨ms', rest'⟩, hmembers, heq⟩ := Option.map_eq_some_iff.mp h
    obtain ⟨b, hb, rfl⟩ := readMark_sound hcomma
    obtain ⟨others, rfl, hothers⟩ := ih.members hmembers
    cases heq
    exact ⟨_, by rw [hcs]; simp, .member ha hkeyText htext hb hothers⟩

variable (number) in
lemma soundUpTo (n : ℕ) : SoundUpTo number n := by
  induction n with
  | zero => exact ⟨fun h => by simp [readValue] at h, fun h => by simp [readItems] at h,
      fun h => by simp [readMembers] at h⟩
  | succ n ih =>
    refine ⟨fun {cs _ _} h => ?_, ih.succ_items, ih.succ_members⟩
    cases cs with
    | nil       => simp [readValue] at h
    | cons c cs => exact ih.succ_value h

/-- The decoder gives a value exactly for its texts, between white space. -/
theorem loads_eq_some : loads number cs = some v ↔
    ∃ a used b, Blank a ∧ Blank b ∧ cs = a ++ (used ++ b) ∧ Text number (.value v) used := by
  constructor
  · intro h
    obtain ⟨⟨v', rest⟩, hvalue, h⟩ := Option.bind_eq_some_iff.mp h
    dsimp only at h
    split_ifs at h with hend
    cases h
    obtain ⟨a, ha, hcs⟩ := skipSpaces_sound cs
    obtain ⟨used, hused, htext⟩ := (soundUpTo number _).value hvalue
    obtain ⟨b, hb, hrest⟩ := skipSpaces_sound rest
    rw [hend, List.append_nil] at hrest
    exact ⟨a, used, b, ha, hb, by rw [hcs, hused, hrest], htext⟩
  · rintro ⟨a, used, b, ha, hb, rfl, htext⟩
    have hend : EndsNumber b := by
      cases b with
      | nil      => exact fun c hc => by cases hc
      | cons c b =>
        refine before_cons ?_
        have hc := hb c List.mem_cons_self
        simp only [List.mem_cons, List.not_mem_nil, or_false] at hc
        rcases hc with rfl | rfl | rfl | rfl <;> decide
    have hfuel : used.length ≤ (a ++ (used ++ b)).length := by
      simp only [List.length_append]
      omega
    have hblank : skipSpaces b = [] := List.dropWhile_eq_nil_iff.mpr fun c hc => by
      simpa using hb c hc
    rw [loads, htext.skip ha, htext.reads _ b hfuel hend]
    simp [hblank]

end Sound

end CyberBrain.JsonText
