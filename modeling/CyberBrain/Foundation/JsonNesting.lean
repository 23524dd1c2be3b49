import CyberBrain.Foundation.JsonGrammar
import CyberBrain.Foundation.Lines

/-!
# Nesting in JSON texts

A scanner that only tells strings from what is around them and counts braces. It tells an object
from what is left of one, and sees line breaks that a string cannot have.
-/

namespace CyberBrain.JsonText

open Python

inductive Mode
  | outside
  | inside
  | escaped
  deriving DecidableEq

/-- A line break that is not white space of JSON. -/
def OddBreak (c : Char) : Prop := isLineBreak c ∧ c ∉ ['\n', '\r']

instance (c : Char) : Decidable (OddBreak c) := inferInstanceAs (Decidable (_ ∧ _))

/-- A step of the scanner, with the depth of braces. A strict one stops at what no text has at this
place. -/
def scanStep (strict : Bool) : Mode × ℤ → Char → Option (Mode × ℤ)
  | (.outside, d), c =>
    if c = '"' then some (.inside, d)
    else if c = '{' then some (.outside, d + 1)
    else if c = '}' then some (.outside, d - 1)
    else if c = '\\' ∨ (strict ∧ OddBreak c) then none
    else some (.outside, d)
  | (.inside, d), c  =>
    if c = '"' then some (.outside, d)
    else if c = '\\' then some (.escaped, d)
    else if strict ∧ c.toNat < 32 then none
    else some (.inside, d)
  | (.escaped, d), c =>
    if c ∈ ['"', '\\', '/', 'b', 'f', 'n', 'r', 't', 'u'] then some (.inside, d) else none

def scan (strict : Bool) (s : Mode × ℤ) (cs : List Char) : Option (Mode × ℤ) :=
  cs.foldlM (scanStep strict) s

variable {strict : Bool} {s : Mode × ℤ} {d e : ℤ} {m : Mode} {cs x y : List Char}

@[simp] lemma scan_nil : scan strict s [] = some s := rfl

lemma scan_cons (c : Char) :
    scan strict s (c :: cs) = (scanStep strict s c).bind fun t => scan strict t cs := rfl

lemma scan_append (s : Mode × ℤ) (x y : List Char) :
    scan strict s (x ++ y) = (scan strict s x).bind fun t => scan strict t y :=
  List.foldlM_append

/-! ### Balanced texts -/

/-- The braces of a text match, and none of it is below the depth at which it starts. -/
structure Balanced (strict : Bool) (cs : List Char) : Prop where
  whole : ∀ d, scan strict (.outside, d) cs = some (.outside, d)
  above : ∀ {d e x y}, cs = x ++ y → scan strict (.outside, d) x = some (.outside, e) → d ≤ e

lemma balanced_nil : Balanced strict [] where
  whole _ := rfl
  above h hx := by
    obtain ⟨rfl, -⟩ := List.append_eq_nil_iff.mp h.symm
    cases hx
    exact le_rfl

lemma Balanced.append (hx : Balanced strict x) (hy : Balanced strict y) :
    Balanced strict (x ++ y) where
  whole d := by rw [scan_append, hx.whole, Option.bind_some, hy.whole]
  above {d e v w} h hv := by
    rcases List.append_eq_append_iff.mp h with ⟨z, rfl, hz⟩ | ⟨z, hz, -⟩
    · rw [scan_append, hx.whole, Option.bind_some] at hv
      exact hy.above hz hv
    · exact hx.above hz hv

/-- A character outside strings that is no brace. -/
def Plain (c : Char) : Prop := c ∉ ['"', '{', '}', '\\'] ∧ ¬ OddBreak c

instance : DecidablePred Plain := fun _ => inferInstanceAs (Decidable (_ ∧ _))

lemma Plain.step {c : Char} (h : Plain c) :
    scanStep strict (.outside, d) c = some (.outside, d) := by
  obtain ⟨hmem, hodd⟩ := h
  simp only [List.mem_cons, List.not_mem_nil, or_false, not_or] at hmem
  simp [scanStep, hmem, hodd]

lemma balanced_char {c : Char} (h : Plain c) : Balanced strict [c] where
  whole d := by rw [scan_cons, h.step]; rfl
  above {d e x y} hc hx := by
    cases x with
    | nil       =>
      cases hx
      exact le_rfl
    | cons c' x =>
      obtain ⟨rfl, hnil⟩ := List.cons.inj hc
      obtain ⟨rfl, -⟩ := List.append_eq_nil_iff.mp hnil.symm
      rw [scan_cons, h.step] at hx
      cases hx
      exact le_rfl

lemma balanced_plain (h : ∀ c ∈ cs, Plain c) : Balanced strict cs := by
  induction cs with
  | nil => exact balanced_nil
  | cons c cs ih =>
    obtain ⟨hc, hcs⟩ := List.forall_mem_cons.mp h
    exact (balanced_char hc).append (ih hcs)

/-! ### Strings -/

/-- The scanner stays inside a string. -/
structure StaysInside (strict : Bool) (cs : List Char) : Prop where
  whole : ∀ d, scan strict (.inside, d) cs = some (.inside, d)
  never : ∀ {d e x y}, cs = x ++ y → scan strict (.inside, d) x ≠ some (.outside, e)

lemma staysInside_nil : StaysInside strict [] where
  whole _ := rfl
  never h hx := by
    obtain ⟨rfl, -⟩ := List.append_eq_nil_iff.mp h.symm
    cases hx

lemma StaysInside.append (hx : StaysInside strict x) (hy : StaysInside strict y) :
    StaysInside strict (x ++ y) where
  whole d := by rw [scan_append, hx.whole, Option.bind_some, hy.whole]
  never {d e v w} h hv := by
    rcases List.append_eq_append_iff.mp h with ⟨z, rfl, hz⟩ | ⟨z, hz, -⟩
    · rw [scan_append, hx.whole, Option.bind_some] at hv
      exact hy.never hz hv
    · exact hx.never hz hv

lemma staysInside_char {c : Char} (hc : 32 ≤ c.toNat) (hquote : c ≠ '"') (hslash : c ≠ '\\') :
    StaysInside strict [c] := by
  have hstep : ∀ d, scanStep strict (.inside, d) c = some (.inside, d) := fun d => by
    simp [scanStep, hquote, hslash, not_lt.mpr hc]
  constructor
  case whole =>
    intro d
    rw [scan_cons, hstep]
    rfl
  case never =>
    intro d e x y h hx
    cases x with
    | nil       => cases hx
    | cons c' x =>
      obtain ⟨rfl, hnil⟩ := List.cons.inj h
      obtain ⟨rfl, -⟩ := List.append_eq_nil_iff.mp hnil.symm
      rw [scan_cons, hstep] at hx
      cases hx

lemma staysInside_escape {c : Char}
    (hc : c ∈ ['"', '\\', '/', 'b', 'f', 'n', 'r', 't', 'u']) : StaysInside strict ['\\', c] := by
  have hslash : ∀ d, scanStep strict (.inside, d) '\\' = some (.escaped, d) := fun d => by
    simp [scanStep]
  have hstep : ∀ d, scanStep strict (.escaped, d) c = some (.inside, d) := fun d => by
    rw [scanStep, if_pos hc]
  constructor
  case whole =>
    intro d
    rw [scan_cons, hslash, Option.bind_some, scan_cons, hstep]
    rfl
  case never =>
    intro d e x y h hx
    cases x with
    | nil       => cases hx
    | cons c' x =>
      obtain ⟨rfl, hrest⟩ := List.cons.inj h
      rw [scan_cons, hslash, Option.bind_some] at hx
      cases x with
      | nil       => cases hx
      | cons c' x =>
        obtain ⟨rfl, hnil⟩ := List.cons.inj hrest
        obtain ⟨rfl, -⟩ := List.append_eq_nil_iff.mp hnil.symm
        rw [scan_cons, hstep] at hx
        cases hx

lemma unescape_mem {e c : Char} (h : unescape e = some c) :
    e ∈ ['"', '\\', '/', 'b', 'f', 'n', 'r', 't', 'u'] := by
  unfold unescape at h
  split_ifs at h with hself
  · rcases hself with rfl | rfl | rfl <;> decide
  all_goals simp_all

lemma hexValue_range {c : Char} {n : ℕ} (h : hexValue c = some n) :
    32 ≤ c.toNat ∧ c ≠ '"' ∧ c ≠ '\\' := by
  have hrange : 48 ≤ c.toNat ∧ c.toNat ≤ 57 ∨ 97 ≤ c.toNat ∧ c.toNat ≤ 102 ∨
      65 ≤ c.toNat ∧ c.toNat ≤ 70 := by
    simp only [hexValue, Char.le_def, UInt32.le_iff_toNat_le] at h
    split_ifs at h with hdigit hlower hupper
    · exact .inl hdigit
    · exact .inr (.inl hlower)
    · exact .inr (.inr hupper)
  refine ⟨by omega, ?_, ?_⟩
  all_goals
    rintro rfl
    revert hrange
    decide

lemma StringBody.staysInside {ns : List ℕ} (h : StringBody cs ns) : StaysInside strict cs := by
  induction h with
  | done => exact staysInside_nil
  | plain hc hquote hslash _ ih => exact (staysInside_char hc hquote hslash).append ih
  | escape he _ ih => exact (staysInside_escape (unescape_mem he)).append ih
  | @unicode a b c d n cs ns hn _ ih =>
    have hdigit : ∀ v cs m, readHex v cs = some m → StaysInside strict cs := by
      intro v cs
      induction cs generalizing v with
      | nil => exact fun _ _ => staysInside_nil
      | cons c cs ih =>
        intro m hm
        obtain ⟨w, hw, hm⟩ := Option.bind_eq_some_iff.mp hm
        obtain ⟨hc, hquote, hslash⟩ := hexValue_range hw
        exact (staysInside_char hc hquote hslash).append (ih _ m hm)
    exact (staysInside_escape (by decide)).append ((hdigit 0 _ n hn).append ih)

lemma StaysInside.quoted (h : StaysInside strict cs) : Balanced strict ('"' :: (cs ++ ['"'])) := by
  have hopen : ∀ d, scanStep strict (.outside, d) '"' = some (.inside, d) := fun d => by
    simp [scanStep]
  have hclose : ∀ d, scan strict (.inside, d) ['"'] = some (.outside, d) := fun d => by
    simp [scan_cons, scanStep]
  constructor
  case whole =>
    intro d
    rw [scan_cons, hopen, Option.bind_some, scan_append, h.whole, Option.bind_some, hclose]
  case above =>
    intro d e x y hcs hx
    cases x with
    | nil =>
      cases hx
      exact le_rfl
    | cons c x =>
      obtain ⟨rfl, hrest⟩ := List.cons.inj hcs
      rw [scan_cons, hopen, Option.bind_some] at hx
      rcases List.append_eq_append_iff.mp hrest with ⟨z, rfl, hz⟩ | ⟨z, hz, -⟩
      · rw [scan_append, h.whole, Option.bind_some] at hx
        cases z with
        | nil       => cases hx
        | cons c z =>
          obtain ⟨rfl, hnil⟩ := List.cons.inj hz
          obtain ⟨rfl, -⟩ := List.append_eq_nil_iff.mp hnil.symm
          rw [hclose] at hx
          cases hx
          exact le_rfl
      · exact absurd hx (h.never hz)

/-! ### Braces -/

/-- A beginning of what stands in braces is below the depth at which the braces stand. -/
lemma Balanced.deeper (h : Balanced strict cs) (hx : x ≠ []) (hy : y ≠ [])
    (hcs : '{' :: (cs ++ ['}']) = x ++ y)
    (hscan : scan strict (.outside, d) x = some (.outside, e)) : d < e := by
  cases x with
  | nil => exact absurd rfl hx
  | cons c x =>
    obtain ⟨rfl, hrest⟩ := List.cons.inj hcs
    have hopen : scanStep strict (.outside, d) '{' = some (.outside, d + 1) := by simp [scanStep]
    rw [scan_cons, hopen, Option.bind_some] at hscan
    rcases List.append_eq_append_iff.mp hrest with ⟨z, rfl, hz⟩ | ⟨z, hz, -⟩
    · have hnil : z = [] := by
        cases z with
        | nil       => rfl
        | cons c z =>
          obtain ⟨-, hnil⟩ := List.cons.inj hz
          exact absurd (List.append_eq_nil_iff.mp hnil.symm).2 hy
      rw [hnil, List.append_nil, h.whole] at hscan
      cases hscan
      exact Int.lt_succ d
    · exact Int.lt_of_lt_of_le (Int.lt_succ d) (h.above hz hscan)

lemma Balanced.braces (h : Balanced strict cs) : Balanced strict ('{' :: (cs ++ ['}'])) := by
  have hopen : ∀ d, scanStep strict (.outside, d) '{' = some (.outside, d + 1) := fun d => by
    simp [scanStep]
  have hclose : ∀ d, scan strict (.outside, d + 1) ['}'] = some (.outside, d) := fun d => by
    simp [scan_cons, scanStep]
  have hwhole : ∀ d, scan strict (.outside, d) ('{' :: (cs ++ ['}'])) = some (.outside, d) := by
    intro d
    rw [scan_cons, hopen, Option.bind_some, scan_append, h.whole, Option.bind_some, hclose]
  refine ⟨hwhole, fun {d e x y} hcs hx => ?_⟩
  by_cases hnil : x = []
  · subst hnil
    cases hx
    exact le_rfl
  · by_cases hend : y = []
    · rw [hend, List.append_nil] at hcs
      rw [← hcs, hwhole] at hx
      cases hx
      exact le_rfl
    · exact (h.deeper hnil hend hcs hx).le

lemma plain_blank {a : List Char} (ha : Blank a) : ∀ c ∈ a, Plain c := by
  intro c hc
  have hmem := ha c hc
  simp only [List.mem_cons, List.not_mem_nil, or_false] at hmem
  unfold Plain
  rcases hmem with rfl | rfl | rfl | rfl <;> decide

/-- The marks and letters of numbers. -/
def numberMarks : List Char := ['-', '+', '.', 'e', 'E', 'N', 'a', 'I', 'n', 'f', 'i', 't', 'y']

lemma number_chars (h : IsNumber cs) : ∀ c ∈ cs, c.isDigit ∨ c ∈ numberMarks := by
  have hsign : ∀ {allowed sign : List Char}, allowed ⊆ numberMarks →
      Sign allowed sign → ∀ c ∈ sign, c.isDigit ∨ c ∈ numberMarks := by
    rintro allowed sign hallowed (rfl | ⟨c, hc, rfl⟩) d hd
    · cases hd
    · exact .inr (List.mem_singleton.mp hd ▸ hallowed hc)
  cases h with
  | constant hcs =>
    simp only [constants, List.mem_cons, List.not_mem_nil, or_false] at hcs
    rcases hcs with rfl | rfl | rfl <;> exact forall_mem_of_all (by decide)
  | decimal hsignText hwhole hfraction hexponent =>
    simp only [List.forall_mem_append]
    refine ⟨⟨⟨hsign (by decide) hsignText, fun c hc => .inl (hwhole.1.2 c hc)⟩, ?_⟩, ?_⟩
    · rcases hfraction with rfl | ⟨ds, rfl, -, hdigits⟩
      · simp
      · exact List.forall_mem_cons.mpr ⟨by decide, fun c hc => .inl (hdigits c hc)⟩
    · rcases hexponent with rfl | ⟨e, sign, ds, rfl, he, hsignText, -, hdigits⟩
      · simp
      · refine List.forall_mem_cons.mpr ⟨.inr ?_, List.forall_mem_append.mpr
          ⟨hsign (by decide) hsignText, fun c hc => .inl (hdigits c hc)⟩⟩
        rcases List.mem_pair.mp he with rfl | rfl <;> decide

lemma number_char_range {c : Char} (hc : c.isDigit ∨ c ∈ numberMarks) :
    43 ≤ c.toNat ∧ c.toNat ≤ 121 ∧ c ≠ '\\' := by
  rcases hc with hdigit | hmark
  · simp only [Char.isDigit, Bool.and_eq_true, decide_eq_true_eq, ge_iff_le,
      UInt32.le_iff_toNat_le] at hdigit
    have hrange : 48 ≤ c.toNat ∧ c.toNat ≤ 57 := hdigit
    refine ⟨by omega, by omega, ?_⟩
    rintro rfl
    exact absurd hrange (by decide)
  · have hall : ∀ d ∈ numberMarks, 43 ≤ d.toNat ∧ d.toNat ≤ 121 ∧ d ≠ '\\' :=
      forall_mem_of_all (by decide)
    exact hall c hmark

lemma plain_number (h : IsNumber cs) : ∀ c ∈ cs, Plain c := by
  intro c hc
  obtain ⟨hlow, hhigh, hslash⟩ := number_char_range (number_chars h c hc)
  constructor
  · intro hmem
    simp only [List.mem_cons, List.not_mem_nil, or_false] at hmem
    rcases hmem with rfl | rfl | rfl | rfl
    · exact absurd hlow (by decide)
    · exact absurd hhigh (by decide)
    · exact absurd hhigh (by decide)
    · exact hslash rfl
  · rintro ⟨hbreak, -⟩
    simp only [isLineBreak, Bool.or_eq_true, Bool.and_eq_true, decide_eq_true_eq] at hbreak
    omega

variable {ν : Type*} {number : List Char → ν} {f : Form ν}

/-- Texts are balanced. -/
theorem Text.balanced (h : Text number f cs) : Balanced strict cs := by
  have hblank : ∀ {a : List Char}, Blank a → Balanced strict a := fun ha =>
    balanced_plain (plain_blank ha)
  have hbracket : ∀ {cs : List Char}, Balanced strict cs →
      Balanced strict ('[' :: (cs ++ [']'])) := fun h =>
    (balanced_char (by unfold Plain; decide)).append
      (h.append (balanced_char (by unfold Plain; decide)))
  have hcomma : ∀ {cs : List Char}, Balanced strict cs → Balanced strict (',' :: cs) := fun h =>
    (balanced_char (by unfold Plain; decide)).append h
  have hkeys : ∀ {k : List ℕ} {key : List Char}, Key k key → Balanced strict key := by
    rintro k key ⟨hbody, hb, hc⟩
    have hcolon : Plain ':' := by unfold Plain; decide
    simpa using hbody.staysInside.quoted.append ((hblank hb).append
      ((balanced_char hcolon).append (hblank hc)))
  induction h with
  | null | yes | no => exact balanced_plain (forall_mem_of_all (by decide))
  | number h => exact balanced_plain (plain_number h)
  | str h => exact h.staysInside.quoted
  | noItems ha => exact hbracket (hblank ha)
  | arr _ ih => exact hbracket ih
  | noMembers ha => exact (hblank ha).braces
  | obj _ ih => exact ih.braces
  | lastItem ha _ hb ih => exact (hblank ha).append (ih.append (hblank hb))
  | item ha _ hb _ ih ihrest =>
    exact (hblank ha).append (ih.append ((hblank hb).append (hcomma ihrest)))
  | lastMember ha hkey _ hb ih =>
    exact (hblank ha).append ((hkeys hkey).append (ih.append (hblank hb)))
  | member ha hkey _ hb _ ih ihrest =>
    exact (hblank ha).append ((hkeys hkey).append
      (ih.append ((hblank hb).append (hcomma ihrest))))

/-! ### What is left of an object -/

/-- Inside a string and outside, the scanner takes the same text the opposite way. -/
lemma scan_opposite {p q : Mode × ℤ} (hinside : scan strict (.inside, d) cs = some p)
    (houtside : scan strict (.outside, e) cs = some q) :
    p.1 = .inside ∧ q.1 = .outside ∨ p.1 = .outside ∧ q.1 = .inside := by
  have hboth : ∀ (cs : List Char) (m m' : Mode) (d e : ℤ),
      (m = .inside ∧ m' = .outside ∨ m = .outside ∧ m' = .inside) →
      scan strict (m, d) cs = some p → scan strict (m', e) cs = some q →
        p.1 = .inside ∧ q.1 = .outside ∨ p.1 = .outside ∧ q.1 = .inside := by
    intro cs
    induction cs with
    | nil =>
      intro m m' d e hm hp hq
      cases hp
      cases hq
      exact hm
    | cons c cs ih =>
      intro m m' d e hm hp hq
      rw [scan_cons] at hp hq
      obtain ⟨⟨m₁, d₁⟩, hstep, hp⟩ := Option.bind_eq_some_iff.mp hp
      obtain ⟨⟨m₂, e₁⟩, hstep', hq⟩ := Option.bind_eq_some_iff.mp hq
      refine ih m₁ m₂ d₁ e₁ ?_ hp hq
      rcases hm with ⟨rfl, rfl⟩ | ⟨rfl, rfl⟩
      all_goals
        simp only [scanStep] at hstep hstep'
        split_ifs at hstep hstep' <;> simp_all
  exact hboth cs _ _ d e (.inl ⟨rfl, rfl⟩) hinside houtside

/-- What is left of an object is no object. -/
theorem Balanced.suffix_ne {inner inner' : List Char} (h : Balanced strict inner)
    (h' : Balanced strict inner') (hx : x ≠ []) :
    '{' :: (inner ++ ['}']) ≠ x ++ '{' :: (inner' ++ ['}']) := by
  intro hcs
  have hwhole := h.braces.whole 0
  rw [hcs, scan_append] at hwhole
  obtain ⟨⟨m, e⟩, hscan, hrest⟩ := Option.bind_eq_some_iff.mp hwhole
  cases m with
  | outside =>
    have hdeep := h.deeper hx (List.cons_ne_nil _ _) hcs hscan
    rw [h'.braces.whole] at hrest
    cases hrest
    exact lt_irrefl _ hdeep
  | inside =>
    rcases scan_opposite hrest (h'.braces.whole 0) with ⟨hmode, -⟩ | ⟨-, hmode⟩ <;> cases hmode
  | escaped =>
    rw [scan_cons] at hrest
    cases hrest

/-- The text of an object is a balanced text in braces. -/
lemma Text.braced {ms : List (List ℕ × Decoded ν)} (h : Text number (.value (.obj ms)) cs) :
    ∃ inner, cs = '{' :: (inner ++ ['}']) ∧ ∀ strict, Balanced strict inner := by
  cases h with
  | @noMembers a ha => exact ⟨a, rfl, fun _ => balanced_plain (plain_blank ha)⟩
  | @obj _ cs h     => exact ⟨cs, rfl, fun _ => h.balanced⟩

/-! ### Line breaks -/

lemma isLineBreak_notMem {c : Char} (h : isLineBreak c) :
    c ∉ ['"', '{', '}', '\\'] ∧ c ∉ ['"', '\\', '/', 'b', 'f', 'n', 'r', 't', 'u'] := by
  have hbrace : ∀ d ∈ ['"', '{', '}', '\\'], isLineBreak d = false :=
    forall_mem_of_all (by decide)
  have hletter : ∀ d ∈ ['"', '\\', '/', 'b', 'f', 'n', 'r', 't', 'u'], isLineBreak d = false :=
    forall_mem_of_all (by decide)
  refine ⟨fun hmem => ?_, fun hmem => ?_⟩
  · rw [hbrace c hmem] at h
    cases h
  · rw [hletter c hmem] at h
    cases h

/-- A lenient scanner passes over a line break, except after a backslash. -/
lemma scanStep_break {c : Char} (h : isLineBreak c) (s : Mode × ℤ) :
    scanStep false s c = if s.1 = .escaped then none else some s := by
  obtain ⟨hmarks, hletters⟩ := isLineBreak_notMem h
  obtain ⟨m, d⟩ := s
  simp only [List.mem_cons, List.not_mem_nil, or_false, not_or] at hmarks
  cases m with
  | outside => simp [scanStep, hmarks]
  | inside  => simp [scanStep, hmarks]
  | escaped => rw [scanStep, if_neg hletters, if_pos rfl]

/-- A lenient scanner does not mind how lines are broken. -/
lemma scan_newlines (s : Mode × ℤ) (cs : List Char) :
    scan false s (newlines cs) = scan false s cs := by
  have hlf : isLineBreak '\n' := by decide
  have hcr : isLineBreak '\r' := by decide
  induction cs using newlines.induct generalizing s with
  | case1 => rfl
  | case2 cs ih =>
    rw [newlines, scan_cons, scan_cons, scanStep_break hlf, scanStep_break hcr]
    split_ifs with hescaped
    · rfl
    · rw [Option.bind_some, Option.bind_some, scan_cons, scanStep_break hlf, if_neg hescaped, ih]
      rfl
  | case3 c cs hpair ih =>
    rw [newlines_cons fun hc rest hcs => hpair rest hc hcs, scan_cons, scan_cons]
    split_ifs with hbreak
    · rw [scanStep_break hlf, scanStep_break hbreak]
      exact congrArg _ (funext fun t => ih t)
    · exact congrArg _ (funext fun t => ih t)

/-- How lines are broken does not matter to the nesting. -/
lemma Balanced.newlines (h : Balanced false cs) : Balanced false (newlines cs) where
  whole d := (scan_newlines _ cs).trans (h.whole d)
  above {d e x y} hcs hx := by
    obtain ⟨a, b, rfl, rfl⟩ := newlines_eq_append hcs
    rw [scan_newlines] at hx
    exact h.above rfl hx

/-- A strict scanner passes over a newline outside strings only. -/
lemma scanStep_newline {c : Char} (hc : c ∈ ['\n', '\r']) (s : Mode × ℤ) :
    scanStep true s c = if s.1 = .outside then some s else none := by
  obtain ⟨m, d⟩ := s
  rcases List.mem_pair.mp hc with rfl | rfl <;> cases m <;> rfl

/-- A strict scanner that takes a text with its own line breaks and with newlines has seen no other
breaks. -/
lemma scan_oddBreak {s p q : Mode × ℤ} (hown : scan true s cs = some p)
    (hnew : scan true s (newlines cs) = some q) : ∀ c ∈ cs, ¬ OddBreak c := by
  have hlf : '\n' ∈ ['\n', '\r'] := by simp
  have hcr : '\r' ∈ ['\n', '\r'] := by simp
  have heven : ∀ {c : Char}, c ∈ ['\n', '\r'] → ¬ OddBreak c := fun hc hodd => hodd.2 hc
  induction cs using newlines.induct generalizing s with
  | case1 => simp
  | case2 cs ih =>
    rw [newlines, scan_cons, scanStep_newline hlf] at hnew
    rw [scan_cons, scanStep_newline hcr] at hown
    split_ifs at hnew hown with houtside
    · rw [Option.bind_some, scan_cons, scanStep_newline hlf, if_pos houtside] at hown
      exact List.forall_mem_cons.mpr ⟨heven hcr, List.forall_mem_cons.mpr
        ⟨heven hlf, ih hown hnew⟩⟩
    · cases hnew
  | case3 c cs hpair ih =>
    rw [newlines_cons fun hc rest hcs => hpair rest hc hcs, scan_cons] at hnew
    rw [scan_cons] at hown
    split_ifs at hnew with hbreak
    · rw [scanStep_newline hlf] at hnew
      split_ifs at hnew with houtside
      · obtain ⟨t, hstep, hown⟩ := Option.bind_eq_some_iff.mp hown
        obtain ⟨m, d⟩ := s
        cases houtside
        obtain ⟨hmarks, -⟩ := isLineBreak_notMem hbreak
        simp only [List.mem_cons, List.not_mem_nil, or_false, not_or] at hmarks
        simp only [scanStep, hmarks, if_false, false_or, true_and] at hstep
        split_ifs at hstep with hodd
        cases hstep
        exact List.forall_mem_cons.mpr ⟨hodd, ih hown hnew⟩
      · cases hnew
    · obtain ⟨t, hstep, hown⟩ := Option.bind_eq_some_iff.mp hown
      rw [hstep, Option.bind_some] at hnew
      exact List.forall_mem_cons.mpr ⟨fun hodd => hbreak hodd.1, ih hown hnew⟩

/-! ### Texts with newlines -/

lemma Blank.relined {a : List Char} (ha : Blank a) : Blank (newlines a) := by
  intro c hc
  rcases mem_newlines hc with rfl | hc
  · simp
  · exact ha c hc

/-- What does not start with white space is apart from what is before it. -/
lemma apart_solid {c : Char} (hc : Solid c) (x y : List Char) : Apart x (c :: y) := by
  refine .inr fun h => ?_
  cases h
  exact hc (by simp)

lemma apart_last {c : Char} (hc : c ≠ '\r') (x y : List Char) : Apart (x ++ [c]) y := by
  refine .inl fun h => ?_
  simp only [List.getLast?_append, List.getLast?_singleton, Option.some_or, Option.mem_def,
    Option.some.injEq] at h
  exact hc h

lemma StringBody.control {ns : List ℕ} (h : StringBody cs ns) : ∀ c ∈ cs, 32 ≤ c.toNat := by
  induction h with
  | done => simp
  | plain hc _ _ _ ih => exact List.forall_mem_cons.mpr ⟨hc, ih⟩
  | @escape e c cs ns he _ ih =>
    have hletter : ∀ d ∈ ['"', '\\', '/', 'b', 'f', 'n', 'r', 't', 'u'], 32 ≤ d.toNat :=
      forall_mem_of_all (by decide)
    exact List.forall_mem_cons.mpr ⟨by decide, List.forall_mem_cons.mpr
      ⟨hletter e (unescape_mem he), ih⟩⟩
  | @unicode a b c d n cs ns hn _ ih =>
    obtain ⟨va, ha, hn⟩ := Option.bind_eq_some_iff.mp hn
    obtain ⟨vb, hb, hn⟩ := Option.bind_eq_some_iff.mp hn
    obtain ⟨vc, hc, hn⟩ := Option.bind_eq_some_iff.mp hn
    obtain ⟨vd, hd, hn⟩ := Option.bind_eq_some_iff.mp hn
    simp only [List.forall_mem_cons]
    exact ⟨by decide, by decide, (hexValue_range ha).1, (hexValue_range hb).1,
      (hexValue_range hc).1, (hexValue_range hd).1, ih⟩

/-- No character of a line break is printed. -/
lemma not_isLineBreak {c : Char} (hc : 32 ≤ c.toNat) (hodd : ¬ OddBreak c) :
    isLineBreak c = false := by
  refine Bool.eq_false_of_not_eq_true fun hbreak => hodd ⟨hbreak, fun hmem => ?_⟩
  rcases List.mem_pair.mp hmem with rfl | rfl <;> exact absurd hc (by decide)

/-- A string stays as it is. -/
lemma newlines_quoted {ns : List ℕ} {body : List Char} (h : StringBody body ns)
    (hodd : ∀ c ∈ body, ¬ OddBreak c) :
    newlines ('"' :: (body ++ ['"'])) = '"' :: (body ++ ['"']) := by
  refine newlines_eq_self fun c hc => ?_
  rcases List.mem_cons.mp hc with rfl | hc
  · decide
  · rcases List.mem_append.mp hc with hc | hc
    · exact not_isLineBreak (h.control c hc) (hodd c hc)
    · cases List.mem_singleton.mp hc
      decide

lemma newlines_number (h : IsNumber cs) : newlines cs = cs := by
  refine newlines_eq_self fun c hc => not_isLineBreak ?_ (plain_number h c hc).2
  exact le_trans (by decide) (number_char_range (number_chars h c hc)).1

/-- A value does not end inside a line break. -/
lemma Text.apart {v : Decoded ν} (h : Text number (.value v) cs) (y : List Char) : Apart cs y := by
  cases h with
  | null | yes | no => exact .inl (by decide)
  | number h =>
    refine .inl fun hlast => ?_
    have hrange := number_char_range (number_chars h _ (List.mem_of_getLast? hlast))
    exact absurd hrange (by decide)
  | str h => exact apart_last (x := '"' :: _) (by decide) y
  | noItems ha => exact apart_last (x := '[' :: _) (by decide) y
  | arr h => exact apart_last (x := '[' :: _) (by decide) y
  | noMembers ha => exact apart_last (x := '{' :: _) (by decide) y
  | obj h => exact apart_last (x := '{' :: _) (by decide) y

/-- A mark stays as it is before a text. -/
lemma newlines_mark {c : Char} (hc : isLineBreak c = false) (cs : List Char) :
    newlines (c :: cs) = c :: newlines cs := by
  rw [newlines_cons, if_neg (by simp [hc])]
  rintro rfl
  cases hc

/-- Marks around a text stay as they are. -/
lemma newlines_between {c c' : Char} (hc : isLineBreak c = false) (hc' : isLineBreak c' = false)
    (hsolid : Solid c') (cs : List Char) :
    newlines (c :: (cs ++ [c'])) = c :: (newlines cs ++ [c']) := by
  rw [newlines_mark hc, newlines_append (apart_solid hsolid cs []), newlines_mark hc']
  rfl

lemma Key.relined {k : List ℕ} {key : List Char} (h : Key k key)
    (hodd : ∀ c ∈ key, ¬ OddBreak c) : Key k (newlines key) := by
  cases h with
  | @mk body b c ns hbody hb hc =>
    have hquoted : newlines ('"' :: (body ++ ['"'])) = '"' :: (body ++ ['"']) :=
      newlines_quoted hbody fun c hc => hodd c (by simp [hc])
    have hkey : newlines ('"' :: (body ++ '"' :: (b ++ ':' :: c))) =
        '"' :: (body ++ '"' :: (newlines b ++ ':' :: newlines c)) := by
      have hsplit : '"' :: (body ++ '"' :: (b ++ ':' :: c)) =
          ('"' :: (body ++ ['"'])) ++ (b ++ ':' :: c) := by simp
      have hapart : Apart ('"' :: (body ++ ['"'])) (b ++ ':' :: c) :=
        apart_last (x := '"' :: body) (by decide) _
      rw [hsplit, newlines_append hapart, hquoted,
        newlines_append (apart_solid (by unfold Solid; decide) b c), newlines_mark (by decide)]
      simp
    rw [hkey]
    exact .mk hbody hb.relined hc.relined

lemma Text.apart_head {v : Decoded ν} (h : Text number (.value v) cs) (x y : List Char) :
    Apart x (cs ++ y) := by
  obtain ⟨c, tail, rfl, hc, -⟩ := h.head
  exact apart_solid hc x (tail ++ y)

lemma Key.apart_head {k : List ℕ} {key : List Char} (h : Key k key) (x y : List Char) :
    Apart x (key ++ y) := by
  cases h with
  | mk hbody hb hc => exact apart_solid (by unfold Solid; decide) x _

/-- A text without odd line breaks is a text of the same with newlines. -/
theorem Text.relined (h : Text number f cs) (hodd : ∀ c ∈ cs, ¬ OddBreak c) :
    Text number f (newlines cs) := by
  have hcomma : ∀ b rest, newlines (b ++ ',' :: rest) = newlines b ++ ',' :: newlines rest := by
    intro b rest
    rw [newlines_append (apart_solid solid_bracket.2.2 b rest), newlines_mark (by decide)]
  induction h with
  | null => exact .null
  | yes => exact .yes
  | no => exact .no
  | number h =>
    rw [newlines_number h]
    exact .number h
  | str h =>
    rw [newlines_quoted h fun c hc => hodd c (by simp [hc])]
    exact .str h
  | noItems ha =>
    rw [newlines_between (by decide) (by decide) solid_bracket.1]
    exact .noItems ha.relined
  | arr _ ih =>
    rw [newlines_between (by decide) (by decide) solid_bracket.1]
    exact .arr (ih fun c hc => hodd c (by simp [hc]))
  | noMembers ha =>
    rw [newlines_between (by decide) (by decide) solid_bracket.2.1]
    exact .noMembers ha.relined
  | obj _ ih =>
    rw [newlines_between (by decide) (by decide) solid_bracket.2.1]
    exact .obj (ih fun c hc => hodd c (by simp [hc]))
  | lastItem ha h hb ih =>
    rw [newlines_append (h.apart_head _ _), newlines_append (h.apart _)]
    exact .lastItem ha.relined (ih fun c hc => hodd c (by simp [hc])) hb.relined
  | item ha h hb _ ih ihrest =>
    rw [newlines_append (h.apart_head _ _), newlines_append (h.apart _), hcomma]
    exact .item ha.relined (ih fun c hc => hodd c (by simp [hc])) hb.relined
      (ihrest fun c hc => hodd c (by simp [hc]))
  | lastMember ha hkey h hb ih =>
    rw [newlines_append (hkey.apart_head _ _), newlines_append (h.apart_head _ _),
      newlines_append (h.apart _)]
    exact .lastMember ha.relined (hkey.relined fun c hc => hodd c (by simp [hc]))
      (ih fun c hc => hodd c (by simp [hc])) hb.relined
  | member ha hkey h hb _ ih ihrest =>
    rw [newlines_append (hkey.apart_head _ _), newlines_append (h.apart_head _ _),
      newlines_append (h.apart _), hcomma]
    exact .member ha.relined (hkey.relined fun c hc => hodd c (by simp [hc]))
      (ih fun c hc => hodd c (by simp [hc])) hb.relined
      (ihrest fun c hc => hodd c (by simp [hc]))

end CyberBrain.JsonText
