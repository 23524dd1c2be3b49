import CyberBrain.Foundation.Digits
import CyberBrain.Foundation.Json
import CyberBrain.Foundation.Python

/-!
# Unambiguous printing

Printers of values as texts, and when a text determines the value it was printed from. A printer is
*self-delimiting* when its text can be followed by anything, and *unambiguous* when its text can be
followed by a delimiter. Lists, quoted strings and JSON values in a given dialect are printed
unambiguously.
-/

namespace CyberBrain.Printing

variable {α : Type*}

/-! ### Self-delimiting and unambiguous printers -/

/-- The text of a value shows where it ends. -/
def SelfDelimiting (p : α → List Char) : Prop :=
  ∀ a b x y, p a ++ x = p b ++ y → a = b ∧ x = y

/-- The characters that separate and close. -/
def isDelimiter (c : Char) : Bool := c ∈ [',', ':', ']', '}', ')']

/-- What follows a value: a delimiter or the end of the text. -/
def Ends (x : List Char) : Prop := ∀ c ∈ x.head?, isDelimiter c

/-- The text of `a`, before a delimiter, is the text of no other value. -/
def UnambiguousAt (p : α → List Char) (a : α) : Prop :=
  ∀ b x y, Ends x → Ends y → p a ++ x = p b ++ y → a = b ∧ x = y

@[simp] lemma ends_nil : Ends [] := by simp [Ends]

@[simp] lemma ends_cons (c : Char) (x : List Char) : Ends (c :: x) ↔ isDelimiter c := by
  simp [Ends]

lemma SelfDelimiting.unambiguousAt {p : α → List Char} (h : SelfDelimiting p) (a : α) :
    UnambiguousAt p a :=
  fun b x y _ _ => h a b x y

lemma UnambiguousAt.eq {p : α → List Char} {a b : α} (h : UnambiguousAt p a) (hab : p a = p b) :
    a = b :=
  (h b [] [] ends_nil ends_nil (by simpa using hab)).1

/-! ### Tokens -/

/-- The characters of numbers and names. -/
def isTokenChar (c : Char) : Bool := c.isAlphanum || c ∈ ['-', '+', '.']

lemma not_isDelimiter_of_isTokenChar {c : Char} (h : isTokenChar c = true) :
    isDelimiter c = false := by
  by_contra hd
  simp only [isDelimiter, List.mem_cons, List.not_mem_nil, or_false, Bool.not_eq_false,
    decide_eq_true_eq] at hd
  rcases hd with rfl | rfl | rfl | rfl | rfl <;> revert h <;> decide

/-- Tokens before delimiters are told apart. -/
lemma token_append_inj {s t x y : List Char} (hs : ∀ c ∈ s, isTokenChar c)
    (ht : ∀ c ∈ t, isTokenChar c) (hx : Ends x) (hy : Ends y) (h : s ++ x = t ++ y) :
    s = t ∧ x = y := by
  induction s generalizing t with
  | nil =>
    cases t with
    | nil => exact ⟨rfl, h⟩
    | cons c t =>
      rw [List.nil_append] at h
      subst h
      have hc : isDelimiter c := (ends_cons _ _).mp hx
      simp [not_isDelimiter_of_isTokenChar (ht c List.mem_cons_self)] at hc
  | cons c s ih =>
    cases t with
    | nil =>
      rw [List.nil_append] at h
      subst h
      have hc : isDelimiter c := (ends_cons _ _).mp hy
      simp [not_isDelimiter_of_isTokenChar (hs c List.mem_cons_self)] at hc
    | cons d t =>
      obtain ⟨rfl, htail⟩ := List.cons.inj h
      obtain ⟨rfl, hxy⟩ := ih (fun c hc => hs c (List.mem_cons_of_mem _ hc))
        (fun c hc => ht c (List.mem_cons_of_mem _ hc)) htail
      exact ⟨rfl, hxy⟩

/-! ### Lists -/

/-- The texts of a list, with a comma and `sep` between them. -/
def joined (sep : List Char) (p : α → List Char) : List α → List Char
  | []          => []
  | [a]         => p a
  | a :: b :: l => p a ++ ',' :: (sep ++ joined sep p (b :: l))

/-- A closed list of unambiguous elements is self-delimiting. -/
lemma joined_append_inj {sep : List Char} {p : α → List Char} {close : Char}
    (hclose : isDelimiter close) (hne : close ≠ ',')
    (hhead : ∀ a, ∃ c r, p a = c :: r ∧ isDelimiter c = false) {l m : List α}
    (hl : ∀ a ∈ l, UnambiguousAt p a) {x y : List Char}
    (h : joined sep p l ++ close :: x = joined sep p m ++ close :: y) : l = m ∧ x = y := by
  have hempty : ∀ a l x y, joined sep p (a :: l) ++ close :: x ≠ close :: y := by
    intro a l x y heq
    obtain ⟨c, r, ha, hc⟩ := hhead a
    have hcc : c = close := by
      cases l <;> simp [joined, ha] at heq <;> exact heq.1
    rw [hcc, hclose] at hc
    exact Bool.noConfusion hc
  induction l generalizing m with
  | nil =>
    cases m with
    | nil => exact ⟨rfl, by simpa using h⟩
    | cons b m => exact absurd h.symm (hempty b m y x)
  | cons a l ih =>
    have ha := hl a List.mem_cons_self
    cases m with
    | nil => exact absurd h (hempty a l x y)
    | cons b m =>
      cases l with
      | nil =>
        cases m with
        | nil =>
          obtain ⟨rfl, hxy⟩ := ha b _ _ (by simp [hclose]) (by simp [hclose]) h
          exact ⟨rfl, (List.cons.inj hxy).2⟩
        | cons b' m =>
          simp only [joined, List.append_assoc, List.cons_append] at h
          obtain ⟨-, hxy⟩ := ha b _ _ (by simp [hclose]) (by simp [isDelimiter]) h
          exact absurd (List.cons.inj hxy).1 hne
      | cons a' l =>
        cases m with
        | nil =>
          simp only [joined, List.append_assoc, List.cons_append] at h
          obtain ⟨-, hxy⟩ := ha b _ _ (by simp [isDelimiter]) (by simp [hclose]) h
          exact absurd (List.cons.inj hxy).1.symm hne
        | cons b' m =>
          simp only [joined, List.append_assoc, List.cons_append] at h
          obtain ⟨rfl, hxy⟩ := ha b _ _ (by simp [isDelimiter]) (by simp [isDelimiter]) h
          have hrest := List.append_cancel_left (List.cons.inj hxy).2
          obtain ⟨heq, hxy⟩ := ih (fun a ha => hl a (List.mem_cons_of_mem _ ha)) hrest
          exact ⟨by rw [heq], hxy⟩

/-! ### Quoted strings -/

/-- How a character is written inside quotes: after a backslash as another character, after a
backslash and a letter as digits in base 16, or as itself. -/
structure Escapes where
  simple : Char → Option Char
  hex : Char → Option (Char × ℕ)
  simple_backslash : (simple '\\').isSome
  simple_injective : ∀ c d e, simple c = some e → simple d = some e → c = d
  hex_fits : ∀ c e w, hex c = some (e, w) → c.toNat < 16 ^ w
  hex_width : ∀ c d e w w', hex c = some (e, w) → hex d = some (e, w') → w = w'
  hex_ne_simple : ∀ c d e w, hex c = some (e, w) → simple d ≠ some e

namespace Escapes

variable (es : Escapes)

/-- The escaped form of a character. -/
def escape (c : Char) : List Char :=
  match es.simple c with
  | some e => ['\\', e]
  | none   =>
    match es.hex c with
    | some (e, w) => '\\' :: e :: fixedDigits 16 w c.toNat
    | none        => [c]

/-- The quoted form of a text. -/
def quoted (quote : Char) (s : String) : List Char :=
  quote :: (s.toList.flatMap es.escape ++ [quote])

lemma escape_cases (c : Char) :
    (∃ e, es.simple c = some e ∧ es.escape c = ['\\', e]) ∨
    (∃ e w, es.hex c = some (e, w) ∧ es.escape c = '\\' :: e :: fixedDigits 16 w c.toNat) ∨
    (c ≠ '\\' ∧ es.escape c = [c]) := by
  cases hs : es.simple c with
  | some e => exact .inl ⟨e, rfl, by simp [escape, hs]⟩
  | none =>
    cases hh : es.hex c with
    | some ew => exact .inr (.inl ⟨ew.1, ew.2, rfl, by simp [escape, hs, hh]⟩)
    | none =>
      refine .inr (.inr ⟨?_, by simp [escape, hs, hh]⟩)
      rintro rfl
      exact absurd es.simple_backslash (by simp [hs])

/-- Escaped characters are told apart without looking ahead. -/
theorem selfDelimiting_escape : SelfDelimiting es.escape := by
  intro c d x y h
  rcases es.escape_cases c with ⟨e, hc, hec⟩ | ⟨e, w, hc, hec⟩ | ⟨hc, hec⟩ <;>
    rcases es.escape_cases d with ⟨e', hd, hed⟩ | ⟨e', w', hd, hed⟩ | ⟨hd, hed⟩ <;>
      rw [hec, hed] at h
  · simp only [List.cons_append, List.nil_append, List.cons.injEq, true_and] at h
    obtain ⟨rfl, hxy⟩ := h
    exact ⟨es.simple_injective c d e hc hd, hxy⟩
  · simp only [List.cons_append, List.cons.injEq, true_and] at h
    exact absurd (h.1 ▸ hc) (es.hex_ne_simple d c e' w' hd)
  · exact absurd (List.cons.inj h).1.symm hd
  · simp only [List.cons_append, List.cons.injEq, true_and] at h
    exact absurd (h.1 ▸ hd) (es.hex_ne_simple c d e w hc)
  · simp only [List.cons_append, List.cons.injEq, true_and] at h
    obtain ⟨rfl, h⟩ := h
    obtain rfl := es.hex_width c d e w w' hc hd
    obtain ⟨hdigits, hxy⟩ := List.append_inj h (by simp)
    have := fixedDigits_injective (by decide) le_rfl (es.hex_fits c e w hc)
      (es.hex_fits d e w hd) hdigits
    exact ⟨Char.toNat_inj.mp this, hxy⟩
  · exact absurd (List.cons.inj h).1.symm hd
  · exact absurd (List.cons.inj h).1 hc
  · exact absurd (List.cons.inj h).1 hc
  · obtain ⟨rfl, hxy⟩ := List.cons.inj h
    exact ⟨rfl, hxy⟩

/-- Quoted texts are told apart, when the quote itself is escaped. -/
theorem selfDelimiting_quoted {quote : Char} (hquote : quote ≠ '\\')
    (hescaped : (es.simple quote).isSome) : SelfDelimiting (es.quoted quote) := by
  have hhead : ∀ c, ∃ d r, es.escape c = d :: r ∧ d ≠ quote := by
    intro c
    rcases es.escape_cases c with ⟨e, -, hec⟩ | ⟨e, w, -, hec⟩ | ⟨-, hec⟩
    · exact ⟨_, _, hec, hquote.symm⟩
    · exact ⟨_, _, hec, hquote.symm⟩
    · refine ⟨_, _, hec, ?_⟩
      rintro rfl
      obtain ⟨e, he⟩ := Option.isSome_iff_exists.mp hescaped
      simp [escape, he] at hec
  have hlist : ∀ (s t x y : List Char), s.flatMap es.escape ++ quote :: x = t.flatMap es.escape ++ quote :: y →
      s = t ∧ x = y := by
    intro s
    induction s with
    | nil =>
      intro t x y h
      cases t with
      | nil => exact ⟨rfl, (List.cons.inj h).2⟩
      | cons d t =>
        obtain ⟨e, r, hd, hne⟩ := hhead d
        simp only [List.flatMap_nil, List.nil_append, List.flatMap_cons, hd, List.cons_append] at h
        exact absurd (List.cons.inj h).1.symm hne
    | cons c s ih =>
      intro t x y h
      cases t with
      | nil =>
        obtain ⟨e, r, hc, hne⟩ := hhead c
        simp only [List.flatMap_nil, List.nil_append, List.flatMap_cons, hc, List.cons_append] at h
        exact absurd (List.cons.inj h).1 hne
      | cons d t =>
        simp only [List.flatMap_cons, List.append_assoc] at h
        obtain ⟨rfl, htail⟩ := es.selfDelimiting_escape c d _ _ h
        obtain ⟨rfl, hxy⟩ := ih t x y htail
        exact ⟨rfl, hxy⟩
  intro s t x y h
  simp only [quoted, List.cons_append, List.append_assoc, List.nil_append, List.cons.injEq,
    true_and] at h
  obtain ⟨hst, hxy⟩ := hlist _ _ _ _ h
  exact ⟨String.toList_inj.mp hst, hxy⟩

end Escapes

end CyberBrain.Printing
