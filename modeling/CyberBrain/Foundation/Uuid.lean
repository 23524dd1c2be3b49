import CyberBrain.Foundation.Digits
import Mathlib.Data.List.DropRight
import Mathlib.Data.String.Basic

/-!
# UUIDs

A UUID is a number of 128 bits. `text` is its canonical form, and `parse` reads the forms that
the constructor `UUID(text)` reads: hyphens, braces and a URN prefix are optional.
-/

namespace CyberBrain

@[ext] structure Uuid where
  value : ℕ
  lt_bound : value < 16 ^ 32
  deriving DecidableEq

namespace Uuid

/-- The UUID of a number of 128 bits. -/
def ofNat (n : ℕ) : Uuid := ⟨n % 16 ^ 32, Nat.mod_lt _ (by decide)⟩

/-- Group 32 digits as 8-4-4-4-12. -/
def hyphenate (cs : List Char) : List Char :=
  cs.take 8 ++ '-' :: ((cs.drop 8).take 4 ++ '-' :: ((cs.drop 12).take 4 ++
    '-' :: ((cs.drop 16).take 4 ++ '-' :: cs.drop 20)))

/-- `str(uuid)`. -/
def text (u : Uuid) : String := String.ofList (hyphenate (fixedDigits 16 32 u.value))

/-- `text.replace(pattern, "")`, from `skip` characters on. -/
def removeAll (pattern : List Char) : ℕ → List Char → List Char
  | _, []             => []
  | skip + 1, _ :: cs => removeAll pattern skip cs
  | 0, c :: cs        =>
    if pattern.isPrefixOf (c :: cs) then removeAll pattern (pattern.length - 1) cs
    else c :: removeAll pattern 0 cs

def isBrace (c : Char) : Bool := c = '{' ∨ c = '}'

/-- `UUID(text)`, or `none` for a badly formed text. -/
def parse (s : String) : Option Uuid :=
  let cs := removeAll "uuid:".toList 0 (removeAll "urn:".toList 0 s.toList)
  let digits := ((cs.dropWhile isBrace).rdropWhile isBrace).filter (· ≠ '-')
  if digits.length = 32 then
    (readHex 0 digits).bind fun n => if h : n < 16 ^ 32 then some ⟨n, h⟩ else none
  else none

/-! ### Reading the canonical form -/

lemma removeAll_eq_self {pattern cs : List Char} {c : Char} (hc : c ∈ pattern) (hcs : c ∉ cs) :
    removeAll pattern 0 cs = cs := by
  induction cs with
  | nil => rfl
  | cons d cs ih =>
    rw [List.mem_cons, not_or] at hcs
    have hprefix : ¬ pattern.isPrefixOf (d :: cs) = true := fun h =>
      (List.mem_cons.mp ((List.isPrefixOf_iff_prefix.mp h).subset hc)).elim hcs.1 hcs.2
    rw [removeAll, if_neg hprefix, ih hcs.2]

lemma mem_hyphenate {cs : List Char} {c : Char} (h : c ∈ hyphenate cs) : c ∈ cs ∨ c = '-' := by
  simp only [hyphenate, List.mem_append, List.mem_cons] at h
  rcases h with h | h | h | h | h | h | h | h | h
  · exact .inl (List.mem_of_mem_take h)
  · exact .inr h
  · exact .inl (List.mem_of_mem_drop (List.mem_of_mem_take h))
  · exact .inr h
  · exact .inl (List.mem_of_mem_drop (List.mem_of_mem_take h))
  · exact .inr h
  · exact .inl (List.mem_of_mem_drop (List.mem_of_mem_take h))
  · exact .inr h
  · exact .inl (List.mem_of_mem_drop h)

lemma filter_hyphenate {cs : List Char} (h : '-' ∉ cs) :
    (hyphenate cs).filter (· ≠ '-') = cs := by
  have hkeep : ∀ ds : List Char, ds ⊆ cs → ds.filter (· ≠ '-') = ds := by
    intro ds hds
    rw [List.filter_eq_self]
    intro c hc
    exact decide_eq_true fun heq => h (heq ▸ hds hc)
  have htake : ∀ m n, (cs.drop m).take n ⊆ cs := fun m n c hc =>
    List.mem_of_mem_drop (List.mem_of_mem_take hc)
  simp only [hyphenate, List.filter_append, List.filter_cons, hkeep _ (htake _ _),
    hkeep _ (List.take_subset _ _), hkeep _ (List.drop_subset _ _)]
  simp only [ne_eq, not_true, decide_false, Bool.false_eq_true, if_false]
  have hdrop : ∀ m n, cs.drop (m + n) = (cs.drop m).drop n := fun m n => by
    rw [List.drop_drop]
  rw [hdrop 16 4, List.take_append_drop, hdrop 12 4, List.take_append_drop, hdrop 8 4,
    List.take_append_drop, List.take_append_drop]

lemma notMem_fixedDigits {c : Char} (h : hexValue c = none) (n : ℕ) :
    c ∉ fixedDigits 16 32 n := fun hc => hexValue_fixedDigits hc h

/-- A UUID is read back from its text. -/
@[simp] theorem parse_text (u : Uuid) : parse u.text = some u := by
  have hfree : ∀ c, hexValue c = none → c ≠ '-' → c ∉ hyphenate (fixedDigits 16 32 u.value) :=
    fun c hc hne hmem => (mem_hyphenate hmem).elim (notMem_fixedDigits hc u.value) hne
  have hbrace : ∀ c ∈ hyphenate (fixedDigits 16 32 u.value), isBrace c = false := by
    intro c hc
    rw [isBrace, decide_eq_false_iff_not]
    rintro (rfl | rfl)
    · exact hfree '{' (by decide) (by decide) hc
    · exact hfree '}' (by decide) (by decide) hc
  have hcolon := hfree ':' (by decide) (by decide)
  have hurn : removeAll "urn:".toList 0 (hyphenate (fixedDigits 16 32 u.value)) =
      hyphenate (fixedDigits 16 32 u.value) := removeAll_eq_self (by decide) hcolon
  have huuid : removeAll "uuid:".toList 0 (hyphenate (fixedDigits 16 32 u.value)) =
      hyphenate (fixedDigits 16 32 u.value) := removeAll_eq_self (by decide) hcolon
  have hdrop : (hyphenate (fixedDigits 16 32 u.value)).dropWhile isBrace =
      hyphenate (fixedDigits 16 32 u.value) :=
    List.dropWhile_eq_self_iff.mpr fun h => by simp [hbrace _ (List.getElem_mem h)]
  have hrdrop : (hyphenate (fixedDigits 16 32 u.value)).rdropWhile isBrace =
      hyphenate (fixedDigits 16 32 u.value) :=
    List.rdropWhile_eq_self_iff.mpr fun h => by simp [hbrace _ (List.getLast_mem h)]
  simp only [parse, text, String.toList_ofList, hurn, huuid, hdrop, hrdrop,
    filter_hyphenate (notMem_fixedDigits (c := '-') (by decide) _), length_fixedDigits, if_true, readHex_fixedDigits u.lt_bound, Option.bind_some, zero_mul,
    zero_add, u.lt_bound, dif_pos]

lemma mem_text {u : Uuid} {c : Char} (h : c ∈ u.text.toList) : hexValue c ≠ none ∨ c = '-' := by
  rw [text, String.toList_ofList] at h
  exact (mem_hyphenate h).imp_left hexValue_fixedDigits

lemma text_injective : Function.Injective text := fun u v h => by
  have := parse_text u
  rw [h, parse_text] at this
  exact (Option.some.inj this).symm

example : (⟨0x0123456789abcdef0123456789abcdef, by decide⟩ : Uuid).text =
    "01234567-89ab-cdef-0123-456789abcdef" := by decide +kernel

end Uuid

end CyberBrain
