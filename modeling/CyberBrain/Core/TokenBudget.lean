import CyberBrain.Core.Errors
import CyberBrain.Foundation.Python

/-!
# Token budgets

A text counts a token for every few characters, rounded up, and a text over a budget is cut.
-/

namespace CyberBrain.Core

open Python

/-- `str.rstrip`. -/
def rstrip (s : String) : String := String.ofList (s.toList.rdropWhile isSpace)

/-- `s[:n]`. -/
def textUpTo (s : String) (n : ℕ) : String := String.ofList (s.toList.take n)

lemma length_rstrip_le (s : String) : (rstrip s).length ≤ s.length := by
  have hprefix := List.rdropWhile_prefix isSpace (l := s.toList)
  rw [rstrip, String.length_ofList, ← String.length_toList]
  exact hprefix.length_le

@[simp] lemma length_textUpTo (s : String) (n : ℕ) : (textUpTo s n).length = min n s.length := by
  rw [textUpTo, String.length_ofList, List.length_take, String.length_toList]

/-- `DeterministicTokenCounter`. -/
structure DeterministicTokenCounter where
  charsPerToken : ℕ := 4
  positive : 0 < charsPerToken

/-- `DeterministicTokenCounter.__post_init__`. -/
def DeterministicTokenCounter.make (charsPerToken : ℤ) :
    Except Exc DeterministicTokenCounter :=
  if h : 0 < charsPerToken.toNat then .ok ⟨charsPerToken.toNat, h⟩
  else .error (.valueError "chars_per_token must be positive")

namespace DeterministicTokenCounter

variable (counter : DeterministicTokenCounter)

def estimateTokens (text : String) : ℕ :=
  if text = "" then 0
  else max 1 ((text.length + counter.charsPerToken - 1) / counter.charsPerToken)

def clipToTokens (text : String) (budgetTokens : ℤ) : String :=
  if budgetTokens ≤ 0 then ""
  else
    let maxChars := budgetTokens.toNat * counter.charsPerToken
    if text.length ≤ maxChars then text
    else if maxChars ≤ 1 then textUpTo text maxChars
    else rstrip (textUpTo text (maxChars - 1)) ++ "…"

variable {counter} {text : String} {budget : ℤ}

lemma estimateTokens_pos (h : text ≠ "") : 0 < counter.estimateTokens text := by
  rw [estimateTokens, if_neg h]
  exact lt_max_of_lt_left Nat.one_pos

/-- A text of as many characters as a budget pays for is within it. -/
lemma estimateTokens_le {tokens : ℕ} (htokens : 0 < tokens)
    (h : text.length ≤ tokens * counter.charsPerToken) :
    counter.estimateTokens text ≤ tokens := by
  unfold estimateTokens
  split_ifs
  · exact Nat.zero_le _
  · refine max_le htokens ?_
    have hpositive := counter.positive
    rw [← Nat.lt_succ_iff, Nat.div_lt_iff_lt_mul hpositive, Nat.succ_mul]
    omega

lemma length_clipToTokens_le (hbudget : 0 < budget) :
    (counter.clipToTokens text budget).length ≤ budget.toNat * counter.charsPerToken := by
  have hpositive : 0 < budget.toNat * counter.charsPerToken :=
    Nat.mul_pos (by omega) counter.positive
  unfold clipToTokens
  rw [if_neg (by omega)]
  dsimp only
  split_ifs with hfits hone
  · exact hfits
  · rw [length_textUpTo]
    exact min_le_left _ _
  · have hrstrip := length_rstrip_le (textUpTo text (budget.toNat * counter.charsPerToken - 1))
    rw [length_textUpTo] at hrstrip
    rw [String.length_append]
    have hellipsis : "…".length = 1 := rfl
    omega

lemma clipToTokens_ne_empty (hbudget : 0 < budget) (h : text ≠ "") :
    counter.clipToTokens text budget ≠ "" := by
  have hpositive : 0 < budget.toNat * counter.charsPerToken :=
    Nat.mul_pos (by omega) counter.positive
  have hlength : 0 < text.length := by
    rw [Nat.pos_iff_ne_zero, Ne, String.length_eq_zero_iff]
    exact h
  have hne {s : String} (hs : 0 < s.length) : s ≠ "" := by
    rintro rfl
    exact absurd hs (by simp)
  unfold clipToTokens
  rw [if_neg (by omega)]
  dsimp only
  split_ifs with hfits hone
  · exact h
  · refine hne ?_
    rw [length_textUpTo]
    exact lt_min hpositive hlength
  · refine hne ?_
    rw [String.length_append]
    have hellipsis : "…".length = 1 := rfl
    omega

/-- What is cut to a budget is within it. -/
lemma estimateTokens_clipToTokens (hbudget : 0 < budget) :
    (counter.estimateTokens (counter.clipToTokens text budget) : ℤ) ≤ budget := by
  have h : counter.estimateTokens (counter.clipToTokens text budget) ≤ budget.toNat :=
    estimateTokens_le (by omega) (length_clipToTokens_le hbudget)
  omega

end DeterministicTokenCounter

end CyberBrain.Core
