import CyberBrain.Foundation.Digits
import CyberBrain.Foundation.Python

/-!
# Digests

SHA-256 digests in hexadecimal digits, and the short digests that name things.
-/

namespace CyberBrain.Python

variable (py : Runtime)

/-- `hexdigest` of SHA-256: 64 hexadecimal digits. -/
structure HexDigests : Prop where
  length : ∀ s, (py.sha256 s).length = 64
  digits : ∀ s, ∀ c ∈ (py.sha256 s).toList, hexValue c ≠ none

/-- The first 24 digits of a digest. -/
def shortDigest (s : String) : String := String.ofList ((py.sha256 s).toList.take 24)

variable {py}

/-- A text with a character that is no space is not empty when it is stripped. -/
lemma strip_ne_empty {s : String} {c : Char} (hmem : c ∈ s.toList) (hc : isSpace c = false) :
    strip s ≠ "" := by
  intro h
  have hnil : stripChars s.toList = [] := by
    have hchars := congrArg String.toList h
    rwa [strip, String.toList_ofList] at hchars
  rw [stripChars, List.rdropWhile_eq_nil_iff] at hnil
  have hdrop : s.toList.dropWhile isSpace = [] := by
    cases hcons : s.toList.dropWhile isSpace with
    | nil       => rfl
    | cons d ds =>
      have hspace := hnil d (by rw [hcons]; exact List.mem_cons_self ..)
      have hhead := List.head?_dropWhile_not isSpace s.toList
      rw [hcons, List.head?_cons] at hhead
      exact absurd hspace (by simpa using hhead)
  exact absurd (List.dropWhile_eq_nil_iff.mp hdrop c hmem) (by rw [hc]; decide)

lemma isSpace_of_hexValue {c : Char} (h : hexValue c ≠ none) : isSpace c = false := by
  have hrange : 48 ≤ c.toNat ∧ c.toNat ≤ 102 := by
    unfold hexValue at h
    split_ifs at h with hdigit hlower hupper
    · exact ⟨hdigit.1, le_trans (Char.le_def.mp hdigit.2) (by decide)⟩
    · exact ⟨le_trans (by decide) (Char.le_def.mp hlower.1), hlower.2⟩
    · exact ⟨le_trans (by decide) (Char.le_def.mp hupper.1),
        le_trans (Char.le_def.mp hupper.2) (by decide)⟩
    · exact absurd rfl h
  simp only [isSpace, Bool.or_eq_false_iff, Bool.and_eq_false_imp, decide_eq_false_iff_not,
    decide_eq_true_eq]
  omega

/-- A short digest is not empty. -/
lemma strip_shortDigest_ne (hhex : HexDigests py) (s : String) : strip (shortDigest py s) ≠ "" := by
  cases hchars : (py.sha256 s).toList with
  | nil       =>
    have hlength := hhex.length s
    rw [← String.length_toList, hchars] at hlength
    cases hlength
  | cons c cs =>
    refine strip_ne_empty (c := c) ?_ (isSpace_of_hexValue (hhex.digits s c ?_))
    · simp [shortDigest, hchars]
    · rw [hchars]
      exact List.mem_cons_self ..

end CyberBrain.Python
