import CyberBrain.Core.Errors
import CyberBrain.Foundation.Json
import CyberBrain.Foundation.Python
import Mathlib.Tactic.SplitIfs

/-!
# Identity identifiers

`normalize_identifier` puts an identity value into its canonical form and rejects values that are
empty, too long, wildcards or hold control characters. It is idempotent: a canonical identifier is
its own normal form.
-/

namespace CyberBrain.Tenancy

open Python

variable (py : Runtime)

/-- Names that would read as wildcards. -/
def reserved : List String := ["*", "all", "any", "__all__", "__any__"]

/-- `normalize_identifier` on a text. -/
def normalizeText (value : String) : Except Exc String :=
  let normalized := strip (py.nfc value)
  if normalized.toList = [] then .error (.valueError "identity identifier must not be empty")
  else if normalized.toList.any isControl then
    .error (.valueError "identity identifier must not contain control characters")
  else if py.casefold normalized ∈ reserved ∨ '*' ∈ normalized.toList then
    .error (.valueError "wildcard-like identity identifiers are not allowed")
  else if 128 < normalized.length then
    .error (.valueError "identity identifier exceeds 128 characters")
  else .ok normalized

/-- `normalize_identifier`. -/
def normalizeIdentifier : Json → Except Exc String
  | .str value => normalizeText py value
  | _          => .error (.typeError "identity identifier must be a string")

/-- A value in canonical form. -/
def Normalized (value : String) : Prop := normalizeText py value = .ok value

instance (value : String) : Decidable (Normalized py value) :=
  inferInstanceAs (Decidable (normalizeText py value = .ok value))

variable {py}

lemma eq_of_normalizeText {value normalized : String}
    (h : normalizeText py value = .ok normalized) : normalized = strip (py.nfc value) := by
  unfold normalizeText at h
  dsimp only at h
  split_ifs at h
  cases h
  rfl

lemma error_of_normalizeText {value : String} {e : Exc} (h : normalizeText py value = .error e) :
    ∃ message, e = .valueError message := by
  unfold normalizeText at h
  dsimp only at h
  split_ifs at h <;> cases h <;> exact ⟨_, rfl⟩

/-- The canonical form is canonical: normalising twice changes nothing. -/
theorem normalized_of_normalizeText {value normalized : String}
    (h : normalizeText py value = .ok normalized) : Normalized py normalized := by
  have hfix : strip (py.nfc normalized) = normalized := by
    rw [eq_of_normalizeText h, py.nfc_strip _ (py.nfc_nfc value), strip_strip]
  have hval := eq_of_normalizeText h
  unfold Normalized normalizeText
  unfold normalizeText at h
  dsimp only at h ⊢
  rw [hfix]
  rw [← hval] at h
  exact h

lemma ne_empty_of_normalized {value : String} (h : Normalized py value) : value ≠ "" := by
  rintro rfl
  have hstrip : strip (py.nfc "") = "" := (eq_of_normalizeText h).symm
  unfold Normalized normalizeText at h
  dsimp only at h
  rw [hstrip] at h
  simp at h

end CyberBrain.Tenancy
