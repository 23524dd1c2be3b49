import Mathlib.Data.List.Basic

/-!
# Texts joined by a delimiter

What a text that was joined by a delimiter says of its parts: it has the pieces between the
delimiters, wherever they come from. Parts without the delimiter are the pieces.
-/

namespace CyberBrain

variable {sep : String} {c : Char} {parts parts' : List String}

/-- The pieces of some texts between the delimiters. -/
def pieces (c : Char) (parts : List String) : List (List Char) :=
  parts.flatMap fun part => part.toList.splitOn c

lemma splitOn_intercalate_eq {l : List (List Char)} (h : l ≠ []) :
    ([c].intercalate l).splitOn c = l.flatMap fun cs => cs.splitOn c := by
  induction l with
  | nil => exact absurd rfl h
  | cons cs l ih =>
    cases l with
    | nil => simp
    | cons ds l =>
      have hrest := ih (List.cons_ne_nil _ _)
      rw [List.intercalate_cons_cons, List.append_assoc, List.singleton_append,
        List.splitOn_append_cons_self, hrest]
      rfl

/-- Joined texts agree exactly if their parts have the same pieces. -/
theorem intercalate_eq_iff (hsep : sep.toList = [c]) (h : parts ≠ []) (h' : parts' ≠ []) :
    sep.intercalate parts = sep.intercalate parts' ↔ pieces c parts = pieces c parts' := by
  have hsplit {parts : List String} (hne : parts ≠ []) :
      (sep.intercalate parts).toList.splitOn c = pieces c parts := by
    rw [String.toList_intercalate, hsep, splitOn_intercalate_eq (by simpa using hne),
      List.flatMap_map]
    rfl
  constructor
  · intro heq
    rw [← hsplit h, ← hsplit h', heq]
  · intro heq
    rw [← hsplit h, ← hsplit h'] at heq
    have hback := congrArg (fun l => [c].intercalate l) heq
    simp only [List.intercalate_splitOn] at hback
    exact String.toList_injective hback

/-- Parts without the delimiter are their own pieces. -/
lemma pieces_eq_map (h : ∀ part ∈ parts, c ∉ part.toList) :
    pieces c parts = parts.map String.toList := by
  induction parts with
  | nil => rfl
  | cons part parts ih =>
    obtain ⟨hpart, hparts⟩ := List.forall_mem_cons.mp h
    rw [pieces, List.flatMap_cons, List.splitOn_eq_singleton hpart, List.map_cons,
      List.singleton_append]
    exact congrArg _ (ih hparts)

/-- Parts without the delimiter are determined by the joined text. -/
lemma intercalate_inj (hsep : sep.toList = [c]) (hne : parts ≠ []) (hne' : parts' ≠ [])
    (h : ∀ part ∈ parts, c ∉ part.toList) (h' : ∀ part ∈ parts', c ∉ part.toList)
    (heq : sep.intercalate parts = sep.intercalate parts') : parts = parts' := by
  rw [intercalate_eq_iff hsep hne hne', pieces_eq_map h, pieces_eq_map h'] at heq
  exact List.map_injective_iff.mpr (fun _ _ => String.toList_injective) heq

end CyberBrain
