import Mathlib.Data.List.Nodup
import Mathlib.Data.List.Perm.Subperm
import Mathlib.Data.List.Count

/-!
# Bounded reads

A store answers a read with as many matching rows as there are, up to a limit, and in an order of
its own. Below the limit the answer has all matching rows, so that two stores with the same matching
rows answer alike up to the order.
-/

namespace CyberBrain

variable {α : Type*} {rows rows' answer answer' : List α} {p : α → Bool} {limit : ℕ}

/-- An answer has `limit` of the rows that match, or all if there are fewer. -/
structure BoundedRead (rows : List α) (p : α → Bool) (limit : ℕ) (answer : List α) : Prop where
  nodup : answer.Nodup
  mem : ∀ a ∈ answer, a ∈ rows ∧ p a = true
  length : answer.length = min limit (rows.countP p)

/-- The first matching rows are an answer. -/
lemma boundedRead_take (h : rows.Nodup) (p : α → Bool) (limit : ℕ) :
    BoundedRead rows p limit ((rows.filter p).take limit) where
  nodup := (h.filter _).sublist (List.take_sublist _ _)
  mem _ ha := List.mem_filter.mp (List.mem_of_mem_take ha)
  length := by rw [List.length_take, List.countP_eq_length_filter]

namespace BoundedRead

lemma length_le (h : BoundedRead rows p limit answer) : answer.length ≤ limit :=
  h.length ▸ Nat.min_le_left _ _

lemma limit_lt (h : BoundedRead rows p limit answer) {n : ℕ} (hn : n < limit) :
    n < answer.length ↔ n < rows.countP p := by
  rw [h.length]
  omega

/-- Below the limit all matching rows are read. -/
theorem perm (h : BoundedRead rows p limit answer) (hfew : rows.countP p ≤ limit) :
    answer.Perm (rows.filter p) := by
  have hsub : answer.Subperm (rows.filter p) :=
    h.nodup.subperm fun a ha => List.mem_filter.mpr (h.mem a ha)
  have hlength : (rows.filter p).length = answer.length := by
    rw [h.length, Nat.min_eq_right hfew, List.countP_eq_length_filter]
  exact hsub.perm_of_length_le (Nat.le_of_eq hlength)

lemma mem_iff (h : BoundedRead rows p limit answer) (hfew : rows.countP p ≤ limit) {a : α} :
    a ∈ answer ↔ a ∈ rows ∧ p a = true := by
  rw [(h.perm hfew).mem_iff, List.mem_filter]

end BoundedRead

/-- Stores with the same matching rows have equally many. -/
lemma filter_perm_of_same (h : rows.Nodup) (h' : rows'.Nodup)
    (hsame : ∀ a, p a = true → (a ∈ rows ↔ a ∈ rows')) :
    (rows.filter p).Perm (rows'.filter p) := by
  refine (List.perm_ext_iff_of_nodup (h.filter _) (h'.filter _)).mpr fun a => ?_
  simp only [List.mem_filter]
  exact ⟨fun ⟨ha, hp⟩ => ⟨(hsame a hp).mp ha, hp⟩, fun ⟨ha, hp⟩ => ⟨(hsame a hp).mpr ha, hp⟩⟩

/-- Two stores with the same matching rows answer alike, up to the order, or both reach the limit. -/
theorem BoundedRead.alike (h : BoundedRead rows p limit answer)
    (h' : BoundedRead rows' p limit answer') (hnodup : rows.Nodup) (hnodup' : rows'.Nodup)
    (hsame : ∀ a, p a = true → (a ∈ rows ↔ a ∈ rows')) :
    answer.length = answer'.length ∧ (rows.countP p ≤ limit → answer.Perm answer') := by
  have hperm := filter_perm_of_same hnodup hnodup' hsame
  have hcount : rows.countP p = rows'.countP p := by
    rw [List.countP_eq_length_filter, List.countP_eq_length_filter, hperm.length_eq]
  refine ⟨by rw [h.length, h'.length, hcount], fun hfew => ?_⟩
  exact (h.perm hfew).trans (hperm.trans (h'.perm (hcount ▸ hfew)).symm)

end CyberBrain
