import Mathlib.Data.List.Dedup
import Mathlib.Data.List.Sort

/-!
# Finite sets in sorted order

A finite set over a linear order, kept as the strictly increasing list of its elements. The list is
what `sorted` gives, so the representation is unique and sets with the same elements are equal.
-/

namespace CyberBrain

/-- A finite set, as its strictly increasing list of elements. -/
structure FrozenSet (α : Type*) [LinearOrder α] where
  sorted : List α
  increasing : sorted.Pairwise (· < ·)

namespace FrozenSet

variable {α : Type*} [LinearOrder α]

instance : Membership α (FrozenSet α) := ⟨fun s a => a ∈ s.sorted⟩

instance (a : α) (s : FrozenSet α) : Decidable (a ∈ s) := inferInstanceAs (Decidable (a ∈ s.sorted))

instance : DecidableEq (FrozenSet α) := fun s t =>
  decidable_of_iff (s.sorted = t.sorted) ⟨fun h => by cases s; cases t; simpa using h, congrArg _⟩

instance : HasSubset (FrozenSet α) := ⟨fun s t => ∀ a ∈ s.sorted, a ∈ t⟩

instance (s t : FrozenSet α) : Decidable (s ⊆ t) :=
  inferInstanceAs (Decidable (∀ a ∈ s.sorted, a ∈ t))

lemma subset_iff {s t : FrozenSet α} : s ⊆ t ↔ ∀ a ∈ s, a ∈ t := Iff.rfl

lemma mem_def {a : α} {s : FrozenSet α} : a ∈ s ↔ a ∈ s.sorted := Iff.rfl

lemma nodup_sorted (s : FrozenSet α) : s.sorted.Nodup := s.increasing.imp fun h => ne_of_lt h

@[ext] theorem ext {s t : FrozenSet α} (h : ∀ a, a ∈ s ↔ a ∈ t) : s = t := by
  obtain ⟨l, hl⟩ := s
  obtain ⟨m, hm⟩ := t
  have : l = m := hl.eq_of_mem_iff hm fun a => h a
  subst this
  rfl

/-! ### Construction -/

instance : EmptyCollection (FrozenSet α) := ⟨⟨[], List.Pairwise.nil⟩⟩

@[simp] lemma sorted_empty : (∅ : FrozenSet α).sorted = [] := rfl

@[simp] lemma notMem_empty (a : α) : a ∉ (∅ : FrozenSet α) := by simp [mem_def]

/-- The set of the elements of a list. -/
def ofList (l : List α) : FrozenSet α where
  sorted := (l.insertionSort (· ≤ ·)).dedup
  increasing := by
    have hle := (List.pairwise_insertionSort (· ≤ ·) l).sublist (List.dedup_sublist _)
    have hne := List.nodup_dedup (l.insertionSort (· ≤ ·))
    exact (hle.and hne).imp fun h => lt_of_le_of_ne h.1 h.2

@[simp] lemma mem_ofList {a : α} {l : List α} : a ∈ ofList l ↔ a ∈ l := by
  simp [ofList, mem_def]

@[simp] lemma ofList_sorted (s : FrozenSet α) : ofList s.sorted = s :=
  ext fun _ => mem_ofList

lemma length_sorted_ofList_le (l : List α) : (ofList l).sorted.length ≤ l.length :=
  (List.dedup_sublist _).length_le.trans (List.length_insertionSort _ l).le

lemma sorted_eq_nil_iff {s : FrozenSet α} : s.sorted = [] ↔ s = ∅ :=
  ⟨fun h => ext fun a => by simp [mem_def, h], fun h => by rw [h]; rfl⟩

lemma ne_empty_iff {s : FrozenSet α} : s ≠ ∅ ↔ ∃ a, a ∈ s := by
  rw [Ne, ← sorted_eq_nil_iff, List.eq_nil_iff_forall_not_mem]
  simp [mem_def]

end FrozenSet

end CyberBrain
