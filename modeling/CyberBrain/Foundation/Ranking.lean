import CyberBrain.Foundation.Lists
import Mathlib.Data.Prod.Lex

/-!
# The top of a stable sort

A list sorted by a key lists equal keys in their first order, so it is the list of the positions
sorted by key and position. What a cut keeps of the reversed list are the occurrences that fewer
than so many others outrank.
-/

namespace CyberBrain.Ranking

variable {α κ : Type*} [LinearOrder κ] (key : α → κ)

/-- The rank of an occurrence goes by its key and, for equal keys, by its position. -/
def occurrenceKey (p : α × ℕ) : κ ×ₗ ℕ := toLex (key p.1, p.2)

/-- How many occurrences in the list outrank `p`. -/
def outranked (l : List α) (p : α × ℕ) : ℕ :=
  l.zipIdx.countP fun q => occurrenceKey key p < occurrenceKey key q

/-- The occurrences in the order of their ranks. -/
def sortOccurrences (l : List (α × ℕ)) : List (α × ℕ) :=
  l.insertionSort fun p q => occurrenceKey key p ≤ occurrenceKey key q

variable {key}

lemma map_orderedInsert {a : α} {n : ℕ} {l : List (α × ℕ)} (h : ∀ p ∈ l, n < p.2) :
    (l.orderedInsert (fun p q => occurrenceKey key p ≤ occurrenceKey key q) (a, n)).map (·.1) =
      (l.map (·.1)).orderedInsert (fun a b => key a ≤ key b) a := by
  induction l with
  | nil => rfl
  | cons p l ih =>
    obtain ⟨hp, hl⟩ := List.forall_mem_cons.mp h
    have hkey : occurrenceKey key (a, n) ≤ occurrenceKey key p ↔ key a ≤ key p.1 := by
      simp [occurrenceKey, Prod.Lex.toLex_le_toLex, hp.le, le_iff_lt_or_eq (a := key a)]
    simp only [List.map_cons, List.orderedInsert_cons, hkey]
    split_ifs
    · rfl
    · rw [List.map_cons, ih hl]

/-- A stable sort by key is a sort of the occurrences. -/
lemma map_sortOccurrences (l : List α) (n : ℕ) :
    (sortOccurrences key (l.zipIdx n)).map (·.1) = l.insertionSort fun a b => key a ≤ key b := by
  induction l generalizing n with
  | nil => rfl
  | cons a l ih =>
    have hlater : ∀ p ∈ sortOccurrences key (l.zipIdx (n + 1)), n < p.2 := by
      intro p hp
      exact List.le_snd_of_mem_zipIdx ((List.mem_insertionSort _).mp hp)
    rw [List.insertionSort_cons, ← ih (n + 1), ← map_orderedInsert hlater]
    rfl

/-! ### Cuts -/

/-- An element of a descending list is among the first `n` exactly if fewer than `n` are above it. -/
lemma mem_take_iff {β : Type*} [LinearOrder β] {l : List α} {rank : α → β} {n : ℕ} {p : α}
    (h : l.Pairwise fun a b => rank b < rank a) (hp : p ∈ l) :
    p ∈ l.take n ↔ l.countP (fun q => rank p < rank q) < n := by
  induction l generalizing n with
  | nil => cases hp
  | cons a l ih =>
    obtain ⟨ha, hl⟩ := List.pairwise_cons.mp h
    cases n with
    | zero => simp
    | succ n =>
      rcases List.mem_cons.mp hp with heq | hp
      · subst heq
        have hnone : l.countP (fun q => rank p < rank q) = 0 := by
          rw [List.countP_eq_zero]
          intro q hq
          simpa using (ha q hq).le
        simp [hnone]
      · have hne : p ≠ a := by
          intro heq
          exact lt_irrefl _ (heq ▸ ha p hp)
        simp [ha p hp, hne, ih hl hp]

/-- A relation holds from what a cut of the reversed sort keeps to what it leaves exactly if it
holds from the occurrences above the cut to those below. -/
lemma forall_cut_iff (l : List α) (n : ℕ) {R : α → α → Prop} :
    (∀ a ∈ (l.insertionSort fun a b => key a ≤ key b).reverse.take n,
      ∀ b ∈ (l.insertionSort fun a b => key a ≤ key b).reverse.drop n, R a b) ↔
    ∀ p ∈ l.zipIdx, ∀ q ∈ l.zipIdx, outranked key l p < n → n ≤ outranked key l q → R p.1 q.1 := by
  have hperm : (sortOccurrences key l.zipIdx).reverse.Perm l.zipIdx :=
    (List.reverse_perm _).trans (List.perm_insertionSort _ _)
  have hpositions : (l.zipIdx.map Prod.snd).Nodup := by
    rw [List.zipIdx_map_snd]
    exact List.nodup_range'
  have hnodup := hperm.nodup_iff.mpr (List.Nodup.of_map _ hpositions)
  have hsorted : (sortOccurrences key l.zipIdx).reverse.Pairwise
      fun p q => occurrenceKey key q < occurrenceKey key p := by
    rw [List.pairwise_reverse]
    have hle : (sortOccurrences key l.zipIdx).Pairwise
        fun p q => occurrenceKey key p ≤ occurrenceKey key q := List.pairwise_insertionSort _ _
    have hne : (sortOccurrences key l.zipIdx).Pairwise fun p q => p.2 ≠ q.2 :=
      List.pairwise_map.mp (((List.perm_insertionSort _ _).map _).nodup_iff.mpr hpositions)
    refine (hle.and hne).imp fun {p q} h => lt_of_le_of_ne h.1 fun heq => h.2 ?_
    exact congrArg (fun k => (ofLex k).2) heq
  have htop : ∀ p ∈ l.zipIdx, p ∈ (sortOccurrences key l.zipIdx).reverse.take n ↔
      outranked key l p < n := by
    intro p hp
    rw [mem_take_iff hsorted (hperm.mem_iff.mpr hp), hperm.countP_eq, outranked]
  have hbottom : ∀ p ∈ l.zipIdx, p ∈ (sortOccurrences key l.zipIdx).reverse.drop n ↔
      n ≤ outranked key l p := by
    intro p hp
    rw [mem_drop_iff hnodup, htop p hp, not_lt]
    exact and_iff_right (hperm.mem_iff.mpr hp)
  rw [← map_sortOccurrences l 0, ← List.map_reverse, ← List.map_take, ← List.map_drop]
  simp only [List.forall_mem_map]
  constructor
  · intro h p hp q hq hptop hqbottom
    exact h p ((htop p hp).mpr hptop) q ((hbottom q hq).mpr hqbottom)
  · intro h p hp q hq
    have hp' := hperm.mem_iff.mp (List.mem_of_mem_take hp)
    have hq' := hperm.mem_iff.mp (List.mem_of_mem_drop hq)
    exact h p hp' q hq' ((htop p hp').mp hp) ((hbottom q hq').mp hq)

end CyberBrain.Ranking
