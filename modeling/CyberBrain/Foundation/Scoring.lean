import CyberBrain.Foundation.Double
import Mathlib.Data.List.Sort
import Mathlib.Data.Prod.Lex
import Mathlib.Data.String.Basic

/-!
# Best first

Lists sorted by a key. Where no two elements share their key, the sorted list depends only on what
the list holds, and leaving elements out commutes with sorting. Scores sort from the highest to the
lowest, and equal ones by id.
-/

namespace CyberBrain.Scoring

variable {α κ : Type*} [LinearOrder κ] (key : α → κ)

/-- `sorted(l, key=key)`. -/
def sortBy (l : List α) : List α := l.insertionSort fun a b => key a ≤ key b

variable {key} {l m : List α}

lemma sortBy_perm (l : List α) : (sortBy key l).Perm l := List.perm_insertionSort _ l

@[simp] lemma mem_sortBy {a : α} : a ∈ sortBy key l ↔ a ∈ l := (sortBy_perm l).mem_iff

@[simp] lemma length_sortBy (l : List α) : (sortBy key l).length = l.length :=
  (sortBy_perm l).length_eq

lemma pairwise_sortBy (l : List α) : (sortBy key l).Pairwise fun a b => key a ≤ key b :=
  List.pairwise_insertionSort _ l

/-- There is one way to sort elements with different keys. -/
lemma eq_of_sorted (hperm : l.Perm m) (hkeys : (l.map key).Nodup)
    (hl : l.Pairwise fun a b => key a ≤ key b) (hm : m.Pairwise fun a b => key a ≤ key b) :
    l = m := by
  refine hperm.eq_of_pairwise (fun a b ha hb hab hba => ?_) hl hm
  exact List.inj_on_of_nodup_map hkeys ha (hperm.symm.subset hb) (le_antisymm hab hba)

/-- The sorted list depends only on what is sorted. -/
theorem sortBy_congr (hperm : l.Perm m) (hkeys : (l.map key).Nodup) :
    sortBy key l = sortBy key m := by
  refine eq_of_sorted ((sortBy_perm l).trans (hperm.trans (sortBy_perm m).symm)) ?_
    (pairwise_sortBy l) (pairwise_sortBy m)
  exact ((sortBy_perm l).map key).nodup_iff.mpr hkeys

lemma sortBy_filter (hkeys : (l.map key).Nodup) (p : α → Bool) :
    (sortBy key l).filter p = sortBy key (l.filter p) := by
  refine eq_of_sorted (((sortBy_perm l).filter p).trans (sortBy_perm _).symm) ?_
    ((pairwise_sortBy l).filter p) (pairwise_sortBy _)
  exact (((sortBy_perm l).map key).nodup_iff.mpr hkeys).sublist (List.filter_sublist.map key)

/-! ### Scores -/

/-- The place of a double among all of them: numbers by their value, a NaN below all others. -/
def height : Double → ℕ ×ₗ ℚ
  | .nan       => toLex (0, 0)
  | .inf true  => toLex (1, 0)
  | .finite x  => toLex (2, x.value)
  | .inf false => toLex (3, 0)

/-- Doubles other than NaN are compared by their places. -/
lemma height_lt {x y : Double} (hx : x ≠ .nan) (hy : y ≠ .nan) :
    height x < height y ↔ x < y := by
  rw [Double.lt_def]
  cases x with
  | nan      => exact absurd rfl hx
  | finite x =>
    cases y with
    | nan      => exact absurd rfl hy
    | finite y => simp [height, Double.Less, Prod.Lex.toLex_lt_toLex]
    | inf neg  => cases neg <;> simp [height, Double.Less, Prod.Lex.toLex_lt_toLex]
  | inf neg  =>
    cases y with
    | nan      => exact absurd rfl hy
    | finite y => cases neg <;> simp [height, Double.Less, Prod.Lex.toLex_lt_toLex]
    | inf neg' =>
      cases neg <;> cases neg' <;> simp [height, Double.Less, Prod.Lex.toLex_lt_toLex]

/-- `(-score, id)`. -/
def scoreKey (id : α → String) (score : α → Double) (a : α) : (ℕ ×ₗ ℚ)ᵒᵈ ×ₗ String :=
  toLex (OrderDual.toDual (height (score a)), id a)

/-- Different ids have different keys. -/
lemma nodup_scoreKey {id : α → String} {score : α → Double} (h : (l.map id).Nodup) :
    (l.map (scoreKey id score)).Nodup := by
  have hids : (l.map (scoreKey id score)).map (fun k => (ofLex k).2) = l.map id := by
    rw [List.map_map]
    rfl
  exact List.Nodup.of_map _ (hids ▸ h)

lemma scoreKey_le {id : α → String} {score : α → Double} {a b : α} :
    scoreKey id score a ≤ scoreKey id score b ↔
      height (score b) < height (score a) ∨ height (score a) = height (score b) ∧ id a ≤ id b := by
  simp only [scoreKey, Prod.Lex.toLex_le_toLex, OrderDual.toDual_lt_toDual,
    OrderDual.toDual_inj]

end CyberBrain.Scoring
