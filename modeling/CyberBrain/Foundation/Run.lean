import Mathlib.Algebra.Ring.Int.Defs
import Mathlib.Data.Int.Cast.Basic
import Mathlib.Data.List.Induction
import Mathlib.Data.Nat.Cast.Basic

/-!
# Runs of a step function

A run applies a list of operations to a state, one after the other. An invariant is shown once for
a step; where a step keeps a property only under a condition, the property holds in every state of
a run exactly if every step of the run meets the condition.
-/

namespace CyberBrain

variable {σ α : Type*} {step : σ → α → σ} {I P : σ → Prop} {C : σ → α → Prop} {s : σ}

/-- What every step keeps holds after a run. -/
lemma foldl_invariant (hstep : ∀ s a, I s → I (step s a)) (h : I s) (as : List α) :
    I (as.foldl step s) := by
  induction as generalizing s with
  | nil => exact h
  | cons a as ih => exact ih (hstep s a h)

/-- What a step keeps under a condition holds after a run whose steps meet the condition. -/
lemma foldl_of_forall (hstep : ∀ s a, I s → P s → C s a → P (step s a))
    (hI : ∀ s a, I s → I (step s a)) (hs : I s) (hP : P s) {as : List α}
    (h : ∀ done a rest, as = done ++ a :: rest → C (done.foldl step s) a) :
    P (as.foldl step s) := by
  induction as using List.reverseRecOn with
  | nil => exact hP
  | append_singleton as a ih =>
    rw [List.foldl_append]
    refine hstep _ a (foldl_invariant hI hs as) (ih fun done b rest heq => ?_) (h as a [] rfl)
    exact h done b (rest ++ [a]) (by simp [heq])

/-- Where a step keeps a property exactly under a condition, a run keeps it exactly if all its
steps meet the condition. -/
theorem forall_prefix_iff (hstep : ∀ s a, I s → P s → (P (step s a) ↔ C s a))
    (hI : ∀ s a, I s → I (step s a)) (hs : I s) (hP : P s) (as : List α) :
    (∀ done rest, as = done ++ rest → P (done.foldl step s)) ↔
      ∀ done a rest, as = done ++ a :: rest → C (done.foldl step s) a := by
  constructor
  · intro h done a rest heq
    have hnext : P (step (done.foldl step s) a) := by
      have := h (done ++ [a]) rest (by simp [heq])
      rwa [List.foldl_append] at this
    exact (hstep _ a (foldl_invariant hI hs done) (h done _ heq)).mp hnext
  · intro h done rest heq
    refine foldl_of_forall (fun s a hs hP => (hstep s a hs hP).mpr) hI hs hP ?_
    intro done' a rest' heq'
    exact h done' a (rest' ++ rest) (by simp [heq, heq'])

/-- Where steps that meet a condition keep an invariant, and under the invariant a law of steps is
that condition, all steps of a run obey the law exactly if they all meet the condition. -/
theorem forall_step_iff {L : σ → α → Prop} (hstep : ∀ s a, P s → (L s a ↔ C s a))
    (hP : ∀ s a, P s → C s a → P (step s a)) (h : P s) (as : List α) :
    (∀ done a rest, as = done ++ a :: rest → L (done.foldl step s) a) ↔
      ∀ done a rest, as = done ++ a :: rest → C (done.foldl step s) a := by
  have hevery (hall : ∀ done a rest, as = done ++ a :: rest → C (done.foldl step s) a) :
      ∀ done rest, as = done ++ rest → P (done.foldl step s) := by
    intro done rest heq
    refine foldl_of_forall (I := fun _ => True) (fun s a _ => hP s a) (fun _ _ _ => trivial)
      trivial h fun done' a rest' heq' => ?_
    exact hall done' a (rest' ++ rest) (by simp [heq, heq'])
  constructor
  · intro hlaw
    -- the condition up to a step gives the invariant there, and so the condition at the step
    have hall : ∀ done rest, as = done ++ rest → P (done.foldl step s) := by
      intro done
      induction done using List.reverseRecOn with
      | nil => exact fun _ _ => h
      | append_singleton done a ih =>
        intro rest heq
        have hdone := ih (a :: rest) (by simp [heq])
        rw [List.foldl_append]
        exact hP _ a hdone ((hstep _ a hdone).mp (hlaw done a rest (by simp [heq])))
    exact fun done a rest heq => (hstep _ a (hall done _ heq)).mp (hlaw done a rest heq)
  · intro hall done a rest heq
    exact (hstep _ a (hevery hall done _ heq)).mpr (hall done a rest heq)

/-! ### Counting steps -/

/-- How many steps of a run meet a condition. -/
def countSteps (step : σ → α → σ) (c : σ → α → Bool) : σ → List α → ℕ
  | _, []      => 0
  | s, a :: as => (if c s a then 1 else 0) + countSteps step c (step s a) as

/-- A counter that goes up with one kind of steps and down with another counts both. -/
lemma count_add_countSteps (count : σ → ℤ) (up down : σ → α → Bool)
    (hstep : ∀ s a, I s → count (step s a) + (if down s a then 1 else 0) =
      count s + (if up s a then 1 else 0))
    (hI : ∀ s a, I s → I (step s a)) (hs : I s) (as : List α) :
    count (as.foldl step s) + countSteps step down s as = count s + countSteps step up s as := by
  induction as generalizing s with
  | nil => rfl
  | cons a as ih =>
    have hrest := ih (hI s a hs)
    have hhead := hstep s a hs
    simp only [List.foldl_cons, countSteps, Nat.cast_add, Nat.cast_ite, Nat.cast_one, Nat.cast_zero]
    omega

end CyberBrain
