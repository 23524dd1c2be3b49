import Mathlib.Data.Set.Function
import Mathlib.Logic.Function.Basic
import Mathlib.Logic.Relation

/-!
# Keyed locks

Threads that each run one section under the lock that belongs to the key of the thread. The locks
are created on demand, so there is one for every key. Two threads exclude each other exactly when
they have the same key.
-/

namespace CyberBrain

open Relation

variable {ι κ : Type*} [DecidableEq ι] [DecidableEq κ]

/-- Where a thread is. -/
inductive Phase
  | waiting
  | inside
  | done
  deriving DecidableEq, Repr

/-- The phase of each thread, and which thread holds the lock of a key. -/
structure LockState (ι κ : Type*) where
  phase : ι → Phase
  holder : κ → Option ι

namespace LockState

/-- All threads wait, and all locks are free. -/
def initial : LockState ι κ := ⟨fun _ => .waiting, fun _ => none⟩

/-- A thread goes on to a phase, and the lock of its key to a holder. -/
def move (s : LockState ι κ) (key : ι → κ) (i : ι) (phase : Phase) (holder : Option ι) :
    LockState ι κ :=
  ⟨Function.update s.phase i phase, Function.update s.holder (key i) holder⟩

/-- A thread acquires the lock of its key and enters its section, or leaves it and releases. -/
inductive Step (key : ι → κ) (s : LockState ι κ) : LockState ι κ → Prop
  | acquire (i : ι) (hwaiting : s.phase i = .waiting) (hfree : s.holder (key i) = none) :
      Step key s (s.move key i .inside (some i))
  | release (i : ι) (hinside : s.phase i = .inside) : Step key s (s.move key i .done none)

/-- The states that the threads can be in. -/
def Reachable (key : ι → κ) (s : LockState ι κ) : Prop := ReflTransGen (Step key) initial s

/-- The sections of two threads never overlap. -/
def Excludes (key : ι → κ) (i j : ι) : Prop :=
  ∀ s, Reachable key s → ¬ (s.phase i = .inside ∧ s.phase j = .inside)

variable {key : ι → κ} {s t : LockState ι κ}

section Move

variable {i j : ι} {phase : Phase} {holder : Option ι}

@[simp] lemma move_phase_self : (s.move key i phase holder).phase i = phase :=
  Function.update_self ..

@[simp] lemma move_holder_self : (s.move key i phase holder).holder (key i) = holder :=
  Function.update_self ..

lemma move_phase_of_ne (h : j ≠ i) : (s.move key i phase holder).phase j = s.phase j :=
  Function.update_of_ne h ..

lemma move_holder_of_ne (h : key j ≠ key i) :
    (s.move key i phase holder).holder (key j) = s.holder (key j) :=
  Function.update_of_ne h ..

end Move

/-- A thread inside its section holds the lock of its key. -/
def Held (key : ι → κ) (s : LockState ι κ) : Prop :=
  ∀ i, s.phase i = .inside → s.holder (key i) = some i

lemma Held.step (h : Held key s) (hstep : Step key s t) : Held key t := by
  intro j hj
  cases hstep with
  | acquire i hwaiting hfree =>
    by_cases hij : j = i
    · rw [hij, move_holder_self]
    · rw [move_phase_of_ne hij] at hj
      have hne : key j ≠ key i := fun hkey => by
        have hheld := h j hj
        rw [hkey, hfree] at hheld
        cases hheld
      rw [move_holder_of_ne hne]
      exact h j hj
  | release i hinside =>
    by_cases hij : j = i
    · rw [hij, move_phase_self] at hj
      cases hj
    · rw [move_phase_of_ne hij] at hj
      have hne : key j ≠ key i := fun hkey =>
        hij (Option.some.inj ((h j hj).symm.trans (hkey ▸ h i hinside)))
      rw [move_holder_of_ne hne]
      exact h j hj

lemma Reachable.held (h : Reachable key s) : Held key s := by
  induction h with
  | refl => exact fun _ hi => absurd hi (by simp [initial])
  | tail _ hstep ih => exact ih.step hstep

/-- Two threads exclude each other exactly when their keys are the same. -/
theorem excludes_iff {i j : ι} (hij : i ≠ j) : Excludes key i j ↔ key i = key j := by
  constructor
  · intro h
    by_contra hkey
    -- one enters after the other
    have hi : Step key initial (initial.move key i .inside (some i)) := .acquire i rfl rfl
    have hj : Step key (initial.move key i .inside (some i))
        ((initial.move key i .inside (some i)).move key j .inside (some j)) :=
      .acquire j (move_phase_of_ne hij.symm) (move_holder_of_ne (Ne.symm hkey))
    refine h _ ((ReflTransGen.single hi).tail hj) ⟨?_, move_phase_self⟩
    rw [move_phase_of_ne hij, move_phase_self]
  · rintro hkey s hs ⟨hi, hj⟩
    have hheld := (hs.held i hi).symm.trans (hkey ▸ hs.held j hj)
    exact hij (Option.some.inj hheld)

end LockState

end CyberBrain
