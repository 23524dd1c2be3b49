import CyberBrain.Foundation.Program

/-!
# Two runs side by side

Two programs are alike when, from related states, both return related values or both raise related
exceptions. The rules follow those of triples, and triples of either program may be added.
-/

namespace CyberBrain

universe u v w

/-- Two computations that both return related values, or both raise. -/
def SameOutcome {ε δ : Type u} {α : Type v} {β : Type w} (Q : α → β → Prop) :
    Except ε α → Except δ β → Prop
  | .ok a, .ok b       => Q a b
  | .error _, .error _ => True
  | _, _               => False

section Outcomes

variable {ε δ : Type u} {α : Type v} {β : Type w} {Q : α → β → Prop} {x : Except ε α}
  {y : Except δ β}

/-- Two computations have the same outcome when each returns where the other one does. -/
lemma SameOutcome.intro (hx : ∀ a, x = .ok a → ∃ b, y = .ok b)
    (hy : ∀ b, y = .ok b → ∃ a, x = .ok a) (h : ∀ a b, x = .ok a → y = .ok b → Q a b) :
    SameOutcome Q x y := by
  rcases x with e | a <;> rcases y with d | b
  · trivial
  · obtain ⟨a, ha⟩ := hy b rfl
    cases ha
  · obtain ⟨b, hb⟩ := hx a rfl
    cases hb
  · exact h a b rfl rfl

lemma SameOutcome.of_iff {γ : Type v} {x y : Except ε γ} (h : ∀ a, x = .ok a ↔ y = .ok a) :
    SameOutcome Eq x y :=
  .intro (fun a ha => ⟨a, (h a).mp ha⟩) (fun a ha => ⟨a, (h a).mpr ha⟩) fun a _ ha hb =>
    Except.ok.inj (((h a).mp ha).symm.trans hb)

lemma SameOutcome.mono {R : α → β → Prop} (h : SameOutcome Q x y) (hQ : ∀ a b, Q a b → R a b) :
    SameOutcome R x y := by
  rcases x with e | a <;> rcases y with d | b
  · trivial
  · exact h
  · exact h
  · exact hQ a b h

end Outcomes

lemma SameOutcome.bind {ε δ : Type u} {α β γ κ : Type v} {Q : α → β → Prop} {R : γ → κ → Prop}
    {x : Except ε α} {y : Except δ β} {f : α → Except ε γ} {g : β → Except δ κ}
    (h : SameOutcome Q x y) (hfg : ∀ a b, Q a b → SameOutcome R (f a) (g b)) :
    SameOutcome R (x >>= f) (y >>= g) := by
  rcases x with e | a <;> rcases y with d | b
  · trivial
  · exact h.elim
  · exact h.elim
  · exact hfg a b h

namespace Program

variable {σ τ : Type u} {ε δ : Type v} {α β γ κ : Type w}

/-- From states in `P`, `x` and `y` both return in `Q` or both raise in `E`. -/
def Alike (P : σ → τ → Prop) (x : Program σ ε α) (y : Program τ δ β) (Q : α → β → σ → τ → Prop)
    (E : ε → δ → σ → τ → Prop) : Prop :=
  ∀ s t, P s t → match x s, y t with
    | (.ok a, u), (.ok b, v)       => Q a b u v
    | (.error e, u), (.error d, v) => E e d u v
    | _, _                         => False

variable {P P' : σ → τ → Prop} {Q Q' : α → β → σ → τ → Prop} {R : γ → κ → σ → τ → Prop}
  {E E' : ε → δ → σ → τ → Prop} {x : Program σ ε α} {y : Program τ δ β}

lemma Alike.conseq (h : Alike P' x y Q' E') (hP : ∀ s t, P s t → P' s t)
    (hQ : ∀ a b s t, Q' a b s t → Q a b s t) (hE : ∀ e d s t, E' e d s t → E e d s t) :
    Alike P x y Q E := by
  intro s t hst
  have := h s t (hP s t hst)
  rcases hx : x s with ⟨_ | _, u⟩ <;> rcases hy : y t with ⟨_ | _, v⟩ <;> rw [hx, hy] at this
  · exact hE _ _ _ _ this
  · exact this
  · exact this
  · exact hQ _ _ _ _ this

/-- Two runs may be compared from one pair of states at a time. -/
lemma Alike.of_forall (h : ∀ s t, P s t → Alike (fun u v => u = s ∧ v = t) x y Q E) :
    Alike P x y Q E :=
  fun s t hst => h s t hst s t ⟨rfl, rfl⟩

/-- What does not speak of the states is a hypothesis. -/
lemma Alike.given {c : Prop} (h : c → Alike P x y Q E) :
    Alike (fun s t => P s t ∧ c) x y Q E :=
  fun s t hst => h hst.2 s t hst.1

lemma Alike.pure {a : α} {b : β} (h : ∀ s t, P s t → Q a b s t) :
    Alike P (Pure.pure a : Program σ ε α) (Pure.pure b : Program τ δ β) Q E :=
  fun s t hst => h s t hst

lemma Alike.raise {e : ε} {d : δ} (h : ∀ s t, P s t → E e d s t) :
    Alike P (Program.raise e : Program σ ε α) (Program.raise d : Program τ δ β) Q E :=
  fun s t hst => h s t hst

lemma Alike.ofExcept {x : Except ε α} {y : Except δ β} {V : α → β → Prop}
    (h : SameOutcome V x y) (hok : ∀ a b, V a b → ∀ s t, P s t → Q a b s t)
    (herr : ∀ e d s t, P s t → E e d s t) :
    Alike P (Program.ofExcept x) (Program.ofExcept y) Q E := by
  intro s t hst
  rcases x with e | a <;> rcases y with d | b
  · exact herr e d s t hst
  · exact h.elim
  · exact h.elim
  · exact hok a b h s t hst

lemma Alike.bind {f : α → Program σ ε γ} {g : β → Program τ δ κ} (M : α → β → σ → τ → Prop)
    (hxy : Alike P x y M E) (hfg : ∀ a b, Alike (M a b) (f a) (g b) R E) :
    Alike P (x >>= f) (y >>= g) R E := by
  intro s t hst
  have h := hxy s t hst
  change match Program.bind x f s, Program.bind y g t with
    | (.ok a, u), (.ok b, v)       => R a b u v
    | (.error e, u), (.error d, v) => E e d u v
    | _, _                         => False
  unfold Program.bind
  rcases hx : x s with ⟨_ | a, u⟩ <;> rcases hy : y t with ⟨_ | b, v⟩ <;> rw [hx, hy] at h
  · exact h
  · exact h.elim
  · exact h.elim
  · exact hfg a b u v h

lemma Alike.ite {c d : Prop} [Decidable c] [Decidable d] {x' : Program σ ε α}
    {y' : Program τ δ β} (hcd : c ↔ d) (h : c → d → Alike P x y Q E)
    (h' : ¬ c → ¬ d → Alike P x' y' Q E) :
    Alike P (if c then x else x') (if d then y else y') Q E := by
  by_cases hc : c
  · rw [if_pos hc, if_pos (hcd.mp hc)]
    exact h hc (hcd.mp hc)
  · rw [if_neg hc, if_neg (hcd.not.mp hc)]
    exact h' hc (hcd.not.mp hc)

/-- What holds of each of the two runs by itself holds of them side by side. -/
lemma Alike.and (h : Alike P x y Q E) {X : σ → Prop} {A : α → σ → Prop} {F : ε → σ → Prop}
    (hx : Triple X x A F) {Y : τ → Prop} {B : β → τ → Prop} {G : δ → τ → Prop}
    (hy : Triple Y y B G) :
    Alike (fun s t => P s t ∧ X s ∧ Y t) x y (fun a b s t => Q a b s t ∧ A a s ∧ B b t)
      (fun e d s t => E e d s t ∧ F e s ∧ G d t) := by
  rintro s t ⟨hst, hs, ht⟩
  have hxy := h s t hst
  have hx := hx s hs
  have hy := hy t ht
  rcases hxs : x s with ⟨_ | _, u⟩ <;> rcases hyt : y t with ⟨_ | _, v⟩ <;>
    rw [hxs] at hx hxy <;> rw [hyt] at hy hxy
  · exact ⟨hxy, hx, hy⟩
  · exact hxy
  · exact hxy
  · exact ⟨hxy, hx, hy⟩

end Program

end CyberBrain
