import Mathlib.Data.List.Forall2

/-!
# Fallible computations

Checks and lookups that raise, how a sequence of them succeeds, and maps over lists: `List.mapM`
in `Except` stops at the first failure, and when it succeeds it has succeeded everywhere.
-/

namespace CyberBrain

universe u

/-- Raise `e` unless `c` holds. -/
def require {ε : Type*} (c : Prop) [Decidable c] (e : ε) : Except ε Unit :=
  if c then .ok () else .error e

/-- The value of an option, or raise `e`. -/
def orRaise {ε α : Type*} (o : Option α) (e : ε) : Except ε α :=
  match o with
  | some a => .ok a
  | none   => .error e

@[simp] lemma require_eq_ok {ε : Type*} {c : Prop} [Decidable c] {e : ε} {u : Unit} :
    require c e = .ok u ↔ c := by
  by_cases h : c <;> simp [require, h]

@[simp] lemma orRaise_eq_ok {ε α : Type*} {o : Option α} {e : ε} {a : α} :
    orRaise o e = .ok a ↔ o = some a := by
  cases o <;> simp [orRaise]

/-- A sequence succeeds when each part does. -/
lemma bind_eq_ok {ε : Type*} {α β : Type u} {x : Except ε α} {f : α → Except ε β} {b : β} :
    x >>= f = .ok b ↔ ∃ a, x = .ok a ∧ f a = .ok b := by
  cases x <;> simp [bind, Except.bind]

lemma map_eq_ok {ε : Type*} {α β : Type u} {x : Except ε α} {f : α → β} {b : β} :
    f <$> x = .ok b ↔ ∃ a, x = .ok a ∧ f a = b := by
  cases x <;> simp

lemma mapError_eq_ok {ε ε' α : Type*} {x : Except ε α} {f : ε → ε'} {a : α} :
    x.mapError f = .ok a ↔ x = .ok a := by
  cases x <;> simp [Except.mapError]

lemma toOption_eq_some {ε α : Type*} {x : Except ε α} {a : α} :
    x.toOption = some a ↔ x = .ok a := by
  cases x <;> simp [Except.toOption]

lemma exists_ok_of_map {ε α β : Type*} {x : Except ε α} {f : α → β} {b : β}
    (h : x.toOption.map f = some b) : ∃ a, x = .ok a ∧ f a = b := by
  obtain ⟨a, ha, hb⟩ := Option.map_eq_some_iff.mp h
  exact ⟨a, toOption_eq_some.mp ha, hb⟩

/-- The exception of a computation that fails. -/
def exception? {ε α : Type*} : Except ε α → Option ε
  | .ok _    => none
  | .error e => some e

lemma exception?_eq_some {ε α : Type*} {x : Except ε α} {e : ε} :
    exception? x = some e ↔ x = .error e := by
  cases x <;> simp [exception?]

/-! ### Which exceptions -/

/-- Every exception that the computation can end with satisfies `P`. -/
def Raises {ε α : Type*} (P : ε → Prop) (x : Except ε α) : Prop := ∀ e, x = .error e → P e

section Raises

variable {ε ε' : Type*} {α β : Type u} {P : ε → Prop}

lemma Raises.ok (a : α) : Raises P (.ok a : Except ε α) := fun _ h => absurd h (by simp)

lemma Raises.pure (a : α) : Raises P (Pure.pure a : Except ε α) := Raises.ok a

lemma Raises.error {e : ε} (h : P e) : Raises P (.error e : Except ε α) := fun _ he =>
  Except.error.inj he ▸ h

lemma Raises.require {c : Prop} [Decidable c] {e : ε} (h : P e) : Raises P (require c e) := by
  unfold CyberBrain.require
  split_ifs
  · exact .ok _
  · exact .error h

lemma Raises.orRaise {o : Option α} {e : ε} (h : P e) : Raises P (orRaise o e) := by
  cases o
  · exact .error h
  · exact .ok _

lemma Raises.bind {x : Except ε α} {f : α → Except ε β} (hx : Raises P x)
    (hf : ∀ a, Raises P (f a)) : Raises P (x >>= f) := by
  cases x with
  | ok a => exact hf a
  | error e => exact .error (hx e rfl)

lemma Raises.map {x : Except ε α} {f : α → β} (hx : Raises P x) : Raises P (x.map f) := by
  cases x with
  | ok a => exact .ok _
  | error e => exact .error (hx e rfl)

lemma Raises.mapError {x : Except ε' α} {f : ε' → ε} (h : ∀ e, P (f e)) :
    Raises P (x.mapError f) := by
  cases x with
  | ok a => exact .ok _
  | error e => exact .error (h e)

lemma Raises.mapM {γ : Type*} {l : List γ} {f : γ → Except ε β} (hf : ∀ a, Raises P (f a)) :
    Raises P (l.mapM f) := by
  induction l with
  | nil => exact .ok _
  | cons a l ih =>
    rw [List.mapM_cons]
    exact (hf a).bind fun _ => ih.bind fun _ => .pure _

lemma Raises.forM {γ : Type*} {l : List γ} {f : γ → Except ε PUnit.{u + 1}}
    (hf : ∀ a, Raises P (f a)) : Raises P (forM l f) := by
  induction l with
  | nil => exact .ok _
  | cons a l ih => exact (hf a).bind fun _ => ih

end Raises

/-! ### Maps over lists -/

variable {ε α β : Type*} {f : α → Except ε β} {l : List α}

/-- A check of a list succeeds when it succeeds on every element. -/
lemma forM_eq_ok {check : α → Except ε PUnit} {u : PUnit} :
    forM l check = .ok u ↔ ∀ a ∈ l, check a = .ok u := by
  induction l with
  | nil => simp [pure, Except.pure]
  | cons a l ih =>
    simp only [List.forM_cons, bind_eq_ok, ih, List.forall_mem_cons]
    exact ⟨fun ⟨_, ha, hl⟩ => ⟨ha, hl⟩, fun ⟨ha, hl⟩ => ⟨u, ha, hl⟩⟩

/-- A fold in which every step succeeds on its own terms succeeds when every step does. -/
lemma foldlM_ok_iff {σ : Type*} {step : σ → α → Except ε σ} {P : α → Prop}
    (hstep : ∀ s a, (∃ t, step s a = .ok t) ↔ P a) {s : σ} :
    (∃ t, l.foldlM step s = .ok t) ↔ ∀ a ∈ l, P a := by
  induction l generalizing s with
  | nil => simp [pure, Except.pure]
  | cons a l ih =>
    simp only [List.foldlM_cons, bind_eq_ok, List.forall_mem_cons]
    constructor
    · rintro ⟨t, mid, hmid, ht⟩
      exact ⟨(hstep s a).mp ⟨mid, hmid⟩, ih.mp ⟨t, ht⟩⟩
    · rintro ⟨ha, hl⟩
      obtain ⟨mid, hmid⟩ := (hstep s a).mpr ha
      obtain ⟨t, ht⟩ := ih.mpr hl
      exact ⟨t, mid, hmid, ht⟩

/-- A fold whose steps add to an output adds up what they add. -/
lemma foldlM_output {σ : Type*} {step : σ → α → Except ε σ} (out : σ → List β)
    {gives : α → List β} (hstep : ∀ s a t, step s a = .ok t → out t = out s ++ gives a) {s t : σ}
    (h : l.foldlM step s = .ok t) : out t = out s ++ l.flatMap gives := by
  induction l generalizing s with
  | nil => cases h; simp
  | cons a l ih =>
    rw [List.foldlM_cons] at h
    obtain ⟨mid, hmid, h⟩ := bind_eq_ok.mp h
    rw [ih h, hstep s a mid hmid, List.flatMap_cons, List.append_assoc]

lemma forall₂_of_mapM {bs : List β} (h : l.mapM f = .ok bs) :
    List.Forall₂ (fun a b => f a = .ok b) l bs := by
  induction l generalizing bs with
  | nil => cases h; exact .nil
  | cons a l ih =>
    rw [List.mapM_cons] at h
    cases ha : f a with
    | error e => rw [ha] at h; cases h
    | ok b =>
      cases hl : l.mapM f with
      | error e => rw [ha, hl] at h; cases h
      | ok bs =>
        rw [ha, hl] at h
        cases h
        exact .cons ha (ih hl)

/-- The results of a map are those of its elements. -/
lemma mem_of_mapM {bs : List β} (h : l.mapM f = .ok bs) {b : β} :
    b ∈ bs ↔ ∃ a ∈ l, f a = .ok b := by
  have hall := forall₂_of_mapM h
  clear h
  induction hall with
  | nil => simp
  | @cons a c _ _ ha _ ih =>
    simp only [List.mem_cons, ih, exists_eq_or_imp, ha, Except.ok.injEq, eq_comm (a := c)]

/-- Where a map succeeds, it does on every element. -/
lemma ok_of_mapM {bs : List β} (h : l.mapM f = .ok bs) {a : α} (ha : a ∈ l) :
    ∃ b ∈ bs, f a = .ok b := by
  have hall := forall₂_of_mapM h
  clear h
  induction hall with
  | nil => cases ha
  | cons hb _ ih =>
    rcases List.mem_cons.mp ha with rfl | ha
    · exact ⟨_, List.mem_cons_self, hb⟩
    · obtain ⟨b, hb, hab⟩ := ih ha
      exact ⟨b, List.mem_cons_of_mem _ hb, hab⟩

lemma mapM_eq_ok_of_forall {g : α → β} (h : ∀ a ∈ l, f a = .ok (g a)) :
    l.mapM f = .ok (l.map g) := by
  induction l with
  | nil => rfl
  | cons a l ih =>
    rw [List.mapM_cons, h a List.mem_cons_self, ih fun b hb => h b (List.mem_cons_of_mem a hb)]
    rfl

/-- A failure of the whole map is the failure of one element after which nothing ran. -/
lemma exists_of_mapM_error {e : ε} (h : l.mapM f = .error e) :
    ∃ done a rest, l = done ++ a :: rest ∧ (∀ b ∈ done, ∃ c, f b = .ok c) ∧ f a = .error e := by
  induction l with
  | nil => cases h
  | cons a l ih =>
    rw [List.mapM_cons] at h
    cases ha : f a with
    | error e' =>
      rw [ha] at h
      cases h
      exact ⟨[], a, l, rfl, by simp, ha⟩
    | ok b =>
      cases hl : l.mapM f with
      | ok bs => rw [ha, hl] at h; cases h
      | error e' =>
        rw [ha, hl] at h
        cases h
        obtain ⟨done, c, rest, rfl, hdone, hc⟩ := ih hl
        exact ⟨a :: done, c, rest, rfl, by simpa [ha] using hdone, hc⟩

end CyberBrain
