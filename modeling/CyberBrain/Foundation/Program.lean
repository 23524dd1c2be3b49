import Mathlib.Logic.Basic
import Mathlib.Tactic.SplitIfs

/-!
# Programs that fail midway

A program transforms a state and either returns or raises; what it did to the state before raising
stays done, as the writes of an aborted call do. Its logic is that of triples with two
postconditions, one for a normal return and one for an exception. A write may be *lost* (the call
aborts before it takes effect) or *late* (it takes effect and the call aborts all the same).
-/

namespace CyberBrain

universe u v w

/-- A program on states `σ` that returns an `α` or raises an `ε`. -/
def Program (σ : Type u) (ε : Type v) (α : Type w) := σ → Except ε α × σ

namespace Program

variable {σ : Type u} {ε : Type v} {α β : Type w}

protected def pure (a : α) : Program σ ε α := fun s => (.ok a, s)

protected def bind (x : Program σ ε α) (f : α → Program σ ε β) : Program σ ε β := fun s =>
  match x s with
  | (.ok a, t)    => f a t
  | (.error e, t) => (.error e, t)

instance : Monad (Program σ ε) where
  pure := Program.pure
  bind := Program.bind

/-- Abort with `e`. -/
def raise (e : ε) : Program σ ε α := fun s => (.error e, s)

/-- Read from the state. -/
def reads (f : σ → α) : Program σ ε α := fun s => (.ok (f s), s)

/-- The result of a computation that touches no state. -/
def ofExcept : Except ε α → Program σ ε α
  | .ok a    => .pure a
  | .error e => raise e

/-- Run `body` as one transaction, which leaves no trace when it fails. -/
def atomically (body : σ → Except ε (α × σ)) : Program σ ε α := fun s =>
  match body s with
  | .ok (a, t) => (.ok a, t)
  | .error e   => (.error e, s)

/-- What a transaction does not touch is as it was before. -/
lemma atomically_frame {τ : Type*} (f : σ → τ) {body : σ → Except ε (α × σ)} {s : σ}
    (h : ∀ a t, body s = .ok (a, t) → f t = f s) : f (atomically body s).2 = f s := by
  unfold atomically
  split
  · rename_i a t heq
    exact h a t heq
  · rfl

lemma atomically_cases (body : σ → Except ε (α × σ)) (s : σ) :
    (∃ a t, body s = .ok (a, t) ∧ atomically body s = (.ok a, t)) ∨
      ∃ e, body s = .error e ∧ atomically body s = (.error e, s) := by
  unfold atomically
  cases h : body s with
  | ok at' => exact .inl ⟨at'.1, at'.2, rfl, rfl⟩
  | error e => exact .inr ⟨e, rfl, rfl⟩

/-- A transaction that fails leaves no trace. -/
lemma atomically_error {body : σ → Except ε (α × σ)} {s : σ} {e : ε}
    (h : (atomically body s).1 = .error e) : (atomically body s).2 = s := by
  rcases atomically_cases body s with ⟨a, t, -, heq⟩ | ⟨e', -, heq⟩ <;> rw [heq] at h ⊢
  cases h

@[simp] lemma pure_bind (a : α) (f : α → Program σ ε β) : (Pure.pure a >>= f) = f a := rfl

@[simp] lemma ofExcept_ok_bind (a : α) (f : α → Program σ ε β) :
    (ofExcept (.ok a) >>= f) = f a := rfl

/-- A sequence goes on from where its first part returns. -/
lemma bind_apply_of_ok {x : Program σ ε α} {f : α → Program σ ε β} {s t : σ} {a : α}
    (h : x s = (.ok a, t)) : (x >>= f) s = f a t := by
  change Program.bind x f s = f a t
  rw [Program.bind, h]

/-- A sequence that returns has run both its parts. -/
lemma bind_eq_ok {x : Program σ ε α} {f : α → Program σ ε β} {s t : σ} {b : β}
    (h : (x >>= f) s = (.ok b, t)) : ∃ a u, x s = (.ok a, u) ∧ f a u = (.ok b, t) := by
  have hbind : (x >>= f) s = match x s with
    | (.ok a, u)    => f a u
    | (.error e, u) => (.error e, u) := rfl
  rw [hbind] at h
  rcases hx : x s with ⟨e | a, u⟩ <;> rw [hx] at h
  · cases h
  · exact ⟨a, u, rfl, h⟩

lemma ofExcept_bind_eq_ok {x : Except ε α} {f : α → Program σ ε β} {s t : σ} {b : β}
    (h : (ofExcept x >>= f) s = (.ok b, t)) : ∃ a, x = .ok a ∧ f a s = (.ok b, t) := by
  cases x with
  | error e => cases h
  | ok a => exact ⟨a, rfl, h⟩

/-- What becomes of a single write. -/
inductive Fate
  | applied
  | lost
  | late
  deriving DecidableEq, Repr

/-- Write `f`, with the fate that the state decides; the call aborts with `e` on a fault. -/
def write (fate : σ → Fate) (f : σ → σ) (e : ε) : Program σ ε Unit := fun s =>
  match fate s with
  | .applied => (.ok (), f s)
  | .lost    => (.error e, s)
  | .late    => (.error e, f s)

/-- Run `body` on the elements of a list in order. -/
def forEach {γ : Type*} (body : γ → Program σ ε Unit) : List γ → Program σ ε Unit
  | []      => .pure ()
  | a :: as => .bind (body a) fun _ => forEach body as

/-! ### Triples -/

/-- From a state in `P`, a normal return of `x` ends in `Q` and an exception in `E`. -/
def Triple (P : σ → Prop) (x : Program σ ε α) (Q : α → σ → Prop) (E : ε → σ → Prop) : Prop :=
  ∀ s, P s → match x s with
    | (.ok a, t)    => Q a t
    | (.error e, t) => E e t

variable {P P' : σ → Prop} {Q Q' : α → σ → Prop} {R : β → σ → Prop} {E E' : ε → σ → Prop}

lemma Triple.ok {x : Program σ ε α} (h : Triple P x Q E) {s t : σ} {a : α} (hs : P s)
    (hx : x s = (.ok a, t)) : Q a t := by
  have := h s hs
  rwa [hx] at this

lemma Triple.error {x : Program σ ε α} (h : Triple P x Q E) {s t : σ} {e : ε} (hs : P s)
    (hx : x s = (.error e, t)) : E e t := by
  have := h s hs
  rwa [hx] at this

/-- What holds whenever a program returns. -/
lemma Triple.of_ok {x : Program σ ε α} (h : ∀ s a t, x s = (.ok a, t) → Q a t) :
    Triple (fun _ => True) x Q fun _ _ => True := by
  intro s _
  rcases hx : x s with ⟨e | a, t⟩
  · trivial
  · exact h s a t hx

/-- A program that raises nothing returns. -/
lemma Triple.returns {x : Program σ ε α} (h : Triple P x Q fun _ _ => False) {s : σ} (hs : P s) :
    ∃ a t, x s = (.ok a, t) ∧ Q a t := by
  have := h s hs
  rcases hx : x s with ⟨e | a, t⟩ <;> rw [hx] at this
  · exact this.elim
  · exact ⟨a, t, rfl, this⟩

/-- One property of all final states, whichever way the program ends. -/
lemma Triple.always {I : σ → Prop} {x : Program σ ε α} (h : Triple P x (fun _ => I) fun _ => I)
    {s : σ} (hs : P s) : I (x s).2 := by
  have := h s hs
  rcases hx : x s with ⟨_ | _, t⟩ <;> rw [hx] at this <;> exact this

lemma Triple.conseq {x : Program σ ε α} (h : Triple P' x Q' E') (hP : ∀ s, P s → P' s)
    (hQ : ∀ a s, Q' a s → Q a s) (hE : ∀ e s, E' e s → E e s) : Triple P x Q E := by
  intro s hs
  have := h s (hP s hs)
  rcases hx : x s with ⟨_ | _, t⟩ <;> rw [hx] at this
  · exact hE _ _ this
  · exact hQ _ _ this

lemma Triple.pre {x : Program σ ε α} (h : Triple P' x Q E) (hP : ∀ s, P s → P' s) :
    Triple P x Q E :=
  h.conseq hP (fun _ _ => id) fun _ _ => id

lemma Triple.post {x : Program σ ε α} (h : Triple P x Q' E') (hQ : ∀ a s, Q' a s → Q a s)
    (hE : ∀ e s, E' e s → E e s) : Triple P x Q E :=
  h.conseq (fun _ => id) hQ hE

/-- What two triples say of a program holds together. -/
lemma Triple.and {x : Program σ ε α} (h : Triple P x Q E) (h' : Triple P' x Q' E') :
    Triple (fun s => P s ∧ P' s) x (fun a s => Q a s ∧ Q' a s) fun e s => E e s ∧ E' e s := by
  intro s hs
  have hx := h s hs.1
  have hx' := h' s hs.2
  rcases hrun : x s with ⟨_ | _, t⟩ <;> rw [hrun] at hx hx' <;> exact ⟨hx, hx'⟩

/-- A triple may be proved one initial state at a time. -/
lemma Triple.of_forall {x : Program σ ε α}
    (h : ∀ s, P s → Triple (fun t => t = s) x Q E) : Triple P x Q E :=
  fun s hs => h s hs s rfl

lemma Triple.pure {a : α} (h : ∀ s, P s → Q a s) :
    Triple P (Pure.pure a : Program σ ε α) Q E :=
  fun s hs => h s hs

lemma Triple.raise {e : ε} (h : ∀ s, P s → E e s) :
    Triple P (Program.raise e : Program σ ε α) Q E :=
  fun s hs => h s hs

lemma Triple.reads {f : σ → α} (h : ∀ s, P s → Q (f s) s) :
    Triple P (Program.reads f : Program σ ε α) Q E :=
  fun s hs => h s hs

lemma Triple.ofExcept {x : Except ε α} (hok : ∀ a, x = .ok a → ∀ s, P s → Q a s)
    (herr : ∀ e, x = .error e → ∀ s, P s → E e s) : Triple P (Program.ofExcept x) Q E := by
  intro s hs
  cases x with
  | ok a => exact hok a rfl s hs
  | error e => exact herr e rfl s hs

lemma Triple.atomically {body : σ → Except ε (α × σ)}
    (hok : ∀ s a t, P s → body s = .ok (a, t) → Q a t)
    (herr : ∀ s e, P s → body s = .error e → E e s) : Triple P (Program.atomically body) Q E := by
  intro s hs
  unfold Program.atomically
  cases h : body s with
  | ok at' => exact hok s at'.1 at'.2 hs h
  | error e => exact herr s e hs h

lemma Triple.bind {x : Program σ ε α} {f : α → Program σ ε β} (M : α → σ → Prop)
    (hx : Triple P x M E) (hf : ∀ a, Triple (M a) (f a) R E) : Triple P (x >>= f) R E := by
  intro s hs
  have h := hx s hs
  change match Program.bind x f s with
    | (.ok b, t)    => R b t
    | (.error e, t) => E e t
  unfold Program.bind
  rcases hxs : x s with ⟨_ | a, t⟩ <;> rw [hxs] at h
  · exact h
  · exact hf a t h

/-- Read a value and go on with it. -/
lemma Triple.reads_bind {g : σ → α} {f : α → Program σ ε β}
    (h : ∀ a, Triple (fun s => P s ∧ g s = a) (f a) R E) :
    Triple P (Program.reads g >>= f) R E :=
  fun s hs => h (g s) s ⟨hs, rfl⟩

/-- Go on with the value of a computation that touches no state, or end with its exception. -/
lemma Triple.ofExcept_bind {x : Except ε α} {f : α → Program σ ε β}
    (hok : ∀ a, x = .ok a → Triple P (f a) R E)
    (herr : ∀ e, x = .error e → ∀ s, P s → E e s) : Triple P (Program.ofExcept x >>= f) R E := by
  cases x with
  | ok a => exact hok a rfl
  | error e => exact fun s hs => herr e rfl s hs

lemma Triple.write {fate : σ → Fate} {f : σ → σ} {e : ε} {Q : Unit → σ → Prop}
    (happlied : ∀ s, P s → fate s = .applied → Q () (f s))
    (hlost : ∀ s, P s → fate s = .lost → E e s)
    (hlate : ∀ s, P s → fate s = .late → E e (f s)) :
    Triple P (Program.write fate f e) Q E := by
  intro s hs
  unfold Program.write
  cases h : fate s with
  | applied => exact happlied s hs h
  | lost => exact hlost s hs h
  | late => exact hlate s hs h

lemma Triple.ite {c : Prop} [Decidable c] {x y : Program σ ε α}
    (hx : c → Triple P x Q E) (hy : ¬ c → Triple P y Q E) :
    Triple P (if c then x else y) Q E := by
  split_ifs with h
  · exact hx h
  · exact hy h

/-- Loop rule: `I done rest` holds between iterations, with the list split at that point. -/
lemma Triple.forEach {γ : Type*} {body : γ → Program σ ε Unit} (I : List γ → List γ → σ → Prop)
    (hbody : ∀ done a rest, Triple (I done (a :: rest)) (body a)
      (fun _ => I (done ++ [a]) rest) E) (as : List γ) :
    Triple (I [] as) (forEach body as) (fun _ => I as []) E := by
  suffices ∀ done rest, Triple (I done rest) (Program.forEach body rest)
      (fun _ => I (done ++ rest) []) E by simpa using this [] as
  intro done rest
  induction rest generalizing done with
  | nil => exact Triple.pure fun s hs => by simpa using hs
  | cons a rest ih =>
    refine Triple.bind (fun _ => I (done ++ [a]) rest) (hbody done a rest) fun _ => ?_
    simpa using ih (done ++ [a])

end Program

end CyberBrain
