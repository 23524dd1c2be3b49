import CyberBrain.Knowledge.Storing

/-!
# Runs

The process guard lets the calls of `store` and `reconcile_pending` follow one another. A run is any
sequence of them, of any callers with any arguments, each of which may be aborted at any of its
writes. What holds in every state that a run can reach follows from what one write preserves.
-/

namespace CyberBrain.Knowledge

open Program Python Relations Schemas Tenancy Relation

variable {py : Runtime}

/-! ### The effect of a call -/

section Calls

variable {k : Knows} {s : Collection py}

/-- `store`, from a collection whose versions form chains. -/
lemma store_triple {service : Service} {call : StoreCall py} (hlawful : call.repository.Lawful)
    (h : Chain s) (hfresh : s.find? call.newId = none) :
    Triple (fun u => u.points = s) (store service call)
      (fun _ u => ∃ p, prepare service call = .ok p ∧ Completed service call p s u.points)
      fun e u => (u.points = s ∧ NoConflict e) ∨ ∃ p, prepare service call = .ok p ∧
        Changes (sees service call p s) s u.points ∧ (Recoverable s → CallerConflict e ∨
          e = .conflictError multipleActive ∧ ¬ Solo s p.subject.identity) := by
  unfold store
  refine Triple.ofExcept_bind (fun p hp => ?_) fun e he u hu =>
    .inl ⟨hu, prepare_raises service call e he⟩
  refine (storeGuarded_triple hlawful h hfresh).post ?_ ?_
  · exact fun _ u hu => ⟨p, hp, hu⟩
  · exact fun e u hu => .inr ⟨p, hp, hu⟩

/-- A reconciliation supersedes and activates, however far it comes. -/
lemma reconcilePending_triple {bound : Option (CallerAuthority py)} {env : Environment py}
    {maxPending : ℤ} (hlawful : env.repository.Lawful) (h : Chain s) :
    Triple (fun u => u.points = s) (reconcilePending bound env maxPending)
      (fun _ u => Changes k s u.points) fun _ u => Changes k s u.points := by
  have hstop : ∀ u : CallState py, u.points = s → Changes k s u.points := fun u hu => hu ▸ .refl
  unfold reconcilePending
  refine Triple.ofExcept_bind (fun _ _ => ?_) fun _ _ => hstop
  refine Triple.ofExcept_bind (fun _ _ => points_bind ?_) fun _ _ => hstop
  refine Triple.ofExcept_bind (fun _ _ => ?_) fun _ _ => hstop
  refine Triple.ofExcept_bind (fun subjects _ => ?_) fun _ _ => hstop
  refine Triple.bind (fun _ u => Changes k s u.points) ?_ fun _ => Triple.pure fun _ hu => hu
  refine (Triple.forEach (fun _ _ (u : CallState py) => Changes k s u.points)
    (fun _ subject _ => ?_) subjects).pre hstop
  refine Triple.of_forall fun u hu => ?_
  have hu' := h.changes hu
  refine ((recoverPending_triple (k := k) hlawful hu' subject).pre
    fun v (hv : v = u) => congrArg CallState.points hv).post ?_ ?_
  · exact fun _ v hv => hu.trans (hv.changes hlawful hu')
  · exact fun _ v hv => hu.trans hv.1

end Calls

/-! ### Reachable states -/

variable (py) in
/-- A call of the service. -/
inductive Call
  | store (service : Service) (call : StoreCall py)
  | reconcile (bound : Option (CallerAuthority py)) (env : Environment py) (maxPending : ℤ)

namespace Call

/-- The collection after a call that met the collection `s`. -/
def run (s : Collection py) : Call py → Collection py
  | .store service call               => (Knowledge.store service call { points := s }).2.points
  | .reconcile bound env maxPending =>
    (reconcilePending bound env maxPending { points := s }).2.points

def repository : Call py → Repository py
  | .store _ call      => call.repository
  | .reconcile _ env _ => env.repository

/-- The id that a call draws is new. -/
def Fresh (s : Collection py) : Call py → Prop
  | .store _ call       => s.find? call.newId = none
  | .reconcile _ _ _ => True

instance (s : Collection py) : (c : Call py) → Decidable (c.Fresh s)
  | .store _ call       =>
    decidable_of_iff ((s.find? call.newId).isNone = true) Option.isNone_iff_eq_none
  | .reconcile _ _ _ => .isTrue trivial

/-- The repository behaves as documented, and the id that a call draws is new. -/
def Admissible (s : Collection py) (c : Call py) : Prop := c.repository.Lawful ∧ c.Fresh s

/-- The pending scroll of a call of `store` misses no pending record of the call's entity. -/
def Scans (s : Collection py) : Call py → Prop
  | .store service call => ∀ p, prepare service call = .ok p → (sees service call p s).scanned
  | .reconcile _ _ _    => True

/-- The active lookup of a call of `store` misses no active record of the call's entity. -/
def Looks (s : Collection py) : Call py → Prop
  | .store service call => ∀ p, prepare service call = .ok p → (sees service call p s).looked
  | .reconcile _ _ _    => True

/-- At most 10 records share the labels and the partition of a call's entity and are active or
pending. -/
def uncrowded (s : Collection py) : Call py → Bool
  | .store service call =>
    match prepare service call with
    | .ok p    => s.rows.countP (competes p.subject) ≤ 10
    | .error _ => true
  | .reconcile _ _ _    => true

lemma sees_of_uncrowded {s : Collection py} {c : Call py} (hlawful : c.repository.Lawful)
    (h : Chain s) (hc : c.uncrowded s = true) : c.Scans s ∧ c.Looks s := by
  cases c with
  | reconcile => exact ⟨trivial, trivial⟩
  | store service call =>
    have hsees : ∀ p, prepare service call = .ok p →
        (sees service call p s).scanned ∧ (sees service call p s).looked := by
      intro p hp
      simp only [uncrowded, hp, decide_eq_true_eq] at hc
      exact sees_of_few hlawful h hc
    exact ⟨fun p hp => (hsees p hp).1, fun p hp => (hsees p hp).2⟩

/-- A call is a sequence of writes, each of which is a change. -/
lemma run_changes {s : Collection py} {c : Call py} (hc : c.Admissible s) (h : Chain s) :
    ∃ k : Knows, Changes k s (c.run s) ∧ (c.Scans s → k.scanned) ∧ (c.Looks s → k.looked) := by
  cases c with
  | reconcile bound env maxPending =>
    exact ⟨⟨True, True⟩, (reconcilePending_triple hc.1 h).always rfl, fun _ => trivial,
      fun _ => trivial⟩
  | store service call =>
    have hstore := @store_triple _ s service call hc.1 h hc.2 { points := s } rfl
    simp only [run]
    rcases hrun : Knowledge.store service call { points := s } with ⟨e | result, u⟩ <;>
      rw [hrun] at hstore
    · rcases hstore with ⟨hu, -⟩ | ⟨p, hp, hchanges, -⟩
      · exact ⟨⟨True, True⟩, hu ▸ .refl, fun _ => trivial, fun _ => trivial⟩
      · exact ⟨_, hchanges, fun hscan => hscan p hp, fun hlook => hlook p hp⟩
    · obtain ⟨p, hp, hcompleted⟩ := hstore
      exact ⟨_, hcompleted.changes hc.1 h, fun hscan => hscan p hp, fun hlook => hlook p hp⟩

end Call

/-- A call of which `P` holds in the state it meets. -/
def Step (P : Collection py → Call py → Prop) (s t : Collection py) : Prop :=
  ∃ c : Call py, c.Admissible s ∧ P s c ∧ t = c.run s

/-- The states that calls lead to from the empty collection. -/
abbrev Reachable (P : Collection py → Call py → Prop) : Collection py → Prop :=
  ReflTransGen (Step P) (Table.empty _)

section Reachable

variable {P : Collection py → Call py → Prop} {s : Collection py}

lemma Reachable.mono {Q : Collection py → Call py → Prop} (hPQ : ∀ s c, P s c → Q s c)
    (h : Reachable P s) : Reachable Q s :=
  h.lift id fun _ _ ⟨c, hc, hP, ht⟩ => ⟨c, hc, hPQ _ _ hP, ht⟩

lemma Reachable.chain (h : Reachable P s) : Chain s := by
  induction h with
  | refl => exact Chain.empty
  | tail _ hstep ih =>
    obtain ⟨c, hc, -, rfl⟩ := hstep
    obtain ⟨k, hchanges, -⟩ := c.run_changes hc ih
    exact ih.changes hchanges

lemma Reachable.recoverable (hP : ∀ s c, P s c → c.Scans s) (h : Reachable P s) :
    Recoverable s := by
  induction h with
  | refl => exact ⟨by simp, by simp⟩
  | @tail t _ hprefix hstep ih =>
    obtain ⟨c, hc, hPc, rfl⟩ := hstep
    obtain ⟨k, hchanges, hscanned, -⟩ := c.run_changes hc (Reachable.chain hprefix)
    exact ih.changes (Reachable.chain hprefix) hchanges (hscanned (hP t c hPc))

lemma Reachable.solo (hP : ∀ s c, P s c → c.Scans s ∧ c.Looks s) (h : Reachable P s)
    (j : Identity) : Solo s j := by
  induction h with
  | refl => exact Solo.empty j
  | @tail t _ hprefix hstep ih =>
    obtain ⟨c, hc, hPc, rfl⟩ := hstep
    obtain ⟨k, hchanges, hscanned, hlooked⟩ := c.run_changes hc (Reachable.chain hprefix)
    exact ih.changes (Reachable.chain hprefix) hchanges (hscanned (hP t c hPc).1)
      (hlooked (hP t c hPc).2)

end Reachable

end CyberBrain.Knowledge
