import CyberBrain.Knowledge.Histories

/-!
# Projections

`store` computes the projection of a Knowledge record once, when it builds the record. Staging,
superseding, activation and recovery rewrite other parts of the record, so the projection stays that
of the payload it is stored with.
-/

namespace CyberBrain.Knowledge

open Program Python Relations Schemas Tenancy

variable {py : Runtime}

/-- The record carries the projection of its own payload, if it is a Knowledge record. -/
def Verifies (r : KnowledgeRecord py) : Prop :=
  r.recordClass = .knowledge → verifyProjection r = .ok ()

/-- Two records with the same class and the same parts that a projection depends on. -/
def SameProjection (r r' : KnowledgeRecord py) : Prop :=
  r.recordClass = r'.recordClass ∧ projectedParts r = projectedParts r'

lemma SameProjection.verifies {r r' : KnowledgeRecord py} (h : SameProjection r r')
    (hr : Verifies r) : Verifies r' := by
  intro hclass
  rw [← verifyProjection_congr h.2]
  exact hr (h.1.trans hclass)

/-- Every record of `t` verifies, or was in `s` with the same projection. -/
def Keeps (s t : Collection py) : Prop :=
  ∀ r' ∈ t.rows, Verifies r' ∨ ∃ r ∈ s.rows, r.id = r'.id ∧ SameProjection r r'

/-- The collection holds nothing else under the id of a record that was read. -/
def Reads (t : Collection py) (read : KnowledgeRecord py) : Prop :=
  ∀ r ∈ t.rows, r.id = read.id → SameProjection r read

section Changes

variable {s t u : Collection py} {r read : KnowledgeRecord py}

lemma Keeps.refl (s : Collection py) : Keeps s s :=
  fun r hr => .inr ⟨r, hr, rfl, rfl, rfl⟩

lemma Keeps.trans (h : Keeps s t) (h' : Keeps t u) : Keeps s u := by
  intro r'' hr''
  rcases h' r'' hr'' with hverifies | ⟨r', hr', hid', hsame'⟩
  · exact .inl hverifies
  · rcases h r' hr' with hverifies | ⟨r, hr, hid, hsame⟩
    · exact .inl (hsame'.verifies hverifies)
    · exact .inr ⟨r, hr, hid.trans hid', hsame.1.trans hsame'.1, hsame.2.trans hsame'.2⟩

lemma Reads.of_mem (h : read ∈ s.rows) : Reads s read := by
  intro r hr hid
  rw [Table.eq_of_key_eq hr h hid]
  exact ⟨rfl, rfl⟩

lemma Reads.upsert (s : Collection py) (read : KnowledgeRecord py) : Reads (s.upsert read) read := by
  intro r hr hid
  have hfound := Table.mem_rows_iff.mp hr
  rw [hid, Table.find?_upsert_self] at hfound
  cases hfound
  exact ⟨rfl, rfl⟩

/-- Inserting a record that verifies. -/
lemma Keeps.upsert (s : Collection py) (h : Verifies r) : Keeps s (s.upsert r) := by
  intro r' hr'
  have hfound := Table.mem_rows_iff.mp hr'
  rw [Table.find?_upsert] at hfound
  split_ifs at hfound with hid
  · cases hfound
    exact .inl h
  · exact .inr ⟨r', Table.mem_of_find? hfound, rfl, rfl, rfl⟩

/-- A change of the record under an id keeps the projections if it keeps that of the record. -/
lemma Keeps.modify {id : Uuid} {f : KnowledgeRecord py → KnowledgeRecord py}
    {hf : ∀ r, r.id = id → (f r).id = id}
    (h : ∀ r ∈ s.rows, r.id = id → SameProjection r (f r)) : Keeps s (s.modify id f hf) := by
  intro r' hr'
  obtain ⟨r, hr, rfl⟩ := List.mem_map.mp hr'
  refine .inr ⟨r, hr, ?_⟩
  split_ifs with hid
  · exact ⟨hid.trans (hf r hid).symm, h r hr hid⟩
  · exact ⟨rfl, rfl, rfl⟩

lemma Reads.supersede {id next : Uuid} {now : Instant} (h : Reads s read) :
    Reads (s.modify id (supersede next now) fun _ h => h) read := by
  intro r' hr' hid'
  obtain ⟨r, hr, rfl⟩ := List.mem_map.mp hr'
  split_ifs at hid' ⊢ with hid
  · exact h r hr hid'
  · exact h r hr hid'

end Changes

/-! ### Writes -/

section Writes

variable {env : Environment py} {s : Collection py} {read : KnowledgeRecord py}

/-- Superseding a record changes no projection. -/
lemma supersede_keeps (id next : Uuid) :
    Triple (fun u : CallState py => Keeps s u.points ∧ Reads u.points read)
      (supersedePoint env id next) (fun _ u => Keeps s u.points ∧ Reads u.points read)
      fun _ u => Keeps s u.points := by
  have hmodify (u : CallState py) (now : Instant) (h : Keeps s u.points) :
      Keeps s (u.points.modify id (supersede next now) fun _ h => h) :=
    h.trans (Keeps.modify fun _ _ _ => ⟨rfl, rfl⟩)
  refine Triple.write ?_ ?_ ?_
  · exact fun u hu _ => ⟨hmodify u _ hu.1, hu.2.supersede⟩
  · exact fun u hu _ => hu.1
  · exact fun u hu _ => hmodify u _ hu.1

/-- Activating a record writes back the extensions with which it was read. -/
lemma activate_keeps :
    Triple (fun u : CallState py => Keeps s u.points ∧ Reads u.points read)
      (activateStaged env read) (fun _ u => Keeps s u.points) fun _ u => Keeps s u.points := by
  have hmodify (u : CallState py) (now : Instant) (h : Keeps s u.points ∧ Reads u.points read) :
      Keeps s (u.points.modify read.id (activate (committedExtensions read.extensions) now)
        fun _ h => h) := by
    refine h.1.trans (Keeps.modify fun r hr hid => ?_)
    obtain ⟨hclass, hparts⟩ := h.2 r hr hid
    simp only [projectedParts, Prod.mk.injEq] at hparts
    refine ⟨rfl, ?_⟩
    simp only [projectedParts, activate, committedExtensions, hparts]
  refine Triple.write ?_ ?_ ?_
  · exact fun u hu _ => hmodify u _ hu
  · exact fun u hu _ => hu.1
  · exact fun u hu _ => hmodify u _ hu

end Writes

/-! ### Calls -/

section Calls

variable {env : Environment py} {s : Collection py}

lemma recoverPoint_keeps (partition : Partition) (points : Collection py)
    (point : KnowledgeRecord py) :
    Triple (fun u : CallState py => Keeps s u.points ∧ Reads u.points point)
      (recoverPoint env partition points point) (fun _ u => Keeps s u.points)
      fun _ u => Keeps s u.points := by
  unfold recoverPoint
  refine Triple.ofExcept_bind (fun _ _ => ?_) fun _ _ u hu => hu.1
  refine Triple.ofExcept_bind (fun previous _ => ?_) fun _ _ u hu => hu.1
  refine Triple.ofExcept_bind (fun _ _ => ?_) fun _ _ u hu => hu.1
  refine Triple.bind (fun _ u => Keeps s u.points ∧ Reads u.points point) ?_ fun _ => activate_keeps
  unfold settlePrevious
  refine Triple.ite (fun _ => Triple.ite (fun _ => supersede_keeps _ _) fun _ => ?_) fun _ =>
    Triple.ite (fun _ => Triple.pure fun _ => id) fun _ => ?_
  · exact Triple.raise fun u hu => hu.1
  · exact Triple.raise fun u hu => hu.1

/-- A recovery keeps the projections, however far it comes. -/
lemma recoverPending_keeps (hlawful : env.repository.Lawful) (subject : Subject) :
    Triple (fun u : CallState py => Keeps s u.points) (recoverPending env subject)
      (fun _ u => Keeps s u.points) fun _ u => Keeps s u.points := by
  unfold recoverPending
  refine Triple.reads_bind fun points => ?_
  split
  · exact Triple.pure fun u hu => hu.1
  · rename_i point hpoint
    have hmem : point ∈ points.rows := by
      have hread : point ∈ pendingPoints env subject points := by
        rw [hpoint]
        exact List.mem_singleton_self _
      exact ((hlawful.scroll _ _ _).mem _ (List.mem_of_mem_filter hread)).1
    refine (recoverPoint_keeps _ _ _).pre fun u hu => ⟨hu.1, ?_⟩
    have hpoints : u.points = points := hu.2
    rw [hpoints]
    exact Reads.of_mem hmem
  · exact Triple.raise fun u hu => hu.1

lemma reconcilePending_keeps (hlawful : env.repository.Lawful)
    (bound : Option (CallerAuthority py)) (maxPending : ℤ) :
    Triple (fun u : CallState py => Keeps s u.points) (reconcilePending bound env maxPending)
      (fun _ u => Keeps s u.points) fun _ u => Keeps s u.points := by
  unfold reconcilePending
  refine Triple.ofExcept_bind (fun _ _ => ?_) fun _ _ _ => id
  refine Triple.ofExcept_bind (fun _ _ => ?_) fun _ _ _ => id
  refine Triple.reads_bind fun points => ?_
  refine Triple.ofExcept_bind (fun _ _ => ?_) fun _ _ u hu => hu.1
  refine Triple.ofExcept_bind (fun subjects _ => ?_) fun _ _ u hu => hu.1
  refine (Triple.bind (fun _ u => Keeps s u.points) ?_ fun _ => Triple.pure fun _ => id).pre
    fun u hu => hu.1
  exact Triple.forEach (fun _ _ (u : CallState py) => Keeps s u.points)
    (fun _ subject _ => recoverPending_keeps hlawful subject) subjects

variable {service : Service} {call : StoreCall py} {p : Prepared py}

/-- The record that `store` builds carries its projection. -/
lemma verifies_buildRecord {previous : Option (KnowledgeRecord py)} {base : Extensions py}
    (hbase : baseExtensions p = .ok base) (confidence : Option Confidence) (now : Instant) :
    Verifies (buildRecord service call p previous base confidence now) := by
  intro hclass
  have hknowledge : p.subject.partition.recordClass = .knowledge := hclass
  rw [baseExtensions, if_pos hknowledge] at hbase
  obtain ⟨index, hindex, hbase⟩ := bind_eq_ok.mp hbase
  cases hbase
  have hparts : projectRecord (buildRecord service call p previous
      { p.extensions with relationIndex := some index } confidence now) = .ok index := by
    rw [← hindex]
    cases previous <;> rfl
  refine verifyProjection_eq_ok hparts ?_
  cases previous <;> rfl

/-- The part of `store` that writes a new version keeps the projections. -/
lemma evolve_keeps (previous : Option (KnowledgeRecord py)) :
    Triple (fun u : CallState py => Keeps s u.points) (evolve service call p previous)
      (fun _ u => Keeps s u.points) fun _ u => Keeps s u.points := by
  unfold evolve
  refine Triple.reads_bind fun now => ?_
  refine Triple.ofExcept_bind (fun base hbase => ?_) fun _ _ u hu => hu.1
  refine Triple.ofExcept_bind (fun confidence _ => ?_) fun _ _ u hu => hu.1
  refine Triple.ofExcept_bind (fun _ _ => ?_) fun _ _ u hu => hu.1
  have hrecord : Verifies (buildRecord service call p previous base confidence now) :=
    verifies_buildRecord hbase confidence now
  generalize buildRecord service call p previous base confidence now = record at hrecord
  have hupsert (u : CallState py) (h : Keeps s u.points) : Keeps s (u.points.upsert record) :=
    h.trans (Keeps.upsert _ hrecord)
  refine Triple.bind (fun _ u => Keeps s u.points ∧ Reads u.points record) ?_ fun _ => ?_
  · refine Triple.write ?_ ?_ ?_
    · exact fun u hu _ => ⟨hupsert u hu.1, Reads.upsert _ _⟩
    · exact fun u hu _ => hu.1
    · exact fun u hu _ => hupsert u hu.1
  · cases previous with
    | none => exact Triple.pure fun u hu => hu.1
    | some previous =>
      refine Triple.bind (fun _ u => Keeps s u.points) ?_ fun _ => Triple.pure fun _ => id
      unfold commitStagedEvolution
      refine Triple.ofExcept_bind (fun _ _ => ?_) fun _ _ u hu => hu.1
      exact Triple.bind _ (supersede_keeps _ _) fun _ => activate_keeps

lemma store_keeps (hlawful : call.repository.Lawful) :
    Triple (fun u : CallState py => Keeps s u.points) (store service call)
      (fun _ u => Keeps s u.points) fun _ u => Keeps s u.points := by
  unfold store
  refine Triple.ofExcept_bind (fun p _ => ?_) fun _ _ _ => id
  unfold storeGuarded
  refine Triple.bind (fun _ u => Keeps s u.points) (recoverPending_keeps hlawful _) fun _ => ?_
  refine Triple.ofExcept_bind (fun vector _ => ?_) fun _ _ _ => id
  refine Triple.reads_bind fun points => ?_
  have hdecide (previous : Option (KnowledgeRecord py)) :
      Triple (fun u : CallState py => Keeps s u.points) (decideOutcome service call p previous)
        (fun _ u => Keeps s u.points) fun _ u => Keeps s u.points := by
    unfold decideOutcome
    refine Triple.ofExcept_bind (fun _ _ => ?_) fun _ _ _ => id
    refine Triple.ofExcept_bind (fun _ _ => ?_) fun _ _ _ => id
    refine Triple.ofExcept_bind (fun _ _ => ?_) fun _ _ _ => id
    split
    · exact Triple.ite (fun _ => Triple.pure fun _ => id) fun _ => evolve_keeps _
    · exact evolve_keeps _
  split
  · exact (hdecide _).pre fun u hu => hu.1
  · exact (hdecide _).pre fun u hu => hu.1
  · exact Triple.raise fun u hu => hu.1

lemma Call.keeps {c : Call py} (hlawful : c.repository.Lawful) (s : Collection py) :
    Keeps s (c.run s) := by
  cases c with
  | store service call => exact (store_keeps hlawful).always (Keeps.refl s)
  | reconcile bound env maxPending =>
    exact (reconcilePending_keeps hlawful bound maxPending).always (Keeps.refl s)

end Calls

/-- After any calls of `store` and `reconcile_pending`, each of which may have been aborted at any of
its writes, every Knowledge record carries a projection that verifies on its own payload, unless a
record that did not verify was there under its id from the start. -/
theorem stored_projections_verify (s : Collection py) {calls : List (Call py)}
    (hlawful : ∀ c ∈ calls, c.repository.Lawful) :
    ∀ r ∈ (runAll s calls).rows, r.recordClass = .knowledge →
      verifyProjection r = .ok () ∨ ∃ r₀ ∈ s.rows, r₀.id = r.id ∧ ¬ Verifies r₀ := by
  have hkeeps : Keeps s (runAll s calls) := by
    induction calls generalizing s with
    | nil => exact Keeps.refl s
    | cons c calls ih =>
      have hc := c.keeps (hlawful c List.mem_cons_self) s
      exact hc.trans (ih (c.run s) fun c' hc' => hlawful c' (List.mem_cons_of_mem _ hc'))
  intro r hr hclass
  rcases hkeeps r hr with hverifies | ⟨r₀, hr₀, hid, hsame⟩
  · exact .inl (hverifies hclass)
  · by_cases hverifies : Verifies r₀
    · exact .inl (hsame.verifies hverifies hclass)
    · exact .inr ⟨r₀, hr₀, hid, hverifies⟩

section Sample

/-- A call about Knowledge. The first `applied` of its writes take effect. -/
def indexedCall (content : String) (id applied : ℕ) : StoreCall Runtime.ascii :=
  let call := sampleCall Runtime.ascii 0 content id applied
  { call with args := { call.args with recordClass := .knowledge } }

/-- A first version, a second one whose activation is lost, and its recovery. -/
def crashedEvolution : List (Call Runtime.ascii) :=
  [.store sampleService (indexedCall "a" 1 9), .store sampleService (indexedCall "c" 2 2),
    .reconcile none (indexedCall "c" 3 9).toEnvironment 5]

theorem stored_projections_verify_sample :
    ∃ r ∈ (runAll (Table.empty _) crashedEvolution).rows, r.version = 2 ∧ r.status = .active ∧
      r.recordClass = .knowledge ∧ verifyProjection r = .ok () := by
  have hrow : ((runAll (Table.empty _) crashedEvolution).rows.find? fun r =>
      r.version = 2 ∧ r.status = .active ∧ r.recordClass = .knowledge).isSome := by decide +kernel
  obtain ⟨r, hfound⟩ := Option.isSome_iff_exists.mp hrow
  have hr := List.mem_of_find?_eq_some hfound
  have hfields := List.find?_some hfound
  rw [decide_eq_true_eq] at hfields
  obtain ⟨hversion, hactive, hclass⟩ := hfields
  have hlawful : ∀ c ∈ crashedEvolution, c.repository.Lawful := by
    simp only [crashedEvolution, List.forall_mem_cons, List.not_mem_nil, false_implies,
      implies_true, and_true]
    exact ⟨Repository.stored_lawful, Repository.stored_lawful, Repository.stored_lawful⟩
  rcases stored_projections_verify (Table.empty _) hlawful r hr hclass with hverifies | ⟨r₀, hr₀, -⟩
  · exact ⟨r, hr, hversion, hactive, hclass, hverifies⟩
  · cases hr₀

end Sample

end CyberBrain.Knowledge
