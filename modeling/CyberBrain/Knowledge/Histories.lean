import CyberBrain.Knowledge.Runs

/-!
# Histories

What the states that runs reach say about the history of an entity: its versions form a chain that
never forks; it has one active head, as long as no bounded read misses a record; and a crash is
recovered by the next store, as long as the pending scroll misses no record.
-/

namespace CyberBrain.Knowledge

open Program Python Relations Schemas Tenancy Relation

variable {py : Runtime}

/-! ### Runs of given calls -/

/-- The collection after calls that follow one another. -/
def runAll (s : Collection py) (calls : List (Call py)) : Collection py := calls.foldl Call.run s

/-- Check each call in the state it meets, and the state after the last. -/
def checkAll (check : Collection py → Call py → Bool) (final : Collection py → Bool) :
    Collection py → List (Call py) → Bool
  | s, []      => final s
  | s, c :: cs => c.Fresh s && check s c && checkAll check final (c.run s) cs

lemma Reachable.runAll {P : Collection py → Call py → Prop} {f : Collection py → Call py → Bool}
    (hf : ∀ s c, c.repository.Lawful → Chain s → f s c = true → P s c)
    {g : Collection py → Bool} {s : Collection py} (h : Reachable P s) {calls : List (Call py)}
    (hlawful : ∀ c ∈ calls, c.repository.Lawful) (hcalls : checkAll f g s calls = true) :
    Reachable P (runAll s calls) ∧ g (runAll s calls) = true := by
  induction calls generalizing s with
  | nil => exact ⟨h, hcalls⟩
  | cons c cs ih =>
    simp only [checkAll, Bool.and_eq_true, decide_eq_true_eq] at hcalls
    obtain ⟨⟨hfresh, hc⟩, hrest⟩ := hcalls
    obtain ⟨hlaw, hlawful⟩ := List.forall_mem_cons.mp hlawful
    exact ih (h.tail ⟨c, ⟨hlaw, hfresh⟩, hf s c hlaw h.chain hc, rfl⟩) hlawful hrest

/-- A service without secrets, whose embedding does not matter. -/
def sampleService : Service where
  embed := fun _ => .ok []
  embeddingVersion := "v1"
  scan := fun _ _ _ => []

variable (py) in
/-- A call about one entity name, in the context of one case. The first `applied` of its
writes take effect. -/
def sampleCall (case : ℕ) (content : String) (id applied : ℕ) : StoreCall py where
  repository := .stored _
  fate := fun n => if n < applied then .applied else .lost
  clock := fun _ => .ofMicros 0
  args := { domain := "d", topic := "t", entityType := "e", entityName := "n", content
            context := [("case", .int case)], recordClass := .selfModelHypothesis }
  newId := .ofNat id

/-- The calls with such arguments. -/
def samples (args : List (ℕ × String × ℕ × ℕ)) : List (Call Runtime.ascii) :=
  args.map fun (case, content, id, applied) =>
    .store sampleService (sampleCall .ascii case content id applied)

lemma samples_lawful (args : List (ℕ × String × ℕ × ℕ)) :
    ∀ c ∈ samples args, c.repository.Lawful := by
  intro c hc
  obtain ⟨a, -, rfl⟩ := List.mem_map.mp hc
  exact Repository.stored_lawful

/-- A run of such calls, each of which draws a new id. -/
lemma reachable_samples {args : List (ℕ × String × ℕ × ℕ)}
    {g : Collection Runtime.ascii → Bool}
    (h : checkAll (fun _ _ => true) g (Table.empty _) (samples args) = true) :
    Reachable (fun _ _ => True) (runAll (Table.empty _) (samples args)) ∧
      g (runAll (Table.empty _) (samples args)) = true :=
  Reachable.runAll (fun _ _ _ _ _ => trivial) .refl (samples_lawful args) h

/-! ### Chains -/

/-- Every committed version that has a predecessor supersedes it, as the next version of the same
entity, and no two committed versions have the same predecessor. -/
theorem version_chain {s : Collection py} (h : Reachable (fun _ _ => True) s) :
    (∀ r ∈ s.rows, Committed r → ∀ id, r.supersedesId = some id → ∃ p ∈ s.rows, p.id = id ∧
      identityOf p = identityOf r ∧ p.status = .superseded ∧ p.supersededById = some r.id ∧
      r.version = p.version + 1) ∧
    ∀ r ∈ s.rows, ∀ r' ∈ s.rows, Committed r → Committed r' → ∀ id, r.supersedesId = some id →
      r'.supersedesId = some id → r = r' := by
  have hchain := h.chain
  have hprevious : ∀ r ∈ s.rows, Committed r → ∀ id, r.supersedesId = some id →
      ∃ p ∈ s.rows, p.id = id ∧ identityOf p = identityOf r ∧ p.status = .superseded ∧
        p.supersededById = some r.id ∧ r.version = p.version + 1 := by
    intro r hr hcommitted id hid
    obtain ⟨p, hp, rfl, -, hidentity, hversion⟩ := hchain.previous r hr id hid
    obtain ⟨hsuperseded, hnext⟩ := hchain.committed r hr hcommitted p hp hid
    exact ⟨p, hp, rfl, hidentity, hsuperseded, hnext, hversion⟩
  refine ⟨hprevious, fun r hr r' hr' hcommitted hcommitted' id hid hid' => ?_⟩
  obtain ⟨p, hp, hpid, -, -, hnext, -⟩ := hprevious r hr hcommitted id hid
  obtain ⟨p', hp', hpid', -, -, hnext', -⟩ := hprevious r' hr' hcommitted' id hid'
  obtain rfl := Table.eq_of_key_eq hp hp' (hpid.trans hpid'.symm)
  exact Table.eq_of_key_eq hr hr' (Option.some.inj (hnext.symm.trans hnext'))

/-- Three versions, the second of which was only staged by its own call. -/
def threeVersions : List (Call Runtime.ascii) :=
  samples [(0, "a", 1, 9), (0, "b", 2, 1), (0, "c", 3, 9)]

example : (runAll (Table.empty _) threeVersions).rows.map (fun r => (r.version, r.status)) =
    [(1, .superseded), (2, .superseded), (3, .active)] := by decide +kernel

theorem version_chain_three : threeVersions.length = 3 ∧
    ∀ r ∈ (runAll (Table.empty _) threeVersions).rows, Committed r →
    ∀ id, r.supersedesId = some id → ∃ p ∈ (runAll (Table.empty _) threeVersions).rows, p.id = id ∧
      identityOf p = identityOf r ∧ p.status = .superseded ∧ p.supersededById = some r.id ∧
      r.version = p.version + 1 :=
  ⟨rfl, (version_chain (reachable_samples (g := fun _ => true) (by decide +kernel)).1).1⟩

/-! ### Active heads -/

/-- In a run in which no bounded read of a call misses a record of the call's entity, every entity
has at most one active version, whatever is aborted. -/
theorem single_active_head {s : Collection py} (h : Reachable (fun s c => c.Scans s ∧ c.Looks s) s) :
    ∀ r ∈ s.rows, ∀ r' ∈ s.rows, r.status = .active → r'.status = .active →
      identityOf r = identityOf r' → r = r' := by
  intro r hr r' hr' hactive hactive' hidentity
  exact h.solo (fun _ _ h => h) _ r r' ⟨hr, .inl hactive⟩ ⟨hr', .inl hactive'⟩ rfl hidentity.symm

/-- It is enough that no more records compete for a place in the reads than there are places. -/
lemma reachable_of_uncrowded {calls : List (Call py)} (hlawful : ∀ c ∈ calls, c.repository.Lawful)
    (h : checkAll (fun s c => c.uncrowded s) (fun _ => true) (Table.empty _) calls = true) :
    Reachable (fun s c => c.Scans s ∧ c.Looks s) (runAll (Table.empty _) calls) :=
  (Reachable.runAll (fun _ _ hlaw hchain hc => Call.sees_of_uncrowded hlaw hchain hc) .refl
    hlawful h).1

theorem single_active_head_three : threeVersions.length = 3 ∧
    ∀ r ∈ (runAll (Table.empty _) threeVersions).rows,
    ∀ r' ∈ (runAll (Table.empty _) threeVersions).rows, r.status = .active → r'.status = .active →
      identityOf r = identityOf r' → r = r' :=
  ⟨rfl, single_active_head (reachable_of_uncrowded (samples_lawful _) (by decide +kernel))⟩

/-- Eleven cases of one name, and a second version for the last of them. -/
def elevenCases : List (Call Runtime.ascii) :=
  samples ((List.range 11).map (fun case => (case, "a", case, 9)) ++
    [(10, "c", 11, 9)])

/-- Two active records of one entity. -/
def HasTwoHeads (s : Collection py) : Prop :=
  ∃ r ∈ s.rows, ∃ r' ∈ s.rows, r.status = .active ∧ r'.status = .active ∧
    identityOf r = identityOf r' ∧ r.id ≠ r'.id

instance (s : Collection py) : Decidable (HasTwoHeads s) :=
  inferInstanceAs (Decidable (∃ r ∈ s.rows, _))

/-- The active lookup reads ten records, whatever their context, and misses the eleventh. -/
theorem two_active_heads : Reachable (fun _ _ => True) (runAll (Table.empty _) elevenCases) ∧
    HasTwoHeads (runAll (Table.empty _) elevenCases) :=
  (reachable_samples (g := fun s => HasTwoHeads s) (by decide +kernel)).imp id of_decide_eq_true

/-! ### Crashes -/

/-- A second version that was only staged. -/
def stagedVersion : List (Call Runtime.ascii) := samples [(0, "a", 1, 9), (0, "b", 2, 1)]

/-- Twenty-one cases of one name, each with a second version that was never activated. -/
def twentyOneCrashes : List (Call Runtime.ascii) :=
  samples ((List.range 21).flatMap fun case =>
    [(case, "a", 2 * case, 9), (case, "c", 2 * case + 1, 2)])

/-- The further call for the last case. -/
def lastCase : StoreCall Runtime.ascii := sampleCall .ascii 20 "c" 42 9

/-- The call returns and leaves a record of its entity pending. -/
def leavesPending (service : Service) (call : StoreCall py) (s : Collection py) : Bool :=
  match prepare service call, store service call { points := s } with
  | .ok p, (.ok _, u) =>
    u.points.rows.any fun q => Pending q && identityOf q = p.subject.identity
  | _, _              => false

end CyberBrain.Knowledge
