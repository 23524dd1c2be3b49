import CyberBrain.Knowledge.Evolution

/-!
# What storing returns

A call of `store` that returns gives the record of its outcome: the previous version, a first
version, or the next one, as it is after its activation.
-/

namespace CyberBrain.Knowledge

open Program Python Relations Schemas Tenancy

variable {py : Runtime} {service : Service} {call : StoreCall py} {p : Prepared py}
  {previous : Option (KnowledgeRecord py)} {result : EvolutionResult py} {s t : CallState py}

/-- What a call returns after its lookups found `previous`. -/
inductive Returned (service : Service) (call : StoreCall py) (p : Prepared py) :
    Option (KnowledgeRecord py) → EvolutionResult py → Prop
  | noChange (q : KnowledgeRecord py) (hcontent : sameContent p (some q) = true)
      (hrelations : relationsChanged call p (some q) = false) :
      Returned service call p (some q)
        { outcome := .noChange, record := q, previousId := some q.id }
  | insertNew (base : Extensions py) (confidence : Option Confidence) (now : Instant)
      (hbase : baseExtensions p = .ok base)
      (hconfidence : checkConfidence call.args.confidence = .ok confidence) :
      Returned service call p none
        { outcome := .insertNew, record := buildRecord service call p none base confidence now }
  | evolve (q : KnowledgeRecord py) (base : Extensions py) (confidence : Option Confidence)
      (now : Instant) (hbase : baseExtensions p = .ok base)
      (hconfidence : checkConfidence call.args.confidence = .ok confidence) :
      Returned service call p (some q)
        { outcome := .evolve
          record := { buildRecord service call p (some q) base confidence now with
            status := .active, extensions := committedExtensions base }
          previousId := some q.id }

/-- What a call knows of the version that its lookups found. -/
structure Found (call : StoreCall py) (p : Prepared py) (previous : Option (KnowledgeRecord py)) :
    Prop where
  expected : ∀ id ∈ call.args.expectedPreviousId, previous.map (·.id) = some id
  context : ∀ q ∈ previous, sameContext q p.subject.context = true
  partition : ∀ q ∈ previous, samePartition q p.subject.partition = true

lemma evolve_returned (h : evolve service call p previous s = (.ok result, t)) :
    Returned service call p previous result := by
  obtain ⟨now, _, -, h⟩ := Program.bind_eq_ok h
  obtain ⟨base, hbase, h⟩ := ofExcept_bind_eq_ok h
  obtain ⟨confidence, hconfidence, h⟩ := ofExcept_bind_eq_ok h
  obtain ⟨_, -, h⟩ := ofExcept_bind_eq_ok h
  obtain ⟨_, _, -, h⟩ := Program.bind_eq_ok h
  cases previous with
  | none =>
    cases h
    exact .insertNew base confidence now hbase hconfidence
  | some q =>
    obtain ⟨_, _, -, h⟩ := Program.bind_eq_ok h
    cases h
    exact .evolve q base confidence now hbase hconfidence

lemma decideOutcome_returned (h : decideOutcome service call p previous s = (.ok result, t)) :
    (∀ id ∈ call.args.expectedPreviousId, previous.map (·.id) = some id) ∧
      Returned service call p previous result := by
  obtain ⟨_, hexpected, h⟩ := ofExcept_bind_eq_ok h
  obtain ⟨_, -, h⟩ := ofExcept_bind_eq_ok h
  obtain ⟨_, -, h⟩ := ofExcept_bind_eq_ok h
  refine ⟨require_eq_ok.mp hexpected, ?_⟩
  cases previous with
  | none => exact evolve_returned h
  | some q =>
    simp only at h
    split_ifs at h with hsame
    · cases h
      exact .noChange q hsame.1 hsame.2.1
    · exact evolve_returned h

/-- A call that returns has prepared its arguments, found a version or none, and returns what it
decided. -/
theorem store_returned (h : store service call s = (.ok result, t)) :
    ∃ p previous, prepare service call = .ok p ∧ Found call p previous ∧
      Returned service call p previous result := by
  obtain ⟨p, hprepare, h⟩ := ofExcept_bind_eq_ok h
  obtain ⟨_, _, -, h⟩ := Program.bind_eq_ok h
  obtain ⟨vector, -, h⟩ := ofExcept_bind_eq_ok h
  obtain ⟨points, u, -, h⟩ := Program.bind_eq_ok h
  have hmatches : ∀ q ∈ activePoints call p vector points,
      sameContext q p.subject.context = true ∧ samePartition q p.subject.partition = true := by
    intro q hq
    simpa using (List.mem_filter.mp hq).2
  cases hactive : activePoints call p vector points with
  | nil =>
    rw [hactive] at h
    obtain ⟨hexpected, hreturned⟩ := decideOutcome_returned h
    exact ⟨p, none, hprepare, ⟨hexpected, by simp, by simp⟩, hreturned⟩
  | cons q rest =>
    obtain ⟨hcontext, hpartition⟩ := hmatches q (hactive ▸ List.mem_cons_self)
    rw [hactive] at h
    cases rest with
    | nil =>
      obtain ⟨hexpected, hreturned⟩ := decideOutcome_returned h
      refine ⟨p, some q, hprepare, ⟨hexpected, fun r hr => ?_, fun r hr => ?_⟩, hreturned⟩
      · exact Option.mem_some_iff.mp hr ▸ hcontext
      · exact Option.mem_some_iff.mp hr ▸ hpartition
    | cons r rest => cases h

end CyberBrain.Knowledge
