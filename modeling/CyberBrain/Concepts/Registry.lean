import CyberBrain.Concepts.Discovery

/-!
# The shadow registry

What is observed of candidates between two discoveries, without storing them. A set of candidates
with a repeated id is refused.
-/

namespace CyberBrain.Concepts

structure ConceptRegistryReport where
  candidateCount : ℕ
  addedCount : ℕ
  removedCount : ℕ
  stableCount : ℕ
  changedCount : ℕ
  candidateIds : List String

/-- `ConceptShadowRegistry`: the scope and the support fingerprint that were seen for an id. -/
structure ConceptShadowRegistry where
  previous : List (String × String × String) := []

namespace ConceptShadowRegistry

/-- What is kept of a candidate. -/
def entry (c : ConceptCandidate) : String × String × String :=
  (c.candidateConceptId, c.scopeMarker, c.supportFingerprint)

/-- `observe`. -/
def observe (registry : ConceptShadowRegistry) (rows : List ConceptCandidate) :
    Except Exc (ConceptRegistryReport × ConceptShadowRegistry) := do
  let ids := rows.map (·.candidateConceptId)
  require ids.Nodup (.valueError "concept registry candidate IDs must be unique")
  let current := rows.map entry
  let previousIds := registry.previous.map (·.1)
  let added := ids.filter (· ∉ previousIds)
  let removed := previousIds.filter (· ∉ ids)
  let kept := ids.filter (· ∈ previousIds)
  let stable := kept.filter fun id => current.lookup id = registry.previous.lookup id
  let changed := kept.filter (· ∉ stable)
  pure
    (⟨rows.length, added.length, removed.length, stable.length, changed.length,
      ids.insertionSort (· ≤ ·)⟩, ⟨current⟩)

/-- Candidates are observed exactly if their ids are different. -/
lemma exists_observe_iff {registry : ConceptShadowRegistry} {rows : List ConceptCandidate} :
    (∃ r, registry.observe rows = .ok r) ↔ (rows.map (·.candidateConceptId)).Nodup := by
  constructor
  · rintro ⟨r, h⟩
    obtain ⟨⟨⟩, hrequire, -⟩ := bind_eq_ok.mp h
    exact require_eq_ok.mp hrequire
  · intro h
    exact ⟨_, bind_eq_ok.mpr ⟨⟨⟩, require_eq_ok.mpr h, rfl⟩⟩

end ConceptShadowRegistry

end CyberBrain.Concepts
