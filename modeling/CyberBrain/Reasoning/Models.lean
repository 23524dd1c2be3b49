import CyberBrain.Foundation.Double
import CyberBrain.Relations.Models

/-!
# Reasoning contracts

Contradictions between relations, assertions that are derived from them, and the outcome of a
hypothetical evaluation. A derived assertion is a proposed relation with its premises.
-/

namespace CyberBrain.Reasoning

open Python Relations

variable {py : Runtime}

inductive ConflictType
  | directContradiction
  | polarityMismatch
  | causalCycle
  deriving DecidableEq, Repr

def ConflictType.text : ConflictType → String
  | directContradiction => "direct_contradiction"
  | polarityMismatch    => "polarity_mismatch"
  | causalCycle         => "causal_cycle"

variable (py) in
structure ContradictionConflict where
  conflictType : ConflictType
  sourceEdge : RelationEdge py
  conflictingEdge : RelationEdge py
  rationale : String

inductive Rule
  | symmetricContradiction
  | transitiveDependency
  deriving DecidableEq, Repr

def Rule.text : Rule → String
  | symmetricContradiction => "symmetric_contradiction"
  | transitiveDependency   => "transitive_dependency"

variable (py) in
/-- `DerivedAssertion`. -/
structure DerivedAssertion where
  edge : RelationEdge py
  rule : Rule
  premises : List String
  confidence : Double
  isCounterfactual : Bool := false
  metadata : List (String × Json) := []

variable (py) in
structure CounterfactualSandboxResult where
  hypotheticalEdgesCount : ℕ
  baseEdgesCount : ℕ
  contradictions : List (ContradictionConflict py)
  derivedInferences : List (DerivedAssertion py)
  isConsistent : Bool
  summary : String
  isIncomplete : Bool := false

/-! ### Proposed edges -/

variable (py) in
/-- What a derivation passes to `RelationEdge`. Its entities were validated before. -/
structure Proposal where
  kind : RelationKind
  source : EntityRef py
  target : EntityRef py
  targetRecordId : Uuid
  evidence : List EvidenceRef
  validFrom : Instant
  validUntil : Option Instant
  reviewNote : String

namespace Proposal

/-- The validation of a proposed `RelationEdge`. -/
def make (p : Proposal py) : Except Exc (RelationEdge py) := do
  require (p.evidence ≠ [] ∧ p.evidence.length ≤ 32)
    (.valueError "relation evidence must hold between 1 and 32 references")
  require (p.reviewNote ≠ "" ∧ p.reviewNote.length ≤ 1000)
    (.valueError "review note must hold between 1 and 1000 characters")
  if hself : p.source.key = p.target.key then
    .error (.valueError "self relations are not admitted")
  else if hscope : p.source.scope ≠ p.target.scope then
    .error (.valueError "cross-partition relations are not admitted")
  else if htime : ∃ t ∈ p.validUntil, ¬ p.validFrom < t then
    .error (.valueError "valid_until must follow valid_from")
  else
    .ok {
      kind := p.kind
      source := p.source
      target := p.target
      targetRecordId := p.targetRecordId
      evidence := FrozenSet.ofList p.evidence
      status := .proposed
      validFrom := p.validFrom
      validUntil := p.validUntil
      reviewNote := some p.reviewNote
      not_self := hself
      same_partition := not_not.mp hscope
      follows := fun t ht => by_contra fun hlt => htime ⟨t, ht, hlt⟩
      reviewed_note := fun hstatus => absurd rfl hstatus }

/-- The proposal as it is passed in. -/
def input (p : Proposal py) (source target : EntityInput) : EdgeInput where
  kind := p.kind
  source
  target
  targetRecordId := p.targetRecordId
  evidence := p.evidence
  validFrom := p.validFrom
  validUntil := p.validUntil
  reviewNote := some p.reviewNote

/-- A proposal is validated as the edge between its entities. -/
lemma make_eq {p : Proposal py} {source target : EntityInput}
    (hsource : EntityRef.make py source.toEntityLabels source.context source.scope = .ok p.source)
    (htarget : EntityRef.make py target.toEntityLabels target.context target.scope = .ok p.target) :
    RelationEdge.make py (p.input source target) = p.make := by
  simp only [RelationEdge.make, input, hsource, htarget, make, Bind.bind, Except.bind, ne_eq,
    Option.mem_def, not_true_eq_false, Option.some.injEq, forall_eq', false_and, dite_false,
    reduceCtorEq, exists_const, if_false, dite_not]
  rfl

end Proposal

end CyberBrain.Reasoning
