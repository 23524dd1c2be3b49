import CyberBrain.Reasoning.Models
import Mathlib.Logic.Function.Basic

/-!
# The reasoning engine

Contradictions between candidate and existing relations, typed inference over them, and a sandbox
that uses both. Scans and derivations count their comparisons and stop when a budget is exceeded.
-/

namespace CyberBrain.Reasoning

open Python Relations

/-- `BoundedReasoningEngine`. -/
structure BoundedReasoningEngine where
  maxInferences : ℤ := 100
  maxComparisons : ℤ := 10000

variable {py : Runtime}

/-- `_endpoint_key`. -/
def endpointKey (src tgt : EntityRef py) : String := src.key ++ "->" ++ tgt.key

/-- `_entity_key`. -/
def entityKey (entity : EntityRef py) : String := entity.key

/-! ### Contradictions -/

/-- The end of two validities. -/
def earliestEnd : Option Instant → Option Instant → Option Instant
  | none, t        => t
  | some s, none   => some s
  | some s, some t => some (if t < s then t else s)

/-- The later of two instants. -/
def latest (s t : Instant) : Instant := if s < t then t else s

namespace RelationPair

variable (cand exist : RelationEdge py)

/-- The validities of two edges overlap. -/
def overlap : Bool :=
  (earliestEnd cand.validUntil exist.validUntil).all fun e => latest cand.validFrom exist.validFrom < e

/-- The edges are about the same endpoints, in either direction. -/
def sameEndpoints : Bool :=
  endpointKey cand.source cand.target = endpointKey exist.source exist.target ∨
    endpointKey cand.source cand.target = endpointKey exist.target exist.source

/-- One edge is of a kind and the other contradicts. -/
def against (kind : RelationKind) : Bool :=
  (cand.kind = kind ∧ exist.kind = .contradicts) ∨ (cand.kind = .contradicts ∧ exist.kind = kind)

/-- The conflict of an edge with an existing one. -/
def conflict (conflictType : ConflictType) : ContradictionConflict py where
  conflictType
  sourceEdge := cand
  conflictingEdge := exist
  rationale :=
    let source := cand.source.entityName
    let target := cand.target.entityName
    match conflictType with
    | .polarityMismatch    =>
      "Polarity mismatch: '" ++ source ++ "' " ++ cand.kind.text ++ " '" ++ target ++
        "' contradicts " ++ exist.kind.text ++ "."
    | .directContradiction =>
      "Direct structural contradiction between part_of and contradicts for '" ++ source ++ "' and '" ++
        target ++ "'."
    | .causalCycle         =>
      "Direct causal cycle: '" ++ source ++ "' causes '" ++ target ++
        "' while target causes source."

/-- The checks that two edges fail. -/
def failedChecks : List ConflictType :=
  (if sameEndpoints cand exist ∧ against cand exist .supports then [.polarityMismatch] else []) ++
    (if sameEndpoints cand exist ∧ against cand exist .partOf then [.directContradiction] else []) ++
    (if cand.kind = .causes ∧ exist.kind = .causes ∧
        endpointKey cand.source cand.target = endpointKey exist.target exist.source
      then [.causalCycle] else [])

/-- The conflicts that the loop finds between a candidate that was not rejected and an edge. -/
def conflicts : List (ContradictionConflict py) :=
  if exist.status = .rejected ∨ overlap cand exist = false then []
  else if cand.relationId ≠ "" ∧ cand.relationId = exist.relationId then []
  else (failedChecks cand exist).map (conflict cand exist)

end RelationPair

namespace BoundedReasoningEngine

variable (engine : BoundedReasoningEngine)

/-- The inner loop of `_detect_contradictions_bounded` after a number of comparisons: the conflicts,
the comparisons, and whether the budget was exceeded. -/
def compareWith (cand : RelationEdge py) (comparisons : ℕ) :
    List (RelationEdge py) → List (ContradictionConflict py) × ℕ × Bool
  | []             => ([], comparisons, false)
  | exist :: edges =>
    if engine.maxComparisons < comparisons + 1 then ([], comparisons + 1, true)
    else
      let (conflicts, comparisons, exceeded) := compareWith cand (comparisons + 1) edges
      (RelationPair.conflicts cand exist ++ conflicts, comparisons, exceeded)

/-- The outer loop. -/
def compareAll (existing : List (RelationEdge py)) (comparisons : ℕ) :
    List (RelationEdge py) → List (ContradictionConflict py) × Bool
  | []                 => ([], false)
  | cand :: candidates =>
    if cand.status = .rejected then compareAll existing comparisons candidates
    else
      match engine.compareWith cand comparisons existing with
      | (conflicts, _, true)            => (conflicts, true)
      | (conflicts, comparisons, false) =>
        let (others, exceeded) := compareAll existing comparisons candidates
        (conflicts ++ others, exceeded)

/-- `_detect_contradictions_bounded`. -/
def detectContradictionsBounded (candidateEdges existingEdges : List (RelationEdge py)) :
    List (ContradictionConflict py) × Bool :=
  engine.compareAll existingEdges 0 candidateEdges

/-! ### Inference -/

variable (py) in
/-- What a derivation has found. -/
structure Derivation where
  derived : List (DerivedAssertion py) := []
  seenDerivedKeys : List String := []
  comparisons : ℕ := 0
  budgetExceeded : Bool := false

/-- The budgets, after the next comparison. -/
def spent (d : Derivation py) : Bool :=
  engine.maxInferences ≤ d.derived.length ∨ engine.maxComparisons < d.comparisons + 1

/-- The edges that were not rejected. -/
def eligible (edges : List (RelationEdge py)) : List (RelationEdge py) :=
  edges.filter (·.status ≠ .rejected)

/-- `known_record_ids`. -/
def knownRecordIds (sourceRecordIds : String → Option Uuid) (edges : List (RelationEdge py)) :
    String → Option Uuid :=
  edges.foldl (fun known e => Function.update known e.target.key (some e.targetRecordId))
    sourceRecordIds

/-- The id of an edge, or another name where it has none. -/
def premiseId (edge : RelationEdge py) (other : String) : String :=
  if edge.relationId = "" then other else edge.relationId

/-- The reversed edge of a contradiction. -/
def reversed (edge : RelationEdge py) (anchor : Uuid) : Proposal py where
  kind := .contradicts
  source := edge.target
  target := edge.source
  targetRecordId := anchor
  evidence := edge.evidence.sorted
  validFrom := edge.validFrom
  validUntil := edge.validUntil
  reviewNote := "Derived symmetric contradiction from premise edge " ++ premiseId edge "hypothetical"

/-- The key of a reversed edge. -/
def reversedKey (edge : RelationEdge py) : String :=
  "contradicts:" ++ endpointKey edge.target edge.source

/-- The body of the loop of rule 1, on an edge within the budgets. -/
def reverse (known : String → Option Uuid) (d : Derivation py) (edge : RelationEdge py) :
    Except Exc (Derivation py) :=
  if edge.kind = .contradicts then
    match known edge.source.key with
    | none        => .ok d
    | some anchor =>
      if reversedKey edge ∈ d.seenDerivedKeys then .ok d
      else do
        let derivedEdge ← (reversed edge anchor).make
        pure
          { d with
            seenDerivedKeys := reversedKey edge :: d.seenDerivedKeys
            derived := d.derived ++
              [{ edge := derivedEdge
                 rule := .symmetricContradiction
                 premises := [premiseId edge "hypothetical"]
                 confidence := .literal 0.85 }] }
  else .ok d

/-- Rule 1. -/
def reverseAll (known : String → Option Uuid) (d : Derivation py) :
    List (RelationEdge py) → Except Exc (Derivation py)
  | []            => .ok d
  | edge :: edges =>
    if engine.spent d then
      .ok { d with comparisons := d.comparisons + 1, budgetExceeded := true }
    else do
      let d ← reverse known { d with comparisons := d.comparisons + 1 } edge
      reverseAll known d edges

/-! ### Dependency paths -/

variable (py) in
/-- Edges one after the other. -/
structure Path where
  edges : List (RelationEdge py)
  ne_nil : edges ≠ []

namespace Path

def single (edge : RelationEdge py) : Path py := ⟨[edge], List.cons_ne_nil _ _⟩

def first (path : Path py) : RelationEdge py := path.edges.head path.ne_nil

def last (path : Path py) : RelationEdge py := path.edges.getLast path.ne_nil

def add (path : Path py) (edge : RelationEdge py) : Path py :=
  ⟨path.edges ++ [edge], List.append_ne_nil_of_left_ne_nil path.ne_nil _⟩

/-- The entities of a path. -/
def visited (path : Path py) : List String :=
  entityKey path.first.source :: path.edges.map (entityKey ·.target)

def validFrom (path : Path py) : Instant :=
  path.edges.tail.foldl (fun from_ edge => latest from_ edge.validFrom) path.first.validFrom

def validUntil (path : Path py) : Option Instant :=
  path.edges.foldl (fun until_ edge => earliestEnd until_ edge.validUntil) none

/-- The distinct evidence of a path. -/
def evidence (path : Path py) : FrozenSet EvidenceRef :=
  FrozenSet.ofList (path.edges.flatMap (·.evidence.sorted))

/-- The validity of a path is empty. -/
def expired (path : Path py) : Bool := ∃ t ∈ path.validUntil, ¬ path.validFrom < t

/-- The ids of the premises. -/
def premiseIds (path : Path py) : List String :=
  path.edges.mapIdx fun index edge => premiseId edge ("premise_" ++ toString index)

end Path

/-- `str` of a datetime in UTC. -/
def instantText (t : Instant) : String :=
  String.ofList (t.iso.toList.map fun c => if c = 'T' then ' ' else c)

/-- The text of a tuple of the kind and the id of a reference. -/
def referenceText (r : EvidenceRef) : String :=
  "('" ++ r.recordType.text ++ "', '" ++ r.id.text ++ "')"

/-- `", ".join`. -/
def joined : List String → String
  | []              => ""
  | [text]          => text
  | text :: t :: ts => text ++ ", " ++ joined (t :: ts)

/-- The text of a list of texts. -/
def listText (texts : List String) : String := "[" ++ joined texts ++ "]"

/-- The key of a path. -/
def transitiveKey (path : Path py) : String :=
  "depends_on:" ++ endpointKey path.first.source path.last.target ++ ":" ++ path.validFrom.iso ++ ":" ++
    path.validUntil.elim "None" instantText ++ ":" ++
    listText (path.evidence.sorted.map referenceText)

/-- The text of a tuple of ids. -/
def tupleText (ids : List String) : String :=
  "(" ++ joined (ids.map fun id => "'" ++ id ++ "'") ++ ")"

/-- The dependency of a path. -/
def composed (path : Path py) : Proposal py where
  kind := .dependsOn
  source := path.first.source
  target := path.last.target
  targetRecordId := path.last.targetRecordId
  evidence := path.evidence.sorted
  validFrom := path.validFrom
  validUntil := path.validUntil
  reviewNote := "Derived dependency from original premises " ++ tupleText path.premiseIds

variable (py) in
/-- A derivation with the paths of the next depth. -/
structure Extension extends Derivation py where
  nextFrontier : List (Path py) := []

/-- The body of the inner loop of rule 2, on an edge within the budgets. -/
def follow (depth : ℕ) (path : Path py) (x : Extension py) (next : RelationEdge py) :
    Except Exc (Extension py) :=
  let premises := path.add next
  if entityKey next.target ∈ path.visited ∨ premises.expired then .ok x
  else if 32 < premises.evidence.sorted.length then .ok { x with budgetExceeded := true }
  else
    let x := { x with nextFrontier := x.nextFrontier ++ [premises] }
    if transitiveKey premises ∈ x.seenDerivedKeys then .ok x
    else do
      let derivedEdge ← (composed premises).make
      pure
        { x with
          seenDerivedKeys := transitiveKey premises :: x.seenDerivedKeys
          derived := x.derived ++
            [{ edge := derivedEdge
               rule := .transitiveDependency
               premises := premises.premiseIds
               confidence := .literal 0.75
               metadata := [("depth", .int depth)] }] }

/-- The inner loop of rule 2, over the edges that start where a path ends. -/
def followAll (depth : ℕ) (path : Path py) (x : Extension py) :
    List (RelationEdge py) → Except Exc (Extension py)
  | []            => .ok x
  | next :: edges =>
    if engine.spent x.toDerivation then
      .ok { x with comparisons := x.comparisons + 1, budgetExceeded := true }
    else do
      let x ← follow depth path { x with comparisons := x.comparisons + 1 } next
      if x.budgetExceeded then .ok x else followAll depth path x edges

/-- The loop over the paths of one depth. -/
def extendAll (depends : List (RelationEdge py)) (depth : ℕ) (x : Extension py) :
    List (Path py) → Except Exc (Extension py)
  | []            => .ok x
  | path :: paths => do
    let x ← engine.followAll depth path x
      (depends.filter fun e => entityKey e.source = entityKey path.last.target)
    if x.budgetExceeded then .ok x else extendAll depends depth x paths

/-- The loop over a number of depths. -/
def deepen (depends : List (RelationEdge py)) (d : Derivation py) (depth : ℕ)
    (frontier : List (Path py)) : ℕ → Except Exc (Derivation py)
  | 0      => .ok d
  | n + 1  => do
    let x ← engine.extendAll depends depth { d with } frontier
    if x.budgetExceeded ∨ x.nextFrontier = [] then .ok x.toDerivation
    else deepen depends x.toDerivation (depth + 1) x.nextFrontier n

/-- `_derive_inferences_bounded`. -/
def deriveInferencesBounded (edges : List (RelationEdge py)) (maxDepth : ℤ := 2)
    (sourceRecordIds : String → Option Uuid := fun _ => none) :
    Except Exc (List (DerivedAssertion py) × Bool) :=
  if ¬ (0 ≤ maxDepth ∧ maxDepth ≤ 5) then
    .error (.valueError "max_depth must be between 0 and 5")
  else if maxDepth = 0 then .ok ([], false)
  else do
    let premises := eligible edges
    let d ← engine.reverseAll (knownRecordIds sourceRecordIds premises) {} premises
    if maxDepth < 2 ∨ d.budgetExceeded then pure (d.derived, d.budgetExceeded)
    else
      let depends := premises.filter (·.kind = .dependsOn)
      let d ← engine.deepen depends d 2 (depends.map Path.single) (maxDepth - 1).toNat
      pure (d.derived, d.budgetExceeded)

/-! ### The sandbox -/

/-- The pair of ids that a conflict is known by. -/
def conflictKey (c : ContradictionConflict py) : ConflictType × String × String :=
  (c.conflictType, c.sourceEdge.relationId, c.conflictingEdge.relationId)

def reversedConflictKey (c : ContradictionConflict py) : ConflictType × String × String :=
  (c.conflictType, c.conflictingEdge.relationId, c.sourceEdge.relationId)

/-- The loop that adds the conflicts within the hypothetical edges that are not known yet. -/
def addInternal (seen : List (ConflictType × String × String)) :
    List (ContradictionConflict py) → List (ContradictionConflict py)
  | []      => []
  | c :: cs =>
    if conflictKey c ∉ seen ∧ reversedConflictKey c ∉ seen then
      c :: addInternal (conflictKey c :: seen) cs
    else addInternal seen cs

def pythonBool (b : Bool) : String := if b then "True" else "False"

/-- `evaluate_counterfactual`. -/
def evaluateCounterfactual (hypotheticalEdges baseEdges : List (RelationEdge py)) :
    Except Exc (CounterfactualSandboxResult py) := do
  let (baseConflicts, baseBudgetHit) :=
    engine.detectContradictionsBounded hypotheticalEdges baseEdges
  let (internalConflicts, internalBudgetHit) :=
    engine.detectContradictionsBounded hypotheticalEdges hypotheticalEdges
  let contradictions :=
    baseConflicts ++ addInternal (baseConflicts.map conflictKey) internalConflicts
  let (inferences, inferenceBudgetHit) ←
    engine.deriveInferencesBounded (baseEdges ++ hypotheticalEdges)
  let derivedInferences := inferences.map fun inf =>
    { inf with isCounterfactual := true, metadata := [] }
  let budgetExceeded := baseBudgetHit || internalBudgetHit || inferenceBudgetHit
  let counts := toString contradictions.length ++ " contradiction(s) detected, " ++
    toString derivedInferences.length ++ " derived inference(s) generated."
  let isConsistent := !budgetExceeded && contradictions.isEmpty
  pure
    { hypotheticalEdgesCount := hypotheticalEdges.length
      baseEdgesCount := baseEdges.length
      contradictions
      derivedInferences
      isConsistent
      summary :=
        if budgetExceeded then
          "Counterfactual sandbox incomplete: evaluation budget exceeded. " ++
            "Cannot conclude consistent. " ++ counts
        else
          "Counterfactual sandbox consistent: " ++ pythonBool isConsistent ++ ". " ++ counts
      isIncomplete := budgetExceeded }

end BoundedReasoningEngine

end CyberBrain.Reasoning
