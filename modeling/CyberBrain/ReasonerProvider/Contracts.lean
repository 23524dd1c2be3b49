import CyberBrain.Core.Errors
import CyberBrain.Foundation.DateTime
import CyberBrain.Foundation.FrozenSet
import CyberBrain.Foundation.PythonPrinting

/-!
# Reasoner contracts

A reason task asks one question about a list of evidence; its result is a list of claims, each
supported by evidence out of that list.
-/

namespace CyberBrain.ReasonerProvider

open Python

inductive ReasoningTaskKind
  | currentState
  | supersededOrRemoved
  | durableLesson
  | caveat
  deriving DecidableEq, Repr

structure ReasonerEvidence where
  id : String
  recordType : String
  content : String
  score : Option Binary64
  eventTime : Option Instant
  metadata : List (String × Json)

structure ReasonTaskRequest where
  taskId : String
  requestId : String
  topic : String
  kind : ReasoningTaskKind
  instruction : String
  evidence : List ReasonerEvidence

/-- A claim, with a confidence between 0 and 1. -/
structure ReasonTaskClaim where
  claim : String
  evidenceIds : List String
  confidence : Binary64
  confidence_nonneg : 0 ≤ confidence.value
  confidence_le_one : confidence.value ≤ 1
  deriving DecidableEq

structure ReasonTaskResult where
  taskId : String
  claims : List ReasonTaskClaim
  deriving DecidableEq

/-- The evidence ids of a claim outside the request, sorted. -/
def unknownEvidence (request : ReasonTaskRequest) (claim : ReasonTaskClaim) : List String :=
  (FrozenSet.ofList (claim.evidenceIds.filter (· ∉ request.evidence.map (·.id)))).sorted

/-- `validate_task_result`. -/
def validateTaskResult (py : Runtime) (request : ReasonTaskRequest) (result : ReasonTaskResult) :
    Except Exc ReasonTaskResult :=
  if result.taskId ≠ request.taskId then
    .error (.valueError "micro reasoner result task_id does not match request")
  else
    match result.claims.find? fun claim => unknownEvidence request claim ≠ [] with
    | some claim => .error (.valueError ("micro reasoner result contains unknown evidence ids: " ++
        reprStrs py (unknownEvidence request claim)))
    | none       => .ok result

lemma validateTaskResult_ok {py : Runtime} {request : ReasonTaskRequest}
    {result result' : ReasonTaskResult} (h : validateTaskResult py request result = .ok result') :
    result' = result := by
  simp only [validateTaskResult] at h
  split_ifs at h
  split at h <;> cases h
  rfl

/-- The result cites no evidence that is not in the request. -/
def ReasonTaskResult.CitesOnly (result : ReasonTaskResult) (request : ReasonTaskRequest) : Prop :=
  ∀ claim ∈ result.claims, ∀ id ∈ claim.evidenceIds, id ∈ request.evidence.map (·.id)

lemma unknownEvidence_eq_nil {request : ReasonTaskRequest} {claim : ReasonTaskClaim} :
    unknownEvidence request claim = [] ↔
      ∀ id ∈ claim.evidenceIds, id ∈ request.evidence.map (·.id) := by
  simp only [unknownEvidence, FrozenSet.sorted_eq_nil_iff, FrozenSet.ext_iff, FrozenSet.mem_ofList,
    List.mem_filter, decide_eq_true_eq, FrozenSet.notMem_empty, iff_false, not_and, not_not]

/-- Which results the validation accepts. -/
lemma validateTaskResult_eq_ok {py : Runtime} {request : ReasonTaskRequest}
    {result : ReasonTaskResult} : validateTaskResult py request result = .ok result ↔
      result.taskId = request.taskId ∧ result.CitesOnly request := by
  have hfind : (result.claims.find? fun claim => unknownEvidence request claim ≠ []) = none ↔
      result.CitesOnly request := by
    rw [List.find?_eq_none]
    refine forall₂_congr fun claim _ => ?_
    rw [decide_eq_true_eq, not_not, unknownEvidence_eq_nil]
  rw [← hfind]
  unfold validateTaskResult
  split_ifs with hid
  · simp [hid]
  · cases hclaim : result.claims.find? fun claim => unknownEvidence request claim ≠ [] with
    | none => simp [not_not.mp hid]
    | some claim => simp

end CyberBrain.ReasonerProvider
