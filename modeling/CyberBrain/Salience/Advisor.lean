import CyberBrain.Foundation.Python
import CyberBrain.Salience.Scorer

/-!
# Salience advice

The candidates of one scope are assessed one by one and listed by their scores.
-/

namespace CyberBrain.Salience

open Python Schemas

/-- `SalienceCandidate`. -/
structure SalienceCandidate where
  candidateId : String
  scopeMarker : String
  signals : SalienceInput
  candidateId_ne_empty : strip candidateId ≠ ""
  scopeMarker_ne_empty : strip scopeMarker ≠ ""

structure CandidateSalienceAssessment where
  candidateId : String
  assessment : SalienceAssessment

structure SalienceAdvisory where
  policyVersion : String
  assessments : List CandidateSalienceAssessment
  priorityOrder : List String

/-- `SalienceAdvisor`. -/
structure SalienceAdvisor where
  sum : Summation
  config : SalienceConfig
  policyVersion : String := "salience-policy-v1"
  policyVersion_ne_empty : strip policyVersion ≠ ""

namespace SalienceAdvisor

variable (advisor : SalienceAdvisor)

/-- Assessments by falling score, and by position where the scores are equal. -/
def priority (assessments : List CandidateSalienceAssessment) : List String :=
  let key (item : CandidateSalienceAssessment × ℕ) : ℚ ×ₗ ℕ :=
    toLex (-item.1.assessment.score.val.value, item.2)
  (assessments.zipIdx.insertionSort fun a b => key a ≤ key b).map (·.1.candidateId)

/-- `SalienceAdvisor.assess`. -/
def assess (candidates : List SalienceCandidate) : Except Exc SalienceAdvisory :=
  if candidates = [] then .ok ⟨advisor.policyVersion, [], []⟩
  else do
    require (candidates.map (·.candidateId)).Nodup
      (.valueError "salience candidate IDs must be unique within one advisory set")
    require ((candidates.map (·.scopeMarker)).dedup.length = 1)
      (.valueError "salience candidates must share one authorized scope")
    let assessments ← candidates.mapM fun candidate => do
      let assessment ← advisor.config.assess advisor.sum candidate.signals
      pure (CandidateSalienceAssessment.mk candidate.candidateId assessment)
    pure ⟨advisor.policyVersion, assessments, priority assessments⟩

end SalienceAdvisor

end CyberBrain.Salience
