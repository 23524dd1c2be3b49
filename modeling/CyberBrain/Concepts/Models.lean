import CyberBrain.Core.Errors
import CyberBrain.Foundation.DecimalRounding
import CyberBrain.Foundation.Python
import CyberBrain.Schemas.Models

/-!
# Concepts

Metadata of records that may support a concept, the policy for the support that a concept needs, and
the candidates that are found.
-/

namespace CyberBrain.Concepts

open Python

inductive ConceptEvidenceType
  | knowledge
  | episode
  deriving DecidableEq, Repr

def ConceptEvidenceType.text : ConceptEvidenceType → String
  | knowledge => "knowledge"
  | episode   => "episode"

inductive ConceptReasonCode
  | recurringTopic
  | broadSupport
  | multiSessionSupport
  | multiSourceSupport
  | mixedRecordTypes
  | entityDiversity
  | strongVerificationPresent
  | counterexamplesPresent
  deriving DecidableEq, Repr

/-! ### Evidence -/

/-- The parts of a `ConceptEvidence` that must not be empty. -/
structure EvidenceLabels where
  evidenceId : String
  scopeMarker : String
  domain : String
  topic : String
  deriving DecidableEq, Repr

/-- The fields of `ConceptEvidence` as they are passed in. -/
structure EvidenceFields extends EvidenceLabels where
  recordType : ConceptEvidenceType
  project : Option String := none
  entityType : Option String := none
  entityName : Option String := none
  sessionId : Option String := none
  source : Option String := none
  verification : Option String := none
  counterexample : Bool := false
  deriving DecidableEq, Repr

/-- A text that is stripped and not empty. -/
def Stripped (s : String) : Prop := strip s = s ∧ s ≠ ""

instance (s : String) : Decidable (Stripped s) := inferInstanceAs (Decidable (_ ∧ _))

/-- `ConceptEvidence`: stripped labels that are not empty, and other texts stripped. -/
structure ConceptEvidence extends EvidenceFields where
  evidenceId_stripped : Stripped evidenceId
  scopeMarker_stripped : Stripped scopeMarker
  domain_stripped : Stripped domain
  topic_stripped : Stripped topic
  deriving DecidableEq

lemma stripped_strip {s : String} (h : strip s ≠ "") : Stripped (strip s) := by
  refine ⟨?_, h⟩
  simp only [strip, String.toList_ofList, stripChars_stripChars]

/-- `str(value).strip() or None`. -/
def cleaned (value : Option String) : Option String :=
  value.bind fun text => if strip text = "" then none else some (strip text)

def emptyLabel (name : String) : Exc := .valueError ("concept " ++ name ++ " must not be empty")

/-- `ConceptEvidence.__post_init__`. -/
def ConceptEvidence.make (fields : EvidenceFields) : Except Exc ConceptEvidence :=
  if hid : strip fields.evidenceId = "" then .error (emptyLabel "evidence_id")
  else if hscope : strip fields.scopeMarker = "" then .error (emptyLabel "scope_marker")
  else if hdomain : strip fields.domain = "" then .error (emptyLabel "domain")
  else if htopic : strip fields.topic = "" then .error (emptyLabel "topic")
  else
    .ok {
      evidenceId := strip fields.evidenceId
      scopeMarker := strip fields.scopeMarker
      domain := strip fields.domain
      topic := strip fields.topic
      recordType := fields.recordType
      project := cleaned fields.project
      entityType := cleaned fields.entityType
      entityName := cleaned fields.entityName
      sessionId := cleaned fields.sessionId
      source := cleaned fields.source
      verification := cleaned fields.verification
      counterexample := fields.counterexample
      evidenceId_stripped := stripped_strip hid
      scopeMarker_stripped := stripped_strip hscope
      domain_stripped := stripped_strip hdomain
      topic_stripped := stripped_strip htopic }

/-! ### Policy -/

/-- `ConceptDiscoveryPolicy`, with its texts as `__post_init__` leaves them. -/
structure ConceptDiscoveryPolicy where
  minimumSupportCount : ℤ := 2
  minimumKnowledgeOnlySupportCount : ℤ := 5
  minimumEpisodeOrMixedSupportCount : ℤ := 3
  minimumDistinctEntities : ℤ := 2
  minimumDistinctSessions : ℤ := 2
  broadSupportCount : ℤ := 5
  genericTopics : List String := ["chat_history", "general", "legacy_source_chunk", "unknown"]
  strongVerifications : List String := ["observed", "tested", "user_confirmed"]
  two_le_support : 2 ≤ minimumSupportCount := by decide
  support_le_knowledge : minimumSupportCount ≤ minimumKnowledgeOnlySupportCount := by decide
  support_le_episode : minimumSupportCount ≤ minimumEpisodeOrMixedSupportCount := by decide
  one_le_entities : 1 ≤ minimumDistinctEntities := by decide
  one_le_sessions : 1 ≤ minimumDistinctSessions := by decide
  support_le_broad : minimumSupportCount ≤ broadSupportCount := by decide

/-! ### Candidates -/

/-- The fields of `ConceptCandidate` as they are passed in. -/
structure CandidateFields where
  candidateConceptId : String
  scopeMarker : String
  domain : String
  topic : String
  label : String
  summaryCandidate : Option String := none
  project : Option String
  supportingEvidenceIds : List String
  counterexampleIds : List String
  distinctSessionCount : ℕ
  distinctSourceCount : ℕ
  distinctEntityCount : ℕ
  recordTypes : List ConceptEvidenceType
  strongVerificationCount : ℕ
  formationConfidence : Double
  reasonCodes : List ConceptReasonCode
  supportFingerprint : String
  candidateVersion : String := "concept-candidate-v1"
  deriving DecidableEq

namespace CandidateFields

/-- The texts of a candidate that name it are not empty. -/
def Named (c : CandidateFields) : Prop :=
  strip c.domain ≠ "" ∧ strip c.topic ≠ "" ∧ strip c.label ≠ ""

/-- Supporting and counterexample evidence is disjoint. -/
def Disjoint (c : CandidateFields) : Prop :=
  ∀ id ∈ c.supportingEvidenceIds, id ∉ c.counterexampleIds

/-- `math.isfinite(value) and 0 <= value <= 1`. -/
def UnitConfidence (c : CandidateFields) : Prop := c.formationConfidence.InUnit

instance (c : CandidateFields) : Decidable c.Named := inferInstanceAs (Decidable (_ ∧ _ ∧ _))

instance (c : CandidateFields) : Decidable c.Disjoint :=
  inferInstanceAs (Decidable (∀ id ∈ c.supportingEvidenceIds, id ∉ c.counterexampleIds))

instance (c : CandidateFields) : Decidable c.UnitConfidence :=
  inferInstanceAs (Decidable c.formationConfidence.InUnit)

end CandidateFields

/-- `ConceptCandidate`. -/
structure ConceptCandidate extends CandidateFields where
  id_ne_empty : strip candidateConceptId ≠ ""
  scopeMarker_ne_empty : strip scopeMarker ≠ ""
  named : toCandidateFields.Named
  support_nodup : supportingEvidenceIds.Nodup
  counterexamples_nodup : counterexampleIds.Nodup
  disjoint : toCandidateFields.Disjoint
  support_ne_nil : supportingEvidenceIds ≠ []
  confidence : toCandidateFields.UnitConfidence
  fingerprint_ne_empty : strip supportFingerprint ≠ ""

/-- `ConceptCandidate.__post_init__`. -/
def ConceptCandidate.make (c : CandidateFields) : Except Exc ConceptCandidate :=
  if hid : strip c.candidateConceptId = "" then
    .error (.valueError "candidate_concept_id must not be empty")
  else if hscope : strip c.scopeMarker = "" then
    .error (.valueError "concept scope_marker must not be empty")
  else if hnamed : ¬ c.Named then
    .error (.valueError "concept domain/topic/label must not be empty")
  else if hsupport : ¬ c.supportingEvidenceIds.Nodup then
    .error (.valueError "supporting evidence IDs must be unique")
  else if hcounter : ¬ c.counterexampleIds.Nodup then
    .error (.valueError "counterexample IDs must be unique")
  else if hdisjoint : ¬ c.Disjoint then
    .error (.valueError "supporting and counterexample evidence must be disjoint")
  else if hne : c.supportingEvidenceIds = [] then
    .error (.valueError "concept candidate requires supporting evidence")
  else if hunit : ¬ c.UnitConfidence then
    .error (.valueError "formation_confidence must be finite and within [0, 1]")
  else if hfingerprint : strip c.supportFingerprint = "" then
    .error (.valueError "support_fingerprint must not be empty")
  else
    .ok {
      toCandidateFields := c
      id_ne_empty := hid
      scopeMarker_ne_empty := hscope
      named := not_not.mp hnamed
      support_nodup := not_not.mp hsupport
      counterexamples_nodup := not_not.mp hcounter
      disjoint := not_not.mp hdisjoint
      support_ne_nil := hne
      confidence := not_not.mp hunit
      fingerprint_ne_empty := hfingerprint }

/-- What a candidate needs to be admitted. -/
structure CandidateFields.Admissible (c : CandidateFields) : Prop where
  id_ne_empty : strip c.candidateConceptId ≠ ""
  scopeMarker_ne_empty : strip c.scopeMarker ≠ ""
  named : c.Named
  support_nodup : c.supportingEvidenceIds.Nodup
  counterexamples_nodup : c.counterexampleIds.Nodup
  disjoint : c.Disjoint
  support_ne_nil : c.supportingEvidenceIds ≠ []
  confidence : c.UnitConfidence
  fingerprint_ne_empty : strip c.supportFingerprint ≠ ""

lemma ConceptCandidate.exists_make {c : CandidateFields} (h : c.Admissible) :
    ∃ candidate, make c = .ok candidate ∧ candidate.toCandidateFields = c := by
  unfold make
  rw [dif_neg h.id_ne_empty, dif_neg h.scopeMarker_ne_empty, dif_neg (not_not.mpr h.named),
    dif_neg (not_not.mpr h.support_nodup), dif_neg (not_not.mpr h.counterexamples_nodup),
    dif_neg (not_not.mpr h.disjoint), dif_neg h.support_ne_nil, dif_neg (not_not.mpr h.confidence),
    dif_neg h.fingerprint_ne_empty]
  exact ⟨_, rfl, rfl⟩

end CyberBrain.Concepts
