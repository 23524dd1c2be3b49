import CyberBrain.Concepts.Models
import CyberBrain.Foundation.Delimited
import CyberBrain.Foundation.Digests
import CyberBrain.Foundation.Lists
import Mathlib.Data.List.Sort

/-!
# Concept discovery

Evidence is grouped by its scope, its domain and its topic, up to spaces and case. A group with the
support that the policy asks for gives a candidate, whose id is a digest of its normalised labels.
-/

namespace CyberBrain.Concepts

open Python

variable (py : Runtime)

/-- Every run of whitespace as one space, after whitespace or not. -/
def collapseSpaces : Bool → List Char → List Char
  | _, []            => []
  | inSpace, c :: cs =>
    if isSpace c then
      if inSpace then collapseSpaces true cs else ' ' :: collapseSpaces true cs
    else c :: collapseSpaces false cs

/-- `_normalized_key`. -/
def normalizedKey (value : String) : String :=
  py.casefold (String.ofList (collapseSpaces false (strip value).toList))

/-- What a candidate id is a digest of. -/
def candidateMaterial (scopeMarker domain topic : String) : String :=
  "|".intercalate ["concept-candidate-v1", normalizedKey py scopeMarker, normalizedKey py domain,
    normalizedKey py topic]

/-- `_candidate_id`. -/
def candidateId (scopeMarker domain topic : String) : String :=
  "concept:" ++ shortDigest py (candidateMaterial py scopeMarker domain topic)

/-- `_support_fingerprint`. -/
def supportFingerprint (supportIds counterexampleIds : List String) : String :=
  shortDigest py ("support=" ++ ",".intercalate supportIds ++ "|counter=" ++
    ",".intercalate counterexampleIds)

/-- The texts that are not empty, stripped. -/
def countedValues (values : List String) : List String :=
  (values.map strip).filter (· ≠ "")

/-- The texts that occur most often. -/
def mostFrequent (values : List String) : List String :=
  values.filter fun value => ∀ other ∈ values, values.count other ≤ values.count value

/-- `_representative`. -/
def representative (values : List String) : Except Exc String :=
  match (mostFrequent (countedValues values)).insertionSort (· ≤ ·) with
  | []         => .error (.valueError "representative value requires at least one non-empty item")
  | value :: _ => .ok value

/-- `ConceptDiscoveryEngine`. -/
structure ConceptDiscoveryEngine where
  policy : ConceptDiscoveryPolicy := {}

/-! ### Support -/

/-- The counts that a policy looks at. -/
structure SupportCounts where
  support : ℕ
  sessions : ℕ
  sources : ℕ
  entities : ℕ
  recordTypes : List ConceptEvidenceType
  strongVerifications : ℕ
  counterexamples : ℕ

/-- `min(1.0, count / of)`. -/
def share (count : ℕ) (limit : ℚ) : Double :=
  Double.one.min ((Double.rounded false count).quotient (.literal limit))

namespace SupportCounts

variable (counts : SupportCounts)

/-- `_formation_confidence`. -/
def formationConfidence : Double :=
  let value := .literal 0.45 * share counts.support 5 + .literal 0.15 * share counts.sessions 3 +
    .literal 0.10 * share counts.sources 3 + .literal 0.20 * share counts.entities 3 +
    .literal 0.10 * share counts.recordTypes.length 2
  Double.roundDecimal 6 (Double.zero.max (Double.one.min value))

end SupportCounts

namespace ConceptDiscoveryPolicy

variable (policy : ConceptDiscoveryPolicy) (counts : SupportCounts)

/-- `_meets_support_policy`. -/
def meetsSupportPolicy : Bool :=
  if counts.recordTypes = [.knowledge] then
    policy.minimumKnowledgeOnlySupportCount ≤ counts.support
  else if counts.support < policy.minimumEpisodeOrMixedSupportCount then false
  else ¬ (.episode ∈ counts.recordTypes ∧ counts.sessions < policy.minimumDistinctSessions)

/-- `_has_abstraction_breadth`. -/
def hasAbstractionBreadth : Bool :=
  policy.minimumDistinctEntities ≤ counts.entities ∨ 2 ≤ counts.sessions ∨
    2 ≤ counts.recordTypes.length

/-- `_reasons`. -/
def reasons : List ConceptReasonCode :=
  [.recurringTopic] ++
    (if policy.broadSupportCount ≤ counts.support then [.broadSupport] else []) ++
    (if 2 ≤ counts.sessions then [.multiSessionSupport] else []) ++
    (if 2 ≤ counts.sources then [.multiSourceSupport] else []) ++
    (if policy.minimumDistinctEntities ≤ counts.entities then [.entityDiversity] else []) ++
    (if 2 ≤ counts.recordTypes.length then [.mixedRecordTypes] else []) ++
    (if counts.strongVerifications ≠ 0 then [.strongVerificationPresent] else []) ++
    (if counts.counterexamples ≠ 0 then [.counterexamplesPresent] else [])

end ConceptDiscoveryPolicy

/-! ### Groups -/

/-- The scope, the domain and the topic of a group. -/
abbrev GroupKey := String × String × String

/-- The group of an item. -/
def groupKey (item : ConceptEvidence) : GroupKey :=
  (item.scopeMarker, normalizedKey py item.domain, normalizedKey py item.topic)

def supporting (group : List ConceptEvidence) : List ConceptEvidence :=
  group.filter (!·.counterexample)

def contradicting (group : List ConceptEvidence) : List ConceptEvidence :=
  group.filter (·.counterexample)

/-- The ids of some items in order. -/
def sortedIds (items : List ConceptEvidence) : List String :=
  (items.map (·.evidenceId)).insertionSort (· ≤ ·)

/-- The distinct values of a field that are not empty. -/
def distinctValues (field : ConceptEvidence → Option String) (items : List ConceptEvidence) :
    List String :=
  ((items.filterMap field).filter (· ≠ "")).eraseDups

/-- The record types of some items, in order of their texts. -/
def recordTypesOf (items : List ConceptEvidence) : List ConceptEvidenceType :=
  [.episode, .knowledge].filter (· ∈ items.map (·.recordType))

namespace ConceptDiscoveryEngine

variable (engine : ConceptDiscoveryEngine)

/-- The evidence whose topic is not generic. -/
def considered (evidence : List ConceptEvidence) : List ConceptEvidence :=
  evidence.filter fun item => normalizedKey py item.topic ∉ engine.policy.genericTopics

/-- The keys of the groups, as they come. -/
def groupKeys (evidence : List ConceptEvidence) : List GroupKey :=
  ((engine.considered py evidence).map (groupKey py)).eraseDups

/-- The items of a group. -/
def groupOf (evidence : List ConceptEvidence) (key : GroupKey) : List ConceptEvidence :=
  (engine.considered py evidence).filter (groupKey py · = key)

/-- The counts of a group. -/
def countsOf (group : List ConceptEvidence) : SupportCounts where
  support := (supporting group).length
  sessions := (distinctValues (·.sessionId) (supporting group)).length
  sources := (distinctValues (·.source) (supporting group)).length
  entities := (distinctValues (·.entityName) (supporting group)).length
  recordTypes := recordTypesOf (supporting group)
  strongVerifications := ((supporting group).filter fun item =>
    py.casefold (item.verification.getD "") ∈ engine.policy.strongVerifications).length
  counterexamples := (contradicting group).length

/-- The project of items that have one project. -/
def commonProject (items : List ConceptEvidence) : Option String :=
  match distinctValues (·.project) items with
  | [project] => some project
  | _         => none

/-- The fields of the candidate of a group, with its labels. -/
def candidateFields (scopeMarker domain topic : String) (group : List ConceptEvidence) :
    CandidateFields :=
  let counts := engine.countsOf py group
  let support := sortedIds (supporting group)
  let counterexamples := sortedIds (contradicting group)
  { candidateConceptId := candidateId py scopeMarker domain topic
    scopeMarker
    domain
    topic
    label := topic
    project := commonProject (supporting group)
    supportingEvidenceIds := support
    counterexampleIds := counterexamples
    distinctSessionCount := counts.sessions
    distinctSourceCount := counts.sources
    distinctEntityCount := counts.entities
    recordTypes := counts.recordTypes
    strongVerificationCount := counts.strongVerifications
    formationConfidence := counts.formationConfidence
    reasonCodes := engine.policy.reasons counts
    supportFingerprint := supportFingerprint py support counterexamples }

/-- The body of the loop over the groups. -/
def candidateOf (scopeMarker : String) (group : List ConceptEvidence) :
    Except Exc (Option ConceptCandidate) :=
  let counts := engine.countsOf py group
  if counts.support < engine.policy.minimumSupportCount then .ok none
  else do
    let domain ← representative ((supporting group).map (·.domain))
    let topic ← representative ((supporting group).map (·.topic))
    if ¬ engine.policy.meetsSupportPolicy counts then .ok none
    else if ¬ engine.policy.hasAbstractionBreadth counts then .ok none
    else
      let candidate ← ConceptCandidate.make
        (engine.candidateFields py scopeMarker domain topic group)
      pure (some candidate)

/-- `ConceptDiscoveryEngine.discover`. -/
def discover (evidence : List ConceptEvidence) : Except Exc (List ConceptCandidate) := do
  require (evidence.map (·.evidenceId)).Nodup
    (.valueError "concept discovery evidence IDs must be unique")
  let found ← (engine.groupKeys py evidence).mapM fun key =>
    engine.candidateOf py key.1 (engine.groupOf py evidence key)
  pure ((found.filterMap id).insertionSort fun a b => a.candidateConceptId ≤ b.candidateConceptId)

end ConceptDiscoveryEngine

end CyberBrain.Concepts
