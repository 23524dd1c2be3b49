import CyberBrain.Foundation.Table
import CyberBrain.Relations.Models

/-!
# Records

The stored records, with the fields that the modelled services read or write. A payload is kept as
the record that it dumps; `fields` gives the values that storage filters match.
-/

namespace CyberBrain.Schemas

open Python Relations

variable {py : Runtime}

/-- `CURRENT_SCHEMA_VERSION`. -/
def currentSchemaVersion : ℤ := 2

/-! ### Enumerations -/

inductive KnowledgeStatus
  | active
  | superseded
  | deprecated
  | rejected
  deriving DecidableEq, Repr

def KnowledgeStatus.text : KnowledgeStatus → String
  | active     => "active"
  | superseded => "superseded"
  | deprecated => "deprecated"
  | rejected   => "rejected"

inductive KnowledgeRecordClass
  | knowledge
  | selfModelHypothesis
  | migrationQuarantine
  deriving DecidableEq, Repr

def KnowledgeRecordClass.text : KnowledgeRecordClass → String
  | knowledge           => "knowledge"
  | selfModelHypothesis => "self_model_hypothesis"
  | migrationQuarantine => "migration_quarantine"

inductive LifecycleState
  | active
  | suppressed
  deriving DecidableEq, Repr

inductive IdentityTrust
  | unspecified
  | legacyUntrusted
  | authenticated
  | systemDerived
  deriving DecidableEq, Repr

inductive RetentionDirective
  | default
  | keep
  deriving DecidableEq, Repr

inductive Verification
  | userConfirmed
  | observed
  | tested
  | derived
  | research
  | unverified
  deriving DecidableEq, Repr

inductive Origin
  | manual
  | agent
  | ingestion
  | dream
  | migration
  | cognition
  deriving DecidableEq, Repr

inductive EpisodeRole
  | user
  | assistant
  | system
  | tool
  | summary
  | other
  deriving DecidableEq, Repr

def EpisodeRole.text : EpisodeRole → String
  | user      => "user"
  | assistant => "assistant"
  | system    => "system"
  | tool      => "tool"
  | summary   => "summary"
  | other     => "other"

lemma KnowledgeStatus.text_injective : Function.Injective text := by
  intro s t h
  cases s <;> cases t <;> first | rfl | exact absurd h (by decide)

lemma KnowledgeRecordClass.text_injective : Function.Injective text := by
  intro s t h
  cases s <;> cases t <;> first | rfl | exact absurd h (by decide)

/-! ### Knowledge -/

/-- The projection of relations that a record carries for its index. -/
inductive RelationIndex
  | ineligible
  | eligible (ownerKey : String) (targetKeys : FrozenSet String) (bundleDigest : String)

variable (py) in
/-- The extensions of a record. Validated relations are kept as their bundle. -/
structure Extensions where
  relations : Option (RelationBundle py) := none
  relationIndex : Option RelationIndex := none
  evolutionState : Option Json := none
  evolutionPreviousId : Option Json := none
  other : List (String × Json) := []

/-- A confidence between 0 and 1. -/
def Confidence := { x : Binary64 // 0 ≤ x.value ∧ x.value ≤ 1 }

instance : DecidableEq Confidence :=
  inferInstanceAs (DecidableEq { x : Binary64 // 0 ≤ x.value ∧ x.value ≤ 1 })

def Confidence.one : Confidence := ⟨.one, Binary64.value_one_nonneg, Binary64.value_one_le_one⟩

variable (py) in
/-- `KnowledgeRecord`. -/
structure KnowledgeRecord extends EntityLabels, IdentityValues where
  id : Uuid
  schemaVersion : ℤ := currentSchemaVersion
  content : String
  summary : Option String
  recordClass : KnowledgeRecordClass
  identityTrust : IdentityTrust
  tags : List String := []
  keywords : List String := []
  version : ℕ
  status : KnowledgeStatus
  supersedesId : Option Uuid
  supersededById : Option Uuid := none
  changeReason : Option String
  importance : Option String
  verification : Verification
  confidence : Option Confidence
  provenanceType : Option String
  source : Option String
  evidenceIds : List Uuid
  origin : Origin
  dreamRunId : Option String
  negativeKnowledge : Bool
  contentHash : String
  embeddingVersion : Option String
  lifecycleState : LifecycleState := .active
  ordinaryRecall : Bool
  retentionScore : Confidence := .one
  retentionDirective : RetentionDirective
  accessCount : ℕ := 0
  lastAccessedAt : Option Instant := none
  lifecycleUpdatedAt : Option Instant := none
  lifecycleReasonCodes : List String := []
  context : Context
  extensions : Extensions py
  createdAt : Instant
  updatedAt : Instant

namespace KnowledgeRecord

/-- The payload fields that filters match. -/
def fields (r : KnowledgeRecord py) : Fields
  | "record_type" => some (.str "knowledge")
  | "record_class" => some (.str r.recordClass.text)
  | "domain" => some (.str r.domain)
  | "topic" => some (.str r.topic)
  | "entity_type" => some (.str r.entityType)
  | "entity_name" => some (.str r.entityName)
  | "tenant" => some (Json.ofText? r.tenant)
  | "user" => some (Json.ofText? r.user)
  | "agent" => some (Json.ofText? r.agent)
  | "project" => some (Json.ofText? r.project)
  | "session_id" => some (Json.ofText? r.sessionId)
  | "status" => some (.str r.status.text)
  | "ordinary_recall" => some (.bool r.ordinaryRecall)
  | "extensions._evolution_state" => r.extensions.evolutionState
  | _ => none

/-- `bundle_from_extensions` of the record's extensions. -/
def bundle (r : KnowledgeRecord py) : RelationBundle py := r.extensions.relations.getD (.empty py)

end KnowledgeRecord

variable (py) in
/-- The points of a Knowledge collection. -/
abbrev Collection := Table (@KnowledgeRecord.id py)

/-! ### Episodes -/

/-- `EpisodeRecord`. -/
structure EpisodeRecord where
  id : Uuid
  schemaVersion : ℤ := currentSchemaVersion
  content : String
  summary : Option String := none
  sessionId : String
  eventTime : Instant
  role : Option EpisodeRole := none
  tenant : Option String := none
  user : Option String := none
  agent : Option String := none
  project : Option String := none
  topic : Option String := none
  channel : Option String := none
  identityTrust : IdentityTrust := .unspecified
  keywords : List String := []
  importance : Option String := none
  source : Option String := none
  contentHash : String := ""
  embeddingVersion : Option String := none
  context : Context := []
  extensions : List (String × Json) := []
  lifecycleState : LifecycleState := .active
  ordinaryRecall : Bool := true
  retentionScore : Confidence := .one
  retentionDirective : RetentionDirective := .default
  accessCount : ℕ := 0
  lastAccessedAt : Option Instant := none
  lifecycleUpdatedAt : Option Instant := none
  lifecycleReasonCodes : List String := []
  createdAt : Instant
  updatedAt : Instant := createdAt

/-- The payload fields that filters match. -/
def EpisodeRecord.fields (r : EpisodeRecord) : Fields
  | "record_type" => some (.str "episode")
  | "tenant" => some (Json.ofText? r.tenant)
  | "user" => some (Json.ofText? r.user)
  | "agent" => some (Json.ofText? r.agent)
  | "project" => some (Json.ofText? r.project)
  | "session_id" => some (.str r.sessionId)
  | "topic" => some (Json.ofText? r.topic)
  | "channel" => some (Json.ofText? r.channel)
  | "source" => some (Json.ofText? r.source)
  | "ordinary_recall" => some (.bool r.ordinaryRecall)
  | _ => none

abbrev Episodes := Table EpisodeRecord.id

end CyberBrain.Schemas
