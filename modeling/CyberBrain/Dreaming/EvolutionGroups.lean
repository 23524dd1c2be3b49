import CyberBrain.Core.TokenBudget
import CyberBrain.Dreaming.Gate
import CyberBrain.Foundation.DateTime
import CyberBrain.Foundation.Except
import CyberBrain.Foundation.FrozenSet
import CyberBrain.Foundation.Grouped
import CyberBrain.Foundation.Json
import Mathlib.Data.Prod.Lex

/-!
# Evolution groups

Evidence records are grouped by the identity of what they describe. A group lists its records as a
chain and, beside them, the records of the same topic that speak of a replacement, a failure or a
verification.
-/

namespace CyberBrain.Dreaming.Evolution

open Python Grouped CyberBrain.Core

/-! ### Records -/

/-- `NormalizedEvidence`. -/
structure NormalizedEvidence where
  id : String
  content : String
  domain : Option String := none
  topic : Option String := none
  entityType : Option String := none
  entityName : Option String := none
  context : List (String × Json) := []
  version : Option ℤ := none
  status : Option String := none
  eventTime : Option DateTime := none
  supersedesId : Option String := none
  supersededById : Option String := none

/-- A text that is neither missing nor empty. -/
def Present (s : Option String) : Prop := s.getD "" ≠ ""

instance (s : Option String) : Decidable (Present s) := inferInstanceAs (Decidable (_ ≠ _))

/-- An identity. Contexts are equal as Python compares them. -/
structure EvolutionIdentity where
  domain : String
  topic : String
  entityType : String
  entityName : String
  context : PyValue
  deriving DecidableEq

/-- `_identity_key`. -/
def identityKey (record : NormalizedEvidence) : Option EvolutionIdentity :=
  if Present record.domain ∧ Present record.topic ∧ Present record.entityType ∧
      Present record.entityName then
    some {
      domain := record.domain.getD ""
      topic := record.topic.getD ""
      entityType := record.entityType.getD ""
      entityName := record.entityName.getD ""
      context := (Json.obj record.context).value }
  else none

/-- The type of the first item of a context that has no hash. -/
def unhashableType (context : List (String × Json)) : Option String :=
  (sortItems context).findSome? fun kv =>
    match kv.2 with
    | .arr _ => some "list"
    | .obj _ => some "dict"
    | _      => none

/-- The use of an identity as a key, which its context may not allow. -/
def checkHashable (record : NormalizedEvidence) : Except Exc Unit :=
  match identityKey record, unhashableType record.context with
  | some _, some type => .error (.typeError ("unhashable type: '" ++ type ++ "'"))
  | _, _              => .ok ()

/-- `_sort_key`. -/
def sortKey (record : NormalizedEvidence) : ℕ ×ₗ ℤ ×ₗ String :=
  let rank := if Present record.supersedesId ∨ Present record.supersededById then 0 else 1
  let event := record.eventTime.elim "9999" (·.isoformat)
  toLex (rank, toLex (record.version.getD (10 ^ 9), event))

/-! ### Hints -/

def replacementHints : List String :=
  ["loại bỏ", "thay bằng", "replaced", "replaced by", "removed", "deprecated", "migrated from",
    "không dùng nữa"]

def failureHints : List String :=
  ["fail", "failed", "rejected", "abandoned", "không hoạt động", "bị lỗi"]

def verificationHints : List String :=
  ["test thành công", "validated", "validation pass", "pass", "production ready"]

variable (py : Runtime)

/-- `_relation_hint`. -/
def relationHint (content : String) : String :=
  let text := py.casefold content
  if replacementHints.any (contains text) then "replacement_or_removal"
  else if failureHints.any (contains text) then "failure"
  else if verificationHints.any (contains text) then "verification"
  else "topic_related"

/-- A record that other groups of its topic list: it has a content, with a hint. -/
def Eventful (record : NormalizedEvidence) : Prop :=
  record.content ≠ "" ∧
    relationHint py record.content ∈ ["replacement_or_removal", "failure", "verification"]

instance (record : NormalizedEvidence) : Decidable (Eventful py record) :=
  inferInstanceAs (Decidable (_ ∧ _))

/-! ### Items -/

/-- `_excerpt`. -/
def evidenceExcerpt (content : String) : String :=
  textUpTo (strip (String.ofList (collapseSpaces false content.toList))) 700

structure EvolutionItem where
  id : String
  version : Option ℤ
  eventTime : Option String
  status : Option String
  relationHint : String
  excerpt : String
  deriving DecidableEq

/-- The event time in UTC. -/
def utcText : Option DateTime → Except Exc (Option String)
  | none      => .ok none
  | some time => do
    let instant ← orRaise time.instant? (.overflowError "date value out of range")
    pure (some instant.iso)

/-- `_to_item`. -/
def toItem (hint : String) (record : NormalizedEvidence) : Except Exc EvolutionItem := do
  let eventTime ← utcText record.eventTime
  pure {
    id := record.id
    version := record.version
    eventTime
    status := record.status
    relationHint := hint
    excerpt := evidenceExcerpt record.content }

/-- The versions that are missing between the first and the last. -/
def missingVersions (versions : List ℤ) : List ℤ :=
  match versions.head?, versions.getLast? with
  | some first, some last =>
    ((List.range (last - first + 1).toNat).map fun n => first + n).filter (· ∉ versions)
  | _, _ => []

/-- `_detect_anomalies`. -/
def detectAnomalies (items : List NormalizedEvidence) : List String :=
  let versions := (FrozenSet.ofList (items.filterMap (·.version))).sorted
  let missing := missingVersions versions
  (if 1 < items.countP (fun item => item.status = some "active") then
    ["multiple_active_versions"] else []) ++
  (if 2 ≤ versions.length ∧ missing ≠ [] then
    ["version_gap:" ++ ",".intercalate (missing.map fun v => String.ofList (reprInt v))] else []) ++
  if items.any (·.version = none) then ["missing_version"] else []

/-! ### Bundles -/

structure EvolutionGroup where
  domain : String
  topic : String
  entityType : String
  entityName : String
  context : List (String × Json)
  chain : List EvolutionItem
  relatedEvents : List EvolutionItem
  anomalies : List String

structure EvolutionBundle where
  topic : Option String
  groups : List EvolutionGroup
  ungrouped : List EvolutionItem

/-- The records of a group in the order of the chain. -/
def chainRecords (records : List NormalizedEvidence) (identity : EvolutionIdentity) :
    List NormalizedEvidence :=
  (group identityKey records identity).insertionSort fun a b =>
    sortKey a ≤ sortKey b

/-- The records that a group lists as related, given the ids of the records that were grouped. -/
def relatedRecords (records : List NormalizedEvidence) (groupedIds : List String)
    (topic : Option String) : List NormalizedEvidence :=
  records.filter fun candidate =>
    candidate.id ∉ groupedIds ∧ candidate.topic = topic ∧ Eventful py candidate

/-- The related events by their time. -/
def sortEvents (events : List EvolutionItem) : List EvolutionItem :=
  events.insertionSort fun a b => a.eventTime.getD "" ≤ b.eventTime.getD ""

/-- The loop over the groups, for one group; `groupedIds` has the ids of its records too. -/
def buildGroup (records : List NormalizedEvidence) (groupedIds : List String)
    (identity : EvolutionIdentity) : Except Exc EvolutionGroup := do
  let sortedItems := chainRecords records identity
  let chain ← sortedItems.mapM (toItem "evolution_step")
  let related := relatedRecords py records groupedIds (sortedItems.head?.bind (·.topic))
  let events ← related.mapM fun candidate =>
    toItem (relationHint py candidate.content) candidate
  pure {
    domain := identity.domain
    topic := identity.topic
    entityType := identity.entityType
    entityName := identity.entityName
    context := sortItems (((group identityKey records identity).head?.map (·.context)).getD [])
    chain
    relatedEvents := sortEvents events
    anomalies := detectAnomalies sortedItems }

/-- The loop over the groups. The ids that were grouped grow from group to group. -/
def buildGroups (records : List NormalizedEvidence) :
    List String → List EvolutionIdentity → Except Exc (List EvolutionGroup)
  | _, []                        => .ok []
  | groupedIds, identity :: rest => do
    let groupedIds := groupedIds ++ (chainRecords records identity).map (·.id)
    let built ← buildGroup py records groupedIds identity
    let others ← buildGroups records groupedIds rest
    pure (built :: others)

/-- `build_evolution_bundle`. -/
def buildEvolutionBundle (records : List NormalizedEvidence) : Except Exc EvolutionBundle := do
  records.forM checkHashable
  let groups ← buildGroups py records [] (keys identityKey records)
  let ungrouped ← (rest identityKey records).mapM fun record =>
    toItem (relationHint py record.content) record
  pure {
    topic := (records.find? fun record => Present record.topic).bind (·.topic)
    groups
    ungrouped }

end CyberBrain.Dreaming.Evolution
