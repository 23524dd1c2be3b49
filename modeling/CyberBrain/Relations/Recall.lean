import CyberBrain.Core.TokenBudget
import CyberBrain.Dreaming.Gate
import CyberBrain.Relations.Traversal

/-!
# Recall of relations

`RelationRecallService` traverses, reads every record that a path rests on once more, and packs the
paths that still stand, with their records, into a budget of tokens.
-/

namespace CyberBrain.Relations

open CyberBrain.Core Program Python Schemas Tenancy
open Dreaming (spacedDialect)

variable {py : Runtime}

/-- `RelationRecallRequest`. -/
structure RelationRecallRequest where
  seedIds : List Uuid
  policy : TraversalPolicy
  contextTokens : ℕ := 4096
  recordTokens : ℕ := 256
  seeds_bounds : 1 ≤ seedIds.length ∧ seedIds.length ≤ 128
  context_bounds : 512 ≤ contextTokens ∧ contextTokens ≤ 16384
  record_bounds : 32 ≤ recordTokens ∧ recordTokens ≤ 1024

lemma characters_positive : 0 < 4 := by decide

/-- `DeterministicTokenCounter()`. -/
def tokenCounter : DeterministicTokenCounter where
  positive := characters_positive

/-! ### What a path rests on -/

/-- The records of a path, the owners of its assertions and their evidence. -/
def TraversalPath.refs (path : TraversalPath) : List EvidenceRef :=
  path.recordIds.map (⟨.knowledge, ·⟩) ++
    path.steps.flatMap fun step => ⟨.knowledge, step.ownerRecordId⟩ :: step.evidence

variable (py) in
/-- The payloads that were read again. -/
structure Hydrated where
  knowledge : List (KnowledgeRecord py) := []
  episodes : List EpisodeRecord := []

namespace Hydrated

variable (h : Hydrated py)

/-- `payloads.get(("knowledge", id))`. -/
def knowledge? (id : Uuid) : Option (KnowledgeRecord py) := h.knowledge.find? (·.id = id)

/-- `payloads.get(("episode", id))`. -/
def episode? (id : Uuid) : Option EpisodeRecord := h.episodes.find? (·.id = id)

end Hydrated

/-! ### Hydration -/

namespace RelationTraversal

variable (t : RelationTraversal py)

/-- The ids of one type that the paths rest on. -/
def hydratedIds (recordType : EvidenceType) (paths : List TraversalPath) : List Uuid :=
  sortIds (((paths.flatMap TraversalPath.refs).filter (·.recordType = recordType)).map (·.id))

/-- The read of the records of one type, when there are any. -/
def hydrateRecords {ρ : Type} (schema : RecordSchema ρ) (recordType : EvidenceType)
    (scroll : Query → ℕ → List (RelationPoint ρ) × Bool) (maximum : ℕ) (ids : List Uuid) :
    Traversing (List ρ) :=
  if ids = [] then pure []
  else do
    let points ← t.read scroll (recordType = .episode) maximum {
      must := [.field (.matchValue "record_type" (.str recordType.text))]
      ids := some ids }
    checked (points.mapM (canonical schema))

/-- The loop that reads what the paths rest on. -/
def hydrate (maximum : ℕ) (paths : List TraversalPath) : Traversing (Hydrated py) := do
  let knowledge ← t.hydrateRecords (knowledgeSchema py) .knowledge
    (t.scrollKnowledge t.store.knowledge) maximum (hydratedIds .knowledge paths)
  let episodes ← t.hydrateRecords episodeSchema .episode (t.scrollEpisodes t.store.episodes)
    maximum (hydratedIds .episode paths)
  pure { knowledge, episodes }

end RelationTraversal

/-! ### Revalidation -/

section Revalidation

variable (policy : TraversalPolicy) (at' : Instant)

/-- `visible`, on Knowledge. -/
def visible (endpoint : Bool) (r : KnowledgeRecord py) : Prop :=
  eligible at' r ∧ r.recordClass = .knowledge ∧
    (endpoint = true → policy.asOf.isSome = true ∨ r.status = .active)

instance (endpoint : Bool) (r : KnowledgeRecord py) : Decidable (visible policy at' endpoint r) :=
  inferInstanceAs (Decidable (_ ∧ _ ∧ _))

/-- `visible`, on an episode. -/
def visibleEpisode (r : EpisodeRecord) : Prop := eligibleEpisode at' r ∧ r.eventTime ≤ at'

instance (r : EpisodeRecord) : Decidable (visibleEpisode at' r) :=
  inferInstanceAs (Decidable (_ ∧ _))

variable (h : Hydrated py)

/-- The check of one piece of evidence. -/
def proofStands (scope : RelationScope py) (ref : EvidenceRef) : Prop :=
  match ref.recordType with
  | .knowledge => ∃ r ∈ h.knowledge? ref.id, visible policy at' false r ∧
      sharesPartition scope r.toIdentityValues
  | .episode   => ∃ r ∈ h.episode? ref.id, visibleEpisode at' r ∧
      sharesPartition scope (episodeIdentity r)

instance (scope : RelationScope py) (ref : EvidenceRef) :
    Decidable (proofStands policy at' h scope ref) :=
  match ref with
  | ⟨.knowledge, id⟩ => inferInstanceAs (Decidable (∃ r ∈ h.knowledge? id, _ ∧ _))
  | ⟨.episode, id⟩   => inferInstanceAs (Decidable (∃ r ∈ h.episode? id, _ ∧ _))

/-- `endpoint_keys`. -/
def endpointKeys (edge : RelationEdge py) : StepDirection → List String
  | .outward => [edge.source.key, edge.target.key]
  | .inward  => [edge.target.key, edge.source.key]

/-- The assertion of the owner is the one that the step at this position follows. -/
def confirms (path : TraversalPath) (position : ℕ) (step : TraversalStep)
    (edge : RelationEdge py) : Prop :=
  (edge.status = .accepted ∧ edge.targetRecordId = step.targetRecordId ∧ edge.validFrom ≤ at' ∧
    ∀ t ∈ edge.validUntil, at' < t) ∧
  ((path.nodeKeys.drop position).take 2 = endpointKeys edge step.direction ∧
    step.kind = edge.kind ∧ step.validFrom = edge.validFrom ∧ step.validUntil = edge.validUntil) ∧
  edge.evidence.sorted = step.evidence

instance (path : TraversalPath) (position : ℕ) (step : TraversalStep) (edge : RelationEdge py) :
    Decidable (confirms at' path position step edge) :=
  inferInstanceAs (Decidable ((_ ∧ _ ∧ _ ∧ _) ∧ (_ ∧ _ ∧ _ ∧ _) ∧ _))

/-- The loop over the steps of a path. A step whose assertion is not confirmed ends it; evidence
that does not stand lets it go on. -/
def stepsStand (path : TraversalPath) : ℕ → List TraversalStep → Except Exc Bool
  | _, []                   => pure true
  | position, step :: steps =>
    match h.knowledge? step.ownerRecordId with
    | none       => pure false
    | some owner =>
      if visible policy at' true owner ∧ owner.version = step.ownerVersion then do
        verifyProjection owner
        match owner.bundle.edges.find? (·.relationId = step.relationId) with
        | none      => pure false
        | some edge =>
          if confirms at' path position step edge then do
            let rest ← stepsStand path (position + 1) steps
            pure (decide (∀ ref ∈ step.evidence, proofStands policy at' h edge.source.scope ref) &&
              rest)
          else pure false
      else pure false

/-- The records of a path are still the entities of its keys. -/
def keysAgree : List Uuid → List String → Except Exc Bool
  | [], []               => pure true
  | id :: ids, key :: keys => do
    let r ← orRaise (h.knowledge? id) (.keyError id.text)
    let ref ← entityOf r
    if ref.key = key then keysAgree ids keys else pure false
  | _, _                 => .error (.valueError "zip() arguments have different lengths")

/-- Every record of a path is visible as an endpoint. -/
def endpointsVisible (path : TraversalPath) : Prop :=
  ∀ id ∈ path.recordIds, ∃ r ∈ h.knowledge? id, visible policy at' true r

instance (path : TraversalPath) : Decidable (endpointsVisible policy at' h path) :=
  inferInstanceAs (Decidable (∀ _ ∈ _, _))

/-- The records of a path are visible and still its entities. -/
def endsStand (path : TraversalPath) : Except Exc Bool :=
  if endpointsVisible policy at' h path then keysAgree h path.recordIds path.nodeKeys
  else pure false

/-- The turn of a path: whether it is still valid. -/
def pathStands (path : TraversalPath) : Except Exc Bool := do
  let ends ← endsStand policy at' h path
  let steps ← stepsStand policy at' h path 0 path.steps
  pure (ends && steps)

end Revalidation

/-! ### Rows and results -/

/-- The row of a record: its text, cut, and the labels and times that its payload has. -/
structure RecallRow where
  id : Uuid
  recordType : EvidenceType
  text : String
  textClipped : Bool
  entityName : Option String
  topic : Option String
  version : Option ℕ
  createdAt : Instant
  eventTime : Option Instant

namespace RecallRow

/-- The labels of a row: those of Knowledge, or the topic of an episode. -/
def labels (row : RecallRow) : Context :=
  (row.entityName.map fun name => ("entity_name", Json.str name)).toList ++
    [("topic", Json.ofText? row.topic)] ++
    (row.version.map fun version => ("version", Json.int version)).toList

def dump (row : RecallRow) : Json :=
  .obj ([("id", .str row.id.text), ("record_type", .str row.recordType.text),
    ("text", .str row.text), ("text_clipped", .bool row.textClipped)] ++ row.labels ++
    [("created_at", .str row.createdAt.jsonText)] ++
    (row.eventTime.map fun time => ("event_time", Json.str time.jsonText)).toList)

end RecallRow

def knowledgeRow (recordTokens : ℕ) (r : KnowledgeRecord py) : RecallRow where
  id := r.id
  recordType := .knowledge
  text := tokenCounter.clipToTokens r.content recordTokens
  textClipped := recordTokens < tokenCounter.estimateTokens r.content
  entityName := some r.entityName
  topic := some r.topic
  version := some r.version
  createdAt := r.createdAt
  eventTime := none

def episodeRow (recordTokens : ℕ) (r : EpisodeRecord) : RecallRow where
  id := r.id
  recordType := .episode
  text := tokenCounter.clipToTokens r.content recordTokens
  textClipped := recordTokens < tokenCounter.estimateTokens r.content
  entityName := none
  topic := r.topic
  version := none
  createdAt := r.createdAt
  eventTime := some r.eventTime

/-- The row of a reference among the payloads. -/
def rowOf (recordTokens : ℕ) (h : Hydrated py) (ref : EvidenceRef) : Option RecallRow :=
  match ref.recordType with
  | .knowledge => (h.knowledge? ref.id).map (knowledgeRow recordTokens)
  | .episode   => (h.episode? ref.id).map (episodeRow recordTokens)

/-- The key of a reference among the rows. -/
def EvidenceRef.text (ref : EvidenceRef) : String := ref.recordType.text ++ ":" ++ ref.id.text

/-- Rows under their references. -/
abbrev RecallRows := Table (Prod.fst (α := EvidenceRef) (β := RecallRow))

def TraversalStep.dump (step : TraversalStep) : Json :=
  .obj [("relation_id", .str step.relationId), ("kind", .str step.kind.text),
    ("direction", .str (match step.direction with | .outward => "out" | .inward => "in")),
    ("owner_record_id", .str step.ownerRecordId.text), ("owner_version", .int step.ownerVersion),
    ("target_record_id", .str step.targetRecordId.text),
    ("evidence", .arr (step.evidence.map EvidenceRef.dump)),
    ("valid_from", .str step.validFrom.iso),
    ("valid_until", Json.ofText? (step.validUntil.map Instant.iso))]

def TraversalPath.dump (path : TraversalPath) : Json :=
  .obj [("node_keys", .arr (path.nodeKeys.map .str)),
    ("record_ids", .arr (path.recordIds.map fun id => .str id.text)),
    ("steps", .arr (path.steps.map TraversalStep.dump))]

/-- What `recall` returns. -/
structure RecallResult where
  paths : List TraversalPath
  nodeCount : ℕ
  edgeCount : ℕ
  storageCalls : ℕ
  truncated : Bool
  truncationReasons : List String
  evaluatedAt : Instant
  historical : Bool
  records : RecallRows
  contextBudget : ℕ
  estimatedTokens : ℕ

namespace RecallResult

/-- What the traversal found, without paths. -/
def start (found : TraversalResult) (contextTokens : ℕ) : RecallResult where
  paths := []
  nodeCount := found.nodeCount
  edgeCount := found.edgeCount
  storageCalls := found.storageCalls
  truncated := found.truncated
  truncationReasons := found.truncationReasons
  evaluatedAt := found.evaluatedAt
  historical := found.historical
  records := Table.empty _
  contextBudget := contextTokens
  estimatedTokens := 0

/-- The dict while paths are added. -/
def items (r : RecallResult) : Context :=
  [("paths", .arr (r.paths.map TraversalPath.dump)), ("node_count", .int r.nodeCount),
    ("edge_count", .int r.edgeCount), ("storage_calls", .int r.storageCalls),
    ("truncated", .bool r.truncated),
    ("truncation_reasons", .arr (r.truncationReasons.map .str)),
    ("evaluated_at", .str r.evaluatedAt.iso),
    ("mode", .str (if r.historical then "historical" else "current")),
    ("snapshot_consistent", .bool false),
    ("records", .obj (r.records.rows.map fun row => (row.1.text, row.2.dump))),
    ("context_budget", .int r.contextBudget), ("estimated_tokens", .int r.estimatedTokens)]

/-- The dict that is returned. -/
def dump (r : RecallResult) : Json :=
  .obj (r.items ++ [("returned_path_count", .int r.paths.length),
    ("returned_record_count", .int r.records.rows.length)])

end RecallResult

variable (py) in
/-- `json.dumps(value, ensure_ascii=False)`. -/
def jsonText (value : Json) : String := String.ofList ((spacedDialect py).print value)

variable (py) in
/-- A turn of the last loop. -/
def RecallResult.measured (r : RecallResult) : RecallResult :=
  { r with estimatedTokens := tokenCounter.estimateTokens (jsonText py r.dump) }

/-! ### Packing -/

section Packing

variable (request : RelationRecallRequest) (h : Hydrated py)

/-- The rows with those of further references, in order. -/
def addRows (rows : RecallRows) (refs : List EvidenceRef) : Except Exc RecallRows :=
  refs.foldlM (fun rows ref => do
    let row ← orRaise (rowOf request.recordTokens h ref) (.keyError ref.id.text)
    pure (rows.upsert (ref, row))) rows

/-- The turn of a path: it is added if it still stands and fits the budget. -/
def packPath (s : RecallResult × List String) (path : TraversalPath) :
    Except Exc (RecallResult × List String) := do
  let (result, reasons) := s
  if ← pathStands request.policy result.evaluatedAt h path then do
    let records ← addRows request h result.records (FrozenSet.ofList path.refs).sorted
    let proposed := { result with paths := result.paths ++ [path], records }
    if request.contextTokens - 64 < tokenCounter.estimateTokens (jsonText py (.obj proposed.items))
    then pure (result, reasons.insert "context_tokens")
    else pure (proposed, reasons)
  else pure (result, reasons.insert "revalidation")

end Packing

/-- The fields that are set last. -/
def RecallResult.close (r : RecallResult) (used : ℕ) (reasons : List String) : RecallResult :=
  { r with
    storageCalls := used
    truncated := reasons ≠ []
    truncationReasons := reasons.insertionSort (· ≤ ·) }

/-- The part of `recall` that reads and packs: the calls used, the result and the reasons. -/
def gather (t : RelationTraversal py) (later : RelationStore py) (request : RelationRecallRequest)
    (found : TraversalResult) : Except Exc (ℕ × RecallResult × List String) :=
  let start := RecallResult.start found request.contextTokens
  match RelationTraversal.hydrate { t with store := later } request.policy.maxStorageCalls
      found.paths { used := found.storageCalls } with
  | (.ok h, s)                  =>
    (found.paths.foldlM (packPath request h) (start, found.truncationReasons)).map fun packed =>
      (s.used, packed)
  | (.error (.limit reason), s) => .ok (s.used, start, found.truncationReasons.insert reason)
  | (.error (.raised e), _)     => .error e

/-- `recall`, where the store is another one when the records are read again. -/
def RelationRecallService.recall (t : RelationTraversal py) (later : RelationStore py)
    (request : RelationRecallRequest) : Except Exc RecallResult := do
  let found ← t.traverse request.seedIds request.policy
  let (used, result, reasons) ← gather t later request found
  pure ((((result.close used reasons).measured py).measured py).measured py)

end CyberBrain.Relations
