import CyberBrain.Dreaming.Orchestration
import CyberBrain.Foundation.Grouped
import CyberBrain.Relations.Recall

/-!
# Relations as evidence of a dream

`DreamRelationRecall` recalls what the Knowledge among its seeds is related to, one partition after
the other under shared budgets, and makes evidence items of what the paths show.
-/

namespace CyberBrain.Relations

open CyberBrain.Core Python Schemas Tenancy
open Dreaming (EvidenceItem)

variable {py : Runtime}

/-- `TemporalBucket`, whose start is not read. -/
structure TemporalBucket where
  name : String
  endTime : Instant

/-- `DreamRelationRecall`, with how pydantic reads a UUID. -/
structure DreamRelationRecall where
  readUuid : String → Option Uuid := Uuid.parse
  totalLimit : ℕ := 12
  contextTokens : ℕ := 4096
  maxStorageCalls : ℕ := 16
  limit_bounds : 1 ≤ totalLimit ∧ totalLimit ≤ 32
  context_bounds : 512 ≤ contextTokens ∧ contextTokens ≤ 16384
  calls_bounds : 1 ≤ maxStorageCalls ∧ maxStorageCalls ≤ 32

/-- What `recall` runs on each time it is called: two states of the store, and a clock. -/
structure RecallView (py : Runtime) where
  traversed : RelationStore py
  hydrated : RelationStore py
  now : Instant

/-- The service as it meets a view. -/
def RelationTraversal.at (service : RelationTraversal py) (view : RecallView py) :
    RelationTraversal py :=
  { service with store := view.traversed, now := view.now }

/-! ### Partitions -/

/-- A part of a key of a dict: `None`, a number or a text. -/
abbrev KeyPart := Option (ℚ ⊕ String)

def keyPart : Json → Except Exc KeyPart
  | .null    => .ok none
  | .bool b  => .ok (some (.inl (if b then 1 else 0)))
  | .int i   => .ok (some (.inl i))
  | .float x => .ok (some (.inl x.value))
  | .str s   => .ok (some (.inr s))
  | .arr _   => .error (.typeError "unhashable type: 'list'")
  | .obj _   => .error (.typeError "unhashable type: 'dict'")

/-- The partition of a seed. -/
def partitionOf (item : EvidenceItem) : Except Exc (List KeyPart) :=
  ["tenant", "user", "agent", "project", "session_id"].mapM fun key =>
    keyPart ((item.metadata.lookup key).getD .null)

/-- A seed with its partition. -/
def placeSeed (item : EvidenceItem) : Except Exc (List KeyPart × String) := do
  let partition ← partitionOf item
  pure (partition, item.id)

/-- The ids of the Knowledge among the seeds, by partition. -/
def seedGroups (seed : List EvidenceItem) : Except Exc (List (List String)) := do
  let placed ← (seed.filter (·.recordType = "knowledge")).mapM placeSeed
  pure ((Grouped.keys (some ∘ Prod.fst) placed).map fun partition =>
    (Grouped.group (some ∘ Prod.fst) placed partition).map Prod.snd)

/-! ### Items -/

/-- The record type and the id of an item. -/
def itemKey (item : EvidenceItem) : String × String := (item.recordType, item.id)

/-- A reference as the key of an item. -/
def EvidenceRef.key (ref : EvidenceRef) : String × String := (ref.recordType.text, ref.id.text)

/-- The records of a path and the evidence of its steps. -/
def TraversalPath.shown (path : TraversalPath) : List EvidenceRef :=
  path.recordIds.map (⟨.knowledge, ·⟩) ++ path.steps.flatMap (·.evidence)

/-- The labels of a row that go into the metadata of its item. -/
def RecallRow.metadata (row : RecallRow) : Context :=
  ["topic", "entity_name", "version", "project"].filterMap fun key =>
    (row.labels.lookup key).map (key, ·)

section Build

variable (bucket : TemporalBucket) (recalled : RecallResult) (seen : List (String × String))
  (paths : List TraversalPath)

/-- The item of a reference, with those of the paths that show it. Its time is read back from the
text in the row. -/
def itemOf (ref : EvidenceRef) (row : RecallRow) : EvidenceItem where
  id := ref.id.text
  recordType := ref.recordType.text
  content := row.text
  score := none
  eventTime := some { wall := row.eventTime.getD row.createdAt }
  metadata :=
    [("relation_paths", .arr ((paths.filter (ref ∈ ·.shown)).map TraversalPath.dump)),
      ("relation_as_of", .str recalled.evaluatedAt.iso), ("relation_bucket", .str bucket.name),
      ("relation_truncated", .bool recalled.truncated),
      ("relation_truncation_reasons", .arr (recalled.truncationReasons.map .str))] ++ row.metadata

/-- The references that paths show and that were not seen before, in order. -/
def newRefs : List EvidenceRef :=
  (FrozenSet.ofList (paths.flatMap TraversalPath.shown)).sorted.filter (!seen.contains ·.key)

/-- The turn of a reference. -/
def buildItem (ref : EvidenceRef) : Except Exc EvidenceItem := do
  let row ← orRaise (recalled.records.find? ref) (.keyError ref.text)
  pure (itemOf bucket recalled paths ref row.2)

/-- `build`. -/
def build : Except Exc (List EvidenceItem) :=
  (newRefs seen paths).mapM (buildItem bucket recalled paths)

end Build

/-! ### Packing -/

/-- `str` of a datetime, which has a blank where `isoformat` has a `T`. -/
def timeText (time : DateTime) : String := String.ofList (time.isoformat.toList.set 10 ' ')

/-- `asdict`, with times as texts. -/
def itemDump (item : EvidenceItem) : Json :=
  .obj [("id", .str item.id), ("record_type", .str item.recordType),
    ("content", .str item.content), ("score", (item.score.map Json.float).getD .null),
    ("event_time", Json.ofText? (item.eventTime.map timeText)), ("metadata", .obj item.metadata)]

variable (py) in
/-- The tokens that items take. -/
def itemTokens (items : List EvidenceItem) : ℕ :=
  tokenCounter.estimateTokens (jsonText py (.arr (items.map itemDump)))

/-- The paths that are selected, with their items. -/
structure ItemPacking where
  selected : List TraversalPath := []
  packed : List EvidenceItem := []

/-- What an expansion has found and what it has left. -/
structure DreamExpansion where
  seen : List (String × String)
  result : List EvidenceItem := []
  callsLeft : ℤ
  tokensLeft : ℤ

namespace DreamRelationRecall

variable (cfg : DreamRelationRecall) (bucket : TemporalBucket)

variable (py) in
/-- The turn of a path: it is selected if the items with those of the path fit. -/
def packItems (recalled : RecallResult) (s : DreamExpansion) (p : ItemPacking)
    (path : TraversalPath) : Except Exc ItemPacking := do
  let proposed ← build bucket recalled s.seen (p.selected ++ [path])
  let items := s.result ++ proposed
  pure (if cfg.totalLimit < items.length ∨ cfg.contextTokens < itemTokens py items then p
    else ⟨p.selected ++ [path], proposed⟩)

variable (py) in
/-- What becomes of a recall that returned. -/
def absorb (s : DreamExpansion) (recalled : RecallResult) : Except Exc DreamExpansion := do
  let p ← recalled.paths.foldlM (cfg.packItems py bucket recalled s) {}
  pure {
    seen := s.seen ++ p.packed.map itemKey
    result := s.result ++ p.packed
    callsLeft := s.callsLeft - recalled.storageCalls
    tokensLeft := s.tokensLeft - recalled.estimatedTokens }

/-- The request for a partition, with what is left of the budgets. -/
def requestFor (ids : List String) (callsLeft tokensLeft : ℕ) :
    Except Exc RelationRecallRequest := do
  let seedIds ← (ids.take 32).mapM fun id => orRaise (cfg.readUuid id) (.valueError "seed_ids")
  if h : (1 ≤ seedIds.length ∧ seedIds.length ≤ 128) ∧ (1 ≤ callsLeft ∧ callsLeft ≤ 32) ∧
      512 ≤ tokensLeft ∧ tokensLeft ≤ 16384 then
    pure {
      seedIds
      policy := {
        asOf := some bucket.endTime
        maxNodes := 32
        maxPaths := 32
        maxStorageCalls := callsLeft
        depth_bounds := by decide
        nodes_bounds := by decide
        edges_bounds := by decide
        paths_bounds := by decide
        calls_bounds := h.2.1 }
      contextTokens := tokensLeft
      seeds_bounds := h.1
      context_bounds := h.2.2
      record_bounds := by decide }
  else .error (.valueError "RelationRecallRequest")

/-- The exceptions that `except ConfigurationError` catches. -/
def isConfigurationError : Exc → Bool
  | .configurationError _ => true
  | .quotaExceededError _ => true
  | _                     => false

variable (service : RelationTraversal py)

/-- The turn of a partition. A recall that raises a `ConfigurationError` leaves no trace. -/
def expandGroup (view : RecallView py) (s : DreamExpansion) (ids : List String) :
    Except Exc DreamExpansion := do
  let request ← cfg.requestFor bucket ids s.callsLeft.toNat s.tokensLeft.toNat
  match RelationRecallService.recall (service.at view) view.hydrated request with
  | .ok recalled => cfg.absorb py bucket s recalled
  | .error e     => if isConfigurationError e then pure s else .error e

/-- The loop over the partitions, from the recall with a number on. -/
def expandGroups (views : ℕ → RecallView py) :
    ℕ → DreamExpansion → List (List String) → Except Exc DreamExpansion
  | _, s, []               => pure s
  | n, s, ids :: groups =>
    if s.callsLeft < 1 ∨ s.tokensLeft < 512 ∨ cfg.totalLimit ≤ s.result.length then pure s
    else do
      let s ← cfg.expandGroup bucket service (views n) s ids
      expandGroups views (n + 1) s groups

/-- `expand`. -/
def expand (views : ℕ → RecallView py) (seed : List EvidenceItem) :
    Except Exc (List EvidenceItem) := do
  let _ ← enforceOperation service.bound .backgroundEvidenceRead fun _ => none
  let groups ← seedGroups seed
  let s ← cfg.expandGroups bucket service views 0
    { seen := seed.map itemKey, callsLeft := cfg.maxStorageCalls,
      tokensLeft := cfg.contextTokens } groups
  pure s.result

end DreamRelationRecall

end CyberBrain.Relations
