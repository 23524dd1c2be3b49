import CyberBrain.Core.Content
import CyberBrain.Foundation.Double
import CyberBrain.Knowledge.Evolution

/-!
# Legacy points

`LegacyMapper` maps the raw points of the first collections to records. What it reads of a payload
is coerced by a few helpers, which fall back on a default for what they cannot read.
-/

namespace CyberBrain.Migrations

open Python Relations Schemas
open Knowledge (isFalsy pyStr)

variable (py : Runtime)

/-! ### Values of a payload -/

/-- What the mapper reads texts with. -/
structure TextReading where
  /-- `datetime.fromisoformat`. -/
  fromisoformat : String → Option DateTime
  /-- `int(text)`. -/
  intOfText : String → Option ℤ

/-- A raw point. -/
structure LegacyPoint where
  id : Option Json
  payload : Context

/-- `payload.get(key)`. -/
def field (payload : Context) (key : String) : Json := (payload.lookup key).getD .null

/-- `str(value or "")`. -/
def textOr (value : Json) : String := if isFalsy value then "" else pyStr py value

/-- `str(value or "").strip()`. -/
def trimmed (value : Json) : String := strip (textOr py value)

/-- `_optional_string`. -/
def optionalString (value : Json) : Option String :=
  let text := trimmed py value
  if text = "" then none else some text

/-- A double without its fraction. -/
def truncate (x : Binary64) : ℤ := if 0 ≤ x.value then ⌊x.value⌋ else ⌈x.value⌉

/-- `int(value)`, or `none` for a `TypeError` or a `ValueError`. -/
def intOf (reading : TextReading) : Json → Option ℤ
  | .bool b  => some (if b then 1 else 0)
  | .int i   => some i
  | .float x => some (truncate x)
  | .str s   => reading.intOfText s
  | .null    => none
  | .arr _   => none
  | .obj _   => none

/-- `_positive_int`. -/
def positiveInt (reading : TextReading) (value : Json) (default : ℕ) : ℕ :=
  match intOf reading value with
  | some parsed => if 1 ≤ parsed then parsed.toNat else default
  | none        => default

/-! ### Times -/

/-- `float(value)` of an `int`. -/
def floatOfInt (i : ℤ) : Except Exc Double := do
  let x ← Double.ofNat i.natAbs
  pure (if i < 0 then x.opposite else x)

/-- The days before 1970. -/
def epochDays : ℕ := 719162

lemma toNat_lt_limit {total : ℤ} (h : 0 ≤ total ∧ total < instantLimit) :
    total.toNat < instantLimit := by omega

/-- `datetime.fromtimestamp(x, tz=UTC)`: the fraction of a second is rounded to microseconds. -/
def fromtimestamp : Double → Option Instant
  | .finite x =>
    let seconds := truncate x
    let micros := (Double.finite x).sub (.literal seconds)
    match micros.mul (.literal 1000000) with
    | .finite m =>
      let total := (epochDays * 86400 + seconds) * 1000000 + Binary64.roundEven m.value
      if h : 0 ≤ total ∧ total < instantLimit then some ⟨total.toNat, toNat_lt_limit h⟩ else none
    | _         => none
  | _         => none

/-- `numeric / 1000.0` for a time in milliseconds. -/
def inSeconds (numeric : Double) : Double :=
  if Double.literal 10000000000 < numeric then numeric.quotient (.literal 1000) else numeric

/-- `text.replace("Z", "+00:00")`. -/
def zuluOffset (text : String) : String :=
  String.ofList (text.toList.flatMap fun c => if c = 'Z' then "+00:00".toList else [c])

/-- `parsed.astimezone(UTC)`, where a time without a zone is in UTC. -/
def astimezone (d : DateTime) : Except Exc Instant :=
  orRaise d.instant? (.overflowError "date value out of range")

/-- `_timestamp`. -/
def timestamp (reading : TextReading) (value : Json) : Except Exc (Option Instant) :=
  match value with
  | .bool b  => do pure (fromtimestamp (inSeconds (← floatOfInt (if b then 1 else 0))))
  | .int i   => do pure (fromtimestamp (inSeconds (← floatOfInt i)))
  | .float x => pure (fromtimestamp (inSeconds (.finite x)))
  | value    =>
    let text := trimmed py value
    if text = "" then pure none
    else
      match reading.fromisoformat (zuluOffset text) with
      | none   => pure none
      | some d => do pure (some (← astimezone d))

/-! ### Plans -/

inductive MigrationDisposition
  | migrateActive
  | migrateDeprecated
  | migrateEpisode
  | review
  deriving DecidableEq, Repr

/-- `LegacyMigrationPlan`. -/
structure LegacyMigrationPlan where
  pointId : String
  disposition : MigrationDisposition
  reasons : List String
  knowledge : Option (KnowledgeRecord py) := none
  episode : Option EpisodeRecord := none

/-- `_uuid`. -/
def uuidOf (point : LegacyPoint) : Option Uuid := Uuid.parse (pyStr py (point.id.getD .null))

/-- `_review`. -/
def reviewed (point : LegacyPoint) (reason : String) : LegacyMigrationPlan py where
  pointId := textOr py (point.id.getD .null)
  disposition := .review
  reasons := [reason]

/-- The value of `status` among those of the enumeration. -/
def statusOf (payload : Context) : Option KnowledgeStatus :=
  [.active, .superseded, .deprecated, .rejected].find? fun status =>
    status.text = py.casefold (trimmed py (field payload "status"))

/-- `_role`. -/
def roleOf (payload : Context) : Option EpisodeRole :=
  let raw :=
    match field payload "role", field payload "extra_metadata" with
    | .null, .obj extra => field extra "role"
    | raw, _            => raw
  [.user, .assistant, .system, .tool, .summary, .other].find? fun role =>
    role.text = py.casefold (trimmed py raw)

/-- `_verification`. -/
def verificationOf (payload : Context) : Verification :=
  if py.casefold (textOr py (field payload "entity_type")) = "web_research" then .research
  else .unverified

/-- `_legacy_context`. -/
def legacyContext (payload : Context) : Context :=
  match field payload "wing" with
  | .null => []
  | wing  => [("legacy_wing", wing)]

/-- The keys that `_legacy_extensions` excludes. -/
def excluded : List String :=
  ["content", "summary", "domain", "topic", "entity_type", "entity_name", "project", "status",
    "version", "change_reason", "importance", "source", "timestamp", "session_id", "channel",
    "agent_name", "wing"]

/-- `_legacy_extensions`. -/
def legacyExtensions (payload : Context) : Context :=
  let preserved := payload.filter fun item => item.1 ∉ excluded
  if preserved = [] then [] else [("legacy", .obj preserved)]

/-- The labels of a payload, trimmed. -/
def labelsOf (payload : Context) : EntityLabels where
  domain := trimmed py (field payload "domain")
  topic := trimmed py (field payload "topic")
  entityType := trimmed py (field payload "entity_type")
  entityName := trimmed py (field payload "entity_name")

/-- `all(str(payload.get(key) or "").strip() for key in identity_keys)`. -/
def Named (labels : EntityLabels) : Prop := ∀ item ∈ labels.items, item.2 ≠ ""

instance (labels : EntityLabels) : Decidable (Named labels) := List.decidableBAll _ _

/-- The record of a point with labels. -/
def identityRecord (reading : TextReading) (now later : Instant) (id : Uuid) (payload : Context)
    (content : String) (status : KnowledgeStatus) : Except Exc (KnowledgeRecord py) := do
  let normalized ← normalizeContent content
  let hash ← contentHash py content
  let time ← timestamp py reading (field payload "timestamp")
  pure {
    labelsOf py payload with
    id
    schemaVersion := 1
    content := normalized
    summary := optionalString py (field payload "summary")
    project := optionalString py (field payload "project")
    recordClass := .knowledge
    identityTrust := .unspecified
    version := positiveInt reading (field payload "version") 1
    status
    supersedesId := none
    changeReason := optionalString py (field payload "change_reason")
    importance := optionalString py (field payload "importance")
    verification := verificationOf py payload
    confidence := none
    provenanceType := some "legacy_qdrant"
    source := optionalString py (field payload "source")
    evidenceIds := []
    origin := .migration
    dreamRunId := none
    negativeKnowledge := false
    contentHash := hash
    embeddingVersion := none
    ordinaryRecall := true
    retentionDirective := .default
    context := legacyContext payload
    extensions := { other := legacyExtensions payload }
    createdAt := time.getD now
    updatedAt := time.getD later }

/-- The record that preserves a point without labels. -/
def preservedRecord (now later : Instant) (id : Uuid) (payload : Context)
    (content domain : String) : Except Exc (KnowledgeRecord py) := do
  let normalized ← normalizeContent content
  let hash ← contentHash py content
  pure {
    domain
    topic := "legacy_source_chunk"
    entityType := "legacy_chunk"
    entityName := "legacy:" ++ id.text
    id
    schemaVersion := 1
    content := normalized
    summary := none
    project := optionalString py (field payload "project")
    recordClass := .knowledge
    identityTrust := .unspecified
    version := 1
    status := .deprecated
    supersedesId := none
    changeReason := some "preserved legacy source chunk; canonical identity unavailable"
    importance := none
    verification := .unverified
    confidence := none
    provenanceType := some "legacy_qdrant"
    source := optionalString py (field payload "source")
    evidenceIds := []
    origin := .migration
    dreamRunId := none
    negativeKnowledge := false
    contentHash := hash
    embeddingVersion := none
    ordinaryRecall := true
    retentionDirective := .default
    context := [("legacy_collection", .str "cyberbrain_knowledge")]
    extensions := { other := legacyExtensions payload }
    createdAt := now
    updatedAt := later }

/-- `plan_knowledge`, with two readings of the clock. -/
def planKnowledge (reading : TextReading) (now later : Instant) (point : LegacyPoint) :
    Except Exc (LegacyMigrationPlan py) := do
  let payload := point.payload
  match uuidOf py point with
  | none    => pure (reviewed py point "non_uuid_point_id")
  | some id =>
    let content := trimmed py (field payload "content")
    if content = "" then pure (reviewed py point "missing_content")
    else if Named (labelsOf py payload) then
      match statusOf py payload with
      | none        => pure (reviewed py point "unsupported_or_missing_status")
      | some status => do
        let record ← identityRecord py reading now later id payload content status
        pure {
          pointId := id.text
          disposition := if record.status = .active then .migrateActive else .migrateDeprecated
          reasons := ["identity_ready"]
          knowledge := some record }
    else if isFalsy (field payload "session_id") = false then
      pure (reviewed py point "episodic_like_record_in_knowledge_collection")
    else
      let domain := trimmed py (field payload "domain")
      if domain = "" then pure (reviewed py point "missing_domain_for_preservation")
      else do
        let record ← preservedRecord py now later id payload content domain
        pure {
          pointId := id.text
          disposition := .migrateDeprecated
          reasons := ["preserve_without_active_pollution", "canonical_identity_unavailable"]
          knowledge := some record }

/-- The record of an episode. -/
def episodeRecord (later : Instant) (id : Uuid) (payload : Context) (content sessionId : String)
    (eventTime : Instant) : Except Exc EpisodeRecord := do
  let normalized ← normalizeContent content
  let hash ← contentHash py content
  pure {
    id
    schemaVersion := 1
    content := normalized
    summary := optionalString py (field payload "summary")
    sessionId
    eventTime
    channel := optionalString py (field payload "channel")
    role := roleOf py payload
    agent := optionalString py (field payload "agent_name")
    project := optionalString py (field payload "project")
    topic := optionalString py (field payload "topic")
    importance := optionalString py (field payload "importance")
    source := optionalString py (field payload "source")
    contentHash := hash
    context := legacyContext payload
    extensions := legacyExtensions payload
    createdAt := eventTime
    updatedAt := later }

/-- `plan_episode`, with a reading of the clock. -/
def planEpisode (reading : TextReading) (later : Instant) (point : LegacyPoint) :
    Except Exc (LegacyMigrationPlan py) := do
  let payload := point.payload
  match uuidOf py point with
  | none    => pure (reviewed py point "non_uuid_point_id")
  | some id => do
    let content := trimmed py (field payload "content")
    let sessionId := trimmed py (field payload "session_id")
    let time ← timestamp py reading (field payload "timestamp")
    let missing := (if content = "" then ["content"] else []) ++
      (if sessionId = "" then ["session_id"] else []) ++
      (if time = none then ["timestamp"] else [])
    match time, missing with
    | some eventTime, [] => do
      let record ← episodeRecord py later id payload content sessionId eventTime
      pure {
        pointId := id.text
        disposition := .migrateEpisode
        reasons := ["episode_core_ready", "historical_migration_dream_skipped"]
        episode := some record }
    | _, _               => pure {
        pointId := id.text
        disposition := .review
        reasons := ["missing_episode_core:" ++ String.intercalate "," missing] }

end CyberBrain.Migrations
