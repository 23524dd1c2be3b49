import CyberBrain.Knowledge.Evolution
import CyberBrain.Relations.Query

/-!
# Predictions and outcomes

Predictions and their outcomes are episodes with a `cognition` context. `observe`,
`calibration_samples` and `pending` read a bounded sample of both and join them by the id of the
prediction.
-/

namespace CyberBrain.Cognition

open Python Relations Schemas Tenancy
open Knowledge (isFalsy pyStr)

variable {py : Runtime}

/-! ### Assessments -/

inductive PredictionAssessment
  | confirmed
  | partiallyConfirmed
  | contradicted
  | indeterminate
  deriving DecidableEq, Repr

namespace PredictionAssessment

def text : PredictionAssessment → String
  | confirmed          => "confirmed"
  | partiallyConfirmed => "partially_confirmed"
  | contradicted       => "contradicted"
  | indeterminate      => "indeterminate"

def all : List PredictionAssessment := [confirmed, partiallyConfirmed, contradicted, indeterminate]

end PredictionAssessment

inductive PredictionErrorClass
  | none
  | partialError
  | full
  | indeterminate
  deriving DecidableEq, Repr

namespace PredictionErrorClass

def text : PredictionErrorClass → String
  | none          => "none"
  | partialError  => "partial"
  | full          => "full"
  | indeterminate => "indeterminate"

def all : List PredictionErrorClass := [none, partialError, full, indeterminate]

end PredictionErrorClass

/-! ### Numbers -/

/-- The floating-point operations that the summaries use. -/
structure FloatOperations where
  /-- `float(n)`, which may overflow. -/
  ofInt : ℤ → Option Binary64
  /-- `float(text)`, for a text that reads as a number. -/
  ofText : String → Option Binary64
  /-- `round(sum(values) / len(values), 6)`. -/
  mean : List Binary64 → Binary64

/-- The double `1.0`. -/
def oneFloat : Binary64 := .one

/-- The double `0.5`. -/
def halfFloat : Binary64 := ⟨false, 1, -1, by decide⟩

section Floats

variable (floats : FloatOperations)

/-- `float(value)` of a value that `isinstance(value, int | float)` holds of. -/
def number (v : Json) : Except Exc (Option Binary64) :=
  match v with
  | .bool b  => .ok (some (if b then oneFloat else .zero))
  | .int i   => do
    let x ← orRaise (floats.ofInt i) (.overflowError "int too large to convert to float")
    pure (some x)
  | .float x => .ok (some x)
  | _        => .ok none

/-- `float(value)`. -/
def toFloat (v : Json) : Except Exc Binary64 := do
  match ← number floats v, v with
  | some x, _   => pure x
  | none, .str s =>
    orRaise (floats.ofText s) (.valueError ("could not convert string to float: " ++ s))
  | none, _     => .error (.typeError "float() argument must be a string or a real number")

/-- The numbers among values. -/
def numbers (vs : List Json) : Except Exc (List Binary64) := do
  let xs ← vs.mapM (number floats)
  pure xs.reduceOption

/-- `_mean`. -/
def mean (xs : List Binary64) : Option Binary64 := if xs = [] then none else some (floats.mean xs)

end Floats

/-! ### Rows -/

/-- An episode and its `cognition` context. -/
structure CognitionRow where
  record : EpisodeRecord
  cognition : Context

namespace CognitionRow

/-- `str(record.id)`. -/
def id (row : CognitionRow) : String := row.record.id.text

variable (py) in
/-- `str(cognition.get(key) or "")`. -/
def text (key : String) (row : CognitionRow) : String :=
  match (row.cognition.lookup key).filter fun v => !isFalsy v with
  | some v => pyStr py v
  | none   => ""

end CognitionRow

/-- The two kinds of cognitive episodes. -/
inductive CognitionSource
  | prediction
  | outcome
  deriving DecidableEq, Repr

def CognitionSource.text : CognitionSource → String
  | prediction => "cognitive_prediction"
  | outcome    => "cognitive_outcome"

def CognitionSource.kind : CognitionSource → String
  | prediction => "prediction"
  | outcome    => "outcome"

/-- The row of a point, if its payload is a valid episode of the kind. -/
def rowOf (source : CognitionSource) (p : RelationPoint EpisodeRecord) : Option CognitionRow :=
  match p.payload with
  | .invalid _ _ => none
  | .dump record =>
    match record.context.lookup "cognition" with
    | some (.obj cognition) =>
      match cognition.lookup "kind" with
      | some (.str kind) => if kind = source.kind then some ⟨record, cognition⟩ else none
      | _                => none
    | _                     => none

/-! ### Reads -/

/-- The identity filters of a read. -/
structure CognitionFilters where
  sessionId : Option String := none
  agent : Option String := none
  project : Option String := none
  topic : Option String := none

/-- The filters that are set. -/
def CognitionFilters.items (f : CognitionFilters) : List (String × String) :=
  [("session_id", f.sessionId), ("agent", f.agent), ("project", f.project),
    ("topic", f.topic)].filterMap fun kv => kv.2.map fun v => (kv.1, v)

/-- `scroll`: some points that match a filter. -/
abbrev EpisodeScroll :=
  RelationPoints EpisodeRecord → Filter → ℕ → List (RelationPoint EpisodeRecord)

/-- The points that a filter matches. -/
def matchingPoints (points : RelationPoints EpisodeRecord) (filter : Filter) :
    List (RelationPoint EpisodeRecord) :=
  points.rows.filter fun p => filter.accepts (p.fields episodeSchema)

/-- A scroll returns matching points, and as many as there are up to its limit. -/
structure EpisodeScroll.Lawful (scroll : EpisodeScroll) : Prop where
  nodup : ∀ points filter limit, (scroll points filter limit).Nodup
  mem : ∀ points filter limit, ∀ p ∈ scroll points filter limit, p ∈ matchingPoints points filter
  length : ∀ points filter limit,
    (scroll points filter limit).length = min limit (matchingPoints points filter).length

variable (py) in
/-- `PredictionLearningService`, with the episodes it reads and what it is called under. -/
structure PredictionLearning where
  points : RelationPoints EpisodeRecord
  scroll : EpisodeScroll
  bound : Option (CallerAuthority py)
  floats : FloatOperations

namespace PredictionLearning

variable (s : PredictionLearning py)

/-- The filter of `_scroll_cognition`. -/
def cognitionFilter (source : CognitionSource) (filters : CognitionFilters) :
    Except Exc Filter := do
  let plan ← enforceOperation s.bound .memorySearch fun key => (filters.items.lookup key).map .str
  pure (.field (.matchValue "source" (.str source.text)) :: scopeConditions plan ++
    filters.items.map fun kv => .field (.matchValue kv.1 (.str kv.2)))

/-- The points that `_scroll_cognition` reads. -/
def readPoints (source : CognitionSource) (limit : ℕ) (filters : CognitionFilters) :
    Except Exc (List (RelationPoint EpisodeRecord)) := do
  let filter ← s.cognitionFilter source filters
  pure (s.scroll s.points filter limit)

/-- `_scroll_cognition`. -/
def scrollCognition (source : CognitionSource) (limit : ℕ) (filters : CognitionFilters) :
    Except Exc (List CognitionRow) := do
  let points ← s.readPoints source limit filters
  pure (points.filterMap (rowOf source))

end PredictionLearning

/-! ### Joins -/

/-- The predictions by id, as a dict. -/
def predictionRows (predictions : List CognitionRow) : Table CognitionRow.id :=
  predictions.foldl Table.upsert (.empty _)

/-- Outcomes by the id of their prediction. -/
abbrev OutcomesById := Table (Prod.fst : String × CognitionRow → String)

variable (py) in
/-- The body of the loop that keeps the latest outcome of every known prediction. -/
def keepLatest (known : List String) (latest : OutcomesById) (row : CognitionRow) : OutcomesById :=
  let predictionId := row.text py "prediction_id"
  if predictionId ∈ known then
    match latest.find? predictionId with
    | some current =>
      if current.2.record.eventTime < row.record.eventTime then latest.upsert (predictionId, row)
      else latest
    | none         => latest.upsert (predictionId, row)
  else latest

variable (py) in
/-- The latest outcomes of the known predictions. -/
def latestOutcomes (known : List String) (outcomes : List CognitionRow) : OutcomesById :=
  outcomes.foldl (keepLatest py known) (.empty _)

variable (py) in
/-- The body of the loop that counts the outcomes of every known prediction. -/
def countOutcome (known : List String) (counts : Table (Prod.fst : String × ℕ → String))
    (row : CognitionRow) : Table (Prod.fst : String × ℕ → String) :=
  let predictionId := row.text py "prediction_id"
  if predictionId ∈ known then
    counts.upsert (predictionId, (counts.find? predictionId).elim 1 fun p => p.2 + 1)
  else counts

/-! ### Observation -/

structure PredictionObservation where
  predictionsTotal : ℕ
  outcomesTotal : ℕ
  resolvedPredictions : ℕ
  unresolvedPredictions : ℕ
  duplicateOutcomes : ℕ
  meanPredictionConfidence : Option Binary64
  meanConfidenceWeightedError : Option Binary64
  assessmentCounts : List (String × ℕ)
  errorClassCounts : List (String × ℕ)
  mayBeTruncated : Bool
  sampleLimit : ℤ
  filters : List (String × String)

/-- One of the two reads gave as many rows as its limit. -/
def reachesLimit (limit : ℤ) (predictions outcomes : List CognitionRow) : Bool :=
  limit ≤ predictions.length ∨ limit ≤ outcomes.length

namespace PredictionLearning

variable (s : PredictionLearning py)

/-- The part of `observe` after its reads. -/
def summarize (limit : ℤ) (filters : CognitionFilters) (predictions outcomes : List CognitionRow) :
    Except Exc PredictionObservation := do
  let rows := (predictionRows predictions).rows
  let latest := (latestOutcomes py (rows.map CognitionRow.id) outcomes).rows.map Prod.snd
  let counts := (outcomes.foldl (countOutcome py (rows.map CognitionRow.id)) (.empty _)).rows
  let confidences ← numbers s.floats (rows.filterMap (·.cognition.lookup "confidence"))
  let weightedErrors ←
    numbers s.floats (latest.filterMap (·.cognition.lookup "confidence_weighted_error"))
  pure
    { predictionsTotal := rows.length
      outcomesTotal := outcomes.length
      resolvedPredictions := latest.length
      unresolvedPredictions := rows.length - latest.length
      duplicateOutcomes := (counts.map fun p => p.2 - 1).sum
      meanPredictionConfidence := mean s.floats confidences
      meanConfidenceWeightedError := mean s.floats weightedErrors
      assessmentCounts := PredictionAssessment.all.map fun a =>
        (a.text, latest.countP fun row => row.text py "assessment" = a.text)
      errorClassCounts := PredictionErrorClass.all.map fun c =>
        (c.text, latest.countP fun row => row.text py "prediction_error_class" = c.text)
      mayBeTruncated := reachesLimit limit predictions outcomes
      sampleLimit := limit
      filters := filters.items }

/-- `observe`. -/
def observe (limit : ℤ) (filters : CognitionFilters) : Except Exc PredictionObservation := do
  require (1 ≤ limit ∧ limit ≤ 10000)
    (.valueError "prediction observation limit must be between 1 and 10000")
  let predictions ← s.scrollCognition .prediction limit.toNat filters
  let outcomes ← s.scrollCognition .outcome limit.toNat filters
  s.summarize limit filters predictions outcomes

/-! ### Calibration -/

/-- The turn of a prediction in the comprehension of `prediction_confidence`. -/
def addConfidence (known : Table (Prod.fst : String × Binary64 → String)) (row : CognitionRow) :
    Except Exc (Table (Prod.fst : String × Binary64 → String)) :=
  match row.cognition.lookup "confidence" with
  | none   => pure known
  | some v => do
    match ← number s.floats v with
    | none   => pure known
    | some x => pure (known.upsert (row.id, x))

/-- The confidence of every prediction that has a number as its confidence. -/
def predictionConfidence (predictions : List CognitionRow) :
    Except Exc (Table (Prod.fst : String × Binary64 → String)) :=
  predictions.foldlM s.addConfidence (.empty _)

/-- `empirical_scores`. -/
def empiricalScore (assessment : String) : Option Binary64 :=
  if assessment = PredictionAssessment.confirmed.text then some oneFloat
  else if assessment = PredictionAssessment.partiallyConfirmed.text then some halfFloat
  else if assessment = PredictionAssessment.contradicted.text then some .zero
  else none

structure CalibrationSample where
  confidence : Binary64
  empiricalScore : Binary64

/-- The part of `calibration_samples` after its reads: the samples, and how many latest outcomes are
indeterminate. -/
def calibrate (predictions outcomes : List CognitionRow) :
    Except Exc (List CalibrationSample × ℕ) := do
  let known ← s.predictionConfidence predictions
  let latest := (latestOutcomes py (known.rows.map Prod.fst) outcomes).rows.map Prod.snd
  pure (latest.filterMap fun row => do
      let score ← empiricalScore (row.text py "assessment")
      let confidence ← known.find? (row.text py "prediction_id")
      pure ⟨confidence.2, score⟩,
    latest.countP fun row => row.text py "assessment" = PredictionAssessment.indeterminate.text)

/-- `calibration_samples`. -/
def calibrationSamples (limit : ℤ) (filters : CognitionFilters) :
    Except Exc (List CalibrationSample × ℕ × Bool) := do
  require (1 ≤ limit ∧ limit ≤ 10000)
    (.valueError "calibration sample limit must be between 1 and 10000")
  let predictions ← s.scrollCognition .prediction limit.toNat filters
  let outcomes ← s.scrollCognition .outcome limit.toNat filters
  let (samples, excludedIndeterminate) ← s.calibrate predictions outcomes
  pure (samples, excludedIndeterminate, reachesLimit limit predictions outcomes)

/-! ### Pending predictions -/

structure PendingPrediction where
  predictionId : Uuid
  eventTime : Instant
  expectedOutcome : String
  confidence : Binary64
  action : Option String
  sessionId : String
  channel : Option String
  agent : Option String
  project : Option String
  topic : Option String
  strategyTags : List String
  correlationId : Option String

variable (py) in
/-- `str(cognition[key])` when the value is not `None`. -/
def optionalText (key : String) (row : CognitionRow) : Option String :=
  match row.cognition.lookup key with
  | none | some .null => none
  | some v            => some (pyStr py v)

/-- `list(cognition.get("strategy_tags") or [])`, which has to be a list of texts. -/
def strategyTags (row : CognitionRow) : Except Exc (List String) :=
  match (row.cognition.lookup "strategy_tags").filter fun v => !isFalsy v with
  | none              => .ok []
  | some (.str s)     => .ok (s.toList.map String.singleton)
  | some (.obj items) => .ok (items.map Prod.fst)
  | some (.arr vs)    => vs.mapM fun
    | .str tag => .ok tag
    | _        => .error (.valueError "strategy_tags: Input should be a valid string")
  | some _            => .error (.typeError "strategy_tags: object is not iterable")

/-- The constructor call of `PendingPrediction`. -/
def pendingPrediction (row : CognitionRow) : Except Exc PendingPrediction := do
  let expected ← orRaise (row.cognition.lookup "expected_outcome") (.keyError "expected_outcome")
  let confidence ← orRaise (row.cognition.lookup "confidence") (.keyError "confidence")
  let confidence ← toFloat s.floats confidence
  let strategyTags ← strategyTags row
  pure
    { predictionId := row.record.id
      eventTime := row.record.eventTime
      expectedOutcome := pyStr py expected
      confidence
      action := optionalText py "action" row
      sessionId := row.record.sessionId
      channel := row.record.channel
      agent := row.record.agent
      project := row.record.project
      topic := row.record.topic
      strategyTags
      correlationId := optionalText py "correlation_id" row }

structure PendingPredictionList where
  items : List PendingPrediction
  returned : ℕ
  mayBeIncomplete : Bool
  scanLimit : ℤ
  filters : List (String × String)

variable (py) in
/-- The ids that outcomes name. -/
def resolvedIds (outcomes : List CognitionRow) : List String :=
  outcomes.filterMap fun row =>
    ((row.cognition.lookup "prediction_id").filter fun v => !isFalsy v).map (pyStr py)

/-- The predictions without an outcome, in the order of their times and ids. -/
def pendingItems (predictions outcomes : List CognitionRow) :
    Except Exc (List PendingPrediction) := do
  let items ← (predictions.filter fun row => row.id ∉ resolvedIds py outcomes).mapM
    s.pendingPrediction
  pure (items.insertionSort fun a b =>
    a.eventTime < b.eventTime ∨ a.eventTime = b.eventTime ∧ a.predictionId.text ≤ b.predictionId.text)

/-- `pending`. -/
def pending (limit : ℤ) (filters : CognitionFilters) (scanLimit : ℤ) :
    Except Exc PendingPredictionList := do
  require (1 ≤ limit ∧ limit ≤ 1000)
    (.valueError "prediction pending limit must be between 1 and 1000")
  require (1 ≤ scanLimit ∧ scanLimit ≤ 10000)
    (.valueError "prediction pending scan limit must be between 1 and 10000")
  let predictions ← s.scrollCognition .prediction scanLimit.toNat filters
  let outcomes ← s.scrollCognition .outcome scanLimit.toNat filters
  let items ← s.pendingItems predictions outcomes
  let selected := items.take limit.toNat
  pure
    { items := selected
      returned := selected.length
      mayBeIncomplete := limit < items.length ∨ reachesLimit scanLimit predictions outcomes = true
      scanLimit
      filters := filters.items }

end PredictionLearning

end CyberBrain.Cognition
