import CyberBrain.Cognition.Prediction

/-!
# Evidence of the self-model

`extract_self_model_evidence` joins the predictions of an agent with their outcomes. It leaves out
the outcomes that do not count and resolves a prediction by the latest one of the others.
-/

namespace CyberBrain.SelfModel

open Cognition Python Relations Schemas Tenancy
open Knowledge (isFalsy pyStr)

variable {py : Runtime}

/-! ### Samples -/

/-- `_ELIGIBLE_ASSESSMENTS`. -/
def eligibleAssessments : List PredictionAssessment := [.confirmed, .partiallyConfirmed, .contradicted]

/-- `SelfModelEvidenceSample`. -/
structure SelfModelEvidenceSample where
  predictionId : String
  outcomeId : String
  agentId : String
  sessionId : String
  project : Option String
  topic : Option String
  assessment : String
  predictionConfidence : Binary64
  predictionError : Option Binary64
  identityTrust : IdentityTrust
  strategyTags : List String

namespace SelfModelEvidenceSample

/-- `str(value).strip()`, which has to be a text. -/
def nonempty (name value : String) : Except Exc String := do
  require (strip value ≠ "") (.valueError ("self-model evidence " ++ name ++ " must not be empty"))
  pure (strip value)

/-- A number between 0 and 1. -/
def inUnitInterval (name : String) (x : Binary64) : Except Exc Unit :=
  require (0 ≤ x.value ∧ x.value ≤ 1)
    (.valueError ("self-model evidence " ++ name ++ " must be within [0, 1]"))

/-- `tuple(sorted({tag.strip() for tag in tags if tag.strip()}))`. -/
def cleanTags (tags : List String) : List String :=
  (FrozenSet.ofList ((tags.map strip).filter (· ≠ ""))).sorted

variable (py) in
/-- `__post_init__`. -/
def validate (sample : SelfModelEvidenceSample) : Except Exc SelfModelEvidenceSample := do
  let predictionId ← nonempty "prediction_id" sample.predictionId
  let outcomeId ← nonempty "outcome_id" sample.outcomeId
  let sessionId ← nonempty "session_id" sample.sessionId
  let assessment ← nonempty "assessment" sample.assessment
  let agentId ← normalizeText py sample.agentId
  inUnitInterval "prediction_confidence" sample.predictionConfidence
  forM sample.predictionError.toList (inUnitInterval "prediction_error")
  pure { sample with
    predictionId, outcomeId, sessionId, assessment, agentId
    strategyTags := cleanTags sample.strategyTags }

/-- `trusted`. -/
def trusted (sample : SelfModelEvidenceSample) : Bool := sample.identityTrust = .authenticated

/-- `evidence_ids`. -/
def evidenceIds (sample : SelfModelEvidenceSample) : List String :=
  [sample.predictionId, sample.outcomeId]

end SelfModelEvidenceSample

/-- `SelfModelEvidenceDiversity`. -/
structure SelfModelEvidenceDiversity where
  distinctSessions : ℕ
  distinctProjects : ℕ
  distinctTopics : ℕ

/-- `SelfModelEvidenceSet`. -/
structure SelfModelEvidenceSet where
  agentId : String
  samples : List SelfModelEvidenceSample
  resolvedPairs : ℕ
  trustedResolvedPairs : ℕ
  diversity : SelfModelEvidenceDiversity
  evidenceIds : List String
  duplicateOutcomes : ℕ
  invalidRecords : ℕ
  mayBeIncomplete : Bool

/-! ### Rows -/

/-- The predictions and the outcomes among rows, by the id of the prediction, and how many rows are
invalid. -/
structure EvidenceRows where
  predictions : Table (Prod.fst : String × CognitionRow → String) := .empty _
  outcomes : Table (Prod.fst : String × List CognitionRow → String) := .empty _
  invalid : ℕ := 0

namespace EvidenceRows

/-- The outcomes of a prediction, in the order in which they were read. -/
def candidates (x : EvidenceRows) (predictionId : String) : List CognitionRow :=
  (x.outcomes.find? predictionId).elim [] Prod.snd

/-- `cognition.get("kind") == kind`. -/
def hasKind (source : CognitionSource) (row : CognitionRow) : Bool :=
  match row.cognition.lookup "kind" with
  | some (.str kind) => kind = source.kind
  | _                => false

variable (py) in
/-- The body of the loop over rows. -/
def read (x : EvidenceRows) (payload : Payload EpisodeRecord) : EvidenceRows :=
  match payload with
  | .invalid _ _ => { x with invalid := x.invalid + 1 }
  | .dump record =>
    match record.context.lookup "cognition" with
    | some (.obj cognition) =>
      let row : CognitionRow := ⟨record, cognition⟩
      let predictionId := strip (row.text py "prediction_id")
      if predictionId = "" then { x with invalid := x.invalid + 1 }
      else if hasKind .prediction row ∧ record.source = some CognitionSource.prediction.text then
        if row.id ≠ predictionId then { x with invalid := x.invalid + 1 }
        else { x with predictions := x.predictions.upsert (predictionId, row) }
      else if hasKind .outcome row ∧ record.source = some CognitionSource.outcome.text then
        { x with outcomes := x.outcomes.upsert (predictionId, x.candidates predictionId ++ [row]) }
      else x
    | _                     => x

end EvidenceRows

variable (py) in
/-- The loop over rows. -/
def readRows (payloads : List (Payload EpisodeRecord)) : EvidenceRows :=
  payloads.foldl (EvidenceRows.read py) {}

/-! ### Resolution -/

/-- What an outcome is to its prediction. -/
inductive Verdict
  | ineligible
  | invalid
  | valid
  deriving DecidableEq, Repr

/-- `_identity_matches`. -/
def identityMatches (prediction outcome : EpisodeRecord) : Prop :=
  prediction.sessionId = outcome.sessionId ∧ prediction.agent = outcome.agent ∧
    prediction.project = outcome.project ∧ prediction.topic = outcome.topic

instance (prediction outcome : EpisodeRecord) : Decidable (identityMatches prediction outcome) :=
  inferInstanceAs (Decidable (_ ∧ _ ∧ _ ∧ _))

/-- `cognition.get(key)`, as `==` compares it. -/
def valueOf (key : String) (row : CognitionRow) : PyValue :=
  (row.cognition.lookup key).elim .none Json.value

variable (py) in
/-- The body of the loop over the outcomes of a prediction. -/
def judge (prediction outcome : CognitionRow) : Verdict :=
  if outcome.text py "assessment" ∉ eligibleAssessments.map PredictionAssessment.text then
    .ineligible
  else if outcome.record.eventTime < prediction.record.eventTime then .invalid
  else if ¬ identityMatches prediction.record outcome.record then .invalid
  else if outcome.text py "expected_outcome" ≠ prediction.text py "expected_outcome" then .invalid
  else if valueOf "prediction_confidence" outcome ≠ valueOf "confidence" prediction then .invalid
  else .valid

variable (py) in
/-- The valid ones among the outcomes of a prediction. -/
def validOutcomes (x : EvidenceRows) (prediction : String × CognitionRow) : List CognitionRow :=
  (x.candidates prediction.1).filter fun outcome => judge py prediction.2 outcome = .valid

/-- The order of outcomes by time and id. -/
def earlier (a b : CognitionRow) : Prop :=
  a.record.eventTime < b.record.eventTime ∨
    a.record.eventTime = b.record.eventTime ∧ a.id ≤ b.id

instance : DecidableRel earlier := fun _ _ => inferInstanceAs (Decidable (_ ∨ _ ∧ _))

variable (py) in
/-- The outcome that resolves a prediction. -/
def resolvingOutcome (x : EvidenceRows) (prediction : String × CognitionRow) :
    Option CognitionRow :=
  ((validOutcomes py x prediction).insertionSort earlier).getLast?

/-- `_pair_identity_trust`. -/
def pairIdentityTrust (prediction outcome : EpisodeRecord) : IdentityTrust :=
  if prediction.identityTrust = .authenticated ∧ outcome.identityTrust = .authenticated then
    .authenticated
  else if prediction.identityTrust = .legacyUntrusted ∨ outcome.identityTrust = .legacyUntrusted then
    .legacyUntrusted
  else .unspecified

variable (py) in
/-- `_strategy_tags`. -/
def strategyTags (row : CognitionRow) : List String :=
  match row.cognition.lookup "strategy_tags" with
  | some (.arr vs) => SelfModelEvidenceSample.cleanTags (vs.map (pyStr py))
  | _              => []

/-- `_optional_float`. -/
def optionalFloat (floats : FloatOperations) : Option Json → Except Exc (Option Binary64)
  | none | some .null => .ok none
  | some v            =>
    match toFloat floats v with
    | .ok x                                => .ok (some x)
    | .error (.typeError _)
    | .error (.valueError _)               => .ok none
    | .error error                         => .error error

section Extract

variable (floats : FloatOperations)

variable (py) in
/-- The sample of a prediction and the outcome that resolves it. -/
def sampleOf (agent : String) (prediction : String × CognitionRow) (outcome : CognitionRow) :
    Except Exc SelfModelEvidenceSample := do
  let confidence ← orRaise (prediction.2.cognition.lookup "confidence") (.keyError "confidence")
  let confidence ← toFloat floats confidence
  let error ← optionalFloat floats (outcome.cognition.lookup "confidence_weighted_error")
  SelfModelEvidenceSample.validate py
    { predictionId := prediction.1
      outcomeId := outcome.id
      agentId := agent
      sessionId := prediction.2.record.sessionId
      project := prediction.2.record.project
      topic := prediction.2.record.topic
      assessment := outcome.text py "assessment"
      predictionConfidence := confidence
      predictionError := error
      identityTrust := pairIdentityTrust prediction.2.record outcome.record
      strategyTags := strategyTags py prediction.2 }

/-- What the turn of a prediction adds. -/
structure Resolution where
  samples : List SelfModelEvidenceSample := []
  duplicates : ℕ := 0
  invalid : ℕ := 0

variable (py) in
/-- The body of the loop over predictions. -/
def resolve (agent : String) (x : EvidenceRows) (prediction : String × CognitionRow) :
    Except Exc Resolution := do
  match prediction.2.record.agent with
  | none       => pure {}
  | some owner =>
    let owner ← normalizeText py owner
    if owner ≠ agent then pure {}
    else
      let invalid := (x.candidates prediction.1).countP fun outcome =>
        judge py prediction.2 outcome = .invalid
      match resolvingOutcome py x prediction with
      | none         => pure { invalid }
      | some outcome =>
        let sample ← sampleOf py floats agent prediction outcome
        pure { samples := [sample], duplicates := (validOutcomes py x prediction).length - 1, invalid }

/-- The order of samples by session, topic and prediction. -/
def sampleOrder (a b : SelfModelEvidenceSample) : Prop :=
  toLex (a.sessionId, toLex (a.topic.getD "", a.predictionId)) ≤
    toLex (b.sessionId, toLex (b.topic.getD "", b.predictionId))

instance : DecidableRel sampleOrder := fun a b =>
  inferInstanceAs (Decidable (toLex (a.sessionId, toLex (a.topic.getD "", a.predictionId)) ≤
    toLex (b.sessionId, toLex (b.topic.getD "", b.predictionId))))

/-- The texts that are there and not empty, once each. -/
def distinct (texts : List (Option String)) : ℕ :=
  ((texts.reduceOption.filter (· ≠ "")).dedup).length

variable (py) in
/-- `extract_self_model_evidence`. -/
def extractSelfModelEvidence (payloads : List (Payload EpisodeRecord)) (agentId : String)
    (mayBeIncomplete : Bool) : Except Exc SelfModelEvidenceSet := do
  let agent ← normalizeText py agentId
  let x := readRows py payloads
  let sorted := x.predictions.rows.insertionSort fun a b => a.1 ≤ b.1
  let resolutions ← sorted.mapM (resolve py floats agent x)
  let samples := (resolutions.flatMap (·.samples)).insertionSort sampleOrder
  let trusted := samples.filter (·.trusted)
  pure
    { agentId := agent
      samples
      resolvedPairs := samples.length
      trustedResolvedPairs := trusted.length
      diversity :=
        { distinctSessions := (trusted.map (·.sessionId)).dedup.length
          distinctProjects := distinct (trusted.map (·.project))
          distinctTopics := distinct (trusted.map (·.topic)) }
      evidenceIds := (samples.flatMap (·.evidenceIds)).eraseDups
      duplicateOutcomes := (resolutions.map (·.duplicates)).sum
      invalidRecords := x.invalid + (resolutions.map (·.invalid)).sum
      mayBeIncomplete }

end Extract

end CyberBrain.SelfModel
