import CyberBrain.Cognition.Prediction
import CyberBrain.Foundation.PythonPrinting
import CyberBrain.Memory.Service

/-!
# Recording predictions

`record_prediction` stores a prediction as an episode. With a correlation id, the id of the episode
is that of the attribution and the correlation id, so that a retry finds what an earlier call stored.
-/

namespace CyberBrain.Cognition

open Knowledge (Service isFalsy pyStr)
open Memory Python Relations Schemas Tenancy

variable {py : Runtime}

/-! ### Input -/

/-- `PredictionInput`. -/
structure PredictionInput where
  expectedOutcome : Option String
  confidence : Confidence
  action : Option String
  rationale : Option String
  strategyTags : List String
  correlationId : Option String
  deriving DecidableEq

/-- `_strip_text`: a blank text is none. -/
def stripText (value : String) : Option String :=
  if strip value = "" then none else some (strip value)

/-- `_normalize_strategy_tags`. -/
def normalizeStrategyTags (tags : List String) : List String :=
  ((tags.map strip).filter (· ≠ "")).eraseDups

/-- The arguments of `record_prediction`. -/
structure PredictionArgs where
  expectedOutcome : String
  confidence : Binary64
  sessionId : String
  eventTime : Instant
  action : Option String := none
  rationale : Option String := none
  channel : Option String := none
  agent : Option String := none
  project : Option String := none
  topic : Option String := none
  identityTrust : IdentityTrust := .unspecified
  strategyTags : List String := []
  keywords : List String := []
  importance : Option String := none
  correlationId : Option String := none

/-- A text with a bounded length. -/
def checkLength (name : String) (limit : ℕ) (value : Option String) : Except Exc Unit :=
  require (∀ s ∈ value, s.length ≤ limit) (.valueError (name ++ ": String is too long"))

def checkConfidence (x : Binary64) : Except Exc Confidence :=
  if h : 0 ≤ x.value ∧ x.value ≤ 1 then .ok ⟨x, h⟩
  else .error (.valueError "confidence: Input should be between 0 and 1")

/-- The constructor call of `PredictionInput`. -/
def PredictionArgs.input (args : PredictionArgs) : Except Exc PredictionInput := do
  require (1 ≤ args.expectedOutcome.length)
    (.valueError "expected_outcome: String should have at least 1 character")
  checkLength "expected_outcome" 2000 (some args.expectedOutcome)
  let confidence ← checkConfidence args.confidence
  checkLength "action" 1000 args.action
  checkLength "rationale" 2000 args.rationale
  require (args.strategyTags.length ≤ 16) (.valueError "strategy_tags: List is too long")
  checkLength "correlation_id" 256 args.correlationId
  pure
    { expectedOutcome := stripText args.expectedOutcome
      confidence
      action := args.action.bind stripText
      rationale := args.rationale.bind stripText
      strategyTags := normalizeStrategyTags args.strategyTags
      correlationId := args.correlationId.bind stripText }

/-! ### Identity -/

/-- What the id of a correlated prediction is made of: its attribution and its correlation id. -/
@[ext] structure PredictionKey extends IdentityValues where
  correlationId : String
  deriving DecidableEq

namespace PredictionKey

variable (py) in
/-- The name that `uuid5` hashes, with the JSON text of `scope_key`. -/
def name (key : PredictionKey) : String :=
  "cyberbrain:prediction:v2:" ++ String.ofList ((jsonDialect py).print (.arr
    (IdentityDimension.order.map (fun d => Json.ofText? (key.toIdentityValues.get d)) ++
      [.str key.correlationId])))

lemma ofText?_injective : Function.Injective Json.ofText? := by
  intro s t h
  cases s <;> cases t <;> cases h <;> rfl

/-- The name determines the key. -/
theorem name_injective : Function.Injective (name py) := by
  intro a b h
  have htext := (String.append_right_inj _).mp h
  have hprint := (jsonDialect py).print_injective (String.ofList_injective htext)
  simp only [IdentityDimension.order, List.map_cons, List.map_nil, List.cons_append,
    List.nil_append, Json.arr.injEq, List.cons.injEq, Json.str.injEq, and_true] at hprint
  obtain ⟨htenant, huser, hagent, hproject, hsession, hcorrelation⟩ := hprint
  exact PredictionKey.ext (ofText?_injective htenant) (ofText?_injective huser)
    (ofText?_injective hagent) (ofText?_injective hproject) (ofText?_injective hsession)
    hcorrelation

end PredictionKey

/-! ### Calls -/

variable (py) in
/-- A call of `record_prediction`: its caller and arguments, the id that it draws and its time. -/
structure PredictionCall extends PredictionArgs where
  bound : Option (CallerAuthority py) := none
  freshId : Uuid
  now : Instant

/-- What a call has computed when it comes to its guard. -/
structure PreparedPrediction where
  input : PredictionInput
  attribution : IdentityValues
  id : Uuid
  deriving DecidableEq

variable (py) in
/-- The collaborators of the service: the embedding and the scanner of its memory, `uuid5` in the URL
namespace, and the floats. -/
structure PredictionRecorder where
  memory : Service
  uuid5 : String → Uuid
  floats : FloatOperations

namespace PredictionRecorder

variable (recorder : PredictionRecorder)

/-- The id of a correlated prediction. -/
def predictionId (py : Runtime) (key : PredictionKey) : Uuid := recorder.uuid5 (key.name py)

/-- The part of `record_prediction` before its guard. -/
def prepare (call : PredictionCall py) : Except Exc PreparedPrediction := do
  let input ← call.input
  let attribution ← attributionOf call.bound .memoryWrite
    { agent := call.agent, project := call.project, sessionId := some call.sessionId }
  let sessionId ← validateSessionId attribution.sessionId
  let attribution := { attribution with sessionId := some sessionId }
  pure
    { input, attribution
      id := match input.correlationId with
        | some correlationId => recorder.predictionId py { attribution with correlationId }
        | none               => call.freshId }

/-! ### Retries -/

/-- The `cognition` context of a record, or raise `e`. -/
def cognitionOf (record : EpisodeRecord) (e : Exc) : Except Exc Context :=
  match record.context.lookup "cognition" with
  | some (.obj cognition) => .ok cognition
  | _                     => .error e

/-- The text under a key. -/
def textOf (key : String) (cognition : Context) : Option String :=
  match cognition.lookup key with
  | some (.str s) => some s
  | _             => none

/-- The conditions on the attribution of a retry. -/
def retryConditions (attribution : IdentityValues) : Filter :=
  attribution.items.filterMap fun kv => kv.2.map fun v => .field (.matchValue kv.1 (.str v))

/-- The point that the retry lookup of a call finds. -/
def lookup (call : PredictionCall py) (p : PreparedPrediction)
    (points : RelationPoints EpisodeRecord) : Option (RelationPoint EpisodeRecord) :=
  match call.bound with
  | none   => points.find? p.id
  | some _ => (points.find? p.id).filter fun point =>
    (retryConditions p.attribution).accepts (point.fields episodeSchema)

variable (py) in
/-- `_prediction_cognition`. -/
def predictionCognition (record : EpisodeRecord) : Except Exc Context := do
  let notPrediction := Exc.valueError ("episode is not a prediction: " ++ record.id.text)
  let cognition ← cognitionOf record notPrediction
  let row : CognitionRow := ⟨record, cognition⟩
  require (textOf "kind" cognition = some CognitionSource.prediction.kind) notPrediction
  require (row.text py "prediction_id" = record.id.text)
    (.valueError "prediction provenance id does not match episode id")
  require (strip (row.text py "expected_outcome") ≠ "")
    (.valueError "prediction is missing expected_outcome")
  let invalid := Exc.valueError "prediction confidence is invalid"
  let value ← orRaise (cognition.lookup "confidence") invalid
  let confidence ← number recorder.floats value
  require (∃ x ∈ confidence, 0 ≤ x.value ∧ x.value ≤ 1) invalid
  pure cognition

variable (py) in
/-- What a retry does with the point that it finds. -/
def returnStored (p : PreparedPrediction) (point : RelationPoint EpisodeRecord) :
    Except Exc EpisodeRecord :=
  match point.payload with
  | .invalid _ _ => .error (.valueError "payload is not a valid episode")
  | .dump record => do
    let cognition ← recorder.predictionCognition py record
    require (episodeIdentity record = p.attribution ∧
        textOf "correlation_id" cognition = p.input.correlationId ∧ record.id = p.id ∧
        record.source = some CognitionSource.prediction.text)
      (.valueError "prediction retry identity or provenance mismatch")
    pure record

/-- The correlation id of a record. -/
def correlationOf (record : EpisodeRecord) : Option String :=
  match record.context.lookup "cognition" with
  | some (.obj cognition) => textOf "correlation_id" cognition
  | _                     => none

/-! ### New predictions -/

/-- The `cognition` context of a prediction. -/
def cognition (p : PreparedPrediction) : Context :=
  [("kind", .str CognitionSource.prediction.kind), ("prediction_id", .str p.id.text),
    ("expected_outcome", Json.ofText? p.input.expectedOutcome),
    ("confidence", .float p.input.confidence.val)] ++
  p.input.action.toList.map (fun action => ("action", .str action)) ++
  p.input.rationale.toList.map (fun rationale => ("rationale", .str rationale)) ++
  (if p.input.strategyTags = [] then []
    else [("strategy_tags", .arr (p.input.strategyTags.map .str))]) ++
  p.input.correlationId.toList.map fun correlationId => ("correlation_id", .str correlationId)

/-- The text of a prediction. -/
def content (input : PredictionInput) : String :=
  let expected := input.expectedOutcome.getD "None"
  match input.action with
  | some action => "Prediction for " ++ action ++ ": " ++ expected
  | none        => "Prediction: " ++ expected

/-- The arguments that `record_prediction` passes to the memory. -/
def memoryArgs (call : PredictionCall py) (p : PreparedPrediction) : MemoryArgs where
  toIdentityValues := p.attribution
  content := content p.input
  eventTime := call.eventTime
  channel := call.channel
  topic := call.topic
  identityTrust := call.identityTrust
  keywords := call.keywords
  importance := call.importance
  source := some CognitionSource.prediction.text
  context := [("cognition", .obj (cognition p))]
  pointId := p.id

/-- The episode that a call stores. -/
def newRecord (call : PredictionCall py) (p : PreparedPrediction) : Except Exc EpisodeRecord :=
  buildEpisode recorder.memory call.bound (memoryArgs call p) call.now

/-- `record_prediction`, by a caller that nothing interrupts. -/
def recordPrediction (call : PredictionCall py) (points : RelationPoints EpisodeRecord) :
    Except Exc (EpisodeRecord × RelationPoints EpisodeRecord) := do
  let p ← recorder.prepare call
  match p.input.correlationId.bind fun _ => lookup call p points with
  | some point => do
    let record ← recorder.returnStored py p point
    pure (record, points)
  | none       => do
    let record ← recorder.newRecord call p
    pure (record, points.upsert ⟨record.id, .dump record⟩)

/-! ### What a call identifies -/

/-- The key of a correlated call. -/
def key (p : PreparedPrediction) (correlationId : String) : PredictionKey :=
  { p.attribution with correlationId }

/-- A record is the prediction of a key. -/
structure Identifies (py : Runtime) (key : PredictionKey) (r : EpisodeRecord) : Prop where
  id : r.id = recorder.predictionId py key
  identity : episodeIdentity r = key.toIdentityValues
  correlation : correlationOf r = some key.correlationId
  source : r.source = some CognitionSource.prediction.text

instance (py : Runtime) (key : PredictionKey) (r : EpisodeRecord) :
    Decidable (recorder.Identifies py key r) :=
  decidable_of_iff (r.id = recorder.predictionId py key ∧ episodeIdentity r = key.toIdentityValues ∧
      correlationOf r = some key.correlationId ∧ r.source = some CognitionSource.prediction.text)
    ⟨fun h => ⟨h.1, h.2.1, h.2.2.1, h.2.2.2⟩, fun h => ⟨h.id, h.identity, h.correlation, h.source⟩⟩

variable {recorder} in
/-- A record is the prediction of one key at most. -/
lemma Identifies.eq {key key' : PredictionKey} {r : EpisodeRecord}
    (h : recorder.Identifies py key r) (h' : recorder.Identifies py key' r) : key = key' := by
  have hidentity := h.identity.symm.trans h'.identity
  exact PredictionKey.ext (congrArg (·.tenant) hidentity) (congrArg (·.user) hidentity)
    (congrArg (·.agent) hidentity) (congrArg (·.project) hidentity)
    (congrArg (·.sessionId) hidentity)
    (Option.some.inj (h.correlation.symm.trans h'.correlation))

section Identifies

variable {recorder} {call : PredictionCall py} {p : PreparedPrediction} {correlationId : String}
  {points : RelationPoints EpisodeRecord} {point : RelationPoint EpisodeRecord} {r : EpisodeRecord}

lemma prepare_id (h : recorder.prepare call = .ok p)
    (hcorrelation : p.input.correlationId = some correlationId) :
    p.id = recorder.predictionId py (key p correlationId) := by
  obtain ⟨input, -, h⟩ := bind_eq_ok.mp h
  obtain ⟨attribution, -, h⟩ := bind_eq_ok.mp h
  obtain ⟨sessionId, -, h⟩ := bind_eq_ok.mp h
  cases h
  change input.correlationId = some correlationId at hcorrelation
  simp only [hcorrelation]
  rfl

lemma validateSessionId_eq_ok {value : Option String} {s : String} :
    validateSessionId value = .ok s ↔ ∃ v, value = some v ∧ strip v ≠ "" ∧ strip v = s := by
  rw [validateSessionId, bind_eq_ok]
  refine exists_congr fun v => and_congr orRaise_eq_ok ?_
  rw [bind_eq_ok]
  constructor
  · rintro ⟨_, hne, h⟩
    exact ⟨require_eq_ok.mp hne, Except.ok.inj h⟩
  · rintro ⟨hne, rfl⟩
    exact ⟨(), require_eq_ok.mpr hne, rfl⟩

/-- The memory attributes the episode of a call as the call itself does. -/
lemma prepare_stable (h : recorder.prepare call = .ok p) {values : IdentityValues}
    (hvalues : attributionOf call.bound .memoryWrite p.attribution = .ok values) :
    values = p.attribution ∧ ∃ s, p.attribution.sessionId = some s ∧ strip s = s := by
  obtain ⟨input, -, h⟩ := bind_eq_ok.mp h
  obtain ⟨attribution, hattribution, h⟩ := bind_eq_ok.mp h
  obtain ⟨sessionId, hsession, h⟩ := bind_eq_ok.mp h
  cases h
  obtain ⟨v, hv, hne, rfl⟩ := validateSessionId_eq_ok.mp hsession
  refine ⟨?_, strip v, rfl, strip_strip v⟩
  cases hbound : call.bound with
  | none =>
    rw [hbound, attributionOf_unbound] at hvalues
    exact (Except.ok.inj hvalues).symm
  | some caller =>
    -- the session of a bound caller is canonical, so that nothing is stripped
    have hnormalized : Normalized py v :=
      attributionOf_canonical hbound rfl hattribution .session v hv
    have hstrip : strip v = v := by
      have heq := eq_of_normalizeText hnormalized
      rw [heq, strip_strip]
    have hsame : ({ attribution with sessionId := some (strip v) } : IdentityValues) =
        attribution := by
      rw [hstrip, ← hv]
    rw [hsame] at hvalues ⊢
    exact attributionOf_stable rfl hattribution hvalues

lemma textOf_correlation (p : PreparedPrediction) :
    textOf "correlation_id" (cognition p) = p.input.correlationId := by
  obtain ⟨⟨expected, confidence, action, rationale, tags, correlation⟩, attribution, id⟩ := p
  cases action <;> cases rationale <;> cases correlation <;> by_cases htags : tags = [] <;>
    simp [textOf, cognition, htags, List.lookup_cons]

lemma lookup_of_predictionCognition {record : EpisodeRecord} {cognition : Context}
    (h : recorder.predictionCognition py record = .ok cognition) :
    record.context.lookup "cognition" = some (.obj cognition) := by
  obtain ⟨found, hfound, h⟩ := bind_eq_ok.mp h
  obtain ⟨_, -, h⟩ := bind_eq_ok.mp h
  obtain ⟨_, -, h⟩ := bind_eq_ok.mp h
  obtain ⟨_, -, h⟩ := bind_eq_ok.mp h
  obtain ⟨_, -, h⟩ := bind_eq_ok.mp h
  obtain ⟨_, -, h⟩ := bind_eq_ok.mp h
  obtain ⟨_, -, h⟩ := bind_eq_ok.mp h
  cases h
  unfold cognitionOf at hfound
  split at hfound
  · rename_i hlookup
    rw [hlookup, Except.ok.inj hfound]
  · cases hfound

/-- The lookup of a retry admits the episodes with its attribution. -/
lemma retryConditions_accept {attribution : IdentityValues} (h : episodeIdentity r = attribution) :
    (retryConditions attribution).accepts (episodeSchema.fields r) = true := by
  subst h
  simp only [retryConditions, IdentityValues.items, Filter.accepts, List.all_eq_true,
    List.mem_filterMap, List.mem_map]
  rintro _ ⟨_, ⟨d, -, rfl⟩, hcondition⟩
  obtain ⟨v, hv, rfl⟩ := Option.map_eq_some_iff.mp hcondition
  dsimp only at hv ⊢
  have hfield : episodeSchema.fields r d.field = some (.str v) := by
    have hcarries : episodeSchema.fields r d.field = some (Json.ofText? ((episodeIdentity r).get d)) :=
      episode_carries r d
    rw [hcarries, hv, Json.ofText?]
  rw [Condition.holds, FieldCondition.holds_matchValue_str hfield, decide_eq_true rfl]

/-- A call stores the prediction of its key. -/
lemma newRecord_identifies (h : recorder.prepare call = .ok p)
    (hcorrelation : p.input.correlationId = some correlationId)
    (hr : recorder.newRecord call p = .ok r) :
    recorder.Identifies py (key p correlationId) r := by
  obtain ⟨values, hvalues, hr⟩ := bind_eq_ok.mp hr
  obtain ⟨normalized, -, hr⟩ := bind_eq_ok.mp hr
  obtain ⟨_, -, hr⟩ := bind_eq_ok.mp hr
  obtain ⟨sessionId, hsession, hr⟩ := bind_eq_ok.mp hr
  obtain ⟨digest, -, hr⟩ := bind_eq_ok.mp hr
  obtain ⟨_, -, hr⟩ := bind_eq_ok.mp hr
  cases hr
  obtain ⟨rfl, s, hs, hstrip⟩ := prepare_stable h hvalues
  obtain ⟨v, hv, -, rfl⟩ := validateSessionId_eq_ok.mp hsession
  rw [hs] at hv
  cases hv
  refine ⟨prepare_id h hcorrelation, ?_, ?_, rfl⟩
  · refine IdentityValues.ext rfl rfl rfl rfl ?_
    change some (strip s) = p.attribution.sessionId
    rw [hstrip, hs]
  · exact (textOf_correlation p).trans hcorrelation

/-- A retry returns a record of its key only. -/
lemma returnStored_identifies (h : recorder.prepare call = .ok p)
    (hcorrelation : p.input.correlationId = some correlationId)
    (hr : recorder.returnStored py p point = .ok r) :
    point.payload = .dump r ∧ recorder.Identifies py (key p correlationId) r := by
  unfold returnStored at hr
  split at hr
  · cases hr
  rename_i record hpayload
  obtain ⟨cognition, hcognition, hr⟩ := bind_eq_ok.mp hr
  obtain ⟨_, hchecks, hr⟩ := bind_eq_ok.mp hr
  cases hr
  obtain ⟨hidentity, htext, hid, hsource⟩ := require_eq_ok.mp hchecks
  refine ⟨hpayload, hid.trans (prepare_id h hcorrelation), hidentity, ?_, hsource⟩
  rw [correlationOf, lookup_of_predictionCognition hcognition]
  exact htext.trans hcorrelation

/-- The retry lookup of a call finds the prediction of its key. -/
lemma lookup_of_identifies (hpoint : points.find? p.id = some point)
    (hpayload : point.payload = .dump r) (hr : recorder.Identifies py (key p correlationId) r) : lookup call p points = some point := by
  unfold lookup
  split
  · exact hpoint
  · rw [hpoint, Option.filter_some, if_pos]
    rw [RelationPoint.fields, hpayload]
    exact retryConditions_accept hr.identity

lemma context_newRecord (hr : recorder.newRecord call p = .ok r) :
    r.context = [("cognition", .obj (cognition p))] := by
  obtain ⟨values, -, hr⟩ := bind_eq_ok.mp hr
  obtain ⟨normalized, -, hr⟩ := bind_eq_ok.mp hr
  obtain ⟨_, -, hr⟩ := bind_eq_ok.mp hr
  obtain ⟨sessionId, -, hr⟩ := bind_eq_ok.mp hr
  obtain ⟨digest, -, hr⟩ := bind_eq_ok.mp hr
  obtain ⟨_, -, hr⟩ := bind_eq_ok.mp hr
  cases hr
  rfl

lemma text_ne_empty (u : Uuid) : u.text ≠ "" := by
  intro h
  have := congrArg String.toList h
  simp [Uuid.text, Uuid.hyphenate] at this

lemma text_of_lookup {row : CognitionRow} {key s : String} (h : row.cognition.lookup key = some (.str s))
    (hs : s ≠ "") : row.text py key = s := by
  have hfalsy : isFalsy (.str s) = false := by simpa [isFalsy] using hs
  simp only [CognitionRow.text, h, Option.filter_some, hfalsy, Bool.not_false, if_true, pyStr]

/-- A stored prediction with an expected outcome is a valid one. -/
lemma predictionCognition_newRecord (hr : recorder.newRecord call p = .ok r) (hid : r.id = p.id)
    {expected : String} (hexpected : p.input.expectedOutcome = some expected)
    (hne : strip expected ≠ "") :
    recorder.predictionCognition py r = .ok (cognition p) := by
  have hcontext := context_newRecord hr
  have hlookup : (cognition p).lookup "expected_outcome" = some (.str expected) := by
    simp [cognition, hexpected, Json.ofText?, List.lookup_cons]
  have hne' : expected ≠ "" := by
    rintro rfl
    exact hne rfl
  refine bind_eq_ok.mpr ⟨cognition p, ?_, ?_⟩
  · rw [cognitionOf, hcontext]
    rfl
  refine bind_eq_ok.mpr ⟨(), require_eq_ok.mpr ?_, ?_⟩
  · rfl
  refine bind_eq_ok.mpr ⟨(), require_eq_ok.mpr ?_, ?_⟩
  · rw [hid]
    exact text_of_lookup rfl (text_ne_empty p.id)
  refine bind_eq_ok.mpr ⟨(), require_eq_ok.mpr ?_, ?_⟩
  · rw [text_of_lookup hlookup hne']
    exact hne
  refine bind_eq_ok.mpr ⟨.float p.input.confidence.val, orRaise_eq_ok.mpr ?_, ?_⟩
  · simp [cognition, List.lookup_cons]
  refine bind_eq_ok.mpr ⟨some p.input.confidence.val, rfl, ?_⟩
  exact bind_eq_ok.mpr ⟨(), require_eq_ok.mpr ⟨_, rfl, p.input.confidence.property⟩, rfl⟩

/-- A retry returns the prediction of its key that an earlier call has stored, whatever its other
arguments, unless the expected outcome of the earlier call is blank. -/
theorem returnStored_newRecord {first : PredictionCall py} {q : PreparedPrediction}
    (hfirst : recorder.prepare first = .ok p) (h : recorder.prepare call = .ok q)
    (hcorrelation : p.input.correlationId = some correlationId)
    (hcorrelation' : q.input.correlationId = some correlationId)
    (hattribution : q.attribution = p.attribution) {expected : String}
    (hexpected : p.input.expectedOutcome = some expected) (hne : strip expected ≠ "")
    (hr : recorder.newRecord first p = .ok r) (hpoint : points.find? p.id = some ⟨p.id, .dump r⟩) :
    ∃ point, lookup call q points = some point ∧ recorder.returnStored py q point = .ok r := by
  have hidentifies := newRecord_identifies hfirst hcorrelation hr
  have hid : r.id = p.id := hidentifies.id.trans (prepare_id hfirst hcorrelation).symm
  have hkey : key p correlationId = key q correlationId := by rw [key, key, hattribution]
  have hsame : q.id = p.id := by
    rw [prepare_id h hcorrelation', prepare_id hfirst hcorrelation, hkey]
  rw [← hsame] at hpoint
  refine ⟨_, lookup_of_identifies hpoint rfl (hkey ▸ hidentifies), ?_⟩
  refine bind_eq_ok.mpr ⟨_, predictionCognition_newRecord hr hid hexpected hne, ?_⟩
  refine bind_eq_ok.mpr ⟨(), require_eq_ok.mpr ⟨?_, ?_, ?_, hidentifies.source⟩, rfl⟩
  · exact hattribution ▸ hidentifies.identity
  · rw [textOf_correlation, hcorrelation, hcorrelation']
  · rw [hid, hsame]

end Identifies

end PredictionRecorder

end CyberBrain.Cognition
