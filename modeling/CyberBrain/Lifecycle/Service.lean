import CyberBrain.Lifecycle.Evaluator

/-!
# Shadow evaluation

A batch of stored records is evaluated without a write. The first record that gets no decision ends
the batch.
-/

namespace CyberBrain.Lifecycle

open Python Schemas

/-- What `evaluate_payload` reads of a payload, as it decodes it. -/
structure LifecyclePayload where
  createdAt : Option Instant
  eventTime : Option Instant := none
  lastAccessedAt : Option Instant := none
  lifecycleState : LifecycleState := .active
  retentionDirective : RetentionDirective := .default
  status : Option KnowledgeStatus := none
  /-- `context.cognition.assessment` is `contradicted`. -/
  contradicted : Bool := false
  accessCount : ℤ := 0

/-- The signals that are not in the payload. -/
structure SignalOverrides where
  salienceScore : Double := .zero
  conceptLinked : Bool := false
  unresolved : Bool := false
  storagePressure : Double := .zero
  explicitRelevance : Bool := false

/-- A point of a batch. -/
structure ShadowPoint where
  id : String
  payload : LifecyclePayload
  overrides : SignalOverrides := {}

/-- `max(0.0, (now - t).total_seconds() / 86400)`. -/
def daysSince (now t : Instant) : Double :=
  let seconds := Double.literal ((now.micros - t.micros : ℚ) / 1000000)
  Double.zero.max (seconds.quotient (.literal 86400))

def LifecyclePayload.supersededOrContradicted (payload : LifecyclePayload) : Bool :=
  payload.status = some .superseded ∨ payload.status = some .deprecated ∨
    payload.status = some .rejected ∨ payload.contradicted

/-- The signals of `evaluate_payload`. -/
def ShadowPoint.signals (point : ShadowPoint) (now : Instant) : Except Exc LifecycleSignals := do
  let payload := point.payload
  let created ← orRaise (payload.createdAt <|> payload.eventTime)
    (.valueError "lifecycle payload requires created_at or event_time")
  SignalValues.postInit
    { recordId := point.id
      lifecycleState := payload.lifecycleState
      retentionDirective := payload.retentionDirective
      ageDays := daysSince now created
      accessCount := payload.accessCount
      daysSinceLastAccess := payload.lastAccessedAt.map (daysSince now)
      salienceScore := point.overrides.salienceScore
      supersededOrContradicted := payload.supersededOrContradicted
      conceptLinked := point.overrides.conceptLinked
      unresolved := point.overrides.unresolved
      storagePressure := point.overrides.storagePressure
      explicitRelevance := point.overrides.explicitRelevance }

structure LifecycleShadowReport where
  scanned : ℕ
  keepActive : ℕ
  suppress : ℕ
  remainSuppressed : ℕ
  reactivate : ℕ
  decisions : List LifecycleDecision

def LifecycleShadowReport.of (decisions : List LifecycleDecision) : LifecycleShadowReport :=
  let count (kind : LifecycleDecisionKind) := decisions.countP fun d => d.decision = kind
  { scanned := decisions.length
    keepActive := count .keepActive
    suppress := count .suppress
    remainSuppressed := count .remainSuppressed
    reactivate := count .reactivate
    decisions }

section Shadow

variable (p : LifecyclePolicy) (m : Logarithm) (now : Instant)

/-- `evaluate_payload`. -/
def evaluatePayload (point : ShadowPoint) : Except Exc LifecycleDecision := do
  let signals ← point.signals now
  p.evaluate m signals

/-- `MemoryLifecycleService.shadow`. -/
def shadow (points : List ShadowPoint) : Except Exc LifecycleShadowReport := do
  let decisions ← points.mapM (evaluatePayload p m now)
  pure (.of decisions)

variable {p m now}

lemma exists_shadow {points : List ShadowPoint} :
    (∃ report, shadow p m now points = .ok report) ↔
      ∀ point ∈ points, ∃ s, point.signals now = .ok s ∧ Decides p m s := by
  have hpoint (point : ShadowPoint) : (∃ d, evaluatePayload p m now point = .ok d) ↔
      ∃ s, point.signals now = .ok s ∧ Decides p m s := by
    simp only [evaluatePayload, bind_eq_ok, ← exists_evaluate]
    exact ⟨fun ⟨d, s, hs, h⟩ => ⟨s, hs, d, h⟩, fun ⟨s, hs, d, h⟩ => ⟨d, s, hs, h⟩⟩
  simp only [← hpoint, ← exists_mapM]
  constructor
  · rintro ⟨report, h⟩
    obtain ⟨decisions, h, -⟩ := bind_eq_ok.mp h
    exact ⟨decisions, h⟩
  · rintro ⟨decisions, h⟩
    exact ⟨_, bind_eq_ok.mpr ⟨decisions, h, rfl⟩⟩

end Shadow

/-- A record gets a decision unless a number is out of range, or no test of its signals passes and
it keeps its state on its score alone. A batch of which the signals are valid gets a report unless
a record gets no decision. -/
theorem evaluation_total_iff (p : LifecyclePolicy) (m : Logarithm) :
    (∀ s, (∃ d, p.evaluate m s = .ok d) ↔ Decides p m s) ∧
    ∀ now points, (∃ report, shadow p m now points = .ok report) ↔
      ∀ point ∈ points, ∃ s, point.signals now = .ok s ∧ Decides p m s :=
  ⟨fun _ => exists_evaluate, fun _ _ => exists_shadow⟩

section Sample

/-- A double that is not negative. -/
def double (q : ℚ) : Binary64 := (Binary64.nearest false q).getD .zero

/-- The values of `math.log1p` at 0 and 8. -/
def sampleLog1p (x : Binary64) : Binary64 :=
  if x.value = 0 then .zero else double 2.1972245773362196

lemma sampleLog1p_pos (x : Binary64) (h : 1 ≤ x.value) : 0 < (sampleLog1p x).value := by
  rw [sampleLog1p, if_neg (by linarith)]
  decide +kernel

def sampleLogarithm : Logarithm := ⟨sampleLog1p, sampleLog1p_pos⟩

lemma sampleId_ne_empty : strip "record" ≠ "" := by decide

lemma sampleAge_nonneg : 0 ≤ (double 90).value := by decide +kernel

lemma sampleAccess_nonneg (d : Binary64) (h : d ∈ some (double 45)) : 0 ≤ d.value := by
  obtain rfl := Option.some.inj h
  decide +kernel

lemma sampleSalience_mem : 0 ≤ (double 0.5).value ∧ (double 0.5).value ≤ 1 := by decide +kernel

/-- A record of 90 days, read 45 days ago, of which no signal is high. -/
def midRange : LifecycleSignals where
  lifecycleState := .active
  retentionDirective := .default
  recordId := "record"
  ageDays := double 90
  accessCount := 0
  daysSinceLastAccess := some (double 45)
  salienceScore := ⟨double 0.5, sampleSalience_mem⟩
  storagePressure := ⟨.zero, Binary64.value_zero_mem⟩
  recordId_ne_empty := sampleId_ne_empty
  age_nonneg := sampleAge_nonneg
  lastAccess_nonneg := sampleAccess_nonneg

/-- It stays active without a reason code. -/
theorem midRange_raises : LifecyclePolicy.default.evaluate sampleLogarithm midRange =
    .error (.valueError "lifecycle decision requires reason codes") := by
  have h : exception? (LifecyclePolicy.default.evaluate sampleLogarithm midRange) =
      some (.valueError "lifecycle decision requires reason codes") := by
    decide +kernel
  exact exception?_eq_some.mp h

end Sample

end CyberBrain.Lifecycle
