import CyberBrain.Foundation.Double
import CyberBrain.Schemas.Models

/-!
# Lifecycle contracts

The signals about a record, the policy of the lifecycle and its decisions. What `__post_init__`
checks of a value is a field of its structure, and the check is the function that builds it.
-/

namespace CyberBrain.Lifecycle

open Python Schemas

/-- `LIFECYCLE_VERSION`. -/
def lifecycleVersion : String := "memory-lifecycle-v1"

inductive LifecycleDecisionKind
  | keepActive
  | suppress
  | remainSuppressed
  | reactivate
  deriving DecidableEq, Repr

inductive LifecycleReasonCode
  | explicitKeep
  | recent
  | frequentlyAccessed
  | highSalience
  | conceptLinked
  | unresolved
  | explicitRelevance
  | stale
  | neverAccessed
  | supersededOrContradicted
  | storagePressure
  | belowSuppressionThreshold
  | aboveReactivationThreshold
  deriving DecidableEq, Repr

/-! ### Signals -/

/-- The parts of the signals that need no check. -/
structure SignalFlags where
  lifecycleState : LifecycleState
  retentionDirective : RetentionDirective
  supersededOrContradicted : Bool := false
  conceptLinked : Bool := false
  unresolved : Bool := false
  explicitRelevance : Bool := false
  deriving DecidableEq, Repr

/-- The signals as they are passed in. -/
structure SignalValues extends SignalFlags where
  recordId : String
  ageDays : Double
  accessCount : ℤ
  daysSinceLastAccess : Option Double
  salienceScore : Double
  storagePressure : Double := .zero

/-- `LifecycleSignals`. -/
structure LifecycleSignals extends SignalFlags where
  recordId : String
  ageDays : Binary64
  accessCount : ℕ
  daysSinceLastAccess : Option Binary64
  salienceScore : Confidence
  storagePressure : Confidence
  recordId_ne_empty : strip recordId ≠ ""
  age_nonneg : 0 ≤ ageDays.value
  lastAccess_nonneg : ∀ d ∈ daysSinceLastAccess, 0 ≤ d.value

/-- A finite double, or raise. -/
def finite (x : Double) (message : String) : Except Exc Binary64 :=
  match x with
  | .finite x => .ok x
  | .inf _    => .error (.valueError message)
  | .nan      => .error (.valueError message)

/-- A double between 0 and 1, or raise. -/
def confidence (x : Binary64) (message : String) : Except Exc Confidence :=
  if h : 0 ≤ x.value ∧ x.value ≤ 1 then .ok ⟨x, h⟩ else .error (.valueError message)

/-- The check of `days_since_last_access`. -/
def lastAccess (d : Double) : Except Exc { d : Binary64 // 0 ≤ d.value } :=
  match d with
  | .finite x =>
    if h : 0 ≤ x.value then .ok ⟨x, h⟩
    else .error (.valueError "lifecycle days_since_last_access must be non-negative")
  | .inf _    => .error (.valueError "lifecycle days_since_last_access must be non-negative")
  | .nan      => .error (.valueError "lifecycle days_since_last_access must be non-negative")

lemma map_val_nonneg {d : Option { d : Binary64 // 0 ≤ d.value }} :
    ∀ x ∈ d.map (·.val), 0 ≤ x.value := by
  intro x hx
  obtain ⟨y, -, rfl⟩ := Option.mem_map.mp hx
  exact y.property

/-- `LifecycleSignals.__post_init__`. -/
def SignalValues.postInit (v : SignalValues) : Except Exc LifecycleSignals :=
  if hid : strip v.recordId = "" then
    .error (.valueError "lifecycle record_id must not be empty")
  else do
    let age ← finite v.ageDays "lifecycle age_days must be finite"
    let salience ← finite v.salienceScore "lifecycle salience_score must be finite"
    let pressure ← finite v.storagePressure "lifecycle storage_pressure must be finite"
    if hage : 0 ≤ age.value then
      let salience ← confidence salience "lifecycle salience_score must be within [0, 1]"
      let pressure ← confidence pressure "lifecycle storage_pressure must be within [0, 1]"
      require (0 ≤ v.accessCount) (.valueError "lifecycle access_count must not be negative")
      let days ← v.daysSinceLastAccess.mapM lastAccess
      pure
        { v.toSignalFlags with
          recordId := strip v.recordId
          ageDays := age
          accessCount := v.accessCount.toNat
          daysSinceLastAccess := days.map (·.val)
          salienceScore := salience
          storagePressure := pressure
          recordId_ne_empty := (strip_strip v.recordId).symm ▸ hid
          age_nonneg := hage
          lastAccess_nonneg := map_val_nonneg }
    else .error (.valueError "lifecycle age_days must not be negative")

/-! ### Policies -/

/-- The policy as it is passed in. -/
structure PolicyValues where
  suppressionThreshold : Double := .literal 0.35
  reactivationThreshold : Double := .literal 0.65
  recentDays : Double := .literal 30
  staleDays : Double := .literal 180
  frequentAccessCount : ℤ := 8
  deriving DecidableEq

/-- `LifecyclePolicy`. -/
structure LifecyclePolicy extends PolicyValues where
  thresholds : Double.zero < suppressionThreshold ∧
    suppressionThreshold < reactivationThreshold ∧ reactivationThreshold < Double.one
  windows : ¬ (recentDays ≤ Double.zero ∨ staleDays ≤ recentDays)
  frequent : 1 ≤ frequentAccessCount

/-- `LifecyclePolicy.__post_init__`. -/
def PolicyValues.postInit (v : PolicyValues) : Except Exc LifecyclePolicy :=
  if hthresholds : Double.zero < v.suppressionThreshold ∧
      v.suppressionThreshold < v.reactivationThreshold ∧ v.reactivationThreshold < Double.one then
    if hwindows : v.recentDays ≤ Double.zero ∨ v.staleDays ≤ v.recentDays then
      .error (.valueError "lifecycle stale_days must exceed recent_days")
    else if hfrequent : 1 ≤ v.frequentAccessCount then .ok ⟨v, hthresholds, hwindows, hfrequent⟩
    else .error (.valueError "lifecycle frequent_access_count must be positive")
  else .error (.valueError "lifecycle thresholds must satisfy 0 < suppress < reactivate < 1")

lemma defaults_valid (v : PolicyValues) (h : v = {}) :
    (Double.zero < v.suppressionThreshold ∧ v.suppressionThreshold < v.reactivationThreshold ∧
      v.reactivationThreshold < Double.one) ∧
    ¬ (v.recentDays ≤ Double.zero ∨ v.staleDays ≤ v.recentDays) ∧ 1 ≤ v.frequentAccessCount := by
  subst h
  decide +kernel

/-- `LifecyclePolicy()`. -/
def LifecyclePolicy.default : LifecyclePolicy :=
  ⟨{}, (defaults_valid {} rfl).1, (defaults_valid {} rfl).2.1, (defaults_valid {} rfl).2.2⟩

/-- The defaults pass their own checks. -/
lemma postInit_default : PolicyValues.postInit {} = .ok .default := by
  have h := defaults_valid {} rfl
  unfold PolicyValues.postInit
  rw [dif_pos h.1, dif_neg h.2.1, dif_pos h.2.2]
  rfl

/-! ### Decisions -/

/-- `LifecycleDecision`. -/
structure LifecycleDecision where
  recordId : String
  decision : LifecycleDecisionKind
  retentionScore : Confidence
  reasonCodes : List LifecycleReasonCode
  version : String := lifecycleVersion
  reasons_ne_nil : reasonCodes ≠ []
  reasons_nodup : reasonCodes.Nodup

/-- The construction of a `LifecycleDecision`. -/
def LifecycleDecision.make (recordId : String) (decision : LifecycleDecisionKind) (score : Double)
    (reasons : List LifecycleReasonCode) : Except Exc LifecycleDecision := do
  let score ← finite score "lifecycle retention_score must be within [0, 1]"
  let score ← confidence score "lifecycle retention_score must be within [0, 1]"
  if hne : reasons = [] then .error (.valueError "lifecycle decision requires reason codes")
  else if hnodup : reasons.Nodup then
    pure
      { recordId
        decision
        retentionScore := score
        reasonCodes := reasons
        reasons_ne_nil := hne
        reasons_nodup := hnodup }
  else .error (.valueError "lifecycle decision reason codes must be unique")

end CyberBrain.Lifecycle
