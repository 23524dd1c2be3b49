import CyberBrain.Knowledge.Evolution
import CyberBrain.Relations.Partition
import CyberBrain.Tenancy.Attribution

/-!
# Memory

`MemoryService` stores episodes. Every episode carries the attribution of its caller.
-/

namespace CyberBrain.Memory

open Knowledge (Service scopedText)
open Python Relations Schemas Tenancy

variable {py : Runtime}

/-! ### Attribution -/

/-- Identity values by field. -/
def identityFields (values : IdentityValues) : Fields := fun key =>
  (values.items.lookup key).map Json.ofText?

/-- The identity values that fields carry. -/
def identityOf (fields : Fields) : IdentityValues where
  tenant := scopedText fields .tenant
  user := scopedText fields .user
  agent := scopedText fields .agent
  project := scopedText fields .project
  sessionId := scopedText fields .session

/-- `scoped_values` of identity values. -/
def attributionOf (bound : Option (CallerAuthority py)) (operation : TenancyOperation)
    (values : IdentityValues) : Except Exc IdentityValues := do
  let result ← scopedValues bound (identityFields values) operation
  pure (identityOf result)

section Attribution

variable {bound : Option (CallerAuthority py)} {operation : TenancyOperation}
  {values first second : IdentityValues}

lemma identityFields_field (values : IdentityValues) (d : IdentityDimension) :
    identityFields values d.field = some (Json.ofText? (values.get d)) := by
  cases d <;> rfl

lemma get_identityOf (fields : Fields) (d : IdentityDimension) :
    (identityOf fields).get d = scopedText fields d := by
  cases d <;> rfl

lemma scopedText_eq {fields : Fields} {d : IdentityDimension} {value : Option String}
    (h : fields d.field = some (Json.ofText? value)) : scopedText fields d = value := by
  rw [scopedText, h]
  cases value <;> rfl

lemma scopedText_eq_some {fields : Fields} {d : IdentityDimension} {v : String} :
    v ∈ scopedText fields d ↔ identityValue fields d = .str v := by
  rw [scopedText, identityValue]
  cases fields d.field with
  | none => simp
  | some value => cases value <;> simp

lemma identityOf_identityFields (values : IdentityValues) :
    identityOf (identityFields values) = values := by
  have hget (d : IdentityDimension) : (identityOf (identityFields values)).get d = values.get d := by
    rw [get_identityOf, scopedText_eq (identityFields_field values d)]
  exact IdentityValues.ext (hget .tenant) (hget .user) (hget .agent) (hget .project) (hget .session)

/-- An unbound call keeps the values that it passes. -/
lemma attributionOf_unbound (operation : TenancyOperation) (values : IdentityValues) :
    attributionOf (none : Option (CallerAuthority py)) operation values = .ok values :=
  congrArg Except.ok (identityOf_identityFields values)

/-- The attribution of a bound caller is canonical. -/
lemma attributionOf_canonical {caller : CallerAuthority py} (hcaller : bound = some caller)
    (hwrites : operation.requiresWriteAttribution = true)
    (h : attributionOf bound operation values = .ok first) (d : IdentityDimension) :
    ∀ v ∈ first.get d, Normalized py v := by
  obtain ⟨result, hresult, h⟩ := bind_eq_ok.mp h
  cases h
  intro v hv
  rw [get_identityOf, scopedText_eq_some] at hv
  rcases scopedValues_canonical hcaller hwrites hresult d with hnull | ⟨u, hu, heq⟩
  · rw [hnull] at hv
    cases hv
  · rw [heq] at hv
    cases hv
    exact hu

/-- To attribute values once more changes nothing. -/
theorem attributionOf_stable (hwrites : operation.requiresWriteAttribution = true)
    (hfirst : attributionOf bound operation values = .ok first)
    (hsecond : attributionOf bound operation first = .ok second) : second = first := by
  cases hbound : bound with
  | none =>
    rw [hbound, attributionOf_unbound] at hsecond
    exact (Except.ok.inj hsecond).symm
  | some caller =>
    obtain ⟨result, hresult, h⟩ := bind_eq_ok.mp hfirst
    cases h
    obtain ⟨again, hagain, h⟩ := bind_eq_ok.mp hsecond
    cases h
    have hvalue (d : IdentityDimension) :
        identityValue (identityFields (identityOf result)) d = identityValue result d := by
      rw [identityValue, identityFields_field, Option.getD_some, get_identityOf]
      rcases scopedValues_canonical hbound hwrites hresult d with hnull | ⟨u, hu, heq⟩
      · have hnone : scopedText result d = none :=
          Option.eq_none_iff_forall_not_mem.mpr fun v hv => by
            rw [scopedText_eq_some, hnull] at hv
            cases hv
        rw [hnone, hnull, Json.ofText?]
      · rw [Option.mem_def.mp (scopedText_eq_some.mpr heq), heq, Json.ofText?]
    have hstable := scopedValues_stable hbound hwrites hresult hvalue hagain
    have hget (d : IdentityDimension) : (identityOf again).get d = (identityOf result).get d := by
      rw [get_identityOf, get_identityOf]
      refine Option.ext fun v => ?_
      rw [← Option.mem_def, ← Option.mem_def, scopedText_eq_some, scopedText_eq_some, hstable d]
    exact IdentityValues.ext (hget .tenant) (hget .user) (hget .agent) (hget .project)
      (hget .session)

end Attribution

/-! ### Storing -/

/-- `EpisodeRecord.validate_session_id`. -/
def validateSessionId (value : Option String) : Except Exc String := do
  let sessionId ← orRaise value (.typeError "session_id: Input should be a valid string")
  require (strip sessionId ≠ "") (.valueError "session_id must not be empty")
  pure (strip sessionId)

/-- The arguments of `store`. -/
structure MemoryArgs extends IdentityValues where
  content : String
  eventTime : Instant
  channel : Option String := none
  role : Option EpisodeRole := none
  identityTrust : IdentityTrust := .unspecified
  topic : Option String := none
  keywords : List String := []
  importance : Option String := none
  source : Option String := none
  context : Context := []
  extensions : List (String × Json) := []
  pointId : Uuid

/-- The part of `store` before its write: the episode that it stores. -/
def buildEpisode (service : Service) (bound : Option (CallerAuthority py)) (args : MemoryArgs)
    (now : Instant) : Except Exc EpisodeRecord := do
  let values ← attributionOf bound .memoryWrite args.toIdentityValues
  let normalized ← normalizeContent args.content
  service.assertSafe [some normalized, args.source] args.context { other := args.extensions }
  let sessionId ← validateSessionId values.sessionId
  let digest ← contentHash py normalized
  let _ ← service.vector normalized
  pure
    { id := args.pointId
      content := normalized
      sessionId
      eventTime := args.eventTime
      channel := args.channel
      role := args.role
      tenant := values.tenant
      user := values.user
      agent := values.agent
      project := values.project
      identityTrust := args.identityTrust
      topic := args.topic
      keywords := args.keywords
      importance := args.importance
      source := args.source
      contentHash := digest
      embeddingVersion := some service.embeddingVersion
      context := args.context
      extensions := args.extensions
      createdAt := now }

end CyberBrain.Memory
