import CyberBrain.Foundation.Filter
import CyberBrain.Tenancy.Models

/-!
# Authorization, storage filters and write attribution

The planning of one operation before any storage access: the authorization policy narrows the
grant to the requested scope, and the narrowed scope becomes a storage filter for operations that
read and a write attribution for operations that write.
-/

namespace CyberBrain.Tenancy

open Python

variable {py : Runtime}

/-! ### Authorization policy -/

/-- Why a decision or a plan turned out as it did. -/
inductive ReasonCode
  | operationNotAllowed
  | scopeWidening (d : IdentityDimension)
  | requiredScopeMissing (d : IdentityDimension)
  | scopeAllowed
  | requiredStorageFilterUnavailable
  | writeAttributionNotSingleton
  | enforcementAllowed
  deriving DecidableEq, Repr

variable (py) in
structure AuthorizationDecision where
  allow : Bool
  reasonCode : ReasonCode
  effectiveScope : Option (IdentityScope py) := none

/-- The effective values of one dimension: the requested ones, which must lie inside the allowed
ones, or all allowed ones. -/
def narrow (allowed requested : IdentityScope py) (d : IdentityDimension) :
    Except ReasonCode (FrozenSet String) :=
  if requested.values d ≠ ∅ then
    if allowed.values d = ∅ then .error (.scopeWidening d)
    else if ¬ requested.values d ⊆ allowed.values d then .error (.scopeWidening d)
    else .ok (requested.values d)
  else .ok (allowed.values d)

/-- `ScopeAuthorizationPolicy.decide`. -/
def decideScope (grant : AuthorityGrant py) (requested : IdentityScope py)
    (operation : OperationClass) (required : List IdentityDimension) :
    Except Exc (AuthorizationDecision py) :=
  if operation ∉ grant.operations then .ok { allow := false, reasonCode := .operationNotAllowed }
  else
    match IdentityDimension.traverse (narrow grant.scope requested) with
    | .error reason => .ok { allow := false, reasonCode := reason }
    | .ok effective =>
      match IdentityScope.make py fun d => (effective d).sorted with
      | .error e => .error e
      | .ok scope =>
        match required.find? fun d => scope.values d = ∅ with
        | some d => .ok { allow := false, reasonCode := .requiredScopeMissing d }
        | none   => .ok { allow := true, reasonCode := .scopeAllowed, effectiveScope := some scope }

/-- The effective scope narrows the grant: it constrains every dimension the grant constrains, to
values of the grant. -/
def IdentityScope.Narrows (effective allowed : IdentityScope py) : Prop :=
  ∀ d, allowed.values d ≠ ∅ → effective.values d ≠ ∅ ∧ effective.values d ⊆ allowed.values d

lemma narrow_ok {allowed requested : IdentityScope py} {d : IdentityDimension}
    {s : FrozenSet String} (h : narrow allowed requested d = .ok s) :
    (∀ v ∈ s, Normalized py v) ∧ (allowed.values d ≠ ∅ → s ≠ ∅ ∧ s ⊆ allowed.values d) := by
  unfold narrow at h
  split_ifs at h with hreq hall hsub
  · cases h
    exact ⟨requested.normalized d, fun _ => ⟨hreq, hsub⟩⟩
  · cases h
    exact ⟨allowed.normalized d, fun hne => ⟨hne, fun a ha => ha⟩⟩

theorem decideScope_narrows {grant : AuthorityGrant py} {requested : IdentityScope py}
    {operation : OperationClass} {required : List IdentityDimension}
    {decision : AuthorizationDecision py} {scope : IdentityScope py}
    (h : decideScope grant requested operation required = .ok decision)
    (hscope : decision.effectiveScope = some scope) : scope.Narrows grant.scope := by
  unfold decideScope at h
  split at h
  · cases h; cases hscope
  split at h
  · cases h; cases hscope
  rename_i effective heff
  split at h
  · cases h
  rename_i made hmade
  split at h
  · cases h; cases hscope
  cases h
  cases hscope
  intro d hd
  have hn := narrow_ok (IdentityDimension.traverse_eq_ok_iff.mp heff d)
  have hval := IdentityScope.make_eq_ok_iff.mp hmade d
  rw [normalizeValues_sorted hn.1] at hval
  rw [← Except.ok.inj hval]
  exact hn.2 hd

/-! ### Storage filters -/

inductive FilterOperator
  | eq
  | isIn
  deriving DecidableEq, Repr

structure FilterCondition where
  field : String
  operator : FilterOperator
  values : List String
  deriving DecidableEq, Repr

/-- The condition that a storage filter puts on one constrained dimension. -/
def filterCondition (scope : IdentityScope py) (d : IdentityDimension) : FilterCondition :=
  { field := d.text
    operator := if (scope.values d).sorted.length = 1 then .eq else .isIn
    values := (scope.values d).sorted }

structure StorageFilter where
  conditions : List FilterCondition
  deriving DecidableEq, Repr

def StorageFilter.fields (f : StorageFilter) : List String := f.conditions.map (·.field)

/-- The loop of `build_storage_filter` over the remaining dimensions. -/
def storageConditions (scope : IdentityScope py) (required : List IdentityDimension) :
    List IdentityDimension → Except Exc (List FilterCondition)
  | []      => .ok []
  | d :: ds =>
    if d ∈ required ∧ scope.values d = ∅ then
      .error (.valueError ("required scope missing: " ++ d.text))
    else if scope.values d = ∅ then storageConditions scope required ds
    else do
      let rest ← storageConditions scope required ds
      pure (filterCondition scope d :: rest)

/-- `build_storage_filter`. -/
def buildStorageFilter (scope : IdentityScope py) (required : List IdentityDimension) :
    Except Exc StorageFilter := do
  let conditions ← storageConditions scope required IdentityDimension.order
  if required.any fun d => d.text ∉ conditions.map (·.field) then
    .error (.valueError "storage filter omitted required dimensions")
  else pure ⟨conditions⟩

lemma storageConditions_ok {scope : IdentityScope py} {required ds : List IdentityDimension}
    {conditions : List FilterCondition} (h : storageConditions scope required ds = .ok conditions) :
    conditions = (ds.filter fun d => scope.values d ≠ ∅).map (filterCondition scope) := by
  induction ds generalizing conditions with
  | nil => cases h; rfl
  | cons d ds ih =>
    unfold storageConditions at h
    split_ifs at h with hreq hempty
    · simpa [List.filter_cons, hempty] using ih h
    · cases hrest : storageConditions scope required ds with
      | error e => rw [hrest] at h; cases h
      | ok rest =>
        rw [hrest] at h
        cases h
        simpa [List.filter_cons, hempty] using ih hrest

lemma buildStorageFilter_ok {scope : IdentityScope py} {required : List IdentityDimension}
    {f : StorageFilter} (h : buildStorageFilter scope required = .ok f) :
    f.conditions =
      (IdentityDimension.order.filter fun d => scope.values d ≠ ∅).map (filterCondition scope) := by
  unfold buildStorageFilter at h
  cases hc : storageConditions scope required IdentityDimension.order with
  | error e => rw [hc] at h; cases h
  | ok conditions =>
    rw [hc] at h
    simp only [bind, Except.bind] at h
    split_ifs at h
    cases h
    exact storageConditions_ok hc

/-- `storage_filter_to_repository_filter` on one condition, with the field aliases applied. -/
def FilterCondition.toCondition (aliases : List (String × String)) (c : FilterCondition) :
    Condition :=
  let field := (aliases.lookup c.field).getD c.field
  match c.operator with
  | .eq   => .field (.matchValue field (.str (c.values.headD "")))
  | .isIn => .field (.matchAny field (c.values.map .str))

/-- `storage_filter_to_repository_filter`. -/
def StorageFilter.toFilter (aliases : List (String × String)) (f : StorageFilter) : Filter :=
  f.conditions.map (·.toCondition aliases)

/-! ### Write attribution -/

structure WriteAttribution where
  values : List (IdentityDimension × String)
  deriving DecidableEq, Repr

/-- The loop of `build_write_attribution` over the remaining dimensions. -/
def attributionValues (scope : IdentityScope py) (required : List IdentityDimension) :
    List IdentityDimension → Except Exc (List (IdentityDimension × String))
  | []      => .ok []
  | d :: ds =>
    match (scope.values d).sorted with
    | []  =>
      if d ∈ required then .error (.valueError ("required write attribution missing: " ++ d.text))
      else attributionValues scope required ds
    | [v] => do
      let rest ← attributionValues scope required ds
      pure ((d, v) :: rest)
    | _   => .error (.valueError ("write attribution must resolve one value for " ++ d.text))

/-- `build_write_attribution`. -/
def buildWriteAttribution (scope : IdentityScope py) (required : List IdentityDimension) :
    Except Exc WriteAttribution := do
  let values ← attributionValues scope required IdentityDimension.order
  pure ⟨values⟩

/-- A successful attribution lists, dimension by dimension, the single value of the scope. -/
lemma attributionValues_ok {scope : IdentityScope py} {required ds : List IdentityDimension}
    {values : List (IdentityDimension × String)}
    (h : attributionValues scope required ds = .ok values) :
    values = ds.flatMap fun d => (scope.values d).sorted.map fun v => (d, v) := by
  induction ds generalizing values with
  | nil => cases h; rfl
  | cons d ds ih =>
    unfold attributionValues at h
    split at h
    · rename_i hnil
      split_ifs at h
      simpa [hnil] using ih h
    · rename_i v hv
      cases hrest : attributionValues scope required ds with
      | error e => rw [hrest] at h; cases h
      | ok rest =>
        rw [hrest] at h
        cases h
        simpa [hv] using ih hrest
    · cases h

lemma mem_buildWriteAttribution {scope : IdentityScope py} {required : List IdentityDimension}
    {w : WriteAttribution} (h : buildWriteAttribution scope required = .ok w)
    {d : IdentityDimension} {v : String} : (d, v) ∈ w.values ↔ v ∈ scope.values d := by
  unfold buildWriteAttribution at h
  cases hv : attributionValues scope required IdentityDimension.order with
  | error e => rw [hv] at h; cases h
  | ok values =>
    rw [hv] at h
    cases h
    simp [attributionValues_ok hv, FrozenSet.mem_def]

/-! ### Enforcement plans -/

inductive TenancyOperation
  | knowledgeSearch
  | memorySearch
  | knowledgeGet
  | memoryGet
  | knowledgeTimeline
  | knowledgeWrite
  | memoryWrite
  | backgroundEvidenceRead
  deriving DecidableEq, Repr

namespace TenancyOperation

/-- `_OPERATION_SPECS`: the operation class. -/
def operationClass : TenancyOperation → OperationClass
  | knowledgeWrite | memoryWrite => .write
  | backgroundEvidenceRead       => .backgroundReasoning
  | _                            => .read

/-- `_OPERATION_SPECS`: whether the operation attributes what it writes. -/
def requiresWriteAttribution : TenancyOperation → Bool
  | knowledgeWrite | memoryWrite => true
  | _                            => false

/-- `_OPERATION_SPECS`: whether the operation filters what it reads. -/
def requiresStorageFilter : TenancyOperation → Bool
  | knowledgeWrite | memoryWrite => false
  | _                            => true

end TenancyOperation

variable (py) in
structure EnforcementPlan where
  operation : TenancyOperation
  operationClass : OperationClass
  allow : Bool
  reasonCode : ReasonCode
  requiredDimensions : List IdentityDimension
  effectiveScope : Option (IdentityScope py) := none
  storageFilter : Option StorageFilter := none
  writeAttribution : Option WriteAttribution := none

/-- The storage filter of a plan, where the operation needs one. -/
def planFilter (operation : TenancyOperation) (required : List IdentityDimension)
    (scope : IdentityScope py) : Except ReasonCode (Option StorageFilter) :=
  if operation.requiresStorageFilter then
    match buildStorageFilter scope required with
    | .error _ => .error .requiredStorageFilterUnavailable
    | .ok f    =>
      if required.any fun d => d.text ∉ f.fields then .error .requiredStorageFilterUnavailable
      else .ok (some f)
  else .ok none

/-- The write attribution of a plan, where the operation needs one. -/
def planAttribution (operation : TenancyOperation) (required : List IdentityDimension)
    (scope : IdentityScope py) : Except ReasonCode (Option WriteAttribution) :=
  if operation.requiresWriteAttribution then
    match buildWriteAttribution scope required with
    | .error _ => .error .writeAttributionNotSingleton
    | .ok w    => .ok (some w)
  else .ok none

variable (py) in
/-- A plan that refuses the operation. -/
def EnforcementPlan.refusal (operation : TenancyOperation) (required : List IdentityDimension)
    (reason : ReasonCode) : EnforcementPlan py :=
  { operation, operationClass := operation.operationClass, allow := false, reasonCode := reason
    requiredDimensions := required }

/-- The part of `plan_enforcement` after the authorization decision. -/
def planScoped (operation : TenancyOperation) (required : List IdentityDimension)
    (scope : IdentityScope py) : EnforcementPlan py :=
  match planFilter operation required scope with
  | .error reason => .refusal py operation required reason
  | .ok filter    =>
    match planAttribution operation required scope with
    | .error reason   => .refusal py operation required reason
    | .ok attribution =>
      { operation, operationClass := operation.operationClass, allow := true
        reasonCode := .enforcementAllowed, requiredDimensions := required
        effectiveScope := some scope, storageFilter := filter, writeAttribution := attribution }

/-- `plan_enforcement`. -/
def planEnforcement (authority : CallerAuthority py) (operation : TenancyOperation)
    (requested : IdentityScope py) : Except Exc (EnforcementPlan py) :=
  let required := authority.deploymentMode.minimumIdentityDimensions
  match decideScope authority.grant requested operation.operationClass required with
  | .error e     => .error e
  | .ok decision =>
    match decision.allow, decision.effectiveScope with
    | true, some scope => .ok (planScoped operation required scope)
    | _, _             => .ok (.refusal py operation required decision.reasonCode)

lemma planFilter_ok {operation : TenancyOperation} {required : List IdentityDimension}
    {scope : IdentityScope py} {filter : Option StorageFilter}
    (h : planFilter operation required scope = .ok filter)
    (hreads : operation.requiresStorageFilter = true) :
    ∃ f, filter = some f ∧ buildStorageFilter scope required = .ok f := by
  unfold planFilter at h
  rw [if_pos hreads] at h
  split at h
  · cases h
  · rename_i f hf
    split_ifs at h
    cases h
    exact ⟨f, rfl, hf⟩

lemma planAttribution_ok {operation : TenancyOperation} {required : List IdentityDimension}
    {scope : IdentityScope py} {attribution : Option WriteAttribution}
    (h : planAttribution operation required scope = .ok attribution)
    (hwrites : operation.requiresWriteAttribution = true) :
    ∃ w, attribution = some w ∧ buildWriteAttribution scope required = .ok w := by
  unfold planAttribution at h
  rw [if_pos hwrites] at h
  split at h
  · cases h
  · rename_i w hw
    cases h
    exact ⟨w, rfl, hw⟩

/-- What an allowed plan guarantees: a scope that narrows the grant, the filter of that scope when
the operation reads and its attribution when the operation writes. -/
structure EnforcementPlan.Grants (plan : EnforcementPlan py) (authority : CallerAuthority py)
    (operation : TenancyOperation) (scope : IdentityScope py) : Prop where
  narrows : scope.Narrows authority.grant.scope
  effectiveScope : plan.effectiveScope = some scope
  storageFilter : operation.requiresStorageFilter = true → ∃ f, plan.storageFilter = some f ∧
    buildStorageFilter scope authority.deploymentMode.minimumIdentityDimensions = .ok f
  writeAttribution : operation.requiresWriteAttribution = true → ∃ w,
    plan.writeAttribution = some w ∧
      buildWriteAttribution scope authority.deploymentMode.minimumIdentityDimensions = .ok w

theorem planEnforcement_grants {authority : CallerAuthority py} {operation : TenancyOperation}
    {requested : IdentityScope py} {plan : EnforcementPlan py}
    (h : planEnforcement authority operation requested = .ok plan) (hallow : plan.allow = true) :
    ∃ scope, plan.Grants authority operation scope := by
  unfold planEnforcement at h
  dsimp only at h
  split at h
  · cases h
  rename_i decision hd
  split at h
  · rename_i scope _ hscope
    cases h
    unfold planScoped at hallow ⊢
    split at hallow
    · cases hallow
    rename_i filter hf
    split at hallow
    · cases hallow
    rename_i attribution hw
    exact ⟨scope, decideScope_narrows hd hscope, rfl, planFilter_ok hf, planAttribution_ok hw⟩
  · cases h
    cases hallow

end CyberBrain.Tenancy
