import CyberBrain.Relations.Admission

/-!
# Scoped reads of relations

Every read of the relation index is made under the conditions of the caller's scope.
-/

namespace CyberBrain.Relations

open Python Tenancy

variable {py : Runtime}

/-- The operation of a read of the relation index. -/
def readOperation (background episode : Bool) : TenancyOperation :=
  if background then .backgroundEvidenceRead else if episode then .memoryGet else .knowledgeGet

/-- `RelationIndex.conditions`. -/
def conditions (bound : Option (CallerAuthority py)) (background episode : Bool) :
    Except Exc Filter := do
  require bound.isSome (.configurationError "relation reads require authenticated authority")
  let plan ← enforceOperation bound (readOperation background episode) fun _ => none
  pure (scopeConditions plan)

/-- The conditions on canonical Knowledge. -/
def knowledgeFilter : Filter :=
  [.field (.matchValue "record_type" (.str "knowledge")),
    .field (.matchValue "record_class" (.str "knowledge"))]

/-- `INDEX_KEY`. -/
def indexKey : String := "_relation_index"

/-- `INDEX_PREFIX`. -/
def indexPrefix : String := "extensions." ++ indexKey

/-- `INDEX_FIELDS`. -/
def indexFields : List (String × String) :=
  [(indexPrefix ++ ".schema_version", "integer"), (indexPrefix ++ ".owner_key", "keyword"),
    (indexPrefix ++ ".target_keys", "keyword"), ("created_at", "datetime")]

/-! ### The scope of a call -/

/-- The conditions of a caller's whole grant. -/
def grantFilter (caller : CallerAuthority py) : Filter :=
  (IdentityDimension.order.filter fun d => caller.grant.scope.values d ≠ ∅).map fun d =>
    (filterCondition caller.grant.scope d).toCondition [("session", "session_id")]

/-- A call that selects nothing asks for its whole grant. -/
lemma decideScope_unselected {grant : AuthorityGrant py} {requested : IdentityScope py}
    (hrequested : ∀ d, requested.values d = ∅) {operation : OperationClass}
    {required : List IdentityDimension} {decision : AuthorizationDecision py}
    {scope : IdentityScope py} (h : decideScope grant requested operation required = .ok decision)
    (hscope : decision.effectiveScope = some scope) : scope = grant.scope := by
  unfold decideScope at h
  split at h
  · cases h; cases hscope
  split at h
  · cases h; cases hscope
  rename_i effective heff
  split at h
  · cases h
  rename_i made hmade
  split at h
  · cases h; cases hscope
  cases h
  cases hscope
  refine IdentityScope.ext fun d => ?_
  have hnarrow := IdentityDimension.traverse_eq_ok_iff.mp heff d
  simp only [narrow, hrequested d, ne_eq, not_true_eq_false, if_false] at hnarrow
  have hvalues := IdentityScope.make_eq_ok_iff.mp hmade d
  rw [← Except.ok.inj hnarrow, normalizeValues_sorted (grant.scope.normalized d)] at hvalues
  exact (Except.ok.inj hvalues).symm

/-- A read that selects nothing is filtered by the whole grant. -/
lemma planEnforcement_unselected {caller : CallerAuthority py} {operation : TenancyOperation}
    {requested : IdentityScope py} (hrequested : ∀ d, requested.values d = ∅)
    {plan : EnforcementPlan py} (h : planEnforcement caller operation requested = .ok plan)
    (hallow : plan.allow = true) (hreads : operation.requiresStorageFilter = true) :
    ∃ f, plan.storageFilter = some f ∧ f.conditions =
      (IdentityDimension.order.filter fun d => caller.grant.scope.values d ≠ ∅).map
        (filterCondition caller.grant.scope) := by
  unfold planEnforcement at h
  dsimp only at h
  split at h
  · cases h
  rename_i decision hd
  split at h
  · rename_i scope _ hscope
    cases h
    rw [decideScope_unselected hrequested hd hscope] at hallow ⊢
    unfold planScoped at hallow ⊢
    split at hallow
    · cases hallow
    rename_i filter hf
    split at hallow
    · cases hallow
    obtain ⟨f, hsome, hbuild⟩ := planFilter_ok hf hreads
    exact ⟨f, hsome, buildStorageFilter_ok hbuild⟩
  · cases h
    cases hallow

/-- The conditions of a read are those of the caller's grant, whichever kind of records it reads. -/
theorem conditions_eq_ok {bound : Option (CallerAuthority py)} {background episode : Bool}
    {f : Filter} (h : conditions bound background episode = .ok f) :
    ∃ caller, bound = some caller ∧ f = grantFilter caller := by
  obtain ⟨_, hbound, h⟩ := bind_eq_ok.mp h
  rw [require_eq_ok, Option.isSome_iff_exists] at hbound
  obtain ⟨caller, rfl⟩ := hbound
  refine ⟨caller, rfl, ?_⟩
  obtain ⟨plan, hplan, h⟩ := bind_eq_ok.mp h
  cases h
  have hreads : (readOperation background episode).requiresStorageFilter = true := by
    cases background <;> cases episode <;> rfl
  have hcaller : (none <|> some caller) = some caller := rfl
  unfold enforceOperation at hplan
  rw [hcaller] at hplan
  dsimp only at hplan
  split at hplan
  · cases hplan
  rename_i requested hrequested
  split at hplan
  · cases hplan
  rename_i scope hscope
  split at hplan
  · cases hplan
  rename_i plan' hplan'
  split_ifs at hplan with hallow
  cases hplan
  have hempty (d : IdentityDimension) : scope.values d = ∅ := by
    have hnone := IdentityDimension.traverse_eq_ok_iff.mp hrequested d
    have hvalues := IdentityScope.make_eq_ok_iff.mp hscope d
    rw [← Except.ok.inj hnone] at hvalues
    exact (Except.ok.inj hvalues).symm
  obtain ⟨filter, hfilter, hconditions⟩ :=
    planEnforcement_unselected hempty hplan' hallow hreads
  simp only [scopeConditions, Option.bind_some, hfilter, StorageFilter.toFilter, hconditions,
    List.map_map]
  rfl

end CyberBrain.Relations
