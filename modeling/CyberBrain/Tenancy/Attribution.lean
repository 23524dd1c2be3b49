import CyberBrain.Foundation.Except
import CyberBrain.Tenancy.Runtime

/-!
# The attribution of a write

A write of a bound caller carries its attribution along every dimension that the grant constrains,
and canonical values along the others. To scope such values once more changes nothing.
-/

namespace CyberBrain.Tenancy

open Python

variable {py : Runtime}

/-! ### The effective scope -/

lemma narrow_eq {allowed requested : IdentityScope py} {d : IdentityDimension}
    {s : FrozenSet String} (h : narrow allowed requested d = .ok s) :
    s = if requested.values d ≠ ∅ then requested.values d else allowed.values d := by
  unfold narrow at h
  split_ifs at h ⊢ with hrequested <;> cases h <;> rfl

/-- The effective scope is the requested one where a value is requested. -/
lemma decideScope_values {grant : AuthorityGrant py} {requested : IdentityScope py}
    {operation : OperationClass} {required : List IdentityDimension}
    {decision : AuthorizationDecision py} {scope : IdentityScope py}
    (h : decideScope grant requested operation required = .ok decision)
    (hscope : decision.effectiveScope = some scope) (d : IdentityDimension) :
    scope.values d =
      if requested.values d ≠ ∅ then requested.values d else grant.scope.values d := by
  unfold decideScope at h
  split at h
  · cases h; cases hscope
  split at h
  · cases h; cases hscope
  rename_i effective heff
  split at h
  · cases h
  rename_i made hmade
  split at h
  · cases h; cases hscope
  cases h
  cases hscope
  have hnarrow := IdentityDimension.traverse_eq_ok_iff.mp heff d
  have hvalues := IdentityScope.make_eq_ok_iff.mp hmade d
  rw [normalizeValues_sorted (narrow_ok hnarrow).1] at hvalues
  rw [← Except.ok.inj hvalues]
  exact narrow_eq hnarrow

/-- A plan of a write attributes the single values of its effective scope. -/
lemma planEnforcement_attribution {caller : CallerAuthority py} {operation : TenancyOperation}
    {requested : IdentityScope py} {plan : EnforcementPlan py}
    (h : planEnforcement caller operation requested = .ok plan) (hallow : plan.allow = true)
    (hwrites : operation.requiresWriteAttribution = true) :
    ∃ (scope : IdentityScope py) (w : WriteAttribution) (required : List IdentityDimension),
      plan.writeAttribution = some w ∧ buildWriteAttribution scope required = .ok w ∧
      ∀ d, scope.values d =
        if requested.values d ≠ ∅ then requested.values d else caller.grant.scope.values d := by
  unfold planEnforcement at h
  dsimp only at h
  split at h
  · cases h
  rename_i decision hd
  split at h
  · rename_i scope _ hscope
    cases h
    unfold planScoped at hallow ⊢
    split at hallow
    · cases hallow
    split at hallow
    · cases hallow
    rename_i attribution hattribution
    obtain ⟨w, hw, hbuild⟩ := planAttribution_ok hattribution hwrites
    exact ⟨scope, w, _, hw, hbuild, decideScope_values hd hscope⟩
  · cases h
    cases hallow

/-- An attribution has one value for a dimension at most. -/
lemma attributionValues_unique {scope : IdentityScope py} {required ds : List IdentityDimension}
    {values : List (IdentityDimension × String)}
    (h : attributionValues scope required ds = .ok values) {d : IdentityDimension} (hd : d ∈ ds)
    {u v : String} (hu : u ∈ scope.values d) (hv : v ∈ scope.values d) : u = v := by
  induction ds generalizing values with
  | nil => cases hd
  | cons e ds ih =>
    unfold attributionValues at h
    split at h
    · rename_i hnil
      split_ifs at h
      rcases List.mem_cons.mp hd with rfl | hd
      · rw [FrozenSet.mem_def, hnil] at hu
        cases hu
      · exact ih h hd
    · rename_i w hw
      obtain ⟨rest, hrest, h⟩ := bind_eq_ok.mp h
      rcases List.mem_cons.mp hd with rfl | hd
      · rw [FrozenSet.mem_def, hw, List.mem_singleton] at hu hv
        rw [hu, hv]
      · exact ih hrest hd
    · cases h

/-! ### Stored values -/

lemma store_field_of_notMem {w : WriteAttribution} {d : IdentityDimension} (values : Fields)
    (h : ∀ v, (d, v) ∉ w.values) : w.store values d.field = values d.field := by
  obtain ⟨l⟩ := w
  unfold WriteAttribution.store
  induction l generalizing values with
  | nil => rfl
  | cons e l ih =>
    have hne : d ≠ e.1 := fun heq => h e.2 (by simp [heq])
    rw [List.foldl_cons, ih _ fun v hv => h v (List.mem_cons_of_mem _ hv),
      setField_of_ne values e.2 hne]

/-- The value of an identity field, null where there is none. -/
def identityValue (fields : Fields) (d : IdentityDimension) : Json := (fields d.field).getD .null

/-- No identifier, or a canonical one. -/
def CanonicalValue (py : Runtime) (value : Json) : Prop :=
  value = .null ∨ ∃ v, Normalized py v ∧ value = .str v

lemma normalizeFields_null {ds : List IdentityDimension} {values result : Fields}
    (h : normalizeFields py ds values = .ok result) {d : IdentityDimension}
    (hd : identityValue values d = .null) : result d.field = values d.field := by
  induction ds generalizing values with
  | nil => cases h; rfl
  | cons e ds ih =>
    unfold normalizeFields at h
    split at h
    · exact ih h hd
    rename_i hvalue
    split at h
    · cases h
    rename_i u hu
    have hne : d ≠ e := fun heq => hvalue (heq ▸ hd)
    have hset := setField_of_ne values u hne
    rw [ih h (by rwa [identityValue, hset]), hset]

lemma normalizeIdentifier_normalized {value : Json} {v : String}
    (h : normalizeIdentifier py value = .ok v) : Normalized py v := by
  cases value <;> simp only [normalizeIdentifier, reduceCtorEq] at h
  exact normalized_of_normalizeText h

/-- The identity fields are canonical once they are normalised. -/
lemma normalizeFields_canonicalValue {ds : List IdentityDimension} {values result : Fields}
    (h : normalizeFields py ds values = .ok result) {d : IdentityDimension} (hd : d ∈ ds) :
    CanonicalValue py (identityValue result d) := by
  induction ds generalizing values with
  | nil => cases hd
  | cons e ds ih =>
    unfold normalizeFields at h
    split at h
    · rename_i hnull
      rcases List.mem_cons.mp hd with rfl | hd
      · exact .inl (by rw [identityValue, normalizeFields_null h hnull, hnull])
      · exact ih h hd
    split at h
    · cases h
    rename_i value _ u hu
    rcases List.mem_cons.mp hd with rfl | hd
    · have hnormalized := normalizeIdentifier_normalized hu
      have hresult := normalizeFields_canonical hnormalized h (setField_self ..)
      exact .inr ⟨u, hnormalized, by rw [identityValue, hresult, Option.getD_some]⟩
    · exact ih h hd

/-- Canonical identity fields stay as they are. -/
lemma normalizeFields_of_canonicalValue {ds : List IdentityDimension} {values result : Fields}
    (h : normalizeFields py ds values = .ok result) {d : IdentityDimension}
    (hd : CanonicalValue py (identityValue values d)) :
    identityValue result d = identityValue values d := by
  rcases hd with hnull | ⟨v, hv, hvalue⟩
  · rw [identityValue, normalizeFields_null h hnull, identityValue]
  · have hfield : values d.field = some (.str v) := by
      cases hd : values d.field with
      | none => simp [identityValue, hd] at hvalue
      | some value => simpa [identityValue, hd] using hvalue
    rw [identityValue, normalizeFields_canonical hv h hfield, hvalue, Option.getD_some]

/-! ### Scoping twice -/

/-- What a write of a bound caller is attributed to. -/
lemma scopedValues_attribution {bound : Option (CallerAuthority py)} {caller : CallerAuthority py}
    (hcaller : bound = some caller) {operation : TenancyOperation}
    (hwrites : operation.requiresWriteAttribution = true) {values result : Fields}
    (h : scopedValues bound values operation = .ok result) :
    ∃ requested : IdentityDimension → List String, ∃ scope : IdentityScope py,
      ∃ (required : List IdentityDimension) (w : WriteAttribution),
      (∀ d, requestedValues caller.grant.scope values d = .ok (requested d)) ∧
      (∀ d, ∃ s, normalizeValues py (requested d) = .ok s ∧
        scope.values d = if s ≠ ∅ then s else caller.grant.scope.values d) ∧
      buildWriteAttribution scope required = .ok w ∧
      normalizeFields py IdentityDimension.order (w.store values) = .ok result := by
  subst hcaller
  unfold scopedValues enforceOperation at h
  have hsome : (none <|> some caller) = some caller := rfl
  rw [hsome] at h
  dsimp only at h
  split at h
  · cases h
  · rename_i hplan
    split at hplan
    · cases hplan
    split at hplan
    · cases hplan
    split at hplan
    · cases hplan
    split_ifs at hplan
    cases hplan
  rename_i plan hplan
  split at hplan
  · cases hplan
  rename_i requested hrequested
  split at hplan
  · cases hplan
  rename_i made hmade
  split at hplan
  · cases hplan
  rename_i plan' hplan'
  split_ifs at hplan with hallow
  cases hplan
  obtain ⟨scope, w, required, hw, hbuild, hvalues⟩ :=
    planEnforcement_attribution hplan' hallow hwrites
  rw [hw] at h
  exact ⟨requested, scope, required, w, IdentityDimension.traverse_eq_ok_iff.mp hrequested,
    fun d => ⟨made.values d, IdentityScope.make_eq_ok_iff.mp hmade d, hvalues d⟩, hbuild, h⟩

/-- Scoped values are canonical along every dimension. -/
lemma scopedValues_canonical {bound : Option (CallerAuthority py)} {caller : CallerAuthority py}
    (hcaller : bound = some caller) {operation : TenancyOperation}
    (hwrites : operation.requiresWriteAttribution = true) {values result : Fields}
    (h : scopedValues bound values operation = .ok result) (d : IdentityDimension) :
    CanonicalValue py (identityValue result d) := by
  obtain ⟨_, _, _, _, _, _, _, hresult⟩ := scopedValues_attribution hcaller hwrites h
  exact normalizeFields_canonicalValue hresult (IdentityDimension.mem_order d)

/-- A write that is scoped once more keeps its attribution. -/
theorem scopedValues_stable {bound : Option (CallerAuthority py)} {caller : CallerAuthority py}
    (hcaller : bound = some caller) {operation : TenancyOperation}
    (hwrites : operation.requiresWriteAttribution = true) {values first again second : Fields}
    (hfirst : scopedValues bound values operation = .ok first)
    (hagain : ∀ d : IdentityDimension, identityValue again d = identityValue first d)
    (hsecond : scopedValues bound again operation = .ok second) (d : IdentityDimension) :
    identityValue second d = identityValue first d := by
  have hcanonical := scopedValues_canonical hcaller hwrites hfirst d
  obtain ⟨requested, scope, required, w, hrequested, hscope, hbuild, hnormalize⟩ :=
    scopedValues_attribution hcaller hwrites hsecond
  suffices hstore : identityValue (w.store again) d = identityValue first d by
    rw [← hstore] at hcanonical ⊢
    exact normalizeFields_of_canonicalValue hnormalize hcanonical
  have hmem {v : String} : (d, v) ∈ w.values ↔ v ∈ scope.values d := mem_buildWriteAttribution hbuild
  obtain ⟨s, hs, hvalues⟩ := hscope d
  have hreq := hrequested d
  rw [requestedValues, ← identityValue, hagain d] at hreq
  by_cases hconstrained : caller.grant.scope.values d = ∅
  · -- the grant leaves the dimension open
    have hempty : requested d = [] := by
      split at hreq
      · exact (Except.ok.inj hreq).symm
      split at hreq
      · cases hreq
      · rw [if_neg (not_not.mpr hconstrained)] at hreq
        exact (Except.ok.inj hreq).symm
    rw [hempty] at hs
    have hnone : s = ∅ := (Except.ok.inj hs).symm
    rw [hnone, if_neg (not_not.mpr rfl), hconstrained] at hvalues
    rw [identityValue, store_field_of_notMem again fun v hv => ?_, ← identityValue, hagain d]
    rw [hmem, hvalues] at hv
    exact FrozenSet.notMem_empty v hv
  · obtain ⟨v, -, hv⟩ := scopedValues_covers rfl hwrites (hcaller ▸ hfirst) hconstrained
    have hvalue : identityValue first d = .str v := by rw [identityValue, hv, Option.getD_some]
    have hnormalized : Normalized py v := by
      rw [hvalue] at hcanonical
      rcases hcanonical with hnull | ⟨u, hu, heq⟩
      · cases hnull
      · cases heq
        exact hu
    have hidentifier : normalizeIdentifier py (.str v) = .ok v := hnormalized
    have htext : normalizeText py v = .ok v := hnormalized
    have hone : requested d = [v] := by
      simp only [hvalue, hidentifier, ne_eq, hconstrained, not_false_eq_true, if_true] at hreq
      exact (Except.ok.inj hreq).symm
    have hs' : s = FrozenSet.ofList [v] := by
      rw [hone, normalizeValues, List.mapM_cons, htext] at hs
      exact (Except.ok.inj hs).symm
    have hne : s ≠ ∅ := FrozenSet.ne_empty_iff.mpr ⟨v, by rw [hs']; simp⟩
    rw [if_pos hne, hs'] at hvalues
    obtain ⟨u, hu, hstore⟩ := store_field again ⟨v, hmem.mpr (by rw [hvalues]; simp)⟩
    rw [hmem, hvalues, FrozenSet.mem_ofList, List.mem_singleton] at hu
    rw [identityValue, hstore, hu, hvalue, Option.getD_some]

end CyberBrain.Tenancy
