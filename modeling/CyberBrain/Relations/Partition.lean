import CyberBrain.Relations.Traversal

/-!
# Partitions and visibility

The scope of a call and the partition of its seeds are conditions on the identity fields of a record
only. What lies in the partition of a record that the caller may read may be read as well.
-/

namespace CyberBrain.Relations

open Python Schemas Tenancy

variable {py : Runtime} {scope : RelationScope py} {values values' : IdentityValues}
  {fields fields' : Fields} {caller : CallerAuthority py}

/-- The fields carry identity values. -/
def Carries (fields : Fields) (values : IdentityValues) : Prop :=
  ∀ d : IdentityDimension, fields d.field = some (Json.ofText? (values.get d))

lemma indexValues_field (index : RelationIndex) (d : IdentityDimension) :
    indexValues index d.field = none := by
  cases index <;> cases d <;> rfl

lemma knowledge_carries (r : KnowledgeRecord py) :
    Carries ((knowledgeSchema py).fields r) r.toIdentityValues := by
  intro d
  have hnone : (r.extensions.relationIndex.bind fun index => indexValues index d.field) = none := by
    cases r.extensions.relationIndex with
    | none => rfl
    | some index => exact indexValues_field index d
  simp only [knowledgeSchema, hnone]
  cases d <;> rfl

lemma episode_carries (r : EpisodeRecord) : Carries r.fields (episodeIdentity r) := by
  intro d
  cases d <;> rfl

/-! ### Partitions -/

lemma holds_optionalText (h : Carries fields values) (d : IdentityDimension)
    (wanted : Option String) : (Condition.optionalText d.field wanted).holds fields = true ↔
      values.get d = wanted := by
  rw [Condition.holds_optionalText (h d), decide_eq_true_eq]

/-- The conditions of a partition, read on the identity values. -/
lemma scopeFilter_accepts (h : Carries fields values) (includeSession : Bool) :
    (scopeFilter scope includeSession).accepts fields = true ↔
      ∀ d : IdentityDimension, (d ≠ .session ∨ includeSession = true) →
        values.get d = scope.get d := by
  have hfield (d : IdentityDimension) : d.field ≠ "session_id" ↔ d ≠ .session := by
    cases d <;> decide
  simp only [scopeFilter, Filter.accepts, IdentityValues.items, List.all_map, List.all_filter,
    List.all_eq_true, IdentityDimension.mem_order, true_imp_iff, Function.comp_apply,
    Bool.or_eq_true, Bool.not_eq_true', holds_optionalText h]
  refine forall_congr' fun d => ?_
  by_cases hd : d = .session
  · subst hd
    cases includeSession <;> simp [IdentityDimension.field]
  · simp [hd, (hfield d).mpr hd]

/-- A record is in the partition. -/
lemma scopeFilter_accepts_session (h : Carries fields values) :
    (scopeFilter scope true).accepts fields = true ↔ values = scope.toIdentityValues := by
  rw [scopeFilter_accepts h]
  constructor
  · intro hall
    exact IdentityValues.ext (hall .tenant (.inr rfl)) (hall .user (.inr rfl))
      (hall .agent (.inr rfl)) (hall .project (.inr rfl)) (hall .session (.inr rfl))
  · rintro rfl - -
    rfl

/-- A record shares the partition. -/
lemma scopeFilter_accepts_shared (h : Carries fields values) :
    (scopeFilter scope scope.sessionId.isSome).accepts fields = true ↔
      sharesPartition scope values := by
  rw [scopeFilter_accepts h]
  simp only [sharesPartition, IdentityDimension.mem_order, true_imp_iff, Option.isSome_iff_ne_none]

lemma sharesPartition_self : sharesPartition scope scope.toIdentityValues :=
  fun _ _ _ => rfl

/-! ### Visibility -/

/-- The conditions of a grant, one by one. -/
lemma grantFilter_accepts : (grantFilter caller).accepts fields = true ↔
    ∀ d, caller.grant.scope.values d ≠ ∅ →
      ((filterCondition caller.grant.scope d).toCondition [("session", "session_id")]).holds
        fields = true := by
  simp only [grantFilter, Filter.accepts, List.all_map, List.all_filter, List.all_eq_true,
    IdentityDimension.mem_order, true_imp_iff, Function.comp_apply, Bool.or_eq_true,
    Bool.not_eq_true', decide_eq_false_iff_not, ← imp_iff_not_or]

/-- A condition of a grant depends on the field of its dimension. -/
lemma filterCondition_congr {granted : IdentityScope py} {d : IdentityDimension}
    (h : fields d.field = fields' d.field) :
    ((filterCondition granted d).toCondition [("session", "session_id")]).holds fields =
      ((filterCondition granted d).toCondition [("session", "session_id")]).holds fields' := by
  unfold filterCondition FilterCondition.toCondition
  dsimp only
  rw [aliased_field]
  split_ifs
  · simp only [Condition.holds, FieldCondition.holds, h]
  · simp only [Condition.holds, FieldCondition.holds, h]

/-- A grant that admits the values of a partition admits all records that share it. -/
theorem grantFilter_of_shared (h : Carries fields scope.toIdentityValues)
    (hgrant : (grantFilter caller).accepts fields = true) (h' : Carries fields' values)
    (hshared : sharesPartition scope values) : (grantFilter caller).accepts fields' = true := by
  rw [grantFilter_accepts] at hgrant ⊢
  intro d hd
  have hholds := hgrant d hd
  by_cases hsession : d ≠ .session ∨ scope.sessionId ≠ none
  · have hfield : fields' d.field = fields d.field := by
      rw [h d, h' d, hshared d (IdentityDimension.mem_order d) hsession]
    rwa [filterCondition_congr hfield]
  · -- the grant would not have admitted a record without a session
    push Not at hsession
    obtain ⟨rfl, hnone⟩ := hsession
    obtain ⟨v, -, hv⟩ := filterCondition_holds hholds
    rw [h .session] at hv
    simp [IdentityValues.get, hnone, Json.ofText?, Json.matchesScalar, Json.scalar?] at hv

end CyberBrain.Relations
