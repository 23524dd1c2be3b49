import CyberBrain.Knowledge.Evolution

/-!
# Conflicts

A `ConflictError` is about what is stored. Nothing that `store` does before its guarded section
raises one: a call is refused there for its own arguments or for its caller.
-/

namespace CyberBrain.Knowledge

open Program Python Relations Schemas Tenancy

variable {py : Runtime}

/-- The exception is no conflict. -/
def NoConflict (e : Exc) : Prop := ∀ m, e ≠ .conflictError m

lemma Environment.Fails.noConflict {env : Environment py} {e : Exc} (h : env.Fails e) :
    NoConflict e := by
  obtain ⟨rfl, -⟩ := h
  exact nofun

section Scoping

lemma normalizeText_raises (value : String) : Raises NoConflict (normalizeText py value) := by
  unfold normalizeText
  dsimp only
  split_ifs
  · exact .error nofun
  · exact .error nofun
  · exact .error nofun
  · exact .error nofun
  · exact .ok _

lemma normalizeIdentifier_raises (value : Json) :
    Raises NoConflict (normalizeIdentifier py value) := by
  unfold normalizeIdentifier
  split
  · exact normalizeText_raises _
  · exact .error nofun

lemma traverse_raises {α : Type} {f : IdentityDimension → Except Exc α}
    (hf : ∀ d, Raises NoConflict (f d)) : Raises NoConflict (IdentityDimension.traverse f) :=
  (hf _).bind fun _ => (hf _).bind fun _ => (hf _).bind fun _ => (hf _).bind fun _ =>
    (hf _).bind fun _ => .pure _

lemma identityScope_make_raises (raw : IdentityDimension → List String) :
    Raises NoConflict (IdentityScope.make py raw) := by
  have hvalues : Raises NoConflict
      (IdentityDimension.traverse fun d => normalizeValues py (raw d)) :=
    traverse_raises fun d => (Raises.mapM normalizeText_raises).map
  unfold IdentityScope.make
  split
  · rename_i e he
    exact .error (hvalues e he)
  · exact .ok _

lemma requestedValues_raises (allowed : IdentityScope py) (selectors : Fields)
    (d : IdentityDimension) : Raises NoConflict (requestedValues allowed selectors d) := by
  unfold requestedValues
  split
  · exact .ok _
  · split
    · rename_i e he
      exact .error (normalizeIdentifier_raises _ e he)
    · exact .ok _

lemma decideScope_raises (grant : AuthorityGrant py) (requested : IdentityScope py)
    (operation : OperationClass) (required : List IdentityDimension) :
    Raises NoConflict (decideScope grant requested operation required) := by
  unfold decideScope
  split
  · exact .ok _
  · split
    · exact .ok _
    · split
      · rename_i e he
        exact .error (identityScope_make_raises _ e he)
      · split <;> exact .ok _

lemma planEnforcement_raises (authority : CallerAuthority py) (operation : TenancyOperation)
    (requested : IdentityScope py) :
    Raises NoConflict (planEnforcement authority operation requested) := by
  unfold planEnforcement
  dsimp only
  split
  · rename_i e he
    exact .error (decideScope_raises _ _ _ _ e he)
  · split <;> exact .ok _

lemma enforceOperation_raises (bound : Option (CallerAuthority py)) (operation : TenancyOperation)
    (selectors : Fields) (authority : Option (CallerAuthority py)) :
    Raises NoConflict (enforceOperation bound operation selectors authority) := by
  unfold enforceOperation
  split
  · exact .ok _
  · rename_i caller _
    split
    · rename_i e he
      exact .error (traverse_raises (requestedValues_raises _ _) e he)
    · split
      · rename_i e he
        exact .error (identityScope_make_raises _ e he)
      · split
        · rename_i e he
          exact .error (planEnforcement_raises _ _ _ e he)
        · split_ifs
          · exact .ok _
          · exact .error nofun

lemma normalizeFields_raises (ds : List IdentityDimension) (result : Fields) :
    Raises NoConflict (normalizeFields py ds result) := by
  induction ds generalizing result with
  | nil => exact .ok _
  | cons d ds ih =>
    unfold normalizeFields
    split
    · exact ih _
    · split
      · rename_i e he
        exact .error (normalizeIdentifier_raises _ e he)
      · exact ih _

lemma scopedValues_raises (bound : Option (CallerAuthority py)) (values : Fields)
    (operation : TenancyOperation) : Raises NoConflict (scopedValues bound values operation) := by
  unfold scopedValues
  split
  · rename_i e he
    exact .error (enforceOperation_raises _ _ _ _ e he)
  · exact .ok _
  · exact normalizeFields_raises _ _

end Scoping

section Admission

lemma entityRef_make_raises (labels : EntityLabels) (context : Context) (values : IdentityValues) :
    Raises NoConflict (EntityRef.make py labels context values) := by
  have hscope : Raises NoConflict (RelationScope.make py values) := by
    have hvalues : Raises NoConflict
        (IdentityDimension.traverse fun d => normalizeScope py (values.get d)) := by
      refine traverse_raises fun d => ?_
      unfold normalizeScope
      split
      · exact .ok _
      · exact (normalizeText_raises _).bind fun _ => .require (by simp [NoConflict])
    unfold RelationScope.make
    split
    · rename_i e he
      exact .error (hvalues e he)
    · exact .ok _
  refine hscope.bind fun _ => ?_
  split_ifs
  · exact .ok _
  · exact .error (by simp [NoConflict])
  · exact .error (by simp [NoConflict])

lemma admitRelations_raises (bound : Option (CallerAuthority py)) (raw : RawRelations)
    (source : EntityRef py) (seen : Collection py) (episodes : Option Episodes) :
    Raises NoConflict (admitRelations bound raw source seen episodes) := by
  have hepisodes : ∀ has, Raises NoConflict (enforceEpisodes bound has) := by
    rintro (_ | _)
    · exact .ok _
    · exact enforceOperation_raises bound .memoryGet (fun _ => none) none
  have hedge : ∀ edge, Raises NoConflict (admitEdge bound source edge) := by
    refine fun edge => (Raises.require nofun).bind fun _ => ?_
    split_ifs
    · exact .require nofun
    · exact .ok _
  refine (Raises.mapError fun _ => nofun).bind fun bundle => (Raises.forM hedge).bind fun _ =>
    (enforceOperation_raises _ _ _ _).bind fun plan => (hepisodes _).bind fun episodePlan =>
    (Raises.require nofun).bind fun _ => (Raises.forM fun edge => ?_).bind fun _ => .pure _
  refine ((Raises.orRaise nofun).bind fun target => ?_).bind fun _ => Raises.forM fun ref =>
    (Raises.orRaise nofun).bind fun _ => .require nofun
  split
  · exact .error nofun
  · exact .require nofun

end Admission

/-- No conflict is raised before the guarded section of `store`. -/
theorem prepare_raises (service : Service) (call : StoreCall py) :
    Raises NoConflict (prepare service call) := by
  have hcontent : ∀ content, Raises NoConflict (normalizeContent content) := by
    intro content
    unfold normalizeContent
    dsimp only
    split_ifs
    · exact .error nofun
    · exact .ok _
  have hrelations : ∀ values raw, Raises NoConflict (admitArgs call values raw) := by
    rintro values (_ | raw)
    · exact .ok _
    · exact (Raises.require nofun).bind fun _ => (Raises.mapError fun _ => nofun).bind fun ref =>
        (admitRelations_raises _ _ _ _ _).bind fun _ => .pure _
  have hscoped : Raises NoConflict (scopedIdentity call.bound call.args) :=
    (scopedValues_raises _ _ _).bind fun _ => .ok _
  exact hscoped.bind fun values => (hcontent _).bind fun normalized =>
    (Raises.require nofun).bind fun _ => (Raises.require nofun).bind fun _ =>
    (hrelations _ _).bind fun relations => ((hcontent _).bind fun _ => .ok _).bind fun _ => .pure _

end CyberBrain.Knowledge
