import CyberBrain.Foundation.Table
import CyberBrain.Tenancy.Enforcement

/-!
# Enforcement at the services

Every service call goes through `enforce_operation`, which plans the operation for the bound
caller. A plan filters what a read sees and attributes what a write stores. Both stay inside the
caller's grant, whatever the caller selects.
-/

namespace CyberBrain.Tenancy

open Python

variable {py : Runtime}

/-! ### The plan of a call -/

/-- The requested values of one dimension: the canonical selector, dropped where the grant leaves
the dimension open. -/
def requestedValues (allowed : IdentityScope py) (selectors : Fields) (d : IdentityDimension) :
    Except Exc (List String) :=
  match (selectors d.field).getD .null with
  | .null => .ok []
  | value =>
    match normalizeIdentifier py value with
    | .error e       => .error e
    | .ok normalized => .ok (if allowed.values d ≠ ∅ then [normalized] else [])

/-- `enforce_operation`, with `bound` the authority bound to the context. -/
def enforceOperation (bound : Option (CallerAuthority py)) (operation : TenancyOperation)
    (selectors : Fields) (authority : Option (CallerAuthority py) := none) :
    Except Exc (Option (EnforcementPlan py)) :=
  match authority <|> bound with
  | none        => .ok none
  | some caller =>
    match IdentityDimension.traverse (requestedValues caller.grant.scope selectors) with
    | .error e      => .error e
    | .ok requested =>
      match IdentityScope.make py requested with
      | .error e  => .error e
      | .ok scope =>
        match planEnforcement caller operation scope with
        | .error e => .error e
        | .ok plan =>
          if plan.allow then .ok (some plan)
          else .error (.configurationError "caller scope does not allow this operation")

/-- Store an identifier in the field of its dimension. -/
def setField (result : Fields) (dv : IdentityDimension × String) : Fields :=
  Function.update result dv.1.field (some (.str dv.2))

/-- The loop of `scoped_values` that normalises the identity fields. -/
def normalizeFields (py : Runtime) : List IdentityDimension → Fields → Except Exc Fields
  | [], result      => .ok result
  | d :: ds, result =>
    match (result d.field).getD .null with
    | .null => normalizeFields py ds result
    | value =>
      match normalizeIdentifier py value with
      | .error e => .error e
      | .ok v    => normalizeFields py ds (setField result (d, v))

/-- The loop of `scoped_values` that stores the attribution. -/
def WriteAttribution.store (w : WriteAttribution) (values : Fields) : Fields :=
  w.values.foldl setField values

/-- `scoped_values`. -/
def scopedValues (bound : Option (CallerAuthority py)) (values : Fields)
    (operation : TenancyOperation) (authority : Option (CallerAuthority py) := none) :
    Except Exc Fields :=
  match enforceOperation bound operation values authority with
  | .error e        => .error e
  | .ok none        => .ok values
  | .ok (some plan) =>
    normalizeFields py IdentityDimension.order
      (match plan.writeAttribution with
        | some w => w.store values
        | none   => values)

/-- `scope_conditions`. -/
def scopeConditions (plan : Option (EnforcementPlan py)) : Filter :=
  match plan.bind (·.storageFilter) with
  | some f => f.toFilter [("session", "session_id")]
  | none   => []

/-! ### The boundary of a grant -/

/-- A payload lies inside the caller's grant: along every constrained dimension it carries one of
the granted values. -/
def CallerAuthority.Covers (caller : CallerAuthority py) (fields : Fields) : Prop :=
  ∀ d, caller.Constrains d → ∃ v ∈ caller.grant.scope.values d,
    (fields d.field).any (Json.matchesScalar (.str v)) = true

theorem enforceOperation_grants {bound authority : Option (CallerAuthority py)}
    {caller : CallerAuthority py} {operation : TenancyOperation} {selectors : Fields}
    {plan : Option (EnforcementPlan py)} (hcaller : (authority <|> bound) = some caller)
    (h : enforceOperation bound operation selectors authority = .ok plan) :
    ∃ p scope, plan = some p ∧ p.Grants caller operation scope := by
  unfold enforceOperation at h
  rw [hcaller] at h
  dsimp only at h
  split at h
  · cases h
  split at h
  · cases h
  split at h
  · cases h
  rename_i p hp
  split_ifs at h with hallow
  cases h
  obtain ⟨scope, hscope⟩ := planEnforcement_grants hp hallow
  exact ⟨p, scope, rfl, hscope⟩

/-! ### Reads -/

lemma aliased_field (d : IdentityDimension) :
    ([("session", "session_id")].lookup d.text).getD d.text = d.field := by
  cases d <;> decide

/-- The condition on a constrained dimension admits only payloads with a value of the scope. -/
lemma filterCondition_holds {scope : IdentityScope py} {d : IdentityDimension} {fields : Fields}
    (h : ((filterCondition scope d).toCondition [("session", "session_id")]).holds fields = true) :
    ∃ v ∈ scope.values d, (fields d.field).any (Json.matchesScalar (.str v)) = true := by
  unfold filterCondition FilterCondition.toCondition at h
  dsimp only at h
  rw [aliased_field] at h
  split_ifs at h with hlen
  · obtain ⟨v, hv⟩ := List.length_eq_one_iff.mp hlen
    rw [hv] at h
    exact ⟨v, FrozenSet.mem_def.mpr (hv ▸ List.mem_singleton_self v), h⟩
  · simp only [Condition.holds, FieldCondition.holds, Option.any_eq_true, List.any_map,
      List.any_eq_true, Function.comp_apply] at h
    obtain ⟨value, hvalue, v, hv, hmatch⟩ := h
    exact ⟨v, hv, by simp [hvalue, hmatch]⟩

/-- A read sees only payloads inside the grant. -/
theorem covers_of_accepts {caller : CallerAuthority py} {operation : TenancyOperation}
    {plan : EnforcementPlan py} {scope : IdentityScope py}
    (hplan : plan.Grants caller operation scope) (hreads : operation.requiresStorageFilter = true)
    {fields : Fields} (h : (scopeConditions (some plan)).accepts fields = true) :
    caller.Covers fields := by
  obtain ⟨f, hf, hbuild⟩ := hplan.storageFilter hreads
  intro d hd
  obtain ⟨hne, hsub⟩ := hplan.narrows d hd
  have hall : ∀ c ∈ f.conditions, (c.toCondition [("session", "session_id")]).holds fields = true := by
    simpa [scopeConditions, hf, StorageFilter.toFilter, Filter.accepts] using h
  rw [buildStorageFilter_ok hbuild] at hall
  obtain ⟨v, hv, hmatch⟩ := filterCondition_holds
    (hall _ (List.mem_map_of_mem (by simpa using hne)))
  exact ⟨v, hsub v hv, hmatch⟩

/-! ### Writes -/

@[simp] lemma setField_self (r : Fields) (d : IdentityDimension) (v : String) :
    setField r (d, v) d.field = some (.str v) := Function.update_self ..

lemma setField_of_ne (r : Fields) {d e : IdentityDimension} (v : String) (h : d ≠ e) :
    setField r (e, v) d.field = r d.field :=
  Function.update_of_ne (IdentityDimension.field_injective.ne h) ..

lemma store_field {w : WriteAttribution} {d : IdentityDimension} (values : Fields)
    (h : ∃ v, (d, v) ∈ w.values) :
    ∃ v, (d, v) ∈ w.values ∧ w.store values d.field = some (.str v) := by
  obtain ⟨l⟩ := w
  have hkeep : ∀ (l : List (IdentityDimension × String)) (r : Fields),
      (∀ v, (d, v) ∉ l) →
      l.foldl setField r d.field = r d.field := by
    intro l
    induction l with
    | nil => intro r _; rfl
    | cons e l ih =>
      intro r hl
      have hne : d ≠ e.1 := fun heq => hl e.2 (by simp [heq])
      rw [List.foldl_cons, ih _ fun v hv => hl v (List.mem_cons_of_mem _ hv),
        setField_of_ne r e.2 hne]
  unfold WriteAttribution.store
  induction l generalizing values with
  | nil => simp at h
  | cons e l ih =>
    by_cases hl : ∃ v, (d, v) ∈ l
    · obtain ⟨v, hv, hstore⟩ := ih (setField values e) hl
      exact ⟨v, List.mem_cons_of_mem _ hv, hstore⟩
    · obtain ⟨v, hv⟩ := h
      have he : (d, v) = e := (List.mem_cons.mp hv).resolve_right fun hv => hl ⟨v, hv⟩
      subst he
      refine ⟨v, hv, ?_⟩
      rw [List.foldl_cons, hkeep l _ (not_exists.mp hl), setField_self]

lemma normalizeFields_canonical {d : IdentityDimension} {v : String} (hv : Normalized py v)
    {ds : List IdentityDimension} {values result : Fields}
    (h : normalizeFields py ds values = .ok result) (hd : values d.field = some (.str v)) :
    result d.field = some (.str v) := by
  induction ds generalizing values with
  | nil => cases h; exact hd
  | cons e ds ih =>
    unfold normalizeFields at h
    split at h
    · exact ih h hd
    split at h
    · cases h
    rename_i value _ u hu
    refine ih h ?_
    by_cases he : e = d
    · subst he
      rw [hd] at hu
      have : u = v := Except.ok.inj (hu.symm.trans hv)
      rw [this, setField_self]
    · rw [setField_of_ne values u (Ne.symm he), hd]

/-- A write stores, along every constrained dimension, a value of the grant. -/
theorem scopedValues_covers {bound authority : Option (CallerAuthority py)}
    {caller : CallerAuthority py} {operation : TenancyOperation} {values result : Fields}
    (hcaller : (authority <|> bound) = some caller)
    (hwrites : operation.requiresWriteAttribution = true)
    (h : scopedValues bound values operation authority = .ok result)
    {d : IdentityDimension} (hd : caller.Constrains d) :
    ∃ v ∈ caller.grant.scope.values d, result d.field = some (.str v) := by
  unfold scopedValues at h
  split at h
  · cases h
  · rename_i hplan
    obtain ⟨p, scope, hp, -⟩ := enforceOperation_grants hcaller hplan
    cases hp
  rename_i plan hplan
  obtain ⟨p, scope, hp, hgrants⟩ := enforceOperation_grants hcaller hplan
  cases hp
  obtain ⟨w, hw, hbuild⟩ := hgrants.writeAttribution hwrites
  obtain ⟨hne, hsub⟩ := hgrants.narrows d hd
  obtain ⟨u, hu⟩ := FrozenSet.ne_empty_iff.mp hne
  obtain ⟨v, hv, hstore⟩ := store_field values
    ⟨u, (mem_buildWriteAttribution hbuild).mpr hu⟩
  rw [hw] at h
  have hmem := (mem_buildWriteAttribution hbuild).mp hv
  exact ⟨v, hsub v hmem, normalizeFields_canonical (scope.normalized d v hmem) h hstore⟩

/-! ### Point lookup by id -/

/-- A stored point: its id and the fields of its payload. -/
structure Point where
  id : String
  payload : Fields

abbrev Points := Table Point.id

/-- `PointRepository.retrieve`. -/
def Points.retrieve (points : Points) (id : String) (filter : Option Filter) : Option Point :=
  match filter with
  | none   => points.find? id
  | some f => (points.find? id).filter fun p => f.accepts p.payload

/-- `{"id": point["id"], **point["payload"]}`. -/
def Point.response (p : Point) : Fields := fun key =>
  p.payload key <|> if key = "id" then some (.str p.id) else none

/-- The common body of the two `get` methods. -/
def getPoint (operation : TenancyOperation) (points : Points) (id : String)
    (authority : CallerAuthority py) : Except Exc (Option Fields) :=
  match enforceOperation none operation (fun _ => none) (some authority) with
  | .error e => .error e
  | .ok plan =>
    let conditions := scopeConditions plan
    let filter := if conditions = [] then none else some conditions
    .ok ((points.retrieve id filter).map (·.response))

/-- `KnowledgeSearchService.get`. -/
def knowledgeGet (points : Points) (id : String) (authority : CallerAuthority py) :
    Except Exc (Option Fields) :=
  getPoint .knowledgeGet points id authority

/-- `MemoryService.get`. -/
def memoryGet (points : Points) (id : String) (authority : CallerAuthority py) :
    Except Exc (Option Fields) :=
  getPoint .memoryGet points id authority

/-- Two stores hold the same points inside the caller's grant. -/
def CallerAuthority.SeesSame (caller : CallerAuthority py) (s t : Points) : Prop :=
  ∀ p, caller.Covers p.payload → (p ∈ s.rows ↔ p ∈ t.rows)

/-- An empty filter and no filter admit the same points. -/
lemma retrieve_conditions (points : Points) (id : String) (f : Filter) :
    points.retrieve id (if f = [] then none else some f) =
      (points.find? id).filter fun p => f.accepts p.payload := by
  split_ifs with h
  · subst h
    cases hp : points.find? id <;> simp [Points.retrieve, hp, Option.filter]
  · rfl

lemma filter_find?_congr {s t : Points} {q : Point → Bool}
    (h : ∀ p, q p = true → (p ∈ s.rows ↔ p ∈ t.rows)) (id : String) :
    (s.find? id).filter q = (t.find? id).filter q := by
  refine Option.ext fun p => ?_
  simp only [Option.filter_eq_some_iff, and_congr_left_iff]
  intro hp
  constructor
  · intro hs
    rw [← Table.key_of_find? hs, Table.find?_of_mem ((h p hp).mp (Table.mem_of_find? hs))]
  · intro ht
    rw [← Table.key_of_find? ht, Table.find?_of_mem ((h p hp).mpr (Table.mem_of_find? ht))]

/-- What lies outside the grant does not influence a lookup. -/
theorem getPoint_congr {operation : TenancyOperation} (authority : CallerAuthority py)
    (hreads : operation.requiresStorageFilter = true) {s t : Points} (h : authority.SeesSame s t)
    (id : String) : getPoint operation s id authority = getPoint operation t id authority := by
  unfold getPoint
  split
  · rfl
  · rename_i plan hplan
    obtain ⟨p, scope, rfl, hgrants⟩ := enforceOperation_grants rfl hplan
    simp only [retrieve_conditions]
    rw [filter_find?_congr fun q hq => h q (covers_of_accepts hgrants hreads hq)]

/-! ### The boundary of a call -/

/-- Whatever a caller selects, its effective scope stays inside its grant, and so does every point
it reads and every value it stores; the points outside do not influence what it gets. -/
theorem enforcement_never_widens {bound authority : Option (CallerAuthority py)}
    {caller : CallerAuthority py} (hcaller : (authority <|> bound) = some caller) :
    (∀ operation selectors result,
      enforceOperation bound operation selectors authority = .ok result →
        ∃ plan scope, result = some plan ∧ plan.effectiveScope = some scope ∧
          scope.Narrows caller.grant.scope ∧
          (operation.requiresStorageFilter = true → ∀ fields,
            (scopeConditions result).accepts fields = true → caller.Covers fields)) ∧
    (∀ operation values result, operation.requiresWriteAttribution = true →
      scopedValues bound values operation authority = .ok result →
        ∀ d, caller.Constrains d → ∃ v ∈ caller.grant.scope.values d,
          result d.field = some (.str v)) ∧
    (∀ s t, caller.SeesSame s t → ∀ id, knowledgeGet s id caller = knowledgeGet t id caller ∧
      memoryGet s id caller = memoryGet t id caller) := by
  refine ⟨?_, ?_, ?_⟩
  · intro operation selectors result h
    obtain ⟨plan, scope, rfl, hgrants⟩ := enforceOperation_grants hcaller h
    exact ⟨plan, scope, rfl, hgrants.effectiveScope, hgrants.narrows,
      fun hreads fields => covers_of_accepts hgrants hreads⟩
  · intro operation values result hwrites h d hd
    exact scopedValues_covers hcaller hwrites h hd
  · intro s t hsame id
    exact ⟨getPoint_congr caller rfl hsame id, getPoint_congr caller rfl hsame id⟩

/-- The caller's search of its session, spelled with spaces, and a write to it. -/
def sessionSelectors : Fields := fun key =>
  if key = "session_id" then some (.str " s1 ") else none

theorem enforcement_never_widens_session :
    (∃ plan scope,
      enforceOperation (some sessionCaller) .knowledgeSearch sessionSelectors = .ok (some plan) ∧
        plan.effectiveScope = some scope ∧ scope.Narrows sessionCaller.grant.scope ∧
        ∀ fields, (scopeConditions (some plan)).accepts fields = true →
          sessionCaller.Covers fields) ∧
    (∃ result, scopedValues (some sessionCaller) sessionSelectors .knowledgeWrite = .ok result ∧
      ∃ v ∈ sessionCaller.grant.scope.values .session, result "session_id" = some (.str v)) := by
  have hcaller : (none <|> some sessionCaller) = some sessionCaller := rfl
  have hall := enforcement_never_widens hcaller
  constructor
  · have hok : (enforceOperation (some sessionCaller) .knowledgeSearch sessionSelectors).isOk := by
      decide +kernel
    cases h : enforceOperation (some sessionCaller) .knowledgeSearch sessionSelectors with
    | error e => rw [h] at hok; cases hok
    | ok result =>
      obtain ⟨plan, scope, rfl, hscope, hnarrow, hreads⟩ := hall.1 _ _ _ h
      exact ⟨plan, scope, rfl, hscope, hnarrow, hreads rfl⟩
  · have hok : (scopedValues (some sessionCaller) sessionSelectors .knowledgeWrite).isOk := by
      decide +kernel
    cases h : scopedValues (some sessionCaller) sessionSelectors .knowledgeWrite with
    | error e => rw [h] at hok; cases hok
    | ok result =>
      exact ⟨result, rfl, hall.2.1 _ _ _ rfl h .session
        (FrozenSet.ne_empty_iff.mpr ⟨"s1", by decide⟩)⟩

end CyberBrain.Tenancy
