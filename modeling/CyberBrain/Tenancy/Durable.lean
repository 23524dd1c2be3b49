import CyberBrain.Foundation.Sql
import CyberBrain.Tenancy.Models
import Mathlib.Data.Finset.Image

/-!
# Durable authority snapshots

A durable job keeps a snapshot of the authority that created it. Whether a caller sees the row is
decided in two places: in process, by restoring the snapshot and comparing scopes, and in SQL, by a
clause over the JSON of the snapshot. Both decisions agree.

A snapshot is kept here as the JSON value that its text stands for.
-/

namespace CyberBrain.Tenancy

open Python

variable {py : Runtime}

/-! ### Snapshots -/

variable (py) in
/-- The authority of a deployment without callers: one owner, no restrictions. -/
def singleOwner : CallerAuthority py where
  deploymentMode := .singleOwner
  grant := { scope := .unrestricted
             operations := {.adminReview, .backgroundReasoning, .read, .write}
             operations_nonempty := ⟨.read, by decide⟩ }

/-- `IdentityScope.as_dict` as JSON. -/
def IdentityScope.items (s : IdentityScope py) : List (String × Json) :=
  s.asDict.map fun dv => (dv.1.text, .arr (dv.2.map .str))

/-- The snapshot of one authority, with sorted keys. -/
def CallerAuthority.snapshot (caller : CallerAuthority py) : Json :=
  .obj [("mode", .str caller.deploymentMode.text),
    ("operations",
      .arr ((OperationClass.sorted.filter (· ∈ caller.grant.operations)).map (.str ·.text))),
    ("schema", .int 1),
    ("scope", .obj (sortItems caller.grant.scope.items))]

/-- `authority_snapshot`, with `bound` the authority bound to the context. -/
def authoritySnapshot (bound : Option (CallerAuthority py))
    (authority : Option (CallerAuthority py) := none) : Json :=
  ((authority <|> bound).getD (singleOwner py)).snapshot

/-! ### Restoring a snapshot -/

/-- What `IdentityScope.from_values` iterates over. -/
def asValues : Json → Except Exc (List String)
  | .null      => .ok []
  | .str s     => .ok [s]
  | .arr vs    => vs.mapM fun
    | .str s => .ok s
    | _      => .error (.typeError "identity identifier must be a string")
  | .obj items => .ok (items.map (·.1))
  | _          => .error (.typeError "object is not iterable")

variable (py) in
/-- `IdentityScope.from_values(**items)`. -/
def IdentityScope.fromValues (items : List (String × Json)) : Except Exc (IdentityScope py) :=
  if items.any fun kv => kv.1 ∉ IdentityDimension.order.map (·.text) then
    .error (.typeError "got an unexpected keyword argument")
  else
    match IdentityDimension.traverse fun d => asValues ((items.lookup d.text).getD .null) with
    | .error e => .error e
    | .ok raw  => IdentityScope.make py raw

/-- `DeploymentMode(value)`. -/
def DeploymentMode.ofJson : Json → Except Exc DeploymentMode
  | .str "single_owner" => .ok .singleOwner
  | .str "agent_ready"  => .ok .agentReady
  | .str "multi_user"   => .ok .multiUser
  | _                   => .error (.valueError "not a valid DeploymentMode")

/-- `OperationClass(op)`. -/
def OperationClass.ofJson : Json → Except Exc OperationClass
  | .str "read"                 => .ok .read
  | .str "write"                => .ok .write
  | .str "admin_review"         => .ok .adminReview
  | .str "background_reasoning" => .ok .backgroundReasoning
  | _                           => .error (.valueError "not a valid OperationClass")

variable (py) in
/-- The body of `restore_authority`, before its errors become a configuration error. -/
def decodeSnapshot (snapshot : Json) : Except Exc (CallerAuthority py) :=
  match snapshot with
  | .obj items =>
    let keys := ["schema", "mode", "scope", "operations"]
    if ¬ ((∀ kv ∈ items, kv.1 ∈ keys) ∧ ∀ k ∈ keys, k ∈ items.map (·.1)) then
      .error (.valueError "unknown authority snapshot")
    else
      match items.lookup "schema", items.lookup "mode", items.lookup "scope",
        items.lookup "operations" with
      | some (.int 1), some mode, some (.obj scope), some (.arr operations) => do
        let scope ← IdentityScope.fromValues py scope
        let operations ← operations.mapM OperationClass.ofJson
        let mode ← DeploymentMode.ofJson mode
        authorityForAuthenticatedScope py mode scope operations.toFinset
      | _, _, _, _ => .error (.valueError "unknown authority snapshot")
  | _ => .error (.valueError "unknown authority snapshot")

variable (py) in
/-- `restore_authority`. -/
def restoreAuthority (snapshot : Json) : Except Exc (CallerAuthority py) :=
  match decodeSnapshot py snapshot with
  | .ok authority => .ok authority
  | .error _      => .error (.configurationError "invalid durable authority snapshot")

/-! ### Visibility -/

/-- A persisted scope lies inside a caller's: along every dimension the caller constrains it has
values, all of them the caller's. -/
def IdentityScope.within (persisted : IdentityScope py)
    (caller : List (IdentityDimension × List String)) : Bool :=
  caller.all fun (d, allowed) =>
    (persisted.values d).sorted ≠ [] && (persisted.values d).sorted.all (· ∈ allowed)

/-- `snapshot_visible`. -/
def snapshotVisible (bound : Option (CallerAuthority py)) (snapshot : Option Json) :
    Except Exc Bool :=
  match bound with
  | none        => .ok true
  | some caller =>
    if caller.grant.scope.asDict = [] then .ok true
    else
      match snapshot with
      | none   => .ok false
      | some s =>
        match restoreAuthority py s with
        | .error e      => .error e
        | .ok persisted => .ok (persisted.grant.scope.within caller.grant.scope.asDict)

/-- `json_array_length(column, path) > 0 AND NOT EXISTS (SELECT 1 FROM json_each(column, path) AS
scoped WHERE scoped.value NOT IN (allowed))`. -/
structure SnapshotClause where
  column : String
  path : List String
  allowed : List String
  deriving DecidableEq, Repr

/-- The truth value of the clause on a row of JSON columns. -/
def SnapshotClause.eval (c : SnapshotClause) (render : Json → String) (row : String → Option Json) :
    Sql.Truth :=
  ((Sql.jsonArrayLength (row c.column) c.path).gt 0).and
    (some (! (Sql.jsonEach render (row c.column) c.path).any fun v =>
      v.notIn (c.allowed.map .text) = some true))

/-- `snapshot_sql_filter`: the clauses that it joins to the condition of a query. -/
def snapshotSqlFilter (bound : Option (CallerAuthority py)) (column : String) :
    Except Exc (List SnapshotClause) :=
  if column ∉ ["authority_json", "a.authority_json"] then
    .error (.valueError "unsupported snapshot column")
  else
    match bound with
    | none        => .ok []
    | some caller => .ok (caller.grant.scope.asDict.map fun (d, allowed) =>
        { column, path := ["scope", d.text], allowed })

/-- A row satisfies the clauses when each of them is true on it. -/
def satisfies (clauses : List SnapshotClause) (render : Json → String)
    (row : String → Option Json) : Bool :=
  clauses.all fun c => c.eval render row = some true

/-! ### The snapshot of an authority restores it -/

lemma IdentityDimension.text_injective : Function.Injective IdentityDimension.text := by
  intro d e h
  cases d <;> cases e <;> first | rfl | exact absurd h (by decide)

lemma IdentityScope.mem_items {s : IdentityScope py} {d : IdentityDimension} {v : Json} :
    (d.text, v) ∈ s.items ↔ s.values d ≠ ∅ ∧ v = .arr ((s.values d).sorted.map .str) := by
  simp only [items, List.mem_map, Prod.mk.injEq, Prod.exists]
  constructor
  · rintro ⟨e, vs, hmem, htext, rfl⟩
    obtain rfl := IdentityDimension.text_injective htext
    obtain ⟨hne, rfl⟩ := IdentityScope.mem_asDict.mp hmem
    exact ⟨hne, rfl⟩
  · rintro ⟨hne, rfl⟩
    exact ⟨d, _, IdentityScope.mem_asDict.mpr ⟨hne, rfl⟩, rfl, rfl⟩

lemma IdentityScope.nodup_items (s : IdentityScope py) : (s.items.map (·.1)).Nodup := by
  have hkeys : s.items.map (·.1) =
      (IdentityDimension.order.filter fun d => s.values d ≠ ∅).map (·.text) := by
    simp [items, asDict, Function.comp_def]
  rw [hkeys]
  exact ((show IdentityDimension.order.Nodup by decide).filter _).map
    IdentityDimension.text_injective

/-- The snapshot lists the values of exactly the constrained dimensions. -/
lemma IdentityScope.lookup_items (s : IdentityScope py) (d : IdentityDimension) :
    (sortItems s.items).lookup d.text =
      if s.values d ≠ ∅ then some (.arr ((s.values d).sorted.map .str)) else none := by
  rw [lookup_perm (sortItems_perm _)
    (((sortItems_perm s.items).map _).nodup_iff.mpr s.nodup_items)]
  refine Option.ext fun v => ?_
  rw [lookup_eq_some_iff s.nodup_items, IdentityScope.mem_items]
  split_ifs with h <;> simp [h, eq_comm]

lemma asValues_strings (vs : List String) : asValues (.arr (vs.map .str)) = .ok vs := by
  unfold asValues
  induction vs with
  | nil => rfl
  | cons v vs ih =>
    dsimp only at ih ⊢
    rw [List.map_cons, List.mapM_cons, ih]
    rfl

theorem IdentityScope.fromValues_items (s : IdentityScope py) :
    IdentityScope.fromValues py (sortItems s.items) = .ok s := by
  have hknown : ¬ ((sortItems s.items).any fun kv =>
      kv.1 ∉ IdentityDimension.order.map (·.text)) = true := by
    simp only [List.any_eq_true, decide_eq_true_eq, not_exists, not_and, not_not]
    intro kv hkv
    obtain ⟨dv, -, rfl⟩ := List.mem_map.mp ((sortItems_perm _).mem_iff.mp hkv)
    exact List.mem_map_of_mem (IdentityDimension.mem_order dv.1)
  have hraw : (IdentityDimension.traverse fun d =>
      asValues (((sortItems s.items).lookup d.text).getD .null)) =
        .ok fun d => (s.values d).sorted := by
    rw [IdentityDimension.traverse_eq_ok_iff]
    intro d
    rw [s.lookup_items d]
    split_ifs with h
    · exact asValues_strings _
    · rw [FrozenSet.sorted_eq_nil_iff.mpr (not_not.mp h)]
      rfl
  unfold fromValues
  rw [if_neg hknown, hraw]
  exact IdentityScope.make_eq_ok_iff.mpr fun d => normalizeValues_sorted (s.normalized d)

lemma OperationClass.mapM_ofJson (ops : List OperationClass) :
    (ops.map (Json.str ·.text)).mapM OperationClass.ofJson = .ok ops := by
  induction ops with
  | nil => rfl
  | cons op ops ih =>
    rw [List.map_cons, List.mapM_cons, ih]
    cases op <;> rfl

lemma DeploymentMode.ofJson_text (mode : DeploymentMode) :
    DeploymentMode.ofJson (.str mode.text) = .ok mode := by
  cases mode <;> rfl

/-- The authority was built for an authenticated caller, as every bound authority is. -/
def CallerAuthority.Authenticated (caller : CallerAuthority py) : Prop :=
  authorityForAuthenticatedScope py caller.deploymentMode caller.grant.scope
    caller.grant.operations = .ok caller

theorem restoreAuthority_snapshot {caller : CallerAuthority py} (h : caller.Authenticated) :
    restoreAuthority py caller.snapshot = .ok caller := by
  have hops : (OperationClass.sorted.filter (· ∈ caller.grant.operations)).toFinset =
      caller.grant.operations := by
    ext op
    cases op <;> simp [OperationClass.sorted]
  have hdecode : decodeSnapshot py caller.snapshot = .ok caller := by
    simp only [decodeSnapshot, CallerAuthority.snapshot]
    simpa [List.lookup_cons, IdentityScope.fromValues_items, OperationClass.mapM_ofJson,
      DeploymentMode.ofJson_text, hops, bind, Except.bind, -List.mapM_map,
      CallerAuthority.Authenticated] using h
  unfold restoreAuthority
  rw [hdecode]

lemma singleOwner_authenticated : (singleOwner py).Authenticated := rfl

/-! ### The two visibility checks agree -/

/-- The clause of one dimension, on a row that stores a snapshot: the persisted scope constrains
the dimension, to allowed values. -/
lemma clause_eval {render : Json → String} {row : String → Option Json} {column : String}
    {owner : CallerAuthority py} (hrow : row column = some owner.snapshot) (d : IdentityDimension)
    (allowed : List String) :
    SnapshotClause.eval { column, path := ["scope", d.text], allowed } render row = some true ↔
      owner.grant.scope.values d ≠ ∅ ∧ ∀ v ∈ owner.grant.scope.values d, v ∈ allowed := by
  have hpath : (row column).bind (Sql.atPath · ["scope", d.text]) =
      if owner.grant.scope.values d ≠ ∅ then
        some (.arr ((owner.grant.scope.values d).sorted.map .str)) else none := by
    rw [hrow, ← owner.grant.scope.lookup_items d]
    simp [CallerAuthority.snapshot, Sql.atPath, List.lookup_cons]
  simp only [SnapshotClause.eval, Sql.jsonArrayLength, Sql.jsonEach, hpath, Sql.Truth.and_eq_true]
  split_ifs with h
  · have hlen : 0 < (owner.grant.scope.values d).sorted.length :=
      List.length_pos_iff.mpr fun hnil => h (FrozenSet.sorted_eq_nil_iff.mp hnil)
    simp [Sql.Value.gt, hlen, Sql.ofJson, Sql.Value.notIn_text_eq_true, h, FrozenSet.mem_def]
  · simp [Sql.Value.gt, h]

lemma clause_eval_null {render : Json → String} {row : String → Option Json} {c : SnapshotClause}
    (hrow : row c.column = none) : c.eval render row ≠ some true := by
  simp [SnapshotClause.eval, Sql.jsonArrayLength, hrow, Sql.Value.gt]

/-- The SQL clause and the check in process see the same rows: rows without a snapshot and rows
whose snapshot was taken of an authenticated caller. -/
theorem satisfies_snapshotSqlFilter_iff {bound : Option (CallerAuthority py)} {column : String}
    {clauses : List SnapshotClause} (hclauses : snapshotSqlFilter bound column = .ok clauses)
    {context owner : Option (CallerAuthority py)}
    (howner : ∀ a, (owner <|> context) = some a → a.Authenticated)
    {stored : Option Json} (hstored : stored = none ∨ stored = some (authoritySnapshot context owner))
    {row : String → Option Json} (hrow : row column = stored) (render : Json → String) :
    satisfies clauses render row = true ↔ snapshotVisible bound stored = .ok true := by
  unfold snapshotSqlFilter at hclauses
  split_ifs at hclauses
  cases bound with
  | none =>
    cases hclauses
    simp [satisfies, snapshotVisible]
  | some caller =>
    cases hclauses
    simp only [satisfies, snapshotVisible, List.all_map, Function.comp_def]
    split_ifs with hopen
    · simp [hopen]
    obtain rfl | hstored := hstored
    · obtain ⟨⟨d, allowed⟩, hmem⟩ := List.exists_mem_of_ne_nil _ hopen
      simp only [List.all_eq_true, decide_eq_true_eq, Except.ok.injEq, Bool.false_eq_true,
        iff_false, not_forall]
      exact ⟨(d, allowed), hmem, clause_eval_null hrow⟩
    · obtain ⟨a, ha, hsnap⟩ : ∃ a : CallerAuthority py, a.Authenticated ∧
          authoritySnapshot context owner = a.snapshot := by
        cases hactual : owner <|> context with
        | none =>
          exact ⟨singleOwner py, singleOwner_authenticated, by simp [authoritySnapshot, hactual]⟩
        | some a => exact ⟨a, howner a hactual, by simp [authoritySnapshot, hactual]⟩
      subst hstored
      rw [hsnap] at hrow ⊢
      simp only [restoreAuthority_snapshot ha, Except.ok.injEq, IdentityScope.within,
        List.all_eq_true, decide_eq_true_eq, Bool.and_eq_true, clause_eval hrow,
        Ne, FrozenSet.sorted_eq_nil_iff, FrozenSet.mem_def]

theorem satisfies_snapshotSqlFilter_session :
    ∃ clauses, snapshotSqlFilter (some sessionCaller) "authority_json" = .ok clauses ∧
      (satisfies clauses (fun _ => "") (fun _ => some (authoritySnapshot none (some sessionCaller))) ↔
        snapshotVisible (some sessionCaller) (some (authoritySnapshot none (some sessionCaller))) =
          .ok true) := by
  have hclauses : snapshotSqlFilter (some sessionCaller) "authority_json" = .ok _ := rfl
  have howner : ∀ a, (some sessionCaller <|> none) = some a → a.Authenticated := by
    intro a ha
    cases ha
    rfl
  exact ⟨_, hclauses, satisfies_snapshotSqlFilter_iff hclauses howner (.inr rfl) rfl _⟩

end CyberBrain.Tenancy
