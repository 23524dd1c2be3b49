import CyberBrain.Relations.Admissible

/-!
# Answers to the queries

A read of a traversal shows exactly the records that its query matches within the caller's grant, or
it ends the traversal.
-/

namespace CyberBrain.Relations

open Program Python Schemas Tenancy RelationTraversal

variable {py : Runtime}

/-! ### Answers -/

/-- A complete answer to a query. -/
structure Answer {ρ : Type} (schema : RecordSchema ρ) (points : RelationPoints ρ) (q : Query)
    (page : List (RelationPoint ρ)) : Prop where
  nodup : page.Nodup
  mem_iff : ∀ p, p ∈ page ↔ p ∈ points.rows ∧ q.matches schema p

/-- A part of a traversal that found nothing: only calls were charged. -/
structure Kept (maximum : ℕ) (s u : TraversalState) : Prop where
  used : u.used ≤ maximum
  paths : u.paths = s.paths
  nodes : u.nodes = s.nodes
  edgeIds : u.edgeIds = s.edgeIds
  reasons : u.reasons = s.reasons

/-- A part of a traversal that found nothing and ends early, but not for its depth. -/
structure Cut (maximum : ℕ) (s : TraversalState) (e : Interruption) (u : TraversalState) : Prop
    extends Kept maximum s u where
  not_depth : e ≠ .limit "depth"

section Reads

variable {s : TraversalState} {maximum : ℕ}

/-- Go on with the value of a computation, or end with its exception. -/
lemma checked_bind {α β : Type} {x : Except Exc α} {f : α → Traversing β}
    {P : TraversalState → Prop} {Q : β → TraversalState → Prop}
    {E : Interruption → TraversalState → Prop} (hok : ∀ a, x = .ok a → Triple P (f a) Q E)
    (herr : ∀ e u, P u → E (.raised e) u) : Triple P (checked x >>= f) Q E := by
  cases x with
  | ok a => exact hok a rfl
  | error e => exact fun u hu => herr e u hu

lemma Kept.raised {u : TraversalState} (h : Kept maximum s u) (e : Exc) :
    Cut maximum s (.raised e) u :=
  ⟨h, by simp⟩

lemma charge_triple : Triple (Kept maximum s) (RelationTraversal.charge maximum)
    (fun _ => Kept maximum s) (Cut maximum s) := by
  intro u hu
  unfold RelationTraversal.charge
  by_cases h : maximum ≤ u.used
  · rw [if_pos h]
    exact ⟨hu, by simp⟩
  · rw [if_neg h]
    exact ⟨by simp only; omega, hu.paths, hu.nodes, hu.edgeIds, hu.reasons⟩

/-- A read finds nothing by itself. -/
lemma read_kept (t : RelationTraversal py) {ρ : Type} {scroll : Query → ℕ → List (RelationPoint ρ) × Bool}
    {episode complete : Bool} {q : Query} {limit : ℕ} :
    Triple (Kept maximum s) (t.read scroll episode maximum q limit complete)
      (fun _ => Kept maximum s) (Cut maximum s) := by
  unfold RelationTraversal.read
  refine checked_bind (fun scope _ => ?_) fun e _ hu => hu.raised e
  refine Triple.bind _ charge_triple fun _ => ?_
  refine Triple.ite (fun _ => Triple.raise fun _ hu => ⟨hu, by simp⟩) fun _ => ?_
  exact Triple.pure fun _ hu => hu

variable (maximum) in
/-- A read shows what matches in the scope of the caller. -/
lemma read_triple (t : RelationTraversal py) {ρ : Type} {schema : RecordSchema ρ}
    {scroll : RelationScroll ρ} (hlawful : scroll.Lawful schema) (points : RelationPoints ρ)
    (episode : Bool) (q : Query) :
    Triple (Kept maximum s) (t.read (scroll points) episode maximum q)
      (fun page u => Kept maximum s u ∧ ∃ caller, t.bound = some caller ∧
        Answer schema points (q.within (grantFilter caller)) page)
      (Cut maximum s) := by
  unfold RelationTraversal.read
  refine checked_bind (fun scope hscope => ?_) fun e _ hu => hu.raised e
  refine Triple.bind _ charge_triple fun _ => ?_
  rcases hpage : scroll points (q.within scope) 256 with ⟨page, more⟩
  obtain ⟨caller, hcaller, rfl⟩ := conditions_eq_ok hscope
  cases more with
  | true => exact Triple.raise fun _ hu => ⟨hu, by simp⟩
  | false =>
    refine Triple.pure fun u hu => ⟨hu, caller, hcaller, ?_, fun p => ⟨fun hp => ?_, fun hp => ?_⟩⟩
    · have := hlawful.nodup points (q.within (grantFilter caller)) 256
      rwa [hpage] at this
    · have := hlawful.mem points (q.within (grantFilter caller)) 256 p
      rw [hpage] at this
      exact this hp
    · have := hlawful.complete points (q.within (grantFilter caller)) 256
      rw [hpage] at this
      exact this rfl p hp.1 hp.2

end Reads

/-! ### The fields of Knowledge -/

/-- The keys of the projection that filters match. -/
def indexKeys : List String :=
  [indexPrefix ++ ".schema_version", indexPrefix ++ ".owner_key", indexPrefix ++ ".target_keys"]

lemma indexValues_of_notMem {index : RelationIndex} {key : String} (h : key ∉ indexKeys) :
    indexValues index key = none := by
  simp only [indexKeys, List.mem_cons, List.not_mem_nil, or_false, not_or] at h
  cases index with
  | ineligible => exact if_neg h.1
  | eligible ownerKey targetKeys bundleDigest =>
    rw [indexValues, if_neg h.1, if_neg h.2.1, if_neg h.2.2]

lemma knowledge_fields (r : KnowledgeRecord py) {key : String} (h : key ∉ indexKeys) :
    (knowledgeSchema py).fields r key = r.fields key := by
  simp only [knowledgeSchema, indexValues_of_notMem h]
  cases r.extensions.relationIndex <;> rfl

lemma indexKeys_fields (r : KnowledgeRecord py) (key : String) (h : key ∈ indexKeys) :
    r.fields key = none := by
  simp only [indexKeys, List.mem_cons, List.not_mem_nil, or_false] at h
  rcases h with rfl | rfl | rfl <;> rfl

lemma fields_owner (r : KnowledgeRecord py) :
    (knowledgeSchema py).fields r (indexPrefix ++ ".owner_key") = (ownerKey r).map Json.str := by
  have hnone := indexKeys_fields r (indexPrefix ++ ".owner_key") (by decide)
  have hne : indexPrefix ++ ".owner_key" ≠ indexPrefix ++ ".schema_version" := by decide
  simp only [knowledgeSchema, hnone, ownerKey]
  cases r.extensions.relationIndex with
  | none => rfl
  | some index =>
    cases index with
    | ineligible => simp [indexValues, hne]
    | eligible => simp [indexValues, hne]

/-- The keys of the accepted targets in the stored projection of a record. -/
def storedTargets (r : KnowledgeRecord py) : List String :=
  match r.extensions.relationIndex with
  | some (.eligible _ targetKeys _) => targetKeys.sorted
  | _                               => []

lemma fields_targets (r : KnowledgeRecord py) (s : Scalar) :
    ((knowledgeSchema py).fields r (indexPrefix ++ ".target_keys")).any (Json.matchesScalar s) =
      (storedTargets r).any fun key => Scalar.str key = s := by
  have hnone := indexKeys_fields r (indexPrefix ++ ".target_keys") (by decide)
  have hversion : indexPrefix ++ ".target_keys" ≠ indexPrefix ++ ".schema_version" := by decide
  have howner : indexPrefix ++ ".target_keys" ≠ indexPrefix ++ ".owner_key" := by decide
  simp only [knowledgeSchema, hnone, storedTargets]
  cases r.extensions.relationIndex with
  | none => rfl
  | some index =>
    cases index with
    | ineligible => simp [indexValues, hversion]
    | eligible =>
      simp [indexValues, hversion, howner, Json.matchesScalar, Json.scalar?, Function.comp_def]

lemma holds_owner {r : KnowledgeRecord py} {keys : List String} :
    (FieldCondition.matchAny (indexPrefix ++ ".owner_key") (keys.map .str)).holds
      ((knowledgeSchema py).fields r) = true ↔ ∃ key ∈ ownerKey r, key ∈ keys := by
  simp only [FieldCondition.holds, fields_owner]
  cases ownerKey r <;> simp [Json.matchesScalar, Json.scalar?]

lemma holds_targets {r : KnowledgeRecord py} {keys : List String} :
    (FieldCondition.matchAny (indexPrefix ++ ".target_keys") (keys.map .str)).holds
      ((knowledgeSchema py).fields r) = true ↔ ∃ key ∈ storedTargets r, key ∈ keys := by
  have hswap (v : Option Json) : (v.any fun v => (keys.map Scalar.str).any fun s =>
      v.matchesScalar s) = (keys.map Scalar.str).any fun s => v.any (Json.matchesScalar s) := by
    cases v <;> simp
  rw [FieldCondition.holds, hswap]
  simp only [fields_targets, List.any_map, List.any_eq_true, Function.comp_apply,
    decide_eq_true_eq, Scalar.str.injEq]
  constructor
  · rintro ⟨key, hkey, key', hkey', rfl⟩
    exact ⟨key', hkey', hkey⟩
  · rintro ⟨key, hkey, hmem⟩
    exact ⟨key, hmem, key, hkey, rfl⟩

lemma knowledgeFilter_accepts {r : KnowledgeRecord py} :
    knowledgeFilter.accepts ((knowledgeSchema py).fields r) = true ↔ r.recordClass = .knowledge := by
  have htype : (knowledgeSchema py).fields r "record_type" = some (.str "knowledge") :=
    (knowledge_fields r (by decide)).trans rfl
  have hclass : (knowledgeSchema py).fields r "record_class" = some (.str r.recordClass.text) :=
    (knowledge_fields r (by decide)).trans rfl
  simp only [knowledgeFilter, Filter.accepts_cons, Filter.accepts_nil, Condition.holds,
    FieldCondition.holds_matchValue_str htype, FieldCondition.holds_matchValue_str hclass]
  cases r.recordClass <;> decide

/-! ### What the queries match -/

variable {caller : CallerAuthority py} {policy : TraversalPolicy} {at' : Instant}
  {scope : RelationScope py} {keys : List String} {proofs : List Uuid}
  {p : RelationPoint (KnowledgeRecord py)} {r : KnowledgeRecord py}

lemma currentFilter_accepts : (currentFilter policy).accepts ((knowledgeSchema py).fields r) = true ↔
    (policy.asOf.isSome = false → r.status = .active) := by
  have hstatus : (knowledgeSchema py).fields r "status" = some (.str r.status.text) :=
    (knowledge_fields r (by decide)).trans rfl
  unfold currentFilter
  by_cases h : policy.asOf.isSome = true
  · simp [h]
  · rw [if_neg h, Filter.accepts_cons, Condition.holds,
      FieldCondition.holds_matchValue_str hstatus]
    cases r.status <;> simp [h, KnowledgeStatus.text]

@[simp] lemma knowledge_createdAt : (knowledgeSchema py).createdAt r = r.createdAt := rfl

/-- The records that the query of owners matches. -/
lemma ownersQuery_matches (hr : canonical (knowledgeSchema py) p = .ok r) :
    ((ownersQuery policy at' scope keys).within (grantFilter caller)).matches (knowledgeSchema py)
      p ↔ (grantFilter caller).accepts ((knowledgeSchema py).fields r) = true ∧
        r.recordClass = .knowledge ∧ r.toIdentityValues = scope.toIdentityValues ∧
        (policy.asOf.isSome = false → r.status = .active) ∧ r.createdAt ≤ at' ∧
        ((∃ key ∈ ownerKey r, key ∈ keys) ∨ ∃ key ∈ storedTargets r, key ∈ keys) := by
  simp only [Query.matches, Query.within, ownersQuery, fields_of_canonical hr,
    createdAt_of_canonical hr, Filter.accepts_append, Bool.and_eq_true, knowledgeFilter_accepts,
    scopeFilter_accepts_session (knowledge_carries r), currentFilter_accepts, Selector.holds]
  simp [holds_owner, holds_targets, knowledge_createdAt, and_assoc]

/-- The records that the query of versions and evidence matches. -/
lemma recordsQuery_matches (hr : canonical (knowledgeSchema py) p = .ok r) :
    ((recordsQuery at' scope keys proofs).within (grantFilter caller)).matches (knowledgeSchema py)
      p ↔ (grantFilter caller).accepts ((knowledgeSchema py).fields r) = true ∧
        r.recordClass = .knowledge ∧ sharesPartition scope r.toIdentityValues ∧
        r.createdAt ≤ at' ∧ ((∃ key ∈ ownerKey r, key ∈ keys) ∨ r.id ∈ proofs) := by
  have hid : r.id = p.id := (canonical_eq_ok.mp hr).2
  simp only [Query.matches, Query.within, recordsQuery, fields_of_canonical hr,
    createdAt_of_canonical hr, Filter.accepts_append, Bool.and_eq_true, knowledgeFilter_accepts,
    scopeFilter_accepts_shared (knowledge_carries r), Selector.holds]
  by_cases hnil : proofs = []
  · simp [hnil, holds_owner, knowledge_createdAt, and_assoc]
  · simp [hnil, holds_owner, knowledge_createdAt, hid,
      and_assoc]

/-- The seeds that are found. -/
lemma seedsQuery_matches {ids : List Uuid} (hr : canonical (knowledgeSchema py) p = .ok r) :
    ((seedsQuery policy at' ids).within (grantFilter caller)).matches (knowledgeSchema py) p ↔
      (grantFilter caller).accepts ((knowledgeSchema py).fields r) = true ∧
        r.recordClass = .knowledge ∧ (policy.asOf.isSome = false → r.status = .active) ∧
        r.createdAt ≤ at' ∧ r.id ∈ ids := by
  have hid : r.id = p.id := (canonical_eq_ok.mp hr).2
  simp only [Query.matches, Query.within, seedsQuery, fields_of_canonical hr,
    createdAt_of_canonical hr, Filter.accepts_append, Bool.and_eq_true, knowledgeFilter_accepts,
    currentFilter_accepts]
  simp [knowledge_createdAt, hid, and_assoc]

/-- The episodes that are found as evidence. -/
lemma episodesQuery_matches {p : RelationPoint EpisodeRecord} {r : EpisodeRecord}
    (hr : canonical episodeSchema p = .ok r) :
    ((episodesQuery scope proofs).within (grantFilter caller)).matches episodeSchema p ↔
      (grantFilter caller).accepts r.fields = true ∧ sharesPartition scope (episodeIdentity r) ∧
        r.id ∈ proofs := by
  have hid : r.id = p.id := (canonical_eq_ok.mp hr).2
  have hfields : p.fields episodeSchema = r.fields := fields_of_canonical hr
  have htype : r.fields "record_type" = some (.str "episode") := rfl
  simp only [Query.matches, Query.within, episodesQuery, hfields, Filter.accepts_append,
    Bool.and_eq_true, scopeFilter_accepts_shared (episode_carries r), Filter.accepts_cons,
    Filter.accepts_nil, Condition.holds, FieldCondition.holds_matchValue_str htype]
  simp [hid, and_assoc]

end CyberBrain.Relations
