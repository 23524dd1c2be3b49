import CyberBrain.Relations.Canonical
import Mathlib.Data.List.Permutation

/-!
# Bundles read back from their dumps

What `model_validate` reads from JSON: the fields of each model, which admit no others, and then
the validation of what was read. Texts of times are read by pydantic, which is a parameter here.
-/

namespace CyberBrain.Relations

open Python Tenancy

variable {py : Runtime}

/-! ### Fields of objects -/

/-- A text field. -/
def readText : Json → Except Exc String
  | .str s => .ok s
  | _      => .error (.valueError "input should be a valid string")

/-- A field that may be null. -/
def readNullable {α : Type} (read : Json → Except Exc α) : Json → Except Exc (Option α)
  | .null => .ok none
  | v     => some <$> read v

/-- The members of an array. -/
def readMembers {α : Type} (read : Json → Except Exc α) : Json → Except Exc (List α)
  | .arr vs => vs.mapM read
  | _       => .error (.valueError "input should be a valid tuple")

/-- The items of an object without other keys than these. -/
def readItems (keys : List String) : Json → Except Exc (List (String × Json))
  | .obj items => do
    require (∀ kv ∈ items, kv.1 ∈ keys) (.valueError "extra inputs are not permitted")
    pure items
  | _          => .error (.valueError "input should be a valid dictionary")

/-- A field of an object; an absent one has the default, if there is one. -/
def readField {α : Type} (items : List (String × Json)) (key : String)
    (read : Json → Except Exc α) (absent : Option α := none) : Except Exc α :=
  match items.lookup key with
  | some v => read v
  | none   => orRaise absent (.valueError "field required")

lemma readField_eq {α : Type} {items : List (String × Json)} {key : String} {v : Json}
    (h : items.lookup key = some v) (read : Json → Except Exc α) (absent : Option α) :
    readField items key read absent = read v := by
  rw [readField, h]

@[simp] lemma readText_str (s : String) : readText (.str s) = .ok s := rfl

@[simp] lemma readNullable_ofText? (s : Option String) :
    readNullable readText (Json.ofText? s) = .ok s := by
  cases s <;> rfl

/-! ### The models -/

def RelationKind.parse (s : String) : Option RelationKind :=
  [dependsOn, partOf, supports, contradicts, causes].find? fun kind => kind.text = s

def RelationStatus.parse (s : String) : Option RelationStatus :=
  [proposed, accepted, rejected].find? fun status => status.text = s

def EvidenceType.parse (s : String) : Option EvidenceType :=
  [knowledge, episode].find? fun type => type.text = s

@[simp] lemma RelationKind.parse_text (kind : RelationKind) : parse kind.text = some kind := by
  cases kind <;> decide

@[simp] lemma RelationStatus.parse_text (status : RelationStatus) :
    parse status.text = some status := by
  cases status <;> decide

@[simp] lemma EvidenceType.parse_text (type : EvidenceType) : parse type.text = some type := by
  cases type <;> decide

/-- A text that stands for a value. -/
def readParsed {α : Type} (parse : String → Option α) (v : Json) : Except Exc α := do
  let s ← readText v
  orRaise (parse s) (.valueError "input is not valid")

lemma readParsed_str {α : Type} {parse : String → Option α} {s : String} {a : α}
    (h : parse s = some a) : readParsed parse (.str s) = .ok a :=
  bind_eq_ok.mpr ⟨s, rfl, orRaise_eq_ok.mpr h⟩

def readScope (v : Json) : Except Exc IdentityValues := do
  let items ← readItems (IdentityDimension.order.map (·.field)) v
  let values ← IdentityDimension.traverse fun d =>
    readField items d.field (readNullable readText) (some none)
  pure {
    tenant := values .tenant
    user := values .user
    agent := values .agent
    project := values .project
    sessionId := values .session }

def readContext : Json → Except Exc Context
  | .obj items => .ok items
  | _          => .error (.valueError "input should be a valid dictionary")

def readEntity (v : Json) : Except Exc EntityInput := do
  let items ← readItems ["domain", "topic", "entity_type", "entity_name", "context", "scope"] v
  let domain ← readField items "domain" readText
  let topic ← readField items "topic" readText
  let entityType ← readField items "entity_type" readText
  let entityName ← readField items "entity_name" readText
  let context ← readField items "context" readContext (some [])
  let scope ← readField items "scope" readScope (some {})
  pure { domain, topic, entityType, entityName, context, scope }

def readEvidence (v : Json) : Except Exc EvidenceRef := do
  let items ← readItems ["record_type", "id"] v
  let recordType ← readField items "record_type" (readParsed EvidenceType.parse)
  let id ← readField items "id" (readParsed Uuid.parse)
  pure ⟨recordType, id⟩

variable (parseTime : String → Option DateTime)

def readEdge (v : Json) : Except Exc ZonedEdge := do
  let items ← readItems ["relation_id", "kind", "source", "target", "target_record_id", "evidence",
    "status", "valid_from", "valid_until", "review_note"] v
  let relationId ← readField items "relation_id" (readNullable readText) (some none)
  let kind ← readField items "kind" (readParsed RelationKind.parse)
  let source ← readField items "source" readEntity
  let target ← readField items "target" readEntity
  let targetRecordId ← readField items "target_record_id" (readParsed Uuid.parse)
  let evidence ← readField items "evidence" (readMembers readEvidence)
  let status ← readField items "status" (readParsed RelationStatus.parse) (some .proposed)
  let validFrom ← readField items "valid_from" (readParsed parseTime)
  let validUntil ← readField items "valid_until" (readNullable (readParsed parseTime)) (some none)
  let reviewNote ← readField items "review_note" (readNullable readText) (some none)
  pure {
    relationId, kind, source, target, targetRecordId, evidence, status, validFrom, validUntil
    reviewNote }

/-- `validate_schema`. -/
def readSchema : Json → Except Exc Unit
  | .int 1 => .ok ()
  | _      => .error (.valueError "unknown relations schema")

def readBundle (v : Json) : Except Exc (List ZonedEdge) := do
  let items ← readItems ["schema_version", "edges"] v
  readField items "schema_version" readSchema
  readField items "edges" (readMembers (readEdge parseTime)) (some [])

variable (py) in
/-- `RelationBundle.model_validate`. -/
def modelValidate (v : Json) : Except Exc (RelationBundle py) := do
  let edges ← readBundle parseTime v
  validateZoned py edges

/-! ### Reading dumps -/

lemma readItems_eq {keys : List String} {items : List (String × Json)}
    (h : ∀ kv ∈ items, kv.1 ∈ keys) : readItems keys (.obj items) = .ok items :=
  bind_eq_ok.mpr ⟨(), require_eq_ok.mpr h, rfl⟩

lemma readMembers_map {α β : Type} {read : Json → Except Exc β} {dump : α → Json} {l : List α}
    {m : List β} (h : List.Forall₂ (fun a b => read (dump a) = .ok b) l m) :
    readMembers read (.arr (l.map dump)) = .ok m :=
  mapM_eq_ok_iff_forall₂.mpr (List.forall₂_map_left_iff.mpr h)

lemma readScope_dump (values : IdentityValues) : readScope values.dump = .ok values := by
  refine bind_eq_ok.mpr ⟨_, readItems_eq ?_, bind_eq_ok.mpr ⟨values.get,
    IdentityDimension.traverse_eq_ok_iff.mpr fun d => ?_, rfl⟩⟩
  · intro kv hkv
    simp only [IdentityValues.items, List.map_map, List.mem_map] at hkv ⊢
    obtain ⟨d, hd, rfl⟩ := hkv
    exact ⟨d, hd, rfl⟩
  · have hlookup : (values.items.map fun kv => (kv.1, Json.ofText? kv.2)).lookup d.field =
        some (Json.ofText? (values.get d)) := by
      cases d <;> rfl
    rw [readField_eq hlookup, readNullable_ofText?]

/-- The entity as it was passed in. -/
def EntityRef.input (e : EntityRef py) : EntityInput :=
  { e.toEntityLabels with context := e.context, scope := e.scope.toIdentityValues }

lemma readEntity_dump (e : EntityRef py) : readEntity e.dump = .ok e.input := by
  refine bind_eq_ok.mpr ⟨_, readItems_eq ?_, bind_eq_ok.mpr ⟨e.domain, ?_, bind_eq_ok.mpr
    ⟨e.topic, ?_, bind_eq_ok.mpr ⟨e.entityType, ?_, bind_eq_ok.mpr ⟨e.entityName, ?_,
    bind_eq_ok.mpr ⟨e.context, ?_, bind_eq_ok.mpr ⟨e.scope.toIdentityValues, ?_, rfl⟩⟩⟩⟩⟩⟩⟩
  · simp [EntityLabels.items]
  · exact (readField_eq rfl _ _).trans rfl
  · exact (readField_eq rfl _ _).trans rfl
  · exact (readField_eq rfl _ _).trans rfl
  · exact (readField_eq rfl _ _).trans rfl
  · exact (readField_eq rfl _ _).trans rfl
  · exact (readField_eq rfl _ _).trans (readScope_dump _)

lemma readEvidence_dump (r : EvidenceRef) : readEvidence r.dump = .ok r := by
  refine bind_eq_ok.mpr ⟨_, readItems_eq (by simp), bind_eq_ok.mpr ⟨r.recordType, ?_,
    bind_eq_ok.mpr ⟨r.id, ?_, rfl⟩⟩⟩
  · exact (readField_eq rfl _ _).trans (readParsed_str (EvidenceType.parse_text _))
  · exact (readField_eq rfl _ _).trans (readParsed_str (Uuid.parse_text _))

/-! ### Validating what was validated -/

lemma RelationScope.make_self (scope : RelationScope py) :
    RelationScope.make py scope.toIdentityValues = .ok scope := by
  have hfields : IdentityDimension.traverse (fun d => normalizeScope py (scope.get d)) =
      .ok fun _ => () := by
    refine IdentityDimension.traverse_eq_ok_iff.mpr fun d => ?_
    cases hvalue : scope.get d with
    | none => rfl
    | some s =>
      have hnormal : normalizeText py s = .ok s := scope.canonical d s (hvalue ▸ rfl)
      exact bind_eq_ok.mpr ⟨s, hnormal, require_eq_ok.mpr rfl⟩
  unfold RelationScope.make
  split
  · next h => rw [hfields] at h; cases h
  · rfl

/-- The size that is checked is that of the sorted context. -/
lemma canonicalJson_sortedContext (context : Context) :
    canonicalJson py (.obj (sortedContext context)) = canonicalJson py (.obj context) := by
  rw [canonicalJson, canonicalJson, ← sortKeys_obj, Json.sortKeys_sortKeys]

/-- An entity with a context of an admitted size. -/
def EntityRef.Sized (e : EntityRef py) : Prop :=
  (canonicalJson py (.obj e.context)).utf8ByteSize ≤ 16384

lemma EntityRef.sized_of_make {labels : EntityLabels} {context : Context}
    {values : IdentityValues} {e : EntityRef py}
    (h : EntityRef.make py labels context values = .ok e) : e.Sized := by
  obtain ⟨-, -, hsize, -, hcontext⟩ := EntityRef.make_eq_ok.mp h
  rw [EntityRef.Sized, hcontext, canonicalJson_sortedContext]
  exact hsize

lemma EntityRef.make_self {e : EntityRef py} (h : e.Sized) :
    EntityRef.make py e.toEntityLabels e.context e.scope.toIdentityValues = .ok e := by
  have hsorted : e.context = sortedContext e.context := by
    have := e.context_canonical
    rw [sortKeys_obj, Json.obj.injEq] at this
    exact this.symm
  exact EntityRef.make_eq_ok.mpr
    ⟨RelationScope.make_self e.scope, e.labels_canonical, h, rfl, hsorted⟩

/-- What the validation of an edge has checked besides what the edge carries. -/
structure RelationEdge.Admitted (e : RelationEdge py) : Prop where
  source : e.source.Sized
  target : e.target.Sized
  evidence_length : e.evidence.sorted ≠ [] ∧ e.evidence.sorted.length ≤ 32
  note_length : ∀ note ∈ e.reviewNote, note ≠ "" ∧ note.length ≤ 1000

lemma ValidatesTo.admitted {input : EdgeInput} {e : RelationEdge py} (h : ValidatesTo input e) :
    e.Admitted := by
  refine ⟨EntityRef.sized_of_make h.source, EntityRef.sized_of_make h.target, ⟨?_, ?_⟩, ?_⟩
  · obtain ⟨r, hr⟩ := List.exists_mem_of_ne_nil _ h.evidence_length.1
    have hmem : r ∈ e.evidence := h.evidence ▸ FrozenSet.mem_ofList.mpr hr
    exact List.ne_nil_of_mem hmem
  · rw [h.evidence]
    exact (FrozenSet.length_sorted_ofList_le _).trans h.evidence_length.2
  · rw [h.reviewNote]
    exact h.note_length

/-- The fields of an edge as they are passed in again. -/
def RelationEdge.input (e : RelationEdge py) : EdgeInput where
  relationId := some e.relationId
  kind := e.kind
  source := e.source.input
  target := e.target.input
  targetRecordId := e.targetRecordId
  evidence := e.evidence.sorted
  status := e.status
  validFrom := e.validFrom
  validUntil := e.validUntil
  reviewNote := e.reviewNote

/-- An edge that was validated is validated to itself. -/
lemma RelationEdge.Admitted.validatesTo {e : RelationEdge py} (h : e.Admitted) :
    ValidatesTo e.input e := by
  constructor
  · exact EntityRef.make_self h.source
  · exact EntityRef.make_self h.target
  · exact h.evidence_length
  · exact h.note_length
  · rintro id ⟨rfl⟩
    rfl
  · rfl
  · rfl
  · exact (FrozenSet.ofList_sorted _).symm
  · rfl
  · rfl
  · rfl
  · rfl

/-- pydantic reads the JSON form of an instant as an aware datetime that shows it. -/
def ReadsInstants (parseTime : String → Option DateTime) : Prop :=
  ∀ a : Instant, ∃ d, parseTime a.jsonText = some d ∧ d.offset ≠ none ∧ d.instant? = some a

variable {parseTime}

lemma readTime (hparse : ReadsInstants parseTime) (a : Instant) :
    ∃ d, readParsed parseTime (.str a.jsonText) = .ok d ∧ normalizeTime d = .ok a := by
  obtain ⟨d, hd, haware, hinstant⟩ := hparse a
  exact ⟨d, readParsed_str hd, bind_eq_ok.mpr ⟨(), require_eq_ok.mpr haware,
    orRaise_eq_ok.mpr hinstant⟩⟩

lemma readTime? (hparse : ReadsInstants parseTime) (a : Option Instant) :
    ∃ d, readNullable (readParsed parseTime) (Json.ofText? (a.map Instant.jsonText)) = .ok d ∧
      d.mapM normalizeTime = .ok a := by
  cases a with
  | none => exact ⟨none, rfl, rfl⟩
  | some a =>
    obtain ⟨d, hread, hnormal⟩ := readTime hparse a
    refine ⟨some d, ?_, ?_⟩
    · rw [Option.map_some, Json.ofText?, readNullable, hread]
      · rfl
      · simp
    · rw [Option.mapM_some, hnormal]
      rfl

/-- An edge is read back from its dump. -/
lemma readEdge_dump (hparse : ReadsInstants parseTime) {e : RelationEdge py} (h : e.Admitted) :
    ∃ z, readEdge parseTime e.dump = .ok z ∧ z.validate py = .ok e := by
  obtain ⟨validFrom, hfrom, hfrom'⟩ := readTime hparse e.validFrom
  obtain ⟨validUntil, huntil, huntil'⟩ := readTime? hparse e.validUntil
  have hevidence : readMembers readEvidence (.arr (e.evidence.sorted.map EvidenceRef.dump)) =
      .ok e.evidence.sorted :=
    readMembers_map (List.forall₂_same.mpr fun r _ => readEvidence_dump r)
  refine ⟨{
    relationId := some e.relationId
    kind := e.kind
    source := e.source.input
    target := e.target.input
    targetRecordId := e.targetRecordId
    evidence := e.evidence.sorted
    status := e.status
    validFrom
    validUntil
    reviewNote := e.reviewNote }, ?_, ?_⟩
  · refine bind_eq_ok.mpr ⟨_, readItems_eq (by simp), bind_eq_ok.mpr ⟨some e.relationId, ?_,
      bind_eq_ok.mpr ⟨e.kind, ?_, bind_eq_ok.mpr ⟨e.source.input, ?_, bind_eq_ok.mpr
      ⟨e.target.input, ?_, bind_eq_ok.mpr ⟨e.targetRecordId, ?_, bind_eq_ok.mpr
      ⟨e.evidence.sorted, ?_, bind_eq_ok.mpr ⟨e.status, ?_, bind_eq_ok.mpr ⟨validFrom, ?_,
      bind_eq_ok.mpr ⟨validUntil, ?_, bind_eq_ok.mpr ⟨e.reviewNote, ?_, rfl⟩⟩⟩⟩⟩⟩⟩⟩⟩⟩⟩
    · exact (readField_eq rfl _ _).trans rfl
    · exact (readField_eq rfl _ _).trans (readParsed_str (RelationKind.parse_text _))
    · exact (readField_eq rfl _ _).trans (readEntity_dump _)
    · exact (readField_eq rfl _ _).trans (readEntity_dump _)
    · exact (readField_eq rfl _ _).trans (readParsed_str (Uuid.parse_text _))
    · exact (readField_eq rfl _ _).trans hevidence
    · exact (readField_eq rfl _ _).trans (readParsed_str (RelationStatus.parse_text _))
    · exact (readField_eq rfl _ _).trans hfrom
    · exact (readField_eq rfl _ _).trans huntil
    · exact (readField_eq rfl _ _).trans (readNullable_ofText? _)
  · exact bind_eq_ok.mpr ⟨e.input, ZonedEdge.normalize_eq_ok.mpr ⟨_, _, hfrom', huntil', rfl⟩,
      RelationEdge.make_eq_ok.mpr h.validatesTo⟩

/-- A bundle is read back from its dump. -/
theorem modelValidate_dump (hparse : ReadsInstants parseTime) {edges : List ZonedEdge}
    {b : RelationBundle py} (h : validateZoned py edges = .ok b) :
    modelValidate py parseTime b.dump = .ok b := by
  obtain ⟨hlength, hevidence, results, hresults, hperm⟩ := validateZoned_eq_ok.mp h
  have hadmitted : ∀ e ∈ b.edges, e.Admitted := by
    intro e he
    obtain ⟨z, -, hz⟩ := (mem_of_mapM hresults).mp (hperm.mem_iff.mpr he)
    obtain ⟨input, -, hinput⟩ := bind_eq_ok.mp hz
    exact (RelationEdge.make_eq_ok.mp hinput).admitted
  have hself : b.edges.mapM (fun e => readEdge parseTime e.dump >>= ZonedEdge.validate py) =
      .ok b.edges := by
    refine mapM_eq_ok_iff_forall₂.mpr (List.forall₂_same.mpr fun e he => ?_)
    obtain ⟨z, hread, hvalidate⟩ := readEdge_dump hparse (hadmitted e he)
    exact bind_eq_ok.mpr ⟨z, hread, hvalidate⟩
  obtain ⟨zs, hread, hvalidate⟩ := mapM_mapM.mpr hself
  have hreadAll : readMembers (readEdge parseTime) (.arr (b.edges.map (·.dump))) = .ok zs :=
    readMembers_map (mapM_eq_ok_iff_forall₂.mp hread)
  refine bind_eq_ok.mpr ⟨zs, bind_eq_ok.mpr ⟨_, readItems_eq (by simp), bind_eq_ok.mpr
    ⟨(), (readField_eq rfl _ _).trans rfl, (readField_eq rfl _ _).trans hreadAll⟩⟩,
    validateZoned_eq_ok.mpr ⟨?_, hevidence, b.edges, hvalidate, .refl _⟩⟩
  rw [← (mapM_eq_ok_iff_forall₂.mp hread).length_eq, ← hperm.length_eq,
    ← (mapM_eq_ok_iff_forall₂.mp hresults).length_eq]
  exact hlength

/-! ### Identity of assertions -/

/-- Edges that assert the same: of one kind and between the same entities, which `contradicts`
leaves unordered. -/
def SameAssertion (e f : RelationEdge py) : Prop :=
  e.kind = f.kind ∧ (e.source = f.source ∧ e.target = f.target ∨
    e.kind = .contradicts ∧ e.source = f.target ∧ e.target = f.source)

/-- Where the digest function has no collisions, an entity is known by its key. -/
lemma EntityRef.key_inj (hsha : Set.InjOn py.sha256 (Set.range (canonicalJson py)))
    {e f : EntityRef py} : e.key = f.key ↔ e = f :=
  ⟨fun h => EntityRef.dump_inj (sortKeys_eq_of_fingerprint hsha ⟨_, rfl⟩ ⟨_, rfl⟩ h),
    congrArg _⟩

/-- Two texts that are put in order are known up to their order. -/
lemma insertionSort_pair_inj {s t s' t' : String} :
    [s, t].insertionSort (· ≤ ·) = [s', t'].insertionSort (· ≤ ·) ↔
      s = s' ∧ t = t' ∨ s = t' ∧ t = s' := by
  rw [insertionSort_eq_iff_perm, List.pair_perm]
  simp only [List.cons.injEq, and_true]
  constructor
  · rintro (⟨rfl, rfl⟩ | ⟨rfl, rfl⟩)
    · exact .inl ⟨rfl, rfl⟩
    · exact .inr ⟨rfl, rfl⟩
  · rintro (⟨rfl, rfl⟩ | ⟨rfl, rfl⟩)
    · exact .inl ⟨rfl, rfl⟩
    · exact .inr ⟨rfl, rfl⟩

/-- The endpoints as they go into the id of an assertion. -/
def RelationEdge.endpoints (e : RelationEdge py) : List String :=
  if e.kind = .contradicts then [e.source.key, e.target.key].insertionSort (· ≤ ·)
  else [e.source.key, e.target.key]

/-- What the id of an assertion is the digest of. -/
def RelationEdge.identity (e : RelationEdge py) : Json :=
  .obj [("kind", .str e.kind.text), ("endpoints", .arr (e.endpoints.map .str))]

lemma RelationEdge.relationId_eq (e : RelationEdge py) :
    e.relationId = fingerprint py e.identity := rfl

lemma RelationEdge.identity_inj {e f : RelationEdge py}
    (h : e.identity.sortKeys = f.identity.sortKeys) : e.kind = f.kind ∧ e.endpoints = f.endpoints := by
  have hfield : ∀ {k a b}, _ → _ → Json.sortKeys a = Json.sortKeys b :=
    @field_eq _ _ (by simp) (by simp) h
  have hkind := str_inj (hfield (k := "kind") rfl rfl)
  have hends := map_dump_inj (fun _ _ => str_inj) (hfield (k := "endpoints") rfl rfl)
  exact ⟨RelationKind.text_injective hkind, hends⟩

theorem relationId_eq_iff (hsha : Set.InjOn py.sha256 (Set.range (canonicalJson py)))
    {e f : RelationEdge py} : e.relationId = f.relationId ↔ SameAssertion e f := by
  have hparts : e.relationId = f.relationId ↔ e.kind = f.kind ∧ e.endpoints = f.endpoints := by
    constructor
    · exact fun h => RelationEdge.identity_inj (sortKeys_eq_of_fingerprint hsha ⟨_, rfl⟩ ⟨_, rfl⟩ h)
    · rintro ⟨hkind, hends⟩
      rw [RelationEdge.relationId_eq, RelationEdge.relationId_eq, RelationEdge.identity,
        RelationEdge.identity, hkind, hends]
  rw [hparts, SameAssertion, and_congr_right_iff]
  intro hkind
  rw [RelationEdge.endpoints, RelationEdge.endpoints, ← hkind]
  by_cases hcontradicts : e.kind = .contradicts
  · simp only [hcontradicts, if_true, insertionSort_pair_inj, EntityRef.key_inj hsha, true_and]
  · simp only [hcontradicts, if_false, List.cons.injEq, and_true, EntityRef.key_inj hsha,
      false_and, or_false]

/-- Bundles are canonical: reordered and equivalent edges give the same bundle, a bundle is read
back from its dump, and ids are equal exactly for the same assertions. -/
theorem RelationBundle.canonical_form (hparse : ReadsInstants parseTime)
    (hsha : Set.InjOn py.sha256 (Set.range (canonicalJson py))) {edges : List ZonedEdge}
    {b : RelationBundle py} (h : validateZoned py edges = .ok b) :
    (∀ reordered edges', edges.Perm reordered → List.Forall₂ SameEdge reordered edges' →
        ∃ b', validateZoned py edges' = .ok b' ∧ b' = b ∧ b'.digest = b.digest) ∧
      modelValidate py parseTime b.dump = .ok b ∧
      ∀ e f : RelationEdge py, e.relationId = f.relationId ↔ SameAssertion e f :=
  ⟨fun _ _ hperm hsame => ⟨b, validateZoned_same hperm hsame h, rfl, rfl⟩,
    modelValidate_dump hparse h, fun _ _ => relationId_eq_iff hsha⟩

/-! ### A bundle -/

/-- Times in UTC, in the form in which they are dumped. -/
def parseUtc (s : String) : Option DateTime := (Instant.readJson s).map fun a => ⟨a, some 0⟩

lemma readsInstants_parseUtc : ReadsInstants parseUtc := by
  intro a
  refine ⟨⟨a, some 0⟩, by rw [parseUtc, Instant.readJson_jsonText, Option.map_some], by simp, ?_⟩
  rw [DateTime.instant?, Instant.add?, dif_pos ⟨by simp, by simpa using a.lt_limit⟩]
  simp

/-- An assertion from two hours east of Greenwich, with one reference listed twice. -/
def zonedSample : ZonedEdge where
  kind := .contradicts
  source := { domain := "d", topic := "t", entityType := "e", entityName := "a" }
  target := { domain := "d", topic := "t", entityType := "e", entityName := "b" }
  targetRecordId := .ofNat 1
  evidence := [⟨.knowledge, .ofNat 2⟩, ⟨.episode, .ofNat 3⟩, ⟨.knowledge, .ofNat 2⟩]
  validFrom := ⟨.ofMicros 63902822399000001, some 7200000000⟩

/-- The same assertion in UTC, with its evidence once and in another order. -/
def utcSample : ZonedEdge :=
  { zonedSample with
    evidence := [⟨.episode, .ofNat 3⟩, ⟨.knowledge, .ofNat 2⟩]
    validFrom := ⟨.ofMicros 63902815199000001, some 0⟩ }

lemma sameEdge_samples : SameEdge zonedSample utcSample where
  relationId := rfl
  kind := rfl
  source := rfl
  target := rfl
  targetRecordId := rfl
  evidence r := by
    simp only [zonedSample, utcSample, List.mem_cons, List.not_mem_nil]
    tauto
  evidence_length := by decide
  status := rfl
  validFrom := ⟨by decide, by decide, by decide +kernel⟩
  validUntil := .none
  reviewNote := rfl

theorem RelationBundle.canonical_form_samples :
    ∃ b, validateZoned Runtime.ascii [zonedSample] = .ok b ∧
      (∃ b', validateZoned Runtime.ascii [utcSample] = .ok b' ∧ b' = b ∧ b'.digest = b.digest) ∧
      modelValidate Runtime.ascii parseUtc b.dump = .ok b := by
  have hok : (validateZoned Runtime.ascii [zonedSample]).toOption.isSome = true := by
    decide +kernel
  obtain ⟨b, hb⟩ := Option.isSome_iff_exists.mp hok
  have h : validateZoned Runtime.ascii [zonedSample] = .ok b := toOption_eq_some.mp hb
  obtain ⟨hsame, hdump, -⟩ := RelationBundle.canonical_form readsInstants_parseUtc
    (fun _ _ _ _ => id) h
  exact ⟨b, h, hsame _ _ (.refl _) (.cons sameEdge_samples .nil), hdump⟩

end CyberBrain.Relations
