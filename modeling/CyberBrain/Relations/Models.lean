import CyberBrain.Foundation.DateTime
import CyberBrain.Foundation.Except
import CyberBrain.Foundation.Filter
import CyberBrain.Foundation.PythonPrinting
import CyberBrain.Foundation.Uuid
import CyberBrain.Tenancy.Models
import Mathlib.Data.Prod.Lex

/-!
# Relation bundles

A relation is an explicit assertion from one canonical Knowledge entity to another, with evidence.
What pydantic validates is a structure whose fields carry the validated facts, and the validation
is the function that builds it. Digests are taken of canonical JSON.
-/

namespace CyberBrain.Relations

open Python Tenancy

variable {py : Runtime}

/-! ### Canonical JSON -/

variable (py) in
/-- `canonical_json`. -/
def canonicalJson (v : Json) : String := String.ofList ((jsonDialect py).print v.sortKeys)

variable (py) in
/-- `fingerprint`. -/
def fingerprint (v : Json) : String := py.sha256 (canonicalJson py v)

/-- Where the digest function has no collisions, equal digests mean equal values. -/
lemma sortKeys_eq_of_fingerprint {texts : Set String} (hsha : Set.InjOn py.sha256 texts)
    {v w : Json} (hv : canonicalJson py v ∈ texts) (hw : canonicalJson py w ∈ texts)
    (h : fingerprint py v = fingerprint py w) : v.sortKeys = w.sortKeys :=
  (jsonDialect py).print_injective (String.ofList_injective (hsha hv hw h))

/-! ### Scopes and entities -/

/-- The values of `IDENTITY_FIELDS`. -/
@[ext] structure IdentityValues where
  tenant : Option String := none
  user : Option String := none
  agent : Option String := none
  project : Option String := none
  sessionId : Option String := none
  deriving DecidableEq, Repr

def IdentityValues.get (values : IdentityValues) : IdentityDimension → Option String
  | .tenant  => values.tenant
  | .user    => values.user
  | .agent   => values.agent
  | .project => values.project
  | .session => values.sessionId

/-- The values under their field names. -/
def IdentityValues.items (values : IdentityValues) : List (String × Option String) :=
  IdentityDimension.order.map fun d => (d.field, values.get d)

def IdentityValues.dump (values : IdentityValues) : Json :=
  .obj (values.items.map fun kv => (kv.1, Json.ofText? kv.2))

variable (py) in
/-- `RelationScope`: identifiers in canonical form. -/
structure RelationScope extends IdentityValues where
  canonical : ∀ d, ∀ v ∈ toIdentityValues.get d, Normalized py v
  deriving DecidableEq

variable (py) in
/-- `normalize_scope` on one field. -/
def normalizeScope (value : Option String) : Except Exc Unit :=
  match value with
  | none   => .ok ()
  | some v => do
    let normalized ← normalizeText py v
    require (normalized = v)
      (.valueError "relation scope must use canonical normalized identifiers")

lemma normalizeScope_ok {value : Option String} (h : normalizeScope py value = .ok ()) :
    ∀ v ∈ value, Normalized py v := by
  rintro v rfl
  obtain ⟨normalized, hnormalized, heq⟩ := bind_eq_ok.mp h
  rw [require_eq_ok] at heq
  rwa [heq] at hnormalized

variable (py) in
/-- The validation of a `RelationScope`. -/
def RelationScope.make (values : IdentityValues) : Except Exc (RelationScope py) :=
  match h : IdentityDimension.traverse fun d => normalizeScope py (values.get d) with
  | .error e => .error e
  | .ok _    => .ok ⟨values, fun d =>
      normalizeScope_ok (IdentityDimension.traverse_eq_ok_iff.mp h d)⟩

lemma RelationScope.make_ok {values : IdentityValues} {scope : RelationScope py}
    (h : RelationScope.make py values = .ok scope) : scope.toIdentityValues = values := by
  unfold RelationScope.make at h
  split at h
  · cases h
  · cases h
    rfl

/-- The labels of a Knowledge entity. -/
@[ext] structure EntityLabels where
  domain : String
  topic : String
  entityType : String
  entityName : String
  deriving DecidableEq, Repr

def EntityLabels.items (labels : EntityLabels) : List (String × String) :=
  [("domain", labels.domain), ("topic", labels.topic), ("entity_type", labels.entityType),
    ("entity_name", labels.entityName)]

/-- A label that `validate_identity` admits. -/
def CanonicalLabel (s : String) : Prop :=
  s ≠ "" ∧ s.length ≤ 256 ∧ s = strip s ∧ ∀ c ∈ s.toList, isControl c = false

instance (s : String) : Decidable (CanonicalLabel s) :=
  have : Decidable (∀ c ∈ s.toList, isControl c = false) := List.decidableBAll _ _
  inferInstanceAs (Decidable (_ ∧ _ ∧ _ ∧ _))

/-- A JSON object by its items. -/
abbrev Context := List (String × Json)

variable (py) in
/-- `EntityRef`: labels in canonical form and a context with sorted keys. -/
structure EntityRef extends EntityLabels where
  context : Context
  scope : RelationScope py
  labels_canonical : ∀ kv ∈ toEntityLabels.items, CanonicalLabel kv.2
  context_canonical : (Json.obj context).sortKeys = .obj context

/-- The items of an object with its keys sorted at every level. -/
def sortedContext (context : Context) : Context := sortItems (Json.sortKeysItems context)

lemma sortKeys_obj (context : Context) :
    (Json.obj context).sortKeys = .obj (sortedContext context) := rfl

lemma sortedContext_canonical (context : Context) :
    (Json.obj (sortedContext context)).sortKeys = .obj (sortedContext context) := by
  rw [← sortKeys_obj, Json.sortKeys_sortKeys]

namespace EntityRef

variable (py) in
/-- The validation of an `EntityRef`, as `from_payload` calls it. -/
def make (labels : EntityLabels) (context : Context) (values : IdentityValues) :
    Except Exc (EntityRef py) := do
  let scope ← RelationScope.make py values
  if hlabels : ∀ kv ∈ labels.items, CanonicalLabel kv.2 then
    if (canonicalJson py (.obj context)).utf8ByteSize ≤ 16384 then
      .ok { labels with
        context := sortedContext context
        scope
        labels_canonical := hlabels
        context_canonical := sortedContext_canonical context }
    else .error (.valueError "entity context exceeds 16384 bytes")
  else .error (.valueError "entity identity must use exact canonical labels")

/-- `model_dump(mode="json")`. -/
def dump (e : EntityRef py) : Json :=
  .obj (e.items.map (fun kv => (kv.1, .str kv.2)) ++
    [("context", .obj e.context), ("scope", e.scope.dump)])

/-- `EntityRef.key`. -/
def key (e : EntityRef py) : String := fingerprint py e.dump

end EntityRef

/-! ### Edges -/

inductive RelationKind
  | dependsOn
  | partOf
  | supports
  | contradicts
  | causes
  deriving DecidableEq, Repr

def RelationKind.text : RelationKind → String
  | dependsOn   => "depends_on"
  | partOf      => "part_of"
  | supports    => "supports"
  | contradicts => "contradicts"
  | causes      => "causes"

inductive RelationStatus
  | proposed
  | accepted
  | rejected
  deriving DecidableEq, Repr

def RelationStatus.text : RelationStatus → String
  | proposed => "proposed"
  | accepted => "accepted"
  | rejected => "rejected"

inductive EvidenceType
  | knowledge
  | episode
  deriving DecidableEq, Repr

def EvidenceType.text : EvidenceType → String
  | knowledge => "knowledge"
  | episode   => "episode"

lemma RelationKind.text_injective : Function.Injective text := by
  intro k l h
  cases k <;> cases l <;> first | rfl | exact absurd h (by decide)

lemma RelationStatus.text_injective : Function.Injective text := by
  intro k l h
  cases k <;> cases l <;> first | rfl | exact absurd h (by decide)

lemma EvidenceType.text_injective : Function.Injective text := by
  intro k l h
  cases k <;> cases l <;> first | rfl | exact absurd h (by decide)

structure EvidenceRef where
  recordType : EvidenceType
  id : Uuid
  deriving DecidableEq

namespace EvidenceRef

/-- The key by which `validate_edge` sorts evidence. -/
def sortKey (r : EvidenceRef) : Lex (String × String) := toLex (r.recordType.text, r.id.text)

lemma sortKey_injective : Function.Injective sortKey := by
  rintro ⟨t, i⟩ ⟨u, j⟩ h
  obtain ⟨htype, hid⟩ := Prod.mk.inj (toLex.injective h)
  obtain rfl : t = u := EvidenceType.text_injective htype
  obtain rfl : i = j := Uuid.text_injective hid
  rfl

instance : LinearOrder EvidenceRef := LinearOrder.lift' sortKey sortKey_injective

def dump (r : EvidenceRef) : Json :=
  .obj [("record_type", .str r.recordType.text), ("id", .str r.id.text)]

end EvidenceRef

variable (py) in
/-- `RelationEdge`, with evidence as a set in sorted order. -/
structure RelationEdge where
  kind : RelationKind
  source : EntityRef py
  target : EntityRef py
  targetRecordId : Uuid
  evidence : FrozenSet EvidenceRef
  status : RelationStatus
  validFrom : Instant
  validUntil : Option Instant
  reviewNote : Option String
  not_self : source.key ≠ target.key
  same_partition : source.scope = target.scope
  follows : ∀ t ∈ validUntil, validFrom < t
  reviewed_note : status ≠ .proposed → ∃ note ∈ reviewNote, strip note ≠ ""

variable (py) in
/-- The endpoints and the kind determine an assertion. -/
def relationIdOf (kind : RelationKind) (source target : EntityRef py) : String :=
  let endpoints := [source.key, target.key]
  let endpoints := if kind = .contradicts then endpoints.insertionSort (· ≤ ·) else endpoints
  fingerprint py (.obj [("kind", .str kind.text), ("endpoints", .arr (endpoints.map .str))])

/-- An entity as it is passed in. -/
structure EntityInput extends EntityLabels where
  context : Context := []
  scope : IdentityValues := {}

/-- An edge as it is passed in, with times in UTC. -/
structure EdgeInput where
  relationId : Option String := none
  kind : RelationKind
  source : EntityInput
  target : EntityInput
  targetRecordId : Uuid
  evidence : List EvidenceRef
  status : RelationStatus := .proposed
  validFrom : Instant
  validUntil : Option Instant := none
  reviewNote : Option String := none

namespace RelationEdge

def relationId (e : RelationEdge py) : String := relationIdOf py e.kind e.source e.target

variable (py) in
/-- The validation of a `RelationEdge`. -/
def make (input : EdgeInput) : Except Exc (RelationEdge py) := do
  let source ← EntityRef.make py input.source.toEntityLabels input.source.context input.source.scope
  let target ← EntityRef.make py input.target.toEntityLabels input.target.context input.target.scope
  require (input.evidence ≠ [] ∧ input.evidence.length ≤ 32)
    (.valueError "relation evidence must hold between 1 and 32 references")
  require (∀ note ∈ input.reviewNote, note ≠ "" ∧ note.length ≤ 1000)
    (.valueError "review note must hold between 1 and 1000 characters")
  if hself : source.key = target.key then
    .error (.valueError "self relations are not admitted")
  else if hscope : source.scope ≠ target.scope then
    .error (.valueError "cross-partition relations are not admitted")
  else if htime : ∃ t ∈ input.validUntil, ¬ input.validFrom < t then
    .error (.valueError "valid_until must follow valid_from")
  else if hnote : input.status ≠ .proposed ∧ ∀ note ∈ input.reviewNote, strip note = "" then
    .error (.valueError "reviewed relations require a review note")
  else if ∃ id ∈ input.relationId, id ≠ relationIdOf py input.kind source target then
    .error (.valueError "relation_id does not match canonical endpoints and kind")
  else
    .ok {
      kind := input.kind
      source
      target
      targetRecordId := input.targetRecordId
      evidence := FrozenSet.ofList input.evidence
      status := input.status
      validFrom := input.validFrom
      validUntil := input.validUntil
      reviewNote := input.reviewNote
      not_self := hself
      same_partition := not_not.mp hscope
      follows := fun t ht => by_contra fun hlt => htime ⟨t, ht, hlt⟩
      reviewed_note := fun hstatus => by
        by_contra hnone
        exact hnote ⟨hstatus, fun note hmem => by_contra fun hne => hnone ⟨note, hmem, hne⟩⟩ }

/-- `model_dump(mode="json")`. -/
def dump (e : RelationEdge py) : Json :=
  .obj [("relation_id", .str e.relationId), ("kind", .str e.kind.text),
    ("source", e.source.dump), ("target", e.target.dump),
    ("target_record_id", .str e.targetRecordId.text),
    ("evidence", .arr (e.evidence.sorted.map EvidenceRef.dump)), ("status", .str e.status.text),
    ("valid_from", .str e.validFrom.jsonText),
    ("valid_until", Json.ofText? (e.validUntil.map Instant.jsonText)),
    ("review_note", Json.ofText? e.reviewNote)]

end RelationEdge

/-! ### Bundles -/

variable (py) in
/-- `RelationBundle`: edges in the order of their ids, which are pairwise different. -/
structure RelationBundle where
  edges : List (RelationEdge py)
  increasing : (edges.map (·.relationId)).Pairwise (· < ·)

/-- What a caller passes as relations: edges, or something that is no bundle of them. -/
inductive RawRelations
  | malformed
  | edges (edges : List EdgeInput)

namespace RelationBundle

variable (py) in
/-- The bundle that stands for absent relations. -/
def empty : RelationBundle py := ⟨[], List.Pairwise.nil⟩

/-- The distinct evidence of a list of edges. -/
def distinctEvidence (edges : List (RelationEdge py)) : FrozenSet EvidenceRef :=
  FrozenSet.ofList (edges.flatMap fun e => e.evidence.sorted)

lemma increasing_insertionSort {edges : List (RelationEdge py)}
    (h : (edges.map (·.relationId)).Nodup) :
    ((edges.insertionSort fun a b => a.relationId ≤ b.relationId).map (·.relationId)).Pairwise
      (· < ·) := by
  have hperm := (List.perm_insertionSort (fun a b : RelationEdge py =>
    a.relationId ≤ b.relationId) edges).map (·.relationId)
  have hle := List.pairwise_map.mpr (List.pairwise_insertionSort (fun a b : RelationEdge py =>
    a.relationId ≤ b.relationId) edges)
  exact (hle.and (hperm.nodup_iff.mpr h)).imp fun h => lt_of_le_of_ne h.1 h.2

variable (py) in
/-- The validation of a `RelationBundle`. -/
def validate : RawRelations → Except Exc (RelationBundle py)
  | .malformed    => .error (.valueError "unknown relations schema")
  | .edges inputs => do
    require (inputs.length ≤ 64) (.valueError "relation bundle exceeds 64 edges")
    let edges ← inputs.mapM (RelationEdge.make py)
    require ((distinctEvidence edges).sorted.length ≤ 128)
      (.valueError "relation bundle exceeds 128 distinct evidence references")
    if h : (edges.map (·.relationId)).Nodup then
      .ok ⟨edges.insertionSort fun a b => a.relationId ≤ b.relationId, increasing_insertionSort h⟩
    else .error (.valueError "duplicate relation identity")

/-- `model_dump(mode="json")`. -/
def dump (b : RelationBundle py) : Json :=
  .obj [("schema_version", .int 1), ("edges", .arr (b.edges.map (·.dump)))]

/-- `RelationBundle.digest`. -/
def digest (b : RelationBundle py) : String := fingerprint py b.dump

end RelationBundle

/-! ### A digest determines its bundle -/

/-- Objects with the same sorted form agree on a key, where both carry it. -/
lemma field_eq {a b : List (String × Json)} (ha : (a.map (·.1)).Nodup)
    (hb : (b.map (·.1)).Nodup) (h : (Json.obj a).sortKeys = (Json.obj b).sortKeys) {k : String}
    {v w : Json} (hv : a.lookup k = some v) (hw : b.lookup k = some w) :
    v.sortKeys = w.sortKeys := by
  have := Json.lookup_of_sortKeys_eq ha hb h k
  rw [hv, hw] at this
  exact Option.some.inj this

lemma str_inj {s t : String} (h : (Json.str s).sortKeys = (Json.str t).sortKeys) : s = t := by
  simpa [Json.sortKeys] using h

lemma ofText?_inj {s t : Option String} (h : (Json.ofText? s).sortKeys = (Json.ofText? t).sortKeys) :
    s = t := by
  cases s <;> cases t <;> simp_all [Json.ofText?, Json.sortKeys]

lemma arr_inj {vs ws : List Json} (h : (Json.arr vs).sortKeys = (Json.arr ws).sortKeys) :
    vs.map Json.sortKeys = ws.map Json.sortKeys := by
  simpa [Json.sortKeys, Json.sortKeysList_eq] using h

/-- A list of dumps determines the list, where each dump determines its value. -/
lemma map_dump_inj {α : Type} {dump : α → Json} (hdump : ∀ a b : α,
    (dump a).sortKeys = (dump b).sortKeys → a = b) {l m : List α}
    (h : (Json.arr (l.map dump)).sortKeys = (Json.arr (m.map dump)).sortKeys) : l = m := by
  have hmap := arr_inj h
  rw [List.map_map, List.map_map] at hmap
  exact List.map_injective_iff.mpr (fun a b hab => hdump a b hab) hmap

lemma IdentityValues.dump_inj {v w : IdentityValues} (h : v.dump.sortKeys = w.dump.sortKeys) :
    v = w := by
  have hfield : ∀ k a b, (v.items.map fun kv => (kv.1, Json.ofText? kv.2)).lookup k = some a →
      (w.items.map fun kv => (kv.1, Json.ofText? kv.2)).lookup k = some b →
      a.sortKeys = b.sortKeys :=
    fun k a b => field_eq (by simp [items, IdentityDimension.order]; decide)
      (by simp [items, IdentityDimension.order]; decide) h
  cases v
  cases w
  rw [IdentityValues.mk.injEq]
  exact ⟨ofText?_inj (hfield "tenant" _ _ rfl rfl), ofText?_inj (hfield "user" _ _ rfl rfl),
    ofText?_inj (hfield "agent" _ _ rfl rfl), ofText?_inj (hfield "project" _ _ rfl rfl),
    ofText?_inj (hfield "session_id" _ _ rfl rfl)⟩

lemma EntityRef.dump_inj {e f : EntityRef py} (h : e.dump.sortKeys = f.dump.sortKeys) :
    e = f := by
  have hfield : ∀ k a b, (e.items.map (fun kv => (kv.1, Json.str kv.2)) ++
        [("context", .obj e.context), ("scope", e.scope.dump)]).lookup k = some a →
      (f.items.map (fun kv => (kv.1, Json.str kv.2)) ++
        [("context", .obj f.context), ("scope", f.scope.dump)]).lookup k = some b →
      a.sortKeys = b.sortKeys :=
    fun k a b => field_eq (by simp [EntityLabels.items]) (by simp [EntityLabels.items]) h
  have hdomain := str_inj (hfield "domain" _ _ rfl rfl)
  have htopic := str_inj (hfield "topic" _ _ rfl rfl)
  have htype := str_inj (hfield "entity_type" _ _ rfl rfl)
  have hname := str_inj (hfield "entity_name" _ _ rfl rfl)
  have hcontext := hfield "context" _ _ rfl rfl
  have hscope := IdentityValues.dump_inj (hfield "scope" _ _ rfl rfl)
  rw [e.context_canonical, f.context_canonical, Json.obj.injEq] at hcontext
  obtain ⟨⟨_, _, _, _⟩, _, ⟨_, _⟩, _, _⟩ := e
  obtain ⟨⟨_, _, _, _⟩, _, ⟨_, _⟩, _, _⟩ := f
  simp_all

lemma EvidenceRef.dump_inj {r s : EvidenceRef} (h : r.dump.sortKeys = s.dump.sortKeys) :
    r = s := by
  have htype := str_inj (field_eq (by simp) (by simp) h (k := "record_type") rfl rfl)
  have hid := str_inj (field_eq (by simp) (by simp) h (k := "id") rfl rfl)
  cases r
  cases s
  rw [EvidenceRef.mk.injEq]
  exact ⟨EvidenceType.text_injective htype, Uuid.text_injective hid⟩

lemma RelationEdge.dump_inj {e f : RelationEdge py} (h : e.dump.sortKeys = f.dump.sortKeys) :
    e = f := by
  have hfield : ∀ {k a b}, _ → _ → Json.sortKeys a = Json.sortKeys b :=
    @field_eq _ _ (by simp) (by simp) h
  have hkind := RelationKind.text_injective (str_inj (hfield (k := "kind") rfl rfl))
  have hsource := EntityRef.dump_inj (hfield (k := "source") rfl rfl)
  have htarget := EntityRef.dump_inj (hfield (k := "target") rfl rfl)
  have hid := Uuid.text_injective (str_inj (hfield (k := "target_record_id") rfl rfl))
  have hevidence := map_dump_inj (fun _ _ => EvidenceRef.dump_inj) (hfield (k := "evidence") rfl rfl)
  have hstatus := RelationStatus.text_injective (str_inj (hfield (k := "status") rfl rfl))
  have hfrom := Instant.jsonText_injective (str_inj (hfield (k := "valid_from") rfl rfl))
  have huntil := Option.map_injective Instant.jsonText_injective
    (ofText?_inj (hfield (k := "valid_until") rfl rfl))
  have hnote := ofText?_inj (hfield (k := "review_note") rfl rfl)
  obtain ⟨_, _, _, _, ⟨_, _⟩, _, _, _, _, _, _, _, _⟩ := e
  obtain ⟨_, _, _, _, ⟨_, _⟩, _, _, _, _, _, _, _, _⟩ := f
  simp_all

/-- The text of which the digest of a bundle is taken. -/
def RelationBundle.canonical (b : RelationBundle py) : String := canonicalJson py b.dump

/-- Where the digest function has no collisions, equal digests mean equal bundles. -/
theorem RelationBundle.eq_of_digest_eq {texts : Set String} (hsha : Set.InjOn py.sha256 texts)
    {b c : RelationBundle py} (hb : b.canonical ∈ texts) (hc : c.canonical ∈ texts)
    (h : b.digest = c.digest) : b = c := by
  have hedges := map_dump_inj (fun _ _ => RelationEdge.dump_inj) (field_eq (by simp) (by simp)
    (sortKeys_eq_of_fingerprint hsha hb hc h) (k := "edges") rfl rfl)
  cases b
  cases c
  simp_all

end CyberBrain.Relations
