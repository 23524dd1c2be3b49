import CyberBrain.Relations.Storage

/-!
# Reads of relations

A stored payload either is the dump of a record or does not validate. A query selects points by the
fields that their payloads carry, and a scroll returns at most a page of them.
-/

namespace CyberBrain.Relations

open Python Schemas Tenancy

variable {py : Runtime}

/-! ### The store -/

/-- A stored payload: the dump of a record, or one that is no valid record. -/
inductive Payload (ρ : Type)
  | dump (record : ρ)
  | invalid (fields : Fields) (createdAt : Option Instant)

/-- A point of a collection. -/
structure RelationPoint (ρ : Type) where
  id : Uuid
  payload : Payload ρ

abbrev RelationPoints (ρ : Type) := Table (RelationPoint.id (ρ := ρ))

variable (py) in
structure RelationStore where
  knowledge : RelationPoints (KnowledgeRecord py)
  episodes : RelationPoints EpisodeRecord

/-- What the reads need of a kind of records: their id, the fields that filters match and the time
of their creation. -/
structure RecordSchema (ρ : Type) where
  recordId : ρ → Uuid
  fields : ρ → Fields
  createdAt : ρ → Instant

/-- The fields of the projection under its prefix. -/
def indexValues : RelationIndex → Fields
  | .ineligible, key                           =>
    if key = indexPrefix ++ ".schema_version" then some (.int 1) else none
  | .eligible ownerKey targetKeys _, key =>
    if key = indexPrefix ++ ".schema_version" then some (.int 1)
    else if key = indexPrefix ++ ".owner_key" then some (.str ownerKey)
    else if key = indexPrefix ++ ".target_keys" then some (.arr (targetKeys.sorted.map .str))
    else none

variable (py) in
/-- Knowledge, with the fields of its projection. -/
def knowledgeSchema : RecordSchema (KnowledgeRecord py) where
  recordId := (·.id)
  fields r := fun key => (r.extensions.relationIndex.bind fun index => indexValues index key) <|>
    r.fields key
  createdAt := (·.createdAt)

def episodeSchema : RecordSchema EpisodeRecord where
  recordId := (·.id)
  fields := (·.fields)
  createdAt := (·.createdAt)

section Schema

variable {ρ : Type} (schema : RecordSchema ρ)

/-- The payload fields that filters match. -/
def RelationPoint.fields (p : RelationPoint ρ) : Fields :=
  match p.payload with
  | .dump r           => schema.fields r
  | .invalid fields _ => fields

/-- The time that ranges over `created_at` compare. -/
def RelationPoint.createdAt (p : RelationPoint ρ) : Option Instant :=
  match p.payload with
  | .dump r              => some (schema.createdAt r)
  | .invalid _ createdAt => createdAt

/-- `_canonical_payload` of a point under its own id. -/
def canonical (p : RelationPoint ρ) : Except Exc ρ :=
  match p.payload with
  | .dump r      => if schema.recordId r = p.id then .ok r else .error unavailable
  | .invalid _ _ => .error unavailable

/-! ### Reads -/

/-- One of the alternatives under `should`. -/
inductive Selector
  | field (c : FieldCondition)
  | hasId (ids : List Uuid)

/-- A filter with a range over `created_at`, a selection by ids and alternatives. -/
structure Query where
  must : Filter
  createdBy : Option Instant := none
  ids : Option (List Uuid) := none
  anyOf : List Selector := []
  mustNot : Filter := []

/-- A query within a scope. -/
def Query.within (q : Query) (scope : Filter) : Query := { q with must := scope ++ q.must }

def Selector.holds (p : RelationPoint ρ) : Selector → Bool
  | .field c   => c.holds (p.fields schema)
  | .hasId ids => p.id ∈ ids

/-- A point that a query matches. -/
def Query.matches (q : Query) (p : RelationPoint ρ) : Prop :=
  q.must.accepts (p.fields schema) = true ∧
    (∀ t ∈ q.createdBy, ∃ created ∈ p.createdAt schema, created ≤ t) ∧
    (∀ ids ∈ q.ids, p.id ∈ ids) ∧
    (q.anyOf = [] ∨ ∃ s ∈ q.anyOf, s.holds schema p = true) ∧
    ∀ c ∈ q.mustNot, c.holds (p.fields schema) = false

instance (q : Query) (p : RelationPoint ρ) : Decidable (q.matches schema p) :=
  inferInstanceAs (Decidable (_ ∧ _ ∧ _ ∧ _ ∧ _))

/-- `scroll_page` from the start: at most `limit` of the points that a query matches, and whether
it goes on. -/
abbrev RelationScroll (ρ : Type) :=
  RelationPoints ρ → Query → ℕ → List (RelationPoint ρ) × Bool

/-- The documented behaviour of `scroll_page`. -/
structure RelationScroll.Lawful (scroll : RelationScroll ρ) : Prop where
  nodup : ∀ points q limit, (scroll points q limit).1.Nodup
  mem : ∀ points q limit, ∀ p ∈ (scroll points q limit).1, p ∈ points.rows ∧ q.matches schema p
  complete : ∀ points q limit, (scroll points q limit).2 = false →
    ∀ p ∈ points.rows, q.matches schema p → p ∈ (scroll points q limit).1

end Schema

end CyberBrain.Relations
