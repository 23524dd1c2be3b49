import CyberBrain.Foundation.Json

/-!
# Payload filters

The conjunctive filters of a point store, evaluated on a payload. A payload is given by its fields:
`fields k` is the value under the (dotted) key `k`, or `none` when the key is absent.
-/

namespace CyberBrain

/-- The scalars a filter can match. -/
inductive Scalar
  | bool (b : Bool)
  | int (i : ℤ)
  | str (s : String)
  deriving DecidableEq, Repr

/-- The scalar a JSON value is, if it is one that a filter can match. -/
def Json.scalar? : Json → Option Scalar
  | .bool b => some (.bool b)
  | .int i  => some (.int i)
  | .str s  => some (.str s)
  | _       => none

/-- A field matches a scalar when it is that scalar or an array that holds it. -/
def Json.matchesScalar (s : Scalar) : Json → Bool
  | .arr vs => vs.any fun v => v.scalar? = some s
  | v       => v.scalar? = some s

/-- A condition on one field. -/
inductive FieldCondition
  | matchValue (key : String) (value : Scalar)
  | matchAny (key : String) (values : List Scalar)
  | isEmpty (key : String)
  deriving DecidableEq, Repr

/-- A condition of a filter: one field condition, or at least one out of several. -/
inductive Condition
  | field (c : FieldCondition)
  | should (cs : List FieldCondition)
  deriving DecidableEq, Repr

/-- All conditions under `must`. -/
abbrev Filter := List Condition

/-- The fields of a payload by key. -/
abbrev Fields := String → Option Json

def FieldCondition.holds (fields : Fields) : FieldCondition → Bool
  | .matchValue key value => (fields key).any (Json.matchesScalar value)
  | .matchAny key values  => (fields key).any fun v => values.any fun s => v.matchesScalar s
  | .isEmpty key          =>
    match fields key with
    | none | some .null | some (.arr []) => true
    | _ => false

def Condition.holds (fields : Fields) : Condition → Bool
  | .field c   => c.holds fields
  | .should cs => cs.any (·.holds fields)

/-- A payload passes a filter when every condition holds. -/
def Filter.accepts (f : Filter) (fields : Fields) : Bool := f.all (·.holds fields)

@[simp] lemma Filter.accepts_nil (fields : Fields) : Filter.accepts [] fields = true := rfl

@[simp] lemma Filter.accepts_cons (c : Condition) (f : Filter) (fields : Fields) :
    Filter.accepts (c :: f) fields = (c.holds fields && Filter.accepts f fields) := rfl

@[simp] lemma Filter.accepts_append (f g : Filter) (fields : Fields) :
    Filter.accepts (f ++ g) fields = (Filter.accepts f fields && Filter.accepts g fields) := by
  simp [Filter.accepts]

/-- The condition that a field carries exactly an optional text. -/
def Condition.optionalText (key : String) : Option String → Condition
  | some s => .field (.matchValue key (.str s))
  | none   => .field (.isEmpty key)

/-- An optional text as a payload field; absence is stored as null. -/
def Json.ofText? : Option String → Json
  | some s => .str s
  | none   => .null

lemma FieldCondition.holds_matchValue_str {fields : Fields} {key t : String} {value : Scalar}
    (h : fields key = some (.str t)) :
    (FieldCondition.matchValue key value).holds fields = decide (Scalar.str t = value) := by
  simp [FieldCondition.holds, h, Json.matchesScalar, Json.scalar?]

lemma Condition.holds_optionalText {fields : Fields} {key : String} {stored : Option String}
    (h : fields key = some (Json.ofText? stored)) (wanted : Option String) :
    (Condition.optionalText key wanted).holds fields = decide (stored = wanted) := by
  cases stored <;> cases wanted <;>
    simp [Condition.optionalText, Condition.holds, FieldCondition.holds, h, Json.ofText?,
      Json.matchesScalar, Json.scalar?]

end CyberBrain
