import CyberBrain.Foundation.Json

/-!
# SQL over JSON columns

The fragment of SQLite that reads JSON columns: three-valued logic, `NOT IN`, and the functions
`json_array_length` and `json_each`. A truth value is `none` for NULL, and a row satisfies a
condition when its truth value is `some true`.
-/

namespace CyberBrain.Sql

/-! ### Three-valued logic -/

/-- A truth value; `none` is NULL. -/
abbrev Truth := Option Bool

namespace Truth

def not : Truth → Truth
  | some b => some (!b)
  | none   => none

def and : Truth → Truth → Truth
  | some false, _         => some false
  | _, some false         => some false
  | some true, some true  => some true
  | _, _                  => none

def or : Truth → Truth → Truth
  | some true, _          => some true
  | _, some true          => some true
  | some false, some false => some false
  | _, _                  => none

@[simp] lemma not_eq_true {t : Truth} : t.not = some true ↔ t = some false := by
  rcases t with _ | _ | _ <;> decide

@[simp] lemma and_eq_true {s t : Truth} :
    s.and t = some true ↔ s = some true ∧ t = some true := by
  rcases s with _ | _ | _ <;> rcases t with _ | _ | _ <;> decide

@[simp] lemma or_eq_false {s t : Truth} :
    s.or t = some false ↔ s = some false ∧ t = some false := by
  rcases s with _ | _ | _ <;> rcases t with _ | _ | _ <;> decide

end Truth

/-! ### Values -/

/-- An SQL value. Integers and reals compare by value. -/
inductive Value
  | null
  | num (q : ℚ)
  | text (s : String)
  deriving DecidableEq

/-- `=`. -/
def Value.eq : Value → Value → Truth
  | .null, _       => none
  | _, .null       => none
  | .num p, .num q => some (p = q)
  | .text s, .text t => some (s = t)
  | _, _           => some false

/-- `>` against a number. -/
def Value.gt : Value → ℚ → Truth
  | .null, _   => none
  | .num p, q  => some (q < p)
  | .text _, _ => some true

/-- `IN`. -/
def Value.isIn (v : Value) : List Value → Truth
  | []      => some false
  | w :: ws => (v.eq w).or (v.isIn ws)

/-- `NOT IN`. -/
def Value.notIn (v : Value) (ws : List Value) : Truth := (v.isIn ws).not

lemma Value.isIn_text_eq_false {s : String} {ts : List String} :
    (Value.text s).isIn (ts.map .text) = some false ↔ s ∉ ts := by
  induction ts with
  | nil => simp [isIn]
  | cons t ts ih => simp [isIn, ih, Value.eq]

/-- A text is provably outside a list of texts exactly when it is not listed. -/
lemma Value.notIn_text_eq_true {s : String} {ts : List String} :
    (Value.text s).notIn (ts.map .text) = some true ↔ s ∉ ts := by
  rw [notIn, Truth.not_eq_true, isIn_text_eq_false]

/-! ### JSON functions -/

/-- The value at a path of object labels. -/
def atPath : Json → List String → Option Json
  | v, []               => some v
  | .obj items, k :: ks => (items.lookup k).bind (atPath · ks)
  | _, _ :: _           => none

/-- The SQL value of a JSON value; a nested value is its JSON text, which `render` prints. -/
def ofJson (render : Json → String) : Json → Value
  | .null    => .null
  | .bool b  => .num (if b then 1 else 0)
  | .int i   => .num i
  | .float x => .num x.value
  | .str s   => .text s
  | v        => .text (render v)

/-- `json_array_length(column, path)`. -/
def jsonArrayLength (column : Option Json) (path : List String) : Value :=
  match column.bind (atPath · path) with
  | none          => .null
  | some (.arr vs) => .num vs.length
  | some _        => .num 0

/-- The `value` column of `json_each(column, path)`. -/
def jsonEach (render : Json → String) (column : Option Json) (path : List String) : List Value :=
  match column.bind (atPath · path) with
  | none              => []
  | some (.arr vs)    => vs.map (ofJson render)
  | some (.obj items) => items.map fun kv => ofJson render kv.2
  | some v            => [ofJson render v]

end CyberBrain.Sql
