import CyberBrain.Foundation.Printing

/-!
# Printing JSON values

A dialect fixes how constants, doubles and strings are written and what follows a comma or a colon.
In every dialect a JSON value is determined by its text. Python's `repr` and `json.dumps` are two
dialects.
-/

namespace CyberBrain.Printing

/-- A way to write JSON values. -/
structure Dialect where
  /-- `none` is null. -/
  constant : Option Bool → List Char
  float : Binary64 → List Char
  string : String → List Char
  comma : List Char
  colon : List Char
  constant_injective : Function.Injective constant
  constant_head : ∀ k, ∃ c r, constant k = c :: r ∧ c.isAlpha
  constant_chars : ∀ k, ∀ c ∈ constant k, isTokenChar c
  float_injective : Function.Injective float
  float_head : ∀ x, ∃ c r, float x = c :: r ∧ (c.isDigit ∨ c = '-')
  float_chars : ∀ x, ∀ c ∈ float x, isTokenChar c
  float_mark : ∀ x, '.' ∈ float x ∨ 'e' ∈ float x
  string_head : ∀ s, ∃ c r, string s = c :: r ∧ (c = '"' ∨ c = '\'')
  string_selfDelimiting : SelfDelimiting string

namespace Dialect

variable (d : Dialect)

mutual
/-- The text of a JSON value. -/
def print : Json → List Char
  | .null      => d.constant none
  | .bool b    => d.constant (some b)
  | .int i     => Python.reprInt i
  | .float x   => d.float x
  | .str s     => d.string s
  | .arr vs    => '[' :: (printList vs ++ [']'])
  | .obj items => '{' :: (printItems items ++ ['}'])

def printList : List Json → List Char
  | []           => []
  | [v]          => print v
  | v :: w :: vs => print v ++ ',' :: (d.comma ++ printList (w :: vs))

def printItems : List (String × Json) → List Char
  | []                   => []
  | [(k, v)]             => d.string k ++ ':' :: (d.colon ++ print v)
  | (k, v) :: kv :: items =>
    d.string k ++ ':' :: (d.colon ++ print v) ++ ',' :: (d.comma ++ printItems (kv :: items))
end

/-- The text of an item of an object. -/
def printItem (kv : String × Json) : List Char := d.string kv.1 ++ ':' :: (d.colon ++ d.print kv.2)

lemma printList_eq (vs : List Json) : d.printList vs = joined d.comma d.print vs := by
  induction vs with
  | nil => rfl
  | cons v vs ih =>
    cases vs with
    | nil => rfl
    | cons w vs => simp [printList, joined, ih]

lemma printItems_eq (items : List (String × Json)) :
    d.printItems items = joined d.comma d.printItem items := by
  induction items with
  | nil => rfl
  | cons kv items ih =>
    cases items with
    | nil => rfl
    | cons kv' items => simp [printItems, joined, ih, printItem]

/-! ### Scalars -/

/-- The token that a scalar other than a string is written as. -/
def token : Json → Option (List Char)
  | .null    => some (d.constant none)
  | .bool b  => some (d.constant (some b))
  | .int i   => some (Python.reprInt i)
  | .float x => some (d.float x)
  | _        => none

lemma print_eq_token {v : Json} {t : List Char} (h : d.token v = some t) : d.print v = t := by
  cases v <;> simp_all [token, print]

lemma reprInt_head (i : ℤ) : ∃ c r, Python.reprInt i = c :: r ∧ (c.isDigit ∨ c = '-') := by
  cases h : Python.reprInt i with
  | nil => exact absurd h (Python.reprInt_ne_nil i)
  | cons c r => exact ⟨c, r, rfl, Python.reprInt_chars (h ▸ List.mem_cons_self)⟩

lemma isDigit_eq_false_of_isAlpha {c : Char} (h : c.isAlpha = true) : c.isDigit = false := by
  change (decide (c.val ≥ 'A'.val ∧ c.val ≤ 'Z'.val) ||
    decide (c.val ≥ 'a'.val) && decide (c.val ≤ 'z'.val)) = true at h
  change (decide (c.val ≥ '0'.val) && decide (c.val ≤ '9'.val)) = false
  simp only [Bool.or_eq_true, Bool.and_eq_true, decide_eq_true_eq, UInt32.le_iff_toNat_le,
    ge_iff_le, Bool.and_eq_false_iff, decide_eq_false_iff_not] at h ⊢
  have : 'A'.val.toNat = 65 := rfl
  have : 'a'.val.toNat = 97 := rfl
  have : '9'.val.toNat = 57 := rfl
  omega

lemma constant_ne_number {k : Option Bool} {t : List Char}
    (h : ∃ c r, t = c :: r ∧ (c.isDigit ∨ c = '-')) : d.constant k ≠ t := by
  rintro rfl
  obtain ⟨c, r, hc, halpha⟩ := d.constant_head k
  obtain ⟨c', r', hc', hnumber⟩ := h
  obtain ⟨rfl, -⟩ := List.cons.inj (hc.symm.trans hc')
  rcases hnumber with hdigit | rfl
  · rw [isDigit_eq_false_of_isAlpha halpha] at hdigit
    exact Bool.noConfusion hdigit
  · exact absurd halpha (by decide)

lemma reprInt_ne_float {i : ℤ} {x : Binary64} : Python.reprInt i ≠ d.float x := by
  intro h
  rcases d.float_mark x with hmark | hmark <;> rw [← h] at hmark <;>
    exact absurd (Python.reprInt_chars hmark) (by decide)

/-- Tokens are told apart. -/
lemma token_injective {v w : Json} {t : List Char} (hv : d.token v = some t)
    (hw : d.token w = some t) : v = w := by
  cases v <;> cases w <;> simp only [token, Option.some.injEq, reduceCtorEq] at hv hw <;>
    subst hv
  · rfl
  · simpa using d.constant_injective hw
  · exact absurd hw.symm (d.constant_ne_number (reprInt_head _))
  · exact absurd hw.symm (d.constant_ne_number (d.float_head _))
  · simpa using d.constant_injective hw
  · rw [Option.some.inj (d.constant_injective hw)]
  · exact absurd hw.symm (d.constant_ne_number (reprInt_head _))
  · exact absurd hw.symm (d.constant_ne_number (d.float_head _))
  · exact absurd hw (d.constant_ne_number (reprInt_head _))
  · exact absurd hw (d.constant_ne_number (reprInt_head _))
  · rw [Python.reprInt_injective hw]
  · exact absurd hw.symm d.reprInt_ne_float
  · exact absurd hw (d.constant_ne_number (d.float_head _))
  · exact absurd hw (d.constant_ne_number (d.float_head _))
  · exact absurd hw d.reprInt_ne_float
  · rw [d.float_injective hw]

lemma token_chars {v : Json} {t : List Char} (h : d.token v = some t) :
    ∀ c ∈ t, isTokenChar c := by
  cases v <;> simp only [token, Option.some.injEq, reduceCtorEq] at h <;> subst h
  · exact d.constant_chars _
  · exact d.constant_chars _
  · intro c hc
    rcases Python.reprInt_chars hc with hdigit | rfl
    · simp [isTokenChar, Char.isAlphanum, hdigit]
    · decide
  · exact d.float_chars _

lemma token_ne_nil {v : Json} {t : List Char} (h : d.token v = some t) : t ≠ [] := by
  cases v <;> simp only [token, Option.some.injEq, reduceCtorEq] at h <;> subst h
  · obtain ⟨c, r, hc, -⟩ := d.constant_head none
    simp [hc]
  · rename_i b
    obtain ⟨c, r, hc, -⟩ := d.constant_head (some b)
    simp [hc]
  · exact Python.reprInt_ne_nil _
  · rename_i x
    obtain ⟨c, r, hc, -⟩ := d.float_head x
    simp [hc]

/-! ### The first character -/

/-- The kinds of values that the first character tells apart. -/
inductive Kind
  | scalar
  | string
  | array
  | object
  deriving DecidableEq

def kind : Json → Kind
  | .str _ => .string
  | .arr _ => .array
  | .obj _ => .object
  | _      => .scalar

def kindOfChar (c : Char) : Kind :=
  if c = '[' then .array else if c = '{' then .object
  else if c = '"' ∨ c = '\'' then .string else .scalar

lemma kindOfChar_token {c : Char} (h : isTokenChar c = true) : kindOfChar c = .scalar := by
  unfold kindOfChar
  split_ifs with h1 h2 h3
  · subst h1; exact absurd h (by decide)
  · subst h2; exact absurd h (by decide)
  · rcases h3 with rfl | rfl <;> exact absurd h (by decide)
  · rfl

lemma token_of_scalar {v : Json} (h : kind v = .scalar) : ∃ t, d.token v = some t := by
  cases v <;> simp_all [kind, token]

lemma print_head (v : Json) : ∃ c r, d.print v = c :: r ∧ kindOfChar c = kind v := by
  cases hk : kind v with
  | scalar =>
    obtain ⟨t, ht⟩ := d.token_of_scalar hk
    cases t with
    | nil => exact absurd rfl (d.token_ne_nil ht)
    | cons c r =>
      exact ⟨c, r, d.print_eq_token ht, kindOfChar_token (d.token_chars ht c List.mem_cons_self)⟩
  | string =>
    cases v <;> simp only [kind, reduceCtorEq] at hk
    rename_i s
    obtain ⟨c, r, hc, hquote⟩ := d.string_head s
    exact ⟨c, r, by rw [print, hc], by rcases hquote with rfl | rfl <;> rfl⟩
  | array =>
    cases v <;> simp only [kind, reduceCtorEq] at hk
    exact ⟨_, _, by rw [print], rfl⟩
  | object =>
    cases v <;> simp only [kind, reduceCtorEq] at hk
    exact ⟨_, _, by rw [print], rfl⟩

lemma print_head_not_delimiter (v : Json) :
    ∃ c r, d.print v = c :: r ∧ isDelimiter c = false := by
  obtain ⟨c, r, hc, hk⟩ := d.print_head v
  refine ⟨c, r, hc, ?_⟩
  cases hkv : kind v with
  | scalar =>
    obtain ⟨t, ht⟩ := d.token_of_scalar hkv
    rw [d.print_eq_token ht] at hc
    exact not_isDelimiter_of_isTokenChar (d.token_chars ht c (hc ▸ List.mem_cons_self))
  | string | array | object =>
    rw [hkv] at hk
    by_contra hd
    simp only [isDelimiter, List.mem_cons, List.not_mem_nil, or_false, Bool.not_eq_false,
      decide_eq_true_eq] at hd
    rcases hd with rfl | rfl | rfl | rfl | rfl <;> exact absurd hk (by decide)

lemma kind_eq_of_append {v w : Json} {x y : List Char} (h : d.print v ++ x = d.print w ++ y) :
    kind v = kind w := by
  obtain ⟨c, r, hv, hkv⟩ := d.print_head v
  obtain ⟨c', r', hw, hkw⟩ := d.print_head w
  rw [hv, hw] at h
  rw [← hkv, ← hkw, (List.cons.inj h).1]

/-! ### Values -/

lemma printItem_unambiguousAt {kv : String × Json} (h : UnambiguousAt d.print kv.2) :
    UnambiguousAt d.printItem kv := by
  rintro ⟨k, v⟩ x y hx hy heq
  simp only [printItem, List.append_assoc, List.cons_append] at heq
  obtain ⟨hk, heq⟩ := d.string_selfDelimiting _ _ _ _ heq
  obtain ⟨hv, hxy⟩ := h v x y hx hy (List.append_cancel_left (List.cons.inj heq).2)
  exact ⟨Prod.ext hk hv, hxy⟩

lemma printItem_head (kv : String × Json) :
    ∃ c r, d.printItem kv = c :: r ∧ isDelimiter c = false := by
  obtain ⟨c, r, hc, hquote⟩ := d.string_head kv.1
  refine ⟨c, r ++ ':' :: (d.colon ++ d.print kv.2), by rw [printItem, hc, List.cons_append], ?_⟩
  rcases hquote with rfl | rfl <;> rfl

/-- A JSON value before a delimiter is determined by its text. -/
theorem print_unambiguousAt (v : Json) : UnambiguousAt d.print v := by
  have hscalar : ∀ v, kind v = .scalar → UnambiguousAt d.print v := by
    intro v hv w x y hx hy h
    obtain ⟨t, ht⟩ := d.token_of_scalar hv
    obtain ⟨u, hu⟩ := d.token_of_scalar ((d.kind_eq_of_append h).symm.trans hv)
    rw [d.print_eq_token ht, d.print_eq_token hu] at h
    obtain ⟨rfl, hxy⟩ := token_append_inj (d.token_chars ht) (d.token_chars hu) hx hy h
    exact ⟨d.token_injective ht hu, hxy⟩
  refine Json.induct ?_ ?_ ?_ ?_ ?_ ?_ ?_ v
  · exact hscalar _ rfl
  · exact fun b => hscalar _ rfl
  · exact fun i => hscalar _ rfl
  · exact fun x => hscalar _ rfl
  · intro s w x y _ _ h
    have hk := d.kind_eq_of_append h
    cases w <;> simp only [kind, reduceCtorEq] at hk
    simp only [print] at h
    obtain ⟨rfl, hxy⟩ := d.string_selfDelimiting _ _ _ _ h
    exact ⟨rfl, hxy⟩
  · intro vs ih w x y _ _ h
    have hk := d.kind_eq_of_append h
    cases w <;> simp only [kind, reduceCtorEq] at hk
    simp only [print, printList_eq, List.cons_append, List.append_assoc, List.nil_append,
      List.cons.injEq, true_and] at h
    obtain ⟨rfl, hxy⟩ := joined_append_inj rfl (by decide) d.print_head_not_delimiter ih h
    exact ⟨rfl, hxy⟩
  · intro items ih w x y _ _ h
    have hk := d.kind_eq_of_append h
    cases w <;> simp only [kind, reduceCtorEq] at hk
    simp only [print, printItems_eq, List.cons_append, List.append_assoc, List.nil_append,
      List.cons.injEq, true_and] at h
    obtain ⟨rfl, hxy⟩ := joined_append_inj rfl (by decide) d.printItem_head
      (fun kv hkv => d.printItem_unambiguousAt (ih kv hkv)) h
    exact ⟨rfl, hxy⟩

/-- The text of a JSON value determines it. -/
theorem print_injective : Function.Injective d.print :=
  fun v _ h => (d.print_unambiguousAt v).eq h

end Dialect

end CyberBrain.Printing
