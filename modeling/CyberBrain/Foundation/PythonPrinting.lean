import CyberBrain.Foundation.JsonPrinting

/-!
# `repr` and `json.dumps`

The two texts that the program makes of a JSON value: `repr`, which keeps the order of a dict, and
the canonical JSON of `json.dumps` with sorted keys and compact separators.
-/

namespace CyberBrain.Python

open Printing

variable (py : Runtime)

/-! ### `repr` -/

/-- The letter and the width of a hexadecimal escape. -/
def hexForm (n : ℕ) : Char × ℕ :=
  if n < 0x100 then ('x', 2) else if n < 0x10000 then ('u', 4) else ('U', 8)

/-- The escapes of `str.__repr__` between quotes of the given kind, double or single. -/
def reprEscapes (double : Bool) : Escapes where
  simple c :=
    if c = '\\' then some '\\'
    else if c = (if double then '"' else '\'') then some c
    else if c = '\n' then some 'n'
    else if c = '\r' then some 'r'
    else if c = '\t' then some 't'
    else none
  hex c :=
    if c.toNat < 32 ∨ c.toNat = 127 ∨ (127 < c.toNat ∧ py.isPrintable c = false) then
      some (hexForm c.toNat)
    else none
  simple_backslash := rfl
  simple_injective c c' e h h' := by
    cases double <;> simp only [Bool.false_eq_true, if_true, if_false] at h h' <;>
      split_ifs at h <;> split_ifs at h' <;> simp_all <;> subst e <;> simp_all
  hex_fits c e w h := by
    have hc : c.toNat < 0x110000 := by
      rcases c.valid with hc | ⟨-, hc⟩
      · exact lt_trans hc (by decide)
      · exact hc
    unfold hexForm at h
    split_ifs at h with _ h1 h2 <;> cases h <;> norm_num at * <;> omega
  hex_width c c' e w w' h h' := by
    unfold hexForm at h h'
    split_ifs at h <;> split_ifs at h' <;> cases h <;> cases h' <;> rfl
  hex_ne_simple c c' e w h h' := by
    have he : e = 'x' ∨ e = 'u' ∨ e = 'U' := by
      unfold hexForm at h
      split_ifs at h <;> cases h <;> simp
    split_ifs at h' <;> cases h' <;> revert he <;> simp_all

/-- `str.__repr__`: single quotes, unless the text has single quotes and no double ones. -/
def reprStr (s : String) : List Char :=
  let double := '\'' ∈ s.toList ∧ '"' ∉ s.toList
  (reprEscapes py double).quoted (if double then '"' else '\'') s

lemma reprStr_head (s : String) : ∃ c r, reprStr py s = c :: r ∧ (c = '"' ∨ c = '\'') := by
  unfold reprStr
  by_cases h : '\'' ∈ s.toList ∧ '"' ∉ s.toList
  · exact ⟨'"', _, by simp only [h]; rfl, .inl rfl⟩
  · exact ⟨'\'', _, by simp only [h, decide_false]; rfl, .inr rfl⟩

lemma selfDelimiting_reprStr : SelfDelimiting (reprStr py) := by
  have hquoted : ∀ double, SelfDelimiting
      ((reprEscapes py double).quoted (if double then '"' else '\'')) := by
    intro double
    apply Escapes.selfDelimiting_quoted
    · cases double <;> decide
    · cases double <;> rfl
  intro s t x y h
  unfold reprStr at h
  by_cases hs : '\'' ∈ s.toList ∧ '"' ∉ s.toList <;>
    by_cases ht : '\'' ∈ t.toList ∧ '"' ∉ t.toList <;>
      simp only [hs, ht, decide_true, decide_false, and_self, not_false_eq_true] at h
  · exact hquoted true s t x y h
  · exact absurd (List.cons.inj h).1 (by decide)
  · exact absurd (List.cons.inj h).1 (by decide)
  · exact hquoted false s t x y h

/-- `repr` on JSON values. -/
def reprDialect : Dialect where
  constant
    | none       => ['N', 'o', 'n', 'e']
    | some true  => ['T', 'r', 'u', 'e']
    | some false => ['F', 'a', 'l', 's', 'e']
  float := py.reprFloat
  string := reprStr py
  comma := [' ']
  colon := [' ']
  constant_injective := by rintro (_ | _ | _) (_ | _ | _) h <;> first | rfl | cases h
  constant_head := by rintro (_ | _ | _) <;> exact ⟨_, _, rfl, rfl⟩
  constant_chars := by rintro (_ | _ | _) <;> exact List.all_eq_true.mp rfl
  float_injective := py.reprFloat_injective
  float_head := py.reprFloat_head
  float_chars x c hc := by
    rcases py.reprFloat_chars x c hc with hdigit | hc
    · simp [isTokenChar, Char.isAlphanum, hdigit]
    · simp only [List.mem_cons, List.not_mem_nil, or_false] at hc
      rcases hc with rfl | rfl | rfl | rfl <;> rfl
  float_mark := py.reprFloat_mark
  string_head := reprStr_head py
  string_selfDelimiting := selfDelimiting_reprStr py

/-- `repr` of an item, a pair. -/
def reprPair (kv : String × Json) : List Char :=
  '(' :: (reprStr py kv.1 ++ ',' :: ' ' :: ((reprDialect py).print kv.2 ++ [')']))

/-- `repr` of a list of items. -/
def reprPairs (items : List (String × Json)) : List Char :=
  '[' :: (joined [' '] (reprPair py) items ++ [']'])

lemma reprPair_unambiguousAt (kv : String × Json) : UnambiguousAt (reprPair py) kv := by
  rintro ⟨k, v⟩ x y _ _ h
  simp only [reprPair, List.cons_append, List.append_assoc, List.nil_append, List.cons.injEq,
    true_and] at h
  obtain ⟨hk, h⟩ := selfDelimiting_reprStr py _ _ _ _ h
  simp only [List.cons.injEq, true_and] at h
  obtain ⟨hv, hxy⟩ := (reprDialect py).print_unambiguousAt kv.2 v _ _ (by simp [isDelimiter])
    (by simp [isDelimiter]) h
  exact ⟨Prod.ext hk hv, (List.cons.inj hxy).2⟩

/-- The `repr` of a list of items determines it. -/
theorem reprPairs_injective : Function.Injective (reprPairs py) := by
  intro l m h
  simp only [reprPairs, List.cons.injEq, true_and] at h
  exact (joined_append_inj rfl (by decide) (fun kv => ⟨'(', _, rfl, rfl⟩)
    (fun kv _ => reprPair_unambiguousAt py kv) h).1

/-- `repr` of a list of texts. -/
def reprStrs (texts : List String) : String :=
  String.ofList ((reprDialect py).print (.arr (texts.map .str)))

example : String.ofList (reprPairs .ascii [("os", .str "it's"), ("v", .arr [.int 1, .null])]) =
    "[('os', \"it's\"), ('v', [1, None])]" := by
  decide +kernel

/-! ### Canonical JSON -/

/-- The escapes of a JSON text that is not restricted to ASCII. -/
def jsonEscapes : Escapes where
  simple
    | '"'    => some '"'
    | '\\'   => some '\\'
    | '\x08' => some 'b'
    | '\x0c' => some 'f'
    | '\n'   => some 'n'
    | '\r'   => some 'r'
    | '\t'   => some 't'
    | _      => none
  hex c := if c.toNat < 32 then some ('u', 4) else none
  simple_backslash := rfl
  simple_injective c c' e h h' := by
    split at h <;> cases h <;> split at h' <;> cases h' <;> rfl
  hex_fits c e w h := by
    split_ifs at h with hc
    cases h
    exact lt_trans hc (by decide)
  hex_width c c' e w w' h h' := by
    split_ifs at h
    split_ifs at h'
    cases h
    cases h'
    rfl
  hex_ne_simple c c' e w h h' := by
    split_ifs at h
    cases h
    split at h' <;> cases h'

/-- `json.dumps` with compact separators and `ensure_ascii=False`. -/
def jsonDialect : Dialect where
  constant
    | none       => ['n', 'u', 'l', 'l']
    | some true  => ['t', 'r', 'u', 'e']
    | some false => ['f', 'a', 'l', 's', 'e']
  float := py.reprFloat
  string := jsonEscapes.quoted '"'
  comma := []
  colon := []
  constant_injective := by rintro (_ | _ | _) (_ | _ | _) h <;> first | rfl | cases h
  constant_head := by rintro (_ | _ | _) <;> exact ⟨_, _, rfl, rfl⟩
  constant_chars := by rintro (_ | _ | _) <;> exact List.all_eq_true.mp rfl
  float_injective := py.reprFloat_injective
  float_head := py.reprFloat_head
  float_chars := (reprDialect py).float_chars
  float_mark := py.reprFloat_mark
  string_head s := ⟨'"', _, rfl, .inl rfl⟩
  string_selfDelimiting := jsonEscapes.selfDelimiting_quoted (by decide) rfl

end CyberBrain.Python
