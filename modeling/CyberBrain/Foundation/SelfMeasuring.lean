import CyberBrain.Foundation.PythonPrinting

/-!
# Texts that state their own size

A number that is printed inside the text it measures changes what it measures. Measuring again and
again settles in three rounds, since a longer number takes one more digit at most.
-/

namespace CyberBrain.SelfMeasuring

variable {b c base : ℕ}

/-- How many digits `n` has in base `b`. -/
def width (b n : ℕ) : ℕ := (Nat.toDigits b n).length

/-- How many portions of `c` characters a text takes that has `base` characters and `n`. -/
def portions (b c base n : ℕ) : ℕ := (base + width b n + c - 1) / c

lemma width_le_iff {n k : ℕ} (hb : 1 < b) (hk : 0 < k) : width b n ≤ k ↔ n < b ^ k :=
  Nat.length_toDigits_le_iff hb hk

lemma width_pos (b n : ℕ) : 0 < width b n := Nat.length_toDigits_pos

lemma lt_pow_width (hb : 1 < b) (n : ℕ) : n < b ^ width b n :=
  (width_le_iff hb (width_pos b n)).mp le_rfl

lemma width_mono (hb : 1 < b) {m n : ℕ} (h : m ≤ n) : width b m ≤ width b n :=
  (width_le_iff hb (width_pos b n)).mpr (h.trans_lt (lt_pow_width hb n))

lemma portions_mono {m n : ℕ} (h : width b m ≤ width b n) :
    portions b c base m ≤ portions b c base n :=
  Nat.div_le_div_right (by omega)

lemma portions_congr {m n : ℕ} (h : width b m = width b n) :
    portions b c base m = portions b c base n := by
  simp only [portions, h]

/-- A number that is wider by `k` digits adds `k` portions at most. -/
lemma portions_le_add (hc : 0 < c) {m n k : ℕ} (h : width b n ≤ width b m + k) :
    portions b c base n ≤ portions b c base m + k := by
  rw [portions, portions, ← Nat.add_mul_div_left _ k hc]
  have hk : k ≤ c * k := Nat.le_mul_of_pos_left k hc
  exact Nat.div_le_div_right (by omega)

/-- The third count states itself. -/
theorem portions_settled (hb : 1 < b) (hc : 0 < c) (base : ℕ) :
    let third := portions b c base (portions b c base (portions b c base 0))
    portions b c base third = third := by
  intro third
  obtain ⟨first, hfirst⟩ : ∃ n, n = portions b c base 0 := ⟨_, rfl⟩
  obtain ⟨second, hsecond⟩ : ∃ n, n = portions b c base first := ⟨_, rfl⟩
  have hthird : third = portions b c base second := by rw [hsecond, hfirst]
  have hzero : width b 0 = 1 :=
    le_antisymm ((width_le_iff hb Nat.one_pos).mpr (Nat.pow_pos (by omega))) (width_pos b 0)
  have hmono : first ≤ second := by
    rw [hsecond, hfirst]
    exact portions_mono (hzero ▸ width_pos b _)
  -- the second number exceeds the first by less than the first has digits
  have hsecond_le : second ≤ first + (width b first - 1) := by
    rw [hsecond]
    conv_rhs => rw [hfirst]
    refine portions_le_add hc ?_
    have := width_pos b first
    rw [hzero, ← hfirst]
    omega
  have hlt := lt_pow_width hb first
  have hwidth : width b first < b ^ width b first := Nat.lt_pow_self hb
  have hdouble : b ^ width b first + b ^ width b first ≤ b ^ (width b first + 1) := by
    rw [pow_succ, ← Nat.mul_two]
    exact Nat.mul_le_mul_left _ hb
  have hpos := width_pos b first
  have hfits : second + 1 < b ^ (width b first + 1) := by omega
  have hgrows : width b second ≤ width b first + 1 :=
    (width_le_iff hb (Nat.succ_pos _)).mpr ((Nat.lt_succ_self _).trans hfits)
  rcases (width_mono hb hmono).eq_or_lt with hsame | hwider
  · have hsettled : third = second := by
      rw [hthird, portions_congr hsame.symm, hsecond]
    rw [hsettled, ← hthird, hsettled]
  · have hnext : second ≤ third := by
      rw [hthird]
      conv_lhs => rw [hsecond]
      exact portions_mono hwider.le
    have hthird_le : third ≤ second + 1 := by
      rw [hthird]
      conv_rhs => rw [hsecond]
      exact portions_le_add hc hgrows
    have hbound : width b third ≤ width b first + 1 :=
      (width_le_iff hb (Nat.succ_pos _)).mpr (hthird_le.trans_lt hfits)
    have hstable : width b third = width b second :=
      le_antisymm (hbound.trans hwider) (width_mono hb hnext)
    rw [portions_congr hstable, ← hthird]

/-- Where `k` digits are enough for the size of a text with a number of `k` digits, no size
needs more. -/
lemma portions_le (hb : 1 < b) {n k : ℕ} (hk : 0 < k) (h : n < b ^ k) :
    portions b c base n ≤ (base + k + c - 1) / c := by
  have := (width_le_iff hb hk).mpr h
  exact Nat.div_le_div_right (by omega)

end CyberBrain.SelfMeasuring

/-! ### The length of a printed value -/

namespace CyberBrain.Printing

open Python (jsonEscapes)

/-- The elements of a printed list are apart by a comma and the separator. -/
lemma length_joined {α : Type*} (sep : List Char) (p : α → List Char) (l : List α) :
    (joined sep p l).length =
      (l.map fun a => (p a).length).sum + (l.length - 1) * (sep.length + 1) := by
  induction l with
  | nil => simp [joined]
  | cons a l ih =>
    cases l with
    | nil => simp [joined]
    | cons b l =>
      simp only [joined, List.length_append, List.length_cons, ih, List.map_cons, List.sum_cons,
        Nat.add_sub_cancel, Nat.succ_mul]
      omega

namespace Dialect

variable (d : Dialect)

lemma length_print_arr (vs : List Json) : (d.print (.arr vs)).length =
    2 + (vs.map fun v => (d.print v).length).sum + (vs.length - 1) * (d.comma.length + 1) := by
  simp only [print, List.length_cons, List.length_append, List.length_nil, printList_eq,
    length_joined]
  omega

/-- The keys and the values of an object take their part each. -/
lemma length_print_obj (items : List (String × Json)) : (d.print (.obj items)).length =
    2 + (items.map fun kv => (d.string kv.1).length + d.colon.length + 1).sum +
      (items.map fun kv => (d.print kv.2).length).sum +
      (items.length - 1) * (d.comma.length + 1) := by
  have hitem (kv : String × Json) : (d.printItem kv).length =
      ((d.string kv.1).length + d.colon.length + 1) + (d.print kv.2).length := by
    simp only [printItem, List.length_cons, List.length_append]
    omega
  simp only [print, List.length_cons, List.length_append, List.length_nil, printItems_eq,
    length_joined, hitem, List.sum_map_add]
  omega

lemma length_print_nat (n : ℕ) : (d.print (.int n)).length = SelfMeasuring.width 10 n := by
  rw [print, Python.reprInt, if_neg (by omega), Int.natAbs_natCast, SelfMeasuring.width]

end Dialect

/-! ### Bounds by bytes -/

lemma length_escape_le (c : Char) : (jsonEscapes.escape c).length ≤ 6 := by
  rcases jsonEscapes.escape_cases c with ⟨e, -, h⟩ | ⟨e, w, hhex, h⟩ | ⟨-, h⟩ <;> rw [h]
  · simp
  · have hw : w = 4 := by
      change (if c.toNat < 32 then some ('u', 4) else none) = some (e, w) at hhex
      split_ifs at hhex
      cases hhex
      rfl
    simp [hw]
  · simp

lemma length_quoted_le (s : String) : (jsonEscapes.quoted '"' s).length ≤ 2 + 6 * s.length := by
  have hall : ∀ cs : List Char, (cs.flatMap jsonEscapes.escape).length ≤ 6 * cs.length := by
    intro cs
    induction cs with
    | nil => simp
    | cons c cs ih =>
      have := length_escape_le c
      simp only [List.flatMap_cons, List.length_append, List.length_cons]
      omega
  have := hall s.toList
  rw [String.length_toList] at this
  simp only [Printing.Escapes.quoted, List.length_cons, List.length_append, List.length_nil]
  omega

lemma length_le_bytes (s : String) : s.length ≤ s.utf8ByteSize := by
  rw [← s.ofList_toList, String.length_ofList, String.utf8ByteSize_ofList]
  induction s.toList with
  | nil => exact Nat.zero_le _
  | cons c cs ih =>
    have hpos := c.utf8Size_pos
    rw [List.length_cons, String.utf8Len_cons]
    omega

namespace Dialect

variable (d : Dialect)

mutual
/-- A bound on what a value takes, by the bytes of its strings. -/
def bytesBound : Json → ℕ
  | .null      => (d.constant none).length
  | .bool b    => (d.constant (some b)).length
  | .int i     => (Python.reprInt i).length
  | .float x   => (d.float x).length
  | .str s     => 2 + 6 * s.utf8ByteSize
  | .arr vs    => 2 + bytesBoundList vs
  | .obj items => 2 + bytesBoundItems items

def bytesBoundList : List Json → ℕ
  | []      => 0
  | v :: vs => bytesBound v + (d.comma.length + 1) + bytesBoundList vs

def bytesBoundItems : List (String × Json) → ℕ
  | []              => 0
  | (k, v) :: items => (2 + 6 * k.utf8ByteSize + d.colon.length + 1) + bytesBound v +
      (d.comma.length + 1) + bytesBoundItems items
end

variable {d}

lemma length_print_le (hstring : ∀ s, (d.string s).length ≤ 2 + 6 * s.utf8ByteSize) (v : Json) :
    (d.print v).length ≤ d.bytesBound v := by
  induction v using Json.induct with
  | null => exact le_rfl
  | bool b => exact le_rfl
  | int i => exact le_rfl
  | float x => exact le_rfl
  | str s => exact hstring s
  | arr vs ih =>
    have hsum : (vs.map fun v => (d.print v).length).sum + vs.length * (d.comma.length + 1) ≤
        d.bytesBoundList vs := by
      induction vs with
      | nil => simp [bytesBoundList]
      | cons v vs ihvs =>
        have hv := ih v List.mem_cons_self
        have hvs := ihvs fun w hw => ih w (List.mem_cons_of_mem v hw)
        rw [List.map_cons, List.sum_cons, List.length_cons, bytesBoundList, Nat.succ_mul]
        omega
    have hcommas := Nat.mul_le_mul_right (d.comma.length + 1) (Nat.sub_le vs.length 1)
    rw [length_print_arr, bytesBound]
    omega
  | obj items ih =>
    have hsum : (items.map fun kv => (d.string kv.1).length + d.colon.length + 1).sum +
        (items.map fun kv => (d.print kv.2).length).sum + items.length * (d.comma.length + 1) ≤
          d.bytesBoundItems items := by
      induction items with
      | nil => simp [bytesBoundItems]
      | cons kv items ihitems =>
        obtain ⟨k, v⟩ := kv
        have hk := hstring k
        have hv := ih (k, v) List.mem_cons_self
        have hitems := ihitems fun w hw => ih w (List.mem_cons_of_mem _ hw)
        rw [List.map_cons, List.map_cons, List.sum_cons, List.sum_cons, List.length_cons,
          bytesBoundItems, Nat.succ_mul]
        dsimp only at hv ⊢
        omega
    have hcommas := Nat.mul_le_mul_right (d.comma.length + 1) (Nat.sub_le items.length 1)
    rw [length_print_obj, bytesBound]
    omega

end Dialect

end CyberBrain.Printing
