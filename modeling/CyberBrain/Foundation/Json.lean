import CyberBrain.Foundation.Binary64
import Mathlib.Data.List.Sort
import Mathlib.Data.String.Basic

/-!
# JSON values and their Python equality

A JSON value keeps what Python's `==` forgets: the order in which a dict lists its items and
whether a number is an int, a float or a bool. `Json.value` forgets exactly that, so two JSON
values compare equal in Python precisely when they have the same `value`.
-/

namespace CyberBrain

/-- JSON as Python holds it. Objects list their items in insertion order. -/
inductive Json
  | null
  | bool (b : Bool)
  | int (i : ℤ)
  | float (x : Binary64)
  | str (s : String)
  | arr (vs : List Json)
  | obj (items : List (String × Json))

/-- Induction over JSON values, with the hypothesis for the members of arrays and objects. -/
@[elab_as_elim]
theorem Json.induct {motive : Json → Prop} (null : motive .null) (bool : ∀ b, motive (.bool b))
    (int : ∀ i, motive (.int i)) (float : ∀ x, motive (.float x)) (str : ∀ s, motive (.str s))
    (arr : ∀ vs, (∀ v ∈ vs, motive v) → motive (.arr vs))
    (obj : ∀ items, (∀ kv ∈ items, motive kv.2) → motive (.obj items)) (v : Json) : motive v :=
  Json.rec null bool int float str arr obj (fun _ h => absurd h List.not_mem_nil)
    (fun _ _ hv hvs w hw => (List.mem_cons.mp hw).elim (fun h => h ▸ hv) (hvs w))
    (fun _ h => absurd h List.not_mem_nil)
    (fun _ _ hkv hitems w hw => (List.mem_cons.mp hw).elim (fun h => h ▸ hkv) (hitems w))
    (fun _ _ hv => hv) v

/-- What Python's `==` compares: numbers by value, dicts as sets of items. -/
inductive PyValue
  | none
  | num (q : ℚ)
  | str (s : String)
  | list (vs : List PyValue)
  | dict (items : List (String × PyValue))

/-- The items of a dict ordered by key, as `sorted(d.items())` lists them. -/
def sortItems {α : Type*} (items : List (String × α)) : List (String × α) :=
  items.insertionSort fun a b => a.1 ≤ b.1

section Items

variable {α κ : Type*} [DecidableEq κ] {items : List (κ × α)} {k : κ} {v : α}

lemma sortItems_perm (items : List (String × α)) : (sortItems items).Perm items :=
  List.perm_insertionSort _ items

lemma sortItems_sortItems (items : List (String × α)) :
    sortItems (sortItems items) = sortItems items :=
  List.Pairwise.insertionSort_eq (List.pairwise_insertionSort _ _)

lemma lookup_map_snd {β : Type*} (items : List (κ × α)) (k : κ) {f : α → β} :
    (items.map fun kv => (kv.1, f kv.2)).lookup k = (items.lookup k).map f := by
  induction items with
  | nil => rfl
  | cons kv items ih =>
    rw [List.map_cons, List.lookup_cons, List.lookup_cons]
    cases k == kv.1
    · exact ih
    · rfl

lemma lookup_isSome : (items.lookup k).isSome = true ↔ k ∈ items.map (·.1) := by
  induction items with
  | nil => simp
  | cons e items ih =>
    obtain ⟨k', v'⟩ := e
    by_cases h : k = k'
    · simp [h]
    · have hne : (k == k') = false := by simpa using h
      simp [List.lookup_cons, hne, ih, h]

/-- With distinct keys, a lookup finds exactly the listed items. -/
lemma lookup_eq_some_iff (hnodup : (items.map (·.1)).Nodup) :
    items.lookup k = some v ↔ (k, v) ∈ items := by
  induction items with
  | nil => simp
  | cons e items ih =>
    obtain ⟨k', v'⟩ := e
    obtain ⟨hk', hnodup⟩ := List.nodup_cons.mp hnodup
    by_cases h : k = k'
    · subst h
      have hmem : (k, v) ∉ items := fun hmem => hk' (List.mem_map.mpr ⟨_, hmem, rfl⟩)
      simp [hmem, eq_comm]
    · have hne : (k == k') = false := by simpa using h
      simp [List.lookup_cons, hne, ih hnodup, h]

lemma lookup_perm {items' : List (κ × α)} (hperm : items.Perm items')
    (hnodup : (items.map (·.1)).Nodup) : items.lookup k = items'.lookup k := by
  refine Option.ext fun v => ?_
  rw [lookup_eq_some_iff hnodup, lookup_eq_some_iff ((hperm.map _).nodup_iff.mp hnodup),
    hperm.mem_iff]

end Items

namespace Json

mutual
/-- The Python value of a JSON value, up to `==`. -/
def value : Json → PyValue
  | .null      => .none
  | .bool b    => .num (if b then 1 else 0)
  | .int i     => .num i
  | .float x   => .num x.value
  | .str s     => .str s
  | .arr vs    => .list (valueList vs)
  | .obj items => .dict (sortItems (valueItems items))

def valueList : List Json → List PyValue
  | []      => []
  | v :: vs => v.value :: valueList vs

def valueItems : List (String × Json) → List (String × PyValue)
  | []              => []
  | (k, v) :: items => (k, v.value) :: valueItems items
end

mutual
/-- The value with the keys of every object sorted. -/
def sortKeys : Json → Json
  | .arr vs    => .arr (sortKeysList vs)
  | .obj items => .obj (sortItems (sortKeysItems items))
  | v          => v

def sortKeysList : List Json → List Json
  | []      => []
  | v :: vs => v.sortKeys :: sortKeysList vs

def sortKeysItems : List (String × Json) → List (String × Json)
  | []              => []
  | (k, v) :: items => (k, v.sortKeys) :: sortKeysItems items
end

lemma sortKeysList_eq (vs : List Json) : sortKeysList vs = vs.map sortKeys := by
  induction vs with
  | nil => rfl
  | cons v vs ih => rw [sortKeysList, ih, List.map_cons]

lemma sortKeysItems_eq (items : List (String × Json)) :
    sortKeysItems items = items.map fun kv => (kv.1, kv.2.sortKeys) := by
  induction items with
  | nil => rfl
  | cons kv items ih => rw [sortKeysItems, ih, List.map_cons]

/-- Sorting keys twice is sorting them once. -/
theorem sortKeys_sortKeys (v : Json) : v.sortKeys.sortKeys = v.sortKeys := by
  induction v using Json.induct with
  | null | bool | int | float | str => rfl
  | arr vs ih =>
    simp only [sortKeys, sortKeysList_eq, List.map_map, arr.injEq]
    exact List.map_congr_left ih
  | obj items ih =>
    simp only [sortKeys, sortKeysItems_eq, obj.injEq]
    have hmap : (sortItems (items.map fun kv => (kv.1, kv.2.sortKeys))).map
        (fun kv => (kv.1, kv.2.sortKeys)) =
        sortItems (items.map fun kv => (kv.1, kv.2.sortKeys)) := by
      refine (List.map_congr_left fun kv hkv => ?_).trans (List.map_id _)
      obtain ⟨kv', hkv', rfl⟩ := List.mem_map.mp ((sortItems_perm _).mem_iff.mp hkv)
      exact Prod.ext rfl (ih kv' hkv')
    rw [hmap, sortItems_sortItems]

/-- Objects that agree up to the order of their keys agree on every key. -/
lemma lookup_of_sortKeys_eq {a b : List (String × Json)} (ha : (a.map (·.1)).Nodup)
    (hb : (b.map (·.1)).Nodup) (h : (obj a).sortKeys = (obj b).sortKeys) (k : String) :
    (a.lookup k).map sortKeys = (b.lookup k).map sortKeys := by
  simp only [sortKeys, sortKeysItems_eq, obj.injEq] at h
  have hlookup : ∀ items : List (String × Json), (items.map (·.1)).Nodup →
      (sortItems (items.map fun kv => (kv.1, kv.2.sortKeys))).lookup k =
        (items.lookup k).map sortKeys := by
    intro items hnodup
    have hkeys : ((items.map fun kv => (kv.1, kv.2.sortKeys)).map (·.1)).Nodup := by
      rwa [List.map_map]
    rw [lookup_perm (sortItems_perm _) (((sortItems_perm _).map _).nodup_iff.mpr hkeys)]
    exact lookup_map_snd items k
  rw [← hlookup a ha, h, hlookup b hb]

end Json

namespace PyValue

mutual
/-- Structural equality of Python values is decidable. -/
def decEq : (v w : PyValue) → Decidable (v = w)
  | .none, .none       => isTrue rfl
  | .num q, .num r     => decidable_of_iff (q = r) (by simp)
  | .str s, .str t     => decidable_of_iff (s = t) (by simp)
  | .list vs, .list ws =>
    match decEqList vs ws with
    | isTrue h  => isTrue (by rw [h])
    | isFalse h => isFalse (by simpa using h)
  | .dict vs, .dict ws =>
    match decEqItems vs ws with
    | isTrue h  => isTrue (by rw [h])
    | isFalse h => isFalse (by simpa using h)
  | .none, .num _ | .none, .str _ | .none, .list _ | .none, .dict _
  | .num _, .none | .num _, .str _ | .num _, .list _ | .num _, .dict _
  | .str _, .none | .str _, .num _ | .str _, .list _ | .str _, .dict _
  | .list _, .none | .list _, .num _ | .list _, .str _ | .list _, .dict _
  | .dict _, .none | .dict _, .num _ | .dict _, .str _ | .dict _, .list _ =>
    isFalse (by simp)

def decEqList : (vs ws : List PyValue) → Decidable (vs = ws)
  | [], []                => isTrue rfl
  | [], _ :: _ | _ :: _, [] => isFalse (by simp)
  | v :: vs, w :: ws      =>
    match decEq v w, decEqList vs ws with
    | isTrue h, isTrue h' => isTrue (by rw [h, h'])
    | isFalse h, _        => isFalse (by simp [h])
    | _, isFalse h        => isFalse (by simp [h])

def decEqItems : (vs ws : List (String × PyValue)) → Decidable (vs = ws)
  | [], []                => isTrue rfl
  | [], _ :: _ | _ :: _, [] => isFalse (by simp)
  | (k, v) :: vs, (l, w) :: ws =>
    if hk : k = l then
      match decEq v w, decEqItems vs ws with
      | isTrue h, isTrue h' => isTrue (by rw [hk, h, h'])
      | isFalse h, _        => isFalse (by simp [h])
      | _, isFalse h        => isFalse (by simp [h])
    else isFalse (by simp [hk])
end

instance : DecidableEq PyValue := decEq

end PyValue

end CyberBrain
