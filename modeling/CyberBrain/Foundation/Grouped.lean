import CyberBrain.Foundation.Lists
import Mathlib.Data.List.Induction

/-!
# Groups by key

The groups that a dictionary collects from a list, by the keys in the order of their first
occurrences. Elements without a key are in no group.
-/

namespace CyberBrain.Grouped

variable {α κ : Type*} [DecidableEq κ] (key : α → Option κ)

/-- The keys of a list in the order of their first occurrences. -/
def keys (l : List α) : List κ := (l.filterMap key).eraseDups

/-- The elements with a key. -/
def group (l : List α) (k : κ) : List α := l.filter fun a => key a = some k

/-- The elements without a key. -/
def rest (l : List α) : List α := l.filter fun a => key a = none

variable {key} {l m : List α} {k : κ} {a : α}

lemma mem_keys : k ∈ keys key l ↔ ∃ a ∈ l, key a = some k := by
  simp [keys, List.mem_filterMap]

lemma nodup_keys (key : α → Option κ) (l : List α) : (keys key l).Nodup := nodup_eraseDups _

lemma mem_group : a ∈ group key l k ↔ a ∈ l ∧ key a = some k := by simp [group]

lemma group_ne_nil (h : k ∈ keys key l) : group key l k ≠ [] := by
  obtain ⟨a, ha, hkey⟩ := mem_keys.mp h
  exact List.ne_nil_of_mem (mem_group.mpr ⟨ha, hkey⟩)

lemma keys_perm (key : α → Option κ) (h : l.Perm m) : (keys key l).Perm (keys key m) := by
  refine (List.perm_ext_iff_of_nodup (nodup_keys key l) (nodup_keys key m)).mpr fun k => ?_
  simp only [mem_keys, h.mem_iff]

/-- The key of the first element comes first. -/
lemma keys_cons (hkey : key a = some k) : ∃ ks, keys key (a :: l) = k :: ks := by
  rw [keys, List.filterMap_cons_some hkey, List.eraseDups_cons]
  exact ⟨_, rfl⟩

/-- What satisfies one of two exclusive conditions satisfies the one or the other. -/
lemma filter_or_perm {p q : α → Bool} (h : ∀ a ∈ l, p a = true → q a = false) :
    (l.filter p ++ l.filter q).Perm (l.filter fun a => p a || q a) := by
  induction l with
  | nil => simp
  | cons a l ih =>
    obtain ⟨ha, hl⟩ := List.forall_mem_cons.mp h
    have hrest := ih hl
    cases hp : p a with
    | true  => simpa [hp, ha hp] using hrest
    | false =>
      cases hq : q a with
      | true  =>
        simp only [List.filter_cons, hp, hq, Bool.false_eq_true, if_false, if_true, Bool.or_true]
        exact List.perm_middle.trans (hrest.cons a)
      | false => simpa [hp, hq] using hrest

/-- Every element is in one group, or in none if it has no key. -/
theorem partition_perm (l : List α) :
    ((keys key l).flatMap (group key l) ++ rest key l).Perm l := by
  have hgroups : ∀ ks : List κ, ks.Nodup →
      (ks.flatMap (group key l)).Perm (l.filter fun a => (key a).any (· ∈ ks)) := by
    intro ks hks
    induction ks with
    | nil => simp
    | cons k ks ih =>
      obtain ⟨hk, hks⟩ := List.nodup_cons.mp hks
      rw [List.flatMap_cons]
      refine ((ih hks).append_left _).trans ((filter_or_perm fun a _ ha => ?_).trans ?_)
      · simp only [decide_eq_true_eq] at ha
        simpa [ha] using hk
      · rw [List.filter_congr fun a _ => ?_]
        cases key a <;> simp
  have hkeys := hgroups (keys key l) (nodup_keys key l)
  refine (hkeys.append_right _).trans ((filter_or_perm fun a _ ha => ?_).trans ?_)
  · cases hkey : key a with
    | none   => simp [hkey] at ha
    | some k => simp
  · rw [List.filter_eq_self.mpr]
    intro a ha
    cases hkey : key a with
    | none   => simp
    | some k => simpa using mem_keys.mpr ⟨a, ha, hkey⟩

/-! ### Collecting in a dictionary -/

section Collect

variable {β : Type*} (key) (step : β → α → β) (start : β)

/-- `entries[k] = step(entries.get(k, start), a)`. -/
def update (entries : List (κ × β)) (k : κ) (a : α) : List (κ × β) :=
  if k ∈ entries.map Prod.fst then
    entries.map fun e => if e.1 = k then (k, step e.2 a) else e
  else entries ++ [(k, step start a)]

/-- What a loop collects under the keys of a list. -/
def collect (l : List α) : List (κ × β) :=
  l.foldl (fun entries a => (key a).elim entries fun k => update step start entries k a) []

variable {key step start}

lemma keys_concat (l : List α) (a : α) : keys key (l ++ [a]) =
    (key a).elim (keys key l) fun k => if k ∈ keys key l then keys key l else keys key l ++ [k] := by
  rw [keys, List.filterMap_append, List.eraseDups_append]
  cases hkey : key a with
  | none   => simp [hkey, keys]
  | some k =>
    rw [List.filterMap_cons_some hkey, List.filterMap_nil, List.removeAll, Option.elim_some, keys]
    simp only [List.mem_eraseDups]
    split_ifs with hk
    · simp only [List.filter_cons, List.elem_eq_mem, hk, decide_true, Bool.not_true,
        Bool.false_eq_true, if_false, List.filter_nil, List.eraseDups_nil, List.append_nil]
    · simp only [List.filter_cons, List.elem_eq_mem, hk, decide_false, Bool.not_false, if_true,
        List.filter_nil, List.eraseDups_cons, List.eraseDups_nil]

lemma group_concat (l : List α) (a : α) (k : κ) :
    group key (l ++ [a]) k = if key a = some k then group key l k ++ [a] else group key l k := by
  rw [group, List.filter_append]
  split_ifs with h <;> simp [group, h]

/-- A loop over a list with a dictionary is a loop over each group. -/
theorem collect_eq (l : List α) : collect key step start l =
    (keys key l).map fun k => (k, (group key l k).foldl step start) := by
  induction l using List.reverseRecOn with
  | nil => rfl
  | append_singleton l a ih =>
    have hconcat : collect key step start (l ++ [a]) =
        (key a).elim (collect key step start l) fun k =>
          update step start (collect key step start l) k a := by
      rw [collect, List.foldl_append]
      rfl
    rw [hconcat, ih, keys_concat]
    cases hkey : key a with
    | none   => simp [group_concat, hkey]
    | some k =>
      have hkeys : ((keys key l).map fun k => (k, (group key l k).foldl step start)).map Prod.fst =
          keys key l := by simp [Function.comp_def]
      simp only [Option.elim_some, update, hkeys]
      split_ifs with hmem
      · rw [List.map_map]
        refine List.map_congr_left fun k' _ => ?_
        by_cases heq : k' = k
        · simp [heq, group_concat, hkey]
        · simp [heq, Ne.symm heq, group_concat, hkey]
      · have hempty : group key l k = [] := by
          rw [group, List.filter_eq_nil_iff]
          intro b hb hb'
          exact hmem (mem_keys.mpr ⟨b, hb, of_decide_eq_true hb'⟩)
        rw [List.map_append]
        refine congrArg₂ (· ++ ·) (List.map_congr_left fun k' hk' => ?_) ?_
        · have hne : k ≠ k' := fun heq => hmem (heq ▸ hk')
          simp [group_concat, hkey, hne]
        · simp [group_concat, hkey, hempty]

end Collect

end CyberBrain.Grouped
