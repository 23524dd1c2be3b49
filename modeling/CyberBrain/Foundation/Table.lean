import Mathlib.Data.List.Nodup
import Mathlib.Data.List.Basic

/-!
# Keyed tables

A table is a list of rows no two of which share a key: a relation with a primary key, or a
collection of points addressed by their id. The operations are the ones such stores offer: a
lookup by key, an upsert, an update of the row under one key and a conditional delete. Every
operation is characterised by the lookup `find?`, so proofs never unfold the list of rows.
-/

namespace CyberBrain

variable {κ ρ : Type*}

/-- Rows of type `ρ`, pairwise different under `key`. -/
structure Table (key : ρ → κ) where
  rows : List ρ
  nodup : (rows.map key).Nodup

/-- The search for a key that one value alone has finds that value. -/
lemma find?_key_of_unique [DecidableEq κ] {key : ρ → κ} {l : List ρ} {r : ρ} (hr : r ∈ l)
    (h : ∀ q ∈ l, key q = key r → q = r) : (l.find? fun q => key q = key r) = some r := by
  have hsome : (l.find? fun q => key q = key r).isSome := List.find?_isSome.mpr ⟨r, hr, by simp⟩
  obtain ⟨q, hq⟩ := Option.isSome_iff_exists.mp hsome
  have hkey : key q = key r := by simpa using List.find?_some hq
  rw [hq, h q (List.mem_of_find?_eq_some hq) hkey]

/-- Among values with different keys, the search for the key of one finds that one. -/
lemma find?_key_of_mem [DecidableEq κ] {key : ρ → κ} {l : List ρ} (hl : (l.map key).Nodup) {r : ρ}
    (hr : r ∈ l) : (l.find? fun q => key q = key r) = some r :=
  find?_key_of_unique hr fun _ hq hkey => List.inj_on_of_nodup_map hl hq hr hkey

namespace Table

variable {key : ρ → κ}

/-- The table without rows. -/
def empty (key : ρ → κ) : Table key := ⟨[], List.nodup_nil⟩

@[simp] lemma rows_empty : (empty key).rows = [] := rfl

lemma nodup_rows (t : Table key) : t.rows.Nodup := List.Nodup.of_map key t.nodup

/-- Rows with the same key are the same row. -/
lemma eq_of_key_eq {t : Table key} {q r : ρ} (hq : q ∈ t.rows) (hr : r ∈ t.rows)
    (h : key q = key r) : q = r :=
  List.inj_on_of_nodup_map t.nodup hq hr h

/-- Keep the rows that satisfy `p`. -/
def filter (t : Table key) (p : ρ → Bool) : Table key where
  rows := t.rows.filter p
  nodup := t.nodup.sublist (List.filter_sublist.map key)

@[simp] lemma filter_true (t : Table key) : (t.filter fun _ => true) = t := by
  simp only [filter, List.filter_true]

lemma filter_filter (t : Table key) (p q : ρ → Bool) :
    (t.filter p).filter q = t.filter fun r => q r && p r := by
  simp only [filter, List.filter_filter]

variable [DecidableEq κ]

/-- The row stored under `k`. -/
def find? (t : Table key) (k : κ) : Option ρ := t.rows.find? fun r => key r = k

/-- Apply `f` to the row stored under `k`, which stays stored under `k`. -/
def modify (t : Table key) (k : κ) (f : ρ → ρ) (hf : ∀ r, key r = k → key (f r) = k) :
    Table key where
  rows := t.rows.map fun r => if key r = k then f r else r
  nodup := by
    rw [List.map_map]
    convert t.nodup using 2
    funext r
    simp only [Function.comp_apply]
    split_ifs with h <;> simp [h, hf]

/-- Insert `r`, replacing the row that carries its key. -/
def upsert (t : Table key) (r : ρ) : Table key :=
  if h : key r ∈ t.rows.map key then
    t.modify (key r) (fun _ => r) fun _ _ => rfl
  else
    { rows := t.rows ++ [r]
      nodup := by
        rw [List.map_append, List.nodup_append]
        refine ⟨t.nodup, by simp, ?_⟩
        rintro k hk k' hk' rfl
        simp only [List.map_cons, List.map_nil, List.mem_singleton] at hk'
        exact h (hk' ▸ hk) }

/-! ### Lookup -/

@[simp] lemma find?_empty (k : κ) : (empty key).find? k = none := rfl

lemma key_of_find? {t : Table key} {k : κ} {r : ρ} (h : t.find? k = some r) : key r = k := by
  simpa using List.find?_some h

lemma mem_of_find? {t : Table key} {k : κ} {r : ρ} (h : t.find? k = some r) : r ∈ t.rows :=
  List.mem_of_find?_eq_some h

lemma find?_of_mem {t : Table key} {r : ρ} (h : r ∈ t.rows) : t.find? (key r) = some r :=
  find?_key_of_mem t.nodup h

lemma mem_rows_iff {t : Table key} {r : ρ} : r ∈ t.rows ↔ t.find? (key r) = some r :=
  ⟨find?_of_mem, mem_of_find?⟩

lemma find?_eq_none {t : Table key} {k : κ} : t.find? k = none ↔ ∀ r ∈ t.rows, key r ≠ k := by
  simp [find?, List.find?_eq_none]

/-! ### Lookup after each operation -/

lemma find?_modify (t : Table key) (k k' : κ) (f : ρ → ρ)
    (hf : ∀ r, key r = k → key (f r) = k) :
    (t.modify k f hf).find? k' = if k' = k then (t.find? k').map f else t.find? k' := by
  have hcomp : ((fun r => decide (key r = k')) ∘ fun r => if key r = k then f r else r)
      = fun r => decide (key r = k') := by
    funext r
    simp only [Function.comp_apply]
    split_ifs with h
    · rw [hf r h, h]
    · rfl
  simp only [find?, modify, List.find?_map, hcomp]
  cases h : t.rows.find? fun r => decide (key r = k') with
  | none => simp
  | some r =>
    have hr : key r = k' := by simpa using List.find?_some h
    simp only [Option.map_some, hr]
    split_ifs <;> rfl

@[simp] lemma find?_modify_self (t : Table key) (k : κ) (f : ρ → ρ)
    (hf : ∀ r, key r = k → key (f r) = k) : (t.modify k f hf).find? k = (t.find? k).map f := by
  rw [find?_modify, if_pos rfl]

lemma find?_modify_of_ne (t : Table key) {k k' : κ} (f : ρ → ρ)
    (hf : ∀ r, key r = k → key (f r) = k) (h : k' ≠ k) :
    (t.modify k f hf).find? k' = t.find? k' := by
  rw [find?_modify, if_neg h]

lemma find?_upsert (t : Table key) (r : ρ) (k : κ) :
    (t.upsert r).find? k = if k = key r then some r else t.find? k := by
  unfold upsert
  split_ifs with hmem hk hk
  · subst hk
    obtain ⟨q, hq, hqr⟩ := List.mem_map.mp hmem
    rw [find?_modify_self, ← hqr, find?_of_mem hq, Option.map_some]
  · exact find?_modify_of_ne t _ _ hk
  · subst hk
    have hnone : t.find? (key r) = none :=
      find?_eq_none.mpr fun q hq hqr => hmem (List.mem_map.mpr ⟨q, hq, hqr⟩)
    simp only [find?] at hnone
    simp [find?, List.find?_append, hnone]
  · have : ¬ key r = k := fun h => hk h.symm
    simp [find?, List.find?_append, this]

@[simp] lemma find?_upsert_self (t : Table key) (r : ρ) : (t.upsert r).find? (key r) = some r := by
  rw [find?_upsert, if_pos rfl]

lemma find?_upsert_of_ne (t : Table key) (r : ρ) {k : κ} (h : k ≠ key r) :
    (t.upsert r).find? k = t.find? k := by
  rw [find?_upsert, if_neg h]

/-- After a batch of upserts with distinct keys, the batch is found first. -/
lemma find?_foldl_upsert (t : Table key) {rs : List ρ} (hrs : (rs.map key).Nodup) (k : κ) :
    (rs.foldl upsert t).find? k = (rs.find? fun r => key r = k).or (t.find? k) := by
  induction rs generalizing t with
  | nil => rfl
  | cons r rs ih =>
    obtain ⟨hr, hrs⟩ := List.nodup_cons.mp hrs
    rw [List.foldl_cons, ih _ hrs, find?_upsert]
    by_cases hk : key r = k
    · have hnone : (rs.find? fun q => key q = k) = none := by
        rw [List.find?_eq_none]
        intro q hq hqk
        exact hr (List.mem_map.mpr ⟨q, hq, (of_decide_eq_true hqk).trans hk.symm⟩)
      simp [hk, hnone]
    · have hk' : ¬ k = key r := fun h => hk h.symm
      simp [hk, hk']

lemma find?_filter (t : Table key) (p : ρ → Bool) (k : κ) :
    (t.filter p).find? k = (t.find? k).filter p := by
  cases h : t.find? k with
  | none =>
    rw [Option.filter_none, find?_eq_none]
    exact fun r hr => find?_eq_none.mp h r (List.mem_of_mem_filter hr)
  | some r =>
    have hkey := key_of_find? h
    rw [Option.filter_some]
    split_ifs with hp
    · rw [← hkey]
      exact find?_of_mem (List.mem_filter.mpr ⟨mem_of_find? h, hp⟩)
    · rw [find?_eq_none]
      intro q hq hqk
      obtain ⟨hq, hpq⟩ := List.mem_filter.mp hq
      have := find?_of_mem hq
      rw [hqk, h] at this
      cases this
      exact hp hpq

/-! ### Rows after an upsert -/

lemma rows_upsert_of_mem {t : Table key} {r : ρ} (h : key r ∈ t.rows.map key) :
    (t.upsert r).rows = t.rows.map fun q => if key q = key r then r else q := by
  rw [upsert, dif_pos h]
  rfl

lemma rows_upsert_of_notMem {t : Table key} {r : ρ} (h : key r ∉ t.rows.map key) :
    (t.upsert r).rows = t.rows ++ [r] := by
  rw [upsert, dif_neg h]

lemma mem_keys_upsert {t : Table key} {r : ρ} {k : κ} :
    k ∈ (t.upsert r).rows.map key ↔ k ∈ t.rows.map key ∨ k = key r := by
  by_cases h : key r ∈ t.rows.map key
  · have hkeys : (t.upsert r).rows.map key = t.rows.map key := by
      rw [rows_upsert_of_mem h, List.map_map]
      refine List.map_congr_left fun q _ => ?_
      by_cases hq : key q = key r <;> simp [hq]
    rw [hkeys]
    exact ⟨.inl, fun hk => hk.elim id fun hk => hk ▸ h⟩
  · rw [rows_upsert_of_notMem h, List.map_append, List.mem_append]
    exact or_congr_right List.mem_singleton

lemma mem_keys_foldl_upsert {t : Table key} {rs : List ρ} {k : κ} :
    k ∈ (rs.foldl upsert t).rows.map key ↔ k ∈ t.rows.map key ∨ k ∈ rs.map key := by
  induction rs generalizing t with
  | nil => simp
  | cons r rs ih => rw [List.foldl_cons, ih, mem_keys_upsert, List.map_cons, List.mem_cons, or_assoc]

lemma length_upsert_le (t : Table key) (r : ρ) :
    (t.upsert r).rows.length ≤ t.rows.length + 1 := by
  by_cases h : key r ∈ t.rows.map key
  · rw [rows_upsert_of_mem h, List.length_map]
    exact Nat.le_succ _
  · rw [rows_upsert_of_notMem h, List.length_append]
    exact Nat.le_refl _

/-! ### Membership after each operation -/

lemma mem_upsert_of_fresh {t : Table key} {r : ρ} (h : t.find? (key r) = none) {q : ρ} :
    q ∈ (t.upsert r).rows ↔ q = r ∨ q ∈ t.rows := by
  have hmem : key r ∉ t.rows.map key := fun hmem => by
    obtain ⟨p, hp, hpr⟩ := List.mem_map.mp hmem
    exact find?_eq_none.mp h p hp hpr
  rw [upsert, dif_neg hmem, List.mem_append, List.mem_singleton, or_comm]

lemma mem_modify {t : Table key} {p : ρ} (hp : p ∈ t.rows) {f : ρ → ρ}
    {hf : ∀ r, key r = key p → key (f r) = key p} {q : ρ} :
    q ∈ (t.modify (key p) f hf).rows ↔ q = f p ∨ q ∈ t.rows ∧ key q ≠ key p := by
  simp only [modify, List.mem_map]
  constructor
  · rintro ⟨r, hr, rfl⟩
    split_ifs with h
    · exact .inl (by rw [eq_of_key_eq hr hp h])
    · exact .inr ⟨hr, h⟩
  · rintro (rfl | ⟨hq, hne⟩)
    · exact ⟨p, hp, if_pos rfl⟩
    · exact ⟨q, hq, if_neg hne⟩

end Table

end CyberBrain
