import Mathlib.Data.List.Sort
import Mathlib.Order.Basic

/-!
# Reading an ordered list in pages

The rows after a key of a list ordered by key, and what a reader sees who asks for one page after
the other, each after the last row of the page before, until a page is empty.
-/

namespace CyberBrain.Paging

/-! ### Rows after a key -/

section Keys

variable {α κ : Type*} [LinearOrder κ] {key : α → κ}

/-- A row comes after a key, if there is one. -/
def isAfter (key : α → κ) (k : Option κ) (a : α) : Bool := k.all (· < key a)

@[simp] lemma isAfter_none (a : α) : isAfter key none a = true := rfl

@[simp] lemma isAfter_some {k : κ} {a : α} : isAfter key (some k) a = true ↔ k < key a := by
  simp [isAfter]

/-- After the key of a row come the rows behind it. -/
lemma filter_isAfter {done rest : List α} (h : (done ++ rest).Pairwise fun a b => key a < key b) :
    (done ++ rest).filter (isAfter key (done.getLast?.map key)) = rest := by
  rcases List.eq_nil_or_concat done with rfl | ⟨done, a, rfl⟩
  · simp
  · rw [List.concat_eq_append, List.append_assoc, List.singleton_append, List.pairwise_append, List.pairwise_cons] at h
    obtain ⟨-, ⟨hrest, -⟩, hdone⟩ := h
    have hbefore : done.filter (isAfter key (some (key a))) = [] := by
      rw [List.filter_eq_nil_iff]
      intro b hb hafter
      exact lt_asymm (hdone b hb a List.mem_cons_self) (isAfter_some.mp hafter)
    have hself : isAfter key (some (key a)) a = false := by simp [isAfter]
    have hafter : rest.filter (isAfter key (some (key a))) = rest := by
      rw [List.filter_eq_self]
      intro b hb
      exact isAfter_some.mpr (hrest b hb)
    rw [List.concat_eq_append, List.getLast?_concat, Option.map_some, List.append_assoc,
      List.singleton_append, List.filter_append, hbefore, List.nil_append, List.filter_cons, if_neg (by simp [hself]),
      hafter]

/-- Rows ordered by key. -/
def sortRows (key : α → κ) (l : List α) : List α := l.insertionSort fun a b => key a ≤ key b

lemma sortRows_perm (key : α → κ) (l : List α) : (sortRows key l).Perm l :=
  List.perm_insertionSort _ l

/-- Rows with different keys are put into strict order. -/
lemma pairwise_sortRows {l : List α} (hnodup : (l.map key).Nodup) :
    (sortRows key l).Pairwise fun a b => key a < key b := by
  have hle : (sortRows key l).Pairwise fun a b => key a ≤ key b :=
    List.pairwise_insertionSort (fun a b => key a ≤ key b) l
  have hne : (sortRows key l).Pairwise fun a b => key a ≠ key b :=
    List.pairwise_map.mp (((sortRows_perm key l).map key).nodup_iff.mpr hnodup)
  exact (hle.and hne).imp fun h => lt_of_le_of_ne h.1 h.2

/-- Rows may be left out before or after they are ordered. -/
lemma sortRows_filter {l : List α} (hnodup : (l.map key).Nodup) (p : α → Bool) :
    sortRows key (l.filter p) = (sortRows key l).filter p := by
  have hsub : ((l.filter p).map key).Nodup := hnodup.sublist (List.filter_sublist.map key)
  refine List.Perm.eq_of_pairwise (fun a b _ _ hab hba => absurd hab (lt_asymm hba))
    (pairwise_sortRows hsub) ((pairwise_sortRows hnodup).filter p) ?_
  exact (sortRows_perm key _).trans ((sortRows_perm key l).filter p).symm

end Keys

/-! ### One page after the other -/

section Pages

variable {β γ ε : Type*} (page : ℤ → Option γ → Except ε (List β)) (cursor : β → γ)

/-- The pages that a reader sees, with the given limits, from a cursor on. -/
inductive Pages : (ℕ → ℤ) → Option γ → List (List β) → Prop
  | last {limits : ℕ → ℤ} {c : Option γ} (h : page (limits 0) c = .ok []) : Pages limits c []
  | more {limits : ℕ → ℤ} {c : Option γ} {l : List β} {b : β} {pages : List (List β)}
      (h : page (limits 0) c = .ok (l ++ [b]))
      (hmore : Pages (fun n => limits (n + 1)) (some (cursor b)) pages) :
      Pages limits c ((l ++ [b]) :: pages)

variable {page cursor}

/-- There is one way to read on. -/
lemma Pages.unique {limits : ℕ → ℤ} {c : Option γ} {pages pages' : List (List β)}
    (h : Pages page cursor limits c pages) (h' : Pages page cursor limits c pages') :
    pages = pages' := by
  induction h generalizing pages' with
  | last hpage =>
    cases h' with
    | last => rfl
    | more hpage' =>
      rw [hpage] at hpage'
      simp at hpage'
  | more hpage _ ih =>
    cases h' with
    | last hpage' =>
      rw [hpage] at hpage'
      simp at hpage'
    | more hpage' hmore' =>
      rw [hpage, Except.ok.injEq] at hpage'
      obtain ⟨rfl, hb⟩ := List.append_inj' hpage' rfl
      cases hb
      rw [ih hmore']

/-- What holds of the rows of each page holds of all rows that a reader sees. -/
lemma Pages.forall_mem {P : β → Prop} (hpage : ∀ n c l, page n c = .ok l → ∀ b ∈ l, P b)
    {limits : ℕ → ℤ} {c : Option γ} {pages : List (List β)} (h : Pages page cursor limits c pages) :
    ∀ b ∈ pages.flatten, P b := by
  induction h with
  | last => simp
  | more h _ ih =>
    intro b hb
    rcases List.mem_append.mp hb with hb | hb
    · exact hpage _ _ _ h b hb
    · exact ih b hb

/-- A reader sees every row once, in order, where each page continues behind the last row of the
page before. -/
theorem exists_pages {valid : ℤ → Prop} {rows : List β} (hvalid : ∀ n, valid n → 0 < n)
    (hpage : ∀ n, valid n → ∀ done rest, done ++ rest = rows →
      page n (done.getLast?.map cursor) = .ok (rest.take n.toNat))
    (limits : ℕ → ℤ) (hlimits : ∀ i, valid (limits i)) :
    ∃ pages, Pages page cursor limits none pages ∧ pages.flatten = rows := by
  have hrun : ∀ length (limits : ℕ → ℤ) done rest, (∀ i, valid (limits i)) →
      done ++ rest = rows → rest.length = length →
      ∃ pages, Pages page cursor limits (done.getLast?.map cursor) pages ∧
        pages.flatten = rest := by
    intro length
    induction length using Nat.strongRecOn with
    | ind length ih =>
      intro limits done rest hlimits hrows hlength
      have hstep := hpage (limits 0) (hlimits 0) done rest hrows
      rcases List.eq_nil_or_concat rest with rfl | ⟨init, last, hrest⟩
      · exact ⟨[], .last (by rw [hstep, List.take_nil]), rfl⟩
      · have hpos : 0 < (limits 0).toNat := by
          have := hvalid (limits 0) (hlimits 0)
          omega
        have hne : rest.take (limits 0).toNat ≠ [] := by
          rw [Ne, List.take_eq_nil_iff, hrest]
          simp [hpos.ne']
        obtain ⟨l, b, hlast⟩ := (List.eq_nil_or_concat _).resolve_left hne
        rw [List.concat_eq_append] at hlast
        -- the next page starts behind the last row of this one
        have hnext : (done ++ rest.take (limits 0).toNat).getLast? = some b := by
          rw [hlast, ← List.append_assoc, List.getLast?_concat]
        have hshorter : (rest.drop (limits 0).toNat).length < length := by
          have hlen : 0 < rest.length := by
            rw [hrest]
            simp
          rw [List.length_drop]
          omega
        obtain ⟨pages, hpages, hflatten⟩ := ih _ hshorter (fun n => limits (n + 1))
          (done ++ rest.take (limits 0).toNat) (rest.drop (limits 0).toNat)
          (fun i => hlimits (i + 1)) (by rw [List.append_assoc, List.take_append_drop, hrows]) rfl
        rw [hnext, Option.map_some] at hpages
        refine ⟨(l ++ [b]) :: pages, .more (by rw [hstep, hlast]) hpages, ?_⟩
        rw [List.flatten_cons, hflatten, ← hlast, List.take_append_drop]
  exact hrun _ limits [] rows hlimits rfl rfl

end Pages

end CyberBrain.Paging
