import CyberBrain.Foundation.Except
import Mathlib.Data.List.Nodup
import Mathlib.Data.List.Perm.Basic
import Mathlib.Data.List.Sort

/-!
# Lists

When a map over a list succeeds, what holds of two lists that are related element by element, and
the first occurrences of the elements of a list, as `dict.fromkeys` keeps them.
-/

namespace CyberBrain

lemma mapM_eq_ok_iff_forall₂ {ε α β : Type*} {f : α → Except ε β} {l : List α} {bs : List β} :
    l.mapM f = .ok bs ↔ List.Forall₂ (fun a b => f a = .ok b) l bs := by
  refine ⟨forall₂_of_mapM, fun h => ?_⟩
  induction h with
  | nil => rfl
  | cons hab _ ih =>
    rw [List.mapM_cons, hab, ih]
    rfl

/-- A map over the elements in another order gives the results in another order. -/
lemma mapM_perm {ε α β : Type*} {f : α → Except ε β} {l m : List α} (hperm : l.Perm m)
    {bs : List β} (h : l.mapM f = .ok bs) : ∃ cs, m.mapM f = .ok cs ∧ bs.Perm cs := by
  rw [mapM_eq_ok_iff_forall₂] at h
  obtain ⟨cs, hcs, hcomp⟩ := List.perm_comp_forall₂ hperm.symm h
  exact ⟨cs, mapM_eq_ok_iff_forall₂.mpr hcs, hcomp.symm⟩

/-- Two maps one after the other succeed when they succeed element by element. -/
lemma mapM_mapM {ε : Type*} {α β γ : Type} {f : α → Except ε β} {g : β → Except ε γ}
    {l : List α} {cs : List γ} :
    (∃ bs, l.mapM f = .ok bs ∧ bs.mapM g = .ok cs) ↔ l.mapM (fun a => f a >>= g) = .ok cs := by
  simp only [mapM_eq_ok_iff_forall₂, bind_eq_ok]
  constructor
  · rintro ⟨bs, hf, hg⟩
    induction hf generalizing cs with
    | nil =>
      cases hg
      exact .nil
    | cons hab _ ih =>
      cases hg with
      | cons hbc hg => exact .cons ⟨_, hab, hbc⟩ (ih hg)
  · intro h
    induction h with
    | nil => exact ⟨[], .nil, .nil⟩
    | cons hac _ ih =>
      obtain ⟨b, hab, hbc⟩ := hac
      obtain ⟨bs, hf, hg⟩ := ih
      exact ⟨b :: bs, .cons hab hf, .cons hbc hg⟩

/-- A map succeeds when it succeeds on every element. -/
lemma exists_mapM {ε α β : Type*} {f : α → Except ε β} {l : List α} :
    (∃ bs, l.mapM f = .ok bs) ↔ ∀ a ∈ l, ∃ b, f a = .ok b := by
  constructor
  · rintro ⟨bs, h⟩ a ha
    obtain ⟨b, -, hb⟩ := ok_of_mapM h ha
    exact ⟨b, hb⟩
  · intro h
    induction l with
    | nil => exact ⟨[], rfl⟩
    | cons a l ih =>
      obtain ⟨b, hb⟩ := h a List.mem_cons_self
      obtain ⟨bs, hbs⟩ := ih fun c hc => h c (List.mem_cons_of_mem a hc)
      exact ⟨b :: bs, by rw [List.mapM_cons, hb, hbs]; rfl⟩

/-- A map that gives nothing for some elements: what it gives stands for the other elements. -/
lemma exists_mapM_option {ε α β : Type*} {f : α → Except ε (Option β)}
    {p : α → Prop} [DecidablePred p] {g : β → α} {Q : β → Prop} {l : List α}
    (h : ∀ a ∈ l, (p a ∧ ∃ b, f a = .ok (some b) ∧ g b = a ∧ Q b) ∨ (¬ p a ∧ f a = .ok none)) :
    ∃ found, l.mapM f = .ok found ∧ (found.filterMap id).map g = l.filter p ∧
      ∀ b ∈ found.filterMap id, Q b := by
  induction l with
  | nil => exact ⟨[], rfl, rfl, by simp⟩
  | cons a l ih =>
    obtain ⟨ha, hrest⟩ := List.forall_mem_cons.mp h
    obtain ⟨found, hfound, hmap, hQ⟩ := ih hrest
    rcases ha with ⟨hp, b, hb, hg, hQb⟩ | ⟨hp, hnone⟩
    · refine ⟨some b :: found, by rw [List.mapM_cons, hb, hfound]; rfl, ?_, ?_⟩
      · rw [List.filterMap_cons_some (f := id) rfl, List.map_cons, hmap, hg,
          List.filter_cons_of_pos (by simpa using hp)]
      · rw [List.filterMap_cons_some (f := id) rfl]
        exact List.forall_mem_cons.mpr ⟨hQb, hQ⟩
    · refine ⟨none :: found, by rw [List.mapM_cons, hnone, hfound]; rfl, ?_, ?_⟩
      · rw [List.filterMap_cons_none (f := id) rfl, hmap, List.filter_cons_of_neg (by simpa using hp)]
      · rwa [List.filterMap_cons_none (f := id) rfl]

/-- Lists are sorted alike when they have the same elements, equally often. -/
lemma insertionSort_eq_iff_perm {α : Type*} [LinearOrder α] {l m : List α} :
    l.insertionSort (· ≤ ·) = m.insertionSort (· ≤ ·) ↔ l.Perm m := by
  constructor
  · intro h
    exact (List.perm_insertionSort (· ≤ ·) l).symm.trans
      (h ▸ List.perm_insertionSort (· ≤ ·) m)
  · intro h
    exact List.Perm.eq_of_pairwise (fun _ _ _ _ => le_antisymm)
      (List.pairwise_insertionSort _ _) (List.pairwise_insertionSort _ _)
      (((List.perm_insertionSort _ _).trans h).trans (List.perm_insertionSort _ _).symm)

/-- What stands before the first occurrence of an element, and what follows it, are known. -/
lemma append_cons_inj {α : Type*} {c : α} {a b s t : List α} (ha : c ∉ a) (hb : c ∉ b)
    (h : a ++ c :: s = b ++ c :: t) : a = b ∧ s = t := by
  induction a generalizing b with
  | nil         =>
    cases b with
    | nil       => exact ⟨rfl, (List.cons.inj h).2⟩
    | cons d b  => exact absurd (List.mem_cons.mpr (.inl (List.cons.inj h).1)) hb
  | cons d a ih =>
    cases b with
    | nil       => exact absurd (List.mem_cons.mpr (.inl (List.cons.inj h).1.symm)) ha
    | cons e b  =>
      obtain ⟨rfl, htail⟩ := List.cons.inj h
      obtain ⟨rfl, hst⟩ := ih (fun hc => ha (List.mem_cons_of_mem _ hc))
        (fun hc => hb (List.mem_cons_of_mem _ hc)) htail
      exact ⟨rfl, hst⟩

/-- What a cut leaves of a list without repetitions is what it does not keep. -/
lemma mem_drop_iff {α : Type*} {l : List α} {n : ℕ} (hnodup : l.Nodup) {a : α} :
    a ∈ l.drop n ↔ a ∈ l ∧ a ∉ l.take n := by
  have hsplit : a ∈ l ↔ a ∈ l.take n ∨ a ∈ l.drop n := by
    rw [← List.mem_append, List.take_append_drop]
  have hdisjoint := List.disjoint_take_drop hnodup (le_refl n)
  constructor
  · intro ha
    exact ⟨hsplit.mpr (.inr ha), fun htake => hdisjoint htake ha⟩
  · rintro ⟨ha, hnot⟩
    exact (hsplit.mp ha).resolve_left hnot

/-- A map that tells the elements of two lists apart tells the lists apart. -/
lemma eq_of_map_eq {α β : Type*} {f : α → β} {l m : List α}
    (hinj : ∀ a ∈ l, ∀ b ∈ m, f a = f b → a = b) (h : l.map f = m.map f) : l = m := by
  induction l generalizing m with
  | nil         => exact (List.map_eq_nil_iff.mp h.symm).symm
  | cons a l ih =>
    cases m with
    | nil       => cases h
    | cons b m  =>
      obtain ⟨hab, hlm⟩ := List.cons.inj h
      rw [hinj a (List.mem_cons_self ..) b (List.mem_cons_self ..) hab,
        ih (fun c hc d hd => hinj c (List.mem_cons_of_mem a hc) d (List.mem_cons_of_mem b hd)) hlm]

section Related

variable {α β : Type*} {R : α → β → Prop} {l : List α} {m : List β}

lemma exists_of_forall₂ (h : List.Forall₂ R l m) {b : β} (hb : b ∈ m) : ∃ a ∈ l, R a b := by
  induction h with
  | nil => cases hb
  | cons hab _ ih =>
    rcases List.mem_cons.mp hb with rfl | hb
    · exact ⟨_, List.mem_cons_self, hab⟩
    · obtain ⟨a, ha, hr⟩ := ih hb
      exact ⟨a, List.mem_cons_of_mem _ ha, hr⟩

/-- An order of the elements carries over to the elements they are related to. -/
lemma pairwise_of_forall₂ {S : α → α → Prop} {T : β → β → Prop} (h : List.Forall₂ R l m)
    (hl : l.Pairwise S)
    (hT : ∀ a ∈ l, ∀ a' ∈ l, ∀ b b', R a b → R a' b' → S a a' → T b b') : m.Pairwise T := by
  induction h with
  | nil => exact .nil
  | @cons a b l m hab hrest ih =>
    rw [List.pairwise_cons] at hl ⊢
    constructor
    · intro b' hb'
      obtain ⟨a', ha', hr⟩ := exists_of_forall₂ hrest hb'
      exact hT a List.mem_cons_self a' (List.mem_cons_of_mem a ha') b b' hab hr (hl.1 a' ha')
    · exact ih hl.2 fun a ha a' ha' =>
        hT a (List.mem_cons_of_mem _ ha) a' (List.mem_cons_of_mem _ ha')

end Related

variable {α : Type*} [BEq α]

lemma eraseDups_eq_nil {l : List α} : l.eraseDups = [] ↔ l = [] := by
  cases l with
  | nil => simp
  | cons a l => simp [List.eraseDups_cons]

variable [LawfulBEq α]

lemma nodup_eraseDups (l : List α) : l.eraseDups.Nodup := by
  match l with
  | [] => exact List.nodup_nil
  | a :: l =>
    rw [List.eraseDups_cons]
    refine List.nodup_cons.mpr ⟨?_, nodup_eraseDups _⟩
    rw [List.mem_eraseDups, List.mem_filter]
    simp
termination_by l.length
decreasing_by exact Nat.lt_succ_of_le (List.length_filter_le _ _)

lemma eraseDups_of_nodup {l : List α} (h : l.Nodup) : l.eraseDups = l := by
  induction l with
  | nil => rfl
  | cons a l ih =>
    obtain ⟨ha, hl⟩ := List.nodup_cons.mp h
    have hother : l.filter (fun b => !b == a) = l := by
      rw [List.filter_eq_self]
      intro b hb
      simpa using ne_of_mem_of_not_mem hb ha
    rw [List.eraseDups_cons, hother, ih hl]

end CyberBrain
