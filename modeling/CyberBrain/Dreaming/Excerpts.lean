import CyberBrain.Dreaming.Relevance
import CyberBrain.Foundation.Lists

/-!
# What an excerpt shows

Selected windows never overlap, so an excerpt shows disjoint runs of lines in the order of the
text. Whatever the budget cuts off is cut off at the end of a run.
-/

namespace CyberBrain.Dreaming.Relevance

open Python

variable {py : Runtime} {re : CharClasses} {topic text : String} {options : ExcerptOptions}
  {lines : List (List Char)} {count maxChars : ℕ} {w prior : Window} {windows : List Window}

/-! ### Disjoint windows -/

lemma Window.Meets.symm (h : w.Meets prior) : prior.Meets w := fun hor => h hor.symm

/-- Windows inside `count` lines of which no two overlap. -/
structure Spread (count : ℕ) (windows : List Window) : Prop where
  inside : ∀ w ∈ windows, w.start < w.stop ∧ w.stop ≤ count
  apart : windows.Pairwise fun a b => ¬ a.Meets b

lemma spread_nil : Spread count [] := ⟨by simp, .nil⟩

lemma windowAt_inside (context : ℕ) {index : ℕ} (h : index < count) :
    (windowAt count context index).start < (windowAt count context index).stop ∧
      (windowAt count context index).stop ≤ count := by
  simp only [windowAt]
  omega

/-- A window that overlaps none of the others joins them. -/
lemma Spread.add (h : Spread count windows) (hw : w.start < w.stop ∧ w.stop ≤ count)
    (hapart : windows.any (w.Meets ·) = false) : Spread count (windows ++ [w]) where
  inside := by
    intro v hv
    rcases List.mem_append.mp hv with hv | hv
    · exact h.inside v hv
    · exact List.mem_singleton.mp hv ▸ hw
  apart := by
    refine List.pairwise_append.mpr ⟨h.apart, List.pairwise_singleton _ _, ?_⟩
    intro v hv u hu hmeets
    cases List.mem_singleton.mp hu
    simp only [List.any_eq_false, decide_eq_true_eq] at hapart
    exact hapart v hv hmeets.symm

/-- By position, each window ends before the next one starts. -/
lemma Spread.byPosition (h : Spread count windows) :
    (byPosition windows).Pairwise fun a b => a.stop ≤ b.start := by
  have hperm : (Relevance.byPosition windows).Perm windows := List.perm_insertionSort _ _
  have hsorted : (Relevance.byPosition windows).Pairwise
      fun a b => toLex (a.start, a.stop) ≤ toLex (b.start, b.stop) :=
    List.pairwise_insertionSort _ _
  have hapart : (Relevance.byPosition windows).Pairwise fun a b => ¬ a.Meets b :=
    (hperm.pairwise_iff fun hmeets h => hmeets h.symm).mpr h.apart
  refine ((hsorted.and hapart).imp_of_mem fun {a b} ha hb hab => ?_)
  obtain ⟨hle, hnot⟩ := hab
  have hb' := h.inside b (hperm.mem_iff.mp hb)
  have hstart : a.start ≤ b.start := by
    rcases Prod.Lex.toLex_le_toLex.mp hle with hlt | ⟨heq, -⟩
    · exact hlt.le
    · exact heq.le
  rcases not_not.mp hnot with hbefore | hafter
  · exact hbefore
  · omega

lemma selectWindows_spread {indices : List ℕ} (hindices : ∀ index ∈ indices, index < lines.length)
    (hselected : Spread lines.length windows) (hlength : windows.length < options.maxWindows) :
    Spread lines.length (selectWindows py re topic options lines indices windows) ∧
      (selectWindows py re topic options lines indices windows).length ≤ options.maxWindows := by
  induction indices generalizing windows with
  | nil => exact ⟨hselected, hlength.le⟩
  | cons index rest ih =>
    obtain ⟨hindex, hrest⟩ := List.forall_mem_cons.mp hindices
    rw [selectWindows]
    dsimp only
    split_ifs with hmeets hrelevant hfull
    · exact ih hrest hselected hlength
    all_goals
      have hadd := hselected.add (windowAt_inside options.contextLines hindex)
        (Bool.eq_false_of_not_eq_true hmeets)
    · exact ⟨hadd, by simpa using Nat.succ_le_of_lt hlength⟩
    · exact ⟨hadd, by simpa using Nat.succ_le_of_lt hlength⟩
    · exact ih hrest hadd (not_le.mp hfull)

lemma index_lt {item : ℕ × ℕ} (h : item ∈ rankedLines py re topic lines) :
    item.2 < lines.length := by
  obtain ⟨p, hp, rfl⟩ := List.mem_map.mp (List.mem_filter.mp h).1
  exact List.snd_lt_of_mem_zipIdx hp

lemma outcomeWindow_spread {ranked : List (ℕ × ℕ)}
    (hranked : ∀ item ∈ ranked, item.2 < lines.length)
    (hselected : Spread lines.length windows)
    (h : outcomeWindow py re topic options lines ranked windows = some w) :
    Spread lines.length (windows ++ [w]) := by
  have hmem := List.mem_of_find?_eq_some h
  have hfound := List.find?_some h
  rw [decide_eq_true_eq] at hfound
  obtain ⟨item, hitem, rfl⟩ := List.mem_map.mp hmem
  exact hselected.add (windowAt_inside _ (hranked item ((List.mem_insertionSort _).mp hitem)))
    (Bool.eq_false_of_not_eq_true hfound.2.1)

variable (py re topic) in
/-- The windows of an excerpt do not overlap, and there are not too many of them. -/
lemma excerptWindows_spread (hwindows : 1 ≤ options.maxWindows) {ranked : List (ℕ × ℕ)}
    (hranked : ∀ item ∈ ranked, item.2 < lines.length) :
    Spread lines.length (excerptWindows py re topic options lines ranked) ∧
      (excerptWindows py re topic options lines ranked).length ≤ options.maxWindows := by
  have hindices : ∀ index ∈ (byScore ranked).map (·.2), index < lines.length := by
    intro index hindex
    obtain ⟨item, hitem, rfl⟩ := List.mem_map.mp hindex
    exact hranked item ((List.mem_insertionSort _).mp hitem)
  have hselected : Spread lines.length (selectWindows py re topic options lines _ []) ∧
      (selectWindows py re topic options lines _ []).length ≤ options.maxWindows :=
    selectWindows_spread hindices spread_nil hwindows
  rw [excerptWindows]
  split_ifs with houtcome
  · cases hfound : outcomeWindow py re topic options lines ranked _ with
    | none   => simpa using hselected
    | some w =>
      refine ⟨outcomeWindow_spread hranked hselected.1 hfound, ?_⟩
      simpa using Nat.succ_le_of_lt houtcome.2.2
  · exact hselected

/-! ### Parts -/

/-- A part is the text of a window, or a beginning of it. -/
def CutOf (lines : List (List Char)) (w : Window) (part : List Char) : Prop :=
  part ≠ [] ∧ part <+: windowText lines w

lemma intercalate_concat (separator part : List Char) (parts : List (List Char)) :
    separator.intercalate (parts ++ [part]) =
      if parts = [] then part else separator.intercalate parts ++ separator ++ part := by
  induction parts with
  | nil               => simp
  | cons first parts ih =>
    cases parts with
    | nil               => simp
    | cons second parts => simp_all

/-- What is put together keeps to the budget and shows windows in their order. -/
lemma assembleParts_spec {parts : List (List Char)} {used : ℕ}
    (hused : (windowSeparator.intercalate parts).length = used) (hbudget : used ≤ maxChars) :
    ∃ shown added, shown.Sublist windows ∧ List.Forall₂ (CutOf lines) shown added ∧
      assembleParts lines maxChars windows parts used = parts ++ added ∧
      (windowSeparator.intercalate (parts ++ added)).length ≤ maxChars := by
  induction windows generalizing parts used with
  | nil => exact ⟨[], [], .slnil, .nil, by simp [assembleParts], by simp [hused, hbudget]⟩
  | cons w rest ih =>
    rw [assembleParts]
    dsimp only
    have hcut : ∀ remaining, (if remaining < (windowText lines w).length then
        ((windowText lines w).take remaining).rdropWhile isSpace else windowText lines w) <+:
          windowText lines w := by
      intro remaining
      split_ifs
      · exact (List.rdropWhile_prefix isSpace _).trans (List.take_prefix _ _)
      · exact List.prefix_rfl
    have hshort : ∀ remaining, (if remaining < (windowText lines w).length then
        ((windowText lines w).take remaining).rdropWhile isSpace
          else windowText lines w).length ≤ remaining := by
      intro remaining
      split_ifs with hlong
      · exact (List.rdropWhile_prefix isSpace _).length_le.trans (List.length_take_le _ _)
      · exact not_lt.mp hlong
    generalize hgap : (if parts = [] then 0 else windowSeparator.length) = gap
    generalize hpart : (if maxChars - used - gap < (windowText lines w).length then
      ((windowText lines w).take (maxChars - used - gap)).rdropWhile isSpace
        else windowText lines w) = part
    have hbegins := hpart ▸ hcut (maxChars - used - gap)
    have hlength := hpart ▸ hshort (maxChars - used - gap)
    split_ifs with hstop hpartNe
    · exact ⟨[], [], List.nil_sublist _, .nil, by simp, by simp [hused, hbudget]⟩
    · have hused' : (windowSeparator.intercalate (parts ++ [part])).length =
          used + gap + part.length := by
        rw [intercalate_concat]
        split_ifs with hparts
        · subst hparts
          simp only [List.intercalate_nil, List.length_nil] at hused
          rw [← hgap, if_pos rfl]
          omega
        · rw [← hgap, if_neg hparts]
          simp only [List.length_append, hused]
      obtain ⟨shown, added, hsub, hall, heq, hbound⟩ := ih hused' (by omega)
      refine ⟨w :: shown, part :: added, hsub.cons_cons w, .cons ⟨hpartNe, hbegins⟩ hall, ?_, ?_⟩
      · rw [heq, List.append_assoc, List.singleton_append]
      · rwa [List.append_assoc, List.singleton_append] at hbound
    · obtain ⟨shown, added, hsub, hall, heq, hbound⟩ := ih hused hbudget
      exact ⟨shown, added, hsub.cons w, hall, heq, hbound⟩

/-! ### Excerpts -/

/-- A text shows at most `count` disjoint runs of the lines of another text, in their order and
each possibly cut at its end. -/
def ShowsRuns (text excerpt : String) (count : ℕ) : Prop :=
  ∃ windows parts, windows.length ≤ count ∧
    windows.Pairwise (fun a b => a.stop ≤ b.start) ∧
    (∀ w ∈ windows, w.start < w.stop ∧ w.stop ≤ (contentLines text.toList).length) ∧
    List.Forall₂ (CutOf (contentLines text.toList)) windows parts ∧
    excerpt.toList = windowSeparator.intercalate parts

/-- Windows that are far enough apart are shown as runs, as far as the budget goes. -/
lemma showsRuns (maxChars : ℕ) (hspread : Spread (contentLines text.toList).length windows)
    (hcount : windows.length ≤ options.maxWindows) :
    let parts := assembleParts (contentLines text.toList) maxChars (byPosition windows) [] 0
    (String.ofList (windowSeparator.intercalate parts)).length ≤ maxChars ∧
      ShowsRuns text (String.ofList (windowSeparator.intercalate parts)) options.maxWindows := by
  intro parts
  obtain ⟨shown, added, hsub, hall, heq, hbound⟩ :=
    @assembleParts_spec (contentLines text.toList) maxChars (byPosition windows) [] 0 (by simp)
      (Nat.zero_le _)
  have hparts : parts = added := heq
  have hperm : (byPosition windows).Perm windows := List.perm_insertionSort _ _
  refine ⟨by rw [hparts, String.length_ofList]; exact hbound, shown, added, ?_,
    hspread.byPosition.sublist hsub, fun w hw => ?_, hall, by rw [hparts, String.toList_ofList]⟩
  case refine_2 => exact hspread.inside w (hperm.mem_iff.mp (hsub.subset hw))
  exact (hsub.length_le.trans hperm.length_eq.le).trans hcount

/-- A text that fits is shown whole, without the blanks around it. Of another text an excerpt shows
runs of lines. An excerpt is relevant and keeps to the budget. -/
theorem topicExcerpt_spec (hwindows : 1 ≤ options.maxWindows) :
    (strip text ≠ "" → (strip text).length ≤ options.maxChars →
      textRelevant py re topic (strip text) →
        topicExcerpt py re topic options text = some (strip text)) ∧
    ∀ excerpt, topicExcerpt py re topic options text = some excerpt →
      excerpt.length ≤ options.maxChars ∧ textRelevant py re topic excerpt ∧
        (options.maxChars < (strip text).length → ShowsRuns text excerpt options.maxWindows) := by
  constructor
  · intro hne hfits hrelevant
    simp [topicExcerpt, hne, hfits, hrelevant]
  · intro excerpt h
    rw [topicExcerpt] at h
    dsimp only at h
    split_ifs at h with hblank hfits hrelevant hnone hempty
    · cases h
      exact ⟨hfits, hrelevant, fun hlong => absurd hfits (not_le.mpr hlong)⟩
    · have hvalue : contentLines (strip text).toList = contentLines text.toList := by
        rw [strip, String.toList_ofList, contentLines_stripChars]
      rw [hvalue] at h hempty
      obtain ⟨hspread, hcount⟩ := excerptWindows_spread py re topic hwindows fun item hitem =>
        index_lt hitem
      obtain ⟨hbudget, hruns⟩ := showsRuns options.maxChars hspread hcount
      cases h
      exact ⟨hbudget, not_not.mp (not_or.mp hempty).2, fun _ => hruns⟩

/-- The line of a topic is shown, the others are not. -/
theorem topicExcerpt_spec_alpha :
    topicExcerpt .ascii .ascii "alpha" { maxChars := 12, contextLines := 0, maxWindows := 2 }
        "alpha one\nbeta two\ngamma" = some "alpha one" ∧
      ShowsRuns "alpha one\nbeta two\ngamma" "alpha one" 2 := by
  have hexcerpt : topicExcerpt .ascii .ascii "alpha"
      { maxChars := 12, contextLines := 0, maxWindows := 2 } "alpha one\nbeta two\ngamma" =
        some "alpha one" := by decide +kernel
  refine ⟨hexcerpt, ?_⟩
  exact ((topicExcerpt_spec (by decide)).2 _ hexcerpt).2.2 (by decide +kernel)

lemma mem_intercalate {separator : List Char} {parts : List (List Char)} {c : Char}
    (h : c ∈ separator.intercalate parts) : c ∈ separator ∨ ∃ part ∈ parts, c ∈ part := by
  induction parts with
  | nil => simp at h
  | cons first parts ih =>
    cases parts with
    | nil => exact .inr ⟨first, List.mem_cons_self, by simpa using h⟩
    | cons second parts =>
      rw [List.intercalate_cons_cons, List.append_assoc, List.mem_append, List.mem_append] at h
      rcases h with h | h | h
      · exact .inr ⟨first, List.mem_cons_self, h⟩
      · exact .inl h
      · exact (ih h).imp_right fun ⟨part, hpart, hc⟩ => ⟨part, List.mem_cons_of_mem _ hpart, hc⟩

/-- A short text is shown with its indentation, which none of its lines has; and a blank text is
not shown although it is relevant. -/
theorem indented_shown_whole :
    (topicExcerpt .ascii .ascii "" {} "a\n  b" = some "a\n  b" ∧
      ¬ ShowsRuns "a\n  b" "a\n  b" 4) ∧
    textRelevant .ascii .ascii "" " " ∧ topicExcerpt .ascii .ascii "" {} " " = none := by
  refine ⟨⟨by decide +kernel, ?_⟩, by decide +kernel, by decide +kernel⟩
  rintro ⟨windows, parts, -, -, -, hall, htext⟩
  have hlines : contentLines "a\n  b".toList = [['a'], ['b']] := by decide +kernel
  rw [hlines] at hall
  have hblank : ' ' ∈ windowSeparator.intercalate parts := htext ▸ by decide
  rcases mem_intercalate hblank with hgap | ⟨part, hpart, hin⟩
  · exact absurd hgap (by decide)
  · obtain ⟨w, -, -, hbegins⟩ := exists_of_forall₂ hall hpart
    rcases mem_intercalate (hbegins.subset hin) with hbreak | ⟨line, hline, hin⟩
    · exact absurd hbreak (by decide)
    · have hshown := List.mem_of_mem_take (List.mem_of_mem_drop hline)
      have hnone : ∀ line ∈ [['a'], ['b']], ' ' ∉ line := by decide
      exact hnone line hshown hin

end CyberBrain.Dreaming.Relevance
