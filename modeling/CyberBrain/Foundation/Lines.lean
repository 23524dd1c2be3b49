import CyberBrain.Foundation.Python

/-!
# Lines

`str.splitlines`, and the lines of a text that say something.
-/

namespace CyberBrain.Python

/-- A character at which `str.splitlines` ends a line. -/
def isLineBreak (c : Char) : Bool :=
  let n := c.toNat
  (10 ≤ n && n ≤ 13) || (28 ≤ n && n ≤ 30) || n = 0x85 || n = 0x2028 || n = 0x2029

/-- `str.splitlines` on the characters of a text. -/
def splitLines : List Char → List (List Char)
  | []                 => []
  | '\r' :: '\n' :: cs => [] :: splitLines cs
  | c :: cs            =>
    if isLineBreak c then [] :: splitLines cs
    else
      match splitLines cs with
      | []            => [[c]]
      | line :: lines => (c :: line) :: lines

/-- The lines of a text that are not blank, stripped. -/
def contentLines (text : List Char) : List (List Char) :=
  ((splitLines text).map stripChars).filter (· ≠ [])

lemma forall_mem_of_all {cs : List Char} {p : Char → Prop} [DecidablePred p]
    (h : (cs.all fun c => p c) = true) : ∀ c ∈ cs, p c := by simpa using h

/-! ### Blanks at the ends -/

/-- Blanks at the end of a text are stripped with the others. -/
lemma stripChars_append {cs v : List Char} (hv : ∀ c ∈ v, isSpace c) :
    stripChars (cs ++ v) = stripChars cs := by
  have hdrop : v.dropWhile isSpace = [] := List.dropWhile_eq_nil_iff.mpr hv
  have hend : ∀ a : List Char, (a ++ v).rdropWhile isSpace = a.rdropWhile isSpace := by
    intro a
    rw [List.rdropWhile, List.rdropWhile, List.reverse_append,
      List.dropWhile_append_of_pos fun c hc => hv c (List.mem_reverse.mp hc)]
  rw [stripChars, stripChars, List.dropWhile_append]
  split_ifs with hempty
  · rw [hdrop, List.isEmpty_iff.mp hempty]
  · exact hend _

lemma stripChars_cons {c : Char} (hc : isSpace c) (cs : List Char) :
    stripChars (c :: cs) = stripChars cs := by
  rw [stripChars, stripChars, List.dropWhile_cons_of_pos hc]

lemma stripChars_blank {v : List Char} (hv : ∀ c ∈ v, isSpace c) : stripChars v = [] :=
  @stripChars_append [] v hv

lemma mem_splitLines {cs line : List Char} {c : Char} (hline : line ∈ splitLines cs)
    (hc : c ∈ line) : c ∈ cs := by
  induction cs using splitLines.induct generalizing line with
  | case1 => cases hline
  | case2 cs ih =>
    rw [splitLines] at hline
    rcases List.mem_cons.mp hline with rfl | hline
    · cases hc
    · exact List.mem_cons_of_mem _ (List.mem_cons_of_mem _ (ih hline hc))
  | case3 d cs hne hbreak ih =>
    rw [splitLines, if_pos hbreak] at hline
    · rcases List.mem_cons.mp hline with rfl | hline
      · cases hc
      · exact List.mem_cons_of_mem _ (ih hline hc)
    · exact hne
  | case4 d cs hne hbreak hnil ih =>
    rw [splitLines, if_neg hbreak, hnil] at hline
    · cases List.mem_singleton.mp hline
      exact List.mem_singleton.mp hc ▸ List.mem_cons_self
    · exact hne
  | case5 d cs hne hbreak first lines hlines ih =>
    rw [splitLines, if_neg hbreak, hlines] at hline
    · rcases List.mem_cons.mp hline with rfl | hline
      · rcases List.mem_cons.mp hc with rfl | hc
        · exact List.mem_cons_self
        · exact List.mem_cons_of_mem _ (ih (hlines ▸ List.mem_cons_self) hc)
      · exact List.mem_cons_of_mem _ (ih (hlines ▸ List.mem_cons_of_mem _ hline) hc)
    · exact hne

/-- Lines that only differ by blanks at their ends and by blank lines at the end. -/
inductive SameLines : List (List Char) → List (List Char) → Prop where
  | blank {lines : List (List Char)} (h : ∀ line ∈ lines, ∀ c ∈ line, isSpace c) :
      SameLines [] lines
  | line {line v : List Char} {lines lines' : List (List Char)} (hv : ∀ c ∈ v, isSpace c)
      (h : SameLines lines lines') : SameLines (line :: lines) ((line ++ v) :: lines')

lemma SameLines.contents {lines lines' : List (List Char)} (h : SameLines lines lines') :
    (lines'.map stripChars).filter (· ≠ []) = (lines.map stripChars).filter (· ≠ []) := by
  induction h with
  | @blank lines h =>
    rw [List.filter_eq_nil_iff.mpr fun line hline => ?_]
    · rfl
    · obtain ⟨raw, hraw, rfl⟩ := List.mem_map.mp hline
      simpa using stripChars_blank (h raw hraw)
  | line hv _ ih =>
    simp only [List.map_cons, stripChars_append hv, List.filter_cons]
    rw [ih]

lemma isSpace_of_isLineBreak {c : Char} (h : isLineBreak c) : isSpace c := by
  simp only [isLineBreak, isSpace, Bool.or_eq_true, Bool.and_eq_true, decide_eq_true_eq] at h ⊢
  omega

/-- A line that ends at once. -/
lemma splitLines_break {c : Char} (hbreak : isLineBreak c) (cs : List Char) :
    ∃ lines, splitLines (c :: cs) = [] :: lines ∧
      ((c = '\r' → ∀ rest, cs ≠ '\n' :: rest) → lines = splitLines cs) := by
  by_cases hpair : c = '\r' ∧ ∃ rest, cs = '\n' :: rest
  · obtain ⟨rfl, rest, rfl⟩ := hpair
    exact ⟨splitLines rest, rfl, fun h => absurd rfl (h rfl rest)⟩
  · refine ⟨splitLines cs, ?_, fun _ => rfl⟩
    rw [splitLines, if_pos hbreak]
    rintro rest rfl rfl
    exact hpair ⟨rfl, rest, rfl⟩

/-- A character of a line. -/
lemma splitLines_cons {c : Char} (hbreak : isLineBreak c = false) (cs : List Char) :
    splitLines (c :: cs) =
      match splitLines cs with
      | []            => [[c]]
      | line :: lines => (c :: line) :: lines := by
  rw [splitLines, if_neg (by simp [hbreak])]
  rintro rest rfl rfl
  cases hbreak

/-- Blanks after a text are at the ends of its last line and of blank lines. -/
lemma splitLines_append {v : List Char} (hv : ∀ c ∈ v, isSpace c) (cs : List Char) :
    SameLines (splitLines cs) (splitLines (cs ++ v)) := by
  have hblank : ∀ w : List Char, (∀ c ∈ w, isSpace c) →
      ∀ line ∈ splitLines w, ∀ c ∈ line, isSpace c :=
    fun w hw line hline c hc => hw c (mem_splitLines hline hc)
  induction cs using splitLines.induct with
  | case1 => exact .blank (hblank v hv)
  | case2 cs ih =>
    rw [splitLines, List.cons_append, List.cons_append, splitLines]
    exact @SameLines.line [] [] _ _ (by simp) ih
  | case3 d cs hne hbreak ih =>
    cases cs with
    | nil =>
      obtain ⟨lines, hlines, -⟩ := splitLines_break hbreak v
      have hspaces : ∀ c ∈ d :: v, isSpace c :=
        List.forall_mem_cons.mpr ⟨isSpace_of_isLineBreak hbreak, hv⟩
      have hrest := (List.forall_mem_cons.mp (hlines ▸ hblank _ hspaces)).2
      obtain ⟨lines', hlines', hnil⟩ := splitLines_break hbreak []
      rw [hlines', hnil (by simp), List.cons_append, List.nil_append, hlines]
      exact @SameLines.line [] [] _ _ (by simp) (.blank hrest)
    | cons e cs =>
      obtain ⟨lines, hlines, hcons⟩ := splitLines_break hbreak (e :: cs)
      obtain ⟨lines', hlines', hcons'⟩ := splitLines_break hbreak (e :: cs ++ v)
      have hpair : d = '\r' → e ≠ '\n' := by
        rintro hd rfl
        exact hne cs hd rfl
      rw [hlines, hcons (by simpa using hpair), List.cons_append, hlines',
        hcons' (by simpa using hpair)]
      exact @SameLines.line [] [] _ _ (by simp) ih
  | case4 d cs hne hbreak hnil ih =>
    have hbreak := Bool.eq_false_of_not_eq_true hbreak
    rw [splitLines_cons hbreak, List.cons_append, splitLines_cons hbreak, hnil]
    rw [hnil] at ih
    cases hlines : splitLines (cs ++ v) with
    | nil => exact @SameLines.line [d] [] _ _ (by simp) (.blank (by simp))
    | cons line lines =>
      rw [hlines] at ih
      cases ih with
      | blank h =>
        obtain ⟨hline, hrest⟩ := List.forall_mem_cons.mp h
        exact @SameLines.line [d] line _ _ hline (.blank hrest)
  | case5 d cs hne hbreak first lines hlines ih =>
    have hbreak := Bool.eq_false_of_not_eq_true hbreak
    rw [splitLines_cons hbreak, List.cons_append, splitLines_cons hbreak, hlines]
    rw [hlines] at ih
    generalize splitLines (cs ++ v) = lines' at ih
    cases ih with
    | line hv h => exact @SameLines.line (d :: first) _ _ _ hv h

lemma contentLines_append {v : List Char} (hv : ∀ c ∈ v, isSpace c) (cs : List Char) :
    contentLines (cs ++ v) = contentLines cs := (splitLines_append hv cs).contents

lemma contentLines_cons {c : Char} (hc : isSpace c) (cs : List Char) :
    contentLines (c :: cs) = contentLines cs := by
  cases hbreak : isLineBreak c with
  | true =>
    by_cases hpair : c = '\r' ∧ ∃ rest, cs = '\n' :: rest
    · obtain ⟨rfl, rest, rfl⟩ := hpair
      rfl
    · obtain ⟨lines, hlines, hrest⟩ := splitLines_break hbreak cs
      rw [contentLines, hlines, hrest fun hd rest hcs => hpair ⟨hd, rest, hcs⟩]
      rfl
  | false =>
    rw [contentLines, contentLines, splitLines_cons hbreak]
    cases splitLines cs with
    | nil             => simp [stripChars_blank, hc]
    | cons line lines => simp [stripChars_cons hc]

/-- Blanks around a text are on none of its lines. -/
theorem contentLines_stripChars (cs : List Char) :
    contentLines (stripChars cs) = contentLines cs := by
  have hdrop : contentLines (cs.dropWhile isSpace) = contentLines cs := by
    induction cs with
    | nil => rfl
    | cons c cs ih =>
      cases hc : isSpace c with
      | true  => rw [List.dropWhile_cons_of_pos hc, ih, contentLines_cons hc]
      | false => rw [List.dropWhile_cons_of_neg (by simp [hc])]
  have hend : ∀ a : List Char, contentLines (a.rdropWhile isSpace) = contentLines a := by
    intro a
    have hsplit := congrArg List.reverse
      (@List.takeWhile_append_dropWhile _ isSpace a.reverse)
    rw [List.reverse_append, List.reverse_reverse] at hsplit
    conv_rhs => rw [← hsplit]
    rw [contentLines_append, List.rdropWhile]
    intro c hc
    exact List.mem_takeWhile_imp (List.mem_reverse.mp hc)
  rw [stripChars, hend, hdrop]

/-! ### Lines joined again -/

/-- A text with newlines for its line breaks. -/
def newlines : List Char → List Char
  | []                 => []
  | '\r' :: '\n' :: cs => '\n' :: newlines cs
  | c :: cs            => (if isLineBreak c then '\n' else c) :: newlines cs

lemma newlines_cons {c : Char} {cs : List Char} (h : c = '\r' → ∀ rest, cs ≠ '\n' :: rest) :
    newlines (c :: cs) = (if isLineBreak c then '\n' else c) :: newlines cs := by
  rw [newlines]
  rintro rest rfl rfl
  exact h rfl rest rfl

/-- Two texts between which no break is split. -/
def Apart (x y : List Char) : Prop := '\r' ∉ x.getLast? ∨ '\n' ∉ y.head?

lemma newlines_append {x y : List Char} (h : Apart x y) :
    newlines (x ++ y) = newlines x ++ newlines y := by
  induction x using newlines.induct with
  | case1 => rfl
  | case2 cs ih =>
    have hrest : Apart cs y := by
      cases cs with
      | nil       => exact .inl (by simp)
      | cons c cs => simpa [Apart] using h
    rw [newlines, List.cons_append, List.cons_append, newlines, ih hrest, List.cons_append]
  | case3 c cs hpair ih =>
    have hrest : Apart cs y := by
      cases cs with
      | nil        => exact .inl (by simp)
      | cons c' cs => simpa [Apart] using h
    have hne : c = '\r' → ∀ rest, cs ≠ '\n' :: rest := fun hc rest hcs => hpair rest hc hcs
    have hne' : c = '\r' → ∀ rest, cs ++ y ≠ '\n' :: rest := by
      intro hc rest hcs
      cases cs with
      | nil =>
        rcases h with hlast | hhead
        · exact hlast (by simp [hc])
        · rw [List.nil_append] at hcs
          exact hhead (by simp [hcs])
      | cons c' cs =>
        rw [List.cons_append] at hcs
        obtain ⟨rfl, -⟩ := List.cons.inj hcs
        exact hne hc cs rfl
    rw [newlines_cons hne, List.cons_append, newlines_cons hne', ih hrest, List.cons_append]

/-- A text without line breaks stays as it is. -/
lemma newlines_eq_self {cs : List Char} (h : ∀ c ∈ cs, isLineBreak c = false) :
    newlines cs = cs := by
  induction cs with
  | nil => rfl
  | cons c cs ih =>
    obtain ⟨hc, hcs⟩ := List.forall_mem_cons.mp h
    rw [newlines_cons, ih hcs, if_neg (by simp [hc])]
    rintro rfl
    cases hc

lemma mem_newlines {cs : List Char} {c : Char} (h : c ∈ newlines cs) : c = '\n' ∨ c ∈ cs := by
  induction cs using newlines.induct with
  | case1 => cases h
  | case2 cs ih =>
    rw [newlines] at h
    rcases List.mem_cons.mp h with rfl | h
    · exact .inl rfl
    · exact (ih h).imp_right fun h => List.mem_cons_of_mem _ (List.mem_cons_of_mem _ h)
  | case3 d cs hpair ih =>
    rw [newlines_cons fun hc rest hcs => hpair rest hc hcs] at h
    rcases List.mem_cons.mp h with rfl | h
    · split_ifs
      · exact .inl rfl
      · exact .inr List.mem_cons_self
    · exact (ih h).imp_right fun h => List.mem_cons_of_mem _ h

/-- A beginning of a text with newlines comes from a beginning of the text. -/
lemma newlines_eq_append {cs x y : List Char} (h : newlines cs = x ++ y) :
    ∃ a b, cs = a ++ b ∧ newlines a = x := by
  induction cs using newlines.induct generalizing x with
  | case1 =>
    obtain ⟨rfl, -⟩ := List.append_eq_nil_iff.mp h.symm
    exact ⟨[], [], rfl, rfl⟩
  | case2 cs ih =>
    rw [newlines] at h
    cases x with
    | nil => exact ⟨[], _, rfl, rfl⟩
    | cons c x =>
      obtain ⟨rfl, hrest⟩ := List.cons.inj h
      obtain ⟨a, b, rfl, rfl⟩ := ih hrest
      exact ⟨'\r' :: '\n' :: a, b, rfl, rfl⟩
  | case3 c cs hpair ih =>
    have hne : c = '\r' → ∀ rest, cs ≠ '\n' :: rest := fun hc rest hcs => hpair rest hc hcs
    rw [newlines_cons hne] at h
    cases x with
    | nil => exact ⟨[], _, rfl, rfl⟩
    | cons d x =>
      obtain ⟨rfl, hrest⟩ := List.cons.inj h
      obtain ⟨a, b, rfl, rfl⟩ := ih hrest
      refine ⟨c :: a, b, rfl, newlines_cons fun hc rest ha => hne hc (rest ++ b) ?_⟩
      rw [ha, List.cons_append]

end CyberBrain.Python
