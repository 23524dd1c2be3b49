import CyberBrain.Core.Errors
import CyberBrain.Foundation.Except
import CyberBrain.Foundation.JsonNesting

/-!
# The answer of a fallback route

A model is asked for a JSON object and may wrap it in a fence or in prose. The parser takes a fence
off, reads what is left and, if that is no JSON, reads what stands from the first to the last brace.
-/

namespace CyberBrain.Dreaming.Fallback

open Python JsonText

/-! ### Fences -/

/-- `value.strip("~")`. -/
def stripTildes (value : List Char) : List Char :=
  (value.dropWhile (· = '~')).rdropWhile (· = '~')

/-- The text without the blanks and the tildes around it. -/
def peel (text : List Char) : List Char :=
  let value := stripChars text
  if "~~~".toList.isPrefixOf value then stripChars (stripTildes value) else value

def opensFence (value : List Char) : Bool := "```".toList.isPrefixOf value

/-- The lines in a fence, without the fence and a line that only names the language. -/
def unfence (value : List Char) : List Char :=
  if opensFence value then
    let lines := splitLines value
    let lines := if lines.head?.any opensFence then lines.tail else lines
    let lines :=
      if lines.getLast?.any fun line => stripChars line = "```".toList then lines.dropLast
      else lines
    let value := stripChars (['\n'].intercalate lines)
    if (value.take 5).map Char.toLower = "json\n".toList then stripChars (value.drop 5) else value
  else value

/-- What stands from the first opening brace to the last closing one. -/
def betweenBraces (value : List Char) : Option (List Char) :=
  let fromStart := value.dropWhile (· ≠ '{')
  let slice := fromStart.rdropWhile (· ≠ '}')
  if slice = [] then none else some slice

variable {ν : Type*} (number : List Char → ν)

/-- What is read of a text without its fence. -/
def readWrapped (value : List Char) : Except Exc (Decoded ν) :=
  match loads number value with
  | some parsed => .ok parsed
  | none        =>
    match betweenBraces value with
    | none       => .error (.runtimeError "LLM provider returned invalid JSON")
    | some slice =>
      match loads number slice with
      | some parsed => .ok parsed
      | none        => .error (.valueError "JSONDecodeError")

/-- `_parse_json`. -/
def parseJson (text : List Char) : Except Exc (List (List ℕ × Decoded ν)) :=
  match readWrapped number (unfence (peel text)) with
  | .ok (.obj members) => .ok members
  | .ok _              => .error (.runtimeError "LLM provider JSON must be an object")
  | .error e           => .error e

/-! ### Texts around an object -/

def NoBraces (cs : List Char) : Prop := ∀ c ∈ cs, c ≠ '{' ∧ c ≠ '}'

/-- A text in braces between texts without braces. -/
def Around (core text : List Char) : Prop :=
  ∃ p q, NoBraces p ∧ NoBraces q ∧ text = p ++ (core ++ q)

def Braced (core : List Char) : Prop := ∃ inner, core = '{' :: (inner ++ ['}'])

/-- What is left of a text when texts without braces are taken off at both ends. -/
def Trims (a b : List Char) : Prop := ∃ x y, NoBraces x ∧ NoBraces y ∧ a = x ++ (b ++ y)

section Around

variable {core a b x y p q text : List Char}

lemma NoBraces.append (hx : NoBraces x) (hy : NoBraces y) : NoBraces (x ++ y) :=
  List.forall_mem_append.mpr ⟨hx, hy⟩

lemma NoBraces.subset (h : NoBraces y) (hsub : x ⊆ y) : NoBraces x := fun c hc => h c (hsub hc)

lemma noBraces_nil : NoBraces [] := fun c hc => by cases hc

lemma trims_refl (a : List Char) : Trims a a := ⟨[], [], noBraces_nil, noBraces_nil, by simp⟩

lemma Trims.trans {c : List Char} (hab : Trims a b) (hbc : Trims b c) : Trims a c := by
  obtain ⟨x, y, hx, hy, rfl⟩ := hab
  obtain ⟨x', y', hx', hy', rfl⟩ := hbc
  exact ⟨x ++ x', y' ++ y, hx.append hx', hy'.append hy, by simp⟩

/-- What drops characters that are no braces at both ends trims. -/
lemma trims_dropWhile {drops : Char → Bool} (h : ∀ c, drops c → c ≠ '{' ∧ c ≠ '}')
    (a : List Char) : Trims a ((a.dropWhile drops).rdropWhile drops) := by
  refine ⟨a.takeWhile drops, (a.dropWhile drops).rtakeWhile drops,
    fun c hc => h c (List.mem_takeWhile_imp hc), fun c hc => h c (List.mem_rtakeWhile_imp hc), ?_⟩
  rw [List.rdropWhile_append_rtakeWhile, List.takeWhile_append_dropWhile]

/-- Braced texts start and end with braces. -/
lemma around_dropLeft (hcore : Braced core) (hx : NoBraces x) (h : x ++ b = p ++ (core ++ q)) :
    ∃ p', p = x ++ p' ∧ b = p' ++ (core ++ q) := by
  obtain ⟨inner, rfl⟩ := hcore
  rcases List.append_eq_append_iff.mp h with ⟨z, rfl, hz⟩ | ⟨z, rfl, hz⟩
  · exact ⟨z, rfl, hz⟩
  · cases z with
    | nil       => exact ⟨[], by simp, by simpa using hz.symm⟩
    | cons c z =>
      obtain ⟨rfl, -⟩ := List.cons.inj hz
      exact absurd rfl (hx '{' (by simp)).1

lemma around_dropRight (hcore : Braced core) (hy : ∀ c ∈ y, c ≠ '}')
    (h : b ++ y = p ++ (core ++ q)) :
    ∃ q', q = q' ++ y ∧ b = p ++ (core ++ q') := by
  obtain ⟨inner, rfl⟩ := hcore
  have hsplit : p ++ ('{' :: (inner ++ ['}']) ++ q) = (p ++ '{' :: inner) ++ '}' :: q := by simp
  rw [hsplit] at h
  rcases List.append_eq_append_iff.mp h with ⟨z, -, hz⟩ | ⟨z, rfl, hz⟩
  · exact absurd rfl (hy '}' (by simp [hz]))
  · cases z with
    | nil      =>
      rw [List.nil_append] at hz
      exact absurd rfl (hy '}' (hz ▸ List.mem_cons_self))
    | cons c z =>
      obtain ⟨rfl, rfl⟩ := List.cons.inj hz
      exact ⟨z, rfl, by simp⟩

/-- Taking texts without braces off leaves a braced text where it is. -/
lemma Around.trims (hcore : Braced core) (h : Around core a) (htrims : Trims a b) :
    Around core b := by
  obtain ⟨p, q, hp, hq, rfl⟩ := h
  obtain ⟨x, y, hx, hy, heq⟩ := htrims
  obtain ⟨p', rfl, hrest⟩ := around_dropLeft hcore hx heq.symm
  obtain ⟨q', rfl, rfl⟩ := around_dropRight hcore (fun c hc => (hy c hc).2) hrest
  exact ⟨p', q', (List.forall_mem_append.mp hp).2, (List.forall_mem_append.mp hq).1, rfl⟩

/-- The braced text is found. -/
lemma Around.betweenBraces (hcore : Braced core) (h : Around core a) :
    betweenBraces a = some core := by
  obtain ⟨p, q, hp, hq, rfl⟩ := h
  obtain ⟨inner, rfl⟩ := hcore
  have hstart : (p ++ ('{' :: (inner ++ ['}']) ++ q)).dropWhile (· ≠ '{') =
      '{' :: (inner ++ ['}']) ++ q := by
    rw [List.dropWhile_append_of_pos fun c hc => by simpa using (hp c hc).1]
    simp
  have hend : ('{' :: (inner ++ ['}']) ++ q).rdropWhile (· ≠ '}') = '{' :: (inner ++ ['}']) := by
    rw [List.rdropWhile, List.reverse_append,
      List.dropWhile_append_of_pos fun c hc => by simpa using (hq c (List.mem_reverse.mp hc)).2]
    simp
  rw [Fallback.betweenBraces, hstart, hend, if_neg (List.cons_ne_nil _ _)]

end Around

/-! ### Fences around an object -/

section Fences

variable {core a b p q text value : List Char}

lemma noBraces_isSpace (c : Char) (h : isSpace c) : c ≠ '{' ∧ c ≠ '}' := by
  constructor <;> (rintro rfl; exact absurd h (by decide))

lemma trims_stripChars (a : List Char) : Trims a (stripChars a) :=
  trims_dropWhile noBraces_isSpace a

lemma trims_peel (text : List Char) : Trims text (peel text) := by
  have htildes : Trims (stripChars text) (stripTildes (stripChars text)) :=
    trims_dropWhile (fun c hc => by
      rw [of_decide_eq_true hc]
      decide) _
  rw [peel]
  split_ifs
  · exact (trims_stripChars text).trans (htildes.trans (trims_stripChars _))
  · exact trims_stripChars text

/-- The lines of a text, joined. -/
def joined (lines : List (List Char)) : List Char := ['\n'].intercalate lines

lemma joined_cons (line : List Char) (lines : List (List Char)) :
    joined (line :: lines) = if lines = [] then line else line ++ '\n' :: joined lines := by
  cases lines with
  | nil            => simp [joined]
  | cons l lines => simp [joined, List.intercalate_cons_cons]

lemma joined_concat (lines : List (List Char)) (line : List Char) :
    joined (lines ++ [line]) = if lines = [] then line else joined lines ++ '\n' :: line := by
  induction lines with
  | nil => simp [joined]
  | cons first lines ih =>
    rw [List.cons_append, joined_cons, joined_cons, ih]
    cases lines <;> simp

lemma noBraces_newline : NoBraces ['\n'] := forall_mem_of_all (by decide)

/-- The lines joined are the text with newlines, but for a break at its end. -/
lemma newlines_eq_joined (cs : List Char) :
    ∃ e, NoBraces e ∧ newlines cs = joined (splitLines cs) ++ e := by
  have hempty : ∀ lines e, (∃ e', NoBraces e' ∧ '\n' :: (joined lines ++ e) =
      joined ([] :: lines) ++ e') ∨ ¬ NoBraces e := by
    intro lines e
    by_cases he : NoBraces e
    · refine .inl ?_
      rw [joined_cons]
      split_ifs with hlines
      · exact ⟨'\n' :: e, noBraces_newline.append he, by simp [hlines, joined]⟩
      · exact ⟨e, he, by simp⟩
    · exact .inr he
  induction cs using splitLines.induct with
  | case1 => exact ⟨[], noBraces_nil, rfl⟩
  | case2 cs ih =>
    obtain ⟨e, he, hsplit⟩ := ih
    rw [newlines, splitLines, hsplit]
    exact (hempty _ e).resolve_right (not_not.mpr he)
  | case3 c cs hpair hbreak ih =>
    obtain ⟨e, he, hsplit⟩ := ih
    obtain ⟨lines, hlines, hrest⟩ := splitLines_break hbreak cs
    have hne : c = '\r' → ∀ rest, cs ≠ '\n' :: rest := fun hc rest hcs => hpair rest hc hcs
    rw [newlines_cons hne, if_pos hbreak, hlines, hrest hne, hsplit]
    exact (hempty _ e).resolve_right (not_not.mpr he)
  | case4 c cs hpair hbreak hnil ih =>
    obtain ⟨e, he, hsplit⟩ := ih
    rw [newlines_mark (Bool.eq_false_of_not_eq_true hbreak),
      splitLines_cons (Bool.eq_false_of_not_eq_true hbreak), hsplit, hnil]
    exact ⟨e, he, by simp [joined]⟩
  | case5 c cs hpair hbreak first lines hlines ih =>
    obtain ⟨e, he, hsplit⟩ := ih
    rw [newlines_mark (Bool.eq_false_of_not_eq_true hbreak),
      splitLines_cons (Bool.eq_false_of_not_eq_true hbreak), hsplit, hlines]
    refine ⟨e, he, ?_⟩
    dsimp only
    rw [joined_cons, joined_cons]
    split_ifs <;> simp

/-- The first line of a text ends before the first break. -/
lemma splitLines_head {cs : List Char} (h : cs ≠ []) :
    ∃ lines, splitLines cs = cs.takeWhile (fun c => !isLineBreak c) :: lines := by
  induction cs using splitLines.induct with
  | case1 => exact absurd rfl h
  | case2 cs ih => exact ⟨_, rfl⟩
  | case3 c cs hpair hbreak ih =>
    obtain ⟨lines, hlines, -⟩ := splitLines_break hbreak cs
    exact ⟨lines, by rw [hlines, List.takeWhile_cons_of_neg (by simp [hbreak])]⟩
  | case4 c cs hpair hbreak hnil ih =>
    have hcs : cs = [] := by
      by_contra hne
      obtain ⟨lines, hlines⟩ := ih hne
      rw [hnil] at hlines
      cases hlines
    have hc := Bool.eq_false_of_not_eq_true hbreak
    refine ⟨[], ?_⟩
    rw [splitLines_cons hc, hnil, hcs, List.takeWhile_cons_of_pos (by simp [hc]),
      List.takeWhile_nil]
  | case5 c cs hpair hbreak first lines hlines ih =>
    have hcs : cs ≠ [] := by
      rintro rfl
      cases hlines
    obtain ⟨lines', hlines'⟩ := ih hcs
    have hc := Bool.eq_false_of_not_eq_true hbreak
    refine ⟨lines', ?_⟩
    rw [splitLines_cons hc, hlines', List.takeWhile_cons_of_pos (by simp [hc])]

lemma noBraces_of_strip {line : List Char} (h : NoBraces (stripChars line)) : NoBraces line := by
  have hsplit := @List.takeWhile_append_dropWhile _ isSpace line
  have hend := @List.rdropWhile_append_rtakeWhile _ isSpace (line.dropWhile isSpace)
  rw [← hsplit, ← hend]
  exact NoBraces.append (fun c hc => noBraces_isSpace c (List.mem_takeWhile_imp hc))
    (h.append fun c hc => noBraces_isSpace c (List.mem_rtakeWhile_imp hc))

/-- The closing line of a fence is trimmed off. -/
lemma trims_closing (lines : List (List Char)) :
    Trims (joined lines) (joined
      (if lines.getLast?.any fun line => stripChars line = "```".toList then lines.dropLast
        else lines)) := by
  split_ifs with hlast
  · rcases List.eq_nil_or_concat' lines with rfl | ⟨init, line, rfl⟩
    · cases hlast
    · simp only [List.getLast?_append, List.getLast?_singleton, Option.some_or, Option.any_some,
        decide_eq_true_eq] at hlast
      have hline : NoBraces line := noBraces_of_strip (hlast ▸ forall_mem_of_all (by decide))
      rw [List.dropLast_concat, joined_concat]
      split_ifs with hinit
      · exact ⟨line, [], hline, noBraces_nil, by simp [hinit, joined]⟩
      · exact ⟨[], '\n' :: line, noBraces_nil, noBraces_newline.append hline, by simp⟩
  · exact trims_refl _

/-- A line that names the language is trimmed off. -/
lemma trims_language (value : List Char) :
    Trims value (if (value.take 5).map Char.toLower = "json\n".toList
      then stripChars (value.drop 5) else value) := by
  split_ifs with hjson
  · have htake : NoBraces (value.take 5) := by
      intro c hc
      have hlower : c.toLower ∈ "json\n".toList := hjson ▸ List.mem_map_of_mem hc
      constructor <;> (rintro rfl; exact absurd hlower (by decide))
    have hdrop : Trims value (value.drop 5) :=
      ⟨value.take 5, [], htake, noBraces_nil, by simp⟩
    exact hdrop.trans (trims_stripChars _)
  · exact trims_refl value

/-- What is left in a fence are the lines after the first one. -/
lemma unfence_spec (h : opensFence value) :
    ∃ lines, splitLines value = value.takeWhile (fun c => !isLineBreak c) :: lines ∧
      Trims (joined lines) (unfence value) := by
  obtain ⟨tail, rfl⟩ := List.isPrefixOf_iff_prefix.mp h
  obtain ⟨lines, hlines⟩ := splitLines_head (show "```".toList ++ tail ≠ [] by simp)
  refine ⟨lines, hlines, ?_⟩
  have hfirst : (splitLines ("```".toList ++ tail)).head?.any opensFence := by
    rw [hlines]
    rfl
  rw [unfence, if_pos h]
  dsimp only
  rw [if_pos hfirst, hlines, List.tail_cons]
  exact (trims_closing lines).trans ((trims_stripChars _).trans (trims_language _))

lemma Braced.newlines (hcore : Braced core) : Braced (newlines core) := by
  obtain ⟨inner, rfl⟩ := hcore
  exact ⟨Python.newlines inner, newlines_between (by decide) (by decide) solid_bracket.2.1 inner⟩

lemma NoBraces.newlines (h : NoBraces a) : NoBraces (newlines a) := by
  intro c hc
  rcases mem_newlines hc with rfl | hc
  · decide
  · exact h c hc

/-- A braced text with newlines is where the braced text was. -/
lemma newlines_around (hcore : Braced core) (p q : List Char) :
    newlines (p ++ (core ++ q)) = newlines p ++ (newlines core ++ newlines q) := by
  obtain ⟨inner, rfl⟩ := hcore
  have hbrace : Solid '{' := by unfold Solid; decide
  have hend : Apart ('{' :: (inner ++ ['}'])) q := apart_last (x := '{' :: inner) (by decide) q
  have hstart : Apart p ('{' :: (inner ++ ['}']) ++ q) :=
    apart_solid hbrace p (inner ++ ['}'] ++ q)
  rw [newlines_append hstart, newlines_append hend]

lemma Around.newlines (hcore : Braced core) (h : Around core value) :
    Around (newlines core) (newlines value) := by
  obtain ⟨p, q, hp, hq, rfl⟩ := h
  exact ⟨_, _, hp.newlines, hq.newlines, newlines_around hcore p q⟩

/-- An object below the line of the fence is left where it is, with newlines. -/
lemma Around.unfence (hcore : Braced core) (hp : NoBraces p) (hq : NoBraces q)
    (hopens : opensFence (p ++ (core ++ q))) (hline : ∃ c ∈ p, isLineBreak c) :
    Around (Python.newlines core) (unfence (p ++ (core ++ q))) := by
  obtain ⟨lines, hlines, htrims⟩ := unfence_spec hopens
  obtain ⟨e, he, hjoined⟩ := newlines_eq_joined (p ++ (core ++ q))
  have hfirst : NoBraces ((p ++ (core ++ q)).takeWhile fun c => !isLineBreak c) := by
    rw [List.takeWhile_append]
    split_ifs with hlength
    · obtain ⟨c, hc, hbreak⟩ := hline
      have hall := List.takeWhile_eq_self_iff.mp
        ((List.takeWhile_prefix _).eq_of_length hlength) c hc
      simp [hbreak] at hall
    · exact hp.subset (List.takeWhile_prefix _).subset
  have haround : Around (Python.newlines core) (Python.newlines (p ++ (core ++ q))) :=
    Around.newlines hcore ⟨p, q, hp, hq, rfl⟩
  rw [hjoined, hlines] at haround
  have htrimmed := haround.trims hcore.newlines ⟨[], e, noBraces_nil, he, rfl⟩
  rw [joined_cons] at htrimmed
  split_ifs at htrimmed with hnil
  · -- the object would be in the first line
    obtain ⟨inner, hinner⟩ := hcore.newlines
    obtain ⟨x, y, -, -, hsplit⟩ := htrimmed
    exact absurd rfl (hfirst '{' (by simp [hsplit, hinner])).1
  · exact (htrimmed.trims hcore.newlines ⟨_ ++ ['\n'], [], hfirst.append noBraces_newline,
      noBraces_nil, by simp⟩).trims hcore.newlines htrims

/-- What stands between the braces of a text, and what follows it. -/
lemma betweenBraces_eq_some {y : List Char} (h : betweenBraces a = some y) :
    ∃ m n, a = m ++ (y ++ n) ∧ ∀ c ∈ n, c ≠ '}' := by
  rw [betweenBraces] at h
  split_ifs at h
  cases h
  refine ⟨a.takeWhile (· ≠ '{'), (a.dropWhile (· ≠ '{')).rtakeWhile (· ≠ '}'), ?_, fun c hc => ?_⟩
  · rw [List.rdropWhile_append_rtakeWhile, List.takeWhile_append_dropWhile]
  · simpa using List.mem_rtakeWhile_imp hc

/-- What stands between the braces has nothing around it. -/
lemma betweenBraces_idem {y : List Char} (h : betweenBraces a = some y) :
    betweenBraces y = some y := by
  rw [betweenBraces] at h
  split_ifs at h with hnil
  cases h
  have hstart : a.dropWhile (· ≠ '{') ≠ [] := by
    intro hempty
    rw [hempty] at hnil
    exact hnil rfl
  obtain ⟨tail, htail⟩ := @List.rdropWhile_prefix _ (· ≠ '}') (a.dropWhile (· ≠ '{'))
  have hfirst := List.head_dropWhile_not (· ≠ '{') hstart
  have hhead : ((a.dropWhile (· ≠ '{')).rdropWhile (· ≠ '}')).dropWhile (· ≠ '{') =
      (a.dropWhile (· ≠ '{')).rdropWhile (· ≠ '}') := by
    generalize (a.dropWhile (· ≠ '{')).rdropWhile (· ≠ '}') = slice at hnil htail ⊢
    generalize a.dropWhile (· ≠ '{') = fromStart at hstart htail hfirst
    subst htail
    cases slice with
    | nil       => exact absurd rfl hnil
    | cons c cs =>
      rw [List.head_append_of_ne_nil (List.cons_ne_nil c cs), List.head_cons] at hfirst
      rw [List.dropWhile_cons_of_neg (Bool.not_eq_true _ ▸ hfirst)]
  rw [betweenBraces, hhead, List.rdropWhile_idempotent]
  exact if_neg hnil

variable {ν : Type*} {number : List Char → ν}

/-- An object on the line of the fence is lost: what is left of it is no object. -/
lemma not_object_of_line {ms ms' : List (List ℕ × Decoded ν)}
    (hcore : Text number (.value (.obj ms)) core) (hq : NoBraces q)
    (hopens : opensFence (p ++ (core ++ q))) (hline : ∀ c ∈ p, isLineBreak c = false)
    {y : List Char} (hbetween : betweenBraces (unfence (p ++ (core ++ q))) = some y) :
    ¬ Text number (.value (.obj ms')) y := by
  intro hy
  obtain ⟨inner, hinner, hbalanced⟩ := hcore.braced
  obtain ⟨inner', rfl, hbalanced'⟩ := hy.braced
  have hbraced : Braced core := ⟨inner, hinner⟩
  obtain ⟨lines, hlines, x, z, -, hz, hsplit⟩ := unfence_spec hopens
  obtain ⟨e, he, hjoined⟩ := newlines_eq_joined (p ++ (core ++ q))
  obtain ⟨m, n, hvalue, hn⟩ := betweenBraces_eq_some hbetween
  -- the first line has the first brace of the object
  obtain ⟨rest, hfirst⟩ : ∃ rest, (p ++ (core ++ q)).takeWhile (fun c => !isLineBreak c) =
      p ++ '{' :: rest := by
    rw [List.takeWhile_append_of_pos fun c hc => by simp [hline c hc], hinner]
    exact ⟨_, congrArg (p ++ ·) (List.takeWhile_cons_of_pos (by decide))⟩
  have hne : lines ≠ [] := by
    rintro rfl
    have hnil : x ++ (unfence (p ++ (core ++ q)) ++ z) = [] := hsplit.symm
    simp [hvalue] at hnil
  rw [newlines_around hbraced, newlines_eq_self hline, hlines, joined_cons, if_neg hne, hfirst,
    hsplit, hvalue] at hjoined
  have hafter : ∀ c ∈ n ++ (z ++ e), c ≠ '}' := by
    simp only [List.forall_mem_append]
    exact ⟨hn, fun c hc => (hz c hc).2, fun c hc => (he c hc).2⟩
  have hbefore : (p ++ '{' :: (rest ++ '\n' :: (x ++ m)) ++ '{' :: (inner' ++ ['}'])) ++
      (n ++ (z ++ e)) = p ++ (newlines core ++ newlines q) := by
    rw [hjoined]
    simp
  obtain ⟨q', hq', hend⟩ := around_dropRight hbraced.newlines hafter hbefore
  have hnil : q' = [] := by
    rcases List.eq_nil_or_concat' q' with hnil | ⟨i, c, rfl⟩
    · exact hnil
    · have hlast : (p ++ '{' :: (rest ++ '\n' :: (x ++ m)) ++ '{' :: inner') ++ ['}'] =
          (p ++ (newlines core ++ i)) ++ [c] := by simpa using hend
      cases List.append_inj_right' hlast rfl
      exact absurd rfl (hq.newlines '}' (by simp [hq'])).2
  have hcoreLines : newlines core = '{' :: (newlines inner ++ ['}']) := by
    rw [hinner, newlines_between (by decide) (by decide) solid_bracket.2.1]
  rw [hnil, List.append_nil, List.append_assoc, List.append_cancel_left_eq, hcoreLines] at hend
  exact (hbalanced false).newlines.suffix_ne (hbalanced' false) (List.cons_ne_nil _ _) hend.symm

end Fences

/-! ### What is returned -/

section Returned

variable {ν : Type*} {number : List Char → ν} {ms : List (List ℕ × Decoded ν)}
  {core p q s text y : List Char}

def IsObject : Decoded ν → Prop
  | .obj _ => True
  | _      => False

/-- A text of an object, with white space around it. -/
def Renders (number : List Char → ν) (ms : List (List ℕ × Decoded ν)) (s : List Char) : Prop :=
  ∃ a core b, Blank a ∧ Blank b ∧ s = a ++ (core ++ b) ∧ Text number (.value (.obj ms)) core

/-- What a text is read as, apart from its fence, is an object, if it is read at all. -/
def Alone (number : List Char → ν) (text : List Char) : Prop :=
  ∀ v, loads number (unfence (peel text)) = some v → IsObject v

lemma noBraces_blank {a : List Char} (ha : Blank a) : NoBraces a := by
  intro c hc
  have hmem := ha c hc
  constructor <;> (rintro rfl; exact absurd hmem (by decide))

lemma loads_text (h : Text number (.value (.obj ms)) core) : loads number core = some (.obj ms) :=
  loads_eq_some.mpr ⟨[], core, [], by simp [Blank], by simp [Blank], by simp, h⟩

lemma braced_text (h : Text number (.value (.obj ms)) core) : Braced core := by
  obtain ⟨inner, hinner, -⟩ := h.braced
  exact ⟨inner, hinner⟩

/-- A text that is read as an object is one between its braces. -/
lemma between_of_loads {value : List Char} (h : loads number value = some (.obj ms)) :
    ∃ y, betweenBraces value = some y ∧ Text number (.value (.obj ms)) y := by
  obtain ⟨a, y, b, ha, hb, rfl, hy⟩ := loads_eq_some.mp h
  exact ⟨y, Around.betweenBraces (braced_text hy) ⟨a, b, noBraces_blank ha, noBraces_blank hb, rfl⟩,
    hy⟩

/-- What is returned is the object between the outer braces, if the text as a whole is not read as
something else. -/
theorem parseJson_eq_ok : parseJson number text = .ok ms ↔
    (∃ y, betweenBraces (unfence (peel text)) = some y ∧ Text number (.value (.obj ms)) y) ∧
      Alone number text := by
  generalize hvalue : unfence (peel text) = value
  have hparse : parseJson number text = .ok ms ↔ readWrapped number value = .ok (.obj ms) := by
    rw [parseJson, hvalue]
    cases readWrapped number value with
    | error e => simp
    | ok v    => cases v <;> simp
  rw [hparse, readWrapped, Alone, hvalue]
  cases hloads : loads number value with
  | some v =>
    simp only [Except.ok.injEq, Option.some.injEq, forall_eq']
    constructor
    · rintro rfl
      exact ⟨between_of_loads hloads, trivial⟩
    · rintro ⟨⟨y, hbetween, hy⟩, hobject⟩
      cases v with
      | obj ms' =>
        obtain ⟨y', hbetween', hy'⟩ := between_of_loads hloads
        cases Option.some.inj (hbetween.symm.trans hbetween')
        exact Option.some.inj ((loads_text hy').symm.trans (loads_text hy))
      | _ => cases hobject
  | none =>
    dsimp only
    cases hbetween : betweenBraces value with
    | none => simp
    | some y =>
      dsimp only
      cases hslice : loads number y with
      | none =>
        simp only [reduceCtorEq, Option.some.injEq, false_iff, not_and]
        rintro ⟨y', rfl, hy⟩
        rw [loads_text hy] at hslice
        cases hslice
      | some v =>
        simp only [Except.ok.injEq, Option.some.injEq, reduceCtorEq, false_implies,
          implies_true, and_true]
        constructor
        · rintro rfl
          obtain ⟨y', hy', htext⟩ := between_of_loads hslice
          cases Option.some.inj ((betweenBraces_idem hbetween).symm.trans hy')
          exact ⟨y, rfl, htext⟩
        · rintro ⟨y', rfl, hy⟩
          exact Option.some.inj (hslice.symm.trans (loads_text hy))

/-- The condition under which an object with text `s` is recovered from a text around it. -/
structure Recovers (number : List Char → ν) (s text : List Char) : Prop where
  line : opensFence (peel text) → ∃ c ∈ (peel text).takeWhile (· ≠ '{'), isLineBreak c
  breaks : opensFence (peel text) → ∀ c ∈ s, ¬ OddBreak c
  alone : Alone number text

lemma blank_oddBreak {a : List Char} (ha : Blank a) : ∀ c ∈ a, ¬ OddBreak c := by
  intro c hc hodd
  exact (plain_blank ha c hc).2 hodd

/-- An object keeps being one with newlines for its line breaks if it has no odd ones. -/
lemma text_newlines_iff (h : Text number (.value (.obj ms)) core) :
    (∃ y, newlines core = y ∧ Text number (.value (.obj ms)) y) ↔ ∀ c ∈ core, ¬ OddBreak c := by
  constructor
  · rintro ⟨_, rfl, hlines⟩
    exact scan_oddBreak (h.balanced.whole 0) (hlines.balanced.whole 0)
  · exact fun hodd => ⟨_, rfl, h.relined hodd⟩

/-- What is in the fence is the object, with newlines. -/
lemma between_fence (hp : NoBraces p) (hq : NoBraces q)
    (hcore : Text number (.value (.obj ms)) core) (hopens : opensFence (p ++ (core ++ q))) :
    (∃ y, betweenBraces (unfence (p ++ (core ++ q))) = some y ∧ Text number (.value (.obj ms)) y) ↔
      (∃ c ∈ p, isLineBreak c) ∧ ∀ c ∈ core, ¬ OddBreak c := by
  by_cases hline : ∃ c ∈ p, isLineBreak c
  · have haround := Around.unfence (braced_text hcore) hp hq hopens hline
    rw [haround.betweenBraces (braced_text hcore).newlines, ← text_newlines_iff hcore]
    simp [hline]
  · simp only [hline, false_and, iff_false]
    rintro ⟨y, hbetween, hy⟩
    push Not at hline
    exact not_object_of_line hcore hq hopens (fun c hc => by simpa using hline c hc) hbetween hy

theorem recovered_iff (hp : NoBraces p) (hq : NoBraces q) (hs : Renders number ms s) :
    parseJson number (p ++ (s ++ q)) = .ok ms ↔ Recovers number s (p ++ (s ++ q)) := by
  obtain ⟨a, core, b, ha, hb, rfl, hcore⟩ := hs
  have hbraced := braced_text hcore
  have haround : Around core (p ++ (a ++ (core ++ b) ++ q)) :=
    ⟨p ++ a, b ++ q, hp.append (noBraces_blank ha), (noBraces_blank hb).append hq, by simp⟩
  generalize p ++ (a ++ (core ++ b) ++ q) = text at haround ⊢
  rw [parseJson_eq_ok]
  obtain ⟨p', q', hp', hq', hpeel⟩ := haround.trims hbraced (trims_peel text)
  obtain ⟨inner, hinner⟩ := hbraced
  have htake : (peel text).takeWhile (· ≠ '{') = p' := by
    rw [hpeel, List.takeWhile_append_of_pos fun c hc => by simpa using (hp' c hc).1, hinner]
    simp
  have hodd : (∀ c ∈ a ++ (core ++ b), ¬ OddBreak c) ↔ ∀ c ∈ core, ¬ OddBreak c := by
    simp only [List.forall_mem_append]
    exact ⟨fun h => h.2.1, fun h => ⟨blank_oddBreak ha, h, blank_oddBreak hb⟩⟩
  have hbetween : (∃ y, betweenBraces (unfence (peel text)) = some y ∧
      Text number (.value (.obj ms)) y) ↔
      (opensFence (peel text) → (∃ c ∈ p', isLineBreak c) ∧ ∀ c ∈ core, ¬ OddBreak c) := by
    by_cases hopens : opensFence (peel text)
    · rw [hpeel] at hopens ⊢
      simp only [hopens, forall_true_left]
      exact between_fence hp' hq' hcore hopens
    · have hplain : betweenBraces (unfence (peel text)) = some core := by
        rw [unfence, if_neg hopens, hpeel]
        exact Around.betweenBraces ⟨inner, hinner⟩ ⟨p', q', hp', hq', rfl⟩
      simp only [hplain, hopens]
      simp [hcore]
  rw [hbetween]
  constructor
  · rintro ⟨hfence, halone⟩
    exact ⟨fun h => htake ▸ (hfence h).1, fun h => hodd.mpr (hfence h).2, halone⟩
  · rintro ⟨hline, hbreaks, halone⟩
    exact ⟨fun h => ⟨htake ▸ hline h, hodd.mp (hbreaks h)⟩, halone⟩

/-- No part of a text is the text of an object. -/
def NoObject (number : List Char → ν) (text : List Char) : Prop :=
  ∀ x y z ms, text = x ++ (y ++ z) → ¬ Text number (.value (.obj ms)) y

lemma infix_peel (text : List Char) : ∃ x z, text = x ++ (peel text ++ z) := by
  obtain ⟨x, z, -, -, h⟩ := trims_peel text
  exact ⟨x, z, h⟩

theorem raises_iff (hnone : NoObject number text) :
    (∃ e, parseJson number text = .error e) ↔
      ¬ (opensFence (peel text) ∧ (∃ ms y, betweenBraces (unfence (peel text)) = some y ∧
        Text number (.value (.obj ms)) y) ∧ Alone number text) := by
  have hreturns : (∃ ms, parseJson number text = .ok ms) ↔
      opensFence (peel text) ∧ (∃ ms y, betweenBraces (unfence (peel text)) = some y ∧
        Text number (.value (.obj ms)) y) ∧ Alone number text := by
    constructor
    · rintro ⟨ms, hok⟩
      obtain ⟨⟨y, hbetween, hy⟩, halone⟩ := parseJson_eq_ok.mp hok
      refine ⟨?_, ⟨ms, y, hbetween, hy⟩, halone⟩
      by_contra hopens
      -- without a fence the object is a part of the text
      rw [unfence, if_neg hopens] at hbetween
      obtain ⟨x, z, hpeel⟩ := infix_peel text
      obtain ⟨m, n, hvalue, -⟩ := betweenBraces_eq_some hbetween
      refine hnone (x ++ m) y (n ++ z) ms ?_ hy
      rw [hvalue] at hpeel
      simpa using hpeel
    · rintro ⟨-, ⟨ms, y, hbetween, hy⟩, halone⟩
      exact ⟨ms, parseJson_eq_ok.mpr ⟨⟨y, hbetween, hy⟩, halone⟩⟩
  rw [← hreturns]
  cases parseJson number text <;> simp

lemma isSpace_blank {a : List Char} (ha : Blank a) : ∀ c ∈ a, isSpace c := by
  intro c hc
  have hmem := ha c hc
  simp only [List.mem_cons, List.not_mem_nil, or_false] at hmem
  rcases hmem with rfl | rfl | rfl | rfl <;> decide

lemma stripChars_braced {a b : List Char} (ha : Blank a) (hb : Blank b) (hcore : Braced core) :
    stripChars (a ++ (core ++ b)) = core := by
  obtain ⟨inner, rfl⟩ := hcore
  rw [← List.append_assoc, stripChars_append (isSpace_blank hb), stripChars,
    List.dropWhile_append_of_pos (isSpace_blank ha), List.dropWhile_cons_of_neg (by decide)]
  rw [← List.cons_append, List.rdropWhile_concat_neg _ _ _ (by decide)]

/-- An object with nothing but white space around it is recovered. -/
theorem bare_recovered (hs : Renders number ms s) : parseJson number s = .ok ms := by
  obtain ⟨a, core, b, ha, hb, rfl, hcore⟩ := hs
  obtain ⟨inner, hinner⟩ := braced_text hcore
  have hunfence : unfence (peel (a ++ (core ++ b))) = core := by
    rw [peel, stripChars_braced ha hb ⟨inner, hinner⟩, hinner]
    rfl
  have halone : Alone number (a ++ (core ++ b)) := by
    intro v hv
    rw [hunfence, loads_text hcore] at hv
    cases hv
    trivial
  refine parseJson_eq_ok.mpr ⟨⟨core, ?_, hcore⟩, halone⟩
  rw [hunfence]
  exact Around.betweenBraces ⟨inner, hinner⟩ ⟨[], [], noBraces_nil, noBraces_nil, by simp⟩

end Returned

end CyberBrain.Dreaming.Fallback
