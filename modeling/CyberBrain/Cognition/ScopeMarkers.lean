import CyberBrain.Cognition.ConceptEvidence
import CyberBrain.Foundation.JsonReading
import CyberBrain.Relations.Models
import CyberBrain.Tenancy.Durable

/-!
# Scope markers

The text that a recall knows its scope by: a digest of JSON where the caller's authority restricts
the scope, and otherwise the identifiers joined by delimiters, which do not tell all scopes apart.
-/

namespace CyberBrain.Cognition

open Python Tenancy Concepts
open Relations (str_inj ofText?_inj)

variable (py : Runtime)

/-- What a call is scoped by: the scope of the caller's authority, the scope of the trusted identity
and the project. -/
structure ScopedCall where
  authority : Option (IdentityScope py) := none
  identity : Option (IdentityScope py) := none
  project : Option String := none

variable {py} {x y : ScopedCall py}

namespace ScopedCall

/-- The scope of the authority, where it restricts anything. -/
def restriction (x : ScopedCall py) : Option (IdentityScope py) :=
  x.authority.filter fun scope => scope.asDict ≠ []

/-- The items of the trusted identity. -/
def identityItems (x : ScopedCall py) : List (String × Json) :=
  x.identity.elim [] IdentityScope.items

/-- The text that is digested for a restricted scope. -/
def restrictedText (x : ScopedCall py) (scope : IdentityScope py) : String :=
  String.ofList ((asciiDialect py).print
    (Json.arr [.obj scope.items, .obj x.identityItems, Json.ofText? x.project]).sortKeys)

/-- `project or "-"`. -/
def projectText (x : ScopedCall py) : String :=
  if x.project.getD "" = "" then "-" else x.project.getD ""

/-- A dimension with its values. -/
def part (dv : IdentityDimension × List String) : String :=
  dv.1.text ++ "=" ++ ",".intercalate dv.2

/-- The parts of a trusted identity. -/
def identityParts (identity : IdentityScope py) : List String := identity.asDict.map part

/-- The parts with the project, where it is not among them. -/
def parts (x : ScopedCall py) (identity : IdentityScope py) : List String :=
  let parts := identityParts identity
  if x.project.getD "" ≠ "" ∧ ¬ contains ("|".intercalate parts) "project=" then
    parts ++ ["project=" ++ x.project.getD ""]
  else parts

/-- The parts that are joined. -/
def joinedParts (x : ScopedCall py) (identity : IdentityScope py) : List String :=
  if x.parts identity = [] then ["single_owner"] else x.parts identity

/-- `_scope_marker`. -/
def scopeMarker (x : ScopedCall py) : String :=
  match x.restriction with
  | some scope => "scoped|" ++ py.sha256 (x.restrictedText scope)
  | none       =>
    match x.identity with
    | none          => "single_owner|project=" ++ x.projectText
    | some identity => "trusted|" ++ "|".intercalate (x.joinedParts identity)

/-! ### Scopes that are not told apart -/

/-- The values of an identity; a missing one has none. -/
def identityValues (x : ScopedCall py) (d : IdentityDimension) : FrozenSet String :=
  x.identity.elim ∅ fun identity => identity.values d

/-- Two calls have one marker: under one restriction, with the same identifiers and project; or
without identity, with the same project, where none, an empty one and `-` count as one; or with
identities whose parts have the same pieces between bars. -/
inductive Blurred (x y : ScopedCall py) : Prop
  | restricted {s t : IdentityScope py} (hx : x.restriction = some s) (hy : y.restriction = some t)
    (hscope : s.values = t.values) (hidentity : x.identityValues = y.identityValues)
    (hproject : x.project = y.project)
  | owner (hx : x.restriction = none) (hy : y.restriction = none) (hxi : x.identity = none)
    (hyi : y.identity = none) (hproject : x.projectText = y.projectText)
  | trusted {i j : IdentityScope py} (hx : x.restriction = none) (hy : y.restriction = none)
    (hxi : x.identity = some i) (hyi : y.identity = some j)
    (hpieces : pieces '|' (x.joinedParts i) = pieces '|' (y.joinedParts j))

/-- The texts that are digested for some calls. -/
def digestTexts (x y : ScopedCall py) : Set String :=
  {text | ∃ scope, x.restriction = some scope ∧ text = x.restrictedText scope ∨
    y.restriction = some scope ∧ text = y.restrictedText scope}

lemma nodup_items (s : IdentityScope py) : (s.items.map (·.1)).Nodup := by
  have hinj : Function.Injective IdentityDimension.text := by
    intro d e h
    cases d <;> cases e <;> first | rfl | exact absurd h (by decide)
  rw [IdentityScope.items, List.map_map, IdentityScope.asDict, List.map_map]
  exact ((by decide : IdentityDimension.order.Nodup).filter _).map hinj

lemma lookup_items (s : IdentityScope py) (d : IdentityDimension) :
    s.items.lookup d.text =
      if s.values d = ∅ then none else some (.arr ((s.values d).sorted.map .str)) := by
  split_ifs with hempty
  · rw [← Option.not_isSome_iff_eq_none, lookup_isSome, IdentityScope.items, List.map_map]
    intro hmem
    obtain ⟨⟨e, vs⟩, he, heq⟩ := List.mem_map.mp hmem
    obtain rfl : e = d := by
      have htext : e.text = d.text := heq
      cases d <;> cases e <;> first | rfl | exact absurd htext (by decide)
    exact (IdentityScope.mem_asDict.mp he).1 hempty
  · rw [lookup_eq_some_iff (nodup_items s)]
    exact List.mem_map.mpr ⟨_, IdentityScope.mem_asDict.mpr ⟨hempty, rfl⟩, rfl⟩

/-- Scopes are determined by their JSON. -/
lemma values_of_items {s t : IdentityScope py}
    (h : (Json.obj s.items).sortKeys = (Json.obj t.items).sortKeys) : s.values = t.values := by
  have hnodup (s : IdentityScope py) : (s.items.map (·.1)).Nodup := nodup_items s
  funext d
  have hlookup := Json.lookup_of_sortKeys_eq (hnodup s) (hnodup t) h d.text
  rw [lookup_items, lookup_items] at hlookup
  split_ifs at hlookup with hs ht ht
  · rw [hs, ht]
  · cases hlookup
  · cases hlookup
  · have hsorted := Option.some.inj hlookup
    simp only [Json.sortKeys, Json.sortKeysList_eq, Json.arr.injEq, List.map_map] at hsorted
    refine FrozenSet.ext fun v => ?_
    have hinj : Function.Injective (Json.sortKeys ∘ Json.str) := fun _ _ => str_inj
    rw [FrozenSet.mem_def, FrozenSet.mem_def, List.map_injective_iff.mpr hinj hsorted]

lemma scope_ext {s t : IdentityScope py} (h : s.values = t.values) : s = t := by
  cases s
  cases t
  subst h
  rfl

/-- The scope of the trusted identity; a missing one is unrestricted. -/
def identityScope (x : ScopedCall py) : IdentityScope py := x.identity.getD .unrestricted

lemma identityItems_eq (x : ScopedCall py) : x.identityItems = x.identityScope.items := by
  cases hidentity : x.identity with
  | none   =>
    rw [identityItems, identityScope, hidentity]
    rfl
  | some i =>
    rw [identityItems, identityScope, hidentity]
    rfl

lemma identityValues_eq (x : ScopedCall py) : x.identityValues = x.identityScope.values := by
  cases hidentity : x.identity <;> funext d <;>
    simp [identityValues, identityScope, hidentity, IdentityScope.unrestricted]

/-- The digested text determines the restriction, the identifiers and the project. -/
lemma restrictedText_eq_iff {s t : IdentityScope py} : x.restrictedText s = y.restrictedText t ↔
    s.values = t.values ∧ x.identityValues = y.identityValues ∧ x.project = y.project := by
  constructor
  · intro h
    have hjson := (asciiDialect py).print_injective (String.ofList_injective h)
    simp only [Json.sortKeys, Json.sortKeysList, Json.arr.injEq, List.cons.injEq, and_true] at hjson
    obtain ⟨hscope, hidentity, hproject⟩ := hjson
    rw [identityItems_eq, identityItems_eq] at hidentity
    rw [identityValues_eq, identityValues_eq]
    exact ⟨values_of_items hscope, values_of_items hidentity, ofText?_inj hproject⟩
  · rintro ⟨hscope, hidentity, hproject⟩
    rw [identityValues_eq, identityValues_eq] at hidentity
    rw [restrictedText, restrictedText, identityItems_eq, identityItems_eq, scope_ext hscope,
      scope_ext hidentity, hproject]

lemma joinedParts_ne_nil (x : ScopedCall py) (identity : IdentityScope py) :
    x.joinedParts identity ≠ [] := by
  unfold joinedParts
  split_ifs with hnil
  · exact List.cons_ne_nil _ _
  · exact hnil

/-! ### Equal markers -/

lemma scoped_ne_owner (a b : String) : "scoped|" ++ a ≠ "single_owner|project=" ++ b := by
  intro h
  have hchars := congrArg String.toList h
  simp only [String.toList_append] at hchars
  exact absurd (List.cons.inj (List.cons.inj hchars).2).1 (by decide)

lemma trusted_ne_of_head {a b head : String} (h : head.toList.head? = some 's') :
    head ++ a ≠ "trusted|" ++ b := by
  intro heq
  have hchars := congrArg (fun s : String => s.toList.head?) heq
  simp only [String.toList_append, List.head?_append, h] at hchars
  change some 's' = some 't' at hchars
  exact absurd hchars (by decide)

/-- Calls have one marker exactly if they are blurred. -/
lemma scopeMarker_eq_iff (hsha : Set.InjOn py.sha256 (digestTexts x y)) :
    x.scopeMarker = y.scopeMarker ↔ Blurred x y := by
  have happend (p : String) {a b : String} : p ++ a = p ++ b ↔ a = b := by
    rw [← String.toList_inj, String.toList_append, String.toList_append, List.append_cancel_left_eq,
      String.toList_inj]
  have hbar : ("|" : String).toList = ['|'] := rfl
  unfold scopeMarker
  cases hx : x.restriction with
  | some s =>
    cases hy : y.restriction with
    | some t =>
      have hdigest : py.sha256 (x.restrictedText s) = py.sha256 (y.restrictedText t) ↔
          x.restrictedText s = y.restrictedText t :=
        hsha.eq_iff ⟨s, .inl ⟨hx, rfl⟩⟩ ⟨t, .inr ⟨hy, rfl⟩⟩
      dsimp only
      rw [happend, hdigest, restrictedText_eq_iff]
      constructor
      · exact fun ⟨hscope, hidentity, hproject⟩ => .restricted hx hy hscope hidentity hproject
      · rintro (⟨hx', hy', hscope, hidentity, hproject⟩ | ⟨hx'⟩ | ⟨hx'⟩)
        · cases hx.symm.trans hx'
          cases hy.symm.trans hy'
          exact ⟨hscope, hidentity, hproject⟩
        · cases hx.symm.trans hx'
        · cases hx.symm.trans hx'
    | none =>
      refine iff_of_false ?_ ?_
      · dsimp only
        cases y.identity with
        | none   => exact scoped_ne_owner _ _
        | some j => exact trusted_ne_of_head rfl
      · rintro (⟨-, hy'⟩ | ⟨hx'⟩ | ⟨hx'⟩)
        · cases hy.symm.trans hy'
        · cases hx.symm.trans hx'
        · cases hx.symm.trans hx'
  | none =>
    cases hy : y.restriction with
    | some t =>
      refine iff_of_false ?_ ?_
      · dsimp only
        cases x.identity with
        | none   => exact (scoped_ne_owner _ _).symm
        | some i => exact (trusted_ne_of_head rfl).symm
      · rintro (⟨hx'⟩ | ⟨-, hy'⟩ | ⟨-, hy'⟩)
        · cases hx.symm.trans hx'
        · cases hy.symm.trans hy'
        · cases hy.symm.trans hy'
    | none =>
      dsimp only
      cases hxi : x.identity with
      | none =>
        cases hyi : y.identity with
        | none =>
          rw [happend]
          constructor
          · exact .owner hx hy hxi hyi
          · rintro (⟨hx'⟩ | ⟨-, -, -, -, hproject⟩ | ⟨-, -, hxi'⟩)
            · cases hx.symm.trans hx'
            · exact hproject
            · cases hxi.symm.trans hxi'
        | some j =>
          refine iff_of_false (trusted_ne_of_head rfl) ?_
          rintro (⟨hx'⟩ | ⟨-, -, -, hyi'⟩ | ⟨-, -, hxi'⟩)
          · cases hx.symm.trans hx'
          · cases hyi.symm.trans hyi'
          · cases hxi.symm.trans hxi'
      | some i =>
        cases hyi : y.identity with
        | none =>
          refine iff_of_false (trusted_ne_of_head rfl).symm ?_
          rintro (⟨hx'⟩ | ⟨-, -, hxi'⟩ | ⟨-, -, -, hyi'⟩)
          · cases hx.symm.trans hx'
          · cases hxi.symm.trans hxi'
          · cases hyi.symm.trans hyi'
        | some j =>
          rw [happend, intercalate_eq_iff hbar (joinedParts_ne_nil x i) (joinedParts_ne_nil y j)]
          constructor
          · exact .trusted hx hy hxi hyi
          · rintro (⟨hx'⟩ | ⟨-, -, hxi'⟩ | ⟨-, -, hxi', hyi', hpieces⟩)
            · cases hx.symm.trans hx'
            · cases hxi.symm.trans hxi'
            · cases hxi.symm.trans hxi'
              cases hyi.symm.trans hyi'
              exact hpieces

/-! ### Identifiers without delimiters -/

/-- A text without the delimiters of a marker. -/
def PlainText (s : String) : Prop := ',' ∉ s.toList ∧ '|' ∉ s.toList ∧ '=' ∉ s.toList

/-- The identifiers and the project of a call have no delimiters in them. -/
def Plain (x : ScopedCall py) : Prop :=
  (∀ identity ∈ x.identity, ∀ d, ∀ v ∈ identity.values d, PlainText v) ∧
    ∀ project ∈ x.project, PlainText project

/-- What a marker of a trusted identity names: its dimensions, and the project where it names none. -/
def named (x : ScopedCall py) (identity : IdentityScope py) : List (IdentityDimension × List String) :=
  identity.asDict ++
    if x.project.getD "" ≠ "" ∧ identity.values .project = ∅ then
      [(.project, [x.project.getD ""])]
    else []

lemma infix_append_cons {w a b : List Char} {c : Char} (hw : c ∉ w) (h : w <:+: a ++ c :: b) :
    w <:+: a ∨ w <:+: b := by
  obtain ⟨s, t, h⟩ := h
  rw [List.append_assoc] at h
  rcases List.append_eq_append_iff.mp h with ⟨r, rfl, hr⟩ | ⟨r, rfl, hr⟩
  · -- the text starts in `a`
    rcases List.append_eq_append_iff.mp hr with ⟨q, hq, -⟩ | ⟨q, hq, hcons⟩
    · exact .inl ⟨s, q, by rw [hq, List.append_assoc]⟩
    · cases q with
      | nil       => exact .inl ⟨s, [], by simp [hq]⟩
      | cons d q =>
        obtain ⟨rfl, -⟩ := List.cons.inj hcons
        exact absurd (hq ▸ List.mem_append_right _ (List.mem_cons_self ..)) hw
  · cases r with
    | nil       =>
      cases w with
      | nil       => exact .inr (List.nil_infix)
      | cons d w =>
        obtain ⟨rfl, -⟩ := List.cons.inj hr
        exact absurd (List.mem_cons_self ..) hw
    | cons d r =>
      obtain ⟨-, hr⟩ := List.cons.inj hr
      exact .inr ⟨r, t, (List.append_assoc ..).trans hr.symm⟩

/-- A text without the bar that occurs among joined parts occurs in one of them. -/
lemma exists_part_of_infix {w : List Char} (hw : '|' ∉ w) (hne : w ≠ []) {l : List (List Char)}
    (h : w <:+: ['|'].intercalate l) : ∃ part ∈ l, w <:+: part := by
  induction l with
  | nil => exact absurd (List.infix_nil.mp h) hne
  | cons a l ih =>
    cases l with
    | nil =>
      rw [List.intercalate_singleton] at h
      exact ⟨a, List.mem_singleton_self _, h⟩
    | cons b l =>
      rw [List.intercalate_cons_cons, List.append_assoc, List.singleton_append] at h
      rcases infix_append_cons hw h with hin | hin
      · exact ⟨a, List.mem_cons_self .., hin⟩
      · obtain ⟨part, hpart, hin⟩ := ih hin
        exact ⟨part, List.mem_cons_of_mem _ hpart, hin⟩

/-- Every part occurs in what is joined. -/
lemma infix_intercalate {c : Char} {a : List Char} {l : List (List Char)} (h : a ∈ l) :
    a <:+: [c].intercalate l := by
  induction l with
  | nil => cases h
  | cons b l ih =>
    cases l with
    | nil =>
      obtain rfl := List.mem_singleton.mp h
      rw [List.intercalate_singleton]
    | cons b' l =>
      rw [List.intercalate_cons_cons]
      rcases List.mem_cons.mp h with rfl | h
      · exact ⟨[], [c] ++ [c].intercalate (b' :: l), by simp⟩
      · exact (ih h).trans (List.suffix_append _ _).isInfix

lemma notMem_dimension (d : IdentityDimension) : '=' ∉ d.text.toList ∧ '|' ∉ d.text.toList := by
  cases d <;> decide

lemma notMem_intercalate {values : List String} {c : Char} (hc : c ≠ ',')
    (h : ∀ v ∈ values, c ∉ v.toList) : c ∉ (",".intercalate values).toList := by
  induction values with
  | nil => simp
  | cons v values ih =>
    obtain ⟨hv, hvalues⟩ := List.forall_mem_cons.mp h
    cases values with
    | nil => simpa using hv
    | cons w values =>
      rw [String.intercalate_cons_cons, String.toList_append, String.toList_append]
      simp only [List.mem_append, not_or]
      exact ⟨⟨hv, by simpa using hc⟩, ih hvalues⟩

variable {dv dw : IdentityDimension × List String}

lemma part_toList (dv : IdentityDimension × List String) :
    (part dv).toList = dv.1.text.toList ++ '=' :: (",".intercalate dv.2).toList := by
  simp [part]

lemma notMem_part (h : ∀ v ∈ dv.2, PlainText v) : '|' ∉ (part dv).toList := by
  rw [part_toList, List.mem_append, List.mem_cons, not_or, not_or]
  exact ⟨(notMem_dimension dv.1).2, by decide, notMem_intercalate (by decide) fun v hv => (h v hv).2.1⟩

/-- Only the part of the project dimension has its key in it. -/
lemma project_of_infix (h : ∀ v ∈ dv.2, PlainText v)
    (hin : "project=".toList <:+: (part dv).toList) : dv.1 = .project := by
  obtain ⟨s, t, heq⟩ := hin
  have hsplit : "project=".toList = "project".toList ++ ['='] := rfl
  rw [part_toList, hsplit, ← List.append_assoc, List.append_assoc, List.singleton_append] at heq
  have hvalues := notMem_intercalate (by decide : '=' ≠ ',') fun v hv => (h v hv).2.2
  have hkey := (notMem_dimension dv.1).1
  have hbefore : '=' ∉ s ++ "project".toList := by
    intro hmem
    have hcount := congrArg (List.count '=') heq
    have hpos := List.count_pos_iff.mpr hmem
    simp only [List.count_append, List.count_cons_self, List.count_eq_zero_of_not_mem hkey,
      List.count_eq_zero_of_not_mem hvalues] at hcount hpos
    omega
  have hsuffix : "project".toList <:+ dv.1.text.toList :=
    ⟨s, (append_cons_inj hbefore hkey heq).1⟩
  cases hd : dv.1 with
  | project => rfl
  | tenant  =>
    rw [hd] at hsuffix
    exact absurd hsuffix (by decide)
  | user    =>
    rw [hd] at hsuffix
    exact absurd hsuffix (by decide)
  | agent   =>
    rw [hd] at hsuffix
    exact absurd hsuffix (by decide)
  | session =>
    rw [hd] at hsuffix
    exact absurd hsuffix (by decide)

/-- A part determines its dimension and its values. -/
lemma part_inj (hv : ∀ v ∈ dv.2, PlainText v) (hw : ∀ v ∈ dw.2, PlainText v) (hne : dv.2 ≠ [])
    (hne' : dw.2 ≠ []) (h : part dv = part dw) : dv = dw := by
  have hchars := congrArg String.toList h
  rw [part_toList, part_toList] at hchars
  obtain ⟨hkey, hvalues⟩ :=
    append_cons_inj (notMem_dimension dv.1).1 (notMem_dimension dw.1).1 hchars
  refine Prod.ext ?_ (intercalate_inj rfl hne hne' (fun v hmem => (hv v hmem).1)
    (fun v hmem => (hw v hmem).1) (String.toList_injective hvalues))
  have htext : dv.1.text = dw.1.text := String.toList_injective hkey
  cases hd : dv.1 <;> cases hd' : dw.1 <;> rw [hd, hd'] at htext <;>
    first | rfl | exact absurd htext (by decide)

section Trusted

variable {i j : IdentityScope py}

lemma named_plain (h : x.Plain) (hi : x.identity = some i) :
    ∀ dv ∈ x.named i, dv.2 ≠ [] ∧ ∀ v ∈ dv.2, PlainText v := by
  intro dv hdv
  rcases List.mem_append.mp hdv with hdv | hdv
  · obtain ⟨hne, hvalues⟩ := IdentityScope.mem_asDict.mp (Prod.eta dv ▸ hdv : (dv.1, dv.2) ∈ i.asDict)
    rw [hvalues]
    exact ⟨mt FrozenSet.sorted_eq_nil_iff.mp hne, fun v hv => h.1 i hi dv.1 v hv⟩
  · split_ifs at hdv with hproject
    · obtain rfl := List.mem_singleton.mp hdv
      refine ⟨List.cons_ne_nil _ _, fun v hv => ?_⟩
      obtain rfl := List.mem_singleton.mp hv
      cases hp : x.project with
      | none   => exact absurd (by rw [hp]; rfl) hproject.1
      | some p => exact h.2 p hp
    · cases hdv

/-- With plain identifiers the project is among the parts where the identity names one. -/
lemma contains_project_iff (h : x.Plain) (hi : x.identity = some i) :
    contains ("|".intercalate (identityParts i)) "project=" = true ↔ i.values .project ≠ ∅ := by
  rw [contains, decide_eq_true_eq]
  constructor
  · intro hin
    rw [String.toList_intercalate] at hin
    obtain ⟨text, htext, hin⟩ := exists_part_of_infix (by decide) (by decide) hin
    obtain ⟨part', hpart, rfl⟩ := List.mem_map.mp htext
    obtain ⟨dv, hdv, rfl⟩ := List.mem_map.mp hpart
    have hplain := (named_plain h hi dv (List.mem_append_left _ hdv)).2
    have hproject := project_of_infix hplain hin
    rw [← hproject]
    exact (IdentityScope.mem_asDict.mp (Prod.eta dv ▸ hdv : (dv.1, dv.2) ∈ i.asDict)).1
  · intro hne
    rw [String.toList_intercalate]
    have hpart : part (.project, (i.values .project).sorted) ∈ identityParts i :=
      List.mem_map_of_mem (IdentityScope.mem_asDict.mpr ⟨hne, rfl⟩)
    refine List.IsInfix.trans ?_ (infix_intercalate (List.mem_map_of_mem hpart))
    have hkey : "project=".toList = "project".toList ++ ['='] := rfl
    rw [part_toList, hkey]
    exact ⟨[], (",".intercalate (i.values .project).sorted).toList, by simp [IdentityDimension.text]⟩

/-- With plain identifiers the parts are those of what the call names. -/
lemma parts_eq (h : x.Plain) (hi : x.identity = some i) : x.parts i = (x.named i).map part := by
  have hcontains := contains_project_iff h hi
  unfold parts named
  by_cases hproject : i.values .project = ∅
  · have hnot : ¬ contains ("|".intercalate (identityParts i)) "project=" = true :=
      fun hin => hcontains.mp hin hproject
    by_cases hempty : x.project.getD "" = ""
    · simp [hempty, identityParts]
    · rw [if_pos ⟨hempty, hnot⟩, if_pos ⟨hempty, hproject⟩, List.map_append]
      simp [identityParts, part, IdentityDimension.text]
  · rw [if_neg fun hused => hused.2 (hcontains.mpr hproject), if_neg fun hused => hproject hused.2,
      List.append_nil]
    rfl

/-- Plain calls with identities have one marker exactly if they name the same. -/
lemma pieces_eq_iff_named (hplain : x.Plain) (hplain' : y.Plain) (hi : x.identity = some i)
    (hj : y.identity = some j) :
    pieces '|' (x.joinedParts i) = pieces '|' (y.joinedParts j) ↔ x.named i = y.named j := by
  have hnamed := named_plain hplain hi
  have hnamed' := named_plain hplain' hj
  -- no bar is left in the parts, which are therefore the pieces
  have hbar {x : ScopedCall py} {i : IdentityScope py} (hplain : x.Plain) (hi : x.identity = some i) :
      ∀ text ∈ x.joinedParts i, '|' ∉ text.toList := by
    intro text htext
    unfold joinedParts at htext
    split_ifs at htext
    · rw [List.mem_singleton.mp htext]
      decide
    · rw [parts_eq hplain hi] at htext
      obtain ⟨dv, hdv, rfl⟩ := List.mem_map.mp htext
      exact notMem_part (named_plain hplain hi dv hdv).2
  have howner (dv : IdentityDimension × List String) : part dv ≠ "single_owner" := by
    intro heq
    have hmem : '=' ∈ (part dv).toList := by
      rw [part_toList]
      exact List.mem_append_right _ (List.mem_cons_self ..)
    rw [heq] at hmem
    exact absurd hmem (by decide)
  rw [pieces_eq_map (hbar hplain hi), pieces_eq_map (hbar hplain' hj),
    List.map_injective_iff.mpr (fun _ _ => String.toList_injective) |>.eq_iff]
  unfold joinedParts
  rw [parts_eq hplain hi, parts_eq hplain' hj]
  constructor
  · intro h
    simp only [List.map_eq_nil_iff] at h
    split_ifs at h with hx hy hy
    · rw [hx, hy]
    · obtain ⟨dw, hdw⟩ := List.exists_mem_of_ne_nil _ hy
      have hmem := h ▸ List.mem_map_of_mem hdw
      exact absurd (List.mem_singleton.mp hmem) (howner dw)
    · obtain ⟨dv, hdv⟩ := List.exists_mem_of_ne_nil _ hx
      have hmem := h ▸ List.mem_map_of_mem hdv
      exact absurd (List.mem_singleton.mp hmem) (howner dv)
    · exact eq_of_map_eq (fun dv hdv dw hdw => part_inj (hnamed dv hdv).2 (hnamed' dw hdw).2
        (hnamed dv hdv).1 (hnamed' dw hdw).1) h
  · intro h
    rw [h]

end Trusted

/-! ### Separate buckets -/

variable {limit : ℕ} {kind : ConceptEvidenceType} {memory memory' : ConceptMemory} {rows : List Row}
  {marker other : String}

/-- Remembering under one marker leaves the buckets of the others. -/
lemma buckets_rememberAll (hne : other ≠ marker)
    (h : rememberAll py limit kind marker memory rows = .ok memory') :
    memory'.buckets other = memory.buckets other := by
  induction rows generalizing memory with
  | nil =>
    cases h
    rfl
  | cons row rows ih =>
    obtain ⟨next, hnext, hrest⟩ := bind_eq_ok.mp h
    rw [ih hrest]
    rcases remember_cases hnext with rfl | ⟨item, rfl⟩
    · rfl
    · exact Function.update_of_ne hne ..

/-- Two calls have different markers exactly if they are not blurred, and then the evidence of one
stays out of the bucket of the other. Calls with trusted identities, and no restriction of the
authority, whose identifiers and projects have no delimiters in them have different markers exactly
if they name different identifiers. -/
theorem scopeMarker_ne_iff (hsha : Set.InjOn py.sha256 (digestTexts x y)) :
    (x.scopeMarker ≠ y.scopeMarker ↔ ¬ Blurred x y) ∧
      (¬ Blurred x y → ∀ limit kind memory rows memory',
        rememberAll py limit kind x.scopeMarker memory rows = .ok memory' →
          memory'.buckets y.scopeMarker = memory.buckets y.scopeMarker) ∧
      ∀ i j, x.restriction = none → y.restriction = none → x.identity = some i →
        y.identity = some j → x.Plain → y.Plain →
          (x.scopeMarker ≠ y.scopeMarker ↔ x.named i ≠ y.named j) := by
  have hiff := scopeMarker_eq_iff hsha
  refine ⟨not_congr hiff, fun hnot limit kind memory rows memory' h => ?_, ?_⟩
  · exact buckets_rememberAll (fun heq => hnot (hiff.mp heq.symm)) h
  · intro i j hx hy hi hj hplain hplain'
    rw [ne_eq, hiff, ne_eq, ← pieces_eq_iff_named hplain hplain' hi hj]
    refine not_congr ⟨?_, .trusted hx hy hi hj⟩
    rintro (⟨hx'⟩ | ⟨-, -, hxi'⟩ | ⟨-, -, hxi', hyi', hpieces⟩)
    · cases hx.symm.trans hx'
    · cases hi.symm.trans hxi'
    · cases hi.symm.trans hxi'
      cases hj.symm.trans hyi'
      exact hpieces

/-! ### A joined identifier -/

/-- A scope of some tenants. -/
def tenantScope (tenants : FrozenSet String) (h : ∀ v ∈ tenants, Normalized measured v) :
    IdentityScope measured where
  values
    | .tenant => tenants
    | _       => ∅
  normalized d v hv := by
    cases d with
    | tenant => exact h v hv
    | _      => cases hv

/-- A call for two tenants. -/
def twoTenants : ScopedCall measured :=
  { identity := some (tenantScope (.ofList ["a", "b"]) (by decide +kernel)) }

/-- A call for one tenant, whose identifier has a comma. -/
def commaTenant : ScopedCall measured :=
  { identity := some (tenantScope (.ofList ["a,b"]) (by decide +kernel)) }

/-- The tenants differ and the markers do not. -/
theorem scopeMarker_twoTenants :
    twoTenants.identityValues .tenant ≠ commaTenant.identityValues .tenant ∧
      twoTenants.scopeMarker = commaTenant.scopeMarker := by
  decide +kernel

/-- Without a restriction nothing is digested. -/
lemma digestTexts_eq_empty (hx : x.restriction = none) (hy : y.restriction = none) :
    digestTexts x y = ∅ := by
  refine Set.eq_empty_of_forall_notMem fun text => ?_
  rintro ⟨scope, ⟨hscope, -⟩ | ⟨hscope, -⟩⟩
  · cases hx.symm.trans hscope
  · cases hy.symm.trans hscope

theorem scopeMarker_ne_iff_twoTenants :
    (twoTenants.scopeMarker ≠ commaTenant.scopeMarker ↔ ¬ Blurred twoTenants commaTenant) ∧
      (¬ Blurred twoTenants commaTenant → ∀ limit kind memory rows memory',
        rememberAll measured limit kind twoTenants.scopeMarker memory rows = .ok memory' →
          memory'.buckets commaTenant.scopeMarker = memory.buckets commaTenant.scopeMarker) ∧
      ∀ i j, twoTenants.restriction = none → commaTenant.restriction = none →
        twoTenants.identity = some i → commaTenant.identity = some j → twoTenants.Plain →
          commaTenant.Plain →
            (twoTenants.scopeMarker ≠ commaTenant.scopeMarker ↔
              twoTenants.named i ≠ commaTenant.named j) :=
  scopeMarker_ne_iff (by
    rw [digestTexts_eq_empty rfl rfl]
    exact Set.injOn_empty _)

end ScopedCall

end CyberBrain.Cognition
