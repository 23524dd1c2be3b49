import CyberBrain.Foundation.JsonReading
import CyberBrain.Foundation.Lists
import CyberBrain.Reasoning.Proposals

/-!
# Dependency paths

Validity and evidence of a path are those that all, or some, of its edges have. The key of a path
names its ends, its validity and its evidence and nothing else.
-/

namespace CyberBrain.Reasoning

open Python Relations

variable {py : Runtime}

/-! ### Validity -/

/-- An edge is valid at a time. -/
def ValidAt (e : RelationEdge py) (t : Instant) : Prop :=
  e.validFrom ≤ t ∧ ∀ u ∈ e.validUntil, t < u

lemma latest_le_iff {s t u : Instant} : latest s t ≤ u ↔ s ≤ u ∧ t ≤ u := by
  show (latest s t).micros ≤ u.micros ↔ s.micros ≤ u.micros ∧ t.micros ≤ u.micros
  unfold latest
  split_ifs with h
  · have hlt : s.micros < t.micros := h
    omega
  · have hnot : ¬ s.micros < t.micros := h
    omega

lemma lt_earliestEnd_iff {t : Instant} {a b : Option Instant} :
    (∀ u ∈ earliestEnd a b, t < u) ↔ (∀ u ∈ a, t < u) ∧ ∀ u ∈ b, t < u := by
  cases a with
  | none   => simp [earliestEnd]
  | some a =>
    cases b with
    | none   => simp [earliestEnd]
    | some b =>
      simp only [earliestEnd, Option.mem_def, Option.some.injEq, forall_eq']
      show t.micros < Instant.micros _ ↔ t.micros < a.micros ∧ t.micros < b.micros
      split_ifs with h
      · have hlt : b.micros < a.micros := h
        omega
      · have hnot : ¬ b.micros < a.micros := h
        omega

namespace BoundedReasoningEngine.Path

variable {path : Path py} {edge next : RelationEdge py}

lemma foldl_latest_le {edges : List (RelationEdge py)} {s t : Instant} :
    edges.foldl (fun from_ edge => latest from_ edge.validFrom) s ≤ t ↔
      s ≤ t ∧ ∀ e ∈ edges, e.validFrom ≤ t := by
  induction edges generalizing s with
  | nil               => simp
  | cons edge edges ih =>
    rw [List.foldl_cons, ih, latest_le_iff, List.forall_mem_cons, and_assoc]

lemma lt_foldl_earliestEnd {edges : List (RelationEdge py)} {a : Option Instant} {t : Instant} :
    (∀ u ∈ edges.foldl (fun until_ edge => earliestEnd until_ edge.validUntil) a, t < u) ↔
      (∀ u ∈ a, t < u) ∧ ∀ e ∈ edges, ∀ u ∈ e.validUntil, t < u := by
  induction edges generalizing a with
  | nil               => simp
  | cons edge edges ih =>
    rw [List.foldl_cons, ih, lt_earliestEnd_iff, List.forall_mem_cons, and_assoc]

lemma edges_eq (path : Path py) : path.edges = path.first :: path.edges.tail :=
  (List.cons_head_tail path.ne_nil).symm

/-- A time lies in the validity of a path if every edge is valid then. -/
lemma valid_iff {t : Instant} :
    path.validFrom ≤ t ∧ (∀ u ∈ path.validUntil, t < u) ↔ ∀ e ∈ path.edges, ValidAt e t := by
  rw [validFrom, validUntil, foldl_latest_le, lt_foldl_earliestEnd]
  have hfrom : (path.first.validFrom ≤ t ∧ ∀ e ∈ path.edges.tail, e.validFrom ≤ t) ↔
      ∀ e ∈ path.edges, e.validFrom ≤ t := by
    conv_rhs => rw [edges_eq path, List.forall_mem_cons]
  rw [hfrom]
  constructor
  · rintro ⟨hfrom, -, huntil⟩ e he
    exact ⟨hfrom e he, huntil e he⟩
  · intro hvalid
    exact ⟨fun e he => (hvalid e he).1, by simp, fun e he => (hvalid e he).2⟩

lemma le_refl_instant (t : Instant) : t ≤ t := Nat.le_refl _

/-- A path has not expired if it is valid at some time. -/
lemma not_expired_iff : path.expired = false ↔ ∃ t, ∀ e ∈ path.edges, ValidAt e t := by
  have hiff : path.expired = false ↔ ∀ u ∈ path.validUntil, path.validFrom < u := by
    simp [expired]
  rw [hiff]
  constructor
  · exact fun h => ⟨path.validFrom, valid_iff.mp ⟨le_refl_instant _, h⟩⟩
  · rintro ⟨t, ht⟩ u hu
    obtain ⟨hle, hlt⟩ := valid_iff.mpr ht
    exact Nat.lt_of_le_of_lt hle (hlt u hu)

/-! ### Growing -/

@[simp] lemma first_single : (single edge).first = edge := rfl

@[simp] lemma last_single : (single edge).last = edge := rfl

@[simp] lemma edges_single : (single edge).edges = [edge] := rfl

@[simp] lemma edges_add : (path.add next).edges = path.edges ++ [next] := rfl

@[simp] lemma first_add : (path.add next).first = path.first :=
  List.head_append_of_ne_nil path.ne_nil

@[simp] lemma last_add : (path.add next).last = next :=
  List.getLast_append_singleton _

lemma visited_add : (path.add next).visited = path.visited ++ [entityKey next.target] := by
  simp [visited]

lemma mem_first (path : Path py) : path.first ∈ path.edges := List.head_mem _

lemma mem_last (path : Path py) : path.last ∈ path.edges := List.getLast_mem _

lemma ext_edges {path' : Path py} (h : path.edges = path'.edges) : path = path' := by
  cases path
  cases path'
  simpa using h

/-- A path is a single edge or a shorter path with an edge. -/
lemma eq_single_or_add (path : Path py) :
    (∃ edge, path = single edge) ∨ ∃ shorter next, path = add shorter next := by
  obtain ⟨edges, hne⟩ := path
  induction edges using List.reverseRecOn with
  | nil => exact absurd rfl hne
  | append_singleton edges next _ =>
    by_cases hnil : edges = []
    · subst hnil
      exact .inl ⟨next, rfl⟩
    · exact .inr ⟨⟨edges, hnil⟩, next, rfl⟩

/-- The evidence of a path is that of its edges. -/
lemma mem_evidence {r : EvidenceRef} : r ∈ path.evidence ↔ ∃ e ∈ path.edges, r ∈ e.evidence := by
  rw [evidence, FrozenSet.mem_ofList, List.mem_flatMap]
  rfl

end BoundedReasoningEngine.Path

/-! ### Keys -/

/-- The characters of a date and time. -/
lemma mem_isoChars {t : Instant} {c : Char} (h : c ∈ t.isoChars) :
    c ∈ "0123456789-T:.".toList := by
  have hdigit {width n : ℕ} (hc : c ∈ fixedDigits 10 width n) : c ∈ "0123456789-T:.".toList := by
    obtain ⟨m, hm, rfl⟩ := exists_of_mem_fixedDigits (by decide) hc
    have hall : ∀ m < 10, Nat.digitChar m ∈ "0123456789-T:.".toList := by decide
    exact hall m hm
  simp only [Instant.isoChars, List.mem_append, List.mem_cons] at h
  rcases h with (((((h | rfl | h) | rfl | h) | rfl | h) | rfl | h) | rfl | h) | h
  all_goals first
    | exact hdigit h
    | decide
    | skip
  split_ifs at h
  · cases h
  · rcases List.mem_cons.mp h with rfl | h
    · decide
    · exact hdigit h

namespace BoundedReasoningEngine

/-- The text of a reference up to its end. -/
def referenceBody (r : EvidenceRef) : String :=
  "('" ++ r.recordType.text ++ "', '" ++ r.id.text ++ "'"

lemma referenceText_eq (r : EvidenceRef) :
    (referenceText r).toList = (referenceBody r).toList ++ [')'] := by
  simp [referenceText, referenceBody]

lemma notMem_referenceBody (r : EvidenceRef) : ')' ∉ (referenceBody r).toList := by
  have hkind : ')' ∉ r.recordType.text.toList := by cases r.recordType <;> decide
  have hid : ')' ∉ r.id.text.toList := fun h =>
    (Uuid.mem_text h).elim (fun hne => hne (by decide)) (by decide)
  simp only [referenceBody, String.toList_append, List.mem_append, not_or]
  exact ⟨⟨⟨⟨by decide, hkind⟩, by decide⟩, hid⟩, by decide⟩

lemma referenceBody_inj {r s : EvidenceRef}
    (h : (referenceBody r).toList = (referenceBody s).toList) : r = s := by
  obtain ⟨kind, id⟩ := r
  obtain ⟨kind', id'⟩ := s
  simp only [referenceBody, String.toList_append, List.append_assoc, List.append_cancel_left_eq] at h
  have hkind : kind = kind' := by
    cases kind <;> cases kind' <;> first | rfl | exact absurd (List.cons.inj h).1 (by decide)
  subst hkind
  rw [List.append_cancel_left_eq, List.append_cancel_left_eq, List.append_cancel_right_eq] at h
  rw [Uuid.text_injective (String.toList_injective h)]

/-- The texts of references, with what follows them in a list. -/
def closed : List EvidenceRef → List Char
  | []      => [']']
  | r :: rs => ',' :: ' ' :: ((referenceText r).toList ++ closed rs)

lemma joined_closed (r : EvidenceRef) (rs : List EvidenceRef) :
    (joined ((r :: rs).map referenceText)).toList ++ [']'] = (referenceText r).toList ++ closed rs := by
  induction rs generalizing r with
  | nil          => rfl
  | cons r' rs ih =>
    simp only [List.map_cons, joined, String.toList_append, List.append_assoc] at ih ⊢
    rw [ih r']
    rfl

lemma closed_inj {l m : List EvidenceRef} (h : closed l = closed m) : l = m := by
  induction l generalizing m with
  | nil       =>
    cases m with
    | nil       => rfl
    | cons s m  => exact absurd (List.cons.inj h).1 (by decide)
  | cons r l ih =>
    cases m with
    | nil       => exact absurd (List.cons.inj h).1 (by decide)
    | cons s m  =>
      obtain ⟨-, h⟩ := List.cons.inj h
      obtain ⟨-, h⟩ := List.cons.inj h
      rw [referenceText_eq, referenceText_eq, List.append_assoc, List.append_assoc] at h
      obtain ⟨hbody, hrest⟩ := append_cons_inj (notMem_referenceBody r) (notMem_referenceBody s) h
      rw [referenceBody_inj hbody, ih hrest]

/-- The text of a list of references determines it. -/
lemma listText_inj {l m : List EvidenceRef}
    (h : (listText (l.map referenceText)).toList = (listText (m.map referenceText)).toList) :
    l = m := by
  have hstart (r : EvidenceRef) (rs : List EvidenceRef) :
      (referenceText r).toList ++ closed rs ≠ [']'] := by
    intro heq
    have hhead := congrArg (fun l : List Char => l[0]?) heq
    simp [referenceText] at hhead
  simp only [listText, String.toList_append, List.append_assoc, List.append_cancel_left_eq] at h
  cases l with
  | nil       =>
    cases m with
    | nil       => rfl
    | cons s m  => exact absurd ((joined_closed s m).symm.trans h.symm) (hstart s m)
  | cons r l  =>
    cases m with
    | nil       => exact absurd ((joined_closed r l).symm.trans h) (hstart r l)
    | cons s m  =>
      have hclosed := (joined_closed r l).symm.trans (h.trans (joined_closed s m))
      exact closed_inj (congrArg (fun cs => ',' :: ' ' :: cs) hclosed)

/-- The date and time of an instant in the form that `str` prints. -/
def spacedChars (t : Instant) : List Char := t.isoChars.map fun c => if c = 'T' then ' ' else c

lemma instantText_eq (t : Instant) :
    (instantText t).toList = spacedChars t ++ ['+', '0', '0', ':', '0', '0'] := by
  simp [instantText, Instant.iso, spacedChars]

lemma mem_spacedChars {t : Instant} {c : Char} (h : c ∈ spacedChars t) :
    c ∈ "0123456789- :.".toList := by
  obtain ⟨d, hd, rfl⟩ := List.mem_map.mp h
  have hall : ("0123456789-T:.".toList.all fun d =>
      (if d = 'T' then ' ' else d) ∈ "0123456789- :.".toList) = true := by decide +kernel
  exact of_decide_eq_true (List.all_eq_true.mp hall d (mem_isoChars hd))

lemma spacedChars_inj {t u : Instant} (h : spacedChars t = spacedChars u) : t = u := by
  have hback (t : Instant) : (spacedChars t).map (fun c => if c = ' ' then 'T' else c) =
      t.isoChars := by
    rw [spacedChars, List.map_map]
    refine (List.map_congr_left fun c hc => ?_).trans (List.map_id _)
    have hall : ("0123456789-T:.".toList.all fun d =>
        (if (if d = 'T' then ' ' else d) = ' ' then 'T' else if d = 'T' then ' ' else d) = d) =
          true := by decide +kernel
    exact of_decide_eq_true (List.all_eq_true.mp hall c (mem_isoChars hc))
  exact Instant.isoChars_injective (by rw [← hback t, h, hback u])

lemma notMem_of_subset {c : Char} {l m : List Char} (hl : ∀ d ∈ l, d ∈ m) (hm : c ∉ m) : c ∉ l :=
  fun hc => hm (hl c hc)

/-- The text of an end, and what follows it, determine both. -/
lemma until_inj {a b : Option Instant} {s t : List Char}
    (h : (a.elim "None" instantText).toList ++ ':' :: s =
      (b.elim "None" instantText).toList ++ ':' :: t) : a = b ∧ s = t := by
  have hstart (u : Instant) (s t : List Char) :
      (instantText u).toList ++ ':' :: s ≠ "None".toList ++ ':' :: t := by
    intro heq
    rw [instantText_eq] at heq
    cases hchars : spacedChars u with
    | nil       =>
      rw [hchars] at heq
      exact absurd (List.cons.inj heq).1 (by decide)
    | cons c cs =>
      rw [hchars] at heq
      have hc : c ∈ spacedChars u := hchars ▸ List.mem_cons_self ..
      obtain rfl : c = 'N' := (List.cons.inj heq).1
      exact absurd (mem_spacedChars hc) (by decide)
  cases a with
  | none   =>
    cases b with
    | none   => exact ⟨rfl, (List.cons.inj (List.append_cancel_left h)).2⟩
    | some b => exact absurd h.symm (hstart b t s)
  | some a =>
    cases b with
    | none   => exact absurd h (hstart a s t)
    | some b =>
      simp only [Option.elim_some, instantText_eq, List.append_assoc] at h
      have hplus (u : Instant) : '+' ∉ spacedChars u :=
        notMem_of_subset (fun _ => mem_spacedChars) (by decide)
      obtain ⟨hab, hrest⟩ := append_cons_inj (hplus a) (hplus b) h
      change ['0', '0', ':', '0', '0', ':'] ++ s = ['0', '0', ':', '0', '0', ':'] ++ t at hrest
      exact ⟨congrArg some (spacedChars_inj hab), List.append_cancel_left hrest⟩

/-- The parts of a key whose endpoints are of one length. -/
lemma key_parts_inj {a b a' b' e e' : String} {t t' : Instant} {u u' : Option Instant}
    (ha : a.toList.length = a'.toList.length) (hb : b.toList.length = b'.toList.length)
    (h : "depends_on:" ++ (a ++ "->" ++ b) ++ ":" ++ t.iso ++ ":" ++ u.elim "None" instantText ++ ":" ++
      e = "depends_on:" ++ (a' ++ "->" ++ b') ++ ":" ++ t'.iso ++ ":" ++ u'.elim "None" instantText ++
        ":" ++ e') :
    a = a' ∧ b = b' ∧ t = t' ∧ u = u' ∧ e.toList = e'.toList := by
  have hplus (t : Instant) : '+' ∉ t.isoChars := notMem_of_subset (fun _ => mem_isoChars) (by decide)
  have hchars := congrArg String.toList h
  simp only [String.toList_append, List.append_assoc, Instant.iso, String.toList_ofList] at hchars
  obtain ⟨hsource, hchars⟩ := List.append_inj (List.append_cancel_left hchars) ha
  obtain ⟨htarget, hchars⟩ := List.append_inj (List.append_cancel_left hchars) hb
  obtain ⟨hfrom, hchars⟩ := append_cons_inj (hplus _) (hplus _) (List.append_cancel_left hchars)
  change ['0', '0', ':', '0', '0', ':'] ++ _ = ['0', '0', ':', '0', '0', ':'] ++ _ at hchars
  obtain ⟨huntil, hevidence⟩ := until_inj (List.append_cancel_left hchars)
  exact ⟨String.toList_injective hsource, String.toList_injective htarget,
    Instant.isoChars_injective hfrom, huntil, hevidence⟩

/-- The key of a path determines its ends, its validity and its evidence. -/
lemma transitiveKey_inj (hhex : HexDigests py) {p q : Path py}
    (h : transitiveKey p = transitiveKey q) :
    p.first.source.key = q.first.source.key ∧ p.last.target.key = q.last.target.key ∧
      p.validFrom = q.validFrom ∧ p.validUntil = q.validUntil ∧ p.evidence = q.evidence := by
  have hkey (e e' : EntityRef py) : e.key.toList.length = e'.key.toList.length :=
    (hhex.length _).trans (hhex.length _).symm
  obtain ⟨hsource, htarget, hfrom, huntil, hevidence⟩ := key_parts_inj (hkey _ _) (hkey _ _) h
  refine ⟨hsource, htarget, hfrom, huntil, FrozenSet.ext fun r => ?_⟩
  rw [FrozenSet.mem_def, FrozenSet.mem_def, listText_inj hevidence]

end BoundedReasoningEngine

end CyberBrain.Reasoning
