import CyberBrain.Reasoning.Transitivity
import CyberBrain.Relations.RoundTrip

/-!
# Counterfactual consistency

Two edges conflict if they hold at one time and one asserts what the other denies, or if they are
causes of each other. An evaluation compares the hypothetical edges with the base edges and with
each other, and keeps one conflict for a pair of relation ids.
-/

namespace CyberBrain.Reasoning.BoundedReasoningEngine

open Python Relations

variable {py : Runtime} {engine : BoundedReasoningEngine} {edges hypothetical base : List (RelationEdge py)}
  {a b : RelationEdge py} {type : ConflictType} {c : ContradictionConflict py}

/-! ### Conflicts -/

/-- Edges between the same entities, in one direction or the other. -/
def SameEnds (a b : RelationEdge py) : Prop :=
  a.source = b.source ∧ a.target = b.target ∨ a.source = b.target ∧ a.target = b.source

/-- One edge is of a kind and the other contradicts. -/
def Opposed (kind : RelationKind) (a b : RelationEdge py) : Prop :=
  a.kind = kind ∧ b.kind = .contradicts ∨ a.kind = .contradicts ∧ b.kind = kind

/-- What edges assert against each other. -/
def Disagree (a b : RelationEdge py) : ConflictType → Prop
  | .polarityMismatch    => SameEnds a b ∧ Opposed .supports a b
  | .directContradiction => SameEnds a b ∧ Opposed .partOf a b
  | .causalCycle         =>
    a.kind = .causes ∧ b.kind = .causes ∧ a.source = b.target ∧ a.target = b.source

/-- Edges that were not rejected, and hold at one time, conflict. -/
structure ConflictOf (type : ConflictType) (a b : RelationEdge py) : Prop where
  left : a.status ≠ .rejected
  right : b.status ≠ .rejected
  overlap : ∃ t, ValidAt a t ∧ ValidAt b t
  disagree : Disagree a b type

lemma Disagree.symm (h : Disagree a b type) : Disagree b a type := by
  have hends (hsame : SameEnds a b) : SameEnds b a := by
    rcases hsame with ⟨hsource, htarget⟩ | ⟨hsource, htarget⟩
    · exact .inl ⟨hsource.symm, htarget.symm⟩
    · exact .inr ⟨htarget.symm, hsource.symm⟩
  have hopposed {kind : RelationKind} (hkind : Opposed kind a b) : Opposed kind b a :=
    hkind.symm.imp And.symm And.symm
  cases type with
  | polarityMismatch    => exact ⟨hends h.1, hopposed h.2⟩
  | directContradiction => exact ⟨hends h.1, hopposed h.2⟩
  | causalCycle         =>
    obtain ⟨ha, hb, hsource, htarget⟩ := h
    exact ⟨hb, ha, htarget.symm, hsource.symm⟩

lemma ConflictOf.symm (h : ConflictOf type a b) : ConflictOf type b a where
  left := h.right
  right := h.left
  overlap := h.overlap.imp fun _ => And.symm
  disagree := h.disagree.symm

/-- No edge conflicts with itself. -/
lemma not_conflictOf_self : ¬ ConflictOf type a a := by
  intro h
  have hkind {kind : RelationKind} (hne : kind ≠ .contradicts) : ¬ Opposed kind a a := by
    rintro (⟨hk, hc⟩ | ⟨hc, hk⟩) <;> exact hne (hk.symm.trans hc)
  cases type with
  | polarityMismatch    => exact hkind (by decide) h.disagree.2
  | directContradiction => exact hkind (by decide) h.disagree.2
  | causalCycle         => exact a.not_self (congrArg _ h.disagree.2.2.1)

/-! ### What the scan compares -/

/-- The texts that are digested for some edges: their endpoints and their identities. -/
def digestTexts (edges : List (RelationEdge py)) : Set String :=
  endpointTexts edges ∪ {text | ∃ e ∈ edges, text = canonicalJson py e.identity}

lemma endpointKey_inj (hhex : HexDigests py) {source target source' target' : EntityRef py} :
    endpointKey source target = endpointKey source' target' ↔
      source.key = source'.key ∧ target.key = target'.key := by
  constructor
  · intro h
    have hchars := congrArg String.toList h
    simp only [endpointKey, String.toList_append, List.append_assoc] at hchars
    obtain ⟨hsource, htarget⟩ := List.append_inj hchars
      ((hhex.length _).trans (hhex.length _).symm)
    exact ⟨String.toList_injective hsource,
      String.toList_injective (List.append_cancel_left htarget)⟩
  · rintro ⟨hsource, htarget⟩
    rw [endpointKey, endpointKey, hsource, htarget]

namespace RelationPair

lemma overlap_iff : RelationPair.overlap a b = true ↔ ∃ t, ValidAt a t ∧ ValidAt b t := by
  have hiff : RelationPair.overlap a b = true ↔
      ∀ e ∈ earliestEnd a.validUntil b.validUntil, latest a.validFrom b.validFrom < e := by
    rw [RelationPair.overlap]
    cases earliestEnd a.validUntil b.validUntil <;> simp
  rw [hiff]
  constructor
  · intro h
    obtain ⟨ha, hb⟩ := latest_le_iff.mp (Path.le_refl_instant (latest a.validFrom b.validFrom))
    obtain ⟨hua, hub⟩ := lt_earliestEnd_iff.mp h
    exact ⟨_, ⟨ha, hua⟩, hb, hub⟩
  · rintro ⟨t, ⟨ha, hua⟩, hb, hub⟩ e he
    exact Nat.lt_of_le_of_lt (latest_le_iff.mpr ⟨ha, hb⟩) (lt_earliestEnd_iff.mpr ⟨hua, hub⟩ e he)

section Keys

variable (hhex : HexDigests py) (hsha : Set.InjOn py.sha256 (digestTexts edges)) (ha : a ∈ edges)
  (hb : b ∈ edges)
include hhex hsha ha hb

/-- Keys of endpoints stand for the endpoints. -/
lemma endpointKey_iff {source target source' target' : EntityRef py}
    (hsource : source = a.source ∨ source = a.target) (htarget : target = a.source ∨ target = a.target)
    (hsource' : source' = b.source ∨ source' = b.target)
    (htarget' : target' = b.source ∨ target' = b.target) :
    endpointKey source target = endpointKey source' target' ↔ source = source' ∧ target = target' := by
  have hends := hsha.mono (Set.subset_union_left (s := endpointTexts edges)
    (t := {text | ∃ e ∈ edges, text = canonicalJson py e.identity}))
  rw [endpointKey_inj hhex]
  constructor
  · rintro ⟨hs, ht⟩
    exact ⟨endpoint_inj hends ha hb hsource hsource' hs, endpoint_inj hends ha hb htarget htarget' ht⟩
  · rintro ⟨rfl, rfl⟩
    exact ⟨rfl, rfl⟩

lemma sameEndpoints_iff : RelationPair.sameEndpoints a b = true ↔ SameEnds a b := by
  rw [RelationPair.sameEndpoints, decide_eq_true_eq,
    endpointKey_iff hhex hsha ha hb (.inl rfl) (.inr rfl) (.inl rfl) (.inr rfl),
    endpointKey_iff hhex hsha ha hb (.inl rfl) (.inr rfl) (.inr rfl) (.inl rfl)]
  rfl

lemma mem_failedChecks : type ∈ RelationPair.failedChecks a b ↔ Disagree a b type := by
  have hends := sameEndpoints_iff hhex hsha ha hb
  have hcycle := endpointKey_iff hhex hsha ha hb (.inl rfl) (.inr rfl) (.inr rfl) (.inl rfl)
  have hagainst (kind : RelationKind) : RelationPair.against a b kind = true ↔ Opposed kind a b := by
    rw [RelationPair.against, decide_eq_true_eq]
    rfl
  have hmem {p : Prop} [Decidable p] {t u : ConflictType} :
      t ∈ (if p then [u] else []) ↔ p ∧ t = u := by
    rw [List.mem_ite_nil_right, List.mem_singleton]
  rw [RelationPair.failedChecks, List.mem_append, List.mem_append, hmem, hmem, hmem, hends,
    hagainst, hagainst, hcycle]
  cases type <;> simp [Disagree]

omit hhex in
/-- Edges that conflict assert different things. -/
lemma relationId_ne (h : Disagree a b type) : a.relationId ≠ b.relationId := by
  intro heq
  obtain ⟨hkind, hpoints⟩ := RelationEdge.identity_inj (sortKeys_eq_of_fingerprint hsha
    (.inr ⟨a, ha, rfl⟩) (.inr ⟨b, hb, rfl⟩) heq)
  have hopposed {kind : RelationKind} (hne : kind ≠ .contradicts) : ¬ Opposed kind a b := by
    rintro (⟨hk, hc⟩ | ⟨hc, hk⟩)
    · exact hne (hk.symm.trans (hkind.trans hc))
    · exact hne (hk.symm.trans (hkind.symm.trans hc))
  cases type with
  | polarityMismatch    => exact hopposed (by decide) h.2
  | directContradiction => exact hopposed (by decide) h.2
  | causalCycle         =>
    obtain ⟨hcauses, hcauses', hsource, htarget⟩ := h
    rw [RelationEdge.endpoints, RelationEdge.endpoints, hcauses, hcauses',
      if_neg (by decide), if_neg (by decide), hsource] at hpoints
    exact b.not_self (List.cons.inj hpoints).1.symm

/-- The conflicts that are found between an edge that was not rejected and another one. -/
lemma mem_conflicts (hstatus : a.status ≠ .rejected) : c ∈ RelationPair.conflicts a b ↔
    ∃ type, ConflictOf type a b ∧ RelationPair.conflict a b type = c := by
  unfold RelationPair.conflicts
  split_ifs with hskip hsame
  · simp only [List.not_mem_nil, false_iff, not_exists, not_and]
    intro type h
    rcases hskip with hrejected | hoverlap
    · exact absurd hrejected h.right
    · rw [← Bool.not_eq_true, overlap_iff] at hoverlap
      exact absurd h.overlap hoverlap
  · simp only [List.not_mem_nil, false_iff, not_exists, not_and]
    exact fun type h => absurd hsame.2 (relationId_ne hsha ha hb h.disagree)
  · obtain ⟨hrejected, hoverlap⟩ := not_or.mp hskip
    rw [List.mem_map]
    refine exists_congr fun type => and_congr_left fun _ => ?_
    rw [mem_failedChecks hhex hsha ha hb]
    exact ⟨fun h => ⟨hstatus, hrejected, overlap_iff.mp (by simpa using hoverlap), h⟩,
      fun h => h.disagree⟩

end Keys

end RelationPair

/-! ### Scans -/

/-- Within the budget an edge is compared with all others. -/
lemma compareWith_within {comparisons n : ℕ} {found : List (ContradictionConflict py)}
    (h : engine.compareWith a comparisons edges = (found, n, false)) :
    found = edges.flatMap (RelationPair.conflicts a) := by
  induction edges generalizing comparisons found with
  | nil =>
    cases h
    rfl
  | cons b edges ih =>
    rw [compareWith] at h
    split_ifs at h with hexceeded
    · cases h
    · obtain ⟨rfl, hrest⟩ := Prod.mk.inj h
      rw [List.flatMap_cons, ← ih (Prod.ext rfl hrest)]

/-- Within the budget every edge that was not rejected is compared with all others. -/
lemma compareAll_within {comparisons : ℕ} {candidates : List (RelationEdge py)}
    {found : List (ContradictionConflict py)}
    (h : engine.compareAll edges comparisons candidates = (found, false)) :
    found = (eligible candidates).flatMap fun a => edges.flatMap (RelationPair.conflicts a) := by
  induction candidates generalizing comparisons found with
  | nil =>
    cases h
    rfl
  | cons a candidates ih =>
    rw [compareAll] at h
    split_ifs at h with hrejected
    · rw [eligible, List.filter_cons_of_neg (by simpa using hrejected)]
      exact ih h
    · cases hscan : engine.compareWith a comparisons edges with
      | mk conflicts rest =>
        obtain ⟨n, exceeded⟩ := rest
        rw [hscan] at h
        cases exceeded with
        | true  => cases h
        | false =>
          obtain ⟨rfl, hrest⟩ := Prod.mk.inj h
          rw [eligible, List.filter_cons_of_pos (by simpa using hrejected), List.flatMap_cons,
            compareWith_within hscan]
          exact congrArg _ (ih (Prod.ext rfl hrest))

/-- What is found within the budget: the conflicts between candidates and existing edges. -/
lemma mem_detected (hhex : HexDigests py) {candidates : List (RelationEdge py)}
    (hsha : Set.InjOn py.sha256 (digestTexts edges)) (hcandidates : ∀ e ∈ candidates, e ∈ edges)
    {existing : List (RelationEdge py)} (hexisting : ∀ e ∈ existing, e ∈ edges)
    {found : List (ContradictionConflict py)}
    (h : engine.detectContradictionsBounded candidates existing = (found, false)) :
    c ∈ found ↔ ∃ a ∈ candidates, ∃ b ∈ existing, ∃ type, ConflictOf type a b ∧
      RelationPair.conflict a b type = c := by
  rw [compareAll_within h]
  simp only [List.mem_flatMap, eligible, List.mem_filter, decide_eq_true_eq]
  constructor
  · rintro ⟨a, ⟨ha, hstatus⟩, b, hb, hc⟩
    exact ⟨a, ha, b, hb, (RelationPair.mem_conflicts hhex hsha (hcandidates a ha) (hexisting b hb)
      hstatus).mp hc⟩
  · rintro ⟨a, ha, b, hb, type, hconflict, hc⟩
    exact ⟨a, ⟨ha, hconflict.left⟩, b, hb, (RelationPair.mem_conflicts hhex hsha (hcandidates a ha)
      (hexisting b hb) hconflict.left).mpr ⟨type, hconflict, hc⟩⟩

/-! ### Symmetry -/

/-- What is detected between two edges, with the edge that is named first. -/
def detected (engine : BoundedReasoningEngine) (a b : RelationEdge py) :
    List (ConflictType × RelationEdge py × RelationEdge py) :=
  (engine.detectContradictionsBounded [a] [b]).1.map fun c =>
    (c.conflictType, c.sourceEdge, c.conflictingEdge)

/-- What is detected between two edges: what the comparison of the two finds. -/
lemma detected_eq (a b : RelationEdge py) : engine.detected a b =
    if a.status = .rejected ∨ engine.maxComparisons < 1 then []
    else (RelationPair.conflicts a b).map fun c =>
      (c.conflictType, c.sourceEdge, c.conflictingEdge) := by
  by_cases hrejected : a.status = .rejected
  · simp [detected, detectContradictionsBounded, compareAll, hrejected]
  · by_cases hbudget : engine.maxComparisons < 1
    · simp [detected, detectContradictionsBounded, compareAll, compareWith, hrejected, hbudget]
    · simp [detected, detectContradictionsBounded, compareAll, compareWith, hrejected, hbudget]

lemma failedChecks_comm (hhex : HexDigests py) (a b : RelationEdge py) :
    RelationPair.failedChecks a b = RelationPair.failedChecks b a := by
  have hends : RelationPair.sameEndpoints a b = RelationPair.sameEndpoints b a := by
    simp only [RelationPair.sameEndpoints, endpointKey_inj hhex]
    exact decide_eq_decide.mpr ⟨fun h => h.imp (fun ⟨hs, ht⟩ => ⟨hs.symm, ht.symm⟩)
        fun ⟨hs, ht⟩ => ⟨ht.symm, hs.symm⟩,
      fun h => h.imp (fun ⟨hs, ht⟩ => ⟨hs.symm, ht.symm⟩) fun ⟨hs, ht⟩ => ⟨ht.symm, hs.symm⟩⟩
  have hagainst (kind : RelationKind) :
      RelationPair.against a b kind = RelationPair.against b a kind := by
    simp only [RelationPair.against]
    exact decide_eq_decide.mpr ⟨fun h => h.symm.imp And.symm And.symm,
      fun h => h.symm.imp And.symm And.symm⟩
  have hcycle : (a.kind = .causes ∧ b.kind = .causes ∧
      endpointKey a.source a.target = endpointKey b.target b.source) ↔
      b.kind = .causes ∧ a.kind = .causes ∧
        endpointKey b.source b.target = endpointKey a.target a.source := by
    rw [endpointKey_inj hhex, endpointKey_inj hhex]
    constructor <;> exact fun ⟨hk, hk', hs, ht⟩ => ⟨hk', hk, ht.symm, hs.symm⟩
  rw [RelationPair.failedChecks, RelationPair.failedChecks, hends, hagainst, hagainst]
  simp only [hcycle]

/-- Detection is symmetric: the other way round it finds the same, the other way round. -/
lemma detected_comm (hhex : HexDigests py) (engine : BoundedReasoningEngine)
    (a b : RelationEdge py) :
    engine.detected b a = (engine.detected a b).map fun c => (c.1, c.2.2, c.2.1) := by
  have hoverlap : RelationPair.overlap b a = RelationPair.overlap a b := by
    rw [Bool.eq_iff_iff, RelationPair.overlap_iff, RelationPair.overlap_iff]
    exact exists_congr fun _ => and_comm
  have hsame : (a.relationId ≠ "" ∧ a.relationId = b.relationId) ↔
      b.relationId ≠ "" ∧ b.relationId = a.relationId := by
    constructor <;> exact fun ⟨hne, heq⟩ => ⟨heq ▸ hne, heq.symm⟩
  rw [detected_eq, detected_eq]
  unfold RelationPair.conflicts
  simp only [hoverlap, hsame, failedChecks_comm hhex b a]
  by_cases ha : a.status = .rejected
  · simp [ha]
  · by_cases hb : b.status = .rejected
    · simp [hb]
    · simp only [ha, hb, false_or]
      split_ifs <;> simp [Function.comp_def, RelationPair.conflict]

/-! ### Conflicts within the hypothetical edges -/

/-- A conflict of a type between relations of two ids, in one order or the other. -/
def Represents (c : ContradictionConflict py) (type : ConflictType) (a b : RelationEdge py) : Prop :=
  c.conflictType = type ∧
    (c.sourceEdge.relationId = a.relationId ∧ c.conflictingEdge.relationId = b.relationId ∨
      c.sourceEdge.relationId = b.relationId ∧ c.conflictingEdge.relationId = a.relationId)

variable {seen : List (ConflictType × String × String)} {cs : List (ContradictionConflict py)}

lemma mem_of_mem_addInternal (h : c ∈ addInternal seen cs) : c ∈ cs := by
  induction cs generalizing seen with
  | nil          => exact h
  | cons c' cs ih =>
    rw [addInternal] at h
    split_ifs at h
    · exact (List.mem_cons.mp h).elim (fun heq => heq ▸ List.mem_cons_self ..)
        fun hin => List.mem_cons_of_mem _ (ih hin)
    · exact List.mem_cons_of_mem _ (ih h)

/-- A conflict is known, or one with its key is added. -/
lemma known_or_added (h : c ∈ cs) : conflictKey c ∈ seen ∨ reversedConflictKey c ∈ seen ∨
    ∃ c' ∈ addInternal seen cs, conflictKey c' = conflictKey c ∨
      conflictKey c' = reversedConflictKey c := by
  induction cs generalizing seen with
  | nil          => cases h
  | cons c' cs ih =>
    rw [addInternal]
    split_ifs with hnew
    · rcases List.mem_cons.mp h with rfl | hin
      · exact .inr (.inr ⟨c, List.mem_cons_self .., .inl rfl⟩)
      · rcases @ih (conflictKey c' :: seen) hin with hknown | hknown | ⟨c₂, hc₂, hkey⟩
        · rcases List.mem_cons.mp hknown with heq | hknown
          · exact .inr (.inr ⟨c', List.mem_cons_self .., .inl heq.symm⟩)
          · exact .inl hknown
        · rcases List.mem_cons.mp hknown with heq | hknown
          · exact .inr (.inr ⟨c', List.mem_cons_self .., .inr heq.symm⟩)
          · exact .inr (.inl hknown)
        · exact .inr (.inr ⟨c₂, List.mem_cons_of_mem _ hc₂, hkey⟩)
    · rcases List.mem_cons.mp h with rfl | hin
      · rcases not_and_or.mp hnew with hknown | hknown
        · exact .inl (not_not.mp hknown)
        · exact .inr (.inl (not_not.mp hknown))
      · exact ih hin

lemma represents_of_key {c' : ContradictionConflict py}
    (h : conflictKey c' = conflictKey c ∨ conflictKey c' = reversedConflictKey c) :
    Represents c' c.conflictType c.sourceEdge c.conflictingEdge := by
  rcases h with h | h
  · obtain ⟨htype, hids⟩ := Prod.mk.inj h
    exact ⟨htype, .inl (Prod.mk.inj hids)⟩
  · obtain ⟨htype, hids⟩ := Prod.mk.inj h
    exact ⟨htype, .inr (Prod.mk.inj hids)⟩

/-- Every internal conflict is represented after the merge. -/
lemma exists_represents {known : List (ContradictionConflict py)} (h : c ∈ cs) :
    ∃ c' ∈ known ++ addInternal (known.map conflictKey) cs,
      Represents c' c.conflictType c.sourceEdge c.conflictingEdge := by
  rcases @known_or_added _ _ (known.map conflictKey) _ h with hknown | hknown | ⟨c', hc', hkey⟩
  · obtain ⟨c', hc', hkey⟩ := List.mem_map.mp hknown
    exact ⟨c', List.mem_append_left _ hc', represents_of_key (.inl hkey)⟩
  · obtain ⟨c', hc', hkey⟩ := List.mem_map.mp hknown
    exact ⟨c', List.mem_append_left _ hc', represents_of_key (.inr hkey)⟩
  · exact ⟨c', List.mem_append_right _ hc', represents_of_key hkey⟩

/-! ### The evaluation -/

/-- What a complete evaluation says about some hypothetical and base edges. -/
structure Exact (hypothetical base : List (RelationEdge py))
    (result : CounterfactualSandboxResult py) : Prop where
  consistent_iff : result.isConsistent = true ↔
    ∀ a ∈ hypothetical, ∀ b, b ∈ base ∨ b ∈ hypothetical → ∀ type, ¬ ConflictOf type a b
  base_listed : ∀ a ∈ hypothetical, ∀ b ∈ base, ∀ type, ConflictOf type a b →
    RelationPair.conflict a b type ∈ result.contradictions
  represented : ∀ a ∈ hypothetical, ∀ b ∈ hypothetical, ∀ type, ConflictOf type a b →
    ∃ c ∈ result.contradictions, Represents c type a b
  conflicting : ∀ c ∈ result.contradictions, c.sourceEdge ∈ hypothetical ∧
    (c.conflictingEdge ∈ base ∨ c.conflictingEdge ∈ hypothetical) ∧
      ConflictOf c.conflictType c.sourceEdge c.conflictingEdge

/-- The merge of two complete scans. -/
lemma exact_of_scans (hhex : HexDigests py)
    (hsha : Set.InjOn py.sha256 (digestTexts (base ++ hypothetical)))
    {found internal : List (ContradictionConflict py)}
    (hbase : engine.detectContradictionsBounded hypothetical base = (found, false))
    (hinternal : engine.detectContradictionsBounded hypothetical hypothetical = (internal, false))
    {result : CounterfactualSandboxResult py}
    (hcontradictions : result.contradictions =
      found ++ addInternal (found.map conflictKey) internal)
    (hconsistent : result.isConsistent = result.contradictions.isEmpty) :
    Exact hypothetical base result := by
  have hleft : ∀ e ∈ base, e ∈ base ++ hypothetical := fun e he => List.mem_append_left _ he
  have hright : ∀ e ∈ hypothetical, e ∈ base ++ hypothetical := fun e he => List.mem_append_right _ he
  have hfound (c : ContradictionConflict py) := mem_detected (c := c) hhex hsha hright hleft hbase
  have hwithin (c : ContradictionConflict py) :=
    mem_detected (c := c) hhex hsha hright hright hinternal
  have hlisted : ∀ a ∈ hypothetical, ∀ b ∈ base, ∀ type, ConflictOf type a b →
      RelationPair.conflict a b type ∈ result.contradictions := by
    intro a ha b hb type h
    rw [hcontradictions]
    exact List.mem_append_left _ ((hfound _).mpr ⟨a, ha, b, hb, type, h, rfl⟩)
  have hrepresented : ∀ a ∈ hypothetical, ∀ b ∈ hypothetical, ∀ type, ConflictOf type a b →
      ∃ c ∈ result.contradictions, Represents c type a b := by
    intro a ha b hb type h
    rw [hcontradictions]
    exact exists_represents ((hwithin (RelationPair.conflict a b type)).mpr
      ⟨a, ha, b, hb, type, h, rfl⟩)
  have hconflicting : ∀ c ∈ result.contradictions, c.sourceEdge ∈ hypothetical ∧
      (c.conflictingEdge ∈ base ∨ c.conflictingEdge ∈ hypothetical) ∧
        ConflictOf c.conflictType c.sourceEdge c.conflictingEdge := by
    intro c hc
    rw [hcontradictions] at hc
    rcases List.mem_append.mp hc with hc | hc
    · obtain ⟨a, ha, b, hb, type, h, rfl⟩ := (hfound c).mp hc
      exact ⟨ha, .inl hb, h⟩
    · obtain ⟨a, ha, b, hb, type, h, rfl⟩ := (hwithin c).mp (mem_of_mem_addInternal hc)
      exact ⟨ha, .inr hb, h⟩
  refine ⟨?_, hlisted, hrepresented, hconflicting⟩
  rw [hconsistent, List.isEmpty_iff]
  constructor
  · intro hnil a ha b hb type h
    rw [hnil] at hlisted hrepresented
    rcases hb with hb | hb
    · exact absurd (hlisted a ha b hb type h) List.not_mem_nil
    · obtain ⟨c, hc, -⟩ := hrepresented a ha b hb type h
      exact absurd hc List.not_mem_nil
  · intro hnone
    refine List.eq_nil_iff_forall_not_mem.mpr fun c hc => ?_
    obtain ⟨hsource, hother, h⟩ := hconflicting c hc
    exact hnone _ hsource _ hother _ h

/-- An evaluation returns; detection is symmetric; one that is complete is consistent exactly if no
hypothetical edge conflicts with another edge, and represents every conflict; and one that is
incomplete is not consistent. -/
theorem counterfactual_exact (engine : BoundedReasoningEngine) (hhex : HexDigests py)
    (hsha : Set.InjOn py.sha256 (digestTexts (base ++ hypothetical)))
    (hadmitted : ∀ e ∈ base ++ hypothetical, Admitted e) :
    (∀ a b : RelationEdge py,
      engine.detected b a = (engine.detected a b).map fun c => (c.1, c.2.2, c.2.1)) ∧
    ∃ result, engine.evaluateCounterfactual hypothetical base = .ok result ∧
      (result.isIncomplete = true → result.isConsistent = false) ∧
      (result.isIncomplete = false → Exact hypothetical base result) := by
  refine ⟨detected_comm hhex engine, ?_⟩
  obtain ⟨⟨inferences, exceeded⟩, hderive⟩ := exists_derive engine hhex
    (hsha.mono Set.subset_union_left) hadmitted (by decide : (0 : ℤ) ≤ 2) (by decide) fun _ => none
  refine ⟨_, bind_eq_ok.mpr ⟨(inferences, exceeded), hderive, rfl⟩, ?_, ?_⟩
  · intro hincomplete
    dsimp only at hincomplete ⊢
    rw [hincomplete]
    rfl
  · intro hcomplete
    dsimp only at hcomplete
    obtain ⟨hscans, -⟩ := Bool.or_eq_false_iff.mp hcomplete
    obtain ⟨hbase, hinternal⟩ := Bool.or_eq_false_iff.mp hscans
    refine exact_of_scans hhex hsha (Prod.ext rfl hbase) (Prod.ext rfl hinternal) rfl ?_
    dsimp only
    rw [hcomplete]
    rfl

/-! ### A relation that is supported and contradicted -/

section Sample

/-- The relation that supports, and then the one that contradicts. -/
def disputed : List (RelationEdge sized) :=
  [relationFrom .contradicts (.ofMicros 0), relationFrom .supports (.ofMicros 1)]

/-- The texts that are digested for them. -/
def disputedTexts : List String :=
  ([entityA, entityB].map fun e => canonicalJson sized e.dump) ++
    disputed.map fun e => canonicalJson sized e.identity

/-- What names a relation of a kind between the two entities. -/
def identityBetween (kind : RelationKind) : Json :=
  .obj [("kind", .str kind.text), ("endpoints", .arr [.str (digestOf 157), .str (digestOf 158)])]

lemma identity_contradicts (t : Instant) :
    (relationFrom .contradicts t).identity = identityBetween .contradicts := by
  show Json.obj [_, ("endpoints", .arr (List.map _
    ([entityA.key, entityB.key].insertionSort (· ≤ ·))))] = _
  have hsorted : [digestOf 157, digestOf 158].insertionSort (· ≤ ·) =
      [digestOf 157, digestOf 158] := by decide +kernel
  rw [key_eq_digestOf, key_eq_digestOf, entityA_size, entityB_size, hsorted]
  rfl

lemma identity_supports (t : Instant) :
    (relationFrom .supports t).identity = identityBetween .supports := by
  show Json.obj [_, ("endpoints", .arr (List.map _ [entityA.key, entityB.key]))] = _
  rw [key_eq_digestOf, key_eq_digestOf, entityA_size, entityB_size]
  rfl

lemma disputedTexts_size : disputedTexts.map String.utf8ByteSize = [157, 158, 170, 167] := by
  have hcontradicts : (canonicalJson sized (identityBetween .contradicts)).utf8ByteSize = 170 := by
    decide +kernel
  have hsupports : (canonicalJson sized (identityBetween .supports)).utf8ByteSize = 167 := by
    decide +kernel
  show [textSize entityA, textSize entityB, (canonicalJson sized _).utf8ByteSize,
    (canonicalJson sized _).utf8ByteSize] = _
  rw [entityA_size, entityB_size, identity_contradicts, identity_supports, hcontradicts, hsupports]

lemma disputed_injOn : Set.InjOn sized.sha256 (digestTexts disputed) := by
  refine sized_injOn disputedTexts_size (by decide) (by decide) ?_
  rintro text (⟨e, he, entity, hentity, rfl⟩ | ⟨e, he, rfl⟩)
  · refine List.mem_append_left _ (List.mem_map.mpr ⟨entity, ?_, rfl⟩)
    obtain ⟨kind, t, rfl⟩ : ∃ kind t, e = relationFrom kind t := by
      rcases List.mem_cons.mp he with rfl | he
      · exact ⟨_, _, rfl⟩
      · exact ⟨_, _, List.mem_singleton.mp he⟩
    rcases hentity with rfl | rfl
    · exact List.mem_cons_self ..
    · exact List.mem_cons_of_mem _ (List.mem_singleton_self _)
  · exact List.mem_append_right _ (List.mem_map.mpr ⟨e, he, rfl⟩)

lemma disputed_admitted : ∀ e ∈ disputed, Admitted e := by
  intro e he
  rcases List.mem_cons.mp he with rfl | he
  · exact relationFrom_admitted _ _
  · exact List.mem_singleton.mp he ▸ relationFrom_admitted _ _

theorem counterfactual_exact_disputed :
    (∀ a b : RelationEdge sized, ({} : BoundedReasoningEngine).detected b a =
      (({} : BoundedReasoningEngine).detected a b).map fun c => (c.1, c.2.2, c.2.1)) ∧
    ∃ result, ({} : BoundedReasoningEngine).evaluateCounterfactual
        [relationFrom .supports (.ofMicros 1)] [relationFrom .contradicts (.ofMicros 0)] = .ok result ∧
      (result.isIncomplete = true → result.isConsistent = false) ∧
      (result.isIncomplete = false → Exact [relationFrom .supports (.ofMicros 1)]
        [relationFrom .contradicts (.ofMicros 0)] result) :=
  counterfactual_exact {} sized_hex disputed_injOn disputed_admitted

end Sample

end CyberBrain.Reasoning.BoundedReasoningEngine
