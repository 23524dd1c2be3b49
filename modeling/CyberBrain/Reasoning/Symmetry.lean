import CyberBrain.Reasoning.Proposals

/-!
# Symmetric contradictions

Rule 1 turns contradictions round. It keeps one assertion for each pair of endpoints: the key that
it deduplicates by names neither the validity nor the evidence, which the key of rule 2 does.
-/

namespace CyberBrain.Reasoning

open Python Relations

variable {py : Runtime}

namespace BoundedReasoningEngine

variable {engine : BoundedReasoningEngine} {edges done : List (RelationEdge py)}
  {edge e e' : RelationEdge py} {sourceRecordIds known : String → Option Uuid}
  {d d' : Derivation py} {a : DerivedAssertion py} {depth : ℤ}

/-! ### Known records -/

/-- A record is known for an entity: it was passed in, or an edge that was not rejected anchors the
entity there. -/
def Known (sourceRecordIds : String → Option Uuid) (edges : List (RelationEdge py))
    (entity : EntityRef py) (id : Uuid) : Prop :=
  sourceRecordIds entity.key = some id ∨
    ∃ e ∈ eligible edges, e.target.key = entity.key ∧ e.targetRecordId = id

lemma knownRecordIds_concat (key : String) :
    knownRecordIds sourceRecordIds (edges ++ [edge]) key =
      if key = edge.target.key then some edge.targetRecordId
      else knownRecordIds sourceRecordIds edges key := by
  rw [knownRecordIds, List.foldl_append]
  exact Function.update_apply ..

lemma mem_of_knownRecordIds {key : String} {id : Uuid}
    (h : knownRecordIds sourceRecordIds edges key = some id) :
    sourceRecordIds key = some id ∨ ∃ e ∈ edges, e.target.key = key ∧ e.targetRecordId = id := by
  induction edges using List.reverseRecOn with
  | nil => exact .inl h
  | append_singleton edges edge ih =>
    rw [knownRecordIds_concat] at h
    split_ifs at h with hkey
    · cases h
      exact .inr ⟨edge, by simp, hkey.symm, rfl⟩
    · exact (ih h).imp_right fun ⟨e, he, heq⟩ => ⟨e, List.mem_append_left _ he, heq⟩

lemma knownRecordIds_isSome {key : String} (h : (sourceRecordIds key).isSome ∨
    ∃ e ∈ edges, e.target.key = key) : (knownRecordIds sourceRecordIds edges key).isSome := by
  induction edges using List.reverseRecOn with
  | nil => exact h.resolve_right (by simp)
  | append_singleton edges edge ih =>
    rw [knownRecordIds_concat]
    split_ifs with hkey
    · rfl
    · refine ih (h.imp_right fun ⟨e, he, heq⟩ => ⟨e, ?_, heq⟩)
      rcases List.mem_append.mp he with he | he
      · exact he
      · obtain rfl := List.mem_singleton.mp he
        exact absurd heq.symm hkey

/-- The anchor that rule 1 uses is known, and there is one wherever a record is known. -/
lemma exists_anchor_iff {entity : EntityRef py} :
    (∃ id, Known sourceRecordIds edges entity id) ↔
      ∃ anchor, knownRecordIds sourceRecordIds (eligible edges) entity.key = some anchor := by
  constructor
  · rintro ⟨id, hid | ⟨e, he, hkey, -⟩⟩
    · exact Option.isSome_iff_exists.mp (knownRecordIds_isSome (.inl (by rw [hid]; rfl)))
    · exact Option.isSome_iff_exists.mp (knownRecordIds_isSome (.inr ⟨e, he, hkey⟩))
  · rintro ⟨anchor, hanchor⟩
    exact ⟨anchor, mem_of_knownRecordIds hanchor⟩

/-! ### Rule 1 -/

/-- A contradiction that rule 1 can anchor. -/
def Reversible (known : String → Option Uuid) (e : RelationEdge py) : Prop :=
  e.kind = .contradicts ∧ ∃ anchor, known e.source.key = some anchor

/-- An assertion is a contradiction turned round, as it is with its anchor. -/
structure Reverses (a : DerivedAssertion py) (e : RelationEdge py) : Prop where
  kind : a.edge.kind = .contradicts
  source : a.edge.source = e.target
  target : a.edge.target = e.source
  validFrom : a.edge.validFrom = e.validFrom
  validUntil : a.edge.validUntil = e.validUntil
  evidence : a.edge.evidence = e.evidence
  proposed : a.edge.status = .proposed

/-- Edges between the same entities with the same validity and evidence. -/
structure Agree (e e' : RelationEdge py) : Prop where
  source : e.source = e'.source
  target : e.target = e'.target
  validFrom : e.validFrom = e'.validFrom
  validUntil : e.validUntil = e'.validUntil
  evidence : e.evidence = e'.evidence

lemma Reverses.of_agree (h : Reverses a e) (hagree : Agree e e') : Reverses a e' where
  kind := h.kind
  source := h.source.trans hagree.target
  target := h.target.trans hagree.source
  validFrom := h.validFrom.trans hagree.validFrom
  validUntil := h.validUntil.trans hagree.validUntil
  evidence := h.evidence.trans hagree.evidence
  proposed := h.proposed

lemma Reverses.agree (h : Reverses a e) (h' : Reverses a e') : Agree e e' where
  source := h.target.symm.trans h'.target
  target := h.source.symm.trans h'.source
  validFrom := h.validFrom.symm.trans h'.validFrom
  validUntil := h.validUntil.symm.trans h'.validUntil
  evidence := h.evidence.symm.trans h'.evidence

/-- The key of an assertion of rule 1. -/
def assertedKey (a : DerivedAssertion py) : String :=
  "contradicts:" ++ endpointKey a.edge.source a.edge.target

lemma Reverses.key (h : Reverses a e) : assertedKey a = reversedKey e := by
  rw [assertedKey, h.source, h.target, reversedKey]

/-- What rule 1 does with an edge: nothing, or it adds one assertion. -/
lemma reverse_cases (h : reverse known d edge = .ok d') :
    (d' = d ∧ (Reversible known edge → reversedKey edge ∈ d.seenDerivedKeys)) ∨
      ∃ a, Reversible known edge ∧ reversedKey edge ∉ d.seenDerivedKeys ∧ Reverses a edge ∧
        a.rule = .symmetricContradiction ∧ known edge.source.key = some a.edge.targetRecordId ∧
        d' = { d with
          seenDerivedKeys := reversedKey edge :: d.seenDerivedKeys
          derived := d.derived ++ [a] } := by
  unfold reverse at h
  by_cases hkind : edge.kind = .contradicts
  · rw [if_pos hkind] at h
    cases hanchor : known edge.source.key with
    | none        =>
      rw [hanchor] at h
      cases h
      refine .inl ⟨rfl, fun ⟨_, anchor, hsome⟩ => ?_⟩
      rw [hanchor] at hsome
      cases hsome
    | some anchor =>
      rw [hanchor] at h
      change (if reversedKey edge ∈ d.seenDerivedKeys then _ else _) = _ at h
      split_ifs at h with hseen
      · cases h
        exact .inl ⟨rfl, fun _ => hseen⟩
      · obtain ⟨derivedEdge, hmake, heq⟩ := bind_eq_ok.mp h
        cases heq
        obtain ⟨hkind', hsource, htarget, hid, hevidence, hfrom, huntil, hstatus⟩ :=
          Proposal.of_make hmake
        refine .inr ⟨_, ⟨hkind, anchor, hanchor⟩, hseen, ⟨hkind', hsource, htarget, hfrom, huntil,
          hevidence.trans (FrozenSet.ofList_sorted _), hstatus⟩, rfl, ?_, rfl⟩
        exact congrArg some hid.symm
  · rw [if_neg hkind] at h
    cases h
    exact .inl ⟨rfl, fun hreversible => absurd hreversible.1 hkind⟩

/-- What rule 1 has found in some edges. -/
structure Reversed (known : String → Option Uuid) (done : List (RelationEdge py))
    (d : Derivation py) : Prop where
  seen : ∀ e ∈ done, Reversible known e → reversedKey e ∈ d.seenDerivedKeys
  covered : ∀ key ∈ d.seenDerivedKeys, ∃ a ∈ d.derived, assertedKey a = key
  arises : ∀ a ∈ d.derived, a.rule = .symmetricContradiction ∧ ∃ e ∈ done, Reversible known e ∧
    Reverses a e ∧ known e.source.key = some a.edge.targetRecordId
  asserted_seen : ∀ a ∈ d.derived, assertedKey a ∈ d.seenDerivedKeys
  unique : ∀ a ∈ d.derived, ∀ b ∈ d.derived, assertedKey a = assertedKey b → a = b

namespace Reversed

lemma start (known : String → Option Uuid) : Reversed known [] ({} : Derivation py) where
  seen _ he := absurd he List.not_mem_nil
  covered _ hkey := absurd hkey List.not_mem_nil
  arises _ ha := absurd ha List.not_mem_nil
  asserted_seen _ ha := absurd ha List.not_mem_nil
  unique _ ha := absurd ha List.not_mem_nil

/-- One edge more. -/
lemma step (h : Reversed known done d) (hreverse : reverse known d edge = .ok d') :
    Reversed known (done ++ [edge]) d' := by
  obtain ⟨rfl, hseen⟩ | ⟨a, hreversible, hseen, ha, hrule, hanchor, rfl⟩ := reverse_cases hreverse
  · constructor
    case seen =>
      intro e he hreversible
      rcases List.mem_append.mp he with he | he
      · exact h.seen e he hreversible
      · obtain rfl := List.mem_singleton.mp he
        exact hseen hreversible
    case covered => exact h.covered
    case arises =>
      intro a ha
      obtain ⟨hrule, e, he, hrest⟩ := h.arises a ha
      exact ⟨hrule, e, List.mem_append_left _ he, hrest⟩
    case asserted_seen => exact h.asserted_seen
    case unique => exact h.unique
  · have hnew (b : DerivedAssertion py) (hb : b ∈ d.derived) : assertedKey b ≠ assertedKey a := by
      intro heq
      exact hseen (ha.key ▸ heq ▸ h.asserted_seen b hb)
    constructor
    case seen =>
      intro e he hreversible
      rcases List.mem_append.mp he with he | he
      · exact List.mem_cons_of_mem _ (h.seen e he hreversible)
      · obtain rfl := List.mem_singleton.mp he
        exact List.mem_cons_self ..
    case covered =>
      intro key hkey
      rcases List.mem_cons.mp hkey with rfl | hkey
      · exact ⟨a, by simp, ha.key⟩
      · obtain ⟨b, hb, hkey⟩ := h.covered key hkey
        exact ⟨b, List.mem_append_left _ hb, hkey⟩
    case arises =>
      intro b hb
      rcases List.mem_append.mp hb with hb | hb
      · obtain ⟨hrule, e, he, hrest⟩ := h.arises b hb
        exact ⟨hrule, e, List.mem_append_left _ he, hrest⟩
      · obtain rfl := List.mem_singleton.mp hb
        exact ⟨hrule, edge, by simp, hreversible, ha, hanchor⟩
    case asserted_seen =>
      intro b hb
      rcases List.mem_append.mp hb with hb | hb
      · exact List.mem_cons_of_mem _ (h.asserted_seen b hb)
      · obtain rfl := List.mem_singleton.mp hb
        rw [ha.key]
        exact List.mem_cons_self ..
    case unique =>
      intro b hb c hc heq
      rcases List.mem_append.mp hb with hold | hb <;> rcases List.mem_append.mp hc with hold' | hc
      · exact h.unique b hold c hold' heq
      · exact absurd (List.mem_singleton.mp hc ▸ heq) (hnew b hold)
      · exact absurd (List.mem_singleton.mp hb ▸ heq).symm (hnew c hold')
      · exact (List.mem_singleton.mp hb).trans (List.mem_singleton.mp hc).symm

/-- Counting a comparison changes nothing that was found. -/
lemma counted (h : Reversed known done d) (n : ℕ) :
    Reversed known done { d with comparisons := n } :=
  ⟨h.seen, h.covered, h.arises, h.asserted_seen, h.unique⟩

/-- Rule 1 within its budgets goes through all edges. -/
lemma all (h : Reversed known done d) (hall : engine.reverseAll known d edges = .ok d')
    (hbudget : d'.budgetExceeded = false) : Reversed known (done ++ edges) d' := by
  induction edges generalizing done d with
  | nil =>
    cases hall
    rwa [List.append_nil]
  | cons edge edges ih =>
    rw [reverseAll] at hall
    split_ifs at hall with hspent
    · cases hall
      cases hbudget
    · obtain ⟨next, hnext, hall⟩ := bind_eq_ok.mp hall
      have hrest := ih ((h.counted _).step hnext) hall
      rwa [List.append_assoc] at hrest

end Reversed

/-- Rule 1 raises nothing on admitted edges. -/
lemma exists_reverseAll (engine : BoundedReasoningEngine) (hhex : HexDigests py) (hadmitted : ∀ e ∈ edges, Admitted e)
    (known : String → Option Uuid) (d : Derivation py) :
    ∃ d', engine.reverseAll known d edges = .ok d' := by
  induction edges generalizing d with
  | nil => exact ⟨d, rfl⟩
  | cons edge edges ih =>
    rw [reverseAll]
    split_ifs
    · exact ⟨_, rfl⟩
    · obtain ⟨next, hnext⟩ : ∃ next,
          reverse known { d with comparisons := d.comparisons + 1 } edge = .ok next := by
        unfold reverse
        by_cases hkind : edge.kind = .contradicts
        · rw [if_pos hkind]
          cases known edge.source.key with
          | none        => exact ⟨_, rfl⟩
          | some anchor =>
            by_cases hseen : reversedKey edge ∈ d.seenDerivedKeys
            · exact ⟨_, if_pos hseen⟩
            · obtain ⟨derivedEdge, hmake⟩ :=
                (reversed_sound hhex (hadmitted edge (List.mem_cons_self ..)) anchor).exists_make
              exact ⟨_, (if_neg hseen).trans (bind_eq_ok.mpr ⟨derivedEdge, hmake, rfl⟩)⟩
        · exact ⟨_, if_neg hkind⟩
      obtain ⟨d', hd'⟩ := ih (fun e he => hadmitted e (List.mem_cons_of_mem _ he)) next
      exact ⟨d', bind_eq_ok.mpr ⟨next, hnext, hd'⟩⟩

/-- A budget for a number of edges more. -/
def Room (engine : BoundedReasoningEngine) (d : Derivation py) (n : ℕ) : Prop :=
  ((d.derived.length + n : ℕ) : ℤ) ≤ engine.maxInferences ∧
    ((d.comparisons + n : ℕ) : ℤ) ≤ engine.maxComparisons

/-- With room for all edges, rule 1 exceeds no budget. -/
lemma reverseAll_within (hroom : Room engine d edges.length) (hbudget : d.budgetExceeded = false)
    (h : engine.reverseAll known d edges = .ok d') : d'.budgetExceeded = false := by
  induction edges generalizing d with
  | nil =>
    cases h
    exact hbudget
  | cons edge edges ih =>
    obtain ⟨hinferences, hcomparisons⟩ := hroom
    rw [List.length_cons] at hinferences hcomparisons
    rw [reverseAll] at h
    have hspent : ¬ engine.spent d = true := by
      simp only [spent, decide_eq_true_eq, not_or]
      omega
    rw [if_neg hspent] at h
    obtain ⟨next, hnext, h⟩ := bind_eq_ok.mp h
    obtain ⟨rfl, -⟩ | ⟨a, -, -, -, -, -, rfl⟩ := reverse_cases hnext
    · refine ih ?_ ?_ h
      · constructor <;> dsimp only <;> omega
      · exact hbudget
    · refine ih ?_ ?_ h
      · constructor
        · simp only [List.length_append, List.length_singleton]
          omega
        · dsimp only
          omega
      · exact hbudget

/-! ### Rule 2 adds assertions of its own -/

/-- A derivation goes on with assertions of rule 2. -/
def Extends (d d' : Derivation py) : Prop :=
  ∃ added, d'.derived = d.derived ++ added ∧ ∀ a ∈ added, a.rule = .transitiveDependency

lemma Extends.refl (d : Derivation py) : Extends d d := ⟨[], by simp, by simp⟩

lemma Extends.trans {d₁ d₂ d₃ : Derivation py} (h : Extends d₁ d₂) (h' : Extends d₂ d₃) :
    Extends d₁ d₃ := by
  obtain ⟨added, heq, hadded⟩ := h
  obtain ⟨added', heq', hadded'⟩ := h'
  refine ⟨added ++ added', by rw [heq', heq, List.append_assoc], fun a ha => ?_⟩
  exact (List.mem_append.mp ha).elim (hadded a) (hadded' a)

variable {level : ℕ} {path : Path py} {x x' : Extension py}

lemma follow_extends (h : follow level path x edge = .ok x') :
    Extends x.toDerivation x'.toDerivation := by
  unfold follow at h
  dsimp only at h
  split_ifs at h
  · cases h
    exact .refl _
  · cases h
    exact .refl _
  · cases h
    exact .refl _
  · obtain ⟨derivedEdge, -, heq⟩ := bind_eq_ok.mp h
    cases heq
    exact ⟨_, rfl, by simp⟩

lemma followAll_extends (h : engine.followAll level path x edges = .ok x') :
    Extends x.toDerivation x'.toDerivation := by
  induction edges generalizing x with
  | nil =>
    cases h
    exact .refl _
  | cons edge edges ih =>
    rw [followAll] at h
    split_ifs at h
    · cases h
      exact ⟨[], by simp, by simp⟩
    · obtain ⟨next, hnext, h⟩ := bind_eq_ok.mp h
      have hfollow : Extends x.toDerivation next.toDerivation := by
        have hcounted := follow_extends hnext
        exact hcounted
      split_ifs at h
      · cases h
        exact hfollow
      · exact hfollow.trans (ih h)

lemma extendAll_extends {depends : List (RelationEdge py)} {paths : List (Path py)}
    (h : engine.extendAll depends level x paths = .ok x') :
    Extends x.toDerivation x'.toDerivation := by
  induction paths generalizing x with
  | nil =>
    cases h
    exact .refl _
  | cons path paths ih =>
    obtain ⟨next, hnext, h⟩ := bind_eq_ok.mp h
    have hfollow := followAll_extends hnext
    split_ifs at h
    · cases h
      exact hfollow
    · exact hfollow.trans (ih h)

lemma deepen_extends {depends : List (RelationEdge py)} {paths : List (Path py)} {n : ℕ}
    (h : engine.deepen depends d level paths n = .ok d') : Extends d d' := by
  induction n generalizing d level paths with
  | zero =>
    cases h
    exact .refl _
  | succ n ih =>
    obtain ⟨next, hnext, h⟩ := bind_eq_ok.mp h
    have hextend : Extends d next.toDerivation := extendAll_extends hnext
    split_ifs at h
    · cases h
      exact hextend
    · exact hextend.trans (ih h)

/-! ### The law of the rule -/

/-- The contradictions that are to be turned round. -/
def Contradicting (sourceRecordIds : String → Option Uuid) (edges : List (RelationEdge py))
    (e : RelationEdge py) : Prop :=
  e ∈ eligible edges ∧ e.kind = .contradicts ∧ ∃ id, Known sourceRecordIds edges e.source id

/-- An assertion is a contradiction turned round, at a record that is known for its source. -/
def ArisesFrom (sourceRecordIds : String → Option Uuid) (edges : List (RelationEdge py))
    (a : DerivedAssertion py) (e : RelationEdge py) : Prop :=
  a.rule = .symmetricContradiction ∧ Reverses a e ∧
    Known sourceRecordIds edges e.source a.edge.targetRecordId

/-- Every contradiction is turned round, and every assertion of the rule is one turned round. -/
def SymmetryComplete (sourceRecordIds : String → Option Uuid) (edges : List (RelationEdge py))
    (derived : List (DerivedAssertion py)) : Prop :=
  (∀ e, Contradicting sourceRecordIds edges e →
    ∃ a ∈ derived, ArisesFrom sourceRecordIds edges a e) ∧
  ∀ a ∈ derived, a.rule = .symmetricContradiction →
    ∃ e, Contradicting sourceRecordIds edges e ∧ ArisesFrom sourceRecordIds edges a e

lemma contradicting_iff : Contradicting sourceRecordIds edges e ↔
    e ∈ eligible edges ∧ Reversible (knownRecordIds sourceRecordIds (eligible edges)) e := by
  rw [Contradicting, Reversible, exists_anchor_iff]

/-- Without dependencies rule 2 adds nothing. -/
lemma deepen_nil (engine : BoundedReasoningEngine) (d : Derivation py) (level n : ℕ) :
    engine.deepen [] d level [] n = .ok d := by
  cases n with
  | zero   => rfl
  | succ n => exact bind_eq_ok.mpr ⟨{ d with }, rfl, if_pos (.inr rfl)⟩

/-- What rule 1 leaves, whatever rule 2 adds. -/
lemma symmetryComplete_iff
    (h : Reversed (knownRecordIds sourceRecordIds (eligible edges)) (eligible edges) d)
    (hextends : Extends d d') :
    SymmetryComplete sourceRecordIds edges d'.derived ↔
      ∀ e e', Contradicting sourceRecordIds edges e → Contradicting sourceRecordIds edges e' →
        reversedKey e = reversedKey e' → Agree e e' := by
  obtain ⟨added, hderived, hadded⟩ := hextends
  have hmem (a : DerivedAssertion py) (ha : a ∈ d'.derived)
      (hrule : a.rule = .symmetricContradiction) : a ∈ d.derived := by
    rw [hderived] at ha
    refine (List.mem_append.mp ha).resolve_right fun hin => ?_
    have hother := hadded a hin
    rw [hrule] at hother
    cases hother
  have hsub (a : DerivedAssertion py) (ha : a ∈ d.derived) : a ∈ d'.derived := by
    rw [hderived]
    exact List.mem_append_left _ ha
  constructor
  · rintro ⟨hcomplete, -⟩ e e' he he' hkey
    obtain ⟨a, ha, hrule, hreverses, -⟩ := hcomplete e he
    obtain ⟨a', ha', hrule', hreverses', -⟩ := hcomplete e' he'
    -- one assertion is kept for a key
    obtain rfl : a = a' := h.unique a (hmem a ha hrule) a' (hmem a' ha' hrule')
      (hreverses.key.trans (hkey.trans hreverses'.key.symm))
    exact hreverses.agree hreverses'
  · refine fun hagree => ⟨fun e he => ?_, fun a ha hrule => ?_⟩
    · obtain ⟨hin, hreversible⟩ := contradicting_iff.mp he
      obtain ⟨a, ha, hkey⟩ := h.covered _ (h.seen e hin hreversible)
      obtain ⟨hrule, e', he', hreversible', hreverses, hanchor⟩ := h.arises a ha
      have hsame := hagree e' e (contradicting_iff.mpr ⟨he', hreversible'⟩) he
        (hreverses.key.symm.trans hkey)
      refine ⟨a, hsub a ha, hrule, hreverses.of_agree hsame, ?_⟩
      rw [← hsame.source]
      exact mem_of_knownRecordIds hanchor
    · obtain ⟨-, e, he, hreversible, hreverses, hanchor⟩ := h.arises a (hmem a ha hrule)
      exact ⟨e, contradicting_iff.mpr ⟨he, hreversible⟩, hrule, hreverses,
        mem_of_knownRecordIds hanchor⟩

/-- A derivation of some depth runs rule 1 within the budgets, if it stays within them. -/
lemma of_derive {derived : List (DerivedAssertion py)} (hdepth : depth ≠ 0)
    (h : engine.deriveInferencesBounded edges depth sourceRecordIds = .ok (derived, false)) :
    ∃ d d', Reversed (knownRecordIds sourceRecordIds (eligible edges)) (eligible edges) d ∧
      Extends d d' ∧ d'.derived = derived := by
  unfold deriveInferencesBounded at h
  rw [if_neg hdepth] at h
  split_ifs at h
  obtain ⟨d, hd, h⟩ := bind_eq_ok.mp h
  have hreversed (hbudget : d.budgetExceeded = false) :=
    (Reversed.start (knownRecordIds sourceRecordIds (eligible edges))).all hd hbudget
  rw [List.nil_append] at hreversed
  split_ifs at h with hone
  · obtain ⟨rfl, hbudget⟩ := Prod.mk.inj (Except.ok.inj h)
    exact ⟨d, d, hreversed hbudget, .refl d, rfl⟩
  · obtain ⟨d', hd', h⟩ := bind_eq_ok.mp h
    obtain ⟨rfl, -⟩ := Prod.mk.inj (Except.ok.inj h)
    exact ⟨d, d', hreversed (by simpa using (not_or.mp hone).2), deepen_extends hd', rfl⟩

/-- Within the budgets, the contradictions are turned round exactly if the rules are on and
contradictions between the same endpoints agree. -/
theorem symmetry_complete_iff {derived : List (DerivedAssertion py)}
    (h : engine.deriveInferencesBounded edges depth sourceRecordIds = .ok (derived, false)) :
    SymmetryComplete sourceRecordIds edges derived ↔
      ∀ e e', Contradicting sourceRecordIds edges e → Contradicting sourceRecordIds edges e' →
        depth ≠ 0 ∧ (reversedKey e = reversedKey e' → Agree e e') := by
  by_cases hdepth : depth = 0
  · subst hdepth
    cases h
    constructor
    · rintro ⟨hcomplete, -⟩ e e' he -
      obtain ⟨a, ha, -⟩ := hcomplete e he
      cases ha
    · refine fun hnone => ⟨fun e he => absurd rfl (hnone e e he he).1, fun a ha => ?_⟩
      cases ha
  · obtain ⟨d, d', hreversed, hextends, rfl⟩ := of_derive hdepth h
    simpa only [ne_eq, hdepth, not_false_eq_true, true_and] using
      symmetryComplete_iff hreversed hextends

/-! ### Two contradictions -/

section Sample

/-- A runtime that digests a text to its size. -/
def sized : Runtime :=
  { Runtime.ascii with sha256 := fun s => String.ofList (fixedDigits 16 64 s.utf8ByteSize) }

lemma sized_hex : HexDigests sized where
  length s := by simp [sized]
  digits s c hc := by
    rw [sized, String.toList_ofList] at hc
    exact hexValue_fixedDigits hc

/-- The entity of a name. -/
def entityNamed (name : String)
    (h : (EntityRef.make sized ⟨"d", "t", "e", name⟩ [] {}).toOption.isSome) : EntityRef sized :=
  (EntityRef.make sized ⟨"d", "t", "e", name⟩ [] {}).toOption.get h

def entityA : EntityRef sized := entityNamed "a" (by decide +kernel)

def entityB : EntityRef sized := entityNamed "bb" (by decide +kernel)

/-- The size of the text that an entity is known by. -/
def textSize (entity : EntityRef sized) : ℕ := (canonicalJson sized entity.dump).utf8ByteSize

/-- The digest of a text of some size. -/
def digestOf (size : ℕ) : String := String.ofList (fixedDigits 16 64 size)

lemma key_eq_digestOf (entity : EntityRef sized) : entity.key = digestOf (textSize entity) := rfl

lemma entityA_size : textSize entityA = 157 := by decide +kernel

lemma entityB_size : textSize entityB = 158 := by decide +kernel

lemma digestOf_injective {m n : ℕ} (hm : m < 16 ^ 64) (hn : n < 16 ^ 64)
    (h : digestOf m = digestOf n) : m = n :=
  fixedDigits_injective (by decide) (by decide) hm hn (String.ofList_injective h)

lemma entityA_ne_entityB : entityA.key ≠ entityB.key := by
  rw [key_eq_digestOf, key_eq_digestOf, entityA_size, entityB_size]
  exact fun h => absurd (digestOf_injective (by decide) (by decide) h) (by decide)

lemma entityA_scope : entityA.scope = entityB.scope := by decide +kernel

lemma follows_none (t : Instant) : ∀ e ∈ (none : Option Instant), t < e := by simp

lemma proposed_note : RelationStatus.proposed ≠ .proposed →
    ∃ note ∈ (none : Option String), strip note ≠ "" := fun h => absurd rfl h

/-- A relation from the first entity to the other, from a time on. -/
def relationFrom (kind : RelationKind) (t : Instant) : RelationEdge sized where
  kind
  source := entityA
  target := entityB
  targetRecordId := .ofNat 1
  evidence := FrozenSet.ofList [⟨.knowledge, .ofNat 2⟩]
  status := .proposed
  validFrom := t
  validUntil := none
  reviewNote := none
  not_self := entityA_ne_entityB
  same_partition := entityA_scope
  follows := follows_none t
  reviewed_note := proposed_note

lemma relationFrom_admitted (kind : RelationKind) (t : Instant) : Admitted (relationFrom kind t) where
  ne_nil := FrozenSet.ofList_ne_nil (List.cons_ne_nil _ _)
  length_le := (FrozenSet.length_sorted_ofList_le _).trans (by decide)

/-- A contradiction, for each of some times from which it holds. -/
def contradictionsFrom (times : List Instant) : List (RelationEdge sized) :=
  times.map (relationFrom .contradicts)

/-- A record for every entity. -/
def everywhere (_ : String) : Option Uuid := some (.ofNat 3)

lemma eligible_contradictionsFrom (times : List Instant) :
    eligible (contradictionsFrom times) = contradictionsFrom times := by
  refine List.filter_eq_self.mpr fun e he => ?_
  obtain ⟨t, -, rfl⟩ := List.mem_map.mp he
  rfl

/-- A few contradictions are within the budgets. -/
lemma exists_derived (times : List Instant) (hfew : times.length ≤ 100) : ∃ derived,
    ({} : BoundedReasoningEngine).deriveInferencesBounded (contradictionsFrom times) 2 everywhere =
      .ok (derived, false) := by
  have hadmitted : ∀ e ∈ contradictionsFrom times, Admitted e := by
    intro e he
    obtain ⟨t, -, rfl⟩ := List.mem_map.mp he
    exact relationFrom_admitted _ _
  obtain ⟨d, hd⟩ := exists_reverseAll {} sized_hex hadmitted
    (knownRecordIds everywhere (contradictionsFrom times)) {}
  have hbudget : d.budgetExceeded = false := by
    refine reverseAll_within ⟨?_, ?_⟩ rfl hd <;>
      · simp [contradictionsFrom]
        omega
  have hdepends : (contradictionsFrom times).filter (·.kind = .dependsOn) = [] := by
    refine List.filter_eq_nil_iff.mpr fun e he => ?_
    obtain ⟨t, -, rfl⟩ := List.mem_map.mp he
    simp [relationFrom]
  refine ⟨d.derived, ?_⟩
  rw [deriveInferencesBounded, if_neg (by decide), if_neg (by decide), eligible_contradictionsFrom]
  refine bind_eq_ok.mpr ⟨d, hd, ?_⟩
  rw [hdepends]
  have hgo : ¬ ((2 : ℤ) < 2 ∨ d.budgetExceeded = true) := by simp [hbudget]
  refine (if_neg hgo).trans (bind_eq_ok.mpr ⟨d, deepen_nil _ d 2 _, ?_⟩)
  rw [hbudget]
  rfl

theorem symmetry_complete_iff_one : ∃ derived,
    ({} : BoundedReasoningEngine).deriveInferencesBounded (contradictionsFrom [.ofMicros 0]) 2
      everywhere = .ok (derived, false) ∧
    (SymmetryComplete everywhere (contradictionsFrom [.ofMicros 0]) derived ↔
      ∀ e e', Contradicting everywhere (contradictionsFrom [.ofMicros 0]) e →
        Contradicting everywhere (contradictionsFrom [.ofMicros 0]) e' →
          (2 : ℤ) ≠ 0 ∧ (reversedKey e = reversedKey e' → Agree e e')) := by
  obtain ⟨derived, hderived⟩ := exists_derived [.ofMicros 0] (by decide)
  exact ⟨derived, hderived, symmetry_complete_iff hderived⟩

/-- Of two contradictions between the same entities, the later one is not turned round. -/
theorem later_contradiction_dropped : ∃ derived,
    ({} : BoundedReasoningEngine).deriveInferencesBounded
      (contradictionsFrom [.ofMicros 0, .ofMicros 1]) 2 everywhere = .ok (derived, false) ∧
    ¬ SymmetryComplete everywhere (contradictionsFrom [.ofMicros 0, .ofMicros 1]) derived := by
  obtain ⟨derived, hderived⟩ := exists_derived [.ofMicros 0, .ofMicros 1] (by decide)
  refine ⟨derived, hderived, fun hcomplete => ?_⟩
  obtain ⟨d, d', hreversed, hextends, rfl⟩ := of_derive (by decide) hderived
  have hcontradicting {t : Instant} (ht : t ∈ [Instant.ofMicros 0, .ofMicros 1]) :
      Contradicting everywhere (contradictionsFrom [.ofMicros 0, .ofMicros 1])
        (relationFrom .contradicts t) := by
    refine ⟨?_, rfl, .ofNat 3, .inl rfl⟩
    rw [eligible_contradictionsFrom]
    exact List.mem_map_of_mem ht
  have hagree := (symmetryComplete_iff hreversed hextends).mp hcomplete _ _
    (hcontradicting (List.mem_cons_self ..)) (hcontradicting (List.mem_cons_of_mem _
      (List.mem_singleton_self _))) rfl
  exact absurd hagree.validFrom (by decide)

end Sample

end BoundedReasoningEngine

end CyberBrain.Reasoning
