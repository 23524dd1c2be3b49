import CyberBrain.Reasoning.Chains

/-!
# Transitive dependencies

Rule 2 against what it is for: a chain of dependencies through different entities, all valid at
some time, concludes a dependency between its ends, at the times at which the whole chain is valid
and on the evidence of the whole chain.
-/

namespace CyberBrain.Reasoning.BoundedReasoningEngine

open Python Relations

variable {py : Runtime} {engine : BoundedReasoningEngine} {edges : List (RelationEdge py)}
  {path q : Path py} {d d' : Derivation py} {a : DerivedAssertion py} {depth : ℤ}
  {sourceRecordIds : String → Option Uuid}

/-- A chain of dependencies that were not rejected. -/
structure Chain (edges : List (RelationEdge py)) (chain : Path py) : Prop where
  mem : ∀ e ∈ chain.edges, e ∈ edges ∧ e.status ≠ .rejected ∧ e.kind = .dependsOn
  linked : chain.edges.IsChain fun e e' => e.target = e'.source
  simple : (chain.first.source :: chain.edges.map (·.target)).Nodup
  valid : ∃ t, ∀ e ∈ chain.edges, ValidAt e t

/-- A dependency is what a chain concludes. -/
structure Concludes (edge : RelationEdge py) (chain : Path py) : Prop where
  kind : edge.kind = .dependsOn
  source : edge.source = chain.first.source
  target : edge.target = chain.last.target
  valid : ∀ t, ValidAt edge t ↔ ∀ e ∈ chain.edges, ValidAt e t
  evidence : ∀ r, r ∈ edge.evidence ↔ ∃ e ∈ chain.edges, r ∈ e.evidence

/-! ### Walks and chains -/

/-- The edges that rule 2 walks along. -/
def dependencies (edges : List (RelationEdge py)) : List (RelationEdge py) :=
  (eligible edges).filter (·.kind = .dependsOn)

lemma mem_dependencies {e : RelationEdge py} :
    e ∈ dependencies edges ↔ e ∈ edges ∧ e.status ≠ .rejected ∧ e.kind = .dependsOn := by
  simp only [dependencies, eligible, List.mem_filter, decide_eq_true_eq, and_assoc]

lemma endpointTexts_mono {edges' : List (RelationEdge py)} (h : ∀ e ∈ edges, e ∈ edges') :
    endpointTexts edges ⊆ endpointTexts edges' := by
  rintro text ⟨e, he, hrest⟩
  exact ⟨e, h e he, hrest⟩

lemma injOn_dependencies (hsha : Set.InjOn py.sha256 (endpointTexts edges)) :
    Set.InjOn py.sha256 (endpointTexts (dependencies edges)) :=
  hsha.mono (endpointTexts_mono fun _ he => (mem_dependencies.mp he).1)

/-- Along edges, equal keys of endpoints mean equal endpoints. -/
lemma linked_iff (hsha : Set.InjOn py.sha256 (endpointTexts edges))
    (hmem : ∀ e ∈ path.edges, e ∈ edges) :
    path.edges.IsChain (fun e e' => entityKey e.target = entityKey e'.source) ↔
      path.edges.IsChain fun e e' => e.target = e'.source :=
  List.IsChain.iff_of_mem_imp fun e e' he he' =>
    ⟨endpoint_inj hsha (hmem e he) (hmem e' he') (.inr rfl) (.inl rfl), congrArg entityKey⟩

lemma simple_iff (hsha : Set.InjOn py.sha256 (endpointTexts edges))
    (hmem : ∀ e ∈ path.edges, e ∈ edges) :
    path.visited.Nodup ↔ (path.first.source :: path.edges.map (·.target)).Nodup := by
  have hvisited : path.visited =
      (path.first.source :: path.edges.map (·.target)).map entityKey := by
    simp [Path.visited]
  have hendpoint : ∀ entity ∈ path.first.source :: path.edges.map (·.target),
      ∃ e ∈ path.edges, entity = e.source ∨ entity = e.target := by
    intro entity hentity
    rcases List.mem_cons.mp hentity with rfl | hentity
    · exact ⟨_, path.mem_first, .inl rfl⟩
    · obtain ⟨e, he, rfl⟩ := List.mem_map.mp hentity
      exact ⟨e, he, .inr rfl⟩
  rw [hvisited]
  constructor
  · exact List.Nodup.of_map _
  · intro h
    refine h.map_on fun entity hentity entity' hentity' hkey => ?_
    obtain ⟨e, he, hend⟩ := hendpoint entity hentity
    obtain ⟨e', he', hend'⟩ := hendpoint entity' hentity'
    exact endpoint_inj hsha (hmem e he) (hmem e' he') hend hend' hkey

/-- The walks along the dependencies are the chains. -/
lemma walk_iff_chain (hsha : Set.InjOn py.sha256 (endpointTexts edges)) :
    Walk (dependencies edges) path ↔ Chain edges path := by
  constructor
  · intro h
    have hmem : ∀ e ∈ path.edges, e ∈ edges := fun e he => (mem_dependencies.mp (h.mem e he)).1
    exact ⟨fun e he => mem_dependencies.mp (h.mem e he), (linked_iff hsha hmem).mp h.linked,
      (simple_iff hsha hmem).mp h.simple, Path.not_expired_iff.mp h.valid⟩
  · intro h
    have hmem : ∀ e ∈ path.edges, e ∈ edges := fun e he => (h.mem e he).1
    exact ⟨fun e he => mem_dependencies.mpr (h.mem e he), (linked_iff hsha hmem).mpr h.linked,
      (simple_iff hsha hmem).mpr h.simple, Path.not_expired_iff.mpr h.valid⟩

/-! ### Assertions and what they conclude -/

/-- The dependency of a path concludes it. -/
lemma Arises.concludes (h : Arises a path) :
    Concludes a.edge path ∧ a.edge.status = .proposed := by
  obtain ⟨hkind, hsource, htarget, -, hevidence, hfrom, huntil, hstatus⟩ := Proposal.of_make h.make
  refine ⟨⟨hkind, hsource, htarget, fun t => ?_, fun r => ?_⟩, hstatus⟩
  · rw [ValidAt, hfrom, huntil]
    exact Path.valid_iff
  · rw [hevidence]
    show r ∈ FrozenSet.ofList path.evidence.sorted ↔ _
    rw [FrozenSet.ofList_sorted, Path.mem_evidence]

/-- Chains with one key have one conclusion. -/
lemma Concludes.of_key (hhex : HexDigests py)
    (hsha : Set.InjOn py.sha256 (endpointTexts edges)) (hpath : ∀ e ∈ path.edges, e ∈ edges)
    (hq : ∀ e ∈ q.edges, e ∈ edges) (hkey : transitiveKey path = transitiveKey q)
    {edge : RelationEdge py} (h : Concludes edge path) : Concludes edge q := by
  obtain ⟨hsource, htarget, hfrom, huntil, hevidence⟩ := transitiveKey_inj hhex hkey
  constructor
  case kind => exact h.kind
  case source =>
    rw [h.source]
    exact endpoint_inj hsha (hpath _ path.mem_first) (hq _ q.mem_first) (.inl rfl) (.inl rfl)
      hsource
  case target =>
    rw [h.target]
    exact endpoint_inj hsha (hpath _ path.mem_last) (hq _ q.mem_last) (.inr rfl) (.inr rfl) htarget
  case valid =>
    intro t
    rw [h.valid, ← Path.valid_iff, ← Path.valid_iff, hfrom, huntil]
  case evidence =>
    intro r
    rw [h.evidence, ← Path.mem_evidence, ← Path.mem_evidence, hevidence]

lemma premiseIds_eq (hhex : HexDigests py) (path : Path py) :
    path.premiseIds = path.edges.map (·.relationId) := by
  refine List.ext_getElem (by simp [Path.premiseIds]) fun n hn hn' => ?_
  simp [Path.premiseIds, premiseId_eq hhex]

lemma contradicts_ne_dependsOn (a b s t u : String) :
    "contradicts:" ++ a ≠ "depends_on:" ++ b ++ ":" ++ s ++ ":" ++ t ++ ":" ++ u := by
  intro heq
  have hchars := congrArg String.toList heq
  simp only [String.toList_append, List.append_assoc] at hchars
  exact absurd (List.cons.inj hchars).1 (by decide)

/-- The keys of the two rules differ. -/
lemma reversedKey_ne_transitiveKey (e : RelationEdge py) (path : Path py) :
    reversedKey e ≠ transitiveKey path := contradicts_ne_dependsOn _ _ _ _ _

/-! ### The derivation -/

/-- What a derivation found, against the chains of some edges. -/
structure TransitivityComplete (edges : List (RelationEdge py)) (depth : ℤ)
    (derived : List (DerivedAssertion py)) : Prop where
  complete : ∀ chain, Chain edges chain → 2 ≤ chain.edges.length →
    (chain.edges.length : ℤ) ≤ depth → ∃ a ∈ derived, a.rule = .transitiveDependency ∧
      Concludes a.edge chain
  sound : ∀ a ∈ derived, a.rule = .transitiveDependency → ∃ chain, Chain edges chain ∧
    2 ≤ chain.edges.length ∧ (chain.edges.length : ℤ) ≤ depth ∧ Concludes a.edge chain ∧
      a.edge.status = .proposed ∧ a.premises = chain.edges.map (·.relationId)

/-- Rule 2 within the budgets, after rule 1. -/
lemma transitivityComplete_of_deepen (hhex : HexDigests py)
    (hsha : Set.InjOn py.sha256 (endpointTexts edges)) {known : String → Option Uuid}
    (hone : Reversed known (eligible edges) d) (htwo : 2 ≤ depth)
    (h : engine.deepen (dependencies edges) d 2 ((dependencies edges).map .single)
      (depth - 1).toNat = .ok d') (hbudget : d'.budgetExceeded = false) :
    TransitivityComplete edges depth d'.derived := by
  have hnone : ∀ path : Path py, path ∈ ([] : List (Path py)) ↔
      Walk (dependencies edges) path ∧ 2 ≤ path.edges.length ∧ path.edges.length ≤ 1 := by
    intro path
    refine ⟨fun hin => absurd hin List.not_mem_nil, fun ⟨_, hlong, hshort⟩ => ?_⟩
    omega
  obtain ⟨all, hfound, hall⟩ :=
    (Found.start d).deepen Nat.one_pos level_one hnone h hbudget
  have hmem (path : Path py) (hpath : path ∈ all) : ∀ e ∈ path.edges, e ∈ edges :=
    fun e he => (((walk_iff_chain hsha).mp ((hall path).mp hpath).1).mem e he).1
  constructor
  case complete =>
    intro chain hchain hlong hshort
    have hin : chain ∈ all :=
      (hall chain).mpr ⟨(walk_iff_chain hsha).mpr hchain, hlong, by omega⟩
    rcases hfound.covered _ (hfound.seen chain hin) with hseen | ⟨a, ha, path, hpath, harises, hkey⟩
    · obtain ⟨b, hb, hkey⟩ := hone.covered _ hseen
      obtain ⟨-, e, -, -, hreverses, -⟩ := hone.arises b hb
      exact absurd (hreverses.key.symm.trans hkey) (reversedKey_ne_transitiveKey e chain)
    · exact ⟨a, ha, harises.rule, harises.concludes.1.of_key hhex hsha (hmem path hpath)
        (hmem chain hin) hkey⟩
  case sound =>
    intro a ha hrule
    rcases hfound.arises a ha with hbase | ⟨path, hpath, harises⟩
    · have hother := (hone.arises a hbase).1
      rw [hrule] at hother
      cases hother
    · obtain ⟨hwalk, hlong, hshort⟩ := (hall path).mp hpath
      obtain ⟨hconcludes, hstatus⟩ := harises.concludes
      exact ⟨path, (walk_iff_chain hsha).mp hwalk, hlong, by omega, hconcludes, hstatus,
        harises.premises.trans (premiseIds_eq hhex path)⟩

/-- A derivation from admitted edges raises nothing. -/
lemma exists_derive (engine : BoundedReasoningEngine) (hhex : HexDigests py)
    (hsha : Set.InjOn py.sha256 (endpointTexts edges)) (hadmitted : ∀ e ∈ edges, Admitted e)
    (hzero : 0 ≤ depth) (hfive : depth ≤ 5) (sourceRecordIds : String → Option Uuid) :
    ∃ r, engine.deriveInferencesBounded edges depth sourceRecordIds = .ok r := by
  have heligible : ∀ e ∈ eligible edges, Admitted e :=
    fun e he => hadmitted e (List.mem_of_mem_filter he)
  rw [deriveInferencesBounded, if_neg (not_not.mpr ⟨hzero, hfive⟩)]
  split_ifs with hdepth
  · exact ⟨_, rfl⟩
  · obtain ⟨d, hd⟩ := exists_reverseAll engine hhex heligible
      (knownRecordIds sourceRecordIds (eligible edges)) {}
    by_cases hstop : depth < 2 ∨ d.budgetExceeded = true
    · exact ⟨_, bind_eq_ok.mpr ⟨d, hd, if_pos hstop⟩⟩
    · obtain ⟨d', hd'⟩ := exists_deepen hhex (injOn_dependencies hsha)
        (fun e he => hadmitted e (mem_dependencies.mp he).1) engine Nat.one_pos
        (by omega : 1 + (depth - 1).toNat ≤ 5) level_one d 2
      exact ⟨_, bind_eq_ok.mpr ⟨d, hd, (if_neg hstop).trans (bind_eq_ok.mpr ⟨d', hd', rfl⟩)⟩⟩

/-- The transitive dependencies that are derived within the budgets are those that the chains up to
the depth conclude, and a derivation always returns. -/
theorem transitivity_complete (engine : BoundedReasoningEngine) (hhex : HexDigests py)
    (hsha : Set.InjOn py.sha256 (endpointTexts edges)) (hadmitted : ∀ e ∈ edges, Admitted e)
    (htwo : 2 ≤ depth) (hfive : depth ≤ 5) (sourceRecordIds : String → Option Uuid) :
    ∃ derived exceeded, engine.deriveInferencesBounded edges depth sourceRecordIds =
        .ok (derived, exceeded) ∧
      (exceeded = false → TransitivityComplete edges depth derived) := by
  obtain ⟨⟨derived, exceeded⟩, h⟩ :=
    exists_derive engine hhex hsha hadmitted (by omega) hfive sourceRecordIds
  refine ⟨derived, exceeded, h, ?_⟩
  rintro rfl
  have hdepth : depth ≠ 0 := by omega
  rw [deriveInferencesBounded, if_neg (not_not.mpr ⟨by omega, hfive⟩), if_neg hdepth] at h
  obtain ⟨d, hd, h⟩ := bind_eq_ok.mp h
  split_ifs at h with hstop
  · obtain ⟨-, hbudget⟩ := Prod.mk.inj (Except.ok.inj h)
    rcases hstop with hshallow | hexceeded
    · exact absurd hshallow (not_lt.mpr htwo)
    · exact absurd (hexceeded.symm.trans hbudget) (by decide)
  · obtain ⟨d', hd', h⟩ := bind_eq_ok.mp h
    obtain ⟨rfl, hbudget⟩ := Prod.mk.inj (Except.ok.inj h)
    have hone := (Reversed.start (knownRecordIds sourceRecordIds (eligible edges))).all hd
      (by simpa using (not_or.mp hstop).2)
    exact transitivityComplete_of_deepen hhex hsha hone htwo hd' hbudget

/-! ### Two dependencies -/

section Sample

def entityC : EntityRef sized := entityNamed "ccc" (by decide +kernel)

lemma entityC_size : textSize entityC = 159 := by decide +kernel

lemma entityB_ne_entityC : entityB.key ≠ entityC.key := by
  rw [key_eq_digestOf, key_eq_digestOf, entityB_size, entityC_size]
  exact fun h => absurd (digestOf_injective (by decide) (by decide) h) (by decide)

lemma entityB_scope : entityB.scope = entityC.scope := by decide +kernel

/-- A dependency of the second entity on the third, from a time on. -/
def furtherFrom (t : Instant) : RelationEdge sized where
  kind := .dependsOn
  source := entityB
  target := entityC
  targetRecordId := .ofNat 4
  evidence := FrozenSet.ofList [⟨.knowledge, .ofNat 5⟩]
  status := .proposed
  validFrom := t
  validUntil := none
  reviewNote := none
  not_self := entityB_ne_entityC
  same_partition := entityB_scope
  follows := follows_none t
  reviewed_note := proposed_note

/-- Two dependencies, one after the other. -/
def twoDependencies : List (RelationEdge sized) :=
  [relationFrom .dependsOn (.ofMicros 0), furtherFrom (.ofMicros 1)]

lemma twoDependencies_admitted : ∀ e ∈ twoDependencies, Admitted e := by
  intro e he
  rcases List.mem_cons.mp he with rfl | he
  · exact relationFrom_admitted _ _
  · obtain rfl := List.mem_singleton.mp he
    exact ⟨FrozenSet.ofList_ne_nil (List.cons_ne_nil _ _),
      (FrozenSet.length_sorted_ofList_le _).trans (by decide)⟩

/-- Texts of different sizes have no collisions. -/
lemma sized_injOn {texts : List String} {sizes : List ℕ} {S : Set String}
    (hsizes : texts.map String.utf8ByteSize = sizes) (hdistinct : sizes.Nodup)
    (hsmall : ∀ n ∈ sizes, n < 16 ^ 64) (hS : ∀ text ∈ S, text ∈ texts) :
    Set.InjOn sized.sha256 S := by
  intro s hs t ht hdigest
  rw [← hsizes] at hdistinct hsmall
  refine List.inj_on_of_nodup_map hdistinct (hS s hs) (hS t ht) ?_
  exact digestOf_injective (hsmall _ (List.mem_map_of_mem (hS s hs)))
    (hsmall _ (List.mem_map_of_mem (hS t ht))) hdigest

/-- The texts of the three entities. -/
def threeTexts : List String := [entityA, entityB, entityC].map fun e => canonicalJson sized e.dump

lemma threeTexts_size : threeTexts.map String.utf8ByteSize = [157, 158, 159] := by
  show [textSize entityA, textSize entityB, textSize entityC] = _
  rw [entityA_size, entityB_size, entityC_size]

lemma twoDependencies_injOn : Set.InjOn sized.sha256 (endpointTexts twoDependencies) := by
  refine sized_injOn threeTexts_size (by decide) (by decide) ?_
  rintro text ⟨e, he, entity, hentity, rfl⟩
  refine List.mem_map.mpr ⟨entity, ?_, rfl⟩
  rcases List.mem_cons.mp he with rfl | he
  · rcases hentity with rfl | rfl
    · exact List.mem_cons_self ..
    · exact List.mem_cons_of_mem _ (List.mem_cons_self ..)
  · obtain rfl := List.mem_singleton.mp he
    rcases hentity with rfl | rfl
    · exact List.mem_cons_of_mem _ (List.mem_cons_self ..)
    · exact List.mem_cons_of_mem _ (List.mem_cons_of_mem _ (List.mem_cons_self ..))

theorem transitivity_complete_two : ∃ derived exceeded,
    ({} : BoundedReasoningEngine).deriveInferencesBounded twoDependencies 2 =
        .ok (derived, exceeded) ∧
      (exceeded = false → TransitivityComplete twoDependencies 2 derived) :=
  transitivity_complete {} sized_hex twoDependencies_injOn twoDependencies_admitted le_rfl
    (by decide) fun _ => none

end Sample

end CyberBrain.Reasoning.BoundedReasoningEngine
