import CyberBrain.Foundation.DateTimeReading
import CyberBrain.Foundation.Lists
import CyberBrain.Relations.Models

/-!
# Canonical bundles

A caller writes the times of an edge in any zone, lists evidence in any order and with repetitions,
and lists edges in any order. Validation brings all of that into one form, which is also what is
read back from a dump.
-/

namespace CyberBrain.Relations

open Python Tenancy

variable {py : Runtime}

/-! ### Times with zones -/

/-- `normalize_time`. -/
def normalizeTime (d : DateTime) : Except Exc Instant := do
  require (d.offset ≠ none) (.valueError "relation time requires an explicit timezone")
  orRaise d.instant? (.overflowError "date value out of range")

/-- A `RelationEdge` as a caller writes it. -/
structure ZonedEdge where
  relationId : Option String := none
  kind : RelationKind
  source : EntityInput
  target : EntityInput
  targetRecordId : Uuid
  evidence : List EvidenceRef
  status : RelationStatus := .proposed
  validFrom : DateTime
  validUntil : Option DateTime := none
  reviewNote : Option String := none

namespace ZonedEdge

/-- The edge with its times in UTC. -/
def normalize (e : ZonedEdge) : Except Exc EdgeInput := do
  let validFrom ← normalizeTime e.validFrom
  let validUntil ← e.validUntil.mapM normalizeTime
  pure {
    relationId := e.relationId
    kind := e.kind
    source := e.source
    target := e.target
    targetRecordId := e.targetRecordId
    evidence := e.evidence
    status := e.status
    validFrom
    validUntil
    reviewNote := e.reviewNote }

variable (py) in
/-- The validation of a `RelationEdge`. -/
def validate (e : ZonedEdge) : Except Exc (RelationEdge py) := do
  let input ← e.normalize
  RelationEdge.make py input

end ZonedEdge

variable (py) in
/-- The validation of a `RelationBundle` with these edges. -/
def validateZoned (edges : List ZonedEdge) : Except Exc (RelationBundle py) := do
  let inputs ← edges.mapM ZonedEdge.normalize
  RelationBundle.validate py (.edges inputs)

/-! ### What validation accepts -/

/-- The entity that labels, a context and a scope are validated to. -/
lemma EntityRef.make_eq_ok {labels : EntityLabels} {context : Context} {values : IdentityValues}
    {e : EntityRef py} : EntityRef.make py labels context values = .ok e ↔
      RelationScope.make py values = .ok e.scope ∧ (∀ kv ∈ labels.items, CanonicalLabel kv.2) ∧
        (canonicalJson py (.obj context)).utf8ByteSize ≤ 16384 ∧
        e.toEntityLabels = labels ∧ e.context = sortedContext context := by
  constructor
  · intro h
    obtain ⟨scope, hscope, h⟩ := bind_eq_ok.mp h
    split_ifs at h with hlabels hsize
    cases h
    exact ⟨hscope, hlabels, hsize, rfl, rfl⟩
  · obtain ⟨elabels, econtext, scope, hcanonical, hsorted⟩ := e
    rintro ⟨hscope, hlabels, hsize, rfl, rfl⟩
    refine bind_eq_ok.mpr ⟨scope, hscope, ?_⟩
    rw [dif_pos hlabels, if_pos hsize]

/-- The edge that an input is validated to. -/
structure ValidatesTo (input : EdgeInput) (e : RelationEdge py) : Prop where
  source : EntityRef.make py input.source.toEntityLabels input.source.context
    input.source.scope = .ok e.source
  target : EntityRef.make py input.target.toEntityLabels input.target.context
    input.target.scope = .ok e.target
  evidence_length : input.evidence ≠ [] ∧ input.evidence.length ≤ 32
  note_length : ∀ note ∈ input.reviewNote, note ≠ "" ∧ note.length ≤ 1000
  relationId : ∀ id ∈ input.relationId, id = e.relationId
  kind : e.kind = input.kind
  targetRecordId : e.targetRecordId = input.targetRecordId
  evidence : e.evidence = FrozenSet.ofList input.evidence
  status : e.status = input.status
  validFrom : e.validFrom = input.validFrom
  validUntil : e.validUntil = input.validUntil
  reviewNote : e.reviewNote = input.reviewNote

lemma RelationEdge.make_eq_ok {input : EdgeInput} {e : RelationEdge py} :
    RelationEdge.make py input = .ok e ↔ ValidatesTo input e := by
  constructor
  · intro h
    obtain ⟨source, hsource, h⟩ := bind_eq_ok.mp h
    obtain ⟨target, htarget, h⟩ := bind_eq_ok.mp h
    obtain ⟨_, hevidence, h⟩ := bind_eq_ok.mp h
    obtain ⟨_, hnote, h⟩ := bind_eq_ok.mp h
    rw [require_eq_ok] at hevidence hnote
    split_ifs at h with hself hscope htime hreview hid
    cases h
    refine ⟨hsource, htarget, hevidence, hnote, fun id hmem => ?_, rfl, rfl, rfl, rfl, rfl, rfl,
      rfl⟩
    by_contra hne
    exact hid ⟨id, hmem, hne⟩
  · intro h
    obtain ⟨kind, source, target, targetRecordId, evidence, status, validFrom, validUntil,
      reviewNote, hself, hscope, hfollows, hreviewed⟩ := e
    obtain ⟨hsource, htarget, hevidence, hnote, hid, rfl, rfl, rfl, rfl, rfl, rfl, rfl⟩ := h
    refine bind_eq_ok.mpr ⟨source, hsource, bind_eq_ok.mpr ⟨target, htarget, bind_eq_ok.mpr
      ⟨(), require_eq_ok.mpr hevidence, bind_eq_ok.mpr ⟨(), require_eq_ok.mpr hnote, ?_⟩⟩⟩⟩
    rw [dif_neg hself, dif_neg (not_not.mpr hscope), dif_neg, dif_neg, if_neg]
    · rintro ⟨id, hmem, hne⟩
      exact hne (hid id hmem)
    · rintro ⟨hstatus, hblank⟩
      obtain ⟨note, hmem, hne⟩ := hreviewed hstatus
      exact hne (hblank note hmem)
    · rintro ⟨t, hmem, hlt⟩
      exact hlt (hfollows t hmem)

lemma sortedContext_eq_nil {context : Context} : sortedContext context = [] ↔ context = [] := by
  rw [sortedContext, ← List.length_eq_zero_iff, (sortItems_perm _).length_eq, Json.sortKeysItems_eq,
    List.length_map, List.length_eq_zero_iff]

lemma distinctEvidence_perm {edges edges' : List (RelationEdge py)} (h : edges.Perm edges') :
    RelationBundle.distinctEvidence edges = RelationBundle.distinctEvidence edges' := by
  apply FrozenSet.ext
  intro r
  simp only [RelationBundle.distinctEvidence, FrozenSet.mem_ofList, List.mem_flatMap, h.mem_iff]

/-- A bundle is determined by which edges it has. -/
lemma RelationBundle.eq_of_perm {b c : RelationBundle py} (h : b.edges.Perm c.edges) : b = c := by
  obtain ⟨edges, hincreasing⟩ := b
  obtain ⟨edges', hincreasing'⟩ := c
  have hedges : edges = edges' := List.Perm.eq_of_pairwise
    (fun _ _ _ _ hlt hlt' => absurd hlt (not_lt_of_gt hlt'))
    (List.pairwise_map.mp hincreasing) (List.pairwise_map.mp hincreasing') h
  cases hedges
  rfl

/-- A list of edges is accepted when each is and the bundle lists what they are validated to. -/
lemma RelationBundle.validate_eq_ok {inputs : List EdgeInput} {b : RelationBundle py} :
    RelationBundle.validate py (.edges inputs) = .ok b ↔ inputs.length ≤ 64 ∧
      (RelationBundle.distinctEvidence b.edges).sorted.length ≤ 128 ∧
      ∃ results, inputs.mapM (RelationEdge.make py) = .ok results ∧ results.Perm b.edges := by
  constructor
  · intro h
    obtain ⟨_, hlength, h⟩ := bind_eq_ok.mp h
    obtain ⟨results, hresults, h⟩ := bind_eq_ok.mp h
    obtain ⟨_, hevidence, h⟩ := bind_eq_ok.mp h
    rw [require_eq_ok] at hlength hevidence
    split_ifs at h with hnodup
    cases h
    have hperm := List.perm_insertionSort
      (fun a b : RelationEdge py => a.relationId ≤ b.relationId) results
    refine ⟨hlength, ?_, results, hresults, hperm.symm⟩
    rwa [distinctEvidence_perm hperm]
  · rintro ⟨hlength, hevidence, results, hresults, hperm⟩
    have hnodup : (results.map (·.relationId)).Nodup :=
      (hperm.map _).nodup_iff.mpr (b.increasing.imp fun h => ne_of_lt h)
    refine bind_eq_ok.mpr ⟨(), require_eq_ok.mpr hlength, bind_eq_ok.mpr ⟨results, hresults,
      bind_eq_ok.mpr ⟨(), require_eq_ok.mpr ?_, ?_⟩⟩⟩
    · rwa [distinctEvidence_perm hperm]
    · rw [dif_pos hnodup]
      exact congrArg _ (RelationBundle.eq_of_perm ((List.perm_insertionSort _ _).trans hperm))

lemma validateZoned_eq_ok {edges : List ZonedEdge} {b : RelationBundle py} :
    validateZoned py edges = .ok b ↔ edges.length ≤ 64 ∧
      (RelationBundle.distinctEvidence b.edges).sorted.length ≤ 128 ∧
      ∃ results, edges.mapM (ZonedEdge.validate py) = .ok results ∧ results.Perm b.edges := by
  constructor
  · intro h
    obtain ⟨inputs, hinputs, h⟩ := bind_eq_ok.mp h
    obtain ⟨hlength, hevidence, results, hresults, hperm⟩ := RelationBundle.validate_eq_ok.mp h
    have hsame := (mapM_eq_ok_iff_forall₂.mp hinputs).length_eq
    exact ⟨hsame ▸ hlength, hevidence, results, mapM_mapM.mp ⟨inputs, hinputs, hresults⟩, hperm⟩
  · rintro ⟨hlength, hevidence, results, hvalidate, hperm⟩
    obtain ⟨inputs, hinputs, hresults⟩ := mapM_mapM.mpr hvalidate
    have hsame := (mapM_eq_ok_iff_forall₂.mp hinputs).length_eq
    exact bind_eq_ok.mpr ⟨inputs, hinputs, RelationBundle.validate_eq_ok.mpr
      ⟨hsame ▸ hlength, hevidence, results, hresults, hperm⟩⟩

/-! ### Equivalent edges -/

/-- Two readings of clocks that are aware and show one instant. -/
structure SameTime (d d' : DateTime) : Prop where
  aware : d.offset ≠ none
  aware' : d'.offset ≠ none
  instant : d.instant? = d'.instant?

/-- Edges that differ in the order and the repetitions of their evidence and in the zones in which
their times are written. -/
structure SameEdge (e f : ZonedEdge) : Prop where
  relationId : f.relationId = e.relationId
  kind : f.kind = e.kind
  source : f.source = e.source
  target : f.target = e.target
  targetRecordId : f.targetRecordId = e.targetRecordId
  evidence : ∀ r, r ∈ f.evidence ↔ r ∈ e.evidence
  evidence_length : f.evidence.length ≤ 32
  status : f.status = e.status
  validFrom : SameTime e.validFrom f.validFrom
  validUntil : Option.Rel SameTime e.validUntil f.validUntil
  reviewNote : f.reviewNote = e.reviewNote

lemma normalizeTime_same {d d' : DateTime} (h : SameTime d d') :
    normalizeTime d' = normalizeTime d := by
  simp only [normalizeTime, require, if_pos h.aware, if_pos h.aware', h.instant]

lemma mapM_normalizeTime_same {d d' : Option DateTime} (h : Option.Rel SameTime d d') :
    d'.mapM normalizeTime = d.mapM normalizeTime := by
  cases h with
  | none => rfl
  | some hsame => simp only [Option.mapM_some, normalizeTime_same hsame]

lemma ZonedEdge.normalize_eq_ok {e : ZonedEdge} {input : EdgeInput} :
    e.normalize = .ok input ↔ ∃ validFrom validUntil, normalizeTime e.validFrom = .ok validFrom ∧
      e.validUntil.mapM normalizeTime = .ok validUntil ∧
      input = {
        relationId := e.relationId
        kind := e.kind
        source := e.source
        target := e.target
        targetRecordId := e.targetRecordId
        evidence := e.evidence
        status := e.status
        validFrom
        validUntil
        reviewNote := e.reviewNote } := by
  constructor
  · intro h
    obtain ⟨validFrom, hfrom, h⟩ := bind_eq_ok.mp h
    obtain ⟨validUntil, huntil, h⟩ := bind_eq_ok.mp h
    exact ⟨validFrom, validUntil, hfrom, huntil, (Except.ok.inj h).symm⟩
  · rintro ⟨validFrom, validUntil, hfrom, huntil, rfl⟩
    exact bind_eq_ok.mpr ⟨validFrom, hfrom, bind_eq_ok.mpr ⟨validUntil, huntil, rfl⟩⟩

/-- Equivalent edges are validated to the same edge. -/
lemma ZonedEdge.validate_same {e f : ZonedEdge} (h : SameEdge e f) {edge : RelationEdge py}
    (hvalidate : e.validate py = .ok edge) : f.validate py = .ok edge := by
  obtain ⟨input, hinput, hmake⟩ := bind_eq_ok.mp hvalidate
  obtain ⟨validFrom, validUntil, hfrom, huntil, rfl⟩ := normalize_eq_ok.mp hinput
  have hto := RelationEdge.make_eq_ok.mp hmake
  refine bind_eq_ok.mpr ⟨_, normalize_eq_ok.mpr ⟨validFrom, validUntil,
    (normalizeTime_same h.validFrom).trans hfrom, (mapM_normalizeTime_same h.validUntil).trans huntil,
    rfl⟩, RelationEdge.make_eq_ok.mpr ?_⟩
  have hne : f.evidence ≠ [] := by
    obtain ⟨r, hr⟩ := List.exists_mem_of_ne_nil _ hto.evidence_length.1
    exact List.ne_nil_of_mem ((h.evidence r).mpr hr)
  have hevidence : FrozenSet.ofList f.evidence = FrozenSet.ofList e.evidence :=
    FrozenSet.ext fun r => by simp only [FrozenSet.mem_ofList, h.evidence]
  constructor
  · simpa only [h.source] using hto.source
  · simpa only [h.target] using hto.target
  · exact ⟨hne, h.evidence_length⟩
  · simpa only [h.reviewNote] using hto.note_length
  · simpa only [h.relationId] using hto.relationId
  · exact hto.kind.trans h.kind.symm
  · exact hto.targetRecordId.trans h.targetRecordId.symm
  · exact hto.evidence.trans hevidence.symm
  · exact hto.status.trans h.status.symm
  · exact hto.validFrom
  · exact hto.validUntil
  · exact hto.reviewNote.trans h.reviewNote.symm

/-- Reordered and equivalent edges give the same bundle. -/
theorem validateZoned_same {edges reordered edges' : List ZonedEdge}
    (hperm : edges.Perm reordered) (hsame : List.Forall₂ SameEdge reordered edges')
    {b : RelationBundle py} (h : validateZoned py edges = .ok b) :
    validateZoned py edges' = .ok b := by
  obtain ⟨hlength, hevidence, results, hresults, hedges⟩ := validateZoned_eq_ok.mp h
  obtain ⟨results', hresults', hperm'⟩ := mapM_perm hperm hresults
  refine validateZoned_eq_ok.mpr ⟨?_, hevidence, results', ?_, hperm'.symm.trans hedges⟩
  · rw [← hsame.length_eq, ← hperm.length_eq]
    exact hlength
  · rw [mapM_eq_ok_iff_forall₂] at hresults' ⊢
    clear hresults hedges hperm' hperm
    induction hsame generalizing results' with
    | nil => exact hresults'
    | cons hedge _ ih =>
      cases hresults' with
      | cons hresult hrest => exact .cons (ZonedEdge.validate_same hedge hresult) (ih _ hrest)

end CyberBrain.Relations
