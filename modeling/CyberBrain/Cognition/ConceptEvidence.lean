import CyberBrain.Concepts.Groups
import CyberBrain.Concepts.Registry
import CyberBrain.Knowledge.Evolution
import Mathlib.Logic.Function.Basic

/-!
# Concept evidence of recalls

A recall remembers its rows as evidence in the bucket of its scope, and discovers concepts in the
bucket. Two groups of a bucket can have one candidate id, and then the recall raises.
-/

namespace CyberBrain.Cognition

open Python Concepts Concepts.ConceptDiscoveryEngine
open Knowledge (isFalsy pyStr)

variable (py : Runtime)

/-! ### Remembering -/

/-- A row that is recalled, by its items. -/
abbrev Row := List (String × Json)

/-- `str(row.get(key) or "")`. -/
def rowText (row : Row) (key : String) : String :=
  match row.lookup key with
  | none   => ""
  | some v => if isFalsy v then "" else pyStr py v

/-- `str(row.get(key) or "").strip() or None`. -/
def rowText? (row : Row) (key : String) : Option String :=
  if strip (rowText py row key) = "" then none else some (strip (rowText py row key))

/-- `str(row.get("domain") or row.get("project") or kind).strip() or kind`. -/
def rowDomain (row : Row) (kind : ConceptEvidenceType) : String :=
  let domain := rowText py row "domain"
  let project := rowText py row "project"
  let text := if domain ≠ "" then domain else if project ≠ "" then project else kind.text
  if strip text = "" then kind.text else strip text

/-- The row was assessed to be contradicted. -/
def isCounterexample (row : Row) : Bool :=
  match row.lookup "context" with
  | some (.obj context) =>
    match context.lookup "cognition" with
    | some (.obj cognition) =>
      match cognition.lookup "assessment" with
      | some (.str assessment) => assessment = "contradicted"
      | _                      => false
    | _ => false
  | _ => false

/-- The evidence of a row with an id and a topic. -/
def evidenceFields (row : Row) (kind : ConceptEvidenceType) (scopeMarker : String) :
    EvidenceFields where
  evidenceId := kind.text ++ ":" ++ strip (rowText py row "id")
  recordType := kind
  scopeMarker
  domain := rowDomain py row kind
  topic := strip (rowText py row "topic")
  project := rowText? py row "project"
  entityType := rowText? py row "entity_type"
  entityName := rowText? py row "entity_name"
  sessionId := rowText? py row "session_id"
  source := rowText? py row "source"
  verification := rowText? py row "verification"
  counterexample := isCounterexample row

/-- The concept evidence by scope marker, with the registry of candidates. -/
structure ConceptMemory where
  buckets : String → List ConceptEvidence := fun _ => []
  registry : ConceptShadowRegistry := {}

/-- An item at the end of a bucket, which keeps its last items up to a limit. -/
def pushEvidence (limit : ℕ) (bucket : List ConceptEvidence) (item : ConceptEvidence) :
    List ConceptEvidence :=
  let bucket := bucket.filter (·.evidenceId ≠ item.evidenceId) ++ [item]
  bucket.drop (bucket.length - limit)

/-- `_remember_concept_evidence`. -/
def rememberConceptEvidence (limit : ℕ) (kind : ConceptEvidenceType) (scopeMarker : String)
    (memory : ConceptMemory) (row : Row) : Except Exc ConceptMemory :=
  if strip (rowText py row "id") = "" ∨ strip (rowText py row "topic") = "" then .ok memory
  else do
    let item ← ConceptEvidence.make (evidenceFields py row kind scopeMarker)
    pure { memory with
      buckets := Function.update memory.buckets scopeMarker
        (pushEvidence limit (memory.buckets scopeMarker) item) }

/-- The rows of a recall, one after the other. -/
def rememberAll (limit : ℕ) (kind : ConceptEvidenceType) (scopeMarker : String)
    (memory : ConceptMemory) (rows : List Row) : Except Exc ConceptMemory :=
  rows.foldlM (rememberConceptEvidence py limit kind scopeMarker) memory

/-- `_observe_concepts`: what is left of the memory, and the candidates. -/
def observeConcepts (engine : ConceptDiscoveryEngine) (limit : ℕ) (kind : ConceptEvidenceType)
    (scopeMarker : String) (memory : ConceptMemory) (rows : List Row) :
    ConceptMemory × Except Exc (List ConceptCandidate) :=
  match rememberAll py limit kind scopeMarker memory rows with
  | .error e   => (memory, .error e)
  | .ok memory =>
    match engine.discover py (memory.buckets scopeMarker) with
    | .error e       => (memory, .error e)
    | .ok candidates =>
      match memory.registry.observe candidates with
      | .error e           => (memory, .error e)
      | .ok (_, registry)  => ({ memory with registry }, .ok candidates)

/-! ### Buckets -/

variable {py} {engine : ConceptDiscoveryEngine} {limit : ℕ} {kind : ConceptEvidenceType}
  {scopeMarker : String} {memory memory' : ConceptMemory} {rows : List Row} {row : Row}
  {evidence : List ConceptEvidence}

/-- The evidence ids of every bucket are unique. -/
def ConceptMemory.Unique (memory : ConceptMemory) : Prop :=
  ∀ scopeMarker, ((memory.buckets scopeMarker).map (·.evidenceId)).Nodup

lemma unique_empty : ({} : ConceptMemory).Unique := fun _ => List.nodup_nil

lemma nodup_pushEvidence {bucket : List ConceptEvidence} {item : ConceptEvidence}
    (h : (bucket.map (·.evidenceId)).Nodup) :
    ((pushEvidence limit bucket item).map (·.evidenceId)).Nodup := by
  have hall : ((bucket.filter (·.evidenceId ≠ item.evidenceId) ++ [item]).map
      (·.evidenceId)).Nodup := by
    rw [List.map_append, List.map_singleton]
    refine List.nodup_append.mpr ⟨h.sublist (List.filter_sublist.map _), List.nodup_singleton _, ?_⟩
    intro id hid other hother heq
    obtain ⟨old, hold, rfl⟩ := List.mem_map.mp hid
    obtain rfl := List.mem_singleton.mp hother
    exact absurd heq (by simpa using (List.mem_filter.mp hold).2)
  exact hall.sublist ((List.drop_sublist _ _).map _)

/-- Remembering a row changes one bucket, by an item at its end. -/
lemma remember_cases (h : rememberConceptEvidence py limit kind scopeMarker memory row = .ok memory') :
    memory' = memory ∨ ∃ item, memory' = { memory with
      buckets := Function.update memory.buckets scopeMarker
        (pushEvidence limit (memory.buckets scopeMarker) item) } := by
  unfold rememberConceptEvidence at h
  split_ifs at h
  · cases h
    exact .inl rfl
  · obtain ⟨item, -, heq⟩ := bind_eq_ok.mp h
    cases heq
    exact .inr ⟨item, rfl⟩

lemma ConceptMemory.Unique.remember (hunique : memory.Unique)
    (h : rememberConceptEvidence py limit kind scopeMarker memory row = .ok memory') :
    memory'.Unique := by
  rcases remember_cases h with rfl | ⟨item, rfl⟩
  · exact hunique
  · intro marker
    dsimp only
    by_cases hmarker : marker = scopeMarker
    · subst hmarker
      rw [Function.update_self]
      exact nodup_pushEvidence (hunique marker)
    · rw [Function.update_of_ne hmarker]
      exact hunique marker

lemma ConceptMemory.Unique.rememberAll (hunique : memory.Unique)
    (h : rememberAll py limit kind scopeMarker memory rows = .ok memory') : memory'.Unique := by
  induction rows generalizing memory with
  | nil =>
    cases h
    exact hunique
  | cons row rows ih =>
    obtain ⟨next, hnext, hrest⟩ := bind_eq_ok.mp h
    exact ih (hunique.remember hnext) hrest

/-- Every recall leaves buckets with unique ids. -/
lemma ConceptMemory.Unique.observe (hunique : memory.Unique) :
    (observeConcepts py engine limit kind scopeMarker memory rows).1.Unique := by
  unfold observeConcepts
  cases hremember : Cognition.rememberAll py limit kind scopeMarker memory rows with
  | error e   => exact hunique
  | ok next =>
    have hnext := hunique.rememberAll hremember
    dsimp only
    cases engine.discover py (next.buckets scopeMarker) with
    | error e       => exact hnext
    | ok candidates =>
      dsimp only
      cases next.registry.observe candidates with
      | error e => exact hnext
      | ok r    => exact hnext

/-! ### Distinct candidates -/

/-- Candidates have different ids, and every registry observes them. -/
def Distinct (candidates : List ConceptCandidate) : Prop :=
  (candidates.map (·.candidateConceptId)).Nodup ∧
    ∀ registry : ConceptShadowRegistry, ∃ r, registry.observe candidates = .ok r

lemma distinct_iff {candidates : List ConceptCandidate} :
    Distinct candidates ↔ (candidates.map (·.candidateConceptId)).Nodup :=
  ⟨And.left, fun h => ⟨h, fun _ => ConceptShadowRegistry.exists_observe_iff.mpr h⟩⟩

/-- After its rows are remembered, a recall returns exactly if the candidates of the bucket have
different ids. -/
lemma observeConcepts_ok_iff (hremember : rememberAll py limit kind scopeMarker memory rows = .ok memory')
    {candidates : List ConceptCandidate}
    (hdiscover : engine.discover py (memory'.buckets scopeMarker) = .ok candidates) :
    (∃ found, (observeConcepts py engine limit kind scopeMarker memory rows).2 = .ok found) ↔
      (candidates.map (·.candidateConceptId)).Nodup := by
  have hobserve := @ConceptShadowRegistry.exists_observe_iff memory'.registry candidates
  simp only [observeConcepts, hremember, hdiscover]
  cases hregistry : memory'.registry.observe candidates with
  | error e =>
    refine iff_of_false (fun ⟨_, hfound⟩ => by cases hfound) fun hnodup => ?_
    obtain ⟨r, hr⟩ := hobserve.mpr hnodup
    rw [hregistry] at hr
    cases hr
  | ok r    => exact iff_of_true ⟨candidates, rfl⟩ (hobserve.mp ⟨r, hregistry⟩)

/-- A discovery from evidence with unique ids returns one candidate for each group that meets the
policy. The candidates have different ids, and the recall whose bucket holds the evidence returns,
exactly if no two of these groups have the same labels once these are cut at the delimiter. -/
theorem concepts_distinct_iff (engine : ConceptDiscoveryEngine) (hhex : HexDigests py)
    (hunique : (evidence.map (·.evidenceId)).Nodup)
    (hsha : Set.InjOn (shortDigest py) (groupMaterials py evidence)) :
    ∃ candidates, engine.discover py evidence = .ok candidates ∧
      (candidates.map (candidateKey py)).Perm (engine.qualifyingKeys py evidence) ∧
      (Distinct candidates ↔ engine.Separate py evidence) ∧
      ∀ limit kind scopeMarker memory rows memory',
        rememberAll py limit kind scopeMarker memory rows = .ok memory' →
        memory'.buckets scopeMarker = evidence →
        ((∃ found, (observeConcepts py engine limit kind scopeMarker memory rows).2 = .ok found) ↔
          engine.Separate py evidence) := by
  obtain ⟨candidates, hdiscover, hperm, hidentified⟩ := exists_discover engine hhex hunique
  have hiff := nodup_ids_iff hsha hperm hidentified
  refine ⟨candidates, hdiscover, hperm, distinct_iff.trans hiff, ?_⟩
  rintro limit kind scopeMarker memory rows memory' hremember rfl
  exact (observeConcepts_ok_iff hremember hdiscover).trans hiff

/-! ### Two topics -/

section Sample

/-- A runtime that digests a text to its length. -/
def measured : Runtime :=
  { Runtime.ascii with sha256 := fun s => String.ofList (fixedDigits 16 64 s.length) }

lemma measured_hex : HexDigests measured where
  length s := by simp [measured]
  digits s c hc := by
    rw [measured, String.toList_ofList] at hc
    exact hexValue_fixedDigits hc

/-- An episode of a session about a topic of a domain. -/
def episodeOf (id domain topic session : String)
    (h : Stripped id ∧ Stripped domain ∧ Stripped topic) : ConceptEvidence where
  evidenceId := id
  scopeMarker := "single_owner|project=-"
  domain
  topic
  recordType := .episode
  sessionId := some session
  evidenceId_stripped := h.1
  scopeMarker_stripped := by decide +kernel
  domain_stripped := h.2.1
  topic_stripped := h.2.2

/-- Three episodes about one topic. -/
def episodesAbout (domain topic first second third : String) (h : Stripped domain ∧ Stripped topic ∧
    Stripped first ∧ Stripped second ∧ Stripped third) : List ConceptEvidence :=
  [episodeOf first domain topic "s1" ⟨h.2.2.1, h.1, h.2.1⟩,
    episodeOf second domain topic "s2" ⟨h.2.2.2.1, h.1, h.2.1⟩,
    episodeOf third domain topic "s3" ⟨h.2.2.2.2, h.1, h.2.1⟩]

/-- Episodes about two topics whose domains and topics are joined alike. -/
def twoTopics : List ConceptEvidence :=
  episodesAbout "x|y" "z" "1" "2" "3" (by decide +kernel) ++
    episodesAbout "x" "y|z" "4" "5" "6" (by decide +kernel)

/-- The text of both candidate ids. -/
def sharedMaterial : String := "concept-candidate-v1|single_owner|project=-|x|y|z"

lemma groupMaterial_twoTopics : ∀ item ∈ twoTopics,
    groupMaterial measured (groupKey measured item) = sharedMaterial := by
  decide +kernel

lemma twoTopics_unique : (twoTopics.map (·.evidenceId)).Nodup := by decide +kernel

lemma twoTopics_injOn : Set.InjOn (shortDigest measured) (groupMaterials measured twoTopics) := by
  rintro s ⟨item, hitem, rfl⟩ t ⟨other, hother, rfl⟩ -
  rw [groupMaterial_twoTopics item hitem, groupMaterial_twoTopics other hother]

lemma qualifyingKeys_twoTopics : ({} : ConceptDiscoveryEngine).qualifyingKeys measured twoTopics =
    [("single_owner|project=-", "x|y", "z"), ("single_owner|project=-", "x", "y|z")] := by
  decide +kernel

theorem concepts_distinct_iff_twoTopics :
    ∃ candidates, ({} : ConceptDiscoveryEngine).discover measured twoTopics = .ok candidates ∧
      (candidates.map (candidateKey measured)).Perm
        (({} : ConceptDiscoveryEngine).qualifyingKeys measured twoTopics) ∧
      (Distinct candidates ↔ ({} : ConceptDiscoveryEngine).Separate measured twoTopics) ∧
      ∀ limit kind scopeMarker memory rows memory',
        rememberAll measured limit kind scopeMarker memory rows = .ok memory' →
        memory'.buckets scopeMarker = twoTopics →
        ((∃ found, (observeConcepts measured {} limit kind scopeMarker memory rows).2 = .ok found) ↔
          ({} : ConceptDiscoveryEngine).Separate measured twoTopics) :=
  concepts_distinct_iff {} measured_hex twoTopics_unique twoTopics_injOn

/-- Both topics give a candidate, with one id, and the registry refuses them. -/
theorem candidates_share_id :
    ∃ candidates, ({} : ConceptDiscoveryEngine).discover measured twoTopics = .ok candidates ∧
      ¬ (candidates.map (·.candidateConceptId)).Nodup ∧
      ∀ registry : ConceptShadowRegistry, ¬ ∃ r, registry.observe candidates = .ok r := by
  obtain ⟨candidates, hdiscover, hperm, hidentified⟩ :=
    exists_discover {} measured_hex twoTopics_unique
  have hnot : ¬ (candidates.map (·.candidateConceptId)).Nodup := by
    rw [nodup_ids_iff twoTopics_injOn hperm hidentified, Separate, qualifyingKeys_twoTopics]
    intro hseparate
    have hkeys := hseparate _ (List.mem_cons_self ..) _
      (List.mem_cons_of_mem _ (List.mem_singleton_self _)) (by decide +kernel)
    exact absurd hkeys (by decide)
  exact ⟨candidates, hdiscover, hnot,
    fun registry h => hnot (ConceptShadowRegistry.exists_observe_iff.mp h)⟩

end Sample

end CyberBrain.Cognition
