import CyberBrain.Concepts.Discovery
import Mathlib.Data.List.MinMax

/-!
# One candidate for a group

A discovery gives one candidate for each group that meets the policy, and raises nothing on evidence
with unique ids. The candidates have different ids where the normalised labels of the groups, cut
at the delimiter of the id's text, are different.
-/

namespace CyberBrain.Concepts

open Python

variable {py : Runtime}

/-! ### Representatives -/

lemma countedValues_eq {values : List String} (h : ∀ value ∈ values, Stripped value) :
    countedValues values = values := by
  have hmap : values.map strip = values :=
    (List.map_congr_left fun value hvalue => (h value hvalue).1).trans (List.map_id _)
  rw [countedValues, hmap]
  exact List.filter_eq_self.mpr fun value hvalue => by simpa using (h value hvalue).2

lemma mostFrequent_ne_nil {values : List String} (h : values ≠ []) : mostFrequent values ≠ [] := by
  obtain ⟨value, hvalue⟩ := Option.ne_none_iff_exists'.mp
    (mt List.argmax_eq_none.mp h : values.argmax values.count ≠ none)
  refine List.ne_nil_of_mem (a := value) (List.mem_filter.mpr ⟨List.argmax_mem hvalue, ?_⟩)
  exact decide_eq_true fun other hother => List.le_of_mem_argmax hother hvalue

/-- The representative of stripped texts is one of them. -/
lemma exists_representative {values : List String} (hne : values ≠ [])
    (h : ∀ value ∈ values, Stripped value) :
    ∃ value ∈ values, representative values = .ok value := by
  rw [representative, countedValues_eq h]
  cases hsorted : (mostFrequent values).insertionSort (· ≤ ·) with
  | nil =>
    have hperm := List.perm_insertionSort (· ≤ ·) (mostFrequent values)
    rw [hsorted] at hperm
    exact absurd hperm.symm.eq_nil (mostFrequent_ne_nil hne)
  | cons value rest =>
    refine ⟨value, ?_, rfl⟩
    have hmem : value ∈ (mostFrequent values).insertionSort (· ≤ ·) := hsorted ▸ List.mem_cons_self ..
    exact List.mem_of_mem_filter ((List.mem_insertionSort _).mp hmem)

/-! ### Groups -/

namespace ConceptDiscoveryEngine

variable {engine : ConceptDiscoveryEngine} {evidence group : List ConceptEvidence} {key : GroupKey}
  {item : ConceptEvidence}

/-- A group has the support that the policy asks for. -/
def Qualifies (engine : ConceptDiscoveryEngine) (py : Runtime) (group : List ConceptEvidence) : Prop :=
  engine.policy.minimumSupportCount ≤ (engine.countsOf py group).support ∧
    engine.policy.meetsSupportPolicy (engine.countsOf py group) = true ∧
      engine.policy.hasAbstractionBreadth (engine.countsOf py group) = true

instance : Decidable (engine.Qualifies py group) := inferInstanceAs (Decidable (_ ∧ _ ∧ _))

/-- The text that the id of the candidate of a group is a digest of. -/
def groupMaterial (py : Runtime) (key : GroupKey) : String :=
  "|".intercalate ["concept-candidate-v1", normalizedKey py key.1, key.2.1, key.2.2]

/-- The id of the candidate of a group. -/
def groupId (py : Runtime) (key : GroupKey) : String := "concept:" ++ shortDigest py (groupMaterial py key)

/-- The group that a candidate is for. -/
def candidateKey (py : Runtime) (c : ConceptCandidate) : GroupKey :=
  (c.scopeMarker, normalizedKey py c.domain, normalizedKey py c.topic)

/-- A candidate carries the id of its group. -/
def Identified (py : Runtime) (c : ConceptCandidate) : Prop :=
  c.candidateConceptId = groupId py (candidateKey py c)

lemma mem_groupOf : item ∈ engine.groupOf py evidence key ↔
    item ∈ engine.considered py evidence ∧ groupKey py item = key := by
  rw [groupOf, List.mem_filter, decide_eq_true_eq]

lemma mem_groupKeys : key ∈ engine.groupKeys py evidence ↔
    ∃ item ∈ engine.considered py evidence, groupKey py item = key := by
  rw [groupKeys, List.mem_eraseDups, List.mem_map]

lemma nodup_groupKeys (engine : ConceptDiscoveryEngine) (evidence : List ConceptEvidence) :
    (engine.groupKeys py evidence).Nodup := nodup_eraseDups _

lemma groupOf_sublist (engine : ConceptDiscoveryEngine) (evidence : List ConceptEvidence)
    (key : GroupKey) : (engine.groupOf py evidence key).Sublist evidence :=
  List.filter_sublist.trans List.filter_sublist

/-- The ids of some of the evidence of a group, in order, are unique. -/
lemma nodup_sortedIds (hunique : (group.map (·.evidenceId)).Nodup) (p : ConceptEvidence → Bool) :
    (sortedIds (group.filter p)).Nodup := by
  refine (List.perm_insertionSort _ _).nodup_iff.mpr ?_
  exact hunique.sublist (List.filter_sublist.map _)

lemma mem_sortedIds {items : List ConceptEvidence} {id : String} :
    id ∈ sortedIds items ↔ ∃ item ∈ items, item.evidenceId = id := by
  rw [sortedIds, List.mem_insertionSort, List.mem_map]

/-- No evidence of a group both supports and contradicts. -/
lemma disjoint_sortedIds (hunique : (group.map (·.evidenceId)).Nodup) :
    ∀ id ∈ sortedIds (supporting group), id ∉ sortedIds (contradicting group) := by
  intro id hsupport hcounter
  obtain ⟨item, hitem, rfl⟩ := mem_sortedIds.mp hsupport
  obtain ⟨other, hother, hid⟩ := mem_sortedIds.mp hcounter
  obtain ⟨hmem, hsupporting⟩ := List.mem_filter.mp hitem
  obtain ⟨hmem', hcontradicting⟩ := List.mem_filter.mp hother
  obtain rfl := List.inj_on_of_nodup_map hunique hmem' hmem hid
  rw [hcontradicting] at hsupporting
  cases hsupporting

/-- The fields of the candidate of a group are admitted. -/
lemma admissible_candidateFields (hhex : HexDigests py) (hunique : (group.map (·.evidenceId)).Nodup)
    {scopeMarker domain topic : String} (hscope : Stripped scopeMarker) (hdomain : Stripped domain)
    (htopic : Stripped topic) (hne : supporting group ≠ []) :
    (engine.candidateFields py scopeMarker domain topic group).Admissible := by
  have hstripped {s : String} (h : Stripped s) : strip s ≠ "" := h.1.symm ▸ h.2
  constructor
  case id_ne_empty =>
    refine strip_ne_empty (c := 'c') ?_ (by decide)
    show 'c' ∈ ("concept:" ++ shortDigest py _).toList
    rw [String.toList_append]
    exact List.mem_append_left _ (by decide)
  case scopeMarker_ne_empty => exact hstripped hscope
  case named => exact ⟨hstripped hdomain, hstripped htopic, hstripped htopic⟩
  case support_nodup => exact nodup_sortedIds hunique _
  case counterexamples_nodup => exact nodup_sortedIds hunique _
  case disjoint => exact disjoint_sortedIds hunique
  case support_ne_nil =>
    obtain ⟨item, hitem⟩ := List.exists_mem_of_ne_nil _ hne
    exact List.ne_nil_of_mem (mem_sortedIds.mpr ⟨item, hitem, rfl⟩)
  case confidence => exact Double.inUnit_roundDecimal (Double.inUnit_clamp _) 6
  case fingerprint_ne_empty => exact strip_shortDigest_ne hhex _

/-- What the loop makes of a group: a candidate for it, if it qualifies. -/
lemma candidateOf_cases (hhex : HexDigests py) (hunique : (group.map (·.evidenceId)).Nodup)
    (hne : group ≠ []) (hkey : ∀ item ∈ group, groupKey py item = key) :
    (engine.Qualifies py group ∧ ∃ c, engine.candidateOf py key.1 group = .ok (some c) ∧
        candidateKey py c = key ∧ Identified py c) ∨
      (¬ engine.Qualifies py group ∧ engine.candidateOf py key.1 group = .ok none) := by
  have hscope : Stripped key.1 := by
    obtain ⟨item, hitem⟩ := List.exists_mem_of_ne_nil _ hne
    rw [← hkey item hitem]
    exact item.scopeMarker_stripped
  rw [candidateOf]
  by_cases hfew : (engine.countsOf py group).support < engine.policy.minimumSupportCount
  · rw [if_pos hfew]
    exact .inr ⟨fun hqualifies => absurd hqualifies.1 (not_le.mpr hfew), rfl⟩
  · rw [if_neg hfew]
    have hsupport : supporting group ≠ [] := by
      intro hnil
      have hzero : (engine.countsOf py group).support = 0 := by
        show (supporting group).length = 0
        rw [hnil, List.length_nil]
      have htwo := engine.policy.two_le_support
      rw [hzero] at hfew
      omega
    -- every value of a field of the supporting items is that of an item of the group
    have hitem {field : ConceptEvidence → String} {value : String}
        (hvalue : value ∈ (supporting group).map field) : ∃ item ∈ group, field item = value := by
      obtain ⟨item, hitem, heq⟩ := List.mem_map.mp hvalue
      exact ⟨item, List.mem_of_mem_filter hitem, heq⟩
    have hstripped {field : ConceptEvidence → String} (h : ∀ item : ConceptEvidence,
        Stripped (field item)) : ∀ value ∈ (supporting group).map field, Stripped value := by
      intro value hvalue
      obtain ⟨item, -, rfl⟩ := List.mem_map.mp hvalue
      exact h item
    obtain ⟨domain, hdomain, hdomains⟩ := exists_representative
      (by simpa using hsupport) (hstripped (·.domain_stripped))
    obtain ⟨topic, htopic, htopics⟩ := exists_representative
      (by simpa using hsupport) (hstripped (·.topic_stripped))
    rw [hdomains, htopics]
    simp only [bind, Except.bind]
    by_cases hmeets : engine.policy.meetsSupportPolicy (engine.countsOf py group) = true
    · rw [if_neg (not_not.mpr hmeets)]
      by_cases hbreadth : engine.policy.hasAbstractionBreadth (engine.countsOf py group) = true
      · rw [if_neg (not_not.mpr hbreadth)]
        obtain ⟨c, hc, hfields⟩ := ConceptCandidate.exists_make
          (admissible_candidateFields hhex hunique hscope
            (hstripped (·.domain_stripped) _ hdomain) (hstripped (·.topic_stripped) _ htopic)
            hsupport)
        refine .inl ⟨⟨not_lt.mp hfew, hmeets, hbreadth⟩, c, by rw [hc]; rfl, ?_, ?_⟩
        · obtain ⟨item, hmem, hitem'⟩ := hitem hdomain
          obtain ⟨other, hmem', hother⟩ := hitem htopic
          rw [candidateKey, hfields]
          refine Prod.ext rfl (Prod.ext ?_ ?_)
          · rw [← hkey item hmem, ← hitem']
            rfl
          · rw [← hkey other hmem', ← hother]
            rfl
        · rw [Identified, candidateKey, hfields]
          rfl
      · rw [if_pos hbreadth]
        exact .inr ⟨fun hqualifies => hbreadth hqualifies.2.2, rfl⟩
    · rw [if_pos hmeets]
      exact .inr ⟨fun hqualifies => hmeets hqualifies.2.1, rfl⟩

/-! ### The discovery -/

/-- The groups that meet the policy. -/
def qualifyingKeys (engine : ConceptDiscoveryEngine) (py : Runtime) (evidence : List ConceptEvidence) :
    List GroupKey :=
  (engine.groupKeys py evidence).filter fun key => engine.Qualifies py (engine.groupOf py evidence key)

/-- A discovery from evidence with unique ids gives one candidate for each group that meets the
policy. -/
lemma exists_discover (engine : ConceptDiscoveryEngine) (hhex : HexDigests py)
    (hunique : (evidence.map (·.evidenceId)).Nodup) :
    ∃ candidates, engine.discover py evidence = .ok candidates ∧
      (candidates.map (candidateKey py)).Perm (engine.qualifyingKeys py evidence) ∧
      ∀ c ∈ candidates, Identified py c := by
  obtain ⟨found, hfound, hkeys, hidentified⟩ := exists_mapM_option
    (l := engine.groupKeys py evidence)
    (f := fun key => engine.candidateOf py key.1 (engine.groupOf py evidence key))
    (p := fun key => engine.Qualifies py (engine.groupOf py evidence key))
    (g := candidateKey py) (Q := Identified py) fun key hkey => by
      refine candidateOf_cases hhex
        (hunique.sublist ((groupOf_sublist engine evidence key).map _)) ?_ fun item hitem =>
          (mem_groupOf.mp hitem).2
      obtain ⟨item, hitem, heq⟩ := mem_groupKeys.mp hkey
      exact List.ne_nil_of_mem (mem_groupOf.mpr ⟨hitem, heq⟩)
  refine ⟨_, bind_eq_ok.mpr ⟨⟨⟩, require_eq_ok.mpr hunique, bind_eq_ok.mpr ⟨found, hfound, rfl⟩⟩,
    ?_, fun c hc => hidentified c ((List.mem_insertionSort _).mp hc)⟩
  rw [qualifyingKeys, ← hkeys]
  exact (List.perm_insertionSort _ _).map _

/-! ### Different ids -/

/-- The texts that are digested for the ids of the groups. -/
def groupMaterials (py : Runtime) (evidence : List ConceptEvidence) : Set String :=
  {text | ∃ item ∈ evidence, text = groupMaterial py (groupKey py item)}

/-- The normalised labels of a group, cut at the delimiter. -/
def labelPieces (py : Runtime) (key : GroupKey) : List (List Char) :=
  pieces '|' [normalizedKey py key.1, key.2.1, key.2.2]

/-- No two groups that meet the policy have the same labels once these are cut at the delimiter. -/
def Separate (engine : ConceptDiscoveryEngine) (py : Runtime) (evidence : List ConceptEvidence) :
    Prop :=
  ∀ key ∈ engine.qualifyingKeys py evidence, ∀ key' ∈ engine.qualifyingKeys py evidence,
    labelPieces py key = labelPieces py key' → key = key'

lemma groupMaterial_eq_iff {key key' : GroupKey} :
    groupMaterial py key = groupMaterial py key' ↔ labelPieces py key = labelPieces py key' := by
  have hbar : ("|" : String).toList = ['|'] := rfl
  rw [groupMaterial, groupMaterial, intercalate_eq_iff hbar (List.cons_ne_nil _ _)
    (List.cons_ne_nil _ _)]
  exact List.append_right_inj _

lemma groupId_eq_iff (hsha : Set.InjOn (shortDigest py) (groupMaterials py evidence))
    {key key' : GroupKey} (hkey : key ∈ engine.groupKeys py evidence)
    (hkey' : key' ∈ engine.groupKeys py evidence) :
    groupId py key = groupId py key' ↔ labelPieces py key = labelPieces py key' := by
  have hmaterial {key : GroupKey} (hkey : key ∈ engine.groupKeys py evidence) :
      groupMaterial py key ∈ groupMaterials py evidence := by
    obtain ⟨item, hitem, rfl⟩ := mem_groupKeys.mp hkey
    exact ⟨item, List.mem_of_mem_filter hitem, rfl⟩
  rw [← groupMaterial_eq_iff]
  constructor
  · intro h
    have hchars := congrArg String.toList h
    simp only [groupId, String.toList_append] at hchars
    exact hsha (hmaterial hkey) (hmaterial hkey')
      (String.toList_injective (List.append_cancel_left hchars))
  · intro h
    rw [groupId, groupId, h]

/-- The candidates have different ids exactly if the groups are separate. -/
lemma nodup_ids_iff (hsha : Set.InjOn (shortDigest py) (groupMaterials py evidence))
    {candidates : List ConceptCandidate}
    (hperm : (candidates.map (candidateKey py)).Perm (engine.qualifyingKeys py evidence))
    (hidentified : ∀ c ∈ candidates, Identified py c) :
    (candidates.map (·.candidateConceptId)).Nodup ↔ engine.Separate py evidence := by
  have hids : candidates.map (·.candidateConceptId) =
      (candidates.map (candidateKey py)).map (groupId py) := by
    rw [List.map_map]
    exact List.map_congr_left hidentified
  have hnodup : (engine.qualifyingKeys py evidence).Nodup :=
    (nodup_groupKeys engine evidence).filter _
  rw [hids, (hperm.map _).nodup_iff, List.nodup_map_iff_inj_on hnodup]
  refine forall₂_congr fun key hkey => forall₂_congr fun key' hkey' => ?_
  rw [groupId_eq_iff hsha (List.mem_of_mem_filter hkey) (List.mem_of_mem_filter hkey')]

end ConceptDiscoveryEngine

end CyberBrain.Concepts
