import CyberBrain.Dreaming.EvolutionGroups

/-!
# The order of the evidence

What a bundle is for records that can be grouped, and when the order of the records does not
matter to it: a group does not list the records of the groups before it as related.
-/

namespace CyberBrain.Dreaming.Evolution

open Python Grouped CyberBrain.Core

/-! ### Lists that are alike -/

/-- The same elements in the order of their keys, which leaves those of one key in any order. -/
structure SameUpTo {α κ : Type*} (key : α → κ) (l m : List α) : Prop where
  perm : l.Perm m
  keys : l.map key = m.map key

lemma SameUpTo.sort {α κ : Type*} [LinearOrder κ] (key : α → κ) {l m : List α} (h : l.Perm m) :
    SameUpTo key (l.insertionSort fun a b => key a ≤ key b)
      (m.insertionSort fun a b => key a ≤ key b) where
  perm := ((List.perm_insertionSort _ l).trans h).trans (List.perm_insertionSort _ m).symm
  keys := by
    have hmap : ∀ l : List α, (l.insertionSort fun a b => key a ≤ key b).map key =
        (l.map key).insertionSort (· ≤ ·) := fun l =>
      List.map_insertionSort _ _ key l fun _ _ _ _ => Iff.rfl
    rw [hmap, hmap]
    exact insertionSort_eq_iff_perm.mpr (h.map key)

/-! ### Items -/

/-- The time can be told in UTC. -/
def Convertible (record : NormalizedEvidence) : Prop :=
  ∀ time ∈ record.eventTime, time.instant?.isSome

/-- What a record needs to be grouped: an identity that can be a key, and a time in UTC. -/
structure Usable (record : NormalizedEvidence) : Prop where
  hashable : identityKey record ≠ none → unhashableType record.context = none
  convertible : Convertible record

/-- The item of a record. -/
def itemOf (hint : String) (record : NormalizedEvidence) : EvolutionItem where
  id := record.id
  version := record.version
  eventTime := record.eventTime.bind fun time => time.instant?.map (·.iso)
  status := record.status
  relationHint := hint
  excerpt := evidenceExcerpt record.content

variable {py : Runtime} {records records' : List NormalizedEvidence} {record : NormalizedEvidence}

lemma checkHashable_eq_ok {u : Unit} :
    checkHashable record = .ok u ↔
      (identityKey record ≠ none → unhashableType record.context = none) := by
  unfold checkHashable
  cases identityKey record <;> cases unhashableType record.context <;> simp

lemma toItem_eq_ok {hint : String} {item : EvolutionItem} :
    toItem hint record = .ok item ↔ Convertible record ∧ item = itemOf hint record := by
  have htext : ∀ text, utcText record.eventTime = .ok text ↔
      Convertible record ∧ text = (itemOf hint record).eventTime := by
    intro text
    cases htime : record.eventTime with
    | none      => simp [utcText, Convertible, itemOf, htime, eq_comm (b := text)]
    | some time =>
      cases hinstant : time.instant? with
      | none         => simp [utcText, Convertible, htime, hinstant, orRaise]
      | some instant =>
        simp [utcText, Convertible, itemOf, htime, hinstant, orRaise, eq_comm (b := text)]
  rw [toItem, bind_eq_ok]
  constructor
  · rintro ⟨text, h, hitem⟩
    obtain ⟨hconvertible, rfl⟩ := (htext text).mp h
    cases hitem
    exact ⟨hconvertible, rfl⟩
  · rintro ⟨hconvertible, rfl⟩
    exact ⟨_, (htext _).mpr ⟨hconvertible, rfl⟩, rfl⟩

lemma mapM_toItem (hint : NormalizedEvidence → String) {l : List NormalizedEvidence}
    {items : List EvolutionItem} :
    (l.mapM fun record => toItem (hint record) record) = .ok items ↔
      (∀ record ∈ l, Convertible record) ∧
        items = l.map fun record => itemOf (hint record) record := by
  constructor
  · intro h
    have hconvertible : ∀ record ∈ l, Convertible record := by
      intro record hrecord
      obtain ⟨item, _, hitem⟩ := ok_of_mapM h hrecord
      exact (toItem_eq_ok.mp hitem).1
    have hall := mapM_eq_ok_of_forall (f := fun record => toItem (hint record) record)
      (g := fun record => itemOf (hint record) record) fun record hrecord =>
        toItem_eq_ok.mpr ⟨hconvertible record hrecord, rfl⟩
    exact ⟨hconvertible, Except.ok.inj (h.symm.trans hall)⟩
  · rintro ⟨hconvertible, rfl⟩
    exact mapM_eq_ok_of_forall fun record hrecord =>
      toItem_eq_ok.mpr ⟨hconvertible record hrecord, rfl⟩

/-! ### Groups -/

/-- The group of an identity. -/
def groupOf (py : Runtime) (records : List NormalizedEvidence) (groupedIds : List String)
    (identity : EvolutionIdentity) : EvolutionGroup where
  domain := identity.domain
  topic := identity.topic
  entityType := identity.entityType
  entityName := identity.entityName
  context := sortItems (((group identityKey records identity).head?.map (·.context)).getD [])
  chain := (chainRecords records identity).map (itemOf "evolution_step")
  relatedEvents := sortEvents
    ((relatedRecords py records groupedIds
      ((chainRecords records identity).head?.bind (·.topic))).map fun candidate =>
        itemOf (relationHint py candidate.content) candidate)
  anomalies := detectAnomalies (chainRecords records identity)

/-- The groups of identities, in this order. -/
def groupsOf (py : Runtime) (records : List NormalizedEvidence) :
    List String → List EvolutionIdentity → List EvolutionGroup
  | _, []                        => []
  | groupedIds, identity :: rest =>
    let groupedIds := groupedIds ++ (chainRecords records identity).map (·.id)
    groupOf py records groupedIds identity :: groupsOf py records groupedIds rest

lemma mem_chainRecords {identity : EvolutionIdentity} :
    record ∈ chainRecords records identity ↔
      record ∈ records ∧ identityKey record = some identity := by
  rw [chainRecords, List.mem_insertionSort, mem_group]

lemma chainRecords_perm (records : List NormalizedEvidence) (identity : EvolutionIdentity) :
    (chainRecords records identity).Perm (group identityKey records identity) :=
  List.perm_insertionSort _ _

lemma buildGroup_eq_ok {groupedIds : List String} {identity : EvolutionIdentity}
    {g : EvolutionGroup} :
    buildGroup py records groupedIds identity = .ok g ↔
      ((∀ record ∈ chainRecords records identity, Convertible record) ∧
        ∀ record ∈ relatedRecords py records groupedIds
          ((chainRecords records identity).head?.bind (·.topic)), Convertible record) ∧
      g = groupOf py records groupedIds identity := by
  simp only [buildGroup, bind_eq_ok, mapM_toItem fun _ => "evolution_step",
    mapM_toItem fun candidate => relationHint py candidate.content]
  constructor
  · rintro ⟨_, ⟨hchain, rfl⟩, _, ⟨hrelated, rfl⟩, hg⟩
    cases hg
    exact ⟨⟨hchain, hrelated⟩, rfl⟩
  · rintro ⟨⟨hchain, hrelated⟩, rfl⟩
    exact ⟨_, ⟨hchain, rfl⟩, _, ⟨hrelated, rfl⟩, rfl⟩

lemma buildGroups_of_convertible (py : Runtime) (h : ∀ record ∈ records, Convertible record)
    (groupedIds : List String) (identities : List EvolutionIdentity) :
    buildGroups py records groupedIds identities =
      .ok (groupsOf py records groupedIds identities) := by
  induction identities generalizing groupedIds with
  | nil                => rfl
  | cons identity rest ih =>
    refine bind_eq_ok.mpr ⟨_, buildGroup_eq_ok.mpr ⟨⟨?_, ?_⟩, rfl⟩, ?_⟩
    · intro record hrecord
      exact h record (mem_chainRecords.mp hrecord).1
    · intro record hrecord
      exact h record (List.mem_filter.mp hrecord).1
    · rw [ih]
      rfl

lemma convertible_of_buildGroups {groupedIds : List String} {identities : List EvolutionIdentity}
    {groups : List EvolutionGroup} (h : buildGroups py records groupedIds identities = .ok groups)
    {identity : EvolutionIdentity} (hidentity : identity ∈ identities)
    (hrecord : record ∈ chainRecords records identity) : Convertible record := by
  induction identities generalizing groupedIds groups with
  | nil => cases hidentity
  | cons first rest ih =>
    obtain ⟨built, hbuilt, h⟩ := bind_eq_ok.mp h
    obtain ⟨others, hothers, _⟩ := bind_eq_ok.mp h
    rcases List.mem_cons.mp hidentity with rfl | hidentity
    · exact (buildGroup_eq_ok.mp hbuilt).1.1 record hrecord
    · exact ih hothers hidentity

/-- The bundle of records that can be grouped. -/
def bundleOf (py : Runtime) (records : List NormalizedEvidence) : EvolutionBundle where
  topic := (records.find? fun record => Present record.topic).bind (·.topic)
  groups := groupsOf py records [] (keys identityKey records)
  ungrouped := (rest identityKey records).map fun record =>
    itemOf (relationHint py record.content) record

/-- A bundle is built exactly if every record can be grouped. -/
theorem buildEvolutionBundle_eq_ok {bundle : EvolutionBundle} :
    buildEvolutionBundle py records = .ok bundle ↔
      (∀ record ∈ records, Usable record) ∧ bundle = bundleOf py records := by
  simp only [buildEvolutionBundle, bind_eq_ok, mapM_toItem fun record =>
    relationHint py record.content]
  constructor
  · rintro ⟨_, hhash, groups, hgroups, _, ⟨hungrouped, rfl⟩, hbundle⟩
    have husable : ∀ record ∈ records, Usable record := by
      intro record hrecord
      refine ⟨checkHashable_eq_ok.mp (forM_eq_ok.mp hhash record hrecord), ?_⟩
      cases hkey : identityKey record with
      | none          =>
        exact hungrouped record (List.mem_filter.mpr ⟨hrecord, by simpa using hkey⟩)
      | some identity =>
        exact convertible_of_buildGroups hgroups (mem_keys.mpr ⟨record, hrecord, hkey⟩)
          (mem_chainRecords.mpr ⟨hrecord, hkey⟩)
    have hgroupsOf := buildGroups_of_convertible py (fun record hrecord =>
      (husable record hrecord).convertible) [] (keys identityKey records)
    cases Except.ok.inj (hgroups.symm.trans hgroupsOf)
    cases hbundle
    exact ⟨husable, rfl⟩
  · rintro ⟨husable, rfl⟩
    refine ⟨(), forM_eq_ok.mpr fun record hrecord =>
      checkHashable_eq_ok.mpr (husable record hrecord).hashable, _,
      buildGroups_of_convertible py (fun record hrecord =>
        (husable record hrecord).convertible) _ _,
      _, ⟨fun record hrecord => ?_, rfl⟩, rfl⟩
    exact (husable record (List.mem_filter.mp hrecord).1).convertible

/-! ### What a group says of its records -/

lemma anomalies_perm {l m : List NormalizedEvidence} (h : l.Perm m) :
    detectAnomalies l = detectAnomalies m := by
  have hversions : FrozenSet.ofList (l.filterMap (·.version)) =
      FrozenSet.ofList (m.filterMap (·.version)) := by
    refine FrozenSet.ext fun version => ?_
    rw [FrozenSet.mem_ofList, FrozenSet.mem_ofList, (h.filterMap _).mem_iff]
  have hany : l.any (·.version = none) = m.any (·.version = none) := by
    rw [Bool.eq_iff_iff, List.any_eq_true, List.any_eq_true]
    simp only [h.mem_iff]
  simp only [detectAnomalies, hversions, h.countP_eq, hany]

lemma identityKey_eq_some {identity : EvolutionIdentity}
    (h : identityKey record = some identity) :
    record.topic = some identity.topic ∧ (Json.obj record.context).value = identity.context := by
  unfold identityKey at h
  split_ifs at h with hpresent
  cases h
  refine ⟨?_, rfl⟩
  cases htopic : record.topic with
  | none       => exact absurd hpresent.2.1 (by simp [Present, htopic])
  | some topic => rfl

lemma value_sortItems (items : List (String × Json)) :
    (Json.obj (sortItems items)).value = (Json.obj items).value := by
  have hmap : ∀ items : List (String × Json),
      Json.valueItems items = items.map fun kv => (kv.1, kv.2.value) := by
    intro items
    induction items with
    | nil             => rfl
    | cons kv items ih => rw [Json.valueItems, ih, List.map_cons]
  have hsort : (sortItems items).map (fun kv => (kv.1, kv.2.value)) =
      sortItems (items.map fun kv => (kv.1, kv.2.value)) :=
    List.map_insertionSort _ _ _ items fun _ _ _ _ => Iff.rfl
  rw [Json.value, Json.value, hmap, hmap, hsort, sortItems_sortItems]

/-- The topic that related records are compared with is that of the identity. -/
lemma chain_topic {identity : EvolutionIdentity} (h : identity ∈ keys identityKey records) :
    (chainRecords records identity).head?.bind (·.topic) = some identity.topic := by
  cases hchain : chainRecords records identity with
  | nil =>
    have hnil := (chainRecords_perm records identity).symm
    rw [hchain] at hnil
    exact absurd hnil.eq_nil (group_ne_nil h)
  | cons first rest =>
    have hfirst := mem_chainRecords.mp (hchain ▸ List.mem_cons_self)
    exact (identityKey_eq_some hfirst.2).1

/-- The context that a group shows is the one of its identity. -/
lemma group_context {identity : EvolutionIdentity} (h : identity ∈ keys identityKey records)
    (groupedIds : List String) :
    (Json.obj (groupOf py records groupedIds identity).context).value = identity.context := by
  rw [groupOf, value_sortItems]
  cases hgroup : group identityKey records identity with
  | nil             => exact absurd hgroup (group_ne_nil h)
  | cons first rest =>
    have hfirst := mem_group.mp (hgroup ▸ List.mem_cons_self)
    exact (identityKey_eq_some hfirst.2).2

/-- The ids of the records with one of these identities. -/
def idsOf (records : List NormalizedEvidence) (identities : List EvolutionIdentity) :
    List String :=
  identities.flatMap fun identity => (chainRecords records identity).map (·.id)

lemma mem_groupsOf {groupedIds : List String} {identities : List EvolutionIdentity}
    {g : EvolutionGroup} :
    g ∈ groupsOf py records groupedIds identities ↔
      ∃ before identity after, identities = before ++ identity :: after ∧
        g = groupOf py records (groupedIds ++ idsOf records (before ++ [identity])) identity := by
  induction identities generalizing groupedIds with
  | nil => simp [groupsOf]
  | cons first rest ih =>
    rw [groupsOf, List.mem_cons, ih]
    constructor
    · rintro (rfl | ⟨before, identity, after, rfl, rfl⟩)
      · exact ⟨[], first, rest, rfl, by simp [idsOf]⟩
      · exact ⟨first :: before, identity, after, rfl, by simp [idsOf]⟩
    · rintro ⟨before, identity, after, heq, rfl⟩
      cases before with
      | nil =>
        cases heq
        exact .inl (by simp [idsOf])
      | cons _ before =>
        cases heq
        exact .inr ⟨before, identity, after, rfl, by simp [idsOf]⟩

lemma length_groupsOf (groupedIds : List String) (identities : List EvolutionIdentity) :
    (groupsOf py records groupedIds identities).length = identities.length := by
  induction identities generalizing groupedIds with
  | nil               => rfl
  | cons first rest ih => rw [groupsOf, List.length_cons, ih, List.length_cons]

lemma flatMap_chain (groupedIds : List String) (identities : List EvolutionIdentity) :
    (groupsOf py records groupedIds identities).flatMap (·.chain) =
      identities.flatMap fun identity =>
        (chainRecords records identity).map (itemOf "evolution_step") := by
  induction identities generalizing groupedIds with
  | nil               => rfl
  | cons first rest ih => rw [groupsOf, List.flatMap_cons, ih, List.flatMap_cons, groupOf]

/-- Every record is in one chain or among the records outside the groups. -/
theorem bundle_partition (records : List NormalizedEvidence) :
    (((bundleOf py records).groups.flatMap (·.chain) ++ (bundleOf py records).ungrouped).map
      (·.id)).Perm (records.map (·.id)) := by
  have hids : ∀ hint, (EvolutionItem.id ∘ itemOf hint) = NormalizedEvidence.id := fun _ => rfl
  have hchains : ((keys identityKey records).flatMap (chainRecords records)).Perm
      ((keys identityKey records).flatMap (group identityKey records)) :=
    List.Perm.flatMap_left _ fun identity _ => chainRecords_perm records identity
  have hparts := ((hchains.append_right _).trans (partition_perm records)).map (·.id)
  refine List.Perm.trans (List.Perm.of_eq ?_) hparts
  simp only [bundleOf, flatMap_chain, List.map_append, List.map_flatMap, List.map_map, hids]
  rfl

/-! ### Distinct ids -/

lemma mem_idsOf (hids : (records.map (·.id)).Nodup) {identities : List EvolutionIdentity}
    (hrecord : record ∈ records) :
    record.id ∈ idsOf records identities ↔ ∃ identity ∈ identities,
      identityKey record = some identity := by
  simp only [idsOf, List.mem_flatMap, List.mem_map]
  constructor
  · rintro ⟨identity, hidentity, other, hother, heq⟩
    obtain ⟨hmem, hkey⟩ := mem_chainRecords.mp hother
    cases List.inj_on_of_nodup_map hids hmem hrecord heq
    exact ⟨identity, hidentity, hkey⟩
  · rintro ⟨identity, hidentity, hkey⟩
    exact ⟨identity, hidentity, record, mem_chainRecords.mpr ⟨hrecord, hkey⟩, rfl⟩

/-- No record with an identity speaks of an event of a topic that has another identity too. -/
def Secluded (py : Runtime) (records : List NormalizedEvidence) : Prop :=
  ∀ record ∈ records, ∀ other ∈ records, identityKey record ≠ none → identityKey other ≠ none →
    identityKey record ≠ identityKey other → record.topic = other.topic → ¬ Eventful py record

lemma chain_ids {groupedIds : List String} {identity : EvolutionIdentity} :
    (groupOf py records groupedIds identity).chain.map (·.id) = idsOf records [identity] := by
  simp only [groupOf, List.map_map, idsOf, List.flatMap_cons, List.flatMap_nil, List.append_nil]
  rfl

/-- Where no event is hidden, the groups before do not matter to the related records. -/
lemma relatedRecords_eq (hids : (records.map (·.id)).Nodup) (hsecluded : Secluded py records)
    {before after : List EvolutionIdentity} {identity : EvolutionIdentity}
    (hkeys : keys identityKey records = before ++ identity :: after) :
    relatedRecords py records (idsOf records (before ++ [identity])) (some identity.topic) =
      relatedRecords py records (idsOf records [identity]) (some identity.topic) := by
  refine List.filter_congr fun record hrecord => decide_eq_decide.mpr (and_congr_left ?_)
  rintro ⟨htopic, hevent⟩
  rw [mem_idsOf hids hrecord, mem_idsOf hids hrecord, not_iff_not]
  constructor
  · rintro ⟨earlier, hearlier, hkey⟩
    rcases List.mem_append.mp hearlier with hbefore | hidentity
    · have hnodup := hkeys ▸ nodup_keys identityKey records
      have hne : earlier ≠ identity := by
        rintro rfl
        exact (List.nodup_append.mp hnodup).2.2 _ hbefore _ List.mem_cons_self rfl
      obtain ⟨other, hother, hotherKey⟩ : ∃ other ∈ records, identityKey other = some identity :=
        mem_keys.mp (hkeys ▸ by simp)
      refine absurd hevent (hsecluded record hrecord other hother (by simp [hkey])
        (by simp [hotherKey]) (by simpa [hkey, hotherKey] using hne) ?_)
      rw [htopic, (identityKey_eq_some hotherKey).1]
    · exact ⟨earlier, hidentity, hkey⟩
  · rintro ⟨own, hown, hkey⟩
    exact ⟨own, List.mem_append_right _ hown, hkey⟩

/-! ### Orders of the records -/

/-- One group in two bundles. -/
structure SameGroup (g g' : EvolutionGroup) : Prop where
  domain : g.domain = g'.domain
  topic : g.topic = g'.topic
  entityType : g.entityType = g'.entityType
  entityName : g.entityName = g'.entityName
  context : (Json.obj g.context).value = (Json.obj g'.context).value
  chain : ∃ l l', SameUpTo sortKey l l' ∧ g.chain = l.map (itemOf "evolution_step") ∧
    g'.chain = l'.map (itemOf "evolution_step")
  relatedEvents : SameUpTo (fun item => item.eventTime.getD "") g.relatedEvents g'.relatedEvents
  anomalies : g.anomalies = g'.anomalies

/-- Two bundles with the same groups, each listed as often. -/
structure SameBundle (bundle bundle' : EvolutionBundle) : Prop where
  groups : ∀ g ∈ bundle.groups, ∃ g' ∈ bundle'.groups, SameGroup g g'
  others : ∀ g' ∈ bundle'.groups, ∃ g ∈ bundle.groups, SameGroup g g'
  count : bundle.groups.length = bundle'.groups.length
  ungrouped : bundle.ungrouped.Perm bundle'.ungrouped

/-- The events of the topic of a group that the records outside its chain speak of. -/
def eventsOutside (py : Runtime) (records : List NormalizedEvidence) (g : EvolutionGroup) :
    List EvolutionItem :=
  (records.filter fun record => record.id ∉ g.chain.map (·.id) ∧ record.topic = some g.topic ∧
    Eventful py record).map fun record => itemOf (relationHint py record.content) record

/-- The records are grouped, each once, with the events of every group, whatever their order. -/
def Grouped (py : Runtime) (records : List NormalizedEvidence) : Prop :=
  ∃ bundle, buildEvolutionBundle py records = .ok bundle ∧
    ((bundle.groups.flatMap (·.chain) ++ bundle.ungrouped).map (·.id)).Perm
      (records.map (·.id)) ∧
    (∀ g ∈ bundle.groups, g.relatedEvents.Perm (eventsOutside py records g)) ∧
    ∀ records', records'.Perm records →
      ∃ bundle', buildEvolutionBundle py records' = .ok bundle' ∧ SameBundle bundle bundle'

lemma SameGroup.symm {g g' : EvolutionGroup} (h : SameGroup g g') : SameGroup g' g where
  domain := h.domain.symm
  topic := h.topic.symm
  entityType := h.entityType.symm
  entityName := h.entityName.symm
  context := h.context.symm
  chain := by
    obtain ⟨l, l', hsame, hchain, hchain'⟩ := h.chain
    exact ⟨l', l, ⟨hsame.perm.symm, hsame.keys.symm⟩, hchain', hchain⟩
  relatedEvents := ⟨h.relatedEvents.perm.symm, h.relatedEvents.keys.symm⟩
  anomalies := h.anomalies.symm

lemma Secluded.perm (h : Secluded py records) (hperm : records'.Perm records) :
    Secluded py records' := fun record hrecord other hother =>
  h record (hperm.mem_iff.mp hrecord) other (hperm.mem_iff.mp hother)

lemma chainRecords_same (hperm : records.Perm records') (identity : EvolutionIdentity) :
    SameUpTo sortKey (chainRecords records identity) (chainRecords records' identity) :=
  SameUpTo.sort sortKey (hperm.filter _)

/-- Every group of the one order is one of the other order. -/
lemma groups_same (hperm : records.Perm records') (hids : (records.map (·.id)).Nodup)
    (hsecluded : Secluded py records) :
    ∀ g ∈ (bundleOf py records).groups, ∃ g' ∈ (bundleOf py records').groups, SameGroup g g' := by
  have hids' := (hperm.map (·.id)).nodup_iff.mp hids
  have hsecluded' := hsecluded.perm hperm.symm
  intro g hg
  obtain ⟨before, identity, after, hkeys, rfl⟩ := mem_groupsOf.mp hg
  have hidentity : identity ∈ keys identityKey records := hkeys ▸ by simp
  have hidentity' := (keys_perm identityKey hperm).mem_iff.mp hidentity
  obtain ⟨before', after', hkeys'⟩ := List.append_of_mem hidentity'
  refine ⟨_, mem_groupsOf.mpr ⟨before', identity, after', hkeys', rfl⟩, ?_⟩
  have hchains := chainRecords_same hperm identity
  constructor
  case context =>
    rw [group_context hidentity, group_context hidentity']
  case chain => exact ⟨_, _, hchains, rfl, rfl⟩
  case relatedEvents =>
    apply SameUpTo.sort
    apply List.Perm.map
    rw [List.nil_append, List.nil_append, chain_topic hidentity, chain_topic hidentity',
      relatedRecords_eq hids hsecluded hkeys, relatedRecords_eq hids' hsecluded' hkeys']
    have hown : ∀ record ∈ records, record.id ∈ idsOf records [identity] ↔
        record.id ∈ idsOf records' [identity] := by
      intro record hrecord
      rw [mem_idsOf hids hrecord, mem_idsOf hids' (hperm.mem_iff.mp hrecord)]
    refine List.Perm.trans (List.Perm.of_eq ?_) (hperm.filter _)
    exact List.filter_congr fun record hrecord =>
      decide_eq_decide.mpr (and_congr_left fun _ => not_congr (hown record hrecord))
  case anomalies => exact anomalies_perm hchains.perm
  all_goals rfl

/-- The related events of a group are the events outside it. -/
lemma relatedEvents_perm (hids : (records.map (·.id)).Nodup) (hsecluded : Secluded py records) :
    ∀ g ∈ (bundleOf py records).groups, g.relatedEvents.Perm (eventsOutside py records g) := by
  intro g hg
  obtain ⟨before, identity, after, hkeys, rfl⟩ := mem_groupsOf.mp hg
  have hidentity : identity ∈ keys identityKey records := hkeys ▸ by simp
  refine (List.perm_insertionSort _ _).trans (List.Perm.of_eq ?_)
  rw [List.nil_append, chain_topic hidentity, relatedRecords_eq hids hsecluded hkeys,
    eventsOutside, chain_ids]
  rfl

lemma Usable.perm (h : ∀ record ∈ records, Usable record) (hperm : records'.Perm records) :
    ∀ record ∈ records', Usable record := fun record hrecord =>
  h record (hperm.mem_iff.mp hrecord)

/-- The record that comes first is not related to the groups after its own. -/
lemma first_hides (py : Runtime) (hids : ((record :: records).map (·.id)).Nodup)
    {first second : EvolutionIdentity} (hfirst : identityKey record = some first)
    (hsecond : second ∈ keys identityKey (record :: records)) (hne : second ≠ first) :
    ∃ g ∈ (bundleOf py (record :: records)).groups, g.topic = second.topic ∧
      record.id ∉ g.chain.map (·.id) ∧ record.id ∉ g.relatedEvents.map (·.id) := by
  obtain ⟨later, hlater⟩ := keys_cons (l := records) hfirst
  have hmem : second ∈ later := (List.mem_cons.mp (hlater ▸ hsecond)).resolve_left hne
  obtain ⟨between, rest, rfl⟩ := List.append_of_mem hmem
  refine ⟨_, mem_groupsOf.mpr ⟨first :: between, second, rest, hlater, rfl⟩, rfl, ?_, ?_⟩
  · rw [chain_ids, mem_idsOf hids List.mem_cons_self]
    rintro ⟨identity, hidentity, hkey⟩
    cases List.mem_singleton.mp hidentity
    exact hne (Option.some.inj (hkey.symm.trans hfirst))
  · intro hlisted
    obtain ⟨item, hitem, hid⟩ := List.mem_map.mp hlisted
    obtain ⟨candidate, hcandidate, rfl⟩ :=
      List.mem_map.mp ((List.mem_insertionSort _).mp hitem)
    have hnot := (of_decide_eq_true (List.mem_filter.mp hcandidate).2).1
    have heq : candidate.id = record.id := hid
    refine hnot (heq ▸ List.mem_append_right _ ?_)
    exact (mem_idsOf hids List.mem_cons_self).mpr ⟨first, List.mem_cons_self, hfirst⟩

/-- An event that another group of its topic has to list may not come first. -/
lemma secluded_of_grouped (hids : (records.map (·.id)).Nodup) (h : Grouped py records) :
    Secluded py records := by
  obtain ⟨bundle, -, -, hrelated, horder⟩ := h
  intro record hrecord other hother hkey hotherKey hne htopic hevent
  obtain ⟨first, hfirst⟩ := Option.ne_none_iff_exists'.mp hkey
  obtain ⟨second, hsecond⟩ := Option.ne_none_iff_exists'.mp hotherKey
  obtain ⟨before, after, rfl⟩ := List.append_of_mem hrecord
  have hperm : (record :: (before ++ after)).Perm (before ++ record :: after) :=
    List.perm_middle.symm
  obtain ⟨bundle', hbuild', hsame⟩ := horder _ hperm
  obtain ⟨-, rfl⟩ := buildEvolutionBundle_eq_ok.mp hbuild'
  obtain ⟨g', hg', hgroupTopic, hnotChain, hhidden⟩ :=
    first_hides py ((hperm.map (·.id)).nodup_iff.mpr hids) hfirst
      (mem_keys.mpr ⟨other, hperm.mem_iff.mpr hother, hsecond⟩) fun heq =>
        hne (by rw [hfirst, hsecond, heq])
  obtain ⟨g, hg, hgroup⟩ := hsame.others g' hg'
  have hlisted : itemOf (relationHint py record.content) record ∈ g.relatedEvents := by
    refine (hrelated g hg).mem_iff.mpr (List.mem_map.mpr ⟨record, List.mem_filter.mpr
      ⟨hrecord, decide_eq_true ⟨?_, ?_, hevent⟩⟩, rfl⟩)
    · obtain ⟨l, l', hchains, hl, hl'⟩ := hgroup.chain
      rwa [hl, ((hchains.perm.map (itemOf "evolution_step")).map _).mem_iff, ← hl']
    · rw [hgroup.topic, hgroupTopic, htopic]
      exact (identityKey_eq_some hsecond).1
  exact hhidden (List.mem_map.mpr ⟨_, hgroup.relatedEvents.perm.mem_iff.mp hlisted, rfl⟩)

/-- With distinct ids, the records are grouped whatever their order exactly if each of them can be
grouped and none with an identity of its own speaks of an event of another identity's topic. -/
theorem grouped_iff (hids : (records.map (·.id)).Nodup) :
    Grouped py records ↔ (∀ record ∈ records, Usable record) ∧ Secluded py records := by
  constructor
  · intro h
    refine ⟨?_, secluded_of_grouped hids h⟩
    obtain ⟨bundle, hbuild, -⟩ := h
    exact (buildEvolutionBundle_eq_ok.mp hbuild).1
  · rintro ⟨husable, hsecluded⟩
    refine ⟨_, buildEvolutionBundle_eq_ok.mpr ⟨husable, rfl⟩, bundle_partition records,
      relatedEvents_perm hids hsecluded, fun records' hperm =>
        ⟨_, buildEvolutionBundle_eq_ok.mpr ⟨Usable.perm husable hperm, rfl⟩, ?_⟩⟩
    have hids' := (hperm.map (·.id)).nodup_iff.mpr hids
    constructor
    case groups => exact groups_same hperm.symm hids hsecluded
    case others =>
      intro g' hg'
      obtain ⟨g, hg, hsame⟩ := groups_same hperm hids' (hsecluded.perm hperm) g' hg'
      exact ⟨g, hg, hsame.symm⟩
    case count =>
      rw [bundleOf, bundleOf, length_groupsOf, length_groupsOf]
      exact (keys_perm identityKey hperm).length_eq.symm
    case ungrouped => exact ((hperm.filter _).map _).symm

/-- A configuration. -/
def configRecord : NormalizedEvidence where
  id := "v1"
  content := "Current config."
  domain := some "code"
  topic := some "x"
  entityType := some "config"
  entityName := some "Thing"
  version := some 1
  status := some "active"

/-- A replacement, told of a concept of the same topic. -/
def eventRecord : NormalizedEvidence where
  id := "event"
  content := "Old dependency was removed and replaced by internal stack."
  domain := some "code"
  topic := some "x"
  entityType := some "concept"
  entityName := some "OtherThing"
  version := some 1
  status := some "active"

/-- A replacement without an identity is related to the configuration in any order. -/
theorem grouped_looseEvent :
    Grouped .ascii [{ eventRecord with domain := none }, configRecord] := by
  refine (grouped_iff (by decide)).mpr ⟨fun record hrecord => ⟨fun _ => ?_, ?_⟩, ?_⟩
  · fin_cases hrecord <;> rfl
  · intro time htime
    fin_cases hrecord <;> simp [eventRecord, configRecord] at htime
  · intro record hrecord other hother hkey hotherKey hne
    have hown : ∀ r ∈ [{ eventRecord with domain := none }, configRecord],
        identityKey r ≠ none → r = configRecord := by
      intro r hr hkey
      fin_cases hr
      · exact absurd (by decide) hkey
      · rfl
    exact absurd (by rw [hown record hrecord hkey, hown other hother hotherKey]) hne

/-- The replacement that has an identity is hidden from the configuration if it comes first, and a
context with a list in it cannot be grouped at all. -/
theorem not_grouped_eventRecord :
    (([eventRecord, configRecord].map (·.id)).Nodup ∧
      ¬ Grouped .ascii [eventRecord, configRecord]) ∧
    buildEvolutionBundle .ascii [{ configRecord with context := [("tags", .arr [])] }] =
      .error (.typeError "unhashable type: 'list'") := by
  refine ⟨⟨by decide, fun h => ?_⟩, by rfl⟩
  refine secluded_of_grouped (by decide) h eventRecord (by simp) configRecord (by simp)
    (by decide) (by decide) (by decide) rfl ?_
  decide +kernel

end CyberBrain.Dreaming.Evolution
