import CyberBrain.Relations.Dream
import CyberBrain.Relations.RecallBudget

/-!
# Evidence of a dream

What an expansion returns is bounded and new, and each item rests on complete paths of a recall
that returned. It shows a record that is stored, within the grant of the caller, and from no later
time than the end of the bucket.
-/

namespace CyberBrain.Relations

open CyberBrain.Core Python Schemas Tenancy RelationTraversal
open Dreaming (EvidenceItem)

variable {py : Runtime}

/-! ### Items of paths -/

section Build

variable {bucket : TemporalBucket} {recalled : RecallResult} {seen : List (String × String)}
  {paths : List TraversalPath} {ref : EvidenceRef} {items : List EvidenceItem}

lemma EvidenceRef.key_injective : Function.Injective EvidenceRef.key := fun _ _ h =>
  EvidenceRef.sortKey_injective (congrArg toLex h)

lemma mem_newRefs : ref ∈ newRefs seen paths ↔ (∃ p ∈ paths, ref ∈ p.shown) ∧ ref.key ∉ seen := by
  rw [newRefs, List.mem_filter, ← FrozenSet.mem_def, FrozenSet.mem_ofList, List.mem_flatMap,
    Bool.not_eq_true', ← Bool.not_eq_true, List.contains_iff_mem]

lemma newRefs_nil : newRefs seen [] = [] :=
  List.eq_nil_iff_forall_not_mem.mpr fun ref href => by simp [mem_newRefs] at href

/-- The keys of the references that are new are new, and different. -/
lemma nodup_newRefs : ((newRefs seen paths).map EvidenceRef.key).Nodup :=
  (((FrozenSet.nodup_sorted _).filter _).map EvidenceRef.key_injective)

variable (bucket recalled) in
/-- An item rests on complete paths of a recall, which show its reference. -/
def Supported (item : EvidenceItem) : Prop :=
  ∃ paths ref row, paths.Sublist recalled.paths ∧ (∃ p ∈ paths, ref ∈ p.shown) ∧
    (ref, row) ∈ recalled.records.rows ∧ item = itemOf bucket recalled paths ref row

lemma buildItem_eq_ok {item : EvidenceItem}
    (h : buildItem bucket recalled paths ref = .ok item) :
    ∃ row, (ref, row) ∈ recalled.records.rows ∧ item = itemOf bucket recalled paths ref row := by
  obtain ⟨⟨ref', row⟩, hrow, h⟩ := CyberBrain.bind_eq_ok.mp h
  have hfind := orRaise_eq_ok.mp hrow
  have href := List.find?_some (p := fun e : EvidenceRef × RecallRow => e.1 = ref) hfind
  obtain rfl : ref' = ref := by simpa using href
  exact ⟨row, Table.mem_of_find? hfind, (Except.ok.inj h).symm⟩

/-- The items of paths are those of the references that are new, in order. -/
lemma build_keys (h : build bucket recalled seen paths = .ok items) :
    items.map itemKey = (newRefs seen paths).map EvidenceRef.key := by
  have hall := forall₂_of_mapM h
  generalize newRefs seen paths = refs at hall ⊢
  clear h
  induction hall with
  | nil => rfl
  | cons hitem _ ih =>
    obtain ⟨row, -, rfl⟩ := buildItem_eq_ok hitem
    exact congrArg₂ List.cons rfl ih

lemma build_supported (h : build bucket recalled seen paths = .ok items)
    (hpaths : paths.Sublist recalled.paths) : ∀ item ∈ items, Supported bucket recalled item := by
  intro item hitem
  obtain ⟨ref, href, hbuild⟩ := (mem_of_mapM h).mp hitem
  obtain ⟨row, hrow, rfl⟩ := buildItem_eq_ok hbuild
  exact ⟨paths, ref, row, hpaths, (mem_newRefs.mp href).1, hrow, rfl⟩

end Build

/-! ### Packing -/

section Packing

variable {cfg : DreamRelationRecall} {bucket : TemporalBucket} {recalled : RecallResult}
  {s : DreamExpansion}

variable (py cfg) in
/-- Items within the limits. -/
structure ItemsFit (items : List EvidenceItem) : Prop where
  count : items.length ≤ cfg.totalLimit
  tokens : itemTokens py items ≤ cfg.contextTokens

variable (py cfg bucket recalled s) in
/-- What is packed when some of the paths are done. -/
structure PacksItems (done : List TraversalPath) (p : ItemPacking) : Prop where
  sublist : p.selected.Sublist done
  built : build bucket recalled s.seen p.selected = .ok p.packed
  fits : ItemsFit py cfg (s.result ++ p.packed)

lemma PacksItems.step {done : List TraversalPath} {p p' : ItemPacking} {path : TraversalPath}
    (hp : PacksItems py cfg bucket recalled s done p)
    (hpack : cfg.packItems py bucket recalled s p path = .ok p') :
    PacksItems py cfg bucket recalled s (done ++ [path]) p' := by
  obtain ⟨proposed, hbuild, hpack⟩ := CyberBrain.bind_eq_ok.mp hpack
  cases hpack
  split_ifs with hover
  · exact ⟨hp.sublist.trans (List.sublist_append_left _ _), hp.built, hp.fits⟩
  · rw [not_or, not_lt, not_lt] at hover
    exact ⟨hp.sublist.append (List.Sublist.refl _), hbuild, ⟨hover.1, hover.2⟩⟩

lemma packsItems_of_foldlM (hs : ItemsFit py cfg s.result) {p : ItemPacking}
    (h : recalled.paths.foldlM (cfg.packItems py bucket recalled s) {} = .ok p) :
    PacksItems py cfg bucket recalled s recalled.paths p := by
  refine foldlM_loop (PacksItems py cfg bucket recalled s) (fun done path p p' hp => hp.step) ?_ h
  refine ⟨List.nil_sublist _, ?_, by simpa using hs⟩
  rw [build, newRefs_nil]
  rfl

end Packing

/-! ### Partitions -/

section Partitions

variable {cfg : DreamRelationRecall} {bucket : TemporalBucket} {service : RelationTraversal py}
  {views : ℕ → RecallView py} {seed items : List EvidenceItem} {s s' : DreamExpansion}

variable (bucket) in
/-- A request for what was known at the end of a bucket. -/
structure ForBucket (request : RelationRecallRequest) : Prop where
  asOf : request.policy.asOf = some bucket.endTime
  recordTokens : request.recordTokens = 256

lemma requestFor_eq_ok {ids : List String} {callsLeft tokensLeft : ℕ}
    {request : RelationRecallRequest}
    (h : cfg.requestFor bucket ids callsLeft tokensLeft = .ok request) :
    ForBucket bucket request ∧ request.policy.maxStorageCalls = callsLeft ∧
      request.contextTokens = tokensLeft := by
  obtain ⟨seedIds, -, h⟩ := CyberBrain.bind_eq_ok.mp h
  split_ifs at h with hbounds
  cases h
  exact ⟨⟨rfl, rfl⟩, rfl, rfl⟩

variable (bucket service views) in
/-- A recall for the bucket that returned. -/
def Recalled (recalled : RecallResult) : Prop :=
  ∃ n request, RelationRecallService.recall (service.at (views n)) (views n).hydrated request =
    .ok recalled ∧ ForBucket bucket request

variable (cfg bucket service views seed) in
/-- What holds between partitions, with the recalls that have returned. -/
structure Expanded (recalls : List RecallResult) (s : DreamExpansion) : Prop where
  returned : ∀ r ∈ recalls, Recalled bucket service views r
  calls : s.callsLeft + (recalls.map (·.storageCalls)).sum = cfg.maxStorageCalls
  tokens : s.tokensLeft + (recalls.map (·.estimatedTokens)).sum = cfg.contextTokens
  callsLeft : 0 ≤ s.callsLeft
  tokensLeft : 0 ≤ s.tokensLeft
  fits : ItemsFit py cfg s.result
  seen : s.seen = seed.map itemKey ++ s.result.map itemKey
  distinct : (s.result.map itemKey).Nodup
  fresh : ∀ item ∈ s.result, itemKey item ∉ seed.map itemKey
  supported : ∀ item ∈ s.result, ∃ r ∈ recalls, Supported bucket r item

lemma Expanded.absorb {recalls : List RecallResult} {recalled : RecallResult}
    (hs : Expanded cfg bucket service views seed recalls s)
    (hreturned : Recalled bucket service views recalled)
    (hcalls : recalled.storageCalls ≤ s.callsLeft) (htokens : recalled.estimatedTokens ≤ s.tokensLeft)
    (h : cfg.absorb py bucket s recalled = .ok s') :
    Expanded cfg bucket service views seed (recalls ++ [recalled]) s' := by
  obtain ⟨p, hp, h⟩ := CyberBrain.bind_eq_ok.mp h
  cases h
  have hpacks := packsItems_of_foldlM hs.fits hp
  have hkeys := build_keys hpacks.built
  have hnew : ∀ item ∈ p.packed, itemKey item ∉ s.seen := by
    intro item hitem
    have hkey := List.mem_map_of_mem (f := itemKey) hitem
    rw [hkeys] at hkey
    obtain ⟨ref, href, heq⟩ := List.mem_map.mp hkey
    rw [← heq]
    exact (mem_newRefs.mp href).2
  have hcallsLeft := hs.calls
  have htokensLeft := hs.tokens
  refine {
    returned := fun r hr => ?_
    calls := ?_
    tokens := ?_
    callsLeft := by dsimp only; omega
    tokensLeft := by dsimp only; omega
    fits := hpacks.fits
    seen := by simp only [hs.seen, List.map_append, List.append_assoc]
    distinct := ?_
    fresh := fun item hitem => ?_
    supported := fun item hitem => ?_ }
  · rcases List.mem_append.mp hr with hr | hr
    · exact hs.returned r hr
    · exact List.mem_singleton.mp hr ▸ hreturned
  · simp only [List.map_append, List.sum_append, List.map_cons, List.map_nil, List.sum_cons,
      List.sum_nil]
    omega
  · simp only [List.map_append, List.sum_append, List.map_cons, List.map_nil, List.sum_cons,
      List.sum_nil]
    omega
  · rw [List.map_append, List.nodup_append']
    refine ⟨hs.distinct, hkeys ▸ nodup_newRefs, fun key hold hnewKey => ?_⟩
    obtain ⟨item, hitem, rfl⟩ := List.mem_map.mp hnewKey
    exact hnew item hitem (hs.seen ▸ List.mem_append_right _ hold)
  · rcases List.mem_append.mp hitem with hitem | hitem
    · exact hs.fresh item hitem
    · exact fun hkey => hnew item hitem (hs.seen ▸ List.mem_append_left _ hkey)
  · rcases List.mem_append.mp hitem with hitem | hitem
    · obtain ⟨r, hr, hsupported⟩ := hs.supported item hitem
      exact ⟨r, List.mem_append_left _ hr, hsupported⟩
    · exact ⟨recalled, List.mem_append_right _ (List.mem_singleton_self _),
        build_supported hpacks.built hpacks.sublist item hitem⟩

/-- The turn of a partition recalls nothing, or takes in what a recall returns. -/
lemma Expanded.group (hknowledge : service.scrollKnowledge.Lawful (knowledgeSchema py))
    (hepisodes : service.scrollEpisodes.Lawful episodeSchema) {recalls : List RecallResult}
    (hs : Expanded cfg bucket service views seed recalls s) {n : ℕ} {ids : List String}
    (h : cfg.expandGroup bucket service (views n) s ids = .ok s') :
    ∃ recalls', Expanded cfg bucket service views seed recalls' s' := by
  obtain ⟨request, hrequest, h⟩ := CyberBrain.bind_eq_ok.mp h
  obtain ⟨hfor, hmaximum, hcontext⟩ := requestFor_eq_ok hrequest
  cases hrecall : RelationRecallService.recall (service.at (views n)) (views n).hydrated request with
  | ok recalled =>
    rw [hrecall] at h
    have hcalls := recall_calls (t := service.at (views n)) hknowledge hepisodes hrecall
    have htokens := (recall_tokens (t := service.at (views n)) hknowledge hepisodes hrecall).2
    have hcallsLeft := hs.callsLeft
    have htokensLeft := hs.tokensLeft
    exact ⟨recalls ++ [recalled], hs.absorb ⟨n, request, hrecall, hfor⟩ (by omega) (by omega) h⟩
  | error e =>
    simp only [hrecall] at h
    split_ifs at h
    cases h
    exact ⟨recalls, hs⟩

lemma Expanded.groups (hknowledge : service.scrollKnowledge.Lawful (knowledgeSchema py))
    (hepisodes : service.scrollEpisodes.Lawful episodeSchema) {groups : List (List String)} :
    ∀ {n recalls s}, Expanded cfg bucket service views seed recalls s →
      cfg.expandGroups bucket service views n s groups = .ok s' →
      ∃ recalls', Expanded cfg bucket service views seed recalls' s' := by
  induction groups with
  | nil =>
    rintro n recalls s hs h
    cases h
    exact ⟨recalls, hs⟩
  | cons ids groups ih =>
    rintro n recalls s hs h
    rw [DreamRelationRecall.expandGroups] at h
    split_ifs at h
    · cases h
      exact ⟨recalls, hs⟩
    · obtain ⟨t, ht, h⟩ := CyberBrain.bind_eq_ok.mp h
      obtain ⟨recalls', ht'⟩ := hs.group hknowledge hepisodes ht
      exact ih ht' h

lemma itemTokens_nil : itemTokens py [] ≤ 512 :=
  DeterministicTokenCounter.estimateTokens_le (by decide)
    (by rw [jsonText, String.length_ofList]; exact (show 2 ≤ 2048 by decide))

lemma expanded_start : Expanded cfg bucket service views seed []
    { seen := seed.map itemKey, callsLeft := cfg.maxStorageCalls,
      tokensLeft := cfg.contextTokens } where
  returned := by simp
  calls := by simp
  tokens := by simp
  callsLeft := Int.natCast_nonneg _
  tokensLeft := Int.natCast_nonneg _
  fits := ⟨Nat.zero_le _, itemTokens_nil.trans cfg.context_bounds.1⟩
  seen := by simp
  distinct := List.nodup_nil
  fresh := by simp
  supported := by simp

/-- How an expansion that returns has found its items. -/
lemma expand_spec (hknowledge : service.scrollKnowledge.Lawful (knowledgeSchema py))
    (hepisodes : service.scrollEpisodes.Lawful episodeSchema)
    (h : cfg.expand bucket service views seed = .ok items) :
    ∃ recalls s, Expanded cfg bucket service views seed recalls s ∧ items = s.result := by
  obtain ⟨_, -, h⟩ := CyberBrain.bind_eq_ok.mp h
  obtain ⟨groups, -, h⟩ := CyberBrain.bind_eq_ok.mp h
  obtain ⟨s, hs, h⟩ := CyberBrain.bind_eq_ok.mp h
  cases h
  obtain ⟨recalls, hexpanded⟩ := expanded_start.groups hknowledge hepisodes hs
  exact ⟨recalls, s, hexpanded, rfl⟩

/-- An expansion keeps to its budgets. Its items are few, small, new and different, the recalls
that returned have together kept to the calls and to the tokens, and each item rests on complete
paths of one of them. -/
theorem expand_bounded (hknowledge : service.scrollKnowledge.Lawful (knowledgeSchema py))
    (hepisodes : service.scrollEpisodes.Lawful episodeSchema)
    (h : cfg.expand bucket service views seed = .ok items) :
    items.length ≤ cfg.totalLimit ∧ itemTokens py items ≤ cfg.contextTokens ∧
      (items.map itemKey).Nodup ∧ (∀ item ∈ items, itemKey item ∉ seed.map itemKey) ∧
      ∃ recalls : List RecallResult, (∀ r ∈ recalls, Recalled bucket service views r) ∧
        (recalls.map (·.storageCalls)).sum ≤ cfg.maxStorageCalls ∧
        (recalls.map (·.estimatedTokens)).sum ≤ cfg.contextTokens ∧
        ∀ item ∈ items, ∃ r ∈ recalls, Supported bucket r item := by
  obtain ⟨recalls, s, hs, rfl⟩ := expand_spec hknowledge hepisodes h
  have hcalls := hs.calls
  have htokens := hs.tokens
  have hcallsLeft := hs.callsLeft
  have htokensLeft := hs.tokensLeft
  exact ⟨hs.fits.count, hs.fits.tokens, hs.distinct, hs.fresh, recalls, hs.returned, by omega,
    by omega, hs.supported⟩

end Partitions

/-! ### What the items show -/

section Shown

variable {known : KnowledgeRecord py → Prop} {seen : EpisodeRecord → Prop}
  {policy : TraversalPolicy} {at' : Instant} {path : TraversalPath} {ref : EvidenceRef}

variable (known seen at') in
/-- A reference to a known record that is visible. -/
def RecordStands (ref : EvidenceRef) : Prop :=
  match ref.recordType with
  | .knowledge => ∃ r, known r ∧ r.id = ref.id ∧ eligible at' r ∧ r.recordClass = .knowledge
  | .episode   => ∃ r, seen r ∧ r.id = ref.id ∧ visibleEpisode at' r

lemma EvidenceStands.recordStands {scope : RelationScope py}
    (h : EvidenceStands known seen policy at' scope ref) : RecordStands known seen at' ref := by
  unfold EvidenceStands at h
  unfold RecordStands
  cases hkind : ref.recordType with
  | knowledge =>
    rw [hkind] at h
    obtain ⟨r, hr, hid, hvisible, -⟩ := h
    exact ⟨r, hr, hid, hvisible.1, hvisible.2.1⟩
  | episode =>
    rw [hkind] at h
    obtain ⟨r, hr, hid, hvisible, -⟩ := h
    exact ⟨r, hr, hid, hvisible⟩

/-- What a path that stands shows are visible records. -/
lemma PathStands.recordStands (h : PathStands known seen policy at' path) (href : ref ∈ path.shown) :
    RecordStands known seen at' ref := by
  rcases List.mem_append.mp href with href | href
  · obtain ⟨id, hid, rfl⟩ := List.mem_map.mp href
    obtain ⟨key, -, r, hr⟩ := exists_of_forall₂ h.ends.flip hid
    exact ⟨r, hr.mem, hr.id, hr.visible.1, hr.visible.2.1⟩
  · obtain ⟨step, hstep, hmem⟩ := List.mem_flatMap.mp href
    obtain ⟨i, hi⟩ := List.mem_iff_getElem?.mp hstep
    obtain ⟨owner, edge, hstands⟩ := h.steps i step hi
    exact (hstands.evidence ref hmem).recordStands

lemma evaluationTime_le {now asOf : Instant}
    (h : evaluationTime now (some asOf) = .ok at') : at' ≤ asOf := by
  rw [evaluationTime] at h
  split_ifs at h with hpast
  · cases h
    exact Nat.le_refl _
  · cases h
    exact Nat.le_of_lt (Nat.lt_of_not_le hpast)

lemma evaluatedAt_le {t : RelationTraversal py} {seedIds : List Uuid} {asOf : Instant}
    {found : TraversalResult} (hasOf : policy.asOf = some asOf)
    (h : t.traverse seedIds policy = .ok found) : found.evaluatedAt ≤ asOf := by
  obtain ⟨_, -, h⟩ := CyberBrain.bind_eq_ok.mp h
  obtain ⟨at', htime, h⟩ := CyberBrain.bind_eq_ok.mp h
  rw [hasOf] at htime
  suffices heq : found.evaluatedAt = at' from heq ▸ evaluationTime_le htime
  rcases hrun : t.search policy at' (sortIds seedIds) {} with ⟨e | _, s⟩ <;> rw [hrun] at h
  · cases e with
    | raised e => cases h
    | limit reason =>
      cases h
      rfl
  · cases h
    rfl

/-- An item shows a record that is stored, within the grant and visible at a time: its text, cut,
and its time. -/
inductive ShowsRecord (store : RelationStore py) (bound : Option (CallerAuthority py))
    (at' : Instant) (item : EvidenceItem) : Prop
  | knowledge (r : KnowledgeRecord py) (held : Held (knowledgeSchema py) store.knowledge bound r)
      (visible : eligible at' r ∧ r.recordClass = .knowledge)
      (key : itemKey item = ("knowledge", r.id.text))
      (content : item.content = tokenCounter.clipToTokens r.content 256)
      (time : item.eventTime = some { wall := r.createdAt })
  | episode (r : EpisodeRecord) (held : Held episodeSchema store.episodes bound r)
      (visible : visibleEpisode at' r)
      (key : itemKey item = ("episode", r.id.text))
      (content : item.content = tokenCounter.clipToTokens r.content 256)
      (time : item.eventTime = some { wall := r.eventTime })

/-- The row of a reference that stands shows the record for which it stands. -/
lemma showsRecord_of_row {h : Hydrated py} {store : RelationStore py}
    {bound : Option (CallerAuthority py)} {row : RecallRow} {bucket : TemporalBucket}
    {recalled : RecallResult} {paths : List TraversalPath}
    (hknowledge : ∀ r, h.Known r → Held (knowledgeSchema py) store.knowledge bound r)
    (hepisodes : ∀ r, h.Seen r → Held episodeSchema store.episodes bound r)
    (hstands : RecordStands h.Known h.Seen at' ref) (hrow : RowShows h.Known h.Seen 256 ref row) :
    ShowsRecord store bound at' (itemOf bucket recalled paths ref row) := by
  obtain ⟨kind, id⟩ := ref
  cases kind with
  | knowledge =>
    obtain ⟨r, hr, hid, hvisible⟩ := hstands
    obtain ⟨r', hr', hid', rfl⟩ := hrow
    obtain rfl : r = r' := hr.unique hr' (hid.trans hid'.symm)
    exact .knowledge r (hknowledge r hr) hvisible (by rw [hid]; rfl) rfl rfl
  | episode =>
    obtain ⟨r, hr, hid, hvisible⟩ := hstands
    obtain ⟨r', hr', hid', rfl⟩ := hrow
    obtain rfl : r = r' := hr.unique hr' (hid.trans hid'.symm)
    exact .episode r (hepisodes r hr) hvisible (by rw [hid]; rfl) rfl rfl

/-- The time of an item is not later than the time at which its record is visible. -/
lemma ShowsRecord.time_le {store : RelationStore py} {bound : Option (CallerAuthority py)}
    {item : EvidenceItem} (h : ShowsRecord store bound at' item) :
    ∃ time : Instant, time ≤ at' ∧ item.eventTime = some { wall := time } := by
  cases h with
  | knowledge r _ hvisible _ _ htime => exact ⟨_, hvisible.1.2.1, htime⟩
  | episode r _ hvisible _ _ htime => exact ⟨_, hvisible.2, htime⟩

variable {cfg : DreamRelationRecall} {bucket : TemporalBucket} {service : RelationTraversal py}
  {views : ℕ → RecallView py} {seed items : List EvidenceItem}

/-- Every item shows a record that was stored when the records of some recall were read again,
within the grant of the caller and visible no later than the end of the bucket, and it names at
least one path, all of which show the record and stand on what was read again. -/
theorem expand_evidence (hknowledge : service.scrollKnowledge.Lawful (knowledgeSchema py))
    (hepisodes : service.scrollEpisodes.Lawful episodeSchema)
    (h : cfg.expand bucket service views seed = .ok items) :
    ∀ item ∈ items, ∃ n at' paths, at' ≤ bucket.endTime ∧
      ShowsRecord (views n).hydrated service.bound at' item ∧
      (∃ time : Instant, time ≤ bucket.endTime ∧ item.eventTime = some { wall := time }) ∧
      item.metadata.lookup "relation_as_of" = some (.str at'.iso) ∧
      item.metadata.lookup "relation_paths" = some (.arr (paths.map TraversalPath.dump)) ∧
      paths ≠ [] ∧ ∀ p ∈ paths, itemKey item ∈ p.shown.map EvidenceRef.key ∧
        ∃ policy, PathStands (Held (knowledgeSchema py) (views n).hydrated.knowledge service.bound)
          (Held episodeSchema (views n).hydrated.episodes service.bound) policy at' p := by
  intro item hitem
  obtain ⟨recalls, s, hs, rfl⟩ := expand_spec hknowledge hepisodes h
  obtain ⟨recalled, hrecalled, paths, ref, row, hpaths, ⟨p, hp, href⟩, hrow, rfl⟩ :=
    hs.supported item hitem
  obtain ⟨n, request, hrecall, hfor⟩ := hs.returned recalled hrecalled
  obtain ⟨found, hydrated, hfound, hgrounded⟩ :=
    recall_spec (t := service.at (views n)) hknowledge hepisodes hrecall
  have hstands {q : TraversalPath} (hq : q ∈ paths) := hgrounded.stands q (hpaths.subset hq)
  have hshows := hgrounded.rows (ref, row) hrow
  rw [hfor.recordTokens] at hshows
  have hrecord : ShowsRecord (views n).hydrated service.bound found.evaluatedAt
      (itemOf bucket recalled paths ref row) :=
    showsRecord_of_row hgrounded.knowledge hgrounded.episodes ((hstands hp).recordStands href)
      hshows
  have hend := evaluatedAt_le hfor.asOf hfound
  obtain ⟨time, htime, heq⟩ := hrecord.time_le
  refine ⟨n, found.evaluatedAt, paths.filter (ref ∈ ·.shown), hend, hrecord,
    ⟨time, Nat.le_trans htime hend, heq⟩, ?_, rfl, ?_, fun q hq => ?_⟩
  · rw [← hgrounded.evaluated]
    rfl
  · exact List.ne_nil_of_mem (List.mem_filter.mpr ⟨hp, decide_eq_true href⟩)
  · obtain ⟨hmem, hshown⟩ := List.mem_filter.mp hq
    exact ⟨List.mem_map_of_mem (f := EvidenceRef.key) (of_decide_eq_true hshown), request.policy,
      (hstands hmem).mono hgrounded.knowledge hgrounded.episodes⟩

end Shown

end CyberBrain.Relations
