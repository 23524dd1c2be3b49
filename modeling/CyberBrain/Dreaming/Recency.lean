import CyberBrain.Dreaming.Orchestration
import CyberBrain.Foundation.Ranking

/-!
# The evidence of current-state tasks

The tasks about the current state of a topic share the end of its evidence as sorted by the text of
the event time. Undated items stand at that end, and texts are ordered as the times are only within
one time zone.
-/

namespace CyberBrain.Dreaming

open Python Ranking ReasonerProvider

variable {py : Runtime}

/-! ### Recency -/

/-- The time in microseconds of UTC, in which a naive clock is read. -/
def eventMicros (time : DateTime) : ℤ := time.wall.micros - time.offset.getD 0

/-- An item is as recent as another one: where that is dated, it is dated too and not earlier. -/
def EvidenceItem.AsRecent (a b : EvidenceItem) : Prop :=
  ∀ time ∈ b.eventTime, ∃ time' ∈ a.eventTime, eventMicros time ≤ eventMicros time'

/-- How many of `n` items `latest` keeps. -/
def MultipassPolicy.latestCount (policy : MultipassPolicy) (n : ℕ) : ℕ :=
  min (if 0 ≤ policy.maxEvidencePerTask then policy.maxEvidencePerTask
    else n + policy.maxEvidencePerTask).toNat n

/-- How many of `n` items the current-state tasks share, two neighbours each. -/
def MultipassPolicy.currentCount (policy : MultipassPolicy) (n : ℕ) : ℕ :=
  let tasks := (min policy.currentTaskCount (policy.latestCount n)).toNat
  if tasks = 0 then 0 else min (tasks + 1) (policy.latestCount n)

/-- The evidence from the last text of a time to the first. -/
def fromLast (evidence : List EvidenceItem) : List EvidenceItem :=
  (evidence.insertionSort fun a b => evidenceSortKey a ≤ evidenceSortKey b).reverse

/-- The evidence that the current-state tasks share. -/
def currentEvidence (policy : MultipassPolicy) (evidence : List EvidenceItem) :
    List EvidenceItem :=
  (fromLast evidence).take (policy.currentCount evidence.length)

/-- The evidence that they leave out. -/
def otherEvidence (policy : MultipassPolicy) (evidence : List EvidenceItem) : List EvidenceItem :=
  (fromLast evidence).drop (policy.currentCount evidence.length)

lemma fromLast_perm (evidence : List EvidenceItem) : (fromLast evidence).Perm evidence :=
  (List.reverse_perm _).trans (List.perm_insertionSort _ _)

/-! ### Windows -/

/-- The first windows of two cover the list up to one element after them. -/
lemma mem_windows {α : Type*} {l : List α} {a : α} (t : ℕ) :
    (∃ i < t, a ∈ (l.drop i).take 2) ↔ a ∈ l.take (if t = 0 then 0 else t + 1) := by
  induction t generalizing l with
  | zero => simp
  | succ t ih =>
    cases l with
    | nil => simp
    | cons b l =>
      have hsplit : (∃ i < t + 1, a ∈ ((b :: l).drop i).take 2) ↔
          a ∈ (b :: l).take 2 ∨ ∃ i < t, a ∈ (l.drop i).take 2 := by
        constructor
        · rintro ⟨i, hi, ha⟩
          cases i with
          | zero   => exact .inl ha
          | succ i => exact .inr ⟨i, by omega, ha⟩
        · rintro (ha | ⟨i, hi, ha⟩)
          · exact ⟨0, by omega, ha⟩
          · exact ⟨i + 1, by omega, ha⟩
      rw [hsplit, ih]
      cases t with
      | zero   => simp
      | succ t =>
        have hsub : a ∈ l.take 1 → a ∈ l.take (t + 2) :=
          fun ha => (List.take_sublist_take_left (by omega)).subset ha
        simp
        tauto

variable {policy : MultipassPolicy} {evidence : List EvidenceItem} {item : EvidenceItem}

/-- `latest` keeps the first items from the last text. -/
lemma latest_eq : upTo (fromLast evidence) policy.maxEvidencePerTask =
    (fromLast evidence).take (policy.latestCount evidence.length) := by
  rw [upTo, List.take_eq_take_min, (fromLast_perm evidence).length_eq,
    MultipassPolicy.latestCount]

/-- The current-state tasks of a topic have the shared evidence. -/
lemma mem_currentTasks :
    (∃ draft ∈ topicTasks py policy evidence, draft.1 = .currentState ∧ item ∈ draft.2.2) ↔
      item ∈ currentEvidence policy evidence := by
  have hlength : ((fromLast evidence).take (policy.latestCount evidence.length)).length =
      policy.latestCount evidence.length := by
    rw [List.length_take, (fromLast_perm evidence).length_eq, MultipassPolicy.latestCount]
    exact min_eq_left (min_le_right _ _)
  have htasks : (min policy.currentTaskCount
      (upTo (fromLast evidence) policy.maxEvidencePerTask).length).toNat =
      (min policy.currentTaskCount (policy.latestCount evidence.length)).toNat := by
    rw [latest_eq, hlength]
  have hwindows := mem_windows (l := upTo (fromLast evidence) policy.maxEvidencePerTask) (a := item)
    (min policy.currentTaskCount (policy.latestCount evidence.length)).toNat
  have htake : (upTo (fromLast evidence) policy.maxEvidencePerTask).take
      (if (min policy.currentTaskCount (policy.latestCount evidence.length)).toNat = 0 then 0
        else (min policy.currentTaskCount (policy.latestCount evidence.length)).toNat + 1) =
      currentEvidence policy evidence := by
    rw [latest_eq, List.take_take, currentEvidence, MultipassPolicy.currentCount]
    split_ifs
    · rw [Nat.zero_min]
    · rfl
  rw [← htake, ← hwindows]
  simp only [topicTasks, List.mem_append, List.mem_map, List.mem_range]
  constructor
  · rintro ⟨draft, ((⟨i, hi, rfl⟩ | hreplaced) | ⟨pair, -, rfl⟩) | ⟨caveat, -, rfl⟩, hkind, hitem⟩
    · exact ⟨i, htasks ▸ hi, hitem⟩
    · split_ifs at hreplaced with hnone
      · cases hreplaced
      · rw [List.mem_singleton.mp hreplaced] at hkind
        cases hkind
    · cases hkind
    · cases hkind
  · rintro ⟨i, hi, hitem⟩
    exact ⟨_, .inl (.inl (.inl ⟨i, htasks.symm ▸ hi, rfl⟩)), rfl, hitem⟩

variable (py) in
/-- The drafts of all focal topics. -/
def focalDrafts (reasoner : MultipassDreamReasoner) (request : DreamReasoningRequest) :
    List (String × TaskDraft) :=
  request.focalTopics.flatMap fun topic =>
    let evidence := (request.evidenceByTopic.lookup topic).getD []
    if evidence = [] then [] else (topicTasks py reasoner.policy evidence).map fun d => (topic, d)

variable {reasoner : MultipassDreamReasoner} {request : DreamReasoningRequest} {topic : String}

lemma mem_focalDrafts (htopic : topic ∈ request.focalTopics)
    (hevidence : request.evidenceByTopic.lookup topic = some evidence) (hne : evidence ≠ [])
    (draft : TaskDraft) :
    (topic, draft) ∈ focalDrafts py reasoner request ↔
      draft ∈ topicTasks py reasoner.policy evidence := by
  simp only [focalDrafts, List.mem_flatMap]
  constructor
  · rintro ⟨topic', -, hmem⟩
    split_ifs at hmem
    · cases hmem
    · obtain ⟨d, hd, heq⟩ := List.mem_map.mp hmem
      cases heq
      rwa [hevidence] at hd
  · intro hdraft
    refine ⟨topic, htopic, ?_⟩
    rw [hevidence, Option.getD_some, if_neg hne]
    exact List.mem_map_of_mem hdraft

/-- The tasks of a topic and a kind have the evidence of the drafts. -/
lemma mem_buildTasks (htopic : topic ∈ request.focalTopics)
    (hevidence : request.evidenceByTopic.lookup topic = some evidence) (hne : evidence ≠ [])
    {kind : ReasoningTaskKind} :
    (∃ task ∈ reasoner.buildTasks py request, task.topic = topic ∧ task.kind = kind ∧
        item ∈ task.evidence) ↔
      ∃ draft ∈ topicTasks py reasoner.policy evidence, draft.1 = kind ∧ item ∈ draft.2.2 := by
  have htasks : reasoner.buildTasks py request = ((focalDrafts py reasoner request).zipIdx 1).map
      fun p => makeTask request p.1.1 p.2 p.1.2 := rfl
  constructor
  · rintro ⟨task, htask, rfl, rfl, hitem⟩
    rw [htasks] at htask
    obtain ⟨⟨⟨topic, draft⟩, n⟩, hdraft, rfl⟩ := List.mem_map.mp htask
    have hmem : (topic, draft) ∈ focalDrafts py reasoner request :=
      List.fst_mem_of_mem_zipIdx hdraft
    exact ⟨draft, (mem_focalDrafts htopic hevidence hne draft).mp hmem, rfl, hitem⟩
  · rintro ⟨draft, hdraft, rfl, hitem⟩
    obtain ⟨n, hn⟩ : ∃ n, ((topic, draft), n) ∈ (focalDrafts py reasoner request).zipIdx 1 := by
      have hmem := (mem_focalDrafts htopic hevidence hne draft).mpr hdraft
      rw [← List.zipIdx_map_fst 1 (focalDrafts py reasoner request)] at hmem
      obtain ⟨⟨p, n⟩, hp, rfl⟩ := List.mem_map.mp hmem
      exact ⟨n, hp⟩
    rw [htasks]
    exact ⟨_, List.mem_map_of_mem hn, rfl, rfl, hitem⟩

/-! ### Cuts -/

lemma evidenceSortKey_le {a b : EvidenceItem} (h : evidenceSortKey b ≤ evidenceSortKey a)
    (hundated : b.eventTime = none) : a.eventTime = none := by
  cases ha : a.eventTime with
  | none      => rfl
  | some time => simp [evidenceSortKey, hundated, ha, Prod.Lex.toLex_le_toLex] at h

/-- What the cut keeps does not come before what it leaves. -/
lemma sortKey_le_of_cut {k : ℕ} : ∀ a ∈ (fromLast evidence).take k,
    ∀ b ∈ (fromLast evidence).drop k, evidenceSortKey b ≤ evidenceSortKey a := by
  have hsorted : (fromLast evidence).Pairwise
      fun a b => evidenceSortKey b ≤ evidenceSortKey a := by
    rw [fromLast, List.pairwise_reverse]
    exact List.pairwise_insertionSort _ _
  rw [← List.take_append_drop k (fromLast evidence), List.pairwise_append] at hsorted
  exact hsorted.2.2

/-- Within one time zone the texts are ordered as the times. -/
lemma asRecent_of_offset {offset : Option ℤ} {a b : EvidenceItem} {time time' : DateTime}
    (ha : a.eventTime = some time') (hb : b.eventTime = some time) (hoffset : time.offset = offset)
    (hoffset' : time'.offset = offset) (h : evidenceSortKey b ≤ evidenceSortKey a) :
    a.AsRecent b := by
  have htext : time.isoformat ≤ time'.isoformat := by
    simpa [evidenceSortKey, ha, hb, Prod.Lex.toLex_le_toLex] using h
  have hwall : time.wall.micros ≤ time'.wall.micros := by
    by_contra hlt
    exact absurd (DateTime.isoformat_lt (not_le.mp hlt) (hoffset'.trans hoffset.symm))
      (not_lt.mpr htext)
  intro t ht
  cases hb.symm.trans ht
  refine ⟨time', ha, ?_⟩
  rw [eventMicros, eventMicros, hoffset, hoffset']
  omega

/-- An undated item leaves no room for dated ones: where the cut leaves any item, it keeps an undated
one and leaves a dated one. -/
lemma all_dated_of_asRecent {k : ℕ} (hk : k ≠ 0) (hlt : k < evidence.length)
    (hdated : ∃ item ∈ evidence, item.eventTime ≠ none)
    (h : ∀ a ∈ (fromLast evidence).take k, ∀ b ∈ (fromLast evidence).drop k, a.AsRecent b) :
    ∀ item ∈ evidence, item.eventTime ≠ none := by
  have hlength := (fromLast_perm evidence).length_eq
  have hsplit : ∀ item ∈ evidence, item ∈ (fromLast evidence).take k ∨
      item ∈ (fromLast evidence).drop k := fun item hitem => by
    rw [← List.mem_append, List.take_append_drop]
    exact (fromLast_perm evidence).mem_iff.mpr hitem
  obtain ⟨a, ha⟩ : ∃ a, a ∈ (fromLast evidence).take k :=
    List.exists_mem_of_length_pos (by simp; omega)
  obtain ⟨b, hb⟩ : ∃ b, b ∈ (fromLast evidence).drop k :=
    List.exists_mem_of_length_pos (by simp; omega)
  -- a dated item that is left
  obtain ⟨d, hd, time, htime⟩ :
      ∃ d ∈ (fromLast evidence).drop k, ∃ time, d.eventTime = some time := by
    obtain ⟨d, hd, hsome⟩ := hdated
    rcases hsplit d hd with htop | hbottom
    · exact ⟨b, hb, Option.ne_none_iff_exists'.mp fun hnone =>
        hsome (evidenceSortKey_le (sortKey_le_of_cut d htop b hb) hnone)⟩
    · exact ⟨d, hbottom, Option.ne_none_iff_exists'.mp hsome⟩
  intro item hitem hundated
  obtain ⟨u, hu, hnone⟩ : ∃ u ∈ (fromLast evidence).take k, u.eventTime = none := by
    rcases hsplit item hitem with htop | hbottom
    · exact ⟨item, htop, hundated⟩
    · exact ⟨a, ha, evidenceSortKey_le (sortKey_le_of_cut a ha item hbottom) hundated⟩
  obtain ⟨time', htime', -⟩ := h u hu d hd time htime
  cases hnone.symm.trans htime'

/-- The current-state tasks of a topic with a dated item share the end of its evidence as sorted by
text. It is the most recent evidence exactly if the tasks have no evidence or all of it, or if every
item is dated and the cut separates no item from a later one. In one time zone it does not. -/
theorem currentEvidence_asRecent_iff (htopic : topic ∈ request.focalTopics)
    (hevidence : request.evidenceByTopic.lookup topic = some evidence)
    (hdated : ∃ item ∈ evidence, item.eventTime ≠ none) :
    (∀ item, (∃ task ∈ reasoner.buildTasks py request, task.topic = topic ∧
        task.kind = .currentState ∧ item ∈ task.evidence) ↔
      item ∈ currentEvidence reasoner.policy evidence) ∧
    evidence.Perm (currentEvidence reasoner.policy evidence ++
      otherEvidence reasoner.policy evidence) ∧
    ((∀ a ∈ currentEvidence reasoner.policy evidence,
        ∀ b ∈ otherEvidence reasoner.policy evidence, a.AsRecent b) ↔
      reasoner.policy.currentCount evidence.length = 0 ∨
        evidence.length ≤ reasoner.policy.currentCount evidence.length ∨
        (∀ item ∈ evidence, item.eventTime ≠ none) ∧
          ∀ p ∈ evidence.zipIdx, ∀ q ∈ evidence.zipIdx,
            outranked evidenceSortKey evidence p < reasoner.policy.currentCount evidence.length →
              reasoner.policy.currentCount evidence.length ≤ outranked evidenceSortKey evidence q →
                p.1.AsRecent q.1) ∧
    ∀ offset, (∀ item ∈ evidence, ∃ time, item.eventTime = some time ∧ time.offset = offset) →
      ∀ a ∈ currentEvidence reasoner.policy evidence,
        ∀ b ∈ otherEvidence reasoner.policy evidence, a.AsRecent b := by
  have hne : evidence ≠ [] := by
    rintro rfl
    simp at hdated
  refine ⟨fun item => (mem_buildTasks htopic hevidence hne).trans mem_currentTasks, ?_, ?_, ?_⟩
  · rw [currentEvidence, otherEvidence, List.take_append_drop]
    exact (fromLast_perm evidence).symm
  · rw [currentEvidence, otherEvidence]
    generalize reasoner.policy.currentCount evidence.length = k
    have hcut : (∀ a ∈ (fromLast evidence).take k, ∀ b ∈ (fromLast evidence).drop k,
        a.AsRecent b) ↔ _ := forall_cut_iff evidence k
    constructor
    · intro h
      by_cases hk : k = 0
      · exact .inl hk
      by_cases hlt : k < evidence.length
      · exact .inr (.inr ⟨all_dated_of_asRecent hk hlt hdated h, hcut.mp h⟩)
      · exact .inr (.inl (not_lt.mp hlt))
    · rintro (rfl | hle | ⟨-, h⟩)
      · simp
      · rw [List.drop_eq_nil_of_le ((fromLast_perm evidence).length_eq.trans_le hle)]
        simp
      · exact hcut.mpr h
  · intro offset hzone a ha b hb
    have hmem (item : EvidenceItem) (h : item ∈ fromLast evidence) : item ∈ evidence :=
      (fromLast_perm evidence).mem_iff.mp h
    obtain ⟨time', htime', hoffset'⟩ := hzone a (hmem a (List.mem_of_mem_take ha))
    obtain ⟨time, htime, hoffset⟩ := hzone b (hmem b (List.mem_of_mem_drop hb))
    exact asRecent_of_offset htime' htime hoffset hoffset' (sortKey_le_of_cut a ha b hb)

/-! ### An undated item -/

/-- An item, dated by a day of January 2026 or undated. -/
def januaryItem (id : String) (day : Option (Fin 28)) : EvidenceItem where
  id := id
  recordType := "episode"
  content := ""
  score := none
  eventTime := day.map fun day => ⟨.ofMicros (63902822400000000 + day * 86400000000), some 0⟩

/-- Three dated items and an undated one. -/
def januaryEvidence : List EvidenceItem :=
  [januaryItem "a" (some 1), januaryItem "u" none, januaryItem "b" (some 2),
    januaryItem "c" (some 3)]

def januaryRequest : DreamReasoningRequest where
  requestId := "r"
  sessionId := "s"
  focalTopics := ["t"]
  sessionStart := ⟨.ofMicros 63902822400000000, some 0⟩
  sessionEnd := ⟨.ofMicros 63902822400000000, some 0⟩
  evidenceByTopic := [("t", januaryEvidence)]

def defaultReasoner : MultipassDreamReasoner := { claimRelevant := fun _ _ => true }

/-- The current-state tasks have the undated item and not all dated ones. -/
theorem currentTasks_undated :
    ((defaultReasoner.buildTasks Runtime.ascii januaryRequest).filter
      fun task => task.kind = .currentState).map (fun task => task.evidence.map (·.id)) =
        [["u", "c"], ["c", "b"]] ∧
    (januaryItem "u" none).eventTime = none ∧ (januaryItem "a" (some 1)).eventTime ≠ none := by
  refine ⟨?_, rfl, ?_⟩
  · decide +kernel
  · simp [januaryItem]

theorem currentEvidence_asRecent_iff_january :
    (∀ item, (∃ task ∈ defaultReasoner.buildTasks Runtime.ascii januaryRequest, task.topic = "t" ∧
        task.kind = .currentState ∧ item ∈ task.evidence) ↔
      item ∈ currentEvidence defaultReasoner.policy januaryEvidence) ∧
    januaryEvidence.Perm (currentEvidence defaultReasoner.policy januaryEvidence ++
      otherEvidence defaultReasoner.policy januaryEvidence) ∧
    ((∀ a ∈ currentEvidence defaultReasoner.policy januaryEvidence,
        ∀ b ∈ otherEvidence defaultReasoner.policy januaryEvidence, a.AsRecent b) ↔
      defaultReasoner.policy.currentCount 4 = 0 ∨ 4 ≤ defaultReasoner.policy.currentCount 4 ∨
        (∀ item ∈ januaryEvidence, item.eventTime ≠ none) ∧
          ∀ p ∈ januaryEvidence.zipIdx, ∀ q ∈ januaryEvidence.zipIdx,
            outranked evidenceSortKey januaryEvidence p < defaultReasoner.policy.currentCount 4 →
              defaultReasoner.policy.currentCount 4 ≤ outranked evidenceSortKey januaryEvidence q →
                p.1.AsRecent q.1) ∧
    ∀ offset, (∀ item ∈ januaryEvidence,
        ∃ time, item.eventTime = some time ∧ time.offset = offset) →
      ∀ a ∈ currentEvidence defaultReasoner.policy januaryEvidence,
        ∀ b ∈ otherEvidence defaultReasoner.policy januaryEvidence, a.AsRecent b :=
  currentEvidence_asRecent_iff (by decide) rfl
    ⟨januaryItem "a" (some 1), by simp [januaryEvidence], by simp [januaryItem]⟩

end CyberBrain.Dreaming
