import CyberBrain.Foundation.Table
import CyberBrain.WorkingMemory.Policy

/-!
# What a selection keeps

The ids of the candidates are split among the selected items and the three kinds of omissions. The
stages are followed one by one: what the ranking holds, what the deduplication leaves of it, and what
the budgets leave of that.
-/

namespace CyberBrain.WorkingMemory

open Python Schemas Salience CyberBrain.Core

/-- A candidate at its position, with an assessment. -/
def RankedCandidate.of (assessment : WorkingMemoryCandidate → SalienceAssessment)
    (at_ : WorkingMemoryCandidate × ℕ) : RankedCandidate :=
  ⟨at_.1, at_.2, (assessment at_.1).score, (assessment at_.1).reasonCodes⟩

namespace WorkingMemorySelector

variable {selector : WorkingMemorySelector} {identity : WorkingMemoryIdentity}
  {candidates : List WorkingMemoryCandidate} {row : RankedCandidate} {rows : List RankedCandidate}
  {assessment : WorkingMemoryCandidate → SalienceAssessment}

/-! ### Ranking -/

def ids (candidates : List WorkingMemoryCandidate) : List String :=
  candidates.map (·.candidateId.val)

lemma nodup_ids (hnodup : (candidates.map (·.candidateId)).Nodup) : (ids candidates).Nodup := by
  have hmap := hnodup.map Subtype.val_injective
  rwa [List.map_map] at hmap

/-- The assessments of the candidates. -/
def Assesses (selector : WorkingMemorySelector)
    (assessment : WorkingMemoryCandidate → SalienceAssessment) : Prop :=
  ∀ c, selector.salienceAdvisor.config.assess selector.salienceAdvisor.sum c.salience =
    .ok (assessment c)

lemma exists_assesses (selector : WorkingMemorySelector) :
    ∃ assessment, selector.Assesses assessment := by
  choose assessment h using fun c : WorkingMemoryCandidate =>
    @SalienceConfig.exists_assess selector.salienceAdvisor.sum selector.salienceAdvisor.config
      c.salience
  exact ⟨assessment, h⟩

variable (identity) in
/-- Candidates of one scope with different ids are assessed. -/
lemma exists_advisory (hassess : selector.Assesses assessment)
    (hnodup : (candidates.map (·.candidateId)).Nodup) :
    ∃ advisory, selector.salienceAdvisor.assess (candidates.map (salienceCandidate identity)) =
      .ok advisory ∧
      advisory.assessments = candidates.map fun c => ⟨c.candidateId.val, assessment c⟩ := by
  unfold SalienceAdvisor.assess
  split_ifs with hnil
  · obtain rfl := List.map_eq_nil_iff.mp hnil
    exact ⟨_, rfl, rfl⟩
  · have hids : ((candidates.map (salienceCandidate identity)).map (·.candidateId)).Nodup := by
      have hmap := hnodup.map Subtype.val_injective
      rw [List.map_map] at hmap ⊢
      exact hmap
    have hscopes : ((candidates.map (salienceCandidate identity)).map (·.scopeMarker)).dedup.length
        = 1 := by
      have hconst : (candidates.map (salienceCandidate identity)).map (·.scopeMarker) =
          List.replicate candidates.length identity.scopeMarker.val := by
        rw [List.map_map]
        exact List.map_const' ..
      have hne : candidates.length ≠ 0 := by
        rw [Ne, List.length_eq_zero_iff, ← List.map_eq_nil_iff (f := salienceCandidate identity)]
        exact hnil
      rw [hconst, List.replicate_dedup hne, List.length_singleton]
    have hassessed : (candidates.map (salienceCandidate identity)).mapM (fun candidate => do
        let found ← selector.salienceAdvisor.config.assess selector.salienceAdvisor.sum
          candidate.signals
        pure (CandidateSalienceAssessment.mk candidate.candidateId found)) =
        .ok (candidates.map fun c => ⟨c.candidateId.val, assessment c⟩) := by
      rw [List.mapM_map]
      exact mapM_eq_ok_of_forall fun c _ => bind_eq_ok.mpr ⟨_, hassess c, rfl⟩
    exact ⟨_, bind_eq_ok.mpr ⟨(), require_eq_ok.mpr hids, bind_eq_ok.mpr ⟨(),
      require_eq_ok.mpr hscopes, bind_eq_ok.mpr ⟨_, hassessed, rfl⟩⟩⟩, rfl⟩

/-- The candidates are ranked with their positions and assessments. -/
lemma assessed_eq (hnodup : (candidates.map (·.candidateId)).Nodup) {advisory : SalienceAdvisory}
    (h : advisory.assessments = candidates.map fun c => ⟨c.candidateId.val, assessment c⟩) :
    assessed advisory candidates = .ok (candidates.zipIdx.map (RankedCandidate.of assessment)) := by
  refine mapM_eq_ok_of_forall fun at_ hat => ?_
  have hmem : at_.1 ∈ candidates := (List.mem_zipIdx' hat).2 ▸ List.getElem_mem _
  have hids := nodup_ids hnodup
  have hfind : advisory.assessments.find? (·.candidateId = at_.1.candidateId.val) =
      some ⟨at_.1.candidateId.val, assessment at_.1⟩ := by
    rw [h, List.find?_map]
    exact congrArg (Option.map _) (find?_key_of_mem hids hmem)
  rw [hfind]
  rfl

/-- The key by which a selection is ordered: relevance, salience and position among the ids. -/
def orderKey (ids : List String) (relevance salience : Confidence) (id : String) : ℚ ×ₗ ℚ ×ₗ ℕ :=
  toLex (-relevance.val.value, toLex (-salience.val.value, ids.idxOf id))

/-- The candidates stand at growing positions among their ids. -/
lemma pairwise_idxOf (hnodup : (ids candidates).Nodup) : candidates.Pairwise fun c c' =>
    (ids candidates).idxOf c.candidateId.val < (ids candidates).idxOf c'.candidateId.val := by
  rw [List.pairwise_iff_getElem]
  intro i j hi hj hij
  have hidx (k : ℕ) (hk : k < candidates.length) :
      (ids candidates).idxOf candidates[k].candidateId.val = k := by
    have hget := hnodup.idxOf_getElem k (by rwa [ids, List.length_map])
    simpa only [ids, List.getElem_map] using hget
  rw [hidx i hi, hidx j hj]
  exact hij

variable (candidates assessment) in
/-- A candidate ranks before another one. -/
def Precedes (c c' : WorkingMemoryCandidate) : Prop :=
  orderKey (ids candidates) c.taskRelevance.score (assessment c).score c.candidateId.val <
    orderKey (ids candidates) c'.taskRelevance.score (assessment c').score c'.candidateId.val

/-- Ranks are compared as the keys of the selection. -/
lemma precedes_of_lt {kept : List WorkingMemoryCandidate} (hsub : kept.Sublist candidates)
    (hnodup : (ids candidates).Nodup) {at_ at' : WorkingMemoryCandidate × ℕ}
    (hat : at_ ∈ kept.zipIdx) (hat' : at' ∈ kept.zipIdx)
    (hlt : (RankedCandidate.of assessment at_).rank < (RankedCandidate.of assessment at').rank) :
    Precedes candidates assessment at_.1 at'.1 := by
  have hpairwise := List.pairwise_iff_getElem.mp ((pairwise_idxOf hnodup).sublist hsub)
  obtain ⟨hi, heq⟩ := List.mem_zipIdx' hat
  obtain ⟨hj, heq'⟩ := List.mem_zipIdx' hat'
  rcases Prod.Lex.toLex_lt_toLex.mp hlt with hrelevance | ⟨hrelevance, hlt⟩
  · exact Prod.Lex.toLex_lt_toLex.mpr (.inl hrelevance)
  rcases Prod.Lex.toLex_lt_toLex.mp hlt with hsalience | ⟨hsalience, hlt⟩
  · exact Prod.Lex.toLex_lt_toLex.mpr (.inr ⟨hrelevance, Prod.Lex.toLex_lt_toLex.mpr
      (.inl hsalience)⟩)
  · refine Prod.Lex.toLex_lt_toLex.mpr (.inr ⟨hrelevance, Prod.Lex.toLex_lt_toLex.mpr
      (.inr ⟨hsalience, ?_⟩)⟩)
    have hposition := hpairwise at_.2 at'.2 hi hj hlt
    rw [heq, heq']
    exact hposition

variable (selector candidates assessment) in
/-- The ranked candidates of a selection. -/
def ranking : List RankedCandidate :=
  ((candidates.filter selector.relevant).zipIdx.map (RankedCandidate.of assessment)).insertionSort
    fun a b => a.rank ≤ b.rank

lemma ranking_perm : (selector.ranking candidates assessment).Perm
    ((candidates.filter selector.relevant).zipIdx.map (RankedCandidate.of assessment)) :=
  List.perm_insertionSort _ _

lemma mem_ranking : row ∈ selector.ranking candidates assessment ↔
    ∃ at_ ∈ (candidates.filter selector.relevant).zipIdx, RankedCandidate.of assessment at_ = row := by
  rw [ranking_perm.mem_iff, List.mem_map]

lemma mem_filter_of_mem {at_ : WorkingMemoryCandidate × ℕ}
    (h : at_ ∈ (candidates.filter selector.relevant).zipIdx) :
    at_.1 ∈ candidates ∧ selector.relevant at_.1 :=
  List.mem_filter.mp ((List.mem_zipIdx' h).2 ▸ List.getElem_mem _)

/-- What the ranking holds of a candidate. -/
lemma candidate_of_mem (h : row ∈ selector.ranking candidates assessment) :
    row.candidate ∈ candidates ∧ selector.relevant row.candidate ∧
      row.salienceScore = (assessment row.candidate).score := by
  obtain ⟨at_, hat, rfl⟩ := mem_ranking.mp h
  obtain ⟨hmem, hrelevant⟩ := mem_filter_of_mem hat
  exact ⟨hmem, hrelevant, rfl⟩

lemma ranking_ids : ((selector.ranking candidates assessment).map (·.id)).Perm
    (ids (candidates.filter selector.relevant)) := by
  refine (ranking_perm.map (·.id)).trans (List.Perm.of_eq ?_)
  rw [List.map_map]
  calc (candidates.filter selector.relevant).zipIdx.map
        ((·.id) ∘ RankedCandidate.of assessment)
      = ((candidates.filter selector.relevant).zipIdx.map Prod.fst).map (·.candidateId.val) := by
        rw [List.map_map]
        rfl
    _ = ids (candidates.filter selector.relevant) := by
        rw [List.zipIdx_map_fst]
        rfl

/-- The ranking is strict: no two candidates have the same position. -/
lemma pairwise_ranking :
    (selector.ranking candidates assessment).Pairwise fun a b => a.rank < b.rank := by
  have hindex : (((candidates.filter selector.relevant).zipIdx.map
      (RankedCandidate.of assessment)).map (·.inputIndex)).Nodup := by
    rw [List.map_map]
    have hrange := List.zipIdx_map_snd 0 (candidates.filter selector.relevant)
    exact (congrArg List.Nodup hrange).mpr List.nodup_range'
  have hne := List.pairwise_map.mp ((ranking_perm.map (·.inputIndex)).nodup_iff.mpr hindex)
  have hle := List.pairwise_insertionSort (fun a b : RankedCandidate => a.rank ≤ b.rank)
    ((candidates.filter selector.relevant).zipIdx.map (RankedCandidate.of assessment))
  refine (hle.and hne).imp fun {a b} h => lt_of_le_of_ne h.1 fun heq => h.2 ?_
  exact congrArg (fun k : ℚ ×ₗ ℚ ×ₗ ℕ => (ofLex (ofLex k).2).2) heq

/-! ### Deduplication -/

section Dedupe

variable (selector) (seen : List String)

lemma dedupe_cons : selector.dedupe seen (row :: rows) =
    if row.candidate.dedupeKey selector.py ∈ seen then
      ((selector.dedupe seen rows).1, row.id :: (selector.dedupe seen rows).2)
    else
      (row :: (selector.dedupe (row.candidate.dedupeKey selector.py :: seen) rows).1,
        (selector.dedupe (row.candidate.dedupeKey selector.py :: seen) rows).2) := by
  rw [dedupe]

lemma dedupe_sublist : (selector.dedupe seen rows).1.Sublist rows := by
  induction rows generalizing seen with
  | nil => exact .slnil
  | cons row rows ih =>
    rw [dedupe_cons]
    split_ifs
    · exact (ih seen).cons row
    · exact (ih _).cons_cons row

lemma dedupe_perm : (rows.map (·.id)).Perm
    ((selector.dedupe seen rows).1.map (·.id) ++ (selector.dedupe seen rows).2) := by
  induction rows generalizing seen with
  | nil => exact .nil
  | cons row rows ih =>
    rw [dedupe_cons, List.map_cons]
    split_ifs
    · exact ((ih seen).cons row.id).trans List.perm_middle.symm
    · exact (ih _).cons row.id

/-- What is kept has keys that are different and not seen before. -/
lemma dedupe_keys :
    ((selector.dedupe seen rows).1.map fun r => r.candidate.dedupeKey selector.py).Nodup ∧
      ∀ r ∈ (selector.dedupe seen rows).1, r.candidate.dedupeKey selector.py ∉ seen := by
  induction rows generalizing seen with
  | nil => exact ⟨List.nodup_nil, fun _ h => absurd h List.not_mem_nil⟩
  | cons row rows ih =>
    rw [dedupe_cons]
    split_ifs with hseen
    · exact ih seen
    · obtain ⟨hnodup, hnot⟩ := ih (row.candidate.dedupeKey selector.py :: seen)
      constructor
      · rw [List.map_cons, List.nodup_cons]
        refine ⟨fun hmem => ?_, hnodup⟩
        obtain ⟨r, hr, heq⟩ := List.mem_map.mp hmem
        exact hnot r hr (heq ▸ List.mem_cons_self)
      · intro r hr
        rcases List.mem_cons.mp hr with rfl | hr
        · exact hseen
        · exact fun hmem => hnot r hr (List.mem_cons_of_mem _ hmem)

/-- What is dropped has the key of a candidate of a better rank. -/
lemma dedupe_duplicates (hranked : rows.Pairwise fun a b => a.rank < b.rank) {id : String}
    (hid : id ∈ (selector.dedupe seen rows).2) : ∃ r ∈ rows, r.id = id ∧
      (r.candidate.dedupeKey selector.py ∈ seen ∨ ∃ r' ∈ rows,
        r'.candidate.dedupeKey selector.py = r.candidate.dedupeKey selector.py ∧
          r'.rank < r.rank) := by
  induction rows generalizing seen with
  | nil => cases hid
  | cons row rows ih =>
    rw [List.pairwise_cons] at hranked
    rw [dedupe_cons] at hid
    split_ifs at hid with hseen
    · rcases List.mem_cons.mp hid with rfl | hid
      · exact ⟨row, List.mem_cons_self, rfl, .inl hseen⟩
      · obtain ⟨r, hr, hrid, h⟩ := ih seen hranked.2 hid
        exact ⟨r, List.mem_cons_of_mem _ hr, hrid, h.imp_right fun ⟨r', hr', h'⟩ =>
          ⟨r', List.mem_cons_of_mem _ hr', h'⟩⟩
    · obtain ⟨r, hr, hrid, h⟩ := ih _ hranked.2 hid
      refine ⟨r, List.mem_cons_of_mem _ hr, hrid, ?_⟩
      rcases h with hmem | ⟨r', hr', h'⟩
      · rcases List.mem_cons.mp hmem with heq | hmem
        · exact .inr ⟨row, List.mem_cons_self, heq.symm, hranked.1 r hr⟩
        · exact .inl hmem
      · exact .inr ⟨r', List.mem_cons_of_mem _ hr', h'⟩

end Dedupe

/-! ### Budgets -/

section Fill

variable (selector) in
/-- An item is that of a candidate, with a text within the budget of one item. -/
structure ItemOf (row : RankedCandidate) (item : WorkingMemoryItem) : Prop where
  candidateId : item.candidateId = row.id
  relevance : item.taskRelevance = row.candidate.taskRelevance.score
  salience : item.salienceScore = row.salienceScore
  text_ne_empty : item.text ≠ ""
  tokens : item.estimatedTokens = selector.governor.estimateTokens item.text
  tokens_le : item.estimatedTokens ≤ selector.policy.maxItemTokens

variable (selector rows) in
/-- What the budgets leave of the ranked candidates. -/
structure Filled (selected : ℕ) (remaining : ℤ) (items : List WorkingMemoryItem)
    (omitted : List String) : Prop where
  perm : (rows.map (·.id)).Perm (items.map (·.candidateId) ++ omitted)
  chosen : ∃ chosen, chosen.Sublist rows ∧ List.Forall₂ selector.ItemOf chosen items
  length_le : selected + items.length ≤ selector.policy.maxItems
  tokens_le : ((items.map (·.estimatedTokens)).sum : ℕ) ≤ remaining

variable {selected : ℕ} {remaining : ℤ} {items : List WorkingMemoryItem} {omitted : List String}

lemma Filled.omit (h : selector.Filled rows selected remaining items omitted) :
    selector.Filled (row :: rows) selected remaining items (row.id :: omitted) where
  perm := (h.perm.cons row.id).trans List.perm_middle.symm
  chosen := h.chosen.imp fun _ hchosen => ⟨hchosen.1.cons row, hchosen.2⟩
  length_le := h.length_le
  tokens_le := h.tokens_le

lemma Filled.choose {item : WorkingMemoryItem} (hitem : selector.ItemOf row item)
    (h : selector.Filled rows (selected + 1) (remaining - item.estimatedTokens) items omitted) :
    selector.Filled (row :: rows) selected remaining (item :: items) omitted where
  perm := by
    rw [List.map_cons, List.map_cons, List.cons_append, hitem.candidateId]
    exact h.perm.cons row.id
  chosen := by
    obtain ⟨chosen, hsub, hall⟩ := h.chosen
    exact ⟨row :: chosen, hsub.cons_cons row, .cons hitem hall⟩
  length_le := by
    have hlength := h.length_le
    rw [List.length_cons]
    omega
  tokens_le := by
    have htokens := h.tokens_le
    rw [List.map_cons, List.sum_cons]
    omega

variable (selector row) in
/-- A text that is not empty makes an item. -/
lemma exists_item (hdigest : ∀ s, strip (shortDigest selector.py s) ≠ "") {text : String}
    (htext : text ≠ "")
    (htokens : selector.governor.estimateTokens text ≤ selector.policy.maxItemTokens) :
    ∃ item, selector.item row text = .ok item ∧ selector.ItemOf row item ∧
      item.estimatedTokens = selector.governor.estimateTokens text := by
  unfold item
  dsimp only
  rw [dif_pos (DeterministicTokenCounter.estimateTokens_pos htext), dif_pos (hdigest _)]
  exact ⟨_, rfl, ⟨rfl, rfl, rfl, htext, rfl, htokens⟩, rfl⟩

/-- The budgets are filled from the front, and no text is cut to nothing. -/
lemma exists_fill (hdigest : ∀ s, strip (shortDigest selector.py s) ≠ "")
    (hselected : selected ≤ selector.policy.maxItems) (hremaining : 0 ≤ remaining) :
    ∃ items omitted, selector.fill selected remaining rows = .ok (items, omitted) ∧
      selector.Filled rows selected remaining items omitted := by
  induction rows generalizing selected remaining with
  | nil =>
    exact ⟨[], [], rfl, .nil, ⟨[], .slnil, .nil⟩, hselected, hremaining⟩
  | cons row rows ih =>
    rw [fill]
    split_ifs with hfull
    · obtain ⟨items, omitted, hfill, hfilled⟩ := ih hselected hremaining
      exact ⟨items, row.id :: omitted, bind_eq_ok.mpr ⟨_, hfill, rfl⟩, hfilled.omit⟩
    · rw [not_or, not_le, not_le] at hfull
      have hitem := selector.policy.positive.2.2.1
      have hbudget : 0 < min (selector.policy.maxItemTokens : ℤ) remaining :=
        lt_min (by omega) hfull.2
      have htext : selector.governor.clipToTokens row.candidate.text.val
          (min (selector.policy.maxItemTokens : ℤ) remaining) ≠ "" :=
        DeterministicTokenCounter.clipToTokens_ne_empty hbudget row.candidate.text.property.2
      have htokens : (selector.governor.estimateTokens (selector.governor.clipToTokens
          row.candidate.text.val (min (selector.policy.maxItemTokens : ℤ) remaining)) : ℤ) ≤
            min (selector.policy.maxItemTokens : ℤ) remaining :=
        DeterministicTokenCounter.estimateTokens_clipToTokens hbudget
      have hpos : 0 < selector.governor.estimateTokens (selector.governor.clipToTokens
          row.candidate.text.val (min (selector.policy.maxItemTokens : ℤ) remaining)) :=
        DeterministicTokenCounter.estimateTokens_pos htext
      dsimp only
      rw [if_neg (by rw [not_or]; exact ⟨htext, by omega⟩)]
      obtain ⟨item, hmake, hof, heq⟩ := selector.exists_item row hdigest htext (by omega)
      have hremaining : 0 ≤ remaining - item.estimatedTokens := by
        rw [heq]
        omega
      obtain ⟨items, omitted, hfill, hfilled⟩ := ih hfull.1 hremaining
      rw [heq] at hfill
      exact ⟨item :: items, omitted, bind_eq_ok.mpr ⟨item, hmake, bind_eq_ok.mpr ⟨_, hfill, rfl⟩⟩,
        hfilled.choose hof⟩

end Fill

/-! ### Selections -/

variable (selector identity candidates) in
/-- What `select` asks of the candidates. -/
structure Accepted : Prop where
  length_le : candidates.length ≤ selector.policy.maxCandidates
  nodup : (candidates.map (·.candidateId)).Nodup
  identity : ∀ row ∈ candidates, row.identity = identity

variable (selector candidates assessment) in
/-- A selection splits the ids of its candidates, keeps the limits of the policy and one candidate
of each key, and is ordered by relevance, salience and position. -/
structure Selects (items : List WorkingMemoryItem) (report : WorkingMemorySelectionReport) :
    Prop where
  /-- Every id is that of an item or omitted, once. -/
  partition : (items.map (·.candidateId) ++ report.omittedCandidateIds).Perm (ids candidates)
  nodup : (items.map (·.candidateId) ++ report.omittedCandidateIds).Nodup
  /-- The omitted ids are the irrelevant, the duplicate and the budget-omitted ones, and each
  duplicate has the key of a relevant candidate before it. -/
  omitted : ∃ duplicates budgetOmitted,
    report.omittedCandidateIds =
      ids (candidates.filter (!selector.relevant ·)) ++ duplicates ++ budgetOmitted ∧
    report.duplicateSuppressedCount = duplicates.length ∧
    report.budgetOmittedCount = budgetOmitted.length ∧
    ∀ id ∈ duplicates, ∃ c ∈ candidates, c.candidateId.val = id ∧ selector.relevant c ∧
      ∃ c' ∈ candidates, selector.relevant c' ∧
        c'.dedupeKey selector.py = c.dedupeKey selector.py ∧ Precedes candidates assessment c' c
  counts : report.inputCount = candidates.length ∧
    report.relevantCount = (candidates.filter selector.relevant).length ∧
    report.selectedCount = items.length ∧
    report.selectedTokens = (items.map (·.estimatedTokens)).sum
  /-- Every item is that of a relevant candidate, with its relevance and salience. -/
  source : ∀ item ∈ items, ∃ c ∈ candidates, item.candidateId = c.candidateId.val ∧
    selector.relevant c ∧ item.taskRelevance = c.taskRelevance.score ∧
    item.salienceScore = (assessment c).score
  length_le : items.length ≤ selector.policy.maxItems
  item : ∀ item ∈ items, item.text ≠ "" ∧
    item.estimatedTokens = selector.governor.estimateTokens item.text ∧
    item.estimatedTokens ≤ selector.policy.maxItemTokens
  tokens_le : (items.map (·.estimatedTokens)).sum ≤ selector.policy.maxTokens
  distinct : ∀ c ∈ candidates, ∀ c' ∈ candidates, c.candidateId.val ∈ items.map (·.candidateId) →
    c'.candidateId.val ∈ items.map (·.candidateId) →
    c.dedupeKey selector.py = c'.dedupeKey selector.py → c = c'
  ordered : items.Pairwise fun a b =>
    orderKey (ids candidates) a.taskRelevance a.salienceScore a.candidateId <
      orderKey (ids candidates) b.taskRelevance b.salienceScore b.candidateId

section Stages

variable {items : List WorkingMemoryItem} {omitted : List String}

variable (selector candidates assessment items omitted) in
/-- The report of a selection. -/
def reportOf : WorkingMemorySelectionReport :=
  let duplicates := (selector.dedupe [] (selector.ranking candidates assessment)).2
  { inputCount := candidates.length
    relevantCount := (candidates.filter selector.relevant).length
    duplicateSuppressedCount := duplicates.length
    budgetOmittedCount := omitted.length
    selectedCount := items.length
    selectedTokens := (items.map (·.estimatedTokens)).sum
    omittedCandidateIds :=
      ids (candidates.filter (!selector.relevant ·)) ++ duplicates ++ omitted }

lemma select_eq (haccepted : selector.Accepted identity candidates)
    (hassess : selector.Assesses assessment)
    (hfill : selector.fill 0 selector.policy.maxTokens
      (selector.dedupe [] (selector.ranking candidates assessment)).1 = .ok (items, omitted)) :
    selector.select identity candidates =
      .ok (items, selector.reportOf candidates assessment items omitted) := by
  have hkept : ((candidates.filter selector.relevant).map (·.candidateId)).Nodup :=
    haccepted.nodup.sublist (List.filter_sublist.map _)
  obtain ⟨advisory, hadvisory, hassessments⟩ :=
    exists_advisory identity hassess hkept
  exact bind_eq_ok.mpr ⟨(), require_eq_ok.mpr haccepted.length_le, bind_eq_ok.mpr ⟨(),
    require_eq_ok.mpr haccepted.nodup, bind_eq_ok.mpr ⟨(), require_eq_ok.mpr haccepted.identity,
    bind_eq_ok.mpr ⟨_, hadvisory, bind_eq_ok.mpr ⟨_, assessed_eq hkept hassessments,
    bind_eq_ok.mpr ⟨_, hfill, rfl⟩⟩⟩⟩⟩⟩

lemma partition_of_filled {duplicates : List String} {ranked unique : List RankedCandidate}
    (hranked : (ranked.map (·.id)).Perm (ids (candidates.filter selector.relevant)))
    (hunique : (ranked.map (·.id)).Perm (unique.map (·.id) ++ duplicates))
    (hfilled : (unique.map (·.id)).Perm (items.map (·.candidateId) ++ omitted)) :
    (items.map (·.candidateId) ++
      (ids (candidates.filter (!selector.relevant ·)) ++ duplicates ++ omitted)).Perm
        (ids candidates) := by
  have hsplit := (List.filter_append_perm selector.relevant candidates).map (·.candidateId.val)
  rw [List.map_append] at hsplit
  rw [List.perm_iff_count] at *
  intro id
  have h := hsplit id
  have hr := hranked id
  have hu := hunique id
  have hf := hfilled id
  simp only [List.count_append, ids] at *
  omega

/-- What the stages leave is a selection. -/
lemma selects (hnodup : (ids candidates).Nodup)
    (hfilled : selector.Filled (selector.dedupe [] (selector.ranking candidates assessment)).1 0
      selector.policy.maxTokens items omitted) :
    selector.Selects candidates assessment items
      (selector.reportOf candidates assessment items omitted) := by
  have hpartition := partition_of_filled ranking_ids (selector.dedupe_perm []) hfilled.perm
  obtain ⟨chosen, hchosen, hitems⟩ := hfilled.chosen
  have hsub := hchosen.trans (selector.dedupe_sublist [])
  have hprecedes {r r' : RankedCandidate} (hr : r ∈ selector.ranking candidates assessment)
      (hr' : r' ∈ selector.ranking candidates assessment) (hlt : r.rank < r'.rank) :
      Precedes candidates assessment r.candidate r'.candidate := by
    obtain ⟨at_, hat, rfl⟩ := mem_ranking.mp hr
    obtain ⟨at', hat', rfl⟩ := mem_ranking.mp hr'
    exact precedes_of_lt List.filter_sublist hnodup hat hat' hlt
  constructor
  case partition => exact hpartition
  case nodup => exact hpartition.nodup_iff.mpr hnodup
  case counts => exact ⟨rfl, rfl, rfl, rfl⟩
  case length_le => simpa using hfilled.length_le
  case tokens_le => exact Int.ofNat_le.mp hfilled.tokens_le
  case omitted =>
    refine ⟨_, omitted, rfl, rfl, rfl, fun id hid => ?_⟩
    obtain ⟨r, hr, rfl, hseen | ⟨r', hr', hkey, hlt⟩⟩ :=
      selector.dedupe_duplicates [] pairwise_ranking hid
    · cases hseen
    · obtain ⟨hmem, hrelevant, -⟩ := candidate_of_mem hr
      obtain ⟨hmem', hrelevant', -⟩ := candidate_of_mem hr'
      exact ⟨r.candidate, hmem, rfl, hrelevant, r'.candidate, hmem', hrelevant', hkey,
        hprecedes hr' hr hlt⟩
  case source =>
    intro item hitem
    obtain ⟨r, hr, hof⟩ := exists_of_forall₂ hitems hitem
    obtain ⟨hmem, hrelevant, hsalience⟩ := candidate_of_mem (hsub.subset hr)
    exact ⟨r.candidate, hmem, hof.candidateId, hrelevant, hof.relevance, hof.salience.trans hsalience⟩
  case item =>
    intro item hitem
    obtain ⟨r, -, hof⟩ := exists_of_forall₂ hitems hitem
    exact ⟨hof.text_ne_empty, hof.tokens, hof.tokens_le⟩
  case distinct =>
    intro c hc c' hc' hid hid' hkey
    have hchosenOf {c : WorkingMemoryCandidate} (hc : c ∈ candidates)
        (hid : c.candidateId.val ∈ items.map (·.candidateId)) : ∃ r ∈ chosen, r.candidate = c := by
      obtain ⟨item, hitem, heq⟩ := List.mem_map.mp hid
      obtain ⟨r, hr, hof⟩ := exists_of_forall₂ hitems hitem
      have hmem := (candidate_of_mem (hsub.subset hr)).1
      exact ⟨r, hr, List.inj_on_of_nodup_map hnodup hmem hc (hof.candidateId.symm.trans heq)⟩
    obtain ⟨r, hr, rfl⟩ := hchosenOf hc hid
    obtain ⟨r', hr', rfl⟩ := hchosenOf hc' hid'
    obtain ⟨hkeys, -⟩ := selector.dedupe_keys []
    rw [List.inj_on_of_nodup_map hkeys (hchosen.subset hr) (hchosen.subset hr') hkey]
  case ordered =>
    refine pairwise_of_forall₂ hitems (pairwise_ranking.sublist hsub) ?_
    intro r hr r' hr' a b hof hof' hlt
    have hbefore := hprecedes (hsub.subset hr) (hsub.subset hr') hlt
    rw [Precedes, ← (candidate_of_mem (hsub.subset hr)).2.2,
      ← (candidate_of_mem (hsub.subset hr')).2.2] at hbefore
    rw [hof.relevance, hof.salience, hof.candidateId, hof'.relevance, hof'.salience,
      hof'.candidateId]
    exact hbefore

end Stages

section Sample

/-- Texts after a letter as digests. -/
def marked : Runtime := { Runtime.ascii with sha256 := fun s => "d" ++ s }

lemma strip_ne_empty {s : String} {c : Char} (hc : c ∈ s.toList) (hspace : isSpace c = false) :
    strip s ≠ "" := by
  intro h
  have hnil : (s.toList.dropWhile isSpace).rdropWhile isSpace = [] := by
    rw [← String.ofList_eq_empty_iff]
    exact h
  rw [List.rdropWhile_eq_nil_iff] at hnil
  by_cases hdrop : s.toList.dropWhile isSpace = []
  · rw [List.dropWhile_eq_nil_iff.mp hdrop c hc] at hspace
    cases hspace
  · have hhead := List.head_dropWhile_not isSpace hdrop
    rw [hnil _ (List.head_mem hdrop)] at hhead
    cases hhead

lemma marked_digest (s : String) : strip (shortDigest marked s) ≠ "" := by
  refine strip_ne_empty (c := 'd') ?_ (by decide)
  simp [shortDigest, textUpTo, marked]

lemma goal_stripped : strip "goal" = "goal" ∧ "goal" ≠ "" := by decide

lemma blocker_stripped : strip "blocker" = "blocker" ∧ "blocker" ≠ "" := by decide

lemma four_pos : 0 < 4 := by decide

lemma samplePolicy_positive : 0 < 2 ∧ 0 < 8 ∧ 0 < 4 ∧ 0 < 2 ∧ 0 < 60 := by decide

lemma samplePolicy_item : 4 ≤ 8 := by decide

lemma samplePolicy_version : strip "salience-policy-v1" ≠ "" := by decide +kernel

def sampleSelector : WorkingMemorySelector where
  py := marked
  policy := ⟨2, 8, 4, 2, zeroConfidence, 60, samplePolicy_positive, samplePolicy_item, le_rfl⟩
  governor := ⟨4, four_pos⟩
  salienceAdvisor := ⟨plainSummation, reviewedSaliencePolicy, "salience-policy-v1",
    samplePolicy_version⟩

def sampleIdentity : WorkingMemoryIdentity :=
  ⟨⟨"goal", goal_stripped⟩, ⟨"goal", goal_stripped⟩, ⟨"goal", goal_stripped⟩⟩

lemma goal_unreferenced : WorkingMemoryItemKind.goal.requiresReference →
    (none : Option Stripped) ≠ none := by decide

/-- A goal, under two ids. -/
def sampleCandidate (id : Stripped) : WorkingMemoryCandidate where
  candidateId := id
  identity := sampleIdentity
  kind := .goal
  text := ⟨"goal", goal_stripped⟩
  taskRelevance := ⟨.one, [], List.nodup_nil⟩
  referenced := goal_unreferenced

def sampleCandidates : List WorkingMemoryCandidate :=
  [sampleCandidate ⟨"goal", goal_stripped⟩, sampleCandidate ⟨"blocker", blocker_stripped⟩]

lemma sample_accepted : sampleSelector.Accepted sampleIdentity sampleCandidates where
  length_le := le_rfl
  nodup := by decide
  identity := by simp [sampleCandidates, sampleCandidate]

end Sample

end WorkingMemorySelector

end CyberBrain.WorkingMemory
