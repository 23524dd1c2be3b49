import CyberBrain.Foundation.SelfMeasuring
import CyberBrain.Relations.Grounding

/-!
# The budget of recall

The result of a recall states how many tokens its own text takes, and they are within the budget. The
reserve that packing leaves pays for the fields that are set last.
-/

namespace CyberBrain.Relations

open CyberBrain.Core Program Python Schemas Tenancy
open Dreaming (spacedDialect)
open SelfMeasuring (width portions width_pos)

variable {py : Runtime}

/-! ### Texts -/

lemma length_of_estimate {text : String} {tokens : ℕ}
    (h : tokenCounter.estimateTokens text ≤ tokens) : text.length ≤ tokens * 4 := by
  have hfour : tokenCounter.charsPerToken = 4 := rfl
  rw [DeterministicTokenCounter.estimateTokens, hfour] at h
  split_ifs at h with hempty
  · simp [hempty]
  · have := (le_max_right _ _).trans h
    omega

/-- The estimate of a text that has `base` characters and a number. -/
lemma estimate_eq_portions {text : String} {base n : ℕ} (h : text.length = base + width 10 n) :
    tokenCounter.estimateTokens text = portions 10 4 base n := by
  have hpos := width_pos 10 n
  have hne : text ≠ "" := by
    rintro rfl
    simp at h
    omega
  have hfour : tokenCounter.charsPerToken = 4 := rfl
  rw [DeterministicTokenCounter.estimateTokens, if_neg hne, h, hfour, portions]
  exact max_eq_right (by omega)

/-- What keys take, with their colons. -/
def keyLengths (keys : List String) : ℕ :=
  (keys.map fun key => (jsonEscapes.quoted '"' key).length + 2).sum

lemma length_iso_le (a : Instant) : a.iso.length ≤ 32 := by
  rw [Instant.iso, String.length_ofList, List.length_append]
  simp only [Instant.isoChars, List.length_append, List.length_cons, length_fixedDigits,
    List.length_nil]
  split_ifs <;> simp

/-! ### The length of a result -/

namespace RecallResult

variable (py) (r : RecallResult)

/-- How many characters a value takes. -/
def textLength (value : Json) : ℕ := ((spacedDialect py).print value).length

/-- What the paths and the rows take. -/
def contentLength : ℕ :=
  textLength py (.arr (r.paths.map TraversalPath.dump)) +
    textLength py (.obj (r.records.rows.map fun row => (row.1.text, row.2.dump)))

/-- What the fields take that do not change. -/
def envelopeLength : ℕ :=
  textLength py (.int r.nodeCount) + textLength py (.int r.edgeCount) +
    textLength py (.str r.evaluatedAt.iso) +
    textLength py (.str (if r.historical then "historical" else "current")) +
    textLength py (.int r.contextBudget)

/-- What the account of the calls and of what is missing takes. -/
def accountLength : ℕ :=
  textLength py (.int r.storageCalls) + textLength py (.bool r.truncated) +
    textLength py (.arr (r.truncationReasons.map .str))

lemma textLength_nat (n : ℕ) : textLength py (.int n) = width 10 n :=
  (spacedDialect py).length_print_nat n

/-- An object takes its keys, its values and what stands between them. -/
lemma length_obj (items : Context) : textLength py (.obj items) =
    2 + keyLengths (items.map (·.1)) + (items.map fun kv => textLength py kv.2).sum +
      (items.length - 1) * 2 := by
  rw [textLength, Printing.Dialect.length_print_obj, keyLengths, List.map_map]
  rfl

/-- What the keys of a result and all reasons take. -/
lemma keyLengths_fixed : keyLengths ["paths", "node_count", "edge_count", "storage_calls",
      "truncated", "truncation_reasons", "evaluated_at", "mode", "snapshot_consistent", "records",
      "context_budget", "estimated_tokens"] = 185 ∧
    keyLengths ["returned_path_count", "returned_record_count"] = 48 ∧
    keyLengths (traversalReasons ++ packingReasons) = 109 := by
  decide +kernel

lemma length_items : textLength py (.obj r.items) =
    214 + r.contentLength py + r.envelopeLength py + r.accountLength py +
      width 10 r.estimatedTokens := by
  have hkeys : keyLengths (r.items.map (·.1)) = 185 := keyLengths_fixed.1
  have hfalse : textLength py (.bool false) = 5 := rfl
  rw [length_obj, hkeys, contentLength, envelopeLength, accountLength]
  simp only [items, List.map_cons, List.map_nil, List.sum_cons, List.sum_nil, List.length_cons,
    List.length_nil, hfalse, textLength_nat]
  omega

lemma length_dump : textLength py r.dump =
    266 + r.contentLength py + r.envelopeLength py + r.accountLength py +
      width 10 r.paths.length + width 10 r.records.rows.length + width 10 r.estimatedTokens := by
  have hlength := r.length_items py
  have hkeys : keyLengths (r.items.map (·.1) ++ ["returned_path_count", "returned_record_count"]) =
      keyLengths (r.items.map (·.1)) + 48 := by
    have hcounts := keyLengths_fixed.2.1
    rw [keyLengths, List.map_append, List.sum_append, ← keyLengths, ← keyLengths, hcounts]
  have hcount : r.items.length = 12 := rfl
  rw [length_obj, hcount] at hlength
  rw [dump, length_obj, List.map_append, List.map_append, List.sum_append, List.length_append,
    hcount]
  simp only [List.map_cons, List.map_nil, List.sum_cons, List.sum_nil, List.length_cons,
    List.length_nil, textLength_nat, hkeys]
  omega

/-! ### Bounds -/

lemma textLength_nat_le {n k : ℕ} (hk : 0 < k) (h : n < 10 ^ k) : textLength py (.int n) ≤ k := by
  rw [textLength_nat]
  exact (SelfMeasuring.width_le_iff (by decide) hk).mpr h

lemma textLength_bool (b : Bool) : 4 ≤ textLength py (.bool b) ∧ textLength py (.bool b) ≤ 5 := by
  cases b
  · exact ⟨Nat.le_succ 4, le_rfl⟩
  · exact ⟨le_rfl, Nat.le_succ 4⟩

/-- Different reasons out of the list take less than all of them. -/
lemma textLength_reasons {reasons : List String} (hdistinct : reasons.Nodup)
    (hknown : reasons ⊆ traversalReasons ++ packingReasons) :
    2 ≤ textLength py (.arr (reasons.map .str)) ∧ textLength py (.arr (reasons.map .str)) ≤ 111 := by
  have hall := keyLengths_fixed.2.2
  have hle : keyLengths reasons ≤ 109 := by
    rw [← hall]
    obtain ⟨l, hperm, hsub⟩ := hdistinct.subperm hknown
    calc keyLengths reasons
        = keyLengths l := ((hperm.map _).sum_eq).symm
      _ ≤ keyLengths (traversalReasons ++ packingReasons) :=
          (hsub.map _).sum_le_sum fun _ _ => Nat.zero_le _
  have hlength : textLength py (.arr (reasons.map .str)) + (if reasons = [] then 0 else 2) =
      2 + keyLengths reasons := by
    rw [textLength, Printing.Dialect.length_print_arr, List.map_map, List.length_map]
    have hsum : keyLengths reasons = (reasons.map ((fun v => ((spacedDialect py).print v).length) ∘
        Json.str)).sum + reasons.length * 2 := by
      rw [keyLengths, List.sum_map_add]
      simp only [List.map_const', List.sum_replicate_nat]
      rfl
    have hcomma : (spacedDialect py).comma.length + 1 = 2 := rfl
    rw [hsum, hcomma]
    cases reasons with
    | nil => rfl
    | cons reason reasons =>
      rw [if_neg (List.cons_ne_nil _ _), List.length_cons]
      omega
  constructor
  · rw [textLength, Printing.Dialect.length_print_arr]
    omega
  · split_ifs at hlength <;> omega

/-- Each row takes a character at least. -/
lemma length_rows_le : r.records.rows.length ≤ r.contentLength py := by
  rw [contentLength, length_obj, keyLengths, List.map_map, List.map_map]
  have hsum : r.records.rows.length ≤ (r.records.rows.map
      (((fun key => (jsonEscapes.quoted '"' key).length + 2) ∘ fun kv : String × Json => kv.1) ∘
        fun row => (row.1.text, row.2.dump))).sum := by
    induction r.records.rows with
    | nil => exact Nat.zero_le _
    | cons row rows ih =>
      rw [List.length_cons, List.map_cons, List.sum_cons, Function.comp_apply, Function.comp_apply]
      omega
  simp only [List.map_map] at hsum ⊢
  omega

end RecallResult

/-! ### Packing -/

section Packing

variable {request : RelationRecallRequest} {h : Hydrated py} {start : RecallResult}
  {reasons : List String}

variable (py) in
/-- What was packed leaves the reserve, unless nothing was. -/
def Reserved (contextTokens : ℕ) (r : RecallResult) : Prop :=
  r.paths = [] ∧ r.records = Table.empty _ ∨
    RecallResult.textLength py (.obj r.items) ≤ (contextTokens - 64) * 4

/-- The reasons are different ones out of the lists. -/
def KnownReasons (reasons : List String) : Prop :=
  reasons.Nodup ∧ reasons ⊆ traversalReasons ++ packingReasons

lemma KnownReasons.insert {reason : String} (h : KnownReasons reasons)
    (hreason : reason ∈ traversalReasons ++ packingReasons) :
    KnownReasons (reasons.insert reason) := by
  refine ⟨h.1.insert, fun r hr => ?_⟩
  rcases List.mem_insert_iff.mp hr with rfl | hr
  · exact hreason
  · exact h.2 hr

/-- The loop over the paths leaves the reserve and gives known reasons. -/
lemma reserved_of_foldlM {paths : List TraversalPath} {s' : RecallResult × List String}
    (hrun : paths.foldlM (packPath request h) (start, reasons) = .ok s')
    (hstart : start.paths = [] ∧ start.records = Table.empty _) (hreasons : KnownReasons reasons) :
    Reserved py request.contextTokens s'.1 ∧ KnownReasons s'.2 := by
  refine foldlM_loop (fun _ s => Reserved py request.contextTokens s.1 ∧ KnownReasons s.2)
    (fun done path s t hs ht => ?_) ⟨.inl hstart, hreasons⟩ hrun
  rcases packPath_cases ht with ⟨reason, hreason, rfl⟩ | ⟨records, -, -, hfits, rfl⟩
  · exact ⟨hs.1, hs.2.insert (List.mem_append_right _ hreason)⟩
  · refine ⟨.inr ?_, hs.2⟩
    simpa [jsonText, RecallResult.textLength] using length_of_estimate hfits

end Packing

/-! ### The budget -/

section Budget

variable {t : RelationTraversal py} {later : RelationStore py} {request : RelationRecallRequest}
  {result : RecallResult}

/-- What a traversal found, before anything is packed. -/
structure Envelope (policy : TraversalPolicy) (start : RecallResult) : Prop where
  nodes : start.nodeCount ≤ policy.maxNodes
  edges : start.edgeCount ≤ policy.maxEdges
  estimate : start.estimatedTokens = 0

/-- The result that is returned, but for its estimate, fits into the budget with five digits. -/
lemma close_fits {r : RecallResult} {used : ℕ} {reasons : List String}
    (henvelope : Envelope request.policy r) (hbudget : r.contextBudget = request.contextTokens)
    (hpaths : r.paths.length ≤ request.policy.maxPaths)
    (hreserved : Reserved py request.contextTokens r)
    (hold : 2 ≤ RecallResult.textLength py (.arr (r.truncationReasons.map .str)))
    (hused : used ≤ request.policy.maxStorageCalls) (hreasons : KnownReasons reasons) :
    RecallResult.textLength py (r.close used reasons).dump + 4 ≤ request.contextTokens * 4 := by
  have hnodes := request.policy.nodes_bounds.2
  have hedges := request.policy.edges_bounds.2
  have hcalls := request.policy.calls_bounds.2
  have hpathsBound := request.policy.paths_bounds.2
  have hcontext := request.context_bounds
  have hzero : width 10 0 = 1 := rfl
  -- the account of the calls and reasons, before and after it is set
  have hnew : (r.close used reasons).accountLength py ≤ 118 := by
    have hsorted : (reasons.insertionSort (· ≤ ·)).Perm reasons := List.perm_insertionSort _ _
    have hlist := (RecallResult.textLength_reasons py
      (hsorted.nodup_iff.mpr hreasons.1) (List.Subset.trans hsorted.subset hreasons.2)).2
    have hbool := (RecallResult.textLength_bool py (decide (reasons ≠ []))).2
    have hcount := RecallResult.textLength_nat_le py (show 0 < 2 by decide)
      (show used < 10 ^ 2 by omega)
    simp only [RecallResult.accountLength, RecallResult.close]
    omega
  have hbefore : 7 ≤ r.accountLength py := by
    have hbool := (RecallResult.textLength_bool py r.truncated).1
    have hcount := width_pos 10 r.storageCalls
    rw [RecallResult.accountLength, RecallResult.textLength_nat]
    omega
  have hclosed := (r.close used reasons).length_dump py
  have hcontent : (r.close used reasons).contentLength py = r.contentLength py := rfl
  have hfixed : (r.close used reasons).envelopeLength py = r.envelopeLength py := rfl
  have hestimate : (r.close used reasons).estimatedTokens = 0 := henvelope.estimate
  have hclosedPaths : (r.close used reasons).paths = r.paths := rfl
  have hclosedRecords : (r.close used reasons).records = r.records := rfl
  rw [hcontent, hfixed, hestimate, hclosedPaths, hclosedRecords, hzero] at hclosed
  have hpathDigits : width 10 r.paths.length ≤ 3 :=
    (SelfMeasuring.width_le_iff (by decide) (by decide)).mpr (by omega)
  rcases hreserved with ⟨hnone, hempty⟩ | hfits
  · have hnoContent : r.contentLength py = 4 := by
      rw [RecallResult.contentLength, hnone, hempty]
      rfl
    have hrecordDigits : width 10 r.records.rows.length = 1 := by rw [hempty]; rfl
    have hmode : RecallResult.textLength py
        (.str (if r.historical then "historical" else "current")) ≤ 62 := by
      have hlength : (if r.historical then "historical" else "current").length ≤ 10 := by
        split <;> decide
      exact (Printing.length_quoted_le _).trans (by omega)
    have htime : RecallResult.textLength py (.str r.evaluatedAt.iso) ≤ 194 := by
      have := length_iso_le r.evaluatedAt
      exact (Printing.length_quoted_le _).trans (by omega)
    have hnodeCount := RecallResult.textLength_nat_le py (show 0 < 3 by decide)
      (show r.nodeCount < 10 ^ 3 by have := henvelope.nodes; omega)
    have hedgeCount := RecallResult.textLength_nat_le py (show 0 < 3 by decide)
      (show r.edgeCount < 10 ^ 3 by have := henvelope.edges; omega)
    have hcontextDigits := RecallResult.textLength_nat_le py (show 0 < 5 by decide)
      (show r.contextBudget < 10 ^ 5 by omega)
    rw [RecallResult.envelopeLength] at hclosed
    omega
  · have hitems := r.length_items py
    rw [henvelope.estimate, hzero] at hitems
    have hrecordDigits : width 10 r.records.rows.length ≤ 5 :=
      (SelfMeasuring.width_le_iff (by decide) (by decide)).mpr (by
        have := r.length_rows_le py
        omega)
    omega

/-- The estimate that is returned is that of the returned text, and within the budget. -/
lemma measured_settles {r : RecallResult} (hestimate : r.estimatedTokens = 0) {tokens : ℕ}
    (htokens : tokens < 10 ^ 5) (hfits : RecallResult.textLength py r.dump + 4 ≤ tokens * 4) :
    (((r.measured py).measured py).measured py).estimatedTokens =
        tokenCounter.estimateTokens (jsonText py (((r.measured py).measured py).measured py).dump) ∧
      (((r.measured py).measured py).measured py).estimatedTokens ≤ tokens := by
  obtain ⟨base, hbase⟩ : ∃ base, ∀ n, RecallResult.textLength py
      ({ r with estimatedTokens := n } : RecallResult).dump = base + width 10 n :=
    ⟨266 + r.contentLength py + r.envelopeLength py + r.accountLength py +
        width 10 r.paths.length + width 10 r.records.rows.length,
      fun n => RecallResult.length_dump py { r with estimatedTokens := n }⟩
  have hself (n : ℕ) : tokenCounter.estimateTokens
      (jsonText py ({ r with estimatedTokens := n } : RecallResult).dump) =
        portions 10 4 base n :=
    estimate_eq_portions (by rw [jsonText, String.length_ofList]; exact hbase n)
  have hmeasure (n : ℕ) : ({ r with estimatedTokens := n } : RecallResult).measured py =
      { r with estimatedTokens := portions 10 4 base n } := by
    rw [RecallResult.measured, hself]
  have hzero : r = { r with estimatedTokens := 0 } := by rw [← hestimate]
  have hlength := hbase 0
  rw [← hzero] at hlength
  have hbound {n : ℕ} (hn : n ≤ tokens) : portions 10 4 base n ≤ tokens := by
    refine (SelfMeasuring.portions_le (by decide) (by decide) (hn.trans_lt htokens)).trans ?_
    have hwidth : width 10 0 = 1 := rfl
    omega
  rw [hzero, hmeasure, hmeasure, hmeasure]
  refine ⟨?_, hbound (hbound (hbound (Nat.zero_le _)))⟩
  rw [hself]
  exact (SelfMeasuring.portions_settled (by decide) (by decide) base).symm

lemma recall_calls (hknowledge : t.scrollKnowledge.Lawful (knowledgeSchema py))
    (hepisodes : t.scrollEpisodes.Lawful episodeSchema)
    (h : RelationRecallService.recall t later request = .ok result) :
    result.storageCalls ≤ request.policy.maxStorageCalls := by
  obtain ⟨found, -, used, s, hused, -, rfl⟩ := recall_eq_ok hknowledge hepisodes h
  exact hused

lemma recall_tokens (hknowledge : t.scrollKnowledge.Lawful (knowledgeSchema py))
    (hepisodes : t.scrollEpisodes.Lawful episodeSchema)
    (h : RelationRecallService.recall t later request = .ok result) :
    result.estimatedTokens = tokenCounter.estimateTokens (jsonText py result.dump) ∧
      result.estimatedTokens ≤ request.contextTokens := by
  obtain ⟨found, hfound, used, s, hused, hgathered, rfl⟩ := recall_eq_ok hknowledge hepisodes h
  obtain ⟨u, hu, heq⟩ := traverse_tidy hknowledge hfound
  have hsorted : (u.reasons.insertionSort (· ≤ ·)).Perm u.reasons := List.perm_insertionSort _ _
  have hfoundReasons : KnownReasons found.truncationReasons := by
    rw [heq]
    exact ⟨hsorted.nodup_iff.mpr hu.distinct, List.Subset.trans hsorted.subset
      (List.Subset.trans hu.known (List.subset_append_left _ _))⟩
  suffices hs : ∃ paths records, s.1 =
        { RecallResult.start found request.contextTokens with paths, records } ∧
      paths.length ≤ request.policy.maxPaths ∧ Reserved py request.contextTokens s.1 ∧
      KnownReasons s.2 by
    obtain ⟨paths, records, hframe, hpaths, hreserved, hreasons⟩ := hs
    have hcontext := request.context_bounds
    have hfits : RecallResult.textLength py (s.1.close used s.2).dump + 4 ≤
        request.contextTokens * 4 := close_fits
      ⟨by rw [hframe, RecallResult.start, heq]; exact hu.budget.nodes,
        by rw [hframe, RecallResult.start, heq]; exact hu.budget.edges, by rw [hframe]; rfl⟩
      (by rw [hframe]; rfl) (by rw [hframe]; exact hpaths) hreserved
      (by rw [hframe]; exact (RecallResult.textLength_reasons py hfoundReasons.1 hfoundReasons.2).1)
      hused hreasons
    exact measured_settles (r := s.1.close used s.2) (by rw [hframe]; rfl) (by omega) hfits
  cases hgathered with
  | packed hydrated s hheld hheldEpisodes hpacked hrun =>
    refine ⟨s.1.paths, s.1.records, hpacked.frame, ?_,
      reserved_of_foldlM hrun ⟨rfl, rfl⟩ hfoundReasons⟩
    refine (hpacked.sublist.length_le).trans ?_
    rw [heq]
    exact hu.budget.paths
  | unread reason hreason =>
    exact ⟨[], Table.empty _, rfl, Nat.zero_le _, .inl ⟨rfl, rfl⟩, hfoundReasons.insert
      (List.mem_append_left _ (List.mem_append_right _ hreason))⟩

/-- The result of a recall states the number of tokens of its own text, which is within the budget,
and the calls of both its parts are within theirs. -/
theorem recall_budget (hknowledge : t.scrollKnowledge.Lawful (knowledgeSchema py))
    (hepisodes : t.scrollEpisodes.Lawful episodeSchema)
    (h : RelationRecallService.recall t later request = .ok result) :
    result.estimatedTokens = tokenCounter.estimateTokens (jsonText py result.dump) ∧
      result.estimatedTokens ≤ request.contextTokens ∧
      result.storageCalls ≤ request.policy.maxStorageCalls := by
  obtain ⟨hself, hle⟩ := recall_tokens hknowledge hepisodes h
  exact ⟨hself, hle, recall_calls hknowledge hepisodes h⟩

theorem recall_budget_sample : ∃ result,
    RelationRecallService.recall verifiedSample verifiedSample.store sampleRequest = .ok result ∧
      result.paths = [pathAB] ∧
      result.estimatedTokens = tokenCounter.estimateTokens (jsonText sizes result.dump) ∧
      result.estimatedTokens ≤ 4096 ∧ result.storageCalls ≤ 8 := by
  obtain ⟨result, hresult, hpaths⟩ := sample_recall
  exact ⟨result, hresult, hpaths, recall_budget (firstPage_lawful _) (firstPage_lawful _) hresult⟩

end Budget

end CyberBrain.Relations
