import CyberBrain.Dreaming.Orchestration
import CyberBrain.Foundation.PythonPrinting
import CyberBrain.Knowledge.Evolution

/-!
# The evidence gate

`DreamEvidenceGate.evaluate` decides for every candidate of a run whether it is promoted, reviewed or
rejected. A candidate that repeats an earlier one, or nearly does, is rejected, and its evidence goes
to the earlier candidate, which is decided anew.
-/

namespace CyberBrain.Dreaming

open Knowledge Python

variable {py : Runtime}

/-! ### Decisions -/

inductive PromotionDecision
  | promote
  | review
  | reject
  deriving DecidableEq, Repr

/-- The policy of the gate, with the values of its doubles. -/
structure PromotionPolicy where
  promoteThreshold : ℚ := Binary64.round (78 / 100)
  reviewThreshold : ℚ := Binary64.round (45 / 100)
  minimumEvidenceCount : ℤ := 2
  nearDuplicateJaccard : ℚ := Binary64.round (72 / 100)
  nearDuplicateMinTokens : ℤ := 5
  strongVerifications : List String := ["user_confirmed", "tested", "observed"]

structure CandidateGateResult where
  candidateIndex : ℕ
  decision : PromotionDecision
  reasonerConfidence : Binary64
  evidenceStrength : ℚ
  promotionConfidence : ℚ
  evidenceIds : List String
  reasons : List String

structure DreamGateResult where
  requestId : String
  candidates : List CandidateGateResult

/-- `evidence_by_id`: of several items with one id the last counts. -/
def evidenceById (request : DreamReasoningRequest) (id : String) : Option EvidenceItem :=
  (request.evidenceByTopic.flatMap Prod.snd).reverse.find? (·.id = id)

/-- `_result`. -/
def gateResult (index : ℕ) (candidate : DreamCandidate) (decision : PromotionDecision)
    (evidenceStrength promotionConfidence : ℚ) (reasons : List String) : CandidateGateResult where
  candidateIndex := index
  decision := decision
  reasonerConfidence := candidate.confidence
  evidenceStrength := evidenceStrength
  promotionConfidence := promotionConfidence
  evidenceIds := candidate.evidenceIds
  reasons := reasons

/-- `max(0.0, min(1.0, x))`. -/
def clamp (x : ℚ) : ℚ := max 0 (min 1 x)

/-- `_promotion_confidence`. -/
def promotionConfidence (reasonerConfidence : Binary64) (evidenceStrength : ℚ) : ℚ :=
  let r := Binary64.round
  clamp (r (r (r (35 / 100) * clamp reasonerConfidence.value) + r (r (65 / 100) * evidenceStrength)))

section Evaluate

variable (py) (policy : PromotionPolicy)

/-- The verification of an item. -/
def verificationText (item : EvidenceItem) : String :=
  match (item.metadata.lookup "verification").filter fun v => !isFalsy v with
  | some v => py.casefold (strip (pyStr py v))
  | none   => py.casefold (strip "")

/-- `_evidence_strength`. -/
def evidenceStrength (evidence : List EvidenceItem) : ℚ :=
  let r := Binary64.round
  let countScore := min 1 (r ((evidence.map (·.id)).dedup.length / 3))
  let diversityScore := min 1 (r ((evidence.map (·.recordType)).dedup.length / 2))
  let strong := evidence.countP fun item => verificationText py item ∈ policy.strongVerifications
  let verified := evidence.countP fun item => verificationText py item ≠ ""
  let verificationScore :=
    if evidence = [] then 0
    else r (r (r (r (7 / 10) * strong) + r (r (3 / 10) * verified)) / evidence.length)
  clamp (r (r (r (r (45 / 100) * countScore) + r (r (4 / 10) * verificationScore)) +
    r (r (15 / 100) * diversityScore)))

/-- `_evaluate_candidate`. -/
def evaluateCandidate (index : ℕ) (candidate : DreamCandidate)
    (evidence : String → Option EvidenceItem) : CandidateGateResult :=
  let known := candidate.evidenceIds.filterMap evidence
  if candidate.evidenceIds.any fun id => (evidence id).isNone then
    gateResult index candidate .reject 0 0 ["unknown_evidence_ids"]
  else if known.length < policy.minimumEvidenceCount then
    gateResult index candidate .reject 0 0 ["insufficient_evidence_count"]
  else
    let strength := evidenceStrength py policy known
    if candidate.classification = "insufficient_evidence" then
      gateResult index candidate .reject strength 0 ["reasoner_classified_insufficient_evidence"]
    else
      let confidence := promotionConfidence candidate.confidence strength
      if candidate.classification ∈ ["contradiction", "true_contradiction"] then
        gateResult index candidate .review strength confidence ["contradiction_requires_review"]
      else if candidate.classification = "context_dependent" then
        gateResult index candidate .review strength confidence
          ["context_dependent_requires_review"]
      else if policy.promoteThreshold ≤ confidence then
        gateResult index candidate .promote strength confidence ["promotion_threshold_met"]
      else if policy.reviewThreshold ≤ confidence then
        gateResult index candidate .review strength confidence
          ["promotion_confidence_requires_review"]
      else
        gateResult index candidate .reject strength confidence ["promotion_confidence_too_low"]

end Evaluate

/-! ### Duplicates -/

section Duplicates

variable (py)

/-- `json.dumps` with `ensure_ascii=False`. -/
def spacedDialect : Printing.Dialect :=
  { jsonDialect py with comma := [' '], colon := [' '] }

/-- `json.dumps(value, sort_keys=True, ensure_ascii=False)`. -/
def dumps (value : Json) : String := String.ofList ((spacedDialect py).print value.sortKeys)

/-- `re.sub(r"\s+", " ", text)`. -/
def collapseSpaces : Bool → List Char → List Char
  | _, []           => []
  | inSpace, c :: cs =>
    if isSpace c then (if inSpace then [] else [' ']) ++ collapseSpaces true cs
    else c :: collapseSpaces false cs

/-- `re.findall(r"[a-z0-9]+", text)`. -/
def alnumRuns (cs : List Char) : List (List Char) :=
  (cs.splitOnP fun c => !(('a' ≤ c && c ≤ 'z') || ('0' ≤ c && c ≤ '9'))).filter (· ≠ [])

/-- `candidate.content or candidate.summary or ""`, folded. -/
def foldedText (candidate : DreamCandidate) : String :=
  strip (py.casefold (if candidate.content = "" then candidate.summary else candidate.content))

/-- `text.casefold().strip()`. -/
def foldedLabel (text : String) : String := strip (py.casefold text)

/-- The context of a candidate without its execution labels. -/
def semanticContext (candidate : DreamCandidate) : List (String × Json) :=
  candidate.context.filter fun kv => kv.1 ∉ ["task_id", "reasoning_section"]

/-- The domain of an item. -/
def itemDomain (item : EvidenceItem) : Json :=
  match (item.metadata.lookup "domain").getD .null with
  | .null =>
    match item.metadata.lookup "context" with
    | some (.obj context) =>
      match (context.lookup "legacy_domain").filter fun v => !isFalsy v with
      | some v => v
      | none   => (context.lookup "domain").getD .null
    | _ => .null
  | domain => domain

/-- The partition of an item: its tenant, user, agent, project and domain. -/
def itemPartition (item : EvidenceItem) : Json :=
  .arr ((["tenant", "user", "agent", "project"].map fun key => (item.metadata.lookup key).getD .null)
    ++ [itemDomain item])

variable (evidence : String → Option EvidenceItem) (candidate : DreamCandidate)

/-- The partitions of the known evidence of a candidate. -/
def partitionsOf : List Json := (candidate.evidenceIds.filterMap evidence).map itemPartition

/-- The unknown evidence ids of a candidate. -/
def unknownIds : List String := candidate.evidenceIds.filter fun id => (evidence id).isNone

/-- `sorted(texts)`. -/
def sortTexts (texts : List String) : List String := texts.insertionSort (· ≤ ·)

/-- A list of texts as JSON. -/
def textList (texts : List String) : Json := .arr (texts.map .str)

/-- `_candidate_fingerprint`. -/
def candidateFingerprint : String :=
  dumps py (.arr [.str (String.ofList (collapseSpaces false (foldedText py candidate).toList)),
    .str (foldedLabel py candidate.entityType), .str (foldedLabel py candidate.classification),
    .bool candidate.negativeKnowledge, .obj (semanticContext candidate),
    textList (sortTexts ((partitionsOf evidence candidate).map (dumps py)).dedup),
    textList (sortTexts (unknownIds evidence candidate).dedup)])

/-- A signature of `_near_duplicate_signature`. -/
structure Signature where
  entityType : String
  classification : String
  context : String
  negative : Bool
  partitions : String
  unknown : String
  deriving DecidableEq

/-- The signature of `_near_duplicate_signature`. -/
def candidateSignature : Signature where
  entityType := foldedLabel py candidate.entityType
  classification := foldedLabel py candidate.classification
  context := dumps py (.obj (semanticContext candidate))
  negative := candidate.negativeKnowledge
  partitions := dumps py (textList (sortTexts ((partitionsOf evidence candidate).map (dumps py))))
  unknown := dumps py (textList (sortTexts (unknownIds evidence candidate).dedup))

/-- The tokens of `_near_duplicate_signature`. -/
def candidateTokens : Finset (List Char) :=
  (alnumRuns (foldedText py candidate).toList).toFinset

end Duplicates

/-! ### The loop -/

/-- The state of the loop of `evaluate`: the candidates and the decisions so far, the fingerprints
seen and the signatures kept, with their indexes. -/
structure GateState where
  candidates : List DreamCandidate
  decisions : List CandidateGateResult := []
  seen : List (String × ℕ) := []
  kept : List (ℕ × Signature × Finset (List Char)) := []

/-- `max(a, b)` on doubles. -/
def maxConfidence (a b : Binary64) : Binary64 := if a.value < b.value then b else a

/-- The candidate with the evidence of another one. -/
def DreamCandidate.merge (first candidate : DreamCandidate) : DreamCandidate :=
  { first with
    evidenceIds := (first.evidenceIds ++ candidate.evidenceIds).eraseDups
    confidence := maxConfidence first.confidence candidate.confidence }

/-- The decision on a candidate that was merged into an earlier one. -/
def duplicateResult (index : ℕ) (candidate : DreamCandidate) (first : ℕ) : CandidateGateResult :=
  gateResult index candidate .reject 0 0
    ["duplicate_candidate_in_run", "merged_into_index_" ++ toString first]

/-- A decision with one more reason. -/
def CandidateGateResult.addReason (d : CandidateGateResult) (reason : String) :
    CandidateGateResult :=
  { d with reasons := if reason ∈ d.reasons then d.reasons else d.reasons ++ [reason] }

namespace DreamEvidenceGate

variable (py) (policy : PromotionPolicy) (evidence : String → Option EvidenceItem)

/-- `_near_duplicate_index`. -/
def nearDuplicateIndex (candidate : DreamCandidate)
    (kept : List (ℕ × Signature × Finset (List Char))) : Option ℕ :=
  let signature := candidateSignature py evidence candidate
  let tokens := candidateTokens py candidate
  if tokens.card < policy.nearDuplicateMinTokens then none
  else
    (kept.find? fun (_, keptSignature, keptTokens) =>
      keptSignature = signature && policy.nearDuplicateMinTokens ≤ keptTokens.card &&
        (tokens ∪ keptTokens).Nonempty && policy.nearDuplicateJaccard ≤
          Binary64.round ((tokens ∩ keptTokens).card / (tokens ∪ keptTokens).card)).map Prod.fst

/-- Merge a candidate into an earlier one. -/
def absorb (s : GateState) (index : ℕ) (candidate : DreamCandidate) (first : ℕ) (reason : String) :
    GateState :=
  { s with
    candidates := s.candidates.modify first (·.merge candidate)
    decisions := (s.candidates[first]?.elim s.decisions fun firstCandidate =>
        s.decisions.set first
          ((evaluateCandidate py policy first (firstCandidate.merge candidate) evidence).addReason
            reason)) ++ [duplicateResult index candidate first] }

/-- Keep a candidate that repeats no earlier one. -/
def keep (s : GateState) (index : ℕ) (candidate : DreamCandidate) : GateState :=
  { s with
    decisions := s.decisions ++ [evaluateCandidate py policy index candidate evidence]
    seen := s.seen ++ [(candidateFingerprint py evidence candidate, index)]
    kept := s.kept ++ [(index, candidateSignature py evidence candidate,
      candidateTokens py candidate)] }

/-- The body of the loop of `evaluate`. -/
def step (s : GateState) (candidate : DreamCandidate) (index : ℕ) : GateState :=
  let fingerprint := candidateFingerprint py evidence candidate
  match s.seen.lookup fingerprint with
  | some first => absorb py policy evidence s index candidate first "evidence_merged_from_duplicate"
  | none       =>
    match nearDuplicateIndex py policy evidence candidate s.kept with
    | some first =>
      absorb py policy evidence s index candidate first "evidence_merged_from_near_duplicate"
    | none       => keep py policy evidence s index candidate

/-- The loop of `evaluate`. -/
def loop (s : GateState) (candidates : List DreamCandidate) : GateState :=
  candidates.zipIdx.foldl (fun s (candidate, index) => step py policy evidence s candidate index) s

/-- `DreamEvidenceGate.evaluate`, which also changes the candidates of the result. -/
def evaluate (request : DreamReasoningRequest) (result : DreamReasoningResult) :
    Except Exc (DreamReasoningResult × DreamGateResult) := do
  require (result.requestId = request.requestId)
    (.valueError "Dream result request_id does not match request")
  let s := loop py policy (evidenceById request) { candidates := result.candidates }
    result.candidates
  pure ({ result with candidates := s.candidates }, ⟨request.requestId, s.decisions⟩)

end DreamEvidenceGate

/-! ### What merged candidates share -/

/-- Two candidates that may be merged: they agree on everything but their text and evidence, and
their evidence lies in the same partitions. -/
structure Mergeable (py : Runtime) (evidence : String → Option EvidenceItem)
    (a b : DreamCandidate) : Prop where
  partitions : ∀ v, v ∈ (partitionsOf evidence a).map Json.sortKeys ↔
    v ∈ (partitionsOf evidence b).map Json.sortKeys
  unknown : ∀ id, id ∈ unknownIds evidence a ↔ id ∈ unknownIds evidence b
  entityType : foldedLabel py a.entityType = foldedLabel py b.entityType
  classification : foldedLabel py a.classification = foldedLabel py b.classification
  polarity : a.negativeKnowledge = b.negativeKnowledge
  context : (Json.obj (semanticContext a)).sortKeys = (Json.obj (semanticContext b)).sortKeys

lemma dumps_eq_iff {v w : Json} : dumps py v = dumps py w ↔ v.sortKeys = w.sortKeys := by
  constructor
  · intro h
    exact (spacedDialect py).print_injective (String.ofList_injective h)
  · intro h
    rw [dumps, h, dumps]

@[simp] lemma textList_sortKeys (texts : List String) :
    (textList texts).sortKeys = textList texts := by
  simp only [textList, Json.sortKeys, Json.sortKeysList_eq, List.map_map]
  rfl

lemma textList_injective : Function.Injective textList := by
  intro a b h
  exact List.map_injective_iff.mpr (fun _ _ => Json.str.inj) (Json.arr.inj h)

lemma mem_of_sortTexts_eq {a b : List String} (h : sortTexts a = sortTexts b) (t : String) :
    t ∈ a ↔ t ∈ b := by
  rw [← (List.perm_insertionSort (· ≤ ·) a).mem_iff, ← (List.perm_insertionSort (· ≤ ·) b).mem_iff]
  exact iff_of_eq (congrArg (t ∈ ·) h)

/-- Partitions with the same texts are the same. -/
lemma mem_sortKeys_of_dumps {a b : List Json}
    (h : ∀ t, t ∈ a.map (dumps py) ↔ t ∈ b.map (dumps py)) (v : Json) :
    v ∈ a.map Json.sortKeys ↔ v ∈ b.map Json.sortKeys := by
  have hsub : ∀ {a b : List Json}, (∀ t, t ∈ a.map (dumps py) → t ∈ b.map (dumps py)) →
      v ∈ a.map Json.sortKeys → v ∈ b.map Json.sortKeys := by
    intro a b h hv
    obtain ⟨p, hp, rfl⟩ := List.mem_map.mp hv
    obtain ⟨q, hq, heq⟩ := List.mem_map.mp (h _ (List.mem_map_of_mem hp))
    exact List.mem_map.mpr ⟨q, hq, dumps_eq_iff.mp heq⟩
  exact ⟨hsub fun t => (h t).mp, hsub fun t => (h t).mpr⟩

variable {evidence : String → Option EvidenceItem} {a b : DreamCandidate}

/-- Candidates with one fingerprint may be merged. -/
lemma mergeable_of_fingerprint
    (h : candidateFingerprint py evidence a = candidateFingerprint py evidence b) :
    Mergeable py evidence a b := by
  have hjson := dumps_eq_iff.mp h
  simp only [Json.sortKeys.eq_1, Json.sortKeysList_eq, List.map_cons, List.map_nil,
    textList_sortKeys] at hjson
  simp only [Json.arr.injEq, List.cons.injEq] at hjson
  obtain ⟨-, hentity, hclass, hpolarity, hcontext, hpartitions, hunknown, -⟩ := hjson
  exact {
    partitions := mem_sortKeys_of_dumps fun t => by
      have := mem_of_sortTexts_eq (textList_injective hpartitions) t
      rwa [List.mem_dedup, List.mem_dedup] at this
    unknown := fun t => by
      have := mem_of_sortTexts_eq (textList_injective hunknown) t
      rwa [List.mem_dedup, List.mem_dedup] at this
    entityType := by simpa [Json.sortKeys] using hentity
    classification := by simpa [Json.sortKeys] using hclass
    polarity := by simpa [Json.sortKeys] using hpolarity
    context := hcontext }

/-- Candidates with one signature may be merged. -/
lemma mergeable_of_signature
    (h : candidateSignature py evidence a = candidateSignature py evidence b) :
    Mergeable py evidence a b := by
  simp only [candidateSignature, Signature.mk.injEq, dumps_eq_iff, textList_sortKeys] at h
  obtain ⟨hentity, hclass, hcontext, hpolarity, hpartitions, hunknown⟩ := h
  exact {
    partitions := mem_sortKeys_of_dumps fun t =>
      mem_of_sortTexts_eq (textList_injective hpartitions) t
    unknown := fun t => by
      have := mem_of_sortTexts_eq (textList_injective hunknown) t
      rwa [List.mem_dedup, List.mem_dedup] at this
    entityType := hentity
    classification := hclass
    polarity := hpolarity
    context := hcontext }

/-! ### The invariant of the loop -/

/-- The reasons that a merge adds to the decision on the earlier candidate. -/
def mergeReasons : List String :=
  ["evidence_merged_from_duplicate", "evidence_merged_from_near_duplicate"]

/-- The decision rejects a candidate as merged into an earlier one. -/
def CandidateGateResult.IsMergedInto (d : CandidateGateResult) (first : ℕ) : Prop :=
  d.decision = .reject ∧
    d.reasons = ["duplicate_candidate_in_run", "merged_into_index_" ++ toString first]

lemma mergedInto_injective {d : CandidateGateResult} {i j : ℕ} (hi : d.IsMergedInto i)
    (hj : d.IsMergedInto j) : i = j := by
  have htext := hi.2.symm.trans hj.2
  simp only [List.cons.injEq, String.append_right_inj, and_true, true_and] at htext
  have hdigits := congrArg String.toList htext
  rw [Nat.toString_eq_repr, Nat.toString_eq_repr, Nat.toList_repr, Nat.toList_repr] at hdigits
  exact toDigits_injective hdigits

section Invariant

variable (py) (policy : PromotionPolicy) (evidence : String → Option EvidenceItem)

/-- The decision on a candidate is that of `_evaluate_candidate`, up to reasons of merges. -/
def Evaluated (index : ℕ) (candidate : DreamCandidate) (d : CandidateGateResult) : Prop :=
  ∃ added ⊆ mergeReasons, d = { evaluateCandidate py policy index candidate evidence with
    reasons := (evaluateCandidate py policy index candidate evidence).reasons ++ added }

/-- A candidate that was kept: it is decided as it is now, and what it gained came from later ones. -/
structure KeptAt (original : List DreamCandidate) (s : GateState) (i : ℕ) (o : DreamCandidate) :
    Prop where
  origin : original[i]? = some o
  decided : ∃ c d, s.candidates[i]? = some c ∧ s.decisions[i]? = some d ∧
    Evaluated py policy evidence i c d
  gained : ∀ c, s.candidates[i]? = some c → ∀ id ∈ c.evidenceIds, id ∉ o.evidenceIds →
    ∃ j o', i < j ∧ original[j]? = some o' ∧ id ∈ o'.evidenceIds ∧
      s.decisions[j]? = some (duplicateResult j o' i)

/-- A candidate that was merged into an earlier one. -/
structure MergedAt (original : List DreamCandidate) (s : GateState) (i : ℕ) (o : DreamCandidate) :
    Prop where
  origin : original[i]? = some o
  candidate : s.candidates[i]? = some o
  into : ∃ k o', k < i ∧ original[k]? = some o' ∧ Mergeable py evidence o' o ∧
    s.decisions[i]? = some (duplicateResult i o k)

/-- The invariant of the loop. -/
structure GateState.Inv (original : List DreamCandidate) (s : GateState) : Prop where
  length : s.candidates.length = original.length
  untouched : ∀ i, s.decisions.length ≤ i → s.candidates[i]? = original[i]?
  settled : ∀ i < s.decisions.length, ∃ o, KeptAt py policy evidence original s i o ∨
    MergedAt py evidence original s i o
  seen : ∀ fingerprint i, (fingerprint, i) ∈ s.seen → i < s.decisions.length ∧
    ∃ o, KeptAt py policy evidence original s i o ∧
      candidateFingerprint py evidence o = fingerprint
  kept : ∀ i signature tokens, (i, signature, tokens) ∈ s.kept → i < s.decisions.length ∧
    ∃ o, KeptAt py policy evidence original s i o ∧
      candidateSignature py evidence o = signature

end Invariant

section Steps

variable {policy : PromotionPolicy} {original : List DreamCandidate} {s s' : GateState} {i : ℕ}
  {o c : DreamCandidate} {d : CandidateGateResult}

@[simp] lemma evaluateCandidate_index :
    (evaluateCandidate py policy i c evidence).candidateIndex = i := by
  unfold evaluateCandidate
  dsimp only
  split_ifs <;> rfl

@[simp] lemma evaluateCandidate_evidenceIds :
    (evaluateCandidate py policy i c evidence).evidenceIds = c.evidenceIds := by
  unfold evaluateCandidate
  dsimp only
  split_ifs <;> rfl

lemma evaluateCandidate_unmarked :
    "duplicate_candidate_in_run" ∉ (evaluateCandidate py policy i c evidence).reasons := by
  unfold evaluateCandidate
  dsimp only
  split_ifs <;> simp [gateResult]

lemma Evaluated.self : Evaluated py policy evidence i c (evaluateCandidate py policy i c evidence) :=
  ⟨[], List.nil_subset _, by rw [List.append_nil]⟩

lemma Evaluated.addReason {reason : String} (hreason : reason ∈ mergeReasons) :
    Evaluated py policy evidence i c
      ((evaluateCandidate py policy i c evidence).addReason reason) := by
  unfold CandidateGateResult.addReason
  split_ifs
  · exact Evaluated.self
  · exact ⟨[reason], by simpa using hreason, rfl⟩

lemma Evaluated.unmarked (h : Evaluated py policy evidence i c d) :
    "duplicate_candidate_in_run" ∉ d.reasons := by
  obtain ⟨added, hadded, rfl⟩ := h
  rw [List.mem_append, not_or]
  refine ⟨evaluateCandidate_unmarked, fun hmem => ?_⟩
  exact absurd (hadded hmem) (by decide)

lemma not_evaluated_duplicate {j k : ℕ} :
    ¬ Evaluated py policy evidence i c (duplicateResult j o k) :=
  fun h => h.unmarked (by simp [duplicateResult, gateResult])

/-- The decisions on other candidates do not matter to a kept one, but for those merged into it. -/
lemma KeptAt.frame (h : KeptAt py policy evidence original s i o)
    (hcandidate : s'.candidates[i]? = s.candidates[i]?)
    (hdecision : s'.decisions[i]? = s.decisions[i]?)
    (hduplicates : ∀ j o', s.decisions[j]? = some (duplicateResult j o' i) →
      s'.decisions[j]? = some (duplicateResult j o' i)) :
    KeptAt py policy evidence original s' i o where
  origin := h.origin
  decided := by
    rw [hcandidate, hdecision]
    exact h.decided
  gained c hc id hid hnew := by
    rw [hcandidate] at hc
    obtain ⟨j, o', hij, horigin, hmem, hdup⟩ := h.gained c hc id hid hnew
    exact ⟨j, o', hij, horigin, hmem, hduplicates j o' hdup⟩

lemma MergedAt.frame (h : MergedAt py evidence original s i o)
    (hcandidate : s'.candidates[i]? = s.candidates[i]?)
    (hdecision : s'.decisions[i]? = s.decisions[i]?) :
    MergedAt py evidence original s' i o where
  origin := h.origin
  candidate := hcandidate.trans h.candidate
  into := by
    rw [hdecision]
    exact h.into

lemma KeptAt.not_duplicate (h : KeptAt py policy evidence original s i o) {j k : ℕ}
    {o' : DreamCandidate} : s.decisions[i]? ≠ some (duplicateResult j o' k) := by
  intro heq
  obtain ⟨c, d, -, hd, heval⟩ := h.decided
  rw [heq] at hd
  cases hd
  exact not_evaluated_duplicate heval

variable (py policy evidence) in
/-- After a merge the earlier candidate is decided anew, and the later one is rejected. -/
lemma absorb_spec (candidate : DreamCandidate) {first : ℕ} (reason : String)
    (hlt : first < s.decisions.length) (hc : s.candidates[first]? = some c) :
    let s' := DreamEvidenceGate.absorb py policy evidence s s.decisions.length candidate first reason
    s'.decisions.length = s.decisions.length + 1 ∧
      (∀ j, j ≠ first → s'.candidates[j]? = s.candidates[j]?) ∧
      s'.candidates[first]? = some (c.merge candidate) ∧
      (∀ j < s.decisions.length, j ≠ first → s'.decisions[j]? = s.decisions[j]?) ∧
      s'.decisions[first]? = some ((evaluateCandidate py policy first (c.merge candidate)
        evidence).addReason reason) ∧
      s'.decisions[s.decisions.length]? =
        some (duplicateResult s.decisions.length candidate first) := by
  simp only [DreamEvidenceGate.absorb, hc, Option.elim_some]
  refine ⟨by simp, fun j hj => List.getElem?_modify_ne _ _ hj.symm, by simp [hc],
    fun j hj hne => ?_, ?_, ?_⟩
  · rw [List.getElem?_append_left (by simpa using hj), List.getElem?_set_ne hne.symm]
  · rw [List.getElem?_append_left (by simpa using hlt), List.getElem?_set_self hlt]
  · rw [List.getElem?_append_right (by simp)]
    simp

/-- A merge into a kept candidate keeps the invariant. -/
lemma GateState.Inv.absorb (h : s.Inv py policy evidence original) {candidate : DreamCandidate}
    (hnext : original[s.decisions.length]? = some candidate) {first : ℕ}
    (hlt : first < s.decisions.length) (hfirst : KeptAt py policy evidence original s first o)
    (hmerge : Mergeable py evidence o candidate) {reason : String}
    (hreason : reason ∈ mergeReasons) :
    (DreamEvidenceGate.absorb py policy evidence s s.decisions.length candidate first reason).Inv
      py policy evidence original := by
  obtain ⟨c, d, hc, hd, -⟩ := hfirst.decided
  obtain ⟨hlength, hcandidate, hself, hdecision, hdecided, hnew⟩ :=
    absorb_spec py evidence policy candidate reason hlt hc
  have hseen : (DreamEvidenceGate.absorb py policy evidence s s.decisions.length candidate first
    reason).seen = s.seen := rfl
  have hkept : (DreamEvidenceGate.absorb py policy evidence s s.decisions.length candidate first
    reason).kept = s.kept := rfl
  have hcount : (DreamEvidenceGate.absorb py policy evidence s s.decisions.length candidate first
    reason).candidates.length = s.candidates.length := List.length_modify _ _ _
  generalize DreamEvidenceGate.absorb py policy evidence s s.decisions.length candidate first
    reason = s' at *
  have hduplicates : ∀ k j o', s.decisions[j]? = some (duplicateResult j o' k) →
      s'.decisions[j]? = some (duplicateResult j o' k) := by
    intro k j o' hj
    obtain ⟨hjlt, -⟩ := List.getElem?_eq_some_iff.mp hj
    rw [hdecision j hjlt, hj]
    rintro rfl
    exact hfirst.not_duplicate hj
  have hkeptFirst : KeptAt py policy evidence original s' first o := by
    refine ⟨hfirst.origin, ⟨_, _, hself, hdecided, Evaluated.addReason hreason⟩, ?_⟩
    intro c' hc' id hid hadded
    rw [hself] at hc'
    cases hc'
    rcases List.mem_append.mp (List.mem_eraseDups.mp hid) with hold | hnewId
    · obtain ⟨j, o', hij, horigin, hmem, hdup⟩ := hfirst.gained c hc id hold hadded
      exact ⟨j, o', hij, horigin, hmem, hduplicates _ j o' hdup⟩
    · exact ⟨s.decisions.length, candidate, hlt, hnext, hnewId, hnew⟩
  have hkeptAll : ∀ j o', j < s.decisions.length → KeptAt py policy evidence original s j o' →
      KeptAt py policy evidence original s' j o' := by
    intro j o' hj hkept
    by_cases hne : j = first
    · subst hne
      cases hkept.origin.symm.trans hfirst.origin
      exact hkeptFirst
    · exact hkept.frame (hcandidate j hne) (hdecision j hj hne) (hduplicates j)
  constructor
  · rw [hcount, h.length]
  · intro j hj
    rw [hcandidate j (by omega), h.untouched j (by omega)]
  · intro j hj
    by_cases hlast : j = s.decisions.length
    · subst hlast
      refine ⟨candidate, .inr ⟨hnext, ?_, first, o, hlt, hfirst.origin, hmerge, hnew⟩⟩
      rw [hcandidate _ (by omega), h.untouched _ le_rfl, hnext]
    · have hj : j < s.decisions.length := by omega
      obtain ⟨o', hkept | hmerged⟩ := h.settled j hj
      · exact ⟨o', .inl (hkeptAll j o' hj hkept)⟩
      · have hne : j ≠ first := by
          rintro rfl
          obtain ⟨k, o'', -, -, -, hdup⟩ := hmerged.into
          exact hfirst.not_duplicate hdup
        exact ⟨o', .inr (hmerged.frame (hcandidate j hne) (hdecision j hj hne))⟩
  · intro fingerprint j hj
    rw [hseen] at hj
    obtain ⟨hlt', o', hkept, hfingerprint⟩ := h.seen fingerprint j hj
    exact ⟨by omega, o', hkeptAll j o' hlt' hkept, hfingerprint⟩
  · intro j signature tokens hj
    rw [hkept] at hj
    obtain ⟨hlt', o', hkept, hsignature⟩ := h.kept j signature tokens hj
    exact ⟨by omega, o', hkeptAll j o' hlt' hkept, hsignature⟩

/-- A candidate that repeats no earlier one keeps the invariant. -/
lemma GateState.Inv.keep (h : s.Inv py policy evidence original) {candidate : DreamCandidate}
    (hnext : original[s.decisions.length]? = some candidate) :
    (DreamEvidenceGate.keep py policy evidence s s.decisions.length candidate).Inv py policy evidence
      original := by
  have hcandidates : (DreamEvidenceGate.keep py policy evidence s s.decisions.length
      candidate).candidates = s.candidates := rfl
  have hlength : (DreamEvidenceGate.keep py policy evidence s s.decisions.length
      candidate).decisions.length = s.decisions.length + 1 := by simp [DreamEvidenceGate.keep]
  have hdecision : ∀ j < s.decisions.length, (DreamEvidenceGate.keep py policy evidence s
      s.decisions.length candidate).decisions[j]? = s.decisions[j]? :=
    fun j hj => List.getElem?_append_left hj
  have hnew : (DreamEvidenceGate.keep py policy evidence s s.decisions.length
      candidate).decisions[s.decisions.length]? =
        some (evaluateCandidate py policy s.decisions.length candidate evidence) :=
    List.getElem?_concat_length
  have hseen : ∀ entry ∈ (DreamEvidenceGate.keep py policy evidence s s.decisions.length
      candidate).seen, entry ∈ s.seen ∨
        entry = (candidateFingerprint py evidence candidate, s.decisions.length) :=
    fun entry hentry => (List.mem_append.mp hentry).imp_right List.mem_singleton.mp
  have hkept : ∀ entry ∈ (DreamEvidenceGate.keep py policy evidence s s.decisions.length
      candidate).kept, entry ∈ s.kept ∨ entry = (s.decisions.length,
        candidateSignature py evidence candidate, candidateTokens py candidate) :=
    fun entry hentry => (List.mem_append.mp hentry).imp_right List.mem_singleton.mp
  generalize DreamEvidenceGate.keep py policy evidence s s.decisions.length candidate = s' at *
  have hcandidate := h.untouched s.decisions.length le_rfl
  rw [hnext] at hcandidate
  have hkeptOld : ∀ j o', j < s.decisions.length → KeptAt py policy evidence original s j o' →
      KeptAt py policy evidence original s' j o' := by
    intro j o' hj hkeptAt
    refine hkeptAt.frame (by rw [hcandidates]) (hdecision j hj) fun k o'' hk => ?_
    obtain ⟨hklt, -⟩ := List.getElem?_eq_some_iff.mp hk
    exact (hdecision k hklt).trans hk
  have hself : KeptAt py policy evidence original s' s.decisions.length candidate := by
    refine ⟨hnext, ⟨candidate, _, by rw [hcandidates, hcandidate], hnew, Evaluated.self⟩, ?_⟩
    intro c hc id hid hadded
    rw [hcandidates, hcandidate] at hc
    cases hc
    exact absurd hid hadded
  constructor
  · rw [hcandidates, h.length]
  · intro j hj
    rw [hcandidates, h.untouched j (by omega)]
  · intro j hj
    by_cases hlast : j = s.decisions.length
    · subst hlast
      exact ⟨candidate, .inl hself⟩
    · have hj : j < s.decisions.length := by omega
      obtain ⟨o', hkeptAt | hmerged⟩ := h.settled j hj
      · exact ⟨o', .inl (hkeptOld j o' hj hkeptAt)⟩
      · exact ⟨o', .inr (hmerged.frame (by rw [hcandidates]) (hdecision j hj))⟩
  · intro fingerprint j hj
    rcases hseen _ hj with hold | hlast
    · obtain ⟨hlt, o', hkeptAt, hfingerprint⟩ := h.seen fingerprint j hold
      exact ⟨by omega, o', hkeptOld j o' hlt hkeptAt, hfingerprint⟩
    · obtain ⟨rfl, rfl⟩ := Prod.mk.inj hlast
      exact ⟨by omega, candidate, hself, rfl⟩
  · intro j signature tokens hj
    rcases hkept _ hj with hold | hlast
    · obtain ⟨hlt, o', hkeptAt, hsignature⟩ := h.kept j signature tokens hold
      exact ⟨by omega, o', hkeptOld j o' hlt hkeptAt, hsignature⟩
    · simp only [Prod.mk.injEq] at hlast
      obtain ⟨rfl, rfl, -⟩ := hlast
      exact ⟨by omega, candidate, hself, rfl⟩

lemma mem_of_lookup_eq_some {α β : Type} [BEq α] [LawfulBEq α] {l : List (α × β)} {k : α} {b : β}
    (h : l.lookup k = some b) : (k, b) ∈ l := by
  obtain ⟨l₁, l₂, rfl, -⟩ := List.lookup_eq_some_iff.mp h
  exact List.mem_append_right _ List.mem_cons_self

/-- One pass of the loop keeps the invariant, and adds a decision. -/
lemma GateState.Inv.step (h : s.Inv py policy evidence original) {candidate : DreamCandidate}
    (hnext : original[s.decisions.length]? = some candidate) :
    let s' := DreamEvidenceGate.step py policy evidence s candidate s.decisions.length
    s'.Inv py policy evidence original ∧ s'.decisions.length = s.decisions.length + 1 := by
  simp only [DreamEvidenceGate.step]
  cases hseen : s.seen.lookup (candidateFingerprint py evidence candidate) with
  | some first =>
    obtain ⟨hlt, o, hfirst, hfingerprint⟩ := h.seen _ first (mem_of_lookup_eq_some hseen)
    obtain ⟨c, d, hc, -⟩ := hfirst.decided
    exact ⟨h.absorb hnext hlt hfirst (mergeable_of_fingerprint hfingerprint) (by simp [mergeReasons]),
      (absorb_spec py evidence policy _ _ hlt hc).1⟩
  | none =>
    cases hnear : DreamEvidenceGate.nearDuplicateIndex py policy evidence candidate s.kept with
    | some first =>
      simp only [DreamEvidenceGate.nearDuplicateIndex] at hnear
      split_ifs at hnear with htokens
      obtain ⟨⟨_, signature, tokens⟩, hfind, rfl⟩ := Option.map_eq_some_iff.mp hnear
      obtain ⟨hlt, o, hfirst, hsignature⟩ := h.kept _ _ _ (List.mem_of_find?_eq_some hfind)
      have hsame := List.find?_some hfind
      simp only [Bool.and_eq_true, decide_eq_true_eq] at hsame
      obtain ⟨c, d, hc, -⟩ := hfirst.decided
      exact ⟨h.absorb hnext hlt hfirst (mergeable_of_signature (hsignature.trans hsame.1.1.1))
        (by simp [mergeReasons]), (absorb_spec py evidence policy _ _ hlt hc).1⟩
    | none => exact ⟨h.keep hnext, List.length_append⟩

/-- What one pass of the loop keeps holds after the loop, which decides every candidate. -/
lemma loop_induct {P : GateState → Prop} {original : List DreamCandidate}
    (hinit : P { candidates := original })
    (hstep : ∀ s candidate, P s → original[s.decisions.length]? = some candidate →
      let s' := DreamEvidenceGate.step py policy evidence s candidate s.decisions.length
      P s' ∧ s'.decisions.length = s.decisions.length + 1) :
    let s := DreamEvidenceGate.loop py policy evidence { candidates := original } original
    P s ∧ s.decisions.length = original.length := by
  have hrun : ∀ (done rest : List DreamCandidate) (s : GateState), original = done ++ rest →
      s.decisions.length = done.length → P s →
      P ((rest.zipIdx done.length).foldl (fun s (candidate, index) =>
          DreamEvidenceGate.step py policy evidence s candidate index) s) ∧
        ((rest.zipIdx done.length).foldl (fun s (candidate, index) =>
          DreamEvidenceGate.step py policy evidence s candidate index) s).decisions.length =
            original.length := by
    intro done rest
    induction rest generalizing done with
    | nil =>
      intro s heq hlength hs
      rw [List.append_nil] at heq
      exact ⟨hs, by rw [heq]; exact hlength⟩
    | cons candidate rest ih =>
      intro s heq hlength hs
      have hnext : original[s.decisions.length]? = some candidate := by simp [heq, hlength]
      obtain ⟨hkeep, hcount⟩ := hstep s candidate hs hnext
      rw [hlength] at hkeep hcount
      simpa using ih (done ++ [candidate]) _ (by simp [heq]) (by simpa using hcount) hkeep
  exact hrun [] original _ rfl rfl hinit

variable (py policy evidence) in
/-- The loop decides every candidate. -/
lemma loop_inv (original : List DreamCandidate) :
    let s := DreamEvidenceGate.loop py policy evidence { candidates := original } original
    s.Inv py policy evidence original ∧ s.decisions.length = original.length :=
  loop_induct ⟨rfl, fun _ _ => rfl, by simp, by simp, by simp⟩ fun _ _ hs hnext => hs.step hnext

end Steps

/-! ### What an evaluation returns -/

/-- What `evaluate` makes of the candidates of a run. -/
structure Merging (py : Runtime) (policy : PromotionPolicy)
    (evidence : String → Option EvidenceItem) (original candidates : List DreamCandidate)
    (decisions : List CandidateGateResult) : Prop where
  length : decisions.length = original.length ∧ candidates.length = original.length
  index : ∀ (i : ℕ) (d : CandidateGateResult), decisions[i]? = some d → d.candidateIndex = i
  evidenceIds : ∀ (i : ℕ) (d : CandidateGateResult) (c : DreamCandidate), decisions[i]? = some d →
    candidates[i]? = some c → d.evidenceIds = c.evidenceIds
  evaluated : ∀ (i : ℕ) (d : CandidateGateResult) (c : DreamCandidate), decisions[i]? = some d →
    candidates[i]? = some c → "duplicate_candidate_in_run" ∉ d.reasons →
      Evaluated py policy evidence i c d
  gained : ∀ (i : ℕ) (o c : DreamCandidate), original[i]? = some o → candidates[i]? = some c →
    ∀ id ∈ c.evidenceIds, id ∉ o.evidenceIds → ∃ (j : ℕ) (o' : DreamCandidate)
      (d : CandidateGateResult), i < j ∧ original[j]? = some o' ∧ id ∈ o'.evidenceIds ∧
        decisions[j]? = some d ∧ d.IsMergedInto i
  mergeable : ∀ (i j : ℕ) (d : CandidateGateResult) (o' : DreamCandidate), decisions[j]? = some d →
    d.IsMergedInto i → original[j]? = some o' →
      i < j ∧ ∃ o, original[i]? = some o ∧ Mergeable py evidence o o'

lemma duplicateResult_isMergedInto (index : ℕ) (candidate : DreamCandidate) (first : ℕ) :
    (duplicateResult index candidate first).IsMergedInto first := ⟨rfl, rfl⟩

lemma GateState.Inv.merging {policy : PromotionPolicy} {original : List DreamCandidate}
    {s : GateState} (h : s.Inv py policy evidence original)
    (hlength : s.decisions.length = original.length) :
    Merging py policy evidence original s.candidates s.decisions := by
  have hsettled : ∀ i d, s.decisions[i]? = some d → ∃ o,
      KeptAt py policy evidence original s i o ∨ MergedAt py evidence original s i o :=
    fun i d hd => h.settled i (List.getElem?_eq_some_iff.mp hd).1
  constructor
  · exact ⟨hlength, h.length⟩
  · intro i d hd
    obtain ⟨o, hkept | hmerged⟩ := hsettled i d hd
    · obtain ⟨c, d', -, hd', added, -, rfl⟩ := hkept.decided
      cases hd.symm.trans hd'
      exact evaluateCandidate_index
    · obtain ⟨k, o', -, -, -, hd'⟩ := hmerged.into
      cases hd.symm.trans hd'
      rfl
  · intro i d c hd hc
    obtain ⟨o, hkept | hmerged⟩ := hsettled i d hd
    · obtain ⟨c', d', hc', hd', added, -, rfl⟩ := hkept.decided
      cases hd.symm.trans hd'
      cases hc.symm.trans hc'
      exact evaluateCandidate_evidenceIds
    · obtain ⟨k, o', -, -, -, hd'⟩ := hmerged.into
      cases hd.symm.trans hd'
      cases hc.symm.trans hmerged.candidate
      rfl
  · intro i d c hd hc hunmarked
    obtain ⟨o, hkept | hmerged⟩ := hsettled i d hd
    · obtain ⟨c', d', hc', hd', heval⟩ := hkept.decided
      cases hd.symm.trans hd'
      cases hc.symm.trans hc'
      exact heval
    · obtain ⟨k, o', -, -, -, hd'⟩ := hmerged.into
      cases hd.symm.trans hd'
      exact absurd (by simp [duplicateResult, gateResult]) hunmarked
  · intro i o c ho hc id hid hnew
    have hlt : i < s.decisions.length := by
      rw [hlength]
      exact (List.getElem?_eq_some_iff.mp ho).1
    obtain ⟨o', hkept | hmerged⟩ := h.settled i hlt
    · cases ho.symm.trans hkept.origin
      obtain ⟨j, o', hij, horigin, hmem, hd⟩ := hkept.gained c hc id hid hnew
      exact ⟨j, o', _, hij, horigin, hmem, hd, duplicateResult_isMergedInto j o' i⟩
    · cases ho.symm.trans hmerged.origin
      cases hc.symm.trans hmerged.candidate
      exact absurd hid hnew
  · intro i j d o' hd hinto ho'
    obtain ⟨o, hkept | hmerged⟩ := hsettled j d hd
    · obtain ⟨c, d', -, hd', heval⟩ := hkept.decided
      cases hd.symm.trans hd'
      exact absurd (by simp [hinto.2]) heval.unmarked
    · obtain ⟨k, o'', hkj, horigin, hmerge, hd'⟩ := hmerged.into
      cases hd.symm.trans hd'
      cases ho'.symm.trans hmerged.origin
      cases mergedInto_injective (duplicateResult_isMergedInto j o' k) hinto
      exact ⟨hkj, o'', horigin, hmerge⟩

/-- An evaluation of the result of its request decides every candidate once; evidence moves only to
an earlier candidate that the later one may be merged into. -/
theorem evaluate_merging (policy : PromotionPolicy) (request : DreamReasoningRequest)
    (result : DreamReasoningResult) :
    match DreamEvidenceGate.evaluate py policy request result with
    | .error _          => result.requestId ≠ request.requestId
    | .ok (final, gate) => gate.requestId = request.requestId ∧
      Merging py policy (evidenceById request) result.candidates final.candidates
        gate.candidates := by
  unfold DreamEvidenceGate.evaluate
  by_cases hid : result.requestId = request.requestId
  · obtain ⟨hinv, hlength⟩ := loop_inv py (evidenceById request) policy
      result.candidates
    rw [(require_eq_ok (u := ())).mpr hid]
    exact ⟨rfl, hinv.merging hlength⟩
  · simp only [require, if_neg hid]
    exact hid

end CyberBrain.Dreaming
