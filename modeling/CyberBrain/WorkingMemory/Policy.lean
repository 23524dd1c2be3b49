import CyberBrain.Foundation.Lists
import CyberBrain.WorkingMemory.Models
import Mathlib.Data.List.Sort

/-!
# Working memory selection

Relevance, salience, deduplication and budget, in this order: each stage passes some candidates on
and drops the others for a reason of its own.
-/

namespace CyberBrain.WorkingMemory

open Python Schemas Salience CyberBrain.Core

/-- `WorkingMemoryPolicy`. -/
structure WorkingMemoryPolicy where
  maxItems : ℕ
  maxTokens : ℕ
  maxItemTokens : ℕ
  maxCandidates : ℕ
  minimumTaskRelevance : Confidence
  ttlSeconds : ℕ
  positive : 0 < maxItems ∧ 0 < maxTokens ∧ 0 < maxItemTokens ∧ 0 < maxCandidates ∧ 0 < ttlSeconds
  item_fits : maxItemTokens ≤ maxTokens
  items_fit : maxItems ≤ maxCandidates

/-- The policy as it is passed in. -/
structure PolicyValues where
  maxItems : ℤ := 12
  maxTokens : ℤ := 1200
  maxItemTokens : ℤ := 240
  maxCandidates : ℤ := 64
  minimumTaskRelevance : Double := .literal 0.20
  ttlSeconds : ℤ := 3600

/-- `WorkingMemoryPolicy.__post_init__`. -/
def PolicyValues.postInit (v : PolicyValues) : Except Exc WorkingMemoryPolicy := do
  let positive (n : ℤ) (name : String) : Except Exc { n : ℕ // 0 < n } :=
    if h : 0 < n.toNat then .ok ⟨n.toNat, h⟩
    else .error (.valueError ("working memory " ++ name ++ " must be positive"))
  let items ← positive v.maxItems "max_items"
  let tokens ← positive v.maxTokens "max_tokens"
  let itemTokens ← positive v.maxItemTokens "max_item_tokens"
  let candidates ← positive v.maxCandidates "max_candidates"
  let ttl ← positive v.ttlSeconds "ttl_seconds"
  if hitem : itemTokens.val ≤ tokens.val then
    if hitems : items.val ≤ candidates.val then
      match v.minimumTaskRelevance with
      | .finite x =>
        if hx : 0 ≤ x.value ∧ x.value ≤ 1 then
          pure
            { maxItems := items.val
              maxTokens := tokens.val
              maxItemTokens := itemTokens.val
              maxCandidates := candidates.val
              minimumTaskRelevance := ⟨x, hx⟩
              ttlSeconds := ttl.val
              positive := ⟨items.property, tokens.property, itemTokens.property,
                candidates.property, ttl.property⟩
              item_fits := hitem
              items_fit := hitems }
        else .error (.valueError "working memory minimum_task_relevance must be within [0, 1]")
      | .inf _    =>
        .error (.valueError "working memory minimum_task_relevance must be within [0, 1]")
      | .nan      =>
        .error (.valueError "working memory minimum_task_relevance must be within [0, 1]")
    else .error (.valueError "working memory max_items must not exceed max_candidates")
  else .error (.valueError "working memory max_item_tokens must not exceed max_tokens")

/-- The default limits and the least relevance pass their own checks. -/
lemma exists_postInit_default : ∃ policy, PolicyValues.postInit {} = .ok policy := by
  have hok : (PolicyValues.postInit {}).isOk = true := by decide +kernel
  cases h : PolicyValues.postInit {} with
  | ok policy => exact ⟨policy, rfl⟩
  | error e =>
    rw [h] at hok
    cases hok

/-- `_RankedCandidate`. -/
structure RankedCandidate where
  candidate : WorkingMemoryCandidate
  inputIndex : ℕ
  salienceScore : Confidence
  salienceReasons : List SalienceReasonCode

namespace RankedCandidate

def id (row : RankedCandidate) : String := row.candidate.candidateId.val

/-- The key by which candidates are ranked. -/
def rank (row : RankedCandidate) : ℚ ×ₗ ℚ ×ₗ ℕ :=
  toLex (-row.candidate.taskRelevance.score.val.value,
    toLex (-row.salienceScore.val.value, row.inputIndex))

end RankedCandidate

/-- `WorkingMemorySelector`. -/
structure WorkingMemorySelector where
  py : Runtime
  policy : WorkingMemoryPolicy
  governor : DeterministicTokenCounter
  salienceAdvisor : SalienceAdvisor

namespace WorkingMemorySelector

variable (selector : WorkingMemorySelector)

/-- A candidate of which the task relevance is high enough. -/
def relevant (row : WorkingMemoryCandidate) : Bool :=
  selector.policy.minimumTaskRelevance.val.value ≤ row.taskRelevance.score.val.value

def salienceCandidate (identity : WorkingMemoryIdentity) (row : WorkingMemoryCandidate) :
    SalienceCandidate where
  candidateId := row.candidateId.val
  scopeMarker := identity.scopeMarker.val
  signals := row.salience
  candidateId_ne_empty := row.candidateId.property.1.symm ▸ row.candidateId.property.2
  scopeMarker_ne_empty := identity.scopeMarker.property.1.symm ▸ identity.scopeMarker.property.2

/-- The candidates with their positions and assessments. -/
def assessed (advisory : SalienceAdvisory) (rows : List WorkingMemoryCandidate) :
    Except Exc (List RankedCandidate) :=
  rows.zipIdx.mapM fun row => do
    let found ← orRaise (advisory.assessments.find? (·.candidateId = row.1.candidateId.val))
      (.keyError row.1.candidateId.val)
    pure ⟨row.1, row.2, found.assessment.score, found.assessment.reasonCodes⟩

/-- The ranked candidates without later ones of the same key, and the ids of the later ones. -/
def dedupe (seen : List String) : List RankedCandidate → List RankedCandidate × List String
  | []          => ([], [])
  | row :: rows =>
    let key := row.candidate.dedupeKey selector.py
    if key ∈ seen then
      let (unique, duplicates) := dedupe seen rows
      (unique, row.id :: duplicates)
    else
      let (unique, duplicates) := dedupe (key :: seen) rows
      (row :: unique, duplicates)

/-- The item of a clipped text. -/
def item (row : RankedCandidate) (text : String) : Except Exc WorkingMemoryItem :=
  let c := row.candidate
  let tokens := selector.governor.estimateTokens text
  let fingerprint := shortDigest selector.py
    (c.kind.text ++ "|" ++ (c.referenceId.elim "" (·.val)) ++ "|" ++ text)
  if htokens : 0 < tokens then
    if hfingerprint : strip fingerprint ≠ "" then
      .ok
        { candidateId := row.id
          kind := c.kind
          text
          estimatedTokens := tokens
          taskRelevance := c.taskRelevance.score
          taskRelevanceReasons := c.taskRelevance.reasonCodes
          salienceScore := row.salienceScore
          salienceReasons := row.salienceReasons
          referenceId := c.referenceId
          sourceRecordId := c.sourceRecordId
          contentFingerprint := fingerprint
          tokens_pos := htokens
          fingerprint_ne_empty := hfingerprint }
    else .error (.valueError "working memory item content_fingerprint must not be empty")
  else .error (.valueError "working memory item estimated_tokens must be positive")

/-- The items that the budgets leave room for, after `selected` ones, and the ids of the others. -/
def fill (selected : ℕ) (remaining : ℤ) :
    List RankedCandidate → Except Exc (List WorkingMemoryItem × List String)
  | []          => .ok ([], [])
  | row :: rows =>
    if selector.policy.maxItems ≤ selected ∨ remaining ≤ 0 then do
      let (items, omitted) ← fill selected remaining rows
      pure (items, row.id :: omitted)
    else
      let budget := min (selector.policy.maxItemTokens : ℤ) remaining
      let text := selector.governor.clipToTokens row.candidate.text.val budget
      let tokens := selector.governor.estimateTokens text
      if text = "" ∨ tokens ≤ 0 then do
        let (items, omitted) ← fill selected remaining rows
        pure (items, row.id :: omitted)
      else do
        let item ← selector.item row text
        let (items, omitted) ← fill (selected + 1) (remaining - tokens) rows
        pure (item :: items, omitted)

/-- `WorkingMemorySelector.select`. -/
def select (identity : WorkingMemoryIdentity) (candidates : List WorkingMemoryCandidate) :
    Except Exc (List WorkingMemoryItem × WorkingMemorySelectionReport) := do
  require (candidates.length ≤ selector.policy.maxCandidates)
    (.valueError "working memory candidate count exceeds max_candidates")
  require (candidates.map (·.candidateId)).Nodup
    (.valueError "working memory candidate IDs must be unique")
  require (∀ row ∈ candidates, row.identity = identity)
    (.valueError "working memory candidate identity must match exact working set identity")
  let relevant := candidates.filter selector.relevant
  let advisory ← selector.salienceAdvisor.assess (relevant.map (salienceCandidate identity))
  let rows ← assessed advisory relevant
  let ranked := rows.insertionSort fun a b => a.rank ≤ b.rank
  let (unique, duplicates) := selector.dedupe [] ranked
  let (selected, budgetOmitted) ← selector.fill 0 selector.policy.maxTokens unique
  let irrelevant := (candidates.filter (!selector.relevant ·)).map (·.candidateId.val)
  pure (selected,
    { inputCount := candidates.length
      relevantCount := relevant.length
      duplicateSuppressedCount := duplicates.length
      budgetOmittedCount := budgetOmitted.length
      selectedCount := selected.length
      selectedTokens := (selected.map (·.estimatedTokens)).sum
      omittedCandidateIds := irrelevant ++ duplicates ++ budgetOmitted })

end WorkingMemorySelector

end CyberBrain.WorkingMemory
