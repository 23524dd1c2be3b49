import CyberBrain.Cognition.ConceptEvidence
import CyberBrain.Cognition.Prediction
import CyberBrain.Core.TokenBudget
import CyberBrain.Foundation.Run
import CyberBrain.Knowledge.Timeline
import Mathlib.Data.Finset.Insert

/-!
# The token governor

The rows that an agent adapter recalls become candidates for the context of the agent. The governor
selects candidates within a token budget and enters what it selects into a ledger, which keeps a
record from being injected twice.
-/

namespace CyberBrain.AgentAdapter

open Python CyberBrain.Core Cognition

/-! ### Contracts -/

inductive RecallKind
  | knowledge
  | episode
  deriving DecidableEq, Repr

/-- `RecallCandidate`. -/
structure RecallCandidate where
  recordId : String
  kind : RecallKind
  text : String
  score : Option Binary64 := none
  textSource : Option String := none
  contentChars : Option ℤ := none
  metadata : Row := []

/-- How the numbers of a row are read. -/
structure NumberReading where
  floats : FloatOperations
  readInt : String → Option ℤ

section Candidates

variable (py : Runtime) (reading : NumberReading)

/-- The first of some texts of a row that is not empty. -/
def firstText (row : Row) : List String → String
  | []          => ""
  | key :: keys => if rowText py row key = "" then firstText row keys else rowText py row key

/-- The keys of a row that are not metadata. -/
def candidateKeys : List String :=
  ["id", "score", "recall_text", "summary", "content", "expected_outcome", "recall_text_source",
    "content_chars"]

/-- A value that is read unless it is missing or `None`. -/
def readOptional {α : Type} (read : Json → Except Exc α) : Option Json → Except Exc (Option α)
  | none | some .null => .ok none
  | some v            => some <$> read v

/-- `RecallCandidate.from_mapping`. -/
def RecallCandidate.fromMapping (kind : RecallKind) (row : Row) : Except Exc RecallCandidate := do
  let recordId := strip (rowText py row "id")
  require (recordId ≠ "") (.valueError "recall row is missing id")
  let text := strip (firstText py row ["recall_text", "summary", "content", "expected_outcome"])
  let score ← readOptional (toFloat reading.floats) (row.lookup "score")
  let contentChars ← readOptional (Knowledge.toInt reading.readInt) (row.lookup "content_chars")
  let textSource := rowText py row "recall_text_source"
  pure {
    recordId, kind, text, score, contentChars
    textSource := if textSource = "" then none else some textSource
    metadata := row.filter fun kv => kv.1 ∉ candidateKeys }

end Candidates

/-- `ContextItem`. -/
structure ContextItem where
  recordId : String
  kind : RecallKind
  text : String
  estimatedTokens : ℕ
  reason : String
  deriving DecidableEq

/-- `ContextPack`. -/
structure ContextPack where
  items : List ContextItem := []
  estimatedTokens : ℕ := 0
  omittedIds : List String := []
  deriving DecidableEq

/-- `ContextLedger`. -/
structure ContextLedger where
  sessionId : String
  taskId : Option String := none
  injectedIds : Finset String := ∅
  recallSignatures : Finset String := ∅
  consumedTokens : ℕ := 0
  fullFetchCount : ℕ := 0
  deriving DecidableEq

/-- `mark_injected`. -/
def ContextLedger.markInjected (ledger : ContextLedger) (item : ContextItem) : ContextLedger :=
  { ledger with
    injectedIds := insert item.recordId ledger.injectedIds
    consumedTokens := ledger.consumedTokens + item.estimatedTokens }

/-! ### Selection -/

/-- `TokenBudgetPolicy`, of which a recall uses these fields. -/
structure TokenBudgetPolicy where
  targetedRecallTokens : ℕ := 500
  charsPerToken : ℕ := 4
  targeted_pos : 0 < targetedRecallTokens
  chars_pos : 0 < charsPerToken

def TokenBudgetPolicy.counter (policy : TokenBudgetPolicy) : DeterministicTokenCounter where
  charsPerToken := policy.charsPerToken
  positive := policy.chars_pos

/-- What `select` has selected so far. -/
structure Selection where
  remaining : ℤ
  items : List ContextItem := []
  omitted : List String := []
  ledger : ContextLedger

def Selection.leaveOut (s : Selection) (c : RecallCandidate) : Selection :=
  { s with omitted := s.omitted ++ [c.recordId] }

def Selection.add (s : Selection) (item : ContextItem) : Selection :=
  { s with
    remaining := s.remaining - item.estimatedTokens
    items := s.items ++ [item]
    ledger := s.ledger.markInjected item }

section Select

variable (counter : DeterministicTokenCounter) (maxItems : ℕ) (reason : String)

/-- The item of a candidate in a budget. -/
def clippedItem (c : RecallCandidate) (remaining : ℤ) : ContextItem where
  recordId := c.recordId
  kind := c.kind
  text := counter.clipToTokens c.text remaining
  estimatedTokens := counter.estimateTokens (counter.clipToTokens c.text remaining)
  reason := reason

/-- The loop of `select`, for one candidate. -/
def selectStep (s : Selection) (c : RecallCandidate) : Selection :=
  if c.recordId ∈ s.ledger.injectedIds then s.leaveOut c
  else if maxItems ≤ s.items.length then s.leaveOut c
  else if s.remaining ≤ 0 then s.leaveOut c
  else
    let item := clippedItem counter reason c s.remaining
    if item.text = "" ∨ item.estimatedTokens = 0 then s.leaveOut c else s.add item

/-- `TokenGovernor.select`, with the ledger that it leaves. -/
def select (candidates : List RecallCandidate) (budgetTokens : ℤ) (ledger : ContextLedger) :
    ContextPack × ContextLedger :=
  let s := candidates.foldl (selectStep counter maxItems reason) { remaining := budgetTokens, ledger }
  ({ items := s.items, estimatedTokens := (s.items.map (·.estimatedTokens)).sum
     omittedIds := s.omitted }, s.ledger)

/-! ### Budgets -/

variable {counter maxItems reason} {budget : ℤ} {before : ContextLedger} {s : Selection}

/-- A selection spends its budget on records that were not injected before, each of them once, and
enters them into the ledger. -/
structure Selection.Within (budget : ℤ) (before : ContextLedger) (s : Selection) : Prop where
  remaining_nonneg : 0 ≤ s.remaining
  spent : ((s.items.map (·.estimatedTokens)).sum : ℕ) + s.remaining = budget
  fresh : ∀ item ∈ s.items, item.recordId ∉ before.injectedIds
  nodup : (s.items.map (·.recordId)).Nodup
  injected : ∀ id, id ∈ s.ledger.injectedIds ↔
    id ∈ before.injectedIds ∨ id ∈ s.items.map (·.recordId)
  signatures : s.ledger.recallSignatures = before.recallSignatures

lemma Selection.Within.leaveOut (h : s.Within budget before) (c : RecallCandidate) :
    (s.leaveOut c).Within budget before :=
  ⟨h.remaining_nonneg, h.spent, h.fresh, h.nodup, h.injected, h.signatures⟩

/-- A new record that the rest of the budget pays for keeps a selection within its budget. -/
lemma Selection.Within.add (h : s.Within budget before) {item : ContextItem}
    (hnew : item.recordId ∉ s.ledger.injectedIds)
    (hpaid : (item.estimatedTokens : ℤ) ≤ s.remaining) :
    (s.add item).Within budget before := by
  have hnot := (not_congr (h.injected item.recordId)).mp hnew
  rw [not_or] at hnot
  have hspent := h.spent
  constructor
  · simp only [Selection.add]
    omega
  · simp only [Selection.add, List.map_append, List.map_cons, List.map_nil, List.sum_append,
      List.sum_singleton]
    omega
  · intro other hother
    rcases List.mem_append.mp hother with hother | hother
    · exact h.fresh other hother
    · rw [List.mem_singleton.mp hother]
      exact hnot.1
  · simp only [Selection.add, List.map_append, List.map_cons, List.map_nil]
    apply List.nodup_append.mpr ⟨h.nodup, List.nodup_singleton _, ?_⟩
    intro id hid other hother
    rw [List.mem_singleton.mp hother]
    rintro rfl
    exact hnot.2 hid
  · intro id
    simp only [Selection.add, ContextLedger.markInjected, Finset.mem_insert, h.injected,
      List.map_append, List.map_cons, List.map_nil, List.mem_append, List.mem_singleton]
    tauto
  · exact h.signatures

lemma Selection.Within.step (h : s.Within budget before) (c : RecallCandidate) :
    (selectStep counter maxItems reason s c).Within budget before := by
  simp only [selectStep]
  split_ifs with hinjected hfull hspent hempty
  · exact h.leaveOut c
  · exact h.leaveOut c
  · exact h.leaveOut c
  · exact h.leaveOut c
  · exact h.add hinjected (DeterministicTokenCounter.estimateTokens_clipToTokens (not_le.mp hspent))

/-- What is selected is within the budget and was not injected before. -/
theorem select_within (candidates : List RecallCandidate) (hbudget : 0 ≤ budget) :
    let selected := select counter maxItems reason candidates budget before
    (selected.1.estimatedTokens : ℤ) ≤ budget ∧
      selected.1.estimatedTokens = (selected.1.items.map (·.estimatedTokens)).sum ∧
      (∀ item ∈ selected.1.items, item.recordId ∉ before.injectedIds) ∧
      (selected.1.items.map (·.recordId)).Nodup ∧
      (∀ id, id ∈ selected.2.injectedIds ↔
        id ∈ before.injectedIds ∨ id ∈ selected.1.items.map (·.recordId)) ∧
      selected.2.recallSignatures = before.recallSignatures := by
  have hstart : ({ remaining := budget, ledger := before } : Selection).Within budget before :=
    ⟨hbudget, by simp, by simp, by simp, by simp, rfl⟩
  have hall : (candidates.foldl (selectStep counter maxItems reason)
      { remaining := budget, ledger := before }).Within budget before :=
    foldl_invariant (fun _ c h => h.step c) hstart candidates
  have hspent := hall.spent
  have hnonneg := hall.remaining_nonneg
  refine ⟨?_, rfl, hall.fresh, hall.nodup, hall.injected, hall.signatures⟩
  simp only [select]
  omega

end Select

end CyberBrain.AgentAdapter
