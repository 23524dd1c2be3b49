import CyberBrain.Core.TokenBudget
import CyberBrain.Salience.Advisor

/-!
# Working memory contracts

The candidates of a session's task and the items that are selected from them.
-/

namespace CyberBrain.WorkingMemory

open Python Schemas Salience

inductive WorkingMemoryItemKind
  | goal
  | subgoal
  | assumption
  | hypothesis
  | evidence
  | conceptReference
  | blocker
  | openQuestion
  | recentDecision
  | selectedMemoryReference
  deriving DecidableEq, Repr

def WorkingMemoryItemKind.text : WorkingMemoryItemKind → String
  | goal                    => "goal"
  | subgoal                 => "subgoal"
  | assumption              => "assumption"
  | hypothesis              => "hypothesis"
  | evidence                => "evidence"
  | conceptReference        => "concept_reference"
  | blocker                 => "blocker"
  | openQuestion            => "open_question"
  | recentDecision          => "recent_decision"
  | selectedMemoryReference => "selected_memory_reference"

/-- A text that `strip` leaves as it is, and that is not empty. -/
abbrev Stripped := { s : String // strip s = s ∧ s ≠ "" }

/-- A stripped text, or raise. -/
def stripped (s : String) (message : String) : Except Exc Stripped :=
  if h : strip s ≠ "" then .ok ⟨strip s, strip_strip s, h⟩ else .error (.valueError message)

/-- A stripped text, if there is something left of it. -/
def strippedIf (s : Option String) : Option Stripped :=
  s.bind fun s => if h : strip s ≠ "" then some ⟨strip s, strip_strip s, h⟩ else none

/-- `WorkingMemoryIdentity`. -/
structure WorkingMemoryIdentity where
  scopeMarker : Stripped
  sessionId : Stripped
  taskId : Stripped
  deriving DecidableEq

/-- `WorkingMemoryIdentity.__post_init__`. -/
def WorkingMemoryIdentity.make (scopeMarker sessionId taskId : String) :
    Except Exc WorkingMemoryIdentity := do
  let scopeMarker ← stripped scopeMarker "working memory scope_marker must not be empty"
  let sessionId ← stripped sessionId "working memory session_id must not be empty"
  let taskId ← stripped taskId "working memory task_id must not be empty"
  pure ⟨scopeMarker, sessionId, taskId⟩

/-- `TaskRelevance`. -/
structure TaskRelevance where
  score : Confidence
  reasonCodes : List String
  nodup_reasonCodes : reasonCodes.Nodup

/-- `TaskRelevance.__post_init__`. -/
def TaskRelevance.make (score : Double) (reasonCodes : List String) : Except Exc TaskRelevance :=
  let cleaned := (reasonCodes.map strip).filter (· ≠ "")
  match score with
  | .finite x =>
    if hscore : 0 ≤ x.value ∧ x.value ≤ 1 then
      if hnodup : cleaned.Nodup then .ok ⟨⟨x, hscore⟩, cleaned, hnodup⟩
      else .error (.valueError "task relevance reason codes must be unique")
    else .error (.valueError "task relevance score must be within [0, 1]")
  | .inf _    => .error (.valueError "task relevance score must be within [0, 1]")
  | .nan      => .error (.valueError "task relevance score must be within [0, 1]")

/-- The kinds that refer to something. -/
def WorkingMemoryItemKind.requiresReference (kind : WorkingMemoryItemKind) : Prop :=
  kind = .conceptReference ∨ kind = .selectedMemoryReference

instance (kind : WorkingMemoryItemKind) : Decidable kind.requiresReference :=
  inferInstanceAs (Decidable (_ ∨ _))

/-- `WorkingMemoryCandidate`. -/
structure WorkingMemoryCandidate where
  candidateId : Stripped
  identity : WorkingMemoryIdentity
  kind : WorkingMemoryItemKind
  text : Stripped
  taskRelevance : TaskRelevance
  salience : SalienceInput := {}
  referenceId : Option Stripped := none
  sourceRecordId : Option Stripped := none
  referenced : kind.requiresReference → referenceId ≠ none

/-- `WorkingMemoryCandidate.__post_init__`. -/
def WorkingMemoryCandidate.make (candidateId : String) (identity : WorkingMemoryIdentity)
    (kind : WorkingMemoryItemKind) (text : String) (taskRelevance : TaskRelevance)
    (salience : SalienceInput) (referenceId sourceRecordId : Option String) :
    Except Exc WorkingMemoryCandidate := do
  let candidateId ← stripped candidateId "working memory candidate_id must not be empty"
  let text ← stripped text "working memory candidate text must not be empty"
  if h : kind.requiresReference → strippedIf referenceId ≠ none then
    pure
      { candidateId, identity, kind, text, taskRelevance, salience
        referenceId := strippedIf referenceId
        sourceRecordId := strippedIf sourceRecordId
        referenced := h }
  else .error (.valueError (kind.text ++ " requires reference_id"))

/-- `_SPACE_RE.sub(" ", text)` on the characters of a text; `inside` tells whether the last one was
white space. -/
def collapseSpaces (inside : Bool) : List Char → List Char
  | []      => []
  | c :: cs =>
    if isSpace c then if inside then collapseSpaces true cs else ' ' :: collapseSpaces true cs
    else c :: collapseSpaces false cs

variable (py : Runtime)

/-- The first digits of a digest. -/
def shortDigest (s : String) : String := Core.textUpTo (py.sha256 s) 24

/-- `WorkingMemoryCandidate.dedupe_key`. -/
def WorkingMemoryCandidate.dedupeKey (c : WorkingMemoryCandidate) : String :=
  match c.referenceId, c.sourceRecordId with
  | some reference, _   => "ref:" ++ c.kind.text ++ ":" ++ reference.val
  | none, some source   => "source:" ++ source.val
  | none, none          =>
    let normalized := String.ofList (collapseSpaces false c.text.val.toList)
    "text:" ++ shortDigest py (py.casefold (strip normalized))

/-- `WorkingMemoryItem`. -/
structure WorkingMemoryItem where
  candidateId : String
  kind : WorkingMemoryItemKind
  text : String
  estimatedTokens : ℕ
  taskRelevance : Confidence
  taskRelevanceReasons : List String
  salienceScore : Confidence
  salienceReasons : List SalienceReasonCode
  referenceId : Option Stripped
  sourceRecordId : Option Stripped
  contentFingerprint : String
  tokens_pos : 0 < estimatedTokens
  fingerprint_ne_empty : strip contentFingerprint ≠ ""

structure WorkingMemorySelectionReport where
  inputCount : ℕ
  relevantCount : ℕ
  duplicateSuppressedCount : ℕ
  budgetOmittedCount : ℕ
  selectedCount : ℕ
  selectedTokens : ℕ
  omittedCandidateIds : List String
  deriving DecidableEq, Repr

end CyberBrain.WorkingMemory
