import CyberBrain.Foundation.Except
import CyberBrain.ReasonerProvider.Contracts
import Mathlib.Data.Prod.Lex

/-!
# Multipass orchestration

`MultipassDreamReasoner` cuts the evidence of a Dream run into small reasoning tasks, and puts the
results of the tasks together into candidates.
-/

namespace CyberBrain.Dreaming

open Python ReasonerProvider

variable {py : Runtime}

/-! ### Reasoning -/

structure EvidenceItem where
  id : String
  recordType : String
  content : String
  score : Option Binary64
  eventTime : Option DateTime
  metadata : List (String × Json) := []

structure DreamCandidate where
  entityName : String
  entityType : String
  summary : String
  content : String
  evidenceIds : List String
  confidence : Binary64
  classification : String
  negativeKnowledge : Bool := false
  context : List (String × Json) := []

structure DreamReasoningRequest where
  requestId : String
  sessionId : String
  focalTopics : List String
  sessionStart : DateTime
  sessionEnd : DateTime
  evidenceByTopic : List (String × List EvidenceItem)
  instructionsVersion : String := "1"

structure DreamReasoningResult where
  requestId : String
  candidates : List DreamCandidate
  notes : List String := []

structure ReasoningTask where
  taskId : String
  requestId : String
  topic : String
  kind : ReasoningTaskKind
  instruction : String
  evidence : List EvidenceItem

structure ReasoningClaim where
  claim : String
  evidenceIds : List String
  confidence : Binary64

structure ReasoningTaskResult where
  taskId : String
  claims : List ReasoningClaim

/-- The text of a task kind. -/
def kindValue : ReasoningTaskKind → String
  | .currentState        => "current_state"
  | .supersededOrRemoved => "superseded_or_removed"
  | .durableLesson       => "durable_lesson"
  | .caveat              => "caveat"

/-! ### The reasoner -/

structure MultipassPolicy where
  maxEvidencePerTask : ℤ := 4
  currentTaskCount : ℤ := 2
  lessonTaskCount : ℤ := 2
  caveatTaskCount : ℤ := 2

/-- A reasoner, by its policy and the `claim_relevant` of its relevance guard. -/
structure MultipassDreamReasoner where
  policy : MultipassPolicy := {}
  claimRelevant : (topic text : String) → Bool

/-! ### Tasks -/

def replacementMarkers : List String :=
  ["removed", "replaced", "deprecated", "loại bỏ", "thay bằng", "không dùng nữa"]

def caveatMarkers : List String :=
  ["caveat", "lưu ý", "unresolved", "đang tắt", "fail", "failed", "không phải regression"]

def validationMarkers : List String :=
  ["validate", "validation", "validated", "production_mode", "production mode"]

def decisionMarkers : List String :=
  ["decision", "quyết định", "llm", "script", "engine", "architecture", "kiến trúc"]

/-- `_evidence_sort_key`. -/
def evidenceSortKey (item : EvidenceItem) : ℕ ×ₗ String :=
  match item.eventTime with
  | none      => toLex (1, "")
  | some time => toLex (0, time.isoformat)

variable (py) in
/-- `_matching`. -/
def matching (items : List EvidenceItem) (markers : List String) : List EvidenceItem :=
  items.filter fun item => markers.any (contains (py.casefold item.content))

/-- `_dedupe_evidence`, given the ids that it has seen. -/
def dedupeEvidence : List String → List EvidenceItem → List EvidenceItem
  | _, []            => []
  | seen, item :: items =>
    if item.id ∈ seen then dedupeEvidence seen items
    else item :: dedupeEvidence (item.id :: seen) items

/-- `_pairwise`. -/
def pairwise (limit : ℤ) : List EvidenceItem → List (List EvidenceItem)
  | []     => []
  | [item] => [[item]]
  | items  => (List.range (min limit (items.length - 1)).toNat).map fun index =>
    (items.drop index).take 2

/-- A task before it has its number: its kind, its instruction and its evidence. -/
abbrev TaskDraft := ReasoningTaskKind × String × List EvidenceItem

variable (py) in
/-- The tasks of one topic. -/
def topicTasks (policy : MultipassPolicy) (evidence : List EvidenceItem) : List TaskDraft :=
  let ordered := evidence.insertionSort fun a b => evidenceSortKey a ≤ evidenceSortKey b
  let latest := upTo ordered.reverse policy.maxEvidencePerTask
  let replacement := matching py ordered replacementMarkers
  let caveats := matching py ordered caveatMarkers
  let decisions := matching py ordered decisionMarkers
  let validation := matching py ordered validationMarkers
  let lessonSources := dedupeEvidence [] (decisions ++ validation ++ latest)
  let lessonPairs :=
    if 2 ≤ lessonSources.length then pairwise policy.lessonTaskCount lessonSources else []
  ((List.range (min policy.currentTaskCount latest.length).toNat).map fun taskIndex =>
    (.currentState, "Extract one current supported fact. No advice or future plan.",
      (latest.drop taskIndex).take 2)) ++
  (if replacement = [] then [] else [(.supersededOrRemoved,
    "State one explicit removed, replaced, or superseded fact and its replacement if present.",
    upTo replacement policy.maxEvidencePerTask)]) ++
  (lessonPairs.map fun pair => (.durableLesson, "Infer one established durable lesson " ++
    "supported by the supplied evidence. Do not recommend future work.", pair)) ++
  (upTo caveats policy.caveatTaskCount).map fun item => (.caveat, "Extract only the unresolved " ++
    "caveat explicitly present in this evidence. Do not interpret completed work as unresolved.",
    [item])

/-- `_task`. -/
def makeTask (request : DreamReasoningRequest) (topic : String) (sequence : ℕ)
    (draft : TaskDraft) : ReasoningTask where
  taskId := request.requestId ++ ":" ++ toString sequence ++ ":" ++ kindValue draft.1
  requestId := request.requestId
  topic := topic
  kind := draft.1
  instruction := draft.2.1
  evidence := draft.2.2

variable (py) in
/-- `build_tasks`: the tasks of all focal topics, numbered from 1. -/
def MultipassDreamReasoner.buildTasks (reasoner : MultipassDreamReasoner)
    (request : DreamReasoningRequest) : List ReasoningTask :=
  let drafts := request.focalTopics.flatMap fun topic =>
    let evidence := (request.evidenceByTopic.lookup topic).getD []
    if evidence = [] then [] else (topicTasks py reasoner.policy evidence).map fun d => (topic, d)
  (drafts.zipIdx 1).map fun p => makeTask request p.1.1 p.2 p.1.2

/-! ### Candidates -/

/-- `_DEFAULT_STOPWORDS`. -/
def defaultStopwords : List String :=
  ["about", "above", "after", "again", "all", "also", "and", "any", "are", "been", "before",
    "being", "below", "between", "both", "but", "can", "down", "during", "each", "for", "from",
    "further", "had", "has", "have", "her", "here", "his", "how", "into", "its", "just", "more",
    "most", "need", "not", "once", "only", "other", "our", "out", "over", "same", "some", "such",
    "than", "that", "the", "then", "there", "these", "they", "this", "those", "through", "under",
    "until", "using", "very", "was", "were", "what", "when", "where", "which", "while", "who",
    "why", "will", "with", "would", "you", "your"]

/-- The runs of `[a-z0-9]` in a text. -/
def alphanumericRuns (s : String) : List String :=
  ((s.toList.splitOnP fun c => !(('a' ≤ c && c ≤ 'z') || ('0' ≤ c && c ≤ '9'))).filter
    (· ≠ [])).map String.ofList

variable (py) in
/-- `_entity_name`. The normalized topic is the runs of the topic joined by underscores, so its
parts are the runs again. -/
def entityName (topic : String) (kind : ReasoningTaskKind) (index : ℕ) : String :=
  let runs := alphanumericRuns (py.casefold topic)
  let normalized := String.intercalate "_" runs
  let parts := runs.filter (· ∉ defaultStopwords)
  let base :=
    if parts ≠ [] then String.intercalate "_" parts
    else if normalized ≠ "" then normalized else "topic"
  let base := if base ∈ defaultStopwords ∨ base.length < 2 then "topic" else base
  base ++ "_" ++ kindValue kind ++ "_" ++ toString (index + 1)

/-- The entity type, the classification and the polarity of the candidates of a kind. -/
def candidateMapping : ReasoningTaskKind → String × String × Bool
  | .currentState        => ("fact", "new_knowledge", false)
  | .supersededOrRemoved => ("rejected_approach", "rejected_approach", true)
  | .durableLesson       => ("lesson", "new_knowledge", false)
  | .caveat              => ("caveat", "context_dependent", false)

variable (py) in
/-- `_candidate_from_claim`. -/
def candidateFromClaim (task : ReasoningTask) (claim : ReasoningClaim) (index : ℕ) :
    DreamCandidate where
  entityName := entityName py task.topic task.kind index
  entityType := (candidateMapping task.kind).1
  summary := String.ofList (claim.claim.toList.take 180)
  content := claim.claim
  evidenceIds := claim.evidenceIds
  confidence := claim.confidence
  classification := (candidateMapping task.kind).2.1
  negativeKnowledge := (candidateMapping task.kind).2.2
  context := [("reasoning_section", .str (kindValue task.kind)), ("task_id", .str task.taskId),
    ("topic", .str task.topic)]

/-! ### Assembly -/

variable (py) in
/-- `_validate_claim`. -/
def validateClaim (claim : ReasoningClaim) (allowed : List String) : Except Exc Unit := do
  require (strip claim.claim ≠ "") (.valueError "micro reasoner returned an empty claim")
  require (0 ≤ claim.confidence.value ∧ claim.confidence.value ≤ 1)
    (.valueError "micro reasoner confidence must be within [0,1]")
  require (claim.evidenceIds ≠ []) (.valueError "micro reasoner claim must cite evidence")
  let unknown := (FrozenSet.ofList (claim.evidenceIds.filter (· ∉ allowed))).sorted
  require (unknown = [])
    (.valueError ("micro reasoner fabricated evidence IDs: " ++ reprStrs py unknown))

variable (py) in
/-- `_contains_advice`. -/
def containsAdvice (value : String) : Bool :=
  ["nên ", "đề xuất", "recommend", "should "].any (contains (py.casefold value))

/-- What `assemble` has collected so far. -/
structure Assembly where
  candidates : List DreamCandidate := []
  droppedAdviceClaims : ℕ := 0
  droppedIrrelevantClaims : ℕ := 0

/-- The ids that occur more than once, sorted. -/
def duplicateIds (ids : List String) : List String :=
  (FrozenSet.ofList (ids.filter fun id => 1 < ids.count id)).sorted

namespace MultipassDreamReasoner

variable (py) (reasoner : MultipassDreamReasoner)

/-- The loop of `assemble` over the claims of a task, for one claim. -/
def assembleClaim (task : ReasoningTask) (acc : Assembly) (claim : ReasoningClaim × ℕ) :
    Except Exc Assembly := do
  validateClaim py claim.1 (task.evidence.map (·.id))
  if containsAdvice py claim.1.claim then
    pure { acc with droppedAdviceClaims := acc.droppedAdviceClaims + 1 }
  else if reasoner.claimRelevant task.topic claim.1.claim = false then
    pure { acc with droppedIrrelevantClaims := acc.droppedIrrelevantClaims + 1 }
  else
    pure { acc with candidates := acc.candidates ++ [candidateFromClaim py task claim.1 claim.2] }

/-- The loop of `assemble` over the tasks, for one task. -/
def assembleTask (results : List ReasoningTaskResult) (acc : Assembly) (task : ReasoningTask) :
    Except Exc Assembly := do
  let result ← orRaise (results.find? fun result => result.taskId = task.taskId)
    (.keyError task.taskId)
  require (result.taskId = task.taskId)
    (.valueError "micro reasoner response task_id does not match task")
  result.claims.zipIdx.foldlM (reasoner.assembleClaim py task) acc

/-- `assemble`. -/
def assemble (request : DreamReasoningRequest) (tasks : List ReasoningTask)
    (results : List ReasoningTaskResult) : Except Exc DreamReasoningResult := do
  let taskIds := tasks.map (·.taskId)
  require (duplicateIds taskIds = [])
    (.valueError ("duplicate reasoning task IDs: " ++ reprStrs py (duplicateIds taskIds)))
  let resultIds := results.map (·.taskId)
  require (duplicateIds resultIds = []) (.valueError
    ("duplicate micro reasoner result task IDs: " ++ reprStrs py (duplicateIds resultIds)))
  let missing := (FrozenSet.ofList (taskIds.filter (· ∉ resultIds))).sorted
  let unexpected := (FrozenSet.ofList (resultIds.filter (· ∉ taskIds))).sorted
  require (missing = [] ∧ unexpected = []) (.valueError
    ("micro reasoner result task set mismatch: missing=" ++ reprStrs py missing ++
      ", unexpected=" ++ reprStrs py unexpected))
  let acc ← tasks.foldlM (reasoner.assembleTask py results) {}
  pure {
    requestId := request.requestId
    candidates := acc.candidates
    notes := ["multipass_tasks=" ++ toString tasks.length] ++
      (if acc.droppedAdviceClaims = 0 then [] else
        ["dropped_advice_claims=" ++ toString acc.droppedAdviceClaims]) ++
      (if acc.droppedIrrelevantClaims = 0 then [] else
        ["dropped_irrelevant_claims=" ++ toString acc.droppedIrrelevantClaims]) }

end MultipassDreamReasoner

/-! ### Tasks and results of the inbox -/

/-- `_serialize_evidence`, as the inbox stores it. -/
def serializeEvidence (item : EvidenceItem) : ReasonerEvidence :=
  { item with eventTime := item.eventTime.bind (·.instant?) }

/-- `_serialize_task`, as the inbox stores it. -/
def serializeTask (task : ReasoningTask) : ReasonTaskRequest :=
  { task with evidence := task.evidence.map serializeEvidence }

/-- `_parse_result`. -/
def parseResult (raw : ReasonTaskResult) : ReasoningTaskResult where
  taskId := raw.taskId
  claims := raw.claims.map fun item => ⟨item.claim, item.evidenceIds, item.confidence⟩

end CyberBrain.Dreaming
