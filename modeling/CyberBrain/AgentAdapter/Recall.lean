import CyberBrain.AgentAdapter.Budgeting

/-!
# Recalls of an agent adapter

A recall asks the client for rows and lets the governor select from them. It is entered into the
ledger before the client is asked, so that a recall which fails counts as made.
-/

namespace CyberBrain.AgentAdapter

open Program Python CyberBrain.Core Cognition

/-! ### Intents -/

structure AgentScope where
  sessionId : String
  agent : Option String := none
  project : Option String := none
  topic : Option String := none

/-- The filters that are not `None`. -/
def presentFilters (filters : List (String × Option String)) : Row :=
  filters.filterMap fun kv => kv.2.map fun value => (kv.1, .str value)

def AgentScope.knowledgeFilters (scope : AgentScope) : Row :=
  presentFilters [("project", scope.project), ("topic", scope.topic)]

def AgentScope.episodicFilters (scope : AgentScope) : Row :=
  presentFilters [("agent", scope.agent), ("project", scope.project), ("topic", scope.topic)]

structure TurnRecallIntent where
  query : String
  needKnowledge : Bool := false
  needHistory : Bool := false
  needTimeline : Bool := false
  timelineIdentity : Option (List (String × String)) := none
  refresh : Bool := false

/-- `LifecyclePolicy.recall_operations`. -/
def recallOperations (intent : TurnRecallIntent) : List String :=
  (if intent.needKnowledge then ["knowledge_search"] else []) ++
    (if intent.needHistory then ["memory_search"] else []) ++
    if intent.needTimeline then ["knowledge_timeline"] else []

/-- `repr` of a tuple whose elements print as the given texts. -/
def reprTuple (texts : List String) : String :=
  match texts with
  | [text] => "(" ++ text ++ ",)"
  | texts  => "(" ++ ", ".intercalate texts ++ ")"

variable (py : Runtime)

/-- `_recall_signature`. -/
def recallSignature (intent : TurnRecallIntent) (operations : List String) : String :=
  let repr s := String.ofList (reprStr py s)
  let timeline := (intent.timelineIdentity.getD []).insertionSort fun a b =>
    toLex (a.1, a.2) ≤ toLex (b.1, b.2)
  reprTuple [repr (strip intent.query), reprTuple (operations.map repr),
    reprTuple (timeline.map fun kv => reprTuple [repr kv.1, repr kv.2])]

/-! ### The client -/

/-- A call of a client method, with its keyword arguments. -/
structure ClientCall where
  method : String
  arguments : Row

/-- What the client answers to a call, unless it fails. -/
abbrev CyberBrainClient := ClientCall → Except Exc (List Row)

variable (reading : NumberReading) (client : CyberBrainClient)

/-- A call of the client, on the calls made so far. -/
def ask (call : ClientCall) : Program (List ClientCall) Exc (List Row) := fun calls =>
  (client call, calls ++ [call])

/-- The candidates of the rows that a call brings. -/
def askCandidates (kind : RecallKind) (call : ClientCall) :
    Program (List ClientCall) Exc (List RecallCandidate) :=
  .bind (ask client call) fun rows =>
    .ofExcept (rows.mapM (RecallCandidate.fromMapping py reading kind))

/-- The arguments of a search. -/
def searchArguments (intent : TurnRecallIntent) (scope : AgentScope) (taskId : Option String)
    (limit : ℤ) (filters : Row) : Row :=
  [("query", .str intent.query), ("limit", .int limit), ("view", .str "compact"),
    ("context_session_id", .str scope.sessionId),
    ("task_id", .str (if taskId.getD "" = "" then "targeted_recall" else taskId.getD ""))] ++ filters

/-- The candidates of the knowledge search, where it is wanted. -/
def knowledgeCandidates (intent : TurnRecallIntent) (scope : AgentScope) (taskId : Option String) :
    Program (List ClientCall) Exc (List RecallCandidate) :=
  if "knowledge_search" ∈ recallOperations intent then
    askCandidates py reading client .knowledge
      ⟨"knowledge_search", searchArguments intent scope taskId 3 scope.knowledgeFilters⟩
  else .pure []

/-- The candidates of the memory search, where it is wanted. -/
def episodeCandidates (intent : TurnRecallIntent) (scope : AgentScope) (taskId : Option String) :
    Program (List ClientCall) Exc (List RecallCandidate) :=
  if "memory_search" ∈ recallOperations intent then
    askCandidates py reading client .episode
      ⟨"memory_search", searchArguments intent scope taskId 2 scope.episodicFilters⟩
  else .pure []

/-- The candidates of the timeline, where it is wanted. -/
def timelineCandidates (intent : TurnRecallIntent) :
    Program (List ClientCall) Exc (List RecallCandidate) :=
  if "knowledge_timeline" ∈ recallOperations intent then
    match intent.timelineIdentity.getD [] with
    | []       => raise (.valueError "timeline_identity is required when need_timeline is true")
    | identity =>
      askCandidates py reading client .knowledge
        ⟨"knowledge_timeline", identity.map fun kv => (kv.1, .str kv.2)⟩
  else .pure []

/-- The candidates of a recall, from one call after the other. -/
def gatherCandidates (intent : TurnRecallIntent) (scope : AgentScope) (taskId : Option String) :
    Program (List ClientCall) Exc (List RecallCandidate) :=
  .bind (knowledgeCandidates py reading client intent scope taskId) fun knowledge =>
    .bind (episodeCandidates py reading client intent scope taskId) fun episodes =>
      .bind (timelineCandidates py reading client intent) fun versions =>
        .pure (knowledge ++ episodes ++ versions)

/-! ### The recall -/

/-- The ledger, and the calls that the client has had. -/
structure AdapterState where
  ledger : ContextLedger
  calls : List ClientCall := []

/-- `UniversalAgentAdapter.recall`. -/
def adapterRecall (policy : TokenBudgetPolicy) (intent : TurnRecallIntent) (scope : AgentScope) :
    Program AdapterState Exc ContextPack := fun s =>
  let operations := recallOperations intent
  let signature := recallSignature py intent operations
  if operations = [] then (.ok {}, s)
  else if signature ∈ s.ledger.recallSignatures ∧ intent.refresh = false then (.ok {}, s)
  else
    let ledger := { s.ledger with recallSignatures := insert signature s.ledger.recallSignatures }
    match gatherCandidates py reading client intent scope ledger.taskId s.calls with
    | (.error e, calls)       => (.error e, { ledger, calls })
    | (.ok candidates, calls) =>
      let selected := select policy.counter 5 "targeted_recall" candidates
        policy.targetedRecallTokens ledger
      (.ok selected.1, { ledger := selected.2, calls })

/-! ### The calls of a recall -/

/-- A program that makes the same calls and ends in the same way whatever was called before. -/
def Steady {α : Type} (x : Program (List ClientCall) Exc α) : Prop :=
  ∃ result issued, ∀ calls, x calls = (result, calls ++ issued)

section Steady

variable {α β : Type}

lemma Steady.pure (a : α) : Steady (Program.pure a) :=
  ⟨.ok a, [], fun calls => by simp [Program.pure]⟩

lemma Steady.raise (e : Exc) : Steady (Program.raise e : Program _ _ α) :=
  ⟨.error e, [], fun calls => by simp [Program.raise]⟩

lemma Steady.ofExcept (x : Except Exc α) : Steady (Program.ofExcept x) := by
  cases x with
  | error e => exact .raise e
  | ok a    => exact .pure a

lemma Steady.bind {x : Program (List ClientCall) Exc α} {f : α → Program (List ClientCall) Exc β}
    (hx : Steady x) (hf : ∀ a, Steady (f a)) : Steady (Program.bind x f) := by
  obtain ⟨result, issued, hx⟩ := hx
  cases result with
  | error e => exact ⟨.error e, issued, fun calls => by simp [Program.bind, hx]⟩
  | ok a    =>
    obtain ⟨result, more, hf⟩ := hf a
    exact ⟨result, issued ++ more, fun calls => by simp [Program.bind, hx, hf]⟩

end Steady

variable {py reading client} {intent : TurnRecallIntent} {scope : AgentScope}

lemma steady_askCandidates (kind : RecallKind) (call : ClientCall) :
    Steady (askCandidates py reading client kind call) :=
  .bind ⟨client call, [call], fun _ => rfl⟩ fun _ => .ofExcept _

lemma steady_gatherCandidates (taskId : Option String) :
    Steady (gatherCandidates py reading client intent scope taskId) := by
  unfold gatherCandidates
  apply Steady.bind
  · unfold knowledgeCandidates
    split_ifs
    · exact steady_askCandidates _ _
    · exact .pure []
  intro knowledge
  apply Steady.bind
  · unfold episodeCandidates
    split_ifs
    · exact steady_askCandidates _ _
    · exact .pure []
  intro episodes
  apply Steady.bind
  · unfold timelineCandidates
    split_ifs
    · split
      · exact .raise _
      · exact steady_askCandidates _ _
    · exact .pure []
  intro versions
  exact .pure _

/-! ### Failures -/

variable {policy : TokenBudgetPolicy} {s : AdapterState}

/-- The recall asks the client: something is wanted, and the recall is new or a refresh. -/
def Asks (py : Runtime) (intent : TurnRecallIntent) (s : AdapterState) : Prop :=
  recallOperations intent ≠ [] ∧
    (recallSignature py intent (recallOperations intent) ∈ s.ledger.recallSignatures →
      intent.refresh = true)

/-- The ledger of a recall that asks the client. -/
def enteredLedger (py : Runtime) (intent : TurnRecallIntent) (ledger : ContextLedger) :
    ContextLedger :=
  { ledger with
    recallSignatures :=
      insert (recallSignature py intent (recallOperations intent)) ledger.recallSignatures }

lemma enteredLedger_eq_iff {ledger : ContextLedger} : enteredLedger py intent ledger = ledger ↔
    recallSignature py intent (recallOperations intent) ∈ ledger.recallSignatures := by
  rw [← Finset.insert_eq_self]
  constructor
  · exact congrArg ContextLedger.recallSignatures
  · intro h
    rw [enteredLedger, h]

lemma recall_of_not_asks (h : ¬ Asks py intent s) :
    adapterRecall py reading client policy intent scope s = (.ok {}, s) := by
  simp only [adapterRecall]
  split_ifs with hnone hmade
  · rfl
  · rfl
  · refine absurd ⟨hnone, fun hmem => ?_⟩ h
    by_contra hrefresh
    exact hmade ⟨hmem, by simpa using hrefresh⟩

lemma recall_of_asks (h : Asks py intent s) :
    adapterRecall py reading client policy intent scope s =
      match gatherCandidates py reading client intent scope s.ledger.taskId s.calls with
      | (.error e, calls)       => (.error e, ⟨enteredLedger py intent s.ledger, calls⟩)
      | (.ok candidates, calls) =>
        let selected := select policy.counter 5 "targeted_recall" candidates
          policy.targetedRecallTokens (enteredLedger py intent s.ledger)
        (.ok selected.1, ⟨selected.2, calls⟩) := by
  have hnew : ¬ (recallSignature py intent (recallOperations intent) ∈ s.ledger.recallSignatures ∧
      intent.refresh = false) := by
    rintro ⟨hmem, hrefresh⟩
    simp [h.2 hmem] at hrefresh
  simp only [adapterRecall]
  rw [if_neg h.1, if_neg hnew]
  rfl

/-- A recall that raises has asked, and its calls raised. -/
lemma gather_of_error {e : Exc} {s' : AdapterState}
    (h : adapterRecall py reading client policy intent scope s = (.error e, s')) :
    Asks py intent s ∧ ∃ issued, s' = ⟨enteredLedger py intent s.ledger, s.calls ++ issued⟩ ∧
      ∀ calls, gatherCandidates py reading client intent scope s.ledger.taskId calls =
        (.error e, calls ++ issued) := by
  have hasks : Asks py intent s := by
    by_contra hnot
    rw [recall_of_not_asks hnot] at h
    cases h
  obtain ⟨result, issued, hgather⟩ :
      Steady (gatherCandidates py reading client intent scope s.ledger.taskId) :=
    steady_gatherCandidates _
  rw [recall_of_asks hasks, hgather] at h
  cases result with
  | error e' =>
    cases h
    exact ⟨hasks, issued, rfl, hgather⟩
  | ok candidates => cases h

/-- A recall that raises leaves the ledger as it was exactly if its signature was in there before.
Made again, it makes the same calls exactly if it is a refresh or made none. -/
lemma recall_error {e : Exc} {s' : AdapterState}
    (h : adapterRecall py reading client policy intent scope s = (.error e, s')) :
    (s'.ledger = s.ledger ↔
      recallSignature py intent (recallOperations intent) ∈ s.ledger.recallSignatures) ∧
    ∃ issued, s'.calls = s.calls ++ issued ∧
      ((adapterRecall py reading client policy intent scope s').2.calls = s'.calls ++ issued ↔
        intent.refresh = true ∨ issued = []) := by
  obtain ⟨hasks, issued, rfl, hgather⟩ := gather_of_error h
  refine ⟨enteredLedger_eq_iff, issued, rfl, ?_⟩
  by_cases hrefresh : intent.refresh = true
  · have hagain : Asks py intent ⟨enteredLedger py intent s.ledger, s.calls ++ issued⟩ :=
      ⟨hasks.1, fun _ => hrefresh⟩
    have htask : (enteredLedger py intent s.ledger).taskId = s.ledger.taskId := rfl
    rw [recall_of_asks hagain, htask, hgather]
    simp [hrefresh]
  · have hmade : ¬ Asks py intent ⟨enteredLedger py intent s.ledger, s.calls ++ issued⟩ :=
      fun hagain => hrefresh (hagain.2 (Finset.mem_insert_self ..))
    rw [recall_of_not_asks hmade]
    simp [hrefresh]

/-- A recall that returns injects new records, each once, within its budget. -/
lemma recall_ok {pack : ContextPack} {s' : AdapterState}
    (h : adapterRecall py reading client policy intent scope s = (.ok pack, s')) :
    pack.estimatedTokens ≤ policy.targetedRecallTokens ∧
      pack.estimatedTokens = (pack.items.map (·.estimatedTokens)).sum ∧
      (∀ item ∈ pack.items, item.recordId ∉ s.ledger.injectedIds) ∧
      (pack.items.map (·.recordId)).Nodup := by
  by_cases hasks : Asks py intent s
  · rw [recall_of_asks hasks] at h
    rcases hgather : gatherCandidates py reading client intent scope s.ledger.taskId s.calls with
      ⟨e | candidates, calls⟩ <;> rw [hgather] at h
    · cases h
    · cases h
      obtain ⟨hbudget, hsum, hfresh, hnodup, -⟩ :=
        @select_within policy.counter 5 "targeted_recall" policy.targetedRecallTokens
          (enteredLedger py intent s.ledger) candidates (Int.natCast_nonneg _)
      exact ⟨Int.ofNat_le.mp hbudget, hsum, hfresh, hnodup⟩
  · rw [recall_of_not_asks hasks] at h
    cases h
    simp

/-- A recall that raises leaves the ledger as it was, so that a retry makes the same calls, exactly
if its signature was in the ledger before; and what a recall returns is new and within its budget. -/
theorem recall_ledger_iff (py : Runtime) (reading : NumberReading) (client : CyberBrainClient)
    (policy : TokenBudgetPolicy) (intent : TurnRecallIntent) (scope : AgentScope)
    (s : AdapterState) :
    (∀ e s', adapterRecall py reading client policy intent scope s = (.error e, s') →
      (s'.ledger = s.ledger ↔
        recallSignature py intent (recallOperations intent) ∈ s.ledger.recallSignatures) ∧
      ∃ issued, s'.calls = s.calls ++ issued ∧
        ((adapterRecall py reading client policy intent scope s').2.calls = s'.calls ++ issued ↔
          intent.refresh = true ∨ issued = [])) ∧
    ∀ pack s', adapterRecall py reading client policy intent scope s = (.ok pack, s') →
      pack.estimatedTokens ≤ policy.targetedRecallTokens ∧
        pack.estimatedTokens = (pack.items.map (·.estimatedTokens)).sum ∧
        (∀ item ∈ pack.items, item.recordId ∉ s.ledger.injectedIds) ∧
        (pack.items.map (·.recordId)).Nodup :=
  ⟨fun _ _ h => recall_error h, fun _ _ h => recall_ok h⟩

/-! ### A connection that is lost -/

def sampleReading : NumberReading where
  floats := ⟨fun _ => none, fun _ => none, fun _ => .zero⟩
  readInt _ := none

/-- A client without a connection. -/
def unconnected : CyberBrainClient := fun _ => .error (.runtimeError "connection lost")

def samplePolicy : TokenBudgetPolicy := ⟨500, 4, by decide, by decide⟩

def sampleIntent : TurnRecallIntent := { query := "q", needKnowledge := true }

def sampleState : AdapterState := { ledger := { sessionId := "s" } }

/-- A recall whose call fails, and the recall made again. -/
def failedRecall : Except Exc ContextPack × AdapterState :=
  adapterRecall .ascii sampleReading unconnected samplePolicy sampleIntent { sessionId := "s" } sampleState

def repeatedRecall : Except Exc ContextPack × AdapterState :=
  adapterRecall .ascii sampleReading unconnected samplePolicy sampleIntent { sessionId := "s" }
    failedRecall.2

/-- The failed recall changes the ledger, and made again it asks nothing and returns nothing. -/
theorem failedRecall_ledger :
    failedRecall.1 = .error (.runtimeError "connection lost") ∧
      failedRecall.2.ledger ≠ sampleState.ledger ∧ failedRecall.2.calls.length = 1 ∧
      repeatedRecall.1 = .ok {} ∧ repeatedRecall.2.calls.length = 1 := by
  decide +kernel

theorem recall_ledger_iff_sample :
    (∀ e s', adapterRecall .ascii sampleReading unconnected samplePolicy sampleIntent { sessionId := "s" }
        sampleState = (.error e, s') →
      (s'.ledger = sampleState.ledger ↔
        recallSignature .ascii sampleIntent (recallOperations sampleIntent) ∈
          sampleState.ledger.recallSignatures) ∧
      ∃ issued, s'.calls = sampleState.calls ++ issued ∧
        ((adapterRecall .ascii sampleReading unconnected samplePolicy sampleIntent { sessionId := "s" }
          s').2.calls = s'.calls ++ issued ↔ sampleIntent.refresh = true ∨ issued = [])) ∧
    ∀ pack s', adapterRecall .ascii sampleReading unconnected samplePolicy sampleIntent
        { sessionId := "s" } sampleState = (.ok pack, s') →
      pack.estimatedTokens ≤ samplePolicy.targetedRecallTokens ∧
        pack.estimatedTokens = (pack.items.map (·.estimatedTokens)).sum ∧
        (∀ item ∈ pack.items, item.recordId ∉ sampleState.ledger.injectedIds) ∧
        (pack.items.map (·.recordId)).Nodup :=
  recall_ledger_iff .ascii sampleReading unconnected samplePolicy sampleIntent { sessionId := "s" }
    sampleState

end CyberBrain.AgentAdapter
