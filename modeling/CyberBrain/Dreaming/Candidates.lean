import CyberBrain.Dreaming.Assembly
import CyberBrain.Knowledge.Histories

/-!
# The names of candidates

A candidate is stored under a name made of its topic, its kind and its place among the claims of
its task. Tasks of one topic and kind share these names, so their candidates supersede each other.
-/

namespace CyberBrain.Dreaming

open Knowledge Python ReasonerProvider Relations Schemas

variable {py : Runtime}

/-! ### Writing candidates -/

/-- The context that `write_candidate` stores: without the section and the task. -/
def DreamCandidate.storedContext (candidate : DreamCandidate) : List (String × Json) :=
  candidate.context.filter fun kv => kv.1 ∉ ["reasoning_section", "task_id"]

/-- What `write_candidate` stores a candidate under, besides its domain, topic and attribution. -/
def DreamCandidate.key (candidate : DreamCandidate) : String × String × List (String × Json) :=
  (candidate.entityType, candidate.entityName, candidate.storedContext)

/-- What `write_candidate` takes from the evidence, the gate and the run. -/
structure WriteMetadata where
  domain : String
  topic : String
  tenant : Option String := none
  user : Option String := none
  agent : Option String := none
  project : Option String := none
  verification : Verification
  promotionConfidence : Binary64
  evidenceIds : List Uuid
  dreamRunId : String
  extensions : ExtensionsInput := {}

/-- The arguments of the call of `store` in `write_candidate`. -/
def DreamCandidate.storeArgs (candidate : DreamCandidate) (metadata : WriteMetadata) :
    StoreArgs where
  content := candidate.content
  summary := some candidate.summary
  domain := metadata.domain
  topic := metadata.topic
  entityType := candidate.entityType
  entityName := candidate.entityName
  tenant := metadata.tenant
  user := metadata.user
  agent := metadata.agent
  project := metadata.project
  changeReason := some "promoted from Dreaming evidence gate"
  verification := metadata.verification
  confidence := some metadata.promotionConfidence
  provenanceType := some "dream"
  source := some ("dream_run:" ++ metadata.dreamRunId)
  evidenceIds := metadata.evidenceIds
  origin := .dream
  dreamRunId := some metadata.dreamRunId
  negativeKnowledge := candidate.negativeKnowledge
  context := candidate.storedContext
  extensions := metadata.extensions

/-! ### Which candidates there are -/

namespace MultipassDreamReasoner

variable (py) (reasoner : MultipassDreamReasoner)

/-- The claim passes the filters of the assembly. -/
def keeps (task : ReasoningTask) (claim : ReasoningClaim) : Bool :=
  !containsAdvice py claim.claim && reasoner.claimRelevant task.topic claim.claim

/-- The candidates that the claims of a task give. -/
def taskCandidates (task : ReasoningTask) (claims : List ReasoningClaim) : List DreamCandidate :=
  claims.zipIdx.flatMap fun claim =>
    if reasoner.keeps py task claim.1 then [candidateFromClaim py task claim.1 claim.2] else []

variable {py} {reasoner}

lemma mem_taskCandidates {task : ReasoningTask} {claims : List ReasoningClaim}
    {candidate : DreamCandidate} : candidate ∈ reasoner.taskCandidates py task claims ↔
      ∃ (index : ℕ) (claim : ReasoningClaim), claims[index]? = some claim ∧
        reasoner.keeps py task claim ∧ candidate = candidateFromClaim py task claim index := by
  simp only [taskCandidates, List.mem_flatMap]
  constructor
  · rintro ⟨⟨claim, index⟩, hmem, hcandidate⟩
    split_ifs at hcandidate with hkeeps
    · exact ⟨index, claim, List.mem_zipIdx_iff_getElem?.mp hmem, hkeeps,
        List.mem_singleton.mp hcandidate⟩
    · cases hcandidate
  · rintro ⟨index, claim, hclaim, hkeeps, rfl⟩
    refine ⟨(claim, index), List.mem_zipIdx_iff_getElem?.mpr hclaim, ?_⟩
    rw [if_pos hkeeps]
    exact List.mem_singleton_self _

lemma assembleTask_candidates {results : List ReasoningTaskResult} {acc acc' : Assembly}
    {task : ReasoningTask} (h : reasoner.assembleTask py results acc task = .ok acc') :
    acc'.candidates = acc.candidates ++
      ((results.find? fun result => result.taskId = task.taskId).elim []
        fun result => reasoner.taskCandidates py task result.claims) := by
  simp only [assembleTask, bind_eq_ok, orRaise_eq_ok] at h
  obtain ⟨result, hfind, _, -, h⟩ := h
  rw [hfind]
  refine foldlM_output Assembly.candidates (fun acc claim acc' h => ?_) h
  obtain ⟨_, -, h⟩ := bind_eq_ok.mp h
  by_cases hadvice : containsAdvice py claim.1.claim = true
  · rw [if_pos hadvice] at h
    cases h
    simp [keeps, hadvice]
  rw [if_neg hadvice] at h
  by_cases hrelevant : reasoner.claimRelevant task.topic claim.1.claim = false
  · rw [if_pos hrelevant] at h
    cases h
    simp [keeps, hrelevant]
  · rw [if_neg hrelevant] at h
    cases h
    simp [keeps, hadvice, hrelevant]

/-- The candidates of an assembly: one for each claim that passes the filters. -/
lemma mem_candidates {request : DreamReasoningRequest} {tasks : List ReasoningTask}
    {results : List ReasoningTaskResult} {result : DreamReasoningResult}
    (h : reasoner.assemble py request tasks results = .ok result) {candidate : DreamCandidate} :
    candidate ∈ result.candidates ↔ ∃ task ∈ tasks, ∃ answer ∈ results,
      answer.taskId = task.taskId ∧ ∃ (index : ℕ) (claim : ReasoningClaim),
        answer.claims[index]? = some claim ∧ reasoner.keeps py task claim ∧
          candidate = candidateFromClaim py task claim index := by
  obtain ⟨-, hresults, -, -⟩ := (reasoner.assemble_ok_iff request tasks results).mp ⟨result, h⟩
  simp only [assemble, bind_eq_ok] at h
  obtain ⟨_, -, _, -, _, -, acc, hacc, h⟩ := h
  cases h
  have houtput := foldlM_output Assembly.candidates
    (fun acc task acc' h => assembleTask_candidates h) hacc
  simp only [houtput, List.nil_append, List.mem_flatMap]
  refine exists_congr fun task => and_congr_right fun _ => ?_
  constructor
  · intro hmem
    cases hfind : results.find? fun result => result.taskId = task.taskId with
    | none => rw [hfind] at hmem; cases hmem
    | some answer =>
      rw [hfind] at hmem
      exact ⟨answer, List.mem_of_find?_eq_some hfind, by simpa using List.find?_some hfind,
        mem_taskCandidates.mp hmem⟩
  · rintro ⟨answer, hanswer, hid, hclaim⟩
    rw [← hid, find?_key_of_mem hresults hanswer]
    exact mem_taskCandidates.mpr hclaim

end MultipassDreamReasoner

/-! ### Names -/

lemma entityName_inj {topic : String} {kind : ReasoningTaskKind} {m n : ℕ}
    (h : entityName py topic kind m = entityName py topic kind n) : m = n := by
  have hchars := congrArg String.toList h
  simp only [entityName, String.toList_append, List.append_assoc, List.append_cancel_left_eq,
    Nat.toString_eq_repr, Nat.toList_repr] at hchars
  exact Nat.succ.inj (toDigits_injective hchars)

lemma storedContext_candidateFromClaim (task : ReasoningTask) (claim : ReasoningClaim)
    (index : ℕ) : (candidateFromClaim py task claim index).storedContext =
      [("topic", .str task.topic)] := by
  simp [DreamCandidate.storedContext, candidateFromClaim]

lemma key_candidateFromClaim (task : ReasoningTask) (claim : ReasoningClaim) (index : ℕ) :
    (candidateFromClaim py task claim index).key = ((candidateMapping task.kind).1,
      entityName py task.topic task.kind index, [("topic", .str task.topic)]) := by
  rw [DreamCandidate.key, storedContext_candidateFromClaim]
  rfl

/-- Candidates share their key exactly if their tasks share topic and kind and their claims have
the same place. -/
lemma key_eq_iff {task task' : ReasoningTask} {claim claim' : ReasoningClaim} {m n : ℕ} :
    (candidateFromClaim py task claim m).key = (candidateFromClaim py task' claim' n).key ↔
      task.topic = task'.topic ∧ task.kind = task'.kind ∧ m = n := by
  have hkind {kind kind' : ReasoningTaskKind}
      (h : (candidateMapping kind).1 = (candidateMapping kind').1) : kind = kind' := by
    cases kind <;> cases kind' <;> first | rfl | exact absurd h (by decide)
  simp only [key_candidateFromClaim, Prod.mk.injEq, List.cons.injEq, Json.str.injEq, true_and,
    and_true]
  constructor
  · rintro ⟨htype, hname, htopic⟩
    have hkind := hkind htype
    rw [htopic, hkind] at hname
    exact ⟨htopic, hkind, entityName_inj hname⟩
  · rintro ⟨htopic, hkind, rfl⟩
    rw [htopic, hkind]
    exact ⟨rfl, rfl, rfl⟩

lemma prepare_subject {service : Service} {call : StoreCall py} {p : Prepared py}
    (h : prepare service call = .ok p) : p.subject.toEntityLabels = call.args.toEntityLabels ∧
      p.subject.context = call.args.context := by
  simp only [prepare, bind_eq_ok] at h
  obtain ⟨values, -, normalized, -, _, -, _, -, relations, -, digest, -, h⟩ := h
  cases h
  exact ⟨rfl, rfl⟩

variable (py) in
/-- Whatever the evidence and the gate say, the two candidates are never stored as versions of one
entity. -/
def StoredApart (candidate candidate' : DreamCandidate) : Prop :=
  ∀ (service service' : Service) (call call' : StoreCall py) (metadata metadata' : WriteMetadata)
    (p p' : Prepared py), call.args = candidate.storeArgs metadata →
      call'.args = candidate'.storeArgs metadata' → prepare service call = .ok p →
        prepare service' call' = .ok p' → p.subject.identity ≠ p'.subject.identity

/-- Candidates with different keys are stored apart. -/
lemma storedApart_of_key_ne {candidate candidate' : DreamCandidate} {topic topic' : String}
    (hcontext : candidate.storedContext = [("topic", .str topic)])
    (hcontext' : candidate'.storedContext = [("topic", .str topic')])
    (h : candidate.key ≠ candidate'.key) : StoredApart py candidate candidate' := by
  intro service service' call call' metadata metadata' p p' hargs hargs' hp hp' heq
  obtain ⟨hlabels, hvalue⟩ := prepare_subject hp
  obtain ⟨hlabels', hvalue'⟩ := prepare_subject hp'
  have hlabels : call.args.toEntityLabels = call'.args.toEntityLabels := by
    rw [← hlabels, ← hlabels']
    exact congrArg Identity.toEntityLabels heq
  have hvalue : (Json.obj call.args.context).value = (Json.obj call'.args.context).value := by
    rw [← hvalue, ← hvalue']
    exact congrArg Identity.context heq
  rw [hargs, hargs'] at hlabels hvalue
  refine h ?_
  simp only [DreamCandidate.key, Prod.mk.injEq]
  refine ⟨congrArg EntityLabels.entityType hlabels, congrArg EntityLabels.entityName hlabels, ?_⟩
  simp only [DreamCandidate.storeArgs] at hvalue
  rw [hcontext, hcontext'] at hvalue ⊢
  simpa [Json.value, Json.valueItems, sortItems] using hvalue

/-! ### Candidates of one run -/

/-- Candidates with different contents have different keys and are stored apart. -/
def DreamReasoningResult.Separate (py : Runtime) (result : DreamReasoningResult) : Prop :=
  ∀ candidate ∈ result.candidates, ∀ candidate' ∈ result.candidates,
    candidate.content ≠ candidate'.content →
      candidate.key ≠ candidate'.key ∧ StoredApart py candidate candidate'

/-- Claims at the same place in the answers to two tasks of one topic and one kind have the same
text, if both pass the filters. -/
def MultipassDreamReasoner.Agree (py : Runtime) (reasoner : MultipassDreamReasoner)
    (tasks : List ReasoningTask) (results : List ReasoningTaskResult) : Prop :=
  ∀ task ∈ tasks, ∀ task' ∈ tasks, task.topic = task'.topic → task.kind = task'.kind →
    ∀ answer ∈ results, ∀ answer' ∈ results, answer.taskId = task.taskId →
      answer'.taskId = task'.taskId → ∀ (index : ℕ) (claim claim' : ReasoningClaim),
        answer.claims[index]? = some claim → answer'.claims[index]? = some claim' →
          reasoner.keeps py task claim → reasoner.keeps py task' claim' →
            claim.claim = claim'.claim

section Run

variable {reasoner : MultipassDreamReasoner} {request : DreamReasoningRequest}
  {tasks : List ReasoningTask} {results : List ReasoningTaskResult} {result : DreamReasoningResult}

lemma agree_of_separate (h : reasoner.assemble py request tasks results = .ok result)
    (hseparate : result.Separate py) : reasoner.Agree py tasks results := by
  intro task htask task' htask' htopic hkind answer hanswer answer' hanswer' hid hid'
    index claim claim' hclaim hclaim' hkeeps hkeeps'
  by_contra hne
  have hcandidate := (MultipassDreamReasoner.mem_candidates h).mpr
    ⟨task, htask, answer, hanswer, hid, index, claim, hclaim, hkeeps, rfl⟩
  have hcandidate' := (MultipassDreamReasoner.mem_candidates h).mpr
    ⟨task', htask', answer', hanswer', hid', index, claim', hclaim', hkeeps', rfl⟩
  exact (hseparate _ hcandidate _ hcandidate' hne).1 (key_eq_iff.mpr ⟨htopic, hkind, rfl⟩)

lemma separate_of_agree (h : reasoner.assemble py request tasks results = .ok result)
    (hagree : reasoner.Agree py tasks results) : result.Separate py := by
  intro candidate hcandidate candidate' hcandidate' hne
  obtain ⟨task, htask, answer, hanswer, hid, index, claim, hclaim, hkeeps, rfl⟩ :=
    (MultipassDreamReasoner.mem_candidates h).mp hcandidate
  obtain ⟨task', htask', answer', hanswer', hid', index', claim', hclaim', hkeeps', rfl⟩ :=
    (MultipassDreamReasoner.mem_candidates h).mp hcandidate'
  have hkey : (candidateFromClaim py task claim index).key ≠
      (candidateFromClaim py task' claim' index').key := by
    intro hkey
    obtain ⟨htopic, hkind, rfl⟩ := key_eq_iff.mp hkey
    exact hne (hagree task htask task' htask' htopic hkind answer hanswer answer' hanswer' hid hid'
      index claim claim' hclaim hclaim' hkeeps hkeeps')
  exact ⟨hkey, storedApart_of_key_ne (storedContext_candidateFromClaim task claim index)
    (storedContext_candidateFromClaim task' claim' index') hkey⟩

end Run

/-- The candidates of a run are never stored over each other exactly if tasks of one topic and one
kind are answered alike. -/
theorem candidates_separate_iff (reasoner : MultipassDreamReasoner)
    (request : DreamReasoningRequest) {results : List ReasoningTaskResult}
    {result : DreamReasoningResult} (h : reasoner.assemble py request
      (reasoner.buildTasks py request) results = .ok result) :
    result.Separate py ↔ reasoner.Agree py (reasoner.buildTasks py request) results :=
  ⟨agree_of_separate h, separate_of_agree h⟩

section Sample

/-- Two pieces of evidence for one topic give two tasks about the current state and one lesson. -/
def twoPieces : DreamReasoningRequest := sampleRequest [sampleEvidence "e1", sampleEvidence "e2"]

/-- Answers to the two tasks about the current state, and none to the lesson. -/
def twoAnswers (text text' : String) : List ReasoningTaskResult :=
  [⟨"run:1:current_state", [⟨text, ["e2"], .zero⟩]⟩,
    ⟨"run:2:current_state", [⟨text', ["e1"], .zero⟩]⟩, ⟨"run:3:durable_lesson", []⟩]

def sampleMetadata : WriteMetadata where
  domain := "d"
  topic := "routing"
  verification := .derived
  promotionConfidence := .zero
  evidenceIds := []
  dreamRunId := "dream"

/-- The candidates are stored one after the other. -/
def storeCandidates (candidates : List DreamCandidate) : Collection Runtime.ascii :=
  runAll (Table.empty _) ((candidates.zipIdx 1).map fun p => .store sampleService
    { repository := .stored _, clock := fun _ => .ofMicros 0
      args := p.1.storeArgs sampleMetadata, newId := .ofNat p.2 })

lemma twoPieces_tasks : (sampleReasoner.buildTasks Runtime.ascii twoPieces).map
    (fun task => (task.taskId, task.topic, task.kind)) =
      [("run:1:current_state", "routing", .currentState),
        ("run:2:current_state", "routing", .currentState),
        ("run:3:durable_lesson", "routing", .durableLesson)] := by
  decide +kernel

/-- Different facts from two tasks about the current state get one name, and the second one stored
supersedes the first. -/
theorem second_fact_supersedes : ∃ result,
    sampleReasoner.assemble Runtime.ascii twoPieces
        (sampleReasoner.buildTasks Runtime.ascii twoPieces) (twoAnswers "a fact" "another fact") =
      .ok result ∧
    (storeCandidates result.candidates).rows.map (fun r => (r.content, r.status)) =
      [("a fact", .superseded), ("another fact", .active)] ∧
    ¬ result.Separate Runtime.ascii := by
  have hcheck : (sampleReasoner.assemble Runtime.ascii twoPieces
      (sampleReasoner.buildTasks Runtime.ascii twoPieces)
      (twoAnswers "a fact" "another fact")).toOption.any (fun result =>
        (storeCandidates result.candidates).rows.map (fun r => (r.content, r.status)) =
          [("a fact", .superseded), ("another fact", .active)]) = true := by
    decide +kernel
  obtain ⟨result, hresult, hcheck⟩ := (Option.any_eq_true _ _).mp hcheck
  have hresult := toOption_eq_some.mp hresult
  refine ⟨result, hresult, of_decide_eq_true hcheck, fun hseparate => ?_⟩
  obtain ⟨first, rest, htasks, hfirst, hrest⟩ := List.map_eq_cons_iff.mp twoPieces_tasks
  obtain ⟨second, rest, rfl, hsecond, -⟩ := List.map_eq_cons_iff.mp hrest
  simp only [Prod.mk.injEq] at hfirst hsecond
  obtain ⟨hid, htopic, hkind⟩ := hfirst
  obtain ⟨hid', htopic', hkind'⟩ := hsecond
  have hkeeps (task : ReasoningTask) (text : String) (h : containsAdvice Runtime.ascii text = false)
      (ids : List String) : sampleReasoner.keeps Runtime.ascii task ⟨text, ids, .zero⟩ := by
    simp [MultipassDreamReasoner.keeps, h, sampleReasoner]
  have heq := agree_of_separate hresult hseparate first (by simp [htasks]) second (by simp [htasks])
    (htopic.trans htopic'.symm) (hkind.trans hkind'.symm) _ (.head _) _ (.tail _ (.head _))
    hid.symm hid'.symm 0 _ _ rfl rfl (hkeeps first _ (by decide +kernel) _)
    (hkeeps second _ (by decide +kernel) _)
  exact absurd heq (by decide)

/-- Tasks that are answered alike give candidates that are stored apart. -/
theorem candidates_separate_same : ∃ result,
    sampleReasoner.assemble Runtime.ascii twoPieces
        (sampleReasoner.buildTasks Runtime.ascii twoPieces) (twoAnswers "a fact" "a fact") =
      .ok result ∧
    (result.Separate Runtime.ascii ↔ sampleReasoner.Agree Runtime.ascii
      (sampleReasoner.buildTasks Runtime.ascii twoPieces) (twoAnswers "a fact" "a fact")) := by
  have hok : (sampleReasoner.assemble Runtime.ascii twoPieces
      (sampleReasoner.buildTasks Runtime.ascii twoPieces)
      (twoAnswers "a fact" "a fact")).toOption.isSome = true := by
    decide +kernel
  obtain ⟨result, hresult⟩ := Option.isSome_iff_exists.mp hok
  have hresult := toOption_eq_some.mp hresult
  exact ⟨result, hresult, candidates_separate_iff sampleReasoner twoPieces hresult⟩

end Sample

end CyberBrain.Dreaming
