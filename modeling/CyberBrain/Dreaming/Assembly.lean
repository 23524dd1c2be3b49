import CyberBrain.Dreaming.Orchestration
import CyberBrain.Foundation.Table

/-!
# What the assembler accepts

The assembler checks again what the inbox has checked, and more: the inbox accepts claims without
text or without evidence, on which the assembly of the whole run fails.
-/

namespace CyberBrain.Dreaming

open Python ReasonerProvider

variable {py : Runtime}

/-! ### Claims -/

/-- A claim that `_validate_claim` accepts for the given evidence. -/
structure ReasoningClaim.Valid (claim : ReasoningClaim) (allowed : List String) : Prop where
  text : strip claim.claim ≠ ""
  confidence : 0 ≤ claim.confidence.value ∧ claim.confidence.value ≤ 1
  cites : claim.evidenceIds ≠ []
  known : ∀ id ∈ claim.evidenceIds, id ∈ allowed

variable (py) in
lemma validateClaim_eq_ok {claim : ReasoningClaim} {allowed : List String} :
    validateClaim py claim allowed = .ok () ↔ claim.Valid allowed := by
  have hknown : (FrozenSet.ofList (claim.evidenceIds.filter (· ∉ allowed))).sorted = [] ↔
      ∀ id ∈ claim.evidenceIds, id ∈ allowed := by
    simp only [FrozenSet.sorted_eq_nil_iff, FrozenSet.ext_iff, FrozenSet.mem_ofList,
      List.mem_filter, decide_eq_true_eq, FrozenSet.notMem_empty, iff_false, not_and, not_not]
  simp only [validateClaim, bind_eq_ok, require_eq_ok, hknown]
  constructor
  · rintro ⟨_, htext, _, hconfidence, _, hcites, hids⟩
    exact ⟨htext, hconfidence, hcites, hids⟩
  · rintro ⟨htext, hconfidence, hcites, hids⟩
    exact ⟨(), htext, (), hconfidence, (), hcites, hids⟩

lemma duplicateIds_eq_nil {ids : List String} : duplicateIds ids = [] ↔ ids.Nodup := by
  rw [duplicateIds, FrozenSet.sorted_eq_nil_iff, List.nodup_iff_count_le_one]
  simp only [FrozenSet.ext_iff, FrozenSet.mem_ofList, List.mem_filter, decide_eq_true_eq,
    FrozenSet.notMem_empty, iff_false, not_and, not_lt]
  refine forall_congr' fun id => ⟨fun h => ?_, fun h _ => h⟩
  by_cases hmem : id ∈ ids
  · exact h hmem
  · exact (List.count_eq_zero_of_not_mem hmem).le.trans (Nat.zero_le 1)

namespace MultipassDreamReasoner

variable (reasoner : MultipassDreamReasoner)

lemma assembleClaim_ok_iff (task : ReasoningTask) (acc : Assembly) (claim : ReasoningClaim × ℕ) :
    (∃ acc', reasoner.assembleClaim py task acc claim = .ok acc') ↔
      claim.1.Valid (task.evidence.map (·.id)) := by
  rw [← validateClaim_eq_ok py]
  simp only [assembleClaim, bind_eq_ok]
  constructor
  · rintro ⟨acc', _, hvalid, -⟩
    exact hvalid
  · intro hvalid
    split_ifs
    · exact ⟨_, (), hvalid, rfl⟩
    · exact ⟨_, (), hvalid, rfl⟩
    · exact ⟨_, (), hvalid, rfl⟩

/-- The result for a task is there, and its claims are valid. -/
def Answered (results : List ReasoningTaskResult) (task : ReasoningTask) : Prop :=
  ∃ result, (results.find? fun result => result.taskId = task.taskId) = some result ∧
    ∀ claim ∈ result.claims, claim.Valid (task.evidence.map (·.id))

variable (py) in
lemma assembleTask_ok_iff (results : List ReasoningTaskResult) (acc : Assembly)
    (task : ReasoningTask) :
    (∃ acc', reasoner.assembleTask py results acc task = .ok acc') ↔ Answered results task := by
  have hclaims (claims : List ReasoningClaim) :
      (∃ acc', claims.zipIdx.foldlM (reasoner.assembleClaim py task) acc = .ok acc') ↔
        ∀ claim ∈ claims, claim.Valid (task.evidence.map (·.id)) := by
    rw [foldlM_ok_iff (P := fun claim => claim.1.Valid (task.evidence.map (·.id)))
      fun acc claim => reasoner.assembleClaim_ok_iff task acc claim]
    constructor
    · intro h claim hmem
      obtain ⟨n, hn, rfl⟩ := List.getElem_of_mem hmem
      exact h (claims[n], n) (List.mem_zipIdx_iff_getElem?.mpr (List.getElem?_eq_getElem hn))
    · exact fun h claim hmem => h claim.1 (List.fst_mem_of_mem_zipIdx hmem)
  simp only [assembleTask, bind_eq_ok, orRaise_eq_ok, require_eq_ok, Answered]
  constructor
  · rintro ⟨acc', result, hfind, _, -, hacc⟩
    exact ⟨result, hfind, (hclaims _).mp ⟨acc', hacc⟩⟩
  · rintro ⟨result, hfind, hvalid⟩
    obtain ⟨acc', hacc⟩ := (hclaims _).mpr hvalid
    exact ⟨acc', result, hfind, (), by simpa using List.find?_some hfind, hacc⟩

/-- What `assemble` accepts: distinct tasks and results with the same ids, and valid claims. -/
theorem assemble_ok_iff (request : DreamReasoningRequest) (tasks : List ReasoningTask)
    (results : List ReasoningTaskResult) :
    (∃ result, reasoner.assemble py request tasks results = .ok result) ↔
      (tasks.map (·.taskId)).Nodup ∧ (results.map (·.taskId)).Nodup ∧
      (∀ id, id ∈ tasks.map (·.taskId) ↔ id ∈ results.map (·.taskId)) ∧
      ∀ task ∈ tasks, Answered results task := by
  have hsub (ids ids' : List String) :
      (FrozenSet.ofList (ids.filter (· ∉ ids'))).sorted = [] ↔ ∀ id ∈ ids, id ∈ ids' := by
    simp only [FrozenSet.sorted_eq_nil_iff, FrozenSet.ext_iff, FrozenSet.mem_ofList,
      List.mem_filter, decide_eq_true_eq, FrozenSet.notMem_empty, iff_false, not_and, not_not]
  rw [← foldlM_ok_iff (s := {}) (reasoner.assembleTask_ok_iff py results)]
  simp only [assemble, bind_eq_ok, require_eq_ok, duplicateIds_eq_nil, hsub]
  constructor
  · rintro ⟨_, _, htasks, _, hresults, _, ⟨hmissing, hunexpected⟩, acc, hacc, -⟩
    exact ⟨htasks, hresults, fun id => ⟨hmissing id, hunexpected id⟩, acc, hacc⟩
  · rintro ⟨htasks, hresults, hids, acc, hacc⟩
    exact ⟨_, (), htasks, (), hresults, (), ⟨fun id => (hids id).mp, fun id => (hids id).mpr⟩, acc,
      hacc, rfl⟩

/-! ### Built tasks -/

lemma nodup_map_zipIdx {α β : Type*} {l : List α} {n : ℕ} {f : α × ℕ → β}
    (h : ∀ p q, f p = f q → p.2 = q.2) : ((l.zipIdx n).map f).Nodup := by
  have hnumbers : ((l.zipIdx n).map Prod.snd).Nodup := by
    rw [List.zipIdx_map_snd]
    exact List.nodup_range'
  exact List.pairwise_map.mpr
    ((List.pairwise_map.mp hnumbers).imp fun hne heq => hne (h _ _ heq))

lemma makeTask_taskId_inj {request : DreamReasoningRequest} {topic topic' : String} {m n : ℕ}
    {draft draft' : TaskDraft}
    (h : (makeTask request topic m draft).taskId = (makeTask request topic' n draft').taskId) :
    m = n := by
  have hdigits (k : ℕ) : ':' ∉ Nat.toDigits 10 k := fun h =>
    absurd (isDigit_of_mem_toDigits h) (by decide)
  have hkind (kind : ReasoningTaskKind) : ':' ∉ (kindValue kind).toList := by
    cases kind <;> decide
  have hchars := congrArg String.toList h
  simp only [makeTask, String.toList_append, List.append_assoc, List.append_cancel_left_eq,
    Nat.toString_eq_repr, Nat.toList_repr] at hchars
  exact toDigits_injective
    ((List.append_cons_inj_of_notMem (hdigits m) (hkind _)).mp hchars).1

variable (py) in
/-- Built tasks have distinct ids. -/
lemma nodup_buildTasks (request : DreamReasoningRequest) :
    ((reasoner.buildTasks py request).map (·.taskId)).Nodup := by
  simp only [buildTasks, List.map_map]
  exact nodup_map_zipIdx fun p q h => makeTask_taskId_inj h

end MultipassDreamReasoner

/-! ### What the inbox accepts -/

variable (py) in
/-- The inbox accepts the result as an answer to the task. -/
def Accepted (task : ReasoningTask) (result : ReasonTaskResult) : Prop :=
  validateTaskResult py (serializeTask task) result = .ok result

lemma accepted_iff {task : ReasoningTask} {result : ReasonTaskResult} : Accepted py task result ↔
    result.taskId = task.taskId ∧
      ∀ claim ∈ result.claims, ∀ id ∈ claim.evidenceIds, id ∈ task.evidence.map (·.id) := by
  rw [Accepted, validateTaskResult_eq_ok]
  simp [serializeTask, ReasonTaskResult.CitesOnly, serializeEvidence]

/-- A claim with a text and with evidence. -/
def Substantial (claim : ReasonTaskClaim) : Prop :=
  strip claim.claim ≠ "" ∧ claim.evidenceIds ≠ []

lemma Accepted.valid_iff {task : ReasoningTask} {result : ReasonTaskResult}
    (h : Accepted py task result) :
    (∀ claim ∈ (parseResult result).claims, claim.Valid (task.evidence.map (·.id))) ↔
      ∀ claim ∈ result.claims, Substantial claim := by
  simp only [parseResult, List.forall_mem_map]
  refine forall₂_congr fun claim hmem => ⟨fun hvalid => ⟨hvalid.text, hvalid.cites⟩, fun hsub => ?_⟩
  exact ⟨hsub.1, ⟨claim.confidence_nonneg, claim.confidence_le_one⟩, hsub.2,
    (accepted_iff.mp h).2 claim hmem⟩

lemma Accepted.taskIds {tasks : List ReasoningTask} {results : List ReasonTaskResult}
    (h : List.Forall₂ (Accepted py) tasks results) :
    (results.map parseResult).map (·.taskId) = tasks.map (·.taskId) := by
  induction h with
  | nil => rfl
  | cons haccepted _ ih =>
    simp only [List.map_cons, ih, parseResult, (accepted_iff.mp haccepted).1]

/-- The result that the assembler reads for a task is the one that was accepted for it. -/
lemma Accepted.find? {tasks : List ReasoningTask} {results : List ReasonTaskResult}
    (h : List.Forall₂ (Accepted py) tasks results) (hnodup : (tasks.map (·.taskId)).Nodup)
    {task : ReasoningTask} {result : ReasonTaskResult} (hmem : (task, result) ∈ tasks.zip results) :
    ((results.map parseResult).find? fun result => result.taskId = task.taskId) =
      some (parseResult result) := by
  induction h with
  | nil => cases hmem
  | @cons task' result' tasks results haccepted _ ih =>
    have hid : (parseResult result').taskId = task'.taskId := (accepted_iff.mp haccepted).1
    obtain ⟨hfresh, hnodup⟩ := List.nodup_cons.mp hnodup
    rw [List.map_cons, List.find?_cons, hid]
    rcases List.mem_cons.mp hmem with heq | hmem
    · cases heq
      simp
    · have hne : task'.taskId ≠ task.taskId := by
        intro heq
        exact hfresh (List.mem_map.mpr ⟨task, (List.of_mem_zip hmem).1, heq.symm⟩)
      simp only [hne, decide_false]
      exact ih hnodup hmem

/-- For built tasks and one accepted result for each, the assembly succeeds exactly if every claim
has a text and evidence. -/
theorem assemble_accepted_iff (reasoner : MultipassDreamReasoner)
    (request : DreamReasoningRequest) {results : List ReasonTaskResult}
    (h : List.Forall₂ (Accepted py) (reasoner.buildTasks py request) results) :
    (∃ result, reasoner.assemble py request (reasoner.buildTasks py request)
        (results.map parseResult) = .ok result) ↔
      ∀ result ∈ results, ∀ claim ∈ result.claims, Substantial claim := by
  have hnodup := reasoner.nodup_buildTasks py request
  have hids := Accepted.taskIds h
  obtain ⟨hlength, hzip⟩ := List.forall₂_iff_zip.mp h
  rw [MultipassDreamReasoner.assemble_ok_iff, hids]
  constructor
  · rintro ⟨-, -, -, hanswered⟩ result hresult
    obtain ⟨task, hmem⟩ : ∃ task, (task, result) ∈ (reasoner.buildTasks py request).zip results := by
      rw [← List.map_snd_zip hlength.ge] at hresult
      obtain ⟨⟨task, _⟩, hmem, rfl⟩ := List.mem_map.mp hresult
      exact ⟨task, hmem⟩
    obtain ⟨parsed, hfind, hvalid⟩ := hanswered task (List.of_mem_zip hmem).1
    rw [Accepted.find? h hnodup hmem] at hfind
    cases hfind
    exact (Accepted.valid_iff (hzip hmem)).mp hvalid
  · intro hsub
    refine ⟨hnodup, hnodup, fun id => Iff.rfl, fun task htask => ?_⟩
    obtain ⟨result, hmem⟩ : ∃ result,
        (task, result) ∈ (reasoner.buildTasks py request).zip results := by
      rw [← List.map_fst_zip hlength.le] at htask
      obtain ⟨⟨_, result⟩, hmem, rfl⟩ := List.mem_map.mp htask
      exact ⟨result, hmem⟩
    refine ⟨parseResult result, Accepted.find? h hnodup hmem, ?_⟩
    exact (Accepted.valid_iff (hzip hmem)).mpr (hsub result (List.of_mem_zip hmem).2)

section Sample

/-- A reasoner whose guard finds every claim relevant, as the guard of the source does for a topic
of one plain word. -/
def sampleReasoner : MultipassDreamReasoner where
  claimRelevant _ _ := true

def sampleEvidence (id : String) : EvidenceItem where
  id := id
  recordType := "knowledge"
  content := "it is so"
  score := none
  eventTime := none

/-- A request about one topic. -/
def sampleRequest (evidence : List EvidenceItem) : DreamReasoningRequest where
  requestId := "run"
  sessionId := "session"
  focalTopics := ["routing"]
  sessionStart := ⟨.ofMicros 0, some 0⟩
  sessionEnd := ⟨.ofMicros 1, some 0⟩
  evidenceByTopic := [("routing", evidence)]

/-- An answer to the one task about one piece of evidence. -/
def sampleAnswer (text : String) (evidenceIds : List String) : ReasonTaskResult where
  taskId := "run:1:current_state"
  claims := [⟨text, evidenceIds, .zero, Binary64.value_zero_nonneg, Binary64.value_zero_le_one⟩]

/-- The answer is accepted if it cites only the evidence of the one task. -/
lemma sampleAnswer_accepted (text : String) {evidenceIds : List String}
    (h : ∀ id ∈ evidenceIds, id = "e1") : List.Forall₂ (Accepted Runtime.ascii)
      (sampleReasoner.buildTasks Runtime.ascii (sampleRequest [sampleEvidence "e1"]))
      [sampleAnswer text evidenceIds] := by
  have htasks : (sampleReasoner.buildTasks Runtime.ascii (sampleRequest [sampleEvidence "e1"])).map
      (fun task => (task.taskId, task.evidence.map (·.id))) =
        [("run:1:current_state", ["e1"])] := by
    decide +kernel
  obtain ⟨task, rest, heq, htask, htail⟩ := List.map_eq_cons_iff.mp htasks
  rw [List.map_eq_nil_iff.mp htail] at heq
  obtain ⟨hid, hevidence⟩ := Prod.mk.inj htask
  rw [heq]
  refine .cons (accepted_iff.mpr ⟨hid.symm, ?_⟩) .nil
  simpa [sampleAnswer, hevidence] using h

/-- An answer with a text and evidence is assembled. -/
theorem assemble_accepted_sample :
    ∃ result, sampleReasoner.assemble Runtime.ascii (sampleRequest [sampleEvidence "e1"])
      (sampleReasoner.buildTasks Runtime.ascii (sampleRequest [sampleEvidence "e1"]))
      ([sampleAnswer "a fact" ["e1"]].map parseResult) = .ok result := by
  refine (assemble_accepted_iff sampleReasoner (sampleRequest [sampleEvidence "e1"])
    (sampleAnswer_accepted "a fact" (by simp))).mpr ?_
  simp only [sampleAnswer, List.mem_singleton, forall_eq, Substantial]
  exact ⟨by decide, by simp⟩

/-- A blank claim is accepted as an answer, and fails the assembly; so is one without evidence. -/
theorem blank_claim_fails_assembly :
    List.Forall₂ (Accepted Runtime.ascii)
        (sampleReasoner.buildTasks Runtime.ascii (sampleRequest [sampleEvidence "e1"]))
        [sampleAnswer " " ["e1"]] ∧
      sampleReasoner.assemble Runtime.ascii (sampleRequest [sampleEvidence "e1"])
        (sampleReasoner.buildTasks Runtime.ascii (sampleRequest [sampleEvidence "e1"]))
        ([sampleAnswer " " ["e1"]].map parseResult) =
          .error (.valueError "micro reasoner returned an empty claim") ∧
      List.Forall₂ (Accepted Runtime.ascii)
        (sampleReasoner.buildTasks Runtime.ascii (sampleRequest [sampleEvidence "e1"]))
        [sampleAnswer "a fact" []] ∧
      sampleReasoner.assemble Runtime.ascii (sampleRequest [sampleEvidence "e1"])
        (sampleReasoner.buildTasks Runtime.ascii (sampleRequest [sampleEvidence "e1"]))
        ([sampleAnswer "a fact" []].map parseResult) =
          .error (.valueError "micro reasoner claim must cite evidence") := by
  refine ⟨sampleAnswer_accepted " " (by simp), ?_, sampleAnswer_accepted "a fact" (by simp), ?_⟩
  · exact exception?_eq_some.mp (by decide +kernel)
  · exact exception?_eq_some.mp (by decide +kernel)

end Sample

end CyberBrain.Dreaming
