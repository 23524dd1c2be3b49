import CyberBrain.Dreaming.RunReasoner

/-!
# The reasoner and the inbox agree

A completed task keeps its result while clients claim and submit, so the result that the reasoner
reads or gets back for a task is the one that stays in the inbox; and what the assembly accepts
answers the tasks.
-/

namespace CyberBrain.Dreaming

open Python ReasonerProvider Tenancy

variable {py : Runtime}

/-! ### Completed tasks -/

/-- A completed task keeps its outcome, unless its run is retired. -/
lemma completed_step {s : InboxSystem} {id : String} {row : TaskRow}
    (hrow : s.inbox.task? id = some row) (hdone : row.status = .completed) (op : InboxOp py) :
    (∃ row', (s.step op).inbox.task? id = some row' ∧ row.Keeps row') ∨
      ∃ bound instant requestIds before,
        op = .retireFinalizedRuns bound instant requestIds before false := by
  have hchange := taskChange_step s op id
  generalize (s.step op).inbox.task? id = o at hchange
  have hopen {row' : TaskRow} (hrow' : s.inbox.task? id = some row')
      (hne : row'.status ≠ .completed) : False := by
    rw [hrow] at hrow'
    cases hrow'
    exact hne hdone
  cases hchange with
  | keep => exact .inl ⟨row, hrow, hdone, rfl, rfl⟩
  | register =>
    rw [hrow]
    exact .inl ⟨_, rfl, by constructor <;> simp [Registration.row, TaskRow.register, hdone]⟩
  | claim _ hrow' hclaimable =>
    rw [hrow] at hrow'
    cases hrow'
    simp [TaskRow.claimable, hdone] at hclaimable
  | complete hrow' hne => exact (hopen hrow' hne).elim
  | mark hrow' hne => exact (hopen hrow' hne).elim
  | retire => exact .inr ⟨_, _, _, _, rfl⟩

/-- What `complete_fallback` returns is what the task has afterwards. -/
lemma completeFallback_ok {now : Instant} {taskId route : String}
    {result : Except Exc ReasonTaskResult} {inbox : Inbox} {winner : ReasonTaskResult}
    (h : (completeFallback py now taskId result route inbox).1 = .ok winner) :
    ∃ row, (completeFallback py now taskId result route inbox).2.task? (strip taskId) = some row ∧
      row.status = .completed ∧ row.result = some winner := by
  revert h
  unfold completeFallback
  rcases Program.atomically_cases _ inbox with ⟨value, t, h, heq⟩ | ⟨e, -, heq⟩ <;> rw [heq]
  · intro hwinner
    cases hwinner
    simp only [bind_eq_ok, require_eq_ok, orRaise_eq_ok] at h
    obtain ⟨_, -, _, -, row, hrow, h⟩ := h
    by_cases hdone : row.status = .completed
    · rw [if_pos hdone, bind_eq_ok] at h
      obtain ⟨stored, hstored, h⟩ := h
      cases h
      exact ⟨row, hrow, hdone, orRaise_eq_ok.mp hstored⟩
    · rw [if_neg hdone] at h
      simp only [bind_eq_ok] at h
      obtain ⟨result', -, result'', hvalid, h⟩ := h
      cases validateTaskResult_ok hvalid
      cases h
      refine ⟨row.complete winner (strip route) now,
        (Inbox.task?_updateTask inbox (strip taskId) (strip taskId) _ _).trans ?_, rfl, rfl⟩
      rw [if_pos rfl, hrow]
      rfl
  · exact fun h => absurd h (by simp)

namespace MCPFirstDreamReasoner

variable {r : MCPFirstDreamReasoner py}

lemma call_ne_retire {phase : ReasonPhase} {event : ReasonEvent py}
    {bound : Option (CallerAuthority py)} {instant before : Instant} {requestIds : List String} :
    r.call phase event ≠ some (.retireFinalizedRuns bound instant requestIds before false) := by
  intro h
  unfold call at h
  split at h <;> cases h

/-- A completed task keeps its outcome in every step. -/
lemma keeps_step {s : ReasonState} {id : String} {row : TaskRow}
    (hrow : s.system.inbox.task? id = some row) (hdone : row.status = .completed)
    (event : ReasonEvent py) :
    ∃ row', (r.step s event).system.inbox.task? id = some row' ∧ row.Keeps row' := by
  simp only [step]
  cases hcall : r.call s.phase event with
  | none => exact ⟨row, hrow, hdone, rfl, rfl⟩
  | some op =>
    rcases completed_step hrow hdone op with hkeep | ⟨bound, instant, ids, before, rfl⟩
    · exact hkeep
    · exact absurd hcall call_ne_retire

lemma keeps_run {s : ReasonState} {id : String} {row : TaskRow}
    (hrow : s.system.inbox.task? id = some row) (hdone : row.status = .completed)
    (events : List (ReasonEvent py)) :
    ∃ row', (r.run s events).system.inbox.task? id = some row' ∧ row.Keeps row' :=
  foldl_invariant
    (I := fun s : ReasonState => ∃ row', s.system.inbox.task? id = some row' ∧ row.Keeps row')
    (fun s event ⟨mid, hmid, hkeeps⟩ => by
      obtain ⟨row', hrow', hkeeps'⟩ := keeps_step (r := r) hmid hkeeps.status event
      exact ⟨row', hrow', hkeeps'.status, hkeeps'.result.trans hkeeps.result,
        hkeeps'.route.trans hkeeps.route⟩)
    ⟨row, hrow, hdone, rfl, rfl⟩ events

/-! ### What the reasoner uses -/

/-- The results in use are those of completed tasks in the inbox. -/
def Recorded (inbox : Inbox) (used : List (ReasoningTask × ReasoningTaskResult)) : Prop :=
  ∀ p ∈ used, ∃ row raw, inbox.task? (strip p.1.taskId) = some row ∧ row.status = .completed ∧
    row.result = some raw ∧ p.2 = parseResult raw

lemma Recorded.step {s : ReasonState} {used : List (ReasoningTask × ReasoningTaskResult)}
    (h : Recorded s.system.inbox used) (event : ReasonEvent py) :
    Recorded (r.step s event).system.inbox used := by
  intro p hp
  obtain ⟨row, raw, hrow, hdone, hraw, heq⟩ := h p hp
  obtain ⟨row', hrow', hkeeps⟩ := keeps_step (r := r) hrow hdone event
  exact ⟨row', raw, hrow', hkeeps.status, hkeeps.result.trans hraw, heq⟩

lemma Recorded.concat {inbox : Inbox} {used : List (ReasoningTask × ReasoningTaskResult)}
    (h : Recorded inbox used) {task : ReasoningTask} {row : TaskRow} {raw : ReasonTaskResult}
    (hrow : inbox.task? (strip task.taskId) = some row) (hdone : row.status = .completed)
    (hraw : row.result = some raw) : Recorded inbox (used ++ [(task, parseResult raw)]) := by
  intro p hp
  rcases List.mem_append.mp hp with hp | hp
  · exact h p hp
  · rw [List.mem_singleton.mp hp]
    exact ⟨row, raw, hrow, hdone, hraw, rfl⟩

variable (r) in
/-- What a step makes of the phase, where it leads from one inbox to another. -/
inductive PhaseStep (inbox inbox' : Inbox) : ReasonPhase → ReasonPhase → Prop
  | stay (phase : ReasonPhase) : PhaseStep inbox inbox' phase phase
  | wait : PhaseStep inbox inbox' .start .polling
  | resolve : PhaseStep inbox inbox' .polling (.resolving [] r.tasks)
  | read (used : List (ReasoningTask × ReasoningTaskResult)) {task : ReasoningTask}
      (rest : List ReasoningTask) {row : TaskRow} {raw : ReasonTaskResult}
      (hrow : inbox.task? (strip task.taskId) = some row) (hdone : row.status = .completed)
      (hraw : row.result = some raw) : PhaseStep inbox inbox' (.resolving used (task :: rest))
        (.resolving (used ++ [(task, parseResult raw)]) rest)
  | fallBack (used : List (ReasoningTask × ReasoningTaskResult)) (task : ReasoningTask)
      (rest : List ReasoningTask) :
      PhaseStep inbox inbox' (.resolving used (task :: rest)) (.fallingBack used task rest)
  | complete (used : List (ReasoningTask × ReasoningTaskResult)) {task : ReasoningTask}
      (rest : List ReasoningTask) {row : TaskRow} {raw : ReasonTaskResult}
      (hrow : inbox'.task? (strip task.taskId) = some row) (hdone : row.status = .completed)
      (hraw : row.result = some raw) : PhaseStep inbox inbox' (.fallingBack used task rest)
        (.resolving (used ++ [(task, parseResult raw)]) rest)
  | assemble {used : List (ReasoningTask × ReasoningTaskResult)} {result : DreamReasoningResult}
      (h : r.multipass.assemble py r.request r.tasks (used.map Prod.snd) = .ok result) :
      PhaseStep inbox inbox' (.resolving used []) (.returned used result)
  | raise (phase : ReasonPhase) (e : Exc) : PhaseStep inbox inbox' phase (.raised e)

lemma taskState_eq_some {bound : Option (CallerAuthority py)} {taskId : String} {inbox : Inbox}
    {row : TaskRow} (h : taskState bound taskId inbox = .ok (some row)) :
    inbox.task? (strip taskId) = some row := by
  unfold taskState at h
  split at h
  · cases h
  · rename_i row' hrow
    obtain ⟨visible, -, h⟩ := bind_eq_ok.mp h
    split_ifs at h
    · cases h
      exact hrow
    · cases h

lemma readTask_step (inbox inbox' : Inbox) (used : List (ReasoningTask × ReasoningTaskResult))
    (task : ReasoningTask) (rest : List ReasoningTask) :
    r.PhaseStep inbox inbox' (.resolving used (task :: rest)) (r.readTask inbox used task rest) := by
  unfold readTask
  split
  · exact .raise _ _
  · exact .raise _ _
  · rename_i row hstate
    split
    · rename_i raw hdone hraw
      exact .read used rest (taskState_eq_some hstate) hdone hraw
    · exact .fallBack used task rest

/-- Every step of the reasoner is one of these. -/
lemma phaseStep_step (s : ReasonState) (event : ReasonEvent py) :
    r.PhaseStep s.system.inbox (r.step s event).system.inbox s.phase (r.step s event).phase := by
  obtain ⟨system, phase⟩ := s
  simp only [step, nextPhase]
  split
  · split
    · exact .wait
    · exact .raise _ _
  · split
    · exact .resolve
    · exact .stay _
    · exact .raise _ _
  · exact .resolve
  · exact readTask_step _ _ _ _ _
  · split
    · rename_i h
      exact .assemble h
    · exact .raise _ _
  · exact .raise _ _
  · rename_i used task rest now result
    split
    · rename_i winner hwinner
      obtain ⟨row, hrow, hdone, hraw⟩ := completeFallback_ok hwinner
      exact .complete used rest hrow hdone hraw
    · exact .raise _ _
  · exact .stay _

variable (r) in
/-- What holds in every phase of a call. -/
def Progress (inbox : Inbox) : ReasonPhase → Prop
  | .resolving used rest        => Recorded inbox used ∧ used.map Prod.fst ++ rest = r.tasks
  | .fallingBack used task rest =>
    Recorded inbox used ∧ used.map Prod.fst ++ task :: rest = r.tasks
  | .returned used result       => Recorded inbox used ∧ used.map Prod.fst = r.tasks ∧
      r.multipass.assemble py r.request r.tasks (used.map Prod.snd) = .ok result
  | _                           => True

lemma Progress.mono {inbox inbox' : Inbox} {phase : ReasonPhase}
    (hkept : ∀ used, Recorded inbox used → Recorded inbox' used) (h : r.Progress inbox phase) :
    r.Progress inbox' phase := by
  cases phase with
  | resolving => exact h.imp_left (hkept _)
  | fallingBack => exact h.imp_left (hkept _)
  | returned => exact h.imp_left (hkept _)
  | _ => trivial

lemma PhaseStep.progress {inbox inbox' : Inbox} {phase phase' : ReasonPhase}
    (hstep : r.PhaseStep inbox inbox' phase phase')
    (hkept : ∀ used, Recorded inbox used → Recorded inbox' used) (h : r.Progress inbox phase) :
    r.Progress inbox' phase' := by
  cases hstep with
  | stay => exact h.mono hkept
  | wait => trivial
  | resolve => exact ⟨fun p hp => (List.not_mem_nil hp).elim, rfl⟩
  | read used rest hrow hdone hraw =>
    exact ⟨hkept _ (h.1.concat hrow hdone hraw), by simpa using h.2⟩
  | fallBack => exact h.mono hkept
  | complete used rest hrow hdone hraw =>
    exact ⟨(hkept _ h.1).concat hrow hdone hraw, by simpa using h.2⟩
  | assemble hassemble => exact ⟨hkept _ h.1, by simpa using h.2, hassemble⟩
  | raise => trivial

lemma progress_run {s : ReasonState} (h : r.Progress s.system.inbox s.phase)
    (events : List (ReasonEvent py)) :
    r.Progress (r.run s events).system.inbox (r.run s events).phase :=
  foldl_invariant
    (I := fun s : ReasonState => r.Progress s.system.inbox s.phase)
    (fun s event h => (phaseStep_step s event).progress (fun _ h => h.step event) h) h events

lemma consistent_run {s : ReasonState} (h : s.system.Consistent) (events : List (ReasonEvent py)) :
    (r.run s events).system.Consistent := by
  refine foldl_invariant (I := fun s : ReasonState => s.system.Consistent) ?_ h events
  intro s event h
  simp only [step]
  cases r.call s.phase event with
  | none => exact h
  | some op => exact h.step op

end MCPFirstDreamReasoner

/-! ### Results and their tasks -/

/-- Distinct tasks answered by results that carry their ids stripped have stripped ids. -/
lemma strip_taskId {used : List (ReasoningTask × ReasoningTaskResult)}
    (hanswer : ∀ p ∈ used, p.2.taskId = strip p.1.taskId)
    (hresults : (used.map fun p => p.2.taskId).Nodup)
    (hids : ∀ p ∈ used, p.2.taskId ∈ used.map fun p => p.1.taskId) :
    ∀ p ∈ used, strip p.1.taskId = p.1.taskId := by
  intro p hp
  obtain ⟨q, hq, heq⟩ := List.mem_map.mp (hids p hp)
  have hsame : p = q := by
    refine List.inj_on_of_nodup_map hresults hp hq ?_
    calc p.2.taskId = strip p.2.taskId := by rw [hanswer p hp, strip_strip]
      _ = q.2.taskId := by rw [hanswer q hq, heq]
  rw [← hanswer p hp, ← heq, ← hsame]

variable (py) in
/-- The inbox has the task completed, with a result that is valid for the task and that the
reasoner reads as the given answer. -/
def Inbox.Agrees (inbox : Inbox) (task : ReasoningTask) (answer : ReasoningTaskResult) : Prop :=
  ∃ row raw, inbox.task? task.taskId = some row ∧ row.status = .completed ∧
    row.result = some raw ∧ answer = parseResult raw ∧ Accepted py task raw

/-- What the assembly accepts of the recorded results agrees with the inbox. -/
lemma agrees_of_assemble {s : InboxSystem} (hcons : s.Consistent)
    {used : List (ReasoningTask × ReasoningTaskResult)}
    (hrecorded : MCPFirstDreamReasoner.Recorded s.inbox used) {reasoner : MultipassDreamReasoner}
    {request : DreamReasoningRequest} {result : DreamReasoningResult}
    (hassemble : reasoner.assemble py request (used.map Prod.fst) (used.map Prod.snd) =
      .ok result) : ∀ p ∈ used, s.inbox.Agrees py p.1 p.2 := by
  obtain ⟨-, hresults, hids, hanswered⟩ :=
    (reasoner.assemble_ok_iff request _ _).mp ⟨result, hassemble⟩
  simp only [List.map_map, Function.comp_def] at hresults hids
  have hanswer : ∀ p ∈ used, p.2.taskId = strip p.1.taskId := by
    intro p hp
    obtain ⟨row, raw, hrow, hdone, hraw, heq⟩ := hrecorded p hp
    obtain ⟨raw', hraw', hid⟩ := (hcons _ row hrow).result hdone
    rw [hraw] at hraw'
    cases hraw'
    rw [heq]
    exact hid.trans (Inbox.taskId_of_task? hrow)
  have hstrip := strip_taskId hanswer hresults fun p hp =>
    (hids _).mpr (List.mem_map_of_mem hp)
  intro p hp
  obtain ⟨row, raw, hrow, hdone, hraw, heq⟩ := hrecorded p hp
  have hid : p.2.taskId = p.1.taskId := (hanswer p hp).trans (hstrip p hp)
  rw [hstrip p hp] at hrow
  refine ⟨row, raw, hrow, hdone, hraw, heq, accepted_iff.mpr ⟨?_, ?_⟩⟩
  · rw [← hid, heq]
    rfl
  · obtain ⟨answer, hfind, hvalid⟩ := hanswered p.1 (List.mem_map_of_mem hp)
    have hnodup : ((used.map Prod.snd).map (·.taskId)).Nodup := by
      simpa only [List.map_map, Function.comp_def] using hresults
    rw [← hid, find?_key_of_mem hnodup (List.mem_map_of_mem hp)] at hfind
    cases hfind
    intro claim hclaim
    have hmem : (⟨claim.claim, claim.evidenceIds, claim.confidence⟩ : ReasoningClaim) ∈
        p.2.claims := by
      rw [heq]
      exact List.mem_map_of_mem hclaim
    exact (hvalid _ hmem).known

/-- The reasoner and the inbox agree: whenever `reason` returns, whatever clients did in between
and do afterwards, it has used one result for each of its tasks, which is the one that the inbox
has; and a task that was completed at any time keeps its result. -/
theorem reasoner_inbox_agree {r : MCPFirstDreamReasoner py} (history : List (InboxOp py))
    (events : List (ReasonEvent py)) {used : List (ReasoningTask × ReasoningTaskResult)}
    {result : DreamReasoningResult} (hreturned :
      (r.run ⟨InboxSystem.run {} history, .start⟩ events).phase = .returned used result) :
    used.map Prod.fst = r.tasks ∧ (r.tasks.map (·.taskId)).Nodup ∧
      r.multipass.assemble py r.request r.tasks (used.map Prod.snd) = .ok result ∧
      (∀ p ∈ used, (r.run ⟨InboxSystem.run {} history, .start⟩ events).system.inbox.Agrees py
        p.1 p.2) ∧
      ∀ done rest, events = done ++ rest → ∀ id row,
        (r.run ⟨InboxSystem.run {} history, .start⟩ done).system.inbox.task? id = some row →
          row.status = .completed → ∃ row',
            (r.run ⟨InboxSystem.run {} history, .start⟩ events).system.inbox.task? id =
              some row' ∧ row.Keeps row' := by
  have hcons : (InboxSystem.run {} history).Consistent :=
    foldl_invariant (I := InboxSystem.Consistent) (fun _ op h => h.step op)
      (fun id row h => absurd h (by simp)) history
  have hprogress := MCPFirstDreamReasoner.progress_run (r := r)
    (s := ⟨InboxSystem.run {} history, .start⟩) trivial events
  rw [hreturned] at hprogress
  obtain ⟨hrecorded, htasks, hassemble⟩ := hprogress
  refine ⟨htasks, r.multipass.nodup_buildTasks py r.request, hassemble, ?_, ?_⟩
  · rw [← htasks] at hassemble
    exact agrees_of_assemble (MCPFirstDreamReasoner.consistent_run hcons events) hrecorded hassemble
  · rintro done rest rfl id row hrow hdone
    rw [MCPFirstDreamReasoner.run, List.foldl_append]
    exact MCPFirstDreamReasoner.keeps_run hrow hdone rest

section Sample

/-- A call that does not wait, on one topic with one piece of evidence. -/
def sampleCall : MCPFirstDreamReasoner Runtime.ascii where
  multipass := sampleReasoner
  waitSeconds := .zero
  request := sampleRequest [sampleEvidence "e1"]

/-- Nobody claims the task, so the fallback answers it. -/
def fallbackEvents : List (ReasonEvent Runtime.ascii) :=
  [.register (.ofMicros 0), .timeout, .read,
    .fallback (.ofMicros 1) (.ok (sampleAnswer "a fact" ["e1"])), .assemble]

/-- The call returns, and agrees with the inbox on its one task. -/
theorem reasoner_inbox_agree_sample : ∃ used result,
    (sampleCall.run ⟨InboxSystem.run {} ([] : List (InboxOp Runtime.ascii)), .start⟩
      fallbackEvents).phase = .returned used result ∧
    used.length = 1 ∧ ∀ p ∈ used, (sampleCall.run
      ⟨InboxSystem.run {} ([] : List (InboxOp Runtime.ascii)), .start⟩
        fallbackEvents).system.inbox.Agrees Runtime.ascii p.1 p.2 := by
  have hcheck : (match (sampleCall.run
      ⟨InboxSystem.run {} ([] : List (InboxOp Runtime.ascii)), .start⟩ fallbackEvents).phase with
      | .returned used _ => used.length = 1
      | _                => false) = true := by
    decide +kernel
  split at hcheck
  · rename_i used result hphase
    exact ⟨used, result, hphase, of_decide_eq_true hcheck,
      (reasoner_inbox_agree [] fallbackEvents hphase).2.2.2.1⟩
  · cases hcheck

end Sample

end CyberBrain.Dreaming
