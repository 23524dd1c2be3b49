import CyberBrain.Foundation.Run
import CyberBrain.Knowledge.Evolution
import CyberBrain.Tenancy.Durable

/-!
# The episodes of a session

A job reads the episodes of its session, reasons over them, and marks the episodes that the session
has in the end. Episodes may be stored in between: these are marked without having been read.
-/

namespace CyberBrain.Dreaming

open Knowledge Python Tenancy

variable {py : Runtime}

/-! ### Event times -/

/-- What event times take from `datetime` and `float`. -/
structure Clock where
  /-- `datetime.fromisoformat`. -/
  fromisoformat : String → Option DateTime
  /-- `datetime.fromtimestamp(seconds, tz=UTC)`. -/
  fromtimestamp : Binary64 → Option Instant
  /-- `float(n)`, which may overflow. -/
  float : ℤ → Option Binary64
  /-- `x / 1000`. -/
  thousandth : Binary64 → Binary64

/-- `value.replace("Z", "+00:00")`. -/
def replaceZulu (value : String) : String :=
  String.ofList (value.toList.flatMap fun c =>
    if c = 'Z' then ['+', '0', '0', ':', '0', '0'] else [c])

/-- The time of a number: seconds, or milliseconds where it is too large for seconds. -/
def Clock.ofNumber (clock : Clock) (x : Binary64) : Option Instant :=
  clock.fromtimestamp (if 10000000000 < x.value then clock.thousandth x else x)

/-- `_event_time`, and `parse_time` of the scheduler. -/
def Clock.eventTime (clock : Clock) : Json → Except Exc (Option Instant)
  | .str s   =>
    match clock.fromisoformat (replaceZulu s) with
    | none   => pure none
    | some d => some <$> orRaise d.instant? (.overflowError "date value out of range")
  | .bool b  => do
    let x ← orRaise (clock.float (if b then 1 else 0))
      (.overflowError "int too large to convert to float")
    pure (clock.ofNumber x)
  | .int i   => do
    let x ← orRaise (clock.float i) (.overflowError "int too large to convert to float")
    pure (clock.ofNumber x)
  | .float x => pure (clock.ofNumber x)
  | _        => pure none

variable (py) in
/-- `str(payload.get(key) or "").strip()`. -/
def fieldText (payload : Fields) (key : String) : String :=
  match (payload key).filter fun v => !isFalsy v with
  | some v => strip (pyStr py v)
  | none   => ""

/-! ### The loader -/

/-- A stored episode: its id and the fields of its payload. -/
structure Episode where
  id : Uuid
  payload : Fields

abbrev Episodes := Table Episode.id

inductive DreamStatus
  | pending
  | processing
  | processed
  | skipped
  | failed
  deriving DecidableEq, Repr

def DreamStatus.text : DreamStatus → String
  | pending    => "pending"
  | processing => "processing"
  | processed  => "processed"
  | skipped    => "skipped"
  | failed     => "failed"

lemma DreamStatus.text_injective : Function.Injective DreamStatus.text := by
  intro a b h
  cases a <;> cases b <;> first | rfl | exact absurd h (by decide)

structure EpisodeSnippet where
  content : String
  eventTime : Instant
  project : Option String := none
  evidenceId : Option String := none

/-- The snippet of an episode, where it is usable. -/
def Episode.snippet (py : Runtime) (clock : Clock) (e : Episode) :
    Except Exc (Option EpisodeSnippet) :=
  let content := fieldText py e.payload "content"
  if content = "" then pure none
  else do
    let time ← clock.eventTime ((e.payload "event_time").getD .null)
    let project := fieldText py e.payload "project"
    pure (time.map fun eventTime =>
      { content, eventTime, project := if project = "" then none else some project
        evidenceId := some e.id.text })

section Loader

variable (bound : Option (CallerAuthority py)) (limit : ℕ) (sessionId : String)

/-- The selectors of a call for a session. -/
def sessionSelector (value : String) : Fields := fun key =>
  if key = "session_id" then some (.str value) else none

/-- The filter of a scroll over a session. -/
def sessionFilter (value : String) : Except Exc Filter := do
  let plan ← enforceOperation bound .backgroundEvidenceRead (sessionSelector value)
  pure (.field (.matchValue "session_id" (.str value)) :: scopeConditions plan)

/-- `PointRepository.scroll`. -/
def Episodes.scroll (episodes : Episodes) (filter : Filter) : List Episode :=
  (episodes.rows.filter fun e => filter.accepts e.payload).take limit

/-- The part of `load` that reads the session. -/
def readSession (episodes : Episodes) : Except Exc (List Episode) := do
  let value := strip sessionId
  require (value ≠ "") (.valueError "session_id must not be empty")
  let filter ← sessionFilter bound value
  pure (episodes.scroll limit filter)

variable (py) in
/-- The part of `load` that turns what was read into evidence. -/
def snippets (clock : Clock) (sessionId : String) (points : List Episode) :
    Except Exc (List EpisodeSnippet) := do
  let found ← points.mapM (·.snippet py clock)
  let usable := found.reduceOption.insertionSort fun a b => a.eventTime ≤ b.eventTime
  require (usable ≠ []) (.valueError ("session " ++ String.ofList (reprStr py (strip sessionId)) ++
    " has no usable episodic evidence"))
  pure usable

/-- `QdrantSessionEpisodeLoader.load`. -/
def load (clock : Clock) (episodes : Episodes) : Except Exc (List EpisodeSnippet) := do
  let points ← readSession bound limit sessionId episodes
  snippets py clock sessionId points

/-- The part of `update_status` that reads the session. -/
def readForUpdate (episodes : Episodes) : Except Exc (List Episode) := do
  let value := strip sessionId
  require (value ≠ "") (.valueError "session_id must not be empty")
  let _ ← enforceOperation bound .memoryWrite (sessionSelector value)
  let filter ← sessionFilter bound value
  let points := episodes.scroll limit filter
  require (points.length < limit) (.valueError ("session " ++
    String.ofList (reprStr py value) ++ " reached episode status update limit " ++ toString limit))
  pure points

end Loader

/-- The arguments of an `update_status`. -/
structure Stamp where
  status : DreamStatus
  dreamRunId : Option String := none
  dreamedAt : Option Instant := none

/-- The payload that `update_status` sets. -/
def Stamp.payload (stamp : Stamp) : Fields := fun key =>
  if key = "dream_status" then some (.str stamp.status.text)
  else if key = "dream_run_id" then stamp.dreamRunId.map .str
  else if key = "dreamed_at" then stamp.dreamedAt.map fun t => .str t.iso
  else none

/-- An episode after `set_payload`. -/
def Episode.set (e : Episode) (payload : Fields) : Episode :=
  { e with payload := fun key => payload key <|> e.payload key }

@[simp] lemma Episode.set_id (e : Episode) (payload : Fields) : (e.set payload).id = e.id := rfl

/-- `PointRepository.set_payload`. -/
def Episodes.setPayload (episodes : Episodes) (id : Uuid) (payload : Fields) : Episodes :=
  episodes.modify id (·.set payload) fun e h => (e.set_id payload).trans h

/-! ### One job -/

/-- Where a job is: before its `load`, reasoning over what it read, in `update_status` with the
episodes still to mark, after a failure, or at its end. -/
inductive JobPhase
  | claimed
  | reasoning
  | marking (stamp : Stamp) (rest : List Uuid)
  | failing (dreamRunId : Option String)
  | finished

/-- The episodes, with a job and the ids that its `load` read. -/
structure DreamedSession where
  episodes : Episodes
  phase : JobPhase := .claimed
  read : List Uuid := []

/-- A step of the job, or a write of `MemoryService.store`. A call of the job may fail or be put
off at any time. -/
inductive JobEvent
  | store (e : Episode)
  | load
  | reasoned (dreamRunId : String) (dreamedAt : Instant)
  | mark
  | fault (dreamRunId : Option String)
  | deferred
  | markFailed

namespace DreamedSession

variable (bound : Option (CallerAuthority py)) (limit : ℕ) (sessionId : String) (clock : Clock)

/-- The state in which `update_status` marks what it read, or in which it raised. -/
def update (s : DreamedSession) (stamp : Stamp) (onError : JobPhase) : DreamedSession :=
  match readForUpdate bound limit sessionId s.episodes with
  | .ok points => { s with phase := .marking stamp (points.map (·.id)) }
  | .error _   => { s with phase := onError }

/-- The state after a step. -/
def step (s : DreamedSession) : JobEvent → DreamedSession
  | .store e => { s with episodes := s.episodes.upsert e }
  | .load    =>
    match s.phase with
    | .claimed =>
      match readSession bound limit sessionId s.episodes with
      | .error _   => { s with phase := .failing none }
      | .ok points =>
        match snippets py clock sessionId points with
        | .ok _    => { s with phase := .reasoning, read := points.map (·.id) }
        | .error _ => { s with phase := .failing none, read := points.map (·.id) }
    | _ => s
  | .reasoned runId dreamedAt =>
    match s.phase with
    | .reasoning =>
      s.update bound limit sessionId ⟨.processed, some runId, some dreamedAt⟩ (.failing (some runId))
    | _ => s
  | .mark =>
    match s.phase with
    | .marking stamp (id :: rest) =>
      { s with episodes := Episodes.setPayload s.episodes id stamp.payload
               phase := .marking stamp rest }
    | .marking _ [] => { s with phase := .finished }
    | _ => s
  | .fault runId =>
    match s.phase with
    | .claimed | .reasoning => { s with phase := .failing runId }
    | .marking stamp _      =>
      -- the handler passes over a failure of its own update
      { s with phase := if stamp.status = .processed then .failing stamp.dreamRunId else .finished }
    | _ => s
  | .deferred =>
    match s.phase with
    | .claimed | .reasoning => { s with phase := .finished }
    | _ => s
  | .markFailed =>
    match s.phase with
    | .failing runId => s.update bound limit sessionId ⟨.failed, runId, none⟩ .finished
    | _ => s

/-- The state after a list of steps. -/
def run (s : DreamedSession) (events : List JobEvent) : DreamedSession :=
  events.foldl (step bound limit sessionId clock) s

/-- The job marks an episode as processed only if it read the episode. -/
def MarksRead (s : DreamedSession) (e : JobEvent) : Prop :=
  e = .mark → ∀ episode ∈ s.episodes.rows,
    ∀ episode' ∈ (s.step bound limit sessionId clock e).episodes.rows, episode'.id = episode.id →
      episode'.payload "dream_status" = some (.str DreamStatus.processed.text) →
        episode.payload "dream_status" = some (.str DreamStatus.processed.text) ∨
          episode.id ∈ s.read

/-- When `update_status` reads the session again, the session has no episode that the job has not
read, or so many that the call refuses to mark them. -/
def NothingLate (s : DreamedSession) (e : JobEvent) : Prop :=
  ∀ runId dreamedAt, e = .reasoned runId dreamedAt → ∀ filter,
    sessionFilter bound (strip sessionId) = .ok filter →
      let found := s.episodes.rows.filter fun p => filter.accepts p.payload
      (∀ p ∈ found, p.id ∈ s.read) ∨ limit ≤ found.length

/-- What the job still marks as processed, it has read. -/
def ReadFirst (s : DreamedSession) : Prop :=
  ∀ stamp rest, s.phase = .marking stamp rest → stamp.status = .processed → ∀ id ∈ rest, id ∈ s.read

variable {bound limit sessionId clock} {s : DreamedSession} {e : JobEvent}

/-- A read for an update returns the whole session. -/
lemma readForUpdate_eq_ok {episodes : Episodes} {points : List Episode}
    (h : readForUpdate bound limit sessionId episodes = .ok points) :
    ∃ filter, sessionFilter bound (strip sessionId) = .ok filter ∧
      points = (episodes.rows.filter fun p => filter.accepts p.payload) ∧ points.length < limit := by
  simp only [readForUpdate, bind_eq_ok, require_eq_ok] at h
  obtain ⟨_, -, _, -, filter, hfilter, _, hlength, h⟩ := h
  cases h
  refine ⟨filter, hfilter, List.take_of_length_le ?_, hlength⟩
  rw [Episodes.scroll, List.length_take] at hlength
  omega

lemma update_readFirst {stamp : Stamp} {onError : JobPhase}
    (hstamp : stamp.status = .processed → ∀ points,
      readForUpdate bound limit sessionId s.episodes = .ok points → ∀ p ∈ points, p.id ∈ s.read)
    (herror : ∀ stamp rest, onError ≠ .marking stamp rest) :
    (s.update bound limit sessionId stamp onError).ReadFirst := by
  unfold update
  cases hread : readForUpdate bound limit sessionId s.episodes with
  | error _ => exact fun stamp rest h => absurd h (herror stamp rest)
  | ok points =>
    rintro _ _ ⟨⟩ hprocessed id hid
    obtain ⟨p, hp, rfl⟩ := List.mem_map.mp hid
    exact hstamp hprocessed points hread p hp

/-- A step after which nothing is being marked. -/
lemma readFirst_of_phase (h : ∀ stamp rest, s.phase ≠ .marking stamp rest) : s.ReadFirst :=
  fun stamp rest hphase => absurd hphase (h stamp rest)

/-- A step keeps the order of reading and marking if no episode is late. -/
lemma ReadFirst.step (h : s.ReadFirst) (hlate : s.NothingLate bound limit sessionId e) :
    (s.step bound limit sessionId clock e).ReadFirst := by
  cases e with
  | store e => exact h
  | load =>
    simp only [DreamedSession.step]
    split
    · split
      · exact readFirst_of_phase (by simp)
      · split <;> exact readFirst_of_phase (by simp)
    · exact h
  | reasoned runId dreamedAt =>
    simp only [DreamedSession.step]
    split
    · refine update_readFirst (fun _ points hread p hp => ?_) (by simp)
      obtain ⟨filter, hfilter, rfl, hlength⟩ := readForUpdate_eq_ok hread
      rcases hlate runId dreamedAt rfl filter hfilter with hall | hle
      · exact hall p hp
      · exact absurd hle (by omega)
    · exact h
  | mark =>
    simp only [DreamedSession.step]
    split
    · rename_i stamp id rest hphase
      rintro _ _ ⟨⟩ hprocessed id' hid'
      exact h stamp (id :: rest) hphase hprocessed id' (List.mem_cons_of_mem _ hid')
    · exact readFirst_of_phase (by simp)
    · exact h
  | fault runId =>
    simp only [DreamedSession.step]
    split
    · exact readFirst_of_phase (by simp)
    · exact readFirst_of_phase (by simp)
    · refine readFirst_of_phase fun stamp rest => ?_
      dsimp only
      split_ifs <;> simp
    · exact h
  | deferred =>
    simp only [DreamedSession.step]
    split
    · exact readFirst_of_phase (by simp)
    · exact readFirst_of_phase (by simp)
    · exact h
  | markFailed =>
    simp only [DreamedSession.step]
    split
    · exact update_readFirst (fun hprocessed => absurd hprocessed (by simp)) (by simp)
    · exact h

/-- What is read before it is marked is marked only if it was read. -/
lemma ReadFirst.marksRead (h : s.ReadFirst) : s.MarksRead bound limit sessionId clock e := by
  rintro rfl episode hepisode episode' hepisode' hid hprocessed
  have hkept : episode' ∈ s.episodes.rows →
      episode.payload "dream_status" = some (.str DreamStatus.processed.text) := fun hmem => by
    rwa [Table.eq_of_key_eq hmem hepisode hid] at hprocessed
  simp only [DreamedSession.step] at hepisode'
  split at hepisode'
  · rename_i stamp id rest hphase
    obtain ⟨before, hbefore, rfl⟩ := List.mem_map.mp hepisode'
    split_ifs at hid hprocessed with hmarked
    · have hstatus : stamp.status = .processed := by
        have hpayload : (before.set stamp.payload).payload "dream_status" =
            some (.str stamp.status.text) := rfl
        rw [hpayload] at hprocessed
        exact DreamStatus.text_injective (Json.str.inj (Option.some.inj hprocessed))
      rw [Episode.set_id, hmarked] at hid
      exact .inr (hid ▸ h stamp (id :: rest) hphase hstatus id List.mem_cons_self)
    · rw [Table.eq_of_key_eq hbefore hepisode hid] at hprocessed
      exact .inl hprocessed
  · exact .inl (hkept hepisode')
  · exact .inl (hkept hepisode')

end DreamedSession

/-- In a run with any number of stores, the job marks as processed only episodes that it read, if
no episode is late when it marks the session. -/
theorem marked_episodes_read (bound : Option (CallerAuthority py)) (limit : ℕ) (sessionId : String)
    (clock : Clock) (episodes : Episodes) (events : List JobEvent)
    (hlate : ∀ done e rest, events = done ++ e :: rest →
      (DreamedSession.run bound limit sessionId clock ⟨episodes, .claimed, []⟩ done).NothingLate
        bound limit sessionId e) :
    ∀ done e rest, events = done ++ e :: rest →
      (DreamedSession.run bound limit sessionId clock ⟨episodes, .claimed, []⟩ done).MarksRead
        bound limit sessionId clock e := by
  intro done e rest heq
  have hinit : (⟨episodes, .claimed, []⟩ : DreamedSession).ReadFirst :=
    DreamedSession.readFirst_of_phase (by simp)
  refine DreamedSession.ReadFirst.marksRead (foldl_of_forall (I := fun _ => True)
    (fun s e _ h => h.step) (fun _ _ _ => trivial) trivial hinit fun done' e' rest' heq' => ?_)
  exact hlate done' e' (rest' ++ e :: rest) (by simp [heq, heq'])

section Sample

/-- An episode of a session on the first day of 1970. -/
def sampleEpisode (n : ℕ) : Episode where
  id := .ofNat n
  payload key :=
    if key = "session_id" then some (.str "session")
    else if key = "content" then some (.str "Routing was changed.")
    else if key = "event_time" then some (.str "1970-01-01T00:00:00Z")
    else if key = "dream_status" then some (.str DreamStatus.pending.text)
    else none

/-- A clock for that day. -/
def sampleClock : Clock where
  fromisoformat _ := some ⟨.ofMicros 62135596800000000, some 0⟩
  fromtimestamp _ := none
  float _ := none
  thousandth x := x

/-- An episode is stored while a job reasons over the first one. -/
def lateEpisode : List JobEvent :=
  [.store (sampleEpisode 1), .load, .store (sampleEpisode 2), .reasoned "run" (.ofMicros 0), .mark]

/-- The state before the job marks the second episode. -/
def lateSession : DreamedSession :=
  .run (some (singleOwner Runtime.ascii)) 1000 "session" sampleClock
    ⟨Table.empty _, .claimed, []⟩ lateEpisode

/-- The status of the second episode. -/
def secondStatus (s : DreamedSession) : Option Scalar := do
  let e ← s.episodes.find? (.ofNat 2)
  let status ← e.payload "dream_status"
  status.scalar?

lemma payload_of_secondStatus (s : DreamedSession) (status : String)
    (h : secondStatus s = some (.str status)) :
    ∃ e ∈ s.episodes.rows, e.id = .ofNat 2 ∧ e.payload "dream_status" = some (.str status) := by
  simp only [secondStatus, Option.bind_eq_bind, Option.bind_eq_some_iff] at h
  obtain ⟨e, he, v, hv, h⟩ := h
  refine ⟨e, Table.mem_of_find? he, Table.key_of_find? he, ?_⟩
  cases v <;> cases h
  exact hv

/-- The job has read the first episode alone, and marks both as processed. -/
theorem late_episode_marked :
    lateSession.read = [.ofNat 1] ∧
      ¬ lateSession.MarksRead (some (singleOwner Runtime.ascii)) 1000 "session" sampleClock .mark := by
  have hread : lateSession.read = [.ofNat 1] := by decide +kernel
  refine ⟨hread, fun hmarks => ?_⟩
  obtain ⟨e, he, hid, hpending⟩ := payload_of_secondStatus lateSession
    DreamStatus.pending.text (by decide +kernel)
  obtain ⟨e', he', hid', hprocessed⟩ := payload_of_secondStatus
    (lateSession.step (some (singleOwner Runtime.ascii)) 1000 "session" sampleClock .mark)
    DreamStatus.processed.text (by decide +kernel)
  rcases hmarks rfl e he e' he' (hid'.trans hid.symm) hprocessed with h | h
  · rw [hpending] at h
    exact absurd (DreamStatus.text_injective (Json.str.inj (Option.some.inj h))) (by decide)
  · rw [hread, hid] at h
    exact absurd h (by decide)

/-- Without the second episode the job marks what it read. -/
theorem single_episode_read :
    (DreamedSession.run (some (singleOwner Runtime.ascii)) 1000 "session" sampleClock
      ⟨Table.empty _, .claimed, []⟩ [.store (sampleEpisode 1), .load,
        .reasoned "run" (.ofMicros 0)]).MarksRead (some (singleOwner Runtime.ascii)) 1000 "session"
      sampleClock .mark := by
  refine marked_episodes_read _ _ _ _ _ [.store (sampleEpisode 1), .load,
    .reasoned "run" (.ofMicros 0), .mark] (fun done e rest heq => ?_) _ _ [] rfl
  rintro runId dreamedAt rfl filter -
  -- the only step of this kind is the third one
  rcases done with _ | ⟨a, _ | ⟨b, _ | ⟨c, _ | ⟨d, done⟩⟩⟩⟩ <;> simp at heq
  obtain ⟨rfl, rfl, -⟩ := heq
  refine .inl fun p hp => ?_
  have hids : (DreamedSession.run (some (singleOwner Runtime.ascii)) 1000 "session" sampleClock
      ⟨Table.empty _, .claimed, []⟩ [.store (sampleEpisode 1), .load]).episodes.rows.map (·.id) =
        (DreamedSession.run (some (singleOwner Runtime.ascii)) 1000 "session" sampleClock
          ⟨Table.empty _, .claimed, []⟩ [.store (sampleEpisode 1), .load]).read := by
    decide +kernel
  exact hids ▸ List.mem_map_of_mem (List.mem_of_mem_filter hp)

end Sample

end CyberBrain.Dreaming
