import CyberBrain.Dreaming.Audit
import CyberBrain.Foundation.Base64
import CyberBrain.Foundation.JsonReading
import CyberBrain.Foundation.Paging
import Mathlib.Data.Prod.Lex

/-!
# Pages of pending reviews

`DreamRunAuditStore.pending_reviews` selects the candidates that wait for a review, in the order of
their creation, run and index; `DreamOperations.pending_reviews` gives every row a cursor, from which
the next call continues. A cursor is the Base64 form of a JSON text. Cursors of more than 1024
characters are refused, so the pages are exact where the JSON texts of all rows have at most 768
bytes.
-/

namespace CyberBrain.Dreaming

open Paging Python Tenancy

variable {py : Runtime}

/-! ### The query -/

/-- What reviews are ordered by: the time of creation, the run and the index. -/
abbrev ReviewKey := String ×ₗ String ×ₗ ℤ

/-- `(d.created_at, d.dream_run_id, d.candidate_index)`. -/
def DecisionRow.reviewKey (d : DecisionRow) : ReviewKey :=
  toLex (d.createdAt.iso, toLex (d.key.1, d.key.2))

/-- The projects of the evidence that the candidate cites. -/
def evidenceProjects (render : Json → String) (run : DreamRunRow) (d : DecisionRow) :
    List Sql.Value :=
  ((run.request.evidenceByTopic.flatMap Prod.snd).filter (·.id ∈ d.evidenceIds)).map fun e =>
    ((e.metadata.lookup "project").map (Sql.ofJson render)).getD .null

/-- The project that the query infers: that of all the evidence, or else that of the context. -/
def inferredProject (render : Json → String) (run : DreamRunRow) (d : DecisionRow) : Sql.Value :=
  if 0 < d.evidenceIds.length then
    let projects := evidenceProjects render run d
    let known := projects.filter (· ≠ .null)
    if 0 < projects.length ∧ known.length = projects.length ∧ known.dedup.length = 1 then
      -- the least of equal values
      known.head?.getD .null
    else .null
  else
    -- a candidate has no project besides that of its context
    ((d.candidate.context.lookup "project").map (Sql.ofJson render)).getD .null

namespace AuditStore

variable (render : Json → String) (bound : Option (CallerAuthority py))

/-- The decisions joined with their runs. -/
def joined (store : AuditStore) : List (DecisionRow × DreamRunRow) :=
  store.decisions.rows.filterMap fun d => (store.runs.find? d.key.1).map fun run => (d, run)

/-- The candidate waits for a review, in the project if one is given. -/
def isPending (project : Option String) (store : AuditStore) (row : DecisionRow × DreamRunRow) :
    Bool :=
  row.1.decision = .review ∧ (store.reviews.find? row.1.key).isNone ∧
    project.all fun p => (inferredProject render row.2 row.1).eq (.text p) = some true

/-- The columns of the run that the clauses about its snapshot read. -/
def authorityColumn (run : DreamRunRow) (column : String) : Option Json :=
  if column = "a.authority_json" then run.authority else none

/-- The rows whose snapshot the caller sees. -/
def visibleRows : List (DecisionRow × DreamRunRow) → Except Exc (List DecisionRow)
  | []              => pure []
  | (d, run) :: rows => do
    let visible ← snapshotVisible bound run.authority
    let rest ← visibleRows rows
    pure (if visible then d :: rest else rest)

/-- `pending_reviews` of the store. -/
def pendingReviews (limit : ℤ) (after : Option ReviewKey) (project : Option String)
    (store : AuditStore) : Except Exc (List DecisionRow) := do
  require (1 ≤ limit ∧ limit ≤ 500) (.valueError "limit must be between 1 and 500")
  let clauses ← snapshotSqlFilter bound "a.authority_json"
  let rows := store.joined.filter fun row =>
    store.isPending render project row && isAfter (DecisionRow.reviewKey ·.1) after row &&
      satisfies clauses render (authorityColumn row.2)
  visibleRows bound ((sortRows (DecisionRow.reviewKey ·.1) rows).take limit.toNat)

end AuditStore

/-! ### Cursors -/

/-- `json.dumps([created_at, dream_run_id, candidate_index], separators=(",", ":"))`. -/
def cursorJson (key : ReviewKey) : String :=
  String.ofList ('[' :: (asciiQuoted (ofLex key).1 ++ ',' ::
    (asciiQuoted (ofLex (ofLex key).2).1 ++ ',' :: (reprInt (ofLex (ofLex key).2).2 ++ [']']))))

/-- The cursor of a row. -/
def reviewCursor (key : ReviewKey) : String :=
  String.ofList (Base64.encode (cursorJson key).toUTF8.data.toList)

/-- `json.loads` of a text that is a list of two strings and an integer. -/
def readCursorJson (text : String) : Option ReviewKey := do
  let cs ← readMark '[' text.toList
  let (createdAt, cs) ← readQuoted (skipSpaces cs)
  let cs ← readMark ',' cs
  let (runId, cs) ← readQuoted (skipSpaces cs)
  let cs ← readMark ',' cs
  let (index, cs) ← readInt (skipSpaces cs)
  let cs ← readMark ']' cs
  if skipSpaces cs = [] then some (toLex (createdAt, toLex (runId, index))) else none

section Operations

variable (fromisoformat : String → Option DateTime)

/-- The key that a cursor stands for. -/
def readCursor (cursor : String) : Option ReviewKey := do
  let bytes ← if 1 ≤ cursor.length ∧ cursor.length ≤ 1024 then Base64.decode cursor.toList else none
  let text ← String.fromUTF8? ⟨bytes.toArray⟩
  let key ← readCursorJson text
  let created ← fromisoformat (ofLex key).1
  if (ofLex (ofLex key).2).1 ≠ "" ∧ 0 ≤ (ofLex (ofLex key).2).2 ∧ created.offset.isSome then
    some key
  else none

/-- What a page comes after. -/
def readAfter : Option String → Except Exc (Option ReviewKey)
  | none        => pure none
  | some cursor =>
    some <$> orRaise (readCursor fromisoformat cursor) (.valueError "invalid review cursor")

/-- A row of `pending_reviews` with its cursor. -/
structure ReviewItem where
  row : DecisionRow
  reviewCursor : String

/-- The row with its cursor. -/
def DecisionRow.reviewItem (d : DecisionRow) : ReviewItem := ⟨d, reviewCursor d.reviewKey⟩

@[simp] lemma DecisionRow.reviewCursor_reviewItem (d : DecisionRow) :
    d.reviewItem.reviewCursor = Dreaming.reviewCursor d.reviewKey := rfl

@[simp] lemma DecisionRow.row_reviewItem (d : DecisionRow) : d.reviewItem.row = d := rfl

/-- `pending_reviews` of `DreamOperations`. -/
def DreamOperations.pendingReviews (render : Json → String) (bound : Option (CallerAuthority py))
    (store : AuditStore) (project : Option String) (limit : ℤ) (cursor : Option String) :
    Except Exc (List ReviewItem) := do
  require (1 ≤ limit ∧ limit ≤ 500) (.valueError "limit must be between 1 and 500")
  let after ← readAfter fromisoformat cursor
  let rows ← store.pendingReviews render bound limit after project
  pure (rows.map DecisionRow.reviewItem)

end Operations

/-! ### Cursors are read back -/

lemma readCursorJson_cursorJson (key : ReviewKey) : readCursorJson (cursorJson key) = some key := by
  obtain ⟨createdAt, runId, index⟩ := key
  simp only [readCursorJson, cursorJson, String.toList_ofList]
  rw [readMark_self (by decide)]
  simp only [Option.bind_eq_bind, Option.bind_some]
  rw [skipSpaces_asciiQuoted, readQuoted_asciiQuoted]
  simp only [Option.bind_some]
  rw [readMark_self (by decide)]
  simp only [Option.bind_some]
  rw [skipSpaces_asciiQuoted, readQuoted_asciiQuoted]
  simp only [Option.bind_some]
  rw [readMark_self (by decide)]
  simp only [Option.bind_some]
  rw [skipSpaces_reprInt, readInt_reprInt _ (by simp)]
  simp only [Option.bind_some]
  rw [readMark_self (by decide)]
  rfl

lemma fromUTF8_toUTF8 (s : String) : String.fromUTF8? ⟨s.toUTF8.data.toList.toArray⟩ = some s := by
  rw [Array.toArray_toList, String.fromUTF8?]
  exact dif_pos s.isValidUTF8

lemma length_reviewCursor (key : ReviewKey) :
    (reviewCursor key).length = ((cursorJson key).utf8ByteSize + 2) / 3 * 4 := by
  rw [reviewCursor, String.length_ofList, Base64.length_encode]
  rfl

/-- `fromisoformat` reads what `isoformat` prints of a time in UTC. -/
def ReadsIso (fromisoformat : String → Option DateTime) : Prop :=
  ∀ a : Instant, ∃ d, fromisoformat a.iso = some d ∧ d.offset.isSome

/-- The row has a run id, its index is not negative, and the JSON text of its cursor has at most 768
bytes. -/
structure DecisionRow.FitsCursor (d : DecisionRow) : Prop where
  runId : d.key.1 ≠ ""
  index : 0 ≤ d.key.2
  size : (cursorJson d.reviewKey).utf8ByteSize ≤ 768

variable {fromisoformat : String → Option DateTime}

/-- Cursors that are too long are refused. -/
lemma readCursor_eq_none {key : ReviewKey} (hsize : 768 < (cursorJson key).utf8ByteSize) :
    readCursor fromisoformat (reviewCursor key) = none := by
  have hlength := length_reviewCursor key
  unfold readCursor
  rw [if_neg (by omega)]
  rfl

/-- The cursors that are accepted, and stand for their row. -/
lemma readCursor_reviewCursor (hiso : ReadsIso fromisoformat) (d : DecisionRow) :
    readCursor fromisoformat (reviewCursor d.reviewKey) = some d.reviewKey ↔ d.FitsCursor := by
  have hpos : 0 < (cursorJson d.reviewKey).utf8ByteSize := by
    rw [Nat.pos_iff_ne_zero, Ne, String.utf8ByteSize_eq_zero_iff]
    intro h
    have hlist := congrArg String.toList h
    rw [cursorJson, String.toList_ofList] at hlist
    cases hlist
  have hlength := length_reviewCursor d.reviewKey
  obtain ⟨created, hcreated, hoffset⟩ := hiso d.createdAt
  unfold readCursor
  by_cases hsize : (cursorJson d.reviewKey).utf8ByteSize ≤ 768
  · have hdecode : Base64.decode (reviewCursor d.reviewKey).toList =
        some (cursorJson d.reviewKey).toUTF8.data.toList := by
      rw [reviewCursor, String.toList_ofList, Base64.decode_encode]
    rw [if_pos (by omega), hdecode]
    simp only [Option.bind_eq_bind, Option.bind_some, fromUTF8_toUTF8, readCursorJson_cursorJson]
    rw [show (ofLex d.reviewKey).1 = d.createdAt.iso from rfl, hcreated]
    simp only [Option.bind_some, hoffset, and_true]
    constructor
    · intro h
      obtain ⟨hrun, hindex⟩ := (Option.ite_none_right_eq_some.mp h).1
      exact ⟨hrun, hindex, hsize⟩
    · intro h
      exact if_pos ⟨h.runId, h.index⟩
  · rw [if_neg (by omega)]
    exact iff_of_false (Option.some_ne_none _).symm fun h => hsize h.size

lemma utf8ByteSize_cursorJson (key : ReviewKey) :
    (cursorJson key).utf8ByteSize = (asciiQuoted (ofLex key).1).length +
      (asciiQuoted (ofLex (ofLex key).2).1).length + (reprInt (ofLex (ofLex key).2).2).length +
        4 := by
  rw [cursorJson, utf8ByteSize_of_ascii]
  · simp only [List.length_cons, List.length_append, List.length_nil]
    omega
  · have hint : ∀ c ∈ reprInt (ofLex (ofLex key).2).2, c.toNat < 128 := by
      intro c hc
      rcases reprInt_chars hc with hdigit | rfl
      · simp only [Char.isDigit, Bool.and_eq_true, decide_eq_true_eq, ge_iff_le,
          UInt32.le_iff_toNat_le] at hdigit
        exact lt_of_le_of_lt hdigit.2 (by decide)
      · decide
    intro c hc
    simp only [List.mem_cons, List.mem_append, List.not_mem_nil, or_false] at hc
    rcases hc with rfl | hc | rfl | hc | rfl | hc | rfl
    · decide
    · exact asciiQuoted_ascii hc
    · decide
    · exact asciiQuoted_ascii hc
    · decide
    · exact hint c hc
    · decide

lemma iso_plain (a : Instant) : ∀ c ∈ a.iso.toList, IsPlain c := by
  have hdigit : ∀ m < 10, IsPlain (Nat.digitChar m) := by decide
  have hdigits (width n : ℕ) : (∀ c ∈ fixedDigits 10 width n, IsPlain c) ↔ True := by
    refine iff_true_intro fun c hc => ?_
    obtain ⟨m, hm, rfl⟩ := exists_of_mem_fixedDigits (by decide) hc
    exact hdigit m hm
  have hmarks : IsPlain '-' ∧ IsPlain 'T' ∧ IsPlain ':' ∧ IsPlain '.' ∧ IsPlain '+' ∧
      IsPlain '0' := by decide
  simp only [Instant.iso, Instant.isoChars, String.toList_ofList, List.forall_mem_append,
    List.forall_mem_cons, hdigits, hmarks, true_and, and_true]
  split_ifs <;> simp [hdigits, hmarks]

lemma length_iso_le (a : Instant) : a.iso.length ≤ 32 := by
  simp only [Instant.iso, Instant.isoChars, String.length_ofList, List.length_append,
    List.length_cons, List.length_nil, length_fixedDigits]
  split_ifs <;> simp

/-- Plain run ids of at most 512 characters, such as UUIDs, never stop the pages: the database has no
index of more than 19 digits. -/
theorem DecisionRow.fitsCursor_of_plain {d : DecisionRow} (hrun : d.key.1 ≠ "")
    (hlength : d.key.1.length ≤ 512) (hplain : ∀ c ∈ d.key.1.toList, IsPlain c)
    (hindex : 0 ≤ d.key.2) (hdigits : d.key.2 < 2 ^ 63) : d.FitsCursor := by
  refine ⟨hrun, hindex, ?_⟩
  have hiso : (asciiQuoted d.createdAt.iso).length ≤ 34 := by
    rw [length_asciiQuoted_plain (iso_plain _)]
    have := length_iso_le d.createdAt
    omega
  have hid := length_asciiQuoted_plain hplain
  have hint : (reprInt d.key.2).length ≤ 19 := by
    rw [reprInt, if_neg (by omega), Nat.length_toDigits_le_iff (by decide) (by decide)]
    omega
  rw [utf8ByteSize_cursorJson]
  change (asciiQuoted d.createdAt.iso).length + (asciiQuoted d.key.1).length +
    (reprInt d.key.2).length + 4 ≤ 768
  omega

/-! ### Snapshots -/

namespace AuditStore

/-- A run without a snapshot is older than snapshots; every other snapshot was taken of the caller
that was bound, or of the single owner. -/
def Snapshotted (py : Runtime) (store : AuditStore) : Prop :=
  ∀ run ∈ store.runs.rows, run.authority = none ∨ ∃ context : Option (CallerAuthority py),
    (∀ a, context = some a → a.Authenticated) ∧ run.authority = some (authoritySnapshot context)

section Snapshots

variable {bound : Option (CallerAuthority py)} {runId : String} {now : Instant}
  {store store' : AuditStore}

lemma Snapshotted.of_runs (h : store.Snapshotted py)
    (hruns : ∀ run ∈ store'.runs.rows, ∃ row ∈ store.runs.rows, row.authority = run.authority) :
    store'.Snapshotted py := by
  intro run hrun
  obtain ⟨row, hrow, hauthority⟩ := hruns run hrun
  rw [← hauthority]
  exact h row hrow

/-- A run that is started has the snapshot of the caller. -/
lemma Snapshotted.insertRun (h : store.Snapshotted py)
    (hbound : ∀ a, bound = some a → a.Authenticated) {request : DreamReasoningRequest}
    (hinsert : insertRun bound runId now request store = .ok store') : store'.Snapshotted py := by
  unfold AuditStore.insertRun at hinsert
  split_ifs at hinsert with hrequest hid <;> cases hinsert
  · exact h
  · intro run hrun
    rw [Option.not_isSome_iff_eq_none] at hid
    rcases (Table.mem_upsert_of_fresh hid).mp hrun with rfl | hrun
    · exact .inr ⟨bound, hbound, rfl⟩
    · exact h run hrun

/-- The calls that write to the audit. -/
inductive Call (py : Runtime)
  | start (bound : Option (CallerAuthority py)) (runId : String) (now : Instant)
      (request : DreamReasoningRequest)
  | complete (bound : Option (CallerAuthority py)) (runId : String) (now : Instant)
      (result : DreamReasoningResult) (gate : DreamGateResult)
  | markFailed (bound : Option (CallerAuthority py)) (runId : String) (now : Instant)
  | recordWrite (bound : Option (CallerAuthority py)) (runId : String) (index : ℤ) (now : Instant)
      (result : DreamWriteResult)
  | insertReview (runId : String) (index : ℤ) (now : Instant) (resolution reviewer : String)
      (reason : Option String)

/-- The store after a call. -/
def Call.apply : Call py → AuditStore → AuditStore
  | .start bound runId now request, store => (AuditStore.start bound runId now request store).2
  | .complete bound runId now result gate, store =>
    (AuditStore.complete bound runId now result gate store).2
  | .markFailed bound runId now, store => (AuditStore.markFailed bound runId now store).2
  | .recordWrite bound runId index now result, store =>
    (AuditStore.recordWrite bound runId index now result store).2
  | .insertReview runId index now resolution reviewer reason, store =>
    (AuditStore.insertReview runId index now resolution reviewer reason store).2

/-- Runs are started by authenticated callers, and where there are no callers. -/
def Call.Authenticated : Call py → Prop
  | .start bound .. => ∀ a, bound = some a → a.Authenticated
  | _               => True

lemma Snapshotted.atomically (h : store.Snapshotted py) {α : Type*}
    {body : AuditStore → Except Exc (α × AuditStore)}
    (hbody : ∀ a store', body store = .ok (a, store') → store'.Snapshotted py) :
    (Program.atomically body store).2.Snapshotted py := by
  unfold Program.atomically
  split
  case h_1 a store' heq => exact hbody a store' heq
  case h_2 => exact h

lemma Snapshotted.apply (h : store.Snapshotted py) {call : Call py} (hcall : call.Authenticated) :
    (call.apply store).Snapshotted py := by
  cases call with
  | start bound runId now request =>
    simp only [Call.apply, AuditStore.start]
    split
    case h_1 => exact h
    case h_2 hinsert => exact h.insertRun hcall hinsert
  | complete bound runId now result gate =>
    refine h.atomically fun _ store' hok => ?_
    obtain ⟨_, -, hok⟩ := bind_eq_ok.mp hok
    obtain ⟨_, -, hok⟩ := bind_eq_ok.mp hok
    cases hok
    refine h.of_runs fun run hrun => ?_
    obtain ⟨row, hrow, rfl⟩ := List.mem_map.mp hrun
    exact ⟨row, hrow, by split_ifs <;> rfl⟩
  | markFailed bound runId now =>
    refine h.atomically fun _ store' hok => ?_
    obtain ⟨_, -, hok⟩ := bind_eq_ok.mp hok
    cases hok
    refine h.of_runs fun run hrun => ?_
    obtain ⟨row, hrow, rfl⟩ := List.mem_map.mp hrun
    exact ⟨row, hrow, by split_ifs <;> rfl⟩
  | recordWrite bound runId index now result =>
    refine h.atomically fun _ store' hok => ?_
    obtain ⟨_, -, hok⟩ := bind_eq_ok.mp hok
    cases hok
    exact h.of_runs fun run hrun => ⟨run, hrun, rfl⟩
  | insertReview runId index now resolution reviewer reason =>
    refine h.atomically fun _ store' hok => ?_
    obtain ⟨_, -, hok⟩ := bind_eq_ok.mp hok
    cases hok
    exact h.of_runs fun run hrun => ⟨run, hrun, rfl⟩

/-- Whatever is called, the snapshots are of authenticated callers. -/
theorem Snapshotted.calls (h : store.Snapshotted py) {calls : List (Call py)}
    (hcalls : ∀ call ∈ calls, call.Authenticated) :
    (calls.foldl (fun store call => call.apply store) store).Snapshotted py := by
  induction calls generalizing store with
  | nil => exact h
  | cons call calls ih =>
    rw [List.forall_mem_cons] at hcalls
    exact ih (h.apply hcalls.1) hcalls.2

end Snapshots

end AuditStore

/-! ### Pages -/

section Pages

variable (fromisoformat) (render : Json → String) (bound : Option (CallerAuthority py))
  (store : AuditStore) (project : Option String)

/-- A candidate that waits for a review, in a run that the caller sees. -/
structure PendingReview (d : DecisionRow) : Prop where
  mem : d ∈ store.decisions.rows
  review : d.decision = .review
  unresolved : store.reviews.find? d.key = none
  run : ∃ run, store.runs.find? d.key.1 = some run ∧
    snapshotVisible bound run.authority = .ok true ∧
      ∀ p ∈ project, (inferredProject render run d).eq (.text p) = some true

/-- The rows are the pending reviews, each once, in order. -/
structure EnumeratesReviews (rows : List DecisionRow) : Prop where
  ordered : rows.Pairwise fun d d' => d.reviewKey < d'.reviewKey
  mem_iff : ∀ d, d ∈ rows ↔ PendingReview render bound store project d

def ValidLimit (limit : ℤ) : Prop := 1 ≤ limit ∧ limit ≤ 500

/-- Whatever the limits, the pages enumerate the pending reviews, and each cursor is accepted and
stands for its row. -/
def PagesExact : Prop :=
  ∀ limits : ℕ → ℤ, (∀ i, ValidLimit (limits i)) →
    ∃ pages, Pages (DreamOperations.pendingReviews fromisoformat render bound store project)
        ReviewItem.reviewCursor limits none pages ∧
      EnumeratesReviews render bound store project (pages.flatten.map (·.row)) ∧
      ∀ item ∈ pages.flatten,
        readCursor fromisoformat item.reviewCursor = some item.row.reviewKey ∧
          ∀ limit, ValidLimit limit → ∃ page,
            DreamOperations.pendingReviews fromisoformat render bound store project limit
              (some item.reviewCursor) = .ok page

/-- The rows that the query selects, in order. -/
def selectedRows (clauses : List SnapshotClause) : List (DecisionRow × DreamRunRow) :=
  sortRows (DecisionRow.reviewKey ·.1) (store.joined.filter fun row =>
    store.isPending render project row &&
      satisfies clauses render (AuditStore.authorityColumn row.2))

variable {fromisoformat render bound store project}

lemma mem_joined {d : DecisionRow} {run : DreamRunRow} :
    (d, run) ∈ store.joined ↔
      d ∈ store.decisions.rows ∧ store.runs.find? d.key.1 = some run := by
  simp only [AuditStore.joined, List.mem_filterMap, Option.map_eq_some_iff, Prod.mk.injEq]
  constructor
  · rintro ⟨d, hd, run, hrun, rfl, rfl⟩
    exact ⟨hd, hrun⟩
  · rintro ⟨hd, hrun⟩
    exact ⟨d, hd, run, hrun, rfl, rfl⟩

lemma key_eq_of_reviewKey {d d' : DecisionRow} (h : d.reviewKey = d'.reviewKey) :
    d.key = d'.key := by
  have hkey := congrArg ofLex (congrArg Prod.snd (congrArg ofLex h))
  exact Prod.ext (congrArg Prod.fst hkey) (congrArg Prod.snd hkey)

/-- No two decisions have one key to order by. -/
lemma nodup_joined : (store.joined.map (DecisionRow.reviewKey ·.1)).Nodup := by
  refine List.pairwise_map.mpr (List.pairwise_filterMap.mpr ?_)
  refine (List.pairwise_map.mp store.decisions.nodup).imp ?_
  intro d d' hne row hrow row' hrow' heq
  obtain ⟨run, -, rfl⟩ := Option.map_eq_some_iff.mp hrow
  obtain ⟨run', -, rfl⟩ := Option.map_eq_some_iff.mp hrow'
  exact hne (key_eq_of_reviewKey heq)

/-- The query and the check in process see the same runs. -/
lemma satisfies_iff (hstore : store.Snapshotted py) {clauses : List SnapshotClause}
    (hclauses : snapshotSqlFilter bound "a.authority_json" = .ok clauses) {run : DreamRunRow}
    (hrun : run ∈ store.runs.rows) :
    satisfies clauses render (AuditStore.authorityColumn run) = true ↔
      snapshotVisible bound run.authority = .ok true := by
  obtain ⟨context, hcontext, hauthority⟩ : ∃ context : Option (CallerAuthority py),
      (∀ a, context = some a → a.Authenticated) ∧
        (run.authority = none ∨ run.authority = some (authoritySnapshot context)) := by
    rcases hstore run hrun with hnone | ⟨context, hcontext, hsome⟩
    · exact ⟨none, nofun, .inl hnone⟩
    · exact ⟨context, hcontext, .inr hsome⟩
  exact @satisfies_snapshotSqlFilter_iff py bound "a.authority_json" clauses hclauses context none
    (by simpa using hcontext) run.authority hauthority (AuditStore.authorityColumn run) rfl render

lemma visibleRows_eq {rows : List (DecisionRow × DreamRunRow)}
    (h : ∀ row ∈ rows, snapshotVisible bound row.2.authority = .ok true) :
    AuditStore.visibleRows bound rows = .ok (rows.map (·.1)) := by
  induction rows with
  | nil => rfl
  | cons row rows ih =>
    rw [List.forall_mem_cons] at h
    exact bind_eq_ok.mpr ⟨true, h.1, bind_eq_ok.mpr ⟨_, ih h.2, rfl⟩⟩

lemma isPending_iff {d : DecisionRow} {run : DreamRunRow} :
    store.isPending render project (d, run) = true ↔
      d.decision = .review ∧ store.reviews.find? d.key = none ∧
        ∀ p ∈ project, (inferredProject render run d).eq (.text p) = some true := by
  simp [AuditStore.isPending, Option.all_eq_true]

lemma mem_selectedRows {clauses : List SnapshotClause} {d : DecisionRow} {run : DreamRunRow} :
    (d, run) ∈ selectedRows render store project clauses ↔
      (d ∈ store.decisions.rows ∧ store.runs.find? d.key.1 = some run) ∧
        store.isPending render project (d, run) = true ∧
          satisfies clauses render (AuditStore.authorityColumn run) = true := by
  rw [selectedRows, (sortRows_perm _ _).mem_iff, List.mem_filter, mem_joined, Bool.and_eq_true]

/-- The query selects the pending reviews. -/
lemma enumerates_selectedRows (hstore : store.Snapshotted py) {clauses : List SnapshotClause}
    (hclauses : snapshotSqlFilter bound "a.authority_json" = .ok clauses) :
    EnumeratesReviews render bound store project
      ((selectedRows render store project clauses).map (·.1)) where
  ordered := List.pairwise_map.mpr
    (pairwise_sortRows (nodup_joined.sublist (List.filter_sublist.map _)))
  mem_iff d := by
    rw [List.mem_map]
    constructor
    · rintro ⟨⟨d, run⟩, hrow, rfl⟩
      obtain ⟨⟨hd, hrun⟩, hpending, hsatisfies⟩ := mem_selectedRows.mp hrow
      obtain ⟨hreview, hunresolved, hproject⟩ := isPending_iff.mp hpending
      exact ⟨hd, hreview, hunresolved, run, hrun,
        (satisfies_iff hstore hclauses (Table.mem_of_find? hrun)).mp hsatisfies, hproject⟩
    · rintro ⟨hd, hreview, hunresolved, run, hrun, hvisible, hproject⟩
      exact ⟨(d, run), mem_selectedRows.mpr ⟨⟨hd, hrun⟩,
        isPending_iff.mpr ⟨hreview, hunresolved, hproject⟩,
        (satisfies_iff hstore hclauses (Table.mem_of_find? hrun)).mpr hvisible⟩, rfl⟩

/-- A page has the first of the selected rows that come after a key. -/
lemma pendingReviews_eq (hstore : store.Snapshotted py) {clauses : List SnapshotClause}
    (hclauses : snapshotSqlFilter bound "a.authority_json" = .ok clauses) {limit : ℤ}
    (hlimit : ValidLimit limit) (after : Option ReviewKey) :
    store.pendingReviews render bound limit after project =
      .ok ((((selectedRows render store project clauses).filter
        (isAfter (DecisionRow.reviewKey ·.1) after)).take limit.toNat).map (·.1)) := by
  have hrows : sortRows (DecisionRow.reviewKey ·.1) (store.joined.filter fun row =>
      store.isPending render project row && isAfter (DecisionRow.reviewKey ·.1) after row &&
        satisfies clauses render (AuditStore.authorityColumn row.2)) =
      (selectedRows render store project clauses).filter
        (isAfter (DecisionRow.reviewKey ·.1) after) := by
    rw [selectedRows, ← sortRows_filter (nodup_joined.sublist (List.filter_sublist.map _)),
      List.filter_filter]
    congr 2
    funext row
    rw [Bool.and_right_comm, Bool.and_comm]
  unfold AuditStore.pendingReviews
  refine bind_eq_ok.mpr ⟨(), require_eq_ok.mpr hlimit, bind_eq_ok.mpr ⟨clauses, hclauses, ?_⟩⟩
  dsimp only
  rw [hrows]
  refine visibleRows_eq fun row hrow => ?_
  obtain ⟨⟨-, hrun⟩, -, hsatisfies⟩ := mem_selectedRows.mp
    (List.mem_of_mem_filter (List.mem_of_mem_take hrow))
  exact (satisfies_iff hstore hclauses (Table.mem_of_find? hrun)).mp hsatisfies

variable (render project) in
/-- The page after a row whose cursor is accepted. -/
lemma fetch_eq (hiso : ReadsIso fromisoformat) (hstore : store.Snapshotted py)
    {clauses : List SnapshotClause}
    (hclauses : snapshotSqlFilter bound "a.authority_json" = .ok clauses) {limit : ℤ}
    (hlimit : ValidLimit limit) {row : Option DecisionRow} (hrow : ∀ d ∈ row, d.FitsCursor) :
    DreamOperations.pendingReviews fromisoformat render bound store project limit
        (row.map fun d => reviewCursor d.reviewKey) =
      .ok ((((selectedRows render store project clauses).filter
        (isAfter (DecisionRow.reviewKey ·.1) (row.map DecisionRow.reviewKey))).take
          limit.toNat).map fun r => r.1.reviewItem) := by
  unfold DreamOperations.pendingReviews
  refine bind_eq_ok.mpr ⟨(), require_eq_ok.mpr hlimit,
    bind_eq_ok.mpr ⟨row.map DecisionRow.reviewKey, ?_, bind_eq_ok.mpr
      ⟨_, pendingReviews_eq hstore hclauses hlimit _, ?_⟩⟩⟩
  · cases row with
    | none => rfl
    | some d =>
      have hread := (readCursor_reviewCursor hiso d).mpr (hrow d rfl)
      rw [Option.map_some, readAfter, hread]
      rfl
  · rw [List.map_map]
    rfl

variable (bound) in
lemma exists_clauses : ∃ clauses, snapshotSqlFilter bound "a.authority_json" = .ok clauses := by
  unfold snapshotSqlFilter
  rw [if_neg (by decide)]
  cases bound <;> exact ⟨_, rfl⟩

/-- Where every cursor is accepted, the page behind some of the selected rows has the next ones. -/
lemma fetch_behind (hiso : ReadsIso fromisoformat) (hstore : store.Snapshotted py)
    {clauses : List SnapshotClause}
    (hclauses : snapshotSqlFilter bound "a.authority_json" = .ok clauses)
    (hfits : ∀ row ∈ selectedRows render store project clauses, row.1.FitsCursor) {limit : ℤ}
    (hlimit : ValidLimit limit) {done rest : List ReviewItem}
    (hrows : done ++ rest =
      (selectedRows render store project clauses).map fun r => r.1.reviewItem) :
    DreamOperations.pendingReviews fromisoformat render bound store project limit
      (done.getLast?.map ReviewItem.reviewCursor) = .ok (rest.take limit.toNat) := by
  obtain ⟨done, rest, hselected, rfl, rfl⟩ := List.map_eq_append_iff.mp hrows.symm
  have hsorted : (done ++ rest).Pairwise fun r r' => r.1.reviewKey < r'.1.reviewKey := by
    rw [← hselected]
    exact pairwise_sortRows (nodup_joined.sublist (List.filter_sublist.map _))
  have hlast : ∀ d ∈ done.getLast?.map (·.1), d.FitsCursor := by
    intro d hd
    obtain ⟨row, hrow, rfl⟩ := Option.map_eq_some_iff.mp hd
    refine hfits row ?_
    rw [hselected]
    exact List.mem_append_left rest (List.mem_of_getLast? hrow)
  have hpage := fetch_eq render project hiso hstore hclauses hlimit hlast
  rw [hselected, Option.map_map, Option.map_map] at hpage
  have hafter : (done ++ rest).filter (isAfter (fun r : DecisionRow × DreamRunRow => r.1.reviewKey)
      (done.getLast?.map (DecisionRow.reviewKey ∘ fun r => r.1))) = rest := filter_isAfter hsorted
  rw [hafter, List.map_take] at hpage
  simpa only [List.getLast?_map, Option.map_map, Function.comp_def,
    DecisionRow.reviewCursor_reviewItem] using hpage

/-- Where every cursor is accepted, the pages are exact. -/
lemma pagesExact_of_fits (hiso : ReadsIso fromisoformat) (hstore : store.Snapshotted py)
    (hfits : ∀ d, PendingReview render bound store project d → d.FitsCursor) :
    PagesExact fromisoformat render bound store project := by
  obtain ⟨clauses, hclauses⟩ := exists_clauses bound
  have henumerates : EnumeratesReviews render bound store project
      ((selectedRows render store project clauses).map (·.1)) :=
    enumerates_selectedRows hstore hclauses
  have hfits' : ∀ row ∈ selectedRows render store project clauses, row.1.FitsCursor :=
    fun row hrow => hfits row.1 ((henumerates.mem_iff row.1).mp (List.mem_map_of_mem hrow))
  intro limits hlimits
  obtain ⟨pages, hpages, hflatten⟩ := exists_pages (fun _ (h : ValidLimit _) => h.1)
    (fun n hn done rest hrows => fetch_behind hiso hstore hclauses hfits' hn hrows) limits hlimits
  refine ⟨pages, hpages, ?_, ?_⟩
  · rw [hflatten, List.map_map]
    exact henumerates
  · rw [hflatten]
    intro item hitem
    obtain ⟨row, hrow, rfl⟩ := List.mem_map.mp hitem
    rw [DecisionRow.reviewCursor_reviewItem, DecisionRow.row_reviewItem]
    refine ⟨(readCursor_reviewCursor hiso row.1).mpr (hfits' row hrow), fun limit hlimit => ?_⟩
    have hself : ∀ d ∈ some row.1, d.FitsCursor := by
      rintro d ⟨rfl⟩
      exact hfits' row hrow
    have hpage := fetch_eq render project hiso hstore hclauses hlimit hself
    rw [Option.map_some] at hpage
    exact ⟨_, hpage⟩

/-- The rows of a page have their own cursors. -/
lemma reviewItem_of_mem {limit : ℤ} {cursor : Option String} {page : List ReviewItem}
    (hpage : DreamOperations.pendingReviews fromisoformat render bound store project limit cursor =
      .ok page) : ∀ item ∈ page, item = item.row.reviewItem := by
  obtain ⟨_, -, hpage⟩ := bind_eq_ok.mp hpage
  obtain ⟨_, -, hpage⟩ := bind_eq_ok.mp hpage
  obtain ⟨rows, -, hpage⟩ := bind_eq_ok.mp hpage
  cases hpage
  intro item hitem
  obtain ⟨d, -, rfl⟩ := List.mem_map.mp hitem
  rfl

lemma fits_of_pagesExact (hiso : ReadsIso fromisoformat)
    (hexact : PagesExact fromisoformat render bound store project) {d : DecisionRow}
    (hd : PendingReview render bound store project d) : d.FitsCursor := by
  obtain ⟨pages, hpages, henumerates, haccepted⟩ := hexact (fun _ => 1) fun _ => by
    norm_num [ValidLimit]
  obtain ⟨item, hitem, rfl⟩ := List.mem_map.mp ((henumerates.mem_iff d).mpr hd)
  have hself := hpages.forall_mem (fun _ _ _ hpage => reviewItem_of_mem hpage) item hitem
  obtain ⟨hread, -⟩ := haccepted item hitem
  rw [hself, DecisionRow.reviewCursor_reviewItem, DecisionRow.row_reviewItem] at hread
  exact (readCursor_reviewCursor hiso item.row).mp hread

/-- The pages are exact where the cursors of all pending reviews are accepted. -/
theorem pagesExact_iff (hiso : ReadsIso fromisoformat) (hstore : store.Snapshotted py) :
    PagesExact fromisoformat render bound store project ↔
      ∀ d, PendingReview render bound store project d → d.FitsCursor :=
  ⟨fun hexact _ hd => fits_of_pagesExact hiso hexact hd,
    fun hfits => pagesExact_of_fits hiso hstore hfits⟩

end Pages

/-! ### A review -/

section Sample

/-- A run whose one candidate waits for a review. -/
def waitingRun (runId : String) : DreamRunRow where
  id := runId
  sessionId := "session"
  requestId := "request"
  status := .evaluated
  inputEvidenceIds := []
  request :=
    { requestId := "request", sessionId := "session", focalTopics := []
      sessionStart := ⟨.ofMicros 0, some 0⟩, sessionEnd := ⟨.ofMicros 0, some 0⟩
      evidenceByTopic := [] }
  candidateCount := 1
  createdAt := .ofMicros 0
  authority := none

/-- The candidate of the run. -/
def waitingDecision (runId : String) : DecisionRow where
  key := (runId, 0)
  candidate :=
    { entityName := "a", entityType := "concept", summary := "s", content := "c"
      evidenceIds := [], confidence := .zero, classification := "fact" }
  decision := .review
  reasonerConfidence := .zero
  evidenceStrength := 0
  promotionConfidence := 0
  evidenceIds := []
  reasons := []
  createdAt := .ofMicros 0

def waitingStore (runId : String) : AuditStore where
  runs := (Table.empty _).upsert (waitingRun runId)
  decisions := (Table.empty _).upsert (waitingDecision runId)

/-- Times in UTC, as `isoformat` prints them. -/
def readUtc (s : String) : Option DateTime :=
  let cs := s.toList
  if cs.drop (cs.length - 6) = ['+', '0', '0', ':', '0', '0'] then
    (Instant.readJson (String.ofList (cs.take (cs.length - 6) ++ ['Z']))).map fun a => ⟨a, some 0⟩
  else none

lemma readsIso_readUtc : ReadsIso readUtc := by
  intro a
  refine ⟨⟨a, some 0⟩, ?_, rfl⟩
  have htext : a.iso.toList = a.isoChars ++ ['+', '0', '0', ':', '0', '0'] := String.toList_ofList
  have hlength : a.iso.toList.length - 6 = a.isoChars.length := by
    rw [htext, List.length_append]
    rfl
  have hread : Instant.readJson (String.ofList (a.isoChars ++ ['Z'])) = some a :=
    Instant.readJson_jsonText a
  simp only [readUtc]
  rw [hlength, htext, List.drop_left, List.take_left, if_pos rfl, hread]
  rfl

lemma waitingStore_snapshotted (runId : String) : (waitingStore runId).Snapshotted py := by
  intro run hrun
  rw [List.mem_singleton.mp hrun]
  exact .inl rfl

lemma waitingStore_selected (runId : String) (render : Json → String) :
    selectedRows render (waitingStore runId) none [] =
      [(waitingDecision runId, waitingRun runId)] := by
  have hjoined : (waitingStore runId).joined = [(waitingDecision runId, waitingRun runId)] := by
    have hfind : (waitingStore runId).runs.find? runId = some (waitingRun runId) :=
      Table.find?_upsert_self _ (waitingRun runId)
    have hrows : (waitingStore runId).decisions.rows = [waitingDecision runId] := rfl
    simp only [AuditStore.joined, hrows, waitingDecision, List.filterMap_cons, hfind,
      Option.map_some, List.filterMap_nil]
  rw [selectedRows, hjoined]
  rfl

lemma waiting_size (runId : String) :
    (asciiQuoted runId).length ≤ (cursorJson (waitingDecision runId).reviewKey).utf8ByteSize := by
  have hid : (ofLex (ofLex (waitingDecision runId).reviewKey).2).1 = runId := rfl
  rw [utf8ByteSize_cursorJson, hid]
  omega

/-- Where the text of the run id is too long, the one cursor is refused: after the first page there
is none, not even an empty one. -/
lemma waiting_refused {runId : String} (hlength : 768 < (asciiQuoted runId).length)
    (render : Json → String) :
    DreamOperations.pendingReviews readUtc render (none : Option (CallerAuthority py))
        (waitingStore runId) none 1 none = .ok [(waitingDecision runId).reviewItem] ∧
      DreamOperations.pendingReviews readUtc render (none : Option (CallerAuthority py))
        (waitingStore runId) none 1 (some (waitingDecision runId).reviewItem.reviewCursor) =
        .error (.valueError "invalid review cursor") ∧
      ¬ PagesExact readUtc render (none : Option (CallerAuthority py)) (waitingStore runId)
        none := by
  have hclauses : snapshotSqlFilter (none : Option (CallerAuthority py)) "a.authority_json" =
      .ok [] := rfl
  have hstore : (waitingStore runId).Snapshotted py := waitingStore_snapshotted runId
  have hselected := waitingStore_selected runId render
  have hsize := hlength.trans_le (waiting_size runId)
  have hlimit : ValidLimit 1 := by norm_num [ValidLimit]
  refine ⟨?_, ?_, fun hexact => ?_⟩
  · have hnone : ∀ d ∈ (none : Option DecisionRow), d.FitsCursor := by simp
    have hpage := fetch_eq render none readsIso_readUtc hstore hclauses hlimit hnone
    rw [hselected] at hpage
    exact hpage
  · have hread : readCursor readUtc (waitingDecision runId).reviewItem.reviewCursor = none := by
      rw [DecisionRow.reviewCursor_reviewItem]
      exact readCursor_eq_none hsize
    unfold DreamOperations.pendingReviews
    rw [readAfter, hread]
    rfl
  · have hpending : PendingReview render (none : Option (CallerAuthority py)) (waitingStore runId)
        none (waitingDecision runId) := by
      rw [← (enumerates_selectedRows hstore hclauses).mem_iff, hselected]
      exact List.mem_singleton.mpr rfl
    exact absurd (fits_of_pagesExact readsIso_readUtc hexact hpending).size (not_le.mpr hsize)

/-- A run id of characters that are not in ASCII. -/
def accentedId (n : ℕ) : String := String.ofList (List.replicate n 'é')

lemma length_accentedId (n : ℕ) : (asciiQuoted (accentedId n)).length = n * 6 + 2 := by
  have hescape : (asciiEscape 'é').length = 6 := by decide +kernel
  rw [asciiQuoted, accentedId, String.toList_ofList, List.length_cons, List.length_append]
  induction n with
  | zero => rfl
  | succ n ih =>
    rw [List.replicate_succ, List.flatMap_cons, List.length_append, hescape]
    omega

/-- The pages of a run with that id stop at its review. -/
theorem accented_cursor_is_refused :
    (accentedId 512).length = 512 ∧ (waitingStore (accentedId 512)).Snapshotted .ascii ∧
      DreamOperations.pendingReviews readUtc (fun _ => "") (none : Option (CallerAuthority .ascii))
        (waitingStore (accentedId 512)) none 1 none = .ok [(waitingDecision (accentedId 512)).reviewItem] ∧
      DreamOperations.pendingReviews readUtc (fun _ => "") (none : Option (CallerAuthority .ascii))
        (waitingStore (accentedId 512)) none 1
          (some (waitingDecision (accentedId 512)).reviewItem.reviewCursor) =
        .error (.valueError "invalid review cursor") ∧
      ¬ PagesExact readUtc (fun _ => "") (none : Option (CallerAuthority .ascii))
        (waitingStore (accentedId 512)) none := by
  have hlength : 768 < (asciiQuoted (accentedId 512)).length := by
    rw [length_accentedId]
    decide
  refine ⟨?_, waitingStore_snapshotted _, waiting_refused hlength fun _ => ""⟩
  rw [accentedId, String.length_ofList, List.length_replicate]

/-- The theorem on a run with a short id, whose pages are exact. -/
theorem pagesExact_iff_sample :
    (PagesExact readUtc (fun _ => "") (none : Option (CallerAuthority .ascii)) (waitingStore "run")
        none ↔
      ∀ d, PendingReview (fun _ => "") (none : Option (CallerAuthority .ascii)) (waitingStore "run")
        none d → d.FitsCursor) ∧
    PagesExact readUtc (fun _ => "") (none : Option (CallerAuthority .ascii)) (waitingStore "run")
      none := by
  have hiff := @pagesExact_iff .ascii readUtc (fun _ => "") none (waitingStore "run") none
    readsIso_readUtc (waitingStore_snapshotted "run")
  refine ⟨hiff, hiff.mpr fun d hd => ?_⟩
  rw [List.mem_singleton.mp hd.mem]
  have hplain : ∀ c ∈ "run".toList, IsPlain c :=
    List.forall_iff_forall_mem.mp (by decide +kernel)
  exact DecisionRow.fitsCursor_of_plain (by decide) (by decide) hplain le_rfl (by decide)

end Sample

end CyberBrain.Dreaming
