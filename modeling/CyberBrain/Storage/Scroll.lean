import CyberBrain.Core.Errors
import CyberBrain.Foundation.Filter
import CyberBrain.Foundation.Program
import CyberBrain.Foundation.Python

/-!
# Scrolling through a collection

A bounded read of the points that match a filter, which the vector store answers in pages. The
server may choose every page as it likes, by all it has been asked before, as long as it lists its
points in one order and names the point that comes next.
-/

namespace CyberBrain.Storage

open Program Python

variable {α γ : Type}

/-! ### Requests -/

/-- The JSON body of a scroll request. -/
structure ScrollBody (γ : Type) where
  limit : ℤ
  withPayload : Bool := true
  withVector : Bool := false
  filter : Option Filter := none
  offset : Option γ := none

structure Request (γ : Type) where
  method : String
  path : String
  json : ScrollBody γ

/-- A page of points, with the offset of the next one. -/
structure ScrollResult (α γ : Type) where
  points : Option (List α) := none
  nextPageOffset : Option γ := none

/-- The JSON of a response. -/
structure ScrollResponse (α γ : Type) where
  status : Option String
  result : Option (ScrollResult α γ) := none

/-- `list(result.get("points", []))`. -/
def ScrollResponse.batch (data : ScrollResponse α γ) : List α :=
  (data.result.getD {}).points.getD []

/-- `result.get("next_page_offset")`. -/
def ScrollResponse.nextOffset (data : ScrollResponse α γ) : Option γ :=
  (data.result.getD {}).nextPageOffset

/-- How requests are answered, or fail on the way, given the requests before. -/
abbrev Server (α γ : Type) :=
  List (Request γ) → Request γ → Except Exc (ScrollResponse α γ)

/-- `_request`, on the requests made so far. -/
def request (server : Server α γ) (r : Request γ) :
    Program (List (Request γ)) Exc (ScrollResponse α γ) := fun log =>
  match server log r with
  | .error e => (.error e, log ++ [r])
  | .ok data =>
    if data.status = some "ok" then (.ok data, log ++ [r])
    else (.error (.storageError "Qdrant operation failed"), log ++ [r])

/-! ### The loop -/

section Loop

variable (server : Server α γ) (collection : String) (filter : Option Filter) (limit : ℤ)

/-- The request for the next page. -/
def pageRequest (read : ℕ) (offset : Option γ) : Request γ where
  method := "POST"
  path := "/collections/" ++ collection ++ "/points/scroll"
  json := { limit := min 256 (limit - read), filter, offset }

/-- The loop of `scroll`. -/
def scrollLoop (points : List α) (offset : Option γ) : Program (List (Request γ)) Exc (List α) :=
  if _ : (points.length : ℤ) < limit then
    .bind (request server (pageRequest collection filter limit points.length offset)) fun data =>
      if _ : data.batch = [] then .pure points
      else
        match data.nextOffset with
        | none      => .pure (points ++ data.batch)
        | some next => scrollLoop (points ++ data.batch) (some next)
  else .pure points
termination_by (limit - points.length).toNat
decreasing_by
  have hpos := List.length_pos_iff.mpr ‹¬ _ = []›
  rw [List.length_append]
  omega

/-- `QdrantRepository.scroll`. -/
def scroll : Program (List (Request γ)) Exc (List α) :=
  if limit < 1 then .pure []
  else
    .bind (scrollLoop server collection filter limit [] none) fun points =>
      .pure (upTo points limit)

end Loop

/-! ### A server that lists points -/

section Listing

/-- An offset stands before the rest of the points: it is missing before all of them and otherwise
names the first. -/
def StandsAt (name : α → γ) (points rest : List α) (offset : Option γ) : Prop :=
  offset = none ∧ rest = points ∨ ∃ p later, rest = p :: later ∧ offset = some (name p)

/-- The server lists `points` to those who scroll through the collection with the filter: it answers
with some of the next points, at most as many as asked for and at least one unless none are left,
and names the point behind them. -/
def Lists (server : Server α γ) (collection : String) (filter : Option Filter) (name : α → γ)
    (points : List α) : Prop :=
  ∀ log done rest offset (m : ℤ), done ++ rest = points → StandsAt name points rest offset → 1 ≤ m →
    ∃ page later, rest = page ++ later ∧ (page.length : ℤ) ≤ m ∧ (page = [] → rest = []) ∧
      server log ⟨"POST", "/collections/" ++ collection ++ "/points/scroll",
          { limit := m, filter, offset }⟩ =
        .ok { status := some "ok", result := some ⟨some page, later.head?.map name⟩ }

variable {server : Server α γ} {collection : String} {filter : Option Filter} {name : α → γ}
  {points : List α} {limit : ℤ}

/-- A page of a listing: some of the next points, and where they end. -/
lemma Lists.page (h : Lists server collection filter name points) {done rest : List α}
    {offset : Option γ} (hdone : done ++ rest = points) (hoffset : StandsAt name points rest offset)
    (hlimit : (done.length : ℤ) < limit) (log : List (Request γ)) :
    ∃ page later, rest = page ++ later ∧ (done.length + page.length : ℤ) ≤ limit ∧
      (page = [] → rest = []) ∧
      request server (pageRequest collection filter limit done.length offset) log =
        (.ok { status := some "ok", result := some ⟨some page, later.head?.map name⟩ },
          log ++ [pageRequest collection filter limit done.length offset]) := by
  obtain ⟨page, later, hrest, hlength, hempty, hserver⟩ :=
    h log done rest offset (min 256 (limit - done.length)) hdone hoffset (by omega)
  refine ⟨page, later, hrest, by omega, hempty, ?_⟩
  simp [request, pageRequest, hserver]

/-- From where it stands the loop reads what is left up to the limit, with one request for every
point at most, and one at least. -/
lemma scrollLoop_spec (h : Lists server collection filter name points) {rest done : List α}
    {offset : Option γ} (hdone : done ++ rest = points) (hoffset : StandsAt name points rest offset)
    (hlimit : (done.length : ℤ) ≤ limit) (log : List (Request γ)) :
    ∃ log', scrollLoop server collection filter limit done offset log =
        (.ok (points.take limit.toNat), log') ∧
      log'.length ≤ log.length + (min limit.toNat points.length - done.length) + 1 := by
  induction hn : rest.length using Nat.strongRecOn generalizing rest done offset log with
  | ind n ih =>
    rw [scrollLoop]
    by_cases hmore : (done.length : ℤ) < limit
    · obtain ⟨page, later, rfl, hlength, hempty, hrequest⟩ :=
        h.page hdone hoffset hmore log
      rw [dif_pos hmore]
      generalize pageRequest collection filter limit done.length offset = r at hrequest ⊢
      have hbound : done.length + page.length ≤ min limit.toNat points.length := by
        simp [← hdone]
        omega
      by_cases hpage : page = []
      · have hread : points.take limit.toNat = done := by
          rw [← hdone, hempty hpage, List.append_nil]
          exact List.take_of_length_le (by omega)
        refine ⟨log ++ [r], (bind_apply_of_ok hrequest).trans ?_, ?_⟩
        · simp [ScrollResponse.batch, hpage, hread]
          rfl
        · simp
      · have hpos : 0 < page.length := List.length_pos_iff.mpr hpage
        cases later with
        | nil =>
          have hread : points.take limit.toNat = done ++ page := by
            rw [← hdone, List.append_nil]
            exact List.take_of_length_le (by simp; omega)
          refine ⟨log ++ [r], (bind_apply_of_ok hrequest).trans ?_, ?_⟩
          · simp [ScrollResponse.batch, ScrollResponse.nextOffset, hpage, hread]
            rfl
          · simp
        | cons p later =>
          have hshorter : (p :: later).length < n := by
            rw [← hn, List.length_append]
            omega
          have hdone' : (done ++ page) ++ p :: later = points := by
            rw [List.append_assoc, hdone]
          obtain ⟨log', hloop, hlog⟩ := ih _ hshorter hdone' (.inr ⟨p, later, rfl, rfl⟩)
            (by simpa using hlength) (log ++ [r]) rfl
          refine ⟨log', (bind_apply_of_ok hrequest).trans ?_, ?_⟩
          · simpa [ScrollResponse.batch, ScrollResponse.nextOffset, hpage] using hloop
          · simp at hlog
            omega
    · have hread : points.take limit.toNat = done := by
        rw [← hdone, List.take_append_of_le_length (by omega)]
        exact List.take_of_length_le (by omega)
      rw [dif_neg hmore, hread]
      exact ⟨log, rfl, by omega⟩

/-- Whatever the server answers, every further page brings at least one point. -/
lemma scrollLoop_requests_le (done : List α) (offset : Option γ) (log : List (Request γ)) :
    (scrollLoop server collection filter limit done offset log).2.length ≤
      log.length + (limit - done.length).toNat := by
  induction hn : (limit - done.length).toNat using Nat.strongRecOn generalizing done offset log with
  | ind n ih =>
    rw [scrollLoop]
    by_cases hmore : (done.length : ℤ) < limit
    · rw [dif_pos hmore]
      generalize pageRequest collection filter limit done.length offset = r
      have hone : (log ++ [r]).length ≤ log.length + n := by
        simp
        omega
      change (Program.bind _ _ log).2.length ≤ _
      rw [Program.bind, request]
      cases server log r with
      | error e => exact hone
      | ok data =>
        by_cases hok : data.status = some "ok"
        · simp only [if_pos hok]
          by_cases hbatch : data.batch = []
          · rw [dif_pos hbatch]
            exact hone
          · rw [dif_neg hbatch]
            cases data.nextOffset with
            | none      => exact hone
            | some next =>
              have hpos := List.length_pos_iff.mpr hbatch
              have hrest := ih _ (by simp; omega) (done ++ data.batch) (some next) (log ++ [r]) rfl
              refine hrest.trans ?_
              simp
              omega
        · simp only [if_neg hok]
          exact hone
    · rw [dif_neg hmore]
      exact Nat.le_add_right _ _

/-- A scroll ends for every server, after at most as many requests as the limit. -/
theorem scroll_requests_le (log : List (Request γ)) :
    (scroll server collection filter limit log).2.length ≤ log.length + limit.toNat := by
  have hloop : (scrollLoop server collection filter limit [] none log).2.length ≤
      log.length + (limit - ([] : List α).length).toNat := scrollLoop_requests_le [] none log
  unfold scroll
  split_ifs with hlimit
  · exact Nat.le_add_right _ _
  · change (Program.bind _ _ log).2.length ≤ _
    rw [Program.bind]
    cases hscroll : scrollLoop server collection filter limit [] none log with
    | mk result log' =>
      rw [hscroll] at hloop
      cases result with
      | error e   => simpa using hloop
      | ok points =>
        show log'.length ≤ _
        simpa using hloop

/-! ### A server with pages of one size -/

/-- The points behind an offset. -/
def restAt [DecidableEq γ] (name : α → γ) (points : List α) : Option γ → List α
  | none   => points
  | some o => points.dropWhile fun p => name p ≠ o

/-- A server that answers with `size` points at most. -/
def pagedServer [DecidableEq γ] (name : α → γ) (rows : Option Filter → List α) (size : ℕ) :
    Server α γ := fun _ r =>
  let rest := restAt name (rows r.json.filter) r.json.offset
  let m := min r.json.limit.toNat size
  .ok { status := some "ok", result := some ⟨some (rest.take m), (rest.drop m).head?.map name⟩ }

/-- Where points have different names, it lists them. -/
lemma pagedServer_lists [DecidableEq γ] {rows : Option Filter → List α} {size : ℕ} (hsize : 0 < size)
    (hnodup : ((rows filter).map name).Nodup) :
    Lists (pagedServer name rows size) collection filter name (rows filter) := by
  intro log done rest offset m hdone hoffset hm
  have hrest : restAt name (rows filter) offset = rest := by
    rcases hoffset with ⟨rfl, rfl⟩ | ⟨p, later, rfl, rfl⟩
    · rfl
    · rw [← hdone, List.map_append, List.map_cons, List.nodup_append] at hnodup
      have hbefore : ∀ q ∈ done, name q ≠ name p := fun q hq =>
        hnodup.2.2 _ (List.mem_map_of_mem hq) _ (List.mem_cons_self ..)
      rw [restAt, ← hdone, List.dropWhile_append_of_pos (by simpa using hbefore)]
      simp
  refine ⟨rest.take (min m.toNat size), rest.drop (min m.toNat size),
    (List.take_append_drop ..).symm, ?_, ?_, ?_⟩
  · simp
    omega
  · intro hempty
    rcases List.take_eq_nil_iff.mp hempty with hzero | hnil
    · omega
    · exact hnil
  · simp [pagedServer, hrest]

/-! ### Exactness -/

/-- A scroll reads the first points of the listing, as many as the limit allows, with one request
for each of them and one more at most. -/
theorem scroll_exact (h : Lists server collection filter name points) (limit : ℤ)
    (log : List (Request γ)) :
    ∃ log', scroll server collection filter limit log =
        (.ok (points.take (min limit.toNat points.length)), log') ∧
      log'.length ≤ log.length + (min limit.toNat points.length + 1) := by
  rw [← List.take_eq_take_min]
  unfold scroll
  split_ifs with hlimit
  · have hzero : limit.toNat = 0 := by omega
    refine ⟨log, ?_, by omega⟩
    rw [hzero]
    rfl
  · have hpos : (([] : List α).length : ℤ) ≤ limit := by
      simp
      omega
    obtain ⟨log', hloop, hlog⟩ :=
      scrollLoop_spec h (List.nil_append points) (.inl ⟨rfl, rfl⟩) hpos log
    refine ⟨log', (bind_apply_of_ok hloop).trans ?_, by simpa [Nat.add_assoc] using hlog⟩
    have htake : upTo (points.take limit.toNat) limit = points.take limit.toNat := by
      rw [upTo, if_pos (by omega), List.take_take, min_self]
    rw [htake]
    rfl

theorem scroll_exact_three :
    ∃ log', scroll (pagedServer id (fun _ => [7, 8, 9]) 2) "knowledge" none 3 [] =
        (.ok ([7, 8, 9].take (min (3 : ℤ).toNat 3)), log') ∧
      log'.length ≤ 0 + (min (3 : ℤ).toNat 3 + 1) :=
  scroll_exact (pagedServer_lists (by decide) (by decide)) 3 []

end Listing

end CyberBrain.Storage
