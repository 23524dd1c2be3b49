import CyberBrain.Foundation.Program
import CyberBrain.Schemas.Models

/-!
# The point repository

What the services see of the vector store: bounded reads of the points that match a filter, and
writes of single points, each of which takes effect at once, is lost, or is reported as failed
after it took effect.
-/

namespace CyberBrain.Knowledge

open Program Python Schemas

variable {py : Runtime}

/-! ### Reads -/

/-- A bounded read of the points that match a filter: `limit` of them, or all if there are fewer. -/
structure Answers (points : Collection py) (filter : Filter) (limit : ℕ)
    (answer : List (KnowledgeRecord py)) : Prop where
  nodup : answer.Nodup
  mem : ∀ r ∈ answer, r ∈ points.rows ∧ filter.accepts r.fields = true
  length : answer.length = min limit (points.rows.countP fun r => filter.accepts r.fields)

variable (py) in
/-- The bounded reads of a `PointRepository`. -/
structure Repository where
  search : Collection py → (vector : List Binary64) → (limit : ℕ) → Filter →
    List (KnowledgeRecord py)
  scroll : Collection py → Filter → (limit : ℕ) → List (KnowledgeRecord py)

/-- The documented behaviour of the reads. -/
structure Repository.Lawful (repository : Repository py) : Prop where
  search : ∀ points vector limit filter,
    Answers points filter limit (repository.search points vector limit filter)
  scroll : ∀ points filter limit,
    Answers points filter limit (repository.scroll points filter limit)

/-- When no more points match than the limit, all of them are read. -/
lemma Answers.complete {points : Collection py} {filter : Filter} {limit : ℕ}
    {answer : List (KnowledgeRecord py)} (h : Answers points filter limit answer)
    (hfew : points.rows.countP (fun r => filter.accepts r.fields) ≤ limit) {r : KnowledgeRecord py}
    (hr : r ∈ points.rows) (haccepts : filter.accepts r.fields = true) : r ∈ answer := by
  have hsub : answer.Subperm (points.rows.filter fun r => filter.accepts r.fields) :=
    h.nodup.subperm fun q hq => List.mem_filter.mpr (h.mem q hq)
  have hperm := hsub.perm_of_length_le (by
    rw [h.length, min_eq_right hfew, List.countP_eq_length_filter])
  exact hperm.mem_iff.mpr (List.mem_filter.mpr ⟨hr, haccepts⟩)

variable (py) in
/-- A repository that reads the first matching points in the order in which they are stored. -/
def Repository.stored : Repository py where
  search points _ limit filter := (points.rows.filter fun r => filter.accepts r.fields).take limit
  scroll points filter limit := (points.rows.filter fun r => filter.accepts r.fields).take limit

lemma Repository.stored_lawful : (Repository.stored py).Lawful := by
  have hanswers : ∀ (points : Collection py) (filter : Filter) (limit : ℕ), Answers points filter
      limit ((points.rows.filter fun r => filter.accepts r.fields).take limit) := by
    intro points filter limit
    refine ⟨(points.nodup_rows.filter _).sublist (List.take_sublist _ _), fun r hr => ?_, ?_⟩
    · exact List.mem_filter.mp (List.mem_of_mem_take hr)
    · rw [List.length_take, List.countP_eq_length_filter]
  exact ⟨fun points _ limit filter => hanswers points filter limit, hanswers⟩

/-! ### Writes -/

variable (py) in
/-- What a call works on: the collection, and how many writes it has made. -/
structure CallState where
  points : Collection py
  writes : ℕ := 0

variable (py) in
/-- What a call meets: the repository, the fate of each of its writes and the clock at each. -/
structure Environment where
  repository : Repository py
  fate : ℕ → Fate := fun _ => .applied
  clock : ℕ → Instant

namespace Environment

variable (env : Environment py)

def storageFailure : Exc := .storageError "Qdrant request failed"

/-- The exception of a write that did not go through. -/
def Fails (e : Exc) : Prop := e = storageFailure ∧ ∃ n, env.fate n ≠ .applied

/-- A write that changes the collection by `f`, given the time. -/
def write (f : Instant → Collection py → Collection py) : Program (CallState py) Exc Unit :=
  Program.write (fun s => env.fate s.writes)
    (fun s => { points := f (env.clock s.writes) s.points, writes := s.writes + 1 }) storageFailure

/-- `upsert`. -/
def upsert (record : KnowledgeRecord py) : Program (CallState py) Exc Unit :=
  env.write fun _ points => Table.upsert points record

/-- `set_payload` on one point. -/
def setPayload (id : Uuid) (f : Instant → KnowledgeRecord py → KnowledgeRecord py)
    (hf : ∀ now r, r.id = id → (f now r).id = id) : Program (CallState py) Exc Unit :=
  env.write fun now points => Table.modify points id (f now) (hf now)

/-- The collection at this point of the call. -/
def points : Program (CallState py) Exc (Collection py) := .reads (·.points)

end Environment

end CyberBrain.Knowledge
