import CyberBrain.Foundation.Lists
import CyberBrain.Schemas.Models
import CyberBrain.Storage.Scroll
import CyberBrain.Tenancy.Runtime

/-!
# Timelines

The version history of one entity. The limit cuts off the scroll, which reads the points in the
order of the store, and only what was read is ordered by version.
-/

namespace CyberBrain.Knowledge

open Program Python Relations Schemas Storage Tenancy

/-! ### The read -/

section Timeline

variable (readInt : String → Option ℤ)

/-- `int(value)`, with `readInt` for texts. -/
def toInt : Json → Except Exc ℤ
  | .int i   => .ok i
  | .bool b  => .ok (if b then 1 else 0)
  | .float x => .ok (if x.value < 0 then ⌈x.value⌉ else ⌊x.value⌋)
  | .str s   =>
    match readInt s with
    | some i => .ok i
    | none   => .error (.valueError "invalid literal for int() with base 10")
  | _        =>
    .error (.typeError "int() argument must be a string, a bytes-like object or a real number")

/-- The sort key of a row. -/
def rowVersion (row : Fields) : Except Exc ℤ := toInt readInt ((row "version").getD (.int 0))

/-- `results.sort(key=lambda item: int(item.get("version", 0)), reverse=True)`. -/
def sortByVersion (rows : List Fields) : Except Exc (List Fields) :=
  (rows.mapM fun row => (rowVersion readInt row).map fun version => (version, row)).map fun keyed =>
    (keyed.insertionSort fun a b => b.1 ≤ a.1).map (·.2)

/-- A filter argument as a payload value. -/
def Scalar.json : Scalar → Json
  | .bool b => .bool b
  | .int i  => .int i
  | .str s  => .str s

/-- The filter arguments as the selectors of the call. -/
def selectors (filters : List (String × Option Scalar)) : Fields := fun key =>
  (filters.lookup key).map fun value => value.elim .null Scalar.json

variable {py : Runtime}

/-- The conditions of a timeline: the labels, the scope of the caller and the filters. -/
def timelineFilter (labels : EntityLabels) (plan : Option (EnforcementPlan py))
    (filters : List (String × Option Scalar)) : Filter :=
  [.field (.matchValue "domain" (.str labels.domain)),
    .field (.matchValue "topic" (.str labels.topic)),
    .field (.matchValue "entity_type" (.str labels.entityType)),
    .field (.matchValue "entity_name" (.str labels.entityName))] ++
  scopeConditions plan ++
  filters.filterMap fun kv => kv.2.map fun value => .field (.matchValue kv.1 value)

/-- `KnowledgeSearchService.timeline`, with `bound` the authority bound to the context. -/
def timeline (server : Server Point String) (collection : String)
    (bound : Option (CallerAuthority py)) (labels : EntityLabels)
    (filters : List (String × Option Scalar)) (limit : ℤ := 100) :
    Program (List (Request String)) Exc (List Fields) :=
  match enforceOperation bound .knowledgeTimeline (selectors filters) with
  | .error e => raise e
  | .ok plan =>
    .bind (scroll server collection (some (timelineFilter labels plan filters)) limit) fun points =>
      .ofExcept (sortByVersion readInt (points.map (·.response)))

/-! ### The newest versions -/

variable {readInt} {version : Point → ℤ} {points : List Point}

/-- The rows are ordered as the points are by version, those of one version as they were read. -/
lemma sortByVersion_eq (h : ∀ p ∈ points, rowVersion readInt p.response = .ok (version p)) :
    sortByVersion readInt (points.map (·.response)) =
      .ok ((points.insertionSort fun p q => version q ≤ version p).map (·.response)) := by
  have hkeys : (points.map (·.response)).mapM (fun row =>
      (rowVersion readInt row).map fun version => (version, row)) =
        .ok (points.map fun p => (version p, p.response)) := by
    induction points with
    | nil => rfl
    | cons p points ih =>
      obtain ⟨hp, hpoints⟩ := List.forall_mem_cons.mp h
      rw [List.map_cons, List.mapM_cons, hp, ih hpoints]
      rfl
  have hsort := List.map_insertionSort (fun p q => version q ≤ version p)
    (fun a b : ℤ × Fields => b.1 ≤ a.1) (fun p => (version p, p.response)) points
    fun p _ q _ => Iff.rfl
  rw [sortByVersion, hkeys]
  simp only [Except.map, ← hsort, List.map_map]
  rfl

/-- The first `n` points are newest: none of the others has a higher version. -/
def NewestFirst (version : Point → ℤ) (points : List Point) (n : ℕ) : Prop :=
  ∀ p ∈ points.take n, ∀ q ∈ points.drop n, version q ≤ version p

/-- A short history is read as a whole. -/
lemma newestFirst_of_few {n : ℕ} (h : points.length ≤ n) : NewestFirst version points n := by
  intro p _ q hq
  rw [List.drop_eq_nil_of_le h] at hq
  cases hq

/-- The points that match the conditions of a timeline, in the order of the store. -/
def history (points : Points) (labels : EntityLabels) (plan : Option (EnforcementPlan py))
    (filters : List (String × Option Scalar)) : List Point :=
  points.rows.filter fun p => (timelineFilter labels plan filters).accepts p.payload

variable {server : Server Point String} {collection : String} {points : Points}
  {bound : Option (CallerAuthority py)} {labels : EntityLabels}
  {filters : List (String × Option Scalar)} {plan : Option (EnforcementPlan py)}

/-- A timeline of a server that lists the history orders what it reads of it. -/
lemma timeline_eq
    (hplan : enforceOperation bound .knowledgeTimeline (selectors filters) = .ok plan)
    (hserver : Lists server collection (some (timelineFilter labels plan filters)) Point.id
      (history points labels plan filters))
    (hversion : ∀ p ∈ history points labels plan filters,
      rowVersion readInt p.response = .ok (version p))
    (limit : ℤ) (log : List (Request String)) :
    ∃ log', timeline readInt server collection bound labels filters limit log =
      (.ok ((((history points labels plan filters).take limit.toNat).insertionSort
        fun p q => version q ≤ version p).map (·.response)), log') := by
  obtain ⟨log', hscroll, -⟩ := scroll_exact hserver limit log
  rw [← List.take_eq_take_min] at hscroll
  have hread : sortByVersion readInt
      (((history points labels plan filters).take limit.toNat).map (·.response)) = _ :=
    sortByVersion_eq fun p hp => hversion p (List.mem_of_mem_take hp)
  refine ⟨log', ?_⟩
  rw [timeline, hplan]
  refine (bind_apply_of_ok hscroll).trans ?_
  rw [hread]
  rfl

/-- A timeline of a server that lists the history shows as many records of it as the limit allows,
newest first. They are the newest ones exactly if the store has the newest ones first. -/
theorem timeline_newest_iff
    (hplan : enforceOperation bound .knowledgeTimeline (selectors filters) = .ok plan)
    (hserver : Lists server collection (some (timelineFilter labels plan filters)) Point.id
      (history points labels plan filters))
    (hversion : ∀ p ∈ history points labels plan filters,
      rowVersion readInt p.response = .ok (version p))
    (limit : ℤ) (log : List (Request String)) :
    ∃ (shown : List Point) (log' : List (Request String)),
      timeline readInt server collection bound labels filters limit log =
        (.ok (shown.map (·.response)), log') ∧
      shown.Subperm (history points labels plan filters) ∧
      shown.length = min limit.toNat (history points labels plan filters).length ∧
      shown.Pairwise (fun p q => version q ≤ version p) ∧
      ((∀ p ∈ shown, ∀ q ∈ history points labels plan filters, q ∉ shown →
          version q ≤ version p) ↔
        NewestFirst version (history points labels plan filters) limit.toNat) := by
  obtain ⟨log', htimeline⟩ := timeline_eq hplan hserver hversion limit log
  have hnodup : (history points labels plan filters).Nodup := points.nodup_rows.filter _
  generalize history points labels plan filters = all at *
  have hperm := List.perm_insertionSort (fun p q => version q ≤ version p) (all.take limit.toNat)
  have hmem : ∀ p, p ∈ (all.take limit.toNat).insertionSort (fun p q => version q ≤ version p) ↔
      p ∈ all.take limit.toNat := fun p => hperm.mem_iff
  refine ⟨_, log', htimeline, ?_, ?_, ?_, ?_⟩
  · exact hperm.subperm.trans (List.take_sublist _ _).subperm
  · rw [hperm.length_eq, List.length_take]
  · exact List.pairwise_insertionSort _ _
  · simp only [hmem, NewestFirst, mem_drop_iff hnodup, and_imp]

end Timeline

/-! ### A history read in part -/

/-- A version of the entity `d/t/e/n`. -/
def versionPoint (id : String) (version : ℤ) : Point where
  id := id
  payload key :=
    [("domain", Json.str "d"), ("topic", .str "t"), ("entity_type", .str "e"),
      ("entity_name", .str "n"), ("version", .int version)].lookup key

/-- Two versions, the older of which the store has first. -/
def twoVersions : Points := ⟨[versionPoint "a" 1, versionPoint "b" 2], by decide⟩

def sampleLabels : EntityLabels := ⟨"d", "t", "e", "n"⟩

/-- A call without authority, and its plan. -/
def unbound : Option (CallerAuthority Runtime.ascii) := none

def unplanned : Option (EnforcementPlan Runtime.ascii) := none

/-- A server that lists the matching points in pages of at most 256. -/
def twoVersionsServer : Server Point String :=
  pagedServer Point.id
    (fun filter => twoVersions.rows.filter fun p => (filter.getD []).accepts p.payload) 256

/-- The two versions by their ids. -/
def sampleVersion (p : Point) : ℤ := if p.id = "a" then 1 else 2

lemma history_twoVersions :
    history twoVersions sampleLabels unplanned [] = [versionPoint "a" 1, versionPoint "b" 2] := rfl

lemma twoVersionsServer_lists :
    Lists twoVersionsServer "knowledge" (some (timelineFilter sampleLabels unplanned [])) Point.id
      (history twoVersions sampleLabels unplanned []) :=
  pagedServer_lists (by decide) (twoVersions.nodup.sublist (List.filter_sublist.map _))

lemma rowVersion_twoVersions : ∀ p ∈ history twoVersions sampleLabels unplanned [],
    rowVersion (fun _ => none) p.response = .ok (sampleVersion p) := by
  intro p hp
  rw [history_twoVersions] at hp
  simp only [List.mem_cons, List.not_mem_nil, or_false] at hp
  rcases hp with rfl | rfl <;> rfl

/-- With a limit of one the timeline shows the older version. -/
theorem timeline_older :
    (∃ log', timeline (fun _ => none) twoVersionsServer "knowledge" unbound sampleLabels [] 1 [] =
      (.ok [(versionPoint "a" 1).response], log')) ∧
    versionPoint "b" 2 ∈ history twoVersions sampleLabels unplanned [] ∧
    rowVersion (fun _ => none) (versionPoint "a" 1).response = .ok 1 ∧
    rowVersion (fun _ => none) (versionPoint "b" 2).response = .ok 2 := by
  have hplan : enforceOperation unbound .knowledgeTimeline (selectors []) = .ok unplanned := rfl
  obtain ⟨log', h⟩ := timeline_eq hplan twoVersionsServer_lists rowVersion_twoVersions 1 []
  rw [history_twoVersions] at h ⊢
  exact ⟨⟨log', h⟩, by simp, rfl, rfl⟩

theorem timeline_newest_iff_twoVersions :
    ∃ (shown : List Point) (log' : List (Request String)),
      timeline (fun _ => none) twoVersionsServer "knowledge" unbound sampleLabels [] 2 [] =
        (.ok (shown.map (·.response)), log') ∧
      shown.Subperm (history twoVersions sampleLabels unplanned []) ∧
      shown.length =
        min (2 : ℤ).toNat (history twoVersions sampleLabels unplanned []).length ∧
      shown.Pairwise (fun p q => sampleVersion q ≤ sampleVersion p) ∧
      ((∀ p ∈ shown, ∀ q ∈ history twoVersions sampleLabels unplanned [], q ∉ shown →
          sampleVersion q ≤ sampleVersion p) ↔
        NewestFirst sampleVersion (history twoVersions sampleLabels unplanned []) (2 : ℤ).toNat) :=
  timeline_newest_iff rfl twoVersionsServer_lists rowVersion_twoVersions 2 []

end CyberBrain.Knowledge
