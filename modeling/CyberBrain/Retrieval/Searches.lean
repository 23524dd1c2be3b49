import CyberBrain.Knowledge.Timeline
import CyberBrain.Retrieval.Runtime

/-!
# Searches

`KnowledgeSearchService.search` and `MemoryService.search` search by the vector of the query, within
the scope of the caller. A Knowledge search may rank the result together with lexical evidence, in
two more reads. Whatever other writers do between the reads, a caller sees only what its grant
covers, and what lies outside does not influence what it sees.
-/

namespace CyberBrain.Retrieval

open Python Tenancy
open Knowledge (selectors)

variable {py : Runtime}

/-! ### The services -/

/-- The configuration of a search service. -/
structure SearchService where
  reads : PointReads
  embed : String → List Binary64
  scoreThreshold : Option Binary64
  policy : KnowledgeRetrievalPolicy

/-- The store at the vector search, at the first scroll and at the second. -/
structure Stores where
  searched : Points
  corpus : Points
  current : Points

/-- A row of a search: a point with its score, or a ranked row. -/
inductive SearchRow
  | scored (hit : VectorHit)
  | ranked (row : RetrievedRow)

def SearchRow.id : SearchRow → String
  | .scored hit => hit.point.id
  | .ranked row => row.id

/-- The payload that is put into the row. -/
def SearchRow.payload : SearchRow → Fields
  | .scored hit => hit.point.payload
  | .ranked row => row.payload

/-- The filter arguments that are given. -/
def givenConditions (filters : List (String × Option Scalar)) : Filter :=
  filters.filterMap fun kv => kv.2.map fun value => .field (.matchValue kv.1 value)

/-- `ordinary_recall` is set, or nothing is. -/
def ordinaryRecall : Condition :=
  .should [.matchValue "ordinary_recall" (.bool true), .isEmpty "ordinary_recall"]

/-- The conditions of a Knowledge search, before those of the scope. -/
def knowledgeConditions (status : Scalar) (filters : List (String × Option Scalar)) : Filter :=
  [.field (.matchValue "status" status),
    .should [.matchValue "record_class" (.str "knowledge"), .isEmpty "record_class"],
    ordinaryRecall] ++ givenConditions filters

/-- The conditions of an episode search, before those of the scope. -/
def episodeConditions (filters : List (String × Option Scalar)) : Filter :=
  ordinaryRecall :: givenConditions filters

variable (lex : Lexicon) (fsum : List Double → Double)

/-- `use_lexical`. -/
def SearchService.useLexical (service : SearchService) (query : String) (limit : ℕ) : Bool :=
  service.policy.usesLexical lex.re query && 0 < limit

/-- `KnowledgeSearchService.search`, with `bound` the authority bound to the context. -/
def knowledgeSearch (service : SearchService) (stores : Stores)
    (bound : Option (CallerAuthority py)) (query : String) (limit : ℕ)
    (filters : List (String × Option Scalar)) (status : Scalar := .str "active") :
    Except Exc (List SearchRow) := do
  let plan ← enforceOperation bound .knowledgeSearch (selectors filters)
  let conditions := knowledgeConditions status filters ++ scopeConditions plan
  let points := service.reads.search stores.searched (service.embed query)
    (if service.useLexical lex query limit then service.policy.candidateLimit limit else limit)
    conditions service.scoreThreshold
  if service.useLexical lex query limit then do
    let rows ← rankKnowledge lex fsum service.reads stores.corpus stores.current query points
      conditions limit service.policy
    pure (rows.map .ranked)
  else pure (points.map .scored)

/-- `MemoryService.search`. -/
def memorySearch (service : SearchService) (points : Points) (bound : Option (CallerAuthority py))
    (query : String) (limit : ℕ) (filters : List (String × Option Scalar)) :
    Except Exc (List SearchRow) := do
  let plan ← enforceOperation bound .memorySearch (selectors filters)
  pure ((service.reads.search points (service.embed query) limit
    (episodeConditions filters ++ scopeConditions plan) service.scoreThreshold).map .scored)

/-! ### What is returned -/

section Returned

variable {lex fsum} {service : SearchService} {stores : Stores} {bound : Option (CallerAuthority py)}
  {query : String} {limit : ℕ} {filters : List (String × Option Scalar)} {status : Scalar}
  {rows : List SearchRow}

/-- The rows of a search are points of a store that match a filter, each once. -/
structure Returns (store : Points) (filter : Filter) (limit : ℕ) (rows : List SearchRow) : Prop where
  nodup : (rows.map (·.id)).Nodup
  length : rows.length ≤ limit
  stored : ∀ row ∈ rows, ∃ p ∈ store.rows, filter.accepts p.payload = true ∧ row.id = p.id ∧
    row.payload = p.payload

lemma returns_scored (hreads : service.reads.Lawful) (store : Points) (vector : List Binary64)
    (limit : ℕ) (filter : Filter) (threshold : Option Binary64) :
    Returns store filter limit
      ((service.reads.search store vector limit filter threshold).map .scored) := by
  obtain ⟨hnodup, hlength, hmem⟩ := hreads.search store vector limit filter threshold
  refine ⟨?_, by simpa using hlength, ?_⟩
  · have hids : (((service.reads.search store vector limit filter threshold).map
        (·.point)).map Point.id).Nodup := by
      refine hnodup.map_on fun p hp q hq hkey => ?_
      obtain ⟨hit, hhit, rfl⟩ := List.mem_map.mp hp
      obtain ⟨hit', hhit', rfl⟩ := List.mem_map.mp hq
      exact Table.eq_of_key_eq (hmem hit hhit).1 (hmem hit' hhit').1 hkey
    rw [List.map_map] at hids ⊢
    exact hids
  · intro row hrow
    obtain ⟨hit, hhit, rfl⟩ := List.mem_map.mp hrow
    exact ⟨hit.point, (hmem hit hhit).1, (hmem hit hhit).2, rfl, rfl⟩

lemma returns_ranked (hreads : service.reads.Lawful) {corpusStore currentStore : Points}
    {vectorPoints : List VectorHit} {filter : Filter} {limit : ℕ} {ranked : List RetrievedRow}
    (h : rankKnowledge lex fsum service.reads corpusStore currentStore query vectorPoints filter
      limit service.policy = .ok ranked) :
    Returns currentStore filter limit (ranked.map .ranked) := by
  obtain ⟨hnodup, hlength, hrows⟩ := rankKnowledge_rows hreads h
  refine ⟨by rwa [List.map_map], by simpa using hlength, ?_⟩
  intro row hrow
  obtain ⟨r, hr, rfl⟩ := List.mem_map.mp hrow
  exact hrows r hr

/-- The store of the last read. -/
def Stores.last (stores : Stores) (lexical : Bool) : Points :=
  if lexical then stores.current else stores.searched

lemma knowledgeSearch_returns (hreads : service.reads.Lawful) {plan : Option (EnforcementPlan py)}
    (hplan : enforceOperation bound .knowledgeSearch (selectors filters) = .ok plan)
    (h : knowledgeSearch lex fsum service stores bound query limit filters status = .ok rows) :
    Returns (stores.last (service.useLexical lex query limit))
      (knowledgeConditions status filters ++ scopeConditions plan) limit rows := by
  simp only [knowledgeSearch, hplan, bind_eq_ok, Except.ok.injEq, exists_eq_left'] at h
  cases hlexical : service.useLexical lex query limit with
  | true =>
    simp only [hlexical, if_true, bind_eq_ok, pure, Except.pure, Except.ok.injEq] at h
    obtain ⟨ranked, hranked, rfl⟩ := h
    exact returns_ranked hreads hranked
  | false =>
    simp only [hlexical, Bool.false_eq_true, if_false, pure, Except.pure, Except.ok.injEq] at h
    subst h
    exact returns_scored hreads _ _ _ _ _

/-- Rows that are returned under the conditions of a scope lie inside the grant. -/
lemma Returns.visible {store : Points} {filter : Filter} {caller : CallerAuthority py}
    {operation : TenancyOperation} {plan : EnforcementPlan py} {scope : IdentityScope py}
    (h : Returns store (filter ++ scopeConditions (some plan)) limit rows)
    (hgrants : plan.Grants caller operation scope) (hreads : operation.requiresStorageFilter = true) :
    ∀ row ∈ rows, caller.Covers row.payload ∧ filter.accepts row.payload = true ∧
      ∃ p ∈ store.rows, row.id = p.id ∧ row.payload = p.payload := by
  intro row hrow
  obtain ⟨p, hp, haccepts, hid, hpayload⟩ := h.stored row hrow
  rw [Filter.accepts_append, Bool.and_eq_true, ← hpayload] at haccepts
  exact ⟨covers_of_accepts hgrants hreads haccepts.2, haccepts.1, p, hp, hid, hpayload⟩

/-- A caller sees points of its grant that match the search, each once: those of the store at the
last read. -/
theorem knowledgeSearch_rows (hreads : service.reads.Lawful) {caller : CallerAuthority py}
    (h : knowledgeSearch lex fsum service stores (some caller) query limit filters status =
      .ok rows) :
    (rows.map (·.id)).Nodup ∧ rows.length ≤ limit ∧ ∀ row ∈ rows,
      caller.Covers row.payload ∧
      (knowledgeConditions status filters).accepts row.payload = true ∧
      ∃ p ∈ (stores.last (service.useLexical lex query limit)).rows,
        row.id = p.id ∧ row.payload = p.payload := by
  obtain ⟨plan, hplan, -⟩ := bind_eq_ok.mp h
  obtain ⟨p, scope, rfl, hgrants⟩ := enforceOperation_grants rfl hplan
  have hreturns := knowledgeSearch_returns hreads hplan h
  exact ⟨hreturns.nodup, hreturns.length, hreturns.visible hgrants rfl⟩

/-- An episode search sees points of the grant that match. -/
theorem memorySearch_rows (hreads : service.reads.Lawful) {caller : CallerAuthority py}
    {points : Points} (h : memorySearch service points (some caller) query limit filters = .ok rows) :
    (rows.map (·.id)).Nodup ∧ rows.length ≤ limit ∧ ∀ row ∈ rows,
      caller.Covers row.payload ∧ (episodeConditions filters).accepts row.payload = true ∧
      ∃ p ∈ points.rows, row.id = p.id ∧ row.payload = p.payload := by
  obtain ⟨plan, hplan, hrows⟩ := bind_eq_ok.mp h
  obtain ⟨p, scope, rfl, hgrants⟩ := enforceOperation_grants rfl hplan
  cases hrows
  have hreturns := returns_scored hreads points (service.embed query) limit
    (episodeConditions filters ++ scopeConditions (some p)) service.scoreThreshold
  exact ⟨hreturns.nodup, hreturns.length, hreturns.visible hgrants rfl⟩

/-- A service with lexical evidence. -/
def hybridService : SearchService where
  reads := oneVector
  embed _ := []
  scoreThreshold := none
  policy := .ofMode .hybrid

/-- A version is superseded before the last read. -/
def supersededStores : Stores where
  searched := technologies "active"
  corpus := technologies "active"
  current := technologies "superseded"

theorem knowledgeSearch_rows_session : ∃ rows,
    knowledgeSearch asciiLexicon floatSum hybridService supersededStores (some sessionCaller)
      "Postgres" 5 [] = .ok rows ∧
    rows.map (·.id) = ["redis"] ∧ ∀ row ∈ rows, sessionCaller.Covers row.payload := by
  obtain ⟨rows, hrows, hids⟩ := exists_ok_of_map
    (show (knowledgeSearch asciiLexicon floatSum hybridService supersededStores
      (some sessionCaller) "Postgres" 5 []).toOption.map (fun rows => rows.map (·.id)) =
        some ["redis"] by decide +kernel)
  exact ⟨rows, hrows, hids, fun row hrow =>
    ((knowledgeSearch_rows oneVector_lawful hrows).2.2 row hrow).1⟩

/-! ### What has no influence -/

/-- A search by vector depends on the points that match. -/
def PointReads.Local (reads : PointReads) : Prop :=
  ∀ (s t : Points) (vector : List Binary64) (limit : ℕ) (filter : Filter)
    (threshold : Option Binary64),
    (∀ p : Point, filter.accepts p.payload = true → (p ∈ s.rows ↔ p ∈ t.rows)) →
    reads.search s vector limit filter threshold = reads.search t vector limit filter threshold

/-- Stores that agree on the grant agree on what a search matches. -/
lemma same_matches {caller : CallerAuthority py} {operation : TenancyOperation}
    {plan : EnforcementPlan py} {scope : IdentityScope py}
    (hgrants : plan.Grants caller operation scope) (hreads : operation.requiresStorageFilter = true)
    {s t : Points} (h : caller.SeesSame s t) (filter : Filter) (p : Point)
    (hp : (filter ++ scopeConditions (some plan)).accepts p.payload = true) :
    p ∈ s.rows ↔ p ∈ t.rows := by
  rw [Filter.accepts_append, Bool.and_eq_true] at hp
  exact h p (covers_of_accepts hgrants hreads hp.2)

/-- What lies outside the grant does not influence a search. -/
theorem knowledgeSearch_congr (hreads : service.reads.Lawful) (hlocal : service.reads.Local)
    {caller : CallerAuthority py} {stores' : Stores}
    (hsearched : caller.SeesSame stores.searched stores'.searched)
    (hcorpus : caller.SeesSame stores.corpus stores'.corpus)
    (hcurrent : caller.SeesSame stores.current stores'.current) :
    knowledgeSearch lex fsum service stores (some caller) query limit filters status =
      knowledgeSearch lex fsum service stores' (some caller) query limit filters status := by
  rw [knowledgeSearch, knowledgeSearch]
  cases hplan : enforceOperation (some caller) .knowledgeSearch (selectors filters) with
  | error e => rfl
  | ok plan =>
    obtain ⟨p, scope, rfl, hgrants⟩ := enforceOperation_grants rfl hplan
    simp only [bind, Except.bind]
    rw [hlocal _ _ _ _ _ _ (same_matches hgrants rfl hsearched _),
      rankKnowledge_congr hreads hreads (same_matches hgrants rfl hcorpus _)
        (same_matches hgrants rfl hcurrent _)]

lemma oneVector_local : oneVector.Local := by
  intro s t vector limit filter threshold h
  have hperm : (s.rows.filter fun p => filter.accepts p.payload).Perm
      (t.rows.filter fun p => filter.accepts p.payload) :=
    filter_perm_of_same s.nodup_rows t.nodup_rows h
  rw [oneVector]
  refine congrArg (List.map _) (congrArg (List.take limit) (Scoring.sortBy_congr hperm ?_))
  exact s.nodup.sublist (List.filter_sublist.map _)

/-- A technology of another tenant. -/
def foreignTechnology : Point := ⟨"mysql", fun key =>
  [("content", Json.str "Postgres Postgres Postgres"), ("status", .str "active"),
    ("tenant", .str "other")].lookup key⟩

/-- The technologies, with one of another tenant. -/
def sharedStore : Points where
  rows := (technologies "active").rows ++ [foreignTechnology]
  nodup := by simp [technologies, foreignTechnology]

lemma not_covers_foreign : ¬ sessionCaller.Covers foreignTechnology.payload := by
  intro h
  obtain ⟨v, hv, hmatch⟩ := h .tenant (FrozenSet.ne_empty_iff.mpr ⟨"acme", by decide⟩)
  obtain rfl : v = "acme" := by simpa [sessionCaller] using hv
  exact absurd hmatch (by decide +kernel)

lemma sessionCaller_sees_shared : sessionCaller.SeesSame (technologies "active") sharedStore := by
  intro p hp
  have hne : p ≠ foreignTechnology := fun heq => not_covers_foreign (heq ▸ hp)
  simp [sharedStore, hne]

theorem knowledgeSearch_congr_shared :
    knowledgeSearch asciiLexicon floatSum hybridService
        ⟨technologies "active", technologies "active", technologies "active"⟩ (some sessionCaller)
        "Postgres" 5 [] =
      knowledgeSearch asciiLexicon floatSum hybridService ⟨sharedStore, sharedStore, sharedStore⟩
        (some sessionCaller) "Postgres" 5 [] :=
  knowledgeSearch_congr oneVector_lawful oneVector_local sessionCaller_sees_shared
    sessionCaller_sees_shared sessionCaller_sees_shared

end Returned

end CyberBrain.Retrieval
