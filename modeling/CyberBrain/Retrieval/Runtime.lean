import CyberBrain.Foundation.BoundedReads
import CyberBrain.Knowledge.Evolution
import CyberBrain.Retrieval.Fusion
import CyberBrain.Retrieval.Lexical
import CyberBrain.Tenancy.Runtime

/-!
# Ranking stored Knowledge

`rank_knowledge` reads the points that a filter admits, ranks them by their terms, merges that with
the order of a vector search and reads the selected points once more. Other writers may change the
store between the reads.
-/

namespace CyberBrain.Retrieval

open Python Scoring
open Knowledge (isFalsy pyStr)
open Tenancy (Point Points)

/-! ### Policies -/

inductive RetrievalMode
  | vector
  | literal
  | hybrid
  deriving DecidableEq, Repr

def RetrievalMode.text : RetrievalMode → String
  | vector  => "vector"
  | literal => "literal"
  | hybrid  => "hybrid"

/-- `KnowledgeRetrievalPolicy`, with what its constructor admits. -/
structure KnowledgeRetrievalPolicy where
  mode : RetrievalMode
  maxRecords : ℕ
  candidateMultiplier : ℕ
  maxRecords_bounds : 1 ≤ maxRecords ∧ maxRecords ≤ 50000
  candidateMultiplier_bounds : 1 ≤ candidateMultiplier ∧ candidateMultiplier ≤ 10

/-- Between `n` and `m` repetitions, as many as possible. -/
def times (a : Pattern) : ℕ → ℕ → Pattern
  | 0, 0         => .empty
  | 0, m + 1     => .alt (.seq a (times a 0 m)) .empty
  | n + 1, 0     => .seq a (times a n 0)
  | n + 1, m + 1 => .seq a (times a n m)

/-- The patterns of `_LITERAL_PATTERN`, without the boundaries around each. -/
def literalPatterns (re : CharClasses) : List Pattern :=
  let digit := Pattern.char re.isDecimal
  let mark := fun c => Pattern.char (re.alike c)
  let hex := Pattern.char fun c => "0123456789abcdef".toList.any (re.alike c)
  let word := Pattern.char fun c => re.isWord c || c = '.' || c = '-'
  let decimals := Pattern.seq (mark '.') (.atLeastOnce digit)
  [times hex 7 40,
    .seq (.atLeastOnce digit) (.seq decimals (.alt decimals .empty)),
    times digit 4 5,
    .seq (.atLeastOnce word) (.seq (mark ':') (.atLeastOnce word)),
    .seq (.atLeastOnce digit) (.seq (mark '/') (.atLeastOnce digit))]

/-- `literal_heavy_query`. -/
def literalHeavyQuery (re : CharClasses) (query : String) : Bool :=
  Pattern.findAll re (.oneOf ((literalPatterns re).map fun a =>
    .seq .boundary (.seq a .boundary))) query ≠ []

namespace KnowledgeRetrievalPolicy

variable (policy : KnowledgeRetrievalPolicy)

/-- `uses_lexical`. -/
def usesLexical (re : CharClasses) (query : String) : Bool :=
  policy.mode = .hybrid || (policy.mode = .literal && literalHeavyQuery re query)

/-- `candidate_limit`. -/
def candidateLimit (limit : ℕ) : ℕ := max limit (min 500 (limit * policy.candidateMultiplier))

end KnowledgeRetrievalPolicy

/-! ### Reads -/

/-- A point that a vector search returns. -/
structure VectorHit where
  point : Point
  score : Option Double

/-- The reads of a `PointRepository`. A scroll may be restricted to some ids. -/
structure PointReads where
  search : Points → (vector : List Binary64) → (limit : ℕ) → Filter →
    (threshold : Option Binary64) → List VectorHit
  scroll : Points → Filter → (ids : Option (List String)) → (limit : ℕ) → List Point

/-- What a scroll admits. -/
def admits (filter : Filter) (ids : Option (List String)) (p : Point) : Bool :=
  filter.accepts p.payload && ids.all fun ids => p.id ∈ ids

@[simp] lemma admits_none (filter : Filter) :
    admits filter none = fun p => filter.accepts p.payload := by
  funext p
  simp [admits]

/-- The documented behaviour of the reads. -/
structure PointReads.Lawful (reads : PointReads) : Prop where
  search : ∀ points vector limit filter threshold,
    let hits := reads.search points vector limit filter threshold
    (hits.map (·.point)).Nodup ∧ hits.length ≤ limit ∧
      ∀ hit ∈ hits, hit.point ∈ points.rows ∧ filter.accepts hit.point.payload = true
  scroll : ∀ points filter ids limit,
    BoundedRead points.rows (admits filter ids) limit (reads.scroll points filter ids limit)

/-- A store whose points have the vector of every query: a search returns the points that match by
their ids. -/
def oneVector : PointReads where
  search points _ limit filter _ :=
    ((sortBy Point.id (points.rows.filter fun p => filter.accepts p.payload)).take limit).map
      fun p => ⟨p, some .one⟩
  scroll points filter ids limit := (points.rows.filter (admits filter ids)).take limit

lemma oneVector_lawful : oneVector.Lawful where
  search points vector limit filter threshold := by
    have hpoints : (oneVector.search points vector limit filter threshold).map (·.point) =
        (sortBy Point.id (points.rows.filter fun p => filter.accepts p.payload)).take limit := by
      simp [oneVector, Function.comp_def]
    refine ⟨?_, ?_, fun hit hhit => ?_⟩
    · rw [hpoints]
      refine List.Nodup.sublist (List.take_sublist _ _) ((sortBy_perm _).nodup_iff.mpr ?_)
      exact points.nodup_rows.filter _
    · rw [← List.length_map (f := VectorHit.point), hpoints]
      exact List.length_take_le _ _
    · have hmem := List.mem_of_mem_take (hpoints ▸ List.mem_map_of_mem hhit)
      simpa using hmem
  scroll points filter ids limit := boundedRead_take points.nodup_rows _ limit

/-! ### Ranking -/

/-- A row of the result: a payload, with the id, the scores and the method put over it. -/
structure RetrievedRow where
  id : String
  payload : Fields
  score : Option Double
  method : String
  rankingScore : Option Double
  lexicalScore : Option Double

variable (lex : Lexicon) (fsum : List Double → Double)

/-- `str((point.get("payload") or {}).get("content") or "")`. -/
def contentText (p : Point) : String :=
  let value := (p.payload "content").getD .null
  if isFalsy value then "" else pyStr lex.py value

/-- The lexical corpus of some points. -/
def corpusOf (points : List Point) : BM25Corpus :=
  .ofDocuments (points.map fun p => ⟨p.id, contentText lex p⟩)

/-- `enumerate(ids, 1)` as a dictionary. -/
def rankIn (ids : List String) (id : String) : Option ℕ := (ids.idxOf? id).map (· + 1)

/-- The candidates for fusing two rankings. -/
def fusionCandidates (semanticIds lexicalIds : List String) : List FusionCandidate :=
  (FrozenSet.ofList (semanticIds ++ lexicalIds)).sorted.map fun id =>
    ⟨{ id }, rankIn semanticIds id, rankIn lexicalIds id⟩

/-- The hits of the fused rankings. -/
def fusedHits (semanticIds lexicalIds : List String) : List RankedHit :=
  ReciprocalRankFusion.standard.fuse fsum {} (fusionCandidates semanticIds lexicalIds)

/-- `ordered_ids`. -/
def orderedIds (mode : RetrievalMode) (semanticIds lexicalIds : List String) : List String :=
  if mode = .hybrid then (fusedHits fsum semanticIds lexicalIds).map (·.id)
  else (lexicalIds ++ semanticIds).eraseDups

/-- `lexical`. -/
def lexicalHits (policy : KnowledgeRetrievalPolicy) (points : List Point) (query : String)
    (limit : ℕ) : List (String × Double) :=
  ((corpusOf lex points).hits lex query).take (policy.candidateLimit limit)

/-- `semantic_ids`. -/
def semanticIds (vectorPoints : List VectorHit) : List String :=
  (vectorPoints.map (·.point.id)).eraseDups

/-- `selected_ids`. -/
def selectedIds (policy : KnowledgeRetrievalPolicy) (points : List Point) (query : String)
    (vectorPoints : List VectorHit) (limit : ℕ) : List String :=
  (orderedIds fsum policy.mode (semanticIds vectorPoints)
    ((lexicalHits lex policy points query limit).map (·.1))).take limit

/-- `ranking_scores`. -/
def rankingScores (policy : KnowledgeRetrievalPolicy) (points : List Point) (query : String)
    (vectorPoints : List VectorHit) (limit : ℕ) : List (String × Double) :=
  if policy.mode = .hybrid then
    (fusedHits fsum (semanticIds vectorPoints)
      ((lexicalHits lex policy points query limit).map (·.1))).map fun hit => (hit.id, hit.score)
  else []

/-- The row of a selected point. -/
def rowOf (policy : KnowledgeRetrievalPolicy) (points : List Point) (query : String)
    (vectorPoints : List VectorHit) (limit : ℕ) (p : Point) : RetrievedRow where
  id := p.id
  payload := p.payload
  score := (vectorPoints.reverse.find? fun hit => hit.point.id = p.id).bind (·.score)
  method := policy.mode.text
  rankingScore := (rankingScores lex fsum policy points query vectorPoints limit).lookup p.id
  lexicalScore := (lexicalHits lex policy points query limit).lookup p.id

/-- The rows of the selected ids that the second scroll still returns. -/
def selectRows (reads : PointReads) (store : Points) (filter : Filter) (selected : List String)
    (row : Point → RetrievedRow) : List RetrievedRow :=
  let current :=
    if selected = [] then [] else reads.scroll store filter (some selected) selected.length
  selected.filterMap fun id => (current.find? fun p => p.id = id).map row

/-- `rank_knowledge`, where the store is `corpusStore` at the first scroll and `currentStore` at the
second. -/
def rankKnowledge (reads : PointReads) (corpusStore currentStore : Points) (query : String)
    (vectorPoints : List VectorHit) (filter : Filter) (limit : ℕ)
    (policy : KnowledgeRetrievalPolicy) : Except Exc (List RetrievedRow) := do
  let points := reads.scroll corpusStore filter none (policy.maxRecords + 1)
  require (points.length ≤ policy.maxRecords)
    (.storageError "Knowledge lexical corpus exceeds configured max_records")
  pure (selectRows reads currentStore filter
    (selectedIds lex fsum policy points query vectorPoints limit)
    (rowOf lex fsum policy points query vectorPoints limit))

/-! ### The order -/

section Ranking

variable {lex fsum} {reads : PointReads} {filter : Filter} {query : String} {limit : ℕ}
  {policy : KnowledgeRetrievalPolicy} {vectorPoints : List VectorHit} {points : List Point}

lemma mem_fusedHits {semantic lexical : List String} {id : String} :
    id ∈ (fusedHits fsum semantic lexical).map (·.id) ↔ id ∈ semantic ∨ id ∈ lexical := by
  have hkey (c : FusionCandidate) :
      ReciprocalRankFusion.standard.mergeKey {} c = some c.hit.id := rfl
  have hcandidates : (∃ c ∈ fusionCandidates semantic lexical, c.hit.id = id) ↔
      id ∈ semantic ∨ id ∈ lexical := by
    simp only [fusionCandidates, List.mem_map, exists_exists_and_eq_and, exists_eq_right,
      ← FrozenSet.mem_def, FrozenSet.mem_ofList, List.mem_append]
  rw [← hcandidates, List.mem_map]
  obtain ⟨-, hhits⟩ := @ReciprocalRankFusion.fuse_hits .standard fsum {}
    (fusionCandidates semantic lexical)
  constructor
  · rintro ⟨hit, hhit, rfl⟩
    obtain ⟨⟨c, hc, hid⟩, -⟩ := (hhits hit).mp hhit
    exact ⟨c, hc, Option.some.inj ((hkey c).symm.trans hid)⟩
  · rintro ⟨c, hc, rfl⟩
    let parts := ReciprocalRankFusion.standard.hitParts {} (fusionCandidates semantic lexical) c.hit.id
    exact ⟨⟨c.hit.id, (fsum (parts.map Prod.snd)).roundDecimal 8, parts⟩,
      (hhits _).mpr ⟨⟨c, hc, hkey c⟩, rfl, rfl⟩, rfl⟩

lemma mem_orderedIds {mode : RetrievalMode} {semantic lexical : List String} {id : String} :
    id ∈ orderedIds fsum mode semantic lexical ↔ id ∈ semantic ∨ id ∈ lexical := by
  rw [orderedIds]
  split_ifs
  · exact mem_fusedHits
  · rw [List.mem_eraseDups, List.mem_append, or_comm]

lemma nodup_orderedIds (mode : RetrievalMode) (semantic lexical : List String) :
    (orderedIds fsum mode semantic lexical).Nodup := by
  rw [orderedIds]
  split_ifs
  · exact (ReciprocalRankFusion.fuse_hits _).1
  · exact nodup_eraseDups _

lemma nodup_selectedIds (policy : KnowledgeRetrievalPolicy) (points : List Point) (query : String)
    (vectorPoints : List VectorHit) (limit : ℕ) :
    (selectedIds lex fsum policy points query vectorPoints limit).Nodup :=
  (nodup_orderedIds _ _ _).sublist (List.take_sublist _ _)

/-! ### The corpus -/

/-- Points that are read of a store have different ids. -/
lemma nodup_ids {store : Points} {p : Point → Bool} {answer : List Point}
    (h : BoundedRead store.rows p limit answer) : (answer.map (·.id)).Nodup :=
  h.nodup.map_on fun _ ha _ hb hkey => Table.eq_of_key_eq (h.mem _ ha).1 (h.mem _ hb).1 hkey

lemma distinct_corpusOf (h : (points.map (·.id)).Nodup) : (corpusOf lex points).Distinct := by
  rw [BM25Corpus.Distinct, corpusOf, BM25Corpus.ofDocuments, List.map_map]
  exact h

/-- A lexical hit is a point with a term of the query. -/
lemma term_of_lexicalHit (hpoints : (points.map (·.id)).Nodup) {id : String}
    (h : id ∈ (lexicalHits lex policy points query limit).map (·.1)) :
    ∃ p ∈ points, p.id = id ∧
      ∃ term ∈ tokenize lex query, term ∈ tokenize lex (contentText lex p) := by
  obtain ⟨⟨id, score⟩, hhit, rfl⟩ := List.mem_map.mp h
  obtain ⟨d, hd, rfl, hterm⟩ := BM25Corpus.term_of_hit (distinct_corpusOf hpoints)
    (List.mem_of_mem_take hhit)
  obtain ⟨p, hp, rfl⟩ := List.mem_map.mp hd
  exact ⟨p, hp, rfl, hterm⟩

lemma lexicalHits_congr {points' : List Point} (hperm : points.Perm points')
    (hpoints : (points.map (·.id)).Nodup) :
    lexicalHits lex policy points query limit = lexicalHits lex policy points' query limit := by
  rw [lexicalHits, lexicalHits]
  refine congrArg (List.take _) (BM25Corpus.hits_congr rfl rfl (distinct_corpusOf hpoints) ?_)
  exact hperm.map _

/-! ### The last read -/

/-- A read finds an id if the store has it and it matches. -/
lemma find?_eq_some_iff_of_read {store : Points} {p : Point → Bool} {limit : ℕ} {answer : List Point}
    (h : BoundedRead store.rows p limit answer) (hfew : store.rows.countP p ≤ limit) {id : String}
    {a : Point} : (answer.find? fun p => p.id = id) = some a ↔
      store.find? id = some a ∧ p a = true := by
  constructor
  · intro hfind
    have hid : a.id = id := by simpa using List.find?_some hfind
    obtain ⟨ha, hp⟩ := h.mem a (List.mem_of_find?_eq_some hfind)
    exact ⟨hid ▸ Table.find?_of_mem ha, hp⟩
  · rintro ⟨hfind, hp⟩
    obtain rfl := Table.key_of_find? hfind
    refine find?_key_of_unique ((h.mem_iff hfew).mpr ⟨Table.mem_of_find? hfind, hp⟩) ?_
    intro b hb hkey
    exact Table.eq_of_key_eq (h.mem b hb).1 (Table.mem_of_find? hfind) hkey

/-- The last read finds a selected id if its point still matches the filter. -/
lemma find?_scroll (hreads : reads.Lawful) {store : Points} {ids : List String}
    {id : String} (hid : id ∈ ids) :
    (reads.scroll store filter (some ids) ids.length).find? (fun p => p.id = id) =
      (store.find? id).filter fun p => filter.accepts p.payload := by
  have hread := hreads.scroll store filter (some ids) ids.length
  have hfew : store.rows.countP (admits filter (some ids)) ≤ ids.length := by
    rw [List.countP_eq_length_filter, ← List.length_map (f := Point.id)]
    refine (List.Nodup.subperm (store.nodup.sublist (List.filter_sublist.map _)) ?_).length_le
    intro id' hid'
    obtain ⟨p, hp, rfl⟩ := List.mem_map.mp hid'
    have hadmits := (List.mem_filter.mp hp).2
    simp only [admits, Bool.and_eq_true, Option.all_some, decide_eq_true_eq] at hadmits
    exact hadmits.2
  refine Option.ext fun p => ?_
  rw [Option.filter_eq_some_iff, find?_eq_some_iff_of_read hread hfew]
  refine and_congr_right fun hfind => ?_
  rw [admits, Table.key_of_find? hfind]
  simp [hid]

/-- The rows are those of the selected ids whose points still match. -/
lemma selectRows_eq (hreads : reads.Lawful) (store : Points) (selected : List String)
    (row : Point → RetrievedRow) : selectRows reads store filter selected row =
      selected.filterMap fun id =>
        ((store.find? id).filter fun p => filter.accepts p.payload).map row := by
  rw [selectRows]
  refine List.filterMap_congr fun id hid => ?_
  rw [if_neg (List.ne_nil_of_mem hid), find?_scroll hreads hid]

/-- Which rows are returned: those of a store that still match. -/
lemma mem_selectRows (hreads : reads.Lawful) {store : Points} {selected : List String}
    {row : Point → RetrievedRow} {r : RetrievedRow} :
    r ∈ selectRows reads store filter selected row ↔
      ∃ p ∈ store.rows, p.id ∈ selected ∧ filter.accepts p.payload = true ∧ row p = r := by
  simp only [selectRows_eq hreads, List.mem_filterMap, Option.map_eq_some_iff,
    Option.filter_eq_some_iff]
  constructor
  · rintro ⟨id, hid, p, ⟨hp, haccepts⟩, rfl⟩
    exact ⟨p, Table.mem_of_find? hp, Table.key_of_find? hp ▸ hid, haccepts, rfl⟩
  · rintro ⟨p, hp, hid, haccepts, rfl⟩
    exact ⟨p.id, hid, p, ⟨Table.find?_of_mem hp, haccepts⟩, rfl⟩

/-- The rows come in the order of their ids. -/
lemma ids_selectRows (hreads : reads.Lawful) {store : Points} {selected : List String}
    {row : Point → RetrievedRow} (hrow : ∀ p, (row p).id = p.id) :
    (selectRows reads store filter selected row).map (·.id) = selected.filter fun id =>
      (store.find? id).any fun p => filter.accepts p.payload := by
  rw [selectRows_eq hreads, List.map_filterMap, ← List.filterMap_eq_filter]
  refine List.filterMap_congr fun id _ => ?_
  cases hfind : store.find? id with
  | none   => simp [Option.guard, hfind]
  | some p =>
    by_cases haccepts : filter.accepts p.payload = true
    · simp [Option.guard, Option.filter, hfind, haccepts, hrow, Table.key_of_find? hfind]
    · simp [Option.guard, Option.filter, hfind, haccepts]

lemma rankKnowledge_eq_ok (hreads : reads.Lawful) {corpusStore currentStore : Points}
    {rows : List RetrievedRow} :
    rankKnowledge lex fsum reads corpusStore currentStore query vectorPoints filter limit policy =
        .ok rows ↔
      corpusStore.rows.countP (admits filter none) ≤ policy.maxRecords ∧
      rows = selectRows reads currentStore filter
        (selectedIds lex fsum policy (reads.scroll corpusStore filter none (policy.maxRecords + 1))
          query vectorPoints limit)
        (rowOf lex fsum policy (reads.scroll corpusStore filter none (policy.maxRecords + 1))
          query vectorPoints limit) := by
  have hread := hreads.scroll corpusStore filter none (policy.maxRecords + 1)
  rw [← Nat.not_lt, ← hread.limit_lt (Nat.lt_succ_self _), Nat.not_lt]
  simp only [rankKnowledge, bind_eq_ok, require_eq_ok, exists_const, pure, Except.pure,
    Except.ok.injEq]
  exact and_congr_right fun _ => eq_comm

/-! ### Rows -/

variable {corpusStore currentStore : Points} {rows : List RetrievedRow}

/-- A row is a point of the store at the last read, and each point comes once. -/
lemma rankKnowledge_rows (hreads : reads.Lawful)
    (h : rankKnowledge lex fsum reads corpusStore currentStore query vectorPoints filter limit
      policy = .ok rows) :
    (rows.map (·.id)).Nodup ∧ rows.length ≤ limit ∧ ∀ r ∈ rows,
      ∃ p ∈ currentStore.rows, filter.accepts p.payload = true ∧ r.id = p.id ∧
        r.payload = p.payload := by
  obtain ⟨-, rfl⟩ := (rankKnowledge_eq_ok hreads).mp h
  generalize hpoints : reads.scroll corpusStore filter none (policy.maxRecords + 1) = points
  have hids : (selectRows reads currentStore filter
      (selectedIds lex fsum policy points query vectorPoints limit)
      (rowOf lex fsum policy points query vectorPoints limit)).map (·.id) = _ :=
    ids_selectRows hreads fun _ => rfl
  refine ⟨?_, ?_, fun r hr => ?_⟩
  · rw [hids]
    exact (nodup_selectedIds _ _ _ _ _).filter _
  · rw [← List.length_map (f := RetrievedRow.id), hids]
    exact (List.length_filter_le _ _).trans (List.length_take_le _ _)
  · obtain ⟨p, hp, -, haccepts, rfl⟩ := (mem_selectRows hreads).mp hr
    exact ⟨p, hp, haccepts, rfl, rfl⟩

/-- Two technologies of a project. -/
def technologies (status : String) : Points where
  rows := [⟨"postgres", fun key =>
      [("content", Json.str "Postgres 15 stores the ledger"), ("status", .str status),
        ("tenant", .str "acme"), ("user", .str "ann"), ("session_id", .str "s1")].lookup key⟩,
    ⟨"redis", fun key =>
      [("content", Json.str "Redis caches sessions"), ("status", .str "active"),
        ("tenant", .str "acme"), ("user", .str "ann"), ("session_id", .str "s2")].lookup key⟩]
  nodup := by simp

/-- ASCII text. A logarithm is taken only of 2. -/
def asciiLexicon : Lexicon where
  py := .ascii
  re := .ascii
  log _ := .literal (6931471805599453 / 10 ^ 16)

lemma policy_bounds : (1 ≤ 10000 ∧ 10000 ≤ 50000) ∧ (1 ≤ 3 ∧ 3 ≤ 10) := by decide

/-- `KnowledgeRetrievalPolicy(mode)`. -/
def KnowledgeRetrievalPolicy.ofMode (mode : RetrievalMode) : KnowledgeRetrievalPolicy :=
  ⟨mode, 10000, 3, policy_bounds.1, policy_bounds.2⟩

def floatSum (l : List Double) : Double := l.foldl (· + ·) .zero

/-- There is evidence for every row: it was found by the vector search, or it has a term of the
query. -/
theorem rankKnowledge_evidence (hreads : reads.Lawful)
    (h : rankKnowledge lex fsum reads corpusStore currentStore query vectorPoints filter limit
      policy = .ok rows) :
    ∀ r ∈ rows, r.id ∈ vectorPoints.map (·.point.id) ∨
      ∃ p ∈ corpusStore.rows, filter.accepts p.payload = true ∧ p.id = r.id ∧
        ∃ term ∈ tokenize lex query, term ∈ tokenize lex (contentText lex p) := by
  obtain ⟨-, rfl⟩ := (rankKnowledge_eq_ok hreads).mp h
  have hread := hreads.scroll corpusStore filter none (policy.maxRecords + 1)
  intro r hr
  obtain ⟨p, -, hid, -, rfl⟩ := (mem_selectRows hreads).mp hr
  rcases mem_orderedIds.mp (List.mem_of_mem_take hid) with hsemantic | hlexical
  · exact .inl (List.mem_eraseDups.mp hsemantic)
  · obtain ⟨q, hq, hqid, hterm⟩ := term_of_lexicalHit (nodup_ids hread) hlexical
    obtain ⟨hmem, hadmits⟩ := hread.mem q hq
    exact .inr ⟨q, hmem, by simpa using hadmits, hqid, hterm⟩

/-- A vector search for what is active. -/
def activeFilter : Filter := [.field (.matchValue "status" (.str "active"))]

def activeHits (points : Points) : List VectorHit := oneVector.search points [] 5 activeFilter none

theorem rankKnowledge_evidence_redis : ∃ rows,
    rankKnowledge asciiLexicon floatSum oneVector (technologies "active") (technologies "superseded")
      "Redis" (activeHits (technologies "active")) activeFilter 5 (.ofMode .hybrid) = .ok rows ∧
    rows.map (·.id) = ["redis"] ∧
    ∀ r ∈ rows, r.id ∈ (activeHits (technologies "active")).map (·.point.id) ∨
      ∃ p ∈ (technologies "active").rows, activeFilter.accepts p.payload = true ∧ p.id = r.id ∧
        ∃ term ∈ tokenize asciiLexicon "Redis",
          term ∈ tokenize asciiLexicon (contentText asciiLexicon p) := by
  obtain ⟨rows, hrows, hids⟩ := exists_ok_of_map
    (show (rankKnowledge asciiLexicon floatSum oneVector (technologies "active")
      (technologies "superseded") "Redis" (activeHits (technologies "active")) activeFilter 5
      (.ofMode .hybrid)).toOption.map (fun rows => rows.map (·.id)) = some ["redis"] by
        decide +kernel)
  exact ⟨rows, hrows, hids, rankKnowledge_evidence oneVector_lawful hrows⟩

/-- A corpus above the limit is refused, and nothing else is. -/
theorem rankKnowledge_eq_error (hreads : reads.Lawful) {e : Exc} :
    rankKnowledge lex fsum reads corpusStore currentStore query vectorPoints filter limit policy =
        .error e ↔
      policy.maxRecords < corpusStore.rows.countP (fun p => filter.accepts p.payload) ∧
        e = .storageError "Knowledge lexical corpus exceeds configured max_records" := by
  have hread := hreads.scroll corpusStore filter none (policy.maxRecords + 1)
  rw [← admits_none, ← hread.limit_lt (Nat.lt_succ_self _), ← Nat.not_le]
  by_cases hsmall : (reads.scroll corpusStore filter none (policy.maxRecords + 1)).length ≤
      policy.maxRecords
  · simp [rankKnowledge, require, hsmall, bind, Except.bind, pure, Except.pure]
  · simp [rankKnowledge, require, hsmall, bind, Except.bind, eq_comm]

/-- What is selected depends on the corpus, not on the order in which it is read. -/
lemma rowOf_congr {points' : List Point} (hperm : points.Perm points')
    (hpoints : (points.map (·.id)).Nodup) :
    selectedIds lex fsum policy points query vectorPoints limit =
        selectedIds lex fsum policy points' query vectorPoints limit ∧
      rowOf lex fsum policy points query vectorPoints limit =
        rowOf lex fsum policy points' query vectorPoints limit := by
  have hlexical : lexicalHits lex policy points query limit =
      lexicalHits lex policy points' query limit := lexicalHits_congr hperm hpoints
  constructor
  · rw [selectedIds, selectedIds, hlexical]
  · funext p
    rw [rowOf, rowOf, rankingScores, rankingScores, hlexical]

lemma selectRows_congr {reads' : PointReads} (hreads : reads.Lawful) (hreads' : reads'.Lawful)
    {store store' : Points} (h : ∀ p : Point, filter.accepts p.payload = true →
      (p ∈ store.rows ↔ p ∈ store'.rows)) (selected : List String) (row : Point → RetrievedRow) :
    selectRows reads store filter selected row = selectRows reads' store' filter selected row := by
  rw [selectRows_eq hreads, selectRows_eq hreads']
  exact List.filterMap_congr fun id _ => congrArg _ (Tenancy.filter_find?_congr h id)

/-- What does not match the filter does not influence the rows. -/
theorem rankKnowledge_congr {reads' : PointReads} (hreads : reads.Lawful) (hreads' : reads'.Lawful)
    {corpusStore' currentStore' : Points}
    (hcorpus : ∀ p : Point, filter.accepts p.payload = true →
      (p ∈ corpusStore.rows ↔ p ∈ corpusStore'.rows))
    (hcurrent : ∀ p : Point, filter.accepts p.payload = true →
      (p ∈ currentStore.rows ↔ p ∈ currentStore'.rows)) :
    rankKnowledge lex fsum reads corpusStore currentStore query vectorPoints filter limit policy =
      rankKnowledge lex fsum reads' corpusStore' currentStore' query vectorPoints filter limit
        policy := by
  have hread := hreads.scroll corpusStore filter none (policy.maxRecords + 1)
  have hread' := hreads'.scroll corpusStore' filter none (policy.maxRecords + 1)
  obtain ⟨hlength, hperm⟩ := hread.alike hread' corpusStore.nodup_rows corpusStore'.nodup_rows
    fun p hp => hcorpus p (by simpa [admits] using hp)
  rw [rankKnowledge, rankKnowledge, hlength]
  by_cases hsmall : (reads'.scroll corpusStore' filter none (policy.maxRecords + 1)).length ≤
      policy.maxRecords
  · have hfew : corpusStore.rows.countP (admits filter none) ≤ policy.maxRecords + 1 := by
      have := hread.length
      omega
    obtain ⟨hselected, hrow⟩ := @rowOf_congr lex fsum query limit policy vectorPoints _ _
      (hperm hfew) (nodup_ids hread)
    rw [hselected, hrow, selectRows_congr hreads hreads' hcurrent]
  · simp [require, hsmall, bind, Except.bind]

/-! ### A store that does not change -/

/-- Without fusion the lexical hits come first, and the others fill up. -/
lemma selectedIds_of_not_hybrid (hmode : policy.mode ≠ .hybrid) (hpoints : (points.map (·.id)).Nodup) :
    selectedIds lex fsum policy points query vectorPoints limit =
      ((lexicalHits lex policy points query limit).map (·.1) ++
        (semanticIds vectorPoints).filter fun id =>
          id ∉ (lexicalHits lex policy points query limit).map (·.1)).take limit := by
  have hlexical : ((lexicalHits lex policy points query limit).map (·.1)).Nodup :=
    (BM25Corpus.nodup_hits (distinct_corpusOf hpoints)).sublist ((List.take_sublist _ _).map _)
  have hsemantic : (semanticIds vectorPoints).Nodup := nodup_eraseDups _
  rw [selectedIds, orderedIds, if_neg hmode, List.eraseDups_append, eraseDups_of_nodup hlexical,
    List.removeAll, eraseDups_of_nodup (hsemantic.filter _)]
  simp

/-- What is selected of a store that does not change is returned as a whole; without fusion these
are the lexical hits, and then the others. -/
theorem rankKnowledge_settled (hreads : reads.Lawful) {store : Points}
    (hvector : ∀ hit ∈ vectorPoints, hit.point ∈ store.rows ∧
      filter.accepts hit.point.payload = true)
    (h : rankKnowledge lex fsum reads store store query vectorPoints filter limit policy = .ok rows) :
    let points := store.rows.filter fun p => filter.accepts p.payload
    let lexicalIds := (lexicalHits lex policy points query limit).map (·.1)
    rows.map (·.id) = selectedIds lex fsum policy points query vectorPoints limit ∧
      (policy.mode ≠ .hybrid → rows.map (·.id) =
        (lexicalIds ++ (semanticIds vectorPoints).filter fun id => id ∉ lexicalIds).take limit) := by
  obtain ⟨hfew, rfl⟩ := (rankKnowledge_eq_ok hreads).mp h
  have hread := hreads.scroll store filter none (policy.maxRecords + 1)
  have hperm : (reads.scroll store filter none (policy.maxRecords + 1)).Perm
      (store.rows.filter fun p => filter.accepts p.payload) := by
    simpa using hread.perm (Nat.le_succ_of_le hfew)
  have hids : (selectRows reads store filter
      (selectedIds lex fsum policy (reads.scroll store filter none (policy.maxRecords + 1)) query
        vectorPoints limit)
      (rowOf lex fsum policy (reads.scroll store filter none (policy.maxRecords + 1)) query
        vectorPoints limit)).map (·.id) =
      selectedIds lex fsum policy (store.rows.filter fun p => filter.accepts p.payload) query
        vectorPoints limit := by
    rw [ids_selectRows hreads fun _ => rfl, ← (rowOf_congr hperm (nodup_ids hread)).1,
      List.filter_eq_self]
    intro id hid
    rcases mem_orderedIds.mp (List.mem_of_mem_take hid) with hsemantic | hlexical
    · obtain ⟨hit, hhit, rfl⟩ := List.mem_map.mp (List.mem_eraseDups.mp hsemantic)
      obtain ⟨hmem, haccepts⟩ := hvector hit hhit
      simpa [Table.find?_of_mem hmem] using haccepts
    · obtain ⟨p, hp, rfl, -⟩ := term_of_lexicalHit (nodup_ids hread) hlexical
      obtain ⟨hmem, hadmits⟩ := hread.mem p hp
      simpa [Table.find?_of_mem hmem] using hadmits
  refine ⟨hids, fun hmode => hids.trans (selectedIds_of_not_hybrid hmode ?_)⟩
  exact store.nodup.sublist (List.filter_sublist.map _)

theorem rankKnowledge_settled_redis : ∃ rows,
    rankKnowledge asciiLexicon floatSum oneVector (technologies "active") (technologies "active")
      "Redis" (activeHits (technologies "active")) activeFilter 5 (.ofMode .literal) = .ok rows ∧
    rows.map (·.id) = ["redis", "postgres"] := by
  obtain ⟨rows, hrows, hids⟩ := exists_ok_of_map
    (show (rankKnowledge asciiLexicon floatSum oneVector (technologies "active")
      (technologies "active") "Redis" (activeHits (technologies "active")) activeFilter 5
      (.ofMode .literal)).toOption.map (fun rows => rows.map (·.id)) = some ["redis", "postgres"] by
        decide +kernel)
  have hvector : ∀ hit ∈ activeHits (technologies "active"),
      hit.point ∈ (technologies "active").rows ∧ activeFilter.accepts hit.point.payload = true :=
    (oneVector_lawful.search _ _ _ _ _).2.2
  obtain ⟨-, hliteral⟩ := rankKnowledge_settled oneVector_lawful hvector hrows
  refine ⟨rows, hrows, (hliteral (by decide)).trans ?_⟩
  decide +kernel

end Ranking

end CyberBrain.Retrieval
