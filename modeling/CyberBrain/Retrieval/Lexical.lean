import CyberBrain.Foundation.DecimalRounding
import CyberBrain.Foundation.Except
import CyberBrain.Foundation.Patterns
import CyberBrain.Foundation.Python
import CyberBrain.Foundation.Scoring
import CyberBrain.Foundation.Table

/-!
# Lexical evidence

`BM25Corpus` scores documents by the terms of a query. What is scored above zero does not depend on
the order of the documents, and shares a term with the query.
-/

namespace CyberBrain.Retrieval

open Python Scoring

/-! ### Terms -/

/-- What lexical scores take from the runtime. -/
structure Lexicon where
  py : Runtime
  re : CharClasses
  /-- `math.log`. -/
  log : Double → Double

variable (lex : Lexicon)

/-- `[\w.-]`. -/
def isTermChar (c : Char) : Bool := lex.re.isWord c || c = '.' || c = '-'

/-- `tokenize`. -/
def tokenize (text : String) : List String :=
  ((text.toList.splitOnP fun c => !isTermChar lex c).filter (· ≠ [])).map fun cs =>
    lex.py.casefold (String.ofList cs)

/-! ### The corpus -/

structure BM25Document where
  id : String
  text : String
  deriving DecidableEq

/-- `BM25Corpus`, with the parameters that its constructor admits. -/
structure BM25Corpus where
  documents : List BM25Document
  k1 : Double
  b : Double
  k1_pos : Double.zero < k1
  b_unit : b.InUnit

namespace BM25Corpus

lemma default_k1_pos : Double.zero < Double.literal (3 / 2) := by decide +kernel

lemma default_b_unit : (Double.literal (3 / 4)).InUnit := by decide +kernel

/-- `BM25Corpus(documents)`. -/
def ofDocuments (documents : List BM25Document) : BM25Corpus :=
  ⟨documents, .literal (3 / 2), .literal (3 / 4), default_k1_pos, default_b_unit⟩

variable (corpus : BM25Corpus)

/-- The terms under an id: those of the last document that has it. -/
def terms (id : String) : List String :=
  (corpus.documents.reverse.find? fun d => d.id = id).elim [] fun d => tokenize lex d.text

/-- `float(n)`. -/
def float (n : ℕ) : Double := .rounded false n

def half : Double := .literal (1 / 2)

/-- What a term adds to the score of a document, for `n` documents with `total` terms, `df` of which
have the term, and a document with `len` terms, `freq` of which are the term. -/
def termScore (n total df freq len : ℕ) : Double :=
  let idf := lex.log (.one + (float (n - df) + half).quotient (float df + half))
  let average := Double.rounded false (total / n)
  let average := if average.IsZero then .one else average
  let norm := float freq +
    corpus.k1 * (Double.sub .one corpus.b + (corpus.b * float len).quotient average)
  idf * ((float freq * (corpus.k1 + .one)).quotient norm)

/-- The number of documents that have a term. -/
def df (documents : List BM25Document) (term : String) : ℕ :=
  documents.countP fun d => term ∈ corpus.terms lex d.id

/-- The number of terms in all documents. -/
def totalLength (documents : List BM25Document) : ℕ :=
  (documents.map fun d => (corpus.terms lex d.id).length).sum

/-- The loop over the terms of the query, for one document. -/
def documentScore (documents : List BM25Document) (query : List String) (id : String) : Double :=
  query.foldl (fun score term =>
    let freq := (corpus.terms lex id).count term
    if freq = 0 then score
    else score + corpus.termScore lex documents.length (corpus.totalLength lex documents)
      (corpus.df lex documents term) freq (corpus.terms lex id).length) .zero

/-- `score`, on the documents with the given ids, if any are given. -/
def score (query : String) (documentIds : Option (List String) := none) : List (String × Double) :=
  let documents := corpus.documents.filter fun d => documentIds.all fun ids => d.id ∈ ids
  if documents = [] then []
  else
    let tokens := tokenize lex query
    if tokens = [] then documents.map fun d => (d.id, .zero)
    else
      sortBy (scoreKey Prod.fst Prod.snd) (documents.map fun d =>
        (d.id, (corpus.documentScore lex documents tokens d.id).roundDecimal 8))

/-- The scores above zero. -/
def hits (query : String) : List (String × Double) :=
  (corpus.score lex query).filter fun hit => .zero < hit.2

section Hits

variable {lex} {corpus} {corpus' : BM25Corpus} {query : String}

/-- The documents of the corpus have different ids. -/
def Distinct (corpus : BM25Corpus) : Prop := (corpus.documents.map (·.id)).Nodup

lemma terms_of_mem (h : corpus.Distinct) {d : BM25Document} (hd : d ∈ corpus.documents) :
    corpus.terms lex d.id = tokenize lex d.text := by
  have hreverse : (corpus.documents.reverse.map (·.id)).Nodup := by
    rw [List.map_reverse]
    exact List.nodup_reverse.mpr h
  rw [terms, find?_key_of_mem hreverse (List.mem_reverse.mpr hd)]
  rfl

/-- A score is made of the terms of the query that the document has. -/
lemma documentScore_of_disjoint {documents : List BM25Document} {tokens : List String} {id : String}
    (h : ∀ term ∈ tokens, term ∉ corpus.terms lex id) :
    corpus.documentScore lex documents tokens id = .zero := by
  rw [documentScore]
  generalize hstart : Double.zero = start
  clear hstart
  induction tokens generalizing start with
  | nil => rfl
  | cons term tokens ih =>
    obtain ⟨hterm, htokens⟩ := List.forall_mem_cons.mp h
    rw [List.foldl_cons]
    simp only [List.count_eq_zero.mpr hterm, if_true]
    exact ih htokens start

lemma score_eq (hne : corpus.documents ≠ []) (htokens : tokenize lex query ≠ []) :
    corpus.score lex query = sortBy (scoreKey Prod.fst Prod.snd)
      (corpus.documents.map fun d => (d.id,
        (corpus.documentScore lex corpus.documents (tokenize lex query) d.id).roundDecimal 8)) := by
  have hall : corpus.documents.filter
      (fun d => (none : Option (List String)).all fun ids => d.id ∈ ids) = corpus.documents := by
    simp
  rw [score, hall]
  simp only [hne, htokens, if_false]

lemma roundDecimal_zero : Double.zero.roundDecimal 8 = .zero := by decide +kernel

/-- A hit is a document with a term of the query. -/
theorem term_of_hit (hdistinct : corpus.Distinct) {id : String} {score : Double}
    (h : (id, score) ∈ corpus.hits lex query) :
    ∃ d ∈ corpus.documents, d.id = id ∧ ∃ term ∈ tokenize lex query, term ∈ tokenize lex d.text := by
  obtain ⟨hmem, hdecide⟩ := List.mem_filter.mp h
  have hpos : Double.zero < score := of_decide_eq_true hdecide
  clear hdecide
  by_cases hne : corpus.documents = []
  · simp [BM25Corpus.score, hne] at hmem
  by_cases htokens : tokenize lex query = []
  · simp only [BM25Corpus.score, htokens, if_true] at hmem
    split_ifs at hmem
    · cases hmem
    · obtain ⟨d, -, heq⟩ := List.mem_map.mp hmem
      cases heq
      exact absurd hpos (Double.lt_irrefl _)
  · rw [score_eq hne htokens, mem_sortBy] at hmem
    obtain ⟨d, hd, heq⟩ := List.mem_map.mp hmem
    cases heq
    refine ⟨d, hd, rfl, ?_⟩
    by_contra hnone
    push Not at hnone
    rw [documentScore_of_disjoint fun term hterm => terms_of_mem hdistinct hd ▸ hnone term hterm,
      roundDecimal_zero] at hpos
    exact Double.lt_irrefl _ hpos

lemma nodup_hits (hdistinct : corpus.Distinct) : ((corpus.hits lex query).map (·.1)).Nodup := by
  have hscore : ((corpus.score lex query).map (·.1)).Nodup := by
    by_cases hne : corpus.documents = []
    · simp [BM25Corpus.score, hne]
    by_cases htokens : tokenize lex query = []
    · simpa [BM25Corpus.score, hne, htokens, Function.comp_def, Distinct] using hdistinct
    · rw [score_eq hne htokens]
      refine ((sortBy_perm _).map _).nodup_iff.mpr ?_
      rw [List.map_map]
      exact hdistinct
  exact hscore.sublist (List.filter_sublist.map _)

/-! ### The order of the documents -/

section Reordered

variable {documents documents' : List BM25Document}

lemma terms_congr (hdistinct : corpus.Distinct) (hperm : corpus.documents.Perm corpus'.documents)
    (id : String) : corpus.terms lex id = corpus'.terms lex id := by
  have hdistinct' : corpus'.Distinct := (hperm.map _).nodup_iff.mp hdistinct
  by_cases hid : ∃ d ∈ corpus.documents, d.id = id
  · obtain ⟨d, hd, rfl⟩ := hid
    rw [terms_of_mem hdistinct hd, terms_of_mem hdistinct' (hperm.subset hd)]
  · push Not at hid
    have hnone : ∀ l : List BM25Document, (∀ d ∈ l, d.id ≠ id) →
        l.reverse.find? (fun d => d.id = id) = none := by
      intro l hl
      rw [List.find?_eq_none]
      intro d hd
      simpa using hl d (List.mem_reverse.mp hd)
    rw [terms, terms, hnone _ hid, hnone _ fun d hd => hid d (hperm.symm.subset hd)]

/-- The scores are made of counts, which do not depend on the order. -/
lemma documentScore_congr (hk1 : corpus.k1 = corpus'.k1) (hb : corpus.b = corpus'.b)
    (hdistinct : corpus.Distinct) (hperm : corpus.documents.Perm corpus'.documents)
    (tokens : List String) (id : String) :
    corpus.documentScore lex corpus.documents tokens id =
      corpus'.documentScore lex corpus'.documents tokens id := by
  have hterms (id : String) : corpus.terms lex id = corpus'.terms lex id :=
    terms_congr hdistinct hperm id
  have hdf (term : String) : corpus.df lex corpus.documents term =
      corpus'.df lex corpus'.documents term := by
    simp only [df, hterms]
    exact hperm.countP_eq _
  have htotal : corpus.totalLength lex corpus.documents =
      corpus'.totalLength lex corpus'.documents := by
    simp only [totalLength, hterms]
    exact (hperm.map _).sum_eq
  simp only [documentScore, termScore, hterms, hdf, htotal, hperm.length_eq, hk1, hb]

/-- What is scored above zero, and in which order, does not depend on the order of the documents. -/
theorem hits_congr (hk1 : corpus.k1 = corpus'.k1) (hb : corpus.b = corpus'.b)
    (hdistinct : corpus.Distinct) (hperm : corpus.documents.Perm corpus'.documents) :
    corpus.hits lex query = corpus'.hits lex query := by
  by_cases hne : corpus.documents = []
  · have hne' : corpus'.documents = [] := List.nil_perm.mp (hne ▸ hperm)
    simp [hits, score, hne, hne']
  have hne' : corpus'.documents ≠ [] := fun hnil => hne (List.perm_nil.mp (hnil ▸ hperm))
  by_cases htokens : tokenize lex query = []
  · -- without terms nothing is scored above zero
    have hzero : ∀ (c : BM25Corpus), c.documents ≠ [] → c.hits lex query = [] := by
      intro c hc
      rw [hits, List.filter_eq_nil_iff]
      intro hit hhit
      simp only [score, htokens, if_true, Option.all_none, List.filter_true, hc, if_false] at hhit
      obtain ⟨d, -, rfl⟩ := List.mem_map.mp hhit
      simpa using Double.lt_irrefl _
    rw [hzero corpus hne, hzero corpus' hne']
  · rw [hits, hits, score_eq hne htokens, score_eq hne' htokens]
    refine congrArg (List.filter _) (sortBy_congr ?_ (nodup_scoreKey ?_))
    · simp only [documentScore_congr hk1 hb hdistinct hperm]
      exact hperm.map _
    · rw [List.map_map]
      exact hdistinct

end Reordered

end Hits

end BM25Corpus

end CyberBrain.Retrieval
