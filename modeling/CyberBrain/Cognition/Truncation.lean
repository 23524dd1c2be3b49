import CyberBrain.Cognition.Prediction

/-!
# Truncation flags

The limit of a read applies to the points that match, and the flags compare it with the rows that
are left of the points. A point that is no valid row takes a place in the read without counting, so
a read that left points out may look complete.
-/

namespace CyberBrain.Cognition

open Python Relations Schemas Tenancy

variable {py : Runtime}

/-- The rows of points. -/
abbrev rowsOf (source : CognitionSource) (points : List (RelationPoint EpisodeRecord)) :
    List CognitionRow :=
  points.filterMap (rowOf source)

/-- A read of `limit` points that are all rows. -/
def FullOfRows (source : CognitionSource) (limit : ℤ) (read : List (RelationPoint EpisodeRecord)) :
    Prop :=
  limit ≤ read.length ∧ ∀ p ∈ read, (rowOf source p).isSome

namespace PredictionLearning

variable (s : PredictionLearning py)

/-- What the two reads of a summary give, of what matches. -/
structure Reads (limit : ℤ) (filters : CognitionFilters) where
  predictionFilter : Filter
  outcomeFilter : Filter
  prediction : s.cognitionFilter .prediction filters = .ok predictionFilter
  outcome : s.cognitionFilter .outcome filters = .ok outcomeFilter

namespace Reads

variable {s} {limit : ℤ} {filters : CognitionFilters} (r : s.Reads limit filters)

/-- The predictions that match, and those that are read. -/
def allPredictions : List (RelationPoint EpisodeRecord) := matchingPoints s.points r.predictionFilter

def predictions : List (RelationPoint EpisodeRecord) :=
  s.scroll s.points r.predictionFilter limit.toNat

/-- The outcomes that match, and those that are read. -/
def allOutcomes : List (RelationPoint EpisodeRecord) := matchingPoints s.points r.outcomeFilter

def outcomes : List (RelationPoint EpisodeRecord) := s.scroll s.points r.outcomeFilter limit.toNat

/-- No point that matches was left unread, and `result` is what `f` gives on the rows of all of
them. -/
def Complete {α : Type} (f : List CognitionRow → List CognitionRow → Except Exc α) (result : α) :
    Prop :=
  (∀ p ∈ r.allPredictions, p ∈ r.predictions) ∧ (∀ p ∈ r.allOutcomes, p ∈ r.outcomes) ∧
    ∃ ps os, ps.Perm r.allPredictions ∧ os.Perm r.allOutcomes ∧
      f (rowsOf .prediction ps) (rowsOf .outcome os) = .ok result

/-- As many points match as a read may give, or a read is full of rows. -/
def Exhaustive : Prop :=
  r.allPredictions.length ≤ limit ∧ r.allOutcomes.length ≤ limit ∨
    FullOfRows .prediction limit r.predictions ∨ FullOfRows .outcome limit r.outcomes

end Reads

end PredictionLearning

/-! ### Reads -/

lemma length_rowsOf_le (source : CognitionSource) (read : List (RelationPoint EpisodeRecord)) :
    (rowsOf source read).length ≤ read.length := List.length_filterMap_le _ _

/-- A read of at most `limit` points gives that many rows just when it is full of rows. -/
lemma fullOfRows_iff {source : CognitionSource} {limit : ℤ}
    {read : List (RelationPoint EpisodeRecord)} (h : read.length ≤ limit) :
    FullOfRows source limit read ↔ limit ≤ (rowsOf source read).length := by
  have hrows := length_rowsOf_le source read
  have hall : (rowsOf source read).length = read.length ↔ ∀ p ∈ read, (rowOf source p).isSome :=
    List.filterMap_length_eq_length
  rw [FullOfRows, ← hall]
  omega

namespace PredictionLearning.Reads

variable {s : PredictionLearning py} {limit : ℤ} {filters : CognitionFilters}
  (r : s.Reads limit filters)

/-- A read that is not cut short gives what matches. -/
lemma read_perm (hscroll : s.scroll.Lawful) {filter : Filter}
    (h : (matchingPoints s.points filter).length ≤ limit) :
    (s.scroll s.points filter limit.toNat).Perm (matchingPoints s.points filter) := by
  have hsub : (s.scroll s.points filter limit.toNat).Subperm (matchingPoints s.points filter) :=
    List.subperm_of_subset (hscroll.nodup _ _ _) (hscroll.mem _ _ _)
  refine hsub.perm_of_length_le ?_
  rw [hscroll.length]
  omega

/-- A read that gives all that matches was not cut short. -/
lemma length_le_of_read (hscroll : s.scroll.Lawful) {filter : Filter} (hlimit : 0 ≤ limit)
    (h : ∀ p ∈ matchingPoints s.points filter, p ∈ s.scroll s.points filter limit.toNat) :
    (matchingPoints s.points filter).length ≤ limit := by
  have hsub : (matchingPoints s.points filter).Subperm
      (s.scroll s.points filter limit.toNat) :=
    List.subperm_of_subset (s.points.nodup_rows.filter _) h
  have hlength := hsub.length_le
  rw [hscroll.length] at hlength
  omega

lemma length_read_le (hscroll : s.scroll.Lawful) (hlimit : 0 ≤ limit) (filter : Filter) :
    (s.scroll s.points filter limit.toNat).length ≤ limit := by
  rw [hscroll.length]
  omega

lemma exhaustive_of_reachesLimit (hscroll : s.scroll.Lawful) (hlimit : 0 ≤ limit) :
    reachesLimit limit (rowsOf .prediction r.predictions) (rowsOf .outcome r.outcomes) = true ↔
      FullOfRows .prediction limit r.predictions ∨ FullOfRows .outcome limit r.outcomes := by
  rw [reachesLimit, decide_eq_true_iff]
  exact or_congr (fullOfRows_iff (length_read_le hscroll hlimit _)).symm
    (fullOfRows_iff (length_read_le hscroll hlimit _)).symm

/-- A flag that is set when a read reaches its limit or `extra` holds tells the truth exactly when
the reads are exhaustive or `extra` holds. -/
lemma complete_iff (hscroll : s.scroll.Lawful) (hlimit : 0 ≤ limit) (extra : Prop) {α : Type}
    {f : List CognitionRow → List CognitionRow → Except Exc α} {result : α} {flag : Bool}
    (hresult : f (rowsOf .prediction r.predictions) (rowsOf .outcome r.outcomes) =
      .ok result)
    (hflag : flag = true ↔ extra ∨
      reachesLimit limit (rowsOf .prediction r.predictions) (rowsOf .outcome r.outcomes) = true) :
    (flag = false → r.Complete f result) ↔ r.Exhaustive ∨ extra := by
  rw [r.exhaustive_of_reachesLimit hscroll hlimit] at hflag
  constructor
  · intro hcomplete
    cases hvalue : flag with
    | true =>
      rcases hflag.mp hvalue with hextra | hfull
      · exact .inr hextra
      · exact .inl (.inr hfull)
    | false =>
      obtain ⟨hpredictions, houtcomes, -⟩ := hcomplete hvalue
      exact .inl (.inl ⟨length_le_of_read hscroll hlimit hpredictions,
        length_le_of_read hscroll hlimit houtcomes⟩)
  · rintro ((⟨hpredictions, houtcomes⟩ | hfull) | hextra) hvalue
    · have hps := read_perm (s := s) hscroll hpredictions
      have hos := read_perm (s := s) hscroll houtcomes
      exact ⟨fun p hp => hps.mem_iff.mpr hp, fun p hp => hos.mem_iff.mpr hp, _, _, hps, hos, hresult⟩
    · rw [hflag.mpr (.inr hfull)] at hvalue
      cases hvalue
    · rw [hflag.mpr (.inl hextra)] at hvalue
      cases hvalue

end PredictionLearning.Reads

namespace PredictionLearning

variable {s : PredictionLearning py} {limit scanLimit : ℤ} {filters : CognitionFilters}

lemma scrollCognition_eq_ok {source : CognitionSource} {n : ℕ} {rows : List CognitionRow}
    (h : s.scrollCognition source n filters = .ok rows) :
    ∃ filter, s.cognitionFilter source filters = .ok filter ∧
      rows = rowsOf source (s.scroll s.points filter n) := by
  obtain ⟨points, hpoints, h⟩ := bind_eq_ok.mp h
  obtain ⟨filter, hfilter, hpoints⟩ := bind_eq_ok.mp hpoints
  cases hpoints
  cases h
  exact ⟨filter, hfilter, rfl⟩

/-- The reads of a summary. -/
lemma exists_reads {predictions outcomes : List CognitionRow}
    (hpredictions : s.scrollCognition .prediction limit.toNat filters = .ok predictions)
    (houtcomes : s.scrollCognition .outcome limit.toNat filters = .ok outcomes) :
    ∃ r : s.Reads limit filters, predictions = rowsOf .prediction r.predictions ∧
      outcomes = rowsOf .outcome r.outcomes := by
  obtain ⟨filter, hfilter, rfl⟩ := scrollCognition_eq_ok hpredictions
  obtain ⟨filter', hfilter', rfl⟩ := scrollCognition_eq_ok houtcomes
  exact ⟨⟨filter, filter', hfilter, hfilter'⟩, rfl, rfl⟩

/-- The flag of `observe`. -/
lemma observe_truthful_iff (hscroll : s.scroll.Lawful) {result : PredictionObservation}
    (h : s.observe limit filters = .ok result) : ∃ r : s.Reads limit filters,
      (result.mayBeTruncated = false → r.Complete (s.summarize limit filters) result) ↔
        r.Exhaustive := by
  obtain ⟨_, hlimit, h⟩ := bind_eq_ok.mp h
  obtain ⟨predictions, hpredictions, h⟩ := bind_eq_ok.mp h
  obtain ⟨outcomes, houtcomes, h⟩ := bind_eq_ok.mp h
  obtain ⟨r, rfl, rfl⟩ := exists_reads hpredictions houtcomes
  rw [require_eq_ok] at hlimit
  refine ⟨r, ?_⟩
  have hflag : result.mayBeTruncated = reachesLimit limit (rowsOf .prediction r.predictions)
      (rowsOf .outcome r.outcomes) := by
    obtain ⟨confidences, -, h⟩ := bind_eq_ok.mp h
    obtain ⟨weightedErrors, -, h⟩ := bind_eq_ok.mp h
    cases h
    rfl
  have hset : result.mayBeTruncated = true ↔ False ∨ reachesLimit limit
      (rowsOf .prediction r.predictions) (rowsOf .outcome r.outcomes) = true := by
    rw [hflag, false_or]
  have hiff := r.complete_iff hscroll (by omega) False h hset
  rwa [or_false] at hiff

/-- The flag of `calibration_samples`. -/
lemma calibrationSamples_truthful_iff (hscroll : s.scroll.Lawful)
    {samples : List CalibrationSample} {excluded : ℕ} {flag : Bool}
    (h : s.calibrationSamples limit filters = .ok (samples, excluded, flag)) :
    ∃ r : s.Reads limit filters,
      (flag = false → r.Complete s.calibrate (samples, excluded)) ↔ r.Exhaustive := by
  obtain ⟨_, hlimit, h⟩ := bind_eq_ok.mp h
  obtain ⟨predictions, hpredictions, h⟩ := bind_eq_ok.mp h
  obtain ⟨outcomes, houtcomes, h⟩ := bind_eq_ok.mp h
  obtain ⟨r, rfl, rfl⟩ := exists_reads hpredictions houtcomes
  obtain ⟨⟨samples, excluded⟩, hsamples, h⟩ := bind_eq_ok.mp h
  cases h
  rw [require_eq_ok] at hlimit
  have hiff := r.complete_iff hscroll (by omega) False hsamples (false_or _).symm.to_iff
  exact ⟨r, by rwa [or_false] at hiff⟩

lemma length_pendingItems {predictions outcomes : List CognitionRow} {items : List PendingPrediction}
    (h : s.pendingItems predictions outcomes = .ok items) :
    items.length = predictions.countP fun row => row.id ∉ resolvedIds py outcomes := by
  obtain ⟨unsorted, hunsorted, h⟩ := bind_eq_ok.mp h
  cases h
  rw [List.length_insertionSort, ← (forall₂_of_mapM hunsorted).length_eq,
    List.countP_eq_length_filter]

/-- The flag of `pending`, which is also set when there are more items than the result may hold. -/
lemma pending_truthful_iff (hscroll : s.scroll.Lawful) {result : PendingPredictionList}
    (h : s.pending limit filters scanLimit = .ok result) : ∃ r : s.Reads scanLimit filters,
      (result.mayBeIncomplete = false → r.Complete s.pendingItems result.items) ↔
        r.Exhaustive ∨ limit < (rowsOf .prediction r.predictions).countP fun row =>
          row.id ∉ resolvedIds py (rowsOf .outcome r.outcomes) := by
  obtain ⟨_, hlimit, h⟩ := bind_eq_ok.mp h
  obtain ⟨_, hscan, h⟩ := bind_eq_ok.mp h
  obtain ⟨predictions, hpredictions, h⟩ := bind_eq_ok.mp h
  obtain ⟨outcomes, houtcomes, h⟩ := bind_eq_ok.mp h
  obtain ⟨r, rfl, rfl⟩ := exists_reads hpredictions houtcomes
  obtain ⟨items, hitems, h⟩ := bind_eq_ok.mp h
  cases h
  rw [require_eq_ok] at hlimit hscan
  refine ⟨r, ?_⟩
  rw [← length_pendingItems hitems]
  have hset : (decide (limit < (items.length : ℤ) ∨ reachesLimit scanLimit
      (rowsOf .prediction r.predictions) (rowsOf .outcome r.outcomes) = true)) = true ↔
      limit < items.length ∨ reachesLimit scanLimit (rowsOf .prediction r.predictions)
        (rowsOf .outcome r.outcomes) = true := decide_eq_true_iff
  rw [← r.complete_iff hscroll (by omega) _ hitems hset]
  refine forall_congr' fun hflag => ?_
  have hfew : items.length ≤ limit.toNat := by
    rw [decide_eq_false_iff_not, not_or] at hflag
    omega
  rw [List.take_of_length_le hfew]

/-- Where `observe`, `calibration_samples` or `pending` return, their flags tell the truth exactly
when the reads are exhaustive or, for `pending`, when more items are left than it may return. -/
theorem truncation_flags_truthful_iff (s : PredictionLearning py) (hscroll : s.scroll.Lawful)
    (limit : ℤ) (filters : CognitionFilters) :
    (∀ result, s.observe limit filters = .ok result → ∃ r : s.Reads limit filters,
      (result.mayBeTruncated = false → r.Complete (s.summarize limit filters) result) ↔
        r.Exhaustive) ∧
    (∀ samples excluded flag, s.calibrationSamples limit filters = .ok (samples, excluded, flag) →
      ∃ r : s.Reads limit filters,
        (flag = false → r.Complete s.calibrate (samples, excluded)) ↔ r.Exhaustive) ∧
    ∀ scanLimit result, s.pending limit filters scanLimit = .ok result →
      ∃ r : s.Reads scanLimit filters,
        (result.mayBeIncomplete = false → r.Complete s.pendingItems result.items) ↔
          r.Exhaustive ∨ limit < (rowsOf .prediction r.predictions).countP fun row =>
            row.id ∉ resolvedIds py (rowsOf .outcome r.outcomes) :=
  ⟨fun _ h => observe_truthful_iff hscroll h,
    fun _ _ _ h => calibrationSamples_truthful_iff hscroll h,
    fun _ _ h => pending_truthful_iff hscroll h⟩

section Sample

/-- A scroll that gives the first matching points. -/
def firstPoints : EpisodeScroll := fun points filter limit =>
  (matchingPoints points filter).take limit

lemma firstPoints_lawful : firstPoints.Lawful where
  nodup points _ _ :=
    (points.nodup_rows.filter _).sublist (List.take_sublist _ _)
  mem _ _ _ _ hp := List.mem_of_mem_take hp
  length _ _ _ := List.length_take

/-- A prediction after a point that is no valid episode. -/
def malformedFirst : PredictionLearning Runtime.ascii where
  points := ⟨[⟨.ofNat 1, .invalid (fun key => if key = "source" then
      some (.str "cognitive_prediction") else none) none⟩,
    ⟨.ofNat 2, .dump
      { id := .ofNat 2, content := "Prediction: it rains", sessionId := "s"
        eventTime := .ofMicros 1, createdAt := .ofMicros 1
        source := some "cognitive_prediction"
        context := [("cognition", .obj [("kind", .str "prediction"), ("confidence", .int 1)])] }⟩],
    by decide⟩
  scroll := firstPoints
  bound := none
  floats := ⟨fun _ => some oneFloat, fun _ => none, fun _ => .zero⟩

lemma malformedFirst_observe : ∃ result, malformedFirst.observe 1 {} = .ok result ∧
    result.mayBeTruncated = false := by
  have hflag : (malformedFirst.observe 1 {}).toOption.map (·.mayBeTruncated) = some false := by
    decide +kernel
  obtain ⟨result, hresult, hflag⟩ := Option.map_eq_some_iff.mp hflag
  exact ⟨result, toOption_eq_some.mp hresult, hflag⟩

/-- The sample of one point is the malformed one, and the prediction is left out without notice. -/
theorem malformed_point_hides_prediction : ∃ result, malformedFirst.observe 1 {} = .ok result ∧
    ∀ r : malformedFirst.Reads 1 {}, ¬ (result.mayBeTruncated = false →
      r.Complete (malformedFirst.summarize 1 {}) result) := by
  obtain ⟨result, hresult, hflag⟩ := malformedFirst_observe
  refine ⟨result, hresult, fun r htruthful => ?_⟩
  have hread := (htruthful hflag).1
  have hfilter : r.predictionFilter =
      [.field (.matchValue "source" (.str "cognitive_prediction"))] :=
    Except.ok.inj (r.prediction.symm.trans rfl)
  have hids : ∀ id ∈ r.allPredictions.map (·.id), id ∈ r.predictions.map (·.id) :=
    List.map_subset _ hread
  rw [Reads.allPredictions, Reads.predictions, hfilter] at hids
  exact absurd (hids (.ofNat 2) (by decide +kernel)) (by decide +kernel)

theorem malformed_first_truthful_iff : ∃ result, malformedFirst.observe 1 {} = .ok result ∧
    ∃ r : malformedFirst.Reads 1 {},
      (result.mayBeTruncated = false → r.Complete (malformedFirst.summarize 1 {}) result) ↔
        r.Exhaustive := by
  obtain ⟨result, hresult, -⟩ := malformedFirst_observe
  have hiff := truncation_flags_truthful_iff malformedFirst firstPoints_lawful 1 {}
  exact ⟨result, hresult, hiff.1 result hresult⟩

end Sample

end PredictionLearning

end CyberBrain.Cognition
