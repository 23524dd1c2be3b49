import CyberBrain.Foundation.Double
import CyberBrain.Schemas.Models

/-!
# Salience scores

A candidate is scored by the weighted mean of its signals. Weights are scaled by the largest of them
first, so that the mean is defined for all weights of a configuration.
-/

namespace CyberBrain.Salience

open Schemas

inductive SalienceReasonCode
  | predictionError
  | unresolvedness
  | contradiction
  | novelty
  | recurrence
  | consequence
  | userEmphasis
  | recency
  deriving DecidableEq, Repr

namespace SalienceReasonCode

/-- The name of the signal, which is also the text of the code. -/
def text : SalienceReasonCode → String
  | predictionError => "prediction_error"
  | unresolvedness  => "unresolvedness"
  | contradiction   => "contradiction"
  | novelty         => "novelty"
  | recurrence      => "recurrence"
  | consequence     => "consequence"
  | userEmphasis    => "user_emphasis"
  | recency         => "recency"

/-- `_SIGNAL_ORDER`. -/
def order : List SalienceReasonCode :=
  [predictionError, unresolvedness, contradiction, novelty, recurrence, consequence, userEmphasis,
    recency]

end SalienceReasonCode

/-- `SalienceInput`: a signal is unknown or between 0 and 1. -/
structure SalienceInput where
  signal : SalienceReasonCode → Option Confidence := fun _ => none

/-- A weight: a finite number from 0 on. -/
abbrev Weight := { x : Binary64 // 0 ≤ x.value }

/-- `SalienceConfig`. -/
structure SalienceConfig where
  weight : SalienceReasonCode → Weight
  has_positive_weight : ∃ code, 0 < (weight code).val.value

/-- A weight of a decimal literal. -/
def weightOf (q : ℚ) (hq : 0 ≤ q) : Weight :=
  match h : Binary64.nearest false q with
  | some x => ⟨x, Binary64.nearest_nonneg hq h⟩
  | none   => ⟨.zero, Binary64.value_zero_nonneg⟩

/-- The weights of `REVIEWED_SALIENCE_POLICY`, in halves. -/
def reviewedHalves : SalienceReasonCode → ℕ
  | .predictionError => 4
  | .unresolvedness  => 3
  | .contradiction   => 4
  | .novelty         => 1
  | .recurrence      => 2
  | .consequence     => 4
  | .userEmphasis    => 3
  | .recency         => 1

lemma halves_nonneg (n : ℕ) : (0 : ℚ) ≤ n / 2 := by positivity

def reviewedWeight (code : SalienceReasonCode) : Weight :=
  weightOf (reviewedHalves code / 2) (halves_nonneg _)

lemma reviewedWeight_pos : ∃ code, 0 < (reviewedWeight code).val.value :=
  ⟨.recurrence, by decide +kernel⟩

/-- `REVIEWED_SALIENCE_POLICY`. -/
def reviewedSaliencePolicy : SalienceConfig := ⟨reviewedWeight, reviewedWeight_pos⟩

/-- `SALIENCE_ASSESSMENT_VERSION`. -/
def assessmentVersion : String := "salience-assessment-v1"

structure SalienceAssessment where
  score : Confidence
  reasonCodes : List SalienceReasonCode
  normalizedSignals : List (String × Confidence)
  assessmentVersion : String := Salience.assessmentVersion

/-- `sum` of doubles, which compensates its rounding errors. It is not zero where one of the summands
is 1 and none is negative. -/
structure Summation where
  sum : List Double → Double
  sum_ne_zero : ∀ l, (∀ x ∈ l, Double.zero ≤ x) → Double.one ∈ l → ¬ (sum l).IsZero

/-- A sum without compensation. -/
def plainSum (l : List Double) : Double := l.foldl (· + ·) .zero

lemma foldl_add {acc : Double} (hacc : Double.zero ≤ acc) {l : List Double}
    (hl : ∀ x ∈ l, Double.zero ≤ x) :
    Double.zero ≤ l.foldl (· + ·) acc ∧
      (Double.one ≤ acc ∨ Double.one ∈ l → Double.one ≤ l.foldl (· + ·) acc) := by
  induction l generalizing acc with
  | nil => exact ⟨hacc, fun h => h.resolve_right List.not_mem_nil⟩
  | cons x l ih =>
    have hx := hl x List.mem_cons_self
    obtain ⟨hzero, hone⟩ := ih (Double.zero_le_add hacc hx) fun y hy =>
      hl y (List.mem_cons_of_mem x hy)
    refine ⟨hzero, fun h => hone ?_⟩
    rcases h with hacc' | hmem
    · exact .inl (Double.one_le_add hacc hx (.inl hacc'))
    · rcases List.mem_cons.mp hmem with rfl | hmem
      · exact .inl (Double.one_le_add hacc hx (.inr (by decide +kernel)))
      · exact .inr hmem

lemma plainSum_ne_zero (l : List Double) (hl : ∀ x ∈ l, Double.zero ≤ x) (hone : Double.one ∈ l) :
    ¬ (plainSum l).IsZero := by
  have hzero : Double.zero ≤ Double.zero := by decide +kernel
  have hle : Double.one ≤ plainSum l := (foldl_add hzero hl).2 (.inr hone)
  cases hsum : plainSum l with
  | finite x =>
    rw [hsum, Double.one_le_finite] at hle
    intro (hx : x.value = 0)
    rw [hx] at hle
    norm_num at hle
  | inf neg => exact id
  | nan => exact id

def plainSummation : Summation := ⟨plainSum, plainSum_ne_zero⟩

def zeroConfidence : Confidence :=
  ⟨.zero, Binary64.value_zero_mem⟩

def innerConfidence (x : Binary64) (h : 0 < x.value ∧ x.value < 1) : Confidence :=
  ⟨x, h.1.le, h.2.le⟩

/-- `min(1.0, max(0.0, x))`. -/
def clampUnit : Double → Confidence
  | .finite x =>
    if h : 0 < x.value ∧ x.value < 1 then innerConfidence x h
    else if 0 < x.value then .one else zeroConfidence
  | .inf neg  => if neg then zeroConfidence else .one
  | .nan      => zeroConfidence

lemma clampUnit_eq (x : Double) :
    Double.finite (clampUnit x).val = Double.one.min (Double.zero.max x) := by
  cases x with
  | finite x =>
    have hpos : Double.zero < .finite x ↔ 0 < x.value := by
      rw [Double.lt_def, ← Binary64.value_zero]
      rfl
    have hlt : Double.finite x < .one ↔ x.value < 1 := by
      rw [Double.lt_def, ← Binary64.value_one]
      rfl
    have hone : Double.zero < .one := by decide +kernel
    unfold clampUnit Double.max Double.min
    dsimp only
    by_cases h : 0 < x.value
    · by_cases h' : x.value < 1
      · rw [dif_pos ⟨h, h'⟩, if_pos (hpos.mpr h), if_pos (hlt.mpr h')]
        rfl
      · rw [dif_neg fun hboth => h' hboth.2, if_pos h, if_pos (hpos.mpr h), if_neg (mt hlt.mp h')]
        rfl
    · rw [dif_neg fun hboth => h hboth.1, if_neg h, if_neg (mt hpos.mp h), if_pos hone]
      rfl
  | inf neg => cases neg <;> decide +kernel
  | nan => decide +kernel

/-- A signal that counts: its code, its value and its weight. -/
structure Considered where
  code : SalienceReasonCode
  value : Confidence
  weight : Binary64
  positive : 0 < weight.value

namespace SalienceConfig

variable (sum : Summation) (config : SalienceConfig) (item : SalienceInput)

/-- The signal of a code, if it is known and has a weight. -/
def consider (code : SalienceReasonCode) : Option Considered :=
  match item.signal code with
  | none       => none
  | some value =>
    if h : (config.weight code).val.value = 0 then none
    else some ⟨code, value, (config.weight code).val,
      lt_of_le_of_ne (config.weight code).property (Ne.symm h)⟩

/-- `max` of the weights. -/
def largestWeight (first : Considered) (rest : List Considered) : Double :=
  rest.foldl (fun largest c => largest.max (.finite c.weight)) (.finite first.weight)

/-- `SalienceScorer.assess`. -/
def assess : Except Exc SalienceAssessment :=
  match SalienceReasonCode.order.filterMap (config.consider item) with
  | [] => .ok
    { score := ⟨.zero, Binary64.value_zero_mem⟩
      reasonCodes := []
      normalizedSignals := [] }
  | first :: rest => do
    let considered := first :: rest
    let largest := largestWeight first rest
    let scaled ← considered.mapM fun c => (Double.finite c.weight).div largest
    let total := sum.sum scaled
    let weighted := sum.sum (List.zipWith (fun c w => .finite c.value.val * w) considered scaled)
    let mean ← weighted.div total
    pure
      { score := clampUnit mean
        reasonCodes := (considered.filter fun c => 0 < c.value.val.value).map (·.code)
        normalizedSignals := considered.map fun c => (c.code.text, c.value) }

variable {sum config item} {first : Considered} {rest : List Considered}

/-- The largest weight is that of a considered signal. -/
lemma largestWeight_eq : ∃ c ∈ first :: rest, largestWeight first rest = .finite c.weight := by
  induction rest using List.reverseRecOn with
  | nil => exact ⟨first, List.mem_singleton_self first, rfl⟩
  | append_singleton rest c ih =>
    obtain ⟨d, hd, heq⟩ := ih
    have hfold : largestWeight first (rest ++ [c]) =
        (largestWeight first rest).max (.finite c.weight) := List.foldl_concat ..
    rw [hfold, heq, Double.max]
    split_ifs
    · exact ⟨c, by simp, rfl⟩
    · exact ⟨d, List.mem_append_left [c] hd, rfl⟩

/-- The scaled weights are defined, none of them is negative and one of them is 1. -/
lemma scaled_weights : ∃ scaled,
    (first :: rest).mapM (fun c => (Double.finite c.weight).div (largestWeight first rest)) =
      .ok scaled ∧ (∀ x ∈ scaled, Double.zero ≤ x) ∧ Double.one ∈ scaled := by
  obtain ⟨largest, hmem, hlargest⟩ := @largestWeight_eq first rest
  rw [hlargest]
  have hdiv (c : Considered) : (Double.finite c.weight).div (.finite largest.weight) =
      .ok ((Double.finite c.weight).quotient (.finite largest.weight)) :=
    bind_eq_ok.mpr ⟨(), require_eq_ok.mpr largest.positive.ne', rfl⟩
  refine ⟨_, mapM_eq_ok_of_forall fun c _ => hdiv c, ?_, ?_⟩
  · intro x hx
    obtain ⟨c, -, rfl⟩ := List.mem_map.mp hx
    exact Double.zero_le_quotient c.positive largest.positive
  · exact List.mem_map.mpr ⟨largest, hmem, Double.quotient_self largest.positive⟩

/-- Every input has an assessment. -/
lemma exists_assess : ∃ assessment, config.assess sum item = .ok assessment := by
  unfold assess
  split
  · exact ⟨_, rfl⟩
  · obtain ⟨scaled, hscaled, hnonneg, hone⟩ := @scaled_weights ‹_› ‹_›
    have hne := sum.sum_ne_zero scaled hnonneg hone
    exact ⟨_, bind_eq_ok.mpr ⟨scaled, hscaled, bind_eq_ok.mpr ⟨_, bind_eq_ok.mpr
      ⟨(), require_eq_ok.mpr hne, rfl⟩, rfl⟩⟩⟩

end SalienceConfig

end CyberBrain.Salience
