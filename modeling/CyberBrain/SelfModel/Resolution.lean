import CyberBrain.SelfModel.Evidence

/-!
# The outcome that resolves a prediction

`observe` and `calibration_samples` take the latest outcome of a prediction. The evidence of the
self-model leaves the indeterminate ones out first, so it takes the latest of the others.
-/

namespace CyberBrain.SelfModel

open Cognition Python Relations Schemas Tenancy

variable {py : Runtime} {floats : FloatOperations}

/-! ### Episodes -/

lemma isSpace_of_hexValue {c : Char} (h : hexValue c ≠ none) : isSpace c = false := by
  have hbounds : 48 ≤ c.toNat ∧ c.toNat ≤ 102 := by
    unfold hexValue at h
    simp only [Char.le_def, UInt32.le_iff_toNat_le] at h
    have hvalue : c.toNat = c.val.toNat := rfl
    have h0 : ('0').val.toNat = 48 := rfl
    have h9 : ('9').val.toNat = 57 := rfl
    have ha : ('a').val.toNat = 97 := rfl
    have hf : ('f').val.toNat = 102 := rfl
    have hA : ('A').val.toNat = 65 := rfl
    have hF : ('F').val.toNat = 70 := rfl
    split_ifs at h with h1 h2 h3
    · omega
    · omega
    · omega
    · exact absurd rfl h
  simp only [isSpace, Bool.or_eq_false_iff, Bool.and_eq_false_iff, decide_eq_false_iff_not]
  omega

lemma strip_text (u : Uuid) : strip u.text = u.text := by
  refine strip_eq_self fun c hc => ?_
  rcases Uuid.mem_text hc with h | rfl
  · exact isSpace_of_hexValue h
  · decide

lemma text_ne_empty (u : Uuid) : u.text ≠ "" := by
  intro h
  have hlist := congrArg String.toList h
  simp [Uuid.text, Uuid.hyphenate] at hlist

/-- A row of the kind that its source says. -/
structure Written (source : CognitionSource) (row : CognitionRow) : Prop where
  cognition : row.record.context.lookup "cognition" = some (.obj row.cognition)
  kind : row.cognition.lookup "kind" = some (.str source.kind)
  source : row.record.source = some source.text

variable (py) (floats) in
/-- A prediction as `record_prediction` writes it. -/
structure ValidPrediction (p : CognitionRow) : Prop extends Written .prediction p where
  names : p.text py "prediction_id" = p.id
  confidence : ∃ v x, p.cognition.lookup "confidence" = some v ∧ number floats v = .ok (some x)

variable (py) in
/-- An outcome of a prediction as `record_outcome` writes it. -/
structure ValidOutcome (p o : CognitionRow) : Prop where
  assessment : ∃ a : PredictionAssessment, o.text py "assessment" = a.text
  notBefore : p.record.eventTime ≤ o.record.eventTime
  identity : identityMatches p.record o.record
  expected : o.text py "expected_outcome" = p.text py "expected_outcome"
  confidence : valueOf "prediction_confidence" o = valueOf "confidence" p

variable (py) in
/-- The outcomes that name a prediction. -/
def outcomesOf (predictionId : String) (outcomes : List CognitionRow) : List CognitionRow :=
  outcomes.filter fun o => o.text py "prediction_id" = predictionId

variable (py) (floats) in
/-- Predictions with different ids, and outcomes of predictions. -/
structure ValidEpisodes (predictions outcomes : List CognitionRow) : Prop where
  nodup : (predictions.map CognitionRow.id).Nodup
  prediction : ∀ p ∈ predictions, ValidPrediction py floats p
  written : ∀ o ∈ outcomes, Written .outcome o
  names : ∀ o ∈ outcomes, ∃ u : Uuid, o.text py "prediction_id" = u.text
  outcome : ∀ p ∈ predictions, ∀ o ∈ outcomesOf py p.id outcomes, ValidOutcome py p o

/-- The outcome that is later than all others. -/
structure Latest (outcomes : List CognitionRow) (o : CognitionRow) : Prop where
  mem : o ∈ outcomes
  later : ∀ o' ∈ outcomes, o' ≠ o → o'.record.eventTime < o.record.eventTime

/-- No two outcomes have the same time. -/
def DistinctTimes (outcomes : List CognitionRow) : Prop :=
  ∀ o ∈ outcomes, ∀ o' ∈ outcomes, o.record.eventTime = o'.record.eventTime → o = o'

lemma Latest.unique {outcomes : List CognitionRow} {o o' : CognitionRow} (h : Latest outcomes o)
    (h' : Latest outcomes o') : o = o' := by
  by_contra hne
  exact Nat.lt_asymm (h.later o' h'.mem (Ne.symm hne)) (h'.later o h.mem hne)

/-- Among outcomes with different times, the latest is the one that no other is later than. -/
lemma latest_of_le {outcomes : List CognitionRow} (hdistinct : DistinctTimes outcomes)
    {o : CognitionRow} (ho : o ∈ outcomes)
    (hle : ∀ o' ∈ outcomes, o'.record.eventTime ≤ o.record.eventTime) : Latest outcomes o where
  mem := ho
  later o' ho' hne := by
    refine Nat.lt_of_le_of_ne (hle o' ho') fun htime => hne ?_
    exact hdistinct o' ho' o ho (Instant.ext htime)

lemma Latest.congr {outcomes outcomes' : List CognitionRow} {o : CognitionRow}
    (h : ∀ o, o ∈ outcomes ↔ o ∈ outcomes') : Latest outcomes o ↔ Latest outcomes' o := by
  constructor
  · exact fun ⟨hmem, hlater⟩ => ⟨(h o).mp hmem, fun o' ho' => hlater o' ((h o').mpr ho')⟩
  · exact fun ⟨hmem, hlater⟩ => ⟨(h o).mpr hmem, fun o' ho' => hlater o' ((h o').mp ho')⟩

/-! ### The latest outcomes -/

lemma outcomesOf_append_singleton (id : String) (outcomes : List CognitionRow) (o : CognitionRow) :
    outcomesOf py id (outcomes ++ [o]) =
      outcomesOf py id outcomes ++ if o.text py "prediction_id" = id then [o] else [] := by
  rw [outcomesOf, List.filter_append, outcomesOf]
  congr 1
  by_cases h : o.text py "prediction_id" = id <;> simp [h]

variable (py) in
/-- What the loop over outcomes keeps for a known prediction. -/
lemma find?_latestOutcomes {known : List String} {id : String} (hid : id ∈ known)
    (outcomes : List CognitionRow) :
    match (latestOutcomes py known outcomes).find? id with
    | none   => outcomesOf py id outcomes = []
    | some p => p.2 ∈ outcomesOf py id outcomes ∧
        ∀ o ∈ outcomesOf py id outcomes, o.record.eventTime ≤ p.2.record.eventTime := by
  induction outcomes using List.reverseRecOn with
  | nil => rfl
  | append_singleton outcomes o ih =>
    rw [outcomesOf_append_singleton, latestOutcomes, List.foldl_append, List.foldl_cons,
      List.foldl_nil]
    rw [latestOutcomes] at ih
    generalize outcomes.foldl (keepLatest py known) (.empty _) = latest at ih ⊢
    by_cases hname : o.text py "prediction_id" = id
    · rw [if_pos hname, keepLatest, hname, if_pos hid]
      have hself : (latest.upsert (id, o)).find? id = some (id, o) :=
        Table.find?_upsert_self latest (id, o)
      cases hfind : latest.find? id with
      | none =>
        simp only [hfind] at ih
        simp only [hself, ih]
        refine ⟨List.mem_singleton_self o, fun o' ho' => ?_⟩
        rw [List.mem_singleton.mp ho']
        exact Nat.le_refl _
      | some current =>
        simp only [hfind] at ih
        obtain ⟨hmem, hle⟩ := ih
        by_cases hlater : current.2.record.eventTime < o.record.eventTime
        · simp only [if_pos hlater, hself]
          refine ⟨List.mem_append_right _ (List.mem_singleton_self o), fun o' ho' => ?_⟩
          rcases List.mem_append.mp ho' with ho' | ho'
          · exact Nat.le_trans (hle o' ho') (Nat.le_of_lt hlater)
          · rw [List.mem_singleton.mp ho']
            exact Nat.le_refl _
        · simp only [if_neg hlater, hfind]
          refine ⟨List.mem_append_left _ hmem, fun o' ho' => ?_⟩
          rcases List.mem_append.mp ho' with ho' | ho'
          · exact hle o' ho'
          · rw [List.mem_singleton.mp ho']
            exact Nat.not_lt.mp hlater
    · rw [if_neg hname, List.append_nil]
      have hother : (keepLatest py known latest o).find? id = latest.find? id := by
        have hupsert : (latest.upsert (o.text py "prediction_id", o)).find? id = latest.find? id :=
          Table.find?_upsert_of_ne _ _ (Ne.symm hname)
        unfold keepLatest
        simp only
        split_ifs
        · split
          · split_ifs
            · exact hupsert
            · rfl
          · exact hupsert
        · rfl
      rw [hother]
      exact ih

/-- The loop over outcomes keeps the latest outcome of a known prediction. -/
lemma latestOutcomes_eq_some_iff {known : List String} {id : String} (hid : id ∈ known)
    {outcomes : List CognitionRow} (hdistinct : DistinctTimes (outcomesOf py id outcomes))
    (o : CognitionRow) :
    ((latestOutcomes py known outcomes).find? id).map Prod.snd = some o ↔
      Latest (outcomesOf py id outcomes) o := by
  have hfound := find?_latestOutcomes py hid outcomes
  cases hfind : (latestOutcomes py known outcomes).find? id with
  | none =>
    simp only [hfind] at hfound
    rw [hfound]
    exact ⟨fun h => absurd h.symm (Option.some_ne_none o), fun h => absurd h.mem List.not_mem_nil⟩
  | some p =>
    simp only [hfind] at hfound
    have hlatest := latest_of_le hdistinct hfound.1 hfound.2
    rw [Option.map_some, Option.some_inj]
    constructor
    · rintro rfl
      exact hlatest
    · exact hlatest.unique

/-! ### The predictions that are known -/

/-- `observe` knows every prediction that it reads. -/
lemma id_mem_predictionRows {predictions : List CognitionRow} {p : CognitionRow}
    (hp : p ∈ predictions) : p.id ∈ (predictionRows predictions).rows.map CognitionRow.id := by
  exact Table.mem_keys_foldl_upsert.mpr (.inr (List.mem_map_of_mem hp))

/-- The turn of a prediction keeps what is known, and adds the prediction when its confidence is a
number. -/
lemma mem_keys_addConfidence {s : PredictionLearning py}
    {known known' : Table (Prod.fst : String × Binary64 → String)} {row : CognitionRow}
    (h : s.addConfidence known row = .ok known') {id : String}
    (hid : id ∈ known.rows.map Prod.fst ∨ id = row.id ∧ ValidPrediction py s.floats row) :
    id ∈ known'.rows.map Prod.fst := by
  unfold PredictionLearning.addConfidence at h
  cases hv : row.cognition.lookup "confidence" with
  | none =>
    simp only [hv] at h
    cases h
    refine hid.resolve_right fun ⟨_, hvalid⟩ => ?_
    obtain ⟨v, x, hsome, -⟩ := hvalid.confidence
    rw [hv] at hsome
    cases hsome
  | some v =>
    simp only [hv] at h
    obtain ⟨x, hx, h⟩ := bind_eq_ok.mp h
    cases x with
    | none =>
      cases h
      refine hid.resolve_right fun ⟨_, hvalid⟩ => ?_
      obtain ⟨v', x, hsome, hnumber⟩ := hvalid.confidence
      obtain rfl := Option.some.inj (hv.symm.trans hsome)
      cases hx.symm.trans hnumber
    | some x =>
      cases h
      rw [Table.mem_keys_upsert]
      exact hid.imp_right And.left

/-- `calibration_samples` knows every prediction that has a number as its confidence. -/
lemma id_mem_predictionConfidence {s : PredictionLearning py} {predictions : List CognitionRow}
    {known : Table (Prod.fst : String × Binary64 → String)}
    (h : s.predictionConfidence predictions = .ok known) {p : CognitionRow} (hp : p ∈ predictions)
    (hvalid : ValidPrediction py s.floats p) : p.id ∈ known.rows.map Prod.fst := by
  suffices hkeys : ∀ start, predictions.foldlM s.addConfidence start = .ok known →
      p.id ∈ start.rows.map Prod.fst ∨ p ∈ predictions → p.id ∈ known.rows.map Prod.fst from
    hkeys _ h (.inr hp)
  clear h hp
  induction predictions with
  | nil =>
    intro start h hp
    cases h
    exact hp.resolve_right List.not_mem_nil
  | cons q predictions ih =>
    intro start h hp
    rw [List.foldlM_cons] at h
    obtain ⟨next, hnext, h⟩ := bind_eq_ok.mp h
    refine ih next h ?_
    rcases hp with hp | hp
    · exact .inl (mem_keys_addConfidence hnext (.inl hp))
    · rcases List.mem_cons.mp hp with rfl | hp
      · exact .inl (mem_keys_addConfidence hnext (.inr ⟨rfl, hvalid⟩))
      · exact .inr hp

/-! ### The rows of the evidence -/

lemma hasKind_iff {source : CognitionSource} {row : CognitionRow} :
    EvidenceRows.hasKind source row = true ↔
      row.cognition.lookup "kind" = some (.str source.kind) := by
  unfold EvidenceRows.hasKind
  split
  · rename_i kind hkind
    rw [hkind, decide_eq_true_iff]
    simp
  · rename_i hnot
    constructor
    · intro h
      cases h
    · exact fun h => absurd h (hnot _)

/-- A row is determined by its record. -/
lemma Written.eq_row {source : CognitionSource} {row : CognitionRow} {cognition : Context}
    (h : Written source row) (hcognition : row.record.context.lookup "cognition" =
      some (.obj cognition)) : row = ⟨row.record, cognition⟩ := by
  have heq : row.cognition = cognition := by
    rw [h.cognition] at hcognition
    exact Json.obj.inj (Option.some.inj hcognition)
  rw [← heq]

lemma candidates_upsert (x : EvidenceRows) (predictionId id : String) (row : CognitionRow) :
    ({ x with outcomes :=
        x.outcomes.upsert (predictionId, x.candidates predictionId ++ [row]) } :
      EvidenceRows).candidates id =
      if id = predictionId then x.candidates id ++ [row] else x.candidates id := by
  rw [EvidenceRows.candidates, Table.find?_upsert]
  split_ifs with h
  · rw [h]
    rfl
  · rfl

/-- The outcomes of a prediction after one more row. -/
lemma mem_candidates_read {x : EvidenceRows} {payload : Payload EpisodeRecord} {id : String}
    (hid : id ≠ "") {o : CognitionRow} : o ∈ (x.read py payload).candidates id ↔
      o ∈ x.candidates id ∨ payload = .dump o.record ∧ Written .outcome o ∧
        strip (o.text py "prediction_id") = id := by
  have hskip (hnot : payload = .dump o.record → Written .outcome o →
      strip (o.text py "prediction_id") ≠ id) : o ∈ x.candidates id ↔
        o ∈ x.candidates id ∨ payload = .dump o.record ∧ Written .outcome o ∧
          strip (o.text py "prediction_id") = id :=
    (or_iff_left fun ⟨hrecord, hwritten, hname⟩ => hnot hrecord hwritten hname).symm
  unfold EvidenceRows.read
  split
  · exact hskip nofun
  · rename_i record
    split
    · rename_i cognition hcognition
      have hrow (hrecord : Payload.dump record = .dump o.record) (hwritten : Written .outcome o) :
          o = ⟨record, cognition⟩ := by
        obtain rfl := Payload.dump.inj hrecord
        exact hwritten.eq_row hcognition
      have hkind (hrecord : Payload.dump record = .dump o.record) (hwritten : Written .outcome o)
          (hprediction : EvidenceRows.hasKind .prediction ⟨record, cognition⟩ = true) : False := by
        rw [← hrow hrecord hwritten, hasKind_iff, hwritten.kind] at hprediction
        exact absurd (Json.str.inj (Option.some.inj hprediction)) (by decide)
      simp only
      split_ifs with hempty hprediction hother houtcome
      · refine hskip fun hrecord hwritten hname => hid ?_
        rw [← hname, hrow hrecord hwritten, hempty]
      · exact hskip fun hrecord hwritten _ => (hkind hrecord hwritten hprediction.1).elim
      · exact hskip fun hrecord hwritten _ => (hkind hrecord hwritten hprediction.1).elim
      · rw [candidates_upsert]
        have hrow' : Written .outcome ⟨record, cognition⟩ :=
          ⟨hcognition, hasKind_iff.mp houtcome.1, houtcome.2⟩
        split_ifs with hname
        · rw [List.mem_append, List.mem_singleton]
          refine or_congr_right ⟨?_, fun h => hrow h.1 h.2.1⟩
          rintro rfl
          exact ⟨rfl, hrow', hname.symm⟩
        · refine hskip fun hrecord hwritten hnamed => hname ?_
          rw [← hnamed, hrow hrecord hwritten]
      · refine hskip fun hrecord hwritten _ => houtcome ?_
        rw [← hrow hrecord hwritten, hasKind_iff]
        exact ⟨hwritten.kind, Payload.dump.inj hrecord ▸ hwritten.source⟩
    · rename_i hnot
      refine hskip fun hrecord hwritten _ => ?_
      obtain rfl := Payload.dump.inj hrecord
      exact absurd hwritten.cognition (hnot _)

/-- The outcomes of a prediction are the written outcomes that name it. -/
lemma mem_candidates {payloads : List (Payload EpisodeRecord)} {id : String} (hid : id ≠ "")
    {o : CognitionRow} : o ∈ (readRows py payloads).candidates id ↔
      .dump o.record ∈ payloads ∧ Written .outcome o ∧ strip (o.text py "prediction_id") = id := by
  induction payloads using List.reverseRecOn with
  | nil =>
    constructor
    · exact fun h => absurd h List.not_mem_nil
    · exact fun h => absurd h.1 List.not_mem_nil
  | append_singleton payloads payload ih =>
    rw [readRows, List.foldl_append, List.foldl_cons, List.foldl_nil, mem_candidates_read hid,
      ← readRows, ih, List.mem_append, List.mem_singleton, ← or_and_right, eq_comm (a := payload)]

variable (py) in
/-- The turn of a row leaves the predictions as they are, or adds one. -/
lemma predictions_read (x : EvidenceRows) (payload : Payload EpisodeRecord) :
    (x.read py payload).predictions = x.predictions ∨
      ∃ q, payload = .dump q.record ∧ Written .prediction q ∧
        (x.read py payload).predictions = x.predictions.upsert (q.id, q) := by
  unfold EvidenceRows.read
  split
  · exact .inl rfl
  · rename_i record
    split
    · rename_i cognition hcognition
      simp only
      split_ifs with hempty hprediction hother houtcome
      · exact .inl rfl
      · exact .inl rfl
      · refine .inr ⟨⟨record, cognition⟩, rfl,
          ⟨hcognition, hasKind_iff.mp hprediction.1, hprediction.2⟩, ?_⟩
        rw [not_not.mp hother]
      · exact .inl rfl
      · exact .inl rfl
    · exact .inl rfl

/-- The turn of a valid prediction adds it. -/
lemma predictions_read_valid (x : EvidenceRows) {p : CognitionRow}
    (hvalid : ValidPrediction py floats p) :
    (x.read py (.dump p.record)).predictions = x.predictions.upsert (p.id, p) := by
  have hname : strip (p.text py "prediction_id") = p.id := by
    rw [hvalid.names]
    exact strip_text _
  have hempty : p.id ≠ "" := text_ne_empty _
  have hprediction : EvidenceRows.hasKind .prediction p ∧
      p.record.source = some CognitionSource.prediction.text :=
    ⟨hasKind_iff.mpr hvalid.kind, hvalid.source⟩
  simp only [EvidenceRows.read, hvalid.cognition]
  rw [hname, if_neg hempty, if_pos hprediction, if_neg (not_not.mpr rfl)]

/-- The prediction of an id, where one prediction alone has it. -/
lemma find?_predictions {payloads : List (Payload EpisodeRecord)} {p : CognitionRow}
    (hp : .dump p.record ∈ payloads) (hvalid : ValidPrediction py floats p)
    (hunique : ∀ q, .dump q.record ∈ payloads → Written .prediction q → q.id = p.id → q = p) :
    (readRows py payloads).predictions.find? p.id = some (p.id, p) := by
  induction payloads using List.reverseRecOn with
  | nil => cases hp
  | append_singleton payloads payload ih =>
    rw [readRows, List.foldl_append, List.foldl_cons, List.foldl_nil, ← readRows]
    by_cases hlast : payload = .dump p.record
    · rw [hlast, predictions_read_valid _ hvalid]
      exact Table.find?_upsert_self _ (p.id, p)
    · have hfound := ih ((List.mem_append.mp hp).resolve_right fun h =>
        hlast (List.mem_singleton.mp h).symm) fun q hq => hunique q (List.mem_append_left _ hq)
      rcases predictions_read py (readRows py payloads) payload with
        hsame | ⟨q, hq, hwritten, hadded⟩
      · rw [hsame, hfound]
      · have hne : p.id ≠ q.id := by
          intro heq
          have hsame := hunique q (by simp [hq]) hwritten heq.symm
          exact hlast (hsame ▸ hq)
        have hother : ((readRows py payloads).predictions.upsert (q.id, q)).find? p.id =
            (readRows py payloads).predictions.find? p.id := Table.find?_upsert_of_ne _ _ hne
        rw [hadded, hother, hfound]

/-- A valid outcome counts unless it is indeterminate. -/
lemma judge_eq_valid_iff {p o : CognitionRow} (h : ValidOutcome py p o) :
    judge py p o = .valid ↔
      o.text py "assessment" ≠ PredictionAssessment.indeterminate.text := by
  obtain ⟨a, ha⟩ := h.assessment
  have heligible : o.text py "assessment" ∉ eligibleAssessments.map PredictionAssessment.text ↔
      o.text py "assessment" = PredictionAssessment.indeterminate.text := by
    rw [ha]
    cases a <;> decide
  have hbefore : ¬ o.record.eventTime < p.record.eventTime := Nat.not_lt.mpr h.notBefore
  rw [judge, if_neg hbefore, if_neg (not_not.mpr h.identity), if_neg (not_not.mpr h.expected),
    if_neg (not_not.mpr h.confidence)]
  split_ifs with hindeterminate
  · exact ⟨fun _ heq => heligible.mpr heq hindeterminate, fun _ => rfl⟩
  · exact ⟨nofun, fun hne => absurd (heligible.mp hindeterminate) hne⟩

lemma time_le_of_earlier {a b : CognitionRow} (h : earlier a b) :
    a.record.eventTime ≤ b.record.eventTime := by
  rcases h with h | ⟨h, -⟩
  · exact Nat.le_of_lt h
  · exact Nat.le_of_eq (congrArg Instant.micros h)

instance : Std.Total earlier := by
  refine ⟨fun a b => ?_⟩
  rcases Nat.lt_trichotomy a.record.eventTime.micros b.record.eventTime.micros with h | h | h
  · exact .inl (.inl h)
  · have htime : a.record.eventTime = b.record.eventTime := Instant.ext h
    exact (le_total a.id b.id).imp (fun hid => .inr ⟨htime, hid⟩) fun hid => .inr ⟨htime.symm, hid⟩
  · exact .inr (.inl h)

instance : IsTrans CognitionRow earlier := by
  refine ⟨fun a b c hab hbc => ?_⟩
  rcases hab with hab | ⟨hab, hid⟩ <;> rcases hbc with hbc | ⟨hbc, hid'⟩
  · exact .inl (Nat.lt_trans hab hbc)
  · exact .inl (hbc ▸ hab)
  · exact .inl (hab ▸ hbc)
  · exact .inr ⟨hab.trans hbc, hid.trans hid'⟩

/-- The last one in the order of time and id is later than all others. -/
lemma resolvingOutcome_eq_some_iff {x : EvidenceRows} {p : String × CognitionRow}
    (hdistinct : DistinctTimes (validOutcomes py x p)) (o : CognitionRow) :
    resolvingOutcome py x p = some o ↔ Latest (validOutcomes py x p) o := by
  have hperm := List.perm_insertionSort earlier (validOutcomes py x p)
  have hsorted := List.pairwise_insertionSort earlier (validOutcomes py x p)
  rw [resolvingOutcome]
  cases hlast : ((validOutcomes py x p).insertionSort earlier).getLast? with
  | none =>
    rw [List.getLast?_eq_none_iff] at hlast
    rw [hlast, List.nil_perm] at hperm
    rw [hperm]
    exact ⟨fun h => absurd h.symm (Option.some_ne_none o), fun h => absurd h.mem List.not_mem_nil⟩
  | some a =>
    obtain ⟨before, hsplit⟩ := List.getLast?_eq_some_iff.mp hlast
    rw [hsplit] at hperm hsorted
    have hlatest : Latest (validOutcomes py x p) a := by
      refine latest_of_le hdistinct (hperm.mem_iff.mp (by simp)) fun o' ho' => ?_
      rcases List.mem_append.mp (hperm.mem_iff.mpr ho') with ho' | ho'
      · exact time_le_of_earlier ((List.pairwise_append.mp hsorted).2.2 o' ho' a (by simp))
      · rw [List.mem_singleton.mp ho']
        exact Nat.le_refl _
    rw [Option.some_inj]
    constructor
    · rintro rfl
      exact hlatest
    · exact hlatest.unique

/-! ### The three paths -/

variable (py) in
/-- The outcome by which `observe` counts a prediction. -/
def observedOutcome (predictions outcomes : List CognitionRow) (id : String) :
    Option CognitionRow :=
  ((latestOutcomes py ((predictionRows predictions).rows.map CognitionRow.id) outcomes).find? id).map
    Prod.snd

variable (py) in
/-- The outcome by which `calibration_samples` scores a prediction. -/
def calibratedOutcome (known : Table (Prod.fst : String × Binary64 → String))
    (outcomes : List CognitionRow) (id : String) : Option CognitionRow :=
  ((latestOutcomes py (known.rows.map Prod.fst) outcomes).find? id).map Prod.snd

variable (py) in
/-- The outcomes of a prediction that are not indeterminate. -/
def determinateOutcomes (id : String) (outcomes : List CognitionRow) : List CognitionRow :=
  (outcomesOf py id outcomes).filter fun o =>
    o.text py "assessment" ≠ PredictionAssessment.indeterminate.text

/-- The payloads of episodes, as the evidence reads them. -/
def payloadsOf (rows : List CognitionRow) : List (Payload EpisodeRecord) :=
  rows.map fun row => .dump row.record

/-- The confidences of valid predictions are numbers. -/
lemma exists_predictionConfidence {s : PredictionLearning py} {predictions : List CognitionRow}
    (hvalid : ∀ p ∈ predictions, ValidPrediction py s.floats p) :
    ∃ known, s.predictionConfidence predictions = .ok known := by
  unfold PredictionLearning.predictionConfidence
  generalize Table.empty _ = start
  induction predictions generalizing start with
  | nil => exact ⟨start, rfl⟩
  | cons p predictions ih =>
    obtain ⟨v, x, hv, hx⟩ := (hvalid p List.mem_cons_self).confidence
    have hadd : s.addConfidence start p = .ok (start.upsert (p.id, x)) := by
      rw [PredictionLearning.addConfidence, hv]
      exact bind_eq_ok.mpr ⟨some x, hx, rfl⟩
    rw [List.foldlM_cons, hadd]
    exact ih (fun q hq => hvalid q (List.mem_cons_of_mem _ hq)) _

section Episodes

variable {predictions outcomes : List CognitionRow} {payloads : List (Payload EpisodeRecord)}
  {p : CognitionRow}

/-- An episode that the evidence reads as one kind is one of that kind. -/
lemma Written.mem {source : CognitionSource} {row : CognitionRow} (h : Written source row)
    {rows others : List CognitionRow} (hrows : ∀ r ∈ rows, Written source r)
    {other : CognitionSource} (hne : source ≠ other) (hothers : ∀ r ∈ others, Written other r)
    (hmem : .dump row.record ∈ payloadsOf rows ∨ .dump row.record ∈ payloadsOf others) :
    row ∈ rows := by
  rcases hmem with hmem | hmem <;> obtain ⟨r, hr, hrecord⟩ := List.mem_map.mp hmem <;>
    have hrecord := Payload.dump.inj hrecord
  · have hsame : row = r := by
      rw [h.eq_row (hrecord ▸ (hrows r hr).cognition), ← hrecord]
    exact hsame ▸ hr
  · have hsource := (hothers r hr).source
    rw [hrecord, h.source] at hsource
    refine absurd (Option.some.inj hsource) ?_
    cases source <;> cases other <;> first | exact absurd rfl hne | decide

/-- The evidence judges the outcomes of a valid prediction by their assessment alone. -/
lemma mem_validOutcomes (h : ValidEpisodes py floats predictions outcomes)
    (hpayloads : payloads.Perm (payloadsOf predictions ++ payloadsOf outcomes))
    (hp : p ∈ predictions) {o : CognitionRow} :
    o ∈ validOutcomes py (readRows py payloads) (p.id, p) ↔ o ∈ determinateOutcomes py p.id outcomes := by
  have hcandidate : o ∈ (readRows py payloads).candidates p.id ↔ o ∈ outcomesOf py p.id outcomes := by
    have hid : p.id ≠ "" := text_ne_empty _
    rw [mem_candidates hid, hpayloads.mem_iff, List.mem_append, outcomesOf, List.mem_filter,
      decide_eq_true_iff]
    constructor
    · rintro ⟨hmem, hwritten, hname⟩
      have ho := hwritten.mem h.written (by decide) (fun p hp => (h.prediction p hp).toWritten)
        hmem.symm
      obtain ⟨u, hu⟩ := h.names o ho
      rw [hu, strip_text] at hname
      exact ⟨ho, hu.trans hname⟩
    · rintro ⟨ho, hname⟩
      refine ⟨.inr (List.mem_map.mpr ⟨o, ho, rfl⟩), h.written o ho, ?_⟩
      rw [hname]
      exact strip_text _
  rw [validOutcomes, determinateOutcomes, List.mem_filter, List.mem_filter, hcandidate,
    decide_eq_true_iff, decide_eq_true_iff]
  exact and_congr_right fun ho => judge_eq_valid_iff (h.outcome p hp o ho)

lemma DistinctTimes.subset {os os' : List CognitionRow} (h : DistinctTimes os) (hsub : os' ⊆ os) :
    DistinctTimes os' := fun o ho o' ho' => h o (hsub ho) o' (hsub ho')

end Episodes

section Sample

/-- A cognitive episode of a session. -/
def cognitionEpisode (n time : ℕ) (source : CognitionSource) (cognition : Context) :
    CognitionRow where
  record :=
    { id := .ofNat n
      content := ""
      sessionId := "s"
      eventTime := .ofMicros time
      createdAt := .ofMicros time
      source := some source.text
      context := [("cognition", .obj cognition)] }
  cognition := cognition

def samplePrediction : CognitionRow :=
  cognitionEpisode 1 1 .prediction [("kind", .str "prediction"),
    ("prediction_id", .str (Uuid.ofNat 1).text), ("expected_outcome", .str "rain"),
    ("confidence", .float oneFloat)]

/-- An outcome of the prediction. -/
def sampleOutcome (n time : ℕ) (assessment : PredictionAssessment) : CognitionRow :=
  cognitionEpisode n time .outcome [("kind", .str "outcome"),
    ("prediction_id", .str (Uuid.ofNat 1).text), ("expected_outcome", .str "rain"),
    ("prediction_confidence", .float oneFloat), ("assessment", .str assessment.text)]

/-- The prediction is confirmed, and an indeterminate outcome is recorded after that. -/
def sampleOutcomes : List CognitionRow :=
  [sampleOutcome 2 2 .confirmed, sampleOutcome 3 3 .indeterminate]

/-- A service that reads them. -/
def sampleLearning : PredictionLearning Runtime.ascii where
  points := .empty _
  scroll := fun _ _ _ => []
  bound := none
  floats := ⟨fun _ => some oneFloat, fun _ => none, fun _ => .zero⟩

lemma sampleOutcome_names (n time : ℕ) (assessment : PredictionAssessment) :
    (sampleOutcome n time assessment).text Runtime.ascii "prediction_id" = (Uuid.ofNat 1).text := rfl

lemma eq_of_mem_sampleOutcomes {o : CognitionRow} (h : o ∈ sampleOutcomes) :
    ∃ n time assessment, o = sampleOutcome n time assessment ∧
      samplePrediction.record.eventTime ≤ o.record.eventTime := by
  simp only [sampleOutcomes, List.mem_cons, List.not_mem_nil, or_false] at h
  rcases h with rfl | rfl
  · exact ⟨2, 2, .confirmed, rfl, by decide⟩
  · exact ⟨3, 3, .indeterminate, rfl, by decide⟩

lemma sample_valid : ValidEpisodes Runtime.ascii sampleLearning.floats [samplePrediction]
    sampleOutcomes where
  nodup := List.nodup_singleton _
  prediction p hp := by
    obtain rfl := List.mem_singleton.mp hp
    exact ⟨⟨rfl, rfl, rfl⟩, rfl, _, _, rfl, rfl⟩
  written o ho := by
    obtain ⟨n, time, assessment, rfl, -⟩ := eq_of_mem_sampleOutcomes ho
    exact ⟨rfl, rfl, rfl⟩
  names o ho := by
    obtain ⟨n, time, assessment, rfl, -⟩ := eq_of_mem_sampleOutcomes ho
    exact ⟨.ofNat 1, sampleOutcome_names n time assessment⟩
  outcome p hp o ho := by
    obtain rfl := List.mem_singleton.mp hp
    obtain ⟨n, time, assessment, rfl, htime⟩ := eq_of_mem_sampleOutcomes (List.mem_of_mem_filter ho)
    refine ⟨⟨assessment, ?_⟩, htime, ⟨rfl, rfl, rfl, rfl⟩, rfl, rfl⟩
    cases assessment <;> rfl

lemma sample_distinct : DistinctTimes sampleOutcomes := by
  intro o ho o' ho' htime
  simp only [sampleOutcomes, List.mem_cons, List.not_mem_nil, or_false] at ho ho'
  rcases ho with rfl | rfl <;> rcases ho' with rfl | rfl
  · rfl
  · exact absurd htime (by decide)
  · exact absurd htime (by decide)
  · rfl

end Sample

end CyberBrain.SelfModel
