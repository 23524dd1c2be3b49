import CyberBrain.Dreaming.Agreement
import CyberBrain.Dreaming.Gate
import CyberBrain.Foundation.Lists

/-!
# How much evidence a promotion rests on

The gate counts the evidence ids of a candidate as they are listed. A merge lists the ids of both
candidates once, so only a candidate that nothing is merged into can owe its promotion to an id that
it repeats.
-/

namespace CyberBrain.Dreaming

open Python ReasonerProvider

variable {py : Runtime}

/-! ### Which candidates repeat an earlier one -/

/-- What the loop remembers of the candidates that repeat no earlier one. -/
structure FirstCandidates where
  seen : List (String × ℕ) := []
  kept : List (ℕ × Signature × Finset (List Char)) := []

section Repeats

variable (py) (policy : PromotionPolicy) (evidence : String → Option EvidenceItem)

namespace FirstCandidates

/-- The earlier candidate that a candidate repeats, exactly or nearly. -/
def repeated (f : FirstCandidates) (candidate : DreamCandidate) : Option ℕ :=
  match f.seen.lookup (candidateFingerprint py evidence candidate) with
  | some first => some first
  | none       => DreamEvidenceGate.nearDuplicateIndex py policy evidence candidate f.kept

/-- The first candidates after one more candidate. -/
def add (f : FirstCandidates) (candidate : DreamCandidate) (index : ℕ) : FirstCandidates :=
  match f.repeated py policy evidence candidate with
  | some _ => f
  | none   =>
    { seen := f.seen ++ [(candidateFingerprint py evidence candidate, index)]
      kept := f.kept ++ [(index, candidateSignature py evidence candidate,
        candidateTokens py candidate)] }

end FirstCandidates

/-- The first candidates of a list. -/
def firstCandidates (candidates : List DreamCandidate) : FirstCandidates :=
  candidates.zipIdx.foldl (fun f (candidate, index) => f.add py policy evidence candidate index) {}

/-- The earlier candidate that the candidate at an index repeats. -/
def repeats (candidates : List DreamCandidate) (i : ℕ) : Option ℕ :=
  candidates[i]?.bind
    ((firstCandidates py policy evidence (candidates.take i)).repeated py policy evidence)

end Repeats

/-- The first candidates as the loop has them. -/
def GateState.firsts (s : GateState) : FirstCandidates := ⟨s.seen, s.kept⟩

section Steps

variable {policy : PromotionPolicy} {evidence : String → Option EvidenceItem}
  {original : List DreamCandidate} {s : GateState} {candidate : DreamCandidate} {index : ℕ}

variable (py policy evidence) in
/-- One pass merges a candidate into the one that it repeats, and keeps it if there is none. -/
lemma step_cases (s : GateState) (candidate : DreamCandidate) (index : ℕ) :
    (∃ first, ∃ reason ∈ mergeReasons, s.firsts.repeated py policy evidence candidate = some first ∧
      DreamEvidenceGate.step py policy evidence s candidate index =
        DreamEvidenceGate.absorb py policy evidence s index candidate first reason) ∨
    s.firsts.repeated py policy evidence candidate = none ∧
      DreamEvidenceGate.step py policy evidence s candidate index =
        DreamEvidenceGate.keep py policy evidence s index candidate := by
  simp only [DreamEvidenceGate.step, FirstCandidates.repeated, GateState.firsts]
  cases s.seen.lookup (candidateFingerprint py evidence candidate) with
  | some first => exact .inl ⟨first, _, by simp [mergeReasons], rfl, rfl⟩
  | none =>
    cases DreamEvidenceGate.nearDuplicateIndex py policy evidence candidate s.kept with
    | some first => exact .inl ⟨first, _, by simp [mergeReasons], rfl, rfl⟩
    | none => exact .inr ⟨rfl, rfl⟩

lemma firsts_step : (DreamEvidenceGate.step py policy evidence s candidate index).firsts =
    s.firsts.add py policy evidence candidate index := by
  obtain ⟨first, reason, -, hrepeated, hstep⟩ | ⟨hrepeated, hstep⟩ :=
    step_cases py policy evidence s candidate index
  · rw [hstep, FirstCandidates.add, hrepeated]
    rfl
  · rw [hstep, FirstCandidates.add, hrepeated]
    rfl

lemma firstCandidates_take (hnext : original[index]? = some candidate) :
    firstCandidates py policy evidence (original.take (index + 1)) =
      (firstCandidates py policy evidence (original.take index)).add py policy evidence candidate
        index := by
  obtain ⟨hlt, -⟩ := List.getElem?_eq_some_iff.mp hnext
  rw [List.take_add_one, hnext, firstCandidates, List.zipIdx_append, List.foldl_append]
  simp [firstCandidates, Nat.min_eq_left hlt.le]

/-- What the loop has made of the candidates so far: those that repeat an earlier one are rejected,
those that are repeated list every id once, and the others are as they were. -/
structure GateState.Repeated (py : Runtime) (policy : PromotionPolicy)
    (evidence : String → Option EvidenceItem) (original : List DreamCandidate) (s : GateState) :
    Prop where
  firsts : s.firsts = firstCandidates py policy evidence (original.take s.decisions.length)
  rejected : ∀ i < s.decisions.length, ∀ k, repeats py policy evidence original i = some k ↔
    ∃ o, s.decisions[i]? = some (duplicateResult i o k)
  candidates : ∀ (i : ℕ) (c : DreamCandidate), s.candidates[i]? = some c →
    (∃ j < s.decisions.length, repeats py policy evidence original j = some i) ∧
        c.evidenceIds.Nodup ∨
      (∀ j < s.decisions.length, repeats py policy evidence original j ≠ some i) ∧
        original[i]? = some c

/-- The candidate that is repeated was kept. -/
lemma GateState.Inv.kept_of_repeated (h : s.Inv py policy evidence original) {first : ℕ}
    (hrepeated : s.firsts.repeated py policy evidence candidate = some first) :
    first < s.decisions.length ∧ ∃ o, KeptAt py policy evidence original s first o := by
  simp only [FirstCandidates.repeated, GateState.firsts] at hrepeated
  split at hrepeated
  · next hseen =>
    cases hrepeated
    obtain ⟨hlt, o, hkept, -⟩ := h.seen _ _ (mem_of_lookup_eq_some hseen)
    exact ⟨hlt, o, hkept⟩
  · simp only [DreamEvidenceGate.nearDuplicateIndex] at hrepeated
    split_ifs at hrepeated
    obtain ⟨entry, hfind, rfl⟩ := Option.map_eq_some_iff.mp hrepeated
    obtain ⟨hlt, o, hkept, -⟩ := h.kept _ _ _ (List.mem_of_find?_eq_some hfind)
    exact ⟨hlt, o, hkept⟩

lemma duplicateResult_inj {i k k' : ℕ} {o o' : DreamCandidate}
    (h : duplicateResult i o k = duplicateResult i o' k') : k = k' :=
  mergedInto_injective (duplicateResult_isMergedInto i o k)
    (h ▸ duplicateResult_isMergedInto i o' k')

lemma repeats_next (h : s.Repeated py policy evidence original)
    (hnext : original[s.decisions.length]? = some candidate) :
    repeats py policy evidence original s.decisions.length =
      s.firsts.repeated py policy evidence candidate := by
  rw [repeats, hnext, Option.bind_some, h.firsts]

/-- One pass of the loop keeps the invariant. -/
lemma GateState.Repeated.step (h : s.Repeated py policy evidence original)
    (hinv : s.Inv py policy evidence original)
    (hnext : original[s.decisions.length]? = some candidate) :
    (DreamEvidenceGate.step py policy evidence s candidate s.decisions.length).Repeated py policy
      evidence original := by
  have hlength := (hinv.step hnext).2
  have hrepeats := repeats_next h hnext
  have hfirsts : (DreamEvidenceGate.step py policy evidence s candidate
      s.decisions.length).firsts = firstCandidates py policy evidence
        (original.take (s.decisions.length + 1)) := by
    rw [firsts_step, h.firsts, firstCandidates_take hnext]
  obtain ⟨first, reason, hreason, hrepeated, hstep⟩ | ⟨hrepeated, hstep⟩ :=
    step_cases py policy evidence s candidate s.decisions.length
  · rw [hrepeated] at hrepeats
    obtain ⟨hlt, o, hkept⟩ := hinv.kept_of_repeated hrepeated
    obtain ⟨c, d, hc, hd, -⟩ := hkept.decided
    obtain ⟨-, hcandidate, hself, hdecision, hdecided, hnew⟩ :=
      absorb_spec py evidence policy candidate reason hlt hc
    rw [← hstep] at hcandidate hself hdecision hdecided hnew
    generalize DreamEvidenceGate.step py policy evidence s candidate s.decisions.length = s' at *
    refine ⟨by rw [hlength]; exact hfirsts, fun i hi k => ?_, fun i c' hc' => ?_⟩
    · rw [hlength, Nat.lt_succ_iff_lt_or_eq] at hi
      rcases hi with hi | rfl
      · by_cases hfirst : i = first
        · subst hfirst
          rw [h.rejected i hi]
          constructor
          · rintro ⟨o', ho'⟩
            exact absurd ho' hkept.not_duplicate
          · rintro ⟨o', ho'⟩
            rw [hdecided] at ho'
            exact absurd (Option.some.inj ho' ▸ @Evaluated.addReason py evidence policy _ _ _ hreason)
              not_evaluated_duplicate
        · rw [hdecision i hi hfirst]
          exact h.rejected i hi k
      · rw [hrepeats, hnew]
        constructor
        · rintro ⟨⟩
          exact ⟨candidate, rfl⟩
        · rintro ⟨o', ho'⟩
          rw [duplicateResult_inj (Option.some.inj ho')]
    · rw [hlength]
      by_cases hfirst : i = first
      · subst hfirst
        rw [hself] at hc'
        cases hc'
        exact .inl ⟨⟨s.decisions.length, Nat.lt_succ_self _, hrepeats⟩, nodup_eraseDups _⟩
      · rw [hcandidate i hfirst] at hc'
        refine (h.candidates i c' hc').imp (And.imp_left ?_) (And.imp_left ?_)
        · rintro ⟨j, hj, hji⟩
          exact ⟨j, Nat.lt_succ_of_lt hj, hji⟩
        · intro hall j hj
          rcases Nat.lt_succ_iff_lt_or_eq.mp hj with hj | rfl
          · exact hall j hj
          · rw [hrepeats]
            exact fun heq => hfirst (Option.some.inj heq).symm
  · rw [hrepeated] at hrepeats
    have hcandidates : (DreamEvidenceGate.step py policy evidence s candidate
        s.decisions.length).candidates = s.candidates := by rw [hstep]; rfl
    have hdecisions : (DreamEvidenceGate.step py policy evidence s candidate
        s.decisions.length).decisions = s.decisions ++
          [evaluateCandidate py policy s.decisions.length candidate evidence] := by rw [hstep]; rfl
    generalize DreamEvidenceGate.step py policy evidence s candidate s.decisions.length = s' at *
    refine ⟨by rw [hlength]; exact hfirsts, fun i hi k => ?_, fun i c' hc' => ?_⟩
    · rw [hlength, Nat.lt_succ_iff_lt_or_eq] at hi
      rw [hdecisions]
      rcases hi with hi | rfl
      · rw [List.getElem?_append_left hi]
        exact h.rejected i hi k
      · rw [hrepeats, List.getElem?_concat_length]
        constructor
        · rintro ⟨⟩
        · rintro ⟨o', ho'⟩
          exact absurd (Option.some.inj ho' ▸ @Evaluated.self py evidence policy _ _)
            not_evaluated_duplicate
    · rw [hcandidates] at hc'
      rw [hlength]
      refine (h.candidates i c' hc').imp (And.imp_left ?_) (And.imp_left ?_)
      · rintro ⟨j, hj, hji⟩
        exact ⟨j, Nat.lt_succ_of_lt hj, hji⟩
      · intro hall j hj
        rcases Nat.lt_succ_iff_lt_or_eq.mp hj with hj | rfl
        · exact hall j hj
        · rw [hrepeats]
          exact (Option.some_ne_none i).symm

variable (py policy evidence) in
lemma loop_repeated (original : List DreamCandidate) :
    let s := DreamEvidenceGate.loop py policy evidence { candidates := original } original
    s.Inv py policy evidence original ∧ s.Repeated py policy evidence original ∧
      s.decisions.length = original.length := by
  have hinit : ({ candidates := original } : GateState).Repeated py policy evidence original :=
    ⟨rfl, by simp, fun i c hc => .inr ⟨by simp, hc⟩⟩
  obtain ⟨⟨hinv, hrepeated⟩, hlength⟩ := @loop_induct py evidence policy
    (fun s => s.Inv py policy evidence original ∧ s.Repeated py policy evidence original) original
    ⟨⟨rfl, fun _ _ => rfl, by simp, by simp, by simp⟩, hinit⟩
    fun s candidate hs hnext =>
      ⟨⟨(hs.1.step hnext).1, hs.2.step hs.1 hnext⟩, (hs.1.step hnext).2⟩
  exact ⟨hinv, hrepeated, hlength⟩

end Steps

/-! ### Distinct evidence -/

/-- The ids of the evidence items of a request. -/
def requestIds (request : DreamReasoningRequest) : Finset String :=
  ((request.evidenceByTopic.flatMap Prod.snd).map (·.id)).toFinset

/-- The different evidence items of the request that a decision cites. -/
def citedItems (request : DreamReasoningRequest) (d : CandidateGateResult) : Finset String :=
  d.evidenceIds.toFinset ∩ requestIds request

lemma evidenceById_isSome {request : DreamReasoningRequest} {id : String} :
    (evidenceById request id).isSome = true ↔ id ∈ requestIds request := by
  simp [evidenceById, requestIds]

/-- Nothing but the number of its evidence ids rejects the candidate. -/
structure Promotable (py : Runtime) (policy : PromotionPolicy)
    (evidence : String → Option EvidenceItem) (o : DreamCandidate) : Prop where
  known : ∀ id ∈ o.evidenceIds, (evidence id).isSome = true
  sufficient : o.classification ≠ "insufficient_evidence"
  scored : o.classification ∈ ["contradiction", "true_contradiction", "context_dependent"] ∨
    min policy.promoteThreshold policy.reviewThreshold ≤ promotionConfidence o.confidence
      (evidenceStrength py policy (o.evidenceIds.filterMap evidence))

section Decisions

variable {policy : PromotionPolicy} {evidence : String → Option EvidenceItem} {i : ℕ}
  {c : DreamCandidate} {d : CandidateGateResult}

lemma length_known (h : ∀ id ∈ c.evidenceIds, (evidence id).isSome = true) :
    (c.evidenceIds.filterMap evidence).length = c.evidenceIds.length := by
  rw [List.length_filterMap_eq_countP]
  exact List.countP_eq_length.mpr h

/-- What is not rejected lists enough ids. -/
lemma evaluateCandidate_ne_reject :
    (evaluateCandidate py policy i c evidence).decision ≠ .reject ↔
      Promotable py policy evidence c ∧ policy.minimumEvidenceCount ≤ c.evidenceIds.length := by
  have hdecision : ∀ decision strength confidence reasons,
      (gateResult i c decision strength confidence reasons).decision = decision :=
    fun _ _ _ _ => rfl
  by_cases hknown : ∀ id ∈ c.evidenceIds, (evidence id).isSome = true
  · have hall : c.evidenceIds.any (fun id => (evidence id).isNone) = false := by
      rw [List.any_eq_false]
      intro id hid
      simp [Option.isSome_iff_ne_none.mp (hknown id hid)]
    simp only [evaluateCandidate, hall, Bool.false_eq_true, if_false, length_known hknown]
    split_ifs with hcount hclass hcontradiction hcontext hpromote hreview
    · exact iff_of_false (fun h => h rfl) fun h => absurd h.2 (not_le.mpr hcount)
    · exact iff_of_false (fun h => h rfl) fun h => h.1.sufficient hclass
    · refine iff_of_true (by simp [hdecision]) ⟨⟨hknown, hclass, .inl ?_⟩, not_lt.mp hcount⟩
      simp only [List.mem_cons, List.not_mem_nil, or_false] at hcontradiction ⊢
      exact hcontradiction.imp_right .inl
    · refine iff_of_true (by simp [hdecision]) ⟨⟨hknown, hclass, .inl ?_⟩, not_lt.mp hcount⟩
      simp [hcontext]
    · exact iff_of_true (by simp [hdecision])
        ⟨⟨hknown, hclass, .inr (min_le_iff.mpr (.inl hpromote))⟩, not_lt.mp hcount⟩
    · exact iff_of_true (by simp [hdecision])
        ⟨⟨hknown, hclass, .inr (min_le_iff.mpr (.inr hreview))⟩, not_lt.mp hcount⟩
    · refine iff_of_false (fun h => h rfl) fun h => ?_
      rcases h.1.scored with hmem | hscore
      · simp only [List.mem_cons, List.not_mem_nil, or_false] at hmem hcontradiction
        rcases hmem with hmem | hmem | hmem
        · exact hcontradiction (.inl hmem)
        · exact hcontradiction (.inr hmem)
        · exact hcontext hmem
      · exact (min_le_iff.mp hscore).elim hpromote hreview
  · have hsome : c.evidenceIds.any (fun id => (evidence id).isNone) = true := by
      push Not at hknown
      obtain ⟨id, hid, hnone⟩ := hknown
      exact List.any_eq_true.mpr ⟨id, hid, by simpa using hnone⟩
    simp only [evaluateCandidate, hsome, if_true]
    exact iff_of_false (fun h => h rfl) fun h => hknown h.1.known

lemma Evaluated.evidenceIds (h : Evaluated py policy evidence i c d) :
    d.evidenceIds = c.evidenceIds := by
  obtain ⟨added, -, rfl⟩ := h
  exact evaluateCandidate_evidenceIds

lemma Evaluated.decision (h : Evaluated py policy evidence i c d) :
    d.decision = (evaluateCandidate py policy i c evidence).decision := by
  obtain ⟨added, -, rfl⟩ := h
  rfl

/-- The items that a decision cites are the ids of its candidate, once each. -/
lemma citedItems_eq {request : DreamReasoningRequest}
    (hids : d.evidenceIds = c.evidenceIds)
    (hknown : ∀ id ∈ c.evidenceIds, (evidenceById request id).isSome = true) :
    citedItems request d = c.evidenceIds.toFinset := by
  rw [citedItems, hids, Finset.inter_eq_left]
  intro id hid
  exact evidenceById_isSome.mp (hknown id (List.mem_toFinset.mp hid))

end Decisions

/-- No decision but a rejection rests on fewer different items than the policy asks for. -/
def NeedsDistinctEvidence (py : Runtime) (policy : PromotionPolicy)
    (request : DreamReasoningRequest) (result : DreamReasoningResult) : Prop :=
  ∀ final gate, DreamEvidenceGate.evaluate py policy request result = .ok (final, gate) →
    ∀ d ∈ gate.candidates, d.decision ≠ .reject →
      policy.minimumEvidenceCount ≤ (citedItems request d).card

/-- A candidate that repeats no earlier one and that no later one repeats lists too few ids or
enough different ones, unless it is rejected anyway. -/
def CountsDistinct (py : Runtime) (policy : PromotionPolicy) (request : DreamReasoningRequest)
    (candidates : List DreamCandidate) : Prop :=
  ∀ (i : ℕ) (o : DreamCandidate), candidates[i]? = some o →
    repeats py policy (evidenceById request) candidates i = none →
    (∀ j, repeats py policy (evidenceById request) candidates j ≠ some i) →
    Promotable py policy (evidenceById request) o →
    policy.minimumEvidenceCount ≤ o.evidenceIds.length →
      policy.minimumEvidenceCount ≤ o.evidenceIds.toFinset.card

lemma evaluate_eq_ok {policy : PromotionPolicy} {request : DreamReasoningRequest}
    {result final : DreamReasoningResult} {gate : DreamGateResult} :
    DreamEvidenceGate.evaluate py policy request result = .ok (final, gate) ↔
      result.requestId = request.requestId ∧
        let s := DreamEvidenceGate.loop py policy (evidenceById request)
          { candidates := result.candidates } result.candidates
        final = { result with candidates := s.candidates } ∧
          gate = ⟨request.requestId, s.decisions⟩ := by
  constructor
  · intro h
    obtain ⟨_, hid, h⟩ := bind_eq_ok.mp h
    obtain ⟨rfl, rfl⟩ := Prod.mk.inj (Except.ok.inj h)
    exact ⟨require_eq_ok.mp hid, rfl, rfl⟩
  · rintro ⟨hid, rfl, rfl⟩
    exact bind_eq_ok.mpr ⟨(), require_eq_ok.mpr hid, rfl⟩

/-- A promotion rests on distinct evidence where the candidate does not owe it to a repeated id. -/
lemma enough_of_countsDistinct {policy : PromotionPolicy} {request : DreamReasoningRequest}
    {original : List DreamCandidate} {s : GateState}
    (hinv : s.Inv py policy (evidenceById request) original)
    (hrepeated : s.Repeated py policy (evidenceById request) original)
    (hlength : s.decisions.length = original.length)
    (hcounts : CountsDistinct py policy request original) {d : CandidateGateResult}
    (hd : d ∈ s.decisions) (hreject : d.decision ≠ .reject) :
    policy.minimumEvidenceCount ≤ (citedItems request d).card := by
  obtain ⟨i, hi, hdi⟩ := List.getElem_of_mem hd
  have hget : s.decisions[i]? = some d := hdi ▸ List.getElem?_eq_getElem hi
  obtain ⟨o, hkept | hmerged⟩ := hinv.settled i hi
  · obtain ⟨c, d', hc, hd', hevaluated⟩ := hkept.decided
    cases hget.symm.trans hd'
    rw [hevaluated.decision] at hreject
    obtain ⟨hpromotable, hcount⟩ := evaluateCandidate_ne_reject.mp hreject
    rw [citedItems_eq hevaluated.evidenceIds hpromotable.known]
    rcases hrepeated.candidates i c hc with ⟨-, hnodup⟩ | ⟨halone, horigin⟩
    · rwa [List.toFinset_card_of_nodup hnodup]
    · have hnone : repeats py policy (evidenceById request) original i = none := by
        by_contra hsome
        obtain ⟨k, hk⟩ := Option.ne_none_iff_exists'.mp hsome
        obtain ⟨o', ho'⟩ := (hrepeated.rejected i hi k).mp hk
        exact hkept.not_duplicate ho'
      refine hcounts i c horigin hnone (fun j hj => ?_) hpromotable hcount
      by_cases hlt : j < s.decisions.length
      · exact halone j hlt hj
      · rw [repeats, List.getElem?_eq_none (by omega)] at hj
        cases hj
  · obtain ⟨k, o', -, -, -, hd'⟩ := hmerged.into
    cases hget.symm.trans hd'
    exact absurd rfl hreject

/-- A candidate that stands alone is decided as it was listed. -/
lemma decided_alone {policy : PromotionPolicy} {evidence : String → Option EvidenceItem}
    {original : List DreamCandidate} {s : GateState} (hinv : s.Inv py policy evidence original)
    (hrepeated : s.Repeated py policy evidence original)
    (hlength : s.decisions.length = original.length) {i : ℕ} {o : DreamCandidate}
    (ho : original[i]? = some o) (hfirst : repeats py policy evidence original i = none)
    (halone : ∀ j, repeats py policy evidence original j ≠ some i) :
    ∃ d ∈ s.decisions, Evaluated py policy evidence i o d := by
  have hi : i < s.decisions.length := hlength ▸ (List.getElem?_eq_some_iff.mp ho).1
  obtain ⟨o', hkept | hmerged⟩ := hinv.settled i hi
  · obtain ⟨c, d, hc, hd, hevaluated⟩ := hkept.decided
    refine ⟨d, List.mem_of_getElem? hd, ?_⟩
    rcases hrepeated.candidates i c hc with ⟨⟨j, -, hj⟩, -⟩ | ⟨-, horigin⟩
    · exact absurd hj (halone j)
    · cases ho.symm.trans horigin
      exact hevaluated
  · obtain ⟨k, o'', -, -, -, hd⟩ := hmerged.into
    rw [(hrepeated.rejected i hi k).mpr ⟨_, hd⟩] at hfirst
    cases hfirst

/-- Promotion rests on distinct evidence exactly where no candidate that stands alone reaches the
count by repeating an id. -/
theorem needsDistinctEvidence_iff (policy : PromotionPolicy) (request : DreamReasoningRequest)
    (result : DreamReasoningResult) :
    NeedsDistinctEvidence py policy request result ↔ (result.requestId = request.requestId →
      CountsDistinct py policy request result.candidates) := by
  obtain ⟨hinv, hrepeated, hlength⟩ :=
    loop_repeated py policy (evidenceById request) result.candidates
  constructor
  · intro hneeds hid i o ho hfirst halone hpromotable hcount
    obtain ⟨d, hd, hevaluated⟩ := decided_alone hinv hrepeated hlength ho hfirst halone
    have hreject : d.decision ≠ .reject := by
      rw [hevaluated.decision]
      exact evaluateCandidate_ne_reject.mpr ⟨hpromotable, hcount⟩
    have henough := hneeds _ _ (evaluate_eq_ok.mpr ⟨hid, rfl, rfl⟩) d hd hreject
    rwa [citedItems_eq hevaluated.evidenceIds hpromotable.known] at henough
  · intro hcounts final gate hevaluate d hd hreject
    obtain ⟨hid, -, rfl⟩ := evaluate_eq_ok.mp hevaluate
    exact enough_of_countsDistinct hinv hrepeated hlength (hcounts hid) hd hreject

/-! ### An id that is listed twice -/

section Sample

/-- A request about one item. -/
def oneItem : DreamReasoningRequest := sampleRequest [sampleEvidence "e1"]

/-- An answer that cites the item twice. -/
def repeatedAnswer : ReasonTaskResult where
  taskId := "run:1:current_state"
  claims := [⟨"a fact", ["e1", "e1"], .one, Binary64.value_one_nonneg, Binary64.value_one_le_one⟩]

/-- A decision other than a rejection that rests on one item. -/
def restsOnOne (result : Except Exc DreamReasoningResult) : Bool :=
  match result.bind (DreamEvidenceGate.evaluate Runtime.ascii {} oneItem) with
  | .ok (_, gate) =>
    gate.candidates.any fun d => d.decision ≠ .reject ∧ (citedItems oneItem d).card = 1
  | .error _      => false

lemma not_needsDistinct_of_restsOnOne {result : DreamReasoningResult}
    (h : restsOnOne (.ok result) = true) :
    ¬ NeedsDistinctEvidence Runtime.ascii {} oneItem result := by
  intro hneeds
  simp only [restsOnOne, Except.bind] at h
  split at h
  · next final gate hevaluate =>
    obtain ⟨d, hd, hrests⟩ := List.any_eq_true.mp h
    obtain ⟨hreject, hcard⟩ := of_decide_eq_true hrests
    have henough := hneeds final gate hevaluate d hd hreject
    rw [hcard] at henough
    exact absurd henough (by decide)
  · cases h

/-- The answer is accepted and assembled, and the default policy, which asks for two items, sends
its one candidate to review. -/
theorem repeated_id_reviewed :
    List.Forall₂ (Accepted Runtime.ascii) (sampleReasoner.buildTasks Runtime.ascii oneItem)
        [repeatedAnswer] ∧
      ∃ result, sampleReasoner.assemble Runtime.ascii oneItem
          (sampleReasoner.buildTasks Runtime.ascii oneItem) [parseResult repeatedAnswer] =
            .ok result ∧
        ¬ NeedsDistinctEvidence Runtime.ascii {} oneItem result := by
  constructor
  · have htasks : (sampleReasoner.buildTasks Runtime.ascii oneItem).map
        (fun task => (task.taskId, task.evidence.map (·.id))) =
          [("run:1:current_state", ["e1"])] := by
      decide +kernel
    obtain ⟨task, rest, heq, htask, htail⟩ := List.map_eq_cons_iff.mp htasks
    rw [List.map_eq_nil_iff.mp htail] at heq
    obtain ⟨hid, hevidence⟩ := Prod.mk.inj htask
    rw [heq]
    refine .cons (accepted_iff.mpr ⟨hid.symm, ?_⟩) .nil
    simp [repeatedAnswer, hevidence]
  · have hrests : restsOnOne (sampleReasoner.assemble Runtime.ascii oneItem
        (sampleReasoner.buildTasks Runtime.ascii oneItem) [parseResult repeatedAnswer]) = true := by
      decide +kernel
    cases hresult : sampleReasoner.assemble Runtime.ascii oneItem
        (sampleReasoner.buildTasks Runtime.ascii oneItem) [parseResult repeatedAnswer] with
    | error e =>
      rw [hresult] at hrests
      cases hrests
    | ok result =>
      rw [hresult] at hrests
      exact ⟨result, rfl, not_needsDistinct_of_restsOnOne hrests⟩

end Sample

end CyberBrain.Dreaming
