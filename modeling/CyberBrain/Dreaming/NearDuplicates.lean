import CyberBrain.Dreaming.Promotion

/-!
# Near duplicates and exact ones

A fingerprint contains the partitions of the evidence as a set, the signature of a near duplicate
contains them once for each item. So the two detectors agree on candidates that cite each partition
equally often, and on no others.
-/

namespace CyberBrain.Dreaming

open Python

variable {py : Runtime}

/-! ### Fingerprints and signatures -/

section Detectors

variable (py) (evidence : String → Option EvidenceItem)

/-- The known evidence of both candidates lies in each partition equally often. -/
def SamePartitions (a b : DreamCandidate) : Prop :=
  ((partitionsOf evidence a).map (dumps py)).Perm ((partitionsOf evidence b).map (dumps py))

/-- A candidate in the words of another one. -/
def DreamCandidate.inWordsOf (b a : DreamCandidate) : DreamCandidate :=
  { b with summary := a.summary, content := a.content }

/-- Two candidates that would be duplicates in the same words. -/
def Alike (a b : DreamCandidate) : Prop :=
  candidateFingerprint py evidence a = candidateFingerprint py evidence (b.inWordsOf a)

/-- Two candidates with enough tokens, and enough of them in common. -/
structure Close (policy : PromotionPolicy) (a b : DreamCandidate) : Prop where
  tokens : policy.nearDuplicateMinTokens ≤ (candidateTokens py a).card
  tokens' : policy.nearDuplicateMinTokens ≤ (candidateTokens py b).card
  nonempty : (candidateTokens py b ∪ candidateTokens py a).Nonempty
  jaccard : policy.nearDuplicateJaccard ≤ Binary64.round
    ((candidateTokens py b ∩ candidateTokens py a).card /
      (candidateTokens py b ∪ candidateTokens py a).card)

end Detectors

variable {evidence : String → Option EvidenceItem} {a b : DreamCandidate}

lemma sortTexts_eq_iff {texts texts' : List String} :
    sortTexts texts = sortTexts texts' ↔ texts.Perm texts' := insertionSort_eq_iff_perm

lemma sortTexts_dedup_eq {texts texts' : List String} (h : ∀ t, t ∈ texts ↔ t ∈ texts') :
    sortTexts texts.dedup = sortTexts texts'.dedup :=
  sortTexts_eq_iff.mpr (List.perm_of_nodup_nodup_toFinset_eq (List.nodup_dedup _)
    (List.nodup_dedup _) (Finset.ext fun t => by simp [h t]))

lemma candidateSignature_partitions : (candidateSignature py evidence a).partitions =
    (candidateSignature py evidence b).partitions ↔ SamePartitions py evidence a b := by
  simp only [candidateSignature, dumps_eq_iff, textList_sortKeys, textList_injective.eq_iff,
    sortTexts_eq_iff, SamePartitions]

/-- Candidates that may be merged have one signature exactly if they cite each partition equally
often. -/
lemma signature_eq_iff (h : Mergeable py evidence a b) :
    candidateSignature py evidence a = candidateSignature py evidence b ↔
      SamePartitions py evidence a b := by
  rw [← candidateSignature_partitions]
  constructor
  · intro heq
    rw [heq]
  · intro heq
    have hunknown : (candidateSignature py evidence a).unknown =
        (candidateSignature py evidence b).unknown := by
      simp only [candidateSignature, sortTexts_dedup_eq h.unknown]
    simp only [candidateSignature, Signature.mk.injEq] at heq hunknown ⊢
    exact ⟨h.entityType, h.classification, dumps_eq_iff.mpr h.context, h.polarity, heq, hunknown⟩

/-- Candidates with one fingerprint are alike. -/
lemma alike_of_fingerprint
    (h : candidateFingerprint py evidence a = candidateFingerprint py evidence b) :
    Alike py evidence a b := by
  have hjson := dumps_eq_iff.mp h
  refine dumps_eq_iff.mpr ?_
  simp only [Json.sortKeys.eq_1, Json.sortKeysList_eq, List.map_cons, List.map_nil,
    Json.arr.injEq, List.cons.injEq, and_true] at hjson ⊢
  exact ⟨rfl, hjson.2⟩

/-- What candidates that are alike may differ in is their words. -/
lemma Alike.mergeable (h : Alike py evidence a b) : Mergeable py evidence a b :=
  let hmerge := mergeable_of_fingerprint h
  ⟨hmerge.partitions, hmerge.unknown, hmerge.entityType, hmerge.classification, hmerge.polarity,
    hmerge.context⟩

/-! ### First candidates -/

section Firsts

variable {policy : PromotionPolicy} {cs : List DreamCandidate} {i j : ℕ}

/-- A candidate that repeats none stays among the first candidates. -/
lemma mem_firstCandidates (ha : cs[i]? = some a)
    (hfirst : repeats py policy evidence cs i = none) (hij : i < j) (hj : j ≤ cs.length) :
    (i, candidateSignature py evidence a, candidateTokens py a) ∈
      (firstCandidates py policy evidence (cs.take j)).kept := by
  induction j, hij using Nat.le_induction with
  | base =>
    rw [repeats, ha, Option.bind_some] at hfirst
    rw [firstCandidates_take ha, FirstCandidates.add, hfirst]
    exact List.mem_append_right _ (List.mem_singleton_self _)
  | succ j hij ih =>
    have hmem := ih (by omega)
    rw [firstCandidates_take (List.getElem?_eq_getElem (by omega : j < cs.length)),
      FirstCandidates.add]
    split
    · exact hmem
    · exact List.mem_append_left _ hmem

/-- A candidate that is close to a first one, with its signature, repeats an earlier one. -/
lemma repeats_of_close (ha : cs[i]? = some a) (hb : cs[j]? = some b)
    (hfirst : repeats py policy evidence cs i = none) (hij : i < j)
    (hsignature : candidateSignature py evidence a = candidateSignature py evidence b)
    (hclose : Close py policy a b) : repeats py policy evidence cs j ≠ none := by
  have hmem := mem_firstCandidates ha hfirst hij (List.getElem?_eq_some_iff.mp hb).1.le
  rw [repeats, hb, Option.bind_some, FirstCandidates.repeated]
  split
  · exact Option.some_ne_none _
  · rw [DreamEvidenceGate.nearDuplicateIndex, if_neg (not_lt.mpr hclose.tokens')]
    intro hnone
    rw [Option.map_eq_none_iff, List.find?_eq_none] at hnone
    refine hnone _ hmem ?_
    simp only [hsignature, hclose.tokens, hclose.nonempty, hclose.jaccard, decide_true,
      Bool.and_self]

lemma repeats_first (cs : List DreamCandidate) : repeats py policy evidence cs 0 = none := by
  have hnear : ∀ c, DreamEvidenceGate.nearDuplicateIndex py policy evidence c [] = none := by
    intro c
    rw [DreamEvidenceGate.nearDuplicateIndex]
    split_ifs <;> rfl
  cases cs with
  | nil => rfl
  | cons c cs => exact hnear c

/-- Of two candidates, the second repeats the first if the fingerprints are equal, or else the
signatures. -/
lemma eq_of_repeats_pair (h : repeats py policy evidence [a, b] 1 ≠ none) :
    candidateFingerprint py evidence a = candidateFingerprint py evidence b ∨
      candidateSignature py evidence a = candidateSignature py evidence b := by
  have hfirsts : firstCandidates py policy evidence [a] =
      { seen := [(candidateFingerprint py evidence a, 0)]
        kept := [(0, candidateSignature py evidence a, candidateTokens py a)] } := by
    have hnone : ({} : FirstCandidates).repeated py policy evidence a = none :=
      @repeats_first py evidence policy [a]
    have hadd : firstCandidates py policy evidence [a] =
        ({} : FirstCandidates).add py policy evidence a 0 := rfl
    rw [hadd, FirstCandidates.add, hnone]
    rfl
  have hrepeats : repeats py policy evidence [a, b] 1 =
      (firstCandidates py policy evidence [a]).repeated py policy evidence b := rfl
  rw [hrepeats, hfirsts, FirstCandidates.repeated] at h
  split at h
  · next first hseen =>
    have hmem := mem_of_lookup_eq_some hseen
    simp only [List.mem_singleton, Prod.mk.injEq] at hmem
    exact .inl hmem.1.symm
  · rw [DreamEvidenceGate.nearDuplicateIndex] at h
    split_ifs at h with htokens
    · exact absurd rfl h
    · obtain ⟨first, hfirst⟩ := Option.ne_none_iff_exists'.mp h
      obtain ⟨entry, hfind, -⟩ := Option.map_eq_some_iff.mp hfirst
      have hmem := List.mem_of_find?_eq_some hfind
      have hsame := List.find?_some hfind
      rw [List.mem_singleton] at hmem
      subst hmem
      simp only [Bool.and_eq_true, decide_eq_true_eq] at hsame
      exact .inr hsame.1.1.1

end Firsts

/-! ### The two detectors -/

/-- The candidate at an index is rejected as merged into an earlier one. -/
def DreamGateResult.DuplicateAt (gate : DreamGateResult) (j : ℕ) : Prop :=
  ∃ d k, gate.candidates[j]? = some d ∧ d.IsMergedInto k

lemma duplicateAt_iff {policy : PromotionPolicy} {request : DreamReasoningRequest}
    {result final : DreamReasoningResult} {gate : DreamGateResult}
    (h : DreamEvidenceGate.evaluate py policy request result = .ok (final, gate)) {j : ℕ} :
    gate.DuplicateAt j ↔
      repeats py policy (evidenceById request) result.candidates j ≠ none := by
  obtain ⟨-, -, rfl⟩ := evaluate_eq_ok.mp h
  obtain ⟨hinv, hrepeated, hlength⟩ :=
    loop_repeated py policy (evidenceById request) result.candidates
  constructor
  · rintro ⟨d, k, hd, hinto⟩
    have hj := (List.getElem?_eq_some_iff.mp hd).1
    obtain ⟨o, hkept | hmerged⟩ := hinv.settled j hj
    · obtain ⟨c, d', -, hd', hevaluated⟩ := hkept.decided
      cases hd.symm.trans hd'
      exact absurd (by simp [hinto.2]) hevaluated.unmarked
    · obtain ⟨k', o', -, -, -, hd'⟩ := hmerged.into
      rw [(hrepeated.rejected j hj k').mpr ⟨_, hd'⟩]
      exact Option.some_ne_none _
  · intro hsome
    obtain ⟨k, hk⟩ := Option.ne_none_iff_exists'.mp hsome
    have hj : j < result.candidates.length := by
      by_contra hge
      rw [repeats, List.getElem?_eq_none (by omega)] at hk
      cases hk
    obtain ⟨o, ho⟩ := (hrepeated.rejected j (hlength ▸ hj) k).mp hk
    exact ⟨_, k, ho, duplicateResult_isMergedInto j o k⟩

/-- Near detection relaxes exact detection on two candidates: with one fingerprint they have one
signature, and if they would be duplicates in the same words they are merged in every run that
keeps the first of them, as soon as their words are close. -/
structure Relaxes (py : Runtime) (policy : PromotionPolicy) (request : DreamReasoningRequest)
    (a b : DreamCandidate) : Prop where
  signature : candidateFingerprint py (evidenceById request) a =
      candidateFingerprint py (evidenceById request) b →
    policy.nearDuplicateMinTokens ≤ (candidateTokens py a).card →
      candidateSignature py (evidenceById request) a =
        candidateSignature py (evidenceById request) b
  merged : Alike py (evidenceById request) a b → Close py policy a b →
    ∀ result final gate, DreamEvidenceGate.evaluate py policy request result = .ok (final, gate) →
      ∀ i j, i < j → result.candidates[i]? = some a → result.candidates[j]? = some b →
        ¬ gate.DuplicateAt i → gate.DuplicateAt j

/-- Near detection relaxes exact detection exactly on candidates that cite each partition equally
often, among those that one of the detectors is meant to find. -/
theorem relaxes_iff (policy : PromotionPolicy) (request : DreamReasoningRequest)
    (a b : DreamCandidate) : Relaxes py policy request a b ↔
      (Alike py (evidenceById request) a b →
        candidateFingerprint py (evidenceById request) a =
            candidateFingerprint py (evidenceById request) b ∧
          policy.nearDuplicateMinTokens ≤ (candidateTokens py a).card ∨ Close py policy a b →
        SamePartitions py (evidenceById request) a b) := by
  constructor
  · rintro hrelaxes halike (⟨hfingerprint, htokens⟩ | hclose)
    · exact (signature_eq_iff halike.mergeable).mp (hrelaxes.signature hfingerprint htokens)
    · -- the run of the two candidates alone
      have hrun := (@evaluate_eq_ok py policy request ⟨request.requestId, [a, b], []⟩ _ _).mpr
        ⟨rfl, rfl, rfl⟩
      have hfirst : ¬ DreamGateResult.DuplicateAt _ 0 := fun h =>
        (duplicateAt_iff hrun).mp h (repeats_first [a, b])
      have hmerged := hrelaxes.merged halike hclose _ _ _ hrun 0 1 one_pos rfl rfl hfirst
      rcases eq_of_repeats_pair ((duplicateAt_iff hrun).mp hmerged) with heq | heq
      · exact (signature_eq_iff halike.mergeable).mp (hrelaxes.signature heq hclose.tokens)
      · exact (signature_eq_iff halike.mergeable).mp heq
  · intro hsame
    constructor
    · intro hfingerprint htokens
      have halike := alike_of_fingerprint hfingerprint
      exact (signature_eq_iff halike.mergeable).mpr (hsame halike (.inl ⟨hfingerprint, htokens⟩))
    · intro halike hclose result final gate hrun i j hij ha hb hfirst
      have hsignature := (signature_eq_iff halike.mergeable).mpr (hsame halike (.inr hclose))
      rw [duplicateAt_iff hrun, not_not] at hfirst
      rw [duplicateAt_iff hrun]
      exact repeats_of_close ha hb hfirst hij hsignature hclose

/-! ### One item more -/

/-- A candidate that says something in five words. -/
def wordedCandidate (evidenceIds : List String) : DreamCandidate where
  entityName := "n"
  entityType := "fact"
  summary := ""
  content := "one two three four five"
  evidenceIds := evidenceIds
  confidence := .one
  classification := "new_knowledge"

/-- Two candidates in the same words, of which the second cites one item more of the same
partition: they have one fingerprint, and two signatures. -/
theorem one_item_more_is_no_near_duplicate :
    ¬ Relaxes Runtime.ascii {} (sampleRequest [sampleEvidence "e1", sampleEvidence "e2"])
      (wordedCandidate ["e1"]) (wordedCandidate ["e1", "e2"]) := by
  intro hrelaxes
  have hsignature := hrelaxes.signature (by decide +kernel) (by decide +kernel)
  exact absurd hsignature (by decide +kernel)

end CyberBrain.Dreaming
