import CyberBrain.Lifecycle.Service

/-!
# Hysteresis

A record is suppressed on its score alone, and a suppressed one is reactivated on its score or on
its salience. The thresholds lie apart, but they do not compare the same numbers: a record of low
score and high salience goes back and forth.
-/

namespace CyberBrain.Lifecycle

open Python Schemas

/-- The same signals about a record in a state. -/
def LifecycleSignals.inState (s : LifecycleSignals) (state : LifecycleState) : LifecycleSignals :=
  { s with lifecycleState := state }

section Hysteresis

variable (p : LifecyclePolicy) (m : Logarithm) (s : LifecycleSignals)

/-- The evaluation of a record in a state ends with a kind of decision. -/
def Decided (state : LifecycleState) (kind : LifecycleDecisionKind) : Prop :=
  ∃ d, p.evaluate m (s.inState state) = .ok d ∧ d.decision = kind

/-- What suppresses an active record does not reactivate the suppressed one, and what reactivates a
suppressed record does not suppress the active one. -/
def Steady : Prop :=
  (Decided p m s .active .suppress → ¬ Decided p m s .suppressed .reactivate) ∧
    (Decided p m s .suppressed .reactivate → ¬ Decided p m s .active .suppress)

/-- The salience of an unprotected record is at the reactivation threshold or above, and its score
is below the suppression threshold. -/
structure Torn : Prop where
  not_kept : s.retentionDirective ≠ .keep
  not_relevant : ¬ s.explicitRelevance
  resolved : ¬ s.unresolved
  salient : p.reactivationThreshold ≤ .finite s.salienceScore.val
  low : ∃ score, p.score m s = .ok score ∧ score < p.suppressionThreshold

variable {p m s} {score : Double} {state : LifecycleState} {kind : LifecycleDecisionKind}

/-- The score does not depend on the state. -/
lemma score_inState : p.score m (s.inState state) = p.score m s := rfl

lemma decided_iff (hkeep : s.retentionDirective ≠ .keep) : Decided p m s state kind ↔
    ∃ score, p.score m s = .ok score ∧
      ∃ d, p.decideScored (s.inState state) score = .ok d ∧ d.decision = kind := by
  have hkeep' : (s.inState state).retentionDirective ≠ .keep := hkeep
  unfold Decided LifecyclePolicy.evaluate
  rw [if_neg hkeep', score_inState]
  constructor
  · rintro ⟨d, h, hkind⟩
    obtain ⟨score, hscore, hd⟩ := bind_eq_ok.mp h
    exact ⟨score, hscore, d, hd, hkind⟩
  · rintro ⟨score, hscore, d, hd, hkind⟩
    exact ⟨d, bind_eq_ok.mpr ⟨score, hscore, hd⟩, hkind⟩

/-- A decision on the directive keeps or reactivates. -/
lemma not_decided_suppress (hkeep : s.retentionDirective = .keep) :
    ¬ Decided p m s .active .suppress := by
  rintro ⟨d, h, hkind⟩
  have hkeep' : (s.inState .active).retentionDirective = .keep := hkeep
  rw [LifecyclePolicy.evaluate, if_pos hkeep'] at h
  rw [LifecycleDecision.make_decision h] at hkind
  cases hkind

/-- A score and a code make a decision of the kind. -/
lemma exists_make_kind {id : String} {reasons : List LifecycleReasonCode} (hscore : InUnit score)
    (hreasons : reasons ≠ []) : ∃ d,
      LifecycleDecision.make id kind score reasons.eraseDups = .ok d ∧ d.decision = kind := by
  have hne := (not_congr eraseDups_eq_nil).mpr hreasons
  obtain ⟨d, h⟩ := (LifecycleDecision.exists_make hscore (nodup_eraseDups _)).mpr hne
  exact ⟨d, h, LifecycleDecision.make_decision h⟩

lemma not_make_kind {id : String} {kind' : LifecycleDecisionKind}
    {reasons : List LifecycleReasonCode} (hne : kind' ≠ kind) :
    ¬ ∃ d, LifecycleDecision.make id kind' score reasons = .ok d ∧ d.decision = kind := by
  rintro ⟨d, h, hkind⟩
  exact hne ((LifecycleDecision.make_decision h).symm.trans hkind)

/-- When an active record is suppressed. -/
lemma decideScored_suppress (hactive : s.lifecycleState ≠ .suppressed) (hscore : InUnit score) :
    (∃ d, p.decideScored s score = .ok d ∧ d.decision = .suppress) ↔
      ¬ (s.explicitRelevance ∨ s.unresolved) ∧ score < p.suppressionThreshold := by
  unfold LifecyclePolicy.decideScored
  dsimp only
  rw [if_neg hactive]
  by_cases hprotected : s.explicitRelevance ∨ s.unresolved
  · rw [if_pos hprotected]
    exact iff_of_false (not_make_kind (by decide)) fun h => h.1 hprotected
  · rw [if_neg hprotected]
    by_cases hlow : score < p.suppressionThreshold
    · rw [if_pos hlow]
      exact iff_of_true (exists_make_kind hscore (by simp)) ⟨hprotected, hlow⟩
    · rw [if_neg hlow]
      exact iff_of_false (not_make_kind (by decide)) fun h => hlow h.2

/-- When a suppressed record is reactivated. -/
lemma decideScored_reactivate (hsuppressed : s.lifecycleState = .suppressed)
    (hscore : InUnit score) :
    (∃ d, p.decideScored s score = .ok d ∧ d.decision = .reactivate) ↔
      s.explicitRelevance ∨ s.unresolved ∨
        p.reactivationThreshold ≤ .finite s.salienceScore.val ∨
        p.reactivationThreshold ≤ score := by
  unfold LifecyclePolicy.decideScored
  dsimp only
  rw [if_pos hsuppressed]
  by_cases hreact : s.explicitRelevance ∨ s.unresolved ∨
      p.reactivationThreshold ≤ .finite s.salienceScore.val ∨ p.reactivationThreshold ≤ score
  · rw [if_pos hreact]
    exact iff_of_true (exists_make_kind hscore (by simp)) hreact
  · rw [if_neg hreact]
    exact iff_of_false (not_make_kind (by decide)) hreact

@[simp] lemma lifecycleState_inState : (s.inState state).lifecycleState = state := rfl

lemma active_ne_suppressed : (s.inState .active).lifecycleState ≠ .suppressed := by simp

/-- A record is suppressed and reactivated on the same signals exactly when they are torn. -/
lemma decided_both_iff :
    Decided p m s .active .suppress ∧ Decided p m s .suppressed .reactivate ↔ Torn p m s := by
  by_cases hkeep : s.retentionDirective = .keep
  · exact iff_of_false (fun h => not_decided_suppress hkeep h.1) fun h => h.not_kept hkeep
  rw [decided_iff hkeep, decided_iff hkeep]
  constructor
  · rintro ⟨⟨score, hscore, hsuppress⟩, score', hscore', hreactivate⟩
    obtain rfl := Except.ok.inj (hscore.symm.trans hscore')
    have hunit := score_inUnit hscore
    obtain ⟨hprotected, hlow⟩ :=
      (decideScored_suppress active_ne_suppressed hunit).mp hsuppress
    rw [not_or] at hprotected
    rcases (decideScored_reactivate lifecycleState_inState hunit).mp hreactivate with h | h | h | h
    · exact absurd h hprotected.1
    · exact absurd h hprotected.2
    · exact ⟨hkeep, hprotected.1, hprotected.2, h, score, hscore, hlow⟩
    · -- the score is not on both sides of the thresholds
      have hbetween := Double.le_trans_lt h hlow
      exact absurd (Double.lt_trans hbetween p.thresholds.2.1) (Double.lt_irrefl _)
  · rintro ⟨-, hrelevant, hresolved, hsalient, score, hscore, hlow⟩
    have hunit := score_inUnit hscore
    have hsuppress := (decideScored_suppress active_ne_suppressed hunit).mpr
      ⟨not_or.mpr ⟨hrelevant, hresolved⟩, hlow⟩
    have hreactivate := (decideScored_reactivate lifecycleState_inState hunit).mpr (.inr (.inr (.inl hsalient)))
    exact ⟨⟨score, hscore, hsuppress⟩, score, hscore, hreactivate⟩

end Hysteresis

/-- Lifecycle decisions do not oscillate, unless the signals are torn between salience and score. -/
theorem steady_iff (p : LifecyclePolicy) (m : Logarithm) (s : LifecycleSignals) :
    Steady p m s ↔ ¬ Torn p m s := by
  rw [← decided_both_iff, not_and]
  exact ⟨fun h => h.1, fun h => ⟨h, fun hreactivate hsuppress => h hsuppress hreactivate⟩⟩

section Sample

lemma highSalience_mem : 0 ≤ (double 0.7).value ∧ (double 0.7).value ≤ 1 := by decide +kernel

lemma oldAge_nonneg : 0 ≤ (double 360).value := by decide +kernel

lemma noAccess_nonneg (d : Binary64) (h : d ∈ (none : Option Binary64)) : 0 ≤ d.value := by
  cases h

/-- An old record that is salient and was never read. -/
def oldAndSalient : LifecycleSignals where
  lifecycleState := .active
  retentionDirective := .default
  recordId := "record"
  ageDays := double 360
  accessCount := 0
  daysSinceLastAccess := none
  salienceScore := ⟨double 0.7, highSalience_mem⟩
  storagePressure := ⟨.zero, Binary64.value_zero_mem⟩
  recordId_ne_empty := sampleId_ne_empty
  age_nonneg := oldAge_nonneg
  lastAccess_nonneg := noAccess_nonneg

/-- It is suppressed and reactivated in turn. -/
theorem oldAndSalient_oscillates :
    ¬ Steady LifecyclePolicy.default sampleLogarithm oldAndSalient := by
  have hsuppress : ((LifecyclePolicy.default.evaluate sampleLogarithm
      (oldAndSalient.inState .active)).toOption.map (·.decision)) = some .suppress := by
    decide +kernel
  have hreactivate : ((LifecyclePolicy.default.evaluate sampleLogarithm
      (oldAndSalient.inState .suppressed)).toOption.map (·.decision)) = some .reactivate := by
    decide +kernel
  obtain ⟨d, hd, hkind⟩ := Option.map_eq_some_iff.mp hsuppress
  obtain ⟨d', hd', hkind'⟩ := Option.map_eq_some_iff.mp hreactivate
  intro h
  exact h.1 ⟨d, toOption_eq_some.mp hd, hkind⟩ ⟨d', toOption_eq_some.mp hd', hkind'⟩

end Sample

end CyberBrain.Lifecycle
