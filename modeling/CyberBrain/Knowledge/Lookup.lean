import CyberBrain.Knowledge.Chain

/-!
# Lookups

The filters of the service together with its checks on what it reads find records of exactly one
canonical identity. How many of them a read shows is bounded by its limit.
-/

namespace CyberBrain.Knowledge

open Program Python Relations Schemas Tenancy Relation

variable {py : Runtime}

/-! ### What the filters accept -/

lemma accepts_labelConditions {r : KnowledgeRecord py} {labels : EntityLabels} :
    (labelConditions labels).accepts r.fields = true ↔ r.toEntityLabels = labels := by
  have hlabel : ∀ key value (stored : String), r.fields key = some (.str stored) →
      ((Condition.field (.matchValue key (.str value))).holds r.fields = true ↔ stored = value) := by
    intro key value stored h
    simp [Condition.holds, FieldCondition.holds_matchValue_str h]
  simp only [labelConditions, EntityLabels.items, List.map_cons, List.map_nil, Filter.accepts_cons,
    Filter.accepts_nil, Bool.and_eq_true, hlabel "domain" _ r.domain rfl,
    hlabel "topic" _ r.topic rfl, hlabel "entity_type" _ r.entityType rfl,
    hlabel "entity_name" _ r.entityName rfl, EntityLabels.ext_iff, and_true]

lemma holds_recordClass {r : KnowledgeRecord py} {c : KnowledgeRecordClass} :
    Condition.holds r.fields (if c = .knowledge then
      .should [.matchValue "record_class" (.str "knowledge"), .isEmpty "record_class"]
      else .field (.matchValue "record_class" (.str c.text))) = true ↔ r.recordClass = c := by
  have hfield : r.fields "record_class" = some (.str r.recordClass.text) := rfl
  have hempty : (FieldCondition.isEmpty "record_class").holds r.fields = false := by
    simp [FieldCondition.holds, hfield]
  split_ifs with h
  · subst h
    simp only [Condition.holds, List.any_cons, List.any_nil, hempty, Bool.or_false,
      FieldCondition.holds_matchValue_str hfield, decide_eq_true_eq, Scalar.str.injEq]
    exact KnowledgeRecordClass.text_injective.eq_iff (b := .knowledge)
  · simp [Condition.holds, FieldCondition.holds_matchValue_str hfield,
      KnowledgeRecordClass.text_injective.eq_iff]

lemma accepts_partitionConditions {r : KnowledgeRecord py} {p : Partition} :
    (partitionConditions p).accepts r.fields = true ↔ (subjectOf r).partition = p := by
  have hvalue : ∀ key stored wanted, r.fields key = some (Json.ofText? stored) →
      ((Condition.optionalText key wanted).holds r.fields = true ↔ stored = wanted) := by
    intro key stored wanted h
    rw [Condition.holds_optionalText h, decide_eq_true_eq]
  simp only [partitionConditions, IdentityValues.items, IdentityDimension.order, List.map_cons,
    List.map_nil, Filter.accepts_append, Filter.accepts_cons, Filter.accepts_nil, Bool.and_eq_true,
    holds_recordClass, and_true, subjectOf, Partition.ext_iff, and_assoc]
  rw [hvalue _ r.tenant _ rfl, hvalue _ r.user _ rfl, hvalue _ r.agent _ rfl,
    hvalue _ r.project _ rfl, hvalue _ r.sessionId _ rfl]
  rfl

lemma holds_statusCondition {r : KnowledgeRecord py} {status : KnowledgeStatus} :
    (statusCondition status).holds r.fields = true ↔ r.status = status := by
  have hfield : r.fields "status" = some (.str r.status.text) := rfl
  simp [statusCondition, Condition.holds, FieldCondition.holds_matchValue_str hfield,
    KnowledgeStatus.text_injective.eq_iff]

lemma holds_stateCondition {r : KnowledgeRecord py} (h : isPendingState r = true) :
    stateCondition.holds r.fields = true := by
  unfold isPendingState at h
  split at h
  · rename_i state hstate
    have hfield : r.fields "extensions._evolution_state" = some (.str state) := hstate
    simp only [stateCondition, Condition.holds, FieldCondition.holds_matchValue_str hfield]
    simpa using h
  · cases h

lemma identityOf_eq_iff {r : KnowledgeRecord py} {s : Subject} :
    identityOf r = s.identity ↔ r.toEntityLabels = s.toEntityLabels ∧
      sameContext r s.context = true ∧ samePartition r s.partition = true := by
  simp only [sameContext, samePartition, decide_eq_true_eq, Subject.identity, Identity.ext_iff,
    EntityLabels.ext_iff, and_assoc]
  rfl

lemma accepts_activeFilter {r : KnowledgeRecord py} {s : Subject} :
    (activeFilter s).accepts r.fields = true ↔ r.toEntityLabels = s.toEntityLabels ∧
      r.status = .active ∧ samePartition r s.partition = true := by
  simp only [activeFilter, Filter.accepts_append, Filter.accepts_cons, Bool.and_eq_true,
    accepts_labelConditions, holds_statusCondition, accepts_partitionConditions, samePartition,
    decide_eq_true_eq]

lemma accepts_pendingFilter {r : KnowledgeRecord py} {s : Subject} :
    (pendingFilter s).accepts r.fields = true ↔ r.toEntityLabels = s.toEntityLabels ∧
      r.status = .deprecated ∧ stateCondition.holds r.fields = true ∧
        samePartition r s.partition = true := by
  simp only [pendingFilter, Filter.accepts_append, Filter.accepts_cons, Bool.and_eq_true,
    accepts_labelConditions, holds_statusCondition, accepts_partitionConditions, samePartition,
    decide_eq_true_eq]

/-! ### What the reads show -/

section Reads

variable {env : Environment py} {s : Subject} {points : Collection py} {r : KnowledgeRecord py}

lemma mem_pendingPoints (hlawful : env.repository.Lawful) (h : r ∈ pendingPoints env s points) :
    r ∈ points.rows ∧ Pending r ∧ identityOf r = s.identity := by
  obtain ⟨hread, hmatch⟩ := List.mem_filter.mp h
  obtain ⟨hmem, haccepts⟩ := (hlawful.scroll points (pendingFilter s) 20).mem r hread
  obtain ⟨hlabels, hstatus, -, hpartition⟩ := accepts_pendingFilter.mp haccepts
  simp only [Bool.and_eq_true] at hmatch
  exact ⟨hmem, ⟨hstatus, hmatch.1.2⟩, identityOf_eq_iff.mpr ⟨hlabels, hmatch.1.1, hpartition⟩⟩

/-- The bounded scroll misses no pending record of the entity. -/
def ScanComplete (env : Environment py) (s : Subject) (points : Collection py) : Prop :=
  ∀ r ∈ points.rows, Pending r → identityOf r = s.identity →
    r ∈ env.repository.scroll points (pendingFilter s) 20

lemma mem_pendingPoints_of_complete (h : ScanComplete env s points) (hr : r ∈ points.rows)
    (hpending : Pending r) (hidentity : identityOf r = s.identity) :
    r ∈ pendingPoints env s points := by
  obtain ⟨-, hcontext, hpartition⟩ := identityOf_eq_iff.mp hidentity
  exact List.mem_filter.mpr ⟨h r hr hpending hidentity, by
    simp [hcontext, hpartition, hpending.2]⟩

/-- It shows all of them when at most 20 records share the labels, the partition and the state. -/
lemma scanComplete_of_few (hlawful : env.repository.Lawful)
    (hfew : points.rows.countP (fun r => (pendingFilter s).accepts r.fields) ≤ 20) :
    ScanComplete env s points := by
  intro r hr hpending hidentity
  obtain ⟨hlabels, -, hpartition⟩ := identityOf_eq_iff.mp hidentity
  exact (hlawful.scroll points _ 20).complete hfew hr
    (accepts_pendingFilter.mpr ⟨hlabels, hpending.1, holds_stateCondition hpending.2, hpartition⟩)

variable {call : StoreCall py} {p : Prepared py} {vector : List Binary64}

lemma mem_activePoints (hlawful : call.repository.Lawful)
    (h : r ∈ activePoints call p vector points) :
    r ∈ points.rows ∧ r.status = .active ∧ identityOf r = p.subject.identity := by
  obtain ⟨hread, hmatch⟩ := List.mem_filter.mp h
  obtain ⟨hmem, haccepts⟩ := (hlawful.search points vector 10 (activeFilter p.subject)).mem r hread
  obtain ⟨hlabels, hstatus, hpartition⟩ := accepts_activeFilter.mp haccepts
  simp only [Bool.and_eq_true] at hmatch
  exact ⟨hmem, hstatus, identityOf_eq_iff.mpr ⟨hlabels, hmatch.1, hpartition⟩⟩

/-- The bounded search misses no active record of the entity. -/
def LookComplete (call : StoreCall py) (p : Prepared py) (vector : List Binary64)
    (points : Collection py) : Prop :=
  ∀ r ∈ points.rows, r.status = .active → identityOf r = p.subject.identity →
    r ∈ call.repository.search points vector 10 (activeFilter p.subject)

lemma mem_activePoints_of_complete (h : LookComplete call p vector points) (hr : r ∈ points.rows)
    (hactive : r.status = .active) (hidentity : identityOf r = p.subject.identity) :
    r ∈ activePoints call p vector points := by
  obtain ⟨-, hcontext, hpartition⟩ := identityOf_eq_iff.mp hidentity
  exact List.mem_filter.mpr ⟨h r hr hactive hidentity, by simp [hcontext, hpartition]⟩

/-- It shows all of them when at most 10 active records share the labels and the partition. -/
lemma lookComplete_of_few (hlawful : call.repository.Lawful)
    (hfew : points.rows.countP (fun r => (activeFilter p.subject).accepts r.fields) ≤ 10) :
    LookComplete call p vector points := by
  intro r hr hactive hidentity
  obtain ⟨hlabels, -, hpartition⟩ := identityOf_eq_iff.mp hidentity
  exact (hlawful.search points vector 10 (activeFilter p.subject)).complete hfew hr
    (accepts_activeFilter.mpr ⟨hlabels, hactive, hpartition⟩)

end Reads

end CyberBrain.Knowledge
