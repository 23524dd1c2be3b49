import CyberBrain.Knowledge.Histories

/-!
# Reconciliation

`reconcile_pending` groups the pending records by the key of their stripped and lower-cased labels,
and recovers each by its stripped labels. It is complete when these agree with the labels that are
stored, and when no scroll of a single recovery has to leave a record out.
-/

namespace CyberBrain.Knowledge

open Program Python Relations Schemas Tenancy Relation

variable {py : Runtime}

/-- The pending records are told apart by their stripped and lower-cased labels, which are not
blank, are found by their stripped labels and fit into the scrolls that look for them. -/
structure Reconcilable (s : Collection py) : Prop where
  stripped : ∀ r ∈ s.rows, Pending r → ∀ kv ∈ r.items, strip kv.2 = kv.2 ∧ kv.2 ≠ ""
  keys : ∀ r ∈ s.rows, ∀ r' ∈ s.rows, Pending r → Pending r' →
    identityKey py (subjectOf r) = identityKey py (subjectOf r') → r = r'
  few : ∀ r ∈ s.rows, Pending r →
    s.rows.countP (fun q => (pendingFilter (subjectOf r)).accepts q.fields) ≤ 20

section Reads

variable {env : Environment py} {s : Collection py} {maxPending : ℕ}

/-- In a chain, what is not committed is pending. -/
lemma Chain.pending (h : Chain s) {r : KnowledgeRecord py} (hr : r ∈ s.rows)
    (hstatus : r.status = .deprecated) : Pending r := by
  have hcommitted : ¬ Committed r := by
    rintro (hactive | hsuperseded)
    · exact absurd (hstatus.symm.trans hactive) (by decide)
    · exact absurd (hstatus.symm.trans hsuperseded) (by decide)
  obtain ⟨id, hstaged⟩ := h.staged r hr hcommitted
  exact hstaged.pending

lemma accepts_allPendingFilter {r : KnowledgeRecord py} :
    allPendingFilter.accepts r.fields = true ↔
      r.status = .deprecated ∧ stateCondition.holds r.fields = true := by
  simp only [allPendingFilter, Filter.accepts_cons, Filter.accepts_nil, Bool.and_eq_true, and_true,
    holds_statusCondition]

/-- The global scroll shows exactly the pending records. -/
lemma mem_allPending (hlawful : env.repository.Lawful) (h : Chain s)
    (hmax : s.rows.countP (fun r => Pending r) ≤ maxPending) {r : KnowledgeRecord py} :
    r ∈ allPending env maxPending s ↔ r ∈ s.rows ∧ Pending r := by
  have hanswers := hlawful.scroll s allPendingFilter (maxPending + 1)
  constructor
  · intro hr
    obtain ⟨hread, hmatch⟩ := List.mem_filter.mp hr
    rw [Bool.and_eq_true, decide_eq_true_eq] at hmatch
    exact ⟨(hanswers.mem r hread).1, hmatch⟩
  · rintro ⟨hr, hpending⟩
    have hfew : s.rows.countP (fun r => allPendingFilter.accepts r.fields) ≤ maxPending + 1 := by
      refine (List.countP_mono_left fun q hq haccepts => ?_).trans (hmax.trans (by omega))
      exact decide_eq_true (h.pending hq (accepts_allPendingFilter.mp haccepts).1)
    have hread := hanswers.complete hfew hr
      (accepts_allPendingFilter.mpr ⟨hpending.1, holds_stateCondition hpending.2⟩)
    exact List.mem_filter.mpr ⟨hread, by simp [hpending.1, hpending.2]⟩

lemma nodup_allPending (hlawful : env.repository.Lawful) : (allPending env maxPending s).Nodup :=
  (hlawful.scroll s allPendingFilter (maxPending + 1)).nodup.filter _

end Reads

section Grouping

/-- Records whose labels are not blank and whose keys differ are all grouped. -/
lemma groupPending_eq_ok {records : List (KnowledgeRecord py)} {keys : List String}
    (hblank : ∀ r ∈ records, ∀ kv ∈ (strippedSubject r).items, kv.2 ≠ "")
    (hfresh : ∀ r ∈ records, identityKey py (strippedSubject r) ∉ keys)
    (hkeys : (records.map fun r => identityKey py (strippedSubject r)).Nodup) :
    groupPending keys records = .ok (records.map strippedSubject) := by
  induction records generalizing keys with
  | nil => rfl
  | cons r rs ih =>
    obtain ⟨hr, hrs⟩ := List.nodup_cons.mp hkeys
    have hrest := @ih (identityKey py (strippedSubject r) :: keys)
      (fun q hq => hblank q (List.mem_cons_of_mem r hq))
      (fun q hq hmem => ?_) hrs
    · exact bind_eq_ok.mpr ⟨(), require_eq_ok.mpr (hblank r List.mem_cons_self), bind_eq_ok.mpr ⟨(),
        require_eq_ok.mpr (hfresh r List.mem_cons_self), bind_eq_ok.mpr ⟨_, hrest, rfl⟩⟩⟩
    · rcases List.mem_cons.mp hmem with heq | hmem
      · exact hr (List.mem_map.mpr ⟨q, hq, heq⟩)
      · exact hfresh q (List.mem_cons_of_mem r hq) hmem

lemma strippedSubject_eq {r : KnowledgeRecord py} (h : ∀ kv ∈ r.items, strip kv.2 = kv.2) :
    strippedSubject r = subjectOf r := by
  have hlabel : ∀ key value, (key, value) ∈ r.items → strip value = value := fun key value => h _
  simp only [strippedSubject, hlabel "domain" r.domain (by simp [EntityLabels.items]),
    hlabel "topic" r.topic (by simp [EntityLabels.items]),
    hlabel "entity_type" r.entityType (by simp [EntityLabels.items]),
    hlabel "entity_name" r.entityName (by simp [EntityLabels.items])]
  rfl

end Grouping

section Loop

variable {env : Environment py} {s : Collection py}

/-- What is left to do: the entities of the pending records that were not recovered yet. -/
structure Remaining (s : Collection py) (rest : List Subject) (t : Collection py) : Prop where
  chain : Chain t
  recoverable : Recoverable t
  nodup : rest.Nodup
  sources : ∀ subject ∈ rest, ∃ r ∈ s.rows, Pending r ∧ subjectOf r = subject
  pending : ∀ q, q ∈ t.rows ∧ Pending q ↔ q ∈ s.rows ∧ Pending q ∧ subjectOf q ∈ rest

/-- The scroll of a single recovery shows all it has to: no more records wait than at the start. -/
lemma Remaining.scanComplete (hlawful : env.repository.Lawful) (hs : Reconcilable s)
    {subject : Subject} {rest : List Subject} {t : Collection py}
    (h : Remaining s (subject :: rest) t) : ScanComplete env subject t := by
  obtain ⟨r, hr, hpending, rfl⟩ := h.sources subject List.mem_cons_self
  refine scanComplete_of_few hlawful (le_trans ?_ (hs.few r hr hpending))
  simp only [List.countP_eq_length_filter]
  refine (List.Nodup.subperm (t.nodup_rows.filter _) fun q hq => ?_).length_le
  obtain ⟨hq, haccepts⟩ := List.mem_filter.mp hq
  have hpending := h.chain.pending hq (accepts_pendingFilter.mp haccepts).2.1
  exact List.mem_filter.mpr ⟨((h.pending q).mp ⟨hq, hpending⟩).1, haccepts⟩

/-- One recovery takes its entity off the list. -/
lemma Remaining.recovered (hlawful : env.repository.Lawful) (hrec : Recoverable s)
    (hs : Reconcilable s) {subject : Subject} {rest : List Subject} {t u : Collection py}
    (h : Remaining s (subject :: rest) t) (hrecovered : Recovered env subject t u) :
    Remaining s rest u := by
  obtain ⟨hsubject, hrest⟩ := List.nodup_cons.mp h.nodup
  obtain ⟨r, hr, hpending, rfl⟩ := h.sources subject List.mem_cons_self
  have hchanges := hrecovered.changes (k := ⟨True, True⟩) hlawful h.chain
  refine ⟨h.chain.changes hchanges, h.recoverable.changes h.chain hchanges trivial, hrest,
    fun subject hmem => h.sources subject (List.mem_cons_of_mem _ hmem), fun q => ?_⟩
  rw [hrecovered.pending hlawful h.chain (h.scanComplete hlawful hs) q, ← and_assoc, h.pending q,
    and_assoc, and_assoc]
  refine and_congr_right fun hq => and_congr_right fun hqpending => ?_
  constructor
  · rintro ⟨hmem, hne⟩
    exact (List.mem_cons.mp hmem).resolve_left fun heq => hne (congrArg Subject.identity heq)
  · refine fun hmem => ⟨List.mem_cons_of_mem _ hmem, fun hidentity => ?_⟩
    rw [hrec.unique q hq r hr hqpending hpending hidentity] at hmem
    exact hsubject hmem

/-- The loop over the entities of the pending records. -/
lemma recoverAll_triple (hlawful : env.repository.Lawful) (hfaultless : ∀ n, env.fate n = .applied)
    (hrec : Recoverable s) (hs : Reconcilable s) {subjects : List Subject}
    (hstart : Remaining s subjects s) :
    Triple (fun u => u.points = s) (forEach (recoverPending env) subjects)
      (fun _ u => Remaining s [] u.points) fun _ _ => False := by
  refine (Triple.forEach (fun _ rest (u : CallState py) => Remaining s rest u.points)
    (fun _ subject rest => Triple.of_forall fun u hu => ?_) subjects).pre fun u hu => hu ▸ hstart
  refine ((recoverPending_triple (k := ⟨True, True⟩) hlawful hu.chain subject).pre
    fun v (hv : v = u) => congrArg CallState.points hv).post ?_ ?_
  · exact fun _ v hv => hu.recovered hlawful hrec hs hv
  · rintro e v ⟨-, he⟩
    obtain ⟨-, n, hn⟩ := he hu.recoverable
    exact hn (hfaultless n)

end Loop

section Complete

variable {env : Environment py} {s : Collection py} {maxPending : ℕ}

lemma length_allPending (hlawful : env.repository.Lawful) (h : Chain s)
    (hmax : s.rows.countP (fun r => Pending r) ≤ maxPending) :
    (allPending env maxPending s).length ≤ maxPending := by
  refine le_trans ?_ hmax
  rw [List.countP_eq_length_filter]
  refine ((nodup_allPending hlawful).subperm fun r hr => List.mem_filter.mpr ?_).length_le
  obtain ⟨hrs, hpending⟩ := (mem_allPending hlawful h hmax).mp hr
  exact ⟨hrs, decide_eq_true hpending⟩

/-- All pending records are grouped under the entities that they are stored under. -/
lemma groupPending_allPending (hlawful : env.repository.Lawful) (h : Chain s)
    (hmax : s.rows.countP (fun r => Pending r) ≤ maxPending) (hs : Reconcilable s) :
    groupPending [] (allPending env maxPending s) =
      .ok ((allPending env maxPending s).map subjectOf) := by
  have hmem : ∀ r ∈ allPending env maxPending s, r ∈ s.rows ∧ Pending r :=
    fun r => (mem_allPending hlawful h hmax).mp
  have hstripped : ∀ r ∈ allPending env maxPending s, strippedSubject r = subjectOf r :=
    fun r hr => strippedSubject_eq fun kv hkv =>
      (hs.stripped r (hmem r hr).1 (hmem r hr).2 kv hkv).1
  rw [groupPending_eq_ok, List.map_congr_left hstripped]
  · intro r hr kv hkv
    rw [hstripped r hr] at hkv
    exact (hs.stripped r (hmem r hr).1 (hmem r hr).2 kv hkv).2
  · simp
  · refine (List.nodup_map_iff_inj_on (nodup_allPending hlawful)).mpr fun r hr r' hr' hkey => ?_
    rw [hstripped r hr, hstripped r' hr'] at hkey
    exact hs.keys r (hmem r hr).1 r' (hmem r' hr').1 (hmem r hr).2 (hmem r' hr').2 hkey

lemma Remaining.start (hlawful : env.repository.Lawful) (h : Chain s) (hrec : Recoverable s)
    (hmax : s.rows.countP (fun r => Pending r) ≤ maxPending) :
    Remaining s ((allPending env maxPending s).map subjectOf) s := by
  have hmem : ∀ r, r ∈ allPending env maxPending s ↔ r ∈ s.rows ∧ Pending r :=
    fun r => mem_allPending hlawful h hmax
  refine ⟨h, hrec, (List.nodup_map_iff_inj_on (nodup_allPending hlawful)).mpr
    fun r hr r' hr' heq => ?_, fun subject hsubject => ?_, fun q => ?_⟩
  · obtain ⟨hr, hpending⟩ := (hmem r).mp hr
    obtain ⟨hr', hpending'⟩ := (hmem r').mp hr'
    exact hrec.unique r hr r' hr' hpending hpending' (congrArg Subject.identity heq)
  · obtain ⟨r, hr, rfl⟩ := List.mem_map.mp hsubject
    exact ⟨r, ((hmem r).mp hr).1, ((hmem r).mp hr).2, rfl⟩
  · exact ⟨fun hq => ⟨hq.1, hq.2, List.mem_map_of_mem ((hmem q).mpr hq)⟩, fun hq => ⟨hq.1, hq.2.1⟩⟩

end Complete

/-- In a run in which no pending scroll of a call of `store` misses a record of the call's entity, a
reconciliation without faults completes every evolution that is pending, when the labels of the
pending records are their own stripped forms and tell them apart after lower-casing, and at most 20
of them share the labels and the partition. -/
theorem reconcile_completes {s : Collection py} (h : Reachable (fun s c => c.Scans s) s)
    {bound : Option (CallerAuthority py)} {env : Environment py} {maxPending : ℤ}
    (hlawful : env.repository.Lawful) (hfaultless : ∀ n, env.fate n = .applied)
    (hunscoped : ∀ caller ∈ bound, caller.grant.scope.asDict = []) (hpositive : 1 ≤ maxPending)
    (hmax : s.rows.countP (fun r => Pending r) ≤ maxPending) (hs : Reconcilable s) :
    ∃ n u, reconcilePending bound env maxPending { points := s } = (.ok n, u) ∧
      ∀ q ∈ u.points.rows, ¬ Pending q := by
  have hchain := h.chain
  have hrec : Recoverable s := h.recoverable fun _ _ h => h
  have hmax' : s.rows.countP (fun r => Pending r) ≤ maxPending.toNat := by omega
  have htriple : Triple (fun u => u.points = s) (reconcilePending bound env maxPending)
      (fun _ u => ∀ q ∈ u.points.rows, ¬ Pending q) fun _ _ => False := by
    unfold reconcilePending
    rw [(require_eq_ok (u := ())).mpr hunscoped, (require_eq_ok (u := ())).mpr hpositive]
    simp only [ofExcept_ok_bind]
    refine points_bind ?_
    rw [(require_eq_ok (u := ())).mpr (length_allPending hlawful hchain hmax'),
      groupPending_allPending hlawful hchain hmax' hs]
    simp only [ofExcept_ok_bind]
    refine Triple.bind _ (recoverAll_triple hlawful hfaultless hrec hs
      (Remaining.start hlawful hchain hrec hmax')) fun _ => Triple.pure fun u hu q hq hpending => ?_
    exact List.not_mem_nil ((hu.pending q).mp ⟨hq, hpending⟩).2.2
  exact htriple.returns rfl

/-- What reconciles the collections of the runs below. -/
def sampleEnvironment : Environment Runtime.ascii where
  repository := .stored _
  clock := fun _ => .ofMicros 0

theorem reconcile_completes_staged : ∃ n u, reconcilePending none sampleEnvironment 1
    { points := runAll (Table.empty _) stagedVersion } = (.ok n, u) ∧
      ∀ q ∈ u.points.rows, ¬ Pending q := by
  have hrun : Reachable (fun s c => c.Scans s ∧ c.Looks s) (runAll (Table.empty _) stagedVersion) :=
    reachable_of_uncrowded (samples_lawful _) (by decide +kernel)
  have hone : ∀ r ∈ (runAll (Table.empty _) stagedVersion).rows,
      ∀ r' ∈ (runAll (Table.empty _) stagedVersion).rows, Pending r → Pending r' → r.id = r'.id := by
    decide +kernel
  exact reconcile_completes (hrun.mono fun _ _ h => h.1) Repository.stored_lawful (fun _ => rfl)
    (by simp) (by decide) (by decide +kernel)
    ⟨by decide +kernel,
      fun r hr r' hr' hp hp' _ => Table.eq_of_key_eq hr hr' (hone r hr r' hr' hp hp'),
      by decide +kernel⟩

/-- A call whose domain starts with a blank. -/
def paddedCall (content : String) (id applied : ℕ) : Call Runtime.ascii :=
  let call := sampleCall .ascii 0 content id applied
  .store sampleService { call with args := { call.args with domain := " d" } }

/-- A version whose domain starts with a blank, and a next version that was only staged. -/
def paddedVersions : List (Call Runtime.ascii) := [paddedCall "a" 1 9, paddedCall "b" 2 1]

/-- The reconciliation returns and leaves a record pending. -/
def staysPending (env : Environment py) (maxPending : ℤ) (s : Collection py) : Bool :=
  match reconcilePending none env maxPending { points := s } with
  | (.ok _, u)    => u.points.rows.any fun q => Pending q
  | (.error _, _) => false

/-- A reconciliation looks for the stripped domain, which is not the one that is stored. -/
theorem reconcile_leaves_pending :
    Reachable (fun _ _ => True) (runAll (Table.empty _) paddedVersions) ∧
      (runAll (Table.empty _) paddedVersions).rows.countP (fun r => Pending r) ≤ 1 ∧
      staysPending sampleEnvironment 1 (runAll (Table.empty _) paddedVersions) = true := by
  have hlawful : ∀ c ∈ paddedVersions, c.repository.Lawful :=
    List.forall_mem_cons.mpr ⟨Repository.stored_lawful, List.forall_mem_cons.mpr
      ⟨Repository.stored_lawful, List.forall_mem_nil _⟩⟩
  have hrun := Reachable.runAll (P := fun _ _ => True) (f := fun _ _ => true)
    (g := fun s => s.rows.countP (fun r => Pending r) ≤ 1 && staysPending sampleEnvironment 1 s)
    (fun _ _ _ _ _ => trivial) .refl hlawful (by decide +kernel)
  simp only [Bool.and_eq_true, decide_eq_true_eq] at hrun
  exact hrun

end CyberBrain.Knowledge
