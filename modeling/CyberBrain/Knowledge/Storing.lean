import CyberBrain.Knowledge.Conflicts
import CyberBrain.Knowledge.Heads

/-!
# Storing a version

What a call of `store` does to the collection, whether it returns or is aborted on the way.
-/

namespace CyberBrain.Knowledge

open Program Python Relations Schemas Tenancy Relation

variable {py : Runtime}

section Evolve

variable {service : Service} {call : StoreCall py} {p : Prepared py} {k : Knows}
  {s t : Collection py} {previous : Option (KnowledgeRecord py)}

/-- The records that a call may write after `previous`. -/
def Writes (service : Service) (call : StoreCall py) (p : Prepared py)
    (previous : Option (KnowledgeRecord py)) (r : KnowledgeRecord py) : Prop :=
  ∃ base confidence now, baseExtensions p = .ok base ∧
    r = buildRecord service call p previous base confidence now

lemma Writes.identity {r : KnowledgeRecord py} (h : Writes service call p previous r) :
    identityOf r = p.subject.identity := by
  obtain ⟨base, confidence, now, -, rfl⟩ := h
  rfl

lemma Writes.id {r : KnowledgeRecord py} (h : Writes service call p previous r) :
    r.id = call.newId := by
  obtain ⟨base, confidence, now, -, rfl⟩ := h
  rfl

lemma Writes.staged {r q : KnowledgeRecord py} (h : Writes service call p (some q) r) :
    Staged r q.id := by
  obtain ⟨base, confidence, now, -, rfl⟩ := h
  exact ⟨⟨rfl, rfl⟩, rfl, rfl, rfl⟩

/-- The call has decided to write after `previous`: it may change the relations as far as it does,
and it does not repeat the previous content as it was. -/
structure Decided (call : StoreCall py) (p : Prepared py) (previous : Option (KnowledgeRecord py)) :
    Prop where
  reviewed : checkReview call p previous = .ok ()
  changes : ¬ (sameContent p previous = true ∧ relationsChanged call p previous = false ∧
    call.args.forceEvolution = false)

/-- What a completed call did after its lookups: nothing, or it wrote a first version, or it wrote
the next version and brought it into its place. -/
inductive Stored (service : Service) (call : StoreCall py) (p : Prepared py) (t : Collection py) :
    Option (KnowledgeRecord py) → Collection py → Prop
  | unchanged (q : KnowledgeRecord py) : Stored service call p t (some q) t
  | first (r : KnowledgeRecord py) (h : Writes service call p none r) :
      Stored service call p t none (t.upsert r)
  | next (q r : KnowledgeRecord py) (h : Writes service call p (some q) r)
      (hdecided : Decided call p (some q)) (u : Collection py)
      (hrecovers : Recovers (t.upsert r) r u) : Stored service call p t (some q) u

/-- A new version may be written after `previous`: the id is new, and what the call knows of the
entity holds. -/
structure MayWrite (k : Knows) (call : StoreCall py) (p : Prepared py) (t : Collection py)
    (previous : Option (KnowledgeRecord py)) : Prop where
  chain : Chain t
  fresh : t.find? call.newId = none
  scanned : k.scanned → ∀ q ∈ t.rows, Pending q → identityOf q ≠ p.subject.identity
  looked : k.looked → previous = none →
    ∀ q ∈ t.rows, q.status = .active → identityOf q ≠ p.subject.identity
  previous : ∀ q, previous = some q →
    q ∈ t.rows ∧ q.status = .active ∧ identityOf q = p.subject.identity

lemma MayWrite.first (h : MayWrite k call p t none) {r : KnowledgeRecord py}
    (hr : Writes service call p none r) : Change k t (t.upsert r) := by
  have hidentity := hr.identity
  have hid := hr.id
  obtain ⟨base, confidence, now, -, rfl⟩ := hr
  refine .insert _ (hid ▸ h.fresh) rfl rfl rfl ?_ ?_
  · exact fun hk q hq hpending => hidentity ▸ h.scanned hk q hq hpending
  · exact fun hk q hq hactive => hidentity ▸ h.looked hk rfl q hq hactive

lemma MayWrite.next {q : KnowledgeRecord py} (h : MayWrite k call p t (some q))
    {r : KnowledgeRecord py} (hr : Writes service call p (some q) r) : Change k t (t.upsert r) := by
  obtain ⟨hq, hactive, hidentity⟩ := h.previous q rfl
  have hversion : r.version = q.version + 1 := by
    obtain ⟨base, confidence, now, -, rfl⟩ := hr
    rfl
  exact .stage r q (hr.id ▸ h.fresh) hr.staged hq hactive (hidentity.trans hr.identity.symm)
    hversion fun hk q' hq' hpending => hr.identity ▸ h.scanned hk q' hq' hpending

/-- The writes of a completed call are changes. -/
lemma Stored.changes (h : MayWrite k call p t previous) {u : Collection py}
    (hstored : Stored service call p t previous u) : Changes k t u := by
  cases hstored with
  | unchanged => exact .refl
  | first r hr => exact .single (h.first hr)
  | next q r hr _ u hrecovers =>
    have hstage := h.next hr
    exact (ReflTransGen.single hstage).trans (hrecovers.changes (h.chain.change hstage)
      ((Table.mem_upsert_of_fresh (hr.id ▸ h.fresh)).mpr (.inl rfl)))

/-- The commit of a staged version. -/
lemma commit_triple {q r : KnowledgeRecord py} (h : Chain s) (hr : r ∈ s.rows)
    (hstaged : Staged r q.id) (hq : q ∈ s.rows) (hactive : q.status = .active) :
    Triple (fun u => u.points = s) (commitStagedEvolution call.toEnvironment r q)
      (fun _ u => Recovers s r u.points)
      fun e u => Changes k s u.points ∧ NoConflict e := by
  have hprogram : commitStagedEvolution call.toEnvironment r q =
      (supersedePoint call.toEnvironment q.id r.id >>= fun _ =>
        activateStaged call.toEnvironment r) := by
    simp only [commitStagedEvolution, h.open_end q hq hactive, require, true_or, if_true,
      ofExcept_ok_bind]
  rw [hprogram]
  refine Triple.bind (fun _ u => Settled s r q u.points)
    ((supersedePoint_triple q.id r.id).post ?_ ?_) fun _ => Triple.of_forall fun u hu => ?_
  · rintro - u ⟨now, hu⟩
    exact hu ▸ .now now hactive
  · rintro e u ⟨hfails, hu | ⟨now, hu⟩⟩
    · exact ⟨hu ▸ .refl, hfails.noConflict⟩
    · exact ⟨hu ▸ .single (.supersede r q now hr hstaged hq hactive), hfails.noConflict⟩
  · refine ((activateStaged_triple (s := u.points) r).pre fun _ heq => congrArg _ heq).post ?_ ?_
    · rintro - v ⟨now, hv⟩
      exact ⟨q, hq, hstaged, u.points, now, hu, hv⟩
    · rintro e v ⟨hfails, hv | ⟨now, hv⟩⟩
      · exact ⟨hv ▸ hu.changes hr hstaged hq, hfails.noConflict⟩
      · exact ⟨hv ▸ (hu.changes hr hstaged hq).tail (hu.activate h hr hstaged hq now),
          hfails.noConflict⟩

lemma baseExtensions_raises : Raises NoConflict (baseExtensions p) := by
  unfold baseExtensions
  split_ifs
  · refine Raises.bind ?_ fun _ => .pure _
    unfold projectRelations
    split
    · split_ifs
      · exact .error nofun
      · exact .ok _
    · split_ifs
      · exact .error nofun
      · exact .ok _
  · exact .ok _

lemma checkConfidence_raises (confidence : Option Binary64) :
    Raises NoConflict (checkConfidence confidence) := by
  unfold checkConfidence
  split
  · exact .ok _
  · split_ifs
    · exact .ok _
    · exact .error nofun

lemma vector_raises (text : String) : Raises NoConflict (service.vector text) :=
  .mapError fun _ => nofun

/-- The writing of a new version. -/
lemma evolve_triple (h : MayWrite k call p t previous)
    (hdecided : ∀ q, previous = some q → Decided call p previous) :
    Triple (fun u => u.points = t) (evolve service call p previous)
      (fun _ u => Stored service call p t previous u.points)
      fun e u => Changes k t u.points ∧ NoConflict e := by
  have hstop : ∀ e, NoConflict e → ∀ u : CallState py, u.points = t →
      Changes k t u.points ∧ NoConflict e := fun e he u hu => ⟨hu ▸ .refl, he⟩
  unfold evolve
  refine Triple.reads_bind fun now => Triple.pre ?_ fun _ hu => hu.1
  refine Triple.ofExcept_bind (fun base hbase => ?_) fun e he =>
    hstop e (baseExtensions_raises e he)
  refine Triple.ofExcept_bind (fun confidence _ => ?_) fun e he =>
    hstop e (checkConfidence_raises _ e he)
  refine Triple.ofExcept_bind (fun _ _ => ?_) fun e he => hstop e (vector_raises _ e he)
  have hwrites : Writes service call p previous
      (buildRecord service call p previous base confidence now) := ⟨base, confidence, now, hbase, rfl⟩
  generalize buildRecord service call p previous base confidence now = r at hwrites ⊢
  refine Triple.bind (fun _ u => u.points = t.upsert r)
    ((write_triple fun _ points => Table.upsert points r).post ?_ ?_) fun _ => ?_
  · rintro - u ⟨-, hu⟩
    exact hu
  · rintro e u ⟨hfails, hu | ⟨-, hu⟩⟩
    · exact ⟨hu ▸ .refl, hfails.noConflict⟩
    · refine ⟨hu ▸ .single ?_, hfails.noConflict⟩
      cases previous with
      | none => exact h.first hwrites
      | some q => exact h.next hwrites
  · cases previous with
    | none => exact Triple.pure fun u hu => hu ▸ .first r hwrites
    | some q =>
      have hstage := h.next hwrites
      obtain ⟨hq, hactive, -⟩ := h.previous q rfl
      have hmem : ∀ q', q' ∈ (t.upsert r).rows ↔ q' = r ∨ q' ∈ t.rows := fun q' =>
        Table.mem_upsert_of_fresh (hwrites.id ▸ h.fresh)
      refine Triple.bind (fun _ u => Stored service call p t (some q) u.points)
        ((commit_triple (k := k) (h.chain.change hstage) ((hmem r).mpr (.inl rfl)) hwrites.staged
          ((hmem q).mpr (.inr hq)) hactive).post ?_ ?_) fun _ => Triple.pure fun _ hu => hu
      · exact fun _ u hu => .next q r hwrites (hdecided q rfl) u.points hu
      · exact fun e u hu => ⟨(ReflTransGen.single hstage).trans hu.1, hu.2⟩

/-- The conflicts that a caller's own arguments cause. -/
def CallerConflict (e : Exc) : Prop :=
  ∀ m, e = .conflictError m → m = versionChanged ∨ m = contextChanged

lemma NoConflict.caller {e : Exc} (h : NoConflict e) : CallerConflict e := fun m hm =>
  absurd hm (h m)

/-- The part of `store` after its lookups. -/
lemma decideOutcome_triple (h : MayWrite k call p t previous) :
    Triple (fun u => u.points = t) (decideOutcome service call p previous)
      (fun _ u => Stored service call p t previous u.points)
      fun e u => Changes k t u.points ∧ CallerConflict e := by
  have hstop : ∀ e, CallerConflict e → ∀ u : CallState py, u.points = t →
      Changes k t u.points ∧ CallerConflict e := fun e he u hu => ⟨hu ▸ .refl, he⟩
  have hevolve := fun hdecided => (@evolve_triple _ service _ _ _ _ _ h hdecided).post
    (fun _ _ h => h) fun e u (hu : Changes k t u.points ∧ NoConflict e) =>
      And.intro hu.1 hu.2.caller
  have hexpected : ∀ e, require (∀ id ∈ call.args.expectedPreviousId, previous.map (·.id) = some id)
      (.conflictError versionChanged) = .error e → CallerConflict e := by
    intro e he
    have : Raises CallerConflict (require (∀ id ∈ call.args.expectedPreviousId,
        previous.map (·.id) = some id) (.conflictError versionChanged)) :=
      .require fun m hm => .inl (Exc.conflictError.inj hm).symm
    exact this e he
  have hentity : Raises CallerConflict (checkEntity p previous) := by
    unfold checkEntity
    split
    · split_ifs
      · refine Raises.bind (fun e he => (entityRef_make_raises _ _ _ e he).caller) fun _ =>
          .require fun m hm => .inr (Exc.conflictError.inj hm).symm
      · exact .ok _
    · exact .ok _
  have hreview : Raises CallerConflict (checkReview call p previous) := by
    unfold checkReview
    split_ifs
    · exact .require fun _ hm => by cases hm
    · exact .ok _
  unfold decideOutcome
  refine Triple.ofExcept_bind (fun _ _ => ?_) fun e he => hstop e (hexpected e he)
  refine Triple.ofExcept_bind (fun _ _ => ?_) fun e he => hstop e (hentity e he)
  refine Triple.ofExcept_bind (fun _ hreviewed => ?_) fun e he => hstop e (hreview e he)
  cases previous with
  | none => exact hevolve fun _ hq => absurd hq (by simp)
  | some q =>
    exact Triple.ite (fun _ => Triple.pure fun u hu => hu ▸ .unchanged q) fun hchanges =>
      hevolve fun _ _ => ⟨hreviewed, hchanges⟩

end Evolve

section Store

variable {service : Service} {call : StoreCall py} {p : Prepared py} {s t : Collection py}

/-- What the bounded reads of a call show of its entity. -/
def sees (service : Service) (call : StoreCall py) (p : Prepared py) (s : Collection py) : Knows where
  scanned := ScanComplete call.toEnvironment p.subject s
  looked := ∀ vector, service.vector (p.subject.topic ++ " " ++ p.subject.entityName) = .ok vector →
    ∀ t, Recovered call.toEnvironment p.subject s t → LookComplete call p vector t

/-- The records that compete for a place in the reads of a call. -/
def competes (subject : Subject) (r : KnowledgeRecord py) : Bool :=
  r.toEntityLabels = subject.toEntityLabels && samePartition r subject.partition &&
    (r.status = .active || r.status = .deprecated)

/-- The reads show everything there is of the entity when at most 10 records share its labels and
its partition and are active or pending. -/
theorem sees_of_few (hlawful : call.repository.Lawful) (h : Chain s)
    (hfew : s.rows.countP (competes p.subject) ≤ 10) :
    (sees service call p s).scanned ∧ (sees service call p s).looked := by
  constructor
  · apply scanComplete_of_few hlawful
    refine (List.countP_mono_left fun r _ hr => ?_).trans (hfew.trans (by decide))
    obtain ⟨hlabels, hstatus, -, hpartition⟩ := accepts_pendingFilter.mp hr
    simp [competes, hlabels, hpartition, hstatus]
  · intro vector _ t hrecovered
    apply lookComplete_of_few hlawful
    refine le_trans ?_ hfew
    -- each active record competed before the recovery, under the same id
    simp only [List.countP_eq_length_filter]
    rw [← List.length_map KnowledgeRecord.id, ← List.length_map KnowledgeRecord.id]
    refine List.Subperm.length_le (List.Nodup.subperm (t.nodup.sublist (List.filter_sublist.map _))
      fun id hid => ?_)
    obtain ⟨q, hq, rfl⟩ := List.mem_map.mp hid
    obtain ⟨hq, haccepts⟩ := List.mem_filter.mp hq
    obtain ⟨hlabels, hactive, hpartition⟩ := accepts_activeFilter.mp haccepts
    obtain ⟨r, hr, hid, hidentity, -, hstatus⟩ := hrecovered.origin hlawful h hq hactive
    refine List.mem_map.mpr ⟨r, List.mem_filter.mpr ⟨hr, ?_⟩, hid⟩
    obtain ⟨hlabels', -, hpartition'⟩ := identityOf_eq_iff.mp hidentity
    rw [samePartition, decide_eq_true_eq] at hpartition hpartition'
    simp only [competes, samePartition, hlabels'.trans hlabels, hpartition'.trans hpartition,
      decide_true, Bool.true_and, Bool.or_eq_true, decide_eq_true_eq]
    exact hstatus.imp id And.left

/-- What a completed call did: it recovered, looked for the active version and decided. -/
def Completed (service : Service) (call : StoreCall py) (p : Prepared py) (s u : Collection py) :
    Prop :=
  ∃ t previous, Recovered call.toEnvironment p.subject s t ∧
    MayWrite (sees service call p s) call p t previous ∧ Stored service call p t previous u

lemma Completed.changes (hlawful : call.repository.Lawful) (h : Chain s) {u : Collection py}
    (hcompleted : Completed service call p s u) : Changes (sees service call p s) s u := by
  obtain ⟨t, previous, hrecovered, hmay, hstored⟩ := hcompleted
  exact (hrecovered.changes hlawful h).trans (hstored.changes hmay)

/-- After a complete scroll, a completed call leaves nothing of its entity pending. -/
lemma Completed.not_pending (hscan : (sees service call p s).scanned) {u : Collection py}
    (hcompleted : Completed service call p s u) :
    ∀ q ∈ u.rows, Pending q → identityOf q ≠ p.subject.identity := by
  obtain ⟨t, previous, -, hmay, hstored⟩ := hcompleted
  have ht := hmay.scanned hscan
  intro q hq hpending
  cases hstored with
  | unchanged => exact ht q hq hpending
  | first r hr =>
    rcases (Table.mem_upsert_of_fresh (hr.id ▸ hmay.fresh)).mp hq with rfl | hq
    · obtain ⟨base, confidence, now, -, rfl⟩ := hr
      exact absurd (.inl rfl) hpending.not_committed
    · exact ht q hq hpending
  | next q' r hr hdecided u hrecovers =>
    have hmem : ∀ q, q ∈ (t.upsert r).rows ↔ q = r ∨ q ∈ t.rows := fun q =>
      Table.mem_upsert_of_fresh (hr.id ▸ hmay.fresh)
    obtain ⟨hqr, -, hne⟩ := (hrecovers.pending (hmay.chain.change (hmay.next hr))
      ((hmem r).mpr (.inl rfl)) q).mp ⟨hq, hpending⟩
    exact ht q (((hmem q).mp hqr).resolve_left hne) hpending

/-- A recovery adds no record. -/
lemma Recovered.fresh {env : Environment py} {subject : Subject}
    (hrecovered : Recovered env subject s t) {id : Uuid} (hfresh : s.find? id = none) :
    t.find? id = none := by
  have hmodify : ∀ {s : Collection py} {id' : Uuid} {f : KnowledgeRecord py → KnowledgeRecord py}
      {hf : ∀ r, r.id = id' → (f r).id = id'}, s.find? id = none →
      (s.modify id' f hf).find? id = none := by
    intro s id' f hf h
    rw [Table.find?_modify, h, Option.map_none, ite_self]
  rcases hrecovered with ⟨-, rfl⟩ | ⟨r, -, q, hq, -, u, now, hsettled, rfl⟩
  · exact hfresh
  · cases hsettled with
    | before => exact hmodify hfresh
    | now => exact hmodify (hmodify hfresh)

/-- What the lookups establish before anything is written. -/
lemma mayWrite_of_lookup (hlawful : call.repository.Lawful) (h : Chain s)
    (hfresh : s.find? call.newId = none)
    (hrecovered : Recovered call.toEnvironment p.subject s t) {vector : List Binary64}
    (hvector : service.vector (p.subject.topic ++ " " ++ p.subject.entityName) = .ok vector)
    {previous : Option (KnowledgeRecord py)}
    (hfound : activePoints call p vector t = previous.toList) :
    MayWrite (sees service call p s) call p t previous where
  chain := h.changes (hrecovered.changes (k := sees service call p s) hlawful h)
  fresh := hrecovered.fresh hfresh
  scanned := fun hscan q hq hpending =>
    ((hrecovered.pending hlawful h hscan q).mp ⟨hq, hpending⟩).2.2
  looked := by
    rintro hlook rfl q hq hactive hidentity
    have := mem_activePoints_of_complete (hlook vector hvector t hrecovered) hq hactive hidentity
    rw [hfound] at this
    exact List.not_mem_nil this
  previous := by
    rintro q rfl
    apply mem_activePoints hlawful
    rw [hfound]
    exact List.mem_singleton_self q

/-- The guarded section of `store`, from a collection whose versions form chains. -/
theorem storeGuarded_triple (hlawful : call.repository.Lawful) (h : Chain s)
    (hfresh : s.find? call.newId = none) :
    Triple (fun u => u.points = s) (storeGuarded service call p)
      (fun _ u => Completed service call p s u.points)
      fun e u => Changes (sees service call p s) s u.points ∧ (Recoverable s → CallerConflict e ∨
        e = .conflictError multipleActive ∧ ¬ Solo s p.subject.identity) := by
  unfold storeGuarded
  refine Triple.bind (fun _ u => Recovered call.toEnvironment p.subject s u.points)
    ((recoverPending_triple (k := sees service call p s) hlawful h p.subject).post
      (fun _ _ h => h) ?_) fun _ => Triple.of_forall fun u hu => ?_
  · exact fun e u hu => ⟨hu.1, fun hrec => .inl (hu.2 hrec).noConflict.caller⟩
  refine Triple.pre ?_ fun v (hv : v = u) => congrArg CallState.points hv
  generalize u.points = t at hu
  have hchanges := hu.changes (k := sees service call p s) hlawful h
  refine Triple.ofExcept_bind (fun vector hvector => points_bind ?_) fun e he v hv =>
    ⟨hv ▸ hchanges, fun _ => .inl (vector_raises _ e he).caller⟩
  have hdecide : ∀ previous : Option (KnowledgeRecord py),
      activePoints call p vector t = previous.toList →
      Triple (fun v => v.points = t) (decideOutcome service call p previous)
        (fun _ u => Completed service call p s u.points)
        fun e u => Changes (sees service call p s) s u.points ∧ (Recoverable s →
          CallerConflict e ∨ e = .conflictError multipleActive ∧ ¬ Solo s p.subject.identity) := by
    intro previous hfound
    have hmay := mayWrite_of_lookup hlawful h hfresh hu hvector hfound
    refine (@decideOutcome_triple _ service _ _ _ _ _ hmay).post ?_ ?_
    · exact fun _ v hv => ⟨t, previous, hu, hmay, hv⟩
    · exact fun e v hv => ⟨hchanges.trans hv.1, fun _ => .inl hv.2⟩
  cases hfound : activePoints call p vector t with
  | nil => exact hdecide none hfound
  | cons q rest =>
    cases rest with
    | nil => exact hdecide (some q) hfound
    | cons q' rest =>
      refine Triple.raise fun v hv => ⟨hv ▸ hchanges, fun _ => .inr ⟨rfl, fun hsolo => ?_⟩⟩
      -- two active records of one entity
      have hmem : ∀ r ∈ activePoints call p vector t, _ := fun r => mem_activePoints hlawful
      have hq := hmem q (hfound ▸ List.mem_cons_self)
      have hq' := hmem q' (hfound ▸ List.mem_cons_of_mem q List.mem_cons_self)
      have heq := Recovered.solo hlawful h hsolo hu q q' ⟨hq.1, .inl hq.2.1⟩ ⟨hq'.1, .inl hq'.2.1⟩
        hq.2.2 hq'.2.2
      have hnodup : (activePoints call p vector t).Nodup :=
        (hlawful.search t vector 10 (activeFilter p.subject)).nodup.filter _
      rw [hfound, heq] at hnodup
      exact absurd List.mem_cons_self (List.nodup_cons.mp hnodup).1

end Store

end CyberBrain.Knowledge
