import CyberBrain.Knowledge.Lookup

/-!
# Recovery

What `_recover_pending` does with a pending record: it settles the predecessor, if a crash left that
undone, and activates the record. When every pending record is the only one of its entity and its
predecessor waits for it, the recovery never raises a conflict.
-/

namespace CyberBrain.Knowledge

open Program Python Relations Schemas Tenancy Relation

variable {py : Runtime}

/-! ### The abstract recovery -/

/-- The predecessor `p` of the staged `r` is superseded by it, from before or by this call. -/
inductive Settled (s : Collection py) (r p : KnowledgeRecord py) : Collection py → Prop
  | before (hsuperseded : p.status = .superseded) (hnext : p.supersededById = some r.id) :
      Settled s r p s
  | now (time : Instant) (hactive : p.status = .active) :
      Settled s r p (s.modify p.id (supersede r.id time) fun _ h => h)

/-- The pending `r` was brought into its place in the history. -/
def Recovers (s : Collection py) (r : KnowledgeRecord py) (t : Collection py) : Prop :=
  ∃ p ∈ s.rows, Staged r p.id ∧ ∃ u now, Settled s r p u ∧
    t = u.modify r.id (activate (committedExtensions r.extensions) now) fun _ h => h

/-- The predecessor of `r` is active, or superseded by `r`. -/
def Resumable (s : Collection py) (r : KnowledgeRecord py) : Prop :=
  ∃ p ∈ s.rows, r.supersedesId = some p.id ∧
    (p.status = .active ∨ p.status = .superseded ∧ p.supersededById = some r.id)

/-- Every interrupted evolution is the only one of its entity and can be resumed. -/
structure Recoverable (s : Collection py) : Prop where
  unique : ∀ r ∈ s.rows, ∀ r' ∈ s.rows, Pending r → Pending r' → identityOf r = identityOf r' →
    r = r'
  resumable : ∀ r ∈ s.rows, Pending r → Resumable s r

section Abstract

variable {k : Knows} {s t u : Collection py} {r p : KnowledgeRecord py}

/-- The predecessor after it is settled, and the staged record beside it. -/
lemma Settled.rows (h : Chain s) (hr : r ∈ s.rows) (hstaged : Staged r p.id) (hp : p ∈ s.rows)
    (hsettled : Settled s r p u) : r ∈ u.rows ∧ ∃ p' ∈ u.rows, p'.id = p.id ∧
      p'.status = .superseded ∧ p'.supersededById = some r.id := by
  cases hsettled with
  | before hsuperseded hnext => exact ⟨hr, p, hp, rfl, hsuperseded, hnext⟩
  | now time hactive =>
    refine ⟨(Table.mem_modify hp).mpr (.inr ⟨hr, h.ne_previous hr hstaged⟩),
      supersede r.id time p, (Table.mem_modify hp).mpr (.inl rfl), rfl, rfl, rfl⟩

lemma Settled.changes (hr : r ∈ s.rows) (hstaged : Staged r p.id) (hp : p ∈ s.rows)
    (hsettled : Settled s r p u) : Changes k s u := by
  cases hsettled with
  | before => exact .refl
  | now time hactive => exact .single (.supersede r p time hr hstaged hp hactive)

/-- A settled predecessor lets the staged record be activated. -/
lemma Settled.activate (h : Chain s) (hr : r ∈ s.rows) (hstaged : Staged r p.id) (hp : p ∈ s.rows)
    (hsettled : Settled s r p u) (now : Instant) :
    Change k u (u.modify r.id (activate (committedExtensions r.extensions) now) fun _ h => h) := by
  obtain ⟨hru, p', hp', hid, hsuperseded, hnext⟩ := hsettled.rows h hr hstaged hp
  exact .activate r p' now hru (hid ▸ hstaged) hp' hsuperseded hnext

lemma Recovers.changes (h : Chain s) (hr : r ∈ s.rows) (hrecovers : Recovers s r t) :
    Changes k s t := by
  obtain ⟨p, hp, hstaged, u, now, hsettled, rfl⟩ := hrecovers
  exact (hsettled.changes hr hstaged hp).tail (hsettled.activate h hr hstaged hp now)

/-- The records after a recovery: the activated one, its predecessor, and all others. -/
lemma Recovers.mem (h : Chain s) (hr : r ∈ s.rows) (hrecovers : Recovers s r t) :
    ∃ p ∈ s.rows, Staged r p.id ∧ ∃ p', p'.id = p.id ∧ p'.status = .superseded ∧
      p'.supersededById = some r.id ∧ ∃ now, ∀ q, q ∈ t.rows ↔
        q = activate (committedExtensions r.extensions) now r ∨ q = p' ∨
          q ∈ s.rows ∧ q.id ≠ r.id ∧ q.id ≠ p.id := by
  obtain ⟨p, hp, hstaged, u, now, hsettled, rfl⟩ := hrecovers
  have hne := h.ne_previous hr hstaged
  have hru := (hsettled.rows h hr hstaged hp).1
  refine ⟨p, hp, hstaged, ?_⟩
  cases hsettled with
  | before hsuperseded hnext =>
    refine ⟨p, rfl, hsuperseded, hnext, now, fun q => (Table.mem_modify hr).trans ?_⟩
    constructor
    · rintro (hq | ⟨hq, hqr⟩)
      · exact .inl hq
      · by_cases hid : q.id = p.id
        · exact .inr (.inl (Table.eq_of_key_eq hq hp hid))
        · exact .inr (.inr ⟨hq, hqr, hid⟩)
    · rintro (hq | rfl | ⟨hq, hqr, -⟩)
      · exact .inl hq
      · exact .inr ⟨hp, hne.symm⟩
      · exact .inr ⟨hq, hqr⟩
  | now time hactive =>
    refine ⟨supersede r.id time p, rfl, rfl, rfl, now,
      fun q => (Table.mem_modify hru).trans ?_⟩
    constructor
    · rintro (hq | ⟨hq, hqr⟩)
      · exact .inl hq
      · rcases (Table.mem_modify hp).mp hq with hq | ⟨hq, hqp⟩
        · exact .inr (.inl hq)
        · exact .inr (.inr ⟨hq, hqr, hqp⟩)
    · rintro (hq | rfl | ⟨hq, hqr, hqp⟩)
      · exact .inl hq
      · exact .inr ⟨(Table.mem_modify hp).mpr (.inl rfl), hne.symm⟩
      · exact .inr ⟨(Table.mem_modify hp).mpr (.inr ⟨hq, hqp⟩), hqr⟩

/-- A recovery leaves the other pending records as they are. -/
lemma Recovers.pending (h : Chain s) (hr : r ∈ s.rows) (hrecovers : Recovers s r t)
    (q : KnowledgeRecord py) : q ∈ t.rows ∧ Pending q ↔ q ∈ s.rows ∧ Pending q ∧ q ≠ r := by
  obtain ⟨p, hp, hstaged, p', -, hsuperseded, -, now, hmem⟩ := hrecovers.mem h hr
  have hcommitted : Committed p := by
    obtain ⟨p₀, hp₀, hid, hcommitted, -⟩ := h.previous r hr p.id hstaged.supersedes
    rwa [Table.eq_of_key_eq hp₀ hp hid] at hcommitted
  constructor
  · rintro ⟨hq, hpending⟩
    rcases (hmem q).mp hq with rfl | rfl | ⟨hqs, hqr, -⟩
    · exact absurd (.inl rfl) hpending.not_committed
    · exact absurd (.inr hsuperseded) hpending.not_committed
    · exact ⟨hqs, hpending, fun heq => hqr (congrArg _ heq)⟩
  · rintro ⟨hq, hpending, hne⟩
    refine ⟨(hmem q).mpr (.inr (.inr ⟨hq, fun hid => ?_, fun hid => ?_⟩)), hpending⟩
    · exact hne (Table.eq_of_key_eq hq hr hid)
    · rw [Table.eq_of_key_eq hq hp hid] at hpending
      exact hpending.not_committed hcommitted

end Abstract

/-! ### The recovery of the code -/

lemma write_triple {env : Environment py} {s : Collection py}
    (f : Instant → Collection py → Collection py) :
    Triple (fun u => u.points = s) (env.write f) (fun _ u => ∃ now, u.points = f now s)
      fun e u => env.Fails e ∧ (u.points = s ∨ ∃ now, u.points = f now s) := by
  refine Triple.write ?_ ?_ ?_
  · rintro u rfl -
    exact ⟨_, rfl⟩
  · rintro u rfl hfate
    exact ⟨⟨rfl, u.writes, by simp [hfate]⟩, .inl rfl⟩
  · rintro u rfl hfate
    exact ⟨⟨rfl, u.writes, by simp [hfate]⟩, .inr ⟨_, rfl⟩⟩

/-- Read the collection and go on with it. -/
lemma points_bind {α : Type} {s : Collection py} {f : Collection py → Program (CallState py) Exc α}
    {Q : α → CallState py → Prop} {E : Exc → CallState py → Prop}
    (h : Triple (fun u => u.points = s) (f s) Q E) :
    Triple (fun u => u.points = s) (Environment.points >>= f) Q E :=
  Triple.reads_bind fun points => fun u ⟨hu, hpoints⟩ => by
    obtain rfl : s = points := hu.symm.trans hpoints
    exact h u hu

lemma supersedePoint_triple {env : Environment py} {s : Collection py} (id next : Uuid) :
    Triple (fun u => u.points = s) (supersedePoint env id next)
      (fun _ u => ∃ now, u.points = s.modify id (supersede next now) fun _ h => h)
      fun e u => env.Fails e ∧
        (u.points = s ∨ ∃ now, u.points = s.modify id (supersede next now) fun _ h => h) :=
  write_triple fun now points => Table.modify points id (supersede next now) fun _ h => h

lemma activateStaged_triple {env : Environment py} {s : Collection py} (r : KnowledgeRecord py) :
    Triple (fun u => u.points = s) (activateStaged env r)
      (fun _ u => ∃ now, u.points =
        s.modify r.id (activate (committedExtensions r.extensions) now) fun _ h => h)
      fun e u => env.Fails e ∧ (u.points = s ∨ ∃ now, u.points =
        s.modify r.id (activate (committedExtensions r.extensions) now) fun _ h => h) :=
  write_triple fun now points =>
    Table.modify points r.id (activate (committedExtensions r.extensions) now) fun _ h => h

/-- The id that staging wrote is read back. -/
lemma Staged.previousIdOf {r : KnowledgeRecord py} {id : Uuid} (h : Staged r id) :
    previousIdOf r = .ok id := by
  have hempty : id.text ≠ "" := fun heq => by
    have hparse := Uuid.parse_text id
    rw [heq] at hparse
    cases hparse
  simp [Knowledge.previousIdOf, h.previous, isFalsy, hempty, pyStr, orRaise, bind, Except.bind,
    Option.filter]

section Code

variable {env : Environment py} {k : Knows} {s : Collection py} {r p : KnowledgeRecord py}

lemma settlePrevious_triple (h : Chain s) (hp : p ∈ s.rows) :
    Triple (fun u => u.points = s) (settlePrevious env r p) (fun _ u => Settled s r p u.points)
      fun e u => (u.points = s ∨ Settled s r p u.points) ∧
        (p.status = .active ∨ p.status = .superseded ∧ p.supersededById = some r.id →
          env.Fails e) := by
  unfold settlePrevious
  refine Triple.ite (fun hactive => ?_) fun hactive => ?_
  · rw [if_pos (.inl (h.open_end p hp hactive))]
    refine (supersedePoint_triple p.id r.id).post ?_ ?_
    · rintro - u ⟨now, hu⟩
      rw [hu]
      exact .now now hactive
    · rintro e u ⟨hfails, hu⟩
      refine ⟨hu.imp id ?_, fun _ => hfails⟩
      rintro ⟨now, hu⟩
      rw [hu]
      exact .now now hactive
  · refine Triple.ite (fun hsuperseded => ?_) fun hsuperseded => ?_
    · exact Triple.pure fun u hu => hu ▸ .before hsuperseded.1 hsuperseded.2
    · exact Triple.raise fun u hu => ⟨.inl hu, fun hor => absurd hor (by tauto)⟩

/-- The recovery of one pending record. -/
lemma recoverPoint_triple (h : Chain s) (hr : r ∈ s.rows) (hpending : Pending r)
    {partition : Partition} (hpartition : samePartition r partition = true) :
    Triple (fun u => u.points = s) (recoverPoint env partition s r)
      (fun _ u => Recovers s r u.points)
      fun e u => Changes k s u.points ∧ (Resumable s r → env.Fails e) := by
  obtain ⟨id, hstaged⟩ := h.staged r hr hpending.not_committed
  obtain ⟨p, hp, rfl, -, hidentity, -⟩ := h.previous r hr id hstaged.supersedes
  have hsame : samePartition p partition = true := by
    rw [samePartition, decide_eq_true_eq] at hpartition ⊢
    exact (congrArg Identity.partition hidentity).trans hpartition
  have hprogram : recoverPoint env partition s r =
      (settlePrevious env r p >>= fun _ => activateStaged env r) := by
    simp only [recoverPoint, hstaged.previousIdOf, Table.find?_of_mem hp, orRaise, hsame, require,
      if_true, ofExcept_ok_bind]
  have hresumable : Resumable s r →
      p.status = .active ∨ p.status = .superseded ∧ p.supersededById = some r.id := by
    rintro ⟨p', hp', hid, hstatus⟩
    rw [hstaged.supersedes, Option.some.injEq] at hid
    rwa [Table.eq_of_key_eq hp hp' hid]
  rw [hprogram]
  refine Triple.bind (fun _ u => Settled s r p u.points)
    ((settlePrevious_triple h hp).post (fun _ _ h => h) ?_) fun _ =>
    Triple.of_forall fun u hu => ?_
  · rintro e u ⟨hu | hu, he⟩
    · exact ⟨hu ▸ .refl, fun hres => he (hresumable hres)⟩
    · exact ⟨hu.changes hr hstaged hp, fun hres => he (hresumable hres)⟩
  · refine ((activateStaged_triple (s := u.points) r).pre fun _ heq => congrArg _ heq).post ?_ ?_
    · rintro - v ⟨now, hv⟩
      exact ⟨p, hp, hstaged, u.points, now, hu, hv⟩
    · rintro e v ⟨hfails, hv⟩
      refine ⟨?_, fun _ => hfails⟩
      rcases hv with hv | ⟨now, hv⟩
      · exact hv ▸ hu.changes hr hstaged hp
      · exact hv ▸ (hu.changes hr hstaged hp).tail (hu.activate h hr hstaged hp now)

/-- What a completed recovery did: nothing, or it recovered the one pending record it found. -/
def Recovered (env : Environment py) (subject : Subject) (s t : Collection py) : Prop :=
  pendingPoints env subject s = [] ∧ t = s ∨
    ∃ r, pendingPoints env subject s = [r] ∧ Recovers s r t

/-- `_recover_pending`, from a collection whose versions form chains. -/
theorem recoverPending_triple (hlawful : env.repository.Lawful) (h : Chain s) (subject : Subject) :
    Triple (fun u => u.points = s) (recoverPending env subject)
      (fun _ u => Recovered env subject s u.points)
      fun e u => Changes k s u.points ∧ (Recoverable s → env.Fails e) := by
  unfold recoverPending
  refine points_bind ?_
  have hmem : ∀ r ∈ pendingPoints env subject s, _ := fun r => mem_pendingPoints hlawful
  have hnodup : (pendingPoints env subject s).Nodup :=
    (hlawful.scroll s (pendingFilter subject) 20).nodup.filter _
  cases hfound : pendingPoints env subject s with
  | nil => exact Triple.pure fun u hu => .inl ⟨hfound, hu⟩
  | cons r rest =>
    have hr := hmem r (hfound ▸ List.mem_cons_self)
    cases rest with
    | nil =>
      refine (recoverPoint_triple (k := k) h hr.1 hr.2.1 (identityOf_eq_iff.mp hr.2.2).2.2).post ?_ ?_
      · exact fun _ u hu => .inr ⟨r, hfound, hu⟩
      · exact fun e u hu => ⟨hu.1, fun hrec => hu.2 (hrec.resumable r hr.1 hr.2.1)⟩
    | cons r' rest =>
      refine Triple.raise fun u hu => ⟨hu ▸ .refl, fun hrec => ?_⟩
      -- two pending records of one entity
      have hr' := hmem r' (hfound ▸ List.mem_cons_of_mem r List.mem_cons_self)
      have heq := hrec.unique r hr.1 r' hr'.1 hr.2.1 hr'.2.1 (hr.2.2.trans hr'.2.2.symm)
      rw [hfound, heq] at hnodup
      exact absurd List.mem_cons_self (List.nodup_cons.mp hnodup).1

end Code

section Recovered

variable {env : Environment py} {subject : Subject} {k : Knows} {s t : Collection py}

lemma Recovered.changes (hlawful : env.repository.Lawful) (h : Chain s)
    (hrecovered : Recovered env subject s t) : Changes k s t := by
  rcases hrecovered with ⟨-, rfl⟩ | ⟨r, hfound, hrecovers⟩
  · exact .refl
  · exact hrecovers.changes h (mem_pendingPoints hlawful (hfound ▸ List.mem_cons_self)).1

/-- After a complete scroll, the pending records of the entity are gone and no others. -/
lemma Recovered.pending (hlawful : env.repository.Lawful) (h : Chain s)
    (hscan : ScanComplete env subject s) (hrecovered : Recovered env subject s t)
    (q : KnowledgeRecord py) :
    q ∈ t.rows ∧ Pending q ↔ q ∈ s.rows ∧ Pending q ∧ identityOf q ≠ subject.identity := by
  have hfind : ∀ q ∈ s.rows, Pending q → identityOf q = subject.identity →
      q ∈ pendingPoints env subject s := fun q hq => mem_pendingPoints_of_complete hscan hq
  rcases hrecovered with ⟨hfound, rfl⟩ | ⟨r, hfound, hrecovers⟩ <;> rw [hfound] at hfind
  · exact ⟨fun hq => ⟨hq.1, hq.2, fun hid => List.not_mem_nil (hfind q hq.1 hq.2 hid)⟩,
      fun hq => ⟨hq.1, hq.2.1⟩⟩
  · have hr := mem_pendingPoints hlawful (hfound ▸ List.mem_cons_self (a := r) (l := []))
    rw [hrecovers.pending h hr.1 q]
    refine and_congr_right fun hq => and_congr_right fun hpending => ?_
    constructor
    · exact fun hne hid => hne (List.mem_singleton.mp (hfind q hq hpending hid))
    · rintro hne rfl
      exact hne hr.2.2

/-- An active record was there before the recovery, active or pending. -/
lemma Recovered.origin (hlawful : env.repository.Lawful) (h : Chain s)
    (hrecovered : Recovered env subject s t) {q : KnowledgeRecord py} (hq : q ∈ t.rows)
    (hactive : q.status = .active) : ∃ r ∈ s.rows, r.id = q.id ∧ identityOf r = identityOf q ∧
      r.bundle = q.bundle ∧ (r.status = .active ∨ Pending r) := by
  rcases hrecovered with ⟨-, rfl⟩ | ⟨r, hfound, hrecovers⟩
  · exact ⟨q, hq, rfl, rfl, rfl, .inl hactive⟩
  · have hr := mem_pendingPoints hlawful (hfound ▸ List.mem_cons_self (a := r) (l := []))
    obtain ⟨p, -, -, p', -, hsuperseded, -, now, hmem⟩ := hrecovers.mem h hr.1
    rcases (hmem q).mp hq with rfl | rfl | ⟨hqs, -, -⟩
    · exact ⟨r, hr.1, rfl, rfl, rfl, .inr hr.2.1⟩
    · exact absurd (hactive.symm.trans hsuperseded) (by decide)
    · exact ⟨q, hqs, rfl, rfl, rfl, .inl hactive⟩

end Recovered

/-! ### Recoverability is kept -/

section Kept

variable {k : Knows} {s t : Collection py}

/-- A record that refers to an unchanged predecessor can still be resumed. -/
lemma Resumable.mono {r : KnowledgeRecord py} (h : Resumable s r)
    (hkeep : ∀ p ∈ s.rows, r.supersedesId = some p.id → p ∈ t.rows) : Resumable t r := by
  obtain ⟨p, hp, hid, hstatus⟩ := h
  exact ⟨p, hkeep p hp hid, hid, hstatus⟩

/-- Every write keeps interrupted evolutions recoverable, as long as new versions are written only
when no evolution of their entity is pending. -/
theorem Recoverable.change (h : Chain s) (hrec : Recoverable s) (hchange : Change k s t)
    (hscanned : k.scanned) : Recoverable t := by
  cases hchange with
  | insert r hfresh hactive =>
    have hold : ∀ q ∈ (s.upsert r).rows, Pending q → q ∈ s.rows := by
      intro q hq hpending
      rcases (Table.mem_upsert_of_fresh hfresh).mp hq with rfl | hq
      · exact absurd (.inl hactive) hpending.not_committed
      · exact hq
    refine ⟨fun q hq q' hq' hpending hpending' => ?_, fun q hq hpending => ?_⟩
    · exact hrec.unique q (hold q hq hpending) q' (hold q' hq' hpending') hpending hpending'
    · exact (hrec.resumable q (hold q hq hpending) hpending).mono
        fun p hp _ => (Table.mem_upsert_of_fresh hfresh).mpr (.inr hp)
  | stage r p hfresh hstaged hp hactive _ _ hclear =>
    have hmem : ∀ q, q ∈ (s.upsert r).rows ↔ q = r ∨ q ∈ s.rows := fun q =>
      Table.mem_upsert_of_fresh hfresh
    refine ⟨fun q hq q' hq' hpending hpending' hid => ?_, fun q hq hpending => ?_⟩
    · rcases (hmem q).mp hq with rfl | hqs <;> rcases (hmem q').mp hq' with rfl | hqs'
      · rfl
      · exact absurd hid.symm (hclear hscanned q' hqs' hpending')
      · exact absurd hid (hclear hscanned q hqs hpending)
      · exact hrec.unique q hqs q' hqs' hpending hpending' hid
    · rcases (hmem q).mp hq with rfl | hqs
      · exact ⟨p, (hmem p).mpr (.inr hp), hstaged.supersedes, .inl hactive⟩
      · exact (hrec.resumable q hqs hpending).mono fun p' hp' _ => (hmem p').mpr (.inr hp')
  | supersede r p now hr hstaged hp hactive =>
    have hmem : ∀ q, q ∈ (s.modify p.id (supersede r.id now) fun _ h => h).rows ↔
        q = supersede r.id now p ∨ q ∈ s.rows ∧ q.id ≠ p.id := fun q => Table.mem_modify hp
    have hold : ∀ q ∈ (s.modify p.id (supersede r.id now) fun _ h => h).rows, Pending q →
        q ∈ s.rows := by
      intro q hq hpending
      rcases (hmem q).mp hq with rfl | ⟨hqs, -⟩
      · exact absurd (.inr rfl) hpending.not_committed
      · exact hqs
    refine ⟨fun q hq q' hq' hpending hpending' => ?_, fun q hq hpending => ?_⟩
    · exact hrec.unique q (hold q hq hpending) q' (hold q' hq' hpending') hpending hpending'
    · obtain ⟨p', hp', hid, hstatus⟩ := hrec.resumable q (hold q hq hpending) hpending
      by_cases hpp : p'.id = p.id
      · -- two pending records after one predecessor are of one entity, hence the same
        obtain ⟨p₁, hp₁, hid₁, -, hidentity₁, -⟩ := h.previous q (hold q hq hpending) _ hid
        obtain ⟨p₂, hp₂, hid₂, -, hidentity₂, -⟩ := h.previous r hr _ hstaged.supersedes
        have heq : p₁ = p₂ := Table.eq_of_key_eq hp₁ hp₂ (by rw [hid₁, hid₂, hpp])
        have hqr : q = r := hrec.unique q (hold q hq hpending) r hr hpending hstaged.pending
          (by rw [← hidentity₁, heq, hidentity₂])
        exact ⟨_, (hmem _).mpr (.inl rfl), hqr ▸ hstaged.supersedes, .inr ⟨rfl, hqr ▸ rfl⟩⟩
      · exact ⟨p', (hmem p').mpr (.inr ⟨hp', hpp⟩), hid, hstatus⟩
  | activate r p now hr hstaged =>
    have hmem : ∀ q, q ∈ (s.modify r.id (activate (committedExtensions r.extensions) now)
        fun _ h => h).rows ↔ q = activate (committedExtensions r.extensions) now r ∨
          q ∈ s.rows ∧ q.id ≠ r.id := fun q => Table.mem_modify hr
    have hold : ∀ q ∈ (s.modify r.id (activate (committedExtensions r.extensions) now)
        fun _ h => h).rows, Pending q → q ∈ s.rows := by
      intro q hq hpending
      rcases (hmem q).mp hq with rfl | ⟨hqs, -⟩
      · exact absurd (.inl rfl) hpending.not_committed
      · exact hqs
    refine ⟨fun q hq q' hq' hpending hpending' => ?_, fun q hq hpending => ?_⟩
    · exact hrec.unique q (hold q hq hpending) q' (hold q' hq' hpending') hpending hpending'
    · obtain ⟨p', hp', hid, hstatus⟩ := hrec.resumable q (hold q hq hpending) hpending
      refine ⟨p', (hmem p').mpr (.inr ⟨hp', fun hpr => ?_⟩), hid, hstatus⟩
      rw [Table.eq_of_key_eq hp' hr hpr] at hstatus
      exact hstaged.pending.not_committed (hstatus.imp id And.left)

theorem Recoverable.changes (h : Chain s) (hrec : Recoverable s) (hchanges : Changes k s t)
    (hscanned : k.scanned) : Recoverable t := by
  induction hchanges with
  | refl => exact hrec
  | tail hprefix hchange ih => exact ih.change (h.changes hprefix) hchange hscanned

end Kept

end CyberBrain.Knowledge
