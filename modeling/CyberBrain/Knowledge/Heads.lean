import CyberBrain.Knowledge.Recovery

/-!
# Heads

The head of an entity is its active version. Between the supersession of a version and the
activation of the next, the head is the next, which a later call will activate. A write of a first
version can give an entity a second head, when the lookup before it missed the one there is; no
other write can.
-/

namespace CyberBrain.Knowledge

open Program Python Relations Schemas Tenancy Relation

variable {py : Runtime}

/-- The predecessor of a pending record has been superseded by it. -/
def Interrupted (s : Collection py) (r : KnowledgeRecord py) : Prop :=
  Pending r ∧ ∃ p ∈ s.rows, r.supersedesId = some p.id ∧ p.status = .superseded ∧
    p.supersededById = some r.id

/-- An active version, or one that was about to be activated. -/
def Head (s : Collection py) (r : KnowledgeRecord py) : Prop :=
  r ∈ s.rows ∧ (r.status = .active ∨ Interrupted s r)

/-- The entity has at most one head. -/
def Solo (s : Collection py) (j : Identity) : Prop :=
  ∀ r r', Head s r → Head s r' → identityOf r = j → identityOf r' = j → r = r'

lemma Solo.empty (j : Identity) : Solo (Table.empty (@KnowledgeRecord.id py)) j :=
  fun _ _ h => absurd h.1 (by simp)

section Step

variable {k : Knows} {s t : Collection py} {r p q : KnowledgeRecord py} {j : Identity}

/-- A version that is interrupted after a write was so before it, unless its predecessor is new. -/
lemma Head.of_old (hq : q ∈ s.rows) (hold : Interrupted t q → Interrupted s q)
    (h : q.status = .active ∨ Interrupted t q) : Head s q := ⟨hq, h.imp id hold⟩

lemma Head.of_insert (hfresh : s.find? r.id = none) (hsuperseded : r.status ≠ .superseded)
    (h : Head (s.upsert r) q) : q = r ∨ Head s q := by
  rcases (Table.mem_upsert_of_fresh hfresh).mp h.1 with rfl | hq
  · exact .inl rfl
  · refine .inr (.of_old hq ?_ h.2)
    rintro ⟨hpending, p, hp, hid, hstatus, hnext⟩
    rcases (Table.mem_upsert_of_fresh hfresh).mp hp with rfl | hp
    · exact absurd hstatus hsuperseded
    · exact ⟨hpending, p, hp, hid, hstatus, hnext⟩

lemma Head.of_stage (hfresh : s.find? r.id = none) (hstaged : Staged r p.id) (hp : p ∈ s.rows)
    (hactive : p.status = .active) (h : Head (s.upsert r) q) : Head s q := by
  have hdeprecated := hstaged.pending.1
  rcases h.of_insert hfresh (by rw [hdeprecated]; decide) with rfl | hq
  · -- the predecessor of a version that was just staged is still active
    rcases h.2 with hq | ⟨-, p', hp', hid, hsuperseded, -⟩
    · exact absurd (hdeprecated.symm.trans hq) (by decide)
    · rw [hstaged.supersedes, Option.some.injEq] at hid
      rcases (Table.mem_upsert_of_fresh hfresh).mp hp' with rfl | hp'
      · exact absurd (hdeprecated.symm.trans hsuperseded) (by decide)
      · rw [Table.eq_of_key_eq hp' hp hid.symm] at hsuperseded
        exact absurd (hactive.symm.trans hsuperseded) (by decide)
  · exact hq

lemma Head.of_supersede {now : Instant} (hr : r ∈ s.rows) (hp : p ∈ s.rows)
    (h : Head (s.modify p.id (supersede r.id now) fun _ h => h) q) :
    q = r ∨ Head s q ∧ q.id ≠ p.id := by
  have hmem : ∀ q, q ∈ (s.modify p.id (supersede r.id now) fun _ h => h).rows ↔
      q = supersede r.id now p ∨ q ∈ s.rows ∧ q.id ≠ p.id := fun q => Table.mem_modify hp
  rcases (hmem q).mp h.1 with rfl | ⟨hq, hne⟩
  · rcases h.2 with hactive | ⟨hpending, -⟩
    · cases hactive
    · exact absurd (.inr rfl) hpending.not_committed
  · rcases h.2 with hactive | ⟨hpending, p', hp', hid, hsuperseded, hnext⟩
    · exact .inr ⟨⟨hq, .inl hactive⟩, hne⟩
    · rcases (hmem p').mp hp' with rfl | ⟨hp', -⟩
      · exact .inl (Table.eq_of_key_eq hq hr (Option.some.inj hnext).symm)
      · exact .inr ⟨⟨hq, .inr ⟨hpending, p', hp', hid, hsuperseded, hnext⟩⟩, hne⟩

lemma Head.of_activate {extensions : Extensions py} {now : Instant} (hr : r ∈ s.rows)
    (h : Head (s.modify r.id (activate extensions now) fun _ h => h) q) :
    q = activate extensions now r ∨ Head s q ∧ q.id ≠ r.id := by
  have hmem : ∀ q, q ∈ (s.modify r.id (activate extensions now) fun _ h => h).rows ↔
      q = activate extensions now r ∨ q ∈ s.rows ∧ q.id ≠ r.id := fun q => Table.mem_modify hr
  rcases (hmem q).mp h.1 with rfl | ⟨hq, hne⟩
  · exact .inl rfl
  · refine .inr ⟨.of_old hq ?_ h.2, hne⟩
    rintro ⟨hpending, p', hp', hid, hsuperseded, hnext⟩
    rcases (hmem p').mp hp' with rfl | ⟨hp', -⟩
    · cases hsuperseded
    · exact ⟨hpending, p', hp', hid, hsuperseded, hnext⟩

/-- One head comes for another of the same entity. -/
lemma Solo.replace (hsolo : Solo s j) (hp : Head s p) (hidentity : identityOf p = identityOf r)
    (hheads : ∀ q, Head t q → q = r ∨ Head s q ∧ q.id ≠ p.id) : Solo t j := by
  intro q q' hq hq' hj hj'
  rcases hheads q hq with rfl | ⟨hqs, hne⟩ <;> rcases hheads q' hq' with rfl | ⟨hqs', hne'⟩
  · rfl
  · exact absurd (congrArg _ (hsolo q' p hqs' hp hj' (hidentity.trans hj))) hne'
  · exact absurd (congrArg _ (hsolo q p hqs hp hj (hidentity.trans hj'))) hne
  · exact hsolo q q' hqs hqs' hj hj'

/-- A write keeps single heads, as long as first versions are written only for entities without a
head. -/
theorem Solo.change (h : Chain s) (hsolo : Solo s j) (hchange : Change k s t)
    (hscanned : k.scanned) (hlooked : k.looked) : Solo t j := by
  cases hchange with
  | insert r hfresh hactive _ _ hscan hlook =>
    have hheads : ∀ q, Head (s.upsert r) q → q = r ∨ Head s q := fun q =>
      Head.of_insert hfresh (by rw [hactive]; decide)
    have hnone : ∀ q, Head s q → identityOf q ≠ identityOf r := by
      rintro q ⟨hq, hactive | ⟨hpending, -⟩⟩
      · exact hlook hlooked q hq hactive
      · exact hscan hscanned q hq hpending
    intro q q' hq hq' hj hj'
    rcases hheads q hq with rfl | hqs <;> rcases hheads q' hq' with rfl | hqs'
    · rfl
    · exact absurd (hj'.trans hj.symm) (hnone q' hqs')
    · exact absurd (hj.trans hj'.symm) (hnone q hqs)
    · exact hsolo q q' hqs hqs' hj hj'
  | stage r p hfresh hstaged hp hactive =>
    exact fun q q' hq hq' => hsolo q q' (hq.of_stage hfresh hstaged hp hactive)
      (hq'.of_stage hfresh hstaged hp hactive)
  | supersede r p now hr hstaged hp hactive =>
    obtain ⟨p', hp', hid, -, hidentity, -⟩ := h.previous r hr p.id hstaged.supersedes
    rw [Table.eq_of_key_eq hp' hp hid] at hidentity
    exact hsolo.replace ⟨hp, .inl hactive⟩ hidentity fun q => Head.of_supersede hr hp
  | activate r p now hr hstaged hp hsuperseded hnext =>
    have hhead : Head s r :=
      ⟨hr, .inr ⟨hstaged.pending, p, hp, hstaged.supersedes, hsuperseded, hnext⟩⟩
    exact hsolo.replace (r := activate (committedExtensions r.extensions) now r) hhead rfl
      fun q => Head.of_activate hr

theorem Solo.changes (h : Chain s) (hsolo : Solo s j) (hchanges : Changes k s t)
    (hscanned : k.scanned) (hlooked : k.looked) : Solo t j := by
  induction hchanges with
  | refl => exact hsolo
  | tail hprefix hchange ih => exact ih.change (h.changes hprefix) hchange hscanned hlooked

/-- A recovery never gives an entity a second head. -/
lemma Recovered.solo {env : Environment py} {subject : Subject} (hlawful : env.repository.Lawful)
    (h : Chain s) (hsolo : Solo s j) (hrecovered : Recovered env subject s t) : Solo t j :=
  hsolo.changes h (hrecovered.changes (k := ⟨True, True⟩) hlawful h) trivial trivial

end Step

end CyberBrain.Knowledge
