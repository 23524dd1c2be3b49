import CyberBrain.Knowledge.Evolution
import Mathlib.Logic.Relation

/-!
# Version chains

What a single write of a store or a reconciliation can do to the collection, and the invariant that
every such write keeps: the committed versions of an entity form a chain in which every version but
the last is superseded by the next.
-/

namespace CyberBrain.Knowledge

open Program Python Relations Schemas Tenancy Relation

variable {py : Runtime}

/-! ### Records -/

/-- A record in the state `pending_activation`. -/
def Pending (r : KnowledgeRecord py) : Prop := r.status = .deprecated ∧ isPendingState r = true

instance (r : KnowledgeRecord py) : Decidable (Pending r) := inferInstanceAs (Decidable (_ ∧ _))

/-- A version that took its place in the history. -/
def Committed (r : KnowledgeRecord py) : Prop := r.status = .active ∨ r.status = .superseded

/-- A record as it is staged after the record `id`. -/
structure Staged (r : KnowledgeRecord py) (id : Uuid) : Prop where
  pending : Pending r
  supersedes : r.supersedesId = some id
  previous : r.extensions.evolutionPreviousId = some (.str id.text)
  open_end : r.supersededById = none

@[simp] lemma identityOf_supersede (next : Uuid) (now : Instant) (r : KnowledgeRecord py) :
    identityOf (supersede next now r) = identityOf r := rfl

@[simp] lemma identityOf_activate (extensions : Extensions py) (now : Instant)
    (r : KnowledgeRecord py) : identityOf (activate extensions now r) = identityOf r := rfl

lemma Pending.not_committed {r : KnowledgeRecord py} (h : Pending r) : ¬ Committed r := by
  rintro (hactive | hsuperseded)
  · exact absurd (h.1.symm.trans hactive) (by decide)
  · exact absurd (h.1.symm.trans hsuperseded) (by decide)

/-! ### Changes -/

/-- What a call knows of the collection when it writes a new version: whether its pending scroll
and its active lookup showed everything there is of the entity. -/
structure Knows where
  scanned : Prop
  looked : Prop

/-- The effect of one write on the collection. -/
inductive Change (k : Knows) (s : Collection py) : Collection py → Prop
  | insert (r : KnowledgeRecord py) (hfresh : s.find? r.id = none) (hactive : r.status = .active)
      (hfirst : r.supersedesId = none) (hopen : r.supersededById = none)
      (hscanned : k.scanned → ∀ q ∈ s.rows, Pending q → identityOf q ≠ identityOf r)
      (hlooked : k.looked → ∀ q ∈ s.rows, q.status = .active → identityOf q ≠ identityOf r) :
      Change k s (s.upsert r)
  | stage (r p : KnowledgeRecord py) (hfresh : s.find? r.id = none) (hstaged : Staged r p.id)
      (hp : p ∈ s.rows) (hactive : p.status = .active) (hidentity : identityOf p = identityOf r)
      (hversion : r.version = p.version + 1)
      (hscanned : k.scanned → ∀ q ∈ s.rows, Pending q → identityOf q ≠ identityOf r) :
      Change k s (s.upsert r)
  | supersede (r p : KnowledgeRecord py) (now : Instant) (hr : r ∈ s.rows) (hstaged : Staged r p.id)
      (hp : p ∈ s.rows) (hactive : p.status = .active) :
      Change k s (s.modify p.id (supersede r.id now) fun _ h => h)
  | activate (r p : KnowledgeRecord py) (now : Instant) (hr : r ∈ s.rows) (hstaged : Staged r p.id)
      (hp : p ∈ s.rows) (hsuperseded : p.status = .superseded)
      (hnext : p.supersededById = some r.id) :
      Change k s (s.modify r.id (activate (committedExtensions r.extensions) now) fun _ h => h)

/-- The effect of a call, or of the part of it that was done before it was aborted. -/
abbrev Changes (k : Knows) : Collection py → Collection py → Prop := ReflTransGen (Change k)

/-! ### The chain -/

/-- The versions of each entity form a chain, with staged versions hanging off it. -/
structure Chain (s : Collection py) : Prop where
  previous : ∀ r ∈ s.rows, ∀ id, r.supersedesId = some id → ∃ p ∈ s.rows, p.id = id ∧ Committed p ∧
    identityOf p = identityOf r ∧ r.version = p.version + 1
  committed : ∀ r ∈ s.rows, Committed r → ∀ p ∈ s.rows, r.supersedesId = some p.id →
    p.status = .superseded ∧ p.supersededById = some r.id
  open_end : ∀ r ∈ s.rows, r.status = .active → r.supersededById = none
  staged : ∀ r ∈ s.rows, ¬ Committed r → ∃ id, Staged r id

lemma Chain.empty : Chain (Table.empty (@KnowledgeRecord.id py)) where
  previous := by simp
  committed := by simp
  open_end := by simp
  staged := by simp

section Step

variable {k : Knows} {s : Collection py} {r p : KnowledgeRecord py}

lemma ne_of_fresh (hfresh : s.find? r.id = none) {q : KnowledgeRecord py} (hq : q ∈ s.rows) :
    q.id ≠ r.id := Table.find?_eq_none.mp hfresh q hq

lemma Chain.insert (h : Chain s) (hfresh : s.find? r.id = none) (hactive : r.status = .active)
    (hfirst : r.supersedesId = none) (hopen : r.supersededById = none) :
    Chain (s.upsert r) := by
  have hmem : ∀ q, q ∈ (s.upsert r).rows ↔ q = r ∨ q ∈ s.rows := fun q =>
    Table.mem_upsert_of_fresh hfresh
  constructor
  · intro q hq id hid
    rcases (hmem q).mp hq with rfl | hq
    · rw [hfirst] at hid
      cases hid
    · obtain ⟨p, hp, hrest⟩ := h.previous q hq id hid
      exact ⟨p, (hmem p).mpr (.inr hp), hrest⟩
  · intro q hq hcommitted p hp hid
    rcases (hmem q).mp hq with rfl | hqs
    · rw [hfirst] at hid
      cases hid
    · obtain ⟨p', hp', hid', -⟩ := h.previous q hqs _ hid
      rcases (hmem p).mp hp with rfl | hps
      · exact absurd hid' (ne_of_fresh hfresh hp')
      · exact h.committed q hqs hcommitted p hps hid
  · intro q hq hq'
    rcases (hmem q).mp hq with rfl | hq
    · exact hopen
    · exact h.open_end q hq hq'
  · intro q hq hq'
    rcases (hmem q).mp hq with rfl | hq
    · exact absurd (.inl hactive) hq'
    · exact h.staged q hq hq'

lemma Chain.stage (h : Chain s) (hfresh : s.find? r.id = none) (hstaged : Staged r p.id)
    (hp : p ∈ s.rows) (hactive : p.status = .active) (hidentity : identityOf p = identityOf r)
    (hversion : r.version = p.version + 1) : Chain (s.upsert r) := by
  have hmem : ∀ q, q ∈ (s.upsert r).rows ↔ q = r ∨ q ∈ s.rows := fun q =>
    Table.mem_upsert_of_fresh hfresh
  constructor
  · intro q hq id hid
    rcases (hmem q).mp hq with rfl | hq
    · rw [hstaged.supersedes] at hid
      cases hid
      exact ⟨p, (hmem p).mpr (.inr hp), rfl, .inl hactive, hidentity, hversion⟩
    · obtain ⟨p', hp', hrest⟩ := h.previous q hq id hid
      exact ⟨p', (hmem p').mpr (.inr hp'), hrest⟩
  · intro q hq hcommitted p' hp' hid
    rcases (hmem q).mp hq with rfl | hqs
    · exact absurd hcommitted hstaged.pending.not_committed
    · obtain ⟨p'', hp'', hid', -⟩ := h.previous q hqs _ hid
      rcases (hmem p').mp hp' with rfl | hps
      · exact absurd hid' (ne_of_fresh hfresh hp'')
      · exact h.committed q hqs hcommitted p' hps hid
  · intro q hq hq'
    rcases (hmem q).mp hq with rfl | hq
    · exact hstaged.open_end
    · exact h.open_end q hq hq'
  · intro q hq hq'
    rcases (hmem q).mp hq with rfl | hq
    · exact ⟨p.id, hstaged⟩
    · exact h.staged q hq hq'

/-- A staged version and the record it was staged after are different. -/
lemma Chain.ne_previous (h : Chain s) (hr : r ∈ s.rows) (hstaged : Staged r p.id) :
    r.id ≠ p.id := by
  intro hid
  obtain ⟨p', hp', hid', hcommitted, -⟩ := h.previous r hr p.id hstaged.supersedes
  rw [Table.eq_of_key_eq hr hp' (hid.trans hid'.symm)] at hstaged
  exact hstaged.pending.not_committed hcommitted

/-- A change of one record that keeps what others refer to keeps the links to predecessors. -/
lemma Chain.previous_modify (h : Chain s) (hp : p ∈ s.rows) {f : KnowledgeRecord py → KnowledgeRecord py}
    {hf : ∀ r, r.id = p.id → (f r).id = p.id} (hcommitted : Committed p → Committed (f p))
    (hidentity : identityOf (f p) = identityOf p) (hversion : (f p).version = p.version)
    (hsupersedes : (f p).supersedesId = p.supersedesId) :
    ∀ q ∈ (s.modify p.id f hf).rows, ∀ id, q.supersedesId = some id →
      ∃ q' ∈ (s.modify p.id f hf).rows, q'.id = id ∧ Committed q' ∧ identityOf q' = identityOf q ∧
        q.version = q'.version + 1 := by
  have hmem : ∀ q, q ∈ (s.modify p.id f hf).rows ↔ q = f p ∨ q ∈ s.rows ∧ q.id ≠ p.id :=
    fun q => Table.mem_modify hp
  have hprevious : ∀ q ∈ s.rows, ∀ id, q.supersedesId = some id →
      ∃ q' ∈ (s.modify p.id f hf).rows, q'.id = id ∧ Committed q' ∧ identityOf q' = identityOf q ∧
        q.version = q'.version + 1 := by
    intro q hq id hid
    obtain ⟨p', hp', rfl, hcommitted', hidentity', hversion'⟩ := h.previous q hq id hid
    by_cases hid' : p'.id = p.id
    · obtain rfl := Table.eq_of_key_eq hp' hp hid'
      exact ⟨f p', (hmem _).mpr (.inl rfl), hf p' rfl, hcommitted hcommitted',
        hidentity.trans hidentity', by rw [hversion, hversion']⟩
    · exact ⟨p', (hmem p').mpr (.inr ⟨hp', hid'⟩), rfl, hcommitted', hidentity', hversion'⟩
  intro q hq id hid
  rcases (hmem q).mp hq with rfl | ⟨hqs, -⟩
  · rw [hidentity, hversion]
    exact hprevious p hp id (hsupersedes ▸ hid)
  · exact hprevious q hqs id hid

lemma Chain.supersede (h : Chain s) (next : Uuid) (now : Instant) (hp : p ∈ s.rows)
    (hactive : p.status = .active) :
    Chain (s.modify p.id (supersede next now) fun _ h => h) := by
  have hmem : ∀ q, q ∈ (s.modify p.id (Knowledge.supersede next now) fun _ h => h).rows ↔
      q = Knowledge.supersede next now p ∨ q ∈ s.rows ∧ q.id ≠ p.id := fun q => Table.mem_modify hp
  refine ⟨h.previous_modify hp (fun _ => .inr rfl) rfl rfl rfl, ?_, ?_, ?_⟩
  · intro q hq hcommitted p' hp' hid
    -- the row behind `q` was committed, so its predecessor is not the active `p`
    obtain ⟨q₀, hq₀, hid₀, hcommitted₀, hsupersedes⟩ : ∃ q₀ ∈ s.rows, q₀.id = q.id ∧
        Committed q₀ ∧ q₀.supersedesId = some p'.id := by
      rcases (hmem q).mp hq with rfl | ⟨hqs, -⟩
      · exact ⟨p, hp, rfl, .inl hactive, hid⟩
      · exact ⟨q, hqs, rfl, hcommitted, hid⟩
    rcases (hmem p').mp hp' with rfl | ⟨hps, -⟩
    · exact absurd ((h.committed q₀ hq₀ hcommitted₀ p hp hsupersedes).1.symm.trans hactive)
        (by decide)
    · rw [← hid₀]
      exact h.committed q₀ hq₀ hcommitted₀ p' hps hsupersedes
  · intro q hq hq'
    rcases (hmem q).mp hq with rfl | ⟨hqs, -⟩
    · cases hq'
    · exact h.open_end q hqs hq'
  · intro q hq hq'
    rcases (hmem q).mp hq with rfl | ⟨hqs, -⟩
    · exact absurd (.inr rfl) hq'
    · exact h.staged q hqs hq'

lemma Chain.activate (h : Chain s) (extensions : Extensions py) (now : Instant) (hr : r ∈ s.rows)
    (hstaged : Staged r p.id) (hp : p ∈ s.rows) (hsuperseded : p.status = .superseded)
    (hnext : p.supersededById = some r.id) :
    Chain (s.modify r.id (activate extensions now) fun _ h => h) := by
  have hmem : ∀ q, q ∈ (s.modify r.id (Knowledge.activate extensions now) fun _ h => h).rows ↔
      q = Knowledge.activate extensions now r ∨ q ∈ s.rows ∧ q.id ≠ r.id :=
    fun q => Table.mem_modify hr
  refine ⟨h.previous_modify hr (fun _ => .inl rfl) rfl rfl rfl, ?_, ?_, ?_⟩
  · intro q hq hcommitted p' hp' hid
    rcases (hmem q).mp hq with rfl | ⟨hqs, -⟩
    · -- the activated version itself
      have hid' : p'.id = p.id := Option.some.inj (hid.symm.trans hstaged.supersedes)
      rcases (hmem p').mp hp' with rfl | ⟨hps, -⟩
      · exact (h.ne_previous hr hstaged hid').elim
      · rw [Table.eq_of_key_eq hps hp hid']
        exact ⟨hsuperseded, hnext⟩
    · rcases (hmem p').mp hp' with rfl | ⟨hps, -⟩
      · -- nothing was staged after a staged version
        obtain ⟨p'', hp'', hid', hcommitted', -⟩ := h.previous q hqs _ hid
        rw [Table.eq_of_key_eq hp'' hr hid'] at hcommitted'
        exact absurd hcommitted' hstaged.pending.not_committed
      · exact h.committed q hqs hcommitted p' hps hid
  · intro q hq hq'
    rcases (hmem q).mp hq with rfl | ⟨hqs, -⟩
    · exact hstaged.open_end
    · exact h.open_end q hqs hq'
  · intro q hq hq'
    rcases (hmem q).mp hq with rfl | ⟨hqs, -⟩
    · exact absurd (.inl rfl) hq'
    · exact h.staged q hqs hq'

/-- Every write keeps the chain. -/
theorem Chain.change {t : Collection py} (h : Chain s) (hchange : Change k s t) : Chain t := by
  cases hchange with
  | insert r hfresh hactive hfirst hopen => exact h.insert hfresh hactive hfirst hopen
  | stage r p hfresh hstaged hp hactive hidentity hversion =>
    exact h.stage hfresh hstaged hp hactive hidentity hversion
  | supersede r p now _ _ hp hactive => exact h.supersede r.id now hp hactive
  | activate r p now hr hstaged hp hsuperseded hnext =>
    exact h.activate _ now hr hstaged hp hsuperseded hnext

theorem Chain.changes {t : Collection py} (h : Chain s) (hchanges : Changes k s t) : Chain t := by
  induction hchanges with
  | refl => exact h
  | tail _ hchange ih => exact ih.change hchange

end Step

end CyberBrain.Knowledge
