import CyberBrain.Relations.Partition

/-!
# Admissible paths

What a traversal is to find: walks along accepted edges, each of which leads from the head of its
source entity to the record it is anchored at, the head of its target entity.
-/

namespace CyberBrain.Relations

open Python Schemas Tenancy RelationTraversal

variable {py : Runtime}

/-! ### Canonical records -/

section Canonical

variable {ρ : Type} {schema : RecordSchema ρ} {p : RelationPoint ρ} {r : ρ}

lemma canonical_eq_ok : canonical schema p = .ok r ↔
    p.payload = .dump r ∧ schema.recordId r = p.id := by
  rcases hp : p.payload with r' | ⟨fields, created⟩
  · simp only [canonical, hp, Payload.dump.injEq]
    constructor
    · intro h
      split_ifs at h with hid
      cases h
      exact ⟨rfl, hid⟩
    · rintro ⟨rfl, hid⟩
      rw [if_pos hid]
  · simp [canonical, hp]

lemma fields_of_canonical (h : canonical schema p = .ok r) : p.fields schema = schema.fields r := by
  rw [RelationPoint.fields, (canonical_eq_ok.mp h).1]

lemma createdAt_of_canonical (h : canonical schema p = .ok r) :
    p.createdAt schema = some (schema.createdAt r) := by
  rw [RelationPoint.createdAt, (canonical_eq_ok.mp h).1]

lemma eq_of_canonical_id {points : RelationPoints ρ} {p' : RelationPoint ρ} {r' : ρ}
    (hp : p ∈ points.rows) (hp' : p' ∈ points.rows) (hr : canonical schema p = .ok r)
    (hr' : canonical schema p' = .ok r') (hid : schema.recordId r = schema.recordId r') :
    r = r' := by
  obtain ⟨hdump, hpid⟩ := canonical_eq_ok.mp hr
  obtain ⟨hdump', hpid'⟩ := canonical_eq_ok.mp hr'
  have hsame : p = p' := Table.eq_of_key_eq hp hp' (hpid.symm.trans (hid.trans hpid'))
  rw [hsame, hdump'] at hdump
  cases hdump
  rfl

end Canonical

/-- The canonical Knowledge of a store. -/
def Canonical (store : RelationStore py) (r : KnowledgeRecord py) : Prop :=
  (∃ p ∈ store.knowledge.rows, canonical (knowledgeSchema py) p = .ok r) ∧
    r.recordClass = .knowledge

/-- The episodes of a store. -/
def CanonicalEpisode (store : RelationStore py) (r : EpisodeRecord) : Prop :=
  ∃ p ∈ store.episodes.rows, canonical episodeSchema p = .ok r

variable {store : RelationStore py} {at' : Instant}

/-- Canonical records with the same id are the same. -/
lemma Canonical.eq_of_id {r r' : KnowledgeRecord py} (h : Canonical store r)
    (h' : Canonical store r') (hid : r.id = r'.id) : r = r' := by
  obtain ⟨⟨p, hp, hr⟩, -⟩ := h
  obtain ⟨⟨p', hp', hr'⟩, -⟩ := h'
  exact eq_of_canonical_id hp hp' hr hr' hid

lemma CanonicalEpisode.eq_of_id {r r' : EpisodeRecord} (h : CanonicalEpisode store r)
    (h' : CanonicalEpisode store r') (hid : r.id = r'.id) : r = r' := by
  obtain ⟨p, hp, hr⟩ := h
  obtain ⟨p', hp', hr'⟩ := h'
  exact eq_of_canonical_id hp hp' hr hr' hid

/-! ### Entities -/

/-- The scope of an entity is the partition of its record. -/
lemma scope_of_entityOf {r : KnowledgeRecord py} {ref : EntityRef py} (h : entityOf r = .ok ref) :
    ref.scope.toIdentityValues = r.toIdentityValues := by
  obtain ⟨scope, hscope, h⟩ := bind_eq_ok.mp h
  split_ifs at h
  cases h
  exact RelationScope.make_ok hscope

/-- The entities that the canonical Knowledge of a store is about, or that its edges name. -/
def Mentioned (store : RelationStore py) (e : EntityRef py) : Prop :=
  ∃ r, Canonical store r ∧
    (entityOf r = .ok e ∨ ∃ edge ∈ r.bundle.edges, e = edge.source ∨ e = edge.target)

/-- The texts of which the keys of the entities of a store are digests. -/
def entityTexts (store : RelationStore py) : Set String :=
  {s | ∃ e, Mentioned store e ∧ s = canonicalJson py e.dump}

/-- Where the digest function has no collisions, the key of an entity determines it. -/
lemma Mentioned.eq_of_key (hsha : Set.InjOn py.sha256 (entityTexts store)) {e f : EntityRef py}
    (he : Mentioned store e) (hf : Mentioned store f) (h : e.key = f.key) : e = f :=
  EntityRef.dump_inj (sortKeys_eq_of_fingerprint hsha ⟨e, he, rfl⟩ ⟨f, hf, rfl⟩ h)

/-! ### Heads -/

/-- A version of an entity at a time. -/
structure Version (store : RelationStore py) (at' : Instant) (key : String)
    (r : KnowledgeRecord py) : Prop where
  canonical : Canonical store r
  entity : ∃ ref, entityOf r = .ok ref ∧ ref.key = key
  created : r.createdAt ≤ at'
  not_staged : isStaged r = false

/-- The versions of an entity lie in its partition. -/
lemma Version.partition {e : EntityRef py} {r : KnowledgeRecord py}
    (h : Version store at' e.key r) (hsha : Set.InjOn py.sha256 (entityTexts store))
    (he : Mentioned store e) : r.toIdentityValues = e.scope.toIdentityValues := by
  obtain ⟨ref, hentity, hkey⟩ := h.entity
  obtain rfl : ref = e := Mentioned.eq_of_key hsha ⟨r, h.canonical, .inl hentity⟩ he hkey
  exact (scope_of_entityOf hentity).symm

/-- A version whose stored projection names the entity. -/
def NamedVersion (store : RelationStore py) (at' : Instant) (key : String)
    (r : KnowledgeRecord py) : Prop :=
  Version store at' key r ∧ ownerKey r = some key

/-- The head among the versions of an entity: the only one of the latest version, or the only
active one. -/
structure IsHead (versions : KnowledgeRecord py → Prop) (historical : Bool)
    (r : KnowledgeRecord py) : Prop where
  version : versions r
  status : r.status = .active ∨ r.status = .superseded
  latest : historical = true → ∀ q, versions q → q.version ≤ r.version
  active : historical = false → r.status = .active
  unique : ∀ q, versions q → (historical = true → q.version = r.version) →
    (historical = false → q.status = .active) → q = r

/-! ### Hops and walks -/

section Walks

variable (store) (policy : TraversalPolicy) (at' : Instant) (scope : RelationScope py)
  (versions : String → KnowledgeRecord py → Prop)

/-- Evidence that is there, eligible and in the partition. -/
def Proven (ref : EvidenceRef) : Prop :=
  match ref.recordType with
  | .knowledge => ∃ r, Canonical store r ∧ r.id = ref.id ∧ eligible at' r ∧
      sharesPartition scope r.toIdentityValues
  | .episode   => ∃ r, CanonicalEpisode store r ∧ r.id = ref.id ∧ eligibleEpisode at' r ∧
      r.eventTime ≤ at' ∧ sharesPartition scope (episodeIdentity r)

/-- An edge that may be followed between two heads. -/
structure Hop (source target : KnowledgeRecord py) (edge : RelationEdge py) : Prop where
  owned : edge ∈ source.bundle.edges
  valid : edgeValid policy at' edge
  source_head : IsHead (versions edge.source.key) policy.asOf.isSome source
  target_head : IsHead (versions edge.target.key) policy.asOf.isSome target
  anchored : target.id = edge.targetRecordId
  source_eligible : eligible at' source
  target_eligible : eligible at' target
  source_partition : source.toIdentityValues = scope.toIdentityValues
  target_partition : target.toIdentityValues = scope.toIdentityValues
  proven : ∀ ref ∈ edge.evidence, Proven store at' scope ref

/-- A record that the search starts from. -/
structure Seed (ids : List Uuid) (r : KnowledgeRecord py) : Prop where
  canonical : Canonical store r
  chosen : r.id ∈ ids
  partition : r.toIdentityValues = scope.toIdentityValues

/-- A move along an edge, from a key and its record to the next. -/
inductive Move : String → KnowledgeRecord py → String → KnowledgeRecord py → TraversalStep → Prop
  | outward {source target : KnowledgeRecord py} {edge : RelationEdge py}
      (hhop : Hop store policy at' scope versions source target edge)
      (hfollow : followsOut policy edge) :
      Move edge.source.key source edge.target.key target (stepAlong source edge .outward)
  | inward {source target : KnowledgeRecord py} {edge : RelationEdge py}
      (hhop : Hop store policy at' scope versions source target edge)
      (hfollow : followsIn policy edge) :
      Move edge.target.key target edge.source.key source (stepAlong source edge .inward)

/-- A walk from one of the seeds over pairwise different entities, with the key and the record it
has come to. -/
inductive Walk (seeds : KnowledgeRecord py → Prop) :
    TraversalPath → String → KnowledgeRecord py → Prop
  | seed {r : KnowledgeRecord py} {ref : EntityRef py} (hseed : seeds r)
      (hentity : entityOf r = .ok ref) : Walk seeds (seedPath (ref, r)) ref.key r
  | move {p : TraversalPath} {key key' : String} {r r' : KnowledgeRecord py} {step : TraversalStep}
      (hwalk : Walk seeds p key r)
      (hmove : Move store policy at' scope versions key r key' r' step)
      (hnew : key' ∉ p.nodeKeys) : Walk seeds (p.extend key' r'.id step) key' r'

end Walks

section Lemmas

variable {policy : TraversalPolicy} {scope : RelationScope py}
  {versions versions' : String → KnowledgeRecord py → Prop} {seeds : KnowledgeRecord py → Prop}
  {p : TraversalPath} {key : String} {r : KnowledgeRecord py}

lemma nodup_extend {key : String} {id : Uuid} {step : TraversalStep} (h : p.nodeKeys.Nodup)
    (hnew : key ∉ p.nodeKeys) : (p.extend key id step).nodeKeys.Nodup := by
  rw [TraversalPath.extend, ← List.concat_eq_append]
  exact h.concat hnew

/-- A walk never comes to an entity twice. -/
lemma Walk.nodup (h : Walk store policy at' scope versions seeds p key r) : p.nodeKeys.Nodup := by
  induction h with
  | seed => exact List.nodup_singleton _
  | move _ _ hnew ih => exact nodup_extend ih hnew

/-- A walk ends where it has come to. -/
lemma Walk.last (h : Walk store policy at' scope versions seeds p key r) :
    p.lastKey = key ∧ p.recordIds.getLast? = some r.id := by
  cases h with
  | seed => exact ⟨rfl, rfl⟩
  | move => simp [TraversalPath.lastKey, TraversalPath.extend]

lemma length_extend {key : String} {id : Uuid} {step : TraversalStep} :
    (p.extend key id step).steps.length = p.steps.length + 1 := by
  simp [TraversalPath.extend]

/-- A move leads from an eligible head of the partition to another. -/
lemma Move.heads {key' : String} {r' : KnowledgeRecord py} {step : TraversalStep}
    (h : Move store policy at' scope versions key r key' r' step) :
    (IsHead (versions key) policy.asOf.isSome r ∧ eligible at' r ∧
        r.toIdentityValues = scope.toIdentityValues) ∧
      IsHead (versions key') policy.asOf.isSome r' ∧ eligible at' r' ∧
        r'.toIdentityValues = scope.toIdentityValues := by
  cases h with
  | outward hhop =>
    exact ⟨⟨hhop.source_head, hhop.source_eligible, hhop.source_partition⟩, hhop.target_head,
      hhop.target_eligible, hhop.target_partition⟩
  | inward hhop =>
    exact ⟨⟨hhop.target_head, hhop.target_eligible, hhop.target_partition⟩, hhop.source_head,
      hhop.source_eligible, hhop.source_partition⟩

/-- A walk comes to a record of the partition about the entity. -/
lemma Walk.standing {ids : List Uuid} (hversions : ∀ key r, versions key r → Version store at' key r)
    (h : Walk store policy at' scope versions (Seed store scope ids) p key r) :
    Canonical store r ∧ (∃ ref, entityOf r = .ok ref ∧ ref.key = key) ∧
      r.toIdentityValues = scope.toIdentityValues := by
  cases h with
  | seed hseed hentity => exact ⟨hseed.canonical, ⟨_, hentity, rfl⟩, hseed.partition⟩
  | move _ hmove =>
    obtain ⟨-, hhead, -, hpartition⟩ := hmove.heads
    have hversion := hversions _ _ hhead.version
    exact ⟨hversion.canonical, hversion.entity, hpartition⟩

/-- Where there is a walk, there is one of any fewer steps. -/
lemma Walk.shorter (h : Walk store policy at' scope versions seeds p key r) {n : ℕ}
    (hn : n ≤ p.steps.length) :
    ∃ p' key' r', Walk store policy at' scope versions seeds p' key' r' ∧ p'.steps.length = n := by
  induction h with
  | seed hseed hentity => exact ⟨_, _, _, .seed hseed hentity, (Nat.le_zero.mp hn).symm⟩
  | @move p key key' r r' step hwalk hmove hnew ih =>
    rw [length_extend] at hn
    by_cases hle : n ≤ p.steps.length
    · exact ih hle
    · exact ⟨_, _, _, .move hwalk hmove hnew, by rw [length_extend]; omega⟩

/-- There is one head at most. -/
lemma IsHead.eq {versions : KnowledgeRecord py → Prop} {historical : Bool}
    {r r' : KnowledgeRecord py} (h : IsHead versions historical r)
    (h' : IsHead versions historical r') : r = r' :=
  h'.unique r h.version
    (fun hh => le_antisymm (h'.latest hh r h.version) (h.latest hh r' h'.version)) h.active

end Lemmas

end CyberBrain.Relations
