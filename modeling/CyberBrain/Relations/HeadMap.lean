import CyberBrain.Relations.Admissible
import Mathlib.Data.List.ReduceOption

/-!
# The heads of a level

`head_map` finds, among the points that it is given, the head of each entity.
-/

namespace CyberBrain.Relations

open Python Schemas Tenancy

variable {py : Runtime} {at' : Instant} {historical : Bool}
  {points : List (RelationPoint (KnowledgeRecord py))}

/-! ### Projections -/

lemma projectionDump_inj {i j : RelationIndex}
    (h : (projectionDump i).sortKeys = (projectionDump j).sortKeys) : i = j := by
  cases i with
  | ineligible =>
    cases j with
    | ineligible => rfl
    | eligible ownerKey targetKeys bundleDigest =>
      have := field_eq (by simp) (by simp) h (k := "eligible") rfl rfl
      cases this
  | eligible ownerKey targetKeys bundleDigest =>
    cases j with
    | ineligible =>
      have := field_eq (by simp) (by simp) h (k := "eligible") rfl rfl
      cases this
    | eligible ownerKey' targetKeys' bundleDigest' =>
      have hfield : ∀ {k a b}, _ → _ → Json.sortKeys a = Json.sortKeys b :=
        @field_eq _ _ (by simp) (by simp) h
      have howner := str_inj (hfield (k := "owner_key") rfl rfl)
      have htargets := map_dump_inj (fun _ _ => str_inj) (hfield (k := "target_keys") rfl rfl)
      have hdigest := str_inj (hfield (k := "bundle_digest") rfl rfl)
      obtain ⟨_, _⟩ := targetKeys
      obtain ⟨_, _⟩ := targetKeys'
      simp_all

/-- A record that verifies carries the projection of its payload. -/
lemma relationIndex_of_verifies {r : KnowledgeRecord py} (h : verifyProjection r = .ok ()) :
    ∃ projection, projectRecord r = .ok projection ∧
      r.extensions.relationIndex = some projection := by
  obtain ⟨projection, hprojection, h⟩ := bind_eq_ok.mp h
  rw [require_eq_ok] at h
  have hsame := (jsonDialect py).print_injective (String.ofList_injective h)
  refine ⟨projection, hprojection, ?_⟩
  cases hindex : r.extensions.relationIndex with
  | none =>
    rw [hindex] at hsame
    cases projection <;> cases hsame
  | some index =>
    rw [hindex] at hsame
    rw [projectionDump_inj hsame]

/-- The projection of a record about an entity names it as the owner, and the source of every edge
is the entity. -/
lemma owner_of_verifies {r : KnowledgeRecord py} {ref : EntityRef py}
    (h : verifyProjection r = .ok ()) (hentity : entityOf r = .ok ref) :
    ownerKey r = some ref.key ∧ (∀ edge ∈ r.bundle.edges, edge.source.key = ref.key) ∧
      r.extensions.relationIndex = some (.eligible ref.key (targetKeys r.bundle) r.bundle.digest) := by
  obtain ⟨projection, hprojection, hindex⟩ := relationIndex_of_verifies h
  have hmake : EntityRef.make py r.toEntityLabels r.context r.toIdentityValues = .ok ref := hentity
  simp only [projectRecord, projectRelations, hmake] at hprojection
  split_ifs at hprojection with hsource
  cases hprojection
  refine ⟨by rw [ownerKey, hindex], fun edge hedge => ?_, hindex⟩
  by_contra hne
  exact hsource ⟨edge, hedge, hne⟩

/-- A record with edges that verifies is about an entity. -/
lemma entity_of_verifies {r : KnowledgeRecord py} (h : verifyProjection r = .ok ())
    {edge : RelationEdge py} (hedge : edge ∈ r.bundle.edges) : ∃ ref, entityOf r = .ok ref := by
  obtain ⟨projection, hprojection, -⟩ := relationIndex_of_verifies h
  rcases hentity : entityOf r with e | ref
  · have hmake : EntityRef.make py r.toEntityLabels r.context r.toIdentityValues = .error e :=
      hentity
    simp only [projectRecord, projectRelations, hmake] at hprojection
    rw [if_pos (List.ne_nil_of_mem hedge)] at hprojection
    cases hprojection
  · exact ⟨ref, rfl⟩

/-! ### Candidates -/

/-- A point that counts for an entity. -/
lemma headCandidate_eq_ok {p : RelationPoint (KnowledgeRecord py)} {key : String}
    {r : KnowledgeRecord py} : headCandidate at' p = .ok (some (key, r)) ↔
      canonical (knowledgeSchema py) p = .ok r ∧ verifyProjection r = .ok () ∧
        (∃ ref, entityOf r = .ok ref ∧ ref.key = key) ∧ r.createdAt ≤ at' ∧ isStaged r = false := by
  rw [headCandidate, bind_eq_ok]
  constructor
  · rintro ⟨r', hr', h⟩
    obtain ⟨_, hverifies, h⟩ := bind_eq_ok.mp h
    rcases hentity : entityOf r' with e | ref
    · rw [hentity] at h
      cases h
    · simp only [hentity, pure, Except.pure, Except.ok.injEq, Option.ite_none_right_eq_some,
        Option.some.injEq, Prod.mk.injEq] at h
      obtain ⟨⟨hcreated, hstaged⟩, rfl, rfl⟩ := h
      exact ⟨hr', hverifies, ⟨ref, hentity, rfl⟩, hcreated, hstaged⟩
  · rintro ⟨hr, hverifies, ⟨ref, hentity, rfl⟩, hcreated, hstaged⟩
    refine ⟨r, hr, bind_eq_ok.mpr ⟨(), hverifies, ?_⟩⟩
    simp only [hentity, hcreated, hstaged, and_self, if_true]
    rfl

variable {candidates : List (KnowledgeRecord py)} {r : KnowledgeRecord py}

lemma mem_headVersions : r ∈ headVersions historical candidates ↔ r ∈ candidates ∧
    (historical = true → ∀ q ∈ candidates, q.version ≤ r.version) ∧
    (historical = false → r.status = .active) := by
  cases historical <;> simp [headVersions]

/-- The choice of a head, where it is not ambiguous. -/
lemma chooseHead_eq_some {head : Option (KnowledgeRecord py)}
    (h : chooseHead historical candidates = .ok head) :
    head = some r ↔ IsHead (· ∈ candidates) historical r := by
  constructor
  · rintro rfl
    unfold chooseHead at h
    split at h
    · cases h
    · rename_i r' hversions
      simp only [Except.ok.injEq, Option.ite_none_right_eq_some, Option.some.injEq] at h
      obtain ⟨hstatus, rfl⟩ := h
      have hmem : r' ∈ headVersions historical candidates := hversions ▸ List.mem_singleton_self _
      obtain ⟨hcandidate, hlatest, hactive⟩ := mem_headVersions.mp hmem
      refine ⟨hcandidate, hstatus, hlatest, hactive, fun q hq hversion hqactive => ?_⟩
      have hqmem : q ∈ headVersions historical candidates :=
        mem_headVersions.mpr ⟨hq, fun hh => hversion hh ▸ hlatest hh, hqactive⟩
      rw [hversions] at hqmem
      exact List.mem_singleton.mp hqmem
    · cases h
  · intro hhead
    have hmem : r ∈ headVersions historical candidates :=
      mem_headVersions.mpr ⟨hhead.version, hhead.latest, hhead.active⟩
    unfold chooseHead at h
    split at h
    · rename_i hversions
      rw [hversions] at hmem
      cases hmem
    · rename_i r' hversions
      rw [hversions, List.mem_singleton] at hmem
      subst hmem
      rw [if_pos hhead.status] at h
      cases h
      rfl
    · cases h

/-! ### The map -/

lemma nodup_reduceOption {α : Type*} {keys : List String} {found : List (Option (String × α))}
    (h : List.Forall₂ (fun key o => ∀ kv ∈ o, kv.1 = key) keys found) (hnodup : keys.Nodup) :
    (found.reduceOption.map (·.1)).Nodup := by
  refine hnodup.sublist ?_
  induction h with
  | nil => exact List.Sublist.refl _
  | @cons key o keys found ho _ ih =>
    have ih := ih hnodup.of_cons
    cases o with
    | none => exact ih.cons _
    | some kv =>
      rw [List.reduceOption_cons_of_some, List.map_cons, ho kv rfl]
      exact ih.cons_cons _

/-- The heads that `head_map` finds are those among the points that count. -/
theorem headMap_lookup {heads : List (String × KnowledgeRecord py)}
    (h : headMap at' historical points = .ok heads) (key : String) (r : KnowledgeRecord py) :
    heads.lookup key = some r ↔
      IsHead (fun q => ∃ p ∈ points, headCandidate at' p = .ok (some (key, q))) historical r := by
  obtain ⟨found, hfound, h⟩ := bind_eq_ok.mp h
  obtain ⟨chosen, hchosen, h⟩ := bind_eq_ok.mp h
  cases h
  let of (key : String) : List (KnowledgeRecord py) :=
    (found.reduceOption.filter (·.1 = key)).map (·.2)
  have hof (key : String) (q : KnowledgeRecord py) :
      q ∈ of key ↔ ∃ p ∈ points, headCandidate at' p = .ok (some (key, q)) := by
    rw [← mem_of_mapM hfound]
    simp [of, List.reduceOption_mem_iff]
  have hnodup : (chosen.reduceOption.map (·.1)).Nodup := by
    refine nodup_reduceOption ((forall₂_of_mapM hchosen).imp fun key o ho => ?_) (List.nodup_dedup _)
    obtain ⟨head, -, h⟩ := bind_eq_ok.mp ho
    cases h
    cases head <;> simp
  rw [lookup_eq_some_iff hnodup, List.reduceOption_mem_iff, mem_of_mapM hchosen]
  have hsame : (fun q => ∃ p ∈ points, headCandidate at' p = .ok (some (key, q))) = (· ∈ of key) :=
    funext fun q => propext (hof key q).symm
  rw [hsame]
  constructor
  · rintro ⟨key', -, ho⟩
    obtain ⟨head, hhead, h⟩ := bind_eq_ok.mp ho
    cases head with
    | none => cases h
    | some r' =>
      cases h
      exact (chooseHead_eq_some hhead).mp rfl
  · intro hhead
    have hkey : key ∈ (found.reduceOption.map (·.1)).dedup := by
      rw [List.mem_dedup]
      have hr := hhead.version
      simp only [of, List.mem_map, List.mem_filter, decide_eq_true_eq] at hr
      obtain ⟨kv, ⟨hkv, rfl⟩, -⟩ := hr
      exact List.mem_map_of_mem hkv
    refine ⟨key, hkey, ?_⟩
    obtain ⟨o, -, ho⟩ := ok_of_mapM hchosen hkey
    obtain ⟨head, hchoose, h⟩ := bind_eq_ok.mp ho
    rw [ho]
    cases h
    rw [(chooseHead_eq_some hchoose).mpr hhead]
    rfl

end CyberBrain.Relations
