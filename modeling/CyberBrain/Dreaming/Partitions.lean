import CyberBrain.Dreaming.Queue

/-!
# Partitions of durable work

A snapshot restores the authority that it was taken of, and its identity key determines the scope of
the authority.
-/

namespace CyberBrain.Dreaming

open Python Tenancy

variable {py : Runtime}

/-! ### Identity keys -/

/-- The identity key of an authority. -/
lemma identityKey_snapshot {a : CallerAuthority py} (h : a.Authenticated) :
    identityKey py a.snapshot =
      .ok (sortItems (a.grant.scope.asDict.map fun dv => (dv.1.text, dv.2))) := by
  rw [identityKey, restoreAuthority_snapshot h]
  rfl

/-- The values that an identity key lists determine the scope. -/
lemma asDict_injective {s t : IdentityScope py}
    (h : sortItems (s.asDict.map fun dv => (dv.1.text, dv.2)) =
      sortItems (t.asDict.map fun dv => (dv.1.text, dv.2))) : s = t := by
  have hmem (u : IdentityScope py) (d : IdentityDimension) (vs : List String) :
      (d.text, vs) ∈ sortItems (u.asDict.map fun dv => (dv.1.text, dv.2)) ↔
        u.values d ≠ ∅ ∧ vs = (u.values d).sorted := by
    rw [(sortItems_perm _).mem_iff, List.mem_map, ← IdentityScope.mem_asDict]
    constructor
    · rintro ⟨⟨e, ws⟩, hdv, heq⟩
      obtain ⟨htext, rfl⟩ := Prod.mk.inj heq
      obtain rfl := IdentityDimension.text_injective htext
      exact hdv
    · intro hdv
      exact ⟨(d, vs), hdv, rfl⟩
  have hsame (d : IdentityDimension) (vs : List String) :
      s.values d ≠ ∅ ∧ vs = (s.values d).sorted ↔ t.values d ≠ ∅ ∧ vs = (t.values d).sorted := by
    rw [← hmem s, ← hmem t, h]
  refine IdentityScope.ext fun d => ?_
  by_cases hs : s.values d = ∅
  · by_contra hne
    exact ((hsame d _).mpr ⟨fun ht => hne (hs.trans ht.symm), rfl⟩).1 hs
  · obtain ⟨-, hsorted⟩ := (hsame d _).mp ⟨hs, rfl⟩
    rw [← FrozenSet.ofList_sorted (s.values d), hsorted, FrozenSet.ofList_sorted]

/-! ### Round trips -/

lemma authenticated_of_make {mode : DeploymentMode} {scope : IdentityScope py}
    {operations : Finset OperationClass} {a : CallerAuthority py}
    (h : authorityForAuthenticatedScope py mode scope operations = .ok a) : a.Authenticated := by
  obtain ⟨rfl, rfl, rfl, -⟩ := authorityForAuthenticatedScope_eq_ok h
  exact h

/-- A snapshot restores its authority and is the snapshot of what it restores, and two snapshots
have the same identity key when their authorities have the same scope. -/
theorem snapshots_round_trip {mode mode' : DeploymentMode} {scope scope' : IdentityScope py}
    {operations operations' : Finset OperationClass} {a b : CallerAuthority py}
    (ha : authorityForAuthenticatedScope py mode scope operations = .ok a)
    (hb : authorityForAuthenticatedScope py mode' scope' operations' = .ok b) :
    restoreAuthority py (authoritySnapshot none (some a)) = .ok a ∧
      (identityKey py a.snapshot = identityKey py b.snapshot ↔ a.grant.scope = b.grant.scope) ∧
      ∀ c, restoreAuthority py a.snapshot = .ok c → c.snapshot = a.snapshot := by
  have hrestore := restoreAuthority_snapshot (authenticated_of_make ha)
  refine ⟨hrestore, ⟨fun hkey => ?_, fun hscope => ?_⟩, fun c hc => ?_⟩
  · rw [identityKey_snapshot (authenticated_of_make ha),
      identityKey_snapshot (authenticated_of_make hb)] at hkey
    exact asDict_injective (Except.ok.inj hkey)
  · rw [identityKey_snapshot (authenticated_of_make ha),
      identityKey_snapshot (authenticated_of_make hb), hscope]
  · rw [hrestore] at hc
    rw [Except.ok.inj hc]

theorem snapshots_round_trip_session :
    restoreAuthority Runtime.ascii (authoritySnapshot none (some sessionCaller)) =
        .ok sessionCaller ∧
      (identityKey Runtime.ascii sessionCaller.snapshot =
          identityKey Runtime.ascii sessionCaller.snapshot ↔
        sessionCaller.grant.scope = sessionCaller.grant.scope) ∧
      ∀ c, restoreAuthority Runtime.ascii sessionCaller.snapshot = .ok c →
        c.snapshot = sessionCaller.snapshot :=
  have hcaller : sessionCaller.Authenticated := rfl
  snapshots_round_trip hcaller hcaller

end CyberBrain.Dreaming
