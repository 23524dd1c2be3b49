import CyberBrain.Foundation.Grouped
import CyberBrain.Migrations.Legacy

/-!
# Repairs of duplicates

Raw points that claim the same entity are grouped, and all but the one of the highest rank are to be
superseded. The groups are made of the raw points, whatever the mapper makes of them.
-/

namespace CyberBrain.Migrations

open Python Relations Schemas
open Knowledge (isFalsy pyStr)

variable (py : Runtime) (reading : TextReading)

/-- `DuplicateActiveRepair`. -/
structure DuplicateActiveRepair where
  identity : EntityLabels
  winnerPointId : Option String
  supersededPointIds : List String
  requiresReview : Bool
  reason : String
  deriving DecidableEq

/-! ### Ranks -/

/-- `timestamp.timestamp()`. -/
def posixTime (time : Instant) : ℚ :=
  let seconds : ℚ := (time.micros - epochDays * 86400000000 : ℤ) / 1000000
  if seconds < 0 then -Binary64.round (-seconds) else Binary64.round seconds

/-- `_version_rank`. A point without a time ranks below all others. -/
def versionRank (point : LegacyPoint) : Except Exc (ℕ ×ₗ WithBot ℚ) := do
  let time ← timestamp py reading (field point.payload "timestamp")
  let rank : WithBot ℚ := time.elim ⊥ fun t => posixTime t
  pure (toLex (positiveInt reading (field point.payload "version") 0, rank))

/-! ### Groups -/

/-- The entity that a point claims as an active one. -/
def claimedIdentity (point : LegacyPoint) : Option EntityLabels :=
  if py.casefold (textOr py (field point.payload "status")) = "active" ∧
      Named (labelsOf py point.payload) then some (labelsOf py point.payload)
  else none

/-- `str(point["id"])`. -/
def idText (point : LegacyPoint) : Except Exc String := do
  let id ← orRaise point.id (.keyError "id")
  pure (pyStr py id)

/-- The repair of a group with ranks, the highest first. -/
def repairRanked (identity : EntityLabels) (ranked : List (LegacyPoint × (ℕ ×ₗ WithBot ℚ))) :
    Except Exc (Option DuplicateActiveRepair) :=
  match ranked with
  | []            => pure none
  | top :: others =>
    if (others.filter fun member => member.2 = top.2) ≠ [] then
      pure (some {
        identity
        winnerPointId := none
        supersededPointIds := []
        requiresReview := true
        reason := "duplicate_active_top_rank_tie" })
    else do
      let winner ← idText py top.1
      let superseded ← others.mapM fun member => idText py member.1
      pure (some {
        identity
        winnerPointId := some winner
        supersededPointIds := superseded
        requiresReview := false
        reason := "highest_version_then_latest_timestamp" })

/-- The body of the loop over groups. -/
def repairGroup (points : List LegacyPoint) (identity : EntityLabels) :
    Except Exc (Option DuplicateActiveRepair) := do
  let members := Grouped.group (claimedIdentity py) points identity
  if members.length < 2 then pure none
  else
    let ranks ← members.mapM fun member => do pure (member, ← versionRank py reading member)
    repairRanked py identity (ranks.insertionSort fun a b => b.2 ≤ a.2)

/-- `duplicate_active_repairs`. -/
def duplicateActiveRepairs (points : List LegacyPoint) :
    Except Exc (List DuplicateActiveRepair) := do
  let repairs ← (Grouped.keys (claimedIdentity py) points).mapM (repairGroup py reading points)
  pure (repairs.filterMap id)

/-! ### The leader of a group -/

/-- Both ranks are read, and that of the first point is higher. -/
def Outranks (p q : LegacyPoint) : Prop :=
  ∃ r r', versionRank py reading p = .ok r ∧ versionRank py reading q = .ok r' ∧ r' < r

/-- A point outranks all others that claim its entity. -/
def Leads (points : List LegacyPoint) (identity : EntityLabels) (leader : LegacyPoint)
    (others : List LegacyPoint) : Prop :=
  (leader :: others).Perm (Grouped.group (claimedIdentity py) points identity) ∧
    ∀ p ∈ others, Outranks py reading leader p

/-- What a repair says about its group. -/
structure Settles (points : List LegacyPoint) (repair : DuplicateActiveRepair) : Prop where
  review : repair.requiresReview = true → repair.winnerPointId = none ∧
    repair.supersededPointIds = [] ∧ ∀ w ps, ¬ Leads py reading points repair.identity w ps
  winner : repair.requiresReview = false → ∃ w ps, Leads py reading points repair.identity w ps ∧
    (∃ id, idText py w = .ok id ∧ repair.winnerPointId = some id) ∧
      ps.mapM (idText py) = .ok repair.supersededPointIds

section Leaders

variable {py reading} {p q leader leader' : LegacyPoint} {points others others' : List LegacyPoint}
  {identity : EntityLabels} {repair : DuplicateActiveRepair}

lemma Outranks.asymm (h : Outranks py reading p q) : ¬ Outranks py reading q p := by
  obtain ⟨r, r', hr, hr', hlt⟩ := h
  rintro ⟨s, s', hs, hs', hlt'⟩
  cases Except.ok.inj (hr.symm.trans hs')
  cases Except.ok.inj (hr'.symm.trans hs)
  exact lt_asymm hlt hlt'

/-- A group has at most one leader. -/
lemma Leads.unique (h : Leads py reading points identity leader others)
    (h' : Leads py reading points identity leader' others') :
    leader = leader' ∧ others.Perm others' := by
  have hperm := h.1.trans h'.1.symm
  have heq : leader = leader' := by
    by_contra hne
    have hleader := (List.mem_cons.mp (hperm.subset List.mem_cons_self)).resolve_left hne
    have hleader' := (List.mem_cons.mp (hperm.symm.subset List.mem_cons_self)).resolve_left
      (Ne.symm hne)
    exact (h.2 _ hleader').asymm (h'.2 _ hleader)
  subst heq
  exact ⟨rfl, List.Perm.cons_inv hperm⟩

/-- The first of the ranked members leads the group, or another one has its rank. -/
lemma repairRanked_spec {ranked : List (LegacyPoint × (ℕ ×ₗ WithBot ℚ))} {found}
    (hranks : ∀ m ∈ ranked, versionRank py reading m.1 = .ok m.2)
    (hsorted : ranked.Pairwise fun a b => b.2 ≤ a.2)
    (hperm : (ranked.map Prod.fst).Perm (Grouped.group (claimedIdentity py) points identity))
    (hne : ranked ≠ []) (h : repairRanked py identity ranked = .ok found) :
    ∃ repair, found = some repair ∧ repair.identity = identity ∧
      Settles py reading points repair := by
  cases ranked with
  | nil => exact absurd rfl hne
  | cons top others =>
    obtain ⟨htop, hothers⟩ := List.forall_mem_cons.mp hranks
    obtain ⟨hbelow, -⟩ := List.pairwise_cons.mp hsorted
    rw [List.map_cons] at hperm
    rw [repairRanked] at h
    split_ifs at h with htied
    · cases h
      obtain ⟨tie, htie⟩ := List.exists_mem_of_ne_nil _ htied
      obtain ⟨htie, hequal⟩ := List.mem_filter.mp htie
      have hrank : tie.2 = top.2 := of_decide_eq_true hequal
      refine ⟨_, rfl, rfl, ⟨fun _ => ⟨rfl, rfl, ?_⟩, fun hfalse => by cases hfalse⟩⟩
      -- the leader would outrank the other one of the two, or be outranked by the first
      rintro w ps ⟨hleads, houtranks⟩
      have hgroup := hleads.trans hperm.symm
      have hnot : ∀ m ∈ top :: others, ¬ Outranks py reading m.1 top.1 := by
        rintro m hm ⟨r, r', hr, hr', hlt⟩
        cases Except.ok.inj (hr'.symm.trans htop)
        cases Except.ok.inj (hr.symm.trans (hranks m hm))
        rcases List.mem_cons.mp hm with rfl | hm
        · exact lt_irrefl _ hlt
        · exact not_lt.mpr (hbelow m hm) hlt
      have hw : w ∈ (top :: others).map Prod.fst := hgroup.subset List.mem_cons_self
      obtain ⟨m, hm, rfl⟩ := List.mem_map.mp hw
      have hfirst : m.1 = top.1 := by
        by_contra hne
        have hmem := (List.mem_cons.mp (hgroup.symm.subset List.mem_cons_self)).resolve_left
          (Ne.symm hne)
        exact hnot m hm (houtranks _ hmem)
      rw [hfirst] at hgroup houtranks
      obtain ⟨r, r', hr, hr', hlt⟩ := houtranks tie.1
        ((List.Perm.cons_inv hgroup).symm.subset (List.mem_map_of_mem htie))
      cases Except.ok.inj (hr.symm.trans htop)
      cases Except.ok.inj (hr'.symm.trans (hothers tie htie))
      exact lt_irrefl _ (hrank ▸ hlt)
    · obtain ⟨id, hid, h⟩ := bind_eq_ok.mp h
      obtain ⟨ids, hids, h⟩ := bind_eq_ok.mp h
      cases h
      refine ⟨_, rfl, rfl, ⟨fun htrue => (by cases htrue), fun _ => ⟨top.1, others.map Prod.fst,
        ⟨hperm, ?_⟩, ⟨id, hid, rfl⟩, ?_⟩⟩⟩
      · rintro p hp
        obtain ⟨m, hm, rfl⟩ := List.mem_map.mp hp
        refine ⟨_, _, htop, hothers m hm, lt_of_le_of_ne (hbelow m hm) fun hequal => ?_⟩
        exact htied (List.ne_nil_of_mem (List.mem_filter.mpr ⟨hm, decide_eq_true hequal⟩))
      · rw [List.mapM_map]
        exact hids

/-- The repair of an entity with several claimants. -/
lemma repairGroup_spec {found}
    (hlength : 2 ≤ (Grouped.group (claimedIdentity py) points identity).length)
    (h : repairGroup py reading points identity = .ok found) :
    ∃ repair, found = some repair ∧ repair.identity = identity ∧
      Settles py reading points repair := by
  rw [repairGroup] at h
  rw [if_neg (not_lt.mpr hlength)] at h
  obtain ⟨ranks, hranks, h⟩ := bind_eq_ok.mp h
  have hread : List.Forall₂ (fun p m => versionRank py reading p = .ok m.2 ∧ m.1 = p)
      (Grouped.group (claimedIdentity py) points identity) ranks := by
    refine (forall₂_of_mapM hranks).imp fun p m hm => ?_
    obtain ⟨rank, hrank, heq⟩ := bind_eq_ok.mp hm
    cases heq
    exact ⟨hrank, rfl⟩
  have hsorted := List.perm_insertionSort
    (fun a b : LegacyPoint × (ℕ ×ₗ WithBot ℚ) => b.2 ≤ a.2) ranks
  have hfst : ranks.map Prod.fst = Grouped.group (claimedIdentity py) points identity := by
    generalize Grouped.group (claimedIdentity py) points identity = members at hread
    clear hranks hlength hsorted h
    induction hread with
    | nil => rfl
    | cons hm _ ih => rw [List.map_cons, hm.2, ih]
  refine repairRanked_spec ?_ ?_ ((hsorted.map _).trans (by rw [hfst])) ?_ h
  · intro m hm
    obtain ⟨p, -, hp, heq⟩ := exists_of_forall₂ hread (hsorted.mem_iff.mp hm)
    rw [heq]
    exact hp
  · exact List.pairwise_insertionSort _ ranks
  · intro hnil
    rw [hnil, List.nil_perm] at hsorted
    rw [← hfst, hsorted] at hlength
    cases hlength

/-! ### All repairs -/

variable {repairs : List DuplicateActiveRepair}

/-- There is one repair for each entity with several claimants, and it settles them. -/
theorem repairs_settle (h : duplicateActiveRepairs py reading points = .ok repairs) :
    repairs.map (·.identity) = (Grouped.keys (claimedIdentity py) points).filter
        (fun identity => 2 ≤ (Grouped.group (claimedIdentity py) points identity).length) ∧
      ∀ repair ∈ repairs, Settles py reading points repair := by
  obtain ⟨found, hfound, hrepairs⟩ := bind_eq_ok.mp h
  cases hrepairs
  obtain ⟨found', hfound', hidentities, hsettled⟩ := exists_mapM_option
    (f := repairGroup py reading points)
    (p := fun identity => 2 ≤ (Grouped.group (claimedIdentity py) points identity).length)
    (g := DuplicateActiveRepair.identity)
    (Q := Settles py reading points)
    (l := Grouped.keys (claimedIdentity py) points) fun identity hidentity => by
      obtain ⟨o, -, ho⟩ := ok_of_mapM hfound hidentity
      by_cases hlength : 2 ≤ (Grouped.group (claimedIdentity py) points identity).length
      · obtain ⟨repair, rfl, hidentity, hsettles⟩ := repairGroup_spec hlength ho
        exact .inl ⟨hlength, repair, ho, hidentity, hsettles⟩
      · refine .inr ⟨hlength, ?_⟩
        rw [repairGroup, if_pos (not_le.mp hlength)]
        rfl
  cases Except.ok.inj (hfound.symm.trans hfound')
  exact ⟨hidentities, hsettled⟩

end Leaders

/-! ### What becomes active -/

variable (now later : Instant)

/-- The entity under which the mapper makes a point active. -/
def activeIdentity (point : LegacyPoint) : Option EntityLabels :=
  match planKnowledge py reading now later point with
  | .error _ => none
  | .ok plan =>
    if plan.disposition = .migrateActive then plan.knowledge.map (·.toEntityLabels) else none

/-- The points that become active under an entity. -/
def actives (points : List LegacyPoint) (identity : EntityLabels) : List LegacyPoint :=
  Grouped.group (activeIdentity py reading now later) points identity

/-- The id of a point is superseded. -/
def marked (repairs : List DuplicateActiveRepair) (point : LegacyPoint) : Bool :=
  match idText py point with
  | .error _ => false
  | .ok id   => id ∈ repairs.flatMap (·.supersededPointIds)

/-- One of the points that become active is not superseded, and it outranks the others. -/
def KeepsOne (points : List LegacyPoint) (repairs : List DuplicateActiveRepair)
    (identity : EntityLabels) : Prop :=
  ∃ kept, (actives py reading now later points identity).filter (fun p => !marked py repairs p) =
      [kept] ∧
    ∀ p ∈ actives py reading now later points identity, marked py repairs p →
      Outranks py reading kept p

/-- The leader of a group outranks a point with this id. -/
def Beaten (points : List LegacyPoint) (p : LegacyPoint) : Prop :=
  ∃ identity leader others q id, Leads py reading points identity leader others ∧ q ∈ others ∧
    idText py q = .ok id ∧ idText py p = .ok id

section Kept

variable {py reading now later} {points others : List LegacyPoint} {identity : EntityLabels}
  {repairs : List DuplicateActiveRepair} {p leader : LegacyPoint}

lemma marked_iff {id : String} (hid : idText py p = .ok id) :
    marked py repairs p ↔ ∃ repair ∈ repairs, id ∈ repair.supersededPointIds := by
  simp [marked, hid]

/-- Exactly the ids of points that are beaten are superseded. -/
lemma marked_iff_beaten (h : duplicateActiveRepairs py reading points = .ok repairs) :
    marked py repairs p ↔ Beaten py reading points p := by
  obtain ⟨hidentities, hsettled⟩ := repairs_settle h
  constructor
  · intro hmarked
    cases hid : idText py p with
    | error e => simp [marked, hid] at hmarked
    | ok id =>
      obtain ⟨repair, hrepair, hmem⟩ := (marked_iff hid).mp hmarked
      obtain ⟨hreview, hwinner⟩ := hsettled repair hrepair
      cases hflag : repair.requiresReview with
      | true =>
        rw [(hreview hflag).2.1] at hmem
        cases hmem
      | false =>
        obtain ⟨w, ps, hleads, -, hids⟩ := hwinner hflag
        obtain ⟨q, hq, hqid⟩ := (mem_of_mapM hids).mp hmem
        exact ⟨_, w, ps, q, id, hleads, hq, hqid, hid⟩
  · rintro ⟨identity, leader, others, q, id, hleads, hq, hqid, hid⟩
    have hlength : 2 ≤ (Grouped.group (claimedIdentity py) points identity).length := by
      rw [← hleads.1.length_eq, List.length_cons]
      exact Nat.succ_le_succ (List.length_pos_of_mem hq)
    have hkey : identity ∈ Grouped.keys (claimedIdentity py) points := by
      obtain ⟨hmem, hclaims⟩ := Grouped.mem_group.mp (hleads.1.subset List.mem_cons_self)
      exact Grouped.mem_keys.mpr ⟨leader, hmem, hclaims⟩
    have hrepaired : identity ∈ repairs.map (·.identity) := by
      rw [hidentities]
      exact List.mem_filter.mpr ⟨hkey, decide_eq_true hlength⟩
    obtain ⟨repair, hrepair, rfl⟩ := List.mem_map.mp hrepaired
    obtain ⟨hreview, hwinner⟩ := hsettled repair hrepair
    cases hflag : repair.requiresReview with
    | true => exact absurd hleads ((hreview hflag).2.2 leader others)
    | false =>
      obtain ⟨w, ps, hleads', -, hids⟩ := hwinner hflag
      obtain ⟨c, hc, hqc⟩ := ok_of_mapM hids ((hleads.unique hleads').2.subset hq)
      cases Except.ok.inj (hqid.symm.trans hqc)
      exact (marked_iff hid).mpr ⟨repair, hrepair, hc⟩

/-- One element is not marked, and it is related to the marked ones. -/
lemma filter_eq_singleton_iff {α : Type*} {l : List α} {m : α → Bool} {R : α → α → Prop} :
    (∃ kept, l.filter (fun a => !m a) = [kept] ∧ ∀ a ∈ l, m a → R kept a) ↔
      ∃ kept rest, (kept :: rest).Perm l ∧ m kept = false ∧ ∀ a ∈ rest, m a ∧ R kept a := by
  constructor
  · rintro ⟨kept, hkept, hrelated⟩
    have hperm := List.filter_append_perm m l
    rw [hkept] at hperm
    refine ⟨kept, l.filter m, List.perm_append_comm.trans hperm, ?_, fun a ha => ?_⟩
    · have hmem : kept ∈ l.filter (fun a => !m a) := hkept ▸ List.mem_singleton_self kept
      simpa using (List.mem_filter.mp hmem).2
    · obtain ⟨hmem, hm⟩ := List.mem_filter.mp ha
      exact ⟨hm, hrelated a hmem hm⟩
  · rintro ⟨kept, rest, hperm, hkept, hrest⟩
    have hfilter := hperm.filter fun a => !m a
    rw [List.filter_cons_of_pos (by simp [hkept]),
      List.filter_eq_nil_iff.mpr fun a ha => by simp [(hrest a ha).1]] at hfilter
    refine ⟨kept, List.singleton_perm.mp hfilter |>.symm, fun a ha hm => ?_⟩
    rcases List.mem_cons.mp (hperm.symm.subset ha) with rfl | ha
    · rw [hkept] at hm
      cases hm
    · exact (hrest a ha).2

/-- What is left active under an entity is one point, the highest, exactly if among the points that
become active one is not beaten, and it outranks the others, which all are. -/
theorem keepsOne_iff (h : duplicateActiveRepairs py reading points = .ok repairs) :
    KeepsOne py reading now later points repairs identity ↔
      ∃ kept rest, (kept :: rest).Perm (actives py reading now later points identity) ∧
        ¬ Beaten py reading points kept ∧
        ∀ p ∈ rest, Beaten py reading points p ∧ Outranks py reading kept p := by
  rw [KeepsOne, filter_eq_singleton_iff]
  simp only [← marked_iff_beaten h, Bool.not_eq_true]

/-- With different ids, the leader of a group is not beaten. -/
lemma Leads.not_beaten (hids : (points.map (idText py)).Nodup)
    (hleads : Leads py reading points identity leader others) :
    ¬ Beaten py reading points leader := by
  rintro ⟨identity', leader', others', q, id, hleads', hq, hqid, hid⟩
  obtain ⟨hleader, hclaims⟩ := Grouped.mem_group.mp (hleads.1.subset List.mem_cons_self)
  obtain ⟨hmem, hclaims'⟩ := Grouped.mem_group.mp
    (hleads'.1.subset (List.mem_cons_of_mem leader' hq))
  have heq : q = leader := List.inj_on_of_nodup_map hids hmem hleader (hqid.trans hid.symm)
  subst heq
  obtain rfl : identity = identity' := Option.some.inj (hclaims.symm.trans hclaims')
  obtain ⟨rfl, hperm⟩ := hleads.unique hleads'
  have hself := hleads.2 q (hperm.symm.subset hq)
  exact hself.asymm hself

/-- A group that is not tied has a leader, and the others have ids. -/
lemma exists_leads (h : duplicateActiveRepairs py reading points = .ok repairs)
    (hkey : identity ∈ Grouped.keys (claimedIdentity py) points)
    (hflag : ∀ repair ∈ repairs, repair.identity = identity → repair.requiresReview = false) :
    ∃ leader others, Leads py reading points identity leader others ∧
      ∀ p ∈ others, ∃ id, idText py p = .ok id := by
  obtain ⟨hidentities, hsettled⟩ := repairs_settle h
  by_cases hlength : 2 ≤ (Grouped.group (claimedIdentity py) points identity).length
  · have hrepaired : identity ∈ repairs.map (·.identity) := by
      rw [hidentities]
      exact List.mem_filter.mpr ⟨hkey, decide_eq_true hlength⟩
    obtain ⟨repair, hrepair, rfl⟩ := List.mem_map.mp hrepaired
    obtain ⟨w, ps, hleads, -, hids⟩ := (hsettled repair hrepair).winner (hflag repair hrepair rfl)
    refine ⟨w, ps, hleads, fun p hp => ?_⟩
    obtain ⟨id, -, hid⟩ := ok_of_mapM hids hp
    exact ⟨id, hid⟩
  · have hpos := List.length_pos_of_ne_nil (Grouped.group_ne_nil hkey)
    obtain ⟨w, hw⟩ := List.length_eq_one_iff.mp (by omega :
      (Grouped.group (claimedIdentity py) points identity).length = 1)
    exact ⟨w, [], ⟨by rw [hw], by simp⟩, by simp⟩

/-- Where the points that claim an entity are those that become active under it, one is left, the
highest, unless the repair asks for a review. -/
theorem keepsOne_of_claimed (h : duplicateActiveRepairs py reading points = .ok repairs)
    (hids : (points.map (idText py)).Nodup)
    (hsame : ∀ p ∈ points, activeIdentity py reading now later p = some identity ↔
      claimedIdentity py p = some identity)
    (hactive : ∃ p ∈ points, activeIdentity py reading now later p = some identity)
    (hflag : ∀ repair ∈ repairs, repair.identity = identity → repair.requiresReview = false) :
    KeepsOne py reading now later points repairs identity := by
  have hgroups : actives py reading now later points identity =
      Grouped.group (claimedIdentity py) points identity := by
    refine List.filter_congr fun p hp => ?_
    simp only [hsame p hp]
  obtain ⟨p, hp, hidentity⟩ := hactive
  have hkey := Grouped.mem_keys.mpr ⟨p, hp, (hsame p hp).mp hidentity⟩
  obtain ⟨leader, others, hleads, hothers⟩ := exists_leads h hkey hflag
  refine (keepsOne_iff h).mpr ⟨leader, others, hgroups ▸ hleads.1, hleads.not_beaten hids,
    fun q hq => ⟨?_, hleads.2 q hq⟩⟩
  obtain ⟨id, hid⟩ := hothers q hq
  exact ⟨identity, leader, others, q, id, hleads, hq, hid, hid⟩

end Kept

/-! ### Two claimants -/

section Sample

def plainReading : TextReading := ⟨fun _ => none, fun _ => none⟩

def claimant (n : ℕ) (version : ℤ) (content : String) : LegacyPoint where
  id := some (.str (Uuid.ofNat n).text)
  payload := [("content", .str content), ("domain", .str "d"), ("topic", .str "t"),
    ("entity_type", .str "e"), ("entity_name", .str "n"), ("status", .str "active"),
    ("version", .int version)]

def oneEntity : EntityLabels := ⟨"d", "t", "e", "n"⟩

def claimants : List LegacyPoint := [claimant 1 1 "old", claimant 2 2 "new"]

def secondWins : DuplicateActiveRepair where
  identity := oneEntity
  winnerPointId := some (Uuid.ofNat 2).text
  supersededPointIds := [(Uuid.ofNat 1).text]
  requiresReview := false
  reason := "highest_version_then_latest_timestamp"

def firstInstant : Instant := ⟨0, by decide⟩

lemma claimants_repairs :
    duplicateActiveRepairs .ascii plainReading claimants = .ok [secondWins] := by decide +kernel

lemma claimants_claim : ∀ p ∈ claimants,
    activeIdentity .ascii plainReading firstInstant firstInstant p = some oneEntity ∧
      claimedIdentity .ascii p = some oneEntity := by
  intro p hp
  rcases List.mem_pair.mp hp with rfl | rfl <;> decide +kernel

theorem repairs_settle_claimants : Settles .ascii plainReading claimants secondWins :=
  (repairs_settle claimants_repairs).2 secondWins (List.mem_singleton_self _)

theorem keepsOne_iff_claimants :
    KeepsOne .ascii plainReading firstInstant firstInstant claimants [secondWins] oneEntity ↔
      ∃ kept rest, (kept :: rest).Perm
          (actives .ascii plainReading firstInstant firstInstant claimants oneEntity) ∧
        ¬ Beaten .ascii plainReading claimants kept ∧
        ∀ p ∈ rest, Beaten .ascii plainReading claimants p ∧
          Outranks .ascii plainReading kept p :=
  keepsOne_iff claimants_repairs

theorem keepsOne_of_claimed_claimants :
    KeepsOne .ascii plainReading firstInstant firstInstant claimants [secondWins] oneEntity := by
  refine keepsOne_of_claimed claimants_repairs (by decide +kernel) (fun p hp => ?_)
    ⟨_, List.mem_cons_self, (claimants_claim _ List.mem_cons_self).1⟩ (fun repair hrepair _ => ?_)
  · obtain ⟨hactive, hclaims⟩ := claimants_claim p hp
    simp [hactive, hclaims]
  · rw [List.mem_singleton.mp hrepair]
    rfl

/-- A claimant without content wins and does not become active, so that nothing is left. -/
example : duplicateActiveRepairs .ascii plainReading [claimant 1 1 "old", claimant 2 2 ""] =
      .ok [secondWins] ∧
    (actives .ascii plainReading firstInstant firstInstant [claimant 1 1 "old", claimant 2 2 ""]
      oneEntity).filter (fun p => !marked .ascii [secondWins] p) = [] := by
  decide +kernel

end Sample

end CyberBrain.Migrations
