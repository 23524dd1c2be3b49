import CyberBrain.Foundation.Binary64
import CyberBrain.Foundation.Program
import CyberBrain.Foundation.Table
import CyberBrain.Tenancy.Quota
import Mathlib.Algebra.BigOperators.Group.List.Basic
import Mathlib.Algebra.Order.Floor.Semifield
import Mathlib.Data.List.ReduceOption
import Mathlib.Logic.Relation

/-!
# Quota reservations

`SQLiteQuotaLimiter.reserve` charges every scope key of a caller for every resource of a call in
one transaction. The window of a charge starts at the float quotient of the time stamp by the
length of the window. Where these quotients are exact, the charges to a window never exceed the
limit.

Time stamps are the values of doubles.
-/

namespace CyberBrain.Tenancy

open Python

/-! ### Usage rows -/

/-- The primary key of `quota_usage`. -/
@[ext] structure Slot where
  scopeKey : QuotaScopeKey
  resource : QuotaResource
  windowStart : ℕ
  deriving DecidableEq, Repr

/-- A row of `quota_usage`. -/
structure Usage where
  slot : Slot
  used : ℕ
  expiresAt : ℕ

abbrev UsageTable := Table Usage.slot

/-- The amount stored under a slot. -/
def UsageTable.stored (usage : UsageTable) (slot : Slot) : ℕ :=
  ((usage.find? slot).map (·.used)).getD 0

/-- What is left after `DELETE FROM quota_usage WHERE expires_at <= ?`. -/
def UsageTable.unexpired (usage : UsageTable) (second : ℕ) : UsageTable :=
  usage.filter fun row => second < row.expiresAt

/-! ### One reservation -/

/-- The bound on the integers that SQLite binds. -/
def fitsInt64 (n : ℕ) : Bool := n < 2 ^ 63

/-- `int(stamp // window_seconds) * window_seconds`, and `0` without a window. -/
def windowStart (stamp : ℚ) : Option ℕ → Except Exc ℕ
  | none   => .ok 0
  | some w =>
    match Binary64.ofNat? w with
    | none   => .error (.overflowError "int too large to convert to float")
    | some f => .ok (⌊Binary64.floorDiv stamp f⌋₊ * w)

/-- The body of the inner loop of `reserve`: the row that one charge writes, if any. -/
def chargeOne (policy : QuotaPolicy) (usage : UsageTable) (stamp : ℚ) (key : QuotaScopeKey)
    (resource : QuotaResource) (amount : ℤ) : Except Exc (Option Usage) :=
  match policy.limitFor resource with
  | none       => .ok none
  | some limit =>
    match windowStart stamp limit.windowSeconds with
    | .error e  => .error e
    | .ok start =>
      if ¬ fitsInt64 start then
        .error (.overflowError "Python int too large to convert to SQLite INTEGER")
      else
        let used := if limit.windowSeconds.isSome then usage.stored ⟨key, resource, start⟩ else 0
        match QuotaDecisionInput.make resource key used amount with
        | .error e  => .error e
        | .ok input =>
          if ¬ (evaluateQuota policy input).allow then
            .error (.quotaExceededError
              (max (start + limit.windowSeconds.getD 1 - ⌊stamp⌋₊) 1))
          else .ok (limit.windowSeconds.map fun w =>
            ⟨⟨key, resource, start⟩, used + input.requested, start + w⟩)

/-- The transaction of `reserve`: the table it commits. -/
def reserveRows (policy : QuotaPolicy) (stamp : ℚ) (keys : List QuotaScopeKey)
    (charges : List (QuotaResource × ℤ)) (usage : UsageTable) : Except Exc UsageTable :=
  if ¬ fitsInt64 ⌊stamp⌋₊ then
    .error (.overflowError "Python int too large to convert to SQLite INTEGER")
  else
    let current := usage.unexpired ⌊stamp⌋₊
    match (keys ×ˢ charges).mapM fun kc => chargeOne policy current stamp kc.1 kc.2.1 kc.2.2 with
    | .error e     => .error e
    | .ok updates =>
      if updates.reduceOption.any fun row => ¬ (fitsInt64 row.used ∧ fitsInt64 row.expiresAt) then
        .error (.overflowError "Python int too large to convert to SQLite INTEGER")
      else .ok (updates.reduceOption.foldl Table.upsert current)

/-- A call of `reserve`: the charges are a dict. -/
structure Call (py : Runtime) where
  authority : CallerAuthority py
  charges : List (QuotaResource × ℤ)
  stamp : ℚ
  nodup : (charges.map (·.1)).Nodup

variable {py : Runtime}

/-- `SQLiteQuotaLimiter.reserve`. -/
def reserve (policy : QuotaPolicy) (c : Call py) : Program UsageTable Exc Unit :=
  if c.stamp < 0 then .raise (.valueError "quota time must not be negative")
  else
    match quotaKeys c.authority.grant.scope with
    | .error e => .raise e
    | .ok keys => .atomically fun usage =>
      (reserveRows policy c.stamp keys c.charges usage).map ((), ·)

/-! ### What one charge writes -/

/-- The float quotient of a stamp by a window is the integer quotient. -/
def DividesExactly (stamp : ℚ) (w : ℕ) : Prop :=
  ∀ f, Binary64.ofNat? w = some f → Binary64.floorDiv stamp f = (⌊stamp⌋₊ / w : ℕ)

/-- A row that charges `amount` to `key` and `resource` at `stamp`, on top of what `usage` holds. -/
structure Charges (policy : QuotaPolicy) (usage : UsageTable) (stamp : ℚ) (key : QuotaScopeKey)
    (resource : QuotaResource) (amount : ℤ) (limit : QuotaLimit) (w : ℕ) (row : Usage) : Prop where
  scopeKey : row.slot.scopeKey = key
  resource : row.slot.resource = resource
  start : windowStart stamp (some w) = .ok row.slot.windowStart
  used : row.used = usage.stored row.slot + amount.toNat
  within : row.used ≤ limit.amount
  expiresAt : row.expiresAt = row.slot.windowStart + w

lemma chargeOne_ok {policy : QuotaPolicy} {usage : UsageTable} {stamp : ℚ} {key : QuotaScopeKey}
    {resource : QuotaResource} {amount : ℤ} {written : Option Usage}
    (h : chargeOne policy usage stamp key resource amount = .ok written) :
    (policy.window resource = none ∧ written = none) ∨
      ∃ limit w row, policy.limitFor resource = some limit ∧ limit.windowSeconds = some w ∧
        written = some row ∧ Charges policy usage stamp key resource amount limit w row := by
  unfold chargeOne at h
  split at h
  · rename_i hlimit
    cases h
    exact .inl ⟨by simp [QuotaPolicy.window, hlimit], rfl⟩
  rename_i limit hlimit
  split at h
  · cases h
  rename_i start hstart
  split at h
  · cases h
  dsimp only at h
  split at h
  · cases h
  rename_i input hinput
  split at h
  · cases h
  rename_i hallow
  cases h
  unfold QuotaDecisionInput.make at hinput
  split at hinput
  · cases hinput
    rw [not_not, evaluateQuota_allow_iff hlimit] at hallow
    cases hw : limit.windowSeconds with
    | none => exact .inl ⟨by simp [QuotaPolicy.window, hlimit, hw], rfl⟩
    | some w =>
      rw [hw] at hstart
      refine .inr ⟨limit, w, _, hlimit, hw, rfl, ?_⟩
      exact { scopeKey := rfl, resource := rfl, start := hstart
              used := by simp, within := by simpa [hw] using hallow, expiresAt := rfl }
  · cases hinput

/-! ### What a transaction writes -/

/-- What a transaction charges to a slot. -/
def chargedTo (policy : QuotaPolicy) (stamp : ℚ) (keys : List QuotaScopeKey)
    (charges : List (QuotaResource × ℤ)) (slot : Slot) : ℕ :=
  match policy.window slot.resource with
  | none   => 0
  | some w =>
    match windowStart stamp (some w) with
    | .error _  => 0
    | .ok start =>
      if slot.scopeKey ∈ keys ∧ start = slot.windowStart then
        ((charges.lookup slot.resource).getD 0).toNat
      else 0

section Transaction

variable {policy : QuotaPolicy} {stamp : ℚ} {keys : List QuotaScopeKey}
  {charges : List (QuotaResource × ℤ)} {usage usage' : UsageTable}

/-- A committed transaction has written one row for each windowed charge. -/
lemma reserveRows_ok (h : reserveRows policy stamp keys charges usage = .ok usage') :
    ∃ updates, usage' = updates.reduceOption.foldl Table.upsert (usage.unexpired ⌊stamp⌋₊) ∧
      List.Forall₂ (fun kc written =>
        chargeOne policy (usage.unexpired ⌊stamp⌋₊) stamp kc.1 kc.2.1 kc.2.2 = .ok written)
        (keys ×ˢ charges) updates := by
  unfold reserveRows at h
  split_ifs at h
  dsimp only at h
  split at h
  · cases h
  rename_i updates hupdates
  split_ifs at h
  cases h
  exact ⟨updates, rfl, forall₂_of_mapM hupdates⟩

lemma charge_of_mem_updates {kcs : List (QuotaScopeKey × QuotaResource × ℤ)}
    {updates : List (Option Usage)} {current : UsageTable}
    (hall : List.Forall₂ (fun kc written =>
      chargeOne policy current stamp kc.1 kc.2.1 kc.2.2 = .ok written) kcs updates)
    {row : Usage} (hrow : row ∈ updates.reduceOption) :
    ∃ kc ∈ kcs, chargeOne policy current stamp kc.1 kc.2.1 kc.2.2 = .ok (some row) := by
  rw [List.reduceOption_mem_iff] at hrow
  induction hall with
  | nil => cases hrow
  | cons hkc _ ih =>
    rcases List.mem_cons.mp hrow with rfl | hrow
    · exact ⟨_, List.mem_cons_self, hkc⟩
    · obtain ⟨kc, hmem, hcharge⟩ := ih hrow
      exact ⟨kc, List.mem_cons_of_mem _ hmem, hcharge⟩

lemma update_of_mem_charges {kcs : List (QuotaScopeKey × QuotaResource × ℤ)}
    {updates : List (Option Usage)} {current : UsageTable}
    (hall : List.Forall₂ (fun kc written =>
      chargeOne policy current stamp kc.1 kc.2.1 kc.2.2 = .ok written) kcs updates)
    {kc : QuotaScopeKey × QuotaResource × ℤ} (hkc : kc ∈ kcs) :
    ∃ written ∈ updates, chargeOne policy current stamp kc.1 kc.2.1 kc.2.2 = .ok written := by
  induction hall with
  | nil => cases hkc
  | cons hhead _ ih =>
    rcases List.mem_cons.mp hkc with rfl | hkc
    · exact ⟨_, List.mem_cons_self, hhead⟩
    · obtain ⟨written, hmem, hcharge⟩ := ih hkc
      exact ⟨written, List.mem_cons_of_mem _ hmem, hcharge⟩

/-- The written rows follow the charges, so charges with distinct keys write distinct slots. -/
lemma updates_sublist {kcs : List (QuotaScopeKey × QuotaResource × ℤ)}
    {updates : List (Option Usage)} {current : UsageTable}
    (hall : List.Forall₂ (fun kc written =>
      chargeOne policy current stamp kc.1 kc.2.1 kc.2.2 = .ok written) kcs updates) :
    List.Sublist (updates.reduceOption.map fun row => (row.slot.scopeKey, row.slot.resource))
      (kcs.map fun kc => (kc.1, kc.2.1)) := by
  induction hall with
  | nil => exact List.Sublist.refl _
  | cons hhead _ ih =>
    rcases chargeOne_ok hhead with ⟨-, rfl⟩ | ⟨limit, w, row, -, -, rfl, hrow⟩
    · rw [List.reduceOption_cons_of_none]
      exact ih.cons _
    · rw [List.reduceOption_cons_of_some, List.map_cons, List.map_cons, hrow.scopeKey,
        hrow.resource]
      exact ih.cons_cons _

lemma nodup_charges (hkeys : keys.Nodup) (hcharges : (charges.map (·.1)).Nodup) :
    ((keys ×ˢ charges).map fun kc => (kc.1, kc.2.1)).Nodup := by
  refine (hkeys.product (List.Nodup.of_map _ hcharges)).map_on ?_
  rintro ⟨k, rc⟩ hkc ⟨k', rc'⟩ hkc' heq
  obtain ⟨rfl, hr⟩ := Prod.mk.inj heq
  rw [List.inj_on_of_nodup_map hcharges (List.mem_product.mp hkc).2 (List.mem_product.mp hkc').2 hr]

lemma nodup_updates (hkeys : keys.Nodup) (hcharges : (charges.map (·.1)).Nodup)
    {updates : List (Option Usage)} {current : UsageTable}
    (hall : List.Forall₂ (fun kc written =>
      chargeOne policy current stamp kc.1 kc.2.1 kc.2.2 = .ok written) (keys ×ˢ charges) updates) :
    (updates.reduceOption.map Usage.slot).Nodup := by
  refine List.Nodup.of_map (fun slot => (slot.scopeKey, slot.resource)) ?_
  rw [List.map_map]
  exact (nodup_charges hkeys hcharges).sublist (updates_sublist hall)

/-- A committed transaction adds its charges to the unexpired usage and keeps every limit. -/
theorem stored_reserveRows (hkeys : keys.Nodup) (hcharges : (charges.map (·.1)).Nodup)
    (h : reserveRows policy stamp keys charges usage = .ok usage') (slot : Slot) :
    usage'.stored slot =
        (usage.unexpired ⌊stamp⌋₊).stored slot + chargedTo policy stamp keys charges slot ∧
      (chargedTo policy stamp keys charges slot ≠ 0 →
        ∀ limit, policy.limitFor slot.resource = some limit → usage'.stored slot ≤ limit.amount) := by
  obtain ⟨updates, rfl, hall⟩ := reserveRows_ok h
  have hfind := Table.find?_foldl_upsert (usage.unexpired ⌊stamp⌋₊)
    (nodup_updates hkeys hcharges hall) slot
  cases hrow : updates.reduceOption.find? fun row => row.slot = slot with
  | some row =>
    obtain rfl : row.slot = slot := by simpa using List.find?_some hrow
    obtain ⟨⟨k, r, a⟩, hmem, hcharge⟩ :=
      charge_of_mem_updates hall (List.mem_of_find?_eq_some hrow)
    obtain ⟨hk, ha⟩ := List.mem_product.mp hmem
    obtain ⟨-, hnone⟩ | ⟨limit, w, row', hlimit, hw, hsome, hspec⟩ := chargeOne_ok hcharge
    · cases hnone
    cases hsome
    have hwindow : policy.window row.slot.resource = some w := by
      simp [QuotaPolicy.window, hspec.resource, hlimit, hw]
    have hcharged : chargedTo policy stamp keys charges row.slot = a.toNat := by
      have hlookup : charges.lookup row.slot.resource = some a := by
        rw [hspec.resource]
        exact (lookup_eq_some_iff hcharges).mpr ha
      simp [chargedTo, hwindow, hspec.start, hspec.scopeKey, hk, hlookup]
    have hstored : UsageTable.stored (updates.reduceOption.foldl Table.upsert
        (usage.unexpired ⌊stamp⌋₊)) row.slot = row.used := by
      simp [UsageTable.stored, hfind, hrow]
    refine ⟨by rw [hstored, hspec.used, hcharged], fun _ limit' hlimit' => ?_⟩
    rw [hspec.resource, hlimit] at hlimit'
    cases hlimit'
    exact hstored ▸ hspec.within
  | none =>
    have hzero : chargedTo policy stamp keys charges slot = 0 := by
      by_contra hne
      unfold chargedTo at hne
      split at hne
      · exact hne rfl
      rename_i w hw
      split at hne
      · exact hne rfl
      rename_i start hstart
      split_ifs at hne with hkey
      · obtain ⟨hkey, rfl⟩ := hkey
        cases hlookup : charges.lookup slot.resource with
        | none => rw [hlookup] at hne; exact hne rfl
        | some a =>
          have hmem := (lookup_eq_some_iff hcharges).mp hlookup
          obtain ⟨written, hwritten, hcharge⟩ :=
            update_of_mem_charges hall (List.mem_product.mpr ⟨hkey, hmem⟩)
          obtain ⟨hnone, -⟩ | ⟨limit, w', row, hlimit, hw', rfl, hspec⟩ := chargeOne_ok hcharge
          · rw [hw] at hnone; cases hnone
          · obtain rfl : w' = w := by simpa [QuotaPolicy.window, hlimit, hw'] using hw
            have hslot : row.slot = slot := Slot.ext hspec.scopeKey hspec.resource
              (Except.ok.inj (hspec.start.symm.trans hstart))
            exact List.find?_eq_none.mp hrow row (List.reduceOption_mem_iff.mpr hwritten)
              (decide_eq_true hslot)
      · exact hne rfl
    exact ⟨by simp [UsageTable.stored, hfind, hrow, hzero], fun hne => absurd hzero hne⟩

/-- Every row expires at the end of its window. -/
def Expires (policy : QuotaPolicy) (usage : UsageTable) : Prop :=
  ∀ row ∈ usage.rows, ∃ w, policy.window row.slot.resource = some w ∧
    row.expiresAt = row.slot.windowStart + w

lemma expires_reserveRows (hkeys : keys.Nodup) (hcharges : (charges.map (·.1)).Nodup)
    (h : reserveRows policy stamp keys charges usage = .ok usage') (hexp : Expires policy usage) :
    Expires policy usage' := by
  obtain ⟨updates, rfl, hall⟩ := reserveRows_ok h
  intro row hrow
  have hfind := Table.find?_of_mem hrow
  rw [Table.find?_foldl_upsert _ (nodup_updates hkeys hcharges hall), Option.or_eq_some_iff] at hfind
  rcases hfind with hfind | ⟨-, hfind⟩
  · obtain ⟨kc, -, hcharge⟩ := charge_of_mem_updates hall (List.mem_of_find?_eq_some hfind)
    obtain ⟨-, hnone⟩ | ⟨limit, w, row', hlimit, hw, hsome, hspec⟩ := chargeOne_ok hcharge
    · cases hnone
    · cases hsome
      exact ⟨w, by simp [QuotaPolicy.window, hspec.resource, hlimit, hw], hspec.expiresAt⟩
  · exact hexp row (List.mem_of_mem_filter (Table.mem_of_find? hfind))

/-- The delete spares the rows of current windows. -/
lemma stored_unexpired (hexp : Expires policy usage) {slot : Slot} {w second : ℕ}
    (hw : policy.window slot.resource = some w) (hcurrent : second < slot.windowStart + w) :
    (usage.unexpired second).stored slot = usage.stored slot := by
  unfold UsageTable.stored UsageTable.unexpired
  rw [Table.find?_filter]
  cases hrow : usage.find? slot with
  | none => rfl
  | some row =>
    obtain ⟨w', hw', hexpires⟩ := hexp row (Table.mem_of_find? hrow)
    obtain rfl := Table.key_of_find? hrow
    obtain rfl : w' = w := Option.some.inj (hw'.symm.trans hw)
    simp [Option.filter, hexpires, hcurrent]

end Transaction

/-! ### Runs of the limiter -/

variable (py) in
/-- The usage table with the calls made so far and those of them that were granted. -/
structure QuotaRun where
  usage : UsageTable := Table.empty _
  calls : List (Call py) := []
  granted : List (Call py) := []

def QuotaRun.reserve (policy : QuotaPolicy) (s : QuotaRun py) (c : Call py) : QuotaRun py :=
  match Tenancy.reserve policy c s.usage with
  | (.ok (), usage)   => ⟨usage, s.calls ++ [c], s.granted ++ [c]⟩
  | (.error _, usage) => ⟨usage, s.calls ++ [c], s.granted⟩

/-- The stamp of a call divides exactly by the windows of the resources it charges. -/
def Call.Exact (policy : QuotaPolicy) (c : Call py) : Prop :=
  0 ≤ c.stamp → ∀ rc ∈ c.charges, ∀ w, policy.window rc.1 = some w → DividesExactly c.stamp w

/-- The next call of a run, out of the calls in `ok`: time does not go back. -/
def QuotaStep (policy : QuotaPolicy) (ok : Call py → Prop) (s t : QuotaRun py) : Prop :=
  ∃ c, (∀ d ∈ s.calls, d.stamp ≤ c.stamp) ∧ ok c ∧ t = s.reserve policy c

/-- What one granted call charges to a slot. -/
def Call.chargedTo (policy : QuotaPolicy) (slot : Slot) (c : Call py) : ℕ :=
  match quotaKeys c.authority.grant.scope with
  | .ok keys => Tenancy.chargedTo policy c.stamp keys c.charges slot
  | .error _ => 0

/-- The sum of the amounts that the granted calls charged to a slot. -/
def QuotaRun.charged (policy : QuotaPolicy) (s : QuotaRun py) (slot : Slot) : ℕ :=
  (s.granted.map (Call.chargedTo policy slot)).sum

/-- The window of a slot has not ended for any call of the run. -/
def QuotaRun.Current (s : QuotaRun py) (slot : Slot) (w : ℕ) : Prop :=
  ∀ c ∈ s.calls, ⌊c.stamp⌋₊ < slot.windowStart + w

/-- What holds throughout a run: the usage of a current window is what was charged to it, and no
limit is exceeded. -/
structure QuotaRun.Sound (policy : QuotaPolicy) (s : QuotaRun py) : Prop where
  expires : Expires policy s.usage
  stored : ∀ slot w, policy.window slot.resource = some w → s.Current slot w →
    s.usage.stored slot = s.charged policy slot
  bounded : ∀ slot limit, policy.limitFor slot.resource = some limit →
    s.charged policy slot ≤ limit.amount
  started : ∀ c ∈ s.granted, ∀ slot, c.chargedTo policy slot ≠ 0 →
    ∃ d ∈ s.calls, slot.windowStart ≤ ⌊d.stamp⌋₊

lemma windowStart_exact {stamp : ℚ} {w start : ℕ} (hw : 0 < w) (hexact : DividesExactly stamp w)
    (h : windowStart stamp (some w) = .ok start) :
    start = ⌊stamp⌋₊ / w * w ∧ start ≤ ⌊stamp⌋₊ ∧ ⌊stamp⌋₊ < start + w := by
  dsimp only [windowStart] at h
  split at h
  · cases h
  rename_i f hf
  cases h
  rw [hexact f hf, Nat.floor_natCast]
  exact ⟨rfl, Nat.div_mul_le_self _ _, Nat.lt_div_mul_add hw⟩

/-- A call that raises leaves the usage as it was. -/
theorem reserve_error {policy : QuotaPolicy} {c : Call py} {usage usage' : UsageTable} {e : Exc}
    (h : reserve policy c usage = (.error e, usage')) : usage' = usage := by
  unfold reserve at h
  split_ifs at h
  · cases h; rfl
  cases hkeys : quotaKeys c.authority.grant.scope with
  | error e' => simp only [hkeys] at h; cases h; rfl
  | ok keys =>
    simp only [hkeys, Program.atomically] at h
    split at h <;> cases h
    rfl

lemma reserve_ok {policy : QuotaPolicy} {c : Call py} {usage usage' : UsageTable}
    (h : reserve policy c usage = (.ok (), usage')) :
    0 ≤ c.stamp ∧ ∃ keys, quotaKeys c.authority.grant.scope = .ok keys ∧
      reserveRows policy c.stamp keys c.charges usage = .ok usage' := by
  unfold reserve at h
  split_ifs at h with hneg
  · cases h
  refine ⟨not_lt.mp hneg, ?_⟩
  cases hkeys : quotaKeys c.authority.grant.scope with
  | error e => simp only [hkeys] at h; cases h
  | ok keys =>
    simp only [hkeys, Program.atomically] at h
    cases hrows : reserveRows policy c.stamp keys c.charges usage with
    | error e => rw [hrows] at h; cases h
    | ok rows =>
      rw [hrows] at h
      cases h
      exact ⟨keys, rfl, hrows⟩

/-- Where a call charges a slot, it does so in the window of its stamp. -/
lemma current_of_chargedTo {policy : QuotaPolicy} {c : Call py} (hexact : c.Exact policy)
    (hpos : 0 ≤ c.stamp) {slot : Slot} (h : c.chargedTo policy slot ≠ 0) :
    ∃ w, policy.window slot.resource = some w ∧ slot.windowStart ≤ ⌊c.stamp⌋₊ ∧
      ⌊c.stamp⌋₊ < slot.windowStart + w := by
  unfold Call.chargedTo at h
  split at h
  · unfold Tenancy.chargedTo at h
    split at h
    · exact absurd rfl h
    rename_i w hw
    split at h
    · exact absurd rfl h
    rename_i start hstart
    split_ifs at h with hkey
    · obtain ⟨-, rfl⟩ := hkey
      obtain ⟨limit, hlimit, hwindow⟩ := Option.bind_eq_some_iff.mp hw
      cases hlookup : c.charges.lookup slot.resource with
      | none => rw [hlookup] at h; exact absurd rfl h
      | some a =>
        have hmem := (lookup_eq_some_iff c.nodup).mp hlookup
        obtain ⟨-, hle, hlt⟩ := windowStart_exact (limit.window_pos w hwindow)
          (hexact hpos _ hmem w hw) hstart
        exact ⟨w, hw, hle, hlt⟩
    · exact absurd rfl h
  · exact absurd rfl h

namespace QuotaRun

variable {policy : QuotaPolicy} {s : QuotaRun py} {c : Call py}

/-- A window that is current after a call was current before it. -/
lemma Current.of_append {usage : UsageTable} {granted : List (Call py)} {slot : Slot} {w : ℕ}
    (h : Current ⟨usage, s.calls ++ [c], granted⟩ slot w) :
    s.Current slot w ∧ ⌊c.stamp⌋₊ < slot.windowStart + w :=
  ⟨fun d hd => h d (List.mem_append_left _ hd), h c (by simp)⟩

lemma current_of_last (hlast : ∀ d ∈ s.calls, d.stamp ≤ c.stamp) {slot : Slot} {w : ℕ}
    (h : ⌊c.stamp⌋₊ < slot.windowStart + w) : s.Current slot w :=
  fun d hd => (Nat.floor_mono (hlast d hd)).trans_lt h

/-- One call keeps the usage sound. -/
theorem Sound.reserve (hs : s.Sound policy) (hlast : ∀ d ∈ s.calls, d.stamp ≤ c.stamp)
    (hexact : c.Exact policy) : (s.reserve policy c).Sound policy := by
  unfold QuotaRun.reserve
  split
  · rename_i usage' hok
    obtain ⟨hpos, keys, hkeys, hrows⟩ := reserve_ok hok
    have hstored := stored_reserveRows (nodup_quotaKeys hkeys) c.nodup hrows
    have hcharged : ∀ slot, QuotaRun.charged policy ⟨usage', s.calls ++ [c], s.granted ++ [c]⟩ slot =
        s.charged policy slot + c.chargedTo policy slot := by
      intro slot
      simp [charged]
    have hcall : ∀ slot, c.chargedTo policy slot =
        Tenancy.chargedTo policy c.stamp keys c.charges slot := by
      intro slot
      simp [Call.chargedTo, hkeys]
    refine ⟨expires_reserveRows (nodup_quotaKeys hkeys) c.nodup hrows hs.expires, ?_, ?_, ?_⟩
    · intro slot w hw hcurrent
      obtain ⟨hbefore, hnow⟩ := hcurrent.of_append
      rw [hcharged, (hstored slot).1, stored_unexpired hs.expires hw hnow,
        hs.stored slot w hw hbefore, hcall]
    · intro slot limit hlimit
      rw [hcharged]
      by_cases hzero : c.chargedTo policy slot = 0
      · rw [hzero, add_zero]
        exact hs.bounded slot limit hlimit
      · obtain ⟨w, hw, -, hnow⟩ := current_of_chargedTo hexact hpos hzero
        have hwithin := (hstored slot).2 (hcall slot ▸ hzero) limit hlimit
        rwa [(hstored slot).1, stored_unexpired hs.expires hw hnow,
          hs.stored slot w hw (current_of_last hlast hnow), ← hcall] at hwithin
    · intro d hd slot hne
      rcases List.mem_append.mp hd with hd | hd
      · obtain ⟨d', hd', hle⟩ := hs.started d hd slot hne
        exact ⟨d', List.mem_append_left _ hd', hle⟩
      · obtain rfl := List.mem_singleton.mp hd
        obtain ⟨-, -, hle, -⟩ := current_of_chargedTo hexact hpos hne
        exact ⟨d, by simp, hle⟩
  · rename_i usage' herror
    obtain rfl := reserve_error herror
    refine ⟨hs.expires, fun slot w hw hcurrent => ?_, hs.bounded, fun d hd slot hne => ?_⟩
    · exact hs.stored slot w hw hcurrent.of_append.1
    · obtain ⟨d', hd', hle⟩ := hs.started d hd slot hne
      exact ⟨d', List.mem_append_left _ hd', hle⟩

/-- Every run of exact calls is sound. -/
theorem sound_of_run (h : Relation.ReflTransGen (QuotaStep policy (Call.Exact policy)) {} s) : s.Sound policy := by
  induction h with
  | refl =>
    exact ⟨by simp [Expires], by simp [UsageTable.stored, charged], by simp [charged], by simp⟩
  | tail _ hstep ih =>
    obtain ⟨c, hlast, hexact, rfl⟩ := hstep
    exact ih.reserve hlast hexact

end QuotaRun

/-! ### Refusals -/

/-- A charge refused for its limit. -/
def isRefusal : Except Exc (Option Usage) → Bool
  | .error (.quotaExceededError _) => true
  | _                              => false

/-- The charge that a refused call was refused for: the first one over its limit. -/
def refusedCharge (policy : QuotaPolicy) (c : Call py) (usage : UsageTable) :
    Option (QuotaScopeKey × QuotaResource × ℤ) :=
  match quotaKeys c.authority.grant.scope with
  | .error _ => none
  | .ok keys => (keys ×ˢ c.charges).find? fun kc => isRefusal
    (chargeOne policy (usage.unexpired ⌊c.stamp⌋₊) c.stamp kc.1 kc.2.1 kc.2.2)

/-- The end of the window that holds a stamp. -/
def windowEnd (stamp : ℚ) (w : ℕ) : ℕ := (⌊stamp⌋₊ / w + 1) * w

lemma reserveRows_refused {policy : QuotaPolicy} {stamp : ℚ} {keys : List QuotaScopeKey}
    {charges : List (QuotaResource × ℤ)} {usage : UsageTable} {r : ℤ}
    (h : reserveRows policy stamp keys charges usage = .error (.quotaExceededError r)) :
    ∃ kc ∈ keys ×ˢ charges,
      ((keys ×ˢ charges).find? fun kc => isRefusal
        (chargeOne policy (usage.unexpired ⌊stamp⌋₊) stamp kc.1 kc.2.1 kc.2.2)) = some kc ∧
      chargeOne policy (usage.unexpired ⌊stamp⌋₊) stamp kc.1 kc.2.1 kc.2.2 =
        .error (.quotaExceededError r) := by
  unfold reserveRows at h
  split at h
  · cases h
  dsimp only at h
  split at h
  · rename_i e he
    cases h
    obtain ⟨done, kc, rest, hsplit, hdone, hfail⟩ := exists_of_mapM_error he
    refine ⟨kc, by rw [hsplit]; simp, ?_, hfail⟩
    rw [hsplit, List.find?_append, List.find?_eq_none.mpr, Option.none_or,
      List.find?_cons_of_pos (by rw [hfail]; rfl)]
    intro kc hkc
    obtain ⟨written, hwritten⟩ := hdone kc hkc
    rw [hwritten]
    exact Bool.false_ne_true
  · split at h <;> cases h

lemma reserve_refused {policy : QuotaPolicy} {c : Call py} {usage usage' : UsageTable} {r : ℤ}
    (h : reserve policy c usage = (.error (.quotaExceededError r), usage')) :
    0 ≤ c.stamp ∧ ∃ key resource amount,
      refusedCharge policy c usage = some (key, resource, amount) ∧
        (resource, amount) ∈ c.charges ∧
        chargeOne policy (usage.unexpired ⌊c.stamp⌋₊) c.stamp key resource amount =
          .error (.quotaExceededError r) := by
  unfold reserve at h
  split_ifs at h with hneg
  · cases h
  refine ⟨not_lt.mp hneg, ?_⟩
  cases hkeys : quotaKeys c.authority.grant.scope with
  | error e =>
    simp only [hkeys] at h
    cases h
    obtain ⟨message, he⟩ := error_of_quotaKeys hkeys
    cases he
  | ok keys =>
    simp only [hkeys, Program.atomically] at h
    cases hrows : reserveRows policy c.stamp keys c.charges usage with
    | ok rows => rw [hrows] at h; cases h
    | error e =>
      rw [hrows] at h
      cases h
      obtain ⟨⟨key, resource, amount⟩, hmem, hfind, hfail⟩ := reserveRows_refused hrows
      exact ⟨key, resource, amount, by rw [refusedCharge, hkeys]; exact hfind,
        (List.mem_product.mp hmem).2, hfail⟩

/-- What a refused charge exceeds. -/
lemma chargeOne_refused {policy : QuotaPolicy} {usage : UsageTable} {stamp : ℚ}
    {key : QuotaScopeKey} {resource : QuotaResource} {amount r : ℤ}
    (h : chargeOne policy usage stamp key resource amount = .error (.quotaExceededError r)) :
    ∃ limit start, policy.limitFor resource = some limit ∧
      windowStart stamp limit.windowSeconds = .ok start ∧
      r = max (start + limit.windowSeconds.getD 1 - ⌊stamp⌋₊ : ℤ) 1 ∧
      limit.amount < (if limit.windowSeconds.isSome then usage.stored ⟨key, resource, start⟩ else 0)
        + amount.toNat := by
  unfold chargeOne at h
  split at h
  · cases h
  rename_i limit hlimit
  split at h
  · rename_i e he
    cases h
    unfold windowStart at he
    split at he
    · cases he
    · split at he <;> cases he
  rename_i start hstart
  split at h
  · cases h
  dsimp only at h
  split at h
  · rename_i e he
    cases h
    unfold QuotaDecisionInput.make at he
    split at he <;> cases he
  rename_i input hinput
  split at h
  · rename_i hallow
    cases h
    unfold QuotaDecisionInput.make at hinput
    split at hinput
    · cases hinput
      rw [evaluateQuota_allow_iff hlimit, not_le] at hallow
      exact ⟨limit, start, hlimit, hstart, rfl, hallow⟩
    · cases hinput
  · cases h

/-- Within a sound run nothing has been charged to the windows after the last call. -/
lemma stored_later {policy : QuotaPolicy} {s : QuotaRun py} (hs : s.Sound policy) {slot : Slot}
    {w : ℕ} (hw : policy.window slot.resource = some w)
    (hlater : ∀ d ∈ s.calls, ⌊d.stamp⌋₊ < slot.windowStart) : s.usage.stored slot = 0 := by
  rw [hs.stored slot w hw fun d hd => (hlater d hd).trans_le (Nat.le_add_right _ _)]
  refine List.sum_eq_zero fun n hn => ?_
  obtain ⟨g, hg, rfl⟩ := List.mem_map.mp hn
  by_contra hne
  obtain ⟨d, hd, hle⟩ := hs.started g hg slot hne
  exact absurd (hlater d hd) (not_lt.mpr hle)

lemma stored_unexpired_eq_zero {usage : UsageTable} {slot : Slot} (second : ℕ)
    (h : usage.stored slot = 0) : (usage.unexpired second).stored slot = 0 := by
  unfold UsageTable.stored UsageTable.unexpired at *
  rw [Table.find?_filter]
  cases hrow : usage.find? slot with
  | none => rfl
  | some row =>
    rw [hrow] at h
    rw [Option.filter_some]
    split_ifs
    · exact h
    · rfl

/-- A refused resource is granted again once its window has ended. -/
theorem retry_not_refused {policy : QuotaPolicy} {s : QuotaRun py} (hs : s.Sound policy)
    {c : Call py} (hlast : ∀ d ∈ s.calls, d.stamp ≤ c.stamp) {resource : QuotaResource}
    {limit : QuotaLimit} (hlimit : policy.limitFor resource = some limit) {d : Call py} {a : ℤ}
    (hcharges : d.charges = [(resource, a)]) (hwithin : a ≤ limit.amount) (hexact : d.Exact policy)
    (hreach : ∀ w, limit.windowSeconds = some w → windowEnd c.stamp w ≤ d.stamp) {r : ℤ}
    {usage : UsageTable} : reserve policy d s.usage ≠ (.error (.quotaExceededError r), usage) := by
  intro h
  obtain ⟨hpos, key, resource', a', -, hmem, hfail⟩ := reserve_refused h
  rw [hcharges, List.mem_singleton] at hmem
  cases hmem
  obtain ⟨limit', start, hlimit', hstart, -, hexceeds⟩ := chargeOne_refused hfail
  rw [hlimit] at hlimit'
  cases hlimit'
  have hzero : (if limit.windowSeconds.isSome then
      (s.usage.unexpired ⌊d.stamp⌋₊).stored ⟨key, resource, start⟩ else 0) = 0 := by
    cases hw : limit.windowSeconds with
    | none => rfl
    | some w =>
      have hwindow : policy.window resource = some w := by simp [QuotaPolicy.window, hlimit, hw]
      have hwpos := limit.window_pos w hw
      rw [hw] at hstart
      obtain ⟨hstart, -, -⟩ := windowStart_exact hwpos
        (hexact hpos (resource, a) (by simp [hcharges]) w hwindow) hstart
      have hend : windowEnd c.stamp w ≤ start := by
        have hfloor : windowEnd c.stamp w ≤ ⌊d.stamp⌋₊ := Nat.le_floor (hreach w hw)
        rw [hstart]
        exact Nat.mul_le_mul_right w ((Nat.le_div_iff_mul_le hwpos).mpr hfloor)
      refine stored_unexpired_eq_zero _ (stored_later hs hwindow fun e he => ?_)
      calc ⌊e.stamp⌋₊ ≤ ⌊c.stamp⌋₊ := Nat.floor_mono (hlast e he)
        _ < windowEnd c.stamp w := by
          rw [windowEnd, add_mul, one_mul]
          exact Nat.lt_div_mul_add hwpos
        _ ≤ start := hend
  rw [hzero] at hexceeds
  omega

/-! ### Stamps below `2 ^ 53` -/

lemma dividesExactly_of_lt {stamp : ℚ} (hpos : 0 ≤ stamp) (hlt : stamp < 2 ^ 53) {w : ℕ}
    (hw : 0 < w) : DividesExactly stamp w := by
  intro f hf
  rw [Binary64.floorDiv_eq hpos hlt hw hf, ← Nat.floor_div_natCast]
  exact (natCast_floor_eq_intCast_floor (div_nonneg hpos (Nat.cast_nonneg w))).symm

/-- Below `2 ^ 53` every stamp divides exactly. -/
theorem Call.exact_of_lt {policy : QuotaPolicy} {c : Call py} (h : c.stamp < 2 ^ 53) :
    c.Exact policy := by
  intro hpos rc _ w hw
  obtain ⟨limit, -, hlimit⟩ := Option.bind_eq_some_iff.mp hw
  exact dividesExactly_of_lt hpos h (limit.window_pos w hlimit)

/-- Up to `2 ^ 53` the float sum of a stamp and its waiting time reaches the end of the window. -/
theorem windowEnd_le_retry {stamp : ℚ} (hpos : 0 ≤ stamp) {w : ℕ}
    (hend : windowEnd stamp w ≤ 2 ^ 53) {r : ℤ} (hr : (windowEnd stamp w : ℤ) - ⌊stamp⌋₊ ≤ r) :
    (windowEnd stamp w : ℚ) ≤ Binary64.round (stamp + r) := by
  refine Binary64.natCast_le_round hend ?_
  have hfloor : (⌊stamp⌋₊ : ℚ) ≤ stamp := Nat.floor_le hpos
  have hr' : (windowEnd stamp w : ℚ) - ⌊stamp⌋₊ ≤ r := by exact_mod_cast hr
  linarith

/-! ### Reservations are bounded and atomic -/

/-- In every run of exact calls, the charges to a window stay within the limit and are what the
table stores while the window is current; a refusal changes nothing, and the refused resource is
granted at the end of the waiting time. -/
theorem reserve_bounded_atomic (policy : QuotaPolicy) :
    (∀ s : QuotaRun py, Relation.ReflTransGen (QuotaStep policy (Call.Exact policy)) {} s →
      (∀ slot limit w, policy.limitFor slot.resource = some limit → limit.windowSeconds = some w →
        s.charged policy slot ≤ limit.amount ∧
          (s.Current slot w → s.usage.stored slot = s.charged policy slot)) ∧
      ∀ c : Call py, (∀ d ∈ s.calls, d.stamp ≤ c.stamp) → c.Exact policy →
        ∀ retryAfter usage,
          reserve policy c s.usage = (.error (.quotaExceededError retryAfter), usage) →
        ∃ key resource amount limit,
          refusedCharge policy c s.usage = some (key, resource, amount) ∧
          policy.limitFor resource = some limit ∧
          ∀ (d : Call py) (a : ℤ), d.charges = [(resource, a)] → a ≤ limit.amount →
            d.stamp = Binary64.round (c.stamp + retryAfter) → d.Exact policy →
            (∀ w, limit.windowSeconds = some w → windowEnd c.stamp w ≤ d.stamp) →
            ∀ r usage', reserve policy d usage ≠ (.error (.quotaExceededError r), usage')) ∧
    ∀ (c : Call py) usage retryAfter usage',
      reserve policy c usage = (.error (.quotaExceededError retryAfter), usage') →
        usage' = usage := by
  refine ⟨fun s hrun => ?_, fun c usage retryAfter usage' => reserve_error⟩
  have hs := QuotaRun.sound_of_run hrun
  refine ⟨fun slot limit w hlimit hw => ⟨hs.bounded slot limit hlimit, hs.stored slot w ?_⟩, ?_⟩
  · simp [QuotaPolicy.window, hlimit, hw]
  · intro c hlast _ retryAfter usage h
    obtain ⟨-, key, resource, amount, hrefused, -, hfail⟩ := reserve_refused h
    obtain ⟨limit, -, hlimit, -⟩ := chargeOne_refused hfail
    refine ⟨key, resource, amount, limit, hrefused, hlimit, ?_⟩
    intro d a hcharges hwithin _ hexact hreach r usage'
    rw [reserve_error h]
    exact retry_not_refused hs hlast hlimit hcharges hwithin hexact hreach

/-- One request in every three seconds. -/
def oneRequest : QuotaPolicy where
  limits := [⟨.requests, 1, some 3, by decide, by simp, by decide⟩]
  nodup := by decide

/-- A request of the single owner. -/
def ownerCall (stamp : ℚ) : Call Runtime.ascii where
  authority := ⟨.singleOwner, ⟨.unrestricted, {.read}, ⟨.read, by decide⟩⟩⟩
  charges := [(.requests, 1)]
  stamp := stamp
  nodup := by decide

/-- A second request at once is refused for three seconds, and then granted. -/
theorem reserve_bounded_atomic_twice :
    (QuotaRun.reserve oneRequest {} (ownerCall 0)).usage.stored
        ⟨⟨[(.agent, "__single_owner__")]⟩, .requests, 0⟩ =
      (QuotaRun.reserve oneRequest {} (ownerCall 0)).charged oneRequest
        ⟨⟨[(.agent, "__single_owner__")]⟩, .requests, 0⟩ ∧
    ∀ r usage, reserve oneRequest (ownerCall 3)
      (QuotaRun.reserve oneRequest {} (ownerCall 0)).usage ≠
        (.error (.quotaExceededError r), usage) := by
  have hall := @reserve_bounded_atomic Runtime.ascii oneRequest
  have hexact : ∀ stamp : ℚ, stamp < 2 ^ 53 → (ownerCall stamp).Exact oneRequest :=
    fun stamp h => Call.exact_of_lt h
  have hcalls : (QuotaRun.reserve oneRequest {} (ownerCall 0)).calls = [ownerCall 0] := by
    unfold QuotaRun.reserve
    split <;> rfl
  obtain ⟨hbounded, hretry⟩ := hall.1 (QuotaRun.reserve oneRequest {} (ownerCall 0))
    (.single ⟨ownerCall 0, by simp, hexact 0 (by norm_num), rfl⟩)
  constructor
  · refine (hbounded _ _ 3 rfl rfl).2 fun c hc => ?_
    obtain rfl := List.mem_singleton.mp (hcalls ▸ hc)
    decide +kernel
  · have hfirst : (reserve oneRequest (ownerCall 0)
        (QuotaRun.reserve oneRequest {} (ownerCall 0)).usage).1 =
          .error (.quotaExceededError 3) := by decide +kernel
    have hrefused : reserve oneRequest (ownerCall 0)
        (QuotaRun.reserve oneRequest {} (ownerCall 0)).usage =
          (.error (.quotaExceededError 3), _) := Prod.ext hfirst rfl
    obtain ⟨key, resource, amount, limit, hcharge, hlimit, hgranted⟩ :=
      hretry (ownerCall 0) (by simp [hcalls]) (hexact 0 (by norm_num)) 3 _ hrefused
    have hresource : refusedCharge oneRequest (ownerCall 0)
        (QuotaRun.reserve oneRequest {} (ownerCall 0)).usage =
          some (⟨[(.agent, "__single_owner__")]⟩, .requests, 1) := by decide +kernel
    rw [hresource] at hcharge
    cases hcharge
    cases hlimit
    have hstamp : (ownerCall 3).stamp = Binary64.round ((ownerCall 0).stamp + (3 : ℤ)) := by
      decide +kernel
    have h := hgranted (ownerCall 3) 1 rfl (by decide) hstamp (hexact 3 (by norm_num))
      (fun w hw => by cases hw; decide +kernel)
    rwa [reserve_error hrefused] at h

/-- At `2 ^ 60` a window has ended before it starts, and two calls share one request. -/
theorem reserve_exceeds_limit :
    ¬ ∀ (policy : QuotaPolicy) (s : QuotaRun Runtime.ascii),
      Relation.ReflTransGen (QuotaStep policy fun _ => True) {} s →
        ∀ slot limit w, policy.limitFor slot.resource = some limit →
          limit.windowSeconds = some w → s.charged policy slot ≤ limit.amount := by
  intro h
  let c := ownerCall (2 ^ 60)
  let s := QuotaRun.reserve oneRequest {} c
  have hfirst : QuotaStep oneRequest (fun _ => True) {} s := ⟨c, by simp, trivial, rfl⟩
  have hcalls : s.calls = [c] := by
    unfold s QuotaRun.reserve
    split <;> rfl
  have hsecond : QuotaStep oneRequest (fun _ => True) s (s.reserve oneRequest c) :=
    ⟨c, by simp [hcalls], trivial, rfl⟩
  have hle := h oneRequest _ (.tail (.single hfirst) hsecond)
    ⟨⟨[(.agent, "__single_owner__")]⟩, .requests, 2 ^ 60 - 64⟩ _ 3 rfl rfl
  revert hle
  decide +kernel

end CyberBrain.Tenancy
