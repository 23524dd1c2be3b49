import CyberBrain.Foundation.Except
import CyberBrain.Tenancy.Models

/-!
# Quota policies

A policy bounds, for each resource, the amount that one scope key may use. All resources but the
recall limit are counted in windows of a fixed length.
-/

namespace CyberBrain.Tenancy

open Python

inductive QuotaResource
  | requests
  | writes
  | recallLimit
  | dreamEnqueue
  | backgroundReasoning
  deriving DecidableEq, Repr

/-- A positive bound on one resource, with a positive window where the resource is counted in
windows. -/
structure QuotaLimit where
  resource : QuotaResource
  amount : ℕ
  windowSeconds : Option ℕ
  amount_pos : 0 < amount
  window_pos : ∀ w ∈ windowSeconds, 0 < w
  windowed_iff : windowSeconds.isSome = true ↔ resource ≠ .recallLimit

/-- At most one limit for each resource. -/
structure QuotaPolicy where
  limits : List QuotaLimit
  nodup : (limits.map (·.resource)).Nodup

/-- `QuotaPolicy.limit_for`. -/
def QuotaPolicy.limitFor (policy : QuotaPolicy) (resource : QuotaResource) : Option QuotaLimit :=
  policy.limits.find? fun limit => limit.resource = resource

/-- The window in which a policy counts a resource. -/
def QuotaPolicy.window (policy : QuotaPolicy) (resource : QuotaResource) : Option ℕ :=
  (policy.limitFor resource).bind (·.windowSeconds)

/-! ### Scope keys -/

/-- The identity values a quota is charged to, in dimension order. -/
structure QuotaScopeKey where
  values : List (IdentityDimension × String)
  deriving DecidableEq, Repr

/-- The loop of `QuotaScopeKey.__post_init__` over the remaining pairs. -/
def normalizePairs (py : Runtime) (normalized : List (IdentityDimension × String)) :
    List (IdentityDimension × String) → Except Exc (List (IdentityDimension × String))
  | []                 => .ok normalized
  | (d, value) :: rest =>
    if d ∈ normalized.map (·.1) then
      .error (.valueError ("duplicate quota key dimension: " ++ d.text))
    else
      match normalizeText py value with
      | .error e => .error e
      | .ok v    => normalizePairs py (normalized ++ [(d, v)]) rest

/-- `QuotaScopeKey(pairs)`. -/
def QuotaScopeKey.make (py : Runtime) (pairs : List (IdentityDimension × String)) :
    Except Exc QuotaScopeKey :=
  if pairs = [] then
    .error (.valueError "quota scope key must contain at least one identity dimension")
  else
    match normalizePairs py [] pairs with
    | .error e       => .error e
    | .ok normalized => .ok
      ⟨IdentityDimension.order.filterMap fun d => (normalized.lookup d).map (d, ·)⟩

/-! ### Decisions -/

structure QuotaDecisionInput where
  resource : QuotaResource
  scopeKey : QuotaScopeKey
  used : ℕ
  requested : ℕ
  requested_pos : 0 < requested

/-- `QuotaDecisionInput(...)`. -/
def QuotaDecisionInput.make (resource : QuotaResource) (scopeKey : QuotaScopeKey) (used : ℕ)
    (requested : ℤ) : Except Exc QuotaDecisionInput :=
  if h : 0 < requested.toNat then .ok ⟨resource, scopeKey, used, requested.toNat, h⟩
  else .error (.valueError "quota requested amount must be positive")

inductive QuotaReason
  | notConfigured
  | exceeded
  | allowed
  deriving DecidableEq, Repr

structure QuotaDecision where
  allow : Bool
  reasonCode : QuotaReason
  limit : Option QuotaLimit
  remaining : Option ℕ

/-- `evaluate_quota`. -/
def evaluateQuota (policy : QuotaPolicy) (input : QuotaDecisionInput) : QuotaDecision :=
  match policy.limitFor input.resource with
  | none       => ⟨true, .notConfigured, none, none⟩
  | some limit =>
    let projected := input.used + input.requested
    if limit.amount < projected then ⟨false, .exceeded, limit, some (limit.amount - input.used)⟩
    else ⟨true, .allowed, limit, some (limit.amount - projected)⟩

lemma evaluateQuota_allow_iff {policy : QuotaPolicy} {input : QuotaDecisionInput}
    {limit : QuotaLimit} (h : policy.limitFor input.resource = some limit) :
    (evaluateQuota policy input).allow = true ↔ input.used + input.requested ≤ limit.amount := by
  simp only [evaluateQuota, h]
  split_ifs with hlt <;> simp <;> omega

lemma QuotaPolicy.resource_of_limitFor {policy : QuotaPolicy} {resource : QuotaResource}
    {limit : QuotaLimit} (h : policy.limitFor resource = some limit) :
    limit.resource = resource := by
  simpa using List.find?_some h

/-! ### The keys of an authority -/

/-- The pairs of every tenant and of every user within each tenant. -/
def principalPairs (tenants users : List String) : List (List (IdentityDimension × String)) :=
  (tenants.map fun t => [(.tenant, t)]) ++ users.flatMap fun u =>
    if tenants = [] then [[(.user, u)]] else tenants.map fun t => [(.tenant, t), (.user, u)]

/-- The pairs that `reserve` charges: the principals and, without any, every agent. -/
def quotaPairs {py : Runtime} (scope : IdentityScope py) :
    List (List (IdentityDimension × String)) :=
  let principals := principalPairs (scope.values .tenant).sorted (scope.values .user).sorted
  if principals ≠ [] then principals
  else if scope.values .agent ≠ ∅ then
    (scope.values .agent).sorted.map fun a => [(IdentityDimension.agent, a)]
  else [[(.agent, "__single_owner__")]]

/-- The scope keys that `reserve` charges. -/
def quotaKeys {py : Runtime} (scope : IdentityScope py) : Except Exc (List QuotaScopeKey) :=
  (quotaPairs scope).mapM (QuotaScopeKey.make py)

section

variable {py : Runtime}

lemma make_single (d : IdentityDimension) {v : String} (h : Normalized py v) :
    QuotaScopeKey.make py [(d, v)] = .ok ⟨[(d, v)]⟩ := by
  have hv : normalizeText py v = .ok v := h
  have hpairs : normalizePairs py [] [(d, v)] = .ok [(d, v)] := by simp [normalizePairs, hv]
  rw [QuotaScopeKey.make, if_neg (List.cons_ne_nil _ _), hpairs]
  cases d <;> rfl

lemma make_tenant_user {t u : String} (ht : Normalized py t) (hu : Normalized py u) :
    QuotaScopeKey.make py [(.tenant, t), (.user, u)] = .ok ⟨[(.tenant, t), (.user, u)]⟩ := by
  have ht' : normalizeText py t = .ok t := ht
  have hu' : normalizeText py u = .ok u := hu
  have hpairs : normalizePairs py [] [(.tenant, t), (.user, u)] =
      .ok [(.tenant, t), (.user, u)] := by simp [normalizePairs, ht', hu']
  rw [QuotaScopeKey.make, if_neg (List.cons_ne_nil _ _), hpairs]
  rfl

lemma error_of_normalizePairs {normalized pairs : List (IdentityDimension × String)} {e : Exc}
    (h : normalizePairs py normalized pairs = .error e) : ∃ message, e = .valueError message := by
  induction pairs generalizing normalized with
  | nil => cases h
  | cons pair rest ih =>
    unfold normalizePairs at h
    split_ifs at h
    · cases h
      exact ⟨_, rfl⟩
    split at h
    · rename_i e' he
      cases h
      exact error_of_normalizeText he
    · exact ih h

/-- Scope keys are only refused with value errors. -/
lemma error_of_quotaKeys {scope : IdentityScope py} {e : Exc} (h : quotaKeys scope = .error e) :
    ∃ message, e = .valueError message := by
  obtain ⟨-, pairs, -, -, -, he⟩ := exists_of_mapM_error h
  unfold QuotaScopeKey.make at he
  split_ifs at he
  · cases he
    exact ⟨_, rfl⟩
  split at he
  · rename_i e' herror
    cases he
    exact error_of_normalizePairs herror
  · cases he

lemma nodup_principalPairs {tenants users : List String} (ht : tenants.Nodup)
    (hu : users.Nodup) : (principalPairs tenants users).Nodup := by
  have hsingle : (tenants.map fun t => [(IdentityDimension.tenant, t)]).Nodup :=
    ht.map fun v w h => by simpa using h
  unfold principalPairs
  rw [List.nodup_append]
  refine ⟨hsingle, ?_, ?_⟩
  · rw [List.nodup_flatMap]
    constructor
    · intro u _
      split_ifs
      · exact List.nodup_singleton _
      · exact ht.map fun v w h => by simpa using h
    · refine hu.imp fun hne pairs h h' => hne ?_
      split_ifs at h h'
      · simp_all
      · obtain ⟨t, _, rfl⟩ := List.mem_map.mp h
        obtain ⟨t', _, heq⟩ := List.mem_map.mp h'
        simp_all
  · rintro _ hpairs _ hpairs' rfl
    obtain ⟨t, htenant, rfl⟩ := List.mem_map.mp hpairs
    obtain ⟨u, _, hmem⟩ := List.mem_flatMap.mp hpairs'
    rw [if_neg (List.ne_nil_of_mem htenant)] at hmem
    simp at hmem

lemma make_principalPairs {tenants users : List String} (ht : ∀ t ∈ tenants, Normalized py t)
    (hu : ∀ u ∈ users, Normalized py u) :
    ∀ pairs ∈ principalPairs tenants users, QuotaScopeKey.make py pairs = .ok ⟨pairs⟩ := by
  intro pairs hpairs
  rcases List.mem_append.mp hpairs with hpairs | hpairs
  · obtain ⟨t, hmem, rfl⟩ := List.mem_map.mp hpairs
    exact make_single _ (ht t hmem)
  · obtain ⟨u, hmem, hpairs⟩ := List.mem_flatMap.mp hpairs
    split_ifs at hpairs
    · rw [List.mem_singleton.mp hpairs]
      exact make_single _ (hu u hmem)
    · obtain ⟨t, hmem', rfl⟩ := List.mem_map.mp hpairs
      exact make_tenant_user (ht t hmem') (hu u hmem)

lemma nodup_of_make {l : List (List (IdentityDimension × String))} {keys : List QuotaScopeKey}
    (hl : l.Nodup) (hmake : ∀ pairs ∈ l, QuotaScopeKey.make py pairs = .ok ⟨pairs⟩)
    (h : l.mapM (QuotaScopeKey.make py) = .ok keys) : keys.Nodup := by
  rw [mapM_eq_ok_of_forall hmake] at h
  cases h
  exact hl.map fun _ _ h => QuotaScopeKey.mk.inj h

/-- A reservation charges every key once. -/
theorem nodup_quotaKeys {scope : IdentityScope py} {keys : List QuotaScopeKey}
    (h : quotaKeys scope = .ok keys) : keys.Nodup := by
  unfold quotaKeys quotaPairs at h
  dsimp only at h
  split_ifs at h
  · refine nodup_of_make (nodup_principalPairs ?_ ?_) (make_principalPairs ?_ ?_) h
    · exact FrozenSet.nodup_sorted _
    · exact FrozenSet.nodup_sorted _
    · exact scope.normalized .tenant
    · exact scope.normalized .user
  · refine nodup_of_make ((FrozenSet.nodup_sorted _).map fun v w h => by simpa using h) ?_ h
    intro pairs hpairs
    obtain ⟨a, hmem, rfl⟩ := List.mem_map.mp hpairs
    exact make_single _ (scope.normalized .agent a hmem)
  · obtain ⟨b, bs, -, hbs, rfl⟩ := List.forall₂_cons_left_iff.mp (forall₂_of_mapM h)
    rw [List.forall₂_nil_left_iff.mp hbs]
    exact List.nodup_singleton _

end

end CyberBrain.Tenancy
