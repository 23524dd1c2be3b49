import CyberBrain.Foundation.FrozenSet
import CyberBrain.Tenancy.Normalization
import Mathlib.Data.Finset.Basic
import Mathlib.Tactic.FinCases

/-!
# Identity scopes and grants

An identity scope restricts each of five dimensions to a set of canonical identifiers; an empty set
leaves the dimension unconstrained. A caller's authority is a grant, a scope with the operation
classes it may use, under a deployment mode that asks for some dimensions.
-/

namespace CyberBrain.Tenancy

open Python

/-! ### Dimensions -/

inductive IdentityDimension
  | tenant
  | user
  | agent
  | project
  | session
  deriving DecidableEq, Repr

namespace IdentityDimension

/-- The value of the enumeration member. -/
def text : IdentityDimension → String
  | tenant  => "tenant"
  | user    => "user"
  | agent   => "agent"
  | project => "project"
  | session => "session"

/-- The payload field and selector of the dimension, from `IDENTITY_FIELDS`. -/
def field : IdentityDimension → String
  | session => "session_id"
  | d       => d.text

/-- `_DIMENSION_ORDER`. -/
def order : List IdentityDimension := [tenant, user, agent, project, session]

@[simp] lemma mem_order (d : IdentityDimension) : d ∈ order := by cases d <;> decide

lemma field_injective : Function.Injective field := by
  intro d e h
  cases d <;> cases e <;> first | rfl | exact absurd h (by decide)

/-- Run a fallible computation on every dimension, in order. -/
def traverse {ε α : Type} (f : IdentityDimension → Except ε α) :
    Except ε (IdentityDimension → α) := do
  let t ← f tenant
  let u ← f user
  let a ← f agent
  let p ← f project
  let s ← f session
  pure fun
    | tenant => t | user => u | agent => a | project => p | session => s

lemma traverse_eq_ok_iff {ε α : Type} {f : IdentityDimension → Except ε α}
    {g : IdentityDimension → α} : traverse f = .ok g ↔ ∀ d, f d = .ok (g d) := by
  constructor
  · intro h
    unfold traverse at h
    cases ht : f tenant <;> cases hu : f user <;> cases ha : f agent <;>
      cases hp : f project <;> cases hs : f session <;> simp only [ht, hu, ha, hp, hs] at h <;>
      cases h
    intro d
    cases d <;> assumption
  · intro h
    unfold traverse
    simp only [h]
    refine congrArg Except.ok (funext fun d => ?_)
    cases d <;> rfl

end IdentityDimension

/-! ### Scopes -/

variable (py : Runtime)

/-- `_normalize_values`. -/
def normalizeValues (vs : List String) : Except Exc (FrozenSet String) :=
  (vs.mapM (normalizeText py)).map FrozenSet.ofList

/-- The values of every dimension, in canonical form. -/
structure IdentityScope where
  values : IdentityDimension → FrozenSet String
  normalized : ∀ d, ∀ v ∈ values d, Normalized py v

variable {py}

lemma mapM_normalizeText {vs ws : List String} (h : vs.mapM (normalizeText py) = .ok ws) :
    ∀ w ∈ ws, ∃ v ∈ vs, normalizeText py v = .ok w := by
  induction vs generalizing ws with
  | nil => cases h; simp
  | cons v vs ih =>
    rw [List.mapM_cons] at h
    cases hv : normalizeText py v with
    | error e => rw [hv] at h; cases h
    | ok u =>
      cases hvs : vs.mapM (normalizeText py) with
      | error e => rw [hv, hvs] at h; cases h
      | ok us =>
        rw [hv, hvs] at h
        cases h
        intro w hw
        rcases List.mem_cons.mp hw with rfl | hw
        · exact ⟨v, by simp, hv⟩
        · obtain ⟨v', hv', hw'⟩ := ih hvs w hw
          exact ⟨v', by simp [hv'], hw'⟩

lemma normalizeValues_spec {vs : List String} {s : FrozenSet String}
    (h : normalizeValues py vs = .ok s) : ∀ w ∈ s, ∃ v ∈ vs, normalizeText py v = .ok w := by
  unfold normalizeValues at h
  cases hvs : vs.mapM (normalizeText py) with
  | error e => rw [hvs] at h; cases h
  | ok ws =>
    rw [hvs] at h
    cases h
    simpa using mapM_normalizeText hvs

/-- Canonical values are their own normal form. -/
lemma normalizeValues_sorted {s : FrozenSet String} (h : ∀ v ∈ s, Normalized py v) :
    normalizeValues py s.sorted = .ok s := by
  have hmap : ∀ l : List String, (∀ v ∈ l, Normalized py v) →
      l.mapM (normalizeText py) = .ok l := by
    intro l hl
    induction l with
    | nil => rfl
    | cons v l ih =>
      have hv : normalizeText py v = .ok v := hl v (by simp)
      rw [List.mapM_cons, hv, ih fun w hw => hl w (by simp [hw])]
      rfl
  rw [normalizeValues, hmap _ h]
  exact congrArg Except.ok (FrozenSet.ofList_sorted s)

variable (py) in
/-- `IdentityScope(...)`, which normalises the values it is given. -/
def IdentityScope.make (raw : IdentityDimension → List String) : Except Exc (IdentityScope py) :=
  match h : IdentityDimension.traverse fun d => normalizeValues py (raw d) with
  | .error e => .error e
  | .ok vs   => .ok
    { values := vs
      normalized := fun d v hv =>
        have ⟨_, _, hw⟩ := normalizeValues_spec (IdentityDimension.traverse_eq_ok_iff.mp h d) v hv
        normalized_of_normalizeText hw }

@[ext] lemma IdentityScope.ext {s t : IdentityScope py} (h : ∀ d, s.values d = t.values d) :
    s = t := by
  obtain ⟨v, _⟩ := s
  obtain ⟨w, _⟩ := t
  obtain rfl : v = w := funext h
  rfl

lemma IdentityScope.make_eq_ok_iff {raw : IdentityDimension → List String}
    {s : IdentityScope py} :
    IdentityScope.make py raw = .ok s ↔ ∀ d, normalizeValues py (raw d) = .ok (s.values d) := by
  rw [← IdentityDimension.traverse_eq_ok_iff]
  unfold IdentityScope.make
  constructor
  · intro h
    split at h
    · cases h
    · rename_i vs hvs
      cases h
      exact hvs
  · intro h
    split
    · rename_i e he
      rw [he] at h
      cases h
    · rename_i vs hvs
      rw [hvs] at h
      cases h
      rfl

/-- The scope without restrictions. -/
def IdentityScope.unrestricted : IdentityScope py := ⟨fun _ => ∅, by simp⟩

/-- `IdentityScope.as_dict`: the constrained dimensions with their sorted values. -/
def IdentityScope.asDict (s : IdentityScope py) : List (IdentityDimension × List String) :=
  (IdentityDimension.order.filter fun d => s.values d ≠ ∅).map fun d => (d, (s.values d).sorted)

lemma IdentityScope.mem_asDict {s : IdentityScope py} {d : IdentityDimension} {vs : List String} :
    (d, vs) ∈ s.asDict ↔ s.values d ≠ ∅ ∧ vs = (s.values d).sorted := by
  simp only [asDict, List.mem_map, List.mem_filter, IdentityDimension.mem_order, true_and,
    decide_eq_true_eq, Prod.mk.injEq]
  constructor
  · rintro ⟨e, he, rfl, rfl⟩; exact ⟨he, rfl⟩
  · rintro ⟨hd, rfl⟩; exact ⟨d, hd, rfl, rfl⟩

lemma IdentityScope.asDict_eq_nil_iff {s : IdentityScope py} :
    s.asDict = [] ↔ ∀ d, s.values d = ∅ := by
  simp [asDict, List.filter_eq_nil_iff]

/-! ### Grants and authorities -/

inductive OperationClass
  | read
  | write
  | adminReview
  | backgroundReasoning
  deriving DecidableEq, Repr

def OperationClass.text : OperationClass → String
  | read                => "read"
  | write               => "write"
  | adminReview         => "admin_review"
  | backgroundReasoning => "background_reasoning"

/-- All classes, sorted by their values. -/
def OperationClass.sorted : List OperationClass := [adminReview, backgroundReasoning, read, write]

inductive DeploymentMode
  | singleOwner
  | agentReady
  | multiUser
  deriving DecidableEq, Repr

def DeploymentMode.text : DeploymentMode → String
  | singleOwner => "single_owner"
  | agentReady  => "agent_ready"
  | multiUser   => "multi_user"

/-- The dimensions a deployment mode asks for. The source holds them in an unordered set; they are
visited in dimension order here, which decides no more than the reason code of a refusal. -/
def DeploymentMode.minimumIdentityDimensions : DeploymentMode → List IdentityDimension
  | singleOwner => []
  | agentReady  => [.agent]
  | multiUser   => [.tenant, .user]

variable (py) in
/-- A scope and the operation classes it is granted, at least one. -/
structure AuthorityGrant where
  scope : IdentityScope py
  operations : Finset OperationClass
  operations_nonempty : operations.Nonempty

variable (py) in
structure CallerAuthority where
  deploymentMode : DeploymentMode
  grant : AuthorityGrant py

/-- A dimension that the caller's grant constrains. -/
def CallerAuthority.Constrains (a : CallerAuthority py) (d : IdentityDimension) : Prop :=
  a.grant.scope.values d ≠ ∅

variable (py) in
/-- `authority_for_authenticated_scope`. -/
def authorityForAuthenticatedScope (mode : DeploymentMode) (scope : IdentityScope py)
    (operations : Finset OperationClass) : Except Exc (CallerAuthority py) :=
  match mode.minimumIdentityDimensions.find? fun d => (scope.values d).sorted.length ≠ 1 with
  | some d => .error (.valueError ("authenticated caller requires exactly one " ++ d.text ++
      " for deployment mode " ++ mode.text))
  | none   =>
    if h : operations.Nonempty then .ok ⟨mode, ⟨scope, operations, h⟩⟩
    else .error (.valueError "authority grant must allow at least one operation")

lemma authorityForAuthenticatedScope_eq_ok {mode : DeploymentMode} {scope : IdentityScope py}
    {operations : Finset OperationClass} {a : CallerAuthority py}
    (h : authorityForAuthenticatedScope py mode scope operations = .ok a) :
    a.deploymentMode = mode ∧ a.grant.scope = scope ∧ a.grant.operations = operations ∧
      ∀ d ∈ mode.minimumIdentityDimensions, (scope.values d).sorted.length = 1 := by
  unfold authorityForAuthenticatedScope at h
  split at h
  · cases h
  · rename_i hfind
    split_ifs at h
    cases h
    exact ⟨rfl, rfl, rfl, by simpa using hfind⟩

/-- A tenant's user with two sessions, as a multi-user deployment binds it. -/
def sessionCaller : CallerAuthority Runtime.ascii where
  deploymentMode := .multiUser
  grant :=
    { scope :=
        { values := fun
            | .tenant  => FrozenSet.ofList ["acme"]
            | .user    => FrozenSet.ofList ["ann"]
            | .session => FrozenSet.ofList ["s1", "s2"]
            | _        => ∅
          normalized := fun d v hv => by
            cases d <;> simp only [FrozenSet.mem_ofList, FrozenSet.notMem_empty] at hv <;>
              fin_cases hv <;> decide +kernel }
      operations := {.read, .write}
      operations_nonempty := ⟨.read, by decide⟩ }

end CyberBrain.Tenancy
