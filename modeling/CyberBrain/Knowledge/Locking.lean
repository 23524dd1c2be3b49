import CyberBrain.Foundation.KeyedLock
import CyberBrain.Knowledge.Histories

/-!
# Locking

Without a process lock file, the guarded section of a `store` runs under the lock of the call's
identity key. The key contains the `repr` of the context, which tells apart contexts that Python's
equality, by which the lookups compare, does not.
-/

namespace CyberBrain.Knowledge

open Program Python Relations Schemas Tenancy

variable {py : Runtime}

/-- The record is one that the active lookup of a call matches. -/
def Matches (s : Subject) (r : KnowledgeRecord py) : Prop :=
  (activeFilter s).accepts r.fields = true ∧ sameContext r s.context = true ∧
    samePartition r s.partition = true

lemma Matches.identity {s : Subject} {r : KnowledgeRecord py} (h : Matches s r) :
    identityOf r = s.identity :=
  identityOf_eq_iff.mpr ⟨(accepts_activeFilter.mp h.1).1, h.2⟩

instance (s : Subject) (r : KnowledgeRecord py) : Decidable (Matches s r) :=
  inferInstanceAs (Decidable (_ ∧ _ ∧ _))

/-- Calls about one entity have the same key exactly when the sorted items of their contexts are
the same, and not only equal in Python. -/
lemma identityKey_eq_iff {a b : Subject} (h : a.identity = b.identity) :
    identityKey py a = identityKey py b ↔ sortItems a.context = sortItems b.context := by
  have hlabels : a.toEntityLabels = b.toEntityLabels := congrArg Identity.toEntityLabels h
  have hpartition : a.partition = b.partition := congrArg Identity.partition h
  simp only [identityKey, hlabels, hpartition, String.intercalate_cons_cons, String.append_right_inj,
    String.intercalate_singleton, String.append_left_inj]
  exact ⟨fun heq => reprPairs_injective py (String.ofList_injective heq), fun heq => by rw [heq]⟩

/-- The calls `i` and `j` look for the same active record. Their guarded sections run under one
lock, and exclude each other, exactly when the sorted items of their contexts are the same. -/
theorem guarded_exclude_iff {ι : Type} [DecidableEq ι] {p : ι → Prepared py} {i j : ι}
    (hij : i ≠ j) {r : KnowledgeRecord py} (hi : Matches (p i).subject r)
    (hj : Matches (p j).subject r) :
    (identityKey py (p i).subject = identityKey py (p j).subject ∧
      LockState.Excludes (fun k => identityKey py (p k).subject) i j) ↔
    sortItems (p i).subject.context = sortItems (p j).subject.context := by
  rw [LockState.excludes_iff hij, and_self]
  exact identityKey_eq_iff (hi.identity.symm.trans hj.identity)

/-- One context, with the keys of an inner object in either order. -/
def nestedContext (swapped : Bool) : Context :=
  let inner := [("x", .int 1), ("y", .int 2)]
  [("case", .obj (if swapped then inner.reverse else inner))]

def nestedCall (swapped : Bool) : StoreCall Runtime.ascii :=
  let call := sampleCall .ascii 0 "a" 1 9
  { call with args := { call.args with context := nestedContext swapped } }

/-- What `store` has computed of such a call when it comes to the lock. -/
def nestedPrepared (swapped : Bool) : Prepared Runtime.ascii where
  subject := { domain := "d", topic := "t", entityType := "e", entityName := "n"
               context := nestedContext swapped
               partition := { recordClass := .selfModelHypothesis } }
  content := "a"
  digest := "a"
  relations := none
  extensions := {}

/-- The record that the first of the two calls stores. -/
def nestedRecord : KnowledgeRecord Runtime.ascii :=
  buildRecord sampleService (nestedCall false) (nestedPrepared false) none {} none (.ofMicros 0)

theorem guarded_exclude_iff_nested :
    (identityKey Runtime.ascii (nestedPrepared false).subject =
        identityKey Runtime.ascii (nestedPrepared true).subject ∧
      LockState.Excludes (fun k => identityKey Runtime.ascii (nestedPrepared k).subject)
        false true) ↔ sortItems (nestedContext false) = sortItems (nestedContext true) :=
  guarded_exclude_iff (p := nestedPrepared) (by decide) (r := nestedRecord) (by decide +kernel)
    (by decide +kernel)

/-- Two calls look for the same record, and both can be inside their guarded sections. -/
theorem nested_overlap : (∀ k, prepare sampleService (nestedCall k) = .ok (nestedPrepared k)) ∧
    Matches (nestedPrepared false).subject nestedRecord ∧
    Matches (nestedPrepared true).subject nestedRecord ∧
    ¬ LockState.Excludes (fun k => identityKey Runtime.ascii (nestedPrepared k).subject)
      false true := by
  refine ⟨by rintro (_ | _) <;> rfl, by decide +kernel, by decide +kernel, ?_⟩
  rw [LockState.excludes_iff (by decide)]
  decide +kernel

end CyberBrain.Knowledge
