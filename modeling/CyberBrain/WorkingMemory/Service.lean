import CyberBrain.Foundation.DateTime
import CyberBrain.Foundation.Table
import CyberBrain.WorkingMemory.Policy
import Mathlib.Logic.Function.Basic

/-!
# The working memory service

The service keeps a snapshot for each identity. There is no clock of its own: every call brings the
time, and a snapshot that has expired is dropped by whichever call comes across it first. What was
emitted is remembered by a ledger of the caller.
-/

namespace CyberBrain.WorkingMemory

open Python CyberBrain.Core

/-- `_utc`. -/
def utc (value : DateTime) : Except Exc Instant :=
  match value.offset with
  | none   => .error (.valueError "working memory timestamps must be timezone-aware")
  | some _ => orRaise value.instant? (.overflowError "date value out of range")

/-- `WorkingMemorySnapshot`. -/
structure WorkingMemorySnapshot where
  identity : WorkingMemoryIdentity
  revision : ℕ
  items : List WorkingMemoryItem
  estimatedTokens : ℕ
  createdAt : Instant
  updatedAt : Instant
  expiresAt : Instant
  selection : WorkingMemorySelectionReport
  revision_pos : 0 < revision
  total : estimatedTokens = (items.map (·.estimatedTokens)).sum
  expires_after : updatedAt < expiresAt
  nodup_ids : (items.map (·.candidateId)).Nodup

namespace WorkingMemorySnapshot

/-- `WorkingMemorySnapshot.__post_init__`. -/
def make (identity : WorkingMemoryIdentity) (revision : ℕ) (items : List WorkingMemoryItem)
    (estimatedTokens : ℕ) (createdAt updatedAt expiresAt : Instant)
    (selection : WorkingMemorySelectionReport) : Except Exc WorkingMemorySnapshot :=
  if hrevision : 0 < revision then
    if htotal : estimatedTokens = (items.map (·.estimatedTokens)).sum then
      if hexpires : updatedAt < expiresAt then
        if hnodup : (items.map (·.candidateId)).Nodup then
          .ok ⟨identity, revision, items, estimatedTokens, createdAt, updatedAt, expiresAt, selection,
            hrevision, htotal, hexpires, hnodup⟩
        else .error (.valueError "working memory snapshot candidate IDs must be unique")
      else .error (.valueError "working memory expires_at must be after updated_at")
    else .error (.valueError "working memory snapshot token total is inconsistent")
  else .error (.valueError "working memory revision must be positive")

variable {identity : WorkingMemoryIdentity} {revision tokens : ℕ} {items : List WorkingMemoryItem}
  {created updated expires : Instant} {selection : WorkingMemorySelectionReport}
  {snapshot : WorkingMemorySnapshot}

lemma of_make (h : make identity revision items tokens created updated expires selection =
    .ok snapshot) :
    snapshot.identity = identity ∧ snapshot.revision = revision ∧ snapshot.items = items ∧
      snapshot.createdAt = created ∧ snapshot.updatedAt = updated ∧ snapshot.expiresAt = expires ∧
      snapshot.selection = selection := by
  simp only [make] at h
  split_ifs at h
  cases h
  exact ⟨rfl, rfl, rfl, rfl, rfl, rfl, rfl⟩

/-- A snapshot that has not expired at a time. -/
def aliveAt (t : Instant) (snapshot : WorkingMemorySnapshot) : Bool := t < snapshot.expiresAt

lemma aliveAt_iff {t : Instant} : snapshot.aliveAt t = true ↔ ¬ snapshot.expiresAt ≤ t := by
  rw [aliveAt, decide_eq_true_iff]
  exact Nat.not_le.symm

lemma aliveAt_mono {t t' : Instant} (ht : t ≤ t') (h : snapshot.aliveAt t' = true) :
    snapshot.aliveAt t = true :=
  decide_eq_true (lt_of_le_of_lt (α := ℕ) ht (of_decide_eq_true h))

end WorkingMemorySnapshot

/-- `WorkingMemoryEmissionLedger`. -/
structure WorkingMemoryEmissionLedger where
  identity : WorkingMemoryIdentity
  emittedFingerprints : String → Option String := fun _ => none
  emittedTokens : ℕ := 0

structure WorkingMemoryEmission where
  identity : WorkingMemoryIdentity
  revision : ℕ
  items : List WorkingMemoryItem
  estimatedTokens : ℕ
  repeatedSuppressedCount : ℕ

structure WorkingMemoryCloseout where
  identity : WorkingMemoryIdentity
  existed : Bool
  finalRevision : Option ℕ
  finalItemCount : ℕ
  finalEstimatedTokens : ℕ
  deriving DecidableEq

/-- A computation that raises leaves the state as it is. -/
def attempt {σ α β : Type*} (x : Except Exc α) (s : σ) (f : α → Except Exc β × σ) :
    Except Exc β × σ :=
  match x with
  | .error e => (.error e, s)
  | .ok a    => f a

section Attempt

variable {σ α β : Type*} {s : σ} {f : α → Except Exc β × σ}

@[simp] lemma attempt_error (e : Exc) : attempt (.error e) s f = (.error e, s) := rfl

@[simp] lemma attempt_ok (a : α) : attempt (.ok a) s f = f a := rfl

end Attempt

/-- `_snapshots`. -/
abbrev Snapshots := Table WorkingMemorySnapshot.identity

namespace Snapshots

/-- `_active_snapshot_unlocked`. -/
def active (s : Snapshots) (identity : WorkingMemoryIdentity) (now : Instant) :
    Option WorkingMemorySnapshot × Snapshots :=
  match s.find? identity with
  | none          => (none, s)
  | some snapshot =>
    if snapshot.expiresAt ≤ now then (none, s.filter (·.identity ≠ identity))
    else (some snapshot, s)

end Snapshots

namespace WorkingMemoryEmissionLedger

/-- The ledger after an item was emitted. -/
def record (ledger : WorkingMemoryEmissionLedger) (item : WorkingMemoryItem) :
    WorkingMemoryEmissionLedger :=
  { ledger with
    emittedFingerprints :=
      Function.update ledger.emittedFingerprints item.candidateId (some item.contentFingerprint)
    emittedTokens := ledger.emittedTokens + item.estimatedTokens }

/-- The loop of `emit`: the items that are emitted, how many were suppressed, and the ledger. -/
def emitItems (ledger : WorkingMemoryEmissionLedger) :
    List WorkingMemoryItem → List WorkingMemoryItem × ℕ × WorkingMemoryEmissionLedger
  | []            => ([], 0, ledger)
  | item :: items =>
    if ledger.emittedFingerprints item.candidateId = some item.contentFingerprint then
      let (emitted, repeated, ledger) := emitItems ledger items
      (emitted, repeated + 1, ledger)
    else
      let (emitted, repeated, ledger) := emitItems (ledger.record item) items
      (item :: emitted, repeated, ledger)

/-- The emission of what was found, and the ledger after it. -/
def emission (ledger : WorkingMemoryEmissionLedger) (identity : WorkingMemoryIdentity) :
    Option WorkingMemorySnapshot → WorkingMemoryEmission × WorkingMemoryEmissionLedger
  | none          => (⟨identity, 0, [], 0, 0⟩, ledger)
  | some snapshot =>
    let (items, repeated, ledger) := ledger.emitItems snapshot.items
    let tokens := (items.map (·.estimatedTokens)).sum
    (⟨identity, snapshot.revision, items, tokens, repeated⟩, ledger)

end WorkingMemoryEmissionLedger

/-- `WorkingMemoryService`. -/
structure WorkingMemoryService where
  policy : WorkingMemoryPolicy
  selector : WorkingMemorySelector

namespace WorkingMemoryService

variable (service : WorkingMemoryService) (s : Snapshots) (identity : WorkingMemoryIdentity)
  (now : DateTime)

/-- The end of the time to live. -/
def expiry (instant : Instant) : Except Exc Instant :=
  orRaise (instant.add? (1000000 * service.policy.ttlSeconds : ℕ))
    (.overflowError "date value out of range")

/-- The snapshot of a selection after a previous one. -/
def snapshot (previous : Option WorkingMemorySnapshot) (items : List WorkingMemoryItem)
    (report : WorkingMemorySelectionReport) (instant : Instant) :
    Except Exc WorkingMemorySnapshot := do
  let revision := match previous with
    | none          => 1
    | some previous => previous.revision + 1
  let createdAt := match previous with
    | none          => instant
    | some previous => previous.createdAt
  let tokens := (items.map (·.estimatedTokens)).sum
  let expiresAt ← service.expiry instant
  WorkingMemorySnapshot.make identity revision items tokens createdAt instant expiresAt report

/-- `activate`. -/
def activate (candidates : List WorkingMemoryCandidate) :
    Except Exc WorkingMemorySnapshot × Snapshots :=
  attempt (utc now) s fun instant =>
  attempt (service.selector.select identity candidates) s fun (items, report) =>
  let (previous, s) := s.active identity instant
  attempt (service.snapshot identity previous items report instant) s fun snapshot =>
  (.ok snapshot, s.upsert snapshot)

/-- `get`. -/
def get : Except Exc (Option WorkingMemorySnapshot) × Snapshots :=
  attempt (utc now) s fun instant =>
  let (snapshot, s) := s.active identity instant
  (.ok snapshot, s)

/-- `emit`. -/
def emit (ledger : WorkingMemoryEmissionLedger) :
    Except Exc WorkingMemoryEmission × Snapshots × WorkingMemoryEmissionLedger :=
  if ledger.identity ≠ identity then
    (.error (.valueError "working memory emission ledger identity mismatch"), s, ledger)
  else
    let (snapshot, s) := get s identity now
    attempt snapshot (s, ledger) fun snapshot =>
    let (emission, ledger) := ledger.emission identity snapshot
    (.ok emission, s, ledger)

/-- The closeout of what was found. -/
def closeout : Option WorkingMemorySnapshot → WorkingMemoryCloseout
  | none          => ⟨identity, false, none, 0, 0⟩
  | some snapshot =>
    ⟨identity, true, some snapshot.revision, snapshot.items.length, snapshot.estimatedTokens⟩

/-- `close`. -/
def close : Except Exc WorkingMemoryCloseout × Snapshots :=
  attempt (utc now) s fun instant =>
  let (snapshot, s) := s.active identity instant
  (.ok (closeout identity snapshot), s.filter (·.identity ≠ identity))

/-- `purge_expired`. -/
def purgeExpired : Except Exc ℕ × Snapshots :=
  attempt (utc now) s fun instant =>
  (.ok (s.rows.filter (·.expiresAt ≤ instant)).length, s.filter (¬ ·.expiresAt ≤ instant))

end WorkingMemoryService

end CyberBrain.WorkingMemory
