import CyberBrain.Foundation.Lists
import CyberBrain.WorkingMemory.Selection
import CyberBrain.WorkingMemory.Sessions

/-!
# Histories of sessions

The history of a run says which snapshot of an identity is live, what was emitted last on a ledger,
and how much. The service answers by this history, although it keeps only some of its snapshots.
-/

namespace CyberBrain.WorkingMemory

open Python CyberBrain.Core

namespace Sessions

variable {ι : Type*} {log : List (Entry ι)} {call : Call ι} {who : WorkingMemoryIdentity}

/-! ### The history -/

section History

variable [DecidableEq ι] (log)

/-- The snapshot of the last activation of an identity, if it was not closed since. -/
def latest (who : WorkingMemoryIdentity) : Option WorkingMemorySnapshot :=
  log.foldl (noted who) none

/-- The snapshot that is neither closed nor expired. -/
def live (who : WorkingMemoryIdentity) (t : Instant) : Option WorkingMemorySnapshot :=
  (latest log who).filter (·.aliveAt t)

def emissions (ledger : ι) : List WorkingMemoryEmission := log.filterMap (emissionOn ledger)

/-- The items that were emitted on a ledger, in their order. -/
def emittedItems (ledger : ι) : List WorkingMemoryItem := log.flatMap (itemsOn ledger)

/-- The fingerprint with which a candidate was last emitted on a ledger. -/
def lastFingerprint (ledger : ι) (id : String) : Option String :=
  ((emittedItems log ledger).reverse.find? (·.candidateId = id)).map (·.contentFingerprint)

end History

lemma noted_filter (t : Instant) (kept : Option WorkingMemorySnapshot) (entry : Entry ι) :
    (noted who (kept.filter (·.aliveAt t)) entry).filter (·.aliveAt t) =
      (noted who kept entry).filter (·.aliveAt t) := by
  have hself : (kept.filter (·.aliveAt t)).filter (·.aliveAt t) = kept.filter (·.aliveAt t) := by
    simp only [Option.filter_filter, Bool.and_self]
  unfold noted
  split
  · split_ifs
    · rfl
    · exact hself
  · split_ifs
    · rfl
    · exact hself
  · exact hself

lemma live_concat (t : Instant) (entry : Entry ι) :
    live (log ++ [entry]) who t = (noted who (live log who t) entry).filter (·.aliveAt t) := by
  rw [live, live, noted_filter, latest, List.foldl_append]
  rfl

/-! ### What is recorded on a ledger -/

section Record

variable (ledger : WorkingMemoryEmissionLedger) (items : List WorkingMemoryItem)

lemma record_identity : (items.foldl .record ledger).identity = ledger.identity := by
  induction items generalizing ledger with
  | nil              => rfl
  | cons item items ih => exact ih (ledger.record item)

lemma record_fingerprint (id : String) :
    (items.foldl .record ledger).emittedFingerprints id =
      ((items.reverse.find? (·.candidateId = id)).map (·.contentFingerprint)).or
        (ledger.emittedFingerprints id) := by
  induction items generalizing ledger with
  | nil                => rfl
  | cons item items ih =>
    rw [List.foldl_cons, ih, List.reverse_cons, List.find?_append, Option.map_or, Option.or_assoc]
    congr 1
    by_cases h : item.candidateId = id
    · simp [WorkingMemoryEmissionLedger.record, h]
    · simp [WorkingMemoryEmissionLedger.record, h, Function.update_of_ne (Ne.symm h)]

lemma record_tokens : (items.foldl .record ledger).emittedTokens =
    ledger.emittedTokens + (items.map (·.estimatedTokens)).sum := by
  induction items generalizing ledger with
  | nil                => rfl
  | cons item items ih =>
    rw [List.foldl_cons, ih, List.map_cons, List.sum_cons, ← Nat.add_assoc]
    rfl

/-- The loop of `emit` passes over the items that were last emitted as they are. -/
lemma emitItems_items (hnodup : (items.map (·.candidateId)).Nodup) :
    (ledger.emitItems items).1 = items.filter fun item =>
      ledger.emittedFingerprints item.candidateId ≠ some item.contentFingerprint := by
  induction items generalizing ledger with
  | nil                => rfl
  | cons item items ih =>
    obtain ⟨hitem, hnodup⟩ := List.nodup_cons.mp hnodup
    rw [WorkingMemoryEmissionLedger.emitItems]
    split_ifs with h
    · rw [List.filter_cons_of_neg (by simpa using h)]
      exact ih ledger hnodup
    · rw [List.filter_cons_of_pos (by simpa using h)]
      show item :: _ = _
      congr 1
      refine (ih (ledger.record item) hnodup).trans (List.filter_congr fun other hother => ?_)
      -- the record of an item leaves the fingerprints of the others
      have hne : other.candidateId ≠ item.candidateId := fun heq =>
        hitem (List.mem_map.mpr ⟨other, hother, heq⟩)
      simp only [WorkingMemoryEmissionLedger.record, Function.update_of_ne hne]

end Record

/-! ### The state after a history -/

variable [DecidableEq ι] (service : WorkingMemoryService) {s s' : Sessions ι}
  {owner : ι → WorkingMemoryIdentity}

/-- The state after a history: what is visible is live, and the ledgers hold what was emitted. -/
structure Records (owner : ι → WorkingMemoryIdentity) (log : List (Entry ι)) (s : Sessions ι) :
    Prop where
  visible : ∀ t, (∀ entry ∈ log, entry.1.NotAfter t) → ∀ who,
    s.snapshots.view who t = live log who t
  ledgers : ∀ ledger, s.ledgers ledger =
    (emittedItems log ledger).foldl .record { identity := owner ledger }

namespace Records

lemma opened (owner : ι → WorkingMemoryIdentity) : Records owner [] (.opened owner) where
  visible _ _ _ := rfl
  ledgers _ := rfl

lemma step (h : Records owner log s) (call : Call ι) :
    Records owner (log ++ [(call, (s.step service call).1)]) (s.step service call).2 where
  visible t ht who := by
    have hcall : call.NotAfter t := ht _ (List.mem_append_right _ (List.mem_singleton_self _))
    have hlog := fun entry hentry => ht entry (List.mem_append_left _ hentry)
    rw [view_step hcall, h.visible t hlog, live_concat]
  ledgers ledger := by
    have hitems : emittedItems (log ++ [(call, (s.step service call).1)]) ledger =
        emittedItems log ledger ++ itemsOn ledger (call, (s.step service call).1) := by
      simp only [emittedItems, List.flatMap_append, List.flatMap_singleton]
    rw [ledgers_step, h.ledgers, hitems, List.foldl_append]

variable (h : Records owner log s)

include h

lemma owner_eq (ledger : ι) : (s.ledgers ledger).identity = owner ledger := by
  rw [h.ledgers]
  exact record_identity ..

lemma fingerprint (ledger : ι) (id : String) :
    (s.ledgers ledger).emittedFingerprints id = lastFingerprint log ledger id := by
  rw [h.ledgers, record_fingerprint]
  exact Option.or_none

lemma tokens (ledger : ι) : (s.ledgers ledger).emittedTokens =
    ((emittedItems log ledger).map (·.estimatedTokens)).sum := by
  rw [h.ledgers, record_tokens]
  exact Nat.zero_add _

end Records

/-! ### The laws -/

/-- What an emission holds: the items of the live snapshot, without those that were last emitted
with the fingerprint they have. -/
structure Emits (log : List (Entry ι)) (identity : WorkingMemoryIdentity) (ledger : ι)
    (t : Instant) (emission : WorkingMemoryEmission) : Prop where
  revision : emission.revision = (live log identity t).elim 0 (·.revision)
  items : emission.items = ((live log identity t).elim [] (·.items)).filter fun item =>
    lastFingerprint log ledger item.candidateId ≠ some item.contentFingerprint
  nodup : (emission.items.map (·.candidateId)).Nodup
  unrepeated : ∀ item ∈ emission.items,
    lastFingerprint log ledger item.candidateId ≠ some item.contentFingerprint
  tokens : emission.estimatedTokens = (emission.items.map (·.estimatedTokens)).sum

/-- The laws of a call after a history. -/
def Lawful (owner : ι → WorkingMemoryIdentity) (log : List (Entry ι)) : Entry ι → Prop
  | (.activate identity _ now, .ok outcome) => ∃ t snapshot, utc now = .ok t ∧
    outcome = .activated snapshot ∧ snapshot.identity = identity ∧ snapshot.updatedAt = t ∧
    (live log identity t = none → snapshot.revision = 1 ∧ snapshot.createdAt = t) ∧
    ∀ previous, live log identity t = some previous →
      snapshot.revision = previous.revision + 1 ∧ snapshot.createdAt = previous.createdAt
  | (.get identity now, .ok outcome)         => ∃ t, utc now = .ok t ∧
    outcome = .found (live log identity t)
  | (.emit identity ledger now, .ok outcome) => ∃ t emission, utc now = .ok t ∧
    outcome = .emitted emission ∧ owner ledger = identity ∧ Emits log identity ledger t emission
  | (.close identity now, .ok outcome)       => ∃ t, utc now = .ok t ∧
    outcome = .closed (WorkingMemoryService.closeout identity (live log identity t))
  | (.purgeExpired now, .ok outcome)         => ∃ t count, utc now = .ok t ∧
    outcome = .purged count
  | (.activate .., .error _)                 => True
  | (.emit identity ledger now, .error e)    => owner ledger ≠ identity ∨ utc now = .error e
  | (.get _ now, .error e)                   => utc now = .error e
  | (.close _ now, .error e)                 => utc now = .error e
  | (.purgeExpired now, .error e)            => utc now = .error e

/-- An emission to what is live. -/
lemma Records.emits (h : Records owner log s) (identity : WorkingMemoryIdentity) (ledger : ι)
    (t : Instant) : Emits log identity ledger t
      ((s.ledgers ledger).emission identity (live log identity t)).1 := by
  cases hlive : live log identity t with
  | none          =>
    constructor
    case revision   => rw [hlive]; rfl
    case items      => rw [hlive]; rfl
    case nodup      => exact List.nodup_nil
    case unrepeated => exact fun _ hitem => absurd hitem List.not_mem_nil
    case tokens     => rfl
  | some snapshot =>
    have hitems : ((s.ledgers ledger).emitItems snapshot.items).1 = snapshot.items.filter
        fun item => lastFingerprint log ledger item.candidateId ≠ some item.contentFingerprint := by
      simp only [emitItems_items _ _ snapshot.nodup_ids, h.fingerprint]
    constructor
    case revision   => rw [hlive]; rfl
    case items      => rw [hlive]; exact hitems
    case tokens     => rfl
    case nodup      =>
      show (((s.ledgers ledger).emitItems snapshot.items).1.map _).Nodup
      rw [hitems]
      exact snapshot.nodup_ids.sublist (List.filter_sublist.map _)
    case unrepeated =>
      intro item hitem
      change item ∈ ((s.ledgers ledger).emitItems snapshot.items).1 at hitem
      rw [hitems] at hitem
      exact of_decide_eq_true (List.mem_filter.mp hitem).2

omit [DecidableEq ι] in
lemma bind_pure_eq_error {α β : Type} {x : Except Exc α} {f : α → β} {e : Exc} :
    (x >>= fun a => pure (f a)) = Except.error e ↔ x = .error e := by
  cases x <;> simp [bind, Except.bind, pure, Except.pure]

/-- One call obeys the laws. -/
lemma Records.lawful (h : Records owner log s)
    (hlog : ∀ entry ∈ log, ∀ t, utc call.now = .ok t → entry.1.NotAfter t) :
    Lawful owner log (call, (s.step service call).1) := by
  have hlive (who : WorkingMemoryIdentity) {t : Instant} (ht : utc call.now = .ok t) :
      s.snapshots.view who t = live log who t := h.visible t (hlog · · t ht) who
  cases houtcome : (s.step service call).1 with
  | error e    =>
    cases call with
    | activate identity candidates now => trivial
    | get identity now =>
      rw [step_fst rfl] at houtcome
      exact bind_pure_eq_error.mp houtcome
    | emit identity ledger now =>
      rw [step_fst rfl] at houtcome
      by_cases howner : (s.ledgers ledger).identity = identity
      · simp only [answer, require, howner, if_true] at houtcome
        exact .inr (bind_pure_eq_error.mp houtcome)
      · exact .inl (h.owner_eq ledger ▸ howner)
    | close identity now =>
      rw [step_fst rfl] at houtcome
      exact bind_pure_eq_error.mp houtcome
    | purgeExpired now =>
      cases ht : utc now with
      | error e' =>
        simp only [Sessions.step, WorkingMemoryService.purgeExpired, ht, attempt_error] at houtcome
        cases houtcome
        exact ht
      | ok t     =>
        simp only [Sessions.step, WorkingMemoryService.purgeExpired, ht, attempt_ok] at houtcome
        cases houtcome
  | ok outcome =>
    cases call with
    | activate identity candidates now =>
      rw [step_fst rfl] at houtcome
      obtain ⟨t, ht, houtcome⟩ := bind_eq_ok.mp houtcome
      obtain ⟨⟨items, report⟩, -, houtcome⟩ := bind_eq_ok.mp houtcome
      rw [hlive identity ht] at houtcome
      obtain ⟨snapshot, hsnapshot, rfl⟩ := map_eq_ok.mp houtcome
      obtain ⟨expires, -, hmake⟩ := bind_eq_ok.mp hsnapshot
      obtain ⟨hidentity, hrevision, -, hcreated, hupdated, -⟩ :=
        WorkingMemorySnapshot.of_make hmake
      refine ⟨t, snapshot, ht, rfl, hidentity, hupdated, fun hnone => ?_, fun previous hsome => ?_⟩
      · rw [hnone] at hrevision hcreated
        exact ⟨hrevision, hcreated⟩
      · rw [hsome] at hrevision hcreated
        exact ⟨hrevision, hcreated⟩
    | get identity now =>
      rw [step_fst rfl] at houtcome
      obtain ⟨t, ht, houtcome⟩ := bind_eq_ok.mp houtcome
      rw [hlive identity ht] at houtcome
      exact ⟨t, ht, (Except.ok.inj houtcome).symm⟩
    | emit identity ledger now =>
      rw [step_fst rfl] at houtcome
      obtain ⟨⟨⟩, howner, houtcome⟩ := bind_eq_ok.mp houtcome
      obtain ⟨t, ht, houtcome⟩ := bind_eq_ok.mp houtcome
      rw [hlive identity ht] at houtcome
      exact ⟨t, _, ht, (Except.ok.inj houtcome).symm,
        (h.owner_eq ledger).symm.trans (require_eq_ok.mp howner), h.emits identity ledger t⟩
    | close identity now =>
      rw [step_fst rfl] at houtcome
      obtain ⟨t, ht, houtcome⟩ := bind_eq_ok.mp houtcome
      rw [hlive identity ht] at houtcome
      exact ⟨t, ht, (Except.ok.inj houtcome).symm⟩
    | purgeExpired now =>
      cases ht : utc now with
      | error e =>
        obtain ⟨e', hstep⟩ := step_of_error service s (show utc (Call.purgeExpired now).now = _ from ht)
        rw [hstep] at houtcome
        cases houtcome
      | ok t    =>
        simp only [Sessions.step, WorkingMemoryService.purgeExpired, ht, attempt_ok] at houtcome
        exact ⟨t, _, ht, (Except.ok.inj houtcome).symm⟩

/-! ### Runs -/

lemma run_cons (s : Sessions ι) (call : Call ι) (calls : List (Call ι)) :
    (s.run service (call :: calls)).1 = (call, (s.step service call).1) ::
      ((s.step service call).2.run service calls).1 := rfl

/-- Every call of an ordered run obeys the laws, and the state records the history. -/
lemma Records.run (h : Records owner log s) {calls : List (Call ι)} (hordered : Call.Ordered calls)
    (hlog : ∀ entry ∈ log, ∀ call ∈ calls, ∀ t, utc call.now = .ok t → entry.1.NotAfter t) :
    Records owner (log ++ (s.run service calls).1) (s.run service calls).2 ∧
      ∀ done entry rest, (s.run service calls).1 = done ++ entry :: rest →
        Lawful owner (log ++ done) entry := by
  induction calls generalizing log s with
  | nil              =>
    refine ⟨by rwa [Sessions.run, List.append_nil], fun done entry rest heq => ?_⟩
    cases done <;> cases heq
  | cons call calls ih =>
    obtain ⟨hcall, hordered⟩ := List.pairwise_cons.mp hordered
    have hlaw := h.lawful service fun entry hentry =>
      hlog entry hentry call (List.mem_cons_self ..)
    obtain ⟨hrecords, hlaws⟩ := ih (h.step service call) hordered (by
      intro entry hentry other hother
      rcases List.mem_append.mp hentry with hentry | hentry
      · exact hlog entry hentry other (List.mem_cons_of_mem _ hother)
      · obtain rfl := List.mem_singleton.mp hentry
        exact hcall other hother)
    simp only [List.append_assoc, List.singleton_append] at hrecords hlaws
    refine ⟨hrecords, fun done entry rest heq => ?_⟩
    rw [run_cons] at heq
    cases done with
    | nil              =>
      obtain ⟨rfl, -⟩ := List.cons.inj heq
      rwa [List.append_nil]
    | cons first done =>
      obtain ⟨rfl, htail⟩ := List.cons.inj heq
      exact hlaws done entry rest htail

/-! ### Purging -/

omit [DecidableEq ι] in
lemma bind_congr_ok {α β : Type} {x : Except Exc α} {f g : α → Except Exc β}
    (h : ∀ a, x = .ok a → f a = g a) : x >>= f = x >>= g := by
  cases x with
  | error e => rfl
  | ok a    => exact h a rfl

omit [DecidableEq ι] in
/-- An answer depends on what is visible at the instant of the call. -/
lemma answer_congr {visible visible' : WorkingMemoryIdentity → Instant →
    Option WorkingMemorySnapshot} {ledgers : ι → WorkingMemoryEmissionLedger}
    (h : ∀ t, utc call.now = .ok t → ∀ who, visible who t = visible' who t) :
    answer service visible ledgers call = answer service visible' ledgers call := by
  cases call with
  | activate identity candidates now =>
    refine bind_congr_ok fun t ht => ?_
    rw [h t ht]
  | get identity now =>
    refine bind_congr_ok fun t ht => ?_
    rw [h t ht]
  | emit identity ledger now =>
    refine bind_congr_ok fun _ _ => bind_congr_ok fun t ht => ?_
    rw [h t ht]
  | close identity now =>
    refine bind_congr_ok fun t ht => ?_
    rw [h t ht]
  | purgeExpired now => rfl

/-- States that answer alike from some time on. -/
structure Alike (T : Instant → Prop) (s s' : Sessions ι) : Prop where
  ledgers : s.ledgers = s'.ledgers
  visible : ∀ t, T t → ∀ who, s.snapshots.view who t = s'.snapshots.view who t

variable {T : Instant → Prop}

lemma emissionOn_purge (h : call.isPurge = true) (outcome : Except Exc Outcome) (ledger : ι) :
    emissionOn ledger (call, outcome) = none := by
  cases call with
  | purgeExpired now => rfl
  | _                => cases h

omit [DecidableEq ι] in
lemma noted_purge (h : call.isPurge = true) (outcome : Except Exc Outcome)
    (kept : Option WorkingMemorySnapshot) : noted who kept (call, outcome) = kept := by
  cases call with
  | purgeExpired now => rfl
  | _                => cases h

/-- A purge changes nothing from its instant on. -/
lemma alike_purge (s : Sessions ι) (h : call.isPurge = true) :
    Alike (call.NotAfter ·) (s.step service call).2 s where
  ledgers := by
    funext ledger
    rw [ledgers_step, itemsOn, emissionOn_purge h]
    rfl
  visible t ht who := by
    rw [view_step ht, noted_purge h, Snapshots.view_filter_self]

namespace Alike

variable (h : Alike T s s')

include h

/-- Alike states answer alike, but for purges. -/
lemma step_fst (hT : ∀ t, utc call.now = .ok t → T t) (hpurge : call.isPurge = false) :
    (s.step service call).1 = (s'.step service call).1 := by
  rw [Sessions.step_fst hpurge, Sessions.step_fst hpurge, h.ledgers]
  exact answer_congr service fun t ht => h.visible t (hT t ht)

/-- Alike states stay alike. -/
lemma step (hT : ∀ t, utc call.now = .ok t → T t) :
    Alike (fun t => T t ∧ call.NotAfter t) (s.step service call).2 (s'.step service call).2 := by
  cases hpurge : call.isPurge with
  | true  =>
    have hpurged := alike_purge service s hpurge
    have hpurged' := alike_purge service s' hpurge
    constructor
    case ledgers => exact hpurged.ledgers.trans (h.ledgers.trans hpurged'.ledgers.symm)
    case visible =>
      intro t ht who
      rw [hpurged.visible t ht.2, h.visible t ht.1, hpurged'.visible t ht.2]
  | false =>
    have hfst := h.step_fst service hT hpurge
    constructor
    case ledgers =>
      funext ledger
      rw [ledgers_step, ledgers_step, hfst, h.ledgers]
    case visible =>
      intro t ht who
      rw [view_step ht.2, view_step ht.2, hfst, h.visible t ht.1]

end Alike

/-- The calls that are not purges, with what became of them. -/
def answers (log : List (Entry ι)) : List (Entry ι) := log.filter fun entry => !entry.1.isPurge

lemma answers_run_of_alike (h : Alike T s s') {calls : List (Call ι)}
    (hordered : Call.Ordered calls)
    (hT : ∀ call ∈ calls, ∀ t, utc call.now = .ok t → T t) :
    answers (s.run service calls).1 = answers (s'.run service calls).1 := by
  induction calls generalizing T s s' with
  | nil                => rfl
  | cons call calls ih =>
    obtain ⟨hcall, hordered⟩ := List.pairwise_cons.mp hordered
    have hhead := hT call (List.mem_cons_self ..)
    have htail := ih (h.step service hhead) hordered fun other hother t ht =>
      ⟨hT other (List.mem_cons_of_mem _ hother) t ht, hcall other hother t ht⟩
    cases hpurge : call.isPurge with
    | true  => simpa [Sessions.run, answers, hpurge] using htail
    | false =>
      simpa [Sessions.run, answers, hpurge, h.step_fst service hhead hpurge] using htail

lemma run_append (s : Sessions ι) (calls calls' : List (Call ι)) :
    (s.run service (calls ++ calls')).1 =
      (s.run service calls).1 ++ ((s.run service calls).2.run service calls').1 := by
  induction calls generalizing s with
  | nil                => rfl
  | cons call calls ih =>
    rw [List.cons_append, run_cons, run_cons, ih]
    rfl

/-- Without a purge, the other calls of an ordered run answer what they answer with it. -/
lemma answers_without_purge (s : Sessions ι) {before after : List (Call ι)} {purge : Call ι}
    (hpurge : purge.isPurge = true) (hordered : Call.Ordered (before ++ purge :: after)) :
    answers (s.run service (before ++ purge :: after)).1 =
      answers (s.run service (before ++ after)).1 := by
  have hafter := (List.pairwise_append.mp hordered).2.1
  obtain ⟨hcall, hafter⟩ := List.pairwise_cons.mp hafter
  have hrest := answers_run_of_alike service
    (alike_purge service (s.run service before).2 hpurge) hafter
    fun call hmem t ht => hcall call hmem t ht
  have hsplit (log : List (Entry ι)) : answers ((s.run service before).1 ++ log) =
      answers (s.run service before).1 ++ answers log := List.filter_append ..
  rw [run_append, run_append, hsplit, hsplit, ← hrest, run_cons]
  simp only [answers, List.filter_cons, hpurge]
  rfl

lemma tokens_of_lawful {entry : Entry ι} {ledger : ι} {emission : WorkingMemoryEmission}
    (h : Lawful owner log entry) (hemission : emissionOn ledger entry = some emission) :
    emission.estimatedTokens = (emission.items.map (·.estimatedTokens)).sum := by
  unfold emissionOn at hemission
  split at hemission
  · obtain ⟨t, emitted, -, heq, -, hemits⟩ := h
    obtain rfl := Outcome.emitted.inj heq
    split_ifs at hemission
    cases hemission
    exact hemits.tokens
  · cases hemission

/-- The tokens of the emitted items are those of the emissions. -/
lemma tokens_eq (hlawful : ∀ done entry rest, log = done ++ entry :: rest →
    Lawful owner done entry) (ledger : ι) :
    ((emittedItems log ledger).map (·.estimatedTokens)).sum =
      ((emissions log ledger).map (·.estimatedTokens)).sum := by
  induction log using List.reverseRecOn with
  | nil => rfl
  | append_singleton log entry ih =>
    have hlog := ih fun done e rest heq => hlawful done e (rest ++ [entry]) (by simp [heq])
    have hitems : ((itemsOn ledger entry).map (·.estimatedTokens)).sum =
        ((emissions [entry] ledger).map (·.estimatedTokens)).sum := by
      cases hemission : emissionOn ledger entry with
      | none          => simp [itemsOn, emissions, hemission]
      | some emission =>
        have htokens := tokens_of_lawful (hlawful log entry [] rfl) hemission
        simp [itemsOn, emissions, hemission, htokens]
    have hitemsOn : emittedItems (log ++ [entry]) ledger =
        emittedItems log ledger ++ itemsOn ledger entry := by
      simp only [emittedItems, List.flatMap_append, List.flatMap_singleton]
    have hemissions : emissions (log ++ [entry]) ledger =
        emissions log ledger ++ emissions [entry] ledger := List.filterMap_append
    rw [hitemsOn, hemissions, List.map_append, List.map_append, List.sum_append, List.sum_append,
      hlog, hitems]

variable (owner) in
/-- Sessions over ordered runs: every call obeys the laws of its history, a ledger counts the tokens
of its emissions, and a purge changes no later answer but the counts of purges. -/
theorem run_lawful {calls : List (Call ι)} (hordered : Call.Ordered calls) :
    (∀ done entry rest, ((opened owner).run service calls).1 = done ++ entry :: rest →
      Lawful owner done entry) ∧
    (∀ ledger, (((opened owner).run service calls).2.ledgers ledger).emittedTokens =
      ((emissions ((opened owner).run service calls).1 ledger).map (·.estimatedTokens)).sum) ∧
    ∀ before now after, calls = before ++ .purgeExpired now :: after →
      answers ((opened owner).run service calls).1 =
        answers ((opened owner).run service (before ++ after)).1 := by
  obtain ⟨hrecords, hlaws⟩ := (Records.opened owner).run service hordered
    fun _ hentry => absurd hentry List.not_mem_nil
  rw [List.nil_append] at hrecords
  refine ⟨hlaws, fun ledger => ?_, ?_⟩
  · rw [hrecords.tokens, tokens_eq hlaws]
  · rintro before now after rfl
    exact answers_without_purge service _ rfl hordered

section Sample

open WorkingMemorySelector

def sampleService : WorkingMemoryService := ⟨sampleSelector.policy, sampleSelector⟩

/-- A time, in seconds. -/
def second (n : ℕ) : DateTime where
  wall := .ofMicros (n * 1000000)

/-- A working set of a minute, and purges after it. -/
def purgedTwice : List (Call Unit) :=
  [.activate sampleIdentity [] (second 0), .purgeExpired (second 100), .purgeExpired (second 100)]

omit [DecidableEq ι] in
lemma notAfter_of_le {call : Call ι} {t u : Instant} (h : utc call.now = .ok u) (hle : u ≤ t) :
    call.NotAfter t := by
  intro now hnow
  rw [h] at hnow
  cases hnow
  exact hle

lemma purgedTwice_ordered : Call.Ordered purgedTwice := by
  have hfirst : utc (second 0) = .ok (.ofMicros 0) := rfl
  have hlater : utc (second 100) = .ok (.ofMicros 100000000) := rfl
  refine .cons (fun _ _ _ _ => notAfter_of_le hfirst (Nat.zero_le _))
    (.cons (fun call hcall t ht => notAfter_of_le hlater ?_) (.cons (by simp) .nil))
  obtain rfl := List.mem_singleton.mp hcall
  exact le_of_eq (congrArg Instant.micros (Except.ok.inj (hlater.symm.trans ht)))

/-- The calls without the first purge. -/
def purgedOnce : List (Call Unit) :=
  [.activate sampleIdentity [] (second 0), .purgeExpired (second 100)]

/-- A service without calls. -/
def sampleSessions : Sessions Unit := .opened fun _ => sampleIdentity

theorem run_lawful_purgedTwice :
    answers (sampleSessions.run sampleService purgedTwice).1 =
      answers (sampleSessions.run sampleService purgedOnce).1 :=
  (run_lawful sampleService (fun _ : Unit => sampleIdentity) purgedTwice_ordered).2.2
    [.activate sampleIdentity [] (second 0)] (second 100) [.purgeExpired (second 100)] rfl

/-- How many snapshots a purge dropped. -/
def purgedCount : Entry Unit → Option ℕ
  | (_, .ok (.purged count)) => some count
  | _                        => none

/-- A purge changes the count of the next one. -/
theorem purge_changes_count :
    (sampleSessions.run sampleService purgedTwice).1.drop 2 ≠
      (sampleSessions.run sampleService purgedOnce).1.drop 1 := by
  intro h
  have hcounts := congrArg (List.map purgedCount) h
  revert hcounts
  decide +kernel

end Sample

end Sessions

end CyberBrain.WorkingMemory
