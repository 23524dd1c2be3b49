import Mathlib.Data.List.ReduceOption
import CyberBrain.Dreaming.Partitions
import CyberBrain.Dreaming.Scheduler

/-!
# The groups of the scheduler

`collect_candidates` keeps its groups under keys: the session id, or the session id with a number
when the session id is a key already. As long as no such numbered key is a session id that came
before, every partition of the episodes has a candidate of its own, of exactly its episodes.
-/

namespace CyberBrain.Dreaming

open Python Tenancy

variable {py : Runtime}

/-! ### Partitions and their keys -/

/-- The partitions of placed episodes, in the order of their first episodes. -/
def distinctPartitions (placed : List PendingEpisode) : List (String × ScopeKey) :=
  placed.foldl (fun ps e => if e.partition ∈ ps then ps else ps ++ [e.partition]) []

/-- The names that partitions take: their session ids and, where the session id of a partition is a
name already, the session id with the place of the partition. -/
inductive Named : List (String × ScopeKey) → String → Prop
  | session {ps : List (String × ScopeKey)} {p : String × ScopeKey} (h : p ∈ ps) : Named ps p.1
  | numbered (ps : List (String × ScopeKey)) (p : String × ScopeKey)
      (later : List (String × ScopeKey)) (h : Named ps p.1) :
      Named (ps ++ p :: later) (p.1 ++ ":" ++ toString ps.length)

/-- A partition whose session id is a name already has a numbered key that is the session id of a
partition before it. -/
def Clashes (ps : List (String × ScopeKey)) : Prop :=
  ∃ before p after, ps = before ++ p :: after ∧ Named before p.1 ∧
    ∃ q ∈ before, q.1 = p.1 ++ ":" ++ toString before.length

/-- A counter of the texts of a list that are not empty. -/
structure Counts (counter : List (String × ℕ)) (texts : List String) : Prop where
  nodup : (counter.map Prod.fst).Nodup
  mem : ∀ text n, (text, n) ∈ counter ↔ text ≠ "" ∧ text ∈ texts ∧ n = texts.count text

/-- A candidate of exactly the episodes of a list. -/
structure Summarizes (es : List PendingEpisode) (c : SessionCandidate) : Prop where
  session : ∀ e ∈ es, c.sessionId = e.sessionId
  authority : ∀ e ∈ es, c.authority = e.authority
  count : c.episodeCount = es.length
  latest : c.latestEvent ∈ es.map (·.time)
  latest_le : ∀ e ∈ es, e.time ≤ c.latestEvent
  topics : Counts c.topics (es.map (·.topic))
  projects : Counts c.projects (es.map (·.project))

/-- One candidate for every partition, of exactly its episodes. -/
def Exact (placed : List PendingEpisode) (g : Groups) : Prop :=
  ∃ ps, ps.Perm (distinctPartitions placed) ∧
    List.Forall₂ (fun p row => Summarizes (placed.filter fun e => e.partition = p) row.2) ps
      g.sessions.rows

lemma distinctPartitions_append_singleton (placed : List PendingEpisode) (e : PendingEpisode) :
    distinctPartitions (placed ++ [e]) =
      if e.partition ∈ distinctPartitions placed then distinctPartitions placed
      else distinctPartitions placed ++ [e.partition] := by
  rw [distinctPartitions, List.foldl_append]
  rfl

lemma distinctPartitions_of_mem {placed : List PendingEpisode} {e : PendingEpisode}
    (h : e.partition ∈ distinctPartitions placed) :
    distinctPartitions (placed ++ [e]) = distinctPartitions placed := by
  rw [distinctPartitions_append_singleton, if_pos h]

lemma distinctPartitions_of_notMem {placed : List PendingEpisode} {e : PendingEpisode}
    (h : e.partition ∉ distinctPartitions placed) :
    distinctPartitions (placed ++ [e]) = distinctPartitions placed ++ [e.partition] := by
  rw [distinctPartitions_append_singleton, if_neg h]

lemma partition_mem {placed : List PendingEpisode} {e : PendingEpisode}
    (h : e ∈ placed) : e.partition ∈ distinctPartitions placed := by
  induction placed using List.reverseRecOn with
  | nil => cases h
  | append_singleton placed e' ih =>
    rcases List.mem_append.mp h with h | h
    · rw [distinctPartitions_append_singleton]
      split_ifs
      · exact ih h
      · exact List.mem_append_left _ (ih h)
    · obtain rfl := List.mem_singleton.mp h
      by_cases hmem : e.partition ∈ distinctPartitions placed
      · rwa [distinctPartitions_of_mem hmem]
      · rw [distinctPartitions_of_notMem hmem]
        exact List.mem_append_right _ (List.mem_singleton_self _)

/-- A numbered name determines its number. -/
lemma number_injective {s t : String} {m n : ℕ}
    (h : s ++ ":" ++ toString m = t ++ ":" ++ toString n) : m = n := by
  have hcolon (k : ℕ) : ':' ∉ Nat.toDigits 10 k := fun hk =>
    absurd (isDigit_of_mem_toDigits hk) (by decide)
  have hsuffix {m n : ℕ} {cs : List Char}
      (h : ':' :: Nat.toDigits 10 m = cs ++ ':' :: Nat.toDigits 10 n) : m = n := by
    cases cs with
    | nil => exact toDigits_injective (List.cons.inj h).2
    | cons c cs =>
      refine absurd ?_ (hcolon m)
      rw [(List.cons.inj h).2]
      exact List.mem_append_right _ List.mem_cons_self
  have hlists := congrArg String.toList h
  simp only [String.toList_append, List.append_assoc, Nat.toString_eq_repr,
    Nat.toList_repr] at hlists
  rcases List.append_eq_append_iff.mp hlists with ⟨cs, -, h⟩ | ⟨cs, -, h⟩
  · exact hsuffix h
  · exact (hsuffix h).symm

/-! ### One episode more -/

/-- A member of a list with one more element is the last one or has the last one after it. -/
lemma append_singleton_eq {α : Type*} {l before after : List α} {x y : α}
    (h : l ++ [x] = before ++ y :: after) :
    l = before ∧ x = y ∨ ∃ later, l = before ++ y :: later := by
  rcases List.eq_nil_or_concat' after with rfl | ⟨later, z, rfl⟩
  · obtain ⟨hl, hx⟩ := List.append_inj' h rfl
    exact .inl ⟨hl, (List.cons.inj hx).1⟩
  · rw [← List.cons_append, ← List.append_assoc] at h
    exact .inr ⟨later, (List.append_inj' h rfl).1⟩

lemma Named.append {ps : List (String × ScopeKey)} {s : String} (h : Named ps s)
    (later : List (String × ScopeKey)) : Named (ps ++ later) s := by
  cases h with
  | session h => exact .session (List.mem_append_left _ h)
  | numbered before p after h =>
    rw [List.append_assoc, List.cons_append]
    exact .numbered before p _ h

lemma named_iff {ps : List (String × ScopeKey)} {s : String} :
    Named ps s ↔ (∃ p ∈ ps, s = p.1) ∨ ∃ before p later, ps = before ++ p :: later ∧
      Named before p.1 ∧ s = p.1 ++ ":" ++ toString before.length := by
  constructor
  · intro h
    cases h with
    | session h => exact .inl ⟨_, h, rfl⟩
    | numbered before p later h => exact .inr ⟨before, p, later, rfl, h, rfl⟩
  · rintro (⟨p, h, rfl⟩ | ⟨before, p, later, rfl, h, rfl⟩)
    · exact .session h
    · exact .numbered before p later h

lemma named_append_singleton {ps : List (String × ScopeKey)} {p : String × ScopeKey} {s : String} :
    Named (ps ++ [p]) s ↔
      Named ps s ∨ s = p.1 ∨ Named ps p.1 ∧ s = p.1 ++ ":" ++ toString ps.length := by
  constructor
  · intro h
    generalize hps : ps ++ [p] = qs at h
    cases h with
    | session h =>
      subst hps
      rcases List.mem_append.mp h with h | h
      · exact .inl (.session h)
      · exact .inr (.inl (by rw [List.mem_singleton.mp h]))
    | numbered before q after h =>
      rcases append_singleton_eq hps with ⟨rfl, rfl⟩ | ⟨later, rfl⟩
      · exact .inr (.inr ⟨h, rfl⟩)
      · exact .inl (.numbered before q later h)
  · rintro (h | rfl | ⟨h, rfl⟩)
    · exact h.append _
    · exact .session (by simp)
    · exact .numbered ps p [] h

lemma clashes_append_singleton {ps : List (String × ScopeKey)} {p : String × ScopeKey} :
    Clashes (ps ++ [p]) ↔ Clashes ps ∨
      Named ps p.1 ∧ ∃ q ∈ ps, q.1 = p.1 ++ ":" ++ toString ps.length := by
  constructor
  · rintro ⟨before, q, after, hps, hnamed, hq⟩
    rcases append_singleton_eq hps with ⟨rfl, rfl⟩ | ⟨later, rfl⟩
    · exact .inr ⟨hnamed, hq⟩
    · exact .inl ⟨before, q, later, rfl, hnamed, hq⟩
  · rintro (⟨before, q, after, rfl, hnamed, hq⟩ | ⟨hnamed, hq⟩)
    · exact ⟨before, q, after ++ [p], by simp, hnamed, hq⟩
    · exact ⟨ps, p, [], rfl, hnamed, hq⟩

lemma Counts.countText {counter : List (String × ℕ)} {texts : List String}
    (h : Counts counter texts) (text : String) :
    Counts (countText counter text) (texts ++ [text]) := by
  have hcount (t : String) :
      (texts ++ [text]).count t = texts.count t + if text = t then 1 else 0 := by
    rw [List.count_append, List.count_singleton]
    simp
  unfold Dreaming.countText
  split_ifs with hempty hmem
  · subst hempty
    refine ⟨h.nodup, fun t n => (h.mem t n).trans (and_congr_right fun ht => ?_)⟩
    simp [ht, List.count_append]
  · have hfst : (counter.map fun p => if p.1 = text then (p.1, p.2 + 1) else p).map Prod.fst =
        counter.map Prod.fst := by
      rw [List.map_map]
      refine List.map_congr_left fun p _ => ?_
      by_cases hp : p.1 = text <;> simp [hp]
    obtain ⟨⟨_, k⟩, hk, rfl⟩ := List.mem_map.mp hmem
    obtain ⟨-, hmem, -⟩ := (h.mem _ _).mp hk
    refine ⟨hfst ▸ h.nodup, fun t n => ?_⟩
    rw [hcount]
    constructor
    · intro ht
      obtain ⟨⟨t', n'⟩, hn', heq⟩ := List.mem_map.mp ht
      obtain ⟨hne, ht', rfl⟩ := (h.mem _ _).mp hn'
      split_ifs at heq with hp <;> obtain ⟨rfl, rfl⟩ := Prod.mk.inj heq
      · exact ⟨hne, List.mem_append_left _ ht', by rw [if_pos hp.symm]⟩
      · exact ⟨hne, List.mem_append_left _ ht', by rw [if_neg fun h => hp h.symm]; rfl⟩
    · rintro ⟨hne, ht, rfl⟩
      have ht : t ∈ texts := by
        rcases List.mem_append.mp ht with ht | ht
        · exact ht
        · rwa [List.mem_singleton.mp ht]
      refine List.mem_map.mpr ⟨(t, texts.count t), (h.mem _ _).mpr ⟨hne, ht, rfl⟩, ?_⟩
      split_ifs with hp hp' hp'
      · rfl
      · exact absurd hp.symm hp'
      · exact absurd hp'.symm hp
      · rfl
  · have hnew : text ∉ texts := fun ht =>
      hmem (List.mem_map.mpr ⟨(text, texts.count text), (h.mem _ _).mpr ⟨hempty, ht, rfl⟩, rfl⟩)
    refine ⟨?_, fun t n => ?_⟩
    · rw [List.map_append, List.nodup_append]
      refine ⟨h.nodup, by simp, ?_⟩
      rintro t ht _ hs rfl
      rw [List.mem_singleton.mp hs] at ht
      exact hmem ht
    · rw [List.mem_append, List.mem_append, h.mem, hcount, List.mem_singleton, List.mem_singleton,
        Prod.mk.injEq]
      by_cases htext : t = text
      · subst htext
        simp [hempty, hnew, List.count_eq_zero_of_not_mem hnew]
      · simp [htext, Ne.symm htext]

lemma counts_nil : Counts [] [] := ⟨List.nodup_nil, by simp⟩

/-- A candidate with one more episode is one of the episodes with it. -/
lemma Summarizes.add {es : List PendingEpisode} {c : SessionCandidate} {e : PendingEpisode}
    (h : Summarizes es c) (hsession : c.sessionId = e.sessionId)
    (hauthority : c.authority = e.authority) : Summarizes (es ++ [e]) (c.add e) where
  session e' he' := by
    rcases List.mem_append.mp he' with he' | he'
    · exact h.session e' he'
    · rwa [List.mem_singleton.mp he']
  authority e' he' := by
    rcases List.mem_append.mp he' with he' | he'
    · exact h.authority e' he'
    · rwa [List.mem_singleton.mp he']
  count := by simp [SessionCandidate.add, h.count]
  latest := by
    simp only [SessionCandidate.add, List.map_append, List.mem_append]
    split_ifs
    · exact .inr (List.mem_singleton_self _)
    · exact .inl h.latest
  latest_le e' he' := by
    have hold : c.latestEvent ≤ (c.add e).latestEvent := by
      simp only [SessionCandidate.add]
      split_ifs with hlt
      · exact Nat.le_of_lt hlt
      · exact Nat.le_refl _
    rcases List.mem_append.mp he' with he' | he'
    · exact Nat.le_trans (h.latest_le e' he') hold
    · rw [List.mem_singleton.mp he']
      simp only [SessionCandidate.add]
      split_ifs with hlt
      · exact Nat.le_refl _
      · exact Nat.not_lt.mp hlt
  topics := by
    rw [List.map_append]
    exact h.topics.countText _
  projects := by
    rw [List.map_append]
    exact h.projects.countText _

/-- The candidate of the first episode of a partition. -/
def firstCandidate (e : PendingEpisode) : SessionCandidate :=
  SessionCandidate.add
    { sessionId := e.sessionId, latestEvent := e.time, authority := e.authority } e

lemma summarizes_first (e : PendingEpisode) : Summarizes [e] (firstCandidate e) where
  session := by simp [firstCandidate, SessionCandidate.add]
  authority := by simp [firstCandidate, SessionCandidate.add]
  count := rfl
  latest := by simp [firstCandidate, SessionCandidate.add]
  latest_le e' he' := by
    rw [List.mem_singleton.mp he']
    simp only [firstCandidate, SessionCandidate.add, ite_self]
    exact Nat.le_refl _
  topics := counts_nil.countText _
  projects := counts_nil.countText _

/-! ### Groups without a clash -/

/-- The groups of placed episodes: a key and a candidate for every partition. -/
structure Grouped (placed : List PendingEpisode) (g : Groups)
    (key : String × ScopeKey → String) (candidate : String × ScopeKey → SessionCandidate) :
    Prop where
  sessions : g.sessions.rows = (distinctPartitions placed).map fun p => (key p, candidate p)
  partitions : g.partitions.rows = (distinctPartitions placed).map fun p => (p, key p)
  named : ∀ s, (∃ p ∈ distinctPartitions placed, key p = s) ↔ Named (distinctPartitions placed) s
  summarizes : ∀ p ∈ distinctPartitions placed,
    Summarizes (placed.filter fun e => e.partition = p) (candidate p)

section Step

variable {placed : List PendingEpisode} {g : Groups} {key : String × ScopeKey → String}
  {candidate : String × ScopeKey → SessionCandidate} {e : PendingEpisode}

namespace Grouped

lemma keys (h : Grouped placed g key candidate) :
    g.sessions.rows.map Prod.fst = (distinctPartitions placed).map key := by
  rw [h.sessions, List.map_map]
  rfl

lemma key_injOn (h : Grouped placed g key candidate) {p q : String × ScopeKey}
    (hp : p ∈ distinctPartitions placed) (hq : q ∈ distinctPartitions placed)
    (hkey : key p = key q) : p = q := by
  have hnodup := g.sessions.nodup
  rw [h.keys] at hnodup
  exact List.inj_on_of_nodup_map hnodup hp hq hkey

lemma find?_partition (h : Grouped placed g key candidate) {p : String × ScopeKey}
    (hp : p ∈ distinctPartitions placed) : g.partitions.find? p = some (p, key p) :=
  Table.find?_of_mem (r := (p, key p)) (by
    rw [h.partitions]
    exact List.mem_map_of_mem hp)

lemma find?_partition_eq_none (h : Grouped placed g key candidate) {p : String × ScopeKey}
    (hp : p ∉ distinctPartitions placed) : g.partitions.find? p = none := by
  rw [Table.find?_eq_none, h.partitions]
  intro row hrow hkey
  obtain ⟨q, hq, rfl⟩ := List.mem_map.mp hrow
  exact hp (hkey ▸ hq)

lemma find?_session (h : Grouped placed g key candidate) {p : String × ScopeKey}
    (hp : p ∈ distinctPartitions placed) :
    g.sessions.find? (key p) = some (key p, candidate p) :=
  Table.find?_of_mem (r := (key p, candidate p)) (by
    rw [h.sessions]
    exact List.mem_map_of_mem hp)

lemma find?_session_eq_none (h : Grouped placed g key candidate) {s : String} :
    g.sessions.find? s = none ↔ ¬ Named (distinctPartitions placed) s := by
  rw [Table.find?_eq_none, ← h.named, h.sessions, List.forall_mem_map]
  simp only [not_exists, not_and, ne_eq]

/-- The episodes of a partition, with one more episode. -/
lemma filter_append_singleton (placed : List PendingEpisode) (e : PendingEpisode)
    (p : String × ScopeKey) : (placed ++ [e]).filter (fun e => e.partition = p) =
      placed.filter (fun e => e.partition = p) ++ if e.partition = p then [e] else [] := by
  rw [List.filter_append]
  congr 1
  by_cases h : e.partition = p <;> simp [h]

/-- An episode of a partition that has a key is added to the candidate of the partition. -/
lemma add_known (h : Grouped placed g key candidate) (he : e.partition ∈ distinctPartitions placed)
    (hauthority : ∀ e' ∈ placed, e'.partition = e.partition → e'.authority = e.authority) :
    Grouped (placed ++ [e]) (g.add e) key
      (Function.update candidate e.partition ((candidate e.partition).add e)) := by
  have hkey : g.groupKey e = key e.partition := by
    rw [Groups.groupKey, h.find?_partition he]
  have hmem : (key e.partition) ∈ g.sessions.rows.map Prod.fst := by
    rw [h.keys]
    exact List.mem_map_of_mem he
  have hpartition : e.partition ∈ g.partitions.rows.map Prod.fst := by
    rw [h.partitions, List.map_map]
    exact List.mem_map.mpr ⟨_, he, rfl⟩
  constructor
  · rw [distinctPartitions_of_mem he, Groups.add, hkey, h.find?_session he]
    rw [Table.rows_upsert_of_mem hmem, h.sessions, List.map_map]
    refine List.map_congr_left fun p hp => ?_
    by_cases hpe : p = e.partition
    · subst hpe
      simp
    · have hne : key p ≠ key e.partition := fun heq => hpe (h.key_injOn hp he heq)
      simp [hpe, hne]
  · rw [distinctPartitions_of_mem he, Groups.add, hkey]
    rw [Table.rows_upsert_of_mem hpartition, h.partitions, List.map_map]
    refine List.map_congr_left fun p hp => ?_
    by_cases hpe : p = e.partition <;> simp [hpe]
  · rw [distinctPartitions_of_mem he]
    exact h.named
  · rw [distinctPartitions_of_mem he]
    intro p hp
    rw [filter_append_singleton]
    by_cases hpe : p = e.partition
    · subst hpe
      rw [if_pos rfl, Function.update_self]
      have hsummary := h.summarizes _ he
      obtain ⟨e', he', hsame⟩ : ∃ e' ∈ placed, e'.partition = e.partition := by
        obtain ⟨e', he', -⟩ := List.mem_map.mp hsummary.latest
        exact ⟨e', List.mem_of_mem_filter he', by simpa using List.of_mem_filter he'⟩
      have hfilter : e' ∈ placed.filter fun e' => e'.partition = e.partition :=
        List.mem_filter.mpr ⟨he', by simpa using hsame⟩
      exact hsummary.add ((hsummary.session e' hfilter).trans (congrArg Prod.fst hsame))
        ((hsummary.authority e' hfilter).trans (hauthority e' he' hsame))
    · rw [if_neg (Ne.symm hpe), List.append_nil, Function.update_of_ne hpe]
      exact h.summarizes p hp

lemma groupKey_new (h : Grouped placed g key candidate)
    (he : e.partition ∉ distinctPartitions placed) :
    ¬ Named (distinctPartitions placed) e.sessionId ∧ g.groupKey e = e.sessionId ∨
      Named (distinctPartitions placed) e.sessionId ∧
        g.groupKey e = e.sessionId ++ ":" ++ toString (distinctPartitions placed).length := by
  rw [Groups.groupKey, h.find?_partition_eq_none he]
  have hlength : g.sessions.rows.length = (distinctPartitions placed).length := by
    rw [h.sessions, List.length_map]
  by_cases hnamed : Named (distinctPartitions placed) e.sessionId
  · have hfind : g.sessions.find? e.sessionId ≠ none := fun hnone =>
      h.find?_session_eq_none.mp hnone hnamed
    right
    simp [hnamed, hfind, hlength]
  · have hfind : g.sessions.find? e.sessionId = none := h.find?_session_eq_none.mpr hnamed
    left
    simp [hnamed, hfind]

/-- The key of a new partition is new unless it clashes. -/
lemma groupKey_unnamed (h : Grouped placed g key candidate)
    (he : e.partition ∉ distinctPartitions placed)
    (hclash : ¬ Clashes (distinctPartitions placed ++ [e.partition])) :
    ¬ Named (distinctPartitions placed) (g.groupKey e) := by
  rcases h.groupKey_new he with ⟨hnamed, hkey⟩ | ⟨hnamed, hkey⟩
  · rwa [hkey]
  · rw [hkey]
    intro hnumbered
    rcases named_iff.mp hnumbered with ⟨q, hq, hs⟩ | ⟨before, q, later, hps, -, hs⟩
    · exact hclash (clashes_append_singleton.mpr (.inr ⟨hnamed, q, hq, hs.symm⟩))
    · have hlength := number_injective hs
      simp [hps] at hlength

/-- The episode of a new partition gets a candidate of its own unless its key clashes. -/
lemma add_new (h : Grouped placed g key candidate) (he : e.partition ∉ distinctPartitions placed)
    (hclash : ¬ Clashes (distinctPartitions placed ++ [e.partition])) :
    Grouped (placed ++ [e]) (g.add e) (Function.update key e.partition (g.groupKey e))
      (Function.update candidate e.partition (firstCandidate e)) := by
  have hunnamed := h.groupKey_unnamed he hclash
  have hfind := h.find?_session_eq_none.mpr hunnamed
  have hne {p : String × ScopeKey} (hp : p ∈ distinctPartitions placed) : p ≠ e.partition :=
    fun heq => he (heq ▸ hp)
  constructor
  · have hfresh : g.groupKey e ∉ g.sessions.rows.map Prod.fst := fun hmem => by
      obtain ⟨row, hrow, hkey⟩ := List.mem_map.mp hmem
      exact Table.find?_eq_none.mp hfind row hrow hkey
    rw [distinctPartitions_of_notMem he, Groups.add, hfind]
    rw [Table.rows_upsert_of_notMem hfresh, h.sessions, List.map_append]
    refine congrArg₂ _ (List.map_congr_left fun p hp => ?_) ?_
    · simp [hne hp]
    · simp [firstCandidate]
  · have hfresh : e.partition ∉ g.partitions.rows.map Prod.fst := by
      rw [h.partitions, List.map_map]
      simpa using he
    rw [distinctPartitions_of_notMem he, Groups.add]
    rw [Table.rows_upsert_of_notMem hfresh, h.partitions, List.map_append]
    refine congrArg₂ _ (List.map_congr_left fun p hp => ?_) ?_
    · simp [hne hp]
    · simp
  · intro s
    rw [distinctPartitions_of_notMem he, named_append_singleton, ← h.named s]
    have hkeys : (∃ p ∈ distinctPartitions placed ++ [e.partition],
        Function.update key e.partition (g.groupKey e) p = s) ↔
        (∃ p ∈ distinctPartitions placed, key p = s) ∨ s = g.groupKey e := by
      constructor
      · rintro ⟨p, hp, hs⟩
        rcases List.mem_append.mp hp with hp | hp
        · rw [Function.update_of_ne (hne hp)] at hs
          exact .inl ⟨p, hp, hs⟩
        · rw [List.mem_singleton.mp hp, Function.update_self] at hs
          exact .inr hs.symm
      · rintro (⟨p, hp, hs⟩ | rfl)
        · exact ⟨p, List.mem_append_left _ hp, by rwa [Function.update_of_ne (hne hp)]⟩
        · exact ⟨e.partition, by simp, Function.update_self ..⟩
    rw [hkeys]
    rcases h.groupKey_new he with ⟨hnamed, hkey⟩ | ⟨hnamed, hkey⟩
    · rw [hkey]
      exact or_congr_right ⟨.inl, fun hs => hs.resolve_right fun hs => hnamed hs.1⟩
    · rw [hkey]
      constructor
      · exact Or.imp_right fun hs => .inr ⟨hnamed, hs⟩
      · rintro (hs | rfl | ⟨-, hs⟩)
        · exact .inl hs
        · exact .inl ((h.named _).mpr hnamed)
        · exact .inr hs
  · rw [distinctPartitions_of_notMem he]
    intro p hp
    rw [filter_append_singleton]
    rcases List.mem_append.mp hp with hp | hp
    · rw [if_neg (Ne.symm (hne hp)), List.append_nil, Function.update_of_ne (hne hp)]
      exact h.summarizes p hp
    · obtain rfl := List.mem_singleton.mp hp
      have hnone : (placed.filter fun e' => e'.partition = e.partition) = [] :=
        List.filter_eq_nil_iff.mpr fun e' he' heq =>
          he (of_decide_eq_true heq ▸ partition_mem he')
      rw [if_pos rfl, Function.update_self, hnone]
      exact summarizes_first e

/-- The groups that are exact. -/
lemma exact (h : Grouped placed g key candidate) : Exact placed g := by
  refine ⟨distinctPartitions placed, .refl _, ?_⟩
  rw [h.sessions, List.forall₂_map_right_iff, List.forall₂_same]
  exact h.summarizes

end Grouped

/-! ### Groups after a clash -/

/-- Every partition that was met has the key of a candidate. -/
structure Linked (placed : List PendingEpisode) (g : Groups) : Prop where
  partitions : g.partitions.rows.map Prod.fst = distinctPartitions placed
  known : ∀ row ∈ g.partitions.rows, row.2 ∈ g.sessions.rows.map Prod.fst

lemma Grouped.linked (h : Grouped placed g key candidate) : Linked placed g where
  partitions := by
    rw [h.partitions, List.map_map]
    exact List.map_id _
  known row hrow := by
    rw [h.partitions] at hrow
    obtain ⟨p, hp, rfl⟩ := List.mem_map.mp hrow
    rw [h.keys]
    exact List.mem_map_of_mem hp

namespace Linked

/-- The key of a partition that was met has a candidate. -/
lemma groupKey_mem (h : Linked placed g) (he : e.partition ∈ distinctPartitions placed) :
    g.groupKey e ∈ g.sessions.rows.map Prod.fst := by
  rw [← h.partitions] at he
  obtain ⟨row, hrow, hpartition⟩ := List.mem_map.mp he
  have hfind : g.partitions.find? e.partition = some row := by
    rw [← hpartition]
    exact Table.find?_of_mem hrow
  rw [Groups.groupKey, hfind]
  exact h.known row hrow

lemma add (h : Linked placed g) (e : PendingEpisode) : Linked (placed ++ [e]) (g.add e) := by
  have hkeys {k : String} (hk : k ∈ g.sessions.rows.map Prod.fst ∨ k = g.groupKey e) :
      k ∈ (g.add e).sessions.rows.map Prod.fst := by
    rw [Groups.add, Table.mem_keys_upsert]
    exact hk
  by_cases he : e.partition ∈ distinctPartitions placed
  · have hmem : e.partition ∈ g.partitions.rows.map Prod.fst := h.partitions ▸ he
    constructor
    · rw [distinctPartitions_of_mem he, ← h.partitions, Groups.add, Table.rows_upsert_of_mem hmem,
        List.map_map]
      refine List.map_congr_left fun row _ => ?_
      by_cases hrow : row.1 = e.partition <;> simp [hrow]
    · rw [Groups.add, Table.rows_upsert_of_mem hmem, List.forall_mem_map]
      intro row hrow
      refine hkeys ?_
      split_ifs
      · exact .inr rfl
      · exact .inl (h.known row hrow)
  · have hfresh : e.partition ∉ g.partitions.rows.map Prod.fst := h.partitions ▸ he
    constructor
    · rw [distinctPartitions_of_notMem he, ← h.partitions, Groups.add,
        Table.rows_upsert_of_notMem hfresh, List.map_append]
      rfl
    · rw [Groups.add, Table.rows_upsert_of_notMem hfresh, List.forall_mem_append]
      refine ⟨fun row hrow => hkeys (.inl (h.known row hrow)), fun row hrow => ?_⟩
      rw [List.mem_singleton.mp hrow]
      exact hkeys (.inr rfl)

/-- Once there are fewer candidates than partitions, there are fewer ever after. -/
lemma fewer_add (h : Linked placed g)
    (hfewer : g.sessions.rows.length < (distinctPartitions placed).length) :
    (g.add e).sessions.rows.length < (distinctPartitions (placed ++ [e])).length := by
  by_cases he : e.partition ∈ distinctPartitions placed
  · rw [distinctPartitions_of_mem he, Groups.add, Table.rows_upsert_of_mem (h.groupKey_mem he),
      List.length_map]
    exact hfewer
  · rw [distinctPartitions_of_notMem he, List.length_append, List.length_singleton]
    exact (Table.length_upsert_le _ _).trans_lt (Nat.succ_lt_succ hfewer)

end Linked

/-- A partition whose key clashes gets no candidate of its own. -/
lemma Grouped.fewer_of_clash (h : Grouped placed g key candidate)
    (hclash : ¬ Clashes (distinctPartitions placed))
    (hclash' : Clashes (distinctPartitions (placed ++ [e]))) :
    (g.add e).sessions.rows.length < (distinctPartitions (placed ++ [e])).length := by
  have he : e.partition ∉ distinctPartitions placed := fun he =>
    hclash (distinctPartitions_of_mem he ▸ hclash')
  rw [distinctPartitions_of_notMem he] at hclash' ⊢
  obtain ⟨hnamed, q, hq, hkey⟩ := (clashes_append_singleton.mp hclash').resolve_left hclash
  have hgroup : g.groupKey e = q.1 := by
    rcases h.groupKey_new he with ⟨hunnamed, -⟩ | ⟨-, hgroup⟩
    · exact absurd hnamed hunnamed
    · exact hgroup.trans hkey.symm
  obtain ⟨p, hp, hnamed⟩ := (h.named q.1).mpr (.session hq)
  have hmem : g.groupKey e ∈ g.sessions.rows.map Prod.fst := by
    rw [hgroup, h.keys, ← hnamed]
    exact List.mem_map_of_mem hp
  rw [Groups.add, Table.rows_upsert_of_mem hmem, List.length_map, h.sessions, List.length_map,
    List.length_append]
  exact Nat.lt_succ_self _

end Step

lemma not_clashes_nil : ¬ Clashes [] := by
  rintro ⟨before, p, after, hps, -⟩
  simp at hps

lemma grouped_nil (candidate : String × ScopeKey → SessionCandidate) :
    Grouped [] {} (fun _ => "") candidate where
  sessions := rfl
  partitions := rfl
  named s := by
    constructor
    · rintro ⟨p, hp, -⟩
      cases hp
    · intro h
      rcases named_iff.mp h with ⟨p, hp, -⟩ | ⟨before, p, later, hps, -⟩
      · cases hp
      · exact absurd hps.symm (by simp [distinctPartitions])
  summarizes _ hp := by cases hp

/-- What the loop of `collect_candidates` makes of placed episodes. -/
lemma foldl_add {placed : List PendingEpisode} (hauthority : ∀ e ∈ placed, ∀ e' ∈ placed,
      e'.partition = e.partition → e'.authority = e.authority) :
    Linked placed (placed.foldl Groups.add {}) ∧
      (¬ Clashes (distinctPartitions placed) →
        ∃ key candidate, Grouped placed (placed.foldl Groups.add {}) key candidate) ∧
      (Clashes (distinctPartitions placed) →
        (placed.foldl Groups.add {}).sessions.rows.length <
          (distinctPartitions placed).length) := by
  induction placed using List.reverseRecOn with
  | nil =>
    have hgrouped := grouped_nil fun _ => ⟨"", .ofMicros 0, 0, [], [], .null⟩
    exact ⟨hgrouped.linked, fun _ => ⟨_, _, hgrouped⟩, fun h => absurd h not_clashes_nil⟩
  | append_singleton placed e ih =>
    obtain ⟨hlinked, hgrouped, hfewer⟩ := ih fun e he e' he' =>
      hauthority e (List.mem_append_left _ he) e' (List.mem_append_left _ he')
    have hauthority' : ∀ e' ∈ placed, e'.partition = e.partition → e'.authority = e.authority :=
      fun e' he' => hauthority e (by simp) e' (List.mem_append_left _ he')
    rw [List.foldl_append]
    refine ⟨hlinked.add e, ?_⟩
    by_cases hclash : Clashes (distinctPartitions placed)
    · refine ⟨fun hclash' => absurd ?_ hclash', fun _ => hlinked.fewer_add (hfewer hclash)⟩
      by_cases he : e.partition ∈ distinctPartitions placed
      · rwa [distinctPartitions_of_mem he]
      · rw [distinctPartitions_of_notMem he]
        exact clashes_append_singleton.mpr (.inl hclash)
    · obtain ⟨key, candidate, hgrouped⟩ := hgrouped hclash
      refine ⟨fun hclash' => ?_, hgrouped.fewer_of_clash hclash⟩
      by_cases he : e.partition ∈ distinctPartitions placed
      · exact ⟨_, _, hgrouped.add_known he hauthority'⟩
      · rw [distinctPartitions_of_notMem he] at hclash'
        exact ⟨_, _, hgrouped.add_new he hclash'⟩

lemma not_exact_of_fewer {placed : List PendingEpisode} {g : Groups}
    (h : g.sessions.rows.length < (distinctPartitions placed).length) : ¬ Exact placed g := by
  rintro ⟨ps, hperm, hrows⟩
  rw [← hrows.length_eq, hperm.length_eq] at h
  exact lt_irrefl _ h

/-! ### The scheduler -/

section Collect

variable {mode : DeploymentMode} {clock : Clock}

/-- The authority under which `collect_candidates` places an episode. -/
lemma placeEpisode_eq_ok {point : Episode} {e : PendingEpisode}
    (h : placeEpisode py mode clock point = .ok (some e)) :
    ∃ a : CallerAuthority py, scopedAuthority py mode point.payload = .ok a ∧
      e.authority = a.snapshot ∧ identityKey py a.snapshot = .ok e.key := by
  obtain ⟨time, -, h⟩ := bind_eq_ok.mp h
  cases time with
  | none => cases h
  | some time =>
    by_cases hsession : fieldText py point.payload "session_id" = ""
    · simp only [if_pos hsession] at h
      cases h
    · simp only [if_neg hsession] at h
      split at h
      · split_ifs at h
        cases h
      · cases h
      · rename_i a ha
        obtain ⟨key, hkey, h⟩ := bind_eq_ok.mp h
        cases h
        exact ⟨a, ha, rfl, hkey⟩

/-- Placed episodes of one partition have one authority. -/
lemma authority_of_key {point point' : Episode} {e e' : PendingEpisode}
    (h : placeEpisode py mode clock point = .ok (some e))
    (h' : placeEpisode py mode clock point' = .ok (some e')) (hkey : e.key = e'.key) :
    e.authority = e'.authority := by
  obtain ⟨a, ha, hauthority, hsnapshot⟩ := placeEpisode_eq_ok h
  obtain ⟨b, hb, hauthority', hsnapshot'⟩ := placeEpisode_eq_ok h'
  obtain ⟨scope, -, ha⟩ := bind_eq_ok.mp ha
  obtain ⟨scope', -, hb⟩ := bind_eq_ok.mp hb
  rw [identityKey_snapshot (authenticated_of_make ha)] at hsnapshot
  rw [identityKey_snapshot (authenticated_of_make hb), ← hkey] at hsnapshot'
  have hscope : a.grant.scope = b.grant.scope :=
    asDict_injective (Except.ok.inj (hsnapshot.trans hsnapshot'.symm))
  have hsame : a = b := by
    obtain ⟨-, hascope, -⟩ := authorityForAuthenticatedScope_eq_ok ha
    obtain ⟨-, hbscope, -⟩ := authorityForAuthenticatedScope_eq_ok hb
    rw [← hascope, hscope, hbscope] at ha
    exact Except.ok.inj (ha.symm.trans hb)
  rw [hauthority, hauthority', hsame]

/-- The candidates are exact as long as no numbered key clashes with a session id. -/
theorem collectCandidates_exact_iff {points : List Episode} {g : Groups}
    (h : collectCandidates py mode clock points = .ok g) :
    ∃ placed, points.mapM (placeEpisode py mode clock) = .ok placed ∧
      (Exact placed.reduceOption g ↔ ¬ Clashes (distinctPartitions placed.reduceOption)) := by
  obtain ⟨placed, hplaced, h⟩ := bind_eq_ok.mp h
  cases h
  refine ⟨placed, hplaced, ?_⟩
  have hauthority : ∀ e ∈ placed.reduceOption, ∀ e' ∈ placed.reduceOption,
      e'.partition = e.partition → e'.authority = e.authority := by
    intro e he e' he' hpartition
    rw [List.reduceOption_mem_iff, mem_of_mapM hplaced] at he he'
    obtain ⟨point, -, hpoint⟩ := he
    obtain ⟨point', -, hpoint'⟩ := he'
    exact authority_of_key hpoint' hpoint (congrArg Prod.snd hpartition)
  obtain ⟨-, hgrouped, hfewer⟩ := foldl_add hauthority
  constructor
  · exact fun hexact hclash => not_exact_of_fewer (hfewer hclash) hexact
  · intro hclash
    obtain ⟨key, candidate, hgrouped⟩ := hgrouped hclash
    exact hgrouped.exact

end Collect

section Sample

/-- An episode of a session and a project. -/
def projectEpisode (n : ℕ) (session project : String) : Episode where
  id := .ofNat n
  payload key :=
    if key = "session_id" then some (.str session)
    else if key = "project" then some (.str project)
    else if key = "event_time" then some (.str "1970-01-01T00:00:00Z")
    else none

/-- The third partition gets the session id of the first one as its key. -/
def clashingEpisodes : List Episode :=
  [projectEpisode 1 "a:2" "x", projectEpisode 2 "a" "x", projectEpisode 3 "a" "y"]

/-- Two partitions share a candidate. -/
theorem clashing_episodes_merged : ∃ placed g,
    clashingEpisodes.mapM (placeEpisode Runtime.ascii .singleOwner sampleClock) = .ok placed ∧
      collectCandidates Runtime.ascii .singleOwner sampleClock clashingEpisodes = .ok g ∧
      ¬ Exact placed.reduceOption g := by
  have hlengths : (clashingEpisodes.mapM
      (placeEpisode Runtime.ascii .singleOwner sampleClock)).toOption.map (fun placed =>
        ((placed.reduceOption.foldl Groups.add {}).sessions.rows.length,
          (distinctPartitions placed.reduceOption).length)) = some (2, 3) := by
    decide +kernel
  obtain ⟨placed, hplaced, hlengths⟩ := Option.map_eq_some_iff.mp hlengths
  rw [toOption_eq_some] at hplaced
  obtain ⟨hrows, hpartitions⟩ := Prod.mk.inj hlengths
  refine ⟨placed, _, hplaced, bind_eq_ok.mpr ⟨placed, hplaced, rfl⟩, not_exact_of_fewer ?_⟩
  rw [hrows, hpartitions]
  decide

/-- Two projects of one session, without a clash. -/
def distinctEpisodes : List Episode := [projectEpisode 2 "a" "x", projectEpisode 3 "a" "y"]

theorem distinct_episodes_exact_iff : ∃ g placed,
    collectCandidates Runtime.ascii .singleOwner sampleClock distinctEpisodes = .ok g ∧
      distinctEpisodes.mapM (placeEpisode Runtime.ascii .singleOwner sampleClock) = .ok placed ∧
      (Exact placed.reduceOption g ↔ ¬ Clashes (distinctPartitions placed.reduceOption)) := by
  have hok : (collectCandidates Runtime.ascii .singleOwner sampleClock
      distinctEpisodes).toOption.isSome = true := by
    decide +kernel
  obtain ⟨g, hg⟩ := Option.isSome_iff_exists.mp hok
  have hg := toOption_eq_some.mp hg
  obtain ⟨placed, hplaced, hiff⟩ := collectCandidates_exact_iff hg
  exact ⟨g, placed, hg, hplaced, hiff⟩

end Sample

end CyberBrain.Dreaming
