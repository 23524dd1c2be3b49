import CyberBrain.Reasoning.Paths
import CyberBrain.Reasoning.Symmetry
import Mathlib.Data.List.Chain

/-!
# Chains of dependencies

Rule 2 walks along the dependencies level by level. A level holds every walk of its length, so what
is derived within the budgets is what the chains of dependencies conclude.
-/

namespace CyberBrain.Reasoning.BoundedReasoningEngine

open Python Relations

variable {py : Runtime} {engine : BoundedReasoningEngine} {edges depends : List (RelationEdge py)}
  {edge next : RelationEdge py} {path q : Path py}

/-! ### Walks -/

/-- A walk along edges, through different entities, that is valid at some time. -/
structure Walk (depends : List (RelationEdge py)) (path : Path py) : Prop where
  mem : ∀ e ∈ path.edges, e ∈ depends
  linked : path.edges.IsChain fun e e' => entityKey e.target = entityKey e'.source
  simple : path.visited.Nodup
  valid : path.expired = false

lemma Path.induction {motive : Path py → Prop} (hsingle : ∀ edge, motive (.single edge))
    (hadd : ∀ path next, motive path → motive (path.add next)) (path : Path py) : motive path := by
  obtain ⟨edges, hne⟩ := path
  induction edges using List.reverseRecOn with
  | nil => exact absurd rfl hne
  | append_singleton edges next ih =>
    by_cases hnil : edges = []
    · subst hnil
      exact hsingle next
    · exact hadd ⟨edges, hnil⟩ next (ih hnil)

lemma walk_single : Walk depends (.single edge) ↔ edge ∈ depends := by
  constructor
  · exact fun h => h.mem edge (List.mem_singleton_self _)
  · intro hmem
    constructor
    case mem => simpa using hmem
    case linked => exact List.isChain_singleton _
    case simple =>
      show [entityKey edge.source, entityKey edge.target].Nodup
      simpa [entityKey] using edge.not_self
    case valid =>
      refine Path.not_expired_iff.mpr ⟨edge.validFrom, fun e he => ?_⟩
      obtain rfl := List.mem_singleton.mp he
      exact ⟨Path.le_refl_instant _, e.follows⟩

lemma walk_add : Walk depends (path.add next) ↔
    Walk depends path ∧ next ∈ depends ∧ entityKey next.source = entityKey path.last.target ∧
      entityKey next.target ∉ path.visited ∧ (path.add next).expired = false := by
  have hlast : path.edges.getLast? = some path.last := List.getLast?_eq_some_getLast _
  constructor
  · intro h
    have hchain := List.isChain_append.mp h.linked
    have hsimple := h.simple
    rw [Path.visited_add] at hsimple
    obtain ⟨hvisited, -, hnext⟩ := List.nodup_append.mp hsimple
    obtain ⟨t, ht⟩ := Path.not_expired_iff.mp h.valid
    refine ⟨⟨fun e he => h.mem e (List.mem_append_left _ he), hchain.1, hvisited, ?_⟩,
      h.mem next (by simp), ?_, ?_, h.valid⟩
    · exact Path.not_expired_iff.mpr ⟨t, fun e he => ht e (List.mem_append_left _ he)⟩
    · exact (hchain.2.2 path.last (by rw [hlast]; rfl) next rfl).symm
    · exact fun hin => hnext _ hin _ (List.mem_singleton_self _) rfl
  · rintro ⟨h, hmem, hlink, hvisited, hvalid⟩
    constructor
    case mem =>
      intro e he
      rcases List.mem_append.mp he with he | he
      · exact h.mem e he
      · exact List.mem_singleton.mp he ▸ hmem
    case linked =>
      refine List.isChain_append.mpr ⟨h.linked, List.isChain_singleton _, fun e he e' he' => ?_⟩
      rw [hlast] at he
      cases he
      cases he'
      exact hlink.symm
    case simple =>
      rw [Path.visited_add]
      refine List.nodup_append.mpr ⟨h.simple, List.nodup_singleton _, ?_⟩
      rintro key hkey key' hkey' rfl
      exact hvisited (List.mem_singleton.mp hkey' ▸ hkey)
    case valid => exact hvalid

/-! ### Levels -/

/-- The path with one edge more, where that leads on. -/
def grown (path : Path py) (next : RelationEdge py) : List (Path py) :=
  if entityKey next.target ∈ path.visited ∨ (path.add next).expired then [] else [path.add next]

/-- The paths with one edge more. -/
def successors (depends : List (RelationEdge py)) (path : Path py) : List (Path py) :=
  (depends.filter fun e => entityKey e.source = entityKey path.last.target).flatMap (grown path)

lemma mem_successors (hwalk : Walk depends path) :
    q ∈ successors depends path ↔ Walk depends q ∧ ∃ next, q = path.add next := by
  simp only [successors, List.mem_flatMap, List.mem_filter, decide_eq_true_eq, grown]
  constructor
  · rintro ⟨next, ⟨hmem, hlink⟩, hq⟩
    split_ifs at hq with hstop
    · cases hq
    · obtain rfl := List.mem_singleton.mp hq
      obtain ⟨hvisited, hvalid⟩ := not_or.mp hstop
      exact ⟨walk_add.mpr ⟨hwalk, hmem, hlink, hvisited, by simpa using hvalid⟩, next, rfl⟩
  · rintro ⟨hq, next, rfl⟩
    obtain ⟨-, hmem, hlink, hvisited, hvalid⟩ := walk_add.mp hq
    have hgo : ¬ (entityKey next.target ∈ path.visited ∨ (path.add next).expired = true) := by
      simp [hvisited, hvalid]
    exact ⟨next, ⟨hmem, hlink⟩, by rw [if_neg hgo]; exact List.mem_singleton_self _⟩

/-- A level of walks holds all those of a length. -/
def Level (depends : List (RelationEdge py)) (n : ℕ) (paths : List (Path py)) : Prop :=
  ∀ path, path ∈ paths ↔ Walk depends path ∧ path.edges.length = n

lemma level_one : Level depends 1 (depends.map .single) := by
  intro path
  rw [List.mem_map]
  constructor
  · rintro ⟨edge, hedge, rfl⟩
    exact ⟨walk_single.mpr hedge, rfl⟩
  · rintro ⟨hwalk, hlength⟩
    obtain ⟨edge, rfl⟩ | ⟨shorter, next, rfl⟩ := path.eq_single_or_add
    · exact ⟨edge, walk_single.mp hwalk, rfl⟩
    · have hpos := List.length_pos_iff.mpr shorter.ne_nil
      simp only [Path.edges_add, List.length_append, List.length_singleton] at hlength
      omega

lemma Level.succ {n : ℕ} {paths : List (Path py)} (h : Level depends n paths) (hn : 0 < n) :
    Level depends (n + 1) (paths.flatMap (successors depends)) := by
  intro q
  rw [List.mem_flatMap]
  constructor
  · rintro ⟨path, hpath, hq⟩
    obtain ⟨hwalk, hlength⟩ := (h path).mp hpath
    obtain ⟨hq, next, rfl⟩ := (mem_successors hwalk).mp hq
    exact ⟨hq, by simp [hlength]⟩
  · rintro ⟨hq, hlength⟩
    obtain ⟨edge, rfl⟩ | ⟨path, next, rfl⟩ := q.eq_single_or_add
    · simp at hlength
      omega
    · have hwalk := (walk_add.mp hq).1
      exact ⟨path, (h path).mpr ⟨hwalk, by simpa using hlength⟩, (mem_successors hwalk).mpr
        ⟨hq, next, rfl⟩⟩

/-- After an empty level there are no longer walks. -/
lemma Level.longer {n m : ℕ} (h : Level depends n []) (hn : 0 < n) (hm : n ≤ m)
    (hwalk : Walk depends path) : path.edges.length ≠ m := by
  induction path using Path.induction generalizing m with
  | hsingle edge =>
    rintro rfl
    have hone : n = 1 := by
      simp at hm
      omega
    exact List.not_mem_nil ((h _).mpr ⟨hwalk, hone.symm⟩)
  | hadd path next ih =>
    rintro rfl
    rcases Nat.lt_or_ge n (path.add next).edges.length with hlt | hge
    · refine ih (m := path.edges.length) ?_ (walk_add.mp hwalk).1 rfl
      simp at hlt
      omega
    · exact List.not_mem_nil ((h _).mpr ⟨hwalk, le_antisymm hge hm⟩)

/-! ### What rule 2 finds -/

variable {base d d' : Derivation py} {x x' : Extension py} {done : List (Path py)} {level : ℕ}
  {a : DerivedAssertion py}

/-- An assertion is the dependency of a path, with its premises. -/
structure Arises (a : DerivedAssertion py) (path : Path py) : Prop where
  rule : a.rule = .transitiveDependency
  premises : a.premises = path.premiseIds
  make : (composed path).make = .ok a.edge

/-- What rule 2 has found on some paths, after what was found before. -/
structure Found (base : Derivation py) (done : List (Path py)) (d : Derivation py) : Prop where
  seen : ∀ path ∈ done, transitiveKey path ∈ d.seenDerivedKeys
  covered : ∀ key ∈ d.seenDerivedKeys, key ∈ base.seenDerivedKeys ∨
    ∃ a ∈ d.derived, ∃ path ∈ done, Arises a path ∧ transitiveKey path = key
  arises : ∀ a ∈ d.derived, a ∈ base.derived ∨ ∃ path ∈ done, Arises a path

namespace Found

lemma start (base : Derivation py) : Found base [] base where
  seen _ hpath := absurd hpath List.not_mem_nil
  covered _ hkey := .inl hkey
  arises _ ha := .inl ha

/-- Another path with a key that was seen. -/
lemma repeated (h : Found base done d) (hseen : transitiveKey q ∈ d.seenDerivedKeys) :
    Found base (done ++ [q]) d where
  seen path hpath := by
    rcases List.mem_append.mp hpath with hpath | hpath
    · exact h.seen path hpath
    · exact List.mem_singleton.mp hpath ▸ hseen
  covered key hkey := (h.covered key hkey).imp_right fun ⟨a, ha, path, hpath, hrest⟩ =>
    ⟨a, ha, path, List.mem_append_left _ hpath, hrest⟩
  arises a ha := (h.arises a ha).imp_right fun ⟨path, hpath, hrest⟩ =>
    ⟨path, List.mem_append_left _ hpath, hrest⟩

/-- Another path with its assertion. -/
lemma added (h : Found base done d) (ha : Arises a q) (n : ℕ) (exceeded : Bool) :
    Found base (done ++ [q])
      ⟨d.derived ++ [a], transitiveKey q :: d.seenDerivedKeys, n, exceeded⟩ where
  seen path hpath := by
    rcases List.mem_append.mp hpath with hpath | hpath
    · exact List.mem_cons_of_mem _ (h.seen path hpath)
    · exact List.mem_singleton.mp hpath ▸ List.mem_cons_self ..
  covered key hkey := by
    rcases List.mem_cons.mp hkey with rfl | hkey
    · exact .inr ⟨a, by simp, q, by simp, ha, rfl⟩
    · exact (h.covered key hkey).imp_right fun ⟨b, hb, path, hpath, hrest⟩ =>
        ⟨b, List.mem_append_left _ hb, path, List.mem_append_left _ hpath, hrest⟩
  arises b hb := by
    rcases List.mem_append.mp hb with hb | hb
    · exact (h.arises b hb).imp_right fun ⟨path, hpath, hrest⟩ =>
        ⟨path, List.mem_append_left _ hpath, hrest⟩
    · exact .inr ⟨q, by simp, List.mem_singleton.mp hb ▸ ha⟩

/-- Counting changes nothing that was found. -/
lemma counted (h : Found base done d) (n : ℕ) (exceeded : Bool) :
    Found base done ⟨d.derived, d.seenDerivedKeys, n, exceeded⟩ :=
  ⟨h.seen, h.covered, h.arises⟩

/-- One edge more at the end of a path. -/
lemma follow (h : Found base done x.toDerivation)
    (hfollow : BoundedReasoningEngine.follow level path x next = .ok x')
    (hbudget : x'.budgetExceeded = false) :
    Found base (done ++ grown path next) x'.toDerivation ∧
      x'.nextFrontier = x.nextFrontier ++ grown path next := by
  unfold BoundedReasoningEngine.follow at hfollow
  dsimp only at hfollow
  unfold grown
  split_ifs at hfollow ⊢ with hstop hmany hseen
  · cases hfollow
    simpa using h
  · cases hfollow
    cases hbudget
  · cases hfollow
    exact ⟨h.repeated hseen, rfl⟩
  · obtain ⟨derivedEdge, hmake, heq⟩ := bind_eq_ok.mp hfollow
    cases heq
    exact ⟨h.added ⟨rfl, rfl, hmake⟩ _ _, rfl⟩

/-- All edges that start where a path ends. -/
lemma followAll {starting : List (RelationEdge py)} (h : Found base done x.toDerivation)
    (hfollow : engine.followAll level path x starting = .ok x')
    (hbudget : x'.budgetExceeded = false) :
    Found base (done ++ starting.flatMap (grown path)) x'.toDerivation ∧
      x'.nextFrontier = x.nextFrontier ++ starting.flatMap (grown path) := by
  induction starting generalizing x done with
  | nil =>
    cases hfollow
    simpa using h
  | cons next starting ih =>
    rw [BoundedReasoningEngine.followAll] at hfollow
    split_ifs at hfollow
    · cases hfollow
      cases hbudget
    · obtain ⟨y, hy, hfollow⟩ := bind_eq_ok.mp hfollow
      split_ifs at hfollow with hexceeded
      · cases hfollow
        rw [hexceeded] at hbudget
        cases hbudget
      · obtain ⟨hfound, hfrontier⟩ := (h.counted (x.comparisons + 1) x.budgetExceeded).follow
          (x := { x with comparisons := x.comparisons + 1 }) hy (by simpa using hexceeded)
        obtain ⟨hfound, hrest⟩ := ih hfound hfollow
        rw [List.flatMap_cons, ← List.append_assoc, ← List.append_assoc]
        exact ⟨hfound, by rw [hrest, hfrontier]⟩

/-- All paths of a level. -/
lemma extendAll {paths : List (Path py)} (h : Found base done x.toDerivation)
    (hextend : engine.extendAll depends level x paths = .ok x')
    (hbudget : x'.budgetExceeded = false) :
    Found base (done ++ paths.flatMap (successors depends)) x'.toDerivation ∧
      x'.nextFrontier = x.nextFrontier ++ paths.flatMap (successors depends) := by
  induction paths generalizing x done with
  | nil =>
    cases hextend
    simpa using h
  | cons path paths ih =>
    obtain ⟨y, hy, hextend⟩ := bind_eq_ok.mp hextend
    split_ifs at hextend with hexceeded
    · cases hextend
      rw [hexceeded] at hbudget
      cases hbudget
    · obtain ⟨hfound, hfrontier⟩ := h.followAll hy (by simpa using hexceeded)
      obtain ⟨hfound, hrest⟩ := ih hfound hextend
      rw [List.flatMap_cons, ← List.append_assoc, ← List.append_assoc]
      exact ⟨hfound, by rw [hrest, hfrontier]; rfl⟩

/-- All levels up to a length. -/
lemma deepen {paths : List (Path py)} {n k : ℕ} (hn : 0 < n) (hlevel : Level depends n paths)
    (hdone : ∀ path, path ∈ done ↔ Walk depends path ∧ 2 ≤ path.edges.length ∧
      path.edges.length ≤ n)
    (h : Found base done d) (hdeepen : engine.deepen depends d level paths k = .ok d')
    (hbudget : d'.budgetExceeded = false) :
    ∃ all, Found base all d' ∧ ∀ path, path ∈ all ↔ Walk depends path ∧ 2 ≤ path.edges.length ∧
      path.edges.length ≤ n + k := by
  induction k generalizing n paths done d level with
  | zero =>
    cases hdeepen
    exact ⟨done, h, hdone⟩
  | succ k ih =>
    obtain ⟨y, hy, hdeepen⟩ := bind_eq_ok.mp hdeepen
    have hnext := hlevel.succ hn
    have hlonger : ∀ path, path ∈ done ++ paths.flatMap (successors depends) ↔
        Walk depends path ∧ 2 ≤ path.edges.length ∧ path.edges.length ≤ n + 1 := by
      intro path
      rw [List.mem_append, hdone, hnext path]
      constructor
      · rintro (⟨hwalk, htwo, hle⟩ | ⟨hwalk, hlength⟩)
        · exact ⟨hwalk, htwo, hle.trans (Nat.le_succ n)⟩
        · exact ⟨hwalk, by omega, hlength.le⟩
      · rintro ⟨hwalk, htwo, hle⟩
        rcases Nat.lt_or_ge n path.edges.length with hlt | hge
        · exact .inr ⟨hwalk, by omega⟩
        · exact .inl ⟨hwalk, htwo, hge⟩
    split_ifs at hdeepen with hstop
    · cases hdeepen
      obtain ⟨hfound, hfrontier⟩ := h.extendAll (x := { d with }) hy hbudget
      have hnil : paths.flatMap (successors depends) = [] := by
        have hempty := hstop.resolve_left (by simp [hbudget])
        rw [hempty] at hfrontier
        simpa using hfrontier.symm
      rw [hnil] at hnext hlonger hfound
      refine ⟨done ++ [], hfound, fun path => (hlonger path).trans ?_⟩
      refine and_congr_right fun hwalk => and_congr_right fun _ => ⟨fun hle => by omega, fun _ => ?_⟩
      by_contra hlong
      exact hnext.longer (Nat.succ_pos n) (by omega) hwalk rfl
    · obtain ⟨hexceeded, -⟩ := not_or.mp hstop
      obtain ⟨hfound, hfrontier⟩ := h.extendAll (x := { d with }) hy (by simpa using hexceeded)
      have hlevel' : Level depends (n + 1) y.nextFrontier := by
        rw [hfrontier]
        exact hnext
      obtain ⟨all, hall, hmem⟩ := ih (Nat.succ_pos n) hlevel' hlonger hfound hdeepen
      refine ⟨all, hall, fun path => ?_⟩
      rw [hmem path, Nat.succ_add, Nat.add_succ]

end Found

/-! ### What is composed is admitted -/

/-- The texts of the endpoints of some edges. -/
def endpointTexts (edges : List (RelationEdge py)) : Set String :=
  {text | ∃ e ∈ edges, ∃ entity, (entity = e.source ∨ entity = e.target) ∧
    text = canonicalJson py entity.dump}

/-- Where the digest has no collisions on them, endpoints are known by their keys. -/
lemma endpoint_inj (hsha : Set.InjOn py.sha256 (endpointTexts edges)) {e f : RelationEdge py}
    (he : e ∈ edges) (hf : f ∈ edges) {entity entity' : EntityRef py}
    (hentity : entity = e.source ∨ entity = e.target)
    (hentity' : entity' = f.source ∨ entity' = f.target)
    (hkey : entityKey entity = entityKey entity') : entity = entity' :=
  EntityRef.dump_inj (sortKeys_eq_of_fingerprint hsha ⟨e, he, entity, hentity, rfl⟩
    ⟨f, hf, entity', hentity', rfl⟩ hkey)

/-- A walk stays within a scope. -/
lemma Walk.scope (hsha : Set.InjOn py.sha256 (endpointTexts depends)) (hwalk : Walk depends path) :
    path.first.source.scope = path.last.target.scope := by
  induction path using Path.induction with
  | hsingle edge => exact edge.same_partition
  | hadd path next ih =>
    obtain ⟨hshorter, hnext, hlink, -, -⟩ := walk_add.mp hwalk
    have hentity : next.source = path.last.target :=
      endpoint_inj hsha hnext (hshorter.mem _ (Path.mem_last _)) (.inl rfl) (.inr rfl) hlink
    rw [Path.first_add, Path.last_add, ih hshorter, ← hentity]
    exact next.same_partition

lemma length_joined_le {texts : List String} {n : ℕ} (h : ∀ text ∈ texts, text.length ≤ n) :
    (joined texts).length ≤ (n + 2) * texts.length := by
  induction texts with
  | nil => exact Nat.zero_le _
  | cons text texts ih =>
    obtain ⟨htext, htexts⟩ := List.forall_mem_cons.mp h
    have hrest := ih htexts
    cases texts with
    | nil =>
      simp only [joined, List.length_cons, List.length_nil]
      omega
    | cons t ts =>
      rw [joined, String.length_append, String.length_append, List.length_cons, Nat.mul_succ]
      have hcomma : (", " : String).length = 2 := rfl
      omega

/-- A tuple of five ids is short. -/
lemma length_tupleText_le (hhex : HexDigests py) (hfive : path.edges.length ≤ 5) :
    (tupleText path.premiseIds).length ≤ 342 := by
  have hids : ∀ text ∈ path.premiseIds.map fun id => "'" ++ id ++ "'", text.length ≤ 66 := by
    intro text htext
    obtain ⟨id, hid, rfl⟩ := List.mem_map.mp htext
    obtain ⟨n, hn, rfl⟩ := List.mem_mapIdx.mp hid
    rw [premiseId_eq hhex, String.length_append, String.length_append, relationId_length hhex]
    rfl
  have hjoined := length_joined_le hids
  have hlength : (path.premiseIds.map fun id => "'" ++ id ++ "'").length ≤ 5 := by
    simpa [Path.premiseIds] using hfive
  rw [tupleText, String.length_append, String.length_append]
  have hopen : ("(" : String).length = 1 := rfl
  have hclose : (")" : String).length = 1 := rfl
  omega

/-- The dependency of a walk passes validation. -/
lemma composed_sound (hhex : HexDigests py)
    (hsha : Set.InjOn py.sha256 (endpointTexts depends)) (hadmitted : ∀ e ∈ depends, Admitted e)
    (hwalk : Walk depends path) (hfive : path.edges.length ≤ 5)
    (hevidence : path.evidence.sorted.length ≤ 32) : (composed path).Sound := by
  have hnote : ("Derived dependency from original premises " : String).length = 42 := rfl
  constructor
  case evidence_ne =>
    obtain ⟨r, hr⟩ := List.exists_mem_of_ne_nil _
      (hadmitted _ (hwalk.mem _ path.mem_first)).ne_nil
    have hmem : r ∈ path.evidence := Path.mem_evidence.mpr ⟨_, path.mem_first, hr⟩
    exact List.ne_nil_of_mem (FrozenSet.mem_def.mp hmem)
  case evidence_le => exact hevidence
  case note_ne =>
    refine ne_empty_of_length_pos ?_
    rw [composed, String.length_append]
    omega
  case note_le =>
    have htuple := length_tupleText_le hhex hfive
    rw [composed, String.length_append]
    omega
  case not_self =>
    have hfirst := (List.nodup_cons.mp hwalk.simple).1
    exact fun heq => hfirst (List.mem_map.mpr ⟨_, path.mem_last, heq.symm⟩)
  case scope => exact hwalk.scope hsha
  case follows =>
    have hvalid : ∀ t ∈ path.validUntil, path.validFrom < t := by
      simpa [Path.expired] using hwalk.valid
    exact hvalid

/-! ### Rule 2 raises nothing -/

section Total

variable (hhex : HexDigests py) (hsha : Set.InjOn py.sha256 (endpointTexts depends))
  (hadmitted : ∀ e ∈ depends, Admitted e)
include hhex hsha hadmitted

lemma exists_follow (level : ℕ) (hwalk : Walk depends path) (hfour : path.edges.length ≤ 4)
    (hnext : next ∈ depends) (hlink : entityKey next.source = entityKey path.last.target)
    (x : Extension py) : ∃ x', follow level path x next = .ok x' := by
  unfold follow
  dsimp only
  split_ifs with hstop hmany hseen
  · exact ⟨_, rfl⟩
  · exact ⟨_, rfl⟩
  · exact ⟨_, rfl⟩
  · obtain ⟨hvisited, hvalid⟩ := not_or.mp hstop
    have hadd := walk_add.mpr ⟨hwalk, hnext, hlink, hvisited, by simpa using hvalid⟩
    have hfive : (path.add next).edges.length ≤ 5 := by
      rw [Path.edges_add, List.length_append, List.length_singleton]
      exact Nat.succ_le_succ hfour
    obtain ⟨derivedEdge, hmake⟩ := (composed_sound hhex hsha hadmitted hadd hfive
      (Nat.le_of_not_lt hmany)).exists_make
    exact ⟨_, bind_eq_ok.mpr ⟨derivedEdge, hmake, rfl⟩⟩

lemma exists_followAll (engine : BoundedReasoningEngine) (level : ℕ) (hwalk : Walk depends path)
    (hfour : path.edges.length ≤ 4) {starting : List (RelationEdge py)}
    (hstarting : ∀ e ∈ starting, e ∈ depends ∧ entityKey e.source = entityKey path.last.target)
    (x : Extension py) : ∃ x', engine.followAll level path x starting = .ok x' := by
  induction starting generalizing x with
  | nil => exact ⟨x, rfl⟩
  | cons next starting ih =>
    rw [followAll]
    split_ifs
    · exact ⟨_, rfl⟩
    · obtain ⟨⟨hnext, hlink⟩, hrest⟩ := List.forall_mem_cons.mp hstarting
      obtain ⟨y, hy⟩ := exists_follow hhex hsha hadmitted level hwalk hfour hnext hlink
        { x with comparisons := x.comparisons + 1 }
      by_cases hexceeded : y.budgetExceeded = true
      · exact ⟨y, bind_eq_ok.mpr ⟨y, hy, if_pos hexceeded⟩⟩
      · obtain ⟨x', hx'⟩ := ih hrest y
        exact ⟨x', bind_eq_ok.mpr ⟨y, hy, (if_neg hexceeded).trans hx'⟩⟩

lemma exists_extendAll (engine : BoundedReasoningEngine) (level : ℕ) {paths : List (Path py)}
    (hpaths : ∀ path ∈ paths, Walk depends path ∧ path.edges.length ≤ 4) (x : Extension py) :
    ∃ x', engine.extendAll depends level x paths = .ok x' := by
  induction paths generalizing x with
  | nil => exact ⟨x, rfl⟩
  | cons path paths ih =>
    obtain ⟨⟨hwalk, hfour⟩, hrest⟩ := List.forall_mem_cons.mp hpaths
    have hstarting : ∀ e ∈ depends.filter fun e => entityKey e.source = entityKey path.last.target,
        e ∈ depends ∧ entityKey e.source = entityKey path.last.target := by simp
    obtain ⟨y, hy⟩ := exists_followAll hhex hsha hadmitted engine level hwalk hfour hstarting x
    by_cases hexceeded : y.budgetExceeded = true
    · exact ⟨y, bind_eq_ok.mpr ⟨y, hy, if_pos hexceeded⟩⟩
    · obtain ⟨x', hx'⟩ := ih hrest y
      exact ⟨x', bind_eq_ok.mpr ⟨y, hy, (if_neg hexceeded).trans hx'⟩⟩

lemma exists_deepen (engine : BoundedReasoningEngine) {n k : ℕ} {paths : List (Path py)}
    (hn : 0 < n) (hfive : n + k ≤ 5) (hlevel : Level depends n paths) (d : Derivation py)
    (level : ℕ) : ∃ d', engine.deepen depends d level paths k = .ok d' := by
  induction k generalizing n paths d level with
  | zero => exact ⟨d, rfl⟩
  | succ k ih =>
    have hpaths : ∀ path ∈ paths, Walk depends path ∧ path.edges.length ≤ 4 := by
      intro path hpath
      obtain ⟨hwalk, hlength⟩ := (hlevel path).mp hpath
      exact ⟨hwalk, by omega⟩
    obtain ⟨x, hx⟩ := exists_extendAll hhex hsha hadmitted engine level hpaths { d with }
    by_cases hstop : x.budgetExceeded = true ∨ x.nextFrontier = []
    · exact ⟨_, bind_eq_ok.mpr ⟨x, hx, if_pos hstop⟩⟩
    · obtain ⟨hexceeded, -⟩ := not_or.mp hstop
      obtain ⟨-, hfrontier⟩ := (Found.start d).extendAll (x := { d with }) hx
        (by simpa using hexceeded)
      have hnext := hlevel.succ hn
      rw [← List.nil_append (paths.flatMap _), ← hfrontier] at hnext
      obtain ⟨d', hd'⟩ := ih (Nat.succ_pos n) (by omega) hnext x.toDerivation (level + 1)
      exact ⟨d', bind_eq_ok.mpr ⟨x, hx, (if_neg hstop).trans hd'⟩⟩

end Total

end CyberBrain.Reasoning.BoundedReasoningEngine
