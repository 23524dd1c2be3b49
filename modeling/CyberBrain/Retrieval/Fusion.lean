import CyberBrain.Foundation.DateTime
import CyberBrain.Foundation.DecimalRounding
import CyberBrain.Foundation.Grouped
import CyberBrain.Foundation.Scoring

/-!
# Fusion of rankings

`ReciprocalRankFusion` gives every hit the sum of what its ranks and its fields contribute. The
parts of a hit are collected from all its candidates, and what a filter excludes contributes
nothing.
-/

namespace CyberBrain.Retrieval

open Scoring

/-! ### Signals -/

/-- `RetrievalHit`, with what fusing reads. -/
structure RetrievalHit where
  id : String
  project : Option String := none
  topic : Option String := none
  entityName : Option String := none
  status : Option String := none
  eventTime : Option Instant := none

/-- The scope that a query asks for. -/
structure WantedScope where
  project : Option String := none
  topic : Option String := none
  entityName : Option String := none
  status : Option String := none
  notAfter : Option Instant := none

/-- `ScopeTemporalSignals`. -/
structure ScopeTemporalSignals where
  projectBonus : Double := .literal (1 / 100)
  topicBonus : Double := .literal (5 / 1000)
  entityBonus : Double := .literal (5 / 1000)
  activeBonus : Double := .literal (3 / 1000)

/-- `wanted is not None and value != wanted`. -/
def mismatch (wanted value : Option String) : Bool := wanted.any fun w => value ≠ some w

/-- `not_after is not None and event_time is not None and event_time > not_after`. -/
def isFuture (notAfter eventTime : Option Instant) : Bool :=
  notAfter.any fun limit => eventTime.any fun time => limit.micros < time.micros

/-- `contributions`. -/
def ScopeTemporalSignals.contributions (signals : ScopeTemporalSignals) (wanted : WantedScope)
    (hit : RetrievalHit) : Bool × List (String × Double) :=
  if mismatch wanted.project hit.project then (false, [("project_mismatch", .literal (-1))])
  else if mismatch wanted.topic hit.topic then (false, [("topic_mismatch", .literal (-1))])
  else if mismatch wanted.entityName hit.entityName then
    (false, [("entity_mismatch", .literal (-1))])
  else if mismatch wanted.status hit.status then (false, [("status_mismatch", .literal (-1))])
  else if isFuture wanted.notAfter hit.eventTime then
    (false, [("future_ineligible", .literal (-1))])
  else
    (true, (if wanted.project.isSome then [("project_match", signals.projectBonus)] else []) ++
      (if wanted.topic.isSome then [("topic_match", signals.topicBonus)] else []) ++
      (if wanted.entityName.isSome then [("entity_match", signals.entityBonus)] else []) ++
      (if hit.status = some "active" then [("active_status", signals.activeBonus)] else []))

/-- What a query lets through. -/
structure WantedScope.Admits (wanted : WantedScope) (hit : RetrievalHit) : Prop where
  project : ∀ w ∈ wanted.project, hit.project = some w
  topic : ∀ w ∈ wanted.topic, hit.topic = some w
  entityName : ∀ w ∈ wanted.entityName, hit.entityName = some w
  status : ∀ w ∈ wanted.status, hit.status = some w
  time : ∀ limit ∈ wanted.notAfter, ∀ time ∈ hit.eventTime, time ≤ limit

lemma mismatch_eq_false {wanted value : Option String} :
    mismatch wanted value = false ↔ ∀ w ∈ wanted, value = some w := by
  simp [mismatch, Option.any_eq_false]

lemma isFuture_eq_false {notAfter eventTime : Option Instant} :
    isFuture notAfter eventTime = false ↔ ∀ limit ∈ notAfter, ∀ time ∈ eventTime, time ≤ limit := by
  simp [isFuture, Option.any_eq_false]
  rfl

lemma admits_of_contributions {signals : ScopeTemporalSignals} {wanted : WantedScope}
    {hit : RetrievalHit} (h : (signals.contributions wanted hit).1 = true) :
    wanted.Admits hit := by
  have hpassed : ∀ {c : Bool} {x y : Bool × List (String × Double)}, x.1 = false →
      (if c then x else y).1 = true → c = false ∧ y.1 = true := by
    intro c x y hx hcond
    cases c with
    | true  => exact absurd (hx.symm.trans hcond) (by decide)
    | false => exact ⟨rfl, hcond⟩
  obtain ⟨hproject, h⟩ := hpassed rfl h
  obtain ⟨htopic, h⟩ := hpassed rfl h
  obtain ⟨hentity, h⟩ := hpassed rfl h
  obtain ⟨hstatus, h⟩ := hpassed rfl h
  obtain ⟨htime, -⟩ := hpassed rfl h
  exact ⟨mismatch_eq_false.mp hproject, mismatch_eq_false.mp htopic, mismatch_eq_false.mp hentity,
    mismatch_eq_false.mp hstatus, isFuture_eq_false.mp htime⟩

/-! ### Parts -/

/-- `current[key] = max(current.get(key, 0.0), value)`. -/
def raisePart (parts : List (String × Double)) (part : String × Double) :
    List (String × Double) :=
  Grouped.update (fun old (new : String × Double) => old.max new.2) .zero parts part.1 part

/-- `FusionCandidate`. -/
structure FusionCandidate where
  hit : RetrievalHit
  semanticRank : Option ℕ := none
  lexicalRank : Option ℕ := none

/-- `ReciprocalRankFusion`, with the parameters that its constructor admits. -/
structure ReciprocalRankFusion where
  rankConstant : ℕ
  semanticWeight : Double
  lexicalWeight : Double
  signals : ScopeTemporalSignals
  rankConstant_pos : 1 ≤ rankConstant
  weights : ¬ semanticWeight < .zero ∧ ¬ lexicalWeight < .zero

/-- `RankedHit`. -/
structure RankedHit where
  id : String
  score : Double
  contributions : List (String × Double)

namespace ReciprocalRankFusion

lemma default_weights : ¬ Double.one < Double.zero ∧ ¬ Double.one < Double.zero := by decide +kernel

/-- `ReciprocalRankFusion()`. -/
def standard : ReciprocalRankFusion where
  rankConstant := 60
  semanticWeight := .one
  lexicalWeight := .one
  signals := {}
  rankConstant_pos := by decide
  weights := default_weights

variable (fusion : ReciprocalRankFusion) (fsum : List Double → Double) (wanted : WantedScope)

/-- `weight / (rank_constant + rank)`. -/
def channel (weight : Double) (rank : ℕ) : Double :=
  weight.quotient (.rounded false (fusion.rankConstant + rank : ℕ))

/-- What a candidate contributes to its hit. -/
def parts (candidate : FusionCandidate) : List (String × Double) :=
  (candidate.semanticRank.toList.map fun rank =>
      ("semantic_rrf", fusion.channel fusion.semanticWeight rank)) ++
    (candidate.lexicalRank.toList.map fun rank =>
      ("lexical_rrf", fusion.channel fusion.lexicalWeight rank)) ++
    (fusion.signals.contributions wanted candidate.hit).2

/-- The id under which a candidate is merged, if its hit is allowed. -/
def mergeKey (candidate : FusionCandidate) : Option String :=
  if (fusion.signals.contributions wanted candidate.hit).1 then some candidate.hit.id else none

/-- The body of the loop over candidates, for one hit. -/
def merge (current : List (String × Double)) (candidate : FusionCandidate) :
    List (String × Double) :=
  (fusion.parts wanted candidate).foldl raisePart current

/-- `fuse`, where `fsum` is `sum` on floats. -/
def fuse (candidates : List FusionCandidate) : List RankedHit :=
  let merged := Grouped.collect (fusion.mergeKey wanted) (fusion.merge wanted) [] candidates
  sortBy (scoreKey RankedHit.id RankedHit.score) (merged.map fun e =>
    ⟨e.1, (fsum (e.2.map Prod.snd)).roundDecimal 8, e.2⟩)

/-! ### Fused hits -/

variable {fusion fsum wanted} {candidates candidates' : List FusionCandidate}

/-- The parts of a hit, from all its candidates. -/
def hitParts (fusion : ReciprocalRankFusion) (wanted : WantedScope)
    (candidates : List FusionCandidate) (id : String) : List (String × Double) :=
  (Grouped.group (fusion.mergeKey wanted) candidates id).foldl (fusion.merge wanted) []

/-- The hits before they are sorted. -/
lemma fuse_eq (candidates : List FusionCandidate) : fusion.fuse fsum wanted candidates =
    sortBy (scoreKey RankedHit.id RankedHit.score)
      ((Grouped.keys (fusion.mergeKey wanted) candidates).map fun id =>
        ⟨id, (fsum ((fusion.hitParts wanted candidates id).map Prod.snd)).roundDecimal 8,
          fusion.hitParts wanted candidates id⟩) := by
  rw [fuse, Grouped.collect_eq, List.map_map]
  rfl

/-- There is one hit for each id, and its score is made of the parts of its candidates. -/
theorem fuse_hits (candidates : List FusionCandidate) :
    ((fusion.fuse fsum wanted candidates).map (·.id)).Nodup ∧
      ∀ hit, hit ∈ fusion.fuse fsum wanted candidates ↔
        (∃ c ∈ candidates, fusion.mergeKey wanted c = some hit.id) ∧
        hit.contributions = fusion.hitParts wanted candidates hit.id ∧
        hit.score = (fsum (hit.contributions.map Prod.snd)).roundDecimal 8 := by
  rw [fuse_eq]
  constructor
  · refine ((sortBy_perm _).map _).nodup_iff.mpr ?_
    rw [List.map_map]
    simpa [Function.comp_def] using Grouped.nodup_keys (fusion.mergeKey wanted) candidates
  · intro hit
    rw [mem_sortBy, List.mem_map]
    constructor
    · rintro ⟨id, hid, rfl⟩
      exact ⟨Grouped.mem_keys.mp hid, rfl, rfl⟩
    · rintro ⟨hid, hparts, hscore⟩
      refine ⟨hit.id, Grouped.mem_keys.mpr hid, ?_⟩
      cases hit
      simp_all

lemma mergeKey_eq_some {c : FusionCandidate} {id : String} (h : fusion.mergeKey wanted c = some id) :
    c.hit.id = id ∧ wanted.Admits c.hit := by
  rw [mergeKey] at h
  split_ifs at h with hallowed
  exact ⟨Option.some.inj h, admits_of_contributions hallowed⟩

/-- Candidates of different hits are fused alike in any order. -/
theorem fuse_congr (hperm : candidates.Perm candidates')
    (hids : (candidates.map (·.hit.id)).Nodup) :
    fusion.fuse fsum wanted candidates = fusion.fuse fsum wanted candidates' := by
  have hparts (id : String) : fusion.hitParts wanted candidates id =
      fusion.hitParts wanted candidates' id := by
    have hgroup : (Grouped.group (fusion.mergeKey wanted) candidates id).Perm
        (Grouped.group (fusion.mergeKey wanted) candidates' id) := hperm.filter _
    have hlength : (Grouped.group (fusion.mergeKey wanted) candidates id).length ≤ 1 := by
      have hnodup : ((Grouped.group (fusion.mergeKey wanted) candidates id).map (·.hit.id)).Nodup :=
        hids.sublist (List.filter_sublist.map _)
      cases hl : Grouped.group (fusion.mergeKey wanted) candidates id with
      | nil => simp
      | cons c rest =>
        cases rest with
        | nil => simp
        | cons c' rest =>
          have hmem : ∀ x ∈ c :: c' :: rest, x.hit.id = id := fun x hx =>
            (mergeKey_eq_some (Grouped.mem_group.mp (hl ▸ hx)).2).1
          rw [hl] at hnodup
          simp [hmem c (by simp), hmem c' (by simp)] at hnodup
    have heq : Grouped.group (fusion.mergeKey wanted) candidates id =
        Grouped.group (fusion.mergeKey wanted) candidates' id := by
      cases hl : Grouped.group (fusion.mergeKey wanted) candidates id with
      | nil => exact (List.nil_perm.mp (hl ▸ hgroup)).symm
      | cons c rest =>
        cases rest with
        | nil => exact List.singleton_perm.mp (hl ▸ hgroup)
        | cons c' rest =>
          rw [hl] at hlength
          simp at hlength
    rw [hitParts, hitParts, heq]
  rw [fuse_eq, fuse_eq]
  simp only [hparts]
  refine sortBy_congr ((Grouped.keys_perm _ hperm).map _) (nodup_scoreKey ?_)
  rw [List.map_map]
  simpa [Function.comp_def] using Grouped.nodup_keys (fusion.mergeKey wanted) candidates

end ReciprocalRankFusion

end CyberBrain.Retrieval
