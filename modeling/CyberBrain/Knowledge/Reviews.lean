import CyberBrain.Knowledge.Histories

/-!
# Reviewed relations

A caller without review authority can neither add nor drop a reviewed relation. What such a call can
do is to complete an evolution that another caller had staged, with the relations of that version.
-/

namespace CyberBrain.Knowledge

open Program Python Relations Schemas Tenancy

variable {py : Runtime}

/-- The accepted and the rejected edges of a bundle. -/
def reviewedEdges (b : RelationBundle py) : Set (RelationEdge py) :=
  {e | e ∈ b.edges ∧ (e.status = .accepted ∨ e.status = .rejected)}

/-- The active records of an entity. -/
def heads (s : Collection py) (j : Identity) : Set (KnowledgeRecord py) :=
  {r | r ∈ s.rows ∧ r.status = .active ∧ identityOf r = j}

/-- The reviewed edges that some records carry. -/
def reviewedBy (Q : Set (KnowledgeRecord py)) : Set (RelationEdge py) :=
  {e | ∃ r ∈ Q, e ∈ reviewedEdges r.bundle}

lemma mem_reviewedEdges {b : RelationBundle py} {e : RelationEdge py} :
    e ∈ reviewedEdges b ↔ e ∈ b.edges ∧ e.status ≠ .proposed := by
  refine and_congr_right fun _ => ?_
  cases e.status <;> decide

lemma reviewedEdges_eq_empty {b : RelationBundle py} (h : ∀ e ∈ b.edges, e.status = .proposed) :
    reviewedEdges b = ∅ :=
  Set.eq_empty_of_forall_notMem fun e he => (mem_reviewedEdges.mp he).2 (h e (mem_reviewedEdges.mp he).1)

section Unreviewed

variable {service : Service} {call : StoreCall py} {p : Prepared py} {s t u : Collection py}
  {q r : KnowledgeRecord py}

/-- What a caller without review authority passes is only proposed. -/
lemma prepare_proposed (hreview : ¬ CanReview call.bound) (hp : prepare service call = .ok p) :
    ∀ ref bundle, p.relations = some (ref, bundle) → reviewedEdges bundle = ∅ := by
  obtain ⟨values, -, h⟩ := bind_eq_ok.mp hp
  obtain ⟨normalized, -, h⟩ := bind_eq_ok.mp h
  obtain ⟨_, -, h⟩ := bind_eq_ok.mp h
  obtain ⟨_, -, h⟩ := bind_eq_ok.mp h
  obtain ⟨relations, hrelations, h⟩ := bind_eq_ok.mp h
  obtain ⟨digest, -, h⟩ := bind_eq_ok.mp h
  cases h
  rintro ref bundle rfl
  cases hraw : call.args.extensions.relations with
  | none =>
    rw [hraw] at hrelations
    cases hrelations
  | some raw =>
    rw [hraw] at hrelations
    obtain ⟨_, -, h⟩ := bind_eq_ok.mp hrelations
    obtain ⟨source, -, h⟩ := bind_eq_ok.mp h
    obtain ⟨admitted, hadmitted, h⟩ := bind_eq_ok.mp h
    cases h
    exact reviewedEdges_eq_empty (admitRelations_proposed hreview hadmitted)

/-- The relations of a record that `store` writes are those that the caller passed. -/
lemma Writes.bundle {previous : Option (KnowledgeRecord py)} (h : Writes service call p previous r)
    (hp : prepare service call = .ok p) :
    r.bundle = ((p.relations.map (·.2)).getD (.empty py)) := by
  obtain ⟨base, confidence, now, hbase, rfl⟩ := h
  have hprepared : p.extensions.relations = p.relations.map (·.2) := by
    obtain ⟨values, -, h⟩ := bind_eq_ok.mp hp
    obtain ⟨normalized, -, h⟩ := bind_eq_ok.mp h
    obtain ⟨_, -, h⟩ := bind_eq_ok.mp h
    obtain ⟨_, -, h⟩ := bind_eq_ok.mp h
    obtain ⟨relations, -, h⟩ := bind_eq_ok.mp h
    obtain ⟨digest, -, h⟩ := bind_eq_ok.mp h
    cases h
    rfl
  have hkept : base.relations = p.extensions.relations := by
    unfold baseExtensions at hbase
    split_ifs at hbase
    · obtain ⟨index, -, h⟩ := bind_eq_ok.mp hbase
      cases h
      rfl
    · cases hbase
      rfl
  rw [← hprepared, ← hkept]
  cases previous <;> rfl

lemma Writes.not_reviewed {previous : Option (KnowledgeRecord py)} (h : Writes service call p previous r)
    (hp : prepare service call = .ok p) (hreview : ¬ CanReview call.bound) :
    reviewedEdges r.bundle = ∅ := by
  rw [h.bundle hp]
  cases hrelations : p.relations with
  | none => exact reviewedEdges_eq_empty (by simp [RelationBundle.empty])
  | some pair => exact prepare_proposed hreview hp pair.1 pair.2 hrelations

/-- The texts that are hashed to compare the relations of a call with those that are stored. -/
def comparedTexts (p : Prepared py) (s : Collection py) : Set String :=
  {text | (∃ r ∈ s.rows, text = r.bundle.canonical) ∨
    ∃ pair ∈ p.relations, text = pair.2.canonical}

/-- A version with reviewed relations is not superseded without review authority. -/
lemma Decided.not_reviewed (h : Decided call p (some q)) (hp : prepare service call = .ok p)
    (hreview : ¬ CanReview call.bound) {texts : Set String} (hsha : Set.InjOn py.sha256 texts)
    (hq : q.bundle.canonical ∈ texts) (hrelations : ∀ pair ∈ p.relations, pair.2.canonical ∈ texts) :
    reviewedEdges q.bundle = ∅ := by
  by_contra hne
  obtain ⟨e, he⟩ := Set.nonempty_iff_ne_empty.mpr hne
  have hedge : ∃ edge ∈ (previousRelations (some q)).edges, edge.status ≠ .proposed :=
    ⟨e, mem_reviewedEdges.mp he⟩
  have hunchanged : relationsChanged call p (some q) = false := by
    by_contra hchanged
    have hreviewed := h.reviewed
    rw [checkReview, if_pos ⟨by simpa using hchanged, hedge⟩, requireReviewAuthority,
      require_eq_ok] at hreviewed
    exact hreview hreviewed
  cases hp' : p.relations with
  | none =>
    -- without relations, only an exact retry leaves the assertions in place
    have hedges : (previousRelations (some q)).edges.isEmpty = false := by
      obtain ⟨edge, hedge, -⟩ := hedge
      exact List.isEmpty_eq_false_iff_exists_mem.mpr ⟨edge, hedge⟩
    simp only [relationsChanged, hp', hedges, Bool.not_false, Bool.and_true, Bool.or_eq_false_iff,
      Bool.not_eq_false'] at hunchanged
    exact h.changes ⟨hunchanged.1, by simp [relationsChanged, hp', hedges, hunchanged],
      hunchanged.2⟩
  | some pair =>
    have hdigest : pair.2.digest = q.bundle.digest := by
      simp only [relationsChanged, hp', previousRelations, Option.map_some, Option.getD_some]
        at hunchanged
      exact not_not.mp (of_decide_eq_false hunchanged)
    have hbundle := RelationBundle.eq_of_digest_eq hsha (hrelations pair hp') hq hdigest
    rw [← hbundle, prepare_proposed hreview hp pair.1 pair.2 hp'] at he
    exact he

/-- What is left of the relations of others when one record takes another's place: neither of the
two has reviewed ones. -/
lemma reviewedBy_eq {Q Q' : Set (KnowledgeRecord py)}
    (h : ∀ r, reviewedEdges r.bundle ≠ ∅ → (r ∈ Q ↔ r ∈ Q')) : reviewedBy Q = reviewedBy Q' := by
  ext e
  refine exists_congr fun r => and_congr_left fun he => h r ?_
  exact Set.nonempty_iff_ne_empty.mp ⟨e, he⟩

/-- The writes of a caller without review authority leave the reviewed relations as they are. -/
lemma Stored.reviewedBy_heads {k : Knows} {previous : Option (KnowledgeRecord py)}
    (hmay : MayWrite k call p t previous) (hstored : Stored service call p t previous u)
    (hp : prepare service call = .ok p) (hreview : ¬ CanReview call.bound)
    {texts : Set String} (hsha : Set.InjOn py.sha256 texts)
    (hstoredTexts : ∀ q ∈ t.rows, q.status = .active → q.bundle.canonical ∈ texts)
    (hrelations : ∀ pair ∈ p.relations, pair.2.canonical ∈ texts) (j : Identity) :
    reviewedBy (heads u j) = reviewedBy (heads t j) := by
  refine reviewedBy_eq fun q hreviewed => ?_
  cases hstored with
  | unchanged => rfl
  | first r hr =>
    have hne : q ≠ r := by
      rintro rfl
      exact hreviewed (hr.not_reviewed hp hreview)
    exact and_congr_left fun _ =>
      (Table.mem_upsert_of_fresh (hr.id ▸ hmay.fresh)).trans (or_iff_right hne)
  | next q' r hr hdecided u hrecovers =>
    obtain ⟨hq', hactive, -⟩ := hmay.previous q' rfl
    have hmem : ∀ q, q ∈ (t.upsert r).rows ↔ q = r ∨ q ∈ t.rows := fun q =>
      Table.mem_upsert_of_fresh (hr.id ▸ hmay.fresh)
    obtain ⟨p₀, hp₀, hstaged, p₁, hid₁, hsuperseded, -, now, hrows⟩ :=
      hrecovers.mem (hmay.chain.change (hmay.next hr)) ((hmem r).mpr (.inl rfl))
    have hid : p₀.id = q'.id := Option.some.inj (hstaged.supersedes.symm.trans hr.staged.supersedes)
    have hnew := hr.not_reviewed hp hreview
    have hold : reviewedEdges q'.bundle = ∅ := hdecided.not_reviewed hp hreview hsha
      (hstoredTexts q' hq' hactive) hrelations
    constructor
    · rintro ⟨hq, hqactive, hj⟩
      rcases (hrows q).mp hq with rfl | rfl | ⟨hq, hqr, -⟩
      · exact absurd hnew hreviewed
      · exact absurd (hqactive.symm.trans hsuperseded) (by decide)
      · exact ⟨((hmem q).mp hq).resolve_left fun heq => hqr (congrArg _ heq), hqactive, hj⟩
    · rintro ⟨hq, hqactive, hj⟩
      refine ⟨(hrows q).mpr (.inr (.inr ⟨(hmem q).mpr (.inr hq), ?_, fun hqid => ?_⟩)), hqactive, hj⟩
      · rw [hr.id]
        exact Table.find?_eq_none.mp hmay.fresh q hq
      · rw [Table.eq_of_key_eq hq hq' (hqid.trans hid)] at hreviewed
        exact hreviewed hold

/-- A recovered version takes the place of its predecessor among the heads of its entity. -/
lemma Recovers.heads (h : Chain s) (hr : r ∈ s.rows) (hpending : Pending r)
    (hrecovers : Recovers s r t) {j : Identity} :
    reviewedBy (heads t j) = reviewedBy (heads s j) ∧ j ≠ identityOf r ∨ j = identityOf r ∧
      reviewedBy (heads t j) =
        reviewedBy (insert r {q ∈ heads s j | r.supersedesId ≠ some q.id}) := by
  obtain ⟨p₀, hp₀, hstaged, p₁, hid₁, hsuperseded, -, now, hrows⟩ := hrecovers.mem h hr
  have hsame : ∀ q ∈ s.rows, q.id = p₀.id → identityOf q = identityOf r := by
    intro q hq hid
    obtain ⟨p', hp', hid', -, hidentity, -⟩ := h.previous r hr p₀.id hstaged.supersedes
    rwa [Table.eq_of_key_eq hq hp' (hid.trans hid'.symm)]
  have hnothead : ∀ q, q.status = .active → q ∈ s.rows → q.id ≠ r.id := by
    intro q hactive hq hid
    rw [Table.eq_of_key_eq hq hr hid] at hactive
    exact hpending.not_committed (.inl hactive)
  by_cases hj : j = identityOf r
  · refine .inr ⟨hj, ?_⟩
    ext e
    constructor
    · rintro ⟨q, ⟨hq, hactive, hqj⟩, he⟩
      rcases (hrows q).mp hq with rfl | rfl | ⟨hqs, -, hne⟩
      · exact ⟨r, Set.mem_insert _ _, he⟩
      · exact absurd (hactive.symm.trans hsuperseded) (by decide)
      · refine ⟨q, .inr ⟨⟨hqs, hactive, hqj⟩, fun hid => hne ?_⟩, he⟩
        exact Option.some.inj (hid.symm.trans hstaged.supersedes)
    · rintro ⟨q, rfl | ⟨⟨hqs, hactive, hqj⟩, hne⟩, he⟩
      · exact ⟨_, ⟨(hrows _).mpr (.inl rfl), rfl, hj.symm⟩, he⟩
      · refine ⟨q, ⟨(hrows q).mpr (.inr (.inr ⟨hqs, hnothead q hactive hqs, fun hid => hne ?_⟩)),
          hactive, hqj⟩, he⟩
        rw [hstaged.supersedes, hid]
  · refine .inl ⟨reviewedBy_eq fun q _ => ⟨?_, ?_⟩, hj⟩
    · rintro ⟨hq, hactive, hqj⟩
      rcases (hrows q).mp hq with rfl | rfl | ⟨hqs, -, -⟩
      · exact absurd hqj.symm hj
      · exact absurd (hactive.symm.trans hsuperseded) (by decide)
      · exact ⟨hqs, hactive, hqj⟩
    · rintro ⟨hqs, hactive, hqj⟩
      refine ⟨(hrows q).mpr (.inr (.inr ⟨hqs, hnothead q hactive hqs, fun hid => hj ?_⟩)), hactive, hqj⟩
      rw [← hqj]
      exact hsame q hqs hid

end Unreviewed

/-- A runtime for ASCII texts that digests a text by its start. -/
def startDigests : Runtime :=
  { Runtime.ascii with
    sha256 := fun s =>
      String.ofList ((s.toByteArray.data.toList.take 20).map fun b => Char.ofNat b.toNat) }

/-- An owner, who may review. -/
def reviewer : CallerAuthority startDigests where
  deploymentMode := .singleOwner
  grant :=
    { scope := ⟨fun _ => ∅, fun _ _ h => absurd h (by simp)⟩
      operations := {.adminReview, .read, .write}
      operations_nonempty := ⟨.read, by decide⟩ }

/-- A call about canonical Knowledge. -/
def knowledgeCall (case : ℕ) (content : String) (id applied : ℕ) : StoreCall startDigests :=
  let call := sampleCall startDigests case content id applied
  { call with args := { call.args with recordClass := .knowledge } }

/-- The accepted assertion that the first case supports the second. -/
def acceptedEdge : EdgeInput where
  kind := .supports
  source := { domain := "d", topic := "t", entityType := "e", entityName := "n"
              context := [("case", .int 0)] }
  target := { domain := "d", topic := "t", entityType := "e", entityName := "n"
              context := [("case", .int 1)] }
  targetRecordId := .ofNat 1
  evidence := [⟨.knowledge, .ofNat 1⟩]
  status := .accepted
  validFrom := .ofMicros 0
  reviewNote := some "checked"

/-- One version of either case. -/
def twoCases : List (Call startDigests) :=
  [.store sampleService (knowledgeCall 1 "a" 1 9), .store sampleService (knowledgeCall 0 "a" 2 9)]

/-- The reviewer's next version of the first case, which was only staged. -/
def reviewedCall : StoreCall startDigests :=
  let call := knowledgeCall 0 "b" 3 1
  { call with
    bound := some reviewer
    args := { call.args with extensions := { relations := some (.edges [acceptedEdge]) } }
    seen := runAll (Table.empty _) twoCases }

/-- The run after which a reviewed version is staged. -/
def stagedReview : List (Call startDigests) := twoCases ++ [.store sampleService reviewedCall]

/-- The same content again, from a caller without authority. -/
def laterCall : StoreCall startDigests := knowledgeCall 0 "b" 4 9

/-- An active record of the entity carries a reviewed edge. -/
def carriesReviewed (s : Collection py) (j : Identity) : Bool :=
  s.rows.any fun r => r.status = .active && identityOf r = j &&
    r.bundle.edges.any fun e => e.status ≠ .proposed

lemma carriesReviewed_iff {s : Collection py} {j : Identity} :
    carriesReviewed s j = true ↔ reviewedBy (heads s j) ≠ ∅ := by
  rw [← Set.nonempty_iff_ne_empty]
  simp only [carriesReviewed, List.any_eq_true, Bool.and_eq_true, decide_eq_true_eq, and_assoc]
  constructor
  · rintro ⟨r, hr, hactive, hj, e, he⟩
    exact ⟨e, r, ⟨hr, hactive, hj⟩, mem_reviewedEdges.mpr he⟩
  · rintro ⟨e, r, ⟨hr, hactive, hj⟩, he⟩
    exact ⟨r, hr, hactive, hj, e, mem_reviewedEdges.mp he⟩

/-- The call returns and brings the first reviewed edge to the active records of its entity. -/
def addsReviewed (service : Service) (call : StoreCall py) (s : Collection py) : Bool :=
  match prepare service call, store service call { points := s } with
  | .ok p, (.ok _, u) => !carriesReviewed s p.subject.identity &&
    carriesReviewed u.points p.subject.identity
  | _, _              => false

lemma addsReviewed_eq_true {service : Service} {call : StoreCall py} {s : Collection py}
    (h : addsReviewed service call s = true) : ∃ p result u, prepare service call = .ok p ∧
      store service call { points := s } = (.ok result, u) ∧
      reviewedBy (heads s p.subject.identity) = ∅ ∧
      reviewedBy (heads u.points p.subject.identity) ≠ ∅ := by
  unfold addsReviewed at h
  split at h
  · rename_i p result u hp hrun
    rw [Bool.and_eq_true, Bool.not_eq_true'] at h
    refine ⟨p, result, u, hp, hrun, ?_, carriesReviewed_iff.mp h.2⟩
    by_contra hne
    exact absurd (carriesReviewed_iff.mpr hne) (by simp [h.1])
  · cases h

end CyberBrain.Knowledge
