import CyberBrain.Knowledge.Outcomes
import CyberBrain.Relations.RoundTrip

/-!
# Proposal and review of relations

`RelationReviewService` rewrites a record with other relations, through the evolution of Knowledge.
A proposal adds assertions and keeps all that are there; a review changes the status and the note of
one. The new version is the record as it was read, except for what a version has of its own and for
the fields that `store` does not take.
-/

namespace CyberBrain.Relations

open Program Python Schemas Tenancy
open Knowledge (StoreArgs StoreCall EvolutionOutcome EvolutionResult Service CallState store)

variable {py : Runtime}

/-! ### The source -/

/-- The conditions on the payload of a source. -/
def sourceFilter : Filter :=
  [.field (.matchValue "record_type" (.str "knowledge")),
    .field (.matchValue "record_class" (.str "knowledge")),
    .field (.matchValue "status" (.str "active")),
    .field (.matchValue "ordinary_recall" (.bool true))]

/-- A record passes the conditions of `_source`. -/
def isSource (plan : Option (EnforcementPlan py)) (r : KnowledgeRecord py) : Bool :=
  (sourceFilter ++ scopeConditions plan).accepts r.fields && r.lifecycleState = .active

/-- A source that is in the index agrees with it. -/
def verifyIndexed (source : KnowledgeRecord py) : Except Exc Unit :=
  if source.extensions.relationIndex.isSome then verifyProjection source else .ok ()

/-- `_source`, where `seen` is the Knowledge collection that it reads. -/
def sourceOf (bound : Option (CallerAuthority py)) (seen : Collection py) (sourceId : Uuid) :
    Except Exc (KnowledgeRecord py) := do
  require (∃ caller ∈ bound.toList, .write ∈ caller.grant.operations)
    (.configurationError "relation proposal/review requires canonical write authority")
  let plan ← enforceOperation bound .knowledgeGet fun _ => none
  let source ← orRaise ((seen.find? sourceId).filter (isSource plan))
    (.configurationError "relation source unavailable")
  require (source.schemaVersion = currentSchemaVersion) unavailable
  let _ ← enforceOperation bound .knowledgeWrite source.fields
  verifyIndexed source
  pure source

/-- The fields of the source that `store` takes, with other relations. -/
def rewriteArgs (source : KnowledgeRecord py) (bundle : RelationBundle py) : StoreArgs where
  toEntityLabels := source.toEntityLabels
  toIdentityValues := source.toIdentityValues
  content := source.content
  summary := source.summary
  recordClass := source.recordClass
  identityTrust := source.identityTrust
  ordinaryRecall := source.ordinaryRecall
  retentionDirective := source.retentionDirective
  changeReason := source.changeReason
  importance := source.importance
  verification := source.verification
  confidence := source.confidence.map (·.1)
  provenanceType := source.provenanceType
  source := source.source
  evidenceIds := source.evidenceIds
  origin := source.origin
  dreamRunId := source.dreamRunId
  negativeKnowledge := source.negativeKnowledge
  context := source.context
  extensions :=
    { relations := some (.edges (bundle.edges.map RelationEdge.input))
      relationIndex := none
      evolutionState := source.extensions.evolutionState
      evolutionPreviousId := source.extensions.evolutionPreviousId
      other := source.extensions.other }
  expectedPreviousId := some source.id

/-- `_write`. -/
def writeRelations (service : Service) (call : StoreCall py) (source : KnowledgeRecord py)
    (bundle : RelationBundle py) : Program (CallState py) Exc (EvolutionResult py) :=
  store service { call with args := rewriteArgs source bundle }

/-! ### Proposals -/

/-- `==` of two edges. -/
def edgesEqual (e f : RelationEdge py) : Bool := e.dump.value = f.dump.value

/-- The body of the loop of `propose` over the proposed edges. -/
def addEdge (additions : List (RelationEdge py)) (edge : RelationEdge py) :
    Except Exc (List (RelationEdge py)) :=
  match additions.find? fun e => e.relationId = edge.relationId with
  | none     => .ok (additions ++ [edge])
  | some old =>
    if edgesEqual old edge then
      .ok (additions.map fun e => if e.relationId = edge.relationId then edge else e)
    else .error (.conflictError "proposal cannot replace an existing assertion")

/-- `propose`, where `seen` is the collection in which the source is read. -/
def propose (service : Service) (call : StoreCall py) (seen : Collection py) (sourceId : Uuid)
    (raw : RawRelations) : Program (CallState py) Exc (EvolutionResult py) := do
  let proposed ← ofExcept (RelationBundle.validate py raw)
  ofExcept (require (proposed.edges ≠ [] ∧ ∀ edge ∈ proposed.edges, edge.status = .proposed)
    (.configurationError "proposal must contain only proposed assertions"))
  let source ← ofExcept (sourceOf call.bound seen sourceId)
  let additions ← ofExcept (proposed.edges.foldlM addEdge source.bundle.edges)
  let combined ← ofExcept (RelationBundle.validate py (.edges (additions.map RelationEdge.input)))
  writeRelations service call source combined

/-! ### Reviews -/

/-- An edge as a review passes it in again. -/
def reviewedInput (relationId : String) (status : RelationStatus) (note : String)
    (e : RelationEdge py) : EdgeInput :=
  if e.relationId = relationId then { e.input with status := status, reviewNote := some note }
  else e.input

/-- `review`. -/
def review (service : Service) (call : StoreCall py) (seen : Collection py) (sourceId : Uuid)
    (relationId : String) (status : RelationStatus) (note : String) :
    Program (CallState py) Exc (EvolutionResult py) := do
  ofExcept (requireReviewAuthority call.bound)
  ofExcept (require (status = .accepted ∨ status = .rejected)
    (.valueError "review status must be accepted or rejected"))
  let source ← ofExcept (sourceOf call.bound seen sourceId)
  let edges ← ofExcept (source.bundle.edges.mapM fun e =>
    if e.relationId = relationId then RelationEdge.make py (reviewedInput relationId status note e)
    else .ok e)
  ofExcept (require (∃ e ∈ source.bundle.edges, e.relationId = relationId)
    (.configurationError "relation assertion unavailable"))
  let bundle ← ofExcept (RelationBundle.validate py (.edges (edges.map RelationEdge.input)))
  writeRelations service call source bundle

/-! ### Edges that are passed in again -/

lemma EntityRef.eq_of_make_input {e f : EntityRef py}
    (h : EntityRef.make py e.input.toEntityLabels e.input.context e.input.scope = .ok f) :
    f = e := by
  obtain ⟨hscope, -, -, hlabels, hcontext⟩ := EntityRef.make_eq_ok.mp h
  have hscope' : f.scope = e.scope := Except.ok.inj (hscope.symm.trans (RelationScope.make_self _))
  have hsorted : sortedContext e.context = e.context := by
    have := e.context_canonical
    rw [sortKeys_obj, Json.obj.injEq] at this
    exact this
  have hcontext' : f.context = e.context := hcontext.trans hsorted
  obtain ⟨labels, context, scope, _, _⟩ := e
  obtain ⟨labels', context', scope', _, _⟩ := f
  cases hlabels
  cases hscope'
  cases hcontext'
  rfl

/-- An edge that is passed in with another status and note has them, and is otherwise the same. -/
lemma ValidatesTo.input_eq {e f : RelationEdge py} {status : RelationStatus} {note : Option String}
    (h : ValidatesTo { e.input with status := status, reviewNote := note } f) :
    f.input = { e.input with status := status, reviewNote := note } := by
  have hsource := EntityRef.eq_of_make_input h.source
  have htarget := EntityRef.eq_of_make_input h.target
  have hid : e.relationId = f.relationId := h.relationId _ rfl
  have hevidence : f.evidence = e.evidence := h.evidence.trans (FrozenSet.ofList_sorted _)
  simp only [RelationEdge.input, hsource, htarget, ← hid, h.kind, h.targetRecordId, hevidence,
    h.status, h.validFrom, h.validUntil, h.reviewNote]

lemma EntityRef.input_injective : Function.Injective (@EntityRef.input py) := by
  intro e f h
  obtain ⟨hlabels, hcontext, hscope⟩ := EntityInput.mk.inj h
  obtain ⟨labels, context, ⟨scope, _⟩, _, _⟩ := e
  obtain ⟨labels', context', ⟨scope', _⟩, _, _⟩ := f
  cases hlabels
  cases hcontext
  cases hscope
  rfl

lemma RelationEdge.input_injective : Function.Injective (@RelationEdge.input py) := by
  intro e f h
  obtain ⟨-, hkind, hsource, htarget, hrecord, hevidence, hstatus, hfrom, huntil, hnote⟩ :=
    EdgeInput.mk.inj h
  have hsource := EntityRef.input_injective hsource
  have htarget := EntityRef.input_injective htarget
  have hevidence : e.evidence = f.evidence := by
    rw [← FrozenSet.ofList_sorted e.evidence, hevidence, FrozenSet.ofList_sorted]
  obtain ⟨_, _, _, _, _, _, _, _, _, _, _, _, _⟩ := e
  obtain ⟨_, _, _, _, _, _, _, _, _, _, _, _, _⟩ := f
  simp_all

lemma RelationEdge.eq_of_make_input {e f : RelationEdge py}
    (h : RelationEdge.make py e.input = .ok f) : f = e :=
  input_injective (RelationEdge.make_eq_ok.mp h).input_eq

/-- Edges that are validated again are the same edges. -/
lemma RelationBundle.perm_of_validate_inputs {edges : List (RelationEdge py)}
    {b : RelationBundle py}
    (h : RelationBundle.validate py (.edges (edges.map RelationEdge.input)) = .ok b) :
    b.edges.Perm edges := by
  obtain ⟨-, -, results, hresults, hperm⟩ := RelationBundle.validate_eq_ok.mp h
  have heq : results = edges := by
    have hall := List.forall₂_map_left_iff.mp (mapM_eq_ok_iff_forall₂.mp hresults)
    exact List.forall₂_eq_eq_eq ▸ (hall.imp fun e f hmake => RelationEdge.eq_of_make_input hmake).flip
  exact heq ▸ hperm.symm

lemma RelationBundle.eq_of_validate_inputs {b c : RelationBundle py}
    (h : RelationBundle.validate py (.edges (b.edges.map RelationEdge.input)) = .ok c) : c = b :=
  RelationBundle.eq_of_perm (perm_of_validate_inputs h)

/-! ### Additions -/

/-- An assertion and its replacement by an equal one. -/
def SameEdgeAs (e f : RelationEdge py) : Prop :=
  f.relationId = e.relationId ∧ edgesEqual e f = true

lemma SameEdgeAs.refl (e : RelationEdge py) : SameEdgeAs e e := ⟨rfl, by simp [edgesEqual]⟩

lemma SameEdgeAs.trans {e f g : RelationEdge py} (h : SameEdgeAs e f) (h' : SameEdgeAs f g) :
    SameEdgeAs e g := by
  refine ⟨h'.1.trans h.1, ?_⟩
  have hef : e.dump.value = f.dump.value := of_decide_eq_true h.2
  have hfg : f.dump.value = g.dump.value := of_decide_eq_true h'.2
  exact decide_eq_true (hef.trans hfg)

/-- What edges are added to, and what they become together. -/
structure Adds (before edges after : List (RelationEdge py)) : Prop where
  nodup : (after.map (·.relationId)).Nodup
  kept : ∀ e ∈ before, ∃ f ∈ after, SameEdgeAs e f
  untouched : ∀ e ∈ before, (∀ f ∈ edges, f.relationId ≠ e.relationId) → e ∈ after
  added : ∀ e ∈ edges, e ∈ after
  only : ∀ e ∈ after, e ∈ before ∨ e ∈ edges

lemma Adds.nil {edges : List (RelationEdge py)} (h : (edges.map (·.relationId)).Nodup) :
    Adds edges [] edges where
  nodup := h
  kept e he := ⟨e, he, .refl e⟩
  untouched _ he _ := he
  added _ he := absurd he List.not_mem_nil
  only _ he := .inl he

/-- The step of `propose`. -/
lemma addEdge_adds {before after : List (RelationEdge py)} {edge : RelationEdge py}
    (hbefore : (before.map (·.relationId)).Nodup) (h : addEdge before edge = .ok after) :
    Adds before [edge] after := by
  cases hfind : before.find? fun e => e.relationId = edge.relationId with
  | none =>
    have hnew : ∀ e ∈ before, e.relationId ≠ edge.relationId := by
      simpa using List.find?_eq_none.mp hfind
    obtain rfl : before ++ [edge] = after := by simpa [addEdge, hfind] using h
    refine ⟨?_, fun e he => ⟨e, List.mem_append_left _ he, .refl e⟩,
      fun e he _ => List.mem_append_left _ he, by simp, by simp⟩
    rw [List.map_append, List.nodup_append]
    refine ⟨hbefore, by simp, ?_⟩
    rintro id hid _ hid' rfl
    obtain ⟨e, he, rfl⟩ := List.mem_map.mp hid
    exact hnew e he (by simpa using hid')
  | some old =>
    have hold : old ∈ before := List.mem_of_find?_eq_some hfind
    have hid : old.relationId = edge.relationId := by simpa using List.find?_some hfind
    simp only [addEdge, hfind] at h
    split_ifs at h with hequal
    cases h
    have hids : (before.map fun e => if e.relationId = edge.relationId then edge else e).map
        (·.relationId) = before.map (·.relationId) := by
      rw [List.map_map]
      refine List.map_congr_left fun e _ => ?_
      simp only [Function.comp_apply]
      split_ifs with heq
      · exact heq.symm
      · rfl
    refine ⟨hids ▸ hbefore, fun e he => ?_, fun e he hother => ?_, fun e he => ?_, fun e he => ?_⟩
    · by_cases heq : e.relationId = edge.relationId
      · obtain rfl : e = old := List.inj_on_of_nodup_map hbefore he hold (heq.trans hid.symm)
        exact ⟨edge, List.mem_map.mpr ⟨e, he, if_pos heq⟩, heq.symm, hequal⟩
      · exact ⟨e, List.mem_map.mpr ⟨e, he, if_neg heq⟩, .refl e⟩
    · exact List.mem_map.mpr ⟨e, he, if_neg fun heq => hother edge (by simp) heq.symm⟩
    · obtain rfl := List.mem_singleton.mp he
      exact List.mem_map.mpr ⟨old, hold, if_pos hid⟩
    · obtain ⟨f, hf, rfl⟩ := List.mem_map.mp he
      split_ifs
      · exact .inr (by simp)
      · exact .inl hf

/-- The loop of `propose`, over edges with different ids. -/
lemma addEdges_adds {edges before after : List (RelationEdge py)}
    (hedges : (edges.map (·.relationId)).Nodup) (hbefore : (before.map (·.relationId)).Nodup)
    (h : edges.foldlM addEdge before = .ok after) : Adds before edges after := by
  induction edges generalizing before with
  | nil =>
    cases h
    exact .nil hbefore
  | cons edge edges ih =>
    rw [List.foldlM_cons] at h
    obtain ⟨between, hstep, hrest⟩ := CyberBrain.bind_eq_ok.mp h
    obtain ⟨hfirst, hedges⟩ := List.nodup_cons.mp hedges
    have hadds := addEdge_adds hbefore hstep
    have hall := ih hedges hadds.nodup hrest
    have hother : ∀ f ∈ edges, f.relationId ≠ edge.relationId := by
      rintro f hf heq
      exact hfirst (List.mem_map.mpr ⟨f, hf, heq⟩)
    refine ⟨hall.nodup, fun e he => ?_, fun e he hne => ?_, fun e he => ?_, fun e he => ?_⟩
    · obtain ⟨f, hf, hsame⟩ := hadds.kept e he
      obtain ⟨g, hg, hsame'⟩ := hall.kept f hf
      exact ⟨g, hg, hsame.trans hsame'⟩
    · obtain ⟨hne, hrest⟩ := List.forall_mem_cons.mp hne
      exact hall.untouched e (hadds.untouched e he (by simpa using hne)) hrest
    · rcases List.mem_cons.mp he with rfl | he
      · exact hall.untouched e (hadds.added e (by simp)) hother
      · exact hall.added e he
    · rcases hall.only e he with he | he
      · rcases hadds.only e he with he | he
        · exact .inl he
        · exact .inr (List.mem_cons.mpr (.inl (List.mem_singleton.mp he)))
      · exact .inr (List.mem_cons_of_mem _ he)

/-! ### Rewriting -/

section Rewriting

variable {service : Service} {call : StoreCall py} {source : KnowledgeRecord py}
  {bundle : RelationBundle py} {result : EvolutionResult py} {s t : CallState py}

/-- The version after `previous` when `source` is rewritten with other relations. Of the fields that
`store` does not take, the new version has the defaults. -/
def rewritten (service : Service) (call : StoreCall py) (source previous : KnowledgeRecord py)
    (bundle : RelationBundle py) (content digest : String) (index : RelationIndex) (now : Instant) :
    KnowledgeRecord py :=
  { source with
    toIdentityValues := previous.toIdentityValues
    id := call.newId
    schemaVersion := currentSchemaVersion
    content
    tags := []
    keywords := []
    version := previous.version + 1
    status := .active
    supersedesId := some source.id
    supersededById := none
    contentHash := digest
    embeddingVersion := some service.embeddingVersion
    lifecycleState := .active
    retentionScore := .one
    accessCount := 0
    lastAccessedAt := none
    lifecycleUpdatedAt := none
    lifecycleReasonCodes := []
    extensions :=
      { source.extensions with
        relations := some bundle
        relationIndex := some index
        evolutionState := some (.str "committed")
        evolutionPreviousId := none }
    createdAt := now
    updatedAt := now }

/-- What rewriting `source` with other relations returns: the version under the source's id, when
its content and its relations are the same, or a new version. -/
inductive RewriteOf (service : Service) (call : StoreCall py) (source : KnowledgeRecord py)
    (bundle : RelationBundle py) : EvolutionResult py → Prop
  | noChange (q : KnowledgeRecord py) (hid : q.id = source.id)
      (hdigest : q.bundle.digest = bundle.digest) :
      RewriteOf service call source bundle
        { outcome := .noChange, record := q, previousId := some q.id }
  | evolve (q : KnowledgeRecord py) (content digest : String) (index : RelationIndex)
      (now : Instant) (hid : q.id = source.id)
      (hcontent : normalizeContent source.content = .ok content)
      (hdigest : contentHash py content = .ok digest)
      (hindex : projectRelations source.toEntityLabels source.context q.toIdentityValues bundle =
        .ok index) :
      RewriteOf service call source bundle
        { outcome := .evolve
          record := rewritten service call source q bundle content digest index now
          previousId := some q.id }

/-- What is admitted is the validated bundle. -/
lemma validate_of_admitRelations {bound : Option (CallerAuthority py)} {raw : RawRelations}
    {ref : EntityRef py} {seen : Collection py} {episodes : Option Episodes}
    (h : admitRelations bound raw ref seen episodes = .ok bundle) :
    RelationBundle.validate py raw = .ok bundle := by
  obtain ⟨valid, hvalid, h⟩ := CyberBrain.bind_eq_ok.mp h
  obtain ⟨_, -, h⟩ := CyberBrain.bind_eq_ok.mp h
  obtain ⟨knowledgePlan, -, h⟩ := CyberBrain.bind_eq_ok.mp h
  obtain ⟨episodePlan, -, h⟩ := CyberBrain.bind_eq_ok.mp h
  obtain ⟨-, -, h⟩ := CyberBrain.bind_eq_ok.mp h
  obtain ⟨-, -, h⟩ := CyberBrain.bind_eq_ok.mp h
  cases h
  exact mapError_eq_ok.mp hvalid

/-- What a rewrite has prepared. -/
lemma prepare_rewrite {p : Knowledge.Prepared py}
    (h : Knowledge.prepare service { call with args := rewriteArgs source bundle } = .ok p) :
    ∃ (values : IdentityValues) (ref : EntityRef py),
      p.subject = { toEntityLabels := source.toEntityLabels
                    context := source.context
                    partition := { values with recordClass := source.recordClass } } ∧
      normalizeContent source.content = .ok p.content ∧
      contentHash py p.content = .ok p.digest ∧ p.relations = some (ref, bundle) ∧
      p.extensions = { source.extensions with relations := some bundle, relationIndex := none } := by
  obtain ⟨values, -, h⟩ := CyberBrain.bind_eq_ok.mp h
  obtain ⟨normalized, hnormalized, h⟩ := CyberBrain.bind_eq_ok.mp h
  obtain ⟨_, -, h⟩ := CyberBrain.bind_eq_ok.mp h
  obtain ⟨_, -, h⟩ := CyberBrain.bind_eq_ok.mp h
  obtain ⟨relations, hrelations, h⟩ := CyberBrain.bind_eq_ok.mp h
  obtain ⟨digest, hdigest, h⟩ := CyberBrain.bind_eq_ok.mp h
  cases h
  obtain ⟨_, -, hrelations⟩ := CyberBrain.bind_eq_ok.mp hrelations
  obtain ⟨ref, -, hrelations⟩ := CyberBrain.bind_eq_ok.mp hrelations
  obtain ⟨admitted, hadmitted, hreturned⟩ := CyberBrain.bind_eq_ok.mp hrelations
  have hadmitted : admitted = bundle :=
    RelationBundle.eq_of_validate_inputs (validate_of_admitRelations hadmitted)
  cases hreturned
  rw [hadmitted]
  exact ⟨values, ref, rfl, hnormalized, hdigest, rfl, rfl⟩

lemma writeRelations_returned (hclass : source.recordClass = .knowledge)
    (h : writeRelations service call source bundle s = (.ok result, t)) :
    RewriteOf service call source bundle result := by
  obtain ⟨p, previous, hprepare, hfound, hreturned⟩ := Knowledge.store_returned h
  obtain ⟨values, ref, hsubject, hcontent, hdigest, hrelations, hextensions⟩ :=
    prepare_rewrite hprepare
  have hexpected : previous.map (·.id) = some source.id := hfound.expected _ rfl
  cases hreturned with
  | noChange q hsame hunchanged =>
    simp only [Knowledge.relationsChanged, hrelations, Knowledge.previousRelations, Option.map_some,
      Option.getD_some] at hunchanged
    have hdigests : bundle.digest = q.bundle.digest := not_not.mp (of_decide_eq_false hunchanged)
    exact .noChange q (Option.some.inj hexpected) hdigests.symm
  | insertNew base confidence now hbase hconfidence => cases hexpected
  | evolve q base confidence now hbase hconfidence =>
    have hpartition : q.toIdentityValues = values := by
      have := of_decide_eq_true (hfound.partition q rfl)
      rw [hsubject] at this
      exact congrArg Knowledge.Partition.toIdentityValues this
    simp only [Knowledge.baseExtensions, hsubject, hclass, if_true] at hbase
    obtain ⟨index, hindex, hbase⟩ := CyberBrain.bind_eq_ok.mp hbase
    cases hbase
    have hchecked : confidence = source.confidence := by
      have : Knowledge.checkConfidence (source.confidence.map (·.1)) = .ok source.confidence := by
        cases source.confidence with
        | none   => rfl
        | some x => exact dif_pos x.2
      exact Except.ok.inj (hconfidence.symm.trans this)
    have hid : q.id = source.id := Option.some.inj hexpected
    have hreturned : RewriteOf service call source bundle _ :=
      .evolve q p.content p.digest index now hid hcontent hdigest
        (by simpa [hextensions, hpartition] using hindex)
    convert hreturned using 2
    simp only [Knowledge.buildRecord, rewritten, Knowledge.committedExtensions, hsubject,
      hextensions, hpartition, hchecked, hid, rewriteArgs, Option.map_some, Option.getD_some]

/-! ### Proposals and reviews -/

variable {seen : Collection py} {sourceId : Uuid}

/-- What is known of a source: it is the active version under its id, and the caller may write it. -/
structure IsSource (bound : Option (CallerAuthority py)) (seen : Collection py) (sourceId : Uuid)
    (source : KnowledgeRecord py) : Prop where
  found : seen.find? sourceId = some source
  active : source.status = .active
  recordClass : source.recordClass = .knowledge
  writer : ∃ caller ∈ bound, .write ∈ caller.grant.operations ∧ caller.Covers source.fields

lemma isSource_of_sourceOf {bound : Option (CallerAuthority py)}
    (h : sourceOf bound seen sourceId = .ok source) : IsSource bound seen sourceId source := by
  obtain ⟨_, hwriter, h⟩ := CyberBrain.bind_eq_ok.mp h
  obtain ⟨plan, hplan, h⟩ := CyberBrain.bind_eq_ok.mp h
  obtain ⟨found, hfound, h⟩ := CyberBrain.bind_eq_ok.mp h
  obtain ⟨_, -, h⟩ := CyberBrain.bind_eq_ok.mp h
  obtain ⟨_, -, h⟩ := CyberBrain.bind_eq_ok.mp h
  obtain ⟨_, -, h⟩ := CyberBrain.bind_eq_ok.mp h
  cases h
  obtain ⟨caller, hcaller, hwrite⟩ := require_eq_ok.mp hwriter
  obtain ⟨hfind, hsource⟩ := Option.filter_eq_some_iff.mp (orRaise_eq_ok.mp hfound)
  simp only [isSource, sourceFilter, Filter.accepts_append, Bool.and_eq_true, decide_eq_true_eq]
    at hsource
  obtain ⟨⟨hfilter, hscope⟩, -⟩ := hsource
  have hbound : bound = some caller := by simpa using hcaller
  subst hbound
  obtain ⟨p, scope, rfl, hgrants⟩ := enforceOperation_grants rfl hplan
  have hcovers := covers_of_accepts hgrants rfl hscope
  simp [Condition.holds, FieldCondition.holds, KnowledgeRecord.fields, Json.matchesScalar,
    Json.scalar?] at hfilter
  obtain ⟨hclass, hstatus, -⟩ := hfilter
  exact ⟨hfind, KnowledgeStatus.text_injective hstatus, KnowledgeRecordClass.text_injective hclass,
    caller, rfl, hwrite, hcovers⟩

/-- The edges of a review, in their order. -/
lemma reviewedEdges_input {relationId : String} {status : RelationStatus} {note : String}
    {edges reviewed : List (RelationEdge py)}
    (h : edges.mapM (fun e => if e.relationId = relationId then
      RelationEdge.make py (reviewedInput relationId status note e) else .ok e) = .ok reviewed) :
    reviewed.map RelationEdge.input = edges.map (reviewedInput relationId status note) := by
  have hall := mapM_eq_ok_iff_forall₂.mp h
  refine (List.forall₂_eq_eq_eq ▸ (List.forall₂_map_right_iff.mpr (List.forall₂_map_left_iff.mpr
    (hall.flip.imp fun f e hmake => ?_))))
  simp only [reviewedInput] at hmake ⊢
  split_ifs at hmake ⊢ with hid
  · exact (RelationEdge.make_eq_ok.mp hmake).input_eq
  · exact congrArg _ (Except.ok.inj hmake).symm

end Rewriting

end CyberBrain.Relations
