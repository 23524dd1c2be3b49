import CyberBrain.Foundation.Program
import CyberBrain.Relations.Query

/-!
# Traversal of relations

`RelationTraversal` searches breadth first over accepted assertions, under a budget of storage
calls, nodes, edges and paths. What does not fit the budget is left out, and the result names the
reasons.
-/

namespace CyberBrain.Relations

open Program Python Schemas Tenancy

variable {py : Runtime}

/-! ### The policy -/

inductive TraversalDirection
  | outward
  | inward
  | both
  deriving DecidableEq, Repr

/-- `TraversalPolicy`. -/
structure TraversalPolicy where
  depth : ℕ := 2
  maxNodes : ℕ := 32
  maxEdges : ℕ := 64
  maxPaths : ℕ := 128
  maxStorageCalls : ℕ := 8
  direction : TraversalDirection := .outward
  kinds : List RelationKind := [.dependsOn, .partOf, .supports, .contradicts, .causes]
  asOf : Option Instant := none
  depth_bounds : 1 ≤ depth ∧ depth ≤ 3
  nodes_bounds : 1 ≤ maxNodes ∧ maxNodes ≤ 128
  edges_bounds : 1 ≤ maxEdges ∧ maxEdges ≤ 256
  paths_bounds : 1 ≤ maxPaths ∧ maxPaths ≤ 512
  calls_bounds : 1 ≤ maxStorageCalls ∧ maxStorageCalls ≤ 32

/-- The time at which the store is seen: `as_of`, when it is not more than an hour ahead. -/
def evaluationTime (now : Instant) : Option Instant → Except Exc Instant
  | none   => .ok now
  | some t =>
    if t ≤ now then .ok t
    else if t.micros - now.micros ≤ 3600 * 1000000 then .ok now
    else .error (.valueError "as_of cannot be in the future")

/-! ### Paths -/

inductive StepDirection
  | outward
  | inward
  deriving DecidableEq, Repr

/-- A step of a path. -/
structure TraversalStep where
  relationId : String
  kind : RelationKind
  direction : StepDirection
  ownerRecordId : Uuid
  ownerVersion : ℕ
  targetRecordId : Uuid
  evidence : List EvidenceRef
  validFrom : Instant
  validUntil : Option Instant
  deriving DecidableEq

structure TraversalPath where
  nodeKeys : List String
  recordIds : List Uuid
  steps : List TraversalStep
  deriving DecidableEq

/-- A path with one more step. -/
def TraversalPath.extend (p : TraversalPath) (key : String) (id : Uuid) (step : TraversalStep) :
    TraversalPath where
  nodeKeys := p.nodeKeys ++ [key]
  recordIds := p.recordIds ++ [id]
  steps := p.steps ++ [step]

/-- Where a path ends. -/
def TraversalPath.lastKey (p : TraversalPath) : String := p.nodeKeys.getLastD ""

/-- What a traversal has found and used so far. -/
structure TraversalState where
  used : ℕ := 0
  paths : List TraversalPath := []
  nodes : List String := []
  edgeIds : List String := []
  reasons : List String := []

structure TraversalResult where
  paths : List TraversalPath
  nodeCount : ℕ
  edgeCount : ℕ
  storageCalls : ℕ
  truncated : Bool
  truncationReasons : List String
  evaluatedAt : Instant
  historical : Bool

/-- How a phase of a traversal ends early: at a limit, or with an exception. -/
inductive Interruption
  | limit (reason : String)
  | raised (e : Exc)

abbrev Traversing := Program TraversalState Interruption

/-- A computation that touches no state. -/
def checked {α : Type} (x : Except Exc α) : Traversing α := ofExcept (x.mapError .raised)

/-- An update of what was found. -/
def update (f : TraversalState → TraversalState) : Traversing Unit := fun s => (.ok (), f s)

/-- Add a reason. -/
def addReason (reason : String) (s : TraversalState) : TraversalState :=
  { s with reasons := s.reasons.insert reason }

variable (py) in
/-- `RelationTraversal` over the index of a store, with what it is called under. -/
structure RelationTraversal where
  store : RelationStore py
  scrollKnowledge : RelationScroll (KnowledgeRecord py)
  scrollEpisodes : RelationScroll EpisodeRecord
  background : Bool := false
  verified : Bool := true
  bound : Option (CallerAuthority py)
  now : Instant

/-! ### What makes a record count -/

/-- A version that is staged, or was aborted. -/
def isStaged (r : KnowledgeRecord py) : Bool :=
  match r.extensions.evolutionState with
  | some (.str state) => state = "pending_activation" ∨ state = "aborted"
  | _                 => false

/-- `_visible`, on Knowledge. -/
def knowledgeVisible (r : KnowledgeRecord py) : Bool :=
  r.ordinaryRecall && r.lifecycleState = .active

/-- `_visible`, on an episode. -/
def episodeVisible (r : EpisodeRecord) : Bool := r.ordinaryRecall && r.lifecycleState = .active

/-- `eligible`, on Knowledge. -/
def eligible (at' : Instant) (r : KnowledgeRecord py) : Prop :=
  knowledgeVisible r = true ∧ r.createdAt ≤ at' ∧ (r.status = .active ∨ r.status = .superseded) ∧
    isStaged r = false

instance (at' : Instant) (r : KnowledgeRecord py) : Decidable (eligible at' r) :=
  inferInstanceAs (Decidable (_ ∧ _ ∧ _ ∧ _))

/-- `eligible`, on an episode. -/
def eligibleEpisode (at' : Instant) (r : EpisodeRecord) : Prop :=
  episodeVisible r = true ∧ r.createdAt ≤ at'

instance (at' : Instant) (r : EpisodeRecord) : Decidable (eligibleEpisode at' r) :=
  inferInstanceAs (Decidable (_ ∧ _))

/-- `EntityRef.from_payload`. -/
def entityOf (r : KnowledgeRecord py) : Except Exc (EntityRef py) :=
  EntityRef.make py r.toEntityLabels r.context r.toIdentityValues

/-- The key of the owner in the stored projection of a record. -/
def ownerKey (r : KnowledgeRecord py) : Option String :=
  match r.extensions.relationIndex with
  | some (.eligible key _ _) => some key
  | _                        => none

/-! ### Heads -/

section Heads

variable (at' : Instant) (historical : Bool)

/-- The turn of a point in the first loop of `head_map`: the key of its entity, if it counts. -/
def headCandidate (p : RelationPoint (KnowledgeRecord py)) :
    Except Exc (Option (String × KnowledgeRecord py)) := do
  let r ← canonical (knowledgeSchema py) p
  verifyProjection r
  match entityOf r with
  | .error _ => pure none
  | .ok ref  => pure (if r.createdAt ≤ at' ∧ isStaged r = false then some (ref.key, r) else none)

/-- The candidates that may be the head: those of the latest version, or the active ones. -/
def headVersions (candidates : List (KnowledgeRecord py)) : List (KnowledgeRecord py) :=
  if historical then candidates.filter fun r => ∀ q ∈ candidates, q.version ≤ r.version
  else candidates.filter (·.status = .active)

/-- The turn of an entity in the second loop of `head_map`. -/
def chooseHead (candidates : List (KnowledgeRecord py)) :
    Except Exc (Option (KnowledgeRecord py)) :=
  match headVersions historical candidates with
  | []  => .ok none
  | [r] => .ok (if r.status = .active ∨ r.status = .superseded then some r else none)
  | _   => .error (.configurationError "ambiguous relation entity head")

/-- `head_map`. -/
def headMap (points : List (RelationPoint (KnowledgeRecord py))) :
    Except Exc (List (String × KnowledgeRecord py)) := do
  let found ← points.mapM (headCandidate at')
  let candidates := found.reduceOption
  let heads ← (candidates.map (·.1)).dedup.mapM fun key => do
    let head ← chooseHead historical ((candidates.filter (·.1 = key)).map (·.2))
    pure (head.map fun r => (key, r))
  pure heads.reduceOption

end Heads

/-! ### Claims and transitions -/

section Level

variable (policy : TraversalPolicy) (at' : Instant)

/-- An edge that is accepted, of an allowed kind and valid at the time. -/
def edgeValid (edge : RelationEdge py) : Prop :=
  edge.status = .accepted ∧ edge.kind ∈ policy.kinds ∧ edge.validFrom ≤ at' ∧
    ∀ t ∈ edge.validUntil, at' < t

instance (edge : RelationEdge py) : Decidable (edgeValid policy at' edge) :=
  inferInstanceAs (Decidable (_ ∧ _ ∧ _ ∧ _))

/-- An edge may be followed from its source to its target. -/
def followsOut (edge : RelationEdge py) : Prop :=
  policy.direction = .outward ∨ policy.direction = .both ∨ edge.kind = .contradicts

/-- An edge may be followed from its target to its source. -/
def followsIn (edge : RelationEdge py) : Prop :=
  policy.direction = .inward ∨ policy.direction = .both ∨ edge.kind = .contradicts

instance (edge : RelationEdge py) : Decidable (followsOut policy edge) :=
  inferInstanceAs (Decidable (_ ∨ _ ∨ _))

instance (edge : RelationEdge py) : Decidable (followsIn policy edge) :=
  inferInstanceAs (Decidable (_ ∨ _ ∨ _))

/-- The edges of an owner that may be followed from one of the keys. -/
def ownerClaims (keys : List String) (owner : KnowledgeRecord py) :
    List (KnowledgeRecord py × RelationEdge py) :=
  if eligible at' owner then
    (owner.bundle.edges.filter fun edge => edgeValid policy at' edge ∧
      (edge.source.key ∈ keys ∧ followsOut policy edge ∨
        edge.target.key ∈ keys ∧ followsIn policy edge)).map fun edge => (owner, edge)
  else []

/-- The claims of the owners that were read. -/
def collectClaims (keys : List String) (owners : List (RelationPoint (KnowledgeRecord py))) :
    Except Exc (List (KnowledgeRecord py × RelationEdge py)) := do
  let claims ← owners.mapM fun p => do
    let r ← canonical (knowledgeSchema py) p
    verifyProjection r
    pure (ownerClaims policy at' keys r)
  pure claims.flatten

/-- Different ids in the order of their texts. -/
def sortIds (ids : List Uuid) : List Uuid := ids.dedup.insertionSort fun a b => a.text ≤ b.text

/-- The ids of the evidence of one type. -/
def proofIds (recordType : EvidenceType) (claims : List (KnowledgeRecord py × RelationEdge py)) :
    List Uuid :=
  sortIds (claims.flatMap fun c =>
    (c.2.evidence.sorted.filter (·.recordType = recordType)).map (·.id))

/-- The keys of the entities whose heads a level needs. -/
def headKeys (keys : List String) (claims : List (KnowledgeRecord py × RelationEdge py)) :
    List String :=
  (FrozenSet.ofList (keys ++ claims.flatMap fun c => [c.2.source.key, c.2.target.key])).sorted

/-- The values of the seeds' partition that evidence shares: all but the session, unless the seeds
have one. -/
def sharesPartition (scope : RelationScope py) (values : IdentityValues) : Prop :=
  ∀ d ∈ IdentityDimension.order, (d ≠ .session ∨ scope.sessionId ≠ none) →
    values.get d = scope.get d

instance (scope : RelationScope py) (values : IdentityValues) :
    Decidable (sharesPartition scope values) :=
  inferInstanceAs (Decidable (∀ d ∈ IdentityDimension.order, _))

/-- The identity fields of an episode. -/
def episodeIdentity (r : EpisodeRecord) : IdentityValues where
  tenant := r.tenant
  user := r.user
  agent := r.agent
  project := r.project
  sessionId := some r.sessionId

/-- The check of one piece of evidence. -/
def proofValid (scope : RelationScope py) (knowledge : List (KnowledgeRecord py))
    (episodes : List EpisodeRecord) (ref : EvidenceRef) : Prop :=
  match ref.recordType with
  | .knowledge => ∃ r ∈ knowledge.find? (·.id = ref.id), eligible at' r ∧
      sharesPartition scope r.toIdentityValues
  | .episode   => ∃ r ∈ episodes.find? (·.id = ref.id), eligibleEpisode at' r ∧
      r.eventTime ≤ at' ∧ sharesPartition scope (episodeIdentity r)

instance (scope : RelationScope py) (knowledge : List (KnowledgeRecord py))
    (episodes : List EpisodeRecord) (ref : EvidenceRef) :
    Decidable (proofValid at' scope knowledge episodes ref) := by
  unfold proofValid
  split <;> infer_instance

/-- A transition along an edge: where it starts and ends, the record it ends at, and the step. -/
structure Transition where
  start : String
  finish : String
  endpoint : Uuid
  step : TraversalStep

/-- The step along an edge. -/
def stepAlong (owner : KnowledgeRecord py) (edge : RelationEdge py) (direction : StepDirection) :
    TraversalStep where
  relationId := edge.relationId
  kind := edge.kind
  direction := direction
  ownerRecordId := owner.id
  ownerVersion := owner.version
  targetRecordId := edge.targetRecordId
  evidence := edge.evidence.sorted
  validFrom := edge.validFrom
  validUntil := edge.validUntil

/-- The transitions along an edge between two heads. -/
def edgeTransitions (owner source target : KnowledgeRecord py) (edge : RelationEdge py) :
    List Transition :=
  (if followsOut policy edge then
    [⟨edge.source.key, edge.target.key, target.id, stepAlong owner edge .outward⟩] else []) ++
  if followsIn policy edge then
    [⟨edge.target.key, edge.source.key, source.id, stepAlong owner edge .inward⟩] else []

/-- The turn of a claim in the loop that builds the adjacency. -/
def claimTransitions (scope : RelationScope py) (heads : List (String × KnowledgeRecord py))
    (knowledge : List (KnowledgeRecord py)) (episodes : List EpisodeRecord)
    (claim : KnowledgeRecord py × RelationEdge py) : List Transition :=
  match heads.lookup claim.2.source.key, heads.lookup claim.2.target.key with
  | some source, some target =>
    if source.id = claim.1.id ∧ target.id = claim.2.targetRecordId ∧ eligible at' source ∧
        eligible at' target ∧
        ∀ ref ∈ claim.2.evidence.sorted, proofValid at' scope knowledge episodes ref then
      edgeTransitions policy claim.1 source target claim.2
    else []
  | _, _ => []

/-- The transitions from a key in the order in which they are tried. -/
def orderedTransitions (adjacency : List Transition) (key : String) : List Transition :=
  (adjacency.filter (·.start = key)).insertionSort fun a b =>
    toLex (a.finish, a.step.relationId) ≤ toLex (b.finish, b.step.relationId)

/-- The longer paths that are tried from a path: its end is the head of its entity, and no entity
comes twice. -/
def longerPaths (heads : List (String × KnowledgeRecord py)) (adjacency : List Transition)
    (path : TraversalPath) : List (TraversalPath × Transition) :=
  match heads.lookup path.lastKey with
  | some head =>
    if path.recordIds.getLast? = some head.id ∧ eligible at' head then
      ((orderedTransitions adjacency path.lastKey).filter (·.finish ∉ path.nodeKeys)).map fun t =>
        (path.extend t.finish t.endpoint t.step, t)
    else []
  | none => []

/-- A longer path is kept when it fits the budgets. -/
def admitPath (s : TraversalState × List TraversalPath) (extended : TraversalPath × Transition) :
    TraversalState × List TraversalPath :=
  let (s, next) := s
  let (path, t) := extended
  if t.finish ∉ s.nodes ∧ policy.maxNodes ≤ s.nodes.length then (addReason "nodes" s, next)
  else if t.step.relationId ∉ s.edgeIds ∧ policy.maxEdges ≤ s.edgeIds.length then
    (addReason "edges" s, next)
  else if policy.maxPaths ≤ s.paths.length then (addReason "paths" s, next)
  else
    ({ s with
        paths := s.paths ++ [path]
        nodes := s.nodes.insert t.finish
        edgeIds := s.edgeIds.insert t.step.relationId }, next ++ [path])

end Level

namespace RelationTraversal

variable (t : RelationTraversal py)

/-- `ReadBudget.charge`. -/
def charge (maximum : ℕ) : Traversing Unit := fun s =>
  if maximum ≤ s.used then (.error (.limit "storage_calls"), s)
  else (.ok (), { s with used := s.used + 1 })

/-- `RelationIndex.read`, over one of the collections. -/
def read {ρ : Type} (scroll : Query → ℕ → List (RelationPoint ρ) × Bool) (episode : Bool)
    (maximum : ℕ) (q : Query) (limit : ℕ := 256) (complete : Bool := true) :
    Traversing (List (RelationPoint ρ)) := do
  let scope ← checked (conditions t.bound t.background episode)
  charge maximum
  let (points, more) := scroll (q.within scope) limit
  if complete ∧ more then raise (.limit "candidate_capacity") else pure points

def readKnowledge (maximum : ℕ) (q : Query) (limit : ℕ := 256) (complete : Bool := true) :
    Traversing (List (RelationPoint (KnowledgeRecord py))) :=
  t.read (t.scrollKnowledge t.store.knowledge) false maximum q limit complete

def readEpisodes (maximum : ℕ) (q : Query) : Traversing (List (RelationPoint EpisodeRecord)) :=
  t.read (t.scrollEpisodes t.store.episodes) true maximum q

/-- `require_ready`. -/
def requireReady (maximum : ℕ) : Traversing Unit := do
  let _ ← checked (conditions t.bound t.background false)
  checked (require (t.verified = true)
    (.configurationError "relation indexes have not been verified"))
  let points ← t.readKnowledge maximum
    { must := knowledgeFilter
      mustNot := [.field (.matchValue (indexPrefix ++ ".schema_version") (.int 1))] } 1 false
  checked (require (points.isEmpty)
    (.configurationError "relation index is missing; rebuild required"))

section Search

variable (policy : TraversalPolicy) (at' : Instant)

/-- The filter of owners and seeds: active records, unless the past is asked for. -/
def currentFilter : Filter :=
  if policy.asOf.isSome then [] else [.field (.matchValue "status" (.str "active"))]

/-- The query of the seeds. -/
def seedsQuery (seedIds : List Uuid) : Query where
  must := knowledgeFilter ++ currentFilter policy
  createdBy := some at'
  ids := some seedIds

/-- The query of the records whose edges touch the keys. -/
def ownersQuery (scope : RelationScope py) (keys : List String) : Query where
  must := knowledgeFilter ++ scopeFilter scope true ++ currentFilter policy
  createdBy := some at'
  anyOf := [.field (.matchAny (indexPrefix ++ ".owner_key") (keys.map .str)),
    .field (.matchAny (indexPrefix ++ ".target_keys") (keys.map .str))]

/-- The query of all versions of the entities, and of Knowledge evidence. -/
def recordsQuery (scope : RelationScope py) (keys : List String) (proofs : List Uuid) : Query where
  must := knowledgeFilter ++ scopeFilter scope scope.sessionId.isSome
  createdBy := some at'
  anyOf := .field (.matchAny (indexPrefix ++ ".owner_key") (keys.map .str)) ::
    if proofs = [] then [] else [.hasId proofs]

/-- The query of episodes that are evidence. -/
def episodesQuery (scope : RelationScope py) (proofs : List Uuid) : Query where
  must := scopeFilter scope scope.sessionId.isSome ++
    [.field (.matchValue "record_type" (.str "episode"))]
  ids := some proofs

/-- The read of episodes that are evidence, when there are any. -/
def readProofs (scope : RelationScope py) (proofs : List Uuid) :
    Traversing (List (RelationPoint EpisodeRecord)) :=
  if proofs = [] then pure []
  else t.readEpisodes policy.maxStorageCalls (episodesQuery scope proofs)

/-- The points whose stored projection names one of the keys. -/
def namedPoints (keys : List String) (points : List (RelationPoint (KnowledgeRecord py))) :
    List (RelationPoint (KnowledgeRecord py)) :=
  points.filter fun p => match p.payload with
    | .dump r      => ∃ key ∈ ownerKey r, key ∈ keys
    | .invalid _ _ => False

/-- The reads of a level: the longer paths that are tried from a frontier. -/
def candidatePaths (scope : RelationScope py) (frontier : List TraversalPath) :
    Traversing (List (TraversalPath × Transition)) := do
  let keys := (FrozenSet.ofList (frontier.map (·.lastKey))).sorted
  let owners ← t.readKnowledge policy.maxStorageCalls (ownersQuery policy at' scope keys)
  let claims ← checked (collectClaims policy at' keys owners)
  let records ← t.readKnowledge policy.maxStorageCalls
    (recordsQuery at' scope (headKeys keys claims) (proofIds .knowledge claims))
  let knowledge ← checked (records.mapM (canonical (knowledgeSchema py)))
  let named := namedPoints (headKeys keys claims) records
  let heads ← checked (headMap at' policy.asOf.isSome named)
  let points ← t.readProofs policy scope (proofIds .episode claims)
  let episodes ← checked (points.mapM (canonical episodeSchema))
  let adjacency := claims.flatMap (claimTransitions policy at' scope heads knowledge episodes)
  pure (frontier.flatMap (longerPaths at' heads adjacency))

/-- Keep the longer paths that fit the budgets. -/
def admitAll (candidates : List (TraversalPath × Transition)) :
    Traversing (List TraversalPath) := fun s =>
  let (s, next) := candidates.foldl (admitPath policy) (s, [])
  (.ok next, s)

/-- The loop over the levels that remain. -/
def searchLevels (scope : RelationScope py) : ℕ → List TraversalPath → Traversing Unit
  | 0, _              => pure ()
  | level + 1, frontier =>
    if frontier = [] then pure ()
    else do
      let candidates ← t.candidatePaths policy at' scope frontier
      let next ← admitAll policy candidates
      if level = 0 ∧ next ≠ [] then update (addReason "depth")
      else searchLevels scope level next

/-- A path that has only its seed. -/
def seedPath (seed : EntityRef py × KnowledgeRecord py) : TraversalPath where
  nodeKeys := [seed.1.key]
  recordIds := [seed.2.id]
  steps := []

/-- The partition that the seeds share. -/
def sharedScope : List (EntityRef py) → Except Exc (RelationScope py)
  | []          => .error (.configurationError "relation seeds must share one partition")
  | ref :: refs => do
    require (∀ r ∈ refs, r.scope = ref.scope)
      (.configurationError "relation seeds must share one partition")
    pure ref.scope

/-- The seeds with their entities and their partition, if they are all there and eligible. -/
def readSeeds (seedIds : List Uuid) :
    Traversing (List (EntityRef py × KnowledgeRecord py) × RelationScope py) := do
  let points ← t.readKnowledge policy.maxStorageCalls (seedsQuery policy at' seedIds)
  let seeds ← checked (points.mapM (canonical (knowledgeSchema py)))
  checked (require ((∀ id ∈ seedIds, ∃ r ∈ seeds, r.id = id) ∧
      ∀ r ∈ seeds, r.id ∈ seedIds ∧ eligible at' r)
    (.configurationError "relation seed unavailable"))
  let refs ← checked (seeds.mapM entityOf)
  let scope ← checked (sharedScope refs)
  checked (forM seeds verifyProjection)
  pure (refs.zip seeds, scope)

/-- The search of `traverse`, from the seeds on. -/
def search (seedIds : List Uuid) : Traversing Unit := do
  t.requireReady policy.maxStorageCalls
  let (seeds, scope) ← t.readSeeds policy at' seedIds
  update fun s => { s with nodes := (seeds.map (·.1.key)).dedup }
  t.searchLevels policy at' scope policy.depth (seeds.map seedPath)

end Search

/-- What `traverse` returns of what it has found. -/
def result (policy : TraversalPolicy) (at' : Instant) (s : TraversalState) : TraversalResult where
  paths := s.paths
  nodeCount := s.nodes.length
  edgeCount := s.edgeIds.length
  storageCalls := s.used
  truncated := s.reasons ≠ []
  truncationReasons := s.reasons.insertionSort (· ≤ ·)
  evaluatedAt := at'
  historical := policy.asOf.isSome

/-- `traverse`. -/
def traverse (seedIds : List Uuid) (policy : TraversalPolicy) : Except Exc TraversalResult := do
  require (seedIds ≠ [] ∧ seedIds.length ≤ policy.maxNodes)
    (.valueError "seed count must be within node budget")
  let at' ← evaluationTime t.now policy.asOf
  match t.search policy at' (sortIds seedIds) {} with
  | (.ok _, s)                  => pure (result policy at' s)
  | (.error (.limit reason), s) => pure (result policy at' (addReason reason s))
  | (.error (.raised e), _)     => .error e

end RelationTraversal

end CyberBrain.Relations
