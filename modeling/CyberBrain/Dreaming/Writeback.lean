import CyberBrain.Dreaming.Audit

/-!
# Writing candidates back

`write_candidate` decides under which domain, topic and attribution a promoted candidate is stored,
or why it is not, and hands it to `Evolution.store`. Here the store is a step of its own: a plan says
what comes of a candidate before it.
-/

namespace CyberBrain.Dreaming

open Knowledge Python Schemas

variable {py : Runtime}

/-- What `write_candidate` resolves before it stores a candidate. -/
structure StoreTarget where
  domain : String
  topic : String
  tenant : Option String
  user : Option String
  agent : Option String
  project : Option String
  verification : Verification
  evidenceIds : List Uuid

/-- What becomes of a candidate before the store. -/
inductive WritePlan
  | settled (result : DreamWriteResult)
  | store (target : StoreTarget)

/-- The text of a decision. -/
def PromotionDecision.text : PromotionDecision → String
  | .promote => "promote"
  | .review  => "review"
  | .reject  => "reject"

section Metadata

variable (py)

/-- `str(items[key] or "").strip()`. -/
def itemText (items : List (String × Json)) (key : String) : String :=
  match (items.lookup key).filter fun v => !isFalsy v with
  | some v => strip (pyStr py v)
  | none   => ""

/-- `str(items[key]).strip()` where there is a value. -/
def presentText (items : List (String × Json)) (key : String) : String :=
  match items.lookup key with
  | none | some .null => ""
  | some v            => strip (pyStr py v)

/-- The different texts other than the empty one. -/
def concreteTexts (texts : List String) : List String := (texts.filter (· ≠ "")).dedup

/-- The domain in the context of an item. -/
def contextDomain (item : EvidenceItem) : String :=
  match item.metadata.lookup "context" with
  | some (.obj context) =>
    match (context.lookup "legacy_domain").filter fun v => !isFalsy v with
    | some v => strip (pyStr py v)
    | none   => itemText py context "domain"
  | _ => ""

/-- `_domain_for`. -/
def domainFor (defaultDomain : Option String) (candidate : DreamCandidate)
    (evidence : List EvidenceItem) (override : Option String) : Option String :=
  let overridden := strip (override.getD "")
  if overridden ≠ "" then some overridden
  else
    match concreteTexts (evidence.map fun item => presentText py item.metadata "domain") with
    | [domain]   => some domain
    | _ :: _ :: _ => none
    | []         =>
      match concreteTexts (evidence.map (contextDomain py)) with
      | [domain]   => some domain
      | _ :: _ :: _ => none
      | []         =>
        let domain := itemText py candidate.context "domain"
        if domain ≠ "" then some domain else defaultDomain

/-- `_verification_for`. -/
def verificationFor (evidence : List EvidenceItem) : Verification :=
  let values := evidence.map (verificationText py)
  if "user_confirmed" ∈ values then .userConfirmed
  else if "tested" ∈ values then .tested
  else if "observed" ∈ values then .observed
  else .derived

/-- `_topic_for`. -/
def topicFor (candidate : DreamCandidate) (request : DreamReasoningRequest)
    (evidence : List EvidenceItem) : Except Exc String :=
  match concreteTexts (evidence.map fun item => itemText py item.metadata "topic") with
  | [topic] => pure topic
  | topics  =>
    let topic := itemText py candidate.context "topic"
    if topic ≠ "" then pure topic
    else
      match request.focalTopics, sortTexts topics with
      | topic :: _, _  => pure topic
      | [], topic :: _ => pure topic
      | [], []         =>
        .error (.valueError "unable to resolve canonical topic for Dream candidate")

end Metadata

variable (py) in
/-- `write_candidate` up to its call of `store`. -/
def planWrite (defaultDomain : Option String) (request : DreamReasoningRequest)
    (candidate : DreamCandidate) (decision : PromotionDecision) (evidenceIds : List String)
    (index : ℤ) (override : Option String) : Except Exc WritePlan :=
  let blocked (status : DreamWriteStatus) (reason : String) : Except Exc WritePlan :=
    pure (.settled { candidateIndex := index, status, reason })
  if decision ≠ .promote then
    blocked .skippedNotPromoted ("gate_decision=" ++ decision.text)
  else
    let targets := if evidenceIds = [] then candidate.evidenceIds else evidenceIds
    match targets.mapM (evidenceById request) with
    | none          =>
      blocked .blockedEvidenceId "candidate references evidence outside Dream request snapshot"
    | some selected =>
      match selected.mapM fun item => Uuid.parse item.id with
      | none     =>
        blocked .blockedEvidenceId "canonical Knowledge evidence_ids must be UUID point IDs"
      | some ids =>
        match domainFor py defaultDomain candidate selected override with
        | none        => blocked .blockedMetadata "missing_or_ambiguous_domain"
        | some domain =>
          let attribution (key : String) : List String :=
            concreteTexts (selected.map fun item => presentText py item.metadata key)
          match ["tenant", "user", "agent", "project"].find? fun key =>
            1 < (attribution key).length with
          | some key => blocked .blockedMetadata ("mixed_identity_" ++ key)
          | none     => do
            let topic ← topicFor py candidate request selected
            pure (.store
              { domain, topic
                tenant := (attribution "tenant").head?, user := (attribution "user").head?
                agent := (attribution "agent").head?, project := (attribution "project").head?
                verification := verificationFor py selected, evidenceIds := ids })

/-- The text of an outcome of the store. -/
def outcomeText : EvolutionOutcome → String
  | .insertNew => "insert_new"
  | .noChange  => "no_change"
  | .evolve    => "evolve"

/-- What `write_candidate` returns after the store. -/
def writtenResult (index : ℤ) (outcome : StoreOutcome) : DreamWriteResult where
  candidateIndex := index
  status := .written
  reason := outcomeText outcome.outcome
  evolution := some outcome

/-- A candidate that is not promoted is not stored. -/
lemma planWrite_of_ne_promote {defaultDomain : Option String} {request : DreamReasoningRequest}
    {candidate : DreamCandidate} {decision : PromotionDecision} {evidenceIds : List String}
    {index : ℤ} {override : Option String} (h : decision ≠ .promote) :
    planWrite py defaultDomain request candidate decision evidenceIds index override =
      .ok (.settled { candidateIndex := index, status := .skippedNotPromoted
                      reason := "gate_decision=" ++ decision.text }) := by
  rw [planWrite, if_pos h]
  rfl

end CyberBrain.Dreaming
