import CyberBrain.Core.Errors
import CyberBrain.Schemas.Models

/-!
# The relation index

A Knowledge record carries a projection of its relations, which can be rebuilt from the record.
-/

namespace CyberBrain.Relations

open Python Schemas

variable {py : Runtime}

/-- The keys of the targets that a bundle asserts as accepted. -/
def targetKeys (bundle : RelationBundle py) : FrozenSet String :=
  FrozenSet.ofList ((bundle.edges.filter (·.status = .accepted)).map (·.target.key))

/-- `project_relations`, on the parts of a payload that it reads. -/
def projectRelations (labels : EntityLabels) (context : Context) (values : IdentityValues)
    (bundle : RelationBundle py) : Except Exc RelationIndex :=
  match EntityRef.make py labels context values with
  | .error _ =>
    if bundle.edges ≠ [] then
      .error (.configurationError "relation owner identity is not indexable")
    else .ok .ineligible
  | .ok owner =>
    if ∃ edge ∈ bundle.edges, edge.source.key ≠ owner.key then
      .error (.configurationError "relation source differs from canonical Knowledge identity")
    else .ok (.eligible owner.key (targetKeys bundle) bundle.digest)

/-- A projection as JSON. -/
def projectionDump : RelationIndex → Json
  | .ineligible => .obj [("schema_version", .int 1), ("eligible", .bool false)]
  | .eligible ownerKey targetKeys bundleDigest =>
    .obj [("schema_version", .int 1), ("eligible", .bool true), ("owner_key", .str ownerKey),
      ("target_keys", .arr (targetKeys.sorted.map .str)), ("bundle_digest", .str bundleDigest)]

/-- The projection that the payload of a record has. -/
def projectRecord (r : KnowledgeRecord py) : Except Exc RelationIndex :=
  projectRelations r.toEntityLabels r.context r.toIdentityValues r.bundle

def indexMissing : Exc :=
  .configurationError "relation index is missing or inconsistent; rebuild required"

/-- `verify_projection`. -/
def verifyProjection (r : KnowledgeRecord py) : Except Exc Unit := do
  let projection ← projectRecord r
  require (canonicalJson py ((r.extensions.relationIndex.map projectionDump).getD .null) =
    canonicalJson py (projectionDump projection)) indexMissing

/-- A record that carries the projection of its payload verifies. -/
lemma verifyProjection_eq_ok {r : KnowledgeRecord py} {projection : RelationIndex}
    (h : projectRecord r = .ok projection) (hindex : r.extensions.relationIndex = some projection) :
    verifyProjection r = .ok () := by
  simp only [verifyProjection, h, hindex, bind, Except.bind, require_eq_ok]
  rfl

/-- What the projection of a record depends on, and the projection it carries. -/
def projectedParts (r : KnowledgeRecord py) :
    EntityLabels × Context × IdentityValues × Option (RelationBundle py) × Option RelationIndex :=
  (r.toEntityLabels, r.context, r.toIdentityValues, r.extensions.relations,
    r.extensions.relationIndex)

lemma verifyProjection_congr {r r' : KnowledgeRecord py}
    (h : projectedParts r = projectedParts r') : verifyProjection r = verifyProjection r' := by
  simp only [projectedParts, Prod.mk.injEq] at h
  obtain ⟨hlabels, hcontext, hvalues, hrelations, hindex⟩ := h
  simp only [verifyProjection, projectRecord, KnowledgeRecord.bundle, hlabels, hcontext, hvalues,
    hrelations, hindex]

end CyberBrain.Relations
