import CyberBrain.Foundation.Digests
import CyberBrain.Reasoning.Engine

/-!
# Proposals that are admitted

What an engine proposes passes the validation of relations: evidence and validity come from edges
that passed it, and the notes are short because the ids in them are digests.
-/

namespace CyberBrain.Reasoning

open Python Relations

variable {py : Runtime} {edge : RelationEdge py}

/-- The evidence of an edge has passed validation. -/
structure Admitted (e : RelationEdge py) : Prop where
  ne_nil : e.evidence.sorted ≠ []
  length_le : e.evidence.sorted.length ≤ 32

lemma FrozenSet.ofList_ne_nil {α : Type*} [LinearOrder α] {l : List α} (h : l ≠ []) :
    (FrozenSet.ofList l).sorted ≠ [] := by
  obtain ⟨a, ha⟩ := List.exists_mem_of_ne_nil l h
  exact List.ne_nil_of_mem (FrozenSet.mem_def.mp (FrozenSet.mem_ofList.mpr ha))

/-- What `RelationEdge` validates is admitted. -/
lemma admitted_of_make {input : EdgeInput} (h : RelationEdge.make py input = .ok edge) :
    Admitted edge := by
  obtain ⟨source, -, h⟩ := bind_eq_ok.mp h
  obtain ⟨target, -, h⟩ := bind_eq_ok.mp h
  obtain ⟨⟨⟩, hevidence, h⟩ := bind_eq_ok.mp h
  obtain ⟨hne, hle⟩ := require_eq_ok.mp hevidence
  obtain ⟨⟨⟩, -, h⟩ := bind_eq_ok.mp h
  split_ifs at h
  cases h
  exact ⟨FrozenSet.ofList_ne_nil hne, (FrozenSet.length_sorted_ofList_le _).trans hle⟩

namespace Proposal

variable {p : Proposal py}

/-- What a proposal needs to be admitted. -/
structure Sound (p : Proposal py) : Prop where
  evidence_ne : p.evidence ≠ []
  evidence_le : p.evidence.length ≤ 32
  note_ne : p.reviewNote ≠ ""
  note_le : p.reviewNote.length ≤ 1000
  not_self : p.source.key ≠ p.target.key
  scope : p.source.scope = p.target.scope
  follows : ∀ t ∈ p.validUntil, p.validFrom < t

lemma Sound.exists_make (h : Sound p) : ∃ edge, p.make = .ok edge := by
  have htime : ¬ ∃ t ∈ p.validUntil, ¬ p.validFrom < t := fun ⟨t, ht, hnot⟩ => hnot (h.follows t ht)
  have hscope : ¬ p.source.scope ≠ p.target.scope := not_not.mpr h.scope
  simp only [make, require, if_pos (And.intro h.evidence_ne h.evidence_le),
    if_pos (And.intro h.note_ne h.note_le), dif_neg h.not_self, dif_neg hscope, dif_neg htime]
  exact ⟨_, rfl⟩

/-- What an admitted proposal becomes. -/
lemma of_make (h : p.make = .ok edge) :
    edge.kind = p.kind ∧ edge.source = p.source ∧ edge.target = p.target ∧
      edge.targetRecordId = p.targetRecordId ∧ edge.evidence = FrozenSet.ofList p.evidence ∧
      edge.validFrom = p.validFrom ∧ edge.validUntil = p.validUntil ∧ edge.status = .proposed := by
  obtain ⟨-, -, h⟩ := bind_eq_ok.mp h
  obtain ⟨-, -, h⟩ := bind_eq_ok.mp h
  split_ifs at h
  cases h
  exact ⟨rfl, rfl, rfl, rfl, rfl, rfl, rfl, rfl⟩

end Proposal

namespace BoundedReasoningEngine

lemma relationId_length (hhex : HexDigests py) (edge : RelationEdge py) :
    edge.relationId.length = 64 := hhex.length _

lemma premiseId_eq (hhex : HexDigests py) (edge : RelationEdge py) (other : String) :
    premiseId edge other = edge.relationId := by
  refine if_neg fun hempty => ?_
  have hlength := relationId_length hhex edge
  rw [hempty] at hlength
  cases hlength

lemma ne_empty_of_length_pos {s : String} (h : 0 < s.length) : s ≠ "" := by
  rintro rfl
  cases h

/-- A contradiction can be turned round. -/
lemma reversed_sound (hhex : HexDigests py) (h : Admitted edge) (anchor : Uuid) :
    (reversed edge anchor).Sound := by
  have hlength : (reversed edge anchor).reviewNote.length = 114 := by
    simp only [reversed, premiseId_eq hhex, String.length_append, relationId_length hhex]
    rfl
  constructor
  case evidence_ne => exact h.ne_nil
  case evidence_le => exact h.length_le
  case note_ne     => exact ne_empty_of_length_pos (hlength ▸ by decide)
  case note_le     => exact hlength ▸ by decide
  case not_self    => exact edge.not_self.symm
  case scope       => exact edge.same_partition.symm
  case follows     => exact edge.follows

end BoundedReasoningEngine

end CyberBrain.Reasoning
