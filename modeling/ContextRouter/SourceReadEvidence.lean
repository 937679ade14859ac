import ContextRouter.SourceReadObservation

open python

namespace context_router.source_read_evidence

open source_read_observation

/-- The fields are annotated in the source but not checked when evidence is built. -/
structure SourceReadEvidence where
  source_id : Value
  source_identity_hash : Value
  source_version_binding_hash : Value
  raw_payload_hash : Value

inductive Derived where
  | DATA_ERROR (errors : List Str)
  | EVIDENCED (evidence : SourceReadEvidence)

/-- The `source_id` of an observed request. -/
def source_id_of : ObservationRequest ⊕ Value → Value
  | .inl request => request.source_id
  | .inr _ => .none

def derive_evidence (library : Library) (request : ObservationRequest ⊕ Value) : Derived :=
  match observe library request with
  | .DATA_ERROR errors => .DATA_ERROR errors
  | .OBSERVED source_identity_hash source_version_binding_hash raw_payload_hash =>
    .EVIDENCED {
      source_id := source_id_of request
      source_identity_hash := .str source_identity_hash
      source_version_binding_hash := .str source_version_binding_hash
      raw_payload_hash := .str raw_payload_hash }

/-- Evidence carries the request's own `source_id` and three texts. -/
theorem derive_evidence_valid (library : Library) {source_id source_version : Str} (raw_payload : Bytes)
    (hid : Identifier source_id) (hversion : Identifier source_version) :
    ∃ identity binding payload,
      derive_evidence library (.inl ⟨.str source_id, .str source_version, .bytes raw_payload⟩) =
        .EVIDENCED ⟨.str source_id, .str identity, .str binding, .str payload⟩ := by
  obtain ⟨id_bytes, version_bytes, _, _, hobserve⟩ := observe_valid library raw_payload hid hversion
  exact ⟨_, _, _, by rw [derive_evidence, hobserve]; rfl⟩

end context_router.source_read_evidence
