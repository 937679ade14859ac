import ContextRouter.SourceReadEvidence

open python

namespace context_router.source_read_evidence_binding

open source_read_observation source_read_evidence

/-- Both fields may hold any value; `.inl` is an exact instance of the class that the
    field is meant for. -/
structure SourceReadEvidenceBindingRequest where
  observation_request : ObservationRequest ⊕ Value := .inr .none
  supplied_evidence : SourceReadEvidence ⊕ Value := .inr .none

inductive Binding where
  | BINDING_MATCHED
  | DATA_ERROR
deriving DecidableEq

/-- `_read_four`: the fields in the order of `_FIELDS`, if all of them are texts. -/
def read_four (evidence : SourceReadEvidence) : Option (List Str) :=
  let values := [evidence.source_id, evidence.source_identity_hash, evidence.source_version_binding_hash,
    evidence.raw_payload_hash]
  if values.all fun value => value.str?.isSome then some (values.filterMap Value.str?) else none

/-- The argument may be any value; `.inl` is an exact binding request. -/
def verify_binding (library : Library) : SourceReadEvidenceBindingRequest ⊕ Value → Binding
  | .inr _ => .DATA_ERROR
  | .inl request =>
    match request.supplied_evidence with
    | .inr _ => .DATA_ERROR
    | .inl supplied_evidence =>
      match read_four supplied_evidence with
      | none => .DATA_ERROR
      | some supplied =>
        match derive_evidence library request.observation_request with
        | .DATA_ERROR _ => .DATA_ERROR
        | .EVIDENCED fresh_evidence =>
          match read_four fresh_evidence with
          | none => .DATA_ERROR
          | some fresh =>
            if (supplied.zip fresh).all fun pair => pair.1 = pair.2 then .BINDING_MATCHED else .DATA_ERROR

/-- Evidence that was just derived matches its own request. -/
theorem verify_binding_derived (library : Library) {source_id source_version : Str} (raw_payload : Bytes)
    (hid : Identifier source_id) (hversion : Identifier source_version) {evidence : SourceReadEvidence}
    (hderived : derive_evidence library (.inl ⟨.str source_id, .str source_version, .bytes raw_payload⟩) =
      .EVIDENCED evidence) :
    verify_binding library
        (.inl ⟨.inl ⟨.str source_id, .str source_version, .bytes raw_payload⟩, .inl evidence⟩) = .BINDING_MATCHED := by
  obtain ⟨identity, binding, payload, hfresh⟩ := derive_evidence_valid library raw_payload hid hversion
  rw [hderived, Derived.EVIDENCED.injEq] at hfresh
  subst hfresh
  have hfour : read_four ⟨.str source_id, .str identity, .str binding, .str payload⟩ =
      some [source_id, identity, binding, payload] := rfl
  simp only [verify_binding, hfour, hderived]
  rw [if_pos (by simp)]

end context_router.source_read_evidence_binding
