import Mathlib.Data.Set.Function
import ContextRouter.SourceReadEvidenceBinding

open python

namespace context_router.source_read_evidence_binding

open source_read_observation source_read_evidence

/-- A non-empty text without surrogates. -/
def WellFormedText (value : Value) : Prop :=
  ∃ text : Str, value = .str text ∧ text ≠ [] ∧ ∀ c ∈ text, is_surrogate c.val = false

structure ValidRequest (request : ObservationRequest) : Prop where
  source_id : WellFormedText request.source_id
  source_version : WellFormedText request.source_version
  raw_payload : ∃ content, request.raw_payload = .bytes content

/-- The byte strings that are hashed for a request. -/
def hashed_messages (request : ObservationRequest) : List Bytes :=
  match encoded_fields (.inl request) with
  | some (source_id, source_version, raw_payload) =>
    [source_id, length_prefixed [source_id, source_version], raw_payload]
  | none => []

/-- The two requests hold the same three values. -/
structure Agrees (request request' : ObservationRequest) : Prop where
  source_id : request.source_id = request'.source_id
  source_version : request.source_version = request'.source_version
  raw_payload : request.raw_payload = request'.raw_payload

theorem Agrees.eq {request request' : ObservationRequest} (hagrees : Agrees request request') : request = request' := by
  obtain ⟨source_id, source_version, raw_payload⟩ := request
  obtain ⟨rfl, rfl, rfl⟩ := hagrees
  rfl

theorem wellFormedText_iff {value : Value} : WellFormedText value ↔ ∃ text, value = .str text ∧ Identifier text := by
  simp only [WellFormedText, Identifier, encode_utf8_isSome_iff]

theorem validRequest_iff {request : ObservationRequest} :
    ValidRequest request ↔ ∃ source_id source_version raw_payload,
      request = ⟨.str source_id, .str source_version, .bytes raw_payload⟩ ∧
        Identifier source_id ∧ Identifier source_version := by
  constructor
  · intro hvalid
    obtain ⟨source_id, hid, hidOk⟩ := wellFormedText_iff.mp hvalid.source_id
    obtain ⟨source_version, hversion, hversionOk⟩ := wellFormedText_iff.mp hvalid.source_version
    obtain ⟨raw_payload, hraw⟩ := hvalid.raw_payload
    exact ⟨source_id, source_version, raw_payload, by rw [← hid, ← hversion, ← hraw], hidOk, hversionOk⟩
  · rintro ⟨source_id, source_version, raw_payload, rfl, hid, hversion⟩
    exact ⟨wellFormedText_iff.mpr ⟨_, rfl, hid⟩, wellFormedText_iff.mpr ⟨_, rfl, hversion⟩, _, rfl⟩

/-- Evidence is derived exactly for valid requests. -/
theorem ValidRequest.of_derived {library : Library} {request : ObservationRequest} {evidence : SourceReadEvidence}
    (hderived : derive_evidence library (.inl request) = .EVIDENCED evidence) : ValidRequest request := by
  apply validRequest_iff.mpr
  have hvalid : validate_request (.inl request) = [] := by
    by_contra hinvalid
    rw [derive_evidence, observe_invalid library hinvalid] at hderived
    cases hderived
  obtain ⟨source_id, source_version, raw_payload, hrequest, hid, hversion⟩ := validate_request_eq_nil_iff.mp hvalid
  exact ⟨source_id, source_version, raw_payload, Sum.inl.inj hrequest, hid, hversion⟩

theorem read_four_eq_some_iff {evidence : SourceReadEvidence} {four : List Str} :
    read_four evidence = some four ↔ ∃ source_id identity binding payload,
      evidence = ⟨.str source_id, .str identity, .str binding, .str payload⟩ ∧
        four = [source_id, identity, binding, payload] := by
  obtain ⟨source_id, identity, binding, payload⟩ := evidence
  constructor
  · intro hread
    simp only [read_four] at hread
    split at hread
    case isFalse => cases hread
    case isTrue htexts =>
      simp only [List.all_cons, List.all_nil, Bool.and_true, Bool.and_eq_true, Option.isSome_iff_exists,
        Value.str?_eq_some_iff] at htexts
      obtain ⟨⟨source_id, rfl⟩, ⟨identity, rfl⟩, ⟨binding, rfl⟩, ⟨payload, rfl⟩⟩ := htexts
      exact ⟨source_id, identity, binding, payload, rfl, (Option.some.inj hread).symm⟩
  · rintro ⟨source_id, identity, binding, payload, heq, rfl⟩
    rw [heq]
    rfl

/-- Evidence is compared whole: four equal texts leave nothing else to differ. -/
theorem eq_of_read_four {evidence fresh_evidence : SourceReadEvidence} {supplied fresh : List Str}
    (hsupplied : read_four evidence = some supplied) (hfresh : read_four fresh_evidence = some fresh)
    (hequal : (supplied.zip fresh).all fun pair => pair.1 = pair.2) : evidence = fresh_evidence := by
  obtain ⟨_, _, _, _, rfl, rfl⟩ := read_four_eq_some_iff.mp hsupplied
  obtain ⟨_, _, _, _, rfl, rfl⟩ := read_four_eq_some_iff.mp hfresh
  simp only [List.zip_cons_cons, List.zip_nil_right, List.all_cons, List.all_nil, Bool.and_true, Bool.and_eq_true,
    decide_eq_true_eq] at hequal
  obtain ⟨rfl, rfl, rfl, rfl⟩ := hequal
  rfl

/-- Evidence matches a request exactly when it is what the request itself derives. -/
theorem verify_binding_matched_iff {library : Library} {request : ObservationRequest} {evidence : SourceReadEvidence} :
    verify_binding library (.inl ⟨.inl request, .inl evidence⟩) = .BINDING_MATCHED ↔
      derive_evidence library (.inl request) = .EVIDENCED evidence := by
  constructor
  · intro hmatched
    simp only [verify_binding] at hmatched
    cases hsupplied : read_four evidence with
    | none =>
      rw [hsupplied] at hmatched
      cases hmatched
    | some supplied =>
      cases hderived : derive_evidence library (.inl request) with
      | DATA_ERROR errors =>
        rw [hsupplied, hderived] at hmatched
        cases hmatched
      | EVIDENCED fresh_evidence =>
        cases hfresh : read_four fresh_evidence with
        | none =>
          simp only [hsupplied, hderived, hfresh] at hmatched
          cases hmatched
        | some fresh =>
          simp only [hsupplied, hderived, hfresh] at hmatched
          split at hmatched
          case isFalse => cases hmatched
          case isTrue hequal => rw [eq_of_read_four hsupplied hfresh hequal]
  · intro hderived
    obtain ⟨source_id, source_version, raw_payload, rfl, hid, hversion⟩ :=
      validRequest_iff.mp (.of_derived hderived)
    exact verify_binding_derived library raw_payload hid hversion hderived

theorem derive_evidence_hashes (library : Library) {source_id source_version : Str} (raw_payload : Bytes)
    (hid : Identifier source_id) (hversion : Identifier source_version) :
    ∃ id_bytes version_bytes, encode_utf8 source_id = some id_bytes ∧ encode_utf8 source_version = some version_bytes ∧
      hashed_messages ⟨.str source_id, .str source_version, .bytes raw_payload⟩ =
        [id_bytes, length_prefixed [id_bytes, version_bytes], raw_payload] ∧
      derive_evidence library (.inl ⟨.str source_id, .str source_version, .bytes raw_payload⟩) =
        .EVIDENCED ⟨.str source_id, .str (library.sha256 id_bytes),
          .str (library.sha256 (length_prefixed [id_bytes, version_bytes])), .str (library.sha256 raw_payload)⟩ := by
  obtain ⟨id_bytes, version_bytes, hidBytes, hversionBytes, hobserve⟩ := observe_valid library raw_payload hid hversion
  refine ⟨id_bytes, version_bytes, hidBytes, hversionBytes, ?_, ?_⟩
  · simp [hashed_messages, encoded_fields, Value.str?, Value.bytes?, hidBytes, hversionBytes]
  · rw [derive_evidence, hobserve]
    rfl

/-- Two requests derive the same evidence only if they hold the same values: the version
    is in the evidence only inside a digest, of a message that tells it apart. -/
theorem agrees_of_derived {library : Library} {request request' : ObservationRequest}
    (hinjective : Set.InjOn library.sha256 {message | message ∈ hashed_messages request ++ hashed_messages request'})
    {evidence : SourceReadEvidence} (hderived : derive_evidence library (.inl request) = .EVIDENCED evidence)
    (hderived' : derive_evidence library (.inl request') = .EVIDENCED evidence) : Agrees request request' := by
  obtain ⟨source_id, source_version, raw_payload, rfl, hid, hversion⟩ := validRequest_iff.mp (.of_derived hderived)
  obtain ⟨source_id', source_version', raw_payload', rfl, hid', hversion'⟩ :=
    validRequest_iff.mp (.of_derived hderived')
  obtain ⟨id_bytes, version_bytes, hidBytes, hversionBytes, hhashed, hfresh⟩ :=
    derive_evidence_hashes library raw_payload hid hversion
  obtain ⟨id_bytes', version_bytes', hidBytes', hversionBytes', hhashed', hfresh'⟩ :=
    derive_evidence_hashes library raw_payload' hid' hversion'
  have heq := (hfresh.symm.trans hderived).trans (hderived'.symm.trans hfresh')
  simp only [Derived.EVIDENCED.injEq, SourceReadEvidence.mk.injEq, Value.str.injEq] at heq
  obtain ⟨rfl, _, hbinding, hpayload⟩ := heq
  rw [hhashed, hhashed'] at hinjective
  have hmessage := hinjective (by simp) (by simp) hbinding
  have hraw := hinjective (by simp) (by simp) hpayload
  obtain ⟨_, hrest⟩ := length_prefixed_cons_inj hmessage
  obtain ⟨rfl, _⟩ := length_prefixed_cons_inj hrest
  obtain rfl := encode_utf8_inj hversionBytes hversionBytes'
  exact ⟨rfl, rfl, congrArg Value.bytes hraw⟩

/-- Evidence of a valid request binds to exactly the requests that hold the same three
    values, and evidence of any making to exactly the request that derives it. -/
theorem binding_exact (library : Library) (request : ObservationRequest) :
    (∀ request', ValidRequest request' →
      Set.InjOn library.sha256 {message | message ∈ hashed_messages request ++ hashed_messages request'} →
      ∃ evidence, derive_evidence library (.inl request') = .EVIDENCED evidence ∧
        (verify_binding library (.inl ⟨.inl request, .inl evidence⟩) = .BINDING_MATCHED ↔
          ValidRequest request ∧ Agrees request request')) ∧
    ∀ evidence : SourceReadEvidence,
      (verify_binding library (.inl ⟨.inl request, .inl evidence⟩) = .BINDING_MATCHED ↔
        ValidRequest request ∧ derive_evidence library (.inl request) = .EVIDENCED evidence ∧
          ∃ source_id identity binding payload : Str,
            evidence = ⟨.str source_id, .str identity, .str binding, .str payload⟩) ∧
      (verify_binding library (.inl ⟨.inl request, .inl evidence⟩) = .DATA_ERROR ↔
        ¬ (ValidRequest request ∧ derive_evidence library (.inl request) = .EVIDENCED evidence)) := by
  constructor
  · intro request' hvalid' hinjective
    obtain ⟨source_id, source_version, raw_payload, rfl, hid, hversion⟩ := validRequest_iff.mp hvalid'
    obtain ⟨_, _, _, hderived'⟩ := derive_evidence_valid library raw_payload hid hversion
    refine ⟨_, hderived', ?_⟩
    rw [verify_binding_matched_iff]
    constructor
    · intro hderived
      exact ⟨.of_derived hderived, agrees_of_derived hinjective hderived hderived'⟩
    · intro ⟨_, hagrees⟩
      rw [hagrees.eq]
      exact hderived'
  · intro evidence
    have hiff : ValidRequest request ∧ derive_evidence library (.inl request) = .EVIDENCED evidence ↔
        verify_binding library (.inl ⟨.inl request, .inl evidence⟩) = .BINDING_MATCHED := by
      rw [verify_binding_matched_iff]
      exact and_iff_right_of_imp .of_derived
    constructor
    · rw [← hiff]
      constructor
      · intro ⟨hvalid, hderived⟩
        obtain ⟨source_id, source_version, raw_payload, rfl, hid, hversion⟩ := validRequest_iff.mp hvalid
        obtain ⟨identity, binding, payload, hfresh⟩ := derive_evidence_valid library raw_payload hid hversion
        exact ⟨hvalid, hderived, source_id, identity, binding, payload,
          Derived.EVIDENCED.inj (hderived.symm.trans hfresh)⟩
      · exact fun ⟨hvalid, hderived, _⟩ => ⟨hvalid, hderived⟩
    · rw [hiff]
      cases verify_binding library (.inl ⟨.inl request, .inl evidence⟩) <;> simp

/-- The standard library on the inputs of the runs below. -/
def policy_library : Library where
  sha1 _ := []
  sha256 content :=
    if content = encode_ascii "docs/A.md" then
      "6fc50a6a4368f8720689a6f556481418a9ca314197d04ccb586ef0f7bb86b03f"
    else if content = encode_ascii "9:docs/A.md2:v1" then
      "7e0aedc24c07e88d9118c827390c73b781878977670d1457143cf2f4968ffdfd"
    else if content = encode_ascii "9:docs/A.md2:v2" then
      "119f931a4451337d5f409cc038744247d2b09adce787a73847672798affabe3e"
    else if content = encode_ascii "alpha" then
      "8ed3f6ad685b959ead7022518e1af76cd816f8e8ec7ccdda1ed4018e8f2223f8"
    else
      []
  json_scan _ := none
  b64decode _ := none
  quote text _ := text

def policy_read (source_version : Str) : ObservationRequest where
  source_id := .str "docs/A.md"
  source_version := .str source_version
  raw_payload := .bytes (encode_ascii "alpha")

/-- Evidence of one version does not bind to a read of the next one, though the bytes
    are the same. -/
theorem policy_read_v2_not_bound : ∃ evidence,
    derive_evidence policy_library (.inl (policy_read "v1")) = .EVIDENCED evidence ∧
      verify_binding policy_library (.inl ⟨.inl (policy_read "v2"), .inl evidence⟩) = .DATA_ERROR := by
  have hvalid : ValidRequest (policy_read "v1") :=
    validRequest_iff.mpr ⟨_, _, _, rfl, by decide +kernel, by decide +kernel⟩
  have hinjective : ∀ left ∈ hashed_messages (policy_read "v2") ++ hashed_messages (policy_read "v1"),
      ∀ right ∈ hashed_messages (policy_read "v2") ++ hashed_messages (policy_read "v1"),
        policy_library.sha256 left = policy_library.sha256 right → left = right := by
    decide +kernel
  obtain ⟨hexact, hany⟩ := binding_exact policy_library (policy_read "v2")
  obtain ⟨evidence, hderived, hiff⟩ := hexact (policy_read "v1") hvalid hinjective
  refine ⟨evidence, hderived, (hany evidence).2.mpr ?_⟩
  intro ⟨_, hfresh⟩
  obtain ⟨_, hagrees⟩ := hiff.mp (verify_binding_matched_iff.mpr hfresh)
  have hversion : Str.ofString "v2" = Str.ofString "v1" := Value.str.inj hagrees.source_version
  exact absurd hversion (by decide)

end context_router.source_read_evidence_binding
