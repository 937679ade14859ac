import ContextRouter.Python.Library

open python

namespace context_router.source_read_observation

structure ObservationRequest where
  source_id : Value := .none
  source_version : Value := .none
  raw_payload : Value := .none

/-- The checks of one text field of a request. -/
def text_errors (name : Str) (value : Value) : List Str :=
  match value.str? with
  | none => [name ++ Str.ofString " must be str, got " ++ value.type_name]
  | some text =>
    if text = [] then [name ++ Str.ofString " must not be empty"]
    else if encode_utf8 text = none then [name ++ Str.ofString " must be UTF-8 encodable"]
    else []

/-- The argument may be any value; `.inl` is an exact `ObservationRequest`. -/
def validate_request : ObservationRequest ⊕ Value → List Str
  | .inr other => [Str.ofString "request must be ObservationRequest, got " ++ other.type_name]
  | .inl request =>
    text_errors "source_id" request.source_id ++ text_errors "source_version" request.source_version ++
      (if request.raw_payload.bytes?.isSome then []
        else [Str.ofString "raw_payload must be bytes, got " ++ request.raw_payload.type_name])

/-- `_length_prefixed`. -/
def length_prefixed (parts : List Bytes) : Bytes :=
  parts.foldl (fun encoded part => encoded ++ encode_ascii (decimal part.length ++ Str.ofString ":") ++ part) []

inductive Observation where
  | DATA_ERROR (errors : List Str)
  | OBSERVED (source_identity_hash source_version_binding_hash raw_payload_hash : Str)

/-- The fields of a request that has passed validation, as bytes. -/
def encoded_fields : ObservationRequest ⊕ Value → Option (Bytes × Bytes × Bytes)
  | .inr _ => none
  | .inl request => do
    let source_id ← request.source_id.str?.bind encode_utf8
    let source_version ← request.source_version.str?.bind encode_utf8
    let raw_payload ← request.raw_payload.bytes?
    return (source_id, source_version, raw_payload)

def observe (library : Library) (request : ObservationRequest ⊕ Value) : Observation :=
  match validate_request request, encoded_fields request with
  | [], some (source_id_bytes, source_version_bytes, raw_payload) => .OBSERVED (library.sha256 source_id_bytes)
      (library.sha256 (length_prefixed [source_id_bytes, source_version_bytes])) (library.sha256 raw_payload)
  | errors, _ => .DATA_ERROR (sorted_set errors)

theorem text_errors_eq_nil_iff {name : Str} {value : Value} :
    text_errors name value = [] ↔ ∃ text, value = .str text ∧ Identifier text := by
  unfold text_errors Identifier
  cases htext : value.str? with
  | none =>
    simp only [List.cons_ne_nil, false_iff]
    rintro ⟨text, rfl, _⟩
    cases htext
  | some text =>
    rw [Value.str?_eq_some_iff] at htext
    subst htext
    simp only [Value.str.injEq, exists_eq_left']
    by_cases hempty : text = []
    · simp [hempty]
    · cases hencode : encode_utf8 text with
      | none => simp [hempty]
      | some content => simp [hempty]

/-- Validation passes exactly the requests whose fields are two identifiers and
    bytes. -/
theorem validate_request_eq_nil_iff {request : ObservationRequest ⊕ Value} :
    validate_request request = [] ↔ ∃ source_id source_version raw_payload,
      request = .inl ⟨.str source_id, .str source_version, .bytes raw_payload⟩ ∧
        Identifier source_id ∧ Identifier source_version := by
  cases request with
  | inr other => simp [validate_request]
  | inl request =>
    have hbytes : (if request.raw_payload.bytes?.isSome then ([] : List Str)
        else [Str.ofString "raw_payload must be bytes, got " ++ request.raw_payload.type_name]) = [] ↔
          ∃ raw_payload, request.raw_payload = .bytes raw_payload := by
      simp [Option.isSome_iff_exists]
    simp only [validate_request, List.append_eq_nil_iff, text_errors_eq_nil_iff, hbytes]
    constructor
    · rintro ⟨⟨⟨source_id, hid, hidOk⟩, source_version, hversion, hversionOk⟩, raw_payload, hraw⟩
      refine ⟨source_id, source_version, raw_payload, ?_, hidOk, hversionOk⟩
      rw [← hid, ← hversion, ← hraw]
    · rintro ⟨source_id, source_version, raw_payload, hrequest, hidOk, hversionOk⟩
      obtain rfl := Sum.inl.inj hrequest
      exact ⟨⟨⟨source_id, rfl, hidOk⟩, source_version, rfl, hversionOk⟩, raw_payload, rfl⟩

/-- A request is observed exactly when it passes validation. -/
theorem observe_valid (library : Library) {source_id source_version : Str} (raw_payload : Bytes)
    (hid : Identifier source_id) (hversion : Identifier source_version) :
    ∃ id_bytes version_bytes, encode_utf8 source_id = some id_bytes ∧ encode_utf8 source_version = some version_bytes ∧
      observe library (.inl ⟨.str source_id, .str source_version, .bytes raw_payload⟩) =
        .OBSERVED (library.sha256 id_bytes) (library.sha256 (length_prefixed [id_bytes, version_bytes]))
          (library.sha256 raw_payload) := by
  obtain ⟨id_bytes, hidBytes⟩ := Option.isSome_iff_exists.mp hid.2
  obtain ⟨version_bytes, hversionBytes⟩ := Option.isSome_iff_exists.mp hversion.2
  refine ⟨id_bytes, version_bytes, hidBytes, hversionBytes, ?_⟩
  have hvalid : validate_request (.inl ⟨.str source_id, .str source_version, .bytes raw_payload⟩) = [] :=
    validate_request_eq_nil_iff.mpr ⟨source_id, source_version, raw_payload, rfl, hid, hversion⟩
  have hfields : encoded_fields (.inl ⟨.str source_id, .str source_version, .bytes raw_payload⟩) =
      some (id_bytes, version_bytes, raw_payload) := by
    simp [encoded_fields, Value.str?, Value.bytes?, hidBytes, hversionBytes]
  rw [observe, hvalid, hfields]

theorem observe_invalid (library : Library) {request : ObservationRequest ⊕ Value}
    (hinvalid : validate_request request ≠ []) :
    observe library request = .DATA_ERROR (sorted_set (validate_request request)) := by
  unfold observe
  split
  · exact absurd ‹_› hinvalid
  · rfl

theorem length_prefixed_cons (part : Bytes) (parts : List Bytes) :
    length_prefixed (part :: parts) = numeral part.length ++ 0x3a :: (part ++ length_prefixed parts) := by
  have hcolon : encode_ascii (Str.ofString ":") = [0x3a] := by decide
  have hfold : ∀ parts : List Bytes, length_prefixed parts =
      (parts.map fun part => numeral part.length ++ 0x3a :: part).flatten := by
    intro parts
    have happend := @List.foldl_append_eq_append _ _ parts (fun part => numeral part.length ++ 0x3a :: part) []
    rw [List.nil_append] at happend
    rw [← happend, length_prefixed]
    apply List.foldl_ext
    intro encoded part _
    rw [encode_ascii_append, hcolon, numeral]
    simp
  rw [hfold, hfold, List.map_cons, List.flatten_cons, List.append_assoc, List.cons_append]

/-- The colon ends the length and the length ends the part. -/
theorem length_prefixed_cons_inj {part part' : Bytes} {parts parts' : List Bytes}
    (heq : length_prefixed (part :: parts) = length_prefixed (part' :: parts')) :
    part = part' ∧ length_prefixed parts = length_prefixed parts' := by
  rw [length_prefixed_cons, length_prefixed_cons] at heq
  obtain ⟨hlength, _, hrest⟩ := numeral_append_inj (by decide) (by decide) heq
  exact List.append_inj hrest hlength

end context_router.source_read_observation
