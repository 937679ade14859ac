import ContextRouter.SourceReadEvidenceBinding
import ContextRouter.SourceReadGate

open python

namespace context_router.source_read_acquisition_handoff

open source_read_observation source_read_evidence source_read_evidence_binding source_read_gate

structure AcquisitionRequest where
  declared_sources : Value := .tuple []
  mode : Value := .str "ALL"
  no_external_read : Value := .bool false

structure FetchedSource where
  source_id : Value
  source_version : Value
  raw_payload : Value

/-- What one call of a fetcher comes to. `.inl` is an exact `FetchedSource`. -/
inductive Fetched where
  | raised
  | returned (receipt : FetchedSource ⊕ Value)

/-- A fetcher may keep a state and answer each call as it likes. -/
abbrev Fetcher (σ : Type) := Str → σ → Fetched × σ

/-- The result dictionaries. DATA_ERROR and VERIFY belong to the stage `acquisition`,
    PASS to the stage `local_source_read_gate`. -/
inductive Acquisition where
  | DATA_ERROR
  | VERIFY
  | PASS (read_count : Nat)
deriving DecidableEq

/-- `_text`. -/
def text? (value : Value) : Option Str :=
  match value.str? with
  | none => none
  | some text => if Identifier text then some text else none

/-- The checks of the request: its distinct sources, its mode and its flag. -/
def checked_request (request : AcquisitionRequest) : Option (List Str × Str × Bool) :=
  match request.declared_sources, request.mode, request.no_external_read with
  | .tuple items, .str mode, .bool no_external_read =>
    let sources := items.filterMap text?
    if items ≠ [] ∧ sources.length = items.length ∧ sources.dedup.length = sources.length ∧ mode ∈ [ALL, ANY] then
      some (sources, mode, no_external_read)
    else
      none
  | _, _, _ => none

/-- The checks of one receipt, which end with binding its own evidence to it. -/
def receipt_ok (library : Library) (source : Str) : FetchedSource ⊕ Value → Bool
  | .inr _ => false
  | .inl receipt =>
    if (text? receipt.source_id).isNone ∨ receipt.source_id.str? ≠ some source ∨
        (text? receipt.source_version).isNone ∨ receipt.raw_payload.bytes?.isNone then
      false
    else
      let observation : ObservationRequest := ⟨receipt.source_id, receipt.source_version, receipt.raw_payload⟩
      match derive_evidence library (.inl observation) with
      | .DATA_ERROR _ => false
      | .EVIDENCED supplied => verify_binding library (.inl ⟨.inl observation, .inl supplied⟩) = .BINDING_MATCHED

variable {σ : Type}

/-- The loop over the declared sources. It ends early with a result, or with the
    sources that were read. -/
def acquire_sources (library : Library) (fetcher : Fetcher σ) (mode : Str) :
    List Str → List Str → Calls σ Str Fetched → (Acquisition ⊕ List Str) × Calls σ Str Fetched
  | [], completed, calls => (.inr completed, calls)
  | source :: rest, completed, calls =>
    match calls.call fetcher source with
    | (.raised, calls) => (.inl .VERIFY, calls)
    | (.returned receipt, calls) =>
      if ¬ receipt_ok library source receipt then (.inl .DATA_ERROR, calls)
      else if mode = ANY then (.inr (completed ++ [source]), calls)
      else acquire_sources library fetcher mode rest (completed ++ [source]) calls

/-- Both arguments may be any value: `.inl` is an exact `AcquisitionRequest`, and a
    fetcher that is not callable is `none`. -/
def acquire_declared_sources (library : Library) (request : AcquisitionRequest ⊕ Value)
    (fetcher : Option (Fetcher σ)) (calls : Calls σ Str Fetched) : Acquisition × Calls σ Str Fetched :=
  match request with
  | .inr _ => (.DATA_ERROR, calls)
  | .inl fields =>
    match checked_request fields, fetcher with
    | some (sources, mode, no_external_read), some fetcher =>
      if no_external_read then (.VERIFY, calls)
      else
        match acquire_sources library fetcher mode sources [] calls with
        | (.inl result, calls) => (result, calls)
        | (.inr completed, calls) =>
          match evaluate { declared_sources := sources, mode := mode, read_log := completed } with
          | .PASS _ _ _ => (.PASS completed.length, calls)
          | _ => (.DATA_ERROR, calls)
    | _, _ => (.DATA_ERROR, calls)

theorem text?_eq_some_iff {value : Value} {text : Str} :
    text? value = some text ↔ value = .str text ∧ Identifier text := by
  unfold text?
  cases hvalue : value.str? with
  | none =>
    simp only [reduceCtorEq, false_iff, not_and]
    rintro rfl
    cases hvalue
  | some actual =>
    rw [Value.str?_eq_some_iff] at hvalue
    subst hvalue
    by_cases hactual : Identifier actual
    · simp only [if_pos hactual, Option.some.injEq, Value.str.injEq]
      exact ⟨fun h => ⟨h, h ▸ hactual⟩, And.left⟩
    · simp only [if_neg hactual, reduceCtorEq, false_iff, Value.str.injEq]
      rintro ⟨rfl, htext⟩
      exact hactual htext

/-- A receipt is accepted exactly when it is a `FetchedSource` for the requested
    source with a usable version and bytes: the evidence that is derived from it
    always binds to it. -/
theorem receipt_ok_iff {library : Library} {source : Str} {receipt : FetchedSource ⊕ Value} :
    receipt_ok library source receipt = true ↔ ∃ source_version raw_payload,
      receipt = .inl ⟨.str source, .str source_version, .bytes raw_payload⟩ ∧
        Identifier source ∧ Identifier source_version := by
  cases receipt with
  | inr other => simp [receipt_ok]
  | inl receipt =>
    obtain ⟨source_id, version, payload⟩ := receipt
    constructor
    · intro haccepted
      simp only [receipt_ok] at haccepted
      split at haccepted
      · cases haccepted
      case isFalse hchecks =>
        simp only [not_or, Option.isNone_iff_eq_none, ne_eq, not_not, Value.str?_eq_some_iff] at hchecks
        obtain ⟨hid, hsource, hversion, hpayload⟩ := hchecks
        obtain ⟨text, htext⟩ := Option.ne_none_iff_exists'.mp hid
        obtain ⟨source_version, hversionText⟩ := Option.ne_none_iff_exists'.mp hversion
        obtain ⟨raw_payload, hraw⟩ := Option.ne_none_iff_exists'.mp hpayload
        obtain ⟨rfl, hidOk⟩ := text?_eq_some_iff.mp htext
        obtain ⟨rfl, hversionOk⟩ := text?_eq_some_iff.mp hversionText
        obtain rfl := Value.bytes?_eq_some_iff.mp hraw
        obtain rfl := Value.str.inj hsource
        exact ⟨source_version, raw_payload, rfl, hidOk, hversionOk⟩
    · rintro ⟨source_version, raw_payload, hreceipt, hid, hversion⟩
      obtain ⟨rfl, rfl, rfl⟩ := by simpa using hreceipt
      obtain ⟨identity, binding, digest, hderived⟩ := derive_evidence_valid library raw_payload hid hversion
      have hbound := verify_binding_derived library raw_payload hid hversion hderived
      have hidText : text? (.str source) = some source := text?_eq_some_iff.mpr ⟨rfl, hid⟩
      have hversionText : text? (.str source_version) = some source_version := text?_eq_some_iff.mpr ⟨rfl, hversion⟩
      simp only [receipt_ok, hidText, hversionText, hderived, hbound]
      simp [Value.str?, Value.bytes?]

end context_router.source_read_acquisition_handoff
