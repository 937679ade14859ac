import ContextRouter.SourceReadAcquisitionHandoff
import ContextRouter.SourceReadGate.States

open python

namespace context_router.source_read_acquisition_handoff

open source_read_observation source_read_gate

/-- A request that may be acted on: distinct identifiers, a known mode and a flag. -/
structure Declares (request : AcquisitionRequest ⊕ Value) (sources : List Str) (mode : Str)
    (no_external_read : Bool) : Prop where
  request_eq : request = .inl ⟨.tuple (sources.map .str), .str mode, .bool no_external_read⟩
  nonempty : sources ≠ []
  identifiers : ∀ source ∈ sources, Identifier source
  distinct : sources.Nodup
  valid_mode : mode = ALL ∨ mode = ANY

theorem Declares.unique {request : AcquisitionRequest ⊕ Value} {sources sources' : List Str} {mode mode' : Str}
    {no_external_read no_external_read' : Bool} (hdeclares : Declares request sources mode no_external_read)
    (hdeclares' : Declares request sources' mode' no_external_read') :
    sources = sources' ∧ mode = mode' ∧ no_external_read = no_external_read' := by
  have heq := hdeclares.request_eq.symm.trans hdeclares'.request_eq
  simp only [Sum.inl.injEq, AcquisitionRequest.mk.injEq, Value.tuple.injEq, Value.str.injEq, Value.bool.injEq] at heq
  exact ⟨List.map_injective_iff.mpr (fun _ _ => Value.str.inj) heq.1, heq.2.1, heq.2.2⟩

/-- The answer is a `FetchedSource` for the requested source, with a version that can be
    encoded and with bytes. -/
def ValidReceipt (source : Str) (answer : Fetched) : Prop :=
  ∃ source_version raw_payload, answer = .returned (.inl ⟨.str source, .str source_version, .bytes raw_payload⟩) ∧
    Identifier source_version

/-- The result of a run that ends with an answer that is not a valid receipt. -/
def failure : Fetched → Acquisition
  | .raised => .VERIFY
  | .returned _ => .DATA_ERROR

/-- The calls of one run over a list of sources, each with its answer, and the result
    with which the run ends early, if it does. -/
inductive Reads (mode : Str) : List Str → List (Str × Fetched) → Option Acquisition → Prop where
  | done : Reads mode [] [] none
  | failed {source answer rest} (hinvalid : ¬ ValidReceipt source answer) :
      Reads mode (source :: rest) [(source, answer)] (some (failure answer))
  | found {source answer rest} (hmode : mode = ANY) (hvalid : ValidReceipt source answer) :
      Reads mode (source :: rest) [(source, answer)] none
  | next {source answer rest made result} (hmode : mode ≠ ANY) (hvalid : ValidReceipt source answer)
      (hrest : Reads mode rest made result) : Reads mode (source :: rest) ((source, answer) :: made) result

theorem map_str_filterMap {items : List Value} (htexts : (items.filterMap text?).length = items.length) :
    items = (items.filterMap text?).map .str ∧ ∀ text ∈ items.filterMap text?, Identifier text := by
  constructor
  · exact (map_filterMap_of_length (fun _ _ htext => (text?_eq_some_iff.mp htext).1) htexts).symm
  · intro text hmem
    obtain ⟨item, _, htext⟩ := List.mem_filterMap.mp hmem
    exact (text?_eq_some_iff.mp htext).2

theorem filterMap_map_str {sources : List Str} (hidentifiers : ∀ source ∈ sources, Identifier source) :
    (sources.map Value.str).filterMap text? = sources :=
  filterMap_map_of_forall fun source hsource => text?_eq_some_iff.mpr ⟨rfl, hidentifiers source hsource⟩

/-- The checks of the request accept exactly the requests that may be acted on. -/
theorem checked_request_eq_some_iff {fields : AcquisitionRequest} {sources : List Str} {mode : Str}
    {no_external_read : Bool} :
    checked_request fields = some (sources, mode, no_external_read) ↔
      Declares (.inl fields) sources mode no_external_read := by
  obtain ⟨declared_sources, mode_value, flag⟩ := fields
  constructor
  · intro hchecked
    unfold checked_request at hchecked
    split at hchecked
    case h_2 => cases hchecked
    case h_1 items mode_text flag_value hsources hmode hflag =>
      simp only at hsources hmode hflag
      subst hsources hmode hflag
      dsimp only at hchecked
      split at hchecked
      case isFalse => cases hchecked
      case isTrue hchecks =>
        obtain ⟨hne, hlength, hdistinct, hmode⟩ := hchecks
        obtain ⟨rfl, rfl, rfl⟩ := by simpa using hchecked
        obtain ⟨hitems, hidentifiers⟩ := map_str_filterMap hlength
        refine ⟨by rw [← hitems], ?_, hidentifiers, dedup_length_eq_iff.mp hdistinct, by simpa using hmode⟩
        intro hempty
        rw [hempty] at hitems
        exact hne hitems
  · intro hdeclares
    obtain ⟨rfl, rfl, rfl⟩ := by simpa using hdeclares.request_eq
    have hmode : mode ∈ [ALL, ANY] := by simpa using hdeclares.valid_mode
    simp only [checked_request, filterMap_map_str hdeclares.identifiers]
    rw [if_pos]
    exact ⟨by simpa using hdeclares.nonempty, by simp, dedup_length_eq_iff.mpr hdeclares.distinct, hmode⟩

theorem receipt_ok_iff_valid {library : Library} {source : Str} (hsource : Identifier source)
    {receipt : FetchedSource ⊕ Value} :
    receipt_ok library source receipt = true ↔ ValidReceipt source (.returned receipt) := by
  rw [receipt_ok_iff, ValidReceipt]
  apply exists_congr
  intro source_version
  apply exists_congr
  intro raw_payload
  rw [Fetched.returned.injEq]
  exact and_congr_right fun _ => and_iff_right hsource

theorem not_validReceipt_raised {source : Str} : ¬ ValidReceipt source .raised := by
  intro ⟨_, _, hreturned, _⟩
  cases hreturned

namespace Reads

variable {mode : Str} {sources : List Str} {made : List (Str × Fetched)} {result : Option Acquisition}

theorem in_declared_order (hreads : Reads mode sources made result) : made.map Prod.fst <+: sources := by
  induction hreads with
  | done => exact List.nil_prefix
  | failed hinvalid => exact ⟨_, rfl⟩
  | found hmode hvalid => exact ⟨_, rfl⟩
  | next hmode hvalid hrest ih => exact List.cons_prefix_cons.mpr ⟨rfl, ih⟩

theorem made_ne_nil (hreads : Reads mode sources made result) (hne : sources ≠ []) : made ≠ [] := by
  cases hreads with
  | done => exact absurd rfl hne
  | failed hinvalid => exact List.cons_ne_nil _ _
  | found hmode hvalid => exact List.cons_ne_nil _ _
  | next hmode hvalid hrest => exact List.cons_ne_nil _ _

/-- A run that does not end early got valid receipts only, and in ALL mode one for every
    source. -/
theorem completes (hreads : Reads mode sources made result) (hresult : result = none) :
    (∀ call ∈ made, ValidReceipt call.1 call.2) ∧ (mode ≠ ANY → made.map Prod.fst = sources) := by
  induction hreads with
  | done => simp
  | failed hinvalid => cases hresult
  | found hmode hvalid => exact ⟨by simpa using hvalid, fun h => absurd hmode h⟩
  | next hmode hvalid hrest ih =>
    obtain ⟨hall, hsources⟩ := ih hresult
    refine ⟨List.forall_mem_cons.mpr ⟨hvalid, hall⟩, fun _ => ?_⟩
    rw [List.map_cons, hsources hmode]

/-- A run that ends early does so at the first answer that is not a valid receipt. -/
theorem fails (hreads : Reads mode sources made result) {acquisition : Acquisition}
    (hresult : result = some acquisition) :
    ∃ valid source answer, made = valid ++ [(source, answer)] ∧ (∀ call ∈ valid, ValidReceipt call.1 call.2) ∧
      ¬ ValidReceipt source answer ∧ acquisition = failure answer := by
  induction hreads with
  | done => cases hresult
  | failed hinvalid => exact ⟨[], _, _, rfl, by simp, hinvalid, (Option.some.inj hresult).symm⟩
  | found hmode hvalid => cases hresult
  | next hmode hvalid hrest ih =>
    obtain ⟨valid, source, answer, rfl, hall, hinvalid, hfailure⟩ := ih hresult
    exact ⟨_ :: valid, source, answer, rfl, List.forall_mem_cons.mpr ⟨hvalid, hall⟩, hinvalid, hfailure⟩

/-- What a complete run has read meets the requirement. -/
theorem meets {request : AcquisitionRequest ⊕ Value} {no_external_read : Bool} (hreads : Reads mode sources made none)
    (hdeclares : Declares request sources mode no_external_read) :
    Requirement.MetBy ⟨sources, mode⟩ (made.map Prod.fst) := by
  refine ⟨by simpa [VALID_MODES] using hdeclares.valid_mode, hdeclares.distinct, ?_, ?_⟩
  · intro hall
    rw [(hreads.completes rfl).2 (hall.trans_ne ALL_ne_ANY)]
    exact fun source hmem => hmem
  · intro _
    obtain ⟨call, hcall⟩ := List.exists_mem_of_ne_nil made (hreads.made_ne_nil hdeclares.nonempty)
    have hread : call.1 ∈ made.map Prod.fst := List.mem_map_of_mem hcall
    exact ⟨call.1, hreads.in_declared_order.subset hread, hread⟩

/-- In ANY mode the first answer decides. -/
theorem of_any {source : Str} {rest : List Str} (hreads : Reads ANY (source :: rest) made result) :
    ∃ answer, made = [(source, answer)] ∧
      (ValidReceipt source answer ∧ result = none ∨ ¬ ValidReceipt source answer ∧ result = some (failure answer)) := by
  cases hreads with
  | failed hinvalid => exact ⟨_, rfl, Or.inr ⟨hinvalid, rfl⟩⟩
  | found hmode hvalid => exact ⟨_, rfl, Or.inl ⟨hvalid, rfl⟩⟩
  | next hmode hvalid hrest => exact absurd rfl hmode

end Reads

variable {σ : Type}

/-- The answers of a fetcher that is asked for all sources in order. -/
def sweep (fetcher : Fetcher σ) : List Str → σ → List (Str × Fetched)
  | [], _ => []
  | source :: rest, state =>
    let answer := fetcher source state
    (source, answer.1) :: sweep fetcher rest answer.2

/-- The loop makes the calls of one run and keeps the sources that it read. -/
theorem acquire_sources_reads (library : Library) (fetcher : Fetcher σ) (mode : Str) {sources : List Str}
    (hidentifiers : ∀ source ∈ sources, Identifier source) (completed : List Str) (calls : Calls σ Str Fetched) :
    ∃ made result, Reads mode sources made result ∧ made <+: sweep fetcher sources calls.state ∧
      calls.Made (acquire_sources library fetcher mode sources completed calls).2 made ∧
      Answers fetcher calls.state made (acquire_sources library fetcher mode sources completed calls).2.state ∧
      (acquire_sources library fetcher mode sources completed calls).1 =
        match result with
        | none => .inr (completed ++ made.map Prod.fst)
        | some result => .inl result := by
  induction sources generalizing completed calls with
  | nil => exact ⟨[], none, .done, List.nil_prefix, calls.made_none, .done, by simp [acquire_sources]⟩
  | cons source rest ih =>
    obtain ⟨hsource, hrest⟩ := List.forall_mem_cons.mp hidentifiers
    have hmade := calls.made_call fetcher source
    have hstate := calls.answers_call fetcher source
    have hsweep : sweep fetcher (source :: rest) calls.state =
        (source, (calls.call fetcher source).1) :: sweep fetcher rest (calls.call fetcher source).2.state := rfl
    rw [acquire_sources, hsweep]
    generalize calls.call fetcher source = answered at hmade hstate ⊢
    obtain ⟨answer, after⟩ := answered
    cases answer with
    | raised => exact ⟨_, _, .failed not_validReceipt_raised, ⟨_, rfl⟩, hmade, hstate, rfl⟩
    | returned receipt =>
      by_cases hok : receipt_ok library source receipt
      · have hvalid := (receipt_ok_iff_valid hsource).mp hok
        by_cases hmode : mode = ANY
        · refine ⟨_, _, .found hmode hvalid, ⟨_, rfl⟩, ?_⟩
          simp only [hok, not_true_eq_false, if_false, if_pos hmode]
          exact ⟨hmade, hstate, rfl⟩
        · obtain ⟨made, result, hreads, hanswers, hmore, hlater, hresult⟩ := ih hrest (completed ++ [source]) after
          refine ⟨_, _, .next hmode hvalid hreads, List.cons_prefix_cons.mpr ⟨rfl, hanswers⟩, ?_⟩
          simp only [hok, not_true_eq_false, if_false, if_neg hmode]
          refine ⟨hmade.trans hmore, hstate.trans hlater, ?_⟩
          rw [hresult]
          cases result with
          | none => simp
          | some result => rfl
      · refine ⟨_, _, .failed (mt (receipt_ok_iff_valid hsource).mpr hok), ⟨_, rfl⟩, ?_⟩
        simp only [hok, Bool.false_eq_true, not_false_eq_true, if_true]
        exact ⟨hmade, hstate, rfl⟩

/-- The gate passes a requirement that the reads meet. -/
theorem gate_passes {sources read_log : List Str} {mode : Str} (hne : sources ≠ [])
    (hmet : Requirement.MetBy ⟨sources, mode⟩ read_log) :
    ∃ required satisfied extra_reads,
      evaluate { declared_sources := sources, mode := mode, read_log := read_log } =
        .PASS required satisfied extra_reads := by
  have hrequirement : GateRequest.requirement? { declared_sources := sources, mode := mode, read_log := read_log } =
      some ⟨sources, mode⟩ := by
    rw [GateRequest.requirement?, if_pos hne]
  apply Outcome.exists_of_state_pass
  exact (evaluate_split _ hrequirement ⟨hmet.valid_mode, hmet.distinct⟩).pass_iff.mpr hmet

theorem acquire_declared_sources_reads (library : Library) {request : AcquisitionRequest ⊕ Value} {sources : List Str}
    {mode : Str} (hdeclares : Declares request sources mode false) (fetcher : Fetcher σ) (calls : Calls σ Str Fetched) :
    ∃ made result, Reads mode sources made result ∧ made <+: sweep fetcher sources calls.state ∧
      calls.Made (acquire_declared_sources library request (some fetcher) calls).2 made ∧
      Answers fetcher calls.state made (acquire_declared_sources library request (some fetcher) calls).2.state ∧
      (acquire_declared_sources library request (some fetcher) calls).1 = result.getD (.PASS made.length) := by
  obtain rfl := hdeclares.request_eq
  obtain ⟨made, result, hreads, hanswers, hmade, hstate, hresult⟩ :=
    acquire_sources_reads library fetcher mode hdeclares.identifiers [] calls
  refine ⟨made, result, hreads, hanswers, ?_⟩
  simp only [acquire_declared_sources, checked_request_eq_some_iff.mpr hdeclares, Bool.false_eq_true, if_false]
  generalize acquire_sources library fetcher mode sources [] calls = acquired at hmade hstate hresult ⊢
  obtain ⟨acquired, after⟩ := acquired
  simp only at hresult hmade hstate
  subst hresult
  cases result with
  | some result => exact ⟨hmade, hstate, rfl⟩
  | none =>
    obtain ⟨_, _, _, hgate⟩ := gate_passes hdeclares.nonempty (hreads.meets hdeclares)
    simp only [List.nil_append, hgate, List.length_map]
    exact ⟨hmade, hstate, rfl⟩

/-- A single source is acquired once its receipt is valid. -/
theorem acquire_single (library : Library) {request : AcquisitionRequest ⊕ Value} {source mode : Str}
    (hdeclares : Declares request [source] mode false) (fetcher : Fetcher σ) (calls : Calls σ Str Fetched)
    (hvalid : ValidReceipt source (fetcher source calls.state).1) :
    (acquire_declared_sources library request (some fetcher) calls).1 = .PASS 1 := by
  obtain ⟨made, result, hreads, hanswers, _, _, hresult⟩ :=
    acquire_declared_sources_reads library hdeclares fetcher calls
  rw [hresult]
  cases hreads with
  | failed hinvalid =>
    obtain ⟨heq, _⟩ := List.cons_prefix_cons.mp hanswers
    obtain ⟨_, rfl⟩ := Prod.mk.inj heq
    exact absurd hvalid hinvalid
  | found => rfl
  | next hmode hread hrest =>
    cases hrest
    rfl

/-- A request that may not be acted on is rejected before any call. -/
theorem acquire_declared_sources_rejected (library : Library) {request : AcquisitionRequest ⊕ Value}
    (hrejected : ∀ sources mode no_external_read, ¬ Declares request sources mode no_external_read)
    (fetcher : Option (Fetcher σ)) (calls : Calls σ Str Fetched) :
    acquire_declared_sources library request fetcher calls = (.DATA_ERROR, calls) := by
  cases request with
  | inr other => rfl
  | inl fields =>
    have hchecked : checked_request fields = none := by
      apply Option.eq_none_iff_forall_ne_some.mpr
      intro ⟨sources, mode, no_external_read⟩ hchecked
      exact hrejected _ _ _ (checked_request_eq_some_iff.mp hchecked)
    simp only [acquire_declared_sources, hchecked]

theorem acquire_declared_sources_forbidden (library : Library) {request : AcquisitionRequest ⊕ Value}
    {sources : List Str} {mode : Str} (hdeclares : Declares request sources mode true) (fetcher : Fetcher σ)
    (calls : Calls σ Str Fetched) :
    acquire_declared_sources library request (some fetcher) calls = (.VERIFY, calls) := by
  obtain rfl := hdeclares.request_eq
  simp only [acquire_declared_sources, checked_request_eq_some_iff.mpr hdeclares, if_true]

theorem Reads.up_to_first_invalid {sources : List Str} {made : List (Str × Fetched)} {result : Option Acquisition}
    (hreads : Reads ALL sources made result) :
    ∃ valid, (∀ call ∈ valid, ValidReceipt call.1 call.2) ∧
      (made = valid ∧ made.map Prod.fst = sources ∨
        ∃ source answer, made = valid ++ [(source, answer)] ∧ ¬ ValidReceipt source answer) := by
  cases result with
  | none =>
    obtain ⟨hall, hsources⟩ := hreads.completes rfl
    exact ⟨made, hall, Or.inl ⟨rfl, hsources ALL_ne_ANY⟩⟩
  | some acquisition =>
    obtain ⟨valid, source, answer, hmade, hall, hinvalid, _⟩ := hreads.fails rfl
    exact ⟨valid, hall, Or.inr ⟨source, answer, hmade, hinvalid⟩⟩

/-- The result of a run in ALL mode, told from its calls. -/
theorem Reads.result_iff {sources : List Str} {made : List (Str × Fetched)} {result : Option Acquisition}
    (hreads : Reads ALL sources made result) :
    (result.getD (.PASS made.length) = .PASS sources.length ↔ ∀ call ∈ made, ValidReceipt call.1 call.2) ∧
    (result.getD (.PASS made.length) = .VERIFY ↔ ∃ source, made.getLast? = some (source, .raised)) ∧
    (result.getD (.PASS made.length) = .DATA_ERROR ↔ ∃ source receipt,
      made.getLast? = some (source, .returned receipt) ∧ ¬ ValidReceipt source (.returned receipt)) := by
  cases result with
  | none =>
    obtain ⟨hall, hsources⟩ := hreads.completes rfl
    have hlength : made.length = sources.length := by rw [← hsources ALL_ne_ANY, List.length_map]
    have hlast : ∀ call, made.getLast? = some call → ValidReceipt call.1 call.2 :=
      fun call hcall => hall call (List.mem_of_getLast? hcall)
    simp only [Option.getD_none, hlength, reduceCtorEq, false_iff]
    refine ⟨iff_of_true trivial hall, ?_, ?_⟩
    · intro ⟨source, hraised⟩
      exact not_validReceipt_raised (hlast _ hraised)
    · intro ⟨source, receipt, hreturned, hinvalid⟩
      exact hinvalid (hlast _ hreturned)
  | some acquisition =>
    obtain ⟨valid, source, answer, rfl, hall, hinvalid, rfl⟩ := hreads.fails rfl
    have hbad : ¬ ∀ call ∈ valid ++ [(source, answer)], ValidReceipt call.1 call.2 := by
      intro h
      exact hinvalid (h (source, answer) (by simp))
    rw [Option.getD_some, List.getLast?_concat]
    cases answer with
    | raised =>
      refine ⟨iff_of_false (by simp [failure]) hbad, iff_of_true rfl ⟨source, rfl⟩, iff_of_false (by simp [failure]) ?_⟩
      intro ⟨_, _, hlast, _⟩
      cases hlast
    | returned receipt =>
      refine ⟨iff_of_false (by simp [failure]) hbad, iff_of_false (by simp [failure]) ?_,
        iff_of_true rfl ⟨source, receipt, rfl, hinvalid⟩⟩
      intro ⟨_, hlast⟩
      cases hlast

/-- An acquisition calls the fetcher for declared sources only, in their order and at
    most once each, and not at all for a request that is malformed or forbids reads. In
    ALL mode it goes on up to the first answer that is not a valid receipt, and its
    result tells how it ended. -/
theorem acquisition_calls (library : Library) (request : AcquisitionRequest ⊕ Value) (fetcher : Fetcher σ)
    (calls : Calls σ Str Fetched) : ∃ made,
      calls.Made (acquire_declared_sources library request (some fetcher) calls).2 made ∧
      ((∀ sources mode no_external_read, ¬ Declares request sources mode no_external_read) → made = []) ∧
      ∀ sources mode no_external_read, Declares request sources mode no_external_read →
        made <+: sweep fetcher sources calls.state ∧ made.map Prod.fst <+: sources ∧ (made.map Prod.fst).Nodup ∧
        (no_external_read = true → made = []) ∧
        (mode = ALL → no_external_read = false →
          (∃ valid, (∀ call ∈ valid, ValidReceipt call.1 call.2) ∧
            (made = valid ∧ made.map Prod.fst = sources ∨
              ∃ source answer, made = valid ++ [(source, answer)] ∧ ¬ ValidReceipt source answer)) ∧
          ((acquire_declared_sources library request (some fetcher) calls).1 = .PASS sources.length ↔
            ∀ call ∈ made, ValidReceipt call.1 call.2) ∧
          ((acquire_declared_sources library request (some fetcher) calls).1 = .VERIFY ↔
            ∃ source, made.getLast? = some (source, .raised)) ∧
          ((acquire_declared_sources library request (some fetcher) calls).1 = .DATA_ERROR ↔
            ∃ source receipt, made.getLast? = some (source, .returned receipt) ∧
              ¬ ValidReceipt source (.returned receipt))) := by
  by_cases hdeclares : ∃ sources mode no_external_read, Declares request sources mode no_external_read
  · obtain ⟨sources, mode, no_external_read, hdeclares⟩ := hdeclares
    cases no_external_read with
    | true =>
      rw [acquire_declared_sources_forbidden library hdeclares]
      refine ⟨[], calls.made_none, fun _ => rfl, ?_⟩
      intro sources' mode' no_external_read' hdeclares'
      obtain ⟨rfl, rfl, rfl⟩ := hdeclares.unique hdeclares'
      refine ⟨List.nil_prefix, List.nil_prefix, List.nodup_nil, fun _ => rfl, fun _ hread => ?_⟩
      cases hread
    | false =>
      obtain ⟨made, result, hreads, hanswers, hmade, _, hresult⟩ :=
        acquire_declared_sources_reads library hdeclares fetcher calls
      refine ⟨made, hmade, fun hrejected => absurd hdeclares (hrejected _ _ _), ?_⟩
      intro sources' mode' no_external_read' hdeclares'
      obtain ⟨rfl, rfl, rfl⟩ := hdeclares.unique hdeclares'
      have horder := hreads.in_declared_order
      refine ⟨hanswers, horder, hdeclares.distinct.sublist horder.sublist, fun hforbidden => ?_, ?_⟩
      · cases hforbidden
      · intro hmode _
        subst hmode
        rw [hresult]
        exact ⟨hreads.up_to_first_invalid, hreads.result_iff⟩
  · simp only [not_exists] at hdeclares
    refine ⟨[], ?_, fun _ => rfl, fun sources mode no_external_read h => absurd h (hdeclares _ _ _)⟩
    rw [acquire_declared_sources_rejected library hdeclares]
    exact calls.made_none

end context_router.source_read_acquisition_handoff
