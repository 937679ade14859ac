import ContextRouter.MinimalResolver.Days
import ContextRouter.MinimalResolver.Malformed
import ContextRouter.PinnedPublicDecisionPreflight.Exact

open python

namespace context_router.pinned_public_decision_preflight

open minimal_resolver source_read_observation source_read_acquisition_handoff github_public_pinned_reader

variable {σ : Type}

/-- The checks of `as_of` pass exactly for the texts of dates. -/
theorem as_of_ok_iff {as_of : Str} :
    (fromisoformat as_of).map Date.isoformat = some as_of ↔ ∃ date : Date, as_of = date.isoformat := by
  constructor
  · intro has_of
    obtain ⟨date, hread, _⟩ := Option.map_eq_some_iff.mp has_of
    exact ⟨date, isoformat_of_fromisoformat hread⟩
  · intro ⟨date, hdate⟩
    rw [hdate, fromisoformat_isoformat, Option.map_some]

/-- The records of a snapshot that are about the decision point of the request. -/
def TypedRequest.scope (request : TypedRequest σ) (records : List Value) : List (Record Value) :=
  scope_records (records.map record_of) (request.domain, request.subject, request.field)

/-- What the records of a decision point come to on a day. The conditions exclude each
    other. -/
inductive DatedDecision (date : Date) (max_age : Int) (records : List (Record Value)) : Decision → Prop
  | raised {record : Record Value} (hmem : record ∈ records) (hbad : ¬ LinkDatesOk records record) :
    DatedDecision date max_age records .DATA_ERROR
  | invalid (hdates : ∀ record ∈ records, LinkDatesOk records record) (hinvalid : ¬ WellFormed records) :
    DatedDecision date max_age records (.unresolved "DATA_ERROR")
  | unknown (hwf : WellFormed records) (hnone : heads date records = []) :
    DatedDecision date max_age records (.unresolved "UNKNOWN")
  | conflict (hwf : WellFormed records) (hseveral : 1 < (heads date records).length) :
    DatedDecision date max_age records (.unresolved "CONFLICT")
  | verify {selected : Record Value} (hwf : WellFormed records) (hheads : heads date records = [selected])
    (hstale : ¬ VerifiedWithin max_age date selected) : DatedDecision date max_age records (.unresolved "VERIFY")
  | resolved {selected : Record Value} {decision_id : Str} (hwf : WellFormed records)
    (hheads : heads date records = [selected]) (hfresh : VerifiedWithin max_age date selected)
    (hid : selected.decision_id = some decision_id) :
    DatedDecision date max_age records (.RESOLVED decision_id (selected.value.getD .none))

theorem linkDatesOk_of_wellFormed {records : List (Record Value)} (hwf : WellFormed records) :
    ∀ record ∈ records, LinkDatesOk records record := by
  intro record hmem predecessor_id id predecessor _ _ hlast
  exact ⟨hwf.effective_from_ok predecessor (last_with_id_spec hlast).1, hwf.effective_from_ok record hmem⟩

/-- The records have one answer on a day. -/
theorem DatedDecision.unique {date : Date} {max_age : Int} {records : List (Record Value)}
    {decision decision' : Decision}
    (hanswer : DatedDecision date max_age records decision) (hanswer' : DatedDecision date max_age records decision') :
    decision = decision' := by
  cases hanswer with
  | raised hmem hbad =>
    cases hanswer' with
    | raised _ _ => rfl
    | invalid hdates _ => exact absurd (hdates _ hmem) hbad
    | unknown hwf _ | conflict hwf _ | verify hwf _ _ | resolved hwf _ _ _ =>
      exact absurd (linkDatesOk_of_wellFormed hwf _ hmem) hbad
  | invalid hdates hinvalid =>
    cases hanswer' with
    | raised hmem hbad => exact absurd (hdates _ hmem) hbad
    | invalid _ _ => rfl
    | unknown hwf _ | conflict hwf _ | verify hwf _ _ | resolved hwf _ _ _ => exact absurd hwf hinvalid
  | unknown hwf hnone =>
    cases hanswer' with
    | raised hmem hbad => exact absurd (linkDatesOk_of_wellFormed hwf _ hmem) hbad
    | invalid _ hinvalid => exact absurd hwf hinvalid
    | unknown _ _ => rfl
    | conflict _ hseveral => simp [hnone] at hseveral
    | verify _ hheads _ | resolved _ hheads _ _ => simp [hnone] at hheads
  | conflict hwf hseveral =>
    cases hanswer' with
    | raised hmem hbad => exact absurd (linkDatesOk_of_wellFormed hwf _ hmem) hbad
    | invalid _ hinvalid => exact absurd hwf hinvalid
    | unknown _ hnone => simp [hnone] at hseveral
    | conflict _ _ => rfl
    | verify _ hheads _ | resolved _ hheads _ _ => simp [hheads] at hseveral
  | verify hwf hheads hstale =>
    cases hanswer' with
    | raised hmem hbad => exact absurd (linkDatesOk_of_wellFormed hwf _ hmem) hbad
    | invalid _ hinvalid => exact absurd hwf hinvalid
    | unknown _ hnone => simp [hnone] at hheads
    | conflict _ hseveral => simp [hheads] at hseveral
    | verify _ _ _ => rfl
    | resolved _ hheads' hfresh _ =>
      obtain rfl := List.singleton_injective (hheads.symm.trans hheads')
      exact absurd hfresh hstale
  | resolved hwf hheads hfresh hid =>
    cases hanswer' with
    | raised hmem hbad => exact absurd (linkDatesOk_of_wellFormed hwf _ hmem) hbad
    | invalid _ hinvalid => exact absurd hwf hinvalid
    | unknown _ hnone => simp [hnone] at hheads
    | conflict _ hseveral => simp [hheads] at hseveral
    | verify _ hheads' hstale =>
      obtain rfl := List.singleton_injective (hheads.symm.trans hheads')
      exact absurd hfresh hstale
    | resolved _ hheads' _ hid' =>
      obtain rfl := List.singleton_injective (hheads.symm.trans hheads')
      obtain rfl := Option.some.inj (hid.symm.trans hid')
      rfl

/-- What the resolver returns on a dated question, shown as a decision, is the answer of
    the records of the decision point. -/
theorem answer_of_outcome {request : TypedRequest σ} {records : List Value} {date : Date} {outcome : Resolution Value}
    (hdate : parse_date request.as_of = .ok (some date)) (hvalid : ∀ record ∈ records, valid_record record)
    (hdates : ∀ record ∈ request.scope records, LinkDatesOk (request.scope records) record)
    (hrun : resolve_records request records = .ok outcome) :
    DatedDecision date request.max_age (request.scope records) (.of_outcome outcome) := by
  obtain ⟨hempty, rfl⟩ | ⟨hinvalid, errors, rfl⟩ | ⟨hwf, as_of_date, hparse, hclassify⟩ := resolve_current_cases hrun
  · have hnone : heads date (request.scope records) = [] := by
      rw [TypedRequest.scope, hempty]
      rfl
    have hwf : WellFormed (request.scope records) := by
      rw [TypedRequest.scope, hempty]
      exact validates_iff_wellFormed.mp rfl
    exact .unknown hwf hnone
  · exact .invalid hdates hinvalid
  · rw [hdate, Except.ok.injEq, Option.some.injEq] at hparse
    subst as_of_date
    obtain ⟨hnone, rfl⟩ | ⟨selected, hheads, hfresh⟩ | ⟨hseveral, rfl⟩ := classify_cases hclassify
    · exact .unknown hwf hnone
    · obtain ⟨rfl, hverified⟩ | ⟨⟨reason, age_days, rfl⟩, hstale⟩ := freshness_spec hfresh
      · have hhead : selected ∈ heads date (request.scope records) := by
          rw [TypedRequest.scope, hheads]
          exact List.mem_singleton_self selected
        obtain ⟨record, hrecord, rfl⟩ := List.mem_map.mp (mem_scope_records.mp (mem_heads.mp hhead).1).1
        obtain ⟨decision_id, hid⟩ := decision_id_of_valid (hvalid record hrecord)
        simp only [Decision.of_outcome, hid]
        exact .resolved hwf hheads hverified hid
      · exact .verify hwf hheads hstale
    · exact .conflict hwf hseveral

/-- A snapshot is always decided: only a malformed date in a relation keeps the resolver
    from returning. -/
theorem answer_of_snapshot {library : Library} {request : TypedRequest σ} {raw : Bytes} {records : List Value}
    {date : Date} (hdate : parse_date request.as_of = .ok (some date)) (hsnapshot : Snapshot library raw records) :
    DatedDecision date request.max_age (request.scope records)
      (decide_records request (library.json_loads_utf8 decision_hooks raw)) := by
  by_cases hdates : ∀ record ∈ request.scope records, LinkDatesOk (request.scope records) record
  · obtain ⟨errors, hvalidate⟩ := validate_registry_returns hdates
    obtain ⟨outcome, hrun⟩ := resolve_current_returns hdate hvalidate request.max_age
    rw [decide_records_of_snapshot hsnapshot hrun]
    exact answer_of_outcome hdate hsnapshot.valid hdates hrun
  · push Not at hdates
    obtain ⟨record, hmem, hbad⟩ := hdates
    have hload := json_loads_decision_iff.mpr hsnapshot.document
    have hchecks : (0 < records.length ∧ records.length ≤ MAX_DECISIONS) ∧ ∀ record ∈ records, valid_record record :=
      ⟨hsnapshot.length_ok, hsnapshot.valid⟩
    have hraises := resolve_current_raises (validate_registry_raises hmem hbad) request.as_of request.max_age
    simp only [decide_records, hload, if_pos hchecks, hraises]
    exact .raised hmem hbad

/-- The whole path from the bytes to the decision. The checks of `as_of` pass exactly for
    the texts of dates; a request that reads asks about the day whose text its `as_of` is,
    for which the two date parsers agree. When the answer carries
    a snapshot with the expected hash, the decision is the one answer that the records of
    the decision point have on that day. -/
theorem snapshot_answered_on_its_day {library : Library} {request : PinnedPublicDecisionRequest σ}
    {typed : TypedRequest σ} {path : Str} {before : Calls σ HttpRequest Answer} {raw : Bytes} {records : List Value}
    (hreading : Reading request typed path) (hdelivers : Delivers library request before raw)
    (hblob : library.git_blob_sha raw = typed.expected_blob) (hsnapshot : Snapshot library raw records) :
    (∀ text : Str, (fromisoformat text).map Date.isoformat = some text ↔ ∃ date : Date, text = date.isoformat) ∧
    ∃ date : Date, typed.as_of = date.isoformat ∧ fromisoformat typed.as_of = some date ∧
      strptime typed.as_of = some date ∧ ∀ decision,
        (resolve_pinned_public_decision library (.inl request) before).1 = decision ↔
          DatedDecision date typed.max_age (typed.scope records) decision := by
  obtain ⟨date, has_of⟩ := as_of_ok_iff.mp hreading.ok.as_of_ok
  have hread := fromisoformat_eq_some_iff.mpr has_of
  have hdate : parse_date typed.as_of = .ok (some date) := by
    rw [has_of]
    exact parse_date_isoformat date
  have hanswer := answer_of_snapshot hdate hsnapshot
  rw [← hreading.decision_of_delivers hdelivers hblob] at hanswer
  refine ⟨fun text => as_of_ok_iff, date, has_of, hread, strptime_of_fromisoformat hread, ?_⟩
  intro decision
  constructor
  · rintro rfl
    exact hanswer
  · exact hanswer.unique

/-- The snapshot of one record is answered on the day of its question. -/
theorem snapshot_answered : ∃ (typed : TypedRequest Unit) (records : List Value) (date : Date),
    typed.as_of = date.isoformat ∧ DatedDecision date typed.max_age (typed.scope records)
      (resolve_pinned_public_decision snapshot_library (.inl snapshot_request) ⟨(), []⟩).1 := by
  have hstage : (resolve_pinned_public_decision snapshot_library (.inl snapshot_request) ⟨(), []⟩).1.stage =
      Str.ofString "local_public_snapshot_resolution" := by
    decide +kernel
  obtain ⟨typed, path, raw, hreading, hdelivers, hblob⟩ := delivers_of_local hstage
  have hdecision := hreading.decision_of_delivers hdelivers hblob
  obtain ⟨records, _, hsnapshot, _⟩ := snapshot_of_local (hdecision ▸ hstage)
  obtain ⟨_, date, has_of, _, _, hiff⟩ := snapshot_answered_on_its_day hreading hdelivers hblob hsnapshot
  exact ⟨typed, records, date, has_of, (hiff _).mp rfl⟩

end context_router.pinned_public_decision_preflight
