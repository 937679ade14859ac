import ContextRouter.PinnedPublicDecisionPreflight.Content

open python

namespace context_router.pinned_public_decision_preflight

open minimal_resolver source_read_observation source_read_acquisition_handoff github_public_pinned_reader

variable {σ : Type}

/-- The text under `state`. -/
def Decision.state : Decision → Str
  | .DATA_ERROR => "DATA_ERROR"
  | .VERIFY => "VERIFY"
  | .RESOLVED _ _ => "RESOLVED"
  | .unresolved state => state

/-! ### The strict parse -/

theorem collect_pairs_of_distinct {pairs output : List (Str × Value)} (hdistinct : (pairs.map Prod.fst).Nodup)
    (hfresh : ∀ pair ∈ pairs, pair.1 ∉ output.map Prod.fst) :
    collect_pairs pairs output = some (pairs.foldl (fun output pair => setItem pair.1 pair.2 output) output) := by
  induction pairs generalizing output with
  | nil => rfl
  | cons pair rest ih =>
    obtain ⟨hnew, hrest⟩ := List.forall_mem_cons.mp hfresh
    rw [List.map_cons, List.nodup_cons] at hdistinct
    rw [collect_pairs, if_neg hnew, List.foldl_cons]
    apply ih hdistinct.2
    intro other hother hused
    rw [mem_keys_setItem] at hused
    obtain hsame | hold := hused
    · exact hdistinct.1 (hsame ▸ List.mem_map_of_mem hother)
    · exact hrest other hother hold

theorem decision_hooks_accept (pairs : List (Str × Value)) (hdistinct : (pairs.map Prod.fst).Nodup) :
    decision_hooks.object_pairs_hook pairs = some (.dict (Json.dict_of pairs)) := by
  have hcollect : collect_pairs pairs [] = some (Json.dict_of pairs) := collect_pairs_of_distinct hdistinct (by simp)
  simp only [decision_hooks, pairs_without_duplicates, hcollect, Option.map_some]

/-- The decision parser accepts exactly the JSON texts without a repeated key and without
    a constant, at any depth, and reads from them what a plain parser reads. -/
theorem json_loads_decision_iff {library : Library} {raw : Bytes} {value : Value} :
    library.json_loads_utf8 decision_hooks raw = some value ↔
      ∃ text json, decode_utf8 raw = some text ∧ library.json_scan text = some json ∧ json.NoDuplicateKeys ∧
        json.NoConstants ∧ json.load Json.default_hooks = some value := by
  simp only [Library.json_loads_utf8, Library.json_loads, Option.bind_eq_bind, Option.bind_eq_some_iff]
  constructor
  · rintro ⟨text, htext, json, hjson, hload⟩
    obtain ⟨hkeys, hdefault⟩ := Json.load_strict decision_hooks_strict json value hload
    have hconstants := Json.load_noConstants decision_hooks_strict.constant json value hload
    exact ⟨text, json, htext, hjson, hkeys, hconstants, hdefault⟩
  · rintro ⟨text, json, htext, hjson, hkeys, hconstants, hdefault⟩
    exact ⟨text, htext, json, hjson, Json.load_of_default decision_hooks_accept json value hkeys hconstants hdefault⟩

/-- The bytes are a strict JSON list of one to 256 valid records. -/
structure Snapshot (library : Library) (raw : Bytes) (records : List Value) : Prop where
  document : ∃ text json, decode_utf8 raw = some text ∧ library.json_scan text = some json ∧ json.NoDuplicateKeys ∧
    json.NoConstants ∧ json.load Json.default_hooks = some (.list records)
  length_ok : 0 < records.length ∧ records.length ≤ MAX_DECISIONS
  valid : ∀ record ∈ records, valid_record record

/-! ### The outcome of the resolver -/

/-- The plain resolver on the records of a snapshot, for the question of the request. -/
def resolve_records (request : TypedRequest σ) (records : List Value) : Except Raised (Resolution Value) :=
  resolve_current (records.map record_of) request.domain request.subject request.field request.as_of request.max_age

theorem decision_id_of_valid {record : Value} (hvalid : valid_record record) :
    ∃ decision_id, (record_of record).decision_id = some decision_id := by
  unfold valid_record at hvalid
  split at hvalid
  case h_2 => cases hvalid
  case h_1 scope hscope =>
    simp only [Bool.and_eq_true, is_text] at hvalid
    cases hid : (record.get? "decision_id").bind Value.str? with
    | none => simp [hid] at hvalid
    | some decision_id => exact ⟨decision_id, hid⟩

/-- A resolved record of valid records has its id, so every outcome is shown with its
    state. -/
theorem of_outcome_exact {request : TypedRequest σ} {records : List Value}
    (hvalid : ∀ record ∈ records, valid_record record) {outcome : Resolution Value}
    (hrun : resolve_records request records = .ok outcome) :
    (Decision.of_outcome outcome).Local ∧ (Decision.of_outcome outcome).state = outcome.state := by
  cases outcome with
  | UNKNOWN reason => exact ⟨rfl, rfl⟩
  | DATA_ERROR errors => exact ⟨rfl, rfl⟩
  | CONFLICT reason decision_ids => exact ⟨rfl, rfl⟩
  | VERIFY reason age_days record => exact ⟨rfl, rfl⟩
  | RESOLVED selected =>
    obtain ⟨as_of_date, hdate⟩ := date_of_resolved hrun
    obtain ⟨_, hheads, _⟩ := heads_of_selected hdate hrun rfl
    have hhead : selected ∈ heads as_of_date
        (scope_records (records.map record_of) (request.domain, request.subject, request.field)) := by
      simp [hheads]
    obtain ⟨record, hrecord, rfl⟩ := List.mem_map.mp (mem_scope_records.mp (mem_heads.mp hhead).1).1
    obtain ⟨decision_id, hid⟩ := decision_id_of_valid (hvalid record hrecord)
    simp only [Decision.of_outcome, hid]
    exact ⟨rfl, rfl⟩

/-- The records of a snapshot are decided as the plain resolver decides them. -/
theorem decide_records_of_snapshot {library : Library} {request : TypedRequest σ} {raw : Bytes} {records : List Value}
    (hsnapshot : Snapshot library raw records) {outcome : Resolution Value}
    (hrun : resolve_records request records = .ok outcome) :
    decide_records request (library.json_loads_utf8 decision_hooks raw) = .of_outcome outcome := by
  have hload := json_loads_decision_iff.mpr hsnapshot.document
  have hchecks : (0 < records.length ∧ records.length ≤ MAX_DECISIONS) ∧ ∀ record ∈ records, valid_record record :=
    ⟨hsnapshot.length_ok, hsnapshot.valid⟩
  unfold resolve_records at hrun
  simp only [decide_records, hload, if_pos hchecks, hrun]

/-- A local decision of bytes rests on a snapshot that the plain resolver decides. -/
theorem snapshot_of_local {library : Library} {request : TypedRequest σ} {raw : Bytes}
    (hlocal : (decide_records request (library.json_loads_utf8 decision_hooks raw)).Local) :
    ∃ records outcome, Snapshot library raw records ∧ resolve_records request records = .ok outcome := by
  unfold decide_records at hlocal
  split at hlocal
  case h_2 => exact absurd hlocal not_local_DATA_ERROR
  case h_1 records hload =>
    split at hlocal
    case isFalse => exact absurd hlocal not_local_DATA_ERROR
    case isTrue hchecks =>
      split at hlocal
      case h_2 => exact absurd hlocal not_local_DATA_ERROR
      case h_1 outcome hrun =>
        exact ⟨records, outcome, ⟨json_loads_decision_iff.mp hload, hchecks.1, hchecks.2⟩, hrun⟩

/-! ### The whole run -/

/-- All that a run needs to classify bytes: it reads, the answer carries bytes with the
    expected hash, these are a snapshot, and the plain resolver decides its records. -/
structure Classifies (library : Library) (request : PinnedPublicDecisionRequest σ) (before : Calls σ HttpRequest Answer)
    (outcome : Resolution Value) : Prop where
  run : ∃ typed path raw records, Reading request typed path ∧ Delivers library request before raw ∧
    library.git_blob_sha raw = typed.expected_blob ∧ Snapshot library raw records ∧
    resolve_records typed records = .ok outcome

theorem Classifies.decision {library : Library} {request : PinnedPublicDecisionRequest σ}
    {before : Calls σ HttpRequest Answer} {outcome : Resolution Value}
    (hclassifies : Classifies library request before outcome) :
    (resolve_pinned_public_decision library (.inl request) before).1 = .of_outcome outcome ∧
      (Decision.of_outcome outcome).Local ∧ (Decision.of_outcome outcome).state = outcome.state := by
  obtain ⟨typed, path, raw, records, hreading, hdelivers, hblob, hsnapshot, hrun⟩ := hclassifies.run
  refine ⟨?_, of_outcome_exact hsnapshot.valid hrun⟩
  rw [hreading.decision_of_delivers hdelivers hblob, decide_records_of_snapshot hsnapshot hrun]

theorem classifies_of_local {library : Library} {request : PinnedPublicDecisionRequest σ}
    {before : Calls σ HttpRequest Answer}
    (hlocal : (resolve_pinned_public_decision library (.inl request) before).1.Local) :
    ∃ outcome, Classifies library request before outcome := by
  obtain ⟨typed, path, raw, hreading, hdelivers, hblob⟩ := delivers_of_local hlocal
  rw [hreading.decision_of_delivers hdelivers hblob] at hlocal
  obtain ⟨records, outcome, hsnapshot, hrun⟩ := snapshot_of_local hlocal
  exact ⟨outcome, ⟨typed, path, raw, records, hreading, hdelivers, hblob, hsnapshot, hrun⟩⟩

theorem decide_records_ne_verify (request : TypedRequest σ) (loaded : Option Value) :
    decide_records request loaded ≠ .VERIFY := by
  have houtcome : ∀ outcome, Decision.of_outcome outcome ≠ .VERIFY := by
    intro outcome
    cases outcome with
    | RESOLVED record => cases hid : record.decision_id <;> simp [Decision.of_outcome, hid]
    | UNKNOWN reason => simp [Decision.of_outcome]
    | DATA_ERROR errors => simp [Decision.of_outcome]
    | CONFLICT reason decision_ids => simp [Decision.of_outcome]
    | VERIFY reason age_days record => simp [Decision.of_outcome]
  unfold decide_records
  split
  case h_2 => simp
  case h_1 =>
    split
    case isFalse => simp
    case isTrue =>
      split
      case h_2 => simp
      case h_1 => exact houtcome _

/-- A read that returns bytes is decided. -/
theorem Reading.verify_iff {request : PinnedPublicDecisionRequest σ} {typed : TypedRequest σ} {path : Str}
    (hreading : Reading request typed path) {library : Library} {before : Calls σ HttpRequest Answer} :
    (resolve_pinned_public_decision library (.inl request) before).1 = .VERIFY ↔
      answer_bytes library path (typed.reader.transport (typed.reader.http_request library path) before.state).1 =
        none := by
  have hcall : (typed.reader.transport (typed.reader.http_request library path) before.state).1 =
      (before.call typed.reader.transport (typed.reader.http_request library path)).1 := rfl
  rw [hreading.run_eq library before, hcall]
  cases hbytes : answer_bytes library path
      (before.call typed.reader.transport (typed.reader.http_request library path)).1 with
  | none => simp
  | some raw =>
    simp only [reduceCtorEq, iff_false]
    by_cases hblob : library.git_blob_sha raw = typed.expected_blob
    · rw [decide_receipt_of_blob hreading.ok (carries_of_answer_bytes hbytes).bounded hblob]
      exact decide_records_ne_verify typed _
    · rw [decide_receipt_of_other_blob hblob]
      simp

/-- A run stays undecided exactly when the request forbids the read or the read fails. -/
theorem verify_iff {library : Library} {request : PinnedPublicDecisionRequest σ} {before : Calls σ HttpRequest Answer} :
    (resolve_pinned_public_decision library (.inl request) before).1 = .VERIFY ↔
      (∃ typed, typed_request request = some typed ∧ typed.Ok ∧ typed.no_read = true) ∨
        ∃ typed path, Reading request typed path ∧
          answer_bytes library path (typed.reader.transport (typed.reader.http_request library path) before.state).1 =
            none := by
  constructor
  · intro hverify
    cases htyped : typed_request request with
    | none => simp [resolve_pinned_public_decision, htyped] at hverify
    | some typed =>
      by_cases hok : typed.Ok
      · cases hread : typed.no_read with
        | true => exact Or.inl ⟨typed, rfl, hok, hread⟩
        | false =>
          obtain ⟨path, hallowed⟩ := Option.isSome_iff_exists.mp hok.source_id_ok
          have hreading : Reading request typed path := ⟨htyped, hok, hallowed, hread⟩
          exact Or.inr ⟨typed, path, hreading, hreading.verify_iff.mp hverify⟩
      · simp [resolve_pinned_public_decision, htyped, hok] at hverify
  · rintro (⟨typed, htyped, hok, hread⟩ | ⟨typed, path, hreading, hbytes⟩)
    · simp [resolve_pinned_public_decision, htyped, hok, hread]
    · exact hreading.verify_iff.mpr hbytes

/-- The outcome of every run, for any transport. It is undecided exactly when the read is
    forbidden or fails; it classifies bytes exactly when these have the expected hash and
    are a strict snapshot that the plain resolver decides, and then it shows the state of
    the plain resolver on the records that a plain parser reads. Every other run is a
    DATA_ERROR. -/
theorem pinned_decision_exact (library : Library) (request : PinnedPublicDecisionRequest σ)
    (before : Calls σ HttpRequest Answer) :
    ((resolve_pinned_public_decision library (.inl request) before).1 = .VERIFY ↔
      (∃ typed, typed_request request = some typed ∧ typed.Ok ∧ typed.no_read = true) ∨
        ∃ typed path, Reading request typed path ∧
          answer_bytes library path (typed.reader.transport (typed.reader.http_request library path) before.state).1 =
            none) ∧
    ((resolve_pinned_public_decision library (.inl request) before).1.Local ↔
      ∃ outcome, Classifies library request before outcome) ∧
    ∀ outcome, Classifies library request before outcome →
      (resolve_pinned_public_decision library (.inl request) before).1 = .of_outcome outcome ∧
        (resolve_pinned_public_decision library (.inl request) before).1.state = outcome.state := by
  refine ⟨verify_iff, ⟨classifies_of_local, ?_⟩, ?_⟩
  · rintro ⟨outcome, hclassifies⟩
    obtain ⟨hdecision, hlocal, _⟩ := hclassifies.decision
    exact hdecision ▸ hlocal
  · intro outcome hclassifies
    obtain ⟨hdecision, _, hstate⟩ := hclassifies.decision
    exact ⟨hdecision, by rw [hdecision, hstate]⟩

end context_router.pinned_public_decision_preflight
