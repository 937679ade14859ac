import ContextRouter.GithubPublicPinnedReader
import ContextRouter.MinimalResolver.Current

open python

namespace context_router.pinned_public_decision_preflight

open minimal_resolver source_read_observation source_read_acquisition_handoff github_public_pinned_reader

def MAX_DECISIONS : Nat := 256
def MAX_JSON_BYTES : Nat := 131072

/-- The loop of `_pairs_without_duplicates`. -/
def collect_pairs : List (Str × Value) → List (Str × Value) → Option (List (Str × Value))
  | [], output => some output
  | (key, value) :: rest, output =>
    if key ∈ output.map Prod.fst then none else collect_pairs rest (setItem key value output)

/-- `_pairs_without_duplicates`. -/
def pairs_without_duplicates (pairs : List (Str × Value)) : Option Value :=
  (collect_pairs pairs []).map Value.dict

/-- The hooks of the decision parser; the second is `_reject_json_constant`. -/
def decision_hooks : Hooks where
  object_pairs_hook := pairs_without_duplicates
  parse_constant _ := none

/-- A value that is a non-empty text. -/
def is_text (value : Option Value) : Bool :=
  match value.bind Value.str? with
  | some text => text ≠ []
  | none => false

/-- `_valid_record`. -/
def valid_record (record : Value) : Bool :=
  match record.get? "scope" with
  | some (.dict scope) =>
    is_text (record.get? "decision_id") && ((record.get? "status").bind Value.str?).isSome &&
      (["domain", "subject", "field"].all fun key => is_text ((Value.dict scope).get? (Str.ofString key))) &&
      ["effective_from", "last_verified", "supersedes"].all fun key =>
        match record.get? (Str.ofString key) with
        | none | some .none | some (.str _) => true
        | _ => false
  | _ => false

/-- A valid record with the entries that the resolver reads. `None` counts as a
    missing entry, as it does for `dict.get`. -/
def record_of (record : Value) : Record Value where
  decision_id := (record.get? "decision_id").bind Value.str?
  scope := (record.get? "scope").map fun scope =>
    ⟨(scope.get? "domain").bind Value.str?, (scope.get? "subject").bind Value.str?,
      (scope.get? "field").bind Value.str?⟩
  status := (record.get? "status").bind Value.str?
  effective_from := (record.get? "effective_from").bind Value.str?
  supersedes := (record.get? "supersedes").bind Value.str?
  last_verified := (record.get? "last_verified").bind Value.str?
  value := record.get? "value"

/-- The fields may hold any value; a reader that is `.inl` is an exact
    `PinnedPublicGitHubReader`. -/
structure PinnedPublicDecisionRequest (σ : Type) where
  reader : PinnedPublicGitHubReader σ ⊕ Value
  source_id : Value
  expected_blob_sha : Value
  domain : Value
  subject : Value
  field : Value
  as_of : Value
  verify_after_days : Value := .int 30
  no_external_read : Value := .bool false

/-- A request whose fields have the types that the first checks demand. -/
structure TypedRequest (σ : Type) where
  reader : PinnedPublicGitHubReader σ
  source_id : Str
  expected_blob : Str
  domain : Str
  subject : Str
  field : Str
  as_of : Str
  max_age : Int
  no_read : Bool

variable {σ : Type}

def typed_request (request : PinnedPublicDecisionRequest σ) : Option (TypedRequest σ) :=
  match request.reader, request.source_id, request.expected_blob_sha, request.domain, request.subject, request.field,
    request.as_of, request.verify_after_days, request.no_external_read with
  | .inl reader, .str source_id, .str expected_blob, .str domain, .str subject, .str field, .str as_of, .int max_age,
    .bool no_read => some ⟨reader, source_id, expected_blob, domain, subject, field, as_of, max_age, no_read⟩
  | _, _, _, _, _, _, _, _, _ => none

/-- The checks of a typed request. -/
structure TypedRequest.Ok (request : TypedRequest σ) : Prop where
  expected_blob_ok : is_sha request.expected_blob
  names_ok : ∀ name ∈ [request.domain, request.subject, request.field], name ≠ [] ∧ name.length ≤ 100
  as_of_ok : (fromisoformat request.as_of).map Date.isoformat = some request.as_of
  max_age_ok : 0 ≤ request.max_age ∧ request.max_age ≤ 3650
  source_id_ok : (request.reader.allowed_path request.source_id).isSome

instance (request : TypedRequest σ) : Decidable request.Ok :=
  decidable_of_iff (is_sha request.expected_blob ∧
      (∀ name ∈ [request.domain, request.subject, request.field], name ≠ [] ∧ name.length ≤ 100) ∧
      (fromisoformat request.as_of).map Date.isoformat = some request.as_of ∧
      (0 ≤ request.max_age ∧ request.max_age ≤ 3650) ∧ (request.reader.allowed_path request.source_id).isSome)
    ⟨fun ⟨hblob, hnames, has_of, hage, hsource⟩ => ⟨hblob, hnames, has_of, hage, hsource⟩,
      fun ⟨hblob, hnames, has_of, hage, hsource⟩ => ⟨hblob, hnames, has_of, hage, hsource⟩⟩

/-- The result dictionaries. The first two have the stage `public_snapshot`, the last
    two `local_public_snapshot_resolution`. -/
inductive Decision where
  | DATA_ERROR
  | VERIFY
  | RESOLVED (decision_id : Str) (value : Value)
  | unresolved (state : Str)

/-- The value under `decision_id`, if there is one. -/
def Decision.decision_id? : Decision → Option Str
  | .RESOLVED decision_id _ => some decision_id
  | _ => none

theorem Decision.decision_id?_eq_some_iff {decision : Decision} {decision_id : Str} :
    decision.decision_id? = some decision_id ↔ ∃ value, decision = .RESOLVED decision_id value := by
  cases decision <;> simp [Decision.decision_id?]

/-- The end of the function: what is shown of the resolver's outcome. -/
def Decision.of_outcome : Resolution Value → Decision
  | .RESOLVED record =>
    match record.decision_id with
    | some decision_id => .RESOLVED decision_id (record.value.getD .none)
    | none => .DATA_ERROR
  | outcome => .unresolved outcome.state

/-- The decision that the records of a snapshot give. -/
def decide_records (request : TypedRequest σ) : Option Value → Decision
  | some (.list records) =>
    if (0 < records.length ∧ records.length ≤ MAX_DECISIONS) ∧ ∀ record ∈ records, valid_record record then
      match resolve_current (records.map record_of) request.domain request.subject request.field request.as_of
        request.max_age with
      | .ok outcome => .of_outcome outcome
      | .error _ => .DATA_ERROR
    else
      .DATA_ERROR
  | _ => .DATA_ERROR

/-- The checks of the receipt, and the decision that its bytes give. The handoff is
    run on the same receipt, with a fetcher that calls nothing. -/
def decide_receipt (library : Library) (request : TypedRequest σ) (receipt : FetchedSource) : Decision :=
  if receipt.source_id.str? = some request.source_id ∧ receipt.source_version.str? = some request.reader.commit_sha then
    match receipt.raw_payload.bytes? with
    | none => .DATA_ERROR
    | some raw =>
      if raw.length ≤ MAX_JSON_BYTES ∧ library.git_blob_sha raw = request.expected_blob then
        let fetcher : Fetcher Unit := fun requested state =>
          (.returned (if requested = request.source_id then .inl receipt else .inr .none), state)
        let gate := acquire_declared_sources library (.inl { declared_sources := .tuple [.str request.source_id] })
          (some fetcher) ⟨(), []⟩
        if gate.1 = .PASS 1 then decide_records request (library.json_loads_utf8 decision_hooks raw) else .DATA_ERROR
      else
        .DATA_ERROR
  else
    .DATA_ERROR

/-- The argument may be any value; `.inl` is an exact `PinnedPublicDecisionRequest`. -/
def resolve_pinned_public_decision (library : Library) (request : PinnedPublicDecisionRequest σ ⊕ Value)
    (calls : Calls σ HttpRequest Answer) : Decision × Calls σ HttpRequest Answer :=
  match request with
  | .inr _ => (.DATA_ERROR, calls)
  | .inl fields =>
    match typed_request fields with
    | none => (.DATA_ERROR, calls)
    | some typed =>
      if ¬ typed.Ok then (.DATA_ERROR, calls)
      else if typed.no_read then (.VERIFY, calls)
      else
        match typed.reader.call library fields.source_id calls with
        | (none, calls) => (.VERIFY, calls)
        | (some receipt, calls) => (decide_receipt library typed receipt, calls)

/-! ### The bytes that a decision rests on -/

theorem collect_pairs_spec {pairs output result : List (Str × Value)}
    (hcollect : collect_pairs pairs output = some result) :
    (∀ pair ∈ pairs, pair.1 ∉ output.map Prod.fst) ∧ (pairs.map Prod.fst).Nodup ∧
      result = pairs.foldl (fun output pair => setItem pair.1 pair.2 output) output := by
  induction pairs generalizing output with
  | nil =>
    simp only [collect_pairs, Option.some.injEq] at hcollect
    simp [hcollect]
  | cons pair rest ih =>
    simp only [collect_pairs] at hcollect
    split at hcollect
    case isTrue => cases hcollect
    case isFalse hfresh =>
      obtain ⟨hkeys, hdistinct, rfl⟩ := ih hcollect
      have hsplit : ∀ other ∈ rest, other.1 ≠ pair.1 ∧ other.1 ∉ output.map Prod.fst := by
        intro other hother
        have hnot := hkeys other hother
        rw [mem_keys_setItem, not_or] at hnot
        exact hnot
      refine ⟨?_, ?_, rfl⟩
      · rw [List.forall_mem_cons]
        exact ⟨hfresh, fun other hother => (hsplit other hother).2⟩
      · rw [List.map_cons, List.nodup_cons]
        refine ⟨?_, hdistinct⟩
        intro hmem
        obtain ⟨other, hother, hsame⟩ := List.mem_map.mp hmem
        exact (hsplit other hother).1 hsame

/-- The hooks of the decision parser accept no repeated key and no constant. -/
theorem decision_hooks_strict : Json.Strict decision_hooks where
  pairs := by
    intro pairs value hhook
    simp only [decision_hooks, pairs_without_duplicates, Option.map_eq_some_iff] at hhook
    obtain ⟨output, hcollect, rfl⟩ := hhook
    obtain ⟨_, hdistinct, rfl⟩ := collect_pairs_spec hcollect
    exact ⟨hdistinct, rfl⟩
  constant _ := rfl

/-- The record at one position is the one current record of a scope in a snapshot. -/
structure OnlyCurrent (as_of_date : Date) (records : List Value) (scope : Str × Str × Str) (position : Nat)
    (record : Value) : Prop where
  at_position : records[position]? = some record
  in_scope : scope_key (record_of record) = scope
  current : Current as_of_date (scope_records (records.map record_of) scope) (record_of record)
  only : ∀ (other_position : Nat) other, records[other_position]? = some other →
    scope_key (record_of other) = scope →
      Current as_of_date (scope_records (records.map record_of) scope) (record_of other) → other_position = position

theorem only_current_of_heads {as_of_date : Date} {records : List Value} {scope : Str × Str × Str}
    {selected : Record Value} (hheads : heads as_of_date (scope_records (records.map record_of) scope) = [selected]) :
    ∃ position record, OnlyCurrent as_of_date records scope position record ∧ selected = record_of record := by
  have hsame : heads as_of_date (scope_records (records.map record_of) scope) =
      (records.filter fun record => scope_key (record_of record) = scope ∧
        Current as_of_date (scope_records (records.map record_of) scope) (record_of record)).map record_of := by
    rw [heads_eq_filter]
    conv_lhs => rw [scope_records]
    rw [List.filter_filter, List.filter_map]
    congr 1
    apply List.filter_congr
    intro record _
    by_cases hscope : scope_key (record_of record) = scope
    · simp [scope_records, hscope]
    · simp [hscope]
  rw [hsame, List.map_eq_singleton_iff] at hheads
  obtain ⟨record, hfilter, rfl⟩ := hheads
  obtain ⟨position, hposition, hkeep, honly⟩ := digraph.filter_eq_singleton_iff.mp hfilter
  simp only [decide_eq_true_eq] at hkeep honly
  refine ⟨position, record, ⟨hposition, hkeep.1, hkeep.2, ?_⟩, rfl⟩
  intro other_position other hother hscope hcurrent
  exact honly other_position other hother ⟨hscope, hcurrent⟩

/-- What a resolved decision says about the bytes of the one response. -/
structure Grounded (library : Library) (request : TypedRequest σ) (raw : Bytes) (decision_id : Str) (value : Value) :
    Prop where
  blob : library.git_blob_sha raw = request.expected_blob
  snapshot : ∃ text json records as_of_date position record,
    decode_utf8 raw = some text ∧ library.json_scan text = some json ∧ json.NoDuplicateKeys ∧
      json.load Json.default_hooks = some (.list records) ∧ (1 ≤ records.length ∧ records.length ≤ 256) ∧
      (∀ record ∈ records, valid_record record) ∧ parse_date request.as_of = .ok (some as_of_date) ∧
      OnlyCurrent as_of_date records (request.domain, request.subject, request.field) position record ∧
      VerifiedWithin request.max_age as_of_date (record_of record) ∧
      record.get? "decision_id" = some (.str decision_id) ∧ (record.get? "value").getD .none = value

theorem resolved_of_outcome {outcome : Resolution Value} {decision_id : Str} {value : Value}
    (hresolved : Decision.of_outcome outcome = .RESOLVED decision_id value) :
    ∃ selected, outcome = .RESOLVED selected ∧ selected.decision_id = some decision_id ∧
      selected.value.getD .none = value := by
  cases outcome with
  | RESOLVED selected =>
    cases hid : selected.decision_id with
    | none => simp [Decision.of_outcome, hid] at hresolved
    | some actual =>
      simp only [Decision.of_outcome, hid, Decision.RESOLVED.injEq] at hresolved
      exact ⟨selected, rfl, by rw [hid, hresolved.1], hresolved.2⟩
  | UNKNOWN reason => cases hresolved
  | DATA_ERROR errors => cases hresolved
  | CONFLICT reason decision_ids => cases hresolved
  | VERIFY reason age_days record => cases hresolved

theorem date_of_resolved {records : List (Record Value)} {domain subject field as_of : Str} {verify_after_days : Int}
    {selected : Record Value}
    (hrun : resolve_current records domain subject field as_of verify_after_days = .ok (.RESOLVED selected)) :
    ∃ as_of_date, parse_date as_of = .ok (some as_of_date) := by
  obtain ⟨_, hunknown⟩ | ⟨_, errors, herrors⟩ | ⟨_, as_of_date, hdate, _⟩ := resolve_current_cases hrun
  · cases hunknown
  · cases herrors
  · exact ⟨as_of_date, hdate⟩

theorem grounded_of_decide_records {library : Library} {request : TypedRequest σ} {raw : Bytes} {decision_id : Str}
    {value : Value} (hblob : library.git_blob_sha raw = request.expected_blob)
    (hresolved : decide_records request (library.json_loads_utf8 decision_hooks raw) = .RESOLVED decision_id value) :
    Grounded library request raw decision_id value := by
  unfold decide_records at hresolved
  split at hresolved
  case h_2 => cases hresolved
  case h_1 records hloads =>
    simp only [Library.json_loads_utf8, Library.json_loads, Option.bind_eq_bind, Option.bind_eq_some_iff] at hloads
    obtain ⟨text, htext, json, hjson, hload⟩ := hloads
    obtain ⟨hkeys, hdefault⟩ := Json.load_strict decision_hooks_strict json _ hload
    split at hresolved
    case isFalse => cases hresolved
    case isTrue hchecks =>
      obtain ⟨hlength, hvalid⟩ := hchecks
      split at hresolved
      case h_2 => cases hresolved
      case h_1 outcome hrun =>
        obtain ⟨selected, rfl, hid, hvalue⟩ : ∃ selected, outcome = .RESOLVED selected ∧
            selected.decision_id = some decision_id ∧ selected.value.getD .none = value :=
          resolved_of_outcome hresolved
        obtain ⟨as_of_date, hdate⟩ := date_of_resolved hrun
        obtain ⟨_, hheads, hverified⟩ := (resolve_current_resolved_iff hdate hrun).mp rfl
        obtain ⟨position, record, honly, rfl⟩ := only_current_of_heads hheads
        obtain ⟨id_value, hget, htext_id⟩ := Option.bind_eq_some_iff.mp hid
        rw [Value.str?_eq_some_iff] at htext_id
        subst htext_id
        exact ⟨hblob, text, json, records, as_of_date, position, record, htext, hjson, hkeys, hdefault, hlength, hvalid,
          hdate, honly, hverified, hget, hvalue⟩

theorem grounded_of_decide_receipt {library : Library} {request : TypedRequest σ} {source_id source_version : Value}
    {raw : Bytes} {decision_id : Str} {value : Value}
    (hresolved : decide_receipt library request ⟨source_id, source_version, .bytes raw⟩ = .RESOLVED decision_id value) :
    Grounded library request raw decision_id value := by
  unfold decide_receipt at hresolved
  split at hresolved
  case isFalse => cases hresolved
  case isTrue =>
    simp only [Value.bytes?] at hresolved
    split at hresolved
    case isFalse => cases hresolved
    case isTrue hblob =>
      split at hresolved
      case isFalse => cases hresolved
      case isTrue => exact grounded_of_decide_records hblob.2 hresolved

/-- A run either stops before the read, with its calls untouched, or makes one call
    of the reader for a well-formed request. -/
theorem resolve_pinned_public_decision_cases (library : Library) (request : PinnedPublicDecisionRequest σ)
    (before : Calls σ HttpRequest Answer) :
    ((resolve_pinned_public_decision library (.inl request) before).2 = before ∧
      ∀ decision_id value,
        (resolve_pinned_public_decision library (.inl request) before).1 ≠ .RESOLVED decision_id value) ∨
      ∃ typed, typed_request request = some typed ∧ typed.Ok ∧ typed.no_read = false ∧
        resolve_pinned_public_decision library (.inl request) before =
          match typed.reader.call library request.source_id before with
          | (none, calls) => (.VERIFY, calls)
          | (some receipt, calls) => (decide_receipt library typed receipt, calls) := by
  cases htyped : typed_request request with
  | none =>
    left
    simp [resolve_pinned_public_decision, htyped]
  | some typed =>
    by_cases hok : typed.Ok
    · cases hread : typed.no_read with
      | true =>
        left
        simp [resolve_pinned_public_decision, htyped, hok, hread]
      | false =>
        right
        refine ⟨typed, rfl, hok, hread, ?_⟩
        simp [resolve_pinned_public_decision, htyped, hok, hread]
    · left
      simp [resolve_pinned_public_decision, htyped, hok]

/-- The pinned decision calls its transport at most once, and only for a well-formed
    request that allows the read. A resolved decision is the one current record of
    the bytes that this one response carried, whose git blob SHA-1 is the expected
    one; no other route leads to it. -/
theorem pinned_decision_grounded (library : Library) (request : PinnedPublicDecisionRequest σ)
    (before : Calls σ HttpRequest Answer) :
    ∃ made, before.Made (resolve_pinned_public_decision library (.inl request) before).2 made ∧ made.length ≤ 1 ∧
      (made ≠ [] → ∃ typed, typed_request request = some typed ∧ typed.Ok ∧ typed.no_read = false) ∧
      ∀ decision_id value,
        (resolve_pinned_public_decision library (.inl request) before).1 = .RESOLVED decision_id value →
          ∃ typed path answer raw, typed_request request = some typed ∧ path ∈ typed.reader.allowed_paths ∧
            made = [(typed.reader.http_request library path, answer)] ∧ Carries library answer path raw ∧
            Grounded library typed raw decision_id value := by
  obtain ⟨huntouched, hnever⟩ | ⟨typed, htyped, hok, hread, hrun⟩ :=
    resolve_pinned_public_decision_cases library request before
  · refine ⟨[], ?_, by simp, by simp, ?_⟩
    · rw [huntouched]
      exact before.made_none
    · intro decision_id value hresolved
      exact absurd hresolved (hnever decision_id value)
  obtain ⟨hcall, _⟩ | ⟨path, answer, hpath, hmade, hreceipt⟩ := typed.reader.call_spec library request.source_id before
  · rw [hrun, hcall]
    exact ⟨[], before.made_none, by simp, by simp, by simp⟩
  · obtain ⟨source_id, _, hallowed⟩ := Option.bind_eq_some_iff.mp hpath
    obtain ⟨_, hmem⟩ := PinnedPublicGitHubReader.allowed_path_eq_some_iff.mp hallowed
    cases hcall : typed.reader.call library request.source_id before with
    | mk returned after =>
      rw [hcall] at hmade hreceipt hrun
      refine ⟨[(typed.reader.http_request library path, answer)], ?_, by simp, fun _ => ⟨typed, htyped, hok, hread⟩, ?_⟩
      · cases returned with
        | none => simpa only [hrun] using hmade
        | some receipt => simpa only [hrun] using hmade
      · intro decision_id value hresolved
        cases returned with
        | none => simp [hrun] at hresolved
        | some receipt =>
          obtain ⟨raw, rfl, hcarries⟩ := hreceipt receipt rfl
          rw [hrun] at hresolved
          exact ⟨typed, path, answer, raw, htyped, hmem, rfl, hcarries, grounded_of_decide_receipt hresolved⟩

/-! ### A snapshot of one record -/

def snapshot_source : Str := "github:fiction-lab/demo-decisions:reference/demo.json"

def snapshot_commit : Str := List.replicate 40 0x61

def snapshot_text : Str :=
  Str.ofString "[\x7b\"decision_id\":\"SYN-002\",\"scope\":\x7b\"domain\":\"demo\",\"subject\":\"starter\"," ++
    Str.ofString "\"field\":\"price\"\x7d,\"status\":\"ACTIVE\",\"last_verified\":\"2026-08-28\",\"value\":200\x7d]"

def snapshot_base64 : Str :=
  Str.ofString "W3siZGVjaXNpb25faWQiOiJTWU4tMDAyIiwic2NvcGUiOnsiZG9tYWluIjoiZGVtbyIsInN1YmplY3QiOiJzdGFydGVyIiwiZmll" ++
    Str.ofString "bGQiOiJwcmljZSJ9LCJzdGF0dXMiOiJBQ1RJVkUiLCJsYXN0X3ZlcmlmaWVkIjoiMjAyNi0wOC0yOCIsInZhbHVlIjoyMDB9XQ=="

def snapshot_sha : Str := "34828b30983f3704ad230e7a2078a9ccf6585e87"

def response_text : Str :=
  Str.ofString "\x7b\"type\":\"file\",\"encoding\":\"base64\",\"content\":\"" ++ snapshot_base64 ++
    Str.ofString "\",\"size\":148,\"sha\":\"" ++ snapshot_sha ++
    Str.ofString "\",\"path\":\"reference/demo.json\"\x7d"

/-- The standard library on the inputs of this run. -/
def snapshot_library : Library where
  sha1 content :=
    if content = encode_ascii (Str.ofString "blob 148") ++ [0] ++ encode_ascii snapshot_text then snapshot_sha else []
  sha256 content :=
    if content = encode_ascii snapshot_source then
      "7c876830bfe1e6925b4eaebe835f5cf7c040e12fe97ab7712e46c71edef82411"
    else if content = length_prefixed [encode_ascii snapshot_source, encode_ascii snapshot_commit] then
      "59e58f153d6461b90ade86e259ae14016bedc64b872c9bee45b342e8aa26a25b"
    else if content = encode_ascii snapshot_text then
      "2b25402fb8f4510e26965d68f9eeb18917a75aaf5cefc5ef7c6d22c14699794c"
    else
      []
  json_scan text :=
    if text = snapshot_text then
      some (.array [.object [("decision_id", .str "SYN-002"),
        ("scope", .object [("domain", .str "demo"), ("subject", .str "starter"), ("field", .str "price")]),
        ("status", .str "ACTIVE"), ("last_verified", .str "2026-08-28"), ("value", .int 200)]])
    else if text = response_text then
      some (.object [("type", .str "file"), ("encoding", .str "base64"), ("content", .str snapshot_base64),
        ("size", .int 148), ("sha", .str snapshot_sha), ("path", .str "reference/demo.json")])
    else
      none
  b64decode text := if text = snapshot_base64 then some (encode_ascii snapshot_text) else none
  quote text _ := text

def snapshot_reader : PinnedPublicGitHubReader Unit where
  owner := "fiction-lab"
  repository := "demo-decisions"
  commit_sha := snapshot_commit
  allowed_paths := ["reference/demo.json"]
  transport _ _ := (.returned ⟨.int 200, fun amount => some (.bytes ((encode_ascii response_text).take amount))⟩, ())
  owner_ok := by decide +kernel
  repository_ok := by decide +kernel
  commit_sha_ok := by decide +kernel
  allowed_paths_ok := by decide +kernel

def snapshot_request : PinnedPublicDecisionRequest Unit where
  reader := .inl snapshot_reader
  source_id := .str snapshot_source
  expected_blob_sha := .str snapshot_sha
  domain := .str "demo"
  subject := .str "starter"
  field := .str "price"
  as_of := .str "2026-08-28"

/-- The run resolves, and its decision rests on the bytes of its one response. -/
theorem snapshot_decision_grounded :
    ∃ (value : Value) (typed : TypedRequest Unit) (path : Str) (answer : Answer) (raw : Bytes),
    (resolve_pinned_public_decision snapshot_library (.inl snapshot_request) ⟨(), []⟩).1 = .RESOLVED "SYN-002" value ∧
      Carries snapshot_library answer path raw ∧ Grounded snapshot_library typed raw "SYN-002" value := by
  have hresolved : (resolve_pinned_public_decision snapshot_library (.inl snapshot_request) ⟨(), []⟩).1.decision_id? =
      some (Str.ofString "SYN-002") := by
    decide +kernel
  obtain ⟨value, hresolved⟩ := Decision.decision_id?_eq_some_iff.mp hresolved
  obtain ⟨_, _, _, _, hgrounded⟩ := pinned_decision_grounded snapshot_library snapshot_request ⟨(), []⟩
  obtain ⟨typed, path, answer, raw, _, _, _, hcarries, hdecision⟩ := hgrounded _ value hresolved
  exact ⟨value, typed, path, answer, raw, hresolved, hcarries, hdecision⟩

end context_router.pinned_public_decision_preflight
