import Mathlib.Data.Set.Function
import ContextRouter.PinnedPublicDecisionPreflight
import ContextRouter.SourceReadAcquisitionHandoff.Reads

open python

namespace context_router.pinned_public_decision_preflight

open minimal_resolver source_read_observation source_read_acquisition_handoff github_public_pinned_reader

variable {σ τ : Type}

/-- The value under `stage`. -/
def Decision.stage : Decision → Str
  | .DATA_ERROR => "public_snapshot"
  | .VERIFY => "public_snapshot"
  | .RESOLVED _ _ => "local_public_snapshot_resolution"
  | .unresolved _ => "local_public_snapshot_resolution"

/-- The result classifies the bytes that were read. -/
def Decision.Local (decision : Decision) : Prop :=
  decision.stage = Str.ofString "local_public_snapshot_resolution"

instance (decision : Decision) : Decidable decision.Local :=
  inferInstanceAs (Decidable (decision.stage = Str.ofString "local_public_snapshot_resolution"))

/-- The two requests ask the same question of the same blob, wherever each reads it. -/
structure SameQuestion (request : PinnedPublicDecisionRequest σ) (request' : PinnedPublicDecisionRequest τ) : Prop where
  expected_blob_sha : request.expected_blob_sha = request'.expected_blob_sha
  domain : request.domain = request'.domain
  subject : request.subject = request'.subject
  field : request.field = request'.field
  as_of : request.as_of = request'.as_of
  verify_after_days : request.verify_after_days = request'.verify_after_days

/-- The answer to the one call that the run makes carries `raw` at the path that the
    request names. -/
def Delivers (library : Library) (request : PinnedPublicDecisionRequest σ) (before : Calls σ HttpRequest Answer)
    (raw : Bytes) : Prop :=
  ∃ typed path answer, typed_request request = some typed ∧ typed.source_id = typed.reader.start ++ path ∧
    before.Made (resolve_pinned_public_decision library (.inl request) before).2
      [(typed.reader.http_request library path, answer)] ∧
    Carries library answer path raw

theorem typed_request_eq_some {request : PinnedPublicDecisionRequest σ} {typed : TypedRequest σ}
    (htyped : typed_request request = some typed) :
    request = ⟨.inl typed.reader, .str typed.source_id, .str typed.expected_blob, .str typed.domain, .str typed.subject,
      .str typed.field, .str typed.as_of, .int typed.max_age, .bool typed.no_read⟩ := by
  obtain ⟨reader, source_id, expected_blob_sha, domain, subject, field, as_of, verify_after_days, no_external_read⟩ :=
    request
  unfold typed_request at htyped
  split at htyped
  case h_2 => cases htyped
  case h_1 =>
    obtain rfl := Option.some.inj htyped
    simp_all

theorem SameQuestion.typed {request : PinnedPublicDecisionRequest σ} {request' : PinnedPublicDecisionRequest τ}
    (hsame : SameQuestion request request') {typed : TypedRequest σ} {typed' : TypedRequest τ}
    (htyped : typed_request request = some typed) (htyped' : typed_request request' = some typed') :
    typed.expected_blob = typed'.expected_blob ∧ typed.domain = typed'.domain ∧ typed.subject = typed'.subject ∧
      typed.field = typed'.field ∧ typed.as_of = typed'.as_of ∧ typed.max_age = typed'.max_age := by
  obtain ⟨hblob, hdomain, hsubject, hfield, has_of, hage⟩ := hsame
  rw [typed_request_eq_some htyped, typed_request_eq_some htyped'] at hblob hdomain hsubject hfield has_of hage
  exact ⟨Value.str.inj hblob, Value.str.inj hdomain, Value.str.inj hsubject, Value.str.inj hfield, Value.str.inj has_of,
    Value.int.inj hage⟩

/-- The records are decided by the question alone. -/
theorem decide_records_congr {typed : TypedRequest σ} {typed' : TypedRequest τ} (hdomain : typed.domain = typed'.domain)
    (hsubject : typed.subject = typed'.subject) (hfield : typed.field = typed'.field) (has_of : typed.as_of = typed'.as_of)
    (hmax_age : typed.max_age = typed'.max_age) (loaded : Option Value) :
    decide_records typed loaded = decide_records typed' loaded := by
  unfold decide_records
  rw [hdomain, hsubject, hfield, has_of, hmax_age]

/-- The handoff accepts the receipt of a reader for its own source id. -/
theorem handoff_passes (library : Library) {source_id source_version : Str} (raw : Bytes) (hid : Identifier source_id)
    (hversion : Identifier source_version) :
    (acquire_declared_sources library (.inl { declared_sources := .tuple [.str source_id] })
      (some fun requested state => (.returned (if requested = source_id
        then .inl ⟨.str source_id, .str source_version, .bytes raw⟩ else .inr .none), state))
      (⟨(), []⟩ : Calls Unit Str Fetched)).1 = .PASS 1 := by
  have hdeclares :
      Declares (.inl { declared_sources := .tuple [.str source_id] }) [source_id] source_read_gate.ALL false :=
    ⟨rfl, List.cons_ne_nil _ _, by simpa using hid, List.nodup_singleton _, Or.inl rfl⟩
  apply acquire_single library hdeclares
  exact ⟨source_version, raw, by rw [if_pos rfl], hversion⟩

/-- A receipt whose bytes have the expected hash is decided by its records; no other
    check can fail. -/
theorem decide_receipt_of_blob {library : Library} {typed : TypedRequest σ} (hok : typed.Ok) {raw : Bytes}
    (hlength : raw.length ≤ MAX_CONTENT) (hblob : library.git_blob_sha raw = typed.expected_blob) :
    decide_receipt library typed ⟨.str typed.source_id, .str typed.reader.commit_sha, .bytes raw⟩ =
      decide_records typed (library.json_loads_utf8 decision_hooks raw) := by
  obtain ⟨path, hallowed⟩ := Option.isSome_iff_exists.mp hok.source_id_ok
  have hpasses := handoff_passes library raw (PinnedPublicGitHubReader.identifier_of_allowed hallowed)
    (identifier_of_sha typed.reader.commit_sha_ok)
  have hbounded : raw.length ≤ MAX_JSON_BYTES := hlength
  simp only [decide_receipt, Value.str?, Value.bytes?, true_and, if_true, hblob, hbounded, hpasses]

theorem decide_receipt_of_other_blob {library : Library} {typed : TypedRequest σ} {raw : Bytes}
    (hblob : library.git_blob_sha raw ≠ typed.expected_blob) :
    decide_receipt library typed ⟨.str typed.source_id, .str typed.reader.commit_sha, .bytes raw⟩ = .DATA_ERROR := by
  simp [decide_receipt, Value.str?, Value.bytes?, hblob]

theorem not_local_DATA_ERROR : ¬ Decision.DATA_ERROR.Local := by decide +kernel

theorem not_local_VERIFY : ¬ Decision.VERIFY.Local := by decide +kernel

/-- A run that reads. -/
structure Reading (request : PinnedPublicDecisionRequest σ) (typed : TypedRequest σ) (path : Str) : Prop where
  typed_eq : typed_request request = some typed
  ok : typed.Ok
  allowed : typed.reader.allowed_path typed.source_id = some path
  read : typed.no_read = false

theorem Reading.run_eq {request : PinnedPublicDecisionRequest σ} {typed : TypedRequest σ} {path : Str}
    (hreading : Reading request typed path) (library : Library) (before : Calls σ HttpRequest Answer) :
    resolve_pinned_public_decision library (.inl request) before =
      match answer_bytes library path
        (before.call typed.reader.transport (typed.reader.http_request library path)).1 with
      | none => (.VERIFY, (before.call typed.reader.transport (typed.reader.http_request library path)).2)
      | some raw => (decide_receipt library typed ⟨.str typed.source_id, .str typed.reader.commit_sha, .bytes raw⟩,
        (before.call typed.reader.transport (typed.reader.http_request library path)).2) := by
  obtain ⟨htyped, hok, hallowed, hread⟩ := hreading
  have hid : request.source_id = .str typed.source_id := by rw [typed_request_eq_some htyped]
  have hpath : (Value.str typed.source_id).str?.bind typed.reader.allowed_path = some path := hallowed
  simp only [resolve_pinned_public_decision, htyped, hok, hread, hid, not_true_eq_false, if_false, Bool.false_eq_true,
    PinnedPublicGitHubReader.call_allowed library hpath]
  cases answer_bytes library path (before.call typed.reader.transport (typed.reader.http_request library path)).1 with
  | none => rfl
  | some raw => rfl

/-- Any other run leaves its calls untouched and has no local result. -/
theorem reading_or_untouched (library : Library) (request : PinnedPublicDecisionRequest σ)
    (before : Calls σ HttpRequest Answer) :
    (∃ typed path, Reading request typed path) ∨
      (resolve_pinned_public_decision library (.inl request) before).2 = before ∧
        ¬ (resolve_pinned_public_decision library (.inl request) before).1.Local := by
  cases htyped : typed_request request with
  | none => exact Or.inr (by simpa [resolve_pinned_public_decision, htyped] using not_local_DATA_ERROR)
  | some typed =>
    by_cases hok : typed.Ok
    · cases hread : typed.no_read with
      | true => exact Or.inr (by simpa [resolve_pinned_public_decision, htyped, hok, hread] using not_local_VERIFY)
      | false =>
        obtain ⟨path, hallowed⟩ := Option.isSome_iff_exists.mp hok.source_id_ok
        exact Or.inl ⟨typed, path, htyped, hok, hallowed, hread⟩
    · exact Or.inr (by simpa [resolve_pinned_public_decision, htyped, hok] using not_local_DATA_ERROR)

theorem Reading.delivers_iff {request : PinnedPublicDecisionRequest σ} {typed : TypedRequest σ} {path : Str}
    (hreading : Reading request typed path) {library : Library} {before : Calls σ HttpRequest Answer} {raw : Bytes} :
    Delivers library request before raw ↔
      Carries library (before.call typed.reader.transport (typed.reader.http_request library path)).1 path raw := by
  obtain ⟨hid, _⟩ := PinnedPublicGitHubReader.allowed_path_eq_some_iff.mp hreading.allowed
  have hmade : before.Made (resolve_pinned_public_decision library (.inl request) before).2
      [(typed.reader.http_request library path,
        (before.call typed.reader.transport (typed.reader.http_request library path)).1)] := by
    rw [hreading.run_eq library before]
    cases answer_bytes library path (before.call typed.reader.transport (typed.reader.http_request library path)).1 with
    | none => rfl
    | some raw => rfl
  constructor
  · intro ⟨typed', path', answer, htyped', hid', hmade', hcarries⟩
    obtain rfl := Option.some.inj (hreading.typed_eq.symm.trans htyped')
    obtain rfl := List.append_cancel_left (hid.symm.trans hid')
    have hcalls := List.append_cancel_left (hmade.symm.trans hmade')
    obtain ⟨_, rfl⟩ := Prod.mk.inj (List.singleton_injective hcalls)
    exact hcarries
  · intro hcarries
    exact ⟨typed, path, _, hreading.typed_eq, hid, hmade, hcarries⟩

/-- Delivered bytes with the expected hash decide the run. -/
theorem Reading.decision_of_delivers {request : PinnedPublicDecisionRequest σ} {typed : TypedRequest σ} {path : Str}
    (hreading : Reading request typed path) {library : Library} {before : Calls σ HttpRequest Answer} {raw : Bytes}
    (hdelivers : Delivers library request before raw) (hblob : library.git_blob_sha raw = typed.expected_blob) :
    (resolve_pinned_public_decision library (.inl request) before).1 =
      decide_records typed (library.json_loads_utf8 decision_hooks raw) := by
  have hcarries := hreading.delivers_iff.mp hdelivers
  have hbytes := answer_bytes_of_carries hcarries (hblob ▸ hreading.ok.expected_blob_ok)
  rw [hreading.run_eq library before, hbytes]
  exact decide_receipt_of_blob hreading.ok hcarries.bounded hblob

/-- A local result rests on delivered bytes with the expected hash. -/
theorem delivers_of_local {library : Library} {request : PinnedPublicDecisionRequest σ}
    {before : Calls σ HttpRequest Answer}
    (hlocal : (resolve_pinned_public_decision library (.inl request) before).1.Local) :
    ∃ typed path raw, Reading request typed path ∧ Delivers library request before raw ∧
      library.git_blob_sha raw = typed.expected_blob := by
  obtain ⟨typed, path, hreading⟩ | ⟨_, hnot⟩ := reading_or_untouched library request before
  · rw [hreading.run_eq library before] at hlocal
    cases hbytes : answer_bytes library path
        (before.call typed.reader.transport (typed.reader.http_request library path)).1 with
    | none =>
      rw [hbytes] at hlocal
      exact absurd hlocal not_local_VERIFY
    | some raw =>
      rw [hbytes] at hlocal
      refine ⟨typed, path, raw, hreading, hreading.delivers_iff.mpr (carries_of_answer_bytes hbytes), ?_⟩
      by_contra hblob
      simp only [decide_receipt_of_other_blob hblob] at hlocal
      exact not_local_DATA_ERROR hlocal
  · exact absurd hlocal hnot

theorem reading_of_delivers {library : Library} {request : PinnedPublicDecisionRequest σ}
    {before : Calls σ HttpRequest Answer} {raw : Bytes} (hdelivers : Delivers library request before raw) :
    ∃ typed path, Reading request typed path := by
  obtain hreading | ⟨huntouched, _⟩ := reading_or_untouched library request before
  · exact hreading
  · obtain ⟨_, _, _, _, _, hmade, _⟩ := hdelivers
    rw [huntouched, Calls.Made] at hmade
    simp at hmade

/-- A decision is a function of the bytes alone: two requests for the same blob and the
    same question, through any readers, repositories, commits, paths and transports,
    agree when both classify the bytes, and the bytes with the expected hash are always
    classified. -/
theorem decision_of_content (library : Library) {request : PinnedPublicDecisionRequest σ}
    {request' : PinnedPublicDecisionRequest τ} (hsame : SameQuestion request request')
    (before : Calls σ HttpRequest Answer) (before' : Calls τ HttpRequest Answer)
    (hinjective : Set.InjOn library.sha1 {message | ∃ raw, message = git_blob raw ∧
      (Delivers library request before raw ∨ Delivers library request' before' raw)})
    (hlocal : (resolve_pinned_public_decision library (.inl request) before).1.Local) :
    ((resolve_pinned_public_decision library (.inl request') before').1.Local →
      (resolve_pinned_public_decision library (.inl request') before').1 =
        (resolve_pinned_public_decision library (.inl request) before).1) ∧
    ∀ raw, Delivers library request' before' raw → request'.expected_blob_sha = .str (library.git_blob_sha raw) →
      (resolve_pinned_public_decision library (.inl request') before').1 =
        (resolve_pinned_public_decision library (.inl request) before).1 := by
  obtain ⟨typed, path, raw, hreading, hdelivers, hblob⟩ := delivers_of_local hlocal
  have hdelivered : ∀ typed' path' raw', Reading request' typed' path' → Delivers library request' before' raw' →
      library.git_blob_sha raw' = typed'.expected_blob →
        (resolve_pinned_public_decision library (.inl request') before').1 =
          (resolve_pinned_public_decision library (.inl request) before).1 := by
    intro typed' path' raw' hreading' hdelivers' hblob'
    obtain ⟨hexpected, hdomain, hsubject, hfield, has_of, hage⟩ := hsame.typed hreading.typed_eq hreading'.typed_eq
    have hmessage : library.sha1 (git_blob raw) = library.sha1 (git_blob raw') := by
      rw [← library.git_blob_sha_eq, ← library.git_blob_sha_eq, hblob, hexpected, hblob']
    obtain rfl := git_blob_injective (hinjective ⟨raw, rfl, Or.inl hdelivers⟩ ⟨raw', rfl, Or.inr hdelivers'⟩ hmessage)
    rw [hreading.decision_of_delivers hdelivers hblob, hreading'.decision_of_delivers hdelivers' hblob']
    exact (decide_records_congr hdomain hsubject hfield has_of hage _).symm
  constructor
  · intro hlocal'
    obtain ⟨typed', path', raw', hreading', hdelivers', hblob'⟩ := delivers_of_local hlocal'
    exact hdelivered typed' path' raw' hreading' hdelivers' hblob'
  · intro raw' hdelivers' hexpected
    obtain ⟨typed', path', hreading'⟩ := reading_of_delivers hdelivers'
    rw [typed_request_eq_some hreading'.typed_eq, Value.str.injEq] at hexpected
    exact hdelivered typed' path' raw' hreading' hdelivers' hexpected.symm

/-! ### The snapshot in another repository -/

def mirror_source : Str := "github:fiction-mirror/demo-decisions:reference/demo.json"

def mirror_commit : Str := List.replicate 40 0x62

/-- The standard library on the inputs of both runs. -/
def mirror_library : Library where
  sha1 := snapshot_library.sha1
  sha256 content :=
    if content = encode_ascii mirror_source then
      "7c081c31db5024b854acd0adeade0af1753eb8ad2b0e40e9e59b0063d37225cd"
    else if content = length_prefixed [encode_ascii mirror_source, encode_ascii mirror_commit] then
      "fa1347f24026e7507935adf077b2bc4f50c0f143914d62c0e5fa41926d386d09"
    else
      snapshot_library.sha256 content
  json_scan := snapshot_library.json_scan
  b64decode := snapshot_library.b64decode
  quote := snapshot_library.quote

/-- Its transport counts its calls. -/
def mirror_reader : PinnedPublicGitHubReader Nat where
  owner := "fiction-mirror"
  repository := "demo-decisions"
  commit_sha := mirror_commit
  allowed_paths := ["reference/demo.json"]
  transport _ count :=
    (.returned ⟨.int 200, fun amount => some (.bytes ((encode_ascii response_text).take amount))⟩, count.succ)
  owner_ok := by decide +kernel
  repository_ok := snapshot_reader.repository_ok
  commit_sha_ok := by decide +kernel
  allowed_paths_ok := snapshot_reader.allowed_paths_ok

def mirror_request : PinnedPublicDecisionRequest Nat where
  reader := .inl mirror_reader
  source_id := .str mirror_source
  expected_blob_sha := .str snapshot_sha
  domain := .str "demo"
  subject := .str "starter"
  field := .str "price"
  as_of := .str "2026-08-28"

theorem mirror_library_delivers {request : PinnedPublicDecisionRequest σ} {before : Calls σ HttpRequest Answer}
    {raw : Bytes} (hdelivers : Delivers mirror_library request before raw) : raw = encode_ascii snapshot_text := by
  obtain ⟨_, _, _, _, _, _, hcarries⟩ := hdelivers
  obtain ⟨_, _, _, file, _, _, _, _, _, _, _, _, _, hdecode, _, _⟩ := hcarries.document
  simp only [mirror_library, snapshot_library] at hdecode
  split at hdecode
  · exact (Option.some.inj hdecode).symm
  · cases hdecode

/-- The same bytes, read from another repository at another commit, decide alike. -/
theorem mirror_decides_alike :
    (resolve_pinned_public_decision mirror_library (.inl mirror_request) ⟨0, []⟩).1 =
      (resolve_pinned_public_decision mirror_library (.inl snapshot_request) ⟨(), []⟩).1 := by
  have htyped : typed_request mirror_request = some ⟨mirror_reader, mirror_source, snapshot_sha, "demo", "starter",
      "price", "2026-08-28", 30, false⟩ := rfl
  have hreading : Reading mirror_request _ "reference/demo.json" :=
    ⟨htyped, by decide +kernel, by decide +kernel, rfl⟩
  have hbytes : answer_bytes mirror_library "reference/demo.json" (mirror_reader.transport
      (mirror_reader.http_request mirror_library "reference/demo.json") 0).1 = some (encode_ascii snapshot_text) := by
    decide +kernel
  have hblob : mirror_library.git_blob_sha (encode_ascii snapshot_text) = snapshot_sha := by decide +kernel
  have hinjective : Set.InjOn mirror_library.sha1 {message | ∃ raw, message = git_blob raw ∧
      (Delivers mirror_library snapshot_request ⟨(), []⟩ raw ∨ Delivers mirror_library mirror_request ⟨0, []⟩ raw)} := by
    rintro _ ⟨raw, rfl, hraw⟩ _ ⟨raw', rfl, hraw'⟩ _
    rw [hraw.elim mirror_library_delivers mirror_library_delivers,
      hraw'.elim mirror_library_delivers mirror_library_delivers]
  have hsame : SameQuestion snapshot_request mirror_request := ⟨rfl, rfl, rfl, rfl, rfl, rfl⟩
  have hlocal : (resolve_pinned_public_decision mirror_library (.inl snapshot_request) ⟨(), []⟩).1.Local := by
    decide +kernel
  obtain ⟨_, hdelivered⟩ := decision_of_content mirror_library hsame ⟨(), []⟩ ⟨0, []⟩ hinjective hlocal
  apply hdelivered (encode_ascii snapshot_text)
  · exact hreading.delivers_iff.mpr (carries_of_answer_bytes hbytes)
  · rw [hblob]
    rfl

end context_router.pinned_public_decision_preflight
