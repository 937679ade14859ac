import ContextRouter.GithubPublicPinnedReader.Address
import ContextRouter.Python.Base64

open python

namespace context_router.github_public_pinned_reader

open source_read_acquisition_handoff

def newline : CodePoint := 0x0a

/-- Every line with its line break. -/
def break_lines (lines : List Str) : Str := lines.flatMap fun line => line ++ [newline]

/-- A text broken into lines of at least 60 characters, but for the last one, which may
    also end with a line break. -/
def Wrapped (text content : Str) : Prop :=
  ∃ (lines : List Str) (last ending : Str), (∀ line ∈ lines, 60 ≤ line.length) ∧ ending ∈ [[], [newline]] ∧
    text = lines.flatten ++ last ∧ content = break_lines lines ++ last ++ ending

/-- The bytes that a base64 text takes in a JSON document, where a line break is `\n`. -/
def content_bytes (content : Str) : Nat := content.length + content.count newline

theorem without_newlines_of_not_mem {text : Str} (htext : newline ∉ text) : without_newlines text = text := by
  rw [without_newlines, List.filter_eq_self]
  intro c hc
  have hne : c ≠ newline := fun heq => htext (heq ▸ hc)
  simpa [newline, Fin.ext_iff] using hne

theorem without_newlines_append (text text' : Str) :
    without_newlines (text ++ text') = without_newlines text ++ without_newlines text' :=
  List.filter_append ..

theorem without_newlines_break_lines {lines : List Str} (hlines : newline ∉ lines.flatten) :
    without_newlines (break_lines lines) = lines.flatten := by
  induction lines with
  | nil => rfl
  | cons line rest ih =>
    simp only [List.flatten_cons, List.mem_append, not_or] at hlines
    have hbreak : without_newlines [newline] = [] := by decide
    simp only [break_lines, List.flatMap_cons, List.flatten_cons, without_newlines_append, hbreak, List.append_nil,
      without_newlines_of_not_mem hlines.1]
    rw [← ih hlines.2, break_lines]

/-- Without its line breaks the content is the text. -/
theorem Wrapped.without_newlines {text content : Str} (hwrapped : Wrapped text content) (htext : newline ∉ text) :
    without_newlines content = text := by
  obtain ⟨lines, last, ending, _, hending, rfl, rfl⟩ := hwrapped
  simp only [List.mem_append, not_or] at htext
  have hend : github_public_pinned_reader.without_newlines ending = [] := by
    obtain rfl | rfl := by simpa using hending
    · rfl
    · decide
  rw [without_newlines_append, without_newlines_append, without_newlines_break_lines htext.1,
    without_newlines_of_not_mem htext.2, hend, List.append_nil]

theorem length_break_lines (lines : List Str) : (break_lines lines).length = lines.flatten.length + lines.length := by
  induction lines with
  | nil => rfl
  | cons line rest ih =>
    simp only [break_lines, List.flatMap_cons, List.length_append, List.length_cons, List.length_nil,
      List.flatten_cons] at ih ⊢
    omega

theorem count_break_lines {lines : List Str} (hlines : newline ∉ lines.flatten) :
    (break_lines lines).count newline = lines.length := by
  induction lines with
  | nil => rfl
  | cons line rest ih =>
    simp only [List.flatten_cons, List.mem_append, not_or] at hlines
    have hrest := ih hlines.2
    simp only [break_lines, List.flatMap_cons, List.count_append, List.count_singleton_self, List.length_cons,
      List.count_eq_zero.mpr hlines.1] at hrest ⊢
    omega

theorem length_flatten_ge {lines : List Str} {width : Nat} (hlines : ∀ line ∈ lines, width ≤ line.length) :
    width * lines.length ≤ lines.flatten.length := by
  induction lines with
  | nil => simp
  | cons line rest ih =>
    obtain ⟨hline, hrest⟩ := List.forall_mem_cons.mp hlines
    have hlater := ih hrest
    simp only [List.length_cons, List.flatten_cons, List.length_append, Nat.mul_add]
    omega

/-- There is at most one line break for 60 characters and one at the end, each of two
    bytes. -/
theorem Wrapped.content_bytes_le {text content : Str} (hwrapped : Wrapped text content) (htext : newline ∉ text) :
    60 * content_bytes content ≤ 62 * text.length + 120 := by
  obtain ⟨lines, last, ending, hlines, hending, rfl, rfl⟩ := hwrapped
  simp only [List.mem_append, not_or] at htext
  have hwidth := length_flatten_ge hlines
  have hend : ending.length ≤ 1 ∧ ending.count newline ≤ 1 := by
    obtain rfl | rfl := by simpa using hending
    · decide
    · decide
  simp only [content_bytes, List.length_append, List.count_append, length_break_lines, count_break_lines htext.1,
    List.count_eq_zero.mpr htext.2]
  omega

theorem newline_not_mem_b64encode (raw : Bytes) : newline ∉ b64encode raw := by
  intro hmem
  exact absurd (le_of_mem_b64encode newline hmem) (by decide)

/-- The content of any file within the limit leaves room for 16000 other bytes. -/
theorem content_bytes_le {raw : Bytes} {content : Str} (hraw : raw.length ≤ MAX_CONTENT)
    (hwrapped : Wrapped (b64encode raw) content) : 16000 + content_bytes content ≤ MAX_RESPONSE := by
  have hcontent := hwrapped.content_bytes_le (newline_not_mem_b64encode raw)
  rw [length_b64encode] at hcontent
  simp only [MAX_CONTENT, MAX_RESPONSE] at hraw ⊢
  omega

theorem FileObject.of_dict?_eq_some_iff {data : Value} {file : FileObject} :
    FileObject.of_dict? data = some file ↔
      data.get? "type" = some (.str file.type) ∧ data.get? "encoding" = some (.str file.encoding) ∧
        data.get? "content" = some (.str file.content) ∧ data.get? "size" = some (.int file.size) ∧
        data.get? "sha" = some (.str file.sha) ∧ data.get? "path" = some (.str file.path) := by
  constructor
  · intro hfile
    unfold FileObject.of_dict? at hfile
    split at hfile
    case h_1 htype hencoding hcontent hsize hsha hpath =>
      obtain rfl := Option.some.inj hfile
      exact ⟨htype, hencoding, hcontent, hsize, hsha, hpath⟩
    case h_2 => cases hfile
  · rintro ⟨htype, hencoding, hcontent, hsize, hsha, hpath⟩
    simp only [FileObject.of_dict?, htype, hencoding, hcontent, hsize, hsha, hpath]

/-- The file object for `raw` at `path`, with `content` in place of the base64 text. -/
structure Describes (library : Library) (path : Str) (raw : Bytes) (content : Str) (data : Value) : Prop where
  type : data.get? "type" = some (.str "file")
  encoding : data.get? "encoding" = some (.str "base64")
  content : data.get? "content" = some (.str content)
  size : data.get? "size" = some (.int raw.length)
  sha : data.get? "sha" = some (.str (library.git_blob_sha raw))
  path : data.get? "path" = some (.str path)

/-- The length and the SHA-1 that an answer states for its file. -/
def Answer.States (library : Library) (answer : Answer) (size : Int) (sha : Str) : Prop :=
  ∃ response body data, answer = .returned response ∧ response.read (MAX_RESPONSE + 1) = some (.bytes body) ∧
    library.json_loads_utf8 Json.default_hooks body = some data ∧ data.get? "size" = some (.int size) ∧
    data.get? "sha" = some (.str sha)

theorem Carries.states {library : Library} {answer : Answer} {path : Str} {raw : Bytes}
    (hcarries : Carries library answer path raw) : answer.States library raw.length (library.git_blob_sha raw) := by
  obtain ⟨response, body, data, file, hanswer, _, hread, _, hdata, hfile, _, _, _, _, hsize, hsha⟩ := hcarries.document
  obtain ⟨_, _, _, hstatedSize, hstatedSha, _⟩ := FileObject.of_dict?_eq_some_iff.mp hfile
  exact ⟨response, body, data, hanswer, hread, hdata, hsize ▸ hstatedSize, hsha ▸ hstatedSha⟩

/-- A response for a file within the limit carries it. -/
theorem Describes.carries {library : Library} {path content : Str} {raw body : Bytes} {data : Value}
    {response : Response} (hdescribes : Describes library path raw content data) (hraw : raw.length ≤ MAX_CONTENT)
    (hwrapped : Wrapped (b64encode raw) content) (hdecode : library.b64decode (b64encode raw) = some raw)
    (hstatus : is_200 response.status) (hread : response.read (MAX_RESPONSE + 1) = some (.bytes body))
    (hlength : body.length ≤ MAX_RESPONSE) (hdata : library.json_loads_utf8 Json.default_hooks body = some data) :
    Carries library (.returned response) path raw where
  document := by
    have hfile : FileObject.of_dict? data = some
        ⟨"file", "base64", content, raw.length, library.git_blob_sha raw, path⟩ :=
      FileObject.of_dict?_eq_some_iff.mpr ⟨hdescribes.type, hdescribes.encoding, hdescribes.content, hdescribes.size,
        hdescribes.sha, hdescribes.path⟩
    have htext : without_newlines content = b64encode raw := hwrapped.without_newlines (newline_not_mem_b64encode raw)
    exact ⟨response, body, data, _, rfl, hstatus, hread, hlength, hdata, hfile, rfl, rfl, rfl, htext ▸ hdecode,
      rfl, rfl⟩
  bounded := hraw

/-- Every file within the content limit passes the limit on the response, however its
    base64 text is broken into lines. Every file that is returned is within the limit
    and the one that its response states. -/
theorem admissible_round_trip (library : Library) (σ : Type) (reader : PinnedPublicGitHubReader σ) :
    (∀ (source_id path content : Str) (raw body : Bytes) (data : Value) (before : Calls σ HttpRequest Answer),
      reader.allowed_path source_id = some path → raw.length ≤ MAX_CONTENT →
      library.b64decode (b64encode raw) = some raw → is_sha (library.git_blob_sha raw) →
      library.json_loads_utf8 Json.default_hooks body = some data → Describes library path raw content data →
      Wrapped (b64encode raw) content → body.length ≤ 16000 + content_bytes content →
        body.length ≤ MAX_RESPONSE ∧
          ∀ response, (before.call reader.transport (reader.http_request library path)).1 = .returned response →
            is_200 response.status →
            response.read (MAX_RESPONSE + 1) = some (.bytes (body.take (MAX_RESPONSE + 1))) →
              (reader.call library (.str source_id) before).1 =
                some ⟨.str source_id, .str reader.commit_sha, .bytes raw⟩) ∧
    ∀ (source_id : Value) (before : Calls σ HttpRequest Answer) (receipt : FetchedSource),
      (reader.call library source_id before).1 = some receipt →
        ∃ (path : Str) (raw : Bytes), receipt = ⟨source_id, .str reader.commit_sha, .bytes raw⟩ ∧
          raw.length ≤ MAX_CONTENT ∧
          (before.call reader.transport (reader.http_request library path)).1.States library raw.length
            (library.git_blob_sha raw) := by
  constructor
  · intro source_id path content raw body data before hallowed hraw hdecode hsha hdata hdescribes hwrapped hbody
    have hlength : body.length ≤ MAX_RESPONSE := hbody.trans (content_bytes_le hraw hwrapped)
    refine ⟨hlength, ?_⟩
    intro response hanswer hstatus hread
    rw [List.take_of_length_le (by omega)] at hread
    have hcarries := hdescribes.carries hraw hwrapped hdecode hstatus hread hlength hdata
    have hallowedValue : (Value.str source_id).str?.bind reader.allowed_path = some path := hallowed
    rw [reader.call_allowed library hallowedValue, hanswer, answer_bytes_of_carries hcarries hsha]
    rfl
  · intro source_id before receipt hreceipt
    cases hallowed : source_id.str?.bind reader.allowed_path with
    | none => simp [PinnedPublicGitHubReader.call, hallowed] at hreceipt
    | some path =>
      rw [reader.call_allowed library hallowed, Option.map_eq_some_iff] at hreceipt
      obtain ⟨raw, hraw, rfl⟩ := hreceipt
      have hcarries := carries_of_answer_bytes hraw
      exact ⟨path, raw, rfl, hcarries.bounded, hcarries.states⟩

def notes_data : Value :=
  .dict [("type", .str "file"), ("encoding", .str "base64"), ("content", .str notes_content), ("size", .int 76),
    ("sha", .str notes_sha), ("path", .str "README.md")]

/-- A file whose base64 text takes a full line and a part of the next one. -/
theorem notes_file_returned :
    (encode_ascii notes_response).length ≤ MAX_RESPONSE ∧
      (notes_reader.call notes_library (.str (notes_reader.start ++ Str.ofString "README.md")) ⟨(), []⟩).1 =
        some ⟨.str (notes_reader.start ++ Str.ofString "README.md"), .str notes_reader.commit_sha,
          .bytes (encode_ascii notes_text)⟩ := by
  have hallowed : notes_reader.allowed_path (notes_reader.start ++ Str.ofString "README.md") =
      some (Str.ofString "README.md") :=
    PinnedPublicGitHubReader.allowed_path_eq_some_iff.mpr ⟨rfl, List.mem_cons_self⟩
  have hencode : b64encode (encode_ascii notes_text) = notes_line ++ notes_rest := by decide +kernel
  have hdecode : notes_library.b64decode (b64encode (encode_ascii notes_text)) = some (encode_ascii notes_text) := by
    simp only [hencode, notes_library, if_true]
  have hsha : notes_library.git_blob_sha (encode_ascii notes_text) = notes_sha := by decide +kernel
  have hbody : encode_utf8 notes_response = some (encode_ascii notes_response) := by decide +kernel
  have hscan : notes_library.json_scan notes_response = some notes_document := by simp only [notes_library, if_true]
  have hload : notes_document.load Json.default_hooks = some notes_data := by rfl
  have hdata : notes_library.json_loads_utf8 Json.default_hooks (encode_ascii notes_response) = some notes_data := by
    simp only [Library.json_loads_utf8, decode_encode_utf8 hbody, Library.json_loads, Option.bind_eq_bind,
      Option.bind_some, hscan, hload]
  have hfull : ∀ line ∈ [notes_line], 60 ≤ line.length := by decide +kernel
  have hwrapped : Wrapped (b64encode (encode_ascii notes_text)) notes_content :=
    ⟨[notes_line], notes_rest, [newline], hfull, by simp, hencode, rfl⟩
  have hdescribes : Describes notes_library "README.md" (encode_ascii notes_text) notes_content notes_data :=
    ⟨rfl, rfl, rfl, rfl, by rw [hsha]; rfl, rfl⟩
  obtain ⟨hlength, hreturned⟩ := (admissible_round_trip notes_library Unit notes_reader).1 _ _ _ _ _ _ ⟨(), []⟩
    hallowed (by decide +kernel) hdecode (by rw [hsha]; decide +kernel) hdata hdescribes hwrapped (by decide +kernel)
  exact ⟨hlength, hreturned _ rfl rfl rfl⟩

end context_router.github_public_pinned_reader
