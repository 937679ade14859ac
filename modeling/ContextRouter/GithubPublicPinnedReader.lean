import ContextRouter.SourceReadAcquisitionHandoff

open python

namespace context_router.github_public_pinned_reader

open source_read_acquisition_handoff

def MAX_CONTENT : Nat := 131072
def MAX_RESPONSE : Nat := 196608

/-- The class `[A-Za-z0-9]` of the patterns. -/
def alphanumeric (c : CodePoint) : Bool :=
  (0x30 ≤ c.val && c.val ≤ 0x39) || (0x41 ≤ c.val && c.val ≤ 0x5a) || (0x61 ≤ c.val && c.val ≤ 0x7a)

/-- A full match of `[A-Za-z0-9...]{1,most}`, with the other characters of the class. -/
def matches_class (others : Str) (most : Nat) (text : Str) : Bool :=
  1 ≤ text.length && text.length ≤ most && text.all fun c => alphanumeric c || c ∈ others

/-- `_NAME.fullmatch`. -/
def is_name (text : Str) : Bool := matches_class "_.-" 80 text

/-- `_COMMIT.fullmatch`, which is also `_BLOB.fullmatch`: forty digits of `[0-9a-f]`. -/
def is_sha (text : Str) : Bool :=
  text.length = 40 && text.all fun c => (0x30 ≤ c.val && c.val ≤ 0x39) || (0x61 ≤ c.val && c.val ≤ 0x66)

def slash : CodePoint := 0x2f

/-- `_path_ok`, for a text. -/
def path_ok (path : Str) : Bool :=
  matches_class "._/-" 256 path && path.head? ≠ some slash && path.getLast? ≠ some slash &&
    (path.splitOn slash).all fun component => component ∉ [Str.ofString "", Str.ofString ".", Str.ofString ".."]

structure HttpRequest where
  url : Str
  headers : List (Str × Str)
  method : Str
  timeout : Nat

/-- What the transport hands over: a status and what each `read(amount)` gives, with
    `none` where it raises. -/
structure Response where
  status : Value
  read : Nat → Option Value

/-- What one call of the transport comes to. -/
inductive Answer where
  | raised
  | returned (response : Response)

/-- A transport may keep a state and answer each call as it likes. -/
abbrev Transport (σ : Type) := HttpRequest → σ → Answer × σ

/-- A reader can only be built with a usable configuration. Its transport is the
    `_transport` that was given, or else the opener of `urllib` without redirects. -/
structure PinnedPublicGitHubReader (σ : Type) where
  owner : Str
  repository : Str
  commit_sha : Str
  allowed_paths : List Str
  transport : Transport σ
  owner_ok : is_name owner ∧ owner ∉ [Str.ofString ".", Str.ofString ".."]
  repository_ok : is_name repository ∧ repository ∉ [Str.ofString ".", Str.ofString ".."]
  commit_sha_ok : is_sha commit_sha
  allowed_paths_ok : allowed_paths ≠ [] ∧ (∀ path ∈ allowed_paths, path_ok path) ∧ allowed_paths.Nodup

namespace PinnedPublicGitHubReader

variable {σ : Type}

/-- `__post_init__`, with `none` for `PublicReadError`. A `transport` that is callable
    is `.inl`; any other value but `None` is rejected. -/
def post_init (owner repository commit_sha allowed_paths : Value) (transport : Transport σ ⊕ Value)
    (opener : Transport σ) : Option (PinnedPublicGitHubReader σ) :=
  match owner, repository, commit_sha, allowed_paths with
  | .str owner, .str repository, .str commit_sha, .tuple paths =>
    let allowed_paths := paths.filterMap Value.str?
    let chosen : Option (Transport σ) := match transport with
      | .inl given => some given
      | .inr .none => some opener
      | .inr _ => none
    if howner : is_name owner ∧ owner ∉ [Str.ofString ".", Str.ofString ".."] then
      if hrepository : is_name repository ∧ repository ∉ [Str.ofString ".", Str.ofString ".."] then
        if hcommit : is_sha commit_sha then
          if hpaths : allowed_paths ≠ [] ∧ (∀ path ∈ allowed_paths, path_ok path) ∧ allowed_paths.Nodup then
            if allowed_paths.length = paths.length then
              chosen.map fun transport =>
                ⟨owner, repository, commit_sha, allowed_paths, transport, howner, hrepository, hcommit, hpaths⟩
            else none
          else none
        else none
      else none
    else none
  | _, _, _, _ => none

/-- The readers are what `__post_init__` accepts: each comes from its own fields, and
    from no other values. -/
theorem post_init_eq_some_iff {owner repository commit_sha allowed_paths : Value} {transport : Transport σ ⊕ Value}
    {opener : Transport σ} {reader : PinnedPublicGitHubReader σ} :
    post_init owner repository commit_sha allowed_paths transport opener = some reader ↔
      owner = .str reader.owner ∧ repository = .str reader.repository ∧ commit_sha = .str reader.commit_sha ∧
        allowed_paths = .tuple (reader.allowed_paths.map .str) ∧
        (transport = .inl reader.transport ∨ transport = .inr .none ∧ reader.transport = opener) := by
  constructor
  · intro hreader
    unfold post_init at hreader
    split at hreader
    case h_2 => cases hreader
    case h_1 owner repository commit_sha paths =>
      extract_lets allowed_paths chosen at hreader
      split_ifs at hreader with howner hrepository hcommit hpaths hlength
      obtain ⟨given, hgiven, rfl⟩ := Option.map_eq_some_iff.mp hreader
      refine ⟨rfl, rfl, rfl, congrArg Value.tuple (Value.map_str_of_length hlength).symm, ?_⟩
      unfold chosen at hgiven
      split at hgiven
      · exact Or.inl (congrArg Sum.inl (Option.some.inj hgiven))
      · exact Or.inr ⟨rfl, (Option.some.inj hgiven).symm⟩
      · cases hgiven
  · rintro ⟨rfl, rfl, rfl, rfl, htransport⟩
    simp only [post_init, Value.filterMap_str?_map, dif_pos reader.owner_ok, dif_pos reader.repository_ok,
      dif_pos reader.commit_sha_ok, dif_pos reader.allowed_paths_ok, List.length_map, if_true]
    obtain rfl | ⟨rfl, hopener⟩ := htransport
    · rfl
    · rw [← hopener]
      rfl

/-- The start of every source id that the reader accepts. -/
def start (reader : PinnedPublicGitHubReader σ) : Str :=
  Str.ofString "github:" ++ reader.owner ++ Str.ofString "/" ++ reader.repository ++ Str.ofString ":"

/-- The path that a source id names, if it names one of the allowed paths. -/
def allowed_path (reader : PinnedPublicGitHubReader σ) (source_id : Str) : Option Str :=
  if reader.start.isPrefixOf source_id then
    let path := source_id.drop reader.start.length
    if path ∈ reader.allowed_paths then some path else none
  else
    none

/-- A source id is the reader's start and one of its allowed paths. -/
theorem allowed_path_eq_some_iff {reader : PinnedPublicGitHubReader σ} {source_id path : Str} :
    reader.allowed_path source_id = some path ↔ source_id = reader.start ++ path ∧ path ∈ reader.allowed_paths := by
  unfold allowed_path
  constructor
  · intro hpath
    split at hpath
    case isFalse => cases hpath
    case isTrue hstart =>
      obtain ⟨rest, rfl⟩ := List.isPrefixOf_iff_prefix.mp hstart
      simp only [List.drop_left] at hpath
      split at hpath
      case isFalse => cases hpath
      case isTrue hallowed =>
        obtain rfl := Option.some.inj hpath
        exact ⟨rfl, hallowed⟩
  · rintro ⟨rfl, hallowed⟩
    have hstart : reader.start.isPrefixOf (reader.start ++ path) = true :=
      List.isPrefixOf_iff_prefix.mpr (List.prefix_append reader.start path)
    simp only [hstart, if_true, List.drop_left, if_pos hallowed]

def http_request (library : Library) (reader : PinnedPublicGitHubReader σ) (path : Str) : HttpRequest where
  url := Str.ofString "https://api.github.com/repos/" ++ library.quote reader.owner "" ++ Str.ofString "/" ++
    library.quote reader.repository "" ++ Str.ofString "/contents/" ++ library.quote path "/" ++
    Str.ofString "?ref=" ++ reader.commit_sha
  headers := [("Accept", "application/vnd.github+json"), ("User-Agent", "bounded-public-source-read-reference")]
  method := "GET"
  timeout := 5

end PinnedPublicGitHubReader

/-- `response.status != 200` is false: an integer, or the float of the same value. -/
def is_200 : Value → Bool
  | .int status => status = 200
  | .float bits => bits = 0x4069000000000000
  | _ => false

/-- The keys of the response that the reader reads, with their types. -/
structure FileObject where
  type : Str
  encoding : Str
  content : Str
  size : Int
  sha : Str
  path : Str

def FileObject.of_dict? (data : Value) : Option FileObject :=
  match data.get? "type", data.get? "encoding", data.get? "content", data.get? "size", data.get? "sha",
    data.get? "path" with
  | some (.str type), some (.str encoding), some (.str content), some (.int size), some (.str sha), some (.str path) =>
    some ⟨type, encoding, content, size, sha, path⟩
  | _, _, _, _, _, _ => none

/-- `content.replace("\n", "")`. -/
def without_newlines (content : Str) : Str := content.filter fun c => c.val ≠ 0x0a

/-- The bytes of a file object for `path`, once every check on it has passed. -/
def file_bytes (library : Library) (path : Str) (file : FileObject) : Option Bytes :=
  if file.type = Str.ofString "file" ∧ file.encoding = Str.ofString "base64" ∧
      (0 ≤ file.size ∧ file.size ≤ MAX_CONTENT) ∧ is_sha file.sha ∧ file.path = path then
    match library.b64decode (without_newlines file.content) with
    | some raw => if raw.length = file.size ∧ library.git_blob_sha raw = file.sha then some raw else none
    | none => none
  else
    none

/-- The bytes of the file that an answer of the transport delivers. -/
def answer_bytes (library : Library) (path : Str) : Answer → Option Bytes
  | .raised => none
  | .returned response =>
    if is_200 response.status then
      match response.read (MAX_RESPONSE + 1) with
      | some (.bytes body) =>
        if body.length ≤ MAX_RESPONSE then
          match library.json_loads_utf8 Json.default_hooks body with
          | some data => (FileObject.of_dict? data).bind (file_bytes library path)
          | none => none
        else none
      | _ => none
    else none

/-- `__call__`, with `none` for `PublicReadError`. -/
def PinnedPublicGitHubReader.call {σ : Type} (library : Library) (reader : PinnedPublicGitHubReader σ)
    (source_id : Value) (calls : Calls σ HttpRequest Answer) : Option FetchedSource × Calls σ HttpRequest Answer :=
  match source_id.str?.bind reader.allowed_path with
  | none => (none, calls)
  | some path =>
    match calls.call reader.transport (reader.http_request library path) with
    | (answer, calls) =>
      ((answer_bytes library path answer).map fun raw => ⟨source_id, .str reader.commit_sha, .bytes raw⟩, calls)

/-- The answer of the transport carries the file `raw` at `path`: it is the content
    of a well-formed file object, with its length and git blob SHA-1. -/
structure Carries (library : Library) (answer : Answer) (path : Str) (raw : Bytes) : Prop where
  document : ∃ response body data file, answer = .returned response ∧ is_200 response.status ∧
    response.read (MAX_RESPONSE + 1) = some (.bytes body) ∧ body.length ≤ MAX_RESPONSE ∧
    library.json_loads_utf8 Json.default_hooks body = some data ∧ FileObject.of_dict? data = some file ∧
    file.type = Str.ofString "file" ∧ file.encoding = Str.ofString "base64" ∧ file.path = path ∧
    library.b64decode (without_newlines file.content) = some raw ∧ file.size = raw.length ∧
    file.sha = library.git_blob_sha raw
  bounded : raw.length ≤ MAX_CONTENT

theorem file_bytes_spec {library : Library} {path : Str} {file : FileObject} {raw : Bytes}
    (hbytes : file_bytes library path file = some raw) :
    (file.type = Str.ofString "file" ∧ file.encoding = Str.ofString "base64" ∧ file.path = path ∧
      library.b64decode (without_newlines file.content) = some raw ∧ file.size = raw.length ∧
      file.sha = library.git_blob_sha raw) ∧ raw.length ≤ MAX_CONTENT := by
  unfold file_bytes at hbytes
  split at hbytes
  case isTrue hchecks =>
    obtain ⟨htype, hencoding, ⟨_, hsize⟩, _, hpath⟩ := hchecks
    cases hdecode : library.b64decode (without_newlines file.content) with
    | none => simp [hdecode] at hbytes
    | some decoded =>
      simp only [hdecode] at hbytes
      split at hbytes
      case isTrue hsame =>
        obtain rfl := Option.some.inj hbytes
        exact ⟨⟨htype, hencoding, hpath, rfl, hsame.1.symm, hsame.2.symm⟩, by omega⟩
      case isFalse => cases hbytes
  case isFalse => cases hbytes

theorem carries_of_answer_bytes {library : Library} {path : Str} {answer : Answer} {raw : Bytes}
    (hbytes : answer_bytes library path answer = some raw) : Carries library answer path raw := by
  cases answer with
  | raised => cases hbytes
  | returned response =>
    simp only [answer_bytes] at hbytes
    split at hbytes
    case isFalse => cases hbytes
    case isTrue hstatus =>
      split at hbytes
      case h_2 => cases hbytes
      case h_1 body hbody =>
        split at hbytes
        case isFalse => cases hbytes
        case isTrue hlength =>
          cases hdata : library.json_loads_utf8 Json.default_hooks body with
          | none => simp [hdata] at hbytes
          | some data =>
            simp only [hdata, Option.bind_eq_some_iff] at hbytes
            obtain ⟨file, hfile, hraw⟩ := hbytes
            obtain ⟨hdocument, hbounded⟩ := file_bytes_spec hraw
            exact ⟨⟨response, body, data, file, rfl, hstatus, hbody, hlength, hdata, hfile, hdocument⟩, hbounded⟩

/-- One call of the reader makes at most one call of its transport, for one of the
    allowed paths, and returns only bytes that the answer carries. -/
theorem PinnedPublicGitHubReader.call_spec {σ : Type} (library : Library) (reader : PinnedPublicGitHubReader σ)
    (source_id : Value) (before : Calls σ HttpRequest Answer) :
    (reader.call library source_id before = (none, before) ∧ source_id.str?.bind reader.allowed_path = none) ∨
      ∃ path answer, source_id.str?.bind reader.allowed_path = some path ∧
        before.Made (reader.call library source_id before).2 [(reader.http_request library path, answer)] ∧
        ∀ receipt, (reader.call library source_id before).1 = some receipt →
          ∃ raw, receipt = ⟨source_id, .str reader.commit_sha, .bytes raw⟩ ∧ Carries library answer path raw := by
  cases hpath : source_id.str?.bind reader.allowed_path with
  | none => exact Or.inl ⟨by simp [call, hpath], rfl⟩
  | some path =>
    refine Or.inr ⟨path, (before.call reader.transport (reader.http_request library path)).1, rfl, ?_, ?_⟩
    · simp only [call, hpath]
      exact before.made_call reader.transport (reader.http_request library path)
    · intro receipt hreceipt
      simp only [call, hpath, Option.map_eq_some_iff] at hreceipt
      obtain ⟨raw, hraw, rfl⟩ := hreceipt
      exact ⟨raw, rfl, carries_of_answer_bytes hraw⟩

/-- A file object that carries bytes passes every check, for a SHA-1 in hexadecimal
    form. -/
theorem answer_bytes_of_carries {library : Library} {path : Str} {answer : Answer} {raw : Bytes}
    (hcarries : Carries library answer path raw) (hsha : is_sha (library.git_blob_sha raw)) :
    answer_bytes library path answer = some raw := by
  obtain ⟨⟨response, body, data, file, rfl, hstatus, hread, hlength, hdata, hfile, htype, hencoding, hpath, hdecode,
    hsize, hfileSha⟩, hbounded⟩ := hcarries
  have hchecks : file.type = Str.ofString "file" ∧ file.encoding = Str.ofString "base64" ∧
      (0 ≤ file.size ∧ file.size ≤ MAX_CONTENT) ∧ is_sha file.sha ∧ file.path = path :=
    ⟨htype, hencoding, by omega, hfileSha ▸ hsha, hpath⟩
  have hbytes : file_bytes library path file = some raw := by
    simp only [file_bytes, if_pos hchecks, hdecode]
    rw [if_pos ⟨hsize.symm, hfileSha.symm⟩]
  simp only [answer_bytes, hstatus, hread, hlength, hdata, hfile, if_true, Option.bind_some, hbytes]

theorem PinnedPublicGitHubReader.call_allowed {σ : Type} (library : Library) {reader : PinnedPublicGitHubReader σ}
    {source_id : Value} {path : Str} (hpath : source_id.str?.bind reader.allowed_path = some path)
    (before : Calls σ HttpRequest Answer) :
    reader.call library source_id before =
      ((answer_bytes library path (before.call reader.transport (reader.http_request library path)).1).map
        fun raw => ⟨source_id, .str reader.commit_sha, .bytes raw⟩,
        (before.call reader.transport (reader.http_request library path)).2) := by
  simp only [call, hpath]

/-! ### Texts of the patterns -/

theorem ascii_of_alphanumeric {c : CodePoint} (hc : alphanumeric c) : c.val < 0x80 := by
  simp only [alphanumeric, Bool.or_eq_true, Bool.and_eq_true, decide_eq_true_eq] at hc
  omega

theorem class_chars {others text : Str} {most : Nat} (hmatches : matches_class others most text) :
    ∀ c ∈ text, alphanumeric c = true ∨ c ∈ others := by
  simp only [matches_class, Bool.and_eq_true, List.all_eq_true, Bool.or_eq_true, decide_eq_true_eq] at hmatches
  exact hmatches.2

theorem class_of_path {path : Str} (hpath : path_ok path) : matches_class "._/-" 256 path := by
  simp only [path_ok, Bool.and_eq_true] at hpath
  exact hpath.1.1.1

theorem ascii_of_matches_class {others text : Str} {most : Nat} (hothers : IsAscii others)
    (hmatches : matches_class others most text) : IsAscii text := by
  intro c hc
  obtain halphanumeric | hother := class_chars hmatches c hc
  · exact ascii_of_alphanumeric halphanumeric
  · exact hothers c hother

theorem ascii_of_name {name : Str} (hname : is_name name) : IsAscii name :=
  ascii_of_matches_class (by decide +kernel) hname

theorem ascii_of_path {path : Str} (hpath : path_ok path) : IsAscii path :=
  ascii_of_matches_class (by decide +kernel) (class_of_path hpath)

theorem identifier_of_sha {sha : Str} (hsha : is_sha sha) : Identifier sha := by
  simp only [is_sha, Bool.and_eq_true, decide_eq_true_eq, List.all_eq_true, Bool.or_eq_true] at hsha
  apply identifier_of_ascii
  · intro hempty
    simp [hempty] at hsha
  · intro c hc
    have hdigit := hsha.2 c hc
    omega

/-- Every source id that a reader accepts is an identifier. -/
theorem PinnedPublicGitHubReader.identifier_of_allowed {σ : Type} {reader : PinnedPublicGitHubReader σ}
    {source_id path : Str} (hallowed : reader.allowed_path source_id = some path) : Identifier source_id := by
  obtain ⟨rfl, hmem⟩ := allowed_path_eq_some_iff.mp hallowed
  have hgithub : IsAscii "github:" := by decide +kernel
  have hslash : IsAscii "/" := by decide +kernel
  have hcolon : IsAscii ":" := by decide +kernel
  have hstart : IsAscii reader.start :=
    (((hgithub.append (ascii_of_name reader.owner_ok.1)).append hslash).append
      (ascii_of_name reader.repository_ok.1)).append hcolon
  apply identifier_of_ascii
  · simp [start, Str.ofString]
  · exact hstart.append (ascii_of_path (reader.allowed_paths_ok.2.1 path hmem))

end context_router.github_public_pinned_reader
