import ContextRouter.GithubPublicPinnedReader

open python

namespace context_router.github_public_pinned_reader

variable {σ τ : Type}

def colon : CodePoint := 0x3a
def question : CodePoint := 0x3f

/-- `quote` leaves letters, digits, `_`, `.` and `-` as they are, and `/` where it is
    safe. -/
def StandardQuote (library : Library) : Prop :=
  ∀ text safe, (∀ c ∈ text, alphanumeric c = true ∨ c ∈ Str.ofString "_.-" ∨ c = slash ∧ slash ∈ safe) →
    library.quote text safe = text

/-- The path of the URL for a file, without its first slash. -/
def PinnedPublicGitHubReader.url_path (reader : PinnedPublicGitHubReader σ) (path : Str) : Str :=
  Str.ofString "repos/" ++ reader.owner ++ Str.ofString "/" ++ reader.repository ++ Str.ofString "/contents/" ++ path

/-- A check of every character by evaluation. -/
theorem forall_chars {text : Str} {P : CodePoint → Prop} [DecidablePred P] (hall : text.all fun c => P c) :
    ∀ c ∈ text, P c := by
  simpa using hall

theorem class_not_mem {others text : Str} {most : Nat} (hmatches : matches_class others most text) {c : CodePoint}
    (hc : ¬ (alphanumeric c = true ∨ c ∈ others)) : c ∉ text :=
  fun hmem => hc (class_chars hmatches c hmem)

theorem slash_not_mem_name {name : Str} (hname : is_name name) : slash ∉ name := class_not_mem hname (by decide +kernel)

theorem colon_not_mem_name {name : Str} (hname : is_name name) : colon ∉ name := class_not_mem hname (by decide +kernel)

theorem question_not_mem_path {path : Str} (hpath : path_ok path) : question ∉ path :=
  class_not_mem (class_of_path hpath) (by decide +kernel)

theorem slash_text : Str.ofString "/" = [slash] := rfl

theorem components_of_path {path : Str} (hpath : path_ok path) :
    ∀ component ∈ path.splitOn slash, component ∉ [Str.ofString "", Str.ofString ".", Str.ofString ".."] := by
  simp only [path_ok, Bool.and_eq_true, List.all_eq_true, decide_eq_true_eq] at hpath
  exact hpath.2

theorem sha_chars {sha : Str} (hsha : is_sha sha) : ∀ c ∈ sha, alphanumeric c = true := by
  simp only [is_sha, Bool.and_eq_true, decide_eq_true_eq, List.all_eq_true, Bool.or_eq_true] at hsha
  intro c hc
  have hdigit := hsha.2 c hc
  simp only [alphanumeric, Bool.or_eq_true, Bool.and_eq_true, decide_eq_true_eq]
  omega

/-- Nothing is quoted in the URL of a file. -/
theorem PinnedPublicGitHubReader.url_eq {library : Library} (hquote : StandardQuote library)
    (reader : PinnedPublicGitHubReader σ) {path : Str} (hpath : path ∈ reader.allowed_paths) :
    (reader.http_request library path).url =
      Str.ofString "https://api.github.com/" ++ reader.url_path path ++ Str.ofString "?ref=" ++ reader.commit_sha := by
  have hname : ∀ {name}, is_name name → library.quote name "" = name := by
    intro name hname
    apply hquote
    intro c hc
    exact (class_chars hname c hc).imp_right Or.inl
  have hfile : library.quote path "/" = path := by
    apply hquote
    intro c hc
    have hothers : ∀ c ∈ Str.ofString "._/-", c ∈ Str.ofString "_.-" ∨ c = slash ∧ slash ∈ Str.ofString "/" :=
      forall_chars (by decide +kernel)
    exact (class_chars (class_of_path (reader.allowed_paths_ok.2.1 path hpath)) c hc).imp_right (hothers c)
  have hhost : Str.ofString "https://api.github.com/repos/" =
      Str.ofString "https://api.github.com/" ++ Str.ofString "repos/" := rfl
  simp only [http_request, url_path, hname reader.owner_ok.1, hname reader.repository_ok.1, hfile, hhost,
    List.append_assoc]

theorem component_of_name {name : Str} (hname : is_name name ∧ name ∉ [Str.ofString ".", Str.ofString ".."]) :
    name ∉ [Str.ofString "", Str.ofString ".", Str.ofString ".."] := by
  have hnonempty : name ≠ Str.ofString "" := by
    intro hempty
    rw [hempty] at hname
    exact absurd hname.1 (by decide)
  rw [List.mem_cons, not_or]
  exact ⟨hnonempty, hname.2⟩

/-- The components of the URL's path are its fixed ones, two names and those of the file's
    path. -/
theorem PinnedPublicGitHubReader.splitOn_url_path (reader : PinnedPublicGitHubReader σ) (path : Str) :
    (reader.url_path path).splitOn slash =
      [Str.ofString "repos", reader.owner, reader.repository, Str.ofString "contents"] ++ path.splitOn slash := by
  have hjoined : reader.url_path path = Str.ofString "repos" ++ slash :: (reader.owner ++ slash ::
      (reader.repository ++ slash :: (Str.ofString "contents" ++ slash :: path))) := by
    have hrepos : Str.ofString "repos/" = Str.ofString "repos" ++ [slash] := rfl
    have hcontents : Str.ofString "/contents/" = slash :: (Str.ofString "contents" ++ [slash]) := rfl
    simp [url_path, slash_text, hrepos, hcontents]
  rw [hjoined, List.splitOn_append_cons_self_of_not_mem (by decide +kernel),
    List.splitOn_append_cons_self_of_not_mem (slash_not_mem_name reader.owner_ok.1),
    List.splitOn_append_cons_self_of_not_mem (slash_not_mem_name reader.repository_ok.1),
    List.splitOn_append_cons_self_of_not_mem (by decide +kernel)]
  rfl

/-- None of them is empty or leads up or nowhere. -/
theorem PinnedPublicGitHubReader.components_of_url_path (reader : PinnedPublicGitHubReader σ) {path : Str}
    (hpath : path ∈ reader.allowed_paths) :
    ∀ component ∈ (reader.url_path path).splitOn slash,
      component ∉ [Str.ofString "", Str.ofString ".", Str.ofString ".."] := by
  have hfixed : ∀ component ∈ [Str.ofString "repos", Str.ofString "contents"],
      component ∉ [Str.ofString "", Str.ofString ".", Str.ofString ".."] := by
    decide +kernel
  intro component hmem
  rw [reader.splitOn_url_path] at hmem
  simp only [List.mem_append, List.mem_cons, List.not_mem_nil, or_false] at hmem
  obtain (rfl | rfl | rfl | rfl) | hfile := hmem
  · exact hfixed _ List.mem_cons_self
  · exact component_of_name reader.owner_ok
  · exact component_of_name reader.repository_ok
  · exact hfixed _ (List.mem_cons_of_mem _ List.mem_cons_self)
  · exact components_of_path (reader.allowed_paths_ok.2.1 path hpath) component hfile

/-- No part of the URL holds a character that ends its path or starts an escape. -/
theorem PinnedPublicGitHubReader.url_chars (reader : PinnedPublicGitHubReader σ) {path : Str}
    (hpath : path ∈ reader.allowed_paths) :
    ∀ c ∈ reader.url_path path ++ reader.commit_sha, c ∉ Str.ofString "?#%" := by
  have hmarks : ∀ c ∈ Str.ofString "?#%", alphanumeric c = false ∧ c ∉ Str.ofString "_.-" ∧ c ∉ Str.ofString "._/-" :=
    forall_chars (by decide +kernel)
  have hfixed : ∀ c ∈ Str.ofString "repos/" ++ Str.ofString "/" ++ Str.ofString "/contents/", c ∉ Str.ofString "?#%" :=
    forall_chars (by decide +kernel)
  intro c hc hmark
  obtain ⟨halphanumeric, hname, hfile⟩ := hmarks c hmark
  have hletter : alphanumeric c ≠ true := by simp [halphanumeric]
  simp only [url_path, List.mem_append] at hc hfixed
  obtain (((((hrepos | howner) | hslash) | hrepository) | hcontents) | hpathChar) | hcommit := hc
  · exact hfixed c (Or.inl (Or.inl hrepos)) hmark
  · exact class_not_mem reader.owner_ok.1 (not_or.mpr ⟨hletter, hname⟩) howner
  · exact hfixed c (Or.inl (Or.inr hslash)) hmark
  · exact class_not_mem reader.repository_ok.1 (not_or.mpr ⟨hletter, hname⟩) hrepository
  · exact hfixed c (Or.inr hcontents) hmark
  · exact class_not_mem (class_of_path (reader.allowed_paths_ok.2.1 path hpath)) (not_or.mpr ⟨hletter, hfile⟩) hpathChar
  · exact hletter (sha_chars reader.commit_sha_ok c hcommit)

/-- The slash ends the owner and the colon the repository, so a source id names one file. -/
theorem start_append_inj {reader : PinnedPublicGitHubReader σ} {reader' : PinnedPublicGitHubReader τ} {path path' : Str}
    (heq : reader.start ++ path = reader'.start ++ path') :
    reader.owner = reader'.owner ∧ reader.repository = reader'.repository ∧ path = path' := by
  have hcolon : Str.ofString ":" = [colon] := rfl
  simp only [PinnedPublicGitHubReader.start, slash_text, hcolon, List.append_assoc, List.append_right_inj,
    List.cons_append, List.nil_append] at heq
  obtain ⟨howner, hrest⟩ :=
    append_stop_inj (slash_not_mem_name reader.owner_ok.1) (slash_not_mem_name reader'.owner_ok.1) heq
  obtain ⟨hrepository, hpath⟩ :=
    append_stop_inj (colon_not_mem_name reader.repository_ok.1) (colon_not_mem_name reader'.repository_ok.1) hrest
  exact ⟨howner, hrepository, hpath⟩

/-- Slashes end the two names and the question mark the path, so a URL names one file at
    one commit. -/
theorem url_inj {library : Library} (hquote : StandardQuote library) {reader : PinnedPublicGitHubReader σ}
    {reader' : PinnedPublicGitHubReader τ} {path path' : Str} (hpath : path ∈ reader.allowed_paths)
    (hpath' : path' ∈ reader'.allowed_paths)
    (heq : (reader.http_request library path).url = (reader'.http_request library path').url) :
    reader.owner = reader'.owner ∧ reader.repository = reader'.repository ∧ path = path' ∧
      reader.commit_sha = reader'.commit_sha := by
  have hcontents : Str.ofString "/contents/" = slash :: Str.ofString "contents/" := rfl
  have href : Str.ofString "?ref=" = question :: Str.ofString "ref=" := rfl
  rw [reader.url_eq hquote hpath, reader'.url_eq hquote hpath'] at heq
  simp only [PinnedPublicGitHubReader.url_path, slash_text, hcontents, href, List.append_assoc, List.append_right_inj,
    List.cons_append, List.nil_append] at heq
  obtain ⟨howner, hrest⟩ :=
    append_stop_inj (slash_not_mem_name reader.owner_ok.1) (slash_not_mem_name reader'.owner_ok.1) heq
  obtain ⟨hrepository, hfile⟩ :=
    append_stop_inj (slash_not_mem_name reader.repository_ok.1) (slash_not_mem_name reader'.repository_ok.1) hrest
  rw [List.append_right_inj] at hfile
  obtain ⟨hsame, hcommit⟩ := append_stop_inj (question_not_mem_path (reader.allowed_paths_ok.2.1 path hpath))
    (question_not_mem_path (reader'.allowed_paths_ok.2.1 path' hpath')) hfile
  rw [List.append_right_inj] at hcommit
  exact ⟨howner, hrepository, hsame, hcommit⟩

/-- A request for one file of the reader's repository at its commit, and for nothing else. -/
structure PinnedRequest (reader : PinnedPublicGitHubReader σ) (path : Str) (request : HttpRequest) : Prop where
  method : request.method = Str.ofString "GET"
  url : request.url =
    Str.ofString "https://api.github.com/" ++ reader.url_path path ++ Str.ofString "?ref=" ++ reader.commit_sha
  components : ∀ component ∈ (reader.url_path path).splitOn slash,
    component ∉ [Str.ofString "", Str.ofString ".", Str.ofString ".."]
  chars : ∀ c ∈ reader.url_path path ++ reader.commit_sha, c ∉ Str.ofString "?#%"

/-- A reader asks for one of its own files or for nothing. Its source ids tell
    repositories and paths apart, and its URLs commits as well. -/
theorem pinned_address (library : Library) (hquote : StandardQuote library) :
    (∀ (σ : Type) (reader : PinnedPublicGitHubReader σ) (source_id : Str) (before : Calls σ HttpRequest Answer),
      reader.call library (.str source_id) before = (none, before) ∨
        ∃ path ∈ reader.allowed_paths, ∃ request answer, source_id = reader.start ++ path ∧
          before.Made (reader.call library (.str source_id) before).2 [(request, answer)] ∧
          PinnedRequest reader path request) ∧
    (∀ (σ τ : Type) (reader : PinnedPublicGitHubReader σ) (reader' : PinnedPublicGitHubReader τ)
        (source_id path path' : Str),
      reader.allowed_path source_id = some path → reader'.allowed_path source_id = some path' →
        reader.owner = reader'.owner ∧ reader.repository = reader'.repository ∧ path = path') ∧
    ∀ (σ τ : Type) (reader : PinnedPublicGitHubReader σ) (reader' : PinnedPublicGitHubReader τ),
      ∀ path ∈ reader.allowed_paths, ∀ path' ∈ reader'.allowed_paths,
        (reader.http_request library path).url = (reader'.http_request library path').url →
          reader.owner = reader'.owner ∧ reader.repository = reader'.repository ∧ path = path' ∧
            reader.commit_sha = reader'.commit_sha := by
  refine ⟨?one_request, ?source_ids, ?urls⟩
  case one_request =>
    intro σ reader source_id before
    obtain ⟨huntouched, _⟩ | ⟨path, answer, hallowed, hmade, _⟩ := reader.call_spec library (.str source_id) before
    · exact Or.inl huntouched
    · obtain ⟨hid, hpath⟩ := PinnedPublicGitHubReader.allowed_path_eq_some_iff.mp hallowed
      refine Or.inr ⟨path, hpath, reader.http_request library path, answer, hid, hmade, rfl,
        reader.url_eq hquote hpath, ?_, ?_⟩
      · exact reader.components_of_url_path hpath
      · exact reader.url_chars hpath
  case source_ids =>
    intro σ τ reader reader' source_id path path' hallowed hallowed'
    obtain ⟨hid, _⟩ := PinnedPublicGitHubReader.allowed_path_eq_some_iff.mp hallowed
    obtain ⟨hid', _⟩ := PinnedPublicGitHubReader.allowed_path_eq_some_iff.mp hallowed'
    exact start_append_inj (hid.symm.trans hid')
  case urls =>
    intro σ τ reader reader' path hpath path' hpath' heq
    exact url_inj hquote hpath hpath' heq

/-! ### A repository with one short file -/

def notes_text : Str := "# Notes\n\nA line of base64 text stands for 45 bytes, so this file takes two.\n"

/-- Its git blob SHA-1. -/
def notes_sha : Str := "e224db2d04d625eff0f646d826410e67e90ce28f"

/-- Its base64 text: a full line of 60 characters and the rest. -/
def notes_line : Str := "IyBOb3RlcwoKQSBsaW5lIG9mIGJhc2U2NCB0ZXh0IHN0YW5kcyBmb3IgNDUg"

def notes_rest : Str := "Ynl0ZXMsIHNvIHRoaXMgZmlsZSB0YWtlcyB0d28uCg=="

/-- The answer for it, with a line break after each line of base64 text. -/
def notes_response : Str :=
  Str.ofString "\x7b\"type\":\"file\",\"encoding\":\"base64\",\"content\":\"" ++ notes_line ++ Str.ofString "\\n" ++
    notes_rest ++ Str.ofString "\\n\",\"size\":76,\"sha\":\"" ++ notes_sha ++
    Str.ofString "\",\"path\":\"README.md\"\x7d"

/-- Its `content`, once the string escapes are read. -/
def notes_content : Str := notes_line ++ Str.ofString "\n" ++ notes_rest ++ Str.ofString "\n"

def notes_document : Json :=
  .object [("type", .str "file"), ("encoding", .str "base64"), ("content", .str notes_content), ("size", .int 76),
    ("sha", .str notes_sha), ("path", .str "README.md")]

/-- The standard library on the inputs of a read. -/
def notes_library : Library where
  sha1 content :=
    if content = encode_ascii (Str.ofString "blob 76") ++ [0] ++ encode_ascii notes_text then notes_sha else []
  sha256 _ := []
  json_scan text := if text = notes_response then some notes_document else none
  b64decode text := if text = notes_line ++ notes_rest then some (encode_ascii notes_text) else none
  quote text _ := text

def notes_reader : PinnedPublicGitHubReader Unit where
  owner := "fiction-press"
  repository := "notes"
  commit_sha := List.replicate 40 0x61
  allowed_paths := ["README.md"]
  transport _ _ := (.returned ⟨.int 200, fun amount => some (.bytes ((encode_ascii notes_response).take amount))⟩, ())
  owner_ok := by decide +kernel
  repository_ok := by decide +kernel
  commit_sha_ok := by decide +kernel
  allowed_paths_ok := by decide +kernel

theorem notes_request_pinned : ∃ path ∈ notes_reader.allowed_paths, ∃ request,
    (notes_reader.call notes_library (.str (notes_reader.start ++ Str.ofString "README.md")) ⟨(), []⟩).2.log.map
      Prod.fst = [request] ∧ PinnedRequest notes_reader path request := by
  obtain ⟨hcall, _⟩ := pinned_address notes_library fun text safe _ => rfl
  obtain hnone | ⟨path, hpath, request, answer, _, hmade, hpinned⟩ := hcall Unit notes_reader
    (notes_reader.start ++ Str.ofString "README.md") ⟨(), []⟩
  · have hlog := congrArg (fun run => run.2.log.length) hnone
    exact absurd hlog (by decide +kernel)
  · exact ⟨path, hpath, request, by rw [hmade]; rfl, hpinned⟩

end context_router.github_public_pinned_reader
