import ContextRouter.Python.Decimal
import ContextRouter.Python.Json

namespace python

/-- The standard library functions that the program calls and whose insides it does
    not rely on. A function that raises answers `none`. -/
structure Library where
  /-- `hashlib.sha1(content).hexdigest()` -/
  sha1 : Bytes → Str
  /-- `hashlib.sha256(content).hexdigest()` -/
  sha256 : Bytes → Str
  /-- The scanner of `json.loads`, before any hook is called. -/
  json_scan : Str → Option Json
  /-- `base64.b64decode(text, validate=True)` -/
  b64decode : Str → Option Bytes
  /-- `urllib.parse.quote(text, safe)` -/
  quote : Str → Str → Str

namespace Library

/-- `json.loads(text, ...)`. A syntax error and a hook that raises end it alike. -/
def json_loads (library : Library) (hooks : Hooks) (text : Str) : Option Value := do
  let json ← library.json_scan text
  json.load hooks

/-- `json.loads(content.decode("utf-8"), ...)`. -/
def json_loads_utf8 (library : Library) (hooks : Hooks) (content : Bytes) : Option Value := do
  let text ← decode_utf8 content
  library.json_loads hooks text

/-- The id that git gives to a file: the SHA-1 of `blob <length>`, a zero byte and
    the content. -/
def git_blob_sha (library : Library) (raw : Bytes) : Str :=
  library.sha1 (encode_ascii (Str.ofString "blob " ++ decimal raw.length) ++ [0] ++ raw)

end Library

/-- What git hashes for a file. -/
def git_blob (raw : Bytes) : Bytes :=
  encode_ascii (Str.ofString "blob " ++ decimal raw.length) ++ [0] ++ raw

theorem Library.git_blob_sha_eq (library : Library) (raw : Bytes) :
    library.git_blob_sha raw = library.sha1 (git_blob raw) := rfl

/-- The zero byte ends the length, so no two files have the same message. -/
theorem git_blob_injective : Function.Injective git_blob := by
  intro raw raw' heq
  simp only [git_blob, encode_ascii_append, List.append_assoc, List.append_right_inj, List.singleton_append] at heq
  exact (numeral_append_inj (by decide) (by decide) heq).2.2

/-! ### Calls to code outside the program -/

/-- The state of an external callee and the calls made to it so far, each with its
    answer. -/
structure Calls (σ Query Answer : Type) where
  state : σ
  log : List (Query × Answer)

/-- Call out once. The callee may change its state in any way. -/
def Calls.call {σ Query Answer : Type} (callee : Query → σ → Answer × σ) (query : Query)
    (calls : Calls σ Query Answer) : Answer × Calls σ Query Answer :=
  let answer := callee query calls.state
  (answer.1, ⟨answer.2, calls.log ++ [(query, answer.1)]⟩)

/-- The calls that a run has added to those made before it. -/
def Calls.Made {σ Query Answer : Type} (before after : Calls σ Query Answer) (made : List (Query × Answer)) : Prop :=
  after.log = before.log ++ made

theorem Calls.made_none {σ Query Answer : Type} (calls : Calls σ Query Answer) : calls.Made calls [] := by
  simp [Calls.Made]

theorem Calls.Made.trans {σ Query Answer : Type} {before middle after : Calls σ Query Answer}
    {made more : List (Query × Answer)} (hmade : before.Made middle made) (hmore : middle.Made after more) :
    before.Made after (made ++ more) := by
  rw [Calls.Made, hmore, hmade, List.append_assoc]

/-- A callee answers queries one after the other and goes from one state to another. -/
inductive Answers {σ Query Answer : Type} (callee : Query → σ → Answer × σ) : σ → List (Query × Answer) → σ → Prop
  | done {state} : Answers callee state [] state
  | next {query state made after} (hmore : Answers callee (callee query state).2 made after) :
      Answers callee state ((query, (callee query state).1) :: made) after

theorem Answers.trans {σ Query Answer : Type} {callee : Query → σ → Answer × σ} {before middle after : σ}
    {made more : List (Query × Answer)} (hmade : Answers callee before made middle)
    (hmore : Answers callee middle more after) : Answers callee before (made ++ more) after := by
  induction hmade with
  | done => exact hmore
  | next hrest ih => exact .next (ih hmore)

theorem Calls.answers_call {σ Query Answer : Type} (callee : Query → σ → Answer × σ) (query : Query)
    (calls : Calls σ Query Answer) :
    Answers callee calls.state [(query, (calls.call callee query).1)] (calls.call callee query).2.state :=
  .next .done

theorem Calls.made_call {σ Query Answer : Type} (callee : Query → σ → Answer × σ) (query : Query)
    (calls : Calls σ Query Answer) :
    calls.Made (calls.call callee query).2 [(query, (calls.call callee query).1)] := rfl

end python
