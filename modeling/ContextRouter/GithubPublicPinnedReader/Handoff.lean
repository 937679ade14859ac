import ContextRouter.GithubPublicPinnedReader
import ContextRouter.GithubPublicPinnedReader.Address
import ContextRouter.SourceReadAcquisitionHandoff.Reads

open python

namespace context_router.github_public_pinned_reader

open source_read_observation source_read_gate source_read_acquisition_handoff

variable {σ : Type}

section Fetcher

variable {library : Library} {reader : PinnedPublicGitHubReader σ} {source path : Str}

end Fetcher

/-- The requests that the reader sends for a list of sources, each by its path with the
    answer, and whether the requirement was read. The first answer without a file ends
    the run, and so does a source that the reader does not allow. -/
inductive PinnedReads (library : Library) (reader : PinnedPublicGitHubReader σ) (mode : Str) :
    List Str → List (Str × Answer) → Bool → Prop where
  | done : PinnedReads library reader mode [] [] true
  | refused {source rest} (hpath : reader.allowed_path source = none) :
      PinnedReads library reader mode (source :: rest) [] false
  | failed {path answer rest} (hallowed : path ∈ reader.allowed_paths)
      (hbytes : answer_bytes library path answer = none) :
      PinnedReads library reader mode ((reader.start ++ path) :: rest) [(path, answer)] false
  | found {path answer rest} (hmode : mode = ANY) (hallowed : path ∈ reader.allowed_paths)
      (hbytes : (answer_bytes library path answer).isSome) :
      PinnedReads library reader mode ((reader.start ++ path) :: rest) [(path, answer)] true
  | next {path answer rest read complete} (hmode : mode ≠ ANY) (hallowed : path ∈ reader.allowed_paths)
      (hbytes : (answer_bytes library path answer).isSome)
      (hrest : PinnedReads library reader mode rest read complete) :
      PinnedReads library reader mode ((reader.start ++ path) :: rest) ((path, answer) :: read) complete

/-- The source ids that were asked for. -/
def asked (reader : PinnedPublicGitHubReader σ) (read : List (Str × Answer)) : List Str :=
  read.map fun (path, _) => reader.start ++ path

namespace PinnedReads

variable {library : Library} {reader : PinnedPublicGitHubReader σ} {mode : Str} {sources : List Str}
  {read : List (Str × Answer)} {complete : Bool}

theorem allowed (hreads : PinnedReads library reader mode sources read complete) :
    ∀ call ∈ read, call.1 ∈ reader.allowed_paths := by
  induction hreads with
  | done => simp
  | refused hpath => simp
  | failed hallowed hbytes => simpa using hallowed
  | found hmode hallowed hbytes => simpa using hallowed
  | next hmode hallowed hbytes hrest ih => exact List.forall_mem_cons.mpr ⟨hallowed, ih⟩

/-- A run that reads what is required gets a file from every answer, and in ALL mode asks
    for every source. -/
theorem completes (hreads : PinnedReads library reader mode sources read complete) (hcomplete : complete = true) :
    (∀ call ∈ read, (answer_bytes library call.1 call.2).isSome) ∧ (mode ≠ ANY → asked reader read = sources) ∧
      (mode = ANY → read.length ≤ 1) ∧ (sources ≠ [] → read ≠ []) := by
  induction hreads with
  | done => simp [asked]
  | refused hpath => cases hcomplete
  | failed hallowed hbytes => cases hcomplete
  | found hmode hallowed hbytes => exact ⟨by simpa using hbytes, fun h => absurd hmode h, by simp, by simp⟩
  | next hmode hallowed hbytes hrest ih =>
    obtain ⟨hall, hsources, _, _⟩ := ih hcomplete
    refine ⟨List.forall_mem_cons.mpr ⟨hbytes, hall⟩, fun _ => ?_, fun h => absurd h hmode, by simp⟩
    rw [← hsources hmode]
    rfl

end PinnedReads

end context_router.github_public_pinned_reader
