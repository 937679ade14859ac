import ContextRouter.SourceReadAcquisitionHandoff.Reads
import ContextRouter.SourceReadEvidenceBinding.Exact

open python

namespace context_router.source_read_acquisition_handoff

open source_read_observation source_read_evidence_binding source_read_gate

variable {σ : Type}

/-- The calls of the sweep up to its first valid receipt. -/
structure FirstValid (fetcher : Fetcher σ) (sources : List Str) (state : σ) (tried : List (Str × Fetched)) (source : Str)
    (answer : Fetched) : Prop where
  sweep_eq : tried ++ [(source, answer)] <+: sweep fetcher sources state
  tried_invalid : ∀ call ∈ tried, ¬ ValidReceipt call.1 call.2
  valid : ValidReceipt source answer

/-- The first answer is a valid receipt, unless none is. -/
def FirstAnswerDecides (fetcher : Fetcher σ) (sources : List Str) (state : σ) : Prop :=
  (∃ call ∈ sweep fetcher sources state, ValidReceipt call.1 call.2) →
    ∃ call ∈ (sweep fetcher sources state).head?, ValidReceipt call.1 call.2

theorem exists_firstValid {fetcher : Fetcher σ} {sources : List Str} {state : σ}
    (hvalid : ∃ call ∈ sweep fetcher sources state, ValidReceipt call.1 call.2) :
    ∃ tried source answer, FirstValid fetcher sources state tried source answer := by
  classical
  obtain ⟨call, hmem, hcall⟩ := hvalid
  have hsome : ((sweep fetcher sources state).find? fun call => ValidReceipt call.1 call.2).isSome :=
    List.find?_isSome.mpr ⟨call, hmem, decide_eq_true hcall⟩
  obtain ⟨⟨source, answer⟩, hfind⟩ := Option.isSome_iff_exists.mp hsome
  obtain ⟨hfirst, tried, rest, hsweep, htried⟩ := List.find?_eq_some_iff_append.mp hfind
  refine ⟨tried, source, answer, ⟨rest, ?_⟩, ?_, of_decide_eq_true hfirst⟩
  · rw [hsweep, List.append_assoc, List.singleton_append]
  · intro call hcall
    simpa using htried call hcall

/-- An acquisition in ANY mode tries the sources in order up to the first valid receipt
    exactly when the first answer is one already or none is: the loop returns at a
    failed read whatever the mode, while the gate it feeds lets any one read do. -/
theorem any_tries_up_to_first_valid_iff (library : Library) {request : AcquisitionRequest ⊕ Value} {sources : List Str}
    (hdeclares : Declares request sources ANY false) (fetcher : Fetcher σ) (calls : Calls σ Str Fetched) :
    (∀ tried source answer, FirstValid fetcher sources calls.state tried source answer →
      calls.Made (acquire_declared_sources library request (some fetcher) calls).2 (tried ++ [(source, answer)]) ∧
        (acquire_declared_sources library request (some fetcher) calls).1 = .PASS 1) ↔
      FirstAnswerDecides fetcher sources calls.state := by
  obtain ⟨first, rest, rfl⟩ := List.exists_cons_of_ne_nil hdeclares.nonempty
  obtain ⟨made, result, hreads, hanswers, hmade, _, hresult⟩ :=
    acquire_declared_sources_reads library hdeclares fetcher calls
  obtain ⟨answer, rfl, hended⟩ := hreads.of_any
  obtain ⟨later, hsweep⟩ : ∃ later, sweep fetcher (first :: rest) calls.state = (first, answer) :: later := by
    obtain ⟨later, hlater⟩ := hanswers
    exact ⟨later, hlater.symm⟩
  constructor
  · intro htries hvalid
    obtain ⟨tried, source, answer', hfirst⟩ := exists_firstValid hvalid
    obtain ⟨htried, _⟩ := htries tried source answer' hfirst
    have hcalls : [(first, answer)] = tried ++ [(source, answer')] := List.append_cancel_left (hmade.symm.trans htried)
    refine ⟨(first, answer), by rw [hsweep, List.head?_cons, Option.mem_some_iff], ?_⟩
    cases tried with
    | nil =>
      obtain ⟨rfl, rfl⟩ := by simpa using hcalls
      exact hfirst.valid
    | cons call tried => simp at hcalls
  · intro hdecides tried source answer' hfirst
    have hmem : (source, answer') ∈ sweep fetcher (first :: rest) calls.state := hfirst.sweep_eq.subset (by simp)
    obtain ⟨call, hhead, hvalid⟩ := hdecides ⟨_, hmem, hfirst.valid⟩
    rw [hsweep, List.head?_cons, Option.mem_some_iff] at hhead
    subst call
    have hsweepEq := hfirst.sweep_eq
    rw [hsweep] at hsweepEq
    cases tried with
    | nil =>
      obtain ⟨heq, _⟩ := List.cons_prefix_cons.mp hsweepEq
      obtain ⟨rfl, rfl⟩ := Prod.mk.inj heq
      obtain ⟨_, rfl⟩ | ⟨hinvalid, _⟩ := hended
      · exact ⟨hmade, hresult⟩
      · exact absurd hvalid hinvalid
    | cons call tried =>
      obtain ⟨rfl, _⟩ := List.cons_prefix_cons.mp hsweepEq
      exact absurd hvalid (hfirst.tried_invalid _ List.mem_cons_self)

def either_policy : AcquisitionRequest where
  declared_sources := .tuple [.str "docs/A.md", .str "docs/B.md"]
  mode := .str "ANY"

/-- Raises for one source and answers every other one with the same bytes. -/
def raises_for (unread : Str) : Fetcher Unit := fun source _ =>
  (if source = unread then .raised else .returned (.inl ⟨.str source, .str "v1", .bytes (encode_ascii "alpha")⟩), ())

theorem either_policy_declares : Declares (.inl either_policy) ["docs/A.md", "docs/B.md"] ANY false :=
  ⟨rfl, by decide, by decide +kernel, by decide +kernel, Or.inr rfl⟩

theorem sweep_raises_for (unread first second : Str) :
    sweep (raises_for unread) [first, second] () =
      [(first, (raises_for unread first ()).1), (second, (raises_for unread second ()).1)] := rfl

theorem raises_for_valid {unread source : Str} (hne : source ≠ unread) :
    ValidReceipt source (raises_for unread source ()).1 := by
  refine ⟨"v1", encode_ascii "alpha", ?_, by decide +kernel⟩
  simp only [raises_for, if_neg hne]

/-- The first of two alternatives cannot be read: the run ends with VERIFY, and the
    second one, which can, is never asked for. -/
theorem raised_source_hides_alternative :
    (∃ answer, FirstValid (raises_for "docs/A.md") ["docs/A.md", "docs/B.md"] () [("docs/A.md", .raised)] "docs/B.md"
        answer) ∧
      (acquire_declared_sources policy_library (.inl either_policy) (some (raises_for "docs/A.md")) ⟨(), []⟩).1 =
        .VERIFY ∧
      (acquire_declared_sources policy_library (.inl either_policy) (some (raises_for "docs/A.md")) ⟨(), []⟩).2.log.map
        Prod.fst = [Str.ofString "docs/A.md"] := by
  have hvalid : ValidReceipt "docs/B.md" (raises_for "docs/A.md" "docs/B.md" ()).1 :=
    raises_for_valid (by decide +kernel)
  refine ⟨⟨_, ?_, ?_, hvalid⟩, by decide +kernel, by decide +kernel⟩
  · rw [sweep_raises_for]
    exact ⟨[], by simp [raises_for]⟩
  · intro call hcall
    obtain rfl := List.mem_singleton.mp hcall
    exact not_validReceipt_raised

/-- Here the second alternative cannot be read, and the first answer is enough. -/
theorem first_alternative_suffices :
    (acquire_declared_sources policy_library (.inl either_policy) (some (raises_for "docs/B.md")) ⟨(), []⟩).1 =
      .PASS 1 := by
  have hvalid : ValidReceipt "docs/A.md" (raises_for "docs/B.md" "docs/A.md" ()).1 :=
    raises_for_valid (by decide +kernel)
  have htries := (any_tries_up_to_first_valid_iff policy_library either_policy_declares (raises_for "docs/B.md")
    ⟨(), []⟩).mpr fun _ => ⟨_, rfl, hvalid⟩
  refine (htries [] "docs/A.md" _ ⟨?_, by simp, hvalid⟩).2
  rw [sweep_raises_for]
  exact ⟨_, rfl⟩

end context_router.source_read_acquisition_handoff
