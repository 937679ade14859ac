import ContextRouter.SourceReadGate

open python

namespace context_router.source_read_gate

/-- The rules that `validate_request` checks. -/
structure Requirement.WellFormed (requirement : Requirement) : Prop where
  valid_mode : requirement.mode ∈ VALID_MODES
  distinct : requirement.sources.Nodup

/-- Further reads, none of an unavailable source, can still meet the requirement. -/
def Requirement.CanBeMet (requirement : Requirement) (read_log unavailable_sources : List Str) : Prop :=
  ∃ extra : List Str, (∀ source ∈ extra, source ∉ unavailable_sources) ∧ requirement.MetBy (read_log ++ extra)

namespace Requirement

variable {requirement : Requirement} {read_log unavailable_sources : List Str}

theorem WellFormed.mode_eq (hwell : requirement.WellFormed) : requirement.mode = ALL ∨ requirement.mode = ANY := by
  simpa [VALID_MODES] using hwell.valid_mode

theorem WellFormed.metBy_all (hwell : requirement.WellFormed) (hmode : requirement.mode = ALL) :
    requirement.MetBy read_log ↔ ∀ source ∈ requirement.sources, source ∈ read_log := by
  constructor
  · exact fun hmet => hmet.all_read hmode
  · intro hread
    refine ⟨hwell.valid_mode, hwell.distinct, fun _ => hread, ?_⟩
    intro hany
    exact absurd (hmode.symm.trans hany) ALL_ne_ANY

theorem WellFormed.metBy_any (hwell : requirement.WellFormed) (hmode : requirement.mode = ANY) :
    requirement.MetBy read_log ↔ ∃ source ∈ requirement.sources, source ∈ read_log := by
  constructor
  · exact fun hmet => hmet.any_read hmode
  · intro hread
    refine ⟨hwell.valid_mode, hwell.distinct, ?_, fun _ => hread⟩
    intro hall
    exact absurd (hall.symm.trans hmode) ALL_ne_ANY

/-- Only reads of the required sources count. -/
theorem MetBy.mono (hmet : requirement.MetBy read_log) {longer : List Str}
    (hlonger : ∀ source ∈ requirement.sources, source ∈ read_log → source ∈ longer) : requirement.MetBy longer := by
  refine ⟨hmet.valid_mode, hmet.distinct, ?_, ?_⟩
  · intro hmode source hmem
    exact hlonger source hmem (hmet.all_read hmode source hmem)
  · intro hmode
    obtain ⟨source, hmem, hread⟩ := hmet.any_read hmode
    exact ⟨source, hmem, hlonger source hmem hread⟩

theorem MetBy.canBeMet (hmet : requirement.MetBy read_log) : requirement.CanBeMet read_log unavailable_sources := by
  refine ⟨[], by simp, ?_⟩
  rw [List.append_nil]
  exact hmet

/-- Reading every required source that is not unavailable is as good as any
    extension. -/
theorem canBeMet_iff : requirement.CanBeMet read_log unavailable_sources ↔
    requirement.MetBy (read_log ++ requirement.sources.filter fun source => source ∉ unavailable_sources) := by
  constructor
  · intro ⟨extra, havailable, hmet⟩
    apply hmet.mono
    intro source hmem hread
    obtain hread | hextra := List.mem_append.mp hread
    · exact List.mem_append_left _ hread
    · apply List.mem_append_right
      simpa [hmem] using havailable source hextra
  · intro hmet
    refine ⟨_, ?_, hmet⟩
    intro source hextra
    simpa using (List.mem_filter.mp hextra).2

theorem CanBeMet.mono (hachievable : requirement.CanBeMet read_log unavailable_sources)
    {read_log' unavailable_sources' : List Str}
    (hread : ∀ source ∈ requirement.sources, source ∈ read_log → source ∈ read_log')
    (hunavailable : ∀ source ∈ requirement.sources, source ∈ unavailable_sources' → source ∈ unavailable_sources) :
    requirement.CanBeMet read_log' unavailable_sources' := by
  rw [canBeMet_iff] at hachievable ⊢
  apply hachievable.mono
  intro source hmem
  simp only [List.mem_append, List.mem_filter, hmem, true_and, decide_eq_true_eq]
  exact Or.imp (hread source hmem) (mt (hunavailable source hmem))

theorem WellFormed.canBeMet_all (hwell : requirement.WellFormed) (hmode : requirement.mode = ALL) :
    requirement.CanBeMet read_log unavailable_sources ↔
      ∀ source ∈ requirement.sources, source ∈ read_log ∨ source ∉ unavailable_sources := by
  rw [canBeMet_iff, hwell.metBy_all hmode]
  apply forall₂_congr
  intro source hmem
  simp [hmem]

theorem WellFormed.canBeMet_any (hwell : requirement.WellFormed) (hmode : requirement.mode = ANY) :
    requirement.CanBeMet read_log unavailable_sources ↔
      ∃ source ∈ requirement.sources, source ∈ read_log ∨ source ∉ unavailable_sources := by
  rw [canBeMet_iff, hwell.metBy_any hmode]
  apply exists_congr
  intro source
  constructor
  · intro ⟨hmem, hread⟩
    simpa [hmem] using hread
  · intro ⟨hmem, hread⟩
    simpa [hmem] using hread

end Requirement

theorem PASS_ne_VERIFY : Str.ofString "PASS" ≠ Str.ofString "VERIFY" := by decide

theorem PASS_ne_UNKNOWN : Str.ofString "PASS" ≠ Str.ofString "UNKNOWN" := by decide

theorem VERIFY_ne_UNKNOWN : Str.ofString "VERIFY" ≠ Str.ofString "UNKNOWN" := by decide

/-- The three states of a well-formed requirement, each under its own condition. -/
inductive Split (requirement : Requirement) (read_log unavailable_sources : List Str) (state : Str) : Prop where
  | pass (met : requirement.MetBy read_log) (state_eq : state = Str.ofString "PASS")
  | verify (unmet : ¬ requirement.MetBy read_log) (achievable : requirement.CanBeMet read_log unavailable_sources)
      (state_eq : state = Str.ofString "VERIFY")
  | unknown (blocked : ¬ requirement.CanBeMet read_log unavailable_sources) (state_eq : state = Str.ofString "UNKNOWN")

namespace Split

variable {requirement : Requirement} {read_log unavailable_sources : List Str} {state : Str}
  (hsplit : Split requirement read_log unavailable_sources state)

include hsplit

theorem pass_iff : state = Str.ofString "PASS" ↔ requirement.MetBy read_log := by
  cases hsplit with
  | pass met state_eq => exact iff_of_true state_eq met
  | verify unmet achievable state_eq => exact iff_of_false (state_eq.trans_ne PASS_ne_VERIFY.symm) unmet
  | unknown blocked state_eq =>
    exact iff_of_false (state_eq.trans_ne PASS_ne_UNKNOWN.symm) fun met => blocked met.canBeMet

theorem unknown_iff : state = Str.ofString "UNKNOWN" ↔ ¬ requirement.CanBeMet read_log unavailable_sources := by
  cases hsplit with
  | pass met state_eq => exact iff_of_false (state_eq.trans_ne PASS_ne_UNKNOWN) (not_not.mpr met.canBeMet)
  | verify unmet achievable state_eq =>
    exact iff_of_false (state_eq.trans_ne VERIFY_ne_UNKNOWN) (not_not.mpr achievable)
  | unknown blocked state_eq => exact iff_of_true state_eq blocked

theorem verify_iff : state = Str.ofString "VERIFY" ↔
    ¬ requirement.MetBy read_log ∧ requirement.CanBeMet read_log unavailable_sources := by
  cases hsplit with
  | pass met state_eq => exact iff_of_false (state_eq.trans_ne PASS_ne_VERIFY) fun h => h.1 met
  | verify unmet achievable state_eq => exact iff_of_true state_eq ⟨unmet, achievable⟩
  | unknown blocked state_eq => exact iff_of_false (state_eq.trans_ne VERIFY_ne_UNKNOWN.symm) fun h => blocked h.2

/-- The state depends only on whether the requirement is met and whether it can be. -/
theorem state_congr {read_log' unavailable_sources' : List Str} {state' : Str}
    (hsplit' : Split requirement read_log' unavailable_sources' state')
    (hmet : requirement.MetBy read_log ↔ requirement.MetBy read_log')
    (hachievable : requirement.CanBeMet read_log unavailable_sources ↔
      requirement.CanBeMet read_log' unavailable_sources') : state' = state := by
  cases hsplit with
  | pass met state_eq => rw [state_eq, hsplit'.pass_iff, ← hmet]; exact met
  | verify unmet achievable state_eq => rw [state_eq, hsplit'.verify_iff, ← hmet, ← hachievable]; exact ⟨unmet, achievable⟩
  | unknown blocked state_eq => rw [state_eq, hsplit'.unknown_iff, ← hachievable]; exact blocked

end Split

theorem Outcome.exists_of_state_pass {outcome : Outcome} (hpass : outcome.state = Str.ofString "PASS") :
    ∃ sources satisfied extra_reads, outcome = .PASS sources satisfied extra_reads := by
  cases outcome with
  | PASS sources satisfied extra_reads => exact ⟨sources, satisfied, extra_reads, rfl⟩
  | NOT_APPLICABLE | VERIFY | UNKNOWN | DATA_ERROR =>
    simp only [Outcome.state] at hpass
    exact absurd hpass (by decide)

/-- In ALL mode one missing source that is unavailable blocks the requirement. -/
theorem evaluate_split_all {request : GateRequest} {requirement : Requirement} (hwell : requirement.WellFormed)
    (hvalid : validate_request request = []) (hne : requirement.sources ≠ [])
    (hsources : (effective_sources request).1 = requirement.sources)
    (hlive : (effective_sources request).2.1 = requirement.mode) (hmode : requirement.mode = ALL) :
    Split requirement request.read_log request.unavailable_sources (evaluate request).state := by
  have hmissing : (requirement.sources.filter fun source => source ∉ request.read_log) = [] ↔
      requirement.MetBy request.read_log := by
    simp [hwell.metBy_all hmode, List.filter_eq_nil_iff]
  have hblocked : ((requirement.sources.filter fun source => source ∉ request.read_log).filter
      fun source => source ∈ request.unavailable_sources) = [] ↔
        requirement.CanBeMet request.read_log request.unavailable_sources := by
    rw [hwell.canBeMet_all hmode, List.filter_filter, List.filter_eq_nil_iff]
    apply forall₂_congr
    intro source _
    rw [or_iff_not_imp_left, not_imp_not]
    simp
  unfold evaluate
  simp only [hvalid, ne_eq, not_true_eq_false, if_false, hsources, hlive, if_neg hne, hmode, if_true]
  split
  case isTrue hnone => exact .pass (hmissing.mp hnone) rfl
  case isFalse hsome =>
    split
    case isTrue hsome => exact .unknown (fun hopen => hsome (hblocked.mpr hopen)) rfl
    case isFalse hopen =>
      have hopen := hblocked.mp (not_not.mp hopen)
      split
      · exact .verify (fun hmet => hsome (hmissing.mpr hmet)) hopen rfl
      · exact .verify (fun hmet => hsome (hmissing.mpr hmet)) hopen rfl

/-- In ANY mode the requirement is blocked when all its sources are unavailable. -/
theorem evaluate_split_any {request : GateRequest} {requirement : Requirement} (hwell : requirement.WellFormed)
    (hvalid : validate_request request = []) (hne : requirement.sources ≠ [])
    (hsources : (effective_sources request).1 = requirement.sources)
    (hlive : (effective_sources request).2.1 = requirement.mode) (hmode : requirement.mode = ANY) :
    Split requirement request.read_log request.unavailable_sources (evaluate request).state := by
  have hsatisfied : (requirement.sources.filter fun source => source ∈ request.read_log) ≠ [] ↔
      requirement.MetBy request.read_log := by
    simp [hwell.metBy_any hmode, List.filter_eq_nil_iff]
  unfold evaluate
  simp only [hvalid, ne_eq, not_true_eq_false, if_false, hsources, hlive, if_neg hne, hmode, if_neg ALL_ne_ANY.symm]
  split
  case isTrue hread => exact .pass (hsatisfied.mp hread) rfl
  case isFalse hunread =>
    have hunmet := fun hmet => hunread (hsatisfied.mpr hmet)
    have hnone : ∀ source ∈ requirement.sources, source ∉ request.read_log := by
      simpa [List.filter_eq_nil_iff] using hunread
    have hopen : requirement.CanBeMet request.read_log request.unavailable_sources ↔
        ¬ ∀ source ∈ requirement.sources, source ∈ request.unavailable_sources := by
      rw [hwell.canBeMet_any hmode]
      push Not
      apply exists_congr
      intro source
      exact and_congr_right fun hmem => or_iff_right (hnone source hmem)
    split
    case isTrue hall => exact .unknown (fun h => hopen.mp h hall) rfl
    case isFalse hsome =>
      split
      · exact .verify hunmet (hopen.mpr hsome) rfl
      · exact .verify hunmet (hopen.mpr hsome) rfl

theorem evaluate_split (request : GateRequest) {requirement : Requirement}
    (hrequirement : request.requirement? = some requirement) (hwell : requirement.WellFormed) :
    Split requirement request.read_log request.unavailable_sources (evaluate request).state := by
  obtain ⟨hnone, _⟩ | ⟨live, hlive, hne, hsources, hmode, hvalid⟩ := effective_sources_eq request
  · rw [hnone] at hrequirement
    cases hrequirement
  · rw [hrequirement, Option.some.injEq] at hlive
    subst live
    have hvalid := hvalid.mpr ⟨hwell.valid_mode, hwell.distinct⟩
    obtain hall | hany := hwell.mode_eq
    · exact evaluate_split_all hwell hvalid hne hsources hmode hall
    · exact evaluate_split_any hwell hvalid hne hsources hmode hany

/-- PASS says that the reads so far meet the requirement, VERIFY that further reads of
    sources not known to be unavailable still can, and UNKNOWN that none can. Reads never
    undo a PASS, lost sources undo neither a PASS nor an UNKNOWN, and nothing counts but
    which required sources were read and which are unavailable. -/
theorem state_split {request : GateRequest} {requirement : Requirement}
    (hrequirement : request.requirement? = some requirement) (hwell : requirement.WellFormed) :
    let CanPass := ∃ extra : List Str, (∀ source ∈ extra, source ∉ request.unavailable_sources) ∧
      (evaluate { request with read_log := request.read_log ++ extra }).state = Str.ofString "PASS"
    ((evaluate request).state = Str.ofString "PASS" ↔ requirement.MetBy request.read_log) ∧
    ((evaluate request).state = Str.ofString "UNKNOWN" ↔ (evaluate request).state ≠ Str.ofString "PASS" ∧ ¬ CanPass) ∧
    ((evaluate request).state = Str.ofString "VERIFY" ↔ (evaluate request).state ≠ Str.ofString "PASS" ∧ CanPass) ∧
    (∀ more, request.read_log ⊆ more → (evaluate request).state = Str.ofString "PASS" →
      (evaluate { request with read_log := more }).state = Str.ofString "PASS") ∧
    (∀ more, request.unavailable_sources ⊆ more → ∀ state ∈ [Str.ofString "PASS", Str.ofString "UNKNOWN"],
      (evaluate request).state = state → (evaluate { request with unavailable_sources := more }).state = state) ∧
    ∀ read_log unavailable_sources no_external_read,
      (∀ source ∈ requirement.sources, (source ∈ read_log ↔ source ∈ request.read_log) ∧
        (source ∈ unavailable_sources ↔ source ∈ request.unavailable_sources)) →
      (evaluate { request with read_log, unavailable_sources, no_external_read }).state = (evaluate request).state := by
  intro CanPass
  have hsplit : ∀ read_log unavailable_sources no_external_read,
      Split requirement read_log unavailable_sources
        (evaluate { request with read_log, unavailable_sources, no_external_read }).state := by
    intro read_log unavailable_sources no_external_read
    exact evaluate_split { request with read_log, unavailable_sources, no_external_read } hrequirement hwell
  have hcurrent : Split requirement request.read_log request.unavailable_sources (evaluate request).state :=
    hsplit request.read_log request.unavailable_sources request.no_external_read
  have hcanPass : CanPass ↔ requirement.CanBeMet request.read_log request.unavailable_sources := by
    apply exists_congr
    intro extra
    exact and_congr_right fun _ => (hsplit (request.read_log ++ extra) _ request.no_external_read).pass_iff
  refine ⟨hcurrent.pass_iff, ?unknown, ?verify, ?more_read, ?more_unavailable, ?only_required⟩
  case unknown =>
    rw [ne_eq, hcurrent.pass_iff, hcanPass, hcurrent.unknown_iff]
    exact ⟨fun hblocked => ⟨fun hmet => hblocked hmet.canBeMet, hblocked⟩, fun h => h.2⟩
  case verify =>
    rw [ne_eq, hcurrent.pass_iff, hcanPass, hcurrent.verify_iff]
  case more_read =>
    intro more hsub hpass
    apply (hsplit more request.unavailable_sources request.no_external_read).pass_iff.mpr
    exact (hcurrent.pass_iff.mp hpass).mono fun source _ hread => hsub hread
  case more_unavailable =>
    intro more hsub state hstate heq
    have hmore := hsplit request.read_log more request.no_external_read
    obtain rfl | rfl : state = Str.ofString "PASS" ∨ state = Str.ofString "UNKNOWN" := by simpa using hstate
    · exact hmore.pass_iff.mpr (hcurrent.pass_iff.mp heq)
    · apply hmore.unknown_iff.mpr
      intro hachievable
      apply hcurrent.unknown_iff.mp heq
      exact hachievable.mono (fun _ _ hread => hread) fun source _ hunavailable => hsub hunavailable
  case only_required =>
    intro read_log unavailable_sources no_external_read hsame
    apply hcurrent.state_congr (hsplit read_log unavailable_sources no_external_read)
    · constructor
      · exact fun hmet => hmet.mono fun source hmem => (hsame source hmem).1.mpr
      · exact fun hmet => hmet.mono fun source hmem => (hsame source hmem).1.mp
    · constructor
      · intro hachievable
        exact hachievable.mono (fun source hmem => (hsame source hmem).1.mpr) fun source hmem => (hsame source hmem).2.mp
      · intro hachievable
        exact hachievable.mono (fun source hmem => (hsame source hmem).1.mp) fun source hmem => (hsame source hmem).2.mpr

/-- Two documents are required and one of them was read. -/
def half_read : GateRequest where
  declared_sources := ["docs/STATUS.md", "docs/POLICY.md"]
  read_log := ["docs/STATUS.md"]

theorem half_read_can_pass : (evaluate half_read).state = Str.ofString "VERIFY" ∧
    ∃ extra : List Str, (evaluate { half_read with read_log := half_read.read_log ++ extra }).state =
      Str.ofString "PASS" := by
  have hverify : (evaluate half_read).state = Str.ofString "VERIFY" := by decide +kernel
  have hwell : Requirement.WellFormed ⟨half_read.declared_sources, ALL⟩ := ⟨by decide, by decide +kernel⟩
  have hrequirement : half_read.requirement? = some ⟨half_read.declared_sources, ALL⟩ := rfl
  obtain ⟨_, _, hiff, _⟩ := state_split hrequirement hwell
  obtain ⟨_, extra, _, hpass⟩ := hiff.mp hverify
  exact ⟨hverify, extra, hpass⟩

end context_router.source_read_gate
