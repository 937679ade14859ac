import ContextRouter.Python.Text

open python

namespace context_router.source_read_gate

def ALL : Str := "ALL"
def ANY : Str := "ANY"

def VALID_MODES : List Str := [ALL, ANY]

theorem ALL_ne_ANY : ALL ≠ ANY := by decide

structure GateRequest where
  declared_sources : List Str := []
  mode : Str := ALL
  read_log : List Str := []
  unavailable_sources : List Str := []
  no_external_read : Bool := false
  continued_from_previous : Bool := false
  source_changed_this_turn : Bool := false
  previous_declared_sources : List Str := []
  previous_mode : Str := ALL

/-- The field set that is live. -/
inductive Origin where
  | current
  | previous

/-- `_effective_sources`. -/
def effective_sources (request : GateRequest) : List Str × Str × Option Origin :=
  if request.declared_sources ≠ [] then
    (request.declared_sources, request.mode, some .current)
  else if request.continued_from_previous ∧ ¬ request.source_changed_this_turn ∧
      request.previous_declared_sources ≠ [] then
    (request.previous_declared_sources, request.previous_mode, some .previous)
  else
    ([], request.mode, none)

def validate_request (request : GateRequest) : List Str :=
  match effective_sources request with
  | (sources, mode, some .current) => sorted_set (
      (if mode ∈ VALID_MODES then [] else [Str.ofString "unknown mode: " ++ mode]) ++
      (if sources.dedup.length = sources.length then []
        else [Str.ofString "duplicate entries in declared_sources"]))
  | (sources, mode, some .previous) => sorted_set (
      (if mode ∈ VALID_MODES then [] else [Str.ofString "unknown previous_mode: " ++ mode]) ++
      (if sources.dedup.length = sources.length then []
        else [Str.ofString "duplicate entries in previous_declared_sources"]))
  | (_, _, none) => []

/-- The outcome dictionaries, one constructor for each state. A key that only some
    dictionaries of a state have is an `Option`. -/
inductive Outcome where
  | NOT_APPLICABLE (reason : Str)
  | PASS (sources : List Str) (satisfied : Option (List Str)) (extra_reads : List Str)
  | VERIFY (reason : Str) (sources : List Str) (missing : Option (List Str)) (extra_reads : List Str)
  | UNKNOWN (reason : Str) (sources : List Str) (unavailable : Option (List Str)) (extra_reads : List Str)
  | DATA_ERROR (errors : List Str)
deriving DecidableEq

def Outcome.state : Outcome → Str
  | .NOT_APPLICABLE _ => "NOT_APPLICABLE"
  | .PASS _ _ _ => "PASS"
  | .VERIFY _ _ _ _ => "VERIFY"
  | .UNKNOWN _ _ _ _ => "UNKNOWN"
  | .DATA_ERROR _ => "DATA_ERROR"

def evaluate (request : GateRequest) : Outcome :=
  let errors := validate_request request
  if errors ≠ [] then
    .DATA_ERROR errors
  else
    let (sources, mode, _) := effective_sources request
    if sources = [] then
      .NOT_APPLICABLE "no_explicit_source_designated"
    else
      let extra_reads := request.read_log.filter fun source => source ∉ sources
      if mode = ALL then
        let missing := sources.filter fun source => source ∉ request.read_log
        if missing = [] then
          .PASS sources none extra_reads
        else
          let blocked := missing.filter fun source => source ∈ request.unavailable_sources
          if blocked ≠ [] then
            .UNKNOWN "required_source_unavailable" sources (some blocked) extra_reads
          else if request.no_external_read then
            .VERIFY "no_external_read_constraint" sources (some missing) extra_reads
          else
            .VERIFY "not_yet_read" sources (some missing) extra_reads
      else
        let satisfied := sources.filter fun source => source ∈ request.read_log
        if satisfied ≠ [] then
          .PASS sources (some satisfied) extra_reads
        else if ∀ source ∈ sources, source ∈ request.unavailable_sources then
          .UNKNOWN "all_candidate_sources_unavailable" sources none extra_reads
        else if request.no_external_read then
          .VERIFY "no_external_read_constraint" sources none extra_reads
        else
          .VERIFY "no_candidate_source_read_yet" sources none extra_reads

/-- The source requirement of a turn. -/
structure Requirement where
  sources : List Str
  mode : Str

/-- The requirement in force: this turn's own declaration, or else the one of an
    unchanged continuation. -/
def GateRequest.requirement? (request : GateRequest) : Option Requirement :=
  if request.declared_sources ≠ [] then
    some ⟨request.declared_sources, request.mode⟩
  else if request.continued_from_previous ∧ ¬ request.source_changed_this_turn ∧
      request.previous_declared_sources ≠ [] then
    some ⟨request.previous_declared_sources, request.previous_mode⟩
  else
    none

/-- What was read meets the requirement. -/
structure Requirement.MetBy (requirement : Requirement) (read_log : List Str) : Prop where
  valid_mode : requirement.mode ∈ VALID_MODES
  distinct : requirement.sources.Nodup
  all_read : requirement.mode = ALL → ∀ source ∈ requirement.sources, source ∈ read_log
  any_read : requirement.mode = ANY → ∃ source ∈ requirement.sources, source ∈ read_log

/-- The gate lets the turn go on. -/
def Outcome.Proceeds (outcome : Outcome) : Prop :=
  match outcome with
  | .NOT_APPLICABLE _ => True
  | .PASS _ _ _ => True
  | _ => False

theorem dedup_length_eq_iff {sources : List Str} : sources.dedup.length = sources.length ↔ sources.Nodup := by
  constructor
  · intro hlength
    exact List.dedup_eq_self.mp ((List.dedup_sublist sources).eq_of_length hlength)
  · intro hdistinct
    rw [List.dedup_eq_self.mpr hdistinct]

/-- The live field set is the requirement in force, and it is checked in one way. -/
theorem effective_sources_eq (request : GateRequest) :
    (request.requirement? = none ∧ (effective_sources request).1 = [] ∧ validate_request request = []) ∨
      ∃ requirement, request.requirement? = some requirement ∧ requirement.sources ≠ [] ∧
        (effective_sources request).1 = requirement.sources ∧ (effective_sources request).2.1 = requirement.mode ∧
        (validate_request request = [] ↔ requirement.mode ∈ VALID_MODES ∧ requirement.sources.Nodup) := by
  unfold validate_request GateRequest.requirement? effective_sources
  by_cases hdeclared : request.declared_sources ≠ []
  · right
    refine ⟨⟨request.declared_sources, request.mode⟩, ?_, hdeclared, ?_, ?_, ?_⟩
    · rw [if_pos hdeclared]
    · rw [if_pos hdeclared]
    · rw [if_pos hdeclared]
    · rw [if_pos hdeclared]
      simp [sorted_set_eq_nil, dedup_length_eq_iff]
  · rw [if_neg hdeclared, if_neg hdeclared]
    by_cases hcontinued : request.continued_from_previous ∧ ¬ request.source_changed_this_turn ∧
        request.previous_declared_sources ≠ []
    · right
      refine ⟨⟨request.previous_declared_sources, request.previous_mode⟩, ?_, hcontinued.2.2, ?_, ?_, ?_⟩
      · rw [if_pos hcontinued]
      · rw [if_pos hcontinued]
      · rw [if_pos hcontinued]
      · rw [if_pos hcontinued]
        simp [sorted_set_eq_nil, dedup_length_eq_iff]
    · left
      rw [if_neg hcontinued, if_neg hcontinued]
      exact ⟨rfl, rfl, rfl⟩

/-- In ALL mode only a complete read lets the turn go on. -/
theorem evaluate_all {request : GateRequest} (hvalid : validate_request request = [])
    (hne : (effective_sources request).1 ≠ []) (hmode : (effective_sources request).2.1 = ALL) :
    (evaluate request).Proceeds ↔ ∀ source ∈ (effective_sources request).1, source ∈ request.read_log := by
  have hmissing : ((effective_sources request).1.filter fun source => source ∉ request.read_log) = [] ↔
      ∀ source ∈ (effective_sources request).1, source ∈ request.read_log := by
    simp [List.filter_eq_nil_iff]
  rw [← hmissing]
  unfold evaluate
  simp only [hvalid, ne_eq, not_true_eq_false, if_false, if_neg hne, hmode, if_true]
  split
  case isTrue hcomplete => simp only [hcomplete, Outcome.Proceeds]
  case isFalse hincomplete =>
    simp only [hincomplete, iff_false]
    split
    · exact id
    · split <;> exact id

/-- In ANY mode one read is enough. -/
theorem evaluate_any {request : GateRequest} (hvalid : validate_request request = [])
    (hne : (effective_sources request).1 ≠ []) (hmode : (effective_sources request).2.1 ≠ ALL) :
    (evaluate request).Proceeds ↔ ∃ source ∈ (effective_sources request).1, source ∈ request.read_log := by
  have hsatisfied : ((effective_sources request).1.filter fun source => source ∈ request.read_log) ≠ [] ↔
      ∃ source ∈ (effective_sources request).1, source ∈ request.read_log := by
    simp [List.filter_eq_nil_iff]
  rw [← hsatisfied]
  unfold evaluate
  simp only [hvalid, ne_eq, not_true_eq_false, if_false, if_neg hne, if_neg hmode]
  split
  case isTrue hread => simp only [hread, not_false_iff, Outcome.Proceeds]
  case isFalse hunread =>
    simp only [hunread, iff_false]
    split
    · exact id
    · split <;> exact id

/-- The gate lets a turn go on exactly when the requirement in force, if there is
    one, is well formed and met by what was read. -/
theorem evaluate_proceeds_iff (request : GateRequest) :
    (evaluate request).Proceeds ↔
      ∀ requirement, request.requirement? = some requirement → requirement.MetBy request.read_log := by
  obtain ⟨hnone, hsources, hvalid⟩ | ⟨requirement, hrequirement, hne, hsources, hmode, hvalid⟩ :=
    effective_sources_eq request
  · have hgate : evaluate request = .NOT_APPLICABLE "no_explicit_source_designated" := by
      simp [evaluate, hvalid, hsources]
    simp [hgate, hnone, Outcome.Proceeds]
  simp only [hrequirement, Option.some.injEq, forall_eq']
  rw [← hsources] at hne
  by_cases hwell : validate_request request = []
  · obtain ⟨hmodeValid, hdistinct⟩ := hvalid.mp hwell
    by_cases hall : requirement.mode = ALL
    · rw [evaluate_all hwell hne (hmode.trans hall), hsources]
      refine ⟨fun hread => ⟨hmodeValid, hdistinct, fun _ => hread, ?_⟩, fun hmet => hmet.all_read hall⟩
      intro hany
      exact absurd (hall.symm.trans hany) ALL_ne_ANY
    · have hany : requirement.mode = ANY := by simpa [VALID_MODES, hall] using hmodeValid
      rw [evaluate_any hwell hne (hmode.trans_ne hall), hsources]
      exact ⟨fun hread => ⟨hmodeValid, hdistinct, fun h => absurd h hall, fun _ => hread⟩,
        fun hmet => hmet.any_read hany⟩
  · have hgate : evaluate request = .DATA_ERROR (validate_request request) := by simp [evaluate, hwell]
    simp only [hgate, Outcome.Proceeds, false_iff]
    intro hmet
    exact hwell (hvalid.mpr ⟨hmet.valid_mode, hmet.distinct⟩)

end context_router.source_read_gate
