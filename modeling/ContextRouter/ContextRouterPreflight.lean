import ContextRouter.MinimalResolver.Current
import ContextRouter.SourceReadGate
import ContextRouter.WorkGate

open python

namespace context_router.context_router_preflight

open minimal_resolver source_read_gate

variable {α : Type}

def GATE_PROCEED_STATES : List Str := ["PASS", "NOT_APPLICABLE"]

/-- The result dictionary, one constructor for each `stage`. -/
inductive Preflight (α : Type) where
  | source_read_gate (gate_result : Outcome)
  | resolution (gate : Outcome) (resolution : Resolution α)
deriving DecidableEq

/-- The text under `state`, which each stage takes over from its own result. -/
def Preflight.state : Preflight α → Str
  | .source_read_gate outcome => outcome.state
  | .resolution _ result => result.state

def resolve_with_source_read_gate (gate_request : GateRequest) (records : List (Record α))
    (domain subject field as_of : Str) (verify_after_days : Int := 30) : Except Raised (Preflight α) :=
  let gate_result := evaluate gate_request
  if gate_result.state ∉ GATE_PROCEED_STATES then
    return .source_read_gate gate_result
  else do
    let resolution ← resolve_current records domain subject field as_of verify_after_days
    return .resolution gate_result resolution

theorem mem_gate_proceed_states_iff {outcome : Outcome} :
    outcome.state ∈ GATE_PROCEED_STATES ↔ outcome.Proceeds := by
  cases outcome <;> simp [Outcome.state, Outcome.Proceeds, GATE_PROCEED_STATES] <;> decide

/-- The two ways a run of the composition can return. -/
theorem resolve_with_source_read_gate_cases {gate_request : GateRequest} {records : List (Record α)}
    {domain subject field as_of : Str} {verify_after_days : Int} {result : Preflight α}
    (hrun : resolve_with_source_read_gate gate_request records domain subject field as_of verify_after_days = .ok result) :
    (¬ (evaluate gate_request).Proceeds ∧ result = .source_read_gate (evaluate gate_request)) ∨
      ((evaluate gate_request).Proceeds ∧ ∃ resolution,
        resolve_current records domain subject field as_of verify_after_days = .ok resolution ∧
          result = .resolution (evaluate gate_request) resolution) := by
  unfold resolve_with_source_read_gate at hrun
  simp only at hrun
  by_cases hproceeds : (evaluate gate_request).Proceeds
  · right
    rw [if_neg (not_not.mpr (mem_gate_proceed_states_iff.mpr hproceeds))] at hrun
    rw [bind_eq_ok_iff] at hrun
    obtain ⟨resolution, hresolution, hresult⟩ := hrun
    exact ⟨hproceeds, resolution, hresolution, (pure_eq_ok_iff.mp hresult).symm⟩
  · left
    rw [if_pos (mem_gate_proceed_states_iff.not.mpr hproceeds)] at hrun
    simp only [pure_eq_ok_iff] at hrun
    exact ⟨hproceeds, hrun.symm⟩

/-- A gate that stops the turn never answers with the state of a resolution. -/
theorem state_ne_resolved_of_not_proceeds {outcome : Outcome} (hstopped : ¬ outcome.Proceeds) :
    outcome.state ≠ work_gate.DECISION_PROCEED_STATE := by
  cases outcome with
  | NOT_APPLICABLE reason => exact absurd trivial hstopped
  | PASS sources satisfied extra_reads => exact absurd trivial hstopped
  | VERIFY reason sources missing extra_reads => simp only [Outcome.state]; decide
  | UNKNOWN reason sources unavailable extra_reads => simp only [Outcome.state]; decide
  | DATA_ERROR errors => simp only [Outcome.state]; decide

/-- The pipeline lets work proceed exactly when neither safety trigger fired, the
    source requirement in force is met, and the scope validates and has one current
    record, which was verified recently enough. -/
theorem pipeline_proceed_iff {gate_request : GateRequest} {records : List (Record α)}
    {domain subject field as_of : Str} {as_of_date : Date} {verify_after_days : Int} {result : Preflight α}
    (hdate : parse_date as_of = .ok (some as_of_date))
    (hrun : resolve_with_source_read_gate gate_request records domain subject field as_of verify_after_days = .ok result)
    (production_trigger permission_trigger : Bool) :
    (work_gate.evaluate (.inl
        { decision_state := .str result.state
          production_trigger := .bool production_trigger
          permission_trigger := .bool permission_trigger })).state = Str.ofString "PROCEED" ↔
      production_trigger = false ∧ permission_trigger = false ∧
      (∀ requirement, gate_request.requirement? = some requirement → requirement.MetBy gate_request.read_log) ∧
      validate_registry (scope_records records (domain, subject, field)) = .ok [] ∧
      ∃ (position : Nat) (record : Record α),
        (scope_records records (domain, subject, field))[position]? = some record ∧
        Current as_of_date (scope_records records (domain, subject, field)) record ∧
        VerifiedWithin verify_after_days as_of_date record ∧
        ∀ (other_position : Nat) other, (scope_records records (domain, subject, field))[other_position]? = some other →
          Current as_of_date (scope_records records (domain, subject, field)) other → other_position = position := by
  have hresolved : result.state = work_gate.DECISION_PROCEED_STATE ↔
      (evaluate gate_request).Proceeds ∧
        validate_registry (scope_records records (domain, subject, field)) = .ok [] ∧
        ∃ record, heads as_of_date (scope_records records (domain, subject, field)) = [record] ∧
          VerifiedWithin verify_after_days as_of_date record := by
    obtain ⟨hstopped, rfl⟩ | ⟨hproceeds, resolution, hresolution, rfl⟩ := resolve_with_source_read_gate_cases hrun
    · simp only [hstopped, false_and, iff_false]
      exact state_ne_resolved_of_not_proceeds hstopped
    · have hstate : (Preflight.resolution (evaluate gate_request) resolution).state =
          work_gate.DECISION_PROCEED_STATE ↔ ∃ record, resolution = .RESOLVED record := state_eq_resolved_iff
      simp only [hstate, hproceeds, true_and, resolve_current_resolved_iff hdate hresolution, exists_and_left]
  rw [work_gate.evaluate_proceed_iff]
  simp only [Value.str.injEq, Value.bool.injEq, hresolved, evaluate_proceeds_iff, heads_eq_singleton_iff]
  constructor
  · rintro ⟨⟨hmet, hvalid, record, ⟨position, hrecord, hcurrent, honly⟩, hverified⟩, hproduction, hpermission⟩
    exact ⟨hproduction, hpermission, hmet, hvalid, position, record, hrecord, hcurrent, hverified, honly⟩
  · rintro ⟨hproduction, hpermission, hmet, hvalid, position, record, hrecord, hcurrent, hverified, honly⟩
    exact ⟨⟨hmet, hvalid, record, ⟨position, hrecord, hcurrent, honly⟩, hverified⟩, hproduction, hpermission⟩

/-- One declared source, which was read. -/
def notes_request : GateRequest := { declared_sources := ["notes"], read_log := ["notes"] }

theorem sample_decisions_proceed : ∃ result,
    resolve_with_source_read_gate notes_request sample_decisions "demo" "starter" "price" "2026-08-28" 30 = .ok result ∧
    (work_gate.evaluate (.inl
      { decision_state := .str result.state
        production_trigger := .bool false
        permission_trigger := .bool false })).state = Str.ofString "PROCEED" := by
  have hdate : parse_date (Str.ofString "2026-08-28") = .ok (some ⟨2026, 8, 28, by decide⟩) := by decide +kernel
  have hselected : ∃ selected ∈ sample_decisions,
      resolve_with_source_read_gate notes_request sample_decisions "demo" "starter" "price" "2026-08-28" 30 =
        .ok (.resolution (.PASS ["notes"] none []) (.RESOLVED selected)) ∧
      heads ⟨2026, 8, 28, by decide⟩ (scope_records sample_decisions ("demo", "starter", "price")) = [selected] ∧
      selected.last_verified = some (Str.ofString "2026-08-28") := by
    decide +kernel
  obtain ⟨selected, _, hrun, hheads, hverified⟩ := hselected
  have hmet := (evaluate_proceeds_iff notes_request).mp (mem_gate_proceed_states_iff.mp (by decide +kernel))
  obtain ⟨position, hposition, hcurrent, honly⟩ := heads_eq_singleton_iff.mp hheads
  refine ⟨_, hrun, (pipeline_proceed_iff hdate hrun false false).mpr ?_⟩
  refine ⟨rfl, rfl, hmet, by decide +kernel, position, selected, hposition, hcurrent, ?_, honly⟩
  exact ⟨_, hverified ▸ hdate, by decide⟩

end context_router.context_router_preflight
