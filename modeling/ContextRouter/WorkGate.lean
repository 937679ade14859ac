import ContextRouter.Python.Value

open python

namespace context_router.work_gate

def DECISION_PROCEED_STATE : Str := "RESOLVED"

/-- The fields are annotated in the source but not checked when a request is built. -/
structure WorkGateRequest where
  decision_state : Value := .none
  production_trigger : Value := .bool false
  permission_trigger : Value := .bool false

/-- The argument may be any value; `.inl` is an instance of `WorkGateRequest`. -/
def validate_request : WorkGateRequest ⊕ Value → List Str
  | .inr _ => ["request must be a WorkGateRequest instance"]
  | .inl request => sorted_set (
      (if request.decision_state.isNone ∨ request.decision_state.str?.isSome then []
        else [Str.ofString "decision_state must be a string or None"]) ++
      (if request.production_trigger.isBool then [] else [Str.ofString "production_trigger must be a bool"]) ++
      (if request.permission_trigger.isBool then [] else [Str.ofString "permission_trigger must be a bool"]))

/-- The outcome dictionaries. All but PROCEED have the state REVIEW_REQUIRED and are
    named by their `reason`. -/
inductive Outcome where
  | malformed_input (errors : List Str)
  | safety_trigger (triggers : List Str) (decision_state : Value)
  | PROCEED (decision_state : Value)
  | decision_not_resolved (decision_state : Value)

def Outcome.state : Outcome → Str
  | .malformed_input _ => "REVIEW_REQUIRED"
  | .safety_trigger _ _ => "REVIEW_REQUIRED"
  | .PROCEED _ => "PROCEED"
  | .decision_not_resolved _ => "REVIEW_REQUIRED"

def evaluate (request : WorkGateRequest ⊕ Value) : Outcome :=
  match request with
  | .inr _ => .malformed_input (validate_request request)
  | .inl fields =>
    let errors := validate_request request
    if errors ≠ [] then
      .malformed_input errors
    else
      let fired := ([(Str.ofString "production", fields.production_trigger),
        (Str.ofString "permission", fields.permission_trigger)].filter fun trigger => trigger.2.isTrue).map Prod.fst
      if fired ≠ [] then
        .safety_trigger fired fields.decision_state
      else if fields.decision_state.str? = some DECISION_PROCEED_STATE then
        .PROCEED fields.decision_state
      else
        .decision_not_resolved fields.decision_state

theorem triggers_isBool {request : WorkGateRequest} (hvalid : validate_request (.inl request) = []) :
    request.production_trigger.isBool ∧ request.permission_trigger.isBool := by
  simp only [validate_request, sorted_set_eq_nil, List.append_eq_nil_iff] at hvalid
  obtain ⟨⟨_, hproduction⟩, hpermission⟩ := hvalid
  exact ⟨by simpa using hproduction, by simpa using hpermission⟩

/-- Work proceeds only on a resolved decision and with both triggers at `False`. -/
theorem evaluate_proceed_iff (request : WorkGateRequest) :
    (evaluate (.inl request)).state = Str.ofString "PROCEED" ↔
      request.decision_state = .str DECISION_PROCEED_STATE ∧ request.production_trigger = .bool false ∧
        request.permission_trigger = .bool false := by
  constructor
  · intro hproceed
    have hreview : Str.ofString "REVIEW_REQUIRED" ≠ Str.ofString "PROCEED" := by decide
    unfold evaluate at hproceed
    by_cases hvalid : validate_request (.inl request) = []
    · obtain ⟨hproduction, hpermission⟩ := triggers_isBool hvalid
      simp only [hvalid, ne_eq, not_true_eq_false, if_false] at hproceed
      split at hproceed
      case isTrue => exact absurd hproceed hreview
      case isFalse hquiet =>
        have hclear : request.production_trigger.isTrue = false ∧ request.permission_trigger.isTrue = false := by
          simpa using hquiet
        split at hproceed
        case isTrue hresolved =>
          refine ⟨Value.str?_eq_some_iff.mp hresolved, ?_, ?_⟩
          · rw [Value.isBool_iff.mp hproduction, hclear.1]
          · rw [Value.isBool_iff.mp hpermission, hclear.2]
        case isFalse => exact absurd hproceed hreview
    · simp only [ne_eq, hvalid, not_false_iff, if_true] at hproceed
      exact absurd hproceed hreview
  · rintro ⟨hdecision, hproduction, hpermission⟩
    obtain ⟨decision_state, production_trigger, permission_trigger⟩ := request
    subst hdecision hproduction hpermission
    decide

end context_router.work_gate
