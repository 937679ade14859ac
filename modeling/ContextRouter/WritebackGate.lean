import ContextRouter.Python.Value

open python

namespace context_router.writeback_gate

def ORIGINS : List Str := ["USER_CONFIRMED", "AI_PROPOSAL"]

def REQUESTED_STATUSES : List Str := ["PROPOSED", "ACTIVE", "LOCKED"]

def AI_PROPOSAL_ALLOWED_STATUS : Str := "PROPOSED"

/-- The fields are annotated in the source but not checked when a request is built. -/
structure WritebackGateRequest where
  origin : Value := .str "AI_PROPOSAL"
  requested_status : Value := .str "PROPOSED"
  important : Value := .bool false

/-- The value is one of the texts of a tuple. -/
def one_of (value : Value) (texts : List Str) : Bool :=
  match value.str? with
  | some text => text ∈ texts
  | none => false

/-- The argument may be any value; `.inl` is an instance of `WritebackGateRequest`. -/
def validate_request : WritebackGateRequest ⊕ Value → List Str
  | .inr _ => ["request must be a WritebackGateRequest instance"]
  | .inl request => sorted_set (
      (if one_of request.origin ORIGINS then []
        else [Str.ofString "origin must be one of ('USER_CONFIRMED', 'AI_PROPOSAL')"]) ++
      (if one_of request.requested_status REQUESTED_STATUSES then []
        else [Str.ofString "requested_status must be one of ('PROPOSED', 'ACTIVE', 'LOCKED')"]) ++
      (if request.important.isBool then [] else [Str.ofString "important must be a bool"]))

/-- The outcome dictionaries. The first two have the state REVIEW_REQUIRED and are
    named by their `reason`. -/
inductive Outcome where
  | malformed_input (errors : List Str)
  | ai_proposal_authoritative_status (origin requested_status : Value)
  | WRITEBACK_CANDIDATE (origin requested_status : Value)
  | NOT_REQUIRED

def Outcome.state : Outcome → Str
  | .malformed_input _ => "REVIEW_REQUIRED"
  | .ai_proposal_authoritative_status _ _ => "REVIEW_REQUIRED"
  | .WRITEBACK_CANDIDATE _ _ => "WRITEBACK_CANDIDATE"
  | .NOT_REQUIRED => "NOT_REQUIRED"

def evaluate (request : WritebackGateRequest ⊕ Value) : Outcome :=
  match request with
  | .inr _ => .malformed_input (validate_request request)
  | .inl fields =>
    let errors := validate_request request
    if errors ≠ [] then
      .malformed_input errors
    else if fields.origin.str? = some (Str.ofString "AI_PROPOSAL") ∧
        fields.requested_status.str? ≠ some AI_PROPOSAL_ALLOWED_STATUS then
      .ai_proposal_authoritative_status fields.origin fields.requested_status
    else if fields.important.isTrue then
      .WRITEBACK_CANDIDATE fields.origin fields.requested_status
    else
      .NOT_REQUIRED

/-- The gate lets an AI proposal through at one status only, whatever else the
    request says. -/
theorem ai_proposal_status {request : WritebackGateRequest} (horigin : request.origin = .str "AI_PROPOSAL")
    (hpassed : (evaluate (.inl request)).state ≠ Str.ofString "REVIEW_REQUIRED") :
    request.requested_status = .str AI_PROPOSAL_ALLOWED_STATUS := by
  by_contra hstatus
  have hrejected : request.origin.str? = some (Str.ofString "AI_PROPOSAL") ∧
      request.requested_status.str? ≠ some AI_PROPOSAL_ALLOWED_STATUS := by
    simpa using ⟨horigin, hstatus⟩
  apply hpassed
  unfold evaluate
  by_cases herrors : validate_request (.inl request) = []
  · simp only [herrors, ne_eq, not_true_eq_false, if_false, if_pos hrejected]
    rfl
  · simp only [ne_eq, herrors, not_false_iff, if_true]
    rfl

end context_router.writeback_gate
