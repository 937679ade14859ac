import ContextRouter.MinimalResolver.Accepts

open python

namespace context_router.minimal_resolver

variable {α : Type}

/-- The result of `resolve_current`: the `state` of its dictionary, with the other
    keys that the state comes with. -/
inductive Resolution (α : Type) where
  | UNKNOWN (reason : Str)
  | DATA_ERROR (errors : List Str)
  | CONFLICT (reason : Str) (decision_ids : List (Option Str))
  | VERIFY (reason : Str) (age_days : Option Int) (record : Record α)
  | RESOLVED (record : Record α)
deriving DecidableEq

/-- The text under `state`. -/
def Resolution.state : Resolution α → Str
  | .UNKNOWN _ => "UNKNOWN"
  | .DATA_ERROR _ => "DATA_ERROR"
  | .CONFLICT _ _ => "CONFLICT"
  | .VERIFY _ _ _ => "VERIFY"
  | .RESOLVED _ => "RESOLVED"

/-- The record under `record`, for the states that select one. -/
def Resolution.record? : Resolution α → Option (Record α)
  | .VERIFY _ _ record => some record
  | .RESOLVED record => some record
  | _ => none

/-- The value under `age_days`, if there is one. -/
def Resolution.age_days? : Resolution α → Option Int
  | .VERIFY _ age_days _ => age_days
  | _ => none

/-- The list under `decision_ids`; empty for the states that come without one. -/
def Resolution.decision_ids : Resolution α → List (Option Str)
  | .CONFLICT _ decision_ids => decision_ids
  | _ => []

/-- What a result tells its caller about the decision. -/
def Resolution.answer (result : Resolution α) : Str × Option (Record α) × Option Int × List (Option Str) :=
  (result.state, result.record?, result.age_days?, result.decision_ids)

/-- The loop that collects the effective records. -/
def effective_records (as_of_date : Date) : List (Record α) → Except Raised (List (Record α))
  | [] => .ok []
  | record :: rest =>
    if record.StatusIn CURRENT_CAPABLE then do
      let effective_from ← parse_date record.effective_from
      let later ← effective_records as_of_date rest
      return match effective_from with
        | none => record :: later
        | some date => if date ≤ as_of_date then record :: later else later
    else
      effective_records as_of_date rest

def superseded_ids (effective : List (Record α)) : List (Option Str) :=
  (effective.filter fun record => record.link?.isSome).map Record.supersedes

def survivors (effective : List (Record α)) : List (Record α) :=
  effective.filter fun record => record.decision_id ∉ superseded_ids effective

/-- The freshness check of the one survivor. -/
def freshness (as_of_date : Date) (verify_after_days : Int) (selected : Record α) : Except Raised (Resolution α) := do
  match ← parse_date selected.last_verified with
  | none => return .VERIFY "missing_last_verified" none selected
  | some last_verified =>
    let age_days := as_of_date.days_since last_verified
    if age_days > verify_after_days then
      return .VERIFY "stale_selected_record" (some age_days) selected
    else
      return .RESOLVED selected

/-- The unique survivor rule. -/
def classify (as_of_date : Date) (verify_after_days : Int) : List (Record α) → Except Raised (Resolution α)
  | [] => return .UNKNOWN "no_current_survivor"
  | [selected] => freshness as_of_date verify_after_days selected
  | several => return .CONFLICT "multiple_current_survivors" (several.map Record.decision_id)

/-- The records of one scope. -/
def scope_records (records : List (Record α)) (scope : Str × Str × Str) : List (Record α) :=
  records.filter fun record => scope_key record = scope

@[simp] theorem mem_scope_records {records : List (Record α)} {scope : Str × Str × Str} {record : Record α} :
    record ∈ scope_records records scope ↔ record ∈ records ∧ scope_key record = scope := by
  simp [scope_records]

def resolve_current (records : List (Record α)) (domain subject field as_of : Str) (verify_after_days : Int := 30) :
    Except Raised (Resolution α) := do
  let scope_records := scope_records records (domain, subject, field)
  if scope_records = [] then
    return .UNKNOWN "no_records_for_scope"
  let errors ← validate_registry scope_records
  if errors ≠ [] then
    return .DATA_ERROR errors
  match ← parse_date as_of with
  | none => throw .AssertionError
  | some as_of_date =>
    let effective ← effective_records as_of_date scope_records
    classify as_of_date verify_after_days (survivors effective)

end context_router.minimal_resolver
