import ContextRouter.Graph.Walk
import ContextRouter.MinimalResolver.Record
import ContextRouter.Python.Dict

open python

namespace context_router.minimal_resolver

variable {α : Type}

/-- An optional value in an f-string. -/
def shown : Option Str → Str
  | none => "None"
  | some text => text

/-- What the first loop of `validate_registry` carries. -/
structure FieldPass (α : Type) where
  by_id : Dict Str (Record α)
  errors : List Str

/-- `by_id[decision_id] = record`, for a record that has an id. -/
def add_id (by_id : Dict Str (Record α)) (record : Record α) : Dict Str (Record α) :=
  match record.id? with
  | none => by_id
  | some decision_id => by_id.set decision_id record

def duplicate_errors (by_id : Dict Str (Record α)) (record : Record α) : List Str :=
  match record.id? with
  | none => []
  | some decision_id =>
    if decision_id ∈ by_id.keys then ["duplicate decision_id: " ++ decision_id] else []

def status_errors (idx : Nat) (record : Record α) : List Str :=
  if record.StatusIn known_statuses then []
  else ["unknown status at index " ++ decimal idx ++ ": " ++ shown record.status]

/-- The guarded parse of one date field. -/
def date_errors (field : Str) (idx : Nat) (value : Option Str) : List Str :=
  match parse_date value with
  | .ok _ => []
  | .error _ => ["malformed " ++ field ++ " at index " ++ decimal idx]

/-- One turn of the first loop. -/
def check_fields (pass : FieldPass α) (entry : Record α × Nat) : FieldPass α :=
  let (record, idx) := entry
  { by_id := add_id pass.by_id record
    errors := pass.errors ++ duplicate_errors pass.by_id record ++ status_errors idx record ++
      date_errors "effective_from" idx record.effective_from ++
      date_errors "last_verified" idx record.last_verified }

/-- What the second loop carries. -/
structure RelationPass where
  graph : Dict Str Str
  errors : List Str

def timing_errors (link : Str) (predecessor_date successor_date : Option Date) : List Str :=
  match predecessor_date, successor_date with
  | some predecessor_date, some successor_date =>
    if predecessor_date ≤ successor_date then [] else ["invalid timing: " ++ link]
  | _, _ => []

/-- The errors of a relation whose predecessor was found. -/
def link_errors (link : Str) (record predecessor : Record α)
    (predecessor_date successor_date : Option Date) : List Str :=
  (if predecessor.StatusIn AUTHORITATIVE then [] else ["non-authoritative predecessor: " ++ link]) ++
    (if scope_key predecessor = scope_key record then [] else ["cross-scope supersedes: " ++ link]) ++
    timing_errors link predecessor_date successor_date

/-- One turn of the second loop. The two parses are not guarded: a malformed date
    that takes part in a relation escapes as `ValueError`. -/
def check_relation (by_id : Dict Str (Record α)) (pass : RelationPass) (record : Record α) :
    Except Raised RelationPass :=
  match record.link? with
  | none => .ok pass
  | some predecessor_id =>
    match record.id? with
    | none =>
      .ok { pass with errors := pass.errors ++ [Str.ofString "relation-bearing successor missing decision_id"] }
    | some decision_id =>
      let link := decision_id ++ "->" ++ predecessor_id
      match by_id.get? predecessor_id with
      | none => .ok { pass with errors := pass.errors ++ ["dangling supersedes: " ++ link] }
      | some predecessor => do
        let predecessor_date ← parse_date predecessor.effective_from
        let successor_date ← parse_date record.effective_from
        return {
          graph := pass.graph.set decision_id predecessor_id
          errors := pass.errors ++ link_errors link record predecessor predecessor_date successor_date }

/-- The `while` loop of the cycle check, with one test for each key and one to
    spare (`digraph.walk_terminates` shows that it never needs more). -/
def cycle_detected (graph : Dict Str Str) (start : Str) : Bool :=
  digraph.walk graph.get? (graph.keys.length + 1) [] start = some true

def cycle_errors (graph : Dict Str Str) : List Str :=
  (graph.keys.filter (cycle_detected graph)).map fun start => "cycle detected from: " ++ start

/-- `successors_by_predecessor.setdefault(predecessor_id, []).append(record)`. -/
def add_successor (successors : Dict Str (List (Record α))) (record : Record α) : Dict Str (List (Record α)) :=
  match record.link? with
  | none => successors
  | some predecessor_id =>
    successors.set predecessor_id ((successors.get? predecessor_id).getD [] ++ [record])

/-- One turn of the last loop. -/
def orphan_errors (successors_by_predecessor : Dict Str (List (Record α))) (record : Record α) : List Str :=
  if record.status = some SUPERSEDED then
    match record.id? with
    | none => []
    | some decision_id =>
      let successors := ((successors_by_predecessor.get? decision_id).getD []).filter fun successor =>
        successor.StatusIn AUTHORITATIVE ∧ scope_key successor = scope_key record
      if successors = [] then ["orphan SUPERSEDED: " ++ decision_id] else []
  else []

def validate_registry (records : List (Record α)) : Except Raised (List Str) := do
  let fields := records.zipIdx.foldl check_fields ⟨.empty, []⟩
  let relations ← records.foldlM (check_relation fields.by_id) ⟨.empty, fields.errors⟩
  let successors_by_predecessor := records.foldl add_successor .empty
  return sorted_set (relations.errors ++ cycle_errors relations.graph ++
    records.flatMap (orphan_errors successors_by_predecessor))

end context_router.minimal_resolver
