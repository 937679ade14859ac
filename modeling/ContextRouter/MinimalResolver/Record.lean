import ContextRouter.Python.Date

open python

namespace context_router.minimal_resolver

/-- The entries of a record's `scope` that the resolver reads, each as `str()`
    renders it; a missing entry is `none`. -/
structure Scope where
  domain : Option Str
  subject : Option Str
  field : Option Str
deriving DecidableEq, Repr

/-- A decision record. A missing key is `none`. The value is never inspected by the
    resolver, so its type is left open. -/
structure Record (α : Type) where
  decision_id : Option Str
  scope : Option Scope
  status : Option Str
  effective_from : Option Str
  supersedes : Option Str
  last_verified : Option Str
  value : Option α
deriving DecidableEq, Repr

def LOCKED : Str := "LOCKED"
def ACTIVE : Str := "ACTIVE"
def PROPOSED : Str := "PROPOSED"
def HYPOTHESIS : Str := "HYPOTHESIS"
def SUPERSEDED : Str := "SUPERSEDED"
def ARCHIVED : Str := "ARCHIVED"

def AUTHORITATIVE : List Str := [LOCKED, ACTIVE, SUPERSEDED]

def CURRENT_CAPABLE : List Str := [LOCKED, ACTIVE]

/-- The statuses that `validate_registry` accepts. -/
def known_statuses : List Str := [LOCKED, ACTIVE, PROPOSED, HYPOTHESIS, SUPERSEDED, ARCHIVED]

/-- `_parse_date`. Only the parse of a non-empty text can raise. -/
def parse_date (value : Option Str) : Except Raised (Option Date) :=
  match truthy value with
  | none => .ok none
  | some text =>
    match strptime text with
    | some date => .ok (some date)
    | none => .error .ValueError

variable {α : Type}

/-- `_scope_key`. -/
def scope_key (record : Record α) : Str × Str × Str :=
  match record.scope with
  | none => ([], [], [])
  | some scope => (scope.domain.getD [], scope.subject.getD [], scope.field.getD [])

namespace Record

/-- The status is in a set of statuses. -/
def StatusIn (record : Record α) (statuses : List Str) : Prop :=
  ∃ status ∈ statuses, record.status = some status

instance (record : Record α) (statuses : List Str) : Decidable (record.StatusIn statuses) :=
  inferInstanceAs (Decidable (∃ status ∈ statuses, record.status = some status))

/-- The record's non-empty `decision_id`. -/
def id? (record : Record α) : Option Str := truthy record.decision_id

/-- The non-empty id that the record supersedes. -/
def link? (record : Record α) : Option Str := truthy record.supersedes

end Record

/-- The records of `sample_decisions.json`. -/
def sample_decisions : List (Record Nat) :=
  let starter : Scope := ⟨some "demo", some "starter", some "price"⟩
  let beta : Scope := ⟨some "demo", some "beta", some "price"⟩
  [⟨some "PRICE-001", starter, some SUPERSEDED, some "2026-07-01", none, some "2026-07-15", some 100⟩,
    ⟨some "PRICE-002", starter, some ACTIVE, some "2026-08-01", some "PRICE-001", some "2026-08-28", some 200⟩,
    ⟨some "BETA-001", beta, some HYPOTHESIS, some "2026-08-01", none, some "2026-08-28", some 50⟩]

/-- A date field that is absent, empty or parsable. -/
def DateOk (value : Option Str) : Prop := ∃ date, parse_date value = .ok date

instance (value : Option Str) : Decidable (DateOk value) :=
  match h : parse_date value with
  | .ok date => isTrue ⟨date, h⟩
  | .error raised => isFalse (by rintro ⟨date, hdate⟩; rw [h] at hdate; cases hdate)

/-- A date that is malformed makes `_parse_date` raise `ValueError`. -/
theorem parse_date_of_not_dateOk {value : Option Str} (hbad : ¬ DateOk value) :
    parse_date value = .error .ValueError := by
  unfold DateOk at hbad
  unfold parse_date at hbad ⊢
  cases htext : truthy value with
  | none => simp [htext] at hbad
  | some text =>
    simp only [htext] at hbad ⊢
    cases hdate : strptime text with
    | some date => simp [hdate] at hbad
    | none => rfl

end context_router.minimal_resolver
