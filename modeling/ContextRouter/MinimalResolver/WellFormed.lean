import ContextRouter.Graph.Acyclic
import ContextRouter.MinimalResolver.Record

open python

namespace context_router.minimal_resolver

variable {α : Type}

/-- The successor names the predecessor in `supersedes`. -/
def Succeeds (successor predecessor : Record α) : Prop :=
  ∃ id, successor.link? = some id ∧ predecessor.id? = some id

/-- The relation from the id of a record to the id that it supersedes. -/
def Linked (records : List (Record α)) (id predecessor_id : Str) : Prop :=
  ∃ record ∈ records, record.id? = some id ∧ record.link? = some predecessor_id

/-- The successor does not take effect before the predecessor, where both say when. -/
def InOrder (predecessor successor : Record α) : Prop :=
  ∀ before after, parse_date predecessor.effective_from = .ok (some before) →
    parse_date successor.effective_from = .ok (some after) → before ≤ after

/-- A record that may stand as the predecessor of `successor`. -/
structure Supports (predecessor successor : Record α) : Prop where
  authoritative : predecessor.StatusIn AUTHORITATIVE
  same_scope : scope_key predecessor = scope_key successor
  in_order : InOrder predecessor successor

/-- A record that may stand as the successor of a SUPERSEDED `record`. -/
structure Replaces (successor record : Record α) : Prop where
  authoritative : successor.StatusIn AUTHORITATIVE
  same_scope : scope_key successor = scope_key record
  succeeds : Succeeds successor record

/-- A registry with unique ids, known statuses, readable dates, sound relations, no
    cycle of relations and no orphan among its superseded records. -/
structure WellFormed (records : List (Record α)) : Prop where
  ids_distinct : (records.filterMap Record.id?).Nodup
  known_status : ∀ record ∈ records, record.StatusIn known_statuses
  effective_from_ok : ∀ record ∈ records, DateOk record.effective_from
  last_verified_ok : ∀ record ∈ records, DateOk record.last_verified
  relation : ∀ record ∈ records, ∀ predecessor_id, record.link? = some predecessor_id →
    (∃ id, record.id? = some id) ∧
      ∃ predecessor ∈ records, predecessor.id? = some predecessor_id ∧ Supports predecessor record
  acyclic : digraph.Acyclic (Linked records)
  replaced : ∀ record ∈ records, record.status = some SUPERSEDED → (∃ id, record.id? = some id) →
    ∃ successor ∈ records, Replaces successor record

/-- With distinct ids, an id names one record. -/
theorem WellFormed.eq_of_id {records : List (Record α)} (hdistinct : (records.filterMap Record.id?).Nodup)
    {left right : Record α} (hleft : left ∈ records) (hright : right ∈ records) {id : Str}
    (hidLeft : left.id? = some id) (hidRight : right.id? = some id) : left = right := by
  induction records with
  | nil => cases hleft
  | cons record rest ih =>
    have hrest : (rest.filterMap Record.id?).Nodup := by
      refine hdistinct.sublist ?_
      exact (List.sublist_cons_self record rest).filterMap _
    have hfresh : ∀ other ∈ rest, record.id? = some id → other.id? ≠ some id := by
      intro other hother hid hotherId
      rw [List.filterMap_cons_some hid, List.nodup_cons] at hdistinct
      exact hdistinct.1 (List.mem_filterMap.mpr ⟨other, hother, hotherId⟩)
    rcases List.mem_cons.mp hleft with rfl | hleftRest
    · rcases List.mem_cons.mp hright with rfl | hrightRest
      · rfl
      · exact absurd hidRight (hfresh right hrightRest hidLeft)
    · rcases List.mem_cons.mp hright with rfl | hrightRest
      · exact absurd hidLeft (hfresh left hleftRest hidRight)
      · exact ih hrest hleftRest hrightRest

end context_router.minimal_resolver
