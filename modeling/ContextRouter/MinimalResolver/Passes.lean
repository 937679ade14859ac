import ContextRouter.MinimalResolver.Validate
import ContextRouter.MinimalResolver.WellFormed

open python

namespace context_router.minimal_resolver

variable {α : Type}

/-! ### The field loop -/

/-- The checks of one record that look at no other record. -/
structure FieldsOk (record : Record α) : Prop where
  known_status : record.StatusIn known_statuses
  effective_from_ok : DateOk record.effective_from
  last_verified_ok : DateOk record.last_verified

private theorem date_errors_eq_nil_iff {field : Str} {idx : Nat} {value : Option Str} :
    date_errors field idx value = [] ↔ DateOk value := by
  unfold date_errors DateOk
  cases parse_date value <;> simp

private theorem status_errors_eq_nil_iff {idx : Nat} {record : Record α} :
    status_errors idx record = [] ↔ record.StatusIn known_statuses := by
  unfold status_errors
  by_cases h : record.StatusIn known_statuses <;> simp [h]

private theorem duplicate_errors_eq_nil_iff {by_id : Dict Str (Record α)} {record : Record α} :
    duplicate_errors by_id record = [] ↔ ∀ id, record.id? = some id → id ∉ by_id.keys := by
  unfold duplicate_errors
  cases record.id? with
  | none => simp
  | some id => by_cases h : id ∈ by_id.keys <;> simp [h]

/-- One turn of the field loop adds an error unless the id is new and the fields of
    the record are in order. -/
theorem check_fields_errors_eq_nil_iff {pass : FieldPass α} {record : Record α} {idx : Nat} :
    (check_fields pass (record, idx)).errors = [] ↔
      pass.errors = [] ∧ (∀ id, record.id? = some id → id ∉ pass.by_id.keys) ∧ FieldsOk record := by
  simp only [check_fields, List.append_eq_nil_iff, date_errors_eq_nil_iff, status_errors_eq_nil_iff,
    duplicate_errors_eq_nil_iff]
  constructor
  · rintro ⟨⟨⟨⟨hpass, hnew⟩, hstatus⟩, heffective⟩, hverified⟩
    exact ⟨hpass, hnew, hstatus, heffective, hverified⟩
  · rintro ⟨hpass, hnew, hstatus, heffective, hverified⟩
    exact ⟨⟨⟨⟨hpass, hnew⟩, hstatus⟩, heffective⟩, hverified⟩

theorem mem_keys_add_id {by_id : Dict Str (Record α)} {record : Record α} {id : Str} :
    id ∈ (add_id by_id record).keys ↔ record.id? = some id ∨ id ∈ by_id.keys := by
  unfold add_id
  cases record.id? with
  | none => simp
  | some actual => simp [eq_comm]

/-- The field loop reports nothing exactly when ids are distinct and every record
    passes its own checks. -/
theorem fields_errors_eq_nil_iff {records : List (Record α)} {pass : FieldPass α} {idx : Nat} :
    ((records.zipIdx idx).foldl check_fields pass).errors = [] ↔
      pass.errors = [] ∧ (records.filterMap Record.id?).Nodup ∧
        (∀ id ∈ records.filterMap Record.id?, id ∉ pass.by_id.keys) ∧ ∀ record ∈ records, FieldsOk record := by
  induction records generalizing pass idx with
  | nil => simp
  | cons record rest ih =>
    have hkeys : (check_fields pass (record, idx)).by_id = add_id pass.by_id record := rfl
    rw [List.zipIdx_cons, List.foldl_cons, ih, check_fields_errors_eq_nil_iff, hkeys]
    simp only [mem_keys_add_id, List.forall_mem_cons]
    cases hid : record.id? with
    | none =>
      rw [List.filterMap_cons_none hid]
      simp only [reduceCtorEq, false_or]
      tauto
    | some actual =>
      rw [List.filterMap_cons_some hid, List.nodup_cons]
      simp only [Option.some.injEq, not_or, forall_eq', List.forall_mem_cons]
      constructor
      · rintro ⟨⟨hpass, hnew, hfields⟩, hnodup, hrest, hall⟩
        refine ⟨hpass, ⟨?_, hnodup⟩, ⟨hnew, fun id hmem => (hrest id hmem).2⟩, hfields, hall⟩
        intro hmem
        exact (hrest actual hmem).1 rfl
      · rintro ⟨hpass, ⟨hfresh, hnodup⟩, ⟨hnew, hrest⟩, hfields, hall⟩
        refine ⟨⟨hpass, hnew, hfields⟩, hnodup, ?_, hall⟩
        intro id hmem
        exact ⟨fun heq => hfresh (heq ▸ hmem), hrest id hmem⟩

/-- The last record of a list that carries an id. -/
def last_with_id (records : List (Record α)) (id : Str) : Option (Record α) :=
  (records.filter fun record => record.id? = some id).getLast?

theorem fields_by_id {records : List (Record α)} {pass : FieldPass α} {idx : Nat} :
    ((records.zipIdx idx).foldl check_fields pass).by_id = records.foldl add_id pass.by_id := by
  induction records generalizing pass idx with
  | nil => rfl
  | cons record rest ih =>
    rw [List.zipIdx_cons, List.foldl_cons, ih]
    rfl

/-- `by_id` keeps the last record of an id. -/
theorem get?_foldl_add_id (records : List (Record α)) (by_id : Dict Str (Record α)) (id : Str) :
    (records.foldl add_id by_id).get? id = (last_with_id records id).or (by_id.get? id) := by
  induction records generalizing by_id with
  | nil => rfl
  | cons record rest ih =>
    rw [List.foldl_cons, ih]
    unfold last_with_id add_id
    cases hid : record.id? with
    | none => simp [hid]
    | some actual =>
      rw [Dict.get?_set]
      by_cases heq : actual = id
      · simp only [hid, heq, if_true, decide_true, List.filter_cons_of_pos, List.getLast?_cons]
        cases (rest.filter fun record => record.id? = some id).getLast? <;> rfl
      · simp [hid, heq]

theorem last_with_id_spec {records : List (Record α)} {id : Str} {record : Record α}
    (hlast : last_with_id records id = some record) : record ∈ records ∧ record.id? = some id := by
  have hmem := List.mem_of_getLast? hlast
  simpa using hmem

/-- With distinct ids the last record of an id is the only one. -/
theorem last_with_id_eq_some_iff {records : List (Record α)} (hdistinct : (records.filterMap Record.id?).Nodup)
    {id : Str} {record : Record α} :
    last_with_id records id = some record ↔ record ∈ records ∧ record.id? = some id := by
  constructor
  · exact last_with_id_spec
  · rintro ⟨hmem, hid⟩
    cases hlast : last_with_id records id with
    | none =>
      have hempty := List.getLast?_eq_none_iff.mp hlast
      have : record ∈ records.filter fun record => record.id? = some id := by simp [hmem, hid]
      rw [hempty] at this
      cases this
    | some actual =>
      obtain ⟨hactual, hactualId⟩ := last_with_id_spec hlast
      rw [WellFormed.eq_of_id hdistinct hactual hmem hactualId hid]

/-! ### The relation loop -/

/-- The dates of a resolved relation can be read. -/
def RelationDatesOk (by_id : Dict Str (Record α)) (record : Record α) : Prop :=
  ∀ predecessor_id id predecessor, record.link? = some predecessor_id → record.id? = some id →
    by_id.get? predecessor_id = some predecessor →
      DateOk predecessor.effective_from ∧ DateOk record.effective_from

/-- A relation that the loop accepts. -/
def RelationOk (by_id : Dict Str (Record α)) (record : Record α) : Prop :=
  ∀ predecessor_id, record.link? = some predecessor_id →
    (∃ id, record.id? = some id) ∧ ∃ predecessor, by_id.get? predecessor_id = some predecessor ∧
      Supports predecessor record

/-- The edge that an accepted relation adds to the graph. -/
def add_link (graph : Dict Str Str) (record : Record α) : Dict Str Str :=
  match record.id?, record.link? with
  | some decision_id, some predecessor_id => graph.set decision_id predecessor_id
  | _, _ => graph

private theorem timing_errors_eq_nil_iff {link : Str} {record predecessor : Record α}
    {predecessor_date successor_date : Option Date}
    (hpredecessor : parse_date predecessor.effective_from = .ok predecessor_date)
    (hsuccessor : parse_date record.effective_from = .ok successor_date) :
    timing_errors link predecessor_date successor_date = [] ↔ InOrder predecessor record := by
  unfold InOrder timing_errors
  rw [hsuccessor, hpredecessor]
  cases predecessor_date with
  | none => simp
  | some before =>
    cases successor_date with
    | none => simp
    | some after => by_cases h : before ≤ after <;> simp [h]

private theorem link_errors_eq_nil_iff {link : Str} {record predecessor : Record α}
    {predecessor_date successor_date : Option Date}
    (hpredecessor : parse_date predecessor.effective_from = .ok predecessor_date)
    (hsuccessor : parse_date record.effective_from = .ok successor_date) :
    link_errors link record predecessor predecessor_date successor_date = [] ↔ Supports predecessor record := by
  unfold link_errors
  rw [List.append_eq_nil_iff, List.append_eq_nil_iff, timing_errors_eq_nil_iff hpredecessor hsuccessor]
  constructor
  · rintro ⟨⟨hstatus, hscope⟩, horder⟩
    exact ⟨by simpa using hstatus, by simpa using hscope, horder⟩
  · rintro ⟨hstatus, hscope, horder⟩
    exact ⟨⟨by simpa using hstatus, by simpa using hscope⟩, horder⟩

/-- One turn of the relation loop raises exactly when the relation resolves and one
    of its two dates is malformed. -/
theorem check_relation_raises {by_id : Dict Str (Record α)} {pass : RelationPass} {record : Record α}
    (hbad : ¬ RelationDatesOk by_id record) : check_relation by_id pass record = .error .ValueError := by
  unfold RelationDatesOk at hbad
  push Not at hbad
  obtain ⟨predecessor_id, id, predecessor, hlink, hid, hget, hdates⟩ := hbad
  simp only [check_relation, hlink, hid, hget]
  by_cases hpredecessor : DateOk predecessor.effective_from
  · obtain ⟨date, hdate⟩ := hpredecessor
    rw [hdate, parse_date_of_not_dateOk (hdates ⟨date, hdate⟩)]
    rfl
  · rw [parse_date_of_not_dateOk hpredecessor]
    rfl

theorem check_relation_total {by_id : Dict Str (Record α)} {record : Record α}
    (hdates : RelationDatesOk by_id record) (pass : RelationPass) :
    ∃ after, check_relation by_id pass record = .ok after := by
  unfold check_relation
  cases hlink : record.link? with
  | none => exact ⟨_, rfl⟩
  | some predecessor_id =>
    cases hid : record.id? with
    | none => exact ⟨_, rfl⟩
    | some id =>
      cases hget : by_id.get? predecessor_id with
      | none => simp [hget]
      | some predecessor =>
        obtain ⟨⟨before, hbefore⟩, after, hafter⟩ := hdates predecessor_id id predecessor hlink hid hget
        simp only [hget, hbefore, hafter]
        exact ⟨_, rfl⟩

/-- One turn that returns adds no error exactly when it accepts the relation, and
    then adds its edge. -/
theorem check_relation_spec {by_id : Dict Str (Record α)} {pass after : RelationPass} {record : Record α}
    (hrun : check_relation by_id pass record = .ok after) :
    (after.errors = [] ↔ pass.errors = [] ∧ RelationOk by_id record) ∧
      (RelationOk by_id record → after.graph = add_link pass.graph record) := by
  unfold check_relation at hrun
  unfold RelationOk add_link
  cases hlink : record.link? with
  | none =>
    simp only [hlink, Except.ok.injEq] at hrun
    subst after
    simp
  | some predecessor_id =>
    cases hid : record.id? with
    | none =>
      simp only [hlink, hid, Except.ok.injEq] at hrun
      subst after
      simp
    | some id =>
      cases hget : by_id.get? predecessor_id with
      | none =>
        simp only [hlink, hid, hget, Except.ok.injEq] at hrun
        subst after
        simp [hget]
      | some predecessor =>
        simp only [hlink, hid, hget, bind_eq_ok_iff, pure_eq_ok_iff] at hrun
        obtain ⟨before, hbefore, date, hafter, rfl⟩ := hrun
        simp [hget, link_errors_eq_nil_iff hbefore hafter]

theorem relations_raise {by_id : Dict Str (Record α)} {records : List (Record α)} {record : Record α}
    (hmem : record ∈ records) (hbad : ¬ RelationDatesOk by_id record) (pass : RelationPass) :
    records.foldlM (check_relation by_id) pass = .error .ValueError := by
  induction records generalizing pass with
  | nil => cases hmem
  | cons first rest ih =>
    rw [List.foldlM_cons]
    by_cases hfirst : RelationDatesOk by_id first
    · obtain ⟨after, hafter⟩ := check_relation_total hfirst pass
      rw [hafter]
      rcases List.mem_cons.mp hmem with rfl | hrest
      · exact absurd hfirst hbad
      · exact ih hrest after
    · rw [check_relation_raises hfirst]
      rfl

theorem relations_total {by_id : Dict Str (Record α)} {records : List (Record α)}
    (hdates : ∀ record ∈ records, RelationDatesOk by_id record) (pass : RelationPass) :
    ∃ after, records.foldlM (check_relation by_id) pass = .ok after := by
  induction records generalizing pass with
  | nil => exact ⟨pass, rfl⟩
  | cons first rest ih =>
    rw [List.forall_mem_cons] at hdates
    obtain ⟨next, hnext⟩ := check_relation_total hdates.1 pass
    obtain ⟨after, hafter⟩ := ih hdates.2 next
    exact ⟨after, by rw [List.foldlM_cons, hnext]; exact hafter⟩

/-- The relation loop reports nothing exactly when it accepts every relation, and
    then its graph holds exactly the edges of the records. -/
theorem relations_spec {by_id : Dict Str (Record α)} {records : List (Record α)} {pass after : RelationPass}
    (hrun : records.foldlM (check_relation by_id) pass = .ok after) :
    (after.errors = [] ↔ pass.errors = [] ∧ ∀ record ∈ records, RelationOk by_id record) ∧
      ((∀ record ∈ records, RelationOk by_id record) → after.graph = records.foldl add_link pass.graph) := by
  induction records generalizing pass with
  | nil =>
    cases hrun
    simp
  | cons first rest ih =>
    rw [List.foldlM_cons, bind_eq_ok_iff] at hrun
    obtain ⟨next, hfirst, hrest⟩ := hrun
    obtain ⟨herrors, hgraph⟩ := check_relation_spec hfirst
    obtain ⟨hrestErrors, hrestGraph⟩ := ih hrest
    rw [List.forall_mem_cons, List.foldl_cons]
    constructor
    · rw [hrestErrors, herrors, and_assoc]
    · rintro ⟨hok, hrestOk⟩
      rw [hrestGraph hrestOk, hgraph hok]

private theorem get?_add_link {graph : Dict Str Str} {record : Record α} {id predecessor_id : Str} :
    (add_link graph record).get? id = some predecessor_id ↔
      (record.id? = some id ∧ record.link? = some predecessor_id) ∨
        (graph.get? id = some predecessor_id ∧ (record.id? = some id → record.link? = none)) := by
  unfold add_link
  cases hid : record.id? with
  | none => simp
  | some actual =>
    cases hlink : record.link? with
    | none => simp
    | some target =>
      rw [Dict.get?_set]
      by_cases heq : actual = id <;> simp [heq]

/-- With distinct ids, the edges are those of the records. -/
theorem get?_foldl_add_link {records : List (Record α)} (hdistinct : (records.filterMap Record.id?).Nodup)
    {graph : Dict Str Str} {id predecessor_id : Str} :
    (records.foldl add_link graph).get? id = some predecessor_id ↔
      Linked records id predecessor_id ∨
        (graph.get? id = some predecessor_id ∧ ∀ record ∈ records, record.id? = some id → record.link? = none) := by
  induction records generalizing graph with
  | nil => simp [Linked]
  | cons first rest ih =>
    have hrest : (rest.filterMap Record.id?).Nodup := by
      refine hdistinct.sublist ?_
      exact (List.sublist_cons_self first rest).filterMap _
    have hfresh : first.id? = some id → ∀ record ∈ rest, record.id? = some id → record.link? = none := by
      intro hid record hmem hrecord
      rw [List.filterMap_cons_some hid, List.nodup_cons] at hdistinct
      exact absurd (List.mem_filterMap.mpr ⟨record, hmem, hrecord⟩) hdistinct.1
    rw [List.foldl_cons, ih hrest, get?_add_link, List.forall_mem_cons]
    have hlinked : Linked (first :: rest) id predecessor_id ↔
        (first.id? = some id ∧ first.link? = some predecessor_id) ∨ Linked rest id predecessor_id := by
      simp [Linked]
    rw [hlinked]
    tauto

/-! ### The cycle and orphan loops -/

theorem cycle_errors_eq_nil_iff {graph : Dict Str Str} :
    cycle_errors graph = [] ↔ digraph.Acyclic (digraph.Edge graph.get?) := by
  rw [← digraph.forall_walk_ne_true_iff graph.mem_keys_of_get?]
  simp [cycle_errors, cycle_detected]

theorem get?_foldl_add_successor (records : List (Record α)) (successors : Dict Str (List (Record α))) (id : Str) :
    ((records.foldl add_successor successors).get? id).getD [] =
      (successors.get? id).getD [] ++ records.filter fun record => record.link? = some id := by
  induction records generalizing successors with
  | nil => simp
  | cons first rest ih =>
    rw [List.foldl_cons, ih]
    unfold add_successor
    cases hlink : first.link? with
    | none => simp [hlink]
    | some predecessor_id =>
      rw [Dict.get?_set]
      by_cases heq : predecessor_id = id <;> simp [hlink, heq]

/-- The last loop reports nothing about a record exactly when the record is not an
    orphan. -/
theorem orphan_errors_eq_nil_iff {records : List (Record α)} {record : Record α} :
    orphan_errors (records.foldl add_successor .empty) record = [] ↔
      (record.status = some SUPERSEDED → (∃ id, record.id? = some id) →
        ∃ successor ∈ records, Replaces successor record) := by
  unfold orphan_errors
  by_cases hstatus : record.status = some SUPERSEDED
  · cases hid : record.id? with
    | none => simp [hstatus]
    | some id =>
      have hreplaces : ∀ successor : Record α, Replaces successor record ↔
          successor.link? = some id ∧ successor.StatusIn AUTHORITATIVE ∧ scope_key successor = scope_key record := by
        intro successor
        constructor
        · rintro ⟨hstatus, hscope, id', hlink, hid'⟩
          rw [hid, Option.some.injEq] at hid'
          exact ⟨hid' ▸ hlink, hstatus, hscope⟩
        · rintro ⟨hlink, hstatus, hscope⟩
          exact ⟨hstatus, hscope, id, hlink, hid⟩
      simp only [hstatus, if_true, get?_foldl_add_successor, Dict.get?_empty, Option.getD_none, List.nil_append,
        hreplaces]
      simp
      grind
  · simp [hstatus]

end context_router.minimal_resolver
