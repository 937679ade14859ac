import ContextRouter.MinimalResolver.Accepts
import ContextRouter.MinimalResolver.Cycles

open python Relation

namespace context_router.minimal_resolver

variable {α : Type}

/-! ### What there is to report -/

/-- A defect of one record that the field loop reports under its position. -/
inductive FieldDefect (idx : Nat) (record : Record α) : Str → Prop
  | unknown_status (hunknown : ¬ record.StatusIn known_statuses) :
      FieldDefect idx record ("unknown status at index " ++ decimal idx ++ ": " ++ shown record.status)
  | malformed_effective_from (hmalformed : ¬ DateOk record.effective_from) :
      FieldDefect idx record ("malformed effective_from at index " ++ decimal idx)
  | malformed_last_verified (hmalformed : ¬ DateOk record.last_verified) :
      FieldDefect idx record ("malformed last_verified at index " ++ decimal idx)

/-- A defect of the relation of one record. The record that it names is found by id; of
    several with one id the last counts. -/
inductive RelationDefect (find : Str → Option (Record α)) (record : Record α) : Str → Prop
  | missing_id (predecessor_id : Str) (hlink : record.link? = some predecessor_id) (hid : record.id? = none) :
      RelationDefect find record "relation-bearing successor missing decision_id"
  | dangling (id predecessor_id : Str) (hlink : record.link? = some predecessor_id) (hid : record.id? = some id)
      (hfind : find predecessor_id = none) :
      RelationDefect find record ("dangling supersedes: " ++ (id ++ "->" ++ predecessor_id))
  | non_authoritative (id predecessor_id : Str) (predecessor : Record α) (hlink : record.link? = some predecessor_id)
      (hid : record.id? = some id) (hfind : find predecessor_id = some predecessor)
      (hstatus : ¬ predecessor.StatusIn AUTHORITATIVE) :
      RelationDefect find record ("non-authoritative predecessor: " ++ (id ++ "->" ++ predecessor_id))
  | cross_scope (id predecessor_id : Str) (predecessor : Record α) (hlink : record.link? = some predecessor_id)
      (hid : record.id? = some id) (hfind : find predecessor_id = some predecessor)
      (hscope : scope_key predecessor ≠ scope_key record) :
      RelationDefect find record ("cross-scope supersedes: " ++ (id ++ "->" ++ predecessor_id))
  | invalid_timing (id predecessor_id : Str) (predecessor : Record α) (hlink : record.link? = some predecessor_id)
      (hid : record.id? = some id) (hfind : find predecessor_id = some predecessor)
      (htiming : ¬ InOrder predecessor record) :
      RelationDefect find record ("invalid timing: " ++ (id ++ "->" ++ predecessor_id))

/-- The id that an id leads to in the graph of the cycle check: that of the last record
    with the id whose relation names a record of the registry. -/
def next_id (records : List (Record α)) (id : Str) : Option Str :=
  (records.filter fun record => record.id? = some id ∧
    (record.link?.bind (last_with_id records)).isSome).getLast?.bind Record.link?

/-- The texts that describe what is wrong with a registry. -/
inductive Defect (records : List (Record α)) : Str → Prop
  | duplicate_id (id : Str) (hcount : 1 < (records.filterMap Record.id?).count id) :
      Defect records ("duplicate decision_id: " ++ id)
  | field (idx : Nat) (record : Record α) (hrecord : records[idx]? = some record) (error : Str)
      (hdefect : FieldDefect idx record error) : Defect records error
  | relation (record : Record α) (hmem : record ∈ records) (error : Str)
      (hdefect : RelationDefect (last_with_id records) record error) : Defect records error
  | cycle (start id : Str) (hreach : ReflTransGen (digraph.Edge (next_id records)) start id)
      (hcycle : TransGen (digraph.Edge (next_id records)) id id) : Defect records ("cycle detected from: " ++ start)
  | orphan (record : Record α) (id : Str) (hmem : record ∈ records) (hstatus : record.status = some SUPERSEDED)
      (hid : record.id? = some id) (hnone : ∀ successor ∈ records, ¬ Replaces successor record) :
      Defect records ("orphan SUPERSEDED: " ++ id)

/-! ### The field loop -/

theorem mem_duplicate_errors {by_id : Dict Str (Record α)} {record : Record α} {error : Str} :
    error ∈ duplicate_errors by_id record ↔
      ∃ id, error = "duplicate decision_id: " ++ id ∧ record.id? = some id ∧ id ∈ by_id.keys := by
  unfold duplicate_errors
  cases record.id? with
  | none => simp
  | some id => by_cases hused : id ∈ by_id.keys <;> simp [hused]

theorem mem_date_errors {field : Str} {idx : Nat} {value : Option Str} {error : Str} :
    error ∈ date_errors field idx value ↔
      error = "malformed " ++ field ++ " at index " ++ decimal idx ∧ ¬ DateOk value := by
  unfold date_errors DateOk
  cases parse_date value <;> simp

theorem mem_status_errors {idx : Nat} {record : Record α} {error : Str} :
    error ∈ status_errors idx record ↔
      error = "unknown status at index " ++ decimal idx ++ ": " ++ shown record.status ∧
        ¬ record.StatusIn known_statuses := by
  unfold status_errors
  by_cases hknown : record.StatusIn known_statuses <;> simp [hknown]

theorem fieldDefect_iff {idx : Nat} {record : Record α} {error : Str} :
    FieldDefect idx record error ↔ error ∈ status_errors idx record ++
      date_errors "effective_from" idx record.effective_from ++ date_errors "last_verified" idx record.last_verified := by
  simp only [List.mem_append, mem_status_errors, mem_date_errors]
  constructor
  · intro hdefect
    cases hdefect with
    | unknown_status hunknown => exact Or.inl (Or.inl ⟨rfl, hunknown⟩)
    | malformed_effective_from hmalformed => exact Or.inl (Or.inr ⟨rfl, hmalformed⟩)
    | malformed_last_verified hmalformed => exact Or.inr ⟨rfl, hmalformed⟩
  · rintro ((⟨rfl, hunknown⟩ | ⟨rfl, hmalformed⟩) | ⟨rfl, hmalformed⟩)
    · exact .unknown_status hunknown
    · exact .malformed_effective_from hmalformed
    · exact .malformed_last_verified hmalformed

theorem mem_check_fields {pass : FieldPass α} {record : Record α} {idx : Nat} {error : Str} :
    error ∈ (check_fields pass (record, idx)).errors ↔ error ∈ pass.errors ∨
      (∃ id, error = "duplicate decision_id: " ++ id ∧ record.id? = some id ∧ id ∈ pass.by_id.keys) ∨
        FieldDefect idx record error := by
  rw [fieldDefect_iff, ← mem_duplicate_errors]
  simp only [check_fields, List.mem_append, or_assoc]

/-- The field loop reports an id when it meets it again, and the defects of each record
    under the position of the record. -/
theorem mem_fields_errors {records : List (Record α)} {pass : FieldPass α} {start : Nat} {error : Str} :
    error ∈ ((records.zipIdx start).foldl check_fields pass).errors ↔ error ∈ pass.errors ∨
      (∃ id, error = "duplicate decision_id: " ++ id ∧
        (if id ∈ pass.by_id.keys then 0 else 1) < (records.filterMap Record.id?).count id) ∨
        ∃ idx record, records[idx]? = some record ∧ FieldDefect (start + idx) record error := by
  induction records generalizing pass start with
  | nil => simp
  | cons first rest ih =>
    have hkeys : (check_fields pass (first, start)).by_id = add_id pass.by_id first := rfl
    have hcount : ∀ id, (if id ∈ pass.by_id.keys then 0 else 1) < ((first :: rest).filterMap Record.id?).count id ↔
        (first.id? = some id ∧ id ∈ pass.by_id.keys) ∨
          (if id ∈ (add_id pass.by_id first).keys then 0 else 1) < (rest.filterMap Record.id?).count id := by
      intro id
      simp only [mem_keys_add_id]
      cases hid : first.id? with
      | none => simp [hid]
      | some actual =>
        rw [List.filterMap_cons_some hid, List.count_cons]
        by_cases heq : actual = id
        · by_cases hused : id ∈ pass.by_id.keys <;> simp [heq, hused]
        · simp [heq]
    have hshift : ∀ idx, start + 1 + idx = start + (idx + 1) := by omega
    have hpositions : (∃ idx record, (first :: rest)[idx]? = some record ∧ FieldDefect (start + idx) record error) ↔
        FieldDefect start first error ∨
          ∃ idx record, rest[idx]? = some record ∧ FieldDefect (start + 1 + idx) record error := by
      constructor
      · rintro ⟨idx, record, hrecord, hdefect⟩
        cases idx with
        | zero =>
          rw [List.getElem?_cons_zero, Option.some.injEq] at hrecord
          exact Or.inl (hrecord ▸ hdefect)
        | succ idx => exact Or.inr ⟨idx, record, hrecord, hshift idx ▸ hdefect⟩
      · rintro (hdefect | ⟨idx, record, hrecord, hdefect⟩)
        · exact ⟨0, first, rfl, hdefect⟩
        · exact ⟨idx + 1, record, hrecord, hshift idx ▸ hdefect⟩
    rw [List.zipIdx_cons, List.foldl_cons, ih, mem_check_fields, hkeys, hpositions]
    simp only [hcount]
    constructor
    · rintro ((hpass | ⟨id, rfl, hseen⟩ | hdefect) | ⟨id, rfl, hlater⟩ | hdefect)
      · exact Or.inl hpass
      · exact Or.inr (Or.inl ⟨id, rfl, Or.inl hseen⟩)
      · exact Or.inr (Or.inr (Or.inl hdefect))
      · exact Or.inr (Or.inl ⟨id, rfl, Or.inr hlater⟩)
      · exact Or.inr (Or.inr (Or.inr hdefect))
    · rintro (hpass | ⟨id, rfl, hseen | hlater⟩ | hdefect | hdefect)
      · exact Or.inl (Or.inl hpass)
      · exact Or.inl (Or.inr (Or.inl ⟨id, rfl, hseen⟩))
      · exact Or.inr (Or.inl ⟨id, rfl, hlater⟩)
      · exact Or.inl (Or.inr (Or.inr hdefect))
      · exact Or.inr (Or.inr hdefect)

/-! ### The relation loop -/

theorem mem_timing_errors {link : Str} {record predecessor : Record α} {predecessor_date successor_date : Option Date}
    (hpredecessor : parse_date predecessor.effective_from = .ok predecessor_date)
    (hsuccessor : parse_date record.effective_from = .ok successor_date) {error : Str} :
    error ∈ timing_errors link predecessor_date successor_date ↔
      error = "invalid timing: " ++ link ∧ ¬ InOrder predecessor record := by
  unfold InOrder timing_errors
  rw [hsuccessor, hpredecessor]
  cases predecessor_date with
  | none => simp
  | some before =>
    cases successor_date with
    | none => simp
    | some after => by_cases hle : before ≤ after <;> simp [hle]

theorem mem_link_errors {link : Str} {record predecessor : Record α} {predecessor_date successor_date : Option Date}
    (hpredecessor : parse_date predecessor.effective_from = .ok predecessor_date)
    (hsuccessor : parse_date record.effective_from = .ok successor_date) {error : Str} :
    error ∈ link_errors link record predecessor predecessor_date successor_date ↔
      (error = "non-authoritative predecessor: " ++ link ∧ ¬ predecessor.StatusIn AUTHORITATIVE) ∨
        (error = "cross-scope supersedes: " ++ link ∧ scope_key predecessor ≠ scope_key record) ∨
          (error = "invalid timing: " ++ link ∧ ¬ InOrder predecessor record) := by
  unfold link_errors
  rw [List.mem_append, List.mem_append, mem_timing_errors hpredecessor hsuccessor, or_assoc]
  by_cases hstatus : predecessor.StatusIn AUTHORITATIVE <;>
    by_cases hscope : scope_key predecessor = scope_key record <;> simp [hstatus, hscope]

theorem relationDefect_of_found {find : Str → Option (Record α)} {record predecessor : Record α}
    {id predecessor_id : Str} (hlink : record.link? = some predecessor_id) (hid : record.id? = some id)
    (hfind : find predecessor_id = some predecessor) {error : Str} :
    RelationDefect find record error ↔
      (error = "non-authoritative predecessor: " ++ (id ++ "->" ++ predecessor_id) ∧
          ¬ predecessor.StatusIn AUTHORITATIVE) ∨
        (error = "cross-scope supersedes: " ++ (id ++ "->" ++ predecessor_id) ∧
          scope_key predecessor ≠ scope_key record) ∨
          (error = "invalid timing: " ++ (id ++ "->" ++ predecessor_id) ∧ ¬ InOrder predecessor record) := by
  constructor
  · intro hdefect
    cases hdefect with
    | missing_id predecessor_id' hlink' hid' => simp [hid] at hid'
    | dangling id' predecessor_id' hlink' hid' hfind' =>
      rw [hlink, Option.some.injEq] at hlink'
      simp [← hlink', hfind] at hfind'
    | non_authoritative id' predecessor_id' predecessor' hlink' hid' hfind' hstatus =>
      rw [hlink, Option.some.injEq] at hlink'
      rw [hid, Option.some.injEq] at hid'
      subst hlink' hid'
      rw [hfind, Option.some.injEq] at hfind'
      exact Or.inl ⟨rfl, hfind' ▸ hstatus⟩
    | cross_scope id' predecessor_id' predecessor' hlink' hid' hfind' hscope =>
      rw [hlink, Option.some.injEq] at hlink'
      rw [hid, Option.some.injEq] at hid'
      subst hlink' hid'
      rw [hfind, Option.some.injEq] at hfind'
      exact Or.inr (Or.inl ⟨rfl, hfind' ▸ hscope⟩)
    | invalid_timing id' predecessor_id' predecessor' hlink' hid' hfind' htiming =>
      rw [hlink, Option.some.injEq] at hlink'
      rw [hid, Option.some.injEq] at hid'
      subst hlink' hid'
      rw [hfind, Option.some.injEq] at hfind'
      exact Or.inr (Or.inr ⟨rfl, hfind' ▸ htiming⟩)
  · rintro (⟨rfl, hstatus⟩ | ⟨rfl, hscope⟩ | ⟨rfl, htiming⟩)
    · exact .non_authoritative id predecessor_id predecessor hlink hid hfind hstatus
    · exact .cross_scope id predecessor_id predecessor hlink hid hfind hscope
    · exact .invalid_timing id predecessor_id predecessor hlink hid hfind htiming

/-- One turn that returns reports the defects of the record's relation, and adds an edge
    when the relation names a record, sound or not. -/
theorem check_relation_exact {by_id : Dict Str (Record α)} {pass after : RelationPass} {record : Record α}
    (hrun : check_relation by_id pass record = .ok after) :
    (∀ error, error ∈ after.errors ↔ error ∈ pass.errors ∨ RelationDefect by_id.get? record error) ∧
      ∀ id, after.graph.get? id =
        if record.id? = some id ∧ (record.link?.bind by_id.get?).isSome then record.link? else pass.graph.get? id := by
  unfold check_relation at hrun
  cases hlink : record.link? with
  | none =>
    simp only [hlink, Except.ok.injEq] at hrun
    subst after
    have hnone : ∀ error, ¬ RelationDefect by_id.get? record error := by
      intro error hdefect
      cases hdefect <;> simp_all
    simp [hnone]
  | some predecessor_id =>
    cases hid : record.id? with
    | none =>
      simp only [hlink, hid, Except.ok.injEq] at hrun
      subst after
      have hmissing : ∀ error, RelationDefect by_id.get? record error ↔
          error = "relation-bearing successor missing decision_id" := by
        intro error
        constructor
        · intro hdefect
          cases hdefect <;> simp_all
        · rintro rfl
          exact .missing_id predecessor_id hlink hid
      simp [hmissing]
    | some decision_id =>
      cases hfind : by_id.get? predecessor_id with
      | none =>
        simp only [hlink, hid, hfind, Except.ok.injEq] at hrun
        subst after
        have hdangling : ∀ error, RelationDefect by_id.get? record error ↔
            error = "dangling supersedes: " ++ (decision_id ++ "->" ++ predecessor_id) := by
          intro error
          constructor
          · intro hdefect
            cases hdefect <;> simp_all
          · rintro rfl
            exact .dangling decision_id predecessor_id hlink hid hfind
        simp [hdangling, hfind]
      | some predecessor =>
        simp only [hlink, hid, hfind, bind_eq_ok_iff, pure_eq_ok_iff] at hrun
        obtain ⟨before, hbefore, date, hafter, rfl⟩ := hrun
        constructor
        · intro error
          rw [List.mem_append, mem_link_errors hbefore hafter, relationDefect_of_found hlink hid hfind]
        · intro id
          rw [Dict.get?_set]
          simp [hfind]

/-- The relation loop that returns reports the defects of every relation, and its graph
    leads from an id by the last relation that the id has. -/
theorem relations_exact {by_id : Dict Str (Record α)} {records : List (Record α)} {pass after : RelationPass}
    (hrun : records.foldlM (check_relation by_id) pass = .ok after) :
    (∀ error, error ∈ after.errors ↔
      error ∈ pass.errors ∨ ∃ record ∈ records, RelationDefect by_id.get? record error) ∧
      ∀ id, after.graph.get? id =
        ((records.filter fun record => record.id? = some id ∧
          (record.link?.bind by_id.get?).isSome).getLast?.bind Record.link?).or (pass.graph.get? id) := by
  induction records generalizing pass with
  | nil =>
    cases hrun
    simp
  | cons first rest ih =>
    rw [List.foldlM_cons, bind_eq_ok_iff] at hrun
    obtain ⟨next, hfirst, hrest⟩ := hrun
    obtain ⟨herrors, hgraph⟩ := check_relation_exact hfirst
    obtain ⟨hrestErrors, hrestGraph⟩ := ih hrest
    constructor
    · intro error
      rw [hrestErrors, herrors, List.exists_mem_cons_iff, or_assoc]
    · intro id
      rw [hrestGraph, hgraph]
      by_cases hedge : first.id? = some id ∧ (first.link?.bind by_id.get?).isSome
      · rw [if_pos hedge, List.filter_cons_of_pos (by simpa using hedge), List.getLast?_cons]
        cases hlast : (rest.filter fun record => record.id? = some id ∧
            (record.link?.bind by_id.get?).isSome).getLast? with
        | none =>
          obtain ⟨predecessor, hfound⟩ := Option.isSome_iff_exists.mp hedge.2
          obtain ⟨predecessor_id, hlink, _⟩ := Option.bind_eq_some_iff.mp hfound
          simp [hlink]
        | some last =>
          have hmem := List.mem_of_getLast? hlast
          simp only [List.mem_filter, decide_eq_true_eq] at hmem
          obtain ⟨predecessor, hfound⟩ := Option.isSome_iff_exists.mp hmem.2.2
          obtain ⟨predecessor_id, hlink, _⟩ := Option.bind_eq_some_iff.mp hfound
          simp [hlink]
      · rw [if_neg hedge, List.filter_cons_of_neg (by simpa using hedge)]

/-! ### The report -/

theorem mem_cycle_errors {graph : Dict Str Str} {error : Str} :
    error ∈ cycle_errors graph ↔ ∃ start id, error = "cycle detected from: " ++ start ∧
      ReflTransGen (digraph.Edge graph.get?) start id ∧ TransGen (digraph.Edge graph.get?) id id := by
  have hstart : ∀ start, (∃ id, ReflTransGen (digraph.Edge graph.get?) start id ∧
      TransGen (digraph.Edge graph.get?) id id) → start ∈ graph.keys := by
    rintro start ⟨id, hreach, hcycle⟩
    obtain ⟨next, hedge⟩ : ∃ next, digraph.Edge graph.get? start next := by
      obtain rfl | ⟨next, hedge, _⟩ := hreach.cases_head
      · obtain ⟨next, hedge, _⟩ := TransGen.head'_iff.mp hcycle
        exact ⟨next, hedge⟩
      · exact ⟨next, hedge⟩
    exact graph.mem_keys_of_get? start next hedge
  constructor
  · intro hmem
    obtain ⟨start, hfilter, rfl⟩ := List.mem_map.mp hmem
    have hkey := (List.mem_filter.mp hfilter).1
    rw [cycle_error_mem_iff hkey, digraph.walk_eq_true_iff_cycle graph.mem_keys_of_get?] at hmem
    obtain ⟨id, hreach, hcycle⟩ := hmem
    exact ⟨start, id, rfl, hreach, hcycle⟩
  · rintro ⟨start, id, rfl, hreach, hcycle⟩
    rw [cycle_error_mem_iff (hstart start ⟨id, hreach, hcycle⟩),
      digraph.walk_eq_true_iff_cycle graph.mem_keys_of_get?]
    exact ⟨id, hreach, hcycle⟩

theorem mem_orphan_errors {records : List (Record α)} {record : Record α} {error : Str} :
    error ∈ orphan_errors (records.foldl add_successor .empty) record ↔
      ∃ id, error = "orphan SUPERSEDED: " ++ id ∧ record.status = some SUPERSEDED ∧ record.id? = some id ∧
        ∀ successor ∈ records, ¬ Replaces successor record := by
  have hnil : orphan_errors (records.foldl add_successor .empty) record = [] ↔ _ := orphan_errors_eq_nil_iff
  by_cases hstatus : record.status = some SUPERSEDED
  · cases hid : record.id? with
    | none => simp [orphan_errors, hstatus, hid]
    | some id =>
      have hone : orphan_errors (records.foldl add_successor .empty) record = [] ∨
          orphan_errors (records.foldl add_successor .empty) record = ["orphan SUPERSEDED: " ++ id] := by
        simp only [orphan_errors, hstatus, hid, if_true]
        split <;> simp
      obtain hempty | horphan := hone
      · obtain ⟨successor, hsuccessor, hreplaces⟩ := hnil.mp hempty hstatus ⟨id, hid⟩
        rw [hempty]
        simp only [List.not_mem_nil, false_iff]
        rintro ⟨_, _, _, _, hnone⟩
        exact hnone successor hsuccessor hreplaces
      · have hnone : ∀ successor ∈ records, ¬ Replaces successor record := by
          intro successor hsuccessor hreplaces
          have hempty := hnil.mpr fun _ _ => ⟨successor, hsuccessor, hreplaces⟩
          rw [hempty] at horphan
          cases horphan
        rw [horphan]
        simpa [hstatus] using fun _ => hnone
  · simp [orphan_errors, hstatus]

/-- `by_id` after the field loop finds the last record of an id. -/
private theorem get?_by_id (records : List (Record α)) :
    (records.foldl add_id .empty).get? = last_with_id records := by
  funext id
  rw [get?_foldl_add_id, Dict.get?_empty, Option.or_none]

/-- A report of the validator is in order, names no defect twice, and holds exactly the
    texts of the defects that the registry has: no defect hides another one, and none is
    reported of a registry that does not have it. -/
theorem report_exact {records : List (Record α)} {errors : List Str} (hrun : validate_registry records = .ok errors) :
    errors.Pairwise (· < ·) ∧ ∀ error, error ∈ errors ↔ Defect records error := by
  simp only [validate_registry, fields_by_id, bind_eq_ok_iff, pure_eq_ok_iff] at hrun
  obtain ⟨relations, hrelations, rfl⟩ := hrun
  refine ⟨sorted_set_strictly_sorted _, fun error => ?_⟩
  obtain ⟨herrors, hgraph⟩ := relations_exact hrelations
  have hnext : relations.graph.get? = next_id records := by
    funext id
    rw [hgraph, get?_by_id, Dict.get?_empty, Option.or_none]
    rfl
  rw [mem_sorted_set, List.mem_append, List.mem_append, herrors, mem_fields_errors, mem_cycle_errors, hnext, get?_by_id,
    List.mem_flatMap]
  simp only [Dict.keys_empty, List.not_mem_nil, if_false, false_or, Nat.zero_add, mem_orphan_errors]
  constructor
  · rintro ((((⟨id, rfl, hcount⟩ | ⟨idx, record, hrecord, hdefect⟩) | ⟨record, hmem, hdefect⟩) |
      ⟨start, id, rfl, hreach, hcycle⟩) | ⟨record, hmem, id, rfl, hstatus, hid, hnone⟩)
    · exact .duplicate_id id hcount
    · exact .field idx record hrecord error hdefect
    · exact .relation record hmem error hdefect
    · exact .cycle start id hreach hcycle
    · exact .orphan record id hmem hstatus hid hnone
  · intro hdefect
    cases hdefect with
    | duplicate_id id hcount => exact Or.inl (Or.inl (Or.inl (Or.inl ⟨id, rfl, hcount⟩)))
    | field idx record hrecord _ hdefect => exact Or.inl (Or.inl (Or.inl (Or.inr ⟨idx, record, hrecord, hdefect⟩)))
    | relation record hmem _ hdefect => exact Or.inl (Or.inl (Or.inr ⟨record, hmem, hdefect⟩))
    | cycle start id hreach hcycle => exact Or.inl (Or.inr ⟨start, id, rfl, hreach, hcycle⟩)
    | orphan record id hmem hstatus hid hnone => exact Or.inr ⟨record, hmem, id, rfl, hstatus, hid, hnone⟩

/-- Two records with one id, the first superseded by nothing and the second with a status
    that there is not. -/
def defective_prices : List (Record Nat) :=
  let starter : Scope := ⟨some "demo", some "starter", some "price"⟩
  [⟨some "PRICE-001", starter, some SUPERSEDED, some "2026-07-01", none, some "2026-08-14", some 100⟩,
    ⟨some "PRICE-001", starter, some "DRAFT", some "2026-08-01", none, some "2026-08-14", some 200⟩]

theorem defective_prices_report :
    (["duplicate decision_id: PRICE-001", "orphan SUPERSEDED: PRICE-001",
      "unknown status at index 1: DRAFT"].map Str.ofString).Pairwise (· < ·) ∧
    ∀ error : Str, error ∈ ["duplicate decision_id: PRICE-001", "orphan SUPERSEDED: PRICE-001",
      "unknown status at index 1: DRAFT"].map Str.ofString ↔ Defect defective_prices error := by
  have hrun : validate_registry defective_prices = .ok (["duplicate decision_id: PRICE-001",
      "orphan SUPERSEDED: PRICE-001", "unknown status at index 1: DRAFT"].map Str.ofString) := by
    decide +kernel
  exact report_exact hrun

end context_router.minimal_resolver
