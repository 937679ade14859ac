import ContextRouter.MinimalResolver.Passes

open python

namespace context_router.minimal_resolver

variable {α : Type}

private theorem get?_ids (records : List (Record α)) (id : Str) :
    (records.foldl add_id .empty).get? id = last_with_id records id := by
  rw [get?_foldl_add_id, Dict.get?_empty, Option.or_none]

/-- The dates that the relation loop parses for a record can be read: the record's
    own and that of the last record carrying the id that it supersedes. -/
def LinkDatesOk (records : List (Record α)) (record : Record α) : Prop :=
  ∀ predecessor_id id predecessor, record.link? = some predecessor_id → record.id? = some id →
    last_with_id records predecessor_id = some predecessor →
      DateOk predecessor.effective_from ∧ DateOk record.effective_from

private theorem relationDatesOk_iff {records : List (Record α)} {record : Record α} :
    RelationDatesOk (records.foldl add_id .empty) record ↔ LinkDatesOk records record := by
  simp only [RelationDatesOk, LinkDatesOk, get?_ids]

private theorem validate_registry_eq (records : List (Record α)) :
    validate_registry records = do
      let relations ← records.foldlM (check_relation (records.foldl add_id .empty))
        ⟨.empty, (records.zipIdx.foldl check_fields ⟨.empty, []⟩).errors⟩
      return sorted_set (relations.errors ++ cycle_errors relations.graph ++
        records.flatMap (orphan_errors (records.foldl add_successor .empty))) := by
  simp only [validate_registry, fields_by_id]

/-- The validator returns exactly when no resolved relation involves a malformed
    date; otherwise it raises `ValueError`. -/
theorem validate_registry_returns {records : List (Record α)} (hdates : ∀ record ∈ records, LinkDatesOk records record) :
    ∃ errors, validate_registry records = .ok errors := by
  have hrelationDates : ∀ record ∈ records, RelationDatesOk (records.foldl add_id .empty) record := by
    intro record hmem
    exact relationDatesOk_iff.mpr (hdates record hmem)
  obtain ⟨relations, hrelations⟩ := relations_total hrelationDates
    ⟨.empty, (records.zipIdx.foldl check_fields ⟨.empty, []⟩).errors⟩
  rw [validate_registry_eq, hrelations]
  exact ⟨_, rfl⟩

theorem validate_registry_raises {records : List (Record α)} {record : Record α} (hmem : record ∈ records)
    (hbad : ¬ LinkDatesOk records record) : validate_registry records = .error .ValueError := by
  rw [validate_registry_eq, relations_raise hmem (fun hok => hbad (relationDatesOk_iff.mp hok))]
  rfl

/-- Readable dates leave nothing for the validator to raise. -/
theorem validate_registry_returns_of_dates {records : List (Record α)}
    (hdates : ∀ record ∈ records, DateOk record.effective_from) : ∃ errors, validate_registry records = .ok errors := by
  apply validate_registry_returns
  intro record hmem predecessor_id id predecessor _ _ hlast
  exact ⟨hdates predecessor (last_with_id_spec hlast).1, hdates record hmem⟩

private theorem relations_ok_iff {records : List (Record α)} (hdistinct : (records.filterMap Record.id?).Nodup) :
    (∀ record ∈ records, RelationOk (records.foldl add_id .empty) record) ↔
      ∀ record ∈ records, ∀ predecessor_id, record.link? = some predecessor_id →
        (∃ id, record.id? = some id) ∧
          ∃ predecessor ∈ records, predecessor.id? = some predecessor_id ∧ Supports predecessor record := by
  simp only [RelationOk, get?_ids, last_with_id_eq_some_iff hdistinct, and_assoc]

private theorem edge_iff_linked {records : List (Record α)} (hdistinct : (records.filterMap Record.id?).Nodup) :
    digraph.Edge (records.foldl add_link .empty).get? = Linked records := by
  funext id predecessor_id
  simp [digraph.Edge, get?_foldl_add_link hdistinct]

/-- The report of a validator run that returns is empty exactly when the registry is
    well formed. -/
theorem errors_eq_nil_iff {records : List (Record α)} {errors : List Str}
    (hrun : validate_registry records = .ok errors) : errors = [] ↔ WellFormed records := by
  rw [validate_registry_eq, bind_eq_ok_iff] at hrun
  obtain ⟨relations, hrelations, hrun⟩ := hrun
  rw [pure_eq_ok_iff] at hrun
  obtain ⟨herrors, hgraph⟩ := relations_spec hrelations
  rw [← hrun, sorted_set_eq_nil, List.append_eq_nil_iff, List.append_eq_nil_iff, herrors,
    fields_errors_eq_nil_iff, cycle_errors_eq_nil_iff, List.flatMap_eq_nil_iff]
  simp only [orphan_errors_eq_nil_iff, Dict.keys_empty, List.not_mem_nil, not_false_iff, implies_true, true_and]
  constructor
  · rintro ⟨⟨⟨⟨hdistinct, hfields⟩, hok⟩, hacyclic⟩, horphans⟩
    rw [hgraph hok, edge_iff_linked hdistinct] at hacyclic
    exact {
      ids_distinct := hdistinct
      known_status := fun record hmem => (hfields record hmem).known_status
      effective_from_ok := fun record hmem => (hfields record hmem).effective_from_ok
      last_verified_ok := fun record hmem => (hfields record hmem).last_verified_ok
      relation := (relations_ok_iff hdistinct).mp hok
      acyclic := hacyclic
      replaced := horphans }
  · intro hwf
    have hok := (relations_ok_iff hwf.ids_distinct).mpr hwf.relation
    rw [hgraph hok, edge_iff_linked hwf.ids_distinct]
    have hfields : ∀ record ∈ records, FieldsOk record := fun record hmem =>
      ⟨hwf.known_status record hmem, hwf.effective_from_ok record hmem, hwf.last_verified_ok record hmem⟩
    exact ⟨⟨⟨⟨hwf.ids_distinct, hfields⟩, hok⟩, hwf.acyclic⟩, hwf.replaced⟩

/-- The validator accepts exactly the well-formed registries. -/
theorem validates_iff_wellFormed {records : List (Record α)} :
    validate_registry records = .ok [] ↔ WellFormed records := by
  constructor
  · intro hrun
    exact (errors_eq_nil_iff hrun).mp rfl
  · intro hwf
    obtain ⟨errors, hrun⟩ := validate_registry_returns_of_dates hwf.effective_from_ok
    rw [hrun, (errors_eq_nil_iff hrun).mpr hwf]

/-- What an empty report says about the records, condition by condition. Neither
    duplicate ids nor skipped relations hide a defect from a later loop. -/
theorem validate_registry_empty_iff {records : List (Record α)} {errors : List Str}
    (hrun : validate_registry records = .ok errors) :
    errors = [] ↔
      (records.filterMap Record.id?).Nodup ∧
      (∀ record ∈ records, record.StatusIn known_statuses) ∧
      (∀ record ∈ records, DateOk record.effective_from ∧ DateOk record.last_verified) ∧
      (∀ record ∈ records, ∀ predecessor_id, record.link? = some predecessor_id →
        (∃ id, record.id? = some id) ∧ ∃ predecessor ∈ records, predecessor.id? = some predecessor_id ∧
          predecessor.StatusIn AUTHORITATIVE ∧ scope_key predecessor = scope_key record ∧
          InOrder predecessor record) ∧
      (∀ id, ¬ Relation.TransGen (Linked records) id id) ∧
      ∀ record ∈ records, record.status = some SUPERSEDED → (∃ id, record.id? = some id) →
        ∃ successor ∈ records, successor.StatusIn AUTHORITATIVE ∧ scope_key successor = scope_key record ∧
          Succeeds successor record := by
  rw [errors_eq_nil_iff hrun]
  constructor
  · intro hwf
    refine ⟨hwf.ids_distinct, hwf.known_status, ?_, ?_, hwf.acyclic, ?_⟩
    · intro record hmem
      exact ⟨hwf.effective_from_ok record hmem, hwf.last_verified_ok record hmem⟩
    · intro record hmem predecessor_id hlink
      obtain ⟨hid, predecessor, hpredecessor, hpredecessorId, hsupports⟩ :=
        hwf.relation record hmem predecessor_id hlink
      exact ⟨hid, predecessor, hpredecessor, hpredecessorId, hsupports.authoritative, hsupports.same_scope,
        hsupports.in_order⟩
    · intro record hmem hstatus hid
      obtain ⟨successor, hsuccessor, hreplaces⟩ := hwf.replaced record hmem hstatus hid
      exact ⟨successor, hsuccessor, hreplaces.authoritative, hreplaces.same_scope, hreplaces.succeeds⟩
  · rintro ⟨hdistinct, hstatus, hdates, hrelation, hacyclic, hreplaced⟩
    refine ⟨hdistinct, hstatus, fun record hmem => (hdates record hmem).1, fun record hmem => (hdates record hmem).2,
      ?_, hacyclic, ?_⟩
    · intro record hmem predecessor_id hlink
      obtain ⟨hid, predecessor, hpredecessor, hpredecessorId, hstatus, hscope, horder⟩ :=
        hrelation record hmem predecessor_id hlink
      exact ⟨hid, predecessor, hpredecessor, hpredecessorId, hstatus, hscope, horder⟩
    · intro record hmem hstatus hid
      obtain ⟨successor, hsuccessor, hauthoritative, hscope, hsucceeds⟩ := hreplaced record hmem hstatus hid
      exact ⟨successor, hsuccessor, hauthoritative, hscope, hsucceeds⟩

theorem sample_decisions_accepted :
    validate_registry sample_decisions = .ok [] ∧ (sample_decisions.filterMap Record.id?).Nodup ∧
      ∀ id, ¬ Relation.TransGen (Linked sample_decisions) id id := by
  have hrun : validate_registry sample_decisions = .ok [] := by decide +kernel
  obtain ⟨hdistinct, _, _, _, hacyclic, _⟩ := (validate_registry_empty_iff hrun).mp rfl
  exact ⟨hrun, hdistinct, hacyclic⟩

end context_router.minimal_resolver
