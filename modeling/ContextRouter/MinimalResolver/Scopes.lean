import ContextRouter.MinimalResolver.Current

open python

namespace context_router.minimal_resolver

variable {α : Type}

theorem wellFormed_nil : WellFormed ([] : List (Record α)) := validates_iff_wellFormed.mp rfl

theorem scope_records_sublist (records : List (Record α)) (scope : Str × Str × Str) :
    (scope_records records scope).Sublist records := List.filter_sublist

/-- Validation of a whole registry carries over to each scope, since predecessors
    and successors stay inside one scope. -/
theorem WellFormed.scope {records : List (Record α)} (hwf : WellFormed records) (scope : Str × Str × Str) :
    WellFormed (scope_records records scope) where
  ids_distinct := hwf.ids_distinct.sublist ((scope_records_sublist records scope).filterMap Record.id?)
  known_status := fun record hmem => hwf.known_status record (mem_scope_records.mp hmem).1
  effective_from_ok := fun record hmem => hwf.effective_from_ok record (mem_scope_records.mp hmem).1
  last_verified_ok := fun record hmem => hwf.last_verified_ok record (mem_scope_records.mp hmem).1
  relation := by
    intro record hmem predecessor_id hlink
    obtain ⟨hrecord, hscope⟩ := mem_scope_records.mp hmem
    obtain ⟨hid, predecessor, hpredecessor, hpredecessorId, hsupports⟩ :=
      hwf.relation record hrecord predecessor_id hlink
    refine ⟨hid, predecessor, ?_, hpredecessorId, hsupports⟩
    exact mem_scope_records.mpr ⟨hpredecessor, hsupports.same_scope.trans hscope⟩
  acyclic := by
    apply hwf.acyclic.mono
    rintro id predecessor_id ⟨record, hmem, hid, hlink⟩
    exact ⟨record, (mem_scope_records.mp hmem).1, hid, hlink⟩
  replaced := by
    intro record hmem hstatus hid
    obtain ⟨hrecord, hscope⟩ := mem_scope_records.mp hmem
    obtain ⟨successor, hsuccessor, hreplaces⟩ := hwf.replaced record hrecord hstatus hid
    exact ⟨successor, mem_scope_records.mpr ⟨hsuccessor, hreplaces.same_scope.trans hscope⟩, hreplaces⟩

/-- Distinct ids and valid scopes make a valid registry: a cycle would have to stay
    inside the one scope that its ids belong to. -/
theorem WellFormed.of_scopes {records : List (Record α)} (hdistinct : (records.filterMap Record.id?).Nodup)
    (hscopes : ∀ scope, WellFormed (scope_records records scope)) : WellFormed records where
  ids_distinct := hdistinct
  known_status := fun record hmem =>
    (hscopes (scope_key record)).known_status record (mem_scope_records.mpr ⟨hmem, rfl⟩)
  effective_from_ok := fun record hmem =>
    (hscopes (scope_key record)).effective_from_ok record (mem_scope_records.mpr ⟨hmem, rfl⟩)
  last_verified_ok := fun record hmem =>
    (hscopes (scope_key record)).last_verified_ok record (mem_scope_records.mpr ⟨hmem, rfl⟩)
  relation := by
    intro record hmem predecessor_id hlink
    obtain ⟨hid, predecessor, hpredecessor, hpredecessorId, hsupports⟩ :=
      (hscopes (scope_key record)).relation record (mem_scope_records.mpr ⟨hmem, rfl⟩) predecessor_id hlink
    exact ⟨hid, predecessor, (mem_scope_records.mp hpredecessor).1, hpredecessorId, hsupports⟩
  acyclic := by
    let Belongs : Str → Str × Str × Str → Prop := fun id scope =>
      ∃ record ∈ records, record.id? = some id ∧ scope_key record = scope
    apply digraph.acyclic_of_labelled (fun scope => Linked (scope_records records scope)) Belongs
    · rintro id predecessor_id ⟨record, hmem, hid, hlink⟩
      have hrecord : record ∈ scope_records records (scope_key record) := mem_scope_records.mpr ⟨hmem, rfl⟩
      obtain ⟨_, predecessor, hpredecessor, hpredecessorId, _⟩ :=
        (hscopes (scope_key record)).relation record hrecord predecessor_id hlink
      obtain ⟨hpredecessorMem, hpredecessorScope⟩ := mem_scope_records.mp hpredecessor
      exact ⟨scope_key record, ⟨record, hmem, hid, rfl⟩,
        ⟨predecessor, hpredecessorMem, hpredecessorId, hpredecessorScope⟩, record, hrecord, hid, hlink⟩
    · rintro id left right ⟨record, hmem, hid, rfl⟩ ⟨other, hother, hotherId, rfl⟩
      rw [WellFormed.eq_of_id hdistinct hmem hother hid hotherId]
    · exact fun scope => (hscopes scope).acyclic
  replaced := by
    intro record hmem hstatus hid
    obtain ⟨successor, hsuccessor, hreplaces⟩ :=
      (hscopes (scope_key record)).replaced record (mem_scope_records.mpr ⟨hmem, rfl⟩) hstatus hid
    exact ⟨successor, (mem_scope_records.mp hsuccessor).1, hreplaces⟩

/-- A record of another scope is invisible to a scope. -/
theorem scope_records_insert_foreign (before after : List (Record α)) {foreign : Record α} {scope : Str × Str × Str}
    (hforeign : scope_key foreign ≠ scope) :
    scope_records (before ++ foreign :: after) scope = scope_records (before ++ after) scope := by
  simp [scope_records, hforeign]

/-- The offline check of a whole registry and the runtime check of one scope agree:
    the first passes exactly when ids are distinct throughout and the second passes
    for every scope. No scope of a registry that passes resolves to DATA_ERROR, and a
    record of another scope changes neither check nor result. -/
theorem offline_iff_runtime_validation (records : List (Record α)) :
    (validate_registry records = .ok [] ↔
      (records.filterMap Record.id?).Nodup ∧
        ∀ scope ∈ records.map scope_key, validate_registry (scope_records records scope) = .ok []) ∧
    (validate_registry records = .ok [] →
      ∀ domain subject field as_of as_of_date verify_after_days, parse_date (some as_of) = .ok (some as_of_date) →
        ∃ result, resolve_current records domain subject field as_of verify_after_days = .ok result ∧
          result.state ≠ Str.ofString "DATA_ERROR") ∧
    (∀ before after foreign, records = before ++ after →
      ∀ domain subject field, scope_key foreign ≠ (domain, subject, field) →
        validate_registry (scope_records (before ++ foreign :: after) (domain, subject, field)) =
            validate_registry (scope_records records (domain, subject, field)) ∧
          ∀ as_of verify_after_days,
            resolve_current (before ++ foreign :: after) domain subject field as_of verify_after_days =
              resolve_current records domain subject field as_of verify_after_days) := by
  refine ⟨?_, ?_, ?_⟩
  · simp only [validates_iff_wellFormed]
    constructor
    · intro hwf
      exact ⟨hwf.ids_distinct, fun scope _ => hwf.scope scope⟩
    · rintro ⟨hdistinct, hscopes⟩
      apply WellFormed.of_scopes hdistinct
      intro scope
      by_cases hoccurs : scope ∈ records.map scope_key
      · exact hscopes scope hoccurs
      · have hempty : scope_records records scope = [] := by
          rw [scope_records, List.filter_eq_nil_iff]
          intro record hmem hscope
          exact hoccurs (List.mem_map.mpr ⟨record, hmem, by simpa using hscope⟩)
        rw [hempty]
        exact wellFormed_nil
  · intro hvalid domain subject field as_of as_of_date verify_after_days hdate
    have hwf := (validates_iff_wellFormed.mp hvalid).scope (domain, subject, field)
    obtain ⟨result, hrun⟩ := resolve_current_returns hdate (validates_iff_wellFormed.mpr hwf) verify_after_days
    exact ⟨result, hrun, fun hstate => (data_error_iff_not_wellFormed hrun).mp hstate hwf⟩
  · rintro before after foreign rfl domain subject field hforeign
    have hsame := scope_records_insert_foreign before after hforeign
    refine ⟨by rw [hsame], fun as_of verify_after_days => ?_⟩
    simp only [resolve_current, hsame]

theorem sample_decisions_offline_valid :
    ∀ scope ∈ sample_decisions.map scope_key, validate_registry (scope_records sample_decisions scope) = .ok [] := by
  have hoffline : validate_registry sample_decisions = .ok [] := by decide +kernel
  exact ((offline_iff_runtime_validation sample_decisions).1.mp hoffline).2

end context_router.minimal_resolver
