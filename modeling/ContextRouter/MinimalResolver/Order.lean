import ContextRouter.MinimalResolver.Current

open python

namespace context_router.minimal_resolver

variable {α : Type}

theorem scope_records_perm {records permuted : List (Record α)} (hperm : records.Perm permuted)
    (scope : Str × Str × Str) : (scope_records records scope).Perm (scope_records permuted scope) :=
  hperm.filter _

/-- Inserting a record of the scope at any position adds it to the scope. -/
theorem scope_records_insert (before after : List (Record α)) {record : Record α} {scope : Str × Str × Str}
    (hscope : scope_key record = scope) :
    (scope_records (before ++ record :: after) scope).Perm (record :: scope_records (before ++ after) scope) := by
  have hfront :
      scope_records (record :: (before ++ after)) scope = record :: scope_records (before ++ after) scope := by
    simp [scope_records, hscope]
  rw [← hfront]
  exact scope_records_perm List.perm_middle scope

/-- Whether a registry is well formed does not depend on the order of its records,
    although the loops of the validator walk it in order. -/
theorem WellFormed.perm {records permuted : List (Record α)} (hwf : WellFormed records)
    (hperm : records.Perm permuted) : WellFormed permuted where
  ids_distinct := (hperm.filterMap Record.id?).nodup_iff.mp hwf.ids_distinct
  known_status := fun record hmem => hwf.known_status record (hperm.mem_iff.mpr hmem)
  effective_from_ok := fun record hmem => hwf.effective_from_ok record (hperm.mem_iff.mpr hmem)
  last_verified_ok := fun record hmem => hwf.last_verified_ok record (hperm.mem_iff.mpr hmem)
  relation := by
    intro record hmem predecessor_id hlink
    obtain ⟨hid, predecessor, hpredecessor, hpredecessorId, hsupports⟩ :=
      hwf.relation record (hperm.mem_iff.mpr hmem) predecessor_id hlink
    exact ⟨hid, predecessor, hperm.mem_iff.mp hpredecessor, hpredecessorId, hsupports⟩
  acyclic := by
    apply hwf.acyclic.mono
    rintro id predecessor_id ⟨record, hmem, hid, hlink⟩
    exact ⟨record, hperm.mem_iff.mpr hmem, hid, hlink⟩
  replaced := by
    intro record hmem hstatus hid
    obtain ⟨successor, hsuccessor, hreplaces⟩ := hwf.replaced record (hperm.mem_iff.mpr hmem) hstatus hid
    exact ⟨successor, hperm.mem_iff.mp hsuccessor, hreplaces⟩

theorem heads_perm {records permuted : List (Record α)} (hperm : records.Perm permuted) (as_of_date : Date) :
    (heads as_of_date records).Perm (heads as_of_date permuted) :=
  digraph.heads_perm (hperm.filter _)

/-- Two results that tell a caller the same, up to the order of conflicting ids. -/
structure SameAnswer (left right : Resolution α) : Prop where
  state : left.state = right.state
  record : left.record? = right.record?
  age_days : left.age_days? = right.age_days?
  decision_ids : left.decision_ids.Perm right.decision_ids

theorem SameAnswer.of_answer_eq {left right : Resolution α} (hanswer : left.answer = right.answer) :
    SameAnswer left right := by
  simp only [Resolution.answer, Prod.mk.injEq] at hanswer
  obtain ⟨hstate, hrecord, hage, hids⟩ := hanswer
  exact ⟨hstate, hrecord, hage, hids ▸ .refl _⟩

theorem SameAnswer.trans {left middle right : Resolution α} (hleft : SameAnswer left middle)
    (hright : SameAnswer middle right) : SameAnswer left right where
  state := hleft.state.trans hright.state
  record := hleft.record.trans hright.record
  age_days := hleft.age_days.trans hright.age_days
  decision_ids := hleft.decision_ids.trans hright.decision_ids

/-- The unique survivor rule looks at the number of survivors, not at their order. -/
theorem classify_perm {as_of_date : Date} {verify_after_days : Int} {several permuted : List (Record α)}
    {left right : Resolution α} (hperm : several.Perm permuted)
    (hleft : classify as_of_date verify_after_days several = .ok left)
    (hright : classify as_of_date verify_after_days permuted = .ok right) : SameAnswer left right := by
  obtain ⟨rfl, rfl⟩ | ⟨selected, rfl, hfresh⟩ | ⟨hlength, rfl⟩ := classify_cases hleft
  · rw [hperm.nil_eq] at hleft
    rw [hleft, Except.ok.injEq] at hright
    exact .of_answer_eq (congrArg Resolution.answer hright)
  · rw [hperm.singleton_eq] at hleft
    rw [hleft, Except.ok.injEq] at hright
    exact .of_answer_eq (congrArg Resolution.answer hright)
  · obtain ⟨rfl, _⟩ | ⟨selected, rfl, _⟩ | ⟨_, rfl⟩ := classify_cases hright
    · rw [hperm.length_eq] at hlength
      cases hlength
    · rw [hperm.length_eq] at hlength
      simp at hlength
    · exact ⟨rfl, rfl, rfl, hperm.map _⟩

/-- Listing the records in another order changes nothing but the order of
    conflicting ids. -/
theorem record_order_irrelevant {records permuted : List (Record α)} (hperm : records.Perm permuted)
    (hdates : ∀ record ∈ records, DateOk record.effective_from ∧ DateOk record.last_verified)
    (domain subject field as_of : Str) {as_of_date : Date} (hdate : parse_date as_of = .ok (some as_of_date))
    (verify_after_days : Int) :
    ∃ left right, resolve_current records domain subject field as_of verify_after_days = .ok left ∧
      resolve_current permuted domain subject field as_of verify_after_days = .ok right ∧
      left.state = right.state ∧ left.record? = right.record? ∧ left.age_days? = right.age_days? ∧
      left.decision_ids.Perm right.decision_ids := by
  have hscope := scope_records_perm hperm (domain, subject, field)
  have hdates' : ∀ record ∈ permuted, DateOk record.effective_from ∧ DateOk record.last_verified :=
    fun record hmem => hdates record (hperm.mem_iff.mpr hmem)
  obtain ⟨left, hleft⟩ := resolve_current_returns_of_dates hdates hdate domain subject field verify_after_days
  obtain ⟨right, hright⟩ := resolve_current_returns_of_dates hdates' hdate domain subject field verify_after_days
  have hsame : SameAnswer left right := by
    by_cases hwf : WellFormed (scope_records records (domain, subject, field))
    · obtain ⟨_, expected, hrun, hclassify, hanswer⟩ := resolve_current_answer hdate verify_after_days hwf
      rw [hleft, Except.ok.injEq] at hrun
      subst hrun
      obtain ⟨_, expected', hrun, hclassify', hanswer'⟩ :=
        resolve_current_answer hdate verify_after_days (hwf.perm hscope)
      rw [hright, Except.ok.injEq] at hrun
      subst hrun
      have hexpected := classify_perm (heads_perm hscope as_of_date) hclassify hclassify'
      exact (SameAnswer.of_answer_eq hanswer).trans (hexpected.trans (.of_answer_eq hanswer'.symm))
    · have hwf' : ¬ WellFormed (scope_records permuted (domain, subject, field)) := fun h => hwf (h.perm hscope.symm)
      obtain ⟨errors, rfl⟩ := state_eq_data_error_iff.mp ((data_error_iff_not_wellFormed hleft).mpr hwf)
      obtain ⟨errors', rfl⟩ := state_eq_data_error_iff.mp ((data_error_iff_not_wellFormed hright).mpr hwf')
      exact .of_answer_eq rfl
  exact ⟨left, right, hleft, hright, hsame.state, hsame.record, hsame.age_days, hsame.decision_ids⟩

theorem sample_decisions_reversed :
    ∃ left right, resolve_current sample_decisions "demo" "starter" "price" "2026-08-28" 30 = .ok left ∧
      resolve_current sample_decisions.reverse "demo" "starter" "price" "2026-08-28" 30 = .ok right ∧
      left.state = right.state ∧ left.record? = right.record? ∧ left.age_days? = right.age_days? ∧
      left.decision_ids.Perm right.decision_ids := by
  have hdate : parse_date (Str.ofString "2026-08-28") = .ok (some ⟨2026, 8, 28, by decide⟩) := by decide +kernel
  exact record_order_irrelevant (List.reverse_perm sample_decisions).symm (by decide +kernel) "demo" "starter" "price"
    "2026-08-28" hdate 30

end context_router.minimal_resolver
