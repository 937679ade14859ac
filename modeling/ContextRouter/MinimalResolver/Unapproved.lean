import ContextRouter.MinimalResolver.Scopes
import ContextRouter.WritebackGate

open python

namespace context_router.minimal_resolver

variable {α : Type}

/-- The statuses of a record that nobody has approved. -/
def unapproved_statuses : List Str := [PROPOSED, HYPOTHESIS, ARCHIVED]

theorem not_authoritative_of_unapproved {record : Record α} (hstatus : record.StatusIn unapproved_statuses) :
    ¬ record.StatusIn AUTHORITATIVE := by
  rintro ⟨status, hmem, hauthoritative⟩
  obtain ⟨actual, hactual, hunapproved⟩ := hstatus
  rw [hauthoritative, Option.some.injEq] at hunapproved
  subst actual
  have hdisjoint : ∀ status ∈ AUTHORITATIVE, status ∉ unapproved_statuses := by decide
  exact hdisjoint status hmem hactual

/-- Removing records that are not authoritative keeps a registry well formed: no
    check accepts such a record as a predecessor or as a successor. -/
theorem WellFormed.remove_unauthoritative {records kept : List (Record α)} (hwf : WellFormed records)
    (hsub : kept.Sublist records) (hkept : ∀ record ∈ records, record.StatusIn AUTHORITATIVE → record ∈ kept) :
    WellFormed kept where
  ids_distinct := hwf.ids_distinct.sublist (hsub.filterMap Record.id?)
  known_status := fun record hmem => hwf.known_status record (hsub.subset hmem)
  effective_from_ok := fun record hmem => hwf.effective_from_ok record (hsub.subset hmem)
  last_verified_ok := fun record hmem => hwf.last_verified_ok record (hsub.subset hmem)
  relation := by
    intro record hmem predecessor_id hlink
    obtain ⟨hid, predecessor, hpredecessor, hpredecessorId, hsupports⟩ :=
      hwf.relation record (hsub.subset hmem) predecessor_id hlink
    exact ⟨hid, predecessor, hkept predecessor hpredecessor hsupports.authoritative, hpredecessorId, hsupports⟩
  acyclic := by
    apply hwf.acyclic.mono
    rintro id predecessor_id ⟨record, hmem, hid, hlink⟩
    exact ⟨record, hsub.subset hmem, hid, hlink⟩
  replaced := by
    intro record hmem hstatus hid
    obtain ⟨successor, hsuccessor, hreplaces⟩ := hwf.replaced record (hsub.subset hmem) hstatus hid
    exact ⟨successor, hkept successor hsuccessor hreplaces.authoritative, hreplaces⟩

theorem heads_scope_insert {as_of_date : Date} (before after : List (Record α)) {record : Record α}
    (hlive : ¬ Live as_of_date record) (scope : Str × Str × Str) :
    heads as_of_date (scope_records (before ++ record :: after) scope) =
      heads as_of_date (scope_records (before ++ after) scope) := by
  have hsame : live as_of_date (scope_records (before ++ record :: after) scope) =
      live as_of_date (scope_records (before ++ after) scope) := by
    simp [live, scope_records, hlive]
  rw [heads, hsame]
  rfl

/-- An unapproved record never becomes, chooses or repairs the current decision:
    inserting it leaves the answer as it was or makes the scope invalid, and never
    makes an invalid scope valid. PROPOSED is the one status at which the writeback
    gate lets an AI proposal through. -/
theorem unapproved_never_decides (before after : List (Record α)) {unapproved : Record α}
    (hstatus : unapproved.StatusIn unapproved_statuses)
    (hdates : ∀ record ∈ before ++ unapproved :: after, DateOk record.effective_from ∧ DateOk record.last_verified)
    (domain subject field as_of : Str) (verify_after_days : Int) :
    (∀ enlarged,
      resolve_current (before ++ unapproved :: after) domain subject field as_of verify_after_days = .ok enlarged →
      enlarged.state = Str.ofString "DATA_ERROR" ∨ ∃ without,
        resolve_current (before ++ after) domain subject field as_of verify_after_days = .ok without ∧
          enlarged.answer = without.answer) ∧
    (∀ without, resolve_current (before ++ after) domain subject field as_of verify_after_days = .ok without →
      without.state = Str.ofString "DATA_ERROR" → ∃ enlarged,
        resolve_current (before ++ unapproved :: after) domain subject field as_of verify_after_days = .ok enlarged ∧
          enlarged.state = Str.ofString "DATA_ERROR") ∧
    (∀ as_of_date, parse_date as_of = .ok (some as_of_date) → ∃ enlarged without,
      resolve_current (before ++ unapproved :: after) domain subject field as_of verify_after_days = .ok enlarged ∧
        resolve_current (before ++ after) domain subject field as_of verify_after_days = .ok without) ∧
    ∀ request : writeback_gate.WritebackGateRequest, request.origin = .str "AI_PROPOSAL" →
      (writeback_gate.evaluate (.inl request)).state ≠ Str.ofString "REVIEW_REQUIRED" →
        request.requested_status = .str PROPOSED := by
  have hsub : (before ++ after).Sublist (before ++ unapproved :: after) :=
    (List.Sublist.refl before).append (List.sublist_cons_self unapproved after)
  have hscope := hsub.filter fun record => scope_key record = (domain, subject, field)
  have hkept : ∀ record ∈ scope_records (before ++ unapproved :: after) (domain, subject, field),
      record.StatusIn AUTHORITATIVE → record ∈ scope_records (before ++ after) (domain, subject, field) := by
    intro record hmem hauthoritative
    have hne : record ≠ unapproved := by
      rintro rfl
      exact not_authoritative_of_unapproved hstatus hauthoritative
    simpa [hne] using hmem
  have hdatesWithout : ∀ record ∈ before ++ after, DateOk record.effective_from ∧ DateOk record.last_verified :=
    fun record hmem => hdates record (hsub.subset hmem)
  refine ⟨?_, ?_, ?_, fun request horigin hpassed => writeback_gate.ai_proposal_status horigin hpassed⟩
  · intro enlarged hrun
    obtain ⟨hempty, rfl⟩ | ⟨hnot, errors, rfl⟩ | ⟨hwf, as_of_date, hdate, hclassify⟩ := resolve_current_cases hrun
    · have hempty' : scope_records (before ++ after) (domain, subject, field) = [] :=
        List.eq_nil_of_subset_nil (hempty ▸ hscope.subset)
      exact Or.inr ⟨_, by rw [resolve_current, if_pos hempty']; rfl, rfl⟩
    · exact Or.inl rfl
    · have hwf' := hwf.remove_unauthoritative hscope hkept
      obtain ⟨without, expected, hrun', hclassify', hanswer⟩ := resolve_current_answer hdate verify_after_days hwf'
      have hlive : ¬ Live as_of_date unapproved := fun hlive =>
        not_authoritative_of_unapproved hstatus hlive.authoritative
      rw [heads_scope_insert before after hlive, hclassify', Except.ok.injEq] at hclassify
      subst hclassify
      exact Or.inr ⟨without, hrun', hanswer.symm⟩
  · intro without hrun hstate
    have hnot := (data_error_iff_not_wellFormed hrun).mp hstate
    have hnot' : ¬ WellFormed (scope_records (before ++ unapproved :: after) (domain, subject, field)) :=
      fun hwf => hnot (hwf.remove_unauthoritative hscope hkept)
    have hscopeDates : ∀ record ∈ scope_records (before ++ unapproved :: after) (domain, subject, field),
        DateOk record.effective_from := fun record hmem => (hdates record (mem_scope_records.mp hmem).1).1
    obtain ⟨errors, hvalidate⟩ := validate_registry_returns_of_dates hscopeDates
    exact ⟨_, resolve_current_of_errors hvalidate hnot' as_of verify_after_days, rfl⟩
  · intro as_of_date hdate
    obtain ⟨enlarged, hrun'⟩ := resolve_current_returns_of_dates hdates hdate domain subject field verify_after_days
    obtain ⟨without, hrun⟩ :=
      resolve_current_returns_of_dates hdatesWithout hdate domain subject field verify_after_days
    exact ⟨enlarged, without, hrun', hrun⟩

/-- A proposal of another price that claims to supersede the current one. -/
def proposed_price : Record Nat :=
  ⟨some "PRICE-003", some ⟨some "demo", some "starter", some "price"⟩, some PROPOSED, some "2026-08-10",
    some "PRICE-002", some "2026-08-28", some 300⟩

theorem proposed_price_not_current :
    ∃ selected ∈ sample_decisions, ∃ without,
      resolve_current sample_decisions "demo" "starter" "price" "2026-08-28" 30 = .ok without ∧
        (Resolution.RESOLVED selected).answer = without.answer := by
  have hunapproved : proposed_price.StatusIn unapproved_statuses := by decide +kernel
  obtain ⟨hdecides, _⟩ := unapproved_never_decides [] sample_decisions hunapproved (by decide +kernel)
    "demo" "starter" "price" "2026-08-28" 30
  have hrun : ∃ selected ∈ sample_decisions,
      resolve_current (proposed_price :: sample_decisions) "demo" "starter" "price" "2026-08-28" 30 =
        .ok (.RESOLVED selected) := by
    decide +kernel
  obtain ⟨selected, hmem, hrun⟩ := hrun
  exact ⟨selected, hmem, (hdecides (.RESOLVED selected) hrun).resolve_left (by simp [Resolution.state]; decide)⟩

end context_router.minimal_resolver
