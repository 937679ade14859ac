import ContextRouter.MinimalResolver.Current

open python

namespace context_router.minimal_resolver

variable {α : Type}

/-- The states that a result can carry. -/
def resolution_states : List Str := ["RESOLVED", "UNKNOWN", "CONFLICT", "VERIFY", "DATA_ERROR"]

theorem state_mem_resolution_states (result : Resolution α) : result.state ∈ resolution_states := by
  cases result <;> simp [Resolution.state, resolution_states]

/-- What the validator raises escapes from the resolver. -/
theorem resolve_current_raises {records : List (Record α)} {domain subject field : Str} {raised : Raised}
    (hvalidate : validate_registry (scope_records records (domain, subject, field)) = .error raised)
    (as_of : Str) (verify_after_days : Int) :
    resolve_current records domain subject field as_of verify_after_days = .error raised := by
  have hempty : scope_records records (domain, subject, field) ≠ [] := by
    intro hempty
    rw [hempty] at hvalidate
    cases hvalidate
  simp only [resolve_current, if_neg hempty, hvalidate, error_bind]

/-- The resolver returns, and reports every malformed date of the scope, exactly when
    no malformed `effective_from` takes part in a resolved relation: the guarded parse
    of the field loop records the error, but the relation loop parses again without a
    guard. -/
theorem fails_closed_iff (records : List (Record α)) (domain subject field as_of : Str) {as_of_date : Date}
    (hdate : parse_date as_of = .ok (some as_of_date)) (verify_after_days : Int) :
    ((∃ result, resolve_current records domain subject field as_of verify_after_days = .ok result ∧
        result.state ∈ resolution_states) ∧
      ∀ record ∈ records, scope_key record = (domain, subject, field) →
        ¬ (DateOk record.effective_from ∧ DateOk record.last_verified) →
          ∃ errors, resolve_current records domain subject field as_of verify_after_days = .ok (.DATA_ERROR errors)) ↔
    ∀ record ∈ scope_records records (domain, subject, field),
      LinkDatesOk (scope_records records (domain, subject, field)) record := by
  constructor
  · rintro ⟨⟨result, hrun, _⟩, _⟩ record hmem
    by_contra hbad
    rw [resolve_current_raises (validate_registry_raises hmem hbad)] at hrun
    cases hrun
  · intro hdates
    obtain ⟨errors, hvalidate⟩ := validate_registry_returns hdates
    obtain ⟨result, hrun⟩ := resolve_current_returns hdate hvalidate verify_after_days
    refine ⟨⟨result, hrun, state_mem_resolution_states result⟩, ?_⟩
    intro record hmem hscope hbad
    have hrecord : record ∈ scope_records records (domain, subject, field) := mem_scope_records.mpr ⟨hmem, hscope⟩
    have hwf : ¬ WellFormed (scope_records records (domain, subject, field)) := by
      intro hwf
      exact hbad ⟨hwf.effective_from_ok record hrecord, hwf.last_verified_ok record hrecord⟩
    exact ⟨errors, resolve_current_of_errors hvalidate hwf as_of verify_after_days⟩

/-- A superseded decision whose date was written with slashes. -/
def slashed_decisions : List (Record Nat) :=
  let starter : Scope := ⟨some "demo", some "starter", some "price"⟩
  [⟨some "PRICE-001", starter, some SUPERSEDED, some "2026/07/01", none, some "2026-07-15", some 100⟩,
    ⟨some "PRICE-002", starter, some ACTIVE, some "2026-08-01", some "PRICE-001", some "2026-08-28", some 200⟩]

theorem slashed_decisions_raise :
    ¬ ∃ result, resolve_current slashed_decisions "demo" "starter" "price" "2026-08-28" 30 = .ok result := by
  have hrun : resolve_current slashed_decisions "demo" "starter" "price" "2026-08-28" 30 = .error .ValueError := by
    decide +kernel
  rw [hrun]
  rintro ⟨result, hresult⟩
  cases hresult

/-- Without the relation the same malformed date is reported. -/
theorem unlinked_slashed_decision_reported :
    ∃ errors, resolve_current (slashed_decisions.take 1) "demo" "starter" "price" "2026-08-28" 30 =
      .ok (.DATA_ERROR errors) := by
  have hdate : parse_date (Str.ofString "2026-08-28") = .ok (some ⟨2026, 8, 28, by decide⟩) := by decide +kernel
  have hclosed := (fails_closed_iff (slashed_decisions.take 1) "demo" "starter" "price" "2026-08-28" hdate 30).mpr
    (by
      intro record hmem predecessor_id id predecessor hlink
      have hnone : ∀ record ∈ scope_records (slashed_decisions.take 1) ("demo", "starter", "price"),
          record.link? = none := by decide +kernel
      rw [hnone record hmem] at hlink
      cases hlink)
  apply hclosed.2 (slashed_decisions.head (by decide))
  · decide +kernel
  · decide +kernel
  · decide +kernel

end context_router.minimal_resolver
