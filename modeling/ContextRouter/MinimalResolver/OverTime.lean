import ContextRouter.MinimalResolver.Current

open python

namespace context_router.minimal_resolver

variable {α : Type}

/-- Two results that differ at most in how fresh the record is that both select; the
    first is at least as fresh as the second. -/
structure AtLeastAsFresh (fresher staler : Resolution α) : Prop where
  record : fresher.record? = staler.record?
  decision_ids : fresher.decision_ids = staler.decision_ids
  state : fresher.record? = none → fresher.state = staler.state
  resolved : staler.state = Str.ofString "RESOLVED" → fresher.state = Str.ofString "RESOLVED"

theorem AtLeastAsFresh.refl (result : Resolution α) : AtLeastAsFresh result result :=
  ⟨rfl, rfl, fun _ => rfl, id⟩

/-- The states that come without a selected record. -/
def unselected_states : List Str := ["UNKNOWN", "CONFLICT", "DATA_ERROR"]

theorem record?_eq_none_iff {result : Resolution α} : result.record? = none ↔ result.state ∈ unselected_states := by
  have hverify : Str.ofString "VERIFY" ∉ unselected_states := by decide
  have hresolved : Str.ofString "RESOLVED" ∉ unselected_states := by decide
  cases result with
  | UNKNOWN reason => simp [Resolution.record?, Resolution.state, unselected_states]
  | DATA_ERROR errors => simp [Resolution.record?, Resolution.state, unselected_states]
  | CONFLICT reason decision_ids => simp [Resolution.record?, Resolution.state, unselected_states]
  | VERIFY reason age_days record => simpa [Resolution.record?, Resolution.state] using hverify
  | RESOLVED record => simpa [Resolution.record?, Resolution.state] using hresolved

theorem AtLeastAsFresh.state_iff {fresher staler : Resolution α} (hfresh : AtLeastAsFresh fresher staler) {state : Str}
    (hstate : state ∈ unselected_states) : fresher.state = state ↔ staler.state = state := by
  constructor
  · intro h
    rw [← hfresh.state (record?_eq_none_iff.mpr (h ▸ hstate))]
    exact h
  · intro h
    have hnone : staler.record? = none := record?_eq_none_iff.mpr (h ▸ hstate)
    rw [hfresh.state (hfresh.record.trans hnone)]
    exact h

/-- Where neither result lacks a record, both select the same one. -/
theorem AtLeastAsFresh.selects {fresher staler : Resolution α} (hfresh : AtLeastAsFresh fresher staler)
    (hstate : fresher.state ∉ unselected_states) :
    ∃ record, fresher.record? = some record ∧ staler.record? = some record := by
  obtain ⟨record, hrecord⟩ := Option.ne_none_iff_exists'.mp (mt record?_eq_none_iff.mp hstate)
  exact ⟨record, hrecord, hfresh.record ▸ hrecord⟩

/-- On the same survivors, a check that more ages pass gives the fresher result. -/
theorem classify_atLeastAsFresh {fresh_date stale_date : Date} {fresh_days stale_days : Int}
    {several : List (Record α)} {fresher staler : Resolution α}
    (hages : ∀ last_verified, stale_date.days_since last_verified ≤ stale_days →
      fresh_date.days_since last_verified ≤ fresh_days)
    (hfresher : classify fresh_date fresh_days several = .ok fresher)
    (hstaler : classify stale_date stale_days several = .ok staler) : AtLeastAsFresh fresher staler := by
  obtain ⟨rfl, rfl⟩ | ⟨selected, rfl, hfresh⟩ | ⟨hlength, rfl⟩ := classify_cases hfresher
  · obtain rfl := pure_eq_ok_iff.mp hstaler
    exact .refl _
  · refine ⟨?_, ?_, ?_, ?_⟩
    · rw [freshness_record hfresh, freshness_record hstaler]
    · obtain ⟨rfl, _⟩ | ⟨⟨_, _, rfl⟩, _⟩ := freshness_spec hfresh <;>
        obtain ⟨rfl, _⟩ | ⟨⟨_, _, rfl⟩, _⟩ := freshness_spec hstaler <;> rfl
    · intro hnone
      rw [freshness_record hfresh] at hnone
      cases hnone
    · intro hresolved
      obtain ⟨record, rfl⟩ := state_eq_resolved_iff.mp hresolved
      obtain ⟨_, last_verified, hparse, hage⟩ | ⟨⟨_, _, hverify⟩, _⟩ := freshness_spec hstaler
      · obtain ⟨rfl, _⟩ | ⟨_, hnot⟩ := freshness_spec hfresh
        · rfl
        · exact absurd ⟨last_verified, hparse, hages last_verified hage⟩ hnot
      · cases hverify
  · obtain ⟨rfl, _⟩ | ⟨selected, rfl, _⟩ | ⟨_, rfl⟩ := classify_cases hstaler
    · cases hlength
    · simp at hlength
    · exact .refl _

/-- Two runs on the same heads, one with a check that more ages pass. -/
theorem resolve_current_atLeastAsFresh {records : List (Record α)} {domain subject field : Str}
    {fresh_as_of stale_as_of : Str} {fresh_date stale_date : Date} {fresh_days stale_days : Int} {fresher staler : Resolution α}
    (hfreshDate : parse_date fresh_as_of = .ok (some fresh_date))
    (hstaleDate : parse_date stale_as_of = .ok (some stale_date))
    (hheads : heads fresh_date (scope_records records (domain, subject, field)) =
      heads stale_date (scope_records records (domain, subject, field)))
    (hages : ∀ last_verified, stale_date.days_since last_verified ≤ stale_days →
      fresh_date.days_since last_verified ≤ fresh_days)
    (hfresher : resolve_current records domain subject field fresh_as_of fresh_days = .ok fresher)
    (hstaler : resolve_current records domain subject field stale_as_of stale_days = .ok staler) :
    AtLeastAsFresh fresher staler := by
  by_cases hempty : scope_records records (domain, subject, field) = []
  · simp only [resolve_current, if_pos hempty, pure_eq_ok_iff] at hfresher hstaler
    subst hfresher hstaler
    exact .refl _
  obtain ⟨hnil, _⟩ | ⟨hnot, errors, rfl⟩ | ⟨hwf, date, hdate, hclassify⟩ := resolve_current_cases hfresher
  · exact absurd hnil hempty
  · obtain ⟨errors', rfl⟩ := state_eq_data_error_iff.mp ((data_error_iff_not_wellFormed hstaler).mpr hnot)
    exact ⟨rfl, rfl, fun _ => rfl, fun h => by simp [Resolution.state] at h; exact absurd h (by decide)⟩
  · rw [hfreshDate, Except.ok.injEq, Option.some.injEq] at hdate
    subst date
    rw [resolve_current_of_wellFormed hstaleDate stale_days hwf hempty, ← hheads] at hstaler
    exact classify_atLeastAsFresh hages hclassify hstaler

/-- The decisions in force are the same on two days with no effective date between
    them. -/
theorem live_eq_of_quiet {earlier later : Date} {records : List (Record α)} (hle : earlier ≤ later)
    (hquiet : ∀ record ∈ records, record.StatusIn CURRENT_CAPABLE → ∀ date,
      parse_date record.effective_from = .ok (some date) → ¬ (earlier < date ∧ date ≤ later)) :
    live earlier records = live later records := by
  unfold live
  apply List.filter_congr
  intro record hmem
  rw [decide_eq_decide]
  have heffective : record.StatusIn CURRENT_CAPABLE → (EffectiveAt earlier record ↔ EffectiveAt later record) := by
    intro hcapable
    unfold EffectiveAt
    cases hdate : parse_date record.effective_from with
    | error raised => rfl
    | ok value =>
      cases value with
      | none => rfl
      | some date =>
        constructor
        · exact fun h => h.trans hle
        · intro hlater
          by_contra hnot
          have hlt : earlier < date := Date.not_le.mp hnot
          exact hquiet record hmem hcapable date hdate ⟨hlt, hlater⟩
  constructor
  · exact fun h => ⟨h.capable, (heffective h.capable).mp h.effective⟩
  · exact fun h => ⟨h.capable, (heffective h.capable).mpr h.effective⟩

/-- A run that returns has validated its scope. -/
theorem validate_registry_of_run {records : List (Record α)} {domain subject field as_of : Str} {verify_after_days : Int}
    {result : Resolution α} (hrun : resolve_current records domain subject field as_of verify_after_days = .ok result) :
    ∃ errors, validate_registry (scope_records records (domain, subject, field)) = .ok errors := by
  by_cases hempty : scope_records records (domain, subject, field) = []
  · exact ⟨[], by rw [hempty]; rfl⟩
  · simp only [resolve_current, if_neg hempty, bind_eq_ok_iff] at hrun
    obtain ⟨errors, hvalidate, _⟩ := hrun
    exact ⟨errors, hvalidate⟩

/-- Between two days on which nothing takes effect only freshness changes, and it only
    decays; on one day, a longer verification period only makes it better. -/
theorem changes_only_at_effective_dates {records : List (Record α)} {domain subject field earlier_as_of later_as_of : Str}
    {earlier later : Date} (hearlier : parse_date earlier_as_of = .ok (some earlier))
    (hlater : parse_date later_as_of = .ok (some later)) (hle : earlier ≤ later)
    (hquiet : ∀ record ∈ scope_records records (domain, subject, field), record.StatusIn CURRENT_CAPABLE →
      ∀ date, parse_date record.effective_from = .ok (some date) → ¬ (earlier < date ∧ date ≤ later))
    {verify_after_days : Int} {before after : Resolution α}
    (hbefore : resolve_current records domain subject field earlier_as_of verify_after_days = .ok before)
    (hafter : resolve_current records domain subject field later_as_of verify_after_days = .ok after) :
    (∀ state ∈ [Str.ofString "UNKNOWN", Str.ofString "CONFLICT", Str.ofString "DATA_ERROR"],
      before.state = state ↔ after.state = state) ∧
    before.decision_ids = after.decision_ids ∧
    (before.state ∉ [Str.ofString "UNKNOWN", Str.ofString "CONFLICT", Str.ofString "DATA_ERROR"] →
      ∃ selected, before.record? = some selected ∧ after.record? = some selected) ∧
    (after.state = Str.ofString "RESOLVED" → before.state = Str.ofString "RESOLVED") ∧
    ∀ longer, verify_after_days ≤ longer → ∃ relaxed,
      resolve_current records domain subject field earlier_as_of longer = .ok relaxed ∧
        relaxed.record? = before.record? ∧
        (before.state = Str.ofString "RESOLVED" → relaxed.state = Str.ofString "RESOLVED") := by
  have hheads : heads earlier (scope_records records (domain, subject, field)) =
      heads later (scope_records records (domain, subject, field)) := by
    rw [heads, heads, live_eq_of_quiet hle hquiet]
  have hages : ∀ last_verified, later.days_since last_verified ≤ verify_after_days →
      earlier.days_since last_verified ≤ verify_after_days := by
    intro last_verified hage
    have hordinal : earlier.toordinal ≤ later.toordinal := hle
    unfold Date.days_since at hage ⊢
    omega
  have hfresh := resolve_current_atLeastAsFresh hearlier hlater hheads hages hbefore hafter
  refine ⟨fun state hstate => hfresh.state_iff hstate, hfresh.decision_ids, hfresh.selects, hfresh.resolved, ?_⟩
  intro longer hlonger
  obtain ⟨errors, hvalidate⟩ := validate_registry_of_run hbefore
  obtain ⟨relaxed, hrelaxed⟩ := resolve_current_returns hearlier hvalidate longer
  have hmore :=
    resolve_current_atLeastAsFresh hearlier hearlier rfl (fun _ hage => le_trans hage hlonger) hrelaxed hbefore
  exact ⟨relaxed, hrelaxed, hmore.record, hmore.resolved⟩

/-- A month after its verification the sample price is no longer fresh; it was
    current all the time. -/
theorem sample_decisions_decay : ∃ before after,
    resolve_current sample_decisions "demo" "starter" "price" "2026-08-28" 30 = .ok before ∧
      resolve_current sample_decisions "demo" "starter" "price" "2026-10-28" 30 = .ok after ∧
      before.state = Str.ofString "RESOLVED" ∧ after.state = Str.ofString "VERIFY" ∧
      ∃ selected, before.record? = some selected ∧ after.record? = some selected := by
  have hearlier : parse_date (Str.ofString "2026-08-28") = .ok (some ⟨2026, 8, 28, by decide⟩) := by decide +kernel
  have hlater : parse_date (Str.ofString "2026-10-28") = .ok (some ⟨2026, 10, 28, by decide⟩) := by decide +kernel
  have hruns : ∃ selected ∈ sample_decisions,
      resolve_current sample_decisions "demo" "starter" "price" "2026-08-28" 30 = .ok (.RESOLVED selected) ∧
      resolve_current sample_decisions "demo" "starter" "price" "2026-10-28" 30 =
        .ok (.VERIFY "stale_selected_record" (some 61) selected) := by
    decide +kernel
  have hfrom : ∀ record ∈ scope_records sample_decisions ("demo", "starter", "price"),
      record.StatusIn CURRENT_CAPABLE → parse_date record.effective_from = .ok (some ⟨2026, 8, 1, by decide⟩) := by
    decide +kernel
  have hbefore : (⟨2026, 8, 1, by decide⟩ : Date) ≤ ⟨2026, 8, 28, by decide⟩ := by decide
  obtain ⟨selected, _, hresolved, hstale⟩ := hruns
  have hstable := changes_only_at_effective_dates hearlier hlater (by decide)
    (by
      intro record hmem hcapable date hdate
      rw [hfrom record hmem hcapable, Except.ok.injEq, Option.some.injEq] at hdate
      subst date
      exact fun hbetween => absurd hbetween.1 (not_lt_of_ge hbefore))
    hresolved hstale
  exact ⟨_, _, hresolved, hstale, rfl, rfl, hstable.2.2.1 (by simp only [Resolution.state]; decide)⟩

end context_router.minimal_resolver
