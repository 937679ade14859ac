import ContextRouter.MinimalResolver.Growth
import ContextRouter.Python.Isoformat
import Mathlib.Order.Interval.Set.OrdConnected
import Mathlib.Order.UpperLower.Basic

open python

namespace context_router.minimal_resolver

variable {α : Type}

/-- The resolver reads what `isoformat` writes. -/
theorem parse_date_isoformat (date : Date) : parse_date date.isoformat = .ok (some date) := by
  have htext : truthy date.isoformat = some date.isoformat := by
    rw [truthy_eq_some_iff, date.isoformat_eq]
    simp
  rw [parse_date, htext]
  simp only [strptime_isoformat]

/-- The registry as it is consulted on a day. -/
def consulted_on (records : List (Record α)) (verify_after_days : Int) (date : Date) : Consultation α :=
  ⟨records, date.isoformat, date, parse_date_isoformat date, verify_after_days⟩

section Days

variable {records : List (Record α)} {domain subject field : Str}

theorem extends_of_le {earlier later : Date} (hle : earlier ≤ later) (verify_after_days : Int)
    (scope : Str × Str × Str) :
    (consulted_on records verify_after_days earlier).Extends scope (consulted_on records verify_after_days later) :=
  ⟨.refl _, hle⟩

/-- On every day a validated scope is answered by its heads. -/
theorem day_answered (hwf : WellFormed (scope_records records (domain, subject, field)))
    (verify_after_days : Int) (date : Date) :
    ∃ result, (consulted_on records verify_after_days date).resolve domain subject field = .ok result ∧
      ((heads date (scope_records records (domain, subject, field)) = [] ∧ ∃ reason, result = .UNKNOWN reason) ∨
        (∃ selected, heads date (scope_records records (domain, subject, field)) = [selected] ∧
          result.record? = some selected ∧ freshness date verify_after_days selected = .ok result) ∨
        (1 < (heads date (scope_records records (domain, subject, field))).length ∧
          ∃ reason decision_ids, result = .CONFLICT reason decision_ids)) := by
  have hdate := parse_date_isoformat date
  obtain ⟨result, hrun⟩ := resolve_current_returns hdate (validates_iff_wellFormed.mpr hwf) verify_after_days
  refine ⟨result, hrun, ?_⟩
  obtain ⟨hempty, rfl⟩ | ⟨hnot, _⟩ | ⟨_, as_of_date, hparse, hclassify⟩ := resolve_current_cases hrun
  · exact Or.inl ⟨by rw [hempty]; rfl, _, rfl⟩
  · exact absurd hwf hnot
  · rw [hdate, Except.ok.injEq, Option.some.injEq] at hparse
    subst as_of_date
    obtain ⟨hnone, rfl⟩ | ⟨selected, hheads, hfresh⟩ | ⟨hseveral, rfl⟩ := classify_cases hclassify
    · exact Or.inl ⟨hnone, _, rfl⟩
    · exact Or.inr (Or.inl ⟨selected, hheads, freshness_record hfresh, hfresh⟩)
    · exact Or.inr (Or.inr ⟨hseveral, _, _, rfl⟩)

theorem unknown_on_iff (hwf : WellFormed (scope_records records (domain, subject, field)))
    {verify_after_days : Int} {date : Date} :
    (∃ reason, (consulted_on records verify_after_days date).resolve domain subject field = .ok (.UNKNOWN reason)) ↔
      heads date (scope_records records (domain, subject, field)) = [] := by
  obtain ⟨result, hrun, ⟨hnone, reason, rfl⟩ | ⟨selected, hheads, hselected, _⟩ | ⟨hseveral, reason, ids, rfl⟩⟩ :=
    day_answered hwf verify_after_days date
  · simp [hrun, hnone]
  · have hnot : ∀ reason, result ≠ .UNKNOWN reason := by
      rintro reason rfl
      cases hselected
    simp [hrun, hheads, hnot]
  · have hnot : heads date (scope_records records (domain, subject, field)) ≠ [] := List.ne_nil_of_length_pos (by omega)
    simp [hrun, hnot]

theorem conflict_on_iff (hwf : WellFormed (scope_records records (domain, subject, field)))
    {verify_after_days : Int} {date : Date} :
    (∃ reason decision_ids, (consulted_on records verify_after_days date).resolve domain subject field =
      .ok (.CONFLICT reason decision_ids)) ↔
        1 < (heads date (scope_records records (domain, subject, field))).length := by
  obtain ⟨result, hrun, ⟨hnone, reason, rfl⟩ | ⟨selected, hheads, hselected, _⟩ | ⟨hseveral, reason, ids, rfl⟩⟩ :=
    day_answered hwf verify_after_days date
  · simp [hrun, hnone]
  · have hnot : ∀ reason decision_ids, result ≠ .CONFLICT reason decision_ids := by
      rintro reason decision_ids rfl
      cases hselected
    simp [hrun, hheads, hnot]
  · simp [hrun, hseveral]

theorem selects_on_iff (hwf : WellFormed (scope_records records (domain, subject, field)))
    {verify_after_days : Int} {date : Date} {record : Record α} :
    (consulted_on records verify_after_days date).Selects domain subject field record ↔
      heads date (scope_records records (domain, subject, field)) = [record] := by
  constructor
  · exact fun hselects => hselects.heads.2
  · intro hheads
    obtain ⟨result, hrun, hfresh⟩ := selected_of_heads (parse_date_isoformat date) hwf hheads verify_after_days
    exact ⟨result, hrun, freshness_record hfresh⟩

theorem resolved_on_iff (hwf : WellFormed (scope_records records (domain, subject, field)))
    {verify_after_days : Int} {date : Date} {record : Record α} :
    (consulted_on records verify_after_days date).resolve domain subject field = .ok (.RESOLVED record) ↔
      heads date (scope_records records (domain, subject, field)) = [record] ∧
        VerifiedWithin verify_after_days date record := by
  have hdate := parse_date_isoformat date
  constructor
  · intro hrun
    exact ((resolve_current_resolved_iff hdate hrun).mp rfl).2
  · intro ⟨hheads, hverified⟩
    obtain ⟨result, hrun, _⟩ := selected_of_heads hdate hwf hheads verify_after_days
    obtain rfl := (resolve_current_resolved_iff hdate hrun).mpr ⟨validates_iff_wellFormed.mpr hwf, hheads, hverified⟩
    exact hrun

/-- The heads of a scope do not become fewer. -/
theorem length_heads_le_of_le (hwf : WellFormed (scope_records records (domain, subject, field)))
    (hundated : UndatedLinksOk (scope_records records (domain, subject, field))) {earlier later : Date}
    (hle : earlier ≤ later) :
    (heads earlier (scope_records records (domain, subject, field))).length ≤
      (heads later (scope_records records (domain, subject, field))).length :=
  (extends_of_le hle 0 (domain, subject, field)).length_heads_le hwf hwf (.inr hundated)

/-- A record that is the one head on two days is it on every day between them. -/
theorem head_between (hwf : WellFormed (scope_records records (domain, subject, field)))
    (hundated : UndatedLinksOk (scope_records records (domain, subject, field))) {first middle last : Date}
    (hfrom : first ≤ middle) (hto : middle ≤ last) {record : Record α}
    (hfirst : heads first (scope_records records (domain, subject, field)) = [record])
    (hlast : heads last (scope_records records (domain, subject, field)) = [record]) :
    heads middle (scope_records records (domain, subject, field)) = [record] := by
  have hmore := length_heads_le_of_le hwf hundated hfrom
  have hless := length_heads_le_of_le hwf hundated hto
  rw [hfirst, List.length_singleton] at hmore
  rw [hlast, List.length_singleton] at hless
  obtain ⟨other, hmiddle⟩ := List.length_eq_one_iff.mp (le_antisymm hless hmore)
  have hselects : (consulted_on records 0 middle).Selects domain subject field other := (selects_on_iff hwf).mpr hmiddle
  -- A way to another head and a way back would close a cycle.
  obtain heq | hthere :=
    Consultation.Selects.followedBy (extends_of_le hfrom 0 _) ((selects_on_iff hwf).mpr hfirst) hselects
  · rw [hmiddle, heq]
  · obtain heq | hback := hselects.followedBy (extends_of_le hto 0 _) ((selects_on_iff hwf).mpr hlast)
    · rw [hmiddle, heq]
    · have hcycle := (hthere.mono (extends_of_le hto 0 _).live_subperm.subset).trans hback
      exact absurd hcycle (hwf.not_followedBy_self last record)

/-- The days of a validated scope fall into phases. It is UNKNOWN up to some day and in
    CONFLICT from some day on; the days between them go from one selected record to the
    next, each on days without a gap, and a record that is selected is RESOLVED first and
    VERIFY afterwards. -/
theorem days_fall_into_phases (hvalid : validate_registry (scope_records records (domain, subject, field)) = .ok [])
    (hundated : UndatedLinksOk (scope_records records (domain, subject, field))) (verify_after_days : Int) :
    let consult := consulted_on records verify_after_days
    IsLowerSet {date | ∃ reason, (consult date).resolve domain subject field = .ok (.UNKNOWN reason)} ∧
    IsUpperSet {date | ∃ reason decision_ids,
      (consult date).resolve domain subject field = .ok (.CONFLICT reason decision_ids)} ∧
    (∀ record, Set.OrdConnected {date | (consult date).Selects domain subject field record}) ∧
    ∀ record first last, first ≤ last → (consult first).Selects domain subject field record →
      (consult last).resolve domain subject field = .ok (.RESOLVED record) →
        (consult first).resolve domain subject field = .ok (.RESOLVED record) := by
  have hwf := validates_iff_wellFormed.mp hvalid
  refine ⟨?unknown, ?conflict, ?selected, ?fresh⟩
  case unknown =>
    intro later earlier hle hlater
    have hnone := (unknown_on_iff hwf).mp hlater
    have hlength := length_heads_le_of_le hwf hundated hle
    rw [hnone, List.length_nil] at hlength
    exact (unknown_on_iff hwf).mpr (List.length_eq_zero_iff.mp (Nat.le_zero.mp hlength))
  case conflict =>
    intro earlier later hle hearlier
    have hseveral := (conflict_on_iff hwf).mp hearlier
    exact (conflict_on_iff hwf).mpr (hseveral.trans_le (length_heads_le_of_le hwf hundated hle))
  case selected =>
    intro record
    refine ⟨?_⟩
    intro first hfirst last hlast middle ⟨hfrom, hto⟩
    apply (selects_on_iff hwf).mpr
    exact head_between hwf hundated hfrom hto ((selects_on_iff hwf).mp hfirst) ((selects_on_iff hwf).mp hlast)
  case fresh =>
    intro record first last hle hfirst hlast
    obtain ⟨_, last_verified, hdate, hage⟩ := (resolved_on_iff hwf).mp hlast
    apply (resolved_on_iff hwf).mpr
    refine ⟨(selects_on_iff hwf).mp hfirst, last_verified, hdate, ?_⟩
    have hordinal : first.toordinal ≤ last.toordinal := hle
    unfold Date.days_since at hage ⊢
    omega

end Days

/-- PRICE-003 has no date and supersedes PRICE-002, which supersedes PRICE-001. -/
def gap_decisions : List (Record Nat) :=
  let starter : Scope := ⟨some "demo", some "starter", some "price"⟩
  [⟨some "PRICE-001", starter, some ACTIVE, some "2026-09-01", none, some "2026-08-14", some 100⟩,
    ⟨some "PRICE-002", starter, some ACTIVE, some "2026-10-01", some "PRICE-001", some "2026-08-14", some 200⟩,
    ⟨some "PRICE-003", starter, some ACTIVE, none, some "PRICE-002", some "2026-08-14", some 300⟩]

/-- Without the condition on undated records a selection is interrupted: in September
    nothing in force joins PRICE-003 to PRICE-001. -/
theorem undated_selection_interrupted :
    validate_registry (scope_records gap_decisions ("demo", "starter", "price")) = .ok [] ∧
      ∃ record ∈ gap_decisions,
        resolve_current gap_decisions "demo" "starter" "price" "2026-08-15" 90 = .ok (.RESOLVED record) ∧
        resolve_current gap_decisions "demo" "starter" "price" "2026-09-15" 90 =
          .ok (.CONFLICT "multiple_current_survivors" [some "PRICE-001", some "PRICE-003"]) ∧
        resolve_current gap_decisions "demo" "starter" "price" "2026-10-15" 90 = .ok (.RESOLVED record) := by
  decide +kernel

/-- The sample price is selected on the first day of August and at the end of the month,
    and so on every day between them. -/
theorem sample_price_all_august : ∃ record ∈ sample_decisions, ∀ date : Date,
    ⟨2026, 8, 1, by decide⟩ ≤ date → date ≤ ⟨2026, 8, 31, by decide⟩ →
      (consulted_on sample_decisions 30 date).Selects "demo" "starter" "price" record := by
  have hruns : ∃ record ∈ sample_decisions,
      resolve_current sample_decisions "demo" "starter" "price" "2026-08-01" 30 = .ok (.RESOLVED record) ∧
      resolve_current sample_decisions "demo" "starter" "price" "2026-08-31" 30 = .ok (.RESOLVED record) := by
    decide +kernel
  have hvalid : validate_registry (scope_records sample_decisions ("demo", "starter", "price")) = .ok [] := by
    decide +kernel
  have hdated : ∀ record ∈ scope_records sample_decisions ("demo", "starter", "price"),
      parse_date record.effective_from ≠ .ok none := by
    decide +kernel
  have htexts : (⟨2026, 8, 1, by decide⟩ : Date).isoformat = Str.ofString "2026-08-01" ∧
      (⟨2026, 8, 31, by decide⟩ : Date).isoformat = Str.ofString "2026-08-31" := by
    decide +kernel
  obtain ⟨record, hmem, hfirst, hlast⟩ := hruns
  rw [← htexts.1] at hfirst
  rw [← htexts.2] at hlast
  obtain ⟨_, _, hselected, _⟩ := days_fall_into_phases hvalid
    (fun successor _ hlink hundated => absurd hundated (hdated successor hlink.1)) 30
  refine ⟨record, hmem, ?_⟩
  intro date hfrom hto
  exact (hselected record).out ⟨_, hfirst, rfl⟩ ⟨_, hlast, rfl⟩ ⟨hfrom, hto⟩

end context_router.minimal_resolver
