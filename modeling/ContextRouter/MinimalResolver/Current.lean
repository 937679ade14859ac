import ContextRouter.MinimalResolver.Resolve

open python

namespace context_router.minimal_resolver

variable {α : Type}

/-- The record counts as effective: `effective_from` is absent or not after the date. -/
def EffectiveAt (as_of_date : Date) (record : Record α) : Prop :=
  match parse_date record.effective_from with
  | .ok none => True
  | .ok (some date) => date ≤ as_of_date
  | .error _ => False

instance (as_of_date : Date) (record : Record α) : Decidable (EffectiveAt as_of_date record) := by
  unfold EffectiveAt
  split <;> infer_instance

/-- A decision that is in force: LOCKED or ACTIVE, and effective. -/
structure Live (as_of_date : Date) (record : Record α) : Prop where
  capable : record.StatusIn CURRENT_CAPABLE
  effective : EffectiveAt as_of_date record

instance (as_of_date : Date) (record : Record α) : Decidable (Live as_of_date record) :=
  decidable_of_iff (record.StatusIn CURRENT_CAPABLE ∧ EffectiveAt as_of_date record)
    ⟨fun h => ⟨h.1, h.2⟩, fun h => ⟨h.1, h.2⟩⟩

theorem Live.authoritative {as_of_date : Date} {record : Record α} (hlive : Live as_of_date record) :
    record.StatusIn AUTHORITATIVE := by
  obtain ⟨status, hmem, hstatus⟩ := hlive.capable
  have hsub : ∀ status ∈ CURRENT_CAPABLE, status ∈ AUTHORITATIVE := by decide
  exact ⟨status, hsub status hmem, hstatus⟩

/-- Of the authoritative statuses only SUPERSEDED keeps a record from being current. -/
theorem current_capable_of_authoritative {record : Record α} (hstatus : record.StatusIn AUTHORITATIVE)
    (hnot : record.status ≠ some SUPERSEDED) : record.StatusIn CURRENT_CAPABLE := by
  obtain ⟨status, hmem, hstatus⟩ := hstatus
  refine ⟨status, ?_, hstatus⟩
  have hsplit : ∀ status ∈ AUTHORITATIVE, status = SUPERSEDED ∨ status ∈ CURRENT_CAPABLE := by decide
  exact (hsplit status hmem).resolve_left (fun h => hnot (h ▸ hstatus))

theorem succeeds_iff {successor predecessor : Record α} :
    Succeeds successor predecessor ↔
      successor.link?.isSome ∧ successor.supersedes = predecessor.decision_id := by
  unfold Succeeds Record.link? Record.id?
  simp only [truthy_eq_some_iff, Option.isSome_iff_exists]
  constructor
  · rintro ⟨id, ⟨hlink, hne⟩, hid, _⟩
    exact ⟨⟨id, hlink, hne⟩, hlink.trans hid.symm⟩
  · rintro ⟨⟨id, hlink, hne⟩, heq⟩
    exact ⟨id, ⟨hlink, hne⟩, heq ▸ hlink, hne⟩

instance (successor predecessor : Record α) : Decidable (Succeeds successor predecessor) :=
  decidable_of_iff _ succeeds_iff.symm

/-- The decisions in force. -/
def live (as_of_date : Date) (records : List (Record α)) : List (Record α) :=
  records.filter fun record => Live as_of_date record

/-- The decisions in force that no decision in force supersedes. -/
def heads (as_of_date : Date) (records : List (Record α)) : List (Record α) :=
  digraph.heads Succeeds (live as_of_date records)

theorem mem_live {as_of_date : Date} {records : List (Record α)} {record : Record α} :
    record ∈ live as_of_date records ↔ record ∈ records ∧ Live as_of_date record := by
  simp [live]

theorem mem_heads {as_of_date : Date} {records : List (Record α)} {record : Record α} :
    record ∈ heads as_of_date records ↔ record ∈ records ∧ Live as_of_date record ∧
      ∀ other ∈ records, Live as_of_date other → ¬ Succeeds other record := by
  simp only [heads, digraph.mem_heads, mem_live, and_assoc, and_imp]

/-- A decision in force that no decision in force supersedes. -/
structure Current (as_of_date : Date) (records : List (Record α)) (record : Record α) : Prop where
  live : Live as_of_date record
  not_superseded : ∀ other ∈ records, Live as_of_date other → ¬ Succeeds other record

instance (as_of_date : Date) (records : List (Record α)) (record : Record α) :
    Decidable (Current as_of_date records record) :=
  decidable_of_iff (Live as_of_date record ∧ ∀ other ∈ records, Live as_of_date other → ¬ Succeeds other record)
    ⟨fun h => ⟨h.1, h.2⟩, fun h => ⟨h.1, h.2⟩⟩

theorem heads_eq_filter (as_of_date : Date) (records : List (Record α)) :
    heads as_of_date records = records.filter fun record => Current as_of_date records record := by
  unfold heads digraph.heads live
  rw [List.filter_filter]
  apply List.filter_congr
  intro record _
  have hcurrent : Current as_of_date records record ↔
      (∀ other ∈ records, Live as_of_date other → ¬ Succeeds other record) ∧ Live as_of_date record :=
    ⟨fun h => ⟨h.not_superseded, h.live⟩, fun h => ⟨h.2, h.1⟩⟩
  simp [hcurrent]

/-- One head, told by its position. -/
theorem heads_eq_singleton_iff {as_of_date : Date} {records : List (Record α)} {record : Record α} :
    heads as_of_date records = [record] ↔
      ∃ position : Nat, records[position]? = some record ∧ Current as_of_date records record ∧
        ∀ (other_position : Nat) other, records[other_position]? = some other →
          Current as_of_date records other → other_position = position := by
  rw [heads_eq_filter, digraph.filter_eq_singleton_iff]
  simp only [decide_eq_true_eq]

/-- The survivor filter keeps exactly the records that no collected record
    supersedes. -/
theorem survivors_eq (effective : List (Record α)) :
    survivors effective = digraph.heads Succeeds effective := by
  unfold survivors superseded_ids digraph.heads
  apply List.filter_congr
  intro record _
  simp only [decide_eq_decide, List.mem_map, List.mem_filter, succeeds_iff]
  grind

theorem effective_records_eq {as_of_date : Date} {records : List (Record α)}
    (hdates : ∀ record ∈ records, DateOk record.effective_from) :
    effective_records as_of_date records = .ok (live as_of_date records) := by
  induction records with
  | nil => rfl
  | cons record rest ih =>
    rw [List.forall_mem_cons] at hdates
    obtain ⟨⟨date, hdate⟩, hrest⟩ := hdates
    unfold effective_records live
    by_cases hcapable : record.StatusIn CURRENT_CAPABLE
    · have hlive : Live as_of_date record ↔ EffectiveAt as_of_date record :=
        ⟨Live.effective, fun heffective => ⟨hcapable, heffective⟩⟩
      rw [if_pos hcapable, hdate, ih hrest, List.filter_cons, decide_eq_decide.mpr hlive]
      cases date with
      | none =>
        have heffective : EffectiveAt as_of_date record := by simp [EffectiveAt, hdate]
        rw [if_pos (decide_eq_true heffective)]
        rfl
      | some effective_from =>
        have heffective : EffectiveAt as_of_date record ↔ effective_from ≤ as_of_date := by simp [EffectiveAt, hdate]
        simp only [decide_eq_true_eq, heffective]
        rfl
    · have hlive : ¬ Live as_of_date record := fun h => hcapable h.capable
      rw [if_neg hcapable, ih hrest, List.filter_cons_of_neg (by simpa using hlive)]
      rfl

/-- The last verification of the record is recent enough. -/
def VerifiedWithin (verify_after_days : Int) (as_of_date : Date) (record : Record α) : Prop :=
  ∃ last_verified, parse_date record.last_verified = .ok (some last_verified) ∧
    as_of_date.days_since last_verified ≤ verify_after_days

theorem freshness_total {as_of_date : Date} {verify_after_days : Int} {record : Record α}
    (hdate : DateOk record.last_verified) :
    ∃ result, freshness as_of_date verify_after_days record = .ok result := by
  obtain ⟨date, hdate⟩ := hdate
  cases date with
  | none => exact ⟨_, by rw [freshness, hdate]; rfl⟩
  | some last_verified =>
    by_cases h : as_of_date.days_since last_verified > verify_after_days
    · exact ⟨_, by simp only [freshness, hdate, ok_bind, if_pos h]; rfl⟩
    · exact ⟨_, by simp only [freshness, hdate, ok_bind, if_neg h]; rfl⟩

/-- The freshness check keeps the record: it answers VERIFY or RESOLVED with it, and
    RESOLVED exactly when it was verified recently enough. -/
theorem freshness_spec {as_of_date : Date} {verify_after_days : Int} {record : Record α} {result : Resolution α}
    (hrun : freshness as_of_date verify_after_days record = .ok result) :
    (result = .RESOLVED record ∧ VerifiedWithin verify_after_days as_of_date record) ∨
      ((∃ reason age_days, result = .VERIFY reason age_days record) ∧
        ¬ VerifiedWithin verify_after_days as_of_date record) := by
  unfold VerifiedWithin
  rw [freshness] at hrun
  cases hdate : parse_date record.last_verified with
  | error raised => simp [hdate] at hrun
  | ok date =>
    cases date with
    | none =>
      simp only [hdate, ok_bind, pure_eq_ok_iff] at hrun
      exact Or.inr ⟨⟨_, _, hrun.symm⟩, by simp⟩
    | some last_verified =>
      simp only [hdate, ok_bind] at hrun
      by_cases h : as_of_date.days_since last_verified > verify_after_days
      · rw [if_pos h, pure_eq_ok_iff] at hrun
        refine Or.inr ⟨⟨_, _, hrun.symm⟩, ?_⟩
        rintro ⟨date, hsame, hle⟩
        cases hsame
        omega
      · rw [if_neg h, pure_eq_ok_iff] at hrun
        exact Or.inl ⟨hrun.symm, last_verified, rfl, by omega⟩

/-- On a well-formed scope the resolver answers by the decisions in force that no
    decision in force supersedes. -/
theorem resolve_current_of_wellFormed {records : List (Record α)} {domain subject field as_of : Str}
    {as_of_date : Date} (hdate : parse_date as_of = .ok (some as_of_date)) (verify_after_days : Int)
    (hwf : WellFormed (scope_records records (domain, subject, field)))
    (hne : scope_records records (domain, subject, field) ≠ []) :
    resolve_current records domain subject field as_of verify_after_days =
      classify as_of_date verify_after_days (heads as_of_date (scope_records records (domain, subject, field))) := by
  unfold resolve_current
  simp only [if_neg hne, validates_iff_wellFormed.mpr hwf, hdate, effective_records_eq hwf.effective_from_ok,
    survivors_eq, ok_bind]
  rfl

/-- The three ways a run of the resolver can return. -/
theorem resolve_current_cases {records : List (Record α)} {domain subject field as_of : Str}
    {verify_after_days : Int} {result : Resolution α}
    (hrun : resolve_current records domain subject field as_of verify_after_days = .ok result) :
    (scope_records records (domain, subject, field) = [] ∧ result = .UNKNOWN "no_records_for_scope") ∨
      (¬ WellFormed (scope_records records (domain, subject, field)) ∧ ∃ errors, result = .DATA_ERROR errors) ∨
      (WellFormed (scope_records records (domain, subject, field)) ∧ ∃ as_of_date,
        parse_date as_of = .ok (some as_of_date) ∧
        classify as_of_date verify_after_days (heads as_of_date (scope_records records (domain, subject, field))) =
          .ok result) := by
  by_cases hempty : scope_records records (domain, subject, field) = []
  · refine Or.inl ⟨hempty, ?_⟩
    simp only [resolve_current, if_pos hempty, pure_eq_ok_iff] at hrun
    exact hrun.symm
  cases hvalidate : validate_registry (scope_records records (domain, subject, field)) with
  | error raised => simp [resolve_current, hempty, hvalidate] at hrun
  | ok errors =>
    by_cases hwf : WellFormed (scope_records records (domain, subject, field))
    · cases hdate : parse_date as_of with
      | error raised =>
        simp [resolve_current, hempty, validates_iff_wellFormed.mpr hwf, hdate] at hrun
      | ok date =>
        cases date with
        | none =>
          simp [resolve_current, hempty, validates_iff_wellFormed.mpr hwf, hdate, throw, throwThe,
            MonadExceptOf.throw] at hrun
        | some as_of_date =>
          rw [resolve_current_of_wellFormed hdate verify_after_days hwf hempty] at hrun
          exact Or.inr (Or.inr ⟨hwf, as_of_date, rfl, hrun⟩)
    · have herrors : errors ≠ [] := fun hnil => hwf ((errors_eq_nil_iff hvalidate).mp hnil)
      simp only [resolve_current, if_neg hempty, hvalidate, ok_bind, if_pos herrors, pure_eq_ok_iff] at hrun
      exact Or.inr (Or.inl ⟨hwf, errors, hrun.symm⟩)

/-- On a scope that does not validate the resolver reports the errors. -/
theorem resolve_current_of_errors {records : List (Record α)} {domain subject field : Str} {errors : List Str}
    (hvalidate : validate_registry (scope_records records (domain, subject, field)) = .ok errors)
    (hwf : ¬ WellFormed (scope_records records (domain, subject, field))) (as_of : Str) (verify_after_days : Int) :
    resolve_current records domain subject field as_of verify_after_days = .ok (.DATA_ERROR errors) := by
  have hempty : scope_records records (domain, subject, field) ≠ [] := by
    intro hempty
    rw [hempty] at hwf
    exact hwf (validates_iff_wellFormed.mp rfl)
  have herrors : errors ≠ [] := fun hnil => hwf ((errors_eq_nil_iff hvalidate).mp hnil)
  simp only [resolve_current, if_neg hempty, hvalidate, ok_bind, if_pos herrors]
  rfl

/-- The unique survivor rule, by the number of survivors. -/
theorem classify_cases {as_of_date : Date} {verify_after_days : Int} {several : List (Record α)} {result : Resolution α}
    (hrun : classify as_of_date verify_after_days several = .ok result) :
    (several = [] ∧ result = .UNKNOWN "no_current_survivor") ∨
      (∃ selected, several = [selected] ∧ freshness as_of_date verify_after_days selected = .ok result) ∨
      (1 < several.length ∧ result = .CONFLICT "multiple_current_survivors" (several.map Record.decision_id)) := by
  match several, hrun with
  | [], hrun =>
    simp only [classify, pure_eq_ok_iff] at hrun
    exact Or.inl ⟨rfl, hrun.symm⟩
  | [selected], hrun => exact Or.inr (Or.inl ⟨selected, rfl, hrun⟩)
  | first :: second :: rest, hrun =>
    simp only [classify, pure_eq_ok_iff] at hrun
    exact Or.inr (Or.inr ⟨by simp, hrun.symm⟩)

theorem freshness_record {as_of_date : Date} {verify_after_days : Int} {record : Record α} {result : Resolution α}
    (hrun : freshness as_of_date verify_after_days record = .ok result) : result.record? = some record := by
  obtain ⟨rfl, _⟩ | ⟨⟨reason, age_days, rfl⟩, _⟩ := freshness_spec hrun
  · rfl
  · rfl

theorem state_eq_data_error_iff {result : Resolution α} :
    result.state = Str.ofString "DATA_ERROR" ↔ ∃ errors, result = .DATA_ERROR errors := by
  cases result <;> simp [Resolution.state] <;> decide

/-- A run that returns reports errors exactly when the scope is not well formed. -/
theorem data_error_iff_not_wellFormed {records : List (Record α)} {domain subject field as_of : Str}
    {verify_after_days : Int} {result : Resolution α}
    (hrun : resolve_current records domain subject field as_of verify_after_days = .ok result) :
    result.state = Str.ofString "DATA_ERROR" ↔ ¬ WellFormed (scope_records records (domain, subject, field)) := by
  rw [state_eq_data_error_iff]
  obtain ⟨hempty, rfl⟩ | ⟨hnot, herrors⟩ | ⟨hwf, as_of_date, _, hclassify⟩ := resolve_current_cases hrun
  · have hwf : WellFormed (scope_records records (domain, subject, field)) := by
      rw [hempty]
      exact validates_iff_wellFormed.mp rfl
    simp [hwf]
  · simp only [hnot, not_false_iff, iff_true]
    exact herrors
  · simp only [hwf, not_true_eq_false, iff_false]
    rintro ⟨errors, rfl⟩
    obtain ⟨_, hunknown⟩ | ⟨selected, _, hfresh⟩ | ⟨_, hconflict⟩ := classify_cases hclassify
    · cases hunknown
    · cases freshness_record hfresh
    · cases hconflict

/-- A record is selected exactly when it is the one head of a well-formed scope. -/
theorem heads_of_selected {records : List (Record α)} {domain subject field as_of : Str} {as_of_date : Date}
    {verify_after_days : Int} {result : Resolution α} {selected : Record α}
    (hdate : parse_date as_of = .ok (some as_of_date))
    (hrun : resolve_current records domain subject field as_of verify_after_days = .ok result)
    (hselected : result.record? = some selected) :
    WellFormed (scope_records records (domain, subject, field)) ∧
      heads as_of_date (scope_records records (domain, subject, field)) = [selected] ∧
      freshness as_of_date verify_after_days selected = .ok result := by
  obtain ⟨_, rfl⟩ | ⟨_, errors, rfl⟩ | ⟨hwf, date, hparse, hclassify⟩ := resolve_current_cases hrun
  · cases hselected
  · cases hselected
  · rw [hdate, Except.ok.injEq, Option.some.injEq] at hparse
    subst date
    obtain ⟨_, rfl⟩ | ⟨actual, hheads, hfresh⟩ | ⟨_, rfl⟩ := classify_cases hclassify
    · cases hselected
    · rw [freshness_record hfresh, Option.some.injEq] at hselected
      subst selected
      exact ⟨hwf, hheads, hfresh⟩
    · cases hselected

/-- The one head of a well-formed scope is selected, and its own freshness decides
    the state. -/
theorem selected_of_heads {records : List (Record α)} {domain subject field as_of : Str} {as_of_date : Date}
    {selected : Record α} (hdate : parse_date as_of = .ok (some as_of_date))
    (hwf : WellFormed (scope_records records (domain, subject, field)))
    (hheads : heads as_of_date (scope_records records (domain, subject, field)) = [selected])
    (verify_after_days : Int) :
    ∃ result, resolve_current records domain subject field as_of verify_after_days = .ok result ∧
      freshness as_of_date verify_after_days selected = .ok result := by
  have hhead : selected ∈ heads as_of_date (scope_records records (domain, subject, field)) := by simp [hheads]
  obtain ⟨hmem, _, _⟩ := mem_heads.mp hhead
  obtain ⟨result, hfresh⟩ := freshness_total (hwf.last_verified_ok selected hmem)
  refine ⟨result, ?_, hfresh⟩
  rw [resolve_current_of_wellFormed hdate verify_after_days hwf (List.ne_nil_of_mem hmem), hheads]
  exact hfresh

theorem state_eq_resolved_iff {result : Resolution α} :
    result.state = Str.ofString "RESOLVED" ↔ ∃ record, result = .RESOLVED record := by
  cases result <;> simp [Resolution.state] <;> decide

/-- A run that returns has resolved exactly when the scope validates, has one current
    record, and that record was verified recently enough. -/
theorem resolve_current_resolved_iff {records : List (Record α)} {domain subject field as_of : Str} {as_of_date : Date}
    {verify_after_days : Int} {result : Resolution α} {record : Record α}
    (hdate : parse_date as_of = .ok (some as_of_date))
    (hrun : resolve_current records domain subject field as_of verify_after_days = .ok result) :
    result = .RESOLVED record ↔
      validate_registry (scope_records records (domain, subject, field)) = .ok [] ∧
        heads as_of_date (scope_records records (domain, subject, field)) = [record] ∧
        VerifiedWithin verify_after_days as_of_date record := by
  rw [validates_iff_wellFormed]
  constructor
  · rintro rfl
    obtain ⟨hwf, hheads, hfresh⟩ := heads_of_selected hdate hrun rfl
    obtain ⟨_, hverified⟩ | ⟨⟨_, _, hverify⟩, _⟩ := freshness_spec hfresh
    · exact ⟨hwf, hheads, hverified⟩
    · cases hverify
  · rintro ⟨hwf, hheads, hverified⟩
    obtain ⟨actual, hactual, hfresh⟩ := selected_of_heads hdate hwf hheads verify_after_days
    rw [hrun, Except.ok.injEq] at hactual
    subst actual
    obtain ⟨hresolved, _⟩ | ⟨_, hnot⟩ := freshness_spec hfresh
    · exact hresolved
    · exact absurd hverified hnot

/-- With a readable query date the resolver returns whenever the validator does. -/
theorem resolve_current_returns {records : List (Record α)} {domain subject field as_of : Str} {as_of_date : Date}
    {errors : List Str} (hdate : parse_date as_of = .ok (some as_of_date))
    (hvalidate : validate_registry (scope_records records (domain, subject, field)) = .ok errors)
    (verify_after_days : Int) :
    ∃ result, resolve_current records domain subject field as_of verify_after_days = .ok result := by
  by_cases hwf : WellFormed (scope_records records (domain, subject, field))
  · by_cases hempty : scope_records records (domain, subject, field) = []
    · exact ⟨_, by rw [resolve_current, if_pos hempty]; rfl⟩
    · rw [resolve_current_of_wellFormed hdate verify_after_days hwf hempty]
      match hheads : heads as_of_date (scope_records records (domain, subject, field)) with
      | [] => exact ⟨_, rfl⟩
      | [selected] =>
        have hhead : selected ∈ heads as_of_date (scope_records records (domain, subject, field)) := by simp [hheads]
        exact freshness_total (hwf.last_verified_ok selected (mem_heads.mp hhead).1)
      | _ :: _ :: _ => exact ⟨_, rfl⟩
  · exact ⟨_, resolve_current_of_errors hvalidate hwf as_of verify_after_days⟩

theorem resolve_current_returns_of_dates {records : List (Record α)}
    (hdates : ∀ record ∈ records, DateOk record.effective_from ∧ DateOk record.last_verified) {as_of : Str}
    {as_of_date : Date} (hdate : parse_date as_of = .ok (some as_of_date)) (domain subject field : Str)
    (verify_after_days : Int) :
    ∃ result, resolve_current records domain subject field as_of verify_after_days = .ok result := by
  have hscopeDates : ∀ record ∈ scope_records records (domain, subject, field), DateOk record.effective_from :=
    fun record hmem => (hdates record (mem_scope_records.mp hmem).1).1
  obtain ⟨errors, hvalidate⟩ := validate_registry_returns_of_dates hscopeDates
  exact resolve_current_returns hdate hvalidate verify_after_days

/-- On a well-formed scope the answer is that of the unique survivor rule for the
    heads, also when the scope has no record at all. -/
theorem resolve_current_answer {records : List (Record α)} {domain subject field as_of : Str} {as_of_date : Date}
    (hdate : parse_date as_of = .ok (some as_of_date)) (verify_after_days : Int)
    (hwf : WellFormed (scope_records records (domain, subject, field))) :
    ∃ result expected, resolve_current records domain subject field as_of verify_after_days = .ok result ∧
      classify as_of_date verify_after_days (heads as_of_date (scope_records records (domain, subject, field))) =
        .ok expected ∧ result.answer = expected.answer := by
  obtain ⟨result, hrun⟩ := resolve_current_returns hdate (validates_iff_wellFormed.mpr hwf) verify_after_days
  obtain ⟨hempty, rfl⟩ | ⟨hnot, _⟩ | ⟨_, date, hparse, hclassify⟩ := resolve_current_cases hrun
  · rw [hempty]
    exact ⟨_, _, hrun, rfl, rfl⟩
  · exact absurd hwf hnot
  · rw [hdate, Except.ok.injEq, Option.some.injEq] at hparse
    subst date
    exact ⟨result, result, hrun, hclassify, rfl⟩

/-- In a well-formed registry the succession of records has no cycle either. -/
theorem WellFormed.acyclic_succeeds {records : List (Record α)} (hwf : WellFormed records) :
    digraph.Acyclic fun successor predecessor : Record α => successor ∈ records ∧ Succeeds successor predecessor := by
  have hlinked : ∀ successor predecessor : Record α, successor ∈ records → Succeeds successor predecessor →
      ∃ id predecessor_id, successor.id? = some id ∧ predecessor.id? = some predecessor_id ∧
        Linked records id predecessor_id := by
    rintro successor predecessor hmem ⟨predecessor_id, hlink, hpredecessor⟩
    obtain ⟨⟨id, hid⟩, _⟩ := hwf.relation successor hmem predecessor_id hlink
    exact ⟨id, predecessor_id, hid, hpredecessor, successor, hmem, hid, hlink⟩
  have hpath : ∀ first last : Record α,
      Relation.TransGen (fun successor predecessor => successor ∈ records ∧ Succeeds successor predecessor) first last →
      ∃ id last_id, first.id? = some id ∧ last.id? = some last_id ∧ Relation.TransGen (Linked records) id last_id := by
    intro first last hpath
    induction hpath with
    | single hstep =>
      obtain ⟨id, last_id, hid, hlast, hlink⟩ := hlinked _ _ hstep.1 hstep.2
      exact ⟨id, last_id, hid, hlast, .single hlink⟩
    | tail _ hstep ih =>
      obtain ⟨id, middle_id, hid, hmiddle, hpath⟩ := ih
      obtain ⟨middle_id', last_id, hmiddle', hlast, hlink⟩ := hlinked _ _ hstep.1 hstep.2
      rw [hmiddle, Option.some.injEq] at hmiddle'
      subst middle_id'
      exact ⟨id, last_id, hid, hlast, hpath.tail hlink⟩
  intro record hcycle
  obtain ⟨id, last_id, hid, hlast, hpath⟩ := hpath record record hcycle
  rw [hid, Option.some.injEq] at hlast
  subst last_id
  exact hwf.acyclic id hpath

/-- Supersession never removes every decision in force. -/
theorem WellFormed.heads_ne_nil {records : List (Record α)} (hwf : WellFormed records) {as_of_date : Date}
    {record : Record α} (hmem : record ∈ records) (hlive : Live as_of_date record) :
    heads as_of_date records ≠ [] := by
  apply digraph.heads_ne_nil
  · apply hwf.acyclic_succeeds.mono
    rintro successor predecessor ⟨hsuccessor, hsucceeds⟩
    exact ⟨(mem_live.mp hsuccessor).1, hsucceeds⟩
  · exact List.ne_nil_of_mem (mem_live.mpr ⟨hmem, hlive⟩)

theorem state_eq_unknown_iff {result : Resolution α} :
    result.state = Str.ofString "UNKNOWN" ↔ ∃ reason, result = .UNKNOWN reason := by
  cases result <;> simp [Resolution.state] <;> decide

/-- A decision in force keeps a well-formed scope from being UNKNOWN. -/
theorem WellFormed.state_ne_unknown {records : List (Record α)} {domain subject field as_of : Str} {as_of_date : Date}
    {verify_after_days : Int} {record : Record α} {result : Resolution α}
    (hwf : WellFormed (scope_records records (domain, subject, field)))
    (hmem : record ∈ scope_records records (domain, subject, field)) (hlive : Live as_of_date record)
    (hdate : parse_date as_of = .ok (some as_of_date))
    (hrun : resolve_current records domain subject field as_of verify_after_days = .ok result) :
    result.state ≠ Str.ofString "UNKNOWN" := by
  intro hstate
  obtain ⟨reason, rfl⟩ := state_eq_unknown_iff.mp hstate
  rw [resolve_current_of_wellFormed hdate verify_after_days hwf (List.ne_nil_of_mem hmem)] at hrun
  obtain ⟨hnil, _⟩ | ⟨selected, _, hfresh⟩ | ⟨_, hconflict⟩ := classify_cases hrun
  · exact hwf.heads_ne_nil hmem hlive hnil
  · cases freshness_record hfresh
  · cases hconflict

/-- A validated scope has no current decision exactly when it has no decision in
    force: supersession alone never leaves a gap. -/
theorem resolve_current_unknown_iff {records : List (Record α)} {domain subject field as_of : Str}
    {as_of_date : Date} (hvalid : validate_registry (scope_records records (domain, subject, field)) = .ok [])
    (hdate : parse_date as_of = .ok (some as_of_date)) (verify_after_days : Int) :
    (∃ result, resolve_current records domain subject field as_of verify_after_days = .ok result ∧
        result.state = Str.ofString "UNKNOWN") ↔
      ∀ record ∈ records, scope_key record = (domain, subject, field) →
        ¬ (record.StatusIn CURRENT_CAPABLE ∧ EffectiveAt as_of_date record) := by
  have hwf := validates_iff_wellFormed.mp hvalid
  constructor
  · rintro ⟨result, hrun, hstate⟩ record hmem hscope ⟨hcapable, heffective⟩
    have hrecord : record ∈ scope_records records (domain, subject, field) := mem_scope_records.mpr ⟨hmem, hscope⟩
    exact hwf.state_ne_unknown hrecord ⟨hcapable, heffective⟩ hdate hrun hstate
  · intro hnone
    by_cases hempty : scope_records records (domain, subject, field) = []
    · exact ⟨_, by rw [resolve_current, if_pos hempty]; rfl, rfl⟩
    · have hheads : heads as_of_date (scope_records records (domain, subject, field)) = [] := by
        apply List.eq_nil_iff_forall_not_mem.mpr
        intro record hhead
        obtain ⟨hrecord, hlive, _⟩ := mem_heads.mp hhead
        obtain ⟨hmem, hscope⟩ := mem_scope_records.mp hrecord
        exact hnone record hmem hscope ⟨hlive.capable, hlive.effective⟩
      refine ⟨.UNKNOWN "no_current_survivor", ?_, rfl⟩
      rw [resolve_current_of_wellFormed hdate verify_after_days hwf hempty, hheads]
      rfl

/-- Before its first decision takes effect, the sample scope has no current decision. -/
theorem sample_decisions_unknown_before_effect :
    ∃ result, resolve_current sample_decisions "demo" "starter" "price" "2026-07-31" 30 = .ok result ∧
      result.state = Str.ofString "UNKNOWN" :=
  (resolve_current_unknown_iff (by decide +kernel)
    (show parse_date (Str.ofString "2026-07-31") = .ok (some ⟨2026, 7, 31, by decide⟩) by decide +kernel) 30).mpr
    (by decide +kernel)

end context_router.minimal_resolver
