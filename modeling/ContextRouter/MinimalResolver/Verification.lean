import ContextRouter.MinimalResolver.Growth
import ContextRouter.MinimalResolver.Scopes

open python

namespace context_router.minimal_resolver

variable {α β : Type}

/-- A record without its day of verification and its value. -/
def Record.bare (record : Record α) : Record Unit where
  decision_id := record.decision_id
  scope := record.scope
  status := record.status
  effective_from := record.effective_from
  supersedes := record.supersedes
  last_verified := none
  value := none

/-! ### What the two fields do not decide -/

theorem succeeds_bare (successor predecessor : Record α) :
    Succeeds successor.bare predecessor.bare ↔ Succeeds successor predecessor := Iff.rfl

theorem live_bare_iff (as_of_date : Date) (record : Record α) : Live as_of_date record.bare ↔ Live as_of_date record :=
  ⟨fun hlive => ⟨hlive.capable, hlive.effective⟩, fun hlive => ⟨hlive.capable, hlive.effective⟩⟩

theorem supports_bare (predecessor successor : Record α) :
    Supports predecessor.bare successor.bare ↔ Supports predecessor successor :=
  ⟨fun h => ⟨h.authoritative, h.same_scope, h.in_order⟩, fun h => ⟨h.authoritative, h.same_scope, h.in_order⟩⟩

theorem replaces_bare (successor record : Record α) :
    Replaces successor.bare record.bare ↔ Replaces successor record :=
  ⟨fun h => ⟨h.authoritative, h.same_scope, h.succeeds⟩, fun h => ⟨h.authoritative, h.same_scope, h.succeeds⟩⟩

theorem linked_bare (records : List (Record α)) : Linked (records.map Record.bare) = Linked records := by
  funext id predecessor_id
  simp only [Linked, List.mem_map, exists_exists_and_eq_and, eq_iff_iff]
  exact Iff.rfl

/-- A registry is well formed when it is so without the two fields, and each day of
    verification can be read. -/
theorem wellFormed_bare_iff {records : List (Record α)} :
    WellFormed records ↔
      WellFormed (records.map Record.bare) ∧ ∀ record ∈ records, DateOk record.last_verified := by
  have hids : (records.map Record.bare).filterMap Record.id? = records.filterMap Record.id? := by
    rw [List.filterMap_map]
    rfl
  constructor
  · intro hwf
    refine ⟨?_, hwf.last_verified_ok⟩
    refine ⟨?ids_distinct, ?known_status, ?effective_from_ok, ?last_verified_ok, ?relation, ?acyclic, ?replaced⟩
    case ids_distinct => exact hids ▸ hwf.ids_distinct
    case known_status => exact List.forall_mem_map.mpr hwf.known_status
    case effective_from_ok => exact List.forall_mem_map.mpr hwf.effective_from_ok
    case last_verified_ok => exact List.forall_mem_map.mpr fun _ _ => ⟨none, rfl⟩
    case relation =>
      rw [List.forall_mem_map]
      intro record hmem predecessor_id hlink
      obtain ⟨hid, predecessor, hpredecessor, hpredecessorId, hsupports⟩ := hwf.relation record hmem predecessor_id hlink
      exact ⟨hid, predecessor.bare, List.mem_map_of_mem hpredecessor, hpredecessorId,
        (supports_bare predecessor record).mpr hsupports⟩
    case acyclic => exact linked_bare records ▸ hwf.acyclic
    case replaced =>
      rw [List.forall_mem_map]
      intro record hmem hstatus hid
      obtain ⟨successor, hsuccessor, hreplaces⟩ := hwf.replaced record hmem hstatus hid
      exact ⟨successor.bare, List.mem_map_of_mem hsuccessor, (replaces_bare successor record).mpr hreplaces⟩
  · rintro ⟨hbare, hverified⟩
    refine ⟨?ids_distinct, ?known_status, ?effective_from_ok, hverified, ?relation, ?acyclic, ?replaced⟩
    case ids_distinct => exact hids ▸ hbare.ids_distinct
    case known_status => exact fun record hmem => hbare.known_status record.bare (List.mem_map_of_mem hmem)
    case effective_from_ok => exact fun record hmem => hbare.effective_from_ok record.bare (List.mem_map_of_mem hmem)
    case relation =>
      intro record hmem predecessor_id hlink
      obtain ⟨hid, _, hfound, hpredecessorId, hsupports⟩ :=
        hbare.relation record.bare (List.mem_map_of_mem hmem) predecessor_id hlink
      obtain ⟨predecessor, hpredecessor, rfl⟩ := List.mem_map.mp hfound
      exact ⟨hid, predecessor, hpredecessor, hpredecessorId, (supports_bare predecessor record).mp hsupports⟩
    case acyclic => exact linked_bare records ▸ hbare.acyclic
    case replaced =>
      intro record hmem hstatus hid
      obtain ⟨_, hfound, hreplaces⟩ := hbare.replaced record.bare (List.mem_map_of_mem hmem) hstatus hid
      obtain ⟨successor, hsuccessor, rfl⟩ := List.mem_map.mp hfound
      exact ⟨successor, hsuccessor, (replaces_bare successor record).mp hreplaces⟩

theorem scope_records_bare (records : List (Record α)) (scope : Str × Str × Str) :
    scope_records (records.map Record.bare) scope = (scope_records records scope).map Record.bare := by
  rw [scope_records, scope_records, List.filter_map]
  rfl

theorem heads_bare (as_of_date : Date) (records : List (Record α)) :
    heads as_of_date (records.map Record.bare) = (heads as_of_date records).map Record.bare := by
  have hlive : live as_of_date (records.map Record.bare) = (live as_of_date records).map Record.bare := by
    rw [live, live, List.filter_map]
    congr 1
    apply List.filter_congr
    intro record _
    simp only [Function.comp_apply, live_bare_iff]
  rw [heads, heads, hlive, digraph.heads_map succeeds_bare]

/-! ### What they do decide -/

/-- Two results name the same decision, up to its two fields, or come to the same without
    naming one. -/
inductive SameDecision (result : Resolution α) (result' : Resolution β) : Prop
  | selected (record : Record α) (record' : Record β) (hrecord : result.record? = some record)
      (hrecord' : result'.record? = some record') (hbare : record.bare = record'.bare)
  | unselected (hnone : result.record? = none) (hnone' : result'.record? = none) (hstate : result.state = result'.state)
      (hids : result.decision_ids = result'.decision_ids)

/-- Heads with the same relations make the same decision. -/
theorem sameDecision_of_classify {as_of_date : Date} {verify_after_days : Int} {several : List (Record α)}
    {several' : List (Record β)} {result : Resolution α} {result' : Resolution β}
    (hbare : several.map Record.bare = several'.map Record.bare)
    (hrun : classify as_of_date verify_after_days several = .ok result)
    (hrun' : classify as_of_date verify_after_days several' = .ok result') : SameDecision result result' := by
  have hlength : several.length = several'.length := by simpa using congrArg List.length hbare
  have hids : several.map Record.decision_id = several'.map Record.decision_id := by
    have hmapped := congrArg (List.map Record.decision_id) hbare
    rw [List.map_map, List.map_map] at hmapped
    exact hmapped
  obtain ⟨rfl, rfl⟩ | ⟨selected, rfl, hfresh⟩ | ⟨hlong, rfl⟩ := classify_cases hrun
  · obtain rfl := List.eq_nil_of_length_eq_zero hlength.symm
    obtain ⟨_, rfl⟩ | ⟨_, hone, _⟩ | ⟨hlong, _⟩ := classify_cases hrun'
    · exact .unselected rfl rfl rfl rfl
    · cases hone
    · exact absurd hlong (by simp)
  · obtain ⟨selected', rfl⟩ := List.length_eq_one_iff.mp hlength.symm
    obtain ⟨hempty, _⟩ | ⟨actual, hone, hfresh'⟩ | ⟨hlong, _⟩ := classify_cases hrun'
    · cases hempty
    · obtain rfl := List.singleton_inj.mp hone
      exact .selected selected selected' (freshness_record hfresh) (freshness_record hfresh')
        (List.singleton_inj.mp hbare)
    · exact absurd hlong (by simp)
  · rw [hlength] at hlong
    obtain ⟨rfl, _⟩ | ⟨_, rfl, _⟩ | ⟨_, rfl⟩ := classify_cases hrun'
    · exact absurd hlong (by simp)
    · exact absurd hlong (by simp)
    · exact .unselected rfl rfl rfl hids

theorem SameDecision.of_answers {result expected : Resolution α} {result' expected' : Resolution β}
    (hsame : SameDecision expected expected') (hanswer : result.answer = expected.answer)
    (hanswer' : result'.answer = expected'.answer) : SameDecision result result' := by
  simp only [Resolution.answer, Prod.mk.injEq] at hanswer hanswer'
  obtain ⟨hstate, hrecord, _, hids⟩ := hanswer
  obtain ⟨hstate', hrecord', _, hids'⟩ := hanswer'
  cases hsame with
  | selected record record' hselected hselected' hbare =>
    exact .selected record record' (hrecord.trans hselected) (hrecord'.trans hselected') hbare
  | unselected hnone hnone' hsameState hsameIds =>
    refine .unselected (hrecord.trans hnone) (hrecord'.trans hnone') ?_ ?_
    · rw [hstate, hstate', hsameState]
    · rw [hids, hids', hsameIds]

section Resolver

variable {records : List (Record α)} {others : List (Record β)} {domain subject field as_of : Str} {as_of_date : Date}

/-- Well-formed scopes with the same heads, up to the two fields, come to the same
    decision. -/
theorem sameDecision_of_heads (hdate : parse_date as_of = .ok (some as_of_date)) (verify_after_days : Int)
    (hwf : WellFormed (scope_records records (domain, subject, field)))
    (hwf' : WellFormed (scope_records others (domain, subject, field)))
    (hheads : (heads as_of_date (scope_records records (domain, subject, field))).map Record.bare =
      (heads as_of_date (scope_records others (domain, subject, field))).map Record.bare) :
    ∃ result result', resolve_current records domain subject field as_of verify_after_days = .ok result ∧
      resolve_current others domain subject field as_of verify_after_days = .ok result' ∧
      SameDecision result result' := by
  obtain ⟨result, expected, hrun, hclassify, hanswer⟩ := resolve_current_answer hdate verify_after_days hwf
  obtain ⟨result', expected', hrun', hclassify', hanswer'⟩ := resolve_current_answer hdate verify_after_days hwf'
  exact ⟨result, result', hrun, hrun', (sameDecision_of_classify hheads hclassify hclassify').of_answers hanswer hanswer'⟩

theorem decision_ids_of_unselected {verify_after_days : Int} {result : Resolution α}
    (hwf : WellFormed (scope_records records (domain, subject, field)))
    (hdate : parse_date as_of = .ok (some as_of_date))
    (hrun : resolve_current records domain subject field as_of verify_after_days = .ok result)
    (hnone : result.record? = none) :
    result.decision_ids = (heads as_of_date (scope_records records (domain, subject, field))).map Record.decision_id := by
  obtain ⟨hempty, rfl⟩ | ⟨hnot, _⟩ | ⟨_, date, hparse, hclassify⟩ := resolve_current_cases hrun
  · rw [hempty]
    rfl
  · exact absurd hwf hnot
  · rw [hdate, Except.ok.injEq, Option.some.injEq] at hparse
    subst date
    obtain ⟨hempty, rfl⟩ | ⟨_, _, hfresh⟩ | ⟨_, rfl⟩ := classify_cases hclassify
    · rw [hempty]
      rfl
    · rw [freshness_record hfresh] at hnone
      cases hnone
    · rfl

/-- The same decision has heads with the same ids. -/
theorem SameDecision.head_ids_eq {verify_after_days : Int} {result : Resolution α} {result' : Resolution β}
    (hsame : SameDecision result result') (hwf : WellFormed (scope_records records (domain, subject, field)))
    (hwf' : WellFormed (scope_records others (domain, subject, field)))
    (hdate : parse_date as_of = .ok (some as_of_date))
    (hrun : resolve_current records domain subject field as_of verify_after_days = .ok result)
    (hrun' : resolve_current others domain subject field as_of verify_after_days = .ok result') :
    (heads as_of_date (scope_records records (domain, subject, field))).map Record.decision_id =
      (heads as_of_date (scope_records others (domain, subject, field))).map Record.decision_id := by
  cases hsame with
  | selected record record' hrecord hrecord' hbare =>
    rw [(heads_of_selected hdate hrun hrecord).2.1, (heads_of_selected hdate hrun' hrecord').2.1]
    exact congrArg (fun record => [record.decision_id]) hbare
  | unselected hnone hnone' hstate hids =>
    rw [← decision_ids_of_unselected hwf hdate hrun hnone, ← decision_ids_of_unselected hwf' hdate hrun' hnone', hids]

/-- A selection is resolved exactly when the selected record was verified recently
    enough. -/
theorem resolved_iff_of_selected {verify_after_days : Int} {result : Resolution α} {selected : Record α}
    (hdate : parse_date as_of = .ok (some as_of_date))
    (hrun : resolve_current records domain subject field as_of verify_after_days = .ok result)
    (hselected : result.record? = some selected) :
    result.state = Str.ofString "RESOLVED" ↔ VerifiedWithin verify_after_days as_of_date selected := by
  obtain ⟨_, _, hfresh⟩ := heads_of_selected hdate hrun hselected
  obtain ⟨rfl, hverified⟩ | ⟨⟨reason, age_days, rfl⟩, hstale⟩ := freshness_spec hfresh
  · exact iff_of_true rfl hverified
  · refine iff_of_false ?_ hstale
    simp only [Resolution.state]
    decide

/-- Days of verification and values decide nothing but freshness. Two registries whose
    records of a scope differ in these fields only validate alike, when the days can be
    read, and come to the same decision on every day; a selection is then resolved or to
    be verified by its own day alone. -/
theorem verification_decides_freshness_only
    (hbare : (scope_records records (domain, subject, field)).map Record.bare =
      (scope_records others (domain, subject, field)).map Record.bare)
    (hverified : ∀ record ∈ scope_records others (domain, subject, field), DateOk record.last_verified)
    (hvalid : validate_registry (scope_records records (domain, subject, field)) = .ok [])
    (hdate : parse_date as_of = .ok (some as_of_date)) (verify_after_days : Int) :
    validate_registry (scope_records others (domain, subject, field)) = .ok [] ∧
    ∃ result result', resolve_current records domain subject field as_of verify_after_days = .ok result ∧
      resolve_current others domain subject field as_of verify_after_days = .ok result' ∧
      SameDecision result result' ∧
      ∀ selected, result'.record? = some selected →
        (result'.state = Str.ofString "RESOLVED" ↔ VerifiedWithin verify_after_days as_of_date selected) := by
  have hwf := validates_iff_wellFormed.mp hvalid
  have hwf' : WellFormed (scope_records others (domain, subject, field)) :=
    wellFormed_bare_iff.mpr ⟨hbare ▸ (wellFormed_bare_iff.mp hwf).1, hverified⟩
  have hheads : (heads as_of_date (scope_records records (domain, subject, field))).map Record.bare =
      (heads as_of_date (scope_records others (domain, subject, field))).map Record.bare := by
    rw [← heads_bare, ← heads_bare, hbare]
  obtain ⟨result, result', hrun, hrun', hsame⟩ := sameDecision_of_heads hdate verify_after_days hwf hwf' hheads
  refine ⟨validates_iff_wellFormed.mpr hwf', result, result', hrun, hrun', hsame, ?_⟩
  exact fun selected hselected => resolved_iff_of_selected hdate hrun' hselected

end Resolver

/-- The sample registry after a check of all its records in December. -/
def december_decisions : List (Record Nat) :=
  sample_decisions.map fun record => { record with last_verified := some "2026-12-01" }

/-- The check resolves the price that had gone stale. -/
theorem december_price_resolved : ∃ stale fresh,
    resolve_current sample_decisions "demo" "starter" "price" "2026-12-01" 30 = .ok stale ∧
      resolve_current december_decisions "demo" "starter" "price" "2026-12-01" 30 = .ok fresh ∧
      SameDecision stale fresh ∧ stale.state = Str.ofString "VERIFY" ∧ fresh.state = Str.ofString "RESOLVED" := by
  have hdate : parse_date (Str.ofString "2026-12-01") = .ok (some ⟨2026, 12, 1, by decide⟩) := by decide +kernel
  have hstale : ∃ selected ∈ sample_decisions, ∃ age_days ∈ [some (95 : Int)],
      resolve_current sample_decisions "demo" "starter" "price" "2026-12-01" 30 =
        .ok (.VERIFY "stale_selected_record" age_days selected) := by
    decide +kernel
  have hvalid : validate_registry (scope_records sample_decisions ("demo", "starter", "price")) = .ok [] := by
    decide +kernel
  have hverified : ∀ record ∈ scope_records december_decisions ("demo", "starter", "price"),
      DateOk record.last_verified := by
    decide +kernel
  have hchecked : ∀ record ∈ december_decisions, record.last_verified = some (Str.ofString "2026-12-01") := by
    decide +kernel
  obtain ⟨_, _, age_days, _, hrunStale⟩ := hstale
  obtain ⟨_, stale, fresh, hrun, hrun', hsame, hfresh⟩ :=
    verification_decides_freshness_only (by decide +kernel) hverified hvalid hdate 30
  obtain rfl := Except.ok.inj (hrunStale.symm.trans hrun)
  refine ⟨_, fresh, hrunStale, hrun', hsame, rfl, ?_⟩
  cases hsame with
  | unselected hnone => cases hnone
  | selected _ selected' _ hselected' =>
    obtain ⟨_, hheads, _⟩ := heads_of_selected hdate hrun' hselected'
    have hmem := (mem_heads.mp (hheads ▸ List.mem_singleton_self selected')).1
    have hday := hchecked selected' (mem_scope_records.mp hmem).1
    exact (hfresh selected' hselected').mpr ⟨_, hday ▸ hdate, by decide⟩

end context_router.minimal_resolver
