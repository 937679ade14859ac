import ContextRouter.MinimalResolver.Admission
import ContextRouter.MinimalResolver.Growth

open python

namespace context_router.minimal_resolver

variable {α : Type}

/-- Another decision in force supersedes the record, and each decision in force that it
    supersedes is superseded by another one as well. -/
structure Covered (as_of_date : Date) (others : List (Record α)) (record : Record α) : Prop where
  succeeded : ∃ successor ∈ live as_of_date others, Succeeds successor record
  shared : ∀ predecessor ∈ live as_of_date others, Succeeds record predecessor →
    ∃ other ∈ live as_of_date others, Succeeds other predecessor

section Lists

variable {before after : List (Record α)} {record : Record α} {as_of_date : Date}

/-- A retired record is not in force. -/
theorem not_live_retired (record : Record α) (as_of_date : Date) : ¬ Live as_of_date record.retired := by
  rintro ⟨⟨status, hmem, hstatus⟩, _⟩
  obtain rfl : SUPERSEDED = status := Option.some.inj hstatus
  exact absurd hmem (by decide)

theorem heads_of_not_live (hnot : ¬ Live as_of_date record) :
    heads as_of_date (before ++ record :: after) = heads as_of_date (before ++ after) := by
  have hlive : live as_of_date (before ++ record :: after) = live as_of_date (before ++ after) := by
    rw [live, live, List.filter_append, List.filter_cons_of_neg (by simpa using hnot), ← List.filter_append]
  rw [heads, heads, hlive]

theorem heads_of_covered (hlive : Live as_of_date record) (hcovered : Covered as_of_date (before ++ after) record) :
    heads as_of_date (before ++ record :: after) = heads as_of_date (before ++ after) := by
  have hlist : live as_of_date (before ++ record :: after) =
      live as_of_date before ++ record :: live as_of_date after := by
    rw [live, live, live, List.filter_append, List.filter_cons_of_pos (by simpa using hlive)]
  have hrest : live as_of_date (before ++ after) = live as_of_date before ++ live as_of_date after :=
    List.filter_append before after
  obtain ⟨hsucceeded, hshared⟩ := hcovered
  rw [hrest] at hsucceeded hshared
  rw [heads, heads, hlist, hrest]
  exact digraph.heads_remove_eq hsucceeded hshared

/-- The heads with the record and without it tell whether it is covered. -/
theorem covered_of_heads (hlive : Live as_of_date record)
    (hold : record ∉ heads as_of_date (before ++ record :: after))
    (hnew : ∀ predecessor, Succeeds record predecessor → predecessor ∉ heads as_of_date (before ++ after))
    (hself : ¬ Succeeds record record) : Covered as_of_date (before ++ after) record := by
  constructor
  · rw [mem_heads] at hold
    push Not at hold
    obtain ⟨successor, hmem, hsuccessorLive, hsucceeds⟩ := hold (by simp) hlive
    rw [List.perm_middle.mem_iff, List.mem_cons] at hmem
    obtain rfl | hrest := hmem
    · exact absurd hsucceeds hself
    · exact ⟨successor, mem_live.mpr ⟨hrest, hsuccessorLive⟩, hsucceeds⟩
  · intro predecessor hpredecessor hsucceeds
    obtain ⟨hmem, hpredecessorLive⟩ := mem_live.mp hpredecessor
    have hnotHead := hnew predecessor hsucceeds
    rw [mem_heads] at hnotHead
    push Not at hnotHead
    obtain ⟨other, hother, hotherLive, hotherSucceeds⟩ := hnotHead hmem hpredecessorLive
    exact ⟨other, mem_live.mpr ⟨hother, hotherLive⟩, hotherSucceeds⟩

end Lists

/-- No other record has the record's id. -/
theorem id_ne_of_distinct {before after : List (Record α)} {record : Record α}
    (hdistinct : ((before ++ record :: after).filterMap Record.id?).Nodup) {id : Str} (hid : record.id? = some id) :
    ∀ other ∈ before ++ after, other.id? ≠ some id := by
  have hperm : ((before ++ record :: after).filterMap Record.id?).Perm
      ((record :: (before ++ after)).filterMap Record.id?) :=
    List.perm_middle.filterMap Record.id?
  rw [hperm.nodup_iff, List.filterMap_cons_some hid, List.nodup_cons] at hdistinct
  intro other hother hotherId
  exact hdistinct.1 (List.mem_filterMap.mpr ⟨other, hother, hotherId⟩)

/-- Registries that give the same answer have heads with the same ids. -/
theorem exists_head_of_same_answer {records records' : List (Record α)} {domain subject field as_of : Str}
    {as_of_date : Date} {verify_after_days : Int} (hdate : parse_date as_of = .ok (some as_of_date))
    (hwf : WellFormed (scope_records records (domain, subject, field)))
    (hsame : resolve_current records domain subject field as_of verify_after_days =
      resolve_current records' domain subject field as_of verify_after_days)
    {head : Record α} (hhead : head ∈ heads as_of_date (scope_records records (domain, subject, field))) :
    ∃ other ∈ heads as_of_date (scope_records records' (domain, subject, field)), other.id? = head.id? := by
  have hne : scope_records records (domain, subject, field) ≠ [] := List.ne_nil_of_mem (mem_heads.mp hhead).1
  obtain ⟨result, hrun⟩ := resolve_current_returns hdate (validates_iff_wellFormed.mpr hwf) verify_after_days
  have hrun' := hsame.symm.trans hrun
  rw [resolve_current_of_wellFormed hdate verify_after_days hwf hne] at hrun
  obtain ⟨hnone, _⟩ | ⟨selected, hheads, hfresh⟩ | ⟨_, rfl⟩ := classify_cases hrun
  · rw [hnone] at hhead
    cases hhead
  · obtain ⟨_, hheads', _⟩ := heads_of_selected hdate hrun' (freshness_record hfresh)
    rw [hheads, List.mem_singleton] at hhead
    exact ⟨selected, by simp [hheads'], by rw [hhead]⟩
  · obtain ⟨_, _, hids⟩ := heads_of_conflict hdate hrun'
    have hid := List.mem_map_of_mem (f := Record.decision_id) hhead
    rw [hids] at hid
    obtain ⟨other, hother, hsameId⟩ := List.mem_map.mp hid
    exact ⟨other, hother, by rw [Record.id?, Record.id?, hsameId]⟩

section Retirement

variable {before after : List (Record α)} {record : Record α} {domain subject field : Str}

theorem scope_key_retired (record : Record α) : scope_key record.retired = scope_key record := rfl

theorem scope_records_append_cons (before after : List (Record α)) {record : Record α} {scope : Str × Str × Str}
    (hscope : scope_key record = scope) :
    scope_records (before ++ record :: after) scope =
      scope_records before scope ++ record :: scope_records after scope := by
  rw [scope_records, scope_records, scope_records, List.filter_append, List.filter_cons_of_pos (by simpa using hscope)]

theorem scope_records_append (before after : List (Record α)) (scope : Str × Str × Str) :
    scope_records (before ++ after) scope = scope_records before scope ++ scope_records after scope :=
  List.filter_append before after

/-- A record with a replacement may be retired: the checks have found it authoritative. -/
theorem WellFormed.retire_replaced (hwf : WellFormed (before ++ record :: after))
    (hreplaced : ∃ successor ∈ before ++ after, Replaces successor record) :
    WellFormed (before ++ record.retired :: after) := by
  obtain ⟨successor, hsuccessor, hreplaces⟩ := hreplaced
  have hstatus := (hwf.supports ⟨List.perm_middle.mem_iff.mpr (List.mem_cons_of_mem _ hsuccessor),
    List.perm_middle.mem_iff.mpr List.mem_cons_self, hreplaces.succeeds⟩).authoritative
  exact hwf.retire hstatus ⟨successor, hsuccessor, hreplaces⟩

theorem wellFormed_scope_retired (hscope : scope_key record = (domain, subject, field))
    (hwf : WellFormed (scope_records (before ++ record :: after) (domain, subject, field)))
    (hreplaced : ∃ successor ∈ before ++ after, Replaces successor record) :
    WellFormed (scope_records (before ++ record.retired :: after) (domain, subject, field)) := by
  obtain ⟨successor, hmem, hreplaces⟩ := hreplaced
  rw [scope_records_append_cons before after hscope] at hwf
  rw [scope_records_append_cons before after ((scope_key_retired record).trans hscope)]
  refine hwf.retire_replaced ⟨successor, ?_, hreplaces⟩
  rw [← scope_records_append]
  exact mem_scope_records.mpr ⟨hmem, hreplaces.same_scope.trans hscope⟩

theorem heads_scope_of_not_live {as_of_date : Date} (hnot : ¬ Live as_of_date record) (scope : Str × Str × Str) :
    heads as_of_date (scope_records (before ++ record :: after) scope) =
      heads as_of_date (scope_records (before ++ after) scope) := by
  by_cases hscope : scope_key record = scope
  · rw [scope_records_append_cons before after hscope, scope_records_append, heads_of_not_live hnot]
  · rw [scope_records_insert_foreign before after hscope]

/-- The record is not missed on a day on which it is not in force or is covered. -/
theorem heads_scope_of_covered {as_of_date : Date} {scope : Str × Str × Str} (hscope : scope_key record = scope)
    (hcovered : Live as_of_date record → Covered as_of_date (scope_records (before ++ after) scope) record) :
    heads as_of_date (scope_records (before ++ record :: after) scope) =
      heads as_of_date (scope_records (before ++ after) scope) := by
  by_cases hlive : Live as_of_date record
  · rw [scope_records_append before after] at hcovered ⊢
    rw [scope_records_append_cons before after hscope]
    exact heads_of_covered hlive (hcovered hlive)
  · exact heads_scope_of_not_live hlive scope

/-- The decisions that are left give the same answer when they cover the record. -/
theorem retire_invisible_of_covered {as_of : Str} {as_of_date : Date}
    (hdate : parse_date as_of = .ok (some as_of_date)) (verify_after_days : Int)
    (hscope : scope_key record = (domain, subject, field))
    (hwf : WellFormed (scope_records (before ++ record :: after) (domain, subject, field)))
    (hreplaced : ∃ successor ∈ before ++ after, Replaces successor record)
    (hcovered : Live as_of_date record →
      Covered as_of_date (scope_records (before ++ after) (domain, subject, field)) record) :
    resolve_current (before ++ record.retired :: after) domain subject field as_of verify_after_days =
      resolve_current (before ++ record :: after) domain subject field as_of verify_after_days := by
  have hretired := wellFormed_scope_retired hscope hwf hreplaced
  have hne : scope_records (before ++ record :: after) (domain, subject, field) ≠ [] := by
    simp [scope_records_append_cons before after hscope]
  have hneRetired : scope_records (before ++ record.retired :: after) (domain, subject, field) ≠ [] := by
    simp [scope_records_append_cons before after ((scope_key_retired record).trans hscope)]
  rw [resolve_current_of_wellFormed hdate verify_after_days hwf hne,
    resolve_current_of_wellFormed hdate verify_after_days hretired hneRetired, heads_scope_of_covered hscope hcovered,
    heads_scope_of_not_live (not_live_retired record as_of_date)]

/-- Marking a replaced record SUPERSEDED changes no answer on a day exactly when the
    record is not in force then or is covered by the decisions that are: with no other
    decision above it the answer loses a record, and a predecessor that only it kept
    down comes back. -/
theorem retire_invisible_iff {as_of : Str} {as_of_date : Date} (hdate : parse_date as_of = .ok (some as_of_date))
    (verify_after_days : Int) (hscope : scope_key record = (domain, subject, field))
    (hvalid : validate_registry (scope_records (before ++ record :: after) (domain, subject, field)) = .ok [])
    (hreplaced : ∃ successor ∈ before ++ after, Replaces successor record) :
    resolve_current (before ++ record.retired :: after) domain subject field as_of verify_after_days =
        resolve_current (before ++ record :: after) domain subject field as_of verify_after_days ↔
      (Live as_of_date record →
        Covered as_of_date (scope_records (before ++ after) (domain, subject, field)) record) := by
  have hwf := validates_iff_wellFormed.mp hvalid
  refine ⟨?_, retire_invisible_of_covered hdate verify_after_days hscope hwf hreplaced⟩
  intro hsame hlive
  have hretired := wellFormed_scope_retired hscope hwf hreplaced
  have hold := scope_records_append_cons before after hscope
  have hmem : record ∈ scope_records (before ++ record :: after) (domain, subject, field) := by simp [hold]
  have hheads : heads as_of_date (scope_records (before ++ record.retired :: after) (domain, subject, field)) =
      heads as_of_date (scope_records (before ++ after) (domain, subject, field)) :=
    heads_scope_of_not_live (not_live_retired record as_of_date) _
  obtain ⟨_, _, _, _, id, _, hid⟩ := hreplaced
  rw [scope_records_append before after] at hheads ⊢
  refine covered_of_heads hlive ?stays ?covers (hwf.not_succeeds_self hmem)
  case stays =>
    intro hhead
    rw [← hold] at hhead
    obtain ⟨other, hother, hsameId⟩ := exists_head_of_same_answer hdate hwf hsame.symm hhead
    rw [hheads] at hother
    have hdistinct := hwf.ids_distinct
    rw [hold] at hdistinct
    exact id_ne_of_distinct hdistinct hid other (mem_live.mp (digraph.mem_heads.mp hother).1).1 (hsameId.trans hid)
  case covers =>
    intro predecessor hsucceeds hhead
    rw [← hheads] at hhead
    obtain ⟨other, hother, hsameId⟩ := exists_head_of_same_answer hdate hretired hsame hhead
    obtain ⟨_, _, hclear⟩ := mem_heads.mp hother
    obtain ⟨predecessor_id, hlink, hpredecessorId⟩ := hsucceeds
    exact hclear record hmem hlive ⟨predecessor_id, hlink, hsameId.trans hpredecessorId⟩

end Retirement

/-- The price that the next one replaces in September. -/
def august_price : Record Nat := sample_decisions.get ⟨1, by decide⟩

theorem august_price_replaced :
    ∃ successor ∈ next_price :: sample_decisions.take 1 ++ sample_decisions.drop 2, Replaces successor august_price := by
  refine ⟨next_price, by simp, ?_, ?_, ?_⟩
  · decide +kernel
  · decide +kernel
  · decide +kernel

/-- In September it may be marked without notice. -/
theorem august_price_retired_unnoticed :
    resolve_current (next_price :: sample_decisions.take 1 ++ august_price.retired :: sample_decisions.drop 2)
        "demo" "starter" "price" "2026-09-01" 30 =
      resolve_current (next_price :: sample_decisions.take 1 ++ august_price :: sample_decisions.drop 2)
        "demo" "starter" "price" "2026-09-01" 30 := by
  have hdate : parse_date (Str.ofString "2026-09-01") = .ok (some ⟨2026, 9, 1, by decide⟩) := by decide +kernel
  have hvalid : validate_registry (scope_records
      (next_price :: sample_decisions.take 1 ++ august_price :: sample_decisions.drop 2) ("demo", "starter", "price")) =
        .ok [] := by
    decide +kernel
  apply (retire_invisible_iff hdate 30 (by decide +kernel) hvalid august_price_replaced).mpr
  intro _
  constructor
  · decide +kernel
  · decide +kernel

/-! ### Runs of retirements -/

end context_router.minimal_resolver
