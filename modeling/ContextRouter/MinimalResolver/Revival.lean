import ContextRouter.MinimalResolver.Current

open python

namespace context_router.minimal_resolver

variable {α : Type}

/-- A record with an id that is the only head is the only item in the list of heads,
    since no other position can carry its id. -/
theorem heads_eq_singleton {records : List (Record α)} (hdistinct : (records.filterMap Record.id?).Nodup)
    {as_of_date : Date} {selected : Record α} {id : Str} (hid : selected.id? = some id)
    (hhead : selected ∈ heads as_of_date records) (honly : ∀ other ∈ heads as_of_date records, other = selected) :
    heads as_of_date records = [selected] := by
  obtain ⟨n, hn⟩ : ∃ n, heads as_of_date records = List.replicate n selected :=
    ⟨_, List.eq_replicate_of_mem honly⟩
  have hsub : (heads as_of_date records).Sublist records := List.filter_sublist.trans List.filter_sublist
  have hnodup := hdistinct.sublist (hsub.filterMap Record.id?)
  rw [hn, List.filterMap_replicate_of_some hid, List.nodup_replicate] at hnodup
  have hpos : n ≠ 0 := by
    rintro rfl
    rw [hn] at hhead
    cases hhead
  have hone : n = 1 := by omega
  rw [hn, hone]
  rfl

/-- Where a decision in force has an effective SUPERSEDED successor, it also has a
    successor in force, or the scope has another head. -/
def RevivalGuarded (as_of_date : Date) (records : List (Record α)) : Prop :=
  ∀ record ∈ records, Live as_of_date record →
    ∀ successor ∈ records, successor.status = some SUPERSEDED → EffectiveAt as_of_date successor →
      Succeeds successor record →
        (∃ other ∈ records, Live as_of_date other ∧ Succeeds other record) ∨
          ∃ other ∈ records, other ≠ record ∧ Live as_of_date other ∧
            ∀ third ∈ records, Live as_of_date third → ¬ Succeeds third other

/-- The resolver hands out a decision that an effective authoritative decision has
    replaced exactly when the scope validates and the guard above fails. Only a
    SUPERSEDED successor can be overlooked: one that is LOCKED or ACTIVE takes its
    predecessor out of the survivors. -/
theorem never_revived_iff (records : List (Record α)) (domain subject field as_of : Str) {as_of_date : Date}
    (hdate : parse_date as_of = .ok (some as_of_date)) (verify_after_days : Int) :
    (∀ result selected,
      resolve_current records domain subject field as_of verify_after_days = .ok result →
      result.record? = some selected →
      ∀ other ∈ records, scope_key other = (domain, subject, field) → other.StatusIn AUTHORITATIVE →
        EffectiveAt as_of_date other → ¬ Succeeds other selected) ↔
    (validate_registry (scope_records records (domain, subject, field)) = .ok [] →
      RevivalGuarded as_of_date (scope_records records (domain, subject, field))) := by
  rw [validates_iff_wellFormed]
  constructor
  · intro hnever hwf record hrecord hlive successor hsuccessor hstatus heffective hsucceeds
    by_contra hnot
    push Not at hnot
    obtain ⟨hclear, hothers⟩ := hnot
    have hhead : record ∈ heads as_of_date (scope_records records (domain, subject, field)) :=
      mem_heads.mpr ⟨hrecord, hlive, hclear⟩
    have honly : ∀ other ∈ heads as_of_date (scope_records records (domain, subject, field)), other = record := by
      intro other hother
      obtain ⟨hmem, hotherLive, hotherClear⟩ := mem_heads.mp hother
      by_contra hne
      obtain ⟨third, hthird, hthirdLive, hthirdSucceeds⟩ := hothers other hmem hne hotherLive
      exact hotherClear third hthird hthirdLive hthirdSucceeds
    have ⟨id, _, hid⟩ := hsucceeds
    have hsingle := heads_eq_singleton hwf.ids_distinct hid hhead honly
    obtain ⟨result, hrun, hfresh⟩ := selected_of_heads hdate hwf hsingle verify_after_days
    obtain ⟨hmem, hscope⟩ := mem_scope_records.mp hsuccessor
    exact hnever result record hrun (freshness_record hfresh) successor hmem hscope
      ⟨SUPERSEDED, by simp [AUTHORITATIVE], hstatus⟩ heffective hsucceeds
  · intro hguard result selected hrun hselected other hmem hscope hstatus heffective hsucceeds
    obtain ⟨hwf, hheads, _⟩ := heads_of_selected hdate hrun hselected
    have hhead : selected ∈ heads as_of_date (scope_records records (domain, subject, field)) := by simp [hheads]
    have hother : other ∈ scope_records records (domain, subject, field) := mem_scope_records.mpr ⟨hmem, hscope⟩
    obtain ⟨hselectedMem, hlive, hclear⟩ := mem_heads.mp hhead
    by_cases hsuperseded : other.status = some SUPERSEDED
    · obtain ⟨third, hthird, hthirdLive, hthirdSucceeds⟩ | ⟨third, hthird, hne, hthirdLive, hthirdClear⟩ :=
        hguard hwf selected hselectedMem hlive other hother hsuperseded heffective hsucceeds
      · exact hclear third hthird hthirdLive hthirdSucceeds
      · have hthirdHead : third ∈ heads as_of_date (scope_records records (domain, subject, field)) :=
          mem_heads.mpr ⟨hthird, hthirdLive, hthirdClear⟩
        rw [hheads, List.mem_singleton] at hthirdHead
        exact hne hthirdHead
    · exact hclear other hother ⟨current_capable_of_authoritative hstatus hsuperseded, heffective⟩ hsucceeds

/-- PRICE-002 replaced PRICE-001 on 2026-08-01 and is marked SUPERSEDED because
    PRICE-003 will replace it on 2026-09-01. -/
def revived_decisions : List (Record Nat) :=
  let starter : Scope := ⟨some "demo", some "starter", some "price"⟩
  [⟨some "PRICE-001", starter, some ACTIVE, some "2026-07-01", none, some "2026-08-14", some 100⟩,
    ⟨some "PRICE-002", starter, some SUPERSEDED, some "2026-08-01", some "PRICE-001", some "2026-08-14", some 200⟩,
    ⟨some "PRICE-003", starter, some ACTIVE, some "2026-09-01", some "PRICE-002", some "2026-08-14", some 300⟩]

/-- On 2026-08-15 the resolver hands out PRICE-001, which PRICE-002 has replaced. -/
theorem revived_decisions_select_stale :
    ∃ selected ∈ revived_decisions, ∃ other ∈ revived_decisions,
      resolve_current revived_decisions "demo" "starter" "price" "2026-08-15" 30 = .ok (.RESOLVED selected) ∧
        scope_key other = scope_key selected ∧ other.StatusIn AUTHORITATIVE ∧
        EffectiveAt ⟨2026, 8, 15, by decide⟩ other ∧ Succeeds other selected := by
  decide +kernel

/-- The sample registry meets the guard, so nothing effective has replaced what it
    hands out. -/
theorem sample_decisions_never_revived : ∃ selected ∈ sample_decisions,
    resolve_current sample_decisions "demo" "starter" "price" "2026-08-28" 30 = .ok (.RESOLVED selected) ∧
      ∀ other ∈ sample_decisions, scope_key other = (("demo", "starter", "price") : Str × Str × Str) →
        other.StatusIn AUTHORITATIVE → EffectiveAt ⟨2026, 8, 28, by decide⟩ other → ¬ Succeeds other selected := by
  have hdate : parse_date (Str.ofString "2026-08-28") = .ok (some ⟨2026, 8, 28, by decide⟩) := by decide +kernel
  have hselected : ∃ selected ∈ sample_decisions,
      resolve_current sample_decisions "demo" "starter" "price" "2026-08-28" 30 = .ok (.RESOLVED selected) := by
    decide +kernel
  have hguarded :
      RevivalGuarded ⟨2026, 8, 28, by decide⟩ (scope_records sample_decisions ("demo", "starter", "price")) := by
    unfold RevivalGuarded
    decide +kernel
  obtain ⟨selected, hmem, hrun⟩ := hselected
  have hnever :=
    (never_revived_iff sample_decisions "demo" "starter" "price" "2026-08-28" hdate 30).mpr fun _ => hguarded
  exact ⟨selected, hmem, hrun, hnever (.RESOLVED selected) selected hrun rfl⟩

end context_router.minimal_resolver
