import ContextRouter.MinimalResolver.Current

open python

namespace context_router.minimal_resolver

variable {α : Type}

/-- A record of a registry and one of its records that it supersedes. -/
def Supersedes (records : List (Record α)) (successor predecessor : Record α) : Prop :=
  successor ∈ records ∧ predecessor ∈ records ∧ Succeeds successor predecessor

/-- A record without `effective_from` supersedes only records that have none either, or
    that take effect on the first day of the calendar. -/
def UndatedLinksOk (records : List (Record α)) : Prop :=
  ∀ successor predecessor, Supersedes records successor predecessor →
    parse_date successor.effective_from = .ok none →
      ∀ date, parse_date predecessor.effective_from = .ok (some date) → date ≤ Date.min

/-- In a well-formed registry a record supports each record that supersedes it. -/
theorem WellFormed.supports {records : List (Record α)} (hwf : WellFormed records) {successor predecessor : Record α}
    (hlink : Supersedes records successor predecessor) : Supports predecessor successor := by
  obtain ⟨hsuccessor, hpredecessor, id, hid, hpredecessorId⟩ := hlink
  obtain ⟨_, named, hnamed, hnamedId, hsupports⟩ := hwf.relation successor hsuccessor id hid
  rw [WellFormed.eq_of_id hwf.ids_distinct hpredecessor hnamed hpredecessorId hnamedId]
  exact hsupports

/-- One link: the timing check orders two dates, and the condition covers a successor
    without one. -/
theorem effective_of_supersedes {records : List (Record α)} (hwf : WellFormed records) (hundated : UndatedLinksOk records)
    {successor predecessor : Record α} (hlink : Supersedes records successor predecessor) {as_of_date : Date}
    (heffective : EffectiveAt as_of_date successor) : EffectiveAt as_of_date predecessor := by
  obtain ⟨before, hbefore⟩ := hwf.effective_from_ok predecessor hlink.2.1
  obtain ⟨after, hafter⟩ := hwf.effective_from_ok successor hlink.1
  unfold EffectiveAt at heffective ⊢
  cases before with
  | none => simp only [hbefore]
  | some before =>
    simp only [hbefore]
    cases after with
    | none => exact (hundated successor predecessor hlink hafter before hbefore).trans (Date.min_le as_of_date)
    | some after =>
      simp only [hafter] at heffective
      exact ((hwf.supports hlink).in_order before after hbefore hafter).trans heffective

/-- No record of a validated scope takes effect before one that it supersedes, directly
    or through others, exactly when no undated record supersedes a dated one: the
    validator compares two dates only where both are given, while the resolver takes a
    missing date for one that has always passed. -/
theorem effective_in_order_iff {records : List (Record α)} {domain subject field : Str}
    (hvalid : validate_registry (scope_records records (domain, subject, field)) = .ok []) :
    (∀ successor predecessor,
      Relation.TransGen (Supersedes (scope_records records (domain, subject, field))) successor predecessor →
        ∀ as_of_date, EffectiveAt as_of_date successor → EffectiveAt as_of_date predecessor) ↔
      UndatedLinksOk (scope_records records (domain, subject, field)) := by
  have hwf := validates_iff_wellFormed.mp hvalid
  constructor
  · intro hordered successor predecessor hlink hundated date hdate
    have heffective : EffectiveAt Date.min successor := by simp only [EffectiveAt, hundated]
    have hpredecessor := hordered successor predecessor (.single hlink) Date.min heffective
    simpa only [EffectiveAt, hdate] using hpredecessor
  · intro hundated successor predecessor hpath as_of_date heffective
    induction hpath with
    | single hlink => exact effective_of_supersedes hwf hundated hlink heffective
    | tail _ hlink ih => exact effective_of_supersedes hwf hundated hlink ih

/-- PRICE-002 gives no date and supersedes PRICE-001, which is for September. -/
def undated_decisions : List (Record Nat) :=
  let starter : Scope := ⟨some "demo", some "starter", some "price"⟩
  [⟨some "PRICE-001", starter, some ACTIVE, some "2026-09-01", none, some "2026-08-14", some 100⟩,
    ⟨some "PRICE-002", starter, some ACTIVE, none, some "PRICE-001", some "2026-08-14", some 200⟩]

/-- The registry validates, and in August the successor alone is effective and handed
    out. -/
theorem undated_successor_effective_first :
    validate_registry (scope_records undated_decisions ("demo", "starter", "price")) = .ok [] ∧
      ∃ successor ∈ undated_decisions, ∃ predecessor ∈ undated_decisions, Succeeds successor predecessor ∧
        EffectiveAt ⟨2026, 8, 15, by decide⟩ successor ∧ ¬ EffectiveAt ⟨2026, 8, 15, by decide⟩ predecessor ∧
        resolve_current undated_decisions "demo" "starter" "price" "2026-08-15" 30 = .ok (.RESOLVED successor) := by
  decide +kernel

theorem sample_decisions_effective_in_order : ∃ successor ∈ sample_decisions, ∃ predecessor ∈ sample_decisions,
    Succeeds successor predecessor ∧
      ∀ as_of_date, EffectiveAt as_of_date successor → EffectiveAt as_of_date predecessor := by
  have hlink : ∃ successor ∈ sample_decisions, ∃ predecessor ∈ sample_decisions, Succeeds successor predecessor ∧
      successor ∈ scope_records sample_decisions ("demo", "starter", "price") ∧
      predecessor ∈ scope_records sample_decisions ("demo", "starter", "price") := by
    decide +kernel
  have hdated : ∀ record ∈ scope_records sample_decisions ("demo", "starter", "price"),
      parse_date record.effective_from ≠ .ok none := by
    decide +kernel
  obtain ⟨successor, hsuccessor, predecessor, hpredecessor, hsucceeds, hsuccessorScope, hpredecessorScope⟩ := hlink
  have hvalid : validate_registry (scope_records sample_decisions ("demo", "starter", "price")) = .ok [] := by
    decide +kernel
  have hordered := (effective_in_order_iff hvalid).mpr
    (fun successor _ hlink hundated => absurd hundated (hdated successor hlink.1))
  exact ⟨successor, hsuccessor, predecessor, hpredecessor, hsucceeds,
    hordered successor predecessor (.single ⟨hsuccessorScope, hpredecessorScope, hsucceeds⟩)⟩

end context_router.minimal_resolver
