import ContextRouter.MinimalResolver.Scopes

open python

namespace context_router.minimal_resolver

variable {α : Type}

/-- A SUPERSEDED record of a registry and a record that replaces it. -/
structure ReplacedBy (records : List (Record α)) (record successor : Record α) : Prop where
  superseded : record.status = some SUPERSEDED
  mem : successor ∈ records
  replaces : Replaces successor record

/-- An authoritative record with an id. The replacements of a superseded record stay
    among these. -/
structure Anchored (records : List (Record α)) (record : Record α) : Prop where
  mem : record ∈ records
  authoritative : record.StatusIn AUTHORITATIVE
  has_id : ∃ id, record.id? = some id

section WellFormed

variable {records : List (Record α)} (hwf : WellFormed records)

include hwf

theorem ReplacedBy.anchored {record successor : Record α} (hstep : ReplacedBy records record successor) :
    Anchored records successor := by
  obtain ⟨id, hlink, _⟩ := hstep.replaces.succeeds
  exact ⟨hstep.mem, hstep.replaces.authoritative, (hwf.relation successor hstep.mem id hlink).1⟩

theorem acyclic_replacedBy : digraph.Acyclic (ReplacedBy records) := by
  have hswapped : digraph.Acyclic (Function.swap (ReplacedBy records)) := by
    apply hwf.acyclic_succeeds.mono
    exact fun successor record hstep => ⟨hstep.mem, hstep.replaces.succeeds⟩
  exact hswapped.swap

/-- Replacements of a superseded record end in a record that is LOCKED or ACTIVE. The
    orphan check is local, but since nothing is replaced by itself in the end, the
    last replacement cannot be SUPERSEDED. -/
theorem exists_live_head {record : Record α} (hmem : record ∈ records) (hstatus : record.status = some SUPERSEDED)
    (hid : ∃ id, record.id? = some id) :
    ∃ head ∈ records, head.StatusIn CURRENT_CAPABLE ∧ scope_key head = scope_key record ∧
      Relation.TransGen (ReplacedBy records) record head := by
  obtain ⟨head, hhead, hpath, hend⟩ :=
    (acyclic_replacedBy hwf).reaches_end (fun _ _ hstep => hstep.mem) hmem
  have hstart : Anchored records record := ⟨hmem, ⟨SUPERSEDED, by simp [AUTHORITATIVE], hstatus⟩, hid⟩
  have hreached : Anchored records head ∧ scope_key head = scope_key record := by
    clear hend hhead
    induction hpath with
    | refl => exact ⟨hstart, rfl⟩
    | tail _ hstep ih => exact ⟨hstep.anchored hwf, hstep.replaces.same_scope.trans ih.2⟩
  have hnot : head.status ≠ some SUPERSEDED := by
    intro hsuperseded
    obtain ⟨next, hnext, hreplaces⟩ := hwf.replaced head hhead hsuperseded hreached.1.has_id
    exact hend next ⟨hsuperseded, hnext, hreplaces⟩
  refine ⟨head, hhead, current_capable_of_authoritative hreached.1.authoritative hnot, hreached.2, ?_⟩
  obtain rfl | hsteps := Relation.reflTransGen_iff_eq_or_transGen.mp hpath
  · exact absurd hstatus hnot
  · exact hsteps

end WellFormed

/-- In a registry that validates, every superseded record leads through superseded
    records of its own scope to one that is LOCKED or ACTIVE, and its scope has a
    current state from the day on which that one takes effect. -/
theorem superseded_leads_to_live_head {records : List (Record α)} (hvalid : validate_registry records = .ok [])
    {record : Record α} (hmem : record ∈ records) (hstatus : record.status = some SUPERSEDED)
    (hid : ∃ id, record.id? = some id) :
    ∃ head ∈ records, head.StatusIn CURRENT_CAPABLE ∧ scope_key head = scope_key record ∧
      Relation.TransGen (ReplacedBy records) record head ∧
      ∀ domain subject field as_of as_of_date verify_after_days, scope_key record = (domain, subject, field) →
        parse_date (some as_of) = .ok (some as_of_date) → EffectiveAt as_of_date head →
          ∃ result, resolve_current records domain subject field as_of verify_after_days = .ok result ∧
            result.state ≠ Str.ofString "UNKNOWN" := by
  have hwf := validates_iff_wellFormed.mp hvalid
  obtain ⟨head, hhead, hcapable, hscope, hpath⟩ := exists_live_head hwf hmem hstatus hid
  refine ⟨head, hhead, hcapable, hscope, hpath, ?_⟩
  intro domain subject field as_of as_of_date verify_after_days hkey hdate heffective
  have hscopeWf := hwf.scope (domain, subject, field)
  have hheadMem : head ∈ scope_records records (domain, subject, field) :=
    mem_scope_records.mpr ⟨hhead, hscope.trans hkey⟩
  obtain ⟨result, hrun⟩ := resolve_current_returns hdate (validates_iff_wellFormed.mpr hscopeWf) verify_after_days
  exact ⟨result, hrun, hscopeWf.state_ne_unknown hheadMem ⟨hcapable, heffective⟩ hdate hrun⟩

/-- The superseded price of the sample registry leads to a current one. -/
theorem sample_decisions_lead_to_live_head : ∃ record ∈ sample_decisions, record.status = some SUPERSEDED ∧
    ∃ head ∈ sample_decisions, head.StatusIn CURRENT_CAPABLE ∧
      Relation.TransGen (ReplacedBy sample_decisions) record head := by
  have hrecord : ∃ record ∈ sample_decisions, record.status = some SUPERSEDED ∧
      record.id? = some (Str.ofString "PRICE-001") := by
    decide +kernel
  obtain ⟨record, hmem, hstatus, hid⟩ := hrecord
  obtain ⟨head, hhead, hcapable, _, hpath, _⟩ :=
    superseded_leads_to_live_head (by decide +kernel) hmem hstatus ⟨_, hid⟩
  exact ⟨record, hmem, hstatus, head, hhead, hcapable, hpath⟩

end context_router.minimal_resolver
