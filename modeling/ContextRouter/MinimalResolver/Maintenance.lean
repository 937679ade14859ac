import ContextRouter.MinimalResolver.Retirement
import ContextRouter.MinimalResolver.Verification

open python

namespace context_router.minimal_resolver

variable {α : Type}

/-! ### Entries that are noticed -/

section Entries

variable {before after : List (Record α)} {record : Record α} {domain subject field as_of : Str} {as_of_date : Date}

/-- A new decision in force is a head, and takes away the one that it supersedes. -/
theorem heads_scope_admitted {scope : Str × Str × Str} (hwf : WellFormed (before ++ after))
    (hadmissible : Admissible (before ++ after) record) (hscope : scope_key record = scope)
    (hlive : Live as_of_date record) :
    (heads as_of_date (scope_records (before ++ record :: after) scope)).Perm
      (record :: (heads as_of_date (scope_records (before ++ after) scope)).filter
        fun predecessor => ¬ Succeeds record predecessor) := by
  have hperm : (live as_of_date (scope_records (before ++ record :: after) scope)).Perm
      (record :: live as_of_date (scope_records (before ++ after) scope)) := by
    rw [scope_records_append_cons before after hscope, scope_records_append, live, live,
      ← List.filter_cons_of_pos (p := fun record => decide (Live as_of_date record)) (by simpa using hlive)]
    exact List.perm_middle.filter _
  obtain ⟨hself, htop⟩ := List.forall_mem_cons.mp (hadmissible.not_succeeded hwf)
  rw [heads, heads, ← digraph.heads_cons hself fun other hother => htop other ?_]
  · exact digraph.heads_perm hperm
  · exact (mem_scope_records.mp (mem_live.mp hother).1).1

/-- A new record leaves the decision of a day as it is exactly when it is not in force on
    that day. One in force is a survivor with a new id, or, without an id, one survivor
    more. -/
theorem admission_unnoticed_iff (hvalid : validate_registry (before ++ after) = .ok [])
    (hadmissible : Admissible (before ++ after) record) (hscope : scope_key record = (domain, subject, field))
    (hdate : parse_date as_of = .ok (some as_of_date)) (verify_after_days : Int) :
    (∃ result result',
      resolve_current (before ++ after) domain subject field as_of verify_after_days = .ok result ∧
      resolve_current (before ++ record :: after) domain subject field as_of verify_after_days = .ok result' ∧
      SameDecision result result') ↔ ¬ Live as_of_date record := by
  have hwf := validates_iff_wellFormed.mp hvalid
  have hwf' : WellFormed (before ++ record :: after) := (hwf.insert hadmissible).perm List.perm_middle.symm
  constructor
  · rintro ⟨result, result', hrun, hrun', hsame⟩ hlive
    have hids := hsame.head_ids_eq (hwf.scope _) (hwf'.scope _) hdate hrun hrun'
    have hperm := heads_scope_admitted hwf hadmissible hscope hlive
    have hnewHead := List.mem_map_of_mem (f := Record.decision_id) (hperm.mem_iff.mpr List.mem_cons_self)
    rw [← hids] at hnewHead
    obtain ⟨other, hother, hsameId⟩ := List.mem_map.mp hnewHead
    have hotherMem := (mem_scope_records.mp (mem_heads.mp hother).1).1
    cases hid : record.id? with
    | some id =>
      apply hadmissible.fresh_id id hid other hotherMem
      rw [← hid, Record.id?, Record.id?, hsameId]
    | none =>
      have hkeeps : ∀ predecessor, ¬ Succeeds record predecessor := by
        rintro predecessor ⟨predecessor_id, hlink, _⟩
        obtain ⟨⟨id, hsome⟩, _⟩ := hadmissible.relation predecessor_id hlink
        rw [hid] at hsome
        cases hsome
      have hlength := congrArg List.length hids
      rw [List.length_map, List.length_map, hperm.length_eq] at hlength
      simp [hkeeps] at hlength
  · intro hquiet
    apply sameDecision_of_heads hdate verify_after_days (hwf.scope _) (hwf'.scope _)
    rw [heads_scope_of_not_live hquiet]

end Entries

theorem next_price_may_be_entered : Admissible sample_decisions next_price := by
  have hvalid : validate_registry sample_decisions = .ok [] := by decide +kernel
  have hentered : validate_registry (next_price :: sample_decisions) = .ok [] := by decide +kernel
  exact (validates_iff_wellFormed.mp hvalid).admissible (validates_iff_wellFormed.mp hentered)

/-- The next price is noticed in September and not before. -/
theorem next_price_noticed_in_september :
    (∃ result result',
      resolve_current sample_decisions "demo" "starter" "price" "2026-08-28" 30 = .ok result ∧
      resolve_current (next_price :: sample_decisions) "demo" "starter" "price" "2026-08-28" 30 = .ok result' ∧
      SameDecision result result') ∧
    ¬ ∃ result result',
      resolve_current sample_decisions "demo" "starter" "price" "2026-09-01" 30 = .ok result ∧
      resolve_current (next_price :: sample_decisions) "demo" "starter" "price" "2026-09-01" 30 = .ok result' ∧
      SameDecision result result' := by
  have hvalid : validate_registry ([] ++ sample_decisions) = .ok [] := by decide +kernel
  have haugust : parse_date (Str.ofString "2026-08-28") = .ok (some ⟨2026, 8, 28, by decide⟩) := by decide +kernel
  have hseptember : parse_date (Str.ofString "2026-09-01") = .ok (some ⟨2026, 9, 1, by decide⟩) := by decide +kernel
  have hscope : scope_key next_price = (Str.ofString "demo", Str.ofString "starter", Str.ofString "price") := by
    decide +kernel
  constructor
  · exact (admission_unnoticed_iff hvalid next_price_may_be_entered hscope haugust 30).mpr (by decide +kernel)
  · have hiff := admission_unnoticed_iff hvalid next_price_may_be_entered hscope hseptember 30
    exact fun hsame => absurd (show Live ⟨2026, 9, 1, by decide⟩ next_price by decide +kernel) (hiff.mp hsame)

/-! ### Runs of maintenance -/

/-- One step of work on a registry that should leave the decisions of a day alone: to
    insert a record or to remove one that is not in force then, to mark a record SUPERSEDED
    that is covered then, or to write down another day of verification or value. -/
inductive Maintains (day : Date) : List (Record α) → List (Record α) → Prop
  | insert (before after : List (Record α)) (record : Record α) (hadmissible : Admissible (before ++ after) record)
      (hquiet : ¬ Live day record) : Maintains day (before ++ after) (before ++ record :: after)
  | remove (before after : List (Record α)) (record : Record α) (hquiet : ¬ Live day record)
      (hunnamed : ∀ other ∈ before ++ after, ¬ Succeeds other record)
      (hspared : ∀ other ∈ before ++ after, other.status = some SUPERSEDED → Succeeds record other →
        ∃ successor ∈ before ++ after, Replaces successor other) :
      Maintains day (before ++ record :: after) (before ++ after)
  | retire (before after : List (Record α)) (record : Record α)
      (hreplaced : ∃ successor ∈ before ++ after, Replaces successor record)
      (hcovered : Live day record → Covered day (scope_records (before ++ after) (scope_key record)) record) :
      Maintains day (before ++ record :: after) (before ++ record.retired :: after)
  | verify (before after : List (Record α)) (record verified : Record α) (hbare : verified.bare = record.bare)
      (hverified : DateOk verified.last_verified) :
      Maintains day (before ++ record :: after) (before ++ verified :: after)

section Steps

variable {before after : List (Record α)} {record : Record α}

/-- A record that no other names may go when each record that only it replaced was not
    SUPERSEDED. -/
theorem WellFormed.remove_unnamed (hwf : WellFormed (before ++ record :: after))
    (hunnamed : ∀ other ∈ before ++ after, ¬ Succeeds other record)
    (hspared : ∀ other ∈ before ++ after, other.status = some SUPERSEDED → Succeeds record other →
      ∃ successor ∈ before ++ after, Replaces successor other) : WellFormed (before ++ after) := by
  have hmem : ∀ other ∈ before ++ record :: after, other = record ∨ other ∈ before ++ after := by
    intro other hother
    rwa [List.perm_middle.mem_iff, List.mem_cons] at hother
  have hsub : (before ++ after).Sublist (before ++ record :: after) :=
    (List.Sublist.refl before).append (List.sublist_cons_self record after)
  apply hwf.keep hsub
  · intro successor hsuccessor predecessor hpredecessor hsucceeds
    obtain rfl | hrest := hmem predecessor hpredecessor
    · exact absurd hsucceeds (hunnamed successor hsuccessor)
    · exact hrest
  · intro other hother hstatus hid
    obtain ⟨successor, hsuccessor, hreplaces⟩ := hwf.replaced other (hsub.subset hother) hstatus hid
    obtain rfl | hrest := hmem successor hsuccessor
    · exact hspared other hother hstatus hreplaces.succeeds
    · exact ⟨successor, hrest, hreplaces⟩

end Steps

namespace Maintains

variable {day : Date} {records maintained : List (Record α)}

/-- A step keeps a registry well formed. -/
theorem wellFormed (hstep : Maintains day records maintained) (hwf : WellFormed records) : WellFormed maintained := by
  cases hstep with
  | insert before after record hadmissible hquiet => exact (hwf.insert hadmissible).perm List.perm_middle.symm
  | remove before after record hquiet hunnamed hspared => exact hwf.remove_unnamed hunnamed hspared
  | retire before after record hreplaced hcovered => exact hwf.retire_replaced hreplaced
  | verify before after record verified hbare hverified =>
    obtain ⟨hwfBare, hdates⟩ := wellFormed_bare_iff.mp hwf
    refine wellFormed_bare_iff.mpr ⟨?_, ?_⟩
    · simpa [hbare] using hwfBare
    · intro other hother
      rw [List.perm_middle.mem_iff, List.mem_cons] at hother
      obtain rfl | hrest := hother
      · exact hverified
      · exact hdates other (List.perm_middle.mem_iff.mpr (List.mem_cons_of_mem record hrest))

/-- A step keeps the heads of every scope, up to the fields that a verification writes. -/
theorem heads_eq (hstep : Maintains day records maintained) (scope : Str × Str × Str) :
    (heads day (scope_records maintained scope)).map Record.bare =
      (heads day (scope_records records scope)).map Record.bare := by
  cases hstep with
  | insert before after record hadmissible hquiet => rw [heads_scope_of_not_live hquiet]
  | remove before after record hquiet hunnamed hspared => rw [heads_scope_of_not_live hquiet]
  | retire before after record hreplaced hcovered =>
    by_cases hscope : scope_key record = scope
    · subst hscope
      rw [heads_scope_of_not_live (not_live_retired record day), heads_scope_of_covered rfl hcovered]
    · rw [scope_records_insert_foreign before after hscope,
        scope_records_insert_foreign before after ((scope_key_retired record).trans_ne hscope)]
  | verify before after record verified hbare hverified =>
    rw [← heads_bare, ← heads_bare, ← scope_records_bare, ← scope_records_bare, List.map_append, List.map_append,
      List.map_cons, List.map_cons, hbare]

end Maintains

/-- Over any run of maintenance, in any order and in any scopes, a registry that validates
    keeps validating, and every scope keeps its decision of the day: the same record, or
    the same conflict or lack of one. Only how fresh the record is may have changed, and
    the day of verification written last decides it. -/
theorem maintenance_keeps_decisions {day : Date} {records maintained : List (Record α)}
    (hrun : Relation.ReflTransGen (Maintains day) records maintained) (hvalid : validate_registry records = .ok [])
    {as_of : Str} (hdate : parse_date as_of = .ok (some day)) (domain subject field : Str) (verify_after_days : Int) :
    validate_registry maintained = .ok [] ∧
    ∃ result result', resolve_current records domain subject field as_of verify_after_days = .ok result ∧
      resolve_current maintained domain subject field as_of verify_after_days = .ok result' ∧
      SameDecision result result' ∧
      ∀ selected, result'.record? = some selected →
        (result'.state = Str.ofString "RESOLVED" ↔ VerifiedWithin verify_after_days day selected) := by
  have hwf := validates_iff_wellFormed.mp hvalid
  have hkept : WellFormed maintained ∧ ∀ scope, (heads day (scope_records maintained scope)).map Record.bare =
      (heads day (scope_records records scope)).map Record.bare := by
    induction hrun with
    | refl => exact ⟨hwf, fun _ => rfl⟩
    | tail _ hstep ih => exact ⟨hstep.wellFormed ih.1, fun scope => (hstep.heads_eq scope).trans (ih.2 scope)⟩
  obtain ⟨hwf', hheads⟩ := hkept
  obtain ⟨result, result', hbefore, hafter, hsame⟩ := sameDecision_of_heads hdate verify_after_days
    (hwf.scope (domain, subject, field)) (hwf'.scope (domain, subject, field)) (hheads _).symm
  refine ⟨validates_iff_wellFormed.mpr hwf', result, result', hbefore, hafter, hsame, ?_⟩
  exact fun selected hselected => resolved_iff_of_selected hdate hafter hselected

/-- The sample registry after the next price was entered and the hypothesis removed, which
    leaves the price of August as it is. -/
theorem next_price_entered_in_august : validate_registry (next_price :: sample_decisions.take 2) = .ok [] ∧
    ∃ result result',
      resolve_current sample_decisions "demo" "starter" "price" "2026-08-28" 30 = .ok result ∧
      resolve_current (next_price :: sample_decisions.take 2) "demo" "starter" "price" "2026-08-28" 30 = .ok result' ∧
      SameDecision result result' := by
  have hdate : parse_date (Str.ofString "2026-08-28") = .ok (some ⟨2026, 8, 28, by decide⟩) := by decide +kernel
  have hvalid : validate_registry sample_decisions = .ok [] := by decide +kernel
  have hinsert : Maintains ⟨2026, 8, 28, by decide⟩ sample_decisions (next_price :: sample_decisions) :=
    .insert [] sample_decisions next_price next_price_may_be_entered (by decide +kernel)
  have hremove : Maintains ⟨2026, 8, 28, by decide⟩ (next_price :: sample_decisions.take 2 ++ sample_decisions.drop 2)
      (next_price :: sample_decisions.take 2 ++ []) := by
    apply Maintains.remove (next_price :: sample_decisions.take 2) []
    · decide +kernel
    · decide +kernel
    · rintro other _ _ ⟨id, hlink, _⟩
      cases hlink
  have hrun := (Relation.ReflTransGen.single hinsert).tail hremove
  obtain ⟨hmaintained, result, result', hbefore, hafter, hsame, _⟩ :=
    maintenance_keeps_decisions hrun hvalid hdate "demo" "starter" "price" 30
  exact ⟨hmaintained, result, result', hbefore, hafter, hsame⟩

end context_router.minimal_resolver
