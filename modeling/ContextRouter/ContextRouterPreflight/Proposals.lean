import ContextRouter.ContextRouterPreflight
import ContextRouter.MinimalResolver.Unapproved

open python

namespace context_router.context_router_preflight

open minimal_resolver source_read_gate

variable {α : Type}

/-- The record has the status that the request asks for, and the writeback gate does not
    send the request to review. -/
structure WrittenBack (request : writeback_gate.WritebackGateRequest) (record : Record α) : Prop where
  passed : (writeback_gate.evaluate (.inl request)).state ≠ Str.ofString "REVIEW_REQUIRED"
  status : ∃ status, record.status = some status ∧ request.requested_status = .str status

/-- A run of writes into a registry, as one scope sees it: AI proposals that the writeback
    gate lets through, at any place and in any scope, and any records of other scopes. -/
inductive Writes (scope : Str × Str × Str) : List (Record α) → List (Record α) → Prop
  | start (records : List (Record α)) : Writes scope records records
  | proposal {records before after : List (Record α)} {request : writeback_gate.WritebackGateRequest}
      {record : Record α} (hwrites : Writes scope records (before ++ after))
      (horigin : request.origin = .str "AI_PROPOSAL") (hwritten : WrittenBack request record) :
      Writes scope records (before ++ record :: after)
  | elsewhere {records before after : List (Record α)} {record : Record α}
      (hwrites : Writes scope records (before ++ after)) (hforeign : scope_key record ≠ scope) :
      Writes scope records (before ++ record :: after)

/-- What an AI proposal writes is not authoritative. -/
theorem WrittenBack.not_authoritative {request : writeback_gate.WritebackGateRequest} {record : Record α}
    (hwritten : WrittenBack request record) (horigin : request.origin = .str "AI_PROPOSAL") :
    ¬ record.StatusIn AUTHORITATIVE := by
  obtain ⟨status, hstatus, hrequested⟩ := hwritten.status
  rw [writeback_gate.ai_proposal_status horigin hwritten.passed, Value.str.injEq] at hrequested
  subst hrequested
  apply not_authoritative_of_unapproved
  exact ⟨PROPOSED, by simp [unapproved_statuses], hstatus⟩

namespace Writes

variable {scope : Str × Str × Str} {records grown : List (Record α)}

/-- The scope keeps its records, and gains none that is authoritative. -/
theorem keeps_scope (hwrites : Writes scope records grown) :
    (scope_records records scope).Sublist (scope_records grown scope) ∧
      ∀ keep : Record α → Bool, (∀ record, keep record → record.StatusIn AUTHORITATIVE) →
        (scope_records grown scope).filter keep = (scope_records records scope).filter keep := by
  induction hwrites with
  | start => exact ⟨List.Sublist.refl _, fun _ _ => rfl⟩
  | @proposal before after request record _ horigin hwritten ih =>
    obtain ⟨hsub, hfilter⟩ := ih
    have hinsert : (before ++ after).Sublist (before ++ record :: after) :=
      (List.Sublist.refl before).append (List.sublist_cons_self record after)
    refine ⟨hsub.trans (hinsert.filter _), ?_⟩
    intro keep hkeep
    have hnot : keep record = false := by
      by_contra hkept
      exact hwritten.not_authoritative horigin (hkeep record (by simpa using hkept))
    rw [← hfilter keep hkeep]
    simp only [scope_records, List.filter_filter]
    simp [hnot]
  | @elsewhere before after record _ hforeign ih =>
    rw [scope_records_insert_foreign before after hforeign]
    exact ih

/-- The decisions in force stay the same. -/
theorem live_eq (hwrites : Writes scope records grown) (as_of_date : Date) :
    live as_of_date (scope_records grown scope) = live as_of_date (scope_records records scope) := by
  apply hwrites.keeps_scope.2
  exact fun record hlive => (of_decide_eq_true hlive).authoritative

/-- If the scope is well formed after the writes, it was before. -/
theorem wellFormed (hwrites : Writes scope records grown) (hwf : WellFormed (scope_records grown scope)) :
    WellFormed (scope_records records scope) := by
  obtain ⟨hsub, hfilter⟩ := hwrites.keeps_scope
  apply hwf.remove_unauthoritative hsub
  intro record hmem hauthoritative
  have hkept : record ∈ (scope_records grown scope).filter fun record => record.StatusIn AUTHORITATIVE := by
    simpa [hauthoritative] using hmem
  rw [hfilter _ fun _ h => of_decide_eq_true h] at hkept
  exact List.mem_of_mem_filter hkept

/-- A run of writes leaves the answer as it was, or leaves an invalid scope. -/
theorem answer {domain subject field as_of : Str} {verify_after_days : Int} {enlarged : Resolution α}
    (hwrites : Writes (domain, subject, field) records grown)
    (hrun : resolve_current grown domain subject field as_of verify_after_days = .ok enlarged) :
    enlarged.state = Str.ofString "DATA_ERROR" ∨ ∃ without,
      resolve_current records domain subject field as_of verify_after_days = .ok without ∧
        enlarged.answer = without.answer := by
  obtain ⟨hempty, rfl⟩ | ⟨_, errors, rfl⟩ | ⟨hwf, as_of_date, hdate, hclassify⟩ := resolve_current_cases hrun
  · have hempty' : scope_records records (domain, subject, field) = [] :=
      List.eq_nil_of_subset_nil (hempty ▸ hwrites.keeps_scope.1.subset)
    exact Or.inr ⟨_, by rw [resolve_current, if_pos hempty']; rfl, rfl⟩
  · exact Or.inl rfl
  · obtain ⟨without, expected, hrun', hclassify', hanswer⟩ :=
      resolve_current_answer hdate verify_after_days (hwrites.wellFormed hwf)
    rw [heads, hwrites.live_eq as_of_date, ← heads, hclassify', Except.ok.injEq] at hclassify
    subst hclassify
    exact Or.inr ⟨without, hrun', hanswer.symm⟩

end Writes

theorem eq_of_resolved_answer {result : Resolution α} {record : Record α}
    (hanswer : (Resolution.RESOLVED record).answer = result.answer) : result = .RESOLVED record := by
  simp only [Resolution.answer, Prod.mk.injEq] at hanswer
  obtain ⟨hstate, hrecord, _, _⟩ := hanswer
  obtain ⟨actual, rfl⟩ := state_eq_resolved_iff.mp (hstate.symm.trans rfl)
  obtain rfl := Option.some.inj hrecord
  rfl

/-- AI proposals never bring work about. Over any run of writes in which the proposals
    pass the writeback gate, mixed with any writes to other scopes, the resolver answers
    for the scope as it did before the run, or finds the scope invalid; and whenever the
    work gate lets work proceed after the run, the same result let it proceed before. -/
theorem proposals_never_proceed {domain subject field : Str} {records grown : List (Record α)}
    (hwrites : Writes (domain, subject, field) records grown) (as_of : Str) (verify_after_days : Int) :
    (∀ enlarged, resolve_current grown domain subject field as_of verify_after_days = .ok enlarged →
      enlarged.state = Str.ofString "DATA_ERROR" ∨ ∃ without,
        resolve_current records domain subject field as_of verify_after_days = .ok without ∧
          enlarged.answer = without.answer) ∧
    ∀ gate_request result (production_trigger permission_trigger : Value),
      resolve_with_source_read_gate gate_request grown domain subject field as_of verify_after_days = .ok result →
      (work_gate.evaluate (.inl ⟨.str result.state, production_trigger, permission_trigger⟩)).state =
        Str.ofString "PROCEED" →
      resolve_with_source_read_gate gate_request records domain subject field as_of verify_after_days = .ok result := by
  refine ⟨fun enlarged hrun => hwrites.answer hrun, ?_⟩
  intro gate_request result production_trigger permission_trigger hrun hproceeds
  have hresolved : result.state = work_gate.DECISION_PROCEED_STATE :=
    Value.str.inj ((work_gate.evaluate_proceed_iff _).mp hproceeds).1
  obtain ⟨hstopped, rfl⟩ | ⟨hpassed, resolution, hresolution, rfl⟩ := resolve_with_source_read_gate_cases hrun
  · exact absurd hresolved (state_ne_resolved_of_not_proceeds hstopped)
  · obtain ⟨record, rfl⟩ := state_eq_resolved_iff.mp hresolved
    obtain hinvalid | ⟨without, hwithout, hanswer⟩ := hwrites.answer hresolution
    · obtain ⟨errors, herrors⟩ := state_eq_data_error_iff.mp hinvalid
      cases herrors
    · obtain rfl := eq_of_resolved_answer hanswer
      unfold resolve_with_source_read_gate
      simp only
      rw [if_neg (not_not.mpr (mem_gate_proceed_states_iff.mpr hpassed)), hwithout]
      rfl

/-- An AI proposal that asks for a record at PROPOSED. -/
def price_proposal : writeback_gate.WritebackGateRequest where
  origin := .str "AI_PROPOSAL"
  requested_status := .str PROPOSED
  important := .bool true

/-- Writing it leaves the sample scope as it answers, or makes it invalid. -/
theorem proposed_price_answers_alike : ∃ enlarged without,
    resolve_current (proposed_price :: sample_decisions) "demo" "starter" "price" "2026-08-28" 30 = .ok enlarged ∧
      resolve_current sample_decisions "demo" "starter" "price" "2026-08-28" 30 = .ok without ∧
      enlarged.answer = without.answer := by
  have hwritten : WrittenBack price_proposal proposed_price := ⟨by decide +kernel, PROPOSED, rfl, rfl⟩
  have hwrites : Writes ("demo", "starter", "price") sample_decisions ([] ++ proposed_price :: sample_decisions) :=
    .proposal (.start sample_decisions) rfl hwritten
  have hrun : ∃ selected ∈ sample_decisions,
      resolve_current (proposed_price :: sample_decisions) "demo" "starter" "price" "2026-08-28" 30 =
        .ok (.RESOLVED selected) := by
    decide +kernel
  obtain ⟨selected, _, hrun⟩ := hrun
  obtain hinvalid | ⟨without, hwithout, hanswer⟩ := (proposals_never_proceed hwrites "2026-08-28" 30).1 _ hrun
  · exact absurd hinvalid (by simp only [Resolution.state]; decide)
  · exact ⟨_, without, hrun, hwithout, hanswer⟩

end context_router.context_router_preflight
