import ContextRouter.ContextSelection.Plan
import ContextRouter.SelectiveRecall.Loading

open python

namespace context_router.selective_recall

open context_selection

variable {σ α : Type}

/-- What the planner returns has the entries that the loader looks for. -/
theorem selectedPlan_to_dict (resolution : Value) (selected : List (Str × List Str)) (plan : List Str) :
    SelectedPlan (Selection.SELECTED resolution selected plan).to_dict (plan.map .str) := by
  have hstate : Str.ofString "stage" ≠ Str.ofString "state" := by decide
  have hplan : ∀ key ∈ [Str.ofString "stage", "state", "resolution", "selected"], key ≠ Str.ofString "plan" := by decide
  simp only [List.forall_mem_cons] at hplan
  obtain ⟨hstage, hstatePlan, hresolution, hselected, _⟩ := hplan
  refine ⟨⟨_, rfl⟩, ?_, ?_, ?_⟩
  · simp only [Selection.to_dict, Value.get?, lookupItem, if_true]
  · simp only [Selection.to_dict, Value.get?, lookupItem, if_neg hstate, if_true]
  · simp only [Selection.to_dict, Value.get?, lookupItem, if_neg hstage, if_neg hstatePlan, if_neg hresolution,
      if_neg hselected, if_true, Option.bind_some, sequence_items?]

theorem SelectedPlan.load_of_rejected {plan_result : Value} {texts : List Str}
    (hselected : SelectedPlan plan_result (texts.map .str)) (hbad : ¬ ((∀ text ∈ texts, text ≠ []) ∧ texts.Nodup))
    (repr : Value → Str) (loader : Loader σ α) (calls : Calls σ Str (Loaded α)) :
    ∃ errors, errors ≠ [] ∧
      load_selected_context repr plan_result loader calls = (.ok (.DATA_ERROR errors), calls) := by
  obtain ⟨errors, hvalidate, herrors⟩ := hselected.accepted_iff repr
  have hne : errors ≠ [] := mt herrors.mp hbad
  exact ⟨errors, hne, load_of_errors hvalidate hne loader calls⟩

/-- The plan of a selection is accepted when every included candidate has a name. -/
theorem accepted_of_isPlan {candidates : List ContextCandidate} {active_conditions : List Str}
    {selected : List (Str × List Str)} {plan : List Str} (hplan : IsPlan candidates active_conditions selected plan)
    (hnamed : ∀ candidate ∈ candidates, Included candidate active_conditions → candidate.id ≠ []) (repr : Value → Str)
    (resolution : Value) : validate_plan repr (Selection.SELECTED resolution selected plan).to_dict = .ok [] := by
  refine validate_plan_eq_ok_nil_iff.mpr ⟨plan, selectedPlan_to_dict resolution selected plan, ?_, hplan.distinct⟩
  intro id hid
  obtain ⟨candidate, hmem, rfl⟩ := hplan.only_candidates id hid
  exact hnamed candidate hmem ((hplan.planned_iff candidate hmem).mp hid)

/-- A loader whose exceptions have a text takes every selection exactly when no candidate
    is selected under the empty id: the planner checks ids only for repetitions, the loader
    also rejects a whole plan for one empty id. -/
theorem selection_loads_iff (repr : Value → Str) (resolution : Value) (candidates : List ContextCandidate)
    (active_conditions : List Str) :
    (∀ resolution' selected plan,
      select_context resolution candidates active_conditions = .SELECTED resolution' selected plan →
      ∀ (σ α : Type) (loader : Loader σ α) (calls : Calls σ Str (Loaded α)),
        HaveTexts (replies loader plan calls.state) →
        ∃ made outcome,
          calls.Made (load_selected_context repr
            (select_context resolution candidates active_conditions).to_dict loader calls).2 made ∧
          (load_selected_context repr
            (select_context resolution candidates active_conditions).to_dict loader calls).1 = .ok outcome ∧
          outcome.state ≠ Str.ofString "DATA_ERROR" ∧ ∀ candidate_id ∈ plan, candidate_id ∈ made.map Prod.fst) ↔
    ((candidates.map ContextCandidate.id).Nodup → (∀ candidate ∈ candidates, candidate.tier ∈ VALID_TIERS) →
      ∀ candidate ∈ candidates, Included candidate active_conditions → candidate.id ≠ []) := by
  constructor
  · intro haccepted hdistinct htiers candidate hmem hincluded hempty
    have hvalid := validate_candidates_eq_nil_iff.mpr ⟨hdistinct, htiers⟩
    have hselect := select_context_of_valid resolution hvalid active_conditions
    have hplanned := ((isPlan_of_valid hvalid active_conditions).planned_iff candidate hmem).mpr hincluded
    rw [hempty] at hplanned
    have hbad : ¬ ((∀ text ∈ TIER_ORDER.flatMap (selected_ids candidates active_conditions), text ≠ []) ∧
        (TIER_ORDER.flatMap (selected_ids candidates active_conditions)).Nodup) :=
      fun hids => hids.1 [] hplanned rfl
    let loader : Loader Unit Unit := fun _ _ => (.returned (), ())
    obtain ⟨errors, _, hload⟩ := (selectedPlan_to_dict resolution _ _).load_of_rejected hbad repr loader ⟨(), []⟩
    have htexts : HaveTexts (replies loader (TIER_ORDER.flatMap (selected_ids candidates active_conditions)) ()) :=
      haveTexts_of_returns fun _ _ => ⟨(), rfl⟩
    obtain ⟨made, outcome, _, houtcome, hstate, _⟩ := haccepted _ _ _ hselect Unit Unit loader ⟨(), []⟩ htexts
    rw [hselect, hload, Except.ok.injEq] at houtcome
    subst houtcome
    exact hstate rfl
  · intro hids resolution' selected plan hselect σ α loader calls htexts
    obtain ⟨hvalid, _⟩ := valid_of_selected hselect
    obtain ⟨hdistinct, htiers⟩ := validate_candidates_eq_nil_iff.mp hvalid
    obtain ⟨_, hplan⟩ := isPlan_of_selected hselect
    have haccepted := accepted_of_isPlan hplan (hids hdistinct htiers) repr resolution'
    rw [hselect]
    obtain ⟨loaded, failed, hmade, hload, _⟩ :=
      load_accounts (selectedPlan_to_dict resolution' selected plan) haccepted hplan.distinct loader htexts
    refine ⟨replies loader plan calls.state, _, hmade, hload, Recall.finished_state_ne _ _ _, ?_⟩
    intro candidate_id hmem
    rw [replies_ids]
    exact hmem

/-- Two relevant candidates, one of them without a name. -/
def unnamed_candidates : List ContextCandidate :=
  [{ id := "", tier := HOT, relevant := true }, { id := "docs/A.md", tier := HOT, relevant := true }]

/-- The planner selects both, and the loader is called for neither. -/
theorem unnamed_candidate_rejects_plan : ∃ selected plan errors,
    select_context .none unnamed_candidates [] = .SELECTED .none selected plan ∧ Str.ofString "docs/A.md" ∈ plan ∧
      load_selected_context Value.type_name (select_context .none unnamed_candidates []).to_dict
        (fun _ count => (.returned (), count + 1)) (⟨0, []⟩ : Calls Nat Str (Loaded Unit)) =
          (.ok (.DATA_ERROR errors), ⟨0, []⟩) := by
  have hvalid : validate_candidates unnamed_candidates = [] := by decide +kernel
  have hplan : TIER_ORDER.flatMap (selected_ids unnamed_candidates []) = [[], Str.ofString "docs/A.md"] := by
    decide +kernel
  have hselect := select_context_of_valid .none hvalid []
  rw [hplan] at hselect
  have hbad : ¬ ((∀ text ∈ [[], Str.ofString "docs/A.md"], text ≠ []) ∧ [[], Str.ofString "docs/A.md"].Nodup) := by simp
  obtain ⟨errors, _, hload⟩ := (selectedPlan_to_dict .none _ _).load_of_rejected hbad Value.type_name
    (fun _ count => (.returned (), count + 1)) (⟨0, []⟩ : Calls Nat Str (Loaded Unit))
  exact ⟨_, _, errors, hselect, by simp, by rw [hselect, hload]⟩

end context_router.selective_recall
