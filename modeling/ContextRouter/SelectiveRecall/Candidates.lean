import ContextRouter.ContextSelection.Plan
import ContextRouter.SelectiveRecall.Loading
import ContextRouter.SelectiveRecall.Selected

open python

namespace context_router.selective_recall

open context_selection

variable {σ α : Type}

/-- The selection of the candidates, handed on to the loader. -/
def recall_selected (repr : Value → Str) (resolution : Value) (candidates : List ContextCandidate)
    (active_conditions : List Str) (loader : Loader σ α) (calls : Calls σ Str (Loaded α)) :
    Except Raised (Recall α) × Calls σ Str (Loaded α) :=
  load_selected_context repr (select_context resolution candidates active_conditions).to_dict loader calls

/-- Both steps take the candidates. -/
structure Recallable (candidates : List ContextCandidate) (active_conditions : List Str) : Prop where
  distinct : (candidates.map ContextCandidate.id).Nodup
  known_tiers : ∀ candidate ∈ candidates, candidate.tier ∈ VALID_TIERS
  named : ∀ candidate ∈ candidates, Included candidate active_conditions → candidate.id ≠ []

/-- What an answer puts into `loaded`. -/
def Loaded.value? : Loaded α → Option α
  | .returned value => some value
  | .raised _ => none

/-- What an answer puts into `failed`. -/
def Loaded.message? : Loaded α → Option Str
  | .returned _ => none
  | .raised message => message

theorem Recallable.validates {candidates : List ContextCandidate} {active_conditions : List Str}
    (hrecallable : Recallable candidates active_conditions) : validate_candidates candidates = [] :=
  validate_candidates_eq_nil_iff.mpr ⟨hrecallable.distinct, hrecallable.known_tiers⟩

/-- The loader never takes a selection that failed. -/
theorem not_selectedPlan_of_data_error (errors : List Str) (items : List Value) :
    ¬ SelectedPlan (Selection.DATA_ERROR errors).to_dict items := by
  have hkeys : Str.ofString "stage" ≠ Str.ofString "state" := by decide
  have hstates : Str.ofString "DATA_ERROR" ≠ Str.ofString "SELECTED" := by decide
  intro hselected
  have hstate := hselected.state
  simp only [Selection.to_dict, Value.get?, lookupItem, if_neg hkeys, if_true, Option.some.injEq, Value.str.injEq]
    at hstate
  exact hstates hstate

theorem load_of_not_selectedPlan {plan_result : Value} (hnot : ∀ items, ¬ SelectedPlan plan_result items)
    (repr : Value → Str) (loader : Loader σ α) (calls : Calls σ Str (Loaded α)) :
    ∃ errors, errors ≠ [] ∧
      load_selected_context repr plan_result loader calls = (.ok (.DATA_ERROR errors), calls) := by
  obtain ⟨items, hselected⟩ | ⟨_, error, herror⟩ := validate_plan_cases repr plan_result
  · exact absurd hselected (hnot items)
  · exact ⟨[error], List.cons_ne_nil error [], load_of_errors herror (List.cons_ne_nil error []) loader calls⟩

/-- Candidates that one of the steps does not take cause no call. -/
theorem recall_of_not_recallable {candidates : List ContextCandidate} {active_conditions : List Str}
    (hbad : ¬ Recallable candidates active_conditions) (repr : Value → Str) (resolution : Value) (loader : Loader σ α)
    (calls : Calls σ Str (Loaded α)) : ∃ errors, errors ≠ [] ∧
      recall_selected repr resolution candidates active_conditions loader calls = (.ok (.DATA_ERROR errors), calls) := by
  by_cases hvalid : validate_candidates candidates = []
  · obtain ⟨hdistinct, htiers⟩ := validate_candidates_eq_nil_iff.mp hvalid
    have hunnamed : ¬ ∀ candidate ∈ candidates, Included candidate active_conditions → candidate.id ≠ [] :=
      fun hnamed => hbad ⟨hdistinct, htiers, hnamed⟩
    push Not at hunnamed
    obtain ⟨candidate, hmem, hincluded, hempty⟩ := hunnamed
    have hplanned := ((isPlan_of_valid hvalid active_conditions).planned_iff candidate hmem).mpr hincluded
    rw [hempty] at hplanned
    rw [recall_selected, select_context_of_valid resolution hvalid]
    exact (selectedPlan_to_dict resolution _ _).load_of_rejected (fun hids => hids.1 [] hplanned rfl) repr loader calls
  · obtain ⟨error, errors, herrors⟩ := List.exists_cons_of_ne_nil hvalid
    rw [recall_selected, select_context, herrors]
    exact load_of_not_selectedPlan (not_selectedPlan_of_data_error _) repr loader calls

/-- Every candidate is accounted for under its own id: an included one by the answer to
    its one call, an excluded one by nothing. -/
def PerCandidate (candidates : List ContextCandidate) (active_conditions : List Str) (made : List (Str × Loaded α))
    (loaded : Dict Str α) (failed : Dict Str Str) : Prop :=
  ∀ candidate ∈ candidates,
    (Included candidate active_conditions → ∃ answer, (candidate.id, answer) ∈ made ∧
      loaded.get? candidate.id = answer.value? ∧ failed.get? candidate.id = answer.message?) ∧
    (¬ Included candidate active_conditions → loaded.get? candidate.id = none ∧ failed.get? candidate.id = none)

/-- One call for an id settles both of its entries. -/
theorem Accounts.entries_of_call {plan : List Str} {made : List (Str × Loaded α)} {loaded : Dict Str α}
    {failed : Dict Str Str} (haccounts : Accounts plan made loaded failed) (hdistinct : (made.map Prod.fst).Nodup)
    {id : Str} {answer : Loaded α} (hcall : (id, answer) ∈ made) :
    loaded.get? id = answer.value? ∧ failed.get? id = answer.message? := by
  have honly : ∀ other, (id, other) ∈ made → other = answer := by
    intro other hother
    exact (Prod.mk.inj (List.inj_on_of_nodup_map hdistinct hother hcall rfl)).2
  constructor
  · apply Option.ext
    intro value
    rw [haccounts.loaded_iff]
    constructor
    · intro hvalue
      rw [← honly _ hvalue]
      rfl
    · intro hvalue
      cases answer with
      | returned value' =>
        obtain rfl := Option.some.inj hvalue
        exact hcall
      | raised message => cases hvalue
  · apply Option.ext
    intro message
    rw [haccounts.failed_iff]
    constructor
    · intro hmessage
      rw [← honly _ hmessage]
      rfl
    · intro hmessage
      cases answer with
      | returned value => cases hmessage
      | raised message' =>
        obtain rfl : message' = some message := hmessage
        exact hcall

theorem Accounts.entries_of_no_call {plan : List Str} {made : List (Str × Loaded α)} {loaded : Dict Str α}
    {failed : Dict Str Str} (haccounts : Accounts plan made loaded failed) {id : Str}
    (hcalls : id ∉ made.map Prod.fst) :
    loaded.get? id = none ∧ failed.get? id = none := by
  have hnone : ∀ answer, (id, answer) ∉ made := fun answer hcall => hcalls (List.mem_map.mpr ⟨_, hcall, rfl⟩)
  constructor
  · apply Option.eq_none_iff_forall_not_mem.mpr
    intro value hvalue
    exact hnone _ ((haccounts.loaded_iff id value).mp hvalue)
  · apply Option.eq_none_iff_forall_not_mem.mpr
    intro message hmessage
    exact hnone _ ((haccounts.failed_iff id message).mp hmessage)

/-- A loader that answers by the id alone gives the same answers at any place. -/
theorem answer_of_replies {loader : Loader σ α} {answer : Str → Loaded α}
    (hstateless : ∀ id state, (loader id state).1 = answer id) {plan : List Str} {state : σ} {id : Str}
    {answer' : Loaded α} (hcall : (id, answer') ∈ replies loader plan state) : answer' = answer id := by
  induction plan generalizing state with
  | nil => cases hcall
  | cons candidate_id rest ih =>
    rw [replies, List.mem_cons] at hcall
    obtain hfirst | hlater := hcall
    · obtain ⟨rfl, rfl⟩ := Prod.mk.inj hfirst
      exact hstateless _ state
    · exact ih hlater

/-- The two steps on candidates that both of them take. -/
theorem recall_of_recallable {candidates : List ContextCandidate} {active_conditions : List Str}
    (hrecallable : Recallable candidates active_conditions) (repr : Value → Str) (resolution : Value) :
    ∃ selected plan plan_result, IsPlan candidates active_conditions selected plan ∧
      SelectedPlan plan_result (plan.map .str) ∧ validate_plan repr plan_result = .ok [] ∧
      ∀ (loader : Loader σ α) (calls : Calls σ Str (Loaded α)),
        recall_selected repr resolution candidates active_conditions loader calls =
          load_selected_context repr plan_result loader calls := by
  have hvalid := hrecallable.validates
  have hisPlan := isPlan_of_valid hvalid active_conditions
  have hselect := select_context_of_valid resolution hvalid active_conditions
  generalize TIER_ORDER.flatMap (selected_ids candidates active_conditions) = plan at hisPlan hselect
  refine ⟨_, plan, _, hisPlan, selectedPlan_to_dict resolution _ plan,
    accepted_of_isPlan hisPlan hrecallable.named repr resolution, ?_⟩
  intro loader calls
  rw [recall_selected, hselect]

/-- Each call of a plan settles the entries of its candidate. -/
theorem Accounts.per_candidate {candidates : List ContextCandidate} {active_conditions : List Str}
    {selected : List (Str × List Str)} {plan : List Str} {made : List (Str × Loaded α)} {loaded : Dict Str α}
    {failed : Dict Str Str} (haccounts : Accounts plan made loaded failed)
    (hisPlan : IsPlan candidates active_conditions selected plan) (hcalls : made.map Prod.fst = plan) :
    PerCandidate candidates active_conditions made loaded failed := by
  subst hcalls
  intro candidate hmem
  constructor
  · intro hincluded
    have hplanned := (hisPlan.planned_iff candidate hmem).mpr hincluded
    obtain ⟨⟨_, answer⟩, hcall, rfl⟩ := List.mem_map.mp hplanned
    exact ⟨answer, hcall, haccounts.entries_of_call hisPlan.distinct hcall⟩
  · intro hexcluded
    apply haccounts.entries_of_no_call
    exact fun hplanned => hexcluded ((hisPlan.planned_iff candidate hmem).mp hplanned)

/-- A loader that answers by the id alone settles each candidate by itself. -/
theorem PerCandidate.entries_of_stateless {candidates : List ContextCandidate} {active_conditions : List Str}
    {loader : Loader σ α} {plan : List Str} {state : σ} {loaded : Dict Str α} {failed : Dict Str Str}
    (hper : PerCandidate candidates active_conditions (replies loader plan state) loaded failed)
    {answer : Str → Loaded α} (hstateless : ∀ id state, (loader id state).1 = answer id)
    {candidate : ContextCandidate} (hmem : candidate ∈ candidates) :
    loaded.get? candidate.id =
        (if Included candidate active_conditions then (answer candidate.id).value? else none) ∧
      failed.get? candidate.id =
        (if Included candidate active_conditions then (answer candidate.id).message? else none) := by
  obtain ⟨hwhenIncluded, hwhenNot⟩ := hper candidate hmem
  by_cases hincluded : Included candidate active_conditions
  · obtain ⟨answer', hcall, hentries⟩ := hwhenIncluded hincluded
    rw [if_pos hincluded, if_pos hincluded, ← answer_of_replies hstateless hcall]
    exact hentries
  · rw [if_neg hincluded, if_neg hincluded]
    exact hwhenNot hincluded

/-- Selection and loading together, for any candidates and any loader. Candidates with a
    repeated id, an unknown tier or an included one without a name cause no call at all.
    All others are asked for in the order of their tiers. Where every exception of the
    loader has a text, each included one is asked for exactly once, and each is accounted
    for under its own id alone; a loader that answers by the id alone gives it the same
    entry whatever the other candidates are. Otherwise the first exception without a text
    ends the run, and nothing is asked for after it. -/
theorem recall_exact (repr : Value → Str) (resolution : Value) (candidates : List ContextCandidate)
    (active_conditions : List Str) (loader : Loader σ α) (calls : Calls σ Str (Loaded α)) :
    (¬ Recallable candidates active_conditions → ∃ errors, errors ≠ [] ∧
      recall_selected repr resolution candidates active_conditions loader calls = (.ok (.DATA_ERROR errors), calls)) ∧
    (Recallable candidates active_conditions → ∃ selected plan,
      IsPlan candidates active_conditions selected plan ∧ (replies loader plan calls.state).map Prod.fst = plan ∧
      (HaveTexts (replies loader plan calls.state) ∧ (∃ loaded failed,
          calls.Made (recall_selected repr resolution candidates active_conditions loader calls).2
            (replies loader plan calls.state) ∧
          (recall_selected repr resolution candidates active_conditions loader calls).1 =
            .ok (.finished plan loaded failed) ∧
          PerCandidate candidates active_conditions (replies loader plan calls.state) loaded failed ∧
          ∀ answer : Str → Loaded α, (∀ id state, (loader id state).1 = answer id) → ∀ candidate ∈ candidates,
            loaded.get? candidate.id =
              (if Included candidate active_conditions then (answer candidate.id).value? else none) ∧
            failed.get? candidate.id =
              (if Included candidate active_conditions then (answer candidate.id).message? else none)) ∨
        ∃ asked id later, replies loader plan calls.state = asked ++ (id, .raised none) :: later ∧ HaveTexts asked ∧
          calls.Made (recall_selected repr resolution candidates active_conditions loader calls).2
            (asked ++ [(id, .raised none)]) ∧
          (recall_selected repr resolution candidates active_conditions loader calls).1 = .error .exception_text)) := by
  refine ⟨fun hbad => recall_of_not_recallable hbad repr resolution loader calls, ?_⟩
  intro hrecallable
  obtain ⟨selected, plan, plan_result, hisPlan, hselected, haccepted, hrecall⟩ :=
    recall_of_recallable hrecallable repr resolution
  have hcalls := replies_ids loader plan calls.state
  rw [hrecall loader calls]
  refine ⟨selected, plan, hisPlan, hcalls, ?_⟩
  obtain htexts | ⟨asked, id, later, hreplies, hasked⟩ := haveTexts_or_first (replies loader plan calls.state)
  · obtain ⟨loaded, failed, hmade, hload, haccounts⟩ := load_accounts hselected haccepted hisPlan.distinct loader htexts
    have hper := haccounts.per_candidate hisPlan hcalls
    exact Or.inl ⟨htexts, loaded, failed, hmade, hload, hper,
      fun answer hstateless candidate hmem => hper.entries_of_stateless hstateless hmem⟩
  · obtain ⟨hmade, hraises⟩ := load_raises hselected haccepted loader hreplies hasked
    exact Or.inr ⟨asked, id, later, hreplies, hasked, hmade, hraises⟩

end context_router.selective_recall
