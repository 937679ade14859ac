import ContextRouter.Python.Hash
import ContextRouter.Python.Library

open python

namespace context_router.selective_recall

/-- `isinstance(value, (tuple, list))`, with the items. -/
def sequence_items? : Value → Option (List Value)
  | .tuple items => some items
  | .list items => some items
  | _ => none

/-- `isinstance(candidate_id, str) and candidate_id`. -/
def is_candidate_id (value : Value) : Bool :=
  match value.str? with
  | some text => text ≠ []
  | none => false

/-- `_validate_plan`. A value that has no hash makes `set(plan)` raise, whatever the
    check before it has found. The error texts show a value by its `repr`. -/
def validate_plan (repr : Value → Str) (plan_result : Value) : Except TypeError (List Str) :=
  match plan_result with
  | .dict _ =>
    if (plan_result.get? "stage").bind Value.str? ≠ some (Str.ofString "context_selection") then
      .ok [Str.ofString "unexpected stage: " ++ repr ((plan_result.get? "stage").getD .none)]
    else if (plan_result.get? "state").bind Value.str? ≠ some (Str.ofString "SELECTED") then
      .ok [Str.ofString "plan state is not SELECTED: " ++ repr ((plan_result.get? "state").getD .none)]
    else
      match (plan_result.get? "plan").bind sequence_items? with
      | none => .ok [Str.ofString "plan is missing or is not a tuple/list of candidate ids"]
      | some plan => do
        let elements ← set_of plan
        return (if plan.all is_candidate_id then []
            else [Str.ofString "plan contains a non-string or empty candidate id"]) ++
          (if elements.length = plan.length then []
            else [Str.ofString "plan contains a duplicate candidate id"])
  | _ => .ok ["plan_result is not a dict"]

/-- What one call of a loader comes to. For an exception it is the exception's text, which
    is missing where `str(exc)` raises. -/
inductive Loaded (α : Type) where
  | returned (value : α)
  | raised (message : Option Str)

/-- A loader may keep a state and answer each call as it likes. -/
abbrev Loader (σ α : Type) := Str → σ → Loaded α × σ

/-- The result dictionaries. -/
inductive Recall (α : Type) where
  | DATA_ERROR (errors : List Str)
  | finished (plan : List Str) (loaded : Dict Str α) (failed : Dict Str Str)

/-- What a load raises: the error of its validation, or what `str(exc)` raises for an
    exception of the loader. -/
inductive Raised where
  | validation (error : TypeError)
  | exception_text

variable {σ α : Type}

def Recall.state : Recall α → Str
  | .DATA_ERROR _ => "DATA_ERROR"
  | .finished _ _ failed => if failed.keys ≠ [] then "PARTIAL" else "LOADED"

theorem Recall.finished_state_ne (plan : List Str) (loaded : Dict Str α) (failed : Dict Str Str) :
    (Recall.finished plan loaded failed).state ≠ Str.ofString "DATA_ERROR" := by
  simp only [Recall.state]
  split
  · decide
  · decide

/-- The loop over the plan. `str(exc)` stands in the `except` clause, so what it raises
    ends the loop. -/
def load_ids (loader : Loader σ α) : List Str → Dict Str α → Dict Str Str → Calls σ Str (Loaded α) →
    Option (Dict Str α × Dict Str Str) × Calls σ Str (Loaded α)
  | [], loaded, failed, calls => (some (loaded, failed), calls)
  | candidate_id :: rest, loaded, failed, calls =>
    match calls.call loader candidate_id with
    | (.returned value, calls) => load_ids loader rest (loaded.set candidate_id value) failed calls
    | (.raised (some message), calls) => load_ids loader rest loaded (failed.set candidate_id message) calls
    | (.raised none, calls) => (none, calls)

def load_selected_context (repr : Value → Str) (plan_result : Value) (loader : Loader σ α)
    (calls : Calls σ Str (Loaded α)) : Except Raised (Recall α) × Calls σ Str (Loaded α) :=
  match validate_plan repr plan_result with
  | .error error => (.error (.validation error), calls)
  | .ok [] =>
    let plan := (((plan_result.get? "plan").bind sequence_items?).getD []).filterMap Value.str?
    match load_ids loader plan .empty .empty calls with
    | (some (loaded, failed), calls) => (.ok (.finished plan loaded failed), calls)
    | (none, calls) => (.error .exception_text, calls)
  | .ok errors => (.ok (.DATA_ERROR errors), calls)

/-- The entry of `loaded` that a call makes. -/
def loaded_item? : Str × Loaded α → Option (Str × α)
  | (candidate_id, .returned value) => some (candidate_id, value)
  | (_, .raised _) => none

/-- The entry of `failed` that a call makes. -/
def failed_item? : Str × Loaded α → Option (Str × Str)
  | (_, .returned _) => none
  | (candidate_id, .raised message) => message.map fun message => (candidate_id, message)

/-- The answers of a loader that is asked for all ids in order. -/
def replies (loader : Loader σ α) : List Str → σ → List (Str × Loaded α)
  | [], _ => []
  | candidate_id :: rest, state =>
    let answer := loader candidate_id state
    (candidate_id, answer.1) :: replies loader rest answer.2

theorem replies_ids (loader : Loader σ α) (plan : List Str) (state : σ) :
    (replies loader plan state).map Prod.fst = plan := by
  induction plan generalizing state with
  | nil => rfl
  | cons candidate_id rest ih => rw [replies, List.map_cons, ih]

theorem replies_cons (loader : Loader σ α) (candidate_id : Str) (rest : List Str) (calls : Calls σ Str (Loaded α)) :
    replies loader (candidate_id :: rest) calls.state =
      (candidate_id, (calls.call loader candidate_id).1) ::
        replies loader rest (calls.call loader candidate_id).2.state := rfl

/-- Every exception among the answers has a text. -/
def HaveTexts (made : List (Str × Loaded α)) : Prop := ∀ call ∈ made, call.2 ≠ .raised none

theorem haveTexts_of_returns {loader : Loader σ α}
    (hreturns : ∀ id state, ∃ value, (loader id state).1 = .returned value) {plan : List Str} {state : σ} :
    HaveTexts (replies loader plan state) := by
  induction plan generalizing state with
  | nil => exact fun call hcall => absurd hcall List.not_mem_nil
  | cons candidate_id rest ih =>
    obtain ⟨value, hvalue⟩ := hreturns candidate_id state
    rw [replies]
    refine List.forall_mem_cons.mpr ⟨?_, ih⟩
    simp [hvalue]

/-- Answers that do not all have a text divide at the first that has none. -/
theorem haveTexts_or_first (made : List (Str × Loaded α)) :
    HaveTexts made ∨ ∃ asked id later, made = asked ++ (id, .raised none) :: later ∧ HaveTexts asked := by
  induction made with
  | nil => exact Or.inl fun call hcall => absurd hcall List.not_mem_nil
  | cons call rest ih =>
    obtain ⟨id, answer⟩ := call
    by_cases htext : answer = .raised none
    · subst htext
      exact Or.inr ⟨[], id, rest, rfl, fun call hcall => absurd hcall List.not_mem_nil⟩
    · obtain hrest | ⟨asked, last, later, rfl, hasked⟩ := ih
      · exact Or.inl (List.forall_mem_cons.mpr ⟨htext, hrest⟩)
      · exact Or.inr ⟨(id, answer) :: asked, last, later, rfl, List.forall_mem_cons.mpr ⟨htext, hasked⟩⟩

/-- Where every exception has a text the loop asks for every id of the plan, in order, and
    each call adds its entry to one of the two dictionaries. -/
theorem load_ids_spec (loader : Loader σ α) {plan : List Str} (hdistinct : plan.Nodup) (loaded : Dict Str α)
    (failed : Dict Str Str) (hloaded : ∀ id ∈ plan, id ∉ loaded.keys) (hfailed : ∀ id ∈ plan, id ∉ failed.keys)
    {calls : Calls σ Str (Loaded α)} (htexts : HaveTexts (replies loader plan calls.state)) :
    ∃ loaded' failed', (load_ids loader plan loaded failed calls).1 = some (loaded', failed') ∧
      calls.Made (load_ids loader plan loaded failed calls).2 (replies loader plan calls.state) ∧
      loaded'.items = loaded.items ++ (replies loader plan calls.state).filterMap loaded_item? ∧
      failed'.items = failed.items ++ (replies loader plan calls.state).filterMap failed_item? := by
  induction plan generalizing loaded failed calls with
  | nil => exact ⟨loaded, failed, rfl, calls.made_none, by simp [replies], by simp [replies]⟩
  | cons candidate_id rest ih =>
    obtain ⟨hnew, hdistinct⟩ := List.nodup_cons.mp hdistinct
    obtain ⟨hidLoaded, hrestLoaded⟩ := List.forall_mem_cons.mp hloaded
    obtain ⟨hidFailed, hrestFailed⟩ := List.forall_mem_cons.mp hfailed
    have hne : ∀ id ∈ rest, id ≠ candidate_id := fun id hid heq => hnew (heq ▸ hid)
    have hmade := calls.made_call loader candidate_id
    rw [replies_cons] at htexts ⊢
    rw [load_ids]
    generalize calls.call loader candidate_id = answered at hmade htexts ⊢
    obtain ⟨answer, after⟩ := answered
    obtain ⟨htext, htexts⟩ := List.forall_mem_cons.mp htexts
    cases answer with
    | returned value =>
      have hset : ∀ id ∈ rest, id ∉ (loaded.set candidate_id value).keys :=
        fun id hid => Dict.not_mem_keys_set (hne id hid) (hrestLoaded id hid)
      obtain ⟨loaded', failed', hrun, hmore, hloadedItems, hfailedItems⟩ :=
        ih hdistinct (loaded.set candidate_id value) failed hset hrestFailed htexts
      refine ⟨loaded', failed', hrun, hmade.trans hmore, ?_, hfailedItems⟩
      rw [hloadedItems, Dict.items_set_of_not_mem hidLoaded]
      simp [loaded_item?]
    | raised message =>
      cases message with
      | none => exact absurd rfl htext
      | some message =>
        have hset : ∀ id ∈ rest, id ∉ (failed.set candidate_id message).keys :=
          fun id hid => Dict.not_mem_keys_set (hne id hid) (hrestFailed id hid)
        obtain ⟨loaded', failed', hrun, hmore, hloadedItems, hfailedItems⟩ :=
          ih hdistinct loaded (failed.set candidate_id message) hrestLoaded hset htexts
        refine ⟨loaded', failed', hrun, hmade.trans hmore, hloadedItems, ?_⟩
        rw [hfailedItems, Dict.items_set_of_not_mem hidFailed]
        simp [failed_item?]

/-- The first exception without a text ends the loop. -/
theorem load_ids_raises (loader : Loader σ α) {plan : List Str} (loaded : Dict Str α) (failed : Dict Str Str)
    {calls : Calls σ Str (Loaded α)} {asked later : List (Str × Loaded α)} {id : Str}
    (hreplies : replies loader plan calls.state = asked ++ (id, .raised none) :: later) (hasked : HaveTexts asked) :
    (load_ids loader plan loaded failed calls).1 = none ∧
      calls.Made (load_ids loader plan loaded failed calls).2 (asked ++ [(id, .raised none)]) := by
  induction plan generalizing loaded failed calls asked with
  | nil => simp [replies] at hreplies
  | cons candidate_id rest ih =>
    have hmade := calls.made_call loader candidate_id
    rw [replies_cons] at hreplies
    rw [load_ids]
    generalize calls.call loader candidate_id = answered at hmade hreplies ⊢
    obtain ⟨answer, after⟩ := answered
    cases asked with
    | nil =>
      obtain ⟨hfirst, _⟩ := List.cons.inj hreplies
      obtain ⟨rfl, rfl⟩ := Prod.mk.inj hfirst
      exact ⟨rfl, hmade⟩
    | cons call asked =>
      obtain ⟨rfl, hrest⟩ := List.cons.inj hreplies
      obtain ⟨htext, htexts⟩ := List.forall_mem_cons.mp hasked
      cases answer with
      | returned value =>
        obtain ⟨hrun, hmore⟩ := ih (loaded.set candidate_id value) failed hrest htexts
        exact ⟨hrun, hmade.trans hmore⟩
      | raised message =>
        cases message with
        | none => exact absurd rfl htext
        | some message =>
          obtain ⟨hrun, hmore⟩ := ih loaded (failed.set candidate_id message) hrest htexts
          exact ⟨hrun, hmade.trans hmore⟩

/-- The three entries of a plan that is worth checking further. -/
structure SelectedPlan (plan_result : Value) (items : List Value) : Prop where
  is_dict : ∃ entries, plan_result = .dict entries
  stage : plan_result.get? "stage" = some (.str "context_selection")
  state : plan_result.get? "state" = some (.str "SELECTED")
  plan : (plan_result.get? "plan").bind sequence_items? = some items

theorem SelectedPlan.validate_eq {plan_result : Value} {items : List Value} (hselected : SelectedPlan plan_result items)
    (repr : Value → Str) :
    validate_plan repr plan_result = set_of items >>= fun elements => pure (
      (if items.all is_candidate_id then []
        else [Str.ofString "plan contains a non-string or empty candidate id"]) ++
      (if elements.length = items.length then []
        else [Str.ofString "plan contains a duplicate candidate id"])) := by
  obtain ⟨⟨entries, rfl⟩, hstage, hstate, hplan⟩ := hselected
  simp only [validate_plan, hstage, hstate, hplan, Option.bind_some, Value.str?, ne_eq, not_true_eq_false, if_false]

/-- A plan of texts is accepted exactly when they are non-empty and distinct. -/
theorem SelectedPlan.accepted_iff {plan_result : Value} {texts : List Str}
    (hselected : SelectedPlan plan_result (texts.map .str)) (repr : Value → Str) :
    ∃ errors, validate_plan repr plan_result = .ok errors ∧
      (errors = [] ↔ (∀ text ∈ texts, text ≠ []) ∧ texts.Nodup) := by
  obtain ⟨elements, helements, hlength⟩ := set_of_texts texts
  have hids : (texts.map Value.str).all is_candidate_id = true ↔ ∀ text ∈ texts, text ≠ [] := by
    simp [is_candidate_id, Value.str?]
  refine ⟨_, by rw [hselected.validate_eq, helements]; rfl, ?_⟩
  rw [List.append_eq_nil_iff, List.length_map, ← hids, ← hlength]
  simp

theorem is_candidate_id_iff {value : Value} : is_candidate_id value = true ↔ ∃ text, value = .str text ∧ text ≠ [] := by
  cases value <;> simp [is_candidate_id, Value.str?]

theorem exists_texts {items : List Value} (hids : items.all is_candidate_id = true) :
    ∃ texts : List Str, items = texts.map .str ∧ ∀ text ∈ texts, text ≠ [] := by
  induction items with
  | nil => exact ⟨[], rfl, by simp⟩
  | cons item rest ih =>
    rw [List.all_cons, Bool.and_eq_true] at hids
    obtain ⟨texts, rfl, htexts⟩ := ih hids.2
    obtain ⟨text, rfl, hne⟩ := is_candidate_id_iff.mp hids.1
    exact ⟨text :: texts, rfl, List.forall_mem_cons.mpr ⟨hne, htexts⟩⟩

/-- A plan is checked entry by entry only when the three entries are there; anything
    else is one error. -/
theorem validate_plan_cases (repr : Value → Str) (plan_result : Value) :
    (∃ items, SelectedPlan plan_result items) ∨
      (∀ items, ¬ SelectedPlan plan_result items) ∧ ∃ error, validate_plan repr plan_result = .ok [error] := by
  by_cases hselected : ∃ items, SelectedPlan plan_result items
  · exact Or.inl hselected
  · refine Or.inr ⟨not_exists.mp hselected, ?_⟩
    cases plan_result with
    | dict entries =>
      simp only [validate_plan]
      split
      case isTrue => exact ⟨_, rfl⟩
      case isFalse hstage =>
        split
        case isTrue => exact ⟨_, rfl⟩
        case isFalse hstate =>
          split
          case h_1 => exact ⟨_, rfl⟩
          case h_2 items hplan =>
            simp only [ne_eq, not_not, Option.bind_eq_some_iff, Value.str?_eq_some_iff,
              exists_eq_right] at hstage hstate
            exact absurd ⟨items, ⟨entries, rfl⟩, hstage, hstate, hplan⟩ hselected
    | none | bool _ | int _ | float _ | str _ | bytes _ | list _ | tuple _ | object _ => exact ⟨_, rfl⟩

/-- The validator lets exactly the plans of distinct non-empty texts through. -/
theorem validate_plan_eq_ok_nil_iff {repr : Value → Str} {plan_result : Value} :
    validate_plan repr plan_result = .ok [] ↔
      ∃ texts : List Str, SelectedPlan plan_result (texts.map .str) ∧ (∀ text ∈ texts, text ≠ []) ∧ texts.Nodup := by
  constructor
  · intro haccepted
    obtain ⟨items, hselected⟩ | ⟨_, error, herror⟩ := validate_plan_cases repr plan_result
    · have hvalidate := hselected.validate_eq repr
      rw [haccepted, eq_comm, bind_eq_ok_iff] at hvalidate
      obtain ⟨_, _, hchecks⟩ := hvalidate
      rw [pure_eq_ok_iff, List.append_eq_nil_iff] at hchecks
      have hids : items.all is_candidate_id = true := by simpa using hchecks.1
      obtain ⟨texts, rfl, _⟩ := exists_texts hids
      obtain ⟨errors, hok, herrors⟩ := hselected.accepted_iff repr
      rw [haccepted, Except.ok.injEq] at hok
      exact ⟨texts, hselected, herrors.mp hok.symm⟩
    · rw [haccepted] at herror
      cases herror
  · intro ⟨texts, hselected, htexts⟩
    obtain ⟨errors, hok, herrors⟩ := hselected.accepted_iff repr
    rw [hok, herrors.mpr htexts]

theorem load_of_errors {repr : Value → Str} {plan_result : Value} {errors : List Str}
    (hvalidate : validate_plan repr plan_result = .ok errors) (hne : errors ≠ []) (loader : Loader σ α)
    (calls : Calls σ Str (Loaded α)) :
    load_selected_context repr plan_result loader calls = (.ok (.DATA_ERROR errors), calls) := by
  obtain ⟨error, errors, rfl⟩ := List.exists_cons_of_ne_nil hne
  simp only [load_selected_context, hvalidate]

end context_router.selective_recall
