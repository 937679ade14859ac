import ContextRouter.SelectiveRecall

open python

namespace context_router.selective_recall

variable {σ τ α : Type}

/-- What the two dictionaries say about the calls that were made. -/
structure Accounts (plan : List Str) (made : List (Str × Loaded α)) (loaded : Dict Str α) (failed : Dict Str Str) :
    Prop where
  loaded_order : loaded.keys.Sublist plan
  failed_order : failed.keys.Sublist plan
  split : ∀ id ∈ plan, id ∈ loaded.keys ↔ id ∉ failed.keys
  loaded_iff : ∀ id value, loaded.get? id = some value ↔ (id, .returned value) ∈ made
  failed_iff : ∀ id message, failed.get? id = some message ↔ (id, .raised (some message)) ∈ made

theorem keys_filterMap_sublist {κ β γ : Type} {item? : κ × β → Option (κ × γ)}
    (hkey : ∀ call item, item? call = some item → item.1 = call.1) (made : List (κ × β)) :
    ((made.filterMap item?).map Prod.fst).Sublist (made.map Prod.fst) := by
  induction made with
  | nil => exact List.Sublist.refl []
  | cons call rest ih =>
    cases hitem : item? call with
    | none =>
      rw [List.filterMap_cons_none hitem]
      exact ih.cons call.1
    | some item =>
      rw [List.filterMap_cons_some hitem, List.map_cons, List.map_cons, hkey call item hitem]
      exact ih.cons_cons call.1

theorem loaded_item?_eq_some_iff {call : Str × Loaded α} {id : Str} {value : α} :
    loaded_item? call = some (id, value) ↔ call = (id, .returned value) := by
  obtain ⟨candidate_id, answer⟩ := call
  cases answer <;> simp [loaded_item?]

theorem failed_item?_eq_some_iff {call : Str × Loaded α} {id message : Str} :
    failed_item? call = some (id, message) ↔ call = (id, .raised (some message)) := by
  obtain ⟨candidate_id, answer⟩ := call
  cases answer <;> simp [failed_item?, and_comm]

theorem loaded_item?_key (call : Str × Loaded α) (item : Str × α) (hitem : loaded_item? call = some item) :
    item.1 = call.1 := by
  rw [loaded_item?_eq_some_iff.mp hitem]

theorem failed_item?_key (call : Str × Loaded α) (item : Str × Str) (hitem : failed_item? call = some item) :
    item.1 = call.1 := by
  rw [failed_item?_eq_some_iff.mp hitem]

/-- Dictionaries with one entry a call account for the calls. -/
theorem accounts_of_items {plan : List Str} {made : List (Str × Loaded α)} {loaded : Dict Str α} {failed : Dict Str Str}
    (hplan : made.map Prod.fst = plan) (hdistinct : plan.Nodup) (htexts : HaveTexts made)
    (hloaded : loaded.items = made.filterMap loaded_item?) (hfailed : failed.items = made.filterMap failed_item?) :
    Accounts plan made loaded failed := by
  subst hplan
  have hloadedIff : ∀ id value, loaded.get? id = some value ↔ (id, .returned value) ∈ made := by
    intro id value
    simp only [Dict.get?_eq_some_iff, hloaded, List.mem_filterMap, loaded_item?_eq_some_iff, exists_eq_right]
  have hfailedIff : ∀ id message, failed.get? id = some message ↔ (id, .raised (some message)) ∈ made := by
    intro id message
    simp only [Dict.get?_eq_some_iff, hfailed, List.mem_filterMap, failed_item?_eq_some_iff, exists_eq_right]
  refine ⟨?loaded_order, ?failed_order, ?split, hloadedIff, hfailedIff⟩
  case loaded_order =>
    rw [Dict.keys, hloaded]
    exact keys_filterMap_sublist loaded_item?_key made
  case failed_order =>
    rw [Dict.keys, hfailed]
    exact keys_filterMap_sublist failed_item?_key made
  case split =>
    intro id hid
    obtain ⟨⟨_, answer⟩, hcall, rfl⟩ := List.mem_map.mp hid
    simp only [Dict.mem_keys_iff, hloadedIff, hfailedIff]
    constructor
    · intro ⟨value, hvalue⟩ ⟨message, hmessage⟩
      have hsame := List.inj_on_of_nodup_map hdistinct hvalue hmessage rfl
      cases hsame
    · intro hnot
      cases answer with
      | returned value => exact ⟨value, hcall⟩
      | raised message =>
        cases message with
        | none => exact absurd rfl (htexts _ hcall)
        | some message => exact absurd ⟨message, hcall⟩ hnot

section Load

variable {repr : Value → Str} {plan_result : Value} {plan : List Str}

/-- A load of an accepted plan makes one call for each id and accounts for it, where every
    exception has a text. -/
theorem load_accounts (hselected : SelectedPlan plan_result (plan.map .str))
    (haccepted : validate_plan repr plan_result = .ok []) (hdistinct : plan.Nodup) (loader : Loader σ α)
    {calls : Calls σ Str (Loaded α)} (htexts : HaveTexts (replies loader plan calls.state)) :
    ∃ loaded failed,
      calls.Made (load_selected_context repr plan_result loader calls).2 (replies loader plan calls.state) ∧
      (load_selected_context repr plan_result loader calls).1 = .ok (.finished plan loaded failed) ∧
      Accounts plan (replies loader plan calls.state) loaded failed := by
  obtain ⟨loaded, failed, hrun, hmade, hloaded, hfailed⟩ :=
    load_ids_spec loader hdistinct .empty .empty (by simp) (by simp) htexts
  have haccounts := accounts_of_items (replies_ids loader plan calls.state) hdistinct htexts hloaded hfailed
  refine ⟨loaded, failed, ?_⟩
  simp only [load_selected_context, haccepted, hselected.plan, Option.getD_some, Value.filterMap_str?_map]
  generalize load_ids loader plan .empty .empty calls = run at hrun hmade ⊢
  obtain ⟨result, after⟩ := run
  obtain rfl : result = some (loaded, failed) := hrun
  exact ⟨hmade, rfl, haccounts⟩

/-- The first exception without a text ends the load. -/
theorem load_raises (hselected : SelectedPlan plan_result (plan.map .str))
    (haccepted : validate_plan repr plan_result = .ok []) (loader : Loader σ α) {calls : Calls σ Str (Loaded α)}
    {asked later : List (Str × Loaded α)} {id : Str}
    (hreplies : replies loader plan calls.state = asked ++ (id, .raised none) :: later) (hasked : HaveTexts asked) :
    calls.Made (load_selected_context repr plan_result loader calls).2 (asked ++ [(id, .raised none)]) ∧
      (load_selected_context repr plan_result loader calls).1 = .error .exception_text := by
  obtain ⟨hrun, hmade⟩ := load_ids_raises loader .empty .empty hreplies hasked
  simp only [load_selected_context, haccepted, hselected.plan, Option.getD_some, Value.filterMap_str?_map]
  generalize load_ids loader plan .empty .empty calls = run at hrun hmade ⊢
  obtain ⟨result, after⟩ := run
  obtain rfl : result = none := hrun
  exact ⟨hmade, rfl⟩

theorem haveTexts_of_load (hselected : SelectedPlan plan_result (plan.map .str))
    (haccepted : validate_plan repr plan_result = .ok []) {loader : Loader σ α} {calls : Calls σ Str (Loaded α)}
    {outcome : Recall α} (hload : (load_selected_context repr plan_result loader calls).1 = .ok outcome) :
    HaveTexts (replies loader plan calls.state) := by
  obtain htexts | ⟨asked, id, later, hreplies, hasked⟩ := haveTexts_or_first (replies loader plan calls.state)
  · exact htexts
  · rw [(load_raises hselected haccepted loader hreplies hasked).2] at hload
    cases hload

end Load

theorem state_finished (plan : List Str) (loaded : Dict Str α) (failed : Dict Str Str) :
    ((Recall.finished plan loaded failed).state = Str.ofString "LOADED" ↔ failed.keys = []) ∧
      ((Recall.finished plan loaded failed).state = Str.ofString "PARTIAL" ↔ failed.keys ≠ []) := by
  have hdiffer : Str.ofString "PARTIAL" ≠ Str.ofString "LOADED" := by decide
  simp only [Recall.state]
  by_cases hnone : failed.keys = []
  · simp [hnone, hdiffer.symm]
  · simp [hnone, hdiffer]

/-- An id's entry depends on its own answer alone. -/
theorem Accounts.get?_congr {plan plan' : List Str} {made made' : List (Str × Loaded α)} {loaded loaded' : Dict Str α}
    {failed failed' : Dict Str Str} (haccounts : Accounts plan made loaded failed)
    (haccounts' : Accounts plan' made' loaded' failed') {id : Str}
    (hsame : ∀ answer, (id, answer) ∈ made' ↔ (id, answer) ∈ made) :
    loaded'.get? id = loaded.get? id ∧ failed'.get? id = failed.get? id := by
  constructor
  · apply Option.ext
    intro value
    rw [haccounts'.loaded_iff, haccounts.loaded_iff, hsame]
  · apply Option.ext
    intro message
    rw [haccounts'.failed_iff, haccounts.failed_iff, hsame]

/-- A load of an accepted plan calls the loader once for each id, in the order of the
    plan, and every id ends in the dictionary that its own answer puts it in, exactly when
    every exception of the loader has a text. Another answer for one id then changes the
    entry of no other, exactly when it has one too. -/
theorem bounded_loading_iff {repr : Value → Str} {plan_result : Value}
    (haccepted : validate_plan repr plan_result = .ok []) (loader : Loader σ α) (calls : Calls σ Str (Loaded α)) :
    ∃ plan, SelectedPlan plan_result (plan.map .str) ∧ plan.Nodup ∧
      ((∃ loaded failed,
          calls.Made (load_selected_context repr plan_result loader calls).2 (replies loader plan calls.state) ∧
          (replies loader plan calls.state).map Prod.fst = plan ∧
          (load_selected_context repr plan_result loader calls).1 = .ok (.finished plan loaded failed) ∧
          Accounts plan (replies loader plan calls.state) loaded failed ∧
          ((Recall.finished plan loaded failed).state = Str.ofString "LOADED" ↔ failed.keys = []) ∧
          ((Recall.finished plan loaded failed).state = Str.ofString "PARTIAL" ↔ failed.keys ≠ [])) ↔
        HaveTexts (replies loader plan calls.state)) ∧
      ∀ (τ : Type) (loader' : Loader τ α) (calls' : Calls τ Str (Loaded α)) (changed : Str),
        (∀ id answer, id ≠ changed →
          ((id, answer) ∈ replies loader' plan calls'.state ↔ (id, answer) ∈ replies loader plan calls.state)) →
        ((∃ loaded failed loaded' failed',
            (load_selected_context repr plan_result loader calls).1 = .ok (.finished plan loaded failed) ∧
            (load_selected_context repr plan_result loader' calls').1 = .ok (.finished plan loaded' failed') ∧
            ∀ id, id ≠ changed → loaded'.get? id = loaded.get? id ∧ failed'.get? id = failed.get? id) ↔
          HaveTexts (replies loader plan calls.state) ∧ HaveTexts (replies loader' plan calls'.state)) := by
  obtain ⟨plan, hselected, _, hdistinct⟩ := validate_plan_eq_ok_nil_iff.mp haccepted
  refine ⟨plan, hselected, hdistinct, ⟨?finishes, ?accounts⟩, ?isolated⟩
  case finishes =>
    intro ⟨_, _, _, _, hload, _⟩
    exact haveTexts_of_load hselected haccepted hload
  case accounts =>
    intro htexts
    obtain ⟨loaded, failed, hmade, hload, haccounts⟩ := load_accounts hselected haccepted hdistinct loader htexts
    exact ⟨loaded, failed, hmade, replies_ids loader plan calls.state, hload, haccounts,
      state_finished plan loaded failed⟩
  case isolated =>
    intro τ loader' calls' changed hsame
    constructor
    · intro ⟨_, _, _, _, hload, hload', _⟩
      exact ⟨haveTexts_of_load hselected haccepted hload, haveTexts_of_load hselected haccepted hload'⟩
    · intro ⟨htexts, htexts'⟩
      obtain ⟨loaded, failed, _, hload, haccounts⟩ := load_accounts hselected haccepted hdistinct loader htexts
      obtain ⟨loaded', failed', _, hload', haccounts'⟩ := load_accounts hselected haccepted hdistinct loader' htexts'
      exact ⟨loaded, failed, loaded', failed', hload, hload',
        fun id hid => haccounts.get?_congr haccounts' fun answer => hsame id answer hid⟩

/-- A plan of two documents. -/
def two_documents : Value :=
  .dict [("stage", .str "context_selection"), ("state", .str "SELECTED"),
    ("plan", .tuple [.str "docs/A.md", .str "docs/B.md"])]

/-- The loader finds only the first of them and counts its calls. -/
def only_first : Loader Nat Nat := fun candidate_id count =>
  (if candidate_id = Str.ofString "docs/A.md" then .returned count else .raised (some "not found"), count.succ)

theorem only_first_partial : ∃ plan loaded failed,
    (load_selected_context Value.type_name two_documents only_first ⟨0, []⟩).1 = .ok (.finished plan loaded failed) ∧
      (Recall.finished plan loaded failed).state = Str.ofString "PARTIAL" ∧
      loaded.get? "docs/A.md" = some 0 ∧ failed.get? "docs/B.md" = some (Str.ofString "not found") := by
  have haccepted : validate_plan Value.type_name two_documents = .ok [] := by rfl
  obtain ⟨plan, hselected, _, hiff, _⟩ := bounded_loading_iff haccepted only_first ⟨0, []⟩
  have hitems : plan.map Value.str = [Str.ofString "docs/A.md", Str.ofString "docs/B.md"].map Value.str :=
    Option.some.inj hselected.plan.symm
  obtain rfl := List.map_injective_iff.mpr (fun _ _ => Value.str.inj) hitems
  have hanswers : replies only_first [Str.ofString "docs/A.md", Str.ofString "docs/B.md"] 0 =
      [(Str.ofString "docs/A.md", .returned 0), (Str.ofString "docs/B.md", .raised (some "not found"))] := by
    rfl
  have htexts : HaveTexts (replies only_first [Str.ofString "docs/A.md", Str.ofString "docs/B.md"] 0) := by
    rw [hanswers]
    simp [HaveTexts]
  obtain ⟨loaded, failed, _, _, hload, haccounts, _, hpartial⟩ := hiff.mpr htexts
  have hfailed : failed.get? "docs/B.md" = some (Str.ofString "not found") :=
    (haccounts.failed_iff _ _).mpr (by rw [hanswers]; simp)
  refine ⟨_, loaded, failed, hload, hpartial.mpr ?_, (haccounts.loaded_iff _ _).mpr (by rw [hanswers]; simp), hfailed⟩
  intro hnone
  have hkey := failed.mem_keys_of_get? _ _ hfailed
  simp [hnone] at hkey

/-- The loader raises for the first of them an exception that has no text. -/
def no_text_for_first : Loader Nat Nat := fun candidate_id count =>
  (if candidate_id = Str.ofString "docs/A.md" then .raised none else .returned count, count.succ)

/-- The load raises too. It accounts for neither id and never asks for the second. -/
theorem no_text_ends_load : validate_plan Value.type_name two_documents = .ok [] ∧
    load_selected_context Value.type_name two_documents no_text_for_first ⟨0, []⟩ =
      (.error .exception_text, ⟨1, [(Str.ofString "docs/A.md", .raised none)]⟩) :=
  ⟨rfl, rfl⟩

end context_router.selective_recall
