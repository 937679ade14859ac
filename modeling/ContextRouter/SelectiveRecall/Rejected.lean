import ContextRouter.SelectiveRecall

open python

namespace context_router.selective_recall

variable {σ α : Type}

/-- A selected plan of pairwise distinct non-empty texts. -/
def WellFormedPlan (plan_result : Value) : Prop :=
  ∃ texts : List Str, SelectedPlan plan_result (texts.map .str) ∧ (∀ text ∈ texts, text ≠ []) ∧ texts.Nodup

/-- The plan, where there is one to check, holds only values that have a hash. -/
def HashablePlan (plan_result : Value) : Prop := ∀ items, SelectedPlan plan_result items → all_hashable items = true

theorem SelectedPlan.validate_raises {plan_result : Value} {items : List Value}
    (hselected : SelectedPlan plan_result items) (hunhashable : all_hashable items ≠ true) (repr : Value → Str) :
    validate_plan repr plan_result = .error .unhashable := by
  rw [hselected.validate_eq, set_of, if_neg hunhashable, error_bind]

theorem HashablePlan.validate_returns {plan_result : Value} (hhashable : HashablePlan plan_result)
    (repr : Value → Str) :
    ∃ errors, validate_plan repr plan_result = .ok errors := by
  obtain ⟨items, hselected⟩ | ⟨_, error, herror⟩ := validate_plan_cases repr plan_result
  · rw [hselected.validate_eq, set_of, if_pos (hhashable items hselected), ok_bind]
    exact ⟨_, rfl⟩
  · exact ⟨[error], herror⟩

/-- What a load raises after its validation has returned comes from the loader. -/
theorem load_ne_validation {repr : Value → Str} {plan_result : Value} {errors : List Str}
    (hvalidate : validate_plan repr plan_result = .ok errors) (loader : Loader σ α) (calls : Calls σ Str (Loaded α))
    (error : TypeError) : (load_selected_context repr plan_result loader calls).1 ≠ .error (.validation error) := by
  cases errors with
  | nil =>
    simp only [load_selected_context, hvalidate]
    split
    · simp
    · simp
  | cons first errors =>
    rw [load_of_errors hvalidate (List.cons_ne_nil first errors)]
    simp

/-- The validation of a plan returns, and a load rejects what is no well-formed plan
    without any call, exactly when every value of the plan has a hash: the second check
    builds a set of the plan even where the first one has just found that its values are
    no texts. -/
theorem rejects_iff_hashable (repr : Value → Str) (plan_result : Value) :
    ((∃ errors, validate_plan repr plan_result = .ok errors) ∧
      ∀ (σ α : Type) (loader : Loader σ α) (calls : Calls σ Str (Loaded α)),
        (∀ error, (load_selected_context repr plan_result loader calls).1 ≠ .error (.validation error)) ∧
        (¬ WellFormedPlan plan_result → ∃ errors, errors ≠ [] ∧
          load_selected_context repr plan_result loader calls = (.ok (.DATA_ERROR errors), calls))) ↔
    HashablePlan plan_result := by
  constructor
  · intro ⟨⟨errors, hreturns⟩, _⟩ items hselected
    by_contra hunhashable
    rw [hselected.validate_raises hunhashable] at hreturns
    cases hreturns
  · intro hhashable
    obtain ⟨errors, hvalidate⟩ := hhashable.validate_returns repr
    refine ⟨⟨errors, hvalidate⟩, ?_⟩
    intro σ α loader calls
    refine ⟨load_ne_validation hvalidate loader calls, ?_⟩
    intro hmalformed
    have hne : errors ≠ [] := by
      rintro rfl
      exact hmalformed (validate_plan_eq_ok_nil_iff.mp hvalidate)
    exact ⟨errors, hne, load_of_errors hvalidate hne loader calls⟩

/-- The plan is a list that holds a list. -/
def nested_plan : Value :=
  .dict [("stage", .str "context_selection"), ("state", .str "SELECTED"), ("plan", .list [.list [.str "docs/A.md"]])]

/-- It is no well-formed plan, and instead of being rejected it raises. -/
theorem nested_plan_raises : ¬ WellFormedPlan nested_plan ∧
    load_selected_context Value.type_name nested_plan (fun _ count => (.returned (), count + 1))
      (⟨0, []⟩ : Calls Nat Str (Loaded Unit)) = (.error (.validation .unhashable), ⟨0, []⟩) := by
  constructor
  · intro ⟨texts, hselected, _⟩
    have hitems : [Value.list [.str "docs/A.md"]] = texts.map Value.str := Option.some.inj hselected.plan
    cases texts with
    | nil => cases hitems
    | cons text texts => cases hitems
  · rfl

end context_router.selective_recall
