import ContextRouter.Python.Value

open python

namespace context_router.resync_gate

/-- The fields are annotated in the source but not checked when a request is built. -/
structure ResyncGateRequest where
  current_or_latest : Value := .bool false
  continuation : Value := .bool false
  important_confirmation : Value := .bool false
  implementation : Value := .bool false
  publication_or_release : Value := .bool false
  production_change : Value := .bool false
  permission_change : Value := .bool false
  price_spec_version_change : Value := .bool false
  explicit_source_continuation : Value := .bool false

def SIGNAL_FIELDS : List Str :=
  ["current_or_latest", "continuation", "important_confirmation", "implementation", "publication_or_release",
    "production_change", "permission_change", "price_spec_version_change", "explicit_source_continuation"]

/-- `getattr(request, name)` for the names of `SIGNAL_FIELDS`, in their order. -/
def signal_values (request : ResyncGateRequest) : List Value :=
  [request.current_or_latest, request.continuation, request.important_confirmation, request.implementation,
    request.publication_or_release, request.production_change, request.permission_change,
    request.price_spec_version_change, request.explicit_source_continuation]

/-- Each signal field with its value. -/
def signals (request : ResyncGateRequest) : List (Str × Value) := SIGNAL_FIELDS.zip (signal_values request)

/-- The argument may be any value; `.inl` is an instance of `ResyncGateRequest`. -/
def validate_request : ResyncGateRequest ⊕ Value → List Str
  | .inr _ => ["request must be a ResyncGateRequest instance"]
  | .inl request => sorted_set (((signals request).filter fun signal => ¬ signal.2.isBool).map fun signal =>
      signal.1 ++ Str.ofString " must be a bool")

/-- The outcome dictionaries. The first two have the state RESYNC_REQUIRED and are named
    by their `reason`. -/
inductive Outcome where
  | malformed_input (errors : List Str)
  | material_boundary (signals : List Str)
  | NOT_REQUIRED
deriving DecidableEq

def Outcome.state : Outcome → Str
  | .malformed_input _ => "RESYNC_REQUIRED"
  | .material_boundary _ => "RESYNC_REQUIRED"
  | .NOT_REQUIRED => "NOT_REQUIRED"

def evaluate (request : ResyncGateRequest ⊕ Value) : Outcome :=
  match request with
  | .inr _ => .malformed_input (validate_request request)
  | .inl fields =>
    let errors := validate_request request
    if errors ≠ [] then
      .malformed_input errors
    else
      let active := ((signals fields).filter fun signal => signal.2.isTrue).map Prod.fst
      if active ≠ [] then .material_boundary active else .NOT_REQUIRED

/-- Every signal is a flag. -/
def WellFormed (request : ResyncGateRequest) : Prop := ∀ value ∈ signal_values request, value.isBool = true

theorem SIGNAL_FIELDS_nodup : SIGNAL_FIELDS.Nodup := by decide +kernel

theorem signals_fst (request : ResyncGateRequest) : (signals request).map Prod.fst = SIGNAL_FIELDS := rfl

theorem signals_snd (request : ResyncGateRequest) : (signals request).map Prod.snd = signal_values request := rfl

theorem length_signal_values (request : ResyncGateRequest) :
    (signal_values request).length = SIGNAL_FIELDS.length := rfl

theorem signal_values_injective : Function.Injective signal_values := by
  intro request request' hvalues
  cases request
  cases request'
  simpa [signal_values] using hvalues

theorem wellFormed_iff_signals {request : ResyncGateRequest} :
    WellFormed request ↔ ∀ signal ∈ signals request, signal.2.isBool = true := by
  rw [WellFormed, ← signals_snd, List.forall_mem_map]

theorem validate_request_eq_nil_iff {request : ResyncGateRequest} :
    validate_request (.inl request) = [] ↔ WellFormed request := by
  simp [validate_request, wellFormed_iff_signals, List.filter_eq_nil_iff]

/-- The active signals of a request, in the order of their fields. -/
def active_signals (request : ResyncGateRequest) : List Str :=
  ((signals request).filter fun signal => signal.2.isTrue).map Prod.fst

theorem evaluate_of_wellFormed {request : ResyncGateRequest} (hwf : WellFormed request) :
    evaluate (.inl request) =
      if active_signals request ≠ [] then .material_boundary (active_signals request) else .NOT_REQUIRED := by
  simp only [evaluate, validate_request_eq_nil_iff.mpr hwf, ne_eq, not_true_eq_false, if_false]
  rfl

/-- Only a well-formed request without an active signal needs no re-sync. -/
theorem not_required_iff (request : ResyncGateRequest) :
    evaluate (.inl request) = .NOT_REQUIRED ↔ ∀ value ∈ signal_values request, value = .bool false := by
  have hfalse : ∀ value : Value, value = .bool false ↔ value.isBool = true ∧ value.isTrue = false := by
    intro value
    cases value <;> simp [Value.isBool, Value.isTrue]
  simp only [hfalse, forall₂_and]
  by_cases hwf : WellFormed request
  · have hactive : active_signals request = [] ↔ ∀ value ∈ signal_values request, value.isTrue = false := by
      rw [← signals_snd, List.forall_mem_map]
      simp [active_signals, List.filter_eq_nil_iff]
    rw [evaluate_of_wellFormed hwf, ← hactive]
    by_cases hnone : active_signals request = []
    · simpa [hnone, WellFormed] using hwf
    · simp [hnone]
  · have herrors : validate_request (.inl request) ≠ [] := mt validate_request_eq_nil_iff.mp hwf
    have hmalformed : evaluate (.inl request) = .malformed_input (validate_request (.inl request)) := by
      simp only [evaluate, if_pos herrors]
    simp only [hmalformed, reduceCtorEq, false_iff, not_and]
    exact fun h => absurd h hwf

theorem mem_signals {request : ResyncGateRequest} {i : Nat} {name : Str} {value : Value}
    (hname : SIGNAL_FIELDS[i]? = some name) (hvalue : (signal_values request)[i]? = some value) :
    (name, value) ∈ signals request :=
  List.mem_iff_getElem?.mpr ⟨i, List.getElem?_zip_eq_some.mpr ⟨hname, hvalue⟩⟩

/-- A name is reported exactly when its own field is active. -/
theorem mem_active_signals {request : ResyncGateRequest} {name : Str} {value : Value}
    (hsignal : (name, value) ∈ signals request) : name ∈ active_signals request ↔ value.isTrue = true := by
  have hdistinct : ((signals request).map Prod.fst).Nodup := by
    rw [signals_fst]
    exact SIGNAL_FIELDS_nodup
  constructor
  · intro hactive
    obtain ⟨⟨_, other⟩, hother, rfl⟩ := List.mem_map.mp hactive
    obtain ⟨hmem, htrue⟩ := List.mem_filter.mp hother
    have hsame := List.inj_on_of_nodup_map hdistinct hmem hsignal rfl
    rw [← (Prod.mk.inj hsame).2]
    exact htrue
  · intro htrue
    exact List.mem_map.mpr ⟨_, List.mem_filter.mpr ⟨hsignal, htrue⟩, rfl⟩

theorem active_signals_of_evaluate {request request' : ResyncGateRequest} (hwf : WellFormed request)
    (hwf' : WellFormed request') (heq : evaluate (.inl request) = evaluate (.inl request')) :
    active_signals request = active_signals request' := by
  rw [evaluate_of_wellFormed hwf, evaluate_of_wellFormed hwf'] at heq
  split at heq
  case isTrue =>
    split at heq
    case isTrue => exact Outcome.material_boundary.inj heq
    case isFalse => cases heq
  case isFalse hnone =>
    split at heq
    case isTrue => cases heq
    case isFalse hnone' => rw [not_not.mp hnone, not_not.mp hnone']

/-- The outcome of a well-formed request tells all of its fields: no signal is lost or
    taken for another. -/
theorem evaluate_injective {request request' : ResyncGateRequest} (hwf : WellFormed request)
    (hwf' : WellFormed request') (heq : evaluate (.inl request) = evaluate (.inl request')) : request = request' := by
  have hactive := active_signals_of_evaluate hwf hwf' heq
  apply signal_values_injective
  apply List.ext_getElem (by rw [length_signal_values, length_signal_values])
  intro i hi hi'
  have hvalue := List.getElem?_eq_getElem hi
  have hvalue' := List.getElem?_eq_getElem hi'
  have hflag := Value.isBool_iff.mp (hwf _ (List.getElem_mem hi))
  have hflag' := Value.isBool_iff.mp (hwf' _ (List.getElem_mem hi'))
  rw [length_signal_values] at hi
  have hname := List.getElem?_eq_getElem hi
  rw [hflag, hflag', Value.bool.injEq, Bool.eq_iff_iff, ← mem_active_signals (mem_signals hname hvalue),
    ← mem_active_signals (mem_signals hname hvalue'), hactive]

/-- A price change is reported beside a release, in the order of the fields. -/
example : evaluate (.inl { price_spec_version_change := .bool true, publication_or_release := .bool true }) =
    .material_boundary ["publication_or_release", "price_spec_version_change"] := by
  decide +kernel

end context_router.resync_gate
