import ContextRouter.Python.Value

open python

namespace context_router.context_selection

def HOT : Str := "HOT"
def WARM : Str := "WARM"
def COLD : Str := "COLD"

def VALID_TIERS : List Str := [HOT, WARM, COLD]

/-- The order in which the plan is put together. -/
def TIER_ORDER : List Str := [HOT, WARM, COLD]

structure ContextCandidate where
  id : Str
  tier : Str
  relevant : Bool := false
  condition : Option Str := none
  explicit_source : Bool := false
  explicitly_required : Bool := false
deriving DecidableEq, Repr

/-- The loop of `validate_candidates`. -/
def check_candidates (seen_ids : List Str) : List ContextCandidate → List Str
  | [] => []
  | candidate :: rest =>
    (if candidate.id ∈ seen_ids then [Str.ofString "duplicate candidate id: " ++ candidate.id] else []) ++
      (if candidate.tier ∈ VALID_TIERS then []
        else [Str.ofString "unknown tier for " ++ candidate.id ++ Str.ofString ": " ++ candidate.tier]) ++
      check_candidates (candidate.id :: seen_ids) rest

def validate_candidates (candidates : List ContextCandidate) : List Str :=
  sorted_set (check_candidates [] candidates)

/-- `_include`. -/
def include_candidate (candidate : ContextCandidate) (active_conditions : List Str) : Bool :=
  if candidate.explicit_source then true
  else if candidate.tier = HOT then candidate.relevant
  else if candidate.tier = WARM then candidate.condition.any fun condition => condition ∈ active_conditions
  else candidate.explicitly_required

/-- The ids that are selected for one tier. -/
def selected_ids (candidates : List ContextCandidate) (active_conditions : List Str) (tier : Str) : List Str :=
  (candidates.filter fun candidate =>
    candidate.tier = tier ∧ include_candidate candidate active_conditions).map ContextCandidate.id

/-- The result dictionaries of `select_context`. -/
inductive Selection where
  | DATA_ERROR (errors : List Str)
  | SELECTED (resolution : Value) (selected : List (Str × List Str)) (plan : List Str)

def select_context (resolution : Value) (candidates : List ContextCandidate) (active_conditions : List Str) :
    Selection :=
  match validate_candidates candidates with
  | [] =>
    let selected := TIER_ORDER.map fun tier => (tier, selected_ids candidates active_conditions tier)
    .SELECTED resolution selected (selected.flatMap Prod.snd)
  | errors => .DATA_ERROR errors

/-- A result as the Python value that is handed on. -/
def Selection.to_dict : Selection → Value
  | .DATA_ERROR errors => .dict [("stage", .str "context_selection"), ("state", .str "DATA_ERROR"),
      ("errors", .list (errors.map .str))]
  | .SELECTED resolution selected plan => .dict [("stage", .str "context_selection"), ("state", .str "SELECTED"),
      ("resolution", resolution), ("selected", .dict (selected.map fun item => (item.1, .tuple (item.2.map .str)))),
      ("plan", .tuple (plan.map .str))]

theorem check_candidates_eq_nil_iff {seen_ids : List Str} {candidates : List ContextCandidate} :
    check_candidates seen_ids candidates = [] ↔
      (candidates.map ContextCandidate.id).Nodup ∧ (∀ candidate ∈ candidates, candidate.id ∉ seen_ids) ∧
        ∀ candidate ∈ candidates, candidate.tier ∈ VALID_TIERS := by
  induction candidates generalizing seen_ids with
  | nil => simp [check_candidates]
  | cons candidate rest ih =>
    have hid : (if candidate.id ∈ seen_ids then [Str.ofString "duplicate candidate id: " ++ candidate.id] else []) = [] ↔
        candidate.id ∉ seen_ids := by
      simp
    have htier : (if candidate.tier ∈ VALID_TIERS then []
        else [Str.ofString "unknown tier for " ++ candidate.id ++ Str.ofString ": " ++ candidate.tier]) = [] ↔
          candidate.tier ∈ VALID_TIERS := by
      simp
    have hdistinct : (∀ other ∈ rest, other.id ∉ candidate.id :: seen_ids) ↔
        candidate.id ∉ rest.map ContextCandidate.id ∧ ∀ other ∈ rest, other.id ∉ seen_ids := by
      simp only [List.mem_cons, not_or, List.mem_map, not_exists, not_and]
      exact forall₂_and
    rw [check_candidates, List.append_eq_nil_iff, List.append_eq_nil_iff, hid, htier, ih, hdistinct, List.map_cons,
      List.nodup_cons, List.forall_mem_cons, List.forall_mem_cons]
    tauto

/-- Candidates are accepted exactly when their ids are distinct and their tiers known. -/
theorem validate_candidates_eq_nil_iff {candidates : List ContextCandidate} :
    validate_candidates candidates = [] ↔
      (candidates.map ContextCandidate.id).Nodup ∧ ∀ candidate ∈ candidates, candidate.tier ∈ VALID_TIERS := by
  simp [validate_candidates, check_candidates_eq_nil_iff]

theorem mem_selected_ids {candidates : List ContextCandidate} {active_conditions : List Str} {tier id : Str} :
    id ∈ selected_ids candidates active_conditions tier ↔ ∃ candidate ∈ candidates, candidate.tier = tier ∧
      include_candidate candidate active_conditions = true ∧ candidate.id = id := by
  simp [selected_ids, and_assoc]

theorem selected_ids_nodup {candidates : List ContextCandidate} (hdistinct : (candidates.map ContextCandidate.id).Nodup)
    (active_conditions : List Str) (tier : Str) : (selected_ids candidates active_conditions tier).Nodup :=
  hdistinct.sublist (List.filter_sublist.map ContextCandidate.id)

theorem eq_of_id {candidates : List ContextCandidate} (hdistinct : (candidates.map ContextCandidate.id).Nodup)
    {left right : ContextCandidate} (hleft : left ∈ candidates) (hright : right ∈ candidates)
    (hid : left.id = right.id) :
    left = right :=
  List.inj_on_of_nodup_map hdistinct hleft hright hid

/-- The plan of accepted candidates goes through the tiers in order. -/
theorem select_context_of_valid (resolution : Value) {candidates : List ContextCandidate}
    (hvalid : validate_candidates candidates = []) (active_conditions : List Str) :
    select_context resolution candidates active_conditions = .SELECTED resolution
      (TIER_ORDER.map fun tier => (tier, selected_ids candidates active_conditions tier))
      (TIER_ORDER.flatMap (selected_ids candidates active_conditions)) := by
  simp only [select_context, hvalid, List.flatMap_map]

theorem valid_of_selected {resolution resolution' : Value} {candidates : List ContextCandidate}
    {active_conditions : List Str} {selected : List (Str × List Str)} {plan : List Str}
    (hselect : select_context resolution candidates active_conditions = .SELECTED resolution' selected plan) :
    validate_candidates candidates = [] ∧ plan = TIER_ORDER.flatMap (selected_ids candidates active_conditions) := by
  by_cases hvalid : validate_candidates candidates = []
  · rw [select_context_of_valid resolution hvalid, Selection.SELECTED.injEq] at hselect
    exact ⟨hvalid, hselect.2.2.symm⟩
  · obtain ⟨error, errors, herrors⟩ := List.exists_cons_of_ne_nil hvalid
    simp [select_context, herrors] at hselect

/-- The plan holds the ids of the included candidates, each once. -/
theorem plan_spec {candidates : List ContextCandidate} (hvalid : validate_candidates candidates = [])
    (active_conditions : List Str) :
    (TIER_ORDER.flatMap (selected_ids candidates active_conditions)).Nodup ∧
      ∀ id, id ∈ TIER_ORDER.flatMap (selected_ids candidates active_conditions) ↔
        ∃ candidate ∈ candidates, include_candidate candidate active_conditions = true ∧ candidate.id = id := by
  obtain ⟨hdistinct, htiers⟩ := validate_candidates_eq_nil_iff.mp hvalid
  constructor
  · rw [List.nodup_flatMap]
    refine ⟨fun tier _ => selected_ids_nodup hdistinct active_conditions tier, ?_⟩
    have horder : TIER_ORDER.Nodup := by decide +kernel
    apply horder.imp
    intro left right hne id hleft hright
    obtain ⟨candidate, hmem, rfl, _, hid⟩ := mem_selected_ids.mp hleft
    obtain ⟨other, hotherMem, rfl, _, hotherId⟩ := mem_selected_ids.mp hright
    exact hne (congrArg ContextCandidate.tier (eq_of_id hdistinct hmem hotherMem (hid.trans hotherId.symm)))
  · intro id
    rw [List.mem_flatMap]
    constructor
    · intro ⟨tier, _, hid⟩
      obtain ⟨candidate, hmem, _, hincluded, rfl⟩ := mem_selected_ids.mp hid
      exact ⟨candidate, hmem, hincluded, rfl⟩
    · intro ⟨candidate, hmem, hincluded, hid⟩
      exact ⟨candidate.tier, htiers candidate hmem, mem_selected_ids.mpr ⟨candidate, hmem, rfl, hincluded, hid⟩⟩

end context_router.context_selection
