import ContextRouter.ContextSelection
import ContextRouter.Sorting.Buckets

open python

namespace context_router.context_selection

/-- The selection rules: a designated source, or what its tier asks for. -/
def Included (candidate : ContextCandidate) (active_conditions : List Str) : Prop :=
  candidate.explicit_source = true ∨
    (candidate.tier = HOT ∧ candidate.relevant = true) ∨
    (candidate.tier = WARM ∧ ∃ condition ∈ candidate.condition, condition ∈ active_conditions) ∨
    (candidate.tier = COLD ∧ candidate.explicitly_required = true)

instance (candidate : ContextCandidate) (active_conditions : List Str) :
    Decidable (Included candidate active_conditions) :=
  inferInstanceAs (Decidable (_ ∨ _))

/-- HOT before WARM before COLD. -/
def NoLater (tier tier' : Str) : Prop := TIER_ORDER.idxOf tier ≤ TIER_ORDER.idxOf tier'

instance : DecidableRel NoLater := fun tier tier' =>
  inferInstanceAs (Decidable (TIER_ORDER.idxOf tier ≤ TIER_ORDER.idxOf tier'))

/-- What a selection says about its candidates. -/
structure IsPlan (candidates : List ContextCandidate) (active_conditions : List Str) (selected : List (Str × List Str))
    (plan : List Str) : Prop where
  /-- `List.insertionSort` is stable. -/
  sorted : plan = ((candidates.filter fun candidate => Included candidate active_conditions).insertionSort
    fun candidate candidate' => NoLater candidate.tier candidate'.tier).map ContextCandidate.id
  distinct : plan.Nodup
  planned_iff : ∀ candidate ∈ candidates, candidate.id ∈ plan ↔ Included candidate active_conditions
  only_candidates : ∀ id ∈ plan, ∃ candidate ∈ candidates, candidate.id = id
  tiers : selected.map Prod.fst = [HOT, WARM, COLD]
  own_tier : ∀ item ∈ selected, ∀ candidate ∈ candidates,
    candidate.id ∈ item.2 ↔ candidate.tier = item.1 ∧ Included candidate active_conditions
  input_order : ∀ item ∈ selected, item.2.Sublist (candidates.map ContextCandidate.id)

theorem include_candidate_iff {candidate : ContextCandidate} (htier : candidate.tier ∈ VALID_TIERS)
    (active_conditions : List Str) :
    include_candidate candidate active_conditions = true ↔ Included candidate active_conditions := by
  have htiers : HOT ≠ WARM ∧ HOT ≠ COLD ∧ WARM ≠ COLD := by decide
  obtain ⟨hhotWarm, hhotCold, hwarmCold⟩ := htiers
  unfold include_candidate Included
  by_cases hexplicit : candidate.explicit_source = true
  · simp [hexplicit]
  rw [if_neg hexplicit]
  obtain hhot | hwarm | hcold : candidate.tier = HOT ∨ candidate.tier = WARM ∨ candidate.tier = COLD := by
    simpa [VALID_TIERS] using htier
  · simp [hexplicit, hhot, hhotWarm, hhotCold]
  · have hcondition : (candidate.condition.any fun condition => condition ∈ active_conditions) = true ↔
        ∃ condition ∈ candidate.condition, condition ∈ active_conditions := by
      cases candidate.condition <;> simp
    simp only [hwarm, if_neg hhotWarm.symm, if_true, hcondition]
    simp [hexplicit, hhotWarm.symm, hwarmCold]
  · simp [hexplicit, hcold, hhotCold.symm, hwarmCold.symm]

/-- The ids of one tier come from the candidates that the rules include. -/
theorem selected_ids_eq {candidates : List ContextCandidate}
    (htiers : ∀ candidate ∈ candidates, candidate.tier ∈ VALID_TIERS) (active_conditions : List Str) (tier : Str) :
    selected_ids candidates active_conditions tier =
      ((candidates.filter fun candidate => Included candidate active_conditions).filter
        fun candidate => candidate.tier = tier).map ContextCandidate.id := by
  rw [selected_ids, List.filter_filter]
  congr 1
  apply List.filter_congr
  intro candidate hmem
  simp [include_candidate_iff (htiers candidate hmem)]

theorem plan_sorted {candidates : List ContextCandidate}
    (htiers : ∀ candidate ∈ candidates, candidate.tier ∈ VALID_TIERS) (active_conditions : List Str) :
    TIER_ORDER.flatMap (selected_ids candidates active_conditions) =
      ((candidates.filter fun candidate => Included candidate active_conditions).insertionSort
        fun candidate candidate' => NoLater candidate.tier candidate'.tier).map ContextCandidate.id := by
  have hrefl : ∀ tier ∈ TIER_ORDER, NoLater tier tier := fun tier _ => Nat.le_refl _
  have horder : TIER_ORDER.Pairwise fun tier tier' => tier ≠ tier' ∧ NoLater tier tier' ∧ ¬ NoLater tier' tier := by
    decide +kernel
  rw [← sorting.by_keys_eq_insertionSort hrefl horder
    fun candidate hmem => htiers candidate (List.mem_filter.mp hmem).1, sorting.by_keys, List.map_flatMap]
  apply List.flatMap_congr
  intro tier _
  exact selected_ids_eq htiers active_conditions tier

/-- What is returned for accepted candidates is their plan. -/
theorem isPlan_of_valid {candidates : List ContextCandidate} (hvalid : validate_candidates candidates = [])
    (active_conditions : List Str) :
    IsPlan candidates active_conditions
      (TIER_ORDER.map fun tier => (tier, selected_ids candidates active_conditions tier))
      (TIER_ORDER.flatMap (selected_ids candidates active_conditions)) := by
  obtain ⟨hdistinct, htiers⟩ := validate_candidates_eq_nil_iff.mp hvalid
  obtain ⟨hnodup, hmem⟩ := plan_spec hvalid active_conditions
  have hof_id : ∀ candidate ∈ candidates, ∀ other ∈ candidates, other.id = candidate.id → other = candidate :=
    fun candidate hcandidate other hother => eq_of_id hdistinct hother hcandidate
  refine ⟨plan_sorted htiers active_conditions, hnodup, ?planned_iff, ?only_candidates, rfl, ?own_tier, ?input_order⟩
  case planned_iff =>
    intro candidate hcandidate
    rw [hmem, ← include_candidate_iff (htiers candidate hcandidate)]
    constructor
    · intro ⟨other, hother, hincluded, hid⟩
      exact hof_id candidate hcandidate other hother hid ▸ hincluded
    · intro hincluded
      exact ⟨candidate, hcandidate, hincluded, rfl⟩
  case only_candidates =>
    intro id hid
    obtain ⟨candidate, hcandidate, _, rfl⟩ := (hmem id).mp hid
    exact ⟨candidate, hcandidate, rfl⟩
  case own_tier =>
    intro item hitem candidate hcandidate
    obtain ⟨tier, _, rfl⟩ := List.mem_map.mp hitem
    rw [mem_selected_ids, ← include_candidate_iff (htiers candidate hcandidate)]
    constructor
    · intro ⟨other, hother, htier, hincluded, hid⟩
      obtain rfl := hof_id candidate hcandidate other hother hid
      exact ⟨htier, hincluded⟩
    · intro ⟨htier, hincluded⟩
      exact ⟨candidate, hcandidate, htier, hincluded, rfl⟩
  case input_order =>
    intro item hitem
    obtain ⟨tier, _, rfl⟩ := List.mem_map.mp hitem
    exact List.filter_sublist.map ContextCandidate.id

theorem isPlan_of_selected {resolution resolution' : Value} {candidates : List ContextCandidate}
    {active_conditions : List Str} {selected : List (Str × List Str)} {plan : List Str}
    (hselect : select_context resolution candidates active_conditions = .SELECTED resolution' selected plan) :
    resolution' = resolution ∧ IsPlan candidates active_conditions selected plan := by
  obtain ⟨hvalid, _⟩ := valid_of_selected hselect
  rw [select_context_of_valid resolution hvalid, Selection.SELECTED.injEq] at hselect
  obtain ⟨rfl, rfl, rfl⟩ := hselect
  exact ⟨rfl, isPlan_of_valid hvalid active_conditions⟩

/-- More active conditions leave what was included and add to WARM only. -/
theorem Included.more {candidate : ContextCandidate} {active_conditions more : List Str}
    (hsub : active_conditions ⊆ more) (hincluded : Included candidate active_conditions) : Included candidate more := by
  obtain hexplicit | hhot | ⟨hwarm, condition, hcondition, hactive⟩ | hcold := hincluded
  · exact Or.inl hexplicit
  · exact Or.inr (Or.inl hhot)
  · exact Or.inr (Or.inr (Or.inl ⟨hwarm, condition, hcondition, hsub hactive⟩))
  · exact Or.inr (Or.inr (Or.inr hcold))

theorem Included.tier_of_new {candidate : ContextCandidate} {active_conditions more : List Str}
    (hincluded : Included candidate more) (hnew : ¬ Included candidate active_conditions) : candidate.tier = WARM := by
  obtain hexplicit | hhot | ⟨hwarm, _⟩ | hcold := hincluded
  · exact absurd (Or.inl hexplicit) hnew
  · exact absurd (Or.inr (Or.inl hhot)) hnew
  · exact hwarm
  · exact absurd (Or.inr (Or.inr (Or.inr hcold))) hnew

theorem plan_sublist {candidates : List ContextCandidate}
    (htiers : ∀ candidate ∈ candidates, candidate.tier ∈ VALID_TIERS) {active_conditions more : List Str}
    (hsub : active_conditions ⊆ more) :
    (TIER_ORDER.flatMap (selected_ids candidates active_conditions)).Sublist
      (TIER_ORDER.flatMap (selected_ids candidates more)) := by
  have htier : ∀ tier,
      (selected_ids candidates active_conditions tier).Sublist (selected_ids candidates more tier) := by
    intro tier
    rw [selected_ids_eq htiers, selected_ids_eq htiers]
    apply List.Sublist.map
    apply List.Sublist.filter
    apply List.monotone_filter_right
    intro candidate hincluded
    simpa using (of_decide_eq_true hincluded).more hsub
  simp only [TIER_ORDER, List.flatMap_cons, List.flatMap_nil]
  exact (htier HOT).append ((htier WARM).append ((htier COLD).append (List.Sublist.refl [])))

/-- A selection is made exactly for distinct ids and known tiers, and its plan is the
    included candidates in the order of their tiers. Further conditions only put WARM
    candidates in between, and no candidate's place in a plan depends on the others. -/
theorem plan_complete (resolution : Value) (candidates : List ContextCandidate) (active_conditions : List Str) :
    ((∃ resolution' selected plan,
        select_context resolution candidates active_conditions = .SELECTED resolution' selected plan) ↔
      (candidates.map ContextCandidate.id).Nodup ∧ ∀ candidate ∈ candidates, candidate.tier ∈ [HOT, WARM, COLD]) ∧
    ∀ resolution' selected plan,
      select_context resolution candidates active_conditions = .SELECTED resolution' selected plan →
      (resolution' = resolution ∧ IsPlan candidates active_conditions selected plan) ∧
      (∀ more, active_conditions ⊆ more → ∃ selected' plan',
        select_context resolution candidates more = .SELECTED resolution selected' plan' ∧ plan.Sublist plan' ∧
          ∀ candidate ∈ candidates, candidate.id ∈ plan' → candidate.id ∉ plan → candidate.tier = WARM) ∧
      ∀ other_resolution other_candidates resolution' selected' plan',
        select_context other_resolution other_candidates active_conditions = .SELECTED resolution' selected' plan' →
          ∀ candidate ∈ candidates, candidate ∈ other_candidates → (candidate.id ∈ plan ↔ candidate.id ∈ plan') := by
  constructor
  · refine Iff.trans ?_ validate_candidates_eq_nil_iff
    constructor
    · intro ⟨_, _, _, hselect⟩
      exact (valid_of_selected hselect).1
    · intro hvalid
      exact ⟨_, _, _, select_context_of_valid resolution hvalid active_conditions⟩
  · intro resolution' selected plan hselect
    obtain ⟨hvalid, hplan⟩ := valid_of_selected hselect
    obtain ⟨rfl, hisPlan⟩ := isPlan_of_selected hselect
    refine ⟨⟨rfl, hisPlan⟩, ?more_conditions, ?other_candidates⟩
    case more_conditions =>
      intro more hsub
      have hmore := isPlan_of_valid hvalid more
      refine ⟨_, _, select_context_of_valid resolution' hvalid more, ?_, ?_⟩
      · rw [hplan]
        exact plan_sublist (validate_candidates_eq_nil_iff.mp hvalid).2 hsub
      · intro candidate hcandidate hnow hbefore
        rw [hmore.planned_iff candidate hcandidate] at hnow
        rw [hisPlan.planned_iff candidate hcandidate] at hbefore
        exact hnow.tier_of_new hbefore
    case other_candidates =>
      intro other_resolution other_candidates _ selected' plan' hselect' candidate hcandidate hother
      obtain ⟨_, hisPlan'⟩ := isPlan_of_selected hselect'
      rw [hisPlan.planned_iff candidate hcandidate, hisPlan'.planned_iff candidate hother]

end context_router.context_selection
