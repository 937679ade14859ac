import ContextRouter.MinimalResolver.Growth
import ContextRouter.MinimalResolver.Handover
import ContextRouter.MinimalResolver.Scopes

open python

namespace context_router.minimal_resolver

variable {α : Type}

section Merge

variable {base : List (Record α)} {branches : List (List (Record α))}

/-- A merged record stands in the registry of one of the writers. -/
theorem mem_merge {record : Record α} :
    record ∈ base ++ branches.flatten ↔ ∃ branch ∈ [] :: branches, record ∈ base ++ branch := by
  simp only [List.mem_append, List.mem_flatten, List.exists_mem_cons_iff, List.not_mem_nil, or_false]
  constructor
  · rintro (hbase | ⟨branch, hbranch, hmem⟩)
    · exact Or.inl hbase
    · exact Or.inr ⟨branch, hbranch, Or.inr hmem⟩
  · rintro (hbase | ⟨branch, hbranch, hbase | hmem⟩)
    · exact Or.inl hbase
    · exact Or.inl hbase
    · exact Or.inr ⟨branch, hbranch, hmem⟩

/-- Writers that use no id twice make a well-formed registry together. Each record keeps
    the predecessor and the replacement that it has in the registry of its writer, and a
    line of relations never leaves that registry. -/
theorem WellFormed.merge (hbranches : ∀ branch ∈ [] :: branches, WellFormed (base ++ branch))
    (hdistinct : ((base ++ branches.flatten).filterMap Record.id?).Nodup) :
    WellFormed (base ++ branches.flatten) where
  ids_distinct := hdistinct
  known_status := by
    intro record hmem
    obtain ⟨branch, hbranch, hrecord⟩ := mem_merge.mp hmem
    exact (hbranches branch hbranch).known_status record hrecord
  effective_from_ok := by
    intro record hmem
    obtain ⟨branch, hbranch, hrecord⟩ := mem_merge.mp hmem
    exact (hbranches branch hbranch).effective_from_ok record hrecord
  last_verified_ok := by
    intro record hmem
    obtain ⟨branch, hbranch, hrecord⟩ := mem_merge.mp hmem
    exact (hbranches branch hbranch).last_verified_ok record hrecord
  relation := by
    intro record hmem predecessor_id hlink
    obtain ⟨branch, hbranch, hrecord⟩ := mem_merge.mp hmem
    obtain ⟨hid, predecessor, hpredecessor, hsupports⟩ :=
      (hbranches branch hbranch).relation record hrecord predecessor_id hlink
    exact ⟨hid, predecessor, mem_merge.mpr ⟨branch, hbranch, hpredecessor⟩, hsupports⟩
  acyclic := by
    let Holds : {branch // branch ∈ [] :: branches} → Str → Prop := fun branch id =>
      ∃ record ∈ base ++ branch.val, record.id? = some id
    apply digraph.acyclic_of_closed_parts (fun branch : {branch // branch ∈ [] :: branches} =>
      Linked (base ++ branch.val)) Holds
    · rintro id predecessor_id ⟨record, hmem, hid, _⟩
      obtain ⟨branch, hbranch, hrecord⟩ := mem_merge.mp hmem
      exact ⟨⟨branch, hbranch⟩, record, hrecord, hid⟩
    · rintro ⟨branch, hbranch⟩ id predecessor_id ⟨own, hown, hownId⟩ ⟨record, hmem, hid, hlink⟩
      obtain rfl := WellFormed.eq_of_id hdistinct hmem (mem_merge.mpr ⟨branch, hbranch, hown⟩) hid hownId
      obtain ⟨_, predecessor, hpredecessor, hpredecessorId, _⟩ :=
        (hbranches branch hbranch).relation record hown predecessor_id hlink
      exact ⟨⟨record, hown, hid, hlink⟩, predecessor, hpredecessor, hpredecessorId⟩
    · exact fun branch => (hbranches branch.val branch.property).acyclic
  replaced := by
    intro record hmem hstatus hid
    obtain ⟨branch, hbranch, hrecord⟩ := mem_merge.mp hmem
    obtain ⟨successor, hsuccessor, hreplaces⟩ := (hbranches branch hbranch).replaced record hrecord hstatus hid
    exact ⟨successor, mem_merge.mpr ⟨branch, hbranch, hsuccessor⟩, hreplaces⟩

/-- The ids of a merge are distinct when no two writers use one id. -/
theorem merge_ids_nodup_iff (hbranches : ∀ branch ∈ [] :: branches, WellFormed (base ++ branch)) :
    ((base ++ branches.flatten).filterMap Record.id?).Nodup ↔
      branches.Pairwise fun left right => (left.filterMap Record.id?).Disjoint (right.filterMap Record.id?) := by
  obtain ⟨hbase, hown⟩ := List.forall_mem_cons.mp hbranches
  have hsplit : ∀ branch ∈ branches, (branch.filterMap Record.id?).Nodup ∧
      (base.filterMap Record.id?).Disjoint (branch.filterMap Record.id?) := by
    intro branch hbranch
    have hdistinct := (hown branch hbranch).ids_distinct
    rw [List.filterMap_append, List.nodup_append'] at hdistinct
    exact hdistinct.2
  rw [List.filterMap_append, List.filterMap_flatten, List.nodup_append', List.nodup_flatten, List.pairwise_map]
  constructor
  · rintro ⟨_, ⟨_, hpairwise⟩, _⟩
    exact hpairwise
  · intro hpairwise
    refine ⟨?base, ⟨?each, hpairwise⟩, ?apart⟩
    case base => simpa using hbase.ids_distinct
    case each =>
      rw [List.forall_mem_map]
      exact fun branch hbranch => (hsplit branch hbranch).1
    case apart =>
      intro id hid hmerged
      obtain ⟨_, hids, hother⟩ := List.mem_flatten.mp hmerged
      obtain ⟨branch, hbranch, rfl⟩ := List.mem_map.mp hids
      exact (hsplit branch hbranch).2 hid hother

/-- What the writers added validates together, in any order, exactly when no id was used
    by two of them. -/
theorem merge_validates_iff (hbase : validate_registry base = .ok [])
    (hbranches : ∀ branch ∈ branches, validate_registry (base ++ branch) = .ok [])
    {merged : List (Record α)} (hmerged : merged.Perm (base ++ branches.flatten)) :
    validate_registry merged = .ok [] ↔
      branches.Pairwise fun left right => (left.filterMap Record.id?).Disjoint (right.filterMap Record.id?) := by
  have hwf : ∀ branch ∈ [] :: branches, WellFormed (base ++ branch) := by
    rw [List.forall_mem_cons, List.append_nil]
    exact ⟨validates_iff_wellFormed.mp hbase, fun branch hbranch => validates_iff_wellFormed.mp (hbranches branch hbranch)⟩
  rw [validates_iff_wellFormed, ← merge_ids_nodup_iff hwf]
  constructor
  · exact fun hvalid => (hvalid.perm hmerged).ids_distinct
  · exact fun hdistinct => (WellFormed.merge hwf hdistinct).perm hmerged.symm

end Merge

/-- Another price for September, entered without knowledge of `next_price`. -/
def rival_price : Record Nat :=
  ⟨some "PRICE-004", some ⟨some "demo", some "starter", some "price"⟩, some ACTIVE, some "2026-09-01",
    some "PRICE-002", some "2026-08-28", some 350⟩

theorem rival_price_valid : ∀ branch ∈ [[next_price], [rival_price]],
    validate_registry (sample_decisions ++ branch) = .ok [] := by
  decide +kernel

/-- The two have different ids, so the registry validates with both. -/
theorem rival_prices_merge : validate_registry (sample_decisions ++ [next_price, rival_price]) = .ok [] := by
  have hbase : validate_registry sample_decisions = .ok [] := by decide +kernel
  apply (merge_validates_iff hbase rival_price_valid (List.Perm.refl _)).mpr
  simp only [List.pairwise_pair]
  intro id hid hrival
  have hapart : ∀ id ∈ [next_price].filterMap Record.id?, id ∉ [rival_price].filterMap Record.id? := by decide +kernel
  exact hapart id hid hrival

/-! ### The decisions of a merge -/

section Decisions

variable {base : List (Record α)} {branches : List (List (Record α))}

variable {as_of_date : Date} {scope : Str × Str × Str}

/-- A record of one writer is current in the merge when it is so for its writer: no other
    writer can name its id. -/
theorem current_merge_own (hwf : WellFormed (base ++ branches.flatten))
    (hbranches : ∀ branch ∈ [] :: branches, WellFormed (base ++ branch)) {branch : List (Record α)}
    (hbranch : branch ∈ branches) {record : Record α} (hrecord : record ∈ branch) :
    Current as_of_date (scope_records (base ++ branches.flatten) scope) record ↔
      Current as_of_date (scope_records (base ++ branch) scope) record := by
  have hmerged : ∀ own ∈ [] :: branches, ∀ other ∈ base ++ own, other ∈ base ++ branches.flatten :=
    fun own hown other hother => mem_merge.mpr ⟨own, hown, hother⟩
  have hmem := List.mem_cons_of_mem [] hbranch
  constructor
  · intro hcurrent
    refine ⟨hcurrent.live, ?_⟩
    intro other hother
    obtain ⟨hotherMem, hotherScope⟩ := mem_scope_records.mp hother
    exact hcurrent.not_superseded other (mem_scope_records.mpr ⟨hmerged branch hmem other hotherMem, hotherScope⟩)
  · intro hcurrent
    refine ⟨hcurrent.live, ?_⟩
    intro other hother hlive hsucceeds
    obtain ⟨hotherMem, hotherScope⟩ := mem_scope_records.mp hother
    obtain ⟨own, hown, hotherOwn⟩ := mem_merge.mp hotherMem
    obtain ⟨id, hlink, hid⟩ := hsucceeds
    obtain ⟨_, predecessor, hpredecessor, hpredecessorId, _⟩ := (hbranches own hown).relation other hotherOwn id hlink
    obtain rfl := WellFormed.eq_of_id hwf.ids_distinct (hmerged own hown predecessor hpredecessor)
      (hmerged branch hmem record (List.mem_append_right base hrecord)) hpredecessorId hid
    -- The record's id stands in one branch only, so its successor is of the same writer.
    have hbranchId : id ∈ branch.filterMap Record.id? := List.mem_filterMap.mpr ⟨predecessor, hrecord, hid⟩
    have hsame : own = branch := by
      by_contra hne
      obtain hbase | hownMem := List.mem_append.mp hpredecessor
      · have hdistinct := (hbranches branch hmem).ids_distinct
        rw [List.filterMap_append, List.nodup_append'] at hdistinct
        exact hdistinct.2.2 (List.mem_filterMap.mpr ⟨predecessor, hbase, hid⟩) hbranchId
      · have hownBranch : own ∈ branches := by
          obtain rfl | hownBranch := List.mem_cons.mp hown
          · cases hownMem
          · exact hownBranch
        have hpairwise := (merge_ids_nodup_iff hbranches).mp hwf.ids_distinct
        have hsymm : Std.Symm fun left right : List (Record α) =>
            (left.filterMap Record.id?).Disjoint (right.filterMap Record.id?) := ⟨fun _ _ h => h.symm⟩
        exact hpairwise.forall hownBranch hbranch hne (List.mem_filterMap.mpr ⟨predecessor, hownMem, hid⟩) hbranchId
    subst hsame
    exact hcurrent.not_superseded other (mem_scope_records.mpr ⟨hotherOwn, hotherScope⟩) hlive ⟨id, hlink, hid⟩

/-- A record of the base is current in the merge when it is so for every writer. -/
theorem current_merge_base {record : Record α} :
    Current as_of_date (scope_records (base ++ branches.flatten) scope) record ↔
      ∀ branch ∈ [] :: branches, Current as_of_date (scope_records (base ++ branch) scope) record := by
  constructor
  · intro hcurrent branch hbranch
    refine ⟨hcurrent.live, ?_⟩
    intro other hother
    obtain ⟨hotherMem, hotherScope⟩ := mem_scope_records.mp hother
    exact hcurrent.not_superseded other (mem_scope_records.mpr ⟨mem_merge.mpr ⟨branch, hbranch, hotherMem⟩, hotherScope⟩)
  · intro hcurrent
    refine ⟨(hcurrent [] List.mem_cons_self).live, ?_⟩
    intro other hother
    obtain ⟨hotherMem, hotherScope⟩ := mem_scope_records.mp hother
    obtain ⟨branch, hbranch, hotherBranch⟩ := mem_merge.mp hotherMem
    exact (hcurrent branch hbranch).not_superseded other (mem_scope_records.mpr ⟨hotherBranch, hotherScope⟩)

/-- The heads that a writer added. -/
def own_heads (as_of_date : Date) (base : List (Record α)) (scope : Str × Str × Str) (branch : List (Record α)) :
    List (Record α) :=
  (scope_records branch scope).filter fun record => Current as_of_date (scope_records (base ++ branch) scope) record

/-- The heads of a merge are those of the base that every writer left, and all that a
    writer added. -/
theorem heads_merge (as_of_date : Date) (scope : Str × Str × Str) (hwf : WellFormed (base ++ branches.flatten))
    (hbranches : ∀ branch ∈ [] :: branches, WellFormed (base ++ branch)) :
    heads as_of_date (scope_records (base ++ branches.flatten) scope) =
      ((scope_records base scope).filter fun record =>
        ∀ branch ∈ [] :: branches, Current as_of_date (scope_records (base ++ branch) scope) record) ++
      branches.flatMap (own_heads as_of_date base scope) := by
  have hfilter : ∀ keep : Record α → Bool, (scope_records (base ++ branches.flatten) scope).filter keep =
      (scope_records base scope).filter keep ++ branches.flatMap fun branch => (scope_records branch scope).filter keep := by
    intro keep
    simp only [scope_records, List.filter_append, List.filter_flatten, List.flatMap, List.filter_filter, List.map_map,
      Function.comp_def]
  rw [heads_eq_filter, hfilter]
  congr 1
  · apply List.filter_congr
    intro record _
    rw [decide_eq_decide]
    exact current_merge_base
  · apply List.flatMap_congr
    intro branch hbranch
    apply List.filter_congr
    intro record hrecord
    rw [decide_eq_decide]
    exact current_merge_own hwf hbranches hbranch (mem_scope_records.mp hrecord).1

theorem mem_own_heads {branch : List (Record α)} {record : Record α} (hrecord : record ∈ branch)
    (hhead : record ∈ heads as_of_date (scope_records (base ++ branch) scope)) :
    record ∈ own_heads as_of_date base scope branch := by
  obtain ⟨hmem, hlive, hclear⟩ := mem_heads.mp hhead
  have hscoped := mem_scope_records.mpr ⟨hrecord, (mem_scope_records.mp hmem).2⟩
  exact List.mem_filter.mpr ⟨hscoped, decide_eq_true ⟨hlive, hclear⟩⟩

/-- Writers that put nothing in force leave the decisions in force alone. -/
theorem live_scope_merge {before after : List (List (Record α))} {left : List (Record α)}
    (hquiet : ∀ branch ∈ before ++ after, ∀ record ∈ branch, scope_key record = scope → ¬ Live as_of_date record) :
    live as_of_date (scope_records (base ++ (before ++ left :: after).flatten) scope) =
      live as_of_date (scope_records (base ++ left) scope) := by
  have hnone : ∀ others : List (List (Record α)), (∀ branch ∈ others, branch ∈ before ++ after) →
      live as_of_date (scope_records others.flatten scope) = [] := by
    intro others hothers
    rw [live, List.filter_eq_nil_iff]
    intro record hrecord
    obtain ⟨hmem, hscope⟩ := mem_scope_records.mp hrecord
    obtain ⟨branch, hbranch, hmem⟩ := List.mem_flatten.mp hmem
    simpa using hquiet branch (hothers branch hbranch) record hmem hscope
  have hsplit : ∀ first second : List (Record α), live as_of_date (scope_records (first ++ second) scope) =
      live as_of_date (scope_records first scope) ++ live as_of_date (scope_records second scope) := by
    intro first second
    rw [scope_records, List.filter_append, live, List.filter_append]
    rfl
  rw [List.flatten_append, List.flatten_cons, hsplit, hsplit, hsplit, hsplit,
    hnone before fun branch hbranch => List.mem_append_left after hbranch,
    hnone after fun branch hbranch => List.mem_append_right before hbranch, List.nil_append, List.append_nil]

end Decisions

section Answers

variable {records : List (Record α)} {domain subject field as_of : Str} {as_of_date : Date} {verify_after_days : Int}
  {result : Resolution α}

/-- A head of a well-formed scope is selected, or stands in the conflict. -/
theorem head_selected_or_in_conflict (hdate : parse_date as_of = .ok (some as_of_date))
    (hwf : WellFormed (scope_records records (domain, subject, field)))
    (hrun : resolve_current records domain subject field as_of verify_after_days = .ok result) {record : Record α}
    (hhead : record ∈ heads as_of_date (scope_records records (domain, subject, field))) :
    result.record? = some record ∨
      result.state = Str.ofString "CONFLICT" ∧ record.decision_id ∈ result.decision_ids := by
  obtain ⟨hempty, _⟩ | ⟨hnot, _⟩ | ⟨_, date, hparse, hclassify⟩ := resolve_current_cases hrun
  · rw [hempty] at hhead
    cases hhead
  · exact absurd hwf hnot
  · rw [hdate, Except.ok.injEq, Option.some.injEq] at hparse
    subst date
    obtain ⟨hempty, _⟩ | ⟨selected, hheads, hfresh⟩ | ⟨_, rfl⟩ := classify_cases hclassify
    · rw [hempty] at hhead
      cases hhead
    · rw [hheads, List.mem_singleton] at hhead
      exact Or.inl (hhead ▸ freshness_record hfresh)
    · exact Or.inr ⟨rfl, List.mem_map_of_mem hhead⟩

/-- Of several heads none is selected. -/
theorem unselected_of_heads (hdate : parse_date as_of = .ok (some as_of_date))
    (hrun : resolve_current records domain subject field as_of verify_after_days = .ok result)
    (hseveral : 1 < (heads as_of_date (scope_records records (domain, subject, field))).length) :
    result.record? = none := by
  cases hselected : result.record? with
  | none => rfl
  | some selected =>
    rw [(heads_of_selected hdate hrun hselected).2.1] at hseveral
    exact absurd hseveral (by simp)

end Answers

/-- A merge loses no decision. What a writer's own record decides for that writer, it
    decides in the merge as well, or it stands in a conflict there; two writers who both
    decided are in conflict; and where the others put nothing in force, the writer's
    answer is the answer. -/
theorem merge_loses_no_decision {base left : List (Record α)} {before after : List (List (Record α))}
    (hbase : validate_registry base = .ok [])
    (hbranches : ∀ branch ∈ before ++ left :: after, validate_registry (base ++ branch) = .ok [])
    (hvalid : validate_registry (base ++ (before ++ left :: after).flatten) = .ok [])
    {domain subject field as_of : Str} {as_of_date : Date} (hdate : parse_date as_of = .ok (some as_of_date))
    (verify_after_days : Int) :
    ∃ result own,
      resolve_current (base ++ (before ++ left :: after).flatten) domain subject field as_of verify_after_days =
        .ok result ∧
      resolve_current (base ++ left) domain subject field as_of verify_after_days = .ok own ∧
      (∀ record ∈ left, own.record? = some record → result.record? = some record ∨
        result.state = Str.ofString "CONFLICT" ∧ record.decision_id ∈ result.decision_ids) ∧
      (∀ right ∈ before ++ after, ∀ rival,
        resolve_current (base ++ right) domain subject field as_of verify_after_days = .ok rival →
          ∀ record ∈ left, ∀ other ∈ right, own.record? = some record → rival.record? = some other →
            result.state = Str.ofString "CONFLICT" ∧ record.decision_id ∈ result.decision_ids ∧
              other.decision_id ∈ result.decision_ids) ∧
      ((∀ branch ∈ before ++ after, ∀ record ∈ branch, scope_key record = (domain, subject, field) →
        ¬ Live as_of_date record) → result.answer = own.answer) := by
  have hparts : ∀ branch ∈ [] :: (before ++ left :: after), WellFormed (base ++ branch) := by
    rw [List.forall_mem_cons, List.append_nil]
    exact ⟨validates_iff_wellFormed.mp hbase, fun branch hbranch => validates_iff_wellFormed.mp (hbranches branch hbranch)⟩
  have hwf := validates_iff_wellFormed.mp hvalid
  have hwfScope := hwf.scope (domain, subject, field)
  have hleft : left ∈ before ++ left :: after := by simp
  have hwfLeft := (hparts left (List.mem_cons_of_mem _ hleft)).scope (domain, subject, field)
  obtain ⟨result, expected, hrun, hclassify, hanswer⟩ := resolve_current_answer hdate verify_after_days hwfScope
  obtain ⟨own, expectedOwn, hrunOwn, hclassifyOwn, hanswerOwn⟩ := resolve_current_answer hdate verify_after_days hwfLeft
  have hheads := heads_merge as_of_date (domain, subject, field) hwf hparts
  -- A record that decides for its writer is one of the heads that the writer added.
  have hown : ∀ branch decided, resolve_current (base ++ branch) domain subject field as_of verify_after_days =
      .ok decided → ∀ record ∈ branch, decided.record? = some record →
        record ∈ own_heads as_of_date base (domain, subject, field) branch := by
    intro branch decided hrunBranch record hrecord hselected
    apply mem_own_heads hrecord
    rw [(heads_of_selected hdate hrunBranch hselected).2.1]
    exact List.mem_singleton_self record
  have hmerged : ∀ branch ∈ before ++ left :: after, ∀ record ∈ own_heads as_of_date base (domain, subject, field) branch,
      record ∈ heads as_of_date (scope_records (base ++ (before ++ left :: after).flatten) (domain, subject, field)) := by
    intro branch hbranch record hrecord
    rw [hheads]
    exact List.mem_append_right _ (List.mem_flatMap.mpr ⟨branch, hbranch, hrecord⟩)
  refine ⟨result, own, hrun, hrunOwn, ?kept, ?rivals, ?alone⟩
  case kept =>
    intro record hrecord hselected
    exact head_selected_or_in_conflict hdate hwfScope hrun
      (hmerged left hleft record (hown left own hrunOwn record hrecord hselected))
  case rivals =>
    intro right hright rival hrunRival record hrecord other hother hselected hselectedRival
    have hrecordHead := hown left own hrunOwn record hrecord hselected
    have hotherHead := hown right rival hrunRival other hother hselectedRival
    have hrightMem : right ∈ before ++ left :: after :=
      List.perm_middle.mem_iff.mpr (List.mem_cons_of_mem left hright)
    have hnone : result.record? = none := by
      apply unselected_of_heads hdate hrun
      have hperm : ((before ++ left :: after).flatMap (own_heads as_of_date base (domain, subject, field))).Perm
          ((left :: (before ++ after)).flatMap (own_heads as_of_date base (domain, subject, field))) :=
        List.perm_middle.flatMap_right _
      have hothers := List.length_pos_of_mem (List.mem_flatMap.mpr ⟨right, hright, hotherHead⟩)
      have hself := List.length_pos_of_mem hrecordHead
      rw [hheads, List.length_append, hperm.length_eq, List.flatMap_cons, List.length_append]
      omega
    have hdecided : ∀ head, result.record? ≠ some head := by simp [hnone]
    obtain ⟨hstate, hid⟩ := (head_selected_or_in_conflict hdate hwfScope hrun
      (hmerged left hleft record hrecordHead)).resolve_left (hdecided record)
    obtain ⟨_, hotherId⟩ := (head_selected_or_in_conflict hdate hwfScope hrun
      (hmerged right hrightMem other hotherHead)).resolve_left (hdecided other)
    exact ⟨hstate, hid, hotherId⟩
  case alone =>
    intro hquiet
    rw [heads, live_scope_merge hquiet, ← heads, hclassifyOwn, Except.ok.injEq] at hclassify
    rw [hanswer, hanswerOwn, hclassify]

/-- In September the merge of the two prices is a conflict that names both. -/
theorem rival_prices_in_conflict : ∃ result,
    resolve_current (sample_decisions ++ [next_price, rival_price]) "demo" "starter" "price" "2026-09-01" 30 =
      .ok result ∧
    result.state = Str.ofString "CONFLICT" ∧ next_price.decision_id ∈ result.decision_ids ∧
      rival_price.decision_id ∈ result.decision_ids := by
  have hbase : validate_registry sample_decisions = .ok [] := by decide +kernel
  have hbranches : ∀ branch ∈ [] ++ [next_price] :: [[rival_price]],
      validate_registry (sample_decisions ++ branch) = .ok [] := rival_price_valid
  have hvalid : validate_registry (sample_decisions ++ ([] ++ [next_price] :: [[rival_price]]).flatten) = .ok [] := by
    decide +kernel
  have hdate : parse_date (Str.ofString "2026-09-01") = .ok (some ⟨2026, 9, 1, by decide⟩) := by decide +kernel
  have hnext : resolve_current (sample_decisions ++ [next_price]) "demo" "starter" "price" "2026-09-01" 30 =
      .ok (.RESOLVED next_price) := by
    decide +kernel
  have hrival : resolve_current (sample_decisions ++ [rival_price]) "demo" "starter" "price" "2026-09-01" 30 =
      .ok (.RESOLVED rival_price) := by
    decide +kernel
  obtain ⟨result, own, hrun, hrunOwn, _, hrivals, _⟩ := merge_loses_no_decision hbase hbranches hvalid hdate 30
  rw [hnext, Except.ok.injEq] at hrunOwn
  subst hrunOwn
  exact ⟨result, hrun, hrivals [rival_price] (by simp) _ hrival next_price (by simp) rival_price (by simp) rfl rfl⟩

end context_router.minimal_resolver
