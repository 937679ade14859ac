import Mathlib.Data.List.Perm.Subperm
import ContextRouter.Graph.Acyclic

namespace digraph

open Relation

variable {α : Type}

/-- A step from an item to one of the items that steps to it. -/
def Up (R : α → α → Prop) (items : List α) (item above : α) : Prop := above ∈ items ∧ R above item

section Heads

variable {R : α → α → Prop} [DecidableRel R] {items : List α}

theorem not_up_of_head {head : α} (hhead : head ∈ heads R items) (above : α) : ¬ Up R items head above :=
  fun hup => (mem_heads.mp hhead).2 above hup.1 hup.2

/-- Every item lies below some head. -/
theorem exists_head_above (hacyclic : Acyclic fun a b => a ∈ items ∧ R a b) {item : α} (hmem : item ∈ items) :
    ∃ head ∈ heads R items, ReflTransGen (Up R items) item head := by
  obtain ⟨head, hhead, hpath, hend⟩ := hacyclic.swap.reaches_end (fun _ _ hup => hup.1) hmem
  refine ⟨head, mem_heads.mpr ⟨hhead, ?_⟩, hpath⟩
  intro other hother hstep
  exact hend other ⟨hother, hstep⟩

/-- With one head, every item lies below it. -/
theorem below_head (hacyclic : Acyclic fun a b => a ∈ items ∧ R a b) {head : α} (hheads : heads R items = [head])
    {item : α} (hmem : item ∈ items) : ReflTransGen (Up R items) item head := by
  obtain ⟨other, hother, hpath⟩ := exists_head_above hacyclic hmem
  rw [hheads, List.mem_singleton] at hother
  exact hother ▸ hpath

/-- There is one head exactly when one position holds a greatest item: the items at all
    other positions lie properly below it. -/
theorem heads_eq_singleton_iff (hacyclic : Acyclic fun a b => a ∈ items ∧ R a b) {head : α} :
    heads R items = [head] ↔ ∃ position : Nat, items[position]? = some head ∧
      ∀ (other_position : Nat) other, items[other_position]? = some other → other_position ≠ position →
        TransGen (Up R items) other head := by
  constructor
  · intro hheads
    obtain ⟨position, hhead, hclear, honly⟩ := filter_eq_singleton_iff.mp hheads
    refine ⟨position, hhead, ?_⟩
    intro other_position other hother hne
    obtain heq | hpath := reflTransGen_iff_eq_or_transGen.mp (below_head hacyclic hheads (List.mem_of_getElem? hother))
    · subst head
      exact absurd (honly other_position other hother hclear) hne
    · exact hpath
  · rintro ⟨position, hhead, hbelow⟩
    have hlower : ∀ (other_position : Nat) other, items[other_position]? = some other → other_position ≠ position →
        other ∉ heads R items := by
      intro other_position other hother hne hotherHead
      obtain ⟨above, hup, _⟩ := TransGen.head'_iff.mp (hbelow other_position other hother hne)
      exact not_up_of_head hotherHead above hup
    have hheadMem : head ∈ heads R items := by
      obtain ⟨top, htop, hpath⟩ := exists_head_above hacyclic (List.mem_of_getElem? hhead)
      obtain ⟨other_position, hother⟩ := List.mem_iff_getElem?.mp (mem_heads.mp htop).1
      by_cases hsame : other_position = position
      · rw [hsame, hhead, Option.some.injEq] at hother
        exact hother ▸ htop
      · exact absurd htop (hlower other_position top hother hsame)
    refine filter_eq_singleton_iff.mpr ⟨position, hhead, ?_, ?_⟩
    · simpa using (mem_heads.mp hheadMem).2
    · intro other_position other hother hclear
      by_contra hne
      refine hlower other_position other hother hne (mem_heads.mpr ⟨List.mem_of_getElem? hother, ?_⟩)
      simpa using hclear

/-! ### Adding items -/

/-- A new item that nothing steps to is a head, and takes away the heads that it steps
    to. -/
theorem heads_cons {added : α} (hself : ¬ R added added) (htop : ∀ item ∈ items, ¬ R item added) :
    heads R (added :: items) = added :: (heads R items).filter fun item => ¬ R added item := by
  have hadded : ∀ other ∈ added :: items, ¬ R other added := List.forall_mem_cons.mpr ⟨hself, htop⟩
  have hkeep : ∀ item, decide (∀ other ∈ added :: items, ¬ R other item) =
      (decide (¬ R added item) && decide (∀ other ∈ items, ¬ R other item)) := by
    intro item
    simp only [List.forall_mem_cons, Bool.decide_and]
  rw [heads, List.filter_cons_of_pos (by simpa using hadded), heads, List.filter_filter]
  simp only [hkeep]

/-- A new item that steps to one item at most does not lower the number of heads. -/
theorem length_heads_le_cons {added : α} (hself : ¬ R added added) (htop : ∀ item ∈ items, ¬ R item added)
    (hone : items.countP (R added ·) ≤ 1) : (heads R items).length ≤ (heads R (added :: items)).length := by
  rw [heads_cons hself htop, List.length_cons]
  have hcount : (heads R items).countP (R added ·) ≤ items.countP (R added ·) := List.filter_sublist.countP_le
  have hsplit : (heads R items).length = (heads R items).countP (R added ·) +
      ((heads R items).filter fun item => ¬ R added item).length := by
    rw [List.length_eq_countP_add_countP fun item => decide (R added item)]
    simp [List.countP_eq_length_filter]
  omega

/-- Adding items that each step to one item at most, and that no old item steps to, does
    not lower the number of heads. -/
theorem length_heads_le_append (added : List α)
    (hacyclic : Acyclic fun a b => a ∈ added ++ items ∧ R a b) (htop : ∀ item ∈ items, ∀ other ∈ added, ¬ R item other)
    (hone : ∀ other ∈ added, (added ++ items).countP (R other ·) ≤ 1) :
    (heads R items).length ≤ (heads R (added ++ items)).length := by
  induction hlength : added.length generalizing added with
  | zero => simp [List.length_eq_zero_iff.mp hlength]
  | succ n ih =>
    -- The added item that no other added item steps to is put back last.
    have hne : added ≠ [] := by
      rintro rfl
      cases hlength
    have hinner : Acyclic fun a b => a ∈ added ∧ R a b :=
      hacyclic.mono fun a b hstep => ⟨List.mem_append_left _ hstep.1, hstep.2⟩
    obtain ⟨top, htopHead⟩ := List.exists_mem_of_ne_nil _ (heads_ne_nil hinner hne)
    obtain ⟨htopMem, hclear⟩ := mem_heads.mp htopHead
    obtain ⟨before, after, rfl⟩ := List.append_of_mem htopMem
    have hperm : (before ++ top :: after ++ items).Perm (top :: (before ++ after ++ items)) :=
      List.perm_middle.append_right items
    have hsub : before ++ after ⊆ before ++ top :: after := by
      intro item hitem
      simp only [List.mem_append, List.mem_cons] at hitem ⊢
      tauto
    have hrest : (heads R items).length ≤ (heads R (before ++ after ++ items)).length := by
      apply ih (before ++ after)
      · exact hacyclic.mono fun a b hstep => ⟨hperm.mem_iff.mpr (List.mem_cons_of_mem _ hstep.1), hstep.2⟩
      · exact fun item hitem other hother => htop item hitem other (hsub hother)
      · intro other hother
        have hcount := hone other (hsub hother)
        rw [hperm.countP_eq, List.countP_cons] at hcount
        omega
      · simp only [List.length_append, List.length_cons] at hlength ⊢
        omega
    refine hrest.trans ?_
    rw [(heads_perm hperm).length_eq]
    apply length_heads_le_cons
    · exact hclear top htopMem
    · intro item hitem
      rcases List.mem_append.mp hitem with hadded | hold
      · exact hclear item (hsub hadded)
      · exact htop item hold top htopMem
    · have hcount := hone top htopMem
      rw [hperm.countP_eq, List.countP_cons] at hcount
      omega

/-! ### Removing an item -/

/-- The heads stay as they are without an item that another item steps to, when all the
    items that it steps to have a step from another one as well. -/
theorem heads_remove_eq {before after : List α} {item : α} (habove : ∃ other ∈ before ++ after, R other item)
    (hbelow : ∀ lower ∈ before ++ after, R item lower → ∃ other ∈ before ++ after, R other lower) :
    heads R (before ++ item :: after) = heads R (before ++ after) := by
  have hmem : ∀ other, other ∈ before ++ item :: after ↔ other = item ∨ other ∈ before ++ after := by
    intro other
    rw [List.perm_middle.mem_iff, List.mem_cons]
  have hitem : ¬ ∀ other ∈ before ++ item :: after, ¬ R other item := by
    obtain ⟨other, hother, hstep⟩ := habove
    exact fun hclear => hclear other ((hmem other).mpr (Or.inr hother)) hstep
  have hsame : ∀ lower ∈ before ++ after,
      decide (∀ other ∈ before ++ item :: after, ¬ R other lower) = decide (∀ other ∈ before ++ after, ¬ R other lower) := by
    intro lower hlower
    rw [decide_eq_decide]
    constructor
    · exact fun hclear other hother => hclear other ((hmem other).mpr (Or.inr hother))
    · intro hclear other hother hstep
      obtain rfl | hrest := (hmem other).mp hother
      · obtain ⟨another, hanother, hanotherStep⟩ := hbelow lower hlower hstep
        exact hclear another hanother hanotherStep
      · exact hclear other hrest hstep
  rw [heads, heads, List.filter_append, List.filter_cons_of_neg (by simpa using hitem), ← List.filter_append]
  exact List.filter_congr hsame

/-- A map that keeps and reflects the steps keeps the heads. -/
theorem heads_map {β : Type} {S : β → β → Prop} [DecidableRel S] {f : α → β} (hsteps : ∀ a b, S (f a) (f b) ↔ R a b)
    (items : List α) : heads S (items.map f) = (heads R items).map f := by
  rw [heads, heads, List.filter_map]
  congr 1
  apply List.filter_congr
  intro item _
  simp only [Function.comp_apply, List.forall_mem_map, hsteps]

end Heads

end digraph
