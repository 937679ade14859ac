import Mathlib.Data.Fintype.Card
import Mathlib.Data.Set.Finite.List
import Mathlib.Logic.Relation

namespace digraph

open Relation

variable {α : Type}

/-- No element reaches itself by one or more steps. -/
def Acyclic (R : α → α → Prop) : Prop := ∀ a, ¬ TransGen R a a

/-- Removing steps introduces no cycle. -/
theorem Acyclic.mono {R S : α → α → Prop} (hacyclic : Acyclic S) (hsub : ∀ a b, R a b → S a b) :
    Acyclic R := by
  intro a hcycle
  exact hacyclic a (TransGen.mono hsub a a hcycle)

/-- A cycle whose steps all keep some label lies inside one label, so it is enough
    to exclude cycles label by label. -/
theorem acyclic_of_labelled {β : Type} {R : α → α → Prop} (S : β → α → α → Prop) (label : α → β → Prop)
    (hstep : ∀ a b, R a b → ∃ l, label a l ∧ label b l ∧ S l a b)
    (hlabel : ∀ a l l', label a l → label a l' → l = l') (hacyclic : ∀ l, Acyclic (S l)) : Acyclic R := by
  have hlift : ∀ a b, TransGen R a b → ∃ l, label a l ∧ label b l ∧ TransGen (S l) a b := by
    intro a b hpath
    induction hpath with
    | single hab =>
      obtain ⟨l, ha, hb, hS⟩ := hstep _ _ hab
      exact ⟨l, ha, hb, .single hS⟩
    | tail _ hbc ih =>
      obtain ⟨l, ha, hb, hpath⟩ := ih
      obtain ⟨l', hb', hc, hS⟩ := hstep _ _ hbc
      obtain rfl := hlabel _ _ _ hb hb'
      exact ⟨l, ha, hc, hpath.tail hS⟩
  intro a hcycle
  obtain ⟨l, _, _, hpath⟩ := hlift a a hcycle
  exact hacyclic l a hpath

/-- A relation has no cycle when each element that has a step lies in some part, and the
    parts are closed under the steps and have no cycle. The parts may overlap. -/
theorem acyclic_of_closed_parts {ι : Type} {R : α → α → Prop} (S : ι → α → α → Prop) (Holds : ι → α → Prop)
    (hstart : ∀ a b, R a b → ∃ i, Holds i a) (hstep : ∀ i a b, Holds i a → R a b → S i a b ∧ Holds i b)
    (hacyclic : ∀ i, Acyclic (S i)) : Acyclic R := by
  have hlift : ∀ i a b, Holds i a → TransGen R a b → TransGen (S i) a b ∧ Holds i b := by
    intro i a b ha hpath
    induction hpath with
    | single hab =>
      obtain ⟨hS, hb⟩ := hstep i _ _ ha hab
      exact ⟨.single hS, hb⟩
    | tail _ hbc ih =>
      obtain ⟨hpath, hb⟩ := ih
      obtain ⟨hS, hc⟩ := hstep i _ _ hb hbc
      exact ⟨hpath.tail hS, hc⟩
  intro a hcycle
  obtain ⟨b, hab, _⟩ := TransGen.head'_iff.mp hcycle
  obtain ⟨i, ha⟩ := hstart a b hab
  exact hacyclic i a (hlift i a a ha hcycle).1

/-- A relation whose steps all lead to a smaller position has no cycle. -/
theorem acyclic_of_positions {R : α → α → Prop} (At : α → Nat → Prop)
    (hstep : ∀ a b, R a b → ∃ i j, At a i ∧ At b j ∧ j < i) (hunique : ∀ a i j, At a i → At a j → i = j) :
    Acyclic R := by
  have hlift : ∀ a b, TransGen R a b → ∃ i j, At a i ∧ At b j ∧ j < i := by
    intro a b hpath
    induction hpath with
    | single hab => exact hstep _ _ hab
    | tail _ hbc ih =>
      obtain ⟨i, j, ha, hb, hlt⟩ := ih
      obtain ⟨j', k, hb', hc, hlt'⟩ := hstep _ _ hbc
      obtain rfl := hunique _ _ _ hb hb'
      exact ⟨i, k, ha, hc, hlt'.trans hlt⟩
  intro a hcycle
  obtain ⟨i, j, hi, hj, hlt⟩ := hlift a a hcycle
  obtain rfl := hunique a i j hi hj
  exact hlt.false

/-- Adding a node that no step enters keeps a relation acyclic. -/
theorem Acyclic.add_source {R S : α → α → Prop} (hacyclic : Acyclic R) (source : α)
    (hstep : ∀ a b, S a b → R a b ∨ a = source) (hsource : ∀ a, ¬ S a source) : Acyclic S := by
  have hold : ∀ a b, TransGen S a b → a ≠ source → TransGen R a b := by
    intro a b hpath hne
    induction hpath with
    | single hab => exact .single ((hstep _ _ hab).resolve_right hne)
    | tail hpath hbc ih =>
      refine ih.tail ((hstep _ _ hbc).resolve_right ?_)
      rintro rfl
      obtain ⟨c, _, hlast⟩ := TransGen.tail'_iff.mp hpath
      exact hsource c hlast
  intro a hcycle
  obtain ⟨c, _, hlast⟩ := TransGen.tail'_iff.mp hcycle
  have hne : a ≠ source := by
    rintro rfl
    exact hsource c hlast
  exact hacyclic a (hold a a hcycle hne)

/-- An acyclic relation leaves some element of a nonempty list that no element of
    the list steps to. -/
theorem Acyclic.exists_head {R : α → α → Prop} (hacyclic : Acyclic R) {items : List α} (hne : items ≠ []) :
    ∃ top ∈ items, ∀ other ∈ items, ¬ R other top := by
  have : Finite {item // item ∈ items} := (List.finite_toSet items).to_subtype
  let Above : {item // item ∈ items} → {item // item ∈ items} → Prop := fun a b => TransGen R a.1 b.1
  have : IsTrans _ Above := ⟨fun _ _ _ => TransGen.trans⟩
  have : Std.Irrefl Above := ⟨fun a => hacyclic a.1⟩
  obtain ⟨first, hfirst⟩ := List.exists_mem_of_ne_nil items hne
  obtain ⟨top, _, htop⟩ := (Finite.wellFounded_of_trans_of_irrefl Above).has_min Set.univ ⟨⟨first, hfirst⟩, trivial⟩
  refine ⟨top.1, top.2, ?_⟩
  intro other hother hstep
  exact htop ⟨other, hother⟩ trivial (.single hstep)

theorem Acyclic.swap {R : α → α → Prop} (hacyclic : Acyclic R) : Acyclic (Function.swap R) := by
  intro a hcycle
  exact hacyclic a (transGen_swap.mp hcycle)

/-- In a finite acyclic relation a path can be followed to an element without a next
    one. -/
theorem Acyclic.reaches_end {R : α → α → Prop} (hacyclic : Acyclic R) {items : List α}
    (hclosed : ∀ a b, R a b → b ∈ items) {start : α} (hstart : start ∈ items) :
    ∃ last ∈ items, ReflTransGen R start last ∧ ∀ next, ¬ R last next := by
  classical
  let reached := items.filter fun item => ReflTransGen R start item
  have hreached : ∀ item, item ∈ reached ↔ item ∈ items ∧ ReflTransGen R start item := by simp [reached]
  have hne : reached ≠ [] := List.ne_nil_of_mem ((hreached start).mpr ⟨hstart, .refl⟩)
  obtain ⟨last, hlast, hend⟩ := hacyclic.swap.exists_head hne
  obtain ⟨hmem, hpath⟩ := (hreached last).mp hlast
  refine ⟨last, hmem, hpath, ?_⟩
  intro next hstep
  exact hend next ((hreached next).mpr ⟨hclosed last next hstep, hpath.tail hstep⟩) hstep

/-! ### Heads -/

/-- The items of a list that no item of the list steps to. -/
def heads (R : α → α → Prop) [DecidableRel R] (items : List α) : List α :=
  items.filter fun item => ∀ other ∈ items, ¬ R other item

section Heads

variable {R : α → α → Prop} [DecidableRel R] {items : List α}

theorem mem_heads {item : α} : item ∈ heads R items ↔ item ∈ items ∧ ∀ other ∈ items, ¬ R other item := by
  simp [heads]

/-- Steps that form no cycle among the items leave a head. -/
theorem heads_ne_nil (hacyclic : Acyclic fun a b => a ∈ items ∧ R a b) (hne : items ≠ []) : heads R items ≠ [] := by
  obtain ⟨top, htop, hclear⟩ := hacyclic.exists_head hne
  apply List.ne_nil_of_mem
  exact mem_heads.mpr ⟨htop, fun other hother hstep => hclear other hother ⟨hother, hstep⟩⟩

/-- Which items are heads does not depend on the order of the list. -/
theorem heads_perm {other : List α} (hperm : items.Perm other) : (heads R items).Perm (heads R other) := by
  have hsame : (fun item => decide (∀ left ∈ items, ¬ R left item)) =
      fun item => decide (∀ left ∈ other, ¬ R left item) := by
    funext item
    simp only [hperm.mem_iff]
  unfold heads
  rw [hsame]
  exact hperm.filter _

end Heads

/-- A filter keeps one item exactly when one position of the list satisfies it. -/
theorem filter_eq_singleton_iff {keep : α → Bool} {items : List α} {item : α} :
    items.filter keep = [item] ↔ ∃ position : Nat, items[position]? = some item ∧ keep item ∧
      ∀ (other_position : Nat) other, items[other_position]? = some other → keep other → other_position = position := by
  rw [List.filter_eq_cons_iff]
  constructor
  · rintro ⟨before, after, rfl, hbefore, hkeep, hafter⟩
    refine ⟨before.length, by simp, hkeep, ?_⟩
    intro other_position other hother hotherKeep
    obtain hlt | heq | hgt := Nat.lt_trichotomy other_position before.length
    · rw [List.getElem?_append_left hlt] at hother
      exact absurd hotherKeep (hbefore other (List.mem_of_getElem? hother))
    · exact heq
    · obtain ⟨n, rfl⟩ := Nat.exists_eq_add_of_lt hgt
      have hshift : before.length + n + 1 - before.length = n + 1 := by omega
      rw [List.getElem?_append_right hgt.le, hshift, List.getElem?_cons_succ] at hother
      exact absurd hotherKeep (List.filter_eq_nil_iff.mp hafter other (List.mem_of_getElem? hother))
  · rintro ⟨position, hitem, hkeep, honly⟩
    obtain ⟨hlength, hget⟩ := List.getElem?_eq_some_iff.mp hitem
    refine ⟨items.take position, items.drop (position + 1), ?_, ?_, hkeep, ?_⟩
    · rw [← hget, List.getElem_cons_drop, List.take_append_drop]
    · intro other hmem hotherKeep
      obtain ⟨n, hn⟩ := List.mem_iff_getElem?.mp hmem
      rw [List.getElem?_take, Option.ite_none_right_eq_some] at hn
      have hsame := honly n other hn.2 hotherKeep
      omega
    · rw [List.filter_eq_nil_iff]
      intro other hmem hotherKeep
      obtain ⟨n, hn⟩ := List.mem_iff_getElem?.mp hmem
      rw [List.getElem?_drop] at hn
      have hsame := honly (position + 1 + n) other hn hotherKeep
      omega

end digraph
