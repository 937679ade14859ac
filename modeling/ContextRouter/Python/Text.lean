import Mathlib.Algebra.GroupWithZero.Nat
import Mathlib.Data.List.Dedup
import Mathlib.Data.List.Lex
import Mathlib.Data.List.Sort
import Mathlib.Order.Fin.Basic

namespace python

/-- A code point of a Python `str`. Unlike a Lean `Char` it may be a lone
    surrogate. -/
abbrev CodePoint := Fin 0x110000

instance CodePoint.neZero : NeZero 0x110000 := ⟨by decide⟩

/-- A Python `str`: any finite sequence of code points. -/
abbrev Str := List CodePoint

instance Str.lawfulBEq : LawfulBEq Str := inferInstanceAs (LawfulBEq (List CodePoint))

/-- The `str` a literal of the source denotes. -/
def Str.ofString (literal : String) : Str :=
  literal.toList.map fun c => Fin.ofNat 0x110000 c.toNat

instance : Coe String Str := ⟨Str.ofString⟩

/-- The text of a number in an f-string. -/
def decimal (number : Nat) : Str := Str.ofString (toString number)

/-- A field tested for truth, as in `if decision_id:`. A missing field and an
    empty string both count as no value. -/
def truthy : Option Str → Option Str
  | some (c :: rest) => some (c :: rest)
  | _ => none

theorem truthy_eq_some_iff {value : Option Str} {text : Str} :
    truthy value = some text ↔ value = some text ∧ text ≠ [] := by
  cases value with
  | none => simp [truthy]
  | some actual =>
    cases actual with
    | nil =>
      simp only [truthy, reduceCtorEq, Option.some.injEq, false_iff, not_and, not_not]
      exact Eq.symm
    | cons c rest =>
      simp only [truthy, Option.some.injEq]
      constructor
      · intro htext
        exact ⟨htext, by simp [← htext]⟩
      · exact And.left

/-- The exceptions that the modelled functions let escape. -/
inductive Raised where
  | ValueError
  | AssertionError
deriving DecidableEq, Repr

section Raising

variable {ε α β : Type}

@[simp] theorem ok_bind (value : α) (next : α → Except ε β) : (Except.ok value >>= next) = next value := rfl

@[simp] theorem error_bind (raised : ε) (next : α → Except ε β) : (Except.error raised >>= next) = .error raised := rfl

@[simp] theorem pure_eq_ok_iff {value result : α} : (pure value : Except ε α) = .ok result ↔ value = result := by
  simp [pure, Except.pure]

/-- A sequence of two steps returns exactly when both do. -/
theorem bind_eq_ok_iff {first : Except ε α} {next : α → Except ε β} {result : β} :
    first >>= next = .ok result ↔ ∃ value, first = .ok value ∧ next value = .ok result := by
  cases first <;> simp

end Raising

/-- `sorted(set(items))`. Python orders strings by their code points. -/
def sorted_set (items : List Str) : List Str :=
  items.dedup.insertionSort (· ≤ ·)

theorem mem_sorted_set {items : List Str} {item : Str} : item ∈ sorted_set items ↔ item ∈ items := by
  simp [sorted_set, (List.perm_insertionSort _ _).mem_iff]

/-- An error report is empty exactly when no error was collected. -/
@[simp] theorem sorted_set_eq_nil {items : List Str} : sorted_set items = [] ↔ items = [] := by
  simp only [List.eq_nil_iff_forall_not_mem, mem_sorted_set]

/-- An error report is in order and names no error twice. -/
theorem sorted_set_strictly_sorted (items : List Str) : (sorted_set items).Pairwise (· < ·) := by
  have hsorted : (sorted_set items).Pairwise (· ≤ ·) := List.pairwise_insertionSort (· ≤ ·) items.dedup
  have hdistinct : (sorted_set items).Nodup :=
    (List.perm_insertionSort (· ≤ ·) items.dedup).nodup_iff.mpr items.nodup_dedup
  refine hsorted.imp₂ ?_ hdistinct
  exact fun _ _ hle hne => lt_of_le_of_ne hle hne

section Reading

variable {α β : Type} {read : α → Option β} {write : β → α}

/-- When every item can be read, writing what was read gives the items back. -/
theorem map_filterMap_of_length (hread : ∀ item value, read item = some value → item = write value) {items : List α}
    (hlength : (items.filterMap read).length = items.length) : (items.filterMap read).map write = items := by
  have hall := List.filterMap_length_eq_length.mp hlength
  have hback : ∀ item ∈ items, (read item).map write = some item := by
    intro item hitem
    obtain ⟨value, hvalue⟩ := Option.isSome_iff_exists.mp (hall item hitem)
    rw [hvalue, Option.map_some, hread item value hvalue]
  rw [List.map_filterMap, List.filterMap_congr hback, List.filterMap_some]

/-- Reading what was written gives the values back. -/
theorem filterMap_map_of_forall {values : List β} (hwrite : ∀ value ∈ values, read (write value) = some value) :
    (values.map write).filterMap read = values := by
  have hread : values.filterMap (read ∘ write) = values.filterMap some := List.filterMap_congr hwrite
  rw [List.filterMap_map, hread, List.filterMap_some]

end Reading

/-- An element that two lists do not hold ends both at the same place. -/
theorem append_stop_inj {α : Type} {left left' rest rest' : List α} {stop : α} (hleft : stop ∉ left)
    (hleft' : stop ∉ left') (heq : left ++ stop :: rest = left' ++ stop :: rest') : left = left' ∧ rest = rest' := by
  induction left generalizing left' with
  | nil =>
    cases left' with
    | nil => exact ⟨rfl, (List.cons.inj heq).2⟩
    | cons c later => exact absurd ((List.cons.inj heq).1 ▸ List.mem_cons_self) hleft'
  | cons c later ih =>
    cases left' with
    | nil => exact absurd ((List.cons.inj heq).1 ▸ List.mem_cons_self) hleft
    | cons c' later' =>
      obtain ⟨rfl, hlater⟩ := List.cons.inj heq
      obtain ⟨rfl, hrest⟩ := ih (mt (List.mem_cons_of_mem c) hleft) (mt (List.mem_cons_of_mem c) hleft') hlater
      exact ⟨rfl, hrest⟩

end python
