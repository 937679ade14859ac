import ContextRouter.Python.Value

namespace python

/-- What `hash` raises for a value that has none. -/
inductive TypeError where
  | unhashable

/-- A finite `float`, counted in units of 2^-1074, the least positive one. -/
def float_units (bits : UInt64) : Option Int :=
  let exponent := bits.toNat / 2 ^ 52 % 2 ^ 11
  let fraction : Nat := bits.toNat % 2 ^ 52
  if exponent = 0x7ff then none
  else
    let units : Nat := if exponent = 0 then fraction else (2 ^ 52 + fraction) * 2 ^ (exponent - 1)
    some (if bits.toNat / 2 ^ 63 = 1 then -(units : Int) else units)

/-- The number 1, in the same units. -/
def one_units : Nat := 2 ^ 1074

/-- A finite number of any type, in the same units. -/
def number_units : Value → Option Int
  | .bool flag => some (if flag then one_units else 0)
  | .int number => some (number * one_units)
  | .float bits => float_units bits
  | _ => none

def is_infinite (bits : UInt64) : Bool := bits.toNat % 2 ^ 63 = 0x7ff0000000000000

mutual

/-- Two hashable values are one element of a `set`. A `set` compares by identity first,
    which a value here does not have: a NaN, which is equal to nothing, is never one element
    with a NaN, though one NaN object that occurs twice would be. Every object is taken to be
    equal to itself alone, so each makes an element of its own. -/
def same_element : Value → Value → Bool
  | .none, .none => true
  | .str left, .str right => left = right
  | .bytes left, .bytes right => left = right
  | .tuple left, .tuple right => same_elements left right
  | .float left, .float right =>
    if is_infinite left ∧ is_infinite right then left = right
    else (float_units left).isSome ∧ float_units left = float_units right
  | left, right => (number_units left).isSome ∧ number_units left = number_units right

def same_elements : List Value → List Value → Bool
  | [], [] => true
  | left :: lefts, right :: rights => same_element left right && same_elements lefts rights
  | _, _ => false

end

mutual

/-- `hash(value)` does not raise. An `object` stands for one whose class has a hash, so for
    no `set`, `bytearray` or other class without one. -/
def hashable : Value → Bool
  | .list _ => false
  | .dict _ => false
  | .tuple items => all_hashable items
  | _ => true

def all_hashable : List Value → Bool
  | [] => true
  | item :: rest => hashable item && all_hashable rest

end

/-- Add values to a set one by one. -/
def add_elements (elements : List Value) : List Value → List Value
  | [] => elements
  | item :: rest =>
    add_elements (if elements.any fun element => same_element element item then elements else elements ++ [item]) rest

/-- `set(items)`, as the list of its elements. -/
def set_of (items : List Value) : Except TypeError (List Value) :=
  if all_hashable items then .ok (add_elements [] items) else .error .unhashable

theorem all_hashable_map_str (texts : List Str) : all_hashable (texts.map .str) = true := by
  induction texts with
  | nil => rfl
  | cons text rest ih => simp [all_hashable, hashable, ih]

theorem length_add_elements_le (elements items : List Value) :
    (add_elements elements items).length ≤ elements.length + items.length := by
  induction items generalizing elements with
  | nil => simp [add_elements]
  | cons item rest ih =>
    rw [add_elements, List.length_cons]
    apply (ih _).trans
    split
    · omega
    · rw [List.length_append, List.length_singleton]
      omega

/-- Texts keep their number in a set exactly when no two are equal. -/
theorem length_add_elements_texts {elements texts : List Str} :
    (add_elements (elements.map .str) (texts.map .str)).length = elements.length + texts.length ↔
      texts.Nodup ∧ ∀ text ∈ texts, text ∉ elements := by
  induction texts generalizing elements with
  | nil => simp [add_elements]
  | cons text rest ih =>
    have hany : ((elements.map Value.str).any fun element => same_element element (.str text)) = true ↔
        text ∈ elements := by
      simp [same_element]
    rw [List.map_cons, add_elements, List.nodup_cons, List.forall_mem_cons, List.length_cons]
    by_cases hmem : text ∈ elements
    · rw [if_pos (hany.mpr hmem)]
      have hle := length_add_elements_le (elements.map .str) (rest.map .str)
      rw [List.length_map, List.length_map] at hle
      constructor
      · intro hlength
        omega
      · intro h
        exact absurd hmem h.2.1
    · rw [if_neg (mt hany.mp hmem)]
      have hadded : elements.map Value.str ++ [Value.str text] = (elements ++ [text]).map Value.str := by simp
      have hlength : elements.length + (rest.length + 1) = (elements ++ [text]).length + rest.length := by
        rw [List.length_append, List.length_singleton]
        omega
      rw [hadded, hlength, ih]
      simp only [List.mem_append, List.mem_singleton, not_or]
      constructor
      · intro ⟨hdistinct, hfresh⟩
        exact ⟨⟨fun h => (hfresh text h).2 rfl, hdistinct⟩, hmem, fun other hother => (hfresh other hother).1⟩
      · intro ⟨⟨hnot, hdistinct⟩, _, hfresh⟩
        exact ⟨hdistinct, fun other hother => ⟨hfresh other hother, fun heq => hnot (heq ▸ hother)⟩⟩

/-- A set of texts has as many elements as it was given exactly when they are
    distinct. -/
theorem set_of_texts (texts : List Str) :
    ∃ elements, set_of (texts.map .str) = .ok elements ∧ (elements.length = texts.length ↔ texts.Nodup) := by
  refine ⟨_, by rw [set_of, if_pos (all_hashable_map_str texts)], ?_⟩
  have hlength := @length_add_elements_texts [] texts
  rw [List.map_nil, List.length_nil, Nat.zero_add] at hlength
  rw [hlength]
  simp

-- 1, True, 1.0 and "1": the first three are one element
example : (add_elements [] [.int 1, .bool true, .float 0x3ff0000000000000, .str "1"]).length = 2 := by decide +kernel

end python
