import ContextRouter.SourceReadObservation

open python

namespace context_router.source_read_observation

/-- The first part of an encoding and what follows it. -/
def first_part (encoded : Bytes) : Option (Bytes × Bytes) :=
  match encoded.dropWhile is_digit with
  | [] => none
  | stop :: rest =>
    let length := numeral_value (encoded.takeWhile is_digit)
    if stop = 0x3a ∧ length ≤ rest.length then some (rest.take length, rest.drop length) else none

/-- Take off one part after the other. The fuel bounds their number. -/
def take_parts : Nat → Bytes → Option (List Bytes)
  | 0, encoded => if encoded = [] then some [] else none
  | fuel + 1, encoded =>
    if encoded = [] then some []
    else do
      let (part, rest) ← first_part encoded
      let parts ← take_parts fuel rest
      return part :: parts

/-- The parts of an encoding. Each of them takes at least its colon. -/
def decode_parts (encoded : Bytes) : Option (List Bytes) := take_parts encoded.length encoded

theorem first_part_length_prefixed (part : Bytes) (parts : List Bytes) :
    first_part (length_prefixed (part :: parts)) = some (part, length_prefixed parts) := by
  have hcolon : is_digit 0x3a = false := by decide
  have hdigits : (length_prefixed (part :: parts)).takeWhile is_digit = numeral part.length := by
    rw [length_prefixed_cons, List.takeWhile_append_of_pos (numeral_digits part.length)]
    simp [hcolon]
  have hrest : (length_prefixed (part :: parts)).dropWhile is_digit = 0x3a :: (part ++ length_prefixed parts) := by
    rw [length_prefixed_cons, List.dropWhile_append_of_pos (numeral_digits part.length)]
    simp [hcolon]
  simp only [first_part, hdigits, hrest, numeral_value_numeral]
  rw [if_pos ⟨trivial, by simp⟩, List.take_left, List.drop_left]

/-- Whatever the parts hold, taking them off gives them back. -/
theorem take_parts_length_prefixed {parts : List Bytes} {fuel : Nat} (hfuel : parts.length ≤ fuel) :
    take_parts fuel (length_prefixed parts) = some parts := by
  induction parts generalizing fuel with
  | nil => cases fuel <;> rfl
  | cons part parts ih =>
    cases fuel with
    | zero => cases hfuel
    | succ fuel =>
      have hne : length_prefixed (part :: parts) ≠ [] := by simp [length_prefixed_cons]
      have hrest := ih (Nat.le_of_succ_le_succ hfuel)
      simp only [take_parts, if_neg hne, first_part_length_prefixed, Option.bind_eq_bind, Option.bind_some, hrest]
      rfl

theorem length_le_length_prefixed (parts : List Bytes) : parts.length ≤ (length_prefixed parts).length := by
  induction parts with
  | nil => simp [length_prefixed]
  | cons part parts ih =>
    rw [length_prefixed_cons]
    simp only [List.length_append, List.length_cons]
    omega

/-- An encoding determines the list of parts it was made from: every part says where it
    ends before it begins, so nothing that it holds can be taken for another one. -/
theorem length_prefixed_uniquely_decodable :
    (∀ parts, decode_parts (length_prefixed parts) = some parts) ∧ Function.Injective length_prefixed := by
  have hdecode : ∀ parts, decode_parts (length_prefixed parts) = some parts :=
    fun parts => take_parts_length_prefixed (length_le_length_prefixed parts)
  refine ⟨hdecode, ?_⟩
  intro parts parts' heq
  have hparts : some parts = some parts' := by rw [← hdecode parts, heq, hdecode parts']
  exact Option.some.inj hparts

end context_router.source_read_observation
