import ContextRouter.Python.Utf8

namespace python

def is_digit (byte : UInt8) : Bool := 48 ≤ byte.toNat && byte.toNat ≤ 57

/-- The number that a decimal numeral stands for. -/
def numeral_value (numeral : Bytes) : Nat :=
  numeral.foldl (fun value byte => 10 * value + (byte.toNat - 48)) 0

/-- A number as ASCII digits. -/
def numeral (number : Nat) : Bytes := encode_ascii (decimal number)

theorem encode_ascii_append (left right : Str) :
    encode_ascii (left ++ right) = encode_ascii left ++ encode_ascii right :=
  List.map_append

theorem toNat_digit {number : Nat} {c : Char} (hc : c ∈ Nat.toDigits 10 number) : 48 ≤ c.toNat ∧ c.toNat ≤ 57 := by
  have hdigit := Nat.isDigit_of_mem_toDigits (by omega) (by omega) hc
  rw [Char.isDigit, Bool.and_eq_true, decide_eq_true_eq, decide_eq_true_eq] at hdigit
  exact ⟨UInt32.le_iff_toNat_le.mp hdigit.1, UInt32.le_iff_toNat_le.mp hdigit.2⟩

theorem toNat_digit_byte {number : Nat} {c : Char} (hc : c ∈ Nat.toDigits 10 number) :
    (UInt8.ofNat c.toNat).toNat = c.toNat := by
  have hdigit := toNat_digit hc
  exact UInt8.toNat_ofNat_of_lt' (show c.toNat < 256 by omega)

theorem numeral_eq (number : Nat) : numeral number = (Nat.toDigits 10 number).map fun c => UInt8.ofNat c.toNat := by
  have htext : (toString number).toList = Nat.toDigits 10 number := Nat.toList_repr
  rw [numeral, encode_ascii, decimal, Str.ofString, htext, List.map_map]
  apply List.map_congr_left
  intro c hc
  have hdigit := toNat_digit hc
  simp only [Function.comp_apply, Fin.ofNat, Nat.mod_eq_of_lt (show c.toNat < 0x110000 by omega)]

theorem numeral_digits (number : Nat) : ∀ byte ∈ numeral number, is_digit byte = true := by
  intro byte hbyte
  rw [numeral_eq] at hbyte
  obtain ⟨c, hc, rfl⟩ := List.mem_map.mp hbyte
  simp [is_digit, toNat_digit_byte hc, toNat_digit hc]

/-- A numeral is read back as its number. -/
theorem numeral_value_numeral (number : Nat) : numeral_value (numeral number) = number := by
  calc numeral_value (numeral number)
      = (Nat.toDigits 10 number).foldl (fun value c => 10 * value + ((UInt8.ofNat c.toNat).toNat - 48)) 0 := by
        rw [numeral_eq, numeral_value, List.foldl_map]
    _ = Nat.ofDigitChars 10 (Nat.toDigits 10 number) 0 := by
        apply List.foldl_ext
        intro value c hc
        rw [toNat_digit_byte hc]
        rfl
    _ = number := Nat.ofDigitChars_ten_toDigits

/-- A numeral ends where its first other byte stands. -/
theorem numeral_append_inj {number number' : Nat} {stop stop' : UInt8} {rest rest' : Bytes}
    (hstop : is_digit stop = false) (hstop' : is_digit stop' = false)
    (heq : numeral number ++ stop :: rest = numeral number' ++ stop' :: rest') :
    number = number' ∧ stop = stop' ∧ rest = rest' := by
  have hnumeral : numeral number = numeral number' := by
    have htaken := congrArg (List.takeWhile is_digit) heq
    rw [List.takeWhile_append_of_pos (numeral_digits number), List.takeWhile_append_of_pos (numeral_digits number')]
      at htaken
    simpa [hstop, hstop'] using htaken
  rw [hnumeral, List.append_right_inj, List.cons.injEq] at heq
  refine ⟨?_, heq⟩
  rw [← numeral_value_numeral number, hnumeral, numeral_value_numeral]

end python
