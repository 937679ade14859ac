import ContextRouter.Python.Date
import Mathlib.Tactic.IntervalCases

namespace python

/-- The character of a decimal digit. -/
def digit (value : Nat) : CodePoint := Fin.ofNat 0x110000 (0x30 + value)

def digit_chars (digits : List Char) : Str := digits.map fun c => Fin.ofNat 0x110000 c.toNat

theorem digitChar_eq {value : Nat} (hvalue : value < 10) :
    digit_chars [Nat.digitChar value] = [digit value] := by
  interval_cases value <;> rfl

theorem decimal_eq_chars (number : Nat) : decimal number = digit_chars (Nat.toDigits 10 number) := by
  have htext : (toString number).toList = Nat.toDigits 10 number := Nat.toList_repr
  rw [decimal, Str.ofString, htext, digit_chars]

theorem decimal_of_lt {number : Nat} (hnumber : number < 10) : decimal number = [digit number] := by
  rw [decimal_eq_chars, Nat.toDigits_of_lt_base hnumber, digitChar_eq hnumber]

/-- The last digit comes off the end. -/
theorem decimal_of_le {number : Nat} (hnumber : 10 ≤ number) :
    decimal number = decimal (number / 10) ++ [digit (number % 10)] := by
  have hlast : number % 10 < 10 := Nat.mod_lt _ (by omega)
  rw [decimal_eq_chars, Nat.toDigits_of_base_le (by omega) hnumber, digit_chars, List.map_append,
    ← digitChar_eq hlast, decimal_eq_chars]
  rfl

theorem zero_padded_succ (width number : Nat) :
    zero_padded (width + 2) number = zero_padded (width + 1) (number / 10) ++ [digit (number % 10)] := by
  by_cases hnumber : number < 10
  · have hrest : number / 10 = 0 := by omega
    have hlast : number % 10 = number := by omega
    rw [hrest, hlast, zero_padded, zero_padded, decimal_of_lt hnumber, decimal_of_lt (show 0 < 10 by omega)]
    simp only [List.length_singleton, Nat.add_sub_cancel]
    rw [show width + 2 - 1 = width + 1 by omega, List.replicate_succ']
    rfl
  · have hdecimal := decimal_of_le (Nat.not_lt.mp hnumber)
    have hwidth : width + 2 - ((decimal (number / 10)).length + 1) = width + 1 - (decimal (number / 10)).length := by
      omega
    rw [zero_padded, zero_padded, hdecimal, List.length_append, List.length_singleton, hwidth, List.append_assoc]

theorem zero_padded_one {number : Nat} (hnumber : number < 10) : zero_padded 1 number = [digit number] := by
  rw [zero_padded, decimal_of_lt hnumber]
  rfl

theorem zero_padded_two {number : Nat} (hnumber : number < 100) :
    zero_padded 2 number = [digit (number / 10), digit (number % 10)] := by
  rw [zero_padded_succ, zero_padded_one (by omega)]
  rfl

theorem zero_padded_four {number : Nat} (hnumber : number < 10000) :
    zero_padded 4 number =
      [digit (number / 1000), digit (number / 100 % 10), digit (number / 10 % 10), digit (number % 10)] := by
  have hhundreds : number / 10 / 10 = number / 100 := by omega
  have hthousands : number / 100 / 10 = number / 1000 := by omega
  rw [zero_padded_succ, zero_padded_succ, zero_padded_succ, hhundreds, hthousands, zero_padded_one (by omega)]
  rfl

theorem ascii_digit_digit {low high value : Nat} (hvalue : value < 10) :
    ascii_digit low high (digit value) = if low ≤ value ∧ value ≤ high then some value else none := by
  have hval : (digit value).val = 0x30 + value := Nat.mod_eq_of_lt (show 0x30 + value < 0x110000 by omega)
  simp only [ascii_digit, hval, Nat.add_le_add_iff_left, Nat.add_sub_cancel_left]

theorem decimal_digit_digit {value : Nat} (hvalue : value < 10) : decimal_digit (digit value) = some value := by
  interval_cases value <;> rfl

theorem eq_digit_of_ascii_digit {low high value : Nat} {c : CodePoint} (hhigh : high ≤ 9)
    (hdigit : ascii_digit low high c = some value) : c = digit value ∧ value < 10 := by
  unfold ascii_digit at hdigit
  split at hdigit
  case isFalse => cases hdigit
  case isTrue hrange =>
    obtain rfl := Option.some.inj hdigit
    refine ⟨?_, by omega⟩
    apply Fin.ext
    have hback : 0x30 + (c.val - 0x30) = c.val := by omega
    rw [digit, hback]
    exact (Nat.mod_eq_of_lt c.isLt).symm

theorem days_in_month_le (year month : Nat) : days_in_month year month ≤ 31 := by
  unfold days_in_month
  split
  · split <;> omega
  · split <;> omega

namespace Date

/-- The date as ten characters. -/
theorem isoformat_eq (date : Date) :
    date.isoformat =
      [digit (date.year / 1000), digit (date.year / 100 % 10), digit (date.year / 10 % 10), digit (date.year % 10), 0x2d,
        digit (date.month / 10), digit (date.month % 10), 0x2d, digit (date.day / 10), digit (date.day % 10)] := by
  obtain ⟨⟨_, hyear⟩, ⟨_, hmonth⟩, _, hday⟩ := date.valid
  have hday := hday.trans (days_in_month_le date.year date.month)
  rw [isoformat, zero_padded_four (by omega), zero_padded_two (by omega), zero_padded_two (by omega)]
  rfl

theorem of?_fields (date : Date) : of? date.year date.month date.day = some date := by
  rw [of?, dif_pos date.valid]

theorem fields_of_of? {year month day : Nat} {date : Date} (hof : of? year month day = some date) :
    date.year = year ∧ date.month = month ∧ date.day = day := by
  unfold of? at hof
  split at hof
  case isFalse => cases hof
  case isTrue =>
    obtain rfl := Option.some.inj hof
    exact ⟨rfl, rfl, rfl⟩

end Date

/-- Two fields of digits. -/
theorem two_digits_digits {tens units : Nat} (htens : tens < 10) (hunits : units < 10) (rest : Str) :
    two_digits (ascii_digit 0 9) (ascii_digit 0 9) (digit tens :: digit units :: rest) =
      some (tens * 10 + units, rest) := by
  have hfirst : ascii_digit 0 9 (digit tens) = some tens := by rw [ascii_digit_digit htens, if_pos (by omega)]
  have hsecond : ascii_digit 0 9 (digit units) = some units := by rw [ascii_digit_digit hunits, if_pos (by omega)]
  simp only [two_digits, hfirst, hsecond]
  rfl

theorem iso_fields_digits {thousands hundreds tens units m1 m2 d1 d2 : Nat} (hthousands : thousands < 10)
    (hhundreds : hundreds < 10) (htens : tens < 10) (hunits : units < 10) (hm1 : m1 < 10) (hm2 : m2 < 10)
    (hd1 : d1 < 10) (hd2 : d2 < 10) :
    iso_fields [digit thousands, digit hundreds, digit tens, digit units, 0x2d, digit m1, digit m2, 0x2d, digit d1,
      digit d2] = some (thousands * 1000 + hundreds * 100 + tens * 10 + units, m1 * 10 + m2, d1 * 10 + d2) := by
  have hread : ∀ value, value < 10 → ascii_digit 0 9 (digit value) = some value := by
    intro value hvalue
    rw [ascii_digit_digit hvalue, if_pos (by omega)]
  simp only [iso_fields, hread _ hthousands, hread _ hhundreds, hread _ htens, hread _ hunits,
    two_digits_digits hm1 hm2, two_digits_digits hd1 hd2]
  rfl

theorem fromisoformat_isoformat (date : Date) : fromisoformat date.isoformat = some date := by
  obtain ⟨⟨_, hyear⟩, ⟨_, hmonth⟩, _, hday⟩ := date.valid
  have hday := hday.trans (days_in_month_le date.year date.month)
  have hyears : date.year / 1000 * 1000 + date.year / 100 % 10 * 100 + date.year / 10 % 10 * 10 + date.year % 10 =
      date.year := by
    omega
  have hmonths : date.month / 10 * 10 + date.month % 10 = date.month := by omega
  have hdays : date.day / 10 * 10 + date.day % 10 = date.day := by omega
  have hfields : iso_fields date.isoformat = some (date.year, date.month, date.day) := by
    rw [date.isoformat_eq, iso_fields_digits (by omega) (by omega) (by omega) (by omega) (by omega) (by omega)
      (by omega) (by omega), hyears, hmonths, hdays]
  rw [fromisoformat, hfields]
  exact date.of?_fields

theorem digits_of_iso_fields {text : Str} {year month day : Nat} (hfields : iso_fields text = some (year, month, day)) :
    text = [digit (year / 1000), digit (year / 100 % 10), digit (year / 10 % 10), digit (year % 10), 0x2d,
      digit (month / 10), digit (month % 10), 0x2d, digit (day / 10), digit (day % 10)] := by
  unfold iso_fields at hfields
  split at hfields
  case h_2 => cases hfields
  case h_1 y1 y2 y3 y4 dash1 m1 m2 dash2 d1 d2 =>
    simp only [two_digits, Option.bind_eq_bind, Option.bind_eq_some_iff, Option.pure_def, Option.some.injEq] at hfields
    obtain ⟨thousands, hthousands, hundreds, hhundreds, tens, htens, units, hunits, _, ⟨month1, hmonth1, month2, hmonth2,
      rfl⟩, _, ⟨day1, hday1, day2, hday2, rfl⟩, hdashes⟩ := hfields
    split at hdashes
    case isFalse => cases hdashes
    case isTrue hdash =>
      simp only [Option.some.injEq, Prod.mk.injEq] at hdashes
      obtain ⟨rfl, rfl, rfl⟩ := hdashes
      obtain ⟨rfl, _⟩ := eq_digit_of_ascii_digit le_rfl hthousands
      obtain ⟨rfl, _⟩ := eq_digit_of_ascii_digit le_rfl hhundreds
      obtain ⟨rfl, _⟩ := eq_digit_of_ascii_digit le_rfl htens
      obtain ⟨rfl, _⟩ := eq_digit_of_ascii_digit le_rfl hunits
      obtain ⟨rfl, _⟩ := eq_digit_of_ascii_digit le_rfl hmonth1
      obtain ⟨rfl, _⟩ := eq_digit_of_ascii_digit le_rfl hmonth2
      obtain ⟨rfl, _⟩ := eq_digit_of_ascii_digit le_rfl hday1
      obtain ⟨rfl, _⟩ := eq_digit_of_ascii_digit le_rfl hday2
      obtain rfl : dash1 = 0x2d := Fin.ext hdash.1
      obtain rfl : dash2 = 0x2d := Fin.ext hdash.2
      congr <;> omega

/-- A date is read from no other text. -/
theorem isoformat_of_fromisoformat {text : Str} {date : Date} (hread : fromisoformat text = some date) :
    text = date.isoformat := by
  simp only [fromisoformat, Option.bind_eq_bind, Option.bind_eq_some_iff] at hread
  obtain ⟨⟨year, month, day⟩, hfields, hof⟩ := hread
  obtain ⟨rfl, rfl, rfl⟩ := Date.fields_of_of? hof
  rw [date.isoformat_eq]
  exact digits_of_iso_fields hfields

theorem fromisoformat_eq_some_iff {text : Str} {date : Date} :
    fromisoformat text = some date ↔ text = date.isoformat := by
  constructor
  · exact isoformat_of_fromisoformat
  · intro htext
    rw [htext, fromisoformat_isoformat]

/-! ### The other parser -/

theorem directive_Y_digits {thousands hundreds tens units : Nat} (hthousands : thousands < 10)
    (hhundreds : hundreds < 10) (htens : tens < 10) (hunits : units < 10) (rest : Str) :
    directive_Y (digit thousands :: digit hundreds :: digit tens :: digit units :: rest) =
      some (thousands * 1000 + hundreds * 100 + tens * 10 + units, rest) := by
  simp only [directive_Y, decimal_digit_digit hthousands, decimal_digit_digit hhundreds, decimal_digit_digit htens,
    decimal_digit_digit hunits]
  rfl

theorem directive_m_digits {month : Nat} (hmonth : 1 ≤ month ∧ month ≤ 12) (rest : Str) :
    directive_m (digit (month / 10) :: digit (month % 10) :: rest) = some (month, rest) := by
  obtain ⟨hlow, hhigh⟩ := hmonth
  interval_cases month <;> rfl

theorem directive_d_digits {day : Nat} (hday : 1 ≤ day ∧ day ≤ 31) (rest : Str) :
    directive_d (digit (day / 10) :: digit (day % 10) :: rest) = some (day, rest) := by
  obtain ⟨hlow, hhigh⟩ := hday
  interval_cases day <;> rfl

theorem hyphen_cons (rest : Str) : hyphen (0x2d :: rest) = some rest := rfl

theorem strptime_isoformat (date : Date) : strptime date.isoformat = some date := by
  obtain ⟨⟨_, hyear⟩, hmonth, hfirst, hday⟩ := date.valid
  have hday := hday.trans (days_in_month_le date.year date.month)
  have hyears : date.year / 1000 * 1000 + date.year / 100 % 10 * 100 + date.year / 10 % 10 * 10 + date.year % 10 =
      date.year := by
    omega
  rw [date.isoformat_eq, strptime, directive_Y_digits (by omega) (by omega) (by omega) (by omega), hyears]
  simp only [Option.bind_eq_bind, Option.bind_some, hyphen_cons, directive_m_digits hmonth,
    directive_d_digits ⟨hfirst, hday⟩]
  exact date.of?_fields

/-- The two parsers agree on what `fromisoformat` reads. -/
theorem strptime_of_fromisoformat {text : Str} {date : Date} (hread : fromisoformat text = some date) :
    strptime text = some date := by
  rw [isoformat_of_fromisoformat hread]
  exact strptime_isoformat date

end python
