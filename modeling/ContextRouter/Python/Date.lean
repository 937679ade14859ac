import ContextRouter.Python.Text

namespace python

/-- Leap years of the proleptic Gregorian calendar. -/
def is_leap (year : Nat) : Bool :=
  year % 4 = 0 && (year % 100 ≠ 0 || year % 400 = 0)

def days_in_month (year month : Nat) : Nat :=
  if month = 2 then (if is_leap year then 29 else 28)
  else if month ∈ [4, 6, 9, 11] then 30
  else 31

/-- A `datetime.date`. Only dates of the calendar from year 1 to year 9999 can be
    built. -/
structure Date where
  year : Nat
  month : Nat
  day : Nat
  valid : (1 ≤ year ∧ year ≤ 9999) ∧ (1 ≤ month ∧ month ≤ 12) ∧ 1 ≤ day ∧ day ≤ days_in_month year month
deriving DecidableEq, Repr

namespace Date

/-- `date(year, month, day)`, which raises `ValueError` off the calendar. -/
def of? (year month day : Nat) : Option Date :=
  if valid : (1 ≤ year ∧ year ≤ 9999) ∧ (1 ≤ month ∧ month ≤ 12) ∧ 1 ≤ day ∧ day ≤ days_in_month year month then
    some ⟨year, month, day, valid⟩
  else
    none

/-- `date.toordinal()`: day 1 is 0001-01-01. -/
def toordinal (date : Date) : Nat :=
  let before := date.year - 1
  before * 365 + before / 4 - before / 100 + before / 400 +
    (List.range (date.month - 1)).foldl (fun days m => days + days_in_month date.year (m + 1)) 0 + date.day

/-- Dates compare as their ordinals do. -/
instance : Preorder Date := Preorder.lift toordinal

instance : DecidableLE Date := fun left right => Nat.decLe left.toordinal right.toordinal

/-- Any two dates compare. -/
theorem not_le {left right : Date} : ¬ left ≤ right ↔ right.toordinal < left.toordinal := Nat.not_le

/-- `date.min`. -/
def min : Date := ⟨1, 1, 1, by decide⟩

theorem min_le (date : Date) : min ≤ date := by
  have hday : 1 ≤ date.day := date.valid.2.2.1
  have hmin : min.toordinal = 1 := rfl
  have hpos : 1 ≤ date.toordinal := hday.trans (Nat.le_add_left date.day _)
  exact hmin.trans_le hpos

/-- `(later - earlier).days`. -/
def days_since (later earlier : Date) : Int := (later.toordinal : Int) - earlier.toordinal

end Date

/-- The digit zeros of Unicode's decimal digits; the nine that follow each zero are
    the other digits of its script. -/
def decimal_zeros : List Nat :=
  [0x30, 0x660, 0x6f0, 0x7c0, 0x966, 0x9e6, 0xa66, 0xae6, 0xb66, 0xbe6, 0xc66, 0xce6, 0xd66, 0xde6,
    0xe50, 0xed0, 0xf20, 0x1040, 0x1090, 0x17e0, 0x1810, 0x1946, 0x19d0, 0x1a80, 0x1a90, 0x1b50,
    0x1bb0, 0x1c40, 0x1c50, 0xa620, 0xa8d0, 0xa900, 0xa9d0, 0xa9f0, 0xaa50, 0xabf0, 0xff10, 0x104a0,
    0x10d30, 0x11066, 0x110f0, 0x11136, 0x111d0, 0x112f0, 0x11450, 0x114d0, 0x11650, 0x116c0, 0x11730,
    0x118e0, 0x11950, 0x11c50, 0x11d50, 0x11da0, 0x11f50, 0x16a60, 0x16ac0, 0x16b50, 0x1d7ce, 0x1d7d8,
    0x1d7e2, 0x1d7ec, 0x1d7f6, 0x1e140, 0x1e2f0, 0x1e4f0, 0x1e950, 0x1fbf0]

/-- The pattern `\d`: any Unicode decimal digit, with its value. -/
def decimal_digit (c : CodePoint) : Option Nat :=
  (decimal_zeros.find? fun start => start ≤ c.val && c.val < start + 10).map fun start => c.val - start

/-- The pattern `[low-high]` on ASCII digits, with the digit's value. -/
def ascii_digit (low high : Nat) (c : CodePoint) : Option Nat :=
  if 0x30 + low ≤ c.val ∧ c.val ≤ 0x30 + high then some (c.val - 0x30) else none

/-- `%Y`: the pattern `\d\d\d\d`. -/
def directive_Y : Str → Option (Nat × Str)
  | a :: b :: c :: d :: rest => do
    let thousands ← decimal_digit a
    let hundreds ← decimal_digit b
    let tens ← decimal_digit c
    let units ← decimal_digit d
    return (thousands * 1000 + hundreds * 100 + tens * 10 + units, rest)
  | _ => none

/-- Two characters matched by two patterns, read as a two-digit number. -/
def two_digits (first second : CodePoint → Option Nat) : Str → Option (Nat × Str)
  | a :: b :: rest => do
    let tens ← first a
    let units ← second b
    return (tens * 10 + units, rest)
  | _ => none

/-- One character matched by `[1-9]`. -/
def nonzero_digit : Str → Option (Nat × Str)
  | a :: rest => do
    let units ← ascii_digit 1 9 a
    return (units, rest)
  | _ => none

/-- `%m`: the pattern `1[0-2]|0[1-9]|[1-9]`. -/
def directive_m (text : Str) : Option (Nat × Str) :=
  two_digits (ascii_digit 1 1) (ascii_digit 0 2) text <|>
    two_digits (ascii_digit 0 0) (ascii_digit 1 9) text <|>
    nonzero_digit text

/-- `%d`: the pattern `3[0-1]|[1-2]\d|0[1-9]|[1-9]| [1-9]`. -/
def directive_d (text : Str) : Option (Nat × Str) :=
  two_digits (ascii_digit 3 3) (ascii_digit 0 1) text <|>
    two_digits (ascii_digit 1 2) decimal_digit text <|>
    two_digits (ascii_digit 0 0) (ascii_digit 1 9) text <|>
    nonzero_digit text <|>
    two_digits (fun c => if c.val = 0x20 then some 0 else none) (ascii_digit 1 9) text

/-- A literal hyphen of the format. -/
def hyphen : Str → Option Str
  | c :: rest => if c.val = 0x2d then some rest else none
  | [] => none

/-- `datetime.strptime(text, "%Y-%m-%d").date()`, with `none` for `ValueError`. The
    alternatives of a directive are tried in order and the first that matches is
    kept: what follows a month is a hyphen, which no shorter month leaves, and what
    follows a day is not looked at until the match is complete. -/
def strptime (text : Str) : Option Date := do
  let (year, text) ← directive_Y text
  let text ← hyphen text
  let (month, text) ← directive_m text
  let text ← hyphen text
  let (day, text) ← directive_d text
  if text ≠ [] then none else Date.of? year month day

/-- A full match of `[0-9]{4}-[0-9]{2}-[0-9]{2}`, with the three numbers it spells. -/
def iso_fields : Str → Option (Nat × Nat × Nat)
  | [y1, y2, y3, y4, dash1, m1, m2, dash2, d1, d2] => do
    let thousands ← ascii_digit 0 9 y1
    let hundreds ← ascii_digit 0 9 y2
    let tens ← ascii_digit 0 9 y3
    let units ← ascii_digit 0 9 y4
    let month ← two_digits (ascii_digit 0 9) (ascii_digit 0 9) [m1, m2]
    let day ← two_digits (ascii_digit 0 9) (ascii_digit 0 9) [d1, d2]
    if dash1.val = 0x2d ∧ dash2.val = 0x2d then
      some (thousands * 1000 + hundreds * 100 + tens * 10 + units, month.1, day.1)
    else
      none
  | _ => none

/-- `date.fromisoformat(text)` for a text of the form `YYYY-MM-DD`. -/
def fromisoformat (text : Str) : Option Date := do
  let (year, month, day) ← iso_fields text
  Date.of? year month day

/-- A number with leading zeros. -/
def zero_padded (width number : Nat) : Str :=
  List.replicate (width - (decimal number).length) 0x30 ++ decimal number

/-- `date.isoformat()`. -/
def Date.isoformat (date : Date) : Str :=
  zero_padded 4 date.year ++ Str.ofString "-" ++ zero_padded 2 date.month ++ Str.ofString "-" ++
    zero_padded 2 date.day

example : (strptime "2026-08-28").map Date.toordinal = some 739856 := by decide

end python
