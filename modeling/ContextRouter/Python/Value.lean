import ContextRouter.Python.Text

namespace python

/-- A Python `bytes`. -/
abbrev Bytes := List UInt8

/-- A Python value of the types that the program tells apart. A `float` is kept as
    its binary64 bits, and a `dict` as its items with `str` keys; any other value is
    an object of some class that does not derive from these types. -/
inductive Value where
  | none
  | bool (flag : Bool)
  | int (number : Int)
  | float (bits : UInt64)
  | str (text : Str)
  | bytes (content : Bytes)
  | list (items : List Value)
  | tuple (items : List Value)
  | dict (items : List (Str × Value))
  | object (type_name : Str)

namespace Value

def isNone : Value → Bool
  | none => true
  | _ => false

def isBool : Value → Bool
  | bool _ => true
  | _ => false

/-- The value is `True`. -/
def isTrue : Value → Bool
  | bool flag => flag
  | _ => false

/-- The text of an exact `str`. -/
def str? : Value → Option Str
  | str text => some text
  | _ => Option.none

theorem isBool_iff {value : Value} : value.isBool = true ↔ value = bool value.isTrue := by
  cases value <;> simp [isBool, isTrue]

/-- The content of an exact `bytes`. -/
def bytes? : Value → Option Bytes
  | bytes content => some content
  | _ => Option.none

/-- `type(value).__name__`. -/
def type_name : Value → Str
  | none => "NoneType"
  | bool _ => "bool"
  | int _ => "int"
  | float _ => "float"
  | str _ => "str"
  | bytes _ => "bytes"
  | list _ => "list"
  | tuple _ => "tuple"
  | dict _ => "dict"
  | object name => name

@[simp] theorem str?_eq_some_iff {value : Value} {text : Str} : value.str? = some text ↔ value = str text := by
  cases value <;> simp [str?]

@[simp] theorem bytes?_eq_some_iff {value : Value} {content : Bytes} :
    value.bytes? = some content ↔ value = bytes content := by
  cases value <;> simp [bytes?]

@[simp] theorem filterMap_str?_map (texts : List Str) : (texts.map str).filterMap str? = texts :=
  filterMap_map_of_forall fun _ _ => rfl

/-- When no value is dropped all of them are texts. -/
theorem map_str_of_length {values : List Value} (hlength : (values.filterMap str?).length = values.length) :
    (values.filterMap str?).map str = values :=
  map_filterMap_of_length (fun _ _ => str?_eq_some_iff.mp) hlength

end Value

end python
