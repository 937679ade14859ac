import ContextRouter.Python.Dict
import ContextRouter.Python.Value

namespace python

/-- `value.get(key)`, for a `dict`. -/
def Value.get? : Value → Str → Option Value
  | .dict items, key => lookupItem key items
  | _, _ => Option.none

/-- A JSON text as its syntax tree. An object is the list of its pairs in the order
    of the text, so a key may occur twice; `NaN` and the infinities, which Python
    accepts, are constants. -/
inductive Json where
  | null
  | bool (flag : Bool)
  | int (number : Int)
  | float (bits : UInt64)
  | constant (name : Str)
  | str (text : Str)
  | array (items : List Json)
  | object (pairs : List (Str × Json))

/-- The hooks of `json.loads`, with `none` where a hook raises. -/
structure Hooks where
  object_pairs_hook : List (Str × Value) → Option Value
  parse_constant : Str → Option Value

namespace Json

mutual

/-- The value that `json.loads` builds from a syntax tree. Inner values are built
    before the object that holds them. -/
def load (hooks : Hooks) : Json → Option Value
  | null => some .none
  | bool flag => some (.bool flag)
  | int number => some (.int number)
  | float bits => some (.float bits)
  | constant name => hooks.parse_constant name
  | str text => some (.str text)
  | array items => do
    let values ← loadItems hooks items
    return .list values
  | object pairs => do
    let values ← loadPairs hooks pairs
    hooks.object_pairs_hook values

def loadItems (hooks : Hooks) : List Json → Option (List Value)
  | [] => some []
  | item :: rest => do
    let value ← load hooks item
    let later ← loadItems hooks rest
    return value :: later

def loadPairs (hooks : Hooks) : List (Str × Json) → Option (List (Str × Value))
  | [] => some []
  | (key, item) :: rest => do
    let value ← load hooks item
    let later ← loadPairs hooks rest
    return (key, value) :: later

end

mutual

/-- No object of the tree has a key twice. -/
def NoDuplicateKeys : Json → Prop
  | null | bool _ | int _ | float _ | constant _ | str _ => True
  | array items => ItemsNoDuplicateKeys items
  | object pairs => (pairs.map Prod.fst).Nodup ∧ PairsNoDuplicateKeys pairs

def ItemsNoDuplicateKeys : List Json → Prop
  | [] => True
  | item :: rest => NoDuplicateKeys item ∧ ItemsNoDuplicateKeys rest

def PairsNoDuplicateKeys : List (Str × Json) → Prop
  | [] => True
  | (_, item) :: rest => NoDuplicateKeys item ∧ PairsNoDuplicateKeys rest

end

mutual

/-- The tree holds no constant. -/
def NoConstants : Json → Prop
  | null | bool _ | int _ | float _ | str _ => True
  | constant _ => False
  | array items => ItemsNoConstants items
  | object pairs => PairsNoConstants pairs

def ItemsNoConstants : List Json → Prop
  | [] => True
  | item :: rest => NoConstants item ∧ ItemsNoConstants rest

def PairsNoConstants : List (Str × Json) → Prop
  | [] => True
  | (_, item) :: rest => NoConstants item ∧ PairsNoConstants rest

end

/-- A `dict` built from pairs: the last value of a key wins. -/
def dict_of (pairs : List (Str × Value)) : List (Str × Value) :=
  pairs.foldl (fun output pair => setItem pair.1 pair.2 output) []

/-- `json.loads` without hooks. -/
def default_hooks : Hooks where
  object_pairs_hook pairs := some (.dict (dict_of pairs))
  parse_constant name := lookupItem name
    [("-Infinity", .float 0xfff0000000000000), ("Infinity", .float 0x7ff0000000000000),
      ("NaN", .float 0x7ff8000000000000)]

theorem loadPairs_keys {hooks : Hooks} {pairs : List (Str × Json)} {values : List (Str × Value)}
    (hload : loadPairs hooks pairs = some values) : values.map Prod.fst = pairs.map Prod.fst := by
  induction pairs generalizing values with
  | nil =>
    simp only [loadPairs, Option.some.injEq] at hload
    simp [← hload]
  | cons pair rest ih =>
    simp only [loadPairs, Option.bind_eq_bind, Option.bind_eq_some_iff, Option.pure_def, Option.some.injEq] at hload
    obtain ⟨value, _, later, hlater, rfl⟩ := hload
    simp [ih hlater]

/-- Hooks that build a `dict` from distinct keys and reject all else. -/
structure Strict (hooks : Hooks) : Prop where
  pairs : ∀ pairs value, hooks.object_pairs_hook pairs = some value →
    (pairs.map Prod.fst).Nodup ∧ value = .dict (dict_of pairs)
  constant : ∀ name, hooks.parse_constant name = none

mutual

/-- A load whose hooks reject repeated keys and constants has seen none of them, and
    builds what a load without hooks builds. -/
theorem load_strict {hooks : Hooks} (hstrict : Strict hooks) :
    ∀ (json : Json) (value : Value), load hooks json = some value →
    json.NoDuplicateKeys ∧ load default_hooks json = some value
  | null, _, hload => ⟨trivial, hload⟩
  | bool _, _, hload => ⟨trivial, hload⟩
  | int _, _, hload => ⟨trivial, hload⟩
  | float _, _, hload => ⟨trivial, hload⟩
  | str _, _, hload => ⟨trivial, hload⟩
  | constant name, value, hload => by
    simp only [load, hstrict.constant name] at hload
    cases hload
  | array items, value, hload => by
    simp only [load, Option.bind_eq_bind, Option.bind_eq_some_iff, Option.pure_def, Option.some.injEq] at hload ⊢
    obtain ⟨values, hvalues, rfl⟩ := hload
    obtain ⟨hkeys, hdefault⟩ := loadItems_strict hstrict items values hvalues
    exact ⟨hkeys, values, hdefault, rfl⟩
  | object pairs, value, hload => by
    simp only [load, Option.bind_eq_bind, Option.bind_eq_some_iff] at hload ⊢
    obtain ⟨values, hvalues, hhook⟩ := hload
    obtain ⟨hkeys, hdefault⟩ := loadPairs_strict hstrict pairs values hvalues
    obtain ⟨hdistinct, rfl⟩ := hstrict.pairs values value hhook
    rw [loadPairs_keys hvalues] at hdistinct
    exact ⟨⟨hdistinct, hkeys⟩, values, hdefault, rfl⟩

theorem loadItems_strict {hooks : Hooks} (hstrict : Strict hooks) :
    ∀ (items : List Json) (values : List Value), loadItems hooks items = some values →
      ItemsNoDuplicateKeys items ∧ loadItems default_hooks items = some values
  | [], _, hload => ⟨trivial, hload⟩
  | item :: rest, values, hload => by
    simp only [loadItems, Option.bind_eq_bind, Option.bind_eq_some_iff, Option.pure_def, Option.some.injEq] at hload ⊢
    obtain ⟨value, hvalue, later, hlater, rfl⟩ := hload
    obtain ⟨hkeys, hdefault⟩ := load_strict hstrict item value hvalue
    obtain ⟨hrestKeys, hrestDefault⟩ := loadItems_strict hstrict rest later hlater
    exact ⟨⟨hkeys, hrestKeys⟩, value, hdefault, later, hrestDefault, rfl⟩

theorem loadPairs_strict {hooks : Hooks} (hstrict : Strict hooks) :
    ∀ (pairs : List (Str × Json)) (values : List (Str × Value)), loadPairs hooks pairs = some values →
      PairsNoDuplicateKeys pairs ∧ loadPairs default_hooks pairs = some values
  | [], _, hload => ⟨trivial, hload⟩
  | (key, item) :: rest, values, hload => by
    simp only [loadPairs, Option.bind_eq_bind, Option.bind_eq_some_iff, Option.pure_def, Option.some.injEq] at hload ⊢
    obtain ⟨value, hvalue, later, hlater, rfl⟩ := hload
    obtain ⟨hkeys, hdefault⟩ := load_strict hstrict item value hvalue
    obtain ⟨hrestKeys, hrestDefault⟩ := loadPairs_strict hstrict rest later hlater
    exact ⟨⟨hkeys, hrestKeys⟩, value, hdefault, later, hrestDefault, rfl⟩

end

mutual

/-- A load whose hooks reject constants has seen none. -/
theorem load_noConstants {hooks : Hooks} (hreject : ∀ name, hooks.parse_constant name = none) :
    ∀ (json : Json) (value : Value), load hooks json = some value → json.NoConstants
  | null, _, _ => trivial
  | bool _, _, _ => trivial
  | int _, _, _ => trivial
  | float _, _, _ => trivial
  | str _, _, _ => trivial
  | constant name, value, hload => by
    simp only [load, hreject name] at hload
    cases hload
  | array items, value, hload => by
    simp only [load, Option.bind_eq_bind, Option.bind_eq_some_iff] at hload
    obtain ⟨values, hvalues, _⟩ := hload
    exact loadItems_noConstants hreject items values hvalues
  | object pairs, value, hload => by
    simp only [load, Option.bind_eq_bind, Option.bind_eq_some_iff] at hload
    obtain ⟨values, hvalues, _⟩ := hload
    exact loadPairs_noConstants hreject pairs values hvalues

theorem loadItems_noConstants {hooks : Hooks} (hreject : ∀ name, hooks.parse_constant name = none) :
    ∀ (items : List Json) (values : List Value), loadItems hooks items = some values → ItemsNoConstants items
  | [], _, _ => trivial
  | item :: rest, values, hload => by
    simp only [loadItems, Option.bind_eq_bind, Option.bind_eq_some_iff] at hload
    obtain ⟨value, hvalue, later, hlater, _⟩ := hload
    exact ⟨load_noConstants hreject item value hvalue, loadItems_noConstants hreject rest later hlater⟩

theorem loadPairs_noConstants {hooks : Hooks} (hreject : ∀ name, hooks.parse_constant name = none) :
    ∀ (pairs : List (Str × Json)) (values : List (Str × Value)), loadPairs hooks pairs = some values →
      PairsNoConstants pairs
  | [], _, _ => trivial
  | (key, item) :: rest, values, hload => by
    simp only [loadPairs, Option.bind_eq_bind, Option.bind_eq_some_iff] at hload
    obtain ⟨value, hvalue, later, hlater, _⟩ := hload
    exact ⟨load_noConstants hreject item value hvalue, loadPairs_noConstants hreject rest later hlater⟩

end

mutual

/-- Hooks that build a `dict` from distinct keys accept every tree without repeated keys
    and constants, and build what a load without hooks builds. -/
theorem load_of_default {hooks : Hooks} (haccept : ∀ pairs : List (Str × Value), (pairs.map Prod.fst).Nodup →
      hooks.object_pairs_hook pairs = some (.dict (dict_of pairs))) :
    ∀ (json : Json) (value : Value), json.NoDuplicateKeys → json.NoConstants →
      load default_hooks json = some value → load hooks json = some value
  | null, _, _, _, hload => hload
  | bool _, _, _, _, hload => hload
  | int _, _, _, _, hload => hload
  | float _, _, _, _, hload => hload
  | str _, _, _, _, hload => hload
  | constant _, _, _, hconstant, _ => hconstant.elim
  | array items, value, hkeys, hconstants, hload => by
    simp only [load, Option.bind_eq_bind, Option.bind_eq_some_iff, Option.pure_def, Option.some.injEq] at hload ⊢
    obtain ⟨values, hvalues, rfl⟩ := hload
    exact ⟨values, loadItems_of_default haccept items values hkeys hconstants hvalues, rfl⟩
  | object pairs, value, hkeys, hconstants, hload => by
    simp only [load, Option.bind_eq_bind, Option.bind_eq_some_iff] at hload ⊢
    obtain ⟨values, hvalues, hhook⟩ := hload
    have hdistinct : (values.map Prod.fst).Nodup := by
      rw [loadPairs_keys hvalues]
      exact hkeys.1
    obtain rfl := Option.some.inj hhook
    exact ⟨values, loadPairs_of_default haccept pairs values hkeys.2 hconstants hvalues, haccept values hdistinct⟩

theorem loadItems_of_default {hooks : Hooks} (haccept : ∀ pairs : List (Str × Value), (pairs.map Prod.fst).Nodup →
      hooks.object_pairs_hook pairs = some (.dict (dict_of pairs))) :
    ∀ (items : List Json) (values : List Value), ItemsNoDuplicateKeys items → ItemsNoConstants items →
      loadItems default_hooks items = some values → loadItems hooks items = some values
  | [], _, _, _, hload => hload
  | item :: rest, values, hkeys, hconstants, hload => by
    simp only [loadItems, Option.bind_eq_bind, Option.bind_eq_some_iff, Option.pure_def, Option.some.injEq] at hload ⊢
    obtain ⟨value, hvalue, later, hlater, rfl⟩ := hload
    exact ⟨value, load_of_default haccept item value hkeys.1 hconstants.1 hvalue,
      later, loadItems_of_default haccept rest later hkeys.2 hconstants.2 hlater, rfl⟩

theorem loadPairs_of_default {hooks : Hooks} (haccept : ∀ pairs : List (Str × Value), (pairs.map Prod.fst).Nodup →
      hooks.object_pairs_hook pairs = some (.dict (dict_of pairs))) :
    ∀ (pairs : List (Str × Json)) (values : List (Str × Value)), PairsNoDuplicateKeys pairs → PairsNoConstants pairs →
      loadPairs default_hooks pairs = some values → loadPairs hooks pairs = some values
  | [], _, _, _, hload => hload
  | (key, item) :: rest, values, hkeys, hconstants, hload => by
    simp only [loadPairs, Option.bind_eq_bind, Option.bind_eq_some_iff, Option.pure_def, Option.some.injEq] at hload ⊢
    obtain ⟨value, hvalue, later, hlater, rfl⟩ := hload
    exact ⟨value, load_of_default haccept item value hkeys.1 hconstants.1 hvalue,
      later, loadPairs_of_default haccept rest later hkeys.2 hconstants.2 hlater, rfl⟩

end

end Json

end python
