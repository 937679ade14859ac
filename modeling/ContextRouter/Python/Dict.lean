import Mathlib.Data.List.Nodup

namespace python

section Items

variable {κ ν : Type} [DecidableEq κ]

/-- The value of a key in a list of items. -/
def lookupItem (key : κ) : List (κ × ν) → Option ν
  | [] => none
  | item :: rest => if item.1 = key then some item.2 else lookupItem key rest

/-- Assign to a key in a list of items: a key that is present keeps its place and
    loses its old value, a new key goes last. -/
def setItem (key : κ) (value : ν) : List (κ × ν) → List (κ × ν)
  | [] => [(key, value)]
  | item :: rest => if item.1 = key then (key, value) :: rest else item :: setItem key value rest

theorem mem_keys_setItem {key other : κ} {value : ν} {items : List (κ × ν)} :
    other ∈ (setItem key value items).map Prod.fst ↔ other = key ∨ other ∈ items.map Prod.fst := by
  induction items with
  | nil => simp [setItem]
  | cons item rest ih =>
    by_cases hkey : item.1 = key
    · simp [setItem, hkey]
    · simp only [setItem, hkey, if_false, List.map_cons, List.mem_cons, ih]
      tauto

theorem nodup_keys_setItem (key : κ) (value : ν) {items : List (κ × ν)}
    (hnodup : (items.map Prod.fst).Nodup) : ((setItem key value items).map Prod.fst).Nodup := by
  induction items with
  | nil => simp [setItem]
  | cons item rest ih =>
    rw [List.map_cons, List.nodup_cons] at hnodup
    by_cases hkey : item.1 = key
    · simpa [setItem, hkey] using hnodup
    · rw [setItem, if_neg hkey, List.map_cons, List.nodup_cons, mem_keys_setItem, not_or]
      exact ⟨⟨hkey, hnodup.1⟩, ih hnodup.2⟩

theorem lookupItem_setItem (key other : κ) (value : ν) (items : List (κ × ν)) :
    lookupItem other (setItem key value items) = if key = other then some value else lookupItem other items := by
  induction items with
  | nil => rfl
  | cons item rest ih =>
    by_cases hkey : item.1 = key
    · by_cases hother : key = other <;> simp [setItem, lookupItem, hkey, hother]
    · rw [setItem, if_neg hkey, lookupItem, lookupItem, ih]
      by_cases hother : key = other
      · simp [hother, hother ▸ hkey]
      · simp [hother]

theorem mem_keys_iff_lookupItem {key : κ} {items : List (κ × ν)} :
    key ∈ items.map Prod.fst ↔ ∃ value, lookupItem key items = some value := by
  induction items with
  | nil => simp [lookupItem]
  | cons item rest ih =>
    rw [List.map_cons, List.mem_cons, ih]
    by_cases hkey : item.1 = key
    · simp [lookupItem, hkey]
    · simp [lookupItem, hkey, Ne.symm hkey]

theorem setItem_of_not_mem {key : κ} {value : ν} {items : List (κ × ν)} (hfresh : key ∉ items.map Prod.fst) :
    setItem key value items = items ++ [(key, value)] := by
  induction items with
  | nil => rfl
  | cons item rest ih =>
    rw [List.map_cons, List.mem_cons, not_or] at hfresh
    rw [setItem, if_neg (Ne.symm hfresh.1), ih hfresh.2, List.cons_append]

/-- With distinct keys a lookup finds the one item of its key. -/
theorem lookupItem_eq_some_iff {key : κ} {value : ν} {items : List (κ × ν)} (hnodup : (items.map Prod.fst).Nodup) :
    lookupItem key items = some value ↔ (key, value) ∈ items := by
  induction items with
  | nil => simp [lookupItem]
  | cons item rest ih =>
    rw [List.map_cons, List.nodup_cons] at hnodup
    rw [List.mem_cons, lookupItem]
    by_cases hkey : item.1 = key
    · subst hkey
      have hnot : (item.1, value) ∉ rest := fun hmem => hnodup.1 (List.mem_map.mpr ⟨_, hmem, rfl⟩)
      rw [if_pos rfl, or_iff_left hnot, Option.some.injEq, Prod.ext_iff]
      exact ⟨fun heq => ⟨rfl, heq.symm⟩, fun h => h.2.symm⟩
    · have hne : (key, value) ≠ item := fun heq => hkey (congrArg Prod.fst heq.symm)
      rw [if_neg hkey, or_iff_right hne]
      exact ih hnodup.2

end Items

/-- A Python `dict`: its items in insertion order, with distinct keys. -/
structure Dict (κ ν : Type) where
  items : List (κ × ν)
  nodup : (items.map Prod.fst).Nodup

namespace Dict

variable {κ ν : Type}

/-- `{}`. -/
def empty : Dict κ ν := ⟨[], List.nodup_nil⟩

/-- The keys, in the order a `for` loop visits them. -/
def keys (dict : Dict κ ν) : List κ := dict.items.map Prod.fst

@[simp] theorem keys_empty : (empty : Dict κ ν).keys = [] := rfl

variable [DecidableEq κ]

/-- `dict.get(key)`. -/
def get? (dict : Dict κ ν) (key : κ) : Option ν := lookupItem key dict.items

/-- `dict[key] = value`. -/
def set (dict : Dict κ ν) (key : κ) (value : ν) : Dict κ ν :=
  ⟨setItem key value dict.items, nodup_keys_setItem key value dict.nodup⟩

@[simp] theorem get?_empty (key : κ) : (empty : Dict κ ν).get? key = none := rfl

theorem get?_set (dict : Dict κ ν) (key other : κ) (value : ν) :
    (dict.set key value).get? other = if key = other then some value else dict.get? other :=
  lookupItem_setItem key other value dict.items

@[simp] theorem mem_keys_set {dict : Dict κ ν} {key other : κ} {value : ν} :
    other ∈ (dict.set key value).keys ↔ other = key ∨ other ∈ dict.keys :=
  mem_keys_setItem

theorem not_mem_keys_set {dict : Dict κ ν} {key other : κ} {value : ν} (hne : other ≠ key) (hnot : other ∉ dict.keys) :
    other ∉ (dict.set key value).keys := by
  rw [mem_keys_set, not_or]
  exact ⟨hne, hnot⟩

/-- A key is present exactly when a lookup finds a value. -/
theorem mem_keys_iff {dict : Dict κ ν} {key : κ} : key ∈ dict.keys ↔ ∃ value, dict.get? key = some value :=
  mem_keys_iff_lookupItem

theorem get?_eq_some_iff {dict : Dict κ ν} {key : κ} {value : ν} :
    dict.get? key = some value ↔ (key, value) ∈ dict.items :=
  lookupItem_eq_some_iff dict.nodup

theorem items_set_of_not_mem {dict : Dict κ ν} {key : κ} (hfresh : key ∉ dict.keys) (value : ν) :
    (dict.set key value).items = dict.items ++ [(key, value)] :=
  setItem_of_not_mem hfresh

theorem mem_keys_of_get? {dict : Dict κ ν} (key : κ) (value : ν) (hget : dict.get? key = some value) :
    key ∈ dict.keys :=
  mem_keys_iff.mpr ⟨value, hget⟩

end Dict

end python
