import Mathlib.Data.List.Sort

namespace sorting

variable {α κ : Type}

section Insert

variable {r : α → α → Prop} [DecidableRel r] {item : α}

theorem orderedInsert_of_forall_rel {items : List α} (hrel : ∀ other ∈ items, r item other) :
    items.orderedInsert r item = item :: items := by
  cases items with
  | nil => rfl
  | cons other rest => exact List.orderedInsert_cons_of_le r rest (hrel other List.mem_cons_self)

theorem orderedInsert_append_of_not_rel {front : List α} (hrel : ∀ other ∈ front, ¬ r item other) (back : List α) :
    (front ++ back).orderedInsert r item = front ++ back.orderedInsert r item := by
  induction front with
  | nil => rfl
  | cons other rest ih =>
    obtain ⟨hother, hrest⟩ := List.forall_mem_cons.mp hrel
    rw [List.cons_append, List.orderedInsert_of_not_le r _ hother, ih hrest, List.cons_append]

end Insert

variable [DecidableEq κ]

/-- The items of each key in turn. -/
def by_keys (key : α → κ) (keys : List κ) (items : List α) : List α :=
  keys.flatMap fun k => items.filter fun item => key item = k

theorem mem_by_keys {key : α → κ} {keys : List κ} {items : List α} {item : α} :
    item ∈ by_keys key keys items ↔ item ∈ items ∧ key item ∈ keys := by
  simp only [by_keys, List.mem_flatMap, List.mem_filter, decide_eq_true_eq]
  constructor
  · rintro ⟨_, hkey, hitem, rfl⟩
    exact ⟨hitem, hkey⟩
  · intro ⟨hitem, hkey⟩
    exact ⟨_, hkey, hitem, rfl⟩

theorem by_keys_cons_of_not_mem {key : α → κ} {keys : List κ} {item : α} (hkey : key item ∉ keys) (items : List α) :
    by_keys key keys (item :: items) = by_keys key keys items := by
  apply List.flatMap_congr
  intro k hk
  have hne : key item ≠ k := fun heq => hkey (heq ▸ hk)
  rw [List.filter_cons_of_neg (by simpa using hne)]

/-- To take the items key by key is to sort them by key, and stably: an item that comes
    first goes before the later ones of its key and after all those of earlier keys. -/
theorem by_keys_eq_insertionSort {key : α → κ} {r : κ → κ → Prop} [DecidableRel r] {keys : List κ}
    (hrefl : ∀ k ∈ keys, r k k) (hkeys : keys.Pairwise fun k k' => k ≠ k' ∧ r k k' ∧ ¬ r k' k) {items : List α}
    (hcovered : ∀ item ∈ items, key item ∈ keys) :
    by_keys key keys items = items.insertionSort fun item item' => r (key item) (key item') := by
  induction items with
  | nil => simp [by_keys]
  | cons item rest ih =>
    obtain ⟨hitem, hrest⟩ := List.forall_mem_cons.mp hcovered
    rw [List.insertionSort_cons, ← ih hrest]
    obtain ⟨before, after, rfl⟩ := List.append_of_mem hitem
    obtain ⟨_, hafterKeys, hacross⟩ := List.pairwise_append.mp hkeys
    obtain ⟨hlater, _⟩ := List.pairwise_cons.mp hafterKeys
    have hsplit : ∀ items : List α, by_keys key (before ++ key item :: after) items =
        by_keys key before items ++ (items.filter (fun other => key other = key item) ++ by_keys key after items) := by
      intro items
      simp only [by_keys, List.flatMap_append, List.flatMap_cons]
    have hbefore : key item ∉ before := fun hmem => (hacross _ hmem _ List.mem_cons_self).1 rfl
    have hafter : key item ∉ after := fun hmem => (hlater _ hmem).1 rfl
    have hbehind : ∀ other ∈ by_keys key before rest, ¬ r (key item) (key other) :=
      fun other hother => (hacross _ (mem_by_keys.mp hother).2 _ List.mem_cons_self).2.2
    have hahead : ∀ other ∈ rest.filter (fun other => key other = key item) ++ by_keys key after rest,
        r (key item) (key other) := by
      intro other hother
      obtain hsame | hother := List.mem_append.mp hother
      · rw [of_decide_eq_true (List.mem_filter.mp hsame).2]
        exact hrefl _ hitem
      · exact (hlater _ (mem_by_keys.mp hother).2).2.1
    rw [hsplit, hsplit, by_keys_cons_of_not_mem hbefore, by_keys_cons_of_not_mem hafter,
      List.filter_cons_of_pos (by simp), orderedInsert_append_of_not_rel hbehind, orderedInsert_of_forall_rel hahead]
    rfl

end sorting
