import ContextRouter.MinimalResolver.Passes

open python Relation

namespace context_router.minimal_resolver

/-- One key leads to the id stored under it. -/
abbrev Follows (graph : Dict Str Str) : Str → Str → Prop := digraph.Edge graph.get?

theorem cycle_error_mem_iff {graph : Dict Str Str} {start : Str} (hstart : start ∈ graph.keys) :
    Str.ofString "cycle detected from: " ++ start ∈ cycle_errors graph ↔
      digraph.walk graph.get? (graph.keys.length + 1) [] start = some true := by
  simp only [cycle_errors, List.mem_map, List.mem_filter, List.append_right_inj]
  constructor
  · rintro ⟨_, ⟨_, hdetected⟩, rfl⟩
    simpa [cycle_detected] using hdetected
  · intro hwalk
    exact ⟨start, ⟨hstart, by simpa [cycle_detected] using hwalk⟩, rfl⟩

/-- The walk from a key ends, after no more tests than there are keys and one to spare,
    and it reports the key exactly when following the graph never leaves it: when the key
    lies on a cycle or leads into one. -/
theorem cycle_walk_exact (graph : Dict Str Str) :
    (∀ start ∈ graph.keys,
      (∃ reported, digraph.walk graph.get? (graph.keys.length + 1) [] start = some reported ∧
        ∀ fuel reported', digraph.walk graph.get? fuel [] start = some reported' → reported' = reported) ∧
      (Str.ofString "cycle detected from: " ++ start ∈ cycle_errors graph ↔
        ∀ id, ReflTransGen (Follows graph) start id → id ∈ graph.keys) ∧
      (Str.ofString "cycle detected from: " ++ start ∈ cycle_errors graph ↔
        ∃ id, ReflTransGen (Follows graph) start id ∧ TransGen (Follows graph) id id)) ∧
    (cycle_errors graph = [] ↔ digraph.Acyclic (Follows graph)) := by
  refine ⟨fun start hstart => ⟨?ends, ?never_leaves, ?cycle⟩, cycle_errors_eq_nil_iff⟩
  case ends =>
    obtain ⟨reported, hwalk⟩ := digraph.walk_terminates graph.mem_keys_of_get? (graph.keys.length + 1) [] List.nodup_nil
      (by simp) (by simp) start
    exact ⟨reported, hwalk, fun fuel reported' hwalk' => digraph.walk_unique hwalk' hwalk⟩
  case never_leaves =>
    rw [cycle_error_mem_iff hstart, digraph.walk_eq_true_iff graph.mem_keys_of_get?, digraph.follow_isSome_iff]
    simp only [Dict.mem_keys_iff]
  case cycle =>
    rw [cycle_error_mem_iff hstart, digraph.walk_eq_true_iff_cycle graph.mem_keys_of_get?]

end context_router.minimal_resolver
