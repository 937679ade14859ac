import ContextRouter.Graph.Acyclic

namespace digraph

open Relation

variable {α : Type}

/-- The steps of a graph in which every node has at most one step out. -/
def Edge (next : α → Option α) (a b : α) : Prop := next a = some b

/-- The node reached after a number of steps, if the walk has not left the graph
    before. -/
def follow (next : α → Option α) : Nat → α → Option α
  | 0, a => some a
  | steps + 1, a => (next a).bind (follow next steps)

/-- Walk from `current` until a node has no step out (`false`) or was seen before
    (`true`). The fuel bounds the number of loop tests; `none` means it ran out. -/
def walk [DecidableEq α] (next : α → Option α) : Nat → List α → α → Option Bool
  | 0, _, _ => none
  | fuel + 1, seen, current =>
    match next current with
    | none => some false
    | some following => if current ∈ seen then some true else walk next fuel (current :: seen) following

/-- A node on a cycle never leaves the graph. -/
theorem follow_isSome_of_cycle {next : α → Option α} {a : α} (hcycle : TransGen (Edge next) a a) (steps : Nat) :
    ∃ b, follow next steps a = some b := by
  induction steps generalizing a with
  | zero => exact ⟨a, rfl⟩
  | succ steps ih =>
    obtain ⟨b, hab, hba⟩ := TransGen.head'_iff.mp hcycle
    obtain ⟨c, hc⟩ := ih (TransGen.tail'_iff.mpr ⟨a, hba, hab⟩)
    exact ⟨c, by rw [follow, show next a = some b from hab, Option.bind_some, hc]⟩

/-- Nor does a node that leads into a cycle. -/
theorem follow_isSome_of_reaches_cycle {next : α → Option α} {a x : α} (hreach : ReflTransGen (Edge next) a x)
    (hcycle : TransGen (Edge next) x x) (steps : Nat) : ∃ b, follow next steps a = some b := by
  induction hreach using ReflTransGen.head_induction_on generalizing steps with
  | refl => exact follow_isSome_of_cycle hcycle steps
  | head hab _ ih =>
    cases steps with
    | zero => exact ⟨_, rfl⟩
    | succ steps =>
      obtain ⟨c, hc⟩ := ih steps
      exact ⟨c, by rw [follow, show next _ = some _ from hab, Option.bind_some, hc]⟩

/-- What follows a step of the walk is what follows from the node it led to. -/
theorem follow_of_reaches {next : α → Option α} {a b : α} (hreach : ReflTransGen (Edge next) a b) :
    ∃ steps, ∀ more, follow next (steps + more) a = follow next more b := by
  induction hreach using ReflTransGen.head_induction_on with
  | refl => exact ⟨0, fun more => by rw [Nat.zero_add]⟩
  | @head a c hac _ ih =>
    obtain ⟨steps, hsteps⟩ := ih
    refine ⟨steps + 1, fun more => ?_⟩
    have hnext : next a = some c := hac
    rw [Nat.add_right_comm, follow, hnext, Option.bind_some, hsteps]

theorem exists_end_of_follow_none {next : α → Option α} {steps : Nat} {a : α} (hleaves : follow next steps a = none) :
    ∃ b, ReflTransGen (Edge next) a b ∧ next b = none := by
  induction steps generalizing a with
  | zero => cases hleaves
  | succ steps ih =>
    cases hnext : next a with
    | none => exact ⟨a, .refl, hnext⟩
    | some c =>
      rw [follow, hnext, Option.bind_some] at hleaves
      obtain ⟨b, hreach, hend⟩ := ih hleaves
      exact ⟨b, hreach.head hnext, hend⟩

/-- The walk goes on for ever exactly when it reaches no node without a step out. -/
theorem follow_isSome_iff {next : α → Option α} {a : α} :
    (∀ steps, ∃ b, follow next steps a = some b) ↔ ∀ b, ReflTransGen (Edge next) a b → ∃ c, next b = some c := by
  constructor
  · intro hstays b hreach
    obtain ⟨steps, hsteps⟩ := follow_of_reaches hreach
    obtain ⟨c, hc⟩ := hstays (steps + 1)
    cases hnext : next b with
    | none => rw [hsteps, follow, hnext] at hc; cases hc
    | some c => exact ⟨c, rfl⟩
  · intro hnever steps
    rw [← Option.isSome_iff_exists, Option.isSome_iff_ne_none]
    intro hleaves
    obtain ⟨b, hreach, hend⟩ := exists_end_of_follow_none hleaves
    obtain ⟨c, hc⟩ := hnever b hreach
    rw [hend] at hc
    cases hc

section Walk

variable [DecidableEq α] {next : α → Option α}

/-- A walk that reports a repetition has reached a cycle. -/
theorem reaches_cycle_of_walk_true {fuel : Nat} {seen : List α} {current : α}
    (hseen : ∀ a ∈ seen, TransGen (Edge next) a current) (hwalk : walk next fuel seen current = some true) :
    ∃ x, ReflTransGen (Edge next) current x ∧ TransGen (Edge next) x x := by
  induction fuel generalizing seen current with
  | zero => simp [walk] at hwalk
  | succ fuel ih =>
    rw [walk] at hwalk
    cases hnext : next current with
    | none => simp [hnext] at hwalk
    | some following =>
      simp only [hnext] at hwalk
      by_cases hrepeat : current ∈ seen
      · exact ⟨current, .refl, hseen current hrepeat⟩
      · rw [if_neg hrepeat] at hwalk
        have hstep : Edge next current following := hnext
        have hseen' : ∀ a ∈ current :: seen, TransGen (Edge next) a following := by
          intro a ha
          rcases List.mem_cons.mp ha with rfl | ha
          · exact .single hstep
          · exact (hseen a ha).tail hstep
        obtain ⟨x, hreach, hcycle⟩ := ih hseen' hwalk
        exact ⟨x, hreach.head hstep, hcycle⟩

/-- A walk that ends without a report has left the graph. -/
theorem leaves_of_walk_false {fuel : Nat} {seen : List α} {current : α}
    (hwalk : walk next fuel seen current = some false) : ∃ steps, follow next steps current = none := by
  induction fuel generalizing seen current with
  | zero => simp [walk] at hwalk
  | succ fuel ih =>
    rw [walk] at hwalk
    cases hnext : next current with
    | none => exact ⟨1, by simp [follow, hnext]⟩
    | some following =>
      simp only [hnext] at hwalk
      by_cases hrepeat : current ∈ seen
      · simp [hrepeat] at hwalk
      · rw [if_neg hrepeat] at hwalk
        obtain ⟨steps, hsteps⟩ := ih hwalk
        exact ⟨steps + 1, by rw [follow, hnext, Option.bind_some, hsteps]⟩

/-- Every test of the loop that does not end it marks one more node, so the walk
    ends after at most one test more than there are nodes left to mark. -/
theorem walk_terminates {nodes : List α} (hnodes : ∀ a b, next a = some b → a ∈ nodes) (fuel : Nat)
    (seen : List α) (hnodup : seen.Nodup) (hsub : ∀ a ∈ seen, a ∈ nodes)
    (hfuel : nodes.length + 1 ≤ seen.length + fuel) (current : α) :
    ∃ reported, walk next fuel seen current = some reported := by
  induction fuel generalizing seen current with
  | zero =>
    have hlength := (hnodup.subperm hsub).length_le
    omega
  | succ fuel ih =>
    rw [walk]
    cases hnext : next current with
    | none => exact ⟨false, rfl⟩
    | some following =>
      by_cases hrepeat : current ∈ seen
      · exact ⟨true, by simp [hrepeat]⟩
      · simp only [hrepeat, if_false]
        apply ih (current :: seen) (List.nodup_cons.mpr ⟨hrepeat, hnodup⟩)
        · intro a ha
          rcases List.mem_cons.mp ha with rfl | ha
          · exact hnodes _ _ hnext
          · exact hsub a ha
        · simp only [List.length_cons]
          omega

/-- The fuel decides whether a walk ends, not how. -/
theorem walk_unique {fuel fuel' : Nat} {seen : List α} {current : α} {reported reported' : Bool}
    (hwalk : walk next fuel seen current = some reported) (hwalk' : walk next fuel' seen current = some reported') :
    reported = reported' := by
  induction fuel generalizing fuel' seen current with
  | zero => cases hwalk
  | succ fuel ih =>
    cases fuel' with
    | zero => cases hwalk'
    | succ fuel' =>
      rw [walk] at hwalk hwalk'
      cases hnext : next current with
      | none =>
        rw [hnext] at hwalk hwalk'
        exact Option.some.inj (hwalk.symm.trans hwalk')
      | some following =>
        simp only [hnext] at hwalk hwalk'
        by_cases hrepeat : current ∈ seen
        · rw [if_pos hrepeat] at hwalk hwalk'
          exact Option.some.inj (hwalk.symm.trans hwalk')
        · rw [if_neg hrepeat] at hwalk hwalk'
          exact ih hwalk hwalk'

/-- With one test for each node and one to spare the walk reports exactly the
    nodes from which following the graph never leaves it. -/
theorem walk_eq_true_iff {nodes : List α} (hnodes : ∀ a b, next a = some b → a ∈ nodes) (start : α) :
    walk next (nodes.length + 1) [] start = some true ↔ ∀ steps, ∃ b, follow next steps start = some b := by
  constructor
  · intro hwalk
    obtain ⟨x, hreach, hcycle⟩ := reaches_cycle_of_walk_true (by simp) hwalk
    exact follow_isSome_of_reaches_cycle hreach hcycle
  · intro hstays
    obtain ⟨reported, hwalk⟩ := walk_terminates hnodes (nodes.length + 1) []
      List.nodup_nil (by simp) (by simp) start
    cases reported with
    | true => exact hwalk
    | false =>
      obtain ⟨steps, hleaves⟩ := leaves_of_walk_false hwalk
      obtain ⟨b, hb⟩ := hstays steps
      rw [hleaves] at hb
      cases hb

/-- These are the nodes that lie on a cycle or lead into one. -/
theorem walk_eq_true_iff_cycle {nodes : List α} (hnodes : ∀ a b, next a = some b → a ∈ nodes) (start : α) :
    walk next (nodes.length + 1) [] start = some true ↔
      ∃ x, ReflTransGen (Edge next) start x ∧ TransGen (Edge next) x x := by
  constructor
  · exact reaches_cycle_of_walk_true (by simp)
  · intro ⟨x, hreach, hcycle⟩
    exact (walk_eq_true_iff hnodes start).mpr (follow_isSome_of_reaches_cycle hreach hcycle)

/-- No node is reported exactly when the graph has no cycle. -/
theorem forall_walk_ne_true_iff {nodes : List α} (hnodes : ∀ a b, next a = some b → a ∈ nodes) :
    (∀ start ∈ nodes, walk next (nodes.length + 1) [] start ≠ some true) ↔ Acyclic (Edge next) := by
  constructor
  · intro hclear a hcycle
    obtain ⟨b, hab, _⟩ := TransGen.head'_iff.mp hcycle
    exact hclear a (hnodes a b hab) ((walk_eq_true_iff hnodes a).mpr (follow_isSome_of_cycle hcycle))
  · intro hacyclic start _ hwalk
    obtain ⟨x, _, hcycle⟩ := reaches_cycle_of_walk_true (by simp) hwalk
    exact hacyclic x hcycle

end Walk

end digraph
