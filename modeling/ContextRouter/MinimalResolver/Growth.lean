import ContextRouter.Graph.Heads
import ContextRouter.MinimalResolver.Handover
import ContextRouter.MinimalResolver.Timing

open python

namespace context_router.minimal_resolver

variable {α : Type}

/-- The decisions in force lead, from a record to one that supersedes it, and so on, to
    the successor. -/
def FollowedBy (as_of_date : Date) (records : List (Record α)) : Record α → Record α → Prop :=
  Relation.TransGen (digraph.Up Succeeds (live as_of_date records))

theorem WellFormed.acyclic_live {records : List (Record α)} (hwf : WellFormed records) (as_of_date : Date) :
    digraph.Acyclic fun successor predecessor : Record α =>
      successor ∈ live as_of_date records ∧ Succeeds successor predecessor := by
  apply hwf.acyclic_succeeds.mono
  rintro successor predecessor ⟨hsuccessor, hsucceeds⟩
  exact ⟨(mem_live.mp hsuccessor).1, hsucceeds⟩

/-- Supersession among the decisions in force never leads back. -/
theorem WellFormed.not_followedBy_self {records : List (Record α)} (hwf : WellFormed records) (as_of_date : Date)
    (record : Record α) : ¬ FollowedBy as_of_date records record record :=
  (hwf.acyclic_live as_of_date).swap record

theorem FollowedBy.mono {earlier later : Date} {records grown : List (Record α)}
    (hsub : live earlier records ⊆ live later grown) {record successor : Record α}
    (hpath : FollowedBy earlier records record successor) : FollowedBy later grown record successor :=
  Relation.TransGen.mono (fun _ _ hup => ⟨hsub hup.1, hup.2⟩) record successor hpath

/-- The resolver selects a record exactly when the scope validates and the record, at
    one position, is the last successor of every other decision in force. That no
    decision in force supersedes the selected one directly is enough for it to outrank
    them all. -/
theorem selected_iff_outranks_all {records : List (Record α)} {domain subject field as_of : Str} {as_of_date : Date}
    (hdate : parse_date as_of = .ok (some as_of_date)) (verify_after_days : Int) (record : Record α) :
    (∃ result, resolve_current records domain subject field as_of verify_after_days = .ok result ∧
        result.record? = some record) ↔
      validate_registry (scope_records records (domain, subject, field)) = .ok [] ∧
        ∃ position : Nat, (live as_of_date (scope_records records (domain, subject, field)))[position]? = some record ∧
          ∀ (other_position : Nat) other,
            (live as_of_date (scope_records records (domain, subject, field)))[other_position]? = some other →
              other_position ≠ position →
                FollowedBy as_of_date (scope_records records (domain, subject, field)) other record := by
  rw [validates_iff_wellFormed]
  constructor
  · rintro ⟨result, hrun, hselected⟩
    obtain ⟨hwf, hheads, _⟩ := heads_of_selected hdate hrun hselected
    exact ⟨hwf, (digraph.heads_eq_singleton_iff (hwf.acyclic_live as_of_date)).mp hheads⟩
  · rintro ⟨hwf, houtranks⟩
    have hheads := (digraph.heads_eq_singleton_iff (hwf.acyclic_live as_of_date)).mpr houtranks
    obtain ⟨result, hrun, hfresh⟩ := selected_of_heads hdate hwf hheads verify_after_days
    exact ⟨result, hrun, freshness_record hfresh⟩

/-- The current price of the sample registry outranks every other price in force. -/
theorem sample_decisions_outrank_all :
    validate_registry (scope_records sample_decisions ("demo", "starter", "price")) = .ok [] ∧
      ∃ record, ∃ position : Nat, (live ⟨2026, 8, 28, by decide⟩
        (scope_records sample_decisions ("demo", "starter", "price")))[position]? = some record := by
  have hdate : parse_date (Str.ofString "2026-08-28") = .ok (some ⟨2026, 8, 28, by decide⟩) := by decide +kernel
  have hrun : ∃ record ∈ sample_decisions,
      resolve_current sample_decisions "demo" "starter" "price" "2026-08-28" 30 = .ok (.RESOLVED record) := by
    decide +kernel
  obtain ⟨record, _, hrun⟩ := hrun
  obtain ⟨hvalid, position, hposition, _⟩ := (selected_iff_outranks_all hdate 30 record).mp ⟨_, hrun, rfl⟩
  exact ⟨hvalid, record, position, hposition⟩

/-! ### Consultations of a growing registry -/

/-- A registry and the day and the verification period with which it is consulted. -/
structure Consultation (α : Type) where
  records : List (Record α)
  as_of : Str
  as_of_date : Date
  readable : parse_date as_of = .ok (some as_of_date)
  verify_after_days : Int

namespace Consultation

def resolve (consultation : Consultation α) (domain subject field : Str) : Except Raised (Resolution α) :=
  resolve_current consultation.records domain subject field consultation.as_of consultation.verify_after_days

/-- The consultation hands out the record, as RESOLVED or VERIFY. -/
def Selects (consultation : Consultation α) (domain subject field : Str) (record : Record α) : Prop :=
  ∃ result, consultation.resolve domain subject field = .ok result ∧ result.record? = some record

/-- The records of the scope are still there, among others and in any order, and the day
    is not an earlier one. -/
structure Extends (scope : Str × Str × Str) (earlier later : Consultation α) : Prop where
  kept : (scope_records earlier.records scope).Subperm (scope_records later.records scope)
  no_earlier : earlier.as_of_date ≤ later.as_of_date

end Consultation

theorem EffectiveAt.mono {earlier later : Date} (hle : earlier ≤ later) {record : Record α}
    (heffective : EffectiveAt earlier record) : EffectiveAt later record := by
  unfold EffectiveAt at heffective ⊢
  cases hdate : parse_date record.effective_from with
  | error raised => simp [hdate] at heffective
  | ok date =>
    cases date with
    | none => trivial
    | some date =>
      simp only [hdate] at heffective
      exact heffective.trans hle

namespace Consultation.Extends

variable {scope : Str × Str × Str} {earlier later : Consultation α}

theorem refl (consultation : Consultation α) : Extends scope consultation consultation :=
  ⟨.refl _, le_refl _⟩

theorem trans {latest : Consultation α} (hleft : Extends scope earlier later) (hright : Extends scope later latest) :
    Extends scope earlier latest :=
  ⟨hleft.kept.trans hright.kept, hleft.no_earlier.trans hright.no_earlier⟩

instance : Trans (Extends (α := α) scope) (Extends scope) (Extends scope) := ⟨trans⟩

/-- A decision in force stays in force. -/
theorem live_subperm (hextends : Extends scope earlier later) :
    (live earlier.as_of_date (scope_records earlier.records scope)).Subperm
      (live later.as_of_date (scope_records later.records scope)) := by
  refine (hextends.kept.filter _).trans (List.Sublist.subperm (List.monotone_filter_right _ ?_))
  intro record hlive
  simp only [decide_eq_true_eq] at hlive ⊢
  exact ⟨hlive.capable, hlive.effective.mono hextends.no_earlier⟩

/-- The positions of a history are ordered by extension. -/
theorem of_positions {history : List (Consultation α)} (hhistory : history.IsChain (Extends scope)) {i j : Nat}
    (hle : i ≤ j) (hearlier : history[i]? = some earlier) (hlater : history[j]? = some later) :
    Extends scope earlier later := by
  obtain ⟨hi, rfl⟩ := List.getElem?_eq_some_iff.mp hearlier
  obtain ⟨hj, rfl⟩ := List.getElem?_eq_some_iff.mp hlater
  obtain rfl | hlt := hle.eq_or_lt
  · exact refl _
  · exact List.pairwise_iff_getElem.mp hhistory.pairwise i j hi hj hlt

end Consultation.Extends

section Selections

variable {domain subject field : Str} {earlier later : Consultation α} {old new : Record α}

/-- The selected record is the one head of a well-formed scope. -/
theorem Consultation.Selects.heads (hselects : later.Selects domain subject field new) :
    WellFormed (scope_records later.records (domain, subject, field)) ∧
      heads later.as_of_date (scope_records later.records (domain, subject, field)) = [new] := by
  obtain ⟨result, hrun, hselected⟩ := hselects
  obtain ⟨hwf, hheads, _⟩ := heads_of_selected later.readable hrun hselected
  exact ⟨hwf, hheads⟩

theorem Consultation.Selects.mem_live (hselects : later.Selects domain subject field new) :
    new ∈ live later.as_of_date (scope_records later.records (domain, subject, field)) := by
  have hmem : new ∈ minimal_resolver.heads later.as_of_date (scope_records later.records (domain, subject, field)) := by
    simp [hselects.heads.2]
  exact (digraph.mem_heads.mp hmem).1

/-- One step of a history: the earlier selection is still in force, so it lies below the
    one head of the later registry. -/
theorem Consultation.Selects.followedBy (hextends : earlier.Extends (domain, subject, field) later)
    (hold : earlier.Selects domain subject field old) (hnew : later.Selects domain subject field new) :
    new = old ∨ FollowedBy later.as_of_date (scope_records later.records (domain, subject, field)) old new := by
  obtain ⟨hwf, hheads⟩ := hnew.heads
  have hstill := hextends.live_subperm.subset hold.mem_live
  exact Relation.reflTransGen_iff_eq_or_transGen.mp
    (digraph.below_head (hwf.acyclic_live later.as_of_date) hheads hstill)

end Selections

/-- Along any history in which records of the scope are only added and days do not go
    back, the selection moves only along supersession, through decisions that are in
    force, and a selection that has been replaced does not come back. -/
theorem selection_moves_by_supersession {domain subject field : Str} {history : List (Consultation α)}
    (hhistory : history.IsChain (Consultation.Extends (domain, subject, field))) {i j : Nat} (hle : i ≤ j)
    {earlier later : Consultation α} (hearlier : history[i]? = some earlier) (hlater : history[j]? = some later)
    {old new : Record α} (hold : earlier.Selects domain subject field old)
    (hnew : later.Selects domain subject field new) :
    (new = old ∨ FollowedBy later.as_of_date (scope_records later.records (domain, subject, field)) old new) ∧
      ∀ k latest, j ≤ k → history[k]? = some latest → latest.Selects domain subject field old → new = old := by
  have hmoves := hold.followedBy (.of_positions hhistory hle hearlier hlater) hnew
  refine ⟨hmoves, ?_⟩
  intro k latest hlek hlatest hagain
  have hextends := Consultation.Extends.of_positions hhistory hlek hlater hlatest
  -- A way there and a way back would close a cycle in the latest registry.
  obtain heq | hthere := hmoves
  · exact heq
  · obtain heq | hback := hnew.followedBy hextends hagain
    · exact heq.symm
    · have hcycle := (hthere.mono hextends.live_subperm.subset).trans hback
      exact absurd hcycle (hagain.heads.1.not_followedBy_self latest.as_of_date old)

/-- The sample registry in August, and with the next price in September. -/
def sample_history : List (Consultation Nat) :=
  [⟨sample_decisions, "2026-08-28", ⟨2026, 8, 28, by decide⟩, by decide +kernel, 30⟩,
    ⟨next_price :: sample_decisions, "2026-09-01", ⟨2026, 9, 1, by decide⟩, by decide +kernel, 30⟩]

/-- The next price is handed out in September since it follows the August price. -/
theorem sample_history_moves : ∃ old ∈ sample_decisions,
    next_price = old ∨ FollowedBy ⟨2026, 9, 1, by decide⟩
      (scope_records (next_price :: sample_decisions) ("demo", "starter", "price")) old next_price := by
  have hruns : (∃ old ∈ sample_decisions,
      resolve_current sample_decisions "demo" "starter" "price" "2026-08-28" 30 = .ok (.RESOLVED old)) ∧
      resolve_current (next_price :: sample_decisions) "demo" "starter" "price" "2026-09-01" 30 =
        .ok (.RESOLVED next_price) := by
    decide +kernel
  obtain ⟨⟨old, hmem, hold⟩, hnew⟩ := hruns
  have hhistory : sample_history.IsChain (Consultation.Extends ("demo", "starter", "price")) := by
    refine .cons_cons ⟨?kept, by decide⟩ (.singleton _)
    case kept => exact ((List.sublist_cons_self next_price sample_decisions).filter _).subperm
  exact ⟨old, hmem,
    (selection_moves_by_supersession hhistory (Nat.zero_le 1) rfl rfl ⟨_, hold, rfl⟩ ⟨_, hnew, rfl⟩).1⟩

/-! ### Conflicts -/

/-- With distinct ids a record supersedes one record at most. -/
theorem countP_succeeds_le_one {records : List (Record α)} (hdistinct : (records.filterMap Record.id?).Nodup)
    (successor : Record α) : records.countP (Succeeds successor ·) ≤ 1 := by
  cases hlink : successor.link? with
  | none => simp [Succeeds, hlink]
  | some id =>
    have hcount := List.nodup_iff_count_le_one.mp hdistinct id
    rw [List.count, List.countP_filterMap] at hcount
    refine le_trans (List.countP_mono_left ?_) hcount
    intro record _ hsucceeds
    obtain ⟨linked_id, hlinked, hid⟩ := of_decide_eq_true hsucceeds
    rw [hlink, Option.some.injEq] at hlinked
    simp [hid, hlinked]

/-- A record of the smaller registry supersedes only records of it: the ids of the larger
    one are distinct. -/
theorem WellFormed.mem_of_succeeds {records grown : List (Record α)} (hwf : WellFormed records)
    (hdistinct : (grown.filterMap Record.id?).Nodup) (hsub : records ⊆ grown) {successor predecessor : Record α}
    (hsuccessor : successor ∈ records) (hpredecessor : predecessor ∈ grown)
    (hsucceeds : Succeeds successor predecessor) : predecessor ∈ records := by
  obtain ⟨id, hlink, hid⟩ := hsucceeds
  obtain ⟨_, named, hnamed, hnamedId, _⟩ := hwf.relation successor hsuccessor id hlink
  rw [WellFormed.eq_of_id hdistinct hpredecessor (hsub hnamed) hid hnamedId]
  exact hnamed

/-- Growth never lowers the number of heads. On a later day this needs the earlier
    registry to have no undated successor: one would be in force before a predecessor
    that later joins two heads. -/
theorem Consultation.Extends.length_heads_le {scope : Str × Str × Str} {earlier later : Consultation α}
    (hextends : Extends scope earlier later) (hwf : WellFormed (scope_records earlier.records scope))
    (hgrown : WellFormed (scope_records later.records scope))
    (hsettled : earlier.as_of_date = later.as_of_date ∨ UndatedLinksOk (scope_records earlier.records scope)) :
    (heads earlier.as_of_date (scope_records earlier.records scope)).length ≤
      (heads later.as_of_date (scope_records later.records scope)).length := by
  obtain ⟨still, hstill, hsub⟩ := hextends.live_subperm
  obtain ⟨added, hadded⟩ := hsub.exists_perm_append
  have hperm := hadded.trans ((hstill.append_right added).trans List.perm_append_comm)
  have hlater : ∀ record ∈ added, record ∈ live later.as_of_date (scope_records later.records scope) :=
    fun record hmem => hperm.mem_iff.mpr (List.mem_append_left _ hmem)
  have hdistinct : ((added ++ live earlier.as_of_date (scope_records earlier.records scope)).filterMap
      Record.id?).Nodup := by
    rw [← (hperm.filterMap Record.id?).nodup_iff]
    exact hgrown.ids_distinct.sublist (List.filter_sublist.filterMap _)
  rw [heads, heads, (digraph.heads_perm hperm).length_eq]
  apply digraph.length_heads_le_append
  · apply (hgrown.acyclic_live later.as_of_date).mono
    exact fun successor predecessor hstep => ⟨hperm.mem_iff.mpr hstep.1, hstep.2⟩
  · -- A predecessor that is added here was already in force, so its id would occur twice.
    intro successor hsuccessor predecessor hadded hsucceeds
    obtain ⟨hsuccessorMem, hsuccessorLive⟩ := mem_live.mp hsuccessor
    obtain ⟨hpredecessorMem, hpredecessorLive⟩ := mem_live.mp (hlater predecessor hadded)
    have hold : predecessor ∈ scope_records earlier.records scope :=
      hwf.mem_of_succeeds hgrown.ids_distinct hextends.kept.subset hsuccessorMem hpredecessorMem hsucceeds
    have heffective : EffectiveAt earlier.as_of_date predecessor := by
      obtain hsame | hundated := hsettled
      · exact hsame ▸ hpredecessorLive.effective
      · exact effective_of_supersedes hwf hundated ⟨hsuccessorMem, hold, hsucceeds⟩ hsuccessorLive.effective
    have hinForce : predecessor ∈ live earlier.as_of_date (scope_records earlier.records scope) :=
      mem_live.mpr ⟨hold, hpredecessorLive.capable, heffective⟩
    obtain ⟨id, _, hid⟩ := hsucceeds
    rw [List.filterMap_append, List.nodup_append] at hdistinct
    exact hdistinct.2.2 id (List.mem_filterMap.mpr ⟨predecessor, hadded, hid⟩) id
      (List.mem_filterMap.mpr ⟨predecessor, hinForce, hid⟩) rfl
  · exact fun successor _ => countP_succeeds_le_one hdistinct successor

/-- A conflict is the state of a well-formed scope with several heads. -/
theorem heads_of_conflict {records : List (Record α)} {domain subject field as_of : Str} {as_of_date : Date}
    {verify_after_days : Int} {reason : Str} {decision_ids : List (Option Str)}
    (hdate : parse_date as_of = .ok (some as_of_date))
    (hrun : resolve_current records domain subject field as_of verify_after_days =
      .ok (.CONFLICT reason decision_ids)) :
    WellFormed (scope_records records (domain, subject, field)) ∧
      1 < (heads as_of_date (scope_records records (domain, subject, field))).length ∧
      decision_ids = (heads as_of_date (scope_records records (domain, subject, field))).map Record.decision_id := by
  obtain ⟨_, hunknown⟩ | ⟨_, _, herrors⟩ | ⟨hwf, date, hparse, hclassify⟩ := resolve_current_cases hrun
  · cases hunknown
  · cases herrors
  · rw [hdate, Except.ok.injEq, Option.some.injEq] at hparse
    subst date
    obtain ⟨_, hunknown⟩ | ⟨_, _, hfresh⟩ | ⟨hseveral, hconflict⟩ := classify_cases hclassify
    · cases hunknown
    · cases freshness_record hfresh
    · cases hconflict
      exact ⟨hwf, hseveral, rfl⟩

end context_router.minimal_resolver
