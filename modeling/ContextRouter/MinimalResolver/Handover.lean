import ContextRouter.MinimalResolver.Order
import ContextRouter.MinimalResolver.Revival

open python

namespace context_router.minimal_resolver

variable {α : Type}

/-- A new decision that takes over from `record` in the registry `records`. -/
structure TakesOver (records : List (Record α)) (record successor : Record α) : Prop where
  capable : successor.StatusIn CURRENT_CAPABLE
  fresh_id : ∃ id, successor.id? = some id ∧ ∀ other ∈ records, other.id? ≠ some id
  same_scope : scope_key successor = scope_key record
  succeeds : Succeeds successor record
  in_order : InOrder record successor
  effective_from_ok : DateOk successor.effective_from
  last_verified_ok : DateOk successor.last_verified

section Register

variable {records : List (Record α)} {record successor : Record α}

/-- Nothing supersedes a decision whose id is new, as the link would dangle. -/
theorem TakesOver.not_succeeded (htakes : TakesOver records record successor) (hwf : WellFormed records)
    (hmem : record ∈ records) : ∀ other ∈ successor :: records, ¬ Succeeds other successor := by
  obtain ⟨id, hid, hfresh⟩ := htakes.fresh_id
  rintro other hother ⟨linked_id, hlink, hlinked⟩
  rw [hid, Option.some.injEq] at hlinked
  subst linked_id
  rcases List.mem_cons.mp hother with rfl | hold
  · obtain ⟨record_id, hlink', hrecord⟩ := htakes.succeeds
    rw [hlink, Option.some.injEq] at hlink'
    subst record_id
    exact hfresh record hmem hrecord
  · obtain ⟨_, predecessor, hpredecessor, hpredecessorId, _⟩ := hwf.relation other hold id hlink
    exact hfresh predecessor hpredecessor hpredecessorId

/-- Registering a decision that takes over keeps the registry well formed. The new
    relation leaves from an id that no relation enters, so it closes no cycle. -/
theorem WellFormed.register (hwf : WellFormed records) (hmem : record ∈ records)
    (hstatus : record.StatusIn AUTHORITATIVE) (htakes : TakesOver records record successor) :
    WellFormed (successor :: records) := by
  have hnot := htakes.not_succeeded hwf hmem
  obtain ⟨id, hid, hfresh⟩ := htakes.fresh_id
  have hsource : ∀ other ∈ successor :: records, other.link? ≠ some id :=
    fun other hother hlink => hnot other hother ⟨id, hlink, hid⟩
  refine ⟨?ids_distinct, ?known_status, ?effective_from_ok, ?last_verified_ok, ?relation, ?acyclic, ?replaced⟩
  case ids_distinct =>
    rw [List.filterMap_cons_some hid, List.nodup_cons]
    refine ⟨?_, hwf.ids_distinct⟩
    intro hused
    obtain ⟨other, hother, hotherId⟩ := List.mem_filterMap.mp hused
    exact hfresh other hother hotherId
  case known_status =>
    have hsub : ∀ status ∈ CURRENT_CAPABLE, status ∈ known_statuses := by decide
    obtain ⟨status, hcapable, hstatus⟩ := htakes.capable
    exact List.forall_mem_cons.mpr ⟨⟨status, hsub status hcapable, hstatus⟩, hwf.known_status⟩
  case effective_from_ok => exact List.forall_mem_cons.mpr ⟨htakes.effective_from_ok, hwf.effective_from_ok⟩
  case last_verified_ok => exact List.forall_mem_cons.mpr ⟨htakes.last_verified_ok, hwf.last_verified_ok⟩
  case relation =>
    intro other hother predecessor_id hlink
    rcases List.mem_cons.mp hother with rfl | hold
    · obtain ⟨record_id, hlink', hrecord⟩ := htakes.succeeds
      rw [hlink, Option.some.injEq] at hlink'
      subst record_id
      exact ⟨⟨id, hid⟩, record, List.mem_cons_of_mem _ hmem, hrecord, hstatus, htakes.same_scope.symm, htakes.in_order⟩
    · obtain ⟨hotherId, predecessor, hpredecessor, hsupports⟩ := hwf.relation other hold predecessor_id hlink
      exact ⟨hotherId, predecessor, List.mem_cons_of_mem _ hpredecessor, hsupports⟩
  case acyclic =>
    apply hwf.acyclic.add_source id
    · rintro left right ⟨other, hother, hotherId, hlink⟩
      rcases List.mem_cons.mp hother with rfl | hold
      · rw [hid, Option.some.injEq] at hotherId
        exact Or.inr hotherId.symm
      · exact Or.inl ⟨other, hold, hotherId, hlink⟩
    · rintro left ⟨other, hother, _, hlink⟩
      exact hsource other hother hlink
  case replaced =>
    intro other hother hsuperseded hotherId
    rcases List.mem_cons.mp hother with rfl | hold
    · have hdistinct : ∀ status ∈ CURRENT_CAPABLE, status ≠ SUPERSEDED := by decide
      obtain ⟨status, hcapable, hstatus⟩ := htakes.capable
      rw [hstatus, Option.some.injEq] at hsuperseded
      exact absurd hsuperseded (hdistinct status hcapable)
    · obtain ⟨replacement, hreplacement, hreplaces⟩ := hwf.replaced other hold hsuperseded hotherId
      exact ⟨replacement, List.mem_cons_of_mem _ hreplacement, hreplaces⟩

theorem heads_before_takeover {as_of_date : Date} (hnot : ¬ EffectiveAt as_of_date successor) :
    heads as_of_date (successor :: records) = heads as_of_date records := by
  have hlive : ¬ Live as_of_date successor := fun hlive => hnot hlive.effective
  have hsame : live as_of_date (successor :: records) = live as_of_date records := by simp [live, hlive]
  rw [heads, hsame]
  rfl

/-- From its effective day on, the new decision is the one head in place of the old. -/
theorem heads_after_takeover {as_of_date : Date} (hwf : WellFormed records)
    (hheads : heads as_of_date records = [record]) (hregistered : WellFormed (successor :: records))
    (htakes : TakesOver records record successor) (heffective : EffectiveAt as_of_date successor) :
    heads as_of_date (successor :: records) = [successor] := by
  have hhead : record ∈ heads as_of_date records := by simp [hheads]
  have hlive : Live as_of_date successor := ⟨htakes.capable, heffective⟩
  have hnot := htakes.not_succeeded hwf (mem_heads.mp hhead).1
  obtain ⟨id, hid, _⟩ := htakes.fresh_id
  apply heads_eq_singleton hregistered.ids_distinct hid
  · exact mem_heads.mpr ⟨List.mem_cons_self, hlive, fun other hother _ => hnot other hother⟩
  · intro other hother
    obtain ⟨hmem, hotherLive, hclear⟩ := mem_heads.mp hother
    rcases List.mem_cons.mp hmem with hsame | hold
    · exact hsame
    · have hotherHead : other ∈ heads as_of_date records :=
        mem_heads.mpr ⟨hold, hotherLive, fun third hthird => hclear third (List.mem_cons_of_mem _ hthird)⟩
      rw [hheads, List.mem_singleton] at hotherHead
      subst other
      exact absurd htakes.succeeds (hclear successor List.mem_cons_self hlive)

end Register

/-- Registering a decision that takes over from the current one keeps the scope
    valid, leaves the answer alone until the decision takes effect, and hands out the
    new decision from that day on. -/
theorem handover (before after : List (Record α)) {domain subject field as_of : Str} {as_of_date : Date}
    (hdate : parse_date as_of = .ok (some as_of_date)) {verify_after_days : Int} {result : Resolution α}
    {selected successor : Record α}
    (hrun : resolve_current (before ++ after) domain subject field as_of verify_after_days = .ok result)
    (hselected : result.record? = some selected)
    (htakes : TakesOver (scope_records (before ++ after) (domain, subject, field)) selected successor) :
    validate_registry (scope_records (before ++ successor :: after) (domain, subject, field)) = .ok [] ∧
    (¬ EffectiveAt as_of_date successor →
      resolve_current (before ++ successor :: after) domain subject field as_of verify_after_days = .ok result) ∧
    (EffectiveAt as_of_date successor → ∃ next,
      resolve_current (before ++ successor :: after) domain subject field as_of verify_after_days = .ok next ∧
        next.record? = some successor ∧ next.state ∈ [Str.ofString "RESOLVED", Str.ofString "VERIFY"]) := by
  obtain ⟨hwf, hheads, hfresh⟩ := heads_of_selected hdate hrun hselected
  have hhead : selected ∈ heads as_of_date (scope_records (before ++ after) (domain, subject, field)) := by
    simp [hheads]
  obtain ⟨hmem, hlive, _⟩ := mem_heads.mp hhead
  have hscope : scope_key successor = (domain, subject, field) :=
    htakes.same_scope.trans (mem_scope_records.mp hmem).2
  have hperm := scope_records_insert before after hscope
  have hregistered := hwf.register hmem hlive.authoritative htakes
  have hvalid := hregistered.perm hperm.symm
  refine ⟨validates_iff_wellFormed.mpr hvalid, ?_, ?_⟩
  · intro hnot
    have hsame := heads_perm hperm as_of_date
    rw [heads_before_takeover hnot, hheads, List.perm_singleton] at hsame
    obtain ⟨next, hnext, hfreshNext⟩ := selected_of_heads hdate hvalid hsame verify_after_days
    rw [hfresh, Except.ok.injEq] at hfreshNext
    rw [hnext, hfreshNext]
  · intro heffective
    have hnew := heads_perm hperm as_of_date
    rw [heads_after_takeover hwf hheads hregistered htakes heffective, List.perm_singleton] at hnew
    obtain ⟨next, hnext, hfreshNext⟩ := selected_of_heads hdate hvalid hnew verify_after_days
    refine ⟨next, hnext, freshness_record hfreshNext, ?_⟩
    obtain ⟨rfl, _⟩ | ⟨⟨reason, age_days, rfl⟩, _⟩ := freshness_spec hfreshNext
    · simp [Resolution.state]
    · simp [Resolution.state]

/-- The next price of the sample registry. -/
def next_price : Record Nat :=
  ⟨some "PRICE-003", some ⟨some "demo", some "starter", some "price"⟩, some ACTIVE, some "2026-09-01",
    some "PRICE-002", some "2026-08-28", some 300⟩

/-- On its effective day the next price replaces the current one. -/
theorem next_price_takes_over : ∃ next,
    resolve_current (sample_decisions.take 1 ++ next_price :: sample_decisions.drop 1) "demo" "starter" "price"
      "2026-09-01" 30 = .ok next ∧ next.record? = some next_price := by
  have hdate : parse_date (Str.ofString "2026-09-01") = .ok (some ⟨2026, 9, 1, by decide⟩) := by decide +kernel
  have hcurrent : ∃ selected ∈ sample_decisions,
      resolve_current (sample_decisions.take 1 ++ sample_decisions.drop 1) "demo" "starter" "price" "2026-09-01" 30 =
        .ok (.RESOLVED selected) ∧ Succeeds next_price selected ∧ scope_key next_price = scope_key selected ∧
        selected.effective_from = some (Str.ofString "2026-08-01") := by
    decide +kernel
  obtain ⟨selected, _, hrun, hsucceeds, hscope, hfrom⟩ := hcurrent
  have htakes : TakesOver (scope_records (sample_decisions.take 1 ++ sample_decisions.drop 1)
      ("demo", "starter", "price")) selected next_price := by
    refine ⟨by decide +kernel, ⟨"PRICE-003", by decide +kernel, by decide +kernel⟩, hscope, hsucceeds, ?_, ?_, ?_⟩
    · intro earlier later hearlier hlater
      have hcurrentDate : parse_date (Str.ofString "2026-08-01") = .ok (some ⟨2026, 8, 1, by decide⟩) := by
        decide +kernel
      rw [hfrom, hcurrentDate, Except.ok.injEq, Option.some.injEq] at hearlier
      have hnextDate : parse_date next_price.effective_from = .ok (some ⟨2026, 9, 1, by decide⟩) := hdate
      rw [hnextDate, Except.ok.injEq, Option.some.injEq] at hlater
      subst earlier later
      decide
    · exact by decide +kernel
    · exact by decide +kernel
  obtain ⟨next, hnext, hselected, _⟩ := (handover (sample_decisions.take 1) (sample_decisions.drop 1) hdate hrun rfl
    htakes).2.2 (by decide +kernel)
  exact ⟨next, hnext, hselected⟩

end context_router.minimal_resolver
