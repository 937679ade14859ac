import ContextRouter.MinimalResolver.Handover
import ContextRouter.MinimalResolver.Scopes
import ContextRouter.MinimalResolver.Timing

open python

namespace context_router.minimal_resolver

variable {α : Type}

/-- What a record has to bring to be added to a registry. Only the record itself and the
    record that it names are looked at. -/
structure Admissible (records : List (Record α)) (record : Record α) : Prop where
  fresh_id : ∀ id, record.id? = some id → ∀ other ∈ records, other.id? ≠ some id
  known_status : record.StatusIn known_statuses
  effective_from_ok : DateOk record.effective_from
  last_verified_ok : DateOk record.last_verified
  relation : ∀ predecessor_id, record.link? = some predecessor_id →
    (∃ id, record.id? = some id) ∧
      ∃ predecessor ∈ records, predecessor.id? = some predecessor_id ∧ Supports predecessor record
  not_superseded : record.status = some SUPERSEDED → ¬ ∃ id, record.id? = some id

section WellFormed

variable {records : List (Record α)} {record : Record α}

theorem Admissible.perm {permuted : List (Record α)} (hadmissible : Admissible records record)
    (hperm : records.Perm permuted) : Admissible permuted record where
  fresh_id := fun id hid other hother => hadmissible.fresh_id id hid other (hperm.mem_iff.mpr hother)
  known_status := hadmissible.known_status
  effective_from_ok := hadmissible.effective_from_ok
  last_verified_ok := hadmissible.last_verified_ok
  relation := by
    intro predecessor_id hlink
    obtain ⟨hid, predecessor, hpredecessor, hsupports⟩ := hadmissible.relation predecessor_id hlink
    exact ⟨hid, predecessor, hperm.mem_iff.mp hpredecessor, hsupports⟩
  not_superseded := hadmissible.not_superseded

/-- No record of a well-formed registry supersedes itself. -/
theorem WellFormed.not_succeeds_self (hwf : WellFormed records) (hmem : record ∈ records) :
    ¬ Succeeds record record :=
  fun hsucceeds => hwf.acyclic_succeeds record (.single ⟨hmem, hsucceeds⟩)

/-- No record names one that is being added: each names a record of the old registry, and
    those have other ids. -/
theorem Admissible.not_succeeded (hadmissible : Admissible records record) (hwf : WellFormed records) :
    ∀ other ∈ record :: records, ¬ Succeeds other record := by
  rintro other hother ⟨id, hlink, hid⟩
  have hnamed : ∃ predecessor ∈ records, predecessor.id? = some id := by
    rcases List.mem_cons.mp hother with rfl | hold
    · obtain ⟨_, predecessor, hpredecessor, hpredecessorId, _⟩ := hadmissible.relation id hlink
      exact ⟨predecessor, hpredecessor, hpredecessorId⟩
    · obtain ⟨_, predecessor, hpredecessor, hpredecessorId, _⟩ := hwf.relation other hold id hlink
      exact ⟨predecessor, hpredecessor, hpredecessorId⟩
  obtain ⟨predecessor, hpredecessor, hpredecessorId⟩ := hnamed
  exact hadmissible.fresh_id id hid predecessor hpredecessor hpredecessorId

/-- Adding an admissible record keeps a registry well formed. Nothing supersedes it yet,
    so no check of an old record is touched and no cycle is closed. -/
theorem WellFormed.insert (hwf : WellFormed records) (hadmissible : Admissible records record) :
    WellFormed (record :: records) := by
  refine ⟨?ids_distinct, ?known_status, ?effective_from_ok, ?last_verified_ok, ?relation, ?acyclic, ?replaced⟩
  case ids_distinct =>
    cases hid : record.id? with
    | none =>
      rw [List.filterMap_cons_none hid]
      exact hwf.ids_distinct
    | some id =>
      rw [List.filterMap_cons_some hid, List.nodup_cons]
      refine ⟨?_, hwf.ids_distinct⟩
      intro hused
      obtain ⟨other, hother, hotherId⟩ := List.mem_filterMap.mp hused
      exact hadmissible.fresh_id id hid other hother hotherId
  case known_status => exact List.forall_mem_cons.mpr ⟨hadmissible.known_status, hwf.known_status⟩
  case effective_from_ok => exact List.forall_mem_cons.mpr ⟨hadmissible.effective_from_ok, hwf.effective_from_ok⟩
  case last_verified_ok => exact List.forall_mem_cons.mpr ⟨hadmissible.last_verified_ok, hwf.last_verified_ok⟩
  case relation =>
    intro other hother predecessor_id hlink
    have hfound : (∃ id, other.id? = some id) ∧
        ∃ predecessor ∈ records, predecessor.id? = some predecessor_id ∧ Supports predecessor other := by
      rcases List.mem_cons.mp hother with rfl | hold
      · exact hadmissible.relation predecessor_id hlink
      · exact hwf.relation other hold predecessor_id hlink
    obtain ⟨hid, predecessor, hpredecessor, hsupports⟩ := hfound
    exact ⟨hid, predecessor, List.mem_cons_of_mem _ hpredecessor, hsupports⟩
  case acyclic =>
    cases hid : record.id? with
    | none =>
      apply hwf.acyclic.mono
      rintro left right ⟨other, hother, hotherId, hlink⟩
      rcases List.mem_cons.mp hother with rfl | hold
      · rw [hid] at hotherId
        cases hotherId
      · exact ⟨other, hold, hotherId, hlink⟩
    | some id =>
      apply hwf.acyclic.add_source id
      · rintro left right ⟨other, hother, hotherId, hlink⟩
        rcases List.mem_cons.mp hother with rfl | hold
        · rw [hid, Option.some.injEq] at hotherId
          exact Or.inr hotherId.symm
        · exact Or.inl ⟨other, hold, hotherId, hlink⟩
      · rintro left ⟨other, hother, _, hlink⟩
        exact hadmissible.not_succeeded hwf other hother ⟨id, hlink, hid⟩
  case replaced =>
    intro other hother hsuperseded hotherId
    rcases List.mem_cons.mp hother with rfl | hold
    · exact absurd hotherId (hadmissible.not_superseded hsuperseded)
    · obtain ⟨replacement, hreplacement, hreplaces⟩ := hwf.replaced other hold hsuperseded hotherId
      exact ⟨replacement, List.mem_cons_of_mem _ hreplacement, hreplaces⟩

/-- A record that a well-formed registry holds beyond another one is admissible to it. -/
theorem WellFormed.admissible (hwf : WellFormed records) (hregistered : WellFormed (record :: records)) :
    Admissible records record := by
  have hfresh : ∀ id, record.id? = some id → ∀ other ∈ records, other.id? ≠ some id := by
    intro id hid other hother hotherId
    have hdistinct := hregistered.ids_distinct
    rw [List.filterMap_cons_some hid, List.nodup_cons] at hdistinct
    exact hdistinct.1 (List.mem_filterMap.mpr ⟨other, hother, hotherId⟩)
  have hself := hregistered.not_succeeds_self List.mem_cons_self
  refine ⟨hfresh, hregistered.known_status record List.mem_cons_self,
    hregistered.effective_from_ok record List.mem_cons_self,
    hregistered.last_verified_ok record List.mem_cons_self, ?relation, ?not_superseded⟩
  case relation =>
    intro predecessor_id hlink
    obtain ⟨hid, predecessor, hpredecessor, hpredecessorId, hsupports⟩ :=
      hregistered.relation record List.mem_cons_self predecessor_id hlink
    rcases List.mem_cons.mp hpredecessor with rfl | hold
    · exact absurd ⟨predecessor_id, hlink, hpredecessorId⟩ hself
    · exact ⟨hid, predecessor, hold, hpredecessorId, hsupports⟩
  case not_superseded =>
    intro hsuperseded hid
    obtain ⟨successor, hsuccessor, hreplaces⟩ := hregistered.replaced record List.mem_cons_self hsuperseded hid
    rcases List.mem_cons.mp hsuccessor with rfl | hold
    · exact hself hreplaces.succeeds
    · -- The registry without the record resolves this link too, to another record with its id.
      obtain ⟨id, hlink, hrecordId⟩ := hreplaces.succeeds
      obtain ⟨_, predecessor, hpredecessor, hpredecessorId, _⟩ := hwf.relation successor hold id hlink
      exact hfresh id hrecordId predecessor hpredecessor hpredecessorId

end WellFormed

/-- What is left of a well-formed registry is well formed when it holds the predecessor of
    each of its records and a replacement of each of its superseded ones. -/
theorem WellFormed.keep {records kept : List (Record α)} (hwf : WellFormed records) (hsub : kept.Sublist records)
    (hclosed : ∀ successor ∈ kept, ∀ predecessor ∈ records, Succeeds successor predecessor → predecessor ∈ kept)
    (hreplaced : ∀ record ∈ kept, record.status = some SUPERSEDED → (∃ id, record.id? = some id) →
      ∃ successor ∈ kept, Replaces successor record) : WellFormed kept where
  ids_distinct := hwf.ids_distinct.sublist (hsub.filterMap Record.id?)
  known_status := fun record hmem => hwf.known_status record (hsub.subset hmem)
  effective_from_ok := fun record hmem => hwf.effective_from_ok record (hsub.subset hmem)
  last_verified_ok := fun record hmem => hwf.last_verified_ok record (hsub.subset hmem)
  relation := by
    intro record hmem predecessor_id hlink
    obtain ⟨hid, predecessor, hpredecessor, hpredecessorId, hsupports⟩ :=
      hwf.relation record (hsub.subset hmem) predecessor_id hlink
    have hkept := hclosed record hmem predecessor hpredecessor ⟨predecessor_id, hlink, hpredecessorId⟩
    exact ⟨hid, predecessor, hkept, hpredecessorId, hsupports⟩
  acyclic := by
    apply hwf.acyclic.mono
    rintro id predecessor_id ⟨record, hmem, hid, hlink⟩
    exact ⟨record, hsub.subset hmem, hid, hlink⟩
  replaced := hreplaced

/-- Records may be removed from a registry that validates exactly when what is left keeps
    every predecessor, however far back, and some replacement of every superseded record. -/
theorem remove_validates_iff {records kept : List (Record α)} (hvalid : validate_registry records = .ok [])
    (hsub : kept.Sublist records) :
    validate_registry kept = .ok [] ↔
      (∀ successor ∈ kept, ∀ predecessor,
        Relation.TransGen (Supersedes records) successor predecessor → predecessor ∈ kept) ∧
      ∀ record ∈ kept, record.status = some SUPERSEDED → (∃ id, record.id? = some id) →
        ∃ successor ∈ kept, Replaces successor record := by
  rw [validates_iff_wellFormed] at hvalid ⊢
  constructor
  · intro hkept
    refine ⟨?_, hkept.replaced⟩
    intro successor hsuccessor predecessor hpath
    have hstep : ∀ successor predecessor, successor ∈ kept → Supersedes records successor predecessor →
        predecessor ∈ kept := by
      rintro successor predecessor hsuccessor ⟨_, hpredecessor, id, hlink, hid⟩
      obtain ⟨_, named, hnamed, hnamedId, _⟩ := hkept.relation successor hsuccessor id hlink
      rw [WellFormed.eq_of_id hvalid.ids_distinct hpredecessor (hsub.subset hnamed) hid hnamedId]
      exact hnamed
    induction hpath with
    | single hlink => exact hstep _ _ hsuccessor hlink
    | tail _ hlink ih => exact hstep _ _ ih hlink
  · rintro ⟨hclosed, hreplaced⟩
    apply hvalid.keep hsub ?_ hreplaced
    intro successor hsuccessor predecessor hpredecessor hsucceeds
    exact hclosed successor hsuccessor predecessor (.single ⟨hsub.subset hsuccessor, hpredecessor, hsucceeds⟩)

/-- The sample registry without its hypothesis keeps the predecessors of its prices. -/
theorem sample_decisions_keep_predecessors : validate_registry (sample_decisions.take 2) = .ok [] ∧
    ∀ successor ∈ sample_decisions.take 2, ∀ predecessor,
      Relation.TransGen (Supersedes sample_decisions) successor predecessor → predecessor ∈ sample_decisions.take 2 := by
  have hvalid : validate_registry sample_decisions = .ok [] := by decide +kernel
  have hkept : validate_registry (sample_decisions.take 2) = .ok [] := by decide +kernel
  exact ⟨hkept, ((remove_validates_iff hvalid (List.take_sublist 2 sample_decisions)).mp hkept).1⟩

/-! ### Construction -/

/-- The record with status SUPERSEDED. -/
def Record.retired (record : Record α) : Record α := { record with status := some SUPERSEDED }

/-- The registries that come from the empty one by admitting a record at any place, or by
    retiring a current one that another record of the registry has replaced. -/
inductive Built : List (Record α) → Prop
  | nil : Built []
  | insert (before after : List (Record α)) (record : Record α) (hbuilt : Built (before ++ after))
      (hadmissible : Admissible (before ++ after) record) : Built (before ++ record :: after)
  | retire (before after : List (Record α)) (record : Record α) (hbuilt : Built (before ++ record :: after))
      (hcapable : record.StatusIn CURRENT_CAPABLE)
      (hreplaced : ∃ successor ∈ before ++ after, Replaces successor record) :
      Built (before ++ record.retired :: after)

section Status

variable {records : List (Record α)} {record : Record α} {status : Str}

/-- One authoritative status in place of another keeps a registry well formed, when a
    record that becomes SUPERSEDED has a replacement. -/
theorem WellFormed.change_status (hwf : WellFormed (record :: records)) (hold : record.StatusIn AUTHORITATIVE)
    (hnew : status ∈ AUTHORITATIVE)
    (hreplaced : status = SUPERSEDED → ∃ successor ∈ records, Replaces successor record) :
    WellFormed ({ record with status := some status } :: records) := by
  have hself : Record.StatusIn { record with status := some status } AUTHORITATIVE := ⟨status, hnew, rfl⟩
  obtain ⟨hknown, hknownRest⟩ := List.forall_mem_cons.mp hwf.known_status
  obtain ⟨hfrom, hfromRest⟩ := List.forall_mem_cons.mp hwf.effective_from_ok
  obtain ⟨hverified, hverifiedRest⟩ := List.forall_mem_cons.mp hwf.last_verified_ok
  refine ⟨?ids_distinct, ?known_status, ?effective_from_ok, ?last_verified_ok, ?relation, ?acyclic, ?replaced⟩
  case ids_distinct => exact hwf.ids_distinct
  case known_status =>
    have hsub : ∀ status ∈ AUTHORITATIVE, status ∈ known_statuses := by decide
    exact List.forall_mem_cons.mpr ⟨⟨status, hsub status hnew, rfl⟩, hknownRest⟩
  case effective_from_ok => exact List.forall_mem_cons.mpr ⟨hfrom, hfromRest⟩
  case last_verified_ok => exact List.forall_mem_cons.mpr ⟨hverified, hverifiedRest⟩
  case relation =>
    -- The changed record supports the same successors, and has the same predecessor.
    have hfound : ∀ other ∈ record :: records, ∀ predecessor_id, other.link? = some predecessor_id →
        (∃ id, other.id? = some id) ∧ ∃ predecessor ∈ { record with status := some status } :: records,
          predecessor.id? = some predecessor_id ∧ Supports predecessor other := by
      intro other hother predecessor_id hlink
      obtain ⟨hid, predecessor, hpredecessor, hpredecessorId, hsupports⟩ :=
        hwf.relation other hother predecessor_id hlink
      refine ⟨hid, ?_⟩
      rcases List.mem_cons.mp hpredecessor with rfl | hkept
      · exact ⟨_, List.mem_cons_self, hpredecessorId, hself, hsupports.same_scope, hsupports.in_order⟩
      · exact ⟨predecessor, List.mem_cons_of_mem _ hkept, hpredecessorId, hsupports⟩
    intro other hother predecessor_id hlink
    rcases List.mem_cons.mp hother with rfl | hkept
    · obtain ⟨hid, predecessor, hpredecessor, hpredecessorId, hsupports⟩ :=
        hfound record List.mem_cons_self predecessor_id hlink
      exact ⟨hid, predecessor, hpredecessor, hpredecessorId, hsupports.authoritative, hsupports.same_scope,
        hsupports.in_order⟩
    · exact hfound other (List.mem_cons_of_mem _ hkept) predecessor_id hlink
  case acyclic =>
    apply hwf.acyclic.mono
    rintro id predecessor_id ⟨other, hother, hid, hlink⟩
    rcases List.mem_cons.mp hother with rfl | hkept
    · exact ⟨record, List.mem_cons_self, hid, hlink⟩
    · exact ⟨other, List.mem_cons_of_mem _ hkept, hid, hlink⟩
  case replaced =>
    intro other hother hsuperseded hid
    rcases List.mem_cons.mp hother with rfl | hkept
    · obtain ⟨successor, hsuccessor, hreplaces⟩ := hreplaced (Option.some.inj hsuperseded)
      exact ⟨successor, List.mem_cons_of_mem _ hsuccessor, hreplaces.authoritative, hreplaces.same_scope,
        hreplaces.succeeds⟩
    · obtain ⟨successor, hsuccessor, hreplaces⟩ := hwf.replaced other (List.mem_cons_of_mem _ hkept) hsuperseded hid
      rcases List.mem_cons.mp hsuccessor with rfl | hstays
      · exact ⟨_, List.mem_cons_self, hself, hreplaces.same_scope, hreplaces.succeeds⟩
      · exact ⟨successor, List.mem_cons_of_mem _ hstays, hreplaces⟩

end Status

/-- A record that another one replaces may be retired. -/
theorem WellFormed.retire {before after : List (Record α)} {record : Record α}
    (hwf : WellFormed (before ++ record :: after)) (hstatus : record.StatusIn AUTHORITATIVE)
    (hreplaced : ∃ successor ∈ before ++ after, Replaces successor record) :
    WellFormed (before ++ record.retired :: after) := by
  have hchanged := (hwf.perm List.perm_middle).change_status hstatus (show SUPERSEDED ∈ AUTHORITATIVE by decide)
    (fun _ => hreplaced)
  exact hchanged.perm List.perm_middle.symm

/-- Each step of a construction keeps the registry well formed. -/
theorem Built.wellFormed {records : List (Record α)} (hbuilt : Built records) : WellFormed records := by
  induction hbuilt with
  | nil => exact wellFormed_nil
  | insert before after record _ hadmissible ih => exact (ih.insert hadmissible).perm List.perm_middle.symm
  | retire before after record _ hcapable hreplaced ih =>
    have hsub : ∀ status ∈ CURRENT_CAPABLE, status ∈ AUTHORITATIVE := by decide
    obtain ⟨status, hmem, hstatus⟩ := hcapable
    exact ih.retire ⟨status, hsub status hmem, hstatus⟩ hreplaced

/-- Undoing a retirement: a superseded record of a well-formed registry may become ACTIVE
    again, and a replacement of it stands elsewhere in the registry. -/
theorem WellFormed.unretire {before after : List (Record α)} {record : Record α}
    (hwf : WellFormed (before ++ record :: after)) (hstatus : record.status = some SUPERSEDED)
    (hid : ∃ id, record.id? = some id) :
    WellFormed (before ++ { record with status := some ACTIVE } :: after) ∧
      ∃ successor ∈ before ++ after, Replaces successor record := by
  have hfront := hwf.perm List.perm_middle
  obtain ⟨successor, hsuccessor, hreplaces⟩ := hfront.replaced record List.mem_cons_self hstatus hid
  have hactive : ACTIVE ≠ SUPERSEDED := by decide
  have hchanged := hfront.change_status ⟨SUPERSEDED, by simp [AUTHORITATIVE], hstatus⟩
    (show ACTIVE ∈ AUTHORITATIVE by simp [AUTHORITATIVE]) (fun h => absurd h hactive)
  refine ⟨hchanged.perm List.perm_middle.symm, successor, ?_, hreplaces⟩
  rcases List.mem_cons.mp hsuccessor with rfl | hother
  · exact absurd hreplaces.succeeds (hfront.not_succeeds_self List.mem_cons_self)
  · exact hother

/-- Without a superseded record that has an id, a record that nothing supersedes may be
    taken out. -/
theorem WellFormed.remove_head {before after : List (Record α)} {record : Record α}
    (hwf : WellFormed (before ++ record :: after))
    (hnone : ∀ other ∈ before ++ record :: after, other.status = some SUPERSEDED → ¬ ∃ id, other.id? = some id)
    (hhead : ∀ other ∈ before ++ record :: after, ¬ Succeeds other record) :
    WellFormed (before ++ after) ∧ Admissible (before ++ after) record := by
  have hsub : (before ++ after).Sublist (before ++ record :: after) :=
    (List.Sublist.refl before).append (List.sublist_cons_self record after)
  have hrest : WellFormed (before ++ after) := by
    refine hwf.keep hsub ?_ (fun other hother hsuperseded hid => ?_)
    · intro successor hsuccessor predecessor hpredecessor hsucceeds
      rcases List.mem_cons.mp (List.perm_middle.mem_iff.mp hpredecessor) with rfl | hkept
      · exact absurd hsucceeds (hhead successor (hsub.subset hsuccessor))
      · exact hkept
    · exact absurd hid (hnone other (hsub.subset hother) hsuperseded)
  exact ⟨hrest, hrest.admissible (hwf.perm List.perm_middle)⟩

/-- The steps reach every well-formed registry: retirements are undone first, and then the
    records are taken out from the top. -/
theorem WellFormed.built {records : List (Record α)} (hwf : WellFormed records) : Built records := by
  -- Each step back lowers the number of records or of superseded ones.
  induction hsize : records.length + records.countP (fun record => record.status = some SUPERSEDED)
      using Nat.strong_induction_on generalizing records with
  | h size ih =>
    by_cases hretired : ∃ record ∈ records, record.status = some SUPERSEDED ∧ ∃ id, record.id? = some id
    · obtain ⟨record, hmem, hstatus, hid⟩ := hretired
      obtain ⟨before, after, rfl⟩ := List.append_of_mem hmem
      obtain ⟨hbefore, hreplaced⟩ := hwf.unretire hstatus hid
      have hsmaller : Built (before ++ { record with status := some ACTIVE } :: after) := by
        have hactive : ACTIVE ≠ SUPERSEDED := by decide
        refine ih _ ?_ hbefore rfl
        simp only [List.length_append, List.length_cons, List.countP_append, List.countP_cons, hstatus,
          Option.some.injEq, hactive, decide_true, decide_false, if_true] at hsize ⊢
        simp only [Bool.false_eq_true, if_false]
        omega
      obtain ⟨successor, hsuccessor, hreplaces⟩ := hreplaced
      have hcapable : Record.StatusIn { record with status := some ACTIVE } CURRENT_CAPABLE :=
        ⟨ACTIVE, by simp [CURRENT_CAPABLE], rfl⟩
      have hback := Built.retire before after _ hsmaller hcapable
        ⟨successor, hsuccessor, hreplaces.authoritative, hreplaces.same_scope, hreplaces.succeeds⟩
      have hsame : Record.retired { record with status := some ACTIVE } = record := by
        rw [Record.retired, ← hstatus]
      exact hsame ▸ hback
    · by_cases hempty : records = []
      · exact hempty ▸ .nil
      · push Not at hretired
        obtain ⟨record, hrecord⟩ := List.exists_mem_of_ne_nil _ (digraph.heads_ne_nil hwf.acyclic_succeeds hempty)
        obtain ⟨hmem, hhead⟩ := digraph.mem_heads.mp hrecord
        obtain ⟨before, after, rfl⟩ := List.append_of_mem hmem
        have hnone : ∀ other ∈ before ++ record :: after, other.status = some SUPERSEDED →
            ¬ ∃ id, other.id? = some id := by
          rintro other hother hsuperseded ⟨id, hid⟩
          exact hretired other hother hsuperseded id hid
        obtain ⟨hrest, hadmissible⟩ := hwf.remove_head hnone hhead
        have hsmaller : Built (before ++ after) := by
          refine ih _ ?_ hrest rfl
          simp only [List.length_append, List.length_cons, List.countP_append, List.countP_cons] at hsize ⊢
          omega
        exact .insert before after record hsmaller hadmissible

/-- The registries that validate are exactly those that can be built up record by record,
    every registry on the way being valid: no valid registry has to be written in one
    piece. -/
theorem validates_iff_built {records : List (Record α)} : validate_registry records = .ok [] ↔ Built records := by
  rw [validates_iff_wellFormed]
  exact ⟨WellFormed.built, Built.wellFormed⟩

end context_router.minimal_resolver
