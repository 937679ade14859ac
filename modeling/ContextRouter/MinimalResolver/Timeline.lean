import Mathlib.Data.Nat.Find
import ContextRouter.MinimalResolver.Order
import ContextRouter.MinimalResolver.Revival

open python

namespace context_router.minimal_resolver

variable {α : Type}

instance (predecessor successor : Record α) : Decidable (InOrder predecessor successor) :=
  match hbefore : parse_date predecessor.effective_from, hafter : parse_date successor.effective_from with
  | .ok (some before), .ok (some after) =>
    decidable_of_iff (before ≤ after) (by simp [InOrder, hbefore, hafter])
  | .ok none, _ => isTrue (by simp [InOrder, hbefore])
  | .error _, _ => isTrue (by simp [InOrder, hbefore])
  | .ok (some _), .ok none => isTrue (by simp [InOrder, hafter])
  | .ok (some _), .error _ => isTrue (by simp [InOrder, hafter])

/-- The successive versions of one decision, oldest first. The first `superseded` of
    them are marked SUPERSEDED and the others are LOCKED or ACTIVE. -/
structure SupersessionChain (chain : List (Record α)) (superseded : Nat) : Prop where
  superseded_lt : superseded < chain.length
  has_id : ∀ record ∈ chain, ∃ id, record.id? = some id
  ids_distinct : chain.Pairwise fun left right => left.id? ≠ right.id?
  first : ∀ record ∈ chain.head?, record.link? = none
  linked : chain.IsChain fun record successor => Succeeds successor record
  dated : ∀ record ∈ chain, ∃ date, parse_date record.effective_from = .ok (some date)
  in_order : chain.IsChain InOrder
  last_verified_ok : ∀ record ∈ chain, DateOk record.last_verified
  superseded_first : ∀ record ∈ chain.take superseded, record.status = some SUPERSEDED
  capable_rest : ∀ record ∈ chain.drop superseded, record.StatusIn CURRENT_CAPABLE

/-- The largest position, counted from one, of a record that is effective; zero if none
    is. -/
def latest_effective (as_of_date : Date) (chain : List (Record α)) : Nat :=
  Nat.findGreatest (fun k => chain[k - 1]?.any fun record => EffectiveAt as_of_date record) chain.length

namespace SupersessionChain

variable {chain : List (Record α)} {superseded : Nat} (hchain : SupersessionChain chain superseded)
  {i j : Nat} {record other : Record α}

include hchain

theorem index_eq (hrecord : chain[i]? = some record) (hother : chain[j]? = some other)
    (hid : record.id? = other.id?) : i = j := by
  have hpairwise := List.pairwise_iff_getElem.mp hchain.ids_distinct
  obtain ⟨hi, rfl⟩ := List.getElem?_eq_some_iff.mp hrecord
  obtain ⟨hj, rfl⟩ := List.getElem?_eq_some_iff.mp hother
  obtain hlt | heq | hgt := Nat.lt_trichotomy i j
  · exact absurd hid (hpairwise i j hi hj hlt)
  · exact heq
  · exact absurd hid.symm (hpairwise j i hj hi hgt)

theorem succeeds_next (hrecord : chain[i]? = some record) (hother : chain[i + 1]? = some other) :
    Succeeds other record ∧ InOrder record other := by
  obtain ⟨hi, rfl⟩ := List.getElem?_eq_some_iff.mp hrecord
  obtain ⟨hj, rfl⟩ := List.getElem?_eq_some_iff.mp hother
  exact ⟨List.isChain_iff_getElem.mp hchain.linked i hj, List.isChain_iff_getElem.mp hchain.in_order i hj⟩

/-- A record with a link is not the first, and its link names the record before it. -/
theorem exists_predecessor (hrecord : chain[i]? = some record) {id : Str} (hlink : record.link? = some id) :
    ∃ k predecessor, i = k + 1 ∧ chain[k]? = some predecessor ∧ predecessor.id? = some id := by
  cases i with
  | zero =>
    rw [← List.head?_eq_getElem?] at hrecord
    rw [hchain.first record hrecord] at hlink
    cases hlink
  | succ k =>
    obtain ⟨hi, _⟩ := List.getElem?_eq_some_iff.mp hrecord
    have hpredecessor : chain[k]? = some chain[k] := List.getElem?_eq_getElem (by omega)
    obtain ⟨⟨named, hnamed, hid⟩, _⟩ := hchain.succeeds_next hpredecessor hrecord
    rw [hlink, Option.some.injEq] at hnamed
    subst named
    exact ⟨k, _, rfl, hpredecessor, hid⟩

/-- Only the next record of a chain succeeds a record of it. -/
theorem index_of_succeeds (hrecord : chain[i]? = some record) (hother : chain[j]? = some other)
    (hsucceeds : Succeeds other record) : j = i + 1 := by
  obtain ⟨id, hlink, hid⟩ := hsucceeds
  obtain ⟨k, predecessor, rfl, hpredecessor, hpredecessorId⟩ := hchain.exists_predecessor hother hlink
  rw [hchain.index_eq hpredecessor hrecord (hpredecessorId.trans hid.symm)]

theorem status_superseded (hrecord : chain[i]? = some record) (hi : i < superseded) :
    record.status = some SUPERSEDED := by
  apply hchain.superseded_first
  apply List.mem_of_getElem?
  rw [List.getElem?_take_of_lt hi]
  exact hrecord

theorem status_capable (hrecord : chain[i]? = some record) (hi : superseded ≤ i) : record.StatusIn CURRENT_CAPABLE := by
  apply hchain.capable_rest
  obtain ⟨n, rfl⟩ := Nat.exists_eq_add_of_le hi
  apply List.mem_of_getElem?
  rw [List.getElem?_drop]
  exact hrecord

theorem status_authoritative (hrecord : chain[i]? = some record) : record.StatusIn AUTHORITATIVE := by
  by_cases hi : i < superseded
  · exact ⟨SUPERSEDED, by simp [AUTHORITATIVE], hchain.status_superseded hrecord hi⟩
  · obtain ⟨status, hmem, hstatus⟩ := hchain.status_capable hrecord (by omega)
    have hsub : ∀ status ∈ CURRENT_CAPABLE, status ∈ AUTHORITATIVE := by decide
    exact ⟨status, hsub status hmem, hstatus⟩

theorem lt_superseded_of_status (hrecord : chain[i]? = some record) (hstatus : record.status = some SUPERSEDED) :
    i < superseded := by
  by_contra hnot
  obtain ⟨status, hmem, hcapable⟩ := hchain.status_capable hrecord (by omega)
  have hdistinct : ∀ status ∈ CURRENT_CAPABLE, status ≠ SUPERSEDED := by decide
  rw [hcapable, Option.some.injEq] at hstatus
  exact hdistinct status hmem hstatus

/-- Dates do not decrease along a chain, so what is effective is an initial part. -/
theorem effective_of_le {as_of_date : Date} (n : Nat) (hrecord : chain[i]? = some record)
    (hother : chain[i + n]? = some other) (heffective : EffectiveAt as_of_date other) :
    EffectiveAt as_of_date record := by
  induction n generalizing other with
  | zero =>
    rw [Nat.add_zero, hrecord, Option.some.injEq] at hother
    exact hother ▸ heffective
  | succ n ih =>
    obtain ⟨hlength, _⟩ := List.getElem?_eq_some_iff.mp hother
    have hmiddle : chain[i + n]? = some chain[i + n] := List.getElem?_eq_getElem (by omega)
    apply ih hmiddle
    obtain ⟨_, horder⟩ := hchain.succeeds_next hmiddle hother
    obtain ⟨before, hbefore⟩ := hchain.dated _ (List.mem_of_getElem? hmiddle)
    obtain ⟨after, hafter⟩ := hchain.dated other (List.mem_of_getElem? hother)
    simp only [EffectiveAt, hbefore]
    simp only [EffectiveAt, hafter] at heffective
    exact (horder before after hbefore hafter).trans heffective

theorem effective_iff {as_of_date : Date} (hrecord : chain[i]? = some record) :
    EffectiveAt as_of_date record ↔ i < latest_effective as_of_date chain := by
  constructor
  · intro heffective
    obtain ⟨hlength, _⟩ := List.getElem?_eq_some_iff.mp hrecord
    apply Nat.le_findGreatest hlength
    simpa [hrecord] using heffective
  · intro hi
    have hlatest := Nat.findGreatest_of_ne_zero rfl (show latest_effective as_of_date chain ≠ 0 by omega)
    rw [Option.any_eq_true] at hlatest
    obtain ⟨last, hlast, heffective⟩ := hlatest
    obtain ⟨n, hn⟩ := Nat.exists_eq_add_of_le (show i ≤ latest_effective as_of_date chain - 1 by omega)
    exact hchain.effective_of_le n hrecord (hn ▸ hlast) (of_decide_eq_true heffective)

theorem live_iff {as_of_date : Date} (hrecord : chain[i]? = some record) :
    Live as_of_date record ↔ superseded ≤ i ∧ i < latest_effective as_of_date chain := by
  rw [← hchain.effective_iff hrecord]
  constructor
  · intro hlive
    refine ⟨?_, hlive.effective⟩
    by_contra hnot
    obtain ⟨status, hmem, hstatus⟩ := hlive.capable
    have hdistinct : ∀ status ∈ CURRENT_CAPABLE, status ≠ SUPERSEDED := by decide
    rw [hchain.status_superseded hrecord (by omega), Option.some.injEq] at hstatus
    exact hdistinct status hmem hstatus.symm
  · exact fun ⟨hi, heffective⟩ => ⟨hchain.status_capable hrecord hi, heffective⟩

/-- The relations of a chain lead from each position to the one before it. -/
theorem acyclic_linked : digraph.Acyclic (Linked chain) := by
  let At : Str → Nat → Prop := fun id i => ∃ record, chain[i]? = some record ∧ record.id? = some id
  apply digraph.acyclic_of_positions At
  · rintro id predecessor_id ⟨record, hmem, hid, hlink⟩
    obtain ⟨i, hi⟩ := List.mem_iff_getElem?.mp hmem
    obtain ⟨k, predecessor, rfl, hpredecessor, hpredecessorId⟩ := hchain.exists_predecessor hi hlink
    exact ⟨k + 1, k, ⟨record, hi, hid⟩, ⟨predecessor, hpredecessor, hpredecessorId⟩, k.lt_succ_self⟩
  · rintro id i j ⟨record, hrecord, hid⟩ ⟨other, hother, hotherId⟩
    exact hchain.index_eq hrecord hother (hid.trans hotherId.symm)

/-- A chain within one scope is well formed. -/
theorem wellFormed {scope : Str × Str × Str} (hscope : ∀ record ∈ chain, scope_key record = scope) :
    WellFormed chain := by
  refine ⟨?ids_distinct, ?known_status, ?effective_from_ok, hchain.last_verified_ok, ?relation, hchain.acyclic_linked,
    ?replaced⟩
  case ids_distinct =>
    rw [List.Nodup, List.pairwise_filterMap]
    apply hchain.ids_distinct.imp
    rintro left right hne id hleft id' hright rfl
    exact hne (hleft.trans hright.symm)
  case known_status =>
    intro record hmem
    obtain ⟨i, hi⟩ := List.mem_iff_getElem?.mp hmem
    obtain ⟨status, hstatus, heq⟩ := hchain.status_authoritative hi
    have hsub : ∀ status ∈ AUTHORITATIVE, status ∈ known_statuses := by decide
    exact ⟨status, hsub status hstatus, heq⟩
  case effective_from_ok =>
    intro record hmem
    obtain ⟨date, hdate⟩ := hchain.dated record hmem
    exact ⟨some date, hdate⟩
  case relation =>
    intro record hmem predecessor_id hlink
    obtain ⟨i, hi⟩ := List.mem_iff_getElem?.mp hmem
    obtain ⟨k, predecessor, rfl, hpredecessor, hid⟩ := hchain.exists_predecessor hi hlink
    have hpredecessorMem := List.mem_of_getElem? hpredecessor
    refine ⟨hchain.has_id record hmem, predecessor, hpredecessorMem, hid,
      hchain.status_authoritative hpredecessor, ?_, ?_⟩
    · exact (hscope predecessor hpredecessorMem).trans (hscope record hmem).symm
    · exact (hchain.succeeds_next hpredecessor hi).2
  case replaced =>
    intro record hmem hstatus _
    obtain ⟨i, hi⟩ := List.mem_iff_getElem?.mp hmem
    have hlt := hchain.lt_superseded_of_status hi hstatus
    have hlength := hchain.superseded_lt
    have hnext : chain[i + 1]? = some chain[i + 1] := List.getElem?_eq_getElem (by omega)
    have hnextMem := List.mem_of_getElem? hnext
    refine ⟨chain[i + 1], hnextMem, hchain.status_authoritative hnext, ?_, (hchain.succeeds_next hi hnext).1⟩
    exact (hscope _ hnextMem).trans (hscope record hmem).symm

/-- The heads of a chain, listed in any order: its latest effective record, unless that
    one is marked SUPERSEDED. -/
theorem heads_eq {listed : List (Record α)} (hlisted : listed.Perm chain) (hwf : WellFormed listed) (as_of_date : Date) :
    (latest_effective as_of_date chain ≤ superseded → heads as_of_date listed = []) ∧
      (superseded < latest_effective as_of_date chain → ∃ record,
        chain[latest_effective as_of_date chain - 1]? = some record ∧ heads as_of_date listed = [record]) := by
  constructor
  · intro hle
    apply List.eq_nil_iff_forall_not_mem.mpr
    intro record hhead
    obtain ⟨hmem, hlive, _⟩ := mem_heads.mp hhead
    obtain ⟨i, hi⟩ := List.mem_iff_getElem?.mp (hlisted.mem_iff.mp hmem)
    have hbetween := (hchain.live_iff hi).mp hlive
    omega
  · intro hlt
    have hlength : latest_effective as_of_date chain ≤ chain.length := Nat.findGreatest_le chain.length
    obtain ⟨k, hk⟩ : ∃ k, latest_effective as_of_date chain = k + 1 := Nat.exists_eq_succ_of_ne_zero (by omega)
    have hlast : chain[k]? = some chain[k] := List.getElem?_eq_getElem (by omega)
    have hmem := List.mem_of_getElem? hlast
    have hlive : Live as_of_date chain[k] := (hchain.live_iff hlast).mpr (by omega)
    obtain ⟨id, hid⟩ := hchain.has_id _ hmem
    refine ⟨chain[k], by rw [hk, Nat.add_sub_cancel, hlast], ?_⟩
    apply heads_eq_singleton hwf.ids_distinct hid
    · refine mem_heads.mpr ⟨hlisted.mem_iff.mpr hmem, hlive, ?_⟩
      intro other hother hotherLive hsucceeds
      obtain ⟨i, hi⟩ := List.mem_iff_getElem?.mp (hlisted.mem_iff.mp hother)
      have hnext := hchain.index_of_succeeds hlast hi hsucceeds
      have hbetween := (hchain.live_iff hi).mp hotherLive
      omega
    · intro other hother
      obtain ⟨hotherMem, hotherLive, hclear⟩ := mem_heads.mp hother
      obtain ⟨i, hi⟩ := List.mem_iff_getElem?.mp (hlisted.mem_iff.mp hotherMem)
      have hbetween := (hchain.live_iff hi).mp hotherLive
      by_cases hsame : i = k
      · subst i
        rw [hlast, Option.some.injEq] at hi
        exact hi.symm
      · -- an earlier record in force is superseded by the next one, which is in force too
        have hnext : chain[i + 1]? = some chain[i + 1] := List.getElem?_eq_getElem (by omega)
        have hnextLive : Live as_of_date chain[i + 1] := (hchain.live_iff hnext).mpr (by omega)
        have hnextMem := hlisted.mem_iff.mpr (List.mem_of_getElem? hnext)
        exact absurd (hchain.succeeds_next hi hnext).1 (hclear _ hnextMem hnextLive)

end SupersessionChain

/-- At every date a chain of versions, listed in any order among records of other
    scopes, resolves to its latest effective version, or to UNKNOWN where that one is
    marked SUPERSEDED or does not exist. -/
theorem chain_timeline {records chain : List (Record α)} {superseded : Nat} (hchain : SupersessionChain chain superseded)
    {domain subject field as_of : Str} (hlisted : (scope_records records (domain, subject, field)).Perm chain)
    {as_of_date : Date} (hdate : parse_date as_of = .ok (some as_of_date)) (verify_after_days : Int) :
    ∃ result, resolve_current records domain subject field as_of verify_after_days = .ok result ∧
      (latest_effective as_of_date chain ≤ superseded → result.state = Str.ofString "UNKNOWN") ∧
      (superseded < latest_effective as_of_date chain → ∃ record,
        chain[latest_effective as_of_date chain - 1]? = some record ∧ result.record? = some record ∧
          (result.state = Str.ofString "RESOLVED" ∧ VerifiedWithin verify_after_days as_of_date record ∨
            result.state = Str.ofString "VERIFY" ∧ ¬ VerifiedWithin verify_after_days as_of_date record)) := by
  have hscope : ∀ record ∈ chain, scope_key record = (domain, subject, field) :=
    fun record hmem => (mem_scope_records.mp (hlisted.mem_iff.mpr hmem)).2
  have hwf := (hchain.wellFormed hscope).perm hlisted.symm
  obtain ⟨hnone, hsome⟩ := hchain.heads_eq hlisted hwf as_of_date
  by_cases hlt : superseded < latest_effective as_of_date chain
  · obtain ⟨record, hrecord, hheads⟩ := hsome hlt
    obtain ⟨result, hrun, hfresh⟩ := selected_of_heads hdate hwf hheads verify_after_days
    refine ⟨result, hrun, fun hle => absurd hle (by omega), fun _ => ⟨record, hrecord, freshness_record hfresh, ?_⟩⟩
    obtain ⟨rfl, hverified⟩ | ⟨⟨reason, age_days, rfl⟩, hnot⟩ := freshness_spec hfresh
    · exact Or.inl ⟨rfl, hverified⟩
    · exact Or.inr ⟨rfl, hnot⟩
  · have hne : scope_records records (domain, subject, field) ≠ [] := by
      intro hnil
      have hlength := hchain.superseded_lt
      rw [← hlisted.length_eq, hnil] at hlength
      cases hlength
    refine ⟨.UNKNOWN "no_current_survivor", ?_, fun _ => rfl, fun h => absurd h hlt⟩
    rw [resolve_current_of_wellFormed hdate verify_after_days hwf hne, hnone (by omega)]
    rfl

/-- The two versions of the sample price, of which the first is marked SUPERSEDED,
    listed newest first. -/
theorem sample_decisions_timeline : ∃ result,
    resolve_current sample_decisions.reverse "demo" "starter" "price" "2026-08-01" 30 = .ok result ∧
      result.record? = sample_decisions[1]? := by
  have hids : ∀ record ∈ sample_decisions.take 2, ∃ id ∈ ([Str.ofString "PRICE-001", "PRICE-002"] : List Str),
      record.id? = some id := by
    decide +kernel
  have hdates : ∀ record ∈ sample_decisions.take 2,
      ∃ date ∈ ([⟨2026, 7, 1, by decide⟩, ⟨2026, 8, 1, by decide⟩] : List Date),
        parse_date record.effective_from = .ok (some date) := by
    decide +kernel
  have hchain : SupersessionChain (sample_decisions.take 2) 1 := by
    refine ⟨by decide, ?has_id, by decide +kernel, by decide +kernel, by decide +kernel, ?dated, by decide +kernel,
      by decide +kernel, by decide +kernel, by decide +kernel⟩
    case has_id =>
      intro record hmem
      obtain ⟨id, _, hid⟩ := hids record hmem
      exact ⟨id, hid⟩
    case dated =>
      intro record hmem
      obtain ⟨date, _, hdate⟩ := hdates record hmem
      exact ⟨date, hdate⟩
  have hdate : parse_date (Str.ofString "2026-08-01") = .ok (some ⟨2026, 8, 1, by decide⟩) := by decide +kernel
  have hlisted :
      (scope_records sample_decisions.reverse ("demo", "starter", "price")).Perm (sample_decisions.take 2) := by
    decide +kernel
  obtain ⟨result, hrun, _, hcurrent⟩ := chain_timeline hchain hlisted hdate 30
  have hlatest : latest_effective ⟨2026, 8, 1, by decide⟩ (sample_decisions.take 2) = 2 := by decide +kernel
  rw [hlatest] at hcurrent
  obtain ⟨record, hrecord, hselected, _⟩ := hcurrent (by omega)
  exact ⟨result, hrun, hselected.trans hrecord.symm⟩

end context_router.minimal_resolver
