import MentorsMind.Lib.DenseIndex
import MentorsMind.Lib.Table
import MentorsMind.Staking.Effects

/-! The registry: its index lists exactly the stakers, and its total is what they staked. -/
namespace Staking
open Outcome Soroban Shared

variable {Addr : Type}

def Registry.index (r : Registry Addr) : DenseIndex Addr where
  entry := r.stakerAt
  position := r.stakerIndex
  count := r.stakerCount

def stakedAmount (o : Option (StakeRecord Addr)) : ℤ := o.elim 0 StakeRecord.amount

structure Registry.Sound (r : Registry Addr) : Prop where
  index : r.index.Sound
  listed : ∀ staker, (r.stakerIndex staker).isSome ↔ (r.stake staker).isSome
  record : ∀ staker record, r.stake staker = some record →
    record.mentor = staker ∧ 0 < record.amount ∧ record.amount ≤ maxFinancialAmount
  finite : PointSum.Finite stakedAmount r.stake
  total : r.totalStaked = PointSum.total stakedAmount r.stake

namespace Registry.Sound

variable {r r' : Registry Addr}

theorem stakedAmount_nonneg (h : r.Sound) (staker : Addr) :
    0 ≤ stakedAmount (r.stake staker) := by
  cases hstake : r.stake staker with
  | none => exact le_rfl
  | some record => exact (h.record staker record hstake).2.1.le

/-- Each stake is covered by the total. -/
theorem amount_le_total (h : r.Sound) {staker : Addr} {record : StakeRecord Addr}
    (hstake : r.stake staker = some record) : record.amount ≤ r.totalStaked := by
  have hle := h.finite.le_total h.stakedAmount_nonneg staker
  rw [hstake] at hle
  rw [h.total]
  exact hle

/-- The stakers have positions of their own. -/
theorem occupant_of_stake (h : r.Sound) {staker : Addr} {record : StakeRecord Addr}
    (hstake : r.stake staker = some record) :
    ∃ i, i < r.stakerCount ∧ r.occupant i = some (staker, record) := by
  have hlisted : (r.stakerIndex staker).isSome := by
    rw [h.listed, hstake]
    rfl
  obtain ⟨i, hi⟩ := Option.isSome_iff_exists.mp hlisted
  refine ⟨i, h.index.lt_count hi, ?_⟩
  have hentry : r.stakerAt i = some staker := (h.index.entry_iff i staker).mpr hi
  simp [Registry.occupant, hentry, hstake]

theorem stakerIndex_eq_none (h : r.Sound) {staker : Addr} (hstake : r.stake staker = none) :
    r.stakerIndex staker = none := by
  have hiff := h.listed staker
  rw [hstake] at hiff
  simpa using hiff

end Registry.Sound

theorem Registry.occupant_eq_some {r : Registry Addr} {i : ℕ} {staker : Addr}
    {record : StakeRecord Addr} :
    r.occupant i = some (staker, record) ↔
      r.stakerAt i = some staker ∧ r.stake staker = some record := by
  unfold Registry.occupant
  cases hat : r.stakerAt i with
  | none => simp
  | some a =>
    show (r.stake a).map (fun record => (a, record)) = some (staker, record) ↔
      some a = some staker ∧ r.stake staker = some record
    rw [Option.map_eq_some_iff, Option.some.injEq]
    constructor
    · rintro ⟨x, hx, heq⟩
      obtain ⟨rfl, rfl⟩ := Prod.mk.inj heq
      exact ⟨rfl, hx⟩
    · rintro ⟨rfl, hrecord⟩
      exact ⟨record, hrecord, rfl⟩

section Steps

variable [DecidableEq Addr] {r r' : Registry Addr} {mentor : Addr} {record : StakeRecord Addr}

/-- A new stake is appended to the index and added to the total. -/
theorem Registry.enlist_eq_ok (hfresh : r.stakerIndex mentor = none)
    (h : r.enlist mentor record = .ok r') :
    r'.index = r.index.push mentor ∧ r'.stake = Function.update r.stake mentor (some record) ∧
      r'.totalStaked = r.totalStaked + record.amount ∧ r'.stakers = r.stakers := by
  simp only [Registry.enlist, hfresh, bind_eq_ok, u32_eq_ok, checkedI128_eq_ok, pure_eq_ok] at h
  obtain ⟨count, ⟨-, rfl⟩, listed, rfl, total, ⟨-, rfl⟩, rfl⟩ := h
  exact ⟨rfl, rfl, rfl, rfl⟩

theorem Registry.Sound.enlist (hr : r.Sound) (hfresh : r.stake mentor = none)
    (hmentor : record.mentor = mentor) (hpos : 0 < record.amount)
    (hle : record.amount ≤ maxFinancialAmount) (h : r.enlist mentor record = .ok r') :
    r'.Sound := by
  have hunlisted := hr.stakerIndex_eq_none hfresh
  obtain ⟨hindex, hstake, htotal, -⟩ := Registry.enlist_eq_ok hunlisted h
  have hposition : r'.stakerIndex = (r.index.push mentor).position :=
    congrArg DenseIndex.position hindex
  refine {
    index := hindex ▸ hr.index.push hunlisted
    listed := fun staker => ?_
    record := fun staker x hx => ?_
    finite := hstake ▸ hr.finite.update mentor (some record)
    total := ?_ }
  · rw [hposition, DenseIndex.push_isSome, hstake]
    by_cases heq : staker = mentor
    · simp [heq]
    · simp only [heq, false_or, ne_eq, not_false_eq_true, Function.update_of_ne]
      exact hr.listed staker
  · rw [hstake] at hx
    obtain ⟨rfl, rfl⟩ | ⟨-, hold⟩ := Table.update_eq_some_iff.mp hx
    · exact ⟨hmentor, hpos, hle⟩
    · exact hr.record staker x hold
  · rw [hstake, hr.finite.total_update, htotal, hr.total, hfresh]
    simp [stakedAmount]

/-- The stake of `mentor` leaves the index and the total. -/
theorem Registry.Sound.delist_eq_ok (hr : r.Sound) (hfound : r.stake mentor = some record)
    (h : r.delist mentor record.amount = .ok r') :
    (∃ k last, r.stakerIndex mentor = some k ∧ r.stakerAt (r.stakerCount - 1) = some last ∧
      r'.index = r.index.swapRemove mentor last k) ∧
      r'.stake = Function.update r.stake mentor none ∧
      r'.totalStaked = r.totalStaked - record.amount ∧ r'.stakers = r.stakers := by
  have hlisted : (r.stakerIndex mentor).isSome := by
    rw [hr.listed, hfound]
    rfl
  obtain ⟨k, hk⟩ := Option.isSome_iff_exists.mp hlisted
  have hlt := hr.index.lt_count hk
  have hentry : r.stakerAt k = some mentor := (hr.index.entry_iff k mentor).mpr hk
  simp only [Registry.delist, Registry.unlist, hk, bind_eq_ok, require_eq_ok, safeSub_eq_ok,
    pure_eq_ok] at h
  obtain ⟨unlisted, ⟨-, -, hunlisted⟩, total, ⟨-, rfl⟩, rfl⟩ := h
  split_ifs at hunlisted with hlast
  · simp only [bind_eq_ok, pure_eq_ok] at hunlisted
    obtain ⟨moved, rfl, rfl⟩ := hunlisted
    have hsub : k = r.stakerCount - 1 := hlast
    refine ⟨⟨k, mentor, hk, hsub ▸ hentry, ?_⟩, rfl, rfl, rfl⟩
    simp only [Registry.index, DenseIndex.swapRemove, ← hsub, Function.update_idem]
  · simp only [bind_eq_ok, expect_eq_ok, pure_eq_ok] at hunlisted
    obtain ⟨last, hlastEntry, moved, rfl, rfl⟩ := hunlisted
    exact ⟨⟨k, last, hk, hlastEntry, rfl⟩, rfl, rfl, rfl⟩

theorem Registry.Sound.delist (hr : r.Sound) (hfound : r.stake mentor = some record)
    (h : r.delist mentor record.amount = .ok r') : r'.Sound := by
  obtain ⟨⟨k, last, hk, hlast, hindex⟩, hstake, htotal, -⟩ := hr.delist_eq_ok hfound h
  have hposition : r'.stakerIndex = (r.index.swapRemove mentor last k).position :=
    congrArg DenseIndex.position hindex
  refine {
    index := hindex ▸ hr.index.swapRemove hk hlast
    listed := fun staker => ?_
    record := fun staker x hx => ?_
    finite := hstake ▸ hr.finite.update mentor none
    total := ?_ }
  · rw [hposition, hr.index.swapRemove_isSome hlast, hstake]
    by_cases heq : staker = mentor
    · simp [heq]
    · simp only [heq, ne_eq, not_false_eq_true, true_and, Function.update_of_ne]
      exact hr.listed staker
  · rw [hstake] at hx
    exact hr.record staker x (Table.erase_eq_some_iff.mp hx).2
  · rw [hstake, hr.finite.total_update, htotal, hr.total, hfound]
    simp [stakedAmount, sub_eq_add_neg]

end Steps

section Runs

variable [DecidableEq Addr] {home : Addr} {inv : Invocation Addr home} {s t : State Addr}
  {call : Call Addr} {checksum : ℕ → ℤ → Hash}

/-- The registry and the recovery data of a reachable state. -/
structure Reachable (s : State Addr) : Prop where
  wellFormed : WellFormed s
  registry : s.registry.Sound

omit [DecidableEq Addr] in
theorem WellFormed.of_eq (h : WellFormed s) (hconfig : t.config = s.config)
    (hstakers : t.registry.stakers = s.registry.stakers)
    (hsnapshots : t.recovery.stakeSnapshot = s.recovery.stakeSnapshot) : WellFormed t where
  initialised := hconfig ▸ h.initialised
  stakers := hstakers ▸ h.stakers
  snapshot := hsnapshots ▸ h.snapshot

theorem Reachable.of_effect (hs : Reachable s) (h : Effect inv s t call) : Reachable t := by
  have hwf := hs.wellFormed
  have hreg := hs.registry
  cases h with
  | idled _ h => exact ⟨h.wellFormed, h.registry ▸ hreg⟩
  | staked h =>
    have henlisted := Registry.enlist_eq_ok (hreg.stakerIndex_eq_none h.fresh) h.enlisted
    refine ⟨hwf.of_eq h.config henlisted.2.2.2 h.snapshots, ?_⟩
    exact hreg.enlist h.fresh h.mentor_eq (h.amount_eq ▸ h.pos) (h.amount_eq ▸ h.le) h.enlisted
  | unstaked h =>
    refine ⟨hwf.of_eq h.config (hreg.delist_eq_ok h.found h.delisted).2.2.2 h.snapshots, ?_⟩
    exact hreg.delist h.found h.delisted
  | closed _ h =>
    exact ⟨hwf.of_eq h.config (by rw [h.registry]) h.snapshots, h.registry ▸ hreg⟩
  | batched h => exact ⟨hwf.of_eq h.config (by rw [h.registry]) h.snapshots, h.registry ▸ hreg⟩
  | claimed h => exact ⟨hwf.of_eq h.config (by rw [h.registry]) h.snapshots, h.registry ▸ hreg⟩
  | funded h => exact ⟨hwf.of_eq h.config (by rw [h.registry]) h.snapshots, h.registry ▸ hreg⟩
  | lpPaid h => exact ⟨hwf.of_eq h.config (by rw [h.registry]) h.snapshots, h.registry ▸ hreg⟩
  | deposited h =>
    exact ⟨hwf.of_eq h.config (by rw [h.registry]) h.snapshots, h.registry ▸ hreg⟩

omit [DecidableEq Addr] in
theorem deployed_reachable (balance : Addr → Addr → ℕ) : Reachable (deployed balance) where
  wellFormed := ⟨fun h => absurd rfl h, rfl, fun _ _ h => nomatch h⟩
  registry := {
    index := DenseIndex.empty_sound
    listed := fun _ => Iff.rfl
    record := fun _ _ h => nomatch h
    finite := PointSum.finite_const rfl
    total := (PointSum.total_const rfl).symm }

end Runs

end Staking
