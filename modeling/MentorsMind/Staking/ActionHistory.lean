import MentorsMind.Lib.RingBuffer
import MentorsMind.Shared.ActionPattern
import MentorsMind.Staking.SingleReward

/-! The log of a staker's actions is a ring that the detector of suspicious patterns reads in
the order of its slots: after the first ten actions that is no longer the order of time. -/
namespace Staking
open Outcome Soroban Shared

variable {Addr : Type} [DecidableEq Addr] {home : Addr}

/-- The stored log of a staker. -/
def History.actionLog (h : History Addr) (staker : Addr) : RingBuffer StakingActionRecord :=
  ⟨h.stakerActionLog staker, h.stakerActionLogIndex staker⟩

/-- What a call of `staker` adds to its actions. -/
def stakerAction (staker : Addr) (s : State Addr) (step : Step Addr home) (_ : State Addr) :
    Option StakingActionRecord :=
  match step.2 with
  | .stake mentor amount _ =>
      if mentor = staker then some ⟨.stake, step.1.timestamp, amount, s.epochs.epochId⟩ else none
  | .unstake mentor =>
      if mentor = staker then (s.registry.stake mentor).map fun record =>
        ⟨.unstake, step.1.timestamp, record.amount, s.epochs.epochId⟩
      else none
  | .claimRewards claimer _ =>
      if claimer = staker then
        some ⟨.claim, step.1.timestamp, claimAmount step.1.timestamp s staker, s.epochs.epochId⟩
      else none
  | _ => none

section Steps

variable {inv : Invocation Addr home} {s t : State Addr} {staker : Addr}

theorem appendStakerAction_actionLog (h : History Addr) (mentor staker : Addr)
    (record : StakingActionRecord) :
    (appendStakerAction h mentor record).actionLog staker =
      if mentor = staker then (h.actionLog staker).push patternDetectionWindow record
      else h.actionLog staker := by
  split_ifs with heq
  · subst heq
    simp only [appendStakerAction, History.actionLog, RingBuffer.push, Function.update_self]
    rfl
  · have hne : staker ≠ mentor := fun hsame => heq hsame.symm
    simp [appendStakerAction, History.actionLog, Function.update_of_ne hne]

/-- The log grows by the action of the call. -/
theorem exec_actionLog {checksum : ℕ → ℤ → Hash} {call : Call Addr}
    (h : exec checksum inv call s = .ok t) (staker : Addr) :
    t.history.actionLog staker =
      (stakerAction staker s (inv, call) t).elim (s.history.actionLog staker)
        ((s.history.actionLog staker).push patternDetectionWindow) := by
  cases call with
  | stake mentor amount days =>
    simp only [exec, stake, bind_eq_ok, pure_eq_ok] at h
    obtain ⟨-, -, -, -, -, -, -, -, -, -, -, -, -, -, mnt, -, tokens, -, lockSeconds, -, unlockAt,
      -, tier, -, registry, -, entry, -, recovery, -, -, -, rfl⟩ := h
    simp only [appendStakerAction_actionLog, stakerAction]
    split_ifs
    · rfl
    · rfl
  | unstake mentor =>
    simp only [exec, unstake, bind_eq_ok, expect_eq_ok, pure_eq_ok] at h
    obtain ⟨-, -, record, hfound, -, -, penalty, -, tier, -, settled, -, mnt, -, epochs, -, tokens,
      -, registry, -, recovery, -, -, -, rfl⟩ := h
    simp only [appendStakerAction_actionLog, stakerAction, hfound]
    split_ifs
    · rfl
    · rfl
  | claimRewards claimer token =>
    simp only [exec, claimRewards, bind_eq_ok, pure_eq_ok] at h
    obtain ⟨-, -, -, -, -, -, settled, hsettled, scan, hscan, claim, hclaim, -, -, tokens, -,
      recovery, -, rfl⟩ := h
    have htotal := (claimTotal_isOk_iff hsettled).2 scan claim hscan hclaim
    simp only [appendStakerAction_actionLog, stakerAction, htotal]
    split_ifs with heq
    · rw [heq]
      rfl
    · rfl
  | setNextDistributionAt admin timestamp =>
    simp only [exec, setNextDistributionAt, bind_eq_ok, pure_eq_ok] at h
    obtain ⟨history, ⟨-, -, rfl⟩, rfl⟩ := h
    rfl
  | receiveTreasuryDistribution id treasury token amount time =>
    simp only [exec, receiveTreasuryDistribution, State.closeEpoch, bind_eq_ok, pure_eq_ok] at h
    obtain ⟨-, -, -, -, -, -, -, -, -, -, closed, ⟨epochs, -, rfl⟩, -, -, rfl⟩ := h
    rfl
  | distributeRevenue token amount =>
    simp only [exec, distributeRevenue, State.closeEpoch, bind_eq_ok, pure_eq_ok] at h
    obtain ⟨-, -, -, -, epochs, -, rfl⟩ := h
    rfl
  | distributeRevenueBatch token amount offset limit =>
    simp only [exec, distributeRevenueBatch, bind_eq_ok] at h
    obtain ⟨-, -, -, -, h⟩ := h
    split_ifs at h
    · obtain rfl := pure_eq_ok.mp h
      rfl
    · simp only [bind_eq_ok, pure_eq_ok] at h
      obtain ⟨updates, -, pending, -, rfl⟩ := h
      rfl
  | claimLpRewards lpHolder token =>
    have hhistory : t.history = s.history := by
      simp only [exec, claimLpRewards, bind_eq_ok] at h
      obtain ⟨-, -, record, -, -, -, h⟩ := h
      split_ifs at h
      · rw [pure_eq_ok.mp h]
      · simp only [bind_eq_ok] at h
        obtain ⟨product, -, reward, -, h⟩ := h
        split_ifs at h
        · simp only [bind_eq_ok, pure_eq_ok] at h
          obtain ⟨pool, -, tokens, -, rfl⟩ := h
          rfl
        · rw [← pure_eq_ok.mp h]
    rw [hhistory]
    rfl
  | config | recovery | migrateStakers | rollbackToSnapshot | registerLpPosition | deposit
  | tokenActivity =>
    simp only [exec, registerLpPosition, bind_eq_ok, pure_eq_ok] at h
    grind [stakerAction, Option.elim]
  | addToLpRewardPool amount =>
    simp only [exec, addToLpRewardPool, bind_eq_ok, pure_eq_ok] at h
    obtain ⟨-, -, pool, -, -, -, rfl⟩ := h
    rfl

end Steps

section Runs

variable {checksum : ℕ → ℤ → Hash} {balance : Addr → Addr → ℕ} {steps : List (Step Addr home)}

/-- The log of a staker holds its last ten actions. -/
theorem run_actionLog_holds (checksum : ℕ → ℤ → Hash) (balance : Addr → Addr → ℕ)
    (steps : List (Step Addr home)) (staker : Addr) :
    RingBuffer.Holds patternDetectionWindow
      (((machine home checksum).run (deployed balance) steps).history.actionLog staker)
      ((machine home checksum).collect (stakerAction staker) (deployed balance) steps) := by
  refine Machine.run_history (M := machine home checksum) (s := deployed balance)
    (P := fun steps s => RingBuffer.Holds patternDetectionWindow (s.history.actionLog staker)
      ((machine home checksum).collect (stakerAction staker) (deployed balance) steps))
    (RingBuffer.holds_empty _) ?_ ?_ steps
  · intro pre step t hpre hx
    rw [Machine.collect_snoc_ok hx, exec_actionLog hx staker]
    cases stakerAction staker ((machine home checksum).run (deployed balance) pre) step t with
    | none =>
      rw [Option.toList_none, List.append_nil]
      exact hpre
    | some record => exact hpre.push (by decide) record
  · intro pre step error hpre herror
    rw [Machine.collect_snoc_error herror]
    exact hpre

/-- The flag that the stored log gives is the flag of the last ten actions in their order,
exactly if a short cycle straddles both seams of the ring or neither, or if one more short cycle
makes no difference. -/
theorem patternFlag_eq_iff (checksum : ℕ → ℤ → Hash) (balance : Addr → Addr → ℕ)
    (steps : List (Step Addr home)) (staker : Addr) (currentStake totalStaked : ℤ)
    (nextDistributionAt : Option ℕ) (now : ℕ) :
    let log := ((machine home checksum).run (deployed balance) steps).history.actionLog staker
    let actions := (machine home checksum).collect (stakerAction staker) (deployed balance) steps
    detectSuspiciousPattern log.slots currentStake totalStaked nextDistributionAt now =
        detectSuspiciousPattern (actions.rtake patternDetectionWindow) currentStake totalStaked
          nextDistributionAt now ↔
      (Straddles log.older log.newer ↔ Straddles log.newer log.older) ∨
        2 ≤ shortCyclesIn log.older + shortCyclesIn log.newer ∨
        (shortCyclesIn log.older + shortCyclesIn log.newer = 0 ∧
          LateStake currentStake totalStaked nextDistributionAt now) := by
  intro log actions
  have hholds := run_actionLog_holds checksum balance steps staker
  rw [← RingBuffer.newer_append_older log, ← hholds.contents]
  exact detectSuspiciousPattern_swap_iff log.older log.newer

end Runs

/-- A stake of 3 that is withdrawn after the minimum of fourteen days. -/
def stakeCycle (start : ℕ) : List (Step ℕ 0) :=
  [(grantedByAll start, .stake 3 1000 14),
    (grantedByAll (start + 14 * day), .unstake 3)]

/-- Five such cycles, and a sixth stake. -/
def sixStakesRun : List (Step ℕ 0) :=
  [(grantedByAll 0, .config (.initializeStaking 1 9 none))] ++
    (List.range 5).flatMap (fun k => stakeCycle (k * 20 * day)) ++
    [(grantedByAll (100 * day), .stake 3 1000 14)]

/-- The log reads as if the sixth stake had been withdrawn by the first withdrawal. -/
theorem sixStakesRun_flagged :
    let s := (machine 0 noDigest).run (deployed stakerFunds) sixStakesRun
    let actions := (machine 0 noDigest).collect (stakerAction 3) (deployed stakerFunds) sixStakesRun
    detectSuspiciousPattern (s.history.actionLog 3).slots 1000 s.registry.totalStaked
          s.history.nextScheduledDistributionAt (100 * day) = .ok .shortCycle ∧
      detectSuspiciousPattern (actions.rtake patternDetectionWindow) 1000 s.registry.totalStaked
          s.history.nextScheduledDistributionAt (100 * day) = .ok .none := by
  decide +kernel

end Staking
