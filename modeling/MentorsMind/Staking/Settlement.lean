import MentorsMind.Staking.State

/-! How an epoch closes, how a staker's closed epochs turn into locked rewards, and the index
over the rewards that are not claimed yet. -/
namespace Staking
open Outcome Soroban Shared

variable {Addr : Type}

/-- The staker at a position of the index, when it has a stake. -/
def Registry.occupant (r : Registry Addr) (i : ℕ) : Option (Addr × StakeRecord Addr) :=
  match r.stakerAt i with
  | none => none
  | some staker => (r.stake staker).map fun record => (staker, record)

/-- Whether a stake counts for an epoch that closes at time `now`. -/
def isEligible (now : ℕ) (record : StakeRecord Addr) : Bool :=
  minStakingDurationSecs ≤ now - record.stakedAt

variable [DecidableEq Addr]

/-- The snapshots written for the epoch that closes, and the eligible total so far. -/
structure Snapshotting (Addr : Type) where
  epochStakerSnapshot : ℕ × Addr → Option ℤ
  eligibleTotal : ℤ

/-- The loop of `internal_distribute_revenue` over the first positions of the index. -/
def snapshotStakers (r : Registry Addr) (now epoch : ℕ) :
    ℕ → Snapshotting Addr → Result (Snapshotting Addr)
  | 0, acc => pure acc
  | i + 1, acc => do
      let acc ← snapshotStakers r now epoch i acc
      match r.occupant i with
      | none => pure acc
      | some (staker, record) =>
          let snapshot := Function.update acc.epochStakerSnapshot (epoch, staker)
            (some record.amount)
          if isEligible now record then do
            let total ← checkedI128 (acc.eligibleTotal + record.amount) (.panic "Overflow")
            pure ⟨snapshot, total⟩
          else pure ⟨snapshot, acc.eligibleTotal⟩

def internalDistributeRevenue (now : ℕ) (r : Registry Addr) (ep : Epochs Addr) (amount : ℤ) :
    Result (Epochs Addr) := do
  let currentEpoch := ep.epochId
  require (r.stakerCount ≤ maxStakersPerSnapshot) (.panic
    "too many stakers for an atomic epoch snapshot; use distribute_revenue_batch")
  let taken ← snapshotStakers r now currentEpoch r.stakerCount ⟨ep.epochStakerSnapshot, 0⟩
  let combinedReward ← checkedI128 (amount + ep.penaltyRedistributionPool) (.panic "Overflow")
  let nextEpoch ← safeAddU64 currentEpoch 1
  pure {
    epochId := nextEpoch
    epochTotalStaked := Function.update ep.epochTotalStaked currentEpoch (some r.totalStaked)
    epochReward := Function.update ep.epochReward currentEpoch (some combinedReward)
    epochEligibleTotal := Function.update ep.epochEligibleTotal currentEpoch
      (some taken.eligibleTotal)
    epochStakerSnapshot := taken.epochStakerSnapshot
    penaltyRedistributionPool :=
      if 0 < ep.penaltyRedistributionPool then 0 else ep.penaltyRedistributionPool }

def addPendingDistribution (r : Rewards Addr) (staker : Addr) (epoch : ℕ) :
    Result (Rewards Addr) := do
  let count := r.pendingDistributionCount
  let next ← checkedU32 (count + 1) (.panic "Overflow")
  pure { r with
    pendingDistributionIndex := Function.update r.pendingDistributionIndex count
      (some (staker, epoch))
    pendingDistributionPosition := Function.update r.pendingDistributionPosition
      (staker, epoch) (some count)
    pendingDistributionCount := next }

/-- The last entry moves to the position that becomes free. -/
def removePendingDistribution (r : Rewards Addr) (staker : Addr) (epoch : ℕ) : Rewards Addr :=
  match r.pendingDistributionPosition (staker, epoch) with
  | none => r
  | some position =>
      let count := r.pendingDistributionCount
      if count = 0 ∨ count ≤ position then r
      else
        let lastPosition := count - 1
        let moved :=
          if position = lastPosition then r
          else match r.pendingDistributionIndex lastPosition with
            | none => r
            | some last => { r with
                pendingDistributionIndex := Function.update r.pendingDistributionIndex position
                  (some last)
                pendingDistributionPosition := Function.update r.pendingDistributionPosition
                  last (some position) }
        { moved with
          pendingDistributionIndex := Function.update moved.pendingDistributionIndex
            lastPosition none
          pendingDistributionPosition := Function.update moved.pendingDistributionPosition
            (staker, epoch) none
          pendingDistributionCount := lastPosition }

/-- The multiplier of a reward that is settled at time `now`. -/
def settlementMultiplier (now : ℕ) (record : Option (StakeRecord Addr)) : ℕ :=
  match record with
  | some record => computeRewardMultiplierBps (now - record.stakedAt)
  | none => rewardMultiplierMinBps

/-- One round of the loop of `settle_epoch_rewards`. -/
def settleEpoch (now : ℕ) (ep : Epochs Addr) (record : Option (StakeRecord Addr))
    (staker : Addr) (epoch : ℕ) (r : Rewards Addr) : Result (Rewards Addr) :=
  match ep.epochStakerSnapshot (epoch, staker), ep.epochEligibleTotal epoch,
    ep.epochReward epoch with
  | some numerator, some denominator, some rew =>
      if 0 < denominator ∧ 0 < numerator ∧ 0 < rew then do
        let multBps := settlementMultiplier now record
        let product ← u128 (numerator.toNat * rew.toNat)
        let baseShare := asI128 (product / denominator.toNat)
        if 0 < baseShare ∧ 0 < multBps then do
          let lockup : RewardLockup := {
            epochId := epoch
            baseAmount := baseShare
            scaledAmount := applyBpsMultiplier baseShare multBps
            multiplierBps := multBps
            unlocksAt := saturatingAddU64 now rewardLockupSecs
            claimed := false }
          let indexed ← if (r.stakerRewardLockup (staker, epoch)).isSome then pure r
            else addPendingDistribution r staker epoch
          pure { indexed with
            stakerRewardLockup := Function.update indexed.stakerRewardLockup (staker, epoch)
              (some lockup) }
        else pure r
      else pure r
  | _, _, _ => pure r

/-- The rounds of the loop for the first `n` epochs from `start` on. -/
def settleEpochs (now : ℕ) (ep : Epochs Addr) (record : Option (StakeRecord Addr))
    (staker : Addr) (start : ℕ) : ℕ → Rewards Addr → Result (Rewards Addr)
  | 0, r => pure r
  | n + 1, r => do
      let r ← settleEpochs now ep record staker start n r
      settleEpoch now ep record staker (start + n) r

namespace Rewards

def entryEpoch (r : Rewards Addr) (ep : Epochs Addr) (staker : Addr) : ℕ :=
  (r.stakerEpochEntry staker).getD ep.epochId

def nextClaim (r : Rewards Addr) (ep : Epochs Addr) (staker : Addr) : ℕ :=
  max ((r.stakerNextClaimEpoch staker).getD (r.entryEpoch ep staker)) (r.entryEpoch ep staker)

def settledUntil (r : Rewards Addr) (ep : Epochs Addr) (staker : Addr) : ℕ :=
  max ((r.stakerLockupSettledUntil staker).getD (r.entryEpoch ep staker))
    (r.entryEpoch ep staker)

/-- The first epoch that the next settlement of `staker` looks at. -/
def settleStart (r : Rewards Addr) (ep : Epochs Addr) (staker : Addr) : ℕ :=
  max (r.nextClaim ep staker) (r.settledUntil ep staker)

/-- The first epoch that it leaves for later. -/
def settleEnd (r : Rewards Addr) (ep : Epochs Addr) (staker : Addr) : ℕ :=
  min ep.epochId (saturatingAddU64 (r.settleStart ep staker) maxEpochsPerSettle)

end Rewards

def settleEpochRewards (now : ℕ) (reg : Registry Addr) (ep : Epochs Addr) (r : Rewards Addr)
    (staker : Addr) : Result (Rewards Addr) := do
  let nextClaim := r.nextClaim ep staker
  let settledUntil := r.settledUntil ep staker
  let start := r.settleStart ep staker
  let stop := r.settleEnd ep staker
  let settled ← settleEpochs now ep (reg.stake staker) staker start (stop - start) r
  let epoch := max start stop
  pure { settled with
    stakerLockupSettledUntil :=
      if settledUntil < epoch then
        Function.update settled.stakerLockupSettledUntil staker (some epoch)
      else settled.stakerLockupSettledUntil
    stakerNextClaimEpoch :=
      if nextClaim < epoch then
        Function.update settled.stakerNextClaimEpoch staker (some epoch)
      else settled.stakerNextClaimEpoch }

end Staking
