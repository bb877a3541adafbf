import MentorsMind.Staking.State
import MentorsMind.Staking.Settlement
import MentorsMind.Shared.Pagination

/-! Staking and unstaking, and the records both leave for the pattern detector and for
disaster recovery. -/
namespace Staking
open Outcome Soroban Shared

variable {Addr : Type} [DecidableEq Addr] {self : Addr}

omit [DecidableEq Addr] in
def recordStakeSnapshotIndex (r : Recovery Addr) : Result (Recovery Addr) := do
  let next ← checkedU32 (r.nextStakeSnapshotId + 1) (.panic "snapshot index overflow")
  pure { r with
    stakeSnapshotIndex := (pushSnapshotIndex r.stakeSnapshotIndex next).1
    nextStakeSnapshotId := next }

/-- The log is a ring of `patternDetectionWindow` slots. -/
def appendStakerAction (h : History Addr) (staker : Addr) (record : StakingActionRecord) :
    History Addr :=
  let log := h.stakerActionLog staker
  let nextIdx := h.stakerActionLogIndex staker
  let log' := if log.length < patternDetectionWindow then log ++ [record]
    else log.set nextIdx record
  { h with
    stakerActionLog := Function.update h.stakerActionLog staker log'
    stakerActionLogIndex := Function.update h.stakerActionLogIndex staker
      ((nextIdx + 1) % patternDetectionWindow) }

/-- The registry with one more stake. -/
def Registry.enlist (r : Registry Addr) (mentor : Addr) (record : StakeRecord Addr) :
    Result (Registry Addr) := do
  let listed ← match r.stakerIndex mentor with
    | some _ => pure r
    | none => do
        let count ← u32 (r.stakerCount + 1)
        pure { r with
          stakerAt := Function.update r.stakerAt r.stakerCount (some mentor)
          stakerIndex := Function.update r.stakerIndex mentor (some r.stakerCount)
          stakerCount := count }
  let total ← checkedI128 (r.totalStaked + record.amount) (.panic "Overflow")
  pure { listed with
    stake := Function.update r.stake mentor (some record)
    totalStaked := total }

def stake (inv : Invocation Addr self) (s : State Addr) (mentor : Addr) (amount : ℤ)
    (lockPeriodDays : ℕ) : Result (State Addr) := do
  requireGuardianNotPaused inv s.config
  require (s.config.admin ≠ none) Error.notInitialized.trap
  require (0 < amount ∧ amount ≤ maxFinancialAmount) Error.invalidAmount.trap
  require (minStakingDurationSecs / 86400 ≤ lockPeriodDays) Error.lockPeriodTooShort.trap
  requireNotOnHold inv s.config mentor amount
  require ((s.registry.stake mentor).isNone) Error.alreadyStaked.trap
  requireAuth inv.toEnv mentor
  let mntToken ← expect s.config.mntToken Error.notInitialized.trap
  let tokens ← s.tokens.transfer inv.accepts mntToken mentor self amount
  let lockSeconds ← safeMulU64 lockPeriodDays 86400
  let unlockAt ← safeAddU64 inv.timestamp lockSeconds
  let tier ← computeTier inv s.config amount mentor
  let registry ← s.registry.enlist mentor
    ⟨mentor, amount, inv.timestamp, unlockAt, none, tier⟩
  let entryEpoch ← safeAddU64 s.epochs.epochId 1
  let recovery ← recordStakeSnapshotIndex s.recovery
  reportTotalStaked inv s.config registry.totalStaked
  pure { s with
    registry := registry
    rewards := { s.rewards with
      stakerEpochEntry := Function.update s.rewards.stakerEpochEntry mentor (some entryEpoch)
      stakerNextClaimEpoch :=
        Function.update s.rewards.stakerNextClaimEpoch mentor (some entryEpoch) }
    history := appendStakerAction s.history mentor
      ⟨.stake, inv.timestamp, amount, s.epochs.epochId⟩
    recovery := recovery
    tokens := tokens }

/-- The index without `mentor`; the last entry moves to the position that becomes free. -/
def Registry.unlist (r : Registry Addr) (mentor : Addr) : Result (Registry Addr) :=
  match r.stakerIndex mentor with
  | none => pure r
  | some index => do
      require (0 < r.stakerCount) .arithmetic
      let lastIndex := r.stakerCount - 1
      let moved ← if index = lastIndex then pure r
        else do
          let lastMentor ← expect (r.stakerAt lastIndex)
            (.panic "called Option::unwrap() on a None value")
          pure { r with
            stakerAt := Function.update r.stakerAt index (some lastMentor)
            stakerIndex := Function.update r.stakerIndex lastMentor (some index) }
      pure { moved with
        stakerAt := Function.update moved.stakerAt lastIndex none
        stakerIndex := Function.update moved.stakerIndex mentor none
        stakerCount := lastIndex }

/-- The registry without the stake of `mentor`. -/
def Registry.delist (r : Registry Addr) (mentor : Addr) (amount : ℤ) :
    Result (Registry Addr) := do
  let unlisted ← { r with stake := Function.update r.stake mentor none }.unlist mentor
  let total ← safeSub r.totalStaked amount
  pure { unlisted with totalStaked := total }

/-- A transfer that the contract makes only for a positive amount. -/
def payIfPositive (inv : Invocation Addr self) (tokens : Tokens Addr) (token recipient : Addr)
    (amount : ℤ) : Result (Tokens Addr) :=
  if 0 < amount then tokens.transfer inv.accepts token self recipient amount else pure tokens

def Epochs.collectPenalty (ep : Epochs Addr) (penalty : ℤ) : Result (Epochs Addr) :=
  if 0 < penalty then do
    let pool ← checkedI128 (ep.penaltyRedistributionPool + penalty) (.panic "Overflow")
    pure { ep with penaltyRedistributionPool := pool }
  else pure ep

def unstake (inv : Invocation Addr self) (s : State Addr) (mentor : Addr) :
    Result (State Addr) := do
  require (s.config.admin ≠ none) Error.notInitialized.trap
  let record ← expect (s.registry.stake mentor) Error.noStakeFound.trap
  requireAuth inv.toEnv mentor
  let penalty ← computeEarlyUnstakePenalty record.stakedAt inv.timestamp record.unlockAt
    record.amount
  let _ ← computeTier inv s.config record.amount mentor
  let rewards ← settleEpochRewards inv.timestamp s.registry s.epochs s.rewards mentor
  let mntToken ← expect s.config.mntToken Error.notInitialized.trap
  let epochs ← s.epochs.collectPenalty penalty.penaltyAmount
  let tokens ← payIfPositive inv s.tokens mntToken mentor penalty.returnedAmount
  let registry ← s.registry.delist mentor record.amount
  let recovery ← recordStakeSnapshotIndex s.recovery
  reportTotalStaked inv s.config registry.totalStaked
  pure { s with
    registry := registry
    epochs := epochs
    rewards := { rewards with
      stakerEpochEntry := Function.update rewards.stakerEpochEntry mentor none
      stakerNextClaimEpoch := Function.update rewards.stakerNextClaimEpoch mentor none }
    history := appendStakerAction s.history mentor
      ⟨.unstake, inv.timestamp, record.amount, s.epochs.epochId⟩
    recovery := recovery
    tokens := tokens }

/-- The loop of `migrate_stakers` over the old list. -/
def migrateList : List Addr → Registry Addr → Result (Registry Addr)
  | [], r => pure r
  | staker :: rest, r => do
      let next ← if (r.stakerIndex staker).isSome then pure r
        else do
          let count ← u32 (r.stakerCount + 1)
          pure { r with
            stakerAt := Function.update r.stakerAt r.stakerCount (some staker)
            stakerIndex := Function.update r.stakerIndex staker (some r.stakerCount)
            stakerCount := count }
      migrateList rest next

def migrateStakers (c : Config Addr) (r : Registry Addr) : Result (Registry Addr) := do
  require (c.admin ≠ none) notInitializedPanic
  match r.stakers with
  | none => pure r
  | some list => do
      let migrated ← migrateList list r
      pure { migrated with stakers := none }

end Staking

/-! The ways in which revenue reaches the stakers and liquidity providers. None of them
moves a token: the amount is expected to be in the contract already. -/
namespace Staking
open Outcome Soroban Shared

variable {Addr : Type} [DecidableEq Addr] {self : Addr}

/-- The state after an epoch was closed with `amount` of revenue. -/
def State.closeEpoch (s : State Addr) (now : ℕ) (amount : ℤ) : Result (State Addr) := do
  let epochs ← internalDistributeRevenue now s.registry s.epochs amount
  pure { s with
    epochs := epochs
    history := { s.history with nextScheduledDistributionAt := none } }

def distributeRevenue (inv : Invocation Addr self) (s : State Addr) (amount : ℤ) :
    Result (State Addr) := do
  requireNonNegative amount
  requireMax amount maxFinancialAmount
  s.closeEpoch inv.timestamp amount

/-- `checked_add(1).unwrap_or(count)` on a `u64`. -/
def nextDistributionCount (count : ℕ) : ℕ := if count + 1 < 2 ^ 64 then count + 1 else count

def receiveTreasuryDistribution (inv : Invocation Addr self) (s : State Addr)
    (distributionId : ℕ) (treasury token : Addr) (stakerAmount : ℤ) (treasuryTimestamp : ℕ) :
    Result (State Addr) := do
  requireAuth inv.toEnv treasury
  let authorized ← expect s.config.treasuryContract Error.treasuryNotConfigured.trap
  require (treasury = authorized) Error.callerNotTreasury.trap
  require (s.treasury.processedDistribution distributionId = false)
    Error.distributionAlreadyProcessed.trap
  require (0 ≤ stakerAmount ∧ stakerAmount ≤ maxFinancialAmount) Error.invalidAmount.trap
  let balanceBefore := s.tokens.balance token self
  let closed ← s.closeEpoch inv.timestamp stakerAmount
  let balanceAfter := closed.tokens.balance token self
  require (balanceBefore ≤ balanceAfter) Error.stateValidationFailed.trap
  pure { closed with
    treasury := {
      processedDistribution :=
        Function.update s.treasury.processedDistribution distributionId true
      receipt := Function.update s.treasury.receipt distributionId
        (some ⟨distributionId, treasury, token, stakerAmount, treasuryTimestamp, inv.timestamp,
          true⟩)
      distributionCount := nextDistributionCount s.treasury.distributionCount } }

/-- The first pass of `distribute_revenue_batch` over `n` positions from `start` on. -/
def batchShares (r : Registry Addr) (amount : ℤ) (start : ℕ) : ℕ → Result (List (Addr × ℤ))
  | 0 => pure []
  | n + 1 => do
      let updates ← batchShares r amount start n
      match r.occupant (start + n) with
      | none => pure updates
      | some (staker, record) => do
          let product ← safeMul record.amount amount
          let share ← safeDiv product r.totalStaked
          pure (if 0 < share then updates ++ [(staker, share)] else updates)

/-- The second pass. -/
def creditShares : List (Addr × ℤ) → (Addr → ℤ) → Result (Addr → ℤ)
  | [], pending => pure pending
  | (staker, share) :: rest, pending => do
      let credited ← safeAdd (pending staker) share
      creditShares rest (Function.update pending staker credited)

def distributeRevenueBatch (s : State Addr) (amount : ℤ) (offset limit : ℕ) :
    Result (State Addr) := do
  requireNonNegative amount
  requireMax amount maxFinancialAmount
  if s.registry.totalStaked = 0 then pure s
  else do
    let bounds := Pagination.bounds s.registry.stakerCount offset limit
    let updates ← batchShares s.registry amount bounds.1 (bounds.2 - bounds.1)
    let pending ← creditShares updates s.rewards.pendingRewards
    pure { s with rewards := { s.rewards with pendingRewards := pending } }

def addToLpRewardPool (s : State Addr) (amount : ℤ) : Result (State Addr) := do
  require (0 < amount ∧ amount ≤ maxFinancialAmount) Error.invalidAmount.trap
  let pool ← checkedI128 (s.liquidity.lpRewardPool + amount) Error.overflow.trap
  let _ ← expect s.config.mntToken notInitializedPanic
  pure { s with liquidity := { s.liquidity with lpRewardPool := pool } }

end Staking

/-! Claiming settled rewards, and the rewards of liquidity providers. Both pay in a token
that the caller names. -/
namespace Staking
open Outcome Soroban Shared

variable {Addr : Type} [DecidableEq Addr] {self : Addr}

/-- What the scan of `claim_rewards` has seen so far. -/
structure ClaimScan (Addr : Type) where
  rewards : Rewards Addr
  totalClaimable : ℤ
  checked : ℕ

/-- One round of the scan. Once the limit is reached the remaining rounds do nothing. -/
def claimEpoch (now : ℕ) (staker : Addr) (epoch : ℕ) (scan : ClaimScan Addr) :
    Result (ClaimScan Addr) :=
  if maxLockupsPerClaim ≤ scan.checked then pure scan
  else match scan.rewards.stakerRewardLockup (staker, epoch) with
    | none => pure scan
    | some lockup =>
        if lockup.claimed = false ∧ lockup.unlocksAt ≤ now ∧ 0 < lockup.scaledAmount then do
          let total ← checkedI128 (scan.totalClaimable + lockup.scaledAmount)
            (.panic "Overflow")
          let marked := { scan.rewards with
            stakerRewardLockup := Function.update scan.rewards.stakerRewardLockup
              (staker, epoch) (some { lockup with claimed := true }) }
          pure ⟨removePendingDistribution marked staker epoch, total, scan.checked + 1⟩
        else pure { scan with checked := scan.checked + 1 }

/-- The scan of the first `n` epochs. -/
def claimEpochs (now : ℕ) (staker : Addr) : ℕ → ClaimScan Addr → Result (ClaimScan Addr)
  | 0, scan => pure scan
  | epoch + 1, scan => do
      let scan ← claimEpochs now staker epoch scan
      claimEpoch now staker epoch scan

/-- What the legacy batch path left for the staker, which a claim takes along. -/
def claimLegacy (scan : ClaimScan Addr) (staker : Addr) : Result (ClaimScan Addr) :=
  let legacyPending := scan.rewards.pendingRewards staker
  if 0 < legacyPending then do
    let total ← checkedI128 (scan.totalClaimable + legacyPending) (.panic "Overflow")
    pure { scan with
      rewards := { scan.rewards with
        pendingRewards := Function.update scan.rewards.pendingRewards staker 0 }
      totalClaimable := total }
  else pure scan

def claimRewards (inv : Invocation Addr self) (s : State Addr) (staker token : Addr) :
    Result (State Addr) := do
  requireGuardianNotPaused inv s.config
  require (s.config.admin ≠ none) Error.notInitialized.trap
  requireAuth inv.toEnv staker
  let settled ← settleEpochRewards inv.timestamp s.registry s.epochs s.rewards staker
  let scanned ← claimEpochs inv.timestamp staker s.epochs.epochId ⟨settled, 0, 0⟩
  let claim ← claimLegacy scanned staker
  require (claim.totalClaimable ≠ 0) Error.noClaimableRewards.trap
  let tokens ← s.tokens.transfer inv.accepts token self staker claim.totalClaimable
  let recovery ← recordStakeSnapshotIndex s.recovery
  pure { s with
    rewards := claim.rewards
    history := appendStakerAction s.history staker
      ⟨.claim, inv.timestamp, claim.totalClaimable, s.epochs.epochId⟩
    recovery := recovery
    tokens := tokens }

def registerLpPosition (inv : Invocation Addr self) (s : State Addr)
    (lpHolder lpTokenContract : Addr) (lpAmount : ℤ) (tokenA tokenB : Addr) :
    Result (State Addr) := do
  requireAuth inv.toEnv lpHolder
  require (0 < lpAmount) Error.invalidAmount.trap
  let record : LPRecord Addr :=
    ⟨lpTokenContract, lpAmount, (tokenA, tokenB), inv.timestamp, inv.timestamp⟩
  pure { s with liquidity := { s.liquidity with
    liquidityProviderRecord :=
      Function.update s.liquidity.liquidityProviderRecord lpHolder (some record) } }

omit [DecidableEq Addr] in
/-- The recorded position, when the holder still has the tokens. -/
def verifiedLpPosition (s : State Addr) (lpHolder : Addr) : Option (LPRecord Addr) :=
  (s.liquidity.liquidityProviderRecord lpHolder).filter fun r =>
    r.lpTokenAmount ≤ s.tokens.balance r.lpTokenContract lpHolder

def claimLpRewards (inv : Invocation Addr self) (s : State Addr) (lpHolder mntToken : Addr) :
    Result (State Addr) := do
  requireAuth inv.toEnv lpHolder
  let record ← expect (verifiedLpPosition s lpHolder) Error.invalidAmount.trap
  require (record.lastRewardAt ≤ inv.timestamp) SharedError.underflow.trap
  let timeStaked := inv.timestamp - record.lastRewardAt
  if timeStaked = 0 then pure s
  else do
    let product ← safeMul record.lpTokenAmount timeStaked
    let reward ← safeDiv product (1000 * 86400)
    let updated := Function.update s.liquidity.liquidityProviderRecord lpHolder
      (some { record with lastRewardAt := inv.timestamp })
    if 0 < reward then do
      let actualReward := min reward s.liquidity.lpRewardPool
      let pool ← safeSub s.liquidity.lpRewardPool actualReward
      let tokens ← s.tokens.transfer inv.accepts mntToken self lpHolder actualReward
      pure { s with liquidity := ⟨updated, pool⟩, tokens := tokens }
    else pure { s with liquidity := { s.liquidity with liquidityProviderRecord := updated } }

end Staking
