import MentorsMind.Soroban.TokenLedger
import MentorsMind.Shared.Rollback
import MentorsMind.Shared.Staking

/-! The storage of the staking contract, grouped by what it is about. Lifetimes of entries
and the records of the monitoring views are left out. -/
namespace Staking
open Soroban Shared

inductive Error where
  | alreadyInitialized
  | notInitialized
  | invalidAmount
  | alreadyStaked
  | noStakeFound
  | stillLocked
  | noPendingAdminChange
  | adminChangeNotYetEffective
  | invalidAdminChange
  | unauthorized
  | callerNotTreasury
  | distributionAlreadyProcessed
  | overflow
  | treasuryNotConfigured
  | stateValidationFailed
  | lockPeriodTooShort
  | noClaimableRewards

def Error.code : Error → ℕ
  | .alreadyInitialized => 1
  | .notInitialized => 2
  | .invalidAmount => 3
  | .alreadyStaked => 4
  | .noStakeFound => 5
  | .stillLocked => 6
  | .noPendingAdminChange => 7
  | .adminChangeNotYetEffective => 8
  | .invalidAdminChange => 9
  | .unauthorized => 10
  | .callerNotTreasury => 11
  | .distributionAlreadyProcessed => 12
  | .overflow => 14
  | .treasuryNotConfigured => 16
  | .stateValidationFailed => 17
  | .lockPeriodTooShort => 19
  | .noClaimableRewards => 21

def Error.trap (e : Error) : Trap := .contractError e.code

def adminChangeTimelock : ℕ := 48 * 60 * 60
def maxStakersPerSnapshot : ℕ := 500
def maxEpochsPerSettle : ℕ := 50
def maxLockupsPerClaim : ℕ := 100

structure PendingAdminChange (Addr : Type) where
  newAdmin : Addr
  effectiveAt : ℕ

structure TierRequirements where
  bronzeStake : ℤ
  silverStake : ℤ
  goldStake : ℤ
  bronzeMinRating : ℕ
  silverMinRating : ℕ
  goldMinRating : ℕ
  bronzeMinSessions : ℕ
  silverMinSessions : ℕ
  goldMinSessions : ℕ

def defaultTierRequirements : TierRequirements where
  bronzeStake := 100
  silverStake := 500
  goldStake := 2000
  bronzeMinRating := 350
  silverMinRating := 400
  goldMinRating := 450
  bronzeMinSessions := 5
  silverMinSessions := 10
  goldMinSessions := 50

/-- What the admin configures. -/
structure Config (Addr : Type) where
  admin : Option Addr
  mntToken : Option Addr
  pauseGuardian : Option Addr
  pendingAdmin : Option (PendingAdminChange Addr)
  anomalyDetector : Option Addr
  bypassAnomalyCheck : Bool
  treasuryContract : Option Addr
  reputationContract : Option Addr
  sessionRegistryContract : Option Addr
  healthDashboard : Option Addr
  tierRequirements : TierRequirements

/-- The stakes, and the index over their owners. Nothing writes the list `stakers`, which
an older version of the contract kept instead of the index. -/
structure Registry (Addr : Type) where
  stake : Addr → Option (StakeRecord Addr)
  stakerAt : ℕ → Option Addr
  stakerCount : ℕ
  stakerIndex : Addr → Option ℕ
  stakers : Option (List Addr)
  totalStaked : ℤ

/-- What is recorded when an epoch closes, and the penalties that the next one redistributes. -/
structure Epochs (Addr : Type) where
  epochId : ℕ
  epochTotalStaked : ℕ → Option ℤ
  epochReward : ℕ → Option ℤ
  epochEligibleTotal : ℕ → Option ℤ
  epochStakerSnapshot : ℕ × Addr → Option ℤ
  penaltyRedistributionPool : ℤ

/-- What the stakers are owed and how far their rewards are settled. -/
structure Rewards (Addr : Type) where
  stakerEpochEntry : Addr → Option ℕ
  stakerNextClaimEpoch : Addr → Option ℕ
  stakerLockupSettledUntil : Addr → Option ℕ
  stakerRewardLockup : Addr × ℕ → Option RewardLockup
  pendingDistributionIndex : ℕ → Option (Addr × ℕ)
  pendingDistributionPosition : Addr × ℕ → Option ℕ
  pendingDistributionCount : ℕ
  pendingRewards : Addr → ℤ

/-- What the suspicious-pattern detector reads. -/
structure History (Addr : Type) where
  stakerActionLog : Addr → List StakingActionRecord
  stakerActionLogIndex : Addr → ℕ
  nextScheduledDistributionAt : Option ℕ

structure LPRecord (Addr : Type) where
  lpTokenContract : Addr
  lpTokenAmount : ℤ
  pair : Addr × Addr
  registeredAt : ℕ
  lastRewardAt : ℕ

structure Liquidity (Addr : Type) where
  liquidityProviderRecord : Addr → Option (LPRecord Addr)
  lpRewardPool : ℤ

structure TreasuryDistributionReceipt (Addr : Type) where
  distributionId : ℕ
  treasury : Addr
  token : Addr
  amount : ℤ
  treasuryTimestamp : ℕ
  receivedAt : ℕ
  processed : Bool

structure Treasury (Addr : Type) where
  processedDistribution : ℕ → Bool
  receipt : ℕ → Option (TreasuryDistributionReceipt Addr)
  distributionCount : ℕ

/-- The snapshots taken for disaster recovery and the proposals to roll back to them. A
`StakeSnapshot` has the fields of the record that it captures. -/
structure Recovery (Addr : Type) where
  stakeSnapshot : ℕ → Option (List (StakeRecord Addr))
  stakeSnapshotMeta : ℕ → Option (SnapshotMeta Addr)
  stakeSnapshotIndex : List ℕ
  nextStakeSnapshotId : ℕ
  stakeEmergencySigners : Option (List Addr)
  stakeRollbackProposal : ℕ → Option (RollbackProposal Addr)
  stakeRollbackApproval : ℕ → Addr → Bool
  stakeRollbackProposalCount : ℕ

structure State (Addr : Type) where
  config : Config Addr
  registry : Registry Addr
  epochs : Epochs Addr
  rewards : Rewards Addr
  history : History Addr
  liquidity : Liquidity Addr
  treasury : Treasury Addr
  recovery : Recovery Addr
  tokens : Tokens Addr

/-- The contract as deployed, beside token ledgers with any balances. -/
def deployed {Addr : Type} (balance : Addr → Addr → ℕ) : State Addr where
  config := ⟨none, none, none, none, none, false, none, none, none, none,
    defaultTierRequirements⟩
  registry := ⟨fun _ => none, fun _ => none, 0, fun _ => none, none, 0⟩
  epochs := ⟨0, fun _ => none, fun _ => none, fun _ => none, fun _ => none, 0⟩
  rewards := ⟨fun _ => none, fun _ => none, fun _ => none, fun _ => none, fun _ => none,
    fun _ => none, 0, fun _ => 0⟩
  history := ⟨fun _ => [], fun _ => 0, none⟩
  liquidity := ⟨fun _ => none, 0⟩
  treasury := ⟨fun _ => false, fun _ => none, 0⟩
  recovery := ⟨fun _ => none, fun _ => none, [], 0, none, fun _ => none, fun _ _ => false, 0⟩
  tokens := ⟨fun token holder => balance token holder, []⟩

/-- One invocation: the ledger, the signers, and what the other contracts answer. A call
to another contract that traps answers `none`, or `false` where only success counts. -/
structure Invocation (Addr : Type) (home : Addr) extends Env Addr home where
  accepts : Transfer Addr → Bool
  isPaused : Addr → Option Bool
  checkAnomaly : Addr → Addr → ℤ → Option ℕ
  mentorRating : Addr → Addr → Option ℕ
  sessionsByMentor : Addr → Addr → Option ℕ
  recordMetric : Addr → ℤ → Bool

end Staking

/-! Configuration of the staking contract, the checks that ask other contracts, and the tier
of a stake. -/
namespace Staking
open Outcome Soroban Shared

variable {Addr : Type} [DecidableEq Addr] {self : Addr}

def initializeStaking (c : Config Addr) (admin mntToken : Addr) (pauseGuardian : Option Addr) :
    Result (Config Addr) := do
  require (c.admin = none) Error.alreadyInitialized.trap
  let guardian := if pauseGuardian.isSome then pauseGuardian else c.pauseGuardian
  pure { c with admin := some admin, mntToken := some mntToken, pauseGuardian := guardian }

def requireAdmin (inv : Invocation Addr self) (c : Config Addr) (admin : Addr) :
    Result Unit := do
  requireAuth inv.toEnv admin
  let stored ← expect c.admin Error.notInitialized.trap
  require (stored = admin) Error.unauthorized.trap

/-- The stored admin signs; `e` is the failure where there is none yet. -/
def requireStoredAdmin (inv : Invocation Addr self) (c : Config Addr) (e : Trap) :
    Result Unit := do
  let admin ← expect c.admin e
  requireAuth inv.toEnv admin

/-- The text of `expect` on a missing admin. -/
def notInitializedPanic : Trap := .panic "Not initialized"

def proposeAdminChange (inv : Invocation Addr self) (c : Config Addr)
    (currentAdmin newAdmin : Addr) : Result (Config Addr) := do
  requireAdmin inv c currentAdmin
  let effectiveAt ← checkedU64 (inv.timestamp + adminChangeTimelock)
    Error.invalidAdminChange.trap
  pure { c with pendingAdmin := some ⟨newAdmin, effectiveAt⟩ }

def acceptAdminChange (inv : Invocation Addr self) (c : Config Addr) (newAdmin : Addr) :
    Result (Config Addr) := do
  requireAuth inv.toEnv newAdmin
  let pending ← expect c.pendingAdmin Error.noPendingAdminChange.trap
  require (pending.newAdmin = newAdmin) Error.unauthorized.trap
  require (pending.effectiveAt ≤ inv.timestamp) Error.adminChangeNotYetEffective.trap
  let _ ← expect c.admin Error.notInitialized.trap
  pure { c with admin := some newAdmin, pendingAdmin := none }

def cancelAdminChange (inv : Invocation Addr self) (c : Config Addr) (multisig : Addr) :
    Result (Config Addr) := do
  requireAuth inv.toEnv multisig
  let _ ← expect c.pendingAdmin Error.noPendingAdminChange.trap
  pure { c with pendingAdmin := none }

def setPauseGuardian (inv : Invocation Addr self) (c : Config Addr) (guardian : Addr) :
    Result (Config Addr) := do
  requireStoredAdmin inv c Error.notInitialized.trap
  pure { c with pauseGuardian := some guardian }

def setAnomalyDetector (inv : Invocation Addr self) (c : Config Addr) (detector : Addr) :
    Result (Config Addr) := do
  requireStoredAdmin inv c notInitializedPanic
  pure { c with anomalyDetector := some detector }

def setBypassAnomalyCheck (inv : Invocation Addr self) (c : Config Addr) (bypass : Bool) :
    Result (Config Addr) := do
  requireStoredAdmin inv c notInitializedPanic
  pure { c with bypassAnomalyCheck := bypass }

def setTreasuryContract (inv : Invocation Addr self) (c : Config Addr) (admin treasury : Addr) :
    Result (Config Addr) := do
  requireAdmin inv c admin
  pure { c with treasuryContract := some treasury }

def setReputationContract (inv : Invocation Addr self) (c : Config Addr) (reputation : Addr) :
    Result (Config Addr) := do
  requireStoredAdmin inv c notInitializedPanic
  pure { c with reputationContract := some reputation }

def setSessionRegistryContract (inv : Invocation Addr self) (c : Config Addr)
    (sessionRegistry : Addr) : Result (Config Addr) := do
  requireStoredAdmin inv c notInitializedPanic
  pure { c with sessionRegistryContract := some sessionRegistry }

def setHealthDashboard (inv : Invocation Addr self) (c : Config Addr) (healthDashboard : Addr) :
    Result (Config Addr) := do
  requireStoredAdmin inv c notInitializedPanic
  pure { c with healthDashboard := some healthDashboard }

def setTierRequirements (inv : Invocation Addr self) (c : Config Addr) (admin : Addr)
    (requirements : TierRequirements) : Result (Config Addr) := do
  let stored ← expect c.admin notInitializedPanic
  requireAuth inv.toEnv admin
  require (stored = admin) (.panic "Unauthorized")
  pure { c with tierRequirements := requirements }

def setNextDistributionAt (inv : Invocation Addr self) (c : Config Addr) (h : History Addr)
    (admin : Addr) (timestamp : ℕ) : Result (History Addr) := do
  requireAdmin inv c admin
  pure { h with nextScheduledDistributionAt := some timestamp }

section Answers

omit [DecidableEq Addr]

def requireGuardianNotPaused (inv : Invocation Addr self) (c : Config Addr) : Result Unit :=
  match c.pauseGuardian with
  | none => pure ()
  | some guardian => do
      let paused ← expect (inv.isPaused guardian) .subcall
      require (paused = false) (.panic "Contract is paused")

/-- Without a guardian nothing is paused. -/
theorem requireGuardianNotPaused_of_none {inv : Invocation Addr self} {c : Config Addr}
    (h : c.pauseGuardian = none) : requireGuardianNotPaused inv c = .ok () := by
  unfold requireGuardianNotPaused
  rw [h]
  rfl

/-- The anomaly check of a stake, with the type `LargeTransfer`. -/
def requireNotOnHold (inv : Invocation Addr self) (c : Config Addr) (mentor : Addr)
    (amount : ℤ) : Result Unit :=
  match c.bypassAnomalyCheck, c.anomalyDetector with
  | false, some detector => do
      let res ← expect (inv.checkAnomaly detector mentor amount) .subcall
      require (res ≠ 2) (.panic "UserOnHold")
  | _, _ => pure ()

/-- `(avg_rating * 100, completed_session_count)`, when both contracts are configured. -/
def mentorQuality (inv : Invocation Addr self) (c : Config Addr) (mentor : Addr) :
    Result (Option (ℕ × ℕ)) :=
  match c.reputationContract, c.sessionRegistryContract with
  | some reputation, some sessionRegistry => do
      let rating ← expect (inv.mentorRating reputation mentor) .subcall
      let sessions ← expect (inv.sessionsByMentor sessionRegistry mentor) .subcall
      pure (some (rating % 2 ^ 32, sessions))
  | _, _ => pure none

def meetsTier (quality : Option (ℕ × ℕ)) (amount minStake : ℤ) (minRating minSessions : ℕ) :
    Bool :=
  if amount < minStake then false
  else match quality with
    | some (rating, sessions) => minRating ≤ rating && minSessions ≤ sessions
    | none => true

def computeTier (inv : Invocation Addr self) (c : Config Addr) (amount : ℤ) (mentor : Addr) :
    Result ℕ := do
  let reqs := c.tierRequirements
  let quality ← mentorQuality inv c mentor
  if meetsTier quality amount reqs.goldStake reqs.goldMinRating reqs.goldMinSessions then
    pure 3
  else if meetsTier quality amount reqs.silverStake reqs.silverMinRating
      reqs.silverMinSessions then
    pure 2
  else if meetsTier quality amount reqs.bronzeStake reqs.bronzeMinRating
      reqs.bronzeMinSessions then
    pure 1
  else pure 0

/-- The metric `total_staked` for the health dashboard. -/
def reportTotalStaked (inv : Invocation Addr self) (c : Config Addr) (totalStaked : ℤ) :
    Result Unit :=
  match c.healthDashboard with
  | none => pure ()
  | some dashboard => require (inv.recordMetric dashboard totalStaked = true) .subcall

end Answers

end Staking
