import MentorsMind.Escrow.Verification
import MentorsMind.Staking.State
import MentorsMind.Staking.Stakes

/-! Snapshots of the stakes, the comparison with one of them after an upgrade, and the
rollback to it. The exchange of the contract's code that a rollback ends with is left out. -/
namespace Staking
open Outcome Soroban Shared
open Escrow (StateVerificationReport FieldCheck)

variable {Addr : Type} [DecidableEq Addr] {self : Addr}

/-- The admin checks of this section report a foreign admin as a missing one. -/
def requireRecoveryAdmin (inv : Invocation Addr self) (c : Config Addr) (admin : Addr) :
    Result Unit := do
  let stored ← expect c.admin Error.notInitialized.trap
  requireAuth inv.toEnv admin
  require (admin = stored) Error.notInitialized.trap

def setEmergencySigners (inv : Invocation Addr self) (c : Config Addr) (r : Recovery Addr)
    (admin : Addr) (signers : List Addr) : Result (Recovery Addr) := do
  requireRecoveryAdmin inv c admin
  require (signers.length = emergencyMsigSigners) Error.invalidAmount.trap
  pure { r with stakeEmergencySigners := some signers }

/-- The snapshot reads the old list of stakers, not the index. -/
def snapshotState (inv : Invocation Addr self) (checksum : ℕ → ℤ → Hash) (c : Config Addr)
    (reg : Registry Addr) (r : Recovery Addr) (admin : Addr) (snapshotId : ℕ) :
    Result (Recovery Addr) := do
  requireRecoveryAdmin inv c admin
  let snaps := (reg.stakers.getD []).filterMap reg.stake
  let (index, evicted) := pushSnapshotIndex r.stakeSnapshotIndex snapshotId
  let kept := match evicted with
    | none => r
    | some oldId => { r with
        stakeSnapshot := Function.update r.stakeSnapshot oldId none
        stakeSnapshotMeta := Function.update r.stakeSnapshotMeta oldId none }
  let record : SnapshotMeta Addr := {
    createdAt := inv.timestamp
    blockHeight := inv.sequence
    contractVersion := 0
    admin := admin
    checksum := checksum snaps.length reg.totalStaked
    recordCount := snaps.length
    snapshotIndex := min r.stakeSnapshotIndex.length (maxSnapshots - 1) }
  pure { kept with
    stakeSnapshot := Function.update kept.stakeSnapshot snapshotId (some snaps)
    stakeSnapshotMeta := Function.update kept.stakeSnapshotMeta snapshotId (some record)
    stakeSnapshotIndex := index }

omit [DecidableEq Addr] in
/-- The unlock cooldown is not compared. -/
def stakeChecks (current snap : StakeRecord Addr) : List FieldCheck :=
  [⟨current.amount ≠ snap.amount, "StakeRecord.amount mismatch"⟩,
    ⟨current.tier ≠ snap.tier, "StakeRecord.tier mismatch"⟩,
    ⟨current.stakedAt ≠ snap.stakedAt, "StakeRecord.staked_at mismatch"⟩,
    ⟨current.unlockAt ≠ snap.unlockAt, "StakeRecord.unlock_at mismatch"⟩]

omit [DecidableEq Addr] in
def snapshotChecks (reg : Registry Addr) (snap : StakeRecord Addr) : List FieldCheck :=
  match reg.stake snap.mentor with
  | some current => stakeChecks current snap
  | none => [⟨true, "StakeRecord missing in current state"⟩]

omit [DecidableEq Addr] in
/-- The number of stakers is compared with the number of captured records. -/
def verifyPostUpgradeState (reg : Registry Addr) (r : Recovery Addr) (snapshotId : ℕ) :
    Result StateVerificationReport := do
  let snaps ← expect (r.stakeSnapshot snapshotId) Error.noStakeFound.trap
  let snapshotMeta ← expect (r.stakeSnapshotMeta snapshotId) Error.noStakeFound.trap
  let countCheck : FieldCheck :=
    ⟨reg.stakerCount ≠ snapshotMeta.recordCount, "StakerCount mismatch"⟩
  (countCheck :: snaps.flatMap (snapshotChecks reg)).foldlM StateVerificationReport.check ⟨0, []⟩

def proposeRollback (inv : Invocation Addr self) (r : Recovery Addr) (proposer : Addr)
    (snapshotId : ℕ) (oldWasmHash : Hash) : Result (Recovery Addr) := do
  let signers ← expect r.stakeEmergencySigners Error.notInitialized.trap
  require (proposer ∈ signers) Error.noStakeFound.trap
  require ((r.stakeSnapshotMeta snapshotId).isSome) Error.noStakeFound.trap
  requireAuth inv.toEnv proposer
  let newId ← safeAddU32 r.stakeRollbackProposalCount 1
  pure { r with
    stakeRollbackProposalCount := newId
    stakeRollbackProposal := Function.update r.stakeRollbackProposal newId
      (some ⟨newId, snapshotId, oldWasmHash, 1, false, inv.timestamp, proposer⟩)
    stakeRollbackApproval := Function.update r.stakeRollbackApproval newId
      (Function.update (r.stakeRollbackApproval newId) proposer true) }

def approveRollback (inv : Invocation Addr self) (r : Recovery Addr) (signer : Addr)
    (proposalId : ℕ) : Result (Recovery Addr) := do
  let signers ← expect r.stakeEmergencySigners Error.notInitialized.trap
  require (signer ∈ signers) Error.noStakeFound.trap
  let proposal ← expect (r.stakeRollbackProposal proposalId) Error.noStakeFound.trap
  require (proposal.executed = false) Error.alreadyStaked.trap
  require (r.stakeRollbackApproval proposalId signer = false) Error.alreadyStaked.trap
  requireAuth inv.toEnv signer
  let count ← safeAddU32 proposal.approvalCount 1
  pure { r with
    stakeRollbackApproval := Function.update r.stakeRollbackApproval proposalId
      (Function.update (r.stakeRollbackApproval proposalId) signer true)
    stakeRollbackProposal := Function.update r.stakeRollbackProposal proposalId
      (some { proposal with approvalCount := count }) }

/-- The captured records are written back; the index and the totals are not touched. -/
def restoreStakes (snaps : List (StakeRecord Addr)) (stake : Addr → Option (StakeRecord Addr)) :
    Addr → Option (StakeRecord Addr) :=
  snaps.foldl (fun stake snap => Function.update stake snap.mentor (some snap)) stake

def rollbackToSnapshot (reg : Registry Addr) (r : Recovery Addr) (proposalId : ℕ) :
    Result (Registry Addr × Recovery Addr) := do
  let proposal ← expect (r.stakeRollbackProposal proposalId) Error.noStakeFound.trap
  require (proposal.executed = false) Error.alreadyStaked.trap
  require (emergencyMsigThreshold ≤ proposal.approvalCount) Error.stillLocked.trap
  let snaps ← expect (r.stakeSnapshot proposal.snapshotId) Error.noStakeFound.trap
  pure ({ reg with stake := restoreStakes snaps reg.stake }, { r with
    stakeRollbackProposal := Function.update r.stakeRollbackProposal proposalId
      (some { proposal with executed := true }) })

end Staking

/-! The staking contract as a machine over its storage and the token ledgers. Views and the
monitoring entry points, which write nothing that the others read, are left out. -/
namespace Staking
open Outcome Soroban Shared

/-- Entry points that only write the configuration. -/
inductive ConfigCall (Addr : Type) where
  | initializeStaking (admin mntToken : Addr) (pauseGuardian : Option Addr)
  | proposeAdminChange (currentAdmin newAdmin : Addr)
  | acceptAdminChange (newAdmin : Addr)
  | cancelAdminChange (multisig : Addr)
  | setPauseGuardian (guardian : Addr)
  | setAnomalyDetector (detector : Addr)
  | setBypassAnomalyCheck (bypass : Bool)
  | setTreasuryContract (admin treasury : Addr)
  | setReputationContract (reputation : Addr)
  | setSessionRegistryContract (sessionRegistry : Addr)
  | setHealthDashboard (healthDashboard : Addr)
  | setTierRequirements (admin : Addr) (requirements : TierRequirements)

/-- Entry points that only write snapshots and rollback proposals. -/
inductive RecoveryCall (Addr : Type) where
  | setEmergencySigners (admin : Addr) (signers : List Addr)
  | snapshotState (admin : Addr) (snapshotId : ℕ)
  | proposeRollback (proposer : Addr) (snapshotId : ℕ) (oldWasmHash : Hash)
  | approveRollback (signer : Addr) (proposalId : ℕ)

inductive Call (Addr : Type) where
  | config (call : ConfigCall Addr)
  | recovery (call : RecoveryCall Addr)
  | setNextDistributionAt (admin : Addr) (timestamp : ℕ)
  | migrateStakers
  | rollbackToSnapshot (proposalId : ℕ)
  | stake (mentor : Addr) (amount : ℤ) (lockPeriodDays : ℕ)
  | unstake (mentor : Addr)
  | receiveTreasuryDistribution (distributionId : ℕ) (treasury token : Addr)
      (stakerAmount : ℤ) (treasuryTimestamp : ℕ)
  | distributeRevenue (token : Addr) (amount : ℤ)
  | distributeRevenueBatch (token : Addr) (amount : ℤ) (offset limit : ℕ)
  | claimRewards (staker token : Addr)
  | addToLpRewardPool (amount : ℤ)
  | registerLpPosition (lpHolder lpTokenContract : Addr) (lpAmount : ℤ) (tokenA tokenB : Addr)
  | claimLpRewards (lpHolder mntToken : Addr)
  /-- Not an entry point: somebody sends tokens to the contract. -/
  | deposit (token source : Addr) (amount : ℤ)
  /-- Not an entry point: a token moves between other holders. -/
  | tokenActivity (token holder : Addr) (balance : ℤ)

variable {Addr : Type} [DecidableEq Addr] {self : Addr}

def execConfig (inv : Invocation Addr self) (call : ConfigCall Addr) (c : Config Addr) :
    Result (Config Addr) :=
  match call with
  | .initializeStaking admin mntToken guardian => initializeStaking c admin mntToken guardian
  | .proposeAdminChange currentAdmin newAdmin => proposeAdminChange inv c currentAdmin newAdmin
  | .acceptAdminChange newAdmin => acceptAdminChange inv c newAdmin
  | .cancelAdminChange multisig => cancelAdminChange inv c multisig
  | .setPauseGuardian guardian => setPauseGuardian inv c guardian
  | .setAnomalyDetector detector => setAnomalyDetector inv c detector
  | .setBypassAnomalyCheck bypass => setBypassAnomalyCheck inv c bypass
  | .setTreasuryContract admin treasury => setTreasuryContract inv c admin treasury
  | .setReputationContract reputation => setReputationContract inv c reputation
  | .setSessionRegistryContract registry => setSessionRegistryContract inv c registry
  | .setHealthDashboard dashboard => setHealthDashboard inv c dashboard
  | .setTierRequirements admin requirements => setTierRequirements inv c admin requirements

def execRecovery (inv : Invocation Addr self) (checksum : ℕ → ℤ → Hash)
    (call : RecoveryCall Addr) (s : State Addr) : Result (Recovery Addr) :=
  match call with
  | .setEmergencySigners admin signers =>
      setEmergencySigners inv s.config s.recovery admin signers
  | .snapshotState admin snapshotId =>
      snapshotState inv checksum s.config s.registry s.recovery admin snapshotId
  | .proposeRollback proposer snapshotId oldWasmHash =>
      proposeRollback inv s.recovery proposer snapshotId oldWasmHash
  | .approveRollback signer proposalId => approveRollback inv s.recovery signer proposalId

def exec (checksum : ℕ → ℤ → Hash) (inv : Invocation Addr self) (call : Call Addr)
    (s : State Addr) : Result (State Addr) :=
  match call with
  | .config call => do
      let c ← execConfig inv call s.config
      pure { s with config := c }
  | .recovery call => do
      let r ← execRecovery inv checksum call s
      pure { s with recovery := r }
  | .setNextDistributionAt admin timestamp => do
      let h ← setNextDistributionAt inv s.config s.history admin timestamp
      pure { s with history := h }
  | .migrateStakers => do
      let r ← migrateStakers s.config s.registry
      pure { s with registry := r }
  | .rollbackToSnapshot proposalId => do
      let (registry, recovery) ← rollbackToSnapshot s.registry s.recovery proposalId
      pure { s with registry := registry, recovery := recovery }
  | .stake mentor amount lockPeriodDays => stake inv s mentor amount lockPeriodDays
  | .unstake mentor => unstake inv s mentor
  | .receiveTreasuryDistribution distributionId treasury token stakerAmount time =>
      receiveTreasuryDistribution inv s distributionId treasury token stakerAmount time
  | .distributeRevenue _ amount => distributeRevenue inv s amount
  | .distributeRevenueBatch _ amount offset limit =>
      distributeRevenueBatch s amount offset limit
  | .claimRewards staker token => claimRewards inv s staker token
  | .addToLpRewardPool amount => addToLpRewardPool s amount
  | .registerLpPosition lpHolder lpTokenContract lpAmount tokenA tokenB =>
      registerLpPosition inv s lpHolder lpTokenContract lpAmount tokenA tokenB
  | .claimLpRewards lpHolder mntToken => claimLpRewards inv s lpHolder mntToken
  | .deposit token source amount => do
      requireAuth inv.toEnv source
      let tokens ← s.tokens.transfer inv.accepts token source self amount
      pure { s with tokens := tokens }
  | .tokenActivity token holder balance => do
      require (holder ≠ self ∧ 0 ≤ balance) .subcall
      let balances := Function.update s.tokens.balance token
        (Function.update (s.tokens.balance token) holder balance)
      pure { s with tokens := { s.tokens with balance := balances } }

abbrev Step (Addr : Type) (self : Addr) := Invocation Addr self × Call Addr

/-- The deployed contract, under the digest that the host computes for a snapshot. -/
def machine (self : Addr) (checksum : ℕ → ℤ → Hash) :
    Machine (State Addr) (Step Addr self) Trap where
  exec step := exec checksum step.1 step.2

/-- An invocation at time `now` that every account signed and no other contract refuses. -/
def grantedByAll (now : ℕ) : Invocation ℕ 0 where
  toEnv := signedByAll now
  accepts _ := true
  isPaused _ := some false
  checkAnomaly _ _ _ := some 0
  mentorRating _ _ := some 500
  sessionsByMentor _ _ := some 100
  recordMetric _ _ := true

end Staking
