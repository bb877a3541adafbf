import MentorsMind.Staking.Contract

/-! What each successful call does to the stakes, the closed epochs, the rewards and the
token balances, written out once: later invariants are read off from it. -/
namespace Staking
open Outcome Soroban Shared

section Calls

variable {Addr : Type}

/-- The entry points that close the current epoch. -/
def Call.closesEpoch : Call Addr → Bool
  | .receiveTreasuryDistribution .. | .distributeRevenue .. => true
  | _ => false

/-- The staker whose closed epochs a call settles. -/
def Call.settles : Call Addr → Option Addr
  | .unstake mentor => some mentor
  | .claimRewards staker _ => some staker
  | _ => none

/-- What a call promises to be in the contract already. -/
def Call.promised : Call Addr → ℤ
  | .receiveTreasuryDistribution _ _ _ amount _ | .distributeRevenue _ amount
  | .distributeRevenueBatch _ amount _ _ | .addToLpRewardPool amount => amount
  | _ => 0

/-- What a call brings into the contract in `token`, beside stakes. -/
def Call.deposited [DecidableEq Addr] (token : Addr) : Call Addr → ℤ
  | .deposit token' _ amount => if token' = token then amount else 0
  | _ => 0

/-- The calls that leave stakes, epochs, rewards and the contract's balances alone. -/
def Call.isIdle : Call Addr → Bool
  | .config _ | .recovery _ | .setNextDistributionAt .. | .migrateStakers
  | .rollbackToSnapshot _ | .registerLpPosition .. | .tokenActivity .. => true
  | _ => false

theorem Call.settles_of_isIdle {call : Call Addr} (h : call.isIdle = true) :
    call.settles = none := by
  cases call <;> first | rfl | simp [isIdle] at h

theorem Call.closesEpoch_of_isIdle {call : Call Addr} (h : call.isIdle = true) :
    call.closesEpoch = false := by
  cases call <;> first | rfl | simp [isIdle] at h

theorem Call.settles_of_closesEpoch {call : Call Addr} (h : call.closesEpoch = true) :
    call.settles = none := by
  cases call <;> first | rfl | simp [closesEpoch] at h

theorem Call.deposited_of_closesEpoch [DecidableEq Addr] {call : Call Addr} (token : Addr)
    (h : call.closesEpoch = true) : call.deposited token = 0 := by
  cases call <;> first | rfl | simp [closesEpoch] at h

theorem Call.promised_of_isIdle {call : Call Addr} (h : call.isIdle = true) :
    call.promised = 0 := by
  cases call <;> first | rfl | simp [isIdle] at h

theorem Call.deposited_of_isIdle [DecidableEq Addr] {call : Call Addr} (token : Addr)
    (h : call.isIdle = true) : call.deposited token = 0 := by
  cases call <;> first | rfl | simp [isIdle] at h

end Calls

variable {Addr : Type} [DecidableEq Addr] {home : Addr}

/-- An admin is stored from the initialisation on, which also sets the token. -/
def Config.Initialised (c : Config Addr) : Prop := c.mntToken ≠ none → c.admin ≠ none

/-- The contract is initialised as a whole; the old list of stakers is gone, and with it what
a snapshot could capture. -/
structure WellFormed (s : State Addr) : Prop where
  initialised : s.config.Initialised
  stakers : s.registry.stakers = none
  snapshot : ∀ id snaps, s.recovery.stakeSnapshot id = some snaps → snaps = []

structure Idled (home : Addr) (s t : State Addr) : Prop where
  registry : t.registry = s.registry
  epochs : t.epochs = s.epochs
  rewards : t.rewards = s.rewards
  lpRewardPool : t.liquidity.lpRewardPool = s.liquidity.lpRewardPool
  balance : ∀ token, t.tokens.balance token home = s.tokens.balance token home
  mntToken : t.config.mntToken = s.config.mntToken ∨ s.config.mntToken = none
  wellFormed : WellFormed t

structure Staked (inv : Invocation Addr home) (s t : State Addr) (mentor : Addr) (amount : ℤ)
    (record : StakeRecord Addr) (mnt : Addr) : Prop where
  fresh : s.registry.stake mentor = none
  ne_self : mentor ≠ home
  mntToken : s.config.mntToken = some mnt
  pos : 0 < amount
  le : amount ≤ maxFinancialAmount
  amount_eq : record.amount = amount
  mentor_eq : record.mentor = mentor
  stakedAt : record.stakedAt = inv.timestamp
  enlisted : s.registry.enlist mentor record = .ok t.registry
  paid : s.tokens.transfer inv.accepts mnt mentor home amount = .ok t.tokens
  config : t.config = s.config
  epochs : t.epochs = s.epochs
  rewards : t.rewards = { s.rewards with
    stakerEpochEntry := Function.update s.rewards.stakerEpochEntry mentor
      (some (s.epochs.epochId + 1))
    stakerNextClaimEpoch := Function.update s.rewards.stakerNextClaimEpoch mentor
      (some (s.epochs.epochId + 1)) }
  liquidity : t.liquidity = s.liquidity
  snapshots : t.recovery.stakeSnapshot = s.recovery.stakeSnapshot

structure Unstaked (inv : Invocation Addr home) (s t : State Addr) (mentor : Addr)
    (record : StakeRecord Addr) (penalty : PenaltyCalculation) (settled : Rewards Addr)
    (mnt : Addr) : Prop where
  found : s.registry.stake mentor = some record
  ne_self : mentor ≠ home
  mntToken : s.config.mntToken = some mnt
  penalty_eq : computeEarlyUnstakePenalty record.stakedAt inv.timestamp record.unlockAt
    record.amount = .ok penalty
  settlement : settleEpochRewards inv.timestamp s.registry s.epochs s.rewards mentor =
    .ok settled
  collected : s.epochs.collectPenalty penalty.penaltyAmount = .ok t.epochs
  delisted : s.registry.delist mentor record.amount = .ok t.registry
  paid : payIfPositive inv s.tokens mnt mentor penalty.returnedAmount = .ok t.tokens
  config : t.config = s.config
  rewards : t.rewards = { settled with
    stakerEpochEntry := Function.update settled.stakerEpochEntry mentor none
    stakerNextClaimEpoch := Function.update settled.stakerNextClaimEpoch mentor none }
  liquidity : t.liquidity = s.liquidity
  snapshots : t.recovery.stakeSnapshot = s.recovery.stakeSnapshot

structure Closed (now : ℕ) (s t : State Addr) (amount : ℤ) : Prop where
  nonneg : 0 ≤ amount
  closed : internalDistributeRevenue now s.registry s.epochs amount = .ok t.epochs
  config : t.config = s.config
  registry : t.registry = s.registry
  rewards : t.rewards = s.rewards
  liquidity : t.liquidity = s.liquidity
  tokens : t.tokens = s.tokens
  snapshots : t.recovery.stakeSnapshot = s.recovery.stakeSnapshot

structure Batched (s t : State Addr) (amount : ℤ) (offset limit : ℕ) : Prop where
  nonneg : 0 ≤ amount
  credited : s.registry.totalStaked = 0 ∧ t.rewards = s.rewards ∨
    s.registry.totalStaked ≠ 0 ∧ ∃ updates pending,
      batchShares s.registry amount (Pagination.bounds s.registry.stakerCount offset limit).1
        ((Pagination.bounds s.registry.stakerCount offset limit).2 -
          (Pagination.bounds s.registry.stakerCount offset limit).1) = .ok updates ∧
      creditShares updates s.rewards.pendingRewards = .ok pending ∧
      t.rewards = { s.rewards with pendingRewards := pending }
  config : t.config = s.config
  registry : t.registry = s.registry
  epochs : t.epochs = s.epochs
  liquidity : t.liquidity = s.liquidity
  tokens : t.tokens = s.tokens
  snapshots : t.recovery.stakeSnapshot = s.recovery.stakeSnapshot

structure Claimed (inv : Invocation Addr home) (s t : State Addr) (staker token : Addr)
    (settled : Rewards Addr) (scan claim : ClaimScan Addr) : Prop where
  ne_self : staker ≠ home
  settlement : settleEpochRewards inv.timestamp s.registry s.epochs s.rewards staker =
    .ok settled
  scanned : claimEpochs inv.timestamp staker s.epochs.epochId ⟨settled, 0, 0⟩ = .ok scan
  legacy : claimLegacy scan staker = .ok claim
  paid : s.tokens.transfer inv.accepts token home staker claim.totalClaimable = .ok t.tokens
  config : t.config = s.config
  registry : t.registry = s.registry
  epochs : t.epochs = s.epochs
  rewards : t.rewards = claim.rewards
  liquidity : t.liquidity = s.liquidity
  snapshots : t.recovery.stakeSnapshot = s.recovery.stakeSnapshot

structure Funded (s t : State Addr) (amount : ℤ) : Prop where
  pos : 0 < amount
  lpRewardPool : t.liquidity.lpRewardPool = s.liquidity.lpRewardPool + amount
  config : t.config = s.config
  registry : t.registry = s.registry
  epochs : t.epochs = s.epochs
  rewards : t.rewards = s.rewards
  tokens : t.tokens = s.tokens
  snapshots : t.recovery.stakeSnapshot = s.recovery.stakeSnapshot

structure LpPaid (home : Addr) (s t : State Addr) (token : Addr) (reward : ℤ) : Prop where
  lpRewardPool : t.liquidity.lpRewardPool = s.liquidity.lpRewardPool - reward
  nonneg : 0 ≤ reward
  le_pool : reward ≤ max s.liquidity.lpRewardPool 0
  balance : ∀ token', t.tokens.balance token' home =
    s.tokens.balance token' home - if token' = token then reward else 0
  config : t.config = s.config
  registry : t.registry = s.registry
  epochs : t.epochs = s.epochs
  rewards : t.rewards = s.rewards
  snapshots : t.recovery.stakeSnapshot = s.recovery.stakeSnapshot

structure Deposited (home : Addr) (s t : State Addr) (token : Addr) (amount : ℤ) : Prop where
  nonneg : 0 ≤ amount
  balance : ∀ token', t.tokens.balance token' home =
    s.tokens.balance token' home + if token' = token then amount else 0
  config : t.config = s.config
  registry : t.registry = s.registry
  epochs : t.epochs = s.epochs
  rewards : t.rewards = s.rewards
  liquidity : t.liquidity = s.liquidity
  snapshots : t.recovery.stakeSnapshot = s.recovery.stakeSnapshot

/-- All that a successful call can do. -/
inductive Effect (inv : Invocation Addr home) (s t : State Addr) : Call Addr → Prop
  | idled {call : Call Addr} (idle : call.isIdle = true) (h : Idled home s t) :
      Effect inv s t call
  | staked {mentor : Addr} {amount : ℤ} {days : ℕ} {record : StakeRecord Addr} {mnt : Addr}
      (h : Staked inv s t mentor amount record mnt) : Effect inv s t (.stake mentor amount days)
  | unstaked {mentor : Addr} {record : StakeRecord Addr} {penalty : PenaltyCalculation}
      {settled : Rewards Addr} {mnt : Addr}
      (h : Unstaked inv s t mentor record penalty settled mnt) : Effect inv s t (.unstake mentor)
  | closed {call : Call Addr} (closes : call.closesEpoch = true)
      (h : Closed inv.timestamp s t call.promised) : Effect inv s t call
  | batched {token : Addr} {amount : ℤ} {offset limit : ℕ} (h : Batched s t amount offset limit) :
      Effect inv s t (.distributeRevenueBatch token amount offset limit)
  | claimed {staker token : Addr} {settled : Rewards Addr} {scan claim : ClaimScan Addr}
      (h : Claimed inv s t staker token settled scan claim) :
      Effect inv s t (.claimRewards staker token)
  | funded {amount : ℤ} (h : Funded s t amount) : Effect inv s t (.addToLpRewardPool amount)
  | lpPaid {lpHolder token : Addr} {reward : ℤ} (h : LpPaid home s t token reward) :
      Effect inv s t (.claimLpRewards lpHolder token)
  | deposited {token source : Addr} {amount : ℤ} (h : Deposited home s t token amount) :
      Effect inv s t (.deposit token source amount)

section Inversion

variable {inv : Invocation Addr home} {s t : State Addr} {checksum : ℕ → ℤ → Hash}

/-- A payment between the contract and somebody else moves exactly its amount. -/
theorem transfer_in {accepts : Transfer Addr → Bool} {tokens tokens' : Tokens Addr}
    {token source : Addr} {amount : ℤ} (hne : source ≠ home)
    (h : tokens.transfer accepts token source home amount = .ok tokens') (token' : Addr) :
    tokens'.balance token' home =
      tokens.balance token' home + if token' = token then amount else 0 := by
  obtain ⟨-, -, rfl⟩ := Tokens.transfer_eq_ok h
  simp only [Tokens.flow, hne, if_true, if_false, sub_zero, eq_comm (a := token')]

theorem transfer_out {accepts : Transfer Addr → Bool} {tokens tokens' : Tokens Addr}
    {token recipient : Addr} {amount : ℤ} (hne : recipient ≠ home)
    (h : tokens.transfer accepts token home recipient amount = .ok tokens') (token' : Addr) :
    tokens'.balance token' home =
      tokens.balance token' home - if token' = token then amount else 0 := by
  obtain ⟨-, -, rfl⟩ := Tokens.transfer_eq_ok h
  simp only [Tokens.flow, hne, if_true, if_false, zero_sub, eq_comm (a := token')]
  split_ifs <;> omega

theorem payIfPositive_out {tokens tokens' : Tokens Addr} {token recipient : Addr} {amount : ℤ}
    (hne : recipient ≠ home) (hamount : 0 ≤ amount)
    (h : payIfPositive inv tokens token recipient amount = .ok tokens') (token' : Addr) :
    tokens'.balance token' home =
      tokens.balance token' home - if token' = token then amount else 0 := by
  unfold payIfPositive at h
  split_ifs at h with hpos
  · exact transfer_out hne h token'
  · obtain rfl := pure_eq_ok.mp h
    obtain rfl : amount = 0 := by omega
    simp

/-- The configuration calls that neither initialise nor hand over the contract. -/
theorem execConfig_keeps {call : ConfigCall Addr} {c c' : Config Addr}
    (h : execConfig inv call c = .ok c') :
    (c.admin = none ∧ c'.admin ≠ none) ∨ (c'.mntToken = c.mntToken ∧ c'.admin ≠ none) ∨
      (c'.mntToken = c.mntToken ∧ c'.admin = c.admin) := by
  cases call with
  | initializeStaking admin mntToken guardian =>
    simp only [execConfig, initializeStaking, bind_eq_ok, require_eq_ok, pure_eq_ok] at h
    obtain ⟨-, hnone, rfl⟩ := h
    exact .inl ⟨hnone, by simp⟩
  | acceptAdminChange newAdmin =>
    simp only [execConfig, acceptAdminChange, bind_eq_ok, require_eq_ok, expect_eq_ok,
      pure_eq_ok] at h
    obtain ⟨-, -, -, -, -, -, -, -, -, -, rfl⟩ := h
    exact .inr (.inl ⟨rfl, by simp⟩)
  | proposeAdminChange | cancelAdminChange | setPauseGuardian | setAnomalyDetector
  | setBypassAnomalyCheck | setTreasuryContract | setReputationContract
  | setSessionRegistryContract | setHealthDashboard | setTierRequirements =>
    right; right
    simp only [execConfig, proposeAdminChange, cancelAdminChange, setPauseGuardian,
      setAnomalyDetector, setBypassAnomalyCheck, setTreasuryContract, setReputationContract,
      setSessionRegistryContract, setHealthDashboard, setTierRequirements, bind_eq_ok,
      pure_eq_ok] at h
    grind

theorem execConfig_mntToken {call : ConfigCall Addr} {c c' : Config Addr}
    (hc : c.Initialised) (h : execConfig inv call c = .ok c') :
    (c'.mntToken = c.mntToken ∨ c.mntToken = none) ∧ c'.Initialised := by
  rcases execConfig_keeps h with ⟨hnone, hadmin⟩ | ⟨hmnt, hadmin⟩ | ⟨hmnt, hadmin⟩
  · refine ⟨.inr ?_, fun _ => hadmin⟩
    by_contra hmnt
    exact hc hmnt hnone
  · exact ⟨.inl hmnt, fun _ => hadmin⟩
  · refine ⟨.inl hmnt, fun hne => ?_⟩
    rw [hadmin]
    exact hc (hmnt ▸ hne)

theorem migrateStakers_eq {c : Config Addr} {r r' : Registry Addr} (hlist : r.stakers = none)
    (h : migrateStakers c r = .ok r') : r' = r := by
  simp only [migrateStakers, hlist, bind_eq_ok, pure_eq_ok] at h
  obtain ⟨-, -, rfl⟩ := h
  rfl

theorem rollbackToSnapshot_eq {reg reg' : Registry Addr} {r r' : Recovery Addr} {id : ℕ}
    (hempty : ∀ id snaps, r.stakeSnapshot id = some snaps → snaps = [])
    (h : rollbackToSnapshot reg r id = .ok (reg', r')) :
    reg' = reg ∧ r'.stakeSnapshot = r.stakeSnapshot := by
  simp only [rollbackToSnapshot, bind_eq_ok, expect_eq_ok, pure_eq_ok, Prod.mk.injEq] at h
  obtain ⟨proposal, -, -, -, -, -, snaps, hsnaps, rfl, rfl⟩ := h
  obtain rfl := hempty _ snaps hsnaps
  exact ⟨rfl, rfl⟩

omit [DecidableEq Addr] in
theorem recordStakeSnapshotIndex_isOk_iff {r : Recovery Addr} :
    (∃ r', recordStakeSnapshotIndex r = .ok r') ↔ r.nextStakeSnapshotId + 1 < 2 ^ 32 := by
  simp only [recordStakeSnapshotIndex, bind_eq_ok, checkedU32_eq_ok, pure_eq_ok]
  constructor
  · rintro ⟨_, _, ⟨hlt, -⟩, -⟩
    exact hlt
  · intro hlt
    exact ⟨_, _, ⟨hlt, rfl⟩, rfl⟩

omit [DecidableEq Addr] in
theorem recordStakeSnapshotIndex_eq {r r' : Recovery Addr}
    (h : recordStakeSnapshotIndex r = .ok r') : r'.stakeSnapshot = r.stakeSnapshot := by
  simp only [recordStakeSnapshotIndex, bind_eq_ok, pure_eq_ok] at h
  obtain ⟨-, -, rfl⟩ := h
  rfl

/-- Without the old list a snapshot captures nothing. -/
theorem execRecovery_snapshots {call : RecoveryCall Addr} {r : Recovery Addr}
    (hs : WellFormed s) (h : execRecovery inv checksum call s = .ok r) :
    ∀ id snaps, r.stakeSnapshot id = some snaps → snaps = [] := by
  cases call with
  | snapshotState admin snapshotId =>
    simp only [execRecovery, snapshotState, bind_eq_ok, pure_eq_ok] at h
    obtain ⟨-, -, rfl⟩ := h
    intro id snaps hsnaps
    by_cases hid : id = snapshotId
    · subst hid
      simpa [hs.stakers, eq_comm] using hsnaps
    · simp only [Function.update_of_ne hid] at hsnaps
      cases hpushed : (pushSnapshotIndex s.recovery.stakeSnapshotIndex snapshotId).2 with
      | none =>
        simp only [hpushed] at hsnaps
        exact hs.snapshot id snaps hsnaps
      | some oldId =>
        simp only [hpushed] at hsnaps
        by_cases hold : id = oldId
        · simp [hold] at hsnaps
        · rw [Function.update_of_ne hold] at hsnaps
          exact hs.snapshot id snaps hsnaps
  | setEmergencySigners | proposeRollback | approveRollback =>
    simp only [execRecovery, setEmergencySigners, proposeRollback, approveRollback, bind_eq_ok,
      pure_eq_ok] at h
    have hsame : r.stakeSnapshot = s.recovery.stakeSnapshot := by grind
    rw [hsame]
    exact hs.snapshot

theorem stake_effect {mentor : Addr} {amount : ℤ} {days : ℕ}
    (h : stake inv s mentor amount days = .ok t) :
    ∃ record mnt, Staked inv s t mentor amount record mnt := by
  simp only [stake, bind_eq_ok, require_eq_ok, expect_eq_ok, requireAuth_eq_ok,
    safeAddU64_eq_ok, pure_eq_ok] at h
  obtain ⟨-, -, -, -, -, ⟨hpos, hle⟩, -, -, -, -, -, hfresh, -, hauth, mnt, hmnt, tokens, hpaid,
    lockSeconds, -, unlockAt, -, tier, -, registry, henlisted, entry, ⟨-, rfl⟩, recovery, hrecovery,
    -, -, rfl⟩ := h
  exact ⟨_, mnt, {
    fresh := by simpa using hfresh
    ne_self := Env.ne_self_of_auth hauth
    mntToken := hmnt
    pos := hpos
    le := hle
    amount_eq := rfl
    mentor_eq := rfl
    stakedAt := rfl
    enlisted := henlisted
    paid := hpaid
    config := rfl
    epochs := rfl
    rewards := rfl
    liquidity := rfl
    snapshots := recordStakeSnapshotIndex_eq hrecovery }⟩

theorem unstake_effect {mentor : Addr} (h : unstake inv s mentor = .ok t) :
    ∃ record penalty settled mnt, Unstaked inv s t mentor record penalty settled mnt := by
  simp only [unstake, bind_eq_ok, require_eq_ok, expect_eq_ok, requireAuth_eq_ok,
    pure_eq_ok] at h
  obtain ⟨-, -, record, hfound, -, hauth, penalty, hpenalty, tier, -, settled, hsettled, mnt,
    hmnt, epochs, hcollected, tokens, hpaid, registry, hdelisted, recovery, hrecovery,
    -, -, rfl⟩ := h
  exact ⟨record, penalty, settled, mnt, {
    found := hfound
    ne_self := Env.ne_self_of_auth hauth
    mntToken := hmnt
    penalty_eq := hpenalty
    settlement := hsettled
    collected := hcollected
    delisted := hdelisted
    paid := hpaid
    config := rfl
    rewards := rfl
    liquidity := rfl
    snapshots := recordStakeSnapshotIndex_eq hrecovery }⟩

theorem closeEpoch_effect {now : ℕ} {amount : ℤ} (hnonneg : 0 ≤ amount)
    (h : s.closeEpoch now amount = .ok t) : Closed now s t amount := by
  simp only [State.closeEpoch, bind_eq_ok, pure_eq_ok] at h
  obtain ⟨epochs, hclosed, rfl⟩ := h
  exact ⟨hnonneg, hclosed, rfl, rfl, rfl, rfl, rfl, rfl⟩

theorem receiveTreasuryDistribution_effect {id : ℕ} {treasury token : Addr} {amount : ℤ}
    {time : ℕ} (h : receiveTreasuryDistribution inv s id treasury token amount time = .ok t) :
    Closed inv.timestamp s t amount := by
  simp only [receiveTreasuryDistribution, bind_eq_ok, require_eq_ok, pure_eq_ok] at h
  obtain ⟨-, -, -, -, -, -, -, -, -, ⟨hnonneg, -⟩, closed, hclosed, -, -, rfl⟩ := h
  have heffect := closeEpoch_effect hnonneg hclosed
  exact ⟨hnonneg, heffect.closed, heffect.config, heffect.registry, heffect.rewards,
    heffect.liquidity, heffect.tokens, heffect.snapshots⟩

theorem distributeRevenueBatch_effect {amount : ℤ} {offset limit : ℕ}
    (h : distributeRevenueBatch s amount offset limit = .ok t) :
    Batched s t amount offset limit := by
  simp only [distributeRevenueBatch, bind_eq_ok, requireNonNegative_eq_ok] at h
  obtain ⟨-, hnonneg, -, -, h⟩ := h
  by_cases hzero : s.registry.totalStaked = 0
  · rw [if_pos hzero] at h
    obtain rfl : s = t := by simpa using h
    exact ⟨hnonneg, .inl ⟨hzero, rfl⟩, rfl, rfl, rfl, rfl, rfl, rfl⟩
  · rw [if_neg hzero] at h
    simp only [bind_eq_ok, pure_eq_ok] at h
    obtain ⟨updates, hupdates, pending, hpending, rfl⟩ := h
    exact ⟨hnonneg, .inr ⟨hzero, updates, pending, hupdates, hpending, rfl⟩, rfl, rfl, rfl, rfl,
      rfl, rfl⟩

theorem claimRewards_effect {staker token : Addr} (h : claimRewards inv s staker token = .ok t) :
    ∃ settled scan claim, Claimed inv s t staker token settled scan claim := by
  simp only [claimRewards, bind_eq_ok, requireAuth_eq_ok, pure_eq_ok] at h
  obtain ⟨-, -, -, -, -, hauth, settled, hsettled, scan, hscan, claim, hclaim, -, -, tokens,
    hpaid, recovery, hrecovery, rfl⟩ := h
  exact ⟨settled, scan, claim, {
    ne_self := Env.ne_self_of_auth hauth
    settlement := hsettled
    scanned := hscan
    legacy := hclaim
    paid := hpaid
    config := rfl
    registry := rfl
    epochs := rfl
    rewards := rfl
    liquidity := rfl
    snapshots := recordStakeSnapshotIndex_eq hrecovery }⟩

omit [DecidableEq Addr] in
theorem addToLpRewardPool_effect {amount : ℤ} (h : addToLpRewardPool s amount = .ok t) :
    Funded s t amount := by
  simp only [addToLpRewardPool, bind_eq_ok, require_eq_ok, checkedI128_eq_ok, pure_eq_ok] at h
  obtain ⟨-, ⟨hpos, -⟩, pool, ⟨-, rfl⟩, -, -, rfl⟩ := h
  exact ⟨hpos, rfl, rfl, rfl, rfl, rfl, rfl, rfl⟩

theorem claimLpRewards_effect {lpHolder token : Addr}
    (h : claimLpRewards inv s lpHolder token = .ok t) : ∃ reward, LpPaid home s t token reward := by
  simp only [claimLpRewards, bind_eq_ok, requireAuth_eq_ok] at h
  obtain ⟨-, hauth, record, -, -, -, h⟩ := h
  split_ifs at h with hsame
  · obtain rfl : s = t := by simpa using h
    exact ⟨0, by simp, le_rfl, le_max_right _ _, by simp, rfl, rfl, rfl, rfl, rfl⟩
  · simp only [bind_eq_ok] at h
    obtain ⟨product, -, reward, -, h⟩ := h
    split_ifs at h with hreward
    · simp only [bind_eq_ok, safeSub_eq_ok, pure_eq_ok] at h
      obtain ⟨pool, ⟨-, rfl⟩, tokens, hpaid, rfl⟩ := h
      exact ⟨_, rfl, (Tokens.transfer_eq_ok hpaid).1,
        (min_le_right _ _).trans (le_max_left _ _), transfer_out (Env.ne_self_of_auth hauth) hpaid,
        rfl, rfl, rfl, rfl, rfl⟩
    · obtain rfl := pure_eq_ok.mp h
      exact ⟨0, by simp, le_rfl, le_max_right _ _, by simp, rfl, rfl, rfl, rfl, rfl⟩

/-- What a successful call does. -/
theorem exec_effect {call : Call Addr} (hs : WellFormed s)
    (h : exec checksum inv call s = .ok t) : Effect inv s t call := by
  cases call with
  | config call =>
    simp only [exec, bind_eq_ok, pure_eq_ok] at h
    obtain ⟨c, hc, rfl⟩ := h
    exact .idled rfl ⟨rfl, rfl, rfl, rfl, fun _ => rfl, (execConfig_mntToken hs.initialised hc).1,
      (execConfig_mntToken hs.initialised hc).2, hs.stakers, hs.snapshot⟩
  | recovery call =>
    simp only [exec, bind_eq_ok, pure_eq_ok] at h
    obtain ⟨r, hr, rfl⟩ := h
    exact .idled rfl ⟨rfl, rfl, rfl, rfl, fun _ => rfl, .inl rfl, hs.initialised, hs.stakers,
      execRecovery_snapshots hs hr⟩
  | setNextDistributionAt admin timestamp =>
    simp only [exec, bind_eq_ok, pure_eq_ok] at h
    obtain ⟨history, -, rfl⟩ := h
    exact .idled rfl ⟨rfl, rfl, rfl, rfl, fun _ => rfl, .inl rfl, hs.initialised, hs.stakers,
      hs.snapshot⟩
  | migrateStakers =>
    simp only [exec, bind_eq_ok, pure_eq_ok] at h
    obtain ⟨r, hr, rfl⟩ := h
    obtain rfl := migrateStakers_eq hs.stakers hr
    exact .idled rfl ⟨rfl, rfl, rfl, rfl, fun _ => rfl, .inl rfl, hs.initialised, hs.stakers,
      hs.snapshot⟩
  | rollbackToSnapshot proposalId =>
    simp only [exec, bind_eq_ok, pure_eq_ok] at h
    obtain ⟨x, hx, rfl⟩ := h
    obtain ⟨hregistry, hrecovery⟩ := rollbackToSnapshot_eq hs.snapshot hx
    refine .idled rfl ⟨hregistry, rfl, rfl, rfl, fun _ => rfl, .inl rfl, hs.initialised, ?_, ?_⟩
    · show x.1.stakers = none
      rw [hregistry]
      exact hs.stakers
    · show ∀ id snaps, x.2.stakeSnapshot id = some snaps → snaps = []
      rw [hrecovery]
      exact hs.snapshot
  | stake mentor amount days =>
    obtain ⟨record, mnt, heffect⟩ := stake_effect h
    exact .staked heffect
  | unstake mentor =>
    obtain ⟨record, penalty, settled, mnt, heffect⟩ := unstake_effect h
    exact .unstaked heffect
  | receiveTreasuryDistribution id treasury token amount time =>
    exact .closed rfl (receiveTreasuryDistribution_effect h)
  | distributeRevenue token amount =>
    simp only [exec, distributeRevenue, bind_eq_ok, requireNonNegative_eq_ok] at h
    obtain ⟨-, hnonneg, -, -, h⟩ := h
    exact .closed rfl (closeEpoch_effect hnonneg h)
  | distributeRevenueBatch token amount offset limit =>
    exact .batched (distributeRevenueBatch_effect h)
  | claimRewards staker token =>
    obtain ⟨settled, scan, claim, heffect⟩ := claimRewards_effect h
    exact .claimed heffect
  | addToLpRewardPool amount => exact .funded (addToLpRewardPool_effect h)
  | registerLpPosition lpHolder lpTokenContract lpAmount tokenA tokenB =>
    simp only [exec, registerLpPosition, bind_eq_ok, pure_eq_ok] at h
    obtain ⟨-, -, -, -, rfl⟩ := h
    exact .idled rfl ⟨rfl, rfl, rfl, rfl, fun _ => rfl, .inl rfl, hs.initialised, hs.stakers,
      hs.snapshot⟩
  | claimLpRewards lpHolder token =>
    obtain ⟨reward, heffect⟩ := claimLpRewards_effect h
    exact .lpPaid heffect
  | deposit token source amount =>
    simp only [exec, bind_eq_ok, requireAuth_eq_ok, pure_eq_ok] at h
    obtain ⟨-, hauth, tokens, hpaid, rfl⟩ := h
    exact .deposited ⟨(Tokens.transfer_eq_ok hpaid).1,
      transfer_in (Env.ne_self_of_auth hauth) hpaid, rfl, rfl, rfl, rfl, rfl, rfl⟩
  | tokenActivity token holder balance =>
    simp only [exec, bind_eq_ok, require_eq_ok, pure_eq_ok] at h
    obtain ⟨-, ⟨hne, -⟩, rfl⟩ := h
    refine .idled rfl ⟨rfl, rfl, rfl, rfl, fun token' => ?_, .inl rfl, hs.initialised,
      hs.stakers, hs.snapshot⟩
    by_cases htoken : token' = token
    · subst htoken
      simp [hne.symm]
    · simp [htoken]

end Inversion

end Staking
