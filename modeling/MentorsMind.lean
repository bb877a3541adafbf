import MentorsMind.Lib.Outcome
import MentorsMind.Lib.Machine
import MentorsMind.Lib.Table
import MentorsMind.Lib.Vault
import MentorsMind.Lib.RollingIndex
import MentorsMind.Lib.SlidingWindow
import MentorsMind.Lib.Trail
import MentorsMind.Lib.DenseIndex
import MentorsMind.Lib.Shares
import MentorsMind.Lib.Quorum
import MentorsMind.Lib.FirstServed
import MentorsMind.Lib.RingBuffer
import MentorsMind.Lib.Ballot
import MentorsMind.Lib.BigEndian
import MentorsMind.Lib.MerkleTree
import MentorsMind.Lib.Forest
import MentorsMind.Soroban.Host
import MentorsMind.Soroban.TokenLedger
import MentorsMind.Shared.SafeMath
import MentorsMind.Shared.Rollback
import MentorsMind.Shared.Integrity
import MentorsMind.Shared.Staking
import MentorsMind.Shared.ActionPattern
import MentorsMind.Shared.Params
import MentorsMind.MntToken.Contract
import MentorsMind.MntToken.Supply
import MentorsMind.MntToken.Allowance
import MentorsMind.Escrow.State
import MentorsMind.Escrow.Config
import MentorsMind.Escrow.Lifecycle
import MentorsMind.Escrow.Contract
import MentorsMind.Escrow.EmergencyActions
import MentorsMind.Escrow.DisasterRecovery
import MentorsMind.Escrow.Custody
import MentorsMind.Escrow.Movements
import MentorsMind.Escrow.Invariant
import MentorsMind.Escrow.Solvency
import MentorsMind.Escrow.RollbackSafety
import MentorsMind.Escrow.Sessions
import MentorsMind.Escrow.EmergencySafety
import MentorsMind.Escrow.Changes
import MentorsMind.Escrow.Monitor
import MentorsMind.Escrow.RollbackApprovals
import MentorsMind.Escrow.SnapshotRetention
import MentorsMind.Escrow.ReleaseTiming
import MentorsMind.Escrow.SessionNonces
import MentorsMind.Escrow.TransitionLogs
import MentorsMind.Escrow.EmergencyVeto
import MentorsMind.Escrow.CircuitBreaker
import MentorsMind.Escrow.Isolation
import MentorsMind.Escrow.MilestoneProgress
import MentorsMind.Escrow.FeeBounds
import MentorsMind.Escrow.FailureTracking
import MentorsMind.Escrow.Verification
import MentorsMind.Staking.State
import MentorsMind.Staking.Settlement
import MentorsMind.Staking.Stakes
import MentorsMind.Staking.Contract
import MentorsMind.Staking.Effects
import MentorsMind.Staking.Registry
import MentorsMind.Staking.Epochs
import MentorsMind.Staking.Lockups
import MentorsMind.Staking.Eligibility
import MentorsMind.Staking.RewardConservation
import MentorsMind.Staking.Accounting
import MentorsMind.Staking.PrincipalSafety
import MentorsMind.Staking.ClaimScan
import MentorsMind.Staking.ClaimProgress
import MentorsMind.Staking.LockupClock
import MentorsMind.Staking.SettlementTime
import MentorsMind.Staking.PendingIndex
import MentorsMind.Staking.SingleReward
import MentorsMind.Staking.PenaltyPool
import MentorsMind.Staking.UnstakeSettlement
import MentorsMind.Staking.ActionHistory
import MentorsMind.MultiSig.Contract
import MentorsMind.MultiSig.Effects
import MentorsMind.MultiSig.SignerSet
import MentorsMind.MultiSig.Approvals
import MentorsMind.MultiSig.Proposals
import MentorsMind.Timelock.Contract
import MentorsMind.Timelock.Effects
import MentorsMind.Timelock.GuardianLimit
import MentorsMind.Timelock.Safety
import MentorsMind.LendingPool.Contract
import MentorsMind.LendingPool.Effects
import MentorsMind.LendingPool.LoanConservation
import MentorsMind.LendingPool.Auctions
import MentorsMind.LendingPool.Accounting
import MentorsMind.LendingPool.FlashGuard
import MentorsMind.LendingPool.Utilization
import MentorsMind.Vesting.Contract
import MentorsMind.Vesting.Effects
import MentorsMind.Vesting.ScheduleIds
import MentorsMind.Vesting.Revocation
import MentorsMind.Vesting.Curve
import MentorsMind.Vesting.CreationPaths
import MentorsMind.Vesting.MerkleClaims
import MentorsMind.MultisigAdmin.Contract
import MentorsMind.MultisigAdmin.Effects
import MentorsMind.MultisigAdmin.SignerCount
import MentorsMind.MultisigAdmin.Proposals
import MentorsMind.MultisigAdmin.Approvals
import MentorsMind.MultisigAdmin.Rollbacks
import MentorsMind.DelegationRegistry.Weights
import MentorsMind.DelegatedPower.Cache
import MentorsMind.DelegatedPower.Snapshots
import MentorsMind.Governance.Escalation
import MentorsMind.Governance.Tallies
import MentorsMind.Governance.Execution
import MentorsMind.Governance.Arbitrators
import MentorsMind.Snapshot.Integrity
import MentorsMind.VotingPower.Conservation
import MentorsMind.Treasury.Outflows
import MentorsMind.Treasury.Succession
import MentorsMind.Referral.MintCaps
import MentorsMind.Referral.Leaderboard
import MentorsMind.AdminChange.Veto
import MentorsMind.Oracle.Manipulation
import MentorsMind.Oracle.Health
import MentorsMind.PaymentRouter.Contract
import MentorsMind.PaymentRouter.Effects
import MentorsMind.PaymentRouter.Independence
import MentorsMind.Consensus.Rounds
import MentorsMind.Shared.Pagination
import MentorsMind.CrossChain.Sync
import MentorsMind.CrossChain.Lifecycle
import MentorsMind.CrossChain.Atomicity
import MentorsMind.CrossChain.Bridge
import MentorsMind.CollateralLoan.Contract
import MentorsMind.CollateralLoan.Effects
import MentorsMind.CollateralLoan.Custody
import MentorsMind.Lib.Strides
import MentorsMind.Lib.TopBoard
import MentorsMind.CollateralLoan.BotView
import MentorsMind.CollateralLoan.Liquidatability
import MentorsMind.CollateralLoan.Repayment
import MentorsMind.PredictionMarket.Contract
import MentorsMind.PredictionMarket.Payouts
import MentorsMind.PredictionMarket.Effects
import MentorsMind.PredictionMarket.Books
import MentorsMind.PredictionMarket.Accounts
import MentorsMind.PredictionMarket.Solvency
import MentorsMind.PredictionMarket.Stakes
import MentorsMind.PredictionMarket.Prices
import MentorsMind.PredictionMarket.Oracles
import MentorsMind.Bounty.Contract
import MentorsMind.Bounty.Effects
import MentorsMind.Bounty.Conservation
import MentorsMind.Subscription.Contract
import MentorsMind.Subscription.Effects
import MentorsMind.Subscription.Streams
import MentorsMind.Subscription.StreamLaw
import MentorsMind.Subscription.Renewals
import MentorsMind.Subscription.Billing
import MentorsMind.VelocityLimits.Contract
import MentorsMind.VelocityLimits.Rolling
import MentorsMind.Lib.AppendIndex
import MentorsMind.Governance.StatusListings
import MentorsMind.Isa.Contract
import MentorsMind.Isa.Effects
import MentorsMind.Isa.StatusListings
import MentorsMind.KeyManagement.Contract
import MentorsMind.KeyManagement.Effects
import MentorsMind.KeyManagement.Cooldown
import MentorsMind.KeyManagement.Recovery
import MentorsMind.Shared.PlatformAuthenticity
import MentorsMind.Shared.SigValidation
import MentorsMind.EscrowFactory.Contract
import MentorsMind.EscrowFactory.Effects
import MentorsMind.EscrowFactory.MetaTx
import MentorsMind.EscrowFactory.Deployments
import MentorsMind.SessionRegistry.Contract
import MentorsMind.SessionRegistry.DoubleBooking
import MentorsMind.CrossChain.Receiver
import MentorsMind.CrossChain.StateProofs
import MentorsMind.Shared.RecordingIntegrity
import MentorsMind.Consensus.Selection
