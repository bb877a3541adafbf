import MentorsMind.Shared.SafeMath
import MentorsMind.Soroban.Host

/-! Emergency multisig: four of seven registered signers, a 24-hour timelock, a circuit
breaker on the released share of the pool, and a role that expires after 72 hours. -/
namespace Shared
open Outcome Soroban

def emergencyTimelockSecs : ℕ := 24 * 60 * 60
def emergencyAdminTtlSecs : ℕ := 72 * 60 * 60
def emergencyCircuitWindowSecs : ℕ := 24 * 60 * 60
def emergencyReleaseCapBps : ℤ := 1000
def emergencyBpsDenom : ℤ := 10000
def emergencyMsigThreshold : ℕ := 4
def emergencyMsigSigners : ℕ := 7

structure EmergencyMultisig (Addr : Type) where
  signers : List Addr
  threshold : ℕ

structure EmergencyAdminRole (Addr : Type) where
  admin : Addr
  grantedAt : ℕ
  expiresAt : ℕ
  scope : String

structure EmergencyAction (Addr : Type) where
  id : ℕ
  actionType : String
  escrowId : ℕ
  amount : ℤ
  proposer : Addr
  reasonHash : Hash
  paramsHash : Hash
  proposedAt : ℕ
  executeAfter : ℕ
  approvalCount : ℕ
  signers : List Addr
  executed : Bool
  failed : Bool

structure EmergencyAuditRecord (Addr : Type) where
  actionId : ℕ
  actionType : String
  escrowId : ℕ
  amount : ℤ
  proposer : Addr
  participantSigners : List Addr
  reasonHash : Hash
  paramsHash : Hash
  timestamp : ℕ
  success : Bool

structure EmergencyCircuitBreaker where
  windowStart : ℕ
  releasedInWindow : ℤ

namespace MultisigValidation

variable {Addr : Type} [DecidableEq Addr]

def isValidEmergencyConfig (signers : List Addr) (threshold : ℕ) : Bool :=
  signers.length = emergencyMsigSigners ∧ threshold = emergencyMsigThreshold ∧ signers.Nodup

def isEmergencySigner (signers : List Addr) (signer : Addr) : Bool := signers.contains signer

/-- Exactly four approvals, all of them registered and no two of them equal. -/
def validateEmergencySignatures (registered approvals : List Addr) : Bool :=
  approvals.length = emergencyMsigThreshold ∧
    approvals.all (isEmergencySigner registered) ∧ approvals.Nodup

/-- The approvals after `signer` adds its own, which it can do only once. -/
def aggregateSignatures (approvals : List Addr) (signer : Addr) : List Addr :=
  if approvals.contains signer then approvals else approvals ++ [signer]

def timelockElapsed (now executeAfter : ℕ) : Bool := executeAfter ≤ now

def computeExecuteAfter (proposedAt : ℕ) (e : Trap) : Result ℕ :=
  checkedU64 (proposedAt + emergencyTimelockSecs) e

omit [DecidableEq Addr] in
def isEmergencyAdminActive (role : EmergencyAdminRole Addr) (now : ℕ) : Bool :=
  now < role.expiresAt

def computeAdminExpiry (grantedAt : ℕ) (e : Trap) : Result ℕ :=
  checkedU64 (grantedAt + emergencyAdminTtlSecs) e

def maxReleasable (poolTotal : ℤ) : ℤ :=
  if poolTotal ≤ 0 then 0
  else (saturateI128 (poolTotal * emergencyReleaseCapBps)).tdiv emergencyBpsDenom

/-- The breaker after `additional` is released, or nothing when that is over the cap. -/
def checkCircuitBreaker (state : EmergencyCircuitBreaker) (now : ℕ)
    (poolTotal additional : ℤ) : Option EmergencyCircuitBreaker :=
  let expired := emergencyCircuitWindowSecs ≤ now - state.windowStart
  let windowStart := if expired then now else state.windowStart
  let released := if expired then 0 else state.releasedInWindow
  let newTotal := saturateI128 (released + additional)
  if newTotal > maxReleasable poolTotal then none else some ⟨windowStart, newTotal⟩

theorem validateEmergencySignatures_iff {registered approvals : List Addr} :
    validateEmergencySignatures registered approvals = true ↔
      approvals.length = 4 ∧ (∀ a ∈ approvals, a ∈ registered) ∧ approvals.Nodup := by
  simp [validateEmergencySignatures, emergencyMsigThreshold, isEmergencySigner]

end MultisigValidation

end Shared

/-! The escrow record and the state machine of its status. -/
namespace Shared
open Outcome Soroban

inductive EscrowStatus where
  | pending
  | active
  | released
  | disputed
  | refunded
  | resolved
  deriving DecidableEq

namespace EscrowStatus

def isValidTransition : EscrowStatus → EscrowStatus → Bool
  | .pending, .active => true
  | .active, .released => true
  | .active, .disputed => true
  | .disputed, .resolved => true
  | .disputed, .refunded => true
  | .active, .refunded => true
  | .pending, .refunded => true
  | _, _ => false

def transition (old new : EscrowStatus) : Result EscrowStatus := do
  require (isValidTransition old new = true) (.panic "Invalid state transition")
  pure new

/-- The statuses that no valid transition leaves. -/
def IsTerminal (status : EscrowStatus) : Prop :=
  status = .released ∨ status = .refunded ∨ status = .resolved

/-- The statuses in which the contract still holds the money. -/
def IsLive (status : EscrowStatus) : Prop := status = .active ∨ status = .disputed

instance : DecidablePred IsTerminal :=
  fun s => inferInstanceAs (Decidable (s = .released ∨ s = .refunded ∨ s = .resolved))

instance : DecidablePred IsLive :=
  fun s => inferInstanceAs (Decidable (s = .active ∨ s = .disputed))

@[simp] theorem transition_eq_ok {old new final : EscrowStatus} :
    transition old new = .ok final ↔ isValidTransition old new = true ∧ new = final := by
  simp [transition]

/-- A terminal status is final. -/
theorem not_isTerminal_of_isValidTransition {old new : EscrowStatus}
    (h : isValidTransition old new = true) : ¬ old.IsTerminal := by
  cases old <;> cases new <;> simp_all [isValidTransition, IsTerminal]

theorem IsLive.not_isTerminal {status : EscrowStatus} (h : status.IsLive) :
    ¬ status.IsTerminal := by
  cases status <;> simp_all [IsLive, IsTerminal]

end EscrowStatus

structure EscrowTransitionLog (Addr : Type) where
  old : EscrowStatus
  new : EscrowStatus
  actor : Addr
  timestamp : ℕ

structure EscrowRecord (Addr : Type) where
  id : ℕ
  mentor : Addr
  learner : Addr
  amount : ℤ
  sessionId : String
  status : EscrowStatus
  createdAt : ℕ
  tokenAddress : Addr
  platformFee : ℤ
  netAmount : ℤ
  sessionEndTime : ℕ
  autoReleaseDelay : ℕ
  disputeReason : String
  resolvedAt : ℕ
  usdAmount : ℤ
  quotedTokenAmount : ℤ
  sendAsset : Addr
  destAsset : Addr
  totalSessions : ℕ
  sessionsCompleted : ℕ

end Shared

/-! Snapshots and the authorisation of emergency rollbacks. -/
namespace Shared
open Outcome Soroban

def maxSnapshots : ℕ := 3
def emergencyThreshold : ℕ := 4
def rollbackMaxWindowSecs : ℕ := 24 * 60 * 60
def rollbackCommunityReviewSecs : ℕ := 48 * 60 * 60

structure SnapshotMeta (Addr : Type) where
  createdAt : ℕ
  blockHeight : ℕ
  contractVersion : Hash
  admin : Addr
  checksum : Hash
  recordCount : ℕ
  snapshotIndex : ℕ

structure RollbackProposal (Addr : Type) where
  id : ℕ
  snapshotId : ℕ
  oldWasmHash : Hash
  approvalCount : ℕ
  executed : Bool
  createdAt : ℕ
  proposer : Addr

inductive RollbackScope (Addr : Type) where
  | escrow
  | governance
  | contract (address : Addr)

structure RollbackJustification where
  evidenceHash : Hash
  incidentHash : Hash
  descriptionHash : Hash

structure EmergencyRollback (Addr : Type) where
  id : ℕ
  snapshotId : ℕ
  oldWasmHash : Hash
  scope : RollbackScope Addr
  justification : RollbackJustification
  proposer : Addr
  proposedAt : ℕ
  reviewEndsAt : ℕ
  technicalApprovalCount : ℕ
  technicalSigners : List Addr
  governanceProposalId : Option ℕ
  governanceApproved : Bool
  executed : Bool
  rejected : Bool

structure ImmutableRollbackAuditRecord (Addr : Type) where
  rollbackId : ℕ
  snapshotId : ℕ
  evidenceHash : Hash
  preservedEmergencyAudits : ℕ
  preservedTransitionLogs : ℕ
  timestamp : ℕ
  executor : Addr
  success : Bool

/-- The index with `newId` added, and the id that falls out of the rolling window. -/
def pushSnapshotIndex (index : List ℕ) (newId : ℕ) : List ℕ × Option ℕ :=
  let pushed := index ++ [newId]
  if maxSnapshots < pushed.length then (pushed.tail, pushed.head?) else (pushed, none)

namespace RollbackAuthorization

variable {Addr : Type} [DecidableEq Addr]

def validateJustification (justification : RollbackJustification) : Bool :=
  justification.evidenceHash ≠ 0 ∧ justification.incidentHash ≠ 0

def validateScopeWindow (now snapshotCreatedAt : ℕ) : Bool :=
  snapshotCreatedAt ≤ now ∧ now - snapshotCreatedAt ≤ rollbackMaxWindowSecs

def computeReviewEndsAt (proposedAt : ℕ) (e : Trap) : Result ℕ :=
  checkedU64 (proposedAt + rollbackCommunityReviewSecs) e

def communityReviewElapsed (now reviewEndsAt : ℕ) : Bool := reviewEndsAt ≤ now

def exactTechnicalThresholdMet (count : ℕ) : Bool := count = emergencyMsigThreshold

def isRegisteredSigner (signers : List Addr) (candidate : Addr) : Bool :=
  signers.contains candidate

def aggregateTechnicalApproval (approvals : List Addr) (signer : Addr) : List Addr :=
  if approvals.contains signer then approvals else approvals ++ [signer]

def validateTechnicalSignatures (registered approvals : List Addr) : Bool :=
  approvals.length = emergencyMsigThreshold ∧
    approvals.all (isRegisteredSigner registered) ∧ approvals.Nodup

omit [DecidableEq Addr] in
def readyToExecute (rollback : EmergencyRollback Addr) (now : ℕ) : Bool :=
  !rollback.executed && !rollback.rejected && rollback.governanceApproved &&
    exactTechnicalThresholdMet rollback.technicalApprovalCount &&
    communityReviewElapsed now rollback.reviewEndsAt

end RollbackAuthorization

end Shared
