import MentorsMind.Shared.SafeMath

/-! Release failures with exponential backoff, evidence and approval thresholds of secure
dispute resolution, and the checks against replayed sessions and fee bypass. -/
namespace Shared
open Soroban

inductive FailureClassification where
  | temporary
  | authorization
  | policyViolation
  | stateError
  | fundsUnavailable
  | unknown
  deriving DecidableEq

inductive RecoveryState where
  | retrying
  | awaitingManualRecovery
  | escalated
  | recovered
  deriving DecidableEq

structure ReleaseFailure where
  escrowId : ℕ
  attemptNumber : ℕ
  maxAttempts : ℕ
  classification : FailureClassification
  lastFailureTime : ℕ
  nextRetryTime : ℕ
  errorHash : Hash
  recoveryState : RecoveryState
  manualRecoveryAt : ℕ
  manualRecoveryReason : Hash

def maxAutoReleaseAttempts : ℕ := 10
def manualRecoveryThreshold : ℕ := 5
def exponentialBackoffInitialSecs : ℕ := 60 * 60
def exponentialBackoffMultiplier : ℕ := 2
def exponentialBackoffMaxSecs : ℕ := 8 * 60 * 60

/-- The loop of `calculate_backoff_delay`, which stops once the factor is over the limit. -/
def backoffFactor (multiplier limit : ℕ) : ℕ → ℕ → ℕ
  | 0, factor => factor
  | n + 1, factor =>
      let next := min (factor * multiplier) (2 ^ 64 - 1)
      if limit < next then next else backoffFactor multiplier limit n next

def calculateBackoffDelay (attemptNumber initialDelay multiplier maxDelay : ℕ) : ℕ :=
  let factor := backoffFactor multiplier (maxDelay / initialDelay) (attemptNumber - 1) 1
  min (min (initialDelay * factor) (2 ^ 64 - 1)) maxDelay

def calculateNextRetry (now : ℕ) (failure : ReleaseFailure) : ℕ :=
  saturatingAddU64 now (calculateBackoffDelay failure.attemptNumber
    exponentialBackoffInitialSecs exponentialBackoffMultiplier exponentialBackoffMaxSecs)

def minEvidenceItems : ℕ := 1
def minDisputeCooldownSecs : ℕ := 24 * 3600
def escrowMultisigThreshold : ℕ := 2

structure EvidenceSufficiency where
  sufficient : Bool
  evidenceCount : ℕ
  cooldownElapsed : Bool

def validateEvidenceSufficiency (now evidenceCount disputeOpenedAt : ℕ) :
    EvidenceSufficiency :=
  let cooldownElapsed : Bool := minDisputeCooldownSecs ≤ now - disputeOpenedAt
  ⟨minEvidenceItems ≤ evidenceCount && cooldownElapsed, evidenceCount, cooldownElapsed⟩

structure EscrowMultisigApproval where
  approvals : ℕ
  thresholdMet : Bool

/-- Counts the distinct approvers. -/
def checkMultisigThreshold {Addr : Type} [DecidableEq Addr] (approvers : List Addr) :
    EscrowMultisigApproval :=
  let approvals := approvers.dedup.length
  ⟨approvals, escrowMultisigThreshold ≤ approvals⟩

structure PaymentAuditEntry where
  escrowId : ℕ
  disputeOpenedAt : ℕ
  evidenceCount : ℕ
  resolvedAt : ℕ
  isolated : Bool

def maxSessionTimeDriftSecs : ℕ := 300

def validateSessionNonce (nonce expectedNonce : ℕ) (isUsed : Bool) : Bool :=
  !isUsed && nonce == expectedNonce && 0 < nonce

/-- `is_replay` of `detect_temporal_replay`, the only field its caller reads. -/
def detectTemporalReplay (sessionTimestamp currentTimestamp maxDrift : ℕ) : Bool :=
  let drift := if sessionTimestamp ≤ currentTimestamp then currentTimestamp - sessionTimestamp
    else sessionTimestamp - currentTimestamp
  maxDrift < drift

def maxLowFeeSessionsPerPair : ℕ := 5
def lowFeeThreshold : ℤ := 100000
def requiredInteractionMinutes : ℕ := 10

/-- `is_authentic` of `verify_session_authenticity`, the only field its caller reads. -/
def verifySessionAuthenticity (interactionMinutes : ℕ) (hasValidSignature : Bool) : Bool :=
  hasValidSignature && requiredInteractionMinutes ≤ interactionMinutes

structure CollusionResult where
  isColluding : Bool
  lowFeeCount : ℕ

def detectPlatformBypass (currentLowFeeCount : ℕ) (sessionPrice : ℤ) : CollusionResult :=
  let newCount := if sessionPrice < lowFeeThreshold then saturatingAddU32 currentLowFeeCount 1
    else currentLowFeeCount
  ⟨maxLowFeeSessionsPerPair < newCount, newCount⟩

end Shared
