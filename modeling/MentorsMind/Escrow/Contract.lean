import MentorsMind.Escrow.Lifecycle
import MentorsMind.Escrow.DisasterRecovery

/-! Milestone escrows: funded in one go and paid out milestone by milestone. -/
namespace Escrow
open Outcome Soroban Shared

variable {Addr : Type} {self : Addr}

/-- Each milestone is checked by itself, so that none can offset another. -/
def validateMilestones : List MilestoneSpec → Result Unit
  | [] => pure ()
  | m :: ms => do
      requirePositive m.amount
      requireMax m.amount maxFinancialAmount
      validateMilestones ms

def sumMilestones : ℤ → List MilestoneSpec → Result ℤ
  | acc, [] => pure acc
  | acc, m :: ms => do
      let acc ← safeAdd acc m.amount
      sumMilestones acc ms

def loadMilestone (b : Book Addr) (id : ℕ) : Result (MilestoneEscrow Addr) :=
  expect (b.milestone id) .missingEntry

/-- The milestone of an active escrow that is still pending. -/
def pendingMilestone (escrow : MilestoneEscrow Addr) (index : ℕ) : Result MilestoneSpec := do
  require (escrow.status = .active) (.panic "Milestone escrow not active")
  let milestone ← expect escrow.milestones[index]? (.panic "Invalid milestone index")
  let currentStatus ← expect escrow.milestoneStatuses[index]? .arithmetic
  require (currentStatus = .pending) (.panic "Milestone not pending")
  pure milestone

variable [DecidableEq Addr]

def createMilestoneEscrow (inv : Invocation Addr self) (c : Config Addr) (s : Custody Addr)
    (mentor learner : Addr) (milestones : List MilestoneSpec) (tokenAddress : Addr) :
    Result (Custody Addr × ℕ) := do
  require (milestones ≠ []) (.panic "At least one milestone required")
  require (c.approvedToken tokenAddress = true) (.panic "Token not approved")
  validateMilestones milestones
  let totalAmount ← sumMilestones 0 milestones
  requirePositive totalAmount
  requireMax totalAmount maxFinancialAmount
  requireAuth inv.toEnv learner
  require (totalAmount ≤ s.tokens.balance tokenAddress learner)
    (.panic "Insufficient token balance")
  let count ← u64 (s.book.milestoneCount + 1)
  let tokens ← s.tokens.transfer inv.accepts tokenAddress learner self totalAmount
  let (status, book) ← transitionStatus inv s.book count .pending .active learner
  let escrow : MilestoneEscrow Addr := {
    id := count
    mentor := mentor
    learner := learner
    totalAmount := totalAmount
    milestones := milestones
    milestoneStatuses := milestones.map fun _ => .pending
    status := status
    createdAt := inv.timestamp
    tokenAddress := tokenAddress
    platformFee := 0
    netAmount := 0 }
  let book := { book with milestoneCount := count }
  pure ({ s with book := book.setMilestone count escrow, tokens := tokens }, count)

def completeMilestone (inv : Invocation Addr self) (c : Config Addr) (s : Custody Addr)
    (escrowId milestoneIndex : ℕ) : Result (Custody Addr) := do
  let escrow ← loadMilestone s.book escrowId
  let milestone ← pendingMilestone escrow milestoneIndex
  requireAuth inv.toEnv escrow.learner
  let quote ← computeFeeUnified inv c s.price escrow.mentor milestone.amount
  let netAmount ← safeSub milestone.amount quote.fee
  let tokens ← payRelease inv c s.tokens escrow.tokenAddress escrow.mentor quote.fee netAmount
  let statuses := escrow.milestoneStatuses.set milestoneIndex .completed
  let platformFee ← safeAdd escrow.platformFee quote.fee
  let net ← safeAdd escrow.netAmount netAmount
  let paid := { escrow with
    milestoneStatuses := statuses, platformFee := platformFee, netAmount := net }
  let s := { s with price := quote.price, tokens := tokens }
  if statuses.all (· = .completed) then do
    let (status, book) ← transitionStatus inv s.book escrow.id escrow.status .released
      escrow.learner
    pure { s with book := book.setMilestone escrowId { paid with status := status } }
  else
    pure { s with book := s.book.setMilestone escrowId paid }

def disputeMilestone (inv : Invocation Addr self) (s : Custody Addr)
    (escrowId milestoneIndex : ℕ) : Result (Custody Addr) := do
  let escrow ← loadMilestone s.book escrowId
  let _ ← pendingMilestone escrow milestoneIndex
  requireAuth inv.toEnv escrow.mentor
  requireAuth inv.toEnv escrow.learner
  let (status, book) ← transitionStatus inv s.book escrow.id escrow.status .disputed
    escrow.learner
  let disputed := { escrow with
    milestoneStatuses := escrow.milestoneStatuses.set milestoneIndex .disputed
    status := status }
  pure { s with book := book.setMilestone escrowId disputed }

end Escrow

/-! Disputes with evidence: timed actions, approvals, isolation and the secure resolution. -/
namespace Escrow
open Outcome Soroban Shared

variable {Addr : Type} {self : Addr}

/-- `get_payment_audit`. -/
def getPaymentAudit (p : Payments Addr) (escrowId : ℕ) : PaymentAuditEntry :=
  (p.audit escrowId).getD ⟨escrowId, 0, 0, 0, false⟩

/-- Appends to the action log, of which the last 20 entries are kept. -/
def logDisputeAction (p : Payments Addr) (now escrowId : ℕ) : Payments Addr :=
  let log := p.disputeActionLog escrowId
  let pushed := log ++ [now]
  { p with
    disputeActionLog :=
      Function.update p.disputeActionLog escrowId (pushed.drop (pushed.length - 20))
    audit := if log = [] then
        Function.update p.audit escrowId (some ⟨escrowId, now, 0, 0, false⟩)
      else p.audit }

variable [DecidableEq Addr]

def requireAdminForEscrow (inv : Invocation Addr self) (c : Config Addr) (caller : Addr)
    (escrowId : ℕ) (operation : String) : Result Unit := do
  let stored ← expect c.admin
    (.panic s!"{operation}: escrow contract not initialized (no admin set)")
  requireAuth inv.toEnv caller
  require (caller = stored)
    (.panic s!"{operation}: caller is not the admin for escrow {escrowId}")

def disputePayment (inv : Invocation Addr self) (s : Custody Addr) (p : Payments Addr)
    (caller : Addr) (escrowId : ℕ) (reason : String) :
    Result (Custody Addr × Payments Addr) := do
  let s ← dispute inv s caller escrowId reason
  pure (s, logDisputeAction p inv.timestamp escrowId)

def approveDisputeResolution (inv : Invocation Addr self) (p : Payments Addr)
    (approver : Addr) (escrowId : ℕ) : Result (Payments Addr × EscrowMultisigApproval) := do
  requireAuth inv.toEnv approver
  let known := p.resolutionApprovals escrowId
  let approvers := if known.contains approver then known else known ++ [approver]
  pure ({ p with
    resolutionApprovals := Function.update p.resolutionApprovals escrowId approvers },
    checkMultisigThreshold approvers)

def recordEvidenceCount (inv : Invocation Addr self) (c : Config Addr) (p : Payments Addr)
    (admin : Addr) (escrowId evidenceCount : ℕ) : Result (Payments Addr) := do
  requireAdminForEscrow inv c admin escrowId "record_evidence_count"
  pure { p with
    disputeEvidenceCount := Function.update p.disputeEvidenceCount escrowId evidenceCount }

def resolveDisputeSecure (inv : Invocation Addr self) (c : Config Addr) (s : Custody Addr)
    (p : Payments Addr) (admin : Addr) (escrowId mentorPct : ℕ) :
    Result (Custody Addr × Payments Addr) := do
  requireAdminForEscrow inv c admin escrowId "resolve_dispute_secure"
  require (p.isolated escrowId = false) (.panic "Escrow isolated pending manual review")
  let openedAt := (p.disputeActionLog escrowId).headD 0
  let evidenceCount := p.disputeEvidenceCount escrowId
  let evidence := validateEvidenceSufficiency inv.timestamp evidenceCount openedAt
  require (evidence.sufficient = true)
    (.panic "Insufficient evidence or cooldown not elapsed")
  let approval := checkMultisigThreshold (p.resolutionApprovals escrowId)
  require (approval.thresholdMet = true)
    (.panic "Multi-signature approval threshold not met")
  let p := logDisputeAction p inv.timestamp escrowId
  let s ← resolveDispute inv c p.isolated s escrowId mentorPct
  let audit := { getPaymentAudit p escrowId with
    resolvedAt := inv.timestamp, evidenceCount := evidenceCount }
  pure (s, { p with audit := Function.update p.audit escrowId (some audit) })

def emergencyIsolateEscrow (inv : Invocation Addr self) (c : Config Addr) (p : Payments Addr)
    (admin : Addr) (escrowId : ℕ) : Result (Payments Addr) := do
  requireAdminForEscrow inv c admin escrowId "emergency_isolate_escrow"
  let audit := { getPaymentAudit p escrowId with isolated := true }
  pure { p with
    isolated := Function.update p.isolated escrowId true
    audit := Function.update p.audit escrowId (some audit) }

def recoverIsolatedEscrow (inv : Invocation Addr self) (c : Config Addr) (p : Payments Addr)
    (admin : Addr) (escrowId : ℕ) : Result (Payments Addr) := do
  requireAdminForEscrow inv c admin escrowId "recover_isolated_escrow"
  pure { p with isolated := Function.update p.isolated escrowId false }

/-- No entry point ever stores a state-transition lock, so a terminal record always counts
as immutable. -/
def monitorEscrowInvariants (inv : Invocation Addr self) (b : Book Addr) (escrowId : ℕ) :
    Result EscrowInvariantReport := do
  let escrow ← loadEscrow b escrowId
  let releasedAmount := saturateI128 (escrow.platformFee + escrow.netAmount)
  let fundsConserved : Bool := 0 ≤ escrow.amount ∧ 0 ≤ escrow.platformFee ∧
    0 ≤ escrow.netAmount ∧ releasedAmount ≤ escrow.amount
  let transitionConsistent : Bool := escrow.sessionsCompleted ≤ escrow.totalSessions
  let terminalStateImmutable := true
  let treasuryConsistent : Bool :=
    if escrow.status = .released then 0 < releasedAmount ∨ escrow.amount = 0
    else escrow.platformFee ≤ escrow.amount
  let checks := [fundsConserved, transitionConsistent, terminalStateImmutable, treasuryConsistent]
  pure {
    escrowId := escrowId
    fundsConserved := fundsConserved
    transitionConsistent := transitionConsistent
    terminalStateImmutable := terminalStateImmutable
    treasuryConsistent := treasuryConsistent
    violationCount := checks.count false
    checkedAt := inv.timestamp }

def submitReview (inv : Invocation Addr self) (b : Book Addr) (caller : Addr)
    (escrowId : ℕ) : Result Unit := do
  let escrow ← loadEscrow b escrowId
  requireAuth inv.toEnv caller
  require (caller = escrow.learner) (.panic "Only learner can submit review")
  require (escrow.status = .released) (.panic "Can only review released escrows")

end Escrow

/-! The escrow contract as a machine over its whole storage and the token ledgers. Views
that write nothing are left out. -/
namespace Escrow
open Outcome Soroban Shared

/-- Entry points that only write the configuration. -/
inductive ConfigCall (Addr : Type) where
  | proposeAdminChange (newAdmin : Addr)
  | acceptAdminRole (newAdmin : Addr)
  | revokeAdminEmergency (newAdmin : Addr)
  | updateFee (newFeeBps : ℕ)
  | setLiquidityPool (poolAddress : Addr)
  | setDynamicFeeEnabled (enabled : Bool)
  | updateTreasury (newTreasury : Addr)
  | setApprovedToken (tokenAddress : Addr) (approved : Bool)
  | setFeeSchedule (admin : Addr) (schedule : FeeSchedule)
  | updateFeeSchedule (admin : Addr) (tier0Bps tier1Bps tier2Bps tier3Bps : Option ℕ)
      (volumeDiscountThreshold : Option ℤ) (volumeDiscountBps : Option ℕ)
  | setInterfaceRegistry (admin registry : Addr)
  | setStakingContract (admin staking : Addr)
  | setReputationContract (admin reputation : Addr)
  | setInsuranceContract (admin insurance : Addr)
  | setMultisigAdmin (admin multisigAdmin : Addr)
  | setGovernanceContract (admin governance : Addr)

/-- Entry points that only write escrows and move tokens. -/
inductive CustodyCall (Addr : Type) where
  | getDynamicFee
  | computePlatformFee (mentor : Addr) (amount : ℤ)
  | createEscrow (mentor learner : Addr) (amount : ℤ) (sessionId : String)
      (tokenAddress : Addr) (sessionEndTime totalSessions : ℕ)
  | createEscrowUsd (usdAmount : ℤ)
  | createEscrowWithPathPayment (learner mentor sendAsset : Addr) (sendMax : ℤ)
      (destAsset : Addr) (destAmount : ℤ) (totalSessions : ℕ)
  | releaseFunds (caller : Addr) (escrowId : ℕ)
  | releasePartial (caller : Addr) (escrowId : ℕ)
  | batchRelease (admin : Addr) (escrowId sessionsToRelease : ℕ)
  | adminRelease (escrowId : ℕ)
  | dispute (caller : Addr) (escrowId : ℕ) (reason : String)
  | resolveDispute (escrowId mentorPct : ℕ)
  | refund (escrowId : ℕ)
  | createMilestoneEscrow (mentor learner : Addr) (milestones : List MilestoneSpec)
      (tokenAddress : Addr)
  | completeMilestone (escrowId milestoneIndex : ℕ)
  | disputeMilestone (escrowId milestoneIndex : ℕ)

/-- Entry points that only write snapshots and rollback proposals. -/
inductive RecoveryCall (Addr : Type) where
  | snapshotState (admin : Addr) (snapshotId : ℕ)
  | proposeEmergencyRollback (proposer : Addr) (snapshotId : ℕ) (oldWasmHash : Hash)
      (scope : RollbackScope Addr) (justification : RollbackJustification)
  | proposeRollback (proposer : Addr) (snapshotId : ℕ) (oldWasmHash : Hash)
  | approveTechnicalRollback (signer : Addr) (proposalId : ℕ)
  | linkGovernanceRollbackReview (governance : Addr) (rollbackId governanceProposalId : ℕ)
  | markGovRollbackApproved (governance : Addr) (rollbackId governanceProposalId : ℕ)
  | preserveAuditData (proposalId : ℕ)

/-- Entry points that only write the payment-integrity records. -/
inductive PaymentsCall (Addr : Type) where
  | approveDisputeResolution (approver : Addr) (escrowId : ℕ)
  | recordEvidenceCount (admin : Addr) (escrowId evidenceCount : ℕ)
  | emergencyIsolateEscrow (admin : Addr) (escrowId : ℕ)
  | recoverIsolatedEscrow (admin : Addr) (escrowId : ℕ)

inductive Call (Addr : Type) where
  | initializeEscrow (admin treasury : Addr) (feeBps : ℕ) (approvedTokens : List Addr)
      (autoReleaseDelaySecs : ℕ)
  | config (call : ConfigCall Addr)
  | custody (call : CustodyCall Addr)
  | recovery (call : RecoveryCall Addr)
  | payments (call : PaymentsCall Addr)
  | tryAutoRelease (escrowId : ℕ)
  | reportStuckEscrow (reporter : Addr) (escrowId : ℕ)
  | manualRecoveryRelease (escrowId : ℕ) (recoveryReasonHash : Hash)
  | setEmergencySigners (admin : Addr) (signers : List Addr)
  | grantEmergencyAdmin (admin emergencyAdmin : Addr)
  | proposeEmergencyAction (proposer : Addr) (escrowId : ℕ) (reasonHash : Hash)
  | approveEmergencyAction (signer : Addr) (actionId : ℕ)
  | executeEmergencyAction (caller : Addr) (actionId : ℕ)
  | emergencyRelease (caller : Addr) (escrowId : ℕ) (reasonHash : Hash) (actionId : ℕ)
  | emergencyRollback (proposalId : ℕ) (executor : Addr)
  | rollbackToSnapshot (proposalId : ℕ)
  | disputePayment (caller : Addr) (escrowId : ℕ) (reason : String)
  | resolveDisputeSecure (admin : Addr) (escrowId mentorPct : ℕ)
  | submitReview (caller : Addr) (escrowId : ℕ) (reason : String)
  | monitorEscrowInvariants (escrowId : ℕ)
  /-- Not an entry point: a token moves between other holders. -/
  | tokenActivity (token holder : Addr) (balance : ℤ)

variable {Addr : Type} [DecidableEq Addr] {self : Addr}

def execConfig (inv : Invocation Addr self) (call : ConfigCall Addr) (c : Config Addr) :
    Result (Config Addr) :=
  match call with
  | .proposeAdminChange newAdmin => proposeAdminChange inv c newAdmin
  | .acceptAdminRole newAdmin => acceptAdminRole inv c newAdmin
  | .revokeAdminEmergency newAdmin => revokeAdminEmergency inv c newAdmin
  | .updateFee newFeeBps => updateFee inv c newFeeBps
  | .setLiquidityPool poolAddress => setLiquidityPool inv c poolAddress
  | .setDynamicFeeEnabled enabled => setDynamicFeeEnabled inv c enabled
  | .updateTreasury newTreasury => updateTreasury inv c newTreasury
  | .setApprovedToken tokenAddress approved => setApprovedToken inv c tokenAddress approved
  | .setFeeSchedule admin schedule => setFeeSchedule inv c admin schedule
  | .updateFeeSchedule admin t0 t1 t2 t3 threshold discount =>
      updateFeeSchedule inv c admin t0 t1 t2 t3 threshold discount
  | .setInterfaceRegistry admin registry => setInterfaceRegistry inv c admin registry
  | .setStakingContract admin staking => setStakingContract inv c admin staking
  | .setReputationContract admin reputation => setReputationContract inv c admin reputation
  | .setInsuranceContract admin insurance => setInsuranceContract inv c admin insurance
  | .setMultisigAdmin admin multisigAdmin => setMultisigAdmin inv c admin multisigAdmin
  | .setGovernanceContract admin governance => setGovernanceContract inv c admin governance

def execCustody (inv : Invocation Addr self) (digests : Digests) (c : Config Addr)
    (isolated : ℕ → Bool) (call : CustodyCall Addr) (s : Custody Addr) :
    Result (Custody Addr) :=
  match call with
  | .getDynamicFee => do
      let (_, price) ← getDynamicFee inv c s.price
      pure { s with price := price }
  | .computePlatformFee mentor amount => do
      let quote ← computeFeeUnified inv c s.price mentor amount
      pure { s with price := quote.price }
  | .createEscrow mentor learner amount sessionId token sessionEndTime totalSessions => do
      let created ← createEscrow inv digests c s mentor learner amount sessionId token
        sessionEndTime totalSessions
      pure created.1
  | .createEscrowUsd usdAmount => do
      let created ← createEscrowUsd s usdAmount
      pure created.1
  | .createEscrowWithPathPayment learner mentor sendAsset sendMax destAsset destAmount
      totalSessions => do
      let created ← createEscrowWithPathPayment inv digests c s learner mentor sendAsset
        sendMax destAsset destAmount totalSessions
      pure created.1
  | .releaseFunds caller escrowId => releaseFunds inv c isolated s caller escrowId
  | .releasePartial caller escrowId => releasePartial inv c s caller escrowId
  | .batchRelease admin escrowId sessions => batchRelease inv c s admin escrowId sessions
  | .adminRelease escrowId => adminRelease inv c s escrowId
  | .dispute caller escrowId reason => dispute inv s caller escrowId reason
  | .resolveDispute escrowId mentorPct => resolveDispute inv c isolated s escrowId mentorPct
  | .refund escrowId => refund inv c s escrowId
  | .createMilestoneEscrow mentor learner milestones tokenAddress => do
      let created ← createMilestoneEscrow inv c s mentor learner milestones tokenAddress
      pure created.1
  | .completeMilestone escrowId index => completeMilestone inv c s escrowId index
  | .disputeMilestone escrowId index => disputeMilestone inv s escrowId index

def execRecovery (inv : Invocation Addr self) (digests : Digests) (s : State Addr)
    (call : RecoveryCall Addr) : Result (Recovery Addr) :=
  match call with
  | .snapshotState admin snapshotId =>
      snapshotState inv digests s.config s.custody.book s.recovery admin snapshotId
  | .proposeEmergencyRollback proposer snapshotId oldWasmHash scope justification => do
      let proposed ← proposeEmergencyRollback inv s.emergency s.recovery proposer snapshotId
        oldWasmHash scope justification
      pure proposed.1
  | .proposeRollback proposer snapshotId oldWasmHash => do
      let proposed ← proposeRollback inv s.emergency s.recovery proposer snapshotId oldWasmHash
      pure proposed.1
  | .approveTechnicalRollback signer proposalId =>
      approveTechnicalRollback inv s.emergency s.recovery signer proposalId
  | .linkGovernanceRollbackReview governance rollbackId governanceProposalId =>
      linkGovernanceRollbackReview inv s.config s.recovery governance rollbackId
        governanceProposalId
  | .markGovRollbackApproved governance rollbackId governanceProposalId =>
      markGovRollbackApproved inv s.config s.recovery governance rollbackId
        governanceProposalId
  | .preserveAuditData proposalId => do
      let preserved ← preserveAuditData s.custody.book s.emergency s.recovery proposalId
      pure preserved.1

def execPayments (inv : Invocation Addr self) (c : Config Addr) (call : PaymentsCall Addr)
    (p : Payments Addr) : Result (Payments Addr) :=
  match call with
  | .approveDisputeResolution approver escrowId => do
      let approved ← approveDisputeResolution inv p approver escrowId
      pure approved.1
  | .recordEvidenceCount admin escrowId evidenceCount =>
      recordEvidenceCount inv c p admin escrowId evidenceCount
  | .emergencyIsolateEscrow admin escrowId => emergencyIsolateEscrow inv c p admin escrowId
  | .recoverIsolatedEscrow admin escrowId => recoverIsolatedEscrow inv c p admin escrowId

omit [DecidableEq Addr] in
/-- The storage after an emergency execution. -/
def State.afterExecution (s : State Addr) (x : Execution Addr) : State Addr :=
  { s with custody := x.custody, failures := x.failures, emergency := x.emergency }

omit [DecidableEq Addr] in
/-- The storage after a rollback. -/
def State.afterRollback (s : State Addr) (x : Book Addr × Recovery Addr × Bool) :
    State Addr :=
  { s with custody := { s.custody with book := x.1 }, recovery := x.2.1 }

def exec (digests : Digests) (inv : Invocation Addr self) (call : Call Addr)
    (s : State Addr) : Result (State Addr) :=
  match call with
  | .initializeEscrow admin treasury feeBps approvedTokens delay => do
      let c ← initializeConfig s.config admin treasury feeBps approvedTokens delay
      let book := { s.custody.book with escrowCount := 0, milestoneCount := 0 }
      pure { s with config := c, custody := { s.custody with book := book } }
  | .config call => do
      let c ← execConfig inv call s.config
      pure { s with config := c }
  | .custody call => do
      let custody ← execCustody inv digests s.config s.payments.isolated call s.custody
      pure { s with custody := custody }
  | .recovery call => do
      let r ← execRecovery inv digests s call
      pure { s with recovery := r }
  | .payments call => do
      let p ← execPayments inv s.config call s.payments
      pure { s with payments := p }
  | .tryAutoRelease escrowId => do
      let (custody, f) ← tryAutoRelease inv s.config s.custody s.failures escrowId
      pure { s with custody := custody, failures := f }
  | .reportStuckEscrow reporter escrowId => do
      let f ← reportStuckEscrow inv s.custody.book s.failures reporter escrowId
      pure { s with failures := f }
  | .manualRecoveryRelease escrowId reasonHash => do
      let (custody, f) ← manualRecoveryRelease inv s.config s.custody s.failures escrowId
        reasonHash
      pure { s with custody := custody, failures := f }
  | .setEmergencySigners admin signers => do
      let em ← setEmergencySigners inv s.config s.emergency admin signers
      pure { s with emergency := em }
  | .grantEmergencyAdmin admin emergencyAdmin => do
      let em ← grantEmergencyAdmin inv s.config s.emergency admin emergencyAdmin
      pure { s with emergency := em }
  | .proposeEmergencyAction proposer escrowId reasonHash => do
      let (em, _) ← proposeEmergencyAction inv digests s.custody.book s.failures s.emergency
        proposer escrowId reasonHash
      pure { s with emergency := em }
  | .approveEmergencyAction signer actionId => do
      let em ← approveEmergencyAction inv s.emergency signer actionId
      pure { s with emergency := em }
  | .executeEmergencyAction caller actionId => do
      let x ← executeEmergencyAction inv s.config s.custody s.failures s.emergency caller
        actionId
      pure (s.afterExecution x)
  | .emergencyRelease caller escrowId reasonHash actionId => do
      let x ← emergencyRelease inv s.config s.custody s.failures s.emergency caller escrowId
        reasonHash actionId
      pure (s.afterExecution x)
  | .emergencyRollback proposalId executor => do
      let x ← emergencyRollback inv s.custody.book s.emergency s.recovery proposalId executor
      pure (s.afterRollback x)
  | .rollbackToSnapshot proposalId => do
      let x ← rollbackToSnapshot inv s.custody.book s.emergency s.recovery proposalId
      pure (s.afterRollback x)
  | .disputePayment caller escrowId reason => do
      let (custody, p) ← disputePayment inv s.custody s.payments caller escrowId reason
      pure { s with custody := custody, payments := p }
  | .resolveDisputeSecure admin escrowId mentorPct => do
      let (custody, p) ← resolveDisputeSecure inv s.config s.custody s.payments admin escrowId
        mentorPct
      pure { s with custody := custody, payments := p }
  | .submitReview caller escrowId reason => do
      submitReview inv s.custody.book caller escrowId
      pure { s with review := Function.update s.review escrowId (some reason) }
  | .monitorEscrowInvariants escrowId => do
      let report ← monitorEscrowInvariants inv s.custody.book escrowId
      pure { s with invariantReport := Function.update s.invariantReport escrowId (some report) }
  | .tokenActivity token holder balance => do
      require (holder ≠ self ∧ 0 ≤ balance) .subcall
      let balances := Function.update s.custody.tokens.balance token
        (Function.update (s.custody.tokens.balance token) holder balance)
      let tokens := { s.custody.tokens with balance := balances }
      pure { s with custody := { s.custody with tokens := tokens } }

abbrev Step (Addr : Type) (self : Addr) := Invocation Addr self × Call Addr

/-- The deployed contract, under the digests that the host computes. -/
def machine (self : Addr) (digests : Digests) : Machine (State Addr) (Step Addr self) Trap where
  exec step := exec digests step.1 step.2

/-- An invocation at time `now` that every account signed and no other contract refuses. -/
def grantedByAll (now : ℕ) : Invocation ℕ 0 where
  toEnv := signedByAll now
  accepts _ := true
  tier _ _ := some 0
  verify _ _ _ := some true
  onSessionReleased _ _ _ _ _ := true
  coverageRatio _ := some 1

/-- Address 3 owns 100 units of the token 9, and nobody else owns anything. -/
def learnerFunds : ℕ → ℕ → ℤ := fun token holder => if token = 9 ∧ holder = 3 then 100 else 0

/-- Digests simple enough to run the machine with. -/
def lengthDigests : Digests where
  session sessionId := sessionId.length
  params _ escrowId _ _ := escrowId
  checksum _ _ _ recordCount := recordCount

end Escrow
