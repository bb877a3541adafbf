import MentorsMind.Shared.SafeMath

/-! The governance contract: proposals on which a snapshot of stakes and delegations votes, that
are executed at once or through the timelock, and that the admin may cancel. The titles and the
hashes of proposals, the alerts on suspicious votes, market protection, validators and the
lifetimes of entries are left out; arbitrators and appeals have a module of their own. -/
namespace Governance
open Outcome Soroban Shared

inductive Error where
  | notInitialized
  | unauthorized
  | noPendingAdminChange
  | adminChangeNotYetEffective
  | invalidAdminChange
  | tooManyActiveProposals
  | holdingPeriodNotMet

def Error.code : Error → ℕ
  | .notInitialized => 2
  | .unauthorized => 3
  | .noPendingAdminChange => 4
  | .adminChangeNotYetEffective => 5
  | .invalidAdminChange => 6
  | .tooManyActiveProposals => 8
  | .holdingPeriodNotMet => 9

def Error.trap (e : Error) : Trap := .contractError e.code

def defaultVotingPeriodSecs : ℕ := 7 * 24 * 60 * 60
def defaultQuorumBps : ℕ := 1000
def customProposalQuorumBps : ℕ := 3000
def rollbackGovernanceQuorumBps : ℕ := 5000
def executeCallTimelockSecs : ℕ := 7 * 24 * 60 * 60
def cancelCooldownSecs : ℕ := 7 * 24 * 60 * 60
def cancelEscalationWindowSecs : ℕ := 30 * 24 * 60 * 60
def cancelEscalationThreshold : ℕ := 3
def earlyWindowEndBps : ℕ := 3300
def earlyWeightBps : ℕ := 8000
def midWindowEndBps : ℕ := 6600
def midWeightBps : ℕ := 10000
def lateWeightBps : ℕ := 11000
def adminChangeTimelock : ℕ := 48 * 60 * 60
def minHoldingPeriodSecs : ℕ := 7 * 24 * 60 * 60

/-- The delay that `execute_proposal` asks the timelock for. -/
def scheduleDelay : ℕ := 48 * 60 * 60

inductive ProposalAction (Addr : Type) where
  | updateFee (newFeeBps : ℕ)
  | updateAutoRelease (newDelay : ℕ)
  | addAsset (asset : Addr)
  | updateAdmin (newAdmin : Addr)
  | executeCall (target : Addr) (function : String) (args : List ℕ)
  | approveEmergencyRollback (escrow : Addr) (rollbackId : ℕ)
  deriving DecidableEq

inductive ProposalStatus where
  | active
  | passed
  | queued
  | failed
  | executed
  | cancelled
  deriving DecidableEq

/-- How the status prints in the message of a panic. -/
def ProposalStatus.debug : ProposalStatus → String
  | .active => "Active"
  | .passed => "Passed"
  | .queued => "Queued"
  | .failed => "Failed"
  | .executed => "Executed"
  | .cancelled => "Cancelled"

def ProposalStatus.isValidTransition : ProposalStatus → ProposalStatus → Bool
  | .active, .passed => true
  | .active, .failed => true
  | .active, .cancelled => true
  | .passed, .queued => true
  | .passed, .executed => true
  | .queued, .executed => true
  | _, _ => false

structure Proposal (Addr : Type) where
  id : ℕ
  proposer : Addr
  action : ProposalAction Addr
  status : ProposalStatus
  createdAt : ℕ
  votingEndsAt : ℕ
  snapshotLedger : ℕ
  totalSupplySnapshot : ℤ
  votesFor : ℤ
  votesAgainst : ℤ
  timelockOpId : Hash
  deriving DecidableEq

structure PendingAdminChange (Addr : Type) where
  newAdmin : Addr
  effectiveAt : ℕ

/-- What is read of the record that `get_proposal` of the multisig answers. -/
structure MultisigProposalInfo where
  approvalCount : ℕ
  expiry : ℕ
  executed : Bool
  cancelled : Bool

structure VotingWindow where
  window : ℕ
  weightBps : ℕ
  deriving DecidableEq

/-- The calls to other contracts that change something there, the snapshot and the multisig
apart. -/
inductive ContractCall (Addr : Type) where
  /-- An `ExecuteCall`, which passes no arguments on. -/
  | execute (target : Addr) (function : String)
  | markGovRollbackApproved (escrow : Addr) (rollbackId proposalId : ℕ)
  | linkGovernanceRollbackReview (escrow : Addr) (rollbackId proposalId : ℕ)
  /-- Asks the timelock to call `execute_queued_proposal` after the delay. -/
  | schedule (timelock : Addr) (proposalId delay : ℕ)
  deriving DecidableEq

/-- One change of a proposal's status. -/
structure StatusChange where
  id : ℕ
  source : ProposalStatus
  target : ProposalStatus
  deriving DecidableEq

/-- One field for each storage key. An absent count or amount reads as zero, an absent flag as
false, an absent list as the empty one. Three logs that no key stores, latest first: the calls to
other contracts, the actions that `apply_action` carried out, and the changes of statuses. -/
structure State (Addr : Type) where
  admin : Option Addr
  persistentAdmin : Option Addr
  snapshotContract : Option Addr
  delegationContract : Option Addr
  votingPeriodSecs : Option ℕ
  quorumBps : Option ℕ
  proposalDepositAmount : ℤ
  minProposerBalance : ℤ
  maxActiveProposals : Option ℕ
  proposalCount : ℕ
  pendingAdmin : Option (PendingAdminChange Addr)
  timelock : Option Addr
  templates : Option Addr
  stakingContract : Option Addr
  multisigAdmin : Option Addr
  allowedCall : Addr × String → Bool
  proposal : ℕ → Option (Proposal Addr)
  customProposal : ℕ → Bool
  activeProposalCount : ℕ
  perAddressActiveProposalCount : Addr → ℕ
  proposalDeposit : ℕ → ℤ
  treasuryBalance : ℤ
  vote : ℕ × Addr → Option Bool
  voteWeight : ℕ × Addr → ℤ
  voteWeightMultiplier : ℕ × Addr → ℕ
  weightedVotesFor : ℕ → Option ℤ
  weightedVotesAgainst : ℕ → Option ℤ
  cancelCooldown : Addr × ProposalAction Addr → Option ℕ
  cancelCount : Addr → ℕ
  cancelTimestamps : Addr → List ℕ
  proposalsByStatus : ProposalStatus × ℕ → Option ℕ
  proposalStatusCount : ProposalStatus → ℕ
  currentFeeBps : Option ℕ
  currentAutoReleaseSecs : Option ℕ
  approvedAsset : Addr → Bool
  invoked : List (ContractCall Addr)
  applied : List (ℕ × ProposalAction Addr)
  statusChanges : List StatusChange

def deployed (Addr : Type) : State Addr where
  admin := none
  persistentAdmin := none
  snapshotContract := none
  delegationContract := none
  votingPeriodSecs := none
  quorumBps := none
  proposalDepositAmount := 0
  minProposerBalance := 0
  maxActiveProposals := none
  proposalCount := 0
  pendingAdmin := none
  timelock := none
  templates := none
  stakingContract := none
  multisigAdmin := none
  allowedCall _ := false
  proposal _ := none
  customProposal _ := false
  activeProposalCount := 0
  perAddressActiveProposalCount _ := 0
  proposalDeposit _ := 0
  treasuryBalance := 0
  vote _ := none
  voteWeight _ := 0
  voteWeightMultiplier _ := 0
  weightedVotesFor _ := none
  weightedVotesAgainst _ := none
  cancelCooldown _ := none
  cancelCount _ := 0
  cancelTimestamps _ := []
  proposalsByStatus _ := none
  proposalStatusCount _ := 0
  currentFeeBps := none
  currentAutoReleaseSecs := none
  approvedAsset _ := false
  invoked := []
  applied := []
  statusChanges := []

/-- One invocation: the ledger, the signers, and what the contract at an address answers. A call
that traps answers `none`, or `false` where only success counts. -/
structure Invocation (Addr : Type) (home : Addr) extends Env Addr home where
  recordSnapshot : Addr → ℕ → Bool
  totalSupplyAt : Addr → ℕ → Option ℤ
  snapshotBalance : Addr → ℕ → Addr → Option ℤ
  votingPower : Addr → ℕ → Addr → Option ℤ
  delegatedPowerAtSnapshot : Addr → Addr → ℕ → Option ℤ
  /-- The `staked_at` of `get_stake`. -/
  stakedAt : Addr → Addr → Option ℕ
  templateHash : Addr → Addr → String → Option (Option Hash)
  accepts : ContractCall Addr → Bool
  /-- The id that `schedule` of a timelock returns for a proposal. -/
  scheduledId : Addr → ℕ → Hash
  multisigProposal : Addr → ℕ → Option MultisigProposalInfo
  multisigThreshold : Addr → Option ℕ
  multisigExecutes : Addr → ℕ → Bool

variable {Addr : Type} {self : Addr}

def State.setProposal (s : State Addr) (id : ℕ) (p : Proposal Addr) : State Addr :=
  { s with proposal := Function.update s.proposal id (some p) }

def getProposal (s : State Addr) (id : ℕ) : Result (Proposal Addr) :=
  expect (s.proposal id) (.panic "proposal not found")

/-- Panics unless the change is valid, and appends the proposal to the index of its new status. -/
def transitionProposalStatus (s : State Addr) (p : Proposal Addr) (next : ProposalStatus) :
    Result (State Addr × Proposal Addr) := do
  require (p.status.isValidTransition next = true)
    (.panic ("invalid transition from " ++ p.status.debug ++ " to " ++ next.debug))
  let newCount := s.proposalStatusCount next
  let nextCount ← u32 (newCount + 1)
  pure ({ s with
    proposalsByStatus := Function.update s.proposalsByStatus (next, newCount) (some p.id)
    proposalStatusCount := Function.update s.proposalStatusCount next nextCount
    statusChanges := ⟨p.id, p.status, next⟩ :: s.statusChanges }, { p with status := next })

section Settings

/-- The entry point `initialize`, which asks for no authorisation. -/
def initializeGovernance (s : State Addr) (admin snapshotContract delegationContract : Addr)
    (votingPeriodSecs quorumBps : Option ℕ) (proposalDeposit minProposerBalance : Option ℤ)
    (maxActiveProposals : Option ℕ) : Result (State Addr) := do
  require (s.admin = none) (.panic "already initialized")
  let period := votingPeriodSecs.getD defaultVotingPeriodSecs
  require (period ≠ 0) (.panic "invalid voting period")
  let quorum := quorumBps.getD defaultQuorumBps
  require (quorum ≠ 0 ∧ quorum ≤ 10000) (.panic "invalid quorum bps")
  pure { s with
    admin := some admin
    persistentAdmin := some admin
    snapshotContract := some snapshotContract
    delegationContract := some delegationContract
    votingPeriodSecs := some period
    quorumBps := some quorum
    proposalCount := 0
    proposalDepositAmount := proposalDeposit.getD 0
    minProposerBalance := minProposerBalance.getD 0
    maxActiveProposals := some (maxActiveProposals.getD 3) }

variable [DecidableEq Addr]

def proposeAdminChange (inv : Invocation Addr self) (s : State Addr)
    (currentAdmin newAdmin : Addr) : Result (State Addr) := do
  requireAuth inv.toEnv currentAdmin
  let stored ← expect s.admin Error.notInitialized.trap
  require (stored = currentAdmin) Error.unauthorized.trap
  let effectiveAt ← checkedU64 (inv.timestamp + adminChangeTimelock) Error.invalidAdminChange.trap
  pure { s with pendingAdmin := some ⟨newAdmin, effectiveAt⟩ }

def acceptAdminChange (inv : Invocation Addr self) (s : State Addr) (newAdmin : Addr) :
    Result (State Addr) := do
  requireAuth inv.toEnv newAdmin
  let pending ← expect s.pendingAdmin Error.noPendingAdminChange.trap
  require (pending.newAdmin = newAdmin) Error.unauthorized.trap
  require (pending.effectiveAt ≤ inv.timestamp) Error.adminChangeNotYetEffective.trap
  pure { s with admin := some newAdmin, persistentAdmin := some newAdmin, pendingAdmin := none }

omit [DecidableEq Addr] in
/-- Any address that signs may cancel. -/
def cancelAdminChange (inv : Invocation Addr self) (s : State Addr) (multisig : Addr) :
    Result (State Addr) := do
  requireAuth inv.toEnv multisig
  require s.pendingAdmin.isSome Error.noPendingAdminChange.trap
  pure { s with pendingAdmin := none }

omit [DecidableEq Addr] in
def setTimelock (inv : Invocation Addr self) (s : State Addr) (timelock : Addr) :
    Result (State Addr) := do
  let admin ← expect s.admin .missingEntry
  requireAuth inv.toEnv admin
  pure { s with timelock := some timelock }

def assertAdmin (inv : Invocation Addr self) (s : State Addr) (admin : Addr) : Result Unit := do
  requireAuth inv.toEnv admin
  let stored ← expect s.admin (.panic "not initialized")
  require (stored = admin) (.panic "unauthorized")

def addAllowedCall (inv : Invocation Addr self) (s : State Addr) (admin target : Addr)
    (function : String) : Result (State Addr) := do
  assertAdmin inv s admin
  pure { s with allowedCall := Function.update s.allowedCall (target, function) true }

omit [DecidableEq Addr] in
def setTemplatesContract (inv : Invocation Addr self) (s : State Addr)
    (templatesContract : Addr) : Result (State Addr) := do
  let admin ← expect s.persistentAdmin .missingEntry
  requireAuth inv.toEnv admin
  pure { s with templates := some templatesContract }

def setStakingContract (inv : Invocation Addr self) (s : State Addr)
    (admin stakingContract : Addr) : Result (State Addr) := do
  assertAdmin inv s admin
  pure { s with stakingContract := some stakingContract }

def setMultisigAdmin (inv : Invocation Addr self) (s : State Addr) (admin multisigAdmin : Addr) :
    Result (State Addr) := do
  assertAdmin inv s admin
  pure { s with multisigAdmin := some multisigAdmin }

end Settings

section Creation

variable [DecidableEq Addr]

/-- No-op until a staking contract is configured. Who has no stake counts as having just
staked. -/
def requireHoldingPeriod (inv : Invocation Addr self) (s : State Addr) (proposer : Addr) :
    Result Unit :=
  match s.stakingContract with
  | none => pure ()
  | some stakingContract => do
      let stakedAt := (inv.stakedAt stakingContract proposer).getD inv.timestamp
      require (saturatingAddU64 stakedAt minHoldingPeriodSecs ≤ inv.timestamp)
        Error.holdingPeriodNotMet.trap

/-- An `ExecuteCall` has to name a call of the allowlist. -/
def requireAllowedCall (s : State Addr) : ProposalAction Addr → Result Unit
  | .executeCall target function _ =>
      require (s.allowedCall (target, function) = true) (.panic "call not allowlisted")
  | _ => pure ()

/-- An `ExecuteCall` without a template is a custom proposal. -/
def markCustomProposal (inv : Invocation Addr self) (s : State Addr) (id : ℕ) :
    ProposalAction Addr → Result (State Addr)
  | .executeCall target function _ =>
      match s.templates with
      | none => pure s
      | some templatesContract => do
          let hash ← expect (inv.templateHash templatesContract target function) .subcall
          pure (if hash = none then
            { s with customProposal := Function.update s.customProposal id true } else s)
  | _ => pure s

omit [DecidableEq Addr] in
def requireProposerBalance (inv : Invocation Addr self) (s : State Addr) (snapshotContract : Addr)
    (id : ℕ) (proposer : Addr) : Result Unit :=
  if 0 < s.minProposerBalance then do
    let balance ← expect (inv.snapshotBalance snapshotContract id proposer) .subcall
    require (s.minProposerBalance ≤ balance) (.panic "insufficient proposer balance at snapshot")
  else pure ()

/-- `create_proposal` returns the id of the proposal. -/
def createProposal (inv : Invocation Addr self) (s : State Addr) (proposer : Addr)
    (action : ProposalAction Addr) : Result (State Addr × ℕ) := do
  requireAuth inv.toEnv proposer
  require (s.admin ≠ none) (.panic "not initialized")
  requireAllowedCall s action
  requireHoldingPeriod inv s proposer
  let maxActive := s.maxActiveProposals.getD 3
  require (s.activeProposalCount < maxActive) Error.tooManyActiveProposals.trap
  require (s.perAddressActiveProposalCount proposer < maxActive)
    Error.tooManyActiveProposals.trap
  let count ← checkedU32 (s.proposalCount + 1) (.panic "proposal overflow")
  let marked ← markCustomProposal inv s count action
  let snapshotContract ← expect s.snapshotContract (.panic "snapshot not set")
  require (inv.recordSnapshot snapshotContract count = true) .subcall
  let totalSupplySnapshot ← expect (inv.totalSupplyAt snapshotContract count) .subcall
  let votingEndsAt ← checkedU64
    (inv.timestamp + s.votingPeriodSecs.getD defaultVotingPeriodSecs)
    (.panic "voting end overflow")
  requireProposerBalance inv s snapshotContract count proposer
  let p : Proposal Addr := {
    id := count
    proposer := proposer
    action := action
    status := .active
    createdAt := inv.timestamp
    votingEndsAt := votingEndsAt
    snapshotLedger := inv.sequence
    totalSupplySnapshot := totalSupplySnapshot
    votesFor := 0
    votesAgainst := 0
    timelockOpId := 0 }
  pure ({ marked.setProposal count p with
    proposalCount := count
    perAddressActiveProposalCount :=
      Function.update s.perAddressActiveProposalCount proposer
        (s.perAddressActiveProposalCount proposer + 1)
    activeProposalCount := s.activeProposalCount + 1
    proposalDeposit :=
      if 0 < s.proposalDepositAmount then
        Function.update s.proposalDeposit count s.proposalDepositAmount
      else s.proposalDeposit }, count)

/-- `propose_rollback_review` returns the id of the proposal. -/
def proposeRollbackReview (inv : Invocation Addr self) (s : State Addr)
    (proposer escrowContract : Addr) (escrowRollbackId : ℕ) : Result (State Addr × ℕ) := do
  requireAuth inv.toEnv proposer
  let (created, proposalId) ←
    createProposal inv s proposer (.approveEmergencyRollback escrowContract escrowRollbackId)
  let call : ContractCall Addr :=
    .linkGovernanceRollbackReview escrowContract escrowRollbackId proposalId
  require (inv.accepts call = true) .subcall
  pure ({ created with
    customProposal := Function.update created.customProposal proposalId true
    invoked := call :: created.invoked }, proposalId)

end Creation

section Voting

def requireActiveProposal (inv : Invocation Addr self) (p : Proposal Addr) : Result Unit := do
  require (p.status = .active) (.panic "proposal not active")
  require (inv.timestamp < p.votingEndsAt) (.panic "voting period ended")

/-- How far the voting period has come decides what a vote counts for. -/
def getVotingWindow (inv : Invocation Addr self) (p : Proposal Addr) : VotingWindow :=
  let elapsed := inv.timestamp - p.createdAt
  let total := p.votingEndsAt - p.createdAt
  if total = 0 then ⟨1, midWeightBps⟩
  else
    let pctBps := (if elapsed * 10000 < 2 ^ 64 then elapsed * 10000 else 0) / total
    if pctBps ≤ earlyWindowEndBps then ⟨0, earlyWeightBps⟩
    else if pctBps ≤ midWindowEndBps then ⟨1, midWeightBps⟩
    else ⟨2, lateWeightBps⟩

/-- The weight that `vote` gives a voter: the power under the id of the proposal, and the
delegated power under its snapshot ledger. -/
def votingWeight (inv : Invocation Addr self) (s : State Addr) (p : Proposal Addr)
    (proposalId : ℕ) (voter : Addr) : Result ℤ := do
  let snapshotContract ← expect s.snapshotContract (.panic "snapshot not set")
  let delegationContract ← expect s.delegationContract (.panic "delegation contract not set")
  let snapshotWeight ← expect (inv.votingPower snapshotContract proposalId voter) .subcall
  let delegatedPower ←
    expect (inv.delegatedPowerAtSnapshot delegationContract voter p.snapshotLedger) .subcall
  checkedI128 (snapshotWeight + delegatedPower) (.panic "weight overflow")

variable [DecidableEq Addr]

def vote (inv : Invocation Addr self) (s : State Addr) (voter : Addr) (proposalId : ℕ)
    (support : Bool) : Result (State Addr) := do
  requireAuth inv.toEnv voter
  let p ← getProposal s proposalId
  requireActiveProposal inv p
  require (s.vote (proposalId, voter) = none) (.panic "already voted")
  let weight ← votingWeight inv s p proposalId voter
  require (0 < weight) (.panic "no voting power")
  let weightBps := (getVotingWindow inv p).weightBps
  let product ← checkedI128 (weight * weightBps) (.panic "weighted overflow")
  let weighted := product.tdiv 10000
  let recorded := { s with
    vote := Function.update s.vote (proposalId, voter) (some support)
    voteWeight := Function.update s.voteWeight (proposalId, voter) weight
    voteWeightMultiplier :=
      Function.update s.voteWeightMultiplier (proposalId, voter) weightBps }
  if support then do
    let votesFor ← checkedI128 (p.votesFor + weight) (.panic "votes for overflow")
    let weightedFor ← checkedI128 ((s.weightedVotesFor proposalId).getD 0 + weighted)
      (.panic "weighted for overflow")
    pure { recorded.setProposal proposalId { p with votesFor := votesFor } with
      weightedVotesFor := Function.update s.weightedVotesFor proposalId (some weightedFor) }
  else do
    let votesAgainst ← checkedI128 (p.votesAgainst + weight) (.panic "votes against overflow")
    let weightedAgainst ← checkedI128 ((s.weightedVotesAgainst proposalId).getD 0 + weighted)
      (.panic "weighted against overflow")
    pure { recorded.setProposal proposalId { p with votesAgainst := votesAgainst } with
      weightedVotesAgainst :=
        Function.update s.weightedVotesAgainst proposalId (some weightedAgainst) }

end Voting

section Execution

variable [DecidableEq Addr]

/-- Neither count goes below zero. -/
def decrementActiveProposalCount (s : State Addr) (proposer : Addr) : State Addr :=
  { s with
    activeProposalCount := s.activeProposalCount - 1
    perAddressActiveProposalCount :=
      Function.update s.perAddressActiveProposalCount proposer
        (s.perAddressActiveProposalCount proposer - 1) }

/-- What every path does with a proposal that is no longer active: it is stored, and its slot
and its deposit are released. -/
def closeProposal (s : State Addr) (proposalId : ℕ) (p : Proposal Addr) : State Addr :=
  { decrementActiveProposalCount (s.setProposal proposalId p) p.proposer with
    proposalDeposit := Function.update s.proposalDeposit proposalId 0 }

omit [DecidableEq Addr] in
/-- A call that traps in the other contract fails the invocation. -/
def invoke (inv : Invocation Addr self) (s : State Addr) (call : ContractCall Addr) :
    Result (State Addr) := do
  require (inv.accepts call = true) .subcall
  pure { s with invoked := call :: s.invoked }

/-- The part of `apply_action` that is not the log. -/
def carryOut (inv : Invocation Addr self) (s : State Addr) (action : ProposalAction Addr)
    (proposalId : ℕ) : Result (State Addr) :=
  match action with
  | .updateFee newFeeBps => pure { s with currentFeeBps := some newFeeBps }
  | .updateAutoRelease newDelay => pure { s with currentAutoReleaseSecs := some newDelay }
  | .addAsset asset => pure { s with approvedAsset := Function.update s.approvedAsset asset true }
  | .updateAdmin newAdmin => pure { s with admin := some newAdmin }
  | .executeCall target function _ => invoke inv s (.execute target function)
  | .approveEmergencyRollback escrow rollbackId =>
      invoke inv s (.markGovRollbackApproved escrow rollbackId proposalId)

def applyAction (inv : Invocation Addr self) (s : State Addr) (action : ProposalAction Addr)
    (proposalId : ℕ) : Result (State Addr) := do
  let done ← carryOut inv s action proposalId
  pure { done with applied := (proposalId, action) :: done.applied }

omit [DecidableEq Addr] in
def executionQuorumBps (s : State Addr) (p : Proposal Addr) (proposalId : ℕ) : ℕ :=
  match p.action with
  | .approveEmergencyRollback _ _ => rollbackGovernanceQuorumBps
  | _ =>
      if s.customProposal proposalId then customProposalQuorumBps
      else s.quorumBps.getD defaultQuorumBps

omit [DecidableEq Addr] in
/-- Whether the weighted tallies meet the quorum, with the products that may overflow. -/
def quorumMet (s : State Addr) (p : Proposal Addr) (proposalId : ℕ)
    (weightedFor weightedAgainst : ℤ) : Result Bool := do
  let total ← checkedI128 (weightedFor + weightedAgainst) (.panic "weighted vote overflow")
  if p.totalSupplySnapshot ≤ 0 then pure false
  else do
    let votes ← checkedI128 (total * 10000) (.panic "quorum overflow")
    let needed ← checkedI128 (p.totalSupplySnapshot * executionQuorumBps s p proposalId)
      (.panic "quorum threshold overflow")
    pure (needed ≤ votes)

omit [DecidableEq Addr] in
/-- The branch of `execute_proposal` for a call, which is handed to the timelock. -/
def queueProposal (inv : Invocation Addr self) (s : State Addr) (p : Proposal Addr)
    (proposalId : ℕ) : Result (State Addr) := do
  let earliestExecute ← checkedU64 (p.votingEndsAt + executeCallTimelockSecs)
    (.panic "timelock overflow")
  require (earliestExecute ≤ inv.timestamp) (.panic "ExecuteCall timelock not elapsed")
  let timelock ← expect s.timelock (.panic "timelock not set")
  let scheduled ← invoke inv s (.schedule timelock proposalId scheduleDelay)
  let (queued, p) ← transitionProposalStatus scheduled
    { p with timelockOpId := inv.scheduledId timelock proposalId } .queued
  pure (queued.setProposal proposalId p)

/-- Applies the action and closes the proposal as executed. -/
def enactProposal (inv : Invocation Addr self) (s : State Addr) (p : Proposal Addr)
    (proposalId : ℕ) : Result (State Addr) := do
  let done ← applyAction inv s p.action proposalId
  let (executed, p) ← transitionProposalStatus done p .executed
  pure (closeProposal executed proposalId p)

def executeProposal (inv : Invocation Addr self) (s : State Addr) (proposalId : ℕ) :
    Result (State Addr) := do
  let p ← getProposal s proposalId
  require (p.status ≠ .executed ∧ p.status ≠ .queued)
    (.panic "proposal already executed or queued")
  require (p.votingEndsAt ≤ inv.timestamp) (.panic "voting period not ended")
  require (p.status ≠ .cancelled ∧ p.status ≠ .failed) (.panic "proposal not executable")
  let weightedFor := (s.weightedVotesFor proposalId).getD p.votesFor
  let weightedAgainst := (s.weightedVotesAgainst proposalId).getD p.votesAgainst
  let quorum ← quorumMet s p proposalId weightedFor weightedAgainst
  if quorum = true ∧ weightedAgainst < weightedFor then do
    let (passed, p) ← transitionProposalStatus s p .passed
    match p.action with
    | .executeCall _ _ _ => queueProposal inv passed p proposalId
    | _ => enactProposal inv passed p proposalId
  else do
    let (failed, p) ← transitionProposalStatus s p .failed
    pure (closeProposal failed proposalId p)

def executeQueuedProposal (inv : Invocation Addr self) (s : State Addr) (proposalId : ℕ) :
    Result (State Addr) := do
  let timelock ← expect s.timelock (.panic "timelock not set")
  requireAuth inv.toEnv timelock
  let p ← getProposal s proposalId
  require (p.status = .queued) (.panic "proposal not queued")
  enactProposal inv s p proposalId

end Execution

section Cancellation

/-- The cancellations of an admin that still count. -/
def recentCancels (timestamps : List ℕ) (now : ℕ) : List ℕ :=
  timestamps.filter fun t => now - cancelEscalationWindowSecs < t

def countRecentCancels (s : State Addr) (admin : Addr) (now : ℕ) : ℕ :=
  (recentCancels (s.cancelTimestamps admin) now).length

variable [DecidableEq Addr]

/-- The same admin may not cancel the same action twice within the cool-down. -/
def requireCooledDown (s : State Addr) (admin : Addr) (action : ProposalAction Addr) (now : ℕ) :
    Result Unit :=
  match s.cancelCooldown (admin, action) with
  | none => pure ()
  | some lastCancel => do
      let allowedAt ← checkedU64 (lastCancel + cancelCooldownSecs) (.panic "cooldown overflow")
      require (allowedAt ≤ now) (.panic ("cancel cooldown active for this action type: " ++
        toString (allowedAt - now) ++ "s remaining"))

omit [DecidableEq Addr] in
/-- What is asked for beyond three cancellations in thirty days: an action of the multisig that
has enough approvals, and that is executed so that it cannot be used again. What the action
is for is not looked at. -/
def requireMultisigAction (inv : Invocation Addr self) (s : State Addr) (now : ℕ)
    (multisigActionId : Option ℕ) : Result Unit := do
  let multisig ← expect s.multisigAdmin
    (.panic "multisig admin contract not set for escalation")
  let actionId ← expect multisigActionId
    (.panic "multisig action id required after 3 cancels in 30 days")
  let record ← expect (inv.multisigProposal multisig actionId) .subcall
  require (record.executed = false) (.panic "multisig action already executed")
  require (record.cancelled = false) (.panic "multisig action cancelled")
  require (now ≤ record.expiry) (.panic "multisig action expired")
  let threshold ← expect (inv.multisigThreshold multisig) .subcall
  require (threshold ≤ record.approvalCount) (.panic "multisig action below threshold")
  require (inv.multisigExecutes multisig actionId = true) .subcall

omit [DecidableEq Addr] in
def requireEscalation (inv : Invocation Addr self) (s : State Addr) (admin : Addr) (now : ℕ)
    (multisigActionId : Option ℕ) : Result Unit :=
  if cancelEscalationThreshold ≤ countRecentCancels s admin now then
    requireMultisigAction inv s now multisigActionId
  else pure ()

omit [DecidableEq Addr] in
/-- A recorded deposit goes to the treasury. -/
def slashDeposit (s : State Addr) (proposalId : ℕ) : Result (State Addr) :=
  let deposit := s.proposalDeposit proposalId
  if 0 < deposit then do
    let treasury ← checkedI128 (s.treasuryBalance + deposit) (.panic "treasury overflow")
    pure { s with
      treasuryBalance := treasury
      proposalDeposit := Function.update s.proposalDeposit proposalId 0 }
  else pure s

/-- The status is set without `transition_proposal_status`. -/
def cancelProposal (inv : Invocation Addr self) (s : State Addr) (proposalId : ℕ)
    (multisigActionId : Option ℕ) : Result (State Addr) := do
  let admin ← expect s.admin (.panic "not initialized")
  requireAuth inv.toEnv admin
  let now := inv.timestamp
  let p ← getProposal s proposalId
  require (p.status ≠ .executed) (.panic "cannot cancel executed proposal")
  require (p.status ≠ .failed) (.panic "cannot cancel failed proposal")
  require (p.status ≠ .cancelled) (.panic "proposal already cancelled")
  requireCooledDown s admin p.action now
  requireEscalation inv s admin now multisigActionId
  let slashed ←
    slashDeposit (s.setProposal proposalId { p with status := .cancelled }) proposalId
  let lifetimeCount ← checkedU32 (s.cancelCount admin + 1) (.panic "cancel count overflow")
  let _ ← checkedU64 (now + cancelCooldownSecs) (.panic "cooldown expires overflow")
  pure { decrementActiveProposalCount slashed p.proposer with
    cancelCooldown := Function.update s.cancelCooldown (admin, p.action) (some now)
    cancelCount := Function.update s.cancelCount admin lifetimeCount
    cancelTimestamps := Function.update s.cancelTimestamps admin
      (recentCancels (s.cancelTimestamps admin) now ++ [now])
    statusChanges := ⟨p.id, p.status, .cancelled⟩ :: s.statusChanges }

end Cancellation

/-- Entry points that only write the configuration. -/
inductive ConfigCall (Addr : Type) where
  | initializeGovernance (admin snapshotContract delegationContract : Addr)
      (votingPeriodSecs quorumBps : Option ℕ) (proposalDeposit minProposerBalance : Option ℤ)
      (maxActiveProposals : Option ℕ)
  | proposeAdminChange (currentAdmin newAdmin : Addr)
  | acceptAdminChange (newAdmin : Addr)
  | cancelAdminChange (multisig : Addr)
  | setTimelock (timelock : Addr)
  | addAllowedCall (admin target : Addr) (function : String)
  | setTemplatesContract (templatesContract : Addr)
  | setStakingContract (admin stakingContract : Addr)
  | setMultisigAdmin (admin multisigAdmin : Addr)

/-- The entry points that write, with their arguments. -/
inductive Call (Addr : Type) where
  | config (call : ConfigCall Addr)
  | createProposal (proposer : Addr) (action : ProposalAction Addr)
  | proposeRollbackReview (proposer escrowContract : Addr) (escrowRollbackId : ℕ)
  | vote (voter : Addr) (proposalId : ℕ) (support : Bool)
  | executeProposal (proposalId : ℕ)
  | executeQueuedProposal (proposalId : ℕ)
  | cancelProposal (proposalId : ℕ) (multisigActionId : Option ℕ)

variable [DecidableEq Addr]

def execConfig (inv : Invocation Addr self) (call : ConfigCall Addr) (s : State Addr) :
    Result (State Addr) :=
  match call with
  | .initializeGovernance admin snapshotContract delegationContract votingPeriodSecs quorumBps
      proposalDeposit minProposerBalance maxActiveProposals =>
      initializeGovernance s admin snapshotContract delegationContract votingPeriodSecs quorumBps
        proposalDeposit minProposerBalance maxActiveProposals
  | .proposeAdminChange currentAdmin newAdmin => proposeAdminChange inv s currentAdmin newAdmin
  | .acceptAdminChange newAdmin => acceptAdminChange inv s newAdmin
  | .cancelAdminChange multisig => cancelAdminChange inv s multisig
  | .setTimelock timelock => setTimelock inv s timelock
  | .addAllowedCall admin target function => addAllowedCall inv s admin target function
  | .setTemplatesContract templatesContract => setTemplatesContract inv s templatesContract
  | .setStakingContract admin stakingContract => setStakingContract inv s admin stakingContract
  | .setMultisigAdmin admin multisigAdmin => setMultisigAdmin inv s admin multisigAdmin

def exec (inv : Invocation Addr self) (call : Call Addr) (s : State Addr) : Result (State Addr) :=
  match call with
  | .config call => execConfig inv call s
  | .createProposal proposer action => Prod.fst <$> createProposal inv s proposer action
  | .proposeRollbackReview proposer escrowContract escrowRollbackId =>
      Prod.fst <$> proposeRollbackReview inv s proposer escrowContract escrowRollbackId
  | .vote voter proposalId support => vote inv s voter proposalId support
  | .executeProposal proposalId => executeProposal inv s proposalId
  | .executeQueuedProposal proposalId => executeQueuedProposal inv s proposalId
  | .cancelProposal proposalId multisigActionId =>
      cancelProposal inv s proposalId multisigActionId

abbrev Step (Addr : Type) (self : Addr) := Invocation Addr self × Call Addr

/-- The deployed contract. -/
def machine (self : Addr) : Machine (State Addr) (Step Addr self) Trap where
  exec step := exec step.1 step.2

/-- The state after a run from deployment. -/
abbrev reached (steps : List (Step Addr self)) : State Addr :=
  (machine self).run (deployed Addr) steps

end Governance
