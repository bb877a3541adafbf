import MentorsMind.Shared.Throttling
import MentorsMind.Soroban.TokenLedger

/-! The treasury: allocations that the admin makes alone up to a threshold and that are queued for
a second approval beyond it, distributions to the stakers, the list of authorised callers and the
three ways in which the admin changes. Deposits, buybacks, pricing, the operation log, reports and
the re-entrancy guard are left out. -/
namespace Treasury
open Outcome Soroban Shared

inductive Error where
  | alreadyInitialized
  | notInitialized
  | unauthorized
  | insufficientBalance
  | tokenNotApproved
  | invalidAmount
  | noPendingAdminChange
  | invalidAdminChange
  | callerNotAuthorized
  | amountExceedsLimit
  | distributionAlreadyProcessed
  | reentrancyGuardPaused
  | stateValidationFailed
  | invalidState
  | duplicateEntry
  | overflow
  | coolingOffPeriod
  | timelockNotExpired
  | suspendedDuringAdminTransfer

def Error.code : Error → ℕ
  | .alreadyInitialized => 1
  | .notInitialized => 2
  | .unauthorized => 3
  | .insufficientBalance => 4
  | .tokenNotApproved => 7
  | .invalidAmount => 11
  | .noPendingAdminChange => 12
  | .invalidAdminChange => 14
  | .callerNotAuthorized => 15
  | .amountExceedsLimit => 16
  | .distributionAlreadyProcessed => 17
  | .reentrancyGuardPaused => 18
  | .stateValidationFailed => 19
  | .invalidState => 20
  | .duplicateEntry => 21
  | .overflow => 22
  | .coolingOffPeriod => 24
  | .timelockNotExpired => 25
  | .suspendedDuringAdminTransfer => 26

def Error.trap (e : Error) : Trap := .contractError e.code

def maxFinancialAmount : ℤ := 1000000000000000
def maxPerTxAllocate : ℤ := 100000000000000
def maxPerTxDistribute : ℤ := 500000000000000
def distributionMinIntervalSecs : ℕ := 24 * 60 * 60
def minAdminTimelockSecs : ℕ := 48 * 60 * 60
def adminCoolingOffSecs : ℕ := 24 * 60 * 60
def maxBatchSize : ℕ := 100
def defaultMultisigThreshold : ℤ := 50000

structure AllocationHistory (Addr : Type) where
  token : Addr
  recipient : Addr
  amount : ℤ
  timestamp : ℕ

structure AllocationRequest (Addr : Type) where
  token : Addr
  recipient : Addr
  amount : ℤ

structure PendingAllocation (Addr : Type) where
  id : ℕ
  token : Addr
  recipient : Addr
  amount : ℤ
  approvalsCount : ℕ
  executed : Bool
  createdAt : ℕ

inductive AdminChangeProposal where
  | proposed
  | accepted
  | revoked
  deriving DecidableEq

structure AdminTransfer (Addr : Type) where
  newAdmin : Addr
  effectiveAt : ℕ
  status : AdminChangeProposal
  deriving DecidableEq

structure DistributionReceipt (Addr : Type) where
  distributionId : ℕ
  token : Addr
  totalAmount : ℤ
  timestamp : ℕ
  processed : Bool

/-- One field for each storage key; an absent flag reads as false, an absent count or time of the
last change as zero, an absent list as the empty one. -/
structure State (Addr : Type) where
  admin : Option Addr
  timelock : Option Addr
  stakingContract : Option Addr
  pauseGuardian : Option Addr
  allocationCount : ℕ
  allocation : ℕ → Option (AllocationHistory Addr)
  approvedToken : Addr → Bool
  multisigThreshold : Option ℤ
  pendingAllocationCount : ℕ
  pendingAllocation : ℕ → Option (PendingAllocation Addr)
  allocationApproval : ℕ × Addr → Bool
  pendingAdminTransfer : Option (AdminTransfer Addr)
  lastAdminChange : ℕ
  authorizedCallers : List Addr
  lastDistributionId : ℕ
  lastDistributionAt : Option ℕ
  scheduledNextDistributionAt : Option ℕ
  requireScheduledDistribution : Bool
  distributionReceipt : ℕ → Option (DistributionReceipt Addr)
  tokens : Tokens Addr

/-- The contract as deployed, beside token ledgers with any balances. -/
def deployed {Addr : Type} (balance : Addr → Addr → ℕ) : State Addr where
  admin := none
  timelock := none
  stakingContract := none
  pauseGuardian := none
  allocationCount := 0
  allocation _ := none
  approvedToken _ := false
  multisigThreshold := none
  pendingAllocationCount := 0
  pendingAllocation _ := none
  allocationApproval _ := false
  pendingAdminTransfer := none
  lastAdminChange := 0
  authorizedCallers := []
  lastDistributionId := 0
  lastDistributionAt := none
  scheduledNextDistributionAt := none
  requireScheduledDistribution := false
  distributionReceipt _ := none
  tokens := ⟨fun token holder => balance token holder, []⟩

/-- One invocation: the ledger, the signers, what the other contracts answer, and the counters in
temporary storage, which also expire by themselves. A call that traps answers `none`, or `false`
where only success counts. -/
structure Invocation (Addr : Type) (home : Addr) extends Env Addr home where
  accepts : Transfer Addr → Bool
  isPaused : Addr → Option Bool
  /-- How often the caller came in this ledger so far. -/
  mevInteractions : Addr → ℕ
  globalRequests : ℕ
  penaltyRedistributionPool : Addr → Option ℤ
  addToLpRewardPool : Addr → ℤ → Bool
  receiveTreasuryDistribution : Addr → ℕ → Addr → ℤ → Bool

variable {Addr : Type} {self : Addr}

section Admin

/-- The entry point `initialize`, which asks for no authorisation. -/
def initializeTreasury (s : State Addr) (admin stakingContract timelock : Addr)
    (pauseGuardian : Option Addr) : Result (State Addr) := do
  require (s.admin = none) Error.alreadyInitialized.trap
  pure { s with
    admin := some admin
    stakingContract := some stakingContract
    timelock := some timelock
    pauseGuardian := if pauseGuardian.isSome then pauseGuardian else s.pauseGuardian
    allocationCount := 0
    lastDistributionId := 0
    authorizedCallers := [timelock, admin] }

variable [DecidableEq Addr]

/-- Nothing is administered while an admin change is pending. -/
def requireAdmin (inv : Invocation Addr self) (s : State Addr) (admin : Addr) : Result Unit := do
  requireAuth inv.toEnv admin
  let stored ← expect s.admin Error.notInitialized.trap
  require (stored = admin) Error.unauthorized.trap
  require (s.pendingAdminTransfer.isNone = true) Error.suspendedDuringAdminTransfer.trap

def proposeAdminChange (inv : Invocation Addr self) (s : State Addr)
    (currentAdmin newAdmin : Addr) : Result (State Addr) := do
  requireAdmin inv s currentAdmin
  let cooledOffAt ← u64 (s.lastAdminChange + adminCoolingOffSecs)
  require (cooledOffAt ≤ inv.timestamp) Error.coolingOffPeriod.trap
  let effectiveAt ← checkedU64 (inv.timestamp + minAdminTimelockSecs) Error.invalidAdminChange.trap
  pure { s with pendingAdminTransfer := some ⟨newAdmin, effectiveAt, .proposed⟩ }

/-- The list of authorised callers stays as it is. -/
def acceptAdminChange (inv : Invocation Addr self) (s : State Addr) (newAdmin : Addr) :
    Result (State Addr) := do
  requireAuth inv.toEnv newAdmin
  let pending ← expect s.pendingAdminTransfer Error.noPendingAdminChange.trap
  require (pending.newAdmin = newAdmin) Error.unauthorized.trap
  require (pending.effectiveAt ≤ inv.timestamp) Error.timelockNotExpired.trap
  require (pending.status = .proposed) Error.invalidAdminChange.trap
  pure { s with
    admin := some newAdmin
    lastAdminChange := inv.timestamp
    pendingAdminTransfer := none }

omit [DecidableEq Addr] in
/-- Any address that signs may cancel. -/
def cancelAdminChange (inv : Invocation Addr self) (s : State Addr) (multisig : Addr) :
    Result (State Addr) := do
  requireAuth inv.toEnv multisig
  require (s.pendingAdminTransfer.isSome = true) Error.noPendingAdminChange.trap
  pure { s with pendingAdminTransfer := none }

omit [DecidableEq Addr] in
def revokeAdminEmergency (inv : Invocation Addr self) (s : State Addr) (newAdmin : Addr) :
    Result (State Addr) := do
  let timelock ← expect s.timelock Error.notInitialized.trap
  requireAuth inv.toEnv timelock
  pure { s with admin := some newAdmin, pendingAdminTransfer := none }

def addAuthorizedCaller (inv : Invocation Addr self) (s : State Addr) (admin newCaller : Addr) :
    Result (State Addr) := do
  requireAdmin inv s admin
  pure { s with authorizedCallers := s.authorizedCallers ++ [newCaller] }

/-- The check of the entry points that the admin and the listed callers share. -/
def requireAuthorizedCaller (inv : Invocation Addr self) (s : State Addr) (caller : Addr) :
    Result Unit := do
  requireAuth inv.toEnv caller
  let admin ← expect s.admin Error.notInitialized.trap
  require (admin = caller ∨ caller ∈ s.authorizedCallers) Error.unauthorized.trap

/-- The check of `allocate` and `distribute_to_stakers`, which looks for the admin in the list. -/
def validateCallerIsAuthorized (caller : Addr) (authorizedCallers : List Addr) : Bool :=
  caller ∈ authorizedCallers

end Admin

section Settings

/-- The check of the setters that name no admin. -/
def requireStoredAdmin (inv : Invocation Addr self) (s : State Addr) : Result Addr := do
  let admin ← expect s.admin Error.notInitialized.trap
  requireAuth inv.toEnv admin
  pure admin

def setMultisigThreshold (inv : Invocation Addr self) (s : State Addr) (threshold : ℤ) :
    Result (State Addr) := do
  let _ ← requireStoredAdmin inv s
  pure { s with multisigThreshold := some threshold }

def getMultisigThreshold (s : State Addr) : ℤ :=
  s.multisigThreshold.getD defaultMultisigThreshold

def requireGuardianNotPaused (inv : Invocation Addr self) (s : State Addr) : Result Unit :=
  match s.pauseGuardian with
  | none => pure ()
  | some guardian => do
      let paused ← expect (inv.isPaused guardian) .subcall
      require (paused = false) (.panic "Contract is paused")

variable [DecidableEq Addr]

def setApprovedToken (inv : Invocation Addr self) (s : State Addr) (token : Addr)
    (approved : Bool) : Result (State Addr) := do
  let _ ← requireStoredAdmin inv s
  pure { s with approvedToken := Function.update s.approvedToken token approved }

/-- The staking contract is told as well, and its answer does not matter. -/
def scheduleStakerDistribution (inv : Invocation Addr self) (s : State Addr) (admin : Addr)
    (distributionAt : ℕ) : Result (State Addr) := do
  requireAdmin inv s admin
  require (inv.timestamp < distributionAt) Error.invalidState.trap
  let _ ← expect s.stakingContract Error.notInitialized.trap
  pure { s with scheduledNextDistributionAt := some distributionAt }

def setRequireSchedDistrib (inv : Invocation Addr self) (s : State Addr) (admin : Addr)
    (required : Bool) : Result (State Addr) := do
  requireAdmin inv s admin
  pure { s with requireScheduledDistribution := required }

end Settings

section Allocations

variable [DecidableEq Addr]

def recordAllocation (inv : Invocation Addr self) (s : State Addr) (token recipient : Addr)
    (amount : ℤ) : Result (State Addr) := do
  let count ← u32 (s.allocationCount + 1)
  pure { s with
    allocation :=
      Function.update s.allocation s.allocationCount (some ⟨token, recipient, amount, inv.timestamp⟩)
    allocationCount := count }

/-- What `allocate` does beyond the threshold. The admin counts as the first approval. -/
def queueAllocation (inv : Invocation Addr self) (s : State Addr) (admin token recipient : Addr)
    (amount : ℤ) : Result (State Addr) := do
  let count ← u32 (s.pendingAllocationCount + 1)
  let pending : PendingAllocation Addr := {
    id := s.pendingAllocationCount
    token := token
    recipient := recipient
    amount := amount
    approvalsCount := 1
    executed := false
    createdAt := inv.timestamp }
  pure { s with
    pendingAllocation :=
      Function.update s.pendingAllocation s.pendingAllocationCount (some pending)
    allocationApproval :=
      Function.update s.allocationApproval (s.pendingAllocationCount, admin) true
    pendingAllocationCount := count }

def allocate (inv : Invocation Addr self) (s : State Addr) (token recipient : Addr)
    (amount : ℤ) : Result (State Addr) := do
  requireGuardianNotPaused inv s
  let admin ← requireStoredAdmin inv s
  require (s.approvedToken token = true) Error.tokenNotApproved.trap
  require (0 < amount ∧ amount ≤ maxFinancialAmount) Error.invalidAmount.trap
  require (1 ≤ amount ∧ amount ≤ maxPerTxAllocate) Error.amountExceedsLimit.trap
  require (validateCallerIsAuthorized admin s.authorizedCallers = true)
    Error.callerNotAuthorized.trap
  let interactions ← u32 (inv.mevInteractions admin + 1)
  let globalRequests ← u32 (inv.globalRequests + 1)
  require (sessionLoadAllowed interactions (checkEmergencyTrigger globalRequests) = true)
    Error.reentrancyGuardPaused.trap
  require (enforceProtocolIsolation (arbitrageRiskScore interactions) = true)
    Error.reentrancyGuardPaused.trap
  require (amount ≤ s.tokens.balance token self) Error.insufficientBalance.trap
  if getMultisigThreshold s < amount then queueAllocation inv s admin token recipient amount
  else do
    let paid ← s.tokens.transfer inv.accepts token self recipient amount
    require (s.tokens.balance token self - paid.balance token self = amount)
      Error.stateValidationFailed.trap
    require (amount ≤ paid.balance token recipient) Error.stateValidationFailed.trap
    recordAllocation inv { s with tokens := paid } token recipient amount

/-- One round of the loop that adds the requests up, one total for each token. -/
def addToTotals (request : AllocationRequest Addr) :
    List (Addr × ℤ) → Result (List (Addr × ℤ))
  | [] => pure [(request.token, request.amount)]
  | (token, running) :: totals =>
      if token = request.token then do
        let total ← checkedI128 (running + request.amount) Error.invalidAmount.trap
        pure ((token, total) :: totals)
      else do
        let totals ← addToTotals request totals
        pure ((token, running) :: totals)

/-- The checks of one request, and the totals with it. -/
def admitRequest (s : State Addr) (totals : List (Addr × ℤ)) (request : AllocationRequest Addr) :
    Result (List (Addr × ℤ)) := do
  require (s.approvedToken request.token = true) Error.tokenNotApproved.trap
  require (0 < request.amount ∧ request.amount ≤ maxFinancialAmount) Error.invalidAmount.trap
  require (1 ≤ request.amount ∧ request.amount ≤ maxPerTxAllocate) Error.amountExceedsLimit.trap
  require (request.amount ≤ getMultisigThreshold s) Error.amountExceedsLimit.trap
  addToTotals request totals

def batchAllocate (inv : Invocation Addr self) (s : State Addr)
    (requests : List (AllocationRequest Addr)) : Result (State Addr) := do
  requireGuardianNotPaused inv s
  let _ ← requireStoredAdmin inv s
  require (requests ≠ [] ∧ requests.length ≤ maxBatchSize) Error.invalidAmount.trap
  let totals ← requests.foldlM (admitRequest s) []
  require (∀ total ∈ totals, total.2 ≤ s.tokens.balance total.1 self)
    Error.insufficientBalance.trap
  let paid ← requests.foldlM (fun tokens request =>
    tokens.transfer inv.accepts request.token self request.recipient request.amount) s.tokens
  requests.foldlM (fun s request =>
    recordAllocation inv s request.token request.recipient request.amount) { s with tokens := paid }

/-- Any address that signs may approve. -/
def approvePendingAllocation (inv : Invocation Addr self) (s : State Addr) (approver : Addr)
    (pendingId : ℕ) : Result (State Addr) := do
  requireAuth inv.toEnv approver
  let pending ← expect (s.pendingAllocation pendingId) Error.notInitialized.trap
  require (pending.executed = false) Error.invalidState.trap
  require (s.allocationApproval (pendingId, approver) = false) Error.duplicateEntry.trap
  let approvalsCount ← u32 (pending.approvalsCount + 1)
  let approved := { s with
    allocationApproval := Function.update s.allocationApproval (pendingId, approver) true }
  if 2 ≤ approvalsCount then do
    require (pending.amount ≤ s.tokens.balance pending.token self) Error.insufficientBalance.trap
    let paid ← s.tokens.transfer inv.accepts pending.token self pending.recipient pending.amount
    require (s.tokens.balance pending.token self - paid.balance pending.token self =
      pending.amount) Error.stateValidationFailed.trap
    let recorded ← recordAllocation inv { approved with tokens := paid } pending.token
      pending.recipient pending.amount
    pure { recorded with
      pendingAllocation := Function.update s.pendingAllocation pendingId
        (some { pending with approvalsCount := approvalsCount, executed := true }) }
  else
    pure { approved with
      pendingAllocation := Function.update s.pendingAllocation pendingId
        (some { pending with approvalsCount := approvalsCount }) }

end Allocations

section Distribution

variable [DecidableEq Addr]

/-- The gates on the time of a distribution. -/
def requireDistributionTime (inv : Invocation Addr self) (s : State Addr) : Result Unit := do
  match s.lastDistributionAt with
  | some lastAt =>
      require (distributionMinIntervalSecs ≤ inv.timestamp - lastAt) Error.invalidState.trap
  | none => pure ()
  match s.scheduledNextDistributionAt with
  | some scheduled => require (scheduled ≤ inv.timestamp) Error.invalidState.trap
  | none => require (s.requireScheduledDistribution = false) Error.invalidState.trap

/-- A tenth goes to the pool of the liquidity providers. -/
def distributeToStakers (inv : Invocation Addr self) (s : State Addr) (token : Addr)
    (totalAmount : ℤ) : Result (State Addr) := do
  requireGuardianNotPaused inv s
  let admin ← requireStoredAdmin inv s
  require (s.approvedToken token = true) Error.tokenNotApproved.trap
  require (0 < totalAmount ∧ totalAmount ≤ maxFinancialAmount) Error.invalidAmount.trap
  require (1 ≤ totalAmount ∧ totalAmount ≤ maxPerTxDistribute) Error.amountExceedsLimit.trap
  let stakingContract ← expect s.stakingContract Error.notInitialized.trap
  require (validateCallerIsAuthorized admin s.authorizedCallers = true)
    Error.callerNotAuthorized.trap
  let interactions ← u32 (inv.mevInteractions admin + 1)
  require (enforceProtocolIsolation (arbitrageRiskScore interactions) = true)
    Error.reentrancyGuardPaused.trap
  requireDistributionTime inv s
  let _ ← expect (inv.penaltyRedistributionPool stakingContract) .subcall
  require (totalAmount ≤ s.tokens.balance token self) Error.insufficientBalance.trap
  let distributionId ← checkedU64 (s.lastDistributionId + 1) Error.overflow.trap
  require ((s.distributionReceipt distributionId).isNone = true)
    Error.distributionAlreadyProcessed.trap
  let paid ← s.tokens.transfer inv.accepts token self stakingContract totalAmount
  let lpAmount := totalAmount / 10
  require (0 < lpAmount → inv.addToLpRewardPool stakingContract lpAmount = true) .subcall
  require (inv.receiveTreasuryDistribution stakingContract distributionId token
    (totalAmount - lpAmount) = true) .subcall
  require (s.tokens.balance token self - paid.balance token self = totalAmount)
    Error.stateValidationFailed.trap
  require (totalAmount ≤ paid.balance token stakingContract) Error.stateValidationFailed.trap
  pure { s with
    tokens := paid
    lastDistributionId := distributionId
    lastDistributionAt := some inv.timestamp
    scheduledNextDistributionAt := none
    distributionReceipt := Function.update s.distributionReceipt distributionId
      (some ⟨distributionId, token, totalAmount, inv.timestamp, true⟩) }

end Distribution

/-- The entry points that write, with their arguments. -/
inductive Call (Addr : Type) where
  | initializeTreasury (admin stakingContract timelock : Addr) (pauseGuardian : Option Addr)
  | proposeAdminChange (currentAdmin newAdmin : Addr)
  | acceptAdminChange (newAdmin : Addr)
  | cancelAdminChange (multisig : Addr)
  | revokeAdminEmergency (newAdmin : Addr)
  | addAuthorizedCaller (admin newCaller : Addr)
  | setApprovedToken (token : Addr) (approved : Bool)
  | setMultisigThreshold (threshold : ℤ)
  | scheduleStakerDistribution (admin : Addr) (distributionAt : ℕ)
  | setRequireSchedDistrib (admin : Addr) (required : Bool)
  | allocate (token recipient : Addr) (amount : ℤ)
  | batchAllocate (requests : List (AllocationRequest Addr))
  | approvePendingAllocation (approver : Addr) (pendingId : ℕ)
  | distributeToStakers (token : Addr) (totalAmount : ℤ)

variable [DecidableEq Addr]

def exec (inv : Invocation Addr self) (call : Call Addr) (s : State Addr) :
    Result (State Addr) :=
  match call with
  | .initializeTreasury admin stakingContract timelock pauseGuardian =>
      initializeTreasury s admin stakingContract timelock pauseGuardian
  | .proposeAdminChange currentAdmin newAdmin => proposeAdminChange inv s currentAdmin newAdmin
  | .acceptAdminChange newAdmin => acceptAdminChange inv s newAdmin
  | .cancelAdminChange multisig => cancelAdminChange inv s multisig
  | .revokeAdminEmergency newAdmin => revokeAdminEmergency inv s newAdmin
  | .addAuthorizedCaller admin newCaller => addAuthorizedCaller inv s admin newCaller
  | .setApprovedToken token approved => setApprovedToken inv s token approved
  | .setMultisigThreshold threshold => setMultisigThreshold inv s threshold
  | .scheduleStakerDistribution admin distributionAt =>
      scheduleStakerDistribution inv s admin distributionAt
  | .setRequireSchedDistrib admin required => setRequireSchedDistrib inv s admin required
  | .allocate token recipient amount => allocate inv s token recipient amount
  | .batchAllocate requests => batchAllocate inv s requests
  | .approvePendingAllocation approver pendingId =>
      approvePendingAllocation inv s approver pendingId
  | .distributeToStakers token totalAmount => distributeToStakers inv s token totalAmount

abbrev Step (Addr : Type) (self : Addr) := Invocation Addr self × Call Addr

/-- The deployed contract. -/
def machine (self : Addr) : Machine (State Addr) (Step Addr self) Trap where
  exec step := exec step.1 step.2

/-- The state after a run from deployment. -/
abbrev reached (balance : Addr → Addr → ℕ) (steps : List (Step Addr self)) : State Addr :=
  (machine self).run (deployed balance) steps

end Treasury
