import MentorsMind.Shared.PlatformAuthenticity
import MentorsMind.Shared.SigValidation

/-! The factory that deploys one escrow for a session: directly, for a signer by a relayer, or,
above a threshold, on approval of a request. Views, events and gas estimates are left out, and so
is the deployment context, which every call that succeeds removes. -/
namespace EscrowFactory
open Outcome Soroban Shared

def minSessionDurationSecs : ℕ := 60 * 60
def maxSessionDurationSecs : ℕ := 30 * 24 * 60 * 60
def defaultSessionDurationSecs : ℕ := 24 * 60 * 60
def timestampToleranceSecs : ℕ := 60
def highValueApprovalWindowSecs : ℕ := 48 * 3600
def adminChangeTimelock : ℕ := 48 * 60 * 60
def stateTransitionTimeoutSecs : ℕ := 5 * 60

/-- No function writes another threshold. -/
def highValueThreshold : ℤ := 50000000000

structure EscrowInfo (Addr : Type) where
  address : Addr
  sessionId : String
  mentor : Addr
  learner : Addr
  createdAt : ℕ
  deriving DecidableEq

structure PendingSession (Addr : Type) where
  mentor : Addr
  learner : Addr
  amount : ℤ
  token : Addr
  requestedAt : ℕ
  deriving DecidableEq

structure PendingAdminChange (Addr : Type) where
  newAdmin : Addr
  effectiveAt : ℕ
  deriving DecidableEq

/-- The arguments of `deploy_escrow`, of which a payload signs the hash. -/
structure DeployParams (Addr : Type) where
  mentor : Addr
  learner : Addr
  amount : ℤ
  token : Addr
  sessionId : String
  deriving DecidableEq

/-- One field for each kind of storage key. Absent counters and nonces read as zero. -/
structure State (Addr : Type) where
  admin : Option Addr
  implementation : Option Addr
  pauseGuardian : Option Addr
  anomalyDetector : Option Addr
  bypassAnomaly : Bool
  interfaceRegistry : Option Addr
  healthDashboard : Option Addr
  pendingAdmin : Option (PendingAdminChange Addr)
  escrowMapping : String → Option Addr
  escrowList : ℕ → Option (EscrowInfo Addr)
  escrowCount : ℕ
  sessionNonce : String → ℕ
  pendingHighValueSession : String → Option (PendingSession Addr)
  depHist : Addr → ℕ × ℤ
  nonces : Addr → ℕ

def deployed (Addr : Type) : State Addr where
  admin := none
  implementation := none
  pauseGuardian := none
  anomalyDetector := none
  bypassAnomaly := false
  interfaceRegistry := none
  healthDashboard := none
  pendingAdmin := none
  escrowMapping _ := none
  escrowList _ := none
  escrowCount := 0
  sessionNonce _ := 0
  pendingHighValueSession _ := none
  depHist _ := (0, 0)
  nonces _ := 0

/-- One invocation: the ledger, the signers, and what the contracts at the given addresses answer,
`none` or `false` when they trap. -/
structure Invocation (Addr : Type) (home : Addr) extends Env Addr home where
  authForArgs : Addr → MetaTxPayload Addr → Bool
  /-- The entry of a learner in temporary storage has expired. -/
  historyExpired : Addr → Bool
  isPaused : Addr → Option Bool
  checkAnomaly : Addr → Addr → ℤ → Option ℕ
  initializesEscrow : Addr → ℕ → Bool
  /-- `create_escrow` of a new escrow, with the end of the session. -/
  createsEscrow : Addr → DeployParams Addr → ℕ → Bool
  registersInterface : Addr → Addr → Bool
  recordsMetric : Addr → ℕ → Bool
  refunds : PendingSession Addr → Bool

/-- An invocation at time `now` that every account signs, and in which the other contracts do as
they are asked. -/
def obliging (now : ℕ) (authForArgs : ℕ → MetaTxPayload ℕ → Bool) : Invocation ℕ 0 where
  toEnv := signedByAll now
  authForArgs := authForArgs
  historyExpired _ := false
  isPaused _ := some false
  checkAnomaly _ _ _ := some 0
  initializesEscrow _ _ := true
  createsEscrow _ _ _ := true
  registersInterface _ _ := true
  recordsMetric _ _ := true
  refunds _ := true

/-- Addresses of escrows that only tell the deployments for one session apart. -/
def newAddress (_ : String) (_ _ nonce : ℕ) : ℕ := 100 + nonce

variable {Addr : Type} {home : Addr}

section Fees

def baseFeeBps : ℕ := 200
def maxFeeBps : ℕ := 1000
def minFeeBps : ℕ := 100
def highLoadThreshold : ℕ := 1000

/-- The `fee_bps` of `calculate_dynamic_fee`: a surge, a discount, and the clamp. -/
def calculateEscrowFees (systemLoad reputationScore : ℕ) : ℕ :=
  let surged :=
    if highLoadThreshold * 2 < systemLoad then maxFeeBps
    else if highLoadThreshold < systemLoad then baseFeeBps + 300
    else baseFeeBps
  let discounted :=
    if 80 ≤ reputationScore then surged - 100
    else if 50 ≤ reputationScore then surged - 50
    else surged
  min maxFeeBps (max minFeeBps discounted)

def requireNoEvasion (count : ℕ) (totalFee expectedFee : ℤ) : Result Unit :=
  if 0 < count then do
    let tier ← detectFeeEvasion expectedFee (totalFee.tdiv count)
    require (tier ≠ .permanent ∧ tier ≠ .permanentBan) (.contractError 1)
  else pure ()

/-- Public, and without authorisation. -/
def checkFeeEvasion [DecidableEq Addr] (inv : Invocation Addr home) (s : State Addr)
    (learner : Addr) (expectedFee : ℤ) : Result (State Addr) := do
  let (count, totalFee) := if inv.historyExpired learner then (0, 0) else s.depHist learner
  requireNoEvasion count totalFee expectedFee
  pure { s with
    depHist := Function.update s.depHist learner
      (saturatingAddU32 count 1, saturateI128 (totalFee + expectedFee)) }

/-- The fee that a learner is expected to pay for an escrow of this amount. -/
def expectedFeeOf (amount : ℤ) : Result ℤ :=
  if 0 < amount then do
    let product ← i128 (amount * calculateEscrowFees 0 100)
    pure (if product.tdiv 10000 = 0 then 100000 else product.tdiv 10000)
  else pure 100000

end Fees

section Deployment

def getAdmin (s : State Addr) : Result Addr := expect s.admin (.panic "Not initialized")

def requireNotPaused (inv : Invocation Addr home) (s : State Addr) : Result Unit :=
  match s.pauseGuardian with
  | none => pure ()
  | some guardian => do
      let isPaused ← expect (inv.isPaused guardian) .subcall
      require (isPaused = false) (.panic "Contract is paused")

def requireNoAnomaly (inv : Invocation Addr home) (s : State Addr) (learner : Addr) (amount : ℤ) :
    Result Unit :=
  match s.bypassAnomaly, s.anomalyDetector with
  | false, some detector => do
      let res ← expect (inv.checkAnomaly detector learner amount) .subcall
      require (res ≠ 2) (.panic "UserOnHold")
  | _, _ => pure ()

def validateFutureTimestamp (now futureTs minDurationSecs maxDurationSecs : ℕ) :
    Result Unit := do
  require (now < futureTs) (.panic "timestamp must be in the future")
  let duration := futureTs - now
  require (saturatingAddU64 minDurationSecs timestampToleranceSecs ≤ duration)
    (.panic "timestamp window too short")
  require (duration ≤ maxDurationSecs) (.panic "timestamp window too long")

def registerInterface (inv : Invocation Addr home) (s : State Addr) (escrow : Addr) :
    Result Unit :=
  match s.interfaceRegistry with
  | none => pure ()
  | some registry =>
      require (inv.registersInterface registry escrow = true)
        (.panic "interface registration failed")

def reportMetric (inv : Invocation Addr home) (s : State Addr) (count : ℕ) : Result Unit :=
  match s.healthDashboard with
  | none => pure ()
  | some dashboard => require (inv.recordsMetric dashboard count = true) .subcall

/-- The address comes from the session, the mentor, the learner and the nonce of the session.
Whether the session is mapped already is not looked at. -/
def deployEscrowInternal (escrowAddress : String → Addr → Addr → ℕ → Addr)
    (inv : Invocation Addr home) (s : State Addr) (params : DeployParams Addr)
    (now sessionEnd : ℕ) : Result (State Addr × Addr) := do
  let nextNonce ← checkedU32 (s.sessionNonce params.sessionId + 1) (.panic "nonce overflow")
  require (now + stateTransitionTimeoutSecs < 2 ^ 64) (.panic "deployment timeout overflow")
  let escrow := escrowAddress params.sessionId params.mentor params.learner nextNonce
  require (inv.initializesEscrow escrow (calculateEscrowFees 0 100) = true)
    (.panic "escrow initialization failed")
  require (inv.createsEscrow escrow params sessionEnd = true) (.panic "escrow creation failed")
  let count ← u64 (s.escrowCount + 1)
  let info : EscrowInfo Addr := ⟨escrow, params.sessionId, params.mentor, params.learner, now⟩
  registerInterface inv s escrow
  reportMetric inv s count
  pure ({ s with
    sessionNonce := Function.update s.sessionNonce params.sessionId nextNonce
    escrowMapping := Function.update s.escrowMapping params.sessionId (some escrow)
    escrowCount := count
    escrowList := Function.update s.escrowList count (some info) }, escrow)

/-- Stores the request and returns the address that the next deployment would get. An earlier
request for the session is overwritten. -/
def requestHighValueSession (escrowAddress : String → Addr → Addr → ℕ → Addr) (now : ℕ)
    (s : State Addr) (params : DeployParams Addr) : Result (State Addr × Addr) := do
  let _ ← u64 (now + highValueApprovalWindowSecs)
  let nextNonce ← checkedU32 (s.sessionNonce params.sessionId + 1) (.panic "nonce overflow")
  let pending : PendingSession Addr :=
    ⟨params.mentor, params.learner, params.amount, params.token, now⟩
  pure ({ s with
    pendingHighValueSession :=
      Function.update s.pendingHighValueSession params.sessionId (some pending) },
    escrowAddress params.sessionId params.mentor params.learner nextNonce)

/-- The test of the caller against the admin always passes, and nothing is signed. -/
def deployEscrow [DecidableEq Addr] (escrowAddress : String → Addr → Addr → ℕ → Addr)
    (inv : Invocation Addr home) (s : State Addr) (params : DeployParams Addr) :
    Result (State Addr × Addr) := do
  let _ ← getAdmin s
  let expectedFee ← expectedFeeOf params.amount
  let s ← checkFeeEvasion inv s params.learner expectedFee
  requireNotPaused inv s
  requireNoAnomaly inv s params.learner params.amount
  require (s.escrowMapping params.sessionId = none) (.panic "Session ID already exists")
  let _ ← expect s.implementation (.panic "Implementation not set")
  let now := inv.timestamp
  let sessionEnd ← checkedU64 (now + defaultSessionDurationSecs) (.panic "timestamp overflow")
  validateFutureTimestamp now sessionEnd minSessionDurationSecs maxSessionDurationSecs
  if highValueThreshold < params.amount then
    requestHighValueSession escrowAddress now s params
  else
    deployEscrowInternal escrowAddress inv s params now sessionEnd

/-- Whoever signs for `multisig` approves. The refund and the removal of a request that has expired
are reverted by the panic that follows them. -/
def approveHighValueSession (escrowAddress : String → Addr → Addr → ℕ → Addr)
    (inv : Invocation Addr home) (s : State Addr) (multisig : Addr) (sessionId : String) :
    Result (State Addr × Addr) := do
  requireAuth inv.toEnv multisig
  let pending ← expect (s.pendingHighValueSession sessionId) (.panic "Session not pending")
  let now := inv.timestamp
  let approvalEnd ← u64 (pending.requestedAt + highValueApprovalWindowSecs)
  let removed : State Addr := { s with
    pendingHighValueSession := Function.update s.pendingHighValueSession sessionId none }
  if approvalEnd < now then
    require (inv.refunds pending = true) .subcall
    .error (.panic "Approval expired, refunded learner")
  else
    let _ ← expect s.implementation (.panic "Implementation not set")
    let sessionEnd ← checkedU64 (now + defaultSessionDurationSecs) (.panic "timestamp overflow")
    deployEscrowInternal escrowAddress inv removed
      ⟨pending.mentor, pending.learner, pending.amount, pending.token, sessionId⟩ now sessionEnd

/-- The hash of the payload is not compared with the parameters. -/
def executeMetaTx [DecidableEq Addr] (escrowAddress : String → Addr → Addr → ℕ → Addr)
    (inv : Invocation Addr home) (s : State Addr) (signer : Addr) (payload : MetaTxPayload Addr)
    (params : DeployParams Addr) : Result (State Addr × Addr) := do
  require (payload.action = .deployEscrow) (.panic "meta: wrong action")
  let nonces ← validateAndConsumeNonce inv.timestamp home inv.authForArgs s.nonces signer payload
  deployEscrow escrowAddress inv { s with nonces := nonces } params

end Deployment

section Administration

/-- The entry point `initialize`, which asks for no authorisation. -/
def initializeFactory (s : State Addr) (admin implementationAddress : Addr) :
    Result (State Addr) := do
  require (s.admin = none) (.panic "Already initialized")
  pure { s with
    admin := some admin
    implementation := some implementationAddress
    escrowCount := 0 }

/-- What the setters begin with: the admin is stored, and has signed. -/
def requireStoredAdmin (inv : Invocation Addr home) (s : State Addr) : Result Unit := do
  let admin ← getAdmin s
  requireAuth inv.toEnv admin

def setPauseGuardian (inv : Invocation Addr home) (s : State Addr) (guardian : Addr) :
    Result (State Addr) := do
  requireStoredAdmin inv s
  pure { s with pauseGuardian := some guardian }

def setInterfaceRegistry (inv : Invocation Addr home) (s : State Addr) (registry : Addr) :
    Result (State Addr) := do
  requireStoredAdmin inv s
  pure { s with interfaceRegistry := some registry }

def setHealthDashboard (inv : Invocation Addr home) (s : State Addr) (healthDashboard : Addr) :
    Result (State Addr) := do
  requireStoredAdmin inv s
  pure { s with healthDashboard := some healthDashboard }

def setAnomalyDetector (inv : Invocation Addr home) (s : State Addr) (detector : Addr) :
    Result (State Addr) := do
  requireStoredAdmin inv s
  pure { s with anomalyDetector := some detector }

def setBypassAnomalyCheck (inv : Invocation Addr home) (s : State Addr) (bypass : Bool) :
    Result (State Addr) := do
  requireStoredAdmin inv s
  pure { s with bypassAnomaly := bypass }

def upgradeImplementation (inv : Invocation Addr home) (s : State Addr)
    (newImplementation : Addr) : Result (State Addr) := do
  requireStoredAdmin inv s
  pure { s with implementation := some newImplementation }

variable [DecidableEq Addr]

def proposeAdminChange (inv : Invocation Addr home) (s : State Addr)
    (currentAdmin newAdmin : Addr) : Result (State Addr) := do
  requireAuth inv.toEnv currentAdmin
  let admin ← getAdmin s
  require (currentAdmin = admin) (.panic "Unauthorized")
  let effectiveAt ← checkedU64 (inv.timestamp + adminChangeTimelock) (.panic "timestamp overflow")
  pure { s with pendingAdmin := some ⟨newAdmin, effectiveAt⟩ }

def acceptAdminChange (inv : Invocation Addr home) (s : State Addr) (newAdmin : Addr) :
    Result (State Addr) := do
  requireAuth inv.toEnv newAdmin
  let pending ← expect s.pendingAdmin (.panic "no pending admin change")
  require (pending.newAdmin = newAdmin) (.panic "unauthorized")
  require (pending.effectiveAt ≤ inv.timestamp) (.panic "admin change not yet effective")
  pure { s with admin := some newAdmin, pendingAdmin := none }

omit [DecidableEq Addr] in
def cancelAdminChange (inv : Invocation Addr home) (s : State Addr) (multisig : Addr) :
    Result (State Addr) := do
  requireAuth inv.toEnv multisig
  require (s.pendingAdmin.isSome = true) (.panic "no pending admin change")
  pure { s with pendingAdmin := none }

end Administration

/-- The functions that write, with their arguments. -/
inductive Call (Addr : Type) where
  | initializeFactory (admin implementationAddress : Addr)
  | proposeAdminChange (currentAdmin newAdmin : Addr)
  | acceptAdminChange (newAdmin : Addr)
  | cancelAdminChange (multisig : Addr)
  | setPauseGuardian (guardian : Addr)
  | setInterfaceRegistry (registry : Addr)
  | setHealthDashboard (healthDashboard : Addr)
  | setAnomalyDetector (detector : Addr)
  | setBypassAnomalyCheck (bypass : Bool)
  | upgradeImplementation (newImplementation : Addr)
  | checkFeeEvasion (learner : Addr) (expectedFee : ℤ)
  | deployEscrow (params : DeployParams Addr)
  | executeMetaTx (signer : Addr) (payload : MetaTxPayload Addr) (params : DeployParams Addr)
  | approveHighValueSession (multisig : Addr) (sessionId : String)

variable [DecidableEq Addr]

def exec (escrowAddress : String → Addr → Addr → ℕ → Addr) (inv : Invocation Addr home)
    (call : Call Addr) (s : State Addr) : Result (State Addr) :=
  match call with
  | .initializeFactory admin implementationAddress =>
      initializeFactory s admin implementationAddress
  | .proposeAdminChange currentAdmin newAdmin => proposeAdminChange inv s currentAdmin newAdmin
  | .acceptAdminChange newAdmin => acceptAdminChange inv s newAdmin
  | .cancelAdminChange multisig => cancelAdminChange inv s multisig
  | .setPauseGuardian guardian => setPauseGuardian inv s guardian
  | .setInterfaceRegistry registry => setInterfaceRegistry inv s registry
  | .setHealthDashboard healthDashboard => setHealthDashboard inv s healthDashboard
  | .setAnomalyDetector detector => setAnomalyDetector inv s detector
  | .setBypassAnomalyCheck bypass => setBypassAnomalyCheck inv s bypass
  | .upgradeImplementation newImplementation => upgradeImplementation inv s newImplementation
  | .checkFeeEvasion learner expectedFee => checkFeeEvasion inv s learner expectedFee
  | .deployEscrow params => Prod.fst <$> deployEscrow escrowAddress inv s params
  | .executeMetaTx signer payload params =>
      Prod.fst <$> executeMetaTx escrowAddress inv s signer payload params
  | .approveHighValueSession multisig sessionId =>
      Prod.fst <$> approveHighValueSession escrowAddress inv s multisig sessionId

/-- A call and what its invocation sees. -/
abbrev Step (Addr : Type) (home : Addr) := Invocation Addr home × Call Addr

def machine (home : Addr) (escrowAddress : String → Addr → Addr → ℕ → Addr) :
    Machine (State Addr) (Step Addr home) Trap where
  exec step := exec escrowAddress step.1 step.2

/-- The state after a run from deployment. -/
abbrev reached (escrowAddress : String → Addr → Addr → ℕ → Addr) (steps : List (Step Addr home)) :
    State Addr :=
  (machine home escrowAddress).run (deployed Addr) steps

end EscrowFactory
