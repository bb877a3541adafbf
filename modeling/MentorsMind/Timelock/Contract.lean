import MentorsMind.Shared.SafeMath

/-! The timelock controller: operations are scheduled with a delay, executed in a window
after it, or cancelled by the admin or by the guardian multisig. Lifetimes of entries and
the paged views are left out. -/
namespace Timelock
open Outcome Soroban Shared

inductive Error where
  | alreadyInitialized
  | notInitialized
  | notAdmin
  | operationNotFound
  | alreadyDone
  | invalidDelay
  | notGuardian
  | invalidGuardianConfig
  | guardianLimitExceeded
  | missingJustification
  | operationExpired

def Error.code : Error → ℕ
  | .alreadyInitialized => 1
  | .notInitialized => 2
  | .notAdmin => 3
  | .operationNotFound => 4
  | .alreadyDone => 5
  | .invalidDelay => 7
  | .notGuardian => 8
  | .invalidGuardianConfig => 9
  | .guardianLimitExceeded => 10
  | .missingJustification => 11
  | .operationExpired => 14

def Error.trap (e : Error) : Trap := .contractError e.code

def minDelay : ℕ := 48 * 60 * 60
def maxDelay : ℕ := 30 * 24 * 60 * 60
def operationExpirySecs : ℕ := 14 * 24 * 60 * 60
def timestampToleranceSecs : ℕ := 60
def minGuardianThreshold : ℕ := 4
def minGuardianSigners : ℕ := 7
def maxGuardianOverridesPerPeriod : ℕ := 3
def guardianOverridePeriodSecs : ℕ := 30 * 24 * 60 * 60
def guardianVetoPeriodSecs : ℕ := 48 * 60 * 60

/-! The predicates of the module `logic`. -/

def isValidDelay (delay : ℕ) : Bool := minDelay ≤ delay ∧ delay ≤ maxDelay

def computeReadyAt (now delay : ℕ) : Option ℕ :=
  if now + delay < 2 ^ 64 then some (now + delay) else none

def isExecutable (now readyAt : ℕ) : Bool :=
  saturatingAddU64 readyAt timestampToleranceSecs ≤ now ∧
    readyAt + operationExpirySecs < 2 ^ 64 ∧ now < readyAt + operationExpirySecs

def canTransition (done : Bool) : Bool := !done

def canCancel (isProposer isAdmin : Bool) : Bool := isProposer || isAdmin

def isGuardianOverrideWithinLimit (overrideCount : ℕ) : Bool :=
  overrideCount < maxGuardianOverridesPerPeriod

def getOverridePeriodStart (now : ℕ) : ℕ := now - guardianOverridePeriodSecs

structure Operation (Addr Val : Type) where
  proposer : Addr
  target : Addr
  function : String
  args : List Val
  readyAt : ℕ
  done : Bool
  deriving DecidableEq

structure GuardianActionAudit (Addr : Type) where
  actionId : Hash
  guardian : Addr
  operationId : Hash
  justificationHash : Hash
  timestamp : ℕ
  vetoEndTime : ℕ
  vetoPower : ℤ
  vetoCount : ℕ
  isVetoed : Bool

/-- A call that the timelock makes to another contract. -/
structure ContractCall (Addr Val : Type) where
  target : Addr
  function : String
  args : List Val
  deriving DecidableEq

/-- What `schedule` hashes to get the id of an operation. -/
structure Payload (Addr Val : Type) where
  caller : Addr
  target : Addr
  function : String
  args : List Val
  readyAt : ℕ
  count : ℕ
  salt : Hash

/-- The digests that the host computes, of an operation and of a guardian action. -/
structure Digests (Addr Val : Type) where
  operation : Payload Addr Val → Hash
  action : Addr → Hash → ℕ → Hash

/-- One field for each storage key, and the calls made to other contracts, latest first. -/
structure State (Addr Val : Type) where
  admin : Option Addr
  opCount : ℕ
  operationCount : ℕ
  operationIndex : ℕ → Option Hash
  op : Hash → Option (Operation Addr Val)
  cancelled : Hash → Bool
  guardianMultisig : Option Addr
  guardianOverrideTimestamps : Addr → List ℕ
  guardianAudit : Hash → Option (GuardianActionAudit Addr)
  guardianAuditCount : ℕ
  invoked : List (ContractCall Addr Val)

def deployed (Addr Val : Type) : State Addr Val where
  admin := none
  opCount := 0
  operationCount := 0
  operationIndex _ := none
  op _ := none
  cancelled _ := false
  guardianMultisig := none
  guardianOverrideTimestamps _ := []
  guardianAudit _ := none
  guardianAuditCount := 0
  invoked := []

/-- One invocation: the ledger, the signers, and what the other contracts answer. A call to
another contract that traps answers `none`, or `false` where only success counts. -/
structure Invocation (Addr Val : Type) (home : Addr) extends Env Addr home where
  accepts : ContractCall Addr Val → Bool
  getThreshold : Addr → Option ℕ
  getSignerCount : Addr → Option ℕ

variable {Addr Val : Type} {self : Addr}

namespace State

def setOp (s : State Addr Val) (id : Hash) (op : Operation Addr Val) : State Addr Val :=
  { s with op := Function.update s.op id (some op) }

/-- The two writes that close an operation without executing it. -/
def cancelOp (s : State Addr Val) (id : Hash) (op : Operation Addr Val) : State Addr Val :=
  { s.setOp id { op with done := true } with cancelled := Function.update s.cancelled id true }

end State

/-- The entry point `initialize`, which asks for no authorisation. -/
def initializeTimelock (s : State Addr Val) (admin : Addr) : Result (State Addr Val) := do
  require (s.admin = none) Error.alreadyInitialized.trap
  pure { s with admin := some admin, opCount := 0, operationCount := 0 }

/-- `schedule` returns the id of the operation. -/
def schedule (digests : Digests Addr Val) (inv : Invocation Addr Val self) (s : State Addr Val)
    (caller target : Addr) (function : String) (args : List Val) (delay : ℕ) (salt : Hash) :
    Result (State Addr Val × Hash) := do
  require (s.admin ≠ none) Error.notInitialized.trap
  require (minDelay ≤ delay ∧ delay ≤ maxDelay) Error.invalidDelay.trap
  requireAuth inv.toEnv caller
  let count ← u64 (s.opCount + 1)
  let readyAt ← checkedU64 (inv.timestamp + delay) (.panic "timestamp overflow")
  let opId := digests.operation ⟨caller, target, function, args, readyAt, count, salt⟩
  let op : Operation Addr Val := ⟨caller, target, function, args, readyAt, false⟩
  let operationIndex := s.operationCount
  let operationCount ← checkedU32 (operationIndex + 1) (.panic "operation count overflow")
  pure ({ s.setOp opId op with
    opCount := count
    operationIndex := Function.update s.operationIndex operationIndex (some opId)
    operationCount := operationCount }, opId)

/-- The host keeps the target from calling back into the timelock. -/
def execute (inv : Invocation Addr Val self) (s : State Addr Val) (operationId : Hash) :
    Result (State Addr Val) := do
  let op ← expect (s.op operationId) (.panic "operation not found")
  require (op.done = false) (.panic "operation already done")
  require (saturatingAddU64 op.readyAt timestampToleranceSecs ≤ inv.timestamp)
    (.panic "operation not ready")
  let expiry ← checkedU64 (op.readyAt + operationExpirySecs) (.panic "timestamp overflow")
  require (inv.timestamp < expiry) Error.operationExpired.trap
  let call : ContractCall Addr Val := ⟨op.target, op.function, op.args⟩
  require (inv.accepts call = true) .subcall
  pure { s.setOp operationId { op with done := true } with invoked := call :: s.invoked }

/-- The signature asked for is the admin's, also when the proposer is somebody else. -/
def cancel [DecidableEq Addr] (inv : Invocation Addr Val self) (s : State Addr Val)
    (operationId : Hash) : Result (State Addr Val) := do
  let op ← expect (s.op operationId) (.panic "operation not found")
  require (op.done = false) (.panic "operation already done")
  let admin ← expect s.admin (.panic "not initialized")
  if op.proposer ≠ admin then requireAuth inv.toEnv admin
  else requireAuth inv.toEnv op.proposer
  pure (s.cancelOp operationId op)

/-- The recorded overrides that still count at time `now`. -/
def recentOverrides (now : ℕ) (timestamps : List ℕ) : List ℕ :=
  timestamps.filter fun timestamp => getOverridePeriodStart now ≤ timestamp

/-- The entry that the limiter of `guardian` leaves, which drops what is too old to count. -/
def validateGuardianOverrideLimit [DecidableEq Addr] (s : State Addr Val) (guardian : Addr)
    (now : ℕ) : Result (State Addr Val) := do
  let stored := s.guardianOverrideTimestamps guardian
  require (isGuardianOverrideWithinLimit (recentOverrides now stored).length = true)
    Error.guardianLimitExceeded.trap
  let newTimestamps := recentOverrides now stored ++ [now]
  pure { s with guardianOverrideTimestamps :=
      Function.update s.guardianOverrideTimestamps guardian newTimestamps }

def recordGuardianAction (digests : Digests Addr Val) (s : State Addr Val) (guardian : Addr)
    (operationId justificationHash : Hash) (now : ℕ) : Result (State Addr Val) := do
  let vetoEndTime := saturatingAddU64 now guardianVetoPeriodSecs
  let auditCount ← u32 (s.guardianAuditCount + 1)
  let actionId := digests.action guardian operationId auditCount
  let audit : GuardianActionAudit Addr := {
    actionId := actionId
    guardian := guardian
    operationId := operationId
    justificationHash := justificationHash
    timestamp := now
    vetoEndTime := vetoEndTime
    vetoPower := 0
    vetoCount := 0
    isVetoed := false }
  pure { s with
    guardianAudit := Function.update s.guardianAudit actionId (some audit)
    guardianAuditCount := auditCount }

def emergencyCancel [DecidableEq Addr] (digests : Digests Addr Val)
    (inv : Invocation Addr Val self) (s : State Addr Val) (guardianMultisig : Addr)
    (operationId reasonHash : Hash) : Result (State Addr Val) := do
  let storedGuardian ← expect s.guardianMultisig Error.notGuardian.trap
  require (guardianMultisig = storedGuardian) Error.notGuardian.trap
  requireAuth inv.toEnv guardianMultisig
  require (reasonHash ≠ 0) Error.missingJustification.trap
  let op ← expect (s.op operationId) Error.operationNotFound.trap
  require (canTransition op.done = true) Error.alreadyDone.trap
  let limited ← validateGuardianOverrideLimit s guardianMultisig inv.timestamp
  let audited ← recordGuardianAction digests limited guardianMultisig operationId reasonHash
    inv.timestamp
  pure (audited.cancelOp operationId op)

/-- The first guardian is set by the admin, every later one by the guardian before it. -/
def setGuardianMultisig [DecidableEq Addr] (inv : Invocation Addr Val self)
    (s : State Addr Val) (admin newGuardian : Addr) : Result (State Addr Val) := do
  match s.guardianMultisig with
  | some currentGuardian =>
      require (admin = currentGuardian) Error.notGuardian.trap
      requireAuth inv.toEnv admin
  | none =>
      let storedAdmin ← expect s.admin Error.notInitialized.trap
      require (admin = storedAdmin) Error.notAdmin.trap
      requireAuth inv.toEnv admin
  let threshold ← expect (inv.getThreshold newGuardian) .subcall
  let signerCount ← expect (inv.getSignerCount newGuardian) .subcall
  require (minGuardianThreshold ≤ threshold ∧ minGuardianSigners ≤ signerCount)
    Error.invalidGuardianConfig.trap
  pure { s with guardianMultisig := some newGuardian }

def transferAdmin (inv : Invocation Addr Val self) (s : State Addr Val) (newAdmin : Addr) :
    Result (State Addr Val) := do
  let admin ← expect s.admin (.panic "not initialized")
  requireAuth inv.toEnv admin
  pure { s with admin := some newAdmin }

def isOperationReady (now : ℕ) (s : State Addr Val) (operationId : Hash) : Result Bool := do
  let op ← expect (s.op operationId) (.panic "operation not found")
  if op.done then pure false
  else pure (isExecutable now op.readyAt)

def isOperationDone (s : State Addr Val) (operationId : Hash) : Bool :=
  match s.op operationId with
  | some op => op.done
  | none => false

/-- The entry points that write, with their arguments. -/
inductive Call (Addr Val : Type) where
  | initializeTimelock (admin : Addr)
  | schedule (caller target : Addr) (function : String) (args : List Val) (delay : ℕ)
      (salt : Hash)
  | execute (operationId : Hash)
  | cancel (operationId : Hash)
  | emergencyCancel (guardianMultisig : Addr) (operationId reasonHash : Hash)
  | setGuardianMultisig (admin newGuardian : Addr)
  | transferAdmin (newAdmin : Addr)

variable [DecidableEq Addr]

def exec (digests : Digests Addr Val) (inv : Invocation Addr Val self) (call : Call Addr Val)
    (s : State Addr Val) : Result (State Addr Val) :=
  match call with
  | .initializeTimelock admin => initializeTimelock s admin
  | .schedule caller target function args delay salt => do
      let (t, _) ← schedule digests inv s caller target function args delay salt
      pure t
  | .execute operationId => execute inv s operationId
  | .cancel operationId => cancel inv s operationId
  | .emergencyCancel guardianMultisig operationId reasonHash =>
      emergencyCancel digests inv s guardianMultisig operationId reasonHash
  | .setGuardianMultisig admin newGuardian => setGuardianMultisig inv s admin newGuardian
  | .transferAdmin newAdmin => transferAdmin inv s newAdmin

abbrev Step (Addr Val : Type) (self : Addr) := Invocation Addr Val self × Call Addr Val

/-- The deployed timelock, under the digests that the host computes. -/
def machine (self : Addr) (digests : Digests Addr Val) :
    Machine (State Addr Val) (Step Addr Val self) Trap where
  exec step := exec digests step.1 step.2

/-- The state after a run from deployment. -/
abbrev reached (digests : Digests Addr Val) (steps : List (Step Addr Val self)) :
    State Addr Val :=
  (machine self digests).run (deployed Addr Val) steps

/-- An invocation at time `now` that everybody in `signers` signed, where every call to
another contract succeeds and every guardian has four of seven signers. -/
def grantedBy (home : Addr) (now : ℕ) (signers : List Addr) : Invocation Addr Val home where
  timestamp := now
  sequence := 0
  auth a := a ∈ signers ∧ a ≠ home
  auth_home := by simp
  accepts _ := true
  getThreshold _ := some 4
  getSignerCount _ := some 7

/-- Digests that tell operations apart by their number, and actions as well. -/
def countingDigests : Digests ℕ ℕ where
  operation p := BitVec.ofNat 256 p.count
  action _ _ auditCount := BitVec.ofNat 256 auditCount

end Timelock
