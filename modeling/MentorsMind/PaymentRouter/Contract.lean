import MentorsMind.Shared.Throttling
import MentorsMind.Soroban.TokenLedger

/-! The payment router: a payment from a supported chain is routed into an escrow of the configured
escrow contract, once for each source transaction. The escrow contracts are seen from outside, as
books that take each session once. The events and the storage lifetimes are left out. -/
namespace PaymentRouter
open Outcome Soroban

def chainStellar : ℕ := 0
def chainEthereum : ℕ := 2
def chainSolana : ℕ := 1
def chainBsc : ℕ := 4

/-- 5 %. -/
def oraclePriceDeviationBps : ℤ := 500

/-- 30 days. -/
def sessionLength : ℕ := 30 * 24 * 60 * 60

/-- 48 hours. -/
def updateDelay : ℕ := 48 * 60 * 60

structure RouterConfig (Addr : Type) where
  admin : Addr
  escrowContract : Addr
  bridgeReceiver : Addr
  oracleContract : Option Addr

/-- What `route_payment` is handed. -/
structure Payment (Addr : Type) where
  sourceChain : ℕ
  sourceTxHash : Hash
  learner : Addr
  mentor : Addr
  amount : ℤ
  token : Addr

structure PaymentRoute (Addr : Type) extends Payment Addr where
  escrowId : ℕ
  createdAt : ℕ

/-- What the router asks of the escrow contract. -/
structure EscrowRequest (Addr : Type) where
  mentor : Addr
  learner : Addr
  amount : ℤ
  sessionId : String
  token : Addr
  sessionEndTime : ℕ
  totalSessions : ℕ

/-- What an escrow contract that takes each session once keeps of them. -/
structure EscrowBook where
  usedSessionNonce : Hash → Bool
  escrowCount : ℕ

/-- A payment that was routed. -/
structure Routing (Addr : Type) where
  sourceTxHash : Hash
  escrowContract : Addr
  sessionId : String
  escrowId : ℕ

/-- One field for each storage key; an absent count reads as zero and an absent flag as false.
`transfers` and `routed` are what the tokens moved and what was routed so far, latest first, and
`escrows` belongs to the escrow contracts. -/
structure State (Addr : Type) where
  config : Option (RouterConfig Addr)
  route : Hash → Option (PaymentRoute Addr)
  processedTx : Hash → Bool
  escrowIdCounter : ℕ
  approvedToken : Addr → Bool
  feeBps : ℕ
  treasury : Option Addr
  timelock : Option Addr
  multisig : Option Addr
  supportedChains : List ℕ
  mevInteractionCount : Addr × ℕ → ℕ
  transfers : List (Transfer Addr)
  routed : List (Routing Addr)
  escrows : Addr → EscrowBook

def deployed {Addr : Type} (escrows : Addr → EscrowBook) : State Addr where
  config := none
  route _ := none
  processedTx _ := false
  escrowIdCounter := 0
  approvedToken _ := false
  feeBps := 0
  treasury := none
  timelock := none
  multisig := none
  supportedChains := []
  mevInteractionCount _ := 0
  transfers := []
  routed := []
  escrows := escrows

/-- One invocation: the ledger, the signers and what the other contracts answer. A call that traps
answers `none`, or `false` where only success counts. -/
structure Invocation (Addr : Type) (home : Addr) extends Env Addr home where
  /-- An honest token moves what it is asked to, or refuses. -/
  accepts : Transfer Addr → Bool
  balance : Addr → Addr → Option ℤ
  isVaaProcessed : Addr → Hash → Option Bool
  getAssetForToken : Addr → Addr → Option (Option String)
  isPriceManipulated : Addr → String → ℤ → Option Bool
  /-- The request passes what the escrow contract checks besides the session. -/
  escrowAllows : Addr → EscrowRequest Addr → Bool
  /-- The timelock takes the entry point, its argument and the delay. -/
  schedules : Addr → String → Addr → ℕ → Bool

variable {Addr : Type} {self : Addr}

/-- `create_escrow` of an escrow contract that accepts a session at most once. -/
def EscrowBook.create (digest : String → Hash) (book : EscrowBook) (allowed : Bool)
    (sessionId : String) : Result (EscrowBook × ℕ) := do
  require (allowed = true) .subcall
  require (book.usedSessionNonce (digest sessionId) = false) .subcall
  let count ← u64 (book.escrowCount + 1)
  let used := Function.update book.usedSessionNonce (digest sessionId) true
  pure (⟨used, count⟩, count)

def getConfig (s : State Addr) : Result (RouterConfig Addr) :=
  expect s.config (.panic "Router not initialized")

def init (s : State Addr) (admin escrowContract bridgeReceiver : Addr) :
    Result (State Addr) := do
  require (s.config.isNone = true) (.panic "Already initialized")
  pure { s with
    config := some ⟨admin, escrowContract, bridgeReceiver, none⟩
    supportedChains := [chainStellar, chainEthereum, chainSolana, chainBsc]
    escrowIdCounter := 0 }

/-- The first lines of the entry points of the admin. -/
def requireAdmin (inv : Invocation Addr self) (s : State Addr) : Result (RouterConfig Addr) := do
  let config ← getConfig s
  requireAuth inv.toEnv config.admin
  pure config

/-- The first lines of the entry points of the timelock. -/
def requireTimelock (inv : Invocation Addr self) (s : State Addr) :
    Result (RouterConfig Addr) := do
  let timelock ← expect s.timelock (.panic "Timelock not set")
  requireAuth inv.toEnv timelock
  getConfig s

/-- The amount is multiplied by the rate, or by nothing where that overflows. -/
def calculateFee (s : State Addr) (amount : ℤ) : ℤ :=
  if 0 < s.feeBps then
    (if FitsI128 (amount * s.feeBps) then amount * s.feeBps else 0).tdiv 10000
  else 0

/-- `amount.checked_sub(fee).unwrap_or(0)` -/
def netAmount (s : State Addr) (amount : ℤ) : ℤ :=
  let rest := amount - calculateFee s amount
  if FitsI128 rest then rest else 0

def verifySourceTransaction (inv : Invocation Addr self) (s : State Addr) (sourceChain : ℕ)
    (sourceTxHash : Hash) : Result Unit := do
  let config ← getConfig s
  require (sourceChain ∈ s.supportedChains) (.panic "Source chain not supported")
  if sourceChain ≠ chainStellar then
    let isProcessed ← expect (inv.isVaaProcessed config.bridgeReceiver sourceTxHash) .subcall
    require (isProcessed = true) (.panic "Bridge transaction not verified")
  else pure ()

/-- A token that the oracle does not track is not checked. -/
def validateOraclePrice (inv : Invocation Addr self) (oracle token : Addr) : Result Unit := do
  let maybeAsset ← expect (inv.getAssetForToken oracle token) .subcall
  match maybeAsset with
  | none => pure ()
  | some asset =>
    let manipulated ←
      expect (inv.isPriceManipulated oracle asset oraclePriceDeviationBps) .subcall
    require (manipulated = false)
      (.panic "oracle: price manipulation detected — payment routing blocked")

/-- What `route_payment` checks before money moves; the config it goes on with. -/
def checkPayment (inv : Invocation Addr self) (s : State Addr) (p : Payment Addr) :
    Result (RouterConfig Addr) := do
  verifySourceTransaction inv s p.sourceChain p.sourceTxHash
  require (s.processedTx p.sourceTxHash = false) (.panic "Transaction already routed")
  require (0 < p.amount) (.panic "Amount must be positive")
  require (p.sourceChain = chainStellar → inv.auth p.learner = true) .unauthorized
  let config ← getConfig s
  match config.oracleContract with
  | none => pure config
  | some oracle => do
    validateOraclePrice inv oracle p.token
    pure config

/-- The fee of a direct payment goes to the treasury. -/
def transferFee (inv : Invocation Addr self) (s : State Addr) (p : Payment Addr) :
    Result (List (Transfer Addr)) :=
  let fee := calculateFee s p.amount
  if 0 < fee then do
    let treasury ← expect s.treasury (.panic "Treasury not set")
    require (inv.accepts ⟨p.token, p.learner, treasury, fee⟩ = true) .subcall
    pure [⟨p.token, p.learner, treasury, fee⟩]
  else pure []

/-- A learner who pays directly has to hold the whole amount. -/
def collectFee (inv : Invocation Addr self) (s : State Addr) (p : Payment Addr) :
    Result (List (Transfer Addr)) :=
  if p.sourceChain = chainStellar then do
    let balance ← expect (inv.balance p.token p.learner) .subcall
    require (p.amount ≤ balance) (.panic "Insufficient token balance")
    transferFee inv s p
  else pure []

/-- The same for every payment: the source reads neither argument. -/
def generateSessionId (_sourceTxHash : Hash) (_sourceChain : ℕ) : String := "RT_ROUT"

/-- What the escrow contract is asked for; its session ends 30 days from now. -/
def escrowRequest (inv : Invocation Addr self) (s : State Addr) (p : Payment Addr) :
    EscrowRequest Addr where
  mentor := p.mentor
  learner := p.learner
  amount := netAmount s p.amount
  sessionId := generateSessionId p.sourceTxHash p.sourceChain
  token := p.token
  sessionEndTime := inv.timestamp + sessionLength
  totalSessions := 1

/-- The call of the escrow contract. -/
def createEscrow (digest : String → Hash) (inv : Invocation Addr self) (s : State Addr)
    (escrowContract : Addr) (p : Payment Addr) : Result (EscrowBook × ℕ) := do
  let _ ← u64 (inv.timestamp + sessionLength)
  let request := escrowRequest inv s p
  (s.escrows escrowContract).create digest (inv.escrowAllows escrowContract request)
    request.sessionId

def setFeeBps (inv : Invocation Addr self) (s : State Addr) (feeBps : ℕ) :
    Result (State Addr) := do
  let _ ← requireAdmin inv s
  require (feeBps ≤ 10000) (.panic "Fee > 10000 bps")
  pure { s with feeBps := feeBps }

def setTreasury (inv : Invocation Addr self) (s : State Addr) (treasury : Addr) :
    Result (State Addr) := do
  let _ ← requireAdmin inv s
  pure { s with treasury := some treasury }

def addSupportedChain (inv : Invocation Addr self) (s : State Addr) (chainId : ℕ) :
    Result (State Addr) := do
  let _ ← requireAdmin inv s
  require (chainId ∉ s.supportedChains) (.panic "Chain already supported")
  pure { s with supportedChains := s.supportedChains ++ [chainId] }

def removeSupportedChain (inv : Invocation Addr self) (s : State Addr) (chainId : ℕ) :
    Result (State Addr) := do
  let _ ← requireAdmin inv s
  require (chainId ≠ chainStellar) (.panic "Cannot remove Stellar native chain")
  pure { s with supportedChains := s.supportedChains.filter (· ≠ chainId) }

def setTimelock (inv : Invocation Addr self) (s : State Addr) (timelock : Addr) :
    Result (State Addr) := do
  let _ ← requireAdmin inv s
  pure { s with timelock := some timelock }

def setMultisig (inv : Invocation Addr self) (s : State Addr) (multisig : Addr) :
    Result (State Addr) := do
  let _ ← requireAdmin inv s
  pure { s with multisig := some multisig }

/-- Both entry points that schedule an update write nothing themselves. -/
def schedule (inv : Invocation Addr self) (s : State Addr) (function : String) (target : Addr) :
    Result (State Addr) := do
  let multisig ← expect s.multisig (.panic "Multisig not set")
  requireAuth inv.toEnv multisig
  let timelock ← expect s.timelock (.panic "Timelock not set")
  require (inv.schedules timelock function target updateDelay = true) .subcall
  pure s

def scheduleEscrowContract (inv : Invocation Addr self) (s : State Addr) (newEscrow : Addr) :
    Result (State Addr) :=
  schedule inv s "set_escrow_contract" newEscrow

def scheduleBridgeReceiver (inv : Invocation Addr self) (s : State Addr) (newBridge : Addr) :
    Result (State Addr) :=
  schedule inv s "set_bridge_receiver" newBridge

def setEscrowContract (inv : Invocation Addr self) (s : State Addr) (escrowContract : Addr) :
    Result (State Addr) := do
  let config ← requireTimelock inv s
  pure { s with config := some { config with escrowContract := escrowContract } }

def setBridgeReceiver (inv : Invocation Addr self) (s : State Addr) (bridgeReceiver : Addr) :
    Result (State Addr) := do
  let config ← requireTimelock inv s
  pure { s with config := some { config with bridgeReceiver := bridgeReceiver } }

def setOracle (inv : Invocation Addr self) (s : State Addr) (oracleContract : Addr) :
    Result (State Addr) := do
  let config ← requireAdmin inv s
  pure { s with config := some { config with oracleContract := some oracleContract } }

def clearOracle (inv : Invocation Addr self) (s : State Addr) : Result (State Addr) := do
  let config ← requireAdmin inv s
  pure { s with config := some { config with oracleContract := none } }

variable [DecidableEq Addr]

def setApprovedToken (inv : Invocation Addr self) (s : State Addr) (token : Addr)
    (approved : Bool) : Result (State Addr) := do
  let _ ← requireAdmin inv s
  pure { s with approvedToken := Function.update s.approvedToken token approved }

def routePayment (digest : String → Hash) (inv : Invocation Addr self) (s : State Addr)
    (p : Payment Addr) : Result (State Addr) := do
  require (s.approvedToken p.token = true) (.panic "Token not approved for routing")
  let interactions ← u32 (s.mevInteractionCount (p.learner, inv.sequence) + 1)
  require (Shared.enforceProtocolIsolation (Shared.arbitrageRiskScore interactions) = true)
    (.panic "MEV protection: atomic arbitrage detected — route rejected")
  let config ← checkPayment inv s p
  let fees ← collectFee inv s p
  let (book, escrowId) ← createEscrow digest inv s config.escrowContract p
  let counter ← checkedU64 (s.escrowIdCounter + 1) (.panic "Overflow")
  let route : PaymentRoute Addr := {
    toPayment := { p with amount := netAmount s p.amount }
    escrowId := escrowId
    createdAt := inv.timestamp }
  let sessionId := generateSessionId p.sourceTxHash p.sourceChain
  pure { s with
    mevInteractionCount :=
      Function.update s.mevInteractionCount (p.learner, inv.sequence) interactions
    transfers := fees ++ s.transfers
    escrows := Function.update s.escrows config.escrowContract book
    route := Function.update s.route p.sourceTxHash (some route)
    processedTx := Function.update s.processedTx p.sourceTxHash true
    escrowIdCounter := counter
    routed := ⟨p.sourceTxHash, config.escrowContract, sessionId, escrowId⟩ :: s.routed }

/-- Somebody else opens a session at an escrow contract. -/
def openElsewhere (digest : String → Hash) (inv : Invocation Addr self) (s : State Addr)
    (escrowContract : Addr) (request : EscrowRequest Addr) : Result (State Addr) := do
  let (book, _) ← (s.escrows escrowContract).create digest
    (inv.escrowAllows escrowContract request) request.sessionId
  pure { s with escrows := Function.update s.escrows escrowContract book }

/-- The entry points that write, with their arguments, and what others do at the escrows. -/
inductive Call (Addr : Type) where
  | init (admin escrowContract bridgeReceiver : Addr)
  | setApprovedToken (token : Addr) (approved : Bool)
  | routePayment (p : Payment Addr)
  | setFeeBps (feeBps : ℕ)
  | setTreasury (treasury : Addr)
  | addSupportedChain (chainId : ℕ)
  | removeSupportedChain (chainId : ℕ)
  | setTimelock (timelock : Addr)
  | setMultisig (multisig : Addr)
  | scheduleEscrowContract (newEscrow : Addr)
  | scheduleBridgeReceiver (newBridge : Addr)
  | setEscrowContract (escrowContract : Addr)
  | setBridgeReceiver (bridgeReceiver : Addr)
  | setOracle (oracleContract : Addr)
  | clearOracle
  | openElsewhere (escrowContract : Addr) (request : EscrowRequest Addr)

def exec (digest : String → Hash) (inv : Invocation Addr self) (call : Call Addr)
    (s : State Addr) : Result (State Addr) :=
  match call with
  | .init admin escrowContract bridgeReceiver => init s admin escrowContract bridgeReceiver
  | .setApprovedToken token approved => setApprovedToken inv s token approved
  | .routePayment p => routePayment digest inv s p
  | .setFeeBps feeBps => setFeeBps inv s feeBps
  | .setTreasury treasury => setTreasury inv s treasury
  | .addSupportedChain chainId => addSupportedChain inv s chainId
  | .removeSupportedChain chainId => removeSupportedChain inv s chainId
  | .setTimelock timelock => setTimelock inv s timelock
  | .setMultisig multisig => setMultisig inv s multisig
  | .scheduleEscrowContract newEscrow => scheduleEscrowContract inv s newEscrow
  | .scheduleBridgeReceiver newBridge => scheduleBridgeReceiver inv s newBridge
  | .setEscrowContract escrowContract => setEscrowContract inv s escrowContract
  | .setBridgeReceiver bridgeReceiver => setBridgeReceiver inv s bridgeReceiver
  | .setOracle oracleContract => setOracle inv s oracleContract
  | .clearOracle => clearOracle inv s
  | .openElsewhere escrowContract request => openElsewhere digest inv s escrowContract request

abbrev Step (Addr : Type) (self : Addr) := Invocation Addr self × Call Addr

/-- The deployed router beside the escrow contracts. -/
def machine (digest : String → Hash) (self : Addr) :
    Machine (State Addr) (Step Addr self) Trap where
  exec step := exec digest step.1 step.2

/-- The state after a run from deployment, beside escrow contracts with books of their own. -/
abbrev reached (digest : String → Hash) (escrows : Addr → EscrowBook)
    (steps : List (Step Addr self)) : State Addr :=
  (machine digest self).run (deployed escrows) steps

end PaymentRouter
