import MentorsMind.CrossChain.Bridge
import MentorsMind.Lib.AppendIndex

/-! The rest of the bridge receiver: the assets that it mints for approved messages, the escrows
that its relayers fund, the list of processed messages, and who may change the configuration. The
token and the escrow registry are seen from outside, and the events are left out. -/
namespace CrossChain.Receiver
open Outcome Soroban Bridge

def chainEthereum : ℕ := 2
def chainSolana : ℕ := 1
def chainBsc : ℕ := 4

structure L2Integration where
  networkId : ℕ
  finalityDelaySecs : ℕ
  challengePeriodSecs : ℕ
  lastL2Block : ℕ
  lastL1Commitment : ℕ
  emergencyShutdown : Bool

/-- A payment attestation that a trusted relayer submits. -/
structure BridgeMessage where
  sourceChainId : ℕ
  txHash : Hash
  sender : Hash
  amount : ℤ
  tokenSymbol : String
  nonce : ℕ

/-- A mint that the bridge asks of the wrapped token. -/
structure Mint (Addr : Type) where
  vaaHash : Hash
  token : Addr
  recipient : Addr
  amount : ℤ

/-- A call of `fund` that the bridge makes. -/
structure Funding (Addr : Type) where
  escrowRegistry : Addr
  escrowId : ℕ
  message : BridgeMessage

/-- The message's place in the order of its chain. -/
def Funding.slot {Addr : Type} (funding : Funding Addr) : ℕ × ℕ :=
  (funding.message.sourceChainId, funding.message.nonce)

/-- What is kept about processed messages: one field for each storage key, where an absent flag
reads as false and an absent count as zero, and two logs that no key stores, earliest first. -/
structure Books (Addr : Type) where
  processedVaas : List Hash
  processedVaa : Hash → Bool
  operationIndex : ℕ → Option Hash
  processedTxCount : ℕ
  processedNonce : ℕ × ℕ → Bool
  bridgeFundedEscrow : ℕ → Option BridgeMessage
  minted : List (Mint Addr)
  funded : List (Funding Addr)

/-- `Config` is kept in `bridge.admin`, `supportedChains` and `processedVaas`. -/
structure ReceiverState (Addr : Type) extends Books Addr where
  bridge : BridgeState Addr
  supportedChains : List ℕ
  wrappedToken : Option Addr
  l2Config : Option L2Integration
  escrowRegistry : Option Addr

def installed {Addr : Type} : ReceiverState Addr where
  processedVaas := []
  processedVaa _ := false
  operationIndex _ := none
  processedTxCount := 0
  processedNonce _ := false
  bridgeFundedEscrow _ := none
  minted := []
  funded := []
  bridge := deployed
  supportedChains := []
  wrappedToken := none
  l2Config := none
  escrowRegistry := none

/-- One invocation: the ledger, the signers, and whether the contracts that are called accept. -/
structure Invocation (Addr : Type) (home : Addr) extends Env Addr home where
  mints : Mint Addr → Bool
  funds : Funding Addr → Bool

variable {Addr : Type} {self : Addr}

section Entrypoints

/-- The block is old enough, and the layer runs. -/
def l2FinalityReached (now : ℕ) (integration : L2Integration) (l2BlockAgeSecs : ℕ) :
    Result Bool :=
  if integration.emergencyShutdown = true then pure false
  else do
    let window ← u64 (integration.finalityDelaySecs + integration.challengePeriodSecs)
    pure (decide (window ≤ l2BlockAgeSecs ∧ integration.lastL1Commitment ≤ now))

def ensureL2Finality (now : ℕ) (s : ReceiverState Addr) : Result Unit :=
  match s.l2Config with
  | none => pure ()
  | some cfg => do
    let reached ← l2FinalityReached now cfg (now - cfg.lastL1Commitment)
    require (reached = true) (.panic "L2 finality window not satisfied")

/-- Nothing is asked of the hash, as the check of the guardians' signatures is missing. -/
def verifyVaaHash (_vaaHash : Hash) : Result Unit := pure ()

def receiveBridgedAsset (inv : Invocation Addr self) (s : ReceiverState Addr) (vaaHash : Hash)
    (recipient : Addr) (amount : ℤ) (sourceChain : ℕ) : Result (ReceiverState Addr) := do
  ensureL2Finality inv.timestamp s
  require (0 < amount) (.panic "Amount must be positive")
  require (s.bridge.sync.isolation sourceChain).isNone
    (.panic "Source chain is currently isolated from bridge operations")
  let _config ← expect s.bridge.admin (.panic "Bridge not initialized")
  require (sourceChain ∈ s.supportedChains)
    (.panic s!"Source chain {sourceChain} is not supported")
  require (s.processedVaa vaaHash = false)
    (.panic "VAA already processed - replay attack detected")
  verifyVaaHash vaaHash
  let token ← expect s.wrappedToken (.panic "Wrapped token not set")
  let mint : Mint Addr := ⟨vaaHash, token, recipient, amount⟩
  require (inv.mints mint = true) .subcall
  let index := s.processedVaas.length
  let count ← u32 (index + 1)
  pure { s with
    processedVaa := Function.update s.processedVaa vaaHash true
    processedVaas := s.processedVaas ++ [vaaHash]
    operationIndex := Function.update s.operationIndex index (some vaaHash)
    processedTxCount := count
    minted := s.minted ++ [mint] }

def receiveAndFundEscrow (inv : Invocation Addr self) (s : ReceiverState Addr) (relayer : Addr)
    (message : BridgeMessage) (escrowId : ℕ) : Result (ReceiverState Addr) := do
  requireTrusted inv.toEnv s.bridge relayer
  require (0 < message.amount) (.panic "Amount must be positive")
  require (s.bridge.sync.isolation message.sourceChainId).isNone
    (.panic "Source chain is currently isolated from bridge operations")
  require (s.processedNonce (message.sourceChainId, message.nonce) = false)
    (.panic "NonceAlreadyProcessed")
  let registry ← expect s.escrowRegistry (.panic "Escrow registry not set")
  let funding : Funding Addr := ⟨registry, escrowId, message⟩
  require (inv.funds funding = true) .subcall
  pure { s with
    processedNonce :=
      Function.update s.processedNonce (message.sourceChainId, message.nonce) true
    bridgeFundedEscrow := Function.update s.bridgeFundedEscrow escrowId (some message)
    funded := s.funded ++ [funding] }

def getProcessedTxsPage (s : ReceiverState Addr) (offset limit : ℕ) : List Hash :=
  let last := min (min (offset + min limit 100) maxU32) s.processedTxCount
  let first := min offset s.processedTxCount
  (List.range' first (last - first)).filterMap s.operationIndex

variable [DecidableEq Addr]

/-- The entry points that the bridge model has. `init` also writes the rest of the configuration,
with an empty list of processed messages. -/
def onBridge (sha256 : List UInt8 → Hash) (inv : Invocation Addr self) (s : ReceiverState Addr)
    (call : Bridge.Call Addr) : Result (ReceiverState Addr) := do
  let bridge ← Bridge.exec sha256 (inv.toEnv, call) s.bridge
  match call with
  | .initBridge _ =>
    pure { s with
      bridge := bridge
      supportedChains := [chainEthereum, chainSolana, chainBsc]
      processedVaas := [] }
  | _ => pure { s with bridge := bridge }

def setWrappedToken (inv : Invocation Addr self) (s : ReceiverState Addr)
    (admin tokenAddress : Addr) : Result (ReceiverState Addr) := do
  requireAdmin inv.toEnv s.bridge admin
  pure { s with wrappedToken := some tokenAddress }

def configureL2 (inv : Invocation Addr self) (s : ReceiverState Addr) (admin : Addr)
    (networkId finalityDelaySecs challengePeriodSecs : ℕ) : Result (ReceiverState Addr) := do
  requireAdmin inv.toEnv s.bridge admin
  pure { s with
    l2Config := some ⟨networkId, finalityDelaySecs, challengePeriodSecs, inv.sequence,
      inv.timestamp, false⟩ }

def shutdownL2 (inv : Invocation Addr self) (s : ReceiverState Addr) (admin : Addr)
    (emergency : Bool) : Result (ReceiverState Addr) := do
  requireAdmin inv.toEnv s.bridge admin
  let cfg := s.l2Config.getD ⟨0, 0, 0, 0, 0, false⟩
  pure { s with l2Config := some { cfg with emergencyShutdown := emergency } }

def setEscrowRegistry (inv : Invocation Addr self) (s : ReceiverState Addr)
    (admin escrowRegistry : Addr) : Result (ReceiverState Addr) := do
  requireAdmin inv.toEnv s.bridge admin
  pure { s with escrowRegistry := some escrowRegistry }

def addSupportedChain (inv : Invocation Addr self) (s : ReceiverState Addr) (admin : Addr)
    (chainId : ℕ) : Result (ReceiverState Addr) := do
  requireAdmin inv.toEnv s.bridge admin
  require (chainId ∉ s.supportedChains) (.panic s!"Chain {chainId} already supported")
  pure { s with supportedChains := s.supportedChains ++ [chainId] }

def removeSupportedChain (inv : Invocation Addr self) (s : ReceiverState Addr) (admin : Addr)
    (chainId : ℕ) : Result (ReceiverState Addr) := do
  requireAdmin inv.toEnv s.bridge admin
  pure { s with supportedChains := s.supportedChains.filter (· ≠ chainId) }

end Entrypoints

inductive Call (Addr : Type) where
  | onBridge (call : Bridge.Call Addr)
  | receiveBridgedAsset (vaaHash : Hash) (recipient : Addr) (amount : ℤ) (sourceChain : ℕ)
  | receiveAndFundEscrow (relayer : Addr) (message : BridgeMessage) (escrowId : ℕ)
  | setWrappedToken (admin tokenAddress : Addr)
  | configureL2 (admin : Addr) (networkId finalityDelaySecs challengePeriodSecs : ℕ)
  | shutdownL2 (admin : Addr) (emergency : Bool)
  | setEscrowRegistry (admin escrowRegistry : Addr)
  | addSupportedChain (admin : Addr) (chainId : ℕ)
  | removeSupportedChain (admin : Addr) (chainId : ℕ)

abbrev Step (Addr : Type) (home : Addr) := Invocation Addr home × Call Addr

variable [DecidableEq Addr]

def exec (sha256 : List UInt8 → Hash) (step : Step Addr self) (s : ReceiverState Addr) :
    Result (ReceiverState Addr) :=
  match step.2 with
  | .onBridge call => onBridge sha256 step.1 s call
  | .receiveBridgedAsset vaaHash recipient amount sourceChain =>
      receiveBridgedAsset step.1 s vaaHash recipient amount sourceChain
  | .receiveAndFundEscrow relayer message escrowId =>
      receiveAndFundEscrow step.1 s relayer message escrowId
  | .setWrappedToken admin tokenAddress => setWrappedToken step.1 s admin tokenAddress
  | .configureL2 admin networkId finalityDelaySecs challengePeriodSecs =>
      configureL2 step.1 s admin networkId finalityDelaySecs challengePeriodSecs
  | .shutdownL2 admin emergency => shutdownL2 step.1 s admin emergency
  | .setEscrowRegistry admin escrowRegistry => setEscrowRegistry step.1 s admin escrowRegistry
  | .addSupportedChain admin chainId => addSupportedChain step.1 s admin chainId
  | .removeSupportedChain admin chainId => removeSupportedChain step.1 s admin chainId

def machine (sha256 : List UInt8 → Hash) (home : Addr) :
    Machine (ReceiverState Addr) (Step Addr home) Trap := ⟨exec sha256⟩

variable {home : Addr} {sha256 : List UInt8 → Hash} {s t : ReceiverState Addr}

section Law

/-- What the admin decides. -/
structure Settings (Addr : Type) where
  admin : Option Addr
  trustedRelayer : Addr → Bool
  isolation : ℕ → Option ChainIsolationRecord
  supportedChains : List ℕ
  wrappedToken : Option Addr
  l2Config : Option L2Integration
  escrowRegistry : Option Addr

def ReceiverState.settings (s : ReceiverState Addr) : Settings Addr where
  admin := s.bridge.admin
  trustedRelayer := s.bridge.trustedRelayer
  isolation := s.bridge.sync.isolation
  supportedChains := s.supportedChains
  wrappedToken := s.wrappedToken
  l2Config := s.l2Config
  escrowRegistry := s.escrowRegistry

/-- The messages that minted something, in the order of processing. -/
def Books.processed (books : Books Addr) : List Hash := books.minted.map Mint.vaaHash

/-- Pages that reach to the end of the list show what was processed, in order. -/
def ListsProcessed (s : ReceiverState Addr) : Prop :=
  ∀ limit n, 0 < limit → s.processedTxCount ≤ n * min limit 100 →
    ((List.range n).flatMap fun k => getProcessedTxsPage s (k * min limit 100) limit) =
      s.processed

/-- What is to hold of a run. -/
structure ReceiverLaw (sha256 : List UInt8 → Hash) (home : Addr) (steps : List (Step Addr home)) :
    Prop where
  authority : ∀ pre step t admin, (machine sha256 home).Executes installed steps pre step t →
    ((machine sha256 home).run installed pre).bridge.admin = some admin →
    t.settings ≠ ((machine sha256 home).run installed pre).settings → step.1.auth admin = true
  mintOnce : ((machine sha256 home).run installed steps).processed.Nodup
  fundOnce : (((machine sha256 home).run installed steps).funded.map Funding.slot).Nodup
  pages : ∀ pre, pre <+: steps → ListsProcessed ((machine sha256 home).run installed pre)

/-- The step is not an `init` that the admin in office knows nothing of, and it does not process a
message after an `init` has dropped the list of those before. -/
def Respects (s : ReceiverState Addr) (step : Step Addr home) : Prop :=
  match step.2 with
  | .onBridge (.initBridge _) => ∀ admin, s.bridge.admin = some admin → step.1.auth admin = true
  | .receiveBridgedAsset _ _ _ _ => s.processedVaas.length = s.processedTxCount
  | _ => True

end Law

section Effects

omit [DecidableEq Addr] in
theorem beginAtomicXChainOp_isolation {sync sync' : SyncState Addr} {now sequence : ℕ}
    {initiator : Addr} {chains : List ℕ} {root opId : Hash}
    (h : beginAtomicXChainOp sha256 now sequence sync initiator chains root = .ok (sync', opId)) :
    sync'.isolation = sync.isolation := by
  simp only [beginAtomicXChainOp, bind_eq_ok, pure_eq_ok, Prod.mk.injEq] at h
  obtain ⟨-, -, -, -, -, -, rfl, -⟩ := h
  rfl

omit [DecidableEq Addr] in
theorem acknowledgePrepare_isolation {sync sync' : SyncState Addr} {now chainId : ℕ} {opId : Hash}
    {phase : XChainPhase} (h : acknowledgePrepare now sync opId chainId = .ok (sync', phase)) :
    sync'.isolation = sync.isolation := by
  simp only [acknowledgePrepare, bind_eq_ok, pure_eq_ok, Prod.mk.injEq] at h
  obtain ⟨op, -, rfl, -⟩ := h
  rfl

omit [DecidableEq Addr] in
theorem confirmCommit_isolation {sync : SyncState Addr} {now chainId : ℕ} {opId root : Hash}
    {phase : XChainPhase} (h : (confirmCommit now sync opId chainId root).2 = .ok phase) :
    (confirmCommit now sync opId chainId root).1.isolation = sync.isolation := by
  cases hop : getActiveOp now sync opId with
  | error e =>
    rw [confirmCommit, hop] at h
    cases h
  | ok op =>
    obtain ⟨hfound, hactive⟩ := getActiveOp_eq_ok.mp hop
    by_cases hroot : root = op.expectedStateRoot
    · rw [hroot, confirmCommit_match hfound hactive chainId]
      rfl
    · rw [confirmCommit_mismatch hfound hactive hroot chainId] at h
      cases h

theorem requireAdmin_eq_ok {env : Env Addr self} {b : BridgeState Addr} {admin : Addr} {u : Unit} :
    requireAdmin env b admin = .ok u ↔ b.admin = some admin ∧ env.auth admin = true := by
  simp only [requireAdmin, bind_eq_ok, expect_eq_ok, require_eq_ok, requireAuth_eq_ok]
  constructor
  · rintro ⟨stored, hstored, -, rfl, hsigned⟩
    exact ⟨hstored, hsigned⟩
  · rintro ⟨hstored, hsigned⟩
    exact ⟨admin, hstored, (), rfl, hsigned⟩

/-- What a call of the bridge model does to the settings that it keeps. -/
inductive Governs (env : Env Addr home) (b b' : BridgeState Addr) : Bridge.Call Addr → Prop
  | installs (admin : Addr) (signed : env.auth admin = true)
      (becomes : b' = { b with admin := some admin }) : Governs env b b' (.initBridge admin)
  | byAdmin (call : Bridge.Call Addr) (running : ∀ next, call ≠ .initBridge next) (admin : Addr)
      (stored : b.admin = some admin) (signed : env.auth admin = true) : Governs env b b' call
  | relayed (call : Bridge.Call Addr) (running : ∀ next, call ≠ .initBridge next)
      (admin : b'.admin = b.admin)
      (trusted : b'.trustedRelayer = b.trustedRelayer)
      (isolation : b'.sync.isolation = b.sync.isolation) : Governs env b b' call

theorem bridge_governs {env : Env Addr home} {b b' : BridgeState Addr} {call : Bridge.Call Addr}
    (h : Bridge.exec sha256 (env, call) b = .ok b') : Governs env b b' call := by
  cases call with
  | initBridge admin =>
    simp only [Bridge.exec, initBridge, bind_eq_ok, pure_eq_ok, requireAuth_eq_ok] at h
    obtain ⟨-, hsigned, rfl⟩ := h
    exact .installs admin hsigned rfl
  | addTrustedRelayer admin relayer =>
    simp only [Bridge.exec, addTrustedRelayer, setTrustedRelayer, bind_eq_ok,
      requireAdmin_eq_ok] at h
    obtain ⟨-, ⟨hstored, hsigned⟩, -⟩ := h
    exact .byAdmin _ (by simp) admin hstored hsigned
  | removeTrustedRelayer admin relayer =>
    simp only [Bridge.exec, removeTrustedRelayer, setTrustedRelayer, bind_eq_ok,
      requireAdmin_eq_ok] at h
    obtain ⟨-, ⟨hstored, hsigned⟩, -⟩ := h
    exact .byAdmin _ (by simp) admin hstored hsigned
  | beginBridgeAtomicOp relayer sourceChainId destChainId root =>
    simp only [Bridge.exec, beginBridgeAtomicOp, bind_eq_ok, unwrap_eq_ok, pure_eq_ok] at h
    obtain ⟨-, -, -, -, -, -, opened, hopened, rfl⟩ := h
    exact .relayed _ (by simp) rfl rfl (beginAtomicXChainOp_isolation hopened)
  | acknowledgeBridgePrepare relayer opId chainId =>
    simp only [Bridge.exec, acknowledgeBridgePrepare, bind_eq_ok, unwrap_eq_ok, pure_eq_ok] at h
    obtain ⟨-, -, acknowledged, hacknowledged, rfl⟩ := h
    exact .relayed _ (by simp) rfl rfl (acknowledgePrepare_isolation hacknowledged)
  | confirmBridgeCommit relayer opId chainId root =>
    simp only [Bridge.exec, confirmBridgeCommit, bind_eq_ok, unwrap_eq_ok, pure_eq_ok] at h
    obtain ⟨-, -, phase, hphase, rfl⟩ := h
    exact .relayed _ (by simp) rfl rfl (confirmCommit_isolation hphase)
  | rollbackBridgeOp admin opId =>
    simp only [Bridge.exec, rollbackBridgeOp, bind_eq_ok, requireAdmin_eq_ok] at h
    obtain ⟨-, ⟨hstored, hsigned⟩, -⟩ := h
    exact .byAdmin _ (by simp) admin hstored hsigned
  | confirmBridgeRollback admin opId =>
    simp only [Bridge.exec, confirmBridgeRollback, bind_eq_ok, requireAdmin_eq_ok] at h
    obtain ⟨-, ⟨hstored, hsigned⟩, -⟩ := h
    exact .byAdmin _ (by simp) admin hstored hsigned
  | emergencyIsolateChain admin chainId reason =>
    simp only [Bridge.exec, emergencyIsolateChain, bind_eq_ok, requireAdmin_eq_ok] at h
    obtain ⟨-, ⟨hstored, hsigned⟩, -⟩ := h
    exact .byAdmin _ (by simp) admin hstored hsigned
  | liftBridgeChainIsolation admin chainId =>
    simp only [Bridge.exec, liftBridgeChainIsolation, bind_eq_ok, requireAdmin_eq_ok] at h
    obtain ⟨-, ⟨hstored, hsigned⟩, -⟩ := h
    exact .byAdmin _ (by simp) admin hstored hsigned

theorem onBridge_running {inv : Invocation Addr home} {call : Bridge.Call Addr}
    (hrunning : ∀ next, call ≠ .initBridge next) (h : onBridge sha256 inv s call = .ok t) :
    ∃ bridge, Bridge.exec sha256 (inv.toEnv, call) s.bridge = .ok bridge ∧
      t = { s with bridge := bridge } := by
  cases call with
  | initBridge next => exact absurd rfl (hrunning next)
  | _ =>
    obtain ⟨bridge, hbridge, ht⟩ := bind_eq_ok.mp h
    exact ⟨bridge, hbridge, (pure_eq_ok.mp ht).symm⟩

/-- What a step does to the settings and to the books. -/
inductive Effect (s t : ReceiverState Addr) (step : Step Addr home) : Prop
  | restarts (admin : Addr) (call : step.2 = .onBridge (.initBridge admin))
      (signed : step.1.auth admin = true) (becomes : t.bridge.admin = some admin)
      (books : t.toBooks = { s.toBooks with processedVaas := [] })
  | byAdmin (admin : Addr) (stored : s.bridge.admin = some admin)
      (signed : step.1.auth admin = true) (books : t.toBooks = s.toBooks)
      (respects : Respects s step)
  | relayed (settings : t.settings = s.settings) (books : t.toBooks = s.toBooks)
      (respects : Respects s step)
  | mints (mint : Mint Addr) (recipient : Addr) (amount : ℤ) (sourceChain : ℕ)
      (call : step.2 = .receiveBridgedAsset mint.vaaHash recipient amount sourceChain)
      (settings : t.settings = s.settings) (fresh : s.processedVaa mint.vaaHash = false)
      (fits : s.processedVaas.length + 1 ≤ maxU32)
      (books : t.toBooks = { s.toBooks with
        processedVaa := Function.update s.processedVaa mint.vaaHash true
        processedVaas := s.processedVaas ++ [mint.vaaHash]
        operationIndex :=
          Function.update s.operationIndex s.processedVaas.length (some mint.vaaHash)
        processedTxCount := s.processedVaas.length + 1
        minted := s.minted ++ [mint] })
  | funds (funding : Funding Addr) (settings : t.settings = s.settings)
      (fresh : s.processedNonce funding.slot = false)
      (books : t.toBooks = { s.toBooks with
        processedNonce := Function.update s.processedNonce funding.slot true
        bridgeFundedEscrow :=
          Function.update s.bridgeFundedEscrow funding.escrowId (some funding.message)
        funded := s.funded ++ [funding] })
      (respects : Respects s step)

omit [DecidableEq Addr] in
theorem respects_running {inv : Invocation Addr home} {call : Bridge.Call Addr}
    (hrunning : ∀ next, call ≠ .initBridge next) : Respects s (inv, .onBridge call) := by
  cases call with
  | initBridge next => exact absurd rfl (hrunning next)
  | _ => trivial

/-- A call of the bridge model changes nothing in the books, unless it is `init`. -/
theorem onBridge_effect {inv : Invocation Addr home} {call : Bridge.Call Addr}
    (h : onBridge sha256 inv s call = .ok t) : Effect s t (inv, .onBridge call) := by
  obtain ⟨bridge, hbridge, ht⟩ := bind_eq_ok.mp h
  cases bridge_governs hbridge with
  | installs admin hsigned hbecomes =>
    rw [← pure_eq_ok.mp ht, hbecomes]
    exact .restarts admin rfl hsigned rfl rfl
  | byAdmin _ hrunning admin hstored hsigned =>
    obtain ⟨after, -, rfl⟩ := onBridge_running hrunning h
    exact .byAdmin admin hstored hsigned rfl (respects_running hrunning)
  | relayed _ hrunning hadmin htrusted hisolation =>
    obtain ⟨after, hafter, rfl⟩ := onBridge_running hrunning h
    obtain rfl := Except.ok.inj (hbridge.symm.trans hafter)
    refine .relayed ?_ rfl (respects_running hrunning)
    simp only [ReceiverState.settings, hadmin, htrusted, hisolation]

theorem exec_effect {step : Step Addr home} (h : exec sha256 step s = .ok t) :
    Effect s t step := by
  obtain ⟨inv, call⟩ := step
  cases call with
  | onBridge call => exact onBridge_effect h
  | receiveBridgedAsset vaaHash recipient amount sourceChain =>
    simp only [exec, receiveBridgedAsset, bind_eq_ok, require_eq_ok, expect_eq_ok, u32_eq_ok,
      pure_eq_ok] at h
    obtain ⟨-, -, -, -, -, -, -, -, -, -, -, hfresh, -, -, token, -, -, -, -, ⟨hfits, rfl⟩, rfl⟩ :=
      h
    exact .mints ⟨vaaHash, token, recipient, amount⟩ recipient amount sourceChain rfl rfl hfresh
      (Nat.le_sub_one_of_lt hfits) rfl
  | receiveAndFundEscrow relayer message escrowId =>
    simp only [exec, receiveAndFundEscrow, bind_eq_ok, require_eq_ok, expect_eq_ok,
      pure_eq_ok] at h
    obtain ⟨-, -, -, -, -, -, -, hfresh, registry, -, -, -, rfl⟩ := h
    exact .funds ⟨registry, escrowId, message⟩ rfl hfresh rfl trivial
  | setWrappedToken admin tokenAddress =>
    simp only [exec, setWrappedToken, bind_eq_ok, requireAdmin_eq_ok, pure_eq_ok] at h
    obtain ⟨-, ⟨hstored, hsigned⟩, rfl⟩ := h
    exact .byAdmin admin hstored hsigned rfl trivial
  | configureL2 admin networkId finalityDelaySecs challengePeriodSecs =>
    simp only [exec, configureL2, bind_eq_ok, requireAdmin_eq_ok, pure_eq_ok] at h
    obtain ⟨-, ⟨hstored, hsigned⟩, rfl⟩ := h
    exact .byAdmin admin hstored hsigned rfl trivial
  | shutdownL2 admin emergency =>
    simp only [exec, shutdownL2, bind_eq_ok, requireAdmin_eq_ok, pure_eq_ok] at h
    obtain ⟨-, ⟨hstored, hsigned⟩, rfl⟩ := h
    exact .byAdmin admin hstored hsigned rfl trivial
  | setEscrowRegistry admin escrowRegistry =>
    simp only [exec, setEscrowRegistry, bind_eq_ok, requireAdmin_eq_ok, pure_eq_ok] at h
    obtain ⟨-, ⟨hstored, hsigned⟩, rfl⟩ := h
    exact .byAdmin admin hstored hsigned rfl trivial
  | addSupportedChain admin chainId =>
    simp only [exec, addSupportedChain, bind_eq_ok, requireAdmin_eq_ok, pure_eq_ok] at h
    obtain ⟨-, ⟨hstored, hsigned⟩, -, -, rfl⟩ := h
    exact .byAdmin admin hstored hsigned rfl trivial
  | removeSupportedChain admin chainId =>
    simp only [exec, removeSupportedChain, bind_eq_ok, requireAdmin_eq_ok, pure_eq_ok] at h
    obtain ⟨-, ⟨hstored, hsigned⟩, rfl⟩ := h
    exact .byAdmin admin hstored hsigned rfl trivial

end Effects

section Books

/-- What the books say in every state. -/
structure Kept (books : Books Addr) : Prop where
  vaas : ∀ vaaHash, books.processedVaa vaaHash = true ↔ vaaHash ∈ books.processed
  vaasOnce : books.processed.Nodup
  nonces : ∀ slot, books.processedNonce slot = true ↔ slot ∈ books.funded.map Funding.slot
  noncesOnce : (books.funded.map Funding.slot).Nodup
  dropped : books.processedVaas.length ≤ books.processedTxCount
  dense : ∀ i < books.processedTxCount, (books.operationIndex i).isSome
  fits : books.processedTxCount ≤ maxU32

/-- The index is the list of what was processed. -/
structure Tracked (books : Books Addr) : Prop where
  count : books.processedTxCount = books.processed.length
  index : ∀ i, books.operationIndex i = books.processed[i]?

omit [DecidableEq Addr] in
theorem installed_kept : Kept (installed : ReceiverState Addr).toBooks := by
  constructor <;> simp [installed, Books.processed]

omit [DecidableEq Addr] in
theorem installed_tracked : Tracked (installed : ReceiverState Addr).toBooks := by
  constructor <;> simp [installed, Books.processed]

/-- A flag that is raised for one more entry of a list. -/
theorem flag_append {α : Type*} [DecidableEq α] {flag : α → Bool} {listed : List α} {a : α}
    (h : ∀ x, flag x = true ↔ x ∈ listed) (x : α) :
    Function.update flag a true x = true ↔ x ∈ listed ++ [a] := by
  rw [List.mem_append, List.mem_singleton]
  by_cases hx : x = a
  · simp [hx]
  · rw [Function.update_of_ne hx, h x]
    simp [hx]

theorem nodup_append_fresh {α : Type*} {flag : α → Bool} {listed : List α} {a : α}
    (h : ∀ x, flag x = true ↔ x ∈ listed) (hnodup : listed.Nodup) (hfresh : flag a = false) :
    (listed ++ [a]).Nodup := by
  have hnew : a ∉ listed := by
    rw [← h a, hfresh]
    simp
  rw [List.nodup_append_comm, List.singleton_append, List.nodup_cons]
  exact ⟨hnew, hnodup⟩

omit [DecidableEq Addr] in
theorem Effect.kept {step : Step Addr home} (h : Effect s t step) (hs : Kept s.toBooks) :
    Kept t.toBooks := by
  cases h with
  | restarts admin _ _ _ hbooks =>
    rw [hbooks]
    exact { hs with dropped := Nat.zero_le _ }
  | byAdmin admin _ _ hbooks _ =>
    rw [hbooks]
    exact hs
  | relayed _ hbooks _ =>
    rw [hbooks]
    exact hs
  | mints mint recipient amount sourceChain _ _ hfresh hfits hbooks =>
    have hprocessed : t.processed = s.processed ++ [mint.vaaHash] := by
      rw [hbooks]
      exact List.map_append
    constructor
    · intro vaaHash
      rw [hprocessed, hbooks]
      exact flag_append hs.vaas vaaHash
    · rw [hprocessed]
      exact nodup_append_fresh hs.vaas hs.vaasOnce hfresh
    · rw [hbooks]
      exact hs.nonces
    · rw [hbooks]
      exact hs.noncesOnce
    · rw [hbooks]
      simp
    · intro i hi
      rw [hbooks] at hi ⊢
      rcases Nat.lt_succ_iff_lt_or_eq.mp hi with hbefore | rfl
      · have hother : i ≠ s.processedVaas.length := Nat.ne_of_lt hbefore
        have hold := hs.dense i (hbefore.trans_le hs.dropped)
        simpa [Function.update_of_ne hother] using hold
      · simp
    · rw [hbooks]
      exact hfits
  | funds funding _ hfresh hbooks _ =>
    have hfunded : t.funded.map Funding.slot = s.funded.map Funding.slot ++ [funding.slot] := by
      rw [hbooks]
      exact List.map_append
    constructor
    · rw [hbooks]
      exact hs.vaas
    · rw [hbooks]
      exact hs.vaasOnce
    · intro slot
      rw [hfunded, hbooks]
      exact flag_append hs.nonces slot
    · rw [hfunded]
      exact nodup_append_fresh hs.nonces hs.noncesOnce hfresh
    · rw [hbooks]
      exact hs.dropped
    · rw [hbooks]
      exact hs.dense
    · rw [hbooks]
      exact hs.fits

omit [DecidableEq Addr] in
theorem Effect.tracked {step : Step Addr home} (h : Effect s t step)
    (hrespects : Respects s step) (hs : Tracked s.toBooks) : Tracked t.toBooks := by
  cases h with
  | restarts admin _ _ _ hbooks =>
    rw [hbooks]
    exact ⟨hs.count, hs.index⟩
  | byAdmin admin _ _ hbooks _ =>
    rw [hbooks]
    exact hs
  | relayed _ hbooks _ =>
    rw [hbooks]
    exact hs
  | mints mint recipient amount sourceChain hcall _ _ _ hbooks =>
    have hlisted : s.processedVaas.length = s.processed.length := by
      have hcount : s.processedVaas.length = s.processedTxCount := by
        simpa [Respects, hcall] using hrespects
      exact hcount.trans hs.count
    have hprocessed : t.processed = s.processed ++ [mint.vaaHash] := by
      rw [hbooks]
      exact List.map_append
    constructor
    · rw [hprocessed, hbooks]
      simp [hlisted]
    · intro i
      rw [hprocessed, hbooks]
      by_cases hi : i = s.processedVaas.length
      · subst hi
        simp [hlisted]
      · have hold := hs.index i
        simp only [Function.update_of_ne hi, hold]
        rcases Nat.lt_or_ge i s.processed.length with hlt | hge
        · rw [List.getElem?_append_left hlt]
        · have hbeyond : (s.processed ++ [mint.vaaHash]).length ≤ i := by
            simp only [List.length_append, List.length_singleton]
            omega
          rw [List.getElem?_eq_none hge, List.getElem?_eq_none hbeyond]
  | funds funding _ _ hbooks _ =>
    rw [hbooks]
    exact ⟨hs.count, hs.index⟩

end Books

section Pages

omit [DecidableEq Addr] in
/-- A page of a tracked list is a window of what was processed. -/
theorem getProcessedTxsPage_eq (h : Tracked s.toBooks) (hfits : s.processedTxCount ≤ maxU32)
    (offset limit : ℕ) : getProcessedTxsPage s offset limit =
      (s.processed.take (offset + min limit 100)).drop offset := by
  have hindex : AppendIndex (fun p : Unit × ℕ => s.operationIndex p.2) fun _ => s.processed :=
    fun _ i => h.index i
  have hlast : min (min (offset + min limit 100) maxU32) s.processed.length =
      min (offset + min limit 100) s.processed.length := by
    rw [h.count] at hfits
    omega
  have hpage := hindex.window_eq () offset (min limit 100)
  simp only [getProcessedTxsPage, h.count, hlast]
  exact hpage

omit [DecidableEq Addr] in
theorem Tracked.lists (h : Tracked s.toBooks) (hfits : s.processedTxCount ≤ maxU32) :
    ListsProcessed s := by
  intro limit n _ hn
  simp only [getProcessedTxsPage_eq h hfits, List.flatMap_def, AppendIndex.flatten_pages]
  apply List.take_of_length_le
  rw [← h.count]
  exact hn

omit [DecidableEq Addr] in
theorem getProcessedTxsPage_one (h : Kept s.toBooks) {k : ℕ} (hk : k < s.processedTxCount) :
    (getProcessedTxsPage s k 1).length = 1 := by
  have hfits := h.fits
  obtain ⟨vaaHash, hvaa⟩ := Option.isSome_iff_exists.mp (h.dense k hk)
  have hfirst : min k s.processedTxCount = k := by omega
  have hlast : min (min (k + min 1 100) maxU32) s.processedTxCount = k + 1 := by omega
  simp only [getProcessedTxsPage, hfirst, hlast, Nat.add_sub_cancel_left]
  simp [hvaa]

omit [DecidableEq Addr] in
/-- Pages that show everything show as many messages as are counted. -/
theorem ListsProcessed.length_eq (h : ListsProcessed s) (hkept : Kept s.toBooks) :
    s.processed.length = s.processedTxCount := by
  have hone : ∀ k ∈ List.range s.processedTxCount,
      (getProcessedTxsPage s (k * min 1 100) 1).length = 1 := by
    intro k hk
    rw [show k * min 1 100 = k from Nat.mul_one k]
    exact getProcessedTxsPage_one hkept (List.mem_range.mp hk)
  rw [← h 1 s.processedTxCount one_pos (Nat.mul_one _).ge, List.length_flatMap,
    List.map_congr_left hone]
  simp

end Pages

section Runs

theorem reached_kept (steps : List (Step Addr home)) :
    Kept ((machine sha256 home).run installed steps).toBooks :=
  Machine.run_invariant (M := machine sha256 home) (P := fun s => Kept s.toBooks) installed_kept
    (fun _ _ _ hs hx => (exec_effect hx).kept hs) steps

theorem receiverLaw_iff (sha256 : List UInt8 → Hash) (home : Addr)
    (steps : List (Step Addr home)) : ReceiverLaw sha256 home steps ↔
      ∀ pre step t, (machine sha256 home).Executes installed steps pre step t →
        Respects ((machine sha256 home).run installed pre) step := by
  constructor
  · intro hlaw pre step t hx
    have hkept : Kept ((machine sha256 home).run installed pre).toBooks := reached_kept pre
    cases exec_effect hx.exec_eq with
    | restarts admin hcall hsigned hbecomes hbooks =>
      simp only [Respects, hcall]
      intro stored hstored
      by_cases hsame : t.settings = ((machine sha256 home).run installed pre).settings
      · have hadmin : some admin = some stored := by
          rw [← hbecomes, ← hstored]
          exact congrArg Settings.admin hsame
        rw [← Option.some.inj hadmin]
        exact hsigned
      · exact hlaw.authority pre step t stored hx hstored hsame
    | byAdmin _ _ _ _ hrespects => exact hrespects
    | relayed _ _ hrespects => exact hrespects
    | mints mint recipient amount sourceChain hcall _ _ _ hbooks =>
      have hbefore := (hlaw.pages pre ((List.prefix_append pre [step]).trans
        hx.snoc_prefix)).length_eq hkept
      have hafter := (hlaw.pages (pre ++ [step]) hx.snoc_prefix).length_eq
        (reached_kept (pre ++ [step]))
      rw [hx.run_eq, hbooks] at hafter
      simp only [Books.processed, List.length_map, List.length_append,
        List.length_singleton] at hafter hbefore
      simp only [Respects, hcall]
      omega
    | funds _ _ _ _ hrespects => exact hrespects
  · intro hrespects
    have htracked : ∀ pre, pre <+: steps →
        Tracked ((machine sha256 home).run installed pre).toBooks := by
      refine Machine.run_invariant_of_executes (M := machine sha256 home)
        (P := fun s => Tracked s.toBooks) installed_tracked ?_
      intro pre step t hx hs
      exact (exec_effect hx.exec_eq).tracked (hrespects pre step t hx) hs
    constructor
    · intro pre step t admin hx hadmin hchanged
      have hstep := hrespects pre step t hx
      cases exec_effect hx.exec_eq with
      | restarts next hcall _ _ _ =>
        simp only [Respects, hcall] at hstep
        exact hstep admin hadmin
      | byAdmin stored hstored hsigned _ _ =>
        rw [hadmin] at hstored
        rw [Option.some.inj hstored]
        exact hsigned
      | relayed hsettings _ _ => exact absurd hsettings hchanged
      | mints _ _ _ _ _ hsettings _ _ _ => exact absurd hsettings hchanged
      | funds _ hsettings _ _ _ => exact absurd hsettings hchanged
    · exact (reached_kept steps).vaasOnce
    · exact (reached_kept steps).noncesOnce
    · intro pre hpre
      exact (htracked pre hpre).lists (reached_kept pre).fits

end Runs

section Restarts

/-- An invocation that `signer` alone signs, and where the other contracts accept everything. -/
def signedOnlyBy (signer : ℕ) (now : ℕ) : Invocation ℕ 0 where
  toEnv := { signedByAll now with
    auth := fun a => decide (a = signer ∧ a ≠ 0)
    auth_home := by simp }
  mints _ := true
  funds _ := true

/-- Account 1 is admin when account 9 calls `init` for itself. -/
def usurpedRun : List (Step ℕ 0) :=
  [(signedOnlyBy 1 10, .onBridge (.initBridge 1)), (signedOnlyBy 9 11, .onBridge (.initBridge 9))]

/-- Account 1 calls `init` again between two messages. -/
def relistedRun : List (Step ℕ 0) :=
  [(signedOnlyBy 1 10, .onBridge (.initBridge 1)), (signedOnlyBy 1 11, .setWrappedToken 1 5),
    (signedOnlyBy 3 12, .receiveBridgedAsset 7 4 1000 2),
    (signedOnlyBy 1 13, .onBridge (.initBridge 1)),
    (signedOnlyBy 3 14, .receiveBridgedAsset 8 4 1000 2)]

/-- Account 9 takes the office of account 1, and message 7 is not listed any more. -/
theorem receiverLaw_fails_restarted :
    ¬ ReceiverLaw (fun _ => exampleDigest) 0 usurpedRun ∧
      ¬ ReceiverLaw (fun _ => exampleDigest) 0 relistedRun := by
  constructor
  · intro h
    have hx : (machine (fun _ => exampleDigest) 0).Executes installed usurpedRun
        [(signedOnlyBy 1 10, .onBridge (.initBridge 1))]
        (signedOnlyBy 9 11, .onBridge (.initBridge 9))
        ((machine (fun _ => exampleDigest) 0).run installed usurpedRun) := ⟨[], rfl, rfl⟩
    have hsigned := h.authority _ _ _ 1 hx rfl (by
      intro hsame
      have hadmin := congrArg Settings.admin hsame
      exact absurd hadmin (by decide))
    exact absurd hsigned (by decide)
  · intro h
    have hpages := h.pages relistedRun List.prefix_rfl 100 1 (by decide) (by decide)
    exact absurd hpages (by decide)

end Restarts

end CrossChain.Receiver
