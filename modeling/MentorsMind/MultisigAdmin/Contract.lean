import MentorsMind.Lib.BigEndian
import MentorsMind.Shared.Rollback

/-! The multisig that administers the other contracts: proposals that its signers approve, some
of which change the signers themselves, and snapshots of its configuration that seven emergency
signers can roll back to. Key rotation, dispute oversight, the views, the lifetimes of entries
and the exchange of the contract's code are left out. -/
namespace MultisigAdmin
open Outcome Soroban Shared

inductive Error where
  | alreadyInitialized
  | notInitialized
  | notSigner
  | alreadySigner
  | proposalNotFound
  | alreadySigned
  | belowThreshold
  | alreadyExecuted
  | cancelled
  | expired
  | invalidThreshold
  | proposalArgsTampered

def Error.code : Error → ℕ
  | .alreadyInitialized => 1
  | .notInitialized => 2
  | .notSigner => 4
  | .alreadySigner => 5
  | .proposalNotFound => 6
  | .alreadySigned => 7
  | .belowThreshold => 8
  | .alreadyExecuted => 9
  | .cancelled => 10
  | .expired => 11
  | .invalidThreshold => 12
  | .proposalArgsTampered => 15

def Error.trap (e : Error) : Trap := .contractError e.code

def expirySeconds : ℕ := 7 * 24 * 60 * 60

/-- What a proposal asks for. -/
structure Action (Addr Val : Type) where
  target : Addr
  function : String
  args : List Val
  deriving DecidableEq

structure ProposalRecord (Addr Val : Type) where
  id : ℕ
  proposer : Addr
  target : Addr
  function : String
  args : List Val
  approvalCount : ℕ
  expiry : ℕ
  executed : Bool
  cancelled : Bool
  deriving DecidableEq

structure GovConfigSnapshot where
  threshold : ℕ
  signerCount : ℕ
  proposalCount : ℕ
  deriving DecidableEq

/-- One field for each storage key, and the calls made to other contracts, latest first. An
absent flag reads as false, an absent count as zero. -/
structure State (Addr Val : Type) where
  threshold : Option ℕ
  signerCount : ℕ
  proposalCount : ℕ
  activeProposalCount : ℕ
  signer : Addr → Bool
  proposal : ℕ → Option (ProposalRecord Addr Val)
  proposalArgsChecksum : ℕ → Option Hash
  approval : ℕ → Addr → Bool
  govSnapshot : ℕ → Option GovConfigSnapshot
  govSnapshotMeta : ℕ → Option (SnapshotMeta Addr)
  govSnapshotIndex : List ℕ
  govEmergencySigners : Option (List Addr)
  govRollbackProposal : ℕ → Option (RollbackProposal Addr)
  govRollbackApproval : ℕ → Addr → Bool
  govRollbackProposalCount : ℕ
  invoked : List (Action Addr Val)

def deployed (Addr Val : Type) : State Addr Val where
  threshold := none
  signerCount := 0
  proposalCount := 0
  activeProposalCount := 0
  signer _ := false
  proposal _ := none
  proposalArgsChecksum _ := none
  approval _ _ := false
  govSnapshot _ := none
  govSnapshotMeta _ := none
  govSnapshotIndex := []
  govEmergencySigners := none
  govRollbackProposal _ := none
  govRollbackApproval _ _ := false
  govRollbackProposalCount := 0
  invoked := []

/-- What the host computes for the contract: a digest, `to_xdr` of a list of arguments, and the
conversions of an argument to an address and to a `u32`. -/
structure Host (Addr Val : Type) where
  sha256 : List UInt8 → Hash
  argsXdr : List Val → List UInt8
  asAddress : Val → Option Addr
  asU32 : Val → Option ℕ

/-- One invocation: the ledger, the signers, which calls the other contracts accept, and which
code is installed. -/
structure Invocation (Addr Val : Type) (home : Addr) extends Env Addr home where
  accepts : Action Addr Val → Bool
  installed : Hash → Bool

variable {Addr Val : Type} {self : Addr}

def ProposalRecord.action (p : ProposalRecord Addr Val) : Action Addr Val :=
  ⟨p.target, p.function, p.args⟩

/-- Neither executed nor cancelled; that the time has run out does not show. -/
def ProposalRecord.Active (p : ProposalRecord Addr Val) : Prop :=
  p.executed = false ∧ p.cancelled = false

namespace State

def setProposal (s : State Addr Val) (id : ℕ) (p : ProposalRecord Addr Val) : State Addr Val :=
  { s with proposal := Function.update s.proposal id (some p) }

def setRollback (s : State Addr Val) (id : ℕ) (p : RollbackProposal Addr) : State Addr Val :=
  { s with govRollbackProposal := Function.update s.govRollbackProposal id (some p) }

/-- The configuration that a snapshot captures. -/
def config (s : State Addr Val) : GovConfigSnapshot :=
  ⟨s.threshold.getD 0, s.signerCount, s.proposalCount⟩

/-- The snapshot and its metadata go. -/
def dropSnapshot (s : State Addr Val) (id : ℕ) : State Addr Val :=
  { s with
    govSnapshot := Function.update s.govSnapshot id none
    govSnapshotMeta := Function.update s.govSnapshotMeta id none }

def restore (s : State Addr Val) (config : GovConfigSnapshot) : State Addr Val :=
  { s with
    threshold := some config.threshold
    signerCount := config.signerCount
    proposalCount := config.proposalCount }

end State

section Approvals

variable [DecidableEq Addr]

/-- The approval flags after `signer` approves `id`. -/
def approve (approval : ℕ → Addr → Bool) (id : ℕ) (signer : Addr) : ℕ → Addr → Bool :=
  Function.update approval id (Function.update (approval id) signer true)

/-- The loop of `initialize`, which fails when a flag is set already. -/
def registerSigners (signer : Addr → Bool) : List Addr → Result (Addr → Bool)
  | [] => pure signer
  | a :: signers => do
      require (signer a = false) Error.alreadySigner.trap
      registerSigners (Function.update signer a true) signers

/-- The entry point `initialize`, which asks for no authorisation. -/
def initializeMultisig (s : State Addr Val) (signers : List Addr) (threshold : ℕ) :
    Result (State Addr Val) := do
  require (s.threshold = none) Error.alreadyInitialized.trap
  require (signers ≠ [] ∧ threshold ≠ 0) Error.invalidThreshold.trap
  require (threshold ≤ signers.length) Error.invalidThreshold.trap
  let signer ← registerSigners s.signer signers
  pure { s with
    signer := signer
    threshold := some threshold
    signerCount := signers.length
    proposalCount := 0
    activeProposalCount := 0 }

/-- `propose_action` returns the id of the proposal. -/
def proposeAction (host : Host Addr Val) (inv : Invocation Addr Val self) (s : State Addr Val)
    (proposer target : Addr) (function : String) (args : List Val) :
    Result (State Addr Val × ℕ) := do
  require (s.threshold ≠ none) Error.notInitialized.trap
  require (s.signer proposer = true) Error.notSigner.trap
  requireAuth inv.toEnv proposer
  let argsChecksum := host.sha256 (host.argsXdr args)
  let newId ← checkedU32 (s.proposalCount + 1) (.panic "proposal count overflow")
  let newActiveCount ← checkedU32 (s.activeProposalCount + 1)
    (.panic "active proposal count overflow")
  let expiry ← checkedU64 (inv.timestamp + expirySeconds) (.panic "expiry overflow")
  let p : ProposalRecord Addr Val :=
    ⟨newId, proposer, target, function, args, 1, expiry, false, false⟩
  pure ({ s.setProposal newId p with
    proposalCount := newId
    activeProposalCount := newActiveCount
    proposalArgsChecksum := Function.update s.proposalArgsChecksum newId (some argsChecksum)
    approval := approve s.approval newId proposer }, newId)

def signAction (inv : Invocation Addr Val self) (s : State Addr Val) (signer : Addr)
    (actionId : ℕ) : Result (State Addr Val) := do
  require (s.threshold ≠ none) Error.notInitialized.trap
  require (s.signer signer = true) Error.notSigner.trap
  let p ← expect (s.proposal actionId) Error.proposalNotFound.trap
  require (p.executed = false) Error.alreadyExecuted.trap
  require (p.cancelled = false) Error.cancelled.trap
  require (inv.timestamp ≤ p.expiry) Error.expired.trap
  require (s.approval actionId signer = false) Error.alreadySigned.trap
  requireAuth inv.toEnv signer
  let approvalCount ← checkedU32 (p.approvalCount + 1) (.panic "approval count overflow")
  pure { s.setProposal actionId { p with approvalCount := approvalCount } with
    approval := approve s.approval actionId signer }

def applyAddSigner (s : State Addr Val) (newSigner : Addr) : Result (State Addr Val) := do
  require (s.signer newSigner = false) Error.alreadySigner.trap
  let newCount ← checkedU32 (s.signerCount + 1) (.panic "Signer count overflow")
  pure { s with signer := Function.update s.signer newSigner true, signerCount := newCount }

def applyRemoveSigner (s : State Addr Val) (signer : Addr) : Result (State Addr Val) := do
  require (s.signer signer = true) Error.notSigner.trap
  require (1 ≤ s.signerCount) (.panic "Signer count underflow")
  let newCount := s.signerCount - 1
  require (s.threshold.getD 0 ≤ newCount) Error.invalidThreshold.trap
  pure { s with signer := Function.update s.signer signer false, signerCount := newCount }

omit [DecidableEq Addr] in
def applyUpdateThreshold (s : State Addr Val) (newThreshold : ℕ) : Result (State Addr Val) := do
  require (newThreshold ≠ 0) Error.invalidThreshold.trap
  require (newThreshold ≤ s.signerCount) Error.invalidThreshold.trap
  pure { s with threshold := some newThreshold }

/-- The first argument, as a value of the type that the operation takes. -/
def firstArg {α : Type} (decode : Val → Option α) (args : List Val) : Result α := do
  let arg ← expect args.head? Error.proposalNotFound.trap
  expect (decode arg) Error.proposalNotFound.trap

/-- The part of `execute_action` that carries out the action: one of three operations on the
multisig itself, or a call of another contract, which the host keeps from calling back. -/
def dispatch (host : Host Addr Val) (inv : Invocation Addr Val self) (s : State Addr Val)
    (action : Action Addr Val) : Result (State Addr Val) :=
  if action.target = self then
    if action.function = "add_signer" then do
      let newSigner ← firstArg host.asAddress action.args
      applyAddSigner s newSigner
    else if action.function = "remove_signer" then do
      let targetSigner ← firstArg host.asAddress action.args
      applyRemoveSigner s targetSigner
    else if action.function = "update_threshold" then do
      let newThreshold ← firstArg host.asU32 action.args
      applyUpdateThreshold s newThreshold
    else .error Error.proposalNotFound.trap
  else do
    require (inv.accepts action = true) .subcall
    pure { s with invoked := action :: s.invoked }

/-- Anybody may execute; the counter of approvals decides, not the flags. -/
def executeAction (host : Host Addr Val) (inv : Invocation Addr Val self) (s : State Addr Val)
    (actionId : ℕ) : Result (State Addr Val) := do
  let threshold ← expect s.threshold Error.notInitialized.trap
  let p ← expect (s.proposal actionId) Error.proposalNotFound.trap
  require (p.executed = false) Error.alreadyExecuted.trap
  require (p.cancelled = false) Error.cancelled.trap
  require (inv.timestamp ≤ p.expiry) Error.expired.trap
  require (threshold ≤ p.approvalCount) Error.belowThreshold.trap
  let storedChecksum ← expect (s.proposalArgsChecksum actionId) Error.proposalArgsTampered.trap
  require (host.sha256 (host.argsXdr p.args) = storedChecksum) Error.proposalArgsTampered.trap
  let u ← dispatch host inv (s.setProposal actionId { p with executed := true }) p.action
  pure { u with activeProposalCount := u.activeProposalCount - 1 }

def cancelAction (inv : Invocation Addr Val self) (s : State Addr Val) (caller : Addr)
    (actionId : ℕ) : Result (State Addr Val) := do
  require (s.threshold ≠ none) Error.notInitialized.trap
  let p ← expect (s.proposal actionId) Error.proposalNotFound.trap
  require (p.proposer = caller ∨ s.signer caller = true) Error.notSigner.trap
  require (p.executed = false) Error.alreadyExecuted.trap
  require (p.cancelled = false) Error.cancelled.trap
  require (inv.timestamp ≤ p.expiry) Error.expired.trap
  requireAuth inv.toEnv caller
  pure { s.setProposal actionId { p with cancelled := true } with
    activeProposalCount := s.activeProposalCount - 1 }

end Approvals

section Recovery

/-- What the checksum of a snapshot is computed from. -/
def GovConfigSnapshot.bytes (config : GovConfigSnapshot) : List UInt8 :=
  BigEndian.bytes 4 config.threshold ++ BigEndian.bytes 4 config.signerCount ++
    BigEndian.bytes 4 config.proposalCount

/-- Any one signer may take a snapshot, also under an id that has one already. -/
def snapshotState (host : Host Addr Val) (inv : Invocation Addr Val self) (s : State Addr Val)
    (caller : Addr) (snapshotId : ℕ) : Result (State Addr Val) := do
  require (s.threshold ≠ none) Error.notInitialized.trap
  require (s.signer caller = true) Error.notSigner.trap
  requireAuth inv.toEnv caller
  let (index, evicted) := pushSnapshotIndex s.govSnapshotIndex snapshotId
  let kept := match evicted with
    | none => s
    | some oldId => s.dropSnapshot oldId
  let record : SnapshotMeta Addr := {
    createdAt := inv.timestamp
    blockHeight := inv.sequence
    contractVersion := 0
    admin := caller
    checksum := host.sha256 s.config.bytes
    recordCount := s.signerCount
    snapshotIndex := min s.govSnapshotIndex.length (maxSnapshots - 1) }
  pure { kept with
    govSnapshotIndex := index
    govSnapshot := Function.update kept.govSnapshot snapshotId (some s.config)
    govSnapshotMeta := Function.update kept.govSnapshotMeta snapshotId (some record) }

/-- Anybody may execute, and who approved is not looked at again. -/
def executeEmergencyRollback (inv : Invocation Addr Val self) (s : State Addr Val)
    (proposalId : ℕ) : Result (State Addr Val) := do
  let p ← expect (s.govRollbackProposal proposalId) Error.proposalNotFound.trap
  require (p.executed = false) Error.alreadyExecuted.trap
  require (emergencyThreshold ≤ p.approvalCount) Error.belowThreshold.trap
  let config ← expect (s.govSnapshot p.snapshotId) Error.proposalNotFound.trap
  require (inv.installed p.oldWasmHash = true) .subcall
  pure ((s.restore config).setRollback proposalId { p with executed := true })

variable [DecidableEq Addr]

/-- Any one signer may replace the emergency signers. -/
def setEmergencySigners (inv : Invocation Addr Val self) (s : State Addr Val) (caller : Addr)
    (signers : List Addr) : Result (State Addr Val) := do
  require (s.threshold ≠ none) Error.notInitialized.trap
  require (s.signer caller = true) Error.notSigner.trap
  requireAuth inv.toEnv caller
  require (MultisigValidation.isValidEmergencyConfig signers emergencyMsigThreshold = true)
    Error.invalidThreshold.trap
  pure { s with govEmergencySigners := some signers }

/-- `propose_emergency_rollback` returns the id of the proposal. -/
def proposeEmergencyRollback (inv : Invocation Addr Val self) (s : State Addr Val)
    (proposer : Addr) (snapshotId : ℕ) (oldWasmHash : Hash) : Result (State Addr Val × ℕ) := do
  let signers ← expect s.govEmergencySigners Error.notInitialized.trap
  require (proposer ∈ signers) Error.notSigner.trap
  require ((s.govSnapshotMeta snapshotId).isSome) Error.proposalNotFound.trap
  requireAuth inv.toEnv proposer
  let newId ← checkedU32 (s.govRollbackProposalCount + 1)
    (.panic "Governance rollback count overflow")
  let p : RollbackProposal Addr :=
    ⟨newId, snapshotId, oldWasmHash, 1, false, inv.timestamp, proposer⟩
  pure ({ s.setRollback newId p with
    govRollbackProposalCount := newId
    govRollbackApproval := approve s.govRollbackApproval newId proposer }, newId)

def approveEmergencyRollback (inv : Invocation Addr Val self) (s : State Addr Val)
    (signer : Addr) (proposalId : ℕ) : Result (State Addr Val) := do
  let signers ← expect s.govEmergencySigners Error.notInitialized.trap
  require (signer ∈ signers) Error.notSigner.trap
  let p ← expect (s.govRollbackProposal proposalId) Error.proposalNotFound.trap
  require (p.executed = false) Error.alreadyExecuted.trap
  require (s.govRollbackApproval proposalId signer = false) Error.alreadySigned.trap
  requireAuth inv.toEnv signer
  let approvalCount ← checkedU32 (p.approvalCount + 1) (.panic "Approval count overflow")
  pure { s.setRollback proposalId { p with approvalCount := approvalCount } with
    govRollbackApproval := approve s.govRollbackApproval proposalId signer }

end Recovery

/-- The entry points that write, with their arguments. -/
inductive Call (Addr Val : Type) where
  | initializeMultisig (signers : List Addr) (threshold : ℕ)
  | proposeAction (proposer target : Addr) (function : String) (args : List Val)
  | signAction (signer : Addr) (actionId : ℕ)
  | executeAction (actionId : ℕ)
  | cancelAction (caller : Addr) (actionId : ℕ)
  | setEmergencySigners (caller : Addr) (signers : List Addr)
  | snapshotState (caller : Addr) (snapshotId : ℕ)
  | proposeEmergencyRollback (proposer : Addr) (snapshotId : ℕ) (oldWasmHash : Hash)
  | approveEmergencyRollback (signer : Addr) (proposalId : ℕ)
  | executeEmergencyRollback (proposalId : ℕ)

variable [DecidableEq Addr]

def exec (host : Host Addr Val) (inv : Invocation Addr Val self) (call : Call Addr Val)
    (s : State Addr Val) : Result (State Addr Val) :=
  match call with
  | .initializeMultisig signers threshold => initializeMultisig s signers threshold
  | .proposeAction proposer target function args => do
      let (t, _) ← proposeAction host inv s proposer target function args
      pure t
  | .signAction signer actionId => signAction inv s signer actionId
  | .executeAction actionId => executeAction host inv s actionId
  | .cancelAction caller actionId => cancelAction inv s caller actionId
  | .setEmergencySigners caller signers => setEmergencySigners inv s caller signers
  | .snapshotState caller snapshotId => snapshotState host inv s caller snapshotId
  | .proposeEmergencyRollback proposer snapshotId oldWasmHash => do
      let (t, _) ← proposeEmergencyRollback inv s proposer snapshotId oldWasmHash
      pure t
  | .approveEmergencyRollback signer proposalId =>
      approveEmergencyRollback inv s signer proposalId
  | .executeEmergencyRollback proposalId => executeEmergencyRollback inv s proposalId

abbrev Step (Addr Val : Type) (self : Addr) := Invocation Addr Val self × Call Addr Val

/-- The deployed contract. -/
def machine (self : Addr) (host : Host Addr Val) :
    Machine (State Addr Val) (Step Addr Val self) Trap where
  exec step := exec host step.1 step.2

/-- The state after a run from deployment. -/
abbrev reached (host : Host Addr Val) (steps : List (Step Addr Val self)) : State Addr Val :=
  (machine self host).run (deployed Addr Val) steps

/-- An invocation that every account signed, where the other contracts accept every call. -/
def acceptedAt (now : ℕ) : Invocation ℕ ℕ 0 where
  toEnv := signedByAll now
  accepts _ := true
  installed _ := true

/-- A host where an argument is one byte, and stands for an address and a number alike. -/
def byteHost : Host ℕ ℕ where
  sha256 data := BitVec.ofNat 256 (data.foldl (fun digest byte => 256 * digest + byte.toNat) 0)
  argsXdr args := args.map UInt8.ofNat
  asAddress := some
  asU32 := some

end MultisigAdmin
