import MentorsMind.Lib.BigEndian
import MentorsMind.Shared.SafeMath

/-! Keys of accounts in versions: registration, rotation by a proposal, emergency revocation, and
social recovery by guardians. Key derivation, threshold shares and the events are left out. -/
namespace KeyManagement
open Outcome Soroban Shared

def keyRotationPeriodSecs : ℕ := 30 * 24 * 60 * 60
def keyRotationOverlapSecs : ℕ := 7 * 24 * 60 * 60
def revocationCooldownSecs : ℕ := 3600
def socialRecoveryQuorum : ℕ := 3
def maxGuardians : ℕ := 7
def keyVersionBump : ℕ := 1

/-- How long approvals of a recovery are collected. -/
def recoveryWindowSecs : ℕ := 48 * 60 * 60

inductive KeyScheme where
  | ed25519
  | secp256k1
  | postQuantumLattice
  | postQuantumHash
  deriving DecidableEq

def isSchemeSupported : KeyScheme → Bool
  | .ed25519 => true
  | .secp256k1 => true
  | _ => false

structure KeyRecord (Addr : Type) where
  account : Addr
  version : ℕ
  scheme : KeyScheme
  pubkeyCommitment : Hash
  derivationPathHash : Hash
  activatedAt : ℕ
  rotateAfter : ℕ
  revoked : Bool
  revokedAt : ℕ
  forwardSecrecy : Bool
  deriving DecidableEq

structure KeyRotationProposal (Addr : Type) where
  account : Addr
  newVersion : ℕ
  newScheme : KeyScheme
  newPubkeyCommitment : Hash
  newDerivationPathHash : Hash
  effectiveAt : ℕ
  oldKeyRetiredAt : ℕ
  executed : Bool
  deriving DecidableEq

structure KeyRevocationRecord (Addr : Type) where
  account : Addr
  version : ℕ
  reason : String
  revokedAt : ℕ
  reinstateEligibleAt : ℕ
  emergency : Bool
  deriving DecidableEq

structure SocialRecoverySession (Addr : Type) where
  account : Addr
  newKeyCommitment : Hash
  approvalsCollected : ℕ
  quorum : ℕ
  expiresAt : ℕ
  executed : Bool
  deriving DecidableEq

/-- One field for each kind of storage key. An absent version reads as zero, an absent list of
guardians as the empty one. -/
structure State (Addr : Type) where
  keyRecord : Addr × ℕ → Option (KeyRecord Addr)
  currentVersion : Addr → ℕ
  rotationProposal : Addr → Option (KeyRotationProposal Addr)
  revocationRecord : Addr → Option (KeyRevocationRecord Addr)
  session : Hash → Option (SocialRecoverySession Addr)
  approved : Hash × Addr → Bool
  guardians : Addr → List Addr

def deployed (Addr : Type) : State Addr where
  keyRecord _ := none
  currentVersion _ := 0
  rotationProposal _ := none
  revocationRecord _ := none
  session _ := none
  approved _ := false
  guardians _ := []

variable {Addr : Type} [DecidableEq Addr]

section Keys

/-- What a caller of `register_key` hands over about the key. -/
structure NewKey where
  scheme : KeyScheme
  pubkeyCommitment : Hash
  derivationPathHash : Hash
  forwardSecrecy : Bool

omit [DecidableEq Addr] in
/-- The record of a key that is registered now. -/
def NewKey.record (key : NewKey) (account : Addr) (version now : ℕ) : KeyRecord Addr where
  account := account
  version := version
  scheme := key.scheme
  pubkeyCommitment := key.pubkeyCommitment
  derivationPathHash := key.derivationPathHash
  activatedAt := now
  rotateAfter := saturatingAddU64 now keyRotationPeriodSecs
  revoked := false
  revokedAt := 0
  forwardSecrecy := key.forwardSecrecy

/-- Registers a key as the version after the current one. Revocations are not looked at. -/
def registerKey (now : ℕ) (s : State Addr) (account : Addr) (key : NewKey) :
    Result (State Addr × KeyRecord Addr) := do
  require (isSchemeSupported key.scheme = true) (.panic "key scheme not yet supported")
  let existingVersion := s.currentVersion account
  let version := saturatingAddU32 existingVersion keyVersionBump
  let record := key.record account version now
  pure ({ s with
    keyRecord := Function.update s.keyRecord (account, version) (some record)
    currentVersion := Function.update s.currentVersion account version }, record)

def proposeKeyRotation (now : ℕ) (s : State Addr) (account : Addr) (newScheme : KeyScheme)
    (newPubkeyCommitment newDerivationPathHash : Hash) :
    Result (State Addr × KeyRotationProposal Addr) := do
  require (isSchemeSupported newScheme = true) (.panic "target key scheme not yet supported")
  let currentVersion := s.currentVersion account
  let proposal : KeyRotationProposal Addr := {
    account := account
    newVersion := saturatingAddU32 currentVersion 1
    newScheme := newScheme
    newPubkeyCommitment := newPubkeyCommitment
    newDerivationPathHash := newDerivationPathHash
    effectiveAt := now
    oldKeyRetiredAt := saturatingAddU64 now keyRotationOverlapSecs
    executed := false }
  pure ({ s with rotationProposal := Function.update s.rotationProposal account (some proposal) },
    proposal)

omit [DecidableEq Addr] in
/-- The key that a rotation hands to `register_key`. -/
def KeyRotationProposal.key (proposal : KeyRotationProposal Addr) : NewKey where
  scheme := proposal.newScheme
  pubkeyCommitment := proposal.newPubkeyCommitment
  derivationPathHash := proposal.newDerivationPathHash
  forwardSecrecy := true

/-- The version is that of the registration, not that of the proposal. -/
def executeKeyRotation (now : ℕ) (s : State Addr) (account : Addr) : Result (State Addr) := do
  let proposal ← expect (s.rotationProposal account) (.panic "no pending rotation proposal")
  require (proposal.executed = false) (.panic "rotation already executed")
  require (proposal.effectiveAt ≤ now) (.panic "rotation not yet effective")
  let (registered, _) ← registerKey now s account proposal.key
  pure { registered with
    rotationProposal :=
      Function.update registered.rotationProposal account (some { proposal with executed := true }) }

def emergencyRevokeKey (now : ℕ) (s : State Addr) (account : Addr) (version : ℕ)
    (reason : String) : Result (State Addr) := do
  let record ← expect (s.keyRecord (account, version)) (.panic "key record not found")
  require (record.revoked = false) (.panic "key already revoked")
  let revocation : KeyRevocationRecord Addr := {
    account := account
    version := version
    reason := reason
    revokedAt := now
    reinstateEligibleAt := saturatingAddU64 now revocationCooldownSecs
    emergency := true }
  pure { s with
    keyRecord := Function.update s.keyRecord (account, version)
      (some { record with revoked := true, revokedAt := now })
    revocationRecord := Function.update s.revocationRecord account (some revocation) }

omit [DecidableEq Addr] in
/-- A view: none of the functions that register a key asks it. -/
def isReinstateEligible (now : ℕ) (s : State Addr) (account : Addr) : Bool :=
  match s.revocationRecord account with
  | some rev => decide (rev.reinstateEligibleAt ≤ now)
  | none => true

end Keys

section SocialRecovery

/-- The account is not part of what is hashed. -/
def sessionIdOf (sha256 : List UInt8 → Hash) (newKeyCommitment : Hash) (now : ℕ) : Hash :=
  sha256 (BigEndian.bytes 32 newKeyCommitment.toNat ++ BigEndian.bytes 8 now)

omit [DecidableEq Addr] in
/-- A session that has just been opened. -/
def SocialRecoverySession.opened (account : Addr) (newKeyCommitment : Hash) (now : ℕ) :
    SocialRecoverySession Addr where
  account := account
  newKeyCommitment := newKeyCommitment
  approvalsCollected := 0
  quorum := socialRecoveryQuorum
  expiresAt := saturatingAddU64 now recoveryWindowSecs
  executed := false

omit [DecidableEq Addr] in
/-- `initiate_social_recovery` returns the id of the session. What is stored under the id is
overwritten. -/
def initiateSocialRecovery (sha256 : List UInt8 → Hash) (now : ℕ) (s : State Addr)
    (account : Addr) (newKeyCommitment : Hash) : State Addr × Hash :=
  let sessionId := sessionIdOf sha256 newKeyCommitment now
  let session : SocialRecoverySession Addr := .opened account newKeyCommitment now
  ({ s with session := Function.update s.session sessionId (some session) }, sessionId)

def isRegisteredGuardian (s : State Addr) (account guardian : Addr) : Bool :=
  decide (guardian ∈ s.guardians account)

omit [DecidableEq Addr] in
/-- What approving and executing a session both begin with. -/
def getOpenSession (now : ℕ) (s : State Addr) (sessionId : Hash) :
    Result (SocialRecoverySession Addr) := do
  let session ← expect (s.session sessionId) (.panic "recovery session not found")
  require (session.executed = false) (.panic "recovery already executed")
  require (now ≤ session.expiresAt) (.panic "recovery session expired")
  pure session

/-- `approve_social_recovery` returns the number of approvals collected. -/
def approveSocialRecovery (now : ℕ) (s : State Addr) (guardian : Addr) (sessionId : Hash) :
    Result (State Addr × ℕ) := do
  let session ← getOpenSession now s sessionId
  require (isRegisteredGuardian s session.account guardian = true)
    (.panic "not a registered guardian")
  require (s.approved (sessionId, guardian) = false) (.panic "guardian already approved")
  let collected := saturatingAddU32 session.approvalsCollected 1
  pure ({ s with
    approved := Function.update s.approved (sessionId, guardian) true
    session := Function.update s.session sessionId
      (some { session with approvalsCollected := collected }) }, collected)

omit [DecidableEq Addr] in
/-- The key that a recovery hands to `register_key`. -/
def SocialRecoverySession.key (session : SocialRecoverySession Addr) (derivationPathHash : Hash) :
    NewKey where
  scheme := .ed25519
  pubkeyCommitment := session.newKeyCommitment
  derivationPathHash := derivationPathHash
  forwardSecrecy := true

def executeSocialRecovery (now : ℕ) (s : State Addr) (sessionId derivationPathHash : Hash) :
    Result (State Addr) := do
  let session ← getOpenSession now s sessionId
  require (session.quorum ≤ session.approvalsCollected) (.panic "recovery quorum not met")
  let (registered, _) ← registerKey now s session.account (session.key derivationPathHash)
  pure { registered with
    session := Function.update registered.session sessionId
      (some { session with executed := true }) }

def registerGuardian (s : State Addr) (account guardian : Addr) : Result (State Addr) := do
  require ((s.guardians account).length < maxGuardians) (.panic "maximum guardian count reached")
  require (guardian ∉ s.guardians account) (.panic "guardian already registered")
  pure { s with
    guardians := Function.update s.guardians account (s.guardians account ++ [guardian]) }

end SocialRecovery

/-- The functions that write, with their arguments. -/
inductive Call (Addr : Type) where
  | registerKey (account : Addr) (key : NewKey)
  | proposeKeyRotation (account : Addr) (newScheme : KeyScheme)
      (newPubkeyCommitment newDerivationPathHash : Hash)
  | executeKeyRotation (account : Addr)
  | emergencyRevokeKey (account : Addr) (version : ℕ) (reason : String)
  | initiateSocialRecovery (account : Addr) (newKeyCommitment : Hash)
  | approveSocialRecovery (guardian : Addr) (sessionId : Hash)
  | executeSocialRecovery (sessionId derivationPathHash : Hash)
  | registerGuardian (account guardian : Addr)

def exec (sha256 : List UInt8 → Hash) (now : ℕ) (call : Call Addr) (s : State Addr) :
    Result (State Addr) :=
  match call with
  | .registerKey account key => Prod.fst <$> registerKey now s account key
  | .proposeKeyRotation account newScheme newPubkeyCommitment newDerivationPathHash =>
      Prod.fst <$> proposeKeyRotation now s account newScheme newPubkeyCommitment
        newDerivationPathHash
  | .executeKeyRotation account => executeKeyRotation now s account
  | .emergencyRevokeKey account version reason => emergencyRevokeKey now s account version reason
  | .initiateSocialRecovery account newKeyCommitment =>
      pure (initiateSocialRecovery sha256 now s account newKeyCommitment).1
  | .approveSocialRecovery guardian sessionId =>
      Prod.fst <$> approveSocialRecovery now s guardian sessionId
  | .executeSocialRecovery sessionId derivationPathHash =>
      executeSocialRecovery now s sessionId derivationPathHash
  | .registerGuardian account guardian => registerGuardian s account guardian

/-- A call at a ledger time. None of them asks who signed. -/
abbrev Step (Addr : Type) := ℕ × Call Addr

/-- The keys of all accounts of a contract that uses these functions. -/
def machine (sha256 : List UInt8 → Hash) : Machine (State Addr) (Step Addr) Trap where
  exec step := exec sha256 step.1 step.2

/-- The state after a run from deployment. -/
abbrev reached (sha256 : List UInt8 → Hash) (steps : List (Step Addr)) : State Addr :=
  (machine sha256).run (deployed Addr) steps

end KeyManagement
