import MentorsMind.Soroban.Host

/-! The snapshot contract: it records what everybody has staked under the id of a proposal, with a
checksum over the record. The staking and the delegation contract it asks are given by their
answers. The storage namespace and the lifetimes of entries are left out. -/
namespace Snapshot
open Outcome Soroban

inductive Error where
  | alreadyInitialized
  | notInitialized
  | unauthorized
  | crossContractCallFailed

def Error.code : Error → ℕ
  | .alreadyInitialized => 1
  | .notInitialized => 2
  | .unauthorized => 3
  | .crossContractCallFailed => 4

def Error.trap (e : Error) : Trap := .contractError e.code

/-- One field for each storage key. -/
structure State (Addr : Type) where
  admin : Option Addr
  stakingContract : Option Addr
  delegationContract : Option Addr
  snapshot : ℕ × Addr → Option ℤ
  snapshotTotalSupply : ℕ → Option ℤ
  snapshotChecksum : ℕ → Option Hash

def deployed (Addr : Type) : State Addr where
  admin := none
  stakingContract := none
  delegationContract := none
  snapshot _ := none
  snapshotTotalSupply _ := none
  snapshotChecksum _ := none

/-- What the host computes: a digest, and `to_xdr` of a list of stakers with their amounts. -/
structure Digests (Addr : Type) where
  sha256 : List UInt8 → Hash
  stakerXdr : List (Addr × ℤ) → List UInt8

/-- One invocation: the ledger, the signers, and what the contracts at the stored addresses
answer. A call that traps answers `none`, or `false` where only success counts. -/
structure Invocation (Addr : Type) (home : Addr) extends Env Addr home where
  totalStaked : Addr → Option ℤ
  stakers : Addr → Option (List Addr)
  /-- The `amount` of `get_stake`. -/
  stakedAmount : Addr → Addr → Option ℤ
  snapshotDelegations : Addr → ℕ → Bool
  delegationAtSnapshot : Addr → ℕ → Addr → Option (Option Addr)

variable {Addr : Type} {self : Addr}

/-- `compute_checksum` of the serialised stakers. -/
def Digests.checksum (digests : Digests Addr) (stakerData : List (Addr × ℤ)) : Hash :=
  digests.sha256 (digests.stakerXdr stakerData)

section Recording

/-- The entry point `initialize`, which asks for no authorisation. -/
def initializeSnapshot (s : State Addr) (admin stakingContract delegationContract : Addr) :
    Result (State Addr) := do
  require (s.admin = none) Error.alreadyInitialized.trap
  pure { s with
    admin := some admin
    stakingContract := some stakingContract
    delegationContract := some delegationContract }

variable [DecidableEq Addr]

/-- The loop of `record_snapshot`. It returns the list that the checksum is computed from. -/
def recordStakers (inv : Invocation Addr self) (stakingContract : Addr) (snapshotId : ℕ) :
    List Addr → State Addr → Result (State Addr × List (Addr × ℤ))
  | [], s => pure (s, [])
  | staker :: stakers, s => do
      let amount ←
        expect (inv.stakedAmount stakingContract staker) Error.crossContractCallFailed.trap
      let (t, stakerData) ← recordStakers inv stakingContract snapshotId stakers
        { s with snapshot := Function.update s.snapshot (snapshotId, staker) (some amount) }
      pure (t, (staker, amount) :: stakerData)

/-- The admin may record under any id, also under one that has a snapshot already. -/
def recordSnapshot (digests : Digests Addr) (inv : Invocation Addr self) (s : State Addr)
    (caller : Addr) (snapshotId : ℕ) : Result (State Addr) := do
  requireAuth inv.toEnv caller
  let admin ← expect s.admin Error.notInitialized.trap
  require (caller = admin) Error.unauthorized.trap
  let stakingContract ← expect s.stakingContract Error.notInitialized.trap
  let delegationContract ← expect s.delegationContract Error.notInitialized.trap
  let totalSupply ←
    expect (inv.totalStaked stakingContract) Error.crossContractCallFailed.trap
  let stakers ← expect (inv.stakers stakingContract) Error.crossContractCallFailed.trap
  let (recorded, stakerData) ← recordStakers inv stakingContract snapshotId stakers
    { s with
      snapshotTotalSupply := Function.update s.snapshotTotalSupply snapshotId (some totalSupply) }
  require (inv.snapshotDelegations delegationContract snapshotId = true)
    Error.crossContractCallFailed.trap
  pure { recorded with
    snapshotChecksum := Function.update recorded.snapshotChecksum snapshotId
      (some (digests.checksum stakerData)) }

end Recording

section Views

def getSnapshotBalance (s : State Addr) (snapshotId : ℕ) (staker : Addr) : ℤ :=
  (s.snapshot (snapshotId, staker)).getD 0

def getTotalSupplyAt (s : State Addr) (snapshotId : ℕ) : ℤ :=
  (s.snapshotTotalSupply snapshotId).getD 0

/-- Who delegated has no power of their own. -/
def getVotingPower (inv : Invocation Addr self) (s : State Addr) (snapshotId : ℕ)
    (voter : Addr) : Result ℤ := do
  let delegationContract ← expect s.delegationContract Error.notInitialized.trap
  let delegatedTo ← expect (inv.delegationAtSnapshot delegationContract snapshotId voter)
    Error.crossContractCallFailed.trap
  pure (if delegatedTo.isSome then 0 else getSnapshotBalance s snapshotId voter)

/-- The loop of `verify_snapshot_integrity`, which stops at a staker without an entry. -/
def storedStakerData (s : State Addr) (snapshotId : ℕ) : List Addr → Option (List (Addr × ℤ))
  | [] => some []
  | staker :: stakers => do
      let amount ← s.snapshot (snapshotId, staker)
      let stakerData ← storedStakerData s snapshotId stakers
      pure ((staker, amount) :: stakerData)

/-- The stakers are those that the staking contract lists now. -/
def verifySnapshotIntegrity (digests : Digests Addr) (inv : Invocation Addr self)
    (s : State Addr) (snapshotId : ℕ) : Result Bool :=
  match s.snapshotChecksum snapshotId with
  | none => pure false
  | some storedChecksum => do
      let stakingContract ← expect s.stakingContract Error.notInitialized.trap
      let stakers ← expect (inv.stakers stakingContract) Error.crossContractCallFailed.trap
      match storedStakerData s snapshotId stakers with
      | none => pure false
      | some stakerData => pure (digests.checksum stakerData == storedChecksum)

end Views

/-- The entry points that write, with their arguments. -/
inductive Call (Addr : Type) where
  | initializeSnapshot (admin stakingContract delegationContract : Addr)
  | recordSnapshot (caller : Addr) (snapshotId : ℕ)

variable [DecidableEq Addr]

def exec (digests : Digests Addr) (inv : Invocation Addr self) (call : Call Addr)
    (s : State Addr) : Result (State Addr) :=
  match call with
  | .initializeSnapshot admin stakingContract delegationContract =>
      initializeSnapshot s admin stakingContract delegationContract
  | .recordSnapshot caller snapshotId => recordSnapshot digests inv s caller snapshotId

abbrev Step (Addr : Type) (self : Addr) := Invocation Addr self × Call Addr

/-- The deployed contract. -/
def machine (self : Addr) (digests : Digests Addr) : Machine (State Addr) (Step Addr self) Trap where
  exec step := exec digests step.1 step.2

/-- The state after a run from deployment. -/
abbrev reached (digests : Digests Addr) (steps : List (Step Addr self)) : State Addr :=
  (machine self digests).run (deployed Addr) steps

end Snapshot
