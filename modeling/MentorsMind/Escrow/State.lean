import MentorsMind.Soroban.TokenLedger
import MentorsMind.Shared.Rollback
import MentorsMind.Shared.Integrity

/-! The storage of the escrow contract, grouped by the entry points that write it. Lifetimes
of entries are left out, save that extending the lifetime of a missing entry traps. -/
namespace Escrow
open Soroban Shared

inductive Error where
  | sessionAuthFailed
  | duplicateEntry

def Error.code : Error → ℕ
  | .sessionAuthFailed => 1
  | .duplicateEntry => 2

def Error.trap (e : Error) : Trap := .contractError e.code

inductive MilestoneStatus where
  | pending
  | completed
  | disputed
  deriving DecidableEq

structure MilestoneSpec where
  descriptionHash : Hash
  amount : ℤ

structure MilestoneEscrow (Addr : Type) where
  id : ℕ
  mentor : Addr
  learner : Addr
  totalAmount : ℤ
  milestones : List MilestoneSpec
  milestoneStatuses : List MilestoneStatus
  status : EscrowStatus
  createdAt : ℕ
  tokenAddress : Addr
  platformFee : ℤ
  netAmount : ℤ

structure FeeSchedule where
  tier0Bps : ℕ
  tier1Bps : ℕ
  tier2Bps : ℕ
  tier3Bps : ℕ
  volumeDiscountThreshold : ℤ
  volumeDiscountBps : ℕ

inductive AdminChangeProposal where
  | proposed
  | accepted
  | revoked
  deriving DecidableEq

structure AdminTransfer (Addr : Type) where
  newAdmin : Addr
  effectiveAt : ℕ
  status : AdminChangeProposal

def maxFeeBps : ℕ := 1000
def defaultFeeBps : ℕ := 500
def defaultAutoReleaseDelay : ℕ := 72 * 60 * 60
def gracePeriodSecs : ℕ := 7 * 24 * 60 * 60
def minAdminTimelockSecs : ℕ := 48 * 60 * 60
def adminCoolingOffSecs : ℕ := 24 * 60 * 60

/-- What the admin configures. -/
structure Config (Addr : Type) where
  admin : Option Addr
  treasury : Option Addr
  feeBps : Option ℕ
  autoRelDelay : Option ℕ
  approvedToken : Addr → Bool
  feeSchedule : Option FeeSchedule
  stakingContract : Option Addr
  reputationContract : Option Addr
  insuranceContract : Option Addr
  interfaceRegistry : Option Addr
  multisigAdmin : Option Addr
  governanceContract : Option Addr
  pendingAdminTransfer : Option (AdminTransfer Addr)
  lastAdminChange : ℕ
  dynamicFeeEnabled : Bool
  liquidityPool : Option Addr

/-- The MNT price, cached for one ledger. -/
structure PriceCache where
  price : ℤ
  ledger : ℕ

/-- The escrows and the indexes kept beside them. A regular and a milestone escrow with
the same id share one transition log. -/
structure Book (Addr : Type) where
  escrowCount : ℕ
  escrow : ℕ → Option (EscrowRecord Addr)
  milestoneCount : ℕ
  milestone : ℕ → Option (MilestoneEscrow Addr)
  usedSessionNonce : Hash → Bool
  session : String → Bool
  transitionLog : ℕ → List (EscrowTransitionLog Addr)
  mentorEscrows : Addr → List ℕ
  learnerEscrows : Addr → List ℕ
  lowFeeSessionCount : Addr → Addr → ℕ

/-- What an entry point that moves money writes. -/
structure Custody (Addr : Type) where
  price : PriceCache
  book : Book Addr
  tokens : Tokens Addr

structure Failures where
  record : ℕ → Option ReleaseFailure
  stuckEscrows : List ℕ

structure Emergency (Addr : Type) where
  signers : Option (List Addr)
  multisigConfig : Option (EmergencyMultisig Addr)
  proposal : ℕ → Option (EmergencyAction Addr)
  approval : ℕ → Addr → Bool
  proposalCount : ℕ
  audit : ℕ → Option (EmergencyAuditRecord Addr)
  failedParams : Hash → Bool
  admin : Option (EmergencyAdminRole Addr)
  circuit : Option EmergencyCircuitBreaker

structure Recovery (Addr : Type) where
  snapshot : ℕ → Option (List (EscrowRecord Addr))
  snapshotMetadata : ℕ → Option (SnapshotMeta Addr)
  snapshotIndex : List ℕ
  rollback : ℕ → Option (EmergencyRollback Addr)
  rollbackCount : ℕ
  immutableAudit : ℕ → Option (ImmutableRollbackAuditRecord Addr)
  preservedAudit : ℕ → Option (EmergencyAuditRecord Addr)
  preservedTransitionLog : ℕ → Option (List (EscrowTransitionLog Addr))

structure Payments (Addr : Type) where
  disputeActionLog : ℕ → List ℕ
  disputeEvidenceCount : ℕ → ℕ
  resolutionApprovals : ℕ → List Addr
  isolated : ℕ → Bool
  audit : ℕ → Option PaymentAuditEntry

structure EscrowInvariantReport where
  escrowId : ℕ
  fundsConserved : Bool
  transitionConsistent : Bool
  terminalStateImmutable : Bool
  treasuryConsistent : Bool
  violationCount : ℕ
  checkedAt : ℕ

structure State (Addr : Type) where
  config : Config Addr
  custody : Custody Addr
  failures : Failures
  emergency : Emergency Addr
  recovery : Recovery Addr
  payments : Payments Addr
  review : ℕ → Option String
  invariantReport : ℕ → Option EscrowInvariantReport

def emptyConfig (Addr : Type) : Config Addr where
  admin := none
  treasury := none
  feeBps := none
  autoRelDelay := none
  approvedToken := fun _ => false
  feeSchedule := none
  stakingContract := none
  reputationContract := none
  insuranceContract := none
  interfaceRegistry := none
  multisigAdmin := none
  governanceContract := none
  pendingAdminTransfer := none
  lastAdminChange := 0
  dynamicFeeEnabled := true
  liquidityPool := none

def emptyBook (Addr : Type) : Book Addr where
  escrowCount := 0
  escrow := fun _ => none
  milestoneCount := 0
  milestone := fun _ => none
  usedSessionNonce := fun _ => false
  session := fun _ => false
  transitionLog := fun _ => []
  mentorEscrows := fun _ => []
  learnerEscrows := fun _ => []
  lowFeeSessionCount := fun _ _ => 0

/-- The contract as deployed, beside token ledgers that hold any balances. -/
def deployed {Addr : Type} (balance : Addr → Addr → ℤ) : State Addr where
  config := emptyConfig Addr
  custody := ⟨⟨0, 0⟩, emptyBook Addr, ⟨balance, []⟩⟩
  failures := ⟨fun _ => none, []⟩
  emergency := ⟨none, none, fun _ => none, fun _ _ => false, 0, fun _ => none, fun _ => false,
    none, none⟩
  recovery := ⟨fun _ => none, fun _ => none, [], fun _ => none, 0, fun _ => none,
    fun _ => none, fun _ => none⟩
  payments := ⟨fun _ => [], fun _ => 0, fun _ => [], fun _ => false, fun _ => none⟩
  review := fun _ => none
  invariantReport := fun _ => none

/-- The digests the contract takes with SHA-256. -/
structure Digests where
  session : String → Hash
  params : String → ℕ → ℤ → Hash → Hash
  checksum : ℕ → ℕ → ℕ → ℕ → Hash

/-- One invocation: the ledger, the signers, and what the other contracts answer. A call
to another contract that traps answers `none`, or `false` where only success counts. -/
structure Invocation (Addr : Type) (home : Addr) extends Env Addr home where
  accepts : Transfer Addr → Bool
  tier : Addr → Addr → Option ℕ
  verify : Addr → Addr → String → Option Bool
  onSessionReleased : Addr → ℕ → Addr → Addr → ℤ → Bool
  coverageRatio : Addr → Option ℕ

variable {Addr : Type}

namespace Book

def setEscrow (b : Book Addr) (id : ℕ) (e : EscrowRecord Addr) : Book Addr :=
  { b with escrow := Function.update b.escrow id (some e) }

def setMilestone (b : Book Addr) (id : ℕ) (e : MilestoneEscrow Addr) : Book Addr :=
  { b with milestone := Function.update b.milestone id (some e) }

def logTransition (b : Book Addr) (id : ℕ) (entry : EscrowTransitionLog Addr) : Book Addr :=
  { b with transitionLog := Function.update b.transitionLog id (b.transitionLog id ++ [entry]) }

/-- Both books hold the same escrows. -/
structure SameEscrows (b b' : Book Addr) : Prop where
  escrow : b'.escrow = b.escrow
  milestone : b'.milestone = b.milestone
  escrowCount : b'.escrowCount = b.escrowCount
  milestoneCount : b'.milestoneCount = b.milestoneCount

theorem SameEscrows.refl (b : Book Addr) : b.SameEscrows b := ⟨rfl, rfl, rfl, rfl⟩

theorem logTransition_sameEscrows (b : Book Addr) (id : ℕ) (entry : EscrowTransitionLog Addr) :
    b.SameEscrows (b.logTransition id entry) := ⟨rfl, rfl, rfl, rfl⟩

@[simp] theorem setEscrow_escrow (b : Book Addr) (id : ℕ) (e : EscrowRecord Addr) :
    (b.setEscrow id e).escrow = Function.update b.escrow id (some e) := rfl

@[simp] theorem setEscrow_milestone (b : Book Addr) (id : ℕ) (e : EscrowRecord Addr) :
    (b.setEscrow id e).milestone = b.milestone := rfl

@[simp] theorem setEscrow_escrowCount (b : Book Addr) (id : ℕ) (e : EscrowRecord Addr) :
    (b.setEscrow id e).escrowCount = b.escrowCount := rfl

@[simp] theorem setEscrow_milestoneCount (b : Book Addr) (id : ℕ) (e : EscrowRecord Addr) :
    (b.setEscrow id e).milestoneCount = b.milestoneCount := rfl

@[simp] theorem setMilestone_escrow (b : Book Addr) (id : ℕ) (e : MilestoneEscrow Addr) :
    (b.setMilestone id e).escrow = b.escrow := rfl

@[simp] theorem setMilestone_milestone (b : Book Addr) (id : ℕ) (e : MilestoneEscrow Addr) :
    (b.setMilestone id e).milestone = Function.update b.milestone id (some e) := rfl

@[simp] theorem setMilestone_escrowCount (b : Book Addr) (id : ℕ) (e : MilestoneEscrow Addr) :
    (b.setMilestone id e).escrowCount = b.escrowCount := rfl

@[simp] theorem setMilestone_milestoneCount (b : Book Addr) (id : ℕ)
    (e : MilestoneEscrow Addr) : (b.setMilestone id e).milestoneCount = b.milestoneCount := rfl

end Book

end Escrow
