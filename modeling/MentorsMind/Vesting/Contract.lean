import MentorsMind.Lib.BigEndian
import MentorsMind.Lib.MerkleTree
import MentorsMind.Shared.SafeMath
import MentorsMind.Soroban.TokenLedger

/-! The storage of the vesting contract, and the encoding of what its Merkle leaves hash. The
error enum, which the contract never returns, is left out. -/
namespace Vesting
open Outcome Soroban Shared

def minCliffSecs : ℕ := 60 * 60
def minVestingSecs : ℕ := 24 * 60 * 60
def maxVestingSecs : ℕ := 10 * 365 * 24 * 60 * 60
def timestampToleranceSecs : ℕ := 60
def maxPastStartSecs : ℕ := 5 * 60

structure VestingSchedule (Addr : Type) where
  beneficiary : Addr
  total : ℤ
  claimed : ℤ
  cliffEnd : ℕ
  vestingEnd : ℕ
  start : ℕ
  deriving DecidableEq

/-- What both ways to create a schedule are given, within the machine types. -/
structure Grant (Addr : Type) where
  beneficiary : Addr
  totalAmount : ℤ
  cliffSeconds : ℕ
  vestingSeconds : ℕ
  start : ℕ
  total_fits : FitsI128 totalAmount
  cliff_lt : cliffSeconds < 2 ^ 64
  vesting_lt : vestingSeconds < 2 ^ 64
  start_lt : start < 2 ^ 64

/-- Entries that are not stored read as their defaults. -/
structure State (Addr : Type) where
  admin : Option Addr
  token : Option Addr
  nextScheduleId : ℕ
  schedule : ℕ → Option (VestingSchedule Addr)
  beneficiarySchedules : Addr → List ℕ
  merkleRoot : Option Hash
  claimedMerkleLeaf : Hash → Bool
  tokens : Tokens Addr

/-- The contract as deployed, beside token ledgers with any balances. -/
def deployed {Addr : Type} (balance : Addr → Addr → ℕ) : State Addr where
  admin := none
  token := none
  nextScheduleId := 0
  schedule _ := none
  beneficiarySchedules _ := []
  merkleRoot := none
  claimedMerkleLeaf _ := false
  tokens := ⟨fun token holder => balance token holder, []⟩

/-- One invocation: the ledger, the signers, and which transfers the tokens accept. -/
structure Invocation (Addr : Type) (home : Addr) extends Env Addr home where
  accepts : Transfer Addr → Bool

/-- What the host computes for the contract: a digest, and `to_xdr` of an address. -/
structure Digests (Addr : Type) where
  sha256 : List UInt8 → Hash
  addressXdr : Addr → List UInt8

/-- `to_xdr` of a `u64`: the tag of the type and eight bytes. -/
def u64Xdr (n : ℕ) : List UInt8 := BigEndian.bytes 4 5 ++ BigEndian.bytes 8 n

/-- `to_xdr` of an `i128`: the tag of the type and sixteen bytes in two's complement. -/
def i128Xdr (n : ℤ) : List UInt8 :=
  BigEndian.bytes 4 10 ++ BigEndian.bytes 16 (n % 2 ^ 128).toNat

variable {Addr : Type}

/-- What the leaf of a grant hashes. -/
def Grant.leafData (digests : Digests Addr) (g : Grant Addr) : List UInt8 :=
  digests.addressXdr g.beneficiary ++ i128Xdr g.totalAmount ++ u64Xdr g.cliffSeconds ++
    u64Xdr g.vestingSeconds ++ u64Xdr g.start

/-- A digest as its 32 bytes, whose order is the order of the digests as numbers. -/
def digestEncoding : MerkleTree.Encoding UInt8 Hash where
  encode h := BigEndian.bytes 32 h.toNat
  length := 32
  length_encode h := BigEndian.length_bytes 32 h.toNat
  injective := BigEndian.bytes_toNat_injective 32

end Vesting

/-! The vesting contract as a machine over its storage and the token ledgers. Of the views only
`claimable_amount` is modelled. -/
namespace Vesting
open Outcome Soroban Shared

variable {Addr : Type} [DecidableEq Addr] {self : Addr}

/-- The entry point `initialize`. -/
def initializeVesting (s : State Addr) (admin token : Addr) : Result (State Addr) := do
  require (s.admin = none) (.panic "Already initialized")
  pure { s with
    admin := some admin
    token := some token
    nextScheduleId := 0 }

def requireAdmin (inv : Invocation Addr self) (s : State Addr) : Result Addr := do
  let admin ← expect s.admin (.panic "Not initialized")
  requireAuth inv.toEnv admin
  pure admin

/-- The schedule is stored, and its id recorded for the beneficiary. -/
def State.addSchedule (s : State Addr) (id : ℕ) (schedule : VestingSchedule Addr) : State Addr :=
  { s with
    schedule := Function.update s.schedule id (some schedule)
    beneficiarySchedules := Function.update s.beneficiarySchedules schedule.beneficiary
      (s.beneficiarySchedules schedule.beneficiary ++ [id]) }

@[simp] theorem addSchedule_schedule (s : State Addr) (id : ℕ)
    (schedule : VestingSchedule Addr) : (s.addSchedule id schedule).schedule =
      Function.update s.schedule id (some schedule) := rfl

@[simp] theorem addSchedule_nextScheduleId (s : State Addr) (id : ℕ)
    (schedule : VestingSchedule Addr) :
    (s.addSchedule id schedule).nextScheduleId = s.nextScheduleId := rfl

@[simp] theorem addSchedule_admin (s : State Addr) (id : ℕ) (schedule : VestingSchedule Addr) :
    (s.addSchedule id schedule).admin = s.admin := rfl

/-- A start of 0 stands for the current time; any other has to be close to it. -/
def scheduleStart (now start : ℕ) : Result ℕ :=
  if start = 0 then pure now
  else do
    require (now - maxPastStartSecs ≤ start) (.panic "start timestamp too far in the past")
    require (start ≤ saturatingAddU64 now maxPastStartSecs)
      (.panic "start timestamp too far in the future")
    pure start

/-- `create_schedule` returns the id of the schedule, which is the number stored next. -/
def createSchedule (inv : Invocation Addr self) (s : State Addr) (g : Grant Addr) :
    Result (State Addr × ℕ) := do
  let _ ← requireAdmin inv s
  require (0 < g.totalAmount) (.panic "Total amount must be positive")
  require (minVestingSecs ≤ g.vestingSeconds) (.panic "Vesting duration too short")
  require (g.vestingSeconds ≤ maxVestingSecs) (.panic "Vesting duration too long")
  require (g.cliffSeconds = 0 ∨ minCliffSecs ≤ g.cliffSeconds)
    (.panic "Cliff duration too short; use 0 for no cliff")
  require (g.cliffSeconds ≤ g.vestingSeconds)
    (.panic "Cliff cannot be longer than total vesting period")
  let start ← scheduleStart inv.timestamp g.start
  let cliffEnd ← u64 (start + g.cliffSeconds)
  let vestingEnd ← u64 (start + g.cliffSeconds + g.vestingSeconds)
  let scheduleId ← u32 (s.nextScheduleId + 1)
  let schedule : VestingSchedule Addr :=
    ⟨g.beneficiary, g.totalAmount, 0, cliffEnd, vestingEnd, start⟩
  pure ({ s with nextScheduleId := scheduleId }.addSchedule scheduleId schedule, scheduleId)

/-- When tokens start to vest, with the tolerance for the clock of the validators. -/
def VestingSchedule.effectiveStart (schedule : VestingSchedule Addr) : ℕ :=
  saturatingAddU64 schedule.cliffEnd timestampToleranceSecs

/-- What `claimable_amount` returns and `claim` pays. -/
def VestingSchedule.claimable (schedule : VestingSchedule Addr) (now : ℕ) : Result ℤ :=
  if now < schedule.effectiveStart then pure 0
  else if schedule.vestingEnd ≤ now then i128 (schedule.total - schedule.claimed)
  else do
    let vestedPeriod := now - schedule.effectiveStart
    require (schedule.cliffEnd ≤ schedule.vestingEnd) .arithmetic
    let totalPeriod := schedule.vestingEnd - schedule.cliffEnd
    let product ← i128 (schedule.total * vestedPeriod)
    require (totalPeriod ≠ 0) .arithmetic
    let vestedAmount ← i128 (product.tdiv totalPeriod)
    i128 (vestedAmount - schedule.claimed)

def claimableAmount (inv : Invocation Addr self) (s : State Addr) (scheduleId : ℕ) :
    Result ℤ := do
  let schedule ← expect (s.schedule scheduleId) (.panic "Schedule not found")
  schedule.claimable inv.timestamp

def claim (inv : Invocation Addr self) (s : State Addr) (scheduleId : ℕ) :
    Result (State Addr) := do
  let schedule ← expect (s.schedule scheduleId) (.panic "Schedule not found")
  requireAuth inv.toEnv schedule.beneficiary
  let claimable ← schedule.claimable inv.timestamp
  require (0 < claimable) (.panic "Nothing to claim")
  let token ← expect s.token (.panic "Not initialized")
  require (claimable ≤ s.tokens.balance token self)
    (.panic "Insufficient balance in vesting contract")
  let claimed ← i128 (schedule.claimed + claimable)
  let tokens ← s.tokens.transfer inv.accepts token self schedule.beneficiary claimable
  pure { s with
    schedule := Function.update s.schedule scheduleId (some { schedule with claimed := claimed })
    tokens := tokens }

/-- What has vested according to `revoke`, which reports an overflow instead of trapping. -/
def VestingSchedule.vestedAmount (schedule : VestingSchedule Addr) (now : ℕ) : Result ℤ :=
  if now < schedule.effectiveStart then pure 0
  else if schedule.vestingEnd ≤ now then pure schedule.total
  else do
    let vestedPeriod := now - schedule.effectiveStart
    require (schedule.cliffEnd ≤ schedule.vestingEnd) (.panic "Underflow")
    let totalPeriod := schedule.vestingEnd - schedule.cliffEnd
    let product ← checkedI128 (schedule.total * vestedPeriod) (.panic "Overflow")
    require (totalPeriod ≠ 0) (.panic "Division error")
    checkedI128 (product.tdiv totalPeriod) (.panic "Division error")

/-- What is not vested goes to the admin. What is vested and not claimed is computed, and
goes to nobody. -/
def revoke (inv : Invocation Addr self) (s : State Addr) (scheduleId : ℕ) :
    Result (State Addr) := do
  let admin ← requireAdmin inv s
  let schedule ← expect (s.schedule scheduleId) (.panic "Schedule not found")
  let vestedAmount ← schedule.vestedAmount inv.timestamp
  let unvestedAmount ← checkedI128 (schedule.total - vestedAmount) (.panic "Underflow")
  let _ ← checkedI128 (vestedAmount - schedule.claimed) (.panic "Underflow")
  let token ← expect s.token (.panic "Not initialized")
  let tokens ← if 0 < unvestedAmount then
      s.tokens.transfer inv.accepts token self admin unvestedAmount
    else pure s.tokens
  pure { s with
    schedule := Function.update s.schedule scheduleId none
    beneficiarySchedules := Function.update s.beneficiarySchedules schedule.beneficiary
      ((s.beneficiarySchedules schedule.beneficiary).filter (· ≠ scheduleId))
    tokens := tokens }

def setMerkleRoot (inv : Invocation Addr self) (s : State Addr) (merkleRoot : Hash) :
    Result (State Addr) := do
  let _ ← requireAdmin inv s
  pure { s with merkleRoot := some merkleRoot }

/-- `claim_vesting_merkle` returns the id of the schedule, which is the number stored before.
Nothing is checked of the amount and of the times. -/
def claimVestingMerkle (digests : Digests Addr) (inv : Invocation Addr self) (s : State Addr)
    (g : Grant Addr) (proof : List Hash) : Result (State Addr × ℕ) := do
  requireAuth inv.toEnv g.beneficiary
  let merkleRoot ← expect s.merkleRoot (.panic "Merkle root not set")
  let leaf := digests.sha256 (g.leafData digests)
  require (s.claimedMerkleLeaf leaf = false) (.panic "Merkle leaf already claimed")
  require (MerkleTree.climb digestEncoding digests.sha256 proof leaf = merkleRoot)
    (.panic "Invalid Merkle proof")
  let scheduleId := s.nextScheduleId
  let nextId ← checkedU32 (scheduleId + 1) (.panic "Overflow")
  let actualStart := if g.start = 0 then inv.timestamp else g.start
  let schedule : VestingSchedule Addr :=
    ⟨g.beneficiary, g.totalAmount, 0, saturatingAddU64 actualStart g.cliffSeconds,
      saturatingAddU64 actualStart g.vestingSeconds, actualStart⟩
  pure ({ s with
    claimedMerkleLeaf := Function.update s.claimedMerkleLeaf leaf true
    nextScheduleId := nextId }.addSchedule scheduleId schedule, scheduleId)

inductive Call (Addr : Type) where
  | initializeVesting (admin token : Addr)
  | createSchedule (g : Grant Addr)
  | claim (scheduleId : ℕ)
  | revoke (scheduleId : ℕ)
  | setMerkleRoot (merkleRoot : Hash)
  | claimVestingMerkle (g : Grant Addr) (proof : List Hash)
  /-- Not an entry point: somebody sends tokens to the contract. -/
  | send (token source : Addr) (amount : ℤ)
  /-- Not an entry point: a token moves between other holders. -/
  | tokenActivity (token holder : Addr) (balance : ℤ)

def exec (digests : Digests Addr) (inv : Invocation Addr self) (call : Call Addr)
    (s : State Addr) : Result (State Addr) :=
  match call with
  | .initializeVesting admin token => initializeVesting s admin token
  | .createSchedule g => do
      let (t, _) ← createSchedule inv s g
      pure t
  | .claim scheduleId => claim inv s scheduleId
  | .revoke scheduleId => revoke inv s scheduleId
  | .setMerkleRoot merkleRoot => setMerkleRoot inv s merkleRoot
  | .claimVestingMerkle g proof => do
      let (t, _) ← claimVestingMerkle digests inv s g proof
      pure t
  | .send token source amount => do
      requireAuth inv.toEnv source
      let tokens ← s.tokens.transfer inv.accepts token source self amount
      pure { s with tokens := tokens }
  | .tokenActivity token holder balance => do
      require (holder ≠ self ∧ 0 ≤ balance) .subcall
      let balances := Function.update s.tokens.balance token
        (Function.update (s.tokens.balance token) holder balance)
      pure { s with tokens := { s.tokens with balance := balances } }

abbrev Step (Addr : Type) (self : Addr) := Invocation Addr self × Call Addr

/-- The deployed contract. -/
def machine (self : Addr) (digests : Digests Addr) :
    Machine (State Addr) (Step Addr self) Trap where
  exec step := exec digests step.1 step.2

/-- An invocation that every account signed, with tokens that accept every transfer. -/
def acceptedAt (now : ℕ) : Invocation ℕ 0 where
  toEnv := signedByAll now
  accepts _ := true

/-- 1000 for account 3 over a day, without a cliff. -/
def wholeDayGrant : Grant ℕ :=
  ⟨3, 1000, 0, 86400, 0, by decide, by decide, by decide, by decide⟩

/-- `to_xdr` of the address of a contract: two tags and 32 bytes. -/
def contractXdr (a : ℕ) : List UInt8 :=
  BigEndian.bytes 4 18 ++ BigEndian.bytes 4 1 ++ BigEndian.bytes 32 a

/-- SHA-256 where nothing but the leaf of the grant is hashed. -/
def leafDigests (g : Grant ℕ) (leaf : Hash) : Digests ℕ where
  sha256 data := if data = g.leafData ⟨fun _ => 0, contractXdr⟩ then leaf else 0
  addressXdr := contractXdr

end Vesting
