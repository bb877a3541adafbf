import MentorsMind.Soroban.Host

/-! The MNT token contract. Every entry point takes the storage it reads and returns the
storage it leaves; the token never lets an allowance expire, so `approve` drops its
`expiration_ledger`. -/
namespace MntToken
open Outcome Soroban

/-- `SUPPLY_CAP`: 100M tokens with 7 decimals. -/
def supplyCap : ℤ := 100000000 * 10000000

structure TokenMetadata where
  decimal : ℕ
  name : String
  symbol : String
  deriving DecidableEq

/-- A destination address, possibly tagged with a sub-account id. -/
structure MuxedAddress (Addr : Type) where
  address : Addr
  id : Option ℕ

/-- One field for each storage key; an absent amount reads as zero. -/
structure Storage (Addr : Type) where
  admin : Option Addr
  metadata : Option TokenMetadata
  totalSupply : ℤ
  balance : Addr → ℤ
  allowance : Addr → Addr → ℤ
  pauseGuardian : Option Addr
  paused : Bool

def empty (Addr : Type) : Storage Addr where
  admin := none
  metadata := none
  totalSupply := 0
  balance := fun _ => 0
  allowance := fun _ _ => 0
  pauseGuardian := none
  paused := false

variable {Addr : Type} {self : Addr}

namespace Storage

def setTotalSupply (s : Storage Addr) (n : ℤ) : Storage Addr := { s with totalSupply := n }

@[simp] theorem setTotalSupply_totalSupply (s : Storage Addr) (n : ℤ) :
    (s.setTotalSupply n).totalSupply = n := rfl

@[simp] theorem setTotalSupply_balance (s : Storage Addr) (n : ℤ) :
    (s.setTotalSupply n).balance = s.balance := rfl

@[simp] theorem setTotalSupply_allowance (s : Storage Addr) (n : ℤ) :
    (s.setTotalSupply n).allowance = s.allowance := rfl

@[simp] theorem setTotalSupply_admin (s : Storage Addr) (n : ℤ) :
    (s.setTotalSupply n).admin = s.admin := rfl

variable [DecidableEq Addr]

def setBalance (s : Storage Addr) (a : Addr) (n : ℤ) : Storage Addr :=
  { s with balance := Function.update s.balance a n }

@[simp] theorem setBalance_balance (s : Storage Addr) (a : Addr) (n : ℤ) :
    (s.setBalance a n).balance = Function.update s.balance a n := rfl

@[simp] theorem setBalance_allowance (s : Storage Addr) (a : Addr) (n : ℤ) :
    (s.setBalance a n).allowance = s.allowance := rfl

@[simp] theorem setBalance_totalSupply (s : Storage Addr) (a : Addr) (n : ℤ) :
    (s.setBalance a n).totalSupply = s.totalSupply := rfl

@[simp] theorem setBalance_admin (s : Storage Addr) (a : Addr) (n : ℤ) :
    (s.setBalance a n).admin = s.admin := rfl

def setAllowance (s : Storage Addr) (owner spender : Addr) (n : ℤ) : Storage Addr :=
  { s with allowance :=
      Function.update s.allowance owner (Function.update (s.allowance owner) spender n) }

theorem setAllowance_allowance (s : Storage Addr) (o p o' p' : Addr) (n : ℤ) :
    (s.setAllowance o p n).allowance o' p' =
      if o' = o ∧ p' = p then n else s.allowance o' p' := by
  by_cases ho : o' = o
  · subst ho
    by_cases hp : p' = p
    · subst hp; simp [setAllowance]
    · simp [setAllowance, hp]
  · simp [setAllowance, ho]

@[simp] theorem setAllowance_balance (s : Storage Addr) (o p : Addr) (n : ℤ) :
    (s.setAllowance o p n).balance = s.balance := rfl

@[simp] theorem setAllowance_totalSupply (s : Storage Addr) (o p : Addr) (n : ℤ) :
    (s.setAllowance o p n).totalSupply = s.totalSupply := rfl

@[simp] theorem setAllowance_admin (s : Storage Addr) (o p : Addr) (n : ℤ) :
    (s.setAllowance o p n).admin = s.admin := rfl

end Storage

variable [DecidableEq Addr]

/-- The entry point `initialize`: it asks for no authorisation and runs only once. -/
def initializeToken (s : Storage Addr) (admin : Addr) : Result (Storage Addr) := do
  require (s.admin = none) (.panic "Already initialized")
  pure { s with
    admin := some admin
    metadata := some ⟨7, "MentorMinds Token", "MNT"⟩
    totalSupply := 0 }

def requireNotPaused (s : Storage Addr) : Result Unit :=
  require (s.paused = false) (.panic "Contract is paused")

def requireAdmin (env : Env Addr self) (s : Storage Addr) (admin : Addr) : Result Unit := do
  let stored ← expect s.admin (.panic "Not initialized")
  require (admin = stored) (.panic "Unauthorized")
  requireAuth env admin

def requirePauseGuardian (env : Env Addr self) (s : Storage Addr) (guardian : Addr) :
    Result Unit := do
  let stored ← expect s.pauseGuardian (.panic "Pause guardian not set")
  require (guardian = stored) (.panic "Unauthorized")
  requireAuth env guardian

def mint (env : Env Addr self) (s : Storage Addr) (recipient : Addr) (amount : ℤ) :
    Result (Storage Addr) := do
  let admin ← expect s.admin (.panic "Not initialized")
  requireAuth env admin
  requireNotPaused s
  require (0 < amount) (.panic "Amount must be positive")
  let newTotalSupply ← checkedI128 (s.totalSupply + amount) (.panic "Overflow")
  require (newTotalSupply ≤ supplyCap) (.panic "Supply cap exceeded")
  let newBalance ← i128 (s.balance recipient + amount)
  pure ((s.setBalance recipient newBalance).setTotalSupply newTotalSupply)

/-- `do_burn`, which `burn` of the token interface calls. -/
def doBurn (env : Env Addr self) (s : Storage Addr) (source : Addr) (amount : ℤ) :
    Result (Storage Addr) := do
  requireAuth env source
  requireNotPaused s
  require (0 < amount) (.panic "Amount must be positive")
  let balance := s.balance source
  require (amount ≤ balance) (.panic "Insufficient balance")
  let newBalance ← i128 (balance - amount)
  let newTotalSupply ← i128 (s.totalSupply - amount)
  pure ((s.setBalance source newBalance).setTotalSupply newTotalSupply)

def burn (env : Env Addr self) (s : Storage Addr) (source : Addr) (amount : ℤ) :
    Result (Storage Addr) := doBurn env s source amount

def setPauseGuardian (env : Env Addr self) (s : Storage Addr) (admin guardian : Addr) :
    Result (Storage Addr) := do
  requireAdmin env s admin
  pure { s with pauseGuardian := some guardian }

def pause (env : Env Addr self) (s : Storage Addr) (guardian : Addr) :
    Result (Storage Addr) := do
  requirePauseGuardian env s guardian
  pure { s with paused := true }

def unpause (env : Env Addr self) (s : Storage Addr) (guardian : Addr) :
    Result (Storage Addr) := do
  requirePauseGuardian env s guardian
  pure { s with paused := false }

def approve (env : Env Addr self) (s : Storage Addr) (owner spender : Addr) (amount : ℤ)
    (_expirationLedger : ℕ) : Result (Storage Addr) := do
  requireAuth env owner
  require (0 ≤ amount) (.panic "Amount must be non-negative")
  pure (s.setAllowance owner spender amount)

/-- The two balance writes of `transfer` and `transfer_from`. Both balances are read
before either is written, so the second write wins when the addresses coincide. -/
def move (s : Storage Addr) (source recipient : Addr) (amount : ℤ) : Result (Storage Addr) := do
  let sourceBalance := s.balance source
  let recipientBalance := s.balance recipient
  let newSource ← i128 (sourceBalance - amount)
  let newRecipient ← i128 (recipientBalance + amount)
  pure ((s.setBalance source newSource).setBalance recipient newRecipient)

def transfer (env : Env Addr self) (s : Storage Addr) (source : Addr)
    (recipient : MuxedAddress Addr) (amount : ℤ) : Result (Storage Addr) := do
  requireAuth env source
  requireNotPaused s
  require (0 < amount) (.panic "Amount must be positive")
  require (amount ≤ s.balance source) (.panic "Insufficient balance")
  move s source recipient.address amount

/-- The allowance that `transfer_from` and `burn_from` leave, and the checks both make
before they touch a balance. -/
def spendAllowance (env : Env Addr self) (s : Storage Addr) (spender source : Addr)
    (amount : ℤ) : Result (Storage Addr) := do
  requireAuth env spender
  requireNotPaused s
  require (0 < amount) (.panic "Amount must be positive")
  let allowance := s.allowance source spender
  require (amount ≤ allowance) (.panic "Insufficient allowance")
  require (amount ≤ s.balance source) (.panic "Insufficient balance")
  let newAllowance ← i128 (allowance - amount)
  pure (s.setAllowance source spender newAllowance)

def transferFrom (env : Env Addr self) (s : Storage Addr) (spender source recipient : Addr)
    (amount : ℤ) : Result (Storage Addr) := do
  let s ← spendAllowance env s spender source amount
  move s source recipient amount

def burnFrom (env : Env Addr self) (s : Storage Addr) (spender source : Addr)
    (amount : ℤ) : Result (Storage Addr) := do
  let s ← spendAllowance env s spender source amount
  let newBalance ← i128 (s.balance source - amount)
  let newTotalSupply ← i128 (s.totalSupply - amount)
  pure ((s.setBalance source newBalance).setTotalSupply newTotalSupply)

/-- The entry points that write, with their arguments. -/
inductive Call (Addr : Type) where
  | initializeToken (admin : Addr)
  | mint (recipient : Addr) (amount : ℤ)
  | doBurn (source : Addr) (amount : ℤ)
  | burn (source : Addr) (amount : ℤ)
  | setPauseGuardian (admin guardian : Addr)
  | pause (guardian : Addr)
  | unpause (guardian : Addr)
  | approve (owner spender : Addr) (amount : ℤ) (expirationLedger : ℕ)
  | transfer (source : Addr) (recipient : MuxedAddress Addr) (amount : ℤ)
  | transferFrom (spender source recipient : Addr) (amount : ℤ)
  | burnFrom (spender source : Addr) (amount : ℤ)

def exec (env : Env Addr self) (call : Call Addr) (s : Storage Addr) :
    Result (Storage Addr) :=
  match call with
  | .initializeToken admin => initializeToken s admin
  | .mint recipient amount => mint env s recipient amount
  | .doBurn source amount => doBurn env s source amount
  | .burn source amount => burn env s source amount
  | .setPauseGuardian admin guardian => setPauseGuardian env s admin guardian
  | .pause guardian => pause env s guardian
  | .unpause guardian => unpause env s guardian
  | .approve owner spender amount expiration => approve env s owner spender amount expiration
  | .transfer source recipient amount => transfer env s source recipient amount
  | .transferFrom spender source recipient amount =>
      transferFrom env s spender source recipient amount
  | .burnFrom spender source amount => burnFrom env s spender source amount

/-- The deployed token: a step is a call together with what the host tells it. -/
def machine (self : Addr) :
    Machine (Storage Addr) (Env Addr self × Call Addr) Trap where
  exec step := exec step.1 step.2

end MntToken
