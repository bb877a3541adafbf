import MentorsMind.Soroban.TokenLedger

/-! The multi-signature wallet. Signers are kept as one flag for each address beside a
counter, approvals as one flag for each transaction and address beside a counter in the
record of the transaction. Lifetimes of entries are left out. -/
namespace MultiSig
open Outcome Soroban

inductive TransactionStatus where
  | pending
  | executed
  | cancelled
  deriving DecidableEq

structure Transaction (Addr : Type) where
  id : ℕ
  proposer : Addr
  recipient : Addr
  token : Addr
  amount : ℤ
  executeAfter : ℕ
  status : TransactionStatus
  approvals : ℕ
  deriving DecidableEq

/-- One field for each storage key; an absent flag reads as false, an absent count as zero. -/
structure State (Addr : Type) where
  admin : Option Addr
  signer : Addr → Bool
  signerCount : ℕ
  threshold : Option ℕ
  transCount : ℕ
  transaction : ℕ → Option (Transaction Addr)
  approval : ℕ → Addr → Bool
  tokens : Tokens Addr

/-- The contract as deployed, beside token ledgers with any balances. -/
def deployed {Addr : Type} (balance : Addr → Addr → ℕ) : State Addr where
  admin := none
  signer _ := false
  signerCount := 0
  threshold := none
  transCount := 0
  transaction _ := none
  approval _ _ := false
  tokens := ⟨fun token holder => balance token holder, []⟩

/-- One invocation: the ledger, the signers, and which transfers the tokens accept. -/
structure Invocation (Addr : Type) (home : Addr) extends Env Addr home where
  accepts : Transfer Addr → Bool

variable {Addr : Type} [DecidableEq Addr] {self : Addr}

/-- The loop of `initialize`, which does not look whether a flag is set already. -/
def registerSigners (signer : Addr → Bool) (signers : List Addr) : Addr → Bool :=
  signers.foldl (fun registered a => Function.update registered a true) signer

@[simp] theorem registerSigners_apply {signer : Addr → Bool} {signers : List Addr} {a : Addr} :
    registerSigners signer signers a = true ↔ a ∈ signers ∨ signer a = true := by
  induction signers generalizing signer with
  | nil => simp [registerSigners]
  | cons b signers ih =>
    show registerSigners (Function.update signer b true) signers a = true ↔ _
    rw [ih]
    by_cases hab : a = b
    · subst hab
      simp
    · simp [hab]

/-- The entry point `initialize`: it asks for no authorisation and runs only once. -/
def initializeMultisig (s : State Addr) (admin : Addr) (signers : List Addr) (threshold : ℕ) :
    Result (State Addr) := do
  require (s.admin = none) (.panic "Already initialized")
  require (signers.length ≠ 0 ∧ threshold ≠ 0 ∧ threshold ≤ signers.length)
    (.panic "Invalid threshold or signers")
  pure { s with
    admin := some admin
    threshold := some threshold
    transCount := 0
    signerCount := signers.length
    signer := registerSigners s.signer signers }

omit [DecidableEq Addr] in
def State.setTransaction (s : State Addr) (id : ℕ) (tx : Transaction Addr) : State Addr :=
  { s with transaction := Function.update s.transaction id (some tx) }

omit [DecidableEq Addr] in
/-- `propose_transaction` returns the id of the transaction. -/
def proposeTransaction (inv : Invocation Addr self) (s : State Addr)
    (proposer recipient token : Addr) (amount : ℤ) (executeAfter : ℕ) :
    Result (State Addr × ℕ) := do
  requireAuth inv.toEnv proposer
  require (0 < amount) (.panic "Amount must be greater than zero")
  let count ← u64 (s.transCount + 1)
  let tx : Transaction Addr := {
    id := count
    proposer := proposer
    recipient := recipient
    token := token
    amount := amount
    executeAfter := executeAfter
    status := .pending
    approvals := 0 }
  pure ({ s with transCount := count }.setTransaction count tx, count)

def approveTransaction (inv : Invocation Addr self) (s : State Addr) (signer : Addr)
    (transId : ℕ) : Result (State Addr) := do
  requireAuth inv.toEnv signer
  require (s.signer signer = true) (.panic "Not a signer")
  let tx ← expect (s.transaction transId) (.panic "Transaction not found")
  require (tx.status = .pending) (.panic "Transaction not pending")
  require (s.approval transId signer = false) (.panic "Already approved")
  let approvals ← u32 (tx.approvals + 1)
  let approval := Function.update s.approval transId
    (Function.update (s.approval transId) signer true)
  pure ({ s with approval := approval }.setTransaction transId { tx with approvals := approvals })

/-- Anybody may execute; the counter of approvals decides, not the flags. -/
def executeTransaction (inv : Invocation Addr self) (s : State Addr) (transId : ℕ) :
    Result (State Addr) := do
  let tx ← expect (s.transaction transId) (.panic "Transaction not found")
  require (tx.status = .pending) (.panic "Transaction not pending")
  let threshold ← expect s.threshold (.panic "Threshold not found")
  require (threshold ≤ tx.approvals) (.panic "Not enough approvals")
  require (tx.executeAfter ≤ inv.timestamp) (.panic "Time-lock active")
  let tokens ← s.tokens.transfer inv.accepts tx.token self tx.recipient tx.amount
  pure ({ s with tokens := tokens }.setTransaction transId { tx with status := .executed })

def cancelTransaction (inv : Invocation Addr self) (s : State Addr) (adminOrProposer : Addr)
    (transId : ℕ) : Result (State Addr) := do
  requireAuth inv.toEnv adminOrProposer
  let tx ← expect (s.transaction transId) (.panic "Transaction not found")
  let admin ← expect s.admin (.panic "Admin not found")
  require (adminOrProposer = admin ∨ adminOrProposer = tx.proposer) (.panic "Unauthorized")
  require (tx.status = .pending) (.panic "Transaction not pending")
  pure (s.setTransaction transId { tx with status := .cancelled })

def requireAdmin (inv : Invocation Addr self) (s : State Addr) (admin : Addr) :
    Result Unit := do
  requireAuth inv.toEnv admin
  let storedAdmin ← expect s.admin (.panic "Admin not found")
  require (admin = storedAdmin) (.panic "Unauthorized")

def addSigner (inv : Invocation Addr self) (s : State Addr) (admin signer : Addr) :
    Result (State Addr) := do
  requireAdmin inv s admin
  require (s.signer signer = false) (.panic "Already a signer")
  let count ← u32 (s.signerCount + 1)
  pure { s with signer := Function.update s.signer signer true, signerCount := count }

def removeSigner (inv : Invocation Addr self) (s : State Addr) (admin signer : Addr) :
    Result (State Addr) := do
  requireAdmin inv s admin
  require (s.signer signer = true) (.panic "Not a signer")
  require (1 ≤ s.signerCount) .arithmetic
  let count := s.signerCount - 1
  require (s.threshold.getD 0 ≤ count) (.panic "Signers < threshold")
  pure { s with signer := Function.update s.signer signer false, signerCount := count }

def updateThreshold (inv : Invocation Addr self) (s : State Addr) (admin : Addr)
    (threshold : ℕ) : Result (State Addr) := do
  requireAdmin inv s admin
  require (threshold ≠ 0 ∧ threshold ≤ s.signerCount) (.panic "Invalid threshold")
  pure { s with threshold := some threshold }

/-- The entry points that write, with their arguments. -/
inductive Call (Addr : Type) where
  | initializeMultisig (admin : Addr) (signers : List Addr) (threshold : ℕ)
  | proposeTransaction (proposer recipient token : Addr) (amount : ℤ) (executeAfter : ℕ)
  | approveTransaction (signer : Addr) (transId : ℕ)
  | executeTransaction (executor : Addr) (transId : ℕ)
  | cancelTransaction (adminOrProposer : Addr) (transId : ℕ)
  | addSigner (admin signer : Addr)
  | removeSigner (admin signer : Addr)
  | updateThreshold (admin : Addr) (threshold : ℕ)
  /-- Not an entry point: somebody sends tokens to the wallet. -/
  | deposit (token source : Addr) (amount : ℤ)
  /-- Not an entry point: a token moves between other holders. -/
  | tokenActivity (token holder : Addr) (balance : ℤ)

def exec (inv : Invocation Addr self) (call : Call Addr) (s : State Addr) :
    Result (State Addr) :=
  match call with
  | .initializeMultisig admin signers threshold => initializeMultisig s admin signers threshold
  | .proposeTransaction proposer recipient token amount executeAfter => do
      let (t, _) ← proposeTransaction inv s proposer recipient token amount executeAfter
      pure t
  | .approveTransaction signer transId => approveTransaction inv s signer transId
  | .executeTransaction _ transId => executeTransaction inv s transId
  | .cancelTransaction adminOrProposer transId =>
      cancelTransaction inv s adminOrProposer transId
  | .addSigner admin signer => addSigner inv s admin signer
  | .removeSigner admin signer => removeSigner inv s admin signer
  | .updateThreshold admin threshold => updateThreshold inv s admin threshold
  | .deposit token source amount => do
      requireAuth inv.toEnv source
      let tokens ← s.tokens.transfer inv.accepts token source self amount
      pure { s with tokens := tokens }
  | .tokenActivity token holder balance => do
      require (holder ≠ self ∧ 0 ≤ balance) .subcall
      let balances := Function.update s.tokens.balance token
        (Function.update (s.tokens.balance token) holder balance)
      pure { s with tokens := { s.tokens with balance := balances } }

/-- An invocation at time `now` that everybody signed, apart from the wallet itself. -/
def signedByOthers (home : Addr) (now : ℕ) : Invocation Addr home where
  timestamp := now
  sequence := 0
  auth a := a ≠ home
  auth_home := by simp
  accepts _ := true

abbrev Step (Addr : Type) (self : Addr) := Invocation Addr self × Call Addr

/-- The deployed wallet: a step is a call together with what the host tells it. -/
def machine (self : Addr) : Machine (State Addr) (Step Addr self) Trap where
  exec step := exec step.1 step.2

/-- The state after a run from deployment. -/
abbrev reached (balance : Addr → Addr → ℕ) (steps : List (Step Addr self)) : State Addr :=
  (machine self).run (deployed balance) steps

end MultiSig
