import MentorsMind.Shared.Pagination
import MentorsMind.Shared.SafeMath

/-! The contract of income share agreements: a funder is paid a share of what a learner earns,
up to a cap and until the agreement expires. An index by status lists the agreements. -/
namespace Isa
open Outcome Soroban Shared

def monthSecs : ℕ := 30 * 24 * 60 * 60
def maxMissedPayments : ℕ := 3

inductive CompletionReason where
  | none
  | capReached
  | durationExpired
  | defaulted
  deriving DecidableEq

structure ISARecord (Addr : Type) where
  isaId : ℕ
  learner : Addr
  funder : Addr
  fundedAmount : ℤ
  sharePct : ℕ
  capMultiple : ℕ
  durationMonths : ℕ
  createdAt : ℕ
  expiresAt : ℕ
  totalShared : ℤ
  active : Bool
  completionReason : CompletionReason
  missedPayments : ℕ
  lastPeriodId : ℕ
  deriving DecidableEq

inductive IsaStatus where
  | active
  | completed
  | expired
  | defaulted
  deriving DecidableEq

/-- One field for each storage key. The id of the next agreement reads as one at first. -/
structure State (Addr : Type) where
  admin : Option Addr
  incomeOracle : Option Addr
  nextIsaId : ℕ
  isa : ℕ → Option (ISARecord Addr)
  processedPeriod : ℕ × ℕ → Bool
  isaByStatus : IsaStatus × ℕ → Option ℕ

def deployed (Addr : Type) : State Addr where
  admin := none
  incomeOracle := none
  nextIsaId := 1
  isa _ := none
  processedPeriod _ := false
  isaByStatus _ := none

/-- One invocation: the ledger, the signers, and what the contract at an address answers to
`verify_income_attestation`, which is `none` when it traps. -/
structure Invocation (Addr : Type) (home : Addr) extends Env Addr home where
  verifyIncomeAttestation : Addr → Addr → ℕ → ℤ → Hash → Option Bool

variable {Addr : Type} {home : Addr}

section StatusIndex

/-- Counts on to the first position that is free. The counter is a `u32`. -/
def firstGap (has : ℕ → Bool) : ℕ → ℕ → Result ℕ
  | 0, _ => .error .arithmetic
  | fuel + 1, count => if has count then firstGap has fuel (count + 1) else pure count

def getStatusCount (s : State Addr) (status : IsaStatus) : Result ℕ :=
  firstGap (fun count => (s.isaByStatus (status, count)).isSome) (2 ^ 32) 0

/-- Nothing is taken out of the index of the status that the agreement had before. -/
def updateStatusIndex (s : State Addr) (isaId : ℕ) (newStatus : IsaStatus) :
    Result (State Addr) := do
  let count ← getStatusCount s newStatus
  pure { s with isaByStatus := Function.update s.isaByStatus (newStatus, count) (some isaId) }

def getIsasByStatus (s : State Addr) (status : IsaStatus) (offset limit : ℕ) :
    Result (List ℕ) := do
  let totalCount ← getStatusCount s status
  let (start, stop) := Pagination.bounds totalCount offset limit
  pure ((List.range' start (stop - start)).filterMap fun i => s.isaByStatus (status, i))

/-- The source's `get_isa_status_from_record`. -/
def ISARecord.status (isa : ISARecord Addr) : IsaStatus :=
  if isa.active = false then
    match isa.completionReason with
    | .none => .active
    | .capReached => .completed
    | .durationExpired => .completed
    | .defaulted => .defaulted
  else .active

end StatusIndex

def State.setIsa (s : State Addr) (isaId : ℕ) (isa : ISARecord Addr) : State Addr :=
  { s with isa := Function.update s.isa isaId (some isa) }

/-- What every path does with an agreement that ends. -/
def closeIsa (s : State Addr) (isaId : ℕ) (isa : ISARecord Addr) (reason : CompletionReason)
    (status : IsaStatus) : Result (State Addr) :=
  updateStatusIndex (s.setIsa isaId { isa with active := false, completionReason := reason })
    isaId status

def getIsa (s : State Addr) (isaId : ℕ) : Result (ISARecord Addr) :=
  expect (s.isa isaId) (.panic "isa not found")

/-- The multiple is in percent. -/
def capAmount (isa : ISARecord Addr) : Result ℤ := do
  let product ← checkedI128 (isa.fundedAmount * isa.capMultiple) (.panic "cap overflow")
  pure (product.tdiv 100)

def shareDue (isa : ISARecord Addr) (income : ℤ) : Result ℤ := do
  let product ← checkedI128 (income * isa.sharePct) (.panic "share overflow")
  pure (product.tdiv 10000)

/-- A share that is not positive changes nothing. -/
def addShare (isa : ISARecord Addr) (share : ℤ) (missedPayments : ℕ) :
    Result (ISARecord Addr) :=
  if 0 < share then do
    let totalShared ← checkedI128 (isa.totalShared + share) (.panic "shared overflow")
    pure { isa with totalShared := totalShared, missedPayments := missedPayments }
  else pure isa

/-- The entry point `initialize`. -/
def initializeIsa (inv : Invocation Addr home) (s : State Addr) (admin incomeOracle : Addr) :
    Result (State Addr) := do
  require (s.admin = none) (.panic "already initialized")
  requireAuth inv.toEnv admin
  pure { s with admin := some admin, incomeOracle := some incomeOracle }

/-- `create_isa` returns the id of the agreement. -/
def createIsa (inv : Invocation Addr home) (s : State Addr) (learner funder : Addr)
    (fundedAmount : ℤ) (sharePct capMultiple durationMonths : ℕ) :
    Result (State Addr × ℕ) := do
  require (0 < fundedAmount) (.panic "invalid funded amount")
  require (sharePct ≠ 0 ∧ sharePct ≤ 10000) (.panic "invalid share pct")
  require (100 ≤ capMultiple) (.panic "invalid cap multiple")
  require (durationMonths ≠ 0) (.panic "invalid duration")
  requireAuth inv.toEnv learner
  requireAuth inv.toEnv funder
  let nextId := s.nextIsaId
  let following ← u32 (nextId + 1)
  let now := inv.timestamp
  let duration := min (durationMonths * monthSecs) (2 ^ 64 - 1)
  let record : ISARecord Addr := {
    isaId := nextId
    learner := learner
    funder := funder
    fundedAmount := fundedAmount
    sharePct := sharePct
    capMultiple := capMultiple
    durationMonths := durationMonths
    createdAt := now
    expiresAt := saturatingAddU64 now duration
    totalShared := 0
    active := true
    completionReason := .none
    missedPayments := 0
    lastPeriodId := 0 }
  let indexed ← updateStatusIndex ({ s with nextIsaId := following }.setIsa nextId record)
    nextId .active
  pure (indexed, nextId)

/-- `check_expiry` returns whether the agreement has just expired. -/
def checkExpiry (inv : Invocation Addr home) (s : State Addr) (isaId : ℕ) :
    Result (State Addr × Bool) := do
  let isa ← expect (s.isa isaId) (.panic "ISA record not found")
  if isa.active = false then pure (s, false)
  else if isa.expiresAt ≤ inv.timestamp then do
    let closed ← closeIsa s isaId isa .durationExpired .completed
    pure (closed, true)
  else pure (s, false)

/-- What exceeds the cap is not shared. -/
def recordEarning (inv : Invocation Addr home) (s : State Addr) (isaId : ℕ) (earning : ℤ) :
    Result (State Addr) := do
  require (0 < earning) (.panic "invalid earning")
  let isa ← getIsa s isaId
  require (isa.active = true) (.panic "isa inactive")
  if isa.expiresAt ≤ inv.timestamp then closeIsa s isaId isa .durationExpired .completed
  else do
    let cap ← capAmount isa
    let remainingCap := saturateI128 (cap - isa.totalShared)
    if remainingCap ≤ 0 then closeIsa s isaId isa .capReached .completed
    else do
      let due ← shareDue isa earning
      let payout := if remainingCap < due then remainingCap else due
      let isa ← addShare isa payout isa.missedPayments
      if cap ≤ isa.totalShared then closeIsa s isaId isa .capReached .completed
      else pure (s.setIsa isaId isa)

section Payments

variable [DecidableEq Addr]

def requireAdmin (inv : Invocation Addr home) (s : State Addr) (admin : Addr) : Result Unit := do
  requireAuth inv.toEnv admin
  let storedAdmin ← expect s.admin (.panic "not initialized")
  require (storedAdmin = admin) (.panic "admin address mismatch")

def setIncomeOracle (inv : Invocation Addr home) (s : State Addr) (admin incomeOracle : Addr) :
    Result (State Addr) := do
  requireAdmin inv s admin
  pure { s with incomeOracle := some incomeOracle }

/-- A payment of what exceeds the cap is refused. -/
def recordPayment (inv : Invocation Addr home) (s : State Addr) (learner : Addr)
    (isaId periodId : ℕ) (attestedIncome : ℤ) (attestationProof : Hash) :
    Result (State Addr) := do
  requireAuth inv.toEnv learner
  let isa ← getIsa s isaId
  require (isa.learner = learner) (.panic "not the isa learner")
  require (isa.active = true) (.panic "isa inactive")
  require (0 < attestedIncome) (.panic "invalid attested income")
  require (s.processedPeriod (isaId, periodId) = false) (.panic "period already processed")
  let oracle ← expect s.incomeOracle (.panic "income oracle not configured")
  let verified ← expect
    (inv.verifyIncomeAttestation oracle learner periodId attestedIncome attestationProof) .subcall
  require (verified = true) (.panic "income attestation not verified")
  let s := { s with processedPeriod := Function.update s.processedPeriod (isaId, periodId) true }
  let isa := { isa with lastPeriodId := periodId }
  if isa.expiresAt ≤ inv.timestamp then closeIsa s isaId isa .durationExpired .completed
  else do
    let cap ← capAmount isa
    let remainingCap := saturateI128 (cap - isa.totalShared)
    if remainingCap ≤ 0 then closeIsa s isaId isa .capReached .completed
    else do
      let due ← shareDue isa attestedIncome
      require (due ≤ remainingCap) (.panic "payment exceeds remaining obligation cap")
      let isa ← addShare isa due 0
      if cap ≤ isa.totalShared then closeIsa s isaId isa .capReached .completed
      else pure (s.setIsa isaId isa)

def recordMissedPayment (inv : Invocation Addr home) (s : State Addr) (admin : Addr)
    (isaId : ℕ) : Result (State Addr) := do
  requireAdmin inv s admin
  let isa ← getIsa s isaId
  require (isa.active = true) (.panic "isa inactive")
  pure (s.setIsa isaId
    { isa with missedPayments := saturatingAddU32 isa.missedPayments 1 })

/-- `check_default` returns whether the agreement has just defaulted. -/
def checkDefault (inv : Invocation Addr home) (s : State Addr) (admin : Addr) (isaId : ℕ) :
    Result (State Addr × Bool) := do
  requireAdmin inv s admin
  let isa ← getIsa s isaId
  if isa.active = true ∧ maxMissedPayments < isa.missedPayments then do
    let closed ← closeIsa s isaId isa .defaulted .defaulted
    pure (closed, true)
  else pure (s, false)

end Payments

/-- The entry points that write, with their arguments. -/
inductive Call (Addr : Type) where
  | initializeIsa (admin incomeOracle : Addr)
  | setIncomeOracle (admin incomeOracle : Addr)
  | checkExpiry (isaId : ℕ)
  | createIsa (learner funder : Addr) (fundedAmount : ℤ)
      (sharePct capMultiple durationMonths : ℕ)
  | recordEarning (isaId : ℕ) (earning : ℤ)
  | recordPayment (learner : Addr) (isaId periodId : ℕ) (attestedIncome : ℤ)
      (attestationProof : Hash)
  | recordMissedPayment (admin : Addr) (isaId : ℕ)
  | checkDefault (admin : Addr) (isaId : ℕ)

variable [DecidableEq Addr]

def exec (inv : Invocation Addr home) (call : Call Addr) (s : State Addr) : Result (State Addr) :=
  match call with
  | .initializeIsa admin incomeOracle => initializeIsa inv s admin incomeOracle
  | .setIncomeOracle admin incomeOracle => setIncomeOracle inv s admin incomeOracle
  | .checkExpiry isaId => Prod.fst <$> checkExpiry inv s isaId
  | .createIsa learner funder fundedAmount sharePct capMultiple durationMonths =>
      Prod.fst <$>
        createIsa inv s learner funder fundedAmount sharePct capMultiple durationMonths
  | .recordEarning isaId earning => recordEarning inv s isaId earning
  | .recordPayment learner isaId periodId attestedIncome attestationProof =>
      recordPayment inv s learner isaId periodId attestedIncome attestationProof
  | .recordMissedPayment admin isaId => recordMissedPayment inv s admin isaId
  | .checkDefault admin isaId => Prod.fst <$> checkDefault inv s admin isaId

abbrev Step (Addr : Type) (home : Addr) := Invocation Addr home × Call Addr

/-- The deployed contract. -/
def machine (home : Addr) : Machine (State Addr) (Step Addr home) Trap where
  exec step := exec step.1 step.2

/-- The state after a run from deployment. -/
abbrev reached (steps : List (Step Addr home)) : State Addr :=
  (machine home).run (deployed Addr) steps

end Isa
