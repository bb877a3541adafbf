import MentorsMind.Soroban.TokenLedger
import MentorsMind.Shared.Params

/-! The storage of the lending pool. Lifetimes of entries, and the reports of large transactions,
which can neither fail nor change the pool, are left out. -/
namespace LendingPool
open Soroban Shared

inductive Error where
  | notInitialized
  | alreadyInitialized
  | insufficientBalance
  | insufficientLiquidity
  | lowCreditScore
  | loanNotFound
  | loanAlreadyRepaid
  | notAdmin
  | invalidAmount
  | sameBlockDepositWithdraw
  | perBlockBorrowLimitExceeded
  | loanNotDue
  | auctionNotFound
  | auctionAlreadyActive
  | auctionAlreadySettled

def Error.code : Error → ℕ
  | .notInitialized => 1
  | .alreadyInitialized => 2
  | .insufficientBalance => 3
  | .insufficientLiquidity => 4
  | .lowCreditScore => 5
  | .loanNotFound => 7
  | .loanAlreadyRepaid => 8
  | .notAdmin => 9
  | .invalidAmount => 10
  | .sameBlockDepositWithdraw => 11
  | .perBlockBorrowLimitExceeded => 12
  | .loanNotDue => 13
  | .auctionNotFound => 14
  | .auctionAlreadyActive => 15
  | .auctionAlreadySettled => 16

def Error.trap (e : Error) : Trap := .contractError e.code

def defaultBaseRateBps : ℤ := 100
def defaultKinkBps : ℤ := 8000
def defaultSlope1Bps : ℤ := 400
def defaultSlope2Bps : ℤ := 3000
def liquidationSeconds : ℕ := 30 * 86400
def perBlockBorrowCapBps : ℤ := 1000
def auctionDurationSecs : ℕ := 24 * 60 * 60
def maxAuctionDiscountBps : ℤ := 2000

structure LoanRecord (Addr : Type) where
  borrower : Addr
  amount : ℤ
  fee : ℤ
  sessionId : String
  borrowedAt : ℕ
  dueAt : ℕ
  repaid : Bool
  deriving DecidableEq

/-- An auction keeps a copy of the loan as it was when the auction started. -/
structure AuctionRecord (Addr : Type) where
  loan : LoanRecord Addr
  startedAt : ℕ
  discountBps : ℤ
  liquidator : Option Addr
  deriving DecidableEq

structure Config (Addr : Type) where
  admin : Option Addr
  usdcToken : Option Addr
  creditScoreContract : Option Addr
  minCreditScore : ℕ

structure RateModel where
  baseRateBps : ℤ
  kinkBps : ℤ
  slope1Bps : ℤ
  slope2Bps : ℤ

/-- What the flash-loan guards remember. The ledger of a deposit is written to the instance
storage and read from the persistent storage, where nothing writes it. -/
structure Guards (Addr : Type) where
  instanceDepositLedger : Addr → ℕ
  persistentDepositLedger : Addr → ℕ
  blockBorrowTotal : Addr → ℤ
  blockBorrowLedger : Addr → ℕ
  blockLiquiditySnapshot : Option ℤ
  blockLiquidityLedger : ℕ

/-- Entries that are not stored read as their defaults. Nothing writes `loanCount`. -/
structure State (Addr : Type) where
  config : Config Addr
  rateModel : RateModel
  params : Params Addr
  totalLiquidity : ℤ
  totalLpTokens : ℤ
  badDebt : ℤ
  loanCount : ℤ
  lenderBalance : Addr → ℤ
  loan : Addr → Option (LoanRecord Addr)
  liquidationAuction : Addr → Option (AuctionRecord Addr)
  guards : Guards Addr
  tokens : Tokens Addr

def defaultRateModel : RateModel :=
  ⟨defaultBaseRateBps, defaultKinkBps, defaultSlope1Bps, defaultSlope2Bps⟩

/-- The pool as deployed, beside token ledgers with any balances. -/
def deployed {Addr : Type} (balance : Addr → Addr → ℕ) : State Addr where
  config := ⟨none, none, none, defaultMinCreditScore⟩
  rateModel := defaultRateModel
  params := ⟨fun _ => none, none, none⟩
  totalLiquidity := 0
  totalLpTokens := 0
  badDebt := 0
  loanCount := 0
  lenderBalance _ := 0
  loan _ := none
  liquidationAuction _ := none
  guards := ⟨fun _ => 0, fun _ => 0, fun _ => 0, fun _ => 0, none, 0⟩
  tokens := ⟨fun token holder => balance token holder, []⟩

/-- One invocation: the ledger, the signers, and what the other contracts answer. A call to
another contract that traps answers `none`. -/
structure Invocation (Addr : Type) (home : Addr) extends Env Addr home where
  accepts : Transfer Addr → Bool
  getScore : Addr → Addr → Option ℕ
  hasRole : Addr → String → Addr → Option Bool

end LendingPool

/-! The settings of the pool, and the interest that a loan is charged. -/
namespace LendingPool
open Outcome Soroban Shared

/-- `checked_add`, `checked_sub`, `checked_mul` and `checked_div` on an `i128`. -/
def checkedAdd (a b : ℤ) : Option ℤ := if FitsI128 (a + b) then some (a + b) else none

def checkedSub (a b : ℤ) : Option ℤ := if FitsI128 (a - b) then some (a - b) else none

def checkedMul (a b : ℤ) : Option ℤ := if FitsI128 (a * b) then some (a * b) else none

def checkedDiv (a b : ℤ) : Option ℤ :=
  if b ≠ 0 ∧ FitsI128 (a.tdiv b) then some (a.tdiv b) else none

def i128Max : ℤ := 2 ^ 127 - 1

variable {Addr : Type} [DecidableEq Addr] {self : Addr}

/-- The entry point `initialize`. -/
def initializePool (s : State Addr) (admin usdcToken creditScoreContract rbacContract : Addr) :
    Result (State Addr) := do
  require (s.config.admin = none) Error.alreadyInitialized.trap
  pure { s with
    config := { s.config with
      admin := some admin
      usdcToken := some usdcToken
      creditScoreContract := some creditScoreContract }
    totalLiquidity := 0
    totalLpTokens := 0
    rateModel := defaultRateModel
    params := initProtocolParams s.params rbacContract }

/-- The stored admin signs. -/
def requireAdmin (inv : Invocation Addr self) (c : Config Addr) : Result Unit := do
  let admin ← expect c.admin Error.notInitialized.trap
  requireAuth inv.toEnv admin

/-- The named admin signs, and is the stored one. -/
def requireNamedAdmin (inv : Invocation Addr self) (c : Config Addr) (admin : Addr) :
    Result Unit := do
  let stored ← expect c.admin Error.notInitialized.trap
  requireAuth inv.toEnv admin
  require (stored = admin) Error.notAdmin.trap

def setRateModel (inv : Invocation Addr self) (s : State Addr)
    (baseRateBps kinkBps slope1Bps slope2Bps : ℤ) : Result (State Addr) := do
  requireAdmin inv s.config
  require (0 ≤ baseRateBps ∧ baseRateBps ≤ 10000) (.panic "base_rate_bps must be 0-10000")
  require (0 ≤ kinkBps ∧ kinkBps ≤ 10000) (.panic "kink_bps must be 0-10000")
  require (0 ≤ slope1Bps ∧ slope1Bps ≤ 10000) (.panic "slope1_bps must be 0-10000")
  require (0 ≤ slope2Bps ∧ slope2Bps ≤ 10000) (.panic "slope2_bps must be 0-10000")
  pure { s with rateModel := ⟨baseRateBps, kinkBps, slope1Bps, slope2Bps⟩ }

def setMinCreditScore (inv : Invocation Addr self) (s : State Addr) (admin : Addr)
    (newMin : ℕ) : Result (State Addr) := do
  requireNamedAdmin inv s.config admin
  pure { s with config := { s.config with minCreditScore := newMin } }

/-- The two-slope rate of a utilization. -/
def twoSlopeRate (m : RateModel) (utilizationBps : ℤ) : Result ℤ :=
  if utilizationBps ≤ m.kinkBps then
    let rateIncrease := (checkedDiv ((checkedMul utilizationBps m.slope1Bps).getD i128Max)
      m.kinkBps).getD 0
    pure ((checkedAdd m.baseRateBps rateIncrease).getD i128Max)
  else do
    let excessUtil ← i128 (utilizationBps - m.kinkBps)
    let denominator ← i128 (10000 - m.kinkBps)
    let rateIncrease2 := (checkedDiv ((checkedMul excessUtil m.slope2Bps).getD i128Max)
      denominator).getD 0
    let rate := (checkedAdd m.baseRateBps m.slope1Bps).getD i128Max
    pure ((checkedAdd rate rateIncrease2).getD i128Max)

/-- What counts as borrowed is the counter of loans. -/
def getCurrentRate (s : State Addr) : Result ℤ := do
  let totalBorrowed := s.loanCount
  let totalSupply ← i128 (totalBorrowed + s.totalLiquidity)
  if totalSupply = 0 then pure s.rateModel.baseRateBps
  else
    let utilizationBps := (checkedDiv ((checkedMul totalBorrowed 10000).getD i128Max)
      totalSupply).getD 0
    twoSlopeRate s.rateModel utilizationBps

/-- A rate that governance has set replaces the two-slope rate. -/
def computeFee (s : State Addr) (amount : ℤ) : Result ℤ := do
  let govRate := (s.params.param keyInterestRateBps).getD 0
  let rate ← if 0 < govRate then pure govRate else getCurrentRate s
  let product ← expect (checkedMul amount rate) (.panic "Overflow")
  expect (checkedDiv product 10000) (.panic "Division error")

end LendingPool

/-! The lending pool as a machine over its storage and the token ledgers. Views are left out. -/
namespace LendingPool
open Outcome Soroban Shared

variable {Addr : Type} [DecidableEq Addr] {self : Addr}

/-- The text of `unwrap` on a missing entry. -/
def unwrapNone : Trap := .panic "called `Option::unwrap()` on a `None` value"

def deposit (inv : Invocation Addr self) (s : State Addr) (lender : Addr) (amount : ℤ) :
    Result (State Addr) := do
  require (s.config.admin ≠ none) Error.notInitialized.trap
  require (0 < amount) Error.invalidAmount.trap
  requireAuth inv.toEnv lender
  let usdcToken ← expect s.config.usdcToken unwrapNone
  let tokens ← s.tokens.transfer inv.accepts usdcToken lender self amount
  let totalLiquidity ← expect (checkedAdd s.totalLiquidity amount) (.panic "Overflow")
  let totalLp ← expect (checkedAdd s.totalLpTokens amount) (.panic "Overflow")
  let balance ← expect (checkedAdd (s.lenderBalance lender) amount) (.panic "Overflow")
  pure { s with
    totalLiquidity := totalLiquidity
    totalLpTokens := totalLp
    lenderBalance := Function.update s.lenderBalance lender balance
    guards := { s.guards with
      instanceDepositLedger :=
        Function.update s.guards.instanceDepositLedger lender inv.sequence }
    tokens := tokens }

/-- A balance of 0 is removed, and reads as 0 again. -/
def withdraw (inv : Invocation Addr self) (s : State Addr) (lender : Addr) (lpAmount : ℤ) :
    Result (State Addr) := do
  require (s.config.admin ≠ none) Error.notInitialized.trap
  require (0 < lpAmount) Error.invalidAmount.trap
  requireAuth inv.toEnv lender
  require (s.guards.persistentDepositLedger lender ≠ inv.sequence)
    Error.sameBlockDepositWithdraw.trap
  require (lpAmount ≤ s.lenderBalance lender) Error.insufficientBalance.trap
  let usdcToken ← expect s.config.usdcToken unwrapNone
  let tokens ← s.tokens.transfer inv.accepts usdcToken self lender lpAmount
  let totalLiquidity ← expect (checkedSub s.totalLiquidity lpAmount) (.panic "Underflow")
  let totalLp ← expect (checkedSub s.totalLpTokens lpAmount) (.panic "Underflow")
  let balance ← expect (checkedSub (s.lenderBalance lender) lpAmount) (.panic "Underflow")
  pure { s with
    totalLiquidity := totalLiquidity
    totalLpTokens := totalLp
    lenderBalance := Function.update s.lenderBalance lender balance
    tokens := tokens }

/-- The liquidity at the first borrow of the current ledger sequence. -/
def Guards.snapshot (g : Guards Addr) (sequence : ℕ) (totalLiquidity : ℤ) : ℤ :=
  if g.blockLiquidityLedger = sequence then g.blockLiquiditySnapshot.getD totalLiquidity
  else totalLiquidity

/-- The checks and writes of `borrow` that bound what one address borrows in one ledger. -/
def Guards.admitBorrow (g : Guards Addr) (sequence : ℕ) (totalLiquidity : ℤ) (borrower : Addr)
    (amount : ℤ) : Result (Guards Addr) := do
  let snapshot := g.snapshot sequence totalLiquidity
  let perBlockCap := (checkedDiv ((checkedMul snapshot perBlockBorrowCapBps).getD i128Max)
    10000).getD i128Max
  let blockTotal :=
    if g.blockBorrowLedger borrower = sequence then g.blockBorrowTotal borrower else 0
  let newBlockTotal := (checkedAdd blockTotal amount).getD i128Max
  require (newBlockTotal ≤ perBlockCap) Error.perBlockBorrowLimitExceeded.trap
  pure { g with
    blockBorrowTotal := Function.update g.blockBorrowTotal borrower newBlockTotal
    blockBorrowLedger := Function.update g.blockBorrowLedger borrower sequence
    blockLiquiditySnapshot :=
      if g.blockLiquidityLedger = sequence then g.blockLiquiditySnapshot
      else some totalLiquidity
    blockLiquidityLedger := sequence }

/-- The new loan takes the place of any loan that is stored for the borrower. -/
def borrow (inv : Invocation Addr self) (s : State Addr) (borrower : Addr) (amount : ℤ)
    (sessionId : String) : Result (State Addr) := do
  require (s.config.admin ≠ none) Error.notInitialized.trap
  require (0 < amount) Error.invalidAmount.trap
  requireAuth inv.toEnv borrower
  let creditContract ← expect s.config.creditScoreContract Error.notInitialized.trap
  let creditScore ← expect (inv.getScore creditContract borrower) .subcall
  require (s.config.minCreditScore ≤ creditScore) Error.lowCreditScore.trap
  require (amount ≤ s.totalLiquidity) Error.insufficientLiquidity.trap
  let guards ← s.guards.admitBorrow inv.sequence s.totalLiquidity borrower amount
  let fee ← computeFee s amount
  let usdcToken ← expect s.config.usdcToken unwrapNone
  let tokens ← s.tokens.transfer inv.accepts usdcToken self borrower amount
  let dueAt ← checkedU64 (inv.timestamp + liquidationSeconds) (.panic "Timestamp overflow")
  let newLiquidity ← expect (checkedSub s.totalLiquidity amount) (.panic "Underflow")
  pure { s with
    totalLiquidity := newLiquidity
    loan := Function.update s.loan borrower
      (some ⟨borrower, amount, fee, sessionId, inv.timestamp, dueAt, false⟩)
    guards := guards
    tokens := tokens }

/-- The stored loan of the borrower, which has to be open. -/
def State.openLoan (s : State Addr) (borrower : Addr) : Result (LoanRecord Addr) := do
  let loan ← expect (s.loan borrower) Error.loanNotFound.trap
  require (loan.repaid = false) Error.loanAlreadyRepaid.trap
  pure loan

def LoanRecord.close (loan : LoanRecord Addr) : LoanRecord Addr := { loan with repaid := true }

def repay (inv : Invocation Addr self) (s : State Addr) (borrower : Addr) (amount : ℤ) :
    Result (State Addr) := do
  require (s.config.admin ≠ none) Error.notInitialized.trap
  require (0 < amount) Error.invalidAmount.trap
  requireAuth inv.toEnv borrower
  let loan ← s.openLoan borrower
  let totalOwed ← i128 (loan.amount + loan.fee)
  require (totalOwed ≤ amount) Error.invalidAmount.trap
  let usdcToken ← expect s.config.usdcToken unwrapNone
  let tokens ← s.tokens.transfer inv.accepts usdcToken borrower self totalOwed
  let totalLiquidity ← expect (checkedAdd s.totalLiquidity totalOwed) (.panic "Overflow")
  pure { s with
    totalLiquidity := totalLiquidity
    loan := Function.update s.loan borrower (some loan.close)
    tokens := tokens }

/-- The loan is closed without a payment, and without a trace in the bad debt. -/
def liquidate (inv : Invocation Addr self) (s : State Addr) (borrower : Addr) :
    Result (State Addr) := do
  requireAdmin inv s.config
  let loan ← s.openLoan borrower
  require (loan.dueAt < inv.timestamp) (.panic "loan not yet due")
  pure { s with loan := Function.update s.loan borrower (some loan.close) }

def startLiquidationAuction (inv : Invocation Addr self) (s : State Addr) (borrower : Addr) :
    Result (State Addr) := do
  let loan ← s.openLoan borrower
  require (loan.dueAt < inv.timestamp) Error.loanNotDue.trap
  require (s.liquidationAuction borrower = none) Error.auctionAlreadyActive.trap
  pure { s with
    liquidationAuction := Function.update s.liquidationAuction borrower
      (some ⟨loan, inv.timestamp, 0, none⟩) }

/-- The discount grows from 0 over the duration of the auction. -/
def getAuctionDiscount (now : ℕ) (auction : AuctionRecord Addr) : Result ℤ :=
  let elapsed := now - auction.startedAt
  if auctionDurationSecs ≤ elapsed then pure maxAuctionDiscountBps
  else do
    let product ← expect (checkedMul maxAuctionDiscountBps elapsed) (.panic "Overflow")
    expect (checkedDiv product auctionDurationSecs) (.panic "Division error")

/-- What is stored for the borrower becomes the copy that the auction kept, now closed. -/
def executeLiquidation (inv : Invocation Addr self) (s : State Addr)
    (liquidator borrower : Addr) : Result (State Addr) := do
  requireAuth inv.toEnv liquidator
  let auction ← expect (s.liquidationAuction borrower) Error.auctionNotFound.trap
  require (auction.liquidator = none) Error.auctionAlreadySettled.trap
  let discountBps ← getAuctionDiscount inv.timestamp auction
  let totalOwed ← i128 (auction.loan.amount + auction.loan.fee)
  let product ← expect (checkedMul totalOwed discountBps) (.panic "Overflow")
  let discountAmount ← expect (checkedDiv product 10000) (.panic "Division error")
  let payment ← i128 (totalOwed - discountAmount)
  let usdcToken ← expect s.config.usdcToken unwrapNone
  let tokens ← s.tokens.transfer inv.accepts usdcToken liquidator self payment
  let totalLiquidity ← expect (checkedAdd s.totalLiquidity payment) (.panic "Overflow")
  pure { s with
    totalLiquidity := totalLiquidity
    loan := Function.update s.loan borrower (some auction.loan.close)
    liquidationAuction := Function.update s.liquidationAuction borrower none
    tokens := tokens }

def forceLiquidate (inv : Invocation Addr self) (s : State Addr) (admin borrower : Addr) :
    Result (State Addr) := do
  requireNamedAdmin inv s.config admin
  let loan ← s.openLoan borrower
  let totalOwed ← i128 (loan.amount + loan.fee)
  let badDebt ← expect (checkedAdd s.badDebt totalOwed) (.panic "Overflow")
  pure { s with
    badDebt := badDebt
    loan := Function.update s.loan borrower (some loan.close)
    liquidationAuction := Function.update s.liquidationAuction borrower none }

/-- No token moves: the yield is expected to be in the pool already. -/
def accrueYield (inv : Invocation Addr self) (s : State Addr) (admin : Addr) (amount : ℤ) :
    Result (State Addr) := do
  require (0 < amount) Error.invalidAmount.trap
  requireNamedAdmin inv s.config admin
  let totalLiquidity ← expect (checkedAdd s.totalLiquidity amount) (.panic "Overflow")
  pure { s with totalLiquidity := totalLiquidity }

def distributeYield (inv : Invocation Addr self) (s : State Addr) (admin lender : Addr)
    (amount : ℤ) : Result (State Addr) := do
  require (0 < amount) Error.invalidAmount.trap
  requireNamedAdmin inv s.config admin
  let balance ← expect (checkedAdd (s.lenderBalance lender) amount) (.panic "Overflow")
  let totalLp ← expect (checkedAdd s.totalLpTokens amount) (.panic "Overflow")
  pure { s with
    totalLpTokens := totalLp
    lenderBalance := Function.update s.lenderBalance lender balance }

inductive Call (Addr : Type) where
  | initializePool (admin usdcToken creditScoreContract rbacContract : Addr)
  | setRateModel (baseRateBps kinkBps slope1Bps slope2Bps : ℤ)
  | setMinCreditScore (admin : Addr) (newMin : ℕ)
  | setParam (caller : Addr) (key : String) (value : ℤ)
  | deposit (lender : Addr) (amount : ℤ)
  | withdraw (lender : Addr) (lpAmount : ℤ)
  | borrow (borrower : Addr) (amount : ℤ) (sessionId : String)
  | repay (borrower : Addr) (amount : ℤ)
  | liquidate (borrower : Addr)
  | startLiquidationAuction (borrower : Addr)
  | executeLiquidation (liquidator borrower : Addr)
  | forceLiquidate (admin borrower : Addr)
  | accrueYield (admin : Addr) (amount : ℤ)
  | distributeYield (admin lender : Addr) (amount : ℤ)
  /-- Not an entry point: somebody sends tokens to the pool. -/
  | send (token source : Addr) (amount : ℤ)
  /-- Not an entry point: a token moves between other holders. -/
  | tokenActivity (token holder : Addr) (balance : ℤ)

def exec (inv : Invocation Addr self) (call : Call Addr) (s : State Addr) :
    Result (State Addr) :=
  match call with
  | .initializePool admin usdcToken creditScoreContract rbacContract =>
      initializePool s admin usdcToken creditScoreContract rbacContract
  | .setRateModel baseRateBps kinkBps slope1Bps slope2Bps =>
      setRateModel inv s baseRateBps kinkBps slope1Bps slope2Bps
  | .setMinCreditScore admin newMin => setMinCreditScore inv s admin newMin
  | .setParam caller key value => do
      let params ← setParam inv.toEnv inv.hasRole s.params caller key value
      pure { s with params := params }
  | .deposit lender amount => deposit inv s lender amount
  | .withdraw lender lpAmount => withdraw inv s lender lpAmount
  | .borrow borrower amount sessionId => borrow inv s borrower amount sessionId
  | .repay borrower amount => repay inv s borrower amount
  | .liquidate borrower => liquidate inv s borrower
  | .startLiquidationAuction borrower => startLiquidationAuction inv s borrower
  | .executeLiquidation liquidator borrower => executeLiquidation inv s liquidator borrower
  | .forceLiquidate admin borrower => forceLiquidate inv s admin borrower
  | .accrueYield admin amount => accrueYield inv s admin amount
  | .distributeYield admin lender amount => distributeYield inv s admin lender amount
  | .send token source amount => do
      requireAuth inv.toEnv source
      let tokens ← s.tokens.transfer inv.accepts token source self amount
      pure { s with tokens := tokens }
  | .tokenActivity token holder balance => do
      require (holder ≠ self ∧ 0 ≤ balance) .subcall
      let balances := Function.update s.tokens.balance token
        (Function.update (s.tokens.balance token) holder balance)
      pure { s with tokens := { s.tokens with balance := balances } }

abbrev Step (Addr : Type) (self : Addr) := Invocation Addr self × Call Addr

/-- The deployed pool. -/
def machine (self : Addr) : Machine (State Addr) (Step Addr self) Trap where
  exec step := exec step.1 step.2

/-- An invocation that every account signed, with a credit score of 700 and every role granted
to everybody. -/
def grantedAt (now sequence : ℕ) : Invocation ℕ 0 where
  toEnv := { signedByAll now with sequence := sequence }
  accepts _ := true
  getScore _ _ := some 700
  hasRole _ _ _ := some true

end LendingPool
