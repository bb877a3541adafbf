import MentorsMind.Shared.Pagination
import MentorsMind.Shared.SafeMath
import MentorsMind.Soroban.TokenLedger

/-! Loans against collateral: borrowers deposit the platform's token and draw dollars, repay with
simple interest, and are liquidated when the collateral no longer covers the debt. The recovery
snapshots apart from their counter, the detection of suspicious liquidators, the watch list and the
events are left out. -/
namespace CollateralLoan
open Outcome Soroban Shared

def minCollateralRatioBps : ℤ := 15000
def liquidationThresholdBps : ℤ := 12000
def liquidatorBonusBps : ℤ := 500
def bpsDenominator : ℤ := 10000
def priceScale : ℤ := 10000
def defaultInterestRateBps : ℕ := 1000
def maxPriceStalenessSecs : ℕ := 3600
def secondsPerDay : ℕ := 86400
def i128Max : ℤ := 2 ^ 127 - 1

structure Loan where
  collateralAmount : ℤ
  debtAmount : ℤ
  borrowedAt : ℕ
  interestRateBps : ℕ

structure CollateralPosition (Addr : Type) where
  owner : Addr
  collateralAmount : ℤ
  debtAmount : ℤ
  ratioBps : ℤ
deriving DecidableEq

/-- One field for each storage key; an absent count or amount reads as zero, an absent flag as
false. `tokens` is what the two tokens hold and moved. -/
structure State (Addr : Type) where
  admin : Option Addr
  mntToken : Option Addr
  usdcToken : Option Addr
  oracle : Option Addr
  mntAsset : Option String
  interestRateBps : Option ℕ
  accruedInterestVault : ℤ
  totalBadDebt : ℤ
  maxPriceStaleness : Option ℕ
  pauseGuardian : Option Addr
  paused : Bool
  loan : Addr → Option Loan
  collateralIndex : ℕ → Option Addr
  collateralSlot : Addr → Option ℕ
  collateralCount : ℕ
  nextCollateralSnapshotId : ℕ
  tokens : Tokens Addr

/-- One invocation: the ledger, the signers, what an oracle answers for an asset, a price and when
it was last updated, and which transfers the tokens accept. A call that traps answers `none`. -/
structure Invocation (Addr : Type) (home : Addr) extends Env Addr home where
  getPrice : Addr → String → Option (ℤ × ℕ)
  accepts : Transfer Addr → Bool

variable {Addr : Type} {self : Addr}

section Views

def requireInitialized (s : State Addr) : Result Unit :=
  require s.admin.isSome (.panic "not initialized")

def requireNotPausedLocal (s : State Addr) : Result Unit :=
  require (s.paused = false) (.panic "contract paused")

def requirePauseGuardian (inv : Invocation Addr self) (s : State Addr) : Result Unit := do
  let guardian ← expect s.pauseGuardian (.panic "pause guardian not set")
  requireAuth inv.toEnv guardian

def requireAmount (amount : ℤ) : Result Unit := do
  requirePositive amount
  requireMax amount maxFinancialAmount

def computeRatioBps (collateralAmount debtAmount price : ℤ) : Result ℤ :=
  if debtAmount ≤ 0 then pure i128Max
  else do
    let product ← checkedI128 (collateralAmount * price) (.panic "overflow")
    let collateralValue := product.tdiv priceScale
    let scaled ← checkedI128 (collateralValue * bpsDenominator) (.panic "overflow")
    pure (scaled.tdiv debtAmount)

def getMntPrice (inv : Invocation Addr self) (s : State Addr) : Result ℤ := do
  let oracle ← expect s.oracle (.panic "not initialized")
  let asset ← expect s.mntAsset (.panic "not initialized")
  let (price, lastUpdate) ← expect (inv.getPrice oracle asset) .subcall
  require (0 < price) (.panic "invalid oracle price")
  require (inv.timestamp - lastUpdate ≤ s.maxPriceStaleness.getD maxPriceStalenessSecs)
    (.panic "OraclePriceStale")
  pure price

/-- `checked_mul` with zero in place of an overflow. -/
def mulOrZero (a b : ℤ) : ℤ := if FitsI128 (a * b) then a * b else 0

/-- Simple interest for the full days since the loan was opened. -/
def Loan.currentDebt (l : Loan) (now : ℕ) : ℤ :=
  if l.debtAmount ≤ 0 then 0
  else
    let elapsedDays : ℕ := (now - l.borrowedAt) / secondsPerDay
    let interest :=
      (mulOrZero (mulOrZero l.debtAmount l.interestRateBps) elapsedDays).tdiv (365 * bpsDenominator)
    if FitsI128 (l.debtAmount + interest) then l.debtAmount + interest else i128Max

def getCurrentDebt (now : ℕ) (s : State Addr) (borrower : Addr) : ℤ :=
  match s.loan borrower with
  | none => 0
  | some l => l.currentDebt now

def getHealthFactor (inv : Invocation Addr self) (s : State Addr) (borrower : Addr) :
    Result ℕ := do
  requireInitialized s
  match s.loan borrower with
  | none => pure 0
  | some l =>
      let currentDebt := getCurrentDebt inv.timestamp s borrower
      if currentDebt ≤ 0 then pure maxU32
      else do
        let price ← getMntPrice inv s
        let ratio ← computeRatioBps l.collateralAmount currentDebt price
        pure (if ratio < 0 then 0 else if (maxU32 : ℤ) < ratio then maxU32 else ratio.toNat)

/-- What the view shows of the position at `slot`, if its ratio is below the threshold. -/
def undercollateralizedAt (s : State Addr) (price threshold : ℤ) (slot : ℕ) :
    Result (Option (CollateralPosition Addr)) :=
  match s.collateralIndex slot with
  | none => pure none
  | some owner =>
      match s.loan owner with
      | none => pure none
      | some l => do
          let ratioBps ← computeRatioBps l.collateralAmount l.debtAmount price
          if ratioBps < threshold then
            pure (some ⟨owner, l.collateralAmount, l.debtAmount, ratioBps⟩)
          else pure none

def getUndercollateralizedPage (inv : Invocation Addr self) (s : State Addr)
    (thresholdBps offset limit : ℕ) : Result (List (CollateralPosition Addr)) := do
  requireInitialized s
  let (start, stop) := Pagination.bounds s.collateralCount offset limit
  let price ← getMntPrice inv s
  let shown ← (List.range' start (stop - start)).mapM
    (undercollateralizedAt s price (thresholdBps : ℤ))
  pure (shown.filterMap id)

end Views

section Settings

/-- The entry point `initialize`. -/
def initializeLoans (inv : Invocation Addr self) (s : State Addr)
    (admin mntToken usdcToken oracle : Addr) (mntAsset : String) : Result (State Addr) := do
  require (s.admin = none) (.panic "already initialized")
  requireAuth inv.toEnv admin
  pure { s with
    admin := some admin
    mntToken := some mntToken
    usdcToken := some usdcToken
    oracle := some oracle
    mntAsset := some mntAsset
    interestRateBps := some defaultInterestRateBps
    accruedInterestVault := 0
    totalBadDebt := 0
    maxPriceStaleness := some maxPriceStalenessSecs }

/-- Whoever is named as admin has to sign, but is not compared with the admin. -/
def setPauseGuardian (inv : Invocation Addr self) (s : State Addr) (admin guardian : Addr) :
    Result (State Addr) := do
  requireInitialized s
  requireAuth inv.toEnv admin
  pure { s with pauseGuardian := some guardian }

/-- `pause` and `unpause`. -/
def setPaused (paused : Bool) (inv : Invocation Addr self) (s : State Addr) :
    Result (State Addr) := do
  requirePauseGuardian inv s
  pure { s with paused := paused }

end Settings

section Entries

variable [DecidableEq Addr]

def setMaxPriceStaleness (inv : Invocation Addr self) (s : State Addr) (admin : Addr)
    (stalenessSecs : ℕ) : Result (State Addr) := do
  requireInitialized s
  requireAuth inv.toEnv admin
  let stored ← expect s.admin (.panic "not initialized")
  require (admin = stored) (.panic "unauthorized")
  require (stalenessSecs ≠ 0) (.panic "invalid staleness")
  pure { s with maxPriceStaleness := some stalenessSecs }

/-- `token::Client::transfer`. -/
def transfer (inv : Invocation Addr self) (s : State Addr) (token source recipient : Addr)
    (amount : ℤ) : Result (State Addr) := do
  let tokens ← s.tokens.transfer inv.accepts token source recipient amount
  pure { s with tokens := tokens }

/-- Appends `owner` to the index. -/
def indexPosition (s : State Addr) (owner : Addr) : Result (State Addr) := do
  let count ← u32 (s.collateralCount + 1)
  pure { s with
    collateralIndex := Function.update s.collateralIndex s.collateralCount (some owner)
    collateralSlot := Function.update s.collateralSlot owner (some s.collateralCount)
    collateralCount := count }

/-- The last entry takes the slot, if there is one. -/
def moveLast (s : State Addr) (slot last : ℕ) : State Addr :=
  if slot = last then s
  else
    match s.collateralIndex last with
    | none => s
    | some moved =>
        { s with
          collateralIndex := Function.update s.collateralIndex slot (some moved)
          collateralSlot := Function.update s.collateralSlot moved (some slot) }

/-- Nothing happens if `owner` has no slot. -/
def deindexPosition (s : State Addr) (owner : Addr) : State Addr :=
  if s.collateralCount = 0 then s
  else
    match s.collateralSlot owner with
    | none => s
    | some slot =>
        let last := s.collateralCount - 1
        let moved := moveLast s slot last
        { moved with
          collateralIndex := Function.update moved.collateralIndex last none
          collateralSlot := Function.update moved.collateralSlot owner none
          collateralCount := last }

omit [DecidableEq Addr] in
/-- The counter of the recovery snapshots, all that can fail about them. -/
def recordSnapshotIndex (s : State Addr) : Result (State Addr) := do
  let next ← checkedU32 (s.nextCollateralSnapshotId + 1) (.panic "snapshot index overflow")
  pure { s with nextCollateralSnapshotId := next }

def setLoan (s : State Addr) (borrower : Addr) (l : Option Loan) : State Addr :=
  { s with loan := Function.update s.loan borrower l }

def openLoan (inv : Invocation Addr self) (s : State Addr) (borrower : Addr)
    (collateralAmount borrowAmount : ℤ) : Result (State Addr) := do
  requireNotPausedLocal s
  requireInitialized s
  requireAuth inv.toEnv borrower
  requireAmount collateralAmount
  requireAmount borrowAmount
  require (s.loan borrower).isNone (.panic "loan already exists")
  let price ← getMntPrice inv s
  let ratioBps ← computeRatioBps collateralAmount borrowAmount price
  require (minCollateralRatioBps ≤ ratioBps) (.panic "insufficient collateralization")
  let mnt ← expect s.mntToken (.panic "not initialized")
  let usdc ← expect s.usdcToken (.panic "not initialized")
  let deposited ← transfer inv s mnt borrower self collateralAmount
  let lent ← transfer inv deposited usdc self borrower borrowAmount
  let l : Loan := {
    collateralAmount := collateralAmount
    debtAmount := borrowAmount
    borrowedAt := inv.timestamp
    interestRateBps := s.interestRateBps.getD defaultInterestRateBps }
  let indexed ← indexPosition (setLoan lent borrower (some l)) borrower
  recordSnapshotIndex indexed

omit [DecidableEq Addr] in
/-- Interest that was paid is kept in the vault. -/
def addInterest (s : State Addr) (accruedInterest : ℤ) : Result (State Addr) :=
  if 0 < accruedInterest then do
    let vault ← checkedI128 (s.accruedInterestVault + accruedInterest) (.panic "overflow")
    pure { s with accruedInterestVault := vault }
  else pure s

/-- Only the whole debt is taken; the branch for a rest is never reached. -/
def repayLoan (inv : Invocation Addr self) (s : State Addr) (borrower : Addr) (amount : ℤ) :
    Result (State Addr) := do
  requireNotPausedLocal s
  requireInitialized s
  requireAuth inv.toEnv borrower
  requireAmount amount
  let l ← expect (s.loan borrower) (.panic "loan not found")
  require (0 < l.debtAmount) (.panic "loan already repaid")
  let currentDebt := getCurrentDebt inv.timestamp s borrower
  let accruedInterest ← i128 (currentDebt - l.debtAmount)
  require (currentDebt ≤ amount) (.panic "insufficient repayment amount")
  let usdc ← expect s.usdcToken (.panic "not initialized")
  let paid ← transfer inv s usdc borrower self currentDebt
  let kept ← addInterest paid accruedInterest
  let mnt ← expect s.mntToken (.panic "not initialized")
  let returned ← transfer inv kept mnt self borrower l.collateralAmount
  recordSnapshotIndex (deindexPosition (setLoan returned borrower none) borrower)

/-- Also while the contract is paused. -/
def addCollateral (inv : Invocation Addr self) (s : State Addr) (borrower : Addr) (amount : ℤ) :
    Result (State Addr) := do
  requireInitialized s
  requireAuth inv.toEnv borrower
  requireAmount amount
  let l ← expect (s.loan borrower) (.panic "loan not found")
  let mnt ← expect s.mntToken (.panic "not initialized")
  let deposited ← transfer inv s mnt borrower self amount
  let collateralAmount ← checkedI128 (l.collateralAmount + amount) (.panic "overflow")
  pure (setLoan deposited borrower (some { l with collateralAmount := collateralAmount }))

/-- The protocol fee goes to the admin, unless it is zero. -/
def payProtocolFee (inv : Invocation Addr self) (s : State Addr) (mnt : Addr) (fee : ℤ) :
    Result (State Addr) := do
  let admin ← expect s.admin (.panic "not initialized")
  if 0 < fee then transfer inv s mnt self admin fee else pure s

def liquidate (inv : Invocation Addr self) (s : State Addr) (borrower liquidator : Addr) :
    Result (State Addr) := do
  requireNotPausedLocal s
  requireInitialized s
  requireAuth inv.toEnv liquidator
  let l ← expect (s.loan borrower) (.panic "loan not found")
  require (0 < l.debtAmount) (.panic "loan already repaid")
  let ratioBps ← getHealthFactor inv s borrower
  require ((ratioBps : ℤ) < liquidationThresholdBps) (.panic "loan healthy")
  let currentDebt := getCurrentDebt inv.timestamp s borrower
  let product ← i128 (l.collateralAmount * liquidatorBonusBps)
  let protocolFee := product.tdiv bpsDenominator
  let collateralToLiquidator ← checkedI128 (l.collateralAmount - protocolFee)
    (.panic "fee exceeds collateral")
  let usdc ← expect s.usdcToken (.panic "not initialized")
  let paid ← transfer inv s usdc liquidator self currentDebt
  let mnt ← expect s.mntToken (.panic "not initialized")
  let seized ← transfer inv paid mnt self liquidator collateralToLiquidator
  let settled ← payProtocolFee inv seized mnt protocolFee
  recordSnapshotIndex (deindexPosition (setLoan settled borrower none) borrower)

/-- What others do with the tokens meanwhile: they may give to the contract, but not take from
it. -/
structure Elsewhere (Addr : Type) (home : Addr) where
  change : Addr → Addr → ℤ
  harmless : ∀ token, 0 ≤ change token home

inductive Call (Addr : Type) (home : Addr) where
  | initializeLoans (admin mntToken usdcToken oracle : Addr) (mntAsset : String)
  | setPauseGuardian (admin guardian : Addr)
  | pause
  | unpause
  | setMaxPriceStaleness (admin : Addr) (stalenessSecs : ℕ)
  | openLoan (borrower : Addr) (collateralAmount borrowAmount : ℤ)
  | repayLoan (borrower : Addr) (amount : ℤ)
  | addCollateral (borrower : Addr) (amount : ℤ)
  | liquidate (borrower liquidator : Addr)
  | elsewhere (e : Elsewhere Addr home)

def exec (inv : Invocation Addr self) (call : Call Addr self) (s : State Addr) :
    Result (State Addr) :=
  match call with
  | .initializeLoans admin mntToken usdcToken oracle mntAsset =>
      initializeLoans inv s admin mntToken usdcToken oracle mntAsset
  | .setPauseGuardian admin guardian => setPauseGuardian inv s admin guardian
  | .pause => setPaused true inv s
  | .unpause => setPaused false inv s
  | .setMaxPriceStaleness admin stalenessSecs => setMaxPriceStaleness inv s admin stalenessSecs
  | .openLoan borrower collateralAmount borrowAmount =>
      openLoan inv s borrower collateralAmount borrowAmount
  | .repayLoan borrower amount => repayLoan inv s borrower amount
  | .addCollateral borrower amount => addCollateral inv s borrower amount
  | .liquidate borrower liquidator => liquidate inv s borrower liquidator
  | .elsewhere e =>
      pure { s with tokens := { s.tokens with
        balance := fun t a => s.tokens.balance t a + e.change t a } }

abbrev Step (Addr : Type) (home : Addr) := Invocation Addr home × Call Addr home

def machine (home : Addr) : Machine (State Addr) (Step Addr home) Trap :=
  ⟨fun step s => exec step.1 step.2 s⟩

end Entries

/-- Nothing is stored yet; the tokens are there. -/
def deployed (tokens : Tokens Addr) : State Addr where
  admin := none
  mntToken := none
  usdcToken := none
  oracle := none
  mntAsset := none
  interestRateBps := none
  accruedInterestVault := 0
  totalBadDebt := 0
  maxPriceStaleness := none
  pauseGuardian := none
  paused := false
  loan _ := none
  collateralIndex _ := none
  collateralSlot _ := none
  collateralCount := 0
  nextCollateralSnapshotId := 0
  tokens := tokens

end CollateralLoan
