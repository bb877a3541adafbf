import MentorsMind.Shared.SafeMath
import MentorsMind.Soroban.TokenLedger

/-! Markets on whether a learner reaches a goal: bets go into a pool for either outcome, the oracle
names the outcome, and whoever bet on it shares the other pool. The price that the market maker
would take limits which bets are accepted. Events are left out. -/
namespace PredictionMarket
open Outcome Soroban Shared

inductive Error where
  | invalidAmount
  | overflow

def Error.code : Error → ℕ
  | .invalidAmount => 6
  | .overflow => 14

def Error.trap (e : Error) : Trap := .contractError e.code

structure MarketRecord (Addr : Type) where
  id : ℕ
  creator : Addr
  learner : Addr
  goalDescriptionHash : Hash
  resolutionDate : ℕ
  token : Addr
  yesPool : ℤ
  noPool : ℤ
  resolved : Bool
  outcome : Option Bool
  liquidityParameter : ℤ
  resolutionOracle : Addr
  resolutionRequiresMulti : Bool

structure BetRecord (Addr : Type) where
  bettor : Addr
  marketId : ℕ
  outcome : Bool
  amount : ℤ
  claimed : Bool

def platformFeeBps : ℤ := 200
def fixedPointScale : ℤ := 1000000000000000000
def defaultLiquidityParameter : ℤ := 100000000000000000

section Pricing

/-- The terms of the series from the `n`-th on, at most `rounds` of them. -/
def expTerms (x : ℤ) : (rounds : ℕ) → (n result xPower : ℤ) → Result ℤ
  | 0, _, result, _ => pure result
  | rounds + 1, n, result, xPower => do
      let quotient ← safeDiv xPower n
      let term ← safeDiv quotient fixedPointScale
      if term = 0 then pure result
      else do
        let sum ← safeAdd result term
        let product ← safeMul xPower x
        let next ← safeDiv product fixedPointScale
        expTerms x rounds (n + 1) sum next

def expFixedPoint (x : ℤ) : Result ℤ :=
  if x = 0 then pure fixedPointScale
  else if 5 * fixedPointScale < x then pure ((2 ^ 127 - 1) / 2)
  else if x < -5 * fixedPointScale then pure 0
  else expTerms x 10 1 fixedPointScale x

/-- The rounds of Newton's method that remain. -/
def lnRounds (x : ℤ) : (rounds : ℕ) → (y prevY : ℤ) → Result ℤ
  | 0, y, _ => pure y
  | rounds + 1, y, prevY => do
      let difference ← i128 (y - prevY)
      let distance ← i128 |difference|
      if distance < 1 then pure y
      else do
        let expY ← expFixedPoint y
        let gap ← i128 (x - expY)
        let delta ← safeDiv gap expY
        let next ← safeAdd y delta
        lnRounds x rounds next y

def lnFixedPoint (x : ℤ) : Result ℤ := do
  require (0 < x) (.panic "ln of non-positive number")
  if x = fixedPointScale then pure 0 else lnRounds x 10 0 (-fixedPointScale)

/-- One of the two exponentials in the cost. -/
def expShare (q b : ℤ) : Result ℤ := do
  let product ← safeMul q fixedPointScale
  let scaled ← safeDiv product b
  expFixedPoint scaled

def lmsrCost (qYes qNo b : ℤ) : Result ℤ := do
  let expYes ← expShare qYes b
  let expNo ← expShare qNo b
  let sum ← safeAdd expYes expNo
  let lnSum ← lnFixedPoint sum
  let product ← safeMul b lnSum
  safeDiv product fixedPointScale

end Pricing

/-- One field for each storage key; an absent count reads as zero. The bets are kept by market and
bettor. `tokens` is what the tokens hold and moved. -/
structure State (Addr : Type) where
  admin : Option Addr
  marketCount : ℕ
  market : ℕ → Option (MarketRecord Addr)
  bet : ℕ → Addr → Option (BetRecord Addr)
  resolutionOracle : ℕ → Option Addr
  resolutionProof : ℕ → Option Hash
  oracleVote : ℕ → Addr → Option Bool
  pauseGuardian : Option Addr
  tokens : Tokens Addr

/-- One invocation: the ledger, the signers, what a guardian answers (`none` if the call traps), and
which transfers the tokens accept. -/
structure Invocation (Addr : Type) (home : Addr) extends Env Addr home where
  isPaused : Addr → Option Bool
  accepts : Transfer Addr → Bool

/-- What the creator of a market chooses. -/
structure Terms (Addr : Type) where
  learner : Addr
  goalDescriptionHash : Hash
  resolutionDate : ℕ
  token : Addr
  liquidityParameter : Option ℤ
  resolutionOracle : Addr
  resolutionRequiresMulti : Bool

variable {Addr : Type} {self : Addr}

/-- The entry point `initialize`; nobody has to sign. -/
def initializeMarkets (s : State Addr) (admin : Addr) : Result (State Addr) := do
  require (s.admin = none) (.panic "already initialized")
  pure { s with admin := some admin, marketCount := 0 }

/-- `shared::pause_guard::require_not_paused`, if there is a guardian. -/
def requireNotPaused (inv : Invocation Addr self) (s : State Addr) : Result Unit :=
  match s.pauseGuardian with
  | none => pure ()
  | some guardian => do
      let paused ← expect (inv.isPaused guardian) .subcall
      require (paused = false) (.panic "Contract is paused")

def MarketRecord.pool (r : MarketRecord Addr) (outcome : Bool) : ℤ :=
  if outcome then r.yesPool else r.noPool

/-- The pools after one more bet. -/
def grownPools (r : MarketRecord Addr) (outcome : Bool) (amount : ℤ) : Result (ℤ × ℤ) :=
  if outcome then do
    let next ← checkedI128 (r.yesPool + amount) Error.overflow.trap
    pure (next, r.noPool)
  else do
    let next ← checkedI128 (r.noPool + amount) Error.overflow.trap
    pure (r.yesPool, next)

/-- What a winning bet of `amount` is paid. -/
def totalPayout (r : MarketRecord Addr) (winningOutcome : Bool) (amount : ℤ) : Result ℤ := do
  let losingPool := r.pool (!winningOutcome)
  let winningPool := r.pool winningOutcome
  let scaledFee ← safeMul losingPool platformFeeBps
  let platformFee ← safeDiv scaledFee 10000
  let netWinnings ← safeSub losingPool platformFee
  let scaledShare ← safeMul netWinnings amount
  let share ← safeDiv scaledShare winningPool
  safeAdd amount share

section Entries

variable [DecidableEq Addr]

def setPauseGuardian (inv : Invocation Addr self) (s : State Addr) (admin guardian : Addr) :
    Result (State Addr) := do
  let stored ← expect s.admin (.panic "not initialized")
  require (stored = admin) (.panic "Unauthorized")
  requireAuth inv.toEnv admin
  pure { s with pauseGuardian := some guardian }

def storeMarket (s : State Addr) (marketId : ℕ) (r : MarketRecord Addr) : State Addr :=
  { s with market := Function.update s.market marketId (some r) }

def storeBet (s : State Addr) (bettor : Addr) (marketId : ℕ) (b : BetRecord Addr) : State Addr :=
  { s with
    bet := Function.update s.bet marketId (Function.update (s.bet marketId) bettor (some b)) }

omit [DecidableEq Addr] in
def createMarket (inv : Invocation Addr self) (s : State Addr) (creator : Addr)
    (terms : Terms Addr) : Result (State Addr) := do
  requireAuth inv.toEnv creator
  require (inv.timestamp < terms.resolutionDate) (.panic "resolution date must be in future")
  let marketId ← u32 (s.marketCount + 1)
  let r : MarketRecord Addr := {
    id := marketId
    creator := creator
    learner := terms.learner
    goalDescriptionHash := terms.goalDescriptionHash
    resolutionDate := terms.resolutionDate
    token := terms.token
    yesPool := 0
    noPool := 0
    resolved := false
    outcome := none
    liquidityParameter := terms.liquidityParameter.getD defaultLiquidityParameter
    resolutionOracle := terms.resolutionOracle
    resolutionRequiresMulti := terms.resolutionRequiresMulti }
  pure { storeMarket s marketId r with
    resolutionOracle :=
      Function.update s.resolutionOracle marketId (some terms.resolutionOracle)
    marketCount := marketId }

/-- `token::Client::transfer`. -/
def transfer (inv : Invocation Addr self) (s : State Addr) (token source recipient : Addr)
    (amount : ℤ) : Result (State Addr) := do
  let tokens ← s.tokens.transfer inv.accepts token source recipient amount
  pure { s with tokens := tokens }

/-- A bettor has one bet on a market; a new one takes the place of the old one. -/
def placeBet (inv : Invocation Addr self) (s : State Addr) (bettor : Addr) (marketId : ℕ)
    (outcome : Bool) (amount : ℤ) : Result (State Addr) := do
  require (0 < amount) Error.invalidAmount.trap
  requireAuth inv.toEnv bettor
  let r ← expect (s.market marketId) (.panic "market not found")
  require (r.resolved = false) (.panic "market already resolved")
  require (inv.timestamp < r.resolutionDate) (.panic "market resolution date passed")
  let (yesPool, noPool) ← grownPools r outcome amount
  require (FitsI128 (yesPool * fixedPointScale)) Error.overflow.trap
  require (FitsI128 (noPool * fixedPointScale)) Error.overflow.trap
  let oldCost ← lmsrCost r.yesPool r.noPool r.liquidityParameter
  let newCost ← lmsrCost yesPool noPool r.liquidityParameter
  let cost ← i128 (if oldCost ≤ newCost then newCost - oldCost else 0)
  require (cost ≤ amount) (.panic "insufficient amount for LMSR cost")
  let paid ← transfer inv s r.token bettor self amount
  let grown := storeMarket paid marketId { r with yesPool := yesPool, noPool := noPool }
  pure (storeBet grown bettor marketId {
    bettor := bettor
    marketId := marketId
    outcome := outcome
    amount := amount
    claimed := false })

omit [DecidableEq Addr] in
/-- The count does not look at the votes. -/
def countOracleVotes (_ : State Addr) (_ : ℕ) (_ : Bool) : ℕ := 1

/-- The vote is recorded, and however many there are, the market is resolved. -/
def verifyMultiOracleConsensus (s : State Addr) (marketId : ℕ) (outcome : Bool) (oracle : Addr) :
    Result (State Addr) := do
  require (s.oracleVote marketId oracle).isNone (.panic "oracle already voted")
  let voted := { s with
    oracleVote := Function.update s.oracleVote marketId
      (Function.update (s.oracleVote marketId) oracle (some outcome)) }
  if countOracleVotes voted marketId outcome < 2 then pure voted else pure voted

def verifyOracles (s : State Addr) (marketId : ℕ) (r : MarketRecord Addr) (outcome : Bool)
    (oracle : Addr) : Result (State Addr) :=
  if r.resolutionRequiresMulti then verifyMultiOracleConsensus s marketId outcome oracle
  else pure s

def resolveMarket (inv : Invocation Addr self) (s : State Addr) (marketId : ℕ) (outcome : Bool)
    (outcomeProof : Hash) : Result (State Addr) := do
  requireNotPaused inv s
  let r ← expect (s.market marketId) (.panic "market not found")
  require (r.resolved = false) (.panic "market already resolved")
  require (r.resolutionDate ≤ inv.timestamp) (.panic "resolution date not reached")
  let oracle ← expect (s.resolutionOracle marketId) (.panic "oracle not set")
  requireAuth inv.toEnv oracle
  let verified ← verifyOracles s marketId r outcome oracle
  let proved := { verified with
    resolutionProof := Function.update verified.resolutionProof marketId (some outcomeProof) }
  pure (storeMarket proved marketId { r with resolved := true, outcome := some outcome })

def claimWinnings (inv : Invocation Addr self) (s : State Addr) (bettor : Addr) (marketId : ℕ) :
    Result (State Addr) := do
  requireAuth inv.toEnv bettor
  let r ← expect (s.market marketId) (.panic "market not found")
  require (r.resolved = true) (.panic "market not resolved")
  let b ← expect (s.bet marketId bettor) (.panic "bet not found")
  require (b.claimed = false) (.panic "winnings already claimed")
  let winningOutcome ← expect r.outcome (.panic "outcome not set")
  require (b.outcome = winningOutcome) (.panic "bet did not win")
  let payout ← totalPayout r winningOutcome b.amount
  let paid ← transfer inv s r.token self bettor payout
  pure (storeBet paid bettor marketId { b with claimed := true })

omit [DecidableEq Addr] in
/-- The bets stay where they are; nothing is refunded. -/
def cancelMarket (inv : Invocation Addr self) (s : State Addr) (marketId : ℕ) :
    Result (State Addr) := do
  let admin ← expect s.admin (.panic "not initialized")
  requireAuth inv.toEnv admin
  let r ← expect (s.market marketId) (.panic "market not found")
  require (r.resolved = false) (.panic "cannot cancel resolved market")
  pure (storeMarket s marketId { r with resolved := true })

/-- What others do with the tokens meanwhile: they may give to the contract, but not take from
it. -/
structure Elsewhere (Addr : Type) (home : Addr) where
  change : Addr → Addr → ℤ
  harmless : ∀ token, 0 ≤ change token home

inductive Call (Addr : Type) (home : Addr) where
  | setPauseGuardian (admin guardian : Addr)
  | createMarket (creator : Addr) (terms : Terms Addr)
  | placeBet (bettor : Addr) (marketId : ℕ) (outcome : Bool) (amount : ℤ)
  | resolveMarket (marketId : ℕ) (outcome : Bool) (outcomeProof : Hash)
  | cancelMarket (marketId : ℕ)
  | claimWinnings (bettor : Addr) (marketId : ℕ)
  | elsewhere (e : Elsewhere Addr home)

def exec (inv : Invocation Addr self) (call : Call Addr self) (s : State Addr) :
    Result (State Addr) :=
  match call with
  | .setPauseGuardian admin guardian => setPauseGuardian inv s admin guardian
  | .createMarket creator terms => createMarket inv s creator terms
  | .placeBet bettor marketId outcome amount => placeBet inv s bettor marketId outcome amount
  | .resolveMarket marketId outcome outcomeProof => resolveMarket inv s marketId outcome outcomeProof
  | .cancelMarket marketId => cancelMarket inv s marketId
  | .claimWinnings bettor marketId => claimWinnings inv s bettor marketId
  | .elsewhere e =>
      pure { s with tokens := { s.tokens with
        balance := fun t a => s.tokens.balance t a + e.change t a } }

abbrev Step (Addr : Type) (home : Addr) := Invocation Addr home × Call Addr home

def machine (home : Addr) : Machine (State Addr) (Step Addr home) Trap :=
  ⟨fun step s => exec step.1 step.2 s⟩

end Entries

/-- Before the first market, with or without an admin. -/
def launched (tokens : Tokens Addr) (admin : Option Addr) : State Addr where
  admin := admin
  marketCount := 0
  market _ := none
  bet _ _ := none
  resolutionOracle _ := none
  resolutionProof _ := none
  oracleVote _ _ := none
  pauseGuardian := none
  tokens := tokens

/-- `initialize` names the admin of a contract that has none. -/
theorem initializeMarkets_launched (tokens : Tokens Addr) (admin : Addr) :
    initializeMarkets (launched tokens none) admin = .ok (launched tokens (some admin)) := rfl

end PredictionMarket
