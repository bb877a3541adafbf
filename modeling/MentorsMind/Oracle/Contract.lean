import Mathlib.Data.List.DropRight
import MentorsMind.Lib.Median
import MentorsMind.Shared.Throttling
import MentorsMind.Soroban.Host

/-! The price oracle: feeders that submit readings into one short window for each asset, a circuit
breaker against the average of the last readings, the median of the fresh readings as the price,
and the health of a feed. Secondary sources, calendar proofs, the records of the monitors and the
part of the accountability register that decides nothing here are left out. -/
namespace Oracle
open Outcome Soroban Shared

def minFeeders : ℕ := 3
def maxPoints : ℕ := 10
def maxStalenessSecs : ℕ := 3600
def twapWindow : ℕ := 5
def defaultCbThresholdBps : ℤ := 5000
def feederIsolationDurationSecs : ℕ := 24 * 60 * 60
def oracleReorgSafeDepth : ℕ := 12

structure PricePoint (Addr : Type) where
  price : ℤ
  timestamp : ℕ
  feeder : Addr
  submittedAtLedger : ℕ
  deriving DecidableEq

structure OracleHealth where
  activeFeeders : ℕ
  lastUpdate : ℕ
  isStale : Bool

structure TwapState where
  twap : ℤ
  lastUpdated : ℕ

/-- What the register of validators keeps of a feeder and a slash looks at. -/
structure ValidatorRecord where
  reputationScore : ℕ
  ejected : Bool

inductive ViolationType where
  | missedEpoch
  | equivocation
  | transactionCensorship
  | consensusAttack
  | stakeConcentration
  deriving DecidableEq

/-- One field for each storage key; an absent list reads as the empty one. `chainIsolation` is the
time from which the isolation may be lifted. -/
structure State (Addr Asset : Type) where
  admin : Option Addr
  feeders : List Addr
  rbac : Option Addr
  cbThresholdBps : Option ℤ
  prices : Asset → List (PricePoint Addr)
  twap : Asset → Option TwapState
  chainIsolation : Option ℕ
  validator : Addr → Option ValidatorRecord

def deployed (Addr Asset : Type) : State Addr Asset where
  admin := none
  feeders := []
  rbac := none
  cbThresholdBps := none
  prices _ := []
  twap _ := none
  chainIsolation := none
  validator _ := none

/-- One invocation: the ledger, the signers, what the role contract at an address answers (`none`
when it traps), and the counter in temporary storage. -/
structure Invocation (Addr : Type) (home : Addr) extends Env Addr home where
  hasRole : Addr → String → Addr → Option Bool
  /-- How often the caller came in this ledger so far. -/
  mevInteractions : Addr → ℕ

variable {Addr Asset : Type} {self : Addr}

section Admin

/-- The entry point `initialize`, which asks for no authorisation. -/
def initializeOracle (s : State Addr Asset) (admin : Addr) : Result (State Addr Asset) := do
  require (s.admin = none) (.panic "already initialized")
  pure { s with
    admin := some admin
    feeders := []
    cbThresholdBps := some defaultCbThresholdBps }

def hasRbacRole (inv : Invocation Addr self) (s : State Addr Asset) (role : String)
    (account : Addr) : Result Bool :=
  match s.rbac with
  | some rbac => expect (inv.hasRole rbac role account) .subcall
  | none => pure false

variable [DecidableEq Addr]

/-- The role contract is asked only about others than the admin. -/
def requireAdminOrRole (inv : Invocation Addr self) (s : State Addr Asset) (caller : Addr) :
    Result Unit := do
  requireAuth inv.toEnv caller
  let admin ← expect s.admin (.panic "not initialized")
  if caller = admin then pure ()
  else do
    let granted ← hasRbacRole inv s "ORACLE_ADMIN" caller
    require (granted = true) (.panic "unauthorized")

def setRbacContract (inv : Invocation Addr self) (s : State Addr Asset) (admin rbac : Addr) :
    Result (State Addr Asset) := do
  requireAdminOrRole inv s admin
  pure { s with rbac := some rbac }

def setCircuitBreakerThreshold (inv : Invocation Addr self) (s : State Addr Asset) (admin : Addr)
    (thresholdBps : ℤ) : Result (State Addr Asset) := do
  requireAdminOrRole inv s admin
  require (100 ≤ thresholdBps ∧ thresholdBps ≤ 9000)
    (.panic "threshold_bps must be between 100 and 9000")
  pure { s with cbThresholdBps := some thresholdBps }

/-- `register_validator_safe` -/
def registerValidator (s : State Addr Asset) (validator : Addr) : State Addr Asset :=
  if (s.validator validator).isSome then s
  else { s with validator := Function.update s.validator validator (some ⟨5000, false⟩) }

def addFeeder (inv : Invocation Addr self) (s : State Addr Asset) (admin feeder : Addr) :
    Result (State Addr Asset) := do
  requireAdminOrRole inv s admin
  pure (registerValidator { s with
    feeders := if feeder ∈ s.feeders then s.feeders else s.feeders ++ [feeder] } feeder)

def removeFeeder (inv : Invocation Addr self) (s : State Addr Asset) (admin feeder : Addr) :
    Result (State Addr Asset) := do
  requireAdminOrRole inv s admin
  pure { s with feeders := s.feeders.filter (· ≠ feeder) }

def reputationPenalty : ViolationType → ℕ
  | .missedEpoch => 200
  | .equivocation => 2000
  | .stakeConcentration => 2000
  | .transactionCensorship => 5000
  | .consensusAttack => 5000

/-- An ejected validator stays ejected. -/
def applySlash (s : State Addr Asset) (validator : Addr) (violation : ViolationType) :
    Result (State Addr Asset) := do
  let record ← expect (s.validator validator) (.panic "validator not registered")
  let reputationScore := record.reputationScore - reputationPenalty violation
  let shouldEject : Bool :=
    violation = .consensusAttack ∨ violation = .equivocation ∨ reputationScore < 2000
  pure { s with
    validator := Function.update s.validator validator
      (some ⟨reputationScore, record.ejected || shouldEject⟩) }

def isValidatorEjected (s : State Addr Asset) (validator : Addr) : Bool :=
  ((s.validator validator).map ValidatorRecord.ejected).getD false

def slashFeeder (inv : Invocation Addr self) (s : State Addr Asset) (admin feeder : Addr)
    (violation : ℕ) : Result (State Addr Asset) := do
  requireAdminOrRole inv s admin
  let violationType ← expect (match violation with
    | 1 => some .missedEpoch
    | 2 => some .equivocation
    | 3 => some .transactionCensorship
    | 4 => some .consensusAttack
    | 5 => some .stakeConcentration
    | _ => none) (.panic "unknown violation type")
  let slashed ← applySlash s feeder violationType
  pure (if isValidatorEjected slashed feeder then
      { slashed with feeders := slashed.feeders.filter (· ≠ feeder) }
    else slashed)

/-- The score of the network is only reported. -/
def detectOracleConsensusAttack (inv : Invocation Addr self) (s : State Addr Asset)
    (admin attacker : Addr) : Result (State Addr Asset) := do
  requireAdminOrRole inv s admin
  applySlash s attacker .consensusAttack

def isolateOracleChain (inv : Invocation Addr self) (s : State Addr Asset) (admin : Addr) :
    Result (State Addr Asset) := do
  requireAdminOrRole inv s admin
  pure { s with
    chainIsolation := some (min (inv.timestamp + feederIsolationDurationSecs) (2 ^ 64 - 1)) }

/-- Answers without a change while the isolation may not be lifted yet. -/
def liftOracleIsolation (inv : Invocation Addr self) (s : State Addr Asset) (admin : Addr) :
    Result (State Addr Asset) := do
  requireAdminOrRole inv s admin
  match s.chainIsolation with
  | some liftEligibleAt =>
      if liftEligibleAt ≤ inv.timestamp then pure { s with chainIsolation := none } else pure s
  | none => pure s

end Admin

section Submission

/-- The largest `i128`. -/
def i128Max : ℤ := 2 ^ 127 - 1

/-- How far a price is from the average, in basis points; the product saturates. -/
def deviationBps (price twap : ℤ) : ℤ := min (|price - twap| * 10000) i128Max / twap

/-- The `inflated` of `validate_market_rate`, the only ground on which `submit_price` intervenes. -/
def marketInflated (price twap : ℤ) (maxDeviationBps : ℕ) : Bool :=
  twap < price ∧ (min maxDeviationBps 10000 : ℕ) < min (deviationBps price twap) (2 ^ 32 - 1)

/-- The circuit breaker. -/
def requireNearTwap (s : State Addr Asset) (asset : Asset) (price : ℤ) : Result Unit :=
  match s.twap asset with
  | none => pure ()
  | some state =>
      if 0 < state.twap then do
        let cbThreshold := s.cbThresholdBps.getD defaultCbThresholdBps
        require (marketInflated price state.twap cbThreshold.toNat = false)
          (.panic "MarketProtectionTriggered")
        require (deviationBps price state.twap ≤ cbThreshold)
          (.panic "price deviation exceeds circuit breaker threshold")
      else pure ()

/-- The sums of `_update_twap` over neighbouring readings: the prices weighted with the time until
the next reading, and that time. -/
def accumulate : List (PricePoint Addr) → ℤ × ℕ → ℤ × ℕ
  | current :: next :: rest, (cumulative, totalElapsed) =>
      if current.timestamp < next.timestamp then
        let elapsed := next.timestamp - current.timestamp
        accumulate (next :: rest) (min (cumulative + min (current.price * elapsed) i128Max) i128Max,
          min (totalElapsed + elapsed) (2 ^ 64 - 1))
      else accumulate (next :: rest) (cumulative, totalElapsed)
  | _, sums => sums

def updateTwap (points : List (PricePoint Addr)) (old : Option TwapState) : Option TwapState :=
  let (cumulative, totalElapsed) := accumulate (points.rtake twapWindow) (0, 0)
  match points.getLast? with
  | some last =>
      if 2 ≤ points.length ∧ totalElapsed ≠ 0 then
        some ⟨cumulative / totalElapsed, last.timestamp⟩
      else old
  | none => old

variable [DecidableEq Addr] [DecidableEq Asset]

omit [DecidableEq Asset] in
/-- `record_epoch_participation_safe` -/
def recordEpochParticipation (s : State Addr Asset) (validator : Addr) : State Addr Asset :=
  let registered := registerValidator s validator
  { registered with
    validator := Function.update registered.validator validator
      ((registered.validator validator).map fun record =>
        { record with reputationScore := min (record.reputationScore + 50) 10000 }) }

omit [DecidableEq Asset] in
/-- A registered feeder, or one with the role. -/
def requireFeeder (inv : Invocation Addr self) (s : State Addr Asset) (feeder : Addr) :
    Result Unit :=
  if feeder ∈ s.feeders then pure ()
  else do
    let granted ← hasRbacRole inv s "ORACLE_FEEDER" feeder
    require (granted = true) (.panic "unauthorized feeder")

/-- The oldest readings make room. The timestamp is the feeder's own. -/
def submitPrice (inv : Invocation Addr self) (s : State Addr Asset) (feeder : Addr)
    (asset : Asset) (price : ℤ) (timestamp : ℕ) : Result (State Addr Asset) := do
  requireAuth inv.toEnv feeder
  requireFeeder inv s feeder
  require (0 < price) (.panic "price must be positive")
  let interactions ← u32 (inv.mevInteractions feeder + 1)
  require (enforceProtocolIsolation (arbitrageRiskScore interactions) = true)
    (.panic "protocol isolation: MEV arbitrage detected")
  require (s.chainIsolation.isNone = true)
    (.panic "oracle chain isolated; submissions temporarily blocked")
  requireNearTwap s asset price
  let reading : PricePoint Addr := ⟨price, timestamp, feeder, inv.sequence⟩
  let points := (s.prices asset ++ [reading]).rtake maxPoints
  pure (recordEpochParticipation { s with
    prices := Function.update s.prices asset points
    twap := Function.update s.twap asset (updateTwap points (s.twap asset)) } feeder)

end Submission

section Pricing

/-- The readings that are not stale at the time `now`. -/
def timely (now : ℕ) (points : List (PricePoint Addr)) : List (PricePoint Addr) :=
  points.filter fun p => now - p.timestamp ≤ maxStalenessSecs

/-- The `fresh` of `get_price`: not stale, and submitted enough ledgers ago. -/
def fresh (now ledger : ℕ) (points : List (PricePoint Addr)) : List (PricePoint Addr) :=
  (timely now points).filter fun p => oracleReorgSafeDepth ≤ ledger - p.submittedAtLedger

/-- The latest timestamp, and zero when there is none. -/
def lastTimestamp (points : List (PricePoint Addr)) : ℕ :=
  points.foldl (fun last p => if last < p.timestamp then p.timestamp else last) 0

/-- The readings that outlier rejection leaves. -/
def inliers (med : ℤ) (points : List (PricePoint Addr)) : List (PricePoint Addr) :=
  points.filter fun p => |p.price - med| ≤ med

def prices (points : List (PricePoint Addr)) : List ℤ := points.map PricePoint.price

def median (values : List ℤ) : Result ℤ := expect values.upperMedian (.panic "median of empty")

variable [DecidableEq Addr]

def countDistinctFeeders (points : List (PricePoint Addr)) : ℕ :=
  (points.map PricePoint.feeder).dedup.length

/-- The price and the latest timestamp of the readings it comes from. -/
def getPrice (now ledger : ℕ) (points : List (PricePoint Addr)) : Result (ℤ × ℕ) := do
  let readings := fresh now ledger points
  require (readings ≠ []) (.panic "no prices")
  require (minFeeders ≤ countDistinctFeeders readings) (.panic "not enough feeders")
  let med ← median (prices readings)
  require (inliers med readings ≠ []) (.panic "no prices after outlier rejection")
  let price ← median (prices (inliers med readings))
  pure (price, lastTimestamp readings)

/-- The depth of the ledger plays no role here. -/
def getOracleHealth (now : ℕ) (points : List (PricePoint Addr)) : OracleHealth where
  activeFeeders := countDistinctFeeders (timely now points)
  lastUpdate := lastTimestamp points
  isStale := maxStalenessSecs < now - lastTimestamp points

end Pricing

/-- The entry points that write, with their arguments. -/
inductive Call (Addr Asset : Type) where
  | initializeOracle (admin : Addr)
  | setRbacContract (admin rbac : Addr)
  | setCircuitBreakerThreshold (admin : Addr) (thresholdBps : ℤ)
  | addFeeder (admin feeder : Addr)
  | removeFeeder (admin feeder : Addr)
  | slashFeeder (admin feeder : Addr) (violation : ℕ)
  | detectOracleConsensusAttack (admin attacker : Addr)
  | isolateOracleChain (admin : Addr)
  | liftOracleIsolation (admin : Addr)
  | submitPrice (feeder : Addr) (asset : Asset) (price : ℤ) (timestamp : ℕ)

variable [DecidableEq Addr] [DecidableEq Asset]

def exec (inv : Invocation Addr self) (call : Call Addr Asset) (s : State Addr Asset) :
    Result (State Addr Asset) :=
  match call with
  | .initializeOracle admin => initializeOracle s admin
  | .setRbacContract admin rbac => setRbacContract inv s admin rbac
  | .setCircuitBreakerThreshold admin thresholdBps =>
      setCircuitBreakerThreshold inv s admin thresholdBps
  | .addFeeder admin feeder => addFeeder inv s admin feeder
  | .removeFeeder admin feeder => removeFeeder inv s admin feeder
  | .slashFeeder admin feeder violation => slashFeeder inv s admin feeder violation
  | .detectOracleConsensusAttack admin attacker => detectOracleConsensusAttack inv s admin attacker
  | .isolateOracleChain admin => isolateOracleChain inv s admin
  | .liftOracleIsolation admin => liftOracleIsolation inv s admin
  | .submitPrice feeder asset price timestamp => submitPrice inv s feeder asset price timestamp

abbrev Step (Addr Asset : Type) (self : Addr) := Invocation Addr self × Call Addr Asset

/-- The deployed contract. -/
def machine (Asset : Type) [DecidableEq Asset] (self : Addr) :
    Machine (State Addr Asset) (Step Addr Asset self) Trap where
  exec step := exec step.1 step.2

/-- The state after a run from deployment. -/
abbrev reached (steps : List (Step Addr Asset self)) : State Addr Asset :=
  (machine Asset self).run (deployed Addr Asset) steps

end Oracle
