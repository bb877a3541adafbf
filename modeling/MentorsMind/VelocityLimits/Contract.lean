import MentorsMind.Shared.SafeMath
import MentorsMind.Soroban.Host

/-! Limits on what a user moves in a day and in a month, which depend on how well the user is known.
A payment above the limit for a single one puts the user on hold. The events are left out. -/
namespace VelocityLimits
open Outcome Soroban Shared

def daySecs : ℕ := 86400
def monthSecs : ℕ := 30 * daySecs
def unlimited : ℤ := 2 ^ 127 - 1

inductive KycLevel where
  | none
  | basic
  | enhanced
  | institutional

inductive LimitTier where
  | basic
  | enhanced
  | institutional

structure LimitConfig where
  perTxLimit : ℤ
  dailyLimit : ℤ
  monthlyLimit : ℤ

structure TxRecord where
  timestamp : ℕ
  amountUsd : ℤ
  deriving DecidableEq

/-- One field for each storage key; an absent list of payments reads as empty, an absent hold as
false and an absent time of the last reset as zero. -/
structure State (Addr : Type) where
  admin : Option Addr
  kycRegistry : Option Addr
  lastDailyReset : ℕ
  userTxs : Addr → List TxRecord
  userOnHold : Addr → Bool

def deployed (Addr : Type) : State Addr where
  admin := none
  kycRegistry := none
  lastDailyReset := 0
  userTxs _ := []
  userOnHold _ := false

/-- One invocation: the ledger, the signers and what a registry answers for a user (`none` if the
call traps). -/
structure Invocation (Addr : Type) (home : Addr) extends Env Addr home where
  getKycLevel : Addr → Addr → Option KycLevel

def tierForKyc : KycLevel → LimitTier
  | .institutional => .institutional
  | .enhanced => .enhanced
  | _ => .basic

/-- The limits of a tier. -/
def limitConfig : LimitTier → LimitConfig
  | .basic => ⟨500, 1000, 30000⟩
  | .enhanced => ⟨5000, 10000, 300000⟩
  | .institutional => ⟨unlimited, unlimited, unlimited⟩

variable {Addr : Type} {self : Addr}

def requireAdmin (inv : Invocation Addr self) (s : State Addr) : Result Unit := do
  let admin ← expect s.admin (.panic "not initialized")
  requireAuth inv.toEnv admin

def initializeLimits (inv : Invocation Addr self) (s : State Addr) (admin kycRegistry : Addr) :
    Result (State Addr) := do
  require (s.admin = none) (.panic "already initialized")
  requireAuth inv.toEnv admin
  pure { s with admin := some admin, kycRegistry := some kycRegistry, lastDailyReset := 0 }

def setKycRegistry (inv : Invocation Addr self) (s : State Addr) (kycRegistry : Addr) :
    Result (State Addr) := do
  requireAdmin inv s
  pure { s with kycRegistry := some kycRegistry }

def kycLevelFor (inv : Invocation Addr self) (s : State Addr) (user : Addr) : Result KycLevel := do
  let kycRegistry ← expect s.kycRegistry (.panic "not initialized")
  expect (inv.getKycLevel kycRegistry user) .subcall

def limitConfigFor (inv : Invocation Addr self) (s : State Addr) (user : Addr) :
    Result LimitConfig := do
  let level ← kycLevelFor inv s user
  pure (limitConfig (tierForKyc level))

section Usage

/-- The payments of the last month, and what they add up to in the last day and in the month. -/
structure Usage where
  retained : List TxRecord
  dailyUsed : ℤ
  monthlyUsed : ℤ

def saturatingAdd (a b : ℤ) : ℤ := saturateI128 (a + b)

/-- One round of the loop of `load_usage`. -/
def countTx (now : ℕ) (u : Usage) (tx : TxRecord) : Usage :=
  if now - monthSecs ≤ tx.timestamp then {
    retained := u.retained ++ [tx]
    dailyUsed :=
      if now - daySecs ≤ tx.timestamp then saturatingAdd u.dailyUsed tx.amountUsd else u.dailyUsed
    monthlyUsed := saturatingAdd u.monthlyUsed tx.amountUsd }
  else u

def loadUsage (s : State Addr) (user : Addr) (now : ℕ) : Usage :=
  (s.userTxs user).foldl (countTx now) ⟨[], 0, 0⟩

def getUsage (now : ℕ) (s : State Addr) (user : Addr) : ℤ × ℤ :=
  let usage := loadUsage s user now
  (usage.dailyUsed, usage.monthlyUsed)

end Usage

section Entries

variable [DecidableEq Addr]

def clearHold (inv : Invocation Addr self) (s : State Addr) (user : Addr) : Result (State Addr) := do
  requireAdmin inv s
  pure { s with userOnHold := Function.update s.userOnHold user false }

/-- The state and the answer, where `false` is a refusal. -/
def checkAndRecord (inv : Invocation Addr self) (s : State Addr) (user : Addr) (amountUsd : ℤ) :
    Result (State Addr × Bool) := do
  if amountUsd ≤ 0 then pure (s, false)
  else if s.userOnHold user = true then pure (s, false)
  else do
    let usage := loadUsage s user inv.timestamp
    let config ← limitConfigFor inv s user
    if config.perTxLimit < amountUsd then
      pure ({ s with userOnHold := Function.update s.userOnHold user true }, false)
    else if config.dailyLimit < saturatingAdd usage.dailyUsed amountUsd then pure (s, false)
    else if config.monthlyLimit < saturatingAdd usage.monthlyUsed amountUsd then pure (s, false)
    else
      let txs := usage.retained ++ [⟨inv.timestamp, amountUsd⟩]
      pure ({ s with userTxs := Function.update s.userTxs user txs }, true)

omit [DecidableEq Addr] in
/-- It resets no usage, which is counted over rolling windows. -/
def resetDaily (inv : Invocation Addr self) (s : State Addr) : Result (State Addr) := do
  requireAdmin inv s
  require (s.lastDailyReset = 0 ∨ saturatingAddU64 s.lastDailyReset daySecs ≤ inv.timestamp)
    (.panic "reset too early")
  pure { s with lastDailyReset := inv.timestamp }

end Entries

/-- The entry points that write, with their arguments. -/
inductive Call (Addr : Type) where
  | initializeLimits (admin kycRegistry : Addr)
  | setKycRegistry (kycRegistry : Addr)
  | clearHold (user : Addr)
  | checkAndRecord (user : Addr) (amountUsd : ℤ)
  | resetDaily

variable [DecidableEq Addr]

def exec (inv : Invocation Addr self) (call : Call Addr) (s : State Addr) : Result (State Addr) :=
  match call with
  | .initializeLimits admin kycRegistry => initializeLimits inv s admin kycRegistry
  | .setKycRegistry kycRegistry => setKycRegistry inv s kycRegistry
  | .clearHold user => clearHold inv s user
  | .checkAndRecord user amountUsd => Prod.fst <$> checkAndRecord inv s user amountUsd
  | .resetDaily => resetDaily inv s

abbrev Step (Addr : Type) (self : Addr) := Invocation Addr self × Call Addr

def machine (self : Addr) : Machine (State Addr) (Step Addr self) Trap where
  exec step := exec step.1 step.2

/-- The state after a run from deployment. -/
abbrev reached (steps : List (Step Addr self)) : State Addr :=
  (machine self).run (deployed Addr) steps

end VelocityLimits
