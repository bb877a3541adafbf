import MentorsMind.Shared.SafeMath

/-! The registry of protocol parameters: governed values that fall back to defaults. -/
namespace Shared
open Outcome Soroban

def keyMinBond : String := "MIN_BOND"
def keyMinCreditScore : String := "MIN_SCORE"
def keyInterestRateBps : String := "INT_RATE"
def keyPlatformFeeBps : String := "PLAT_FEE"
def keyCooldownDays : String := "COOLDOWN"
def keyTierBronze : String := "TIER_BRZ"
def keyTierSilver : String := "TIER_SLV"
def keyTierGold : String := "TIER_GLD"
def keySubExpiryGrace : String := "SUB_EXP"

def defaultMinCreditScore : ℕ := 600

def governanceAdminRole : String := "GOVERNANCE_ADMIN"

structure Params (Addr : Type) where
  param : String → Option ℤ
  paramKeys : Option (List String)
  rbacContract : Option Addr

variable {Addr : Type} {self : Addr}

/-- A second call changes nothing. -/
def initProtocolParams (p : Params Addr) (rbacContract : Addr) : Params Addr :=
  if p.rbacContract.isSome then p
  else { p with
    rbacContract := some rbacContract
    paramKeys := some [keyMinBond, keyMinCreditScore, keyInterestRateBps, keyPlatformFeeBps,
      keyCooldownDays, keyTierBronze, keyTierSilver, keyTierGold, keySubExpiryGrace] }

/-- `hasRole` is what the RBAC contract answers for a role and an account. -/
def setParam (env : Env Addr self) (hasRole : Addr → String → Addr → Option Bool)
    (p : Params Addr) (caller : Addr) (key : String) (value : ℤ) : Result (Params Addr) := do
  requireAuth env caller
  require (0 ≤ value) (.panic "protocol parameter values must be non-negative")
  let rbac ← expect p.rbacContract (.panic
    "protocol params not initialized — call init_protocol_params first")
  let granted ← expect (hasRole rbac governanceAdminRole caller) .subcall
  require (granted = true) (.panic "unauthorized: caller does not hold GOVERNANCE_ADMIN role")
  let keys := p.paramKeys.getD []
  pure { p with
    param := Function.update p.param key (some value)
    paramKeys := if key ∈ keys then p.paramKeys else some (keys ++ [key]) }

end Shared
