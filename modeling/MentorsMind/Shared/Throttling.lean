import Mathlib

/-! The throttles that several contracts share: the requests of a caller and of everybody, the
velocity of a token, the risk that a caller who comes back within one ledger is after an atomic
arbitrage, and small payments that evade fees. -/
namespace Shared

def defaultMaxRequestsPerMinute : ℕ := 30
def emergencyThrottleRate : ℕ := 5
def mevArbitrageRiskThreshold : ℕ := 75

def checkEmergencyTrigger (globalRequests : ℕ) : Bool := 500 < globalRequests

/-- The `allowed` of `manage_session_load`. -/
def sessionLoadAllowed (recentRequests : ℕ) (isEmergency : Bool) : Bool :=
  recentRequests < if isEmergency then emergencyThrottleRate else defaultMaxRequestsPerMinute

/-- The `risk_score` of `detect_atomic_arbitrage`. -/
def arbitrageRiskScore (recentInteractions : ℕ) : ℕ :=
  (if 3 ≤ recentInteractions then 50 else 0) + if 5 ≤ recentInteractions then 40 else 0

/-- The `stabilization_required` of `assess_token_velocity`: the product saturates in a `u128` and
the quotient is cut to a `u32`. -/
def stabilizationRequired (circulatingSupply observedVolume : ℤ) (concentrationBps : ℕ) : Bool :=
  let velocityBps :=
    if 0 < circulatingSupply ∧ 0 < observedVolume then
      min (observedVolume.toNat * 10000) (2 ^ 128 - 1) / circulatingSupply.toNat % 2 ^ 32
    else 0
  let risk := (if 2500 < velocityBps then 35 else 0) + (if 3000 < concentrationBps then 35 else 0) +
    if 5000 < velocityBps then 20 else 0
  70 ≤ min risk 100

def enforceProtocolIsolation (riskScore : ℕ) : Bool := riskScore < mevArbitrageRiskThreshold

/-- The `is_evading` of `detect_fee_gaming`. -/
def isEvading (recentTransactions : ℕ) (totalVolume : ℤ) : Bool :=
  20 < recentTransactions && totalVolume < 500000

end Shared
