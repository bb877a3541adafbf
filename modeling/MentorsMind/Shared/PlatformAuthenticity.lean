import MentorsMind.Shared.Integrity

/-! The penalties for low fees and for evaded ones. -/
namespace Shared
open Outcome Soroban

def feeEvasionToleranceBps : ℤ := 2000

inductive PenaltyTier where
  | none
  | warning
  | temporarySuspension
  | permanentBan
  | permanent
  deriving DecidableEq

/-- The `penalty_tier` of `detect_platform_bypass`. -/
def CollusionResult.penaltyTier (result : CollusionResult) : PenaltyTier :=
  if maxLowFeeSessionsPerPair * 2 < result.lowFeeCount then .permanentBan
  else if result.isColluding = true then .temporarySuspension
  else if result.lowFeeCount = maxLowFeeSessionsPerPair then .warning
  else .none

/-- The tier that `detect_fee_evasion` answers. The deviation is cut down to a `u32`. -/
def detectFeeEvasion (expectedAverageFee actualAverageFee : ℤ) : Result PenaltyTier := do
  if expectedAverageFee = 0 ∨ expectedAverageFee ≤ actualAverageFee then
    pure .none
  else
    let diff ← i128 (expectedAverageFee - actualAverageFee)
    let deviationBps := ((saturateI128 (diff * 10000)).tdiv expectedAverageFee) % 2 ^ 32
    pure (if 8000 ≤ deviationBps then .permanent
      else if 5000 < deviationBps then .temporarySuspension
      else if feeEvasionToleranceBps < deviationBps then .warning
      else .none)

end Shared
