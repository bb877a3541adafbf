import MentorsMind.Shared.SafeMath

/-! Staking primitives: the records of stakes and locked rewards, the multiplier that grows
with the duration of a stake, and the penalty for unstaking early. -/
namespace Shared
open Outcome Soroban

def minStakingDurationSecs : ℕ := 14 * 24 * 60 * 60
def rewardLockupSecs : ℕ := 30 * 24 * 60 * 60
def maxScalingDurationSecs : ℕ := 365 * 24 * 60 * 60
def rewardMultiplierMinBps : ℕ := 10000
def rewardMultiplierMaxBps : ℕ := 30000
def earlyUnstakePenaltyMinBps : ℕ := 1000
def earlyUnstakePenaltyMaxBps : ℕ := 5000
def basisPoints : ℕ := 10000
def patternDetectionWindow : ℕ := 10

structure StakeRecord (Addr : Type) where
  mentor : Addr
  amount : ℤ
  stakedAt : ℕ
  unlockAt : ℕ
  unlockCooldownUntil : Option ℕ
  tier : ℕ
  deriving DecidableEq

structure RewardLockup where
  epochId : ℕ
  baseAmount : ℤ
  scaledAmount : ℤ
  multiplierBps : ℕ
  unlocksAt : ℕ
  claimed : Bool
  deriving DecidableEq

structure PenaltyCalculation where
  stakedDurationSecs : ℕ
  penaltyBps : ℕ
  penaltyAmount : ℤ
  returnedAmount : ℤ
  belowMinDuration : Bool

inductive StakingAction where
  | stake
  | unstake
  | claim
  deriving DecidableEq

structure StakingActionRecord where
  action : StakingAction
  timestamp : ℕ
  amount : ℤ
  epochId : ℕ

/-- The result of a plain `u128` operator. -/
def u128 (n : ℕ) : Result ℕ := do
  require (n < 2 ^ 128) .arithmetic
  pure n

/-- `n as i128`, of a `u128`. -/
def asI128 (n : ℕ) : ℤ := if n < 2 ^ 127 then n else n - 2 ^ 128

def computeRewardMultiplierBps (stakedDurationSecs : ℕ) : ℕ :=
  if stakedDurationSecs < minStakingDurationSecs then 0
  else if maxScalingDurationSecs ≤ stakedDurationSecs then rewardMultiplierMaxBps
  else
    let elapsed := stakedDurationSecs - minStakingDurationSecs
    let total := maxScalingDurationSecs - minStakingDurationSecs
    let range := rewardMultiplierMaxBps - rewardMultiplierMinBps
    saturatingAddU32 rewardMultiplierMinBps (elapsed * range / total)

/-- The rate of the penalty before the unlock time. -/
def penaltyBps (stakedDurationSecs : ℕ) : ℕ :=
  if minStakingDurationSecs ≤ stakedDurationSecs then earlyUnstakePenaltyMinBps
  else
    let remaining := minStakingDurationSecs - stakedDurationSecs
    let range := earlyUnstakePenaltyMaxBps - earlyUnstakePenaltyMinBps
    saturatingAddU32 earlyUnstakePenaltyMinBps (remaining * range / minStakingDurationSecs)

def computeEarlyUnstakePenalty (stakedAt currentTime originalUnlockAt : ℕ) (principal : ℤ) :
    Result PenaltyCalculation := do
  let stakedDurationSecs := currentTime - stakedAt
  let belowMinDuration : Bool := stakedDurationSecs < minStakingDurationSecs
  if originalUnlockAt ≤ currentTime ∨ principal ≤ 0 then
    pure ⟨stakedDurationSecs, 0, 0, principal, belowMinDuration⟩
  else
    let bps := penaltyBps stakedDurationSecs
    let product ← u128 (principal.toNat * bps)
    let penaltyAmount := asI128 (product / basisPoints)
    pure ⟨stakedDurationSecs, bps, penaltyAmount, saturateI128 (principal - penaltyAmount),
      belowMinDuration⟩

def applyBpsMultiplier (amount : ℤ) (bps : ℕ) : ℤ :=
  if bps = 0 ∨ amount ≤ 0 then 0
  else
    let quotient := amount / basisPoints
    let remainder := amount % basisPoints
    saturateI128 (saturateI128 (quotient * bps) + saturateI128 (remainder * bps) / basisPoints)

@[simp] theorem u128_eq_ok {n m : ℕ} : u128 n = .ok m ↔ n < 2 ^ 128 ∧ n = m := by
  simp [u128]

/-- A stake earns from the minimum duration on, and then at least its plain share. -/
theorem computeRewardMultiplierBps_cases (d : ℕ) :
    (d < minStakingDurationSecs ∧ computeRewardMultiplierBps d = 0) ∨
      (minStakingDurationSecs ≤ d ∧ rewardMultiplierMinBps ≤ computeRewardMultiplierBps d) := by
  unfold computeRewardMultiplierBps
  by_cases hmin : d < minStakingDurationSecs
  · left
    exact ⟨hmin, if_pos hmin⟩
  · right
    rw [if_neg hmin]
    refine ⟨Nat.le_of_not_lt hmin, ?_⟩
    split_ifs
    · decide
    · exact le_min (Nat.le_add_right _ _) (by decide)

theorem saturateI128_nonneg {n : ℤ} (h : 0 ≤ n) : 0 ≤ saturateI128 n := by
  unfold saturateI128
  omega

theorem applyBpsMultiplier_nonneg (amount : ℤ) (bps : ℕ) :
    0 ≤ applyBpsMultiplier amount bps := by
  unfold applyBpsMultiplier
  split_ifs with h
  · exact le_rfl
  · push Not at h
    obtain ⟨-, hamount⟩ := h
    have hquotient : 0 ≤ amount / (basisPoints : ℤ) * bps := by positivity
    have hremainder : 0 ≤ amount % (basisPoints : ℤ) * bps :=
      mul_nonneg (Int.emod_nonneg _ (by decide)) (by positivity)
    exact saturateI128_nonneg (add_nonneg (saturateI128_nonneg hquotient)
      (Int.ediv_nonneg (saturateI128_nonneg hremainder) (by decide)))

/-- Where nothing overflows, the multiplier scales the amount and rounds down. -/
theorem applyBpsMultiplier_eq {amount : ℤ} {bps : ℕ} (hbps : bps ≠ 0) (hpos : 0 < amount) :
    applyBpsMultiplier amount bps =
      saturateI128 (saturateI128 (amount / 10000 * bps) +
        saturateI128 (amount % 10000 * bps) / 10000) := by
  unfold applyBpsMultiplier
  rw [if_neg (by omega)]
  rfl

/-- That is, the scaled amount rounded down, or the largest `i128`. -/
theorem applyBpsMultiplier_eq_min {amount : ℤ} {bps : ℕ} (hbps : bps ≠ 0) (hlt : bps < 2 ^ 32)
    (hpos : 0 < amount) :
    applyBpsMultiplier amount bps = min (amount * bps / 10000) (2 ^ 127 - 1) := by
  have hsplit : amount * bps / 10000 = amount / 10000 * bps + amount % 10000 * bps / 10000 := by
    have hdiv : amount = amount % 10000 + 10000 * (amount / 10000) := by omega
    have hproduct : amount * bps =
        amount % 10000 * bps + 10000 * (amount / 10000 * bps) := by
      calc amount * bps = (amount % 10000 + 10000 * (amount / 10000)) * bps := by rw [← hdiv]
        _ = _ := by ring
    rw [hproduct, Int.add_mul_ediv_left _ _ (by norm_num), add_comm]
  have hcast : (bps : ℤ) < 2 ^ 32 := by exact_mod_cast hlt
  have hquotient : 0 ≤ amount / 10000 * (bps : ℤ) := by positivity
  have hremainder : 0 ≤ amount % 10000 * (bps : ℤ) := mul_nonneg (by omega) (by positivity)
  have hsmall : amount % 10000 * (bps : ℤ) ≤ 10000 * 2 ^ 32 :=
    mul_le_mul (by omega) hcast.le (by positivity) (by norm_num)
  rw [applyBpsMultiplier_eq hbps hpos, hsplit]
  unfold saturateI128
  omega

/-- A multiplier of at most one pays at most the amount. -/
theorem applyBpsMultiplier_le {amount : ℤ} {bps : ℕ} (hpos : 0 ≤ amount)
    (hbps : bps ≤ basisPoints) : applyBpsMultiplier amount bps ≤ amount := by
  by_cases hzero : bps = 0 ∨ amount ≤ 0
  · rw [applyBpsMultiplier, if_pos hzero]
    exact hpos
  · push Not at hzero
    obtain ⟨hne, hamount⟩ := hzero
    rw [applyBpsMultiplier_eq hne hamount]
    have hle : (bps : ℤ) ≤ 10000 := by exact_mod_cast hbps
    have hquotient : amount / 10000 * (bps : ℤ) ≤ amount / 10000 * 10000 :=
      mul_le_mul_of_nonneg_left hle (by omega)
    have hremainder : amount % 10000 * (bps : ℤ) ≤ amount % 10000 * 10000 :=
      mul_le_mul_of_nonneg_left hle (by omega)
    have hquotient' : 0 ≤ amount / 10000 * (bps : ℤ) := by positivity
    have hremainder' : 0 ≤ amount % 10000 * (bps : ℤ) := mul_nonneg (by omega) (by positivity)
    unfold saturateI128
    omega

/-- A multiplier of at least one pays at least the amount. -/
theorem le_applyBpsMultiplier {amount : ℤ} {bps : ℕ} (hfits : amount < 2 ^ 127)
    (hpos : 0 < amount) (hbps : basisPoints ≤ bps) : amount ≤ applyBpsMultiplier amount bps := by
  have hge : (10000 : ℤ) ≤ bps := by exact_mod_cast hbps
  have hne : bps ≠ 0 := by omega
  rw [applyBpsMultiplier_eq hne hpos]
  have hquotient : amount / 10000 * 10000 ≤ amount / 10000 * (bps : ℤ) :=
    mul_le_mul_of_nonneg_left hge (by omega)
  have hremainder : amount % 10000 * 10000 ≤ amount % 10000 * (bps : ℤ) :=
    mul_le_mul_of_nonneg_left hge (by omega)
  unfold saturateI128
  omega

/-- The ramp in one formula: the remaining time is zero once the minimum duration is over. -/
theorem penaltyBps_eq (d : ℕ) : penaltyBps d = 1000 + (1209600 - d) * 4000 / 1209600 := by
  unfold penaltyBps
  split_ifs with hlong
  · have hover : 1209600 - d = 0 := Nat.sub_eq_zero_of_le hlong
    rw [hover]
    rfl
  · change saturatingAddU32 1000 ((1209600 - d) * 4000 / 1209600) = _
    unfold saturatingAddU32
    omega

theorem le_penaltyBps (d : ℕ) : earlyUnstakePenaltyMinBps ≤ penaltyBps d := by
  rw [penaltyBps_eq]
  exact Nat.le_add_right _ _

theorem penaltyBps_le (d : ℕ) : penaltyBps d ≤ earlyUnstakePenaltyMaxBps := by
  rw [penaltyBps_eq, earlyUnstakePenaltyMaxBps]
  omega

/-- The rate does not rise with the time that the stake has lasted. -/
theorem penaltyBps_antitone {d e : ℕ} (h : d ≤ e) : penaltyBps e ≤ penaltyBps d := by
  rw [penaltyBps_eq, penaltyBps_eq]
  omega

/-- The penalty and what is returned make up the principal. -/
theorem computeEarlyUnstakePenalty_eq_ok {stakedAt now unlockAt : ℕ} {principal : ℤ}
    {p : PenaltyCalculation} (hfits : principal < 2 ^ 127) (hprincipal : 0 ≤ principal)
    (h : computeEarlyUnstakePenalty stakedAt now unlockAt principal = .ok p) :
    0 ≤ p.penaltyAmount ∧ 0 ≤ p.returnedAmount ∧
      p.penaltyAmount + p.returnedAmount = principal := by
  unfold computeEarlyUnstakePenalty at h
  split_ifs at h with hfree
  · simp only [pure_eq_ok] at h
    subst h
    exact ⟨le_rfl, hprincipal, zero_add _⟩
  · simp only [bind_eq_ok, u128_eq_ok, pure_eq_ok] at h
    obtain ⟨product, ⟨-, rfl⟩, rfl⟩ := h
    have hbps : penaltyBps (now - stakedAt) ≤ basisPoints :=
      (penaltyBps_le _).trans (by decide)
    have hamount : principal.toNat * penaltyBps (now - stakedAt) / basisPoints ≤
        principal.toNat := by
      refine Nat.div_le_of_le_mul ?_
      rw [Nat.mul_comm]
      exact Nat.mul_le_mul_right _ hbps
    dsimp only
    generalize principal.toNat * penaltyBps (now - stakedAt) / basisPoints = penalty at *
    have hcast : asI128 penalty = penalty := if_pos (by omega)
    rw [hcast]
    unfold saturateI128
    omega

section EarlyUnstake

/-- What the penalty is to satisfy at a time: it and what is returned make up the principal, it is
zero from the unlock time on and between a tenth and a half before, both rounded down, and it is
not more at any later time. -/
structure PenaltyLaw (stakedAt now unlockAt : ℕ) (principal : ℤ) : Prop where
  split : ∃ p, computeEarlyUnstakePenalty stakedAt now unlockAt principal = .ok p ∧
    p.penaltyAmount + p.returnedAmount = principal ∧ 0 ≤ p.penaltyAmount ∧ 0 ≤ p.returnedAmount
  free : unlockAt ≤ now → ∃ p,
    computeEarlyUnstakePenalty stakedAt now unlockAt principal = .ok p ∧ p.penaltyAmount = 0
  ramp : now < unlockAt → ∃ p,
    computeEarlyUnstakePenalty stakedAt now unlockAt principal = .ok p ∧
      principal * 1000 / 10000 ≤ p.penaltyAmount ∧ p.penaltyAmount ≤ principal * 5000 / 10000
  falls : ∀ later, now ≤ later → ∃ p q,
    computeEarlyUnstakePenalty stakedAt now unlockAt principal = .ok p ∧
      computeEarlyUnstakePenalty stakedAt later unlockAt principal = .ok q ∧
      q.penaltyAmount ≤ p.penaltyAmount

/-- The product of principal and rate fits into its type. -/
def PenaltyFits (stakedAt now unlockAt : ℕ) (principal : ℤ) : Prop :=
  unlockAt ≤ now ∨ principal * penaltyBps (now - stakedAt) < 2 ^ 128

variable {stakedAt now later unlockAt : ℕ} {principal : ℤ}

theorem PenaltyFits.of_le (h : PenaltyFits stakedAt now unlockAt principal)
    (hprincipal : 0 ≤ principal) (hlater : now ≤ later) :
    PenaltyFits stakedAt later unlockAt principal := by
  rcases h with hfree | hproduct
  · exact .inl (hfree.trans hlater)
  · right
    have hrate : (penaltyBps (later - stakedAt) : ℤ) ≤ penaltyBps (now - stakedAt) := by
      exact_mod_cast penaltyBps_antitone (Nat.sub_le_sub_right hlater stakedAt)
    exact (mul_le_mul_of_nonneg_left hrate hprincipal).trans_lt hproduct

/-- The calculation for a principal that is not negative, where the product fits. -/
theorem computeEarlyUnstakePenalty_ok (hfits : PenaltyFits stakedAt now unlockAt principal)
    (hprincipal : 0 ≤ principal) :
    ∃ p, computeEarlyUnstakePenalty stakedAt now unlockAt principal = .ok p ∧
      p.penaltyAmount =
        if unlockAt ≤ now then 0 else principal * penaltyBps (now - stakedAt) / 10000 := by
  unfold computeEarlyUnstakePenalty
  by_cases hfree : unlockAt ≤ now
  · rw [if_pos (.inl hfree), if_pos hfree]
    exact ⟨_, rfl, rfl⟩
  · rw [if_neg hfree]
    have hproduct : principal * penaltyBps (now - stakedAt) < 2 ^ 128 := hfits.resolve_left hfree
    by_cases hzero : principal ≤ 0
    · have hnone : principal = 0 := le_antisymm hzero hprincipal
      rw [if_pos (.inr hzero), hnone]
      exact ⟨_, rfl, by simp⟩
    · rw [if_neg (by tauto)]
      obtain ⟨n, rfl⟩ := Int.eq_ofNat_of_zero_le hprincipal
      have hnat : n * penaltyBps (now - stakedAt) < 2 ^ 128 := by exact_mod_cast hproduct
      have hu128 : u128 (Int.toNat n * penaltyBps (now - stakedAt)) =
          .ok (n * penaltyBps (now - stakedAt)) := u128_eq_ok.mpr ⟨hnat, rfl⟩
      dsimp only
      rw [hu128]
      refine ⟨_, rfl, ?_⟩
      have hsmall : n * penaltyBps (now - stakedAt) / basisPoints < 2 ^ 127 := by
        unfold basisPoints
        omega
      have hcast : asI128 (n * penaltyBps (now - stakedAt) / basisPoints) =
          (n * penaltyBps (now - stakedAt) / basisPoints : ℕ) := if_pos hsmall
      dsimp only
      rw [hcast]
      push_cast
      rfl

/-- A penalty is not due on what is not staked: for every principal whose product with the rate
fits, the law holds if and only if the principal is not negative. -/
theorem penaltyLaw_iff (hprincipal : principal < 2 ^ 127)
    (hfits : PenaltyFits stakedAt now unlockAt principal) :
    PenaltyLaw stakedAt now unlockAt principal ↔ 0 ≤ principal := by
  constructor
  · intro h
    obtain ⟨p, -, hsum, hpenalty, hreturned⟩ := h.split
    omega
  · intro hpos
    obtain ⟨p, hp, hpenalty⟩ := computeEarlyUnstakePenalty_ok hfits hpos
    constructor
    · obtain ⟨hnonneg, hreturned, hsum⟩ :=
        computeEarlyUnstakePenalty_eq_ok hprincipal hpos hp
      exact ⟨p, hp, hsum, hnonneg, hreturned⟩
    · intro hfree
      rw [if_pos hfree] at hpenalty
      exact ⟨p, hp, hpenalty⟩
    · intro hearly
      rw [if_neg (not_le.mpr hearly)] at hpenalty
      have hmin : (1000 : ℤ) ≤ penaltyBps (now - stakedAt) := by
        exact_mod_cast le_penaltyBps (now - stakedAt)
      have hmax : (penaltyBps (now - stakedAt) : ℤ) ≤ 5000 := by
        exact_mod_cast penaltyBps_le (now - stakedAt)
      refine ⟨p, hp, ?_, ?_⟩
      · rw [hpenalty]
        exact Int.ediv_le_ediv (by norm_num) (mul_le_mul_of_nonneg_left hmin hpos)
      · rw [hpenalty]
        exact Int.ediv_le_ediv (by norm_num) (mul_le_mul_of_nonneg_left hmax hpos)
    · intro later hlater
      obtain ⟨q, hq, hpenalty'⟩ := computeEarlyUnstakePenalty_ok (hfits.of_le hpos hlater) hpos
      refine ⟨p, q, hp, hq, ?_⟩
      rw [hpenalty, hpenalty']
      have hrate : (penaltyBps (later - stakedAt) : ℤ) ≤ penaltyBps (now - stakedAt) := by
        exact_mod_cast penaltyBps_antitone (Nat.sub_le_sub_right hlater stakedAt)
      have hamount := Int.ediv_le_ediv (c := 10000) (by norm_num)
        (mul_le_mul_of_nonneg_left hrate hpos)
      split_ifs with hlate hfree
      · exact le_rfl
      · exact Int.ediv_nonneg (mul_nonneg hpos (by positivity)) (by norm_num)
      · omega
      · exact hamount

/-- A stake of 1000 for a year, looked at after half of it. -/
theorem penaltyLaw_halfYear : PenaltyLaw 0 15768000 31536000 1000 :=
  (penaltyLaw_iff (by norm_num) (.inr (by decide))).mpr (by norm_num)

/-- A principal below zero comes back as it is. -/
theorem penaltyLaw_fails_belowZero : ¬ PenaltyLaw 0 0 1 (-1) := by
  intro h
  obtain ⟨p, hp, -, -, hreturned⟩ := h.split
  have hvalue : computeEarlyUnstakePenalty 0 0 1 (-1) =
      .ok ⟨0, 0, 0, -1, true⟩ := rfl
  rw [hvalue] at hp
  cases hp
  simp at hreturned

end EarlyUnstake

end Shared
