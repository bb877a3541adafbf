import MentorsMind.Staking.Eligibility

/-! The rewards of an epoch against what was distributed for it: the multiplier scales shares
that already add up to the whole reward, so only settlements at par keep within it. -/
namespace Staking
open Outcome Soroban Shared

section Runs

variable {Addr : Type} [DecidableEq Addr] {home : Addr}

variable (checksum : ℕ → ℤ → Hash) (balance : Addr → Addr → ℕ) (steps : List (Step Addr home))

/-- Whatever the step settles goes to a stake that was counted when the epoch closed, without
a multiplier above one; or it comes to nothing. -/
def SettlesAtPar (u : State Addr) (step : Step Addr home) : Prop :=
  ∀ staker e, step.2.settles = some staker → u.rewards.settleStart u.epochs staker ≤ e →
    e < u.rewards.settleEnd u.epochs staker →
    settlementMultiplier step.1.timestamp (u.registry.stake staker) = 0 ∨
      NoShare u.epochs staker e ∨
      (¬ TooYoung checksum balance steps staker e ∧
        settlementMultiplier step.1.timestamp (u.registry.stake staker) ≤ basisPoints)

variable {checksum balance steps}

/-- As long as settlements are at par, lockups belong to counted stakes and are not scaled
up. -/
theorem run_lockups_atPar
    (hsteps : ∀ pre step t, (machine home checksum).Executes (deployed balance) steps pre step t →
      SettlesAtPar checksum balance steps
        ((machine home checksum).run (deployed balance) pre) step)
    {pre : List (Step Addr home)} (hpre : pre <+: steps) {staker : Addr} {e : ℕ}
    {l : RewardLockup} (hl : ((machine home checksum).run (deployed balance)
      pre).rewards.stakerRewardLockup (staker, e) = some l) :
    ¬ TooYoung checksum balance steps staker e ∧ l.scaledAmount ≤ l.baseAmount := by
  have hatPar : ¬ TooYoung checksum balance steps staker e ∧ l.multiplierBps ≤ basisPoints := by
    refine run_lockups (P := fun staker e multiplier =>
      ¬ TooYoung checksum balance steps staker e ∧ multiplier ≤ basisPoints) ?_ pre hpre staker e
      l hl
    rintro pre step t hx u rfl staker e hsettles hstart hend hshare hmult
    rcases hsteps pre step t hx staker e hsettles hstart hend with hzero | hnone | hatPar
    · exact absurd hzero hmult
    · exact absurd hnone hshare
    · exact hatPar
  have hlockup := (run_consistent checksum balance pre).lockups.lockup staker e l hl
  refine ⟨hatPar.1, ?_⟩
  rw [hlockup.scaled_eq]
  exact applyBpsMultiplier_le (hlockup.base_eq ▸ hlockup.share_pos.le) hatPar.2

/-- In a run that settles at par, the rewards of each epoch stay within what was recorded for
it, in every state. -/
theorem epoch_rewards_le
    (hsteps : ∀ pre step t, (machine home checksum).Executes (deployed balance) steps pre step t →
      SettlesAtPar checksum balance steps
        ((machine home checksum).run (deployed balance) pre) step) :
    ∀ pre, pre <+: steps → ∀ e,
      ((machine home checksum).run (deployed balance) pre).rewards.epochSum
          RewardLockup.scaledAmount e ≤
        (((machine home checksum).run (deployed balance) pre).epochs.epochReward e).getD 0 := by
  intro pre hpre e
  exact epochSum_le ((run_epochsRecorded checksum balance pre).mono hpre)
    (run_consistent checksum balance pre).lockups
    (fun staker l hl => (run_lockups_atPar hsteps hpre hl).1)
    fun staker l hl => (run_lockups_atPar hsteps hpre hl).2

/-- The sum over an epoch covers each of its lockups. -/
theorem scaled_le_epochSum (checksum : ℕ → ℤ → Hash) (balance : Addr → Addr → ℕ)
    (steps : List (Step Addr home)) {staker : Addr} {e : ℕ} {l : RewardLockup}
    (hl : ((machine home checksum).run (deployed balance) steps).rewards.stakerRewardLockup
      (staker, e) = some l) :
    l.scaledAmount ≤ ((machine home checksum).run (deployed balance) steps).rewards.epochSum
      RewardLockup.scaledAmount e := by
  have hs := run_consistent checksum balance steps
  have hfinite := finite_lockups (run_epochsRecorded checksum balance steps) hs.lockups e
  have hsupport : (Function.support fun staker => (((machine home checksum).run
      (deployed balance) steps).rewards.stakerRewardLockup (staker, e)).elim 0
        RewardLockup.scaledAmount).Finite := by
    refine hfinite.subset fun other hother hnone => hother ?_
    show Option.elim _ 0 RewardLockup.scaledAmount = 0
    rw [hnone]
    rfl
  refine le_trans ?_ (single_le_finsum staker hsupport fun other => ?_)
  · rw [hl]
    exact le_rfl
  · cases hother : ((machine home checksum).run (deployed balance)
        steps).rewards.stakerRewardLockup (other, e) with
    | none => exact le_rfl
    | some l' =>
      show 0 ≤ l'.scaledAmount
      rw [(hs.lockups.lockup other e l' hother).scaled_eq]
      exact applyBpsMultiplier_nonneg _ _

end Runs

/-- A stake of 1000 alone, and a reward of 1000 for epoch 1. -/
def soleStake : List (Step ℕ 0) :=
  [(grantedByAll 0, .config (.initializeStaking 1 9 none)),
    (grantedByAll 0, .stake 3 1000 14),
    (grantedByAll day, .distributeRevenue 9 0),
    (grantedByAll (14 * day), .deposit 9 2 1000),
    (grantedByAll (14 * day), .distributeRevenue 9 1000)]

def unstakeAt (now : ℕ) : Step ℕ 0 := (grantedByAll now, .unstake 3)

/-- Unstaked as soon as it may earn, the stake is settled at par. -/
def parRun : List (Step ℕ 0) := soleStake ++ [unstakeAt (14 * day)]

theorem parRun_counted : ¬ TooYoung noDigest stakerFunds parRun 3 1 := by
  rintro ⟨now, u, record, ⟨pre, step, t, hx, hcloses, rfl, rfl, hid⟩, hstake, hyoung⟩
  obtain ⟨hpre, hstep⟩ := hx.eq_take
  -- Only the fifth step closes epoch 1.
  have honly : ∀ n < 6, (parRun[n]?.elim false fun step => step.2.closesEpoch) = true →
      ((machine 0 noDigest).run (deployed stakerFunds) (parRun.take n)).epochs.epochId = 1 →
        n = 4 := by decide +kernel
  have hfour : pre.length = 4 := by
    apply honly _ hx.length_lt
    · rw [hstep]
      exact hcloses
    · rw [← hpre]
      exact hid
  rw [hfour] at hpre hstep
  subst hpre
  obtain rfl := Option.some.inj hstep
  have hrecord : ((machine 0 noDigest).run (deployed stakerFunds)
      (parRun.take 4)).registry.stake 3 = some ⟨3, 1000, 0, 14 * day, none, 2⟩ := by
    decide +kernel
  rw [hrecord] at hstake
  obtain rfl := Option.some.inj hstake
  revert hyoung
  decide

theorem parRun_atPar (pre : List (Step ℕ 0)) (step : Step ℕ 0) (t : State ℕ)
    (hx : (machine 0 noDigest).Executes (deployed stakerFunds) parRun pre step t) :
    SettlesAtPar noDigest stakerFunds parRun
      ((machine 0 noDigest).run (deployed stakerFunds) pre) step := by
  intro staker e hsettles hstart hend
  obtain ⟨rfl, rfl⟩ := hx.eq_last (p := fun step => step.2.settles ≠ none) (by decide)
    (by rw [hsettles]; simp)
  obtain rfl : 3 = staker := Option.some.inj hsettles
  have hrange : ((machine 0 noDigest).run (deployed stakerFunds) soleStake).rewards.settleStart
        ((machine 0 noDigest).run (deployed stakerFunds) soleStake).epochs 3 = 1 ∧
      ((machine 0 noDigest).run (deployed stakerFunds) soleStake).rewards.settleEnd
        ((machine 0 noDigest).run (deployed stakerFunds) soleStake).epochs 3 = 2 := by
    decide +kernel
  obtain rfl : e = 1 := by omega
  exact .inr (.inr ⟨parRun_counted, by decide +kernel⟩)

theorem epoch_rewards_le_parRun :
    ((machine 0 noDigest).run (deployed stakerFunds) parRun).rewards.epochSum
        RewardLockup.scaledAmount 1 ≤
      (((machine 0 noDigest).run (deployed stakerFunds) parRun).epochs.epochReward 1).getD 0 :=
  epoch_rewards_le parRun_atPar parRun List.prefix_rfl 1

/-- Unstaked after a year, it is paid three times the reward. -/
def tripledRun : List (Step ℕ 0) := soleStake ++ [unstakeAt (365 * day)]

theorem tripledRun_lockup :
    ((machine 0 noDigest).run (deployed stakerFunds) tripledRun).rewards.stakerRewardLockup
      (3, 1) = some ⟨1, 1000, 3000, 30000, 395 * day, false⟩ := by
  decide +kernel

theorem tripledRun_over_reward : ¬ ∀ e,
    ((machine 0 noDigest).run (deployed stakerFunds) tripledRun).rewards.epochSum
        RewardLockup.scaledAmount e ≤
      (((machine 0 noDigest).run (deployed stakerFunds) tripledRun).epochs.epochReward e).getD 0 := by
  intro h
  have hreward : (((machine 0 noDigest).run (deployed stakerFunds)
      tripledRun).epochs.epochReward 1).getD 0 = 1000 := by decide +kernel
  have hle := (scaled_le_epochSum noDigest stakerFunds tripledRun tripledRun_lockup).trans (h 1)
  rw [hreward] at hle
  revert hle
  decide

end Staking
