import MentorsMind.Staking.LockupClock
import MentorsMind.Staking.PrincipalSafety

/-! The same epoch settled at two different times: the multiplier is that of the age of the
stake at the settlement, so the reward depends on when it is settled. -/
namespace Staking
open Outcome Soroban Shared

section Settlements

variable {Addr : Type} [DecidableEq Addr] {home : Addr} {checksum : ℕ → ℤ → Hash}
  {s t : State Addr} {staker : Addr} {e : ℕ} {rest : List (Step Addr home)}
  {step : Step Addr home}

/-- After the calls `rest` the step settles the epoch `e` for `staker`, whose stake is then
what it was before these calls. -/
structure SettlesEpoch (checksum : ℕ → ℤ → Hash) (s : State Addr) (rest : List (Step Addr home))
    (step : Step Addr home) (staker : Addr) (e : ℕ) (t : State Addr) : Prop where
  executes : (machine home checksum).exec step ((machine home checksum).run s rest) = .ok t
  settles : step.2.settles = some staker
  start_le : ((machine home checksum).run s rest).rewards.settleStart
    ((machine home checksum).run s rest).epochs staker ≤ e
  lt_end : e < ((machine home checksum).run s rest).rewards.settleEnd
    ((machine home checksum).run s rest).epochs staker
  stake_eq : ((machine home checksum).run s rest).registry.stake staker = s.registry.stake staker

/-- What is recorded of a closed epoch stays as it is. -/
theorem run_sameRow (checksum : ℕ → ℤ → Hash) (hs : Consistent s) (hclosed : e < s.epochs.epochId)
    (rest : List (Step Addr home)) :
    s.epochs.SameRow ((machine home checksum).run s rest).epochs e := by
  have hrun := run_kept checksum
    (P := fun u => e < u.epochs.epochId ∧ s.epochs.SameRow u.epochs e) hs
    ⟨hclosed, .refl _ e⟩ ?_ rest
  · exact hrun.2
  · rintro step u t hu ⟨hlt, hrow⟩ heffect
    rcases heffect.epochs_cases hu.reachable hu.epochs with ⟨-, -, -, hclosing⟩ | ⟨hid, hrows, -⟩
    · exact ⟨by rw [hclosing.epochId]; omega, hrow.trans (hclosing.other e (by omega))⟩
    · exact ⟨by rw [hid]; exact hlt, hrow.trans (hrows e)⟩

/-- The settlement locks the share of the epoch, times the multiplier of its own time. -/
theorem SettlesEpoch.lockedAmount_eq (hs : Consistent s) (hclosed : e < s.epochs.epochId)
    (h : SettlesEpoch checksum s rest step staker e t) :
    lockedAmount (t.rewards.lockups staker e) =
      lockedAmount
        (settledLockup step.1.timestamp s.epochs (s.registry.stake staker) staker e) := by
  have hu : Consistent ((machine home checksum).run s rest) := hs.run checksum rest
  have hshare := (run_sameRow checksum hs hclosed rest).epochShare_eq staker
  have hlockup : settledLockup step.1.timestamp ((machine home checksum).run s rest).epochs
        (((machine home checksum).run s rest).registry.stake staker) staker e =
      settledLockup step.1.timestamp s.epochs (s.registry.stake staker) staker e := by
    unfold settledLockup
    rw [hshare, h.stake_eq]
  have heffect := exec_effect hu.reachable.wellFormed h.executes
  rcases heffect.lockups_cases with ⟨hnone, -⟩ | ⟨other, settled, hother, hsettled, -, hlater⟩
  · rw [h.settles] at hnone
    cases hnone
  · obtain rfl : staker = other := by simpa [h.settles] using hother
    have hcreated : settled.stakerRewardLockup (staker, e) =
        settledLockup step.1.timestamp s.epochs (s.registry.stake staker) staker e := by
      rw [hsettled.lockup, if_pos ⟨rfl, h.start_le, h.lt_end⟩, hlockup,
        hu.lockups.booked.fresh _ h.start_le, Option.or_none]
    rw [← hcreated]
    exact Later.scaledAmount_eq (hlater (staker, e))

/-- Two ages of a stake earn the same for a share: both too little, or both the same whole
amount, unless an `i128` cannot hold it. -/
def ScalesAlike (share : ℤ) (d d' : ℕ) : Prop :=
  (d < minStakingDurationSecs ∧ d' < minStakingDurationSecs) ∨
    (minStakingDurationSecs ≤ d ∧ minStakingDurationSecs ≤ d' ∧
      min (share * computeRewardMultiplierBps d / 10000) (2 ^ 127 - 1) =
        min (share * computeRewardMultiplierBps d' / 10000) (2 ^ 127 - 1))

theorem computeRewardMultiplierBps_lt (d : ℕ) : computeRewardMultiplierBps d < 2 ^ 32 := by
  unfold computeRewardMultiplierBps
  split_ifs
  · decide
  · decide
  · simp only [saturatingAddU32]
    omega

omit [DecidableEq Addr] in
/-- The amounts that a live stake is given at two ages. -/
theorem lockedAmount_settledLockup_eq_iff {ep : Epochs Addr} {record : StakeRecord Addr}
    {now now' : ℕ} (hshare : 0 < epochShare ep staker e) :
    lockedAmount (settledLockup now ep (some record) staker e) =
        lockedAmount (settledLockup now' ep (some record) staker e) ↔
      ScalesAlike (epochShare ep staker e) (now - record.stakedAt) (now' - record.stakedAt) := by
  -- Below the minimum age there is no lockup, and from there on a positive amount.
  have hamount : ∀ time, (time - record.stakedAt < minStakingDurationSecs ∧
        lockedAmount (settledLockup time ep (some record) staker e) = 0) ∨
      (minStakingDurationSecs ≤ time - record.stakedAt ∧
        lockedAmount (settledLockup time ep (some record) staker e) =
          min (epochShare ep staker e *
            computeRewardMultiplierBps (time - record.stakedAt) / 10000) (2 ^ 127 - 1) ∧
        0 < lockedAmount (settledLockup time ep (some record) staker e)) := by
    intro time
    rcases computeRewardMultiplierBps_cases (time - record.stakedAt) with
      ⟨hyoung, hzero⟩ | ⟨hold, hbps⟩
    · left
      have hnone : settledLockup time ep (some record) staker e = none :=
        if_neg fun hpos => absurd hpos.2 (by simp [settlementMultiplier, hzero])
      exact ⟨hyoung, by rw [hnone]; rfl⟩
    · right
      have hmult : 0 < settlementMultiplier time (some record) :=
        lt_of_lt_of_le (by decide : 0 < rewardMultiplierMinBps) hbps
      have hscaled := epochShare_le_scaled hshare hmult.ne'
      rw [settledLockup_of_pos time hshare hmult]
      exact ⟨hold, applyBpsMultiplier_eq_min hmult.ne' (computeRewardMultiplierBps_lt _) hshare,
        hshare.trans_le hscaled⟩
  unfold ScalesAlike
  rcases hamount now with ⟨hyoung, hzero⟩ | ⟨hold, heq, hpos⟩
  · rcases hamount now' with ⟨hyoung', hzero'⟩ | ⟨hold', -, hpos'⟩
    · rw [hzero, hzero']
      exact ⟨fun _ => .inl ⟨hyoung, hyoung'⟩, fun _ => rfl⟩
    · rw [hzero]
      constructor
      · intro hsame
        exact absurd hpos' (by rw [← hsame]; exact lt_irrefl _)
      · omega
  · rcases hamount now' with ⟨hyoung', hzero'⟩ | ⟨hold', heq', -⟩
    · rw [hzero']
      constructor
      · intro hsame
        exact absurd hpos (by rw [hsame]; exact lt_irrefl _)
      · omega
    · rw [heq, heq']
      constructor
      · intro hsame
        exact .inr ⟨hold, hold', hsame⟩
      · rintro (⟨hyoung, -⟩ | ⟨-, -, hsame⟩)
        · omega
        · exact hsame

end Settlements

section Runs

variable {Addr : Type} [DecidableEq Addr] {home : Addr}

/-- Two settlements of the same closed epoch, of the same stake, lock the same amount exactly
when there is no share to scale, or no live stake, or the ages of the stake scale it alike. -/
theorem lockedAmount_eq_iff {checksum : ℕ → ℤ → Hash} {balance : Addr → Addr → ℕ}
    {steps rest rest' : List (Step Addr home)} {step step' : Step Addr home} {staker : Addr}
    {e : ℕ} {s t t' : State Addr} (hs : (machine home checksum).run (deployed balance) steps = s)
    (hclosed : e < s.epochs.epochId) (h : SettlesEpoch checksum s rest step staker e t)
    (h' : SettlesEpoch checksum s rest' step' staker e t') :
    lockedAmount (t.rewards.lockups staker e) = lockedAmount (t'.rewards.lockups staker e) ↔
      NoShare s.epochs staker e ∨ ∀ record, s.registry.stake staker = some record →
        ScalesAlike (epochShare s.epochs staker e) (step.1.timestamp - record.stakedAt)
          (step'.1.timestamp - record.stakedAt) := by
  have hsound : Consistent s := hs ▸ run_consistent checksum balance steps
  rw [h.lockedAmount_eq hsound hclosed, h'.lockedAmount_eq hsound hclosed]
  by_cases hnone : NoShare s.epochs staker e
  · have hshare : epochShare s.epochs staker e ≤ 0 :=
      not_lt.mp fun hpos => epochShare_pos_iff.mp hpos hnone
    rw [settledLockup_eq_none hshare, settledLockup_eq_none hshare]
    exact ⟨fun _ => .inl hnone, fun _ => rfl⟩
  · have hshare := epochShare_pos_iff.mpr hnone
    rw [or_iff_right hnone]
    cases hstake : s.registry.stake staker with
    | none =>
      -- Without a stake the multiplier is one at any time.
      have hlockup : ∀ time, lockedAmount (settledLockup time s.epochs none staker e) =
          applyBpsMultiplier (epochShare s.epochs staker e) rewardMultiplierMinBps := by
        intro time
        have hmult : 0 < settlementMultiplier time (none : Option (StakeRecord Addr)) := by
          show 0 < rewardMultiplierMinBps
          decide
        rw [settledLockup_of_pos time hshare hmult]
        rfl
      rw [hlockup, hlockup]
      exact ⟨fun _ _ hrecord => (nomatch hrecord), fun _ => rfl⟩
    | some record =>
      rw [lockedAmount_settledLockup_eq_iff hshare]
      constructor
      · intro hscales other hother
        obtain rfl := Option.some.inj hother
        exact hscales
      · intro hall
        exact hall record rfl

end Runs

/-- A withdrawal that leaves a lockup for epoch 1 has settled it. -/
theorem soleStake_settles {now : ℕ} (hlocked : ((machine 0 noDigest).run (deployed stakerFunds)
      (soleStake ++ [unstakeAt now])).rewards.lockups 3 1 ≠ none) :
    SettlesEpoch noDigest ((machine 0 noDigest).run (deployed stakerFunds) soleStake) []
      (unstakeAt now) 3 1
      ((machine 0 noDigest).run (deployed stakerFunds) (soleStake ++ [unstakeAt now])) := by
  have hx : (machine 0 noDigest).Executes (deployed stakerFunds) (soleStake ++ [unstakeAt now])
      soleStake (unstakeAt now)
      ((machine 0 noDigest).run (deployed stakerFunds) (soleStake ++ [unstakeAt now])) := by
    apply Machine.executes_of_run_ne
    intro heq
    rw [heq] at hlocked
    exact hlocked (by decide +kernel)
  exact {
    executes := hx.exec_eq
    settles := rfl
    start_le := by decide +kernel
    lt_end := by decide +kernel
    stake_eq := rfl }

theorem lockedAmount_eq_iff_soleStake :
    let s := (machine 0 noDigest).run (deployed stakerFunds) soleStake
    let t := (machine 0 noDigest).run (deployed stakerFunds)
      (soleStake ++ [unstakeAt (14 * day)])
    let t' := (machine 0 noDigest).run (deployed stakerFunds)
      (soleStake ++ [unstakeAt (15 * day)])
    lockedAmount (t.rewards.lockups 3 1) = lockedAmount (t'.rewards.lockups 3 1) ↔
      NoShare s.epochs 3 1 ∨ ∀ record, s.registry.stake 3 = some record →
        ScalesAlike (epochShare s.epochs 3 1) (14 * day - record.stakedAt)
          (15 * day - record.stakedAt) :=
  lockedAmount_eq_iff rfl (by decide +kernel) (soleStake_settles (by decide +kernel))
    (soleStake_settles (by decide +kernel))

/-- A withdrawal after a year locks three times what the earliest one does. -/
theorem soleStake_tripled_by_waiting :
    let s := (machine 0 noDigest).run (deployed stakerFunds) soleStake
    ∃ t t', SettlesEpoch noDigest s [] (unstakeAt (14 * day)) 3 1 t ∧
      SettlesEpoch noDigest s [] (unstakeAt (365 * day)) 3 1 t' ∧
      lockedAmount (t.rewards.lockups 3 1) = 1000 ∧ lockedAmount (t'.rewards.lockups 3 1) = 3000 :=
  ⟨_, _, soleStake_settles (by decide +kernel), soleStake_settles (by decide +kernel),
    by decide +kernel, by decide +kernel⟩

end Staking
