import MentorsMind.Staking.Lockups

/-! Which stakers an epoch pays: a settlement can reward a stake that was too young to be
counted when the epoch closed, and exactly then the shares of an epoch can exceed its reward. -/
namespace Staking
open Outcome Soroban Shared

variable {Addr : Type} [DecidableEq Addr] {home : Addr}

/-- The stake of `staker` was not counted in the eligible total when the epoch `e` closed. -/
def TooYoung (checksum : ℕ → ℤ → Hash) (balance : Addr → Addr → ℕ)
    (steps : List (Step Addr home)) (staker : Addr) (e : ℕ) : Prop :=
  ∃ now u record, ClosedAt checksum balance steps e now u ∧
    u.registry.stake staker = some record ∧ isEligible now record = false

/-- The sum of `w` over the lockups of all stakers for the epoch `e`. -/
noncomputable def Rewards.epochSum (r : Rewards Addr) (w : RewardLockup → ℤ) (e : ℕ) : ℤ :=
  ∑ᶠ staker, (r.stakerRewardLockup (staker, e)).elim 0 w

section Shares

variable {checksum : ℕ → ℤ → Hash} {balance : Addr → Addr → ℕ} {steps : List (Step Addr home)}
  {s : State Addr} {e : ℕ}

/-- Only stakers of the time when the epoch closed have a lockup for it. -/
theorem finite_lockups (hrecorded : EpochsRecorded checksum balance steps s)
    (hlockups : LockupsSound s) (e : ℕ) :
    {staker | s.rewards.stakerRewardLockup (staker, e) ≠ none}.Finite := by
  by_cases he : e < s.epochs.epochId
  · obtain ⟨now, u, -, hu, hrow⟩ := hrecorded.row e he
    refine hu.finite.subset fun staker hstaker => ?_
    obtain ⟨l, hl⟩ := Option.ne_none_iff_exists'.mp hstaker
    obtain ⟨n, -, -, hn, -⟩ := epochShare_eq (hlockups.lockup staker e l hl).share_pos
    obtain ⟨record, hstake, -⟩ := hrow.snapshot staker n hn
    have hpos := (hu.record staker record hstake).2.1
    show stakedAmount (u.registry.stake staker) ≠ 0
    rw [hstake]
    exact hpos.ne'
  · refine Set.Finite.subset Set.finite_empty fun staker hstaker => ?_
    obtain ⟨l, hl⟩ := Option.ne_none_iff_exists'.mp hstaker
    exact absurd (hrecorded.sound.lt_of_share (hlockups.lockup staker e l hl).share_pos) he

theorem reward_nonneg (hrecorded : EpochsRecorded checksum balance steps s) (e : ℕ) :
    0 ≤ (s.epochs.epochReward e).getD 0 := by
  by_cases he : e < s.epochs.epochId
  · obtain ⟨now, u, -, hu, hrow⟩ := hrecorded.row e he
    obtain ⟨amount, hamount, hnonneg⟩ := hrow.reward
    rw [hamount]
    exact hnonneg
  · rw [(hrecorded.sound.openFrom e (not_lt.mp he)).reward]
    exact le_rfl

/-- Where every lockup of an epoch belongs to a stake that was counted, amounts up to the
base amounts add up to no more than the reward. -/
theorem epochSum_le (hrecorded : EpochsRecorded checksum balance steps s)
    (hlockups : LockupsSound s) {w : RewardLockup → ℤ}
    (hcounted : ∀ staker l, s.rewards.stakerRewardLockup (staker, e) = some l →
      ¬ TooYoung checksum balance steps staker e)
    (hw : ∀ staker l, s.rewards.stakerRewardLockup (staker, e) = some l → w l ≤ l.baseAmount) :
    s.rewards.epochSum w e ≤ (s.epochs.epochReward e).getD 0 := by
  by_cases hnone : ∀ staker, s.rewards.stakerRewardLockup (staker, e) = none
  · have hzero : s.rewards.epochSum w e = 0 := by simp [Rewards.epochSum, hnone]
    rw [hzero]
    exact reward_nonneg hrecorded e
  · push Not at hnone
    obtain ⟨a, ha⟩ := hnone
    obtain ⟨la, hla⟩ := Option.ne_none_iff_exists'.mp ha
    have hshare := (hlockups.lockup a e la hla).share_pos
    obtain ⟨-, D, R, -, hD, hR, hDpos, -, hRpos, -⟩ := epochShare_eq hshare
    obtain ⟨now, u, hclosed, hu, hrow⟩ :=
      hrecorded.row e (hrecorded.sound.lt_of_share hshare)
    have hfinite := finite_lockups hrecorded hlockups e
    -- The shares are taken over the stakers that have a lockup, all of whom were counted.
    have hsnapshot : ∀ staker ∈ hfinite.toFinset, ∃ l,
        s.rewards.stakerRewardLockup (staker, e) = some l ∧
        s.epochs.epochStakerSnapshot (e, staker) =
          some ((s.epochs.epochStakerSnapshot (e, staker)).getD 0) ∧
        l.baseAmount = (s.epochs.epochStakerSnapshot (e, staker)).getD 0 * R / D := by
      intro staker hstaker
      obtain ⟨l, hl⟩ := Option.ne_none_iff_exists'.mp (hfinite.mem_toFinset.mp hstaker)
      have hlockup := hlockups.lockup staker e l hl
      obtain ⟨n, D', R', hn, hD', hR', -, -, -, -, heq⟩ := epochShare_eq hlockup.share_pos
      obtain rfl : D = D' := Option.some.inj (hD.symm.trans hD')
      obtain rfl : R = R' := Option.some.inj (hR.symm.trans hR')
      refine ⟨l, hl, ?_, ?_⟩
      · rw [hn]
        rfl
      · rw [hlockup.base_eq, heq, hn]
        rfl
    rw [hR, Option.getD_some]
    refine Shares.finsum_le hRpos.le hDpos (hrow.sum_snapshot_le hu hD
      (fun staker hstaker => (hsnapshot staker hstaker).choose_spec.2.1) ?_) ?_ ?_
    · intro staker hstaker record hstake
      obtain ⟨l, hl, -⟩ := hsnapshot staker hstaker
      by_contra hyoung
      exact hcounted staker l hl ⟨now, u, record, hclosed, hstake, by simpa using hyoung⟩
    · intro staker hstaker
      rw [Finset.mem_coe, hfinite.mem_toFinset]
      intro hempty
      exact hstaker (by simp [hempty])
    · intro staker hstaker
      obtain ⟨l, hl, -, hbase⟩ := hsnapshot staker hstaker
      rw [hl, ← hbase]
      exact hw staker l hl

end Shares

section Persistence

variable {inv : Invocation Addr home} {call : Call Addr} {s t : State Addr}
  {checksum : ℕ → ℤ → Hash}

/-- A settlement creates the lockups of the epochs that it covers. -/
theorem Effect.lockup_created (h : Effect inv s t call) {staker : Addr}
    {e : ℕ} (hsettles : call.settles = some staker)
    (hstart : s.rewards.settleStart s.epochs staker ≤ e)
    (hend : e < s.rewards.settleEnd s.epochs staker) {l : RewardLockup}
    (hl : settledLockup inv.timestamp s.epochs (s.registry.stake staker) staker e = some l) :
    ∃ l', t.rewards.stakerRewardLockup (staker, e) = some l' ∧
      l'.baseAmount = l.baseAmount ∧ l'.scaledAmount = l.scaledAmount := by
  rcases h.lockups_cases with ⟨hnone, -⟩ | ⟨other, settled, hother, hsettled, -, hlater⟩
  · rw [hsettles] at hnone
    exact absurd hnone (by simp)
  · obtain rfl : staker = other := by simpa [hsettles] using hother
    refine (hlater (staker, e)).exists_of_some ?_
    rw [hsettled.lockup, if_pos ⟨rfl, hstart, hend⟩, hl, Option.some_or]

/-- A lockup was there before, or the call settles its epoch. -/
theorem Effect.old_or_new (h : Effect inv s t call) {staker : Addr} {e : ℕ} {l : RewardLockup}
    (hl : t.rewards.stakerRewardLockup (staker, e) = some l) :
    (∃ l₀, s.rewards.stakerRewardLockup (staker, e) = some l₀ ∧
        l.multiplierBps = l₀.multiplierBps) ∨
      (call.settles = some staker ∧ s.rewards.settleStart s.epochs staker ≤ e ∧
        e < s.rewards.settleEnd s.epochs staker ∧ ¬ NoShare s.epochs staker e ∧
        l.multiplierBps = settlementMultiplier inv.timestamp (s.registry.stake staker)) := by
  rcases h.lockups_cases with ⟨-, hsame, -⟩ | ⟨other, settled, hother, hsettled, -, hlater⟩
  · exact .inl ⟨l, by rw [← hsame, hl], rfl⟩
  · obtain ⟨l', hl', -, -, hmult⟩ := (hlater (staker, e)).amounts hl
    rw [hsettled.lockup] at hl'
    split_ifs at hl' with hcovered
    · obtain ⟨hstaker, hge, hlt⟩ := hcovered
      have heq : staker = other := hstaker
      subst heq
      rcases Option.or_eq_some_iff.mp hl' with hnew | ⟨-, hold⟩
      · right
        obtain ⟨hshare, -, -, hmult', -⟩ := settledLockup_eq_some hnew
        exact ⟨hother, hge, hlt, epochShare_pos_iff.mp hshare, hmult.trans hmult'⟩
      · exact .inl ⟨l', hold, hmult⟩
    · exact .inl ⟨l', hl', hmult⟩

omit [DecidableEq Addr] in
theorem settlementMultiplier_cases (now : ℕ) (record : Option (StakeRecord Addr)) :
    settlementMultiplier now record = 0 ∨ basisPoints ≤ settlementMultiplier now record := by
  cases record with
  | none => exact .inr le_rfl
  | some record =>
    obtain ⟨-, hzero⟩ | ⟨-, hle⟩ := computeRewardMultiplierBps_cases (now - record.stakedAt)
    · exact .inl hzero
    · exact .inr hle

omit [DecidableEq Addr] in
/-- A settlement that gives something gives at least the plain share. -/
theorem epochShare_le_scaled {ep : Epochs Addr} {staker : Addr} {e now : ℕ}
    {record : Option (StakeRecord Addr)} (hshare : 0 < epochShare ep staker e)
    (hmult : settlementMultiplier now record ≠ 0) :
    epochShare ep staker e ≤
      applyBpsMultiplier (epochShare ep staker e) (settlementMultiplier now record) := by
  obtain ⟨n, D, R, -, -, -, hDpos, -, -, hfits, heq⟩ := epochShare_eq hshare
  have hbps := (settlementMultiplier_cases now record).resolve_left hmult
  exact le_applyBpsMultiplier (heq ▸ Int.ediv_lt_of_lt_mul hDpos hfits) hshare hbps

end Persistence

section Runs

variable (checksum : ℕ → ℤ → Hash) (balance : Addr → Addr → ℕ) (steps : List (Step Addr home))

/-- No stake that was too young when an epoch closed has a positive reward for it, and the
base amounts of an epoch stay within its reward. -/
structure EligibilityConsistent (s : State Addr) : Prop where
  tooYoung : ∀ e staker l, TooYoung checksum balance steps staker e →
    s.rewards.stakerRewardLockup (staker, e) = some l → l.scaledAmount ≤ 0
  base_le : ∀ e, s.rewards.epochSum RewardLockup.baseAmount e ≤
    (s.epochs.epochReward e).getD 0

/-- Where the step settles an epoch for a stake that was too young when the epoch closed, the
stake is still too young to earn, or its share is less than a unit. -/
def SettlesCountedOnly (u : State Addr) (step : Step Addr home) : Prop :=
  ∀ staker e, step.2.settles = some staker → u.rewards.settleStart u.epochs staker ≤ e →
    e < u.rewards.settleEnd u.epochs staker → TooYoung checksum balance steps staker e →
    settlementMultiplier step.1.timestamp (u.registry.stake staker) = 0 ∨
      NoShare u.epochs staker e

variable {checksum balance steps}

/-- What holds of every settlement that gives something holds of every lockup. -/
theorem run_lockups {P : Addr → ℕ → ℕ → Prop}
    (hsteps : ∀ pre step t, (machine home checksum).Executes (deployed balance) steps pre step t →
      ∀ u, (machine home checksum).run (deployed balance) pre = u → ∀ staker e,
        step.2.settles = some staker → u.rewards.settleStart u.epochs staker ≤ e →
        e < u.rewards.settleEnd u.epochs staker → ¬ NoShare u.epochs staker e →
        settlementMultiplier step.1.timestamp (u.registry.stake staker) ≠ 0 →
        P staker e (settlementMultiplier step.1.timestamp (u.registry.stake staker))) :
    ∀ pre, pre <+: steps → ∀ staker e l,
      ((machine home checksum).run (deployed balance) pre).rewards.stakerRewardLockup
        (staker, e) = some l → P staker e l.multiplierBps := by
  refine Machine.run_invariant_of_executes (P := fun s : State Addr => ∀ staker e l,
    s.rewards.stakerRewardLockup (staker, e) = some l → P staker e l.multiplierBps)
    (fun _ _ _ hl => nomatch hl) ?_
  intro pre step t hx hpre staker e l hl
  have hs := run_consistent checksum balance pre
  have heffect := exec_effect hs.reachable.wellFormed hx.exec_eq
  rcases heffect.old_or_new hl with ⟨l₀, hold, hmult⟩ | ⟨hsettles, hstart, hend, hshare, hmult⟩
  · rw [hmult]
    exact hpre staker e l₀ hold
  · have hpos := ((hs.of_effect heffect).lockups.lockup staker e l hl).multiplier_pos
    rw [hmult] at hpos ⊢
    exact hsteps pre step t hx _ rfl staker e hsettles hstart hend hshare hpos.ne'

/-- As long as settlements keep to counted stakes, so do the lockups. -/
theorem run_lockups_counted
    (hsteps : ∀ pre step t, (machine home checksum).Executes (deployed balance) steps pre step t →
      SettlesCountedOnly checksum balance steps
        ((machine home checksum).run (deployed balance) pre) step) :
    ∀ pre, pre <+: steps → ∀ staker e l,
      ((machine home checksum).run (deployed balance) pre).rewards.stakerRewardLockup
        (staker, e) = some l → ¬ TooYoung checksum balance steps staker e := by
  apply run_lockups (P := fun staker e _ => ¬ TooYoung checksum balance steps staker e)
  rintro pre step t hx u rfl staker e hsettles hstart hend hshare hmult hyoung
  rcases hsteps pre step t hx staker e hsettles hstart hend hyoung with hzero | hnone
  · exact hmult hzero
  · exact hshare hnone

/-- The eligibility law holds in every state of a run exactly if every settlement in the run
gives a stake that was not counted nothing. -/
theorem eligibility_iff :
    (∀ pre, pre <+: steps → EligibilityConsistent checksum balance steps
        ((machine home checksum).run (deployed balance) pre)) ↔
      ∀ pre step t, (machine home checksum).Executes (deployed balance) steps pre step t →
        SettlesCountedOnly checksum balance steps
          ((machine home checksum).run (deployed balance) pre) step := by
  constructor
  · intro hlaw pre step t hx staker e hsettles hstart hend hyoung
    by_contra hbad
    push Not at hbad
    obtain ⟨hmult, hshare⟩ := hbad
    have hs := run_consistent checksum balance pre
    have hpos := epochShare_pos_iff.mpr hshare
    have hscaled := epochShare_le_scaled hpos hmult
    have hcreated := settledLockup_of_pos step.1.timestamp hpos (Nat.pos_of_ne_zero hmult)
    obtain ⟨l, hl, -, hlscaled⟩ := (exec_effect hs.reachable.wellFormed hx.exec_eq).lockup_created
      hsettles hstart hend hcreated
    rw [← hx.run_eq] at hl
    have hle := (hlaw _ hx.snoc_prefix).tooYoung e staker l hyoung hl
    rw [hlscaled] at hle
    exact absurd (hpos.trans_le hscaled) (not_lt.mpr hle)
  · intro hsteps pre hpre
    have hcounted := run_lockups_counted hsteps pre hpre
    have hs := run_consistent checksum balance pre
    refine ⟨fun e staker l hyoung hl => absurd hyoung (hcounted staker e l hl), fun e => ?_⟩
    exact epochSum_le ((run_epochsRecorded checksum balance pre).mono hpre) hs.lockups
      (fun staker l hl => hcounted staker e l hl) fun _ _ _ => le_rfl

end Runs

/-- Token balances outside the contract at address 0. -/
def stakerFunds (_ holder : ℕ) : ℕ := if holder = 0 then 0 else 100000

def noDigest (_ : ℕ) (_ : ℤ) : Hash := 0

def day : ℕ := 86400

/-- Epoch 1 closes when the stake of 3 counts and the ten times larger stake of 4 does not;
4 unstakes four days later. -/
def youngStakeRun : List (Step ℕ 0) :=
  [(grantedByAll 0, .config (.initializeStaking 1 9 none)),
    (grantedByAll 0, .stake 3 100 14),
    (grantedByAll (5 * day), .stake 4 1000 14),
    (grantedByAll (5 * day), .distributeRevenue 9 0),
    (grantedByAll (15 * day), .deposit 9 2 100),
    (grantedByAll (15 * day), .distributeRevenue 9 100),
    (grantedByAll (19 * day), .unstake 4)]

/-- The reward of 100 is shared by 3 alone, and yet 4 is given 1000 of it. -/
theorem youngStakeRun_rewarded :
    ¬ EligibilityConsistent noDigest stakerFunds youngStakeRun
      ((machine 0 noDigest).run (deployed stakerFunds) youngStakeRun) := by
  intro h
  have hclosed : ClosedAt noDigest stakerFunds youngStakeRun 1 (15 * day)
      ((machine 0 noDigest).run (deployed stakerFunds) (youngStakeRun.take 5)) := by
    refine ⟨youngStakeRun.take 5, (grantedByAll (15 * day), .distributeRevenue 9 100), _,
      (Machine.executes_of_run_ne ?_).mono ⟨_, rfl⟩, rfl, rfl, rfl, by decide +kernel⟩
    intro heq
    have hid := congrArg (fun s => s.epochs.epochId) heq
    revert hid
    decide +kernel
  have hyoung : TooYoung noDigest stakerFunds youngStakeRun 4 1 :=
    ⟨_, _, ⟨4, 1000, 5 * day, 19 * day, none, 2⟩, hclosed, by decide +kernel, by decide⟩
  have hlockup : ((machine 0 noDigest).run (deployed stakerFunds)
      youngStakeRun).rewards.stakerRewardLockup (4, 1) =
        some ⟨1, 1000, 1000, 10000, 49 * day, false⟩ := by decide +kernel
  have hle := h.tooYoung 1 4 _ hyoung hlockup
  revert hle
  decide

end Staking

/-! What a snapshot of the stakes captures: the records of the list that an older version of
the contract kept, which is gone, and so nothing. -/
namespace Staking
open Outcome Soroban Shared

variable {Addr : Type} [DecidableEq Addr] {home : Addr}

/-- The snapshot `id` of the state holds one record for each stake, with its amount, and none
besides; and the verification against it finds no mismatch. -/
structure SnapshotComplete (s : State Addr) (id : ℕ) : Prop where
  captured : ∃ snaps, s.recovery.stakeSnapshot id = some snaps ∧ ∀ staker,
    (snaps.filter fun snap => snap.mentor = staker).map StakeRecord.amount =
      ((s.registry.stake staker).map StakeRecord.amount).toList
  verified : ∃ report, verifyPostUpgradeState s.registry s.recovery id = .ok report ∧
    report.mismatches = []

variable {inv : Invocation Addr home} {s t : State Addr} {admin : Addr} {id : ℕ}
  {checksum : ℕ → ℤ → Hash}

/-- As the old list is gone, a snapshot captures no record. -/
theorem snapshotState_captures {c : Config Addr} {reg : Registry Addr} {r r' : Recovery Addr}
    (hlist : reg.stakers = none)
    (h : snapshotState inv checksum c reg r admin id = .ok r') :
    r'.stakeSnapshot id = some [] ∧
      ∃ record, r'.stakeSnapshotMeta id = some record ∧ record.recordCount = 0 := by
  simp only [snapshotState, hlist, bind_eq_ok, pure_eq_ok] at h
  obtain ⟨-, -, rfl⟩ := h
  simp

omit [DecidableEq Addr] in
/-- Nobody has a stake exactly if the index is empty. -/
theorem Registry.Sound.stakerCount_eq_zero_iff {r : Registry Addr} (hr : r.Sound) :
    r.stakerCount = 0 ↔ ∀ staker, r.stake staker = none := by
  constructor
  · intro hzero staker
    by_contra hstake
    obtain ⟨record, hrecord⟩ := Option.ne_none_iff_exists'.mp hstake
    obtain ⟨i, hi, -⟩ := hr.occupant_of_stake hrecord
    omega
  · intro hnone
    by_contra hpos
    have htaken : (r.stakerAt 0).isSome := (hr.index.isSome_iff 0).mpr (Nat.pos_of_ne_zero hpos)
    obtain ⟨staker, hstaker⟩ := Option.isSome_iff_exists.mp htaken
    have hposition : r.stakerIndex staker = some 0 := (hr.index.entry_iff 0 staker).mp hstaker
    have hlisted := (hr.listed staker).mp (by rw [hposition]; rfl)
    rw [hnone staker] at hlisted
    cases hlisted

/-- In any reachable state a snapshot is complete exactly if nobody has a stake. -/
theorem snapshotComplete_iff {balance : Addr → Addr → ℕ} {steps : List (Step Addr home)}
    (hs : (machine home checksum).run (deployed balance) steps = s)
    (hx : (machine home checksum).exec (inv, .recovery (.snapshotState admin id)) s = .ok t) :
    SnapshotComplete t id ↔ ∀ staker, s.registry.stake staker = none := by
  have hsound : Consistent s := hs ▸ run_consistent checksum balance steps
  have hreg := hsound.reachable.registry
  have hx' : exec checksum inv (.recovery (.snapshotState admin id)) s = .ok t := hx
  simp only [exec, execRecovery, bind_eq_ok, pure_eq_ok] at hx'
  obtain ⟨r, hr, rfl⟩ := hx'
  obtain ⟨hsnaps, record, hrecord, hcount⟩ :=
    snapshotState_captures hsound.reachable.wellFormed.stakers hr
  constructor
  · rintro ⟨⟨snaps, hcaptured, hall⟩, -⟩ staker
    obtain rfl := Option.some.inj (hsnaps.symm.trans hcaptured)
    have hnone := hall staker
    cases hstake : s.registry.stake staker with
    | none => rfl
    | some record =>
      rw [show ({ s with recovery := r } : State Addr).registry.stake staker = some record
        from hstake] at hnone
      simp at hnone
  · intro hnone
    refine ⟨⟨[], hsnaps, fun staker => ?_⟩, ⟨⟨1, []⟩, ?_, rfl⟩⟩
    · show [] = ((s.registry.stake staker).map StakeRecord.amount).toList
      rw [hnone staker]
      rfl
    · have hzero : s.registry.stakerCount = record.recordCount := by
        rw [hcount, hreg.stakerCount_eq_zero_iff]
        exact hnone
      simp only [verifyPostUpgradeState, bind_eq_ok, expect_eq_ok]
      refine ⟨[], hsnaps, record, hrecord, ?_⟩
      rw [Escrow.foldlM_check_eq_ok (by decide)]
      simp [hzero]

/-- Somebody stakes and leaves again two weeks later. -/
def leftRun : List (Step ℕ 0) :=
  [(grantedByAll 0, .config (.initializeStaking 1 9 none)), (grantedByAll 0, .stake 3 100 14),
    (grantedByAll (14 * day), .unstake 3)]

/-- A snapshot after the only staker has left. -/
theorem snapshotComplete_iff_unstaked :
    let s := (machine 0 noDigest).run (deployed stakerFunds) leftRun
    let t := (machine 0 noDigest).run (deployed stakerFunds)
      (leftRun ++ [(grantedByAll (14 * day), .recovery (.snapshotState 1 7))])
    (((machine 0 noDigest).run (deployed stakerFunds) (leftRun.take 2)).registry.stake 3).isSome ∧
      s.registry.stake 3 = none ∧
      (SnapshotComplete t 7 ↔ ∀ staker, s.registry.stake staker = none) := by
  intro s t
  have hx : (machine 0 noDigest).Executes (deployed stakerFunds)
      (leftRun ++ [(grantedByAll (14 * day), .recovery (.snapshotState 1 7))]) leftRun
      (grantedByAll (14 * day), .recovery (.snapshotState 1 7)) t := by
    apply Machine.executes_of_run_ne
    intro heq
    have hindex := congrArg (fun s => s.recovery.stakeSnapshotIndex) heq
    revert hindex
    decide +kernel
  exact ⟨by decide +kernel, by decide +kernel, snapshotComplete_iff rfl hx.exec_eq⟩

/-- A snapshot while there is one stake. -/
def snapshotRun : List (Step ℕ 0) :=
  [(grantedByAll 0, .config (.initializeStaking 1 9 none)),
    (grantedByAll 0, .stake 3 100 14),
    (grantedByAll 0, .recovery (.snapshotState 1 7))]

/-- The snapshot is empty, and the verification reports a mismatch right away. -/
theorem snapshotRun_incomplete :
    let s := (machine 0 noDigest).run (deployed stakerFunds) snapshotRun
    s.recovery.stakeSnapshot 7 = some [] ∧ (s.registry.stake 3).isSome ∧
      ¬ SnapshotComplete s 7 := by
  intro s
  have hempty : s.recovery.stakeSnapshot 7 = some [] := by decide +kernel
  have hstake : (s.registry.stake 3).isSome := by decide +kernel
  refine ⟨hempty, hstake, ?_⟩
  generalize s = s at *
  rintro ⟨⟨snaps, hsnaps, hall⟩, -⟩
  obtain rfl := Option.some.inj (hempty.symm.trans hsnaps)
  obtain ⟨record, hrecord⟩ := Option.isSome_iff_exists.mp hstake
  have hthree := hall 3
  rw [hrecord] at hthree
  simp at hthree

end Staking
