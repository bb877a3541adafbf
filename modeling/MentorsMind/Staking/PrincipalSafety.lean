import MentorsMind.Staking.Accounting
import MentorsMind.Staking.RewardConservation

/-! Principal safety: rewards that were deposited before they were distributed, and that are
settled at par, are never paid out of anybody's stake. -/
namespace Staking
open Outcome Soroban Shared

/-- What a lockup still pays. -/
def unclaimedAmount (o : Option RewardLockup) : ℤ :=
  o.elim 0 fun l => if l.claimed then 0 else l.scaledAmount

def lockedAmount (o : Option RewardLockup) : ℤ := o.elim 0 RewardLockup.scaledAmount

theorem claimed_add_unclaimed (o : Option RewardLockup) :
    claimedAmount o + unclaimedAmount o = lockedAmount o := by
  cases o with
  | none => rfl
  | some l =>
    show (if l.claimed then l.scaledAmount else 0) + (if l.claimed then 0 else l.scaledAmount) =
      l.scaledAmount
    split_ifs <;> omega

variable {Addr : Type}

variable [DecidableEq Addr] {home : Addr}

/-- The contract can pay, in `mnt`, all stakes, all penalties and all rewards that are not
claimed; in particular the token returns any stake, unless it refuses. -/
structure PrincipalSafe (mnt home : Addr) (s : State Addr) : Prop where
  covered : s.registry.totalStaked + s.epochs.penaltyRedistributionPool +
    PointSum.total unclaimedAmount s.rewards.stakerRewardLockup ≤ s.tokens.balance mnt home
  withdrawable : ∀ accepts : Transfer Addr → Bool, (∀ x, accepts x = true) →
    ∀ staker record, s.registry.stake staker = some record →
      ∃ tokens, s.tokens.transfer accepts mnt home staker record.amount = .ok tokens

/-- Whatever the successful calls of a run promised to the stakers and liquidity providers was
deposited before. -/
def Prefunded (checksum : ℕ → ℤ → Hash) (balance : Addr → Addr → ℕ) (mnt : Addr)
    (steps : List (Step Addr home)) : Prop :=
  ∀ pre, pre <+: steps →
    (machine home checksum).tally (fun _ step _ => step.2.promised) (deployed balance) pre ≤
      (machine home checksum).tally (fun _ step _ => step.2.deposited mnt) (deployed balance) pre

instance (checksum : ℕ → ℤ → Hash) (balance : Addr → Addr → ℕ) (mnt : Addr)
    (steps : List (Step Addr home)) : Decidable (Prefunded checksum balance mnt steps) :=
  decidable_of_iff (∀ pre ∈ steps.inits,
    (machine home checksum).tally (fun _ step _ => step.2.promised) (deployed balance) pre ≤
      (machine home checksum).tally (fun _ step _ => step.2.deposited mnt) (deployed balance) pre)
    (forall_congr' fun pre => by rw [List.mem_inits])

section Totals

variable {checksum : ℕ → ℤ → Hash} {balance : Addr → Addr → ℕ} {steps : List (Step Addr home)}
  {s : State Addr}

theorem finite_lockedAmount (hrecorded : EpochsRecorded checksum balance steps s)
    (hlockups : LockupsSound s) :
    PointSum.Finite lockedAmount s.rewards.stakerRewardLockup := by
  have hkeys : (⋃ e ∈ Finset.range s.epochs.epochId, (fun staker => (staker, e)) ''
      {staker | s.rewards.stakerRewardLockup (staker, e) ≠ none}).Finite :=
    (Finset.range s.epochs.epochId).finite_toSet.biUnion fun e _ =>
      (finite_lockups hrecorded hlockups e).image _
  refine hkeys.subset fun key hkey => ?_
  obtain ⟨staker, e⟩ := key
  have hsome : s.rewards.stakerRewardLockup (staker, e) ≠ none := by
    intro hnone
    refine hkey ?_
    show lockedAmount (s.rewards.stakerRewardLockup (staker, e)) = 0
    rw [hnone]
    rfl
  obtain ⟨l, hl⟩ := Option.ne_none_iff_exists'.mp hsome
  have hlt := hrecorded.sound.lt_of_share (hlockups.lockup staker e l hl).share_pos
  exact Set.mem_biUnion (Finset.mem_range.mpr hlt) ⟨staker, hsome, rfl⟩

/-- All lockups, epoch by epoch. -/
theorem total_lockedAmount (hrecorded : EpochsRecorded checksum balance steps s)
    (hlockups : LockupsSound s) :
    PointSum.total lockedAmount s.rewards.stakerRewardLockup =
      ∑ e ∈ Finset.range s.epochs.epochId, s.rewards.epochSum RewardLockup.scaledAmount e := by
  refine (finite_lockedAmount hrecorded hlockups).total_eq_sum_fibers fun staker e hne => ?_
  have hsome : s.rewards.stakerRewardLockup (staker, e) ≠ none := by
    intro hnone
    rw [hnone] at hne
    exact hne rfl
  obtain ⟨l, hl⟩ := Option.ne_none_iff_exists'.mp hsome
  exact Finset.mem_range.mpr
    (hrecorded.sound.lt_of_share (hlockups.lockup staker e l hl).share_pos)

omit [DecidableEq Addr] in
theorem total_claimed_add_unclaimed {r : Rewards Addr}
    (hclaimed : PointSum.Finite claimedAmount r.stakerRewardLockup)
    (hlocked : PointSum.Finite lockedAmount r.stakerRewardLockup) :
    PointSum.total claimedAmount r.stakerRewardLockup +
        PointSum.total unclaimedAmount r.stakerRewardLockup =
      PointSum.total lockedAmount r.stakerRewardLockup := by
  have hunclaimed : PointSum.Finite unclaimedAmount r.stakerRewardLockup := by
    refine (hclaimed.union hlocked).subset fun key hkey => ?_
    by_contra hout
    rw [Set.mem_union, not_or, Function.notMem_support, Function.notMem_support] at hout
    have hsum := claimed_add_unclaimed (r.stakerRewardLockup key)
    rw [hout.1, hout.2, zero_add] at hsum
    exact hkey hsum
  unfold PointSum.total
  rw [← finsum_add_distrib hclaimed hunclaimed]
  exact finsum_congr fun key => claimed_add_unclaimed _

/-- As long as no epoch locks more than its reward, balanced books keep the principal safe. -/
theorem PrincipalSafe.of_accounted {mnt : Addr} {surplus : ℤ}
    (hrecorded : EpochsRecorded checksum balance steps s) (hlockups : LockupsSound s)
    (hepochs : ∀ e, s.rewards.epochSum RewardLockup.scaledAmount e ≤
      (s.epochs.epochReward e).getD 0)
    (ha : Accounted mnt home s surplus) (hsurplus : 0 ≤ surplus) : PrincipalSafe mnt home s := by
  have hlocked : PointSum.total lockedAmount s.rewards.stakerRewardLockup ≤ s.epochs.recorded := by
    rw [total_lockedAmount hrecorded hlockups]
    exact Finset.sum_le_sum fun e _ => hepochs e
  have hsplit := total_claimed_add_unclaimed ha.tallied.claimed
    (finite_lockedAmount hrecorded hlockups)
  have hpending : 0 ≤ PointSum.total id s.rewards.pendingRewards :=
    PointSum.total_nonneg ha.tallied.pending_nonneg
  have hunclaimed : 0 ≤ PointSum.total unclaimedAmount s.rewards.stakerRewardLockup := by
    refine PointSum.total_nonneg fun key => ?_
    obtain ⟨staker, e⟩ := key
    cases hl : s.rewards.stakerRewardLockup (staker, e) with
    | none => exact le_rfl
    | some l =>
      show 0 ≤ if l.claimed then 0 else l.scaledAmount
      rw [(hlockups.lockup staker e l hl).scaled_eq]
      split_ifs
      · exact le_rfl
      · exact applyBpsMultiplier_nonneg _ _
  have hcovered := ha.covered
  have hlp := ha.lpRewardPool_nonneg
  have hpool := hrecorded.sound.pool_nonneg
  unfold Rewards.outstanding at hcovered
  refine ⟨by omega, fun accepts haccepts staker record hstake => ?_⟩
  have hamount := hrecorded.reachable.registry.amount_le_total hstake
  have hpos := (hrecorded.reachable.registry.record staker record hstake).2.1
  exact Tokens.transfer_isOk haccepts hpos.le (by omega)

end Totals

section Runs

variable {inv : Invocation Addr home} {s t : State Addr} {call : Call Addr}
  {checksum : ℕ → ℤ → Hash} {balance : Addr → Addr → ℕ} {steps : List (Step Addr home)}

/-- The token is set once. -/
theorem Effect.mntToken_eq (h : Effect inv s t call) (hset : s.config.mntToken ≠ none) :
    t.config.mntToken = s.config.mntToken := by
  cases h with
  | idled _ h => exact h.mntToken.resolve_right hset
  | staked h => rw [h.config]
  | unstaked h => rw [h.config]
  | closed _ h => rw [h.config]
  | batched h => rw [h.config]
  | claimed h => rw [h.config]
  | funded h => rw [h.config]
  | lpPaid h => rw [h.config]
  | deposited h => rw [h.config]

theorem run_mntToken {mnt : Addr}
    (hmnt : ((machine home checksum).run (deployed balance) steps).config.mntToken = some mnt)
    {pre : List (Step Addr home)} (hpre : pre <+: steps) :
    ((machine home checksum).run (deployed balance) pre).config.mntToken = none ∨
      ((machine home checksum).run (deployed balance) pre).config.mntToken = some mnt := by
  obtain ⟨rest, rfl⟩ := hpre
  by_cases hset : ((machine home checksum).run (deployed balance) pre).config.mntToken = none
  · exact .inl hset
  · right
    rw [Machine.run_append] at hmnt
    have hkept := run_kept checksum (P := fun s => s.config.mntToken =
      ((machine home checksum).run (deployed balance) pre).config.mntToken)
      (run_consistent checksum balance pre) rfl
      (fun step s t hs hsame heffect => (heffect.mntToken_eq (hsame ▸ hset)).trans hsame) rest
    rw [← hkept, hmnt]

omit [DecidableEq Addr] in
theorem deployed_accounted (mnt home : Addr) (balance : Addr → Addr → ℕ) :
    Accounted mnt home (deployed balance) 0 where
  tallied := ⟨PointSum.finite_const rfl, PointSum.finite_const rfl, fun _ => le_rfl⟩
  lpRewardPool_nonneg := le_rfl
  covered := by
    have houtstanding : (deployed balance).rewards.outstanding = 0 := by
      have hpending : PointSum.total id (fun _ : Addr => (0 : ℤ)) = 0 := PointSum.total_const rfl
      have hclaimed : PointSum.total claimedAmount (fun _ : Addr × ℕ => none) = 0 :=
        PointSum.total_const rfl
      show PointSum.total id (fun _ : Addr => (0 : ℤ)) -
        PointSum.total claimedAmount (fun _ : Addr × ℕ => none) = 0
      rw [hpending, hclaimed, sub_zero]
    rw [houtstanding]
    show (0 : ℤ) + 0 + 0 + 0 + 0 + 0 ≤ (balance mnt home : ℤ)
    omega

/-- In every state of a run the books balance, with what was deposited and not promised. -/
theorem run_accounted {mnt : Addr}
    (hmnt : ((machine home checksum).run (deployed balance) steps).config.mntToken = some mnt) :
    ∀ pre, pre <+: steps → Accounted mnt home ((machine home checksum).run (deployed balance) pre)
      ((machine home checksum).tally (fun _ step _ => step.2.deposited mnt)
          (deployed balance) pre -
        (machine home checksum).tally (fun _ step _ => step.2.promised)
          (deployed balance) pre) := by
  refine Machine.run_history_of_executes (P := fun pre s => Accounted mnt home s
    ((machine home checksum).tally (fun _ step _ => step.2.deposited mnt) (deployed balance) pre -
      (machine home checksum).tally (fun _ step _ => step.2.promised) (deployed balance) pre))
    (deployed_accounted mnt home balance) ?_ ?_
  · intro pre step t hx hpre
    have hs := run_consistent checksum balance pre
    have heffect := exec_effect hs.reachable.wellFormed hx.exec_eq
    have htoken := run_mntToken hmnt hx.snoc_prefix
    rw [hx.run_eq] at htoken
    have hnext := hpre.of_effect hs htoken heffect
    rw [Machine.tally_snoc_ok hx.exec_eq, Machine.tally_snoc_ok hx.exec_eq]
    convert hnext using 1
    ring
  · intro pre step e hpre herror
    rw [Machine.tally_snoc_error herror, Machine.tally_snoc_error herror]
    exact hpre

/-- In a run that settles at par, and where distributions follow deposits, the principal is
safe in every state. -/
theorem principal_safe {mnt : Addr}
    (hsteps : ∀ pre step t, (machine home checksum).Executes (deployed balance) steps pre step t →
      SettlesAtPar checksum balance steps
        ((machine home checksum).run (deployed balance) pre) step)
    (hmnt : ((machine home checksum).run (deployed balance) steps).config.mntToken = some mnt)
    (hfunded : Prefunded checksum balance mnt steps) :
    ∀ pre, pre <+: steps →
      PrincipalSafe mnt home ((machine home checksum).run (deployed balance) pre) := by
  intro pre hpre
  have hrecorded := (run_epochsRecorded checksum balance pre).mono hpre
  have hlockups := (run_consistent checksum balance pre).lockups
  refine .of_accounted hrecorded hlockups (fun e => ?_) (run_accounted hmnt pre hpre)
    (sub_nonneg.mpr (hfunded pre hpre))
  exact epochSum_le hrecorded hlockups
    (fun staker l hl => (run_lockups_atPar hsteps hpre hl).1)
    fun staker l hl => (run_lockups_atPar hsteps hpre hl).2

end Runs

theorem parRun_prefunded : Prefunded noDigest stakerFunds 9 parRun := by decide +kernel

theorem principal_safe_parRun :
    PrincipalSafe 9 0 ((machine 0 noDigest).run (deployed stakerFunds) parRun) :=
  principal_safe parRun_atPar (by decide +kernel) parRun_prefunded parRun List.prefix_rfl

/-- The tripled reward is claimed after 4 has staked 5000. -/
def drainedRun : List (Step ℕ 0) :=
  tripledRun ++
    [(grantedByAll (365 * day), .stake 4 5000 14),
      (grantedByAll (395 * day), .claimRewards 3 9)]

theorem drainedRun_prefunded : Prefunded noDigest stakerFunds 9 drainedRun := by decide +kernel

/-- The claim of 3000 took 2000 of the stake of 4, although the reward of 1000 was deposited. -/
theorem drainedRun_unsafe :
    Prefunded noDigest stakerFunds 9 drainedRun ∧
      ((machine 0 noDigest).run (deployed stakerFunds) drainedRun).config.mntToken = some 9 ∧
      ¬ PrincipalSafe 9 0 ((machine 0 noDigest).run (deployed stakerFunds) drainedRun) := by
  refine ⟨drainedRun_prefunded, by decide +kernel, fun h => ?_⟩
  have hstake : ((machine 0 noDigest).run (deployed stakerFunds) drainedRun).registry.stake 4 =
      some ⟨4, 5000, 365 * day, 379 * day, none, 3⟩ := by decide +kernel
  obtain ⟨tokens, hpaid⟩ := h.withdrawable (fun _ => true) (fun _ => rfl) 4 _ hstake
  have hle := (Tokens.transfer_eq_ok hpaid).2.1
  have hbalance : ((machine 0 noDigest).run (deployed stakerFunds) drainedRun).tokens.balance
      9 0 = 3000 := by decide +kernel
  rw [hbalance] at hle
  revert hle
  decide

end Staking
