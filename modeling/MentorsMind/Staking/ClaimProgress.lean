import MentorsMind.Staking.ClaimScan
import MentorsMind.Staking.RewardConservation

/-! Progress of claims: the scan gives up after a hundred lockups, whether they were claimed
before or not. -/
namespace Staking
open Outcome Soroban Shared

section Claims

variable {Addr : Type} [DecidableEq Addr] {home : Addr} {inv : Invocation Addr home}
  {s t : State Addr} {staker token : Addr} {now e : ℕ}

/-- The closed epochs whose lockup is unlocked at time `now` and not claimed. -/
def claimableEpochs (now : ℕ) (s : State Addr) (staker : Addr) : Finset ℕ :=
  (Finset.range s.epochs.epochId).filter (Claimable now (s.rewards.lockups staker))

omit [DecidableEq Addr] in
/-- There are lockups for closed epochs only. -/
theorem mem_claimableEpochs (hs : Consistent s) :
    e ∈ claimableEpochs now s staker ↔ Claimable now (s.rewards.lockups staker) e := by
  simp only [claimableEpochs, Finset.mem_filter, Finset.mem_range, and_iff_right_iff_imp]
  rintro ⟨l, hl, -⟩
  exact hs.epochs.lt_of_share (hs.lockups.lockup staker e l hl).share_pos

/-- The lockups that a settlement at time `now` creates with a lock that is over at once. -/
def bornUnlocked (now : ℕ) (s : State Addr) (staker : Addr) : Finset ℕ :=
  (Finset.Ico (s.rewards.settleStart s.epochs staker)
    (s.rewards.settleEnd s.epochs staker)).filter
      (Claimable now (settledLockup now s.epochs (s.registry.stake staker) staker))

/-- A claim at time `now` gets to more lockups than its settlement adds. -/
def Reaches (now : ℕ) (s : State Addr) (staker : Addr) : Prop :=
  (bornUnlocked now s staker).card <
    (servedEpochs now (lockupsSettled now s staker) s.epochs.epochId).card

omit [DecidableEq Addr] in
/-- What can be claimed after the settlement could be claimed before, or is new. -/
theorem claimable_lockupsSettled_iff (hs : Consistent s) :
    Claimable now (lockupsSettled now s staker) e ↔
      e ∈ claimableEpochs now s staker ∨ e ∈ bornUnlocked now s staker := by
  rw [mem_claimableEpochs hs]
  simp only [bornUnlocked, Finset.mem_filter, Finset.mem_Ico]
  by_cases hwindow : s.rewards.settleStart s.epochs staker ≤ e ∧
      e < s.rewards.settleEnd s.epochs staker
  · have hfresh : s.rewards.lockups staker e = none :=
      hs.lockups.booked.fresh s.epochs hwindow.1
    simp [Claimable, lockupsSettled, hwindow, hfresh]
  · simp [Claimable, lockupsSettled, hwindow]

theorem recorded_of_claimable {ls : ℕ → Option RewardLockup} (h : Claimable now ls e) :
    Recorded ls e := by
  obtain ⟨l, hl, -⟩ := h
  rw [Recorded, Option.mem_def.mp hl]
  rfl

omit [DecidableEq Addr] in
theorem lt_epochId_of_claimable (hs : Consistent s)
    (h : Claimable now (lockupsSettled now s staker) e) : e < s.epochs.epochId := by
  rcases (claimable_lockupsSettled_iff hs).mp h with hold | hborn
  · exact Finset.mem_range.mp (Finset.mem_filter.mp hold).1
  · obtain ⟨-, hlt⟩ := Finset.mem_Ico.mp (Finset.mem_filter.mp hborn).1
    exact lt_of_lt_of_le hlt (min_le_left _ _)

omit [DecidableEq Addr] in
/-- The scan pays what can be claimed among the first hundred lockups. -/
theorem mem_servedEpochs (hs : Consistent s) :
    e ∈ servedEpochs now (lockupsSettled now s staker) s.epochs.epochId ↔
      Claimable now (lockupsSettled now s staker) e ∧
        Nat.count (Recorded (lockupsSettled now s staker)) e < maxLockupsPerClaim := by
  unfold servedEpochs
  rw [FirstServed.mem_served]
  constructor
  · rintro ⟨-, hclaimable, hreached⟩
    exact ⟨hclaimable, hreached.2⟩
  · rintro ⟨hclaimable, hearly⟩
    exact ⟨lt_epochId_of_claimable hs hclaimable, hclaimable, recorded_of_claimable hclaimable,
      hearly⟩

omit [DecidableEq Addr] in
/-- A settlement creates lockups for epochs that have none. -/
theorem lockups_eq_none_of_born (hs : Consistent s) (h : e ∈ bornUnlocked now s staker) :
    s.rewards.lockups staker e = none := by
  simp only [bornUnlocked, Finset.mem_filter, Finset.mem_Ico] at h
  exact hs.lockups.booked.fresh s.epochs h.1.1

omit [DecidableEq Addr] in
theorem claimableEpochs_disjoint (now : ℕ) (staker : Addr) (hs : Consistent s) :
    Disjoint (claimableEpochs now s staker) (bornUnlocked now s staker) := by
  rw [Finset.disjoint_left]
  intro e hclaimable hborn
  obtain ⟨l, hl, -⟩ := (mem_claimableEpochs hs).mp hclaimable
  rw [lockups_eq_none_of_born hs hborn] at hl
  cases hl

omit [DecidableEq Addr] in
/-- Before the last second that a `u64` can tell no lockup is created unlocked. -/
theorem bornUnlocked_eq_empty (s : State Addr) (staker : Addr) (hnow : now + 1 < 2 ^ 64) :
    bornUnlocked now s staker = ∅ := by
  rw [bornUnlocked, Finset.filter_eq_empty_iff]
  rintro e - ⟨l, hl, -, hunlocked, -⟩
  exact absurd hunlocked (not_le.mpr (lt_unlocksAt_of_settledLockup hnow hl))

omit [DecidableEq Addr] in
/-- Before that second it is enough, and needed, that one of the first hundred lockups can
be claimed. -/
theorem reaches_iff (hs : Consistent s) (hnow : now + 1 < 2 ^ 64) :
    Reaches now s staker ↔ ∃ e, Claimable now (s.rewards.lockups staker) e ∧
      Nat.count (Recorded (s.rewards.lockups staker)) e < maxLockupsPerClaim := by
  have hempty := bornUnlocked_eq_empty s staker hnow
  have hclaimable : ∀ e, Claimable now (lockupsSettled now s staker) e ↔
      Claimable now (s.rewards.lockups staker) e := by
    intro e
    rw [claimable_lockupsSettled_iff hs, hempty, mem_claimableEpochs hs]
    simp
  -- A lockup that was there before the settlement has the same lockups before it.
  have hcount : ∀ e, Claimable now (s.rewards.lockups staker) e →
      Nat.count (Recorded (lockupsSettled now s staker)) e =
        Nat.count (Recorded (s.rewards.lockups staker)) e := by
    rintro e ⟨l, hl, -⟩
    have hbefore : e < s.rewards.settleStart s.epochs staker := by
      by_contra hge
      have hfresh : s.rewards.lockups staker e = none :=
        hs.lockups.booked.fresh s.epochs (not_lt.mp hge)
      rw [hfresh] at hl
      cases hl
    apply FirstServed.count_congr
    intro k hk
    simp only [Recorded, lockupsSettled, if_neg (show ¬ (s.rewards.settleStart s.epochs staker ≤ k ∧
      k < s.rewards.settleEnd s.epochs staker) by omega)]
  rw [Reaches, hempty, Finset.card_empty, Finset.card_pos]
  constructor
  · rintro ⟨e, he⟩
    obtain ⟨hserved, hearly⟩ := (mem_servedEpochs hs).mp he
    have hold := (hclaimable e).mp hserved
    exact ⟨e, hold, (hcount e hold) ▸ hearly⟩
  · rintro ⟨e, hold, hearly⟩
    exact ⟨e, (mem_servedEpochs hs).mpr ⟨(hclaimable e).mpr hold, (hcount e hold).symm ▸ hearly⟩⟩

/-- A claim leaves of the claimable lockups those that it did not get to. -/
theorem Claimed.claimableEpochs_eq {settled : Rewards Addr} {scan claim : ClaimScan Addr}
    (hs : Consistent s) (h : Claimed inv s t staker token settled scan claim) :
    claimableEpochs inv.timestamp t staker =
      (claimableEpochs inv.timestamp s staker ∪ bornUnlocked inv.timestamp s staker) \
        servedEpochs inv.timestamp (lockupsSettled inv.timestamp s staker) s.epochs.epochId := by
  ext e
  simp only [Finset.mem_sdiff, Finset.mem_union, ← claimable_lockupsSettled_iff hs]
  by_cases hserved : e ∈ servedEpochs inv.timestamp (lockupsSettled inv.timestamp s staker)
      s.epochs.epochId
  · have hnot : ¬ Claimable inv.timestamp (t.rewards.lockups staker) e := by
      rintro ⟨l, hl, hunclaimed, -⟩
      rw [h.lockups_eq, if_pos hserved, Option.mem_def, Option.map_eq_some_iff] at hl
      obtain ⟨l', -, rfl⟩ := hl
      cases hunclaimed
    simp [claimableEpochs, hnot, hserved]
  · have hsame : Claimable inv.timestamp (t.rewards.lockups staker) e ↔
        Claimable inv.timestamp (lockupsSettled inv.timestamp s staker) e := by
      unfold Claimable
      rw [h.lockups_eq, if_neg hserved]
    simp only [claimableEpochs, Finset.mem_filter, Finset.mem_range, h.epochs, hsame, hserved,
      not_false_eq_true, and_true, and_iff_right_iff_imp]
    intro hclaimable
    exact lt_epochId_of_claimable hs hclaimable

/-- A claim makes the claimable lockups fewer exactly when it gets to more than it adds. -/
theorem Claimed.claimableEpochs_card_lt_iff {settled : Rewards Addr} {scan claim : ClaimScan Addr}
    (hs : Consistent s) (h : Claimed inv s t staker token settled scan claim) :
    (claimableEpochs inv.timestamp t staker).card <
        (claimableEpochs inv.timestamp s staker).card ↔ Reaches inv.timestamp s staker := by
  have hserved : servedEpochs inv.timestamp (lockupsSettled inv.timestamp s staker)
      s.epochs.epochId ⊆
        claimableEpochs inv.timestamp s staker ∪ bornUnlocked inv.timestamp s staker := by
    intro e he
    rw [Finset.mem_union, ← claimable_lockupsSettled_iff hs]
    exact (FirstServed.mem_served.mp he).2.1
  have hle := Finset.card_le_card hserved
  have hunion := Finset.card_union_of_disjoint (claimableEpochs_disjoint inv.timestamp staker hs)
  rw [h.claimableEpochs_eq hs, Finset.card_sdiff_of_subset hserved, hunion]
  unfold Reaches
  omega

end Claims

section Runs

variable {Addr : Type} [DecidableEq Addr] {home : Addr}

/-- A claim that nobody refuses succeeds and makes progress exactly when no counter overflows
and it gets to a lockup that was there before. These are the first hundred lockups, before the
last second that a `u64` can tell. -/
theorem claimRewards_progresses_iff (checksum : ℕ → ℤ → Hash) (balance : Addr → Addr → ℕ)
    (steps : List (Step Addr home)) {inv : Invocation Addr home} {staker token : Addr}
    (hadmitted : ClaimAdmitted inv ((machine home checksum).run (deployed balance) steps)
      staker token) :
    ((∃ t, (machine home checksum).exec (inv, .claimRewards staker token)
          ((machine home checksum).run (deployed balance) steps) = .ok t ∧
        (claimableEpochs inv.timestamp t staker).card < (claimableEpochs inv.timestamp
          ((machine home checksum).run (deployed balance) steps) staker).card) ↔
      ClaimFits inv.timestamp ((machine home checksum).run (deployed balance) steps) staker ∧
        Reaches inv.timestamp ((machine home checksum).run (deployed balance) steps) staker) ∧
    (inv.timestamp + 1 < 2 ^ 64 →
      (Reaches inv.timestamp ((machine home checksum).run (deployed balance) steps) staker ↔
        ∃ e, Claimable inv.timestamp
            (((machine home checksum).run (deployed balance) steps).rewards.lockups staker) e ∧
          Nat.count (Recorded
            (((machine home checksum).run (deployed balance) steps).rewards.lockups staker)) e <
              maxLockupsPerClaim)) := by
  have hs := run_consistent checksum balance steps
  have hisOk := claimRewards_isOk_iff inv staker token hs.lockups.booked
  refine ⟨?_, reaches_iff hs⟩
  constructor
  · rintro ⟨t, hexec, hlt⟩
    have hclaim : claimRewards inv ((machine home checksum).run (deployed balance) steps)
      staker token = .ok t := hexec
    obtain ⟨settled, scan, claim, heffect⟩ := claimRewards_effect hclaim
    obtain ⟨-, hfits, -⟩ := hisOk.mp ⟨t, hclaim⟩
    exact ⟨hfits, (heffect.claimableEpochs_card_lt_iff hs).mp hlt⟩
  · rintro ⟨hfits, hreaches⟩
    have hserved := Finset.card_pos.mp (lt_of_le_of_lt (Nat.zero_le _) hreaches)
    have hpos : 0 < claimAmount inv.timestamp
        ((machine home checksum).run (deployed balance) steps) staker :=
      add_pos_of_pos_of_nonneg (servedAmount_pos_iff.mpr hserved) (le_max_right _ _)
    obtain ⟨t, hclaim⟩ := hisOk.mpr ⟨hadmitted, hfits, hpos⟩
    obtain ⟨settled, scan, claim, heffect⟩ := claimRewards_effect hclaim
    exact ⟨t, hclaim, (heffect.claimableEpochs_card_lt_iff hs).mpr hreaches⟩

end Runs

/-- The sole stake of 1000 is settled at par by its withdrawal. -/
theorem claimRewards_progresses_iff_parRun :
    let s := (machine 0 noDigest).run (deployed stakerFunds) parRun
    ((∃ t, (machine 0 noDigest).exec (grantedByAll (44 * day), .claimRewards 3 9) s = .ok t ∧
        (claimableEpochs (44 * day) t 3).card < (claimableEpochs (44 * day) s 3).card) ↔
      ClaimFits (44 * day) s 3 ∧ Reaches (44 * day) s 3) ∧
    (Reaches (44 * day) s 3 ↔ ∃ e, Claimable (44 * day) (s.rewards.lockups 3) e ∧
      Nat.count (Recorded (s.rewards.lockups 3)) e < maxLockupsPerClaim) := by
  have hadmitted : ClaimAdmitted (grantedByAll (44 * day))
      ((machine 0 noDigest).run (deployed stakerFunds) parRun) 3 9 :=
    ⟨rfl, by decide +kernel, rfl, rfl, by decide +kernel⟩
  obtain ⟨hprogresses, hreaches⟩ :=
    claimRewards_progresses_iff noDigest stakerFunds parRun hadmitted
  exact ⟨hprogresses, hreaches (by decide)⟩

/-- An epoch that closes with a reward of 10, `n` times. -/
def closings (n : ℕ) : List (Step ℕ 0) :=
  List.replicate n (grantedByAll (14 * day), .distributeRevenue 9 10)

/-- A claim that an old batch makes worthwhile, and that settles fifty epochs. -/
def settlingClaim : List (Step ℕ 0) :=
  [(grantedByAll (14 * day), .distributeRevenueBatch 9 10 0 10),
    (grantedByAll (14 * day), .claimRewards 3 9)]

/-- The stake of 3 earns 10 in each of the epochs 1 to 101; the first hundred of the lockups
are claimed as soon as they are unlocked. -/
def hundredClaimedRun : List (Step ℕ 0) :=
  [(grantedByAll 0, .config (.initializeStaking 1 9 none)),
    (grantedByAll 0, .stake 3 1000 14),
    (grantedByAll 0, .deposit 9 2 10000)] ++
  closings 102 ++ settlingClaim ++ settlingClaim ++ settlingClaim ++
  [(grantedByAll (44 * day), .claimRewards 3 9)]

/-- What the run leaves of its last epoch: a lockup that a claim does not get to. -/
theorem hundredClaimedRun_leaves :
    let s := (machine 0 noDigest).run (deployed stakerFunds) hundredClaimedRun
    s.rewards.lockups 3 101 = some ⟨101, 10, 10, 10000, 44 * day, false⟩ ∧
      s.tokens.balance 9 0 = 9970 ∧ s.config.admin ≠ none ∧ s.config.pauseGuardian = none ∧
      claimAmount (44 * day) s 3 = 0 := by
  decide +kernel

/-- The lockup of epoch 101 is unlocked and not claimed, and yet the claim fails. -/
theorem hundredClaimedRun_stuck :
    let s := (machine 0 noDigest).run (deployed stakerFunds) hundredClaimedRun
    s.rewards.lockups 3 101 = some ⟨101, 10, 10, 10000, 44 * day, false⟩ ∧
      s.tokens.balance 9 0 = 9970 ∧ ClaimAdmitted (grantedByAll (44 * day)) s 3 9 ∧
      101 ∈ claimableEpochs (44 * day) s 3 ∧
      ¬ ∃ t, (machine 0 noDigest).exec (grantedByAll (44 * day), .claimRewards 3 9) s = .ok t ∧
        (claimableEpochs (44 * day) t 3).card < (claimableEpochs (44 * day) s 3).card := by
  have hs := run_consistent noDigest stakerFunds hundredClaimedRun
  have hleaves := hundredClaimedRun_leaves
  -- From here on only what the run leaves is needed, not the run.
  generalize (machine 0 noDigest).run (deployed stakerFunds) hundredClaimedRun = s at hs hleaves ⊢
  obtain ⟨hlockup, hbalance, hadmin, hguardian, hamount⟩ := hleaves
  refine ⟨hlockup, hbalance, ⟨?_, hadmin, rfl, rfl, ?_⟩, ?_, ?_⟩
  · exact requireGuardianNotPaused_of_none hguardian
  · show claimAmount (44 * day) s 3 ≤ s.tokens.balance 9 0
    rw [hamount, hbalance]
    decide
  · exact (mem_claimableEpochs hs).mpr ⟨_, hlockup, rfl, le_rfl, by decide⟩
  · rintro ⟨t, hclaim, -⟩
    have hok := (claimRewards_isOk_iff (grantedByAll (44 * day)) 3 9 hs.lockups.booked).mp
      ⟨t, hclaim⟩
    exact absurd hok.2.2 (not_lt.mpr hamount.le)

end Staking
