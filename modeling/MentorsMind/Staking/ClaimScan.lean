import MentorsMind.Lib.FirstServed
import MentorsMind.Staking.Lockups

/-! When a claim goes through, and what it pays: the settlement and the scan behind it, with
every counter that may overflow on the way. -/
namespace Staking
open Outcome Soroban Shared

section Settlement

variable {Addr : Type} [DecidableEq Addr] {now : ℕ} {ep : Epochs Addr}
  {record : Option (StakeRecord Addr)} {staker : Addr} {e start n : ℕ} {r r' : Rewards Addr}

/-- The rewards with one more lockup, which is appended to the index. -/
def Rewards.addLockup (r : Rewards Addr) (staker : Addr) (e : ℕ) (lockup : RewardLockup) :
    Rewards Addr :=
  { r with
    stakerRewardLockup := Function.update r.stakerRewardLockup (staker, e) (some lockup)
    pendingDistributionIndex := Function.update r.pendingDistributionIndex
      r.pendingDistributionCount (some (staker, e))
    pendingDistributionPosition := Function.update r.pendingDistributionPosition (staker, e)
      (some r.pendingDistributionCount)
    pendingDistributionCount := r.pendingDistributionCount + 1 }

/-- The first lockup of an epoch is listed, unless the counter of the index overflows. -/
theorem lockShare_eq_ok (hfresh : r.stakerRewardLockup (staker, e) = none)
    {lockup : RewardLockup} : lockShare r staker e lockup = .ok r' ↔
      r.pendingDistributionCount + 1 < 2 ^ 32 ∧ r.addLockup staker e lockup = r' := by
  simp [lockShare, hfresh, addPendingDistribution, Rewards.addLockup]

/-- A round fails when the product overflows, or the counter when there is a lockup to add. -/
theorem settleEpoch_isOk_iff (hfresh : r.stakerRewardLockup (staker, e) = none) :
    ((∃ r', settleEpoch now ep record staker e r = .ok r') ↔ ProductFits ep staker e ∧
        ((settledLockup now ep record staker e).isSome = true →
          r.pendingDistributionCount + 1 < 2 ^ 32)) ∧
      ∀ r', settleEpoch now ep record staker e r = .ok r' →
        r'.pendingDistributionCount = r.pendingDistributionCount +
          if (settledLockup now ep record staker e).isSome = true then 1 else 0 := by
  simp only [settleEpoch_eq_ok_iff]
  cases settledLockup now ep record staker e with
  | none =>
    refine ⟨by simp, ?_⟩
    rintro r' ⟨-, rfl⟩
    rfl
  | some lockup =>
    simp only [lockShare_eq_ok hfresh]
    refine ⟨by simp, ?_⟩
    rintro r' ⟨-, -, rfl⟩
    rfl

/-- The epochs for which a settlement of `n` rounds creates lockups. -/
def createdEpochs (now : ℕ) (ep : Epochs Addr) (record : Option (StakeRecord Addr))
    (staker : Addr) (start n : ℕ) : Finset ℕ :=
  (Finset.Ico start (start + n)).filter
    fun e => (settledLockup now ep record staker e).isSome = true

omit [DecidableEq Addr] in
theorem createdEpochs_succ_card :
    (createdEpochs now ep record staker start (n + 1)).card =
      (createdEpochs now ep record staker start n).card +
        if (settledLockup now ep record staker (start + n)).isSome = true then 1 else 0 := by
  unfold createdEpochs
  have hrange : Finset.Ico start (start + (n + 1)) =
      insert (start + n) (Finset.Ico start (start + n)) := by
    ext e
    simp only [Finset.mem_Ico, Finset.mem_insert]
    omega
  rw [hrange, Finset.filter_insert]
  split_ifs with hcreated
  · rw [Finset.card_insert_of_notMem (by simp)]
  · rfl

/-- The settlement of `n` epochs that have no lockup yet goes through unless a product or the
counter of the index overflows. -/
theorem settleEpochs_isOk_iff
    (hfresh : ∀ e, start ≤ e → r.stakerRewardLockup (staker, e) = none) :
    ((∃ r', settleEpochs now ep record staker start n r = .ok r') ↔
        (∀ e, start ≤ e → e < start + n → ProductFits ep staker e) ∧
          ((createdEpochs now ep record staker start n).card ≠ 0 → r.pendingDistributionCount +
            (createdEpochs now ep record staker start n).card < 2 ^ 32)) ∧
      ∀ r', settleEpochs now ep record staker start n r = .ok r' →
        r'.pendingDistributionCount = r.pendingDistributionCount +
          (createdEpochs now ep record staker start n).card := by
  induction n with
  | zero =>
    have hnone : (createdEpochs now ep record staker start 0).card = 0 := by
      simp [createdEpochs]
    rw [hnone]
    refine ⟨⟨fun _ => ⟨fun e hge hlt => by omega, fun h => absurd rfl h⟩, fun _ => ⟨r, rfl⟩⟩, ?_⟩
    intro r' h
    obtain rfl := pure_eq_ok.mp h
    rfl
  | succ n ih =>
    obtain ⟨hok, hcount⟩ := ih
    have hround : ∀ {mid : Rewards Addr},
        settleEpochs now ep record staker start n r = .ok mid →
        mid.stakerRewardLockup (staker, start + n) = none := by
      intro mid hmid
      rw [(settleEpochs_spec hmid).2, if_neg (by omega), hfresh (start + n) (by omega)]
    have hproducts : (∀ e, start ≤ e → e < start + (n + 1) → ProductFits ep staker e) ↔
        (∀ e, start ≤ e → e < start + n → ProductFits ep staker e) ∧
          ProductFits ep staker (start + n) := by
      constructor
      · intro h
        exact ⟨fun e hge hlt => h e hge (by omega), h _ (by omega) (by omega)⟩
      · rintro ⟨h, hlast⟩ e hge hlt
        by_cases he : e = start + n
        · exact he ▸ hlast
        · exact h e hge (by omega)
    rw [createdEpochs_succ_card, hproducts]
    simp only [settleEpochs, bind_eq_ok]
    constructor
    · constructor
      · rintro ⟨r', mid, hmid, hlast⟩
        obtain ⟨hall, hroom⟩ := hok.mp ⟨mid, hmid⟩
        obtain ⟨hproduct, hone⟩ := (settleEpoch_isOk_iff (hround hmid)).1.mp ⟨r', hlast⟩
        rw [hcount mid hmid] at hone
        refine ⟨⟨hall, hproduct⟩, ?_⟩
        split_ifs with hcreated
        · intro _
          exact hone hcreated
        · exact hroom
      · rintro ⟨⟨hall, hproduct⟩, hroom⟩
        have hbefore : (createdEpochs now ep record staker start n).card ≠ 0 →
            r.pendingDistributionCount +
              (createdEpochs now ep record staker start n).card < 2 ^ 32 := by
          intro hne
          have hlt := hroom (by omega)
          omega
        obtain ⟨mid, hmid⟩ := hok.mpr ⟨hall, hbefore⟩
        have hone : (settledLockup now ep record staker (start + n)).isSome = true →
            mid.pendingDistributionCount + 1 < 2 ^ 32 := by
          intro hcreated
          rw [if_pos hcreated] at hroom
          rw [hcount mid hmid]
          exact hroom (Nat.succ_ne_zero _)
        obtain ⟨r', hlast⟩ := (settleEpoch_isOk_iff (hround hmid)).1.mpr ⟨hproduct, hone⟩
        exact ⟨r', mid, hmid, hlast⟩
    · rintro r' ⟨mid, hmid, hlast⟩
      rw [(settleEpoch_isOk_iff (hround hmid)).2 r' hlast, hcount mid hmid, Nat.add_assoc]

end Settlement

section Scan

variable {Addr : Type} [DecidableEq Addr] {now : ℕ} {staker : Addr} {r : Rewards Addr} {n : ℕ}
  {ls : ℕ → Option RewardLockup} {bound : ℕ} {scan : ClaimScan Addr} {l : RewardLockup}

/-- There is a lockup for the epoch `e`, claimed or not. -/
def Recorded (ls : ℕ → Option RewardLockup) (e : ℕ) : Prop := (ls e).isSome = true

instance (ls : ℕ → Option RewardLockup) : DecidablePred (Recorded ls) :=
  fun e => inferInstanceAs (Decidable ((ls e).isSome = true))

/-- A claim at time `now` pays the lockup of the epoch `e`, if it gets to it. -/
def Claimable (now : ℕ) (ls : ℕ → Option RewardLockup) (e : ℕ) : Prop :=
  ∃ l ∈ ls e, l.claimed = false ∧ l.unlocksAt ≤ now ∧ 0 < l.scaledAmount

instance (now : ℕ) (ls : ℕ → Option RewardLockup) : DecidablePred (Claimable now ls) :=
  fun e => inferInstanceAs (Decidable (∃ l ∈ ls e, _))

/-- The epochs below `bound` whose lockup a claim at time `now` gets to and pays. -/
def servedEpochs (now : ℕ) (ls : ℕ → Option RewardLockup) (bound : ℕ) : Finset ℕ :=
  FirstServed.served (Recorded ls) (Claimable now ls) maxLockupsPerClaim bound

def servedAmount (now : ℕ) (ls : ℕ → Option RewardLockup) (bound : ℕ) : ℤ :=
  ∑ e ∈ servedEpochs now ls bound, (ls e).elim 0 RewardLockup.scaledAmount

def Rewards.lockups (r : Rewards Addr) (staker : Addr) (e : ℕ) : Option RewardLockup :=
  r.stakerRewardLockup (staker, e)

theorem servedAmount_nonneg (now : ℕ) (ls : ℕ → Option RewardLockup) (bound : ℕ) :
    0 ≤ servedAmount now ls bound := by
  apply Finset.sum_nonneg
  intro e he
  obtain ⟨-, ⟨l, hl, -, -, hpos⟩, -⟩ := FirstServed.mem_served.mp he
  rw [Option.mem_def.mp hl]
  exact hpos.le

/-- A claim that gets to a lockup that it pays pays something. -/
theorem servedAmount_pos_iff :
    0 < servedAmount now ls bound ↔ (servedEpochs now ls bound).Nonempty := by
  constructor
  · intro h
    by_contra hempty
    rw [Finset.not_nonempty_iff_eq_empty] at hempty
    rw [servedAmount, hempty, Finset.sum_empty] at h
    exact lt_irrefl _ h
  · intro h
    apply Finset.sum_pos _ h
    intro e he
    obtain ⟨-, ⟨l, hl, -, -, hpos⟩, -⟩ := FirstServed.mem_served.mp he
    rw [Option.mem_def.mp hl]
    exact hpos

/-- What the scan of the first `n` epochs has done to the rewards `r`. -/
structure Scanned (now : ℕ) (staker : Addr) (r : Rewards Addr) (n : ℕ) (scan : ClaimScan Addr) :
    Prop where
  total : scan.totalClaimable = servedAmount now (r.lockups staker) n
  checked : scan.checked = FirstServed.met (Recorded (r.lockups staker)) maxLockupsPerClaim n
  lockup : ∀ key, scan.rewards.stakerRewardLockup key =
    if key.1 = staker ∧ key.2 ∈ servedEpochs now (r.lockups staker) n then
      (r.stakerRewardLockup key).map fun l => { l with claimed := true }
    else r.stakerRewardLockup key
  ledgers : SameLedgers r scan.rewards

theorem scanned_zero (now : ℕ) (staker : Addr) (r : Rewards Addr) :
    Scanned now staker r 0 ⟨r, 0, 0⟩ where
  total := rfl
  checked := rfl
  lockup key := by simp [servedEpochs]
  ledgers := .refl r

/-- A round that pays nothing at most counts the lockup that it meets. -/
theorem Scanned.passed (h : Scanned now staker r n scan) {checked : ℕ}
    (hnot : ¬ (Claimable now (r.lockups staker) n ∧
      FirstServed.Reached (Recorded (r.lockups staker)) maxLockupsPerClaim n))
    (hchecked : checked =
      FirstServed.met (Recorded (r.lockups staker)) maxLockupsPerClaim (n + 1)) :
    servedAmount now (r.lockups staker) (n + 1) = servedAmount now (r.lockups staker) n ∧
      Scanned now staker r (n + 1) { scan with checked := checked } := by
  have hserved : servedEpochs now (r.lockups staker) (n + 1) =
      servedEpochs now (r.lockups staker) n := FirstServed.served_succ_of_not_served hnot
  have hamount : servedAmount now (r.lockups staker) (n + 1) =
      servedAmount now (r.lockups staker) n := by
    unfold servedAmount
    rw [hserved]
  exact ⟨hamount, hamount ▸ h.total, hchecked, hserved ▸ h.lockup, h.ledgers⟩

/-- A round that pays marks the lockup and takes it off the index. -/
theorem Scanned.paid (h : Scanned now staker r n scan) (hl : r.lockups staker n = some l)
    (hclaim : l.claimed = false ∧ l.unlocksAt ≤ now ∧ 0 < l.scaledAmount)
    (hreached : FirstServed.Reached (Recorded (r.lockups staker)) maxLockupsPerClaim n) :
    servedAmount now (r.lockups staker) (n + 1) =
        servedAmount now (r.lockups staker) n + l.scaledAmount ∧
      Scanned now staker r (n + 1)
        ⟨removePendingDistribution { scan.rewards with
          stakerRewardLockup := Function.update scan.rewards.stakerRewardLockup (staker, n)
            (some { l with claimed := true }) } staker n,
          scan.totalClaimable + l.scaledAmount, scan.checked + 1⟩ := by
  have hclaimable : Claimable now (r.lockups staker) n := ⟨l, hl, hclaim⟩
  have hserved : servedEpochs now (r.lockups staker) (n + 1) =
      insert n (servedEpochs now (r.lockups staker) n) :=
    FirstServed.served_succ_of_served hclaimable hreached
  have hfresh : n ∉ servedEpochs now (r.lockups staker) n := FirstServed.notMem_served
  have hamount : servedAmount now (r.lockups staker) (n + 1) =
      servedAmount now (r.lockups staker) n + l.scaledAmount := by
    unfold servedAmount
    rw [hserved, Finset.sum_insert hfresh, hl, add_comm]
    rfl
  obtain ⟨hledgers, hlockups⟩ := removePendingDistribution_eq { scan.rewards with
    stakerRewardLockup := Function.update scan.rewards.stakerRewardLockup (staker, n)
      (some { l with claimed := true }) } staker n
  refine ⟨hamount, ?_, ?_, fun key => ?_, h.ledgers.trans
    ⟨hledgers.entry, hledgers.nextClaim, hledgers.settledUntil, hledgers.pendingRewards⟩⟩
  · rw [hamount, h.total]
  · rw [FirstServed.met_succ_of_reached hreached, h.checked]
  · rw [hlockups, hserved]
    by_cases hkey : key = (staker, n)
    · subst hkey
      have hstored : r.stakerRewardLockup (staker, n) = some l := hl
      simp [hstored]
    · have hne : key.1 = staker → key.2 ≠ n := fun h1 h2 => hkey (Prod.ext h1 h2)
      have hiff : (key.1 = staker ∧ (key.2 = n ∨
            key.2 ∈ servedEpochs now (r.lockups staker) n)) ↔
          (key.1 = staker ∧ key.2 ∈ servedEpochs now (r.lockups staker) n) :=
        and_congr_right fun hstaker => or_iff_right (hne hstaker)
      simp only [Function.update_of_ne hkey, h.lockup, Finset.mem_insert, hiff]

/-- The next round of the scan fails only when the total overflows. -/
theorem claimEpoch_scanned (h : Scanned now staker r n scan)
    (hfits : servedAmount now (r.lockups staker) n < 2 ^ 127) :
    ((∃ scan', claimEpoch now staker n scan = .ok scan') ↔
        servedAmount now (r.lockups staker) (n + 1) < 2 ^ 127) ∧
      ∀ scan', claimEpoch now staker n scan = .ok scan' → Scanned now staker r (n + 1) scan' := by
  have hentry : scan.rewards.stakerRewardLockup (staker, n) = r.lockups staker n := by
    rw [h.lockup, if_neg fun hmem => FirstServed.notMem_served hmem.2]
    rfl
  have hlimit : maxLockupsPerClaim ≤ scan.checked ↔
      maxLockupsPerClaim ≤ Nat.count (Recorded (r.lockups staker)) n := by
    rw [h.checked]
    exact FirstServed.le_met_iff
  have hpure : ∀ {checked : ℕ}, ¬ (Claimable now (r.lockups staker) n ∧
        FirstServed.Reached (Recorded (r.lockups staker)) maxLockupsPerClaim n) →
      checked = FirstServed.met (Recorded (r.lockups staker)) maxLockupsPerClaim (n + 1) →
      ((∃ scan', (pure { scan with checked := checked } : Result (ClaimScan Addr)) = .ok scan') ↔
          servedAmount now (r.lockups staker) (n + 1) < 2 ^ 127) ∧
        ∀ scan', (pure { scan with checked := checked } : Result (ClaimScan Addr)) = .ok scan' →
          Scanned now staker r (n + 1) scan' := by
    intro checked hnot hchecked
    obtain ⟨hamount, hscanned⟩ := h.passed hnot hchecked
    simp only [pure_eq_ok, exists_eq', true_iff, hamount]
    refine ⟨hfits, ?_⟩
    rintro scan' rfl
    exact hscanned
  unfold claimEpoch
  by_cases hfull : maxLockupsPerClaim ≤ scan.checked
  · have hnot : ¬ FirstServed.Reached (Recorded (r.lockups staker)) maxLockupsPerClaim n :=
      fun hreached => absurd (hlimit.mp hfull) (not_le.mpr hreached.2)
    rw [if_pos hfull]
    exact hpure (fun hserved => hnot hserved.2)
      (h.checked.trans (FirstServed.met_succ_of_not_reached hnot).symm)
  · rw [if_neg hfull, hentry]
    cases hl : r.lockups staker n with
    | none =>
      have hnot : ¬ FirstServed.Reached (Recorded (r.lockups staker)) maxLockupsPerClaim n :=
        fun hreached => by simp [FirstServed.Reached, Recorded, hl] at hreached
      exact hpure (fun hserved => hnot hserved.2)
        (h.checked.trans (FirstServed.met_succ_of_not_reached hnot).symm)
    | some l =>
      have hreached : FirstServed.Reached (Recorded (r.lockups staker)) maxLockupsPerClaim n :=
        ⟨by rw [Recorded, hl]; rfl, not_le.mp fun hge => hfull (hlimit.mpr hge)⟩
      dsimp only
      by_cases hclaim : l.claimed = false ∧ l.unlocksAt ≤ now ∧ 0 < l.scaledAmount
      · obtain ⟨hamount, hscanned⟩ := h.paid hl hclaim hreached
        have hbounds : FitsI128 (scan.totalClaimable + l.scaledAmount) ↔
            servedAmount now (r.lockups staker) (n + 1) < 2 ^ 127 := by
          have hnonneg := servedAmount_nonneg now (r.lockups staker) (n + 1)
          rw [h.total, ← hamount]
          exact ⟨And.right, fun hlt => ⟨by omega, hlt⟩⟩
        simp only [if_pos hclaim, bind_eq_ok, checkedI128_eq_ok, pure_eq_ok]
        constructor
        · constructor
          · rintro ⟨_, _, ⟨hfit, -⟩, -⟩
            exact hbounds.mp hfit
          · intro hlt
            exact ⟨_, _, ⟨hbounds.mpr hlt, rfl⟩, rfl⟩
        · rintro scan' ⟨_, ⟨-, rfl⟩, rfl⟩
          exact hscanned
      · rw [if_neg hclaim]
        refine hpure ?_ (by rw [FirstServed.met_succ_of_reached hreached, h.checked])
        rintro ⟨⟨l', hl', hclaim'⟩, -⟩
        rw [hl, Option.mem_some_iff] at hl'
        exact hclaim (hl' ▸ hclaim')

/-- The scan of `n` epochs fails only when the total overflows. -/
theorem claimEpochs_isOk_iff (now : ℕ) (staker : Addr) (r : Rewards Addr) (n : ℕ) :
    ((∃ scan, claimEpochs now staker n ⟨r, 0, 0⟩ = .ok scan) ↔
        servedAmount now (r.lockups staker) n < 2 ^ 127) ∧
      ∀ scan, claimEpochs now staker n ⟨r, 0, 0⟩ = .ok scan → Scanned now staker r n scan := by
  induction n with
  | zero =>
    have hzero : servedAmount now (r.lockups staker) 0 = 0 := rfl
    rw [hzero]
    refine ⟨⟨fun _ => by norm_num, fun _ => ⟨_, rfl⟩⟩, ?_⟩
    intro scan h
    obtain rfl := pure_eq_ok.mp h
    exact scanned_zero now staker r
  | succ n ih =>
    obtain ⟨hok, hscanned⟩ := ih
    have hmono : servedAmount now (r.lockups staker) n ≤
        servedAmount now (r.lockups staker) (n + 1) := by
      apply Finset.sum_le_sum_of_subset_of_nonneg
      · intro e he
        obtain ⟨hlt, hserved⟩ := FirstServed.mem_served.mp he
        exact FirstServed.mem_served.mpr ⟨by omega, hserved⟩
      · intro e he _
        obtain ⟨-, ⟨l, hl, -, -, hpos⟩, -⟩ := FirstServed.mem_served.mp he
        rw [Option.mem_def.mp hl]
        exact hpos.le
    simp only [claimEpochs, bind_eq_ok]
    constructor
    · constructor
      · rintro ⟨scan, mid, hmid, hlast⟩
        exact (claimEpoch_scanned (hscanned mid hmid) (hok.mp ⟨mid, hmid⟩)).1.mp ⟨scan, hlast⟩
      · intro hlt
        obtain ⟨mid, hmid⟩ := hok.mpr (by omega)
        obtain ⟨scan, hlast⟩ :=
          (claimEpoch_scanned (hscanned mid hmid) (hok.mp ⟨mid, hmid⟩)).1.mpr hlt
        exact ⟨scan, mid, hmid, hlast⟩
    · rintro scan ⟨mid, hmid, hlast⟩
      exact (claimEpoch_scanned (hscanned mid hmid) (hok.mp ⟨mid, hmid⟩)).2 scan hlast

end Scan

section Claims

variable {Addr : Type} [DecidableEq Addr] {home : Addr} {inv : Invocation Addr home}
  {s t : State Addr} {staker token : Addr}

omit [DecidableEq Addr] in
/-- The lockups of `staker` once its closed epochs are settled at time `now`. -/
def lockupsSettled (now : ℕ) (s : State Addr) (staker : Addr) (e : ℕ) : Option RewardLockup :=
  if s.rewards.settleStart s.epochs staker ≤ e ∧ e < s.rewards.settleEnd s.epochs staker then
    (settledLockup now s.epochs (s.registry.stake staker) staker e).or
      (s.rewards.lockups staker e)
  else s.rewards.lockups staker e

/-- How many lockups a settlement of `staker` at time `now` creates. -/
def createdCount (now : ℕ) (s : State Addr) (staker : Addr) : ℕ :=
  (createdEpochs now s.epochs (s.registry.stake staker) staker
    (s.rewards.settleStart s.epochs staker) (s.rewards.settleEnd s.epochs staker -
      s.rewards.settleStart s.epochs staker)).card

/-- What a claim at time `now` pays. -/
def claimAmount (now : ℕ) (s : State Addr) (staker : Addr) : ℤ :=
  servedAmount now (lockupsSettled now s staker) s.epochs.epochId +
    max (s.rewards.pendingRewards staker) 0

/-- Nobody refuses the claim: not the guardian, not the staker, not the token. -/
structure ClaimAdmitted (inv : Invocation Addr home) (s : State Addr) (staker token : Addr) :
    Prop where
  notPaused : requireGuardianNotPaused inv s.config = .ok ()
  initialised : s.config.admin ≠ none
  signed : inv.auth staker = true
  accepted : inv.accepts ⟨token, home, staker, claimAmount inv.timestamp s staker⟩ = true
  funded : claimAmount inv.timestamp s staker ≤ s.tokens.balance token home

/-- No machine integer overflows in the claim. -/
structure ClaimFits (now : ℕ) (s : State Addr) (staker : Addr) : Prop where
  product : ∀ e, s.rewards.settleStart s.epochs staker ≤ e →
    e < s.rewards.settleEnd s.epochs staker → ProductFits s.epochs staker e
  index : createdCount now s staker ≠ 0 →
    s.rewards.pendingDistributionCount + createdCount now s staker < 2 ^ 32
  amount : claimAmount now s staker < 2 ^ 127
  snapshotId : s.recovery.nextStakeSnapshotId + 1 < 2 ^ 32

theorem settleEpochRewards_isOk_iff (now : ℕ) (staker : Addr) (hbooked : Booked s.rewards) :
    (∃ settled, settleEpochRewards now s.registry s.epochs s.rewards staker = .ok settled) ↔
      (∀ e, s.rewards.settleStart s.epochs staker ≤ e →
        e < s.rewards.settleEnd s.epochs staker → ProductFits s.epochs staker e) ∧
      (createdCount now s staker ≠ 0 →
        s.rewards.pendingDistributionCount + createdCount now s staker < 2 ^ 32) := by
  have hepochs : (∃ r, settleEpochs now s.epochs (s.registry.stake staker) staker
        (s.rewards.settleStart s.epochs staker) (s.rewards.settleEnd s.epochs staker -
          s.rewards.settleStart s.epochs staker) s.rewards = .ok r) ↔
      (∀ e, s.rewards.settleStart s.epochs staker ≤ e →
        e < s.rewards.settleStart s.epochs staker + (s.rewards.settleEnd s.epochs staker -
          s.rewards.settleStart s.epochs staker) → ProductFits s.epochs staker e) ∧
      (createdCount now s staker ≠ 0 →
        s.rewards.pendingDistributionCount + createdCount now s staker < 2 ^ 32) :=
    (settleEpochs_isOk_iff fun e he => hbooked.fresh s.epochs he).1
  have hproducts : (∀ e, s.rewards.settleStart s.epochs staker ≤ e →
        e < s.rewards.settleStart s.epochs staker + (s.rewards.settleEnd s.epochs staker -
          s.rewards.settleStart s.epochs staker) → ProductFits s.epochs staker e) ↔
      ∀ e, s.rewards.settleStart s.epochs staker ≤ e →
        e < s.rewards.settleEnd s.epochs staker → ProductFits s.epochs staker e := by
    constructor
    · intro h e hge hlt
      exact h e hge (by omega)
    · intro h e hge hlt
      exact h e hge (by omega)
  rw [hproducts] at hepochs
  rw [← hepochs]
  simp only [settleEpochRewards, bind_eq_ok, pure_eq_ok]
  constructor
  · rintro ⟨settled, r, hr, -⟩
    exact ⟨r, hr⟩
  · rintro ⟨r, hr⟩
    exact ⟨_, r, hr, rfl⟩

theorem Settled.lockups_eq {now : ℕ} {settled : Rewards Addr}
    (h : Settled now s.registry s.epochs s.rewards staker settled) :
    settled.lockups staker = lockupsSettled now s staker := by
  funext e
  show settled.stakerRewardLockup (staker, e) = _
  rw [h.lockup]
  simp [lockupsSettled, Rewards.lockups]

/-- A positive amount that is left from the old batches joins the claim. -/
theorem claimLegacy_isOk_iff {scan : ClaimScan Addr} (staker : Addr)
    (hnonneg : 0 ≤ scan.totalClaimable) (hfits : scan.totalClaimable < 2 ^ 127) :
    ((∃ claim, claimLegacy scan staker = .ok claim) ↔
        scan.totalClaimable + max (scan.rewards.pendingRewards staker) 0 < 2 ^ 127) ∧
      ∀ claim, claimLegacy scan staker = .ok claim → claim.totalClaimable =
        scan.totalClaimable + max (scan.rewards.pendingRewards staker) 0 := by
  unfold claimLegacy
  by_cases hlegacy : 0 < scan.rewards.pendingRewards staker
  · simp only [if_pos hlegacy, bind_eq_ok, checkedI128_eq_ok, pure_eq_ok,
      max_eq_left hlegacy.le]
    constructor
    · constructor
      · rintro ⟨_, _, ⟨hfit, -⟩, -⟩
        exact hfit.2
      · intro hlt
        exact ⟨_, _, ⟨⟨by omega, hlt⟩, rfl⟩, rfl⟩
    · rintro claim ⟨_, ⟨-, rfl⟩, rfl⟩
      rfl
  · simp only [if_neg hlegacy, pure_eq_ok, max_eq_right (not_lt.mp hlegacy), add_zero]
    refine ⟨⟨fun _ => hfits, fun _ => ⟨scan, rfl⟩⟩, ?_⟩
    rintro claim rfl
    rfl

/-- The scan that follows a settlement fails only when its total overflows. -/
theorem claimEpochs_settled_isOk_iff {now : ℕ} {settled : Rewards Addr}
    (h : settleEpochRewards now s.registry s.epochs s.rewards staker = .ok settled) :
    ((∃ scan, claimEpochs now staker s.epochs.epochId ⟨settled, 0, 0⟩ = .ok scan) ↔
        servedAmount now (lockupsSettled now s staker) s.epochs.epochId < 2 ^ 127) ∧
      ∀ scan, claimEpochs now staker s.epochs.epochId ⟨settled, 0, 0⟩ = .ok scan →
        scan.totalClaimable =
          servedAmount now (lockupsSettled now s staker) s.epochs.epochId ∧
        scan.rewards.pendingRewards = s.rewards.pendingRewards := by
  have hspec := settleEpochRewards_spec h
  obtain ⟨hok, hscanned⟩ := claimEpochs_isOk_iff now staker settled s.epochs.epochId
  rw [hspec.lockups_eq] at hok
  refine ⟨hok, fun scan hscan => ?_⟩
  have hdone := hscanned scan hscan
  exact ⟨by rw [hdone.total, hspec.lockups_eq],
    hdone.ledgers.pendingRewards.trans hspec.pendingRewards⟩

/-- All that a claim adds up before it pays: it fails when the claim does not fit, and ends
with what is to be paid. -/
theorem claimTotal_isOk_iff {now : ℕ} {settled : Rewards Addr}
    (h : settleEpochRewards now s.registry s.epochs s.rewards staker = .ok settled) :
    ((∃ scan claim, claimEpochs now staker s.epochs.epochId ⟨settled, 0, 0⟩ = .ok scan ∧
        claimLegacy scan staker = .ok claim) ↔ claimAmount now s staker < 2 ^ 127) ∧
      ∀ scan claim, claimEpochs now staker s.epochs.epochId ⟨settled, 0, 0⟩ = .ok scan →
        claimLegacy scan staker = .ok claim →
          claim.totalClaimable = claimAmount now s staker := by
  obtain ⟨hscans, hscanned⟩ := claimEpochs_settled_isOk_iff h
  have hserved := servedAmount_nonneg now (lockupsSettled now s staker) s.epochs.epochId
  have hlegacies : ∀ {scan : ClaimScan Addr},
      claimEpochs now staker s.epochs.epochId ⟨settled, 0, 0⟩ = .ok scan →
      ((∃ claim, claimLegacy scan staker = .ok claim) ↔ claimAmount now s staker < 2 ^ 127) ∧
        ∀ claim, claimLegacy scan staker = .ok claim →
          claim.totalClaimable = claimAmount now s staker := by
    intro scan hscan
    have hlt := hscans.mp ⟨scan, hscan⟩
    obtain ⟨htotal, hpending⟩ := hscanned scan hscan
    have hlegacy := claimLegacy_isOk_iff staker (htotal ▸ hserved) (htotal ▸ hlt)
    rw [htotal, hpending] at hlegacy
    exact hlegacy
  constructor
  · constructor
    · rintro ⟨scan, claim, hscan, hclaim⟩
      exact (hlegacies hscan).1.mp ⟨claim, hclaim⟩
    · intro hall
      have hlegacy : 0 ≤ max (s.rewards.pendingRewards staker) 0 := le_max_right _ _
      have hlt : servedAmount now (lockupsSettled now s staker) s.epochs.epochId < 2 ^ 127 := by
        unfold claimAmount at hall
        omega
      obtain ⟨scan, hscan⟩ := hscans.mpr hlt
      obtain ⟨claim, hclaim⟩ := (hlegacies hscan).1.mpr hall
      exact ⟨scan, claim, hscan, hclaim⟩
  · intro scan claim hscan hclaim
    exact (hlegacies hscan).2 claim hclaim

/-- A claim goes through exactly when nobody refuses it, nothing overflows and it pays
something. -/
theorem claimRewards_isOk_iff (inv : Invocation Addr home) (staker token : Addr)
    (hbooked : Booked s.rewards) :
    (∃ t, claimRewards inv s staker token = .ok t) ↔ ClaimAdmitted inv s staker token ∧
      ClaimFits inv.timestamp s staker ∧ 0 < claimAmount inv.timestamp s staker := by
  have hsettles := settleEpochRewards_isOk_iff inv.timestamp staker hbooked
  simp only [claimRewards, bind_eq_ok, require_eq_ok, requireAuth_eq_ok, pure_eq_ok]
  constructor
  · rintro ⟨_, _, hpaused, _, hadmin, _, hsigned, settled, hsettled, scan, hscan, claim, hclaim,
      _, hne, tokens, hpaid, recovery, hrecovery, -⟩
    obtain ⟨hproduct, hindex⟩ := hsettles.mp ⟨settled, hsettled⟩
    obtain ⟨htotals, hamount⟩ := claimTotal_isOk_iff hsettled
    have hall := htotals.mp ⟨scan, claim, hscan, hclaim⟩
    rw [hamount scan claim hscan hclaim] at hne hpaid
    obtain ⟨hnonneg, hfunded, haccepted⟩ := Tokens.transfer_isOk_iff.mp ⟨tokens, hpaid⟩
    have hid := recordStakeSnapshotIndex_isOk_iff.mp ⟨recovery, hrecovery⟩
    exact ⟨⟨hpaused, hadmin, hsigned, haccepted, hfunded⟩, ⟨hproduct, hindex, hall, hid⟩,
      lt_of_le_of_ne hnonneg (Ne.symm hne)⟩
  · rintro ⟨hadmitted, hfits, hpos⟩
    obtain ⟨settled, hsettled⟩ := hsettles.mpr ⟨hfits.product, hfits.index⟩
    obtain ⟨htotals, hamount⟩ := claimTotal_isOk_iff hsettled
    obtain ⟨scan, claim, hscan, hclaim⟩ := htotals.mpr hfits.amount
    have htotal := hamount scan claim hscan hclaim
    obtain ⟨tokens, hpaid⟩ : ∃ tokens, s.tokens.transfer inv.accepts token home staker
        claim.totalClaimable = .ok tokens := by
      rw [htotal]
      exact Tokens.transfer_isOk_iff.mpr ⟨hpos.le, hadmitted.funded, hadmitted.accepted⟩
    obtain ⟨recovery, hrecovery⟩ := recordStakeSnapshotIndex_isOk_iff.mpr hfits.snapshotId
    refine ⟨_, (), hadmitted.notPaused, (), hadmitted.initialised, (), hadmitted.signed, settled,
      hsettled, scan, hscan, claim, hclaim, (), ?_, tokens, hpaid, recovery, hrecovery, rfl⟩
    rw [htotal]
    exact hpos.ne'

/-- What a claim leaves of the staker's lockups. -/
theorem Claimed.lockups_eq {settled : Rewards Addr} {scan claim : ClaimScan Addr}
    (h : Claimed inv s t staker token settled scan claim) (e : ℕ) :
    t.rewards.lockups staker e =
      if e ∈ servedEpochs inv.timestamp (lockupsSettled inv.timestamp s staker)
          s.epochs.epochId then
        (lockupsSettled inv.timestamp s staker e).map fun l => { l with claimed := true }
      else lockupsSettled inv.timestamp s staker e := by
  have hsettled := (settleEpochRewards_spec h.settlement).lockups_eq
  have hscanned := (claimEpochs_isOk_iff _ _ _ _).2 scan h.scanned
  obtain ⟨-, hlockup, -⟩ := claimLegacy_spec h.legacy
  show t.rewards.stakerRewardLockup (staker, e) = _
  rw [h.rewards, hlockup, hscanned.lockup, hsettled, ← hsettled]
  simp [Rewards.lockups]

end Claims

end Staking
