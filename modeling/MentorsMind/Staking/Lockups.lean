import MentorsMind.Staking.Epochs

/-! Locked rewards: which lockup a settlement creates for an epoch, and that no later call
takes it away or changes its amounts. -/
namespace Staking
open Outcome Soroban Shared

section Shares

variable {Addr : Type}

/-- The share of `staker` in the closed epoch `e`, when it is a positive `i128`. -/
def epochShare (ep : Epochs Addr) (staker : Addr) (e : ℕ) : ℤ :=
  match ep.epochStakerSnapshot (e, staker), ep.epochEligibleTotal e, ep.epochReward e with
  | some n, some D, some R =>
      if 0 < D ∧ 0 < n ∧ 0 < R ∧ n * R < 2 ^ 127 * D then n * R / D else 0
  | _, _, _ => 0

/-- What is recorded for the epoch `e` leaves `staker` without a whole unit, or with a share
that is no positive `i128`. -/
def NoShare (ep : Epochs Addr) (staker : Addr) (e : ℕ) : Prop :=
  ∀ n D R, ep.epochStakerSnapshot (e, staker) = some n → ep.epochEligibleTotal e = some D →
    ep.epochReward e = some R → D ≤ 0 ∨ n ≤ 0 ∨ R ≤ 0 ∨ n * R < D ∨ 2 ^ 127 * D ≤ n * R

/-- The lockup that a settlement at time `now` creates. -/
def settledLockup (now : ℕ) (ep : Epochs Addr) (record : Option (StakeRecord Addr))
    (staker : Addr) (e : ℕ) : Option RewardLockup :=
  if 0 < epochShare ep staker e ∧ 0 < settlementMultiplier now record then
    some {
      epochId := e
      baseAmount := epochShare ep staker e
      scaledAmount := applyBpsMultiplier (epochShare ep staker e)
        (settlementMultiplier now record)
      multiplierBps := settlementMultiplier now record
      unlocksAt := saturatingAddU64 now rewardLockupSecs
      claimed := false }
  else none

/-- A positive share is read off the records of the epoch. -/
theorem epochShare_eq {ep : Epochs Addr} {staker : Addr} {e : ℕ}
    (h : 0 < epochShare ep staker e) :
    ∃ n D R, ep.epochStakerSnapshot (e, staker) = some n ∧ ep.epochEligibleTotal e = some D ∧
      ep.epochReward e = some R ∧ 0 < D ∧ 0 < n ∧ 0 < R ∧ n * R < 2 ^ 127 * D ∧
      epochShare ep staker e = n * R / D := by
  unfold epochShare at *
  split at h
  · split_ifs at h with hpos
    · rename_i n D R hn hD hR
      exact ⟨n, D, R, hn, hD, hR, hpos.1, hpos.2.1, hpos.2.2.1, hpos.2.2.2, if_pos hpos⟩
    · exact absurd h (lt_irrefl _)
  · exact absurd h (lt_irrefl _)

theorem epochShare_pos_iff {ep : Epochs Addr} {staker : Addr} {e : ℕ} :
    0 < epochShare ep staker e ↔ ¬ NoShare ep staker e := by
  constructor
  · intro h hnone
    obtain ⟨n, D, R, hn, hD, hR, hDpos, hnpos, hRpos, hfits, hshare⟩ := epochShare_eq h
    rw [hshare] at h
    rcases hnone n D R hn hD hR with hbad | hbad | hbad | hbad | hbad
    · exact absurd hDpos (not_lt.mpr hbad)
    · exact absurd hnpos (not_lt.mpr hbad)
    · exact absurd hRpos (not_lt.mpr hbad)
    · rw [Int.ediv_eq_zero_of_lt (mul_pos hnpos hRpos).le hbad] at h
      exact lt_irrefl _ h
    · exact absurd hfits (not_lt.mpr hbad)
  · intro h
    unfold NoShare at h
    push Not at h
    obtain ⟨n, D, R, hn, hD, hR, hDpos, hnpos, hRpos, hwhole, hfits⟩ := h
    simp only [epochShare, hn, hD, hR, hDpos, hnpos, hRpos, hfits, and_self, if_true]
    exact (Int.le_ediv_iff_mul_le hDpos).mpr (by rwa [zero_add, one_mul])

theorem settledLockup_eq_some {now : ℕ} {ep : Epochs Addr}
    {record : Option (StakeRecord Addr)} {staker : Addr} {e : ℕ} {l : RewardLockup}
    (h : settledLockup now ep record staker e = some l) :
    0 < epochShare ep staker e ∧ 0 < settlementMultiplier now record ∧
      l.baseAmount = epochShare ep staker e ∧
      l.multiplierBps = settlementMultiplier now record ∧
      l.scaledAmount = applyBpsMultiplier l.baseAmount l.multiplierBps ∧ l.claimed = false := by
  unfold settledLockup at h
  split_ifs at h with hpos
  obtain rfl := Option.some.inj h
  exact ⟨hpos.1, hpos.2, rfl, rfl, rfl, rfl⟩

/-- The lock of a new lockup is over at once only in the last second that a `u64` can tell. -/
theorem lt_unlocksAt_of_settledLockup {now : ℕ} {ep : Epochs Addr}
    {record : Option (StakeRecord Addr)} {staker : Addr} {e : ℕ} {l : RewardLockup}
    (hnow : now + 1 < 2 ^ 64) (h : settledLockup now ep record staker e = some l) :
    now < l.unlocksAt := by
  unfold settledLockup at h
  split_ifs at h
  obtain rfl := Option.some.inj h
  simp only [saturatingAddU64, rewardLockupSecs]
  omega

theorem settledLockup_of_pos (now : ℕ) {ep : Epochs Addr} {record : Option (StakeRecord Addr)}
    {staker : Addr} {e : ℕ} (hshare : 0 < epochShare ep staker e)
    (hmult : 0 < settlementMultiplier now record) :
    settledLockup now ep record staker e = some {
      epochId := e
      baseAmount := epochShare ep staker e
      scaledAmount := applyBpsMultiplier (epochShare ep staker e)
        (settlementMultiplier now record)
      multiplierBps := settlementMultiplier now record
      unlocksAt := saturatingAddU64 now rewardLockupSecs
      claimed := false } :=
  if_pos ⟨hshare, hmult⟩

end Shares

section Settlement

variable {Addr : Type} [DecidableEq Addr]

/-- Two states of the rewards that differ in lockups and their index only. -/
structure SameLedgers (r r' : Rewards Addr) : Prop where
  entry : r'.stakerEpochEntry = r.stakerEpochEntry
  nextClaim : r'.stakerNextClaimEpoch = r.stakerNextClaimEpoch
  settledUntil : r'.stakerLockupSettledUntil = r.stakerLockupSettledUntil
  pendingRewards : r'.pendingRewards = r.pendingRewards

omit [DecidableEq Addr] in
theorem SameLedgers.refl (r : Rewards Addr) : SameLedgers r r := ⟨rfl, rfl, rfl, rfl⟩

omit [DecidableEq Addr] in
theorem SameLedgers.trans {r r' r'' : Rewards Addr} (h : SameLedgers r r')
    (h' : SameLedgers r' r'') : SameLedgers r r'' :=
  ⟨h'.entry.trans h.entry, h'.nextClaim.trans h.nextClaim,
    h'.settledUntil.trans h.settledUntil, h'.pendingRewards.trans h.pendingRewards⟩

theorem addPendingDistribution_eq {r r' : Rewards Addr} {staker : Addr} {e : ℕ}
    (h : addPendingDistribution r staker e = .ok r') :
    SameLedgers r r' ∧ r'.stakerRewardLockup = r.stakerRewardLockup := by
  simp only [addPendingDistribution, bind_eq_ok, pure_eq_ok] at h
  obtain ⟨-, -, rfl⟩ := h
  exact ⟨⟨rfl, rfl, rfl, rfl⟩, rfl⟩

omit [DecidableEq Addr] in
/-- The machine's share is the share of the records, or no positive number. -/
theorem asI128_share {n D R : ℤ} (hn : 0 < n) (hD : 0 < D) (hR : 0 < R)
    (hproduct : n.toNat * R.toNat < 2 ^ 128) :
    (n * R < 2 ^ 127 * D ∧ asI128 (n.toNat * R.toNat / D.toNat) = n * R / D) ∨
      (2 ^ 127 * D ≤ n * R ∧ asI128 (n.toNat * R.toNat / D.toNat) ≤ 0) := by
  have hcast : ((n.toNat * R.toNat / D.toNat : ℕ) : ℤ) = n * R / D := by
    push_cast
    rw [Int.toNat_of_nonneg hn.le, Int.toNat_of_nonneg hR.le, Int.toNat_of_nonneg hD.le]
  have hle : n.toNat * R.toNat / D.toNat < 2 ^ 128 :=
    lt_of_le_of_lt (Nat.div_le_self _ _) hproduct
  by_cases hfits : n * R < 2 ^ 127 * D
  · left
    have hlt : n * R / D < 2 ^ 127 := Int.ediv_lt_of_lt_mul hD hfits
    refine ⟨hfits, ?_⟩
    unfold asI128
    rw [if_pos (by omega), hcast]
  · right
    have hge : 2 ^ 127 ≤ n * R / D := (Int.le_ediv_iff_mul_le hD).mpr (not_lt.mp hfits)
    refine ⟨not_lt.mp hfits, ?_⟩
    unfold asI128
    rw [if_neg (by omega)]
    omega

omit [DecidableEq Addr] in
theorem epochShare_of_rows {ep : Epochs Addr} {staker : Addr} {e : ℕ} {n D R : ℤ}
    (hn : ep.epochStakerSnapshot (e, staker) = some n) (hD : ep.epochEligibleTotal e = some D)
    (hR : ep.epochReward e = some R) :
    epochShare ep staker e =
      if 0 < D ∧ 0 < n ∧ 0 < R ∧ n * R < 2 ^ 127 * D then n * R / D else 0 := by
  simp only [epochShare, hn, hD, hR]

/-- The product behind the share in the epoch `e` is a `u128`. -/
def ProductFits (ep : Epochs Addr) (staker : Addr) (e : ℕ) : Prop :=
  ∀ n D R, ep.epochStakerSnapshot (e, staker) = some n → ep.epochEligibleTotal e = some D →
    ep.epochReward e = some R → 0 < D → 0 < n → 0 < R → n * R < 2 ^ 128

omit [DecidableEq Addr] in
/-- Without a share there is nothing to lock. -/
theorem settledLockup_eq_none {now : ℕ} {ep : Epochs Addr} {record : Option (StakeRecord Addr)}
    {staker : Addr} {e : ℕ} (h : epochShare ep staker e ≤ 0) :
    settledLockup now ep record staker e = none :=
  if_neg fun hpos => absurd hpos.1 (not_lt.mpr h)

/-- The writes of a round that has something to lock: an epoch that has no lockup yet is
appended to the index. -/
def lockShare (r : Rewards Addr) (staker : Addr) (e : ℕ) (lockup : RewardLockup) :
    Result (Rewards Addr) := do
  let indexed ← if (r.stakerRewardLockup (staker, e)).isSome then pure r
    else addPendingDistribution r staker e
  pure { indexed with
    stakerRewardLockup := Function.update indexed.stakerRewardLockup (staker, e) (some lockup) }

theorem lockShare_spec {r r' : Rewards Addr} {staker : Addr} {e : ℕ} {lockup : RewardLockup}
    (h : lockShare r staker e lockup = .ok r') :
    SameLedgers r r' ∧ r'.stakerRewardLockup =
      Function.update r.stakerRewardLockup (staker, e) (some lockup) := by
  unfold lockShare at h
  by_cases hlisted : (r.stakerRewardLockup (staker, e)).isSome = true
  · rw [if_pos hlisted] at h
    simp only [bind_eq_ok, pure_eq_ok] at h
    obtain ⟨indexed, rfl, rfl⟩ := h
    exact ⟨⟨rfl, rfl, rfl, rfl⟩, rfl⟩
  · rw [if_neg hlisted] at h
    simp only [bind_eq_ok, pure_eq_ok] at h
    obtain ⟨indexed, hindexed, rfl⟩ := h
    obtain ⟨hledgers, hlockups⟩ := addPendingDistribution_eq hindexed
    exact ⟨hledgers.trans ⟨rfl, rfl, rfl, rfl⟩, by rw [← hlockups]⟩

/-- One round of the settlement, in terms of what it locks. -/
theorem settleEpoch_eq_ok_iff {now : ℕ} {ep : Epochs Addr} {record : Option (StakeRecord Addr)}
    {staker : Addr} {e : ℕ} {r r' : Rewards Addr} :
    settleEpoch now ep record staker e r = .ok r' ↔ ProductFits ep staker e ∧
      match settledLockup now ep record staker e with
      | none => r = r'
      | some lockup => lockShare r staker e lockup = .ok r' := by
  unfold settleEpoch
  split
  · rename_i n D R hn hD hR
    have hshare := epochShare_of_rows hn hD hR
    have hfits : ProductFits ep staker e ↔ (0 < D → 0 < n → 0 < R → n * R < 2 ^ 128) := by
      simp [ProductFits, hn, hD, hR]
    by_cases hpos : 0 < D ∧ 0 < n ∧ 0 < R
    · obtain ⟨hDpos, hnpos, hRpos⟩ := hpos
      have hproduct : n.toNat * R.toNat < 2 ^ 128 ↔ n * R < 2 ^ 128 := by
        rw [← Int.toNat_of_nonneg hnpos.le, ← Int.toNat_of_nonneg hRpos.le]
        norm_cast
      rw [if_pos ⟨hDpos, hnpos, hRpos⟩, hfits]
      simp only [bind_eq_ok, u128_eq_ok, hDpos, hnpos, hRpos, true_implies]
      by_cases hlt : n * R < 2 ^ 128
      · have hround : ∀ product, (n.toNat * R.toNat < 2 ^ 128 ∧ n.toNat * R.toNat = product) ↔
            n.toNat * R.toNat = product := fun product => and_iff_right (hproduct.mpr hlt)
        simp only [hround, exists_eq_left', hlt, true_and]
        rcases asI128_share hnpos hDpos hRpos (hproduct.mpr hlt) with ⟨hsmall, heq⟩ | ⟨hbig, hle⟩
        · have hbase : asI128 (n.toNat * R.toNat / D.toNat) = epochShare ep staker e := by
            rw [hshare, if_pos ⟨hDpos, hnpos, hRpos, hsmall⟩, heq]
          rw [hbase]
          by_cases hcreate : 0 < epochShare ep staker e ∧ 0 < settlementMultiplier now record
          · rw [if_pos hcreate, settledLockup_of_pos now hcreate.1 hcreate.2]
            exact Iff.rfl
          · have hnone : settledLockup now ep record staker e = none := if_neg hcreate
            rw [if_neg hcreate, hnone, pure_eq_ok]
        -- An amount beyond an `i128` wraps around to a negative one.
        · have hnone : epochShare ep staker e ≤ 0 := by
            rw [hshare, if_neg fun hall => absurd hall.2.2.2 (not_lt.mpr hbig)]
          rw [if_neg fun hall => absurd hall.1 (not_lt.mpr hle), settledLockup_eq_none hnone,
            pure_eq_ok]
      · constructor
        · rintro ⟨product, ⟨hproduct', -⟩, -⟩
          exact absurd (hproduct.mp hproduct') hlt
        · rintro ⟨hproduct', -⟩
          exact absurd hproduct' hlt
    · have hzero : epochShare ep staker e = 0 := by
        rw [hshare, if_neg fun hrows => hpos ⟨hrows.1, hrows.2.1, hrows.2.2.1⟩]
      have htrivial : ProductFits ep staker e :=
        hfits.mpr fun hD hn hR => absurd ⟨hD, hn, hR⟩ hpos
      rw [if_neg hpos, settledLockup_eq_none hzero.le, pure_eq_ok]
      simp [htrivial]
  · rename_i hrows
    have hzero : epochShare ep staker e ≤ 0 := by
      by_contra hlt
      obtain ⟨n, D, R, hn, hD, hR, -⟩ := epochShare_eq (not_le.mp hlt)
      exact hrows n D R hn hD hR
    have htrivial : ProductFits ep staker e := fun n D R hn hD hR => absurd hR (hrows n D R hn hD)
    rw [settledLockup_eq_none hzero, pure_eq_ok]
    simp [htrivial]

/-- One round writes the lockup of the epoch, if there is one. -/
theorem settleEpoch_spec {now : ℕ} {ep : Epochs Addr} {record : Option (StakeRecord Addr)}
    {staker : Addr} {e : ℕ} {r r' : Rewards Addr}
    (h : settleEpoch now ep record staker e r = .ok r') :
    SameLedgers r r' ∧ r'.stakerRewardLockup = Function.update r.stakerRewardLockup (staker, e)
      ((settledLockup now ep record staker e).or (r.stakerRewardLockup (staker, e))) := by
  obtain ⟨-, hround⟩ := settleEpoch_eq_ok_iff.mp h
  cases hlockup : settledLockup now ep record staker e with
  | none =>
    simp only [hlockup] at hround
    subst hround
    exact ⟨.refl r, by rw [Option.none_or, Function.update_eq_self]⟩
  | some lockup =>
    simp only [hlockup] at hround
    rw [Option.some_or]
    exact lockShare_spec hround

/-- The rounds for `n` epochs write the lockups of these epochs. -/
theorem settleEpochs_spec {now : ℕ} {ep : Epochs Addr} {record : Option (StakeRecord Addr)}
    {staker : Addr} {start n : ℕ} {r r' : Rewards Addr}
    (h : settleEpochs now ep record staker start n r = .ok r') :
    SameLedgers r r' ∧ ∀ key, r'.stakerRewardLockup key =
      if key.1 = staker ∧ start ≤ key.2 ∧ key.2 < start + n then
        (settledLockup now ep record staker key.2).or (r.stakerRewardLockup key)
      else r.stakerRewardLockup key := by
  induction n generalizing r' with
  | zero =>
    obtain rfl := pure_eq_ok.mp h
    refine ⟨.refl r, fun key => ?_⟩
    rw [if_neg (by omega)]
  | succ n ih =>
    simp only [settleEpochs, bind_eq_ok] at h
    obtain ⟨mid, hmid, hlast⟩ := h
    obtain ⟨hledgers, hlockups⟩ := ih hmid
    obtain ⟨hledgers', hlockups'⟩ := settleEpoch_spec hlast
    refine ⟨hledgers.trans hledgers', fun key => ?_⟩
    rw [hlockups']
    by_cases hkey : key = (staker, start + n)
    · subst hkey
      rw [Function.update_self, hlockups, if_neg (by omega),
        if_pos ⟨rfl, Nat.le_add_right _ _, by omega⟩]
    · rw [Function.update_of_ne hkey, hlockups]
      have hiff : (key.1 = staker ∧ start ≤ key.2 ∧ key.2 < start + n) ↔
          (key.1 = staker ∧ start ≤ key.2 ∧ key.2 < start + (n + 1)) := by
        refine and_congr_right fun hstaker => and_congr_right fun _ => ?_
        have hne : key.2 ≠ start + n := fun he => hkey (Prod.ext hstaker he)
        omega
      simp only [hiff]

/-- What a settlement of `staker` at time `now` does to the rewards. -/
structure Settled (now : ℕ) (reg : Registry Addr) (ep : Epochs Addr) (r : Rewards Addr)
    (staker : Addr) (r' : Rewards Addr) : Prop where
  lockup : ∀ key, r'.stakerRewardLockup key =
    if key.1 = staker ∧ r.settleStart ep staker ≤ key.2 ∧ key.2 < r.settleEnd ep staker then
      (settledLockup now ep (reg.stake staker) staker key.2).or (r.stakerRewardLockup key)
    else r.stakerRewardLockup key
  settledUntil : r'.stakerLockupSettledUntil =
    if r.settledUntil ep staker < max (r.settleStart ep staker) (r.settleEnd ep staker) then
      Function.update r.stakerLockupSettledUntil staker
        (some (max (r.settleStart ep staker) (r.settleEnd ep staker)))
    else r.stakerLockupSettledUntil
  pendingRewards : r'.pendingRewards = r.pendingRewards

theorem settleEpochRewards_spec {now : ℕ} {reg : Registry Addr} {ep : Epochs Addr}
    {r r' : Rewards Addr} {staker : Addr}
    (h : settleEpochRewards now reg ep r staker = .ok r') : Settled now reg ep r staker r' := by
  simp only [settleEpochRewards, bind_eq_ok, pure_eq_ok] at h
  obtain ⟨settled, hsettled, rfl⟩ := h
  obtain ⟨hledgers, hlockups⟩ := settleEpochs_spec hsettled
  refine ⟨fun key => ?_, ?_, hledgers.pendingRewards⟩
  · show settled.stakerRewardLockup key = _
    rw [hlockups]
    have hiff : (key.1 = staker ∧ r.settleStart ep staker ≤ key.2 ∧ key.2 <
          r.settleStart ep staker + (r.settleEnd ep staker - r.settleStart ep staker)) ↔
        (key.1 = staker ∧ r.settleStart ep staker ≤ key.2 ∧ key.2 < r.settleEnd ep staker) := by
      refine and_congr_right fun _ => ?_
      omega
    simp only [hiff]
  · show (if _ then _ else settled.stakerLockupSettledUntil) = _
    rw [hledgers.settledUntil]

/-- Lockups exist only for epochs that the settlement of their staker has passed. -/
def Booked (r : Rewards Addr) : Prop :=
  ∀ staker e, r.stakerRewardLockup (staker, e) ≠ none →
    ∃ u, r.stakerLockupSettledUntil staker = some u ∧ e < u

omit [DecidableEq Addr] in
/-- An epoch that is still to settle has no lockup. -/
theorem Booked.fresh {r : Rewards Addr} (h : Booked r) (ep : Epochs Addr) {staker : Addr} {e : ℕ}
    (he : r.settleStart ep staker ≤ e) : r.stakerRewardLockup (staker, e) = none := by
  by_contra hsome
  obtain ⟨u, hu, hlt⟩ := h staker e hsome
  have hle : u ≤ r.settleStart ep staker := by
    simp only [Rewards.settleStart, Rewards.settledUntil, hu, Option.getD_some]
    omega
  omega

theorem Settled.booked {now : ℕ} {reg : Registry Addr} {ep : Epochs Addr} {r r' : Rewards Addr}
    {staker : Addr} (h : Settled now reg ep r staker r') (hr : Booked r) : Booked r' := by
  intro other e hsome
  have hstart : r.settledUntil ep staker ≤ r.settleStart ep staker := le_max_right _ _
  rw [h.lockup] at hsome
  rw [h.settledUntil]
  by_cases hnew : other = staker ∧ r.settleStart ep staker ≤ e ∧ e < r.settleEnd ep staker
  · obtain ⟨rfl, hge, hlt⟩ := hnew
    rw [if_pos (by omega), Function.update_self]
    exact ⟨_, rfl, by omega⟩
  · rw [if_neg hnew] at hsome
    obtain ⟨u, hu, hlt⟩ := hr other e hsome
    split_ifs with hmoved
    · by_cases heq : other = staker
      · subst heq
        rw [Function.update_self]
        have hle : u ≤ r.settledUntil ep other := by
          simp only [Rewards.settledUntil, hu, Option.getD_some]
          exact le_max_left _ _
        exact ⟨_, rfl, by omega⟩
      · rw [Function.update_of_ne heq]
        exact ⟨u, hu, hlt⟩
    · exact ⟨u, hu, hlt⟩

/-- The entry `o'` is `o`, or `o` after its reward was claimed. -/
def Later (o o' : Option RewardLockup) : Prop :=
  o' = o ∨ ∃ l, o = some l ∧ o' = some { l with claimed := true }

omit [DecidableEq Addr] in
theorem Later.trans {o o' o'' : Option RewardLockup} (h : Later o o') (h' : Later o' o'') :
    Later o o'' := by
  rcases h' with rfl | ⟨l', rfl, rfl⟩
  · exact h
  · rcases h with heq | ⟨l, rfl, heq⟩
    · exact .inr ⟨l', heq.symm, rfl⟩
    · obtain rfl := Option.some.inj heq
      exact .inr ⟨l, rfl, rfl⟩

/-- A claim changes nothing about a lockup but that it is claimed. -/
theorem Later.amounts {o o' : Option RewardLockup} {l' : RewardLockup} (h : Later o o')
    (hl : o' = some l') : ∃ l, o = some l ∧ l'.baseAmount = l.baseAmount ∧
      l'.scaledAmount = l.scaledAmount ∧ l'.multiplierBps = l.multiplierBps := by
  rcases h with rfl | ⟨l, rfl, rfl⟩
  · exact ⟨l', hl, rfl, rfl, rfl⟩
  · obtain rfl := Option.some.inj hl
    exact ⟨l, rfl, rfl, rfl, rfl⟩

theorem Later.exists_of_some {o o' : Option RewardLockup} {l : RewardLockup} (h : Later o o')
    (hl : o = some l) : ∃ l', o' = some l' ∧ l'.baseAmount = l.baseAmount ∧
      l'.scaledAmount = l.scaledAmount := by
  rcases h with rfl | ⟨x, rfl, rfl⟩
  · exact ⟨l, hl, rfl, rfl⟩
  · obtain rfl := Option.some.inj hl
    exact ⟨_, rfl, rfl, rfl⟩

theorem Later.scaledAmount_eq {o o' : Option RewardLockup} (h : Later o o') :
    o'.elim 0 RewardLockup.scaledAmount = o.elim 0 RewardLockup.scaledAmount := by
  rcases h with rfl | ⟨l, rfl, rfl⟩
  · rfl
  · rfl

theorem Later.eq_none_iff {o o' : Option RewardLockup} (h : Later o o') :
    o' = none ↔ o = none := by
  rcases h with rfl | ⟨l, rfl, rfl⟩
  · exact Iff.rfl
  · simp

theorem removePendingDistribution_eq (r : Rewards Addr) (staker : Addr) (e : ℕ) :
    SameLedgers r (removePendingDistribution r staker e) ∧
      (removePendingDistribution r staker e).stakerRewardLockup = r.stakerRewardLockup := by
  unfold removePendingDistribution
  split
  · exact ⟨.refl r, rfl⟩
  · dsimp only
    split_ifs with hout hlast
    · exact ⟨.refl r, rfl⟩
    · exact ⟨⟨rfl, rfl, rfl, rfl⟩, rfl⟩
    · split
      · exact ⟨⟨rfl, rfl, rfl, rfl⟩, rfl⟩
      · exact ⟨⟨rfl, rfl, rfl, rfl⟩, rfl⟩

/-- One round of the scan passes over the epoch or claims its lockup. -/
theorem claimEpoch_spec {now : ℕ} {staker : Addr} {e : ℕ} {scan scan' : ClaimScan Addr}
    (h : claimEpoch now staker e scan = .ok scan') :
    SameLedgers scan.rewards scan'.rewards ∧
      ((scan'.rewards.stakerRewardLockup = scan.rewards.stakerRewardLockup ∧
          scan'.totalClaimable = scan.totalClaimable) ∨
        ∃ l, scan.rewards.stakerRewardLockup (staker, e) = some l ∧ l.claimed = false ∧
          scan'.rewards.stakerRewardLockup = Function.update scan.rewards.stakerRewardLockup
            (staker, e) (some { l with claimed := true }) ∧
          scan'.totalClaimable = scan.totalClaimable + l.scaledAmount) := by
  unfold claimEpoch at h
  split_ifs at h with hlimit
  · obtain rfl := pure_eq_ok.mp h
    exact ⟨.refl _, .inl ⟨rfl, rfl⟩⟩
  · split at h
    · obtain rfl := pure_eq_ok.mp h
      exact ⟨.refl _, .inl ⟨rfl, rfl⟩⟩
    · rename_i l hl
      split_ifs at h with hclaim
      · simp only [bind_eq_ok, checkedI128_eq_ok, pure_eq_ok] at h
        obtain ⟨total, ⟨-, rfl⟩, rfl⟩ := h
        obtain ⟨hledgers, hlockups⟩ := removePendingDistribution_eq { scan.rewards with
          stakerRewardLockup := Function.update scan.rewards.stakerRewardLockup (staker, e)
            (some { l with claimed := true }) } staker e
        exact ⟨⟨hledgers.entry, hledgers.nextClaim, hledgers.settledUntil,
          hledgers.pendingRewards⟩, .inr ⟨l, hl, hclaim.1, hlockups, rfl⟩⟩
      · obtain rfl := pure_eq_ok.mp h
        exact ⟨.refl _, .inl ⟨rfl, rfl⟩⟩

theorem claimEpochs_spec {now : ℕ} {staker : Addr} {n : ℕ} {scan scan' : ClaimScan Addr}
    (h : claimEpochs now staker n scan = .ok scan') :
    SameLedgers scan.rewards scan'.rewards ∧ ∀ key,
      Later (scan.rewards.stakerRewardLockup key) (scan'.rewards.stakerRewardLockup key) := by
  induction n generalizing scan' with
  | zero =>
    obtain rfl := pure_eq_ok.mp h
    exact ⟨.refl _, fun _ => .inl rfl⟩
  | succ e ih =>
    simp only [claimEpochs, bind_eq_ok] at h
    obtain ⟨mid, hmid, hlast⟩ := h
    obtain ⟨hledgers, hlater⟩ := ih hmid
    obtain ⟨hledgers', hround⟩ := claimEpoch_spec hlast
    refine ⟨hledgers.trans hledgers', fun key => (hlater key).trans ?_⟩
    rcases hround with ⟨hsame, -⟩ | ⟨l, hl, -, hupdate, -⟩
    · exact .inl (by rw [hsame])
    · rw [hupdate]
      by_cases hkey : key = (staker, e)
      · subst hkey
        exact .inr ⟨l, hl, Function.update_self ..⟩
      · exact .inl (Function.update_of_ne hkey ..)

/-- The legacy amount leaves the pending rewards and joins the claim. -/
theorem claimLegacy_spec {staker : Addr} {scan claim : ClaimScan Addr}
    (h : claimLegacy scan staker = .ok claim) :
    claim.rewards.stakerLockupSettledUntil = scan.rewards.stakerLockupSettledUntil ∧
      claim.rewards.stakerRewardLockup = scan.rewards.stakerRewardLockup ∧
      ∃ legacy, (claim.rewards.pendingRewards = scan.rewards.pendingRewards ∧ legacy = 0 ∨
          claim.rewards.pendingRewards =
            Function.update scan.rewards.pendingRewards staker 0 ∧
          legacy = scan.rewards.pendingRewards staker) ∧
        claim.totalClaimable = scan.totalClaimable + legacy := by
  unfold claimLegacy at h
  dsimp only at h
  split_ifs at h with hlegacy
  · simp only [bind_eq_ok, checkedI128_eq_ok, pure_eq_ok] at h
    obtain ⟨total, ⟨-, rfl⟩, rfl⟩ := h
    exact ⟨rfl, rfl, _, .inr ⟨rfl, rfl⟩, rfl⟩
  · obtain rfl := pure_eq_ok.mp h
    exact ⟨rfl, rfl, 0, .inl ⟨rfl, rfl⟩, (add_zero _).symm⟩

end Settlement

section Runs

variable {Addr : Type} [DecidableEq Addr] {home : Addr} {inv : Invocation Addr home}
  {s t : State Addr} {call : Call Addr} {checksum : ℕ → ℤ → Hash}
  {balance : Addr → Addr → ℕ} {steps : List (Step Addr home)}

/-- A call settles the epochs of one staker, and may claim some lockups, or it leaves all
lockups alone. -/
theorem Effect.lockups_cases (h : Effect inv s t call) :
    (call.settles = none ∧ t.rewards.stakerRewardLockup = s.rewards.stakerRewardLockup ∧
        t.rewards.stakerLockupSettledUntil = s.rewards.stakerLockupSettledUntil) ∨
      ∃ staker settled, call.settles = some staker ∧
        Settled inv.timestamp s.registry s.epochs s.rewards staker settled ∧
        t.rewards.stakerLockupSettledUntil = settled.stakerLockupSettledUntil ∧
        ∀ key, Later (settled.stakerRewardLockup key) (t.rewards.stakerRewardLockup key) := by
  cases h with
  | idled idle h =>
    exact .inl ⟨Call.settles_of_isIdle idle, by rw [h.rewards], by rw [h.rewards]⟩
  | staked h => exact .inl ⟨rfl, by rw [h.rewards], by rw [h.rewards]⟩
  | unstaked h =>
    exact .inr ⟨_, _, rfl, settleEpochRewards_spec h.settlement, by rw [h.rewards],
      fun key => .inl (by rw [h.rewards])⟩
  | closed closes h =>
    exact .inl ⟨Call.settles_of_closesEpoch closes, by rw [h.rewards], by rw [h.rewards]⟩
  | batched h =>
    left
    rcases h.credited with ⟨-, hrewards⟩ | ⟨-, updates, pending, -, -, hrewards⟩
    · exact ⟨rfl, by rw [hrewards], by rw [hrewards]⟩
    · exact ⟨rfl, by rw [hrewards], by rw [hrewards]⟩
  | @claimed staker token settled scan claim h =>
    obtain ⟨hledgers, hlater⟩ := claimEpochs_spec h.scanned
    obtain ⟨hsettledUntil, hlockup, -⟩ := claimLegacy_spec h.legacy
    refine .inr ⟨staker, settled, rfl, settleEpochRewards_spec h.settlement, ?_, fun key => ?_⟩
    · rw [h.rewards, hsettledUntil, hledgers.settledUntil]
    · rw [h.rewards, hlockup]
      exact hlater key
  | funded h => exact .inl ⟨rfl, by rw [h.rewards], by rw [h.rewards]⟩
  | lpPaid h => exact .inl ⟨rfl, by rw [h.rewards], by rw [h.rewards]⟩
  | deposited h => exact .inl ⟨rfl, by rw [h.rewards], by rw [h.rewards]⟩

/-- A lockup is the share of its staker in its epoch, times its multiplier. -/
structure Lockup (ep : Epochs Addr) (staker : Addr) (e : ℕ) (l : RewardLockup) : Prop where
  share_pos : 0 < epochShare ep staker e
  base_eq : l.baseAmount = epochShare ep staker e
  multiplier_pos : 0 < l.multiplierBps
  scaled_eq : l.scaledAmount = applyBpsMultiplier l.baseAmount l.multiplierBps

structure LockupsSound (s : State Addr) : Prop where
  booked : Booked s.rewards
  lockup : ∀ staker e l, s.rewards.stakerRewardLockup (staker, e) = some l →
    Lockup s.epochs staker e l

omit [DecidableEq Addr] in
theorem Epochs.SameRow.epochShare_eq {ep ep' : Epochs Addr} {e : ℕ} (h : ep.SameRow ep' e)
    (staker : Addr) : epochShare ep' staker e = epochShare ep staker e := by
  simp only [epochShare, h.snapshot, h.eligibleTotal, h.reward]

omit [DecidableEq Addr] in
/-- There are shares in closed epochs only. -/
theorem Epochs.Sound.lt_of_share {ep : Epochs Addr} (hep : ep.Sound) {staker : Addr} {e : ℕ}
    (h : 0 < epochShare ep staker e) : e < ep.epochId := by
  by_contra hle
  obtain ⟨n, D, R, -, hD, -⟩ := epochShare_eq h
  rw [(hep.openFrom e (not_lt.mp hle)).eligibleTotal] at hD
  exact absurd hD (by simp)

/-- No call changes a share of a closed epoch. -/
theorem Effect.epochShare_eq (hs : Reachable s) (hep : s.epochs.Sound) (h : Effect inv s t call)
    {staker : Addr} {e : ℕ} (hpos : 0 < epochShare s.epochs staker e) :
    epochShare t.epochs staker e = epochShare s.epochs staker e := by
  rcases h.epochs_cases hs hep with ⟨-, -, -, hclosing⟩ | ⟨-, hrows, -⟩
  · have hlt := hep.lt_of_share hpos
    exact (hclosing.other e (by omega)).epochShare_eq staker
  · exact (hrows e).epochShare_eq staker

omit [DecidableEq Addr] in
theorem Lockup.of_epochShare_eq {ep ep' : Epochs Addr} {staker : Addr} {e : ℕ}
    {l : RewardLockup} (h : Lockup ep staker e l)
    (heq : epochShare ep' staker e = epochShare ep staker e) : Lockup ep' staker e l :=
  ⟨heq ▸ h.share_pos, heq ▸ h.base_eq, h.multiplier_pos, h.scaled_eq⟩

theorem LockupsSound.of_effect (hs : Reachable s) (hep : s.epochs.Sound)
    (hl : LockupsSound s) (h : Effect inv s t call) : LockupsSound t := by
  rcases h.lockups_cases with ⟨-, hsame, hsettled⟩ | ⟨staker, settled, -, hsettled, huntil, hlater⟩
  · refine ⟨fun other e hsome => ?_, fun other e l hsome => ?_⟩
    · rw [hsame] at hsome
      rw [hsettled]
      exact hl.booked other e hsome
    · rw [hsame] at hsome
      have hlockup := hl.lockup other e l hsome
      exact hlockup.of_epochShare_eq (h.epochShare_eq hs hep hlockup.share_pos)
  · refine ⟨fun other e hsome => ?_, fun other e l hsome => ?_⟩
    · rw [huntil]
      exact hsettled.booked hl.booked other e fun hnone =>
        hsome ((hlater (other, e)).eq_none_iff.mpr hnone)
    · obtain ⟨l', hl', hbase, hscaled, hmult⟩ := (hlater (other, e)).amounts hsome
      have hlockup : Lockup s.epochs other e l' := by
        rw [hsettled.lockup] at hl'
        split_ifs at hl' with hnew
        · obtain ⟨hother, hge, -⟩ := hnew
          have hstaker : other = staker := hother
          subst hstaker
          rw [hl.booked.fresh s.epochs hge, Option.or_none] at hl'
          obtain ⟨hshare, hmult, hbase, hmult', hscaled, -⟩ := settledLockup_eq_some hl'
          exact ⟨hshare, hbase, hmult' ▸ hmult, hscaled⟩
        · exact hl.lockup other e l' hl'
      have hsound : Lockup s.epochs other e l := by
        refine ⟨hlockup.share_pos, hbase.trans hlockup.base_eq, hmult ▸ hlockup.multiplier_pos, ?_⟩
        rw [hscaled, hbase, hmult]
        exact hlockup.scaled_eq
      exact hsound.of_epochShare_eq (h.epochShare_eq hs hep hsound.share_pos)

/-- All that holds in every reachable state. -/
structure Consistent (s : State Addr) : Prop where
  reachable : Reachable s
  epochs : s.epochs.Sound
  lockups : LockupsSound s

theorem Consistent.of_effect (hs : Consistent s) (h : Effect inv s t call) : Consistent t :=
  ⟨hs.reachable.of_effect h, hs.epochs.of_effect hs.reachable h,
    hs.lockups.of_effect hs.reachable hs.epochs h⟩

omit [DecidableEq Addr] in
theorem deployed_consistent (balance : Addr → Addr → ℕ) : Consistent (deployed balance) :=
  ⟨deployed_reachable balance, deployed_epochs_sound balance,
    ⟨fun _ _ h => absurd rfl h, fun _ _ _ h => nomatch h⟩⟩

theorem Consistent.run {s : State Addr} (hs : Consistent s) (checksum : ℕ → ℤ → Hash)
    (steps : List (Step Addr home)) : Consistent ((machine home checksum).run s steps) :=
  Machine.run_invariant hs
    (fun _ _ _ hs hx => hs.of_effect (exec_effect hs.reachable.wellFormed hx)) steps

/-- What every call keeps of a consistent state holds after any run from one. -/
theorem run_kept (checksum : ℕ → ℤ → Hash) {P : State Addr → Prop} {s : State Addr}
    (hs : Consistent s) (h0 : P s)
    (hstep : ∀ (step : Step Addr home) u t, Consistent u → P u → Effect step.1 u t step.2 → P t)
    (steps : List (Step Addr home)) :
    P ((machine home checksum).run s steps) := by
  refine (Machine.run_invariant (M := machine home checksum) (P := fun u => Consistent u ∧ P u)
    ⟨hs, h0⟩ ?_ steps).2
  rintro step u t ⟨hu, hp⟩ hx
  have heffect := exec_effect hu.reachable.wellFormed hx
  exact ⟨hu.of_effect heffect, hstep step u t hu hp heffect⟩

theorem run_consistent (checksum : ℕ → ℤ → Hash) (balance : Addr → Addr → ℕ)
    (steps : List (Step Addr home)) :
    Consistent ((machine home checksum).run (deployed balance) steps) :=
  (deployed_consistent balance).run checksum steps

end Runs

end Staking
