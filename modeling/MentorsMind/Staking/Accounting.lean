import MentorsMind.Staking.Lockups

/-! The books of the contract in its own token: what it holds covers the stakes, the penalties,
what is set aside for liquidity providers, and every reward that was recorded and not paid. -/
namespace Staking
open Outcome Soroban Shared

section Amounts

variable {Addr : Type}

/-- What a lockup has paid out. -/
def claimedAmount (o : Option RewardLockup) : ℤ :=
  o.elim 0 fun l => if l.claimed then l.scaledAmount else 0

/-- The rewards recorded for the closed epochs. -/
def Epochs.recorded (ep : Epochs Addr) : ℤ :=
  ∑ e ∈ Finset.range ep.epochId, (ep.epochReward e).getD 0

/-- What the batch path credited, less what claims have paid for lockups. -/
noncomputable def Rewards.outstanding (r : Rewards Addr) : ℤ :=
  PointSum.total id r.pendingRewards - PointSum.total claimedAmount r.stakerRewardLockup

/-- The totals of the rewards are finite sums, of credits that are not negative. -/
structure Rewards.Tallied (r : Rewards Addr) : Prop where
  claimed : PointSum.Finite claimedAmount r.stakerRewardLockup
  pending : PointSum.Finite id r.pendingRewards
  pending_nonneg : ∀ staker, 0 ≤ r.pendingRewards staker

/-- The contract holds, in `mnt`, all that it owes and `surplus` on top. -/
structure Accounted (mnt home : Addr) (s : State Addr) (surplus : ℤ) : Prop where
  tallied : s.rewards.Tallied
  lpRewardPool_nonneg : 0 ≤ s.liquidity.lpRewardPool
  covered : s.registry.totalStaked + s.epochs.penaltyRedistributionPool +
    s.liquidity.lpRewardPool + s.epochs.recorded + s.rewards.outstanding + surplus ≤
      s.tokens.balance mnt home

/-- Rewards with the same credits, and lockups that have paid the same. -/
structure Rewards.SamePaid (r r' : Rewards Addr) : Prop where
  claimed : ∀ key, claimedAmount (r'.stakerRewardLockup key) =
    claimedAmount (r.stakerRewardLockup key)
  pendingRewards : r'.pendingRewards = r.pendingRewards

theorem Rewards.SamePaid.outstanding_eq {r r' : Rewards Addr} (h : r.SamePaid r') :
    r'.outstanding = r.outstanding := by
  unfold Rewards.outstanding
  rw [PointSum.total_congr h.claimed, h.pendingRewards]

theorem Rewards.SamePaid.tallied {r r' : Rewards Addr} (h : r.SamePaid r') (hr : r.Tallied) :
    r'.Tallied where
  claimed := hr.claimed.congr h.claimed
  pending := h.pendingRewards ▸ hr.pending
  pending_nonneg := h.pendingRewards ▸ hr.pending_nonneg

end Amounts

section Rewards

variable {Addr : Type} [DecidableEq Addr]

/-- A settlement pays nothing: the lockups that it creates are not claimed. -/
theorem Settled.samePaid {now : ℕ} {reg : Registry Addr} {ep : Epochs Addr} {r r' : Rewards Addr}
    {staker : Addr} (h : Settled now reg ep r staker r') (hr : Booked r) : r.SamePaid r' := by
  refine ⟨fun key => ?_, h.pendingRewards⟩
  rw [h.lockup]
  split_ifs with hnew
  · obtain ⟨other, e⟩ := key
    obtain ⟨hstaker, hge, -⟩ := hnew
    have heq : other = staker := hstaker
    subst heq
    rw [hr.fresh ep hge, Option.or_none]
    cases hl : settledLockup now ep (reg.stake other) other e with
    | none => rfl
    | some l =>
      obtain ⟨-, -, -, -, -, hunclaimed⟩ := settledLockup_eq_some hl
      simp [claimedAmount, hunclaimed]
  · rfl

/-- One round of the scan counts what it marks as claimed. -/
theorem claimEpoch_outstanding {now : ℕ} {staker : Addr} {e : ℕ} {scan scan' : ClaimScan Addr}
    (hr : scan.rewards.Tallied) (h : claimEpoch now staker e scan = .ok scan') :
    scan'.rewards.Tallied ∧ scan'.rewards.outstanding + scan'.totalClaimable =
      scan.rewards.outstanding + scan.totalClaimable := by
  obtain ⟨hledgers, hround⟩ := claimEpoch_spec h
  have hpending := hledgers.pendingRewards
  rcases hround with ⟨hlockups, htotal⟩ | ⟨l, hl, hunclaimed, hlockups, htotal⟩
  · have hsame : scan.rewards.SamePaid scan'.rewards := ⟨fun _ => by rw [hlockups], hpending⟩
    exact ⟨hsame.tallied hr, by rw [hsame.outstanding_eq, htotal]⟩
  · refine ⟨⟨hlockups ▸ hr.claimed.update _ _, hpending ▸ hr.pending,
      hpending ▸ hr.pending_nonneg⟩, ?_⟩
    have hold : claimedAmount (scan.rewards.stakerRewardLockup (staker, e)) = 0 := by
      simp [claimedAmount, hl, hunclaimed]
    have hnew : claimedAmount (some { l with claimed := true }) = l.scaledAmount := rfl
    unfold Rewards.outstanding
    rw [hlockups, hpending, htotal, hr.claimed.total_update, hold, hnew]
    omega

theorem claimEpochs_outstanding {now : ℕ} {staker : Addr} {n : ℕ} {scan scan' : ClaimScan Addr}
    (hr : scan.rewards.Tallied) (h : claimEpochs now staker n scan = .ok scan') :
    scan'.rewards.Tallied ∧ scan'.rewards.outstanding + scan'.totalClaimable =
      scan.rewards.outstanding + scan.totalClaimable := by
  induction n generalizing scan' with
  | zero =>
    obtain rfl := pure_eq_ok.mp h
    exact ⟨hr, rfl⟩
  | succ e ih =>
    simp only [claimEpochs, bind_eq_ok] at h
    obtain ⟨mid, hmid, hlast⟩ := h
    obtain ⟨htallied, hsum⟩ := ih hmid
    obtain ⟨htallied', hsum'⟩ := claimEpoch_outstanding htallied hlast
    exact ⟨htallied', hsum'.trans hsum⟩

theorem claimLegacy_outstanding {staker : Addr} {scan claim : ClaimScan Addr}
    (hr : scan.rewards.Tallied) (h : claimLegacy scan staker = .ok claim) :
    claim.rewards.Tallied ∧ claim.rewards.outstanding + claim.totalClaimable =
      scan.rewards.outstanding + scan.totalClaimable := by
  obtain ⟨-, hlockups, legacy, hlegacy, htotal⟩ := claimLegacy_spec h
  rcases hlegacy with ⟨hpending, rfl⟩ | ⟨hpending, rfl⟩
  · have hsame : scan.rewards.SamePaid claim.rewards := ⟨fun _ => by rw [hlockups], hpending⟩
    exact ⟨hsame.tallied hr, by rw [hsame.outstanding_eq, htotal, add_zero]⟩
  · refine ⟨⟨hlockups ▸ hr.claimed, hpending ▸ hr.pending.update staker 0, fun other => ?_⟩, ?_⟩
    · rw [hpending, Function.update_apply]
      split_ifs
      · exact le_rfl
      · exact hr.pending_nonneg other
    · unfold Rewards.outstanding
      rw [hlockups, hpending, htotal, hr.pending.total_update, id, id]
      omega

/-- A credit for each entry of the list. -/
theorem creditShares_eq_ok {updates : List (Addr × ℤ)} {pending pending' : Addr → ℤ}
    (hupdates : ∀ update ∈ updates, 0 ≤ update.2) (hfinite : PointSum.Finite id pending)
    (hpending : ∀ staker, 0 ≤ pending staker) (h : creditShares updates pending = .ok pending') :
    PointSum.Finite id pending' ∧ (∀ staker, 0 ≤ pending' staker) ∧
      PointSum.total id pending' = PointSum.total id pending + (updates.map Prod.snd).sum := by
  induction updates generalizing pending with
  | nil =>
    obtain rfl := pure_eq_ok.mp h
    exact ⟨hfinite, hpending, by simp⟩
  | cons update rest ih =>
    obtain ⟨staker, share⟩ := update
    simp only [creditShares, bind_eq_ok, safeAdd_eq_ok] at h
    obtain ⟨credited, ⟨-, rfl⟩, h⟩ := h
    have hshare : 0 ≤ share := hupdates (staker, share) List.mem_cons_self
    have hnonneg : ∀ other, 0 ≤ Function.update pending staker (pending staker + share) other := by
      intro other
      rw [Function.update_apply]
      split_ifs
      · exact add_nonneg (hpending staker) hshare
      · exact hpending other
    obtain ⟨hfinite', hpending', htotal⟩ := ih
      (fun update hupdate => hupdates update (List.mem_cons_of_mem _ hupdate))
      (hfinite.update staker _) hnonneg h
    refine ⟨hfinite', hpending', ?_⟩
    rw [htotal, hfinite.total_update, List.map_cons, List.sum_cons]
    simp only [id]
    ring

omit [DecidableEq Addr] in
/-- What is staked at a position of the index. -/
def Registry.stakedAt (r : Registry Addr) (k : ℕ) : ℤ :=
  (r.stakerAt k).elim 0 fun staker => stakedAmount (r.stake staker)

omit [DecidableEq Addr] in
theorem Registry.stakedAt_of_occupant {r : Registry Addr} {k : ℕ} {staker : Addr}
    {record : StakeRecord Addr} (h : r.occupant k = some (staker, record)) :
    r.stakedAt k = record.amount := by
  obtain ⟨hat, hstake⟩ := Registry.occupant_eq_some.mp h
  simp [Registry.stakedAt, hat, hstake, stakedAmount]

omit [DecidableEq Addr] in
theorem Registry.Sound.stakedAt_nonneg {r : Registry Addr} (hr : r.Sound) (k : ℕ) :
    0 ≤ r.stakedAt k := by
  unfold Registry.stakedAt
  cases r.stakerAt k with
  | none => exact le_rfl
  | some staker => exact hr.stakedAmount_nonneg staker

/-- The positions of the index hold no more than the total. -/
theorem Registry.Sound.sum_stakedAt_le {r : Registry Addr} (hr : r.Sound) (P : Finset ℕ) :
    ∑ k ∈ P, r.stakedAt k ≤ r.totalStaked := by
  rw [hr.total]
  exact Shares.sum_positions_le (w := fun staker => stakedAmount (r.stake staker))
    hr.stakedAmount_nonneg hr.finite (fun _ _ _ hk hk' => hr.index.entry_inj hk hk') P

omit [DecidableEq Addr] in
/-- The first pass credits no position more than its share. -/
theorem batchShares_sum_le {r : Registry Addr} {amount : ℤ} {start n : ℕ}
    {updates : List (Addr × ℤ)} (hr : r.Sound) (hamount : 0 ≤ amount)
    (htotal : 0 ≤ r.totalStaked) (h : batchShares r amount start n = .ok updates) :
    (∀ update ∈ updates, 0 ≤ update.2) ∧ (updates.map Prod.snd).sum ≤
      ∑ k ∈ Finset.Ico start (start + n), r.stakedAt k * amount / r.totalStaked := by
  have hshare : ∀ k, 0 ≤ r.stakedAt k * amount / r.totalStaked := fun k =>
    Int.ediv_nonneg (mul_nonneg (hr.stakedAt_nonneg k) hamount) htotal
  induction n generalizing updates with
  | zero =>
    obtain rfl := pure_eq_ok.mp h
    simp
  | succ n ih =>
    simp only [batchShares, bind_eq_ok] at h
    obtain ⟨before, hbefore, h⟩ := h
    obtain ⟨hnonneg, hsum⟩ := ih hbefore
    have hlast := hshare (start + n)
    rw [← Nat.add_assoc, Finset.sum_Ico_succ_top (Nat.le_add_right start n)]
    cases hoccupant : r.occupant (start + n) with
    | none =>
      rw [hoccupant] at h
      obtain rfl := pure_eq_ok.mp h
      exact ⟨hnonneg, by omega⟩
    | some x =>
      obtain ⟨staker, record⟩ := x
      rw [hoccupant] at h
      simp only [bind_eq_ok, safeMul_eq_ok, safeDiv_eq_ok, pure_eq_ok] at h
      obtain ⟨-, ⟨-, rfl⟩, share, ⟨-, hdiv⟩, rfl⟩ := h
      have hat := Registry.stakedAt_of_occupant hoccupant
      have hstaked := hr.stakedAt_nonneg (start + n)
      rw [hat] at hstaked hlast ⊢
      rw [Int.tdiv_eq_ediv_of_nonneg (mul_nonneg hstaked hamount)] at hdiv
      subst hdiv
      split_ifs with hpos
      · refine ⟨fun update hupdate => ?_, ?_⟩
        · rcases List.mem_append.mp hupdate with hold | hnew
          · exact hnonneg update hold
          · obtain rfl := List.mem_singleton.mp hnew
            exact hpos.le
        · rw [List.map_append, List.sum_append, List.map_singleton, List.sum_singleton]
          exact add_le_add_left hsum _
      · exact ⟨hnonneg, by omega⟩

/-- A batch credits no more than its amount. -/
theorem batchShares_le {r : Registry Addr} {amount : ℤ} {start n : ℕ}
    {updates : List (Addr × ℤ)} (hr : r.Sound) (hamount : 0 ≤ amount)
    (htotal : r.totalStaked ≠ 0) (h : batchShares r amount start n = .ok updates) :
    (∀ update ∈ updates, 0 ≤ update.2) ∧ (updates.map Prod.snd).sum ≤ amount := by
  have hnonneg : 0 ≤ r.totalStaked := hr.total ▸ PointSum.total_nonneg hr.stakedAmount_nonneg
  obtain ⟨hupdates, hsum⟩ := batchShares_sum_le hr hamount hnonneg h
  exact ⟨hupdates, hsum.trans (Shares.sum_share_le hamount (lt_of_le_of_ne hnonneg htotal.symm)
    (hr.sum_stakedAt_le _))⟩

end Rewards

section Steps

variable {Addr : Type} [DecidableEq Addr] {mnt home : Addr} {inv : Invocation Addr home}
  {s t : State Addr} {call : Call Addr} {surplus : ℤ}

omit [DecidableEq Addr] in
/-- The books balance as long as what is held follows what is owed. -/
theorem Accounted.of_le {surplus' : ℤ} (h : Accounted mnt home s surplus)
    (htallied : t.rewards.Tallied) (hpool : 0 ≤ t.liquidity.lpRewardPool)
    (hle : t.registry.totalStaked + t.epochs.penaltyRedistributionPool +
        t.liquidity.lpRewardPool + t.epochs.recorded + t.rewards.outstanding + surplus' -
          t.tokens.balance mnt home ≤
      s.registry.totalStaked + s.epochs.penaltyRedistributionPool +
        s.liquidity.lpRewardPool + s.epochs.recorded + s.rewards.outstanding + surplus -
          s.tokens.balance mnt home) : Accounted mnt home t surplus' := by
  have hcovered := h.covered
  exact ⟨htallied, hpool, by omega⟩

theorem Accounted.of_staked {mentor : Addr} {amount : ℤ} {record : StakeRecord Addr}
    (hs : Consistent s) (ha : Accounted mnt home s surplus)
    (h : Staked inv s t mentor amount record mnt) : Accounted mnt home t surplus := by
  have hreg := hs.reachable.registry
  obtain ⟨-, -, htotal, -⟩ :=
    Registry.enlist_eq_ok (hreg.stakerIndex_eq_none h.fresh) h.enlisted
  have hpaid := transfer_in h.ne_self h.paid mnt
  have hsame : s.rewards.SamePaid t.rewards := by
    rw [h.rewards]
    exact ⟨fun _ => rfl, rfl⟩
  refine ha.of_le (hsame.tallied ha.tallied) (h.liquidity ▸ ha.lpRewardPool_nonneg) ?_
  rw [hsame.outstanding_eq, htotal, hpaid, if_pos rfl, h.epochs, h.liquidity, h.amount_eq]
  omega

/-- The penalty stays in the contract, the rest of the stake goes back. -/
theorem Accounted.of_unstaked {mentor : Addr} {record : StakeRecord Addr}
    {penalty : PenaltyCalculation} {settled : Rewards Addr} (hs : Consistent s)
    (ha : Accounted mnt home s surplus)
    (h : Unstaked inv s t mentor record penalty settled mnt) : Accounted mnt home t surplus := by
  obtain ⟨hpenalty, hreturned, hsum⟩ := h.penalty_spec hs.reachable
  obtain ⟨-, -, htotal, -⟩ := hs.reachable.registry.delist_eq_ok h.found h.delisted
  have hsettled := (settleEpochRewards_spec h.settlement).samePaid hs.lockups.booked
  have hsame : s.rewards.SamePaid t.rewards := by
    rw [h.rewards]
    exact ⟨hsettled.claimed, hsettled.pendingRewards⟩
  have hpaid := payIfPositive_out h.ne_self hreturned h.paid mnt
  rw [if_pos rfl] at hpaid
  have hepochs := Epochs.collectPenalty_eq_ok hpenalty h.collected
  have hpool : t.epochs.penaltyRedistributionPool =
      s.epochs.penaltyRedistributionPool + penalty.penaltyAmount := by rw [hepochs]
  have hrecorded : t.epochs.recorded = s.epochs.recorded := by
    rw [hepochs]
    rfl
  refine ha.of_le (hsame.tallied ha.tallied) (h.liquidity ▸ ha.lpRewardPool_nonneg) ?_
  rw [hsame.outstanding_eq, htotal, hpaid, hrecorded, hpool, h.liquidity]
  omega

/-- The revenue and the collected penalties become the reward of the epoch. -/
theorem Accounted.of_closed {now : ℕ} {amount : ℤ} (hs : Consistent s)
    (ha : Accounted mnt home s surplus) (h : Closed now s t amount) :
    Accounted mnt home t (surplus - amount) := by
  have hclosing := internalDistributeRevenue_closing (hs.epochs.openFrom _ le_rfl) h.nonneg
    hs.epochs.pool_nonneg h.closed
  have hrecorded : t.epochs.recorded =
      s.epochs.recorded + (amount + s.epochs.penaltyRedistributionPool) := by
    unfold Epochs.recorded
    rw [hclosing.epochId, Finset.sum_range_succ, hclosing.reward, Option.getD_some]
    congr 1
    refine Finset.sum_congr rfl fun e he => ?_
    rw [(hclosing.other e (Finset.mem_range.mp he).ne).reward]
  refine ha.of_le (h.rewards ▸ ha.tallied) (h.liquidity ▸ ha.lpRewardPool_nonneg) ?_
  rw [hrecorded, hclosing.pool, h.registry, h.rewards, h.liquidity, h.tokens]
  omega

theorem Accounted.of_batched {amount : ℤ} {offset limit : ℕ} (hs : Consistent s)
    (ha : Accounted mnt home s surplus) (h : Batched s t amount offset limit) :
    Accounted mnt home t (surplus - amount) := by
  have hcredited : t.rewards.Tallied ∧
      t.rewards.outstanding ≤ s.rewards.outstanding + amount := by
    have hnonneg := h.nonneg
    rcases h.credited with ⟨-, hrewards⟩ | ⟨hstaked, updates, pending, hshares, hpending, hrewards⟩
    · rw [hrewards]
      exact ⟨ha.tallied, by omega⟩
    · obtain ⟨hupdates, hsum⟩ := batchShares_le hs.reachable.registry hnonneg hstaked hshares
      obtain ⟨hfinite, hpending', htotal⟩ := creditShares_eq_ok hupdates ha.tallied.pending
        ha.tallied.pending_nonneg hpending
      have hclaimed : t.rewards.stakerRewardLockup = s.rewards.stakerRewardLockup := by
        rw [hrewards]
      have hcredits : t.rewards.pendingRewards = pending := by rw [hrewards]
      refine ⟨⟨hclaimed ▸ ha.tallied.claimed, hcredits ▸ hfinite, hcredits ▸ hpending'⟩, ?_⟩
      unfold Rewards.outstanding
      rw [hclaimed, hcredits, htotal]
      omega
  refine ha.of_le hcredited.1 (h.liquidity ▸ ha.lpRewardPool_nonneg) ?_
  have hle := hcredited.2
  rw [h.registry, h.epochs, h.liquidity, h.tokens]
  omega

/-- Whatever token a claim pays in, it takes no more than it marks as claimed. -/
theorem Accounted.of_claimed {staker token : Addr} {settled : Rewards Addr}
    {scan claim : ClaimScan Addr} (hs : Consistent s) (ha : Accounted mnt home s surplus)
    (h : Claimed inv s t staker token settled scan claim) : Accounted mnt home t surplus := by
  have hsettled := (settleEpochRewards_spec h.settlement).samePaid hs.lockups.booked
  obtain ⟨hscanned, hscan⟩ := claimEpochs_outstanding (hsettled.tallied ha.tallied) h.scanned
  obtain ⟨htallied, hclaim⟩ := claimLegacy_outstanding hscanned h.legacy
  have hpaid := transfer_out h.ne_self h.paid mnt
  have hnonneg := (Tokens.transfer_eq_ok h.paid).1
  have houtstanding : claim.rewards.outstanding = s.rewards.outstanding - claim.totalClaimable := by
    have hbefore := hsettled.outstanding_eq
    simp only [add_zero] at hscan
    omega
  refine ha.of_le (h.rewards ▸ htallied) (h.liquidity ▸ ha.lpRewardPool_nonneg) ?_
  rw [h.rewards, houtstanding, hpaid, h.registry, h.epochs, h.liquidity]
  split_ifs <;> omega

theorem Accounted.of_lpPaid {token : Addr} {reward : ℤ} (ha : Accounted mnt home s surplus)
    (h : LpPaid home s t token reward) : Accounted mnt home t surplus := by
  have hnonneg := h.nonneg
  have hpool := ha.lpRewardPool_nonneg
  have hle := h.le_pool
  rw [max_eq_left hpool] at hle
  refine ha.of_le (h.rewards ▸ ha.tallied) (h.lpRewardPool ▸ sub_nonneg.mpr hle) ?_
  rw [h.lpRewardPool, h.balance, h.registry, h.epochs, h.rewards]
  split_ifs <;> omega

/-- A call moves the surplus by what it deposits and what it promises. -/
theorem Accounted.of_effect (hs : Consistent s)
    (hmnt : t.config.mntToken = none ∨ t.config.mntToken = some mnt)
    (ha : Accounted mnt home s surplus) (h : Effect inv s t call) :
    Accounted mnt home t (surplus + (call.deposited mnt - call.promised)) := by
  have hpool := ha.lpRewardPool_nonneg
  cases h with
  | idled idle h =>
    rw [Call.deposited_of_isIdle mnt idle, Call.promised_of_isIdle idle]
    refine ha.of_le (h.rewards ▸ ha.tallied) (h.lpRewardPool ▸ hpool) ?_
    rw [h.registry, h.epochs, h.rewards, h.lpRewardPool, h.balance]
    omega
  | @staked mentor amount days record token h =>
    obtain rfl : token = mnt := by simpa [h.config, h.mntToken] using hmnt
    simpa only [Call.deposited, Call.promised, sub_zero, add_zero] using ha.of_staked hs h
  | @unstaked mentor record penalty settled token h =>
    obtain rfl : token = mnt := by simpa [h.config, h.mntToken] using hmnt
    simpa only [Call.deposited, Call.promised, sub_zero, add_zero] using ha.of_unstaked hs h
  | closed closes h =>
    rw [Call.deposited_of_closesEpoch mnt closes]
    simpa only [zero_sub, ← sub_eq_add_neg] using ha.of_closed hs h
  | batched h =>
    simpa only [Call.deposited, Call.promised, zero_sub, ← sub_eq_add_neg] using
      ha.of_batched hs h
  | claimed h =>
    simpa only [Call.deposited, Call.promised, sub_zero, add_zero] using ha.of_claimed hs h
  | funded h =>
    have hpos := h.pos
    refine ha.of_le (h.rewards ▸ ha.tallied) (h.lpRewardPool ▸ by omega) ?_
    rw [h.registry, h.epochs, h.rewards, h.lpRewardPool, h.tokens]
    simp only [Call.deposited, Call.promised]
    omega
  | lpPaid h =>
    simpa only [Call.deposited, Call.promised, sub_zero, add_zero] using ha.of_lpPaid h
  | @deposited token source amount h =>
    refine ha.of_le (h.rewards ▸ ha.tallied) (h.liquidity ▸ hpool) ?_
    rw [h.registry, h.epochs, h.rewards, h.liquidity, h.balance]
    simp only [Call.deposited, Call.promised, eq_comm (a := mnt)]
    omega

end Steps

end Staking
