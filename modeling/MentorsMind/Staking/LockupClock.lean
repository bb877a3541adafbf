import MentorsMind.Staking.ClaimProgress

/-! Two claims of one staker, thirty days apart: whether the second pays an epoch that the
first one found unsettled. -/
namespace Staking
open Outcome Soroban Shared

section Frame

variable {Addr : Type} [DecidableEq Addr] {home : Addr} {inv : Invocation Addr home}
  {s t : State Addr} {call : Call Addr} {staker : Addr}

/-- A call that does not settle for the staker leaves its lockups alone. -/
theorem Effect.lockups_other (h : Effect inv s t call) (hother : call.settles ≠ some staker) :
    t.rewards.lockups staker = s.rewards.lockups staker ∧
      t.rewards.stakerLockupSettledUntil staker = s.rewards.stakerLockupSettledUntil staker := by
  have hsame : t.rewards.stakerRewardLockup = s.rewards.stakerRewardLockup →
      t.rewards.stakerLockupSettledUntil = s.rewards.stakerLockupSettledUntil →
      t.rewards.lockups staker = s.rewards.lockups staker ∧
        t.rewards.stakerLockupSettledUntil staker =
          s.rewards.stakerLockupSettledUntil staker := by
    intro hlockup huntil
    refine ⟨?_, by rw [huntil]⟩
    funext e
    unfold Rewards.lockups
    rw [hlockup]
  -- A settlement writes the lockups and the progress of its own staker only.
  have hsettled : ∀ {now : ℕ} {other : Addr} {settled : Rewards Addr}, other ≠ staker →
      Settled now s.registry s.epochs s.rewards other settled →
      (∀ e, settled.stakerRewardLockup (staker, e) = s.rewards.stakerRewardLockup (staker, e)) ∧
        settled.stakerLockupSettledUntil staker = s.rewards.stakerLockupSettledUntil staker := by
    intro now other settled hne hspec
    constructor
    · intro e
      rw [hspec.lockup, if_neg fun hkey => hne hkey.1.symm]
    · rw [hspec.settledUntil]
      split_ifs
      · rw [Function.update_of_ne hne.symm]
      · rfl
  cases h with
  | idled idle h => exact hsame (by rw [h.rewards]) (by rw [h.rewards])
  | staked h => exact hsame (by rw [h.rewards]) (by rw [h.rewards])
  | closed closes h => exact hsame (by rw [h.rewards]) (by rw [h.rewards])
  | funded h => exact hsame (by rw [h.rewards]) (by rw [h.rewards])
  | lpPaid h => exact hsame (by rw [h.rewards]) (by rw [h.rewards])
  | deposited h => exact hsame (by rw [h.rewards]) (by rw [h.rewards])
  | batched h =>
    rcases h.credited with ⟨-, hrewards⟩ | ⟨-, updates, pending, -, -, hrewards⟩
    · exact hsame (by rw [hrewards]) (by rw [hrewards])
    · exact hsame (by rw [hrewards]) (by rw [hrewards])
  | @unstaked mentor record penalty settled mnt h =>
    have hne : mentor ≠ staker := fun heq => hother (by rw [← heq]; rfl)
    obtain ⟨hlockup, huntil⟩ := hsettled hne (settleEpochRewards_spec h.settlement)
    refine ⟨?_, by rw [h.rewards]; exact huntil⟩
    funext e
    unfold Rewards.lockups
    rw [h.rewards]
    exact hlockup e
  | @claimed other token settled scan claim h =>
    have hne : other ≠ staker := fun heq => hother (by rw [← heq]; rfl)
    obtain ⟨hlockup, huntil⟩ := hsettled hne (settleEpochRewards_spec h.settlement)
    have hscanned := (claimEpochs_isOk_iff _ _ _ _).2 scan h.scanned
    obtain ⟨hlegacyUntil, hlegacy, -⟩ := claimLegacy_spec h.legacy
    constructor
    · funext e
      unfold Rewards.lockups
      rw [h.rewards, hlegacy, hscanned.lockup, if_neg fun hkey => hne hkey.1.symm]
      exact hlockup e
    · rw [h.rewards, hlegacyUntil, hscanned.ledgers.settledUntil]
      exact huntil

/-- Neither do calls of others, one after the other. -/
theorem run_lockups_other (checksum : ℕ → ℤ → Hash) (hs : Consistent s)
    {rest : List (Step Addr home)} (hrest : ∀ step ∈ rest, step.2.settles ≠ some staker) :
    ((machine home checksum).run s rest).rewards.lockups staker = s.rewards.lockups staker ∧
      ((machine home checksum).run s rest).rewards.stakerLockupSettledUntil staker =
        s.rewards.stakerLockupSettledUntil staker := by
  induction rest generalizing s with
  | nil => exact ⟨rfl, rfl⟩
  | cons step rest ih =>
    have htail := fun x hx => hrest x (List.mem_cons_of_mem step hx)
    rw [Machine.run_cons]
    rcases Machine.apply_cases (machine home checksum) s step with ⟨t, hx, happly⟩ | ⟨_, -, happly⟩
    · rw [happly]
      have heffect := exec_effect hs.reachable.wellFormed hx
      obtain ⟨hlockups, huntil⟩ := heffect.lockups_other (hrest step List.mem_cons_self)
      obtain ⟨hlockups', huntil'⟩ := ih (hs.of_effect heffect) htail
      exact ⟨hlockups'.trans hlockups, huntil'.trans huntil⟩
    · rw [happly]
      exact ih hs htail

end Frame

section Claims

variable {Addr : Type} [DecidableEq Addr] {home : Addr} {checksum : ℕ → ℤ → Hash}
  {inv : Invocation Addr home} {s t u : State Addr} {staker token : Addr} {now e : ℕ}

/-- The reward of an epoch was paid. -/
def Paid (o : Option RewardLockup) : Prop := ∃ l ∈ o, l.claimed = true

/-- A settlement pays nothing by itself. -/
theorem Settled.paid {other : Addr} {settled : Rewards Addr} (hbooked : Booked s.rewards)
    (h : Settled now s.registry s.epochs s.rewards other settled)
    (hpaid : Paid (settled.lockups staker e)) : Paid (s.rewards.lockups staker e) := by
  obtain ⟨l, hl, hclaimed⟩ := hpaid
  have hl' : settled.stakerRewardLockup (staker, e) = some l := hl
  rw [h.lockup] at hl'
  split_ifs at hl' with hwindow
  · obtain ⟨hstaker, hge, -⟩ := hwindow
    have heq : staker = other := hstaker
    subst heq
    rw [hbooked.fresh s.epochs hge, Option.or_none] at hl'
    obtain ⟨-, -, -, -, -, hunclaimed⟩ := settledLockup_eq_some hl'
    rw [hunclaimed] at hclaimed
    cases hclaimed
  · exact ⟨l, hl', hclaimed⟩

/-- What a claim marks as paid is what its scan has served. -/
theorem Claimed.paid_iff {settled : Rewards Addr} {scan claim : ClaimScan Addr}
    (hs : Consistent s) (h : Claimed inv s t staker token settled scan claim) :
    ¬ Paid (s.rewards.lockups staker e) ∧ Paid (t.rewards.lockups staker e) ↔
      e ∈ servedEpochs inv.timestamp (lockupsSettled inv.timestamp s staker)
        s.epochs.epochId := by
  have hspec := settleEpochRewards_spec h.settlement
  rw [h.lockups_eq]
  constructor
  · rintro ⟨hunpaid, hpaid⟩
    by_contra hnot
    rw [if_neg hnot, ← hspec.lockups_eq] at hpaid
    exact hunpaid (hspec.paid hs.lockups.booked hpaid)
  · intro hserved
    rw [if_pos hserved]
    obtain ⟨-, hclaimable, -⟩ := FirstServed.mem_served.mp hserved
    constructor
    · rintro ⟨l, hl, hclaimed⟩
      rcases (claimable_lockupsSettled_iff hs).mp hclaimable with hold | hborn
      · obtain ⟨l', hl', hunclaimed, -⟩ := (mem_claimableEpochs hs).mp hold
        obtain rfl : l = l' := Option.mem_unique hl hl'
        rw [hclaimed] at hunclaimed
        cases hunclaimed
      · rw [lockups_eq_none_of_born hs hborn] at hl
        cases hl
    · obtain ⟨l, hl, -⟩ := hclaimable
      rw [Option.mem_def.mp hl]
      exact ⟨_, rfl, rfl⟩

/-- A claim that pays the reward of the epoch `e`. -/
def PaysEpoch (checksum : ℕ → ℤ → Hash) (inv : Invocation Addr home) (s : State Addr)
    (staker token : Addr) (e : ℕ) : Prop :=
  ∃ t, (machine home checksum).exec (inv, .claimRewards staker token) s = .ok t ∧
    ¬ Paid (s.rewards.lockups staker e) ∧ Paid (t.rewards.lockups staker e)

theorem paysEpoch_iff (hs : Consistent s) :
    PaysEpoch checksum inv s staker token e ↔ ClaimAdmitted inv s staker token ∧
      ClaimFits inv.timestamp s staker ∧
      e ∈ servedEpochs inv.timestamp (lockupsSettled inv.timestamp s staker)
        s.epochs.epochId := by
  have hisOk := claimRewards_isOk_iff inv staker token hs.lockups.booked
  constructor
  · rintro ⟨t, hexec, hpays⟩
    have hclaim : claimRewards inv s staker token = .ok t := hexec
    obtain ⟨hadmitted, hfits, -⟩ := hisOk.mp ⟨t, hclaim⟩
    obtain ⟨settled, scan, claim, heffect⟩ := claimRewards_effect hclaim
    exact ⟨hadmitted, hfits, (heffect.paid_iff hs).mp hpays⟩
  · rintro ⟨hadmitted, hfits, hserved⟩
    have hpos : 0 < claimAmount inv.timestamp s staker :=
      add_pos_of_pos_of_nonneg (servedAmount_pos_iff.mpr ⟨e, hserved⟩) (le_max_right _ _)
    obtain ⟨t, hclaim⟩ := hisOk.mpr ⟨hadmitted, hfits, hpos⟩
    obtain ⟨settled, scan, claim, heffect⟩ := claimRewards_effect hclaim
    exact ⟨t, hclaim, (heffect.paid_iff hs).mpr hserved⟩

/-- The claim goes through and creates the lockup of the epoch `e`, as one of the first
hundred of its staker: the stake is old enough for a multiplier. -/
structure StartsClock (inv : Invocation Addr home) (s : State Addr) (staker token : Addr)
    (e : ℕ) : Prop where
  admitted : ClaimAdmitted inv s staker token
  fits : ClaimFits inv.timestamp s staker
  pays : 0 < claimAmount inv.timestamp s staker
  multiplied : 0 < settlementMultiplier inv.timestamp (s.registry.stake staker)
  settled : e < s.rewards.settleEnd s.epochs staker
  early : Nat.count (Recorded (lockupsSettled inv.timestamp s staker)) e < maxLockupsPerClaim

omit [DecidableEq Addr] in
/-- A lockup that a settlement creates can be claimed thirty days later. -/
theorem settledLockup_claimable {ep : Epochs Addr} {record : Option (StakeRecord Addr)}
    {later : ℕ} (hshare : 0 < epochShare ep staker e) (hmult : 0 < settlementMultiplier now record)
    (hlater : now + rewardLockupSecs ≤ later) :
    ∃ l ∈ settledLockup now ep record staker e,
      l.claimed = false ∧ l.unlocksAt ≤ later ∧ 0 < l.scaledAmount := by
  exact ⟨_, settledLockup_of_pos now hshare hmult, rfl, (min_le_left _ _).trans hlater,
    hshare.trans_le (epochShare_le_scaled hshare hmult.ne')⟩

/-- What the first claim leaves of an epoch that it finds unsettled: the lockup that it
creates, if any, whose lock has just begun. -/
theorem Claimed.lockups_of_unsettled {settled : Rewards Addr} {scan claim : ClaimScan Addr}
    (hs : Consistent s) (h : Claimed inv s t staker token settled scan claim)
    (hunsettled : s.rewards.settleStart s.epochs staker ≤ e)
    (hu64 : inv.timestamp + rewardLockupSecs < 2 ^ 64) :
    t.rewards.lockups staker e =
      if e < s.rewards.settleEnd s.epochs staker then
        settledLockup inv.timestamp s.epochs (s.registry.stake staker) staker e
      else none := by
  have hfresh : s.rewards.lockups staker e = none := hs.lockups.booked.fresh s.epochs hunsettled
  have hlockup : lockupsSettled inv.timestamp s staker e =
      if e < s.rewards.settleEnd s.epochs staker then
        settledLockup inv.timestamp s.epochs (s.registry.stake staker) staker e
      else none := by
    simp only [lockupsSettled, hunsettled, true_and, hfresh, Option.or_none]
  rw [h.lockups_eq, if_neg ?_, hlockup]
  -- The scan passes over a lockup that is still locked.
  intro hserved
  obtain ⟨-, ⟨l, hl, -, hunlocked, -⟩, -⟩ := FirstServed.mem_served.mp hserved
  rw [hlockup] at hl
  split_ifs at hl
  · have hnow : inv.timestamp + 1 < 2 ^ 64 := by
      unfold rewardLockupSecs at hu64
      omega
    exact absurd hunlocked (not_le.mpr (lt_unlocksAt_of_settledLockup hnow hl))
  · cases hl

/-- After the first claim the next settlement starts where it ended. -/
theorem Claimed.settleEnd_le_settleStart {settled : Rewards Addr} {scan claim : ClaimScan Addr}
    (h : Claimed inv s t staker token settled scan claim)
    (hprogress : s.rewards.settleStart s.epochs staker < s.rewards.settleEnd s.epochs staker)
    (hu : u.rewards.stakerLockupSettledUntil staker = t.rewards.stakerLockupSettledUntil staker) :
    s.rewards.settleEnd s.epochs staker ≤ u.rewards.settleStart u.epochs staker := by
  have hspec := settleEpochRewards_spec h.settlement
  have hscanned := (claimEpochs_isOk_iff _ _ _ _).2 scan h.scanned
  obtain ⟨huntil, -, -⟩ := claimLegacy_spec h.legacy
  have hle : s.rewards.settledUntil s.epochs staker ≤ s.rewards.settleStart s.epochs staker :=
    le_max_right _ _
  rw [h.rewards, huntil, hscanned.ledgers.settledUntil, hspec.settledUntil, if_pos (by omega),
    Function.update_self, max_eq_right hprogress.le] at hu
  simp only [Rewards.settleStart, Rewards.settledUntil, hu, Option.getD_some]
  omega

/-- What a first claim that went through means for the next one, thirty days later, as long
as nothing is settled for the staker in between. -/
theorem Claimed.claimable_later_iff {settled : Rewards Addr} {scan claim : ClaimScan Addr}
    {later : ℕ} (hs : Consistent s) (h : Claimed inv s t staker token settled scan claim)
    (hclaim : claimRewards inv s staker token = .ok t)
    (hunsettled : s.rewards.settleStart s.epochs staker ≤ e)
    (hshare : 0 < epochShare s.epochs staker e)
    (hlockups : u.rewards.lockups staker = t.rewards.lockups staker)
    (huntil : u.rewards.stakerLockupSettledUntil staker =
      t.rewards.stakerLockupSettledUntil staker)
    (hlater : inv.timestamp + rewardLockupSecs ≤ later) (hu64 : later < 2 ^ 64) :
    Claimable later (u.rewards.lockups staker) e ∧
        Nat.count (Recorded (lockupsSettled later u staker)) e < maxLockupsPerClaim ↔
      StartsClock inv s staker token e := by
  obtain ⟨hadmitted, hfits, hpays⟩ :=
    (claimRewards_isOk_iff inv staker token hs.lockups.booked).mp ⟨t, hclaim⟩
  have hlockup := h.lockups_of_unsettled hs hunsettled (by omega)
  by_cases hcreated : e < s.rewards.settleEnd s.epochs staker ∧
      0 < settlementMultiplier inv.timestamp (s.registry.stake staker)
  · obtain ⟨hsettled, hmult⟩ := hcreated
    rw [if_pos hsettled] at hlockup
    have hclaimable : Claimable later (u.rewards.lockups staker) e := by
      unfold Claimable
      rw [hlockups, hlockup]
      exact settledLockup_claimable hshare hmult hlater
    have hbehind := h.settleEnd_le_settleStart (lt_of_le_of_lt hunsettled hsettled) huntil
    have hcount : Nat.count (Recorded (lockupsSettled later u staker)) e =
        Nat.count (Recorded (lockupsSettled inv.timestamp s staker)) e := by
      apply FirstServed.count_congr
      intro k hk
      have hbefore : ¬ (u.rewards.settleStart u.epochs staker ≤ k ∧
          k < u.rewards.settleEnd u.epochs staker) := by omega
      unfold Recorded
      rw [lockupsSettled, if_neg hbefore, hlockups, h.lockups_eq]
      split_ifs
      · rw [Option.isSome_map]
      · rfl
    rw [hcount]
    constructor
    · rintro ⟨-, hearly⟩
      exact ⟨hadmitted, hfits, hpays, hmult, hsettled, hearly⟩
    · intro hstarts
      exact ⟨hclaimable, hstarts.early⟩
  · have hnone : t.rewards.lockups staker e = none := by
      rw [hlockup]
      split_ifs with hsettled
      · exact if_neg fun hpos => hcreated ⟨hsettled, hpos.2⟩
      · rfl
    constructor
    · rintro ⟨⟨l, hl, -⟩, -⟩
      rw [hlockups, hnone] at hl
      cases hl
    · intro hstarts
      exact absurd ⟨hstarts.settled, hstarts.multiplied⟩ hcreated

end Claims

section Runs

variable {Addr : Type} [DecidableEq Addr] {home : Addr}

/-- The next claim of a staker at least thirty days after one that found the epoch `e`
unsettled with a positive share pays it exactly when nothing is in the way of that later
claim, and the earlier one went through and created the lockup. Failing that, the lockup
would have to be born unlocked, in the last second that a `u64` can tell. -/
theorem paysEpoch_after_claim_iff (checksum : ℕ → ℤ → Hash) (balance : Addr → Addr → ℕ)
    (steps rest : List (Step Addr home)) {first second : Invocation Addr home}
    {staker token token' : Addr} {e : ℕ} {s u : State Addr}
    (hs : (machine home checksum).run (deployed balance) steps = s)
    (hu : (machine home checksum).run (deployed balance)
      (steps ++ (first, .claimRewards staker token) :: rest) = u)
    (hunsettled : s.rewards.settleStart s.epochs staker ≤ e)
    (hshare : 0 < epochShare s.epochs staker e)
    (hrest : ∀ step ∈ rest, step.2.settles ≠ some staker)
    (hlater : first.timestamp + rewardLockupSecs ≤ second.timestamp)
    (hu64 : second.timestamp < 2 ^ 64) :
    PaysEpoch checksum second u staker token' e ↔ ClaimAdmitted second u staker token' ∧
      ClaimFits second.timestamp u staker ∧
      (StartsClock first s staker token e ∨ (e ∈ bornUnlocked second.timestamp u staker ∧
        Nat.count (Recorded (lockupsSettled second.timestamp u staker)) e <
          maxLockupsPerClaim)) := by
  have hsound : Consistent s := hs ▸ run_consistent checksum balance steps
  have husound : Consistent u := hu ▸ run_consistent checksum balance _
  have hstart : Claimable second.timestamp (u.rewards.lockups staker) e ∧
      Nat.count (Recorded (lockupsSettled second.timestamp u staker)) e < maxLockupsPerClaim ↔
      StartsClock first s staker token e := by
    rw [Machine.run_append, hs, Machine.run_cons] at hu
    rcases Machine.apply_cases (machine home checksum) s (first, .claimRewards staker token) with
      ⟨t, hexec, happly⟩ | ⟨trap, hexec, happly⟩
    · have hclaim : claimRewards first s staker token = .ok t := hexec
      obtain ⟨settled, scan, claim, heffect⟩ := claimRewards_effect hclaim
      have ht := hsound.of_effect (.claimed heffect)
      obtain ⟨hlockups, huntil⟩ := run_lockups_other checksum ht hrest
      rw [happly] at hu
      rw [hu] at hlockups huntil
      exact heffect.claimable_later_iff hsound hclaim hunsettled hshare hlockups huntil hlater hu64
    -- A claim that fails leaves the epoch unsettled.
    · obtain ⟨hlockups, -⟩ := run_lockups_other checksum hsound hrest
      rw [happly] at hu
      rw [hu] at hlockups
      constructor
      · rintro ⟨⟨l, hl, -⟩, -⟩
        have hfresh : s.rewards.lockups staker e = none :=
          hsound.lockups.booked.fresh s.epochs hunsettled
        rw [hlockups, hfresh] at hl
        cases hl
      · intro h
        obtain ⟨t, hclaim⟩ := (claimRewards_isOk_iff first staker token
          hsound.lockups.booked).mpr ⟨h.admitted, h.fits, h.pays⟩
        have hok : (machine home checksum).exec (first, .claimRewards staker token) s = .ok t :=
          hclaim
        rw [hexec] at hok
        cases hok
  rw [paysEpoch_iff husound, mem_servedEpochs husound, claimable_lockupsSettled_iff husound,
    mem_claimableEpochs husound, or_and_right, hstart]

end Runs

/-- As a batch left something for the staker, its first claim goes through. -/
def legacyStake : List (Step ℕ 0) :=
  soleStake ++ [(grantedByAll (14 * day), .distributeRevenueBatch 9 10 0 10)]

theorem paysEpoch_after_claim_iff_legacyStake :
    let s := (machine 0 noDigest).run (deployed stakerFunds) legacyStake
    let u := (machine 0 noDigest).run (deployed stakerFunds)
      (legacyStake ++ [(grantedByAll (14 * day), .claimRewards 3 9)])
    PaysEpoch noDigest (grantedByAll (44 * day)) u 3 9 1 ↔
      ClaimAdmitted (grantedByAll (44 * day)) u 3 9 ∧ ClaimFits (44 * day) u 3 ∧
      (StartsClock (grantedByAll (14 * day)) s 3 9 1 ∨ (1 ∈ bornUnlocked (44 * day) u 3 ∧
        Nat.count (Recorded (lockupsSettled (44 * day) u 3)) 1 < maxLockupsPerClaim)) := by
  intro s u
  exact paysEpoch_after_claim_iff noDigest stakerFunds legacyStake [] rfl rfl (by decide +kernel)
    (by decide +kernel) (by simp) (by decide) (by decide)

/-- With nothing to pay the first claim fails and with it its settlement, so that thirty days
later the reward is locked for another thirty days. -/
theorem soleStake_clock_not_started :
    let s := (machine 0 noDigest).run (deployed stakerFunds) soleStake
    let u := (machine 0 noDigest).run (deployed stakerFunds)
      (soleStake ++ [(grantedByAll (14 * day), .claimRewards 3 9)])
    s.rewards.settleStart s.epochs 3 ≤ 1 ∧ 0 < epochShare s.epochs 3 1 ∧
      0 < settlementMultiplier (14 * day) (s.registry.stake 3) ∧
      ClaimAdmitted (grantedByAll (44 * day)) u 3 9 ∧
      ¬ PaysEpoch noDigest (grantedByAll (44 * day)) u 3 9 1 := by
  intro s u
  refine ⟨by decide +kernel, by decide +kernel, by decide +kernel,
    ⟨rfl, by decide +kernel, rfl, rfl, by decide +kernel⟩, ?_⟩
  have hu : Consistent u := run_consistent noDigest stakerFunds _
  have hnone : servedEpochs (44 * day) (lockupsSettled (44 * day) u 3) u.epochs.epochId = ∅ := by
    decide +kernel
  intro hpays
  obtain ⟨-, -, hserved⟩ := (paysEpoch_iff hu).mp hpays
  rw [show (grantedByAll (44 * day)).timestamp = 44 * day from rfl, hnone] at hserved
  cases hserved

end Staking
