import MentorsMind.Staking.PenaltyPool
import MentorsMind.Staking.SettlementTime
import MentorsMind.Staking.SingleReward

/-! What a staker loses by unstaking: the epochs beyond the fifty that the last settlement
covers, and those that a settlement covered while the stake was too young to earn. -/
namespace Staking
open Outcome Soroban Shared

variable {Addr : Type} [DecidableEq Addr] {home : Addr}

/-- The epoch `e` has closed since `staker` entered, and the staker has a share in it. -/
structure Earned (s : State Addr) (staker : Addr) (e : ℕ) : Prop where
  entered : s.rewards.entryEpoch s.epochs staker ≤ e
  closed : e < s.epochs.epochId
  share : ¬ NoShare s.epochs staker e

/-- The call settles the epoch `e` for `staker`. -/
structure Covers (s : State Addr) (step : Step Addr home) (staker : Addr) (e : ℕ) : Prop where
  settles : step.2.settles = some staker
  start_le : s.rewards.settleStart s.epochs staker ≤ e
  lt_end : e < s.rewards.settleEnd s.epochs staker

/-- The stake of `staker`, if any, is old enough to earn. -/
def OfAge (s : State Addr) (step : Step Addr home) (staker : Addr) : Prop :=
  ∀ record, s.registry.stake staker = some record → isEligible step.1.timestamp record = true

omit [DecidableEq Addr] in
theorem ofAge_iff {s : State Addr} {step : Step Addr home} {staker : Addr} :
    OfAge s step staker ↔
      0 < settlementMultiplier step.1.timestamp (s.registry.stake staker) := by
  unfold OfAge
  cases hstake : s.registry.stake staker with
  | none => simp [settlementMultiplier, rewardMultiplierMinBps]
  | some record =>
    show (∀ r, some record = some r → isEligible step.1.timestamp r = true) ↔
      0 < computeRewardMultiplierBps (step.1.timestamp - record.stakedAt)
    simp only [Option.some.injEq, forall_eq', isEligible, decide_eq_true_eq]
    rcases computeRewardMultiplierBps_cases (step.1.timestamp - record.stakedAt) with
      ⟨hyoung, hzero⟩ | ⟨hold, hpos⟩
    · rw [hzero]
      omega
    · exact iff_of_true hold (lt_of_lt_of_le (by decide) hpos)

section Lockups

variable {checksum : ℕ → ℤ → Hash} {balance : Addr → Addr → ℕ} {steps : List (Step Addr home)}
  {staker : Addr} {e : ℕ}

/-- A lockup for an epoch with a share is there exactly if the epoch was settled while the
stake was old enough. -/
theorem lockup_ne_none_iff
    (hshare : ¬ NoShare ((machine home checksum).run (deployed balance) steps).epochs staker e) :
    ((machine home checksum).run (deployed balance) steps).rewards.lockups staker e ≠ none ↔
      ∃ pre step t, (machine home checksum).Executes (deployed balance) steps pre step t ∧
        Covers ((machine home checksum).run (deployed balance) pre) step staker e ∧
        OfAge ((machine home checksum).run (deployed balance) pre) step staker := by
  constructor
  · intro hsome
    obtain ⟨l, hl⟩ := Option.ne_none_iff_exists'.mp hsome
    refine run_lockups (P := fun staker e _ => ∃ pre step t,
      (machine home checksum).Executes (deployed balance) steps pre step t ∧
        Covers ((machine home checksum).run (deployed balance) pre) step staker e ∧
        OfAge ((machine home checksum).run (deployed balance) pre) step staker)
      ?_ steps List.prefix_rfl staker e l hl
    rintro pre step t hx u rfl staker e hsettles hstart hend - hmult
    exact ⟨pre, step, t, hx, ⟨hsettles, hstart, hend⟩, ofAge_iff.mpr (Nat.pos_of_ne_zero hmult)⟩
  · rintro ⟨pre, step, t, hx, hcovers, hage⟩
    have hs := run_consistent checksum balance pre
    have hclosed : e < ((machine home checksum).run (deployed balance) pre).epochs.epochId :=
      hcovers.lt_end.trans_le (min_le_left _ _)
    obtain ⟨post, hpost, -⟩ := id hx
    have hsame : epochShare ((machine home checksum).run (deployed balance) steps).epochs staker
        e = epochShare ((machine home checksum).run (deployed balance) pre).epochs staker e := by
      rw [hpost, Machine.run_append]
      exact (run_sameRow checksum hs hclosed _).epochShare_eq staker
    have hpos := hsame ▸ epochShare_pos_iff.mpr hshare
    obtain ⟨l, hl, -⟩ := (executes_effect hx).lockup_created hcovers.settles hcovers.start_le
      hcovers.lt_end (settledLockup_of_pos step.1.timestamp hpos (ofAge_iff.mp hage))
    rw [← hx.run_eq] at hl
    obtain ⟨l', hl', -⟩ := (run_lockup_later hx.snoc_prefix hl).exists_of_some rfl
    rw [hl']
    simp

end Lockups

section Cursors

/-- The settlement moves both cursors of `staker` to where it ended. -/
structure Advanced (ep : Epochs Addr) (r r' : Rewards Addr) (staker : Addr) : Prop where
  entry : r'.stakerEpochEntry staker = r.stakerEpochEntry staker
  nextClaim : r'.stakerNextClaimEpoch staker =
    if r.nextClaim ep staker < max (r.settleStart ep staker) (r.settleEnd ep staker) then
      some (max (r.settleStart ep staker) (r.settleEnd ep staker))
    else r.stakerNextClaimEpoch staker
  settledUntil : r'.stakerLockupSettledUntil staker =
    if r.settledUntil ep staker < max (r.settleStart ep staker) (r.settleEnd ep staker) then
      some (max (r.settleStart ep staker) (r.settleEnd ep staker))
    else r.stakerLockupSettledUntil staker

/-- What is known of `staker` beside its lockups is the same in both. -/
structure SameCursors (r r' : Rewards Addr) (staker : Addr) : Prop where
  entry : r'.stakerEpochEntry staker = r.stakerEpochEntry staker
  nextClaim : r'.stakerNextClaimEpoch staker = r.stakerNextClaimEpoch staker
  settledUntil : r'.stakerLockupSettledUntil staker = r.stakerLockupSettledUntil staker

theorem settleEpochRewards_cursors {now : ℕ} {reg : Registry Addr} {ep : Epochs Addr}
    {r r' : Rewards Addr} {staker : Addr}
    (h : settleEpochRewards now reg ep r staker = .ok r') :
    Advanced ep r r' staker ∧ ∀ other, other ≠ staker → SameCursors r r' other := by
  simp only [settleEpochRewards, bind_eq_ok, pure_eq_ok] at h
  obtain ⟨settled, hsettled, rfl⟩ := h
  obtain ⟨hledgers, -⟩ := settleEpochs_spec hsettled
  refine ⟨⟨congrFun hledgers.entry staker, ?_, ?_⟩, fun other hne =>
    ⟨congrFun hledgers.entry other, ?_, ?_⟩⟩
  · show (if _ then _ else settled.stakerNextClaimEpoch) staker = _
    rw [hledgers.nextClaim]
    split_ifs
    · exact Function.update_self ..
    · rfl
  · show (if _ then _ else settled.stakerLockupSettledUntil) staker = _
    rw [hledgers.settledUntil]
    split_ifs
    · exact Function.update_self ..
    · rfl
  · show (if _ then _ else settled.stakerNextClaimEpoch) other = _
    rw [hledgers.nextClaim]
    split_ifs
    · exact Function.update_of_ne hne ..
    · rfl
  · show (if _ then _ else settled.stakerLockupSettledUntil) other = _
    rw [hledgers.settledUntil]
    split_ifs
    · exact Function.update_of_ne hne ..
    · rfl

theorem claimLegacy_cursors {staker : Addr} {scan claim : ClaimScan Addr}
    (h : claimLegacy scan staker = .ok claim) (other : Addr) :
    SameCursors scan.rewards claim.rewards other := by
  unfold claimLegacy at h
  dsimp only at h
  split_ifs at h with hlegacy
  · simp only [bind_eq_ok, pure_eq_ok] at h
    obtain ⟨-, -, rfl⟩ := h
    exact ⟨rfl, rfl, rfl⟩
  · obtain rfl := pure_eq_ok.mp h
    exact ⟨rfl, rfl, rfl⟩

omit [DecidableEq Addr] in
theorem SameCursors.trans {r r' r'' : Rewards Addr} {staker : Addr}
    (h : SameCursors r r' staker) (h' : SameCursors r' r'' staker) : SameCursors r r'' staker :=
  ⟨h'.entry.trans h.entry, h'.nextClaim.trans h.nextClaim, h'.settledUntil.trans h.settledUntil⟩

omit [DecidableEq Addr] in
theorem SameLedgers.cursors {r r' : Rewards Addr} (h : SameLedgers r r') (staker : Addr) :
    SameCursors r r' staker :=
  ⟨congrFun h.entry staker, congrFun h.nextClaim staker, congrFun h.settledUntil staker⟩

omit [DecidableEq Addr] in
theorem Advanced.of_same {ep : Epochs Addr} {r r' r'' : Rewards Addr} {staker : Addr}
    (h : Advanced ep r r' staker) (h' : SameCursors r' r'' staker) : Advanced ep r r'' staker :=
  ⟨h'.entry.trans h.entry, h'.nextClaim.trans h.nextClaim, h'.settledUntil.trans h.settledUntil⟩

/-- The cursors of a staker who has just entered. -/
structure Entered (s t : State Addr) (staker : Addr) : Prop where
  entry : t.rewards.stakerEpochEntry staker = some (s.epochs.epochId + 1)
  nextClaim : t.rewards.stakerNextClaimEpoch staker = some (s.epochs.epochId + 1)
  settledUntil : t.rewards.stakerLockupSettledUntil staker =
    s.rewards.stakerLockupSettledUntil staker

/-- The cursors of a staker who has left: only how far its epochs are settled is still known. -/
structure Departed (s t : State Addr) (staker : Addr) : Prop where
  entry : t.rewards.stakerEpochEntry staker = none
  nextClaim : t.rewards.stakerNextClaimEpoch staker = none
  settledUntil : t.rewards.stakerLockupSettledUntil staker =
    if s.rewards.settledUntil s.epochs staker <
        max (s.rewards.settleStart s.epochs staker) (s.rewards.settleEnd s.epochs staker) then
      some (max (s.rewards.settleStart s.epochs staker) (s.rewards.settleEnd s.epochs staker))
    else s.rewards.stakerLockupSettledUntil staker

variable {inv : Invocation Addr home} {s t : State Addr} {call : Call Addr} {staker : Addr}

/-- What a call does to the cursors of one staker. -/
theorem Effect.cursors_cases (h : Effect inv s t call) (staker : Addr) :
    (call.settles ≠ some staker ∧ SameCursors s.rewards t.rewards staker) ∨
      (call.settles ≠ some staker ∧ Entered s t staker) ∨
      (call.settles = some staker ∧ Advanced s.epochs s.rewards t.rewards staker) ∨
      (call.settles = some staker ∧ Departed s t staker) := by
  have hkept : call.settles = none → t.rewards = s.rewards →
      call.settles ≠ some staker ∧ SameCursors s.rewards t.rewards staker := by
    intro hnone heq
    rw [hnone, heq]
    exact ⟨by simp, rfl, rfl, rfl⟩
  cases h with
  | @staked mentor _ _ _ _ h =>
    by_cases heq : staker = mentor
    · subst heq
      refine .inr (.inl ⟨by simp [Call.settles], ?_, ?_, by rw [h.rewards]⟩)
      · rw [h.rewards]
        exact Function.update_self ..
      · rw [h.rewards]
        exact Function.update_self ..
    · refine .inl ⟨by simp [Call.settles], ?_, ?_, by rw [h.rewards]⟩
      · rw [h.rewards]
        exact Function.update_of_ne heq ..
      · rw [h.rewards]
        exact Function.update_of_ne heq ..
  | @unstaked mentor _ _ settled _ h =>
    obtain ⟨hadvanced, hother⟩ := settleEpochRewards_cursors h.settlement
    by_cases heq : staker = mentor
    · subst heq
      refine .inr (.inr (.inr ⟨rfl, ?_, ?_, ?_⟩))
      · rw [h.rewards]
        exact Function.update_self ..
      · rw [h.rewards]
        exact Function.update_self ..
      · rw [h.rewards]
        exact hadvanced.settledUntil
    · refine .inl ⟨fun hsettles => heq (Option.some.inj hsettles).symm,
        (hother staker heq).trans ⟨?_, ?_, by rw [h.rewards]⟩⟩
      · rw [h.rewards]
        exact Function.update_of_ne heq ..
      · rw [h.rewards]
        exact Function.update_of_ne heq ..
  | @claimed claimer _ settled scan claim h =>
    obtain ⟨hadvanced, hother⟩ := settleEpochRewards_cursors h.settlement
    have hafter : SameCursors settled t.rewards staker := by
      rw [h.rewards]
      exact ((claimEpochs_spec h.scanned).1.cursors staker).trans
        (claimLegacy_cursors h.legacy staker)
    by_cases heq : staker = claimer
    · subst heq
      exact .inr (.inr (.inl ⟨rfl, hadvanced.of_same hafter⟩))
    · exact .inl ⟨fun hsettles => heq (Option.some.inj hsettles).symm,
        (hother staker heq).trans hafter⟩
  | batched h =>
    refine .inl ⟨by simp [Call.settles], ?_⟩
    rcases h.credited with ⟨-, hrewards⟩ | ⟨-, updates, pending, -, -, hrewards⟩
    · rw [hrewards]
      exact ⟨rfl, rfl, rfl⟩
    · rw [hrewards]
      exact ⟨rfl, rfl, rfl⟩
  | idled idle h => exact .inl (hkept (Call.settles_of_isIdle idle) h.rewards)
  | closed closes h => exact .inl (hkept (Call.settles_of_closesEpoch closes) h.rewards)
  | funded h => exact .inl (hkept rfl h.rewards)
  | lpPaid h => exact .inl (hkept rfl h.rewards)
  | deposited h => exact .inl (hkept rfl h.rewards)

/-- The two cursors of a staker agree, and do not run ahead of the closed epochs. -/
structure CursorSound (s : State Addr) (staker : Addr) : Prop where
  until_le : ∀ u, s.rewards.stakerLockupSettledUntil staker = some u → u ≤ s.epochs.epochId
  absent : s.rewards.stakerEpochEntry staker = none →
    s.rewards.stakerNextClaimEpoch staker = none
  together : ∀ entry, s.rewards.stakerEpochEntry staker = some entry →
    max ((s.rewards.stakerNextClaimEpoch staker).getD entry) entry =
      max ((s.rewards.stakerLockupSettledUntil staker).getD entry) entry

omit [DecidableEq Addr] in
theorem settledUntil_of_entry {r : Rewards Addr} {ep : Epochs Addr} {staker : Addr} {entry : ℕ}
    (hentry : r.stakerEpochEntry staker = some entry) :
    r.settledUntil ep staker = max ((r.stakerLockupSettledUntil staker).getD entry) entry := by
  simp only [Rewards.settledUntil, Rewards.entryEpoch, hentry, Option.getD_some]

omit [DecidableEq Addr] in
theorem nextClaim_of_entry {r : Rewards Addr} {ep : Epochs Addr} {staker : Addr} {entry : ℕ}
    (hentry : r.stakerEpochEntry staker = some entry) :
    r.nextClaim ep staker = max ((r.stakerNextClaimEpoch staker).getD entry) entry := by
  simp only [Rewards.nextClaim, Rewards.entryEpoch, hentry, Option.getD_some]

omit [DecidableEq Addr] in
/-- A settlement starts at the cursors. -/
theorem CursorSound.aligned (h : CursorSound s staker) :
    s.rewards.nextClaim s.epochs staker = s.rewards.settledUntil s.epochs staker := by
  cases hentry : s.rewards.stakerEpochEntry staker with
  | some entry =>
    rw [nextClaim_of_entry hentry, settledUntil_of_entry hentry]
    exact h.together entry hentry
  | none =>
    have hle : (s.rewards.stakerLockupSettledUntil staker).getD s.epochs.epochId ≤
        s.epochs.epochId := by
      cases huntil : s.rewards.stakerLockupSettledUntil staker with
      | none => exact le_rfl
      | some u => exact h.until_le u huntil
    simp only [Rewards.nextClaim, Rewards.settledUntil, Rewards.entryEpoch, hentry,
      h.absent hentry, Option.getD_none, max_self]
    omega

omit [DecidableEq Addr] in
theorem CursorSound.settleStart_eq (h : CursorSound s staker) :
    s.rewards.settleStart s.epochs staker = s.rewards.settledUntil s.epochs staker := by
  rw [Rewards.settleStart, h.aligned, max_self]

omit [DecidableEq Addr] in
/-- Where a settlement moves a cursor, it moves it to its end. -/
theorem CursorSound.settleEnd_of_lt (h : CursorSound s staker)
    (hlt : s.rewards.settledUntil s.epochs staker <
      max (s.rewards.settleStart s.epochs staker) (s.rewards.settleEnd s.epochs staker)) :
    max (s.rewards.settleStart s.epochs staker) (s.rewards.settleEnd s.epochs staker) =
      s.rewards.settleEnd s.epochs staker := by
  rw [h.settleStart_eq] at hlt ⊢
  omega

theorem Effect.epochId_le (hs : Consistent s) (h : Effect inv s t call) :
    s.epochs.epochId ≤ t.epochs.epochId := by
  rcases h.epochs_cases hs.reachable hs.epochs with ⟨-, -, -, hclosing⟩ | ⟨hid, -, -⟩
  · rw [hclosing.epochId]
    omega
  · exact hid.ge

/-- How far the epochs of a staker are settled after a call. -/
theorem Effect.until_le (hs : Consistent s) (h : Effect inv s t call)
    (hcursor : CursorSound s staker) :
    ∀ u, t.rewards.stakerLockupSettledUntil staker = some u → u ≤ t.epochs.epochId := by
  intro u hu
  refine le_trans ?_ (h.epochId_le hs)
  have hmoved : (if s.rewards.settledUntil s.epochs staker <
        max (s.rewards.settleStart s.epochs staker) (s.rewards.settleEnd s.epochs staker) then
      some (max (s.rewards.settleStart s.epochs staker) (s.rewards.settleEnd s.epochs staker))
    else s.rewards.stakerLockupSettledUntil staker) = some u → u ≤ s.epochs.epochId := by
    intro heq
    split_ifs at heq with hlt
    · rw [hcursor.settleEnd_of_lt hlt] at heq
      rw [← Option.some.inj heq]
      exact min_le_left _ _
    · exact hcursor.until_le u heq
  rcases h.cursors_cases staker with ⟨-, hsame⟩ | ⟨-, hentered⟩ | ⟨-, hadvanced⟩ | ⟨-, hleft⟩
  · exact hcursor.until_le u (hsame.settledUntil ▸ hu)
  · exact hcursor.until_le u (hentered.settledUntil ▸ hu)
  · exact hmoved (hadvanced.settledUntil ▸ hu)
  · exact hmoved (hleft.settledUntil ▸ hu)

theorem CursorSound.of_effect (hs : Consistent s) (hcursor : CursorSound s staker)
    (h : Effect inv s t call) : CursorSound t staker := by
  refine ⟨h.until_le hs hcursor, ?_, ?_⟩
  · intro hentry
    rcases h.cursors_cases staker with ⟨-, hsame⟩ | ⟨-, hentered⟩ | ⟨-, hadvanced⟩ | ⟨-, hleft⟩
    · rw [hsame.nextClaim]
      exact hcursor.absent (hsame.entry ▸ hentry)
    · rw [hentered.entry] at hentry
      cases hentry
    · have hnone := hadvanced.entry ▸ hentry
      rw [hadvanced.nextClaim, if_neg ?_]
      · exact hcursor.absent hnone
      -- Without an entry the settlement starts at the epoch that is still open.
      · intro hlt
        rw [hcursor.aligned] at hlt
        rw [hcursor.settleEnd_of_lt hlt] at hlt
        have hend : s.rewards.settleEnd s.epochs staker ≤ s.epochs.epochId := min_le_left _ _
        have hstart : s.epochs.epochId ≤ s.rewards.settledUntil s.epochs staker := by
          simp only [Rewards.settledUntil, Rewards.entryEpoch, hnone, Option.getD_none]
          exact le_max_right _ _
        omega
    · exact hleft.nextClaim
  · intro entry hentry
    rcases h.cursors_cases staker with ⟨-, hsame⟩ | ⟨-, hentered⟩ | ⟨-, hadvanced⟩ | ⟨-, hleft⟩
    · rw [hsame.nextClaim, hsame.settledUntil]
      exact hcursor.together entry (hsame.entry ▸ hentry)
    · rw [hentered.entry] at hentry
      obtain rfl := Option.some.inj hentry
      rw [hentered.nextClaim, hentered.settledUntil, Option.getD_some, max_self]
      symm
      apply max_eq_right
      cases huntil : s.rewards.stakerLockupSettledUntil staker with
      | none => exact le_rfl
      | some u => exact (hcursor.until_le u huntil).trans (Nat.le_succ _)
    · rw [hadvanced.nextClaim, hadvanced.settledUntil, hcursor.aligned]
      split_ifs
      · rfl
      · exact hcursor.together entry (hadvanced.entry ▸ hentry)
    · rw [hleft.entry] at hentry
      cases hentry

/-- An epoch that the cursors have passed was passed before, or the call settles it. -/
theorem Effect.passed_cases (h : Effect inv s t call) (hcursor : CursorSound s staker)
    (hcursor' : CursorSound t staker) {entry : ℕ}
    (hentry : t.rewards.stakerEpochEntry staker = some entry) {e : ℕ} (hge : entry ≤ e)
    (hpassed : e < t.rewards.settleStart t.epochs staker) :
    (s.rewards.stakerEpochEntry staker = some entry ∧
        e < s.rewards.settleStart s.epochs staker) ∨
      Covers s (inv, call) staker e := by
  rw [hcursor'.settleStart_eq, settledUntil_of_entry hentry] at hpassed
  rw [hcursor.settleStart_eq]
  rcases h.cursors_cases staker with ⟨-, hsame⟩ | ⟨-, hentered⟩ | ⟨hsettles, hadvanced⟩ | ⟨-, hleft⟩
  · have hold := hsame.entry ▸ hentry
    rw [hsame.settledUntil] at hpassed
    exact .inl ⟨hold, by rwa [settledUntil_of_entry hold]⟩
  · rw [hentered.entry] at hentry
    obtain rfl := Option.some.inj hentry
    rw [hentered.settledUntil] at hpassed
    cases huntil : s.rewards.stakerLockupSettledUntil staker with
    | none =>
      rw [huntil, Option.getD_none, max_self] at hpassed
      omega
    | some u =>
      have hle := hcursor.until_le u huntil
      rw [huntil, Option.getD_some] at hpassed
      omega
  · have hold := hadvanced.entry ▸ hentry
    by_cases hlt : e < s.rewards.settledUntil s.epochs staker
    · exact .inl ⟨hold, hlt⟩
    · right
      rw [hadvanced.settledUntil] at hpassed
      split_ifs at hpassed with hmoved
      · rw [hcursor.settleEnd_of_lt hmoved, Option.getD_some] at hpassed
        refine ⟨hsettles, ?_, by omega⟩
        rw [hcursor.settleStart_eq]
        exact not_lt.mp hlt
      · rw [← settledUntil_of_entry hold] at hpassed
        exact absurd hpassed hlt
  · rw [hleft.entry] at hentry
    cases hentry

end Cursors

section Once

variable {inv : Invocation Addr home} {s t : State Addr} {call : Call Addr} {staker : Addr}
  {e : ℕ}

/-- The settlement of `staker` has passed the epoch `e`. -/
def Passed (s : State Addr) (staker : Addr) (e : ℕ) : Prop :=
  ∃ u, s.rewards.stakerLockupSettledUntil staker = some u ∧ e < u

omit [DecidableEq Addr] in
theorem Passed.lt_settledUntil (h : Passed s staker e) :
    e < s.rewards.settledUntil s.epochs staker := by
  obtain ⟨u, hu, hlt⟩ := h
  simp only [Rewards.settledUntil, hu, Option.getD_some]
  omega

omit [DecidableEq Addr] in
theorem Passed.lt_settleStart (h : Passed s staker e) :
    e < s.rewards.settleStart s.epochs staker :=
  h.lt_settledUntil.trans_le (le_max_right _ _)

/-- The cursor over the settled epochs is never set back. -/
theorem Effect.settledUntil_cases (h : Effect inv s t call) (staker : Addr) :
    (t.rewards.stakerLockupSettledUntil staker = s.rewards.stakerLockupSettledUntil staker ∧
        ∀ step : Step Addr home, step.2 = call → ∀ e, ¬ Covers s step staker e) ∨
      (s.rewards.settledUntil s.epochs staker <
          max (s.rewards.settleStart s.epochs staker) (s.rewards.settleEnd s.epochs staker) ∧
        t.rewards.stakerLockupSettledUntil staker =
          some (max (s.rewards.settleStart s.epochs staker)
            (s.rewards.settleEnd s.epochs staker))) := by
  have hmoved : t.rewards.stakerLockupSettledUntil staker =
      (if s.rewards.settledUntil s.epochs staker <
        max (s.rewards.settleStart s.epochs staker) (s.rewards.settleEnd s.epochs staker) then
      some (max (s.rewards.settleStart s.epochs staker) (s.rewards.settleEnd s.epochs staker))
    else s.rewards.stakerLockupSettledUntil staker) →
      (t.rewards.stakerLockupSettledUntil staker = s.rewards.stakerLockupSettledUntil staker ∧
        ∀ step : Step Addr home, step.2 = call → ∀ e, ¬ Covers s step staker e) ∨
      (s.rewards.settledUntil s.epochs staker <
          max (s.rewards.settleStart s.epochs staker) (s.rewards.settleEnd s.epochs staker) ∧
        t.rewards.stakerLockupSettledUntil staker =
          some (max (s.rewards.settleStart s.epochs staker)
            (s.rewards.settleEnd s.epochs staker))) := by
    intro heq
    split_ifs at heq with hlt
    · exact .inr ⟨hlt, heq⟩
    · refine .inl ⟨heq, fun step _ e hcovers => ?_⟩
      have hle : s.rewards.settledUntil s.epochs staker ≤
          s.rewards.settleStart s.epochs staker := le_max_right _ _
      have hstart := hcovers.start_le
      have hend := hcovers.lt_end
      omega
  rcases h.cursors_cases staker with ⟨hother, hsame⟩ | ⟨hother, hentered⟩ | ⟨-, hadvanced⟩ |
    ⟨-, hleft⟩
  · refine .inl ⟨hsame.settledUntil, ?_⟩
    rintro step rfl e hcovers
    exact hother hcovers.settles
  · refine .inl ⟨hentered.settledUntil, ?_⟩
    rintro step rfl e hcovers
    exact hother hcovers.settles
  · exact hmoved hadvanced.settledUntil
  · exact hmoved hleft.settledUntil

theorem Effect.passed (h : Effect inv s t call) (hcovers : Covers s (inv, call) staker e) :
    Passed t staker e := by
  rcases h.settledUntil_cases staker with ⟨-, hnot⟩ | ⟨-, hmoved⟩
  · exact absurd hcovers (hnot _ rfl e)
  · exact ⟨_, hmoved, hcovers.lt_end.trans_le (le_max_right _ _)⟩

theorem Effect.passed_kept (h : Effect inv s t call) (hpassed : Passed s staker e) :
    Passed t staker e := by
  rcases h.settledUntil_cases staker with ⟨hsame, -⟩ | ⟨hlt, hmoved⟩
  · unfold Passed
    rwa [hsame]
  · exact ⟨_, hmoved, hpassed.lt_settledUntil.trans hlt⟩

end Once

section Runs

variable {checksum : ℕ → ℤ → Hash} {balance : Addr → Addr → ℕ} {steps : List (Step Addr home)}
  {staker : Addr} {e : ℕ}

/-- Every epoch is settled once at most. -/
theorem covers_unique {pre pre' : List (Step Addr home)} {step step' : Step Addr home}
    {t t' : State Addr}
    (h : (machine home checksum).Executes (deployed balance) steps pre step t)
    (hcovers : Covers ((machine home checksum).run (deployed balance) pre) step staker e)
    (h' : (machine home checksum).Executes (deployed balance) steps pre' step' t')
    (hcovers' : Covers ((machine home checksum).run (deployed balance) pre') step' staker e) :
    pre = pre' := by
  refine Machine.Executes.unique (P := fun s step _ => Covers s step staker e)
    (D := fun s => Passed s staker e) ?_ ?_ ?_ h hcovers h' hcovers'
  · intro pre step t hx hcovers hpassed
    exact absurd hpassed.lt_settleStart (not_lt.mpr hcovers.start_le)
  · intro pre step t hx hcovers
    exact (executes_effect hx).passed hcovers
  · intro pre step t hx hpassed
    exact (executes_effect hx).passed_kept hpassed

omit [DecidableEq Addr] in
theorem deployed_cursorSound (balance : Addr → Addr → ℕ) (staker : Addr) :
    CursorSound (deployed balance) staker :=
  ⟨fun _ h => (nomatch h), fun _ => rfl, fun _ h => (nomatch h)⟩

theorem run_cursorSound (checksum : ℕ → ℤ → Hash) (balance : Addr → Addr → ℕ)
    (steps : List (Step Addr home)) (staker : Addr) :
    CursorSound ((machine home checksum).run (deployed balance) steps) staker :=
  run_kept checksum (P := fun s => CursorSound s staker) (deployed_consistent balance)
    (deployed_cursorSound balance staker)
    (fun _ _ _ hs hcursor heffect => hcursor.of_effect hs heffect) steps

/-- Every epoch between the entry of a staker and its cursor was settled by some call. -/
theorem run_covered (checksum : ℕ → ℤ → Hash) (balance : Addr → Addr → ℕ)
    (steps : List (Step Addr home)) (staker : Addr) :
    ∀ entry, ((machine home checksum).run (deployed balance)
        steps).rewards.stakerEpochEntry staker = some entry →
      ∀ e, entry ≤ e → e < ((machine home checksum).run (deployed balance)
          steps).rewards.settleStart
        ((machine home checksum).run (deployed balance) steps).epochs staker →
      ∃ pre step t, (machine home checksum).Executes (deployed balance) steps pre step t ∧
        Covers ((machine home checksum).run (deployed balance) pre) step staker e := by
  refine Machine.run_history (M := machine home checksum) (s := deployed balance)
    (P := fun steps s => ∀ entry, s.rewards.stakerEpochEntry staker = some entry →
      ∀ e, entry ≤ e → e < s.rewards.settleStart s.epochs staker →
      ∃ pre step t, (machine home checksum).Executes (deployed balance) steps pre step t ∧
        Covers ((machine home checksum).run (deployed balance) pre) step staker e) ?_ ?_ ?_ steps
  · intro entry hentry
    cases hentry
  · intro pre step t hpre hx entry hentry e hge hlt
    have hcursor := run_cursorSound checksum balance pre staker
    have hcursor' := run_cursorSound checksum balance (pre ++ [step]) staker
    rw [Machine.run_snoc, Machine.apply_ok hx] at hcursor'
    have heffect := exec_effect (run_consistent checksum balance pre).reachable.wellFormed hx
    rcases heffect.passed_cases hcursor hcursor' hentry hge hlt with ⟨hold, hpassed⟩ | hcovers
    · obtain ⟨early, step', u, hearly, hcovers⟩ := hpre entry hold e hge hpassed
      exact ⟨early, step', u, hearly.append [step], hcovers⟩
    · exact ⟨pre, step, t, Machine.executes_snoc hx, hcovers⟩
  · intro pre step error hpre herror entry hentry e hge hlt
    obtain ⟨early, step', u, hearly, hcovers⟩ := hpre entry hentry e hge hlt
    exact ⟨early, step', u, hearly.append [step], hcovers⟩

/-- The number of the current epoch is a `u64`. -/
theorem run_epochId_lt (checksum : ℕ → ℤ → Hash) (balance : Addr → Addr → ℕ)
    (steps : List (Step Addr home)) :
    ((machine home checksum).run (deployed balance) steps).epochs.epochId < 2 ^ 64 := by
  refine run_kept checksum (P := fun s => s.epochs.epochId < 2 ^ 64)
    (deployed_consistent balance) (Nat.two_pow_pos 64) ?_ steps
  rintro ⟨inv, call⟩ s t hs hlt heffect
  by_cases hcloses : call.closesEpoch = true
  · have hclosed := (heffect.closed_of_closesEpoch hcloses).closed
    simp only [internalDistributeRevenue, bind_eq_ok, safeAddU64_eq_ok, pure_eq_ok] at hclosed
    obtain ⟨-, -, taken, -, reward, -, next, ⟨hfits, rfl⟩, hepochs⟩ := hclosed
    rw [← hepochs]
    exact hfits
  · rcases heffect.epochs_cases hs.reachable hs.epochs with ⟨hcloses', -⟩ | ⟨hid, -, -⟩
    · exact absurd hcloses' hcloses
    · rwa [hid]

/-- The epoch is within the reach of the next settlement, or some call has settled it. -/
theorem Earned.covered_of_lt (he : Earned ((machine home checksum).run (deployed balance) steps)
      staker e) {step : Step Addr home} {t : State Addr}
    (hx : (machine home checksum).exec step ((machine home checksum).run (deployed balance)
      steps) = .ok t) (hsettles : step.2.settles = some staker)
    (hreach : e < ((machine home checksum).run (deployed balance) steps).rewards.settleStart
      ((machine home checksum).run (deployed balance) steps).epochs staker + maxEpochsPerSettle) :
    ∃ pre step' u, (machine home checksum).Executes (deployed balance) (steps ++ [step]) pre
        step' u ∧ Covers ((machine home checksum).run (deployed balance) pre) step' staker e := by
  have hentered := he.entered
  have hclosed := he.closed
  by_cases hpassed : e < ((machine home checksum).run (deployed balance) steps).rewards.settleStart
      ((machine home checksum).run (deployed balance) steps).epochs staker
  · cases hentry : ((machine home checksum).run (deployed balance)
        steps).rewards.stakerEpochEntry staker with
    | none =>
      rw [Rewards.entryEpoch, hentry, Option.getD_none] at hentered
      omega
    | some entry =>
      rw [Rewards.entryEpoch, hentry, Option.getD_some] at hentered
      obtain ⟨pre, step', u, hearly, hcovers⟩ :=
        run_covered checksum balance steps staker entry hentry e hentered hpassed
      exact ⟨pre, step', u, hearly.append [step], hcovers⟩
  · refine ⟨steps, step, t, Machine.executes_snoc hx, hsettles, not_lt.mp hpassed, ?_⟩
    have hu64 := run_epochId_lt checksum balance steps
    apply lt_min hclosed
    unfold saturatingAddU64
    omega

/-- Whether an unstake leaves a lockup for an epoch that its staker has earned. -/
theorem Earned.lockup_iff {step : Step Addr home} {t : State Addr}
    (he : Earned ((machine home checksum).run (deployed balance) steps) staker e)
    (hx : (machine home checksum).exec step ((machine home checksum).run (deployed balance)
      steps) = .ok t) (hsettles : step.2.settles = some staker) :
    t.rewards.lockups staker e ≠ none ↔
      e < ((machine home checksum).run (deployed balance) steps).rewards.settleStart
          ((machine home checksum).run (deployed balance) steps).epochs staker +
            maxEpochsPerSettle ∧
        ∀ pre step' u, (machine home checksum).Executes (deployed balance) (steps ++ [step]) pre
            step' u → Covers ((machine home checksum).run (deployed balance) pre) step' staker e →
          OfAge ((machine home checksum).run (deployed balance) pre) step' staker := by
  have hs := run_consistent checksum balance steps
  have heffect := exec_effect hs.reachable.wellFormed hx
  have hlast : (machine home checksum).run (deployed balance) (steps ++ [step]) = t := by
    rw [Machine.run_snoc, Machine.apply_ok hx]
  have hshare : ¬ NoShare ((machine home checksum).run (deployed balance)
      (steps ++ [step])).epochs staker e := by
    have hpos := epochShare_pos_iff.mpr he.share
    rw [hlast, ← epochShare_pos_iff, heffect.epochShare_eq hs.reachable hs.epochs hpos]
    exact hpos
  have hlockup := lockup_ne_none_iff hshare
  rw [hlast] at hlockup
  rw [hlockup]
  constructor
  · rintro ⟨pre, step', u, hearly, hcovers, hage⟩
    refine ⟨?_, fun pre' step'' u' hx' hcovers' => ?_⟩
    · rcases Machine.executes_append_singleton.mp hearly with hbefore | ⟨rfl, rfl, -⟩
      · have hpassed := (executes_effect hbefore).passed hcovers
        rw [← hbefore.run_eq] at hpassed
        have hkept : Passed ((machine home checksum).run (deployed balance) steps) staker e :=
          (Machine.Executes.kept (D := fun s => Passed s staker e) hbefore
            (by rwa [← hbefore.run_eq])
            (fun pre step t hx hpassed => (executes_effect hx).passed_kept hpassed)) steps
            hbefore.snoc_prefix List.prefix_rfl
        exact hkept.lt_settleStart.trans_le (Nat.le_add_right _ _)
      · exact (hcovers.lt_end.trans_le (min_le_right _ _)).trans_le (min_le_left _ _)
    · obtain rfl := covers_unique hearly hcovers hx' hcovers'
      obtain rfl : step' = step'' :=
        Option.some.inj (hearly.eq_take.2.symm.trans hx'.eq_take.2)
      exact hage
  · rintro ⟨hreach, hage⟩
    obtain ⟨pre, step', u, hearly, hcovers⟩ := he.covered_of_lt hx hsettles hreach
    exact ⟨pre, step', u, hearly, hcovers, hage pre step' u hearly hcovers⟩

/-- In a run every unstake leaves a lockup for every epoch that its staker has earned, exactly
if each of these epochs is among the next fifty to settle, or settled before, and if the stake
was old enough when it was settled. -/
theorem unstake_keeps_rewards_iff (checksum : ℕ → ℤ → Hash) (balance : Addr → Addr → ℕ)
    (steps : List (Step Addr home)) :
    (∀ pre step t s staker e,
      (machine home checksum).Executes (deployed balance) steps pre step t →
      (machine home checksum).run (deployed balance) pre = s → step.2 = .unstake staker →
      Earned s staker e → t.rewards.lockups staker e ≠ none) ↔
    ∀ pre step t s staker e,
      (machine home checksum).Executes (deployed balance) steps pre step t →
      (machine home checksum).run (deployed balance) pre = s → step.2 = .unstake staker →
      Earned s staker e →
      e < s.rewards.settleStart s.epochs staker + maxEpochsPerSettle ∧
        ∀ early step' u,
          (machine home checksum).Executes (deployed balance) (pre ++ [step]) early step' u →
          Covers ((machine home checksum).run (deployed balance) early) step' staker e →
          OfAge ((machine home checksum).run (deployed balance) early) step' staker := by
  constructor
  · rintro hlaw pre step t s staker e hx rfl hstep he
    have hsettles : step.2.settles = some staker := by rw [hstep]; rfl
    exact (he.lockup_iff hx.exec_eq hsettles).mp (hlaw pre step t _ staker e hx rfl hstep he)
  · rintro hcond pre step t s staker e hx rfl hstep he
    have hsettles : step.2.settles = some staker := by rw [hstep]; rfl
    exact (he.lockup_iff hx.exec_eq hsettles).mpr (hcond pre step t _ staker e hx rfl hstep he)

end Runs

/-- Fifty-one epochs close after the stake of 3 has entered; then 3 unstakes. -/
def longStakeRun : List (Step ℕ 0) :=
  [(grantedByAll 0, .config (.initializeStaking 1 9 none)),
    (grantedByAll 0, .stake 3 1000 14),
    (grantedByAll 0, .deposit 9 2 10000)] ++ closings 52

theorem longStakeRun_unstake :
    let s := (machine 0 noDigest).run (deployed stakerFunds) longStakeRun
    let t := (machine 0 noDigest).run (deployed stakerFunds)
      (longStakeRun ++ [unstakeAt (14 * day)])
    s.registry.stakerCount = 1 ∧ t.registry.stakerCount = 0 ∧ s.epochs.epochId = 52 ∧
      s.rewards.entryEpoch s.epochs 3 = 1 ∧ epochShare s.epochs 3 51 = 10 ∧
      t.rewards.lockups 3 50 = some ⟨50, 10, 10, 10000, 44 * day, false⟩ ∧
      t.rewards.lockups 3 51 = none := by
  decide +kernel

/-- The share in the last epoch before the withdrawal is lost. -/
theorem longStakeRun_reward_lost :
    ¬ ∀ pre step t s staker e,
      (machine 0 noDigest).Executes (deployed stakerFunds)
        (longStakeRun ++ [unstakeAt (14 * day)]) pre step t →
      (machine 0 noDigest).run (deployed stakerFunds) pre = s → step.2 = .unstake staker →
      Earned s staker e → t.rewards.lockups staker e ≠ none := by
  intro hlaw
  obtain ⟨hcount, hcount', hid, hentry, hshare, -, hlost⟩ := longStakeRun_unstake
  have hx : (machine 0 noDigest).Executes (deployed stakerFunds)
      (longStakeRun ++ [unstakeAt (14 * day)]) longStakeRun (unstakeAt (14 * day))
      ((machine 0 noDigest).run (deployed stakerFunds)
        (longStakeRun ++ [unstakeAt (14 * day)])) := by
    apply Machine.executes_of_run_ne
    intro heq
    rw [heq, hcount] at hcount'
    cases hcount'
  refine hlaw longStakeRun _ _ _ 3 51 hx rfl rfl ⟨?_, ?_, ?_⟩ hlost
  · rw [hentry]
    decide
  · rw [hid]
    decide
  · rw [← epochShare_pos_iff, hshare]
    decide

end Staking
