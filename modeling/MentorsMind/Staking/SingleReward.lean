import MentorsMind.Staking.LockupClock
import MentorsMind.Staking.PrincipalSafety

/-! One reward for each staker and epoch: a lockup is created once, keeps its amounts for
good, and is paid by one claim, however often its owner unstakes and stakes again. -/
namespace Staking
open Outcome Soroban Shared

variable {Addr : Type} [DecidableEq Addr] {home : Addr}

/-- The call settles the epoch `e` for `staker` and writes a lockup for it. -/
def WritesLockup (s : State Addr) (step : Step Addr home) (staker : Addr) (e : ℕ) : Prop :=
  step.2.settles = some staker ∧ s.rewards.settleStart s.epochs staker ≤ e ∧
    e < s.rewards.settleEnd s.epochs staker ∧
    (settledLockup step.1.timestamp s.epochs (s.registry.stake staker) staker e).isSome = true

/-- Between the two states the reward of `staker` for the epoch `e` was paid. -/
def PaidBetween (s t : State Addr) (staker : Addr) (e : ℕ) : Prop :=
  ¬ Paid (s.rewards.lockups staker e) ∧ Paid (t.rewards.lockups staker e)

section Steps

variable {inv : Invocation Addr home} {s t : State Addr} {call : Call Addr} {staker : Addr}
  {e : ℕ} {l : RewardLockup}

/-- A lockup that exists is only ever marked as claimed. -/
theorem Effect.lockup_later (hs : Consistent s) (h : Effect inv s t call)
    (hl : s.rewards.lockups staker e = some l) :
    Later (s.rewards.lockups staker e) (t.rewards.lockups staker e) := by
  rcases h.lockups_cases with ⟨-, hsame, -⟩ | ⟨other, settled, -, hsettled, -, hlater⟩
  · exact .inl (congrFun hsame (staker, e))
  · have hold : settled.stakerRewardLockup (staker, e) = s.rewards.lockups staker e := by
      rw [hsettled.lockup]
      split_ifs with hwindow
      · obtain ⟨hstaker, hge, -⟩ := hwindow
        have heq : staker = other := hstaker
        subst heq
        have hfresh : s.rewards.lockups staker e = none := hs.lockups.booked.fresh s.epochs hge
        rw [hfresh] at hl
        cases hl
      · rfl
    rw [← hold]
    exact hlater (staker, e)

theorem Later.paid {o o' : Option RewardLockup} (h : Later o o') (hpaid : Paid o) : Paid o' := by
  rcases h with rfl | ⟨l, rfl, rfl⟩
  · exact hpaid
  · exact ⟨_, rfl, rfl⟩

theorem Effect.paid_kept (hs : Consistent s) (h : Effect inv s t call)
    (hpaid : Paid (s.rewards.lockups staker e)) : Paid (t.rewards.lockups staker e) := by
  obtain ⟨l, hl, hclaimed⟩ := hpaid
  exact (h.lockup_later hs hl).paid ⟨l, hl, hclaimed⟩

/-- A settlement writes where there was no lockup, and leaves one. -/
theorem Effect.writesLockup (hs : Consistent s) (h : Effect inv s t call)
    (hw : WritesLockup s (inv, call) staker e) :
    s.rewards.lockups staker e = none ∧ t.rewards.lockups staker e ≠ none := by
  obtain ⟨hsettles, hstart, hend, hsome⟩ := hw
  obtain ⟨l, hl⟩ := Option.isSome_iff_exists.mp hsome
  obtain ⟨l', hl', -⟩ := h.lockup_created hsettles hstart hend hl
  refine ⟨hs.lockups.booked.fresh s.epochs hstart, ?_⟩
  rw [show t.rewards.lockups staker e = some l' from hl']
  simp

/-- Only a claim of the staker pays its rewards: it pays out what it marks as claimed, and the
credits of the batch path on top. -/
theorem Effect.paid_cases (hs : Consistent s) (h : Effect inv s t call) :
    (∃ staker token, call = .claimRewards staker token ∧ ∃ paid : Finset ℕ,
        (∀ other e, PaidBetween s t other e ↔ other = staker ∧ e ∈ paid) ∧
        s.tokens.transfer inv.accepts token home staker
          (∑ e ∈ paid, lockedAmount (t.rewards.lockups staker e) +
            max (s.rewards.pendingRewards staker) 0) = .ok t.tokens) ∨
      ∀ staker e, ¬ PaidBetween s t staker e := by
  have hsame : t.rewards.stakerRewardLockup = s.rewards.stakerRewardLockup →
      ∀ staker e, ¬ PaidBetween s t staker e := by
    rintro hlockups staker e ⟨hunpaid, l, hl, hclaimed⟩
    exact hunpaid ⟨l, (congrFun hlockups.symm (staker, e)).trans hl, hclaimed⟩
  cases h with
  | @claimed staker token settled scan claim h =>
    refine .inl ⟨staker, token, rfl, servedEpochs inv.timestamp
      (lockupsSettled inv.timestamp s staker) s.epochs.epochId, fun other e => ?_, ?_⟩
    · by_cases heq : other = staker
      · subst heq
        simp only [true_and]
        exact h.paid_iff hs
      · have hother : (Call.claimRewards staker token).settles ≠ some other :=
          fun hsettles => heq (Option.some.inj hsettles).symm
        obtain ⟨hlockups, -⟩ := (Effect.claimed h).lockups_other hother
        simp only [PaidBetween, hlockups, heq, false_and, iff_false]
        tauto
    · have htotal := (claimTotal_isOk_iff h.settlement).2 scan claim h.scanned h.legacy
      have hsum : ∑ e ∈ servedEpochs inv.timestamp (lockupsSettled inv.timestamp s staker)
            s.epochs.epochId, lockedAmount (t.rewards.lockups staker e) =
          servedAmount inv.timestamp (lockupsSettled inv.timestamp s staker)
            s.epochs.epochId := by
        refine Finset.sum_congr rfl fun e he => ?_
        rw [h.lockups_eq, if_pos he]
        cases lockupsSettled inv.timestamp s staker e <;> rfl
      rw [hsum]
      show s.tokens.transfer inv.accepts token home staker (claimAmount inv.timestamp s staker) =
        .ok t.tokens
      rw [← htotal]
      exact h.paid
  | unstaked h =>
    right
    rintro staker e ⟨hunpaid, hpaid⟩
    apply hunpaid
    apply (settleEpochRewards_spec h.settlement).paid hs.lockups.booked
    rwa [h.rewards] at hpaid
  | idled _ h => exact .inr (hsame (by rw [h.rewards]))
  | staked h => exact .inr (hsame (by rw [h.rewards]))
  | closed _ h => exact .inr (hsame (by rw [h.rewards]))
  | batched h =>
    rcases h.credited with ⟨-, hrewards⟩ | ⟨-, updates, pending, -, -, hrewards⟩
    · exact .inr (hsame (by rw [hrewards]))
    · exact .inr (hsame (by rw [hrewards]))
  | funded h => exact .inr (hsame (by rw [h.rewards]))
  | lpPaid h => exact .inr (hsame (by rw [h.rewards]))
  | deposited h => exact .inr (hsame (by rw [h.rewards]))

end Steps

section Runs

variable {checksum : ℕ → ℤ → Hash} {balance : Addr → Addr → ℕ} {steps : List (Step Addr home)}

theorem executes_effect {pre : List (Step Addr home)} {step : Step Addr home} {t : State Addr}
    (hx : (machine home checksum).Executes (deployed balance) steps pre step t) :
    Effect step.1 ((machine home checksum).run (deployed balance) pre) t step.2 :=
  exec_effect (run_consistent checksum balance pre).reachable.wellFormed hx.exec_eq

/-- A lockup keeps its amounts in the rest of the run; at most it is claimed. -/
theorem run_lockup_later {pre : List (Step Addr home)} (hpre : pre <+: steps) {staker : Addr}
    {e : ℕ} {l : RewardLockup}
    (hl : ((machine home checksum).run (deployed balance) pre).rewards.lockups staker e =
      some l) :
    Later (some l)
      (((machine home checksum).run (deployed balance) steps).rewards.lockups staker e) := by
  obtain ⟨rest, rfl⟩ := hpre
  rw [Machine.run_append]
  refine run_kept checksum (P := fun u => Later (some l) (u.rewards.lockups staker e))
    (run_consistent checksum balance pre) (.inl hl) ?_ rest
  intro step u t hu hlater heffect
  obtain ⟨l', hl', -⟩ := hlater.exists_of_some rfl
  exact hlater.trans (heffect.lockup_later hu hl')

/-- In any run: a lockup is written at most once, is never rewritten and never unclaimed, and
its amount is part of the payment of one claim at most, which adds nothing but the credits of
the batch path. -/
theorem rewards_single (checksum : ℕ → ℤ → Hash) (balance : Addr → Addr → ℕ)
    (steps : List (Step Addr home)) :
    (∀ staker e pre pre' step step' t t',
      (machine home checksum).Executes (deployed balance) steps pre step t →
      WritesLockup ((machine home checksum).run (deployed balance) pre) step staker e →
      (machine home checksum).Executes (deployed balance) steps pre' step' t' →
      WritesLockup ((machine home checksum).run (deployed balance) pre') step' staker e →
      pre = pre') ∧
    (∀ pre, pre <+: steps → ∀ staker e l,
      ((machine home checksum).run (deployed balance) pre).rewards.lockups staker e = some l →
      ((machine home checksum).run (deployed balance) steps).rewards.lockups staker e = some l ∨
        (l.claimed = false ∧ ((machine home checksum).run (deployed balance)
          steps).rewards.lockups staker e = some { l with claimed := true })) ∧
    (∀ staker e pre pre' step step' t t',
      (machine home checksum).Executes (deployed balance) steps pre step t →
      PaidBetween ((machine home checksum).run (deployed balance) pre) t staker e →
      (machine home checksum).Executes (deployed balance) steps pre' step' t' →
      PaidBetween ((machine home checksum).run (deployed balance) pre') t' staker e →
      pre = pre') ∧
    ∀ pre step t s, (machine home checksum).Executes (deployed balance) steps pre step t →
      (machine home checksum).run (deployed balance) pre = s →
      (∃ staker token, step.2 = .claimRewards staker token ∧ ∃ paid : Finset ℕ,
          (∀ other e, PaidBetween s t other e ↔ other = staker ∧ e ∈ paid) ∧
          s.tokens.transfer step.1.accepts token home staker
            (∑ e ∈ paid, lockedAmount (t.rewards.lockups staker e) +
              max (s.rewards.pendingRewards staker) 0) = .ok t.tokens) ∨
        ∀ staker e, ¬ PaidBetween s t staker e := by
  refine ⟨?_, fun pre hpre staker e l hl => ?_, ?_, ?_⟩
  · intro staker e pre pre' step step' t t' hx hw hx' hw'
    refine Machine.Executes.unique (P := fun s step _ => WritesLockup s step staker e)
      (D := fun s => s.rewards.lockups staker e ≠ none) ?_ ?_ ?_ hx hw hx' hw'
    · intro pre step t hx hw
      exact not_not.mpr ((executes_effect hx).writesLockup (run_consistent _ _ pre) hw).1
    · intro pre step t hx hw
      exact ((executes_effect hx).writesLockup (run_consistent _ _ pre) hw).2
    · intro pre step t hx hsome
      obtain ⟨l, hl⟩ := Option.ne_none_iff_exists'.mp hsome
      have hlater := (executes_effect hx).lockup_later (run_consistent _ _ pre) hl
      rwa [ne_eq, hlater.eq_none_iff]
  · rcases run_lockup_later hpre hl with hsame | ⟨l', hl', hmarked⟩
    · exact .inl hsame
    · obtain rfl := Option.some.inj hl'
      cases hclaimed : l.claimed with
      | false => exact .inr ⟨rfl, hmarked⟩
      | true =>
        left
        rw [hmarked, ← hclaimed]
  · intro staker e pre pre' step step' t t' hx hp hx' hp'
    refine Machine.Executes.unique (P := fun s _ t => PaidBetween s t staker e)
      (D := fun s => Paid (s.rewards.lockups staker e)) ?_ ?_ ?_ hx hp hx' hp'
    · intro pre step t _ hp
      exact hp.1
    · intro pre step t _ hp
      exact hp.2
    · intro pre step t hx hpaid
      exact (executes_effect hx).paid_kept (run_consistent _ _ pre) hpaid
  · rintro pre step t s hx rfl
    exact (executes_effect hx).paid_cases (run_consistent _ _ pre)

end Runs

end Staking
