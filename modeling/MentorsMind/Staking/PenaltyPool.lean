import MentorsMind.Staking.Eligibility

/-! The penalties for unstaking early: collected in a pool, and merged into the reward of the
epoch that closes next, whether anybody can receive it or not. -/
namespace Staking
open Outcome Soroban Shared

variable {Addr : Type} [DecidableEq Addr] {home : Addr}

/-- The penalty that a call takes from the stake that it ends. -/
def penaltyTaken (s : State Addr) (step : Step Addr home) (_ : State Addr) : ℤ :=
  match step.2 with
  | .unstake mentor =>
      match s.registry.stake mentor with
      | none => 0
      | some record =>
          match computeEarlyUnstakePenalty record.stakedAt step.1.timestamp record.unlockAt
            record.amount with
          | .ok penalty => penalty.penaltyAmount
          | .error _ => 0
  | _ => 0

/-- The call closes the current epoch, with or without stakes that share its reward. -/
def closesShared (s : State Addr) (step : Step Addr home) (t : State Addr) : Prop :=
  step.2.closesEpoch = true ∧ 0 < (t.epochs.epochEligibleTotal s.epochs.epochId).getD 0

instance (s : State Addr) (step : Step Addr home) (t : State Addr) :
    Decidable (closesShared s step t) := inferInstanceAs (Decidable (_ ∧ _))

/-- The penalties that a call adds to the reward of an epoch that somebody shares. -/
def penaltyShared (s : State Addr) (step : Step Addr home) (t : State Addr) : ℤ :=
  if closesShared s step t then s.epochs.penaltyRedistributionPool else 0

/-- Those that it adds to the reward of an epoch that nobody shares. -/
def penaltyStranded (s : State Addr) (step : Step Addr home) (t : State Addr) : ℤ :=
  if step.2.closesEpoch = true ∧ ¬ closesShared s step t then
    s.epochs.penaltyRedistributionPool else 0

section Steps

variable {inv : Invocation Addr home} {s t : State Addr} {call : Call Addr}

theorem Effect.closed_of_closesEpoch (h : Effect inv s t call)
    (hcloses : call.closesEpoch = true) : Closed inv.timestamp s t call.promised := by
  cases h with
  | closed _ h => exact h
  | idled idle _ =>
    rw [Call.closesEpoch_of_isIdle idle] at hcloses
    cases hcloses
  | staked | unstaked | batched | claimed | funded | lpPaid | deposited => cases hcloses

theorem Effect.closing (hs : Consistent s) (h : Effect inv s t call)
    (hcloses : call.closesEpoch = true) :
    Closing inv.timestamp s.registry call.promised s.epochs t.epochs :=
  have hclosed := h.closed_of_closesEpoch hcloses
  internalDistributeRevenue_closing (hs.epochs.openFrom _ le_rfl) hclosed.nonneg
    hs.epochs.pool_nonneg hclosed.closed

/-- A call moves the pool by the penalty that it takes and by what it merges into a reward. -/
theorem Effect.penaltyPool (hs : Consistent s) (h : Effect inv s t call) :
    t.epochs.penaltyRedistributionPool = s.epochs.penaltyRedistributionPool +
      penaltyTaken s (inv, call) t - penaltyShared s (inv, call) t -
        penaltyStranded s (inv, call) t := by
  by_cases hcloses : call.closesEpoch = true
  · have htaken : penaltyTaken s (inv, call) t = 0 := by
      cases call <;> first | rfl | cases hcloses
    rw [htaken, (h.closing hs hcloses).pool]
    simp only [penaltyShared, penaltyStranded, hcloses, true_and]
    split_ifs <;> omega
  · have hopen : penaltyShared s (inv, call) t = 0 ∧ penaltyStranded s (inv, call) t = 0 :=
      ⟨if_neg fun hshared => hcloses hshared.1, if_neg fun hstranded => hcloses hstranded.1⟩
    rw [hopen.1, hopen.2, sub_zero, sub_zero]
    have hkept : penaltyTaken s (inv, call) t = 0 → t.epochs = s.epochs →
        t.epochs.penaltyRedistributionPool =
          s.epochs.penaltyRedistributionPool + penaltyTaken s (inv, call) t := by
      intro htaken heq
      rw [htaken, heq, add_zero]
    cases h with
    | closed closes h => exact absurd closes hcloses
    | @unstaked mentor record penalty settled mnt h =>
      obtain ⟨hpenalty, -, -⟩ := h.penalty_spec hs.reachable
      have htaken : penaltyTaken s (inv, .unstake mentor) t = penalty.penaltyAmount := by
        simp only [penaltyTaken, h.found, h.penalty_eq]
      rw [htaken, Epochs.collectPenalty_eq_ok hpenalty h.collected]
    | idled idle h =>
      refine hkept ?_ h.epochs
      cases call <;> first | rfl | cases idle
    | staked h => exact hkept rfl h.epochs
    | batched h => exact hkept rfl h.epochs
    | claimed h => exact hkept rfl h.epochs
    | funded h => exact hkept rfl h.epochs
    | lpPaid h => exact hkept rfl h.epochs
    | deposited h => exact hkept rfl h.epochs

/-- The reward of an epoch is shared exactly if a stake is old enough when it closes. -/
theorem Effect.closesShared_iff (hs : Consistent s) (h : Effect inv s t call)
    (hcloses : call.closesEpoch = true) : closesShared s (inv, call) t ↔
      ∃ staker record, s.registry.stake staker = some record ∧
        isEligible inv.timestamp record = true := by
  have hreg := hs.reachable.registry
  unfold closesShared
  rw [(h.closing hs hcloses).row.eligibleTotal, Option.getD_some,
    Shares.positionSum_pos_iff (eligibleAmount_nonneg hreg inv.timestamp),
    and_iff_right (show (inv, call).2.closesEpoch = true from hcloses)]
  constructor
  · rintro ⟨k, staker, -, -, hpos⟩
    unfold eligibleAmount at hpos
    cases hstake : s.registry.stake staker with
    | none =>
      rw [hstake] at hpos
      exact absurd hpos (lt_irrefl _)
    | some record =>
      rw [hstake, Option.elim_some] at hpos
      split_ifs at hpos with heligible
      · exact ⟨staker, record, hstake, heligible⟩
      · exact absurd hpos (lt_irrefl _)
  · rintro ⟨staker, record, hstake, heligible⟩
    obtain ⟨k, hk, hoccupant⟩ := hreg.occupant_of_stake hstake
    refine ⟨k, staker, hk, (Registry.occupant_eq_some.mp hoccupant).1, ?_⟩
    have hpos := (hreg.record staker record hstake).2.1
    simpa [eligibleAmount, hstake, heligible] using hpos

end Steps

section Runs

variable {checksum : ℕ → ℤ → Hash} {balance : Addr → Addr → ℕ} {steps : List (Step Addr home)}

/-- No penalty gets lost, but some may end up in the reward of an epoch that nobody shares. -/
theorem run_penalties (checksum : ℕ → ℤ → Hash) (balance : Addr → Addr → ℕ)
    (steps : List (Step Addr home)) :
    (machine home checksum).tally penaltyTaken (deployed balance) steps =
      ((machine home checksum).run (deployed balance) steps).epochs.penaltyRedistributionPool +
        (machine home checksum).tally penaltyShared (deployed balance) steps +
        (machine home checksum).tally penaltyStranded (deployed balance) steps := by
  refine Machine.run_history (M := machine home checksum) (s := deployed balance)
    (P := fun steps s => (machine home checksum).tally penaltyTaken (deployed balance) steps =
      s.epochs.penaltyRedistributionPool +
        (machine home checksum).tally penaltyShared (deployed balance) steps +
        (machine home checksum).tally penaltyStranded (deployed balance) steps) rfl ?_ ?_ steps
  · intro pre step t hpre hx
    have hs := run_consistent checksum balance pre
    have hpool := (exec_effect hs.reachable.wellFormed hx).penaltyPool hs
    rw [Machine.tally_snoc_ok hx, Machine.tally_snoc_ok hx, Machine.tally_snoc_ok hx, hpre, hpool]
    ring
  · intro pre step e hpre herror
    rw [Machine.tally_snoc_error herror, Machine.tally_snoc_error herror,
      Machine.tally_snoc_error herror]
    exact hpre

/-- The penalties of a run are in the pool or in the rewards of shared epochs exactly if every
closing of an epoch found the pool empty, or a stake that was old enough to share it. -/
theorem penalties_conserved_iff (checksum : ℕ → ℤ → Hash) (balance : Addr → Addr → ℕ)
    (steps : List (Step Addr home)) :
    (machine home checksum).tally penaltyTaken (deployed balance) steps =
        ((machine home checksum).run (deployed balance) steps).epochs.penaltyRedistributionPool +
          (machine home checksum).tally penaltyShared (deployed balance) steps ↔
      ∀ pre step t s, (machine home checksum).Executes (deployed balance) steps pre step t →
        (machine home checksum).run (deployed balance) pre = s → step.2.closesEpoch = true →
        s.epochs.penaltyRedistributionPool = 0 ∨ ∃ staker record,
          s.registry.stake staker = some record ∧ isEligible step.1.timestamp record = true := by
  rw [run_penalties, add_eq_left, Machine.tally_eq_zero_iff]
  · constructor
    · rintro hzero pre step t s hx rfl hcloses
      have hs := run_consistent checksum balance pre
      have heffect := exec_effect hs.reachable.wellFormed hx.exec_eq
      rw [or_iff_not_imp_right, ← heffect.closesShared_iff hs hcloses]
      intro hstranded
      have hterm := hzero pre step t hx
      rwa [penaltyStranded, if_pos ⟨hcloses, hstranded⟩] at hterm
    · intro hall pre step t hx
      have hs := run_consistent checksum balance pre
      have heffect := exec_effect hs.reachable.wellFormed hx.exec_eq
      unfold penaltyStranded
      split_ifs with hstranded
      · obtain ⟨hcloses, hnot⟩ := hstranded
        rcases hall pre step t _ hx rfl hcloses with hempty | hshared
        · exact hempty
        · exact absurd ((heffect.closesShared_iff hs hcloses).mpr hshared) hnot
      · rfl
  · intro pre step t hx
    unfold penaltyStranded
    split_ifs
    · exact (run_consistent checksum balance pre).epochs.pool_nonneg
    · exact le_rfl

end Runs

/-- The only stake is withdrawn at once, and the next epoch closes with no stake left. -/
def strandedRun : List (Step ℕ 0) :=
  [(grantedByAll 0, .config (.initializeStaking 1 9 none)),
    (grantedByAll 0, .stake 3 100 14),
    (grantedByAll 0, .unstake 3),
    (grantedByAll 0, .distributeRevenue 9 0)]

theorem strandedRun_not_conserved :
    (machine 0 noDigest).tally penaltyTaken (deployed stakerFunds) strandedRun ≠
      ((machine 0 noDigest).run (deployed stakerFunds)
          strandedRun).epochs.penaltyRedistributionPool +
        (machine 0 noDigest).tally penaltyShared (deployed stakerFunds) strandedRun := by
  have htaken : (machine 0 noDigest).tally penaltyTaken (deployed stakerFunds) strandedRun = 50 := by
    decide +kernel
  have hleft : ((machine 0 noDigest).run (deployed stakerFunds)
          strandedRun).epochs.penaltyRedistributionPool +
        (machine 0 noDigest).tally penaltyShared (deployed stakerFunds) strandedRun = 0 := by
    decide +kernel
  rw [htaken, hleft]
  decide

end Staking
