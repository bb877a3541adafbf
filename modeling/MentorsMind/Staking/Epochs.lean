import MentorsMind.Lib.Shares
import MentorsMind.Staking.Registry

/-! Closed epochs: what is recorded when an epoch closes, and that it stays as recorded. -/
namespace Staking
open Outcome Soroban Shared

section Rows

variable {Addr : Type}

/-- What a staker adds to the eligible total of an epoch that closes at time `now`. -/
def eligibleAmount (r : Registry Addr) (now : ℕ) (staker : Addr) : ℤ :=
  (r.stake staker).elim 0 fun record => if isEligible now record then record.amount else 0

/-- Nothing is recorded for the epoch `e` yet. -/
structure Epochs.Open (ep : Epochs Addr) (e : ℕ) : Prop where
  snapshot : ∀ staker, ep.epochStakerSnapshot (e, staker) = none
  eligibleTotal : ep.epochEligibleTotal e = none
  reward : ep.epochReward e = none

/-- The epoch `e` was closed at time `now` over the stakes in `reg`. -/
structure EpochRow (now : ℕ) (reg : Registry Addr) (ep : Epochs Addr) (e : ℕ) : Prop where
  snapshot : ∀ staker n, ep.epochStakerSnapshot (e, staker) = some n →
    ∃ record, reg.stake staker = some record ∧ record.amount = n
  eligibleTotal : ep.epochEligibleTotal e =
    some (Shares.positionSum reg.stakerAt (eligibleAmount reg now) reg.stakerCount)
  reward : ∃ amount, ep.epochReward e = some amount ∧ 0 ≤ amount

/-- Both hold the same record of the epoch `e`. -/
structure Epochs.SameRow (ep ep' : Epochs Addr) (e : ℕ) : Prop where
  snapshot : ∀ staker, ep'.epochStakerSnapshot (e, staker) = ep.epochStakerSnapshot (e, staker)
  eligibleTotal : ep'.epochEligibleTotal e = ep.epochEligibleTotal e
  reward : ep'.epochReward e = ep.epochReward e

theorem Epochs.SameRow.refl (ep : Epochs Addr) (e : ℕ) : ep.SameRow ep e :=
  ⟨fun _ => rfl, rfl, rfl⟩

theorem Epochs.SameRow.trans {ep ep' ep'' : Epochs Addr} {e : ℕ} (h : ep.SameRow ep' e)
    (h' : ep'.SameRow ep'' e) : ep.SameRow ep'' e :=
  ⟨fun staker => (h'.snapshot staker).trans (h.snapshot staker),
    h'.eligibleTotal.trans h.eligibleTotal, h'.reward.trans h.reward⟩

theorem Epochs.Open.of_sameRow {ep ep' : Epochs Addr} {e : ℕ} (h : ep.Open e)
    (hrow : ep.SameRow ep' e) : ep'.Open e where
  snapshot staker := by rw [hrow.snapshot, h.snapshot]
  eligibleTotal := by rw [hrow.eligibleTotal, h.eligibleTotal]
  reward := by rw [hrow.reward, h.reward]

theorem EpochRow.of_sameRow {now : ℕ} {reg : Registry Addr} {ep ep' : Epochs Addr} {e : ℕ}
    (h : EpochRow now reg ep e) (hrow : ep.SameRow ep' e) : EpochRow now reg ep' e where
  snapshot staker n hn := h.snapshot staker n (by rw [← hrow.snapshot, hn])
  eligibleTotal := by rw [hrow.eligibleTotal, h.eligibleTotal]
  reward := by rw [hrow.reward]; exact h.reward

theorem eligibleAmount_nonneg {reg : Registry Addr} (hreg : reg.Sound) (now : ℕ)
    (staker : Addr) : 0 ≤ eligibleAmount reg now staker := by
  unfold eligibleAmount
  cases hstake : reg.stake staker with
  | none => exact le_rfl
  | some record =>
    have hpos := (hreg.record staker record hstake).2.1
    show 0 ≤ if isEligible now record then record.amount else 0
    split_ifs
    · exact hpos.le
    · exact le_rfl

/-- Stakers that count for an epoch hold at most its eligible total. -/
theorem EpochRow.sum_snapshot_le [DecidableEq Addr] {now : ℕ} {reg : Registry Addr}
    {ep : Epochs Addr} {e : ℕ} {D : ℤ} (h : EpochRow now reg ep e) (hreg : reg.Sound)
    (hD : ep.epochEligibleTotal e = some D) {S : Finset Addr} {n : Addr → ℤ}
    (hS : ∀ staker ∈ S, ep.epochStakerSnapshot (e, staker) = some (n staker))
    (hcounted : ∀ staker ∈ S, ∀ record, reg.stake staker = some record →
      isEligible now record = true) : ∑ staker ∈ S, n staker ≤ D := by
  have hamount : ∀ staker ∈ S, eligibleAmount reg now staker = n staker ∧
      ∃ k, k < reg.stakerCount ∧ reg.stakerAt k = some staker := by
    intro staker hstaker
    obtain ⟨record, hstake, hn⟩ := h.snapshot staker _ (hS staker hstaker)
    obtain ⟨k, hk, hoccupant⟩ := hreg.occupant_of_stake hstake
    refine ⟨?_, k, hk, (Registry.occupant_eq_some.mp hoccupant).1⟩
    simp [eligibleAmount, hstake, hcounted staker hstaker record hstake, hn]
  rw [h.eligibleTotal] at hD
  obtain rfl := Option.some.inj hD
  calc ∑ staker ∈ S, n staker = ∑ staker ∈ S, eligibleAmount reg now staker :=
        Finset.sum_congr rfl fun staker hstaker => (hamount staker hstaker).1.symm
    _ ≤ Shares.positionSum reg.stakerAt (eligibleAmount reg now) reg.stakerCount :=
        Shares.sum_le_positionSum (eligibleAmount_nonneg hreg now) fun staker hstaker =>
          (hamount staker hstaker).2

end Rows

section Closing

variable {Addr : Type} [DecidableEq Addr]

/-- What the loop over the first `n` positions records. -/
theorem snapshotStakers_spec {r : Registry Addr} {now epoch n : ℕ}
    {acc acc' : Snapshotting Addr} (h : snapshotStakers r now epoch n acc = .ok acc') :
    acc'.eligibleTotal = acc.eligibleTotal +
        Shares.positionSum r.stakerAt (eligibleAmount r now) n ∧
      (∀ key : ℕ × Addr, key.1 ≠ epoch →
        acc'.epochStakerSnapshot key = acc.epochStakerSnapshot key) ∧
      ∀ staker, acc'.epochStakerSnapshot (epoch, staker) =
          acc.epochStakerSnapshot (epoch, staker) ∨
        ∃ record, r.stake staker = some record ∧
          acc'.epochStakerSnapshot (epoch, staker) = some record.amount := by
  induction n generalizing acc' with
  | zero =>
    obtain rfl : acc = acc' := pure_eq_ok.mp h
    exact ⟨(add_zero _).symm, fun _ _ => rfl, fun _ => .inl rfl⟩
  | succ i ih =>
    simp only [snapshotStakers, bind_eq_ok] at h
    obtain ⟨mid, hmid, h⟩ := h
    obtain ⟨htotal, hother, hsnapshot⟩ := ih hmid
    rw [Shares.positionSum_succ]
    cases hoccupant : r.occupant i with
    | none =>
      rw [hoccupant] at h
      obtain rfl : mid = acc' := pure_eq_ok.mp h
      have hzero : (r.stakerAt i).elim 0 (eligibleAmount r now) = 0 := by
        unfold Registry.occupant at hoccupant
        cases hat : r.stakerAt i with
        | none => rfl
        | some staker =>
          simp only [hat, Option.map_eq_none_iff] at hoccupant
          simp [eligibleAmount, hoccupant]
      exact ⟨by rw [htotal, hzero, add_zero], hother, hsnapshot⟩
    | some x =>
      obtain ⟨staker, record⟩ := x
      obtain ⟨hat, hstake⟩ := Registry.occupant_eq_some.mp hoccupant
      rw [hoccupant] at h
      dsimp only at h
      have hfields : acc'.eligibleTotal = mid.eligibleTotal + eligibleAmount r now staker ∧
          acc'.epochStakerSnapshot = Function.update mid.epochStakerSnapshot (epoch, staker)
            (some record.amount) := by
        simp only [eligibleAmount, hstake, Option.elim_some]
        split_ifs at h ⊢ with heligible
        · simp only [bind_eq_ok, checkedI128_eq_ok, pure_eq_ok] at h
          obtain ⟨total, ⟨-, rfl⟩, rfl⟩ := h
          exact ⟨rfl, rfl⟩
        · obtain rfl := pure_eq_ok.mp h
          exact ⟨(add_zero _).symm, rfl⟩
      obtain ⟨htotal', hupdated⟩ := hfields
      refine ⟨?_, fun key hkey => ?_, fun other => ?_⟩
      · rw [htotal', htotal, hat]
        show _ = acc.eligibleTotal + (_ + eligibleAmount r now staker)
        ring
      · have hne : key ≠ (epoch, staker) := fun heq => hkey (congrArg Prod.fst heq)
        rw [hupdated, Function.update_of_ne hne]
        exact hother key hkey
      · by_cases heq : other = staker
        · subst heq
          right
          exact ⟨record, hstake, by rw [hupdated, Function.update_self]⟩
        · have hne : (epoch, other) ≠ (epoch, staker) := fun h => heq (congrArg Prod.snd h)
          rw [hupdated, Function.update_of_ne hne]
          exact hsnapshot other

/-- Closing an epoch records it, with the penalties collected since the last one. -/
structure Closing (now : ℕ) (reg : Registry Addr) (amount : ℤ) (ep ep' : Epochs Addr) :
    Prop where
  epochId : ep'.epochId = ep.epochId + 1
  other : ∀ e, e ≠ ep.epochId → ep.SameRow ep' e
  row : EpochRow now reg ep' ep.epochId
  reward : ep'.epochReward ep.epochId = some (amount + ep.penaltyRedistributionPool)
  pool : ep'.penaltyRedistributionPool = 0

theorem internalDistributeRevenue_closing {now : ℕ} {reg : Registry Addr} {amount : ℤ}
    {ep ep' : Epochs Addr} (hopen : ep.Open ep.epochId) (hamount : 0 ≤ amount)
    (hpool : 0 ≤ ep.penaltyRedistributionPool)
    (h : internalDistributeRevenue now reg ep amount = .ok ep') :
    Closing now reg amount ep ep' := by
  simp only [internalDistributeRevenue, bind_eq_ok, checkedI128_eq_ok, safeAddU64_eq_ok,
    pure_eq_ok] at h
  obtain ⟨-, -, taken, htaken, reward, ⟨-, rfl⟩, next, ⟨-, rfl⟩, rfl⟩ := h
  obtain ⟨htotal, hother, hsnapshot⟩ := snapshotStakers_spec htaken
  refine ⟨rfl, fun e he => ⟨fun staker => hother _ he, ?_, ?_⟩, ⟨fun staker n hn => ?_, ?_, ?_⟩,
    ?_, ?_⟩
  · exact Function.update_of_ne he _ _
  · exact Function.update_of_ne he _ _
  · have hn' : taken.epochStakerSnapshot (ep.epochId, staker) = some n := hn
    rcases hsnapshot staker with hsame | ⟨record, hstake, hrecord⟩
    · rw [hsame] at hn'
      exact absurd hn' (by simp [hopen.snapshot])
    · rw [hrecord] at hn'
      exact ⟨record, hstake, Option.some.inj hn'⟩
  · show Function.update ep.epochEligibleTotal ep.epochId (some taken.eligibleTotal)
      ep.epochId = _
    rw [Function.update_self, htotal, zero_add]
  · exact ⟨_, Function.update_self .., add_nonneg hamount hpool⟩
  · exact Function.update_self ..
  · show (if 0 < ep.penaltyRedistributionPool then 0 else ep.penaltyRedistributionPool) = 0
    split_ifs <;> omega

omit [DecidableEq Addr] in
/-- A penalty is added to the pool. -/
theorem Epochs.collectPenalty_eq_ok {ep ep' : Epochs Addr} {penalty : ℤ}
    (hpenalty : 0 ≤ penalty) (h : ep.collectPenalty penalty = .ok ep') :
    ep' = { ep with penaltyRedistributionPool := ep.penaltyRedistributionPool + penalty } := by
  unfold Epochs.collectPenalty at h
  split_ifs at h with hpos
  · simp only [bind_eq_ok, checkedI128_eq_ok, pure_eq_ok] at h
    obtain ⟨pool, ⟨-, rfl⟩, rfl⟩ := h
    rfl
  · obtain rfl := pure_eq_ok.mp h
    obtain rfl : penalty = 0 := by omega
    rw [add_zero]

end Closing

section Runs

variable {Addr : Type} [DecidableEq Addr] {home : Addr} {inv : Invocation Addr home}
  {s t : State Addr} {call : Call Addr} {checksum : ℕ → ℤ → Hash}
  {balance : Addr → Addr → ℕ} {steps : List (Step Addr home)}

/-- Epochs that did not close yet are blank, and the pool is not negative. -/
structure Epochs.Sound (ep : Epochs Addr) : Prop where
  openFrom : ∀ e, ep.epochId ≤ e → ep.Open e
  pool_nonneg : 0 ≤ ep.penaltyRedistributionPool

/-- The penalty of a stake, and what its owner gets back. -/
theorem Unstaked.penalty_spec {mentor : Addr} {record : StakeRecord Addr}
    {penalty : PenaltyCalculation} {settled : Rewards Addr} {mnt : Addr} (hs : Reachable s)
    (h : Unstaked inv s t mentor record penalty settled mnt) :
    0 ≤ penalty.penaltyAmount ∧ 0 ≤ penalty.returnedAmount ∧
      penalty.penaltyAmount + penalty.returnedAmount = record.amount := by
  obtain ⟨-, hpos, hle⟩ := hs.registry.record mentor record h.found
  refine computeEarlyUnstakePenalty_eq_ok ?_ hpos.le h.penalty_eq
  unfold maxFinancialAmount at hle
  omega

/-- A call closes the current epoch or leaves every record of an epoch alone. -/
theorem Effect.epochs_cases (hs : Reachable s) (hep : s.epochs.Sound)
    (h : Effect inv s t call) :
    (call.closesEpoch = true ∧ t.registry = s.registry ∧ t.rewards = s.rewards ∧
        Closing inv.timestamp s.registry call.promised s.epochs t.epochs) ∨
      (t.epochs.epochId = s.epochs.epochId ∧ (∀ e, s.epochs.SameRow t.epochs e) ∧
        0 ≤ t.epochs.penaltyRedistributionPool) := by
  have hkept : t.epochs = s.epochs → t.epochs.epochId = s.epochs.epochId ∧
      (∀ e, s.epochs.SameRow t.epochs e) ∧ 0 ≤ t.epochs.penaltyRedistributionPool := by
    intro heq
    rw [heq]
    exact ⟨rfl, fun e => .refl _ e, hep.pool_nonneg⟩
  cases h with
  | closed closes h =>
    left
    exact ⟨closes, h.registry, h.rewards, internalDistributeRevenue_closing
      (hep.openFrom _ le_rfl) h.nonneg hep.pool_nonneg h.closed⟩
  | unstaked h =>
    right
    obtain ⟨hpenalty, -, -⟩ := h.penalty_spec hs
    rw [Epochs.collectPenalty_eq_ok hpenalty h.collected]
    exact ⟨rfl, fun _ => ⟨fun _ => rfl, rfl, rfl⟩, add_nonneg hep.pool_nonneg hpenalty⟩
  | idled _ h => exact .inr (hkept h.epochs)
  | staked h => exact .inr (hkept h.epochs)
  | batched h => exact .inr (hkept h.epochs)
  | claimed h => exact .inr (hkept h.epochs)
  | funded h => exact .inr (hkept h.epochs)
  | lpPaid h => exact .inr (hkept h.epochs)
  | deposited h => exact .inr (hkept h.epochs)

theorem Epochs.Sound.of_effect (hs : Reachable s) (hep : s.epochs.Sound)
    (h : Effect inv s t call) : t.epochs.Sound := by
  rcases h.epochs_cases hs hep with ⟨-, -, -, hclosing⟩ | ⟨hid, hrows, hpool⟩
  · refine ⟨fun e he => ?_, hclosing.pool.ge⟩
    rw [hclosing.epochId] at he
    exact (hep.openFrom e (by omega)).of_sameRow (hclosing.other e (by omega))
  · refine ⟨fun e he => ?_, hpool⟩
    rw [hid] at he
    exact (hep.openFrom e he).of_sameRow (hrows e)

/-- In the run of `steps` the epoch `e` closed at time `now`, over the state `u`. -/
def ClosedAt (checksum : ℕ → ℤ → Hash) (balance : Addr → Addr → ℕ)
    (steps : List (Step Addr home)) (e now : ℕ) (u : State Addr) : Prop :=
  ∃ pre step t, (machine home checksum).Executes (deployed balance) steps pre step t ∧
    step.2.closesEpoch = true ∧ step.1.timestamp = now ∧
    (machine home checksum).run (deployed balance) pre = u ∧ u.epochs.epochId = e

theorem ClosedAt.mono {steps' : List (Step Addr home)} {e now : ℕ} {u : State Addr}
    (h : ClosedAt checksum balance steps e now u) (hlonger : steps <+: steps') :
    ClosedAt checksum balance steps' e now u := by
  obtain ⟨pre, step, t, hx, hrest⟩ := h
  exact ⟨pre, step, t, hx.mono hlonger, hrest⟩

/-- The state `s` has a record of each epoch that closed in the run of `steps`. -/
structure EpochsRecorded (checksum : ℕ → ℤ → Hash) (balance : Addr → Addr → ℕ)
    (steps : List (Step Addr home)) (s : State Addr) : Prop where
  reachable : Reachable s
  sound : s.epochs.Sound
  row : ∀ e, e < s.epochs.epochId → ∃ now u, ClosedAt checksum balance steps e now u ∧
    u.registry.Sound ∧ EpochRow now u.registry s.epochs e

/-- A longer run has closed the same epochs. -/
theorem EpochsRecorded.mono {steps' : List (Step Addr home)}
    (h : EpochsRecorded checksum balance steps s) (hlonger : steps <+: steps') :
    EpochsRecorded checksum balance steps' s where
  reachable := h.reachable
  sound := h.sound
  row e he := by
    obtain ⟨now, u, hclosed, hu, hrow⟩ := h.row e he
    exact ⟨now, u, hclosed.mono hlonger, hu, hrow⟩

omit [DecidableEq Addr] in
theorem deployed_epochs_sound (balance : Addr → Addr → ℕ) :
    (deployed balance).epochs.Sound :=
  ⟨fun _ _ => ⟨fun _ => rfl, rfl, rfl⟩, le_rfl⟩

theorem run_epochsRecorded (checksum : ℕ → ℤ → Hash) (balance : Addr → Addr → ℕ)
    (steps : List (Step Addr home)) : EpochsRecorded checksum balance steps
      ((machine home checksum).run (deployed balance) steps) := by
  refine Machine.run_history (P := fun steps s => EpochsRecorded checksum balance steps s)
    ⟨deployed_reachable balance, deployed_epochs_sound balance, fun e he => nomatch he⟩ ?_ ?_
    steps
  · intro pre step t hpre hx
    have heffect := exec_effect hpre.reachable.wellFormed hx
    have hkept := hpre.mono (List.prefix_append pre [step])
    refine ⟨hpre.reachable.of_effect heffect, hpre.sound.of_effect hpre.reachable heffect,
      fun e he => ?_⟩
    rcases heffect.epochs_cases hpre.reachable hpre.sound with
      ⟨hcloses, -, -, hclosing⟩ | ⟨hid, hrows, -⟩
    · rw [hclosing.epochId] at he
      by_cases hnow : e = ((machine home checksum).run (deployed balance) pre).epochs.epochId
      · subst hnow
        exact ⟨_, _, ⟨pre, step, t, Machine.executes_snoc hx, hcloses, rfl, rfl, rfl⟩,
          hpre.reachable.registry, hclosing.row⟩
      · obtain ⟨now, u, hclosed, hu, hrow⟩ := hkept.row e (by omega)
        exact ⟨now, u, hclosed, hu, hrow.of_sameRow (hclosing.other e hnow)⟩
    · rw [hid] at he
      obtain ⟨now, u, hclosed, hu, hrow⟩ := hkept.row e he
      exact ⟨now, u, hclosed, hu, hrow.of_sameRow (hrows e)⟩
  · intro pre step e hpre _
    exact hpre.mono (List.prefix_append pre [step])

end Runs

end Staking
