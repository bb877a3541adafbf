import MentorsMind.LendingPool.LoanConservation

/-! The interest rate against the utilization of the pool. The pool reads a counter of loans that
nothing writes, so that it charges the base rate whatever is outstanding. -/
namespace LendingPool
open Outcome Soroban Shared

/-- The documented two-slope function, on whole basis points. -/
def RateModel.twoSlope (m : RateModel) (utilizationBps : ℤ) : ℤ :=
  if utilizationBps ≤ m.kinkBps then
    m.baseRateBps + (utilizationBps * m.slope1Bps).tdiv m.kinkBps
  else
    m.baseRateBps + m.slope1Bps +
      ((utilizationBps - m.kinkBps) * m.slope2Bps).tdiv (10000 - m.kinkBps)

/-- What `set_rate_model` accepts. -/
structure RateModel.Accepted (m : RateModel) : Prop where
  base : 0 ≤ m.baseRateBps ∧ m.baseRateBps ≤ 10000
  kink : 0 ≤ m.kinkBps ∧ m.kinkBps ≤ 10000
  slope1 : 0 ≤ m.slope1Bps ∧ m.slope1Bps ≤ 10000
  slope2 : 0 ≤ m.slope2Bps ∧ m.slope2Bps ≤ 10000

theorem defaultRateModel_accepted : defaultRateModel.Accepted :=
  ⟨by decide, by decide, by decide, by decide⟩

/-- At this utilization the two-slope function adds less than a basis point to the base rate. -/
def RateModel.Flat (m : RateModel) (utilizationBps : ℤ) : Prop :=
  if utilizationBps ≤ m.kinkBps then
    m.kinkBps = 0 ∨ |utilizationBps| * m.slope1Bps < m.kinkBps
  else
    m.slope1Bps = 0 ∧
      (m.kinkBps = 10000 ∨ (utilizationBps - m.kinkBps) * m.slope2Bps < 10000 - m.kinkBps)

/-- A quotient that is rounded to zero. -/
theorem tdiv_eq_zero_iff {a b : ℤ} (hb : 0 ≤ b) : a.tdiv b = 0 ↔ b = 0 ∨ |a| < b := by
  have hquotient : (a.tdiv b).natAbs = a.natAbs / b.natAbs := Int.natAbs_tdiv a b
  rw [← Int.natAbs_eq_zero, hquotient, Nat.div_eq_zero_iff, Int.abs_eq_natAbs]
  omega

/-- The rate stays at the base rate exactly where the two-slope function is flat. -/
theorem RateModel.Accepted.twoSlope_eq_base_iff {m : RateModel} (h : m.Accepted)
    (utilizationBps : ℤ) : m.twoSlope utilizationBps = m.baseRateBps ↔ m.Flat utilizationBps := by
  obtain ⟨hkink, hkink'⟩ := h.kink
  obtain ⟨hslope1, -⟩ := h.slope1
  obtain ⟨hslope2, -⟩ := h.slope2
  unfold RateModel.twoSlope RateModel.Flat
  split_ifs with hbelow
  · rw [add_eq_left, tdiv_eq_zero_iff hkink, abs_mul, abs_of_nonneg hslope1]
  · have hexcess : 0 ≤ (utilizationBps - m.kinkBps) * m.slope2Bps :=
      mul_nonneg (by omega) hslope2
    have hincrease : 0 ≤
        ((utilizationBps - m.kinkBps) * m.slope2Bps).tdiv (10000 - m.kinkBps) :=
      Int.tdiv_nonneg hexcess (by omega)
    have hzero := tdiv_eq_zero_iff (a := (utilizationBps - m.kinkBps) * m.slope2Bps)
      (b := 10000 - m.kinkBps) (by omega)
    rw [abs_of_nonneg hexcess] at hzero
    -- Neither summand is negative, so both are zero.
    have hsum : m.baseRateBps + m.slope1Bps +
        ((utilizationBps - m.kinkBps) * m.slope2Bps).tdiv (10000 - m.kinkBps) =
          m.baseRateBps ↔ m.slope1Bps = 0 ∧
        ((utilizationBps - m.kinkBps) * m.slope2Bps).tdiv (10000 - m.kinkBps) = 0 := by
      omega
    rw [hsum, hzero, sub_eq_zero, eq_comm (a := (10000 : ℤ))]

section Reached

variable {Addr : Type} [DecidableEq Addr] {home : Addr}

/-- What share of the pool is lent, in whole basis points. -/
noncomputable def State.utilizationBps (s : State Addr) : ℤ :=
  (s.outstanding * 10000).tdiv (s.outstanding + s.totalLiquidity)

/-- The rate that the documentation promises. -/
noncomputable def State.documentedRate (s : State Addr) : ℤ :=
  if s.outstanding + s.totalLiquidity = 0 then s.rateModel.baseRateBps
  else s.rateModel.twoSlope s.utilizationBps

/-- Governance has set a rate. -/
def State.GovernanceRate (s : State Addr) : Prop :=
  0 < (s.params.param keyInterestRateBps).getD 0

instance (s : State Addr) : Decidable s.GovernanceRate :=
  inferInstanceAs (Decidable (0 < (s.params.param keyInterestRateBps).getD 0))

/-- The fee for an amount at a rate. -/
def feeAt (amount rate : ℤ) : Result ℤ := do
  let product ← expect (checkedMul amount rate) (.panic "Overflow")
  expect (checkedDiv product 10000) (.panic "Division error")

omit [DecidableEq Addr] in
theorem computeFee_of_no_governanceRate {s : State Addr} (h : ¬ s.GovernanceRate)
    (amount : ℤ) : computeFee s amount = (getCurrentRate s >>= feeAt amount) := by
  unfold computeFee feeAt
  exact if_neg h

/-- Ten thousand of anything cost as much as the rate says. -/
theorem feeAt_tenThousand {rate : ℤ} (hrate : 0 ≤ rate ∧ rate ≤ 10000) :
    feeAt 10000 rate = .ok rate := by
  have hfits : FitsI128 (10000 * rate) := by
    unfold FitsI128
    omega
  have hfits' : FitsI128 rate := by
    unfold FitsI128
    omega
  have hquotient : (10000 * rate).tdiv 10000 = rate := Int.mul_tdiv_cancel_left rate (by decide)
  simp only [feeAt, checkedMul, checkedDiv, if_pos hfits, expect, ok_bind, hquotient]
  rw [if_pos ⟨by decide, hfits'⟩]

theorem eq_of_feeAt_tenThousand {rate fee : ℤ} (h : feeAt 10000 rate = .ok fee) :
    rate = fee := by
  simp only [feeAt, bind_eq_ok, expect_eq_ok, checkedMul, checkedDiv] at h
  obtain ⟨product, hproduct, hfee⟩ := h
  split_ifs at hproduct
  obtain rfl := Option.some.inj hproduct
  split_ifs at hfee
  obtain rfl := Option.some.inj hfee
  exact (Int.mul_tdiv_cancel_left rate (by decide)).symm

/-- Without a rate set by governance, whatever is borrowed is charged at the documented rate. -/
def State.RateFollowsUtilization (s : State Addr) : Prop :=
  ¬ s.GovernanceRate → ∀ amount, computeFee s amount = feeAt amount s.documentedRate

/-- What the rate is computed from, in every state that the pool reaches. -/
structure RateInputs (s : State Addr) : Prop where
  loanCount : s.loanCount = 0
  model : s.rateModel.Accepted
  liquidity : FitsI128 s.totalLiquidity

theorem exec_rateModel {inv : Invocation Addr home} {s t : State Addr} {call : Call Addr}
    (hs : s.rateModel.Accepted) (h : exec inv call s = .ok t) : t.rateModel.Accepted := by
  cases exec_effect h with
  | @rateModelSet baseRateBps kinkBps slope1Bps slope2Bps =>
    simp only [exec, setRateModel, bind_eq_ok, require_eq_ok, pure_eq_ok] at h
    obtain ⟨-, -, -, hbase, -, hkink, -, hslope1, -, hslope2, rfl⟩ := h
    exact ⟨hbase, hkink, hslope1, hslope2⟩
  | initialized _ eq =>
    rw [eq]
    exact defaultRateModel_accepted
  | minCreditScoreSet eq | paramSet eq | deposited _ _ _ eq | withdrawn _ _ _ eq
  | borrowed _ _ _ _ _ _ _ _ _ eq | repaid _ _ _ _ eq | liquidated _ _ eq
  | auctionStarted _ _ _ _ eq | auctionExecuted _ _ _ eq | forceLiquidated _ _ eq
  | yieldAccrued _ _ eq | yieldDistributed _ _ eq | received _ _ eq | elsewhere _ eq =>
    rw [eq]
    exact hs

theorem fits_zero : FitsI128 0 := by decide

/-- The liquidity is written by checked operations only. -/
theorem exec_totalLiquidity_fits {inv : Invocation Addr home} {s t : State Addr}
    {call : Call Addr} (hs : FitsI128 s.totalLiquidity) (h : exec inv call s = .ok t) :
    FitsI128 t.totalLiquidity := by
  cases exec_effect h with
  | initialized _ eq =>
    rw [eq]
    exact fits_zero
  | @deposited lender amount =>
    simp only [exec, deposit, bind_eq_ok, expect_eq_ok, checkedAdd_eq_some, pure_eq_ok] at h
    obtain ⟨-, -, -, -, -, -, -, -, -, -, liquidity, ⟨hfits, rfl⟩, -, -, -, -, rfl⟩ := h
    exact hfits
  | @withdrawn lender lpAmount =>
    simp only [exec, withdraw, bind_eq_ok, expect_eq_ok, checkedSub_eq_some, pure_eq_ok] at h
    obtain ⟨-, -, -, -, -, -, -, -, -, -, -, -, -, -, liquidity, ⟨hfits, rfl⟩, -, -, -, -,
      rfl⟩ := h
    exact hfits
  | @borrowed borrower amount sessionId =>
    simp only [exec, borrow, bind_eq_ok, expect_eq_ok, checkedSub_eq_some, pure_eq_ok] at h
    obtain ⟨-, -, -, -, -, -, -, -, -, -, -, -, -, -, guards, -, fee, -, -, -, tokens, -, dueAt, -,
      liquidity, ⟨hfits, rfl⟩, rfl⟩ := h
    exact hfits
  | @repaid borrower amount =>
    simp only [exec, repay, bind_eq_ok, i128_eq_ok, expect_eq_ok, checkedAdd_eq_some,
      pure_eq_ok] at h
    obtain ⟨-, -, -, -, -, -, loan, -, owed, -, -, -, -, -, tokens, -, liquidity, ⟨hfits, rfl⟩,
      rfl⟩ := h
    exact hfits
  | @auctionExecuted liquidator borrower =>
    simp only [exec, executeLiquidation, bind_eq_ok, expect_eq_ok, checkedAdd_eq_some,
      pure_eq_ok] at h
    obtain ⟨-, -, auction, -, -, -, discount, -, owed, -, product, -, discounted, -, payment, -,
      -, -, tokens, -, liquidity, ⟨hfits, rfl⟩, rfl⟩ := h
    exact hfits
  | @yieldAccrued admin amount =>
    simp only [exec, accrueYield, bind_eq_ok, expect_eq_ok, checkedAdd_eq_some, pure_eq_ok] at h
    obtain ⟨-, -, -, -, liquidity, ⟨hfits, rfl⟩, rfl⟩ := h
    exact hfits
  | rateModelSet eq | minCreditScoreSet eq | paramSet eq | liquidated _ _ eq
  | auctionStarted _ _ _ _ eq | forceLiquidated _ _ eq | yieldDistributed _ _ eq
  | received _ _ eq | elsewhere _ eq =>
    rw [eq]
    exact hs

theorem exec_rateInputs {inv : Invocation Addr home} {s t : State Addr} {call : Call Addr}
    (hs : RateInputs s) (h : exec inv call s = .ok t) : RateInputs t where
  model := exec_rateModel hs.model h
  liquidity := exec_totalLiquidity_fits hs.liquidity h
  loanCount := by
    cases exec_effect h with
    | initialized _ eq | rateModelSet eq | minCreditScoreSet eq | paramSet eq
    | deposited _ _ _ eq | withdrawn _ _ _ eq | borrowed _ _ _ _ _ _ _ _ _ eq
    | repaid _ _ _ _ eq | liquidated _ _ eq | auctionStarted _ _ _ _ eq
    | auctionExecuted _ _ _ eq | forceLiquidated _ _ eq | yieldAccrued _ _ eq
    | yieldDistributed _ _ eq | received _ _ eq | elsewhere _ eq =>
      rw [eq]
      exact hs.loanCount

theorem run_rateInputs (balance : Addr → Addr → ℕ) (steps : List (Step Addr home)) :
    RateInputs ((machine home).run (deployed balance) steps) :=
  Machine.run_invariant (M := machine home)
    ⟨rfl, defaultRateModel_accepted, fits_zero⟩
    (fun _ _ _ hs h => exec_rateInputs hs h) steps

omit [DecidableEq Addr] in
/-- As no loan is ever counted, the rate is the base rate. -/
theorem RateInputs.getCurrentRate {s : State Addr} (h : RateInputs s) :
    getCurrentRate s = .ok s.rateModel.baseRateBps := by
  obtain ⟨hbase, hbase'⟩ := h.model.base
  obtain ⟨hkink, -⟩ := h.model.kink
  have hfits : FitsI128 s.rateModel.baseRateBps := by
    unfold FitsI128
    omega
  have hzero : ∀ b, (checkedDiv 0 b).getD 0 = 0 := by
    intro b
    unfold checkedDiv
    split_ifs with hdiv
    · exact Int.zero_tdiv b
    · rfl
  have hproduct : ∀ b, (checkedMul 0 b).getD i128Max = 0 := by
    intro b
    unfold checkedMul
    rw [zero_mul, if_pos (by decide), Option.getD_some]
  have hflat : twoSlopeRate s.rateModel 0 = .ok s.rateModel.baseRateBps := by
    unfold twoSlopeRate checkedAdd
    simp only [if_pos hkink, hproduct, hzero, add_zero, if_pos hfits, Option.getD_some]
    rfl
  unfold LendingPool.getCurrentRate
  simp only [h.loanCount, zero_add, hproduct, hzero, hflat]
  rw [i128, checkedI128, require, if_pos h.liquidity, ok_bind]
  show (if s.totalLiquidity = 0 then _ else _) = _
  split_ifs with hempty
  · rfl
  · rfl

/-- In every state that the pool reaches, the rate follows the utilization exactly where that
changes nothing: governance has set a rate, the pool is empty, or the function is flat there. -/
theorem rateFollowsUtilization_iff (balance : Addr → Addr → ℕ) (steps : List (Step Addr home)) :
    ((machine home).run (deployed balance) steps).RateFollowsUtilization ↔
      ((machine home).run (deployed balance) steps).GovernanceRate ∨
      ((machine home).run (deployed balance) steps).outstanding +
        ((machine home).run (deployed balance) steps).totalLiquidity = 0 ∨
      ((machine home).run (deployed balance) steps).rateModel.Flat
        ((machine home).run (deployed balance) steps).utilizationBps := by
  have hinputs := run_rateInputs balance steps
  generalize (machine home).run (deployed balance) steps = s at hinputs
  have hfee : ¬ s.GovernanceRate → ∀ amount,
      computeFee s amount = feeAt amount s.rateModel.baseRateBps := by
    intro hunset amount
    rw [computeFee_of_no_governanceRate hunset, hinputs.getCurrentRate]
    rfl
  have hbase : s.documentedRate = s.rateModel.baseRateBps ↔
      s.outstanding + s.totalLiquidity = 0 ∨ s.rateModel.Flat s.utilizationBps := by
    unfold State.documentedRate
    split_ifs with hempty
    · simp [hempty]
    · rw [hinputs.model.twoSlope_eq_base_iff]
      simp [hempty]
  rw [← hbase]
  constructor
  · intro hfollows
    by_cases hset : s.GovernanceRate
    · exact .inl hset
    · right
      apply eq_of_feeAt_tenThousand
      rw [← hfollows hset, hfee hset]
      exact feeAt_tenThousand hinputs.model.base
  · intro hcases hunset amount
    rw [hfee hunset, hcases.resolve_left hunset]

end Reached

/-- A twentieth of the pool is lent, and the rate is still the base rate. -/
theorem lentRun_not_rateFollowsUtilization :
    ¬ ((machine 0).run (deployed poolFunds) lentRun).RateFollowsUtilization := by
  intro hfollows
  have houtstanding : ((machine 0).run (deployed poolFunds) lentRun).outstanding = 50 := by
    have hbooks := tally_lent poolFunds lentRun
    have hlent : (machine 0).tally lent (deployed poolFunds) lentRun = 50 := by decide +kernel
    have hclosed : (machine 0).tally closed (deployed poolFunds) lentRun = 0 := by
      decide +kernel
    have hwrittenOff : (machine 0).tally writtenOff (deployed poolFunds) lentRun = 0 := by
      decide +kernel
    have hlost : (machine 0).tally lost (deployed poolFunds) lentRun = 0 := by decide +kernel
    omega
  have hliquidity : ((machine 0).run (deployed poolFunds) lentRun).totalLiquidity = 950 := by
    decide +kernel
  have hmodel : ((machine 0).run (deployed poolFunds) lentRun).rateModel = defaultRateModel := by
    rfl
  have hunset : ¬ ((machine 0).run (deployed poolFunds) lentRun).GovernanceRate := by
    decide +kernel
  have hcharged : computeFee ((machine 0).run (deployed poolFunds) lentRun) 10000 = .ok 100 := by
    rfl
  have hdocumented : ((machine 0).run (deployed poolFunds) lentRun).documentedRate = 125 := by
    unfold State.documentedRate State.utilizationBps
    rw [houtstanding, hliquidity, hmodel]
    decide
  have hfee := hfollows hunset 10000
  rw [hcharged, hdocumented, feeAt_tenThousand (by decide)] at hfee
  cases hfee

end LendingPool
