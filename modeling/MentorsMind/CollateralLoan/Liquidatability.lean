import MentorsMind.CollateralLoan.BotView

/-! Time and the health check. Only time makes a debt grow while nobody touches its loan, so that
with a fixed price a loan that can be liquidated stays so. -/
namespace CollateralLoan
open Outcome Soroban Shared

section Debts

variable {l : Loan} {price : ℤ} {now later : ℕ}

/-- The interest for the full days since the loan was opened. -/
def Loan.interest (l : Loan) (now : ℕ) : ℤ :=
  l.debtAmount * l.interestRateBps * ((now - l.borrowedAt) / secondsPerDay : ℕ) / 3650000

/-- A loan as the contract opens it, at the only rate that it has. -/
structure Loan.Standard (l : Loan) : Prop extends l.Admissible where
  rate : l.interestRateBps = defaultInterestRateBps

theorem Loan.interest_mono (hl : l.Admissible) (hle : now ≤ later) :
    l.interest now ≤ l.interest later := by
  have hdays : (now - l.borrowedAt) / secondsPerDay ≤ (later - l.borrowedAt) / secondsPerDay :=
    Nat.div_le_div_right (Nat.sub_le_sub_right hle _)
  have hyearly : 0 ≤ l.debtAmount * l.interestRateBps :=
    mul_nonneg hl.debt.le (Int.natCast_nonneg _)
  exact Int.ediv_le_ediv (by decide) (mul_le_mul_of_nonneg_left (Int.ofNat_le.mpr hdays) hyearly)

theorem mulOrZero_of_lt {a b : ℤ} (hnonneg : 0 ≤ a * b) (hlt : a * b < 2 ^ 127) :
    mulOrZero a b = a * b := by
  rw [mulOrZero, if_pos]
  exact ⟨by omega, hlt⟩

/-- None of the fallbacks for an overflow is taken. -/
theorem Loan.Standard.currentDebt_eq (hl : l.Standard) (hnow : now < 2 ^ 64) :
    l.currentDebt now = l.debtAmount + l.interest now := by
  have hdebt := hl.debt
  have hbounded : l.debtAmount ≤ 1000000000000000 := hl.bounded
  have hrate : (l.interestRateBps : ℤ) = 1000 := by
    rw [hl.rate]
    rfl
  have hdays : (((now - l.borrowedAt) / secondsPerDay : ℕ) : ℤ) ≤ 213503982334601 := by
    unfold secondsPerDay
    omega
  have hyearly : 0 ≤ l.debtAmount * l.interestRateBps ∧
      l.debtAmount * l.interestRateBps ≤ 1000000000000000000 := by
    rw [hrate]
    omega
  have htotal : 0 ≤ l.debtAmount * l.interestRateBps *
      ((now - l.borrowedAt) / secondsPerDay : ℕ) :=
    mul_nonneg hyearly.1 (Int.natCast_nonneg _)
  have hfits : l.debtAmount * l.interestRateBps * ((now - l.borrowedAt) / secondsPerDay : ℕ) ≤
      1000000000000000000 * 213503982334601 :=
    mul_le_mul hyearly.2 hdays (Int.natCast_nonneg _) (by norm_num)
  have hinterest : (mulOrZero (mulOrZero l.debtAmount l.interestRateBps)
      ((now - l.borrowedAt) / secondsPerDay : ℕ)).tdiv (365 * bpsDenominator) = l.interest now := by
    rw [mulOrZero_of_lt hyearly.1 (by omega), mulOrZero_of_lt htotal (by omega),
      Int.tdiv_eq_ediv_of_nonneg htotal]
    rfl
  have hinterestNonneg : 0 ≤ l.interest now := Int.ediv_nonneg htotal (by decide)
  have hinterestLe : l.interest now ≤ 1000000000000000000 * 213503982334601 :=
    (Int.ediv_le_self _ htotal).trans hfits
  unfold Loan.currentDebt
  rw [if_neg (not_le.mpr hdebt)]
  dsimp only
  rw [hinterest, if_pos ⟨by omega, by omega⟩]

theorem Loan.Standard.currentDebt_mono (hl : l.Standard) (hle : now ≤ later)
    (hlater : later < 2 ^ 64) : l.currentDebt now ≤ l.currentDebt later := by
  have hinterest := Loan.interest_mono hl.toAdmissible hle
  rw [hl.currentDebt_eq (by omega), hl.currentDebt_eq hlater]
  omega

/-- The ratio falls as the debt grows. -/
theorem Loan.Standard.ratio_anti (hl : l.Standard) (hprice : 0 < price) (hle : now ≤ later)
    (hlater : later < 2 ^ 64) :
    l.value price / l.currentDebt later ≤ l.value price / l.currentDebt now := by
  have hvalue : 0 ≤ l.value price :=
    mul_nonneg (Int.ediv_nonneg (mul_pos hl.collateral hprice).le (by decide)) (by decide)
  have hdebt := hl.toAdmissible.currentDebt_pos now
  have hgrown := hl.currentDebt_mono hle hlater
  rw [Int.le_ediv_iff_mul_le hdebt]
  calc l.value price / l.currentDebt later * l.currentDebt now
      ≤ l.value price / l.currentDebt later * l.currentDebt later :=
        mul_le_mul_of_nonneg_left hgrown (Int.ediv_nonneg hvalue (by omega))
    _ ≤ l.value price := Int.ediv_mul_le _ (by omega)

end Debts

section Calls

variable {Addr : Type} [DecidableEq Addr] {home : Addr} {inv : Invocation Addr home}
  {s t : State Addr} {call : Call Addr home} {borrower : Addr}

/-- The call adds collateral to the loan of the borrower, or closes it. -/
def Call.Touches (call : Call Addr home) (borrower : Addr) : Prop :=
  match call with
  | .addCollateral b _ | .repayLoan b _ | .liquidate b _ => b = borrower
  | _ => False

/-- What a call does to the loan of one borrower. -/
inductive LoanStep (s t : State Addr) (call : Call Addr home) (borrower : Addr) : Prop where
  | kept (same : t.loan borrower = s.loan borrower)
  | opened (l : Loan) (fresh : s.loan borrower = none) (stored : t.loan borrower = some l)
      (rate : l.interestRateBps = s.interestRateBps.getD defaultInterestRateBps)
  | added (touches : call.Touches borrower) (l : Loan) (amount : ℤ)
      (found : s.loan borrower = some l)
      (stored : t.loan borrower = some { l with collateralAmount := l.collateralAmount + amount })
  | closed (touches : call.Touches borrower) (gone : t.loan borrower = none)

/-- The end of a loan leaves the rate alone, and the loans of the others. -/
theorem close_loans {b : Addr} {u : State Addr}
    (h : recordSnapshotIndex (deindexPosition (setLoan u b none) b) = .ok t)
    (hrate : u.interestRateBps = s.interestRateBps) (hloan : u.loan = s.loan) :
    t.interestRateBps = s.interestRateBps ∧ t.loan = Function.update s.loan b none := by
  obtain ⟨d, hd, -⟩ := deindexPosition_eq (setLoan u b none) b
  obtain rfl := recordSnapshotIndex_eq_ok h
  rw [hd, ← hloan]
  exact ⟨hrate, rfl⟩

theorem openLoan_loans {b : Addr} {collateralAmount borrowAmount : ℤ}
    (h : openLoan inv s b collateralAmount borrowAmount = .ok t) :
    s.loan b = none ∧ t.interestRateBps = s.interestRateBps ∧
      t.loan = Function.update s.loan b (some ⟨collateralAmount, borrowAmount, inv.timestamp,
        s.interestRateBps.getD defaultInterestRateBps⟩) := by
  simp only [openLoan, bind_eq_ok, require_eq_ok, Option.isNone_iff_eq_none] at h
  obtain ⟨-, -, -, -, -, -, -, -, -, -, -, hfresh, -, -, -, -, -, -, mnt, -, usdc, -, deposited,
    hdeposited, lent, hlent, indexed, hindexed, hrecorded⟩ := h
  obtain ⟨held, -, rfl⟩ := transfer_eq_ok hdeposited
  obtain ⟨left, -, rfl⟩ := transfer_eq_ok hlent
  obtain rfl := indexPosition_eq_ok hindexed
  obtain rfl := recordSnapshotIndex_eq_ok hrecorded
  exact ⟨hfresh, rfl, rfl⟩

theorem repayLoan_loans {b : Addr} {amount : ℤ} (h : repayLoan inv s b amount = .ok t) :
    t.interestRateBps = s.interestRateBps ∧ t.loan = Function.update s.loan b none := by
  simp only [repayLoan, bind_eq_ok] at h
  obtain ⟨-, -, -, -, -, -, -, -, l, -, -, -, interest, -, -, -, usdc, -, paid, hpaid, kept, hkept,
    mnt, -, returned, hreturned, hclosed⟩ := h
  obtain ⟨taken, -, rfl⟩ := transfer_eq_ok hpaid
  obtain ⟨vault, rfl⟩ := addInterest_eq_ok hkept
  obtain ⟨left, -, rfl⟩ := transfer_eq_ok hreturned
  exact close_loans hclosed rfl rfl

theorem payProtocolFee_loans {mnt : Addr} {fee : ℤ} (h : payProtocolFee inv s mnt fee = .ok t) :
    t.interestRateBps = s.interestRateBps ∧ t.loan = s.loan := by
  simp only [payProtocolFee, bind_eq_ok] at h
  obtain ⟨admin, -, h⟩ := h
  split_ifs at h
  · obtain ⟨tokens, -, rfl⟩ := transfer_eq_ok h
    exact ⟨rfl, rfl⟩
  · obtain rfl := pure_eq_ok.mp h
    exact ⟨rfl, rfl⟩

theorem liquidate_loans {b liquidator : Addr} (h : liquidate inv s b liquidator = .ok t) :
    t.interestRateBps = s.interestRateBps ∧ t.loan = Function.update s.loan b none := by
  simp only [liquidate, bind_eq_ok] at h
  obtain ⟨-, -, -, -, -, -, l, -, -, -, ratio, -, -, -, product, -, seizable, -, usdc, -, paid,
    hpaid, mnt, -, seized, hseized, settled, hsettled, hclosed⟩ := h
  obtain ⟨taken, -, rfl⟩ := transfer_eq_ok hpaid
  obtain ⟨left, -, rfl⟩ := transfer_eq_ok hseized
  obtain ⟨hrate, hloan⟩ := payProtocolFee_loans hsettled
  exact close_loans hclosed hrate hloan

/-- A change of one loan, seen by one borrower. -/
theorem loan_update (borrower : Addr) {b : Addr} {o : Option Loan}
    (h : t.loan = Function.update s.loan b o) :
    b = borrower ∧ t.loan borrower = o ∨ t.loan borrower = s.loan borrower := by
  rw [h]
  rcases eq_or_ne borrower b with rfl | hne
  · exact .inl ⟨rfl, Function.update_self ..⟩
  · exact .inr (Function.update_of_ne hne ..)

theorem exec_loanStep (h : exec inv call s = .ok t) (hadmin : s.admin.isSome) (borrower : Addr) :
    t.interestRateBps = s.interestRateBps ∧ LoanStep s t call borrower := by
  cases call with
  | initializeLoans admin mntToken usdcToken oracle mntAsset =>
    simp only [exec, initializeLoans, bind_eq_ok, require_eq_ok] at h
    obtain ⟨-, hfresh, -⟩ := h
    rw [hfresh] at hadmin
    cases hadmin
  | setPauseGuardian admin guardian =>
    simp only [exec, setPauseGuardian, bind_eq_ok, pure_eq_ok] at h
    obtain ⟨-, -, -, -, rfl⟩ := h
    exact ⟨rfl, .kept rfl⟩
  | pause =>
    simp only [exec, setPaused, bind_eq_ok, pure_eq_ok] at h
    obtain ⟨-, -, rfl⟩ := h
    exact ⟨rfl, .kept rfl⟩
  | unpause =>
    simp only [exec, setPaused, bind_eq_ok, pure_eq_ok] at h
    obtain ⟨-, -, rfl⟩ := h
    exact ⟨rfl, .kept rfl⟩
  | setMaxPriceStaleness admin stalenessSecs =>
    simp only [exec, setMaxPriceStaleness, bind_eq_ok, pure_eq_ok] at h
    obtain ⟨-, -, -, -, stored, -, -, -, -, -, rfl⟩ := h
    exact ⟨rfl, .kept rfl⟩
  | openLoan b collateralAmount borrowAmount =>
    obtain ⟨hfresh, hrate, hloan⟩ := openLoan_loans h
    refine ⟨hrate, ?_⟩
    rcases loan_update borrower hloan with ⟨rfl, hstored⟩ | hsame
    · exact .opened _ hfresh hstored rfl
    · exact .kept hsame
  | repayLoan b amount =>
    obtain ⟨hrate, hloan⟩ := repayLoan_loans h
    refine ⟨hrate, ?_⟩
    rcases loan_update borrower hloan with ⟨rfl, hgone⟩ | hsame
    · exact .closed rfl hgone
    · exact .kept hsame
  | liquidate b liquidator =>
    obtain ⟨hrate, hloan⟩ := liquidate_loans h
    refine ⟨hrate, ?_⟩
    rcases loan_update borrower hloan with ⟨rfl, hgone⟩ | hsame
    · exact .closed rfl hgone
    · exact .kept hsame
  | addCollateral b amount =>
    simp only [exec, addCollateral, bind_eq_ok, expect_eq_ok, checkedI128_eq_ok, pure_eq_ok] at h
    obtain ⟨-, -, -, -, -, -, l, hl, mnt, -, deposited, hdeposited, collateralAmount, ⟨-, rfl⟩,
      ht⟩ := h
    obtain ⟨held, -, rfl⟩ := transfer_eq_ok hdeposited
    have hloan : t.loan = Function.update s.loan b
        (some { l with collateralAmount := l.collateralAmount + amount }) := by
      rw [← ht]
      rfl
    refine ⟨by rw [← ht]; rfl, ?_⟩
    rcases loan_update borrower hloan with ⟨rfl, hstored⟩ | hsame
    · exact .added rfl l amount hl hstored
    · exact .kept hsame
  | elsewhere e =>
    simp only [exec, pure_eq_ok] at h
    obtain rfl := h
    exact ⟨rfl, .kept rfl⟩

end Calls

section Runs

variable {Addr : Type} [DecidableEq Addr] {home : Addr} {d : Deployment Addr home}
  {steps : List (Step Addr home)} {borrower : Addr} {l : Loan} {price : ℤ}

/-- Every loan is at the rate that the contract was initialised with. -/
structure StandardRate (s : State Addr) : Prop where
  stored : s.interestRateBps = some defaultInterestRateBps
  loans : ∀ borrower l, s.loan borrower = some l → l.interestRateBps = defaultInterestRateBps

theorem StandardRate.step {s t : State Addr} {step : Step Addr home} (hs : StandardRate s)
    (hadmin : s.admin.isSome) (hx : (machine home).exec step s = .ok t) : StandardRate t := by
  refine ⟨(exec_loanStep hx hadmin home).1.trans hs.stored, ?_⟩
  intro borrower l hl
  obtain ⟨-, hloan⟩ := exec_loanStep hx hadmin borrower
  cases hloan with
  | kept same => exact hs.loans borrower l (same.symm.trans hl)
  | opened k _ stored rate =>
    obtain rfl := Option.some.inj (stored.symm.trans hl)
    rw [rate, hs.stored]
    rfl
  | added _ k amount found stored =>
    obtain rfl := Option.some.inj (stored.symm.trans hl)
    exact hs.loans borrower k found
  | closed _ gone =>
    rw [gone] at hl
    cases hl

theorem reached_standard (hl : (d.reached steps).loan borrower = some l) : l.Standard := by
  have hstart : StandardRate d.state := by
    rw [d.state_eq]
    exact ⟨rfl, by intro b l hl; cases hl⟩
  have hrun := Machine.run_invariant (M := machine home)
    (P := fun s => d.Kept s ∧ StandardRate s) ⟨d.start_kept, hstart⟩
    (fun step s t hs hx => ⟨(hs.1.step hx).2, hs.2.step hs.1.initialized hx⟩) steps
  exact ⟨hrun.1.indexed.admissible borrower l hl, hrun.2.loans borrower l hl⟩

/-- No call of the run touches the loan of the borrower. -/
def Untouched (s : State Addr) (steps : List (Step Addr home)) (borrower : Addr) : Prop :=
  ∀ pre step t, (machine home).Executes s steps pre step t → ¬ step.2.Touches borrower

theorem run_loan (hloan : (d.reached steps).loan borrower = some l) {more : List (Step Addr home)}
    (hmore : Untouched (d.reached steps) more borrower) :
    (d.reached (steps ++ more)).loan borrower = some l := by
  have hrun := Machine.run_invariant_of_executes (M := machine home)
    (P := fun s => d.Kept s ∧ s.loan borrower = some l) (s := d.reached steps)
    ⟨d.reached_kept steps, hloan⟩ ?_ more List.prefix_rfl
  · rw [Deployment.reached, Machine.run_append]
    exact hrun.2
  · rintro pre step t hx ⟨hkept, hfound⟩
    refine ⟨(hkept.step hx.exec_eq).2, ?_⟩
    obtain ⟨-, hstep⟩ := exec_loanStep hx.exec_eq hkept.initialized borrower
    cases hstep with
    | kept same => exact same.trans hfound
    | opened _ fresh _ _ =>
      rw [hfound] at fresh
      cases fresh
    | added touches _ _ _ _ => exact absurd touches (hmore _ _ _ hx)
    | closed touches _ => exact absurd touches (hmore _ _ _ hx)

/-- What `open_loan` admits at a price can be valued at it. -/
theorem fits_of_openLoan {opener : Invocation Addr home} {s t : State Addr} {b : Addr}
    {collateral borrow : ℤ} (h : openLoan opener s b collateral borrow = .ok t)
    (hprice : getMntPrice opener s = .ok price) :
    FitsI128 (collateral * price) ∧ FitsI128 (collateral * liquidatorBonusBps) := by
  simp only [openLoan, bind_eq_ok, requireAmount_eq_ok, hprice, Except.ok.injEq] at h
  obtain ⟨-, -, -, -, -, -, -, ⟨hpos, hmax⟩, -, ⟨hborrow, -⟩, -, -, p, rfl, ratio, hratio, -⟩ := h
  have hfits := (computeRatioBps_eq_ok (l := ⟨collateral, borrow, 0, 0⟩) hpos hborrow
    (getMntPrice_pos hprice)).mp hratio
  refine ⟨hfits.1, ?_⟩
  unfold maxFinancialAmount at hmax
  unfold liquidatorBonusBps
  exact ⟨by omega, by omega⟩

/-- The debt of an open loan, and its health at a fixed price, over time. -/
structure Liquidatability (d : Deployment Addr home) (steps : List (Step Addr home))
    (borrower : Addr) (l : Loan) (price : ℤ) : Prop where
  debt_eq : ∀ now, now < 2 ^ 64 →
    getCurrentDebt now (d.reached steps) borrower = l.debtAmount + l.interest now
  debt_mono : ∀ now later, now ≤ later → later < 2 ^ 64 →
    getCurrentDebt now (d.reached steps) borrower ≤ getCurrentDebt later (d.reached steps) borrower
  health_anti : ∀ (inv later : Invocation Addr home) f, inv.timestamp ≤ later.timestamp →
    later.timestamp < 2 ^ 64 → getMntPrice inv (d.reached steps) = .ok price →
    getMntPrice later (d.reached steps) = .ok price →
    getHealthFactor inv (d.reached steps) borrower = .ok f →
    ∃ f', getHealthFactor later (d.reached steps) borrower = .ok f' ∧ f' ≤ f
  stays : ∀ (inv later : Invocation Addr home) ratio more,
    getMntPrice inv (d.reached steps) = .ok price →
    PassesHealthCheck inv (d.reached steps) borrower ratio →
    Untouched (d.reached steps) more borrower → inv.timestamp ≤ later.timestamp →
    later.timestamp < 2 ^ 64 → getMntPrice later (d.reached (steps ++ more)) = .ok price →
    ∃ ratio', PassesHealthCheck later (d.reached (steps ++ more)) borrower ratio'
  fits : ∀ (opener : Invocation Addr home) s b borrow t,
    openLoan opener s b l.collateralAmount borrow = .ok t → getMntPrice opener s = .ok price →
    FitsI128 (l.collateralAmount * liquidatorBonusBps) ∧
    ∀ inv : Invocation Addr home, getMntPrice inv (d.reached steps) = .ok price →
      ∃ f, getHealthFactor inv (d.reached steps) borrower = .ok f

/-- For every open loan and every price. -/
theorem liquidatability (hloan : (d.reached steps).loan borrower = some l) (price : ℤ) :
    Liquidatability d steps borrower l price := by
  have hl := reached_standard hloan
  have hinit := (d.reached_kept steps).initialized
  have hdebt : ∀ now, getCurrentDebt now (d.reached steps) borrower = l.currentDebt now :=
    fun now => by rw [getCurrentDebt, hloan]
  constructor
  · intro now hnow
    rw [hdebt]
    exact hl.currentDebt_eq hnow
  · intro now later hle hlater
    rw [hdebt, hdebt]
    exact hl.currentDebt_mono hle hlater
  · intro inv later f hle hlater hprice hprice' hf
    obtain ⟨hfits, hmin⟩ := (getHealthFactor_eq_ok hinit hprice hloan hl.toAdmissible).mp hf
    have hratio := hl.ratio_anti (getMntPrice_pos hprice) hle hlater
    have hnonneg := hl.toAdmissible.ratio_nonneg (getMntPrice_pos hprice) later.timestamp
    refine ⟨(min (l.value price / l.currentDebt later.timestamp) maxU32).toNat, ?_, ?_⟩
    · rw [getHealthFactor_eq_ok hinit hprice' hloan hl.toAdmissible]
      exact ⟨hfits, by omega⟩
    · omega
  · intro inv later ratio more hprice hpasses hmore hle hlater hprice'
    obtain ⟨hfits, rfl, hlow⟩ :=
      (passesHealthCheck_iff hinit hprice hloan hl.toAdmissible).mp hpasses
    have hratio := hl.ratio_anti (getMntPrice_pos hprice) hle hlater
    have hinit' := (d.reached_kept (steps ++ more)).initialized
    refine ⟨_, (passesHealthCheck_iff hinit' hprice' (run_loan hloan hmore) hl.toAdmissible).mpr
      ⟨hfits, rfl, ?_⟩⟩
    omega
  · intro opener s b borrow t hopen hadmitted
    obtain ⟨hfits, hbonus⟩ := fits_of_openLoan hopen hadmitted
    refine ⟨hbonus, fun inv hprice => ?_⟩
    have hnonneg := hl.toAdmissible.ratio_nonneg (getMntPrice_pos hprice) inv.timestamp
    refine ⟨(min (l.value price / l.currentDebt inv.timestamp) maxU32).toNat, ?_⟩
    rw [getHealthFactor_eq_ok hinit hprice hloan hl.toAdmissible]
    exact ⟨hfits, by omega⟩

end Runs

theorem liquidatability_firstLoan :
    ∃ d : Deployment ℕ 0, Liquidatability d firstLoan 7 ⟨1200, 1000, 0, 1000⟩ 10000 := by
  let d : Deployment ℕ 0 := ⟨funded, quoted 0 20000, 1, 2, 3, 4, "MNT", _, rfl⟩
  have hloan : (d.reached firstLoan).loan 7 = some ⟨1200, 1000, 0, 1000⟩ := rfl
  exact ⟨d, liquidatability hloan 10000⟩

end CollateralLoan
