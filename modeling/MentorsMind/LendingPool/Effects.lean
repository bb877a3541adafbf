import MentorsMind.LendingPool.Contract

/-! What a successful call of the lending pool does, said once. -/
namespace LendingPool
open Outcome Soroban Shared

@[simp] theorem checkedAdd_eq_some {a b c : ℤ} :
    checkedAdd a b = some c ↔ FitsI128 (a + b) ∧ a + b = c := by
  simp [checkedAdd]

@[simp] theorem checkedSub_eq_some {a b c : ℤ} :
    checkedSub a b = some c ↔ FitsI128 (a - b) ∧ a - b = c := by
  simp [checkedSub]

variable {Addr : Type} [DecidableEq Addr] {home : Addr}

/-- The amount moves in the token of the pool. -/
def Pays (inv : Invocation Addr home) (s t : State Addr) (source recipient : Addr)
    (amount : ℤ) : Prop :=
  ∃ usdcToken, s.config.usdcToken = some usdcToken ∧
    s.tokens.transfer inv.accepts usdcToken source recipient amount = .ok t.tokens

/-- What is stored after a call, field by field where it depends on the call. -/
inductive Effect (inv : Invocation Addr home) (s t : State Addr) : Call Addr → Prop
  | initialized {admin usdcToken creditScoreContract rbacContract : Addr}
      (fresh : s.config.admin = none)
      (eq : t = { s with
        config := { s.config with
          admin := some admin
          usdcToken := some usdcToken
          creditScoreContract := some creditScoreContract }
        totalLiquidity := 0
        totalLpTokens := 0
        rateModel := defaultRateModel
        params := t.params }) :
      Effect inv s t (.initializePool admin usdcToken creditScoreContract rbacContract)
  | rateModelSet {baseRateBps kinkBps slope1Bps slope2Bps : ℤ}
      (eq : t = { s with rateModel := t.rateModel }) :
      Effect inv s t (.setRateModel baseRateBps kinkBps slope1Bps slope2Bps)
  | minCreditScoreSet {admin : Addr} {newMin : ℕ}
      (eq : t = { s with config := { s.config with minCreditScore := newMin } }) :
      Effect inv s t (.setMinCreditScore admin newMin)
  | paramSet {caller : Addr} {key : String} {value : ℤ}
      (eq : t = { s with params := t.params }) : Effect inv s t (.setParam caller key value)
  | deposited {lender : Addr} {amount : ℤ} (pos : 0 < amount) (ne_home : lender ≠ home)
      (paid : Pays inv s t lender home amount)
      (eq : t = { s with
        totalLiquidity := s.totalLiquidity + amount
        totalLpTokens := s.totalLpTokens + amount
        lenderBalance :=
          Function.update s.lenderBalance lender (s.lenderBalance lender + amount)
        guards := t.guards
        tokens := t.tokens }) : Effect inv s t (.deposit lender amount)
  | withdrawn {lender : Addr} {lpAmount : ℤ} (pos : 0 < lpAmount) (ne_home : lender ≠ home)
      (paid : Pays inv s t home lender lpAmount)
      (eq : t = { s with
        totalLiquidity := s.totalLiquidity - lpAmount
        totalLpTokens := s.totalLpTokens - lpAmount
        lenderBalance :=
          Function.update s.lenderBalance lender (s.lenderBalance lender - lpAmount)
        tokens := t.tokens }) : Effect inv s t (.withdraw lender lpAmount)
  | borrowed {borrower : Addr} {amount : ℤ} {sessionId : String} {loan : LoanRecord Addr}
      (initialised : s.config.admin ≠ none) (pos : 0 < amount) (ne_home : borrower ≠ home)
      (le : amount ≤ s.totalLiquidity)
      (amount_eq : loan.amount = amount) (borrowedAt : loan.borrowedAt = inv.timestamp)
      (dueAt : loan.dueAt = inv.timestamp + liquidationSeconds) (unpaid : loan.repaid = false)
      (paid : Pays inv s t home borrower amount)
      (eq : t = { s with
        totalLiquidity := s.totalLiquidity - amount
        loan := Function.update s.loan borrower (some loan)
        guards := t.guards
        tokens := t.tokens }) : Effect inv s t (.borrow borrower amount sessionId)
  | repaid {borrower : Addr} {amount : ℤ} {loan : LoanRecord Addr}
      (found : s.loan borrower = some loan) (unpaid : loan.repaid = false)
      (ne_home : borrower ≠ home) (paid : Pays inv s t borrower home (loan.amount + loan.fee))
      (eq : t = { s with
        totalLiquidity := s.totalLiquidity + (loan.amount + loan.fee)
        loan := Function.update s.loan borrower (some loan.close)
        tokens := t.tokens }) : Effect inv s t (.repay borrower amount)
  | liquidated {borrower : Addr} {loan : LoanRecord Addr}
      (found : s.loan borrower = some loan) (unpaid : loan.repaid = false)
      (eq : t = { s with loan := Function.update s.loan borrower (some loan.close) }) :
      Effect inv s t (.liquidate borrower)
  | auctionStarted {borrower : Addr} {loan : LoanRecord Addr}
      (found : s.loan borrower = some loan) (unpaid : loan.repaid = false)
      (due : loan.dueAt < inv.timestamp) (fresh : s.liquidationAuction borrower = none)
      (eq : t = { s with
        liquidationAuction := Function.update s.liquidationAuction borrower
          (some ⟨loan, inv.timestamp, 0, none⟩) }) :
      Effect inv s t (.startLiquidationAuction borrower)
  | auctionExecuted {liquidator borrower : Addr} {auction : AuctionRecord Addr} {payment : ℤ}
      (found : s.liquidationAuction borrower = some auction) (ne_home : liquidator ≠ home)
      (paid : Pays inv s t liquidator home payment)
      (eq : t = { s with
        totalLiquidity := s.totalLiquidity + payment
        loan := Function.update s.loan borrower (some auction.loan.close)
        liquidationAuction := Function.update s.liquidationAuction borrower none
        tokens := t.tokens }) : Effect inv s t (.executeLiquidation liquidator borrower)
  | forceLiquidated {admin borrower : Addr} {loan : LoanRecord Addr}
      (found : s.loan borrower = some loan) (unpaid : loan.repaid = false)
      (eq : t = { s with
        badDebt := s.badDebt + (loan.amount + loan.fee)
        loan := Function.update s.loan borrower (some loan.close)
        liquidationAuction := Function.update s.liquidationAuction borrower none }) :
      Effect inv s t (.forceLiquidate admin borrower)
  | yieldAccrued {admin : Addr} {amount : ℤ} (initialised : s.config.admin ≠ none)
      (pos : 0 < amount) (eq : t = { s with totalLiquidity := s.totalLiquidity + amount }) :
      Effect inv s t (.accrueYield admin amount)
  | yieldDistributed {admin lender : Addr} {amount : ℤ} (initialised : s.config.admin ≠ none)
      (pos : 0 < amount)
      (eq : t = { s with
        totalLpTokens := s.totalLpTokens + amount
        lenderBalance :=
          Function.update s.lenderBalance lender (s.lenderBalance lender + amount) }) :
      Effect inv s t (.distributeYield admin lender amount)
  | received {token source : Addr} {amount : ℤ} (ne_home : source ≠ home)
      (moved : s.tokens.transfer inv.accepts token source home amount = .ok t.tokens)
      (eq : t = { s with tokens := t.tokens }) : Effect inv s t (.send token source amount)
  | elsewhere {token holder : Addr} {balance : ℤ}
      (kept : ∀ token', t.tokens.balance token' home = s.tokens.balance token' home)
      (eq : t = { s with tokens := t.tokens }) :
      Effect inv s t (.tokenActivity token holder balance)

section Inversion

variable {inv : Invocation Addr home} {s t : State Addr}

omit [DecidableEq Addr] in
theorem openLoan_eq_ok {borrower : Addr} {loan : LoanRecord Addr} :
    s.openLoan borrower = .ok loan ↔ s.loan borrower = some loan ∧ loan.repaid = false := by
  simp only [State.openLoan, bind_eq_ok, expect_eq_ok, require_eq_ok, pure_eq_ok]
  constructor
  · rintro ⟨l, hl, -, hrepaid, rfl⟩
    exact ⟨hl, hrepaid⟩
  · rintro ⟨hl, hrepaid⟩
    exact ⟨loan, hl, (), hrepaid, rfl⟩

theorem requireNamedAdmin_eq_ok {c : Config Addr} {admin : Addr} {u : Unit}
    (h : requireNamedAdmin inv c admin = .ok u) : c.admin ≠ none := by
  simp only [requireNamedAdmin, bind_eq_ok, expect_eq_ok] at h
  obtain ⟨stored, hstored, -⟩ := h
  simp [hstored]

/-- What a successful call does. -/
theorem exec_effect {call : Call Addr} (h : exec inv call s = .ok t) : Effect inv s t call := by
  cases call with
  | initializePool admin usdcToken creditScoreContract rbacContract =>
    simp only [exec, initializePool, bind_eq_ok, require_eq_ok, pure_eq_ok] at h
    obtain ⟨-, hfresh, rfl⟩ := h
    exact .initialized hfresh rfl
  | setRateModel baseRateBps kinkBps slope1Bps slope2Bps =>
    simp only [exec, setRateModel, bind_eq_ok, pure_eq_ok] at h
    obtain ⟨-, -, -, -, -, -, -, -, -, -, rfl⟩ := h
    exact .rateModelSet rfl
  | setMinCreditScore admin newMin =>
    simp only [exec, setMinCreditScore, bind_eq_ok, pure_eq_ok] at h
    obtain ⟨-, -, rfl⟩ := h
    exact .minCreditScoreSet rfl
  | setParam caller key value =>
    simp only [exec, bind_eq_ok, pure_eq_ok] at h
    obtain ⟨params, -, rfl⟩ := h
    exact .paramSet rfl
  | deposit lender amount =>
    simp only [exec, deposit, bind_eq_ok, require_eq_ok, requireAuth_eq_ok, expect_eq_ok,
      checkedAdd_eq_some, pure_eq_ok] at h
    obtain ⟨-, -, -, hpos, -, hauth, usdcToken, husdc, tokens, hpaid, liquidity, ⟨-, rfl⟩, lp,
      ⟨-, rfl⟩, balance, ⟨-, rfl⟩, rfl⟩ := h
    exact .deposited hpos (Env.ne_self_of_auth hauth) ⟨usdcToken, husdc, hpaid⟩ rfl
  | withdraw lender lpAmount =>
    simp only [exec, withdraw, bind_eq_ok, require_eq_ok, requireAuth_eq_ok, expect_eq_ok,
      checkedSub_eq_some, pure_eq_ok] at h
    obtain ⟨-, -, -, hpos, -, hauth, -, -, -, -, usdcToken, husdc, tokens, hpaid, liquidity,
      ⟨-, rfl⟩, lp, ⟨-, rfl⟩, balance, ⟨-, rfl⟩, rfl⟩ := h
    exact .withdrawn hpos (Env.ne_self_of_auth hauth) ⟨usdcToken, husdc, hpaid⟩ rfl
  | borrow borrower amount sessionId =>
    simp only [exec, borrow, bind_eq_ok, require_eq_ok, requireAuth_eq_ok, expect_eq_ok,
      checkedSub_eq_some, checkedU64_eq_ok, pure_eq_ok] at h
    obtain ⟨-, hinit, -, hpos, -, hauth, credit, -, score, -, -, -, -, hle, guards, -, fee, -,
      usdcToken, husdc, tokens, hpaid, dueAt, ⟨-, rfl⟩, liquidity, ⟨-, rfl⟩, rfl⟩ := h
    exact .borrowed hinit hpos (Env.ne_self_of_auth hauth) hle rfl rfl rfl rfl
      ⟨usdcToken, husdc, hpaid⟩ rfl
  | repay borrower amount =>
    simp only [exec, repay, bind_eq_ok, requireAuth_eq_ok, openLoan_eq_ok, i128_eq_ok,
      expect_eq_ok, checkedAdd_eq_some, pure_eq_ok] at h
    obtain ⟨-, -, -, -, -, hauth, loan, ⟨hfound, hunpaid⟩, owed, ⟨-, rfl⟩, -, -, usdcToken,
      husdc, tokens, hpaid, liquidity, ⟨-, rfl⟩, rfl⟩ := h
    exact .repaid hfound hunpaid (Env.ne_self_of_auth hauth) ⟨usdcToken, husdc, hpaid⟩ rfl
  | liquidate borrower =>
    simp only [exec, liquidate, bind_eq_ok, openLoan_eq_ok, pure_eq_ok] at h
    obtain ⟨-, -, loan, ⟨hfound, hunpaid⟩, -, -, rfl⟩ := h
    exact .liquidated hfound hunpaid rfl
  | startLiquidationAuction borrower =>
    simp only [exec, startLiquidationAuction, bind_eq_ok, openLoan_eq_ok, require_eq_ok,
      pure_eq_ok] at h
    obtain ⟨loan, ⟨hfound, hunpaid⟩, -, hdue, -, hfresh, rfl⟩ := h
    exact .auctionStarted hfound hunpaid hdue hfresh rfl
  | executeLiquidation liquidator borrower =>
    simp only [exec, executeLiquidation, bind_eq_ok, requireAuth_eq_ok, expect_eq_ok,
      checkedAdd_eq_some, pure_eq_ok] at h
    obtain ⟨-, hauth, auction, hfound, -, -, discount, -, owed, -, product, -, discounted, -,
      payment, -, usdcToken, husdc, tokens, hpaid, liquidity, ⟨-, rfl⟩, rfl⟩ := h
    exact .auctionExecuted hfound (Env.ne_self_of_auth hauth) ⟨usdcToken, husdc, hpaid⟩ rfl
  | forceLiquidate admin borrower =>
    simp only [exec, forceLiquidate, bind_eq_ok, openLoan_eq_ok, i128_eq_ok, expect_eq_ok,
      checkedAdd_eq_some, pure_eq_ok] at h
    obtain ⟨-, -, loan, ⟨hfound, hunpaid⟩, owed, ⟨-, rfl⟩, debt, ⟨-, rfl⟩, rfl⟩ := h
    exact .forceLiquidated hfound hunpaid rfl
  | accrueYield admin amount =>
    simp only [exec, accrueYield, bind_eq_ok, require_eq_ok, expect_eq_ok, checkedAdd_eq_some,
      pure_eq_ok] at h
    obtain ⟨-, hpos, granted, hadmin, liquidity, ⟨-, rfl⟩, rfl⟩ := h
    exact .yieldAccrued (requireNamedAdmin_eq_ok hadmin) hpos rfl
  | distributeYield admin lender amount =>
    simp only [exec, distributeYield, bind_eq_ok, require_eq_ok, expect_eq_ok,
      checkedAdd_eq_some, pure_eq_ok] at h
    obtain ⟨-, hpos, granted, hadmin, balance, ⟨-, rfl⟩, lp, ⟨-, rfl⟩, rfl⟩ := h
    exact .yieldDistributed (requireNamedAdmin_eq_ok hadmin) hpos rfl
  | send token source amount =>
    simp only [exec, bind_eq_ok, requireAuth_eq_ok, pure_eq_ok] at h
    obtain ⟨-, hauth, tokens, hpaid, rfl⟩ := h
    exact .received (Env.ne_self_of_auth hauth) hpaid rfl
  | tokenActivity token holder balance =>
    simp only [exec, bind_eq_ok, require_eq_ok, pure_eq_ok] at h
    obtain ⟨-, ⟨hne, -⟩, rfl⟩ := h
    refine .elsewhere (fun token' => ?_) rfl
    by_cases htoken : token' = token
    · subst htoken
      simp [hne.symm]
    · simp [htoken]

end Inversion

end LendingPool
