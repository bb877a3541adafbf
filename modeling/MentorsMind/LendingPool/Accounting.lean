import MentorsMind.LendingPool.LoanConservation

/-! What the recorded liquidity and the recorded shares of the pool stand for. -/
namespace LendingPool
open Outcome Soroban Shared

variable {Addr : Type} [DecidableEq Addr] {home : Addr}

/-- The pool has the recorded liquidity in its token, which is not negative, and the recorded
shares are those of the lenders. -/
structure PoolSound (home : Addr) (s : State Addr) : Prop where
  backed : ∀ usdcToken, s.config.usdcToken = some usdcToken →
    s.totalLiquidity ≤ s.tokens.balance usdcToken home
  nonneg : 0 ≤ s.totalLiquidity
  shares : s.totalLpTokens = ∑ᶠ lender, s.lenderBalance lender

/-- The yield that a call accrues. -/
def accrued (_ : State Addr) (step : Step Addr home) (_ : State Addr) : ℤ :=
  match step.2 with
  | .accrueYield _ amount => amount
  | _ => 0

/-- What a call sends to the pool in `token` without any entry point of the pool. -/
def sentTo (token : Addr) (_ : State Addr) (step : Step Addr home) (_ : State Addr) : ℤ :=
  match step.2 with
  | .send token' _ amount => if token' = token then amount else 0
  | _ => 0

/-- All yield that is accrued was sent to the pool before. -/
def Prefunded (balance : Addr → Addr → ℕ) (token : Addr) (steps : List (Step Addr home)) :
    Prop :=
  ∀ pre, pre <+: steps → (machine home).tally accrued (deployed balance) pre ≤
    (machine home).tally (sentTo token) (deployed balance) pre

instance (balance : Addr → Addr → ℕ) (token : Addr) (steps : List (Step Addr home)) :
    Decidable (Prefunded balance token steps) :=
  decidable_of_iff (∀ pre ∈ steps.inits, (machine home).tally accrued (deployed balance) pre ≤
    (machine home).tally (sentTo token) (deployed balance) pre)
    (forall_congr' fun pre => by rw [List.mem_inits])

/-- What holds of the shares in every reachable state. -/
structure SharesSound (s : State Addr) : Prop where
  finite : PointSum.Finite id s.lenderBalance
  total : s.totalLpTokens = PointSum.total id s.lenderBalance
  fresh : s.config.admin = none →
    s.config.usdcToken = none ∧ s.totalLiquidity = 0 ∧ ∀ lender, s.lenderBalance lender = 0

section Steps

variable {inv : Invocation Addr home} {s t : State Addr} {call : Call Addr}

theorem Pays.amount_nonneg {source recipient : Addr} {amount : ℤ}
    (h : Pays inv s t source recipient amount) : 0 ≤ amount := by
  rcases h with ⟨usdcToken, -, hpaid⟩
  exact (Tokens.transfer_eq_ok hpaid).1

/-- A payment to the pool. -/
theorem Pays.received {source : Addr} {amount : ℤ} (h : Pays inv s t source home amount)
    (hne : source ≠ home) {token : Addr}
    (htoken : s.config.usdcToken = none ∨ s.config.usdcToken = some token) :
    t.tokens.balance token home = s.tokens.balance token home + amount := by
  rcases h with ⟨usdcToken, husdc, hpaid⟩
  rcases Tokens.transfer_eq_ok hpaid with ⟨-, -, htokens⟩
  rcases htoken with hnone | hsome
  · rw [hnone] at husdc
    cases husdc
  · obtain rfl := Option.some.inj (husdc.symm.trans hsome)
    rw [htokens]
    simp [Tokens.flow, hne]

/-- A payment of the pool. -/
theorem Pays.spent {recipient : Addr} {amount : ℤ} (h : Pays inv s t home recipient amount)
    (hne : recipient ≠ home) {token : Addr}
    (htoken : s.config.usdcToken = none ∨ s.config.usdcToken = some token) :
    t.tokens.balance token home = s.tokens.balance token home - amount := by
  rcases h with ⟨usdcToken, husdc, hpaid⟩
  rcases Tokens.transfer_eq_ok hpaid with ⟨-, -, htokens⟩
  rcases htoken with hnone | hsome
  · rw [hnone] at husdc
    cases husdc
  · obtain rfl := Option.some.inj (husdc.symm.trans hsome)
    rw [htokens]
    simp [Tokens.flow, hne, sub_eq_add_neg]

/-- The tokens of the pool move with the recorded liquidity, apart from yield that is sent and
yield that is accrued. -/
theorem Effect.backing (hs : SharesSound s) (h : Effect inv s t call) {token : Addr}
    (htoken : t.config.usdcToken = none ∨ t.config.usdcToken = some token) :
    t.tokens.balance token home - t.totalLiquidity =
      s.tokens.balance token home - s.totalLiquidity + sentTo token s (inv, call) t -
        accrued s (inv, call) t := by
  have hin : ∀ {source : Addr} {amount : ℤ}, Pays inv s t source home amount →
      source ≠ home → t.config = s.config → t.totalLiquidity = s.totalLiquidity + amount →
      t.tokens.balance token home - t.totalLiquidity =
        s.tokens.balance token home - s.totalLiquidity := by
    intro source amount hpaid hne hconfig hliquidity
    rw [hconfig] at htoken
    rw [hpaid.received hne htoken, hliquidity]
    omega
  have hout : ∀ {recipient : Addr} {amount : ℤ}, Pays inv s t home recipient amount →
      recipient ≠ home → t.config = s.config → t.totalLiquidity = s.totalLiquidity - amount →
      t.tokens.balance token home - t.totalLiquidity =
        s.tokens.balance token home - s.totalLiquidity := by
    intro recipient amount hpaid hne hconfig hliquidity
    rw [hconfig] at htoken
    rw [hpaid.spent hne htoken, hliquidity]
    omega
  cases h with
  | @initialized admin usdcToken creditScoreContract rbacContract fresh eq =>
    have hzero := (hs.fresh fresh).2.1
    rw [eq]
    simp only [sentTo, accrued, hzero]
    omega
  | deposited _ ne_home paid eq | repaid _ _ ne_home paid eq
  | auctionExecuted _ ne_home paid eq =>
    have hstep := hin paid ne_home (by rw [eq]) (by rw [eq])
    simp only [sentTo, accrued]
    omega
  | withdrawn _ ne_home paid eq | borrowed _ _ ne_home _ _ _ _ _ paid eq =>
    have hstep := hout paid ne_home (by rw [eq]) (by rw [eq])
    simp only [sentTo, accrued]
    omega
  | @yieldAccrued admin amount _ _ eq =>
    rw [eq]
    simp only [sentTo, accrued]
    omega
  | @received token' source amount ne_home moved eq =>
    have hliquidity : t.totalLiquidity = s.totalLiquidity := by rw [eq]
    have hbalance : t.tokens.balance token home =
        s.tokens.balance token home + if token' = token then amount else 0 := by
      rw [(Tokens.transfer_eq_ok moved).2.2]
      simp [Tokens.flow, ne_home]
    simp only [sentTo, accrued]
    omega
  | @elsewhere token' holder balance kept eq =>
    have hliquidity : t.totalLiquidity = s.totalLiquidity := by rw [eq]
    simp only [sentTo, accrued, kept, hliquidity]
    omega
  | rateModelSet eq | minCreditScoreSet eq | paramSet eq | liquidated _ _ eq
  | auctionStarted _ _ _ _ eq | forceLiquidated _ _ eq | yieldDistributed _ _ eq =>
    rw [eq]
    simp only [sentTo, accrued]
    omega

/-- The recorded liquidity stays nonnegative exactly if no more is withdrawn. -/
theorem Effect.liquidity_nonneg_iff (h : Effect inv s t call) (hs : 0 ≤ s.totalLiquidity) :
    0 ≤ t.totalLiquidity ↔
      ∀ lender lpAmount, call = .withdraw lender lpAmount → lpAmount ≤ s.totalLiquidity := by
  have hother : 0 ≤ t.totalLiquidity → (∀ lender lpAmount, call ≠ .withdraw lender lpAmount) →
      (0 ≤ t.totalLiquidity ↔ ∀ lender lpAmount, call = .withdraw lender lpAmount →
        lpAmount ≤ s.totalLiquidity) := by
    intro hnonneg hcall
    exact iff_of_true hnonneg fun lender lpAmount heq => absurd heq (hcall lender lpAmount)
  have hmoved : ∀ {amount : ℤ}, t.totalLiquidity = s.totalLiquidity + amount →
      -s.totalLiquidity ≤ amount → 0 ≤ t.totalLiquidity := by
    intro amount hliquidity hle
    omega
  cases h with
  | @withdrawn lender lpAmount _ _ _ eq =>
    have hliquidity : t.totalLiquidity = s.totalLiquidity - lpAmount := by rw [eq]
    rw [hliquidity, sub_nonneg]
    constructor
    · rintro hle _ _ ⟨⟩
      exact hle
    · intro hall
      exact hall lender lpAmount rfl
  | deposited pos _ _ eq | yieldAccrued _ pos eq =>
    exact hother (hmoved (by rw [eq]) (by omega)) nofun
  | repaid _ _ _ paid eq | auctionExecuted _ _ paid eq =>
    have hpaid := paid.amount_nonneg
    exact hother (hmoved (by rw [eq]) (by omega)) nofun
  | @borrowed borrower amount sessionId loan _ _ _ le _ _ _ _ _ eq =>
    have hliquidity : t.totalLiquidity = s.totalLiquidity - amount := by rw [eq]
    exact hother (by omega) nofun
  | initialized _ eq =>
    exact hother (by rw [eq]) nofun
  | rateModelSet eq | minCreditScoreSet eq | paramSet eq | liquidated _ _ eq
  | auctionStarted _ _ _ _ eq | forceLiquidated _ _ eq | yieldDistributed _ _ eq
  | received _ _ eq | elsewhere _ eq =>
    have hliquidity : t.totalLiquidity = s.totalLiquidity := by rw [eq]
    exact hother (by omega) nofun

/-- The shares of one lender and the recorded shares move together. -/
theorem SharesSound.move (hs : SharesSound s) {lender : Addr} {amount : ℤ}
    (hadmin : t.config.admin ≠ none) (htotal : t.totalLpTokens = s.totalLpTokens + amount)
    (hbalance : t.lenderBalance =
      Function.update s.lenderBalance lender (s.lenderBalance lender + amount)) :
    SharesSound t := by
  refine ⟨hbalance ▸ hs.finite.update lender _, ?_, fun hnone => absurd hnone hadmin⟩
  rw [htotal, hs.total, hbalance, hs.finite.total_update, id_eq, id_eq, add_sub_cancel_left]

theorem SharesSound.of_effect (hs : SharesSound s) (h : Effect inv s t call) :
    SharesSound t := by
  have hkeep : t.lenderBalance = s.lenderBalance → t.totalLpTokens = s.totalLpTokens →
      (t.config.admin = none → s.config.admin = none ∧
        t.config.usdcToken = s.config.usdcToken ∧ t.totalLiquidity = s.totalLiquidity) →
      SharesSound t := by
    intro hbalance htotal hfresh
    refine ⟨hbalance ▸ hs.finite, by rw [htotal, hs.total, hbalance], fun hnone => ?_⟩
    rcases hfresh hnone with ⟨hadmin, husdc, hliquidity⟩
    rw [husdc, hliquidity, hbalance]
    exact hs.fresh hadmin
  -- Only an initialised pool has a token to pay in.
  have hpays : ∀ {source recipient : Addr} {amount : ℤ},
      Pays inv s t source recipient amount → s.config.admin ≠ none := by
    rintro source recipient amount ⟨usdcToken, husdc, -⟩ hnone
    rw [(hs.fresh hnone).1] at husdc
    cases husdc
  cases h with
  | @initialized admin usdcToken creditScoreContract rbacContract fresh eq =>
    have hzero : s.lenderBalance = fun _ => 0 := funext (hs.fresh fresh).2.2
    refine ⟨?_, ?_, fun hnone => ?_⟩
    · rw [eq]
      exact hs.finite
    · rw [eq]
      show 0 = PointSum.total id s.lenderBalance
      rw [hzero]
      exact (PointSum.total_const (v := (0 : ℤ)) rfl).symm
    · rw [eq] at hnone
      cases hnone
  | @deposited lender amount _ _ paid eq =>
    exact hs.move (by rw [eq]; exact hpays paid) (by rw [eq]) (by rw [eq])
  | @withdrawn lender lpAmount _ _ paid eq =>
    have htotal : t.totalLpTokens = s.totalLpTokens + -lpAmount := by
      rw [eq]
      exact sub_eq_add_neg ..
    exact hs.move (by rw [eq]; exact hpays paid) htotal (by rw [eq, ← sub_eq_add_neg])
  | @yieldDistributed admin lender amount initialised _ eq =>
    exact hs.move (by rw [eq]; exact initialised) (by rw [eq]) (by rw [eq])
  | borrowed _ _ _ _ _ _ _ _ paid eq | repaid _ _ _ paid eq | auctionExecuted _ _ paid eq =>
    refine hkeep (by rw [eq]) (by rw [eq]) fun hnone => ?_
    rw [eq] at hnone
    exact absurd hnone (hpays paid)
  | yieldAccrued initialised _ eq =>
    refine hkeep (by rw [eq]) (by rw [eq]) fun hnone => ?_
    rw [eq] at hnone
    exact absurd hnone initialised
  | rateModelSet eq | minCreditScoreSet eq | paramSet eq | liquidated _ _ eq
  | auctionStarted _ _ _ _ eq | forceLiquidated _ _ eq | received _ _ eq | elsewhere _ eq =>
    refine hkeep (by rw [eq]) (by rw [eq]) fun hnone => ?_
    rw [eq] at hnone ⊢
    exact ⟨hnone, rfl, rfl⟩

/-- The token of the pool is set once. -/
theorem Effect.usdcToken_kept (hs : SharesSound s) (h : Effect inv s t call) :
    s.config.usdcToken = none ∨ t.config.usdcToken = s.config.usdcToken := by
  cases h with
  | initialized fresh eq => exact .inl (hs.fresh fresh).1
  | rateModelSet eq | minCreditScoreSet eq | paramSet eq | deposited _ _ _ eq
  | withdrawn _ _ _ eq | borrowed _ _ _ _ _ _ _ _ _ eq | repaid _ _ _ _ eq
  | liquidated _ _ eq | auctionStarted _ _ _ _ eq | auctionExecuted _ _ _ eq
  | forceLiquidated _ _ eq | yieldAccrued _ _ eq | yieldDistributed _ _ eq | received _ _ eq
  | elsewhere _ eq =>
    right
    rw [eq]

end Steps

section Runs

variable {balance : Addr → Addr → ℕ} {steps : List (Step Addr home)}

omit [DecidableEq Addr] in
theorem deployed_sharesSound : SharesSound (deployed balance) where
  finite := PointSum.finite_const rfl
  total := (PointSum.total_const rfl).symm
  fresh _ := ⟨rfl, rfl, fun _ => rfl⟩

theorem run_sharesSound (balance : Addr → Addr → ℕ) (steps : List (Step Addr home)) :
    SharesSound ((machine home).run (deployed balance) steps) :=
  Machine.run_invariant (M := machine home) deployed_sharesSound
    (fun _ _ _ hs h => hs.of_effect (exec_effect h)) steps

/-- Where the tokens of the pool beyond the recorded liquidity come from, and go. -/
theorem run_backing (balance : Addr → Addr → ℕ) (token : Addr) (steps : List (Step Addr home)) :
    ((machine home).run (deployed balance) steps).config.usdcToken = none ∨
      ((machine home).run (deployed balance) steps).config.usdcToken = some token →
    ((machine home).run (deployed balance) steps).tokens.balance token home -
        ((machine home).run (deployed balance) steps).totalLiquidity =
      balance token home + (machine home).tally (sentTo token) (deployed balance) steps -
        (machine home).tally accrued (deployed balance) steps := by
  refine Machine.run_history (M := machine home) (s := deployed balance)
    (P := fun pre s => s.config.usdcToken = none ∨ s.config.usdcToken = some token →
      s.tokens.balance token home - s.totalLiquidity =
        balance token home + (machine home).tally (sentTo token) (deployed balance) pre -
          (machine home).tally accrued (deployed balance) pre) ?_ ?_ ?_ steps
  · intro _
    show (balance token home : ℤ) - 0 = balance token home + 0 - 0
    omega
  · rintro pre ⟨inv, call⟩ t hpre hx htoken
    have hs := run_sharesSound balance pre
    have heffect : Effect inv _ t call := exec_effect hx
    have hbefore : ((machine home).run (deployed balance) pre).config.usdcToken = none ∨
        ((machine home).run (deployed balance) pre).config.usdcToken = some token := by
      rcases heffect.usdcToken_kept hs with hnone | hkept
      · exact .inl hnone
      · rwa [← hkept]
    have hstep := heffect.backing hs htoken
    have hsum := hpre hbefore
    rw [Machine.tally_snoc_ok hx, Machine.tally_snoc_ok hx]
    omega
  · intro pre step e hpre hx
    rw [Machine.tally_snoc_error hx, Machine.tally_snoc_error hx]
    exact hpre

theorem run_usdcToken_stable {pre : List (Step Addr home)} (hpre : pre <+: steps)
    {usdcToken : Addr}
    (h : ((machine home).run (deployed balance) pre).config.usdcToken = some usdcToken) :
    ((machine home).run (deployed balance) steps).config.usdcToken = some usdcToken := by
  rcases hpre with ⟨post, rfl⟩
  rw [Machine.run_append]
  refine (Machine.run_invariant (M := machine home)
    (P := fun s => SharesSound s ∧ s.config.usdcToken = some usdcToken)
    ⟨run_sharesSound balance pre, h⟩ ?_ post).2
  rintro ⟨inv, call⟩ s t ⟨hs, husdc⟩ hx
  have heffect : Effect inv s t call := exec_effect hx
  refine ⟨hs.of_effect heffect, ?_⟩
  rcases heffect.usdcToken_kept hs with hnone | hkept
  · rw [hnone] at husdc
    cases husdc
  · rw [hkept, husdc]

/-- With yield sent before it is accrued, the pool is sound in every state exactly if no call
withdraws more than the recorded liquidity. -/
theorem poolSound_iff
    (hfunded : ∀ usdcToken,
      ((machine home).run (deployed balance) steps).config.usdcToken = some usdcToken →
      Prefunded balance usdcToken steps) :
    (∀ pre, pre <+: steps → PoolSound home ((machine home).run (deployed balance) pre)) ↔
      ∀ pre inv lender lpAmount t,
        (machine home).Executes (deployed balance) steps pre (inv, .withdraw lender lpAmount) t →
        lpAmount ≤ ((machine home).run (deployed balance) pre).totalLiquidity := by
  constructor
  · intro hsound pre inv lender lpAmount t hx
    have hbefore := (hsound pre ((List.prefix_append pre _).trans hx.snoc_prefix)).nonneg
    have hafter := (hsound _ hx.snoc_prefix).nonneg
    rw [hx.run_eq] at hafter
    have heffect : Effect inv _ t (.withdraw lender lpAmount) := exec_effect hx.exec_eq
    exact (heffect.liquidity_nonneg_iff hbefore).mp hafter lender lpAmount rfl
  · intro hcovered
    have hnonneg : ∀ pre, pre <+: steps →
        0 ≤ ((machine home).run (deployed balance) pre).totalLiquidity := by
      refine Machine.run_invariant_of_executes (M := machine home)
        (P := fun s : State Addr => 0 ≤ s.totalLiquidity) le_rfl ?_
      rintro pre ⟨inv, call⟩ t hx hpre
      have heffect : Effect inv _ t call := exec_effect hx.exec_eq
      refine (heffect.liquidity_nonneg_iff hpre).mpr ?_
      rintro lender lpAmount rfl
      exact hcovered pre inv lender lpAmount t hx
    intro pre hpre
    refine ⟨fun usdcToken husdc => ?_, hnonneg pre hpre, (run_sharesSound balance pre).total⟩
    have hbacking := run_backing balance usdcToken pre (.inr husdc)
    have haccrued := hfunded usdcToken (run_usdcToken_stable hpre husdc) pre hpre
    omega

end Runs

/-- 5 sends 10 to the pool, which the admin accrues and gives to 3, who withdraws 500. -/
def yieldRun : List (Step ℕ 0) :=
  lentRun ++
    [(grantedAt 0 1, .send 9 5 10),
      (grantedAt 0 1, .accrueYield 1 10),
      (grantedAt 0 1, .distributeYield 1 3 10),
      (grantedAt 0 1, .withdraw 3 500)]

theorem poolSound_iff_yieldRun :
    (∀ pre, pre <+: yieldRun → PoolSound 0 ((machine 0).run (deployed poolFunds) pre)) ↔
      ∀ pre inv lender lpAmount t,
        (machine 0).Executes (deployed poolFunds) yieldRun pre (inv, .withdraw lender lpAmount) t →
        lpAmount ≤ ((machine 0).run (deployed poolFunds) pre).totalLiquidity := by
  apply poolSound_iff
  intro usdcToken husdc
  have htoken : ((machine 0).run (deployed poolFunds) yieldRun).config.usdcToken = some 9 := by
    decide +kernel
  obtain rfl := Option.some.inj (htoken.symm.trans husdc)
  decide +kernel

/-- 5 sends 50 for the pool to accrue; before that happens, 3 withdraws all shares. -/
def overdrawnRun : List (Step ℕ 0) :=
  lentRun ++
    [(grantedAt 0 1, .send 9 5 50),
      (grantedAt 0 1, .withdraw 3 1000)]

/-- 50 of the 1000 are lent, so the recorded liquidity falls below zero. -/
theorem overdrawnRun_unsound :
    let s := (machine 0).run (deployed poolFunds) overdrawnRun
    Prefunded poolFunds 9 overdrawnRun ∧ s.config.usdcToken = some 9 ∧
      s.totalLiquidity = -50 ∧ ¬ PoolSound 0 s := by
  intro s
  have hliquidity : s.totalLiquidity = -50 := by decide +kernel
  refine ⟨by decide +kernel, by decide +kernel, hliquidity, ?_⟩
  intro hsound
  have hnonneg := hsound.nonneg
  rw [hliquidity] at hnonneg
  revert hnonneg
  decide

end LendingPool
