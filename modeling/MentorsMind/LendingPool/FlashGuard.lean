import MentorsMind.LendingPool.LoanConservation

/-! The flash-loan guards. The cap on what one address borrows in one ledger sequence holds. The
guard of the withdrawals never fires: it reads a marker that no deposit writes. -/
namespace LendingPool
open Outcome Soroban Shared

variable {Addr : Type} [DecidableEq Addr] {home : Addr}

section Guards

/-- A cap of a tenth of the snapshot, as the pool computes it. -/
theorem le_perBlockCap {snapshot n : ℤ} (hsnapshot : 0 < snapshot)
    (h : n ≤ (checkedDiv ((checkedMul snapshot perBlockBorrowCapBps).getD i128Max)
      10000).getD i128Max) : 10 * n ≤ snapshot ∧ n < i128Max := by
  have hdiv : ∀ m : ℤ, 0 ≤ m → m ≤ i128Max →
      (checkedDiv m 10000).getD i128Max = m / 10000 := by
    intro m hm hmax
    have htdiv : m.tdiv 10000 = m / 10000 := Int.tdiv_eq_ediv_of_nonneg hm
    have hfits : FitsI128 (m / 10000) := by
      unfold FitsI128
      unfold i128Max at hmax
      omega
    unfold checkedDiv
    rw [htdiv, if_pos ⟨by decide, hfits⟩, Option.getD_some]
  unfold checkedMul perBlockBorrowCapBps at h
  by_cases hfits : FitsI128 (snapshot * 1000)
  · rw [if_pos hfits, Option.getD_some, hdiv _ (by omega) (by
      unfold FitsI128 at hfits
      unfold i128Max
      omega)] at h
    unfold FitsI128 at hfits
    unfold i128Max
    omega
  · rw [if_neg hfits, Option.getD_none, hdiv _ (by decide) le_rfl] at h
    unfold FitsI128 at hfits
    unfold i128Max at h ⊢
    omega

/-- What the address has borrowed in the sequence so far, according to the guards. -/
def Guards.borrowedSoFar (g : Guards Addr) (sequence : ℕ) (borrower : Addr) : ℤ :=
  if g.blockBorrowLedger borrower = sequence then g.blockBorrowTotal borrower else 0

theorem admitBorrow_eq_ok {g g' : Guards Addr} {sequence : ℕ} {liquidity amount : ℤ}
    {borrower : Addr} (hsnapshot : 0 < g.snapshot sequence liquidity)
    (h : g.admitBorrow sequence liquidity borrower amount = .ok g') :
    10 * (g.borrowedSoFar sequence borrower + amount) ≤ g.snapshot sequence liquidity ∧
      g' = { g with
        blockBorrowTotal := Function.update g.blockBorrowTotal borrower
          (g.borrowedSoFar sequence borrower + amount)
        blockBorrowLedger := Function.update g.blockBorrowLedger borrower sequence
        blockLiquiditySnapshot :=
          if g.blockLiquidityLedger = sequence then g.blockLiquiditySnapshot
          else some liquidity
        blockLiquidityLedger := sequence } := by
  simp only [Guards.admitBorrow, bind_eq_ok, require_eq_ok, pure_eq_ok] at h
  obtain ⟨-, hcap, rfl⟩ := h
  obtain ⟨htenth, hlt⟩ := le_perBlockCap hsnapshot hcap
  -- A total that overflows is above every cap.
  have htotal : (checkedAdd (g.borrowedSoFar sequence borrower) amount).getD i128Max =
      g.borrowedSoFar sequence borrower + amount := by
    change (checkedAdd (g.borrowedSoFar sequence borrower) amount).getD i128Max < i128Max at hlt
    unfold checkedAdd at hlt ⊢
    split_ifs with hfits
    · rfl
    · rw [if_neg hfits] at hlt
      exact absurd hlt (lt_irrefl _)
  change 10 * (checkedAdd (g.borrowedSoFar sequence borrower) amount).getD i128Max ≤ _ at htenth
  rw [htotal] at htenth
  refine ⟨htenth, ?_⟩
  rw [← htotal]
  rfl

/-- A borrow passes the guards, which all other calls leave alone but for the marker of a
deposit in the instance storage. -/
theorem exec_guards {inv : Invocation Addr home} {s t : State Addr} {call : Call Addr}
    (h : exec inv call s = .ok t) :
    (∃ borrower amount sessionId, call = .borrow borrower amount sessionId ∧ 0 < amount ∧
      amount ≤ s.totalLiquidity ∧
      s.guards.admitBorrow inv.sequence s.totalLiquidity borrower amount = .ok t.guards) ∨
    ((∀ borrower amount sessionId, call ≠ .borrow borrower amount sessionId) ∧
      ∃ marker, t.guards = { s.guards with instanceDepositLedger := marker }) := by
  cases exec_effect h with
  | @borrowed borrower amount sessionId loan =>
    simp only [exec, borrow, bind_eq_ok, require_eq_ok, requireAuth_eq_ok, expect_eq_ok,
      pure_eq_ok] at h
    obtain ⟨-, -, -, hpos, -, -, credit, -, score, -, -, -, -, hle, guards, hguards, fee, -,
      usdcToken, -, tokens, -, dueAt, -, liquidity, -, rfl⟩ := h
    exact .inl ⟨borrower, amount, sessionId, rfl, hpos, hle, hguards⟩
  | @deposited lender amount =>
    simp only [exec, deposit, bind_eq_ok, require_eq_ok, requireAuth_eq_ok, expect_eq_ok,
      pure_eq_ok] at h
    obtain ⟨-, -, -, -, -, -, usdcToken, -, tokens, -, liquidity, -, lp, -, balance, -, rfl⟩ := h
    exact .inr ⟨by simp, _, rfl⟩
  | initialized _ eq | rateModelSet eq | minCreditScoreSet eq | paramSet eq
  | withdrawn _ _ _ eq | repaid _ _ _ _ eq | liquidated _ _ eq | auctionStarted _ _ _ _ eq
  | auctionExecuted _ _ _ eq | forceLiquidated _ _ eq | yieldAccrued _ _ eq
  | yieldDistributed _ _ eq | received _ _ eq | elsewhere _ eq =>
    exact .inr ⟨by simp, s.guards.instanceDepositLedger, by rw [eq]⟩

end Guards

section Cap

/-- What a call borrows for the address in the ledger sequence. -/
def borrowedIn (borrower : Addr) (sequence : ℕ) (_ : State Addr) (step : Step Addr home)
    (_ : State Addr) : ℤ :=
  match step.2 with
  | .borrow borrower' amount _ =>
      if borrower' = borrower ∧ step.1.sequence = sequence then amount else 0
  | _ => 0

/-- The liquidity that a borrow in the ledger sequence finds. -/
def liquidityFound (sequence : ℕ) (s : State Addr) (step : Step Addr home) (_ : State Addr) :
    Option ℤ :=
  match step.2 with
  | .borrow .. => if step.1.sequence = sequence then some s.totalLiquidity else none
  | _ => none

/-- What the address borrows in the ledger sequence over a run. -/
def blockBorrowed (balance : Addr → Addr → ℕ) (steps : List (Step Addr home))
    (borrower : Addr) (sequence : ℕ) : ℤ :=
  (machine home).tally (borrowedIn borrower sequence) (deployed balance) steps

/-- The liquidity at the first borrow of the ledger sequence, whoever makes it. -/
def firstBorrowLiquidity (balance : Addr → Addr → ℕ) (steps : List (Step Addr home))
    (sequence : ℕ) : Option ℤ :=
  ((machine home).collect (liquidityFound sequence) (deployed balance) steps).head?

/-- Ledger sequences are positive and do not go back. -/
structure SequencesForward (steps : List (Step Addr home)) : Prop where
  pos : ∀ step ∈ steps, 0 < step.1.sequence
  sorted : steps.Pairwise fun earlier later => earlier.1.sequence ≤ later.1.sequence

omit [DecidableEq Addr] in
theorem SequencesForward.of_prefix {pre steps : List (Step Addr home)}
    (h : SequencesForward steps) (hpre : pre <+: steps) : SequencesForward pre where
  pos step hstep := h.pos step (hpre.subset hstep)
  sorted := h.sorted.sublist hpre.sublist

/-- What the guards remember after the calls `pre`: of the latest sequence with a borrow the
liquidity at its first, and of each address what it borrowed in its own latest sequence. -/
structure GuardsTrack (balance : Addr → Addr → ℕ) (pre : List (Step Addr home))
    (s : State Addr) : Prop where
  ledger : s.guards.blockLiquidityLedger = 0 ∨
    ∃ step ∈ pre, step.1.sequence = s.guards.blockLiquidityLedger
  borrowLedger_le : ∀ b, s.guards.blockBorrowLedger b ≤ s.guards.blockLiquidityLedger
  none_later : ∀ q, s.guards.blockLiquidityLedger < q →
    firstBorrowLiquidity balance pre q = none
  snapshot : 0 < s.guards.blockLiquidityLedger → ∃ liquidity, 0 < liquidity ∧
    s.guards.blockLiquiditySnapshot = some liquidity ∧
    firstBorrowLiquidity balance pre s.guards.blockLiquidityLedger = some liquidity
  zero_later : ∀ b q, s.guards.blockBorrowLedger b < q → blockBorrowed balance pre b q = 0
  total : ∀ b, 0 < s.guards.blockBorrowLedger b →
    blockBorrowed balance pre b (s.guards.blockBorrowLedger b) = s.guards.blockBorrowTotal b
  cap : ∀ b q liquidity, firstBorrowLiquidity balance pre q = some liquidity →
    10 * blockBorrowed balance pre b q ≤ liquidity

variable {balance : Addr → Addr → ℕ} {pre : List (Step Addr home)} {step : Step Addr home}

theorem deployed_guardsTrack :
    GuardsTrack balance ([] : List (Step Addr home)) (deployed balance) where
  ledger := .inl rfl
  borrowLedger_le _ := le_rfl
  none_later _ _ := rfl
  snapshot h := absurd h (lt_irrefl _)
  zero_later _ _ _ := rfl
  total _ h := absurd h (lt_irrefl _)
  cap _ _ _ h := nomatch h

/-- A call that borrows nothing adds nothing to the records of a run. -/
theorem GuardsTrack.of_other {s t : State Addr} (h : GuardsTrack balance pre s)
    {marker : Addr → ℕ} (hguards : t.guards = { s.guards with instanceDepositLedger := marker })
    (hborrowed : ∀ b q, blockBorrowed balance (pre ++ [step]) b q =
      blockBorrowed balance pre b q)
    (hfirst : ∀ q, firstBorrowLiquidity balance (pre ++ [step]) q =
      firstBorrowLiquidity balance pre q) : GuardsTrack balance (pre ++ [step]) t where
  ledger := by
    rw [hguards]
    rcases h.ledger with hzero | ⟨earlier, hmem, heq⟩
    · exact .inl hzero
    · exact .inr ⟨earlier, by simp [hmem], heq⟩
  borrowLedger_le b := by
    rw [hguards]
    exact h.borrowLedger_le b
  none_later q := by
    rw [hguards, hfirst]
    exact h.none_later q
  snapshot := by
    rw [hguards, hfirst]
    exact h.snapshot
  zero_later b q := by
    rw [hguards, hborrowed]
    exact h.zero_later b q
  total b := by
    rw [hguards, hborrowed]
    exact h.total b
  cap b q := by
    rw [hborrowed, hfirst]
    exact h.cap b q

/-- The last borrow was not after the sequence of the next call. -/
theorem GuardsTrack.ledger_le {s : State Addr} (h : GuardsTrack balance pre s)
    (hforward : SequencesForward (pre ++ [step])) :
    s.guards.blockLiquidityLedger ≤ step.1.sequence := by
  rcases h.ledger with hzero | ⟨earlier, hmem, heq⟩
  · omega
  · rw [← heq]
    exact (List.pairwise_append.mp hforward.sorted).2.2 earlier hmem step (by simp)

/-- The snapshot that a borrow is measured against is the liquidity at the first borrow. -/
theorem GuardsTrack.first_eq {s : State Addr} (h : GuardsTrack balance pre s)
    (hpos : 0 < step.1.sequence) (hle : s.guards.blockLiquidityLedger ≤ step.1.sequence)
    (hliquidity : 0 < s.totalLiquidity) :
    (firstBorrowLiquidity balance pre step.1.sequence).or (some s.totalLiquidity) =
      some (s.guards.snapshot step.1.sequence s.totalLiquidity) ∧
    0 < s.guards.snapshot step.1.sequence s.totalLiquidity := by
  unfold Guards.snapshot
  by_cases heq : s.guards.blockLiquidityLedger = step.1.sequence
  · obtain ⟨liquidity, hfound, hstored, hfirst⟩ := h.snapshot (heq ▸ hpos)
    rw [heq] at hfirst
    rw [if_pos heq, hfirst, hstored]
    exact ⟨rfl, hfound⟩
  · rw [if_neg heq, h.none_later _ (lt_of_le_of_ne hle heq)]
    exact ⟨rfl, hliquidity⟩

/-- What the guards count for the borrower is what it has borrowed in the sequence. -/
theorem GuardsTrack.borrowedSoFar {s : State Addr} (h : GuardsTrack balance pre s)
    (hpos : 0 < step.1.sequence) (hle : s.guards.blockLiquidityLedger ≤ step.1.sequence)
    (borrower : Addr) : s.guards.borrowedSoFar step.1.sequence borrower =
      blockBorrowed balance pre borrower step.1.sequence := by
  unfold Guards.borrowedSoFar
  split_ifs with heq
  · have htotal := h.total borrower (heq ▸ hpos)
    rw [heq] at htotal
    exact htotal.symm
  · have hlt : s.guards.blockBorrowLedger borrower < step.1.sequence :=
      lt_of_le_of_ne ((h.borrowLedger_le borrower).trans hle) heq
    exact (h.zero_later borrower _ hlt).symm

/-- Nobody has borrowed more in the sequence than what its snapshot allows. -/
theorem GuardsTrack.cap_snapshot {s : State Addr} (h : GuardsTrack balance pre s)
    (hpos : 0 < step.1.sequence) (hle : s.guards.blockLiquidityLedger ≤ step.1.sequence)
    (hliquidity : 0 < s.totalLiquidity) (b : Addr) :
    10 * blockBorrowed balance pre b step.1.sequence ≤
      s.guards.snapshot step.1.sequence s.totalLiquidity := by
  obtain ⟨hsnapshot, hsnapshot_pos⟩ := h.first_eq hpos hle hliquidity
  -- The snapshot is of an earlier borrow, or the address has not borrowed yet.
  cases hbefore : firstBorrowLiquidity balance pre step.1.sequence with
  | some found =>
    rw [hbefore, Option.some_or, Option.some.injEq] at hsnapshot
    rw [← hsnapshot]
    exact h.cap b _ found hbefore
  | none =>
    have hearlier : s.guards.blockLiquidityLedger ≠ step.1.sequence := by
      intro heq
      obtain ⟨found, -, -, hfirst⟩ := h.snapshot (heq ▸ hpos)
      rw [heq, hbefore] at hfirst
      cases hfirst
    have hlater : s.guards.blockBorrowLedger b < step.1.sequence :=
      lt_of_le_of_lt (h.borrowLedger_le b) (lt_of_le_of_ne hle hearlier)
    rw [h.zero_later b _ hlater]
    omega

theorem blockBorrowed_snoc {t : State Addr}
    (hx : (machine home).exec step ((machine home).run (deployed balance) pre) = .ok t)
    (b : Addr) (q : ℕ) : blockBorrowed balance (pre ++ [step]) b q =
      blockBorrowed balance pre b q +
        borrowedIn b q ((machine home).run (deployed balance) pre) step t :=
  Machine.tally_snoc_ok hx

theorem firstBorrowLiquidity_snoc {t : State Addr}
    (hx : (machine home).exec step ((machine home).run (deployed balance) pre) = .ok t)
    (q : ℕ) : firstBorrowLiquidity balance (pre ++ [step]) q =
      (firstBorrowLiquidity balance pre q).or
        (liquidityFound q ((machine home).run (deployed balance) pre) step t) := by
  unfold firstBorrowLiquidity
  rw [Machine.collect_snoc_ok hx, List.head?_append]
  cases liquidityFound q ((machine home).run (deployed balance) pre) step t with
  | none => rfl
  | some liquidity => rfl

/-- The guards track a borrow. -/
theorem GuardsTrack.of_borrow {t : State Addr} {borrower : Addr} {amount : ℤ}
    {sessionId : String}
    (h : GuardsTrack balance pre ((machine home).run (deployed balance) pre))
    (hforward : SequencesForward (pre ++ [step]))
    (hcall : step.2 = .borrow borrower amount sessionId)
    (hx : (machine home).exec step ((machine home).run (deployed balance) pre) = .ok t)
    (hliquidity : 0 < ((machine home).run (deployed balance) pre).totalLiquidity)
    (hguards : ((machine home).run (deployed balance) pre).guards.admitBorrow step.1.sequence
      ((machine home).run (deployed balance) pre).totalLiquidity borrower amount =
        .ok t.guards) : GuardsTrack balance (pre ++ [step]) t := by
  have hborrowed := blockBorrowed_snoc hx
  have hfirst := firstBorrowLiquidity_snoc hx
  simp only [borrowedIn, hcall] at hborrowed
  simp only [liquidityFound, hcall] at hfirst
  have hpos : 0 < step.1.sequence := hforward.pos step (by simp)
  generalize (machine home).run (deployed balance) pre = s at *
  have hle := h.ledger_le hforward
  obtain ⟨hsnapshot, hsnapshot_pos⟩ := h.first_eq hpos hle hliquidity
  obtain ⟨hcap, hafter⟩ := admitBorrow_eq_ok hsnapshot_pos hguards
  rw [h.borrowedSoFar hpos hle borrower] at hcap hafter
  have hnow : firstBorrowLiquidity balance (pre ++ [step]) step.1.sequence =
      some (s.guards.snapshot step.1.sequence s.totalLiquidity) := by
    rw [hfirst, if_pos rfl, hsnapshot]
  have hotherwise : ∀ q, step.1.sequence ≠ q →
      firstBorrowLiquidity balance (pre ++ [step]) q = firstBorrowLiquidity balance pre q := by
    intro q hq
    rw [hfirst, if_neg hq, Option.or_none]
  have hledger : t.guards.blockLiquidityLedger = step.1.sequence := by rw [hafter]
  have hborrowLedger : t.guards.blockBorrowLedger =
      Function.update s.guards.blockBorrowLedger borrower step.1.sequence := by rw [hafter]
  have htotal : t.guards.blockBorrowTotal = Function.update s.guards.blockBorrowTotal borrower
      (blockBorrowed balance pre borrower step.1.sequence + amount) := by rw [hafter]
  constructor
  · exact .inr ⟨step, by simp, hledger.symm⟩
  · intro b
    rw [hledger, hborrowLedger]
    by_cases hb : b = borrower
    · rw [hb, Function.update_self]
    · rw [Function.update_of_ne hb]
      exact (h.borrowLedger_le b).trans hle
  · intro q hq
    rw [hledger] at hq
    rw [hotherwise q (ne_of_lt hq)]
    exact h.none_later q (lt_of_le_of_lt hle hq)
  · intro _
    rw [hledger]
    refine ⟨_, hsnapshot_pos, ?_, hnow⟩
    · rw [hafter]
      unfold Guards.snapshot
      split_ifs with heq
      · obtain ⟨liquidity, -, hstored, -⟩ := h.snapshot (heq ▸ hpos)
        rw [hstored, Option.getD_some]
      · rfl
  · intro b q hq
    rw [hborrowLedger] at hq
    rw [hborrowed]
    by_cases hb : b = borrower
    · rw [hb, Function.update_self] at hq
      rw [if_neg (fun hsame => absurd hsame.2 (ne_of_lt hq)), add_zero]
      exact h.zero_later b q (lt_of_le_of_lt ((h.borrowLedger_le b).trans hle) hq)
    · rw [Function.update_of_ne hb] at hq
      rw [if_neg (fun hsame => hb hsame.1.symm), add_zero]
      exact h.zero_later b q hq
  · intro b hb_pos
    rw [hborrowLedger] at hb_pos ⊢
    rw [htotal, hborrowed]
    by_cases hb : b = borrower
    · subst hb
      rw [Function.update_self, Function.update_self, if_pos ⟨rfl, rfl⟩]
    · rw [Function.update_of_ne hb] at hb_pos
      rw [Function.update_of_ne hb, Function.update_of_ne hb,
        if_neg (fun hsame => hb hsame.1.symm), add_zero]
      exact h.total b hb_pos
  · intro b q liquidity hfound
    rw [hborrowed]
    by_cases hq' : step.1.sequence = q
    · subst hq'
      obtain rfl := Option.some.inj (hnow.symm.trans hfound)
      by_cases hb : borrower = b
      · subst hb
        rw [if_pos ⟨rfl, rfl⟩]
        exact hcap
      · rw [if_neg (fun hsame => hb hsame.1), add_zero]
        exact h.cap_snapshot hpos hle hliquidity b
    · rw [if_neg (fun hsame => hq' hsame.2), add_zero]
      rw [hotherwise q hq'] at hfound
      exact h.cap b q liquidity hfound

theorem run_guardsTrack {steps : List (Step Addr home)} (hforward : SequencesForward steps) :
    GuardsTrack balance steps ((machine home).run (deployed balance) steps) := by
  refine Machine.run_history_of_executes (M := machine home) (s := deployed balance)
    (P := GuardsTrack balance) deployed_guardsTrack ?_ ?_ steps List.prefix_rfl
  · intro pre step t hx htrack
    rcases exec_guards hx.exec_eq with ⟨borrower, amount, sessionId, hcall, hpos, hle, hguards⟩ |
      ⟨hother, marker, hguards⟩
    · exact htrack.of_borrow (hforward.of_prefix hx.snoc_prefix) hcall hx.exec_eq
        (lt_of_lt_of_le hpos hle) hguards
    · refine htrack.of_other hguards (fun b q => ?_) (fun q => ?_)
      · rw [blockBorrowed_snoc hx.exec_eq]
        simp only [borrowedIn]
        cases hcall : step.2 with
        | borrow borrower amount sessionId => exact absurd hcall (hother _ _ _)
        | _ => exact add_zero _
      · rw [firstBorrowLiquidity_snoc hx.exec_eq]
        simp only [liquidityFound]
        cases hcall : step.2 with
        | borrow borrower amount sessionId => exact absurd hcall (hother _ _ _)
        | _ => exact Option.or_none
  · intro pre step e htrack herror
    exact htrack.of_other rfl (fun b q => Machine.tally_snoc_error herror) (fun q => by
      unfold firstBorrowLiquidity
      rw [Machine.collect_snoc_error herror])

end Cap

section Withdrawals

/-- The signature, the amounts and the token let the withdrawal through. -/
structure Withdrawable (inv : Invocation Addr home) (s : State Addr) (lender : Addr)
    (lpAmount : ℤ) : Prop where
  initialised : s.config.admin ≠ none
  pos : 0 < lpAmount
  auth : inv.auth lender = true
  balance : lpAmount ≤ s.lenderBalance lender
  token : ∃ usdcToken, s.config.usdcToken = some usdcToken ∧
    lpAmount ≤ s.tokens.balance usdcToken home ∧
    inv.accepts ⟨usdcToken, home, lender, lpAmount⟩ = true
  fits : FitsI128 (s.totalLiquidity - lpAmount) ∧ FitsI128 (s.totalLpTokens - lpAmount) ∧
    FitsI128 (s.lenderBalance lender - lpAmount)

/-- A withdrawal goes through exactly if everything else allows it and the marker that it
reads is not of the current ledger sequence. -/
theorem withdraw_isOk_iff {inv : Invocation Addr home} {s : State Addr} {lender : Addr}
    {lpAmount : ℤ} : (∃ t, withdraw inv s lender lpAmount = .ok t) ↔
      Withdrawable inv s lender lpAmount ∧
        s.guards.persistentDepositLedger lender ≠ inv.sequence := by
  simp only [withdraw, bind_eq_ok, require_eq_ok, requireAuth_eq_ok, expect_eq_ok,
    checkedSub_eq_some, pure_eq_ok]
  constructor
  · rintro ⟨t, -, hinit, -, hpos, -, hauth, -, hmarker, -, hbalance, usdcToken, husdc, tokens,
      hpaid, -, ⟨hliquidity, -⟩, -, ⟨hlp, -⟩, -, ⟨hrest, -⟩, -⟩
    obtain ⟨-, htoken, haccepts⟩ := Tokens.transfer_isOk_iff.mp ⟨tokens, hpaid⟩
    exact ⟨⟨hinit, hpos, hauth, hbalance, ⟨usdcToken, husdc, htoken, haccepts⟩,
      ⟨hliquidity, hlp, hrest⟩⟩, hmarker⟩
  · rintro ⟨⟨hinit, hpos, hauth, hbalance, ⟨usdcToken, husdc, htoken, haccepts⟩,
      ⟨hliquidity, hlp, hrest⟩⟩, hmarker⟩
    obtain ⟨tokens, hpaid⟩ :=
      Tokens.transfer_isOk_iff.mpr ⟨le_of_lt hpos, htoken, haccepts⟩
    exact ⟨_, (), hinit, (), hpos, (), hauth, (), hmarker, (), hbalance, usdcToken, husdc, tokens,
      hpaid, _, ⟨hliquidity, rfl⟩, _, ⟨hlp, rfl⟩, _, ⟨hrest, rfl⟩, rfl⟩

/-- Nothing writes the marker that a withdrawal reads. -/
theorem run_persistentDepositLedger (balance : Addr → Addr → ℕ)
    (steps : List (Step Addr home)) (lender : Addr) :
    ((machine home).run (deployed balance) steps).guards.persistentDepositLedger lender = 0 := by
  refine Machine.run_invariant (M := machine home)
    (P := fun s => s.guards.persistentDepositLedger lender = 0) rfl ?_ steps
  rintro ⟨inv, call⟩ s t hs hx
  rcases exec_guards hx with ⟨borrower, amount, sessionId, -, -, -, hguards⟩ |
    ⟨-, marker, hguards⟩
  · simp only [Guards.admitBorrow, bind_eq_ok, pure_eq_ok] at hguards
    obtain ⟨-, -, hguards⟩ := hguards
    rw [← hguards]
    exact hs
  · rw [hguards]
    exact hs

/-- The lender has deposited in the ledger sequence, in one of these calls. -/
def DepositedIn (balance : Addr → Addr → ℕ) (steps : List (Step Addr home)) (lender : Addr)
    (sequence : ℕ) : Prop :=
  ∃ pre inv amount t, (machine home).Executes (deployed balance) steps pre
    (inv, .deposit lender amount) t ∧ inv.sequence = sequence

/-- In the ledger sequence of a deposit its lender withdraws nothing, and no address borrows in
one sequence more than a tenth of the liquidity at the first borrow of the sequence. -/
structure FlashGuarded (balance : Addr → Addr → ℕ) (steps : List (Step Addr home)) : Prop where
  withdrawals : ∀ pre inv lender lpAmount, pre ++ [(inv, .withdraw lender lpAmount)] <+: steps →
    DepositedIn balance pre lender inv.sequence →
    ∀ t, withdraw inv ((machine home).run (deployed balance) pre) lender lpAmount ≠ .ok t
  borrows : ∀ borrower sequence liquidity,
    firstBorrowLiquidity balance steps sequence = some liquidity →
    10 * blockBorrowed balance steps borrower sequence ≤ liquidity

/-- Along every run the guards work exactly if nothing but the marker of the deposits would
have had to stop a withdrawal. -/
theorem flashGuarded_iff (balance : Addr → Addr → ℕ) {steps : List (Step Addr home)}
    (hforward : SequencesForward steps) :
    FlashGuarded balance steps ↔
      ∀ pre inv lender lpAmount, pre ++ [(inv, .withdraw lender lpAmount)] <+: steps →
        DepositedIn balance pre lender inv.sequence →
        ¬ Withdrawable inv ((machine home).run (deployed balance) pre) lender lpAmount := by
  have hmarker : ∀ pre inv lender lpAmount,
      pre ++ [(inv, .withdraw lender lpAmount)] <+: steps →
      ((machine home).run (deployed balance) pre).guards.persistentDepositLedger lender ≠
        inv.sequence := by
    intro pre inv lender lpAmount hpre
    rw [run_persistentDepositLedger]
    have hpos : 0 < inv.sequence := hforward.pos _ (hpre.subset (List.mem_concat_self ..))
    exact ne_of_lt hpos
  constructor
  · intro hguarded pre inv lender lpAmount hpre hdeposited hopen
    obtain ⟨t, ht⟩ := withdraw_isOk_iff.mpr ⟨hopen, hmarker pre inv lender lpAmount hpre⟩
    exact hguarded.withdrawals pre inv lender lpAmount hpre hdeposited t ht
  · intro hall
    refine ⟨fun pre inv lender lpAmount hpre hdeposited t ht => ?_,
      fun borrower sequence liquidity hfirst => ?_⟩
    · exact hall pre inv lender lpAmount hpre hdeposited (withdraw_isOk_iff.mp ⟨t, ht⟩).1
    · exact (run_guardsTrack hforward).cap borrower sequence liquidity hfirst

end Withdrawals

/-- 3 deposits 1000 in the ledger sequence 1, in which 4 borrows 50 of it, and withdraws in
`sequence` what is left. -/
def depositWithdrawRun (sequence : ℕ) : List (Step ℕ 0) :=
  lentRun ++ [(grantedAt 0 sequence, .withdraw 3 950)]

theorem depositWithdrawRun_guarded : SequencesForward (depositWithdrawRun 2) ∧
    FlashGuarded poolFunds (depositWithdrawRun 2) := by
  have hforward : SequencesForward (depositWithdrawRun 2) :=
    ⟨by simp [depositWithdrawRun, lentRun, grantedAt],
      by simp [depositWithdrawRun, lentRun, grantedAt]⟩
  refine ⟨hforward, (flashGuarded_iff poolFunds hforward).mpr ?_⟩
  intro pre inv lender lpAmount hpre ⟨early, inv', amount, t, hx, hsame⟩
  have hlate : inv.sequence = 2 := by
    have hmem := hpre.subset (List.mem_concat_self ..)
    simp only [depositWithdrawRun, lentRun, List.cons_append, List.nil_append, List.mem_cons,
      Prod.mk.injEq, reduceCtorEq, and_false, false_or, List.not_mem_nil, or_false] at hmem
    rw [hmem.1]
    rfl
  have hearly : inv'.sequence = 1 := by
    have hmem := hpre.subset (List.mem_append_left _ hx.mem)
    simp only [depositWithdrawRun, lentRun, List.cons_append, List.nil_append, List.mem_cons,
      Prod.mk.injEq, reduceCtorEq, and_false, false_or, or_false, List.not_mem_nil] at hmem
    rw [hmem.1]
    rfl
  omega

/-- The deposit and the withdrawal are in the same ledger sequence. -/
theorem depositWithdrawRun_not_guarded : SequencesForward (depositWithdrawRun 1) ∧
    ¬ FlashGuarded poolFunds (depositWithdrawRun 1) := by
  refine ⟨⟨by simp [depositWithdrawRun, lentRun, grantedAt],
    by simp [depositWithdrawRun, lentRun, grantedAt]⟩, fun hguarded => ?_⟩
  have hdeposit : ((machine 0).run (deployed poolFunds) (lentRun.take 2)).totalLiquidity ≠
      ((machine 0).run (deployed poolFunds) (lentRun.take 1)).totalLiquidity := by
    decide +kernel
  have hdeposited : DepositedIn poolFunds lentRun 3 1 := by
    refine ⟨lentRun.take 1, grantedAt 0 1, 1000, _, Machine.Executes.mono
      (Machine.executes_of_run_ne (M := machine 0) (s := deployed poolFunds) ?_)
      (List.take_prefix 2 lentRun), rfl⟩
    intro heq
    exact hdeposit (congrArg State.totalLiquidity heq)
  have hwithdrawn : ∃ t, withdraw (grantedAt 0 1)
      ((machine 0).run (deployed poolFunds) lentRun) 3 950 = .ok t := by
    rw [withdraw_isOk_iff]
    refine ⟨⟨?_, by decide, rfl, ?_, ⟨9, ?_, ?_, rfl⟩, ?_⟩, ?_⟩
    all_goals decide +kernel
  obtain ⟨t, ht⟩ := hwithdrawn
  exact hguarded.withdrawals lentRun (grantedAt 0 1) 3 950 List.prefix_rfl hdeposited t ht

end LendingPool
