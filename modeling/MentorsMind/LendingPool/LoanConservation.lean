import MentorsMind.Lib.Table
import MentorsMind.LendingPool.Effects

/-! Loan conservation: what was lent is outstanding, closed or written off, unless a call
replaces or drops a loan that is still open. -/
namespace LendingPool
open Outcome Soroban Shared

variable {Addr : Type} [DecidableEq Addr] {home : Addr}

/-- What a stored loan still owes of its principal. -/
def openPrincipal (o : Option (LoanRecord Addr)) : ℤ :=
  o.elim 0 fun loan => if loan.repaid then 0 else loan.amount

/-- The principals of the stored loans that are not repaid. -/
noncomputable def State.outstanding (s : State Addr) : ℤ := PointSum.total openPrincipal s.loan

/-- The principal that a call lends. -/
def lent (_ : State Addr) (step : Step Addr home) (_ : State Addr) : ℤ :=
  match step.2 with
  | .borrow _ amount _ => amount
  | _ => 0

/-- The principal of the loan that a call closes against a payment. -/
def closed (s : State Addr) (step : Step Addr home) (_ : State Addr) : ℤ :=
  match step.2 with
  | .repay borrower _ => (s.loan borrower).elim 0 LoanRecord.amount
  | .executeLiquidation _ borrower =>
      (s.liquidationAuction borrower).elim 0 fun auction => auction.loan.amount
  | _ => 0

/-- The principal of the loan that a call adds to the bad debt. -/
def writtenOff (s : State Addr) (step : Step Addr home) (_ : State Addr) : ℤ :=
  match step.2 with
  | .forceLiquidate _ borrower => (s.loan borrower).elim 0 LoanRecord.amount
  | _ => 0

/-- What the books lose by a call. -/
def lost (s : State Addr) (step : Step Addr home) (_ : State Addr) : ℤ :=
  match step.2 with
  | .borrow borrower _ _ | .liquidate borrower => openPrincipal (s.loan borrower)
  | .executeLiquidation _ borrower => openPrincipal (s.loan borrower) -
      (s.liquidationAuction borrower).elim 0 fun auction => auction.loan.amount
  | _ => 0

/-- The call closes the loan of `borrower` against a payment, or writes it off. -/
def Closes (s : State Addr) (step : Step Addr home) (borrower : Addr)
    (loan : LoanRecord Addr) : Prop :=
  match step.2 with
  | .repay borrower' _ | .forceLiquidate _ borrower' => borrower' = borrower
  | .executeLiquidation _ borrower' => borrower' = borrower ∧
      ∃ auction, s.liquidationAuction borrower = some auction ∧ auction.loan = loan
  | _ => False

/-- No open loan disappears: it stays as it is, or the call closes it. -/
def KeepsLoans (s : State Addr) (step : Step Addr home) (t : State Addr) : Prop :=
  ∀ borrower loan, s.loan borrower = some loan → loan.repaid = false →
    t.loan borrower = some loan ∨
      (Closes s step borrower loan ∧ t.loan borrower = some loan.close)

/-- A borrow finds no open loan of its borrower, an execution finds the loan that was put up for
auction, and the liquidation without an auction is not used. -/
def SparesLoans (s : State Addr) (step : Step Addr home) : Prop :=
  match step.2 with
  | .borrow borrower _ _ => ∀ loan, s.loan borrower = some loan → loan.repaid = true
  | .liquidate _ => False
  | .executeLiquidation _ borrower => ∀ auction,
      s.liquidationAuction borrower = some auction → s.loan borrower = some auction.loan
  | _ => True

/-- What holds of the loans and auctions in every reachable state. -/
structure LoansSound (s : State Addr) : Prop where
  finite : PointSum.Finite openPrincipal s.loan
  amount_pos : ∀ borrower loan, s.loan borrower = some loan → 0 < loan.amount
  auction : ∀ borrower auction, s.liquidationAuction borrower = some auction →
    auction.loan.repaid = false ∧ 0 < auction.loan.amount

section Steps

variable {inv : Invocation Addr home} {s t : State Addr} {call : Call Addr}

omit [DecidableEq Addr] in
theorem openPrincipal_of_unpaid {loan : LoanRecord Addr} (h : loan.repaid = false) :
    openPrincipal (some loan) = loan.amount := by
  simp [openPrincipal, h]

omit [DecidableEq Addr] in
@[simp] theorem openPrincipal_close (loan : LoanRecord Addr) :
    openPrincipal (some loan.close) = 0 := rfl

/-- How a call changes the outstanding principal. -/
theorem Effect.outstanding (hs : LoansSound s) (h : Effect inv s t call) :
    s.outstanding + lent s (inv, call) t = t.outstanding + closed s (inv, call) t +
      writtenOff s (inv, call) t + lost s (inv, call) t := by
  have hsame : t.loan = s.loan → lent s (inv, call) t = 0 → closed s (inv, call) t = 0 →
      writtenOff s (inv, call) t = 0 → lost s (inv, call) t = 0 →
      s.outstanding + lent s (inv, call) t = t.outstanding + closed s (inv, call) t +
        writtenOff s (inv, call) t + lost s (inv, call) t := by
    intro hloan hlent hclosed hwritten hlost
    rw [hlent, hclosed, hwritten, hlost, State.outstanding, State.outstanding, hloan]
    omega
  have hupdate : ∀ borrower o, t.loan = Function.update s.loan borrower o →
      t.outstanding = s.outstanding + (openPrincipal o - openPrincipal (s.loan borrower)) := by
    intro borrower o hloan
    rw [State.outstanding, hloan, hs.finite.total_update]
    rfl
  cases h with
  | @borrowed borrower amount sessionId loan _ _ _ _ amount_eq _ _ unpaid _ eq =>
    rw [hupdate borrower (some loan) (by rw [eq]), openPrincipal_of_unpaid unpaid, amount_eq]
    simp only [lent, closed, writtenOff, lost]
    omega
  | @repaid borrower amount loan found unpaid _ _ eq =>
    rw [hupdate borrower (some loan.close) (by rw [eq])]
    simp only [lent, closed, writtenOff, lost, found, openPrincipal_of_unpaid unpaid,
      openPrincipal_close, Option.elim_some]
    omega
  | @liquidated borrower loan found unpaid eq =>
    rw [hupdate borrower (some loan.close) (by rw [eq])]
    simp only [lent, closed, writtenOff, lost, openPrincipal_close]
    omega
  | @auctionExecuted liquidator borrower auction payment found _ _ eq =>
    rw [hupdate borrower (some auction.loan.close) (by rw [eq])]
    simp only [lent, closed, writtenOff, lost, found, openPrincipal_close, Option.elim_some]
    omega
  | @forceLiquidated admin borrower loan found unpaid eq =>
    rw [hupdate borrower (some loan.close) (by rw [eq])]
    simp only [lent, closed, writtenOff, lost, found, openPrincipal_of_unpaid unpaid,
      openPrincipal_close, Option.elim_some]
    omega
  | initialized _ eq | rateModelSet eq | minCreditScoreSet eq | paramSet eq | deposited _ _ _ eq
  | withdrawn _ _ _ eq | auctionStarted _ _ _ _ eq | yieldAccrued _ _ eq
  | yieldDistributed _ _ eq | received _ _ eq | elsewhere _ eq =>
    exact hsame (by rw [eq]) rfl rfl rfl rfl

theorem LoansSound.of_effect (hs : LoansSound s) (h : Effect inv s t call) : LoansSound t := by
  have hsame : t.loan = s.loan → t.liquidationAuction = s.liquidationAuction → LoansSound t := by
    intro hloan hauction
    exact ⟨hloan ▸ hs.finite, hloan ▸ hs.amount_pos, hauction ▸ hs.auction⟩
  -- A loan that is written has a positive principal; an auction only ever goes away with it.
  have hupdate : ∀ borrower loan, 0 < loan.amount →
      t.loan = Function.update s.loan borrower (some loan) →
      (∀ b auction, t.liquidationAuction b = some auction →
        s.liquidationAuction b = some auction) → LoansSound t := by
    intro borrower loan hpos hloan hauction
    refine ⟨hloan ▸ hs.finite.update borrower (some loan), ?_,
      fun b auction hb => hs.auction b auction (hauction b auction hb)⟩
    rw [hloan]
    exact Table.forall_update hs.amount_pos hpos
  have hremoved : ∀ borrower, t.liquidationAuction =
      Function.update s.liquidationAuction borrower none →
      ∀ b auction, t.liquidationAuction b = some auction →
        s.liquidationAuction b = some auction := by
    intro borrower heq b auction hb
    rw [heq] at hb
    exact (Table.erase_eq_some_iff.mp hb).2
  cases h with
  | @borrowed borrower amount sessionId loan _ pos _ _ amount_eq _ _ _ _ eq =>
    exact hupdate borrower loan (amount_eq ▸ pos) (by rw [eq]) fun b auction hb => by
      rwa [eq] at hb
  | @repaid borrower amount loan found unpaid _ _ eq =>
    exact hupdate borrower loan.close (hs.amount_pos borrower loan found) (by rw [eq])
      fun b auction hb => by rwa [eq] at hb
  | @liquidated borrower loan found unpaid eq =>
    exact hupdate borrower loan.close (hs.amount_pos borrower loan found) (by rw [eq])
      fun b auction hb => by rwa [eq] at hb
  | @auctionStarted borrower loan found unpaid _ _ eq =>
    refine ⟨?_, ?_, ?_⟩
    · rw [eq]
      exact hs.finite
    · rw [eq]
      exact hs.amount_pos
    · rw [eq]
      apply Table.forall_update hs.auction
      exact ⟨unpaid, hs.amount_pos borrower loan found⟩
  | @auctionExecuted liquidator borrower auction payment found _ _ eq =>
    exact hupdate borrower auction.loan.close (hs.auction borrower auction found).2 (by rw [eq])
      (hremoved borrower (by rw [eq]))
  | @forceLiquidated admin borrower loan found unpaid eq =>
    exact hupdate borrower loan.close (hs.amount_pos borrower loan found) (by rw [eq])
      (hremoved borrower (by rw [eq]))
  | initialized _ eq | rateModelSet eq | minCreditScoreSet eq | paramSet eq | deposited _ _ _ eq
  | withdrawn _ _ _ eq | yieldAccrued _ _ eq | yieldDistributed _ _ eq | received _ _ eq
  | elsewhere _ eq =>
    exact hsame (by rw [eq]) (by rw [eq])

/-- A call that writes one loan keeps the open loans, if none was open there. -/
theorem keepsLoans_of_unopened {step : Step Addr home} {borrower : Addr} {loan : LoanRecord Addr}
    (h : t.loan = Function.update s.loan borrower (some loan))
    (hclosed : ∀ found, s.loan borrower = some found → found.repaid = true) :
    KeepsLoans s step t := by
  intro b found hfound hunpaid
  by_cases hb : b = borrower
  · subst hb
    rw [hclosed found hfound] at hunpaid
    cases hunpaid
  · exact .inl (by rw [h, Function.update_of_ne hb, hfound])

/-- It does so as well, if it closes the one that is there. -/
theorem keepsLoans_of_closing {step : Step Addr home} {borrower : Addr} {loan : LoanRecord Addr}
    (h : t.loan = Function.update s.loan borrower (some loan.close))
    (hfound : s.loan borrower = some loan) (hcloses : Closes s step borrower loan) :
    KeepsLoans s step t := by
  intro b found hfound' hunpaid
  by_cases hb : b = borrower
  · subst hb
    obtain rfl := Option.some.inj (hfound.symm.trans hfound')
    exact .inr ⟨hcloses, by rw [h, Function.update_self]⟩
  · exact .inl (by rw [h, Function.update_of_ne hb, hfound'])

/-- A call neither loses principal nor drops an open loan exactly if it spares the loans. -/
theorem Effect.spares_iff (hs : LoansSound s) (h : Effect inv s t call) :
    (lost s (inv, call) t = 0 ∧ KeepsLoans s (inv, call) t) ↔ SparesLoans s (inv, call) := by
  have hsame : t.loan = s.loan → KeepsLoans s (inv, call) t := by
    intro hloan b found hfound _
    exact .inl (by rw [hloan, hfound])
  cases h with
  | @borrowed borrower amount sessionId loan _ _ _ _ _ _ _ unpaid _ eq =>
    constructor
    · rintro ⟨hlost, -⟩ found hfound
      by_contra hopen
      rw [Bool.not_eq_true] at hopen
      have hpos := hs.amount_pos borrower found hfound
      simp only [lost, hfound, openPrincipal_of_unpaid hopen] at hlost
      omega
    · intro hspares
      constructor
      · show openPrincipal (s.loan borrower) = 0
        cases hfound : s.loan borrower with
        | none => rfl
        | some found => simp [openPrincipal, hspares found hfound]
      · exact keepsLoans_of_unopened (by rw [eq]) hspares
  | @liquidated borrower loan found unpaid eq =>
    constructor
    · rintro ⟨hlost, -⟩
      have hpos := hs.amount_pos borrower loan found
      simp only [lost, found, openPrincipal_of_unpaid unpaid] at hlost
      omega
    · intro hnever
      exact hnever.elim
  | @auctionExecuted liquidator borrower auction payment found _ _ eq =>
    rcases hs.auction borrower auction found with ⟨hunpaid, hpos⟩
    have hafter : t.loan borrower = some auction.loan.close := by
      rw [eq]
      exact Function.update_self ..
    constructor
    · rintro ⟨hlost, hkept⟩ auction' hauction
      obtain rfl := Option.some.inj (found.symm.trans hauction)
      simp only [lost, found, Option.elim_some] at hlost
      -- The loan found there is open, as the principal of the copy is not lost.
      cases hfound : s.loan borrower with
      | none =>
        simp only [hfound, openPrincipal, Option.elim_none] at hlost
        omega
      | some loan =>
        cases hopen : loan.repaid with
        | false =>
          rcases hkept borrower loan hfound hopen with hstays | ⟨⟨-, _, hcopy, rfl⟩, -⟩
          · rw [hafter, Option.some.injEq] at hstays
            rw [← hstays] at hopen
            cases hopen
          · obtain rfl := Option.some.inj (found.symm.trans hcopy)
            rfl
        | true =>
          simp only [hfound, openPrincipal, hopen, Option.elim_some, if_true] at hlost
          omega
    · intro hspares
      have hfound := hspares auction found
      constructor
      · simp only [lost, found, hfound, openPrincipal_of_unpaid hunpaid, Option.elim_some]
        omega
      · exact keepsLoans_of_closing (by rw [eq]) hfound ⟨rfl, auction, found, rfl⟩
  | @repaid borrower amount loan found unpaid _ _ eq =>
    exact iff_of_true ⟨rfl, keepsLoans_of_closing (by rw [eq]) found rfl⟩ trivial
  | @forceLiquidated admin borrower loan found unpaid eq =>
    exact iff_of_true ⟨rfl, keepsLoans_of_closing (by rw [eq]) found rfl⟩ trivial
  | initialized _ eq | rateModelSet eq | minCreditScoreSet eq | paramSet eq | deposited _ _ _ eq
  | withdrawn _ _ _ eq | auctionStarted _ _ _ _ eq | yieldAccrued _ _ eq
  | yieldDistributed _ _ eq | received _ _ eq | elsewhere _ eq =>
    exact iff_of_true ⟨rfl, hsame (by rw [eq])⟩ trivial

end Steps

section Runs

variable {balance : Addr → Addr → ℕ} {steps : List (Step Addr home)}

omit [DecidableEq Addr] in
theorem deployed_loansSound : LoansSound (deployed balance) where
  finite := PointSum.finite_const rfl
  amount_pos _ _ h := nomatch h
  auction _ _ h := nomatch h

theorem run_loansSound (balance : Addr → Addr → ℕ) (steps : List (Step Addr home)) :
    LoansSound ((machine home).run (deployed balance) steps) :=
  Machine.run_invariant (M := machine home) deployed_loansSound
    (fun _ _ _ hs h => hs.of_effect (exec_effect h)) steps

/-- Whatever the calls are: what was lent is outstanding, closed, written off or lost. -/
theorem tally_lent (balance : Addr → Addr → ℕ) (steps : List (Step Addr home)) :
    (machine home).tally lent (deployed balance) steps =
      ((machine home).run (deployed balance) steps).outstanding +
        (machine home).tally closed (deployed balance) steps +
        (machine home).tally writtenOff (deployed balance) steps +
        (machine home).tally lost (deployed balance) steps := by
  refine Machine.run_history (M := machine home) (s := deployed balance)
    (P := fun pre s => (machine home).tally lent (deployed balance) pre =
      s.outstanding + (machine home).tally closed (deployed balance) pre +
        (machine home).tally writtenOff (deployed balance) pre +
        (machine home).tally lost (deployed balance) pre) ?_ ?_ ?_ steps
  · have hzero : (deployed balance).outstanding = 0 := PointSum.total_const rfl
    simp [hzero]
  · rintro pre ⟨inv, call⟩ t hpre hx
    have hstep : _ + lent _ (inv, call) t = _ + closed _ (inv, call) t +
        writtenOff _ (inv, call) t + lost _ (inv, call) t :=
      (exec_effect hx).outstanding (run_loansSound balance pre)
    simp only [Machine.tally_snoc_ok hx] at hpre ⊢
    omega
  · intro pre step e hpre hx
    simp only [Machine.tally_snoc_error hx]
    exact hpre

/-- At every moment of the run, the principals lent so far are those of the open loans, of the
loans closed against a payment and of the loans written off; and no open loan disappears. -/
structure LoansConserved (balance : Addr → Addr → ℕ) (steps : List (Step Addr home)) :
    Prop where
  sums : ∀ pre, pre <+: steps → (machine home).tally lent (deployed balance) pre =
    ((machine home).run (deployed balance) pre).outstanding +
      (machine home).tally closed (deployed balance) pre +
      (machine home).tally writtenOff (deployed balance) pre
  kept : ∀ pre step t, (machine home).Executes (deployed balance) steps pre step t →
    KeepsLoans ((machine home).run (deployed balance) pre) step t

/-- The loans are conserved exactly if every call of the run spares them. -/
theorem loans_conserved_iff (balance : Addr → Addr → ℕ) (steps : List (Step Addr home)) :
    LoansConserved balance steps ↔
      ∀ pre step t, (machine home).Executes (deployed balance) steps pre step t →
        SparesLoans ((machine home).run (deployed balance) pre) step := by
  have hspares : ∀ pre step t, (machine home).Executes (deployed balance) steps pre step t →
      ((lost ((machine home).run (deployed balance) pre) step t = 0 ∧
        KeepsLoans ((machine home).run (deployed balance) pre) step t) ↔
        SparesLoans ((machine home).run (deployed balance) pre) step) := by
    rintro pre ⟨inv, call⟩ t hx
    exact (exec_effect hx.exec_eq).spares_iff (run_loansSound balance pre)
  constructor
  · rintro ⟨hsums, hkept⟩ pre step t hx
    have hlost : ∀ pre, pre <+: steps →
        (machine home).tally lost (deployed balance) pre = 0 := by
      intro pre hpre
      have hlent := tally_lent balance pre
      rw [hsums pre hpre] at hlent
      exact left_eq_add.mp hlent
    exact (hspares pre step t hx).mp
      ⟨Machine.tally_prefixes_eq_zero_iff.mp hlost pre step t hx, hkept pre step t hx⟩
  · intro hall
    refine ⟨fun pre hpre => ?_, fun pre step t hx => ((hspares pre step t hx).mpr
      (hall pre step t hx)).2⟩
    have hzero := Machine.tally_prefixes_eq_zero_iff.mpr
      (fun pre step t hx => ((hspares pre step t hx).mpr (hall pre step t hx)).1) pre hpre
    rw [tally_lent balance pre, hzero, add_zero]

end Runs

/-- Token balances with which lenders and liquidators can pay. -/
def poolFunds : ℕ → ℕ → ℕ := fun _ holder => if holder = 0 then 0 else 1000000

/-- 3 lends 1000 to the pool, and 4 borrows 50 of it. -/
def lentRun : List (Step ℕ 0) :=
  [(grantedAt 0 1, .initializePool 1 9 8 7),
    (grantedAt 0 1, .deposit 3 1000),
    (grantedAt 0 1, .borrow 4 50 "first")]

/-- 70 were lent, but 20 are all that is outstanding: the loan of 50 is gone. -/
theorem reborrowRun_not_conserved :
    ¬ LoansConserved poolFunds (lentRun ++ [(grantedAt 0 1, .borrow 4 20 "second")]) := by
  intro hconserved
  have hbefore : ((machine 0).run (deployed poolFunds) lentRun).loan 4 =
      some ⟨4, 50, 0, "first", 0, liquidationSeconds, false⟩ := by
    decide +kernel
  have hafter : ((machine 0).run (deployed poolFunds)
      (lentRun ++ [(grantedAt 0 1, .borrow 4 20 "second")])).loan 4 =
      some ⟨4, 20, 0, "second", 0, liquidationSeconds, false⟩ := by
    decide +kernel
  have hx : (machine 0).Executes (deployed poolFunds)
      (lentRun ++ [(grantedAt 0 1, .borrow 4 20 "second")]) lentRun
      (grantedAt 0 1, .borrow 4 20 "second")
      ((machine 0).run (deployed poolFunds)
        (lentRun ++ [(grantedAt 0 1, .borrow 4 20 "second")])) := by
    apply Machine.executes_of_run_ne
    intro heq
    rw [heq, hbefore] at hafter
    revert hafter
    decide
  have hkept := hconserved.kept _ _ _ hx
  generalize (machine 0).run (deployed poolFunds) lentRun = before at hbefore hkept
  generalize (machine 0).run (deployed poolFunds)
    (lentRun ++ [(grantedAt 0 1, .borrow 4 20 "second")]) = after at hafter hkept
  rcases hkept 4 _ hbefore rfl with hstays | ⟨hcloses, -⟩
  · rw [hafter] at hstays
    revert hstays
    decide
  · exact hcloses

end LendingPool
