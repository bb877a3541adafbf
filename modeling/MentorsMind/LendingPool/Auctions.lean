import MentorsMind.LendingPool.LoanConservation

/-! Which loan an auction acts on. The storage has one record for each borrower and does not
number the loans, so a book is kept beside it, of the calls that succeed. -/
namespace LendingPool
open Outcome Soroban Shared

variable {Addr : Type} [DecidableEq Addr] {home : Addr}

/-- The loans of a borrower are numbered from 1 in the order in which they were lent. -/
structure LoanBook (Addr : Type) where
  /-- How many loans the borrower has been given. -/
  borrowed : Addr → ℕ
  /-- The loan whose record is stored. -/
  stored : Addr → ℕ
  /-- The loan of which the last auction kept a copy. -/
  auctioned : Addr → ℕ
  /-- The loans that calls closed, the last one first. -/
  closed : List (Addr × ℕ)

namespace LoanBook

def empty : LoanBook Addr := ⟨fun _ => 0, fun _ => 0, fun _ => 0, []⟩

/-- What a call that succeeds adds to the book. -/
def record (book : LoanBook Addr) : Call Addr → LoanBook Addr
  | .borrow borrower _ _ => { book with
      borrowed := Function.update book.borrowed borrower (book.borrowed borrower + 1)
      stored := Function.update book.stored borrower (book.borrowed borrower + 1) }
  | .repay borrower _ | .liquidate borrower | .forceLiquidate _ borrower => { book with
      closed := (borrower, book.stored borrower) :: book.closed }
  | .startLiquidationAuction borrower => { book with
      auctioned := Function.update book.auctioned borrower (book.stored borrower) }
  | .executeLiquidation _ borrower => { book with
      stored := Function.update book.stored borrower (book.auctioned borrower)
      closed := (borrower, book.auctioned borrower) :: book.closed }
  | _ => book

end LoanBook

/-- The book of a run. -/
def loanBook (balance : Addr → Addr → ℕ) (steps : List (Step Addr home)) : LoanBook Addr :=
  ((machine home).collect (fun _ step _ => some step.2) (deployed balance) steps).foldl
    LoanBook.record LoanBook.empty

/-- The borrower whose loan or auction a call is about. -/
def Call.loanOf : Call Addr → Option Addr
  | .borrow borrower _ _ | .repay borrower _ | .liquidate borrower
  | .startLiquidationAuction borrower | .executeLiquidation _ borrower
  | .forceLiquidate _ borrower => some borrower
  | _ => none

/-- The call starts an auction of the loan of `borrower`. -/
def StartsAuction (borrower : Addr) (step : Step Addr home) : Prop :=
  step.2 = .startLiquidationAuction borrower

/-- The call replaces the loan of `borrower`, or closes it without ending its auction. -/
def TouchesLoan (borrower : Addr) (step : Step Addr home) : Prop :=
  match step.2 with
  | .borrow borrower' _ _ | .repay borrower' _ | .liquidate borrower' => borrower' = borrower
  | _ => False

/-- The book agrees with what is stored for a borrower. -/
structure Booked (book : LoanBook Addr) (s : State Addr) (borrower : Addr) : Prop where
  closed_le : ∀ k, (borrower, k) ∈ book.closed → k ≤ book.borrowed borrower
  stored_le : book.stored borrower ≤ book.borrowed borrower
  repaid_iff : ∀ loan, s.loan borrower = some loan →
    (loan.repaid = true ↔ (borrower, book.stored borrower) ∈ book.closed)
  auctioned_le : ∀ auction, s.liquidationAuction borrower = some auction →
    book.auctioned borrower ≤ book.borrowed borrower
  copy : ∀ auction, s.liquidationAuction borrower = some auction →
    book.stored borrower = book.auctioned borrower →
    ∃ loan, s.loan borrower = some loan ∧ loan.close = auction.loan.close

section Steps

variable {inv : Invocation Addr home} {s t : State Addr} {call : Call Addr}
  {book : LoanBook Addr} {borrower : Addr}

/-- A call leaves the loans and auctions of other borrowers alone. -/
theorem Effect.loan_other (h : Effect inv s t call) (hother : call.loanOf ≠ some borrower) :
    t.loan borrower = s.loan borrower ∧
      t.liquidationAuction borrower = s.liquidationAuction borrower := by
  cases h with
  | borrowed _ _ _ _ _ _ _ _ _ eq | repaid _ _ _ _ eq | liquidated _ _ eq
  | auctionStarted _ _ _ _ eq | auctionExecuted _ _ _ eq | forceLiquidated _ _ eq =>
    have hne : borrower ≠ _ := fun heq => hother (congrArg some heq.symm)
    rw [eq]
    simp only [Function.update_of_ne hne, and_self]
  | initialized _ eq | rateModelSet eq | minCreditScoreSet eq | paramSet eq | deposited _ _ _ eq
  | withdrawn _ _ _ eq | yieldAccrued _ _ eq | yieldDistributed _ _ eq | received _ _ eq
  | elsewhere _ eq =>
    rw [eq]
    exact ⟨rfl, rfl⟩

/-- So does the book. -/
theorem LoanBook.record_other (book : LoanBook Addr) (hother : call.loanOf ≠ some borrower) :
    (book.record call).borrowed borrower = book.borrowed borrower ∧
      (book.record call).stored borrower = book.stored borrower ∧
      (book.record call).auctioned borrower = book.auctioned borrower ∧
      ∀ k, (borrower, k) ∈ (book.record call).closed ↔ (borrower, k) ∈ book.closed := by
  cases call with
  | borrow b | repay b | liquidate b | startLiquidationAuction b | executeLiquidation _ b
  | forceLiquidate _ b =>
    have hne : borrower ≠ b := fun heq => hother (congrArg some heq.symm)
    simp [record, hne]
  | _ => exact ⟨rfl, rfl, rfl, fun _ => Iff.rfl⟩

omit [DecidableEq Addr] in
/-- A call that closes the stored loan, and may end its auction. -/
theorem Booked.closing (hb : Booked book s borrower) {loan : LoanRecord Addr}
    (hfound : s.loan borrower = some loan) (hloan : t.loan borrower = some loan.close)
    (hauction : ∀ auction, t.liquidationAuction borrower = some auction →
      s.liquidationAuction borrower = some auction) :
    Booked { book with closed := (borrower, book.stored borrower) :: book.closed } t
      borrower := by
  constructor
  · intro k hk
    rcases List.mem_cons.mp hk with heq | hbefore
    · rw [(Prod.mk.inj heq).2]
      exact hb.stored_le
    · exact hb.closed_le k hbefore
  · exact hb.stored_le
  · intro later hlater
    obtain rfl := Option.some.inj (hloan.symm.trans hlater)
    exact iff_of_true rfl List.mem_cons_self
  · intro auction hstored
    exact hb.auctioned_le auction (hauction auction hstored)
  · intro auction hstored hsame
    rcases hb.copy auction (hauction auction hstored) hsame with ⟨found, hfound', hcopy⟩
    obtain rfl := Option.some.inj (hfound.symm.trans hfound')
    exact ⟨loan.close, hloan, hcopy⟩

/-- A new loan has a number of its own. -/
theorem Booked.lending (hb : Booked book s borrower) {amount : ℤ} {sessionId : String}
    {loan : LoanRecord Addr} (hunpaid : loan.repaid = false)
    (hloan : t.loan borrower = some loan)
    (hauction : t.liquidationAuction = s.liquidationAuction) :
    Booked (book.record (.borrow borrower amount sessionId)) t borrower := by
  have hfresh : (borrower, book.borrowed borrower + 1) ∉ book.closed := by
    intro hclosed
    have hle := hb.closed_le _ hclosed
    omega
  constructor
  · intro k hk
    have hle := hb.closed_le k hk
    simp only [LoanBook.record, Function.update_self]
    omega
  · simp only [LoanBook.record, Function.update_self, le_refl]
  · intro later hlater
    obtain rfl := Option.some.inj (hloan.symm.trans hlater)
    simp only [LoanBook.record, Function.update_self, hunpaid, hfresh, Bool.false_eq_true]
  · intro auction hstored
    rw [hauction] at hstored
    have hle := hb.auctioned_le auction hstored
    simp only [LoanBook.record, Function.update_self]
    omega
  · intro auction hstored hsame
    rw [hauction] at hstored
    have hle := hb.auctioned_le auction hstored
    simp only [LoanBook.record, Function.update_self] at hsame
    omega

/-- An auction keeps a copy of the stored loan. -/
theorem Booked.starting (hb : Booked book s borrower) (auction : AuctionRecord Addr)
    (hfound : s.loan borrower = some auction.loan) (hloan : t.loan = s.loan)
    (hauction : t.liquidationAuction borrower = some auction) :
    Booked (book.record (.startLiquidationAuction borrower)) t borrower := by
  constructor
  · exact hb.closed_le
  · exact hb.stored_le
  · rw [hloan]
    exact hb.repaid_iff
  · intro other _
    simp only [LoanBook.record, Function.update_self]
    exact hb.stored_le
  · intro other hother _
    obtain rfl := Option.some.inj (hauction.symm.trans hother)
    exact ⟨auction.loan, by rw [hloan, hfound], rfl⟩

/-- The copy that an auction kept takes the place of what is stored. -/
theorem Booked.executing (hb : Booked book s borrower) {auction : AuctionRecord Addr}
    {liquidator : Addr} (hfound : s.liquidationAuction borrower = some auction)
    (hloan : t.loan borrower = some auction.loan.close)
    (hauction : t.liquidationAuction borrower = none) :
    Booked (book.record (.executeLiquidation liquidator borrower)) t borrower := by
  constructor
  · intro k hk
    rcases List.mem_cons.mp hk with heq | hbefore
    · rw [(Prod.mk.inj heq).2]
      exact hb.auctioned_le auction hfound
    · exact hb.closed_le k hbefore
  · simp only [LoanBook.record, Function.update_self]
    exact hb.auctioned_le auction hfound
  · intro later hlater
    obtain rfl := Option.some.inj (hloan.symm.trans hlater)
    simp only [LoanBook.record, Function.update_self, List.mem_cons_self, iff_true]
    rfl
  · intro other hother
    rw [hauction] at hother
    cases hother
  · intro other hother
    rw [hauction] at hother
    cases hother

/-- A call about another borrower. -/
theorem Booked.other (hb : Booked book s borrower) (h : Effect inv s t call)
    (hother : call.loanOf ≠ some borrower) : Booked (book.record call) t borrower := by
  rcases h.loan_other hother with ⟨hloan, hauction⟩
  rcases book.record_other hother with ⟨hborrowed, hstored, hauctioned, hclosed⟩
  constructor
  · simp only [hclosed, hborrowed]
    exact hb.closed_le
  · rw [hstored, hborrowed]
    exact hb.stored_le
  · simp only [hloan, hclosed, hstored]
    exact hb.repaid_iff
  · rw [hauction, hauctioned, hborrowed]
    exact hb.auctioned_le
  · rw [hloan, hauction, hauctioned, hstored]
    exact hb.copy

/-- The book keeps to what is stored. -/
theorem Booked.of_effect (hb : Booked book s borrower) (h : Effect inv s t call) :
    Booked (book.record call) t borrower := by
  by_cases hown : call.loanOf = some borrower
  · cases h with
    | @borrowed borrower amount sessionId loan _ _ _ _ _ _ _ unpaid _ eq =>
      obtain rfl := Option.some.inj hown
      exact hb.lending unpaid (by rw [eq]; exact Function.update_self ..) (by rw [eq])
    | @repaid borrower amount loan found unpaid _ _ eq =>
      obtain rfl := Option.some.inj hown
      exact hb.closing found (by rw [eq]; exact Function.update_self ..)
        fun auction hstored => by rwa [eq] at hstored
    | @liquidated borrower loan found unpaid eq =>
      obtain rfl := Option.some.inj hown
      exact hb.closing found (by rw [eq]; exact Function.update_self ..)
        fun auction hstored => by rwa [eq] at hstored
    | @forceLiquidated admin borrower loan found unpaid eq =>
      obtain rfl := Option.some.inj hown
      refine hb.closing found (by rw [eq]; exact Function.update_self ..) ?_
      intro auction hstored
      rw [eq] at hstored
      simp only [Function.update_self, reduceCtorEq] at hstored
    | @auctionStarted borrower loan found unpaid _ _ eq =>
      obtain rfl := Option.some.inj hown
      exact hb.starting ⟨loan, inv.timestamp, 0, none⟩ found (by rw [eq])
        (by rw [eq]; exact Function.update_self ..)
    | @auctionExecuted liquidator borrower auction payment found _ _ eq =>
      obtain rfl := Option.some.inj hown
      exact hb.executing found (by rw [eq]; exact Function.update_self ..)
        (by rw [eq]; exact Function.update_self ..)
    | _ => cases hown
  · exact hb.other h hown

/-- What one call does to an auction that nothing has disturbed so far. -/
theorem Effect.undisturbed_iff (h : Effect inv s t call) (hb : Booked book s borrower)
    {undisturbed : Prop}
    (hpre : ∀ auction, s.liquidationAuction borrower = some auction →
      (undisturbed ↔ book.stored borrower = book.auctioned borrower ∧
        (borrower, book.stored borrower) ∉ book.closed))
    {auction : AuctionRecord Addr} (hauction : t.liquidationAuction borrower = some auction) :
    (StartsAuction borrower (inv, call) ∨
      (¬ TouchesLoan borrower (inv, call) ∧ undisturbed)) ↔
      (book.record call).stored borrower = (book.record call).auctioned borrower ∧
        (borrower, (book.record call).stored borrower) ∉ (book.record call).closed := by
  have htouched : ¬ StartsAuction borrower (inv, call) → TouchesLoan borrower (inv, call) →
      ¬ ((book.record call).stored borrower = (book.record call).auctioned borrower ∧
        (borrower, (book.record call).stored borrower) ∉ (book.record call).closed) →
      ((StartsAuction borrower (inv, call) ∨
        (¬ TouchesLoan borrower (inv, call) ∧ undisturbed)) ↔
        (book.record call).stored borrower = (book.record call).auctioned borrower ∧
          (borrower, (book.record call).stored borrower) ∉ (book.record call).closed) := by
    intro hstarts htouches hdisturbed
    apply iff_of_false _ hdisturbed
    rintro (hstarts' | ⟨huntouched, -⟩)
    · exact hstarts hstarts'
    · exact huntouched htouches
  by_cases hown : call.loanOf = some borrower
  · cases h with
    | @borrowed borrower amount sessionId loan _ _ _ _ _ _ _ unpaid _ eq =>
      obtain rfl := Option.some.inj hown
      rw [eq] at hauction
      have hle := hb.auctioned_le auction hauction
      refine htouched (fun hstarts => nomatch hstarts) rfl ?_
      rintro ⟨hsame, -⟩
      simp only [LoanBook.record, Function.update_self] at hsame
      omega
    | @repaid borrower amount loan found unpaid _ _ eq =>
      obtain rfl := Option.some.inj hown
      exact htouched (fun hstarts => nomatch hstarts) rfl fun hopen => hopen.2 List.mem_cons_self
    | @liquidated borrower loan found unpaid eq =>
      obtain rfl := Option.some.inj hown
      exact htouched (fun hstarts => nomatch hstarts) rfl fun hopen => hopen.2 List.mem_cons_self
    | @auctionStarted borrower loan found unpaid _ _ eq =>
      obtain rfl := Option.some.inj hown
      refine iff_of_true (.inl rfl) ⟨?_, ?_⟩
      · simp only [LoanBook.record, Function.update_self]
      · intro hclosed
        rw [(hb.repaid_iff loan found).mpr hclosed] at unpaid
        cases unpaid
    | @auctionExecuted liquidator borrower executed payment found _ _ eq =>
      obtain rfl := Option.some.inj hown
      rw [eq] at hauction
      simp only [Function.update_self, reduceCtorEq] at hauction
    | @forceLiquidated admin borrower loan found unpaid eq =>
      obtain rfl := Option.some.inj hown
      rw [eq] at hauction
      simp only [Function.update_self, reduceCtorEq] at hauction
    | _ => cases hown
  · rcases book.record_other hown with ⟨-, hstored, hauctioned, hclosed⟩
    rw [(h.loan_other hown).2] at hauction
    rw [hstored, hauctioned, hclosed, ← hpre auction hauction]
    have hstarts : ¬ StartsAuction borrower (inv, call) := by
      intro hstarts
      exact hown (congrArg Call.loanOf hstarts)
    have huntouched : ¬ TouchesLoan borrower (inv, call) := by
      intro htouches
      cases call with
      | borrow b | repay b | liquidate b => exact hown (congrArg some htouches)
      | _ => exact htouches
    simp only [hstarts, huntouched, false_or, not_false_eq_true, true_and]

/-- A call closes no loan again, unless it executes an auction. -/
theorem Effect.closed_nodup (h : Effect inv s t call) (hb : ∀ borrower, Booked book s borrower)
    (hnodup : book.closed.Nodup)
    (hexecute : ∀ liquidator borrower, call = .executeLiquidation liquidator borrower →
      (borrower, book.auctioned borrower) ∉ book.closed) :
    (book.record call).closed.Nodup := by
  have hopen : ∀ borrower loan, s.loan borrower = some loan → loan.repaid = false →
      (borrower, book.stored borrower) ∉ book.closed := by
    intro borrower loan hfound hunpaid hclosed
    rw [((hb borrower).repaid_iff loan hfound).mpr hclosed] at hunpaid
    cases hunpaid
  cases h with
  | @repaid borrower amount loan found unpaid _ _ eq =>
    exact List.nodup_cons.mpr ⟨hopen borrower loan found unpaid, hnodup⟩
  | @liquidated borrower loan found unpaid eq =>
    exact List.nodup_cons.mpr ⟨hopen borrower loan found unpaid, hnodup⟩
  | @forceLiquidated admin borrower loan found unpaid eq =>
    exact List.nodup_cons.mpr ⟨hopen borrower loan found unpaid, hnodup⟩
  | @auctionExecuted liquidator borrower auction payment found _ _ eq =>
    exact List.nodup_cons.mpr ⟨hexecute liquidator borrower rfl, hnodup⟩
  | _ => exact hnodup

end Steps

section Runs

variable {balance : Addr → Addr → ℕ} {steps : List (Step Addr home)} {step : Step Addr home}
  {t : State Addr} {borrower : Addr}

theorem loanBook_snoc_ok
    (h : (machine home).exec step ((machine home).run (deployed balance) steps) = .ok t) :
    loanBook balance (steps ++ [step]) = (loanBook balance steps).record step.2 := by
  rw [loanBook, Machine.collect_snoc_ok h, List.foldl_append]
  rfl

theorem loanBook_snoc_error {e : Trap}
    (h : (machine home).exec step ((machine home).run (deployed balance) steps) = .error e) :
    loanBook balance (steps ++ [step]) = loanBook balance steps := by
  rw [loanBook, Machine.collect_snoc_error h]
  rfl

theorem run_booked (balance : Addr → Addr → ℕ) (steps : List (Step Addr home))
    (borrower : Addr) :
    Booked (loanBook balance steps) ((machine home).run (deployed balance) steps) borrower := by
  refine Machine.run_history (M := machine home) (s := deployed balance)
    (P := fun pre s => Booked (loanBook balance pre) s borrower) ?_ ?_ ?_ steps
  · constructor
    · intro k hk
      cases hk
    · exact le_rfl
    · intro loan hloan
      cases hloan
    · intro auction hauction
      cases hauction
    · intro auction hauction
      cases hauction
  · intro pre step t hpre hx
    rw [loanBook_snoc_ok hx]
    exact hpre.of_effect (exec_effect hx)
  · intro pre step e hpre hx
    rw [loanBook_snoc_error hx]
    exact hpre

/-- Since the start of the auction that is stored, nothing was done to the loan, exactly if the
stored loan is the auctioned one and not closed. -/
theorem run_undisturbed (balance : Addr → Addr → ℕ) (steps : List (Step Addr home))
    (borrower : Addr) : ∀ auction,
    ((machine home).run (deployed balance) steps).liquidationAuction borrower = some auction →
    ((machine home).SwitchedOn (StartsAuction borrower) (TouchesLoan borrower)
      (deployed balance) steps ↔
      (loanBook balance steps).stored borrower = (loanBook balance steps).auctioned borrower ∧
      (borrower, (loanBook balance steps).stored borrower) ∉
        (loanBook balance steps).closed) := by
  refine Machine.run_history (M := machine home) (s := deployed balance)
    (P := fun pre s => ∀ auction, s.liquidationAuction borrower = some auction →
      ((machine home).SwitchedOn (StartsAuction borrower) (TouchesLoan borrower)
        (deployed balance) pre ↔
        (loanBook balance pre).stored borrower = (loanBook balance pre).auctioned borrower ∧
        (borrower, (loanBook balance pre).stored borrower) ∉ (loanBook balance pre).closed))
    ?_ ?_ ?_ steps
  · intro auction hauction
    cases hauction
  · rintro pre ⟨inv, call⟩ t hpre hx auction hauction
    have hb := run_booked balance pre borrower
    have heffect : Effect inv _ t call := exec_effect hx
    rw [Machine.switchedOn_snoc_ok hx, loanBook_snoc_ok hx]
    exact heffect.undisturbed_iff hb hpre hauction
  · intro pre step e hpre hx
    rw [Machine.switchedOn_snoc_error hx, loanBook_snoc_error hx]
    exact hpre

/-- Nothing is taken off the list of the closed loans. -/
theorem loanBook_closed_suffix {pre : List (Step Addr home)} (h : pre <+: steps) :
    (loanBook balance pre).closed <:+ (loanBook balance steps).closed := by
  have hcalls : ∀ (calls : List (Call Addr)) (book : LoanBook Addr),
      book.closed <:+ (calls.foldl LoanBook.record book).closed := by
    intro calls
    induction calls with
    | nil =>
      intro book
      exact List.suffix_rfl
    | cons call calls ih =>
      intro book
      refine List.IsSuffix.trans ?_ (ih (book.record call))
      cases call <;> simp [LoanBook.record]
  rcases h with ⟨post, rfl⟩
  rw [loanBook, loanBook, Machine.collect_append, List.foldl_append]
  exact hcalls _ _

/-- No loan is closed twice; and an auction that is executed closes the very loan for which it
was started, and touches no other record. -/
structure AuctionsExact (balance : Addr → Addr → ℕ) (steps : List (Step Addr home)) :
    Prop where
  once : (loanBook balance steps).closed.Nodup
  own : ∀ pre inv liquidator borrower t,
    (machine home).Executes (deployed balance) steps pre
      (inv, .executeLiquidation liquidator borrower) t →
    (loanBook balance pre).stored borrower = (loanBook balance pre).auctioned borrower ∧
      ∃ loan, ((machine home).run (deployed balance) pre).loan borrower = some loan ∧
        t.loan = Function.update ((machine home).run (deployed balance) pre).loan borrower
          (some loan.close)

/-- The auctions are exact if and only if, whenever one is executed, no borrow, repay or
liquidate was executed for its borrower since it was started. -/
theorem auctionsExact_iff (balance : Addr → Addr → ℕ) (steps : List (Step Addr home)) :
    AuctionsExact balance steps ↔ ∀ pre inv liquidator borrower t,
      (machine home).Executes (deployed balance) steps pre
        (inv, .executeLiquidation liquidator borrower) t →
      (machine home).SwitchedOn (StartsAuction borrower) (TouchesLoan borrower)
        (deployed balance) pre := by
  constructor
  · rintro ⟨honce, hown⟩ pre inv liquidator borrower t hx
    have heffect : Effect inv _ t (.executeLiquidation liquidator borrower) :=
      exec_effect hx.exec_eq
    cases heffect with
    | @auctionExecuted _ _ auction payment found _ _ eq =>
      rw [run_undisturbed balance pre borrower auction found]
      have hsame := (hown pre inv liquidator borrower t hx).1
      refine ⟨hsame, ?_⟩
      have hnodup := honce.sublist (loanBook_closed_suffix hx.snoc_prefix).sublist
      rw [loanBook_snoc_ok hx.exec_eq] at hnodup
      rw [hsame]
      exact (List.nodup_cons.mp hnodup).1
  · intro hall
    have hundisturbed : ∀ pre inv liquidator borrower t,
        (machine home).Executes (deployed balance) steps pre
          (inv, .executeLiquidation liquidator borrower) t →
        (loanBook balance pre).stored borrower = (loanBook balance pre).auctioned borrower ∧
          (borrower, (loanBook balance pre).stored borrower) ∉
            (loanBook balance pre).closed := by
      intro pre inv liquidator borrower t hx
      have heffect : Effect inv _ t (.executeLiquidation liquidator borrower) :=
        exec_effect hx.exec_eq
      cases heffect with
      | @auctionExecuted _ _ auction payment found _ _ eq =>
        exact (run_undisturbed balance pre borrower auction found).mp
          (hall pre inv liquidator borrower t hx)
    constructor
    · refine Machine.run_history_of_executes (M := machine home) (s := deployed balance)
        (P := fun pre _ => (loanBook balance pre).closed.Nodup) List.nodup_nil ?_ ?_ steps
        List.prefix_rfl
      · rintro pre ⟨inv, call⟩ t hx hpre
        rw [loanBook_snoc_ok hx.exec_eq]
        refine Effect.closed_nodup (exec_effect hx.exec_eq) (run_booked balance pre) hpre ?_
        rintro liquidator borrower rfl
        rcases hundisturbed pre inv liquidator borrower t hx with ⟨hsame, hopen⟩
        rwa [hsame] at hopen
      · intro pre step e hpre hx
        rw [loanBook_snoc_error hx]
        exact hpre
    · intro pre inv liquidator borrower t hx
      have hsame := (hundisturbed pre inv liquidator borrower t hx).1
      refine ⟨hsame, ?_⟩
      have heffect : Effect inv _ t (.executeLiquidation liquidator borrower) :=
        exec_effect hx.exec_eq
      cases heffect with
      | @auctionExecuted _ _ auction payment found _ _ eq =>
        rcases (run_booked balance pre borrower).copy auction found hsame with
          ⟨loan, hloan, hcopy⟩
        exact ⟨loan, hloan, by rw [hcopy, eq]⟩

end Runs

/-- 4 borrows 50 of the pool, 30 days pass and an auction is started; 4 repays after all, and 5
pays for the loan again. -/
def repaidRun : List (Step ℕ 0) :=
  lentRun ++
    [(grantedAt (liquidationSeconds + 1) 2, .startLiquidationAuction 4),
      (grantedAt (liquidationSeconds + 1) 2, .repay 4 50),
      (grantedAt (liquidationSeconds + 1) 2, .executeLiquidation 5 4)]

/-- The first loan of 4 is closed twice, for two payments of 50. -/
theorem repaidRun_not_exact :
    (loanBook poolFunds repaidRun).closed = [(4, 1), (4, 1)] ∧
      ((machine 0).run (deployed poolFunds) repaidRun).totalLiquidity = 1050 ∧
      ¬ AuctionsExact poolFunds repaidRun := by
  have hclosed : (loanBook poolFunds repaidRun).closed = [(4, 1), (4, 1)] := by decide +kernel
  refine ⟨hclosed, by decide +kernel, ?_⟩
  intro hexact
  have honce := hexact.once
  rw [hclosed] at honce
  revert honce
  decide

end LendingPool
