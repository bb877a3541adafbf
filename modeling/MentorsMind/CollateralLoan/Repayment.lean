import MentorsMind.CollateralLoan.Custody

/-! What a repayment is for: it takes what is offered, up to the debt with its interest, and the
loan ends with the debt. Offers below the debt are refused. -/
namespace CollateralLoan
open Outcome Soroban Shared

variable {Addr : Type} [DecidableEq Addr] {home : Addr}

namespace Deployment

variable (d : Deployment Addr home)

/-- The payment of `paid` on the loan `l` of `borrower`, with `rest` still owed after it. -/
structure Repaid (now : ℕ) (s t : State Addr) (borrower : Addr) (l : Loan) (paid rest : ℤ) :
    Prop where
  debt : getCurrentDebt now t borrower = rest
  closed : rest = 0 →
    t.tokens.transfers = ⟨d.mnt, home, borrower, l.collateralAmount⟩ ::
      ⟨d.usdc, borrower, home, paid⟩ :: s.tokens.transfers ∧
    t.loan borrower = none ∧ t.collateralSlot borrower = none ∧
    ∀ i, t.collateralIndex i ≠ some borrower
  running : rest ≠ 0 →
    t.tokens.transfers = ⟨d.usdc, borrower, home, paid⟩ :: s.tokens.transfers ∧
    (∃ l', t.loan borrower = some l' ∧ l'.collateralAmount = l.collateralAmount) ∧
    (t.collateralSlot borrower).isSome

/-- A repayment of `amount` that nothing but the size of the debt can stand against: it is signed
and within the limits, the tokens would carry out what it comes to, and no counter is full. -/
structure Tenders (inv : Invocation Addr home) (s : State Addr) (borrower : Addr) (l : Loan)
    (amount : ℤ) : Prop where
  running : s.paused = false
  signed : inv.auth borrower = true
  positive : 0 < amount
  bounded : amount ≤ maxFinancialAmount
  found : s.loan borrower = some l
  payable : ∃ paid, s.tokens.transfer inv.accepts d.usdc borrower home
      (min amount (l.currentDebt inv.timestamp)) = .ok paid ∧
    (l.currentDebt inv.timestamp ≤ amount →
      ∃ left, paid.transfer inv.accepts d.mnt home borrower l.collateralAmount = .ok left)
  vault : FitsI128 (s.accruedInterestVault + (l.currentDebt inv.timestamp - l.debtAmount))
  snapshots : s.nextCollateralSnapshotId + 1 < 2 ^ 32

/-- Every repayment of the run takes what is offered up to the debt, lowers the debt by that, and
closes the loan exactly when nothing is left of it. -/
def RepaymentLaw (steps : List (Step Addr home)) : Prop :=
  ∀ pre inv borrower amount, pre ++ [(inv, .repayLoan borrower amount)] <+: steps →
    ∀ l, d.Tenders inv (d.reached pre) borrower l amount →
      ∃ t, repayLoan inv (d.reached pre) borrower amount = .ok t ∧
        d.Repaid inv.timestamp (d.reached pre) t borrower l
          (min amount (l.currentDebt inv.timestamp))
          (l.currentDebt inv.timestamp - min amount (l.currentDebt inv.timestamp))

/-- No repayment of the run offers less than the debt with its interest. -/
def RepaidInFull (steps : List (Step Addr home)) : Prop :=
  ∀ pre inv borrower amount, pre ++ [(inv, .repayLoan borrower amount)] <+: steps →
    ∀ l, d.Tenders inv (d.reached pre) borrower l amount →
      l.currentDebt inv.timestamp ≤ amount

variable {d} {inv : Invocation Addr home} {s t : State Addr} {borrower : Addr} {l : Loan}
  {amount : ℤ}

omit [DecidableEq Addr] in
theorem getCurrentDebt_of_loan {now : ℕ} (hl : s.loan borrower = some l) :
    getCurrentDebt now s borrower = l.currentDebt now := by
  rw [getCurrentDebt, hl]

/-- The last steps of a repayment go through if the snapshots can count on. -/
theorem close_isOk (borrower : Addr) {u : State Addr} (hcounter : u.nextCollateralSnapshotId + 1 < 2 ^ 32) :
    ∃ t, recordSnapshotIndex (deindexPosition (setLoan u borrower none) borrower) = .ok t := by
  obtain ⟨positions, hpositions, -⟩ := deindexPosition_eq (setLoan u borrower none) borrower
  rw [hpositions]
  simp only [recordSnapshotIndex, bind_eq_ok, checkedU32_eq_ok, pure_eq_ok]
  exact ⟨_, _, ⟨hcounter, rfl⟩, rfl⟩

omit [DecidableEq Addr] in
theorem addInterest_isOk {interest : ℤ} (hvault : FitsI128 (s.accruedInterestVault + interest)) :
    ∃ vault, addInterest s interest = .ok { s with accruedInterestVault := vault } := by
  unfold addInterest
  split_ifs
  · simp only [bind_eq_ok, checkedI128_eq_ok, pure_eq_ok]
    exact ⟨_, _, ⟨hvault, rfl⟩, rfl⟩
  · exact ⟨s.accruedInterestVault, rfl⟩

/-- An offer of the whole debt is accepted. -/
theorem Tenders.isOk (hs : d.Kept s) (h : d.Tenders inv s borrower l amount)
    (hle : l.currentDebt inv.timestamp ≤ amount) :
    ∃ t, repayLoan inv s borrower amount = .ok t := by
  have hl := hs.indexed.admissible borrower l h.found
  have hinterest : FitsI128 (l.currentDebt inv.timestamp - l.debtAmount) := by
    have hgrown := hl.debt_le_currentDebt inv.timestamp
    have hdebt := hl.debt
    have hmax := h.bounded
    unfold maxFinancialAmount at hmax
    unfold FitsI128
    omega
  obtain ⟨paid, hpaid, hreturn⟩ := h.payable
  obtain ⟨left, hleft⟩ := hreturn hle
  rw [min_eq_right hle] at hpaid
  obtain ⟨vault, hvault⟩ := addInterest_isOk (s := { s with tokens := paid }) h.vault
  obtain ⟨t, ht⟩ := close_isOk borrower
    (u := { s with accruedInterestVault := vault, tokens := left }) h.snapshots
  simp only [repayLoan, requireNotPausedLocal, requireInitialized, transfer, bind_eq_ok,
    require_eq_ok, requireAuth_eq_ok, requireAmount_eq_ok, expect_eq_ok, i128_eq_ok, pure_eq_ok,
    exists_const, getCurrentDebt_of_loan h.found]
  exact ⟨t, h.running, hs.initialized, h.signed, ⟨h.positive, h.bounded⟩, l, h.found, hl.debt, _,
    ⟨hinterest, rfl⟩, hle, d.usdc, hs.usdcToken, _, ⟨paid, hpaid, rfl⟩, _, hvault, d.mnt,
    hs.mntToken, _, ⟨left, hleft, rfl⟩, ht⟩

/-- What an accepted offer does. -/
theorem Kept.repaid (hs : d.Kept s) (hloan : s.loan borrower = some l)
    (h : repayLoan inv s borrower amount = .ok t) :
    l.currentDebt inv.timestamp ≤ amount ∧
      d.Repaid inv.timestamp s t borrower l (l.currentDebt inv.timestamp) 0 := by
  obtain ⟨k, mnt, usdc, paid, -, hk, hmnt, husdc, hle, hpaid, hreturned, hclosed, hdelisted, -⟩ :=
    repayLoan_eq_ok h
  obtain rfl := Option.some.inj (hk.symm.trans hloan)
  obtain rfl := Option.some.inj (hmnt.symm.trans hs.mntToken)
  obtain rfl := Option.some.inj (husdc.symm.trans hs.usdcToken)
  rw [getCurrentDebt_of_loan hk] at hle hpaid
  have hgone : t.loan borrower = none := by rw [hclosed, Function.update_self]
  have hlisted : (s.collateralSlot borrower).isSome := by
    rw [hs.indexed.listed borrower, hk]
    rfl
  obtain ⟨hsound, hslots⟩ := hdelisted hs.indexed.sound hlisted
  have hslot : t.collateralSlot borrower = none := by
    rw [← Option.not_isSome_iff_eq_none, hslots borrower]
    intro hkept
    exact hkept.1 rfl
  refine ⟨hle, ?_, ?_, ?_⟩
  · rw [getCurrentDebt, hgone]
  · intro _
    refine ⟨?_, hgone, hslot, ?_⟩
    · obtain ⟨-, -, htaken⟩ := Tokens.transfer_eq_ok hpaid
      obtain ⟨-, -, hleft⟩ := Tokens.transfer_eq_ok hreturned
      rw [hleft, htaken]
    · intro i hi
      have hentry : t.collateralSlot borrower = some i := (hsound.entry_iff i borrower).mp hi
      rw [hslot] at hentry
      cases hentry
  · intro hrest
    exact absurd rfl hrest

/-- One repayment follows the law exactly if it offers the whole debt. -/
theorem Tenders.followed_iff (hs : d.Kept s) (h : d.Tenders inv s borrower l amount) :
    (∃ t, repayLoan inv s borrower amount = .ok t ∧
      d.Repaid inv.timestamp s t borrower l (min amount (l.currentDebt inv.timestamp))
        (l.currentDebt inv.timestamp - min amount (l.currentDebt inv.timestamp))) ↔
      l.currentDebt inv.timestamp ≤ amount := by
  constructor
  · rintro ⟨t, ht, -⟩
    exact (hs.repaid h.found ht).1
  · intro hle
    obtain ⟨t, ht⟩ := h.isOk hs hle
    refine ⟨t, ht, ?_⟩
    rw [min_eq_right hle, sub_self]
    exact (hs.repaid h.found ht).2

variable (d)

theorem repaymentLaw_iff (steps : List (Step Addr home)) :
    d.RepaymentLaw steps ↔ d.RepaidInFull steps := by
  constructor
  · intro hlaw pre inv borrower amount hpre l htenders
    exact (htenders.followed_iff (d.reached_kept pre)).mp (hlaw pre inv borrower amount hpre l htenders)
  · intro hfull pre inv borrower amount hpre l htenders
    exact (htenders.followed_iff (d.reached_kept pre)).mpr
      (hfull pre inv borrower amount hpre l htenders)

end Deployment

/-- A loan of 120, of which the borrower offers 20 back at once. -/
def partRepaid : List (Step ℕ 0) :=
  [(quoted 0 20000, .openLoan 7 100 120), (quoted 0 20000, .repayLoan 7 20)]

theorem partial_repayment_refused : ∃ d : Deployment ℕ 0,
    d.Tenders (quoted 0 20000) (d.reached (partRepaid.take 1)) 7 ⟨100, 120, 0, 1000⟩ 20 ∧
      (∀ t, repayLoan (quoted 0 20000) (d.reached (partRepaid.take 1)) 7 20 ≠ .ok t) ∧
      ¬ d.RepaymentLaw partRepaid := by
  let d : Deployment ℕ 0 := ⟨funded, quoted 0 20000, 1, 2, 3, 4, "MNT", _, rfl⟩
  obtain ⟨paid, hpaid⟩ : ∃ paid, (d.reached (partRepaid.take 1)).tokens.transfer
      (quoted 0 20000).accepts d.usdc 7 0 (min 20 120) = .ok paid :=
    Tokens.transfer_isOk_iff.mpr ⟨by decide, by decide +kernel, rfl⟩
  have hdebt : Loan.currentDebt ⟨100, 120, 0, 1000⟩ 0 = 120 := by decide +kernel
  have htenders : d.Tenders (quoted 0 20000) (d.reached (partRepaid.take 1)) 7
      ⟨100, 120, 0, 1000⟩ 20 := by
    refine ⟨rfl, rfl, by decide, by decide, rfl, ⟨paid, ?_, ?_⟩, by decide +kernel, by decide⟩
    · show Tokens.transfer _ _ _ _ _ (min 20 (Loan.currentDebt _ 0)) = _
      rw [hdebt]
      exact hpaid
    · show Loan.currentDebt _ 0 ≤ 20 → _
      rw [hdebt]
      intro hle
      exact absurd hle (by decide)
  have hrefused : ∀ t, repayLoan (quoted 0 20000) (d.reached (partRepaid.take 1)) 7 20 ≠ .ok t := by
    intro t ht
    obtain ⟨hle, -⟩ := (d.reached_kept (partRepaid.take 1)).repaid htenders.found ht
    rw [show Loan.currentDebt _ (quoted 0 20000).timestamp = 120 from hdebt] at hle
    exact absurd hle (by decide)
  refine ⟨d, htenders, hrefused, ?_⟩
  intro hlaw
  obtain ⟨t, ht, -⟩ := hlaw (partRepaid.take 1) (quoted 0 20000) 7 20 List.prefix_rfl
    ⟨100, 120, 0, 1000⟩ htenders
  exact hrefused t ht

end CollateralLoan
