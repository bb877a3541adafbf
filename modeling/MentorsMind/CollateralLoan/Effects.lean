import MentorsMind.CollateralLoan.Contract
import MentorsMind.Lib.DenseIndex

/-! What a successful call does to the loans, to the index over the borrowers and to the collateral
that the contract holds. -/
namespace CollateralLoan
open Outcome Soroban Shared

variable {Addr : Type} {self : Addr} {inv : Invocation Addr self} {s t : State Addr}

def State.positions (s : State Addr) : DenseIndex Addr where
  entry := s.collateralIndex
  position := s.collateralSlot
  count := s.collateralCount

/-- The tokens are still the ones that `initialize` named. -/
structure SameTerms (s t : State Addr) : Prop where
  admin : t.admin = s.admin
  mntToken : t.mntToken = s.mntToken
  usdcToken : t.usdcToken = s.usdcToken

/-- What `home` holds in the collateral token grows by `amount` at least, or shrinks by no more than
that. -/
def Gains (home : Addr) (s t : State Addr) (amount : ℤ) : Prop :=
  ∀ mnt, s.mntToken = some mnt → s.usdcToken ≠ some mnt →
    s.tokens.balance mnt home + amount ≤ t.tokens.balance mnt home

/-- The index of `t` lists the borrowers of `s` but `owner`. -/
def Delisted (s t : State Addr) (owner : Addr) : Prop :=
  s.positions.Sound → (s.collateralSlot owner).isSome →
    t.positions.Sound ∧
      ∀ a, (t.collateralSlot a).isSome ↔ a ≠ owner ∧ (s.collateralSlot a).isSome

theorem Gains.of_tokens_eq {home : Addr} (h : t.tokens = s.tokens) : Gains home s t 0 := by
  intro mnt _ _
  rw [h, add_zero]

theorem requireAmount_eq_ok {amount : ℤ} {v : Unit} :
    requireAmount amount = .ok v ↔ 0 < amount ∧ amount ≤ maxFinancialAmount := by
  simp [requireAmount]

section Helpers

variable [DecidableEq Addr]

theorem transfer_eq_ok {token source recipient : Addr} {amount : ℤ}
    (h : transfer inv s token source recipient amount = .ok t) :
    ∃ tokens, s.tokens.transfer inv.accepts token source recipient amount = .ok tokens ∧
      t = { s with tokens := tokens } := by
  simp only [transfer, bind_eq_ok, pure_eq_ok] at h
  obtain ⟨tokens, htokens, rfl⟩ := h
  exact ⟨tokens, htokens, rfl⟩

omit [DecidableEq Addr] in
theorem recordSnapshotIndex_eq_ok (h : recordSnapshotIndex s = .ok t) :
    t = { s with nextCollateralSnapshotId := s.nextCollateralSnapshotId + 1 } := by
  simp only [recordSnapshotIndex, bind_eq_ok, checkedU32_eq_ok, pure_eq_ok] at h
  obtain ⟨next, ⟨-, rfl⟩, rfl⟩ := h
  rfl

theorem indexPosition_eq_ok {owner : Addr} (h : indexPosition s owner = .ok t) :
    t = { s with
      collateralIndex := (s.positions.push owner).entry
      collateralSlot := (s.positions.push owner).position
      collateralCount := (s.positions.push owner).count } := by
  simp only [indexPosition, bind_eq_ok, u32_eq_ok, pure_eq_ok] at h
  obtain ⟨count, ⟨-, rfl⟩, rfl⟩ := h
  rfl

/-- Only the index changes, and it loses `owner` if it lists it. -/
theorem deindexPosition_eq (s : State Addr) (owner : Addr) : ∃ d : DenseIndex Addr,
    deindexPosition s owner = { s with
      collateralIndex := d.entry
      collateralSlot := d.position
      collateralCount := d.count } ∧
    (s.positions.Sound → ∀ k, s.collateralSlot owner = some k → ∃ last,
      s.positions.entry (s.positions.count - 1) = some last ∧
        d = s.positions.swapRemove owner last k) := by
  refine ⟨(deindexPosition s owner).positions, ?_, ?_⟩
  · unfold deindexPosition moveLast
    split_ifs
    · rfl
    · cases s.collateralSlot owner with
      | none => rfl
      | some slot =>
        dsimp only
        split_ifs
        · rfl
        · cases s.collateralIndex (s.collateralCount - 1) with
          | none => rfl
          | some moved => rfl
  · intro hsound k hk
    have hlt : k < s.collateralCount := hsound.lt_count hk
    have hentry : s.collateralIndex k = some owner := (hsound.entry_iff k owner).mpr hk
    unfold deindexPosition moveLast
    simp only [hk]
    rw [if_neg (by omega)]
    by_cases hlast : k = s.collateralCount - 1
    · refine ⟨owner, by rw [← hentry, hlast]; rfl, ?_⟩
      rw [if_pos hlast]
      simp only [State.positions, DenseIndex.swapRemove, ← hlast, Function.update_idem]
    · have htaken : (s.positions.entry (s.positions.count - 1)).isSome :=
        (hsound.isSome_iff _).mpr (Nat.sub_lt (Nat.zero_lt_of_lt hlt) Nat.one_pos)
      obtain ⟨last, hlastEntry⟩ := Option.isSome_iff_exists.mp htaken
      refine ⟨last, hlastEntry, ?_⟩
      have hfound : s.collateralIndex (s.collateralCount - 1) = some last := hlastEntry
      rw [if_neg hlast, hfound]
      rfl

/-- What the removal of `owner` from the index leaves alone. -/
theorem deindexPosition_frame (s : State Addr) (owner : Addr) :
    (deindexPosition s owner).loan = s.loan ∧ (deindexPosition s owner).tokens = s.tokens ∧
      SameTerms s (deindexPosition s owner) := by
  obtain ⟨d, hd, -⟩ := deindexPosition_eq s owner
  rw [hd]
  exact ⟨rfl, rfl, rfl, rfl, rfl⟩

theorem deindexPosition_delisted (s : State Addr) (owner : Addr) :
    Delisted s (deindexPosition s owner) owner := by
  intro hsound hlisted
  obtain ⟨k, hk⟩ := Option.isSome_iff_exists.mp hlisted
  obtain ⟨d, hd, hremoved⟩ := deindexPosition_eq s owner
  obtain ⟨last, hlast, rfl⟩ := hremoved hsound k hk
  rw [hd]
  constructor
  · exact hsound.swapRemove hk hlast
  · intro a
    exact hsound.swapRemove_isSome hlast

omit [DecidableEq Addr] in
theorem addInterest_eq_ok {interest : ℤ} (h : addInterest s interest = .ok t) :
    ∃ vault, t = { s with accruedInterestVault := vault } := by
  unfold addInterest at h
  split_ifs at h with hpos
  · simp only [bind_eq_ok, checkedI128_eq_ok, pure_eq_ok] at h
    obtain ⟨vault, -, rfl⟩ := h
    exact ⟨vault, rfl⟩
  · rw [pure_eq_ok] at h
    exact ⟨s.accruedInterestVault, h.symm⟩

/-- The fee is paid out of the collateral, if it is positive. -/
theorem payProtocolFee_eq_ok {mnt : Addr} {fee : ℤ} (hfee : 0 ≤ fee)
    (h : payProtocolFee inv s mnt fee = .ok t) :
    ∃ tokens, t = { s with tokens := tokens } ∧
      Tokens.Flow self mnt 0 fee s.tokens tokens := by
  simp only [payProtocolFee, bind_eq_ok, expect_eq_ok] at h
  obtain ⟨admin, -, h⟩ := h
  split_ifs at h with hpos
  · obtain ⟨tokens, htokens, rfl⟩ := transfer_eq_ok h
    exact ⟨tokens, rfl, Tokens.transfer_flow_out htokens⟩
  · obtain rfl : fee = 0 := le_antisymm (not_lt.mp hpos) hfee
    rw [pure_eq_ok] at h
    exact ⟨s.tokens, h.symm, Tokens.Flow.refl self mnt s.tokens⟩

end Helpers

section Debts

/-- What holds of every loan that is opened: it is backed and owes something, within the limits. -/
structure Loan.Admissible (l : Loan) : Prop where
  collateral : 0 < l.collateralAmount
  debt : 0 < l.debtAmount
  bounded : l.debtAmount ≤ maxFinancialAmount

theorem mulOrZero_nonneg {a b : ℤ} (ha : 0 ≤ a) (hb : 0 ≤ b) : 0 ≤ mulOrZero a b := by
  unfold mulOrZero
  split_ifs
  · exact mul_nonneg ha hb
  · exact le_rfl

/-- Interest only adds to a debt. -/
theorem Loan.Admissible.debt_le_currentDebt {l : Loan} (hl : l.Admissible) (now : ℕ) :
    l.debtAmount ≤ l.currentDebt now := by
  obtain ⟨-, hdebt, hbounded⟩ := hl
  have hinterest : 0 ≤ (mulOrZero (mulOrZero l.debtAmount l.interestRateBps)
      ((now - l.borrowedAt) / secondsPerDay : ℕ)).tdiv (365 * bpsDenominator) := by
    apply Int.tdiv_nonneg
    · exact mulOrZero_nonneg (mulOrZero_nonneg hdebt.le (Int.natCast_nonneg _))
        (Int.natCast_nonneg _)
    · decide
  unfold Loan.currentDebt
  rw [if_neg (not_le.mpr hdebt)]
  dsimp only
  split_ifs
  · omega
  · have hmax : maxFinancialAmount ≤ i128Max := by decide
    omega

end Debts

section Effects

/-- What a successful call does. -/
inductive Effect [DecidableEq Addr] (home : Addr) (s t : State Addr) : Prop where
  | kept (loan : t.loan = s.loan) (positions : t.positions = s.positions)
      (terms : s.admin.isSome → SameTerms s t) (gains : Gains home s t 0)
  | opened (borrower : Addr) (l : Loan) (fresh : s.loan borrower = none)
      (admissible : l.Admissible)
      (loan : t.loan = Function.update s.loan borrower (some l))
      (positions : t.positions = s.positions.push borrower)
      (terms : SameTerms s t) (gains : Gains home s t l.collateralAmount)
  | added (borrower : Addr) (l : Loan) (amount : ℤ) (found : s.loan borrower = some l)
      (positive : 0 < amount)
      (loan : t.loan = Function.update s.loan borrower
        (some { l with collateralAmount := l.collateralAmount + amount }))
      (positions : t.positions = s.positions) (terms : SameTerms s t) (gains : Gains home s t amount)
  | closed (borrower : Addr) (l : Loan) (found : s.loan borrower = some l)
      (loan : t.loan = Function.update s.loan borrower none) (delisted : Delisted s t borrower)
      (terms : SameTerms s t) (gains : Gains home s t (-l.collateralAmount))

variable [DecidableEq Addr]

theorem openLoan_effect {borrower : Addr} {collateralAmount borrowAmount : ℤ}
    (h : openLoan inv s borrower collateralAmount borrowAmount = .ok t) : Effect self s t := by
  simp only [openLoan, bind_eq_ok, requireAuth_eq_ok, requireAmount_eq_ok, require_eq_ok,
    expect_eq_ok, Option.isNone_iff_eq_none] at h
  obtain ⟨-, -, -, -, -, hauth, -, ⟨hcollateral, -⟩, -, ⟨hborrow, hmax⟩, -, hfresh, -, -, -, -, -, -,
    mnt, hmnt, usdc, husdc, deposited, hdeposited, lent, hlent, indexed, hindexed, hrecorded⟩ := h
  obtain ⟨held, hheld, rfl⟩ := transfer_eq_ok hdeposited
  obtain ⟨left, hleft, rfl⟩ := transfer_eq_ok hlent
  obtain rfl := indexPosition_eq_ok hindexed
  obtain rfl := recordSnapshotIndex_eq_ok hrecorded
  have hin := Tokens.transfer_flow_in (Env.ne_self_of_auth hauth) hheld
  have hout := Tokens.transfer_flow_out hleft
  refine .opened borrower _ hfresh ⟨hcollateral, hborrow, hmax⟩ rfl rfl ⟨rfl, rfl, rfl⟩ ?_
  intro m hm hne
  obtain rfl := Option.some.inj (hmnt.symm.trans hm)
  have hdistinct : mnt ≠ usdc := by
    rintro rfl
    exact hne husdc
  have hstart := hin.le_balance
  have hend := hout.le_balance_of_ne hdistinct
  show s.tokens.balance mnt self + collateralAmount ≤ left.balance mnt self
  dsimp only at hend
  omega

theorem addCollateral_effect {borrower : Addr} {amount : ℤ}
    (h : addCollateral inv s borrower amount = .ok t) : Effect self s t := by
  simp only [addCollateral, bind_eq_ok, requireAuth_eq_ok, requireAmount_eq_ok, expect_eq_ok,
    checkedI128_eq_ok, pure_eq_ok] at h
  obtain ⟨-, -, -, hauth, -, ⟨hpos, -⟩, l, hl, mnt, hmnt, deposited, hdeposited, collateralAmount,
    ⟨-, rfl⟩, rfl⟩ := h
  obtain ⟨held, hheld, rfl⟩ := transfer_eq_ok hdeposited
  have hin := Tokens.transfer_flow_in (Env.ne_self_of_auth hauth) hheld
  refine .added borrower l amount hl hpos rfl rfl ⟨rfl, rfl, rfl⟩ ?_
  intro m hm _
  obtain rfl := Option.some.inj (hmnt.symm.trans hm)
  have hstart := hin.le_balance
  show s.tokens.balance mnt self + amount ≤ held.balance mnt self
  omega

/-- The end of a loan: the record goes, then the index entry, and the snapshots count on. -/
theorem close_eq_ok {borrower : Addr} {u : State Addr}
    (h : recordSnapshotIndex (deindexPosition (setLoan u borrower none) borrower) = .ok t)
    (hloan : u.loan = s.loan) (hpositions : u.positions = s.positions) (hterms : SameTerms s u) :
    t.loan = Function.update s.loan borrower none ∧ Delisted s t borrower ∧ SameTerms s t ∧
      t.tokens = u.tokens := by
  obtain ⟨hkept, htokens, hadmin, hmnt, husdc⟩ :=
    deindexPosition_frame (setLoan u borrower none) borrower
  have hdelisted := deindexPosition_delisted (setLoan u borrower none) borrower
  obtain rfl := recordSnapshotIndex_eq_ok h
  refine ⟨?_, ?_, ⟨?_, ?_, ?_⟩, htokens⟩
  · rw [← hloan]
    exact hkept
  · intro hsound hlisted
    have hslot : u.collateralSlot = s.collateralSlot := congrArg DenseIndex.position hpositions
    have hdone := hdelisted (hpositions ▸ hsound : u.positions.Sound)
    rw [← hslot] at hlisted ⊢
    exact hdone hlisted
  · exact hadmin.trans hterms.admin
  · exact hmnt.trans hterms.mntToken
  · exact husdc.trans hterms.usdcToken

/-- A repayment that goes through takes the whole debt and returns the whole collateral. -/
theorem repayLoan_eq_ok {borrower : Addr} {amount : ℤ}
    (h : repayLoan inv s borrower amount = .ok t) : ∃ l mnt usdc paid,
      inv.auth borrower = true ∧ s.loan borrower = some l ∧
      s.mntToken = some mnt ∧ s.usdcToken = some usdc ∧
      getCurrentDebt inv.timestamp s borrower ≤ amount ∧
      s.tokens.transfer inv.accepts usdc borrower self
        (getCurrentDebt inv.timestamp s borrower) = .ok paid ∧
      paid.transfer inv.accepts mnt self borrower l.collateralAmount = .ok t.tokens ∧
      t.loan = Function.update s.loan borrower none ∧ Delisted s t borrower ∧ SameTerms s t := by
  simp only [repayLoan, bind_eq_ok, requireAuth_eq_ok, require_eq_ok, expect_eq_ok] at h
  obtain ⟨-, -, -, -, -, hauth, -, -, l, hl, -, -, interest, -, -, hle, usdc, husdc, paid, hpaid, kept,
    hkept, mnt, hmnt, returned, hreturned, hclosed⟩ := h
  obtain ⟨taken, htaken, rfl⟩ := transfer_eq_ok hpaid
  obtain ⟨vault, rfl⟩ := addInterest_eq_ok hkept
  obtain ⟨left, hleft, rfl⟩ := transfer_eq_ok hreturned
  obtain ⟨hloan, hdelisted, hterms, htokens⟩ := close_eq_ok (s := s) hclosed rfl rfl ⟨rfl, rfl, rfl⟩
  refine ⟨l, mnt, usdc, taken, hauth, hl, hmnt, husdc, hle, htaken, ?_, hloan, hdelisted, hterms⟩
  rw [htokens]
  exact hleft

theorem repayLoan_effect {borrower : Addr} {amount : ℤ}
    (h : repayLoan inv s borrower amount = .ok t) : Effect self s t := by
  obtain ⟨l, mnt, usdc, paid, hauth, hl, hmnt, husdc, -, hpaid, hreturned, hloan, hdelisted,
    hterms⟩ := repayLoan_eq_ok h
  have hin := Tokens.transfer_flow_in (Env.ne_self_of_auth hauth) hpaid
  have hout := Tokens.transfer_flow_out hreturned
  refine .closed borrower l hl hloan hdelisted hterms ?_
  intro m hm hne
  obtain rfl := Option.some.inj (hmnt.symm.trans hm)
  have hdistinct : mnt ≠ usdc := by
    rintro rfl
    exact hne husdc
  have hstart := hin.le_balance_of_ne hdistinct
  have hend := hout.le_balance
  omega

theorem liquidate_effect {borrower liquidator : Addr}
    (hpositive : ∀ l, s.loan borrower = some l → 0 < l.collateralAmount)
    (h : liquidate inv s borrower liquidator = .ok t) : Effect self s t := by
  simp only [liquidate, bind_eq_ok, requireAuth_eq_ok, require_eq_ok, expect_eq_ok, i128_eq_ok,
    checkedI128_eq_ok] at h
  obtain ⟨-, -, -, -, -, hauth, l, hl, -, -, -, -, -, -, -, ⟨-, rfl⟩, -, ⟨-, rfl⟩, usdc, husdc, paid,
    hpaid, mnt, hmnt, seized, hseized, settled, hsettled, hclosed⟩ := h
  obtain ⟨taken, htaken, rfl⟩ := transfer_eq_ok hpaid
  obtain ⟨left, hleft, rfl⟩ := transfer_eq_ok hseized
  have hfee : 0 ≤ (l.collateralAmount * liquidatorBonusBps).tdiv bpsDenominator :=
    Int.tdiv_nonneg (mul_nonneg (hpositive l hl).le (by decide)) (by decide)
  obtain ⟨rest, rfl, hfeeOut⟩ := payProtocolFee_eq_ok hfee hsettled
  have hin := Tokens.transfer_flow_in (Env.ne_self_of_auth hauth) htaken
  have hout := Tokens.transfer_flow_out hleft
  obtain ⟨hloan, hdelisted, hterms, htokens⟩ := close_eq_ok (s := s) hclosed rfl rfl ⟨rfl, rfl, rfl⟩
  refine .closed borrower l hl hloan hdelisted hterms ?_
  intro m hm hne
  obtain rfl := Option.some.inj (hmnt.symm.trans hm)
  have hdistinct : mnt ≠ usdc := by
    rintro rfl
    exact hne husdc
  have hstart := hin.le_balance_of_ne hdistinct
  have hmiddle := hout.le_balance
  have hend := hfeeOut.le_balance
  rw [htokens]
  show s.tokens.balance mnt self + -l.collateralAmount ≤ rest.balance mnt self
  dsimp only at hmiddle hend
  omega

theorem exec_effect {call : Call Addr self}
    (hadmissible : ∀ borrower l, s.loan borrower = some l → l.Admissible)
    (h : exec inv call s = .ok t) : Effect self s t := by
  cases call with
  | initializeLoans admin mntToken usdcToken oracle mntAsset =>
    simp only [exec, initializeLoans, bind_eq_ok, require_eq_ok, pure_eq_ok] at h
    obtain ⟨-, hfresh, -, -, rfl⟩ := h
    refine .kept rfl rfl ?_ (Gains.of_tokens_eq rfl)
    intro hadmin
    rw [hfresh] at hadmin
    cases hadmin
  | setPauseGuardian admin guardian =>
    simp only [exec, setPauseGuardian, bind_eq_ok, pure_eq_ok] at h
    obtain ⟨-, -, -, -, rfl⟩ := h
    exact .kept rfl rfl (fun _ => ⟨rfl, rfl, rfl⟩) (Gains.of_tokens_eq rfl)
  | pause =>
    simp only [exec, setPaused, bind_eq_ok, pure_eq_ok] at h
    obtain ⟨-, -, rfl⟩ := h
    exact .kept rfl rfl (fun _ => ⟨rfl, rfl, rfl⟩) (Gains.of_tokens_eq rfl)
  | unpause =>
    simp only [exec, setPaused, bind_eq_ok, pure_eq_ok] at h
    obtain ⟨-, -, rfl⟩ := h
    exact .kept rfl rfl (fun _ => ⟨rfl, rfl, rfl⟩) (Gains.of_tokens_eq rfl)
  | setMaxPriceStaleness admin stalenessSecs =>
    simp only [exec, setMaxPriceStaleness, bind_eq_ok, expect_eq_ok, pure_eq_ok] at h
    obtain ⟨-, -, -, -, stored, -, -, -, -, -, rfl⟩ := h
    exact .kept rfl rfl (fun _ => ⟨rfl, rfl, rfl⟩) (Gains.of_tokens_eq rfl)
  | openLoan borrower collateralAmount borrowAmount => exact openLoan_effect h
  | repayLoan borrower amount => exact repayLoan_effect h
  | addCollateral borrower amount => exact addCollateral_effect h
  | liquidate borrower liquidator =>
    exact liquidate_effect (fun l hl => (hadmissible borrower l hl).collateral) h
  | elsewhere e =>
    simp only [exec, pure_eq_ok] at h
    obtain rfl := h
    refine .kept rfl rfl (fun _ => ⟨rfl, rfl, rfl⟩) ?_
    intro mnt _ _
    have hgift := e.harmless mnt
    show s.tokens.balance mnt self + 0 ≤ s.tokens.balance mnt self + e.change mnt self
    omega

end Effects

end CollateralLoan
