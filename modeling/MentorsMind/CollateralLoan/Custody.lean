import MentorsMind.CollateralLoan.Effects
import MentorsMind.Lib.Table

/-! The collateral of all open loans is there, and the index lists just their borrowers. -/
namespace CollateralLoan
open Outcome Soroban Shared

/-- The collateral that the contract holds for a borrower. -/
def pledged (o : Option Loan) : ℤ := o.elim 0 Loan.collateralAmount

variable {Addr : Type}

/-- The index lists the borrowers with an open loan, and there are finitely many of them. -/
structure Indexed (s : State Addr) : Prop where
  admissible : ∀ borrower l, s.loan borrower = some l → l.Admissible
  sound : s.positions.Sound
  listed : ∀ a, (s.collateralSlot a).isSome ↔ (s.loan a).isSome
  finite : PointSum.Finite pledged s.loan

def Covered (home mnt : Addr) (s : State Addr) : Prop :=
  PointSum.total pledged s.loan ≤ s.tokens.balance mnt home

theorem deployed_indexed (tokens : Tokens Addr) : Indexed (deployed tokens) where
  admissible borrower l hl := by cases hl
  sound := DenseIndex.empty_sound
  listed a := Iff.rfl
  finite := PointSum.finite_const rfl

section Steps

variable [DecidableEq Addr] {home : Addr} {s t : State Addr}

/-- A call keeps the index in step with the loans. -/
theorem Effect.indexed (h : Effect home s t) (hs : Indexed s) : Indexed t := by
  obtain ⟨hadmissible, hsound, hlisted, hfinite⟩ := hs
  cases h with
  | kept hloan hpositions hterms hgains =>
    have hslot : t.collateralSlot = s.collateralSlot := congrArg DenseIndex.position hpositions
    constructor
    · intro borrower l hl
      rw [hloan] at hl
      exact hadmissible borrower l hl
    · exact hpositions ▸ hsound
    · rw [hslot, hloan]
      exact hlisted
    · exact hloan ▸ hfinite
  | opened borrower l hfresh hnew hloan hpositions hterms hgains =>
    have hslot : t.collateralSlot = (s.positions.push borrower).position :=
      congrArg DenseIndex.position hpositions
    have hunlisted : s.positions.position borrower = none := by
      rw [← Option.not_isSome_iff_eq_none]
      intro hsome
      have hopen := (hlisted borrower).mp hsome
      rw [hfresh] at hopen
      cases hopen
    constructor
    · rw [hloan]
      exact Table.forall_update hadmissible hnew
    · exact hpositions ▸ hsound.push hunlisted
    · intro a
      rw [hslot, DenseIndex.push_isSome, hloan, Function.update_apply]
      split_ifs with ha
      · simp [ha]
      · rw [or_iff_right ha]
        exact hlisted a
    · exact hloan ▸ hfinite.update borrower (some l)
  | added borrower l amount hfound hpos hloan hpositions hterms hgains =>
    have hslot : t.collateralSlot = s.collateralSlot := congrArg DenseIndex.position hpositions
    obtain ⟨hbacked, hdebt, hbounded⟩ := hadmissible borrower l hfound
    constructor
    · rw [hloan]
      refine Table.forall_update hadmissible ⟨?_, hdebt, hbounded⟩
      exact add_pos hbacked hpos
    · exact hpositions ▸ hsound
    · intro a
      rw [hslot, hloan, Function.update_apply]
      split_ifs with ha
      · rw [hlisted a, ha, hfound]
        rfl
      · exact hlisted a
    · exact hloan ▸ hfinite.update borrower _
  | closed borrower l hfound hloan hdelisted hterms hgains =>
    have hopen : (s.collateralSlot borrower).isSome := by
      rw [hlisted borrower, hfound]
      rfl
    obtain ⟨hsound', hslot⟩ := hdelisted hsound hopen
    constructor
    · intro a k hk
      rw [hloan] at hk
      exact hadmissible a k (Table.erase_eq_some_iff.mp hk).2
    · exact hsound'
    · intro a
      rw [hslot a, hloan, Function.update_apply]
      split_ifs with ha
      · simp [ha]
      · rw [hlisted a]
        exact and_iff_right ha
    · exact hloan ▸ hfinite.update borrower none

theorem Effect.same_terms (h : Effect home s t) (hadmin : s.admin.isSome) : SameTerms s t := by
  cases h with
  | kept _ _ hterms _ => exact hterms hadmin
  | opened _ _ _ _ _ _ hterms _ => exact hterms
  | added _ _ _ _ _ _ _ hterms _ => exact hterms
  | closed _ _ _ _ _ hterms _ => exact hterms

/-- The collateral held moves with the loans. -/
theorem Effect.covered {mnt : Addr} (h : Effect home s t) (hs : Indexed s)
    (hmnt : s.mntToken = some mnt) (husdc : s.usdcToken ≠ some mnt) (hcovered : Covered home mnt s) :
    Covered home mnt t := by
  unfold Covered at hcovered ⊢
  cases h with
  | kept hloan _ _ hgains =>
    have hheld := hgains mnt hmnt husdc
    rw [hloan]
    omega
  | opened borrower l hfresh hnew hloan _ _ hgains =>
    have hheld := hgains mnt hmnt husdc
    have hnone : pledged (s.loan borrower) = 0 := by rw [hfresh]; rfl
    have hsome : pledged (some l) = l.collateralAmount := rfl
    rw [hloan, hs.finite.total_update]
    omega
  | added borrower l amount hfound hpos hloan _ _ hgains =>
    have hheld := hgains mnt hmnt husdc
    have hold : pledged (s.loan borrower) = l.collateralAmount := by rw [hfound]; rfl
    have hnew : pledged (some { l with collateralAmount := l.collateralAmount + amount }) =
      l.collateralAmount + amount := rfl
    rw [hloan, hs.finite.total_update]
    omega
  | closed borrower l hfound hloan _ _ hgains =>
    have hheld := hgains mnt hmnt husdc
    have hold : pledged (s.loan borrower) = l.collateralAmount := by rw [hfound]; rfl
    have hnone : pledged none = 0 := rfl
    rw [hloan, hs.finite.total_update]
    omega

end Steps

section Runs

variable [DecidableEq Addr] {home : Addr}

/-- A contract that was initialised. -/
structure Deployment (Addr : Type) (home : Addr) where
  tokens : Tokens Addr
  inv : Invocation Addr home
  admin : Addr
  mnt : Addr
  usdc : Addr
  oracle : Addr
  asset : String
  state : State Addr
  initialized :
    initializeLoans inv (deployed tokens) admin mnt usdc oracle asset = .ok state

namespace Deployment

variable (d : Deployment Addr home)

/-- The state after these calls, in whichever order they come. -/
def reached (steps : List (Step Addr home)) : State Addr := (machine home).run d.state steps

/-- What every reachable state keeps. -/
structure Kept (s : State Addr) : Prop where
  indexed : Indexed s
  initialized : s.admin.isSome
  mntToken : s.mntToken = some d.mnt
  usdcToken : s.usdcToken = some d.usdc

variable {d}

theorem Kept.step {s t : State Addr} {step : Step Addr home} (h : d.Kept s)
    (hx : (machine home).exec step s = .ok t) : Effect home s t ∧ d.Kept t := by
  have heffect : Effect home s t := exec_effect h.indexed.admissible hx
  obtain ⟨hadmin, hmnt, husdc⟩ := heffect.same_terms h.initialized
  refine ⟨heffect, heffect.indexed h.indexed, ?_, ?_, ?_⟩
  · rw [hadmin]
    exact h.initialized
  · rw [hmnt]
    exact h.mntToken
  · rw [husdc]
    exact h.usdcToken

variable (d)

omit [DecidableEq Addr] in
theorem state_eq : d.state = { deployed d.tokens with
    admin := some d.admin
    mntToken := some d.mnt
    usdcToken := some d.usdc
    oracle := some d.oracle
    mntAsset := some d.asset
    interestRateBps := some defaultInterestRateBps
    accruedInterestVault := 0
    totalBadDebt := 0
    maxPriceStaleness := some maxPriceStalenessSecs } := by
  have hstart := d.initialized
  simp only [initializeLoans, bind_eq_ok, pure_eq_ok] at hstart
  obtain ⟨-, -, -, -, hstate⟩ := hstart
  exact hstate.symm

omit [DecidableEq Addr] in
theorem start_kept : d.Kept d.state := by
  obtain ⟨hadmissible, hsound, hlisted, hfinite⟩ := deployed_indexed d.tokens
  rw [state_eq d]
  exact ⟨⟨hadmissible, hsound, hlisted, hfinite⟩, rfl, rfl, rfl⟩

theorem reached_kept (steps : List (Step Addr home)) : d.Kept (d.reached steps) :=
  Machine.run_invariant d.start_kept (fun _ _ _ hs hx => (hs.step hx).2) steps

end Deployment

/-- The collateral and the debts are in two different tokens, both of them honest. -/
structure HonestDeployment (Addr : Type) (home : Addr) extends Deployment Addr home where
  honest : ∀ token, 0 ≤ tokens.balance token home
  distinct : mnt ≠ usdc

theorem HonestDeployment.reached_covered (d : HonestDeployment Addr home)
    (steps : List (Step Addr home)) : Covered home d.mnt (d.reached steps) := by
  have hstart : d.Kept d.state ∧ Covered home d.mnt d.state := by
    refine ⟨d.start_kept, ?_⟩
    unfold Covered
    rw [d.state_eq]
    show PointSum.total pledged (fun _ : Addr => none) ≤ d.tokens.balance d.mnt home
    rw [PointSum.total_const (w := pledged) (v := none) rfl]
    exact d.honest d.mnt
  refine (Machine.run_invariant (P := fun s => d.Kept s ∧ Covered home d.mnt s) hstart ?_ steps).2
  intro step s t ⟨hkept, hcovered⟩ hx
  obtain ⟨heffect, hkept'⟩ := hkept.step hx
  refine ⟨hkept', heffect.covered hkept.indexed hkept.mntToken ?_ hcovered⟩
  rw [hkept.usdcToken]
  intro heq
  exact d.distinct (Option.some.inj heq).symm

/-- What the contract promises about the collateral and about the index over the borrowers. -/
structure CollateralKept (home mnt : Addr) (s : State Addr) : Prop where
  finite : {a | (s.loan a).isSome}.Finite
  covered : ∑ᶠ a, pledged (s.loan a) ≤ s.tokens.balance mnt home
  inverse : ∀ i a, s.collateralIndex i = some a ↔ s.collateralSlot a = some i
  dense : ∀ i, (s.collateralIndex i).isSome ↔ i < s.collateralCount
  range : ∀ a, (∃ i, i < s.collateralCount ∧ s.collateralIndex i = some a) ↔ (s.loan a).isSome

theorem collateral_kept (d : HonestDeployment Addr home) (steps : List (Step Addr home)) :
    CollateralKept home d.mnt (d.reached steps) := by
  obtain ⟨hadmissible, hsound, hlisted, hfinite⟩ := (d.reached_kept steps).indexed
  constructor
  · refine hfinite.subset ?_
    intro a ha
    obtain ⟨l, hl⟩ := Option.isSome_iff_exists.mp ha
    show pledged _ ≠ 0
    rw [hl]
    exact (hadmissible a l hl).collateral.ne'
  · exact d.reached_covered steps
  · exact hsound.entry_iff
  · exact hsound.isSome_iff
  · intro a
    rw [← hlisted a, Option.isSome_iff_exists]
    constructor
    · rintro ⟨i, -, hi⟩
      exact ⟨i, (hsound.entry_iff i a).mp hi⟩
    · rintro ⟨i, hi⟩
      exact ⟨i, hsound.lt_count hi, (hsound.entry_iff i a).mpr hi⟩

end Runs

/-- Everybody signed at `now`, the oracle has just quoted `price`, and the tokens refuse nothing. -/
def quoted (now : ℕ) (price : ℤ) : Invocation ℕ 0 where
  toEnv := signedByAll now
  getPrice _ _ := some (price, now)
  accepts _ := true

/-- Both tokens are at 2 and 3, and everybody has plenty of them. -/
def funded : Tokens ℕ := ⟨fun _ _ => 1000000, []⟩

/-- Two loans, neither of which is paid back. -/
def twoLoans : List (Step ℕ 0) :=
  [(quoted 0 20000, .openLoan 7 1200 1000), (quoted 0 20000, .openLoan 8 2400 2000)]

theorem collateral_kept_twoLoans : ∃ d : HonestDeployment ℕ 0,
    CollateralKept 0 d.mnt (d.reached twoLoans) ∧
      ((d.reached twoLoans).loan 7).isSome ∧ ((d.reached twoLoans).loan 8).isSome ∧
      (d.reached twoLoans).tokens.balance d.mnt 0 = 1003600 := by
  let d : HonestDeployment ℕ 0 :=
    ⟨⟨funded, quoted 0 20000, 1, 2, 3, 4, "MNT", _, rfl⟩, fun _ => Int.natCast_nonneg 1000000, by decide⟩
  exact ⟨d, collateral_kept d twoLoans, by decide +kernel, by decide +kernel, by decide +kernel⟩

end CollateralLoan
