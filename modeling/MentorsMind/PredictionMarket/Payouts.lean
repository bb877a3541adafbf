import MentorsMind.Lib.Table
import MentorsMind.Lib.Shares
import MentorsMind.PredictionMarket.Contract

/-! What the winners of a market are due. Together it never exceeds the two pools, however often a
bettor has replaced the bet on record. -/
namespace PredictionMarket
open Outcome Soroban Shared

variable {Addr : Type}

section Weights

/-- What is on record for one side of the market. -/
def stake (side : Bool) (o : Option (BetRecord Addr)) : ℤ :=
  o.elim 0 fun b => if b.outcome = side then b.amount else 0

/-- The losing pool after the fee. -/
def MarketRecord.net (r : MarketRecord Addr) (winning : Bool) : ℤ :=
  r.pool (!winning) - (r.pool (!winning) * platformFeeBps).tdiv 10000

def MarketRecord.payout (r : MarketRecord Addr) (winning : Bool) (amount : ℤ) : ℤ :=
  amount + (r.net winning * amount).tdiv (r.pool winning)

/-- What a bet wins, whether it was claimed or not. -/
def MarketRecord.due (r : MarketRecord Addr) (o : Option (BetRecord Addr)) : ℤ :=
  r.outcome.elim 0 fun winning =>
    o.elim 0 fun b => if b.outcome = winning then r.payout winning b.amount else 0

/-- What was claimed for a bet. -/
def MarketRecord.settled (r : MarketRecord Addr) (o : Option (BetRecord Addr)) : ℤ :=
  o.elim 0 fun b => if b.claimed then r.due o else 0

/-- What can still be claimed for a bet. -/
def MarketRecord.unsettled (r : MarketRecord Addr) (o : Option (BetRecord Addr)) : ℤ :=
  o.elim 0 fun b => if b.claimed then 0 else r.due o

theorem totalPayout_eq_ok {r : MarketRecord Addr} {winning : Bool} {amount payout : ℤ}
    (h : totalPayout r winning amount = .ok payout) : payout = r.payout winning amount := by
  simp only [totalPayout, bind_eq_ok, safeMul_eq_ok, safeDiv_eq_ok, safeSub_eq_ok,
    safeAdd_eq_ok] at h
  obtain ⟨_, ⟨-, rfl⟩, _, ⟨-, rfl⟩, _, ⟨-, rfl⟩, _, ⟨-, rfl⟩, _, ⟨-, rfl⟩, -, rfl⟩ := h
  rfl

/-- The share of a claim that is paid was no overflow. -/
theorem fits_of_totalPayout {r : MarketRecord Addr} {winning : Bool} {amount payout : ℤ}
    (h : totalPayout r winning amount = .ok payout) : FitsI128 (r.net winning * amount) := by
  simp only [totalPayout, bind_eq_ok, safeMul_eq_ok, safeDiv_eq_ok, safeSub_eq_ok,
    safeAdd_eq_ok] at h
  obtain ⟨_, ⟨-, rfl⟩, _, ⟨-, rfl⟩, _, ⟨-, rfl⟩, _, ⟨hfits, rfl⟩, -⟩ := h
  exact hfits

theorem MarketRecord.settled_add_unsettled (r : MarketRecord Addr) (o : Option (BetRecord Addr)) :
    r.settled o + r.unsettled o = r.due o := by
  cases o with
  | none =>
    unfold settled unsettled due
    cases r.outcome <;> rfl
  | some b =>
    simp only [settled, unsettled, Option.elim_some]
    split_ifs
    · rw [add_zero]
    · rw [zero_add]

/-- Where no bet was claimed, nothing is settled. -/
theorem MarketRecord.total_settled_eq_zero (r : MarketRecord Addr)
    {bets : Addr → Option (BetRecord Addr)}
    (h : ∀ a b, bets a = some b → b.claimed = false) : PointSum.total r.settled bets = 0 := by
  have hzero : ∀ a, r.settled (bets a) = 0 := by
    intro a
    cases hb : bets a with
    | none => rfl
    | some b => simp [settled, h a b hb]
  simp only [PointSum.total, hzero, finsum_zero]

theorem MarketRecord.pool_add_pool (r : MarketRecord Addr) (side : Bool) :
    r.pool side + r.pool (!side) = r.yesPool + r.noPool := by
  cases side with
  | false => exact add_comm _ _
  | true => rfl

end Weights

/-- What holds of a market and of the bets on it: the pools cover what is on record for either side,
and nothing is claimed before an outcome is known. -/
structure MarketKept (r : MarketRecord Addr) (bets : Addr → Option (BetRecord Addr)) : Prop where
  finite : ∀ side, PointSum.Finite (stake side) bets
  covered : ∀ side, PointSum.total (stake side) bets ≤ r.pool side
  positive : ∀ a b, bets a = some b → 0 < b.amount
  unclaimed : r.outcome = none → ∀ a b, bets a = some b → b.claimed = false
  undecided : r.resolved = false → r.outcome = none

namespace MarketKept

variable {r : MarketRecord Addr} {bets : Addr → Option (BetRecord Addr)}

theorem stake_nonneg (h : MarketKept r bets) (side : Bool) (a : Addr) : 0 ≤ stake side (bets a) := by
  cases hb : bets a with
  | none => exact le_rfl
  | some b =>
    have hpos := h.positive a b hb
    simp only [stake, Option.elim_some]
    split_ifs
    · exact hpos.le
    · exact le_rfl

theorem pool_nonneg (h : MarketKept r bets) (side : Bool) : 0 ≤ r.pool side :=
  (PointSum.total_nonneg (h.stake_nonneg side)).trans (h.covered side)

theorem net_nonneg (h : MarketKept r bets) (winning : Bool) : 0 ≤ r.net winning := by
  have hpool := h.pool_nonneg (!winning)
  have hfee : (r.pool (!winning) * platformFeeBps).tdiv 10000 =
      r.pool (!winning) * platformFeeBps / 10000 :=
    Int.tdiv_eq_ediv_of_nonneg (mul_nonneg hpool (by decide))
  unfold MarketRecord.net
  rw [hfee]
  unfold platformFeeBps
  omega

theorem net_le (h : MarketKept r bets) (winning : Bool) : r.net winning ≤ r.pool (!winning) := by
  have hpool := h.pool_nonneg (!winning)
  have hfee : 0 ≤ (r.pool (!winning) * platformFeeBps).tdiv 10000 :=
    Int.tdiv_nonneg (mul_nonneg hpool (by decide)) (by decide)
  unfold MarketRecord.net
  omega

/-- A bet wins its stake and a share of the other pool. -/
theorem due_eq (h : MarketKept r bets) {winning : Bool} (houtcome : r.outcome = some winning)
    (a : Addr) : r.due (bets a) =
      stake winning (bets a) + stake winning (bets a) * r.net winning / r.pool winning := by
  have hnet := h.net_nonneg winning
  unfold MarketRecord.due stake
  rw [houtcome]
  cases hb : bets a with
  | none => simp
  | some b =>
    have hpos := h.positive a b hb
    simp only [Option.elim_some]
    split_ifs
    · unfold MarketRecord.payout
      rw [Int.tdiv_eq_ediv_of_nonneg (mul_nonneg hnet hpos.le), mul_comm]
    · simp

theorem finite_due (h : MarketKept r bets) : PointSum.Finite r.due bets := by
  cases houtcome : r.outcome with
  | none =>
    have hzero : ∀ a, r.due (bets a) = 0 := by
      intro a
      rw [MarketRecord.due, houtcome]
      rfl
    simp [PointSum.Finite, hzero]
  | some winning =>
    refine (h.finite winning).subset ?_
    intro a ha hstake
    apply ha
    dsimp only at hstake ⊢
    rw [h.due_eq houtcome, hstake, zero_mul, Int.zero_ediv, add_zero]

theorem finite_settled (h : MarketKept r bets) : PointSum.Finite r.settled bets := by
  refine h.finite_due.subset ?_
  intro a ha hdue
  apply ha
  dsimp only at hdue ⊢
  cases hb : bets a with
  | none => rfl
  | some b =>
    rw [hb] at hdue
    simp only [MarketRecord.settled, Option.elim_some, hdue, ite_self]

theorem finite_unsettled (h : MarketKept r bets) : PointSum.Finite r.unsettled bets := by
  refine h.finite_due.subset ?_
  intro a ha hdue
  apply ha
  dsimp only at hdue ⊢
  cases hb : bets a with
  | none => rfl
  | some b =>
    rw [hb] at hdue
    simp only [MarketRecord.unsettled, Option.elim_some, hdue, ite_self]

theorem due_nonneg (h : MarketKept r bets) (a : Addr) : 0 ≤ r.due (bets a) := by
  cases houtcome : r.outcome with
  | none =>
    rw [MarketRecord.due, houtcome]
    exact le_rfl
  | some winning =>
    rw [h.due_eq houtcome]
    apply add_nonneg (h.stake_nonneg winning a)
    apply Int.ediv_nonneg _ (h.pool_nonneg winning)
    exact mul_nonneg (h.stake_nonneg winning a) (h.net_nonneg winning)

theorem unsettled_nonneg (h : MarketKept r bets) (a : Addr) : 0 ≤ r.unsettled (bets a) := by
  have hdue := h.due_nonneg a
  cases hb : bets a with
  | none => exact le_rfl
  | some b =>
    rw [hb] at hdue
    simp only [MarketRecord.unsettled, Option.elim_some]
    split_ifs
    · exact le_rfl
    · exact hdue

/-- The winners take their stakes and no more than the other pool. -/
theorem total_due_le (h : MarketKept r bets) :
    PointSum.total r.due bets ≤ r.yesPool + r.noPool := by
  cases houtcome : r.outcome with
  | none =>
    have hzero : ∀ a, r.due (bets a) = 0 := by
      intro a
      rw [MarketRecord.due, houtcome]
      rfl
    have hyes := h.pool_nonneg true
    have hno := h.pool_nonneg false
    rw [← r.pool_add_pool true]
    simp only [PointSum.total, hzero, finsum_zero]
    exact add_nonneg hyes hno
  | some winning =>
    have hstakes := h.covered winning
    have hstaked : (Function.support fun a => stake winning (bets a)).Finite := h.finite winning
    have hsupport : (Function.support fun a =>
        stake winning (bets a) * r.net winning / r.pool winning) ⊆
        Function.support fun a => stake winning (bets a) := by
      intro a ha hstake
      apply ha
      dsimp only at hstake ⊢
      rw [hstake, zero_mul, Int.zero_ediv]
    have hshares : ∑ᶠ a, stake winning (bets a) * r.net winning / r.pool winning ≤
        r.net winning := by
      obtain hzero | hpos := (h.pool_nonneg winning).eq_or_lt'
      · simp only [hzero, Int.ediv_zero, finsum_zero]
        exact h.net_nonneg winning
      · refine Shares.finsum_le (S := hstaked.toFinset) (h.net_nonneg winning) hpos ?_ ?_
          (fun a _ => le_rfl)
        · rw [← finsum_eq_sum (fun a => stake winning (bets a)) hstaked]
          exact hstakes
        · intro a ha
          rw [Finset.mem_coe, Set.Finite.mem_toFinset]
          exact hsupport ha
    have hsplit : PointSum.total r.due bets = PointSum.total (stake winning) bets +
        ∑ᶠ a, stake winning (bets a) * r.net winning / r.pool winning := by
      unfold PointSum.total
      rw [← finsum_add_distrib hstaked (hstaked.subset hsupport)]
      exact finsum_congr (h.due_eq houtcome)
    calc PointSum.total r.due bets = PointSum.total (stake winning) bets +
          ∑ᶠ a, stake winning (bets a) * r.net winning / r.pool winning := hsplit
      _ ≤ r.pool winning + r.net winning := add_le_add hstakes hshares
      _ ≤ r.pool winning + r.pool (!winning) := by
        apply add_le_add le_rfl (h.net_le winning)
      _ = r.yesPool + r.noPool := r.pool_add_pool winning

/-- What was claimed and what can still be claimed is what the winners are due. -/
theorem total_settled_add (h : MarketKept r bets) :
    PointSum.total r.settled bets + PointSum.total r.unsettled bets =
      PointSum.total r.due bets := by
  unfold PointSum.total
  rw [← finsum_add_distrib h.finite_settled h.finite_unsettled]
  apply finsum_congr
  intro a
  exact r.settled_add_unsettled (bets a)

/-- What can still be claimed is left of the pools. -/
theorem total_unsettled_le (h : MarketKept r bets) :
    PointSum.total r.unsettled bets ≤ r.yesPool + r.noPool - PointSum.total r.settled bets := by
  have hdue := h.total_due_le
  have hsplit := h.total_settled_add
  omega

end MarketKept

end PredictionMarket
