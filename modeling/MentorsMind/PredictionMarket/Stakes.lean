import MentorsMind.PredictionMarket.Accounts
import MentorsMind.PredictionMarket.Solvency

/-! When every winning stake is paid. A second bet of the same bettor takes the place of the first,
whose stake stays in the pool and is never paid. -/
namespace PredictionMarket
open Outcome Soroban Shared

variable {Addr : Type} [DecidableEq Addr] {home : Addr}

section Claims

variable {s : State Addr} {m : ℕ} {r : MarketRecord Addr} {bettor : Addr} {b : BetRecord Addr}

/-- A pool of a market that takes bets is far from an overflow. -/
theorem pool_lt {n : ℤ} (h : FitsI128 (n * fixedPointScale)) : n < 2 ^ 100 := by
  obtain ⟨-, hlt⟩ := h
  unfold fixedPointScale at hlt
  omega

omit [DecidableEq Addr] in
/-- Only the multiplication with the stake can overflow. -/
theorem totalPayout_isOk {bets : Addr → Option (BetRecord Addr)} {winning : Bool} {amount : ℤ}
    (hkept : MarketKept r bets) (hscaled : ∀ side, FitsI128 (r.pool side * fixedPointScale))
    (hpos : 0 < amount) (hle : amount ≤ r.pool winning) (hfits : FitsI128 (r.net winning * amount)) :
    totalPayout r winning amount = .ok (r.payout winning amount) := by
  have hwinning := pool_lt (hscaled winning)
  have hlosing := pool_lt (hscaled (!winning))
  have hlosing_nonneg := hkept.pool_nonneg (!winning)
  have hnet_nonneg := hkept.net_nonneg winning
  have hnet_le := hkept.net_le winning
  have hscaledFee : FitsI128 (r.pool (!winning) * platformFeeBps) := by
    unfold FitsI128 platformFeeBps
    omega
  have hfee : (r.pool (!winning) * platformFeeBps).tdiv 10000 = r.pool (!winning) - r.net winning := by
    unfold MarketRecord.net
    ring
  have hfeeFits : FitsI128 (r.pool (!winning) - r.net winning) := by
    unfold FitsI128
    omega
  have hnetFits : FitsI128 (r.net winning) := by
    unfold FitsI128
    omega
  have hshare : (r.net winning * amount).tdiv (r.pool winning) =
      r.net winning * amount / r.pool winning :=
    Int.tdiv_eq_ediv_of_nonneg (mul_nonneg hnet_nonneg hpos.le)
  have hshare_nonneg : 0 ≤ r.net winning * amount / r.pool winning :=
    Int.ediv_nonneg (mul_nonneg hnet_nonneg hpos.le) (hpos.le.trans hle)
  have hshare_le : r.net winning * amount / r.pool winning ≤ r.net winning := by
    apply Int.ediv_le_of_le_mul (hpos.trans_le hle)
    exact mul_le_mul_of_nonneg_left hle hnet_nonneg
  have hshareFits : FitsI128 (r.net winning * amount / r.pool winning) := by
    unfold FitsI128
    omega
  have hsumFits : FitsI128 (amount + r.net winning * amount / r.pool winning) := by
    unfold FitsI128
    omega
  have hnonzero : r.pool winning ≠ 0 := (hpos.trans_le hle).ne'
  simp only [totalPayout, bind_eq_ok, safeMul_eq_ok, safeDiv_eq_ok, safeSub_eq_ok, safeAdd_eq_ok,
    MarketRecord.payout, hshare]
  refine ⟨_, ⟨hscaledFee, rfl⟩, _, ⟨⟨by decide, ?_⟩, rfl⟩, _, ⟨?_, rfl⟩, _, ⟨?_, rfl⟩, _,
    ⟨⟨hnonzero, ?_⟩, rfl⟩, ?_, ?_⟩
  all_goals simp only [hfee, sub_sub_cancel, hshare]
  · exact hfeeFits
  · exact hnetFits
  · exact hfits
  · exact hshareFits
  · exact hsumFits

/-- A winning bet that was not claimed can be claimed by its bettor. -/
theorem claimWinnings_isOk {inv : Invocation Addr home} {payout : ℤ} (hauth : inv.auth bettor = true)
    (haccepts : ∀ x, inv.accepts x = true) (hr : s.market m = some r) (hresolved : r.resolved = true)
    (houtcome : r.outcome = some b.outcome) (hb : s.bet m bettor = some b)
    (hunclaimed : b.claimed = false) (hpays : totalPayout r b.outcome b.amount = .ok payout)
    (hpositive : 0 ≤ payout) (hheld : payout ≤ s.tokens.balance r.token home) :
    ∃ t, claimWinnings inv s bettor m = .ok t := by
  obtain ⟨tokens, htokens⟩ := Tokens.transfer_isOk (r := bettor) haccepts hpositive hheld
  refine ⟨storeBet { s with tokens := tokens } bettor m { b with claimed := true }, ?_⟩
  simp only [claimWinnings, transfer, bind_eq_ok, require_eq_ok, requireAuth_eq_ok, expect_eq_ok,
    pure_eq_ok]
  exact ⟨(), hauth, r, hr, (), hresolved, b, hb, (), hunclaimed, b.outcome, houtcome, (), rfl, payout,
    hpays, _, ⟨tokens, htokens, rfl⟩, rfl⟩

end Claims

namespace Launch

variable (l : Launch Addr home)

/-- How many bets of `bettor` on `m` were accepted. -/
def betCount (steps : List (Step Addr home)) (bettor : Addr) (m : ℕ) : ℤ :=
  (machine home).tally (betsBy bettor m) l.start steps

/-- What `bettor` has staked on one side of `m` in all. -/
def staked (steps : List (Step Addr home)) (bettor : Addr) (m : ℕ) (side : Bool) : ℤ :=
  (machine home).tally (stakedBy bettor m side) l.start steps

/-- What `bettor` was paid for `m`. -/
def won (steps : List (Step Addr home)) (bettor : Addr) (m : ℕ) : ℤ :=
  (machine home).tally (wonBy bettor m) l.start steps

theorem reached_accounts (steps : List (Step Addr home)) (m : ℕ) :
    Accounts m (l.reached steps) (fun a => l.betCount steps a m)
      (fun a side => l.staked steps a m side) (fun a => l.won steps a m) := by
  refine Machine.run_history (M := machine home) (s := l.start) (P := fun steps s =>
    Accounts m s (fun a => l.betCount steps a m) (fun a side => l.staked steps a m side)
      (fun a => l.won steps a m)) ?_ ?_ ?_ steps
  · constructor
    · intro a
      exact le_rfl
    · intro a
      exact iff_of_true rfl rfl
    · intro a _ side
      rfl
    · intro r hr
      cases hr
    · intro a
      rfl
    · intro r side hr
      cases hr
    · intro r a b hr
      cases hr
  · rintro pre ⟨inv, call⟩ t hpre hx
    have hkept := (l.reached_books pre).kept
    simp only [betCount, staked, won, Machine.tally_snoc_ok hx]
    exact hpre.move hkept (exec_move hx hkept m)
  · intro pre step e hpre herror
    simp only [betCount, staked, won, Machine.tally_snoc_error herror]
    exact hpre

/-- The contract has no bet of its own. -/
theorem reached_bet_home (steps : List (Step Addr home)) (m : ℕ) :
    (l.reached steps).bet m home = none := by
  refine Machine.run_history (M := machine home) (s := l.start)
    (P := fun _ s => s.bet m home = none) rfl ?_ (fun _ _ _ hpre _ => hpre) steps
  rintro pre ⟨inv, call⟩ t hpre hx
  cases exec_move hx (l.reached_books pre).kept m with
  | away _ _ _ hbet => rwa [hbet]
  | opened r _ _ _ _ _ _ hbet => rwa [hbet]
  | closed r outcome _ _ _ _ _ hbet => rwa [hbet]
  | placed bettor r b houtsider _ _ _ _ _ _ _ _ hbet =>
    rw [hbet, Function.update_of_ne houtsider.symm]
    exact hpre
  | claimed bettor r b payout _ _ _ _ hb _ _ _ hbet _ =>
    rw [hbet, Table.update_eq_none_iff]
    refine ⟨?_, hpre⟩
    rintro rfl
    rw [hpre] at hb
    cases hb

variable {l}

/-- Once the outcome is known, the market and the stakes stay as they are. -/
theorem reached_resolved {steps : List (Step Addr home)} {m : ℕ} {r : MarketRecord Addr}
    {outcome : Bool} (hr : (l.reached steps).market m = some r) (houtcome : r.outcome = some outcome)
    (later : List (Step Addr home)) : (l.reached (steps ++ later)).market m = some r ∧
      ∀ side a, stake side ((l.reached (steps ++ later)).bet m a) =
        stake side ((l.reached steps).bet m a) := by
  induction later using List.reverseRecOn with
  | nil =>
    rw [List.append_nil]
    exact ⟨hr, fun _ _ => rfl⟩
  | append_singleton later step ih =>
    obtain ⟨hmarket, hstake⟩ := ih
    have hkept := (l.reached_books (steps ++ later)).kept
    have hdecided : r.resolved ≠ false := by
      intro hunresolved
      rw [(hkept.market m r hmarket).undecided hunresolved] at houtcome
      cases houtcome
    have hrun : l.reached (steps ++ (later ++ [step])) =
        (machine home).apply (l.reached (steps ++ later)) step := by
      rw [← List.append_assoc]
      exact Machine.run_snoc ..
    rw [hrun]
    obtain ⟨t, hx, ht⟩ | ⟨e, -, ht⟩ := Machine.apply_cases (machine home)
      (l.reached (steps ++ later)) step
    · rw [ht]
      cases exec_move hx hkept m with
      | away _ _ hsame hbet =>
        rw [hsame, hbet]
        exact ⟨hmarket, hstake⟩
      | opened x _ _ hnone _ _ _ _ =>
        rw [hmarket] at hnone
        cases hnone
      | closed x _ _ _ hx hunresolved _ _ =>
        obtain rfl := Option.some.inj (hmarket.symm.trans hx)
        exact absurd hunresolved hdecided
      | placed a x b _ _ hx hunresolved _ _ _ _ _ _ =>
        obtain rfl := Option.some.inj (hmarket.symm.trans hx)
        exact absurd hunresolved hdecided
      | claimed bettor x b payout _ _ hx _ hb _ _ hsame hbet _ =>
        obtain rfl := Option.some.inj (hmarket.symm.trans hx)
        refine ⟨hsame, ?_⟩
        intro side a
        rw [hbet, stake_claimed hb side a]
        exact hstake side a
    · rw [ht]
      exact ⟨hmarket, hstake⟩

variable (l)

/-- What the bettors are promised of a market `m` with record `r` once its outcome is known: the
stakes on record add up to the pools, and whoever has staked on the outcome can be paid those stakes
and their share of the other pool, and no more. -/
structure StakesPaid (steps : List (Step Addr home)) (m : ℕ) (r : MarketRecord Addr)
    (outcome : Bool) : Prop where
  finite : ∀ side, PointSum.Finite (stake side) ((l.reached steps).bet m)
  recorded : ∀ side, PointSum.total (stake side) ((l.reached steps).bet m) = r.pool side
  paid : ∀ bettor, 0 < l.staked steps bettor m outcome →
    IsGreatest {total | ∃ later, l.won (steps ++ later) bettor m = total}
      (l.staked steps bettor m outcome +
        r.net outcome * l.staked steps bettor m outcome / r.pool outcome)

section Winners

variable {l} {steps : List (Step Addr home)} {m : ℕ} {r : MarketRecord Addr} {outcome : Bool}
  {bettor : Addr}

/-- What is due to a bettor with one bet at most, at any later time. -/
theorem due_eq_of_single (hr : (l.reached steps).market m = some r)
    (houtcome : r.outcome = some outcome) (hsingle : l.betCount steps bettor m ≤ 1)
    (later : List (Step Addr home)) :
    r.due ((l.reached (steps ++ later)).bet m bettor) = l.staked steps bettor m outcome +
      r.net outcome * l.staked steps bettor m outcome / r.pool outcome := by
  obtain ⟨hmarket, hstake⟩ := reached_resolved hr houtcome later
  have hkept := (l.reached_books (steps ++ later)).kept.market m r hmarket
  have hstaked := (l.reached_accounts steps m).single bettor hsingle outcome
  rw [hkept.due_eq houtcome, hstake, hstaked, mul_comm]

theorem won_eq_settled (hr : (l.reached steps).market m = some r)
    (houtcome : r.outcome = some outcome) (later : List (Step Addr home)) :
    l.won (steps ++ later) bettor m = r.settled ((l.reached (steps ++ later)).bet m bettor) := by
  rw [(l.reached_accounts (steps ++ later) m).won_eq bettor,
    (reached_resolved hr houtcome later).1]
  rfl

theorem won_le_due (hr : (l.reached steps).market m = some r) (houtcome : r.outcome = some outcome)
    (later : List (Step Addr home)) :
    l.won (steps ++ later) bettor m ≤ r.due ((l.reached (steps ++ later)).bet m bettor) := by
  have hmarket := (reached_resolved hr houtcome later).1
  have hkept := (l.reached_books (steps ++ later)).kept.market m r hmarket
  have hleft := hkept.unsettled_nonneg bettor
  have hsplit := r.settled_add_unsettled ((l.reached (steps ++ later)).bet m bettor)
  rw [won_eq_settled hr houtcome later]
  omega

/-- The bet that stands behind a stake. -/
theorem bet_of_staked (hsingle : l.betCount steps bettor m ≤ 1) (hstaked : 0 < l.staked steps bettor m outcome) :
    ∃ b, (l.reached steps).bet m bettor = some b ∧ b.outcome = outcome ∧
      b.amount = l.staked steps bettor m outcome := by
  have hrecord := (l.reached_accounts steps m).single bettor hsingle outcome
  cases hb : (l.reached steps).bet m bettor with
  | none =>
    rw [hb] at hrecord
    have hzero : (0 : ℤ) = l.staked steps bettor m outcome := hrecord
    omega
  | some b =>
    rw [hb] at hrecord
    simp only [stake, Option.elim_some] at hrecord
    split_ifs at hrecord with hside
    · exact ⟨b, rfl, hside, hrecord⟩
    · omega

/-- What a bettor can claim is there. -/
theorem claimable_le_balance (token : Addr) (key : Addr × ℕ) :
    claimable token (l.reached steps) key ≤ (l.reached steps).tokens.balance token home := by
  have hkept := (l.reached_books steps).kept
  have hsolvent := l.markets_solvent steps
  refine le_trans ?_ (hsolvent.backed token)
  refine single_le_finsum key (hsolvent.finite token) ?_
  rintro ⟨a, k⟩
  unfold claimable
  cases hk : (l.reached steps).market k with
  | none => exact le_rfl
  | some x =>
    simp only [Option.elim_some]
    split_ifs
    · exact (hkept.market k x hk).unsettled_nonneg a
    · exact le_rfl

/-- A winning bet that was not claimed can be claimed at once, if its payment is no overflow. -/
theorem exists_claim (hr : (l.reached steps).market m = some r) {b : BetRecord Addr}
    (houtcome : r.outcome = some b.outcome) (hb : (l.reached steps).bet m bettor = some b)
    (hunclaimed : b.claimed = false) (hfits : FitsI128 (r.net b.outcome * b.amount)) :
    ∃ (inv : Invocation Addr home) (t : State Addr),
      claimWinnings inv (l.reached steps) bettor m = .ok t := by
  have hmarket := (l.reached_books steps).kept.market m r hr
  have hresolved : r.resolved = true := by
    cases hcase : r.resolved with
    | true => rfl
    | false =>
      rw [hmarket.undecided hcase] at houtcome
      cases houtcome
  have hstake : stake b.outcome (some b) = b.amount := by simp [stake]
  have hle : b.amount ≤ r.pool b.outcome := by
    have hone := (hmarket.finite b.outcome).le_total (hmarket.stake_nonneg b.outcome) bettor
    rw [hb, hstake] at hone
    exact hone.trans (hmarket.covered b.outcome)
  have hpays := totalPayout_isOk hmarket
    (fun side => (l.reached_accounts steps m).scaled r side hr) (hmarket.positive bettor b hb) hle hfits
  have hdue : r.due ((l.reached steps).bet m bettor) = r.payout b.outcome b.amount := by
    simp [MarketRecord.due, hb, houtcome]
  have hheld : r.payout b.outcome b.amount ≤ (l.reached steps).tokens.balance r.token home := by
    refine le_trans (le_of_eq ?_) (claimable_le_balance r.token (bettor, m))
    simp [claimable, hr, hresolved, hb, MarketRecord.unsettled, hunclaimed, MarketRecord.due, houtcome]
  have hne : bettor ≠ home := by
    rintro rfl
    rw [l.reached_bet_home] at hb
    cases hb
  let inv : Invocation Addr home :=
    { timestamp := 0, sequence := 0, auth := fun a => decide (a ≠ home), auth_home := by simp,
      isPaused := fun _ => some false, accepts := fun _ => true }
  refine ⟨inv, claimWinnings_isOk (by simpa [inv] using hne) (fun _ => rfl) hr hresolved houtcome hb
    hunclaimed hpays ?_ hheld⟩
  rw [← hdue]
  exact hmarket.due_nonneg bettor

/-- A winner whose payment is no overflow is paid, at the latest by one more call. -/
theorem exists_paid (hr : (l.reached steps).market m = some r) (houtcome : r.outcome = some outcome)
    (hsingle : l.betCount steps bettor m ≤ 1) (hstaked : 0 < l.staked steps bettor m outcome)
    (hfits : FitsI128 (r.net outcome * l.staked steps bettor m outcome)) :
    ∃ later, l.won (steps ++ later) bettor m = r.due ((l.reached steps).bet m bettor) := by
  obtain ⟨b, hb, rfl, hamount⟩ := bet_of_staked hsingle hstaked
  rw [← hamount] at hfits
  cases hclaimed : b.claimed with
  | true =>
    refine ⟨[], ?_⟩
    rw [won_eq_settled hr houtcome [], List.append_nil, hb]
    simp [MarketRecord.settled, hclaimed]
  | false =>
    obtain ⟨inv, t, ht⟩ := exists_claim hr houtcome hb hclaimed hfits
    refine ⟨[(inv, .claimWinnings bettor m)], ?_⟩
    have hx : exec inv (.claimWinnings bettor m) (l.reached steps) = .ok t := ht
    have hrun : l.reached (steps ++ [(inv, .claimWinnings bettor m)]) = t :=
      (Machine.executes_snoc (M := machine home) (a := (inv, .claimWinnings bettor m)) hx).run_eq
    rw [won_eq_settled hr houtcome, hrun]
    cases exec_move hx (l.reached_books steps).kept m with
    | away _ hclaim _ _ => exact absurd rfl hclaim
    | opened _ _ hclaim _ _ _ _ _ => exact absurd rfl hclaim
    | closed _ _ _ hclaim _ _ _ _ => exact absurd rfl hclaim
    | placed _ _ _ _ hcall _ _ _ _ _ _ _ _ => cases hcall
    | claimed a x y payout _ hclaim hx _ hy _ _ _ hbet _ =>
      obtain ⟨rfl, -⟩ := Prod.mk.inj (Option.some.inj hclaim)
      rw [hbet, Function.update_self, hy]
      rfl

/-- Who was paid for a stake was paid without an overflow. -/
theorem fits_of_won (hr : (l.reached steps).market m = some r) (houtcome : r.outcome = some outcome)
    (hsingle : l.betCount steps bettor m ≤ 1) (hstaked : 0 < l.staked steps bettor m outcome)
    {later : List (Step Addr home)} (hwon : l.won (steps ++ later) bettor m ≠ 0) :
    FitsI128 (r.net outcome * l.staked steps bettor m outcome) := by
  obtain ⟨hmarket, hstake⟩ := reached_resolved hr houtcome later
  have hrecord := (l.reached_accounts steps m).single bettor hsingle outcome
  rw [← hstake] at hrecord
  rw [won_eq_settled hr houtcome later] at hwon
  cases hb : (l.reached (steps ++ later)).bet m bettor with
  | none =>
    rw [hb] at hwon
    exact absurd rfl hwon
  | some b =>
    rw [hb] at hwon hrecord
    simp only [MarketRecord.settled, stake, Option.elim_some] at hwon hrecord
    cases hclaimed : b.claimed with
    | false =>
      rw [hclaimed] at hwon
      exact absurd rfl hwon
    | true =>
      split_ifs at hrecord with hside
      · rw [← hrecord, ← hside]
        exact (l.reached_accounts (steps ++ later) m).fits r bettor b hmarket hb hclaimed
      · omega

end Winners

/-- Every winning stake is paid exactly where nobody has bet twice on the market and no payment
overflows. -/
theorem stakesPaid_iff {steps : List (Step Addr home)} {m : ℕ} {r : MarketRecord Addr}
    {outcome : Bool} (hr : (l.reached steps).market m = some r)
    (houtcome : r.outcome = some outcome) :
    l.StakesPaid steps m r outcome ↔ (∀ bettor, l.betCount steps bettor m ≤ 1) ∧
      ∀ bettor, 0 < l.staked steps bettor m outcome →
        FitsI128 (r.net outcome * l.staked steps bettor m outcome) := by
  have hmarket := (l.reached_books steps).kept.market m r hr
  have hrecorded := (l.reached_accounts steps m).recorded r hr
  constructor
  · rintro ⟨-, hrecord, hpaid⟩
    have hsingle := hrecorded.mp hrecord
    refine ⟨hsingle, ?_⟩
    intro bettor hstaked
    obtain ⟨later, hlater⟩ := (hpaid bettor hstaked).1
    have hshare : 0 ≤ r.net outcome * l.staked steps bettor m outcome / r.pool outcome :=
      Int.ediv_nonneg (mul_nonneg (hmarket.net_nonneg outcome) hstaked.le)
        (hmarket.pool_nonneg outcome)
    have hwon : l.won (steps ++ later) bettor m ≠ 0 := by omega
    exact fits_of_won hr houtcome (hsingle bettor) hstaked hwon
  · rintro ⟨hsingle, hfits⟩
    refine ⟨hmarket.finite, hrecorded.mpr hsingle, ?_⟩
    intro bettor hstaked
    constructor
    · obtain ⟨later, hlater⟩ := exists_paid hr houtcome (hsingle bettor) hstaked (hfits bettor hstaked)
      refine ⟨later, ?_⟩
      rw [hlater]
      simpa using due_eq_of_single hr houtcome (hsingle bettor) []
    · rintro total ⟨later, rfl⟩
      rw [← due_eq_of_single hr houtcome (hsingle bettor) later]
      exact won_le_due hr houtcome later

section Example

/-- Bettor 2 bets on the goal twice, and the goal is reached. -/
def betTwice : List (Step ℕ 0) :=
  [(atTime 1, .createMarket 1 goalTerms), (atTime 2, .placeBet 2 1 true 10),
    (atTime 3, .placeBet 2 1 true 20), (atTime 4, .placeBet 3 1 false 50),
    (atTime 100, .resolveMarket 1 true 0)]

def goalReached : MarketRecord ℕ where
  id := 1
  creator := 1
  learner := 1
  goalDescriptionHash := 0
  resolutionDate := 100
  token := 9
  yesPool := 30
  noPool := 50
  resolved := true
  outcome := some true
  liquidityParameter := defaultLiquidityParameter
  resolutionOracle := 5
  resolutionRequiresMulti := false

theorem betTwice_market : (funded.reached betTwice).market 1 = some goalReached := rfl

theorem stakesPaid_iff_betTwice : funded.StakesPaid betTwice 1 goalReached true ↔
    (∀ bettor, funded.betCount betTwice bettor 1 ≤ 1) ∧
      ∀ bettor, 0 < funded.staked betTwice bettor 1 true →
        FitsI128 (goalReached.net true * funded.staked betTwice bettor 1 true) :=
  funded.stakesPaid_iff betTwice_market rfl

/-- The first stake of bettor 2 is in the pool and on no record. -/
theorem first_stake_lost : (funded.reached betTwice).market 1 = some goalReached ∧
    ¬ funded.StakesPaid betTwice 1 goalReached true := by
  refine ⟨rfl, ?_⟩
  intro h
  have hbets : (funded.reached betTwice).bet 1 = Function.update (Function.update (Function.update
      (fun _ => none) 2 (some ⟨2, 1, true, 10, false⟩)) 2 (some ⟨2, 1, true, 20, false⟩)) 3
        (some ⟨3, 1, false, 50, false⟩) := rfl
  have hempty : PointSum.Finite (stake true) (fun _ : ℕ => (none : Option (BetRecord ℕ))) :=
    PointSum.finite_const rfl
  have hrecorded := h.recorded true
  rw [hbets, ((hempty.update _ _).update _ _).total_update, (hempty.update _ _).total_update,
    hempty.total_update, PointSum.total_const (w := stake true) (v := none) rfl] at hrecorded
  revert hrecorded
  decide

end Example

end Launch

end PredictionMarket
