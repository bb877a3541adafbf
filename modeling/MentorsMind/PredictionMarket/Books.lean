import MentorsMind.Lib.Table
import MentorsMind.PredictionMarket.Effects
import MentorsMind.PredictionMarket.Payouts

/-! The books of the markets: what every call keeps of them, and how what is in the pools, what was
claimed and which bets are paid move with it. -/
namespace PredictionMarket
open Outcome Soroban Shared

variable {Addr : Type} [DecidableEq Addr] {home : Addr}

namespace MarketKept

variable {r : MarketRecord Addr} {bets : Addr → Option (BetRecord Addr)} {bettor : Addr}
  {b : BetRecord Addr}

omit [DecidableEq Addr] in
theorem opened (hpools : r.yesPool = 0 ∧ r.noPool = 0) (hnone : r.outcome = none) :
    MarketKept r (fun _ => none) where
  finite _ := PointSum.finite_const rfl
  covered side := by
    rw [PointSum.total_const (w := stake side) (v := none) rfl]
    cases side with
    | false => exact hpools.2.ge
    | true => exact hpools.1.ge
  positive a b hb := by cases hb
  unclaimed _ a b hb := by cases hb
  undecided _ := hnone

/-- A bet goes into a pool, and what it replaces stays there. -/
theorem place (h : MarketKept r bets) (hunresolved : r.resolved = false) (hpos : 0 < b.amount)
    (hunclaimed : b.claimed = false) :
    MarketKept (r.grow b.outcome b.amount) (Function.update bets bettor (some b)) := by
  have houtcome : (r.grow b.outcome b.amount).outcome = r.outcome := by
    unfold MarketRecord.grow
    split_ifs <;> rfl
  have hnone := h.undecided hunresolved
  constructor
  · intro side
    exact (h.finite side).update bettor (some b)
  · intro side
    have hcovered := h.covered side
    have hreplaced := h.stake_nonneg side bettor
    have hstake : stake side (some b) = if b.outcome = side then b.amount else 0 := rfl
    rw [(h.finite side).total_update, r.grow_pool, hstake]
    omega
  · exact Table.forall_update h.positive hpos
  · intro _
    exact Table.forall_update (h.unclaimed hnone) hunclaimed
  · intro _
    rw [houtcome]
    exact hnone

omit [DecidableEq Addr] in
theorem close (h : MarketKept r bets) (hunresolved : r.resolved = false) (outcome : Option Bool) :
    MarketKept { r with resolved := true, outcome := outcome } bets where
  finite := h.finite
  covered := h.covered
  positive := h.positive
  unclaimed _ := h.unclaimed (h.undecided hunresolved)
  undecided hfalse := by cases hfalse

theorem claim (h : MarketKept r bets) {winning : Bool} (houtcome : r.outcome = some winning)
    (hb : bets bettor = some b) :
    MarketKept r (Function.update bets bettor (some { b with claimed := true })) := by
  constructor
  · intro side
    exact (h.finite side).update bettor _
  · intro side
    have hcovered := h.covered side
    have hsame : stake side (some { b with claimed := true }) = stake side (bets bettor) := by
      rw [hb]
      rfl
    rw [(h.finite side).total_update, hsame, sub_self, add_zero]
    exact hcovered
  · exact Table.forall_update h.positive (h.positive bettor b hb)
  · intro hnone
    rw [houtcome] at hnone
    cases hnone
  · exact h.undecided

/-- A claim settles what the bet is due. -/
theorem total_settled_claim (h : MarketKept r bets) {payout : ℤ}
    (houtcome : r.outcome = some b.outcome) (hb : bets bettor = some b)
    (hunclaimed : b.claimed = false) (hpays : totalPayout r b.outcome b.amount = .ok payout) :
    PointSum.total r.settled (Function.update bets bettor (some { b with claimed := true })) =
      PointSum.total r.settled bets + payout := by
  have hnew : r.settled (some { b with claimed := true }) = payout := by
    simp [MarketRecord.settled, MarketRecord.due, houtcome, totalPayout_eq_ok hpays]
  have hold : r.settled (bets bettor) = 0 := by
    simp [MarketRecord.settled, hb, hunclaimed]
  rw [h.finite_settled.total_update, hnew, hold, sub_zero]

end MarketKept

/-- The markets are numbered from one on without gaps behind the count, bets are on record for
existing markets only, and each market keeps its own books. -/
structure Kept (s : State Addr) : Prop where
  market : ∀ m r, s.market m = some r → MarketKept r (s.bet m)
  unused : ∀ m, s.market m = none → ∀ a, s.bet m a = none
  fresh : ∀ m, s.marketCount < m → s.market m = none

def pools (s : State Addr) (m : ℕ) : ℤ :=
  (s.market m).elim 0 fun r => r.yesPool + r.noPool

/-- What was claimed on a market. -/
noncomputable def settled (s : State Addr) (m : ℕ) : ℤ :=
  (s.market m).elim 0 fun r => PointSum.total r.settled (s.bet m)

/-- One if the bet on record was claimed. -/
def claims (s : State Addr) (bettor : Addr) (m : ℕ) : ℤ :=
  (s.bet m bettor).elim 0 fun b => if b.claimed then 1 else 0

section Amounts

/-- What a call brought in for the market `m`. -/
def paidIn (m : ℕ) (s : State Addr) (step : Step Addr home) (t : State Addr) : ℤ :=
  if step.2.betOn = some m then
    (s.market m).elim 0 fun r => t.tokens.balance r.token home - s.tokens.balance r.token home
  else 0

/-- What a call paid out for the market `m`. -/
def paidOut (m : ℕ) (s : State Addr) (step : Step Addr home) (t : State Addr) : ℤ :=
  if step.2.claim.map Prod.snd = some m then
    (s.market m).elim 0 fun r => s.tokens.balance r.token home - t.tokens.balance r.token home
  else 0

/-- One if the call is paid for the bet of `bettor` on `m`. -/
def payments (bettor : Addr) (m : ℕ) (_ : State Addr) (step : Step Addr home) (_ : State Addr) : ℤ :=
  if step.2.claim = some (bettor, m) then 1 else 0

end Amounts

section Steps

variable {s t : State Addr}

omit [DecidableEq Addr] in
theorem Kept.bet_eq (h : Kept s) {m : ℕ} (hnone : s.market m = none) : s.bet m = fun _ => none :=
  funext (h.unused m hnone)

omit [DecidableEq Addr] in
theorem Kept.congr (h : Kept s) (hmarket : t.market = s.market) (hbet : t.bet = s.bet)
    (hcount : t.marketCount = s.marketCount) : Kept t := by
  obtain ⟨hbooks, hunused, hfresh⟩ := h
  constructor
  · rw [hmarket, hbet]
    exact hbooks
  · rw [hmarket, hbet]
    exact hunused
  · rw [hmarket, hcount]
    exact hfresh

omit [DecidableEq Addr] in
/-- A call that rewrites a market and its bets, and nothing else. -/
theorem Kept.rewrite (h : Kept s) {m : ℕ} {r r' : MarketRecord Addr}
    {bets : Addr → Option (BetRecord Addr)} (hr : s.market m = some r)
    (hmarket : t.market = Function.update s.market m (some r'))
    (hbet : t.bet = Function.update s.bet m bets) (hcount : t.marketCount = s.marketCount)
    (hbooks : MarketKept r' bets) : Kept t := by
  constructor
  · intro k x hx
    rw [hmarket] at hx
    rw [hbet]
    obtain ⟨rfl, rfl⟩ | ⟨hne, hold⟩ := Table.update_eq_some_iff.mp hx
    · rw [Function.update_self]
      exact hbooks
    · rw [Function.update_of_ne hne]
      exact h.market k x hold
  · intro k hk
    rw [hmarket] at hk
    obtain ⟨hne, hold⟩ := Table.update_eq_none_iff.mp hk
    rw [hbet, Function.update_of_ne hne]
    exact h.unused k hold
  · rw [hmarket, hcount]
    exact Table.none_update h.fresh hr

theorem Effect.kept_market {call : Call Addr home} (h : Effect home s t call) (hs : Kept s) :
    Kept t := by
  cases h with
  | kept _ _ hmarket hbet hcount _ => exact hs.congr hmarket hbet hcount
  | created r _ _ hpools hunresolved hcount hmarket hbet _ =>
    have hnone := hs.fresh (s.marketCount + 1) (Nat.lt_succ_self _)
    constructor
    · intro m x hx
      rw [hmarket] at hx
      rw [hbet]
      obtain ⟨rfl, rfl⟩ | ⟨-, hold⟩ := Table.update_eq_some_iff.mp hx
      · rw [hs.bet_eq hnone]
        exact MarketKept.opened hpools hunresolved.2
      · exact hs.market m x hold
    · intro m hm
      rw [hmarket] at hm
      rw [hbet]
      exact hs.unused m (Table.update_eq_none_iff.mp hm).2
    · intro m hm
      rw [hmarket, Table.update_eq_none_iff]
      exact ⟨by omega, hs.fresh m (by omega)⟩
  | placed bettor m r b _ _ hr hunresolved hpos hunclaimed hcount hmarket hbet _ =>
    exact hs.rewrite hr hmarket hbet hcount ((hs.market m r hr).place hunresolved hpos hunclaimed)
  | closed m r outcome _ _ hr hunresolved hcount hmarket hbet _ =>
    have hsame : t.bet = Function.update s.bet m (s.bet m) := by
      rw [hbet, Function.update_eq_self]
    exact hs.rewrite hr hmarket hsame hcount ((hs.market m r hr).close hunresolved outcome)
  | claimed bettor m r b winning payout _ _ hr _ houtcome hb _ _ _ hcount hmarket hbet _ =>
    have hsame : t.market = Function.update s.market m (some r) := by
      rw [hmarket, ← hr, Function.update_eq_self]
    exact hs.rewrite hr hsame hbet hcount ((hs.market m r hr).claim houtcome hb)

end Steps

section Movements

variable {s t : State Addr} {call : Call Addr home}

omit [DecidableEq Addr] in
theorem pools_of_some {m : ℕ} {r : MarketRecord Addr} (hr : s.market m = some r) :
    pools s m = r.yesPool + r.noPool := by
  rw [pools, hr]
  rfl

omit [DecidableEq Addr] in
theorem settled_of_some {m : ℕ} {r : MarketRecord Addr} (hr : s.market m = some r) :
    settled s m = PointSum.total r.settled (s.bet m) := by
  rw [settled, hr]
  rfl

omit [DecidableEq Addr] in
theorem MarketRecord.grow_total (r : MarketRecord Addr) (outcome : Bool) (amount : ℤ) :
    (r.grow outcome amount).yesPool + (r.grow outcome amount).noPool =
      r.yesPool + r.noPool + amount := by
  unfold grow
  split_ifs
  · show r.yesPool + amount + r.noPool = _
    ring
  · show r.yesPool + (r.noPool + amount) = _
    ring

/-- A bet brings its amount into the pools of the market, and nothing else touches them. -/
theorem Effect.pools (inv : Invocation Addr home) (h : Effect home s t call) (hs : Kept s) (m : ℕ) :
    pools t m = pools s m + paidIn m s (inv, call) t := by
  unfold paidIn
  cases h with
  | kept hbetOn _ hmarket _ _ _ =>
    simp [PredictionMarket.pools, hbetOn, hmarket]
  | created r hbetOn _ hpools _ _ hmarket _ _ =>
    have hnone := hs.fresh (s.marketCount + 1) (Nat.lt_succ_self _)
    simp only [hbetOn, reduceCtorEq, if_false, add_zero]
    by_cases hm : m = s.marketCount + 1
    · subst hm
      simp [PredictionMarket.pools, hmarket, hnone, hpools]
    · simp [PredictionMarket.pools, hmarket, hm]
  | placed bettor k r b hbetOn _ hr _ _ _ _ hmarket _ hheld =>
    by_cases hm : k = m
    · subst hm
      have hafter : t.market k = some (r.grow b.outcome b.amount) := by
        rw [hmarket, Function.update_self]
      rw [if_pos hbetOn, hr, pools_of_some hafter, pools_of_some hr, r.grow_total]
      simp [hheld]
    · have hother : call.betOn ≠ some m := by
        rw [hbetOn]
        intro heq
        exact hm (Option.some.inj heq)
      rw [if_neg hother, add_zero]
      simp [PredictionMarket.pools, hmarket, Ne.symm hm]
  | closed k r outcome hbetOn _ hr _ _ hmarket _ _ =>
    simp only [hbetOn, reduceCtorEq, if_false, add_zero]
    by_cases hm : m = k
    · subst hm
      simp [PredictionMarket.pools, hmarket, hr]
    · simp [PredictionMarket.pools, hmarket, hm]
  | claimed bettor k r b winning payout hbetOn _ _ _ _ _ _ _ _ _ hmarket _ _ =>
    simp [PredictionMarket.pools, hbetOn, hmarket]

/-- A claim settles what it pays, and nothing else counts as settled. -/
theorem Effect.settled (inv : Invocation Addr home) (h : Effect home s t call) (hs : Kept s) (m : ℕ) :
    settled t m = settled s m + paidOut m s (inv, call) t := by
  unfold paidOut
  cases h with
  | kept _ hclaim hmarket hbet _ _ =>
    simp [PredictionMarket.settled, hclaim, hmarket, hbet]
  | created r _ hclaim _ _ _ hmarket hbet _ =>
    have hnone := hs.fresh (s.marketCount + 1) (Nat.lt_succ_self _)
    simp only [hclaim, Option.map_none, reduceCtorEq, if_false, add_zero]
    by_cases hm : m = s.marketCount + 1
    · subst hm
      have hafter : t.market (s.marketCount + 1) = some r := by
        rw [hmarket, Function.update_self]
      rw [settled_of_some hafter, hbet, hs.bet_eq hnone, PointSum.total_const (v := none) rfl,
        PredictionMarket.settled, hnone]
      rfl
    · simp [PredictionMarket.settled, hmarket, hbet, hm]
  | placed bettor k r b _ hclaim hr hunresolved _ hunclaimed _ hmarket hbet _ =>
    simp only [hclaim, Option.map_none, reduceCtorEq, if_false, add_zero]
    by_cases hm : m = k
    · subst hm
      have hbefore := (hs.market m r hr).unclaimed ((hs.market m r hr).undecided hunresolved)
      have hafter : t.market m = some (r.grow b.outcome b.amount) := by
        rw [hmarket, Function.update_self]
      rw [settled_of_some hafter, settled_of_some hr, r.total_settled_eq_zero hbefore, hbet,
        Function.update_self]
      exact (r.grow b.outcome b.amount).total_settled_eq_zero
        (Table.forall_update hbefore hunclaimed)
    · simp [PredictionMarket.settled, hmarket, hbet, hm]
  | closed k r outcome _ hclaim hr hunresolved _ hmarket hbet _ =>
    simp only [hclaim, Option.map_none, reduceCtorEq, if_false, add_zero]
    by_cases hm : m = k
    · subst hm
      have hbefore := (hs.market m r hr).unclaimed ((hs.market m r hr).undecided hunresolved)
      have hafter : t.market m = some { r with resolved := true, outcome := outcome } := by
        rw [hmarket, Function.update_self]
      rw [settled_of_some hafter, settled_of_some hr, hbet, r.total_settled_eq_zero hbefore]
      exact MarketRecord.total_settled_eq_zero _ hbefore
    · simp [PredictionMarket.settled, hmarket, hbet, hm]
  | claimed bettor k r b winning payout _ hclaim hr _ houtcome hb hunclaimed hwon hpays _ hmarket
      hbet hheld =>
    by_cases hm : k = m
    · subst hm
      subst hwon
      have hafter : t.market k = some r := by rw [hmarket, hr]
      rw [hclaim, Option.map_some, if_pos rfl, settled_of_some hafter, settled_of_some hr, hbet,
        Function.update_self, (hs.market k r hr).total_settled_claim houtcome hb hunclaimed hpays, hr]
      simp [hheld]
    · have hother : call.claim.map Prod.snd ≠ some m := by
        rw [hclaim]
        intro heq
        exact hm (Option.some.inj heq)
      rw [if_neg hother, add_zero]
      simp [PredictionMarket.settled, hmarket, hbet, Ne.symm hm]

/-- One bet is rewritten, and the others stay. -/
theorem update_bet_of_ne {bet : ℕ → Addr → Option (BetRecord Addr)} {a bettor : Addr} {k m : ℕ}
    {o : Option (BetRecord Addr)} (hkey : ¬ (a = bettor ∧ k = m)) :
    Function.update bet k (Function.update (bet k) a o) m bettor = bet m bettor := by
  by_cases hm : m = k
  · subst hm
    have hne : bettor ≠ a := by
      intro heq
      exact hkey ⟨heq.symm, rfl⟩
    rw [Function.update_self, Function.update_of_ne hne]
  · rw [Function.update_of_ne hm]

/-- A bet counts as claimed once it was paid. -/
theorem Effect.claims (inv : Invocation Addr home) (h : Effect home s t call) (hs : Kept s)
    (bettor : Addr) (m : ℕ) :
    claims t bettor m = claims s bettor m + payments bettor m s (inv, call) t := by
  unfold payments PredictionMarket.claims
  cases h with
  | kept _ hclaim _ hbet _ _ => simp [hclaim, hbet]
  | created r _ hclaim _ _ _ _ hbet _ => simp [hclaim, hbet]
  | closed k r outcome _ hclaim _ _ _ _ hbet _ => simp [hclaim, hbet]
  | placed a k r b _ hclaim hr hunresolved _ hunclaimed _ _ hbet _ =>
    have hbefore := (hs.market k r hr).unclaimed ((hs.market k r hr).undecided hunresolved)
    simp only [hclaim, reduceCtorEq, if_false, add_zero]
    by_cases hkey : a = bettor ∧ k = m
    · obtain ⟨rfl, rfl⟩ := hkey
      cases hold : s.bet k a with
      | none => simp [hbet, hunclaimed]
      | some old => simp [hbet, hunclaimed, hbefore a old hold]
    · rw [hbet, update_bet_of_ne hkey]
  | claimed a k r b winning payout _ hclaim _ _ _ hb hunclaimed _ _ _ _ hbet _ =>
    by_cases hkey : a = bettor ∧ k = m
    · obtain ⟨rfl, rfl⟩ := hkey
      simp [hclaim, hbet, hb, hunclaimed]
    · have hother : call.claim ≠ some (bettor, m) := by
        rw [hclaim]
        intro heq
        exact hkey (Prod.mk.inj (Option.some.inj heq))
      rw [if_neg hother, add_zero, hbet, update_bet_of_ne hkey]

end Movements

end PredictionMarket
