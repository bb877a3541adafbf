import MentorsMind.PredictionMarket.Books

/-! The bets and the winnings of every bettor over a run, against what is on record of them. -/
namespace PredictionMarket
open Outcome Soroban Shared

variable {Addr : Type} [DecidableEq Addr] {home : Addr}

section Amounts

/-- One if the call is a bet of `bettor` on `m`. -/
def betsBy (bettor : Addr) (m : ℕ) (_ : State Addr) (step : Step Addr home) (_ : State Addr) : ℤ :=
  match step.2 with
  | .placeBet a k _ _ => if a = bettor ∧ k = m then 1 else 0
  | _ => 0

/-- What the call stakes for `bettor` on one side of `m`. -/
def stakedBy (bettor : Addr) (m : ℕ) (side : Bool) (_ : State Addr) (step : Step Addr home)
    (_ : State Addr) : ℤ :=
  match step.2 with
  | .placeBet a k outcome amount =>
      if a = bettor ∧ k = m then if outcome = side then amount else 0 else 0
  | _ => 0

/-- What the call pays for the bet of `bettor` on `m`. -/
def wonBy (bettor : Addr) (m : ℕ) (s : State Addr) (step : Step Addr home) (t : State Addr) : ℤ :=
  if step.2.claim = some (bettor, m) then paidOut m s step t else 0

variable {s t : State Addr} {step : Step Addr home} {bettor : Addr} {m : ℕ}

theorem betsBy_eq_zero (h : step.2.betOn ≠ some m) : betsBy bettor m s step t = 0 := by
  unfold betsBy
  split
  · rename_i hcall
    rw [hcall] at h
    rw [if_neg]
    rintro ⟨-, rfl⟩
    exact h rfl
  · rfl

theorem stakedBy_eq_zero {side : Bool} (h : step.2.betOn ≠ some m) :
    stakedBy bettor m side s step t = 0 := by
  unfold stakedBy
  split
  · rename_i hcall
    rw [hcall] at h
    rw [if_neg]
    rintro ⟨-, rfl⟩
    exact h rfl
  · rfl

theorem wonBy_eq_zero (h : step.2.claim.map Prod.snd ≠ some m) : wonBy bettor m s step t = 0 := by
  unfold wonBy
  rw [if_neg]
  intro hclaim
  rw [hclaim] at h
  exact h rfl

end Amounts

section Moves

/-- What a successful call does to the market `m` and to the bets on it. -/
inductive Move (m : ℕ) (s t : State Addr) (call : Call Addr home) : Prop where
  | away (betOn : call.betOn ≠ some m) (claim : call.claim.map Prod.snd ≠ some m)
      (market : t.market m = s.market m) (bet : t.bet m = s.bet m)
  | opened (r : MarketRecord Addr) (betOn : call.betOn ≠ some m)
      (claim : call.claim.map Prod.snd ≠ some m) (found : s.market m = none)
      (market : t.market m = some r) (pools : r.yesPool = 0 ∧ r.noPool = 0)
      (outcome : r.outcome = none) (bet : t.bet m = s.bet m)
  | placed (bettor : Addr) (r : MarketRecord Addr) (b : BetRecord Addr) (outsider : bettor ≠ home)
      (call_eq : call = .placeBet bettor m b.outcome b.amount) (found : s.market m = some r)
      (unresolved : r.resolved = false) (positive : 0 < b.amount) (unclaimed : b.claimed = false)
      (yes : FitsI128 ((r.grow b.outcome b.amount).yesPool * fixedPointScale))
      (no : FitsI128 ((r.grow b.outcome b.amount).noPool * fixedPointScale))
      (market : t.market m = some (r.grow b.outcome b.amount))
      (bet : t.bet m = Function.update (s.bet m) bettor (some b))
  | closed (r : MarketRecord Addr) (outcome : Option Bool) (betOn : call.betOn ≠ some m)
      (claim : call.claim.map Prod.snd ≠ some m) (found : s.market m = some r)
      (unresolved : r.resolved = false)
      (market : t.market m = some { r with resolved := true, outcome := outcome })
      (bet : t.bet m = s.bet m)
  | claimed (bettor : Addr) (r : MarketRecord Addr) (b : BetRecord Addr) (payout : ℤ)
      (betOn : call.betOn ≠ some m) (claim : call.claim = some (bettor, m))
      (found : s.market m = some r) (outcome : r.outcome = some b.outcome)
      (stored : s.bet m bettor = some b) (unclaimed : b.claimed = false)
      (pays : totalPayout r b.outcome b.amount = .ok payout)
      (market : t.market m = some r)
      (bet : t.bet m = Function.update (s.bet m) bettor (some { b with claimed := true }))
      (paid : s.tokens.balance r.token home - t.tokens.balance r.token home = payout)

variable {s t : State Addr} {inv : Invocation Addr home} {call : Call Addr home}

/-- A call that is no bet, seen from one market. -/
theorem Effect.move (h : Effect home s t call) (hs : Kept s) (hbetOn : call.betOn = none) (m : ℕ) :
    Move m s t call := by
  have hnobet : call.betOn ≠ some m := by simp [hbetOn]
  cases h with
  | kept _ hclaim hmarket hbet _ _ =>
    exact .away hnobet (by simp [hclaim]) (by rw [hmarket]) (by rw [hbet])
  | created r _ hclaim hpools hunresolved _ hmarket hbet _ =>
    by_cases hm : m = s.marketCount + 1
    · subst hm
      have hnone := hs.fresh (s.marketCount + 1) (Nat.lt_succ_self _)
      refine .opened r hnobet (by simp [hclaim]) hnone ?_ hpools hunresolved.2 (by rw [hbet])
      rw [hmarket, Function.update_self]
    · refine .away hnobet (by simp [hclaim]) ?_ (by rw [hbet])
      rw [hmarket, Function.update_of_ne hm]
  | placed bettor k r b hbets _ _ _ _ _ _ _ _ _ =>
    rw [hbetOn] at hbets
    cases hbets
  | closed k r outcome _ hclaim hr hunresolved _ hmarket hbet _ =>
    by_cases hm : m = k
    · subst hm
      refine .closed r outcome hnobet (by simp [hclaim]) hr hunresolved ?_ (by rw [hbet])
      rw [hmarket, Function.update_self]
    · refine .away hnobet (by simp [hclaim]) ?_ (by rw [hbet])
      rw [hmarket, Function.update_of_ne hm]
  | claimed bettor k r b winning payout _ hclaim hr _ houtcome hb hunclaimed hwon hpays _ hmarket
      hbet hheld =>
    by_cases hm : m = k
    · subst hm
      subst hwon
      refine .claimed bettor r b payout hnobet hclaim hr houtcome hb hunclaimed hpays ?_ ?_ ?_
      · rw [hmarket, hr]
      · rw [hbet, Function.update_self]
      · simp [hheld]
    · refine .away hnobet (by simp [hclaim, Ne.symm hm]) (by rw [hmarket]) ?_
      rw [hbet, Function.update_of_ne hm]

theorem exec_move (h : exec inv call s = .ok t) (hs : Kept s) (m : ℕ) : Move m s t call := by
  have heffect : Effect home s t call := exec_effect h
  cases call with
  | placeBet bettor k outcome amount =>
    obtain ⟨r, tokens, hr, hunresolved, hpos, hyes, hno, hauth, -, rfl⟩ := placeBet_eq_ok h
    by_cases hm : k = m
    · subst hm
      exact .placed bettor r ⟨bettor, k, outcome, amount, false⟩ (Env.ne_self_of_auth hauth) rfl hr
        hunresolved hpos rfl hyes hno (Function.update_self ..) (Function.update_self ..)
    · refine .away ?_ (by simp [Call.claim]) (Function.update_of_ne (Ne.symm hm) ..)
        (Function.update_of_ne (Ne.symm hm) ..)
      intro heq
      exact hm (Option.some.inj heq)
  | setPauseGuardian admin guardian => exact heffect.move hs rfl m
  | createMarket creator terms => exact heffect.move hs rfl m
  | resolveMarket k outcome outcomeProof => exact heffect.move hs rfl m
  | cancelMarket k => exact heffect.move hs rfl m
  | claimWinnings bettor k => exact heffect.move hs rfl m
  | elsewhere e => exact heffect.move hs rfl m

end Moves

/-- A claim leaves the stakes on record as they are. -/
theorem stake_claimed {bets : Addr → Option (BetRecord Addr)} {bettor : Addr} {b : BetRecord Addr}
    (hb : bets bettor = some b) (side : Bool) (a : Addr) :
    stake side (Function.update bets bettor (some { b with claimed := true }) a) =
      stake side (bets a) := by
  by_cases ha : a = bettor
  · subst ha
    rw [Function.update_self, hb]
    rfl
  · rw [Function.update_of_ne ha]

/-- What the bettors did on `m` so far (how often each has bet, what each staked on either side and
what each was paid) against what is on record. -/
structure Accounts (m : ℕ) (s : State Addr) (count : Addr → ℤ) (staked : Addr → Bool → ℤ)
    (won : Addr → ℤ) : Prop where
  count_nonneg : ∀ a, 0 ≤ count a
  unplaced : ∀ a, s.bet m a = none ↔ count a = 0
  single : ∀ a, count a ≤ 1 → ∀ side, stake side (s.bet m a) = staked a side
  recorded : ∀ r, s.market m = some r →
    ((∀ side, PointSum.total (stake side) (s.bet m) = r.pool side) ↔ ∀ a, count a ≤ 1)
  won_eq : ∀ a, won a = (s.market m).elim 0 fun r => r.settled (s.bet m a)
  scaled : ∀ r side, s.market m = some r → FitsI128 (r.pool side * fixedPointScale)
  fits : ∀ r a b, s.market m = some r → s.bet m a = some b → b.claimed = true →
    FitsI128 (r.net b.outcome * b.amount)

namespace Accounts

variable {m : ℕ} {s t : State Addr} {count : Addr → ℤ} {staked : Addr → Bool → ℤ} {won : Addr → ℤ}

omit [DecidableEq Addr] in
theorem congr (h : Accounts m s count staked won) (hmarket : t.market m = s.market m)
    (hbet : t.bet m = s.bet m) : Accounts m t count staked won := by
  constructor
  · exact h.count_nonneg
  · rw [hbet]
    exact h.unplaced
  · rw [hbet]
    exact h.single
  · rw [hmarket, hbet]
    exact h.recorded
  · rw [hmarket, hbet]
    exact h.won_eq
  · rw [hmarket]
    exact h.scaled
  · rw [hmarket, hbet]
    exact h.fits

omit [DecidableEq Addr] in
/-- A market starts without bets. -/
theorem opened (h : Accounts m s count staked won) (hs : Kept s) (hnone : s.market m = none)
    {r : MarketRecord Addr} (hmarket : t.market m = some r) (hpools : r.yesPool = 0 ∧ r.noPool = 0)
    (hbet : t.bet m = s.bet m) : Accounts m t count staked won := by
  have hempty : t.bet m = fun _ => none := hbet.trans (hs.bet_eq hnone)
  have hpool : ∀ side, r.pool side = 0 := by
    intro side
    cases side with
    | false => exact hpools.2
    | true => exact hpools.1
  have hcount : ∀ a, count a = 0 := fun a => (h.unplaced a).mp (hs.unused m hnone a)
  constructor
  · exact h.count_nonneg
  · rw [hbet]
    exact h.unplaced
  · rw [hbet]
    exact h.single
  · intro x hx
    obtain rfl := Option.some.inj (hmarket.symm.trans hx)
    constructor
    · intro _ a
      rw [hcount a]
      exact zero_le_one
    · intro _ side
      rw [hempty, hpool, PointSum.total_const (w := stake side) (v := none) rfl]
  · intro a
    rw [h.won_eq a, hnone, hmarket, hempty]
    rfl
  · intro x side hx
    obtain rfl := Option.some.inj (hmarket.symm.trans hx)
    rw [hpool, zero_mul]
    decide
  · intro x a b _ hb
    rw [hempty] at hb
    cases hb

omit [DecidableEq Addr] in
/-- Nothing is paid before the outcome is known. -/
theorem closed (h : Accounts m s count staked won) (hs : Kept s) {r : MarketRecord Addr}
    (hr : s.market m = some r) (hunresolved : r.resolved = false) {outcome : Option Bool}
    (hmarket : t.market m = some { r with resolved := true, outcome := outcome })
    (hbet : t.bet m = s.bet m) : Accounts m t count staked won := by
  have hkept := hs.market m r hr
  have hunclaimed := hkept.unclaimed (hkept.undecided hunresolved)
  constructor
  · exact h.count_nonneg
  · rw [hbet]
    exact h.unplaced
  · rw [hbet]
    exact h.single
  · intro x hx
    obtain rfl := Option.some.inj (hmarket.symm.trans hx)
    rw [hbet]
    exact h.recorded r hr
  · intro a
    rw [h.won_eq a, hr, hmarket, hbet]
    cases hb : s.bet m a with
    | none => rfl
    | some b => simp [MarketRecord.settled, hunclaimed a b hb]
  · intro x side hx
    obtain rfl := Option.some.inj (hmarket.symm.trans hx)
    exact h.scaled r side hr
  · intro x a b _ hb hclaimed
    rw [hbet] at hb
    rw [hunclaimed a b hb] at hclaimed
    cases hclaimed

/-- The stakes on record add up to the pools as long as no bet takes the place of another. -/
theorem recorded_place (h : Accounts m s count staked won) {r : MarketRecord Addr}
    {b : BetRecord Addr} {bettor : Addr} (hr : s.market m = some r)
    (hkept : MarketKept r (s.bet m)) :
    (∀ side, PointSum.total (stake side) (Function.update (s.bet m) bettor (some b)) =
      (r.grow b.outcome b.amount).pool side) ↔
        ∀ a, count a + (if bettor = a then 1 else 0) ≤ 1 := by
  have htotal : ∀ side, PointSum.total (stake side) (Function.update (s.bet m) bettor (some b)) =
      PointSum.total (stake side) (s.bet m) +
        ((if b.outcome = side then b.amount else 0) - stake side (s.bet m bettor)) :=
    fun side => (hkept.finite side).total_update bettor (some b)
  cases hold : s.bet m bettor with
  | none =>
    have hzero := (h.unplaced bettor).mp hold
    have hsame : (∀ a, count a + (if bettor = a then 1 else 0) ≤ 1) ↔ ∀ a, count a ≤ 1 := by
      apply forall_congr'
      intro a
      split_ifs with ha
      · subst ha
        simp [hzero]
      · rw [add_zero]
    rw [hsame, ← h.recorded r hr]
    apply forall_congr'
    intro side
    have hnone : stake side (none : Option (BetRecord Addr)) = 0 := rfl
    rw [htotal, r.grow_pool, hold, hnone, sub_zero, add_left_inj]
  | some old =>
    have hbefore : count bettor ≠ 0 := by
      intro hzero
      rw [(h.unplaced bettor).mpr hzero] at hold
      cases hold
    have hnonneg := h.count_nonneg bettor
    constructor
    · intro hall
      -- what the old bet had staked is now missing on its side
      have hside := hall old.outcome
      have hcovered := hkept.covered old.outcome
      have hstaked : stake old.outcome (some old) = old.amount := by simp [stake]
      have holdpos := hkept.positive bettor old hold
      rw [htotal, r.grow_pool, hold, hstaked] at hside
      omega
    · intro hall
      have htwice := hall bettor
      rw [if_pos rfl] at htwice
      omega

theorem place (h : Accounts m s count staked won) (hs : Kept s) {r : MarketRecord Addr}
    {b : BetRecord Addr} {bettor : Addr} (hr : s.market m = some r) (hunresolved : r.resolved = false)
    (hunclaimed : b.claimed = false)
    (hyes : FitsI128 ((r.grow b.outcome b.amount).yesPool * fixedPointScale))
    (hno : FitsI128 ((r.grow b.outcome b.amount).noPool * fixedPointScale))
    (hmarket : t.market m = some (r.grow b.outcome b.amount))
    (hbet : t.bet m = Function.update (s.bet m) bettor (some b)) :
    Accounts m t (fun a => count a + if bettor = a then 1 else 0)
      (fun a side => staked a side +
        if bettor = a then if b.outcome = side then b.amount else 0 else 0) won := by
  have hkept := hs.market m r hr
  have hbefore := hkept.unclaimed (hkept.undecided hunresolved)
  have hafter : ∀ a x, t.bet m a = some x → x.claimed = false := by
    rw [hbet]
    exact Table.forall_update hbefore hunclaimed
  constructor
  · intro a
    have hnonneg := h.count_nonneg a
    split_ifs
    · omega
    · omega
  · intro a
    have hnonneg := h.count_nonneg a
    rw [hbet, Table.update_eq_none_iff, h.unplaced a, ne_eq, eq_comm (a := a)]
    split_ifs with ha
    · simp only [ha, not_true_eq_false, false_and, false_iff]
      omega
    · simp [ha]
  · intro a hcount side
    rw [hbet]
    by_cases ha : bettor = a
    · subst ha
      rw [if_pos rfl] at hcount
      have hnonneg := h.count_nonneg bettor
      have hzero : count bettor = 0 := by omega
      have hnone := (h.unplaced bettor).mpr hzero
      have hstaked := h.single bettor (by omega) side
      rw [hnone] at hstaked
      have hunstaked : staked bettor side = 0 := hstaked.symm
      rw [Function.update_self, if_pos rfl, hunstaked, zero_add]
      rfl
    · rw [if_neg ha, add_zero] at hcount
      rw [Function.update_of_ne (Ne.symm ha), if_neg ha, add_zero]
      exact h.single a hcount side
  · intro x hx
    obtain rfl := Option.some.inj (hmarket.symm.trans hx)
    rw [hbet]
    exact h.recorded_place hr hkept
  · intro a
    have hold : r.settled (s.bet m a) = 0 := by
      cases hb : s.bet m a with
      | none => rfl
      | some x => simp [MarketRecord.settled, hbefore a x hb]
    rw [h.won_eq a, hr, hmarket]
    show r.settled (s.bet m a) = (r.grow b.outcome b.amount).settled (t.bet m a)
    rw [hold]
    cases hb : t.bet m a with
    | none => rfl
    | some x => simp [MarketRecord.settled, hafter a x hb]
  · intro x side hx
    obtain rfl := Option.some.inj (hmarket.symm.trans hx)
    cases side with
    | false => exact hno
    | true => exact hyes
  · intro x a y _ hy hclaimed
    rw [hafter a y hy] at hclaimed
    cases hclaimed

theorem claim (h : Accounts m s count staked won) {r : MarketRecord Addr} {b : BetRecord Addr}
    {bettor : Addr} {payout : ℤ} (hr : s.market m = some r) (houtcome : r.outcome = some b.outcome)
    (hb : s.bet m bettor = some b) (hunclaimed : b.claimed = false)
    (hpays : totalPayout r b.outcome b.amount = .ok payout) (hmarket : t.market m = some r)
    (hbet : t.bet m = Function.update (s.bet m) bettor (some { b with claimed := true })) :
    Accounts m t count staked (fun a => won a + if bettor = a then payout else 0) := by
  have hstake : ∀ side a, stake side (t.bet m a) = stake side (s.bet m a) := by
    intro side a
    rw [hbet]
    exact stake_claimed hb side a
  have hsame : ∀ x, t.market m = some x ↔ s.market m = some x := by
    intro x
    rw [hmarket, hr]
  constructor
  · exact h.count_nonneg
  · intro a
    rw [hbet, Table.update_eq_none_iff, ← h.unplaced a]
    constructor
    · exact And.right
    · intro hnone
      refine ⟨?_, hnone⟩
      rintro rfl
      rw [hb] at hnone
      cases hnone
  · intro a hcount side
    rw [hstake]
    exact h.single a hcount side
  · intro x hx
    rw [← h.recorded x ((hsame x).mp hx)]
    apply forall_congr'
    intro side
    rw [PointSum.total_congr (hstake side)]
  · intro a
    rw [h.won_eq a, hr, hmarket, hbet]
    show r.settled (s.bet m a) + _ = r.settled _
    by_cases ha : bettor = a
    · subst ha
      have hnew : r.settled (some { b with claimed := true }) = payout := by
        simp [MarketRecord.settled, MarketRecord.due, houtcome, totalPayout_eq_ok hpays]
      have hold : r.settled (s.bet m bettor) = 0 := by
        simp [MarketRecord.settled, hb, hunclaimed]
      rw [hold, Function.update_self, if_pos rfl, hnew, zero_add]
    · rw [Function.update_of_ne (Ne.symm ha), if_neg ha, add_zero]
  · intro x side hx
    exact h.scaled x side ((hsame x).mp hx)
  · intro x a y hx hy hclaimed
    have hxr := (hsame x).mp hx
    obtain rfl := Option.some.inj (hr.symm.trans hxr)
    rw [hbet] at hy
    obtain ⟨-, rfl⟩ | ⟨-, hother⟩ := Table.update_eq_some_iff.mp hy
    · exact fits_of_totalPayout hpays
    · exact h.fits r a y hr hother hclaimed

/-- Each call enters its bet, its stake and its payment. -/
theorem move (h : Accounts m s count staked won) (hs : Kept s) {inv : Invocation Addr home}
    {call : Call Addr home} (hmove : Move m s t call) :
    Accounts m t (fun a => count a + betsBy a m s (inv, call) t)
      (fun a side => staked a side + stakedBy a m side s (inv, call) t)
      (fun a => won a + wonBy a m s (inv, call) t) := by
  have hnobet : call.betOn ≠ some m → ∀ a, betsBy a m s (inv, call) t = 0 ∧
      ∀ side, stakedBy a m side s (inv, call) t = 0 :=
    fun hbetOn a => ⟨betsBy_eq_zero hbetOn, fun side => stakedBy_eq_zero hbetOn⟩
  have hquiet : call.betOn ≠ some m → call.claim.map Prod.snd ≠ some m →
      Accounts m t count staked won → Accounts m t (fun a => count a + betsBy a m s (inv, call) t)
        (fun a side => staked a side + stakedBy a m side s (inv, call) t)
        (fun a => won a + wonBy a m s (inv, call) t) := by
    intro hbetOn hclaim hsame
    have hunpaid : ∀ a, wonBy a m s (inv, call) t = 0 := fun a => wonBy_eq_zero hclaim
    simpa only [hnobet hbetOn, hunpaid, add_zero] using hsame
  cases hmove with
  | away hbetOn hclaim hmarket hbet => exact hquiet hbetOn hclaim (h.congr hmarket hbet)
  | opened r hbetOn hclaim hnone hmarket hpools _ hbet =>
    exact hquiet hbetOn hclaim (h.opened hs hnone hmarket hpools hbet)
  | closed r outcome hbetOn hclaim hr hunresolved hmarket hbet =>
    exact hquiet hbetOn hclaim (h.closed hs hr hunresolved hmarket hbet)
  | placed bettor r b _ hcall hr hunresolved _ hunclaimed hyes hno hmarket hbet =>
    subst hcall
    have hplaced := h.place hs hr hunresolved hunclaimed hyes hno hmarket hbet
    simpa [betsBy, stakedBy, wonBy, Call.claim] using hplaced
  | claimed bettor r b payout hbetOn hclaim hr houtcome hb hunclaimed hpays hmarket hbet hpaid =>
    have hclaimed := h.claim hr houtcome hb hunclaimed hpays hmarket hbet
    have hwon : ∀ a, wonBy a m s (inv, call) t = if bettor = a then payout else 0 := by
      intro a
      simp [wonBy, paidOut, hclaim, hr, hpaid]
    simpa only [hnobet hbetOn, hwon, add_zero] using hclaimed

end Accounts

end PredictionMarket
