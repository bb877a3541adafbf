import MentorsMind.PredictionMarket.Contract

/-! What a successful call does to the markets, to the bets and to what the contract holds. -/
namespace PredictionMarket
open Outcome Soroban Shared

variable {Addr : Type} {self : Addr} {inv : Invocation Addr self} {s t : State Addr}

/-- The market that a call bets on. -/
def Call.betOn : Call Addr self → Option ℕ
  | .placeBet _ marketId _ _ => some marketId
  | _ => none

/-- The bet that a call claims for. -/
def Call.claim : Call Addr self → Option (Addr × ℕ)
  | .claimWinnings bettor marketId => some (bettor, marketId)
  | _ => none

/-- The market record with `amount` more in the pool of `outcome`. -/
def MarketRecord.grow (r : MarketRecord Addr) (outcome : Bool) (amount : ℤ) : MarketRecord Addr :=
  if outcome then { r with yesPool := r.yesPool + amount }
  else { r with noPool := r.noPool + amount }

theorem MarketRecord.grow_pool (r : MarketRecord Addr) (outcome side : Bool) (amount : ℤ) :
    (r.grow outcome amount).pool side =
      r.pool side + if outcome = side then amount else 0 := by
  cases outcome <;> cases side <;> simp [grow, pool]

variable [DecidableEq Addr]

/-- What a successful call does. -/
inductive Effect (home : Addr) (s t : State Addr) (call : Call Addr home) : Prop where
  | kept (betOn : call.betOn = none) (claim : call.claim = none) (market : t.market = s.market)
      (bet : t.bet = s.bet) (count : t.marketCount = s.marketCount)
      (held : ∀ x, s.tokens.balance x home ≤ t.tokens.balance x home)
  | created (r : MarketRecord Addr) (betOn : call.betOn = none) (claim : call.claim = none)
      (pools : r.yesPool = 0 ∧ r.noPool = 0) (unresolved : r.resolved = false ∧ r.outcome = none)
      (count : t.marketCount = s.marketCount + 1)
      (market : t.market = Function.update s.market (s.marketCount + 1) (some r))
      (bet : t.bet = s.bet) (held : t.tokens = s.tokens)
  | placed (bettor : Addr) (marketId : ℕ) (r : MarketRecord Addr) (b : BetRecord Addr)
      (betOn : call.betOn = some marketId) (claim : call.claim = none)
      (found : s.market marketId = some r) (unresolved : r.resolved = false)
      (positive : 0 < b.amount) (unclaimed : b.claimed = false)
      (count : t.marketCount = s.marketCount)
      (market : t.market = Function.update s.market marketId (some (r.grow b.outcome b.amount)))
      (bet : t.bet = Function.update s.bet marketId
        (Function.update (s.bet marketId) bettor (some b)))
      (held : ∀ x, t.tokens.balance x home =
        s.tokens.balance x home + if x = r.token then b.amount else 0)
  | closed (marketId : ℕ) (r : MarketRecord Addr) (outcome : Option Bool)
      (betOn : call.betOn = none) (claim : call.claim = none)
      (found : s.market marketId = some r) (unresolved : r.resolved = false)
      (count : t.marketCount = s.marketCount)
      (market : t.market = Function.update s.market marketId
        (some { r with resolved := true, outcome := outcome }))
      (bet : t.bet = s.bet) (held : t.tokens = s.tokens)
  | claimed (bettor : Addr) (marketId : ℕ) (r : MarketRecord Addr) (b : BetRecord Addr)
      (winning : Bool) (payout : ℤ) (betOn : call.betOn = none)
      (claim : call.claim = some (bettor, marketId)) (found : s.market marketId = some r)
      (resolved : r.resolved = true) (outcome : r.outcome = some winning)
      (stored : s.bet marketId bettor = some b) (unclaimed : b.claimed = false)
      (won : b.outcome = winning) (pays : totalPayout r winning b.amount = .ok payout)
      (count : t.marketCount = s.marketCount) (market : t.market = s.market)
      (bet : t.bet = Function.update s.bet marketId
        (Function.update (s.bet marketId) bettor (some { b with claimed := true })))
      (held : ∀ x, t.tokens.balance x home =
        s.tokens.balance x home - if x = r.token then payout else 0)

omit [DecidableEq Addr] in
theorem grownPools_eq_ok {r : MarketRecord Addr} {outcome : Bool} {amount yes no : ℤ}
    (h : grownPools r outcome amount = .ok (yes, no)) :
    { r with yesPool := yes, noPool := no } = r.grow outcome amount := by
  unfold grownPools at h
  unfold MarketRecord.grow
  split_ifs at h ⊢
  · simp only [bind_eq_ok, checkedI128_eq_ok, pure_eq_ok] at h
    obtain ⟨next, ⟨-, rfl⟩, hpair⟩ := h
    obtain ⟨rfl, rfl⟩ := Prod.mk.inj hpair
    rfl
  · simp only [bind_eq_ok, checkedI128_eq_ok, pure_eq_ok] at h
    obtain ⟨next, ⟨-, rfl⟩, hpair⟩ := h
    obtain ⟨rfl, rfl⟩ := Prod.mk.inj hpair
    rfl

/-- A bet that is accepted is paid for, goes into the pool of its outcome and is put on record. -/
theorem placeBet_eq_ok {bettor : Addr} {marketId : ℕ} {outcome : Bool} {amount : ℤ}
    (h : placeBet inv s bettor marketId outcome amount = .ok t) :
    ∃ r tokens, s.market marketId = some r ∧ r.resolved = false ∧ 0 < amount ∧
      FitsI128 ((r.grow outcome amount).yesPool * fixedPointScale) ∧
      FitsI128 ((r.grow outcome amount).noPool * fixedPointScale) ∧
      inv.auth bettor = true ∧
      s.tokens.transfer inv.accepts r.token bettor self amount = .ok tokens ∧
      t = { s with
        market := Function.update s.market marketId (some (r.grow outcome amount))
        bet := Function.update s.bet marketId (Function.update (s.bet marketId) bettor
          (some ⟨bettor, marketId, outcome, amount, false⟩))
        tokens := tokens } := by
  simp only [placeBet, transfer, bind_eq_ok, require_eq_ok, requireAuth_eq_ok, expect_eq_ok,
    pure_eq_ok] at h
  obtain ⟨-, hpos, -, hauth, r, hr, -, hunresolved, -, -, ⟨yes, no⟩, hpools, -, hyes, -, hno, oldCost,
    -, newCost, -, cost, -, -, -, paid, ⟨tokens, htokens, rfl⟩, rfl⟩ := h
  refine ⟨r, tokens, hr, hunresolved, hpos, ?_⟩
  rw [← grownPools_eq_ok hpools]
  exact ⟨hyes, hno, hauth, htokens, rfl⟩

theorem placeBet_effect {bettor : Addr} {marketId : ℕ} {outcome : Bool} {amount : ℤ}
    (h : placeBet inv s bettor marketId outcome amount = .ok t) :
    Effect self s t (.placeBet bettor marketId outcome amount) := by
  obtain ⟨r, tokens, hr, hunresolved, hpos, -, -, hauth, htokens, rfl⟩ := placeBet_eq_ok h
  refine .placed bettor marketId r _ rfl rfl hr hunresolved hpos rfl rfl rfl rfl ?_
  intro x
  exact Tokens.balance_of_paid_in (Env.ne_self_of_auth hauth) htokens x

theorem claimWinnings_effect {bettor : Addr} {marketId : ℕ}
    (h : claimWinnings inv s bettor marketId = .ok t) :
    Effect self s t (.claimWinnings bettor marketId) := by
  simp only [claimWinnings, transfer, bind_eq_ok, require_eq_ok, requireAuth_eq_ok, expect_eq_ok,
    pure_eq_ok] at h
  obtain ⟨-, hauth, r, hr, -, hresolved, b, hb, -, hunclaimed, winning, houtcome, -, hwon, payout,
    hpays, paid, ⟨tokens, htokens, rfl⟩, rfl⟩ := h
  refine .claimed bettor marketId r b winning payout rfl rfl hr hresolved houtcome hb hunclaimed hwon
    hpays rfl rfl rfl ?_
  intro x
  exact Tokens.balance_of_paid_out (Env.ne_self_of_auth hauth) htokens x

/-- The votes of the oracles stand next to the markets. -/
theorem verifyOracles_eq_ok {marketId : ℕ} {r : MarketRecord Addr} {outcome : Bool} {oracle : Addr}
    (h : verifyOracles s marketId r outcome oracle = .ok t) :
    ∃ votes, t = { s with oracleVote := votes } := by
  unfold verifyOracles at h
  split_ifs at h
  · simp only [verifyMultiOracleConsensus, ite_self, bind_eq_ok, pure_eq_ok] at h
    obtain ⟨-, -, rfl⟩ := h
    exact ⟨_, rfl⟩
  · rw [pure_eq_ok] at h
    exact ⟨s.oracleVote, h.symm⟩

theorem resolveMarket_effect {marketId : ℕ} {outcome : Bool} {outcomeProof : Hash}
    (h : resolveMarket inv s marketId outcome outcomeProof = .ok t) :
    Effect self s t (.resolveMarket marketId outcome outcomeProof) := by
  simp only [resolveMarket, bind_eq_ok, require_eq_ok, expect_eq_ok, pure_eq_ok] at h
  obtain ⟨-, -, r, hr, -, hunresolved, -, -, oracle, -, -, -, verified, hverified, rfl⟩ := h
  obtain ⟨votes, rfl⟩ := verifyOracles_eq_ok hverified
  exact .closed marketId r (some outcome) rfl rfl hr hunresolved rfl rfl rfl rfl

theorem exec_effect {call : Call Addr self} (h : exec inv call s = .ok t) :
    Effect self s t call := by
  cases call with
  | setPauseGuardian admin guardian =>
    simp only [exec, setPauseGuardian, bind_eq_ok, expect_eq_ok, pure_eq_ok] at h
    obtain ⟨stored, -, -, -, -, -, rfl⟩ := h
    exact .kept rfl rfl rfl rfl rfl (fun _ => le_rfl)
  | createMarket creator terms =>
    simp only [exec, createMarket, bind_eq_ok, u32_eq_ok, pure_eq_ok] at h
    obtain ⟨-, -, -, -, marketId, ⟨-, rfl⟩, rfl⟩ := h
    exact .created _ rfl rfl ⟨rfl, rfl⟩ ⟨rfl, rfl⟩ rfl rfl rfl rfl
  | placeBet bettor marketId outcome amount => exact placeBet_effect h
  | resolveMarket marketId outcome outcomeProof => exact resolveMarket_effect h
  | cancelMarket marketId =>
    simp only [exec, cancelMarket, bind_eq_ok, require_eq_ok, expect_eq_ok, pure_eq_ok] at h
    obtain ⟨admin, -, -, -, r, hr, -, hunresolved, rfl⟩ := h
    exact .closed marketId r r.outcome rfl rfl hr hunresolved rfl rfl rfl rfl
  | claimWinnings bettor marketId => exact claimWinnings_effect h
  | elsewhere e =>
    simp only [exec, pure_eq_ok] at h
    obtain rfl := h
    refine .kept rfl rfl rfl rfl rfl ?_
    intro x
    have hgift := e.harmless x
    show s.tokens.balance x self ≤ s.tokens.balance x self + e.change x self
    omega

end PredictionMarket
