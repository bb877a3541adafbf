import MentorsMind.PredictionMarket.Accounts
import MentorsMind.PredictionMarket.Solvency

/-! What the votes of the oracles are worth. A market that asks for several oracles is resolved by
the first vote, since the votes are recorded but not counted. -/
namespace PredictionMarket
open Outcome Soroban Shared

variable {Addr : Type} [DecidableEq Addr] {home : Addr}

section Votes

variable {inv : Invocation Addr home} {s t : State Addr} {call : Call Addr home} {m : ℕ}
  {outcome : Bool} {outcomeProof : Hash}

/-- What `resolve_market` asks of a market with several oracles. -/
structure Resolves (inv : Invocation Addr home) (s : State Addr) (m : ℕ) (r : MarketRecord Addr)
    (oracle : Addr) : Prop where
  unpaused : requireNotPaused inv s = .ok ()
  found : s.market m = some r
  multi : r.resolutionRequiresMulti = true
  unresolved : r.resolved = false
  due : r.resolutionDate ≤ inv.timestamp
  named : s.resolutionOracle m = some oracle
  signed : inv.auth oracle = true

/-- The state that the vote of `oracle` leaves. -/
def votedBy (s : State Addr) (m : ℕ) (r : MarketRecord Addr) (oracle : Addr) (outcome : Bool)
    (outcomeProof : Hash) : State Addr :=
  { s with
    market := Function.update s.market m (some { r with resolved := true, outcome := some outcome })
    resolutionProof := Function.update s.resolutionProof m (some outcomeProof)
    oracleVote := Function.update s.oracleVote m
      (Function.update (s.oracleVote m) oracle (some outcome)) }

/-- The first vote resolves the market. -/
theorem Resolves.resolveMarket_eq {r : MarketRecord Addr} {oracle : Addr}
    (h : Resolves inv s m r oracle) (hfirst : s.oracleVote m oracle = none) :
    resolveMarket inv s m outcome outcomeProof =
      .ok (votedBy s m r oracle outcome outcomeProof) := by
  have hverified : verifyOracles s m r outcome oracle = .ok { s with
      oracleVote := Function.update s.oracleVote m
        (Function.update (s.oracleVote m) oracle (some outcome)) } := by
    rw [verifyOracles, if_pos h.multi]
    simp [verifyMultiOracleConsensus, hfirst]
  simp only [resolveMarket, bind_eq_ok, require_eq_ok, expect_eq_ok, requireAuth_eq_ok, pure_eq_ok]
  exact ⟨(), h.unpaused, r, h.found, (), h.unresolved, (), h.due, oracle, h.named, (), h.signed, _,
    hverified, rfl⟩

/-- A vote that is accepted on a market with several oracles has passed the checks. -/
theorem resolves_of_resolveMarket {r : MarketRecord Addr} (hr : s.market m = some r)
    (hmulti : r.resolutionRequiresMulti = true)
    (h : resolveMarket inv s m outcome outcomeProof = .ok t) :
    ∃ oracle, Resolves inv s m r oracle := by
  simp only [resolveMarket, bind_eq_ok, require_eq_ok, expect_eq_ok, requireAuth_eq_ok] at h
  obtain ⟨⟨⟩, hunpaused, x, hx, -, hunresolved, -, hdue, oracle, hnamed, -, hsigned, -⟩ := h
  obtain rfl := Option.some.inj (hr.symm.trans hx)
  exact ⟨oracle, hunpaused, hr, hmulti, hunresolved, hdue, hnamed, hsigned⟩

theorem resolveMarket_market (h : resolveMarket inv s m outcome outcomeProof = .ok t) :
    ∃ r, s.market m = some r ∧
      t.market m = some { r with resolved := true, outcome := some outcome } := by
  simp only [resolveMarket, bind_eq_ok, expect_eq_ok, pure_eq_ok] at h
  obtain ⟨-, -, r, hr, -, -, -, -, oracle, -, -, -, verified, hverified, rfl⟩ := h
  exact ⟨r, hr, Function.update_self ..⟩

/-- A call that is no vote on `m` leaves its votes, and gives it no outcome. -/
theorem exec_no_vote (h : exec inv call s = .ok t) (hs : Kept s)
    (hother : ∀ outcome outcomeProof, call ≠ .resolveMarket m outcome outcomeProof) :
    t.oracleVote m = s.oracleVote m ∧ ∀ r, t.market m = some r →
      s.market m = none ∧ r.outcome = none ∨ ∃ x, s.market m = some x ∧ r.outcome = x.outcome ∧
        r.resolutionRequiresMulti = x.resolutionRequiresMulti := by
  have hkept : ∀ r, s.market m = some r → ∃ x, s.market m = some x ∧ r.outcome = x.outcome ∧
      r.resolutionRequiresMulti = x.resolutionRequiresMulti := fun r hr => ⟨r, hr, rfl, rfl⟩
  cases call with
  | setPauseGuardian admin guardian =>
    simp only [exec, setPauseGuardian, bind_eq_ok, pure_eq_ok] at h
    obtain ⟨-, -, -, -, -, -, rfl⟩ := h
    exact ⟨rfl, fun r hr => .inr (hkept r hr)⟩
  | createMarket creator terms =>
    simp only [exec, createMarket, bind_eq_ok, u32_eq_ok, pure_eq_ok] at h
    obtain ⟨-, -, -, -, k, ⟨-, rfl⟩, rfl⟩ := h
    refine ⟨rfl, ?_⟩
    intro r hr
    obtain ⟨rfl, rfl⟩ | ⟨-, hold⟩ := Table.update_eq_some_iff.mp hr
    · exact .inl ⟨hs.fresh _ (Nat.lt_succ_self _), rfl⟩
    · exact .inr (hkept r hold)
  | placeBet bettor k outcome amount =>
    obtain ⟨x, tokens, hx, -, -, -, -, -, -, rfl⟩ := placeBet_eq_ok h
    refine ⟨rfl, ?_⟩
    intro r hr
    obtain ⟨rfl, rfl⟩ | ⟨-, hold⟩ := Table.update_eq_some_iff.mp hr
    · refine .inr ⟨x, hx, ?_⟩
      unfold MarketRecord.grow
      split_ifs <;> exact ⟨rfl, rfl⟩
    · exact .inr (hkept r hold)
  | resolveMarket k outcome outcomeProof =>
    have hk : m ≠ k := by
      rintro rfl
      exact hother outcome outcomeProof rfl
    simp only [exec, resolveMarket, verifyOracles, verifyMultiOracleConsensus, ite_self, bind_eq_ok,
      pure_eq_ok] at h
    obtain ⟨-, -, x, -, -, -, -, -, oracle, -, -, -, verified, hverified, rfl⟩ := h
    have hmarket : verified.market = s.market ∧ verified.oracleVote m = s.oracleVote m := by
      split_ifs at hverified
      · simp only [bind_eq_ok, pure_eq_ok] at hverified
        obtain ⟨-, -, rfl⟩ := hverified
        exact ⟨rfl, Function.update_of_ne hk ..⟩
      · rw [pure_eq_ok] at hverified
        rw [hverified]
        exact ⟨rfl, rfl⟩
    refine ⟨hmarket.2, ?_⟩
    intro r hr
    obtain ⟨rfl, -⟩ | ⟨-, hold⟩ := Table.update_eq_some_iff.mp hr
    · exact absurd rfl hk
    · rw [← hmarket.1]
      exact .inr ⟨r, hold, rfl, rfl⟩
  | cancelMarket k =>
    simp only [exec, cancelMarket, bind_eq_ok, expect_eq_ok, pure_eq_ok] at h
    obtain ⟨-, -, -, -, x, hx, -, -, rfl⟩ := h
    refine ⟨rfl, ?_⟩
    intro r hr
    obtain ⟨rfl, rfl⟩ | ⟨-, hold⟩ := Table.update_eq_some_iff.mp hr
    · exact .inr ⟨x, hx, rfl, rfl⟩
    · exact .inr (hkept r hold)
  | claimWinnings bettor k =>
    simp only [exec, claimWinnings, transfer, bind_eq_ok, pure_eq_ok] at h
    obtain ⟨-, -, -, -, -, -, -, -, -, -, -, -, -, -, -, -, -, ⟨-, -, rfl⟩, rfl⟩ := h
    exact ⟨rfl, fun r hr => .inr (hkept r hr)⟩
  | elsewhere e =>
    simp only [exec, pure_eq_ok] at h
    rw [← h]
    exact ⟨rfl, fun r hr => .inr (hkept r hr)⟩

end Votes

/-- What the consensus of oracles promises of the market `m`: an outcome has the votes of two
oracles, and with the vote of one the market stays open. -/
structure Consensus (m : ℕ) (s : State Addr) : Prop where
  agreed : ∀ r outcome, s.market m = some r → r.resolutionRequiresMulti = true →
    r.outcome = some outcome →
      ∃ a b, a ≠ b ∧ s.oracleVote m a = some outcome ∧ s.oracleVote m b = some outcome
  unfinished : ∀ r a, s.market m = some r → r.resolutionRequiresMulti = true →
    (∀ b, (s.oracleVote m b).isSome ↔ b = a) → r.resolved = false

/-- The market `m` has no outcome and no votes, if it asks for several oracles. -/
def Unvoted (m : ℕ) (s : State Addr) : Prop :=
  ∀ r, s.market m = some r → r.resolutionRequiresMulti = true →
    r.outcome = none ∧ ∀ a, s.oracleVote m a = none

omit [DecidableEq Addr] in
theorem Unvoted.consensus {m : ℕ} {s : State Addr} (h : Unvoted m s) : Consensus m s := by
  constructor
  · intro r outcome hr hmulti houtcome
    rw [(h r hr hmulti).1] at houtcome
    cases houtcome
  · intro r a hr hmulti hvoters
    have hvote := (hvoters a).mpr rfl
    rw [(h r hr hmulti).2 a] at hvote
    cases hvote

/-- A market that one vote has resolved is not what several oracles agreed on. -/
theorem not_consensus_votedBy {m : ℕ} {s : State Addr} {r : MarketRecord Addr} {oracle : Addr}
    {outcome : Bool} {outcomeProof : Hash} (hmulti : r.resolutionRequiresMulti = true)
    (hnone : ∀ a, s.oracleVote m a = none) :
    ¬ Consensus m (votedBy s m r oracle outcome outcomeProof) := by
  intro h
  have hmarket : (votedBy s m r oracle outcome outcomeProof).market m =
      some { r with resolved := true, outcome := some outcome } := Function.update_self ..
  have hvotes : (votedBy s m r oracle outcome outcomeProof).oracleVote m =
      Function.update (s.oracleVote m) oracle (some outcome) := Function.update_self ..
  have hopen := h.unfinished _ oracle hmarket hmulti (fun b => by
    rw [hvotes]
    by_cases hb : b = oracle
    · simp [hb]
    · simp [hb, hnone])
  cases hopen

section Steps

variable {inv : Invocation Addr home} {s t : State Addr} {call : Call Addr home} {m : ℕ}

/-- Nobody has voted on a market that is not resolved, or does not exist. -/
def OpenUnvoted (m : ℕ) (s : State Addr) : Prop :=
  (∀ r, s.market m = some r → r.resolved = false) → ∀ a, s.oracleVote m a = none

theorem openUnvoted_step (h : exec inv call s = .ok t) (hs : Kept s) (hopen : OpenUnvoted m s) :
    OpenUnvoted m t := by
  intro hunresolved a
  by_cases hvote : ∃ outcome outcomeProof, call = .resolveMarket m outcome outcomeProof
  · obtain ⟨outcome, outcomeProof, rfl⟩ := hvote
    obtain ⟨r, -, hclosed⟩ := resolveMarket_market h
    cases hunresolved _ hclosed
  · simp only [not_exists] at hvote
    rw [(exec_no_vote h hs hvote).1]
    refine hopen ?_ a
    intro r hr
    cases exec_move h hs m with
    | away _ _ hmarket _ => exact hunresolved r (hmarket.trans hr)
    | opened x _ _ hnone _ _ _ _ =>
      rw [hr] at hnone
      cases hnone
    | placed bettor x b _ _ hx hopen _ _ _ _ _ _ =>
      obtain rfl := Option.some.inj (hr.symm.trans hx)
      exact hopen
    | closed x outcome _ _ hx hopen _ _ =>
      obtain rfl := Option.some.inj (hr.symm.trans hx)
      exact hopen
    | claimed bettor x b payout _ _ hx _ _ _ _ hmarket _ _ =>
      obtain rfl := Option.some.inj (hr.symm.trans hx)
      exact hunresolved r hmarket

theorem unvoted_step (h : exec inv call s = .ok t) (hs : Kept s) (hopen : OpenUnvoted m s)
    (hunvoted : Unvoted m s)
    (hnot : ∀ outcome outcomeProof, call = .resolveMarket m outcome outcomeProof →
      ∀ r oracle, ¬ Resolves inv s m r oracle) : Unvoted m t := by
  intro r hr hmulti
  by_cases hvote : ∃ outcome outcomeProof, call = .resolveMarket m outcome outcomeProof
  · obtain ⟨outcome, outcomeProof, rfl⟩ := hvote
    obtain ⟨x, hx, hclosed⟩ := resolveMarket_market h
    obtain rfl := Option.some.inj (hclosed.symm.trans hr)
    obtain ⟨oracle, hresolves⟩ := resolves_of_resolveMarket hx hmulti h
    exact absurd hresolves (hnot outcome outcomeProof rfl x oracle)
  · simp only [not_exists] at hvote
    obtain ⟨hvotes, hmarket⟩ := exec_no_vote h hs hvote
    rw [hvotes]
    obtain ⟨hnone, houtcome⟩ | ⟨x, hx, houtcome, hsame⟩ := hmarket r hr
    · refine ⟨houtcome, hopen ?_⟩
      intro x hx
      rw [hnone] at hx
      cases hx
    · rw [houtcome]
      exact hunvoted x hx (hsame.symm.trans hmulti)

end Steps

namespace Launch

variable (l : Launch Addr home)

theorem reached_openUnvoted (steps : List (Step Addr home)) (m : ℕ) :
    OpenUnvoted m (l.reached steps) := by
  refine Machine.run_history (M := machine home) (s := l.start) (P := fun _ s => OpenUnvoted m s)
    (fun _ _ => rfl) ?_ (fun _ _ _ hpre _ => hpre) steps
  rintro pre ⟨inv, call⟩ t hpre hx
  exact openUnvoted_step hx (l.reached_books pre).kept hpre

/-- The consensus of oracles holds all along a run exactly where no vote on the market meets the
checks of `resolve_market`: the first one resolves it. -/
theorem consensus_iff (steps : List (Step Addr home)) (m : ℕ) :
    (∀ pre, pre <+: steps → Consensus m (l.reached pre)) ↔
      ∀ pre inv outcome outcomeProof, pre ++ [(inv, .resolveMarket m outcome outcomeProof)] <+: steps →
        ∀ r oracle, ¬ Resolves inv (l.reached pre) m r oracle := by
  constructor
  · intro hall pre inv outcome outcomeProof hpre r oracle hresolves
    have hnone : ∀ a, (l.reached pre).oracleVote m a = none := by
      refine l.reached_openUnvoted pre m ?_
      intro x hx
      obtain rfl := Option.some.inj (hresolves.found.symm.trans hx)
      exact hresolves.unresolved
    have hx : (machine home).exec (inv, .resolveMarket m outcome outcomeProof) (l.reached pre) =
        .ok (votedBy (l.reached pre) m r oracle outcome outcomeProof) :=
      hresolves.resolveMarket_eq (hnone oracle)
    have hafter := hall _ hpre
    have hrun : l.reached (pre ++ [(inv, .resolveMarket m outcome outcomeProof)]) =
        votedBy (l.reached pre) m r oracle outcome outcomeProof := (Machine.executes_snoc hx).run_eq
    rw [hrun] at hafter
    exact not_consensus_votedBy hresolves.multi hnone hafter
  · intro hnot pre hpre
    refine Unvoted.consensus ?_
    refine Machine.run_history_of_executes (M := machine home) (s := l.start)
      (P := fun _ s => Unvoted m s) ?_ ?_ (fun _ _ _ hpre _ => hpre) pre hpre
    · intro r hr
      cases hr
    · rintro pre ⟨inv, call⟩ t hx hunvoted
      refine unvoted_step hx.exec_eq (l.reached_books pre).kept (l.reached_openUnvoted pre m) hunvoted ?_
      rintro outcome outcomeProof rfl
      exact hnot pre inv outcome outcomeProof hx.snoc_prefix

/-- A market that asks for several oracles is resolved by the only one that it names. -/
def votedOnce : List (Step ℕ 0) :=
  [(atTime 1, .createMarket 1 { goalTerms with resolutionRequiresMulti := true }),
    (atTime 100, .resolveMarket 1 true 0)]

theorem resolved_by_one_vote : ¬ ∀ pre, pre <+: votedOnce → Consensus 1 (funded.reached pre) := by
  intro h
  obtain ⟨a, b, hne, ha, hb⟩ := (h votedOnce List.prefix_rfl).agreed
    { id := 1, creator := 1, learner := 1, goalDescriptionHash := 0, resolutionDate := 100,
      token := 9, yesPool := 0, noPool := 0, resolved := true, outcome := some true,
      liquidityParameter := defaultLiquidityParameter, resolutionOracle := 5,
      resolutionRequiresMulti := true } true rfl rfl rfl
  have hvotes : (funded.reached votedOnce).oracleVote 1 =
      Function.update (fun _ => none) 5 (some true) := rfl
  have hvoter : ∀ c, (funded.reached votedOnce).oracleVote 1 c = some true → c = 5 := by
    intro c hc
    rw [hvotes] at hc
    obtain ⟨rfl, -⟩ | ⟨-, hnone⟩ := Table.update_eq_some_iff.mp hc
    · rfl
    · cases hnone
  exact hne ((hvoter a ha).trans (hvoter b hb).symm)

end Launch

end PredictionMarket
