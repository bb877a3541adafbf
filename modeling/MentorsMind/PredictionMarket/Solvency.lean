import MentorsMind.Lib.Vault
import MentorsMind.PredictionMarket.Books

/-! No market pays more than it took in, and what can still be claimed is always there. -/
namespace PredictionMarket
open Outcome Soroban Shared

variable {Addr : Type} [DecidableEq Addr] {home : Addr}

/-- The contract as a vault that owes each market what is left of its pools. -/
noncomputable def vault (home : Addr) (s : State Addr) : Vault ℕ Addr where
  held token := s.tokens.balance token home
  owed m token := if (s.market m).map MarketRecord.token = some token then pools s m - settled s m else 0

/-- What can be claimed in `token` for the bet of `key.1` on market `key.2`, once it is resolved. -/
def claimable (token : Addr) (s : State Addr) (key : Addr × ℕ) : ℤ :=
  (s.market key.2).elim 0 fun r =>
    if r.token = token ∧ r.resolved = true then r.unsettled (s.bet key.2 key.1) else 0

section Vaults

variable {s t : State Addr} {call : Call Addr home}

/-- What a market is owed depends on its record and its bets only. -/
theorem vault_owed_congr {m : ℕ} (hmarket : t.market m = s.market m)
    (hbet : t.bet m = s.bet m) : (vault home t).owed m = (vault home s).owed m := by
  funext x
  simp only [vault, PredictionMarket.pools, PredictionMarket.settled, hmarket, hbet]

theorem settles_of_local {m : ℕ}
    (hlocal : ∀ k, k ≠ m → t.market k = s.market k ∧ t.bet k = s.bet k)
    (hheld : ∀ x, s.tokens.balance x home +
      ((vault home t).owed m x - (vault home s).owed m x) ≤ t.tokens.balance x home) :
    (vault home s).Settles (vault home t) m ((vault home t).owed m) where
  owed_eq := by
    funext k
    by_cases hk : k = m
    · rw [hk, Function.update_self]
    · obtain ⟨hmarket, hbet⟩ := hlocal k hk
      rw [Function.update_of_ne hk, vault_owed_congr hmarket hbet]
  held_le := hheld

/-- What a market is owed moves with what is paid for it. -/
theorem Effect.owed_sub (inv : Invocation Addr home) (h : Effect home s t call) (hs : Kept s)
    {m : ℕ} (htoken : (t.market m).map MarketRecord.token = (s.market m).map MarketRecord.token)
    (x : Addr) : (vault home t).owed m x - (vault home s).owed m x =
      if (s.market m).map MarketRecord.token = some x then
        paidIn m s (inv, call) t - paidOut m s (inv, call) t
      else 0 := by
  have hpools : PredictionMarket.pools t m = PredictionMarket.pools s m +
      paidIn m s (inv, call) t := h.pools inv hs m
  have hsettled : PredictionMarket.settled t m = PredictionMarket.settled s m +
      paidOut m s (inv, call) t := h.settled inv hs m
  simp only [vault, htoken]
  split_ifs
  · omega
  · omega

/-- A call settles one market at most. -/
theorem Effect.settles (inv : Invocation Addr home) (h : Effect home s t call) (hs : Kept s) :
    ∃ m, (vault home s).Settles (vault home t) m ((vault home t).owed m) := by
  have hmoved := fun m htoken => h.owed_sub inv hs (m := m) htoken
  have hpools := h.pools inv hs
  have hsettled := h.settled inv hs
  cases h with
  | kept _ _ hmarket hbet _ hheld =>
    have howed : (vault home t).owed 0 = (vault home s).owed 0 :=
      vault_owed_congr (by rw [hmarket]) (by rw [hbet])
    refine ⟨0, settles_of_local (fun k _ => ⟨by rw [hmarket], by rw [hbet]⟩) ?_⟩
    intro x
    rw [howed, sub_self, add_zero]
    exact hheld x
  | created r hbetOn hclaim _ _ _ hmarket hbet hheld =>
    have hnone := hs.fresh (s.marketCount + 1) (Nat.lt_succ_self _)
    refine ⟨s.marketCount + 1, settles_of_local (fun k hk => ⟨by rw [hmarket,
      Function.update_of_ne hk], by rw [hbet]⟩) ?_⟩
    have hempty : PredictionMarket.pools t (s.marketCount + 1) = 0 := by
      rw [hpools]
      simp [PredictionMarket.pools, paidIn, hnone]
    have hunpaid : PredictionMarket.settled t (s.marketCount + 1) = 0 := by
      rw [hsettled]
      simp [PredictionMarket.settled, paidOut, hnone]
    intro x
    simp [vault, hempty, hunpaid, hnone, hheld]
  | placed bettor m r b hbetOn hclaim hr _ _ _ _ hmarket hbet hheld =>
    have htoken : (t.market m).map MarketRecord.token =
        (s.market m).map MarketRecord.token := by
      rw [hmarket, Function.update_self, hr]
      unfold MarketRecord.grow
      split_ifs <;> rfl
    have hin : paidIn m s (inv, call) t = b.amount := by
      rw [paidIn, if_pos hbetOn, hr]
      simp [hheld]
    have hout : paidOut m s (inv, call) t = 0 := by simp [paidOut, hclaim]
    refine ⟨m, settles_of_local (fun k hk => ⟨by rw [hmarket, Function.update_of_ne hk],
      by rw [hbet, Function.update_of_ne hk]⟩) ?_⟩
    intro x
    rw [hmoved m htoken x, hin, hout, hheld x, hr]
    simp only [Option.map_some, Option.some.injEq, eq_comm (a := x)]
    split_ifs <;> omega
  | closed m r outcome hbetOn hclaim hr _ _ hmarket hbet hheld =>
    have htoken : (t.market m).map MarketRecord.token =
        (s.market m).map MarketRecord.token := by
      rw [hmarket, Function.update_self, hr]
      rfl
    have hin : paidIn m s (inv, call) t = 0 := by simp [paidIn, hbetOn]
    have hout : paidOut m s (inv, call) t = 0 := by simp [paidOut, hclaim]
    refine ⟨m, settles_of_local (fun k hk => ⟨by rw [hmarket, Function.update_of_ne hk],
      by rw [hbet]⟩) ?_⟩
    intro x
    rw [hmoved m htoken x, hin, hout, hheld, sub_self, ite_self, add_zero]
  | claimed bettor m r b winning payout hbetOn hclaim hr _ _ _ _ _ _ _ hmarket hbet hheld =>
    have hin : paidIn m s (inv, call) t = 0 := by simp [paidIn, hbetOn]
    have hout : paidOut m s (inv, call) t = payout := by
      rw [paidOut, hclaim, Option.map_some, if_pos rfl, hr]
      simp [hheld]
    refine ⟨m, settles_of_local (fun k hk => ⟨by rw [hmarket],
      by rw [hbet, Function.update_of_ne hk]⟩) ?_⟩
    intro x
    rw [hmoved m (by rw [hmarket]) x, hin, hout, hheld x, hr]
    simp only [Option.map_some, Option.some.injEq, eq_comm (a := x)]
    split_ifs <;> omega

/-- A claim that goes through is paid what could be claimed. -/
theorem paidOut_eq_claimable {inv : Invocation Addr home} {bettor : Addr} {m : ℕ}
    {r : MarketRecord Addr} (hr : s.market m = some r)
    (h : claimWinnings inv s bettor m = .ok t) :
    paidOut m s (inv, .claimWinnings bettor m) t = claimable r.token s (bettor, m) := by
  cases claimWinnings_effect h with
  | kept _ hclaim _ _ _ _ => cases hclaim
  | created _ _ hclaim _ _ _ _ _ _ => cases hclaim
  | placed _ _ _ _ _ hclaim _ _ _ _ _ _ _ _ => cases hclaim
  | closed _ _ _ _ hclaim _ _ _ _ _ _ => cases hclaim
  | claimed a k r' b winning payout _ hclaim hr' hresolved houtcome hb hunclaimed hwon hpays _ _ _
      hheld =>
    obtain ⟨rfl, rfl⟩ := Prod.mk.inj (Option.some.inj hclaim)
    obtain rfl := Option.some.inj (hr'.symm.trans hr)
    subst hwon
    have hpaid : paidOut m s (inv, .claimWinnings bettor m) t = payout := by
      simp [paidOut, Call.claim, hr, hheld]
    rw [hpaid, totalPayout_eq_ok hpays]
    simp [claimable, hr, hresolved, hb, MarketRecord.unsettled, hunclaimed, MarketRecord.due,
      houtcome]

end Vaults

section Claims

variable {s : State Addr} {token : Addr}

/-- What a market is owed covers what can still be claimed on it. -/
theorem Kept.claimable_le (hs : Kept s) (token : Addr) (m : ℕ) :
    ∑ᶠ a, claimable token s (a, m) ≤ (vault home s).owed m token := by
  cases hr : s.market m with
  | none => simp [claimable, vault, hr]
  | some r =>
    have hmarket := hs.market m r hr
    have hunsettled := hmarket.total_unsettled_le
    have hnonneg : 0 ≤ PointSum.total r.unsettled (s.bet m) :=
      PointSum.total_nonneg hmarket.unsettled_nonneg
    have howed : (vault home s).owed m token = if r.token = token then
        r.yesPool + r.noPool - PointSum.total r.settled (s.bet m) else 0 := by
      simp [vault, pools_of_some hr, settled_of_some hr, hr]
    simp only [claimable, hr, Option.elim_some, howed]
    by_cases hopen : r.token = token ∧ r.resolved = true
    · simp only [hopen, and_self, if_true]
      exact hunsettled
    · simp only [hopen, if_false, finsum_zero]
      split_ifs
      · exact hnonneg.trans hunsettled
      · exact le_rfl

theorem Kept.finite_claimable (hs : Kept s) (token : Addr) :
    (Function.support (claimable token s)).Finite := by
  have hmarkets : ∀ m, {a | claimable token s (a, m) ≠ 0}.Finite := by
    intro m
    cases hr : s.market m with
    | none => simp [claimable, hr]
    | some r =>
      refine (hs.market m r hr).finite_unsettled.subset ?_
      intro a ha hzero
      apply ha
      dsimp only at hzero
      simp only [claimable, hr, Option.elim_some, hzero, ite_self]
  have hall := (Finset.range (s.marketCount + 1)).finite_toSet.biUnion
    (fun m _ => (hmarkets m).image fun a => (a, m))
  refine hall.subset ?_
  rintro ⟨a, m⟩ hkey
  rw [Set.mem_iUnion₂]
  refine ⟨m, ?_, a, hkey, rfl⟩
  rw [Finset.mem_coe, Finset.mem_range]
  by_contra hm
  apply hkey
  simp [claimable, hs.fresh m (by omega)]

/-- What can be claimed in a token is no more than the contract owes in it. -/
theorem Kept.total_claimable_le (hs : Kept s) (token : Addr) :
    ∑ᶠ key, claimable token s key ≤ (vault home s).debt token := by
  have hfibers : ∑ᶠ key, claimable token s key =
      ∑ m ∈ Finset.range (s.marketCount + 1), ∑ᶠ a, claimable token s (a, m) := by
    refine PointSum.Finite.total_eq_sum_fibers (w := id) (hs.finite_claimable token) ?_
    intro a m hne
    rw [Finset.mem_range]
    by_contra hm
    apply hne
    simp [hs.fresh m (by omega)]
  have hdebt : (vault home s).debt token =
      ∑ m ∈ Finset.range (s.marketCount + 1), (vault home s).owed m token := by
    refine finsum_eq_sum_of_support_subset _ ?_
    intro m hm
    rw [Finset.mem_coe, Finset.mem_range]
    by_contra hlarge
    apply hm
    simp [vault, hs.fresh m (by omega)]
  rw [hfibers, hdebt]
  exact Finset.sum_le_sum fun m _ => hs.claimable_le token m

end Claims

section Runs

/-- A contract on honest tokens, before its first market. -/
structure Launch (Addr : Type) (home : Addr) where
  tokens : Tokens Addr
  honest : ∀ token, 0 ≤ tokens.balance token home
  admin : Option Addr

namespace Launch

variable (l : Launch Addr home)

def start : State Addr := launched l.tokens l.admin

/-- The state after these calls. -/
def reached (steps : List (Step Addr home)) : State Addr := (machine home).run l.start steps

/-- What a run has recorded, where `s` is its last state. -/
structure Books (steps : List (Step Addr home)) (s : State Addr) : Prop where
  kept : Kept s
  solvent : (vault home s).Solvent
  paidIn : ∀ m, (machine home).tally (paidIn m) l.start steps = pools s m
  paidOut : ∀ m, (machine home).tally (paidOut m) l.start steps = settled s m
  payments : ∀ a m, (machine home).tally (payments a m) l.start steps = claims s a m

theorem books_start : l.Books [] l.start where
  kept := ⟨by simp [start, launched], by simp [start, launched], by simp [start, launched]⟩
  solvent := by
    constructor
    · intro token
      simp [vault, start, launched]
    · intro token
      show ∑ᶠ m, (vault home l.start).owed m token ≤ l.tokens.balance token home
      simp only [vault, start, launched, Option.map_none, reduceCtorEq, if_false, finsum_zero]
      exact l.honest token
  paidIn m := rfl
  paidOut m := rfl
  payments a m := rfl

variable {l}

/-- One call keeps the books. -/
theorem Books.step {steps : List (Step Addr home)} {step : Step Addr home} {t : State Addr}
    (h : l.Books steps (l.reached steps))
    (hx : (machine home).exec step (l.reached steps) = .ok t) : l.Books (steps ++ [step]) t := by
  obtain ⟨inv, call⟩ := step
  obtain ⟨hkept, hsolvent, hin, hout, hpayments⟩ := h
  have heffect : Effect home (l.reached steps) t call := exec_effect hx
  constructor
  · exact heffect.kept_market hkept
  · obtain ⟨m, hsettles⟩ := heffect.settles inv hkept
    exact hsolvent.settle hsettles
  · intro m
    rw [Machine.tally_snoc_ok hx, hin, heffect.pools inv hkept]
    rfl
  · intro m
    rw [Machine.tally_snoc_ok hx, hout, heffect.settled inv hkept]
    rfl
  · intro a m
    rw [Machine.tally_snoc_ok hx, hpayments, heffect.claims inv hkept]
    rfl

variable (l)

theorem reached_books (steps : List (Step Addr home)) : l.Books steps (l.reached steps) := by
  refine Machine.run_history (P := fun steps s => l.Books steps s) l.books_start ?_ ?_ steps
  · intro pre step t hpre hx
    exact hpre.step hx
  · intro pre step e hpre hx
    obtain ⟨hkept, hsolvent, hin, hout, hpayments⟩ := hpre
    refine ⟨hkept, hsolvent, ?_, ?_, ?_⟩
    · intro m
      rw [Machine.tally_snoc_error hx, hin]
    · intro m
      rw [Machine.tally_snoc_error hx, hout]
    · intro a m
      rw [Machine.tally_snoc_error hx, hpayments]

/-- What the contract promises after a run: a bet is paid once at most, a market never pays more
than it took in, and in each token everything that a claim could still be paid is there. -/
structure Solvency (steps : List (Step Addr home)) : Prop where
  once : ∀ bettor m, (machine home).tally (payments bettor m) l.start steps ≤ 1
  bounded : ∀ m, (machine home).tally (paidOut m) l.start steps ≤
    (machine home).tally (paidIn m) l.start steps
  finite : ∀ token, (Function.support (claimable token (l.reached steps))).Finite
  pays : ∀ (inv : Invocation Addr home) bettor m r t, (l.reached steps).market m = some r →
    claimWinnings inv (l.reached steps) bettor m = .ok t →
      paidOut m (l.reached steps) (inv, .claimWinnings bettor m) t =
        claimable r.token (l.reached steps) (bettor, m)
  backed : ∀ token, ∑ᶠ key, claimable token (l.reached steps) key ≤
    (l.reached steps).tokens.balance token home

theorem markets_solvent (steps : List (Step Addr home)) : l.Solvency steps := by
  obtain ⟨hkept, hsolvent, hin, hout, hpayments⟩ := l.reached_books steps
  constructor
  · intro bettor m
    rw [hpayments, claims]
    cases (l.reached steps).bet m bettor with
    | none => exact zero_le_one
    | some b =>
      simp only [Option.elim_some]
      split_ifs
      · exact le_rfl
      · exact zero_le_one
  · intro m
    rw [hin, hout]
    cases hr : (l.reached steps).market m with
    | none => simp [pools, settled, hr]
    | some r =>
      have hmarket := hkept.market m r hr
      have hleft := hmarket.total_unsettled_le
      have hnonneg : 0 ≤ PointSum.total r.unsettled ((l.reached steps).bet m) :=
        PointSum.total_nonneg hmarket.unsettled_nonneg
      rw [pools_of_some hr, settled_of_some hr]
      omega
  · exact hkept.finite_claimable
  · intro inv bettor m r t hr h
    exact paidOut_eq_claimable hr h
  · intro token
    exact (hkept.total_claimable_le token).trans (hsolvent.debt_le token)

section Example

def atTime (now : ℕ) : Invocation ℕ 0 where
  toEnv := signedByAll now
  isPaused _ := some false
  accepts _ := true

/-- Everybody but the contract has 1000 of every token. -/
def funded : Launch ℕ 0 where
  tokens := ⟨fun _ a => if a = 0 then 0 else 1000, []⟩
  honest _ := le_rfl
  admin := some 1

def goalTerms : Terms ℕ where
  learner := 1
  goalDescriptionHash := 0
  resolutionDate := 100
  token := 9
  liquidityParameter := none
  resolutionOracle := 5
  resolutionRequiresMulti := false

end Example

end Launch

end Runs

end PredictionMarket
