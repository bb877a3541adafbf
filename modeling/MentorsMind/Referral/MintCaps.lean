import MentorsMind.Referral.Effects

/-! What the token mints for the programme, and what the counters say of it. -/
namespace Referral
open Outcome Soroban Shared

variable {Addr : Type} [DecidableEq Addr] {self : Addr} {inv : Invocation Addr self}
  {s t : State Addr} {steps : List (Step Addr self)}

/-- The calls that may mint. -/
def Call.isMinting : Call Addr → Bool
  | .claimReward _ => true
  | .distributeEpochBonus => true
  | _ => false

/-- What a claim mints to `referrer`. -/
def claimMint (referrer : Addr) (s : State Addr) (step : Step Addr self) (t : State Addr) : ℤ :=
  match step.2 with
  | .claimReward _ => mintedTo t referrer - mintedTo s referrer
  | _ => 0

theorem claimMint_claim {referrer claimant : Addr} : claimMint referrer s
    (inv, .claimReward claimant) t = mintedTo t referrer - mintedTo s referrer := rfl

/-- What the claims of the run minted to `referrer`. -/
def claimedMints (steps : List (Step Addr self)) (referrer : Addr) : ℤ :=
  (machine self).tally (claimMint referrer) deployed steps

/-- Every claim and every bonus of the run found this config. -/
def Fixed (steps : List (Step Addr self)) (config : ReferralConfig) : Prop :=
  ∀ pre step t, (machine self).Executes deployed steps pre step t → step.2.isMinting = true →
    (reached pre).config = some config

/-- What the counters promise. -/
structure MintsCapped {home : Addr} (steps : List (Step Addr home)) : Prop where
  counted : ∀ pre inv referrer t,
    (machine home).Executes deployed steps pre (inv, .claimReward referrer) t →
    totalMinted t - totalMinted (reached pre) =
        t.lifetimeClaimed referrer - (reached pre).lifetimeClaimed referrer ∧
      totalMinted t - totalMinted (reached pre) = t.globalMinted - (reached pre).globalMinted
  lifetime : ∀ config, 0 < config.maxLifetimeReward → Fixed steps config → ∀ referrer,
    claimedMints steps referrer ≤ config.maxLifetimeReward
  global : ∀ config, 0 < config.globalReferralMintCap → Fixed steps config →
    totalMinted (reached steps) ≤ config.globalReferralMintCap

/-- A claim that is granted asks for what it counts, and it and the bonuses leave the cap
unbroken. -/
def StepCapped (pre : List (Step Addr self)) (step : Step Addr self) : Prop :=
  match step.2 with
  | .claimReward referrer => ∀ config raw, Granted step.1 (reached pre) referrer config raw →
      mintAsked step.1 (reached pre) referrer = mintDue (reached pre) referrer config raw ∧
        (Fixed pre config → totalMinted (reached pre) + mintAsked step.1 (reached pre) referrer ≤
          config.globalReferralMintCap)
  | .distributeEpochBonus => ∀ config, (reached pre).config = some config → Fixed pre config →
      totalMinted (reached pre) + bonusDue step.1.timestamp (reached pre) ≤
        config.globalReferralMintCap
  | _ => True

section Minting

/-- A call mints nothing, is a claim that is granted, or pays the bonuses. -/
theorem Effect.minted_cases {call : Call Addr} (h : Effect inv s t call) :
    (t.minted = s.minted ∧ t.lifetimeClaimed = s.lifetimeClaimed) ∨
    (∃ referrer config raw, call = .claimReward referrer ∧ Granted inv s referrer config raw ∧
      t.minted = ⟨referrer, mintAsked inv s referrer⟩ :: s.minted ∧
      t.lifetimeClaimed = Function.update s.lifetimeClaimed referrer
        (s.lifetimeClaimed referrer + mintDue s referrer config raw)) ∨
    (∃ mints, call = .distributeEpochBonus ∧ t.minted = mints ++ s.minted ∧
      (mints.map Mint.amount).sum = bonusDue inv.timestamp s ∧
      t.lifetimeClaimed = s.lifetimeClaimed) := by
  cases h with
  | initialized _ eq => rw [eq]; exact .inl ⟨rfl, rfl⟩
  | adminProposed _ _ eq => rw [eq]; exact .inl ⟨rfl, rfl⟩
  | adminAccepted _ _ _ _ _ eq => rw [eq]; exact .inl ⟨rfl, rfl⟩
  | adminCancelled _ _ eq => rw [eq]; exact .inl ⟨rfl, rfl⟩
  | configured _ _ _ _ _ eq => rw [eq]; exact .inl ⟨rfl, rfl⟩
  | booked eq => rw [eq]; exact .inl ⟨rfl, rfl⟩
  | @claimed referrer config raw granted minted lifetime global eq =>
    exact .inr (.inl ⟨referrer, config, raw, rfl, granted, minted, lifetime⟩)
  | distributed mints due eq =>
    refine .inr (.inr ⟨mints, rfl, ?_, due, ?_⟩)
    · rw [eq]
    · rw [eq]

omit [DecidableEq Addr] in
theorem totalMinted_append {mints : List (Mint Addr)} (h : t.minted = mints ++ s.minted) :
    totalMinted t = (mints.map Mint.amount).sum + totalMinted s := by
  rw [totalMinted, h, List.map_append, List.sum_append]
  rfl

theorem mintedTo_cons {mint : Mint Addr} (h : t.minted = mint :: s.minted) (a : Addr) :
    mintedTo t a = (if mint.recipient = a then mint.amount else 0) + mintedTo s a := by
  rw [mintedTo, h, List.map_cons, List.sum_cons]
  rfl

/-- What a granted claim adds to the record and to the counters. -/
theorem claim_totals {referrer : Addr} {config : ReferralConfig} {raw : ℕ}
    (hgranted : Granted inv s referrer config raw)
    (h : exec inv (.claimReward referrer) s = .ok t) :
    totalMinted t = mintAsked inv s referrer + totalMinted s ∧
      t.lifetimeClaimed referrer = s.lifetimeClaimed referrer + mintDue s referrer config raw ∧
      t.globalMinted = s.globalMinted + mintDue s referrer config raw := by
  cases exec_effect h with
  | booked eq ungranted => exact absurd hgranted (ungranted referrer rfl config raw)
  | claimed config' raw' granted minted lifetime global eq =>
    obtain ⟨rfl, rfl⟩ := hgranted.unique granted
    refine ⟨?_, ?_, global⟩
    · have hcons : t.minted = [⟨referrer, mintAsked inv s referrer⟩] ++ s.minted := minted
      rw [totalMinted_append hcons]
      simp
    · rw [lifetime, Function.update_self]

/-- A claim that is not granted changes no counter. -/
theorem claim_held {referrer : Addr} (h : exec inv (.claimReward referrer) s = .ok t)
    (hheld : ∀ config raw, ¬ Granted inv s referrer config raw) :
    t.minted = s.minted ∧ t.lifetimeClaimed = s.lifetimeClaimed ∧
      t.globalMinted = s.globalMinted := by
  cases exec_effect h with
  | booked eq ungranted =>
    rw [eq]
    exact ⟨rfl, rfl, rfl⟩
  | claimed config raw granted minted lifetime global eq => exact absurd granted (hheld config raw)

end Minting

section Config

theorem Fixed.of_append {more : List (Step Addr self)} {config : ReferralConfig}
    (h : Fixed (steps ++ more) config) : Fixed steps config := by
  intro pre step t hx hminting
  exact h pre step t (hx.append more) hminting

theorem Fixed.snoc {config : ReferralConfig} {step : Step Addr self} (h : Fixed steps config)
    (hfound : (reached steps).config = some config) : Fixed (steps ++ [step]) config := by
  intro pre other t hx hminting
  rcases Machine.executes_append_singleton.mp hx with hbefore | ⟨rfl, -, -⟩
  · exact h pre other t hbefore hminting
  · exact hfound

theorem reached_config_pos (steps : List (Step Addr self)) : ∀ config,
    (reached steps).config = some config →
      0 < config.maxLifetimeReward ∧ 0 < config.globalReferralMintCap := by
  apply Machine.run_invariant (M := machine self) (P := fun u => ∀ config,
    u.config = some config → 0 < config.maxLifetimeReward ∧ 0 < config.globalReferralMintCap)
  · intro config hconfig
    cases hconfig
  · intro step s t hs h config hconfig
    obtain ⟨inv, call⟩ := step
    have hexec : exec inv call s = .ok t := h
    cases exec_effect hexec with
    | initialized _ eq =>
      rw [eq] at hconfig
      obtain rfl := Option.some.inj hconfig
      decide
    | adminProposed _ _ eq => rw [eq] at hconfig; exact hs config hconfig
    | adminAccepted _ _ _ _ _ eq => rw [eq] at hconfig; exact hs config hconfig
    | adminCancelled _ _ eq => rw [eq] at hconfig; exact hs config hconfig
    | configured admin stored auth lifetime cap eq =>
      rw [eq] at hconfig
      obtain rfl := Option.some.inj hconfig
      exact ⟨lifetime, cap⟩
    | booked eq => rw [eq] at hconfig; exact hs config hconfig
    | claimed _ _ _ _ _ _ eq => rw [eq] at hconfig; exact hs config hconfig
    | distributed _ _ eq => rw [eq] at hconfig; exact hs config hconfig

end Config

section Caps

/-- The claims add up to the counters, which stay within the caps. -/
structure Counted {home : Addr} (steps : List (Step Addr home)) (s : State Addr) : Prop where
  claims : ∀ referrer, claimedMints steps referrer = s.lifetimeClaimed referrer
  lifetime : ∀ config, 0 < config.maxLifetimeReward → Fixed steps config → ∀ referrer,
    s.lifetimeClaimed referrer ≤ config.maxLifetimeReward
  global : ∀ config, 0 < config.globalReferralMintCap → Fixed steps config →
    totalMinted s ≤ config.globalReferralMintCap

theorem Counted.step {step : Step Addr self} (hpre : Counted steps (reached steps))
    (hx : (machine self).exec step (reached steps) = .ok t) (hcapped : StepCapped steps step) :
    Counted (steps ++ [step]) t := by
  obtain ⟨inv, call⟩ := step
  have hexec : exec inv call (reached steps) = .ok t := hx
  have hlast := Machine.executes_snoc hx
  have htally : ∀ referrer, claimedMints (steps ++ [(inv, call)]) referrer =
      claimedMints steps referrer + claimMint referrer (reached steps) (inv, call) t :=
    fun referrer => Machine.tally_snoc_ok hx
  rcases (exec_effect hexec).minted_cases with ⟨hminted, hlifetime⟩ |
    ⟨referrer, config, raw, rfl, hgranted, hminted, hlifetime⟩ |
    ⟨mints, rfl, hminted, hdue, hlifetime⟩
  · have hnothing : ∀ referrer, claimMint referrer (reached steps) (inv, call) t = 0 := by
      intro referrer
      unfold claimMint
      cases call <;> simp [mintedTo, hminted]
    constructor
    · intro referrer
      rw [htally, hnothing, add_zero, hlifetime]
      exact hpre.claims referrer
    · rw [hlifetime]
      intro config hpos hfixed
      exact hpre.lifetime config hpos hfixed.of_append
    · intro config hpos hfixed
      rw [totalMinted, hminted]
      exact hpre.global config hpos hfixed.of_append
  · obtain ⟨heven, hroom⟩ := hcapped config raw hgranted
    -- a claim of the run is granted under the config that the whole run finds
    have hfound : ∀ found, Fixed (steps ++ [(inv, .claimReward referrer)]) found →
        config = found := by
      intro found hfixed
      exact Option.some.inj (hgranted.stored.symm.trans (hfixed steps _ t hlast rfl))
    constructor
    · intro a
      rw [htally, hpre.claims a, hlifetime, claimMint_claim, mintedTo_cons hminted a, heven]
      by_cases ha : referrer = a
      · subst ha
        rw [Function.update_self, if_pos rfl, add_sub_cancel_right]
      · rw [Function.update_of_ne (Ne.symm ha), if_neg ha, zero_add, sub_self, add_zero]
    · intro found hpos hfixed a
      obtain rfl := hfound found hfixed
      have hbefore := hpre.lifetime config hpos hfixed.of_append a
      rw [hlifetime]
      by_cases ha : a = referrer
      · subst ha
        have hdue : mintDue (reached steps) a config raw ≤
            config.maxLifetimeReward - (reached steps).lifetimeClaimed a :=
          (min_le_left _ _).trans (min_le_right _ _)
        rw [Function.update_self]
        omega
      · rw [Function.update_of_ne ha]
        exact hbefore
    · intro found hpos hfixed
      obtain rfl := hfound found hfixed
      rw [(claim_totals hgranted hexec).1, add_comm]
      exact hroom hfixed.of_append
  · constructor
    · intro a
      rw [htally, hpre.claims a, hlifetime, claimMint, add_zero]
    · rw [hlifetime]
      intro config hpos hfixed
      exact hpre.lifetime config hpos hfixed.of_append
    · intro config hpos hfixed
      have hfound : (reached steps).config = some config := hfixed steps _ t hlast rfl
      rw [totalMinted_append hminted, hdue, add_comm]
      exact hcapped config hfound hfixed.of_append

theorem counted_of_capped (hcapped : ∀ pre step t,
      (machine self).Executes deployed steps pre step t → StepCapped pre step) :
    ∀ pre, pre <+: steps → Counted pre (reached pre) := by
  apply Machine.run_history_of_executes (M := machine self) (P := fun pre u => Counted pre u)
  · constructor
    · intro referrer
      rfl
    · intro config hpos _ referrer
      exact hpos.le
    · intro config hpos _
      exact hpos.le
  · intro pre step u hx hpre
    exact hpre.step hx.exec_eq (hcapped pre step u hx)
  · intro pre step e hpre herror
    constructor
    · intro referrer
      rw [claimedMints, Machine.tally_snoc_error herror]
      exact hpre.claims referrer
    · intro config hpos hfixed
      exact hpre.lifetime config hpos hfixed.of_append
    · intro config hpos hfixed
      exact hpre.global config hpos hfixed.of_append

/-- A granted claim that the counters follow asks for what it counts. -/
theorem MintsCapped.step_capped {pre : List (Step Addr self)} {step : Step Addr self}
    (hx : (machine self).exec step (reached pre) = .ok t) (h : MintsCapped (pre ++ [step])) :
    StepCapped pre step := by
  obtain ⟨inv, call⟩ := step
  have hexec : exec inv call (reached pre) = .ok t := hx
  have hlast := Machine.executes_snoc hx
  have hafter : reached (pre ++ [(inv, call)]) = t := hlast.run_eq
  cases call with
  | claimReward referrer =>
    intro config raw hgranted
    obtain ⟨htotal, hlifetime, -⟩ := claim_totals hgranted hexec
    constructor
    · have hcounted := (h.counted pre inv referrer t hlast).1
      omega
    · intro hfixed
      have hcap := h.global config (reached_config_pos pre config hgranted.stored).2
        (hfixed.snoc hgranted.stored)
      rw [hafter, htotal] at hcap
      omega
  | distributeEpochBonus =>
    intro config hfound hfixed
    have hcap := h.global config (reached_config_pos pre config hfound).2 (hfixed.snoc hfound)
    rw [hafter] at hcap
    cases exec_effect hexec with
    | booked eq ungranted unminted => exact absurd rfl unminted
    | distributed mints due eq =>
      have htotal : totalMinted t = (mints.map Mint.amount).sum + totalMinted (reached pre) :=
        totalMinted_append (by rw [eq])
      rw [htotal, due, add_comm] at hcap
      exact hcap
  | _ => trivial

/-- The counters cap what is minted exactly in the runs whose claims ask for what they count and
whose bonuses leave room. -/
theorem mintsCapped_iff (steps : List (Step Addr self)) :
    (∀ pre, pre <+: steps → MintsCapped pre) ↔ ∀ pre step t,
      (machine self).Executes deployed steps pre step t → StepCapped pre step := by
  constructor
  · intro h pre step t hx
    exact MintsCapped.step_capped hx.exec_eq (h _ hx.snoc_prefix)
  · intro hcapped pre hpre
    have hcounted := counted_of_capped hcapped pre hpre
    constructor
    · intro early inv referrer t hx
      have hexec : exec inv (.claimReward referrer) (reached early) = .ok t := hx.exec_eq
      have hstep := hcapped early (inv, .claimReward referrer) t (hx.mono hpre)
      by_cases hgranted : ∃ config raw, Granted inv (reached early) referrer config raw
      · obtain ⟨config, raw, hgranted⟩ := hgranted
        obtain ⟨htotal, hlifetime, hglobal⟩ := claim_totals hgranted hexec
        have heven : mintAsked inv (reached early) referrer =
            mintDue (reached early) referrer config raw := (hstep config raw hgranted).1
        constructor
        · omega
        · omega
      · obtain ⟨hminted, hlifetime, hglobal⟩ := claim_held hexec fun config raw hterms =>
          hgranted ⟨config, raw, hterms⟩
        rw [totalMinted, hminted, hlifetime, hglobal]
        exact ⟨by simp [totalMinted], by simp [totalMinted]⟩
    · intro config hpos hfixed referrer
      rw [hcounted.claims]
      exact hcounted.lifetime config hpos hfixed referrer
    · intro config hpos hfixed
      exact hcounted.global config hpos hfixed

end Caps

section Multiplied

/-- An invocation at time `now` that every account signed; the contract is address 0. -/
def calm (now : ℕ) : Invocation ℕ 0 where
  toEnv := signedByAll now
  isPaused _ := none
  mints _ _ _ := true
  recordReferral _ _ _ := true
  multiplier _ _ := some 10000

/-- Account 5 refers account 6, a mentor, and claims at the head of the leaderboard. -/
def topRun : List (Step ℕ 0) :=
  [(calm 1000000, .initializeReferral 1 2 3),
    (calm 1000000, .registerReferral 5 6 true),
    (calm 1000000, .fulfillReferral 6)]

def topClaim : Step ℕ 0 := (calm 1000000, .claimReward 5)

/-- Ten times what is counted. -/
theorem topClaim_uncounted : ¬ ∀ steps : List (Step ℕ 0), MintsCapped steps := by
  intro h
  have hx : (machine 0).Executes deployed (topRun ++ [topClaim]) topRun topClaim
      (reached (topRun ++ [topClaim])) := by
    apply Machine.executes_of_run_ne
    intro heq
    exact absurd (congrArg (fun u : State ℕ => u.globalMinted) heq) (by decide)
  have hcounted := ((h (topRun ++ [topClaim])).counted topRun _ 5 _ hx).1
  exact absurd hcounted (by decide)

end Multiplied

end Referral
