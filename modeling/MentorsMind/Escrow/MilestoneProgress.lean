import MentorsMind.Escrow.Changes
import MentorsMind.Escrow.RollbackSafety

/-! Whether the money of a milestone escrow can still get out: the learner completes the
milestones one by one, and nobody can do anything once one of them is disputed. -/
namespace Escrow
open Outcome Soroban Shared

section Books

variable {Addr : Type}

/-- The books of a milestone escrow add up, and its status says what the milestones are. -/
structure MilestoneBalanced (home : Addr) (m : MilestoneEscrow Addr) : Prop where
  learner_ne : m.learner ≠ home
  lengths : m.milestoneStatuses.length = m.milestones.length
  amount_pos : ∀ spec ∈ m.milestones, 0 < spec.amount
  fee_nonneg : 0 ≤ m.platformFee
  net_nonneg : 0 ≤ m.netAmount
  total_eq : m.platformFee + m.netAmount + unpaid m.milestones m.milestoneStatuses =
    m.totalAmount
  total_le : m.totalAmount ≤ maxFinancialAmount
  status : (m.status = .active ∧ ∀ status ∈ m.milestoneStatuses, status ≠ .disputed) ∨
    m.status = .disputed ∨
    (m.status = .released ∧ ∀ status ∈ m.milestoneStatuses, status = .completed)

variable {home : Addr} {m m' : MilestoneEscrow Addr}

theorem NewMilestone.balanced {b b' : Book Addr} (h : NewMilestone home b b' m) :
    MilestoneBalanced home m where
  learner_ne := h.learner_ne
  lengths := by rw [h.statuses, List.length_map]
  amount_pos := h.amount_pos
  fee_nonneg := h.fee.ge
  net_nonneg := h.net.ge
  total_eq := by rw [h.fee, h.net, h.unpaid_eq]; ring
  total_le := h.total_le
  status := by
    refine .inl ⟨h.status, fun status hstatus => ?_⟩
    rw [h.statuses] at hstatus
    obtain ⟨-, -, rfl⟩ := List.mem_map.mp hstatus
    decide

theorem MilestoneChange.balanced (hm : MilestoneBalanced home m) (h : MilestoneChange m m') :
    MilestoneBalanced home m' := by
  cases h with
  | completed index spec fee active listed pending isFee =>
    have hpos := hm.amount_pos spec (List.mem_of_getElem? listed)
    have hfee := isFee.bounds hpos.le
    have hunpaid := unpaid_set .completed listed pending
    have htotal := hm.total_eq
    have hundisputed : ∀ status ∈ m.milestoneStatuses, status ≠ .disputed := by
      rcases hm.status with ⟨-, hnone⟩ | hdisputed | ⟨hreleased, -⟩
      · exact hnone
      · rw [active] at hdisputed
        cases hdisputed
      · rw [active] at hreleased
        cases hreleased
    refine {
      learner_ne := hm.learner_ne
      lengths := by rw [List.length_set]; exact hm.lengths
      amount_pos := hm.amount_pos
      fee_nonneg := add_nonneg hm.fee_nonneg hfee.1
      net_nonneg := add_nonneg hm.net_nonneg (by omega)
      total_eq := ?_
      total_le := hm.total_le
      status := ?_ }
    · show m.platformFee + fee + (m.netAmount + (spec.amount - fee)) +
        unpaid m.milestones (m.milestoneStatuses.set index .completed) = m.totalAmount
      rw [hunpaid, if_pos rfl]
      omega
    · by_cases hall : (m.milestoneStatuses.set index .completed).all (· = .completed)
      · refine .inr (.inr ⟨if_pos hall, ?_⟩)
        simpa using hall
      · refine .inl ⟨(if_neg hall).trans active, fun status hstatus => ?_⟩
        rcases List.mem_or_eq_of_mem_set hstatus with hold | rfl
        · exact hundisputed status hold
        · decide
  | disputed index active pending =>
    obtain ⟨hlt, -⟩ := List.getElem?_eq_some_iff.mp pending
    have hlisted := List.getElem?_eq_getElem (hm.lengths ▸ hlt)
    have hunpaid := unpaid_set .disputed hlisted pending
    have htotal := hm.total_eq
    refine {
      learner_ne := hm.learner_ne
      lengths := by rw [List.length_set]; exact hm.lengths
      amount_pos := hm.amount_pos
      fee_nonneg := hm.fee_nonneg
      net_nonneg := hm.net_nonneg
      total_eq := ?_
      total_le := hm.total_le
      status := .inr (.inl rfl) }
    show m.platformFee + m.netAmount +
      unpaid m.milestones (m.milestoneStatuses.set index .disputed) = m.totalAmount
    rw [hunpaid, if_neg (by decide)]
    omega

end Books

section Stored

variable {Addr : Type} [DecidableEq Addr] {self : Addr} {digests : Digests} {s t : State Addr}
  {step : Step Addr self} {id : ℕ} {m : MilestoneEscrow Addr}

/-- A stored milestone escrow was there before, was rewritten, or is new. -/
theorem exec_milestone (hs : s.WellFormed) (h : exec digests step.1 step.2 s = .ok t)
    (hm : t.custody.book.milestone id = some m) :
    s.custody.book.milestone id = some m ∨
      (∃ m₀, s.custody.book.milestone id = some m₀ ∧ MilestoneChange m₀ m) ∨
      (id = s.custody.book.milestoneCount + 1 ∧
        NewMilestone self s.custody.book t.custody.book m) := by
  cases exec_bookChange hs h with
  | unchanged same => exact .inl (by rw [← same.escrows.milestone, hm])
  | initialized fresh book =>
    rw [book] at hm
    exact .inl hm
  | created sessionId e opens opening => exact .inl (by rw [← opening.milestone, hm])
  | rewritten k e e' call rewrites => exact .inl (by rw [← rewrites.milestone, hm])
  | milestoneCreated m₁ creates opening new =>
    rw [opening.milestone] at hm
    obtain ⟨rfl, rfl⟩ | ⟨-, hold⟩ := Table.update_eq_some_iff.mp hm
    · exact .inr (.inr ⟨rfl, new⟩)
    · exact .inl hold
  | milestoneRewritten k m₀ m₁ rewrites =>
    rw [rewrites.milestone] at hm
    obtain ⟨rfl, rfl⟩ | ⟨-, hold⟩ := Table.update_eq_some_iff.mp hm
    · exact .inr (.inl ⟨m₀, rewrites.found, rewrites.change⟩)
    · exact .inl hold
  | restored records restores book =>
    rw [book, (restoreRecords_counts _ _).1] at hm
    exact .inl hm

theorem run_milestoneBalanced (digests : Digests) (initial : Addr → Addr → ℤ)
    (steps : List (Step Addr self)) :
    ∀ id m, ((machine self digests).run (deployed initial) steps).custody.book.milestone id =
      some m → 0 < id ∧ MilestoneBalanced self m := by
  refine (Machine.run_invariant (M := machine self digests)
    (P := fun s => s.WellFormed ∧ ∀ id m, s.custody.book.milestone id = some m →
      0 < id ∧ MilestoneBalanced self m)
    ⟨deployed_wellFormed initial, fun _ _ h => (nomatch h)⟩ ?_ steps).2
  intro step s t hs h
  refine ⟨exec_wellFormed hs.1 h, fun id m hm => ?_⟩
  rcases exec_milestone hs.1 h hm with hold | ⟨m₀, hm₀, hchange⟩ | ⟨hid, hnew⟩
  · exact hs.2 id m hold
  · exact ⟨(hs.2 id m₀ hm₀).1, hchange.balanced (hs.2 id m₀ hm₀).2⟩
  · exact ⟨by omega, hnew.balanced⟩

omit [DecidableEq Addr] in
theorem State.WellFormed.admin_of_milestone (hs : s.WellFormed) (hid : 0 < id)
    (hm : s.custody.book.milestone id = some m) : s.config.admin ≠ none := by
  intro hnone
  have hcount := (hs.fresh hnone).2
  rw [hs.book.milestone_gt id (by omega)] at hm
  cases hm

/-- A disputed milestone escrow stays as it is: completing and disputing both want an active
one, and no other entry point looks at milestone escrows. -/
theorem exec_disputed (hs : s.WellFormed) (hm : s.custody.book.milestone id = some m)
    (hdisputed : m.status = .disputed) (h : exec digests step.1 step.2 s = .ok t) :
    t.custody.book.milestone id = some m := by
  cases exec_bookChange hs h with
  | unchanged same => rw [same.escrows.milestone, hm]
  | initialized fresh book => rw [book, hm]
  | created sessionId e opens opening => rw [opening.milestone, hm]
  | rewritten k e e' call rewrites => rw [rewrites.milestone, hm]
  | milestoneCreated m₁ creates opening =>
    have hne : id ≠ s.custody.book.milestoneCount + 1 := by
      rintro rfl
      rw [hs.book.milestone_gt _ (Nat.lt_succ_self _)] at hm
      cases hm
    rw [opening.milestone, Function.update_of_ne hne, hm]
  | milestoneRewritten k m₀ m₁ rewrites =>
    have hne : id ≠ k := by
      rintro rfl
      obtain rfl : m = m₀ := Option.some.inj (hm.symm.trans rewrites.found)
      cases rewrites.change with
      | completed index spec fee active =>
        rw [hdisputed] at active
        cases active
      | disputed index active =>
        rw [hdisputed] at active
        cases active
    rw [rewrites.milestone, Function.update_of_ne hne, hm]
  | restored records restores book => rw [book, (restoreRecords_counts _ _).1, hm]

end Stored

section Configuration

variable {Addr : Type} {c : Config Addr}

/-- Once there is an admin, fees can be computed and there is somebody to pay them to. -/
structure Config.Paying (c : Config Addr) : Prop where
  treasury : c.admin ≠ none → c.treasury ≠ none
  feeBps : c.admin ≠ none → c.feeBps ≠ none
  schedule : ∀ schedule, c.feeSchedule = some schedule → ∃ u, validateFeeSchedule schedule = .ok u

variable [DecidableEq Addr] {self : Addr} {inv : Invocation Addr self} {c' : Config Addr}

theorem Config.Paying.approveTokens (hc : c.Paying) (tokens : List Addr) :
    (tokens.foldl (fun c token => setTokenApproved c token true) c).Paying := by
  induction tokens generalizing c with
  | nil => exact hc
  | cons token tokens ih => exact ih ⟨hc.treasury, hc.feeBps, hc.schedule⟩

omit [DecidableEq Addr] in
/-- A setter that leaves the rates and the treasury as they are. -/
private theorem Config.Paying.setter (hc : c.Paying) (hadmin : c.admin ≠ none)
    (htreasury : c'.treasury = c.treasury) (hfee : c'.feeBps = c.feeBps)
    (hschedule : c'.feeSchedule = c.feeSchedule) : c'.Paying :=
  ⟨fun _ => htreasury ▸ hc.treasury hadmin, fun _ => hfee ▸ hc.feeBps hadmin,
    hschedule ▸ hc.schedule⟩

theorem execConfig_paying {call : ConfigCall Addr} (hwf : c.WellFormed) (hc : c.Paying)
    (h : execConfig inv call c = .ok c') : c'.Paying := by
  have hadmin := (execConfig_spec hwf h).1
  cases call with
  | proposeAdminChange newAdmin =>
    simp only [execConfig, proposeAdminChange, bind_eq_ok, pure_eq_ok] at h
    obtain ⟨_, -, _, -, -, -, _, -, rfl⟩ := h
    exact hc.setter hadmin rfl rfl rfl
  | acceptAdminRole newAdmin =>
    simp only [execConfig, acceptAdminRole, bind_eq_ok, pure_eq_ok] at h
    obtain ⟨-, -, _, -, -, -, -, -, -, -, rfl⟩ := h
    exact hc.setter hadmin rfl rfl rfl
  | revokeAdminEmergency newAdmin =>
    simp only [execConfig, revokeAdminEmergency, bind_eq_ok, pure_eq_ok] at h
    obtain ⟨_, -, -, -, rfl⟩ := h
    exact hc.setter hadmin rfl rfl rfl
  | updateFee newFeeBps =>
    simp only [execConfig, updateFee, bind_eq_ok, pure_eq_ok] at h
    obtain ⟨_, -, -, -, rfl⟩ := h
    exact ⟨fun _ => hc.treasury hadmin, fun _ => by simp, hc.schedule⟩
  | updateTreasury newTreasury =>
    simp only [execConfig, updateTreasury, bind_eq_ok, pure_eq_ok] at h
    obtain ⟨_, -, rfl⟩ := h
    exact ⟨fun _ => by simp, fun _ => hc.feeBps hadmin, hc.schedule⟩
  | setFeeSchedule admin schedule =>
    simp only [execConfig, setFeeSchedule, bind_eq_ok, pure_eq_ok] at h
    obtain ⟨-, -, u, hvalid, rfl⟩ := h
    refine ⟨fun _ => hc.treasury hadmin, fun _ => hc.feeBps hadmin, ?_⟩
    intro schedule' hschedule
    obtain rfl := Option.some.inj hschedule
    exact ⟨u, hvalid⟩
  | updateFeeSchedule admin t0 t1 t2 t3 threshold discount =>
    simp only [execConfig, updateFeeSchedule, bind_eq_ok, pure_eq_ok] at h
    obtain ⟨-, -, _, -, u, hvalid, rfl⟩ := h
    refine ⟨fun _ => hc.treasury hadmin, fun _ => hc.feeBps hadmin, ?_⟩
    intro schedule' hschedule
    obtain rfl := Option.some.inj hschedule
    exact ⟨u, hvalid⟩
  | setLiquidityPool poolAddress =>
    simp only [execConfig, setLiquidityPool, bind_eq_ok, pure_eq_ok] at h
    obtain ⟨_, -, rfl⟩ := h
    exact hc.setter hadmin rfl rfl rfl
  | setDynamicFeeEnabled enabled =>
    simp only [execConfig, setDynamicFeeEnabled, bind_eq_ok, pure_eq_ok] at h
    obtain ⟨_, -, rfl⟩ := h
    exact hc.setter hadmin rfl rfl rfl
  | setApprovedToken token approved =>
    simp only [execConfig, setApprovedToken, bind_eq_ok, pure_eq_ok] at h
    obtain ⟨_, -, rfl⟩ := h
    exact hc.setter hadmin rfl rfl rfl
  | setInterfaceRegistry admin registry =>
    simp only [execConfig, setInterfaceRegistry, bind_eq_ok, pure_eq_ok] at h
    obtain ⟨_, -, rfl⟩ := h
    exact hc.setter hadmin rfl rfl rfl
  | setStakingContract admin staking =>
    simp only [execConfig, setStakingContract, bind_eq_ok, pure_eq_ok] at h
    obtain ⟨_, -, -, -, rfl⟩ := h
    exact hc.setter hadmin rfl rfl rfl
  | setReputationContract admin reputation =>
    simp only [execConfig, setReputationContract, bind_eq_ok, pure_eq_ok] at h
    obtain ⟨_, -, -, -, rfl⟩ := h
    exact hc.setter hadmin rfl rfl rfl
  | setInsuranceContract admin insurance =>
    simp only [execConfig, setInsuranceContract, bind_eq_ok, pure_eq_ok] at h
    obtain ⟨_, -, -, -, rfl⟩ := h
    exact hc.setter hadmin rfl rfl rfl
  | setMultisigAdmin admin multisigAdmin =>
    simp only [execConfig, setMultisigAdmin, bind_eq_ok, pure_eq_ok] at h
    obtain ⟨_, -, rfl⟩ := h
    exact hc.setter hadmin rfl rfl rfl
  | setGovernanceContract admin governance =>
    simp only [execConfig, setGovernanceContract, bind_eq_ok, pure_eq_ok] at h
    obtain ⟨_, -, rfl⟩ := h
    exact hc.setter hadmin rfl rfl rfl

theorem exec_paying {digests : Digests} {s t : State Addr} {step : Step Addr self}
    (hs : s.WellFormed) (hc : s.config.Paying) (h : exec digests step.1 step.2 s = .ok t) :
    t.config.Paying := by
  obtain ⟨inv, call⟩ := step
  by_cases hwrites : call.writesConfig = false
  · rw [(exec_frame h).1 hwrites]
    exact hc
  · cases call with
    | initializeEscrow admin treasury feeBps approvedTokens delay =>
      simp only [exec, initializeConfig, bind_eq_ok, pure_eq_ok] at h
      obtain ⟨c, ⟨-, -, -, -, rfl⟩, rfl⟩ := h
      apply Config.Paying.approveTokens
      exact ⟨fun _ => Option.some_ne_none _, fun _ => Option.some_ne_none _, hc.schedule⟩
    | config call =>
      simp only [exec, bind_eq_ok, pure_eq_ok] at h
      obtain ⟨c, hcall, rfl⟩ := h
      exact execConfig_paying hs.config hc hcall
    | _ => simp [Call.writesConfig] at hwrites

theorem run_paying (digests : Digests) (initial : Addr → Addr → ℤ)
    (steps : List (Step Addr self)) :
    ((machine self digests).run (deployed initial) steps).config.Paying := by
  refine (Machine.run_invariant (M := machine self digests)
    (P := fun s => s.WellFormed ∧ s.config.Paying) ⟨deployed_wellFormed initial, ?_⟩ ?_ steps).2
  · exact ⟨fun h => absurd rfl h, fun h => absurd rfl h, fun _ h => (nomatch h)⟩
  · intro step s t hs h
    exact ⟨exec_wellFormed hs.1 h, exec_paying hs.1 hs.2 h⟩

end Configuration

section Completion

variable {Addr : Type} {self : Addr} {inv : Invocation Addr self} {c : Config Addr}

/-- The token contracts accept the invocation's payments, and the staking contract answers. -/
structure Cooperative {home : Addr} (inv : Invocation Addr home) : Prop where
  accepts : ∀ x, inv.accepts x = true
  tier : ∀ staking mentor, ∃ tier, inv.tier staking mentor = some tier

theorem priceMultiplierBps_le (price : ℤ) : priceMultiplierBps price ≤ 12500 := by
  unfold priceMultiplierBps
  split_ifs <;> omega

theorem scaledBaseBps_ofCapped (inv : Invocation Addr self) (c : Config Addr) {tierBase : ℕ}
    (hcap : tierBase ≤ maxFeeBps) (cache : PriceCache) :
    ∃ x, scaledBaseBps inv c cache tierBase = .ok x := by
  unfold scaledBaseBps
  split_ifs with henabled
  · simp only [bind_eq_ok, safeMulU32_eq_ok, safeDivU32_eq_ok, pure_eq_ok]
    have hmultiplier := priceMultiplierBps_le (currentPrice inv c cache).1
    have hproduct : tierBase * priceMultiplierBps (currentPrice inv c cache).1 < 2 ^ 32 := by
      have hle := Nat.mul_le_mul hcap hmultiplier
      unfold maxFeeBps at hle
      omega
    exact ⟨_, _, ⟨hproduct, rfl⟩, _, ⟨by omega, rfl⟩, rfl⟩
  · exact ⟨_, rfl⟩

theorem tierBps_le {schedule : FeeSchedule} {u : Unit}
    (h : validateFeeSchedule schedule = .ok u) (tier : ℕ) : tierBps schedule tier ≤ maxFeeBps := by
  simp only [validateFeeSchedule, bind_eq_ok, require_eq_ok] at h
  obtain ⟨-, ⟨h0, h1, h2, h3⟩, -⟩ := h
  unfold tierBps
  split
  · exact h1
  · exact h2
  · exact h3
  · exact h0

/-- Every admissible amount has a fee at the flat rate. -/
theorem flatFee_total {amount : ℤ} (hc : c.Paying) (hcap : c.FeeCapped) (hadmin : c.admin ≠ none)
    (hpos : 0 ≤ amount) (hmax : amount ≤ maxFinancialAmount) :
    ∃ fee, flatFee c amount = .ok fee := by
  obtain ⟨bps, hbps⟩ := Option.ne_none_iff_exists'.mp (hc.feeBps hadmin)
  have hfits := rate_fits hpos hmax (hcap bps hbps)
  simp only [flatFee, bind_eq_ok, expect_eq_ok, safeMul_eq_ok, safeDiv_eq_ok]
  exact ⟨_, bps, hbps, _, ⟨hfits.1, rfl⟩, ⟨by norm_num, hfits.2⟩, rfl⟩

/-- The mentor's tier is known, wherever a fee depends on it. -/
def TierAnswers {home : Addr} (inv : Invocation Addr home) (c : Config Addr) (mentor : Addr) :
    Prop :=
  c.feeSchedule ≠ none → ∃ tier, mentorTier inv c mentor = .ok tier

theorem Cooperative.tierAnswers (hinv : Cooperative inv) (c : Config Addr) (mentor : Addr) :
    TierAnswers inv c mentor := by
  intro _
  unfold mentorTier
  cases c.stakingContract with
  | none => exact ⟨0, rfl⟩
  | some staking =>
    obtain ⟨tier, htier⟩ := hinv.tier staking mentor
    exact ⟨tier, by simp [htier]⟩

/-- Every admissible amount has a fee. -/
theorem computeFeeUnified_total (cache : PriceCache) {mentor : Addr} {amount : ℤ}
    (hc : c.Paying) (hcap : c.FeeCapped) (hadmin : c.admin ≠ none)
    (htiers : TierAnswers inv c mentor) (hpos : 0 ≤ amount) (hmax : amount ≤ maxFinancialAmount) :
    ∃ quote, computeFeeUnified inv c cache mentor amount = .ok quote := by
  unfold computeFeeUnified
  cases hs : c.feeSchedule with
  | some schedule =>
    obtain ⟨u, hvalid⟩ := hc.schedule schedule hs
    obtain ⟨tier, htier⟩ := htiers (by rw [hs]; exact Option.some_ne_none schedule)
    obtain ⟨⟨base, cache'⟩, hbase⟩ :=
      scaledBaseBps_ofCapped inv c (tierBps_le hvalid tier) cache
    simp only [computeFeeWithMeta, bind_eq_ok, safeMul_eq_ok, safeDiv_eq_ok, pure_eq_ok]
    have hfits := rate_fits hpos hmax (min_le_right
      (if schedule.volumeDiscountThreshold < amount then base - schedule.volumeDiscountBps
        else base) maxFeeBps)
    exact ⟨_, tier, htier, _, hbase, _, ⟨hfits.1, rfl⟩, _, ⟨⟨by norm_num, hfits.2⟩, rfl⟩, rfl⟩
  | none =>
    obtain ⟨fee, hfee⟩ := flatFee_total hc hcap hadmin hpos hmax
    exact ⟨⟨fee, none, cache⟩, by simp [hfee]⟩

variable [DecidableEq Addr] {s t : Custody Addr}

/-- The milestone at the index was completed, and nothing else of the escrow but its totals
and its status was written. -/
structure Advances (m m' : MilestoneEscrow Addr) (index : ℕ) : Prop where
  milestones : m'.milestones = m.milestones
  statuses : m'.milestoneStatuses = m.milestoneStatuses.set index .completed
  status : m'.status = if (m.milestoneStatuses.set index .completed).all (· = .completed)
    then .released else .active
  learner : m'.learner = m.learner
  mentor : m'.mentor = m.mentor
  tokenAddress : m'.tokenAddress = m.tokenAddress

/-- The escrow after the milestone at the index was paid, for a fee of `fee`. -/
def afterMilestone (m : MilestoneEscrow Addr) (index : ℕ) (amount fee : ℤ)
    (status : EscrowStatus) : MilestoneEscrow Addr :=
  { m with
    milestoneStatuses := m.milestoneStatuses.set index .completed
    platformFee := m.platformFee + fee
    netAmount := m.netAmount + (amount - fee)
    status := status }

/-- The learner of an active escrow can complete any milestone that is pending. -/
theorem completeMilestone_isOk {m : MilestoneEscrow Addr} {id index : ℕ} {spec : MilestoneSpec}
    (hc : c.Paying) (hcap : c.FeeCapped) (hadmin : c.admin ≠ none) (hinv : Cooperative inv)
    (hm : s.book.milestone id = some m) (hb : MilestoneBalanced self m)
    (hactive : m.status = .active) (hlisted : m.milestones[index]? = some spec)
    (hpending : m.milestoneStatuses[index]? = some .pending) (hauth : inv.auth m.learner = true)
    (hcovered : unpaid m.milestones m.milestoneStatuses ≤ s.tokens.balance m.tokenAddress self) :
    ∃ t m', completeMilestone inv c s id index = .ok t ∧ t.book.milestone id = some m' ∧
      Advances m m' index ∧
      s.tokens.balance m.tokenAddress self - spec.amount ≤
        t.tokens.balance m.tokenAddress self := by
  have hpos := hb.amount_pos spec (List.mem_of_getElem? hlisted)
  have hunpaid := unpaid_set .completed hlisted hpending
  have hleft := unpaid_nonneg hb.amount_pos (m.milestoneStatuses.set index .completed)
  rw [hunpaid, if_pos rfl] at hleft
  have htotal := hb.total_eq
  have hmax := hb.total_le
  have hfee_nonneg := hb.fee_nonneg
  have hnet_nonneg := hb.net_nonneg
  obtain ⟨quote, hquote⟩ := computeFeeUnified_total s.price hc hcap hadmin
    (hinv.tierAnswers c m.mentor) hpos.le (by omega)
  have hfee := (computeFeeUnified_isFee hcap hquote).bounds hpos.le
  obtain ⟨treasury, htreasury⟩ := Option.ne_none_iff_exists'.mp (hc.treasury hadmin)
  have hfunded : quote.fee + (spec.amount - quote.fee) ≤
      s.tokens.balance m.tokenAddress self := by omega
  obtain ⟨tokens, hpay⟩ := payRelease_isOk (m := m.mentor) hinv.accepts htreasury hfee.1
    (sub_nonneg.mpr hfee.2) hfunded
  have hbalance := (payRelease_flow hfee.1 hpay).2.le_balance
  unfold maxFinancialAmount at hmax
  have hload : loadMilestone s.book id = .ok m := by simp [loadMilestone, hm]
  have hspec : pendingMilestone m index = .ok spec := by
    simp [pendingMilestone, hactive, hlisted, hpending]
  have hnet : FitsI128 (spec.amount - quote.fee) := by
    unfold FitsI128
    omega
  have hfees : FitsI128 (m.platformFee + quote.fee) := by
    unfold FitsI128
    omega
  have hnets : FitsI128 (m.netAmount + (spec.amount - quote.fee)) := by
    unfold FitsI128
    omega
  have hdone : ∃ (book : Book Addr) (status : EscrowStatus),
      completeMilestone inv c s id index =
        .ok ⟨quote.price, book.setMilestone id
          (afterMilestone m index spec.amount quote.fee status), tokens⟩ ∧
      status = if (m.milestoneStatuses.set index .completed).all (· = .completed)
        then .released else .active := by
    simp only [completeMilestone, bind_eq_ok, safeSub_eq_ok, safeAdd_eq_ok, requireAuth_eq_ok]
    by_cases hall : (m.milestoneStatuses.set index .completed).all (· = .completed)
    · refine ⟨s.book.logTransition m.id ⟨m.status, .released, m.learner, inv.timestamp⟩,
        .released, ⟨m, hload, spec, hspec, (), hauth, quote, hquote, _, ⟨hnet, rfl⟩, tokens,
        hpay, _, ⟨hfees, rfl⟩, _, ⟨hnets, rfl⟩, ?_⟩, (if_pos hall).symm⟩
      rw [if_pos hall]
      simp only [bind_eq_ok, transitionStatus_eq_ok, pure_eq_ok]
      exact ⟨_, ⟨by rw [hactive]; rfl, rfl⟩, rfl⟩
    · refine ⟨s.book, .active, ⟨m, hload, spec, hspec, (), hauth, quote, hquote, _, ⟨hnet, rfl⟩,
        tokens, hpay, _, ⟨hfees, rfl⟩, _, ⟨hnets, rfl⟩, ?_⟩, (if_neg hall).symm⟩
      rw [if_neg hall, hactive]
      rfl
  obtain ⟨book, status, hcomplete, hstatus⟩ := hdone
  refine ⟨_, _, hcomplete, Function.update_self _ _ _, ⟨rfl, rfl, hstatus, rfl, rfl, rfl⟩, ?_⟩
  show _ ≤ tokens.balance m.tokenAddress self
  omega

end Completion

section Payable

variable {Addr : Type} [DecidableEq Addr] {self : Addr} {digests : Digests}
  {initial : Addr → Addr → ℤ} {steps : List (Step Addr self)} {id now : ℕ}
  {m : MilestoneEscrow Addr}

omit [DecidableEq Addr] in
def Call.isEntryPoint : Call Addr → Bool
  | .tokenActivity .. => false
  | _ => true

/-- By calls of the learner, the mentor and the admin the contract gets to where it owes
nothing more on the milestone escrow `m`. -/
def Payable (home : Addr) (digests : Digests) (s : State Addr) (id : ℕ) (m : MilestoneEscrow Addr)
    (now : ℕ) : Prop :=
  ∃ (calls : List (Step Addr home)) (t : State Addr),
    (∀ step ∈ calls, step.2.isEntryPoint = true ∧ step.1.timestamp = now ∧
      ∀ a, step.1.auth a = true → a = m.learner ∨ a = m.mentor ∨ s.config.admin = some a) ∧
    (machine home digests).execAll s calls = .ok t ∧
    owedByMilestone m.tokenAddress (t.custody.book.milestone id) = 0

/-- An invocation that the learner alone signs and no other contract refuses. -/
def signedByLearner {home : Addr} (learner : Addr) (hne : learner ≠ home) (now : ℕ) :
    Invocation Addr home where
  timestamp := now
  sequence := 0
  auth a := decide (a = learner)
  auth_home := decide_eq_false (Ne.symm hne)
  accepts _ := true
  tier _ _ := some 0
  verify _ _ _ := some true
  onSessionReleased _ _ _ _ _ := true
  coverageRatio _ := some 1

omit [DecidableEq Addr] in
theorem unpaid_pos {ms : List MilestoneSpec} {statuses : List MilestoneStatus}
    (hlengths : statuses.length = ms.length) (hpos : ∀ spec ∈ ms, 0 < spec.amount)
    (hopen : ∃ status ∈ statuses, status ≠ .completed) : 0 < unpaid ms statuses := by
  induction ms generalizing statuses with
  | nil =>
    obtain ⟨status, hstatus, -⟩ := hopen
    rw [List.eq_nil_of_length_eq_zero hlengths] at hstatus
    cases hstatus
  | cons spec ms ih =>
    cases statuses with
    | nil => cases hlengths
    | cons status statuses =>
      have hspec := hpos spec (by simp)
      have hrest : ∀ spec' ∈ ms, 0 < spec'.amount := fun spec' h => hpos spec' (by simp [h])
      have hnonneg := unpaid_nonneg hrest statuses
      rw [unpaid]
      split_ifs with hcompleted
      · obtain ⟨status', hmem, hne⟩ := hopen
        rcases List.mem_cons.mp hmem with rfl | hlater
        · exact absurd hcompleted hne
        · have hlater := ih (by simpa using hlengths) hrest ⟨status', hlater, hne⟩
          omega
      · omega

/-- What is owed on an escrow that nobody can touch stays owed. -/
theorem not_payable_of_disputed
    (hm : ((machine self digests).run (deployed initial) steps).custody.book.milestone id = some m)
    (hopen : ∃ status ∈ m.milestoneStatuses, status ≠ .completed)
    (hdisputed : m.status = .disputed) :
    ¬ Payable self digests ((machine self digests).run (deployed initial) steps) id m now := by
  rintro ⟨calls, t, -, hcalls, howed⟩
  have hb := (run_milestoneBalanced digests initial steps id m hm).2
  have hkept := Machine.execAll_invariant (M := machine self digests)
    (P := fun s => s.WellFormed ∧ s.custody.book.milestone id = some m)
    (fun step s t hs hx => ⟨exec_wellFormed hs.1 hx, exec_disputed hs.1 hs.2 hdisputed hx⟩)
    ⟨run_wellFormed digests initial steps, hm⟩ hcalls
  rw [hkept.2] at howed
  have hpos := unpaid_pos hb.lengths hb.amount_pos hopen
  simp [owedByMilestone, hdisputed, EscrowStatus.IsTerminal] at howed
  omega

/-- The learner completes the pending milestones one after the other. -/
theorem active_completes {inv : Invocation Addr self} (hinv : Cooperative inv) (n : ℕ)
    (hm : ((machine self digests).run (deployed initial) steps).custody.book.milestone id = some m)
    (hactive : m.status = .active) (hcount : m.milestoneStatuses.count .pending = n)
    (hauth : inv.auth m.learner = true)
    (hcovered : unpaid m.milestones m.milestoneStatuses ≤
      ((machine self digests).run (deployed initial) steps).custody.tokens.balance
        m.tokenAddress self) :
    ∃ calls t, (∀ step ∈ calls, step.1 = inv ∧
        ∃ index, step.2 = .custody (.completeMilestone id index)) ∧
      (machine self digests).execAll ((machine self digests).run (deployed initial) steps)
        calls = .ok t ∧
      owedByMilestone m.tokenAddress (t.custody.book.milestone id) = 0 := by
  induction n generalizing steps m with
  | zero =>
    have hb := (run_milestoneBalanced digests initial steps id m hm).2
    refine ⟨[], _, fun _ h => (nomatch h), rfl, ?_⟩
    have hundisputed : ∀ status ∈ m.milestoneStatuses, status ≠ .disputed := by
      rcases hb.status with ⟨-, hnone⟩ | hdisputed | ⟨hreleased, -⟩
      · exact hnone
      · rw [hactive] at hdisputed
        cases hdisputed
      · rw [hactive] at hreleased
        cases hreleased
    have hcompleted : ∀ status ∈ m.milestoneStatuses, status = .completed := by
      intro status hstatus
      cases status with
      | pending => exact absurd hstatus (List.count_eq_zero.mp hcount)
      | completed => rfl
      | disputed => exact absurd rfl (hundisputed _ hstatus)
    rw [hm, owedByMilestone, unpaid_of_all_completed hcompleted, ite_self]
  | succ n ih =>
    have hs := run_wellFormed digests initial steps
    obtain ⟨hid, hb⟩ := run_milestoneBalanced digests initial steps id m hm
    have hpending : MilestoneStatus.pending ∈ m.milestoneStatuses :=
      List.count_pos_iff.mp (by omega)
    obtain ⟨index, hlt, hindex⟩ := List.getElem_of_mem hpending
    have hlisted := List.getElem?_eq_getElem (hb.lengths ▸ hlt)
    obtain ⟨custody, m', hcomplete, hm', hadvances, hbalance⟩ :=
      completeMilestone_isOk (run_paying digests initial steps) hs.config.feeCapped
        (hs.admin_of_milestone hid hm) hinv hm hb hactive hlisted
        (List.getElem?_eq_some_iff.mpr ⟨hlt, hindex⟩) hauth hcovered
    have hexec : (machine self digests).exec (inv, .custody (.completeMilestone id index))
        ((machine self digests).run (deployed initial) steps) =
        .ok { (machine self digests).run (deployed initial) steps with custody := custody } := by
      show exec digests inv (.custody (.completeMilestone id index)) _ = _
      simp only [exec, execCustody, bind_eq_ok, pure_eq_ok]
      exact ⟨custody, hcomplete, rfl⟩
    by_cases hall : (m.milestoneStatuses.set index .completed).all (· = .completed)
    · refine ⟨[(inv, .custody (.completeMilestone id index))], _, ?_,
        Machine.execAll_cons hexec rfl, ?_⟩
      · intro step hstep
        obtain rfl := List.mem_singleton.mp hstep
        exact ⟨rfl, index, rfl⟩
      · have hstatus := hadvances.status
        rw [if_pos hall] at hstatus
        show owedByMilestone m.tokenAddress (custody.book.milestone id) = 0
        rw [hm']
        simp [owedByMilestone, hstatus, EscrowStatus.IsTerminal]
    · have hrun := Machine.run_snoc (machine self digests) (deployed initial) steps
        (inv, .custody (.completeMilestone id index))
      rw [Machine.apply_ok hexec] at hrun
      have hstatus := hadvances.status
      rw [if_neg hall] at hstatus
      have hfewer : m'.milestoneStatuses.count .pending = n := by
        rw [hadvances.statuses, List.count_set hlt, hindex, hcount]
        simp
      have hless := unpaid_set .completed hlisted
        (List.getElem?_eq_some_iff.mpr ⟨hlt, hindex⟩)
      rw [if_pos rfl] at hless
      obtain ⟨calls, t, hcalls, hrest, howed⟩ :=
        @ih (steps ++ [(inv, .custody (.completeMilestone id index))]) m'
        (by rw [hrun]; exact hm') hstatus hfewer (by rw [hadvances.learner]; exact hauth) (by
          rw [hrun, hadvances.milestones, hadvances.statuses, hadvances.tokenAddress, hless]
          show _ ≤ custody.tokens.balance m.tokenAddress self
          omega)
      rw [hrun] at hrest
      refine ⟨_ :: calls, t, ?_, Machine.execAll_cons hexec hrest, ?_⟩
      · intro step hstep
        rcases List.mem_cons.mp hstep with rfl | hlater
        · exact ⟨rfl, index, rfl⟩
        · exact hcalls step hlater
      · rw [hadvances.tokenAddress] at howed
        exact howed

/-- The contract starts without debts, and no rollback of the run restores more than is still
owed. -/
structure RestoresOwed {home : Addr} (digests : Digests) (initial : Addr → Addr → ℤ)
    (steps : List (Step Addr home)) : Prop where
  start : ∀ token, 0 ≤ initial token home
  restores : ∀ pre step t records,
    (machine home digests).Executes (deployed initial) steps pre step t →
    Restores step ((machine home digests).run (deployed initial) pre) records →
    ∀ e ∈ records, StillOwed ((machine home digests).run (deployed initial) pre).custody.book e

/-- In such a run the contract's balance covers every milestone escrow. -/
theorem run_milestoneCovered (hrun : RestoresOwed digests initial steps)
    (hm : ((machine self digests).run (deployed initial) steps).custody.book.milestone id = some m)
    (hopen : ¬ m.status.IsTerminal) :
    unpaid m.milestones m.milestoneStatuses ≤
      ((machine self digests).run (deployed initial) steps).custody.tokens.balance
        m.tokenAddress self := by
  have hbook := (run_wellFormed digests initial steps).book
  have hsolvent := run_solvent hrun.restores steps List.prefix_rfl
  have howed := hsolvent.owed_le hbook.owed_nonneg (.milestone id) m.tokenAddress
  have hlooped := run_looped_nonneg digests initial steps m.tokenAddress
  have hdeposit := hrun.start m.tokenAddress
  have hunpaid : (vault (gained initial self ((machine self digests).run (deployed initial) steps))
      ((machine self digests).run (deployed initial) steps).custody.book).owed (.milestone id)
        m.tokenAddress = unpaid m.milestones m.milestoneStatuses := by
    simp [vault, Book.owed, hm, owedByMilestone, hopen]
  rw [hunpaid] at howed
  simp only [vault, gained] at howed
  omega

/-- A milestone escrow with open milestones can be paid out exactly as long as none of them was
disputed, if the contract's balance covers it or no rollback restored more than was owed. -/
theorem payable_iff_active (digests : Digests) (initial : Addr → Addr → ℤ)
    (steps : List (Step Addr self)) {id : ℕ} {m : MilestoneEscrow Addr} (now : ℕ)
    (hm : ((machine self digests).run (deployed initial) steps).custody.book.milestone id = some m)
    (hopen : ∃ status ∈ m.milestoneStatuses, status ≠ .completed)
    (hcovered : unpaid m.milestones m.milestoneStatuses ≤
      ((machine self digests).run (deployed initial) steps).custody.tokens.balance
        m.tokenAddress self ∨ RestoresOwed digests initial steps) :
    Payable self digests ((machine self digests).run (deployed initial) steps) id m now ↔
      m.status = .active := by
  have hb := (run_milestoneBalanced digests initial steps id m hm).2
  constructor
  · intro hpayable
    rcases hb.status with ⟨hactive, -⟩ | hdisputed | ⟨-, hcompleted⟩
    · exact hactive
    · exact absurd hpayable (not_payable_of_disputed hm hopen hdisputed)
    · obtain ⟨status, hstatus, hne⟩ := hopen
      exact absurd (hcompleted status hstatus) hne
  · intro hactive
    have hsigned : Cooperative (signedByLearner m.learner hb.learner_ne now) :=
      ⟨fun _ => rfl, fun _ _ => ⟨0, rfl⟩⟩
    have hpaid : unpaid m.milestones m.milestoneStatuses ≤
        ((machine self digests).run (deployed initial) steps).custody.tokens.balance
          m.tokenAddress self := by
      rcases hcovered with hcovered | hrun
      · exact hcovered
      · exact run_milestoneCovered hrun hm (by simp [hactive, EscrowStatus.IsTerminal])
    obtain ⟨calls, t, hcalls, hdone, howed⟩ :=
      active_completes hsigned _ hm hactive rfl (decide_eq_true rfl) hpaid
    refine ⟨calls, t, fun step hstep => ?_, hdone, howed⟩
    obtain ⟨hinv, index, hcall⟩ := hcalls step hstep
    refine ⟨by rw [hcall]; rfl, by rw [hinv]; rfl, fun a ha => ?_⟩
    rw [hinv] at ha
    exact .inl (of_decide_eq_true ha)

end Payable

/-- The learner 3 deposits 60 and 40 for two milestones of the mentor 4. -/
def milestoneRun : List (Step ℕ 0) :=
  [(grantedByAll 0, .initializeEscrow 1 2 500 [9] 1),
    (grantedByAll 0, .custody (.createMilestoneEscrow 4 3 [⟨1, 60⟩, ⟨2, 40⟩] 9))]

/-- The escrow of `milestoneRun`. -/
def fundedMilestones : MilestoneEscrow ℕ where
  id := 1
  mentor := 4
  learner := 3
  totalAmount := 100
  milestones := [⟨1, 60⟩, ⟨2, 40⟩]
  milestoneStatuses := [.pending, .pending]
  status := .active
  createdAt := 0
  tokenAddress := 9
  platformFee := 0
  netAmount := 0

theorem payable_iff_active_milestoneRun :
    Payable 0 lengthDigests ((machine 0 lengthDigests).run (deployed learnerFunds) milestoneRun)
      1 fundedMilestones 0 ↔ fundedMilestones.status = .active :=
  payable_iff_active lengthDigests learnerFunds milestoneRun 0 (by rfl) (by decide)
    (.inl (by decide +kernel))

/-- Mentor and learner dispute the first milestone. -/
def disputedMilestoneRun : List (Step ℕ 0) :=
  milestoneRun ++ [(grantedByAll 0, .custody (.disputeMilestone 1 0))]

/-- The 100 units of the disputed escrow stay where they are, whatever is called. -/
theorem disputedMilestoneRun_stuck :
    ∃ m, ((machine 0 lengthDigests).run (deployed learnerFunds)
        disputedMilestoneRun).custody.book.milestone 1 = some m ∧
      m.milestoneStatuses = [.disputed, .pending] ∧
      ((machine 0 lengthDigests).run (deployed learnerFunds)
        disputedMilestoneRun).custody.tokens.balance 9 0 = 100 ∧
      ∀ now, ¬ Payable 0 lengthDigests ((machine 0 lengthDigests).run (deployed learnerFunds)
        disputedMilestoneRun) 1 m now := by
  have hm : ((machine 0 lengthDigests).run (deployed learnerFunds)
      disputedMilestoneRun).custody.book.milestone 1 = some { fundedMilestones with
        milestoneStatuses := [.disputed, .pending]
        status := .disputed } := by
    rfl
  refine ⟨_, hm, rfl, by decide +kernel, fun now => ?_⟩
  exact not_payable_of_disputed hm (by decide) rfl

end Escrow
