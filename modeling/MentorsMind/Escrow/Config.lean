import MentorsMind.Escrow.State

/-! Configuration of the escrow contract: the admin role and everything the admin sets. -/
namespace Escrow
open Outcome Soroban Shared

variable {Addr : Type} [DecidableEq Addr] {self : Addr}

/-- The stored admin, who must have authorised the invocation. -/
def storedAdmin (inv : Invocation Addr self) (c : Config Addr) (missing : String) :
    Result Addr := do
  let admin ← expect c.admin (.panic missing)
  requireAuth inv.toEnv admin
  pure admin

/-- The guard of the entry points that are handed the admin's address. -/
def requireCallerIsAdmin (inv : Invocation Addr self) (c : Config Addr) (admin : Addr) :
    Result Unit := do
  let stored ← expect c.admin (.panic "Not initialized")
  requireAuth inv.toEnv admin
  require (admin = stored) (.panic "Caller not authorized")

def setTokenApproved (c : Config Addr) (tokenAddress : Addr) (approved : Bool) : Config Addr :=
  { c with approvedToken := Function.update c.approvedToken tokenAddress approved }

/-- The configuration part of the entry point `initialize`. -/
def initializeConfig (c : Config Addr) (admin treasury : Addr) (feeBps : ℕ)
    (approvedTokens : List Addr) (autoReleaseDelaySecs : ℕ) : Result (Config Addr) := do
  require (c.admin = none) (.panic "Already initialized")
  require (feeBps ≤ maxFeeBps) (.panic "Fee exceeds maximum (1000 bps)")
  let delay := if autoReleaseDelaySecs = 0 then defaultAutoReleaseDelay else autoReleaseDelaySecs
  let c := { c with
    admin := some admin
    treasury := some treasury
    feeBps := some feeBps
    autoRelDelay := some delay }
  pure (approvedTokens.foldl (fun c token => setTokenApproved c token true) c)

def proposeAdminChange (inv : Invocation Addr self) (c : Config Addr) (newAdmin : Addr) :
    Result (Config Addr) := do
  let _ ← storedAdmin inv c "Not initialized"
  let coolingEnds ← u64 (c.lastAdminChange + adminCoolingOffSecs)
  require (coolingEnds ≤ inv.timestamp) (.panic "Cooling-off period active")
  let effectiveAt ← u64 (inv.timestamp + minAdminTimelockSecs)
  pure { c with pendingAdminTransfer := some ⟨newAdmin, effectiveAt, .proposed⟩ }

def acceptAdminRole (inv : Invocation Addr self) (c : Config Addr) (newAdmin : Addr) :
    Result (Config Addr) := do
  requireAuth inv.toEnv newAdmin
  let pending ← expect c.pendingAdminTransfer (.panic "No pending admin transfer")
  require (pending.newAdmin = newAdmin) (.panic "Unauthorized to accept role")
  require (pending.effectiveAt ≤ inv.timestamp) (.panic "Timelock not expired")
  require (pending.status = .proposed) (.panic "Invalid proposal state")
  pure { c with
    admin := some newAdmin
    lastAdminChange := inv.timestamp
    pendingAdminTransfer := none }

def revokeAdminEmergency (inv : Invocation Addr self) (c : Config Addr) (newAdmin : Addr) :
    Result (Config Addr) := do
  let multisig ← expect c.multisigAdmin (.panic "Multisig not configured")
  requireAuth inv.toEnv multisig
  pure { c with admin := some newAdmin, pendingAdminTransfer := none }

def updateFee (inv : Invocation Addr self) (c : Config Addr) (newFeeBps : ℕ) :
    Result (Config Addr) := do
  let _ ← storedAdmin inv c "Not initialized"
  require (newFeeBps ≤ maxFeeBps) (.panic "Fee exceeds maximum (1000 bps)")
  pure { c with feeBps := some newFeeBps }

def setLiquidityPool (inv : Invocation Addr self) (c : Config Addr) (poolAddress : Addr) :
    Result (Config Addr) := do
  let _ ← storedAdmin inv c "Not initialized"
  pure { c with liquidityPool := some poolAddress }

def setDynamicFeeEnabled (inv : Invocation Addr self) (c : Config Addr) (enabled : Bool) :
    Result (Config Addr) := do
  let _ ← storedAdmin inv c "Not initialized"
  pure { c with dynamicFeeEnabled := enabled }

def updateTreasury (inv : Invocation Addr self) (c : Config Addr) (newTreasury : Addr) :
    Result (Config Addr) := do
  let _ ← storedAdmin inv c "Not initialized"
  pure { c with treasury := some newTreasury }

def setApprovedToken (inv : Invocation Addr self) (c : Config Addr) (tokenAddress : Addr)
    (approved : Bool) : Result (Config Addr) := do
  let _ ← storedAdmin inv c "Not initialized"
  pure (setTokenApproved c tokenAddress approved)

def validateFeeSchedule (schedule : FeeSchedule) : Result Unit := do
  require (schedule.tier0Bps ≤ maxFeeBps ∧ schedule.tier1Bps ≤ maxFeeBps ∧
    schedule.tier2Bps ≤ maxFeeBps ∧ schedule.tier3Bps ≤ maxFeeBps)
    (.panic "Fee exceeds maximum (1000 bps)")
  require (schedule.volumeDiscountBps ≤ maxFeeBps)
    (.panic "Volume discount exceeds maximum (1000 bps)")
  require (0 ≤ schedule.volumeDiscountThreshold)
    (.panic "Volume discount threshold must be non-negative")

def setFeeSchedule (inv : Invocation Addr self) (c : Config Addr) (admin : Addr)
    (schedule : FeeSchedule) : Result (Config Addr) := do
  requireCallerIsAdmin inv c admin
  validateFeeSchedule schedule
  pure { c with feeSchedule := some schedule }

def updateFeeSchedule (inv : Invocation Addr self) (c : Config Addr) (admin : Addr)
    (tier0Bps tier1Bps tier2Bps tier3Bps : Option ℕ) (volumeDiscountThreshold : Option ℤ)
    (volumeDiscountBps : Option ℕ) : Result (Config Addr) := do
  requireCallerIsAdmin inv c admin
  let schedule ← expect c.feeSchedule
    (.panic "No fee schedule set; call set_fee_schedule first")
  let schedule : FeeSchedule := {
    tier0Bps := tier0Bps.getD schedule.tier0Bps
    tier1Bps := tier1Bps.getD schedule.tier1Bps
    tier2Bps := tier2Bps.getD schedule.tier2Bps
    tier3Bps := tier3Bps.getD schedule.tier3Bps
    volumeDiscountThreshold := volumeDiscountThreshold.getD schedule.volumeDiscountThreshold
    volumeDiscountBps := volumeDiscountBps.getD schedule.volumeDiscountBps }
  validateFeeSchedule schedule
  pure { c with feeSchedule := some schedule }

def setInterfaceRegistry (inv : Invocation Addr self) (c : Config Addr)
    (admin registry : Addr) : Result (Config Addr) := do
  requireCallerIsAdmin inv c admin
  pure { c with interfaceRegistry := some registry }

/-- Without a registry every candidate passes. -/
def requireAuthorizedPeer (inv : Invocation Addr self) (c : Config Addr) (candidate : Addr)
    (interfaceId : String) : Result Unit :=
  match c.interfaceRegistry with
  | none => pure ()
  | some registry => do
      let authorized ← expect (inv.verify registry candidate interfaceId) .subcall
      require (authorized = true) (.panic "cross-contract caller not authorized")

def setStakingContract (inv : Invocation Addr self) (c : Config Addr)
    (admin staking : Addr) : Result (Config Addr) := do
  requireCallerIsAdmin inv c admin
  requireAuthorizedPeer inv c staking "staking_v1"
  pure { c with stakingContract := some staking }

def setReputationContract (inv : Invocation Addr self) (c : Config Addr)
    (admin reputation : Addr) : Result (Config Addr) := do
  requireCallerIsAdmin inv c admin
  requireAuthorizedPeer inv c reputation "reputation_v1"
  pure { c with reputationContract := some reputation }

def setInsuranceContract (inv : Invocation Addr self) (c : Config Addr)
    (admin insurance : Addr) : Result (Config Addr) := do
  requireCallerIsAdmin inv c admin
  requireAuthorizedPeer inv c insurance "insurance_v1"
  pure { c with insuranceContract := some insurance }

def setMultisigAdmin (inv : Invocation Addr self) (c : Config Addr)
    (admin multisigAdmin : Addr) : Result (Config Addr) := do
  requireCallerIsAdmin inv c admin
  pure { c with multisigAdmin := some multisigAdmin }

def setGovernanceContract (inv : Invocation Addr self) (c : Config Addr)
    (admin governance : Addr) : Result (Config Addr) := do
  requireCallerIsAdmin inv c admin
  pure { c with governanceContract := some governance }

end Escrow

/-! The platform fee: a flat rate, or a schedule by mentor tier that the MNT price scales
and a large session discounts. -/
namespace Escrow
open Outcome Soroban Shared

variable {Addr : Type} {self : Addr}

def priceMultiplierBps (price : ℤ) : ℕ :=
  if price ≤ 0 then 10000
  else if price < 1000000 then 12500
  else if price < 5000000 then 11000
  else if price < 10000000 then 10000
  else 9000

def legacyFeeFromPrice (price : ℤ) : ℕ :=
  if price ≤ 0 then defaultFeeBps
  else if price < 1000000 then 500
  else if price < 5000000 then 400
  else if price < 10000000 then 300
  else 200

/-- The pool integration is a placeholder in the contract: a pool quotes 0.75. -/
def fetchMntUsdcPrice (c : Config Addr) : ℤ :=
  match c.liquidityPool with
  | some _ => 7500000
  | none => 0

/-- The price for the current ledger and the cache that remembers it. -/
def currentPrice (inv : Invocation Addr self) (c : Config Addr) (cache : PriceCache) :
    ℤ × PriceCache :=
  if cache.ledger = inv.sequence then (cache.price, cache)
  else (fetchMntUsdcPrice c, ⟨fetchMntUsdcPrice c, inv.sequence⟩)

/-- The entry point `get_dynamic_fee`, which refreshes the cache on its way. -/
def getDynamicFee (inv : Invocation Addr self) (c : Config Addr) (cache : PriceCache) :
    Result (ℕ × PriceCache) :=
  if c.dynamicFeeEnabled then
    let (price, cache) := currentPrice inv c cache
    match c.feeSchedule with
    | some schedule => do
        let scaled ← safeMulU32 schedule.tier0Bps (priceMultiplierBps price)
        let fee ← safeDivU32 scaled 10000
        pure (fee, cache)
    | none => pure (legacyFeeFromPrice price, cache)
  else pure (c.feeBps.getD defaultFeeBps, cache)

def mentorTier (inv : Invocation Addr self) (c : Config Addr) (mentor : Addr) : Result ℕ :=
  match c.stakingContract with
  | some staking => expect (inv.tier staking mentor) .subcall
  | none => pure 0

def tierBps (schedule : FeeSchedule) (tier : ℕ) : ℕ :=
  match tier with
  | 1 => schedule.tier1Bps
  | 2 => schedule.tier2Bps
  | 3 => schedule.tier3Bps
  | _ => schedule.tier0Bps

structure FeeMeta where
  tier : ℕ
  baseBps : ℕ
  effectiveBps : ℕ

structure FeeQuote where
  fee : ℤ
  rate : Option FeeMeta
  price : PriceCache

/-- The tier's rate under the price multiplier, when dynamic fees are on. -/
def scaledBaseBps (inv : Invocation Addr self) (c : Config Addr) (cache : PriceCache)
    (tierBase : ℕ) : Result (ℕ × PriceCache) :=
  if c.dynamicFeeEnabled then
    let (price, cache) := currentPrice inv c cache
    do
      let product ← safeMulU32 tierBase (priceMultiplierBps price)
      let scaled ← safeDivU32 product 10000
      pure (min scaled maxFeeBps, cache)
  else pure (tierBase, cache)

def computeFeeWithMeta (inv : Invocation Addr self) (c : Config Addr) (cache : PriceCache)
    (schedule : FeeSchedule) (mentor : Addr) (amount : ℤ) : Result FeeQuote := do
  let tier ← mentorTier inv c mentor
  let (baseBps, cache) ← scaledBaseBps inv c cache (tierBps schedule tier)
  let discounted := if schedule.volumeDiscountThreshold < amount
    then baseBps - schedule.volumeDiscountBps else baseBps
  let effectiveBps := min discounted maxFeeBps
  let product ← safeMul amount effectiveBps
  let fee ← safeDiv product 10000
  pure ⟨fee, some ⟨tier, baseBps, effectiveBps⟩, cache⟩

/-- The fee at the flat rate, whose entry must exist to have its lifetime extended. -/
def flatFee (c : Config Addr) (amount : ℤ) : Result ℤ := do
  let feeBps ← expect c.feeBps .missingEntry
  let product ← safeMul amount feeBps
  safeDiv product 10000

def computeFeeUnified (inv : Invocation Addr self) (c : Config Addr) (cache : PriceCache)
    (mentor : Addr) (amount : ℤ) : Result FeeQuote :=
  match c.feeSchedule with
  | some schedule => computeFeeWithMeta inv c cache schedule mentor amount
  | none => do
      let fee ← flatFee c amount
      pure ⟨fee, none, cache⟩

/-- Some rate of at most 10% gives the fee. -/
structure IsFee (amount fee : ℤ) : Prop where
  rate : ∃ bps : ℕ, bps ≤ maxFeeBps ∧ fee = (amount * bps).tdiv 10000

theorem IsFee.bounds {amount fee : ℤ} (h : IsFee amount fee) (hamount : 0 ≤ amount) :
    0 ≤ fee ∧ fee ≤ amount := by
  obtain ⟨bps, hbps, rfl⟩ := h.rate
  have hprod : 0 ≤ amount * (bps : ℤ) := by positivity
  have hcap : (bps : ℤ) ≤ 10000 := by
    have : bps ≤ 1000 := hbps
    omega
  have hle : amount * (bps : ℤ) ≤ amount * 10000 := mul_le_mul_of_nonneg_left hcap hamount
  rw [Int.tdiv_eq_ediv_of_nonneg hprod]
  constructor
  · exact Int.ediv_nonneg hprod (by norm_num)
  · omega

/-- The configured flat rate respects the cap. -/
def Config.FeeCapped (c : Config Addr) : Prop := ∀ bps ∈ c.feeBps, bps ≤ maxFeeBps

theorem flatFee_isFee {c : Config Addr} {amount fee : ℤ} (hc : c.FeeCapped)
    (h : flatFee c amount = .ok fee) : IsFee amount fee := by
  simp only [flatFee, bind_eq_ok, expect_eq_ok, safeMul_eq_ok, safeDiv_eq_ok] at h
  obtain ⟨bps, hbps, _, ⟨-, rfl⟩, -, rfl⟩ := h
  exact ⟨bps, hc bps hbps, rfl⟩

theorem computeFeeUnified_isFee {inv : Invocation Addr self} {c : Config Addr}
    {cache : PriceCache} {mentor : Addr} {amount : ℤ} {quote : FeeQuote} (hc : c.FeeCapped)
    (h : computeFeeUnified inv c cache mentor amount = .ok quote) :
    IsFee amount quote.fee := by
  unfold computeFeeUnified at h
  cases hs : c.feeSchedule with
  | some schedule =>
    simp only [hs, computeFeeWithMeta, bind_eq_ok, safeMul_eq_ok, safeDiv_eq_ok,
      pure_eq_ok] at h
    obtain ⟨tier, -, ⟨base, cache'⟩, -, _, ⟨-, rfl⟩, _, ⟨-, rfl⟩, rfl⟩ := h
    exact ⟨_, min_le_right _ _, rfl⟩
  | none =>
    simp only [hs, bind_eq_ok, pure_eq_ok] at h
    obtain ⟨fee, hfee, rfl⟩ := h
    exact flatFee_isFee hc hfee

section SamePrice

variable {inv : Invocation Addr self} {c : Config Addr} {cache cache' : PriceCache}

/-- Both caches lead to the same price in this ledger. -/
def SamePrice (inv : Invocation Addr self) (c : Config Addr) (cache cache' : PriceCache) : Prop :=
  (currentPrice inv c cache').1 = (currentPrice inv c cache).1

theorem SamePrice.refl (cache : PriceCache) : SamePrice inv c cache cache := rfl

theorem SamePrice.currentPrice (h : SamePrice inv c cache cache') :
    SamePrice inv c cache (currentPrice inv c cache').2 := by
  unfold SamePrice at h ⊢
  rw [← h]
  by_cases hledger : cache'.ledger = inv.sequence
  · simp [Escrow.currentPrice, hledger]
  · simp [Escrow.currentPrice, hledger]

theorem scaledBaseBps_isOk {tierBase base : ℕ} {cache₁ : PriceCache}
    (h : scaledBaseBps inv c cache tierBase = .ok (base, cache₁))
    (hprice : SamePrice inv c cache cache') :
    ∃ cache₂, scaledBaseBps inv c cache' tierBase = .ok (base, cache₂) ∧
      SamePrice inv c cache cache₂ := by
  unfold scaledBaseBps at h ⊢
  split_ifs at h ⊢ with henabled
  · simp only [bind_eq_ok, pure_eq_ok, Prod.mk.injEq] at h ⊢
    rw [SamePrice] at hprice
    obtain ⟨product, hproduct, scaled, hscaled, hbase, -⟩ := h
    refine ⟨_, ⟨product, by rw [hprice]; exact hproduct, scaled, hscaled, hbase, rfl⟩, ?_⟩
    exact SamePrice.currentPrice hprice
  · simp only [pure_eq_ok, Prod.mk.injEq] at h ⊢
    exact ⟨cache', ⟨h.1, rfl⟩, hprice⟩

/-- A rate that respects the cap applies to every admissible amount without overflow. -/
theorem rate_fits {amount : ℤ} {bps : ℕ} (hpos : 0 ≤ amount) (hmax : amount ≤ maxFinancialAmount)
    (hbps : bps ≤ maxFeeBps) :
    FitsI128 (amount * bps) ∧ FitsI128 ((amount * bps).tdiv 10000) := by
  have hprod : 0 ≤ amount * (bps : ℤ) := by positivity
  have hcap : (bps : ℤ) ≤ 1000 := by exact_mod_cast hbps
  have hle : amount * (bps : ℤ) ≤ 1000000000000000 * 1000 :=
    mul_le_mul hmax hcap (by positivity) (by norm_num)
  rw [Int.tdiv_eq_ediv_of_nonneg hprod]
  unfold FitsI128
  omega

/-- Where one amount has a fee, every admissible amount has one at the same price. -/
theorem computeFeeUnified_isOk {mentor : Addr} {amount amount' : ℤ} {quote : FeeQuote}
    (hc : c.FeeCapped) (h : computeFeeUnified inv c cache mentor amount = .ok quote)
    (hprice : SamePrice inv c cache cache') (hpos : 0 ≤ amount')
    (hmax : amount' ≤ maxFinancialAmount) :
    ∃ quote', computeFeeUnified inv c cache' mentor amount' = .ok quote' ∧
      SamePrice inv c cache quote'.price := by
  unfold computeFeeUnified at h ⊢
  cases hs : c.feeSchedule with
  | some schedule =>
    simp only [hs, computeFeeWithMeta, bind_eq_ok, safeMul_eq_ok, safeDiv_eq_ok,
      pure_eq_ok] at h ⊢
    obtain ⟨tier, htier, ⟨base, cache₁⟩, hbase, -⟩ := h
    obtain ⟨cache₂, hbase', hprice'⟩ := scaledBaseBps_isOk hbase hprice
    have hfits := rate_fits hpos hmax (min_le_right
      (if schedule.volumeDiscountThreshold < amount' then base - schedule.volumeDiscountBps
        else base) maxFeeBps)
    exact ⟨_, ⟨tier, htier, _, hbase', _, ⟨hfits.1, rfl⟩, _, ⟨⟨by norm_num, hfits.2⟩, rfl⟩, rfl⟩,
      hprice'⟩
  | none =>
    simp only [hs, flatFee, bind_eq_ok, expect_eq_ok, safeMul_eq_ok, safeDiv_eq_ok,
      pure_eq_ok] at h ⊢
    obtain ⟨_, ⟨bps, hbps, -⟩, -⟩ := h
    have hfits := rate_fits hpos hmax (hc bps hbps)
    exact ⟨_, ⟨_, ⟨bps, hbps, _, ⟨hfits.1, rfl⟩, ⟨by norm_num, hfits.2⟩, rfl⟩, rfl⟩, hprice⟩

end SamePrice

end Escrow
