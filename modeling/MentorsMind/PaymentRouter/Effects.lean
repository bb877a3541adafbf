import MentorsMind.PaymentRouter.Contract

/-! When a payment is routed, and what the calls do to what was routed. -/
namespace PaymentRouter
open Outcome Soroban

variable {Addr : Type} {self : Addr} {inv : Invocation Addr self} {s t : State Addr}
  {p : Payment Addr} {config : RouterConfig Addr} {digest : String → Hash}

/-- The oracle does not track the token, or finds its price in order. -/
def Priced (inv : Invocation Addr self) (oracle token : Addr) : Prop :=
  inv.getAssetForToken oracle token = some none ∨
    ∃ asset, inv.getAssetForToken oracle token = some (some asset) ∧
      inv.isPriceManipulated oracle asset oraclePriceDeviationBps = some false

/-- The inputs of a payment pass the checks of the router and those of the escrow contract, save
whether the session is new there. -/
structure Admissible {home : Addr} (inv : Invocation Addr home) (s : State Addr)
    (p : Payment Addr) (config : RouterConfig Addr) : Prop where
  configured : s.config = some config
  approved : s.approvedToken p.token = true
  isolated : Shared.enforceProtocolIsolation (Shared.arbitrageRiskScore
    (s.mevInteractionCount (p.learner, inv.sequence) + 1)) = true
  supported : p.sourceChain ∈ s.supportedChains
  verified : p.sourceChain ≠ chainStellar →
    inv.isVaaProcessed config.bridgeReceiver p.sourceTxHash = some true
  unrouted : s.processedTx p.sourceTxHash = false
  positive : 0 < p.amount
  signed : p.sourceChain = chainStellar → inv.auth p.learner = true
  priced : ∀ oracle, config.oracleContract = some oracle → Priced inv oracle p.token
  funded : p.sourceChain = chainStellar →
    ∃ balance, inv.balance p.token p.learner = some balance ∧ p.amount ≤ balance
  feeTaken : p.sourceChain = chainStellar → 0 < calculateFee s p.amount →
    ∃ treasury, s.treasury = some treasury ∧
      inv.accepts ⟨p.token, p.learner, treasury, calculateFee s p.amount⟩ = true
  ends : inv.timestamp + sessionLength < 2 ^ 64
  allowed : inv.escrowAllows config.escrowContract (escrowRequest inv s p) = true
  counted : (s.escrows config.escrowContract).escrowCount + 1 < 2 ^ 64

/-- The escrow contract has not seen the session that the router asks for. -/
def SessionUnused (digest : String → Hash) (s : State Addr) (escrowContract : Addr)
    (p : Payment Addr) : Prop :=
  (s.escrows escrowContract).usedSessionNonce
    (digest (generateSessionId p.sourceTxHash p.sourceChain)) = false

theorem validateOraclePrice_eq_ok {oracle token : Addr} {u : Unit} :
    validateOraclePrice inv oracle token = .ok u ↔ Priced inv oracle token := by
  simp only [validateOraclePrice, Priced, bind_eq_ok, expect_eq_ok]
  constructor
  · intro h
    obtain ⟨asset, hasset, h⟩ := h
    cases asset with
    | none => exact .inl hasset
    | some asset =>
      simp only [bind_eq_ok, expect_eq_ok, require_eq_ok] at h
      obtain ⟨_, hmanipulated, rfl⟩ := h
      exact .inr ⟨asset, hasset, hmanipulated⟩
  · intro h
    obtain hasset | ⟨asset, hasset, hmanipulated⟩ := h
    · exact ⟨none, hasset, rfl⟩
    · refine ⟨some asset, hasset, ?_⟩
      simp [hmanipulated]

theorem verifySourceTransaction_eq_ok {u : Unit} :
    verifySourceTransaction inv s p.sourceChain p.sourceTxHash = .ok u ↔
      ∃ config, s.config = some config ∧ p.sourceChain ∈ s.supportedChains ∧
        (p.sourceChain ≠ chainStellar →
          inv.isVaaProcessed config.bridgeReceiver p.sourceTxHash = some true) := by
  by_cases hstellar : p.sourceChain = chainStellar
  · simp [verifySourceTransaction, getConfig, hstellar]
  · simp [verifySourceTransaction, getConfig, hstellar]

theorem checkPayment_eq_ok : checkPayment inv s p = .ok config ↔
    s.config = some config ∧ p.sourceChain ∈ s.supportedChains ∧
      (p.sourceChain ≠ chainStellar →
        inv.isVaaProcessed config.bridgeReceiver p.sourceTxHash = some true) ∧
      s.processedTx p.sourceTxHash = false ∧ 0 < p.amount ∧
      (p.sourceChain = chainStellar → inv.auth p.learner = true) ∧
      ∀ oracle, config.oracleContract = some oracle → Priced inv oracle p.token := by
  simp only [checkPayment, bind_eq_ok, require_eq_ok, getConfig, expect_eq_ok,
    verifySourceTransaction_eq_ok]
  constructor
  · intro h
    obtain ⟨-, ⟨c, hc, hsupported, hverified⟩, -, hunrouted, -, hpositive, -, hsigned, c', hc',
      h⟩ := h
    obtain rfl := Option.some.inj (hc.symm.trans hc')
    cases horacle : c.oracleContract with
    | none =>
      rw [horacle] at h
      obtain rfl := pure_eq_ok.mp h
      refine ⟨hc, hsupported, hverified, hunrouted, hpositive, hsigned, ?_⟩
      intro oracle ho
      rw [horacle] at ho
      cases ho
    | some oracle =>
      simp only [horacle, bind_eq_ok, pure_eq_ok, validateOraclePrice_eq_ok] at h
      obtain ⟨-, hpriced, rfl⟩ := h
      refine ⟨hc, hsupported, hverified, hunrouted, hpositive, hsigned, ?_⟩
      intro oracle' ho
      obtain rfl := Option.some.inj (horacle.symm.trans ho)
      exact hpriced
  · intro h
    obtain ⟨hc, hsupported, hverified, hunrouted, hpositive, hsigned, hpriced⟩ := h
    refine ⟨(), ⟨config, hc, hsupported, hverified⟩, (), hunrouted, (), hpositive, (), hsigned,
      config, hc, ?_⟩
    cases horacle : config.oracleContract with
    | none => rfl
    | some oracle =>
      have hvalid : validateOraclePrice inv oracle p.token = .ok () :=
        validateOraclePrice_eq_ok.mpr (hpriced oracle horacle)
      simp [hvalid]

theorem transferFee_isOk_iff : (∃ fees, transferFee inv s p = .ok fees) ↔
    (0 < calculateFee s p.amount → ∃ treasury, s.treasury = some treasury ∧
      inv.accepts ⟨p.token, p.learner, treasury, calculateFee s p.amount⟩ = true) := by
  by_cases hfee : 0 < calculateFee s p.amount
  · simp [transferFee, hfee]
  · simp [transferFee, hfee]

/-- A direct payment goes through if the learner holds the amount and the fee can be taken. -/
theorem collectFee_isOk_iff : (∃ fees, collectFee inv s p = .ok fees) ↔
    (p.sourceChain = chainStellar →
      ∃ balance, inv.balance p.token p.learner = some balance ∧ p.amount ≤ balance) ∧
    (p.sourceChain = chainStellar → 0 < calculateFee s p.amount →
      ∃ treasury, s.treasury = some treasury ∧
        inv.accepts ⟨p.token, p.learner, treasury, calculateFee s p.amount⟩ = true) := by
  by_cases hstellar : p.sourceChain = chainStellar
  · simp only [collectFee, hstellar, if_true, forall_const, bind_eq_ok, expect_eq_ok,
      require_eq_ok, ← transferFee_isOk_iff]
    constructor
    · intro h
      obtain ⟨fees, balance, hbalance, -, hle, hfees⟩ := h
      exact ⟨⟨balance, hbalance, hle⟩, fees, hfees⟩
    · intro h
      obtain ⟨⟨balance, hbalance, hle⟩, fees, hfees⟩ := h
      exact ⟨fees, balance, hbalance, (), hle, hfees⟩
  · simp [collectFee, hstellar]

theorem EscrowBook.create_eq_ok {book : EscrowBook} {allowed : Bool} {sessionId : String}
    {x : EscrowBook × ℕ} : book.create digest allowed sessionId = .ok x ↔
      allowed = true ∧ book.usedSessionNonce (digest sessionId) = false ∧
        book.escrowCount + 1 < 2 ^ 64 ∧
        x = (⟨Function.update book.usedSessionNonce (digest sessionId) true,
          book.escrowCount + 1⟩, book.escrowCount + 1) := by
  simp only [create, bind_eq_ok, require_eq_ok, u64_eq_ok, pure_eq_ok]
  constructor
  · intro h
    obtain ⟨-, hallowed, -, hunused, _, ⟨hcount, rfl⟩, rfl⟩ := h
    exact ⟨hallowed, hunused, hcount, rfl⟩
  · intro h
    obtain ⟨hallowed, hunused, hcount, rfl⟩ := h
    exact ⟨(), hallowed, (), hunused, _, ⟨hcount, rfl⟩, rfl⟩

/-- A caller who is not taken for an arbitrageur came fewer than five times. -/
theorem lt_of_isolated {n : ℕ}
    (h : Shared.enforceProtocolIsolation (Shared.arbitrageRiskScore n) = true) : n < 5 := by
  by_contra hn
  simp [Shared.enforceProtocolIsolation, Shared.arbitrageRiskScore,
    Shared.mevArbitrageRiskThreshold, show 3 ≤ n by omega, show 5 ≤ n by omega] at h

/-- What a routed payment changes, where `config` is the one it was routed with. -/
structure Routes (digest : String → Hash) (s t : State Addr) (p : Payment Addr)
    (config : RouterConfig Addr) : Prop where
  config_eq : t.config = s.config
  processedTx : t.processedTx = Function.update s.processedTx p.sourceTxHash true
  counter : t.escrowIdCounter = s.escrowIdCounter + 1
  escrow : t.escrows config.escrowContract =
    ⟨Function.update (s.escrows config.escrowContract).usedSessionNonce
        (digest (generateSessionId p.sourceTxHash p.sourceChain)) true,
      (s.escrows config.escrowContract).escrowCount + 1⟩
  routed : t.routed = ⟨p.sourceTxHash, config.escrowContract,
    generateSessionId p.sourceTxHash p.sourceChain,
    (s.escrows config.escrowContract).escrowCount + 1⟩ :: s.routed

/-- What a successful call does. -/
inductive Effect {home : Addr} (digest : String → Hash) (inv : Invocation Addr home)
    (s t : State Addr) : Call Addr → Prop where
  | kept {call : Call Addr} (config : t.config = none → s.config = none)
      (counter : t.escrowIdCounter = s.escrowIdCounter ∨
        s.config = none ∧ t.escrowIdCounter = 0)
      (processedTx : t.processedTx = s.processedTx) (routed : t.routed = s.routed) :
      Effect digest inv s t call
  | paid {p : Payment Addr} (config : RouterConfig Addr) (admissible : Admissible inv s p config)
      (unused : SessionUnused digest s config.escrowContract p)
      (routes : Routes digest s t p config) : Effect digest inv s t (.routePayment p)

theorem requireAdmin_eq_ok :
    requireAdmin inv s = .ok config ↔ s.config = some config ∧ inv.auth config.admin = true := by
  simp only [requireAdmin, getConfig, bind_eq_ok, expect_eq_ok, requireAuth_eq_ok, pure_eq_ok]
  constructor
  · intro h
    obtain ⟨c, hc, -, hauth, rfl⟩ := h
    exact ⟨hc, hauth⟩
  · intro h
    exact ⟨config, h.1, (), h.2, rfl⟩

theorem requireTimelock_eq_ok : requireTimelock inv s = .ok config ↔
    s.config = some config ∧ ∃ timelock, s.timelock = some timelock ∧ inv.auth timelock = true := by
  simp only [requireTimelock, getConfig, bind_eq_ok, expect_eq_ok, requireAuth_eq_ok]
  constructor
  · intro h
    obtain ⟨timelock, htimelock, -, hauth, hc⟩ := h
    exact ⟨hc, timelock, htimelock, hauth⟩
  · intro h
    obtain ⟨hc, timelock, htimelock, hauth⟩ := h
    exact ⟨timelock, htimelock, (), hauth, hc⟩

variable [DecidableEq Addr]

theorem routePayment_eq_ok (h : routePayment digest inv s p = .ok t) :
    ∃ config, Admissible inv s p config ∧ SessionUnused digest s config.escrowContract p ∧
      Routes digest s t p config := by
  simp only [routePayment, bind_eq_ok, require_eq_ok, u32_eq_ok, checkedU64_eq_ok,
    checkPayment_eq_ok, createEscrow, u64_eq_ok, EscrowBook.create_eq_ok, pure_eq_ok] at h
  obtain ⟨-, happroved, _, ⟨-, rfl⟩, -, hisolated, config, hchecked, fees, hfees, created,
    ⟨_, ⟨hends, -⟩, hallowed, hunused, hcounted, rfl⟩, _, ⟨-, rfl⟩, rfl⟩ := h
  obtain ⟨hc, hsupported, hverified, hunrouted, hpositive, hsigned, hpriced⟩ := hchecked
  obtain ⟨hfunded, hfeeTaken⟩ := collectFee_isOk_iff.mp ⟨fees, hfees⟩
  refine ⟨config, ?_, hunused, ?_⟩
  · constructor
    · exact hc
    · exact happroved
    · exact hisolated
    · exact hsupported
    · exact hverified
    · exact hunrouted
    · exact hpositive
    · exact hsigned
    · exact hpriced
    · exact hfunded
    · exact hfeeTaken
    · exact hends
    · exact hallowed
    · exact hcounted
  · constructor
    · rfl
    · rfl
    · rfl
    · exact Function.update_self ..
    · rfl

theorem routePayment_isOk (h : Admissible inv s p config)
    (hunused : SessionUnused digest s config.escrowContract p)
    (hcounter : s.escrowIdCounter + 1 < 2 ^ 64) : ∃ t, routePayment digest inv s p = .ok t := by
  have hinteractions : s.mevInteractionCount (p.learner, inv.sequence) + 1 < 5 :=
    lt_of_isolated h.isolated
  obtain ⟨fees, hfees⟩ := collectFee_isOk_iff.mpr ⟨h.funded, h.feeTaken⟩
  simp only [routePayment, bind_eq_ok, require_eq_ok, u32_eq_ok, checkedU64_eq_ok,
    checkPayment_eq_ok, createEscrow, u64_eq_ok, EscrowBook.create_eq_ok, pure_eq_ok]
  exact ⟨_, (), h.approved, _, ⟨by omega, rfl⟩, (), h.isolated, config,
    ⟨h.configured, h.supported, h.verified, h.unrouted, h.positive, h.signed, h.priced⟩, fees,
    hfees, _, ⟨_, ⟨h.ends, rfl⟩, h.allowed, hunused, h.counted, rfl⟩, _, ⟨hcounter, rfl⟩, rfl⟩

theorem exec_effect {call : Call Addr} (h : exec digest inv call s = .ok t) :
    Effect digest inv s t call := by
  cases call with
  | init admin escrowContract bridgeReceiver =>
    simp only [exec, init, bind_eq_ok, require_eq_ok, pure_eq_ok] at h
    obtain ⟨-, hnone, rfl⟩ := h
    exact .kept (by simp) (.inr ⟨Option.isNone_iff_eq_none.mp hnone, rfl⟩) rfl rfl
  | setApprovedToken token approved =>
    simp only [exec, setApprovedToken, bind_eq_ok, requireAdmin_eq_ok, pure_eq_ok] at h
    obtain ⟨config, -, rfl⟩ := h
    exact .kept id (.inl rfl) rfl rfl
  | routePayment p =>
    obtain ⟨config, hadmissible, hunused, hroutes⟩ := routePayment_eq_ok h
    exact .paid config hadmissible hunused hroutes
  | setFeeBps feeBps =>
    simp only [exec, setFeeBps, bind_eq_ok, requireAdmin_eq_ok, require_eq_ok, pure_eq_ok] at h
    obtain ⟨config, -, -, -, rfl⟩ := h
    exact .kept id (.inl rfl) rfl rfl
  | setTreasury treasury =>
    simp only [exec, setTreasury, bind_eq_ok, requireAdmin_eq_ok, pure_eq_ok] at h
    obtain ⟨config, -, rfl⟩ := h
    exact .kept id (.inl rfl) rfl rfl
  | addSupportedChain chainId =>
    simp only [exec, addSupportedChain, bind_eq_ok, requireAdmin_eq_ok, require_eq_ok,
      pure_eq_ok] at h
    obtain ⟨config, -, -, -, rfl⟩ := h
    exact .kept id (.inl rfl) rfl rfl
  | removeSupportedChain chainId =>
    simp only [exec, removeSupportedChain, bind_eq_ok, requireAdmin_eq_ok, require_eq_ok,
      pure_eq_ok] at h
    obtain ⟨config, -, -, -, rfl⟩ := h
    exact .kept id (.inl rfl) rfl rfl
  | setTimelock timelock =>
    simp only [exec, setTimelock, bind_eq_ok, requireAdmin_eq_ok, pure_eq_ok] at h
    obtain ⟨config, -, rfl⟩ := h
    exact .kept id (.inl rfl) rfl rfl
  | setMultisig multisig =>
    simp only [exec, setMultisig, bind_eq_ok, requireAdmin_eq_ok, pure_eq_ok] at h
    obtain ⟨config, -, rfl⟩ := h
    exact .kept id (.inl rfl) rfl rfl
  | scheduleEscrowContract newEscrow =>
    simp only [exec, scheduleEscrowContract, schedule, bind_eq_ok, expect_eq_ok,
      requireAuth_eq_ok, require_eq_ok, pure_eq_ok] at h
    obtain ⟨multisig, -, -, -, timelock, -, -, -, rfl⟩ := h
    exact .kept id (.inl rfl) rfl rfl
  | scheduleBridgeReceiver newBridge =>
    simp only [exec, scheduleBridgeReceiver, schedule, bind_eq_ok, expect_eq_ok,
      requireAuth_eq_ok, require_eq_ok, pure_eq_ok] at h
    obtain ⟨multisig, -, -, -, timelock, -, -, -, rfl⟩ := h
    exact .kept id (.inl rfl) rfl rfl
  | setEscrowContract escrowContract =>
    simp only [exec, setEscrowContract, bind_eq_ok, requireTimelock_eq_ok, pure_eq_ok] at h
    obtain ⟨config, -, rfl⟩ := h
    exact .kept (by simp) (.inl rfl) rfl rfl
  | setBridgeReceiver bridgeReceiver =>
    simp only [exec, setBridgeReceiver, bind_eq_ok, requireTimelock_eq_ok, pure_eq_ok] at h
    obtain ⟨config, -, rfl⟩ := h
    exact .kept (by simp) (.inl rfl) rfl rfl
  | setOracle oracleContract =>
    simp only [exec, setOracle, bind_eq_ok, requireAdmin_eq_ok, pure_eq_ok] at h
    obtain ⟨config, -, rfl⟩ := h
    exact .kept (by simp) (.inl rfl) rfl rfl
  | clearOracle =>
    simp only [exec, clearOracle, bind_eq_ok, requireAdmin_eq_ok, pure_eq_ok] at h
    obtain ⟨config, -, rfl⟩ := h
    exact .kept (by simp) (.inl rfl) rfl rfl
  | openElsewhere escrowContract request =>
    simp only [exec, openElsewhere, bind_eq_ok, pure_eq_ok] at h
    obtain ⟨created, -, rfl⟩ := h
    exact .kept id (.inl rfl) rfl rfl

end PaymentRouter
