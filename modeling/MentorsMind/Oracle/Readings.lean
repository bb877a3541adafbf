import MentorsMind.Oracle.Contract

/-! The window of readings, and what `get_price` makes of it. -/
namespace Oracle
open Outcome Soroban Shared

variable {Addr Asset : Type} [DecidableEq Addr] [DecidableEq Asset] {self : Addr}

section Window

variable {inv : Invocation Addr self} {s t : State Addr Asset}

omit [DecidableEq Asset] in
theorem registerValidator_prices (s : State Addr Asset) (validator : Addr) :
    (registerValidator s validator).prices = s.prices := by
  unfold registerValidator
  split_ifs
  · rfl
  · rfl

/-- A call submits one reading or leaves the windows alone. -/
theorem exec_prices {call : Call Addr Asset} (h : exec inv call s = .ok t) :
    ((∀ feeder asset price timestamp, call ≠ .submitPrice feeder asset price timestamp) ∧
      t.prices = s.prices) ∨
    ∃ feeder asset price timestamp, call = .submitPrice feeder asset price timestamp ∧
      0 < price ∧ t.prices = Function.update s.prices asset ((s.prices asset ++
        [(⟨price, timestamp, feeder, inv.sequence⟩ : PricePoint Addr)]).rtake maxPoints) := by
  cases call with
  | initializeOracle admin =>
    simp only [exec, initializeOracle, bind_eq_ok, pure_eq_ok] at h
    obtain ⟨-, -, rfl⟩ := h
    exact .inl ⟨by simp, rfl⟩
  | setRbacContract admin rbac =>
    simp only [exec, setRbacContract, bind_eq_ok, pure_eq_ok] at h
    obtain ⟨-, -, rfl⟩ := h
    exact .inl ⟨by simp, rfl⟩
  | setCircuitBreakerThreshold admin thresholdBps =>
    simp only [exec, setCircuitBreakerThreshold, bind_eq_ok, pure_eq_ok] at h
    obtain ⟨-, -, -, -, rfl⟩ := h
    exact .inl ⟨by simp, rfl⟩
  | addFeeder admin feeder =>
    simp only [exec, addFeeder, bind_eq_ok, pure_eq_ok] at h
    obtain ⟨-, -, rfl⟩ := h
    exact .inl ⟨by simp, registerValidator_prices _ feeder⟩
  | removeFeeder admin feeder =>
    simp only [exec, removeFeeder, bind_eq_ok, pure_eq_ok] at h
    obtain ⟨-, -, rfl⟩ := h
    exact .inl ⟨by simp, rfl⟩
  | slashFeeder admin feeder violation =>
    simp only [exec, slashFeeder, applySlash, bind_eq_ok, pure_eq_ok] at h
    obtain ⟨-, -, violationType, -, slashed, ⟨record, -, rfl⟩, rfl⟩ := h
    refine .inl ⟨by simp, ?_⟩
    split_ifs
    · rfl
    · rfl
  | detectOracleConsensusAttack admin attacker =>
    simp only [exec, detectOracleConsensusAttack, applySlash, bind_eq_ok, pure_eq_ok] at h
    obtain ⟨-, -, record, -, rfl⟩ := h
    exact .inl ⟨by simp, rfl⟩
  | isolateOracleChain admin =>
    simp only [exec, isolateOracleChain, bind_eq_ok, pure_eq_ok] at h
    obtain ⟨-, -, rfl⟩ := h
    exact .inl ⟨by simp, rfl⟩
  | liftOracleIsolation admin =>
    simp only [exec, liftOracleIsolation, bind_eq_ok] at h
    obtain ⟨-, -, h⟩ := h
    refine .inl ⟨by simp, ?_⟩
    split at h
    · split_ifs at h
      · rw [← pure_eq_ok.mp h]
      · rw [← pure_eq_ok.mp h]
    · rw [← pure_eq_ok.mp h]
  | submitPrice feeder asset price timestamp =>
    simp only [exec, submitPrice, bind_eq_ok, require_eq_ok, pure_eq_ok] at h
    obtain ⟨-, -, -, -, -, hpos, -, -, -, -, -, -, -, -, rfl⟩ := h
    refine .inr ⟨feeder, asset, price, timestamp, rfl, hpos, ?_⟩
    exact registerValidator_prices _ feeder

/-- Every reading of a window has a positive price. -/
theorem reached_price_pos (steps : List (Step Addr Asset self)) :
    ∀ asset, ∀ p ∈ (reached steps).prices asset, 0 < p.price := by
  apply Machine.run_invariant (M := machine Asset self)
    (P := fun u => ∀ asset, ∀ p ∈ u.prices asset, 0 < p.price)
  · intro asset p hp
    cases hp
  · intro step s t hs hx asset p hp
    have h : exec step.1 step.2 s = .ok t := hx
    rcases exec_prices h with ⟨-, hkept⟩ | ⟨feeder, submitted, price, timestamp, -, hpos, hprices⟩
    · rw [hkept] at hp
      exact hs asset p hp
    · rw [hprices] at hp
      by_cases hasset : asset = submitted
      · subst hasset
        rw [Function.update_self] at hp
        rcases List.mem_append.mp (List.mem_of_mem_drop hp) with hold | hnew
        · exact hs asset p hold
        · obtain rfl := List.mem_singleton.mp hnew
          exact hpos
      · rw [Function.update_of_ne hasset] at hp
        exact hs asset p hp

end Window

section Price

variable {now ledger : ℕ} {points : List (PricePoint Addr)}

omit [DecidableEq Addr] in
theorem mem_timely {p : PricePoint Addr} :
    p ∈ timely now points ↔ p ∈ points ∧ now - p.timestamp ≤ maxStalenessSecs := by
  simp [timely]

omit [DecidableEq Addr] in
theorem mem_fresh {p : PricePoint Addr} : p ∈ fresh now ledger points ↔
    p ∈ timely now points ∧ oracleReorgSafeDepth ≤ ledger - p.submittedAtLedger := by
  simp [fresh]

omit [DecidableEq Addr] in
theorem median_eq_ok {values : List ℤ} {m : ℤ} :
    median values = .ok m ↔ values.upperMedian = some m := by
  simp [median]

/-- The price is the upper median of the readings that outlier rejection leaves. -/
theorem getPrice_eq_ok {price : ℤ} {lastUpdated : ℕ} :
    getPrice now ledger points = .ok (price, lastUpdated) ↔
      minFeeders ≤ countDistinctFeeders (fresh now ledger points) ∧
      lastUpdated = lastTimestamp (fresh now ledger points) ∧
      ∃ med, (prices (fresh now ledger points)).upperMedian = some med ∧
        (prices (inliers med (fresh now ledger points))).upperMedian = some price := by
  simp only [getPrice, bind_eq_ok, require_eq_ok, median_eq_ok, pure_eq_ok, Prod.mk.injEq]
  constructor
  · intro h
    obtain ⟨-, -, -, hfeeders, med, hmed, -, -, p, hp, rfl, rfl⟩ := h
    exact ⟨hfeeders, rfl, med, hmed, hp⟩
  · intro h
    obtain ⟨hfeeders, rfl, med, hmed, hp⟩ := h
    have hsome : ∀ {readings : List (PricePoint Addr)} {m : ℤ},
        (prices readings).upperMedian = some m → readings ≠ [] := by
      intro readings m hm hnil
      rw [hnil] at hm
      cases hm
    exact ⟨(), hsome hmed, (), hfeeders, med, hmed, (), hsome hp, price, hp, rfl, rfl⟩

end Price

/-- An invocation at time 1000 in ledger 1 that every account signed; the contract is address 0. -/
def atLedgerOne : Invocation ℕ 0 where
  toEnv := { signedByAll 1000 with sequence := 1 }
  hasRole _ _ _ := none
  mevInteractions _ := 0

end Oracle
