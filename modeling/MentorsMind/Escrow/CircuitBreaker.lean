import MentorsMind.Lib.SlidingWindow
import MentorsMind.Escrow.EmergencySafety

/-! The circuit breaker against a rolling window: what emergency actions released in the
last 24 hours stays within the cap as long as no window opens while some of it is recent. -/
namespace Escrow
open Outcome Soroban Shared

section Breaker

/-- The breaker's record as a window of the limiter. -/
def breakerWindow (circuit : EmergencyCircuitBreaker) : RateWindow.Window :=
  ⟨circuit.windowStart, circuit.releasedInWindow⟩

theorem ten_mul_maxReleasable_le {pool : ℤ} (hpool : 0 ≤ pool) :
    10 * MultisigValidation.maxReleasable pool ≤ pool := by
  unfold MultisigValidation.maxReleasable
  split_ifs with hempty
  · omega
  · have hsaturated : 0 ≤ saturateI128 (pool * emergencyReleaseCapBps) ∧
        saturateI128 (pool * emergencyReleaseCapBps) ≤ pool * 1000 := by
      unfold saturateI128 emergencyReleaseCapBps
      omega
    rw [Int.tdiv_eq_ediv_of_nonneg hsaturated.1]
    unfold emergencyBpsDenom
    omega

theorem maxReleasable_lt (pool : ℤ) : MultisigValidation.maxReleasable pool < 2 ^ 127 - 1 := by
  unfold MultisigValidation.maxReleasable
  split_ifs with hempty
  · norm_num
  · have hsaturated : 0 ≤ saturateI128 (pool * emergencyReleaseCapBps) ∧
        saturateI128 (pool * emergencyReleaseCapBps) ≤ 2 ^ 127 - 1 := by
      unfold saturateI128 emergencyReleaseCapBps
      omega
    rw [Int.tdiv_eq_ediv_of_nonneg hsaturated.1]
    unfold emergencyBpsDenom
    omega

/-- Clamping from above shows. -/
theorem le_saturateI128 {n : ℤ} (h : saturateI128 n < 2 ^ 127 - 1) : n ≤ saturateI128 n := by
  unfold saturateI128 at h ⊢
  omega

/-- A release that the breaker lets through is counted in full, and within the cap. -/
theorem checkCircuitBreaker_spec {circuit circuit' : EmergencyCircuitBreaker} {now : ℕ}
    {pool amount : ℤ} (hpool : 0 ≤ pool)
    (h : MultisigValidation.checkCircuitBreaker circuit now pool amount = some circuit') :
    ((breakerWindow circuit).charge emergencyCircuitWindowSecs now amount).used ≤
        circuit'.releasedInWindow ∧ 10 * circuit'.releasedInWindow ≤ pool := by
  have hcap := ten_mul_maxReleasable_le hpool
  have hbound := maxReleasable_lt pool
  simp only [MultisigValidation.checkCircuitBreaker] at h
  unfold breakerWindow RateWindow.Window.charge
  by_cases hexpired : emergencyCircuitWindowSecs ≤ now - circuit.windowStart
  · simp only [if_pos hexpired] at h ⊢
    split_ifs at h with hover
    obtain rfl := Option.some.inj h
    have hcounted := le_saturateI128 ((not_lt.mp hover).trans_lt hbound)
    show amount ≤ saturateI128 (0 + amount) ∧ 10 * saturateI128 (0 + amount) ≤ pool
    omega
  · simp only [if_neg hexpired] at h ⊢
    split_ifs at h with hover
    obtain rfl := Option.some.inj h
    have hcounted := le_saturateI128 ((not_lt.mp hover).trans_lt hbound)
    show circuit.releasedInWindow + amount ≤ saturateI128 (circuit.releasedInWindow + amount) ∧
      10 * saturateI128 (circuit.releasedInWindow + amount) ≤ pool
    omega

theorem activePoolTotal_nonneg {Addr : Type} {b : Book Addr} {n id : ℕ} {total pool : ℤ}
    (htotal : 0 ≤ total) (h : activePoolTotal b n id total = .ok pool) : 0 ≤ pool := by
  induction n generalizing id total with
  | zero =>
    obtain rfl := pure_eq_ok.mp h
    exact htotal
  | succ n ih =>
    unfold activePoolTotal at h
    cases he : b.escrow id with
    | none =>
      rw [he] at h
      exact ih htotal h
    | some e =>
      simp only [he] at h
      split_ifs at h with hactive
      · simp only [bind_eq_ok, safeAdd_eq_ok] at h
        obtain ⟨_, ⟨-, rfl⟩, hrest⟩ := h
        exact ih (add_nonneg htotal hactive.2.le) hrest
      · exact ih htotal h

end Breaker

section Steps

variable {Addr : Type} [DecidableEq Addr] {self : Addr} {inv : Invocation Addr self}
  {digests : Digests} {s t : State Addr} {step : Step Addr self}

omit [DecidableEq Addr] in
/-- What an emergency execution that led to `t` released. -/
def releaseOf {home : Addr} (step : Step Addr home) (t : State Addr) :
    Option RateWindow.Spending :=
  step.2.emergencyExecution.bind fun x =>
    (t.emergency.proposal x.2).bind fun action =>
      if action.executed then some ⟨step.1.timestamp, action.amount⟩ else none

/-- The pool that a release of `amount` was measured against, and the breaker after it. -/
structure Measured {home : Addr} (inv : Invocation Addr home) (s : State Addr) (amount : ℤ)
    (pool : ℤ) (circuit : EmergencyCircuitBreaker) : Prop where
  pool_eq : activePoolTotal s.custody.book s.custody.book.escrowCount 1 0 = .ok pool
  passed : MultisigValidation.checkCircuitBreaker
    (s.emergency.circuit.getD ⟨inv.timestamp, 0⟩) inv.timestamp pool amount = some circuit
  stored : ∃ id e, s.custody.book.escrow id = some e ∧ e.amount = amount

theorem executionGates_measured {registered : List Addr} {action : EmergencyAction Addr}
    {caller : Addr} {escrow : EscrowRecord Addr} {circuit : EmergencyCircuitBreaker}
    (h : executionGates inv s.custody.book s.emergency registered action caller =
      .ok (some (escrow, circuit))) : ∃ pool, Measured inv s action.amount pool circuit := by
  unfold executionGates at h
  split_ifs at h with hsigned
  · cases hrole : s.emergency.admin with
    | none => simp [hrole] at h
    | some role =>
      simp only [hrole] at h
      split_ifs at h with hadmin
      · simp only [bind_eq_ok] at h
        obtain ⟨pool, hpool, h⟩ := h
        cases hcheck : MultisigValidation.checkCircuitBreaker
            (s.emergency.circuit.getD ⟨inv.timestamp, 0⟩) inv.timestamp pool action.amount with
        | none => simp [hcheck] at h
        | some checked =>
          simp only [hcheck, bind_eq_ok] at h
          obtain ⟨e, he, h⟩ := h
          split_ifs at h with hactive
          · simp only [pure_eq_ok, Option.some.injEq, Prod.mk.injEq] at h
            obtain ⟨-, rfl⟩ := h
            exact ⟨pool, hpool, hcheck, action.escrowId, e, loadEscrow_eq_ok.mp he, hactive.2⟩
          · simp at h
      · simp at h
  · simp at h

/-- An execution releases under the breaker, or leaves the breaker alone. -/
theorem executeEmergencyAction_measured {caller : Addr} {actionId : ℕ} {x : Execution Addr}
    (h : executeEmergencyAction inv s.config s.custody s.failures s.emergency caller actionId =
      .ok x) :
    ∃ action, s.emergency.proposal actionId = some action ∧ action.executed = false ∧
      (x.emergency = s.emergency.recordFailure action inv.timestamp ∨
        ∃ pool circuit, Measured inv s action.amount pool circuit ∧
          x.emergency = s.emergency.afterRelease action actionId inv.timestamp circuit) := by
  simp only [executeEmergencyAction, bind_eq_ok, requireAuth_eq_ok, expect_eq_ok,
    require_eq_ok] at h
  obtain ⟨-, -, action, hfound, -, hexecuted, -, -, -, -, registered, -, gates, hgates, h⟩ := h
  refine ⟨action, hfound, hexecuted, ?_⟩
  cases gates with
  | none =>
    obtain rfl := pure_eq_ok.mp h
    exact .inl rfl
  | some passed =>
    obtain ⟨escrow, circuit⟩ := passed
    simp only [bind_eq_ok, pure_eq_ok] at h
    obtain ⟨_, -, rfl⟩ := h
    obtain ⟨pool, hmeasured⟩ := executionGates_measured hgates
    exact .inr ⟨pool, circuit, hmeasured, rfl⟩

theorem exec_executeEmergencyAction {caller : Addr} {actionId : ℕ}
    (hcall : step.2.emergencyExecution = some (caller, actionId))
    (h : exec digests step.1 step.2 s = .ok t) :
    ∃ x, executeEmergencyAction step.1 s.config s.custody s.failures s.emergency caller
      actionId = .ok x ∧ t = s.afterExecution x := by
  obtain ⟨inv, call⟩ := step
  cases call with
  | executeEmergencyAction caller' actionId' =>
    obtain ⟨rfl, rfl⟩ : caller' = caller ∧ actionId' = actionId := by
      simpa [Call.emergencyExecution] using hcall
    simp only [exec, bind_eq_ok, pure_eq_ok] at h
    obtain ⟨x, hx, rfl⟩ := h
    exact ⟨x, hx, rfl⟩
  | emergencyRelease caller' escrowId reasonHash actionId' =>
    obtain ⟨rfl, rfl⟩ : caller' = caller ∧ actionId' = actionId := by
      simpa [Call.emergencyExecution] using hcall
    simp only [exec, bind_eq_ok, pure_eq_ok] at h
    obtain ⟨x, hx, rfl⟩ := h
    exact ⟨x, emergencyRelease_spec hx, rfl⟩
  | _ => simp [Call.emergencyExecution] at hcall

/-- Only emergency executions move the breaker. -/
theorem exec_circuit_of_none (hcall : step.2.emergencyExecution = none)
    (h : exec digests step.1 step.2 s = .ok t) :
    t.emergency.circuit = s.emergency.circuit := by
  by_cases hwrites : step.2.writesEmergency = false
  · rw [(exec_frame h).2.2 hwrites]
  · obtain ⟨inv, call⟩ := step
    cases call with
    | setEmergencySigners admin signers =>
      simp only [exec, setEmergencySigners, bind_eq_ok, pure_eq_ok] at h
      obtain ⟨_, ⟨-, -, -, -, rfl⟩, rfl⟩ := h
      rfl
    | grantEmergencyAdmin admin emergencyAdmin =>
      simp only [exec, grantEmergencyAdmin, bind_eq_ok, pure_eq_ok] at h
      obtain ⟨_, ⟨-, -, _, -, rfl⟩, rfl⟩ := h
      rfl
    | proposeEmergencyAction proposer escrowId reasonHash =>
      simp only [exec, proposeEmergencyAction, bind_eq_ok, pure_eq_ok] at h
      obtain ⟨_, ⟨-, -, _, -, -, -, _, -, -, -, _, -, -, -, -, -, _, -, _, -, rfl⟩, rfl⟩ := h
      rfl
    | approveEmergencyAction signer actionId =>
      simp only [exec, approveEmergencyAction, bind_eq_ok, pure_eq_ok] at h
      obtain ⟨_, ⟨-, -, _, -, -, -, _, -, -, -, -, -, -, -, -, -, rfl⟩, rfl⟩ := h
      rfl
    | _ => simp [Call.writesEmergency, Call.emergencyExecution] at hwrites hcall

/-- A step releases under the breaker, or leaves the breaker alone. -/
theorem exec_releaseOf (hs : s.emergency.WellFormed)
    (h : exec digests step.1 step.2 s = .ok t) :
    (releaseOf step t = none ∧ t.emergency.circuit = s.emergency.circuit) ∨
      ∃ amount pool circuit, releaseOf step t = some ⟨step.1.timestamp, amount⟩ ∧
        Measured step.1 s amount pool circuit ∧ t.emergency.circuit = some circuit := by
  cases hcall : step.2.emergencyExecution with
  | none => exact .inl ⟨by rw [releaseOf, hcall]; rfl, exec_circuit_of_none hcall h⟩
  | some target =>
    obtain ⟨caller, actionId⟩ := target
    obtain ⟨x, hx, rfl⟩ := exec_executeEmergencyAction hcall h
    obtain ⟨action, hfound, hexecuted, hem | ⟨pool, circuit, hmeasured, hem⟩⟩ :=
      executeEmergencyAction_measured hx
    · left
      have hid := hs.id_eq actionId action hfound
      refine ⟨?_, ?_⟩
      · simp [releaseOf, hcall, State.afterExecution, hem, Emergency.recordFailure,
          Emergency.setProposal, Emergency.setAudit, hid, hexecuted]
      · simp only [State.afterExecution, hem]
        rfl
    · right
      refine ⟨action.amount, pool, circuit, ?_, hmeasured, ?_⟩
      · simp [releaseOf, hcall, State.afterExecution, hem, Emergency.afterRelease,
          Emergency.setProposal, Emergency.setAudit]
      · simp only [State.afterExecution, hem]
        rfl

end Steps

section Runs

variable {Addr : Type} [DecidableEq Addr] {self : Addr} {digests : Digests}
  {initial : Addr → Addr → ℤ} {steps : List (Step Addr self)}

/-- What the emergency executions of a run released, in their order. -/
def releases {home : Addr} (digests : Digests) (initial : Addr → Addr → ℤ)
    (steps : List (Step Addr home)) : List RateWindow.Spending :=
  (machine home digests).collect (fun _ step t => releaseOf step t) (deployed initial) steps

/-- The ledger's clock does not go back. -/
def ClockForward {home : Addr} (steps : List (Step Addr home)) : Prop :=
  steps.Pairwise fun earlier later => earlier.1.timestamp ≤ later.1.timestamp

theorem releases_time_le {pre : List (Step Addr self)} {step : Step Addr self}
    (hclock : ClockForward (pre ++ [step])) :
    ∀ x ∈ releases digests initial pre, x.time ≤ step.1.timestamp := by
  intro x hx
  obtain ⟨before, earlier, t, hexecutes, hrelease⟩ := Machine.exists_of_mem_collect hx
  have htime : x.time = earlier.1.timestamp := by
    simp only [releaseOf, Option.bind_eq_some_iff] at hrelease
    obtain ⟨target, -, action, -, hx⟩ := hrelease
    split_ifs at hx
    obtain rfl := Option.some.inj hx
    rfl
  rw [htime]
  exact (List.pairwise_append.mp hclock).2.2 earlier hexecutes.mem step (by simp)

/-- A release by this step opens a new window: the breaker's is over. -/
def OpensWindow {home : Addr} (step : Step Addr home) (s : State Addr) : Prop :=
  ∃ circuit, s.emergency.circuit = some circuit ∧
    emergencyCircuitWindowSecs ≤ step.1.timestamp - circuit.windowStart

/-- No release of the run opens a window within 24 hours of another release. -/
def WindowsQuiet {home : Addr} (digests : Digests) (initial : Addr → Addr → ℤ)
    (steps : List (Step Addr home)) : Prop :=
  ∀ pre step t, (machine home digests).Executes (deployed initial) steps pre step t →
    (releaseOf step t).isSome = true →
    OpensWindow step ((machine home digests).run (deployed initial) pre) →
    RateWindow.spent emergencyCircuitWindowSecs (releases digests initial pre)
      step.1.timestamp = 0

/-- What the breaker has counted covers what was released in the last 24 hours. -/
def BreakerCovers {home : Addr} (digests : Digests) (initial : Addr → Addr → ℤ)
    (pre : List (Step Addr home)) (s : State Addr) : Prop :=
  RateWindow.Covers emergencyCircuitWindowSecs (s.emergency.circuit.map breakerWindow)
    (releases digests initial pre)

/-- A release under the breaker is covered with everything before it, within the cap. -/
theorem BreakerCovers.release {pre : List (Step Addr self)} {step : Step Addr self}
    {amount pool : ℤ} {circuit : EmergencyCircuitBreaker}
    (hclock : ClockForward (pre ++ [step]))
    (hcovers : BreakerCovers digests initial pre
      ((machine self digests).run (deployed initial) pre))
    (hmeasured : Measured step.1 ((machine self digests).run (deployed initial) pre) amount
      pool circuit)
    (hquiet : OpensWindow step ((machine self digests).run (deployed initial) pre) →
      RateWindow.spent emergencyCircuitWindowSecs (releases digests initial pre)
        step.1.timestamp = 0) :
    RateWindow.Covers emergencyCircuitWindowSecs (some (breakerWindow circuit))
      (releases digests initial pre ++ [⟨step.1.timestamp, amount⟩]) ∧
    10 * RateWindow.spent emergencyCircuitWindowSecs
      (releases digests initial pre ++ [⟨step.1.timestamp, amount⟩]) step.1.timestamp ≤ pool := by
  have hlater : ∀ x ∈ releases digests initial pre, x.time ≤ step.1.timestamp :=
    releases_time_le hclock
  obtain ⟨id, e, he, rfl⟩ := hmeasured.stored
  have hamount := ((run_wellFormed digests initial pre).book.record id e he).amount_nonneg
  have hpool := activePoolTotal_nonneg le_rfl hmeasured.pool_eq
  obtain ⟨hcounted, hcap⟩ := checkCircuitBreaker_spec hpool hmeasured.passed
  have hcharged := RateWindow.Covers.charge hcovers hlater hamount (by
    intro v hv hover
    obtain ⟨open₀, hopen, rfl⟩ := Option.map_eq_some_iff.mp hv
    exact hquiet ⟨open₀, hopen, hover⟩)
  have hafter := hcharged.mono (v := some (breakerWindow circuit)) (by
    cases hcircuit : ((machine self digests).run (deployed initial) pre).emergency.circuit with
    | none =>
      rw [hcircuit] at hcounted
      exact hcounted
    | some open₀ =>
      rw [hcircuit] at hcounted
      exact hcounted)
  refine ⟨hafter, ?_⟩
  have hspent := hafter.spent_le step.1.timestamp (by
    intro x hx
    rcases List.mem_append.mp hx with hbefore | hnow
    · exact hlater x hbefore
    · obtain rfl := List.mem_singleton.mp hnow
      exact le_rfl)
  have hused : RateWindow.Window.usedIn (some (breakerWindow circuit)) =
    circuit.releasedInWindow := rfl
  omega

theorem run_breakerCovers (hclock : ClockForward steps)
    (hquiet : WindowsQuiet digests initial steps) : ∀ pre, pre <+: steps →
      BreakerCovers digests initial pre ((machine self digests).run (deployed initial) pre) := by
  refine Machine.run_history_of_executes (M := machine self digests)
    (P := BreakerCovers digests initial) RateWindow.covers_nil ?_ ?_
  · intro pre step t hx hcovers
    have hs := (run_actionHistory digests initial pre).1
    have hcollect := Machine.collect_snoc_ok (f := fun _ step t => releaseOf step t) hx.exec_eq
    rcases exec_releaseOf hs hx.exec_eq with ⟨hnone, hsame⟩ | ⟨amount, pool, circuit, hsome,
      hmeasured, hcircuit⟩
    · unfold BreakerCovers releases
      rw [hcollect, hnone, Option.toList_none, List.append_nil, hsame]
      exact hcovers
    · have hprefix : ClockForward (pre ++ [step]) := hclock.sublist hx.snoc_prefix.sublist
      have hafter := (hcovers.release hprefix hmeasured
        (hquiet pre step t hx (by rw [hsome]; rfl))).1
      unfold BreakerCovers releases
      rw [hcollect, hsome, Option.toList_some, hcircuit]
      exact hafter
  · intro pre step e hcovers hx
    unfold BreakerCovers releases
    rw [Machine.collect_snoc_error hx]
    exact hcovers

/-- If no window opens within 24 hours of a release, then what was released in the 24 hours
up to any release is at most a tenth of the pool that this release was measured against. -/
theorem releases_le_tenth (hclock : ClockForward steps)
    (hquiet : WindowsQuiet digests initial steps) :
    ∀ pre step t, (machine self digests).Executes (deployed initial) steps pre step t →
      (releaseOf step t).isSome = true →
      ∃ pool, activePoolTotal
          ((machine self digests).run (deployed initial) pre).custody.book
          ((machine self digests).run (deployed initial) pre).custody.book.escrowCount 1 0 =
            .ok pool ∧
        10 * RateWindow.spent emergencyCircuitWindowSecs
          (releases digests initial (pre ++ [step])) step.1.timestamp ≤ pool := by
  intro pre step t hx hrelease
  have hcovers := run_breakerCovers hclock hquiet pre
    ((List.prefix_append pre [step]).trans hx.snoc_prefix)
  have hs := (run_actionHistory digests initial pre).1
  rcases exec_releaseOf hs hx.exec_eq with ⟨hnone, -⟩ | ⟨amount, pool, circuit, hsome,
    hmeasured, -⟩
  · rw [hnone] at hrelease
    cases hrelease
  · have hprefix : ClockForward (pre ++ [step]) := hclock.sublist hx.snoc_prefix.sublist
    refine ⟨pool, hmeasured.pool_eq, ?_⟩
    have hcap := (hcovers.release hprefix hmeasured (hquiet pre step t hx hrelease)).2
    unfold releases at hcap ⊢
    rw [Machine.collect_snoc_ok hx.exec_eq, hsome, Option.toList_some]
    exact hcap

end Runs

/-- Escrows of 5, 4, 8 and 83, the first three stuck, each with an approved action. -/
def threeApproved : List (Step ℕ 0) :=
  ([(grantedByAll 0, .initializeEscrow 1 2 500 [9] 1),
    (grantedByAll 0, .setEmergencySigners 1 [11, 12, 13, 14, 15, 16, 17]),
    (grantedByAll 0, .config (.setReputationContract 1 30)),
    (grantedByAll 0, .custody (.createEscrow 4 3 5 "a" 9 0 1)),
    (grantedByAll 0, .custody (.createEscrow 4 3 4 "bb" 9 0 1)),
    (grantedByAll 0, .custody (.createEscrow 4 3 8 "ccc" 9 0 1)),
    (grantedByAll 0, .custody (.createEscrow 4 3 83 "dddd" 9 0 1))] : List (Step ℕ 0)) ++
  (List.range 10).flatMap (fun k =>
    [1, 2, 3].map fun id => (reputationDown (100000 * (k + 1)), .tryAutoRelease id)) ++
  ([(grantedByAll 2000000, .grantEmergencyAdmin 1 20)] : List (Step ℕ 0)) ++
  ([1, 2, 3].flatMap fun id =>
    [(grantedByAll 2000000, .proposeEmergencyAction 11 id 5),
      (grantedByAll 2000000, .approveEmergencyAction 12 id),
      (grantedByAll 2000000, .approveEmergencyAction 13 id),
      (grantedByAll 2000000, .approveEmergencyAction 14 id)] : List (Step ℕ 0))

/-- One release opens a window, and one is in its last second. -/
def windowReleases : List (Step ℕ 0) :=
  [(grantedByAll 2086400, .executeEmergencyAction 20 1),
    (grantedByAll 2172799, .executeEmergencyAction 20 2)]

/-- The release that opens the next window, a second later. -/
def nextRelease : Step ℕ 0 := (grantedByAll 2172800, .executeEmergencyAction 20 3)

def windowReleased : State ℕ :=
  (machine 0 lengthDigests).run (deployed learnerFunds) (threeApproved ++ windowReleases)

/-- The last two releases are a second apart, and together they are 12 of a pool of 91. -/
theorem straddlingReleases_over_tenth :
    ClockForward (threeApproved ++ windowReleases ++ [nextRelease]) ∧
    releases lengthDigests learnerFunds (threeApproved ++ windowReleases ++ [nextRelease]) =
      [⟨2086400, 5⟩, ⟨2172799, 4⟩, ⟨2172800, 8⟩] ∧
    activePoolTotal windowReleased.custody.book windowReleased.custody.book.escrowCount 1 0 =
      .ok 91 ∧
    ¬ 10 * RateWindow.spent emergencyCircuitWindowSecs
      (releases lengthDigests learnerFunds (threeApproved ++ windowReleases ++ [nextRelease]))
      nextRelease.1.timestamp ≤ 91 := by
  have hreleases : releases lengthDigests learnerFunds
      (threeApproved ++ windowReleases ++ [nextRelease]) =
        [⟨2086400, 5⟩, ⟨2172799, 4⟩, ⟨2172800, 8⟩] := by
    decide +kernel
  refine ⟨?_, hreleases, by decide +kernel, ?_⟩
  · unfold ClockForward
    decide +kernel
  · rw [hreleases]
    decide

/-- The approved release of 10 opens the first window, and is a tenth of the pool of 100. -/
theorem releases_le_tenth_approvedRelease :
    ∃ pool, activePoolTotal
        ((machine 0 lengthDigests).run (deployed learnerFunds) approvedRelease).custody.book
        ((machine 0 lengthDigests).run (deployed learnerFunds)
          approvedRelease).custody.book.escrowCount 1 0 = .ok pool ∧
      10 * RateWindow.spent emergencyCircuitWindowSecs
        (releases lengthDigests learnerFunds (approvedRelease ++ [execution]))
        execution.1.timestamp ≤ pool := by
  have hclock : ClockForward (approvedRelease ++ [execution]) := by
    unfold ClockForward
    decide +kernel
  have hbefore : ∀ step ∈ approvedRelease, ¬ step.2.emergencyExecution ≠ none := by
    decide +kernel
  have hclosed : ((machine 0 lengthDigests).run (deployed learnerFunds)
      approvedRelease).emergency.circuit = none := by
    decide +kernel
  have hquiet : WindowsQuiet lengthDigests learnerFunds (approvedRelease ++ [execution]) := by
    intro pre step t hx hrelease hopens
    have hcall : step.2.emergencyExecution ≠ none := by
      intro hnone
      simp [releaseOf, hnone] at hrelease
    obtain ⟨rfl, -⟩ := hx.eq_last hbefore hcall
    obtain ⟨circuit, hcircuit, -⟩ := hopens
    rw [hclosed] at hcircuit
    cases hcircuit
  have hopened : ((machine 0 lengthDigests).run (deployed learnerFunds)
      (approvedRelease ++ [execution])).emergency.circuit.isSome = true := by
    decide +kernel
  have hne : (machine 0 lengthDigests).run (deployed learnerFunds)
      (approvedRelease ++ [execution]) ≠
        (machine 0 lengthDigests).run (deployed learnerFunds) approvedRelease := by
    intro hsame
    rw [hsame, hclosed] at hopened
    cases hopened
  have hrelease : (releaseOf execution ((machine 0 lengthDigests).run (deployed learnerFunds)
      (approvedRelease ++ [execution]))).isSome = true := by
    decide +kernel
  exact releases_le_tenth hclock hquiet approvedRelease execution _
    (Machine.executes_of_run_ne hne) hrelease

end Escrow
