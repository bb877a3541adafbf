import MentorsMind.Escrow.Lifecycle

/-! Emergency release: proposal, approvals, and execution behind the 4-of-7 multisig, the
timelock, the emergency admin and the circuit breaker. -/
namespace Escrow
open Outcome Soroban Shared

variable {Addr : Type} [DecidableEq Addr] {self : Addr}

namespace Emergency

def setProposal (em : Emergency Addr) (id : ℕ) (action : EmergencyAction Addr) :
    Emergency Addr :=
  { em with proposal := Function.update em.proposal id (some action) }

def setApproval (em : Emergency Addr) (id : ℕ) (signer : Addr) : Emergency Addr :=
  { em with approval :=
      Function.update em.approval id (Function.update (em.approval id) signer true) }

/-- The audit record of an attempt at `action`. -/
def setAudit (em : Emergency Addr) (action : EmergencyAction Addr) (now : ℕ)
    (success : Bool) : Emergency Addr :=
  { em with audit := Function.update em.audit action.id (some {
      actionId := action.id
      actionType := action.actionType
      escrowId := action.escrowId
      amount := action.amount
      proposer := action.proposer
      participantSigners := action.signers
      reasonHash := action.reasonHash
      paramsHash := action.paramsHash
      timestamp := now
      success := success }) }

/-- `_record_emergency_failure`: the action and its parameters fail for good. -/
def recordFailure (em : Emergency Addr) (action : EmergencyAction Addr) (now : ℕ) :
    Emergency Addr :=
  let em := em.setProposal action.id { action with failed := true }
  let em := { em with failedParams := Function.update em.failedParams action.paramsHash true }
  em.setAudit action now false

end Emergency

def setEmergencySigners (inv : Invocation Addr self) (c : Config Addr) (em : Emergency Addr)
    (admin : Addr) (signers : List Addr) : Result (Emergency Addr) := do
  requireCallerIsAdmin inv c admin
  require (MultisigValidation.isValidEmergencyConfig signers emergencyMsigThreshold = true)
    (.panic "Must provide exactly 7 distinct emergency signers with threshold 4")
  pure { em with
    signers := some signers, multisigConfig := some ⟨signers, emergencyMsigThreshold⟩ }

def grantEmergencyAdmin (inv : Invocation Addr self) (c : Config Addr) (em : Emergency Addr)
    (admin emergencyAdmin : Addr) : Result (Emergency Addr) := do
  requireCallerIsAdmin inv c admin
  let expiresAt ← MultisigValidation.computeAdminExpiry inv.timestamp
    (.panic "emergency admin expiry overflow")
  pure { em with
    admin := some ⟨emergencyAdmin, inv.timestamp, expiresAt, "emergency_release"⟩ }

def proposeEmergencyAction (inv : Invocation Addr self) (digests : Digests) (b : Book Addr)
    (f : Failures) (em : Emergency Addr) (proposer : Addr) (escrowId : ℕ)
    (reasonHash : Hash) : Result (Emergency Addr × ℕ) := do
  requireAuth inv.toEnv proposer
  let signers ← expect em.signers (.panic "Emergency signers not configured")
  require (MultisigValidation.isEmergencySigner signers proposer = true)
    (.panic "Proposer is not an emergency signer")
  let failure ← expect (f.record escrowId)
    (.panic s!"No failure record found; emergency release requires {maxAutoReleaseAttempts} failed auto-release attempts")
  require (maxAutoReleaseAttempts ≤ failure.attemptNumber)
    (.panic s!"Emergency release requires {maxAutoReleaseAttempts} failed attempts; have {failure.attemptNumber}")
  let escrow ← expect (b.escrow escrowId) (.panic "Escrow not found")
  require (escrow.status = .active) (.panic "Escrow not active")
  let actionType := "emergency_release"
  let paramsHash := digests.params actionType escrowId escrow.amount reasonHash
  require (em.failedParams paramsHash = false)
    (.panic "Emergency attempt with these parameters permanently failed; cannot retry")
  let executeAfter ← MultisigValidation.computeExecuteAfter inv.timestamp
    (.panic "execute_after overflow")
  let newId ← safeAddU32 em.proposalCount 1
  let action : EmergencyAction Addr := {
    id := newId
    actionType := actionType
    escrowId := escrowId
    amount := escrow.amount
    proposer := proposer
    reasonHash := reasonHash
    paramsHash := paramsHash
    proposedAt := inv.timestamp
    executeAfter := executeAfter
    approvalCount := 1
    signers := MultisigValidation.aggregateSignatures [] proposer
    executed := false
    failed := false }
  let em := { em with proposalCount := newId }
  pure ((em.setProposal newId action).setApproval newId proposer, newId)

def approveEmergencyAction (inv : Invocation Addr self) (em : Emergency Addr) (signer : Addr)
    (actionId : ℕ) : Result (Emergency Addr) := do
  requireAuth inv.toEnv signer
  let registered ← expect em.signers (.panic "Emergency signers not configured")
  require (MultisigValidation.isEmergencySigner registered signer = true)
    (.panic "Signer is not an emergency signer")
  let action ← expect (em.proposal actionId) (.panic "Emergency proposal not found")
  require (action.executed = false) (.panic "Emergency action already executed")
  require (action.failed = false) (.panic "Emergency action permanently failed")
  require (em.approval actionId signer = false) (.panic "Already approved")
  require (action.approvalCount < emergencyMsigThreshold)
    (.panic "Emergency action already has exact 4-of-7 approvals")
  let signers := MultisigValidation.aggregateSignatures action.signers signer
  let approved := { action with signers := signers, approvalCount := signers.length }
  pure ((em.setApproval actionId signer).setProposal actionId approved)

omit [DecidableEq Addr] in
/-- `_active_pool_total`: the amounts of the active escrows with ids from `id` on. -/
def activePoolTotal (b : Book Addr) : ℕ → ℕ → ℤ → Result ℤ
  | 0, _, total => pure total
  | n + 1, id, total =>
      match b.escrow id with
      | some escrow =>
          if escrow.status = .active ∧ 0 < escrow.amount then do
            let total ← safeAdd total escrow.amount
            activePoolTotal b n (id + 1) total
          else activePoolTotal b n (id + 1) total
      | none => activePoolTotal b n (id + 1) total

/-- The gates of an execution, in the order they are tried. A closed gate answers `none`. -/
def executionGates (inv : Invocation Addr self) (b : Book Addr) (em : Emergency Addr)
    (registered : List Addr) (action : EmergencyAction Addr) (caller : Addr) :
    Result (Option (EscrowRecord Addr × EmergencyCircuitBreaker)) :=
  if MultisigValidation.validateEmergencySignatures registered action.signers = true ∧
      MultisigValidation.timelockElapsed inv.timestamp action.executeAfter = true then
    match em.admin with
    | none => pure none
    | some role =>
        if role.admin = caller ∧
            MultisigValidation.isEmergencyAdminActive role inv.timestamp = true ∧
            role.scope = "emergency_release" then do
          let poolTotal ← activePoolTotal b b.escrowCount 1 0
          match MultisigValidation.checkCircuitBreaker
              (em.circuit.getD ⟨inv.timestamp, 0⟩) inv.timestamp poolTotal action.amount with
          | none => pure none
          | some circuit => do
              let escrow ← loadEscrow b action.escrowId
              if escrow.status = .active ∧ escrow.amount = action.amount then
                pure (some (escrow, circuit))
              else pure none
        else pure none
  else pure none

/-- What `execute_emergency_action` leaves, and whether it released the escrow. -/
structure Execution (Addr : Type) where
  custody : Custody Addr
  failures : Failures
  emergency : Emergency Addr
  released : Bool

def executeEmergencyAction (inv : Invocation Addr self) (c : Config Addr) (s : Custody Addr)
    (f : Failures) (em : Emergency Addr) (caller : Addr) (actionId : ℕ) :
    Result (Execution Addr) := do
  requireAuth inv.toEnv caller
  let action ← expect (em.proposal actionId) (.panic "Emergency proposal not found")
  require (action.executed = false) (.panic "Emergency action already executed")
  require (action.failed = false) (.panic "Emergency action permanently failed")
  require (em.failedParams action.paramsHash = false)
    (.panic "Emergency attempt with these parameters permanently failed; cannot retry")
  let registered ← expect em.signers (.panic "Emergency signers not configured")
  let gates ← executionGates inv s.book em registered action caller
  match gates with
  | none => pure ⟨s, f, em.recordFailure action inv.timestamp, false⟩
  | some (escrow, circuit) => do
      let s ← doReleaseSimple inv c s escrow action.escrowId caller
      let executed := { action with executed := true }
      let em := { em.setProposal actionId executed with circuit := some circuit }
      let f := (f.clearRecord action.escrowId).removeFromStuckWatchlist action.escrowId
      pure ⟨s, f, em.setAudit { executed with id := actionId } inv.timestamp true, true⟩

def emergencyRelease (inv : Invocation Addr self) (c : Config Addr) (s : Custody Addr)
    (f : Failures) (em : Emergency Addr) (caller : Addr) (escrowId : ℕ) (reasonHash : Hash)
    (emergencyActionId : ℕ) : Result (Execution Addr) := do
  let action ← expect (em.proposal emergencyActionId) (.panic "Emergency proposal not found")
  require (action.escrowId = escrowId) (.panic "Emergency action escrow_id mismatch")
  require (action.reasonHash = reasonHash) (.panic "Emergency action reason_hash mismatch")
  executeEmergencyAction inv c s f em caller emergencyActionId

section Specifications

variable {inv : Invocation Addr self} {c : Config Addr} {s : Custody Addr} {f : Failures}
  {em : Emergency Addr} {caller : Addr} {actionId : ℕ}

/-- What an execution has checked by the time it releases the escrow. -/
structure GatesPassed {home : Addr} (inv : Invocation Addr home) (b : Book Addr) (em : Emergency Addr)
    (registered : List Addr) (action : EmergencyAction Addr) (caller : Addr)
    (escrow : EscrowRecord Addr) : Prop where
  signatures : MultisigValidation.validateEmergencySignatures registered action.signers = true
  timelock : action.executeAfter ≤ inv.timestamp
  emergencyAdmin : ∃ role, em.admin = some role ∧ role.admin = caller ∧
    inv.timestamp < role.expiresAt
  found : b.escrow action.escrowId = some escrow
  active : escrow.status = .active
  amount_eq : escrow.amount = action.amount

theorem executionGates_eq_some {b : Book Addr} {registered : List Addr}
    {action : EmergencyAction Addr} {escrow : EscrowRecord Addr}
    {circuit : EmergencyCircuitBreaker}
    (h : executionGates inv b em registered action caller = .ok (some (escrow, circuit))) :
    GatesPassed inv b em registered action caller escrow := by
  unfold executionGates at h
  split_ifs at h with hsigned
  · cases hrole : em.admin with
    | none => simp [hrole] at h
    | some role =>
      simp only [hrole] at h
      split_ifs at h with hadmin
      · simp only [bind_eq_ok] at h
        obtain ⟨pool, -, h⟩ := h
        split at h
        · simp at h
        · simp only [bind_eq_ok, loadEscrow, expect_eq_ok] at h
          obtain ⟨e, he, h⟩ := h
          split_ifs at h with hactive
          · simp only [pure_eq_ok, Option.some.injEq, Prod.mk.injEq] at h
            obtain ⟨rfl, -⟩ := h
            exact {
              signatures := hsigned.1
              timelock := by simpa [MultisigValidation.timelockElapsed] using hsigned.2
              emergencyAdmin := ⟨role, hrole, hadmin.1, by
                simpa [MultisigValidation.isEmergencyAdminActive] using hadmin.2.1⟩
              found := he
              active := hactive.1
              amount_eq := hactive.2 }
          · simp at h
      · simp at h
  · simp at h

/-- The storage after a release that passed the gates. -/
def Emergency.afterRelease (em : Emergency Addr) (action : EmergencyAction Addr)
    (actionId now : ℕ) (circuit : EmergencyCircuitBreaker) : Emergency Addr :=
  let executed := { action with executed := true }
  { em.setProposal actionId executed with circuit := some circuit }.setAudit
    { executed with id := actionId } now true

/-- An execution that succeeds was allowed to try; it fails the action, or releases. -/
structure Attempt {home : Addr} (inv : Invocation Addr home) (c : Config Addr) (s : Custody Addr)
    (f : Failures) (em : Emergency Addr) (caller : Addr) (actionId : ℕ)
    (action : EmergencyAction Addr) (x : Execution Addr) : Prop where
  found : em.proposal actionId = some action
  auth : inv.auth caller = true
  not_executed : action.executed = false
  not_failed : action.failed = false
  outcome : x = ⟨s, f, em.recordFailure action inv.timestamp, false⟩ ∨
    ∃ registered escrow circuit, em.signers = some registered ∧
      GatesPassed inv s.book em registered action caller escrow ∧
      doReleaseSimple inv c s escrow action.escrowId caller = .ok x.custody ∧
      x.emergency = em.afterRelease action actionId inv.timestamp circuit ∧ x.released = true

theorem executeEmergencyAction_spec {x : Execution Addr}
    (h : executeEmergencyAction inv c s f em caller actionId = .ok x) :
    ∃ action, Attempt inv c s f em caller actionId action x := by
  simp only [executeEmergencyAction, bind_eq_ok, requireAuth_eq_ok, expect_eq_ok,
    require_eq_ok] at h
  obtain ⟨_, hauth, action, hfound, _, hexecuted, _, hfailed, _, -, registered, hsigners,
    gates, hgates, h⟩ := h
  refine ⟨action, hfound, hauth, hexecuted, hfailed, ?_⟩
  cases gates with
  | none => exact .inl (pure_eq_ok.mp h).symm
  | some passed =>
    obtain ⟨escrow, circuit⟩ := passed
    simp only [bind_eq_ok, pure_eq_ok] at h
    obtain ⟨s', hrelease, rfl⟩ := h
    exact .inr ⟨registered, escrow, circuit, hsigners, executionGates_eq_some hgates, hrelease,
      rfl, rfl⟩

theorem emergencyRelease_spec {escrowId : ℕ} {reasonHash : Hash} {x : Execution Addr}
    (h : emergencyRelease inv c s f em caller escrowId reasonHash actionId = .ok x) :
    executeEmergencyAction inv c s f em caller actionId = .ok x := by
  simp only [emergencyRelease, bind_eq_ok, expect_eq_ok, require_eq_ok] at h
  obtain ⟨-, -, -, -, -, -, h⟩ := h
  exact h

end Specifications

end Escrow
