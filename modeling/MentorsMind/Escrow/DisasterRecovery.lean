import MentorsMind.Escrow.EmergencyActions

/-! Snapshots of the escrow records and the rollback that writes them back once the
technical multisig and governance have both agreed. -/
namespace Escrow
open Outcome Soroban Shared

variable {Addr : Type} {self : Addr}

/-- The stored records with ids from `id` on. -/
def collectRecords (b : Book Addr) : ℕ → ℕ → List (EscrowRecord Addr)
  | 0, _ => []
  | n + 1, id => (b.escrow id).toList ++ collectRecords b n (id + 1)

/-- Writes the records back under their own ids. -/
def restoreRecords (b : Book Addr) (records : List (EscrowRecord Addr)) : Book Addr :=
  records.foldl (fun b record => b.setEscrow record.id record) b

namespace Recovery

def setRollback (r : Recovery Addr) (id : ℕ) (rollback : EmergencyRollback Addr) :
    Recovery Addr :=
  { r with rollback := Function.update r.rollback id (some rollback) }

end Recovery

/-- The audits of the actions with ids from `id` on, copied, and how many there were. -/
def preserveAudits (em : Emergency Addr) : ℕ → ℕ → Recovery Addr × ℕ → Recovery Addr × ℕ
  | 0, _, acc => acc
  | n + 1, id, (r, count) =>
      match em.audit id with
      | some audit => preserveAudits em n (id + 1)
          ({ r with preservedAudit := Function.update r.preservedAudit id (some audit) }, count + 1)
      | none => preserveAudits em n (id + 1) (r, count)

/-- The transition logs of the records, copied, and how many there were. -/
def preserveLogs (b : Book Addr) (records : List (EscrowRecord Addr))
    (acc : Recovery Addr × ℕ) : Recovery Addr × ℕ :=
  records.foldl (fun (r, count) record =>
    match b.transitionLog record.id with
    | [] => (r, count)
    | logs =>
        let preserved := Function.update r.preservedTransitionLog record.id (some logs)
        ({ r with preservedTransitionLog := preserved }, count + 1)) acc

def preserveAuditData (b : Book Addr) (em : Emergency Addr) (r : Recovery Addr)
    (proposalId : ℕ) : Result (Recovery Addr × ℕ × ℕ) := do
  let rollback ← expect (r.rollback proposalId)
    (.panic "Emergency rollback proposal not found")
  let (r, preservedAudits) := preserveAudits em em.proposalCount 1 (r, 0)
  let records ← expect (r.snapshot rollback.snapshotId) (.panic "Snapshot data not found")
  let (r, preservedLogs) := preserveLogs b records (r, 0)
  pure (r, preservedAudits, preservedLogs)

/-- Only the copies of the audits are written. -/
theorem preserveAudits_spec (em : Emergency Addr) (n id : ℕ) (r : Recovery Addr) (count : ℕ) :
    ∃ audits, (preserveAudits em n id (r, count)).1 = { r with preservedAudit := audits } := by
  induction n generalizing id r count with
  | zero => exact ⟨r.preservedAudit, rfl⟩
  | succ n ih =>
    unfold preserveAudits
    cases haudit : em.audit id with
    | none => exact ih (id + 1) r count
    | some audit =>
      obtain ⟨audits, haudits⟩ := ih (id + 1)
        { r with preservedAudit := Function.update r.preservedAudit id (some audit) } (count + 1)
      exact ⟨audits, haudits⟩

/-- Only the copies of the logs are written. -/
theorem preserveLogs_spec (b : Book Addr) (records : List (EscrowRecord Addr))
    (r : Recovery Addr) (count : ℕ) :
    ∃ logs, (preserveLogs b records (r, count)).1 = { r with preservedTransitionLog := logs } := by
  induction records generalizing r count with
  | nil => exact ⟨r.preservedTransitionLog, rfl⟩
  | cons record records ih =>
    unfold preserveLogs at ih ⊢
    rw [List.foldl_cons]
    cases hlog : b.transitionLog record.id with
    | nil => exact ih r count
    | cons entry entries =>
      let preserved := Function.update r.preservedTransitionLog record.id (some (entry :: entries))
      obtain ⟨logs, hlogs⟩ := ih { r with preservedTransitionLog := preserved } (count + 1)
      exact ⟨logs, hlogs⟩

theorem preserveAuditData_spec {b : Book Addr} {em : Emergency Addr} {r : Recovery Addr}
    {proposalId : ℕ} {x : Recovery Addr × ℕ × ℕ}
    (h : preserveAuditData b em r proposalId = .ok x) :
    ∃ audits logs,
      x.1 = { r with preservedAudit := audits, preservedTransitionLog := logs } := by
  simp only [preserveAuditData, bind_eq_ok, expect_eq_ok, pure_eq_ok] at h
  obtain ⟨rollback, -, records, -, rfl⟩ := h
  obtain ⟨audits, haudits⟩ := preserveAudits_spec em em.proposalCount 1 r 0
  obtain ⟨logs, hlogs⟩ :=
    preserveLogs_spec b records (preserveAudits em em.proposalCount 1 (r, 0)).1 0
  exact ⟨audits, logs, by rw [hlogs, haudits]⟩

theorem preserveAuditData_snapshot {b : Book Addr} {em : Emergency Addr} {r : Recovery Addr}
    {proposalId : ℕ} {x : Recovery Addr × ℕ × ℕ}
    (h : preserveAuditData b em r proposalId = .ok x) : x.1.snapshot = r.snapshot := by
  obtain ⟨audits, logs, hx⟩ := preserveAuditData_spec h
  rw [hx]

variable [DecidableEq Addr]

def snapshotState (inv : Invocation Addr self) (digests : Digests) (c : Config Addr)
    (b : Book Addr) (r : Recovery Addr) (admin : Addr) (snapshotId : ℕ) :
    Result (Recovery Addr) := do
  requireCallerIsAdmin inv c admin
  let records := collectRecords b b.escrowCount 1
  let (index, evicted) := pushSnapshotIndex r.snapshotIndex snapshotId
  let snapshot := match evicted with
    | some oldId => Function.update r.snapshot oldId none
    | none => r.snapshot
  let metadata := match evicted with
    | some oldId => Function.update r.snapshotMetadata oldId none
    | none => r.snapshotMetadata
  let snapshotMeta : SnapshotMeta Addr := {
    createdAt := inv.timestamp
    blockHeight := inv.sequence
    contractVersion := 0
    admin := admin
    checksum := digests.checksum b.escrowCount (c.feeBps.getD 0) (c.autoRelDelay.getD 0)
      records.length
    recordCount := records.length
    snapshotIndex := min r.snapshotIndex.length (maxSnapshots - 1) }
  pure { r with
    snapshotIndex := index
    snapshot := Function.update snapshot snapshotId (some records)
    snapshotMetadata := Function.update metadata snapshotId (some snapshotMeta) }

def validateRollbackRequestInternal (inv : Invocation Addr self) (em : Emergency Addr)
    (r : Recovery Addr) (proposer : Addr) (snapshotId : ℕ) (scope : RollbackScope Addr)
    (justification : RollbackJustification) : Result Unit := do
  let signers ← expect em.signers (.panic "Emergency signers not configured")
  require (RollbackAuthorization.isRegisteredSigner signers proposer = true)
    (.panic "Proposer is not an emergency signer")
  let snapshotMeta ← expect (r.snapshotMetadata snapshotId) (.panic "Snapshot not found")
  require (RollbackAuthorization.validateJustification justification = true)
    (.panic "Invalid rollback justification")
  require (RollbackAuthorization.validateScopeWindow inv.timestamp snapshotMeta.createdAt = true)
    (.panic "Snapshot outside 24h rollback window")
  match scope with
  | .escrow => pure ()
  | .contract address => require (address = self) (.panic "Contract scope mismatch")
  | .governance => throw (.panic "Governance scope not valid on escrow")

def proposeEmergencyRollback (inv : Invocation Addr self) (em : Emergency Addr)
    (r : Recovery Addr) (proposer : Addr) (snapshotId : ℕ) (oldWasmHash : Hash)
    (scope : RollbackScope Addr) (justification : RollbackJustification) :
    Result (Recovery Addr × ℕ) := do
  requireAuth inv.toEnv proposer
  validateRollbackRequestInternal inv em r proposer snapshotId scope justification
  let reviewEndsAt ← RollbackAuthorization.computeReviewEndsAt inv.timestamp
    (.panic "review period overflow")
  let newId ← safeAddU32 r.rollbackCount 1
  let technicalSigners := RollbackAuthorization.aggregateTechnicalApproval [] proposer
  let rollback : EmergencyRollback Addr := {
    id := newId
    snapshotId := snapshotId
    oldWasmHash := oldWasmHash
    scope := scope
    justification := justification
    proposer := proposer
    proposedAt := inv.timestamp
    reviewEndsAt := reviewEndsAt
    technicalApprovalCount := technicalSigners.length
    technicalSigners := technicalSigners
    governanceProposalId := none
    governanceApproved := false
    executed := false
    rejected := false }
  pure ({ r with rollbackCount := newId }.setRollback newId rollback, newId)

/-- `propose_rollback` justifies itself with the hash of the code it returns to. -/
def proposeRollback (inv : Invocation Addr self) (em : Emergency Addr) (r : Recovery Addr)
    (proposer : Addr) (snapshotId : ℕ) (oldWasmHash : Hash) : Result (Recovery Addr × ℕ) :=
  proposeEmergencyRollback inv em r proposer snapshotId oldWasmHash .escrow
    ⟨oldWasmHash, oldWasmHash, 0⟩

/-- `approve_technical_rollback`, which `approve_rollback` calls. -/
def approveTechnicalRollback (inv : Invocation Addr self) (em : Emergency Addr)
    (r : Recovery Addr) (signer : Addr) (proposalId : ℕ) : Result (Recovery Addr) := do
  requireAuth inv.toEnv signer
  let signers ← expect em.signers (.panic "Emergency signers not configured")
  require (RollbackAuthorization.isRegisteredSigner signers signer = true)
    (.panic "Signer is not an emergency signer")
  let rollback ← expect (r.rollback proposalId)
    (.panic "Emergency rollback proposal not found")
  require (rollback.executed = false ∧ rollback.rejected = false)
    (.panic "Rollback already finalized")
  let technicalSigners :=
    RollbackAuthorization.aggregateTechnicalApproval rollback.technicalSigners signer
  pure (r.setRollback proposalId { rollback with
    technicalSigners := technicalSigners
    technicalApprovalCount := technicalSigners.length })

def requireGovernance (inv : Invocation Addr self) (c : Config Addr) (governance : Addr) :
    Result Unit := do
  requireAuth inv.toEnv governance
  let stored ← expect c.governanceContract (.panic "Governance contract not configured")
  require (governance = stored) (.panic "Unauthorized governance contract")

def linkGovernanceRollbackReview (inv : Invocation Addr self) (c : Config Addr)
    (r : Recovery Addr) (governance : Addr) (rollbackId governanceProposalId : ℕ) :
    Result (Recovery Addr) := do
  requireGovernance inv c governance
  let rollback ← expect (r.rollback rollbackId)
    (.panic "Emergency rollback proposal not found")
  pure (r.setRollback rollbackId
    { rollback with governanceProposalId := some governanceProposalId })

def markGovRollbackApproved (inv : Invocation Addr self) (c : Config Addr)
    (r : Recovery Addr) (governance : Addr) (rollbackId governanceProposalId : ℕ) :
    Result (Recovery Addr) := do
  requireGovernance inv c governance
  let rollback ← expect (r.rollback rollbackId)
    (.panic "Emergency rollback proposal not found")
  require (rollback.governanceProposalId = some governanceProposalId)
    (.panic "Governance proposal mismatch")
  pure (r.setRollback rollbackId { rollback with governanceApproved := true })

/-- What is still to be checked once the proposal is ready: the signatures and the
snapshot's age. -/
def rollbackGates (em : Emergency Addr) (r : Recovery Addr)
    (rollback : EmergencyRollback Addr) (now : ℕ) : Result Bool :=
  if RollbackAuthorization.readyToExecute rollback now then do
    let registered ← expect em.signers (.panic "Emergency signers not configured")
    pure (RollbackAuthorization.validateTechnicalSignatures registered rollback.technicalSigners
      && (r.snapshotMetadata rollback.snapshotId).any fun snapshotMeta =>
        RollbackAuthorization.validateScopeWindow rollback.proposedAt snapshotMeta.createdAt)
  else pure false

/-- The records go back to the snapshot; balances do not. The contract's code is replaced
as well, which the model leaves out: later calls run the same code. -/
def emergencyRollback (inv : Invocation Addr self) (b : Book Addr) (em : Emergency Addr)
    (r : Recovery Addr) (proposalId : ℕ) (executor : Addr) :
    Result (Book Addr × Recovery Addr × Bool) := do
  requireAuth inv.toEnv executor
  let rollback ← expect (r.rollback proposalId)
    (.panic "Emergency rollback proposal not found")
  let ready ← rollbackGates em r rollback inv.timestamp
  if ready then do
    let (r, preservedAudits, preservedLogs) ← preserveAuditData b em r proposalId
    let records ← expect (r.snapshot rollback.snapshotId) (.panic "Snapshot data not found")
    let audit : ImmutableRollbackAuditRecord Addr := {
      rollbackId := proposalId
      snapshotId := rollback.snapshotId
      evidenceHash := rollback.justification.evidenceHash
      preservedEmergencyAudits := preservedAudits
      preservedTransitionLogs := preservedLogs
      timestamp := inv.timestamp
      executor := executor
      success := true }
    let r := r.setRollback proposalId { rollback with executed := true }
    pure (restoreRecords b records,
      { r with immutableAudit := Function.update r.immutableAudit proposalId (some audit) }, true)
  else pure (b, r, false)

/-- A rollback that is not ready changes nothing; one that is restores the snapshot's
records, and every snapshot stays as it was. -/
theorem emergencyRollback_spec {inv : Invocation Addr self} {b : Book Addr}
    {em : Emergency Addr} {r : Recovery Addr} {proposalId : ℕ} {executor : Addr}
    {x : Book Addr × Recovery Addr × Bool}
    (h : emergencyRollback inv b em r proposalId executor = .ok x) :
    ∃ rollback, r.rollback proposalId = some rollback ∧
      ((rollbackGates em r rollback inv.timestamp = .ok false ∧ x = (b, r, false)) ∨
        (rollbackGates em r rollback inv.timestamp = .ok true ∧
          ∃ records, r.snapshot rollback.snapshotId = some records ∧
            x.1 = restoreRecords b records ∧ x.2.1.snapshot = r.snapshot)) := by
  simp only [emergencyRollback, bind_eq_ok, requireAuth_eq_ok, expect_eq_ok] at h
  obtain ⟨-, -, rollback, hfound, ready, hready, h⟩ := h
  refine ⟨rollback, hfound, ?_⟩
  split_ifs at h with hgo
  · simp only [bind_eq_ok, expect_eq_ok, pure_eq_ok] at h
    obtain ⟨⟨r', audits, logs⟩, hpreserve, records, hrecords, rfl⟩ := h
    have hsame := preserveAuditData_snapshot hpreserve
    simp only at hsame hrecords
    rw [hsame] at hrecords
    exact .inr ⟨hgo ▸ hready, records, hrecords, rfl, hsame⟩
  · have hfalse : ready = false := by simpa using hgo
    exact .inl ⟨hfalse ▸ hready, (pure_eq_ok.mp h).symm⟩

theorem emergencyRollback_snapshot {inv : Invocation Addr self} {b : Book Addr}
    {em : Emergency Addr} {r : Recovery Addr} {proposalId : ℕ} {executor : Addr}
    {x : Book Addr × Recovery Addr × Bool}
    (h : emergencyRollback inv b em r proposalId executor = .ok x) :
    x.2.1.snapshot = r.snapshot := by
  obtain ⟨rollback, -, ⟨-, rfl⟩ | ⟨-, records, -, -, hsame⟩⟩ := emergencyRollback_spec h
  · rfl
  · exact hsame

/-- A rollback marks its proposal and writes nothing else that later calls read. -/
theorem emergencyRollback_recovery {inv : Invocation Addr self} {b : Book Addr}
    {em : Emergency Addr} {r : Recovery Addr} {proposalId : ℕ} {executor : Addr}
    {x : Book Addr × Recovery Addr × Bool}
    (h : emergencyRollback inv b em r proposalId executor = .ok x) :
    x.2.1 = r ∨ ∃ rollback audits logs immutable, r.rollback proposalId = some rollback ∧
      x.2.1 = { r.setRollback proposalId { rollback with executed := true } with
        preservedAudit := audits
        preservedTransitionLog := logs
        immutableAudit := immutable } := by
  simp only [emergencyRollback, bind_eq_ok, requireAuth_eq_ok, expect_eq_ok] at h
  obtain ⟨-, -, rollback, hfound, ready, -, h⟩ := h
  split_ifs at h with hgo
  · simp only [bind_eq_ok, expect_eq_ok, pure_eq_ok] at h
    obtain ⟨⟨r', audits, logs⟩, hpreserve, records, -, rfl⟩ := h
    obtain ⟨audits', logs', hr⟩ := preserveAuditData_spec hpreserve
    obtain rfl : r' = _ := hr
    exact .inr ⟨rollback, audits', logs', _, hfound, rfl⟩
  · obtain rfl := pure_eq_ok.mp h
    exact .inl rfl

/-- `rollback_to_snapshot` names the contract itself as the executor. -/
def rollbackToSnapshot (inv : Invocation Addr self) (b : Book Addr) (em : Emergency Addr)
    (r : Recovery Addr) (proposalId : ℕ) : Result (Book Addr × Recovery Addr × Bool) := do
  let outcome ← emergencyRollback inv b em r proposalId self
  require (outcome.2.2 = true) (.panic "Emergency rollback requirements not satisfied")
  pure outcome

end Escrow
