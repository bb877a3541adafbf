import MentorsMind.Lib.RollingIndex
import MentorsMind.Escrow.Invariant

/-! The snapshot index as a rolling window over the stored snapshots. -/
namespace Escrow
open Outcome Soroban Shared

section Window

variable {Addr : Type}

/-- The index lists, without repetition and up to the limit, the ids under which snapshot
data and metadata are stored. -/
structure SnapshotsRetained (r : Recovery Addr) : Prop where
  data : RollingIndex.Faithful maxSnapshots r.snapshotIndex fun id => (r.snapshot id).isSome = true
  metadata : RollingIndex.Faithful maxSnapshots r.snapshotIndex
    fun id => (r.snapshotMetadata id).isSome = true

/-- Both hold the same snapshots. -/
structure SameSnapshots (r r' : Recovery Addr) : Prop where
  index : r'.snapshotIndex = r.snapshotIndex
  data : r'.snapshot = r.snapshot
  metadata : r'.snapshotMetadata = r.snapshotMetadata

theorem SameSnapshots.of_eq {r r' : Recovery Addr} (h : r' = r) : SameSnapshots r r' := by
  subst h
  exact ⟨rfl, rfl, rfl⟩

theorem SameSnapshots.retained {r r' : Recovery Addr} (h : SameSnapshots r r')
    (hr : SnapshotsRetained r) : SnapshotsRetained r' := by
  constructor
  · rw [h.index, h.data]
    exact hr.data
  · rw [h.index, h.metadata]
    exact hr.metadata

end Window

section Steps

variable {Addr : Type} [DecidableEq Addr] {self : Addr} {inv : Invocation Addr self}
  {digests : Digests} {s t : State Addr}

/-- A snapshot is pushed to the window, and data and metadata are written alike. -/
theorem snapshotState_overwrites {c : Config Addr} {b : Book Addr} {r r' : Recovery Addr}
    {admin : Addr} {id : ℕ} (h : snapshotState inv digests c b r admin id = .ok r') :
    ∃ records snapshotMeta,
      r'.snapshotIndex = (RollingIndex.push maxSnapshots r.snapshotIndex id).1 ∧
      r'.snapshot = RollingIndex.overwrite (RollingIndex.push maxSnapshots r.snapshotIndex id).2
        r.snapshot id records ∧
      r'.snapshotMetadata = RollingIndex.overwrite
        (RollingIndex.push maxSnapshots r.snapshotIndex id).2 r.snapshotMetadata id
        snapshotMeta := by
  simp only [snapshotState, bind_eq_ok, pure_eq_ok] at h
  obtain ⟨-, -, rfl⟩ := h
  have hpush : pushSnapshotIndex r.snapshotIndex id =
    RollingIndex.push maxSnapshots r.snapshotIndex id := rfl
  rw [hpush]
  cases hevicted : (RollingIndex.push maxSnapshots r.snapshotIndex id).2 with
  | none => exact ⟨_, _, rfl, rfl, rfl⟩
  | some old => exact ⟨_, _, rfl, rfl, rfl⟩

/-- A snapshot keeps the index faithful exactly when it repeats no listed id, other than
one that falls out. -/
theorem snapshotState_retained_iff {c : Config Addr} {b : Book Addr} {r r' : Recovery Addr}
    {admin : Addr} {id : ℕ} (hr : SnapshotsRetained r)
    (h : snapshotState inv digests c b r admin id = .ok r') :
    SnapshotsRetained r' ↔ RollingIndex.Admits maxSnapshots r.snapshotIndex id := by
  have hcap : 0 < maxSnapshots := by decide
  obtain ⟨records, snapshotMeta, hindex, hdata, hmetadata⟩ := snapshotState_overwrites h
  constructor
  · intro hafter
    have hfaithful := hafter.data
    rw [hindex, hdata, RollingIndex.overwrite_isSome] at hfaithful
    exact (hr.data.push_iff hcap id).mp hfaithful
  · intro hadmits
    constructor
    · rw [hindex, hdata, RollingIndex.overwrite_isSome]
      exact (hr.data.push_iff hcap id).mpr hadmits
    · rw [hindex, hmetadata, RollingIndex.overwrite_isSome]
      exact (hr.metadata.push_iff hcap id).mpr hadmits

/-- The id of the snapshot that a call takes. -/
def Call.takesSnapshot : Call Addr → Option ℕ
  | .recovery (.snapshotState _ id) => some id
  | _ => none

theorem emergencyRollback_sameSnapshots {b : Book Addr} {em : Emergency Addr}
    {r : Recovery Addr} {proposalId : ℕ} {executor : Addr}
    {x : Book Addr × Recovery Addr × Bool}
    (h : emergencyRollback inv b em r proposalId executor = .ok x) : SameSnapshots r x.2.1 := by
  rcases emergencyRollback_recovery h with hsame | ⟨_, _, _, _, -, hx⟩
  · exact .of_eq hsame
  · rw [hx]
    exact ⟨rfl, rfl, rfl⟩

theorem execRecovery_sameSnapshots {call : RecoveryCall Addr} {r : Recovery Addr}
    (hcall : Call.takesSnapshot (.recovery call) = none)
    (h : execRecovery inv digests s call = .ok r) : SameSnapshots s.recovery r := by
  cases call with
  | snapshotState admin snapshotId => simp [Call.takesSnapshot] at hcall
  | proposeEmergencyRollback proposer snapshotId oldWasmHash scope justification =>
    simp only [execRecovery, proposeEmergencyRollback, bind_eq_ok, pure_eq_ok] at h
    obtain ⟨_, ⟨-, -, -, -, _, -, _, -, rfl⟩, rfl⟩ := h
    exact ⟨rfl, rfl, rfl⟩
  | proposeRollback proposer snapshotId oldWasmHash =>
    simp only [execRecovery, proposeRollback, proposeEmergencyRollback, bind_eq_ok,
      pure_eq_ok] at h
    obtain ⟨_, ⟨-, -, -, -, _, -, _, -, rfl⟩, rfl⟩ := h
    exact ⟨rfl, rfl, rfl⟩
  | approveTechnicalRollback signer proposalId =>
    simp only [execRecovery, approveTechnicalRollback, bind_eq_ok, pure_eq_ok] at h
    obtain ⟨-, -, _, -, -, -, _, -, -, -, rfl⟩ := h
    exact ⟨rfl, rfl, rfl⟩
  | linkGovernanceRollbackReview governance rollbackId governanceProposalId =>
    simp only [execRecovery, linkGovernanceRollbackReview, bind_eq_ok, pure_eq_ok] at h
    obtain ⟨-, -, _, -, rfl⟩ := h
    exact ⟨rfl, rfl, rfl⟩
  | markGovRollbackApproved governance rollbackId governanceProposalId =>
    simp only [execRecovery, markGovRollbackApproved, bind_eq_ok, pure_eq_ok] at h
    obtain ⟨-, -, _, -, -, -, rfl⟩ := h
    exact ⟨rfl, rfl, rfl⟩
  | preserveAuditData proposalId =>
    simp only [execRecovery, bind_eq_ok, pure_eq_ok] at h
    obtain ⟨x, hpreserve, rfl⟩ := h
    obtain ⟨audits, logs, hx⟩ := preserveAuditData_spec hpreserve
    rw [hx]
    exact ⟨rfl, rfl, rfl⟩

/-- Only `snapshot_state` writes snapshots. -/
theorem exec_sameSnapshots {call : Call Addr} (hcall : call.takesSnapshot = none)
    (h : exec digests inv call s = .ok t) : SameSnapshots s.recovery t.recovery := by
  by_cases hwrites : call.writesRecovery = false
  · exact .of_eq ((exec_frame h).2.1 hwrites)
  · cases call with
    | recovery call =>
      simp only [exec, bind_eq_ok, pure_eq_ok] at h
      obtain ⟨r, hexec, rfl⟩ := h
      exact execRecovery_sameSnapshots hcall hexec
    | emergencyRollback proposalId executor =>
      simp only [exec, bind_eq_ok, pure_eq_ok] at h
      obtain ⟨x, hexec, rfl⟩ := h
      exact emergencyRollback_sameSnapshots hexec
    | rollbackToSnapshot proposalId =>
      simp only [exec, rollbackToSnapshot, bind_eq_ok, require_eq_ok, pure_eq_ok] at h
      obtain ⟨x, ⟨_, hexec, -, -, rfl⟩, rfl⟩ := h
      exact emergencyRollback_sameSnapshots hexec
    | _ => simp [Call.writesRecovery] at hwrites

/-- As `snapshotState_retained_iff`, for the call. -/
theorem exec_retained_iff {call : Call Addr} {id : ℕ} (hcall : call.takesSnapshot = some id)
    (hs : SnapshotsRetained s.recovery) (h : exec digests inv call s = .ok t) :
    SnapshotsRetained t.recovery ↔
      RollingIndex.Admits maxSnapshots s.recovery.snapshotIndex id := by
  cases call with
  | recovery call =>
    cases call with
    | snapshotState admin snapshotId =>
      obtain rfl : snapshotId = id := by simpa [Call.takesSnapshot] using hcall
      simp only [exec, execRecovery, bind_eq_ok, pure_eq_ok] at h
      obtain ⟨r, hexec, rfl⟩ := h
      exact snapshotState_retained_iff hs hexec
    | _ => simp [Call.takesSnapshot] at hcall
  | _ => simp [Call.takesSnapshot] at hcall

end Steps

section Runs

variable {Addr : Type} [DecidableEq Addr] {self : Addr}

/-- The index stays faithful through a run exactly when no snapshot of the run is taken
under an id that is still listed, unless that id falls out with it. -/
theorem snapshotsRetained_run_iff (digests : Digests) (balance : Addr → Addr → ℤ)
    (steps : List (Step Addr self)) :
    (∀ pre, pre <+: steps →
      SnapshotsRetained ((machine self digests).run (deployed balance) pre).recovery) ↔
    ∀ pre step t id, (machine self digests).Executes (deployed balance) steps pre step t →
      step.2.takesSnapshot = some id → RollingIndex.Admits maxSnapshots
        ((machine self digests).run (deployed balance) pre).recovery.snapshotIndex id := by
  constructor
  · intro hretained pre step t id hx hcall
    have hbefore := hretained pre ((List.prefix_append pre [step]).trans hx.snoc_prefix)
    have hafter := hretained (pre ++ [step]) hx.snoc_prefix
    rw [hx.run_eq] at hafter
    exact (exec_retained_iff hcall hbefore hx.exec_eq).mp hafter
  · intro hadmits
    refine Machine.run_invariant_of_executes (M := machine self digests)
      (P := fun s => SnapshotsRetained s.recovery) ?_ ?_
    · exact ⟨⟨List.nodup_nil, Nat.zero_le _, by simp [deployed]⟩,
        ⟨List.nodup_nil, Nat.zero_le _, by simp [deployed]⟩⟩
    · intro pre step t hx hbefore
      cases hcall : step.2.takesSnapshot with
      | none => exact (exec_sameSnapshots hcall hx.exec_eq).retained hbefore
      | some id =>
        exact (exec_retained_iff hcall hbefore hx.exec_eq).mpr (hadmits pre step t id hx hcall)

end Runs

/-- The admin takes a snapshot under the id 1 twice. -/
def repeatedSnapshot : List (Step ℕ 0) :=
  [(grantedByAll 0, .initializeEscrow 1 2 500 [9] 0),
    (grantedByAll 0, .recovery (.snapshotState 1 1)),
    (grantedByAll 5, .recovery (.snapshotState 1 1))]

/-- The index lists the id 1 twice. -/
theorem repeatedSnapshot_not_retained : ¬ SnapshotsRetained
    ((machine 0 lengthDigests).run (deployed learnerFunds) repeatedSnapshot).recovery := by
  intro h
  have hindex : ((machine 0 lengthDigests).run (deployed learnerFunds)
      repeatedSnapshot).recovery.snapshotIndex = [1, 1] := by
    decide
  have hnodup := h.data.nodup
  rw [hindex] at hnodup
  simp at hnodup

/-- Two snapshots later the data under the id 1 is gone while the index still lists it. -/
example :
    let r := ((machine 0 lengthDigests).run (deployed learnerFunds) (repeatedSnapshot ++
      [(grantedByAll 6, .recovery (.snapshotState 1 2)),
        (grantedByAll 7, .recovery (.snapshotState 1 3))])).recovery
    1 ∈ r.snapshotIndex ∧ (r.snapshot 1).isSome = false := by
  decide

end Escrow
