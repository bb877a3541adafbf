import MentorsMind.Escrow.RollbackSafety

/-! The technical approvals of a rollback. Four of them make it executable; a fifth, which
the contract accepts, makes sure that it is never executed. -/
namespace Escrow
open Outcome Soroban Shared

section Changes

variable {Addr : Type}

/-- What a successful call does to the proposed rollbacks: signers are never removed. -/
inductive RollbackChange (s t : State Addr) : Prop
  | same (rollback : t.recovery.rollback = s.recovery.rollback)
      (count : t.recovery.rollbackCount = s.recovery.rollbackCount)
  | proposed (new : EmergencyRollback Addr)
      (rollback : t.recovery.rollback =
        Function.update s.recovery.rollback (s.recovery.rollbackCount + 1) (some new))
      (count : t.recovery.rollbackCount = s.recovery.rollbackCount + 1)
  | updated (id : ℕ) (old new : EmergencyRollback Addr)
      (found : s.recovery.rollback id = some old)
      (signers : old.technicalSigners <+: new.technicalSigners)
      (rollback : t.recovery.rollback = Function.update s.recovery.rollback id (some new))
      (count : t.recovery.rollbackCount = s.recovery.rollbackCount)

/-- Rollbacks are numbered as they are proposed. -/
def RollbacksNumbered (s : State Addr) : Prop :=
  ∀ id, s.recovery.rollbackCount < id → s.recovery.rollback id = none

theorem RollbackChange.numbered {s t : State Addr} (h : RollbackChange s t)
    (hs : RollbacksNumbered s) : RollbacksNumbered t := by
  intro id hid
  cases h with
  | same rollback count =>
    rw [rollback]
    exact hs id (count ▸ hid)
  | proposed new rollback count =>
    rw [rollback, Function.update_of_ne (by omega)]
    exact hs id (by omega)
  | updated k old new found signers rollback count =>
    have hne : id ≠ k := by
      rintro rfl
      rw [hs id (count ▸ hid)] at found
      cases found
    rw [rollback, Function.update_of_ne hne]
    exact hs id (count ▸ hid)

/-- More than four signers stay more than four. -/
def Overapproved (s : State Addr) (id : ℕ) : Prop :=
  ∃ rollback, s.recovery.rollback id = some rollback ∧ 4 < rollback.technicalSigners.length

theorem RollbackChange.overapproved {s t : State Addr} (h : RollbackChange s t)
    (hs : RollbacksNumbered s) {id : ℕ} (hid : Overapproved s id) : Overapproved t id := by
  obtain ⟨rollback, hfound, hlength⟩ := hid
  cases h with
  | same rollback count => exact ⟨_, by rw [rollback, hfound], hlength⟩
  | proposed new rollback' count =>
    have hne : id ≠ s.recovery.rollbackCount + 1 := by
      rintro rfl
      rw [hs _ (Nat.lt_succ_self _)] at hfound
      cases hfound
    exact ⟨rollback, by rw [rollback', Function.update_of_ne hne, hfound], hlength⟩
  | updated k old new found signers rollback' count =>
    by_cases hk : id = k
    · subst hk
      obtain rfl : old = rollback := Option.some.inj (found.symm.trans hfound)
      exact ⟨new, by rw [rollback', Function.update_self], hlength.trans_le signers.length_le⟩
    · exact ⟨rollback, by rw [rollback', Function.update_of_ne hk, hfound], hlength⟩

end Changes

section Steps

variable {Addr : Type} [DecidableEq Addr] {self : Addr} {inv : Invocation Addr self}
  {digests : Digests} {s t : State Addr}

theorem aggregateTechnicalApproval_keeps (approvals : List Addr) (signer : Addr) :
    approvals <+: RollbackAuthorization.aggregateTechnicalApproval approvals signer := by
  unfold RollbackAuthorization.aggregateTechnicalApproval
  split_ifs
  · exact List.prefix_rfl
  · exact List.prefix_append approvals [signer]

theorem emergencyRollback_rollbackChange {proposalId : ℕ} {executor : Addr}
    {x : Book Addr × Recovery Addr × Bool}
    (h : emergencyRollback inv s.custody.book s.emergency s.recovery proposalId executor =
      .ok x) : RollbackChange s (s.afterRollback x) := by
  rcases emergencyRollback_recovery h with hsame | ⟨rollback, _, _, _, hfound, hx⟩
  · exact .same (by rw [State.afterRollback, hsame]) (by rw [State.afterRollback, hsame])
  · refine .updated proposalId rollback { rollback with executed := true } hfound
      List.prefix_rfl ?_ ?_
    · rw [State.afterRollback, hx]
      rfl
    · rw [State.afterRollback, hx]
      rfl

theorem execRecovery_rollbackChange {call : RecoveryCall Addr} {r : Recovery Addr}
    (h : execRecovery inv digests s call = .ok r) :
    RollbackChange s { s with recovery := r } := by
  cases call with
  | snapshotState admin snapshotId =>
    simp only [execRecovery, snapshotState, bind_eq_ok, pure_eq_ok] at h
    obtain ⟨-, -, rfl⟩ := h
    exact .same rfl rfl
  | proposeEmergencyRollback proposer snapshotId oldWasmHash scope justification =>
    simp only [execRecovery, proposeEmergencyRollback, bind_eq_ok, safeAddU32_eq_ok,
      pure_eq_ok] at h
    obtain ⟨_, ⟨-, -, -, -, _, -, _, ⟨-, rfl⟩, rfl⟩, rfl⟩ := h
    exact .proposed _ rfl rfl
  | proposeRollback proposer snapshotId oldWasmHash =>
    simp only [execRecovery, proposeRollback, proposeEmergencyRollback, bind_eq_ok,
      safeAddU32_eq_ok, pure_eq_ok] at h
    obtain ⟨_, ⟨-, -, -, -, _, -, _, ⟨-, rfl⟩, rfl⟩, rfl⟩ := h
    exact .proposed _ rfl rfl
  | approveTechnicalRollback signer proposalId =>
    simp only [execRecovery, approveTechnicalRollback, bind_eq_ok, expect_eq_ok,
      pure_eq_ok] at h
    obtain ⟨-, -, _, -, -, -, rollback, hfound, -, -, rfl⟩ := h
    exact .updated proposalId rollback _ hfound
      (aggregateTechnicalApproval_keeps rollback.technicalSigners signer) rfl rfl
  | linkGovernanceRollbackReview governance rollbackId governanceProposalId =>
    simp only [execRecovery, linkGovernanceRollbackReview, bind_eq_ok, expect_eq_ok,
      pure_eq_ok] at h
    obtain ⟨-, -, rollback, hfound, rfl⟩ := h
    exact .updated rollbackId rollback
      { rollback with governanceProposalId := some governanceProposalId } hfound
      List.prefix_rfl rfl rfl
  | markGovRollbackApproved governance rollbackId governanceProposalId =>
    simp only [execRecovery, markGovRollbackApproved, bind_eq_ok, expect_eq_ok,
      pure_eq_ok] at h
    obtain ⟨-, -, rollback, hfound, -, -, rfl⟩ := h
    exact .updated rollbackId rollback { rollback with governanceApproved := true } hfound
      List.prefix_rfl rfl rfl
  | preserveAuditData proposalId =>
    simp only [execRecovery, bind_eq_ok, pure_eq_ok] at h
    obtain ⟨x, hpreserve, rfl⟩ := h
    obtain ⟨audits, logs, hx⟩ := preserveAuditData_spec hpreserve
    exact .same (by rw [hx]) (by rw [hx])

theorem exec_rollbackChange {call : Call Addr} (h : exec digests inv call s = .ok t) :
    RollbackChange s t := by
  by_cases hwrites : call.writesRecovery = false
  · have hsame := (exec_frame h).2.1 hwrites
    exact .same (by rw [hsame]) (by rw [hsame])
  · cases call with
    | recovery call =>
      simp only [exec, bind_eq_ok, pure_eq_ok] at h
      obtain ⟨r, hcall, rfl⟩ := h
      exact execRecovery_rollbackChange hcall
    | emergencyRollback proposalId executor =>
      simp only [exec, bind_eq_ok, pure_eq_ok] at h
      obtain ⟨x, hcall, rfl⟩ := h
      exact emergencyRollback_rollbackChange hcall
    | rollbackToSnapshot proposalId =>
      simp only [exec, rollbackToSnapshot, bind_eq_ok, require_eq_ok, pure_eq_ok] at h
      obtain ⟨x, ⟨_, hcall, -, -, rfl⟩, rfl⟩ := h
      exact emergencyRollback_rollbackChange hcall
    | _ => simp [Call.writesRecovery] at hwrites

theorem run_rollbacksNumbered (digests : Digests) (balance : Addr → Addr → ℤ)
    (steps : List (Step Addr self)) :
    RollbacksNumbered ((machine self digests).run (deployed balance) steps) :=
  Machine.run_invariant (P := RollbacksNumbered) (fun _ _ => rfl)
    (fun _ _ _ hs h => (exec_rollbackChange h).numbered hs) steps

/-- Once a rollback has too many signers, it has them after every further run. -/
theorem run_overapproved (hs : RollbacksNumbered s) {id : ℕ} (hid : Overapproved s id)
    (later : List (Step Addr self)) : Overapproved ((machine self digests).run s later) id :=
  (Machine.run_invariant (M := machine self digests)
    (P := fun s => RollbacksNumbered s ∧ Overapproved s id) ⟨hs, hid⟩
    (fun _ _ _ hs h => ⟨(exec_rollbackChange h).numbered hs.1,
      (exec_rollbackChange h).overapproved hs.1 hs.2⟩) later).2

end Steps

section Execution

variable {Addr : Type} [DecidableEq Addr] {self : Addr} {s : State Addr}

/-- Some invocation at time `now` carries the rollback out. -/
def RollbackExecutable (home : Addr) (s : State Addr) (id now : ℕ) : Prop :=
  ∃ (inv : Invocation Addr home) (executor : Addr) (x : Book Addr × Recovery Addr × Bool),
    inv.timestamp = now ∧
    emergencyRollback inv s.custody.book s.emergency s.recovery id executor = .ok x ∧
    x.2.2 = true

/-- What an execution has checked by the time it restores the records. -/
theorem RollbackExecutable.approved {id now : ℕ} (h : RollbackExecutable self s id now) :
    ∃ rollback, s.recovery.rollback id = some rollback ∧ rollback.executed = false ∧
      rollback.rejected = false ∧ rollback.technicalSigners.length = 4 := by
  obtain ⟨inv, executor, x, -, hx, hdone⟩ := h
  obtain ⟨rollback, hfound, ⟨-, rfl⟩ | ⟨hgates, -⟩⟩ := emergencyRollback_spec hx
  · cases hdone
  · unfold rollbackGates at hgates
    split_ifs at hgates with hready
    · simp only [bind_eq_ok, expect_eq_ok, pure_eq_ok, Bool.and_eq_true] at hgates
      obtain ⟨registered, -, hsigned, -⟩ := hgates
      simp only [RollbackAuthorization.readyToExecute, Bool.and_eq_true,
        Bool.not_eq_true'] at hready
      obtain ⟨⟨⟨⟨hexecuted, hrejected⟩, -⟩, -⟩, -⟩ := hready
      simp only [RollbackAuthorization.validateTechnicalSignatures, decide_eq_true_eq] at hsigned
      exact ⟨rollback, hfound, hexecuted, hrejected, hsigned.1⟩
    · simp at hgates

theorem Overapproved.not_executable {id : ℕ} (h : Overapproved s id) (now : ℕ) :
    ¬ RollbackExecutable self s id now := by
  intro hexecutable
  obtain ⟨rollback, hfound, hlength⟩ := h
  obtain ⟨rollback', hfound', -, -, hfour⟩ := hexecutable.approved
  obtain rfl : rollback = rollback' := Option.some.inj (hfound.symm.trans hfound')
  omega

/-- The approval of another registered signer goes through and is one too many. -/
theorem approveTechnicalRollback_overapproved (digests : Digests) {inv : Invocation Addr self}
    {id now : ℕ} {signer : Addr} {rollback : EmergencyRollback Addr} {registered : List Addr}
    (hexecutable : RollbackExecutable self s id now)
    (hfound : s.recovery.rollback id = some rollback) (hsigned : inv.auth signer = true)
    (hsigners : s.emergency.signers = some registered) (hregistered : signer ∈ registered)
    (hnew : signer ∉ rollback.technicalSigners) :
    ∃ t, exec digests inv (.recovery (.approveTechnicalRollback signer id)) s = .ok t ∧
      Overapproved t id := by
  obtain ⟨rollback', hfound', hexecuted, hrejected, hfour⟩ := hexecutable.approved
  obtain rfl : rollback = rollback' := Option.some.inj (hfound.symm.trans hfound')
  have hadded : RollbackAuthorization.aggregateTechnicalApproval rollback.technicalSigners signer =
      rollback.technicalSigners ++ [signer] := by
    simp [RollbackAuthorization.aggregateTechnicalApproval, hnew]
  let approved := { rollback with
    technicalSigners := rollback.technicalSigners ++ [signer]
    technicalApprovalCount := (rollback.technicalSigners ++ [signer]).length }
  have hx : approveTechnicalRollback inv s.emergency s.recovery signer id =
      .ok (s.recovery.setRollback id approved) := by
    simp only [approveTechnicalRollback, bind_eq_ok, requireAuth_eq_ok, expect_eq_ok,
      require_eq_ok, pure_eq_ok]
    refine ⟨(), hsigned, registered, hsigners, (), ?_, rollback, hfound, (),
      ⟨hexecuted, hrejected⟩, ?_⟩
    · simpa [RollbackAuthorization.isRegisteredSigner] using hregistered
    · rw [hadded]
  refine ⟨{ s with recovery := s.recovery.setRollback id approved }, ?_, approved, ?_, ?_⟩
  · simp only [exec, execRecovery, bind_eq_ok, pure_eq_ok]
    exact ⟨_, hx, rfl⟩
  · exact Function.update_self id (some approved) s.recovery.rollback
  · show 4 < (rollback.technicalSigners ++ [signer]).length
    simp [hfour]

/-- Whenever a rollback is executable and another registered signer approves it, it is not
executable afterwards, nor ever again. -/
theorem approveTechnicalRollback_revokes (digests : Digests) (balance : Addr → Addr → ℤ)
    (steps : List (Step Addr self)) {inv : Invocation Addr self} {id now : ℕ} {signer : Addr}
    {rollback : EmergencyRollback Addr} {registered : List Addr}
    (hexecutable : RollbackExecutable self
      ((machine self digests).run (deployed balance) steps) id now)
    (hfound : ((machine self digests).run (deployed balance) steps).recovery.rollback id =
      some rollback)
    (hsigned : inv.auth signer = true)
    (hsigners : ((machine self digests).run (deployed balance) steps).emergency.signers =
      some registered)
    (hregistered : signer ∈ registered) (hnew : signer ∉ rollback.technicalSigners) :
    ∃ t, exec digests inv (.recovery (.approveTechnicalRollback signer id))
        ((machine self digests).run (deployed balance) steps) = .ok t ∧
      ∀ later now', ¬ RollbackExecutable self ((machine self digests).run t later) id now' := by
  obtain ⟨t, hx, hover⟩ := approveTechnicalRollback_overapproved digests
    hexecutable hfound hsigned hsigners hregistered hnew
  have hnumbered :=
    (exec_rollbackChange hx).numbered (run_rollbacksNumbered digests balance steps)
  exact ⟨t, hx, fun later now' => (run_overapproved hnumbered hover later).not_executable now'⟩

end Execution

/-- The state after four technical approvals and the governance approval. -/
def agreedState : State ℕ := (machine 0 lengthDigests).run (deployed learnerFunds) agreedRollback

theorem agreedState_executable : RollbackExecutable 0 agreedState 1 172800 := by
  have hdone : (emergencyRollback (grantedByAll 172800) agreedState.custody.book
      agreedState.emergency agreedState.recovery 1 11).toOption.map (fun x => x.2.2) =
      some true := by
    decide
  cases hx : emergencyRollback (grantedByAll 172800) agreedState.custody.book
      agreedState.emergency agreedState.recovery 1 11 with
  | error e =>
    rw [hx] at hdone
    cases hdone
  | ok x =>
    rw [hx] at hdone
    exact ⟨grantedByAll 172800, 11, x, rfl, hx, by simpa [Except.toOption] using hdone⟩

/-- A fifth signer approves the rollback, and with it revokes it. -/
theorem approveTechnicalRollback_revokes_agreedState :
    ∃ t, exec lengthDigests (grantedByAll 172800) (.recovery (.approveTechnicalRollback 15 1))
        agreedState = .ok t ∧
      ∀ later now', ¬ RollbackExecutable 0 ((machine 0 lengthDigests).run t later) 1 now' := by
  have hsigners : agreedState.emergency.signers = some [11, 12, 13, 14, 15, 16, 17] := rfl
  obtain ⟨rollback, hfound, -⟩ := agreedState_executable.approved
  have happroved : (agreedState.recovery.rollback 1).map EmergencyRollback.technicalSigners =
      some [11, 12, 13, 14] := by
    decide
  have hlist : rollback.technicalSigners = [11, 12, 13, 14] := by
    rw [hfound] at happroved
    simpa using happroved
  exact approveTechnicalRollback_revokes lengthDigests learnerFunds agreedRollback
    agreedState_executable hfound (by rfl) hsigners (by decide) (by rw [hlist]; decide)

/-- The rollback is executable before the fifth approval and not after it. -/
theorem fifthApproval_not_executable :
    RollbackExecutable 0 agreedState 1 172800 ∧
      ¬ RollbackExecutable 0 ((machine 0 lengthDigests).run (deployed learnerFunds)
        (agreedRollback ++ [(grantedByAll 172800, .recovery (.approveTechnicalRollback 15 1))]))
        1 172800 := by
  refine ⟨agreedState_executable, Overapproved.not_executable ?_ 172800⟩
  have hlength : (((machine 0 lengthDigests).run (deployed learnerFunds) (agreedRollback ++
      [(grantedByAll 172800, .recovery (.approveTechnicalRollback 15 1))])).recovery.rollback
        1).map (fun rollback => rollback.technicalSigners.length) = some 5 := by
    decide
  obtain ⟨rollback, hfound, hfive⟩ := Option.map_eq_some_iff.mp hlength
  exact ⟨rollback, hfound, by omega⟩

end Escrow
