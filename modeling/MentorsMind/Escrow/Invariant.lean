import MentorsMind.Escrow.Movements
import MentorsMind.Lib.Table

/-! What is true of the escrow contract's storage after every run from deployment. -/
namespace Escrow
open Outcome Soroban Shared

variable {Addr : Type}

/-- Before initialisation nothing is configured that could create an escrow or an admin. -/
structure Config.WellFormed (c : Config Addr) : Prop where
  feeCapped : c.FeeCapped
  no_token : c.admin = none → ∀ token, c.approvedToken token = false
  no_multisig : c.admin = none → c.multisigAdmin = none
  no_transfer : c.admin = none → c.pendingAdminTransfer = none

structure Book.WellFormed (b : Book Addr) : Prop where
  record : ∀ id e, b.escrow id = some e → RecordInvariant e
  record_id : ∀ id e, b.escrow id = some e → e.id = id
  milestone : ∀ id m, b.milestone id = some m → MilestoneInvariant m
  escrow_gt : ∀ id, b.escrowCount < id → b.escrow id = none
  milestone_gt : ∀ id, b.milestoneCount < id → b.milestone id = none

/-- A snapshot holds records that were once stored. -/
structure SnapshotInvariant (b : Book Addr) (records : List (EscrowRecord Addr)) : Prop where
  record : ∀ e ∈ records, RecordInvariant e
  id_le : ∀ e ∈ records, e.id ≤ b.escrowCount

structure State.WellFormed (s : State Addr) : Prop where
  config : s.config.WellFormed
  book : s.custody.book.WellFormed
  fresh : s.config.admin = none →
    s.custody.book.escrowCount = 0 ∧ s.custody.book.milestoneCount = 0
  snapshot : ∀ id records, s.recovery.snapshot id = some records →
    SnapshotInvariant s.custody.book records

theorem State.WellFormed.sound {s : State Addr} (hs : s.WellFormed) : Sound s where
  feeCapped := hs.config.feeCapped
  record := hs.book.record
  milestone := hs.book.milestone

theorem deployed_wellFormed (balance : Addr → Addr → ℤ) : (deployed balance).WellFormed where
  config := {
    feeCapped := by simp [deployed, emptyConfig, Config.FeeCapped]
    no_token := fun _ _ => rfl
    no_multisig := fun _ => rfl
    no_transfer := fun _ => rfl }
  book := {
    record := fun _ _ h => nomatch h
    record_id := fun _ _ h => nomatch h
    milestone := fun _ _ h => nomatch h
    escrow_gt := fun _ _ => rfl
    milestone_gt := fun _ _ => rfl }
  fresh := fun _ => ⟨rfl, rfl⟩
  snapshot := fun _ _ h => nomatch h

section Frame

/-- The calls that write the configuration. -/
def Call.writesConfig : Call Addr → Bool
  | .initializeEscrow .. | .config _ => true
  | _ => false

/-- The calls that write snapshots and rollbacks. -/
def Call.writesRecovery : Call Addr → Bool
  | .recovery _ | .emergencyRollback .. | .rollbackToSnapshot _ => true
  | _ => false

/-- The calls that write the emergency proposals, signers and roles. -/
def Call.writesEmergency : Call Addr → Bool
  | .setEmergencySigners .. | .grantEmergencyAdmin .. | .proposeEmergencyAction ..
  | .approveEmergencyAction .. | .executeEmergencyAction .. | .emergencyRelease .. => true
  | _ => false

variable [DecidableEq Addr] {self : Addr} {inv : Invocation Addr self} {digests : Digests}
  {call : Call Addr} {s t : State Addr}

/-- A call leaves the parts of the storage alone that it does not write. -/
theorem exec_frame (h : exec digests inv call s = .ok t) :
    (call.writesConfig = false → t.config = s.config) ∧
      (call.writesRecovery = false → t.recovery = s.recovery) ∧
      (call.writesEmergency = false → t.emergency = s.emergency) := by
  cases call
  all_goals
    simp only [exec, bind_eq_ok, pure_eq_ok] at h
    obtain ⟨_, -, rfl⟩ := h
    simp [Call.writesConfig, Call.writesRecovery, Call.writesEmergency, State.afterExecution,
      State.afterRollback]

end Frame

section Configuration

variable [DecidableEq Addr] {self : Addr} {inv : Invocation Addr self} {c c' : Config Addr}

@[simp] theorem requireCallerIsAdmin_eq_ok {a : Addr} {u : Unit} :
    requireCallerIsAdmin inv c a = .ok u ↔ inv.auth a = true ∧ c.admin = some a := by
  simp only [requireCallerIsAdmin, bind_eq_ok, expect_eq_ok, requireAuth_eq_ok, require_eq_ok]
  constructor
  · rintro ⟨stored, hstored, -, hauth, rfl⟩
    exact ⟨hauth, hstored⟩
  · rintro ⟨hauth, hstored⟩
    exact ⟨a, hstored, (), hauth, rfl⟩

omit [DecidableEq Addr] in
theorem Config.WellFormed.of_admin (hadmin : c.admin ≠ none) (hcapped : c.FeeCapped) :
    c.WellFormed :=
  ⟨hcapped, fun h => absurd h hadmin, fun h => absurd h hadmin, fun h => absurd h hadmin⟩

/-- Approving tokens writes nothing else. -/
theorem approveTokens_fields (c : Config Addr) (tokens : List Addr) :
    (tokens.foldl (fun c token => setTokenApproved c token true) c).admin = c.admin ∧
      (tokens.foldl (fun c token => setTokenApproved c token true) c).feeBps = c.feeBps := by
  induction tokens generalizing c with
  | nil => exact ⟨rfl, rfl⟩
  | cons token tokens ih => exact ih (setTokenApproved c token true)

theorem initializeConfig_spec {admin treasury : Addr} {feeBps delay : ℕ}
    {approvedTokens : List Addr}
    (h : initializeConfig c admin treasury feeBps approvedTokens delay = .ok c') :
    c.admin = none ∧ c'.admin ≠ none ∧ c'.FeeCapped := by
  simp only [initializeConfig, bind_eq_ok, require_eq_ok, pure_eq_ok] at h
  obtain ⟨-, hfresh, -, hmax, rfl⟩ := h
  refine ⟨hfresh, ?_, ?_⟩
  · rw [(approveTokens_fields _ _).1]
    simp
  · rw [Config.FeeCapped, (approveTokens_fields _ _).2]
    simpa using hmax

omit [DecidableEq Addr] in
/-- A setter that leaves the admin and the flat rate as they are. -/
private theorem setter_spec {a : Addr} (hfee : c.FeeCapped) (hadmin : c.admin = some a)
    (hadmin' : c'.admin = c.admin) (hfee' : c'.feeBps = c.feeBps) :
    c.admin ≠ none ∧ c'.admin ≠ none ∧ c'.FeeCapped :=
  ⟨by simp [hadmin], by simp [hadmin', hadmin], by rw [Config.FeeCapped, hfee']; exact hfee⟩

/-- The configuration is written only once there is an admin, who is never removed. -/
theorem execConfig_spec {call : ConfigCall Addr} (hc : c.WellFormed)
    (h : execConfig inv call c = .ok c') :
    c.admin ≠ none ∧ c'.admin ≠ none ∧ c'.FeeCapped := by
  have hfee := hc.feeCapped
  cases call with
  | acceptAdminRole newAdmin =>
    simp only [execConfig, acceptAdminRole, bind_eq_ok, requireAuth_eq_ok, expect_eq_ok,
      require_eq_ok, pure_eq_ok] at h
    obtain ⟨-, -, pending, hpending, -, -, -, -, -, -, rfl⟩ := h
    exact ⟨fun hnone => by simp [hc.no_transfer hnone] at hpending, by simp, hfee⟩
  | revokeAdminEmergency newAdmin =>
    simp only [execConfig, revokeAdminEmergency, bind_eq_ok, requireAuth_eq_ok, expect_eq_ok,
      pure_eq_ok] at h
    obtain ⟨multisig, hmultisig, -, -, rfl⟩ := h
    exact ⟨fun hnone => by simp [hc.no_multisig hnone] at hmultisig, by simp, hfee⟩
  | updateFee newFeeBps =>
    simp only [execConfig, updateFee, bind_eq_ok, storedAdmin_eq_ok, require_eq_ok,
      pure_eq_ok] at h
    obtain ⟨a, ⟨hadmin, -⟩, -, hmax, rfl⟩ := h
    exact ⟨by simp [hadmin], by simp [hadmin], by simpa [Config.FeeCapped] using hmax⟩
  | proposeAdminChange newAdmin =>
    simp only [execConfig, proposeAdminChange, bind_eq_ok, storedAdmin_eq_ok, require_eq_ok,
      pure_eq_ok] at h
    obtain ⟨a, ⟨hadmin, -⟩, _, -, -, -, _, -, rfl⟩ := h
    exact setter_spec hfee hadmin rfl rfl
  | setLiquidityPool poolAddress =>
    simp only [execConfig, setLiquidityPool, bind_eq_ok, storedAdmin_eq_ok,
      pure_eq_ok] at h
    obtain ⟨a, ⟨hadmin, -⟩, rfl⟩ := h
    exact setter_spec hfee hadmin rfl rfl
  | setDynamicFeeEnabled enabled =>
    simp only [execConfig, setDynamicFeeEnabled, bind_eq_ok, storedAdmin_eq_ok,
      pure_eq_ok] at h
    obtain ⟨a, ⟨hadmin, -⟩, rfl⟩ := h
    exact setter_spec hfee hadmin rfl rfl
  | updateTreasury newTreasury =>
    simp only [execConfig, updateTreasury, bind_eq_ok, storedAdmin_eq_ok,
      pure_eq_ok] at h
    obtain ⟨a, ⟨hadmin, -⟩, rfl⟩ := h
    exact setter_spec hfee hadmin rfl rfl
  | setApprovedToken token approved =>
    simp only [execConfig, setApprovedToken, bind_eq_ok, storedAdmin_eq_ok,
      pure_eq_ok] at h
    obtain ⟨a, ⟨hadmin, -⟩, rfl⟩ := h
    exact setter_spec hfee hadmin rfl rfl
  | setFeeSchedule admin schedule =>
    simp only [execConfig, setFeeSchedule, bind_eq_ok, requireCallerIsAdmin_eq_ok,
      pure_eq_ok] at h
    obtain ⟨-, ⟨-, hadmin⟩, -, -, rfl⟩ := h
    exact setter_spec hfee hadmin rfl rfl
  | updateFeeSchedule admin t0 t1 t2 t3 threshold discount =>
    simp only [execConfig, updateFeeSchedule, bind_eq_ok, requireCallerIsAdmin_eq_ok, expect_eq_ok,
      pure_eq_ok] at h
    obtain ⟨-, ⟨-, hadmin⟩, _, -, -, -, rfl⟩ := h
    exact setter_spec hfee hadmin rfl rfl
  | setInterfaceRegistry admin registry =>
    simp only [execConfig, setInterfaceRegistry, bind_eq_ok, requireCallerIsAdmin_eq_ok,
      pure_eq_ok] at h
    obtain ⟨-, ⟨-, hadmin⟩, rfl⟩ := h
    exact setter_spec hfee hadmin rfl rfl
  | setStakingContract admin staking =>
    simp only [execConfig, setStakingContract, bind_eq_ok, requireCallerIsAdmin_eq_ok,
      pure_eq_ok] at h
    obtain ⟨-, ⟨-, hadmin⟩, -, -, rfl⟩ := h
    exact setter_spec hfee hadmin rfl rfl
  | setReputationContract admin reputation =>
    simp only [execConfig, setReputationContract, bind_eq_ok, requireCallerIsAdmin_eq_ok,
      pure_eq_ok] at h
    obtain ⟨-, ⟨-, hadmin⟩, -, -, rfl⟩ := h
    exact setter_spec hfee hadmin rfl rfl
  | setInsuranceContract admin insurance =>
    simp only [execConfig, setInsuranceContract, bind_eq_ok, requireCallerIsAdmin_eq_ok,
      pure_eq_ok] at h
    obtain ⟨-, ⟨-, hadmin⟩, -, -, rfl⟩ := h
    exact setter_spec hfee hadmin rfl rfl
  | setMultisigAdmin admin multisigAdmin =>
    simp only [execConfig, setMultisigAdmin, bind_eq_ok, requireCallerIsAdmin_eq_ok,
      pure_eq_ok] at h
    obtain ⟨-, ⟨-, hadmin⟩, rfl⟩ := h
    exact setter_spec hfee hadmin rfl rfl
  | setGovernanceContract admin governance =>
    simp only [execConfig, setGovernanceContract, bind_eq_ok, requireCallerIsAdmin_eq_ok,
      pure_eq_ok] at h
    obtain ⟨-, ⟨-, hadmin⟩, rfl⟩ := h
    exact setter_spec hfee hadmin rfl rfl

end Configuration

section Snapshots

theorem mem_collectRecords {b : Book Addr} {e : EscrowRecord Addr} {n id : ℕ}
    (h : e ∈ collectRecords b n id) : ∃ k, b.escrow k = some e := by
  induction n generalizing id with
  | zero => simp [collectRecords] at h
  | succ n ih =>
    simp only [collectRecords, List.mem_append, Option.mem_toList] at h
    obtain h | h := h
    · exact ⟨id, h⟩
    · exact ih h

theorem restoreRecords_counts (b : Book Addr) (records : List (EscrowRecord Addr)) :
    (restoreRecords b records).milestone = b.milestone ∧
      (restoreRecords b records).escrowCount = b.escrowCount ∧
      (restoreRecords b records).milestoneCount = b.milestoneCount := by
  induction records generalizing b with
  | nil => exact ⟨rfl, rfl, rfl⟩
  | cons r records ih => exact ih (b.setEscrow r.id r)

/-- A rollback leaves a record as it is, or takes it from the snapshot. -/
theorem restoreRecords_escrow (b : Book Addr) (records : List (EscrowRecord Addr)) (id : ℕ) :
    (restoreRecords b records).escrow id = b.escrow id ∨
      ∃ r ∈ records, r.id = id ∧ (restoreRecords b records).escrow id = some r := by
  induction records generalizing b with
  | nil => exact .inl rfl
  | cons r records ih =>
    have hcons : restoreRecords b (r :: records) = restoreRecords (b.setEscrow r.id r) records :=
      rfl
    rw [hcons]
    obtain h | ⟨r', hmem, hid, h⟩ := ih (b.setEscrow r.id r)
    · by_cases hid : r.id = id
      · exact .inr ⟨r, by simp, hid, by rw [h, ← hid]; simp⟩
      · exact .inl (by rw [h, Book.setEscrow_escrow, Function.update_of_ne (Ne.symm hid)])
    · exact .inr ⟨r', by simp [hmem], hid, h⟩

/-- What holds of every stored record and of the restored ones holds after the rollback. -/
theorem forall_restoreRecords {b : Book Addr} {records : List (EscrowRecord Addr)}
    {P : ℕ → EscrowRecord Addr → Prop} (hb : ∀ id e, b.escrow id = some e → P id e)
    (hrecords : ∀ r ∈ records, P r.id r) :
    ∀ id e, (restoreRecords b records).escrow id = some e → P id e := by
  intro id e he
  obtain hsame | ⟨r, hr, rfl, hrestored⟩ := restoreRecords_escrow b records id
  · exact hb id e (hsame ▸ he)
  · obtain rfl : r = e := by simpa [hrestored] using he
    exact hrecords r hr

variable [DecidableEq Addr] {self : Addr} {inv : Invocation Addr self} {digests : Digests}

theorem snapshotState_spec {c : Config Addr} {b : Book Addr} {r r' : Recovery Addr}
    {admin : Addr} {snapshotId : ℕ}
    (h : snapshotState inv digests c b r admin snapshotId = .ok r') {id : ℕ}
    {records : List (EscrowRecord Addr)} (hid : r'.snapshot id = some records) :
    r.snapshot id = some records ∨ records = collectRecords b b.escrowCount 1 := by
  simp only [snapshotState, bind_eq_ok, requireCallerIsAdmin_eq_ok, pure_eq_ok] at h
  obtain ⟨-, -, rfl⟩ := h
  by_cases hnew : id = snapshotId
  · subst hnew
    simp only [Function.update_self, Option.some.injEq] at hid
    exact .inr hid.symm
  · simp only [Function.update_of_ne hnew] at hid
    left
    cases hevict : (pushSnapshotIndex r.snapshotIndex snapshotId).2 with
    | none => simpa [hevict] using hid
    | some oldId =>
      simp only [hevict] at hid
      by_cases hold : id = oldId
      · simp [hold] at hid
      · simpa [Function.update_of_ne hold] using hid

theorem execRecovery_snapshot {s : State Addr} {call : RecoveryCall Addr} {r' : Recovery Addr}
    (h : execRecovery inv digests s call = .ok r') {id : ℕ}
    {records : List (EscrowRecord Addr)} (hid : r'.snapshot id = some records) :
    s.recovery.snapshot id = some records ∨
      records = collectRecords s.custody.book s.custody.book.escrowCount 1 := by
  cases call with
  | snapshotState admin snapshotId => exact snapshotState_spec h hid
  | proposeEmergencyRollback proposer snapshotId oldWasmHash scope justification =>
    simp only [execRecovery, proposeEmergencyRollback, bind_eq_ok, pure_eq_ok] at h
    obtain ⟨_, ⟨-, -, -, -, _, -, _, -, rfl⟩, rfl⟩ := h
    exact .inl hid
  | proposeRollback proposer snapshotId oldWasmHash =>
    simp only [execRecovery, proposeRollback, proposeEmergencyRollback, bind_eq_ok,
      pure_eq_ok] at h
    obtain ⟨_, ⟨-, -, -, -, _, -, _, -, rfl⟩, rfl⟩ := h
    exact .inl hid
  | approveTechnicalRollback signer proposalId =>
    simp only [execRecovery, approveTechnicalRollback, bind_eq_ok, pure_eq_ok] at h
    obtain ⟨-, -, _, -, -, -, _, -, -, -, rfl⟩ := h
    exact .inl hid
  | linkGovernanceRollbackReview governance rollbackId governanceProposalId =>
    simp only [execRecovery, linkGovernanceRollbackReview, bind_eq_ok, pure_eq_ok] at h
    obtain ⟨-, -, _, -, rfl⟩ := h
    exact .inl hid
  | markGovRollbackApproved governance rollbackId governanceProposalId =>
    simp only [execRecovery, markGovRollbackApproved, bind_eq_ok, pure_eq_ok] at h
    obtain ⟨-, -, _, -, -, -, rfl⟩ := h
    exact .inl hid
  | preserveAuditData proposalId =>
    simp only [execRecovery, bind_eq_ok, pure_eq_ok] at h
    obtain ⟨x, hpreserve, rfl⟩ := h
    exact .inl (preserveAuditData_snapshot hpreserve ▸ hid)

/-- A snapshot that is stored after a call was there before, or was just taken. -/
theorem exec_snapshot {call : Call Addr} {s t : State Addr}
    (h : exec digests inv call s = .ok t) {id : ℕ} {records : List (EscrowRecord Addr)}
    (hid : t.recovery.snapshot id = some records) :
    s.recovery.snapshot id = some records ∨ (t.custody = s.custody ∧
      records = collectRecords s.custody.book s.custody.book.escrowCount 1) := by
  by_cases hwrites : call.writesRecovery = false
  · exact .inl ((exec_frame h).2.1 hwrites ▸ hid)
  · cases call with
    | recovery call =>
      simp only [exec, bind_eq_ok, pure_eq_ok] at h
      obtain ⟨r', hcall, rfl⟩ := h
      obtain hold | hnew := execRecovery_snapshot hcall hid
      · exact .inl hold
      · exact .inr ⟨rfl, hnew⟩
    | emergencyRollback proposalId executor =>
      simp only [exec, bind_eq_ok, pure_eq_ok] at h
      obtain ⟨x, hcall, rfl⟩ := h
      exact .inl (emergencyRollback_snapshot hcall ▸ hid)
    | rollbackToSnapshot proposalId =>
      simp only [exec, rollbackToSnapshot, bind_eq_ok, require_eq_ok, pure_eq_ok] at h
      obtain ⟨x, ⟨_, hcall, -, -, rfl⟩, rfl⟩ := h
      exact .inl (emergencyRollback_snapshot hcall ▸ hid)
    | _ => simp [Call.writesRecovery] at hwrites

end Snapshots

section Preservation

variable [DecidableEq Addr] {self : Addr} {inv : Invocation Addr self} {digests : Digests}
  {s t : State Addr} {step : Step Addr self}

omit [DecidableEq Addr] in
theorem collectRecords_invariant {b : Book Addr} (hb : b.WellFormed) :
    SnapshotInvariant b (collectRecords b b.escrowCount 1) where
  record e he := by
    obtain ⟨k, hk⟩ := mem_collectRecords he
    exact hb.record k e hk
  id_le e he := by
    obtain ⟨k, hk⟩ := mem_collectRecords he
    rw [hb.record_id k e hk]
    by_contra hgt
    simp [hb.escrow_gt k (by omega)] at hk

/-- The configuration stays well formed, and an admin is never removed. -/
theorem exec_config {call : Call Addr} (hs : s.WellFormed)
    (h : exec digests inv call s = .ok t) :
    t.config.WellFormed ∧ (t.config.admin = none → s.config.admin = none) := by
  by_cases hwrites : call.writesConfig = false
  · rw [(exec_frame h).1 hwrites]
    exact ⟨hs.config, id⟩
  · cases call with
    | initializeEscrow admin treasury feeBps approvedTokens delay =>
      simp only [exec, bind_eq_ok, pure_eq_ok] at h
      obtain ⟨c, hinit, rfl⟩ := h
      obtain ⟨hfresh, hadmin, hcapped⟩ := initializeConfig_spec hinit
      exact ⟨.of_admin hadmin hcapped, fun _ => hfresh⟩
    | config call =>
      simp only [exec, bind_eq_ok, pure_eq_ok] at h
      obtain ⟨c, hcall, rfl⟩ := h
      obtain ⟨-, hadmin, hcapped⟩ := execConfig_spec hs.config hcall
      exact ⟨.of_admin hadmin hcapped, fun hnone => absurd hnone hadmin⟩
    | _ => simp [Call.writesConfig] at hwrites

theorem Movement.escrowCount_le (hs : s.WellFormed) (h : Movement step s t) :
    s.custody.book.escrowCount ≤ t.custody.book.escrowCount := by
  cases h with
  | idle book => rw [book.escrowCount]
  | initialized fresh book => rw [(hs.fresh fresh).1]; exact Nat.zero_le _
  | opened e approved opening => rw [opening.escrowCount]; exact Nat.le_succ _
  | settled id e e' gross settlement => rw [settlement.escrowCount]
  | milestoneOpened m approved opening => rw [opening.escrowCount]
  | milestoneSettled id m m' gross settlement => rw [settlement.escrowCount]
  | rolledBack records restores book =>
    rw [book, (restoreRecords_counts _ _).2.1]

theorem Movement.book_wellFormed (hs : s.WellFormed) (h : Movement step s t) :
    t.custody.book.WellFormed := by
  have hb := hs.book
  cases h with
  | idle book =>
    constructor
    · rw [book.escrow]; exact hb.record
    · rw [book.escrow]; exact hb.record_id
    · rw [book.milestone]; exact hb.milestone
    · rw [book.escrow, book.escrowCount]; exact hb.escrow_gt
    · rw [book.milestone, book.milestoneCount]; exact hb.milestone_gt
  | initialized fresh book =>
    obtain ⟨hescrow, hmilestone⟩ := hs.fresh fresh
    rw [book]
    exact ⟨hb.record, hb.record_id, hb.milestone, by rw [← hescrow]; exact hb.escrow_gt,
      by rw [← hmilestone]; exact hb.milestone_gt⟩
  | opened e approved opening =>
    constructor
    · rw [opening.escrow]
      exact Table.forall_update hb.record opening.invariant
    · rw [opening.escrow]
      exact Table.forall_update hb.record_id opening.id_eq
    · rw [opening.milestone]; exact hb.milestone
    · rw [opening.escrow, opening.escrowCount]
      intro id hid
      rw [Function.update_of_ne (by omega)]
      exact hb.escrow_gt id (by omega)
    · rw [opening.milestone, opening.milestoneCount]; exact hb.milestone_gt
  | settled id e e' gross settlement progress =>
    constructor
    · rw [settlement.escrow]
      exact Table.forall_update hb.record progress.invariant
    · rw [settlement.escrow]
      exact Table.forall_update hb.record_id
        (progress.id_eq.trans (hb.record_id id e settlement.found))
    · rw [settlement.milestone]; exact hb.milestone
    · rw [settlement.escrow, settlement.escrowCount]
      exact Table.none_update hb.escrow_gt settlement.found
    · rw [settlement.milestone, settlement.milestoneCount]; exact hb.milestone_gt
  | milestoneOpened m approved opening =>
    constructor
    · rw [opening.escrow]; exact hb.record
    · rw [opening.escrow]; exact hb.record_id
    · rw [opening.milestone]
      exact Table.forall_update hb.milestone opening.invariant
    · rw [opening.escrow, opening.escrowCount]; exact hb.escrow_gt
    · rw [opening.milestone, opening.milestoneCount]
      intro id hid
      rw [Function.update_of_ne (by omega)]
      exact hb.milestone_gt id (by omega)
  | milestoneSettled id m m' gross settlement =>
    constructor
    · rw [settlement.escrow]; exact hb.record
    · rw [settlement.escrow]; exact hb.record_id
    · rw [settlement.milestone]
      exact Table.forall_update hb.milestone settlement.invariant
    · rw [settlement.escrow, settlement.escrowCount]; exact hb.escrow_gt
    · rw [settlement.milestone, settlement.milestoneCount]
      exact Table.none_update hb.milestone_gt settlement.found
  | rolledBack records restores book =>
    obtain ⟨hmilestone, hcount, hmilestoneCount⟩ :=
      restoreRecords_counts s.custody.book records
    obtain ⟨_, rollback, -, -, -, hfound⟩ := restores
    have hsnapshot := hs.snapshot rollback.snapshotId records hfound
    rw [book]
    constructor
    · exact forall_restoreRecords hb.record hsnapshot.record
    · exact forall_restoreRecords hb.record_id fun _ _ => rfl
    · rw [hmilestone]; exact hb.milestone
    · rw [hcount]
      intro id hgt
      obtain hsame | ⟨r, hr, hid, -⟩ := restoreRecords_escrow s.custody.book records id
      · rw [hsame]; exact hb.escrow_gt id hgt
      · have hle := hsnapshot.id_le r hr
        omega
    · rw [hmilestone, hmilestoneCount]; exact hb.milestone_gt

theorem exec_wellFormed {call : Call Addr} (hs : s.WellFormed)
    (h : exec digests inv call s = .ok t) : t.WellFormed := by
  have hmove := exec_movement hs.sound h
  have hbook := hmove.book_wellFormed hs
  have hcount := hmove.escrowCount_le hs
  obtain ⟨hconfig, hkept⟩ := exec_config hs h
  refine ⟨hconfig, hbook, fun hnone => ?_, fun id records hid => ?_⟩
  · have hfresh := hs.fresh (hkept hnone)
    have htoken := hs.config.no_token (hkept hnone)
    cases hmove with
    | idle book => rw [book.escrowCount, book.milestoneCount]; exact hfresh
    | initialized fresh book => rw [book]; exact ⟨rfl, rfl⟩
    | opened e approved => simp [htoken] at approved
    | settled id e e' gross settlement =>
      rw [settlement.escrowCount, settlement.milestoneCount]; exact hfresh
    | milestoneOpened m approved => simp [htoken] at approved
    | milestoneSettled id m m' gross settlement =>
      rw [settlement.escrowCount, settlement.milestoneCount]; exact hfresh
    | rolledBack records restores book =>
      obtain ⟨-, he, hm⟩ := restoreRecords_counts s.custody.book records
      rw [book, he, hm]; exact hfresh
  · obtain hold | ⟨hsame, rfl⟩ := exec_snapshot h hid
    · have hsnapshot := hs.snapshot id records hold
      exact ⟨hsnapshot.record, fun e he => (hsnapshot.id_le e he).trans hcount⟩
    · rw [hsame]
      exact collectRecords_invariant hs.book

theorem run_wellFormed (digests : Digests) (balance : Addr → Addr → ℤ)
    (steps : List (Step Addr self)) :
    ((machine self digests).run (deployed balance) steps).WellFormed :=
  Machine.run_invariant (deployed_wellFormed balance)
    (fun _ _ _ hs h => exec_wellFormed hs h) steps

end Preservation

end Escrow
