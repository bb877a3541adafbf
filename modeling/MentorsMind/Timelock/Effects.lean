import MentorsMind.Timelock.Contract

/-! What a successful call of the timelock does, said once. -/
namespace Timelock
open Outcome Soroban Shared

variable {Addr Val : Type} [DecidableEq Addr] {self : Addr} {digests : Digests Addr Val}

/-- The operation that a payload describes, not done yet. -/
def Payload.operation {Addr Val : Type} (p : Payload Addr Val) : Operation Addr Val :=
  ⟨p.caller, p.target, p.function, p.args, p.readyAt, false⟩

/-- What `schedule` hashes in the state `s`. -/
def payload (s : State Addr Val) (now : ℕ) (caller target : Addr) (function : String)
    (args : List Val) (delay : ℕ) (salt : Hash) : Payload Addr Val :=
  ⟨caller, target, function, args, now + delay, s.opCount + 1, salt⟩

/-- The window in which an operation may be executed. -/
def InWindow (now readyAt : ℕ) : Prop :=
  readyAt + timestampToleranceSecs ≤ now ∧ now < readyAt + operationExpirySecs

inductive Effect (digests : Digests Addr Val) (step : Step Addr Val self)
    (s t : State Addr Val) : Prop
  | initialized (admin : Addr) (call : step.2 = .initializeTimelock admin)
      (fresh : s.admin = none)
      (eq : t = { s with admin := some admin, opCount := 0, operationCount := 0 })
  | scheduled (caller target : Addr) (function : String) (args : List Val) (delay : ℕ)
      (salt : Hash) (p : Payload Addr Val)
      (call : step.2 = .schedule caller target function args delay salt)
      (initialized : s.admin ≠ none) (le : minDelay ≤ delay) (ge : delay ≤ maxDelay)
      (auth : step.1.auth caller = true)
      (payload : p = payload s step.1.timestamp caller target function args delay salt)
      (eq : t = { s.setOp (digests.operation p) p.operation with
        opCount := s.opCount + 1
        operationIndex := Function.update s.operationIndex s.operationCount
          (some (digests.operation p))
        operationCount := s.operationCount + 1 })
  | executed (operationId : Hash) (op : Operation Addr Val)
      (call : step.2 = .execute operationId) (found : s.op operationId = some op)
      (pending : op.done = false) (window : InWindow step.1.timestamp op.readyAt)
      (eq : t = { s.setOp operationId { op with done := true } with
        invoked := ⟨op.target, op.function, op.args⟩ :: s.invoked })
  | cancelled (operationId : Hash) (op : Operation Addr Val) (admin : Addr)
      (call : step.2 = .cancel operationId) (found : s.op operationId = some op)
      (pending : op.done = false) (stored : s.admin = some admin)
      (auth : step.1.auth admin = true) (eq : t = s.cancelOp operationId op)
  | overridden (guardian : Addr) (operationId reasonHash : Hash) (op : Operation Addr Val)
      (audit : GuardianActionAudit Addr)
      (call : step.2 = .emergencyCancel guardian operationId reasonHash)
      (registered : s.guardianMultisig = some guardian) (auth : step.1.auth guardian = true)
      (found : s.op operationId = some op) (pending : op.done = false)
      (recent : (recentOverrides step.1.timestamp
        (s.guardianOverrideTimestamps guardian)).length < maxGuardianOverridesPerPeriod)
      (eq : t = { s with
        guardianOverrideTimestamps := Function.update s.guardianOverrideTimestamps guardian
          (recentOverrides step.1.timestamp (s.guardianOverrideTimestamps guardian) ++
            [step.1.timestamp])
        guardianAudit := Function.update s.guardianAudit audit.actionId (some audit)
        guardianAuditCount := s.guardianAuditCount + 1 }.cancelOp operationId op)
  | guardianSet (admin newGuardian : Addr) (call : step.2 = .setGuardianMultisig admin newGuardian)
      (initialized : s.guardianMultisig = none → s.admin ≠ none)
      (eq : t = { s with guardianMultisig := some newGuardian })
  | adminTransferred (admin newAdmin : Addr) (call : step.2 = .transferAdmin newAdmin)
      (stored : s.admin = some admin) (auth : step.1.auth admin = true)
      (eq : t = { s with admin := some newAdmin })

variable {inv : Invocation Addr Val self} {step : Step Addr Val self} {s t : State Addr Val}

omit [DecidableEq Addr] in
/-- The checks of `execute` on the clock, where the addition of the expiry must not overflow. -/
theorem inWindow_of_checks {now readyAt : ℕ}
    (hready : saturatingAddU64 readyAt timestampToleranceSecs ≤ now)
    (hfits : readyAt + operationExpirySecs < 2 ^ 64) (hlt : now < readyAt + operationExpirySecs) :
    InWindow now readyAt := by
  refine ⟨?_, hlt⟩
  unfold saturatingAddU64 timestampToleranceSecs at hready
  unfold operationExpirySecs at hfits
  unfold timestampToleranceSecs
  omega

omit [DecidableEq Addr] in
theorem execute_spec {operationId : Hash} (h : execute inv s operationId = .ok t) :
    ∃ op, s.op operationId = some op ∧ op.done = false ∧ InWindow inv.timestamp op.readyAt ∧
      t = { s.setOp operationId { op with done := true } with
        invoked := ⟨op.target, op.function, op.args⟩ :: s.invoked } := by
  simp only [execute, bind_eq_ok, require_eq_ok, expect_eq_ok, checkedU64_eq_ok, pure_eq_ok] at h
  obtain ⟨op, hfound, -, hdone, -, hready, expiry, ⟨hfits, rfl⟩, -, hlt, -, -, rfl⟩ := h
  exact ⟨op, hfound, hdone, inWindow_of_checks hready hfits hlt, rfl⟩

/-- Whoever proposed, it is the admin who has to sign. -/
theorem cancel_eq_ok {operationId : Hash} : cancel inv s operationId = .ok t ↔
    ∃ op admin, s.op operationId = some op ∧ op.done = false ∧ s.admin = some admin ∧
      inv.auth admin = true ∧ s.cancelOp operationId op = t := by
  simp only [cancel, bind_eq_ok, require_eq_ok, expect_eq_ok]
  have hsigned : ∀ (op : Operation Addr Val) (admin : Addr),
      (if op.proposer ≠ admin then do
          requireAuth inv.toEnv admin
          pure (s.cancelOp operationId op)
        else do
          requireAuth inv.toEnv op.proposer
          pure (s.cancelOp operationId op)) = .ok t ↔
        inv.auth admin = true ∧ s.cancelOp operationId op = t := by
    intro op admin
    by_cases hproposer : op.proposer = admin
    · simp [hproposer]
    · simp [hproposer]
  constructor
  · rintro ⟨op, hfound, -, hdone, admin, hadmin, h⟩
    exact ⟨op, admin, hfound, hdone, hadmin, (hsigned op admin).mp h⟩
  · rintro ⟨op, admin, hfound, hdone, hadmin, h⟩
    exact ⟨op, hfound, (), hdone, admin, hadmin, (hsigned op admin).mpr h⟩

omit [DecidableEq Addr] in
theorem isOperationReady_eq_ok {now : ℕ} {operationId : Hash} :
    isOperationReady now s operationId = .ok true ↔ ∃ op, s.op operationId = some op ∧
      op.done = false ∧ saturatingAddU64 op.readyAt timestampToleranceSecs ≤ now ∧
      op.readyAt + operationExpirySecs < 2 ^ 64 ∧ now < op.readyAt + operationExpirySecs := by
  simp only [isOperationReady, bind_eq_ok, expect_eq_ok]
  refine exists_congr fun op => and_congr_right fun _ => ?_
  cases hdone : op.done with
  | true => simp
  | false => simp [isExecutable]

omit [DecidableEq Addr] in
/-- An operation that is reported ready can be executed unless its target refuses the call,
and no other can. -/
theorem execute_isOk_iff {operationId : Hash} : (∃ t, execute inv s operationId = .ok t) ↔
    isOperationReady inv.timestamp s operationId = .ok true ∧
      ∀ op, s.op operationId = some op →
        inv.accepts ⟨op.target, op.function, op.args⟩ = true := by
  rw [isOperationReady_eq_ok]
  simp only [execute, bind_eq_ok, require_eq_ok, expect_eq_ok, checkedU64_eq_ok, pure_eq_ok]
  constructor
  · rintro ⟨t, op, hfound, -, hdone, -, hready, expiry, ⟨hfits, rfl⟩, -, hlt, -, haccepts, -⟩
    refine ⟨⟨op, hfound, hdone, hready, hfits, hlt⟩, ?_⟩
    intro op' hfound'
    obtain rfl : op = op' := Option.some.inj (hfound.symm.trans hfound')
    exact haccepts
  · rintro ⟨⟨op, hfound, hdone, hready, hfits, hlt⟩, haccepts⟩
    exact ⟨_, op, hfound, (), hdone, (), hready, _, ⟨hfits, rfl⟩, (), hlt, (),
      haccepts op hfound, rfl⟩

omit [DecidableEq Addr] in
/-- An operation is scheduled exactly when its delay is valid and its ready time fits, the
caller signs, and no counter overflows. -/
theorem schedule_isOk_iff {caller target : Addr} {function : String} {args : List Val}
    {delay : ℕ} {salt : Hash} :
    (∃ r, schedule digests inv s caller target function args delay salt = .ok r) ↔
      s.admin ≠ none ∧ isValidDelay delay = true ∧ inv.auth caller = true ∧
        (computeReadyAt inv.timestamp delay).isSome = true ∧ s.opCount + 1 < 2 ^ 64 ∧
        s.operationCount + 1 < 2 ^ 32 := by
  have hvalid : isValidDelay delay = true ↔ minDelay ≤ delay ∧ delay ≤ maxDelay := by
    simp [isValidDelay]
  have hready : (computeReadyAt inv.timestamp delay).isSome = true ↔
      inv.timestamp + delay < 2 ^ 64 := by
    unfold computeReadyAt
    split_ifs with hfits
    · exact iff_of_true rfl hfits
    · exact iff_of_false (by simp) hfits
  rw [hvalid, hready]
  simp only [schedule, bind_eq_ok, require_eq_ok, requireAuth_eq_ok, u64_eq_ok,
    checkedU64_eq_ok, checkedU32_eq_ok, pure_eq_ok]
  constructor
  · rintro ⟨r, -, hadmin, -, hdelay, -, hauth, count, ⟨hcount, rfl⟩, readyAt, ⟨hfits, rfl⟩,
      operationCount, ⟨hoperations, rfl⟩, -⟩
    exact ⟨hadmin, hdelay, hauth, hfits, hcount, hoperations⟩
  · rintro ⟨hadmin, hdelay, hauth, hfits, hcount, hoperations⟩
    exact ⟨_, (), hadmin, (), hdelay, (), hauth, _, ⟨hcount, rfl⟩, _, ⟨hfits, rfl⟩, _,
      ⟨hoperations, rfl⟩, rfl⟩

theorem exec_effect (h : exec digests step.1 step.2 s = .ok t) : Effect digests step s t := by
  obtain ⟨inv, call⟩ := step
  cases call with
  | initializeTimelock admin =>
    simp only [exec, initializeTimelock, bind_eq_ok, require_eq_ok, pure_eq_ok] at h
    obtain ⟨-, hfresh, rfl⟩ := h
    exact .initialized admin rfl hfresh rfl
  | schedule caller target function args delay salt =>
    simp only [exec, schedule, bind_eq_ok, require_eq_ok, requireAuth_eq_ok, u64_eq_ok,
      checkedU64_eq_ok, checkedU32_eq_ok, pure_eq_ok] at h
    obtain ⟨-, ⟨-, hadmin, -, ⟨hle, hge⟩, -, hauth, count, ⟨-, rfl⟩, readyAt, ⟨-, rfl⟩,
      operationCount, ⟨-, rfl⟩, rfl⟩, rfl⟩ := h
    exact .scheduled caller target function args delay salt _ rfl hadmin hle hge hauth rfl rfl
  | execute operationId =>
    obtain ⟨op, hfound, hdone, hwindow, rfl⟩ := execute_spec h
    exact .executed operationId op rfl hfound hdone hwindow rfl
  | cancel operationId =>
    obtain ⟨op, admin, hfound, hdone, hadmin, hauth, rfl⟩ := cancel_eq_ok.mp h
    exact .cancelled operationId op admin rfl hfound hdone hadmin hauth rfl
  | emergencyCancel guardianMultisig operationId reasonHash =>
    simp only [exec, emergencyCancel, validateGuardianOverrideLimit, recordGuardianAction,
      bind_eq_ok, require_eq_ok, requireAuth_eq_ok, expect_eq_ok, u32_eq_ok, pure_eq_ok] at h
    obtain ⟨guardian, hguardian, -, rfl, -, hauth, -, -, op, hfound, -, hdone, limited,
      ⟨-, hlimit, rfl⟩, audited, ⟨auditCount, ⟨-, rfl⟩, rfl⟩, rfl⟩ := h
    have hpending : op.done = false := by simpa [canTransition] using hdone
    have hrecent : (recentOverrides inv.timestamp
        (s.guardianOverrideTimestamps guardianMultisig)).length <
          maxGuardianOverridesPerPeriod := by
      simpa [isGuardianOverrideWithinLimit] using hlimit
    exact .overridden guardianMultisig operationId reasonHash op
      ⟨digests.action guardianMultisig operationId (s.guardianAuditCount + 1), guardianMultisig,
        operationId, reasonHash, inv.timestamp,
        saturatingAddU64 inv.timestamp guardianVetoPeriodSecs, 0, 0, false⟩
      rfl hguardian hauth hfound hpending hrecent rfl
  | setGuardianMultisig admin newGuardian =>
    cases hguardian : s.guardianMultisig with
    | some currentGuardian =>
      simp only [exec, setGuardianMultisig, hguardian, bind_eq_ok, require_eq_ok,
        requireAuth_eq_ok, expect_eq_ok, pure_eq_ok] at h
      obtain ⟨-, -, -, -, -, -, -, -, -, -, rfl⟩ := h
      exact .guardianSet admin newGuardian rfl (by simp [hguardian]) rfl
    | none =>
      simp only [exec, setGuardianMultisig, hguardian, bind_eq_ok, require_eq_ok,
        requireAuth_eq_ok, expect_eq_ok, pure_eq_ok] at h
      obtain ⟨storedAdmin, hadmin, h⟩ := h
      obtain ⟨-, -, -, -, -, -, -, -, -, -, rfl⟩ := h
      exact .guardianSet admin newGuardian rfl (by simp [hadmin]) rfl
  | transferAdmin newAdmin =>
    simp only [exec, transferAdmin, bind_eq_ok, requireAuth_eq_ok, expect_eq_ok, pure_eq_ok] at h
    obtain ⟨admin, hadmin, -, hauth, rfl⟩ := h
    exact .adminTransferred admin newAdmin rfl hadmin hauth rfl

end Timelock
