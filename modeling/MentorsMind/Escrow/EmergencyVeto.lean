import MentorsMind.Escrow.EmergencySafety

/-! Who can stop an emergency action. A call that is let in and then refused is recorded as
a failure, which is final, instead of being reverted. -/
namespace Escrow
open Outcome Soroban Shared

section Execution

variable {Addr : Type}

/-- Some call of `execute_emergency_action` releases the escrow of the action. -/
def Executable [DecidableEq Addr] (home : Addr) (s : State Addr) (actionId : ℕ) : Prop :=
  ∃ (inv : Invocation Addr home) (caller : Addr) (x : Execution Addr),
    executeEmergencyAction inv s.config s.custody s.failures s.emergency caller actionId =
      .ok x ∧ x.released = true

/-- The role of emergency admin is the caller's and has not expired. -/
def IsActiveEmergencyAdmin (s : State Addr) (caller : Addr) (now : ℕ) : Prop :=
  ∃ role, s.emergency.admin = some role ∧ role.admin = caller ∧
    MultisigValidation.isEmergencyAdminActive role now = true

/-- The action, its approvals and its parameters may still be tried. -/
structure Open (em : Emergency Addr) (actionId : ℕ) (action : EmergencyAction Addr) : Prop where
  found : em.proposal actionId = some action
  not_executed : action.executed = false
  not_failed : action.failed = false
  params : em.failedParams action.paramsHash = false
  signers : ∃ registered, em.signers = some registered

variable [DecidableEq Addr] {self : Addr} {inv : Invocation Addr self} {s : State Addr}
  {actionId : ℕ} {caller : Addr}

theorem Executable.isOpen (h : Executable self s actionId) :
    ∃ action, Open s.emergency actionId action := by
  obtain ⟨inv, caller, x, hx, -⟩ := h
  simp only [executeEmergencyAction, bind_eq_ok, expect_eq_ok, require_eq_ok] at hx
  obtain ⟨-, -, action, hfound, -, hexecuted, -, hfailed, -, hparams, registered, hsigners, -⟩ :=
    hx
  exact ⟨action, hfound, hexecuted, hfailed, hparams, registered, hsigners⟩

/-- For anyone but the active emergency admin some gate is closed, whatever the time. -/
theorem executionGates_of_not_admin {b : Book Addr} {registered : List Addr}
    {action : EmergencyAction Addr}
    (houtsider : ¬ IsActiveEmergencyAdmin s caller inv.timestamp) :
    executionGates inv b s.emergency registered action caller = .ok none := by
  unfold executionGates
  split_ifs with hsigned
  · cases hrole : s.emergency.admin with
    | none => rfl
    | some role =>
      have hnot : ¬ (role.admin = caller ∧
          MultisigValidation.isEmergencyAdminActive role inv.timestamp = true ∧
          role.scope = "emergency_release") := by
        rintro ⟨hadmin, hactive, -⟩
        exact houtsider ⟨role, hrole, hadmin, hactive⟩
      simp only [if_neg hnot]
      rfl
  · rfl

/-- A signed call of an outsider is let in, and fails the action for good. -/
theorem executeEmergencyAction_of_not_admin {action : EmergencyAction Addr}
    (hopen : Open s.emergency actionId action) (hsigned : inv.auth caller = true)
    (houtsider : ¬ IsActiveEmergencyAdmin s caller inv.timestamp) :
    executeEmergencyAction inv s.config s.custody s.failures s.emergency caller actionId =
      .ok ⟨s.custody, s.failures, s.emergency.recordFailure action inv.timestamp, false⟩ := by
  obtain ⟨registered, hsigners⟩ := hopen.signers
  simp only [executeEmergencyAction, bind_eq_ok, requireAuth_eq_ok, expect_eq_ok,
    require_eq_ok]
  exact ⟨(), hsigned, action, hopen.found, (), hopen.not_executed, (), hopen.not_failed, (),
    hopen.params, registered, hsigners, none, executionGates_of_not_admin houtsider, rfl⟩

omit [DecidableEq Addr] in
/-- The parameters of a failed action stay barred, whoever proposes them. -/
theorem recordFailure_not_open {em : Emergency Addr} {action : EmergencyAction Addr} {now : ℕ}
    (hid : action.id = actionId) (action' : EmergencyAction Addr) :
    ¬ Open (em.recordFailure action now) actionId action' := by
  intro hopen
  have hfound := hopen.found
  have hfailed := hopen.not_failed
  subst hid
  obtain rfl : { action with failed := true } = action' := by
    simpa [Emergency.recordFailure, Emergency.setAudit, Emergency.setProposal] using hfound
  cases hfailed

end Execution

section Steps

variable {Addr : Type} [DecidableEq Addr] {self : Addr} {inv : Invocation Addr self}
  {s : State Addr} {caller : Addr} {actionId : ℕ}

/-- The call of an outsider either reverts, when it is not signed, or fails the action. -/
theorem apply_outsider (digests : Digests) {action : EmergencyAction Addr}
    (hopen : Open s.emergency actionId action)
    (houtsider : ¬ IsActiveEmergencyAdmin s caller inv.timestamp) :
    (inv.auth caller = false ∧
      (machine self digests).apply s (inv, .executeEmergencyAction caller actionId) = s) ∨
    (inv.auth caller = true ∧
      ((machine self digests).apply s
        (inv, .executeEmergencyAction caller actionId)).emergency =
        s.emergency.recordFailure action inv.timestamp) := by
  by_cases hsigned : inv.auth caller = true
  · have hx : (machine self digests).exec (inv, .executeEmergencyAction caller actionId) s =
        .ok (s.afterExecution ⟨s.custody, s.failures,
          s.emergency.recordFailure action inv.timestamp, false⟩) := by
      show exec digests inv (.executeEmergencyAction caller actionId) s = _
      simp only [exec, bind_eq_ok, pure_eq_ok]
      exact ⟨_, executeEmergencyAction_of_not_admin hopen hsigned houtsider, rfl⟩
    exact .inr ⟨hsigned, by rw [Machine.apply_ok hx]; rfl⟩
  · have hunsigned : inv.auth caller = false := by simpa using hsigned
    refine .inl ⟨hunsigned, ?_⟩
    rcases Machine.apply_cases (machine self digests) s
      (inv, .executeEmergencyAction caller actionId) with ⟨t, hx, -⟩ | ⟨e, -, hsame⟩
    · have hx' : exec digests inv (.executeEmergencyAction caller actionId) s = .ok t := hx
      simp only [exec, bind_eq_ok] at hx'
      obtain ⟨x, hexecute, -⟩ := hx'
      obtain ⟨_, hattempt⟩ := executeEmergencyAction_spec hexecute
      exact absurd hattempt.auth hsigned
    · exact hsame

/-- After the call of anyone but the active emergency admin an executable action is still
executable exactly when the call was not signed, and so reverted. -/
theorem executable_after_outsider_iff (digests : Digests) (balance : Addr → Addr → ℤ)
    (steps : List (Step Addr self)) {inv : Invocation Addr self} {caller : Addr} {actionId : ℕ}
    (hexecutable : Executable self ((machine self digests).run (deployed balance) steps)
      actionId)
    (houtsider : ¬ IsActiveEmergencyAdmin
      ((machine self digests).run (deployed balance) steps) caller inv.timestamp) :
    Executable self ((machine self digests).run (deployed balance)
        (steps ++ [(inv, .executeEmergencyAction caller actionId)])) actionId ↔
      inv.auth caller = false := by
  obtain ⟨action, hopen⟩ := hexecutable.isOpen
  have hid := (run_actionHistory digests balance steps).1.id_eq actionId action hopen.found
  rw [Machine.run_snoc]
  rcases apply_outsider digests hopen houtsider with
    ⟨hunsigned, hsame⟩ | ⟨hsigned, hfailed⟩
  · rw [hsame]
    exact ⟨fun _ => hunsigned, fun _ => hexecutable⟩
  · constructor
    · intro hafter
      obtain ⟨action', hopen'⟩ := hafter.isOpen
      rw [hfailed] at hopen'
      exact absurd hopen' (recordFailure_not_open hid action')
    · intro hunsigned
      rw [hsigned] at hunsigned
      cases hunsigned

end Steps

/-- The state in which the emergency admin 20 can execute the action 1. -/
def approvedState : State ℕ :=
  (machine 0 lengthDigests).run (deployed learnerFunds) approvedRelease

theorem approvedState_executable : Executable 0 approvedState 1 := by
  have hdone : (executeEmergencyAction (grantedByAll 2086400) approvedState.config
      approvedState.custody approvedState.failures approvedState.emergency 20 1).toOption.map
      Execution.released = some true := by
    decide +kernel
  cases hx : executeEmergencyAction (grantedByAll 2086400) approvedState.config
      approvedState.custody approvedState.failures approvedState.emergency 20 1 with
  | error e =>
    rw [hx] at hdone
    cases hdone
  | ok x =>
    rw [hx] at hdone
    exact ⟨grantedByAll 2086400, 20, x, hx, by simpa [Except.toOption] using hdone⟩

theorem approvedState_outsider : ¬ IsActiveEmergencyAdmin approvedState 99 2086400 := by
  rintro ⟨role, hrole, hadmin, -⟩
  have hgranted : approvedState.emergency.admin.map EmergencyAdminRole.admin = some 20 := by
    decide +kernel
  rw [hrole] at hgranted
  have hadmin' : role.admin = 20 := by simpa using hgranted
  omega

theorem executable_after_outsider_iff_approvedRelease :
    Executable 0 ((machine 0 lengthDigests).run (deployed learnerFunds) (approvedRelease ++
        [(grantedByAll 2086400, .executeEmergencyAction 99 1)])) 1 ↔
      (grantedByAll 2086400).auth 99 = false :=
  executable_after_outsider_iff lengthDigests learnerFunds approvedRelease
    approvedState_executable approvedState_outsider

/-- The address 99, which is neither a signer nor the emergency admin, calls first. -/
theorem outsider_vetoes :
    Executable 0 approvedState 1 ∧
    approvedState.emergency.signers = some [11, 12, 13, 14, 15, 16, 17] ∧
    ¬ IsActiveEmergencyAdmin approvedState 99 2086400 ∧
    ¬ Executable 0 ((machine 0 lengthDigests).run (deployed learnerFunds) (approvedRelease ++
      [(grantedByAll 2086400, .executeEmergencyAction 99 1)])) 1 := by
  refine ⟨approvedState_executable, by decide +kernel, approvedState_outsider, fun h => ?_⟩
  obtain ⟨action, hopen⟩ := h.isOpen
  have hfailed : (((machine 0 lengthDigests).run (deployed learnerFunds) (approvedRelease ++
      [(grantedByAll 2086400, .executeEmergencyAction 99 1)])).emergency.proposal 1).map
      EmergencyAction.failed = some true := by
    decide +kernel
  rw [hopen.found] at hfailed
  have hnot := hopen.not_failed
  simp only [Option.map_some, Option.some.injEq] at hfailed
  rw [hfailed] at hnot
  cases hnot

end Escrow
