import MentorsMind.Escrow.Changes

/-! Isolation against the calls that move money. Only `release_funds` and the resolutions
consult the flag: what they do is all that isolation prevents. -/
namespace Escrow
open Outcome Soroban Shared

section Flag

variable {Addr : Type} [DecidableEq Addr] {self : Addr} {inv : Invocation Addr self}
  {digests : Digests} {s t : State Addr} {step : Step Addr self} {id : ℕ}

omit [DecidableEq Addr] in
def Call.isolates (id : ℕ) : Call Addr → Prop
  | .payments (.emergencyIsolateEscrow _ k) => k = id
  | _ => False

omit [DecidableEq Addr] in
def Call.recovers (id : ℕ) : Call Addr → Prop
  | .payments (.recoverIsolatedEscrow _ k) => k = id
  | _ => False

/-- The escrow was isolated in the run, and not recovered since. -/
def Isolated {home : Addr} (digests : Digests) (initial : Addr → Addr → ℤ)
    (pre : List (Step Addr home)) (id : ℕ) : Prop :=
  (machine home digests).SwitchedOn (fun step => step.2.isolates id)
    (fun step => step.2.recovers id) (deployed initial) pre

theorem exec_isolates (hcall : step.2.isolates id) (h : exec digests step.1 step.2 s = .ok t) :
    t.payments.isolated id = true := by
  obtain ⟨inv, call⟩ := step
  cases call with
  | payments call =>
    cases call with
    | emergencyIsolateEscrow admin k =>
      obtain rfl : k = id := hcall
      simp only [exec, execPayments, emergencyIsolateEscrow, bind_eq_ok, pure_eq_ok] at h
      obtain ⟨_, ⟨-, -, rfl⟩, rfl⟩ := h
      exact Function.update_self _ _ _
    | _ => exact hcall.elim
  | _ => exact hcall.elim

theorem exec_recovers (hcall : step.2.recovers id) (h : exec digests step.1 step.2 s = .ok t) :
    t.payments.isolated id = false := by
  obtain ⟨inv, call⟩ := step
  cases call with
  | payments call =>
    cases call with
    | recoverIsolatedEscrow admin k =>
      obtain rfl : k = id := hcall
      simp only [exec, execPayments, recoverIsolatedEscrow, bind_eq_ok, pure_eq_ok] at h
      obtain ⟨_, ⟨-, -, rfl⟩, rfl⟩ := h
      exact Function.update_self _ _ _
    | _ => exact hcall.elim
  | _ => exact hcall.elim

/-- Nothing else touches the flag. -/
theorem exec_isolated (hnot : ¬ step.2.isolates id) (hkept : ¬ step.2.recovers id)
    (h : exec digests step.1 step.2 s = .ok t) :
    t.payments.isolated id = s.payments.isolated id := by
  obtain ⟨inv, call⟩ := step
  cases call with
  | payments call =>
    simp only [exec, bind_eq_ok, pure_eq_ok] at h
    obtain ⟨p, hp, rfl⟩ := h
    cases call with
    | approveDisputeResolution approver k =>
      simp only [execPayments, approveDisputeResolution, bind_eq_ok, pure_eq_ok] at hp
      obtain ⟨_, ⟨-, -, rfl⟩, rfl⟩ := hp
      rfl
    | recordEvidenceCount admin k evidenceCount =>
      simp only [execPayments, recordEvidenceCount, bind_eq_ok, pure_eq_ok] at hp
      obtain ⟨-, -, rfl⟩ := hp
      rfl
    | emergencyIsolateEscrow admin k =>
      simp only [execPayments, emergencyIsolateEscrow, bind_eq_ok, pure_eq_ok] at hp
      obtain ⟨-, -, rfl⟩ := hp
      exact Function.update_of_ne (Ne.symm hnot) _ _
    | recoverIsolatedEscrow admin k =>
      simp only [execPayments, recoverIsolatedEscrow, bind_eq_ok, pure_eq_ok] at hp
      obtain ⟨-, -, rfl⟩ := hp
      exact Function.update_of_ne (Ne.symm hkept) _ _
  | disputePayment caller k reason =>
    simp only [exec, disputePayment, bind_eq_ok, pure_eq_ok] at h
    obtain ⟨_, ⟨_, -, rfl⟩, rfl⟩ := h
    rfl
  | resolveDisputeSecure admin k mentorPct =>
    simp only [exec, resolveDisputeSecure, bind_eq_ok, pure_eq_ok] at h
    obtain ⟨_, ⟨-, -, -, -, -, -, -, -, _, -, rfl⟩, rfl⟩ := h
    rfl
  | _ =>
    simp only [exec, bind_eq_ok, pure_eq_ok] at h
    obtain ⟨_, -, rfl⟩ := h
    rfl

/-- The flag says whether the escrow is isolated. -/
theorem isolated_iff {initial : Addr → Addr → ℤ} {pre : List (Step Addr self)} :
    Isolated digests initial pre id ↔
      ((machine self digests).run (deployed initial) pre).payments.isolated id = true :=
  Machine.switchedOn_iff (M := machine self digests)
    (P := fun s => s.payments.isolated id = true) Bool.false_ne_true
    (fun _ _ _ h hon => exec_isolates hon h)
    (fun _ _ _ h hoff => by rw [exec_recovers hoff h]; exact Bool.false_ne_true)
    (fun _ _ _ h hon hoff => by rw [exec_isolated hon hoff h]) pre

end Flag

section Operations

variable {Addr : Type} [DecidableEq Addr] {self : Addr} {inv : Invocation Addr self}
  {digests : Digests} {s t : State Addr} {step : Step Addr self} {id : ℕ}

/-- An action on the escrow whose execution by the caller would release. -/
def GatesOpen {home : Addr} (inv : Invocation Addr home) (s : State Addr) (caller : Addr)
    (actionId id : ℕ) : Prop :=
  ∃ action registered passed, s.emergency.proposal actionId = some action ∧
    action.escrowId = id ∧ s.emergency.signers = some registered ∧
    executionGates inv s.custody.book s.emergency registered action caller = .ok (some passed)

/-- A call on the escrow by an entry point that moves it and does not consult the flag. An
automatic release and an emergency execution only fail when their own checks do. -/
def Unguarded {home : Addr} (step : Step Addr home) (s : State Addr) (id : ℕ) : Prop :=
  match step.2 with
  | .custody (.releasePartial _ k) | .custody (.batchRelease _ k _)
  | .custody (.adminRelease k) | .custody (.dispute _ k _) | .custody (.refund k)
  | .manualRecoveryRelease k _ | .disputePayment _ k _ => k = id
  | .tryAutoRelease k => k = id ∧ ∃ e, s.custody.book.escrow k = some e ∧
      autoReleasePrechecks step.1 s.config e = true
  | .executeEmergencyAction caller actionId | .emergencyRelease caller _ _ actionId =>
      GatesOpen step.1 s caller actionId id
  | _ => False

/-- The step leaves the escrow's money and status alone. -/
structure Frozen {home : Addr} (step : Step Addr home) (s t : State Addr) (id : ℕ) : Prop where
  record : ∀ e, s.custody.book.escrow id = some e → ∃ e', t.custody.book.escrow id = some e' ∧
    e'.amount = e.amount ∧ e'.status = e.status
  tokens : step.2.escrowOf s = some id → t.custody.tokens = s.custody.tokens

omit [DecidableEq Addr] in
theorem Frozen.of_custody_eq (h : t.custody = s.custody) : Frozen step s t id :=
  ⟨fun e he => ⟨e, by rw [h, he], rfl, rfl⟩, fun _ => by rw [h]⟩

omit [DecidableEq Addr] in
theorem Frozen.of_escrow_eq (hother : step.2.escrowOf s ≠ some id)
    (h : t.custody.book.escrow id = s.custody.book.escrow id) : Frozen step s t id :=
  ⟨fun e he => ⟨e, by rw [h, he], rfl, rfl⟩, fun hcall => absurd hcall hother⟩

omit [DecidableEq Addr] in
/-- A session is worth something. -/
theorem grossOf_pos {e : EscrowRecord Addr} (he : RecordInvariant e) {n : ℕ} (hn : n ≠ 0)
    (hopen : e.sessionsCompleted + n ≠ e.totalSessions) : 0 < grossOf e n := by
  have htotal : (0 : ℤ) < e.totalSessions := by exact_mod_cast he.sessions_pos
  have hper : 1 ≤ e.quotedTokenAmount / e.totalSessions :=
    (Int.le_ediv_iff_mul_le htotal).mpr (by simpa using he.sessions_le)
  rw [grossOf, if_neg hopen]
  exact mul_pos (by omega) (by omega)

omit [DecidableEq Addr] in
/-- Every rewriting of a record shows in its amount or its status. -/
theorem RecordChange.moves {now : ℕ} {e e' : EscrowRecord Addr} (he : RecordInvariant e)
    (h : RecordChange now e e') : e'.amount ≠ e.amount ∨ e'.status ≠ e.status := by
  cases h with
  | released fee active isFee =>
    right
    rw [active]
    show EscrowStatus.released ≠ .active
    decide
  | sessions n fee active pos le isFee =>
    by_cases hlast : e.sessionsCompleted + n = e.totalSessions
    · exact .inr (by simp [afterSessions, hlast, active])
    · have hgross := grossOf_pos he pos hlast
      refine .inl ?_
      show e.amount - grossOf e n ≠ e.amount
      omega
  | disputed reason active =>
    right
    rw [active]
    show EscrowStatus.disputed ≠ .active
    decide
  | resolved mentorAmount disputed nonneg le =>
    right
    rw [disputed]
    show EscrowStatus.resolved ≠ .disputed
    decide
  | refunded live =>
    right
    intro hsame
    have hrefunded : e.status = .refunded := hsame.symm
    rw [hrefunded] at live
    exact absurd live (by decide)

omit [DecidableEq Addr] in
/-- A step that rewrites the escrow does not leave it frozen. -/
theorem Frozen.not_rewrites {now : ℕ} {e e' : EscrowRecord Addr} (hs : s.WellFormed)
    (hr : Rewrites now s.custody t.custody id e e') : ¬ Frozen step s t id := by
  intro hfrozen
  obtain ⟨e'', hfound, hamount, hstatus⟩ := hfrozen.record e hr.found
  rw [hr.escrow, Function.update_self, Option.some.injEq] at hfound
  subst hfound
  rcases hr.change.moves (hs.book.record id e hr.found) with hmoved | hmoved
  · exact hmoved hamount
  · exact hmoved hstatus

/-- An execution releases exactly when the gates are open. -/
theorem executeEmergencyAction_gates {caller : Addr} {actionId : ℕ} {x : Execution Addr}
    (hs : s.WellFormed)
    (h : executeEmergencyAction inv s.config s.custody s.failures s.emergency caller actionId =
      .ok x) (hid : (s.emergency.proposal actionId).map EmergencyAction.escrowId = some id) :
    (GatesOpen inv s caller actionId id ∧
      ∃ e e', Rewrites inv.timestamp s.custody x.custody id e e') ∨
    (¬ GatesOpen inv s caller actionId id ∧ x.custody = s.custody) := by
  simp only [executeEmergencyAction, bind_eq_ok, requireAuth_eq_ok, expect_eq_ok,
    require_eq_ok] at h
  obtain ⟨-, -, action, hfound, -, -, -, -, -, -, registered, hsigners, gates, hgates, h⟩ := h
  obtain rfl : action.escrowId = id := by simpa [hfound] using hid
  cases gates with
  | none =>
    obtain rfl := pure_eq_ok.mp h
    refine .inr ⟨?_, rfl⟩
    rintro ⟨action', registered', passed, hfound', -, hsigners', hgates'⟩
    obtain rfl : action = action' := Option.some.inj (hfound.symm.trans hfound')
    obtain rfl : registered = registered' := Option.some.inj (hsigners.symm.trans hsigners')
    rw [hgates] at hgates'
    cases hgates'
  | some passed =>
    obtain ⟨escrow, circuit⟩ := passed
    simp only [bind_eq_ok, pure_eq_ok] at h
    obtain ⟨custody, hrelease, rfl⟩ := h
    have hpassed := executionGates_eq_some hgates
    obtain ⟨e', hr⟩ := doReleaseSimple_rewrites hs.config.feeCapped hpassed.found
      (hs.book.record _ _ hpassed.found) hpassed.active hrelease
    exact .inl ⟨⟨action, registered, _, hfound, rfl, hsigners, hgates⟩, escrow, e', hr⟩

/-- An automatic release releases exactly when its prechecks pass. -/
theorem tryAutoRelease_prechecks {x : Custody Addr × Failures} (hs : s.WellFormed)
    (h : tryAutoRelease inv s.config s.custody s.failures id = .ok x) :
    ∃ e, s.custody.book.escrow id = some e ∧
      ((autoReleasePrechecks inv s.config e = true ∧
        ∃ e', Rewrites inv.timestamp s.custody x.1 id e e') ∨
      (autoReleasePrechecks inv s.config e = false ∧ x.1 = s.custody)) := by
  simp only [tryAutoRelease, bind_eq_ok, loadEscrow_eq_ok, require_eq_ok] at h
  obtain ⟨e, he, -, hactive, _, -, -, -, -, -, -, -, h⟩ := h
  refine ⟨e, he, ?_⟩
  split_ifs at h with hpassed
  · simp only [bind_eq_ok, pure_eq_ok] at h
    obtain ⟨custody, hrelease, rfl⟩ := h
    exact .inl ⟨hpassed, doRelease_rewrites hs.config.feeCapped he (hs.book.record id e he)
      hactive hrelease⟩
  · simp only [bind_eq_ok, pure_eq_ok] at h
    obtain ⟨_, -, rfl⟩ := h
    exact .inr ⟨by simpa using hpassed, rfl⟩

/-- What a call on an isolated escrow does. -/
theorem exec_onIsolated (hs : s.WellFormed) (hisolated : s.payments.isolated id = true)
    (hcall : step.2.escrowOf s = some id) (h : exec digests step.1 step.2 s = .ok t) :
    (Unguarded step s id ∧ ∃ e e', Rewrites step.1.timestamp s.custody t.custody id e e') ∨
      (¬ Unguarded step s id ∧ t.custody = s.custody) := by
  have hc := hs.config.feeCapped
  have hrecord := hs.book.record
  obtain ⟨inv, call⟩ := step
  cases call with
  | custody call =>
    simp only [exec, bind_eq_ok, pure_eq_ok] at h
    obtain ⟨custody, hexec, rfl⟩ := h
    cases call with
    | releaseFunds caller k =>
      obtain rfl : k = id := by simpa [Call.escrowOf] using hcall
      simp only [execCustody, releaseFunds, bind_eq_ok, require_eq_ok] at hexec
      obtain ⟨_, -, -, -, -, hopen, -⟩ := hexec
      rw [hisolated] at hopen
      cases hopen
    | releasePartial caller k =>
      obtain rfl : k = id := by simpa [Call.escrowOf] using hcall
      exact .inl ⟨rfl, releasePartial_rewrites hc (hrecord k) hexec⟩
    | batchRelease admin k sessions =>
      obtain rfl : k = id := by simpa [Call.escrowOf] using hcall
      exact .inl ⟨rfl, batchRelease_rewrites hc (hrecord k) hexec⟩
    | adminRelease k =>
      obtain rfl : k = id := by simpa [Call.escrowOf] using hcall
      exact .inl ⟨rfl, adminRelease_rewrites hc (hrecord k) hexec⟩
    | dispute caller k reason =>
      obtain rfl : k = id := by simpa [Call.escrowOf] using hcall
      exact .inl ⟨rfl, dispute_rewrites hexec⟩
    | resolveDispute k mentorPct =>
      obtain rfl : k = id := by simpa [Call.escrowOf] using hcall
      simp only [execCustody, resolveDispute, bind_eq_ok, require_eq_ok] at hexec
      obtain ⟨_, -, -, -, -, hopen, -⟩ := hexec
      rw [hisolated] at hopen
      cases hopen
    | refund k =>
      obtain rfl : k = id := by simpa [Call.escrowOf] using hcall
      exact .inl ⟨rfl, refund_rewrites (hrecord k) hexec⟩
    | _ => simp [Call.escrowOf] at hcall
  | tryAutoRelease k =>
    obtain rfl : k = id := by simpa [Call.escrowOf] using hcall
    simp only [exec, bind_eq_ok, pure_eq_ok] at h
    obtain ⟨x, hx, rfl⟩ := h
    obtain ⟨e, he, ⟨hpassed, hr⟩ | ⟨hfailed, hsame⟩⟩ := tryAutoRelease_prechecks hs hx
    · exact .inl ⟨⟨rfl, e, he, hpassed⟩, e, hr⟩
    · refine .inr ⟨?_, hsame⟩
      rintro ⟨-, e', he', hpassed⟩
      obtain rfl : e = e' := Option.some.inj (he.symm.trans he')
      exact Bool.false_ne_true (hfailed.symm.trans hpassed)
  | manualRecoveryRelease k reasonHash =>
    obtain rfl : k = id := by simpa [Call.escrowOf] using hcall
    simp only [exec, bind_eq_ok, pure_eq_ok] at h
    obtain ⟨x, hx, rfl⟩ := h
    exact .inl ⟨rfl, manualRecoveryRelease_rewrites hc (hrecord k) hx⟩
  | executeEmergencyAction caller actionId =>
    simp only [exec, bind_eq_ok, pure_eq_ok] at h
    obtain ⟨x, hx, rfl⟩ := h
    exact executeEmergencyAction_gates hs hx hcall
  | emergencyRelease caller k reasonHash actionId =>
    simp only [exec, bind_eq_ok, pure_eq_ok] at h
    obtain ⟨x, hx, rfl⟩ := h
    exact executeEmergencyAction_gates hs (emergencyRelease_spec hx) hcall
  | disputePayment caller k reason =>
    obtain rfl : k = id := by simpa [Call.escrowOf] using hcall
    simp only [exec, disputePayment, bind_eq_ok, pure_eq_ok] at h
    obtain ⟨_, ⟨custody, hx, rfl⟩, rfl⟩ := h
    exact .inl ⟨rfl, dispute_rewrites hx⟩
  | resolveDisputeSecure admin k mentorPct =>
    obtain rfl : k = id := by simpa [Call.escrowOf] using hcall
    simp only [exec, resolveDisputeSecure, bind_eq_ok, require_eq_ok] at h
    obtain ⟨_, ⟨-, -, -, hopen, -⟩, -⟩ := h
    rw [hisolated] at hopen
    cases hopen
  | _ => simp [Call.escrowOf] at hcall

theorem Unguarded.escrowOf (h : Unguarded step s id) : step.2.escrowOf s = some id := by
  obtain ⟨inv, call⟩ := step
  have hgates : ∀ {caller : Addr} {actionId : ℕ}, GatesOpen inv s caller actionId id →
      (s.emergency.proposal actionId).map EmergencyAction.escrowId = some id := by
    rintro caller actionId ⟨action, _, _, hfound, hid, -⟩
    simp [hfound, hid]
  cases call with
  | custody call =>
    cases call with
    | releasePartial caller k => exact congrArg some h
    | batchRelease admin k sessions => exact congrArg some h
    | adminRelease k => exact congrArg some h
    | dispute caller k reason => exact congrArg some h
    | refund k => exact congrArg some h
    | _ => exact h.elim
  | tryAutoRelease k => exact congrArg some h.1
  | manualRecoveryRelease k reasonHash => exact congrArg some h
  | executeEmergencyAction caller actionId => exact hgates h
  | emergencyRelease caller k reasonHash actionId => exact hgates h
  | disputePayment caller k reason => exact congrArg some h
  | _ => exact h.elim

/-- A call on another escrow does not touch this one. -/
theorem exec_frozen_of_other (hs : s.WellFormed) (hother : step.2.escrowOf s ≠ some id)
    (hkept : step.2.rollbackProposal = none) (h : exec digests step.1 step.2 s = .ok t) :
    Frozen step s t id := by
  cases hfound : s.custody.book.escrow id with
  | none =>
    refine ⟨fun e he => ?_, fun hcall => absurd hcall hother⟩
    rw [hfound] at he
    cases he
  | some e =>
    refine .of_escrow_eq hother ?_
    cases exec_bookChange hs h with
    | unchanged same => rw [same.escrows.escrow]
    | initialized fresh book => rw [book]
    | created sessionId e₀ opens opening new session =>
      have hne : id ≠ s.custody.book.escrowCount + 1 := by
        rintro rfl
        rw [hs.book.escrow_gt _ (Nat.lt_succ_self _)] at hfound
        cases hfound
      rw [opening.escrow, Function.update_of_ne hne]
    | rewritten k e₀ e₁ call rewrites =>
      have hne : id ≠ k := by
        rintro rfl
        exact hother call
      rw [rewrites.escrow, Function.update_of_ne hne]
    | milestoneCreated m creates opening new => rw [opening.escrow]
    | milestoneRewritten k m m' rewrites => rw [rewrites.escrow]
    | restored records restores book =>
      obtain ⟨proposalId, rollback, hcall, -⟩ := restores
      rw [hkept] at hcall
      cases hcall

/-- A step leaves an isolated escrow alone exactly when it is guarded. -/
theorem frozen_iff (hs : s.WellFormed) (hisolated : s.payments.isolated id = true)
    (hkept : step.2.rollbackProposal = none) (h : exec digests step.1 step.2 s = .ok t) :
    Frozen step s t id ↔ ¬ Unguarded step s id := by
  by_cases hcall : step.2.escrowOf s = some id
  · rcases exec_onIsolated hs hisolated hcall h with ⟨hunguarded, e, e', hr⟩ | ⟨hguarded, hsame⟩
    · exact iff_of_false (Frozen.not_rewrites hs hr) (not_not.mpr hunguarded)
    · exact iff_of_true (.of_custody_eq hsame) hguarded
  · exact iff_of_true (exec_frozen_of_other hs hcall hkept h) fun hun => hcall hun.escrowOf

theorem Unguarded.keeps (h : Unguarded step s id) : step.2.rollbackProposal = none := by
  obtain ⟨inv, call⟩ := step
  cases call
  all_goals
    first
    | rfl
    | exact h.elim

end Operations

section Runs

variable {Addr : Type} [DecidableEq Addr] {self : Addr}

/-- Every call of a run but a rollback leaves an isolated escrow alone if and only if no
call on an isolated escrow is unguarded. -/
theorem isolated_frozen_iff (digests : Digests) (initial : Addr → Addr → ℤ)
    (steps : List (Step Addr self)) (id : ℕ) :
    (∀ pre step t, (machine self digests).Executes (deployed initial) steps pre step t →
      Isolated digests initial pre id → step.2.rollbackProposal = none →
      Frozen step ((machine self digests).run (deployed initial) pre) t id) ↔
    ∀ pre step t, (machine self digests).Executes (deployed initial) steps pre step t →
      Isolated digests initial pre id →
      ¬ Unguarded step ((machine self digests).run (deployed initial) pre) id := by
  constructor
  · intro hfrozen pre step t hx hisolated hunguarded
    have hstep := hfrozen pre step t hx hisolated hunguarded.keeps
    exact (frozen_iff (run_wellFormed digests initial pre) (isolated_iff.mp hisolated)
      hunguarded.keeps hx.exec_eq).mp hstep hunguarded
  · intro hguarded pre step t hx hisolated hkept
    exact (frozen_iff (run_wellFormed digests initial pre) (isolated_iff.mp hisolated) hkept
      hx.exec_eq).mpr (hguarded pre step t hx hisolated)

end Runs

/-- An escrow of 100 that the admin isolates. -/
def isolatedRun : List (Step ℕ 0) :=
  [(grantedByAll 0, .initializeEscrow 1 2 500 [9] 1),
    (grantedByAll 0, .custody (.createEscrow 4 3 100 "a" 9 0 1)),
    (grantedByAll 0, .payments (.emergencyIsolateEscrow 1 1))]

def isolatedRelease : Step ℕ 0 := (grantedByAll 0, .custody (.adminRelease 1))

/-- The admin releases the isolated escrow: it is paid out to the treasury and the mentor. -/
theorem isolatedRelease_not_frozen :
    Isolated lengthDigests learnerFunds isolatedRun 1 ∧
    ∃ t, (machine 0 lengthDigests).Executes (deployed learnerFunds)
        (isolatedRun ++ [isolatedRelease]) isolatedRun isolatedRelease t ∧
      t.custody.tokens.balance 9 0 = 0 ∧ t.custody.tokens.balance 9 4 = 95 ∧
      ¬ Frozen isolatedRelease ((machine 0 lengthDigests).run (deployed learnerFunds)
        isolatedRun) t 1 := by
  have hbefore : ((machine 0 lengthDigests).run (deployed learnerFunds)
      isolatedRun).custody.tokens.balance 9 0 = 100 := by
    decide +kernel
  have hafter : ((machine 0 lengthDigests).run (deployed learnerFunds)
        (isolatedRun ++ [isolatedRelease])).custody.tokens.balance 9 0 = 0 ∧
      ((machine 0 lengthDigests).run (deployed learnerFunds)
        (isolatedRun ++ [isolatedRelease])).custody.tokens.balance 9 4 = 95 := by
    decide +kernel
  have hne : (machine 0 lengthDigests).run (deployed learnerFunds)
      (isolatedRun ++ [isolatedRelease]) ≠
        (machine 0 lengthDigests).run (deployed learnerFunds) isolatedRun := by
    intro hsame
    rw [hsame, hbefore] at hafter
    omega
  have hisolated : Isolated lengthDigests learnerFunds isolatedRun 1 := by
    apply isolated_iff.mpr
    decide +kernel
  refine ⟨hisolated, _, Machine.executes_of_run_ne hne, hafter.1, hafter.2, ?_⟩
  intro hfrozen
  rw [hfrozen.tokens rfl, hbefore] at hafter
  omega

end Escrow
