import MentorsMind.Escrow.Invariant

/-! What has happened by the time an emergency action moves money: who approved it, when it
was proposed, and that it can happen only once. -/
namespace Escrow
open Outcome Soroban Shared

variable {Addr : Type} [DecidableEq Addr]

omit [DecidableEq Addr] in
/-- The caller and the action of an emergency execution. -/
def Call.emergencyExecution : Call Addr → Option (Addr × ℕ)
  | .executeEmergencyAction caller actionId => some (caller, actionId)
  | .emergencyRelease caller _ _ actionId => some (caller, actionId)
  | _ => none

/-- The step proposes the action under the next free id, for an active escrow. -/
structure Proposes {home : Addr} (step : Step Addr home) (s : State Addr)
    (action : EmergencyAction Addr) : Prop where
  call : step.2 = .proposeEmergencyAction action.proposer action.escrowId action.reasonHash
  auth : step.1.auth action.proposer = true
  registered : ∃ registered ∈ s.emergency.signers, action.proposer ∈ registered
  id_eq : action.id = s.emergency.proposalCount + 1
  proposedAt_eq : action.proposedAt = step.1.timestamp
  executeAfter_eq : action.executeAfter = action.proposedAt + emergencyTimelockSecs
  escrow : ∃ e, s.custody.book.escrow action.escrowId = some e ∧ e.status = .active ∧
    e.amount = action.amount

/-- By this step the registered signer `a` agrees to the action `id`. -/
structure Approves {home : Addr} (step : Step Addr home) (s : State Addr) (id : ℕ) (a : Addr) :
    Prop where
  auth : step.1.auth a = true
  registered : ∃ registered ∈ s.emergency.signers, a ∈ registered
  call : step.2 = .approveEmergencyAction a id ∨ ∃ escrowId reasonHash,
    step.2 = .proposeEmergencyAction a escrowId reasonHash ∧ id = s.emergency.proposalCount + 1

omit [DecidableEq Addr] in
/-- What an approval or an attempt leaves of an action. -/
structure SameAction (action action' : EmergencyAction Addr) : Prop where
  id_eq : action'.id = action.id
  escrowId_eq : action'.escrowId = action.escrowId
  amount_eq : action'.amount = action.amount
  proposer_eq : action'.proposer = action.proposer
  reasonHash_eq : action'.reasonHash = action.reasonHash
  proposedAt_eq : action'.proposedAt = action.proposedAt
  executeAfter_eq : action'.executeAfter = action.executeAfter
  executed : action.executed = true → action'.executed = true
  failed : action.failed = true → action'.failed = true

omit [DecidableEq Addr] in
theorem SameAction.trans {a b c : EmergencyAction Addr} (h : SameAction a b)
    (h' : SameAction b c) : SameAction a c where
  id_eq := h'.id_eq.trans h.id_eq
  escrowId_eq := h'.escrowId_eq.trans h.escrowId_eq
  amount_eq := h'.amount_eq.trans h.amount_eq
  proposer_eq := h'.proposer_eq.trans h.proposer_eq
  reasonHash_eq := h'.reasonHash_eq.trans h.reasonHash_eq
  proposedAt_eq := h'.proposedAt_eq.trans h.proposedAt_eq
  executeAfter_eq := h'.executeAfter_eq.trans h.executeAfter_eq
  executed := fun hx => h'.executed (h.executed hx)
  failed := fun hx => h'.failed (h.failed hx)

/-- What a successful step does to the proposed actions. -/
inductive ProposalChange {home : Addr} (step : Step Addr home) (s t : State Addr) : Prop
  | same (proposal : t.emergency.proposal = s.emergency.proposal)
      (count : t.emergency.proposalCount = s.emergency.proposalCount)
  | proposed (action : EmergencyAction Addr) (proposes : Proposes step s action)
      (signers : action.signers = [action.proposer])
      (proposal : t.emergency.proposal =
        Function.update s.emergency.proposal (s.emergency.proposalCount + 1) (some action))
      (count : t.emergency.proposalCount = s.emergency.proposalCount + 1)
  | updated (id : ℕ) (action action' : EmergencyAction Addr)
      (found : s.emergency.proposal id = some action) (same : SameAction action action')
      (signers : ∀ a ∈ action'.signers, a ∈ action.signers ∨ Approves step s id a)
      (proposal : t.emergency.proposal = Function.update s.emergency.proposal id (some action'))
      (count : t.emergency.proposalCount = s.emergency.proposalCount)

/-- Actions are stored under their own ids, up to the number of proposals. -/
structure Emergency.WellFormed (em : Emergency Addr) : Prop where
  id_eq : ∀ id action, em.proposal id = some action → action.id = id
  gt : ∀ id, em.proposalCount < id → em.proposal id = none

variable {self : Addr} {inv : Invocation Addr self} {digests : Digests} {s t : State Addr}
  {step : Step Addr self} {initial : Addr → Addr → ℤ}

theorem exec_emergencyExecution {caller : Addr} {actionId : ℕ}
    (hcall : step.2.emergencyExecution = some (caller, actionId))
    (h : exec digests step.1 step.2 s = .ok t) :
    ∃ action x, Attempt step.1 s.config s.custody s.failures s.emergency caller actionId
      action x ∧ t = s.afterExecution x := by
  obtain ⟨inv, call⟩ := step
  cases call with
  | executeEmergencyAction caller' actionId' =>
    obtain ⟨rfl, rfl⟩ : caller' = caller ∧ actionId' = actionId := by
      simpa [Call.emergencyExecution] using hcall
    simp only [exec, bind_eq_ok, pure_eq_ok] at h
    obtain ⟨x, hx, rfl⟩ := h
    obtain ⟨action, hattempt⟩ := executeEmergencyAction_spec hx
    exact ⟨action, x, hattempt, rfl⟩
  | emergencyRelease caller' escrowId reasonHash actionId' =>
    obtain ⟨rfl, rfl⟩ : caller' = caller ∧ actionId' = actionId := by
      simpa [Call.emergencyExecution] using hcall
    simp only [exec, bind_eq_ok, pure_eq_ok] at h
    obtain ⟨x, hx, rfl⟩ := h
    obtain ⟨action, hattempt⟩ := executeEmergencyAction_spec (emergencyRelease_spec hx)
    exact ⟨action, x, hattempt, rfl⟩
  | _ => simp [Call.emergencyExecution] at hcall

/-- An attempt marks the action, as executed or as failed, and nothing else. -/
theorem Attempt.proposalChange {caller : Addr} {actionId : ℕ} {action : EmergencyAction Addr}
    {x : Execution Addr} (hs : s.emergency.WellFormed)
    (h : Attempt step.1 s.config s.custody s.failures s.emergency caller actionId action x) :
    ProposalChange step s (s.afterExecution x) := by
  obtain rfl | ⟨_, _, circuit, -, -, -, hem, -⟩ := h.outcome
  · have hid := hs.id_eq actionId action h.found
    refine .updated actionId action { action with failed := true } h.found ?_
      (fun a ha => .inl ha) ?_ rfl
    · exact ⟨rfl, rfl, rfl, rfl, rfl, rfl, rfl, id, fun _ => rfl⟩
    · rw [← hid]
      rfl
  · refine .updated actionId action { action with executed := true } h.found ?_
      (fun a ha => .inl ha) ?_ ?_
    · exact ⟨rfl, rfl, rfl, rfl, rfl, rfl, rfl, fun _ => rfl, id⟩
    · simp only [State.afterExecution, hem]
      rfl
    · simp only [State.afterExecution, hem]
      rfl

theorem mem_aggregateSignatures {approvals : List Addr} {signer a : Addr}
    (h : a ∈ MultisigValidation.aggregateSignatures approvals signer) :
    a ∈ approvals ∨ a = signer := by
  unfold MultisigValidation.aggregateSignatures at h
  split_ifs at h
  · exact .inl h
  · simpa using h

theorem exec_proposalChange (hs : s.emergency.WellFormed)
    (h : exec digests step.1 step.2 s = .ok t) : ProposalChange step s t := by
  by_cases hwrites : step.2.writesEmergency = false
  · have hsame := (exec_frame h).2.2 hwrites
    exact .same (by rw [hsame]) (by rw [hsame])
  by_cases hexecution : step.2.emergencyExecution = none
  · obtain ⟨inv, call⟩ := step
    cases call with
    | setEmergencySigners admin signers =>
      simp only [exec, setEmergencySigners, bind_eq_ok, pure_eq_ok] at h
      obtain ⟨_, ⟨-, -, -, -, rfl⟩, rfl⟩ := h
      exact .same rfl rfl
    | grantEmergencyAdmin admin emergencyAdmin =>
      simp only [exec, grantEmergencyAdmin, bind_eq_ok, pure_eq_ok] at h
      obtain ⟨_, ⟨-, -, _, -, rfl⟩, rfl⟩ := h
      exact .same rfl rfl
    | proposeEmergencyAction proposer escrowId reasonHash =>
      simp only [exec, proposeEmergencyAction, MultisigValidation.computeExecuteAfter,
        bind_eq_ok, requireAuth_eq_ok, expect_eq_ok, require_eq_ok, checkedU64_eq_ok,
        safeAddU32_eq_ok, pure_eq_ok] at h
      obtain ⟨_, ⟨-, hauth, registered, hregistered, -, hsigner, _, -, -, -, e, he, -, hactive,
        -, -, _, ⟨-, rfl⟩, _, ⟨-, rfl⟩, rfl⟩, rfl⟩ := h
      refine .proposed _ ?_ ?_ rfl rfl
      · exact {
          call := rfl
          auth := hauth
          registered := ⟨registered, hregistered,
            by simpa [MultisigValidation.isEmergencySigner] using hsigner⟩
          id_eq := rfl
          proposedAt_eq := rfl
          executeAfter_eq := rfl
          escrow := ⟨e, he, hactive, rfl⟩ }
      · simp [MultisigValidation.aggregateSignatures]
    | approveEmergencyAction signer actionId =>
      simp only [exec, approveEmergencyAction, bind_eq_ok, requireAuth_eq_ok, expect_eq_ok,
        require_eq_ok, pure_eq_ok] at h
      obtain ⟨_, ⟨-, hauth, registered, hregistered, -, hsigner, action, hfound, -, -, -, -, -,
        -, -, -, rfl⟩, rfl⟩ := h
      refine .updated actionId action _ hfound ?_ ?_ rfl rfl
      · exact ⟨rfl, rfl, rfl, rfl, rfl, rfl, rfl, id, id⟩
      · intro a ha
        obtain hold | rfl := mem_aggregateSignatures ha
        · exact .inl hold
        · exact .inr ⟨hauth, ⟨registered, hregistered,
            by simpa [MultisigValidation.isEmergencySigner] using hsigner⟩, .inl rfl⟩
    | _ => simp [Call.writesEmergency, Call.emergencyExecution] at hwrites hexecution
  · obtain ⟨⟨caller, actionId⟩, hcall⟩ := Option.ne_none_iff_exists'.mp hexecution
    obtain ⟨action, x, hattempt, rfl⟩ := exec_emergencyExecution hcall h
    exact hattempt.proposalChange hs

omit [DecidableEq Addr] in
theorem ProposalChange.wellFormed (h : ProposalChange step s t) (hs : s.emergency.WellFormed) :
    t.emergency.WellFormed := by
  cases h with
  | same proposal count =>
    exact ⟨by rw [proposal]; exact hs.id_eq, by rw [proposal, count]; exact hs.gt⟩
  | proposed action proposes signers proposal count =>
    rw [← proposes.id_eq] at proposal count
    refine ⟨fun id action' hid => ?_, fun id hgt => ?_⟩
    · rw [proposal] at hid
      obtain ⟨rfl, rfl⟩ | ⟨-, hold⟩ := Table.update_eq_some_iff.mp hid
      · rfl
      · exact hs.id_eq id action' hold
    · have hnext := proposes.id_eq
      rw [proposal, Function.update_of_ne (by omega)]
      exact hs.gt id (by omega)
  | updated id action action' found same signers proposal count =>
    refine ⟨fun k action'' hk => ?_, fun k hgt => ?_⟩
    · rw [proposal] at hk
      obtain ⟨rfl, rfl⟩ | ⟨-, hold⟩ := Table.update_eq_some_iff.mp hk
      · exact same.id_eq.trans (hs.id_eq k action found)
      · exact hs.id_eq k action'' hold
    · have hold := hs.gt k (count ▸ hgt)
      have hne : k ≠ id := by
        rintro rfl
        simp [hold] at found
      rw [proposal, Function.update_of_ne hne]
      exact hold

omit [DecidableEq Addr] in
/-- An action that was proposed stays, and its marks stay on it. -/
theorem ProposalChange.sameAction (h : ProposalChange step s t) (hs : s.emergency.WellFormed)
    {id : ℕ} {action : EmergencyAction Addr} (hid : s.emergency.proposal id = some action) :
    ∃ action', t.emergency.proposal id = some action' ∧ SameAction action action' := by
  have hrefl : SameAction action action :=
    ⟨rfl, rfl, rfl, rfl, rfl, rfl, rfl, fun h => h, fun h => h⟩
  cases h with
  | same proposal => exact ⟨action, by rw [proposal, hid], hrefl⟩
  | proposed new proposes signers proposal =>
    rw [← proposes.id_eq] at proposal
    have hne : id ≠ new.id := by
      rintro rfl
      have hnext := proposes.id_eq
      simp [hs.gt new.id (by omega)] at hid
    exact ⟨action, by rw [proposal, Function.update_of_ne hne, hid], hrefl⟩
  | updated k old new found same signers proposal =>
    by_cases heq : id = k
    · subst heq
      obtain rfl : old = action := Option.some.inj (found.symm.trans hid)
      exact ⟨new, by rw [proposal]; simp, same⟩
    · exact ⟨action, by rw [proposal, Function.update_of_ne heq, hid], hrefl⟩

section Runs

/-- How an action came to be in the run of `pre`: one of its steps proposed it, and each of
its signers agreed in one. -/
structure ActionHistory {home : Addr} (digests : Digests) (initial : Addr → Addr → ℤ)
    (pre : List (Step Addr home)) (action : EmergencyAction Addr) : Prop where
  proposed : ∃ before step after proposal,
    (machine home digests).Executes (deployed initial) pre before step after ∧
    Proposes step ((machine home digests).run (deployed initial) before) proposal ∧
    SameAction proposal action
  approved : ∀ a ∈ action.signers, ∃ before step after,
    (machine home digests).Executes (deployed initial) pre before step after ∧
    Approves step ((machine home digests).run (deployed initial) before) action.id a

theorem ActionHistory.snoc {pre : List (Step Addr self)} {action : EmergencyAction Addr}
    (h : ActionHistory digests initial pre action) (step : Step Addr self) :
    ActionHistory digests initial (pre ++ [step]) action := by
  constructor
  · obtain ⟨before, step', after, proposal, hx, hproposed⟩ := h.proposed
    exact ⟨before, step', after, proposal, hx.append [step], hproposed⟩
  · intro a ha
    obtain ⟨before, step', after, hx, happroved⟩ := h.approved a ha
    exact ⟨before, step', after, hx.append [step], happroved⟩

/-- A step that succeeds extends the history of every action it leaves. -/
theorem ActionHistory.exec {pre : List (Step Addr self)} {step : Step Addr self}
    (hs : ((machine self digests).run (deployed initial) pre).emergency.WellFormed)
    (hhistory : ∀ id action,
      ((machine self digests).run (deployed initial) pre).emergency.proposal id = some action →
      ActionHistory digests initial pre action)
    (hx : (machine self digests).exec step ((machine self digests).run (deployed initial) pre) =
      .ok t) {id : ℕ} {action : EmergencyAction Addr}
    (hid : t.emergency.proposal id = some action) :
    ActionHistory digests initial (pre ++ [step]) action := by
  have hexecutes := Machine.executes_snoc hx
  cases exec_proposalChange hs hx with
  | same proposal => exact (hhistory id action (by rw [← proposal, hid])).snoc step
  | proposed new proposes signers proposal =>
    rw [proposal] at hid
    obtain ⟨hnew, rfl⟩ | ⟨-, hbefore⟩ := Table.update_eq_some_iff.mp hid
    · refine ⟨⟨pre, step, t, new, hexecutes, proposes, ?_⟩, fun a ha => ?_⟩
      · exact ⟨rfl, rfl, rfl, rfl, rfl, rfl, rfl, fun h => h, fun h => h⟩
      · obtain rfl : a = new.proposer := by simpa [signers] using ha
        exact ⟨pre, step, t, hexecutes, proposes.auth, proposes.registered,
          .inr ⟨_, _, proposes.call, proposes.id_eq⟩⟩
    · exact (hhistory id action hbefore).snoc step
  | updated k old new found same signers proposal =>
    rw [proposal] at hid
    obtain ⟨rfl, rfl⟩ | ⟨-, hbefore⟩ := Table.update_eq_some_iff.mp hid
    · have hold := (hhistory id old found).snoc step
      obtain ⟨before, step', after, first, hfirst, hproposes, hsame⟩ := hold.proposed
      refine ⟨⟨before, step', after, first, hfirst, hproposes, hsame.trans same⟩, ?_⟩
      intro a ha
      rw [same.id_eq]
      obtain hbefore | hnow := signers a ha
      · exact hold.approved a hbefore
      · exact ⟨pre, step, t, hexecutes, by rw [hs.id_eq id old found]; exact hnow⟩
    · exact (hhistory id action hbefore).snoc step

theorem run_actionHistory (digests : Digests) (initial : Addr → Addr → ℤ)
    (pre : List (Step Addr self)) :
    let s := (machine self digests).run (deployed initial) pre
    s.emergency.WellFormed ∧ ∀ id action, s.emergency.proposal id = some action →
      ActionHistory digests initial pre action := by
  induction pre using List.reverseRecOn with
  | nil =>
    refine ⟨⟨?_, fun _ _ => rfl⟩, ?_⟩
    · intro _ _ h
      cases h
    · intro _ _ h
      cases h
  | append_singleton pre step ih =>
    obtain ⟨hs, hhistory⟩ := ih
    rw [Machine.run_snoc]
    obtain ⟨t, hx, ht⟩ | ⟨e, -, ht⟩ := Machine.apply_cases (machine self digests)
      ((machine self digests).run (deployed initial) pre) step
    · rw [ht]
      exact ⟨(exec_proposalChange hs hx).wellFormed hs,
        fun id action hid => .exec hs hhistory hx hid⟩
    · rw [ht]
      exact ⟨hs, fun id action hid => (hhistory id action hid).snoc step⟩

/-- What was proposed stays proposed for the rest of the run. -/
theorem run_sameAction {pre later : List (Step Addr self)} (hlater : pre <+: later) {id : ℕ}
    {action : EmergencyAction Addr}
    (hid : ((machine self digests).run (deployed initial) pre).emergency.proposal id =
      some action) :
    ∃ action', ((machine self digests).run (deployed initial) later).emergency.proposal id =
      some action' ∧ SameAction action action' := by
  obtain ⟨post, rfl⟩ := hlater
  induction post using List.reverseRecOn with
  | nil =>
    rw [List.append_nil]
    exact ⟨action, hid, rfl, rfl, rfl, rfl, rfl, rfl, rfl, fun h => h, fun h => h⟩
  | append_singleton post step ih =>
    obtain ⟨action', hid', hsame⟩ := ih
    have hs := (run_actionHistory digests initial (pre ++ post)).1
    rw [← List.append_assoc, Machine.run_snoc]
    obtain ⟨t, hx, ht⟩ | ⟨-, -, ht⟩ := Machine.apply_cases (machine self digests)
      ((machine self digests).run (deployed initial) (pre ++ post)) step
    · rw [ht]
      obtain ⟨action'', hid'', hsame'⟩ := (exec_proposalChange hs hx).sameAction hs hid'
      exact ⟨action'', hid'', hsame.trans hsame'⟩
    · rw [ht]
      exact ⟨action', hid', hsame⟩

/-- The step executes the action `actionId`, and tokens move. -/
structure MovesFunds {home : Addr} (digests : Digests) (initial : Addr → Addr → ℤ)
    (steps pre : List (Step Addr home)) (step : Step Addr home) (caller : Addr)
    (actionId : ℕ) : Prop where
  call : step.2.emergencyExecution = some (caller, actionId)
  moves : ∃ t, (machine home digests).Executes (deployed initial) steps pre step t ∧
    t.custody.tokens ≠ ((machine home digests).run (deployed initial) pre).custody.tokens

/-- Everything that an emergency release rests on: four distinct approvals by signers who are
still registered, a proposal at least 24 hours old, the active emergency admin, and an escrow
that is active with the proposed amount. -/
structure Justified {home : Addr} (digests : Digests) (initial : Addr → Addr → ℤ)
    (pre : List (Step Addr home)) (step : Step Addr home) (caller : Addr) (actionId : ℕ)
    (action : EmergencyAction Addr) : Prop where
  found : ((machine home digests).run (deployed initial) pre).emergency.proposal actionId =
    some action
  distinct : action.signers.length = 4 ∧ action.signers.Nodup
  approved : ∀ a ∈ action.signers,
    (∃ registered ∈ ((machine home digests).run (deployed initial) pre).emergency.signers,
      a ∈ registered) ∧
    ∃ before earlier after,
      (machine home digests).Executes (deployed initial) pre before earlier after ∧
      Approves earlier ((machine home digests).run (deployed initial) before) actionId a
  timelock : ∃ before earlier after proposal,
    (machine home digests).Executes (deployed initial) pre before earlier after ∧
    Proposes earlier ((machine home digests).run (deployed initial) before) proposal ∧
    proposal.id = actionId ∧ SameAction proposal action ∧
    earlier.1.timestamp + 24 * 60 * 60 ≤ step.1.timestamp
  emergencyAdmin : step.1.auth caller = true ∧
    ∃ role ∈ ((machine home digests).run (deployed initial) pre).emergency.admin,
      role.admin = caller ∧ step.1.timestamp < role.expiresAt
  escrow : ∃ e, ((machine home digests).run (deployed initial) pre).custody.book.escrow
      action.escrowId = some e ∧ e.status = .active ∧ e.amount = action.amount

variable {steps pre : List (Step Addr self)} {step : Step Addr self} {caller : Addr}
  {actionId : ℕ}

/-- An execution that moves tokens went through the gates, and marks its action. -/
theorem MovesFunds.released (h : MovesFunds digests initial steps pre step caller actionId) :
    ∃ action registered escrow,
      let s := (machine self digests).run (deployed initial) pre
      s.emergency.proposal actionId = some action ∧ action.executed = false ∧
      step.1.auth caller = true ∧ s.emergency.signers = some registered ∧
      GatesPassed step.1 s.custody.book s.emergency registered action caller escrow ∧
      ((machine self digests).run (deployed initial) (pre ++ [step])).emergency.proposal
        actionId = some { action with executed := true } := by
  obtain ⟨t, hx, hmoved⟩ := h.moves
  obtain ⟨action, x, hattempt, rfl⟩ := exec_emergencyExecution h.call hx.exec_eq
  obtain rfl | ⟨registered, escrow, circuit, hsigners, hgates, -, hem, -⟩ := hattempt.outcome
  · exact absurd rfl hmoved
  · refine ⟨action, registered, escrow, hattempt.found, hattempt.not_executed, hattempt.auth,
      hsigners, hgates, ?_⟩
    rw [hx.run_eq]
    simp [State.afterExecution, hem, Emergency.afterRelease, Emergency.setAudit,
      Emergency.setProposal]

theorem MovesFunds.justified (h : MovesFunds digests initial steps pre step caller actionId) :
    ∃ action, Justified digests initial pre step caller actionId action := by
  obtain ⟨action, registered, escrow, hfound, -, hauth, hsigners, hgates, -⟩ := h.released
  obtain ⟨hs, hhistory⟩ := run_actionHistory digests initial pre
  have hid := hs.id_eq actionId action hfound
  have haction := hhistory actionId action hfound
  obtain ⟨hlength, hregistered, hnodup⟩ :=
    MultisigValidation.validateEmergencySignatures_iff.mp hgates.signatures
  obtain ⟨before, earlier, after, proposal, hexecutes, hproposes, hsame⟩ := haction.proposed
  obtain ⟨role, hrole, hadmin, hactive⟩ := hgates.emergencyAdmin
  refine ⟨action, hfound, ⟨hlength, hnodup⟩, fun a ha => ?_, ?_, ⟨hauth, role, hrole, hadmin,
    hactive⟩, escrow, hgates.found, hgates.active, hgates.amount_eq⟩
  · exact ⟨⟨registered, hsigners, hregistered a ha⟩, hid ▸ haction.approved a ha⟩
  · refine ⟨before, earlier, after, proposal, hexecutes, hproposes,
      hsame.id_eq.symm.trans hid, hsame, ?_⟩
    have htimelock := hgates.timelock
    rw [hsame.executeAfter_eq, hproposes.executeAfter_eq, hproposes.proposedAt_eq] at htimelock
    exact htimelock

/-- Tokens that moved for an action do not move for it again. -/
theorem MovesFunds.not_again {later : List (Step Addr self)} {step' : Step Addr self}
    {caller' : Addr} (h : MovesFunds digests initial steps pre step caller actionId)
    (h' : MovesFunds digests initial steps later step' caller' actionId) :
    ¬ pre.length < later.length := by
  intro hlt
  obtain ⟨t, hx, -⟩ := h.moves
  obtain ⟨t', hx', -⟩ := h'.moves
  have hprefix : pre ++ [step] <+: later :=
    List.prefix_of_prefix_length_le hx.snoc_prefix
      ((List.prefix_append later [step']).trans hx'.snoc_prefix) (by simp; omega)
  obtain ⟨action, -, -, -, -, -, -, -, hexecuted⟩ := h.released
  obtain ⟨action', -, -, hfound', hopen, -⟩ := h'.released
  obtain ⟨action'', hlater, hsame⟩ := run_sameAction hprefix hexecuted
  obtain rfl : action' = action'' := Option.some.inj (hfound'.symm.trans hlater)
  simp [hsame.executed rfl] at hopen

/-- Emergency releases are justified, happen once per action, and never after a failure. -/
theorem emergency_release_safety (digests : Digests) (initial : Addr → Addr → ℤ)
    (steps : List (Step Addr self)) :
    (∀ pre step caller actionId, MovesFunds digests initial steps pre step caller actionId →
      ∃ action, Justified digests initial pre step caller actionId action) ∧
    (∀ pre pre' step step' caller caller' actionId,
      MovesFunds digests initial steps pre step caller actionId →
      MovesFunds digests initial steps pre' step' caller' actionId → pre = pre') ∧
    ∀ pre later step t caller actionId action, pre <+: later →
      ((machine self digests).run (deployed initial) pre).emergency.proposal actionId =
        some action → action.failed = true →
      (machine self digests).Executes (deployed initial) steps later step t →
      step.2.emergencyExecution ≠ some (caller, actionId) := by
  refine ⟨fun _ _ _ _ h => h.justified, ?_, ?_⟩
  · intro pre pre' step step' caller caller' actionId h h'
    obtain ⟨t, hx, -⟩ := h.moves
    obtain ⟨t', hx', -⟩ := h'.moves
    have hlength : pre.length = pre'.length :=
      le_antisymm (not_lt.mp (h'.not_again h)) (not_lt.mp (h.not_again h'))
    exact (List.prefix_of_prefix_length_le ((List.prefix_append pre [step]).trans hx.snoc_prefix)
      ((List.prefix_append pre' [step']).trans hx'.snoc_prefix) hlength.le).eq_of_length hlength
  · intro pre later step t caller actionId action hlater hfound hfailed hx hcall
    obtain ⟨action', hfound', hsame⟩ := run_sameAction hlater hfound
    obtain ⟨attempted, x, hattempt, -⟩ := exec_emergencyExecution hcall hx.exec_eq
    obtain rfl : attempted = action' := Option.some.inj (hattempt.found.symm.trans hfound')
    have hopen := hattempt.not_failed
    simp [hsame.failed hfailed] at hopen

end Runs

/-- As `grantedByAll`, where the reputation contract traps. -/
def reputationDown (now : ℕ) : Invocation ℕ 0 :=
  { grantedByAll now with onSessionReleased := fun _ _ _ _ _ => false }

/-- Ten automatic releases of the escrow 1 that fail. -/
def failedReleases : List (Step ℕ 0) :=
  (List.range 10).map fun k => (reputationDown (100000 * (k + 1)), .tryAutoRelease 1)

/-- A stuck escrow of 10, next to one of 90, and an approved action to release it. -/
def approvedRelease : List (Step ℕ 0) :=
  ([(grantedByAll 0, .initializeEscrow 1 2 500 [9] 1),
    (grantedByAll 0, .setEmergencySigners 1 [11, 12, 13, 14, 15, 16, 17]),
    (grantedByAll 0, .config (.setReputationContract 1 30)),
    (grantedByAll 0, .custody (.createEscrow 4 3 10 "a" 9 0 1)),
    (grantedByAll 0, .custody (.createEscrow 4 3 90 "bb" 9 0 1))] : List (Step ℕ 0)) ++
  failedReleases ++
  ([(grantedByAll 2000000, .grantEmergencyAdmin 1 20),
    (grantedByAll 2000000, .proposeEmergencyAction 11 1 5),
    (grantedByAll 2000000, .approveEmergencyAction 12 1),
    (grantedByAll 2000000, .approveEmergencyAction 13 1),
    (grantedByAll 2000000, .approveEmergencyAction 14 1)] : List (Step ℕ 0))

def execution : Step ℕ 0 := (grantedByAll 2086400, .executeEmergencyAction 20 1)

theorem emergency_release_safety_approvedRelease :
    ∃ action, Justified lengthDigests learnerFunds approvedRelease execution 20 1 action := by
  have hmoved : ((machine 0 lengthDigests).run (deployed learnerFunds)
      (approvedRelease ++ [execution])).custody.tokens ≠
      ((machine 0 lengthDigests).run (deployed learnerFunds) approvedRelease).custody.tokens := by
    intro hsame
    have hbalance := congrArg (fun tokens => tokens.balance 9 0) hsame
    revert hbalance
    decide +kernel
  have hne : (machine 0 lengthDigests).run (deployed learnerFunds)
      (approvedRelease ++ [execution]) ≠
      (machine 0 lengthDigests).run (deployed learnerFunds) approvedRelease := by
    intro hsame
    exact hmoved (by rw [hsame])
  have hexecutes := Machine.executes_of_run_ne hne
  exact (emergency_release_safety lengthDigests learnerFunds
    (approvedRelease ++ [execution])).1 approvedRelease execution 20 1 ⟨rfl, _, hexecutes, hmoved⟩

end Escrow
