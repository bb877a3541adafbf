import MentorsMind.Lib.Ballot
import MentorsMind.Lib.Table
import MentorsMind.MultisigAdmin.Effects

/-! The proposals. A rollback rewinds the counter that allots their ids and leaves their records
and approvals where they are, so that the next proposals are written over old ones. -/
namespace MultisigAdmin
open Outcome Soroban Shared

variable {Addr Val : Type} {home : Addr}

/-- What a call does to the ballot of the proposal `id`. -/
def ballotEvent (id : ℕ) (s : State Addr Val) (step : Step Addr Val home) :
    Option (BallotEvent Addr) :=
  match step.2 with
  | .proposeAction proposer _ _ _ =>
      if s.proposalCount + 1 = id then some (.opened proposer) else none
  | .signAction signer actionId => if actionId = id then some (.cast signer) else none
  | _ => none

def Call.Proposes : Call Addr Val → Prop
  | .proposeAction _ _ _ _ => True
  | _ => False

def Call.Settles (id : ℕ) : Call Addr Val → Prop
  | .executeAction actionId => actionId = id
  | .cancelAction _ actionId => actionId = id
  | _ => False

/-- Whether a proposal is stored that is neither executed nor cancelled. -/
def State.active (s : State Addr Val) (id : ℕ) : Bool :=
  (s.proposal id).any fun p => !p.executed && !p.cancelled

variable [DecidableEq Addr]

/-- The call proposes an action and returns the id `id`. -/
def Allots (host : Host Addr Val) (s : State Addr Val) (step : Step Addr Val home) (id : ℕ)
    (t : State Addr Val) : Prop :=
  match step.2 with
  | .proposeAction proposer target function args =>
      proposeAction host step.1 s proposer target function args = .ok (t, id)
  | _ => False

/-- What the step does to the signers, to the threshold and to other contracts is what carrying
out the action does. -/
def CarriesOut (host : Host Addr Val) (inv : Invocation Addr Val home) (s t : State Addr Val)
    (action : Action Addr Val) : Prop :=
  ∃ v, dispatch host inv s action = .ok v ∧ t.threshold = v.threshold ∧
    t.signerCount = v.signerCount ∧ t.signer = v.signer ∧ t.invoked = v.invoked

structure ProposalsIntact (host : Host Addr Val) (steps : List (Step Addr Val home)) : Prop where
  allottedOnce : ∀ pre step t pre' step' t' id,
    (machine home host).Executes (deployed Addr Val) steps pre step t →
    (machine home host).Executes (deployed Addr Val) steps pre' step' t' →
    Allots host (reached host pre) step id t → Allots host (reached host pre') step' id t' →
    pre = pre'
  counted : ∀ pre, pre <+: steps → ∀ id p, (reached host pre).proposal id = some p →
    CountsFlags p.approvalCount ((reached host pre).approval id)
  executedOnce : ∀ pre inv t pre' inv' t' id,
    (machine home host).Executes (deployed Addr Val) steps pre (inv, .executeAction id) t →
    (machine home host).Executes (deployed Addr Val) steps pre' (inv', .executeAction id) t' →
    pre = pre'
  uncancelled : ∀ pre inv t pre' inv' caller t' id,
    (machine home host).Executes (deployed Addr Val) steps pre (inv, .executeAction id) t →
    (machine home host).Executes (deployed Addr Val) steps pre'
      (inv', .cancelAction caller id) t' → ¬ pre'.length < pre.length
  asProposed : ∀ pre inv t id,
    (machine home host).Executes (deployed Addr Val) steps pre (inv, .executeAction id) t →
    ∃ before inv' proposer target function args u,
      (machine home host).Executes (deployed Addr Val) pre before
        (inv', .proposeAction proposer target function args) u ∧
      Allots host (reached host before) (inv', .proposeAction proposer target function args) id u ∧
      inv.timestamp ≤ inv'.timestamp + expirySeconds ∧
      CarriesOut host inv (reached host pre) t ⟨target, function, args⟩
  active : ∀ pre, pre <+: steps →
    CountsFlags (reached host pre).activeProposalCount (reached host pre).active

/-- Every proposal that the run makes finds no record under its id. -/
def IdsFresh (host : Host Addr Val) (steps : List (Step Addr Val home)) : Prop :=
  ∀ pre inv call t,
    (machine home host).Executes (deployed Addr Val) steps pre (inv, call) t → call.Proposes →
    (reached host pre).proposal ((reached host pre).proposalCount + 1) = none

/-- What a step does to the proposals and their approvals. -/
inductive ProposalChange (inv : Invocation Addr Val home) (s t : State Addr Val) :
    Call Addr Val → Prop
  | proposed {proposer target : Addr} {function : String} {args : List Val}
      (proposal : t.proposal = Function.update s.proposal (s.proposalCount + 1)
        (some (newProposal s inv.timestamp proposer ⟨target, function, args⟩)))
      (approval : t.approval = approve s.approval (s.proposalCount + 1) proposer)
      (count : t.activeProposalCount = s.activeProposalCount + 1) :
      ProposalChange inv s t (.proposeAction proposer target function args)
  | signed {signer : Addr} {actionId : ℕ} (p : ProposalRecord Addr Val)
      (found : s.proposal actionId = some p) (active : p.Active)
      (first : s.approval actionId signer = false)
      (proposal : t.proposal = Function.update s.proposal actionId
        (some { p with approvalCount := p.approvalCount + 1 }))
      (approval : t.approval = approve s.approval actionId signer)
      (count : t.activeProposalCount = s.activeProposalCount) :
      ProposalChange inv s t (.signAction signer actionId)
  | settled {call : Call Addr Val} (id : ℕ) (p q : ProposalRecord Addr Val)
      (silent : ∀ id, ballotEvent id s (inv, call) = none) (found : s.proposal id = some p)
      (active : p.Active) (closed : ¬ q.Active) (action : q.action = p.action)
      (expiry : q.expiry = p.expiry) (approvals : q.approvalCount = p.approvalCount)
      (proposal : t.proposal = Function.update s.proposal id (some q))
      (approval : t.approval = s.approval)
      (count : t.activeProposalCount = s.activeProposalCount - 1) : ProposalChange inv s t call
  | restarted {call : Call Addr Val} (silent : ∀ id, ballotEvent id s (inv, call) = none)
      (fresh : s.threshold = none) (proposal : t.proposal = s.proposal)
      (approval : t.approval = s.approval) (count : t.activeProposalCount = 0) :
      ProposalChange inv s t call
  | same {call : Call Addr Val} (silent : ∀ id, ballotEvent id s (inv, call) = none)
      (proposal : t.proposal = s.proposal) (approval : t.approval = s.approval)
      (count : t.activeProposalCount = s.activeProposalCount) : ProposalChange inv s t call

variable {host : Host Addr Val} {inv : Invocation Addr Val home} {s t v : State Addr Val}
  {pre steps : List (Step Addr Val home)} {call : Call Addr Val}

theorem Effect.proposalChange (h : Effect host inv s t call) : ProposalChange inv s t call := by
  cases h with
  | initialized _ fresh _ _ _ eq =>
    subst eq
    exact .restarted (fun _ => rfl) fresh rfl rfl rfl
  | proposed _ _ _ eq =>
    subst eq
    exact .proposed rfl rfl rfl
  | signed p _ _ _ found active _ first eq =>
    subst eq
    exact .signed p found active first rfl rfl rfl
  | @executed actionId p threshold v stored found active due enough intact dispatch_eq eq =>
    obtain ⟨_, _, _, _, rfl⟩ := (dispatch_spec dispatch_eq).frame
    subst eq
    refine .settled actionId p { p with executed := true } (fun _ => rfl) found active ?_ rfl rfl
      rfl rfl rfl rfl
    exact fun hactive => absurd hactive.1 (by simp)
  | @cancelled caller actionId p initialised found active due auth eq =>
    subst eq
    refine .settled actionId p { p with cancelled := true } (fun _ => rfl) found active ?_ rfl rfl
      rfl rfl rfl rfl
    exact fun hactive => absurd hactive.2 (by simp)
  | emergencySignersSet _ _ _ _ _ eq | snapshotTaken _ _ _ _ _ _ _ eq
  | rollbackProposed _ _ _ _ _ eq | rollbackApproved _ _ _ _ _ _ _ _ eq
  | rolledBack _ _ _ _ _ _ eq =>
    subst eq
    exact .same (fun _ => rfl) rfl rfl rfl

section Origins

/-- The proposal is stored as an earlier call proposed it. -/
def ProposedIn (host : Host Addr Val) (pre : List (Step Addr Val home)) (id : ℕ)
    (p : ProposalRecord Addr Val) : Prop :=
  ∃ before inv proposer u,
    (machine home host).Executes (deployed Addr Val) pre before
      (inv, .proposeAction proposer p.target p.function p.args) u ∧
    Allots host (reached host before)
      (inv, .proposeAction proposer p.target p.function p.args) id u ∧
    p.expiry = inv.timestamp + expirySeconds

theorem ProposedIn.mono {p q : ProposalRecord Addr Val} {id : ℕ} (h : ProposedIn host pre id p)
    (hearlier : pre <+: steps) (haction : q.action = p.action) (hexpiry : q.expiry = p.expiry) :
    ProposedIn host steps id q := by
  obtain ⟨before, inv, proposer, u, hx, hallots, hdue⟩ := h
  obtain ⟨htarget, hfunction, hargs⟩ := Action.mk.inj haction
  refine ⟨before, inv, proposer, u, ?_, ?_, hexpiry.trans hdue⟩
  · rw [htarget, hfunction, hargs]
    exact hx.mono hearlier
  · rw [htarget, hfunction, hargs]
    exact hallots

/-- The id that is returned is the number after the stored one. -/
theorem allots_iff (hx : exec host inv call s = .ok t) {id : ℕ} :
    Allots host s (inv, call) id t ↔ call.Proposes ∧ id = s.proposalCount + 1 := by
  cases call with
  | proposeAction proposer target function args =>
    obtain ⟨⟨u, n⟩, hproposed, hu⟩ := bind_eq_ok.mp hx
    obtain rfl : u = t := pure_eq_ok.mp hu
    have hn : n = s.proposalCount + 1 := by
      simp only [proposeAction, bind_eq_ok, require_eq_ok, requireAuth_eq_ok, checkedU32_eq_ok,
        checkedU64_eq_ok, pure_eq_ok, Prod.mk.injEq] at hproposed
      obtain ⟨-, -, -, -, -, -, id, ⟨-, rfl⟩, active, -, expiry, -, -, rfl⟩ := hproposed
      rfl
    show proposeAction host inv s proposer target function args = .ok (u, id) ↔ True ∧ _
    rw [hproposed, Except.ok.injEq, Prod.mk.injEq, hn, true_and, and_iff_right rfl, eq_comm]
  | initializeMultisig | signAction | executeAction | cancelAction | setEmergencySigners
  | snapshotState | proposeEmergencyRollback | approveEmergencyRollback
  | executeEmergencyRollback => exact iff_of_false not_false fun h => h.1

theorem allots_of_executes {step : Step Addr Val home}
    (hx : (machine home host).Executes (deployed Addr Val) steps pre step t)
    (hproposes : step.2.Proposes) :
    Allots host (reached host pre) step ((reached host pre).proposalCount + 1) t :=
  (allots_iff hx.exec_eq).mpr ⟨hproposes, rfl⟩

theorem run_proposedIn (host : Host Addr Val) (pre : List (Step Addr Val home)) :
    ∀ id p, (reached host pre).proposal id = some p → ProposedIn host pre id p := by
  refine Machine.run_history (M := machine home host) (P := fun pre (s : State Addr Val) =>
    ∀ id p, s.proposal id = some p → ProposedIn host pre id p) ?_ ?_ ?_ pre
  · exact nofun
  · intro pre step t hs hx
    obtain ⟨inv, call⟩ := step
    have hmono : pre <+: pre ++ [(inv, call)] := List.prefix_append ..
    have hkept : ∀ id p, (reached host pre).proposal id = some p →
        ProposedIn host (pre ++ [(inv, call)]) id p := by
      intro id p hp
      exact (hs id p hp).mono hmono rfl rfl
    cases (exec_effect hx).proposalChange with
    | @proposed proposer target function args proposal approval count =>
      rw [proposal]
      apply Table.forall_update hkept
      have hcall := Machine.executes_snoc hx
      exact ⟨pre, inv, proposer, t, hcall, allots_of_executes hcall trivial, rfl⟩
    | signed p found active first proposal =>
      rw [proposal]
      exact Table.forall_update hkept ((hs _ p found).mono hmono rfl rfl)
    | settled actionId p q silent found active closed action expiry approvals proposal =>
      rw [proposal]
      exact Table.forall_update hkept ((hs _ p found).mono hmono action expiry)
    | restarted silent fresh proposal | same silent proposal =>
      rw [proposal]
      exact hkept
  · intro pre step e hs herror id p hp
    exact (hs id p hp).mono (List.prefix_append pre [step]) rfl rfl

end Origins

section Settlement

/-- A proposal is stored that is executed or cancelled. -/
def Settled (s : State Addr Val) (id : ℕ) : Prop :=
  ∃ p, s.proposal id = some p ∧ ¬ p.Active

omit [DecidableEq Addr] in
theorem not_settled {id : ℕ} {p : ProposalRecord Addr Val} (hfound : s.proposal id = some p)
    (hactive : p.Active) : ¬ Settled s id := by
  rintro ⟨q, hq, hclosed⟩
  obtain rfl : p = q := Option.some.inj (hfound.symm.trans hq)
  exact hclosed hactive

theorem Effect.settles (h : Effect host inv s t call) {id : ℕ} (hcall : call.Settles id) :
    ¬ Settled s id ∧ Settled t id := by
  cases h with
  | @executed actionId p threshold v stored found active due enough intact dispatch_eq eq =>
    obtain rfl : actionId = id := hcall
    refine ⟨not_settled found active, { p with executed := true }, ?_, ?_⟩
    · rw [eq]
      exact Function.update_self ..
    · exact fun hactive => absurd hactive.1 (by simp)
  | @cancelled caller actionId p initialised found active due auth eq =>
    obtain rfl : actionId = id := hcall
    refine ⟨not_settled found active, { p with cancelled := true }, ?_, ?_⟩
    · rw [eq]
      exact Function.update_self ..
    · exact fun hactive => absurd hactive.2 (by simp)
  | initialized | proposed | signed | emergencySignersSet | snapshotTaken | rollbackProposed
  | rollbackApproved | rolledBack => cases hcall

theorem ProposalChange.stored_kept (h : ProposalChange inv s t call) {id : ℕ}
    (hs : s.proposal id ≠ none) : t.proposal id ≠ none := by
  intro hnone
  cases h with
  | proposed proposal =>
    rw [proposal] at hnone
    exact hs (Table.update_eq_none_iff.mp hnone).2
  | signed p found active first proposal =>
    rw [proposal] at hnone
    exact hs (Table.update_eq_none_iff.mp hnone).2
  | settled k p q silent found active closed action expiry approvals proposal =>
    rw [proposal] at hnone
    exact hs (Table.update_eq_none_iff.mp hnone).2
  | restarted silent fresh proposal | same silent proposal =>
    rw [proposal] at hnone
    exact hs hnone

theorem ProposalChange.settled_kept (h : ProposalChange inv s t call)
    (hfresh : call.Proposes → s.proposal (s.proposalCount + 1) = none) {id : ℕ}
    (hs : Settled s id) : Settled t id := by
  obtain ⟨old, hold, hclosed⟩ := hs
  cases h with
  | proposed proposal =>
    have hid : id ≠ s.proposalCount + 1 := by
      rintro rfl
      rw [hfresh trivial] at hold
      cases hold
    exact ⟨old, by rw [proposal, Function.update_of_ne hid, hold], hclosed⟩
  | @signed signer actionId p found active first proposal =>
    have hid : id ≠ actionId := by
      rintro rfl
      exact not_settled found active ⟨old, hold, hclosed⟩
    exact ⟨old, by rw [proposal, Function.update_of_ne hid, hold], hclosed⟩
  | settled k p q silent found active closed action expiry approvals proposal =>
    by_cases hid : id = k
    · exact ⟨q, by rw [proposal, hid, Function.update_self], closed⟩
    · exact ⟨old, by rw [proposal, Function.update_of_ne hid, hold], hclosed⟩
  | restarted silent fresh proposal | same silent proposal =>
    exact ⟨old, by rw [proposal, hold], hclosed⟩

end Settlement

section Counters

/-- Nothing is proposed before there are signers. -/
theorem run_blank (host : Host Addr Val) (pre : List (Step Addr Val home)) :
    (reached host pre).threshold = none → ∀ id, (reached host pre).proposal id = none := by
  refine Machine.run_invariant (M := machine home host) (P := fun s : State Addr Val =>
    s.threshold = none → ∀ id, s.proposal id = none) (fun _ _ => rfl) ?_ pre
  intro step s t hs hx hblank
  obtain ⟨inv, call⟩ := step
  have heffect : Effect host inv s t call := exec_effect hx
  cases heffect with
  | initialized _ _ _ _ _ eq | rolledBack _ _ _ _ _ _ eq =>
    rw [eq] at hblank
    cases hblank
  | proposed initialised _ _ eq | signed _ initialised _ _ _ _ _ _ eq
  | cancelled _ initialised _ _ _ _ eq =>
    rw [eq] at hblank
    exact absurd hblank initialised
  | executed p threshold v stored found active due enough intact dispatch_eq eq =>
    rw [eq] at hblank
    exact absurd hblank ((dispatch_spec dispatch_eq).threshold_ne_none (by simp [stored]))
  | emergencySignersSet _ _ _ _ _ eq | snapshotTaken _ _ _ _ _ _ _ eq
  | rollbackProposed _ _ _ _ _ eq | rollbackApproved _ _ _ _ _ _ _ _ eq =>
    subst eq
    exact hs hblank

/-- The counters of the approvals and of the active proposals are right. -/
structure Counted (s : State Addr Val) : Prop where
  approvals : ∀ id p, s.proposal id = some p → CountsFlags p.approvalCount (s.approval id)
  unapproved : ∀ id, s.proposal id = none → ∀ a, s.approval id a = false
  active : CountsFlags s.activeProposalCount s.active

omit [DecidableEq Addr] in
theorem active_eq_true {id : ℕ} {p : ProposalRecord Addr Val} (hfound : s.proposal id = some p)
    (hactive : p.Active) : s.active id = true := by
  simp [State.active, hfound, hactive.1, hactive.2]

omit [DecidableEq Addr] in
theorem active_update {id : ℕ} {p : ProposalRecord Addr Val}
    (h : t.proposal = Function.update s.proposal id (some p)) :
    t.active = Function.update s.active id (!p.executed && !p.cancelled) := by
  funext other
  unfold State.active
  rw [h]
  by_cases hid : other = id
  · simp [hid]
  · simp [hid]

section Approved

variable {k : ℕ} {p : ProposalRecord Addr Val} {signer : Addr}

/-- An approval is counted if the record that is stored with it counts it. -/
theorem Counted.approvals_of_approve (hs : Counted s)
    (hproposal : t.proposal = Function.update s.proposal k (some p))
    (happroval : t.approval = approve s.approval k signer)
    (hcount : CountsFlags p.approvalCount (Function.update (s.approval k) signer true)) :
    ∀ id q, t.proposal id = some q → CountsFlags q.approvalCount (t.approval id) := by
  intro id q hq
  rw [hproposal] at hq
  rw [happroval, approve]
  obtain ⟨rfl, rfl⟩ | ⟨hid, hold⟩ := Table.update_eq_some_iff.mp hq
  · rw [Function.update_self]
    exact hcount
  · rw [Function.update_of_ne hid]
    exact hs.approvals id q hold

theorem Counted.unapproved_of_approve (hs : Counted s)
    (hproposal : t.proposal = Function.update s.proposal k (some p))
    (happroval : t.approval = approve s.approval k signer) :
    ∀ id, t.proposal id = none → ∀ a, t.approval id a = false := by
  intro id hnone
  rw [hproposal] at hnone
  obtain ⟨hid, hunstored⟩ := Table.update_eq_none_iff.mp hnone
  rw [happroval, approve, Function.update_of_ne hid]
  exact hs.unapproved id hunstored

end Approved

theorem ProposalChange.counted (h : ProposalChange inv s t call) (hs : Counted s)
    (hblank : s.threshold = none → ∀ id, s.proposal id = none)
    (hfresh : call.Proposes → s.proposal (s.proposalCount + 1) = none) : Counted t := by
  cases h with
  | @proposed proposer target function args proposal approval count =>
    have hnew := hfresh trivial
    have hnobody := hs.unapproved _ hnew
    refine ⟨?_, hs.unapproved_of_approve proposal approval, ?_⟩
    · apply hs.approvals_of_approve proposal approval
      exact (CountsFlags.empty hnobody).set (hnobody proposer)
    · rw [count, active_update proposal]
      apply hs.active.set
      simp [State.active, hnew]
  | @signed signer actionId p found active first proposal approval count =>
    refine ⟨?_, hs.unapproved_of_approve proposal approval, ?_⟩
    · apply hs.approvals_of_approve proposal approval
      exact (hs.approvals actionId p found).set first
    · have hsame : (!p.executed && !p.cancelled) = s.active actionId := by
        rw [active_eq_true found active]
        simp [active.1, active.2]
      rw [count, active_update proposal, hsame, Function.update_eq_self]
      exact hs.active
  | settled k p q silent found active closed action expiry approvals proposal approval count =>
    have hclosed : (!q.executed && !q.cancelled) = false := by
      by_contra hopen
      exact closed (by simpa [ProposalRecord.Active] using hopen)
    refine ⟨?_, ?_, ?_⟩
    · rw [proposal, approval]
      apply Table.forall_update hs.approvals
      rw [approvals]
      exact hs.approvals k p found
    · intro id hnone
      rw [proposal] at hnone
      rw [approval]
      exact hs.unapproved id (Table.update_eq_none_iff.mp hnone).2
    · rw [count, active_update proposal, hclosed]
      exact hs.active.clear (active_eq_true found active)
  | restarted silent fresh proposal approval count =>
    refine ⟨?_, ?_, ?_⟩
    · rw [proposal, approval]
      exact hs.approvals
    · rw [proposal, approval]
      exact hs.unapproved
    · rw [count]
      apply CountsFlags.empty
      intro id
      simp [State.active, proposal, hblank fresh id]
  | same silent proposal approval count =>
    have hactive : t.active = s.active := by
      unfold State.active
      rw [proposal]
    refine ⟨?_, ?_, ?_⟩
    · rw [proposal, approval]
      exact hs.approvals
    · rw [proposal, approval]
      exact hs.unapproved
    · rw [count, hactive]
      exact hs.active

end Counters

section Law

theorem run_counted (hfresh : IdsFresh host steps) :
    ∀ pre, pre <+: steps → Counted (reached host pre) := by
  apply Machine.run_invariant_of_executes
  · refine ⟨nofun, fun _ _ _ => rfl, ?_⟩
    exact CountsFlags.empty fun _ => rfl
  · intro pre step t hx hs
    obtain ⟨inv, call⟩ := step
    exact (effect_of_executes hx).proposalChange.counted hs (run_blank host pre)
      (hfresh pre inv call t hx)

/-- A proposal is executed or cancelled at most once altogether. -/
theorem settledOnce (hfresh : IdsFresh host steps) {pre pre' : List (Step Addr Val home)}
    {step step' : Step Addr Val home} {t t' : State Addr Val} (id : ℕ)
    (hx : (machine home host).Executes (deployed Addr Val) steps pre step t)
    (hcall : step.2.Settles id)
    (hx' : (machine home host).Executes (deployed Addr Val) steps pre' step' t')
    (hcall' : step'.2.Settles id) : pre = pre' := by
  refine Machine.Executes.unique (P := fun _ step _ => step.2.Settles id)
    (D := fun s => Settled s id) ?_ ?_ ?_ hx hcall hx' hcall'
  · intro pre step t hx hsettles
    exact ((effect_of_executes hx).settles hsettles).1
  · intro pre step t hx hsettles
    exact ((effect_of_executes hx).settles hsettles).2
  · intro pre step t hx hs
    exact (effect_of_executes hx).proposalChange.settled_kept (hfresh pre _ _ t hx) hs

/-- The proposals are intact if and only if no proposal is written over another. -/
theorem proposalsIntact_iff (host : Host Addr Val) (steps : List (Step Addr Val home)) :
    ProposalsIntact host steps ↔ IdsFresh host steps := by
  constructor
  · intro h pre inv call t hx hproposes
    by_contra hstored
    obtain ⟨p, hp⟩ := Option.ne_none_iff_exists'.mp hstored
    obtain ⟨before, inv', proposer, u, hbefore, hallots, -⟩ := run_proposedIn host pre _ p hp
    have hearlier : pre <+: steps := (List.prefix_append pre _).trans hx.snoc_prefix
    have heq := h.allottedOnce _ _ _ _ _ _ _ (hbefore.mono hearlier) hx hallots
      (allots_of_executes hx hproposes)
    have hlt := hbefore.length_lt
    rw [heq] at hlt
    exact lt_irrefl _ hlt
  · intro hfresh
    refine ⟨?_, fun pre hpre => (run_counted hfresh pre hpre).approvals, ?_, ?_, ?_,
      fun pre hpre => (run_counted hfresh pre hpre).active⟩
    · intro pre step t pre' step' t' id hx hx' hallots hallots'
      refine Machine.Executes.unique (P := fun s step t => Allots host s step id t)
        (D := fun s : State Addr Val => s.proposal id ≠ none) ?_ ?_ ?_ hx hallots hx' hallots'
      · intro pre step t hx hallots
        obtain ⟨hproposes, hid⟩ := (allots_iff hx.exec_eq).mp hallots
        rw [hid]
        exact not_not.mpr (hfresh pre _ _ t hx hproposes)
      · intro pre step t hx hallots
        obtain ⟨inv, call⟩ := step
        obtain ⟨hproposes, hid⟩ := (allots_iff hx.exec_eq).mp hallots
        rw [hid]
        cases effect_of_executes hx with
        | proposed _ _ _ eq =>
          rw [eq]
          simp
        | _ => exact absurd hproposes not_false
      · intro pre step t hx hs
        exact (effect_of_executes hx).proposalChange.stored_kept hs
    · intro pre inv t pre' inv' t' id hx hx'
      exact settledOnce hfresh id hx rfl hx' rfl
    · intro pre inv t pre' inv' caller t' id hx hx' hlt
      rw [settledOnce hfresh id hx rfl hx' rfl] at hlt
      exact lt_irrefl _ hlt
    · intro pre inv t id hx
      cases effect_of_executes hx with
      | executed p threshold v stored found active due enough intact dispatch_eq eq =>
        obtain ⟨before, inv', proposer, u, hbefore, hallots, hexpiry⟩ :=
          run_proposedIn host pre id p found
        refine ⟨before, inv', proposer, p.target, p.function, p.args, u, hbefore, hallots, ?_, v,
          dispatch_eq, ?_⟩
        · rwa [← hexpiry]
        · rw [eq]
          exact ⟨rfl, rfl, rfl, rfl⟩

/-- A snapshot before anything is proposed. -/
def emptySnapshotRun : List (Step ℕ ℕ 0) :=
  [(acceptedAt 0, .initializeMultisig [1, 2, 3] 2),
    (acceptedAt 0, .setEmergencySigners 1 [11, 12, 13, 14, 15, 16, 17]),
    (acceptedAt 0, .snapshotState 1 7)]

/-- A proposal, and the rollback to that snapshot. -/
def rewoundRun : List (Step ℕ ℕ 0) :=
  emptySnapshotRun ++ [(acceptedAt 0, .proposeAction 1 9 "pause" []),
    (acceptedAt 0, .proposeEmergencyRollback 11 7 0),
    (acceptedAt 0, .approveEmergencyRollback 12 1),
    (acceptedAt 0, .approveEmergencyRollback 13 1),
    (acceptedAt 0, .approveEmergencyRollback 14 1),
    (acceptedAt 0, .executeEmergencyRollback 1)]

/-- The next proposal gets the id of the proposal before, and is written over it. -/
theorem rewoundRun_not_intact :
    ¬ ProposalsIntact byteHost
      (rewoundRun ++ [(acceptedAt 0, .proposeAction 2 9 "resume" [])]) := by
  intro h
  have hfirst : reached byteHost
      (emptySnapshotRun ++ [(acceptedAt 0, .proposeAction 1 9 "pause" [])]) ≠
        reached byteHost emptySnapshotRun := by
    intro heq
    exact absurd (congrArg State.proposalCount heq) (by decide +kernel)
  have hsecond : reached byteHost
      (rewoundRun ++ [(acceptedAt 0, .proposeAction 2 9 "resume" [])]) ≠
        reached byteHost rewoundRun := by
    intro heq
    exact absurd (congrArg State.proposalCount heq) (by decide +kernel)
  have hx : (machine 0 byteHost).Executes (deployed ℕ ℕ)
      (rewoundRun ++ [(acceptedAt 0, .proposeAction 2 9 "resume" [])]) emptySnapshotRun
      (acceptedAt 0, .proposeAction 1 9 "pause" []) _ :=
    (Machine.executes_of_run_ne hfirst).mono ⟨_, rfl⟩
  have hx' := Machine.executes_of_run_ne hsecond
  have hallots := allots_of_executes hx trivial
  have hallots' := allots_of_executes hx' trivial
  have hone : (reached byteHost emptySnapshotRun).proposalCount = 0 := by decide +kernel
  have hone' : (reached byteHost rewoundRun).proposalCount = 0 := by decide +kernel
  rw [hone] at hallots
  rw [hone'] at hallots'
  have heq := h.allottedOnce _ _ _ _ _ _ 1 hx hx' hallots hallots'
  exact absurd (congrArg List.length heq) (by decide)

end Law

end MultisigAdmin
