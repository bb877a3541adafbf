import MentorsMind.MultisigAdmin.Proposals

/-! What an emergency rollback restores, and who approved it. A proposed rollback names a
snapshot but keeps no copy of it, and its counter counts approvals of emergency signers that may
have been replaced since. -/
namespace MultisigAdmin
open Outcome Soroban Shared

variable {Addr Val : Type} {home : Addr}

def State.emergencySigners (s : State Addr Val) : Set Addr :=
  {a | ∃ signers, s.govEmergencySigners = some signers ∧ a ∈ signers}

/-- What a call does to the ballot of the rollback `id`. -/
def rollbackEvent (id : ℕ) (s : State Addr Val) (step : Step Addr Val home) :
    Option (BallotEvent Addr) :=
  match step.2 with
  | .proposeEmergencyRollback proposer _ _ =>
      if s.govRollbackProposalCount + 1 = id then some (.opened proposer) else none
  | .approveEmergencyRollback signer proposalId =>
      if proposalId = id then some (.cast signer) else none
  | _ => none

/-- The configuration that a call captures under `snapshotId`. -/
def captured (snapshotId : ℕ) (s : State Addr Val) (step : Step Addr Val home) :
    Option GovConfigSnapshot :=
  match step.2 with
  | .snapshotState _ id => if id = snapshotId then some s.config else none
  | _ => none

/-- The call makes other addresses the emergency signers. -/
def LeavesOut (a : Addr) (step : Step Addr Val home) : Prop :=
  match step.2 with
  | .setEmergencySigners _ signers => a ∉ signers
  | _ => False

def TakesIn (a : Addr) (step : Step Addr Val home) : Prop :=
  match step.2 with
  | .setEmergencySigners _ signers => a ∈ signers
  | _ => False

variable [DecidableEq Addr]

/-- The call proposes a rollback to `snapshotId` and returns the id `id`. -/
def OpensRollback (s : State Addr Val) (step : Step Addr Val home) (id snapshotId : ℕ)
    (t : State Addr Val) : Prop :=
  match step.2 with
  | .proposeEmergencyRollback proposer target oldWasmHash => target = snapshotId ∧
      proposeEmergencyRollback step.1 s proposer target oldWasmHash = .ok (t, id)
  | _ => False

def rollbackBallot (host : Host Addr Val) (steps : List (Step Addr Val home)) (id : ℕ) :
    List (BallotEvent Addr) :=
  (machine home host).collect (fun s step _ => rollbackEvent id s step) (deployed Addr Val) steps

/-- The addresses that approved the rollback stored under `id`. -/
def rollbackApprovers (host : Host Addr Val) (steps : List (Step Addr Val home)) (id : ℕ) :
    Finset Addr :=
  Ballot.voters (rollbackBallot host steps id)

/-- The addresses that are not among the emergency signers set last. -/
def leftOut (host : Host Addr Val) (steps : List (Step Addr Val home)) : Set Addr :=
  {a | (machine home host).SwitchedOn (LeavesOut a) (TakesIn a) (deployed Addr Val) steps}

/-- What is captured under `snapshotId` from the state `s` on. -/
def captures (host : Host Addr Val) (s : State Addr Val) (steps : List (Step Addr Val home))
    (snapshotId : ℕ) : List GovConfigSnapshot :=
  (machine home host).collect (fun s step _ => captured snapshotId s step) s steps

/-- The rollback that leads to `t` has the approval of four emergency signers, and leaves the
configuration that was stored when it was proposed. -/
structure RollbackFaithful (host : Host Addr Val) (pre : List (Step Addr Val home)) (id : ℕ)
    (t : State Addr Val) : Prop where
  approved : (4 : ℕ∞) ≤
    ((rollbackApprovers host pre id : Set Addr) ∩ (reached host pre).emergencySigners).encard
  restored : ∃ opening step u snapshotId,
    (machine home host).Executes (deployed Addr Val) pre opening step u ∧
    OpensRollback (reached host opening) step id snapshotId u ∧
    (reached host opening).govSnapshot snapshotId = some t.config

/-- The approvals beyond the fourth make up for those of approvers who were left out since, and
if a snapshot was taken anew under the id since the rollback was proposed, the last one captured
what was stored when it was proposed. -/
structure RollbackCovered (host : Host Addr Val) (pre : List (Step Addr Val home)) (id : ℕ) :
    Prop where
  departures : ∃ p, (reached host pre).govRollbackProposal id = some p ∧
    4 + ((rollbackApprovers host pre id : Set Addr) ∩ leftOut host pre).encard ≤
      (p.approvalCount : ℕ∞)
  retakes : ∀ opening step u snapshotId config,
    (machine home host).Executes (deployed Addr Val) pre opening step u →
    OpensRollback (reached host opening) step id snapshotId u →
    (captures host (reached host opening) (pre.drop opening.length) snapshotId).getLast? =
      some config → (reached host opening).govSnapshot snapshotId = some config

def RollbacksFaithful (host : Host Addr Val) (steps : List (Step Addr Val home)) : Prop :=
  ∀ pre inv id t, (machine home host).Executes (deployed Addr Val) steps pre
    (inv, .executeEmergencyRollback id) t → RollbackFaithful host pre id t

def RollbacksCovered (host : Host Addr Val) (steps : List (Step Addr Val home)) : Prop :=
  ∀ pre inv id t, (machine home host).Executes (deployed Addr Val) steps pre
    (inv, .executeEmergencyRollback id) t → RollbackCovered host pre id

/-- What a step does to the proposed rollbacks and their approvals. -/
inductive RollbackChange (inv : Invocation Addr Val home) (s t : State Addr Val) :
    Call Addr Val → Prop
  | proposed {proposer : Addr} {snapshotId : ℕ} {oldWasmHash : Hash}
      (proposal : t.govRollbackProposal = Function.update s.govRollbackProposal
        (s.govRollbackProposalCount + 1)
        (some (newRollback s inv.timestamp proposer snapshotId oldWasmHash)))
      (approval : t.govRollbackApproval =
        approve s.govRollbackApproval (s.govRollbackProposalCount + 1) proposer)
      (count : t.govRollbackProposalCount = s.govRollbackProposalCount + 1) :
      RollbackChange inv s t (.proposeEmergencyRollback proposer snapshotId oldWasmHash)
  | approved {signer : Addr} {proposalId : ℕ} (p : RollbackProposal Addr)
      (found : s.govRollbackProposal proposalId = some p)
      (first : s.govRollbackApproval proposalId signer = false)
      (proposal : t.govRollbackProposal = Function.update s.govRollbackProposal proposalId
        (some { p with approvalCount := p.approvalCount + 1 }))
      (approval : t.govRollbackApproval = approve s.govRollbackApproval proposalId signer)
      (count : t.govRollbackProposalCount = s.govRollbackProposalCount) :
      RollbackChange inv s t (.approveEmergencyRollback signer proposalId)
  | executed {proposalId : ℕ} (p : RollbackProposal Addr)
      (found : s.govRollbackProposal proposalId = some p)
      (proposal : t.govRollbackProposal = Function.update s.govRollbackProposal proposalId
        (some { p with executed := true }))
      (approval : t.govRollbackApproval = s.govRollbackApproval)
      (count : t.govRollbackProposalCount = s.govRollbackProposalCount) :
      RollbackChange inv s t (.executeEmergencyRollback proposalId)
  | same {call : Call Addr Val} (silent : ∀ id, rollbackEvent id s (inv, call) = none)
      (proposal : t.govRollbackProposal = s.govRollbackProposal)
      (approval : t.govRollbackApproval = s.govRollbackApproval)
      (count : t.govRollbackProposalCount = s.govRollbackProposalCount) :
      RollbackChange inv s t call

variable {host : Host Addr Val} {inv : Invocation Addr Val home} {s t v : State Addr Val}
  {pre steps : List (Step Addr Val home)} {call : Call Addr Val}

theorem Effect.rollbackChange (h : Effect host inv s t call) : RollbackChange inv s t call := by
  cases h with
  | rollbackProposed _ _ _ _ _ eq =>
    subst eq
    exact .proposed rfl rfl rfl
  | rollbackApproved _ p _ _ found _ first _ eq =>
    subst eq
    exact .approved p found first rfl rfl rfl
  | rolledBack p _ found _ _ _ eq =>
    subst eq
    exact .executed p found rfl rfl rfl
  | executed _ _ _ _ _ _ _ _ _ dispatch_eq eq =>
    obtain ⟨_, _, _, _, rfl⟩ := (dispatch_spec dispatch_eq).frame
    subst eq
    exact .same (fun _ => rfl) rfl rfl rfl
  | initialized _ _ _ _ _ eq | proposed _ _ _ eq | signed _ _ _ _ _ _ _ _ eq
  | cancelled _ _ _ _ _ _ eq | emergencySignersSet _ _ _ _ _ eq
  | snapshotTaken _ _ _ _ _ _ _ eq =>
    subst eq
    exact .same (fun _ => rfl) rfl rfl rfl

section Votes

/-- The counter of each rollback that is stored. -/
def State.rollbackApprovalCounts (s : State Addr Val) : ℕ → Option ℕ :=
  Option.map RollbackProposal.approvalCount ∘ s.govRollbackProposal

theorem RollbackChange.ballotChange (h : RollbackChange inv s t call) :
    Ballot.Change s.rollbackApprovalCounts t.rollbackApprovalCounts s.govRollbackApproval
      t.govRollbackApproval fun id => rollbackEvent id s (inv, call) := by
  unfold State.rollbackApprovalCounts
  cases h with
  | @proposed proposer snapshotId oldWasmHash proposal approval =>
    apply Ballot.Change.opened (s.govRollbackProposalCount + 1) proposer (fun _ => rfl) _ approval
    rw [proposal, Function.comp_update]
    rfl
  | @approved signer proposalId p found first proposal approval =>
    refine .cast proposalId signer p.approvalCount ?_ first (fun _ => rfl) ?_ approval
    · rw [Function.comp_apply, found, Option.map_some]
    · rw [proposal, Function.comp_update, Option.map_some]
  | @executed proposalId p found proposal approval =>
    apply Ballot.Change.same (fun _ => rfl) _ approval
    rw [proposal]
    exact Table.map_update_eq found rfl
  | same silent proposal approval =>
    exact .same silent (by rw [proposal]) approval

theorem run_rollback_tallied (host : Host Addr Val) (pre : List (Step Addr Val home)) (id : ℕ) :
    Ballot.Tallied (rollbackBallot host pre id) ((reached host pre).rollbackApprovalCounts id)
      ((reached host pre).govRollbackApproval id) := by
  apply Ballot.run_tallied (M := machine home host)
  · exact fun _ => rfl
  · intro step s t hx
    exact (exec_effect hx).rollbackChange.ballotChange

/-- Only emergency signers take part in a ballot. -/
theorem Effect.registered_rollback_voter (h : Effect host inv s t call) {id : ℕ}
    {event : BallotEvent Addr} (hevent : rollbackEvent id s (inv, call) = some event) :
    s.govEmergencySigners ≠ none := by
  cases h with
  | rollbackProposed signers stored => simp [stored]
  | rollbackApproved signers p stored => simp [stored]
  | initialized | proposed | signed | executed | cancelled | emergencySignersSet | snapshotTaken
  | rolledBack => cases hevent

/-- Who is left out is not among the emergency signers that are stored, and approvals are given
when some are stored. -/
structure EmergencyFollowed (host : Host Addr Val) (pre : List (Step Addr Val home))
    (s : State Addr Val) : Prop where
  left_iff : ∀ a, a ∈ leftOut host pre ↔
    ∃ signers, s.govEmergencySigners = some signers ∧ a ∉ signers
  stored : ∀ id, ∀ a ∈ rollbackApprovers host pre id, s.govEmergencySigners ≠ none

theorem EmergencyFollowed.snoc (hs : EmergencyFollowed host pre (reached host pre))
    (hx : (machine home host).exec (inv, call) (reached host pre) = .ok t) :
    EmergencyFollowed host (pre ++ [(inv, call)]) t := by
  have heffect : Effect host inv (reached host pre) t call := exec_effect hx
  have hleft : ∀ a, a ∈ leftOut host (pre ++ [(inv, call)]) ↔
      LeavesOut a (inv, call) ∨ ¬ TakesIn a (inv, call) ∧ a ∈ leftOut host pre :=
    fun a => Machine.switchedOn_snoc_ok hx
  have hstored : ∀ id, ∀ a ∈ rollbackApprovers host (pre ++ [(inv, call)]) id,
      (reached host pre).govEmergencySigners ≠ none := by
    intro id a ha
    have hballot : rollbackBallot host (pre ++ [(inv, call)]) id = rollbackBallot host pre id ++
        (rollbackEvent id (reached host pre) (inv, call)).toList := Machine.collect_snoc_ok hx
    unfold rollbackApprovers at ha
    rw [hballot] at ha
    rcases Ballot.mem_voters_append ha with ⟨event, hevent, -⟩ | hbefore
    · exact heffect.registered_rollback_voter hevent
    · exact hs.stored id a hbefore
  generalize reached host pre = s at *
  have hsame : t.govEmergencySigners = s.govEmergencySigners →
      (∀ a, ¬ LeavesOut a (inv, call)) → (∀ a, ¬ TakesIn a (inv, call)) →
      EmergencyFollowed host (pre ++ [(inv, call)]) t := by
    intro hsigners hout hin
    refine ⟨fun a => ?_, ?_⟩
    · rw [hleft, or_iff_right (hout a), and_iff_right (hin a), hsigners]
      exact hs.left_iff a
    · rw [hsigners]
      exact hstored
  cases heffect with
  | @emergencySignersSet caller signers initialised registered auth length distinct eq =>
    refine ⟨fun a => ?_, fun id a ha => ?_⟩
    · rw [hleft, eq]
      show a ∉ signers ∨ ¬ a ∈ signers ∧ a ∈ leftOut host pre ↔
        ∃ stored, some signers = some stored ∧ a ∉ stored
      simp only [Option.some.injEq, exists_eq_left', or_iff_left_iff_imp]
      exact fun h => h.1
    · rw [eq]
      exact nofun
  | executed _ _ _ _ _ _ _ _ _ dispatch_eq eq =>
    obtain ⟨_, _, _, _, rfl⟩ := (dispatch_spec dispatch_eq).frame
    subst eq
    exact hsame rfl (fun _ => not_false) fun _ => not_false
  | initialized _ _ _ _ _ eq | proposed _ _ _ eq | signed _ _ _ _ _ _ _ _ eq
  | cancelled _ _ _ _ _ _ eq | snapshotTaken _ _ _ _ _ _ _ eq | rollbackProposed _ _ _ _ _ eq
  | rollbackApproved _ _ _ _ _ _ _ _ eq | rolledBack _ _ _ _ _ _ eq =>
    subst eq
    exact hsame rfl (fun _ => not_false) fun _ => not_false

theorem run_emergencyFollowed (host : Host Addr Val) (pre : List (Step Addr Val home)) :
    EmergencyFollowed host pre (reached host pre) := by
  apply Machine.run_history (P := fun pre s => EmergencyFollowed host pre s)
  · refine ⟨fun a => ?_, fun id a ha => ?_⟩
    · exact iff_of_false Machine.not_switchedOn_nil nofun
    · exact absurd ha (Finset.notMem_empty a)
  · intro pre step t hs hx
    exact hs.snoc hx
  · intro pre step e hs herror
    have hleft : leftOut host (pre ++ [step]) = leftOut host pre := by
      unfold leftOut
      ext a
      exact Machine.switchedOn_snoc_error herror
    have hballot : ∀ id, rollbackBallot host (pre ++ [step]) id = rollbackBallot host pre id :=
      fun id => Machine.collect_snoc_error herror
    refine ⟨?_, ?_⟩
    · rw [hleft]
      exact hs.left_iff
    · unfold rollbackApprovers
      simp only [hballot]
      exact hs.stored

/-- The approvers that are still emergency signers are enough exactly if the approvals beyond
what is needed make up for those that are left out. -/
theorem le_emergency_encard_iff {id needed : ℕ} {p : RollbackProposal Addr}
    (hfound : (reached host pre).govRollbackProposal id = some p) :
    (needed : ℕ∞) ≤ ((rollbackApprovers host pre id : Set Addr) ∩
        (reached host pre).emergencySigners).encard ↔
      needed + ((rollbackApprovers host pre id : Set Addr) ∩ leftOut host pre).encard ≤
        (p.approvalCount : ℕ∞) := by
  have hfollowed := run_emergencyFollowed host pre
  have hcount : (Ballot.voters (rollbackBallot host pre id)).card = p.approvalCount := by
    apply (run_rollback_tallied host pre id).counted
    unfold State.rollbackApprovalCounts
    rw [Function.comp_apply, hfound, Option.map_some]
  have hmember : ∀ a ∈ Ballot.voters (rollbackBallot host pre id),
      a ∈ (reached host pre).emergencySigners ∨ a ∈ leftOut host pre := by
    intro a ha
    obtain ⟨signers, hsigners⟩ := Option.ne_none_iff_exists'.mp (hfollowed.stored id a ha)
    by_cases hmem : a ∈ signers
    · exact .inl ⟨signers, hsigners, hmem⟩
    · exact .inr ((hfollowed.left_iff a).mpr ⟨signers, hsigners, hmem⟩)
  have hdisjoint : Disjoint (reached host pre).emergencySigners (leftOut host pre) := by
    rw [Set.disjoint_left]
    rintro a ⟨signers, hsigners, hmem⟩ hleft
    obtain ⟨stored, hstored, hnot⟩ := (hfollowed.left_iff a).mp hleft
    obtain rfl : signers = stored := Option.some.inj (hsigners.symm.trans hstored)
    exact hnot hmem
  rw [← hcount]
  exact Ballot.le_encard_inter_iff (Set.encard_coe_eq_coe_finsetCard _) hmember hdisjoint

end Votes

section Openings

/-- The id that is returned is the number after the stored one. -/
theorem opensRollback_iff (hx : exec host inv call s = .ok t) {id snapshotId : ℕ} :
    OpensRollback s (inv, call) id snapshotId t ↔
      (∃ proposer oldWasmHash, call = .proposeEmergencyRollback proposer snapshotId oldWasmHash) ∧
        id = s.govRollbackProposalCount + 1 := by
  cases call with
  | proposeEmergencyRollback proposer target oldWasmHash =>
    obtain ⟨⟨u, n⟩, hproposed, hu⟩ := bind_eq_ok.mp hx
    obtain rfl : u = t := pure_eq_ok.mp hu
    have hn : n = s.govRollbackProposalCount + 1 := by
      simp only [proposeEmergencyRollback, bind_eq_ok, require_eq_ok, requireAuth_eq_ok,
        expect_eq_ok, checkedU32_eq_ok, pure_eq_ok, Prod.mk.injEq] at hproposed
      obtain ⟨signers, -, -, -, -, -, -, -, id, ⟨-, rfl⟩, -, rfl⟩ := hproposed
      rfl
    show target = snapshotId ∧
      proposeEmergencyRollback inv s proposer target oldWasmHash = .ok (u, id) ↔ _
    rw [hproposed, Except.ok.injEq, Prod.mk.injEq, and_iff_right rfl, hn, eq_comm (a := id)]
    apply and_congr_left
    intro _
    constructor
    · rintro rfl
      exact ⟨proposer, oldWasmHash, rfl⟩
    · rintro ⟨proposer', oldWasmHash', hcall⟩
      exact (Call.proposeEmergencyRollback.inj hcall).2.1
  | initializeMultisig | proposeAction | signAction | executeAction | cancelAction
  | setEmergencySigners | snapshotState | approveEmergencyRollback
  | executeEmergencyRollback => exact iff_of_false not_false (by simp)

theorem opensRollback_of_executes {proposer : Addr} {snapshotId : ℕ} {oldWasmHash : Hash}
    (hx : (machine home host).Executes (deployed Addr Val) steps pre
      (inv, .proposeEmergencyRollback proposer snapshotId oldWasmHash) t) :
    OpensRollback (reached host pre)
      (inv, .proposeEmergencyRollback proposer snapshotId oldWasmHash)
      ((reached host pre).govRollbackProposalCount + 1) snapshotId t := by
  have hexec : exec host inv (.proposeEmergencyRollback proposer snapshotId oldWasmHash)
      (reached host pre) = .ok t := hx.exec_eq
  exact (opensRollback_iff hexec).mpr ⟨⟨proposer, oldWasmHash, rfl⟩, rfl⟩

/-- The rollback is stored for the snapshot that an earlier call proposed it for. -/
def OpenedIn (host : Host Addr Val) (pre : List (Step Addr Val home)) (id snapshotId : ℕ) : Prop :=
  ∃ opening step u, (machine home host).Executes (deployed Addr Val) pre opening step u ∧
    OpensRollback (reached host opening) step id snapshotId u

theorem OpenedIn.append {id snapshotId : ℕ} (h : OpenedIn host pre id snapshotId)
    (steps : List (Step Addr Val home)) : OpenedIn host (pre ++ steps) id snapshotId := by
  obtain ⟨opening, step, u, hx, hopens⟩ := h
  exact ⟨opening, step, u, hx.append steps, hopens⟩

theorem run_openedIn (host : Host Addr Val) (pre : List (Step Addr Val home)) :
    ∀ id p, (reached host pre).govRollbackProposal id = some p →
      OpenedIn host pre id p.snapshotId := by
  refine Machine.run_history (M := machine home host) (P := fun pre (s : State Addr Val) =>
    ∀ id p, s.govRollbackProposal id = some p → OpenedIn host pre id p.snapshotId) ?_ ?_ ?_ pre
  · exact nofun
  · intro pre step t hs hx
    obtain ⟨inv, call⟩ := step
    have hkept : ∀ id p, (reached host pre).govRollbackProposal id = some p →
        OpenedIn host (pre ++ [(inv, call)]) id p.snapshotId := by
      intro id p hp
      exact (hs id p hp).append _
    cases (exec_effect hx).rollbackChange with
    | @proposed proposer snapshotId oldWasmHash proposal approval count =>
      rw [proposal]
      apply Table.forall_update hkept
      have hcall := Machine.executes_snoc hx
      exact ⟨pre, _, t, hcall, opensRollback_of_executes hcall⟩
    | approved p found first proposal | executed p found proposal =>
      rw [proposal]
      exact Table.forall_update hkept (hkept _ p found)
    | same silent proposal =>
      rw [proposal]
      exact hkept
  · intro pre step e hs herror id p hp
    exact (hs id p hp).append [step]

/-- No two rollbacks are proposed under one id, and the one that is names one snapshot. -/
theorem opensRollback_unique {opening opening' : List (Step Addr Val home)}
    {step step' : Step Addr Val home} {u u' : State Addr Val} {id snapshotId snapshotId' : ℕ}
    (hx : (machine home host).Executes (deployed Addr Val) pre opening step u)
    (hopens : OpensRollback (reached host opening) step id snapshotId u)
    (hx' : (machine home host).Executes (deployed Addr Val) pre opening' step' u')
    (hopens' : OpensRollback (reached host opening') step' id snapshotId' u') :
    opening = opening' ∧ snapshotId = snapshotId' := by
  have hopening : opening = opening' := by
    refine Machine.Executes.unique
      (P := fun s step t => ∃ snapshotId, OpensRollback s step id snapshotId t)
      (D := fun s : State Addr Val => id ≤ s.govRollbackProposalCount) ?_ ?_ ?_
      hx ⟨snapshotId, hopens⟩ hx' ⟨snapshotId', hopens'⟩
    · rintro pre step t hx ⟨snapshotId, hopens⟩
      obtain ⟨-, hid⟩ := (opensRollback_iff hx.exec_eq).mp hopens
      rw [hid]
      exact Nat.not_succ_le_self _
    · rintro pre ⟨inv, call⟩ t hx ⟨snapshotId, hopens⟩
      obtain ⟨⟨proposer, oldWasmHash, rfl⟩, hid⟩ := (opensRollback_iff hx.exec_eq).mp hopens
      cases effect_of_executes hx with
      | rollbackProposed _ _ _ _ _ eq =>
        rw [eq, hid]
    · rintro pre ⟨inv, call⟩ t hx hs
      cases (effect_of_executes hx).rollbackChange with
      | proposed proposal approval count =>
        rw [count]
        exact hs.trans (Nat.le_succ _)
      | approved p found first proposal approval count | executed p found proposal approval count
      | same silent proposal approval count => rwa [count]
  subst hopening
  refine ⟨rfl, ?_⟩
  have hstep : step = step' := Option.some.inj (hx.eq_take.2.symm.trans hx'.eq_take.2)
  subst hstep
  obtain ⟨⟨proposer, oldWasmHash, hcall⟩, -⟩ := (opensRollback_iff hx.exec_eq).mp hopens
  obtain ⟨⟨proposer', oldWasmHash', hcall'⟩, -⟩ := (opensRollback_iff hx'.exec_eq).mp hopens'
  exact (Call.proposeEmergencyRollback.inj (hcall.symm.trans hcall')).2.1

end Openings

section Snapshots

/-- The stored snapshot is the one that was captured last, and comes with its metadata. -/
structure SnapshotsKept (host : Host Addr Val) (pre : List (Step Addr Val home))
    (s : State Addr Val) : Prop where
  latest : ∀ id config, s.govSnapshot id = some config →
    (captures host (deployed Addr Val) pre id).getLast? = some config
  described : ∀ id, (s.govSnapshotMeta id).isSome → (s.govSnapshot id).isSome

theorem SnapshotsKept.snoc (hs : SnapshotsKept host pre (reached host pre))
    (hx : (machine home host).exec (inv, call) (reached host pre) = .ok t) :
    SnapshotsKept host (pre ++ [(inv, call)]) t := by
  have heffect : Effect host inv (reached host pre) t call := exec_effect hx
  have hcaptures : ∀ id, captures host (deployed Addr Val) (pre ++ [(inv, call)]) id =
      captures host (deployed Addr Val) pre id ++
        (captured id (reached host pre) (inv, call)).toList := fun id => Machine.collect_snoc_ok hx
  generalize reached host pre = s at *
  have hsame : t.govSnapshot = s.govSnapshot → t.govSnapshotMeta = s.govSnapshotMeta →
      (∀ id, captured id s (inv, call) = none) →
      SnapshotsKept host (pre ++ [(inv, call)]) t := by
    intro hsnapshot hmeta hsilent
    refine ⟨fun id config hfound => ?_, fun id hdescribed => ?_⟩
    · rw [hcaptures, hsilent, Option.toList_none, List.append_nil]
      rw [hsnapshot] at hfound
      exact hs.latest id config hfound
    · rw [hmeta] at hdescribed
      rw [hsnapshot]
      exact hs.described id hdescribed
  cases heffect with
  | @snapshotTaken caller snapshotId kept index record initialised registered auth kept_eq eq =>
    have hkept : ∀ id, id ≠ snapshotId →
        (∀ config, kept.govSnapshot id = some config → s.govSnapshot id = some config) ∧
          ((kept.govSnapshotMeta id).isSome → (kept.govSnapshot id).isSome) := by
      intro id _
      rcases kept_eq with rfl | ⟨oldId, rfl⟩
      · exact ⟨fun _ hfound => hfound, hs.described id⟩
      · by_cases hid : id = oldId
        · simp [State.dropSnapshot, hid]
        · simpa [State.dropSnapshot, hid] using hs.described id
    refine ⟨fun id config hfound => ?_, fun id hdescribed => ?_⟩
    · rw [hcaptures]
      rw [eq] at hfound
      by_cases hid : snapshotId = id
      · have hevent : captured id s (inv, .snapshotState caller snapshotId) = some s.config :=
          if_pos hid
        subst hid
        rw [hevent, Option.toList_some, List.getLast?_concat]
        simpa using hfound
      · have hevent : captured id s (inv, .snapshotState caller snapshotId) = none := if_neg hid
        have hold : id ≠ snapshotId := Ne.symm hid
        rw [hevent, Option.toList_none, List.append_nil]
        simp only [Function.update_of_ne hold] at hfound
        exact hs.latest id config ((hkept id hold).1 config hfound)
    · rw [eq] at hdescribed ⊢
      by_cases hid : id = snapshotId
      · simp [hid]
      · simp only [Function.update_of_ne hid] at hdescribed ⊢
        exact (hkept id hid).2 hdescribed
  | executed _ _ _ _ _ _ _ _ _ dispatch_eq eq =>
    obtain ⟨_, _, _, _, rfl⟩ := (dispatch_spec dispatch_eq).frame
    subst eq
    exact hsame rfl rfl fun _ => rfl
  | initialized _ _ _ _ _ eq | proposed _ _ _ eq | signed _ _ _ _ _ _ _ _ eq
  | cancelled _ _ _ _ _ _ eq | emergencySignersSet _ _ _ _ _ eq | rollbackProposed _ _ _ _ _ eq
  | rollbackApproved _ _ _ _ _ _ _ _ eq | rolledBack _ _ _ _ _ _ eq =>
    subst eq
    exact hsame rfl rfl fun _ => rfl

theorem run_snapshotsKept (host : Host Addr Val) (pre : List (Step Addr Val home)) :
    SnapshotsKept host pre (reached host pre) := by
  apply Machine.run_history (P := fun pre s => SnapshotsKept host pre s)
  · exact ⟨nofun, nofun⟩
  · intro pre step t hs hx
    exact hs.snoc hx
  · intro pre step e hs herror
    refine ⟨fun id config hfound => ?_, hs.described⟩
    have hsame : captures host (deployed Addr Val) (pre ++ [step]) id =
        captures host (deployed Addr Val) pre id := Machine.collect_snoc_error herror
    rw [hsame]
    exact hs.latest id config hfound

end Snapshots

section Law

theorem captures_split {opening : List (Step Addr Val home)} {step : Step Addr Val home}
    {u : State Addr Val}
    (hx : (machine home host).Executes (deployed Addr Val) pre opening step u) (id : ℕ) :
    captures host (deployed Addr Val) pre id = captures host (deployed Addr Val) opening id ++
      captures host (reached host opening) (pre.drop opening.length) id := by
  unfold captures
  rw [← Machine.collect_append]
  congr 1
  conv_rhs => rw [hx.eq_take.1]
  rw [List.length_take_of_le hx.length_lt.le, List.take_append_drop]

/-- An executed rollback is faithful if and only if departures and retakes are covered. -/
theorem rollbackFaithful_iff {id : ℕ}
    (hx : (machine home host).Executes (deployed Addr Val) steps pre
      (inv, .executeEmergencyRollback id) t) :
    RollbackFaithful host pre id t ↔ RollbackCovered host pre id := by
  cases effect_of_executes hx with
  | rolledBack p config found pending enough stored eq =>
    have hconfig : t.config = config := by
      rw [eq]
      rfl
    have hlatest := (run_snapshotsKept host pre).latest p.snapshotId config stored
    obtain ⟨opening, step, u, hopening, hopens⟩ := run_openedIn host pre id p found
    rw [captures_split hopening, List.getLast?_append] at hlatest
    constructor
    · rintro ⟨happroved, other, step', u', snapshotId, hother, hopens', hstored⟩
      obtain ⟨rfl, rfl⟩ := opensRollback_unique hopening hopens hother hopens'
      refine ⟨⟨p, found, (le_emergency_encard_iff found).mp happroved⟩, ?_⟩
      intro again step'' u'' snapshotId captured hagain hopens'' hlast
      obtain ⟨rfl, rfl⟩ := opensRollback_unique hopening hopens hagain hopens''
      rw [hlast, Option.some_or, Option.some.injEq] at hlatest
      rw [hstored, hconfig, hlatest]
    · rintro ⟨⟨q, hq, hcovered⟩, hretakes⟩
      obtain rfl : p = q := Option.some.inj (found.symm.trans hq)
      refine ⟨(le_emergency_encard_iff found).mpr hcovered, opening, step, u, p.snapshotId,
        hopening, hopens, ?_⟩
      rw [hconfig]
      have hkept := run_snapshotsKept host opening
      have hdescribed : ((reached host opening).govSnapshotMeta p.snapshotId).isSome := by
        obtain ⟨inv', call⟩ := step
        obtain ⟨⟨proposer, oldWasmHash, rfl⟩, -⟩ := (opensRollback_iff hopening.exec_eq).mp hopens
        cases effect_of_executes hopening with
        | rollbackProposed signers stored registered snapshotted => exact snapshotted
      obtain ⟨old, hold⟩ := Option.isSome_iff_exists.mp (hkept.described _ hdescribed)
      cases hlast : (captures host (reached host opening) (pre.drop opening.length)
          p.snapshotId).getLast? with
      | none =>
        -- no snapshot was taken anew, so that the one stored at the opening was the latest
        rw [hlast, Option.none_or, hkept.latest p.snapshotId old hold] at hlatest
        rw [hold, hlatest]
      | some captured =>
        rw [hlast, Option.some_or] at hlatest
        rw [hretakes opening step u p.snapshotId captured hopening hopens hlast, hlatest]

/-- All rollbacks restore what four emergency signers approved, if and only if departures and
retakes are covered at each of them. -/
theorem rollbacksFaithful_iff (host : Host Addr Val) (steps : List (Step Addr Val home)) :
    RollbacksFaithful host steps ↔ RollbacksCovered host steps := by
  constructor
  · intro h pre inv id t hx
    exact (rollbackFaithful_iff hx).mp (h pre inv id t hx)
  · intro h pre inv id t hx
    exact (rollbackFaithful_iff hx).mpr (h pre inv id t hx)

/-- Four emergency signers approve the rollback to a snapshot. -/
def approvedRun : List (Step ℕ ℕ 0) :=
  emptySnapshotRun ++ [(acceptedAt 0, .proposeEmergencyRollback 11 7 0),
    (acceptedAt 0, .approveEmergencyRollback 12 1),
    (acceptedAt 0, .approveEmergencyRollback 13 1),
    (acceptedAt 0, .approveEmergencyRollback 14 1)]

/-- A signer replaces all seven emergency signers. -/
def replacedRun : List (Step ℕ ℕ 0) :=
  approvedRun ++ [(acceptedAt 0, .setEmergencySigners 1 [21, 22, 23, 24, 25, 26, 27])]

/-- A signer proposes something, and takes the snapshot anew. -/
def retakenRun : List (Step ℕ ℕ 0) :=
  approvedRun ++ [(acceptedAt 0, .proposeAction 1 9 "pause" []),
    (acceptedAt 0, .snapshotState 1 7)]

/-- The rollback is executed with the approval of no emergency signer in the one run, and to a
configuration that nobody approved in the other. -/
theorem rollbacks_not_faithful :
    ¬ RollbacksFaithful byteHost (replacedRun ++ [(acceptedAt 0, .executeEmergencyRollback 1)]) ∧
    ¬ RollbacksFaithful byteHost
      (retakenRun ++ [(acceptedAt 0, .executeEmergencyRollback 1)]) := by
  constructor
  · intro h
    have hne : reached byteHost (replacedRun ++ [(acceptedAt 0, .executeEmergencyRollback 1)]) ≠
        reached byteHost replacedRun := by
      intro heq
      exact absurd (congrArg (fun s => (s.govRollbackProposal 1).map (·.executed)) heq)
        (by decide +kernel)
    have happroved := (h _ _ _ _ (Machine.executes_of_run_ne hne)).approved
    have hvoters : rollbackApprovers byteHost replacedRun 1 = {11, 12, 13, 14} := by
      decide +kernel
    have hsigners : (reached byteHost replacedRun).govEmergencySigners =
        some [21, 22, 23, 24, 25, 26, 27] := by decide +kernel
    have hnobody : (rollbackApprovers byteHost replacedRun 1 : Set ℕ) ∩
        (reached byteHost replacedRun).emergencySigners = ∅ := by
      rw [Set.eq_empty_iff_forall_notMem]
      rintro a ⟨hvoter, signers, hstored, hmem⟩
      obtain rfl : [21, 22, 23, 24, 25, 26, 27] = signers :=
        Option.some.inj (hsigners.symm.trans hstored)
      rw [hvoters] at hvoter
      simp only [Finset.coe_insert, Finset.coe_singleton, Set.mem_insert_iff,
        Set.mem_singleton_iff] at hvoter
      simp only [List.mem_cons, List.not_mem_nil, or_false] at hmem
      omega
    rw [hnobody, Set.encard_empty] at happroved
    exact absurd happroved (by decide)
  · intro h
    have hne : reached byteHost (retakenRun ++ [(acceptedAt 0, .executeEmergencyRollback 1)]) ≠
        reached byteHost retakenRun := by
      intro heq
      exact absurd (congrArg (fun s => (s.govRollbackProposal 1).map (·.executed)) heq)
        (by decide +kernel)
    have hopened : reached byteHost
        (emptySnapshotRun ++ [(acceptedAt 0, .proposeEmergencyRollback 11 7 0)]) ≠
          reached byteHost emptySnapshotRun := by
      intro heq
      exact absurd (congrArg State.govRollbackProposalCount heq) (by decide +kernel)
    have hx : (machine 0 byteHost).Executes (deployed ℕ ℕ) retakenRun emptySnapshotRun
        (acceptedAt 0, .proposeEmergencyRollback 11 7 0) _ :=
      (Machine.executes_of_run_ne hopened).mono ⟨_, rfl⟩
    have hcount : (reached byteHost emptySnapshotRun).govRollbackProposalCount = 0 := by
      decide +kernel
    have hopens := opensRollback_of_executes hx
    rw [hcount] at hopens
    obtain ⟨opening, step, u, snapshotId, hx', hopens', hstored⟩ :=
      (h _ _ _ _ (Machine.executes_of_run_ne hne)).restored
    obtain ⟨rfl, rfl⟩ := opensRollback_unique hx hopens hx' hopens'
    have hbefore : (reached byteHost emptySnapshotRun).govSnapshot 7 = some ⟨2, 3, 0⟩ := by
      decide +kernel
    have hafter : (reached byteHost
        (retakenRun ++ [(acceptedAt 0, .executeEmergencyRollback 1)])).config = ⟨2, 3, 1⟩ := by
      decide +kernel
    rw [hbefore, hafter] at hstored
    exact absurd hstored (by decide)

end Law

end MultisigAdmin
