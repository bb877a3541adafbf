import MentorsMind.MultisigAdmin.Proposals
import MentorsMind.MultisigAdmin.SignerCount

/-! Who approved what an execution carries out. The counter of a proposal counts the addresses
that approved it since it was proposed, also those that are signers no longer. -/
namespace MultisigAdmin
open Outcome Soroban Shared

variable {Addr Val : Type} {home : Addr}

def State.signers (s : State Addr Val) : Set Addr := {a | s.signer a = true}

variable [DecidableEq Addr]

def ballot (host : Host Addr Val) (steps : List (Step Addr Val home)) (id : ℕ) :
    List (BallotEvent Addr) :=
  (machine home host).collect (fun s step _ => ballotEvent id s step) (deployed Addr Val) steps

/-- The addresses that approved the proposal stored under `id` since it was proposed. -/
def approvers (host : Host Addr Val) (steps : List (Step Addr Val home)) (id : ℕ) : Finset Addr :=
  Ballot.voters (ballot host steps id)

/-- The call executes a proposal of the multisig to do `function` to the signer `a`. -/
def Carries (host : Host Addr Val) (function : String) (a : Addr) (s : State Addr Val)
    (step : Step Addr Val home) : Prop :=
  match step.2 with
  | .executeAction id => ∃ p, s.proposal id = some p ∧ p.action.Requests host home function a
  | _ => False

/-- The addresses that an executed proposal removed and none added again since. -/
def departed (host : Host Addr Val) (steps : List (Step Addr Val home)) : Set Addr :=
  {a | (machine home host).SwitchedOnIn (Carries host "remove_signer" a)
    (Carries host "add_signer" a) (deployed Addr Val) steps}

/-- At least the threshold of registered signers approved the proposal. -/
def Authorised (host : Host Addr Val) (steps : List (Step Addr Val home)) (id : ℕ) : Prop :=
  ∃ threshold, (reached host steps).threshold = some threshold ∧
    (threshold : ℕ∞) ≤ ((approvers host steps id : Set Addr) ∩ (reached host steps).signers).encard

/-- The approvals beyond the threshold make up for those of approvers who departed. -/
def DeparturesCovered (host : Host Addr Val) (steps : List (Step Addr Val home)) (id : ℕ) : Prop :=
  ∃ threshold p, (reached host steps).threshold = some threshold ∧
    (reached host steps).proposal id = some p ∧
    threshold + ((approvers host steps id : Set Addr) ∩ departed host steps).encard ≤
      (p.approvalCount : ℕ∞)

variable {host : Host Addr Val} {inv : Invocation Addr Val home} {s t v : State Addr Val}
  {pre : List (Step Addr Val home)} {call : Call Addr Val}

theorem ballot_snoc {id : ℕ}
    (hx : (machine home host).exec (inv, call) (reached host pre) = .ok t) :
    ballot host (pre ++ [(inv, call)]) id =
      ballot host pre id ++ (ballotEvent id (reached host pre) (inv, call)).toList :=
  Machine.collect_snoc_ok hx

theorem mem_departed_snoc {a : Addr}
    (hx : (machine home host).exec (inv, call) (reached host pre) = .ok t) :
    a ∈ departed host (pre ++ [(inv, call)]) ↔
      Carries host "remove_signer" a (reached host pre) (inv, call) ∨
        ¬ Carries host "add_signer" a (reached host pre) (inv, call) ∧
          a ∈ departed host pre := by
  unfold departed
  exact Machine.switchedOnIn_snoc_ok hx

/-- Only signers take part in a ballot. -/
theorem Effect.registered_voter (h : Effect host inv s t call) {id : ℕ} {a : Addr}
    {event : BallotEvent Addr} (hevent : ballotEvent id s (inv, call) = some event)
    (hvoter : event.voter = some a) : s.signer a = true := by
  cases h with
  | @proposed proposer target function args initialised registered =>
    obtain ⟨-, hopened⟩ := Option.ite_none_right_eq_some.mp hevent
    obtain rfl : BallotEvent.opened proposer = event := Option.some.inj hopened
    obtain rfl : proposer = a := Option.some.inj hvoter
    exact registered
  | @signed signer actionId p initialised registered =>
    obtain ⟨-, hcast⟩ := Option.ite_none_right_eq_some.mp hevent
    obtain rfl : BallotEvent.cast signer = event := Option.some.inj hcast
    obtain rfl : signer = a := Option.some.inj hvoter
    exact registered
  | initialized | executed | cancelled | emergencySignersSet | snapshotTaken | rollbackProposed
  | rollbackApproved | rolledBack => cases hevent

/-- The counter of each proposal that is stored. -/
def State.approvalCounts (s : State Addr Val) : ℕ → Option ℕ :=
  Option.map ProposalRecord.approvalCount ∘ s.proposal

theorem ProposalChange.ballotChange (h : ProposalChange inv s t call) :
    Ballot.Change s.approvalCounts t.approvalCounts s.approval t.approval
      fun id => ballotEvent id s (inv, call) := by
  unfold State.approvalCounts
  cases h with
  | @proposed proposer target function args proposal approval =>
    apply Ballot.Change.opened (s.proposalCount + 1) proposer (fun _ => rfl) _ approval
    rw [proposal, Function.comp_update]
    rfl
  | @signed signer actionId p found active first proposal approval =>
    refine .cast actionId signer p.approvalCount ?_ first (fun _ => rfl) ?_ approval
    · rw [Function.comp_apply, found, Option.map_some]
    · rw [proposal, Function.comp_update, Option.map_some]
  | settled k p q silent found active closed action expiry approvals proposal approval =>
    apply Ballot.Change.same silent _ approval
    rw [proposal]
    exact Table.map_update_eq found approvals
  | restarted silent fresh proposal approval | same silent proposal approval =>
    exact .same silent (by rw [proposal]) approval

/-- The counters count the approvers, and the flags remember them. -/
theorem run_tallied (host : Host Addr Val) (pre : List (Step Addr Val home)) (id : ℕ) :
    Ballot.Tallied (ballot host pre id) ((reached host pre).approvalCounts id)
      ((reached host pre).approval id) := by
  apply Ballot.run_tallied (M := machine home host)
  · exact fun _ => rfl
  · intro step s t hx
    exact (exec_effect hx).proposalChange.ballotChange

/-- Approvers who are signers no longer have departed, and nobody who departed is a signer. -/
structure Followed (host : Host Addr Val) (pre : List (Step Addr Val home))
    (s : State Addr Val) : Prop where
  unregistered : ∀ a ∈ departed host pre, s.signer a = false ∧ s.threshold ≠ none
  member : ∀ id, ∀ a ∈ approvers host pre id, s.signer a = true ∨ a ∈ departed host pre

omit [DecidableEq Addr] in
/-- An action asks for one operation on one signer. -/
theorem Action.Requests.unique {action : Action Addr Val} {f g : String} {a b : Addr}
    (ha : action.Requests host home f a) (hb : action.Requests host home g b) :
    f = g ∧ a = b := by
  obtain ⟨-, hf, harg⟩ := ha
  obtain ⟨-, hg, harg'⟩ := hb
  rw [harg] at harg'
  exact ⟨hf.symm.trans hg, Except.ok.inj harg'⟩

/-- Who is a signer after an action: whoever it adds, and every other signer unless it removes
them. -/
theorem Dispatched.signer_iff {action : Action Addr Val} (h : Dispatched host home s v action)
    (a : Addr) : v.signer a = true ↔ action.Requests host home "add_signer" a ∨
      ¬ action.Requests host home "remove_signer" a ∧ s.signer a = true := by
  cases h with
  | added signer requested unregistered eq =>
    have hadd : action.Requests host home "add_signer" a ↔ a = signer :=
      ⟨fun ha => (ha.unique requested).2, fun ha => ha ▸ requested⟩
    have hremove : ¬ action.Requests host home "remove_signer" a :=
      fun ha => absurd (ha.unique requested).1 (by decide)
    rw [hadd, and_iff_right hremove, eq]
    by_cases ha : a = signer
    · simp [ha]
    · simp [ha]
  | removed signer requested registered pos le eq =>
    have hadd : ¬ action.Requests host home "add_signer" a :=
      fun ha => absurd (ha.unique requested).1 (by decide)
    have hremove : action.Requests host home "remove_signer" a ↔ a = signer :=
      ⟨fun ha => (ha.unique requested).2, fun ha => ha ▸ requested⟩
    rw [or_iff_right hadd, hremove, eq]
    by_cases ha : a = signer
    · simp [ha]
    · simp [ha]
  | rethresholded threshold target function pos le eq =>
    have hnot : ∀ f, f ≠ "update_threshold" → ¬ action.Requests host home f a :=
      fun f hf ha => hf (ha.2.1.symm.trans function)
    rw [or_iff_right (hnot _ (by decide)), and_iff_right (hnot _ (by decide)), eq]
  | called foreign eq =>
    have hnot : ∀ f, ¬ action.Requests host home f a := fun f ha => foreign ha.1
    rw [or_iff_right (hnot _), and_iff_right (hnot _), eq]

omit [DecidableEq Addr] in
theorem carries_iff {id : ℕ} {p : ProposalRecord Addr Val} (hfound : s.proposal id = some p)
    (f : String) (a : Addr) : Carries host f a s (inv, .executeAction id) ↔
      p.action.Requests host home f a := by
  constructor
  · rintro ⟨q, hq, hrequests⟩
    obtain rfl : p = q := Option.some.inj (hfound.symm.trans hq)
    exact hrequests
  · intro hrequests
    exact ⟨p, hfound, hrequests⟩

/-- Whoever has approved by the end of a call was a signer before it, or had departed. -/
theorem Followed.member_snoc (hs : Followed host pre (reached host pre))
    (hx : (machine home host).exec (inv, call) (reached host pre) = .ok t) :
    ∀ id, ∀ a ∈ approvers host (pre ++ [(inv, call)]) id,
      (reached host pre).signer a = true ∨ a ∈ departed host pre := by
  intro id a ha
  have heffect : Effect host inv (reached host pre) t call := exec_effect hx
  unfold approvers at ha
  rw [ballot_snoc hx] at ha
  rcases Ballot.mem_voters_append ha with ⟨event, hevent, hvoter⟩ | hbefore
  · exact .inl (heffect.registered_voter hevent hvoter)
  · exact hs.member id a hbefore

/-- A call that neither adds nor removes a signer keeps its signers. -/
theorem Followed.of_kept (hs : Followed host pre (reached host pre))
    (hx : (machine home host).exec (inv, call) (reached host pre) = .ok t)
    (hsigner : ∀ a, (reached host pre).signer a = true → t.signer a = true)
    (hgone : ∀ a ∈ departed host pre, t.signer a = false ∧ t.threshold ≠ none)
    (hadds : ∀ a, ¬ Carries host "add_signer" a (reached host pre) (inv, call))
    (hremoves : ∀ a, ¬ Carries host "remove_signer" a (reached host pre) (inv, call)) :
    Followed host (pre ++ [(inv, call)]) t := by
  have hsame : ∀ a, a ∈ departed host (pre ++ [(inv, call)]) ↔ a ∈ departed host pre := by
    intro a
    rw [mem_departed_snoc hx, or_iff_right (hremoves a), and_iff_right (hadds a)]
  refine ⟨fun a ha => hgone a ((hsame a).mp ha), fun id a ha => ?_⟩
  rw [hsame]
  exact (hs.member_snoc hx id a ha).imp_left (hsigner a)

theorem Followed.snoc (hs : Followed host pre (reached host pre))
    (hx : (machine home host).exec (inv, call) (reached host pre) = .ok t) :
    Followed host (pre ++ [(inv, call)]) t := by
  have heffect : Effect host inv (reached host pre) t call := exec_effect hx
  have hdeparted := fun a => mem_departed_snoc (a := a) hx
  have hmember := hs.member_snoc hx
  have hblank := (run_bounded host pre).blank
  have hkept := hs.of_kept hx
  generalize reached host pre = s at *
  cases heffect with
  | @initialized signers threshold registered fresh pos le registers eq =>
    apply hkept _ _ (fun _ => not_false) fun _ => not_false
    · intro a ha
      rw [(hblank fresh).2 a] at ha
      cases ha
    · intro a ha
      exact absurd fresh (hs.unregistered a ha).2
  | @executed actionId p threshold v stored found active due enough intact dispatch_eq eq =>
    have hdispatched := dispatch_spec dispatch_eq
    have hcarries : ∀ f a, Carries host f a s (inv, .executeAction actionId) ↔
        p.action.Requests host home f a := carries_iff found
    have hsigner : ∀ a, t.signer a = true ↔ p.action.Requests host home "add_signer" a ∨
        ¬ p.action.Requests host home "remove_signer" a ∧ s.signer a = true := by
      rw [eq]
      exact hdispatched.signer_iff
    refine ⟨fun a ha => ⟨?_, ?_⟩, fun id a ha => ?_⟩
    · rw [Bool.eq_false_iff, ne_eq, hsigner]
      rw [hdeparted, hcarries, hcarries] at ha
      rcases ha with hremove | ⟨hadd, hbefore⟩
      · rintro (hadd | ⟨hremove', -⟩)
        · exact absurd (hadd.unique hremove).1 (by decide)
        · exact hremove' hremove
      · rintro (hadd' | ⟨-, hregistered⟩)
        · exact hadd hadd'
        · rw [(hs.unregistered a hbefore).1] at hregistered
          cases hregistered
    · rw [eq]
      exact hdispatched.threshold_ne_none (by simp [stored])
    · rw [hsigner, hdeparted, hcarries, hcarries]
      by_cases hremove : p.action.Requests host home "remove_signer" a
      · exact .inr (.inl hremove)
      · by_cases hadd : p.action.Requests host home "add_signer" a
        · exact .inl (.inl hadd)
        · rcases hmember id a ha with hregistered | hgone
          · exact .inl (.inr ⟨hremove, hregistered⟩)
          · exact .inr (.inr ⟨hadd, hgone⟩)
  | rolledBack _ _ _ _ _ _ eq =>
    subst eq
    exact hkept (fun _ ha => ha) (fun a ha => ⟨(hs.unregistered a ha).1, nofun⟩)
      (fun _ => not_false) fun _ => not_false
  | proposed _ _ _ eq | signed _ _ _ _ _ _ _ _ eq | cancelled _ _ _ _ _ _ eq
  | emergencySignersSet _ _ _ _ _ eq | snapshotTaken _ _ _ _ _ _ _ eq
  | rollbackProposed _ _ _ _ _ eq | rollbackApproved _ _ _ _ _ _ _ _ eq =>
    subst eq
    exact hkept (fun _ ha => ha) hs.unregistered (fun _ => not_false) fun _ => not_false

theorem run_followed (host : Host Addr Val) (pre : List (Step Addr Val home)) :
    Followed host pre (reached host pre) := by
  apply Machine.run_history (P := fun pre s => Followed host pre s)
  · refine ⟨fun a ha => ?_, fun id a ha => ?_⟩
    · exact absurd ha Machine.not_switchedOnIn_nil
    · exact absurd ha (Finset.notMem_empty a)
  · intro pre step t hs hx
    exact hs.snoc hx
  · intro pre step e hs herror
    have hdeparted : departed host (pre ++ [step]) = departed host pre := by
      unfold departed
      ext a
      exact Machine.switchedOnIn_snoc_error herror
    refine ⟨?_, fun id => ?_⟩
    · rw [hdeparted]
      exact hs.unregistered
    · have hsame : ballot host (pre ++ [step]) id = ballot host pre id :=
        Machine.collect_snoc_error herror
      unfold approvers
      rw [hsame, hdeparted]
      exact hs.member id

/-- The registered approvers of a proposal reach the threshold exactly if the approvals beyond
the threshold make up for the approvers that departed. -/
theorem authorised_iff_covered {steps : List (Step Addr Val home)} {id : ℕ}
    (hx : (machine home host).Executes (deployed Addr Val) steps pre (inv, .executeAction id) t) :
    Authorised host pre id ↔ DeparturesCovered host pre id := by
  cases effect_of_executes hx with
  | executed p threshold v stored found =>
    have hfollowed := run_followed host pre
    have hcount : (approvers host pre id).card = p.approvalCount := by
      apply (run_tallied host pre id).counted
      unfold State.approvalCounts
      rw [Function.comp_apply, found, Option.map_some]
    have hdisjoint : Disjoint (reached host pre).signers (departed host pre) := by
      rw [Set.disjoint_left]
      intro a hsigner hgone
      have hregistered : (reached host pre).signer a = true := hsigner
      rw [(hfollowed.unregistered a hgone).1] at hregistered
      cases hregistered
    have hle : (threshold : ℕ∞) ≤
        ((approvers host pre id : Set Addr) ∩ (reached host pre).signers).encard ↔
          threshold + ((approvers host pre id : Set Addr) ∩ departed host pre).encard ≤
            (p.approvalCount : ℕ∞) := by
      rw [← hcount]
      exact Ballot.le_encard_inter_iff (Set.encard_coe_eq_coe_finsetCard _)
        (hfollowed.member id) hdisjoint
    constructor
    · rintro ⟨n, hn, henough⟩
      obtain rfl : threshold = n := Option.some.inj (stored.symm.trans hn)
      exact ⟨threshold, p, stored, found, hle.mp henough⟩
    · rintro ⟨n, q, hn, hq, hcovered⟩
      obtain rfl : threshold = n := Option.some.inj (stored.symm.trans hn)
      obtain rfl : p = q := Option.some.inj (found.symm.trans hq)
      exact ⟨threshold, stored, hle.mpr hcovered⟩

/-- Whatever the run executes was approved by the threshold of registered signers. -/
def ExecutionsAuthorised (host : Host Addr Val) (steps : List (Step Addr Val home)) : Prop :=
  ∀ pre inv id t, (machine home host).Executes (deployed Addr Val) steps pre
    (inv, .executeAction id) t → Authorised host pre id

def ExecutionsCovered (host : Host Addr Val) (steps : List (Step Addr Val home)) : Prop :=
  ∀ pre inv id t, (machine home host).Executes (deployed Addr Val) steps pre
    (inv, .executeAction id) t → DeparturesCovered host pre id

/-- All executions are authorised if and only if the approvals of each make up for the approvers
that departed before it. -/
theorem executionsAuthorised_iff (host : Host Addr Val) (steps : List (Step Addr Val home)) :
    ExecutionsAuthorised host steps ↔ ExecutionsCovered host steps := by
  constructor
  · intro h pre inv id t hx
    exact (authorised_iff_covered hx).mp (h pre inv id t hx)
  · intro h pre inv id t hx
    exact (authorised_iff_covered hx).mpr (h pre inv id t hx)

/-- Two of three signers approve a call of another contract, and then one of them is removed. -/
def removedApproverRun : List (Step ℕ ℕ 0) :=
  [(acceptedAt 0, .initializeMultisig [1, 2, 3] 2),
    (acceptedAt 0, .proposeAction 1 9 "pause" []),
    (acceptedAt 0, .signAction 2 1),
    (acceptedAt 0, .proposeAction 2 0 "remove_signer" [1]),
    (acceptedAt 0, .signAction 3 2),
    (acceptedAt 0, .executeAction 2)]

/-- The call is executed with the approval of one registered signer where two are needed. -/
theorem removedApproverRun_unauthorised :
    ¬ ExecutionsAuthorised byteHost (removedApproverRun ++ [(acceptedAt 0, .executeAction 1)]) := by
  intro h
  have hne : reached byteHost (removedApproverRun ++ [(acceptedAt 0, .executeAction 1)]) ≠
      reached byteHost removedApproverRun := by
    intro heq
    exact absurd (congrArg (fun s => s.invoked) heq) (by decide +kernel)
  obtain ⟨threshold, hthreshold, hle⟩ := h _ _ _ _ (Machine.executes_of_run_ne hne)
  have htwo : (reached byteHost removedApproverRun).threshold = some 2 := by decide +kernel
  have hgone : (reached byteHost removedApproverRun).signer 1 = false := by decide +kernel
  have hvoters : approvers byteHost removedApproverRun 1 = {1, 2} := by decide +kernel
  obtain rfl : 2 = threshold := Option.some.inj (htwo.symm.trans hthreshold)
  have hsub : (approvers byteHost removedApproverRun 1 : Set ℕ) ∩
      (reached byteHost removedApproverRun).signers ⊆ {2} := by
    intro a ha
    obtain ⟨hvoter, hsigner⟩ := ha
    have hregistered : (reached byteHost removedApproverRun).signer a = true := hsigner
    rw [hvoters] at hvoter
    have hcases : a = 1 ∨ a = 2 := by simpa using hvoter
    rcases hcases with rfl | rfl
    · rw [hgone] at hregistered
      cases hregistered
    · rfl
  have hone := hle.trans (Set.encard_le_encard hsub)
  rw [Set.encard_singleton] at hone
  exact absurd hone (by decide)

end MultisigAdmin
