import MentorsMind.Governance.Contract

/-! What a successful call does, said once. Everything that is proved about runs of the
contract reads it off here and never unfolds an entry point. -/
namespace Governance
open Outcome Soroban

variable {Addr : Type} [DecidableEq Addr] {self : Addr} {inv : Invocation Addr self}
  {s t : State Addr} {p : Proposal Addr} {id : ℕ}

/-- The tallies that `execute_proposal` works with. -/
abbrev State.tallyFor (s : State Addr) (id : ℕ) (p : Proposal Addr) : ℤ :=
  (s.weightedVotesFor id).getD p.votesFor

abbrev State.tallyAgainst (s : State Addr) (id : ℕ) (p : Proposal Addr) : ℤ :=
  (s.weightedVotesAgainst id).getD p.votesAgainst

/-- The quorum is met and more is for the proposal than against it. -/
structure Passes (s : State Addr) (id : ℕ) (p : Proposal Addr) : Prop where
  supply : 0 < p.totalSupplySnapshot
  quorum : p.totalSupplySnapshot * executionQuorumBps s p id ≤
    (s.tallyFor id p + s.tallyAgainst id p) * 10000
  majority : s.tallyAgainst id p < s.tallyFor id p

/-- The proposal with one more vote in its tallies. -/
def Proposal.withVote (p : Proposal Addr) (support : Bool) (weight : ℤ) : Proposal Addr :=
  if support then { p with votesFor := p.votesFor + weight }
  else { p with votesAgainst := p.votesAgainst + weight }

/-- What a vote writes. -/
def State.recordVote (s : State Addr) (id : ℕ) (p : Proposal Addr) (voter : Addr)
    (support : Bool) (weight : ℤ) (weightBps : ℕ) : State Addr :=
  { s with
    vote := Function.update s.vote (id, voter) (some support)
    voteWeight := Function.update s.voteWeight (id, voter) weight
    voteWeightMultiplier := Function.update s.voteWeightMultiplier (id, voter) weightBps
    proposal := Function.update s.proposal id (some (p.withVote support weight))
    weightedVotesFor :=
      if support then Function.update s.weightedVotesFor id
        (some ((s.weightedVotesFor id).getD 0 + weight * weightBps / 10000))
      else s.weightedVotesFor
    weightedVotesAgainst :=
      if support then s.weightedVotesAgainst
      else Function.update s.weightedVotesAgainst id
        (some ((s.weightedVotesAgainst id).getD 0 + weight * weightBps / 10000)) }

/-- What is the same after an action was carried out as before it, and the log of actions. -/
def Enacted (s t : State Addr) (id : ℕ) (p : Proposal Addr) (changes : List StatusChange) :
    Prop :=
  t = { closeProposal s id { p with status := .executed } with
    admin := t.admin
    currentFeeBps := t.currentFeeBps
    currentAutoReleaseSecs := t.currentAutoReleaseSecs
    approvedAsset := t.approvedAsset
    invoked := t.invoked
    proposalsByStatus := t.proposalsByStatus
    proposalStatusCount := t.proposalStatusCount
    applied := (id, p.action) :: s.applied
    statusChanges := changes ++ s.statusChanges }

/-- A call of another contract that an action makes. -/
def ContractCall.ofAction : ContractCall Addr → Bool
  | .execute _ _ => true
  | .markGovRollbackApproved _ _ _ => true
  | _ => false

/-- What the actions bring about. The admin is apart: other calls hand it over too. -/
structure Outcomes (Addr : Type) where
  feeBps : Option ℕ
  autoReleaseSecs : Option ℕ
  approvedAsset : Addr → Bool
  calls : List (ContractCall Addr)

def State.outcomes (s : State Addr) : Outcomes Addr :=
  ⟨s.currentFeeBps, s.currentAutoReleaseSecs, s.approvedAsset,
    s.invoked.filter ContractCall.ofAction⟩

/-- What is different once the action of the proposal is carried out. -/
def Outcomes.carry (o : Outcomes Addr) (id : ℕ) : ProposalAction Addr → Outcomes Addr
  | .updateFee newFeeBps => { o with feeBps := some newFeeBps }
  | .updateAutoRelease newDelay => { o with autoReleaseSecs := some newDelay }
  | .addAsset asset => { o with approvedAsset := Function.update o.approvedAsset asset true }
  | .updateAdmin _ => o
  | .executeCall target function _ => { o with calls := .execute target function :: o.calls }
  | .approveEmergencyRollback escrow rollbackId =>
      { o with calls := .markGovRollbackApproved escrow rollbackId id :: o.calls }

structure CarriedOut (s t : State Addr) (id : ℕ) (action : ProposalAction Addr) : Prop where
  outcomes : t.outcomes = s.outcomes.carry id action
  admin : ∀ newAdmin, action = .updateAdmin newAdmin → t.admin = some newAdmin

inductive Effect (inv : Invocation Addr self) (s t : State Addr) : Call Addr → Prop where
  | initialized {call} (fresh : s.admin = none) (eq : t = { s with
      admin := t.admin
      persistentAdmin := t.persistentAdmin
      snapshotContract := t.snapshotContract
      delegationContract := t.delegationContract
      votingPeriodSecs := t.votingPeriodSecs
      quorumBps := t.quorumBps
      proposalCount := 0
      proposalDepositAmount := t.proposalDepositAmount
      minProposerBalance := t.minProposerBalance
      maxActiveProposals := t.maxActiveProposals }) : Effect inv s t (.config call)
  | configured {call} (kept : s.admin ≠ none → t.admin ≠ none) (eq : t = { s with
      admin := t.admin
      persistentAdmin := t.persistentAdmin
      pendingAdmin := t.pendingAdmin
      timelock := t.timelock
      allowedCall := t.allowedCall
      templates := t.templates
      stakingContract := t.stakingContract
      multisigAdmin := t.multisigAdmin }) : Effect inv s t (.config call)
  | created {call} (proposer : Addr) (action : ProposalAction Addr)
      (made : call = .createProposal proposer action ∨ ∃ escrow rollbackId,
        call = .proposeRollbackReview proposer escrow rollbackId ∧
          action = .approveEmergencyRollback escrow rollbackId)
      (auth : inv.auth proposer = true) (ready : s.admin ≠ none)
      (votingEndsAt : ℕ) (totalSupplySnapshot : ℤ)
      (eq : t = { s.setProposal (s.proposalCount + 1)
          ⟨s.proposalCount + 1, proposer, action, .active, inv.timestamp, votingEndsAt,
            inv.sequence, totalSupplySnapshot, 0, 0, 0⟩ with
        proposalCount := s.proposalCount + 1
        perAddressActiveProposalCount := Function.update s.perAddressActiveProposalCount proposer
          (s.perAddressActiveProposalCount proposer + 1)
        activeProposalCount := s.activeProposalCount + 1
        customProposal := t.customProposal
        proposalDeposit := t.proposalDeposit
        invoked := t.invoked })
      (outcomes : t.outcomes = s.outcomes) : Effect inv s t call
  | voted {voter : Addr} {id : ℕ} {support : Bool} (p : Proposal Addr) (weight : ℤ)
      (auth : inv.auth voter = true) (found : s.proposal id = some p)
      (active : p.status = .active) (inTime : inv.timestamp < p.votingEndsAt)
      (first : s.vote (id, voter) = none) (weighs : votingWeight inv s p id voter = .ok weight)
      (pos : 0 < weight)
      (eq : t = s.recordVote id p voter support weight (getVotingWindow inv p).weightBps) :
      Effect inv s t (.vote voter id support)
  | failed {id : ℕ} (p : Proposal Addr) (found : s.proposal id = some p)
      (active : p.status = .active) (ended : p.votingEndsAt ≤ inv.timestamp)
      (rejected : ¬ Passes s id p)
      (eq : t = { closeProposal s id { p with status := .failed } with
        proposalsByStatus := t.proposalsByStatus
        proposalStatusCount := t.proposalStatusCount
        statusChanges := ⟨p.id, .active, .failed⟩ :: s.statusChanges }) :
      Effect inv s t (.executeProposal id)
  | queued {id : ℕ} (p : Proposal Addr) (timelock : Addr) (found : s.proposal id = some p)
      (active : p.status = .active) (ended : p.votingEndsAt ≤ inv.timestamp)
      (passes : Passes s id p)
      (isCall : ∃ target function args, p.action = .executeCall target function args)
      (due : p.votingEndsAt + executeCallTimelockSecs ≤ inv.timestamp)
      (stored : s.timelock = some timelock)
      (eq : t = { s.setProposal id { p with
          status := .queued
          timelockOpId := inv.scheduledId timelock id } with
        invoked := .schedule timelock id scheduleDelay :: s.invoked
        proposalsByStatus := t.proposalsByStatus
        proposalStatusCount := t.proposalStatusCount
        statusChanges :=
          ⟨p.id, .passed, .queued⟩ :: ⟨p.id, .active, .passed⟩ :: s.statusChanges }) :
      Effect inv s t (.executeProposal id)
  | enacted {id : ℕ} (p : Proposal Addr) (found : s.proposal id = some p)
      (active : p.status = .active) (ended : p.votingEndsAt ≤ inv.timestamp)
      (passes : Passes s id p)
      (noCall : ∀ target function args, p.action ≠ .executeCall target function args)
      (kept : s.admin ≠ none → t.admin ≠ none)
      (eq : Enacted s t id p [⟨p.id, .passed, .executed⟩, ⟨p.id, .active, .passed⟩])
      (carriedOut : CarriedOut s t id p.action) : Effect inv s t (.executeProposal id)
  | enactedQueued {id : ℕ} (p : Proposal Addr) (timelock : Addr)
      (stored : s.timelock = some timelock) (auth : inv.auth timelock = true)
      (found : s.proposal id = some p) (waiting : p.status = .queued)
      (kept : s.admin ≠ none → t.admin ≠ none)
      (eq : Enacted s t id p [⟨p.id, .queued, .executed⟩])
      (carriedOut : CarriedOut s t id p.action) : Effect inv s t (.executeQueuedProposal id)
  | cancelled {id : ℕ} {multisigActionId : Option ℕ} (p : Proposal Addr) (admin : Addr)
      (stored : s.admin = some admin) (auth : inv.auth admin = true)
      (found : s.proposal id = some p)
      (open_ : p.status ≠ .executed ∧ p.status ≠ .failed ∧ p.status ≠ .cancelled)
      (cooled : ∀ last, s.cancelCooldown (admin, p.action) = some last →
        last + cancelCooldownSecs ≤ inv.timestamp)
      (escalated : cancelEscalationThreshold ≤ countRecentCancels s admin inv.timestamp →
        requireMultisigAction inv s inv.timestamp multisigActionId = .ok ())
      (eq : t = { decrementActiveProposalCount
          (s.setProposal id { p with status := .cancelled }) p.proposer with
        treasuryBalance := t.treasuryBalance
        proposalDeposit := t.proposalDeposit
        cancelCooldown := Function.update s.cancelCooldown (admin, p.action)
          (some inv.timestamp)
        cancelCount := t.cancelCount
        cancelTimestamps := Function.update s.cancelTimestamps admin
          (recentCancels (s.cancelTimestamps admin) inv.timestamp ++ [inv.timestamp])
        statusChanges := ⟨p.id, p.status, .cancelled⟩ :: s.statusChanges }) :
      Effect inv s t (.cancelProposal id multisigActionId)

omit [DecidableEq Addr] in
theorem getProposal_eq_ok : getProposal s id = .ok p ↔ s.proposal id = some p := by
  simp [getProposal]

omit [DecidableEq Addr] in
theorem transitionProposalStatus_eq_ok {next : ProposalStatus} {r : State Addr × Proposal Addr}
    (h : transitionProposalStatus s p next = .ok r) :
    p.status.isValidTransition next = true ∧ r.2 = { p with status := next } ∧
      r.1 = { s with
        proposalsByStatus := r.1.proposalsByStatus
        proposalStatusCount := r.1.proposalStatusCount
        statusChanges := ⟨p.id, p.status, next⟩ :: s.statusChanges } := by
  simp only [transitionProposalStatus, bind_eq_ok, require_eq_ok, pure_eq_ok] at h
  obtain ⟨-, hvalid, count, -, rfl⟩ := h
  exact ⟨hvalid, rfl, rfl⟩

theorem config_effect {call : ConfigCall Addr} (h : execConfig inv call s = .ok t) :
    Effect inv s t (.config call) := by
  cases call with
  | initializeGovernance _ _ _ _ _ _ _ _ =>
    simp only [execConfig, initializeGovernance, bind_eq_ok, require_eq_ok, pure_eq_ok] at h
    obtain ⟨-, hfresh, -, -, -, -, rfl⟩ := h
    exact .initialized hfresh rfl
  | proposeAdminChange currentAdmin newAdmin =>
    simp only [execConfig, proposeAdminChange, bind_eq_ok, pure_eq_ok] at h
    obtain ⟨-, -, -, -, -, -, -, -, rfl⟩ := h
    exact .configured id rfl
  | acceptAdminChange newAdmin =>
    simp only [execConfig, acceptAdminChange, bind_eq_ok, pure_eq_ok] at h
    obtain ⟨-, -, -, -, -, -, -, -, rfl⟩ := h
    exact .configured (fun _ => Option.some_ne_none newAdmin) rfl
  | cancelAdminChange multisig =>
    simp only [execConfig, cancelAdminChange, bind_eq_ok, pure_eq_ok] at h
    obtain ⟨-, -, -, -, rfl⟩ := h
    exact .configured id rfl
  | setTimelock timelock =>
    simp only [execConfig, setTimelock, bind_eq_ok, pure_eq_ok] at h
    obtain ⟨-, -, -, -, rfl⟩ := h
    exact .configured id rfl
  | addAllowedCall admin target function =>
    simp only [execConfig, addAllowedCall, bind_eq_ok, pure_eq_ok] at h
    obtain ⟨-, -, rfl⟩ := h
    exact .configured id rfl
  | setTemplatesContract templatesContract =>
    simp only [execConfig, setTemplatesContract, bind_eq_ok, pure_eq_ok] at h
    obtain ⟨-, -, -, -, rfl⟩ := h
    exact .configured id rfl
  | setStakingContract admin stakingContract =>
    simp only [execConfig, setStakingContract, bind_eq_ok, pure_eq_ok] at h
    obtain ⟨-, -, rfl⟩ := h
    exact .configured id rfl
  | setMultisigAdmin admin multisigAdmin =>
    simp only [execConfig, setMultisigAdmin, bind_eq_ok, pure_eq_ok] at h
    obtain ⟨-, -, rfl⟩ := h
    exact .configured id rfl

/-- Only what is active passes or fails. -/
theorem active_of_isValidTransition {status next : ProposalStatus}
    (h : status.isValidTransition next = true) (hnext : next = .passed ∨ next = .failed) :
    status = .active := by
  rcases hnext with hnext | hnext
  · subst hnext
    cases status <;> first | rfl | simp [ProposalStatus.isValidTransition] at h
  · subst hnext
    cases status <;> first | rfl | simp [ProposalStatus.isValidTransition] at h

section Creation

omit [DecidableEq Addr] in
theorem markCustomProposal_eq_ok {action : ProposalAction Addr}
    (h : markCustomProposal inv s id action = .ok t) :
    t = { s with customProposal := t.customProposal } := by
  cases action with
  | executeCall target function args =>
    simp only [markCustomProposal] at h
    split at h
    · rw [← pure_eq_ok.mp h]
    · simp only [bind_eq_ok, pure_eq_ok] at h
      obtain ⟨hash, -, rfl⟩ := h
      split_ifs <;> rfl
  | _ =>
    rw [← pure_eq_ok.mp h]

/-- What `create_proposal` leaves, whoever calls it. -/
theorem createProposal_eq_ok {proposer : Addr} {action : ProposalAction Addr} {count : ℕ}
    (h : createProposal inv s proposer action = .ok (t, count)) :
    count = s.proposalCount + 1 ∧ inv.auth proposer = true ∧ s.admin ≠ none ∧
      ∃ votingEndsAt totalSupplySnapshot,
        t = { s.setProposal (s.proposalCount + 1)
            ⟨s.proposalCount + 1, proposer, action, .active, inv.timestamp, votingEndsAt,
              inv.sequence, totalSupplySnapshot, 0, 0, 0⟩ with
          proposalCount := s.proposalCount + 1
          perAddressActiveProposalCount :=
            Function.update s.perAddressActiveProposalCount proposer
              (s.perAddressActiveProposalCount proposer + 1)
          activeProposalCount := s.activeProposalCount + 1
          customProposal := t.customProposal
          proposalDeposit := t.proposalDeposit } := by
  simp only [createProposal, bind_eq_ok, requireAuth_eq_ok, require_eq_ok, pure_eq_ok,
    checkedU32_eq_ok, expect_eq_ok, checkedU64_eq_ok] at h
  obtain ⟨-, hauth, -, hready, -, -, -, -, -, -, -, -, n, ⟨-, rfl⟩, marked, hmarked, h⟩ := h
  obtain ⟨-, -, -, -, supply, -, votingEndsAt, -, -, -, h⟩ := h
  obtain ⟨rfl, rfl⟩ := Prod.mk.inj h
  refine ⟨rfl, hauth, hready, votingEndsAt, supply, ?_⟩
  rw [markCustomProposal_eq_ok hmarked]
  rfl

theorem createProposal_effect {proposer : Addr} {action : ProposalAction Addr}
    (h : exec inv (.createProposal proposer action) s = .ok t) :
    Effect inv s t (.createProposal proposer action) := by
  simp only [exec, map_eq_ok] at h
  obtain ⟨⟨u, count⟩, hcreated, rfl⟩ := h
  obtain ⟨-, hauth, hready, votingEndsAt, supply, eq⟩ := createProposal_eq_ok hcreated
  refine .created proposer action (.inl rfl) hauth hready votingEndsAt supply (by rw [eq]) ?_
  rw [eq]
  rfl

theorem proposeRollbackReview_effect {proposer escrow : Addr} {rollbackId : ℕ}
    (h : exec inv (.proposeRollbackReview proposer escrow rollbackId) s = .ok t) :
    Effect inv s t (.proposeRollbackReview proposer escrow rollbackId) := by
  simp only [exec, map_eq_ok, proposeRollbackReview, bind_eq_ok, pure_eq_ok] at h
  obtain ⟨r, ⟨-, -, ⟨u, count⟩, hcreated, -, -, rfl⟩, rfl⟩ := h
  obtain ⟨-, hauth, hready, votingEndsAt, supply, eq⟩ := createProposal_eq_ok hcreated
  refine .created proposer _ (.inr ⟨escrow, rollbackId, rfl, rfl⟩) hauth hready votingEndsAt
    supply ?_ ?_
  · rw [eq]
  · rw [eq]
    rfl

end Creation

theorem vote_effect {voter : Addr} {support : Bool} (h : vote inv s voter id support = .ok t) :
    Effect inv s t (.vote voter id support) := by
  simp only [vote, bind_eq_ok, requireAuth_eq_ok, getProposal_eq_ok, requireActiveProposal,
    require_eq_ok, checkedI128_eq_ok] at h
  obtain ⟨-, hauth, p, hfound, -, ⟨-, hactive, hinTime⟩, -, hfirst, weight, hweighs, -, hpos,
    product, ⟨-, rfl⟩, h⟩ := h
  have hfloor : (weight * (getVotingWindow inv p).weightBps).tdiv 10000 =
      weight * (getVotingWindow inv p).weightBps / 10000 :=
    Int.tdiv_eq_ediv_of_nonneg (mul_nonneg hpos.le (Int.natCast_nonneg _))
  apply Effect.voted p weight hauth hfound hactive hinTime hfirst hweighs hpos
  rw [hfloor] at h
  cases support with
  | true =>
    simp only [if_true, bind_eq_ok, checkedI128_eq_ok, pure_eq_ok] at h
    obtain ⟨votesFor, ⟨-, rfl⟩, weightedFor, ⟨-, rfl⟩, rfl⟩ := h
    rfl
  | false =>
    simp only [Bool.false_eq_true, if_false, bind_eq_ok, checkedI128_eq_ok, pure_eq_ok] at h
    obtain ⟨votesAgainst, ⟨-, rfl⟩, weightedAgainst, ⟨-, rfl⟩, rfl⟩ := h
    rfl

section Execution

omit [DecidableEq Addr] in
theorem passes_iff {quorum : Bool}
    (h : quorumMet s p id (s.tallyFor id p) (s.tallyAgainst id p) = .ok quorum) :
    (quorum = true ∧ s.tallyAgainst id p < s.tallyFor id p) ↔ Passes s id p := by
  simp only [quorumMet, bind_eq_ok, checkedI128_eq_ok] at h
  obtain ⟨total, ⟨-, rfl⟩, h⟩ := h
  split_ifs at h with hsupply
  · rw [pure_eq_ok] at h
    subst h
    constructor
    · intro hpasses
      cases hpasses.1
    · intro hpasses
      exact absurd hpasses.supply hsupply.not_gt
  · simp only [bind_eq_ok, checkedI128_eq_ok, pure_eq_ok] at h
    obtain ⟨votes, ⟨-, rfl⟩, needed, ⟨-, rfl⟩, rfl⟩ := h
    rw [decide_eq_true_eq]
    constructor
    · intro hpasses
      exact ⟨not_le.mp hsupply, hpasses.1, hpasses.2⟩
    · intro hpasses
      exact ⟨hpasses.quorum, hpasses.majority⟩

omit [DecidableEq Addr] in
theorem invoke_eq_ok {call : ContractCall Addr} (h : invoke inv s call = .ok t) :
    t = { s with invoked := call :: s.invoked } := by
  simp only [invoke, bind_eq_ok, pure_eq_ok] at h
  obtain ⟨-, -, rfl⟩ := h
  rfl

theorem applyAction_eq_ok {action : ProposalAction Addr}
    (h : applyAction inv s action id = .ok t) :
    (s.admin ≠ none → t.admin ≠ none) ∧ CarriedOut s t id action ∧ t = { s with
      admin := t.admin
      currentFeeBps := t.currentFeeBps
      currentAutoReleaseSecs := t.currentAutoReleaseSecs
      approvedAsset := t.approvedAsset
      invoked := t.invoked
      applied := (id, action) :: s.applied } := by
  simp only [applyAction, bind_eq_ok, pure_eq_ok] at h
  obtain ⟨done, hdone, rfl⟩ := h
  cases action with
  | executeCall target function args =>
    rw [invoke_eq_ok hdone]
    exact ⟨fun hadmin => hadmin, ⟨rfl, fun _ hupdates => by cases hupdates⟩, rfl⟩
  | approveEmergencyRollback escrow rollbackId =>
    rw [invoke_eq_ok hdone]
    exact ⟨fun hadmin => hadmin, ⟨rfl, fun _ hupdates => by cases hupdates⟩, rfl⟩
  | updateAdmin newAdmin =>
    rw [← pure_eq_ok.mp hdone]
    refine ⟨fun _ => Option.some_ne_none newAdmin, ⟨rfl, ?_⟩, rfl⟩
    rintro _ ⟨⟩
    rfl
  | _ =>
    rw [← pure_eq_ok.mp hdone]
    exact ⟨fun hadmin => hadmin, ⟨rfl, fun _ hupdates => by cases hupdates⟩, rfl⟩

theorem enactProposal_eq_ok (h : enactProposal inv s p id = .ok t) :
    p.status.isValidTransition .executed = true ∧ (s.admin ≠ none → t.admin ≠ none) ∧
      CarriedOut s t id p.action ∧ Enacted s t id p [⟨p.id, p.status, .executed⟩] := by
  simp only [enactProposal, bind_eq_ok, pure_eq_ok] at h
  obtain ⟨done, hdone, ⟨executed, q⟩, hmoved, rfl⟩ := h
  obtain ⟨hadmin, hcarried, happlied⟩ := applyAction_eq_ok hdone
  obtain ⟨hvalid, rfl, hexecuted⟩ := transitionProposalStatus_eq_ok hmoved
  simp only at hexecuted
  have hkept : CarriedOut s (closeProposal executed id { p with status := .executed }) id
      p.action := by
    rw [hexecuted]
    exact ⟨hcarried.outcomes, hcarried.admin⟩
  rw [happlied] at hexecuted
  refine ⟨hvalid, ?_, hkept, ?_⟩
  · rw [hexecuted]
    exact hadmin
  · rw [hexecuted, Enacted]
    rfl

omit [DecidableEq Addr] in
theorem queueProposal_eq_ok (h : queueProposal inv s p id = .ok t) :
    p.status.isValidTransition .queued = true ∧
      p.votingEndsAt + executeCallTimelockSecs ≤ inv.timestamp ∧
      ∃ timelock, s.timelock = some timelock ∧ t = { s.setProposal id { p with
          status := .queued
          timelockOpId := inv.scheduledId timelock id } with
        invoked := .schedule timelock id scheduleDelay :: s.invoked
        proposalsByStatus := t.proposalsByStatus
        proposalStatusCount := t.proposalStatusCount
        statusChanges := ⟨p.id, p.status, .queued⟩ :: s.statusChanges } := by
  simp only [queueProposal, bind_eq_ok, checkedU64_eq_ok, require_eq_ok, expect_eq_ok,
    pure_eq_ok] at h
  obtain ⟨earliest, ⟨-, rfl⟩, -, hdue, timelock, htimelock, scheduled, hscheduled,
    ⟨queued, q⟩, hmoved, rfl⟩ := h
  obtain ⟨hvalid, rfl, hqueued⟩ := transitionProposalStatus_eq_ok hmoved
  simp only at hqueued
  refine ⟨hvalid, hdue, timelock, htimelock, ?_⟩
  rw [invoke_eq_ok hscheduled] at hqueued
  rw [hqueued]
  rfl

theorem executeProposal_effect (h : executeProposal inv s id = .ok t) :
    Effect inv s t (.executeProposal id) := by
  simp only [executeProposal, bind_eq_ok, getProposal_eq_ok, require_eq_ok] at h
  obtain ⟨p, hfound, -, -, -, hended, -, -, quorum, hquorum, h⟩ := h
  have hiff := passes_iff hquorum
  by_cases hpasses : Passes s id p
  · rw [if_pos (hiff.mpr hpasses), bind_eq_ok] at h
    obtain ⟨⟨passed, q⟩, hmoved, h⟩ := h
    obtain ⟨hvalid, rfl, hpassed⟩ := transitionProposalStatus_eq_ok hmoved
    have hactive := active_of_isValidTransition hvalid (.inl rfl)
    simp only at hpassed
    split at h
    · rename_i target function args haction
      obtain ⟨-, hdue, timelock, htimelock, hqueued⟩ := queueProposal_eq_ok h
      rw [hpassed] at htimelock hqueued
      refine .queued p timelock hfound hactive hended hpasses ⟨_, _, _, haction⟩ hdue htimelock ?_
      rw [← hactive]
      exact hqueued
    · rename_i hnoCall
      obtain ⟨-, hkept, hcarried, henacted⟩ := enactProposal_eq_ok h
      rw [hpassed] at hkept hcarried henacted
      refine .enacted p hfound hactive hended hpasses hnoCall hkept ?_
        ⟨hcarried.outcomes, hcarried.admin⟩
      rw [← hactive]
      exact henacted
  · rw [if_neg (mt hiff.mp hpasses), bind_eq_ok] at h
    obtain ⟨⟨failed, q⟩, hmoved, h⟩ := h
    obtain ⟨hvalid, rfl, hfailed⟩ := transitionProposalStatus_eq_ok hmoved
    have hactive := active_of_isValidTransition hvalid (.inr rfl)
    rw [pure_eq_ok] at h
    simp only at hfailed
    refine .failed p hfound hactive hended hpasses ?_
    rw [← h, hfailed, hactive]
    rfl

theorem executeQueuedProposal_effect (h : executeQueuedProposal inv s id = .ok t) :
    Effect inv s t (.executeQueuedProposal id) := by
  simp only [executeQueuedProposal, bind_eq_ok, expect_eq_ok, requireAuth_eq_ok,
    getProposal_eq_ok, require_eq_ok] at h
  obtain ⟨timelock, hstored, -, hauth, p, hfound, -, hwaiting, h⟩ := h
  obtain ⟨-, hkept, hcarried, henacted⟩ := enactProposal_eq_ok h
  rw [hwaiting] at henacted
  exact .enactedQueued p timelock hstored hauth hfound hwaiting hkept henacted hcarried

end Execution

omit [DecidableEq Addr] in
theorem slashDeposit_eq_ok (h : slashDeposit s id = .ok t) :
    t = { s with
      treasuryBalance := t.treasuryBalance
      proposalDeposit := t.proposalDeposit } := by
  simp only [slashDeposit] at h
  split_ifs at h
  · simp only [bind_eq_ok, pure_eq_ok] at h
    obtain ⟨treasury, -, rfl⟩ := h
    rfl
  · rw [← pure_eq_ok.mp h]

theorem cancelProposal_effect {multisigActionId : Option ℕ}
    (h : cancelProposal inv s id multisigActionId = .ok t) :
    Effect inv s t (.cancelProposal id multisigActionId) := by
  simp only [cancelProposal, bind_eq_ok, expect_eq_ok, requireAuth_eq_ok, getProposal_eq_ok,
    require_eq_ok, pure_eq_ok] at h
  obtain ⟨admin, hstored, -, hauth, p, hfound, -, hexecuted, -, hfailed, -, hcancelled,
    u, hcooled, v, hescalated, slashed, hslashed, count, -, expires, -, h⟩ := h
  refine .cancelled p admin hstored hauth hfound ⟨hexecuted, hfailed, hcancelled⟩ ?_ ?_ ?_
  · intro last hlast
    simp only [requireCooledDown, hlast, bind_eq_ok, checkedU64_eq_ok, require_eq_ok] at hcooled
    obtain ⟨allowedAt, ⟨-, rfl⟩, hle⟩ := hcooled
    exact hle
  · intro hmany
    unfold requireEscalation at hescalated
    rw [if_pos hmany] at hescalated
    exact hescalated
  · rw [← h, slashDeposit_eq_ok hslashed]
    rfl

theorem exec_effect {call : Call Addr} (h : exec inv call s = .ok t) : Effect inv s t call := by
  cases call with
  | config call => exact config_effect h
  | createProposal proposer action => exact createProposal_effect h
  | proposeRollbackReview proposer escrow rollbackId => exact proposeRollbackReview_effect h
  | vote voter id support => exact vote_effect h
  | executeProposal id => exact executeProposal_effect h
  | executeQueuedProposal id => exact executeQueuedProposal_effect h
  | cancelProposal id multisigActionId => exact cancelProposal_effect h

end Governance
