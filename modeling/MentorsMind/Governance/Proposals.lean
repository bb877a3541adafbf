import MentorsMind.Governance.Effects
import MentorsMind.Lib.Table
import MentorsMind.Lib.Trail

/-! What a call does to the stored proposals. They are added under numbers that were never used,
and rewritten without touching the terms they were made on; each change of a status is logged. -/
namespace Governance
open Outcome Soroban

variable {Addr : Type} {home : Addr}

/-- Whether the proposal takes one of the slots for active proposals. -/
def ProposalStatus.isOpen : ProposalStatus → Bool
  | .active => true
  | .queued => true
  | _ => false

theorem ProposalStatus.isOpen_iff {status : ProposalStatus} :
    status.isOpen = true ↔ status = .active ∨ status = .queued := by
  cases status <;> simp [ProposalStatus.isOpen]

/-- Everything about a proposal that never changes. -/
structure SameTerms (p q : Proposal Addr) : Prop where
  id : q.id = p.id
  proposer : q.proposer = p.proposer
  action : q.action = p.action
  createdAt : q.createdAt = p.createdAt
  votingEndsAt : q.votingEndsAt = p.votingEndsAt
  snapshotLedger : q.snapshotLedger = p.snapshotLedger
  totalSupplySnapshot : q.totalSupplySnapshot = p.totalSupplySnapshot

theorem sameTerms_withVote (p : Proposal Addr) (support : Bool) (weight : ℤ) :
    SameTerms p (p.withVote support weight) := by
  cases support <;> constructor <;> rfl

theorem sameTerms_withStatus (p : Proposal Addr) (status : ProposalStatus) :
    SameTerms p { p with status := status } := by
  constructor <;> rfl

@[simp] theorem Proposal.withVote_status (p : Proposal Addr) (support : Bool) (weight : ℤ) :
    (p.withVote support weight).status = p.status := by
  cases support <;> rfl

/-- The table of proposals is well kept. A proposal that passed is executed or queued by the same
call, so that none is stored as passed. -/
structure Registered (s : State Addr) : Prop where
  id_eq : ∀ id p, s.proposal id = some p → p.id = id
  unpassed : ∀ id p, s.proposal id = some p → p.status ≠ .passed
  numbered : ∀ id, s.proposalCount < id → s.proposal id = none
  unready : s.admin = none → ∀ id, s.proposal id = none

section Registered

variable {s t : State Addr} {id : ℕ} {p q : Proposal Addr}

theorem registered_deployed : Registered (deployed Addr) where
  id_eq id p h := by cases h
  unpassed id p h := by cases h
  numbered id h := rfl
  unready h id := rfl

theorem Registered.fresh (hs : Registered s) : s.proposal (s.proposalCount + 1) = none :=
  hs.numbered _ (Nat.lt_succ_self _)

theorem Registered.isOpen (hs : Registered s) (hfound : s.proposal id = some p)
    (hlive : p.status ≠ .executed ∧ p.status ≠ .failed ∧ p.status ≠ .cancelled) :
    p.status.isOpen = true := by
  have hunpassed := hs.unpassed id p hfound
  rw [ProposalStatus.isOpen_iff]
  cases hstatus : p.status <;> simp_all

/-- Nothing about the table is different. -/
theorem Registered.keep (hs : Registered s) (hproposal : t.proposal = s.proposal)
    (hcount : t.proposalCount = s.proposalCount) (hadmin : s.admin ≠ none → t.admin ≠ none) :
    Registered t := by
  constructor
  · rw [hproposal]
    exact hs.id_eq
  · rw [hproposal]
    exact hs.unpassed
  · rw [hproposal, hcount]
    exact hs.numbered
  · intro hnone
    rw [hproposal]
    exact hs.unready (not_imp_not.mp hadmin hnone)

/-- One stored proposal is rewritten. -/
theorem Registered.rewrite (hs : Registered s) (hfound : s.proposal id = some p)
    (hproposal : t.proposal = Function.update s.proposal id (some q)) (hid : q.id = p.id)
    (hstatus : q.status ≠ .passed) (hcount : t.proposalCount = s.proposalCount)
    (hadmin : s.admin ≠ none → t.admin ≠ none) : Registered t := by
  have hready : s.admin ≠ none := by
    intro hnone
    rw [hs.unready hnone id] at hfound
    cases hfound
  constructor
  · rw [hproposal]
    apply Table.forall_update hs.id_eq
    rw [hid]
    exact hs.id_eq id p hfound
  · rw [hproposal]
    exact Table.forall_update hs.unpassed hstatus
  · rw [hproposal, hcount]
    exact Table.none_update hs.numbered hfound
  · intro hnone
    exact absurd hnone (hadmin hready)

end Registered

variable [DecidableEq Addr] {inv : Invocation Addr home} {s t : State Addr} {call : Call Addr}

theorem Effect.registered (h : Effect inv s t call) (hs : Registered s) : Registered t := by
  cases h with
  | initialized fresh eq =>
    rw [eq]
    constructor
    · exact hs.id_eq
    · exact hs.unpassed
    · intro id _
      exact hs.unready fresh id
    · intro _
      exact hs.unready fresh
  | configured kept eq =>
    rw [eq]
    exact hs.keep rfl rfl kept
  | created proposer action _ _ ready votingEndsAt supply eq =>
    rw [eq]
    constructor
    · exact Table.forall_update hs.id_eq rfl
    · apply Table.forall_update hs.unpassed
      intro hpassed
      cases hpassed
    · intro id hid
      have hne : id ≠ s.proposalCount + 1 := hid.ne'
      exact Table.update_eq_none_iff.mpr ⟨hne, hs.numbered id (Nat.lt_of_succ_lt hid)⟩
    · intro hnone
      exact absurd hnone ready
  | @voted voter id support p weight _ found active _ _ _ _ eq =>
    rw [eq]
    have hstatus : (p.withVote support weight).status ≠ .passed := by
      rw [Proposal.withVote_status, active]
      exact nofun
    apply hs.rewrite (t := s.recordVote id p voter support weight _) found rfl
      (sameTerms_withVote p support weight).id hstatus rfl
    exact fun hadmin => hadmin
  | failed p found _ _ _ eq =>
    rw [eq]
    exact hs.rewrite found rfl rfl nofun rfl fun hadmin => hadmin
  | queued p timelock found _ _ _ _ _ _ eq =>
    rw [eq]
    exact hs.rewrite found rfl rfl nofun rfl fun hadmin => hadmin
  | enacted p found _ _ _ _ kept eq =>
    rw [eq] at kept ⊢
    exact hs.rewrite found rfl rfl nofun rfl kept
  | enactedQueued p timelock _ _ found _ kept eq =>
    rw [eq] at kept ⊢
    exact hs.rewrite found rfl rfl nofun rfl kept
  | cancelled p admin _ _ found _ _ _ eq =>
    rw [eq]
    exact hs.rewrite found rfl rfl nofun rfl fun hadmin => hadmin

theorem run_registered (steps : List (Step Addr home)) : Registered (reached steps) :=
  Machine.run_invariant registered_deployed
    (fun _ _ _ hs hx => (exec_effect hx).registered hs) steps

/-- What a call does to the table of proposals, to the counts of the open ones and to the log of
their statuses. -/
inductive Turn (s t : State Addr) : Prop where
  | still (proposal : t.proposal = s.proposal) (log : t.statusChanges = s.statusChanges)
      (active : t.activeProposalCount = s.activeProposalCount)
      (perAddress : t.perAddressActiveProposalCount = s.perAddressActiveProposalCount)
  | opened (p : Proposal Addr) (id : p.id = s.proposalCount + 1) (status : p.status = .active)
      (proposal : t.proposal = Function.update s.proposal (s.proposalCount + 1) (some p))
      (log : t.statusChanges = s.statusChanges)
      (active : t.activeProposalCount = s.activeProposalCount + 1)
      (perAddress : t.perAddressActiveProposalCount =
        Function.update s.perAddressActiveProposalCount p.proposer
          (s.perAddressActiveProposalCount p.proposer + 1))
  | moved (id : ℕ) (p q : Proposal Addr) (changes : List StatusChange)
      (found : s.proposal id = some p) (same : SameTerms p q) (isOpen : p.status.isOpen = true)
      (left : q.status = .active → p.status = .active)
      (proposal : t.proposal = Function.update s.proposal id (some q))
      (log : t.statusChanges = changes ++ s.statusChanges)
      (own : ∀ change ∈ changes, change.id = id)
      (trail : Trail StatusChange.source StatusChange.target p.status changes.reverse q.status)
      (active : t.activeProposalCount =
        if q.status.isOpen then s.activeProposalCount else s.activeProposalCount - 1)
      (perAddress : t.perAddressActiveProposalCount =
        if q.status.isOpen then s.perAddressActiveProposalCount
        else Function.update s.perAddressActiveProposalCount p.proposer
          (s.perAddressActiveProposalCount p.proposer - 1))

theorem Effect.turn (h : Effect inv s t call) (hs : Registered s) : Turn s t := by
  cases h with
  | initialized fresh eq =>
    rw [eq]
    exact .still rfl rfl rfl rfl
  | configured kept eq =>
    rw [eq]
    exact .still rfl rfl rfl rfl
  | created proposer action _ _ ready votingEndsAt supply eq =>
    rw [eq]
    exact .opened _ rfl rfl rfl rfl rfl rfl
  | @voted voter id support p weight _ found active _ _ _ _ eq =>
    rw [eq]
    have hopen : p.status.isOpen = true := ProposalStatus.isOpen_iff.mpr (.inl active)
    apply Turn.moved id p (p.withVote support weight) [] found
      (sameTerms_withVote p support weight) hopen
    · rw [Proposal.withVote_status]
      exact fun hactive => hactive
    · rfl
    · rfl
    · simp
    · rw [Proposal.withVote_status]
      exact rfl
    · rw [Proposal.withVote_status, if_pos hopen]
      rfl
    · rw [Proposal.withVote_status, if_pos hopen]
      rfl
  | @failed id p found active _ _ eq =>
    rw [eq]
    have hopen : p.status.isOpen = true := ProposalStatus.isOpen_iff.mpr (.inl active)
    apply Turn.moved id p _ [⟨p.id, .active, .failed⟩] found (sameTerms_withStatus p .failed)
      hopen nofun rfl rfl
    · simpa using hs.id_eq id p found
    · exact ⟨active.symm, rfl⟩
    · rfl
    · rfl
  | @queued id p timelock found active _ _ _ _ _ eq =>
    rw [eq]
    have hopen : p.status.isOpen = true := ProposalStatus.isOpen_iff.mpr (.inl active)
    apply Turn.moved id p
      { p with status := .queued, timelockOpId := inv.scheduledId timelock id }
      [⟨p.id, .passed, .queued⟩, ⟨p.id, .active, .passed⟩] found
      ⟨rfl, rfl, rfl, rfl, rfl, rfl, rfl⟩ hopen nofun rfl rfl
    · simpa using hs.id_eq id p found
    · exact ⟨active.symm, rfl, rfl⟩
    · rfl
    · rfl
  | @enacted id p found active _ _ _ _ eq =>
    rw [eq]
    have hopen : p.status.isOpen = true := ProposalStatus.isOpen_iff.mpr (.inl active)
    apply Turn.moved id p _ [⟨p.id, .passed, .executed⟩, ⟨p.id, .active, .passed⟩] found
      (sameTerms_withStatus p .executed) hopen nofun rfl rfl
    · simpa using hs.id_eq id p found
    · exact ⟨active.symm, rfl, rfl⟩
    · rfl
    · rfl
  | @enactedQueued id p timelock _ _ found waiting _ eq =>
    rw [eq]
    have hopen : p.status.isOpen = true := ProposalStatus.isOpen_iff.mpr (.inr waiting)
    apply Turn.moved id p _ [⟨p.id, .queued, .executed⟩] found
      (sameTerms_withStatus p .executed) hopen nofun rfl rfl
    · simpa using hs.id_eq id p found
    · exact ⟨waiting.symm, rfl⟩
    · rfl
    · rfl
  | @cancelled id action p admin _ _ found open_ _ _ eq =>
    rw [eq]
    have hopen : p.status.isOpen = true := hs.isOpen found open_
    apply Turn.moved id p _ [⟨p.id, p.status, .cancelled⟩] found
      (sameTerms_withStatus p .cancelled) hopen nofun rfl rfl
    · simpa using hs.id_eq id p found
    · exact ⟨rfl, rfl⟩
    · rfl
    · rfl

/-- A proposal that is no longer open stays as it is. -/
theorem Turn.closed {id : ℕ} {p : Proposal Addr} (h : Turn s t) (hs : Registered s)
    (hfound : s.proposal id = some p) (hclosed : p.status.isOpen = false) :
    t.proposal id = some p := by
  cases h with
  | still proposal _ _ _ =>
    rw [proposal]
    exact hfound
  | opened q _ _ proposal _ _ _ =>
    rw [proposal, Table.update_eq_some_iff]
    right
    constructor
    · rintro rfl
      rw [hs.fresh] at hfound
      cases hfound
    · exact hfound
  | moved i q r _ found _ isOpen _ proposal _ _ _ _ _ =>
    rw [proposal, Table.update_eq_some_iff]
    right
    constructor
    · rintro rfl
      obtain rfl := Option.some.inj (hfound.symm.trans found)
      rw [hclosed] at isOpen
      cases isOpen
    · exact hfound

/-- A proposal keeps its terms, and once it is not active it will not be active again. -/
theorem Turn.progress {id : ℕ} {p : Proposal Addr} (h : Turn s t) (hs : Registered s)
    (hfound : s.proposal id = some p) : ∃ q, t.proposal id = some q ∧ SameTerms p q ∧
      (q.status = .active → p.status = .active) := by
  cases h with
  | still proposal _ _ _ =>
    rw [proposal]
    exact ⟨p, hfound, sameTerms_withStatus p p.status, fun hactive => hactive⟩
  | opened q _ _ proposal _ _ _ =>
    have hne : id ≠ s.proposalCount + 1 := by
      rintro rfl
      rw [hs.fresh] at hfound
      cases hfound
    rw [proposal, Function.update_of_ne hne]
    exact ⟨p, hfound, sameTerms_withStatus p p.status, fun hactive => hactive⟩
  | moved i q r _ found same _ left proposal _ _ _ _ _ =>
    rw [proposal]
    by_cases hi : id = i
    · subst hi
      obtain rfl := Option.some.inj (hfound.symm.trans found)
      exact ⟨r, Function.update_self .., same, left⟩
    · rw [Function.update_of_ne hi]
      exact ⟨p, hfound, sameTerms_withStatus p p.status, fun hactive => hactive⟩

theorem exec_turn {step : Step Addr home} {pre : List (Step Addr home)}
    (h : (machine home).exec step (reached pre) = .ok t) : Turn (reached pre) t :=
  (exec_effect h).turn (run_registered pre)

/-- An invocation that every account signed, in which each voter has a stake of a hundred, the
whole supply, and the other contracts accept what they are asked. -/
def answered (now : ℕ) : Invocation ℕ 0 where
  toEnv := signedByAll now
  recordSnapshot _ _ := true
  totalSupplyAt _ _ := some 100
  snapshotBalance _ _ _ := some 100
  votingPower _ _ _ := some 100
  delegatedPowerAtSnapshot _ _ _ := some 0
  stakedAt _ _ := some 0
  templateHash _ _ _ := some none
  accepts _ := true
  scheduledId _ _ := 7
  multisigProposal _ _ := none
  multisigThreshold _ := none
  multisigExecutes _ _ := false

end Governance
