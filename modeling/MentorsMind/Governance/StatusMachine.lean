import MentorsMind.Governance.Proposals
import MentorsMind.Lib.Ballot

/-! The statuses of proposals and the counts of the open ones. The counts are exact in every run.
The changes of statuses are the valid ones in exactly the runs that cancel no queued proposal:
`cancel_proposal` writes the status itself, without the check that the other paths make. -/
namespace Governance
open Outcome Soroban

variable {Addr : Type} [DecidableEq Addr] {home : Addr} {inv : Invocation Addr home}
  {s t : State Addr} {call : Call Addr}

section Counts

omit [DecidableEq Addr] in
/-- Which stored proposals satisfy a test. -/
def State.satisfying (s : State Addr) (test : Proposal Addr → Bool) (id : ℕ) : Bool :=
  (s.proposal id).any test

def Proposal.isOpen (p : Proposal Addr) : Bool := p.status.isOpen

def Proposal.isOpenOf (proposer : Addr) (p : Proposal Addr) : Bool :=
  p.status.isOpen && decide (p.proposer = proposer)

/-- The stored counts are those of the open proposals, of everybody and of each proposer. -/
structure CountsOpen (s : State Addr) : Prop where
  active : CountsFlags s.activeProposalCount (s.satisfying Proposal.isOpen)
  perAddress : ∀ proposer, CountsFlags (s.perAddressActiveProposalCount proposer)
    (s.satisfying (Proposal.isOpenOf proposer))

variable {test : Proposal Addr → Bool} {id : ℕ} {p q : Proposal Addr}

omit [DecidableEq Addr] in
theorem satisfying_of_found (h : s.proposal id = some p) : s.satisfying test id = test p := by
  rw [State.satisfying, h, Option.any_some]

omit [DecidableEq Addr] in
theorem satisfying_of_none (h : s.proposal id = none) : s.satisfying test id = false := by
  rw [State.satisfying, h, Option.any_none]

omit [DecidableEq Addr] in
theorem satisfying_update (h : t.proposal = Function.update s.proposal id (some q)) :
    t.satisfying test = Function.update (s.satisfying test) id (test q) := by
  funext i
  unfold State.satisfying
  rw [h]
  by_cases hi : i = id
  · rw [hi, Function.update_self, Function.update_self, Option.any_some]
  · rw [Function.update_of_ne hi, Function.update_of_ne hi]

theorem countsOpen_deployed : CountsOpen (deployed Addr) := by
  constructor
  · exact CountsFlags.empty fun _ => rfl
  · intro proposer
    exact CountsFlags.empty fun _ => rfl

theorem Turn.countsOpen (h : Turn s t) (hs : Registered s) (hc : CountsOpen s) :
    CountsOpen t := by
  cases h with
  | still proposal log active perAddress =>
    constructor
    · rw [active, show t.satisfying Proposal.isOpen = s.satisfying Proposal.isOpen by
        unfold State.satisfying; rw [proposal]]
      exact hc.active
    · intro proposer
      rw [perAddress, show t.satisfying (Proposal.isOpenOf proposer) =
        s.satisfying (Proposal.isOpenOf proposer) by unfold State.satisfying; rw [proposal]]
      exact hc.perAddress proposer
  | opened p id status proposal log active perAddress =>
    have hopen : p.status.isOpen = true := ProposalStatus.isOpen_iff.mpr (.inl status)
    constructor
    · rw [active, satisfying_update proposal, Proposal.isOpen, hopen]
      exact hc.active.set (satisfying_of_none hs.fresh)
    · intro proposer
      rw [perAddress, satisfying_update proposal, Proposal.isOpenOf, hopen, Bool.true_and]
      by_cases howner : p.proposer = proposer
      · subst howner
        rw [Function.update_self, decide_eq_true rfl]
        exact (hc.perAddress p.proposer).set (satisfying_of_none hs.fresh)
      · rw [Function.update_of_ne (Ne.symm howner), decide_eq_false howner]
        exact (hc.perAddress proposer).keep (satisfying_of_none hs.fresh)
  | moved id p q changes found same isOpen left proposal log own trail active perAddress =>
    constructor
    · rw [active, satisfying_update proposal, Proposal.isOpen]
      have hbefore : s.satisfying Proposal.isOpen id = true :=
        (satisfying_of_found found).trans isOpen
      cases hq : q.status.isOpen with
      | true => exact hc.active.keep hbefore
      | false => exact hc.active.clear hbefore
    · intro proposer
      rw [perAddress, satisfying_update proposal, Proposal.isOpenOf, same.proposer]
      have hbefore : s.satisfying (Proposal.isOpenOf proposer) id =
          decide (p.proposer = proposer) := by
        rw [satisfying_of_found found, Proposal.isOpenOf, isOpen, Bool.true_and]
      cases hq : q.status.isOpen with
      | true => exact (hc.perAddress proposer).keep hbefore
      | false =>
        by_cases howner : p.proposer = proposer
        · subst howner
          rw [if_neg Bool.false_ne_true, Function.update_self]
          exact (hc.perAddress p.proposer).clear (hbefore.trans (decide_eq_true rfl))
        · rw [if_neg Bool.false_ne_true, Function.update_of_ne (Ne.symm howner)]
          exact (hc.perAddress proposer).keep (hbefore.trans (decide_eq_false howner))

theorem run_countsOpen (steps : List (Step Addr home)) : CountsOpen (reached steps) :=
  Machine.run_history (P := fun _ => CountsOpen) countsOpen_deployed
    (fun pre _ _ hs hx => (exec_turn hx).countsOpen (run_registered pre) hs)
    (fun _ _ _ hs _ => hs) steps

end Counts

section Log

/-- What the log has of a proposal, the earliest change first. -/
def State.history (s : State Addr) (id : ℕ) : List StatusChange :=
  (s.statusChanges.filter fun change => change.id = id).reverse

/-- The log is complete: it leads each proposal from active, as which it is created, to the
status that is stored, and has nothing of proposals that do not exist. -/
structure Logged (s : State Addr) : Prop where
  found : ∀ id p, s.proposal id = some p →
    Trail StatusChange.source StatusChange.target .active (s.history id) p.status
  absent : ∀ id, s.proposal id = none → s.history id = []

variable {id : ℕ} {changes : List StatusChange}

omit [DecidableEq Addr] in
theorem history_of_own (hlog : t.statusChanges = changes ++ s.statusChanges)
    (hown : ∀ change ∈ changes, change.id = id) :
    t.history id = s.history id ++ changes.reverse := by
  have hall : changes.filter (fun change => change.id = id) = changes := by
    rw [List.filter_eq_self]
    intro change hchange
    exact decide_eq_true (hown change hchange)
  rw [State.history, hlog, List.filter_append, List.reverse_append, hall]
  rfl

omit [DecidableEq Addr] in
theorem history_of_others {i : ℕ} (hlog : t.statusChanges = changes ++ s.statusChanges)
    (hown : ∀ change ∈ changes, change.id = id) (hi : i ≠ id) :
    t.history i = s.history i := by
  have hnone : changes.filter (fun change => change.id = i) = [] := by
    rw [List.filter_eq_nil_iff]
    intro change hchange heq
    exact hi ((of_decide_eq_true heq).symm.trans (hown change hchange))
  rw [State.history, hlog, List.filter_append, hnone, List.nil_append]
  rfl

theorem Turn.logged (h : Turn s t) (hs : Registered s) (hl : Logged s) : Logged t := by
  cases h with
  | still proposal log active perAddress =>
    constructor
    · intro id p hfound
      rw [proposal] at hfound
      rw [State.history, log]
      exact hl.found id p hfound
    · intro id hnone
      rw [proposal] at hnone
      rw [State.history, log]
      exact hl.absent id hnone
  | opened p own status proposal log active perAddress =>
    have hsame : ∀ id, t.history id = s.history id := by
      intro id
      rw [State.history, log]
      rfl
    constructor
    · rw [proposal]
      apply Table.forall_update
      · intro id q hfound
        rw [hsame id]
        exact hl.found id q hfound
      · rw [hsame, hl.absent _ hs.fresh]
        exact status.symm
    · intro id hnone
      rw [proposal, Table.update_eq_none_iff] at hnone
      rw [hsame id]
      exact hl.absent id hnone.2
  | moved id p q changes found same isOpen left proposal log own trail active perAddress =>
    constructor
    · intro i r hi
      rw [proposal] at hi
      obtain ⟨rfl, rfl⟩ | ⟨hne, hother⟩ := Table.update_eq_some_iff.mp hi
      · rw [history_of_own log own]
        exact (hl.found i p found).append trail
      · rw [history_of_others log own hne]
        exact hl.found i r hother
    · intro i hnone
      rw [proposal, Table.update_eq_none_iff] at hnone
      rw [history_of_others log own hnone.1]
      exact hl.absent i hnone.2

omit [DecidableEq Addr] in
theorem logged_deployed : Logged (deployed Addr) where
  found id p h := by cases h
  absent id h := rfl

theorem run_logged (steps : List (Step Addr home)) : Logged (reached steps) :=
  Machine.run_history (P := fun _ => Logged) logged_deployed
    (fun pre _ _ hs hx => (exec_turn hx).logged (run_registered pre) hs)
    (fun _ _ _ hs _ => hs) steps

/-- Every change of a status was allowed. -/
def Orderly (s : State Addr) : Prop :=
  ∀ change ∈ s.statusChanges, change.source.isValidTransition change.target = true

/-- The call cancels a proposal that waits for the timelock. -/
def CancelsQueued (s : State Addr) (call : Call Addr) : Prop :=
  ∃ id multisigActionId p, call = .cancelProposal id multisigActionId ∧
    s.proposal id = some p ∧ p.status = .queued

omit [DecidableEq Addr] in
theorem orderly_of_log (changes : List StatusChange)
    (hlog : t.statusChanges = changes ++ s.statusChanges)
    (hvalid : ∀ change ∈ changes, change.source.isValidTransition change.target = true)
    (ho : Orderly s) : Orderly t := by
  intro change hchange
  rw [hlog] at hchange
  rcases List.mem_append.mp hchange with hnow | hbefore
  · exact hvalid change hnow
  · exact ho change hbefore

theorem Effect.orderly_iff (h : Effect inv s t call) (hs : Registered s) (ho : Orderly s) :
    Orderly t ↔ ¬ CancelsQueued s call := by
  have hno : (∀ id action, call ≠ .cancelProposal id action) → ¬ CancelsQueued s call := by
    rintro hother ⟨id, action, p, hcall, -⟩
    exact hother id action hcall
  cases h with
  | initialized fresh eq =>
    rw [eq]
    exact iff_of_true ho (hno (by simp))
  | configured kept eq =>
    rw [eq]
    exact iff_of_true ho (hno (by simp))
  | created proposer action made _ _ _ _ eq =>
    rw [eq]
    apply iff_of_true ho
    rcases made with rfl | ⟨escrow, rollbackId, rfl, -⟩
    · exact hno (by simp)
    · exact hno (by simp)
  | voted p weight _ _ _ _ _ _ _ eq =>
    rw [eq]
    exact iff_of_true ho (hno (by simp))
  | failed p _ _ _ _ eq =>
    rw [eq]
    refine iff_of_true (orderly_of_log [_] rfl ?_ ho) (hno (by simp))
    simp [ProposalStatus.isValidTransition]
  | queued p timelock _ _ _ _ _ _ _ eq =>
    rw [eq]
    refine iff_of_true (orderly_of_log [_, _] rfl ?_ ho) (hno (by simp))
    simp [ProposalStatus.isValidTransition]
  | enacted p _ _ _ _ _ _ eq =>
    rw [eq]
    refine iff_of_true (orderly_of_log [_, _] rfl ?_ ho) (hno (by simp))
    simp [ProposalStatus.isValidTransition]
  | enactedQueued p timelock _ _ _ _ _ eq =>
    rw [eq]
    refine iff_of_true (orderly_of_log [_] rfl ?_ ho) (hno (by simp))
    simp [ProposalStatus.isValidTransition]
  | @cancelled id action p admin _ _ found open_ _ _ eq =>
    have hlog : t.statusChanges = [⟨p.id, p.status, .cancelled⟩] ++ s.statusChanges := by
      rw [eq]
      rfl
    have hcancels : CancelsQueued s (.cancelProposal id action) ↔ p.status = .queued := by
      constructor
      · rintro ⟨i, a, q, hcall, hfound, hstatus⟩
        obtain ⟨rfl, -⟩ := Call.cancelProposal.inj hcall
        obtain rfl := Option.some.inj (found.symm.trans hfound)
        exact hstatus
      · intro hstatus
        exact ⟨id, action, p, rfl, found, hstatus⟩
    rw [hcancels]
    constructor
    · intro hall hqueued
      have hchange := hall ⟨p.id, p.status, .cancelled⟩ (by rw [hlog]; simp)
      rw [hqueued] at hchange
      exact Bool.false_ne_true hchange
    · intro hqueued
      have hactive : p.status = .active :=
        (ProposalStatus.isOpen_iff.mp (hs.isOpen found open_)).resolve_right hqueued
      apply orderly_of_log _ hlog _ ho
      intro change hchange
      obtain rfl := List.mem_singleton.mp hchange
      rw [hactive]
      rfl

end Log

/-- In every run the counts of open proposals are exact, and the changes of statuses are all
valid exactly as long as no queued proposal is cancelled. -/
theorem run_statusMachine (steps : List (Step Addr home)) :
    (∀ pre, pre <+: steps →
        CountsOpen (reached pre) ∧ Logged (reached pre) ∧ Orderly (reached pre)) ↔
      ∀ pre step t, (machine home).Executes (deployed Addr) steps pre step t →
        ¬ CancelsQueued (reached pre) step.2 := by
  constructor
  · intro hall pre step t hx
    obtain ⟨-, -, hbefore⟩ := hall pre ((List.prefix_append pre [step]).trans hx.snoc_prefix)
    obtain ⟨-, -, hafter⟩ := hall (pre ++ [step]) hx.snoc_prefix
    rw [reached, hx.run_eq] at hafter
    exact ((exec_effect hx.exec_eq).orderly_iff (run_registered pre) hbefore).mp hafter
  · intro hnone pre hpre
    have horderly : ∀ pre, pre <+: steps → Orderly (reached pre) := by
      apply Machine.run_invariant_of_executes
      · intro change hchange
        cases hchange
      · intro pre step t hx hbefore
        exact ((exec_effect hx.exec_eq).orderly_iff (run_registered pre) hbefore).mpr
          (hnone pre step t hx)
    exact ⟨run_countsOpen pre, run_logged pre, horderly pre hpre⟩

/-- A call is voted for and queued, and the admin cancels it before the timelock is through. -/
def withdrawnRun : List (Step ℕ 0) :=
  [(answered 1, .config (.initializeGovernance 1 2 3 none none none none none)),
    (answered 1, .config (.setTimelock 5)), (answered 1, .config (.addAllowedCall 1 9 "pay")),
    (answered 1, .createProposal 4 (.executeCall 9 "pay" [])), (answered 1, .vote 4 1 true),
    (answered (1 + 14 * 24 * 60 * 60), .executeProposal 1),
    (answered (1 + 14 * 24 * 60 * 60), .cancelProposal 1 none)]

theorem withdrawnRun_disorderly :
    ⟨1, .queued, .cancelled⟩ ∈ (reached withdrawnRun).statusChanges ∧
      ProposalStatus.isValidTransition .queued .cancelled = false ∧
      ¬ Orderly (reached withdrawnRun) := by
  have hlog : (reached withdrawnRun).statusChanges =
      [⟨1, .queued, .cancelled⟩, ⟨1, .passed, .queued⟩, ⟨1, .active, .passed⟩] := by
    decide
  have hmem : ⟨1, .queued, .cancelled⟩ ∈ (reached withdrawnRun).statusChanges := by
    rw [hlog]
    exact List.mem_cons_self
  constructor
  · exact hmem
  · constructor
    · rfl
    · intro horderly
      exact Bool.false_ne_true (horderly _ hmem)

end Governance
