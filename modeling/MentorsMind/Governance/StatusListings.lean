import MentorsMind.Governance.StatusMachine
import MentorsMind.Shared.Pagination

/-! The listings of proposals by status. The index of a status holds every proposal that
`transition_proposal_status` ever moved to it. Creation and cancellation do not go through that
function, and nothing is ever taken out of the index. -/
namespace Governance
open Outcome Soroban Shared

variable {Addr : Type} {home : Addr} {s t : State Addr}

def getProposalsByStatus (s : State Addr) (status : ProposalStatus) (offset limit : ℕ) :
    Result (List ℕ) :=
  let total := s.proposalStatusCount status
  let (start, stop) := Pagination.bounds total offset limit
  pure ((List.range' start (stop - start)).filterMap fun idx => s.proposalsByStatus (status, idx))

/-- The pages of the listing of a status list the proposals that have it. -/
def ListedExactly (s : State Addr) (status : ProposalStatus) : Prop :=
  Listings.ListsExactly (getProposalsByStatus s status) (s.proposalStatusCount status) fun id =>
    ∃ p, s.proposal id = some p ∧ p.status = status

/-- No proposal is in a status that the index is not told of, and none has left the status. -/
def KeepsListing (s : State Addr) (status : ProposalStatus) : Prop :=
  (status = .active ∨ status = .cancelled →
    ∀ id p, s.proposal id = some p → p.status ≠ status) ∧
  (status ≠ .active → ∀ change ∈ s.statusChanges, change.source ≠ status)

section Index

/-- The proposals that were moved to a status, the earliest first. -/
def State.entered (s : State Addr) (status : ProposalStatus) : List ℕ :=
  (s.statusChanges.reverse.filter fun change =>
    change.target = status ∧ change.target ≠ .cancelled).map StatusChange.id

/-- The index holds what the log has. -/
structure IndexLogged (s : State Addr) : Prop where
  entries : AppendIndex s.proposalsByStatus s.entered
  count : ∀ status, s.proposalStatusCount status = (s.entered status).length

theorem indexLogged_deployed : IndexLogged (deployed Addr) where
  entries := AppendIndex.empty
  count _ := rfl

theorem IndexLogged.keep (h : IndexLogged s) (hindex : t.proposalsByStatus = s.proposalsByStatus)
    (hcount : t.proposalStatusCount = s.proposalStatusCount)
    (hlog : t.statusChanges = s.statusChanges) : IndexLogged t := by
  have hentered : t.entered = s.entered := by
    funext status
    rw [State.entered, hlog]
    rfl
  constructor
  · rw [hindex, hentered]
    exact h.entries
  · intro status
    rw [hcount, hentered]
    exact h.count status

theorem entered_cons {change : StatusChange}
    (hlog : t.statusChanges = change :: s.statusChanges) (hnot : change.target ≠ .cancelled) :
    t.entered = Function.update s.entered change.target
      (s.entered change.target ++ [change.id]) := by
  funext status
  simp only [State.entered, hlog, List.reverse_cons, List.filter_append, List.map_append]
  by_cases hstatus : status = change.target
  · subst hstatus
    rw [Function.update_self]
    simp [hnot]
  · rw [Function.update_of_ne hstatus]
    simp [State.entered, Ne.symm hstatus]

theorem IndexLogged.transition {p : Proposal Addr} {next : ProposalStatus}
    {r : State Addr × Proposal Addr} (hmoved : transitionProposalStatus s p next = .ok r)
    (hnext : next ≠ .cancelled) (h : IndexLogged s) : IndexLogged r.1 := by
  simp only [transitionProposalStatus, bind_eq_ok, pure_eq_ok, u32_eq_ok] at hmoved
  obtain ⟨-, -, count, ⟨-, rfl⟩, rfl⟩ := hmoved
  constructor
  · rw [entered_cons (s := s) rfl hnext]
    show AppendIndex (Function.update s.proposalsByStatus (next, s.proposalStatusCount next)
      (some p.id)) _
    rw [h.count next]
    exact h.entries.push next p.id
  · intro status
    rw [entered_cons (s := s) rfl hnext]
    show Function.update s.proposalStatusCount next (s.proposalStatusCount next + 1) status = _
    by_cases hstatus : status = next
    · subst hstatus
      rw [Function.update_self, Function.update_self, List.length_append, h.count status]
      rfl
    · rw [Function.update_of_ne hstatus, Function.update_of_ne hstatus]
      exact h.count status

/-- Cancelling is logged and not indexed. -/
theorem IndexLogged.cancel {id : ℕ} {source : ProposalStatus} (h : IndexLogged s)
    (hindex : t.proposalsByStatus = s.proposalsByStatus)
    (hcount : t.proposalStatusCount = s.proposalStatusCount)
    (hlog : t.statusChanges = ⟨id, source, .cancelled⟩ :: s.statusChanges) : IndexLogged t := by
  have hentered : t.entered = s.entered := by
    funext status
    simp [State.entered, hlog]
  constructor
  · rw [hindex, hentered]
    exact h.entries
  · intro status
    rw [hcount, hentered]
    exact h.count status

variable [DecidableEq Addr] {inv : Invocation Addr home} {id : ℕ}

theorem IndexLogged.enact {p : Proposal Addr} (hx : enactProposal inv s p id = .ok t)
    (h : IndexLogged s) : IndexLogged t := by
  simp only [enactProposal, bind_eq_ok, pure_eq_ok] at hx
  obtain ⟨done, hdone, ⟨executed, q⟩, hmoved, rfl⟩ := hx
  have happlied : IndexLogged done := by
    rw [(applyAction_eq_ok hdone).2.2]
    exact h.keep rfl rfl rfl
  exact (happlied.transition hmoved (by simp)).keep rfl rfl rfl

omit [DecidableEq Addr] in
theorem IndexLogged.queue {p : Proposal Addr} (hx : queueProposal inv s p id = .ok t)
    (h : IndexLogged s) : IndexLogged t := by
  simp only [queueProposal, bind_eq_ok, pure_eq_ok] at hx
  obtain ⟨-, -, -, -, timelock, -, scheduled, hscheduled, ⟨queued, q⟩, hmoved, rfl⟩ := hx
  have hinvoked : IndexLogged scheduled := by
    rw [invoke_eq_ok hscheduled]
    exact h.keep rfl rfl rfl
  exact (hinvoked.transition hmoved (by simp)).keep rfl rfl rfl

theorem IndexLogged.execute (hx : executeProposal inv s id = .ok t) (h : IndexLogged s) :
    IndexLogged t := by
  simp only [executeProposal, bind_eq_ok] at hx
  obtain ⟨p, -, -, -, -, -, -, -, quorum, -, hx⟩ := hx
  split_ifs at hx
  · rw [bind_eq_ok] at hx
    obtain ⟨⟨passed, q⟩, hmoved, hx⟩ := hx
    have hpassed : IndexLogged passed := h.transition hmoved (by simp)
    split at hx
    · exact hpassed.queue hx
    · exact hpassed.enact hx
  · rw [bind_eq_ok] at hx
    obtain ⟨⟨failed, q⟩, hmoved, hx⟩ := hx
    rw [← pure_eq_ok.mp hx]
    exact (h.transition hmoved (by simp)).keep rfl rfl rfl

theorem IndexLogged.exec {call : Call Addr} (hx : exec inv call s = .ok t)
    (h : IndexLogged s) : IndexLogged t := by
  cases exec_effect hx with
  | initialized fresh eq =>
    rw [eq]
    exact h.keep rfl rfl rfl
  | configured kept eq =>
    rw [eq]
    exact h.keep rfl rfl rfl
  | created proposer action _ _ _ votingEndsAt supply eq =>
    rw [eq]
    exact h.keep rfl rfl rfl
  | voted p weight _ _ _ _ _ _ _ eq =>
    rw [eq]
    exact h.keep rfl rfl rfl
  | failed => exact h.execute hx
  | queued => exact h.execute hx
  | enacted => exact h.execute hx
  | enactedQueued =>
    simp only [Governance.exec, executeQueuedProposal, bind_eq_ok] at hx
    obtain ⟨-, -, -, -, p, -, -, -, hx⟩ := hx
    exact h.enact hx
  | cancelled p admin _ _ _ _ _ _ eq =>
    rw [eq]
    exact h.cancel rfl rfl rfl

theorem run_indexLogged (steps : List (Step Addr home)) : IndexLogged (reached steps) :=
  Machine.run_invariant indexLogged_deployed (fun _ _ _ h hx => h.exec hx) steps

end Index

section Rising

/-- How far a proposal in the status has come. -/
def ProposalStatus.rank : ProposalStatus → ℕ
  | .active => 0
  | .passed => 1
  | .queued => 2
  | _ => 3

/-- Every change of a status leads further. -/
def Rising (s : State Addr) : Prop :=
  ∀ change ∈ s.statusChanges, change.source.rank < change.target.rank

theorem rising_of_log (changes : List StatusChange)
    (hlog : t.statusChanges = changes ++ s.statusChanges)
    (hup : ∀ change ∈ changes, change.source.rank < change.target.rank) (h : Rising s) :
    Rising t := by
  intro change hchange
  rw [hlog] at hchange
  rcases List.mem_append.mp hchange with hnow | hbefore
  · exact hup change hnow
  · exact h change hbefore

variable [DecidableEq Addr] {inv : Invocation Addr home} {call : Call Addr}

theorem Effect.rising (hx : Effect inv s t call) (hs : Registered s) (h : Rising s) :
    Rising t := by
  cases hx with
  | initialized fresh eq =>
    rw [eq]
    exact h
  | configured kept eq =>
    rw [eq]
    exact h
  | created proposer action _ _ _ votingEndsAt supply eq =>
    rw [eq]
    exact h
  | voted p weight _ _ _ _ _ _ _ eq =>
    rw [eq]
    exact h
  | failed p _ _ _ _ eq =>
    rw [eq]
    exact rising_of_log [_] rfl (by simp [ProposalStatus.rank]) h
  | queued p timelock _ _ _ _ _ _ _ eq =>
    rw [eq]
    exact rising_of_log [_, _] rfl (by simp [ProposalStatus.rank]) h
  | enacted p _ _ _ _ _ _ eq =>
    rw [eq]
    exact rising_of_log [_, _] rfl (by simp [ProposalStatus.rank]) h
  | enactedQueued p timelock _ _ _ _ _ eq =>
    rw [eq]
    exact rising_of_log [_] rfl (by simp [ProposalStatus.rank]) h
  | cancelled p admin _ _ found open_ _ _ eq =>
    rw [eq]
    refine rising_of_log [_] rfl ?_ h
    rcases ProposalStatus.isOpen_iff.mp (hs.isOpen found open_) with hactive | hqueued
    · simp [hactive, ProposalStatus.rank]
    · simp [hqueued, ProposalStatus.rank]

theorem run_rising (steps : List (Step Addr home)) : Rising (reached steps) :=
  Machine.run_history (P := fun _ => Rising) (by simp [Rising, deployed])
    (fun pre _ _ hs hx => (exec_effect hx).rising (run_registered pre) hs)
    (fun _ _ _ hs _ => hs) steps

end Rising

section Listing

variable {status : ProposalStatus} {id : ℕ} {p : Proposal Addr} {change : StatusChange}

theorem mem_entered : id ∈ s.entered status ↔ status ≠ .cancelled ∧
    ∃ change ∈ s.statusChanges, change.id = id ∧ change.target = status := by
  simp only [State.entered, List.mem_map, List.mem_filter, List.mem_reverse, decide_eq_true_eq]
  constructor
  · rintro ⟨change, ⟨hmem, rfl, hnot⟩, rfl⟩
    exact ⟨hnot, change, hmem, rfl, rfl⟩
  · rintro ⟨hnot, change, hmem, rfl, rfl⟩
    exact ⟨change, ⟨hmem, rfl, hnot⟩, rfl⟩

theorem mem_history :
    change ∈ s.history id ↔ change ∈ s.statusChanges ∧ change.id = id := by
  simp [State.history]

/-- A logged change is one of a stored proposal, in its trail. -/
theorem Logged.trail_of_mem (hl : Logged s) (hchange : change ∈ s.statusChanges) :
    ∃ p, s.proposal change.id = some p ∧ change ∈ s.history change.id ∧
      Trail StatusChange.source StatusChange.target .active (s.history change.id) p.status := by
  have hmem : change ∈ s.history change.id := mem_history.mpr ⟨hchange, rfl⟩
  cases hfound : s.proposal change.id with
  | none =>
    rw [hl.absent change.id hfound] at hmem
    cases hmem
  | some p => exact ⟨p, rfl, hmem, hl.found change.id p hfound⟩

theorem Rising.history (hr : Rising s) (id : ℕ) :
    ∀ change ∈ s.history id, change.source.rank < change.target.rank := by
  intro change hchange
  exact hr change (mem_history.mp hchange).1

/-- No proposal is moved to a status twice. -/
theorem history_nodup (hl : Logged s) (hr : Rising s) (id : ℕ) :
    ((s.history id).map StatusChange.target).Nodup := by
  cases hfound : s.proposal id with
  | none =>
    rw [hl.absent id hfound]
    exact List.nodup_nil
  | some p => exact (hl.found id p hfound).nodup_dst (hr.history id)

theorem entered_nodup (hl : Logged s) (hr : Rising s) : (s.entered status).Nodup := by
  rw [List.nodup_iff_count_le_one]
  intro id
  have hcount : (s.entered status).count id ≤
      ((s.history id).map StatusChange.target).count status := by
    unfold State.entered State.history
    simp only [List.count_eq_countP, List.countP_map, List.countP_filter, List.countP_reverse]
    apply List.countP_mono_left
    intro change _ hchange
    simp only [Function.comp_apply, Bool.and_eq_true, beq_iff_eq, decide_eq_true_eq] at hchange ⊢
    exact ⟨hchange.2.1, hchange.1⟩
  exact hcount.trans (List.nodup_iff_count_le_one.mp (history_nodup hl hr id) status)

/-- What the index of a status holds are the proposals that have the status, exactly if it is
the status that keeps its listing. -/
theorem entered_exact_iff (hl : Logged s) (hr : Rising s) :
    (∀ id, id ∈ s.entered status ↔ ∃ p, s.proposal id = some p ∧ p.status = status) ↔
      KeepsListing s status := by
  constructor
  · intro hexact
    constructor
    · rintro hbypass id p hfound rfl
      obtain ⟨hnot, change, hmem, -, htarget⟩ :=
        mem_entered.mp ((hexact id).mpr ⟨p, hfound, rfl⟩)
      have hup := hr change hmem
      rw [htarget, hbypass.resolve_right hnot] at hup
      exact Nat.not_lt_zero _ hup
    · rintro hnot change hmem rfl
      obtain ⟨p, hfound, hhistory, htrail⟩ := hl.trail_of_mem hmem
      obtain ⟨before, hbefore, htarget⟩ :=
        (htrail.src_eq_or_mem hhistory).resolve_left hnot
      have hcancelled : change.source ≠ .cancelled := by
        intro hcancelled
        have hup := hr change hmem
        rw [hcancelled] at hup
        cases htop : change.target <;> simp [htop, ProposalStatus.rank] at hup
      obtain ⟨q, hq, hstatus⟩ := (hexact change.id).mp (mem_entered.mpr ⟨hcancelled, before,
        (mem_history.mp hbefore).1, (mem_history.mp hbefore).2, htarget⟩)
      obtain rfl := Option.some.inj (hfound.symm.trans hq)
      have hup := ((htrail.rank_le (hr.history change.id)).2 change hhistory).2
      rw [hstatus] at hup
      exact lt_irrefl _ hup
  · rintro ⟨hbypass, hleft⟩ id
    rw [mem_entered]
    constructor
    · rintro ⟨hnot, change, hmem, rfl, rfl⟩
      obtain ⟨p, hfound, hhistory, htrail⟩ := hl.trail_of_mem hmem
      refine ⟨p, hfound, ?_⟩
      have hactive : change.target ≠ .active := by
        intro hactive
        have hup := hr change hmem
        rw [hactive] at hup
        exact Nat.not_lt_zero _ hup
      rcases htrail.dst_eq_or_mem hhistory with hlast | ⟨after, hafter, hsource⟩
      · exact hlast.symm
      · exact absurd hsource (hleft hactive after (mem_history.mp hafter).1)
    · rintro ⟨p, hfound, rfl⟩
      have hnot : ¬ (p.status = .active ∨ p.status = .cancelled) :=
        fun hor => hbypass hor id p hfound rfl
      rw [not_or] at hnot
      obtain ⟨change, hchange, hlast⟩ :=
        (hl.found id p hfound).last_eq_or_mem.resolve_left hnot.1
      exact ⟨hnot.2, change, (mem_history.mp hchange).1, (mem_history.mp hchange).2, hlast⟩

theorem getProposalsByStatus_eq (h : IndexLogged s) (offset limit : ℕ) :
    getProposalsByStatus s status offset limit =
      .ok (((s.entered status).take (offset + Pagination.clampLimit limit)).drop offset) := by
  rw [← Listings.page_eq h.entries, ← h.count status]
  rfl

variable [DecidableEq Addr]

/-- In every state that a run reaches, the listing of a status is exact if and only if no
proposal is active or cancelled, where it is the listing of that status, and none has left the
status. -/
theorem listedExactly_iff (steps : List (Step Addr home)) (status : ProposalStatus) :
    ListedExactly (reached steps) status ↔ KeepsListing (reached steps) status := by
  have hindex := run_indexLogged steps
  have hl := run_logged steps
  have hr := run_rising steps
  rw [ListedExactly, hindex.count status,
    Listings.listsExactly_iff (getProposalsByStatus_eq hindex) (entered_nodup hl hr)]
  exact entered_exact_iff hl hr

end Listing

end Governance
