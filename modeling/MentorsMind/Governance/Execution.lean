import MentorsMind.Governance.Proposals

/-! When the action of a proposal is carried out: once, on a decision that no later vote can
change, and never after the proposal failed or was cancelled. A call to another contract waits for
the timelock besides. -/
namespace Governance
open Outcome Soroban

variable {Addr : Type} {home : Addr}

theorem SameTerms.refl (p : Proposal Addr) : SameTerms p p := by
  constructor <;> rfl

theorem SameTerms.trans {p q r : Proposal Addr} (h : SameTerms p q) (h' : SameTerms q r) :
    SameTerms p r :=
  ⟨h'.id.trans h.id, h'.proposer.trans h.proposer, h'.action.trans h.action,
    h'.createdAt.trans h.createdAt, h'.votingEndsAt.trans h.votingEndsAt,
    h'.snapshotLedger.trans h.snapshotLedger, h'.totalSupplySnapshot.trans h.totalSupplySnapshot⟩

def ProposalAction.isCall : ProposalAction Addr → Bool
  | .executeCall _ _ _ => true
  | _ => false

theorem ProposalAction.isCall_iff {action : ProposalAction Addr} : action.isCall = true ↔
    ∃ target function args, action = .executeCall target function args := by
  cases action <;> simp [ProposalAction.isCall]

variable [DecidableEq Addr] {inv : Invocation Addr home} {s t : State Addr} {call : Call Addr}
  {steps pre : List (Step Addr home)} {id : ℕ} {p : Proposal Addr}

/-- What `execute_proposal` finds of a proposal that passes. -/
structure Approved (inv : Invocation Addr home) (s : State Addr) (id : ℕ) (p : Proposal Addr) :
    Prop where
  found : s.proposal id = some p
  active : p.status = .active
  ended : p.votingEndsAt ≤ inv.timestamp
  passes : Passes s id p

/-- What a call does to the proposals that wait and to the log of actions. -/
inductive Carrying (inv : Invocation Addr home) (s t : State Addr) : Call Addr → Prop where
  | direct {id : ℕ} (p : Proposal Addr) (approved : Approved inv s id p)
      (noCall : p.action.isCall = false) (applied : t.applied = (id, p.action) :: s.applied)
      (proposal : t.proposal = Function.update s.proposal id
        (some { p with status := .executed }))
      (carriedOut : CarriedOut s t id p.action) : Carrying inv s t (.executeProposal id)
  | queued {id : ℕ} (p : Proposal Addr) (timelock : Addr) (approved : Approved inv s id p)
      (isCall : p.action.isCall = true)
      (due : p.votingEndsAt + executeCallTimelockSecs ≤ inv.timestamp)
      (stored : s.timelock = some timelock) (applied : t.applied = s.applied)
      (invoked : t.invoked = .schedule timelock id scheduleDelay :: s.invoked)
      (proposal : t.proposal = Function.update s.proposal id
        (some { p with status := .queued, timelockOpId := inv.scheduledId timelock id }))
      (outcomes : t.outcomes = s.outcomes) : Carrying inv s t (.executeProposal id)
  | released {id : ℕ} (p : Proposal Addr) (timelock : Addr) (stored : s.timelock = some timelock)
      (auth : inv.auth timelock = true) (found : s.proposal id = some p)
      (waiting : p.status = .queued) (applied : t.applied = (id, p.action) :: s.applied)
      (proposal : t.proposal = Function.update s.proposal id
        (some { p with status := .executed }))
      (carriedOut : CarriedOut s t id p.action) : Carrying inv s t (.executeQueuedProposal id)
  | none {c : Call Addr} (applied : t.applied = s.applied)
      (unqueued : ∀ id q, t.proposal id = some q → q.status = .queued → s.proposal id = some q)
      (outcomes : t.outcomes = s.outcomes) : Carrying inv s t c

omit [DecidableEq Addr] in
/-- A write that queues nothing. -/
theorem unqueued_update {m : ℕ → Option (Proposal Addr)} {q : Proposal Addr}
    (hq : q.status ≠ .queued) : ∀ i r, Function.update m id (some q) i = some r →
      r.status = .queued → m i = some r := by
  intro i r hr hqueued
  obtain ⟨-, rfl⟩ | ⟨-, hother⟩ := Table.update_eq_some_iff.mp hr
  · exact absurd hqueued hq
  · exact hother

theorem Effect.carrying (h : Effect inv s t call) : Carrying inv s t call := by
  cases h with
  | initialized fresh eq =>
    rw [eq]
    exact .none rfl (fun id q hq _ => hq) rfl
  | configured kept eq =>
    rw [eq]
    exact .none rfl (fun id q hq _ => hq) rfl
  | created proposer action made _ _ votingEndsAt supply eq outcomes =>
    rw [eq] at outcomes ⊢
    exact .none rfl (unqueued_update nofun) outcomes
  | @voted voter id support p weight _ found active _ _ _ _ eq =>
    have hstatus : (p.withVote support weight).status ≠ .queued := by
      rw [Proposal.withVote_status, active]
      exact nofun
    rw [eq]
    exact .none rfl (unqueued_update hstatus) rfl
  | failed p found _ _ _ eq =>
    rw [eq]
    exact .none rfl (unqueued_update nofun) rfl
  | @queued id p timelock found active ended passes isCall due stored eq =>
    rw [eq]
    exact .queued p timelock ⟨found, active, ended, passes⟩
      (ProposalAction.isCall_iff.mpr isCall) due stored rfl rfl rfl rfl
  | enacted p found active ended passes noCall _ eq carriedOut =>
    have hnoCall : p.action.isCall = false := by
      rw [← Bool.not_eq_true, ProposalAction.isCall_iff]
      rintro ⟨target, function, args, haction⟩
      exact noCall target function args haction
    rw [eq] at carriedOut ⊢
    exact .direct p ⟨found, active, ended, passes⟩ hnoCall rfl rfl carriedOut
  | enactedQueued p timelock stored auth found waiting _ eq carriedOut =>
    rw [eq] at carriedOut ⊢
    exact .released p timelock stored auth found waiting rfl rfl carriedOut
  | cancelled p admin _ _ found _ _ _ eq =>
    rw [eq]
    exact .none rfl (unqueued_update nofun) rfl

section Runs

/-- Every action in the log is that of a proposal that is executed, and none is there twice. -/
structure OnceApplied (s : State Addr) : Prop where
  executed : ∀ entry ∈ s.applied, ∃ p, s.proposal entry.1 = some p ∧ p.status = .executed
  nodup : (s.applied.map Prod.fst).Nodup

omit [DecidableEq Addr] in
theorem onceApplied_deployed : OnceApplied (deployed Addr) where
  executed entry h := by cases h
  nodup := List.nodup_nil

/-- The action of an open proposal is carried out. -/
theorem OnceApplied.apply (h : OnceApplied s) (hs : Registered s) (hturn : Turn s t)
    (hfound : s.proposal id = some p) (hopen : p.status.isOpen = true)
    (happlied : t.applied = (id, p.action) :: s.applied)
    (hproposal : t.proposal = Function.update s.proposal id
      (some { p with status := .executed })) : OnceApplied t := by
  constructor
  · rw [happlied]
    intro entry hentry
    rcases List.mem_cons.mp hentry with rfl | hbefore
    · rw [hproposal]
      exact ⟨_, Function.update_self .., rfl⟩
    · obtain ⟨q, hq, hexecuted⟩ := h.executed entry hbefore
      refine ⟨q, hturn.closed hs hq ?_, hexecuted⟩
      rw [hexecuted]
      rfl
  · rw [happlied, List.map_cons, List.nodup_cons]
    constructor
    · intro hmem
      obtain ⟨entry, hentry, hid⟩ := List.mem_map.mp hmem
      obtain ⟨q, hq, hexecuted⟩ := h.executed entry hentry
      have hid' : entry.1 = id := hid
      rw [hid'] at hq
      obtain rfl := Option.some.inj (hfound.symm.trans hq)
      rw [hexecuted] at hopen
      cases hopen
    · exact h.nodup

theorem Carrying.onceApplied (h : Carrying inv s t call) (hs : Registered s) (hturn : Turn s t)
    (ho : OnceApplied s) : OnceApplied t := by
  have hsame : t.applied = s.applied → OnceApplied t := by
    intro happlied
    constructor
    · rw [happlied]
      intro entry hentry
      obtain ⟨q, hq, hexecuted⟩ := ho.executed entry hentry
      refine ⟨q, hturn.closed hs hq ?_, hexecuted⟩
      rw [hexecuted]
      rfl
    · rw [happlied]
      exact ho.nodup
  cases h with
  | direct p approved noCall applied proposal =>
    apply ho.apply hs hturn approved.found _ applied proposal
    exact ProposalStatus.isOpen_iff.mpr (.inl approved.active)
  | queued p timelock _ _ _ _ applied _ _ => exact hsame applied
  | released p timelock _ _ found waiting applied proposal =>
    apply ho.apply hs hturn found _ applied proposal
    exact ProposalStatus.isOpen_iff.mpr (.inr waiting)
  | none applied _ => exact hsame applied

theorem run_onceApplied (steps : List (Step Addr home)) : OnceApplied (reached steps) :=
  Machine.run_history (P := fun _ => OnceApplied) onceApplied_deployed
    (fun pre _ _ hs hx =>
      (exec_effect hx).carrying.onceApplied (run_registered pre) (exec_turn hx) hs)
    (fun _ _ _ hs _ => hs) steps

/-- What is kept by every call from a registered state on is kept by the rest of the run. -/
theorem reached_kept {D : State Addr → Prop}
    (hstep : ∀ a s t, Registered s → D s → (machine home).exec a s = .ok t → D t)
    (hpre : pre <+: steps) (hD : D (reached pre)) : D (reached steps) := by
  obtain ⟨rest, rfl⟩ := hpre
  have hboth : Registered (reached (pre ++ rest)) ∧ D (reached (pre ++ rest)) := by
    rw [reached, Machine.run_append]
    refine Machine.run_invariant (M := machine home) (P := fun s => Registered s ∧ D s)
      ⟨run_registered pre, hD⟩ ?_ rest
    intro a s t hs hx
    exact ⟨(exec_effect hx).registered hs.1, hstep a s t hs.1 hs.2 hx⟩
  exact hboth.2

/-- A proposal that is no longer open stays as it is. -/
theorem closed_kept (hpre : pre <+: steps) (hfound : (reached pre).proposal id = some p)
    (hclosed : p.status.isOpen = false) : (reached steps).proposal id = some p :=
  reached_kept (D := fun s => s.proposal id = some p)
    (fun _ _ _ hs hD hx => ((exec_effect hx).turn hs).closed hs hD hclosed) hpre hfound

/-- A proposal keeps its terms, and once it is not active it will not be active again. -/
theorem progress_kept (hpre : pre <+: steps) (hfound : (reached pre).proposal id = some p) :
    ∃ q, (reached steps).proposal id = some q ∧ SameTerms p q ∧
      (q.status = .active → p.status = .active) := by
  refine reached_kept (D := fun s => ∃ q, s.proposal id = some q ∧ SameTerms p q ∧
    (q.status = .active → p.status = .active)) ?_ hpre ⟨p, hfound, SameTerms.refl p, fun h => h⟩
  intro a s t hs hD hx
  obtain ⟨q, hq, hsame, hleft⟩ := hD
  obtain ⟨r, hr, hsame', hleft'⟩ := ((exec_effect hx).turn hs).progress hs hq
  exact ⟨r, hr, hsame.trans hsame', fun hactive => hleft (hleft' hactive)⟩

end Runs

section Decisions

/-- The call after `early` decides about the proposal: it finds it approved, and no vote on it
follows in the run. -/
structure Decided (steps early : List (Step Addr home)) (inv : Invocation Addr home) (id : ℕ)
    (p : Proposal Addr) : Prop where
  executes : ∃ t, (machine home).Executes (deployed Addr) steps early (inv, .executeProposal id) t
  approved : Approved inv (reached early) id p
  final : ∀ later voter support inv' t, (machine home).Executes (deployed Addr) steps later
    (inv', .vote voter id support) t → later.length < early.length

/-- Who votes finds the proposal active. -/
theorem active_of_vote {voter : Addr} {support : Bool}
    (hx : exec inv (.vote voter id support) s = .ok t) :
    ∃ p, s.proposal id = some p ∧ p.status = .active := by
  cases exec_effect hx with
  | voted p weight auth found active _ _ _ _ _ => exact ⟨p, found, active⟩
  | created proposer action made _ _ _ _ _ =>
    rcases made with hcall | ⟨escrow, rollbackId, hcall, -⟩
    · cases hcall
    · cases hcall

/-- After the call that takes a proposal out of voting there are no votes on it. -/
theorem decided_of_left {early : List (Step Addr home)}
    (hx : (machine home).Executes (deployed Addr) steps early (inv, .executeProposal id) t)
    (happroved : Approved inv (reached early) id p) {q : Proposal Addr}
    (hfound : t.proposal id = some q) (hleft : q.status ≠ .active) :
    Decided steps early inv id p where
  executes := ⟨t, hx⟩
  approved := happroved
  final := by
    intro later voter support inv' u hu
    by_contra hlate
    rcases (not_lt.mp hlate).eq_or_lt with hsame | hlt
    · have hearly := hx.eq_take.2
      rw [hsame, hu.eq_take.2] at hearly
      cases hearly
    · have hprefix : early ++ [(inv, .executeProposal id)] <+: later := by
        apply List.prefix_of_prefix_length_le hx.snoc_prefix
          ((List.prefix_append later [_]).trans hu.snoc_prefix)
        rw [List.length_append, List.length_singleton]
        exact hlt
      rw [← hx.run_eq] at hfound
      obtain ⟨r, hr, -, hactive⟩ := progress_kept hprefix hfound
      obtain ⟨r', hr', hvoting⟩ := active_of_vote hu.exec_eq
      obtain rfl := Option.some.inj (hr.symm.trans hr')
      exact hleft (hactive hvoting)

/-- The call after `early` queued the proposal and had the timelock schedule it. -/
structure QueuedBy (steps early : List (Step Addr home)) (inv : Invocation Addr home) (id : ℕ)
    (p : Proposal Addr) : Prop where
  scheduled : ∃ timelock t, (machine home).Executes (deployed Addr) steps early
    (inv, .executeProposal id) t ∧
      t.invoked = .schedule timelock id scheduleDelay :: (reached early).invoked
  decided : ∃ q, Decided steps early inv id q ∧ SameTerms q p
  isCall : p.action.isCall = true
  due : p.votingEndsAt + executeCallTimelockSecs ≤ inv.timestamp

/-- A proposal waits only if this call queued it, or if it waited before. -/
theorem Carrying.waiting (h : Carrying inv s t call) {q : Proposal Addr}
    (hq : t.proposal id = some q) (hwaiting : q.status = .queued) :
    (call = .executeProposal id ∧ q.action.isCall = true ∧
      q.votingEndsAt + executeCallTimelockSecs ≤ inv.timestamp ∧
      (∃ timelock, t.invoked = .schedule timelock id scheduleDelay :: s.invoked) ∧
      ∃ p, Approved inv s id p ∧ SameTerms p q) ∨ s.proposal id = some q := by
  cases h with
  | @direct i p _ _ _ proposal =>
    rw [proposal] at hq
    exact .inr (unqueued_update (q := { p with status := .executed }) nofun id q hq hwaiting)
  | @queued i p timelock approved isCall due _ _ invoked proposal =>
    rw [proposal] at hq
    obtain ⟨rfl, rfl⟩ | ⟨-, hother⟩ := Table.update_eq_some_iff.mp hq
    · exact .inl ⟨rfl, isCall, due, ⟨timelock, invoked⟩, p, approved,
        ⟨rfl, rfl, rfl, rfl, rfl, rfl, rfl⟩⟩
    · exact .inr hother
  | @released i p timelock _ _ _ _ _ proposal =>
    rw [proposal] at hq
    exact .inr (unqueued_update (q := { p with status := .executed }) nofun id q hq hwaiting)
  | none _ unqueued => exact .inr (unqueued id q hq hwaiting)

/-- Every proposal that waits was queued by a call of the run. -/
theorem exists_queuedBy (hpre : pre <+: steps) : ∀ id p, (reached pre).proposal id = some p →
    p.status = .queued → ∃ early inv, early.length < pre.length ∧
      QueuedBy steps early inv id p := by
  refine Machine.run_history_of_executes (M := machine home) (P := fun pre s =>
    ∀ id p, s.proposal id = some p → p.status = .queued →
      ∃ early inv, early.length < pre.length ∧ QueuedBy steps early inv id p) ?_ ?_ ?_ pre hpre
  · intro id p hp
    cases hp
  · intro pre step t hx hbefore id q hq hwaiting
    obtain ⟨inv, call⟩ := step
    have hexec : exec inv call (reached pre) = .ok t := hx.exec_eq
    rcases (exec_effect hexec).carrying.waiting hq hwaiting with hnow | hold
    · obtain ⟨rfl, hisCall, hdue, ⟨timelock, hinvoked⟩, p, happroved, hsame⟩ := hnow
      have hleft : q.status ≠ .active := by
        rw [hwaiting]
        exact nofun
      refine ⟨pre, inv, by simp, ⟨timelock, t, hx, hinvoked⟩, ⟨p, ?_, hsame⟩, hisCall, hdue⟩
      exact decided_of_left hx happroved hq hleft
    · obtain ⟨early, inv', hlt, hqueued⟩ := hbefore id q hold hwaiting
      exact ⟨early, inv', by rw [List.length_append]; omega, hqueued⟩
  · intro pre step e hbefore herror id q hq hwaiting
    obtain ⟨early, inv', hlt, hqueued⟩ := hbefore id q hq hwaiting
    exact ⟨early, inv', by rw [List.length_append]; omega, hqueued⟩

end Decisions

/-- The timelock executes a queued proposal only so long after it was asked to schedule it. -/
def EnforcesDelay (delay : ℕ) (steps : List (Step Addr home)) : Prop :=
  ∀ early pre inv inv' id timelock u t,
    (machine home).Executes (deployed Addr) steps early (inv, .executeProposal id) u →
    u.invoked = .schedule timelock id scheduleDelay :: (reached early).invoked →
    (machine home).Executes (deployed Addr) steps pre (inv', .executeQueuedProposal id) t →
    early.length < pre.length → inv.timestamp + delay ≤ inv'.timestamp

/-- The ledger's clock does not go back. -/
def ClockForward (steps : List (Step Addr home)) : Prop :=
  steps.Pairwise fun earlier later => earlier.1.timestamp ≤ later.1.timestamp

/-- An action was carried out as it should be: on a decision that stands, after the voting, and
with a call only through the timelock. -/
structure Carried (delay : ℕ) (steps pre : List (Step Addr home)) (inv : Invocation Addr home)
    (call : Call Addr) (id : ℕ) (p : Proposal Addr) : Prop where
  found : (reached pre).proposal id = some p
  ended : p.votingEndsAt ≤ inv.timestamp
  decided : ∃ early inv' q, early <+: pre ∧ Decided steps early inv' id q ∧ SameTerms q p
  unrefused : ∀ early q, early <+: pre → (reached early).proposal id = some q →
    q.status ≠ .failed ∧ q.status ≠ .cancelled
  path : p.action.isCall = false ∧ call = .executeProposal id ∨
    p.action.isCall = true ∧ call = .executeQueuedProposal id ∧
      ∃ timelock, (reached pre).timelock = some timelock ∧ inv.auth timelock = true ∧
        p.votingEndsAt + executeCallTimelockSecs + delay ≤ inv.timestamp

/-- A proposal that is open was neither refused nor withdrawn. -/
theorem unrefused_of_isOpen (hfound : (reached pre).proposal id = some p)
    (hopen : p.status.isOpen = true) : ∀ early q, early <+: pre →
      (reached early).proposal id = some q → q.status ≠ .failed ∧ q.status ≠ .cancelled := by
  intro early q hearly hq
  have hqopen : q.status.isOpen = true := by
    by_contra hclosed
    rw [Bool.not_eq_true] at hclosed
    obtain rfl := Option.some.inj (hfound.symm.trans (closed_kept hearly hq hclosed))
    rw [hclosed] at hopen
    cases hopen
  constructor
  · intro hfailed
    rw [hfailed] at hqopen
    cases hqopen
  · intro hcancelled
    rw [hcancelled] at hqopen
    cases hqopen

/-- In every run whose timelock enforces its delay, no action is carried out twice, each call that
carries one out does so as it should, and the others leave alone what actions are for. -/
theorem reached_applied (delay : ℕ) (steps : List (Step Addr home))
    (hdelay : EnforcesDelay delay steps) :
    ((reached steps).applied.map Prod.fst).Nodup ∧ ∀ pre inv call t,
      (machine home).Executes (deployed Addr) steps pre (inv, call) t →
        t.applied = (reached pre).applied ∧ t.outcomes = (reached pre).outcomes ∨
          ∃ id p, t.applied = (id, p.action) :: (reached pre).applied ∧
            CarriedOut (reached pre) t id p.action ∧ Carried delay steps pre inv call id p := by
  refine ⟨(run_onceApplied steps).nodup, ?_⟩
  intro pre inv call t hx
  have hexec : exec inv call (reached pre) = .ok t := hx.exec_eq
  cases (exec_effect hexec).carrying with
  | @direct id p approved noCall applied proposal carriedOut =>
    right
    have hfound : t.proposal id = some { p with status := .executed } := by
      rw [proposal]
      exact Function.update_self ..
    refine ⟨id, p, applied, carriedOut, approved.found, approved.ended, ?_, ?_,
      .inl ⟨noCall, rfl⟩⟩
    · exact ⟨pre, inv, p, List.prefix_rfl, decided_of_left hx approved hfound nofun,
        SameTerms.refl p⟩
    · exact unrefused_of_isOpen approved.found (ProposalStatus.isOpen_iff.mpr (.inl approved.active))
  | queued p timelock _ _ _ _ applied _ _ outcomes => exact .inl ⟨applied, outcomes⟩
  | @released id p timelock stored auth found waiting applied proposal carriedOut =>
    right
    have hpre : pre <+: steps := (List.prefix_append pre [_]).trans hx.snoc_prefix
    obtain ⟨early, inv', hlt, hqueued⟩ := exists_queuedBy hpre id p found waiting
    obtain ⟨asked, u, hu, hinvoked⟩ := hqueued.scheduled
    obtain ⟨q, hdecided, hsame⟩ := hqueued.decided
    have hearly : early <+: pre := by
      have hstart : early <+: steps := (List.prefix_append early [_]).trans hu.snoc_prefix
      exact List.prefix_of_prefix_length_le hstart hpre hlt.le
    have hlate := hdelay early pre inv' inv id asked u t hu hinvoked hx hlt
    have hdue := hqueued.due
    refine ⟨id, p, applied, carriedOut, found, by omega,
      ⟨early, inv', q, hearly, hdecided, hsame⟩, ?_, ?_⟩
    · exact unrefused_of_isOpen found (ProposalStatus.isOpen_iff.mpr (.inr waiting))
    · exact .inr ⟨hqueued.isCall, rfl, timelock, stored, auth, by omega⟩
  | none applied _ outcomes => exact .inl ⟨applied, outcomes⟩

/-- The seven days after the voting do not depend on the timelock: the clock is enough. -/
theorem enforcesDelay_zero (hclock : ClockForward steps) : EnforcesDelay 0 steps := by
  intro early pre inv inv' id timelock u t hu _ hx hlt
  obtain ⟨post, rfl, -⟩ := hx
  have hmem : (inv, .executeProposal id) ∈ pre := by
    have hget := hu.eq_take.2
    rw [List.getElem?_append_left hlt] at hget
    exact List.mem_of_getElem? hget
  exact (List.pairwise_append.mp hclock).2.2 _ hmem _ List.mem_cons_self

/-- A call is voted for and queued, and the timelock executes it after its delay. -/
def releasedRun : List (Step ℕ 0) :=
  [(answered 1, .config (.initializeGovernance 1 2 3 none none none none none)),
    (answered 1, .config (.setTimelock 5)), (answered 1, .config (.addAllowedCall 1 9 "pay")),
    (answered 1, .createProposal 4 (.executeCall 9 "pay" [])), (answered 1, .vote 4 1 true),
    (answered (1 + 14 * 24 * 60 * 60), .executeProposal 1),
    (answered (1 + 16 * 24 * 60 * 60), .executeQueuedProposal 1)]

theorem releasedRun_enforcesDelay : EnforcesDelay scheduleDelay releasedRun := by
  intro early pre inv inv' id timelock u t hu _ hx _
  have hearly := hu.mem
  have hpre := hx.mem
  simp only [releasedRun, List.mem_cons, Prod.mk.injEq, reduceCtorEq, and_false, List.not_mem_nil,
    or_false, false_or] at hearly hpre
  rw [hearly.1, hpre.1]
  decide

theorem releasedRun_applied : (reached releasedRun).applied = [(1, .executeCall 9 "pay" [])] ∧
    ((reached releasedRun).applied.map Prod.fst).Nodup ∧ ∀ pre inv call t,
      (machine 0).Executes (deployed ℕ) releasedRun pre (inv, call) t →
        t.applied = (reached pre).applied ∧ t.outcomes = (reached pre).outcomes ∨
          ∃ id p, t.applied = (id, p.action) :: (reached pre).applied ∧
            CarriedOut (reached pre) t id p.action ∧
            Carried scheduleDelay releasedRun pre inv call id p :=
  ⟨by decide, reached_applied scheduleDelay releasedRun releasedRun_enforcesDelay⟩

end Governance
