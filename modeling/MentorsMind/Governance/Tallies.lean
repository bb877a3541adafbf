import MentorsMind.Governance.Proposals
import MentorsMind.Lib.Poll

/-! The votes on the proposals. Each address votes on a proposal at most once, while it is active
and its voting period runs, and the four tallies are the sums over the votes that are recorded. -/
namespace Governance
open Outcome Soroban

variable {Addr : Type} {home : Addr}

/-- The side that a voter took on a proposal. -/
def State.side (s : State Addr) (id : ℕ) (voter : Addr) : Option Bool := s.vote (id, voter)

def State.weight (s : State Addr) (id : ℕ) (voter : Addr) : ℤ := s.voteWeight (id, voter)

def State.multiplier (s : State Addr) (id : ℕ) (voter : Addr) : ℕ :=
  s.voteWeightMultiplier (id, voter)

/-- What a recorded vote counts for, rounded down. -/
def State.weighted (s : State Addr) (id : ℕ) (voter : Addr) : ℤ :=
  s.weight id voter * s.multiplier id voter / 10000

/-- The tallies of a proposal are the sums over the recorded votes. -/
structure Tallied (s : State Addr) (id : ℕ) (p : Proposal Addr) : Prop where
  finite : Poll.Finite (s.side id)
  votesFor : p.votesFor = Poll.tally (s.side id) (s.weight id) true
  votesAgainst : p.votesAgainst = Poll.tally (s.side id) (s.weight id) false
  weightedFor : (s.weightedVotesFor id).getD 0 = Poll.tally (s.side id) (s.weighted id) true
  weightedAgainst :
    (s.weightedVotesAgainst id).getD 0 = Poll.tally (s.side id) (s.weighted id) false
  unvotedFor : s.weightedVotesFor id = none → p.votesFor = 0
  unvotedAgainst : s.weightedVotesAgainst id = none → p.votesAgainst = 0

section Tallied

variable {s t : State Addr} {id : ℕ} {p q : Proposal Addr}

/-- While nobody is for the proposal, `execute_proposal` reads the tally that is not weighted. -/
theorem Tallied.tallyFor (h : Tallied s id p) :
    s.tallyFor id p = Poll.tally (s.side id) (s.weighted id) true := by
  rw [← h.weightedFor, State.tallyFor]
  cases hweighted : s.weightedVotesFor id with
  | none => exact h.unvotedFor hweighted
  | some weighted => rfl

theorem Tallied.tallyAgainst (h : Tallied s id p) :
    s.tallyAgainst id p = Poll.tally (s.side id) (s.weighted id) false := by
  rw [← h.weightedAgainst, State.tallyAgainst]
  cases hweighted : s.weightedVotesAgainst id with
  | none => exact h.unvotedAgainst hweighted
  | some weighted => rfl

/-- Nothing that a vote on the proposal writes is different, the proposal apart. -/
structure SameBallot (s t : State Addr) (id : ℕ) : Prop where
  side : t.side id = s.side id
  weight : t.weight id = s.weight id
  multiplier : t.multiplier id = s.multiplier id
  weightedVotesFor : t.weightedVotesFor id = s.weightedVotesFor id
  weightedVotesAgainst : t.weightedVotesAgainst id = s.weightedVotesAgainst id

/-- A call that leaves the votes and the weighted tallies alone leaves every ballot as it is. -/
theorem SameBallot.of_eq (hvote : t.vote = s.vote) (hweight : t.voteWeight = s.voteWeight)
    (hmultiplier : t.voteWeightMultiplier = s.voteWeightMultiplier)
    (hfor : t.weightedVotesFor = s.weightedVotesFor)
    (hagainst : t.weightedVotesAgainst = s.weightedVotesAgainst) (i : ℕ) : SameBallot s t i := by
  constructor
  · funext voter
    rw [State.side, State.side, hvote]
  · funext voter
    rw [State.weight, State.weight, hweight]
  · funext voter
    rw [State.multiplier, State.multiplier, hmultiplier]
  · rw [hfor]
  · rw [hagainst]

theorem Tallied.keep (h : Tallied s id p) (hsame : SameBallot s t id)
    (hfor : q.votesFor = p.votesFor) (hagainst : q.votesAgainst = p.votesAgainst) :
    Tallied t id q := by
  have hweighted : t.weighted id = s.weighted id := by
    unfold State.weighted
    rw [hsame.weight, hsame.multiplier]
  constructor
  · rw [hsame.side]
    exact h.finite
  · rw [hfor, hsame.side, hsame.weight]
    exact h.votesFor
  · rw [hagainst, hsame.side, hsame.weight]
    exact h.votesAgainst
  · rw [hsame.weightedVotesFor, hsame.side, hweighted]
    exact h.weightedFor
  · rw [hsame.weightedVotesAgainst, hsame.side, hweighted]
    exact h.weightedAgainst
  · rw [hsame.weightedVotesFor, hfor]
    exact h.unvotedFor
  · rw [hsame.weightedVotesAgainst, hagainst]
    exact h.unvotedAgainst

/-- Nothing was voted on the proposal. -/
structure Unvoted (s : State Addr) (id : ℕ) : Prop where
  side : ∀ voter, s.side id voter = none
  weightedFor : s.weightedVotesFor id = none
  weightedAgainst : s.weightedVotesAgainst id = none

theorem Unvoted.tallied (h : Unvoted s id) (hfor : p.votesFor = 0) (hagainst : p.votesAgainst = 0) :
    Tallied s id p := by
  constructor
  · exact Poll.finite_empty h.side
  · rw [Poll.tally_empty h.side, hfor]
  · rw [Poll.tally_empty h.side, hagainst]
  · rw [Poll.tally_empty h.side, h.weightedFor]
    rfl
  · rw [Poll.tally_empty h.side, h.weightedAgainst]
    rfl
  · intro _
    exact hfor
  · intro _
    exact hagainst

theorem Unvoted.keep (h : Unvoted s id) (hsame : SameBallot s t id) : Unvoted t id := by
  constructor
  · rw [hsame.side]
    exact h.side
  · rw [hsame.weightedVotesFor]
    exact h.weightedFor
  · rw [hsame.weightedVotesAgainst]
    exact h.weightedAgainst

/-- Every proposal has the tallies of its votes, and there are votes on proposals only. -/
structure TalliesExact (s : State Addr) : Prop where
  tallied : ∀ id p, s.proposal id = some p → Tallied s id p
  unvoted : ∀ id, s.proposal id = none → Unvoted s id

theorem talliesExact_deployed : TalliesExact (deployed Addr) where
  tallied id p h := by cases h
  unvoted id h := ⟨fun _ => rfl, rfl, rfl⟩

end Tallied

variable [DecidableEq Addr] {inv : Invocation Addr home} {s t : State Addr} {call : Call Addr}
  {id i : ℕ} {p q : Proposal Addr} {voter : Addr} {support : Bool} {weight : ℤ} {weightBps : ℕ}

section RecordVote

@[simp] theorem recordVote_side :
    (s.recordVote id p voter support weight weightBps).side id =
      Function.update (s.side id) voter (some support) := by
  funext a
  by_cases ha : a = voter <;> simp [State.recordVote, State.side, ha]

@[simp] theorem recordVote_weight :
    (s.recordVote id p voter support weight weightBps).weight id =
      Function.update (s.weight id) voter weight := by
  funext a
  by_cases ha : a = voter <;> simp [State.recordVote, State.weight, ha]

@[simp] theorem recordVote_multiplier :
    (s.recordVote id p voter support weight weightBps).multiplier id =
      Function.update (s.multiplier id) voter weightBps := by
  funext a
  by_cases ha : a = voter <;> simp [State.recordVote, State.multiplier, ha]

theorem recordVote_weighted :
    (s.recordVote id p voter support weight weightBps).weighted id =
      Function.update (s.weighted id) voter (weight * weightBps / 10000) := by
  funext a
  by_cases ha : a = voter <;> simp [State.weighted, ha]

/-- The proposal that is voted on. -/
theorem Tallied.recordVote (h : Tallied s id p) (hfirst : s.vote (id, voter) = none) :
    Tallied (s.recordVote id p voter support weight weightBps) id
      (p.withVote support weight) := by
  have hcast := h.finite.tally_cast (s.weight id) support weight hfirst
  have hweighted :=
    h.finite.tally_cast (s.weighted id) support (weight * weightBps / 10000) hfirst
  constructor
  · rw [recordVote_side]
    exact h.finite.cast voter support
  · rw [recordVote_side, recordVote_weight, hcast, ← h.votesFor]
    cases support <;> simp [Proposal.withVote]
  · rw [recordVote_side, recordVote_weight, hcast, ← h.votesAgainst]
    cases support <;> simp [Proposal.withVote]
  · rw [recordVote_side, recordVote_weighted, hweighted, ← h.weightedFor]
    cases support <;> simp [State.recordVote]
  · rw [recordVote_side, recordVote_weighted, hweighted, ← h.weightedAgainst]
    cases support <;> simp [State.recordVote]
  · have hunvoted := h.unvotedFor
    cases support <;> simp_all [State.recordVote, Proposal.withVote]
  · have hunvoted := h.unvotedAgainst
    cases support <;> simp_all [State.recordVote, Proposal.withVote]

/-- A vote leaves the other proposals alone. -/
theorem sameBallot_recordVote (hi : i ≠ id) :
    SameBallot s (s.recordVote id p voter support weight weightBps) i := by
  have hkey : ∀ a, (i, a) ≠ (id, voter) := by
    intro a heq
    exact hi (Prod.mk.inj heq).1
  constructor
  · funext a
    exact Function.update_of_ne (hkey a) _ _
  · funext a
    exact Function.update_of_ne (hkey a) _ _
  · funext a
    exact Function.update_of_ne (hkey a) _ _
  · cases support <;> simp [State.recordVote, hi]
  · cases support <;> simp [State.recordVote, hi]

end RecordVote

/-- What a call does to the votes. -/
inductive Polling (inv : Invocation Addr home) (s t : State Addr) : Call Addr → Prop where
  | voted {voter : Addr} {id : ℕ} {support : Bool} (p : Proposal Addr) (weight : ℤ)
      (auth : inv.auth voter = true) (found : s.proposal id = some p)
      (active : p.status = .active) (inTime : inv.timestamp < p.votingEndsAt)
      (first : s.vote (id, voter) = none) (weighs : votingWeight inv s p id voter = .ok weight)
      (eq : t = s.recordVote id p voter support weight (getVotingWindow inv p).weightBps) :
      Polling inv s t (.vote voter id support)
  | still {c : Call Addr} (noVote : ∀ voter id support, c ≠ .vote voter id support)
      (same : ∀ id, SameBallot s t id) (proposal : t.proposal = s.proposal) : Polling inv s t c
  | opened {c : Call Addr} (noVote : ∀ voter id support, c ≠ .vote voter id support)
      (same : ∀ id, SameBallot s t id) (p : Proposal Addr) (votesFor : p.votesFor = 0)
      (votesAgainst : p.votesAgainst = 0)
      (proposal : t.proposal = Function.update s.proposal (s.proposalCount + 1) (some p)) :
      Polling inv s t c
  | moved {c : Call Addr} (noVote : ∀ voter id support, c ≠ .vote voter id support)
      (same : ∀ id, SameBallot s t id) (id : ℕ) (p q : Proposal Addr)
      (found : s.proposal id = some p) (votesFor : q.votesFor = p.votesFor)
      (votesAgainst : q.votesAgainst = p.votesAgainst)
      (proposal : t.proposal = Function.update s.proposal id (some q)) : Polling inv s t c

theorem Effect.polling (h : Effect inv s t call) : Polling inv s t call := by
  cases h with
  | initialized fresh eq =>
    rw [eq]
    exact .still nofun (.of_eq rfl rfl rfl rfl rfl) rfl
  | configured kept eq =>
    rw [eq]
    exact .still nofun (.of_eq rfl rfl rfl rfl rfl) rfl
  | created proposer action made _ _ votingEndsAt supply eq =>
    rw [eq]
    rcases made with rfl | ⟨escrow, rollbackId, rfl, -⟩
    · exact .opened nofun (.of_eq rfl rfl rfl rfl rfl) _ rfl rfl rfl
    · exact .opened nofun (.of_eq rfl rfl rfl rfl rfl) _ rfl rfl rfl
  | voted p weight auth found active inTime first weighs _ eq =>
    exact .voted p weight auth found active inTime first weighs eq
  | failed p found _ _ _ eq =>
    rw [eq]
    exact .moved nofun (.of_eq rfl rfl rfl rfl rfl) _ p { p with status := .failed } found rfl
      rfl rfl
  | @queued id p timelock found _ _ _ _ _ _ eq =>
    rw [eq]
    exact .moved nofun (.of_eq rfl rfl rfl rfl rfl) id p
      { p with status := .queued, timelockOpId := inv.scheduledId timelock id } found rfl rfl rfl
  | enacted p found _ _ _ _ _ eq =>
    rw [eq]
    exact .moved nofun (.of_eq rfl rfl rfl rfl rfl) _ p { p with status := .executed } found rfl
      rfl rfl
  | enactedQueued p timelock _ _ found _ _ eq =>
    rw [eq]
    exact .moved nofun (.of_eq rfl rfl rfl rfl rfl) _ p { p with status := .executed } found rfl
      rfl rfl
  | cancelled p admin _ _ found _ _ _ eq =>
    rw [eq]
    exact .moved nofun (.of_eq rfl rfl rfl rfl rfl) _ p { p with status := .cancelled } found rfl
      rfl rfl

theorem Polling.talliesExact (h : Polling inv s t call) (hs : Registered s)
    (he : TalliesExact s) : TalliesExact t := by
  cases h with
  | @voted voter id support p weight _ found _ _ first _ eq =>
    rw [eq]
    constructor
    · intro i q hq
      obtain ⟨rfl, rfl⟩ | ⟨hne, hother⟩ := Table.update_eq_some_iff.mp hq
      · exact (he.tallied i p found).recordVote first
      · exact (he.tallied i q hother).keep (sameBallot_recordVote hne) rfl rfl
    · intro i hnone
      obtain ⟨hne, hother⟩ := Table.update_eq_none_iff.mp hnone
      exact (he.unvoted i hother).keep (sameBallot_recordVote hne)
  | still noVote same proposal =>
    constructor
    · intro i p hp
      rw [proposal] at hp
      exact (he.tallied i p hp).keep (same i) rfl rfl
    · intro i hnone
      rw [proposal] at hnone
      exact (he.unvoted i hnone).keep (same i)
  | opened noVote same p votesFor votesAgainst proposal =>
    constructor
    · rw [proposal]
      apply Table.forall_update
      · intro i q hq
        exact (he.tallied i q hq).keep (same i) rfl rfl
      · exact ((he.unvoted _ hs.fresh).keep (same _)).tallied votesFor votesAgainst
    · intro i hnone
      rw [proposal, Table.update_eq_none_iff] at hnone
      exact (he.unvoted i hnone.2).keep (same i)
  | moved noVote same id p q found votesFor votesAgainst proposal =>
    constructor
    · rw [proposal]
      apply Table.forall_update
      · intro i r hr
        exact (he.tallied i r hr).keep (same i) rfl rfl
      · exact (he.tallied id p found).keep (same id) votesFor votesAgainst
    · intro i hnone
      rw [proposal, Table.update_eq_none_iff] at hnone
      exact (he.unvoted i hnone.2).keep (same i)

theorem run_talliesExact (steps : List (Step Addr home)) : TalliesExact (reached steps) :=
  Machine.run_history (P := fun _ => TalliesExact) talliesExact_deployed
    (fun pre _ _ hs hx => (exec_effect hx).polling.talliesExact (run_registered pre) hs)
    (fun _ _ _ hs _ => hs) steps

section Votes

/-- A vote is on record, with what it weighs. -/
structure Recorded (s : State Addr) (voter : Addr) (id : ℕ) (support : Bool) (weight : ℤ)
    (weightBps : ℕ) : Prop where
  side : s.side id voter = some support
  weight_eq : s.weight id voter = weight
  multiplier : s.multiplier id voter = weightBps

/-- No later call rewrites a recorded vote. -/
theorem Recorded.keep (h : Recorded s voter id support weight weightBps)
    (hx : exec inv call s = .ok t) : Recorded t voter id support weight weightBps := by
  have hsame : ∀ same : SameBallot s t id, Recorded t voter id support weight weightBps := by
    intro same
    constructor
    · rw [same.side]
      exact h.side
    · rw [same.weight]
      exact h.weight_eq
    · rw [same.multiplier]
      exact h.multiplier
  cases (exec_effect hx).polling with
  | @voted other i side p w _ found _ _ first _ eq =>
    by_cases hi : id = i
    · subst hi
      have hvoter : voter ≠ other := by
        rintro rfl
        have hside := h.side
        rw [State.side, first] at hside
        cases hside
      rw [eq]
      constructor
      · rw [recordVote_side, Function.update_of_ne hvoter]
        exact h.side
      · rw [recordVote_weight, Function.update_of_ne hvoter]
        exact h.weight_eq
      · rw [recordVote_multiplier, Function.update_of_ne hvoter]
        exact h.multiplier
    · rw [eq] at hsame ⊢
      exact hsame (sameBallot_recordVote hi)
  | still noVote same _ => exact hsame (same id)
  | opened noVote same _ _ _ _ => exact hsame (same id)
  | moved noVote same _ _ _ _ _ _ _ => exact hsame (same id)

/-- The vote that the call casts is one that the contract admits, and is on record in `r`. -/
def CastInTime (inv : Invocation Addr home) (s : State Addr) (voter : Addr) (id : ℕ)
    (support : Bool) (r : State Addr) : Prop :=
  ∃ p weight, inv.auth voter = true ∧ s.proposal id = some p ∧ p.status = .active ∧
    inv.timestamp < p.votingEndsAt ∧ votingWeight inv s p id voter = .ok weight ∧
      Recorded r voter id support weight (getVotingWindow inv p).weightBps

theorem vote_castInTime (hx : exec inv (.vote voter id support) s = .ok t) :
    s.side id voter = none ∧ CastInTime inv s voter id support t := by
  cases (exec_effect hx).polling with
  | voted p weight auth found active inTime first weighs eq =>
    constructor
    · exact first
    · refine ⟨p, weight, auth, found, active, inTime, weighs, ?_⟩
      rw [eq]
      constructor
      · rw [recordVote_side, Function.update_self]
      · rw [recordVote_weight, Function.update_self]
      · rw [recordVote_multiplier, Function.update_self]
  | still noVote _ _ => exact absurd rfl (noVote voter id support)
  | opened noVote _ _ _ _ _ => exact absurd rfl (noVote voter id support)
  | moved noVote _ _ _ _ _ _ _ _ => exact absurd rfl (noVote voter id support)

variable {steps pre pre' : List (Step Addr home)} {inv' : Invocation Addr home}
  {support' : Bool} {t' : State Addr}

/-- A vote that was cast stays on record. -/
theorem castInTime_of_executes
    (hx : (machine home).Executes (deployed Addr) steps pre (inv, .vote voter id support) t) :
    CastInTime inv (reached pre) voter id support (reached steps) := by
  have hexec : exec inv (.vote voter id support) (reached pre) = .ok t := hx.exec_eq
  obtain ⟨-, p, weight, auth, found, active, inTime, weighs, hrecorded⟩ := vote_castInTime hexec
  refine ⟨p, weight, auth, found, active, inTime, weighs, ?_⟩
  refine hx.kept (D := fun s => Recorded s voter id support weight (getVotingWindow inv p).weightBps)
    hrecorded ?_ steps hx.snoc_prefix List.prefix_rfl
  intro later step u hu hlater
  exact hlater.keep hu.exec_eq

/-- Nobody votes twice on a proposal. -/
theorem votes_unique
    (hx : (machine home).Executes (deployed Addr) steps pre (inv, .vote voter id support) t)
    (hx' : (machine home).Executes (deployed Addr) steps pre' (inv', .vote voter id support') t') :
    pre = pre' := by
  apply Machine.Executes.unique (M := machine home)
    (P := fun _ step _ => ∃ support, step.2 = .vote voter id support)
    (D := fun s => s.side id voter ≠ none) _ _ _ hx ⟨support, rfl⟩ hx' ⟨support', rfl⟩
  · rintro early ⟨inv, call⟩ u hu ⟨side, rfl⟩
    exact not_not.mpr (vote_castInTime hu.exec_eq).1
  · rintro early ⟨inv, call⟩ u hu ⟨side, rfl⟩
    obtain ⟨-, p, weight, -, -, -, -, -, hrecorded⟩ := vote_castInTime hu.exec_eq
    rw [hrecorded.side]
    exact Option.some_ne_none side
  · intro early step u hu hvoted
    obtain ⟨side, hside⟩ := Option.ne_none_iff_exists'.mp hvoted
    have hrecorded : Recorded (reached early) voter id side _ _ := ⟨hside, rfl, rfl⟩
    rw [(hrecorded.keep hu.exec_eq).side]
    exact Option.some_ne_none side

theorem side_of_polling (h : Polling inv s t call) (hside : t.side id voter = some support) :
    call = .vote voter id support ∨ s.side id voter = some support := by
  cases h with
  | @voted other i side p weight _ _ _ _ _ _ eq =>
    rw [eq] at hside
    by_cases hi : id = i
    · subst hi
      rw [recordVote_side] at hside
      obtain ⟨rfl, rfl⟩ | ⟨-, hother⟩ := Table.update_eq_some_iff.mp hside
      · exact .inl rfl
      · exact .inr hother
    · rw [(sameBallot_recordVote hi).side] at hside
      exact .inr hside
  | still noVote same _ =>
    rw [(same id).side] at hside
    exact .inr hside
  | opened noVote same _ _ _ _ =>
    rw [(same id).side] at hside
    exact .inr hside
  | moved noVote same _ _ _ _ _ _ _ =>
    rw [(same id).side] at hside
    exact .inr hside

/-- What is on record was cast. -/
theorem exists_vote_of_side (steps : List (Step Addr home))
    (h : (reached steps).side id voter = some support) : ∃ pre inv t,
      (machine home).Executes (deployed Addr) steps pre (inv, .vote voter id support) t := by
  refine Machine.run_history (M := machine home)
    (P := fun steps s => s.side id voter = some support → ∃ pre inv t,
      (machine home).Executes (deployed Addr) steps pre (inv, .vote voter id support) t)
    ?_ ?_ ?_ steps h
  · intro hside
    cases hside
  · intro pre step u hpre hx hside
    obtain ⟨inv, call⟩ := step
    rcases side_of_polling (exec_effect hx).polling hside with rfl | hbefore
    · exact ⟨pre, inv, u, Machine.executes_snoc hx⟩
    · obtain ⟨early, inv', t, ht⟩ := hpre hbefore
      exact ⟨early, inv', t, ht.append _⟩
  · intro pre step e hpre _ hside
    obtain ⟨early, inv', t, ht⟩ := hpre hside
    exact ⟨early, inv', t, ht.append [step]⟩

end Votes

/-- In every state that is reached, the tallies of each proposal are the sums over the recorded
votes, also those that its execution goes by. A vote is recorded exactly if it was cast, which
each address does once at most, while the proposal was active and before its voting period ended,
and stays as it was recorded. -/
theorem reached_tallies (steps : List (Step Addr home)) :
    (∀ id p, (reached steps).proposal id = some p → Tallied (reached steps) id p ∧
        (reached steps).tallyFor id p =
          Poll.tally ((reached steps).side id) ((reached steps).weighted id) true ∧
        (reached steps).tallyAgainst id p =
          Poll.tally ((reached steps).side id) ((reached steps).weighted id) false) ∧
      (∀ id voter support, (reached steps).side id voter = some support ↔ ∃ pre inv t,
        (machine home).Executes (deployed Addr) steps pre (inv, .vote voter id support) t) ∧
      (∀ pre inv voter id support t,
        (machine home).Executes (deployed Addr) steps pre (inv, .vote voter id support) t →
          CastInTime inv (reached pre) voter id support (reached steps)) ∧
      ∀ pre pre' inv inv' voter id support support' t t',
        (machine home).Executes (deployed Addr) steps pre (inv, .vote voter id support) t →
        (machine home).Executes (deployed Addr) steps pre' (inv', .vote voter id support') t' →
          pre = pre' := by
  refine ⟨?_, ?_, ?_, ?_⟩
  · intro id p hfound
    have htallied := (run_talliesExact steps).tallied id p hfound
    exact ⟨htallied, htallied.tallyFor, htallied.tallyAgainst⟩
  · intro id voter support
    constructor
    · exact exists_vote_of_side steps
    · intro hcast
      obtain ⟨pre, inv, t, hx⟩ := hcast
      obtain ⟨p, weight, -, -, -, -, -, hrecorded⟩ := castInTime_of_executes hx
      exact hrecorded.side
  · intro pre inv voter id support t hx
    exact castInTime_of_executes hx
  · intro pre pre' inv inv' voter id support support' t t' hx hx'
    exact votes_unique hx hx'

end Governance
