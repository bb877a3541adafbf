import MentorsMind.Bounty.Effects

/-! What becomes of the reward of a bounty that was accepted. -/
namespace Bounty
open Outcome Soroban

variable {Addr : Type} [DecidableEq Addr] {home : Addr}

section Even

variable {reward : ℤ}

omit [DecidableEq Addr] in
/-- The share is exact, and a milestone that is completed from the start has none. -/
def Milestone.Even (reward : ℤ) (m : Milestone Addr) : Prop :=
  if m.completed then m.rewardBps = 0 else 10000 ∣ reward * m.rewardBps

/-- No part of the reward is lost to rounding or to milestones posted as completed. -/
def Terms.Even (terms : Terms Addr) : Prop := ∀ m ∈ terms.milestones, m.Even terms.reward

omit [DecidableEq Addr] in
theorem owed_le (hreward : 0 < reward) (m : Milestone Addr) :
    10000 * owed reward m ≤ reward * m.rewardBps ∧
      (10000 * owed reward m = reward * m.rewardBps ↔ m.Even reward) := by
  have hnonneg : 0 ≤ reward * m.rewardBps := by positivity
  unfold owed Milestone.Even
  split_ifs with hcompleted
  · constructor
    · rw [mul_zero]
      exact hnonneg
    · rw [mul_zero, eq_comm, mul_eq_zero, or_iff_right hreward.ne', Int.natCast_eq_zero]
  · rw [share, Int.tdiv_eq_ediv_of_nonneg hnonneg]
    constructor
    · exact Int.mul_ediv_self_le (by decide)
    · constructor
      · intro h
        exact Dvd.intro _ h
      · exact Int.mul_ediv_cancel'

omit [DecidableEq Addr] in
/-- The shares that are to be paid stay below the reward, and meet it exactly if each is even. -/
theorem remaining_le (ms : List (Milestone Addr)) (hreward : 0 < reward) :
    10000 * remaining reward ms ≤ reward * (ms.map Milestone.rewardBps).sum ∧
      (10000 * remaining reward ms = reward * (ms.map Milestone.rewardBps).sum ↔
        ∀ m ∈ ms, m.Even reward) := by
  induction ms with
  | nil => simp
  | cons m ms ih =>
    obtain ⟨hhead, hheadEq⟩ := owed_le hreward m
    obtain ⟨htail, htailEq⟩ := ih
    rw [remaining_cons, List.map_cons, List.sum_cons, Nat.cast_add, mul_add, mul_add]
    constructor
    · exact add_le_add hhead htail
    · rw [add_eq_add_iff_eq_and_eq hhead htail, hheadEq, htailEq, List.forall_mem_cons]

end Even

/-- What a call pays in `token` for the bounty `id`. -/
def payment (id : ℕ) (token : Addr) (s : State Addr) (step : Step Addr home) (t : State Addr) : ℤ :=
  if step.2.subject = some id then sent home token t - sent home token s else 0

/-- How often a call pays the milestone at `i` of the bounty `id`. -/
def milestonePayments (id i : ℕ) (s : State Addr) (step : Step Addr home) (_ : State Addr) : ℤ :=
  if step.2.subject = some id then (s.bounty id).elim 0 fun b => step.2.pays b i else 0

/-- A run from deployment in which a bounty is accepted. The contract is not initialised again
after that. -/
structure Course (Addr : Type) [DecidableEq Addr] (home : Addr) where
  early : List (Step Addr home)
  inv : Invocation Addr home
  poster : Addr
  terms : Terms Addr
  posted : State Addr
  accepted : exec inv (.postBounty poster terms) (reached early) = .ok posted
  late : List (Step Addr home)
  operating : ∀ step ∈ late, step.2.isInitialize = false

namespace Course

variable (c : Course Addr home)

def id : ℕ := c.posted.bountyCount

/-- The state at the end. -/
def state : State Addr := (machine home).run c.posted c.late

/-- What learners and poster were paid for the bounty. -/
def paid : ℤ := (machine home).tally (payment c.id c.terms.token) c.posted c.late

def timesPaid (i : ℕ) : ℤ := (machine home).tally (milestonePayments c.id i) c.posted c.late

def Closed : Prop := ∃ b, c.state.bounty c.id = some b ∧ b.Closed

/-- What the posted reward promises. -/
structure Conserved : Prop where
  bounded : c.paid ≤ c.terms.reward
  once : ∀ i, c.timesPaid i ≤ 1
  exact : c.Closed → c.paid = c.terms.reward

/-- What a run after the posting keeps, where `t` is its last state. -/
structure Books (late : List (Step Addr home)) (t : State Addr) : Prop where
  count : c.id ≤ t.bountyCount
  kept : ∃ b, t.bounty c.id = some b ∧ b.reward = c.terms.reward ∧ b.token = c.terms.token ∧
    (machine home).tally (payment c.id c.terms.token) c.posted late + b.locked =
      remaining c.terms.reward c.terms.milestones ∧
    (∀ i, (machine home).tally (milestonePayments c.id i) c.posted late + b.unpaid i ≤ 1) ∧
    (b.status = .verified → ∀ m ∈ b.milestones, m.completed = true)

variable {c}

theorem posted_eq : 0 < c.terms.reward ∧
    (c.terms.milestones.map Milestone.rewardBps).sum = 10000 ∧
    c.posted.bounty c.id = some { c.terms with
      id := c.id, poster := c.poster, status := .opened, winner := none } := by
  obtain ⟨hreward, htotal, hcount, hbounty⟩ := postBounty_eq_ok c.accepted
  rw [hbounty, id, hcount, Function.update_self]
  exact ⟨hreward, htotal, rfl⟩

theorem Books.start : Books c [] c.posted := by
  obtain ⟨-, -, hbounty⟩ := posted_eq (c := c)
  constructor
  · exact le_rfl
  · refine ⟨_, hbounty, rfl, rfl, ?_, ?_, nofun⟩
    · simp [BountyRecord.locked]
    · intro i
      rw [Machine.tally_nil, zero_add, BountyRecord.unpaid]
      split_ifs
      · exact le_rfl
      · exact zero_le_one

/-- One call keeps the books: what it pays for the bounty is no longer locked. -/
theorem Books.step {late : List (Step Addr home)} {step : Step Addr home} {t : State Addr}
    (hoperating : step.2.isInitialize = false)
    (hx : (machine home).exec step ((machine home).run c.posted late) = .ok t)
    (h : Books c late ((machine home).run c.posted late)) : Books c (late ++ [step]) t := by
  obtain ⟨inv, call⟩ := step
  set s := (machine home).run c.posted late with hs
  have hexec : exec inv call s = .ok t := hx
  obtain ⟨hcount, b, hb, hreward, htoken, hpaid, htimes, hverified⟩ := h
  have htally : (machine home).tally (payment c.id c.terms.token) c.posted (late ++ [(inv, call)]) =
      (machine home).tally (payment c.id c.terms.token) c.posted late +
        payment c.id c.terms.token s (inv, call) t := Machine.tally_snoc_ok hx
  have htimesTally : ∀ i,
      (machine home).tally (milestonePayments c.id i) c.posted (late ++ [(inv, call)]) =
        (machine home).tally (milestonePayments c.id i) c.posted late +
          milestonePayments c.id i s (inv, call) t := fun i => Machine.tally_snoc_ok hx
  -- a call that does not name the bounty pays nothing for it
  have hother : call.subject ≠ some c.id → t.bounty c.id = s.bounty c.id →
      c.id ≤ t.bountyCount → Books c (late ++ [(inv, call)]) t := by
    intro hsubject hkept hcount'
    constructor
    · exact hcount'
    · refine ⟨b, hkept.trans hb, hreward, htoken, ?_, ?_, hverified⟩
      · rw [htally, payment, if_neg hsubject, add_zero]
        exact hpaid
      · intro i
        rw [htimesTally, milestonePayments, if_neg hsubject, add_zero]
        exact htimes i
  cases exec_effect hexec with
  | kept subject bounty count =>
    apply hother
    · rw [subject]
      nofun
    · rw [bounty]
    · rw [count hoperating]
      exact hcount
  | posted fresh count bounty =>
    apply hother
    · nofun
    · rw [bounty, Function.update_of_ne (by omega)]
    · omega
  | settled id b₁ b' amount settles =>
    by_cases hid : id = c.id
    · subst hid
      obtain rfl := Option.some.inj (settles.found.symm.trans hb)
      constructor
      · rw [settles.count]
        exact hcount
      · refine ⟨b', by rw [settles.bounty, Function.update_self], settles.reward.trans hreward,
          settles.token.trans htoken, ?_, ?_, settles.verified⟩
        · have hlocked := settles.locked
          rw [htally, payment, if_pos settles.subject, settles.sent, if_pos htoken.symm]
          omega
        · intro i
          have hunpaid := settles.unpaid i
          have hbefore := htimes i
          rw [htimesTally, milestonePayments, if_pos settles.subject, hb]
          simp only [Option.elim_some]
          omega
    · apply hother
      · rw [settles.subject]
        intro heq
        exact hid (Option.some.inj heq)
      · rw [settles.bounty, Function.update_of_ne (Ne.symm hid)]
      · rw [settles.count]
        exact hcount

theorem books (c : Course Addr home) : Books c c.late c.state := by
  have hprefix : ∀ late, late <+: c.late → Books c late ((machine home).run c.posted late) := by
    apply Machine.run_history_of_executes (M := machine home) (P := fun late t => Books c late t)
    · exact Books.start
    · intro late step t hx hlate
      have hrun : (machine home).exec step ((machine home).run c.posted late) = .ok t := hx.exec_eq
      exact hlate.step (c.operating step hx.mem) hrun
    · intro late step e hlate herror
      obtain ⟨hcount, b, hb, hreward, htoken, hpaid, htimes, hverified⟩ := hlate
      constructor
      · exact hcount
      · refine ⟨b, hb, hreward, htoken, ?_, ?_, hverified⟩
        · rw [Machine.tally_snoc_error herror]
          exact hpaid
        · intro i
          rw [Machine.tally_snoc_error herror]
          exact htimes i
  exact hprefix c.late List.prefix_rfl

/-- The reward of a bounty is conserved exactly if its shares are even, once it is closed. -/
theorem reward_conserved_iff (c : Course Addr home) : c.Conserved ↔ (c.Closed → c.terms.Even) := by
  obtain ⟨hpos, htotal, -⟩ := posted_eq (c := c)
  obtain ⟨hle, heven⟩ := remaining_le c.terms.milestones hpos
  obtain ⟨-, b, hb, hreward, -, hpaid, htimes, hverified⟩ := books c
  change c.paid + b.locked = _ at hpaid
  rw [htotal, Nat.cast_ofNat, mul_comm c.terms.reward] at hle heven
  have hlocked : 0 ≤ b.locked := BountyRecord.locked_nonneg (by omega)
  have hclosed : c.Closed → c.paid = remaining c.terms.reward c.terms.milestones := by
    intro hclosed
    obtain ⟨b', hb', hclosed⟩ := hclosed
    obtain rfl := Option.some.inj (hb.symm.trans hb')
    rw [BountyRecord.locked_of_closed hclosed hverified, add_zero] at hpaid
    exact hpaid
  constructor
  · intro h hend
    have hexact := h.exact hend
    rw [hclosed hend] at hexact
    exact heven.mp (by rw [hexact])
  · intro h
    constructor
    · omega
    · intro i
      have hunpaid := b.unpaid_nonneg i
      have hbefore := htimes i
      change c.timesPaid i + b.unpaid i ≤ 1 at hbefore
      omega
    · intro hend
      have hexact := heven.mpr (h hend)
      rw [hclosed hend]
      omega

end Course

section Dust

/-- An invocation at time `now` that every account signed; the contract is address 0. -/
def calm (now : ℕ) : Invocation ℕ 0 where
  toEnv := signedByAll now
  accepts _ := true
  isVerified _ _ := some true
  reports _ _ := true

def half (description : Hash) : Milestone ℕ := ⟨description, 5000, false, none⟩

/-- 1001 units for two halves. -/
def oddTerms : Terms ℕ := ⟨"rust", 1, 1001, 9, 2000000, [half 1, half 2]⟩

def opening : List (Step ℕ 0) := [(calm 1000000, .initializeBounty 1 2)]

def posting : Step ℕ 0 := (calm 1000000, .postBounty 5 oddTerms)

/-- Account 6 completes the whole bounty. -/
def oddCourse : Course ℕ 0 where
  early := opening
  inv := calm 1000000
  poster := 5
  terms := oddTerms
  posted := reached (opening ++ [posting])
  accepted := by
    have hx : (machine 0).Executes deployed (opening ++ [posting]) opening posting
        (reached (opening ++ [posting])) := by
      apply Machine.executes_of_run_ne
      intro heq
      exact absurd (congrArg (fun u : State ℕ => u.bountyCount) heq) (by decide)
    exact hx.exec_eq
  late := [(calm 1000000, .claimBounty 6 1 7 8), (calm 1000000, .verifyCompletion 4 1 6 7)]
  operating := by decide

/-- One unit of the reward stays behind. -/
theorem oddCourse_keeps_dust : ¬ ∀ c : Course ℕ 0, c.Conserved := by
  intro h
  have hclosed : oddCourse.Closed := by
    refine ⟨_, rfl, ?_⟩
    exact .inl rfl
  exact absurd ((h oddCourse).exact hclosed) (by decide)

end Dust

end Bounty
