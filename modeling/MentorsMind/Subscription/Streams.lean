import MentorsMind.Subscription.Effects

/-! Streams: what the mentor has earned of a deposit, and who has received it. -/
namespace Subscription
open Outcome Soroban Shared

variable {Addr : Type} {self home : Addr} {inv : Invocation Addr self} {s t : State Addr}

section Settlement

/-- What the mentor has earned by `now`, the deposit at most. -/
def earnedBy (record : StreamingSubscription Addr) (rate : ℤ) (now : ℕ) : ℤ :=
  min ((now - record.start : ℕ) * rate) record.balanceDeposited

theorem totalEarned_eq_ok {record : StreamingSubscription Addr} {rate n : ℤ} {now : ℕ} :
    totalEarned record rate now = .ok n ↔
      FitsI128 ((now - record.start : ℕ) * rate) ∧ earnedBy record rate now = n := by
  simp only [totalEarned, bind_eq_ok, i128_eq_ok, pure_eq_ok]
  constructor
  · intro h
    obtain ⟨product, ⟨hfits, rfl⟩, rfl⟩ := h
    exact ⟨hfits, rfl⟩
  · intro h
    obtain ⟨hfits, rfl⟩ := h
    exact ⟨_, ⟨hfits, rfl⟩, rfl⟩

theorem earnedBy_le_deposit (record : StreamingSubscription Addr) (rate : ℤ) (now : ℕ) :
    earnedBy record rate now ≤ record.balanceDeposited := min_le_right _ _

/-- The stream that a call settles. -/
def Call.stream : Call Addr → Option ℕ
  | .withdrawEarned _ id => some id
  | .cancelStreaming _ id => some id
  | _ => none

variable [DecidableEq Addr]

/-- The stream `id` is settled at time `now`: its record changes from `r` to `r'`, the mentor gets
what is owed and the learner gets `refund`. -/
structure Settles (s t : State Addr) (id : ℕ) (r r' : StreamingSubscription Addr)
    (plan : StreamPlan Addr) (now : ℕ) (refund : ℤ) : Prop where
  found : s.streamSub id = some r
  planned : s.streamPlan r.planId = some plan
  fits : FitsI128 ((now - r.start : ℕ) * plan.ratePerSecond)
  subs : t.streamSub = Function.update s.streamSub id (some r')
  plans : t.streamPlan = s.streamPlan
  planCounter : t.streamPlanCounter = s.streamPlanCounter
  subCounter : t.streamSubCounter = s.streamSubCounter
  receipts : ∀ (p : Addr → Prop) [DecidablePred p], receivedBy plan.token p t.transfers =
    receivedBy plan.token p s.transfers +
      (if p r.mentor then max (earnedBy r plan.ratePerSecond now - r.withdrawnByMentor) 0 else 0) +
      (if p r.learner then refund else 0)

/-- A stream is opened under the number of the counter. -/
structure Opens {home : Addr} (inv : Invocation Addr home) (s t : State Addr) (learner : Addr)
    (planId : ℕ) (deposit : ℤ) (plan : StreamPlan Addr) : Prop where
  auth : inv.auth learner = true
  found : s.streamPlan planId = some plan
  positive : 0 < deposit
  escrow : s.escrow ≠ none
  subs : t.streamSub = Function.update s.streamSub s.streamSubCounter
    (some ⟨learner, plan.mentor, planId, inv.timestamp, deposit, 0, true, 0⟩)
  subCounter : t.streamSubCounter = s.streamSubCounter + 1
  plans : t.streamPlan = s.streamPlan
  planCounter : t.streamPlanCounter = s.streamPlanCounter

/-- What a successful call does to the streams. -/
inductive StreamEffect (inv : Invocation Addr self) (s t : State Addr) : Call Addr → Prop where
  | kept {call : Call Addr} (stream : call.stream = none) (subs : t.streamSub = s.streamSub)
      (plans : t.streamPlan = s.streamPlan) (planCounter : t.streamPlanCounter = s.streamPlanCounter)
      (subCounter : t.streamSubCounter = s.streamSubCounter) : StreamEffect inv s t call
  | planned {mentor token : Addr} {rate : ℤ} (positive : 0 < rate)
      (plans : t.streamPlan = Function.update s.streamPlan s.streamPlanCounter
        (some ⟨mentor, rate, token⟩))
      (planCounter : t.streamPlanCounter = s.streamPlanCounter + 1)
      (subs : t.streamSub = s.streamSub) (subCounter : t.streamSubCounter = s.streamSubCounter) :
      StreamEffect inv s t (.createStreamingPlan mentor rate token)
  | opened {learner : Addr} {planId : ℕ} {deposit : ℤ} (plan : StreamPlan Addr)
      (opens : Opens inv s t learner planId deposit plan) :
      StreamEffect inv s t (.subscribeStreaming learner planId deposit)
  | withdrawn {mentor : Addr} {id : ℕ} (r : StreamingSubscription Addr) (plan : StreamPlan Addr)
      (now : ℕ) (time : now = if r.isActive then inv.timestamp else r.endedAt)
      (due : r.withdrawnByMentor < earnedBy r plan.ratePerSecond now)
      (settles : Settles s t id r
        { r with withdrawnByMentor := earnedBy r plan.ratePerSecond now } plan now 0) :
      StreamEffect inv s t (.withdrawEarned mentor id)
  | cancelled {learner : Addr} {id : ℕ} (r : StreamingSubscription Addr) (plan : StreamPlan Addr)
      (active : r.isActive = true)
      (settles : Settles s t id r
        { r with
          isActive := false
          endedAt := inv.timestamp
          withdrawnByMentor := earnedBy r plan.ratePerSecond inv.timestamp } plan inv.timestamp
        (r.balanceDeposited - earnedBy r plan.ratePerSecond inv.timestamp)) :
      StreamEffect inv s t (.cancelStreaming learner id)

omit [DecidableEq Addr] in
theorem subscribeStreaming_opens {learner : Addr} {planId : ℕ} {deposit : ℤ}
    (h : subscribeStreaming inv s learner planId deposit = .ok t) :
    ∃ plan, Opens inv s t learner planId deposit plan := by
  simp only [subscribeStreaming, transfer_eq_ok, bind_eq_ok, requireAuth_eq_ok, expect_eq_ok,
    require_eq_ok, u32_eq_ok, pure_eq_ok] at h
  obtain ⟨-, hauth, plan, hplan, -, hdeposit, escrow, hescrow, paid, ⟨-, -, rfl⟩, count,
    ⟨-, rfl⟩, rfl⟩ := h
  exact ⟨plan, hauth, hplan, hdeposit, by simp [hescrow], rfl, rfl, rfl, rfl⟩

theorem withdrawEarned_effect {mentor : Addr} {id : ℕ}
    (h : withdrawEarned inv s mentor id = .ok t) :
    StreamEffect inv s t (.withdrawEarned mentor id) := by
  simp only [withdrawEarned, bind_eq_ok, requireAuth_eq_ok, expect_eq_ok, require_eq_ok,
    totalEarned_eq_ok, i128_eq_ok] at h
  obtain ⟨-, -, r, hfound, -, rfl, plan, hplan, earned, ⟨hfits, rfl⟩, claimable, ⟨-, rfl⟩, -, hdue,
    withdrawn, ⟨-, rfl⟩, escrow, -, hpaid⟩ := h
  have hpaid := transfer_moves hpaid
  refine .withdrawn r plan _ rfl (by omega) ?_
  constructor
  · exact hfound
  · exact hplan
  · exact hfits
  · rw [hpaid.eq]
    simp
  · rw [hpaid.eq]
  · rw [hpaid.eq]
  · rw [hpaid.eq]
  · intro p _
    rw [hpaid.received p, max_eq_left hdue.le]
    simp

theorem cancelStreaming_effect {learner : Addr} {id : ℕ}
    (h : cancelStreaming inv s learner id = .ok t) :
    StreamEffect inv s t (.cancelStreaming learner id) := by
  simp only [cancelStreaming, bind_eq_ok, requireAuth_eq_ok, expect_eq_ok, require_eq_ok,
    totalEarned_eq_ok, i128_eq_ok] at h
  obtain ⟨-, -, r, hfound, -, rfl, -, hactive, plan, hplan, earned, ⟨hfits, rfl⟩, owed, ⟨-, rfl⟩,
    refund, ⟨-, rfl⟩, escrow, -, settled, hsettled, hrefunded⟩ := h
  have hsettled := transferPositive_moves hsettled
  have hrefunded := transferPositive_moves hrefunded
  have hrefund : 0 ≤ r.balanceDeposited - earnedBy r plan.ratePerSecond inv.timestamp :=
    sub_nonneg.mpr (earnedBy_le_deposit r plan.ratePerSecond inv.timestamp)
  refine .cancelled r plan hactive ?_
  constructor
  · exact hfound
  · exact hplan
  · exact hfits
  · rw [hrefunded.eq, hsettled.eq]
  · rw [hrefunded.eq, hsettled.eq]
  · rw [hrefunded.eq, hsettled.eq]
  · rw [hrefunded.eq, hsettled.eq]
  · intro p _
    rw [hrefunded.received p, hsettled.received p, max_eq_left hrefund]

/-- Calls that concern subscriptions leave the streams alone. -/
theorem Effect.streams_kept {call : Call Addr} (h : Effect inv s t call)
    (hcall : call.isStreaming = false) : t.streamSub = s.streamSub ∧
      t.streamPlan = s.streamPlan ∧ t.streamPlanCounter = s.streamPlanCounter ∧
      t.streamSubCounter = s.streamSubCounter := by
  cases h with
  | streaming stream => exact absurd (stream.symm.trans hcall) (by decide)
  | initialized _ eq | configured _ _ _ _ _ eq | planned _ _ eq | subscribed _ _ _ eq
  | renewed _ _ _ _ _ _ _ _ eq | rewritten _ _ _ _ _ _ _ _ _ _ _ eq | authorised _ _ _ _ eq
  | expired _ _ _ _ eq =>
    rw [eq]
    exact ⟨rfl, rfl, rfl, rfl⟩

theorem exec_streamEffect {call : Call Addr} (h : exec inv call s = .ok t) :
    StreamEffect inv s t call := by
  have hkept : call.stream = none → call.isStreaming = false → StreamEffect inv s t call := by
    intro hstream hcall
    obtain ⟨hsubs, hplans, hplanCounter, hsubCounter⟩ := (exec_effect h).streams_kept hcall
    exact .kept hstream hsubs hplans hplanCounter hsubCounter
  cases call with
  | createStreamingPlan mentor rate token =>
    simp only [exec, createStreamingPlan, bind_eq_ok, require_eq_ok, u32_eq_ok, pure_eq_ok] at h
    obtain ⟨-, -, -, hrate, count, ⟨-, rfl⟩, rfl⟩ := h
    exact .planned hrate rfl rfl rfl rfl
  | subscribeStreaming learner planId deposit =>
    obtain ⟨plan, hopens⟩ := subscribeStreaming_opens h
    exact .opened plan hopens
  | withdrawEarned mentor id => exact withdrawEarned_effect h
  | cancelStreaming learner id => exact cancelStreaming_effect h
  | _ => exact hkept rfl rfl

/-- The escrow wallet stays set. -/
theorem Effect.escrow {call : Call Addr} (h : Effect inv s t call) (hescrow : s.escrow ≠ none) :
    t.escrow ≠ none := by
  cases h with
  | initialized fresh eq =>
    rw [eq]
    nofun
  | configured _ _ _ _ _ eq | planned _ _ eq | subscribed _ _ _ eq | renewed _ _ _ _ _ _ _ _ eq
  | rewritten _ _ _ _ _ _ _ _ _ _ _ eq | authorised _ _ _ _ eq | streaming _ _ _ eq
  | expired _ _ _ _ eq =>
    rw [eq]
    exact hescrow

end Settlement

end Subscription
