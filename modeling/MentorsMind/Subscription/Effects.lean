import MentorsMind.Subscription.Contract

/-! What a successful call changes. -/
namespace Subscription
open Outcome Soroban Shared

variable {Addr : Type} [DecidableEq Addr] {self : Addr} {inv : Invocation Addr self}
  {s t : State Addr}

section Payments

/-- What transfers in `token` bring to the addresses that satisfy `p`. -/
def receivedBy (token : Addr) (p : Addr → Prop) [DecidablePred p] (xs : List (Transfer Addr)) : ℤ :=
  (xs.map fun x => if x.token = token ∧ p x.recipient then x.amount else 0).sum

/-- What transfers in `token` take from `payer`. -/
def spentBy (token payer : Addr) (xs : List (Transfer Addr)) : ℤ :=
  Tokens.paidBy token payer (fun _ => True) xs

@[simp] theorem receivedBy_cons (token : Addr) (p : Addr → Prop) [DecidablePred p]
    (x : Transfer Addr) (xs : List (Transfer Addr)) : receivedBy token p (x :: xs) =
      (if x.token = token ∧ p x.recipient then x.amount else 0) + receivedBy token p xs := by
  simp [receivedBy]

@[simp] theorem spentBy_cons (token payer : Addr) (x : Transfer Addr) (xs : List (Transfer Addr)) :
    spentBy token payer (x :: xs) =
      spentBy token payer xs + if x.token = token ∧ x.source = payer then x.amount else 0 := by
  simp [spentBy, Tokens.paidBy]

/-- A transfer changes the record of the tokens alone. -/
structure Moves (s t : State Addr) (token source recipient : Addr) (amount : ℤ) : Prop where
  eq : t = { s with transfers := t.transfers }
  received : ∀ (p : Addr → Prop) [DecidablePred p], receivedBy token p t.transfers =
    receivedBy token p s.transfers + if p recipient then amount else 0
  spent : spentBy token source t.transfers = spentBy token source s.transfers + amount

omit [DecidableEq Addr] in
theorem transfer_eq_ok {token source recipient : Addr} {amount : ℤ} :
    transfer inv s token source recipient amount = .ok t ↔
      0 ≤ amount ∧ inv.accepts ⟨token, source, recipient, amount⟩ = true ∧
        { s with transfers := ⟨token, source, recipient, amount⟩ :: s.transfers } = t := by
  simp [transfer]

theorem transfer_moves {token source recipient : Addr} {amount : ℤ}
    (h : transfer inv s token source recipient amount = .ok t) :
    Moves s t token source recipient amount := by
  obtain ⟨-, -, rfl⟩ := transfer_eq_ok.mp h
  constructor
  · rfl
  · intro p _
    simp [add_comm]
  · simp

theorem transferPositive_moves {token source recipient : Addr} {amount : ℤ}
    (h : transferPositive inv s token source recipient amount = .ok t) :
    Moves s t token source recipient (max amount 0) := by
  unfold transferPositive at h
  split_ifs at h with hpos
  · rw [max_eq_left hpos.le]
    exact transfer_moves h
  · obtain rfl := pure_eq_ok.mp h
    rw [max_eq_right (not_lt.mp hpos)]
    constructor
    · rfl
    · intro p _
      simp
    · rw [add_zero]

/-- A payment takes its amount from the payer, fee and remainder together. -/
theorem routePayment_eq_ok {payer mentor token : Addr} {amount : ℤ}
    (h : routePayment inv s payer mentor token amount = .ok t) :
    t = { s with transfers := t.transfers, mentorRevenue := t.mentorRevenue } ∧
      (0 ≤ amount → (∀ feeBps, s.platformFeeBps = some feeBps → 0 ≤ feeBps) →
        spentBy token payer t.transfers = spentBy token payer s.transfers + amount) := by
  simp only [routePayment, bind_eq_ok, expect_eq_ok, checkedI128_eq_ok, i128_eq_ok,
    pure_eq_ok] at h
  obtain ⟨treasury, -, escrow, -, product, ⟨-, rfl⟩, remainder, ⟨-, rfl⟩, taxed, htaxed, paid,
    hpaid, revenue, -, rfl⟩ := h
  have htaxed := transferPositive_moves htaxed
  have hpaid := transfer_moves hpaid
  constructor
  · rw [hpaid.eq, htaxed.eq]
  · intro hamount hfee
    have hbps : 0 ≤ s.platformFeeBps.getD defaultPlatformFeeBps := by
      cases hstored : s.platformFeeBps with
      | none => decide
      | some feeBps => exact hfee feeBps hstored
    have htax : 0 ≤ (amount * s.platformFeeBps.getD defaultPlatformFeeBps).tdiv 10000 :=
      Int.tdiv_nonneg (mul_nonneg hamount hbps) (by decide)
    rw [hpaid.spent, htaxed.spent, max_eq_left htax]
    ring

end Payments

/-- The status of a subscription changes by a call of the learner or because it has lapsed. -/
inductive StatusChange (inv : Invocation Addr self) (r r' : SubscriptionRecord Addr) (id : ℕ) :
    Call Addr → Prop where
  | same {call : Call Addr} (eq : r'.status = r.status) : StatusChange inv r r' id call
  | cancelled (auth : inv.auth r.learner = true) (eq : r'.status = .cancelled) :
      StatusChange inv r r' id (.cancel id)
  | paused (auth : inv.auth r.learner = true) (eq : r'.status = .paused) :
      StatusChange inv r r' id (.pause id)
  | lapsed (due : r.nextBillingDate + subscriptionExpiryGraceSecs ≤ inv.timestamp)
      (eq : r'.status = .expired) : StatusChange inv r r' id (.checkExpiry id)

omit [DecidableEq Addr] in
theorem StatusChange.inactive {r r' : SubscriptionRecord Addr} {id : ℕ} {call : Call Addr}
    (h : StatusChange inv r r' id call) (hr : r.status ≠ .active) : r'.status ≠ .active := by
  cases h with
  | same eq =>
    rw [eq]
    exact hr
  | cancelled auth eq | paused auth eq | lapsed due eq =>
    rw [eq]
    nofun

/-- The calls that concern streams alone. -/
def Call.isStreaming : Call Addr → Bool
  | .createStreamingPlan _ _ _ => true
  | .subscribeStreaming _ _ _ => true
  | .withdrawEarned _ _ => true
  | .cancelStreaming _ _ => true
  | _ => false

/-- The subscription that a call tries to renew. -/
def Call.renewing : Call Addr → Option ℕ
  | .renew id => some id
  | _ => none

/-- The subscription whose allowance a call sets. -/
def Call.authorising : Call Addr → Option ℕ
  | .authorizeRenewal id _ => some id
  | _ => none

/-- Why a renewal ends the subscription: it has lapsed, or the allowance or the balance of the
learner is short of the price when it may be renewed. -/
def RenewalFails (inv : Invocation Addr self) (s : State Addr) (id : ℕ)
    (r : SubscriptionRecord Addr) : Prop :=
  r.nextBillingDate + subscriptionExpiryGraceSecs ≤ inv.timestamp ∨
    r.nextBillingDate ≤ inv.timestamp + renewalGraceSecs ∧ ∃ plan available,
      s.plan r.planId = some plan ∧ inv.balance plan.token r.learner = some available ∧
      ((s.renewalAllowance id).getD 0 < plan.pricePerMonth ∨ available < plan.pricePerMonth)

/-- What a successful call changes, streams apart. -/
inductive Effect (inv : Invocation Addr self) (s t : State Addr) : Call Addr → Prop where
  | initialized {admin escrow : Addr} (fresh : s.admin = none)
      (eq : t = { s with
        admin := some admin
        escrow := some escrow
        planCounter := 0
        subCounter := 0
        treasury := some admin
        platformFeeBps := some defaultPlatformFeeBps }) :
      Effect inv s t (.initializeSubscription admin escrow)
  | configured {call : Call Addr} (stored : s.admin ≠ none)
      (fee : ∀ feeBps, t.platformFeeBps = some feeBps →
        s.platformFeeBps = some feeBps ∨ 0 ≤ feeBps)
      (untouched : call.isStreaming = false) (renewing : call.renewing = none)
      (authorising : call.authorising = none)
      (eq : t = { s with
        approvedToken := t.approvedToken
        treasury := t.treasury
        platformFeeBps := t.platformFeeBps }) : Effect inv s t call
  | planned {mentor token : Addr} {price : ℤ} {sessions : ℕ} (positive : 0 < price)
      (approved : s.approvedToken token = true)
      (eq : t = { s with
        plan := Function.update s.plan s.planCounter (some ⟨mentor, price, token, sessions⟩)
        planCounter := s.planCounter + 1 }) :
      Effect inv s t (.createPlan mentor price token sessions)
  | subscribed {learner : Addr} {planId : ℕ} (plan : Plan Addr) (found : s.plan planId = some plan)
      (auth : inv.auth learner = true)
      (eq : t = { s with
        sub := Function.update s.sub s.subCounter (some ⟨learner, plan.mentor, planId,
          inv.timestamp, inv.timestamp + secondsPerMonth, 0, .active⟩)
        subCounter := s.subCounter + 1
        transfers := t.transfers
        mentorRevenue := t.mentorRevenue }) : Effect inv s t (.subscribe learner planId)
  | renewed {id : ℕ} (r : SubscriptionRecord Addr) (plan : Plan Addr) (found : s.sub id = some r)
      (active : r.status = .active) (due : r.nextBillingDate ≤ inv.timestamp + renewalGraceSecs)
      (planned : s.plan r.planId = some plan)
      (funded : plan.pricePerMonth ≤ (s.renewalAllowance id).getD 0)
      (spent : 0 ≤ plan.pricePerMonth →
        (∀ feeBps, s.platformFeeBps = some feeBps → 0 ≤ feeBps) →
        spentBy plan.token r.learner t.transfers =
          spentBy plan.token r.learner s.transfers + plan.pricePerMonth)
      (eq : t = { s with
        sub := Function.update s.sub id (some { r with
          nextBillingDate := r.nextBillingDate + secondsPerMonth, sessionsUsed := 0 })
        renewalAllowance := Function.update s.renewalAllowance id
          (some ((s.renewalAllowance id).getD 0 - plan.pricePerMonth))
        transfers := t.transfers
        mentorRevenue := t.mentorRevenue
        graceRenewalCount := t.graceRenewalCount
        graceRenewalVolume := t.graceRenewalVolume }) : Effect inv s t (.renew id)
  | expired {id : ℕ} (r : SubscriptionRecord Addr) (found : s.sub id = some r)
      (active : r.status = .active) (due : r.nextBillingDate ≤ inv.timestamp + renewalGraceSecs)
      (eq : t = expireRenewal s id r) (fails : RenewalFails inv s id r) :
      Effect inv s t (.renew id)
  | rewritten {call : Call Addr} (id : ℕ) (r r' : SubscriptionRecord Addr)
      (found : s.sub id = some r) (learner : r'.learner = r.learner) (planId : r'.planId = r.planId)
      (next : r'.nextBillingDate = r.nextBillingDate) (status : StatusChange inv r r' id call)
      (untouched : call.isStreaming = false) (renewing : call.renewing = none)
      (authorising : call.authorising = none)
      (eq : t = { s with sub := Function.update s.sub id (some r') }) : Effect inv s t call
  | authorised {id : ℕ} {maxAmount : ℤ} (r : SubscriptionRecord Addr) (found : s.sub id = some r)
      (auth : inv.auth r.learner = true) (nonneg : 0 ≤ maxAmount)
      (eq : t = { s with
        renewalAllowance := Function.update s.renewalAllowance id (some maxAmount) }) :
      Effect inv s t (.authorizeRenewal id maxAmount)
  | streaming {call : Call Addr} (stream : call.isStreaming = true)
      (renewing : call.renewing = none) (authorising : call.authorising = none)
      (eq : t = { s with
        streamPlanCounter := t.streamPlanCounter
        streamSubCounter := t.streamSubCounter
        streamPlan := t.streamPlan
        streamSub := t.streamSub
        transfers := t.transfers }) : Effect inv s t call

theorem requireAdmin_eq_ok {admin : Addr} {u : Unit} : requireAdmin inv s admin = .ok u ↔
    s.admin = some admin ∧ inv.auth admin = true := by
  simp only [requireAdmin, bind_eq_ok, expect_eq_ok, requireAuth_eq_ok, require_eq_ok]
  constructor
  · intro h
    obtain ⟨stored, hstored, -, hauth, rfl⟩ := h
    exact ⟨hstored, hauth⟩
  · intro h
    exact ⟨admin, h.1, (), h.2, rfl⟩

theorem subscribe_eq_ok {learner : Addr} {planId : ℕ}
    (h : subscribe inv s learner planId = .ok t) :
    ∃ plan, s.plan planId = some plan ∧ inv.auth learner = true ∧ t = { s with
      sub := Function.update s.sub s.subCounter (some ⟨learner, plan.mentor, planId,
        inv.timestamp, inv.timestamp + secondsPerMonth, 0, .active⟩)
      subCounter := s.subCounter + 1
      transfers := t.transfers
      mentorRevenue := t.mentorRevenue } := by
  simp only [subscribe, bind_eq_ok, requireAuth_eq_ok, expect_eq_ok, u64_eq_ok, u32_eq_ok,
    pure_eq_ok] at h
  obtain ⟨-, hauth, plan, hfound, paid, hpaid, next, ⟨-, rfl⟩, count, ⟨-, rfl⟩, rfl⟩ := h
  have heq := (routePayment_eq_ok hpaid).1
  exact ⟨plan, hfound, hauth, by rw [heq]⟩

theorem chargeRenewal_effect {id : ℕ} {r : SubscriptionRecord Addr} {plan : Plan Addr}
    (found : s.sub id = some r) (active : r.status = .active)
    (due : r.nextBillingDate ≤ inv.timestamp + renewalGraceSecs)
    (planned : s.plan r.planId = some plan)
    (funded : plan.pricePerMonth ≤ (s.renewalAllowance id).getD 0)
    (h : chargeRenewal inv s id r plan ((s.renewalAllowance id).getD 0) = .ok t) :
    Effect inv s t (.renew id) := by
  simp only [chargeRenewal, bind_eq_ok, require_eq_ok, i128_eq_ok, u64_eq_ok, pure_eq_ok] at h
  obtain ⟨-, -, allowance, ⟨-, rfl⟩, paid, hpaid, next, ⟨-, rfl⟩, rfl⟩ := h
  obtain ⟨heq, hspent⟩ := routePayment_eq_ok hpaid
  refine .renewed r plan found active due planned funded ?_ ?_
  · intro hprice hfee
    split_ifs at hspent
    · exact hspent hprice hfee
    · exact hspent hprice hfee
  · rw [heq]
    split_ifs
    · rfl
    · rfl

theorem renew_effect {id : ℕ} (h : renew inv s id = .ok t) : Effect inv s t (.renew id) := by
  simp only [renew, bind_eq_ok, expect_eq_ok, require_eq_ok, checkedU64_eq_ok] at h
  obtain ⟨r, hfound, -, hactive, deadline, ⟨-, rfl⟩, h⟩ := h
  split_ifs at h with hlapsed
  · exact .expired r hfound hactive (by omega) (pure_eq_ok.mp h).symm (.inl hlapsed)
  · simp only [bind_eq_ok, expect_eq_ok, require_eq_ok] at h
    obtain ⟨-, hdue, plan, hplan, available, havailable, h⟩ := h
    split_ifs at h with hlacking
    · exact .expired r hfound hactive (by omega) (pure_eq_ok.mp h).symm
        (.inr ⟨by omega, plan, available, hplan, havailable, hlacking⟩)
    · exact chargeRenewal_effect hfound hactive (by omega) hplan (by omega) h

theorem checkExpiry_effect {id : ℕ} (h : checkExpiry inv s id = .ok t) :
    Effect inv s t (.checkExpiry id) := by
  simp only [checkExpiry, bind_eq_ok, expect_eq_ok] at h
  obtain ⟨r, hfound, h⟩ := h
  have hkept : t = s → Effect inv s t (.checkExpiry id) := by
    intro heq
    refine .rewritten id r r hfound rfl rfl rfl (.same rfl) rfl rfl rfl ?_
    rw [heq, Function.update_eq_self_iff.mpr hfound.symm]
  split_ifs at h with hactive
  · simp only [bind_eq_ok, checkedU64_eq_ok] at h
    obtain ⟨deadline, ⟨-, rfl⟩, h⟩ := h
    split_ifs at h with hlapsed
    · exact .rewritten id r { r with status := .expired } hfound rfl rfl rfl (.lapsed hlapsed rfl)
        rfl rfl rfl (pure_eq_ok.mp h).symm
    · exact hkept (pure_eq_ok.mp h).symm
  · exact hkept (pure_eq_ok.mp h).symm

theorem exec_effect {call : Call Addr} (h : exec inv call s = .ok t) : Effect inv s t call := by
  cases call with
  | initializeSubscription admin escrow =>
    simp only [exec, initializeSubscription, bind_eq_ok, require_eq_ok, pure_eq_ok] at h
    obtain ⟨-, hfresh, rfl⟩ := h
    exact .initialized hfresh rfl
  | setApprovedToken admin token approved =>
    simp only [exec, setApprovedToken, bind_eq_ok, requireAdmin_eq_ok, pure_eq_ok] at h
    obtain ⟨-, ⟨hstored, -⟩, rfl⟩ := h
    exact .configured (by simp [hstored]) (fun _ hfee => .inl hfee) rfl rfl rfl rfl
  | setTreasury admin treasury =>
    simp only [exec, setTreasury, bind_eq_ok, requireAdmin_eq_ok, pure_eq_ok] at h
    obtain ⟨-, ⟨hstored, -⟩, rfl⟩ := h
    exact .configured (by simp [hstored]) (fun _ hfee => .inl hfee) rfl rfl rfl rfl
  | setPlatformFeeBps admin feeBps =>
    simp only [exec, setPlatformFeeBps, bind_eq_ok, requireAdmin_eq_ok, require_eq_ok,
      pure_eq_ok] at h
    obtain ⟨-, ⟨hstored, -⟩, -, hrange, rfl⟩ := h
    refine .configured (by simp [hstored]) ?_ rfl rfl rfl rfl
    intro stored hfee
    obtain rfl := Option.some.inj hfee
    exact .inr hrange.1
  | createPlan mentor price token sessions =>
    simp only [exec, createPlan, bind_eq_ok, require_eq_ok, u32_eq_ok, pure_eq_ok] at h
    obtain ⟨-, -, -, hprice, -, -, -, happroved, count, ⟨-, rfl⟩, rfl⟩ := h
    exact .planned hprice happroved rfl
  | subscribe learner planId =>
    obtain ⟨plan, hfound, hauth, heq⟩ := subscribe_eq_ok h
    exact .subscribed plan hfound hauth heq
  | renew id => exact renew_effect h
  | cancel id =>
    simp only [exec, cancel, bind_eq_ok, expect_eq_ok, requireAuth_eq_ok, pure_eq_ok] at h
    obtain ⟨r, hfound, -, hauth, -, -, rfl⟩ := h
    exact .rewritten id r { r with status := .cancelled } hfound rfl rfl rfl (.cancelled hauth rfl)
      rfl rfl rfl rfl
  | pause id =>
    simp only [exec, pause, bind_eq_ok, expect_eq_ok, requireAuth_eq_ok, pure_eq_ok] at h
    obtain ⟨r, hfound, -, hauth, -, -, rfl⟩ := h
    exact .rewritten id r { r with status := .paused } hfound rfl rfl rfl (.paused hauth rfl)
      rfl rfl rfl rfl
  | useSession id =>
    simp only [exec, useSession, bind_eq_ok, expect_eq_ok, pure_eq_ok] at h
    obtain ⟨r, hfound, -, -, deadline, -, -, -, plan, -, -, -, used, -, rfl⟩ := h
    exact .rewritten id r { r with sessionsUsed := used } hfound rfl rfl rfl (.same rfl) rfl
      rfl rfl rfl
  | checkExpiry id => exact checkExpiry_effect h
  | authorizeRenewal id maxAmount =>
    simp only [exec, authorizeRenewal, bind_eq_ok, expect_eq_ok, requireAuth_eq_ok, require_eq_ok,
      pure_eq_ok] at h
    obtain ⟨r, hfound, -, hauth, -, hnonneg, rfl⟩ := h
    exact .authorised r hfound hauth hnonneg rfl
  | createStreamingPlan mentor rate token =>
    simp only [exec, createStreamingPlan, bind_eq_ok, pure_eq_ok] at h
    obtain ⟨-, -, -, -, count, -, rfl⟩ := h
    exact .streaming rfl rfl rfl rfl
  | subscribeStreaming learner planId deposit =>
    simp only [exec, subscribeStreaming, bind_eq_ok, pure_eq_ok] at h
    obtain ⟨-, -, plan, -, -, -, escrow, -, paid, hpaid, count, -, rfl⟩ := h
    have heq := (transfer_moves hpaid).eq
    exact .streaming rfl rfl rfl (by rw [heq])
  | withdrawEarned mentor id =>
    simp only [exec, withdrawEarned, bind_eq_ok] at h
    obtain ⟨-, -, r, -, -, -, plan, -, earned, -, claimable, -, -, -, withdrawn, -, escrow, -,
      hpaid⟩ := h
    have heq := (transfer_moves hpaid).eq
    exact .streaming rfl rfl rfl (by rw [heq])
  | cancelStreaming learner id =>
    simp only [exec, cancelStreaming, bind_eq_ok] at h
    obtain ⟨-, -, r, -, -, -, -, -, plan, -, earned, -, owed, -, refund, -, escrow, -, settled,
      hsettled, hrefunded⟩ := h
    have hsettledEq := (transferPositive_moves hsettled).eq
    have heq := (transferPositive_moves hrefunded).eq
    exact .streaming rfl rfl rfl (by rw [heq, hsettledEq])

/-- A step of the machine is an invocation with its call. -/
theorem step_effect {step : Step Addr self} (h : (machine self).exec step s = .ok t) :
    Effect step.1 s t step.2 := exec_effect h

end Subscription
