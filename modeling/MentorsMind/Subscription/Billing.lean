import MentorsMind.Subscription.Renewals

/-! Billing: what renewals pull from the allowance of the learner, and who ends a subscription. -/
namespace Subscription
open Outcome Soroban Shared

variable {Addr : Type} [DecidableEq Addr] {home : Addr} {s t : State Addr}

/-- The calls by which a learner ends or suspends the subscription. -/
def Call.leaving : Call Addr → Option ℕ
  | .cancel id => some id
  | .pause id => some id
  | _ => none

/-- The call finds the subscription `id` lapsed or without funds. -/
abbrev Lapsed (id : ℕ) (step : Step Addr home) (t : State Addr) : Prop :=
  step.2.renewing = some id ∧ ∃ r ∈ t.sub id, r.status = .expired

/-- What a renewal of the subscription `id` takes from `payer`. -/
def pull (id : ℕ) (token payer : Addr) (s : State Addr) (step : Step Addr home)
    (t : State Addr) : ℤ :=
  if step.2.renewing = some id then
    spentBy token payer t.transfers - spentBy token payer s.transfers
  else 0

namespace Membership

variable (c : Membership Addr home)

/-- The last time in the run that the learner sets the allowance. -/
structure Grant where
  before : List (Step Addr home)
  inv : Invocation Addr home
  maxAmount : ℤ
  granted : State Addr
  later : List (Step Addr home)
  split : c.late = before ++ (inv, .authorizeRenewal c.id maxAmount) :: later
  accepted : exec inv (.authorizeRenewal c.id maxAmount) (c.after before) = .ok granted
  last : ∀ pre step t, (machine home).Executes granted later pre step t →
    step.2.authorising ≠ some c.id

variable {c}

/-- What the renewals after the grant have pulled from the learner. -/
def Grant.pulled (g : Grant c) (later : List (Step Addr home)) : ℤ :=
  (machine home).tally (pull c.id c.plan.token c.learner) g.granted later

/-- A renewal after the grant has found the subscription lapsed or without funds. -/
def Grant.Ended (g : Grant c) (later : List (Step Addr home)) : Prop :=
  ∃ pre step t, (machine home).Executes g.granted later pre step t ∧ Lapsed c.id step t

section Allowance

variable {g : Grant c} {later : List (Step Addr home)}

/-- The states after the grant are states of the membership. -/
theorem Grant.run_eq (g : Grant c) (later : List (Step Addr home)) :
    (machine home).run g.granted later =
      c.after (g.before ++ (g.inv, .authorizeRenewal c.id g.maxAmount) :: later) := by
  have hgranted : (machine home).apply (c.after g.before)
      (g.inv, .authorizeRenewal c.id g.maxAmount) = g.granted := Machine.apply_ok g.accepted
  rw [after, Machine.run_append, Machine.run_cons, ← hgranted, after]

theorem Grant.not_ended_nil : ¬ g.Ended [] := by
  intro hended
  obtain ⟨pre, step, t, hx, -⟩ := hended
  exact Machine.not_executes_nil hx

theorem Grant.ended_snoc {step : Step Addr home}
    (hx : (machine home).exec step ((machine home).run g.granted later) =
    .ok t) : g.Ended (later ++ [step]) ↔ g.Ended later ∨ Lapsed c.id step t := by
  constructor
  · intro hended
    obtain ⟨pre, step', t', hx', hlapsed⟩ := hended
    rcases Machine.executes_append_singleton.mp hx' with hbefore | ⟨rfl, rfl, hexec⟩
    · exact .inl ⟨pre, step', t', hbefore, hlapsed⟩
    · obtain rfl := Except.ok.inj (hexec.symm.trans hx)
      exact .inr hlapsed
  · intro hended
    rcases hended with ⟨pre, step', t', hx', hlapsed⟩ | hlapsed
    · exact ⟨pre, step', t', hx'.append [step], hlapsed⟩
    · exact ⟨later, step, t, Machine.executes_snoc hx, hlapsed⟩

/-- A call on the subscription adds what it takes from the learner. -/
theorem Grant.pulled_snoc {step : Step Addr home}
    (hx : (machine home).exec step ((machine home).run g.granted later) = .ok t)
    (hrenewing : step.2.renewing = some c.id) : g.pulled (later ++ [step]) =
      g.pulled later + (spentBy c.plan.token c.learner t.transfers -
        spentBy c.plan.token c.learner ((machine home).run g.granted later).transfers) := by
  rw [pulled, Machine.tally_snoc_ok hx, pull, if_pos hrenewing, pulled]

/-- What a run after the grant keeps, where `t` is its last state. -/
structure Grant.Books (g : Grant c) (later : List (Step Addr home)) (t : State Addr) : Prop where
  pulled_le : g.pulled later ≤ g.maxAmount
  kept : ¬ g.Ended later → t.renewalAllowance c.id = some (g.maxAmount - g.pulled later)
  cleared : g.Ended later →
    t.renewalAllowance c.id = none ∧ ∀ r, t.sub c.id = some r → r.status ≠ .active

theorem Grant.Books.start : g.Books [] g.granted := by
  have haccepted := g.accepted
  simp only [exec, authorizeRenewal, bind_eq_ok, expect_eq_ok, require_eq_ok, pure_eq_ok]
    at haccepted
  obtain ⟨r, -, -, -, -, hnonneg, heq⟩ := haccepted
  constructor
  · exact hnonneg
  · intro _
    rw [← heq, pulled, Machine.tally_nil, sub_zero]
    exact Function.update_self ..
  · intro hended
    exact absurd hended Grant.not_ended_nil

/-- A call that does not renew the subscription leaves its allowance and does not reactivate it. -/
theorem Grant.Books.other {step : Step Addr home}
    (hx : (machine home).exec step ((machine home).run g.granted later) = .ok t)
    (h : g.Books later ((machine home).run g.granted later))
    (hrenewing : step.2.renewing ≠ some c.id)
    (hallowance : t.renewalAllowance c.id =
      ((machine home).run g.granted later).renewalAllowance c.id)
    (hstays : (∀ r, ((machine home).run g.granted later).sub c.id = some r → r.status ≠ .active) →
      ∀ r, t.sub c.id = some r → r.status ≠ .active) : g.Books (later ++ [step]) t := by
  have hpulled : g.pulled (later ++ [step]) = g.pulled later := by
    rw [pulled, Machine.tally_snoc_ok hx, pull, if_neg hrenewing, add_zero, pulled]
  have hended : g.Ended (later ++ [step]) ↔ g.Ended later := by
    rw [Grant.ended_snoc hx, or_iff_left]
    intro hlapsed
    exact hrenewing hlapsed.1
  constructor
  · rw [hpulled]
    exact h.pulled_le
  · rw [hended, hpulled, hallowance]
    exact h.kept
  · rw [hended, hallowance]
    intro hbefore
    obtain ⟨hnone, hinactive⟩ := h.cleared hbefore
    exact ⟨hnone, hstays hinactive⟩

/-- A renewal that is paid takes its price from the allowance. -/
theorem Grant.Books.renewed {inv : Invocation Addr home} {r : SubscriptionRecord Addr}
    (hx : (machine home).exec (inv, .renew c.id) ((machine home).run g.granted later) = .ok t)
    (h : g.Books later ((machine home).run g.granted later))
    (hfound : ((machine home).run g.granted later).sub c.id = some r) (hactive : r.status = .active)
    (hfunded : c.plan.pricePerMonth ≤
      (((machine home).run g.granted later).renewalAllowance c.id).getD 0)
    (hspent : spentBy c.plan.token c.learner t.transfers = spentBy c.plan.token c.learner
      ((machine home).run g.granted later).transfers + c.plan.pricePerMonth)
    (hallowance : t.renewalAllowance c.id =
      some ((((machine home).run g.granted later).renewalAllowance c.id).getD 0 -
        c.plan.pricePerMonth))
    (hstays : ∀ r', t.sub c.id = some r' → r'.status = .active) :
    g.Books (later ++ [(inv, .renew c.id)]) t := by
  have hunended : ¬ g.Ended later := by
    intro hended
    exact (h.cleared hended).2 r hfound hactive
  have hpulled : g.pulled (later ++ [(inv, .renew c.id)]) =
      g.pulled later + c.plan.pricePerMonth := by
    rw [Grant.pulled_snoc hx rfl, hspent]
    ring
  rw [h.kept hunended, Option.getD_some] at hfunded hallowance
  constructor
  · rw [hpulled]
    omega
  · intro _
    rw [hallowance, hpulled, ← sub_sub]
  · intro hended
    rcases (Grant.ended_snoc hx).mp hended with hbefore | ⟨-, r', hr', hexpired⟩
    · exact absurd hbefore hunended
    · exact absurd ((hstays r' hr').symm.trans hexpired) nofun

/-- A renewal that is refused ends the subscription and clears its allowance. -/
theorem Grant.Books.expired {inv : Invocation Addr home} {r' : SubscriptionRecord Addr}
    (hx : (machine home).exec (inv, .renew c.id) ((machine home).run g.granted later) = .ok t)
    (h : g.Books later ((machine home).run g.granted later))
    (htransfers : t.transfers = ((machine home).run g.granted later).transfers)
    (hallowance : t.renewalAllowance c.id = none) (hsub : t.sub c.id = some r')
    (hexpired : r'.status = .expired) : g.Books (later ++ [(inv, .renew c.id)]) t := by
  have hended : g.Ended (later ++ [(inv, .renew c.id)]) :=
    (Grant.ended_snoc hx).mpr (.inr ⟨rfl, r', hsub, hexpired⟩)
  constructor
  · rw [Grant.pulled_snoc hx rfl, htransfers, sub_self, add_zero]
    exact h.pulled_le
  · intro hunended
    exact absurd hended hunended
  · intro _
    constructor
    · exact hallowance
    · intro r hr hactive
      obtain rfl := Option.some.inj (hsub.symm.trans hr)
      exact absurd (hactive.symm.trans hexpired) nofun

theorem Grant.Books.step {step : Step Addr home}
    (hx : (machine home).exec step ((machine home).run g.granted later) = .ok t)
    (hlast : step.2.authorising ≠ some c.id)
    (h : g.Books later ((machine home).run g.granted later)) : g.Books (later ++ [step]) t := by
  obtain ⟨inv, call⟩ := step
  obtain ⟨hsound, hplanned, r₀, hr₀, hlearner, hplanId, -⟩ :=
    c.books (g.before ++ (g.inv, .authorizeRenewal c.id g.maxAmount) :: later)
  rw [← g.run_eq] at hsound hplanned hr₀
  set s := (machine home).run g.granted later
  have hkept : call.renewing ≠ some c.id → t.renewalAllowance c.id = s.renewalAllowance c.id →
      t.sub c.id = s.sub c.id → g.Books (later ++ [(inv, call)]) t := by
    intro hrenewing hallowance hsub
    apply h.other hx hrenewing hallowance
    rw [hsub]
    exact fun hinactive => hinactive
  have hnone : call.renewing = none → call.renewing ≠ some c.id := by
    intro hcall
    rw [hcall]
    nofun
  have heffect : Effect inv s t call := exec_effect hx
  cases heffect with
  | initialized fresh eq => exact absurd fresh (hsound.admin_ne hr₀)
  | configured stored fee untouched renewing authorising eq =>
    exact hkept (hnone renewing) (by rw [eq]) (by rw [eq])
  | planned positive approved eq => exact hkept nofun (by rw [eq]) (by rw [eq])
  | subscribed plan found auth eq =>
    exact hkept nofun (by rw [eq]) (by
      rw [eq]
      exact Function.update_of_ne (hsound.subs c.id r₀ hr₀).ne ..)
  | @renewed id r plan found active due planned funded spent eq =>
    by_cases hid : id = c.id
    · subst hid
      obtain rfl := Option.some.inj (found.symm.trans hr₀)
      rw [hplanId, hplanned] at planned
      obtain rfl := Option.some.inj planned
      have hspent := spent (hsound.plans _ _ hplanned).2.le hsound.fee
      rw [hlearner] at hspent
      have hsub : t.sub c.id = some { r with
          nextBillingDate := r.nextBillingDate + secondsPerMonth, sessionsUsed := 0 } := by
        rw [eq]
        exact Function.update_self ..
      apply h.renewed hx found active funded hspent
      · rw [eq]
        exact Function.update_self ..
      · intro r' hr'
        obtain rfl := Option.some.inj (hsub.symm.trans hr')
        exact active
    · apply hkept
      · intro heq
        exact hid (Option.some.inj heq)
      · rw [eq]
        exact Function.update_of_ne (Ne.symm hid) ..
      · rw [eq]
        exact Function.update_of_ne (Ne.symm hid) ..
  | @expired id r found active due eq =>
    by_cases hid : id = c.id
    · subst hid
      have hsub : t.sub c.id = some { r with status := .expired } := by
        rw [eq]
        exact Function.update_self ..
      apply h.expired hx _ _ hsub rfl
      · rw [eq]
        rfl
      · rw [eq]
        exact Function.update_self ..
    · apply hkept
      · intro heq
        exact hid (Option.some.inj heq)
      · rw [eq]
        exact Function.update_of_ne (Ne.symm hid) ..
      · rw [eq]
        exact Function.update_of_ne (Ne.symm hid) ..
  | rewritten id r r' found learner planId next status untouched renewing authorising eq =>
    by_cases hid : id = c.id
    · subst hid
      apply h.other hx (hnone renewing) (by rw [eq])
      intro hinactive r'' hr''
      have hsub : t.sub c.id = some r' := by
        rw [eq]
        exact Function.update_self ..
      obtain rfl := Option.some.inj (hsub.symm.trans hr'')
      exact status.inactive (hinactive r found)
    · exact hkept (hnone renewing) (by rw [eq]) (by
        rw [eq]
        exact Function.update_of_ne (Ne.symm hid) ..)
  | @authorised id maxAmount r found auth nonneg eq =>
    have hid : id ≠ c.id := by
      intro heq
      subst heq
      exact hlast rfl
    exact hkept nofun (by
      rw [eq]
      exact Function.update_of_ne (Ne.symm hid) ..) (by rw [eq])
  | streaming stream renewing authorising eq =>
    exact hkept (hnone renewing) (by rw [eq]) (by rw [eq])

theorem Grant.books (g : Grant c) : g.Books g.later c.state := by
  have hprefix : ∀ later, later <+: g.later →
      g.Books later ((machine home).run g.granted later) := by
    apply Machine.run_history_of_executes (M := machine home) (P := fun later t => g.Books later t)
    · exact Grant.Books.start
    · intro later step t hx hlater
      exact hlater.step hx.exec_eq (g.last later step t hx)
    · intro later step e hlater herror
      have hpulled : g.pulled (later ++ [step]) = g.pulled later :=
        Machine.tally_snoc_error herror
      have hended : g.Ended (later ++ [step]) ↔ g.Ended later := by
        simp only [Ended, Machine.executes_snoc_error herror]
      obtain ⟨hle, hkept, hcleared⟩ := hlater
      constructor
      · rw [hpulled]
        exact hle
      · rw [hpulled, hended]
        exact hkept
      · rw [hended]
        exact hcleared
  have hstate : c.state = (machine home).run g.granted g.later := by
    rw [g.run_eq, ← g.split, state]
  rw [hstate]
  exact hprefix g.later List.prefix_rfl

end Allowance

section Billing

variable (c)

/-- A renewal comes no earlier than its billing date, but for the grace period. -/
def Timely : Prop :=
  ∀ pre step t, (machine home).Executes c.opened c.late pre step t → Renewed c.id step t →
    c.inv.timestamp + secondsPerMonth * (c.renewals pre + 1) ≤
      step.1.timestamp + renewalGraceSecs

/-- A call moves the subscription out of `Active`. -/
structure Leaves (pre : List (Step Addr home)) (step : Step Addr home) (t : State Addr)
    (r : SubscriptionRecord Addr) : Prop where
  executes : (machine home).Executes c.opened c.late pre step t
  found : (c.after pre).sub c.id = some r
  active : r.status = .active
  left : ∀ r', t.sub c.id = some r' → r'.status ≠ .active

/-- The billing of a subscription. -/
structure Billed : Prop where
  timely : c.Timely
  within : ∀ g : Grant c, g.pulled g.later ≤ g.maxAmount
  allowance : ∀ g : Grant c, ¬ g.Ended g.later →
    c.state.renewalAllowance c.id = some (g.maxAmount - g.pulled g.later)
  cleared : ∀ g : Grant c, g.Ended g.later → c.state.renewalAllowance c.id = none
  others : ∀ pre step t r, c.Leaves pre step t r →
    (step.2.leaving = some c.id ∧ step.1.auth c.learner = true) ∨
      (step.2 = .checkExpiry c.id ∧
        r.nextBillingDate + subscriptionExpiryGraceSecs ≤ step.1.timestamp) ∨
      (step.2 = .renew c.id ∧ RenewalFails step.1 (c.after pre) c.id r)

/-- The same without an allowance that is cleared and without a grace period for the calls of
others. -/
structure StrictlyBilled : Prop where
  timely : c.Timely
  within : ∀ g : Grant c, g.pulled g.later ≤ g.maxAmount
  allowance : ∀ g : Grant c,
    (c.state.renewalAllowance c.id).getD 0 = g.maxAmount - g.pulled g.later
  others : ∀ pre step t r, c.Leaves pre step t r → step.1.auth c.learner = false →
    r.nextBillingDate ≤ step.1.timestamp

variable {c}

theorem timely : c.Timely := by
  intro pre step t hx hrenewed
  obtain ⟨inv, call⟩ := step
  obtain ⟨-, -, r₀, hr₀, -, -, hnext⟩ := c.books pre
  have hexec : exec inv call (c.after pre) = .ok t := hx.exec_eq
  have hcall : call.renewing = some c.id := hrenewed.1
  cases exec_effect hexec with
  | initialized | planned | subscribed | authorised => cases hcall
  | configured _ _ _ renewing | rewritten _ _ _ _ _ _ _ _ _ renewing | streaming _ renewing =>
    exact absurd (renewing.symm.trans hcall) nofun
  | @renewed id r plan found active due =>
    obtain rfl := Option.some.inj hcall
    obtain rfl := Option.some.inj (found.symm.trans hr₀)
    rw [← hnext]
    exact_mod_cast due
  | @expired id r found active due =>
    obtain rfl := Option.some.inj hcall
    obtain rfl := Option.some.inj (found.symm.trans hr₀)
    rw [← hnext]
    exact_mod_cast due

theorem Leaves.cases {pre : List (Step Addr home)} {step : Step Addr home}
    {r : SubscriptionRecord Addr} (h : c.Leaves pre step t r) :
    (step.2.leaving = some c.id ∧ step.1.auth c.learner = true) ∨
      (step.2 = .checkExpiry c.id ∧
        r.nextBillingDate + subscriptionExpiryGraceSecs ≤ step.1.timestamp) ∨
      (step.2 = .renew c.id ∧ RenewalFails step.1 (c.after pre) c.id r) := by
  obtain ⟨inv, call⟩ := step
  obtain ⟨hx, hfound, hactive, hleft⟩ := h
  obtain ⟨hsound, -, r₀, hr₀, hlearner, -⟩ := c.books pre
  obtain rfl := Option.some.inj (hfound.symm.trans hr₀)
  have hexec : exec inv call (c.after pre) = .ok t := hx.exec_eq
  have hchanged : t.sub c.id ≠ (c.after pre).sub c.id := by
    intro heq
    exact hleft r (heq.trans hfound) hactive
  -- a call that writes over another subscription
  have hothers : ∀ {id r'}, t.sub = Function.update (c.after pre).sub id (some r') → id = c.id := by
    intro id r' hsubs
    by_contra hid
    apply hchanged
    rw [hsubs, Function.update_of_ne (Ne.symm hid)]
  cases exec_effect hexec with
  | initialized fresh eq => exact absurd fresh (hsound.admin_ne hfound)
  | configured _ _ _ _ _ eq | planned _ _ eq | authorised _ _ _ _ eq | streaming _ _ _ eq =>
    exact absurd (by rw [eq]) hchanged
  | subscribed plan found auth eq =>
    exact absurd (hothers (by rw [eq])) (hsound.subs c.id r hfound).ne'
  | @renewed id r' plan found active due planned funded spent eq =>
    obtain rfl := hothers (by rw [eq])
    obtain rfl := Option.some.inj (found.symm.trans hfound)
    have hsub : t.sub c.id = some { r' with
        nextBillingDate := r'.nextBillingDate + secondsPerMonth, sessionsUsed := 0 } := by
      rw [eq]
      exact Function.update_self ..
    have hinactive := hleft _ hsub
    exact absurd active hinactive
  | @expired id r' found active due eq fails =>
    obtain rfl := hothers (by rw [eq]; rfl)
    obtain rfl := Option.some.inj (found.symm.trans hfound)
    exact .inr (.inr ⟨rfl, fails⟩)
  | rewritten id r' r'' found learner planId next status untouched renewing authorising eq =>
    obtain rfl := hothers (by rw [eq])
    obtain rfl := Option.some.inj (found.symm.trans hfound)
    have hsub : t.sub c.id = some r'' := by
      rw [eq]
      exact Function.update_self ..
    cases status with
    | same same => exact absurd (same.trans hactive) (hleft _ hsub)
    | cancelled auth =>
      rw [hlearner] at auth
      exact .inl ⟨rfl, auth⟩
    | paused auth =>
      rw [hlearner] at auth
      exact .inl ⟨rfl, auth⟩
    | lapsed due => exact .inr (.inl ⟨rfl, due⟩)

theorem billed (c : Membership Addr home) : c.Billed := by
  constructor
  · exact timely
  · intro g
    exact g.books.pulled_le
  · intro g
    exact g.books.kept
  · intro g hended
    exact (g.books.cleared hended).1
  · intro pre step t r hleaves
    exact hleaves.cases

end Billing

end Membership

section LateFunds

/-- An invocation at time `now` that the accounts in `signers` signed; the contract is address 0. -/
def signedBy (now : ℕ) (signers : List ℕ) : Invocation ℕ 0 where
  timestamp := now
  sequence := 0
  auth a := a != 0 && signers.contains a
  auth_home := rfl
  accepts _ := true
  balance _ _ := some 1000

def memberPrelude : List (Step ℕ 0) :=
  [(signedBy 100 [1], .initializeSubscription 1 2),
    (signedBy 100 [1], .setApprovedToken 1 9 true),
    (signedBy 100 [4], .createPlan 4 200 9 5)]

def joining : Step ℕ 0 := (signedBy 100 [5], .subscribe 5 0)

def smallAllowance : Step ℕ 0 := (signedBy 100 [5], .authorizeRenewal 0 100)

/-- Account 6 tries to renew a minute before the billing date. -/
def earlyRenewal : Step ℕ 0 := (signedBy (40 + secondsPerMonth) [6], .renew 0)

/-- Account 5 subscribes for 200 a month and allows 100. -/
def meagreMembership : Membership ℕ 0 where
  early := memberPrelude
  inv := signedBy 100 [5]
  learner := 5
  planId := 0
  plan := ⟨4, 200, 9, 5⟩
  planned := rfl
  opened := reached (memberPrelude ++ [joining])
  accepted := by
    have hx : (machine 0).Executes deployed (memberPrelude ++ [joining]) memberPrelude joining
        (reached (memberPrelude ++ [joining])) := by
      apply Machine.executes_of_run_ne
      intro heq
      exact absurd (congrArg (fun u : State ℕ => u.subCounter) heq) (by decide)
    exact hx.exec_eq
  late := [smallAllowance, earlyRenewal]

/-- The allowance of 100 is the last one. -/
def meagreGrant : meagreMembership.Grant where
  before := []
  inv := signedBy 100 [5]
  maxAmount := 100
  granted := meagreMembership.after [smallAllowance]
  later := [earlyRenewal]
  split := rfl
  accepted := by
    have hx : (machine 0).Executes meagreMembership.opened ([] ++ [smallAllowance]) []
        smallAllowance (meagreMembership.after [smallAllowance]) := by
      apply Machine.executes_of_run_ne
      intro heq
      exact absurd (congrArg (fun u : State ℕ => u.renewalAllowance 0) heq) (by decide)
    exact hx.exec_eq
  last := by
    intro pre step t hx
    rw [List.mem_singleton.mp hx.mem]
    nofun

/-- The attempt ends the subscription and clears its allowance, of which nothing was pulled. -/
theorem meagreMembership_ends : ¬ ∀ c : Membership ℕ 0, c.StrictlyBilled := by
  intro h
  exact absurd ((h meagreMembership).allowance meagreGrant) (by decide)

end LateFunds

end Subscription
