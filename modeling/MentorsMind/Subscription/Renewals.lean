import MentorsMind.Lib.Table
import MentorsMind.Subscription.Effects

/-! Memberships: a learner subscribes, and the billing date moves on with every renewal. -/
namespace Subscription
open Outcome Soroban Shared

variable {Addr : Type} [DecidableEq Addr] {home : Addr} {inv : Invocation Addr home}
  {s t : State Addr}

section Invariant

/-- What every reachable state keeps: numbers below the counters, positive prices, a fee that is not
negative, and nothing stored before the contract is initialised. -/
structure Sound (s : State Addr) : Prop where
  fresh : s.admin = none →
    (∀ i, s.plan i = none) ∧ (∀ i, s.sub i = none) ∧ ∀ token, s.approvedToken token = false
  fee : ∀ feeBps, s.platformFeeBps = some feeBps → 0 ≤ feeBps
  plans : ∀ i plan, s.plan i = some plan → i < s.planCounter ∧ 0 < plan.pricePerMonth
  subs : ∀ i r, s.sub i = some r → i < s.subCounter

omit [DecidableEq Addr] in
/-- A state that has stored a subscription is initialised. -/
theorem Sound.admin_ne {id : ℕ} {r : SubscriptionRecord Addr} (h : Sound s)
    (hr : s.sub id = some r) : s.admin ≠ none := by
  intro hnone
  rw [(h.fresh hnone).2.1 id] at hr
  cases hr

theorem Sound.step {call : Call Addr} (h : Sound s) (heffect : Effect inv s t call) : Sound t := by
  cases heffect with
  | initialized fresh eq =>
    obtain ⟨hplan, hsub, happroved⟩ := h.fresh fresh
    rw [eq]
    constructor
    · nofun
    · intro feeBps hfee
      obtain rfl := Option.some.inj hfee
      decide
    · intro i plan hi
      exact absurd ((hplan i).symm.trans hi) nofun
    · intro i r hi
      exact absurd ((hsub i).symm.trans hi) nofun
  | configured stored fee untouched renewing authorising eq =>
    constructor
    · rw [eq]
      intro hnone
      exact absurd hnone stored
    · intro feeBps hfee
      rcases fee feeBps hfee with hbefore | hnonneg
      · exact h.fee feeBps hbefore
      · exact hnonneg
    · rw [eq]
      exact h.plans
    · rw [eq]
      exact h.subs
  | @planned mentor token price sessions positive approved eq =>
    rw [eq]
    constructor
    · intro hnone
      exact absurd ((h.fresh hnone).2.2 token) (by simp [approved])
    · exact h.fee
    · apply Table.forall_update
      · intro i plan hi
        obtain ⟨hlt, hprice⟩ := h.plans i plan hi
        exact ⟨hlt.trans (Nat.lt_succ_self _), hprice⟩
      · exact ⟨Nat.lt_succ_self _, positive⟩
    · exact h.subs
  | subscribed plan found auth eq =>
    rw [eq]
    constructor
    · intro hnone
      rw [(h.fresh hnone).1] at found
      cases found
    · exact h.fee
    · exact h.plans
    · apply Table.forall_update
      · intro i r hi
        exact (h.subs i r hi).trans (Nat.lt_succ_self _)
      · exact Nat.lt_succ_self _
  | renewed r plan found active due planned funded spent eq =>
    rw [eq]
    exact ⟨fun hnone => absurd hnone (h.admin_ne found), h.fee, h.plans,
      Table.forall_update h.subs (h.subs _ r found)⟩
  | expired r found active due eq =>
    rw [eq]
    exact ⟨fun hnone => absurd hnone (h.admin_ne found), h.fee, h.plans,
      Table.forall_update h.subs (h.subs _ r found)⟩
  | rewritten id r r' found learner planId next status untouched renewing authorising eq =>
    rw [eq]
    exact ⟨fun hnone => absurd hnone (h.admin_ne found), h.fee, h.plans,
      Table.forall_update h.subs (h.subs _ r found)⟩
  | authorised r found auth nonneg eq =>
    rw [eq]
    exact ⟨h.fresh, h.fee, h.plans, h.subs⟩
  | streaming stream renewing authorising eq =>
    rw [eq]
    exact ⟨h.fresh, h.fee, h.plans, h.subs⟩

theorem sound_reached (steps : List (Step Addr home)) : Sound (reached steps) := by
  apply Machine.run_invariant (M := machine home) (P := Sound)
  · constructor
    · intro _
      exact ⟨fun _ => rfl, fun _ => rfl, fun _ => rfl⟩
    · nofun
    · nofun
    · nofun
  · intro step s t hs hx
    obtain ⟨inv, call⟩ := step
    exact hs.step (exec_effect hx)

end Invariant

/-- The call renews the subscription `id`, which stays active. -/
abbrev Renewed (id : ℕ) (step : Step Addr home) (t : State Addr) : Prop :=
  step.2.renewing = some id ∧ ∃ r ∈ t.sub id, r.status = .active

def renewalCount (id : ℕ) (_ : State Addr) (step : Step Addr home) (t : State Addr) : ℤ :=
  if Renewed id step t then 1 else 0

/-- A run from deployment in which a learner subscribes. -/
structure Membership (Addr : Type) [DecidableEq Addr] (home : Addr) where
  early : List (Step Addr home)
  inv : Invocation Addr home
  learner : Addr
  planId : ℕ
  plan : Plan Addr
  planned : (reached early).plan planId = some plan
  opened : State Addr
  accepted : exec inv (.subscribe learner planId) (reached early) = .ok opened
  late : List (Step Addr home)

namespace Membership

variable (c : Membership Addr home)

def id : ℕ := (reached c.early).subCounter

def after (late : List (Step Addr home)) : State Addr := (machine home).run c.opened late

/-- The state at the end. -/
def state : State Addr := c.after c.late

def renewals (late : List (Step Addr home)) : ℤ :=
  (machine home).tally (renewalCount c.id) c.opened late

variable {c}

/-- What a run after the subscription keeps, where `t` is its last state. -/
structure Books (c : Membership Addr home) (late : List (Step Addr home)) (t : State Addr) :
    Prop where
  sound : Sound t
  planned : t.plan c.planId = some c.plan
  kept : ∃ r, t.sub c.id = some r ∧ r.learner = c.learner ∧ r.planId = c.planId ∧
    (r.nextBillingDate : ℤ) = c.inv.timestamp + secondsPerMonth * (c.renewals late + 1)

theorem Books.start : Books c [] c.opened := by
  obtain ⟨plan, hfound, -, heq⟩ := subscribe_eq_ok c.accepted
  constructor
  · exact (sound_reached c.early).step (exec_effect c.accepted)
  · rw [heq]
    exact c.planned
  · refine ⟨_, by rw [heq]; exact Function.update_self .., rfl, rfl, ?_⟩
    simp [renewals]

/-- A call that does not renew the subscription changes neither its plan nor its billing date. -/
theorem Books.other {late : List (Step Addr home)} {step : Step Addr home} {t : State Addr}
    {r r' : SubscriptionRecord Addr} (hx : (machine home).exec step (c.after late) = .ok t)
    (h : Books c late (c.after late)) (hplan : t.plan c.planId = (c.after late).plan c.planId)
    (hr : (c.after late).sub c.id = some r) (hr' : t.sub c.id = some r')
    (hlearner : r'.learner = r.learner) (hplanId : r'.planId = r.planId)
    (hnext : r'.nextBillingDate = r.nextBillingDate) (hrenewed : ¬ Renewed c.id step t) :
    Books c (late ++ [step]) t := by
  obtain ⟨hsound, hplanned, r₀, hr₀, hlearner₀, hplanId₀, hnext₀⟩ := h
  obtain rfl := Option.some.inj (hr.symm.trans hr₀)
  constructor
  · exact hsound.step (step_effect hx)
  · rw [hplan]
    exact hplanned
  · refine ⟨r', hr', hlearner.trans hlearner₀, hplanId.trans hplanId₀, ?_⟩
    have hcount : c.renewals (late ++ [step]) = c.renewals late := by
      rw [renewals, Machine.tally_snoc_ok hx, renewalCount, if_neg hrenewed, add_zero, renewals]
    rw [hcount, hnext]
    exact hnext₀

theorem Books.step {late : List (Step Addr home)} {step : Step Addr home} {t : State Addr}
    (hx : (machine home).exec step (c.after late) = .ok t) (h : Books c late (c.after late)) :
    Books c (late ++ [step]) t := by
  obtain ⟨inv, call⟩ := step
  have hkept := h
  obtain ⟨hsound, hplanned, r₀, hr₀, hlearner, hplanId, hnext⟩ := hkept
  have hunrenewed : call.renewing = none → ¬ Renewed c.id (inv, call) t := by
    intro hcall hrenewed
    exact absurd (hcall.symm.trans hrenewed.1) nofun
  -- a call that rewrites another subscription
  have hothers : ∀ {id r'}, id ≠ c.id → call.renewing = some id ∨ call.renewing = none →
      t.plan = (c.after late).plan → t.sub = Function.update (c.after late).sub id (some r') →
      Books c (late ++ [(inv, call)]) t := by
    intro id r' hid hcall hplans hsubs
    apply h.other hx _ hr₀ _ rfl rfl rfl
    · intro hrenewed
      rcases hcall with hcall | hcall
      · exact hid (Option.some.inj (hcall.symm.trans hrenewed.1))
      · exact hunrenewed hcall hrenewed
    · rw [hplans]
    · rw [hsubs, Function.update_of_ne (Ne.symm hid)]
      exact hr₀
  have hkept : call.renewing = none → t.plan = (c.after late).plan →
      t.sub = (c.after late).sub → Books c (late ++ [(inv, call)]) t := by
    intro hcall hplans hsubs
    apply h.other hx _ hr₀ _ rfl rfl rfl
    · exact hunrenewed hcall
    · rw [hplans]
    · rw [hsubs]
      exact hr₀
  have heffect : Effect inv (c.after late) t call := exec_effect hx
  cases heffect with
  | initialized fresh eq => exact absurd fresh (hsound.admin_ne hr₀)
  | configured stored fee untouched renewing authorising eq =>
    exact hkept renewing (by rw [eq]) (by rw [eq])
  | planned positive approved eq =>
    have hne : c.planId ≠ (c.after late).planCounter :=
      (hsound.plans c.planId c.plan hplanned).1.ne
    apply h.other hx _ hr₀ _ rfl rfl rfl
    · exact hunrenewed rfl
    · rw [eq]
      exact Function.update_of_ne hne ..
    · rw [eq]
      exact hr₀
  | subscribed plan found auth eq =>
    exact hothers (hsound.subs c.id r₀ hr₀).ne' (.inr rfl) (by rw [eq]) (by rw [eq])
  | @renewed id r plan found active due planned funded spent eq =>
    by_cases hid : id = c.id
    · subst hid
      obtain rfl := Option.some.inj (found.symm.trans hr₀)
      have hsub : t.sub c.id = some { r with
          nextBillingDate := r.nextBillingDate + secondsPerMonth, sessionsUsed := 0 } := by
        rw [eq]
        exact Function.update_self ..
      have hcount : c.renewals (late ++ [(inv, .renew c.id)]) = c.renewals late + 1 := by
        rw [renewals, Machine.tally_snoc_ok hx, renewalCount,
          if_pos ⟨rfl, _, hsub, active⟩, renewals]
      constructor
      · exact hsound.step (step_effect hx)
      · rw [eq]
        exact hplanned
      · refine ⟨_, hsub, hlearner, hplanId, ?_⟩
        rw [hcount]
        push_cast
        rw [hnext]
        ring
    · exact hothers hid (.inl rfl) (by rw [eq]) (by rw [eq])
  | @expired id r found active due eq =>
    by_cases hid : id = c.id
    · subst hid
      obtain rfl := Option.some.inj (found.symm.trans hr₀)
      have hsub : t.sub c.id = some { r with status := .expired } := by
        rw [eq]
        exact Function.update_self ..
      apply h.other hx _ hr₀ hsub rfl rfl rfl
      · intro hrenewed
        obtain ⟨r', hr', hactive⟩ := hrenewed.2
        obtain rfl := Option.some.inj (hsub.symm.trans hr')
        cases hactive
      · rw [eq]
        rfl
    · exact hothers hid (.inl rfl) (by rw [eq]; rfl) (by rw [eq]; rfl)
  | rewritten id r r' found learner planId next status untouched renewing authorising eq =>
    by_cases hid : id = c.id
    · subst hid
      apply h.other hx _ found _ learner planId next (hunrenewed renewing)
      · rw [eq]
      · rw [eq]
        exact Function.update_self ..
    · exact hothers hid (.inr renewing) (by rw [eq]) (by rw [eq])
  | authorised r found auth nonneg eq => exact hkept rfl (by rw [eq]) (by rw [eq])
  | streaming stream renewing authorising eq => exact hkept renewing (by rw [eq]) (by rw [eq])

theorem books (c : Membership Addr home) (late : List (Step Addr home)) :
    Books c late (c.after late) := by
  apply Machine.run_history (M := machine home) (P := fun late t => Books c late t)
  · exact Books.start
  · intro late step t hlate hx
    exact hlate.step hx
  · intro late step e hlate herror
    obtain ⟨hsound, hplanned, hkept⟩ := hlate
    constructor
    · exact hsound
    · exact hplanned
    · rw [renewals, Machine.tally_snoc_error herror]
      exact hkept

end Membership

end Subscription
