import MentorsMind.Treasury.Effects

/-! The admin key and the list of authorised callers, which `initialize` seeds together. -/
namespace Treasury
open Outcome Soroban Shared

variable {Addr : Type} [DecidableEq Addr] {self : Addr} {inv : Invocation Addr self}
  {s t : State Addr} {balance : Addr → Addr → ℕ} {steps : List (Step Addr self)}

/-- The address that becomes the admin. -/
def Call.newAdmin : Call Addr → Option Addr
  | .acceptAdminChange newAdmin => some newAdmin
  | .revokeAdminEmergency newAdmin => some newAdmin
  | _ => none

/-- `add_authorized_caller` has put the address on the list. -/
def Registered (balance : Addr → Addr → ℕ) (steps : List (Step Addr self)) (a : Addr) : Prop :=
  ∃ pre inv admin t, (machine self).Executes (deployed balance) steps pre
    (inv, .addAuthorizedCaller admin a) t

/-- The address has been the admin and no longer is. -/
def FormerAdmin (balance : Addr → Addr → ℕ) (steps : List (Step Addr self)) (a : Addr) : Prop :=
  (∃ pre, pre <+: steps ∧ (reached balance pre).admin = some a) ∧
    (reached balance steps).admin ≠ some a

/-- Authority follows the admin key, when no admin change is pending. -/
structure AuthorityFollowsAdmin {home : Addr} (balance : Addr → Addr → ℕ)
    (steps : List (Step Addr home)) : Prop where
  current : (reached balance steps).pendingAdminTransfer = none → ∀ admin,
    (reached balance steps).admin = some admin →
    validateCallerIsAuthorized admin (reached balance steps).authorizedCallers = true
  former : (reached balance steps).pendingAdminTransfer = none → ∀ a,
    FormerAdmin balance steps a → ¬ Registered balance steps a →
    validateCallerIsAuthorized a (reached balance steps).authorizedCallers = false ∧
      ∀ inv : Invocation Addr home, requireAuthorizedCaller inv (reached balance steps) a ≠ .ok ()

/-- What a call does to the admin key and the list. -/
inductive Succession (s t : State Addr) : Call Addr → Prop where
  | kept {call : Call Addr} (unnamed : call.newAdmin = none) (admin : t.admin = s.admin)
      (callers : t.authorizedCallers = s.authorizedCallers) : Succession s t call
  | seeded {admin stakingContract timelock : Addr} {pauseGuardian : Option Addr}
      (fresh : s.admin = none) (first : t.admin = some admin)
      (listed : admin ∈ t.authorizedCallers) :
      Succession s t (.initializeTreasury admin stakingContract timelock pauseGuardian)
  | handedOver {call : Call Addr} (newAdmin : Addr) (named : call.newAdmin = some newAdmin)
      (admin : t.admin = some newAdmin) (callers : t.authorizedCallers = s.authorizedCallers)
      (settled : t.pendingAdminTransfer = none) : Succession s t call
  | registered {admin newCaller : Addr} (same : t.admin = s.admin)
      (callers : t.authorizedCallers = s.authorizedCallers ++ [newCaller]) :
      Succession s t (.addAuthorizedCaller admin newCaller)

theorem Effect.succession {call : Call Addr} (h : Effect inv s t call) : Succession s t call := by
  cases h with
  | initialized fresh eq =>
    rw [eq]
    exact .seeded fresh rfl (by simp)
  | adminProposed _ _ _ eq => rw [eq]; exact .kept rfl rfl rfl
  | adminAccepted _ _ _ _ _ eq => rw [eq]; exact .handedOver _ rfl rfl rfl rfl
  | adminCancelled _ _ eq => rw [eq]; exact .kept rfl rfl rfl
  | adminRevoked _ _ _ eq => rw [eq]; exact .handedOver _ rfl rfl rfl rfl
  | callerAdded _ _ _ eq => rw [eq]; exact .registered rfl rfl
  | configured setting eq =>
    rw [eq]
    refine .kept ?_ rfl rfl
    cases call <;> first | rfl | cases setting
  | allocated _ _ _ _ _ _ eq => rw [eq]; exact .kept rfl rfl rfl
  | queued _ _ _ _ _ eq => rw [eq]; exact .kept rfl rfl rfl
  | batched _ _ _ _ _ eq => rw [eq]; exact .kept rfl rfl rfl
  | approved _ _ _ _ _ _ eq => rw [eq]; exact .kept rfl rfl rfl
  | released _ _ _ _ _ _ eq => rw [eq]; exact .kept rfl rfl rfl
  | distributed _ _ _ _ eq => rw [eq]; exact .kept rfl rfl rfl

theorem Registered.append {a : Addr} (h : Registered balance steps a)
    (more : List (Step Addr self)) : Registered balance (steps ++ more) a := by
  obtain ⟨pre, inv, admin, t, hx⟩ := h
  exact ⟨pre, inv, admin, t, hx.append more⟩

/-- Only `add_authorized_caller` registers. -/
theorem registered_snoc {step : Step Addr self} {a newAdmin : Addr}
    (h : Registered balance (steps ++ [step]) a) (hnamed : step.2.newAdmin = some newAdmin) :
    Registered balance steps a := by
  obtain ⟨pre, inv, admin, t, hx⟩ := h
  rcases Machine.executes_append_singleton.mp hx with hbefore | ⟨-, rfl, -⟩
  · exact ⟨pre, inv, admin, t, hbefore⟩
  · cases hnamed

/-- The new admin is on the list already, and the old one, if another, was registered. -/
def Orderly (balance : Addr → Addr → ℕ) (pre : List (Step Addr self)) (newAdmin : Addr) : Prop :=
  newAdmin ∈ (reached balance pre).authorizedCallers ∧ ∀ admin,
    (reached balance pre).admin = some admin → admin = newAdmin ∨ Registered balance pre admin

/-- The admin is on the list, and every earlier one was registered. -/
structure Succeeded {home : Addr} (balance : Addr → Addr → ℕ) (steps : List (Step Addr home))
    (s : State Addr) : Prop where
  listed : ∀ admin, s.admin = some admin → admin ∈ s.authorizedCallers
  registered : ∀ pre a, pre <+: steps → (reached balance pre).admin = some a →
    s.admin = some a ∨ Registered balance steps a

/-- The earlier admins, when those of the last state are accounted for. -/
theorem Succeeded.registered_snoc (h : Succeeded balance steps s) {step : Step Addr self}
    (hreached : reached balance (steps ++ [step]) = t)
    (hlast : ∀ a, s.admin = some a → t.admin = some a ∨ Registered balance (steps ++ [step]) a) :
    ∀ pre a, pre <+: steps ++ [step] → (reached balance pre).admin = some a →
      t.admin = some a ∨ Registered balance (steps ++ [step]) a := by
  intro pre a hpre hadmin
  rcases List.prefix_concat_iff.mp hpre with rfl | hbefore
  · rw [hreached] at hadmin
    exact .inl hadmin
  · rcases h.registered pre a hbefore hadmin with hstill | hdone
    · exact hlast a hstill
    · exact .inr (hdone.append [step])

theorem succeeded_of_orderly (horderly : ∀ pre inv call t newAdmin,
      (machine self).Executes (deployed balance) steps pre (inv, call) t →
      call.newAdmin = some newAdmin → Orderly balance pre newAdmin) :
    ∀ pre, pre <+: steps → Succeeded balance pre (reached balance pre) := by
  apply Machine.run_history_of_executes (M := machine self)
    (P := fun pre u => Succeeded balance pre u)
  · constructor
    · intro admin hadmin
      cases hadmin
    · intro pre a hpre hadmin
      obtain rfl := List.prefix_nil.mp hpre
      exact .inl hadmin
  · intro pre step u hx hpre
    have hsnoc := hpre.registered_snoc (t := u) hx.run_eq
    obtain ⟨inv, call⟩ := step
    have hexec : exec inv call (reached balance pre) = .ok u := hx.exec_eq
    cases (exec_effect hexec).succession with
    | kept unnamed admin callers =>
      constructor
      · rw [admin, callers]
        exact hpre.listed
      · apply hsnoc
        intro a ha
        rw [admin]
        exact .inl ha
    | seeded fresh first listed =>
      constructor
      · intro admin hadmin
        rw [first] at hadmin
        obtain rfl := Option.some.inj hadmin
        exact listed
      · apply hsnoc
        intro a ha
        have hnone : (reached balance pre).admin = none := fresh
        rw [hnone] at ha
        cases ha
    | handedOver newAdmin named admin callers settled =>
      obtain ⟨hlisted, hold⟩ := horderly pre inv call u newAdmin hx named
      constructor
      · intro a ha
        rw [admin] at ha
        obtain rfl := Option.some.inj ha
        rw [callers]
        exact hlisted
      · apply hsnoc
        intro a ha
        rcases hold a ha with rfl | hregistered
        · exact .inl admin
        · exact .inr (hregistered.append _)
    | registered same callers =>
      constructor
      · intro a ha
        rw [same] at ha
        rw [callers]
        exact List.mem_append_left _ (hpre.listed a ha)
      · apply hsnoc
        intro a ha
        rw [same]
        exact .inl ha
  · intro pre step e hpre herror
    have hreached : reached balance (pre ++ [step]) = reached balance pre := by
      rw [reached, Machine.run_snoc, Machine.apply_error herror]
    exact ⟨hpre.listed, hpre.registered_snoc hreached fun a ha => .inl ha⟩

theorem Succeeded.follows (h : Succeeded balance steps (reached balance steps)) :
    AuthorityFollowsAdmin balance steps := by
  constructor
  · intro _ admin hadmin
    exact decide_eq_true (h.listed admin hadmin)
  · intro _ a hformer hnever
    obtain ⟨⟨pre, hpre, hadmin⟩, hnow⟩ := hformer
    rcases h.registered pre a hpre hadmin with hstill | hregistered
    · exact absurd hstill hnow
    · exact absurd hregistered hnever

/-- Where authority follows the admin key throughout, the admin is on the list even while a
change is pending. -/
theorem listed_of_follows
    (h : ∀ pre, pre <+: steps → AuthorityFollowsAdmin balance pre) :
    ∀ pre, pre <+: steps → ∀ admin, (reached balance pre).admin = some admin →
      admin ∈ (reached balance pre).authorizedCallers := by
  apply Machine.run_invariant_of_executes (M := machine self)
    (P := fun u => ∀ admin, u.admin = some admin → admin ∈ u.authorizedCallers)
  · intro admin hadmin
    cases hadmin
  · intro pre step u hx hpre admin hadmin
    have hexec : exec step.1 step.2 (reached balance pre) = .ok u := hx.exec_eq
    have hafter : reached balance (pre ++ [step]) = u := hx.run_eq
    rw [← hafter] at hadmin ⊢
    obtain ⟨inv, call⟩ := step
    cases (exec_effect hexec).succession with
    | kept unnamed same callers =>
      rw [hafter, same] at hadmin
      rw [hafter, callers]
      exact hpre admin hadmin
    | seeded fresh first listed =>
      rw [hafter, first] at hadmin
      obtain rfl := Option.some.inj hadmin
      rw [hafter]
      exact listed
    | handedOver newAdmin named same callers settled =>
      have hfollows := h _ hx.snoc_prefix
      rw [← hafter] at settled
      exact of_decide_eq_true (hfollows.current settled admin hadmin)
    | registered same callers =>
      rw [hafter, same] at hadmin
      rw [hafter, callers]
      exact List.mem_append_left _ (hpre admin hadmin)

/-- Authority follows the admin key exactly in the runs whose admin changes are orderly. -/
theorem authorityFollowsAdmin_iff (balance : Addr → Addr → ℕ) (steps : List (Step Addr self)) :
    (∀ pre, pre <+: steps → AuthorityFollowsAdmin balance pre) ↔
      ∀ pre inv call t newAdmin,
        (machine self).Executes (deployed balance) steps pre (inv, call) t →
        call.newAdmin = some newAdmin → Orderly balance pre newAdmin := by
  constructor
  · intro h pre inv call t newAdmin hx hnamed
    have hexec : exec inv call (reached balance pre) = .ok t := hx.exec_eq
    have hafter : reached balance (pre ++ [(inv, call)]) = t := hx.run_eq
    have hpre : pre <+: steps := (List.prefix_append pre _).trans hx.snoc_prefix
    have hfollows := h _ hx.snoc_prefix
    cases (exec_effect hexec).succession with
    | kept unnamed same callers =>
      rw [unnamed] at hnamed
      cases hnamed
    | seeded fresh first listed => cases hnamed
    | handedOver other named same callers settled =>
      obtain rfl := Option.some.inj (named.symm.trans hnamed)
      rw [← hafter] at same callers settled
      constructor
      · have hlisted := of_decide_eq_true (hfollows.current settled other same)
        rw [callers] at hlisted
        exact hlisted
      · intro admin hadmin
        by_contra hneither
        obtain ⟨hne, hnever⟩ := not_or.mp hneither
        have hformer : FormerAdmin balance (pre ++ [(inv, call)]) admin := by
          refine ⟨⟨pre, List.prefix_append _ _, hadmin⟩, ?_⟩
          rw [same]
          exact fun heq => hne (Option.some.inj heq).symm
        have hstays := hfollows.former settled admin hformer fun hregistered =>
          hnever (registered_snoc hregistered hnamed)
        have hlisted := listed_of_follows h pre hpre admin hadmin
        rw [← callers] at hlisted
        exact absurd hlisted (of_decide_eq_false hstays.1)
    | registered same callers => cases hnamed
  · intro horderly pre hpre
    exact (succeeded_of_orderly horderly pre hpre).follows

section Handover

/-- An invocation at time `now` that every account signed; the treasury is address 0. -/
def calm (now : ℕ) : Invocation ℕ 0 where
  toEnv := signedByAll now
  accepts _ := true
  isPaused _ := none
  mevInteractions _ := 0
  globalRequests := 0
  penaltyRedistributionPool _ := none
  addToLpRewardPool _ _ := false
  receiveTreasuryDistribution _ _ _ _ := false

/-- The admin 1 hands over to account 4 the way the contract asks for. -/
def handoverRun : List (Step ℕ 0) :=
  [(calm 100000, .initializeTreasury 1 2 3 none),
    (calm 100000, .proposeAdminChange 1 4),
    (calm 300000, .acceptAdminChange 4)]

theorem handoverRun_leaves_authority : ¬ ∀ (balance : ℕ → ℕ → ℕ) (steps : List (Step ℕ 0)),
    AuthorityFollowsAdmin balance steps := by
  intro h
  have hfollows := h (fun _ _ => 0) handoverRun
  have hlisted := hfollows.current (by decide) 4 (by decide)
  exact absurd hlisted (by decide)

end Handover

end Treasury
