import MentorsMind.Treasury.Effects

/-! Who moves the treasury's funds. -/
namespace Treasury
open Outcome Soroban Shared

variable {Addr : Type} [DecidableEq Addr] {self : Addr} {inv : Invocation Addr self}
  {s t : State Addr} {balance : Addr → Addr → ℕ} {steps : List (Step Addr self)}

def Call.isAllocation : Call Addr → Bool
  | .allocate _ _ _ => true
  | .batchAllocate _ => true
  | _ => false

/-- The calls that may pay out. -/
def Call.isOutflow : Call Addr → Bool
  | .approvePendingAllocation _ _ => true
  | .distributeToStakers _ _ => true
  | call => call.isAllocation

/-- The admin, or a registered caller. -/
def State.HasAuthority (s : State Addr) (a : Addr) : Prop :=
  s.admin = some a ∨ a ∈ s.authorizedCallers

/-- The admin asked for this payment when it was beyond the threshold, and it was filed under
`id`. -/
def Requested (balance : Addr → Addr → ℕ) (steps : List (Step Addr self)) (id : ℕ)
    (payment : Transfer Addr) (admin : Addr) : Prop :=
  ∃ pre inv token recipient amount t,
    (machine self).Executes (deployed balance) steps pre
      (inv, .allocate token recipient amount) t ∧
    getMultisigThreshold (reached balance pre) < amount ∧
    (reached balance pre).pendingAllocationCount = id ∧
    payment = ⟨token, self, recipient, amount⟩ ∧
    (reached balance pre).admin = some admin ∧ inv.auth admin = true

/-- An address with authority approved the pending allocation, by requesting it or later. -/
def Approved (balance : Addr → Addr → ℕ) (steps : List (Step Addr self)) (id : ℕ)
    (approver : Addr) : Prop :=
  (∃ payment, Requested balance steps id payment approver) ∨
    ∃ pre inv t, (machine self).Executes (deployed balance) steps pre
      (inv, .approvePendingAllocation approver id) t ∧ (reached balance pre).HasAuthority approver

/-- What the two-person rule promises. -/
structure OutflowsAuthorised {home : Addr} (balance : Addr → Addr → ℕ)
    (steps : List (Step Addr home)) : Prop where
  /-- What an allocation pays at once is within the threshold and signed by the admin. -/
  direct : ∀ pre step t, (machine home).Executes (deployed balance) steps pre step t →
    step.2.isAllocation = true → ∃ admin paid,
      (reached balance pre).admin = some admin ∧ step.1.auth admin = true ∧
      t.tokens.transfers = paid ++ (reached balance pre).tokens.transfers ∧
      ∀ payment ∈ paid, payment.amount ≤ getMultisigThreshold (reached balance pre)
  /-- An approval pays what was requested, and two addresses with authority have approved it. -/
  twice : ∀ pre inv approver id t, (machine home).Executes (deployed balance) steps pre
    (inv, .approvePendingAllocation approver id) t →
    t.tokens.transfers ≠ (reached balance pre).tokens.transfers → ∃ payment admin,
      Requested balance pre id payment admin ∧
      t.tokens.transfers = payment :: (reached balance pre).tokens.transfers ∧
      ∃ a b, a ≠ b ∧
        Approved balance (pre ++ [(inv, .approvePendingAllocation approver id)]) id a ∧
        Approved balance (pre ++ [(inv, .approvePendingAllocation approver id)]) id b
  once : ∀ pre pre' inv inv' approver approver' id t t',
    (machine home).Executes (deployed balance) steps pre
      (inv, .approvePendingAllocation approver id) t →
    t.tokens.transfers ≠ (reached balance pre).tokens.transfers →
    (machine home).Executes (deployed balance) steps pre'
      (inv', .approvePendingAllocation approver' id) t' →
    t'.tokens.transfers ≠ (reached balance pre').tokens.transfers → pre = pre'
  elsewhere : ∀ pre step t, (machine home).Executes (deployed balance) steps pre step t →
    step.2.isOutflow = false → t.tokens.transfers = (reached balance pre).tokens.transfers

section Filing

/-- What a call does to the pending allocations. -/
inductive Filing (inv : Invocation Addr self) (s t : State Addr) : Call Addr → Prop where
  | kept {call : Call Addr} (pending : t.pendingAllocation = s.pendingAllocation)
      (count : t.pendingAllocationCount = s.pendingAllocationCount)
      (approval : t.allocationApproval = s.allocationApproval) : Filing inv s t call
  | filed {token recipient : Addr} {amount : ℤ} (admin : Addr) (stored : s.admin = some admin)
      (auth : inv.auth admin = true) (beyond : getMultisigThreshold s < amount)
      (pending : t.pendingAllocation =
        Function.update s.pendingAllocation s.pendingAllocationCount (some
          ⟨s.pendingAllocationCount, token, recipient, amount, 1, false, inv.timestamp⟩))
      (count : t.pendingAllocationCount = s.pendingAllocationCount + 1)
      (approval : t.allocationApproval =
        Function.update s.allocationApproval (s.pendingAllocationCount, admin) true) :
      Filing inv s t (.allocate token recipient amount)
  | approved {approver : Addr} {id : ℕ} (old new : PendingAllocation Addr)
      (found : s.pendingAllocation id = some old) (waiting : old.executed = false)
      (first : s.allocationApproval (id, approver) = false)
      (settled : new.executed = true ∧
          t.tokens.transfers = old.payment self :: s.tokens.transfers ∨
        old.approvalsCount + 1 < 2)
      (same : new.payment self = old.payment self)
      (pending : t.pendingAllocation = Function.update s.pendingAllocation id (some new))
      (count : t.pendingAllocationCount = s.pendingAllocationCount)
      (approval : t.allocationApproval =
        Function.update s.allocationApproval (id, approver) true) :
      Filing inv s t (.approvePendingAllocation approver id)

theorem Effect.filing {call : Call Addr} (h : Effect inv s t call) : Filing inv s t call := by
  cases h with
  | initialized _ eq => rw [eq]; exact .kept rfl rfl rfl
  | adminProposed _ _ _ eq => rw [eq]; exact .kept rfl rfl rfl
  | adminAccepted _ _ _ _ _ eq => rw [eq]; exact .kept rfl rfl rfl
  | adminCancelled _ _ eq => rw [eq]; exact .kept rfl rfl rfl
  | adminRevoked _ _ _ eq => rw [eq]; exact .kept rfl rfl rfl
  | callerAdded _ _ _ eq => rw [eq]; exact .kept rfl rfl rfl
  | configured _ eq => rw [eq]; exact .kept rfl rfl rfl
  | allocated _ _ _ _ _ _ eq => rw [eq]; exact .kept rfl rfl rfl
  | queued admin stored auth _ beyond eq =>
    rw [eq]
    exact .filed admin stored auth beyond rfl rfl rfl
  | batched _ _ _ _ _ eq => rw [eq]; exact .kept rfl rfl rfl
  | approved pending auth found waiting first few eq =>
    rw [eq]
    exact .approved pending { pending with approvalsCount := pending.approvalsCount + 1 } found
      waiting first (.inr few) rfl rfl rfl rfl
  | released pending auth found waiting first transfers eq =>
    rw [eq]
    exact .approved pending
      { pending with approvalsCount := pending.approvalsCount + 1, executed := true } found
      waiting first (.inl ⟨rfl, transfers⟩) rfl rfl rfl rfl
  | distributed _ _ _ _ eq => rw [eq]; exact .kept rfl rfl rfl

/-- Pending allocations are numbered below the counter, and one that waits has one approval. -/
structure Filed (s : State Addr) : Prop where
  numbered : ∀ id pending, s.pendingAllocation id = some pending → id < s.pendingAllocationCount
  single : ∀ id pending, s.pendingAllocation id = some pending → pending.executed = false →
    pending.approvalsCount = 1

theorem Filed.step (hfiled : Filed s) {call : Call Addr} (h : exec inv call s = .ok t) :
    Filed t := by
  cases (exec_effect h).filing with
  | kept pending count approval =>
    constructor
    · rw [pending, count]
      exact hfiled.numbered
    · rw [pending]
      exact hfiled.single
  | filed admin stored auth beyond pending count approval =>
    constructor
    · intro id found hfound
      rw [pending] at hfound
      rw [count]
      by_cases hid : id = s.pendingAllocationCount
      · omega
      · rw [Function.update_of_ne hid] at hfound
        have hlt := hfiled.numbered id found hfound
        omega
    · intro id found hfound hwaiting
      rw [pending] at hfound
      by_cases hid : id = s.pendingAllocationCount
      · rw [hid, Function.update_self] at hfound
        obtain rfl := Option.some.inj hfound
        rfl
      · rw [Function.update_of_ne hid] at hfound
        exact hfiled.single id found hfound hwaiting
  | @approved approver id old new found waiting first settled same pending count approval =>
    constructor
    · intro i other hother
      rw [pending] at hother
      rw [count]
      by_cases hid : i = id
      · rw [hid]
        exact hfiled.numbered id old found
      · rw [Function.update_of_ne hid] at hother
        exact hfiled.numbered i other hother
    · intro i other hother hwaiting
      rw [pending] at hother
      by_cases hid : i = id
      · rw [hid, Function.update_self] at hother
        obtain rfl := Option.some.inj hother
        -- an approval of a waiting allocation is its second
        have hone := hfiled.single id old found waiting
        rcases settled with ⟨hexecuted, -⟩ | hfew
        · rw [hwaiting] at hexecuted
          cases hexecuted
        · omega
      · rw [Function.update_of_ne hid] at hother
        exact hfiled.single i other hother hwaiting

theorem reached_filed (balance : Addr → Addr → ℕ) (steps : List (Step Addr self)) :
    Filed (reached balance steps) := by
  apply Machine.run_invariant
  · exact ⟨nofun, nofun⟩
  · intro step s t hfiled h
    exact hfiled.step h

end Filing

section Settlement

/-- The pending allocation has been paid. -/
def Settled (s : State Addr) (id : ℕ) : Prop :=
  ∃ pending, s.pendingAllocation id = some pending ∧ pending.executed = true

/-- An approval that succeeds pays. -/
theorem approval_pays (hfiled : Filed s) {approver : Addr} {id : ℕ}
    (h : exec inv (.approvePendingAllocation approver id) s = .ok t) :
    ∃ pending, s.pendingAllocation id = some pending ∧ pending.executed = false ∧
      s.allocationApproval (id, approver) = false ∧
      t.tokens.transfers = pending.payment self :: s.tokens.transfers ∧ Settled t id := by
  cases exec_effect h with
  | configured setting eq => cases setting
  | approved pending auth found waiting first few eq =>
    have hone := hfiled.single id pending found waiting
    omega
  | released pending auth found waiting first transfers eq =>
    refine ⟨pending, found, waiting, first, transfers, ?_⟩
    rw [eq]
    exact ⟨_, Function.update_self .., rfl⟩

theorem Settled.step (hfiled : Filed s) {id : ℕ} (hsettled : Settled s id) {call : Call Addr}
    (h : exec inv call s = .ok t) : Settled t id := by
  obtain ⟨paid, hpaid, hexecuted⟩ := hsettled
  refine ⟨paid, ?_, hexecuted⟩
  cases (exec_effect h).filing with
  | kept pending count approval =>
    rw [pending]
    exact hpaid
  | filed admin stored auth beyond pending count approval =>
    have hlt := hfiled.numbered id paid hpaid
    rw [pending, Function.update_of_ne hlt.ne]
    exact hpaid
  | @approved approver i old new found waiting first settled same pending count approval =>
    have hne : id ≠ i := by
      rintro rfl
      obtain rfl := Option.some.inj (hpaid.symm.trans found)
      rw [waiting] at hexecuted
      cases hexecuted
    rw [pending, Function.update_of_ne hne]
    exact hpaid

/-- A pending allocation is approved once after its request. -/
theorem approval_once {pre pre' : List (Step Addr self)} {inv' : Invocation Addr self}
    {approver approver' : Addr} {id : ℕ} {t' : State Addr}
    (h : (machine self).Executes (deployed balance) steps pre
      (inv, .approvePendingAllocation approver id) t)
    (h' : (machine self).Executes (deployed balance) steps pre'
      (inv', .approvePendingAllocation approver' id) t') : pre = pre' := by
  apply Machine.Executes.unique (D := fun u => Settled u id)
    (P := fun _ (step : Step Addr self) _ => ∃ a, step.2 = .approvePendingAllocation a id)
    ?_ ?_ ?_ h ⟨approver, rfl⟩ h' ⟨approver', rfl⟩
  · intro pre step u hx hcall hsettled
    obtain ⟨a, hcall⟩ := hcall
    have hexec : exec step.1 step.2 (reached balance pre) = .ok u := hx.exec_eq
    rw [hcall] at hexec
    obtain ⟨pending, hfound, hwaiting, -⟩ := approval_pays (reached_filed balance pre) hexec
    obtain ⟨paid, hpaid, hexecuted⟩ := hsettled
    obtain rfl := Option.some.inj (hpaid.symm.trans hfound)
    rw [hwaiting] at hexecuted
    cases hexecuted
  · intro pre step u hx hcall
    obtain ⟨a, hcall⟩ := hcall
    have hexec : exec step.1 step.2 (reached balance pre) = .ok u := hx.exec_eq
    rw [hcall] at hexec
    obtain ⟨pending, -, -, -, -, hsettled⟩ := approval_pays (reached_filed balance pre) hexec
    exact hsettled
  · intro pre step u hx hsettled
    exact hsettled.step (reached_filed balance pre) hx.exec_eq

end Settlement

section Requests

theorem Requested.append {id : ℕ} {payment : Transfer Addr} {admin : Addr}
    (h : Requested balance steps id payment admin) (more : List (Step Addr self)) :
    Requested balance (steps ++ more) id payment admin := by
  obtain ⟨pre, inv, token, recipient, amount, t, hx, hrest⟩ := h
  exact ⟨pre, inv, token, recipient, amount, t, hx.append more, hrest⟩

theorem pendingAllocationCount_step {call : Call Addr} (h : exec inv call s = .ok t) :
    s.pendingAllocationCount ≤ t.pendingAllocationCount := by
  cases (exec_effect h).filing with
  | kept pending count approval => exact count.ge
  | filed admin stored auth beyond pending count approval => omega
  | approved old new found waiting first settled same pending count approval => exact count.ge

/-- An allocation beyond the threshold takes the next number. -/
theorem pendingAllocationCount_allocate {token recipient : Addr} {amount : ℤ}
    (h : exec inv (.allocate token recipient amount) s = .ok t)
    (hbeyond : getMultisigThreshold s < amount) :
    t.pendingAllocationCount = s.pendingAllocationCount + 1 := by
  cases exec_effect h with
  | configured setting eq => cases setting
  | allocated admin stored auth listed within transfers eq =>
    exact absurd within (not_le.mpr hbeyond)
  | queued admin stored auth listed beyond eq => rw [eq]

/-- A pending allocation has one request. -/
theorem Requested.unique {id : ℕ} {payment payment' : Transfer Addr} {admin admin' : Addr}
    (h : Requested balance steps id payment admin)
    (h' : Requested balance steps id payment' admin') : admin = admin' := by
  obtain ⟨pre, inv, token, recipient, amount, t, hx, hbeyond, hid, -, hadmin, -⟩ := h
  obtain ⟨pre', inv', token', recipient', amount', t', hx', hbeyond', hid', -, hadmin', -⟩ := h'
  have hpre : pre = pre' := by
    apply Machine.Executes.unique (D := fun u : State Addr => id < u.pendingAllocationCount)
      (P := fun u (step : Step Addr self) _ => ∃ token recipient amount,
        step.2 = .allocate token recipient amount ∧ getMultisigThreshold u < amount ∧
          u.pendingAllocationCount = id)
      ?_ ?_ ?_ hx ⟨token, recipient, amount, rfl, hbeyond, hid⟩
      hx' ⟨token', recipient', amount', rfl, hbeyond', hid'⟩
    · intro pre step u hu hrequest hlt
      obtain ⟨-, -, -, -, -, hnumber⟩ := hrequest
      omega
    · intro pre step u hu hrequest
      obtain ⟨token, recipient, amount, hcall, hover, hnumber⟩ := hrequest
      have hexec : exec step.1 step.2 (reached balance pre) = .ok u := hu.exec_eq
      rw [hcall] at hexec
      have hnext := pendingAllocationCount_allocate hexec hover
      rw [hnumber] at hnext
      omega
    · intro pre step u hu hlt
      exact hlt.trans_le (pendingAllocationCount_step hu.exec_eq)
  subst hpre
  exact Option.some.inj (hadmin.symm.trans hadmin')

/-- Every pending allocation was requested by an admin, whose approval is on file. -/
theorem requested_of_pending (balance : Addr → Addr → ℕ) (steps : List (Step Addr self)) :
    ∀ id pending, (reached balance steps).pendingAllocation id = some pending → ∃ admin,
      Requested balance steps id (pending.payment self) admin ∧
        (reached balance steps).allocationApproval (id, admin) = true := by
  apply Machine.run_history (M := machine self) (P := fun pre u => ∀ id pending,
    u.pendingAllocation id = some pending → ∃ admin,
      Requested balance pre id (pending.payment self) admin ∧
        u.allocationApproval (id, admin) = true)
  · intro id pending hpending
    cases hpending
  · intro pre step u hpre hx id pending hpending
    have hearlier : ∀ old, (reached balance pre).pendingAllocation id = some old →
        old.payment self = pending.payment self →
        (∀ admin, (reached balance pre).allocationApproval (id, admin) = true →
          u.allocationApproval (id, admin) = true) →
        ∃ admin, Requested balance (pre ++ [step]) id (pending.payment self) admin ∧
          u.allocationApproval (id, admin) = true := by
      intro old hold hsame hkept
      obtain ⟨admin, hrequested, happroval⟩ := hpre id old hold
      rw [hsame] at hrequested
      exact ⟨admin, hrequested.append [step], hkept admin happroval⟩
    obtain ⟨inv, call⟩ := step
    have hexec : exec inv call (reached balance pre) = .ok u := hx
    cases (exec_effect hexec).filing with
    | kept hpendings count approval =>
      rw [hpendings] at hpending
      apply hearlier pending hpending rfl
      intro admin hadmin
      rw [approval]
      exact hadmin
    | @filed token recipient amount admin stored auth beyond hpendings count approval =>
      rw [hpendings] at hpending
      by_cases hid : id = (reached balance pre).pendingAllocationCount
      · rw [hid, Function.update_self] at hpending
        obtain rfl := Option.some.inj hpending
        refine ⟨admin, ⟨pre, inv, token, recipient, amount, u, Machine.executes_snoc hx, beyond,
          hid.symm, rfl, stored, auth⟩, ?_⟩
        rw [approval, hid, Function.update_self]
      · rw [Function.update_of_ne hid] at hpending
        apply hearlier pending hpending rfl
        intro a ha
        rw [approval, Function.update_of_ne]
        · exact ha
        · intro heq
          exact hid (Prod.ext_iff.mp heq).1
    | @approved approver i old new found waiting first settled same hpendings count approval =>
      have hkept : ∀ a, (reached balance pre).allocationApproval (id, a) = true →
          u.allocationApproval (id, a) = true := by
        intro a ha
        rw [approval]
        by_cases heq : (id, a) = (i, approver)
        · rw [heq, Function.update_self]
        · rw [Function.update_of_ne heq]
          exact ha
      rw [hpendings] at hpending
      by_cases hid : id = i
      · rw [hid, Function.update_self] at hpending
        obtain rfl := Option.some.inj hpending
        rw [← hid] at found
        exact hearlier old found same.symm hkept
      · rw [Function.update_of_ne hid] at hpending
        exact hearlier pending hpending rfl hkept
  · intro pre step e hpre herror id pending hpending
    obtain ⟨admin, hrequested, happroval⟩ := hpre id pending hpending
    exact ⟨admin, hrequested.append [step], happroval⟩

end Requests

section TwoPersonRule

omit [DecidableEq Addr] in
theorem Call.not_isAllocation {call : Call Addr} (h : call.isSetting = true) :
    call.isAllocation = false := by
  cases call <;> first | rfl | cases h

theorem exec_allocation {call : Call Addr} (h : exec inv call s = .ok t)
    (hcall : call.isAllocation = true) : ∃ admin paid, s.admin = some admin ∧
      inv.auth admin = true ∧ t.tokens.transfers = paid ++ s.tokens.transfers ∧
      ∀ payment ∈ paid, payment.amount ≤ getMultisigThreshold s := by
  cases exec_effect h with
  | initialized => cases hcall
  | adminProposed => cases hcall
  | adminAccepted => cases hcall
  | adminCancelled => cases hcall
  | adminRevoked => cases hcall
  | callerAdded => cases hcall
  | configured setting eq =>
    rw [Call.not_isAllocation setting] at hcall
    cases hcall
  | @allocated token recipient amount admin stored auth listed within transfers eq =>
    refine ⟨admin, [⟨token, self, recipient, amount⟩], stored, auth, transfers, ?_⟩
    intro payment hpayment
    obtain rfl := List.mem_singleton.mp hpayment
    exact within
  | queued admin stored auth listed beyond eq =>
    refine ⟨admin, [], stored, auth, ?_, nofun⟩
    rw [eq]
    rfl
  | batched admin stored auth within transfers eq =>
    refine ⟨admin, _, stored, auth, transfers, ?_⟩
    intro payment hpayment
    obtain ⟨request, hrequest, rfl⟩ := List.mem_map.mp (List.mem_reverse.mp hpayment)
    exact within request hrequest
  | approved => cases hcall
  | released => cases hcall
  | distributed => cases hcall

theorem exec_not_outflow {call : Call Addr} (h : exec inv call s = .ok t)
    (hcall : call.isOutflow = false) : t.tokens = s.tokens := by
  cases exec_effect h with
  | initialized _ eq => rw [eq]
  | adminProposed _ _ _ eq => rw [eq]
  | adminAccepted _ _ _ _ _ eq => rw [eq]
  | adminCancelled _ _ eq => rw [eq]
  | adminRevoked _ _ _ eq => rw [eq]
  | callerAdded _ _ _ eq => rw [eq]
  | configured _ eq => rw [eq]
  | allocated => cases hcall
  | queued => cases hcall
  | batched => cases hcall
  | approved => cases hcall
  | released => cases hcall
  | distributed => cases hcall

/-- The only approval after the request is the one that pays. -/
theorem OutflowsAuthorised.hasAuthority (h : OutflowsAuthorised balance steps)
    {pre : List (Step Addr self)} {approver : Addr} {id : ℕ}
    (hx : (machine self).Executes (deployed balance) steps pre
      (inv, .approvePendingAllocation approver id) t) :
    (reached balance pre).HasAuthority approver := by
  have hexec : exec inv (.approvePendingAllocation approver id) (reached balance pre) = .ok t :=
    hx.exec_eq
  obtain ⟨pending, -, -, -, htransfers, -⟩ := approval_pays (reached_filed balance pre) hexec
  have hmoves : t.tokens.transfers ≠ (reached balance pre).tokens.transfers := by
    rw [htransfers]
    exact List.cons_ne_self _ _
  obtain ⟨payment, admin, -, -, a, b, hne, ha, hb⟩ := h.twice pre inv approver id t hx hmoves
  have hself : ∀ pre' inv' c u, (machine self).Executes (deployed balance)
      (pre ++ [(inv, .approvePendingAllocation approver id)]) pre'
      (inv', .approvePendingAllocation c id) u → (reached balance pre').HasAuthority c →
      (reached balance pre).HasAuthority approver := by
    intro pre' inv' c u hu hauthority
    have hlast := Machine.executes_snoc hx.exec_eq
    obtain rfl := approval_once hlast hu
    obtain hcall := Option.some.inj (hlast.eq_take.2.symm.trans hu.eq_take.2)
    obtain ⟨rfl, -⟩ := Call.approvePendingAllocation.inj (Prod.ext_iff.mp hcall).2
    exact hauthority
  rcases ha with ⟨payment, ha⟩ | ⟨pre', inv', u, hu, hauthority⟩
  · rcases hb with ⟨payment', hb⟩ | ⟨pre', inv', u, hu, hauthority⟩
    · exact absurd (ha.unique hb) hne
    · exact hself pre' inv' b u hu hauthority
  · exact hself pre' inv' a u hu hauthority

/-- The two-person rule holds exactly in the runs whose approvers have authority. -/
theorem outflowsAuthorised_iff (balance : Addr → Addr → ℕ) (steps : List (Step Addr self)) :
    OutflowsAuthorised balance steps ↔ ∀ pre inv approver id t,
      (machine self).Executes (deployed balance) steps pre
        (inv, .approvePendingAllocation approver id) t →
      (reached balance pre).HasAuthority approver := by
  constructor
  · intro h pre inv approver id t hx
    exact h.hasAuthority hx
  · intro hauthority
    constructor
    · intro pre step t hx hcall
      exact exec_allocation hx.exec_eq hcall
    · intro pre inv approver id t hx hmoves
      have hexec : exec inv (.approvePendingAllocation approver id) (reached balance pre) = .ok t :=
        hx.exec_eq
      obtain ⟨pending, hfound, -, hfirst, htransfers, -⟩ :=
        approval_pays (reached_filed balance pre) hexec
      obtain ⟨admin, hrequested, happroval⟩ := requested_of_pending balance pre id pending hfound
      refine ⟨_, admin, hrequested, htransfers, admin, approver, ?_, ?_, ?_⟩
      · rintro rfl
        rw [hfirst] at happroval
        cases happroval
      · exact .inl ⟨_, hrequested.append _⟩
      · exact .inr ⟨pre, inv, t, Machine.executes_snoc hx.exec_eq,
          hauthority pre inv approver id t hx⟩
    · intro pre pre' inv inv' approver approver' id t t' hx _ hx' _
      exact approval_once hx hx'
    · intro pre step t hx hcall
      rw [exec_not_outflow hx.exec_eq hcall]

end TwoPersonRule

section Outsider

/-- An invocation that `signer` signed; the treasury is address 0. -/
def signedBy (signer : ℕ) (hsigner : signer ≠ 0) : Invocation ℕ 0 where
  timestamp := 1000000
  sequence := 1
  auth a := a == signer
  auth_home := by simpa using hsigner.symm
  accepts _ := true
  isPaused _ := none
  mevInteractions _ := 0
  globalRequests := 0
  penaltyRedistributionPool _ := none
  addToLpRewardPool _ _ := false
  receiveTreasuryDistribution _ _ _ _ := false

/-- The admin 1 requests a payment of 60000 to account 7, which account 5 approves. -/
def outsiderRun : List (Step ℕ 0) :=
  [(signedBy 1 (by decide), .initializeTreasury 1 2 3 none),
    (signedBy 1 (by decide), .setApprovedToken 9 true),
    (signedBy 1 (by decide), .allocate 9 7 60000)]

def outsiderApproval : Step ℕ 0 :=
  (signedBy 5 (by decide), .approvePendingAllocation 5 0)

theorem outsiderRun_pays : ¬ ∀ (steps : List (Step ℕ 0)) (balance : ℕ → ℕ → ℕ),
    OutflowsAuthorised balance steps := by
  intro h
  have hx : (machine 0).Executes (deployed fun _ _ => 100000) (outsiderRun ++ [outsiderApproval])
      outsiderRun outsiderApproval
      ((machine 0).run (deployed fun _ _ => 100000) (outsiderRun ++ [outsiderApproval])) := by
    apply Machine.executes_of_run_ne
    intro heq
    have hnone := congrArg (fun u : State ℕ => u.tokens.transfers.length) heq
    exact absurd hnone (by decide)
  have hauthority := (h (outsiderRun ++ [outsiderApproval]) fun _ _ => 100000).hasAuthority hx
  rcases hauthority with hadmin | hlisted
  · exact absurd hadmin (by decide)
  · exact absurd hlisted (by decide)

end Outsider

end Treasury
