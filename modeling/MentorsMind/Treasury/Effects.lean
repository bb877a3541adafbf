import MentorsMind.Treasury.Contract

/-! What a successful call changes. -/
namespace Treasury
open Outcome Soroban Shared

variable {Addr : Type} [DecidableEq Addr] {self : Addr} {inv : Invocation Addr self}
  {s t : State Addr}

/-- The setters, which touch neither funds nor authority. -/
def Call.isSetting : Call Addr → Bool
  | .setApprovedToken _ _ => true
  | .setMultisigThreshold _ => true
  | .scheduleStakerDistribution _ _ => true
  | .setRequireSchedDistrib _ _ => true
  | _ => false

/-- The payment of a request. -/
def AllocationRequest.payment (self : Addr) (request : AllocationRequest Addr) : Transfer Addr :=
  ⟨request.token, self, request.recipient, request.amount⟩

/-- The payment of a pending allocation. -/
def PendingAllocation.payment (self : Addr) (pending : PendingAllocation Addr) : Transfer Addr :=
  ⟨pending.token, self, pending.recipient, pending.amount⟩

omit [DecidableEq Addr] in
theorem requireStoredAdmin_eq_ok {admin : Addr} :
    requireStoredAdmin inv s = .ok admin ↔ s.admin = some admin ∧ inv.auth admin = true := by
  simp only [requireStoredAdmin, bind_eq_ok, expect_eq_ok, requireAuth_eq_ok, pure_eq_ok]
  constructor
  · intro h
    obtain ⟨a, ha, -, hauth, rfl⟩ := h
    exact ⟨ha, hauth⟩
  · intro h
    exact ⟨admin, h.1, (), h.2, rfl⟩

theorem requireAdmin_eq_ok {admin : Addr} {u : Unit} : requireAdmin inv s admin = .ok u ↔
    inv.auth admin = true ∧ s.admin = some admin ∧ s.pendingAdminTransfer = none := by
  simp only [requireAdmin, bind_eq_ok, expect_eq_ok, requireAuth_eq_ok, require_eq_ok,
    Option.isNone_iff_eq_none]
  constructor
  · intro h
    obtain ⟨-, hauth, stored, hstored, -, rfl, hsettled⟩ := h
    exact ⟨hauth, hstored, hsettled⟩
  · intro h
    exact ⟨(), h.1, admin, h.2.1, (), rfl, h.2.2⟩

omit [DecidableEq Addr] in
theorem recordAllocation_eq_ok {token recipient : Addr} {amount : ℤ}
    (h : recordAllocation inv s token recipient amount = .ok t) :
    t = { s with allocation := t.allocation, allocationCount := t.allocationCount } := by
  simp only [recordAllocation, bind_eq_ok, pure_eq_ok] at h
  obtain ⟨count, -, rfl⟩ := h
  rfl

/-- What the batch pays, latest first. -/
theorem payments_eq_ok {requests : List (AllocationRequest Addr)} {tokens paid : Tokens Addr}
    (h : requests.foldlM (fun tokens request =>
      tokens.transfer inv.accepts request.token self request.recipient request.amount) tokens =
        .ok paid) :
    paid.transfers =
      (requests.map (AllocationRequest.payment self)).reverse ++ tokens.transfers := by
  induction requests generalizing tokens with
  | nil =>
    rw [List.foldlM_nil, pure_eq_ok] at h
    rw [h]
    rfl
  | cons request requests ih =>
    rw [List.foldlM_cons, bind_eq_ok] at h
    obtain ⟨after, hafter, hrest⟩ := h
    rw [ih hrest, (Tokens.transfer_eq_ok hafter).2.2]
    simp [AllocationRequest.payment]

omit [DecidableEq Addr] in
theorem recordAllocations_eq_ok {requests : List (AllocationRequest Addr)}
    (h : requests.foldlM (fun s request =>
      recordAllocation inv s request.token request.recipient request.amount) s = .ok t) :
    t = { s with allocation := t.allocation, allocationCount := t.allocationCount } := by
  induction requests generalizing s with
  | nil =>
    rw [List.foldlM_nil, pure_eq_ok] at h
    rw [h]
  | cons request requests ih =>
    rw [List.foldlM_cons, bind_eq_ok] at h
    obtain ⟨after, hafter, hrest⟩ := h
    have heq := ih hrest
    rw [recordAllocation_eq_ok hafter] at heq
    exact heq

/-- Every request of a batch stays within the threshold. -/
theorem admitRequests_eq_ok {requests : List (AllocationRequest Addr)}
    {start totals : List (Addr × ℤ)} (h : requests.foldlM (admitRequest s) start = .ok totals) :
    ∀ request ∈ requests, request.amount ≤ getMultisigThreshold s := by
  induction requests generalizing start with
  | nil => nofun
  | cons request requests ih =>
    rw [List.foldlM_cons, bind_eq_ok] at h
    obtain ⟨after, hafter, hrest⟩ := h
    simp only [admitRequest, bind_eq_ok, require_eq_ok] at hafter
    obtain ⟨-, -, -, -, -, -, -, hwithin, -⟩ := hafter
    intro r hr
    rcases List.mem_cons.mp hr with rfl | hmem
    · exact hwithin
    · exact ih hrest r hmem

/-- What a successful call does. -/
inductive Effect (inv : Invocation Addr self) (s t : State Addr) : Call Addr → Prop where
  | initialized {admin stakingContract timelock : Addr} {pauseGuardian : Option Addr}
      (fresh : s.admin = none)
      (eq : t = { s with
        admin := some admin
        stakingContract := some stakingContract
        timelock := some timelock
        pauseGuardian := t.pauseGuardian
        allocationCount := 0
        lastDistributionId := 0
        authorizedCallers := [timelock, admin] }) :
      Effect inv s t (.initializeTreasury admin stakingContract timelock pauseGuardian)
  | adminProposed {admin newAdmin : Addr} (auth : inv.auth admin = true)
      (stored : s.admin = some admin) (settled : s.pendingAdminTransfer = none)
      (eq : t = { s with
        pendingAdminTransfer :=
          some ⟨newAdmin, inv.timestamp + minAdminTimelockSecs, .proposed⟩ }) :
      Effect inv s t (.proposeAdminChange admin newAdmin)
  | adminAccepted {newAdmin : Addr} (pending : AdminTransfer Addr)
      (auth : inv.auth newAdmin = true) (found : s.pendingAdminTransfer = some pending)
      (named : pending.newAdmin = newAdmin) (ripe : pending.effectiveAt ≤ inv.timestamp)
      (eq : t = { s with
        admin := some newAdmin
        lastAdminChange := inv.timestamp
        pendingAdminTransfer := none }) : Effect inv s t (.acceptAdminChange newAdmin)
  | adminCancelled {multisig : Addr} (auth : inv.auth multisig = true)
      (found : s.pendingAdminTransfer ≠ none) (eq : t = { s with pendingAdminTransfer := none }) :
      Effect inv s t (.cancelAdminChange multisig)
  | adminRevoked {newAdmin : Addr} (timelock : Addr) (stored : s.timelock = some timelock)
      (auth : inv.auth timelock = true)
      (eq : t = { s with admin := some newAdmin, pendingAdminTransfer := none }) :
      Effect inv s t (.revokeAdminEmergency newAdmin)
  | callerAdded {admin newCaller : Addr} (auth : inv.auth admin = true)
      (stored : s.admin = some admin) (settled : s.pendingAdminTransfer = none)
      (eq : t = { s with authorizedCallers := s.authorizedCallers ++ [newCaller] }) :
      Effect inv s t (.addAuthorizedCaller admin newCaller)
  | configured {call : Call Addr} (setting : call.isSetting = true)
      (eq : t = { s with
        approvedToken := t.approvedToken
        multisigThreshold := t.multisigThreshold
        scheduledNextDistributionAt := t.scheduledNextDistributionAt
        requireScheduledDistribution := t.requireScheduledDistribution }) : Effect inv s t call
  | allocated {token recipient : Addr} {amount : ℤ} (admin : Addr) (stored : s.admin = some admin)
      (auth : inv.auth admin = true) (listed : admin ∈ s.authorizedCallers)
      (within : amount ≤ getMultisigThreshold s)
      (transfers : t.tokens.transfers = ⟨token, self, recipient, amount⟩ :: s.tokens.transfers)
      (eq : t = { s with
        tokens := t.tokens
        allocation := t.allocation
        allocationCount := t.allocationCount }) : Effect inv s t (.allocate token recipient amount)
  | queued {token recipient : Addr} {amount : ℤ} (admin : Addr) (stored : s.admin = some admin)
      (auth : inv.auth admin = true) (listed : admin ∈ s.authorizedCallers)
      (beyond : getMultisigThreshold s < amount)
      (eq : t = { s with
        pendingAllocation := Function.update s.pendingAllocation s.pendingAllocationCount (some
          ⟨s.pendingAllocationCount, token, recipient, amount, 1, false, inv.timestamp⟩)
        allocationApproval :=
          Function.update s.allocationApproval (s.pendingAllocationCount, admin) true
        pendingAllocationCount := s.pendingAllocationCount + 1 }) :
      Effect inv s t (.allocate token recipient amount)
  | batched {requests : List (AllocationRequest Addr)} (admin : Addr)
      (stored : s.admin = some admin) (auth : inv.auth admin = true)
      (within : ∀ request ∈ requests, request.amount ≤ getMultisigThreshold s)
      (transfers : t.tokens.transfers =
        (requests.map (AllocationRequest.payment self)).reverse ++ s.tokens.transfers)
      (eq : t = { s with
        tokens := t.tokens
        allocation := t.allocation
        allocationCount := t.allocationCount }) : Effect inv s t (.batchAllocate requests)
  | approved {approver : Addr} {id : ℕ} (pending : PendingAllocation Addr)
      (auth : inv.auth approver = true) (found : s.pendingAllocation id = some pending)
      (waiting : pending.executed = false) (first : s.allocationApproval (id, approver) = false)
      (few : pending.approvalsCount + 1 < 2)
      (eq : t = { s with
        allocationApproval := Function.update s.allocationApproval (id, approver) true
        pendingAllocation := Function.update s.pendingAllocation id
          (some { pending with approvalsCount := pending.approvalsCount + 1 }) }) :
      Effect inv s t (.approvePendingAllocation approver id)
  | released {approver : Addr} {id : ℕ} (pending : PendingAllocation Addr)
      (auth : inv.auth approver = true) (found : s.pendingAllocation id = some pending)
      (waiting : pending.executed = false) (first : s.allocationApproval (id, approver) = false)
      (transfers : t.tokens.transfers = pending.payment self :: s.tokens.transfers)
      (eq : t = { s with
        tokens := t.tokens
        allocation := t.allocation
        allocationCount := t.allocationCount
        allocationApproval := Function.update s.allocationApproval (id, approver) true
        pendingAllocation := Function.update s.pendingAllocation id (some { pending with
          approvalsCount := pending.approvalsCount + 1
          executed := true }) }) : Effect inv s t (.approvePendingAllocation approver id)
  | distributed {token : Addr} {totalAmount : ℤ} (admin : Addr) (stored : s.admin = some admin)
      (auth : inv.auth admin = true) (listed : admin ∈ s.authorizedCallers)
      (eq : t = { s with
        tokens := t.tokens
        lastDistributionId := t.lastDistributionId
        lastDistributionAt := t.lastDistributionAt
        scheduledNextDistributionAt := t.scheduledNextDistributionAt
        distributionReceipt := t.distributionReceipt }) :
      Effect inv s t (.distributeToStakers token totalAmount)

theorem allocate_effect {token recipient : Addr} {amount : ℤ}
    (h : allocate inv s token recipient amount = .ok t) :
    Effect inv s t (.allocate token recipient amount) := by
  simp only [allocate, bind_eq_ok, require_eq_ok, requireStoredAdmin_eq_ok] at h
  obtain ⟨-, -, admin, ⟨hstored, hauth⟩, -, -, -, -, -, -, -, hlisted, -, -, -, -, -, -, -, -, -, -,
    h⟩ := h
  have hmember : admin ∈ s.authorizedCallers := of_decide_eq_true hlisted
  split_ifs at h with hbeyond
  · simp only [queueAllocation, bind_eq_ok, u32_eq_ok, pure_eq_ok] at h
    obtain ⟨count, ⟨-, rfl⟩, rfl⟩ := h
    exact .queued admin hstored hauth hmember hbeyond rfl
  · simp only [bind_eq_ok, require_eq_ok] at h
    obtain ⟨paid, hpaid, -, -, -, -, h⟩ := h
    have heq := recordAllocation_eq_ok h
    have htokens : t.tokens = paid := by rw [heq]
    refine .allocated admin hstored hauth hmember (not_lt.mp hbeyond) ?_ ?_
    · rw [htokens, (Tokens.transfer_eq_ok hpaid).2.2]
    · rw [htokens]
      exact heq

theorem batchAllocate_effect {requests : List (AllocationRequest Addr)}
    (h : batchAllocate inv s requests = .ok t) : Effect inv s t (.batchAllocate requests) := by
  simp only [batchAllocate, bind_eq_ok, require_eq_ok, requireStoredAdmin_eq_ok] at h
  obtain ⟨-, -, admin, ⟨hstored, hauth⟩, -, -, totals, htotals, -, -, paid, hpaid, h⟩ := h
  have heq := recordAllocations_eq_ok h
  have htokens : t.tokens = paid := by rw [heq]
  refine .batched admin hstored hauth (admitRequests_eq_ok htotals) ?_ ?_
  · rw [htokens]
    exact payments_eq_ok hpaid
  · rw [htokens]
    exact heq

theorem approvePendingAllocation_effect {approver : Addr} {id : ℕ}
    (h : approvePendingAllocation inv s approver id = .ok t) :
    Effect inv s t (.approvePendingAllocation approver id) := by
  simp only [approvePendingAllocation, bind_eq_ok, requireAuth_eq_ok, expect_eq_ok, require_eq_ok,
    u32_eq_ok] at h
  obtain ⟨-, hauth, pending, hfound, -, hwaiting, -, hfirst, count, ⟨-, rfl⟩, h⟩ := h
  split_ifs at h with hcount
  · simp only [bind_eq_ok, require_eq_ok, pure_eq_ok] at h
    obtain ⟨-, -, paid, hpaid, -, -, recorded, hrecorded, rfl⟩ := h
    have heq := recordAllocation_eq_ok hrecorded
    refine .released pending hauth hfound hwaiting hfirst ?_ ?_
    · show recorded.tokens.transfers = _
      rw [heq, (Tokens.transfer_eq_ok hpaid).2.2]
      rfl
    · rw [heq]
  · rw [pure_eq_ok] at h
    exact .approved pending hauth hfound hwaiting hfirst (not_le.mp hcount) h.symm

theorem distributeToStakers_effect {token : Addr} {totalAmount : ℤ}
    (h : distributeToStakers inv s token totalAmount = .ok t) :
    Effect inv s t (.distributeToStakers token totalAmount) := by
  simp only [distributeToStakers, bind_eq_ok, require_eq_ok, requireStoredAdmin_eq_ok,
    pure_eq_ok] at h
  obtain ⟨-, -, admin, ⟨hstored, hauth⟩, -, -, -, -, -, -, staking, -, -, hlisted, -, -, -, -, -, -,
    -, -, -, -, -, -, -, -, paid, -, -, -, -, -, -, -, -, -, rfl⟩ := h
  exact .distributed admin hstored hauth (of_decide_eq_true hlisted) rfl

theorem exec_effect {call : Call Addr} (h : exec inv call s = .ok t) : Effect inv s t call := by
  cases call with
  | initializeTreasury admin stakingContract timelock pauseGuardian =>
    simp only [exec, initializeTreasury, bind_eq_ok, require_eq_ok, pure_eq_ok] at h
    obtain ⟨-, hfresh, rfl⟩ := h
    exact .initialized hfresh rfl
  | proposeAdminChange admin newAdmin =>
    simp only [exec, proposeAdminChange, bind_eq_ok, requireAdmin_eq_ok, require_eq_ok, u64_eq_ok,
      checkedU64_eq_ok, pure_eq_ok] at h
    obtain ⟨-, ⟨hauth, hstored, hsettled⟩, -, -, -, -, effectiveAt, ⟨-, rfl⟩, rfl⟩ := h
    exact .adminProposed hauth hstored hsettled rfl
  | acceptAdminChange newAdmin =>
    simp only [exec, acceptAdminChange, bind_eq_ok, requireAuth_eq_ok, expect_eq_ok, require_eq_ok,
      pure_eq_ok] at h
    obtain ⟨-, hauth, pending, hfound, -, hnamed, -, hripe, -, -, rfl⟩ := h
    exact .adminAccepted pending hauth hfound hnamed hripe rfl
  | cancelAdminChange multisig =>
    simp only [exec, cancelAdminChange, bind_eq_ok, requireAuth_eq_ok, require_eq_ok,
      pure_eq_ok] at h
    obtain ⟨-, hauth, -, hfound, rfl⟩ := h
    exact .adminCancelled hauth (Option.isSome_iff_ne_none.mp hfound) rfl
  | revokeAdminEmergency newAdmin =>
    simp only [exec, revokeAdminEmergency, bind_eq_ok, expect_eq_ok, requireAuth_eq_ok,
      pure_eq_ok] at h
    obtain ⟨timelock, hstored, -, hauth, rfl⟩ := h
    exact .adminRevoked timelock hstored hauth rfl
  | addAuthorizedCaller admin newCaller =>
    simp only [exec, addAuthorizedCaller, bind_eq_ok, requireAdmin_eq_ok, pure_eq_ok] at h
    obtain ⟨-, ⟨hauth, hstored, hsettled⟩, rfl⟩ := h
    exact .callerAdded hauth hstored hsettled rfl
  | setApprovedToken token approved =>
    simp only [exec, setApprovedToken, bind_eq_ok, pure_eq_ok] at h
    obtain ⟨-, -, rfl⟩ := h
    exact .configured rfl rfl
  | setMultisigThreshold threshold =>
    simp only [exec, setMultisigThreshold, bind_eq_ok, pure_eq_ok] at h
    obtain ⟨-, -, rfl⟩ := h
    exact .configured rfl rfl
  | scheduleStakerDistribution admin distributionAt =>
    simp only [exec, scheduleStakerDistribution, bind_eq_ok, pure_eq_ok] at h
    obtain ⟨-, -, -, -, -, -, rfl⟩ := h
    exact .configured rfl rfl
  | setRequireSchedDistrib admin required =>
    simp only [exec, setRequireSchedDistrib, bind_eq_ok, pure_eq_ok] at h
    obtain ⟨-, -, rfl⟩ := h
    exact .configured rfl rfl
  | allocate token recipient amount => exact allocate_effect h
  | batchAllocate requests => exact batchAllocate_effect h
  | approvePendingAllocation approver id => exact approvePendingAllocation_effect h
  | distributeToStakers token totalAmount => exact distributeToStakers_effect h

end Treasury
