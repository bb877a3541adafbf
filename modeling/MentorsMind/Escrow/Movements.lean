import MentorsMind.Escrow.Contract
import MentorsMind.Escrow.Custody

/-! Every successful call, seen from the money: it opens or settles one escrow, regular or
milestone, or rolls records back, or leaves all records and the contract's tokens alone. -/
namespace Escrow
open Outcome Soroban Shared

section Creation

variable {Addr : Type} [DecidableEq Addr] {self : Addr} {inv : Invocation Addr self}
  {digests : Digests} {c : Config Addr} {s : Custody Addr} {x : Custody Addr × ℕ}

theorem createEscrowInternal_spec {mentor learner token send dest : Addr} {amount usd : ℤ}
    {sessionId : String} {sessionEndTime totalSessions : ℕ}
    (h : createEscrowInternal inv digests c s mentor learner amount sessionId token
      sessionEndTime usd amount send dest totalSessions = .ok x) :
    ∃ e, c.approvedToken e.tokenAddress = true ∧ Opening self s x.1 e := by
  simp only [createEscrowInternal, bind_eq_ok, requirePositive_eq_ok, requireMax_eq_ok,
    requireSufficientForDivision_eq_ok, require_eq_ok, requireAuth_eq_ok, u64_eq_ok,
    transitionStatus_eq_ok, pure_eq_ok] at h
  obtain ⟨-, hpos, -, hmax, -, htotal, -, ⟨-, hsplit⟩, -, happroved, -, -, -, -, -, hauth, -, -, -, -,
    -, -, -, -, _, ⟨-, rfl⟩, tokens, hpay, _, ⟨-, rfl⟩, rfl⟩ := h
  have hflow := Tokens.transfer_flow_in (Env.ne_self_of_auth hauth) hpay
  refine ⟨_, happroved, {
    escrow := rfl
    milestone := rfl
    escrowCount := rfl
    milestoneCount := rfl
    flow := hflow
    id_eq := rfl
    status := rfl
    quoted_eq := rfl
    completed := rfl
    fee := rfl
    net := rfl
    invariant := ?_ }⟩
  exact {
    not_pending := by simp
    sessions_pos := by exact_mod_cast htotal
    sessions_le := hsplit
    quoted_le := hmax
    amount_nonneg := hpos.le
    completed_le := Nat.zero_le _
    live := fun _ => ⟨by exact_mod_cast htotal, by simp, by simp, le_rfl, le_rfl⟩ }

end Creation

section Milestones

variable {Addr : Type}

/-- What the milestones that were not completed are worth. -/
def unpaid : List MilestoneSpec → List MilestoneStatus → ℤ
  | m :: ms, status :: statuses =>
      (if status = .completed then 0 else m.amount) + unpaid ms statuses
  | _, _ => 0

/-- What the contract still owes in `token` on a milestone escrow. -/
def owedByMilestone [DecidableEq Addr] (token : Addr) : Option (MilestoneEscrow Addr) → ℤ
  | some m => if m.tokenAddress = token ∧ ¬ m.status.IsTerminal
      then unpaid m.milestones m.milestoneStatuses else 0
  | none => 0

structure MilestoneInvariant (m : MilestoneEscrow Addr) : Prop where
  not_pending : m.status ≠ .pending
  amount_pos : ∀ spec ∈ m.milestones, 0 < spec.amount

/-- The milestone escrow `id` is rewritten from `m` to `m'`; `gross` is paid out. -/
structure MilestoneSettlement [DecidableEq Addr] (home : Addr) (s t : Custody Addr) (id : ℕ)
    (m m' : MilestoneEscrow Addr) (gross : ℤ) : Prop where
  found : s.book.milestone id = some m
  escrow : t.book.escrow = s.book.escrow
  milestone : t.book.milestone = Function.update s.book.milestone id (some m')
  escrowCount : t.book.escrowCount = s.book.escrowCount
  milestoneCount : t.book.milestoneCount = s.book.milestoneCount
  flow : Tokens.Flow home m.tokenAddress 0 gross s.tokens t.tokens
  status : m'.status = m.status ∨ EscrowStatus.isValidTransition m.status m'.status = true
  owed : ∀ token, owedByMilestone token (some m') =
    owedByMilestone token (some m) - if token = m.tokenAddress then gross else 0
  invariant : MilestoneInvariant m'

structure MilestoneOpening [DecidableEq Addr] (home : Addr) (s t : Custody Addr)
    (m : MilestoneEscrow Addr) : Prop where
  escrow : t.book.escrow = s.book.escrow
  milestone : t.book.milestone =
    Function.update s.book.milestone (s.book.milestoneCount + 1) (some m)
  escrowCount : t.book.escrowCount = s.book.escrowCount
  milestoneCount : t.book.milestoneCount = s.book.milestoneCount + 1
  owed : ∀ token, owedByMilestone token (some m) =
    if token = m.tokenAddress then m.totalAmount else 0
  invariant : MilestoneInvariant m
  flow : Tokens.Flow home m.tokenAddress m.totalAmount 0 s.tokens t.tokens

/-- Only the milestone at the index changes what is unpaid. -/
theorem unpaid_set {ms : List MilestoneSpec} {statuses : List MilestoneStatus} {index : ℕ}
    {spec : MilestoneSpec} (status : MilestoneStatus) (hspec : ms[index]? = some spec)
    (hpending : statuses[index]? = some .pending) :
    unpaid ms (statuses.set index status) =
      unpaid ms statuses - if status = .completed then spec.amount else 0 := by
  induction ms generalizing statuses index with
  | nil => simp at hspec
  | cons m ms ih =>
    cases statuses with
    | nil => simp at hpending
    | cons st statuses =>
      cases index with
      | zero =>
        simp only [List.getElem?_cons_zero, Option.some.injEq] at hspec hpending
        subst hspec hpending
        by_cases hst : status = .completed
        · simp [unpaid, hst]
        · simp [unpaid, hst]
      | succ index =>
        simp only [List.getElem?_cons_succ] at hspec hpending
        simp only [List.set_cons_succ, unpaid, ih hspec hpending]
        ring

theorem unpaid_of_all_completed {ms : List MilestoneSpec} {statuses : List MilestoneStatus}
    (h : ∀ status ∈ statuses, status = .completed) : unpaid ms statuses = 0 := by
  induction ms generalizing statuses with
  | nil => simp [unpaid]
  | cons m ms ih =>
    cases statuses with
    | nil => simp [unpaid]
    | cons st statuses =>
      simp only [List.mem_cons, forall_eq_or_imp] at h
      simp [unpaid, h.1, ih h.2]

theorem unpaid_of_pending (ms : List MilestoneSpec) :
    unpaid ms (List.replicate ms.length .pending) = (ms.map MilestoneSpec.amount).sum := by
  induction ms with
  | nil => simp [unpaid]
  | cons m ms ih =>
    rw [List.length_cons, List.replicate_succ, unpaid, ih, List.map_cons, List.sum_cons]
    simp

theorem sumMilestones_eq {acc total : ℤ} {ms : List MilestoneSpec}
    (h : sumMilestones acc ms = .ok total) :
    total = acc + (ms.map MilestoneSpec.amount).sum := by
  induction ms generalizing acc with
  | nil =>
    obtain rfl := pure_eq_ok.mp h
    simp
  | cons m ms ih =>
    simp only [sumMilestones, bind_eq_ok, safeAdd_eq_ok] at h
    obtain ⟨_, ⟨-, rfl⟩, h⟩ := h
    rw [ih h, List.map_cons, List.sum_cons]
    ring

theorem validateMilestones_pos {ms : List MilestoneSpec} {u : Unit}
    (h : validateMilestones ms = .ok u) : ∀ m ∈ ms, 0 < m.amount := by
  induction ms with
  | nil => simp
  | cons m ms ih =>
    simp only [validateMilestones, bind_eq_ok, requirePositive_eq_ok, requireMax_eq_ok] at h
    obtain ⟨-, hpos, -, -, hrest⟩ := h
    simp only [List.mem_cons, forall_eq_or_imp]
    exact ⟨hpos, ih hrest⟩

theorem pendingMilestone_eq_ok {m : MilestoneEscrow Addr} {index : ℕ} {spec : MilestoneSpec}
    (h : pendingMilestone m index = .ok spec) :
    m.status = .active ∧ m.milestones[index]? = some spec ∧
      m.milestoneStatuses[index]? = some .pending := by
  simp only [pendingMilestone, bind_eq_ok, require_eq_ok, expect_eq_ok, pure_eq_ok] at h
  obtain ⟨-, hactive, _, hspec, _, hstatus, -, rfl, rfl⟩ := h
  exact ⟨hactive, hspec, hstatus⟩

variable [DecidableEq Addr] {self : Addr} {inv : Invocation Addr self} {c : Config Addr}
  {s t : Custody Addr}

theorem createMilestoneEscrow_spec {mentor learner token : Addr}
    {milestones : List MilestoneSpec} {x : Custody Addr × ℕ}
    (h : createMilestoneEscrow inv c s mentor learner milestones token = .ok x) :
    ∃ m, c.approvedToken m.tokenAddress = true ∧ MilestoneOpening self s x.1 m := by
  simp only [createMilestoneEscrow, bind_eq_ok, require_eq_ok, requirePositive_eq_ok,
    requireMax_eq_ok, requireAuth_eq_ok, u64_eq_ok, transitionStatus_eq_ok, pure_eq_ok] at h
  obtain ⟨-, -, -, happroved, _, hvalid, total, hsum, -, -, -, -, -, hauth, -, -, _, ⟨-, rfl⟩, tokens,
    hpay, _, ⟨-, rfl⟩, rfl⟩ := h
  have hflow := Tokens.transfer_flow_in (Env.ne_self_of_auth hauth) hpay
  have htotal := sumMilestones_eq hsum
  refine ⟨_, happroved, {
    escrow := rfl
    milestone := rfl
    escrowCount := rfl
    milestoneCount := rfl
    flow := hflow
    owed := fun tok => ?_
    invariant := ⟨by simp, validateMilestones_pos hvalid⟩ }⟩
  by_cases htok : token = tok
  · simp [owedByMilestone, EscrowStatus.IsTerminal, unpaid_of_pending, htotal, htok]
  · have htok' : ¬ tok = token := fun heq => htok heq.symm
    simp [owedByMilestone, htok, htok']

/-- The amount owed on a milestone escrow that stays open, after a payment of `gross`. -/
private theorem owedByMilestone_eq {m m' : MilestoneEscrow Addr} {gross : ℤ}
    (hopen : ¬ m.status.IsTerminal) (htoken : m'.tokenAddress = m.tokenAddress)
    (howed : (if m'.status.IsTerminal then 0 else unpaid m'.milestones m'.milestoneStatuses) =
      unpaid m.milestones m.milestoneStatuses - gross) (token : Addr) :
    owedByMilestone token (some m') =
      owedByMilestone token (some m) - if token = m.tokenAddress then gross else 0 := by
  by_cases htok : m.tokenAddress = token
  · simp only [owedByMilestone, htoken, htok, hopen, not_false_eq_true, and_true, true_and,
      if_true, ← howed]
    split_ifs <;> simp_all
  · have htok' : ¬ token = m.tokenAddress := fun heq => htok heq.symm
    simp [owedByMilestone, htoken, htok, htok']

theorem completeMilestone_spec {id index : ℕ} (hc : c.FeeCapped)
    (hs : ∀ m, s.book.milestone id = some m → MilestoneInvariant m)
    (h : completeMilestone inv c s id index = .ok t) :
    ∃ m m' gross, MilestoneSettlement self s t id m m' gross := by
  simp only [completeMilestone, bind_eq_ok, requireAuth_eq_ok, safeSub_eq_ok, safeAdd_eq_ok]
    at h
  obtain ⟨m, hload, spec, hpending, -, -, quote, hquote, _, ⟨-, rfl⟩, tokens, hpay, _, ⟨-, rfl⟩,
    _, ⟨-, rfl⟩, h⟩ := h
  have hm : s.book.milestone id = some m := by simpa [loadMilestone] using hload
  obtain ⟨hactive, hspec, hstatus⟩ := pendingMilestone_eq_ok hpending
  have hinv := hs m hm
  have hpos := hinv.amount_pos spec (List.mem_of_getElem? hspec)
  have hfee := (computeFeeUnified_isFee hc hquote).bounds hpos.le
  obtain ⟨-, hflow⟩ := payRelease_flow hfee.1 hpay
  have hpaid : Tokens.Flow self m.tokenAddress 0 spec.amount s.tokens tokens := by
    simpa using hflow
  have hopen : ¬ m.status.IsTerminal := by simp [hactive, EscrowStatus.IsTerminal]
  have hset := unpaid_set .completed hspec hstatus
  simp only [if_true] at hset
  split_ifs at h with hall
  · simp only [bind_eq_ok, transitionStatus_eq_ok, pure_eq_ok] at h
    obtain ⟨_, ⟨hvalid, rfl⟩, rfl⟩ := h
    have hzero : unpaid m.milestones (m.milestoneStatuses.set index .completed) = 0 :=
      unpaid_of_all_completed (by simpa using hall)
    refine ⟨m, _, spec.amount, ⟨hm, rfl, rfl, rfl, rfl, hpaid, .inr hvalid,
      owedByMilestone_eq hopen rfl ?_, ⟨by simp, hinv.amount_pos⟩⟩⟩
    simp only [EscrowStatus.IsTerminal, true_or, if_true]
    omega
  · obtain rfl := pure_eq_ok.mp h
    refine ⟨m, _, spec.amount, ⟨hm, rfl, rfl, rfl, rfl, hpaid, .inl rfl,
      owedByMilestone_eq hopen rfl ?_, ⟨hinv.not_pending, hinv.amount_pos⟩⟩⟩
    simp only [hopen, if_false]
    exact hset

theorem disputeMilestone_spec {id index : ℕ}
    (hs : ∀ m, s.book.milestone id = some m → MilestoneInvariant m)
    (h : disputeMilestone inv s id index = .ok t) :
    ∃ m m' gross, MilestoneSettlement self s t id m m' gross := by
  simp only [disputeMilestone, bind_eq_ok, requireAuth_eq_ok, transitionStatus_eq_ok,
    pure_eq_ok] at h
  obtain ⟨m, hload, spec, hpending, -, -, -, -, _, ⟨hvalid, rfl⟩, rfl⟩ := h
  have hm : s.book.milestone id = some m := by simpa [loadMilestone] using hload
  obtain ⟨hactive, hspec, hstatus⟩ := pendingMilestone_eq_ok hpending
  have hinv := hs m hm
  have hopen : ¬ m.status.IsTerminal := by simp [hactive, EscrowStatus.IsTerminal]
  have hset := unpaid_set .disputed hspec hstatus
  refine ⟨m, _, 0, ⟨hm, rfl, rfl, rfl, rfl, Tokens.Flow.refl _ _ _, .inr hvalid,
    owedByMilestone_eq hopen rfl ?_, ⟨by simp, hinv.amount_pos⟩⟩⟩
  simpa [EscrowStatus.IsTerminal] using hset

end Milestones

section Emergencies

variable {Addr : Type} [DecidableEq Addr] {self : Addr} {inv : Invocation Addr self}
  {c : Config Addr} {s : Custody Addr} {f : Failures}

theorem tryAutoRelease_spec {id : ℕ} {x : Custody Addr × Failures} (hc : c.FeeCapped)
    (hs : ∀ e, s.book.escrow id = some e → RecordInvariant e)
    (h : tryAutoRelease inv c s f id = .ok x) :
    x.1 = s ∨ ∃ e e' gross, Settlement self s x.1 id e e' gross ∧ Progress e e' gross := by
  simp only [tryAutoRelease, bind_eq_ok, loadEscrow_eq_ok, require_eq_ok] at h
  obtain ⟨e, he, -, hactive, _, -, -, -, -, -, -, -, h⟩ := h
  split_ifs at h with hpassed
  · simp only [bind_eq_ok, pure_eq_ok] at h
    obtain ⟨t, hrelease, rfl⟩ := h
    obtain ⟨e', hsettle, hprogress⟩ := doRelease_spec hc he (hs e he) hactive hrelease
    exact .inr ⟨e, e', e.amount, hsettle, hprogress⟩
  · simp only [bind_eq_ok, pure_eq_ok] at h
    obtain ⟨_, -, rfl⟩ := h
    exact .inl rfl

theorem manualRecoveryRelease_spec {id : ℕ} {reasonHash : Hash} {x : Custody Addr × Failures}
    (hc : c.FeeCapped) (hs : ∀ e, s.book.escrow id = some e → RecordInvariant e)
    (h : manualRecoveryRelease inv c s f id reasonHash = .ok x) :
    ∃ e e' gross, Settlement self s x.1 id e e' gross ∧ Progress e e' gross := by
  simp only [manualRecoveryRelease, bind_eq_ok, storedAdmin_eq_ok, expect_eq_ok, require_eq_ok,
    loadEscrow_eq_ok, pure_eq_ok] at h
  obtain ⟨_, -, _, -, -, -, -, -, e, he, -, hactive, t, hrelease, rfl⟩ := h
  obtain ⟨e', hsettle, hprogress⟩ := doReleaseSimple_spec hc he (hs e he) hactive hrelease
  exact ⟨e, e', e.amount, hsettle, hprogress⟩

theorem Attempt.custody {em : Emergency Addr} {caller : Addr} {actionId : ℕ}
    {action : EmergencyAction Addr} {x : Execution Addr} (hc : c.FeeCapped)
    (hs : ∀ id e, s.book.escrow id = some e → RecordInvariant e)
    (h : Attempt inv c s f em caller actionId action x) :
    x.custody = s ∨ ∃ e e' gross, Settlement self s x.custody action.escrowId e e' gross ∧
      Progress e e' gross := by
  obtain rfl | ⟨_, e, _, -, hgates, hrelease, -, -⟩ := h.outcome
  · exact .inl rfl
  · obtain ⟨e', hsettle, hprogress⟩ :=
      doReleaseSimple_spec hc hgates.found (hs _ e hgates.found) hgates.active hrelease
    exact .inr ⟨e, e', e.amount, hsettle, hprogress⟩

end Emergencies

section Movements

variable {Addr : Type} [DecidableEq Addr]

omit [DecidableEq Addr] in
/-- The proposal that a rollback executes. -/
def Call.rollbackProposal : Call Addr → Option ℕ
  | .emergencyRollback proposalId _ => some proposalId
  | .rollbackToSnapshot proposalId => some proposalId
  | _ => none

/-- The step executes a rollback proposal that is ready, and `records` is its snapshot. -/
def Restores {home : Addr} (step : Step Addr home) (s : State Addr)
    (records : List (EscrowRecord Addr)) : Prop :=
  ∃ proposalId rollback, step.2.rollbackProposal = some proposalId ∧
    s.recovery.rollback proposalId = some rollback ∧
    rollbackGates s.emergency s.recovery rollback step.1.timestamp = .ok true ∧
    s.recovery.snapshot rollback.snapshotId = some records

/-- What a successful step does to the escrows and to the contract's tokens. -/
inductive Movement {home : Addr} (step : Step Addr home) (s t : State Addr) : Prop
  | idle (book : s.custody.book.SameEscrows t.custody.book)
      (balance : ∀ token, t.custody.tokens.balance token home = s.custody.tokens.balance token home)
      (transfers : t.custody.tokens.transfers = s.custody.tokens.transfers)
  | initialized (fresh : s.config.admin = none)
      (book : t.custody.book = { s.custody.book with escrowCount := 0, milestoneCount := 0 })
      (tokens : t.custody.tokens = s.custody.tokens)
  | opened (e : EscrowRecord Addr) (approved : s.config.approvedToken e.tokenAddress = true)
      (opening : Opening home s.custody t.custody e)
  | settled (id : ℕ) (e e' : EscrowRecord Addr) (gross : ℤ)
      (settlement : Settlement home s.custody t.custody id e e' gross)
      (progress : Progress e e' gross)
  | milestoneOpened (m : MilestoneEscrow Addr)
      (approved : s.config.approvedToken m.tokenAddress = true)
      (opening : MilestoneOpening home s.custody t.custody m)
  | milestoneSettled (id : ℕ) (m m' : MilestoneEscrow Addr) (gross : ℤ)
      (settlement : MilestoneSettlement home s.custody t.custody id m m' gross)
  | rolledBack (records : List (EscrowRecord Addr)) (restores : Restores step s records)
      (book : t.custody.book = restoreRecords s.custody.book records)
      (tokens : t.custody.tokens = s.custody.tokens)

/-- The part of a state's health that the movements of money depend on. -/
structure Sound (s : State Addr) : Prop where
  feeCapped : s.config.FeeCapped
  record : ∀ id e, s.custody.book.escrow id = some e → RecordInvariant e
  milestone : ∀ id m, s.custody.book.milestone id = some m → MilestoneInvariant m

variable {self : Addr} {inv : Invocation Addr self} {digests : Digests} {s t : State Addr}
  {step : Step Addr self}

theorem Movement.of_custody_eq (h : t.custody = s.custody) : Movement step s t :=
  .idle (h ▸ .refl _) (fun _ => by rw [h]) (by rw [h])

theorem Movement.of_settled {id : ℕ} (h : ∃ e e' gross,
    Settlement self s.custody t.custody id e e' gross ∧ Progress e e' gross) :
    Movement step s t := by
  obtain ⟨e, e', gross, hsettle, hprogress⟩ := h
  exact .settled id e e' gross hsettle hprogress

theorem Movement.of_milestoneSettled {id : ℕ} (h : ∃ m m' gross,
    MilestoneSettlement self s.custody t.custody id m m' gross) : Movement step s t := by
  obtain ⟨m, m', gross, hsettle⟩ := h
  exact .milestoneSettled id m m' gross hsettle

/-- The price cache is all that changes. -/
theorem Movement.of_price {price : PriceCache}
    (h : t.custody = { s.custody with price := price }) : Movement step s t :=
  .idle (h ▸ .refl _) (fun _ => by rw [h]) (by rw [h])

theorem execCustody_movement {call : CustodyCall Addr} {custody : Custody Addr}
    (hs : Sound s)
    (h : execCustody inv digests s.config s.payments.isolated call s.custody = .ok custody) :
    Movement step s { s with custody := custody } := by
  have hc := hs.feeCapped
  have hrecord := hs.record
  have hmilestone := hs.milestone
  cases call with
  | getDynamicFee =>
    simp only [execCustody, bind_eq_ok, pure_eq_ok] at h
    obtain ⟨_, -, rfl⟩ := h
    exact .of_price rfl
  | computePlatformFee mentor amount =>
    simp only [execCustody, bind_eq_ok, pure_eq_ok] at h
    obtain ⟨_, -, rfl⟩ := h
    exact .of_price rfl
  | createEscrow mentor learner amount sessionId token sessionEndTime totalSessions =>
    simp only [execCustody, createEscrow, bind_eq_ok, pure_eq_ok] at h
    obtain ⟨x, hcreate, rfl⟩ := h
    obtain ⟨e, happroved, he⟩ := createEscrowInternal_spec hcreate
    exact .opened e happroved he
  | createEscrowUsd usdAmount =>
    simp [execCustody, createEscrowUsd] at h
  | createEscrowWithPathPayment learner mentor sendAsset sendMax destAsset destAmount
      totalSessions =>
    simp only [execCustody, createEscrowWithPathPayment, bind_eq_ok, pure_eq_ok] at h
    obtain ⟨x, ⟨-, -, -, -, -, -, -, -, -, -, -, -, -, -, hcreate⟩, rfl⟩ := h
    obtain ⟨e, happroved, he⟩ := createEscrowInternal_spec hcreate
    exact .opened e happroved he
  | releaseFunds caller id => exact .of_settled (releaseFunds_spec hc (hrecord id) h)
  | releasePartial caller id =>
    obtain ⟨e, fee, hactive, hle, hfee, hsettle⟩ := releasePartial_spec hc (hrecord id) h
    exact .settled _ _ _ _ hsettle
      (afterSessions_progress (hrecord id e hsettle.found) hactive hle hfee)
  | batchRelease admin id sessions =>
    obtain ⟨e, fee, hactive, -, hle, hfee, hsettle⟩ := batchRelease_spec hc (hrecord id) h
    exact .settled _ _ _ _ hsettle
      (afterSessions_progress (hrecord id e hsettle.found) hactive hle hfee)
  | adminRelease id => exact .of_settled (adminRelease_spec hc (hrecord id) h)
  | dispute caller id reason => exact .of_settled (dispute_spec (hrecord id) h)
  | resolveDispute id mentorPct => exact .of_settled (resolveDispute_spec (hrecord id) h)
  | refund id => exact .of_settled (refund_spec (hrecord id) h)
  | createMilestoneEscrow mentor learner milestones token =>
    simp only [execCustody, bind_eq_ok, pure_eq_ok] at h
    obtain ⟨x, hcreate, rfl⟩ := h
    obtain ⟨m, happroved, hm⟩ := createMilestoneEscrow_spec hcreate
    exact .milestoneOpened m happroved hm
  | completeMilestone id index =>
    exact .of_milestoneSettled (completeMilestone_spec hc (hmilestone id) h)
  | disputeMilestone id index =>
    exact .of_milestoneSettled (disputeMilestone_spec (hmilestone id) h)

theorem emergencyRollback_movement {proposalId : ℕ} {executor : Addr}
    {x : Book Addr × Recovery Addr × Bool} (hstep : step.2.rollbackProposal = some proposalId)
    (h : emergencyRollback step.1 s.custody.book s.emergency s.recovery proposalId executor =
      .ok x) : Movement step s (s.afterRollback x) := by
  obtain ⟨rollback, hfound, ⟨-, rfl⟩ | ⟨hready, records, hrecords, hbook, -⟩⟩ :=
    emergencyRollback_spec h
  · exact .of_custody_eq rfl
  · exact .rolledBack records ⟨proposalId, rollback, hstep, hfound, hready, hrecords⟩ hbook rfl

theorem exec_movement {call : Call Addr} (hs : Sound s)
    (h : exec digests inv call s = .ok t) : Movement (inv, call) s t := by
  have hc := hs.feeCapped
  have hrecord := hs.record
  cases call with
  | initializeEscrow admin treasury feeBps approvedTokens delay =>
    simp only [exec, initializeConfig, bind_eq_ok, require_eq_ok, pure_eq_ok] at h
    obtain ⟨_, ⟨-, hfresh, -, -, -⟩, rfl⟩ := h
    exact .initialized hfresh rfl rfl
  | config call =>
    simp only [exec, bind_eq_ok, pure_eq_ok] at h
    obtain ⟨_, -, rfl⟩ := h
    exact .of_custody_eq rfl
  | custody call =>
    simp only [exec, bind_eq_ok, pure_eq_ok] at h
    obtain ⟨custody, hcall, rfl⟩ := h
    exact execCustody_movement hs hcall
  | recovery call =>
    simp only [exec, bind_eq_ok, pure_eq_ok] at h
    obtain ⟨_, -, rfl⟩ := h
    exact .of_custody_eq rfl
  | payments call =>
    simp only [exec, bind_eq_ok, pure_eq_ok] at h
    obtain ⟨_, -, rfl⟩ := h
    exact .of_custody_eq rfl
  | tryAutoRelease id =>
    simp only [exec, bind_eq_ok, pure_eq_ok] at h
    obtain ⟨x, hcall, rfl⟩ := h
    obtain hx | hx := tryAutoRelease_spec hc (hrecord id) hcall
    · exact .of_custody_eq hx
    · exact .of_settled hx
  | reportStuckEscrow reporter id =>
    simp only [exec, bind_eq_ok, pure_eq_ok] at h
    obtain ⟨_, -, rfl⟩ := h
    exact .of_custody_eq rfl
  | manualRecoveryRelease id reasonHash =>
    simp only [exec, bind_eq_ok, pure_eq_ok] at h
    obtain ⟨x, hcall, rfl⟩ := h
    exact .of_settled (manualRecoveryRelease_spec hc (hrecord id) hcall)
  | setEmergencySigners admin signers =>
    simp only [exec, bind_eq_ok, pure_eq_ok] at h
    obtain ⟨_, -, rfl⟩ := h
    exact .of_custody_eq rfl
  | grantEmergencyAdmin admin emergencyAdmin =>
    simp only [exec, bind_eq_ok, pure_eq_ok] at h
    obtain ⟨_, -, rfl⟩ := h
    exact .of_custody_eq rfl
  | proposeEmergencyAction proposer id reasonHash =>
    simp only [exec, bind_eq_ok, pure_eq_ok] at h
    obtain ⟨_, -, rfl⟩ := h
    exact .of_custody_eq rfl
  | approveEmergencyAction signer actionId =>
    simp only [exec, bind_eq_ok, pure_eq_ok] at h
    obtain ⟨_, -, rfl⟩ := h
    exact .of_custody_eq rfl
  | executeEmergencyAction caller actionId =>
    simp only [exec, bind_eq_ok, pure_eq_ok] at h
    obtain ⟨x, hcall, rfl⟩ := h
    obtain ⟨action, hattempt⟩ := executeEmergencyAction_spec hcall
    obtain hx | hx := hattempt.custody hc hrecord
    · exact .of_custody_eq hx
    · exact .of_settled hx
  | emergencyRelease caller id reasonHash actionId =>
    simp only [exec, bind_eq_ok, pure_eq_ok] at h
    obtain ⟨x, hcall, rfl⟩ := h
    obtain ⟨action, hattempt⟩ := executeEmergencyAction_spec (emergencyRelease_spec hcall)
    obtain hx | hx := hattempt.custody hc hrecord
    · exact .of_custody_eq hx
    · exact .of_settled hx
  | emergencyRollback proposalId executor =>
    simp only [exec, bind_eq_ok, pure_eq_ok] at h
    obtain ⟨x, hcall, rfl⟩ := h
    exact emergencyRollback_movement rfl hcall
  | rollbackToSnapshot proposalId =>
    simp only [exec, rollbackToSnapshot, bind_eq_ok, require_eq_ok, pure_eq_ok] at h
    obtain ⟨x, ⟨_, hcall, -, -, rfl⟩, rfl⟩ := h
    exact emergencyRollback_movement rfl hcall
  | disputePayment caller id reason =>
    simp only [exec, disputePayment, bind_eq_ok, pure_eq_ok] at h
    obtain ⟨x, ⟨custody, hcall, rfl⟩, rfl⟩ := h
    exact .of_settled (dispute_spec (hrecord id) hcall)
  | resolveDisputeSecure admin id mentorPct =>
    simp only [exec, resolveDisputeSecure, bind_eq_ok, require_eq_ok, pure_eq_ok] at h
    obtain ⟨x, ⟨_, -, -, -, -, -, -, -, custody, hcall, rfl⟩, rfl⟩ := h
    exact .of_settled (resolveDispute_spec (hrecord id) hcall)
  | submitReview caller id reason =>
    simp only [exec, bind_eq_ok, pure_eq_ok] at h
    obtain ⟨_, -, rfl⟩ := h
    exact .of_custody_eq rfl
  | monitorEscrowInvariants id =>
    simp only [exec, bind_eq_ok, pure_eq_ok] at h
    obtain ⟨_, -, rfl⟩ := h
    exact .of_custody_eq rfl
  | tokenActivity token holder balance =>
    simp only [exec, bind_eq_ok, require_eq_ok, pure_eq_ok] at h
    obtain ⟨_, ⟨hholder, -⟩, rfl⟩ := h
    refine .idle (.refl _) (fun tok => ?_) rfl
    by_cases htok : tok = token
    · subst htok
      simp [Function.update_of_ne (Ne.symm hholder)]
    · simp [Function.update_of_ne htok]

end Movements

end Escrow
