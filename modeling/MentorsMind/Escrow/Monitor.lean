import MentorsMind.Escrow.Changes

/-! The monitor compares what was released with what is left. A release moves money from
one side to the other, so the check holds only while no more was released than is left. -/
namespace Escrow
open Outcome Soroban Shared

section Accounts

variable {Addr : Type}

/-- What the two payout fields of a record say about its deposit. -/
structure Accounted (e : EscrowRecord Addr) : Prop where
  fee_nonneg : 0 ≤ e.platformFee
  net_nonneg : 0 ≤ e.netAmount
  amount_le : e.amount ≤ e.quotedTokenAmount
  paid_eq : e.status ≠ .resolved → e.platformFee + e.netAmount = e.quotedTokenAmount - e.amount
  resolved_eq : e.status = .resolved → e.platformFee + e.netAmount = e.amount
  released_eq : e.status = .released → e.amount = 0

theorem Opening.accounted [DecidableEq Addr] {home : Addr} {s t : Custody Addr}
    {e : EscrowRecord Addr} (h : Opening home s t e) : Accounted e where
  fee_nonneg := h.fee.ge
  net_nonneg := h.net.ge
  amount_le := h.quoted_eq.ge
  paid_eq := by
    intro _
    rw [h.fee, h.net, h.quoted_eq]
    omega
  resolved_eq := by
    intro hresolved
    rw [h.status] at hresolved
    cases hresolved
  released_eq := by
    intro hreleased
    rw [h.status] at hreleased
    cases hreleased

/-- Sessions that are released move their worth from the amount to the payouts. -/
theorem Accounted.afterSessions {e : EscrowRecord Addr} (he : RecordInvariant e)
    (h : Accounted e) (hactive : e.status = .active) {n : ℕ} {fee : ℤ}
    (hfee : IsFee (grossOf e n) fee) : Accounted (afterSessions e n (grossOf e n) fee) := by
  have hgross := grossOf_nonneg he n
  have hbounds := hfee.bounds hgross
  have hfee_nonneg := h.fee_nonneg
  have hnet_nonneg := h.net_nonneg
  have hamount := h.amount_le
  have hpaid := h.paid_eq (by rw [hactive]; decide)
  refine ⟨?_, ?_, ?_, ?_, ?_, ?_⟩
  · show 0 ≤ e.platformFee + fee
    omega
  · show 0 ≤ e.netAmount + (grossOf e n - fee)
    omega
  · show e.amount - grossOf e n ≤ e.quotedTokenAmount
    omega
  · intro _
    show e.platformFee + fee + (e.netAmount + (grossOf e n - fee)) =
      e.quotedTokenAmount - (e.amount - grossOf e n)
    omega
  · intro hresolved
    simp only [Escrow.afterSessions, hactive] at hresolved
    split_ifs at hresolved
  · intro hreleased
    simp only [Escrow.afterSessions, hactive] at hreleased ⊢
    split_ifs at hreleased with hlast
    simp [grossOf, hlast]

theorem RecordChange.accounted {now : ℕ} {e e' : EscrowRecord Addr} (he : RecordInvariant e)
    (h : RecordChange now e e') (hacc : Accounted e) : Accounted e' := by
  have hfee_nonneg := hacc.fee_nonneg
  have hnet_nonneg := hacc.net_nonneg
  have hamount := hacc.amount_le
  cases h with
  | released fee active isFee =>
    have hbounds := isFee.bounds he.amount_nonneg
    have hpaid := hacc.paid_eq (by rw [active]; decide)
    refine ⟨?_, ?_, he.quoted_nonneg, ?_, nofun, fun _ => rfl⟩
    · show 0 ≤ e.platformFee + fee
      omega
    · show 0 ≤ e.netAmount + (e.amount - fee)
      omega
    · intro _
      show e.platformFee + fee + (e.netAmount + (e.amount - fee)) = e.quotedTokenAmount - 0
      omega
  | sessions n fee active pos le isFee => exact hacc.afterSessions he active isFee
  | disputed reason active =>
    exact ⟨hfee_nonneg, hnet_nonneg, hamount, fun _ => hacc.paid_eq (by rw [active]; decide),
      nofun, nofun⟩
  | resolved mentorAmount disputed nonneg le =>
    refine ⟨?_, nonneg, hamount, fun hne => absurd rfl hne, ?_, nofun⟩
    · show 0 ≤ e.amount - mentorAmount
      omega
    · intro _
      show e.amount - mentorAmount + mentorAmount = e.amount
      omega
  | refunded live =>
    refine ⟨hfee_nonneg, hnet_nonneg, hamount, fun _ => hacc.paid_eq ?_, nofun, nofun⟩
    rcases live with hactive | hdisputed
    · rw [hactive]; decide
    · rw [hdisputed]; decide

theorem accounted_rule [DecidableEq Addr] : RecordRule (@Accounted Addr) where
  new _ _ _ _ _ hopening _ := hopening.accounted
  change _ _ _ he h hacc := h.accounted he hacc

end Accounts

section Reports

variable {Addr : Type} [DecidableEq Addr] {self : Addr}

omit [DecidableEq Addr] in
/-- No check of the monitor fails on a record whose payouts are within its amount. -/
theorem monitorEscrowInvariants_violationCount (inv : Invocation Addr self) {b : Book Addr}
    {id : ℕ} {e : EscrowRecord Addr} (hfound : b.escrow id = some e) (he : RecordInvariant e)
    (hacc : Accounted e) :
    ∃ report, monitorEscrowInvariants inv b id = .ok report ∧
      (report.violationCount = 0 ↔ e.platformFee + e.netAmount ≤ e.amount) := by
  have hfee := hacc.fee_nonneg
  have hnet := hacc.net_nonneg
  have hamount := he.amount_nonneg
  have hcompleted := he.completed_le
  have hquoted := he.quoted_le
  have hle := hacc.amount_le
  have htotal : e.platformFee + e.netAmount ≤ e.quotedTokenAmount := by
    by_cases hresolved : e.status = .resolved
    · rw [hacc.resolved_eq hresolved]
      exact hle
    · rw [hacc.paid_eq hresolved]
      omega
  have hsaturate : saturateI128 (e.platformFee + e.netAmount) = e.platformFee + e.netAmount := by
    unfold maxFinancialAmount at hquoted
    unfold saturateI128
    omega
  unfold monitorEscrowInvariants
  rw [show loadEscrow b id = .ok e from loadEscrow_eq_ok.mpr hfound, ok_bind, hsaturate]
  refine ⟨_, rfl, ?_⟩
  by_cases hconserved : e.platformFee + e.netAmount ≤ e.amount
  · have hreleased : e.status = .released → e.amount = 0 := hacc.released_eq
    have hwithin : e.platformFee ≤ e.amount := by omega
    simp only [hconserved, iff_true]
    by_cases hst : e.status = .released
    · simp [hfee, hnet, hcompleted, hst, hreleased hst]
    · simp [hamount, hfee, hnet, hcompleted, hst, hwithin]
  · simp [hconserved]

/-- After every run the monitor passes a record exactly when it is resolved, or no more
than half of its deposit was released. -/
theorem monitorEscrowInvariants_violationCount_iff (digests : Digests)
    (balance : Addr → Addr → ℤ) (steps : List (Step Addr self)) (inv : Invocation Addr self)
    {id : ℕ} {e : EscrowRecord Addr}
    (hfound : ((machine self digests).run (deployed balance) steps).custody.book.escrow id =
      some e) :
    ∃ report, monitorEscrowInvariants inv
        ((machine self digests).run (deployed balance) steps).custody.book id = .ok report ∧
      (report.violationCount = 0 ↔
        e.status = .resolved ∨ e.quotedTokenAmount ≤ 2 * e.amount) := by
  have hs := run_everywhere accounted_rule digests balance steps
  have hacc := hs.stored id e hfound
  obtain ⟨report, hreport, hcount⟩ := monitorEscrowInvariants_violationCount inv hfound
    (hs.wellFormed.book.record id e hfound) hacc
  refine ⟨report, hreport, hcount.trans ?_⟩
  by_cases hresolved : e.status = .resolved
  · have hpaid := hacc.resolved_eq hresolved
    simp only [hresolved, true_or, iff_true]
    omega
  · have hpaid := hacc.paid_eq hresolved
    simp only [hresolved, false_or]
    omega

end Reports

/-- The learner 3 books a session for 100, and it is released in full. -/
def releasedRun : List (Step ℕ 0) :=
  [(grantedByAll 0, .initializeEscrow 1 2 500 [9] 0),
    (grantedByAll 0, .custody (.createEscrow 4 3 100 "session" 9 0 1)),
    (grantedByAll 0, .custody (.adminRelease 1))]

/-- The record that `releasedRun` leaves. -/
def releasedRecord : EscrowRecord ℕ where
  id := 1
  mentor := 4
  learner := 3
  amount := 0
  sessionId := "session"
  status := .released
  createdAt := 0
  tokenAddress := 9
  platformFee := 5
  netAmount := 95
  sessionEndTime := 0
  autoReleaseDelay := 259200
  disputeReason := ""
  resolvedAt := 0
  usdAmount := 0
  quotedTokenAmount := 100
  sendAsset := 9
  destAsset := 9
  totalSessions := 1
  sessionsCompleted := 0

theorem monitorEscrowInvariants_violationCount_releasedRun :
    ∃ report, monitorEscrowInvariants (grantedByAll 0)
        ((machine 0 lengthDigests).run (deployed learnerFunds) releasedRun).custody.book 1 =
          .ok report ∧
      (report.violationCount = 0 ↔ releasedRecord.status = .resolved ∨
        releasedRecord.quotedTokenAmount ≤ 2 * releasedRecord.amount) :=
  monitorEscrowInvariants_violationCount_iff lengthDigests learnerFunds releasedRun
    (grantedByAll 0) (e := releasedRecord) rfl

/-- A plain release, and the monitor counts a violation. -/
theorem releasedRun_violation :
    (monitorEscrowInvariants (grantedByAll 0) ((machine 0 lengthDigests).run
      (deployed learnerFunds) releasedRun).custody.book 1).toOption.map
        EscrowInvariantReport.violationCount = some 1 := by
  decide

end Escrow
