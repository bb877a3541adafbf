import MentorsMind.Escrow.MilestoneProgress

/-! The platform fee of every release: it is at most a tenth of what is released, the mentor
gets the rest, and computing it never fails. -/
namespace Escrow
open Outcome Soroban Shared

/-- An amount is divided into a fee of at most 1000 basis points and the rest. -/
structure Split (amount fee net : ℤ) : Prop where
  fee_nonneg : 0 ≤ fee
  fee_le : fee ≤ amount * 1000 / 10000
  sum_eq : fee + net = amount

theorem IsFee.split {amount fee : ℤ} (h : IsFee amount fee) (hamount : 0 ≤ amount) :
    Split amount fee (amount - fee) := by
  have hbounds := h.bounds hamount
  obtain ⟨bps, hbps, rfl⟩ := h.rate
  have hproduct : 0 ≤ amount * (bps : ℤ) := by positivity
  have hcap : (bps : ℤ) ≤ 1000 := by exact_mod_cast hbps
  refine ⟨hbounds.1, ?_, by omega⟩
  rw [Int.tdiv_eq_ediv_of_nonneg hproduct]
  exact Int.ediv_le_ediv (by norm_num) (mul_le_mul_of_nonneg_left hcap hamount)

theorem Split.net_nonneg {amount fee net : ℤ} (h : Split amount fee net) (hamount : 0 ≤ amount) :
    0 ≤ net := by
  have hle := h.fee_le
  have hsum := h.sum_eq
  omega

/-- The fee on the amount and the rest can be computed, and divide it. -/
def Splits (fee : ℤ → Result ℤ) (amount : ℤ) : Prop :=
  ∃ x net, fee amount = .ok x ∧ safeSub amount x = .ok net ∧ Split amount x net

section Fees

variable {Addr : Type} {self : Addr} {inv : Invocation Addr self} {c : Config Addr}

/-- The fee that `computeFeeUnified` quotes. -/
def unifiedFee (inv : Invocation Addr self) (c : Config Addr) (cache : PriceCache)
    (mentor : Addr) (amount : ℤ) : Result ℤ := do
  let quote ← computeFeeUnified inv c cache mentor amount
  pure quote.fee

theorem splits_of_isFee {fee : ℤ → Result ℤ} {amount : ℤ} (hpos : 0 ≤ amount)
    (hmax : amount ≤ maxFinancialAmount) (htotal : ∃ x, fee amount = .ok x)
    (hfee : ∀ x, fee amount = .ok x → IsFee amount x) : Splits fee amount := by
  obtain ⟨x, hx⟩ := htotal
  have hsplit := (hfee x hx).split hpos
  have hnonneg := hsplit.fee_nonneg
  have hnet := hsplit.net_nonneg hpos
  refine ⟨x, amount - x, hx, ?_, hsplit⟩
  rw [safeSub_eq_ok]
  unfold FitsI128 maxFinancialAmount at *
  omega

theorem flatFee_splits {amount : ℤ} (hc : c.Paying) (hcap : c.FeeCapped)
    (hadmin : c.admin ≠ none) (hpos : 0 ≤ amount) (hmax : amount ≤ maxFinancialAmount) :
    Splits (flatFee c) amount :=
  splits_of_isFee hpos hmax (flatFee_total hc hcap hadmin hpos hmax)
    (fun _ hx => flatFee_isFee hcap hx)

theorem unifiedFee_splits (cache : PriceCache) {mentor : Addr} {amount : ℤ} (hc : c.Paying)
    (hcap : c.FeeCapped) (hadmin : c.admin ≠ none) (htiers : TierAnswers inv c mentor)
    (hpos : 0 ≤ amount) (hmax : amount ≤ maxFinancialAmount) :
    Splits (unifiedFee inv c cache mentor) amount := by
  apply splits_of_isFee hpos hmax
  · obtain ⟨quote, hquote⟩ := computeFeeUnified_total cache hc hcap hadmin htiers hpos hmax
    exact ⟨quote.fee, by simp [unifiedFee, hquote]⟩
  · intro x hx
    simp only [unifiedFee, bind_eq_ok, pure_eq_ok] at hx
    obtain ⟨quote, hquote, rfl⟩ := hx
    exact computeFeeUnified_isFee hcap hquote

end Fees

section Releases

variable {Addr : Type} {self : Addr}

/-- The numbers of a release: its gross amount, the fee on an amount, what stays on the record
after an amount, and the totals of the record before. -/
structure Release where
  gross : Result ℤ
  fee : ℤ → Result ℤ
  left : ℤ → Result ℤ
  platformFee : ℤ
  netAmount : ℤ

/-- What a release pays, and what it books on the record. -/
structure Amounts where
  gross : ℤ
  fee : ℤ
  net : ℤ
  left : ℤ
  platformFee : ℤ
  netAmount : ℤ

/-- All the arithmetic of a release. -/
def Release.amounts (r : Release) : Result Amounts := do
  let gross ← r.gross
  let fee ← r.fee gross
  let net ← safeSub gross fee
  let left ← r.left gross
  let platformFee ← safeAdd r.platformFee fee
  let netAmount ← safeAdd r.netAmount net
  pure ⟨gross, fee, net, left, platformFee, netAmount⟩

/-- A release of the gross amount off the record of an escrow. -/
def recordRelease (e : EscrowRecord Addr) (gross : Result ℤ) (fee : ℤ → Result ℤ) :
    Release :=
  ⟨gross, fee, safeSub e.amount, e.platformFee, e.netAmount⟩

/-- The release of a milestone, which leaves the total of the escrow as it is. -/
def milestoneRelease (m : MilestoneEscrow Addr) (amount : ℤ) (fee : ℤ → Result ℤ) :
    Release :=
  ⟨pure amount, fee, fun _ => pure m.totalAmount, m.platformFee, m.netAmount⟩

/-- The ways money is released, each behind the checks on the record that its entry points
make: in full by `release_funds`, `admin_release` and `try_auto_release`, in full at the flat
rate by a manual recovery or an emergency, session by session, in a batch, and by milestone. -/
inductive ReleasePath (inv : Invocation Addr self) (c : Config Addr) (cache : PriceCache)
    (b : Book Addr) : Release → Prop
  | full (id : ℕ) (e : EscrowRecord Addr) (found : b.escrow id = some e)
      (active : e.status = .active) (tiers : TierAnswers inv c e.mentor) :
      ReleasePath inv c cache b (recordRelease e (pure e.amount) (unifiedFee inv c cache e.mentor))
  | simple (id : ℕ) (e : EscrowRecord Addr) (found : b.escrow id = some e)
      (active : e.status = .active) :
      ReleasePath inv c cache b (recordRelease e (pure e.amount) (flatFee c))
  | session (id : ℕ) (e : EscrowRecord Addr) (found : b.escrow id = some e)
      (active : e.status = .active) (remaining : e.sessionsCompleted < e.totalSessions)
      (tiers : TierAnswers inv c e.mentor) :
      ReleasePath inv c cache b
        (recordRelease e (sessionAmount e) (unifiedFee inv c cache e.mentor))
  | batch (id : ℕ) (e : EscrowRecord Addr) (sessions : ℕ) (found : b.escrow id = some e)
      (active : e.status = .active) (nonzero : sessions ≠ 0)
      (remaining : sessions ≤ e.totalSessions - e.sessionsCompleted)
      (tiers : TierAnswers inv c e.mentor) :
      ReleasePath inv c cache b
        (recordRelease e (batchAmount e sessions) (unifiedFee inv c cache e.mentor))
  | milestone (id : ℕ) (m : MilestoneEscrow Addr) (index : ℕ) (spec : MilestoneSpec)
      (found : b.milestone id = some m) (pending : pendingMilestone m index = .ok spec)
      (tiers : TierAnswers inv c m.mentor) :
      ReleasePath inv c cache b (milestoneRelease m spec.amount (unifiedFee inv c cache m.mentor))

/-- A release whose amounts stay within what was deposited computes. -/
theorem Release.amounts_of_splits {r : Release} {gross : ℤ} (hgross : r.gross = .ok gross)
    (hnonneg : 0 ≤ gross) (hsplits : Splits r.fee gross) (hleft : ∃ x, r.left gross = .ok x)
    (hfees : 0 ≤ r.platformFee) (hnets : 0 ≤ r.netAmount)
    (hdeposit : r.platformFee + r.netAmount + gross ≤ maxFinancialAmount) :
    ∃ a, r.amounts = .ok a ∧ Split a.gross a.fee a.net := by
  obtain ⟨fee, net, hfee, hnet, hsplit⟩ := hsplits
  obtain ⟨left, hleft⟩ := hleft
  have hfee_nonneg := hsplit.fee_nonneg
  have hnet_nonneg := hsplit.net_nonneg hnonneg
  have hsum := hsplit.sum_eq
  have hplatform : safeAdd r.platformFee fee = .ok (r.platformFee + fee) := by
    rw [safeAdd_eq_ok]
    unfold FitsI128 maxFinancialAmount at *
    omega
  have hmentor : safeAdd r.netAmount net = .ok (r.netAmount + net) := by
    rw [safeAdd_eq_ok]
    unfold FitsI128 maxFinancialAmount at *
    omega
  refine ⟨⟨gross, fee, net, left, r.platformFee + fee, r.netAmount + net⟩, ?_, hsplit⟩
  simp only [Release.amounts, hgross, hfee, hnet, hleft, hplatform, hmentor, ok_bind]
  rfl

/-- A release computes where its amount is within what the record still holds. -/
theorem recordRelease_amounts {e : EscrowRecord Addr} (he : RecordInvariant e)
    (hactive : e.status = .active) {gross : Result ℤ} {fee : ℤ → Result ℤ} {n : ℤ}
    (hgross : gross = .ok n) (hnonneg : 0 ≤ n) (hle : n ≤ e.amount) (hsplits : Splits fee n) :
    ∃ a, (recordRelease e gross fee).amounts = .ok a ∧ Split a.gross a.fee a.net := by
  have hlive := he.live (.inl hactive)
  have hreleased := hlive.released_eq
  have hquoted := he.quoted_le
  have hamount := he.amount_nonneg
  have hfees := hlive.fee_nonneg
  have hnets := hlive.net_nonneg
  apply Release.amounts_of_splits (r := recordRelease e gross fee) hgross hnonneg hsplits
  · refine ⟨e.amount - n, ?_⟩
    show safeSub e.amount n = .ok (e.amount - n)
    rw [safeSub_eq_ok]
    unfold FitsI128 maxFinancialAmount at *
    omega
  · exact hfees
  · exact hnets
  · show e.platformFee + e.netAmount + n ≤ maxFinancialAmount
    omega

end Releases

section Entries

variable {Addr : Type} [DecidableEq Addr] {self : Addr} {inv : Invocation Addr self}
  {c : Config Addr} {s t : Custody Addr} {e : EscrowRecord Addr} {id : ℕ} {actor : Addr}

/-- The record with a release booked on it. -/
def Amounts.record (a : Amounts) (e : EscrowRecord Addr) : EscrowRecord Addr :=
  { e with amount := a.left, platformFee := a.platformFee, netAmount := a.netAmount }

/-- What `settleRelease` books is what the release computes. -/
theorem settleRelease_amounts {gross : Result ℤ} (fee : ℤ → Result ℤ) {n x net : ℤ}
    {price : PriceCache} {y : EscrowRecord Addr × Custody Addr} (hgross : gross = .ok n)
    (hfee : fee n = .ok x) (hnet : safeSub n x = .ok net)
    (h : settleRelease inv c s e n x net price = .ok y) :
    ∃ a, (recordRelease e gross fee).amounts = .ok a ∧ y.1 = a.record e ∧ y.2.book = s.book := by
  simp only [settleRelease, bind_eq_ok, pure_eq_ok] at h
  obtain ⟨tokens, -, left, hleft, platformFee, hplatform, netAmount, hmentor, rfl⟩ := h
  refine ⟨⟨n, x, net, left, platformFee, netAmount⟩, ?_, rfl, rfl⟩
  simp only [Release.amounts, recordRelease, hgross, hfee, hnet, hleft, hplatform, hmentor,
    ok_bind]
  rfl

theorem doRelease_amounts (h : doRelease inv c s e id actor = .ok t) :
    ∃ a, (recordRelease e (pure e.amount) (unifiedFee inv c s.price e.mentor)).amounts = .ok a ∧
      t.book.escrow id = some { a.record e with status := .released } := by
  simp only [doRelease, bind_eq_ok, transitionStatus_eq_ok, pure_eq_ok] at h
  obtain ⟨quote, hquote, net, hnet, ⟨settled, u⟩, hsettle, _, ⟨-, rfl⟩, rfl⟩ := h
  obtain ⟨a, hamounts, rfl, -⟩ := settleRelease_amounts (unifiedFee inv c s.price e.mentor)
    (pure_eq_ok.mpr rfl) (by simp [unifiedFee, hquote]) hnet hsettle
  exact ⟨a, hamounts, by simp⟩

theorem doReleaseSimple_amounts (h : doReleaseSimple inv c s e id actor = .ok t) :
    ∃ a, (recordRelease e (pure e.amount) (flatFee c)).amounts = .ok a ∧
      t.book.escrow id = some { a.record e with status := .released } := by
  simp only [doReleaseSimple, bind_eq_ok, transitionStatus_eq_ok, pure_eq_ok] at h
  obtain ⟨fee, hfee, net, hnet, ⟨settled, u⟩, hsettle, _, ⟨-, rfl⟩, rfl⟩ := h
  obtain ⟨a, hamounts, rfl, -⟩ := settleRelease_amounts (flatFee c) (pure_eq_ok.mpr rfl) hfee
    hnet hsettle
  exact ⟨a, hamounts, by simp⟩

theorem releaseSessions_amounts {sessions : ℕ} {gross : Result ℤ} {n : ℤ} (hgross : gross = .ok n)
    (h : releaseSessions inv c s e id actor sessions n = .ok t) :
    ∃ a status, (recordRelease e gross (unifiedFee inv c s.price e.mentor)).amounts = .ok a ∧
      t.book.escrow id = some { a.record e with
        sessionsCompleted := e.sessionsCompleted + sessions, status := status } := by
  simp only [releaseSessions, bind_eq_ok, u32_eq_ok] at h
  obtain ⟨quote, hquote, net, hnet, ⟨settled, u⟩, hsettle, _, ⟨-, rfl⟩, h⟩ := h
  obtain ⟨a, hamounts, rfl, -⟩ := settleRelease_amounts (unifiedFee inv c s.price e.mentor)
    hgross (by simp [unifiedFee, hquote]) hnet hsettle
  split_ifs at h with hlast
  · simp only [bind_eq_ok, transitionStatus_eq_ok, pure_eq_ok] at h
    obtain ⟨_, ⟨-, rfl⟩, rfl⟩ := h
    exact ⟨a, .released, hamounts, by simp⟩
  · obtain rfl := pure_eq_ok.mp h
    exact ⟨a, e.status, hamounts, by simp [Amounts.record]⟩

theorem completeMilestone_amounts {index : ℕ} (h : completeMilestone inv c s id index = .ok t) :
    ∃ m spec a m', s.book.milestone id = some m ∧ pendingMilestone m index = .ok spec ∧
      (milestoneRelease m spec.amount (unifiedFee inv c s.price m.mentor)).amounts = .ok a ∧
      t.book.milestone id = some m' ∧ m'.platformFee = a.platformFee ∧
      m'.netAmount = a.netAmount ∧ m'.totalAmount = a.left := by
  simp only [completeMilestone, bind_eq_ok] at h
  obtain ⟨m, hload, spec, hpending, -, -, quote, hquote, net, hnet, tokens, -, platformFee,
    hplatform, netAmount, hmentor, h⟩ := h
  have hm : s.book.milestone id = some m := by simpa [loadMilestone] using hload
  have hamounts : (milestoneRelease m spec.amount (unifiedFee inv c s.price m.mentor)).amounts =
      .ok ⟨spec.amount, quote.fee, net, m.totalAmount, platformFee, netAmount⟩ := by
    simp only [Release.amounts, milestoneRelease, unifiedFee, pure_bind, hquote, hnet,
      hplatform, hmentor, ok_bind]
    rfl
  split_ifs at h with hall
  · simp only [bind_eq_ok, transitionStatus_eq_ok, pure_eq_ok] at h
    obtain ⟨_, ⟨-, rfl⟩, rfl⟩ := h
    exact ⟨m, spec, _, _, hm, hpending, hamounts, Function.update_self _ _ _, rfl, rfl, rfl⟩
  · obtain rfl := pure_eq_ok.mp h
    exact ⟨m, spec, _, _, hm, hpending, hamounts, Function.update_self _ _ _, rfl, rfl, rfl⟩

/-- What a release writes on its record is what its arithmetic computes. -/
structure ReleasesBooked {home : Addr} (inv : Invocation Addr home) (c : Config Addr) : Prop where
  full : ∀ s e id actor t, doRelease inv c s e id actor = .ok t →
    ∃ a, (recordRelease e (pure e.amount) (unifiedFee inv c s.price e.mentor)).amounts = .ok a ∧
      t.book.escrow id = some { a.record e with status := .released }
  simple : ∀ s e id actor t, doReleaseSimple inv c s e id actor = .ok t →
    ∃ a, (recordRelease e (pure e.amount) (flatFee c)).amounts = .ok a ∧
      t.book.escrow id = some { a.record e with status := .released }
  sessions : ∀ s e id actor sessions gross n t, gross = .ok n →
    releaseSessions inv c s e id actor sessions n = .ok t →
    ∃ a status, (recordRelease e gross (unifiedFee inv c s.price e.mentor)).amounts = .ok a ∧
      t.book.escrow id = some { a.record e with
        sessionsCompleted := e.sessionsCompleted + sessions, status := status }
  milestone : ∀ s id index t, completeMilestone inv c s id index = .ok t →
    ∃ m spec a m', s.book.milestone id = some m ∧ pendingMilestone m index = .ok spec ∧
      (milestoneRelease m spec.amount (unifiedFee inv c s.price m.mentor)).amounts = .ok a ∧
      t.book.milestone id = some m' ∧ m'.platformFee = a.platformFee ∧
      m'.netAmount = a.netAmount ∧ m'.totalAmount = a.left

theorem releasesBooked (inv : Invocation Addr self) (c : Config Addr) : ReleasesBooked inv c where
  full _ _ _ _ _ h := doRelease_amounts h
  simple _ _ _ _ _ h := doReleaseSimple_amounts h
  sessions _ _ _ _ _ _ _ _ hgross h := releaseSessions_amounts hgross h
  milestone _ _ _ _ h := completeMilestone_amounts h

end Entries

section Runs

variable {Addr : Type} [DecidableEq Addr] {self : Addr}

theorem recordRule_numbered : RecordRule fun e : EscrowRecord Addr => 0 < e.id where
  new := by
    intro home s t now e hopening hnew
    rw [hopening.id_eq]
    omega
  change := by
    intro now e e' he hchange hid
    cases hchange <;> exact hid

omit [DecidableEq Addr] in
/-- Only an initialised contract has escrows. -/
theorem admin_of_escrow {s : State Addr} (hs : Everywhere (fun e => 0 < e.id) s) {id : ℕ}
    {e : EscrowRecord Addr} (he : s.custody.book.escrow id = some e) : s.config.admin ≠ none := by
  intro hnone
  have hcount := (hs.wellFormed.fresh hnone).1
  have hid := hs.stored id e he
  rw [hs.wellFormed.book.record_id id e he] at hid
  rw [hs.wellFormed.book.escrow_gt id (by omega)] at he
  cases he

/-- In every reachable state, at every price of the token and for every tier: each admissible
amount is divided by either fee, and every release that passes its checks computes and divides
its gross amount so, which is what the releases write. -/
theorem release_fees (digests : Digests) (initial : Addr → Addr → ℤ)
    (steps : List (Step Addr self)) (inv : Invocation Addr self) (cache : PriceCache) :
    let s := (machine self digests).run (deployed initial) steps
    (s.config.admin ≠ none → ∀ mentor amount, TierAnswers inv s.config mentor → 0 ≤ amount →
      amount ≤ maxFinancialAmount → Splits (unifiedFee inv s.config cache mentor) amount ∧
        Splits (flatFee s.config) amount) ∧
    (∀ r, ReleasePath inv s.config cache s.custody.book r →
      ∃ a, r.amounts = .ok a ∧ Split a.gross a.fee a.net) ∧
    ReleasesBooked inv s.config := by
  intro s
  have hs := run_everywhere recordRule_numbered digests initial steps
  have hc := run_paying digests initial steps
  have hcap := hs.wellFormed.config.feeCapped
  have hrecord := hs.wellFormed.book.record
  refine ⟨fun hadmin mentor amount htiers hpos hmax =>
    ⟨unifiedFee_splits cache hc hcap hadmin htiers hpos hmax,
      flatFee_splits hc hcap hadmin hpos hmax⟩, ?_, releasesBooked inv s.config⟩
  intro r hpath
  cases hpath with
  | full id e found active tiers =>
    have he := hrecord id e found
    exact recordRelease_amounts he active rfl he.amount_nonneg le_rfl
      (unifiedFee_splits cache hc hcap (admin_of_escrow hs found) tiers he.amount_nonneg
        (he.amount_le active))
  | simple id e found active =>
    have he := hrecord id e found
    exact recordRelease_amounts he active rfl he.amount_nonneg le_rfl
      (flatFee_splits hc hcap (admin_of_escrow hs found) he.amount_nonneg (he.amount_le active))
  | session id e found active remaining tiers =>
    have he := hrecord id e found
    have hle := grossOf_le he active 1 remaining
    exact recordRelease_amounts he active (sessionAmount_isOk he) (grossOf_nonneg he 1) hle
      (unifiedFee_splits cache hc hcap (admin_of_escrow hs found) tiers (grossOf_nonneg he 1)
        (hle.trans (he.amount_le active)))
  | batch id e sessions found active nonzero remaining tiers =>
    have he := hrecord id e found
    have hcompleted := he.completed_le
    have hle := grossOf_le he active sessions (by omega)
    exact recordRelease_amounts he active (batchAmount_isOk he (by omega))
      (grossOf_nonneg he sessions) hle
      (unifiedFee_splits cache hc hcap (admin_of_escrow hs found) tiers
        (grossOf_nonneg he sessions) (hle.trans (he.amount_le active)))
  | milestone id m index spec found pending tiers =>
    obtain ⟨hid, hb⟩ := run_milestoneBalanced digests initial steps id m found
    obtain ⟨-, hlisted, hstatus⟩ := pendingMilestone_eq_ok pending
    have hpos := hb.amount_pos spec (List.mem_of_getElem? hlisted)
    have hunpaid := unpaid_set .completed hlisted hstatus
    have hleft := unpaid_nonneg hb.amount_pos (m.milestoneStatuses.set index .completed)
    rw [hunpaid, if_pos rfl] at hleft
    have htotal := hb.total_eq
    have hmax := hb.total_le
    have hfees := hb.fee_nonneg
    have hnets := hb.net_nonneg
    exact Release.amounts_of_splits (r := milestoneRelease m spec.amount _) rfl hpos.le
      (unifiedFee_splits cache hc hcap (hs.wellFormed.admin_of_milestone hid found) tiers hpos.le
        (by omega))
      ⟨m.totalAmount, rfl⟩ hfees hnets
      (show m.platformFee + m.netAmount + spec.amount ≤ maxFinancialAmount by omega)

end Runs

/-- Three sessions worth 100 under a schedule that discounts amounts above 50. -/
def scheduledSessions : List (Step ℕ 0) :=
  [(grantedByAll 0, .initializeEscrow 1 2 500 [9] 0),
    (grantedByAll 0, .config (.setFeeSchedule 1 ⟨800, 600, 400, 200, 50, 100⟩)),
    (grantedByAll 0, .custody (.createEscrow 4 3 100 "session" 9 0 3))]

theorem release_fees_scheduledSessions :
    let s := (machine 0 lengthDigests).run (deployed learnerFunds) scheduledSessions
    Splits (unifiedFee (grantedByAll 0) s.config s.custody.price 4) 1000 ∧
    ∃ e, s.custody.book.escrow 1 = some e ∧
      ∃ a, (recordRelease e (sessionAmount e)
          (unifiedFee (grantedByAll 0) s.config s.custody.price e.mentor)).amounts = .ok a ∧
        Split a.gross a.fee a.net := by
  intro s
  have hfees := release_fees lengthDigests learnerFunds scheduledSessions (grantedByAll 0)
    s.custody.price
  have htiers (mentor : ℕ) : TierAnswers (grantedByAll 0) s.config mentor := fun _ => ⟨0, rfl⟩
  refine ⟨(hfees.1 (by decide) 4 1000 (htiers 4) (by decide) (by decide)).1, ?_⟩
  obtain ⟨e, he, hactive, hremaining⟩ : ∃ e, s.custody.book.escrow 1 = some e ∧
      e.status = .active ∧ e.sessionsCompleted < e.totalSessions := by
    refine ⟨_, rfl, ?_, ?_⟩
    · decide
    · decide
  exact ⟨e, he, hfees.2.1 _ (.session 1 e he hactive hremaining (htiers e.mentor))⟩

end Escrow
