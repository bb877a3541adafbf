import MentorsMind.Escrow.Invariant

/-! What each successful call does to the records, the transition logs and the session
nonces, written out once: later invariants are read off from it. -/
namespace Escrow
open Outcome Soroban Shared

section Changes

variable {Addr : Type}

/-- How an entry point rewrites a record at time `now`. -/
inductive RecordChange (now : ℕ) (e : EscrowRecord Addr) : EscrowRecord Addr → Prop
  | released (fee : ℤ) (active : e.status = .active) (isFee : IsFee e.amount fee) :
      RecordChange now e { e with
        amount := 0
        platformFee := e.platformFee + fee
        netAmount := e.netAmount + (e.amount - fee)
        status := .released }
  | sessions (n : ℕ) (fee : ℤ) (active : e.status = .active) (pos : n ≠ 0)
      (le : e.sessionsCompleted + n ≤ e.totalSessions) (isFee : IsFee (grossOf e n) fee) :
      RecordChange now e (afterSessions e n (grossOf e n) fee)
  | disputed (reason : String) (active : e.status = .active) :
      RecordChange now e { e with status := .disputed, disputeReason := reason }
  | resolved (mentorAmount : ℤ) (disputed : e.status = .disputed) (nonneg : 0 ≤ mentorAmount)
      (le : mentorAmount ≤ e.amount) :
      RecordChange now e { e with
        status := .resolved
        netAmount := mentorAmount
        platformFee := e.amount - mentorAmount
        resolvedAt := now }
  | refunded (live : e.status.IsLive) : RecordChange now e { e with status := .refunded }

/-- How an entry point rewrites a milestone escrow. -/
inductive MilestoneChange (m : MilestoneEscrow Addr) : MilestoneEscrow Addr → Prop
  | completed (index : ℕ) (spec : MilestoneSpec) (fee : ℤ) (active : m.status = .active)
      (listed : m.milestones[index]? = some spec)
      (pending : m.milestoneStatuses[index]? = some .pending) (isFee : IsFee spec.amount fee) :
      MilestoneChange m { m with
        milestoneStatuses := m.milestoneStatuses.set index .completed
        platformFee := m.platformFee + fee
        netAmount := m.netAmount + (spec.amount - fee)
        status := if (m.milestoneStatuses.set index .completed).all (· = .completed)
          then .released else m.status }
  | disputed (index : ℕ) (active : m.status = .active)
      (pending : m.milestoneStatuses[index]? = some .pending) :
      MilestoneChange m { m with
        milestoneStatuses := m.milestoneStatuses.set index .disputed
        status := .disputed }

/-- An escrow went from `old` to `new`: what the log of `id` says about it. -/
inductive LogChange (b b' : Book Addr) (id : ℕ) (old new : EscrowStatus) : Prop
  | silent (status : new = old) (log : b'.transitionLog = b.transitionLog)
  | logged (entry : EscrowTransitionLog Addr) (old_eq : entry.old = old)
      (new_eq : entry.new = new) (valid : EscrowStatus.isValidTransition old new = true)
      (log : b'.transitionLog = (b.logTransition id entry).transitionLog)

/-- No session is opened: nonces stay, and sessions can only be freed. -/
structure SessionsKept (b b' : Book Addr) : Prop where
  nonce : b'.usedSessionNonce = b.usedSessionNonce
  session : ∀ sessionId, b'.session sessionId = true → b.session sessionId = true

theorem SessionsKept.refl (b : Book Addr) : SessionsKept b b := ⟨rfl, fun _ h => h⟩

theorem SessionsKept.of_eq {b b' : Book Addr} (hnonce : b'.usedSessionNonce = b.usedSessionNonce)
    (hsession : b'.session = b.session) : SessionsKept b b' :=
  ⟨hnonce, fun _ h => hsession ▸ h⟩

/-- The record `id` is rewritten from `e` to `e'` at time `now`. -/
structure Rewrites (now : ℕ) (s t : Custody Addr) (id : ℕ) (e e' : EscrowRecord Addr) :
    Prop where
  found : s.book.escrow id = some e
  escrow : t.book.escrow = Function.update s.book.escrow id (some e')
  milestone : t.book.milestone = s.book.milestone
  escrowCount : t.book.escrowCount = s.book.escrowCount
  milestoneCount : t.book.milestoneCount = s.book.milestoneCount
  change : RecordChange now e e'
  log : LogChange s.book t.book e.id e.status e'.status
  sessions : SessionsKept s.book t.book

/-- The milestone escrow `id` is rewritten from `m` to `m'`. -/
structure MilestoneRewrites (s t : Custody Addr) (id : ℕ) (m m' : MilestoneEscrow Addr) :
    Prop where
  found : s.book.milestone id = some m
  escrow : t.book.escrow = s.book.escrow
  milestone : t.book.milestone = Function.update s.book.milestone id (some m')
  escrowCount : t.book.escrowCount = s.book.escrowCount
  milestoneCount : t.book.milestoneCount = s.book.milestoneCount
  change : MilestoneChange m m'
  log : LogChange s.book t.book m.id m.status m'.status
  sessions : SessionsKept s.book t.book

/-- The id under which a creating call books its session. -/
def Call.opensSession : Call Addr → Option String
  | .custody (.createEscrow _ _ _ sessionId _ _ _) => some sessionId
  | .custody (.createEscrowUsd _) => some "USD_SES"
  | .custody (.createEscrowWithPathPayment ..) => some "PATHPAY"
  | _ => none

def Call.createsMilestone : Call Addr → Bool
  | .custody (.createMilestoneEscrow ..) => true
  | _ => false

/-- The escrow that a call works on. An emergency execution works on its action's. -/
def Call.escrowOf (s : State Addr) : Call Addr → Option ℕ
  | .custody (.releaseFunds _ id) | .custody (.releasePartial _ id)
  | .custody (.batchRelease _ id _) | .custody (.adminRelease id) | .custody (.dispute _ id _)
  | .custody (.resolveDispute id _) | .custody (.refund id) | .tryAutoRelease id
  | .manualRecoveryRelease id _ | .disputePayment _ id _ | .resolveDisputeSecure _ id _ =>
      some id
  | .executeEmergencyAction _ actionId | .emergencyRelease _ _ _ actionId =>
      (s.emergency.proposal actionId).map EmergencyAction.escrowId
  | _ => none

/-- When a record was created, and that its session had not ended long before. -/
structure NewRecord (now : ℕ) (e : EscrowRecord Addr) : Prop where
  createdAt_eq : e.createdAt = now
  timed : e.sessionEndTime = 0 ∨ now ≤ e.sessionEndTime + maxSessionTimeDriftSecs

/-- A session is opened for the record `e`. -/
structure OpensSession (digests : Digests) (sessionId : String) (b b' : Book Addr)
    (e : EscrowRecord Addr) : Prop where
  log : LogChange b b' e.id .pending .active
  nonce : b'.usedSessionNonce =
    Function.update b.usedSessionNonce (digests.session sessionId) true
  session : b'.session = Function.update b.session sessionId true

/-- A milestone escrow as it is created. -/
structure NewMilestone (home : Addr) (b b' : Book Addr) (m : MilestoneEscrow Addr) : Prop where
  id_eq : m.id = b.milestoneCount + 1
  status : m.status = .active
  statuses : m.milestoneStatuses = m.milestones.map fun _ => .pending
  nonempty : m.milestones ≠ []
  learner_ne : m.learner ≠ home
  amount_pos : ∀ spec ∈ m.milestones, 0 < spec.amount
  unpaid_eq : unpaid m.milestones m.milestoneStatuses = m.totalAmount
  total_le : m.totalAmount ≤ maxFinancialAmount
  fee : m.platformFee = 0
  net : m.netAmount = 0
  log : LogChange b b' m.id .pending .active
  sessions : SessionsKept b b'

end Changes

section Entries

variable {Addr : Type} [DecidableEq Addr] {self : Addr} {inv : Invocation Addr self}
  {digests : Digests} {c : Config Addr} {s t : Custody Addr} {e : EscrowRecord Addr} {id : ℕ}
  {actor : Addr}

theorem createEscrowInternal_opens {mentor learner token send dest : Addr} {amount usd : ℤ}
    {sessionId : String} {sessionEndTime totalSessions : ℕ} {x : Custody Addr × ℕ}
    (h : createEscrowInternal inv digests c s mentor learner amount sessionId token
      sessionEndTime usd amount send dest totalSessions = .ok x) :
    ∃ e, Opening self s x.1 e ∧ NewRecord inv.timestamp e ∧
      OpensSession digests sessionId s.book x.1.book e := by
  obtain ⟨e, -, hopening⟩ := createEscrowInternal_spec h
  simp only [createEscrowInternal, bind_eq_ok, require_eq_ok, u64_eq_ok,
    transitionStatus_eq_ok, pure_eq_ok] at h
  obtain ⟨-, -, -, -, -, -, -, -, -, -, -, -, -, -, -, -, -, -, -, -, -, htimed, -, -, _, ⟨-, rfl⟩,
    tokens, -, _, ⟨-, rfl⟩, rfl⟩ := h
  have hstored := congrFun hopening.escrow (s.book.escrowCount + 1)
  simp only [Book.setEscrow_escrow, Function.update_self, Option.some.injEq] at hstored
  subst hstored
  refine ⟨_, hopening, ⟨rfl, ?_⟩, ?_⟩
  · show sessionEndTime = 0 ∨ inv.timestamp ≤ sessionEndTime + maxSessionTimeDriftSecs
    by_contra hold
    apply htimed
    simp only [detectTemporalReplay, maxSessionTimeDriftSecs] at hold ⊢
    refine ⟨by omega, by omega, ?_, by omega⟩
    rw [if_pos (by omega)]
    exact decide_eq_true (by omega)
  · exact ⟨.logged _ rfl rfl rfl rfl, rfl, rfl⟩

omit [DecidableEq Addr] in
/-- What all full releases leave of the record. -/
private theorem released_rewrites {u : Custody Addr} {fee : ℤ}
    (he : s.book.escrow id = some e) (hactive : e.status = .active) (hfee : IsFee e.amount fee)
    (hu : u.book = s.book) (price : PriceCache) (tokens : Tokens Addr) :
    Rewrites inv.timestamp s ⟨price, (u.book.logTransition e.id
        ⟨e.status, .released, actor, inv.timestamp⟩).setEscrow id { e with
      amount := e.amount - e.amount
      platformFee := e.platformFee + fee
      netAmount := e.netAmount + (e.amount - fee)
      status := .released }, tokens⟩ id e { e with
      amount := 0
      platformFee := e.platformFee + fee
      netAmount := e.netAmount + (e.amount - fee)
      status := .released } where
  found := he
  escrow := by simp [hu, Book.logTransition]
  milestone := by simp [hu, Book.logTransition]
  escrowCount := by simp [hu, Book.logTransition]
  milestoneCount := by simp [hu, Book.logTransition]
  change := .released fee hactive hfee
  log := .logged _ rfl rfl (by rw [hactive]; rfl) (by rw [hu]; rfl)
  sessions := .of_eq (by rw [hu]; rfl) (by rw [hu]; rfl)

theorem doRelease_rewrites (hc : c.FeeCapped) (he : s.book.escrow id = some e)
    (hinv : RecordInvariant e) (hactive : e.status = .active)
    (h : doRelease inv c s e id actor = .ok t) : ∃ e', Rewrites inv.timestamp s t id e e' := by
  simp only [doRelease, bind_eq_ok, safeSub_eq_ok, transitionStatus_eq_ok, pure_eq_ok] at h
  obtain ⟨quote, hquote, _, ⟨-, rfl⟩, ⟨settled, u⟩, hsettle, _, ⟨-, rfl⟩, rfl⟩ := h
  have hfee := computeFeeUnified_isFee hc hquote
  obtain ⟨-, rfl, hbook, -⟩ := settleRelease_spec (hfee.bounds hinv.amount_nonneg).1 hsettle
  exact ⟨_, released_rewrites he hactive hfee hbook u.price u.tokens⟩

theorem doReleaseSimple_rewrites (hc : c.FeeCapped) (he : s.book.escrow id = some e)
    (hinv : RecordInvariant e) (hactive : e.status = .active)
    (h : doReleaseSimple inv c s e id actor = .ok t) :
    ∃ e', Rewrites inv.timestamp s t id e e' := by
  simp only [doReleaseSimple, bind_eq_ok, safeSub_eq_ok, transitionStatus_eq_ok,
    pure_eq_ok] at h
  obtain ⟨fee, hflat, _, ⟨-, rfl⟩, ⟨settled, u⟩, hsettle, _, ⟨-, rfl⟩, rfl⟩ := h
  have hfee := flatFee_isFee hc hflat
  obtain ⟨-, rfl, hbook, -⟩ := settleRelease_spec (hfee.bounds hinv.amount_nonneg).1 hsettle
  exact ⟨_, released_rewrites he hactive hfee hbook u.price u.tokens⟩

theorem releaseFunds_rewrites {isolated : ℕ → Bool} (hc : c.FeeCapped)
    (hs : ∀ e, s.book.escrow id = some e → RecordInvariant e)
    (h : releaseFunds inv c isolated s actor id = .ok t) :
    ∃ e e', Rewrites inv.timestamp s t id e e' := by
  simp only [releaseFunds, bind_eq_ok, loadEscrow_eq_ok, require_eq_ok] at h
  obtain ⟨e, he, -, hactive, -, -, _, -, -, -, -, -, -, -, hrelease⟩ := h
  obtain ⟨e', hr⟩ := doRelease_rewrites hc (by exact he) (hs e he) hactive hrelease
  refine ⟨e, e', he, hr.escrow, hr.milestone, hr.escrowCount, hr.milestoneCount, hr.change, ?_,
    ⟨hr.sessions.nonce, hr.sessions.session⟩⟩
  cases hr.log with
  | silent status log => exact .silent status log
  | logged entry old_eq new_eq valid log => exact .logged entry old_eq new_eq valid log

theorem adminRelease_rewrites (hc : c.FeeCapped)
    (hs : ∀ e, s.book.escrow id = some e → RecordInvariant e)
    (h : adminRelease inv c s id = .ok t) : ∃ e e', Rewrites inv.timestamp s t id e e' := by
  simp only [adminRelease, bind_eq_ok, loadEscrow_eq_ok, require_eq_ok] at h
  obtain ⟨e, he, -, hactive, _, -, hrelease⟩ := h
  obtain ⟨e', hr⟩ := doRelease_rewrites hc he (hs e he) hactive hrelease
  exact ⟨e, e', hr⟩

theorem releaseSessions_rewrites (hc : c.FeeCapped) (he : s.book.escrow id = some e)
    (hinv : RecordInvariant e) (hactive : e.status = .active) {n : ℕ} (hpos : n ≠ 0)
    (hle : e.sessionsCompleted + n ≤ e.totalSessions)
    (h : releaseSessions inv c s e id actor n (grossOf e n) = .ok t) :
    ∃ e', Rewrites inv.timestamp s t id e e' := by
  simp only [releaseSessions, bind_eq_ok, safeSub_eq_ok, u32_eq_ok] at h
  obtain ⟨quote, hquote, _, ⟨-, rfl⟩, ⟨settled, u⟩, hsettle, _, ⟨-, rfl⟩, h⟩ := h
  have hfee := computeFeeUnified_isFee hc hquote
  obtain ⟨-, rfl, hbook, -⟩ :=
    settleRelease_spec (hfee.bounds (grossOf_nonneg hinv n)).1 hsettle
  replace hbook : u.book = s.book := hbook
  have hchange : RecordChange inv.timestamp e (afterSessions e n (grossOf e n) quote.fee) :=
    .sessions n quote.fee hactive hpos hle hfee
  refine ⟨afterSessions e n (grossOf e n) quote.fee, ?_⟩
  split_ifs at h with hlast
  · simp only [bind_eq_ok, transitionStatus_eq_ok, pure_eq_ok] at h
    obtain ⟨_, ⟨hvalid, rfl⟩, rfl⟩ := h
    refine ⟨he, ?_, ?_, ?_, ?_, hchange, ?_, ?_⟩
    · simp [hbook, Book.logTransition, afterSessions, hlast]
    · simp [hbook, Book.logTransition]
    · simp [hbook, Book.logTransition]
    · simp [hbook, Book.logTransition]
    · refine .logged ⟨e.status, .released, actor, inv.timestamp⟩ rfl ?_ ?_ ?_
      · simp [afterSessions, hlast]
      · simpa [afterSessions, hlast] using hvalid
      · rw [hbook]
        rfl
    · refine ⟨by rw [hbook]; rfl, fun sessionId hopen => ?_⟩
      by_cases hfreed : sessionId = e.sessionId
      · simp [Book.setEscrow, hfreed] at hopen
      · simpa [Book.setEscrow, Book.logTransition, hbook, Function.update_of_ne hfreed]
          using hopen
  · obtain rfl := pure_eq_ok.mp h
    refine ⟨he, ?_, ?_, ?_, ?_, hchange, ?_, ?_⟩
    · simp [hbook, afterSessions, hlast]
    · simp [hbook]
    · simp [hbook]
    · simp [hbook]
    · exact .silent (by simp [afterSessions, hlast]) (by rw [hbook]; rfl)
    · exact .of_eq (by rw [hbook]; rfl) (by rw [hbook]; rfl)

theorem releasePartial_rewrites (hc : c.FeeCapped)
    (hs : ∀ e, s.book.escrow id = some e → RecordInvariant e)
    (h : releasePartial inv c s actor id = .ok t) :
    ∃ e e', Rewrites inv.timestamp s t id e e' := by
  simp only [releasePartial, bind_eq_ok, loadEscrow_eq_ok, require_eq_ok] at h
  obtain ⟨e, he, -, hactive, -, hlt, _, -, -, -, -, -, gross, hgross, hrelease⟩ := h
  obtain rfl := sessionAmount_eq (hs e he) hgross
  obtain ⟨e', hr⟩ :=
    releaseSessions_rewrites hc he (hs e he) hactive one_ne_zero hlt hrelease
  exact ⟨e, e', hr⟩

theorem batchRelease_rewrites (hc : c.FeeCapped)
    (hs : ∀ e, s.book.escrow id = some e → RecordInvariant e) {n : ℕ}
    (h : batchRelease inv c s actor id n = .ok t) :
    ∃ e e', Rewrites inv.timestamp s t id e e' := by
  simp only [batchRelease, bind_eq_ok, loadEscrow_eq_ok, require_eq_ok] at h
  obtain ⟨e, he, _, -, -, -, -, -, -, hactive, -, hne, -, hle, -, hn, gross, hgross,
    hrelease⟩ := h
  obtain rfl := batchAmount_eq (hs e he) hgross
  obtain ⟨e', hr⟩ := releaseSessions_rewrites hc he (hs e he) hactive hne (by omega) hrelease
  exact ⟨e, e', hr⟩

theorem dispute_rewrites {reason : String}
    (h : dispute inv s actor id reason = .ok t) :
    ∃ e e', Rewrites inv.timestamp s t id e e' := by
  simp only [dispute, bind_eq_ok, loadEscrow_eq_ok, require_eq_ok, transitionStatus_eq_ok,
    pure_eq_ok] at h
  obtain ⟨e, he, -, hactive, -, -, -, -, _, ⟨hvalid, rfl⟩, rfl⟩ := h
  exact ⟨e, _, he, rfl, rfl, rfl, rfl, .disputed reason hactive, .logged _ rfl rfl hvalid rfl,
    .of_eq rfl rfl⟩

theorem refund_rewrites (hs : ∀ e, s.book.escrow id = some e → RecordInvariant e)
    (h : refund inv c s id = .ok t) : ∃ e e', Rewrites inv.timestamp s t id e e' := by
  simp only [refund, bind_eq_ok, loadEscrow_eq_ok, require_eq_ok, transitionStatus_eq_ok,
    pure_eq_ok] at h
  obtain ⟨_, -, e, he, -, hopen, tokens, -, _, ⟨hvalid, rfl⟩, rfl⟩ := h
  have hlive : e.status.IsLive := by
    have hpending := (hs e he).not_pending
    cases hst : e.status <;> simp_all [EscrowStatus.IsLive]
  exact ⟨e, _, he, rfl, rfl, rfl, rfl, .refunded hlive, .logged _ rfl rfl hvalid rfl,
    .of_eq rfl rfl⟩

theorem resolveDispute_rewrites {isolated : ℕ → Bool} {mentorPct : ℕ}
    (hs : ∀ e, s.book.escrow id = some e → RecordInvariant e)
    (h : resolveDispute inv c isolated s id mentorPct = .ok t) :
    ∃ e e', Rewrites inv.timestamp s t id e e' := by
  simp only [resolveDispute, bind_eq_ok, loadEscrow_eq_ok, require_eq_ok, safeMul_eq_ok,
    safeDiv_eq_ok, safeSub_eq_ok, transitionStatus_eq_ok, pure_eq_ok] at h
  obtain ⟨_, -, -, hpct, -, -, e, he, -, hdisputed, _, ⟨-, rfl⟩, _, ⟨-, rfl⟩, _, ⟨-, rfl⟩,
    mid, -, tokens, -, _, ⟨hvalid, rfl⟩, rfl⟩ := h
  obtain ⟨hmentor, hlearner⟩ := split_bounds (hs e he).amount_nonneg hpct
  exact ⟨e, _, he, rfl, rfl, rfl, rfl, .resolved _ hdisputed hmentor (by omega),
    .logged _ rfl rfl hvalid rfl, .of_eq rfl rfl⟩

theorem tryAutoRelease_rewrites {f : Failures} {x : Custody Addr × Failures}
    (hc : c.FeeCapped) (hs : ∀ e, s.book.escrow id = some e → RecordInvariant e)
    (h : tryAutoRelease inv c s f id = .ok x) :
    x.1 = s ∨ ∃ e e', Rewrites inv.timestamp s x.1 id e e' := by
  simp only [tryAutoRelease, bind_eq_ok, loadEscrow_eq_ok, require_eq_ok] at h
  obtain ⟨e, he, -, hactive, _, -, -, -, -, -, -, -, h⟩ := h
  split_ifs at h with hpassed
  · simp only [bind_eq_ok, pure_eq_ok] at h
    obtain ⟨t, hrelease, rfl⟩ := h
    obtain ⟨e', hr⟩ := doRelease_rewrites hc he (hs e he) hactive hrelease
    exact .inr ⟨e, e', hr⟩
  · simp only [bind_eq_ok, pure_eq_ok] at h
    obtain ⟨_, -, rfl⟩ := h
    exact .inl rfl

theorem manualRecoveryRelease_rewrites {f : Failures} {reasonHash : Hash}
    {x : Custody Addr × Failures} (hc : c.FeeCapped)
    (hs : ∀ e, s.book.escrow id = some e → RecordInvariant e)
    (h : manualRecoveryRelease inv c s f id reasonHash = .ok x) :
    ∃ e e', Rewrites inv.timestamp s x.1 id e e' := by
  simp only [manualRecoveryRelease, bind_eq_ok, storedAdmin_eq_ok, expect_eq_ok, require_eq_ok,
    loadEscrow_eq_ok, pure_eq_ok] at h
  obtain ⟨_, -, _, -, -, -, -, -, e, he, -, hactive, t, hrelease, rfl⟩ := h
  obtain ⟨e', hr⟩ := doReleaseSimple_rewrites hc he (hs e he) hactive hrelease
  exact ⟨e, e', hr⟩

theorem Attempt.rewrites {f : Failures} {em : Emergency Addr} {caller : Addr} {actionId : ℕ}
    {action : EmergencyAction Addr} {x : Execution Addr} (hc : c.FeeCapped)
    (hs : ∀ id e, s.book.escrow id = some e → RecordInvariant e)
    (h : Attempt inv c s f em caller actionId action x) :
    x.custody = s ∨ ∃ e e', Rewrites inv.timestamp s x.custody action.escrowId e e' := by
  rcases h.outcome with rfl | ⟨_, e, _, -, hgates, hrelease, -, -⟩
  · exact .inl rfl
  · obtain ⟨e', hr⟩ :=
      doReleaseSimple_rewrites hc hgates.found (hs _ e hgates.found) hgates.active hrelease
    exact .inr ⟨e, e', hr⟩

theorem createMilestoneEscrow_new {mentor learner token : Addr}
    {milestones : List MilestoneSpec} {x : Custody Addr × ℕ}
    (h : createMilestoneEscrow inv c s mentor learner milestones token = .ok x) :
    ∃ m, MilestoneOpening self s x.1 m ∧ NewMilestone self s.book x.1.book m := by
  obtain ⟨m, -, hopening⟩ := createMilestoneEscrow_spec h
  simp only [createMilestoneEscrow, bind_eq_ok, require_eq_ok, requireMax_eq_ok,
    requireAuth_eq_ok, u64_eq_ok, transitionStatus_eq_ok, pure_eq_ok] at h
  obtain ⟨-, hnonempty, -, -, _, hvalid, total, hsum, -, -, -, htotal, -, hauth, -, -, _, ⟨-, rfl⟩,
    tokens, -, _, ⟨-, rfl⟩, rfl⟩ := h
  have hstored := congrFun hopening.milestone (s.book.milestoneCount + 1)
  simp only [Book.setMilestone_milestone, Function.update_self, Option.some.injEq] at hstored
  subst hstored
  refine ⟨_, hopening, rfl, rfl, rfl, hnonempty, Env.ne_self_of_auth hauth,
    validateMilestones_pos hvalid, ?_, htotal, rfl, rfl, .logged _ rfl rfl rfl rfl,
    .of_eq rfl rfl⟩
  show unpaid milestones (milestones.map fun _ => .pending) = total
  rw [List.map_const', unpaid_of_pending, sumMilestones_eq hsum, zero_add]

theorem completeMilestone_rewrites {index : ℕ} (hc : c.FeeCapped)
    (h : completeMilestone inv c s id index = .ok t) : ∃ m m', MilestoneRewrites s t id m m' := by
  simp only [completeMilestone, bind_eq_ok, safeSub_eq_ok, safeAdd_eq_ok] at h
  obtain ⟨m, hload, spec, hpending, -, -, quote, hquote, _, ⟨-, rfl⟩, tokens, -, _, ⟨-, rfl⟩,
    _, ⟨-, rfl⟩, h⟩ := h
  have hm : s.book.milestone id = some m := by simpa [loadMilestone] using hload
  obtain ⟨hactive, hspec, hstatus⟩ := pendingMilestone_eq_ok hpending
  have hchange := MilestoneChange.completed index spec quote.fee hactive hspec hstatus
    (computeFeeUnified_isFee hc hquote)
  split_ifs at h with hall
  · simp only [bind_eq_ok, transitionStatus_eq_ok, pure_eq_ok] at h
    obtain ⟨_, ⟨hvalid, rfl⟩, rfl⟩ := h
    refine ⟨m, _, hm, rfl, ?_, rfl, rfl, hchange, ?_, .of_eq rfl rfl⟩
    · simp [hall, Book.logTransition]
    · refine .logged _ rfl ?_ ?_ rfl
      · simp [hall]
      · simpa [hall] using hvalid
  · obtain rfl := pure_eq_ok.mp h
    refine ⟨m, _, hm, rfl, ?_, rfl, rfl, hchange, .silent ?_ rfl, .of_eq rfl rfl⟩
    · simp [hall]
    · simp [hall]

omit [DecidableEq Addr] in
theorem disputeMilestone_rewrites {index : ℕ} (h : disputeMilestone inv s id index = .ok t) :
    ∃ m m', MilestoneRewrites s t id m m' := by
  simp only [disputeMilestone, bind_eq_ok, transitionStatus_eq_ok, pure_eq_ok] at h
  obtain ⟨m, hload, spec, hpending, -, -, -, -, _, ⟨hvalid, rfl⟩, rfl⟩ := h
  have hm : s.book.milestone id = some m := by simpa [loadMilestone] using hload
  obtain ⟨hactive, -, hstatus⟩ := pendingMilestone_eq_ok hpending
  exact ⟨m, _, hm, rfl, rfl, rfl, rfl, .disputed index hactive hstatus,
    .logged _ rfl rfl hvalid rfl, .of_eq rfl rfl⟩

end Entries

section Steps

variable {Addr : Type} [DecidableEq Addr]

/-- Both books hold the same escrows, logs and sessions. -/
structure SameBook (b b' : Book Addr) : Prop where
  escrows : b.SameEscrows b'
  log : b'.transitionLog = b.transitionLog
  sessions : SessionsKept b b'

omit [DecidableEq Addr] in
theorem SameBook.of_eq {b b' : Book Addr} (h : b' = b) : SameBook b b' := by
  subst h
  exact ⟨.refl _, rfl, .refl _⟩

/-- What a successful step does to the book. -/
inductive BookChange {home : Addr} (digests : Digests) (step : Step Addr home)
    (s t : State Addr) : Prop
  | unchanged (same : SameBook s.custody.book t.custody.book)
  | initialized (fresh : s.config.admin = none)
      (book : t.custody.book = { s.custody.book with escrowCount := 0, milestoneCount := 0 })
  | created (sessionId : String) (e : EscrowRecord Addr)
      (opens : step.2.opensSession = some sessionId)
      (opening : Opening home s.custody t.custody e) (new : NewRecord step.1.timestamp e)
      (session : OpensSession digests sessionId s.custody.book t.custody.book e)
  | rewritten (id : ℕ) (e e' : EscrowRecord Addr) (call : step.2.escrowOf s = some id)
      (rewrites : Rewrites step.1.timestamp s.custody t.custody id e e')
  | milestoneCreated (m : MilestoneEscrow Addr) (creates : step.2.createsMilestone = true)
      (opening : MilestoneOpening home s.custody t.custody m)
      (new : NewMilestone home s.custody.book t.custody.book m)
  | milestoneRewritten (id : ℕ) (m m' : MilestoneEscrow Addr)
      (rewrites : MilestoneRewrites s.custody t.custody id m m')
  | restored (records : List (EscrowRecord Addr)) (restores : Restores step s records)
      (book : t.custody.book = restoreRecords s.custody.book records)

variable {self : Addr} {inv : Invocation Addr self} {digests : Digests} {s t : State Addr}
  {step : Step Addr self}

theorem BookChange.of_custody_eq (h : t.custody = s.custody) : BookChange digests step s t :=
  .unchanged (.of_eq (by rw [h]))

theorem BookChange.of_rewrites {id : ℕ} (hcall : step.2.escrowOf s = some id)
    (h : ∃ e e', Rewrites step.1.timestamp s.custody t.custody id e e') :
    BookChange digests step s t := by
  obtain ⟨e, e', hr⟩ := h
  exact .rewritten id e e' hcall hr

theorem BookChange.of_milestoneRewrites {id : ℕ}
    (h : ∃ m m', MilestoneRewrites s.custody t.custody id m m') :
    BookChange digests step s t := by
  obtain ⟨m, m', hr⟩ := h
  exact .milestoneRewritten id m m' hr

theorem execCustody_bookChange {call : CustodyCall Addr} {custody : Custody Addr}
    (hs : s.WellFormed)
    (h : execCustody inv digests s.config s.payments.isolated call s.custody = .ok custody) :
    BookChange digests (inv, .custody call) s { s with custody := custody } := by
  have hc := hs.config.feeCapped
  have hrecord := hs.book.record
  cases call with
  | getDynamicFee =>
    simp only [execCustody, bind_eq_ok, pure_eq_ok] at h
    obtain ⟨_, -, rfl⟩ := h
    exact .unchanged (.of_eq rfl)
  | computePlatformFee mentor amount =>
    simp only [execCustody, bind_eq_ok, pure_eq_ok] at h
    obtain ⟨_, -, rfl⟩ := h
    exact .unchanged (.of_eq rfl)
  | createEscrow mentor learner amount sessionId token sessionEndTime totalSessions =>
    simp only [execCustody, createEscrow, bind_eq_ok, pure_eq_ok] at h
    obtain ⟨x, hcreate, rfl⟩ := h
    obtain ⟨e, hopening, hnew, hopens⟩ := createEscrowInternal_opens hcreate
    exact .created sessionId e rfl hopening hnew hopens
  | createEscrowUsd usdAmount =>
    simp [execCustody, createEscrowUsd] at h
  | createEscrowWithPathPayment learner mentor sendAsset sendMax destAsset destAmount
      totalSessions =>
    simp only [execCustody, createEscrowWithPathPayment, bind_eq_ok, pure_eq_ok] at h
    obtain ⟨x, ⟨-, -, -, -, -, -, -, -, -, -, -, -, -, -, hcreate⟩, rfl⟩ := h
    obtain ⟨e, hopening, hnew, hopens⟩ := createEscrowInternal_opens hcreate
    exact .created "PATHPAY" e rfl hopening hnew hopens
  | releaseFunds caller id => exact .of_rewrites rfl (releaseFunds_rewrites hc (hrecord id) h)
  | releasePartial caller id =>
    exact .of_rewrites rfl (releasePartial_rewrites hc (hrecord id) h)
  | batchRelease admin id sessions =>
    exact .of_rewrites rfl (batchRelease_rewrites hc (hrecord id) h)
  | adminRelease id => exact .of_rewrites rfl (adminRelease_rewrites hc (hrecord id) h)
  | dispute caller id reason => exact .of_rewrites rfl (dispute_rewrites h)
  | resolveDispute id mentorPct =>
    exact .of_rewrites rfl (resolveDispute_rewrites (hrecord id) h)
  | refund id => exact .of_rewrites rfl (refund_rewrites (hrecord id) h)
  | createMilestoneEscrow mentor learner milestones token =>
    simp only [execCustody, bind_eq_ok, pure_eq_ok] at h
    obtain ⟨x, hcreate, rfl⟩ := h
    obtain ⟨m, hopening, hnew⟩ := createMilestoneEscrow_new hcreate
    exact .milestoneCreated m rfl hopening hnew
  | completeMilestone id index =>
    exact .of_milestoneRewrites (completeMilestone_rewrites hc h)
  | disputeMilestone id index => exact .of_milestoneRewrites (disputeMilestone_rewrites h)

/-- The calls after which the escrows, the logs and the sessions are as they were. -/
def Call.keepsBook : Call Addr → Bool
  | .config _ | .recovery _ | .payments _ | .reportStuckEscrow .. | .setEmergencySigners ..
  | .grantEmergencyAdmin .. | .proposeEmergencyAction .. | .approveEmergencyAction ..
  | .submitReview .. | .monitorEscrowInvariants _ | .tokenActivity .. => true
  | _ => false

theorem exec_keepsBook {call : Call Addr} (hkeeps : call.keepsBook = true)
    (h : exec digests inv call s = .ok t) : t.custody.book = s.custody.book := by
  cases call
  all_goals
    first
    | (simp only [exec, bind_eq_ok, pure_eq_ok] at h
       obtain ⟨_, -, rfl⟩ := h
       rfl)
    | simp [Call.keepsBook] at hkeeps

/-- Every successful step makes one of these changes. -/
theorem exec_bookChange (hs : s.WellFormed) (h : exec digests step.1 step.2 s = .ok t) :
    BookChange digests step s t := by
  have hc := hs.config.feeCapped
  have hrecord := hs.book.record
  obtain ⟨inv, call⟩ := step
  by_cases hkeeps : call.keepsBook = true
  · exact .unchanged (.of_eq (exec_keepsBook hkeeps h))
  cases call with
  | initializeEscrow admin treasury feeBps approvedTokens delay =>
    simp only [exec, initializeConfig, bind_eq_ok, require_eq_ok, pure_eq_ok] at h
    obtain ⟨_, ⟨-, hfresh, -, -, -⟩, rfl⟩ := h
    exact .initialized hfresh rfl
  | custody call =>
    simp only [exec, bind_eq_ok, pure_eq_ok] at h
    obtain ⟨custody, hcall, rfl⟩ := h
    exact execCustody_bookChange hs hcall
  | tryAutoRelease id =>
    simp only [exec, bind_eq_ok, pure_eq_ok] at h
    obtain ⟨x, hcall, rfl⟩ := h
    rcases tryAutoRelease_rewrites hc (hrecord id) hcall with hx | hx
    · exact .of_custody_eq hx
    · exact .of_rewrites rfl hx
  | manualRecoveryRelease id reasonHash =>
    simp only [exec, bind_eq_ok, pure_eq_ok] at h
    obtain ⟨x, hcall, rfl⟩ := h
    exact .of_rewrites rfl (manualRecoveryRelease_rewrites hc (hrecord id) hcall)
  | executeEmergencyAction caller actionId =>
    simp only [exec, bind_eq_ok, pure_eq_ok] at h
    obtain ⟨x, hcall, rfl⟩ := h
    obtain ⟨action, hattempt⟩ := executeEmergencyAction_spec hcall
    rcases hattempt.rewrites hc hrecord with hx | hx
    · exact .of_custody_eq hx
    · exact .of_rewrites (by simp [Call.escrowOf, hattempt.found]) hx
  | emergencyRelease caller id reasonHash actionId =>
    simp only [exec, bind_eq_ok, pure_eq_ok] at h
    obtain ⟨x, hcall, rfl⟩ := h
    obtain ⟨action, hattempt⟩ := executeEmergencyAction_spec (emergencyRelease_spec hcall)
    rcases hattempt.rewrites hc hrecord with hx | hx
    · exact .of_custody_eq hx
    · exact .of_rewrites (by simp [Call.escrowOf, hattempt.found]) hx
  | emergencyRollback proposalId executor =>
    simp only [exec, bind_eq_ok, pure_eq_ok] at h
    obtain ⟨x, hcall, rfl⟩ := h
    obtain ⟨rollback, hfound, ⟨-, rfl⟩ | ⟨hready, records, hrecords, hbook, -⟩⟩ :=
      emergencyRollback_spec hcall
    · exact .of_custody_eq rfl
    · exact .restored records ⟨proposalId, rollback, rfl, hfound, hready, hrecords⟩ hbook
  | rollbackToSnapshot proposalId =>
    simp only [exec, rollbackToSnapshot, bind_eq_ok, require_eq_ok, pure_eq_ok] at h
    obtain ⟨x, ⟨_, hcall, -, -, rfl⟩, rfl⟩ := h
    obtain ⟨rollback, hfound, ⟨-, rfl⟩ | ⟨hready, records, hrecords, hbook, -⟩⟩ :=
      emergencyRollback_spec hcall
    · exact .of_custody_eq rfl
    · exact .restored records ⟨proposalId, rollback, rfl, hfound, hready, hrecords⟩ hbook
  | disputePayment caller id reason =>
    simp only [exec, disputePayment, bind_eq_ok, pure_eq_ok] at h
    obtain ⟨x, ⟨custody, hcall, rfl⟩, rfl⟩ := h
    exact .of_rewrites rfl (dispute_rewrites hcall)
  | resolveDisputeSecure admin id mentorPct =>
    simp only [exec, resolveDisputeSecure, bind_eq_ok, require_eq_ok, pure_eq_ok] at h
    obtain ⟨x, ⟨_, -, -, -, -, -, -, -, custody, hcall, rfl⟩, rfl⟩ := h
    exact .of_rewrites rfl (resolveDispute_rewrites (hrecord id) hcall)
  | _ => simp [Call.keepsBook] at hkeeps

/-- A call that books a session creates the escrow for it. -/
theorem exec_opensSession {sessionId : String} (hcall : step.2.opensSession = some sessionId)
    (h : exec digests step.1 step.2 s = .ok t) :
    ∃ e, Opening self s.custody t.custody e ∧ NewRecord step.1.timestamp e ∧
      OpensSession digests sessionId s.custody.book t.custody.book e := by
  obtain ⟨inv, call⟩ := step
  cases call with
  | custody call =>
    simp only [exec, bind_eq_ok, pure_eq_ok] at h
    obtain ⟨custody, hexec, rfl⟩ := h
    cases call with
    | createEscrow mentor learner amount sid token sessionEndTime totalSessions =>
      obtain rfl : sid = sessionId := by simpa [Call.opensSession] using hcall
      simp only [execCustody, createEscrow, bind_eq_ok, pure_eq_ok] at hexec
      obtain ⟨x, hcreate, rfl⟩ := hexec
      exact createEscrowInternal_opens hcreate
    | createEscrowUsd usdAmount => simp [execCustody, createEscrowUsd] at hexec
    | createEscrowWithPathPayment learner mentor sendAsset sendMax destAsset destAmount
        totalSessions =>
      obtain rfl : "PATHPAY" = sessionId := by simpa [Call.opensSession] using hcall
      simp only [execCustody, createEscrowWithPathPayment, bind_eq_ok, pure_eq_ok] at hexec
      obtain ⟨x, ⟨-, -, -, -, -, -, -, -, -, -, -, -, -, -, hcreate⟩, rfl⟩ := hexec
      exact createEscrowInternal_opens hcreate
    | _ => simp [Call.opensSession] at hcall
  | _ => simp [Call.opensSession] at hcall

theorem exec_createsMilestone (hcall : step.2.createsMilestone = true)
    (h : exec digests step.1 step.2 s = .ok t) :
    ∃ m, MilestoneOpening self s.custody t.custody m ∧
      NewMilestone self s.custody.book t.custody.book m := by
  obtain ⟨inv, call⟩ := step
  cases call with
  | custody call =>
    simp only [exec, bind_eq_ok, pure_eq_ok] at h
    obtain ⟨custody, hexec, rfl⟩ := h
    cases call with
    | createMilestoneEscrow mentor learner milestones token =>
      simp only [execCustody, bind_eq_ok, pure_eq_ok] at hexec
      obtain ⟨x, hcreate, rfl⟩ := hexec
      exact createMilestoneEscrow_new hcreate
    | _ => simp [Call.createsMilestone] at hcall
  | _ => simp [Call.createsMilestone] at hcall

/-- A rollback that is ready leaves the snapshot's records. -/
theorem exec_restores {records : List (EscrowRecord Addr)} (hrestores : Restores step s records)
    (h : exec digests step.1 step.2 s = .ok t) :
    t.custody.book = restoreRecords s.custody.book records := by
  obtain ⟨proposalId, rollback, hcall, hfound, hready, hrecords⟩ := hrestores
  have hbook : ∀ {executor : Addr} {x : Book Addr × Recovery Addr × Bool},
      emergencyRollback step.1 s.custody.book s.emergency s.recovery proposalId executor =
        .ok x → x.1 = restoreRecords s.custody.book records := by
    intro executor x hx
    obtain ⟨rollback', hfound', ⟨hnot, -⟩ | ⟨-, records', hrecords', hrestored, -⟩⟩ :=
      emergencyRollback_spec hx
    · obtain rfl : rollback = rollback' := Option.some.inj (hfound.symm.trans hfound')
      rw [hready] at hnot
      cases hnot
    · obtain rfl : rollback = rollback' := Option.some.inj (hfound.symm.trans hfound')
      obtain rfl : records = records' := Option.some.inj (hrecords.symm.trans hrecords')
      exact hrestored
  obtain ⟨inv, call⟩ := step
  cases call with
  | emergencyRollback proposalId' executor =>
    obtain rfl : proposalId' = proposalId := by simpa [Call.rollbackProposal] using hcall
    simp only [exec, bind_eq_ok, pure_eq_ok] at h
    obtain ⟨x, hx, rfl⟩ := h
    exact hbook hx
  | rollbackToSnapshot proposalId' =>
    obtain rfl : proposalId' = proposalId := by simpa [Call.rollbackProposal] using hcall
    simp only [exec, rollbackToSnapshot, bind_eq_ok, require_eq_ok, pure_eq_ok] at h
    obtain ⟨x, ⟨_, hx, -, -, rfl⟩, rfl⟩ := h
    exact hbook hx
  | _ => simp [Call.rollbackProposal] at hcall

end Steps

section Rules

variable {Addr : Type} [DecidableEq Addr]

/-- A property that new records have and that every rewriting keeps. -/
structure RecordRule (P : EscrowRecord Addr → Prop) : Prop where
  new : ∀ (home : Addr) (s t : Custody Addr) (now : ℕ) (e : EscrowRecord Addr),
    Opening home s t e → NewRecord now e → P e
  change : ∀ (now : ℕ) (e e' : EscrowRecord Addr), RecordInvariant e →
    RecordChange now e e' → P e → P e'

/-- The property holds of the stored records and of those in snapshots, which a rollback
may bring back. -/
structure Everywhere (P : EscrowRecord Addr → Prop) (s : State Addr) : Prop where
  wellFormed : s.WellFormed
  stored : ∀ id e, s.custody.book.escrow id = some e → P e
  snapshot : ∀ id records, s.recovery.snapshot id = some records → ∀ e ∈ records, P e

variable {self : Addr} {digests : Digests} {s t : State Addr} {step : Step Addr self}
  {P : EscrowRecord Addr → Prop}

theorem Everywhere.exec (hrule : RecordRule P) (hs : Everywhere P s)
    (h : exec digests step.1 step.2 s = .ok t) : Everywhere P t := by
  refine ⟨exec_wellFormed hs.wellFormed h, ?_, ?_⟩
  · intro id e he
    cases exec_bookChange hs.wellFormed h with
    | unchanged same => exact hs.stored id e (by rw [← same.escrows.escrow, he])
    | initialized fresh book =>
      rw [book] at he
      exact hs.stored id e he
    | created sessionId e₀ opens opening new session =>
      rw [opening.escrow] at he
      obtain ⟨rfl, rfl⟩ | ⟨-, hold⟩ := Table.update_eq_some_iff.mp he
      · exact hrule.new self s.custody t.custody _ _ opening new
      · exact hs.stored id e hold
    | rewritten k e₀ e₁ call rewrites =>
      rw [rewrites.escrow] at he
      obtain ⟨rfl, rfl⟩ | ⟨-, hold⟩ := Table.update_eq_some_iff.mp he
      · exact hrule.change _ e₀ e₁ (hs.wellFormed.book.record id e₀ rewrites.found)
          rewrites.change (hs.stored id e₀ rewrites.found)
      · exact hs.stored id e hold
    | milestoneCreated m creates opening new =>
      exact hs.stored id e (by rw [← opening.escrow, he])
    | milestoneRewritten k m m' rewrites =>
      exact hs.stored id e (by rw [← rewrites.escrow, he])
    | restored records restores book =>
      rw [book] at he
      obtain ⟨-, rollback, -, -, -, hsnapshot⟩ := restores
      exact forall_restoreRecords hs.stored (hs.snapshot _ records hsnapshot) id e he
  · intro id records hid e he
    rcases exec_snapshot h hid with hold | ⟨-, rfl⟩
    · exact hs.snapshot id records hold e he
    · obtain ⟨k, hk⟩ := mem_collectRecords he
      exact hs.stored k e hk

theorem run_everywhere (hrule : RecordRule P) (digests : Digests) (balance : Addr → Addr → ℤ)
    (steps : List (Step Addr self)) :
    Everywhere P ((machine self digests).run (deployed balance) steps) :=
  Machine.run_invariant
    ⟨deployed_wellFormed balance, fun _ _ h => (nomatch h), fun _ _ h => (nomatch h)⟩
    (fun _ _ _ hs h => hs.exec hrule h) steps

end Rules

end Escrow
