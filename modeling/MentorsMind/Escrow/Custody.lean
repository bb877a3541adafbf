import MentorsMind.Escrow.Lifecycle

/-! What each entry point of a regular escrow does to the money: which record it rewrites,
what it pays out, and that the record still owed exactly that. -/
namespace Escrow
open Outcome Soroban Shared

section Records

variable {Addr : Type} [DecidableEq Addr]

/-- What the contract still owes in `token` on a record. -/
def owedByEscrow (token : Addr) : Option (EscrowRecord Addr) → ℤ
  | some e => if e.tokenAddress = token ∧ e.status.IsLive then e.amount else 0
  | none => 0

omit [DecidableEq Addr]

/-- The part of a live record that its sessions account for. -/
structure SessionsBalanced (e : EscrowRecord Addr) : Prop where
  completed_lt : e.sessionsCompleted < e.totalSessions
  amount_eq : e.amount =
    e.quotedTokenAmount - e.sessionsCompleted * (e.quotedTokenAmount / e.totalSessions)
  released_eq : e.platformFee + e.netAmount = e.quotedTokenAmount - e.amount
  fee_nonneg : 0 ≤ e.platformFee
  net_nonneg : 0 ≤ e.netAmount

/-- What every stored record satisfies. -/
structure RecordInvariant (e : EscrowRecord Addr) : Prop where
  not_pending : e.status ≠ .pending
  sessions_pos : 0 < e.totalSessions
  sessions_le : (e.totalSessions : ℤ) ≤ e.quotedTokenAmount
  quoted_le : e.quotedTokenAmount ≤ maxFinancialAmount
  amount_nonneg : 0 ≤ e.amount
  completed_le : e.sessionsCompleted ≤ e.totalSessions
  live : e.status.IsLive → SessionsBalanced e

theorem RecordInvariant.quoted_nonneg {e : EscrowRecord Addr} (h : RecordInvariant e) :
    0 ≤ e.quotedTokenAmount := by
  have := h.sessions_le
  omega

/-- One session is worth at least nothing. -/
theorem RecordInvariant.perSession_nonneg {e : EscrowRecord Addr} (h : RecordInvariant e) :
    0 ≤ e.quotedTokenAmount / e.totalSessions :=
  Int.ediv_nonneg h.quoted_nonneg (by omega)

/-- The sessions together are worth at most the deposit. -/
theorem RecordInvariant.sessions_mul_le {e : EscrowRecord Addr} (h : RecordInvariant e)
    {n : ℕ} (hn : n ≤ e.totalSessions) :
    (n : ℤ) * (e.quotedTokenAmount / e.totalSessions) ≤ e.quotedTokenAmount := by
  have hper := h.perSession_nonneg
  have hn' : (n : ℤ) ≤ e.totalSessions := by exact_mod_cast hn
  calc (n : ℤ) * (e.quotedTokenAmount / e.totalSessions)
      ≤ e.totalSessions * (e.quotedTokenAmount / e.totalSessions) :=
        mul_le_mul_of_nonneg_right hn' hper
    _ ≤ e.quotedTokenAmount := Int.mul_ediv_self_le (by have := h.sessions_pos; omega)

/-- How an entry point may rewrite a record while it pays `gross` out. -/
structure Progress (e e' : EscrowRecord Addr) (gross : ℤ) : Prop where
  id_eq : e'.id = e.id
  token_eq : e'.tokenAddress = e.tokenAddress
  quoted_eq : e'.quotedTokenAmount = e.quotedTokenAmount
  total_eq : e'.totalSessions = e.totalSessions
  status : e'.status = e.status ∨ EscrowStatus.isValidTransition e.status e'.status = true
  gross_nonneg : 0 ≤ gross
  live : e.status.IsLive
  owed : (if e'.status.IsLive then e'.amount else 0) = e.amount - gross
  invariant : RecordInvariant e'

end Records

variable {Addr : Type} [DecidableEq Addr] {self : Addr}

theorem Progress.owed_eq {e e' : EscrowRecord Addr} {gross : ℤ} (h : Progress e e' gross)
    (token : Addr) :
    owedByEscrow token (some e') =
      owedByEscrow token (some e) - if token = e.tokenAddress then gross else 0 := by
  have howed := h.owed
  by_cases ht : e.tokenAddress = token
  · simp only [owedByEscrow, h.token_eq, ht, h.live, and_true, true_and, if_true]
    exact howed
  · have ht' : ¬ token = e.tokenAddress := fun heq => ht heq.symm
    simp [owedByEscrow, h.token_eq, ht, ht']

/-- The record `id` is rewritten from `e` to `e'` and the contract pays `gross` out. -/
structure Settlement (home : Addr) (s t : Custody Addr) (id : ℕ) (e e' : EscrowRecord Addr)
    (gross : ℤ) : Prop where
  found : s.book.escrow id = some e
  escrow : t.book.escrow = Function.update s.book.escrow id (some e')
  milestone : t.book.milestone = s.book.milestone
  escrowCount : t.book.escrowCount = s.book.escrowCount
  milestoneCount : t.book.milestoneCount = s.book.milestoneCount
  flow : Tokens.Flow home e.tokenAddress 0 gross s.tokens t.tokens

theorem Settlement.of_setEscrow {s u : Custody Addr} {b : Book Addr} {id : ℕ}
    {e r : EscrowRecord Addr} {gross : ℤ} (he : s.book.escrow id = some e)
    (hu : u.book = s.book) (hb : u.book.SameEscrows b)
    (hflow : Tokens.Flow self e.tokenAddress 0 gross s.tokens u.tokens) :
    Settlement self s { u with book := b.setEscrow id r } id e r gross where
  found := he
  escrow := by rw [← hu, ← hb.escrow]; rfl
  milestone := by rw [← hu, ← hb.milestone]; rfl
  escrowCount := by rw [← hu, ← hb.escrowCount]; rfl
  milestoneCount := by rw [← hu, ← hb.milestoneCount]; rfl
  flow := hflow

/-- A new record, and the deposit that funds it. -/
structure Opening (home : Addr) (s t : Custody Addr) (e : EscrowRecord Addr) : Prop where
  escrow : t.book.escrow = Function.update s.book.escrow (s.book.escrowCount + 1) (some e)
  milestone : t.book.milestone = s.book.milestone
  escrowCount : t.book.escrowCount = s.book.escrowCount + 1
  milestoneCount : t.book.milestoneCount = s.book.milestoneCount
  id_eq : e.id = s.book.escrowCount + 1
  status : e.status = .active
  quoted_eq : e.quotedTokenAmount = e.amount
  completed : e.sessionsCompleted = 0
  fee : e.platformFee = 0
  net : e.netAmount = 0
  invariant : RecordInvariant e
  flow : Tokens.Flow home e.tokenAddress e.amount 0 s.tokens t.tokens

section Helpers

omit [DecidableEq Addr] in
@[simp] theorem transitionStatus_eq_ok {inv : Invocation Addr self} {b : Book Addr} {id : ℕ}
    {old new : EscrowStatus} {actor : Addr} {x : EscrowStatus × Book Addr} :
    transitionStatus inv b id old new actor = .ok x ↔
      EscrowStatus.isValidTransition old new = true ∧
        (new, b.logTransition id ⟨old, new, actor, inv.timestamp⟩) = x := by
  simp only [transitionStatus, bind_eq_ok, EscrowStatus.transition_eq_ok, pure_eq_ok]
  constructor
  · rintro ⟨_, ⟨hv, rfl⟩, rfl⟩
    exact ⟨hv, rfl⟩
  · rintro ⟨hv, rfl⟩
    exact ⟨new, ⟨hv, rfl⟩, rfl⟩

omit [DecidableEq Addr] in
@[simp] theorem loadEscrow_eq_ok {b : Book Addr} {id : ℕ} {e : EscrowRecord Addr} :
    loadEscrow b id = .ok e ↔ b.escrow id = some e := by
  simp [loadEscrow]

omit [DecidableEq Addr] in
@[simp] theorem storedAdmin_eq_ok {inv : Invocation Addr self} {c : Config Addr}
    {missing : String} {a : Addr} :
    storedAdmin inv c missing = .ok a ↔ c.admin = some a ∧ inv.auth a = true := by
  simp only [storedAdmin, bind_eq_ok, expect_eq_ok, requireAuth_eq_ok, pure_eq_ok]
  constructor
  · rintro ⟨b, hb, -, ha, rfl⟩
    exact ⟨hb, ha⟩
  · rintro ⟨hb, ha⟩
    exact ⟨a, hb, (), ha, rfl⟩

theorem transferIfPositive_flow {inv : Invocation Addr self} {tokens tokens' : Tokens Addr}
    {token recipient : Addr} {amount : ℤ} (hamount : 0 ≤ amount)
    (h : transferIfPositive inv tokens token recipient amount = .ok tokens') :
    Tokens.Flow self token 0 amount tokens tokens' := by
  unfold transferIfPositive at h
  split_ifs at h with hpos
  · exact Tokens.transfer_flow_out h
  · obtain rfl : amount = 0 := by omega
    rw [pure_eq_ok] at h
    exact h ▸ Tokens.Flow.refl self token tokens

theorem payRelease_flow {inv : Invocation Addr self} {c : Config Addr}
    {tokens tokens' : Tokens Addr} {token mentor : Addr} {fee net : ℤ} (hfee : 0 ≤ fee)
    (h : payRelease inv c tokens token mentor fee net = .ok tokens') :
    0 ≤ net ∧ Tokens.Flow self token 0 (fee + net) tokens tokens' := by
  simp only [payRelease, bind_eq_ok] at h
  obtain ⟨treasury, -, mid, hmid, hnet⟩ := h
  have hflow := (transferIfPositive_flow hfee hmid).trans (Tokens.transfer_flow_out hnet)
  exact ⟨(Tokens.transfer_eq_ok hnet).1, by simpa using hflow⟩

/-- The contract can pay out what it holds. -/
theorem payRelease_isOk {inv : Invocation Addr self} {c : Config Addr} {tokens : Tokens Addr}
    {token m treasury : Addr} {fee net : ℤ} (haccepts : ∀ x, inv.accepts x = true)
    (htreasury : c.treasury = some treasury) (hfee : 0 ≤ fee) (hnet : 0 ≤ net)
    (hfunded : fee + net ≤ tokens.balance token self) :
    ∃ tokens', payRelease inv c tokens token m fee net = .ok tokens' := by
  have hpaid : ∃ mid, transferIfPositive inv tokens token treasury fee = .ok mid := by
    unfold transferIfPositive
    split_ifs
    · exact Tokens.transfer_isOk haccepts hfee (by omega)
    · exact ⟨tokens, rfl⟩
  obtain ⟨mid, hmid⟩ := hpaid
  have hleft := (transferIfPositive_flow hfee hmid).le_balance
  have hnet' : net ≤ mid.balance token self := by omega
  obtain ⟨tokens', htokens⟩ := Tokens.transfer_isOk (r := m) haccepts hnet hnet'
  refine ⟨tokens', ?_⟩
  simp only [payRelease, bind_eq_ok, expect_eq_ok]
  exact ⟨treasury, htreasury, mid, hmid, htokens⟩

theorem settleRelease_spec {inv : Invocation Addr self} {c : Config Addr} {s : Custody Addr}
    {e : EscrowRecord Addr} {gross fee net : ℤ} {price : PriceCache}
    {x : EscrowRecord Addr × Custody Addr} (hfee : 0 ≤ fee)
    (h : settleRelease inv c s e gross fee net price = .ok x) :
    0 ≤ net ∧ x.1 = { e with
      amount := e.amount - gross
      platformFee := e.platformFee + fee
      netAmount := e.netAmount + net } ∧ x.2.book = s.book ∧
      Tokens.Flow self e.tokenAddress 0 (fee + net) s.tokens x.2.tokens := by
  simp only [settleRelease, bind_eq_ok, safeSub_eq_ok, safeAdd_eq_ok, pure_eq_ok] at h
  obtain ⟨tokens, hpay, _, ⟨-, rfl⟩, _, ⟨-, rfl⟩, _, ⟨-, rfl⟩, rfl⟩ := h
  obtain ⟨hnet, hflow⟩ := payRelease_flow hfee hpay
  exact ⟨hnet, rfl, rfl, hflow⟩

end Helpers

section Release

variable {inv : Invocation Addr self} {c : Config Addr} {s t : Custody Addr}
  {e : EscrowRecord Addr} {id : ℕ} {actor : Addr}

omit [DecidableEq Addr] in
/-- A record whose last unit of money has been paid out. -/
private theorem progress_released {e e' : EscrowRecord Addr} (he : RecordInvariant e)
    (hactive : e.status = .active) (hstatus : e'.status = .released) (hid : e'.id = e.id)
    (htoken : e'.tokenAddress = e.tokenAddress)
    (hquoted : e'.quotedTokenAmount = e.quotedTokenAmount)
    (htotal : e'.totalSessions = e.totalSessions) (hamount : 0 ≤ e'.amount)
    (hcompleted : e'.sessionsCompleted ≤ e'.totalSessions) : Progress e e' e.amount where
  id_eq := hid
  token_eq := htoken
  quoted_eq := hquoted
  total_eq := htotal
  status := .inr (by rw [hactive, hstatus]; rfl)
  gross_nonneg := he.amount_nonneg
  live := .inl hactive
  owed := by simp [hstatus, EscrowStatus.IsLive]
  invariant := {
    not_pending := by simp [hstatus]
    sessions_pos := htotal ▸ he.sessions_pos
    sessions_le := by rw [htotal, hquoted]; exact he.sessions_le
    quoted_le := hquoted ▸ he.quoted_le
    amount_nonneg := hamount
    completed_le := hcompleted
    live := by simp [hstatus, EscrowStatus.IsLive] }

theorem doRelease_spec (hc : c.FeeCapped) (he : s.book.escrow id = some e)
    (hinv : RecordInvariant e) (hactive : e.status = .active)
    (h : doRelease inv c s e id actor = .ok t) :
    ∃ e', Settlement self s t id e e' e.amount ∧ Progress e e' e.amount := by
  simp only [doRelease, bind_eq_ok, safeSub_eq_ok, transitionStatus_eq_ok, pure_eq_ok] at h
  obtain ⟨quote, hquote, _, ⟨-, rfl⟩, ⟨settled, u⟩, hsettle, _, ⟨-, rfl⟩, rfl⟩ := h
  have hfee := (computeFeeUnified_isFee hc hquote).bounds hinv.amount_nonneg
  obtain ⟨-, rfl, hbook, hflow⟩ := settleRelease_spec hfee.1 hsettle
  have hpaid : Tokens.Flow self e.tokenAddress 0 e.amount s.tokens u.tokens := by
    simpa using hflow
  exact ⟨_, .of_setEscrow he hbook (Book.logTransition_sameEscrows _ _ _) hpaid,
    progress_released hinv hactive rfl rfl rfl rfl rfl (sub_self e.amount).ge
      hinv.completed_le⟩

theorem doReleaseSimple_spec (hc : c.FeeCapped) (he : s.book.escrow id = some e)
    (hinv : RecordInvariant e) (hactive : e.status = .active)
    (h : doReleaseSimple inv c s e id actor = .ok t) :
    ∃ e', Settlement self s t id e e' e.amount ∧ Progress e e' e.amount := by
  simp only [doReleaseSimple, bind_eq_ok, safeSub_eq_ok, transitionStatus_eq_ok,
    pure_eq_ok] at h
  obtain ⟨fee, hflat, _, ⟨-, rfl⟩, ⟨settled, u⟩, hsettle, _, ⟨-, rfl⟩, rfl⟩ := h
  have hfee := (flatFee_isFee hc hflat).bounds hinv.amount_nonneg
  obtain ⟨-, rfl, hbook, hflow⟩ := settleRelease_spec hfee.1 hsettle
  have hpaid : Tokens.Flow self e.tokenAddress 0 e.amount s.tokens u.tokens := by
    simpa using hflow
  exact ⟨_, .of_setEscrow he hbook (Book.logTransition_sameEscrows _ _ _) hpaid,
    progress_released hinv hactive rfl rfl rfl rfl rfl (sub_self e.amount).ge
      hinv.completed_le⟩

theorem releaseFunds_spec {isolated : ℕ → Bool} (hc : c.FeeCapped)
    (hs : ∀ e, s.book.escrow id = some e → RecordInvariant e)
    (h : releaseFunds inv c isolated s actor id = .ok t) :
    ∃ e e' gross, Settlement self s t id e e' gross ∧ Progress e e' gross := by
  simp only [releaseFunds, bind_eq_ok, loadEscrow_eq_ok, require_eq_ok] at h
  obtain ⟨e, he, -, hactive, -, -, _, -, -, -, -, -, -, -, hrelease⟩ := h
  obtain ⟨e', hsettle, hprogress⟩ := doRelease_spec hc (by exact he) (hs e he) hactive hrelease
  exact ⟨e, e', e.amount, ⟨he, hsettle.escrow, hsettle.milestone, hsettle.escrowCount,
    hsettle.milestoneCount, hsettle.flow⟩, hprogress⟩

theorem adminRelease_spec (hc : c.FeeCapped)
    (hs : ∀ e, s.book.escrow id = some e → RecordInvariant e)
    (h : adminRelease inv c s id = .ok t) :
    ∃ e e' gross, Settlement self s t id e e' gross ∧ Progress e e' gross := by
  simp only [adminRelease, bind_eq_ok, loadEscrow_eq_ok, require_eq_ok] at h
  obtain ⟨e, he, -, hactive, _, -, hrelease⟩ := h
  obtain ⟨e', hsettle, hprogress⟩ := doRelease_spec hc he (hs e he) hactive hrelease
  exact ⟨e, e', e.amount, hsettle, hprogress⟩

end Release

section Sessions

variable {inv : Invocation Addr self} {c : Config Addr} {s t : Custody Addr}
  {e : EscrowRecord Addr} {id : ℕ} {actor : Addr}

omit [DecidableEq Addr]

/-- What a release of `sessions` sessions is worth. -/
def grossOf (e : EscrowRecord Addr) (sessions : ℕ) : ℤ :=
  if e.sessionsCompleted + sessions = e.totalSessions then e.amount
  else sessions * (e.quotedTokenAmount / e.totalSessions)

/-- The record after `sessions` sessions worth `gross` were released for a fee of `fee`. -/
def afterSessions (e : EscrowRecord Addr) (sessions : ℕ) (gross fee : ℤ) :
    EscrowRecord Addr :=
  { e with
    amount := e.amount - gross
    platformFee := e.platformFee + fee
    netAmount := e.netAmount + (gross - fee)
    sessionsCompleted := e.sessionsCompleted + sessions
    status := if e.sessionsCompleted + sessions = e.totalSessions then .released else e.status }

theorem grossOf_nonneg (he : RecordInvariant e) (sessions : ℕ) : 0 ≤ grossOf e sessions := by
  have hper := he.perSession_nonneg
  have hamount := he.amount_nonneg
  unfold grossOf
  split_ifs
  · exact hamount
  · positivity

theorem sessionAmount_eq (he : RecordInvariant e) {gross : ℤ}
    (h : sessionAmount e = .ok gross) : gross = grossOf e 1 := by
  unfold sessionAmount at h
  unfold grossOf
  split_ifs at h ⊢ with hlast
  · exact (pure_eq_ok.mp h).symm
  · rw [safeDiv_eq_ok] at h
    rw [← h.2, Int.tdiv_eq_ediv_of_nonneg he.quoted_nonneg]
    simp

theorem batchAmount_eq (he : RecordInvariant e) {sessions : ℕ} {gross : ℤ}
    (h : batchAmount e sessions = .ok gross) : gross = grossOf e sessions := by
  simp only [batchAmount, bind_eq_ok, safeDiv_eq_ok] at h
  obtain ⟨_, ⟨-, rfl⟩, h⟩ := h
  unfold grossOf
  split_ifs at h ⊢ with hlast
  · exact (pure_eq_ok.mp h).symm
  · rw [safeMul_eq_ok, Int.tdiv_eq_ediv_of_nonneg he.quoted_nonneg] at h
    rw [← h.2, mul_comm]

theorem afterSessions_progress (he : RecordInvariant e) (hactive : e.status = .active)
    {sessions : ℕ} (hle : e.sessionsCompleted + sessions ≤ e.totalSessions) {fee : ℤ}
    (hfee : IsFee (grossOf e sessions) fee) :
    Progress e (afterSessions e sessions (grossOf e sessions) fee) (grossOf e sessions) := by
  have hlive := he.live (.inl hactive)
  have hgross := grossOf_nonneg he sessions
  have hbounds := hfee.bounds hgross
  by_cases hlast : e.sessionsCompleted + sessions = e.totalSessions
  · have hg : grossOf e sessions = e.amount := by simp [grossOf, hlast]
    rw [hg]
    exact progress_released he hactive (by simp [afterSessions, hlast]) rfl rfl rfl rfl
      (by simp [afterSessions]) (by simp [afterSessions, hlast])
  · have hg : grossOf e sessions = sessions * (e.quotedTokenAmount / e.totalSessions) := by
      simp [grossOf, hlast]
    have hamount : e.amount - grossOf e sessions = e.quotedTokenAmount -
        ((e.sessionsCompleted + sessions : ℕ) : ℤ) *
          (e.quotedTokenAmount / e.totalSessions) := by
      rw [hg, hlive.amount_eq]
      push_cast
      ring
    have hnonneg : 0 ≤ e.amount - grossOf e sessions := by
      have := he.sessions_mul_le hle
      omega
    have hreleased := hlive.released_eq
    exact {
      id_eq := rfl
      token_eq := rfl
      quoted_eq := rfl
      total_eq := rfl
      status := .inl (by simp [afterSessions, hlast])
      gross_nonneg := hgross
      live := .inl hactive
      owed := by simp [afterSessions, hlast, hactive, EscrowStatus.IsLive]
      invariant := {
        not_pending := by simp [afterSessions, hlast, hactive]
        sessions_pos := he.sessions_pos
        sessions_le := he.sessions_le
        quoted_le := he.quoted_le
        amount_nonneg := hnonneg
        completed_le := hle
        live := fun _ => {
          completed_lt := lt_of_le_of_ne hle hlast
          amount_eq := hamount
          released_eq := by simp only [afterSessions]; omega
          fee_nonneg := add_nonneg hlive.fee_nonneg hbounds.1
          net_nonneg := add_nonneg hlive.net_nonneg (by omega) } } }

theorem RecordInvariant.amount_le (he : RecordInvariant e) (hactive : e.status = .active) :
    e.amount ≤ maxFinancialAmount := by
  have hlive := he.live (.inl hactive)
  have hreleased := hlive.released_eq
  have hfees := hlive.fee_nonneg
  have hnets := hlive.net_nonneg
  have hquoted := he.quoted_le
  omega

/-- The sessions that remain are never worth more than the record still holds. -/
theorem grossOf_le (he : RecordInvariant e) (hactive : e.status = .active)
    (sessions : ℕ) (hle : e.sessionsCompleted + sessions ≤ e.totalSessions) :
    grossOf e sessions ≤ e.amount := by
  have hfree : IsFee (grossOf e sessions) 0 := ⟨0, by decide, by simp⟩
  have hprogress := afterSessions_progress he hactive hle hfree
  have hleft : 0 ≤ e.amount - grossOf e sessions := hprogress.invariant.amount_nonneg
  omega

theorem sessionValue_ok (he : RecordInvariant e) :
    safeDiv e.quotedTokenAmount e.totalSessions =
      .ok (e.quotedTokenAmount / e.totalSessions) := by
  have hsessions := he.sessions_pos
  have hquoted := he.quoted_nonneg
  have hmax := he.quoted_le
  have hper := he.perSession_nonneg
  have hle : e.quotedTokenAmount / (e.totalSessions : ℤ) ≤ e.quotedTokenAmount :=
    Int.ediv_le_self _ hquoted
  rw [safeDiv_eq_ok, Int.tdiv_eq_ediv_of_nonneg hquoted]
  unfold FitsI128 maxFinancialAmount at *
  omega

theorem sessionAmount_isOk (he : RecordInvariant e) : sessionAmount e = .ok (grossOf e 1) := by
  unfold sessionAmount grossOf
  split_ifs with hlast
  · rfl
  · rw [sessionValue_ok he, Nat.cast_one, one_mul]

theorem batchAmount_isOk (he : RecordInvariant e) {sessions : ℕ}
    (hle : sessions ≤ e.totalSessions) : batchAmount e sessions = .ok (grossOf e sessions) := by
  have hper := he.perSession_nonneg
  have hmax := he.quoted_le
  have hbound := he.sessions_mul_le hle
  have hproduct : 0 ≤ (sessions : ℤ) * (e.quotedTokenAmount / e.totalSessions) := by positivity
  unfold batchAmount grossOf
  rw [sessionValue_ok he, ok_bind]
  split_ifs with hlast
  · rfl
  · rw [safeMul_eq_ok, mul_comm]
    unfold FitsI128 maxFinancialAmount at *
    omega

variable [DecidableEq Addr]

theorem releaseSessions_spec (hc : c.FeeCapped) (he : s.book.escrow id = some e)
    {sessions : ℕ} {gross : ℤ} (hgross : 0 ≤ gross)
    (h : releaseSessions inv c s e id actor sessions gross = .ok t) :
    ∃ fee, IsFee gross fee ∧
      Settlement self s t id e (afterSessions e sessions gross fee) gross := by
  simp only [releaseSessions, bind_eq_ok, safeSub_eq_ok, u32_eq_ok] at h
  obtain ⟨quote, hquote, _, ⟨-, rfl⟩, ⟨settled, u⟩, hsettle, _, ⟨-, rfl⟩, h⟩ := h
  have hfee := computeFeeUnified_isFee hc hquote
  obtain ⟨-, rfl, hbook, hflow⟩ := settleRelease_spec (hfee.bounds hgross).1 hsettle
  refine ⟨quote.fee, hfee, ?_⟩
  have hpaid : Tokens.Flow self e.tokenAddress 0 gross s.tokens u.tokens := by
    simpa using hflow
  split_ifs at h with hlast
  · simp only [bind_eq_ok, transitionStatus_eq_ok, pure_eq_ok] at h
    obtain ⟨_, ⟨-, rfl⟩, rfl⟩ := h
    have hsettled := Settlement.of_setEscrow
      (r := afterSessions e sessions gross quote.fee)
      (b := { u.book.logTransition e.id ⟨e.status, .released, actor, inv.timestamp⟩ with
        session := Function.update u.book.session e.sessionId false })
      he hbook ⟨rfl, rfl, rfl, rfl⟩ hpaid
    simpa [afterSessions, hlast, Book.logTransition] using hsettled
  · obtain rfl := pure_eq_ok.mp h
    have hsettled := Settlement.of_setEscrow
      (r := afterSessions e sessions gross quote.fee) he hbook (Book.SameEscrows.refl _) hpaid
    simpa [afterSessions, hlast] using hsettled

theorem releasePartial_spec (hc : c.FeeCapped)
    (hs : ∀ e, s.book.escrow id = some e → RecordInvariant e)
    (h : releasePartial inv c s actor id = .ok t) :
    ∃ e fee, e.status = .active ∧ e.sessionsCompleted + 1 ≤ e.totalSessions ∧
      IsFee (grossOf e 1) fee ∧
      Settlement self s t id e (afterSessions e 1 (grossOf e 1) fee) (grossOf e 1) := by
  simp only [releasePartial, bind_eq_ok, loadEscrow_eq_ok, require_eq_ok] at h
  obtain ⟨e, he, -, hactive, -, hlt, _, -, -, -, -, -, gross, hgross, hrelease⟩ := h
  obtain rfl := sessionAmount_eq (hs e he) hgross
  obtain ⟨fee, hfee, hsettle⟩ :=
    releaseSessions_spec hc he (grossOf_nonneg (hs e he) 1) hrelease
  exact ⟨e, fee, hactive, hlt, hfee, hsettle⟩

theorem batchRelease_spec (hc : c.FeeCapped)
    (hs : ∀ e, s.book.escrow id = some e → RecordInvariant e) {sessions : ℕ}
    (h : batchRelease inv c s actor id sessions = .ok t) :
    ∃ e fee, e.status = .active ∧ sessions ≠ 0 ∧
      e.sessionsCompleted + sessions ≤ e.totalSessions ∧
      IsFee (grossOf e sessions) fee ∧
      Settlement self s t id e (afterSessions e sessions (grossOf e sessions) fee)
        (grossOf e sessions) := by
  simp only [batchRelease, bind_eq_ok, loadEscrow_eq_ok, require_eq_ok] at h
  obtain ⟨e, he, _, -, -, -, -, -, -, hactive, -, hne, -, hle, -, hsessions, gross, hgross,
    hrelease⟩ := h
  obtain rfl := batchAmount_eq (hs e he) hgross
  obtain ⟨fee, hfee, hsettle⟩ :=
    releaseSessions_spec hc he (grossOf_nonneg (hs e he) sessions) hrelease
  exact ⟨e, fee, hactive, hne, by omega, hfee, hsettle⟩

end Sessions

section DisputeAndRefund

variable {inv : Invocation Addr self} {c : Config Addr} {s t : Custody Addr} {id : ℕ}

theorem dispute_spec {caller : Addr} {reason : String}
    (hs : ∀ e, s.book.escrow id = some e → RecordInvariant e)
    (h : dispute inv s caller id reason = .ok t) :
    ∃ e e' gross, Settlement self s t id e e' gross ∧ Progress e e' gross := by
  simp only [dispute, bind_eq_ok, loadEscrow_eq_ok, require_eq_ok, transitionStatus_eq_ok,
    pure_eq_ok] at h
  obtain ⟨e, he, -, hactive, -, -, -, -, _, ⟨hvalid, rfl⟩, rfl⟩ := h
  have hinv := hs e he
  have hlive := hinv.live (.inl hactive)
  refine ⟨e, _, 0, ⟨he, rfl, rfl, rfl, rfl, Tokens.Flow.refl _ _ _⟩,
    { id_eq := rfl, token_eq := rfl, quoted_eq := rfl, total_eq := rfl,
      status := .inr hvalid, gross_nonneg := le_rfl, live := .inl hactive,
      owed := by simp [EscrowStatus.IsLive],
      invariant := ?_ }⟩
  exact {
    not_pending := by simp
    sessions_pos := hinv.sessions_pos
    sessions_le := hinv.sessions_le
    quoted_le := hinv.quoted_le
    amount_nonneg := hinv.amount_nonneg
    completed_le := hinv.completed_le
    live := fun _ => ⟨hlive.completed_lt, hlive.amount_eq, hlive.released_eq,
      hlive.fee_nonneg, hlive.net_nonneg⟩ }

omit [DecidableEq Addr] in
/-- A record that is closed while its amount stays on it. -/
private theorem progress_closed {e e' : EscrowRecord Addr} (he : RecordInvariant e)
    (hlive : e.status.IsLive) (hvalid : EscrowStatus.isValidTransition e.status e'.status = true)
    (hclosed : ¬ e'.status.IsLive) (hpending : e'.status ≠ .pending) (hid : e'.id = e.id)
    (htoken : e'.tokenAddress = e.tokenAddress)
    (hquoted : e'.quotedTokenAmount = e.quotedTokenAmount)
    (htotal : e'.totalSessions = e.totalSessions) (hamount : e'.amount = e.amount)
    (hcompleted : e'.sessionsCompleted = e.sessionsCompleted) : Progress e e' e.amount where
  id_eq := hid
  token_eq := htoken
  quoted_eq := hquoted
  total_eq := htotal
  status := .inr hvalid
  gross_nonneg := he.amount_nonneg
  live := hlive
  owed := by simp [hclosed]
  invariant := {
    not_pending := hpending
    sessions_pos := htotal ▸ he.sessions_pos
    sessions_le := by rw [htotal, hquoted]; exact he.sessions_le
    quoted_le := hquoted ▸ he.quoted_le
    amount_nonneg := hamount ▸ he.amount_nonneg
    completed_le := by rw [hcompleted, htotal]; exact he.completed_le
    live := fun h => absurd h hclosed }

theorem refund_spec (hs : ∀ e, s.book.escrow id = some e → RecordInvariant e)
    (h : refund inv c s id = .ok t) :
    ∃ e e' gross, Settlement self s t id e e' gross ∧ Progress e e' gross := by
  simp only [refund, bind_eq_ok, loadEscrow_eq_ok, require_eq_ok, transitionStatus_eq_ok,
    pure_eq_ok] at h
  obtain ⟨_, -, e, he, -, hopen, tokens, hpay, _, ⟨hvalid, rfl⟩, rfl⟩ := h
  have hinv := hs e he
  have hlive : e.status.IsLive := by
    have hpending := hinv.not_pending
    cases hst : e.status <;> simp_all [EscrowStatus.IsLive]
  exact ⟨e, _, e.amount, ⟨he, rfl, rfl, rfl, rfl, Tokens.transfer_flow_out hpay⟩,
    progress_closed hinv hlive hvalid (by simp [EscrowStatus.IsLive]) (by simp) rfl rfl rfl rfl
      rfl rfl⟩

/-- The two shares of a split add up to the whole and neither is negative. -/
theorem split_bounds {amount : ℤ} {pct : ℕ} (hamount : 0 ≤ amount) (hpct : pct ≤ 100) :
    0 ≤ (amount * pct).tdiv 100 ∧ 0 ≤ amount - (amount * pct).tdiv 100 := by
  have hprod : 0 ≤ amount * (pct : ℤ) := by positivity
  have hle : amount * (pct : ℤ) ≤ amount * 100 :=
    mul_le_mul_of_nonneg_left (by exact_mod_cast hpct) hamount
  rw [Int.tdiv_eq_ediv_of_nonneg hprod]
  omega

theorem resolveDispute_spec {isolated : ℕ → Bool} {mentorPct : ℕ}
    (hs : ∀ e, s.book.escrow id = some e → RecordInvariant e)
    (h : resolveDispute inv c isolated s id mentorPct = .ok t) :
    ∃ e e' gross, Settlement self s t id e e' gross ∧ Progress e e' gross := by
  simp only [resolveDispute, bind_eq_ok, loadEscrow_eq_ok, require_eq_ok, safeMul_eq_ok,
    safeDiv_eq_ok, safeSub_eq_ok, transitionStatus_eq_ok, pure_eq_ok] at h
  obtain ⟨_, -, -, hpct, -, -, e, he, -, hdisputed, _, ⟨-, rfl⟩, _, ⟨-, rfl⟩, _, ⟨-, rfl⟩,
    mid, hmentor, tokens, hlearner, _, ⟨hvalid, rfl⟩, rfl⟩ := h
  have hinv := hs e he
  obtain ⟨hmentorPos, hlearnerPos⟩ := split_bounds hinv.amount_nonneg hpct
  have hflow := (transferIfPositive_flow hmentorPos hmentor).trans
    (transferIfPositive_flow hlearnerPos hlearner)
  exact ⟨e, _, e.amount, ⟨he, rfl, rfl, rfl, rfl, by simpa using hflow⟩,
    progress_closed hinv (.inr hdisputed) hvalid (by simp [EscrowStatus.IsLive]) (by simp) rfl
      rfl rfl rfl rfl rfl⟩

end DisputeAndRefund

end Escrow
