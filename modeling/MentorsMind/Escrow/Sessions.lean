import MentorsMind.Escrow.Solvency

/-! Session by session release: whatever way the sessions are batched, the deposit is paid
out exactly, and a batch pays what its sessions would have paid one by one. -/
namespace Escrow
open Outcome Soroban Shared

variable {Addr : Type}

/-- The entry points that create a regular escrow. -/
def Call.createsEscrow : Call Addr → Bool
  | .custody (.createEscrow ..) | .custody (.createEscrowUsd _)
  | .custody (.createEscrowWithPathPayment ..) => true
  | _ => false

/-- The entry points that release sessions of the escrow `id`. -/
def Call.releasesSessions (id : ℕ) : Call Addr → Bool
  | .custody (.releasePartial _ escrowId) => escrowId = id
  | .custody (.batchRelease _ escrowId _) => escrowId = id
  | _ => false

/-- The record `e` of an escrow created as `e₀`, after sessions worth `gross` were released. -/
structure SessionLedger (e₀ e : EscrowRecord Addr) (gross : ℤ) : Prop where
  token_eq : e.tokenAddress = e₀.tokenAddress
  completed_le : e.sessionsCompleted ≤ e.totalSessions
  amount_eq : e.amount = e₀.amount - gross
  amount_nonneg : 0 ≤ e.amount
  released_eq : e.platformFee + e.netAmount = gross
  status : (e.status = .active ∧ e.sessionsCompleted < e.totalSessions) ∨
    (e.status = .released ∧ e.sessionsCompleted = e.totalSessions ∧ gross = e₀.amount)

theorem SessionLedger.afterSessions {e₀ e : EscrowRecord Addr} {gross fee : ℤ} {sessions : ℕ}
    (h : SessionLedger e₀ e gross) (he : RecordInvariant e) (hactive : e.status = .active)
    (hle : e.sessionsCompleted + sessions ≤ e.totalSessions)
    (hfee : IsFee (grossOf e sessions) fee) :
    SessionLedger e₀ (afterSessions e sessions (grossOf e sessions) fee)
      (gross + grossOf e sessions) := by
  have hprogress := afterSessions_progress he hactive hle hfee
  have hamount := h.amount_eq
  have hreleased := h.released_eq
  refine {
    token_eq := h.token_eq
    completed_le := hle
    amount_eq := by simp only [Escrow.afterSessions]; omega
    amount_nonneg := hprogress.invariant.amount_nonneg
    released_eq := by simp only [Escrow.afterSessions]; omega
    status := ?_ }
  by_cases hlast : e.sessionsCompleted + sessions = e.totalSessions
  · right
    have hall : grossOf e sessions = e.amount := by simp [grossOf, hlast]
    exact ⟨by simp [Escrow.afterSessions, hlast], hlast, by omega⟩
  · left
    exact ⟨by simp [Escrow.afterSessions, hlast, hactive], lt_of_le_of_ne hle hlast⟩

section Conservation

variable [DecidableEq Addr] {self : Addr} {digests : Digests} {s t : State Addr}
  {initial : Addr → Addr → ℤ}

/-- What a step pays out in `token`, when it releases sessions of the escrow `id`. -/
def sessionGross (id : ℕ) (token : Addr) (s : State Addr) (step : Step Addr self)
    (t : State Addr) : ℤ :=
  if step.2.releasesSessions id = true then
    t.custody.tokens.sent token self - s.custody.tokens.sent token self
  else 0

/-- A step that releases sessions of `id` takes them off an active record. -/
theorem exec_releasesSessions {inv : Invocation Addr self} {call : Call Addr} {id : ℕ}
    (hs : s.WellFormed) (hrelease : call.releasesSessions id = true)
    (h : exec digests inv call s = .ok t) :
    ∃ e sessions fee, e.status = .active ∧
      e.sessionsCompleted + sessions ≤ e.totalSessions ∧ IsFee (grossOf e sessions) fee ∧
      Settlement self s.custody t.custody id e
        (afterSessions e sessions (grossOf e sessions) fee) (grossOf e sessions) := by
  have hc := hs.config.feeCapped
  have hrecord := hs.book.record
  cases call with
  | custody call =>
    simp only [exec, bind_eq_ok, pure_eq_ok] at h
    obtain ⟨custody, hcall, rfl⟩ := h
    cases call with
    | releasePartial caller escrowId =>
      obtain rfl : escrowId = id := by simpa [Call.releasesSessions] using hrelease
      obtain ⟨e, fee, hactive, hle, hfee, hsettle⟩ := releasePartial_spec hc (hrecord _) hcall
      exact ⟨e, 1, fee, hactive, hle, hfee, hsettle⟩
    | batchRelease admin escrowId sessions =>
      obtain rfl : escrowId = id := by simpa [Call.releasesSessions] using hrelease
      obtain ⟨e, fee, hactive, -, hle, hfee, hsettle⟩ := batchRelease_spec hc (hrecord _) hcall
      exact ⟨e, sessions, fee, hactive, hle, hfee, hsettle⟩
    | _ => simp [Call.releasesSessions] at hrelease
  | _ => simp [Call.releasesSessions] at hrelease

/-- The record of an escrow `id` that was created as `e₀`, at some point of a run in which
sessions worth `gross` were released. -/
structure Tracked (id : ℕ) (e₀ : EscrowRecord Addr) (gross : ℤ) (s : State Addr) : Prop where
  wellFormed : s.WellFormed
  ledger : ∃ e, s.custody.book.escrow id = some e ∧ SessionLedger e₀ e gross

theorem Tracked.exec {step : Step Addr self} {id : ℕ} {e₀ : EscrowRecord Addr} {gross : ℤ}
    (h : Tracked id e₀ gross s) (hx : exec digests step.1 step.2 s = .ok t)
    (honly : step.2.releasesSessions id = false →
      t.custody.book.escrow id = s.custody.book.escrow id) :
    Tracked id e₀ (gross + sessionGross id e₀.tokenAddress s step t) t := by
  have ht := exec_wellFormed h.wellFormed hx
  obtain ⟨e, he, hledger⟩ := h.ledger
  by_cases hrelease : step.2.releasesSessions id = true
  · obtain ⟨e', sessions, fee, hactive, hle, hfee, hsettle⟩ :=
      exec_releasesSessions h.wellFormed hrelease hx
    obtain rfl : e' = e := by simpa [he] using hsettle.found.symm
    have hgross : sessionGross id e₀.tokenAddress s step t = grossOf e' sessions := by
      rw [sessionGross, if_pos hrelease, hsettle.flow.sent_eq, if_pos hledger.token_eq.symm]
      ring
    rw [hgross]
    exact ⟨ht, _, by rw [hsettle.escrow]; simp,
      hledger.afterSessions (h.wellFormed.book.record id e' he) hactive hle hfee⟩
  · have hfalse : step.2.releasesSessions id = false := by simpa using hrelease
    rw [sessionGross, if_neg hrelease, add_zero]
    exact ⟨ht, e, by rw [honly hfalse, he], hledger⟩

variable {pre rest : List (Step Addr self)} {step : Step Addr self}

end Conservation

/-- An initialised contract and a learner with 100 units, about to book three sessions. -/
def beforeBooking : List (Step ℕ 0) := [(grantedByAll 0, .initializeEscrow 1 2 500 [9] 0)]

def booking : Step ℕ 0 := (grantedByAll 0, .custody (.createEscrow 4 3 100 "session" 9 0 3))

def booked : State ℕ :=
  (machine 0 lengthDigests).run (deployed learnerFunds) (beforeBooking ++ [booking])

section SessionArithmetic

variable {e : EscrowRecord Addr} {sessions : ℕ}

theorem grossOf_of_lt (h : e.sessionsCompleted + sessions < e.totalSessions) :
    grossOf e sessions = sessions * (e.quotedTokenAmount / e.totalSessions) := by
  rw [grossOf, if_neg h.ne]

theorem afterSessions_zero (h : e.sessionsCompleted < e.totalSessions) :
    afterSessions e 0 (grossOf e 0) 0 = e := by
  simp [afterSessions, grossOf, h.ne]

theorem afterSessions_status_of_lt (h : e.sessionsCompleted + sessions < e.totalSessions)
    (gross fee : ℤ) : (afterSessions e sessions gross fee).status = e.status := by
  simp [afterSessions, h.ne]

/-- One more session after a batch is worth what it adds to the batch. -/
theorem grossOf_succ (h : e.sessionsCompleted + sessions < e.totalSessions) (fee : ℤ) :
    grossOf e sessions + grossOf (afterSessions e sessions (grossOf e sessions) fee) 1 =
      grossOf e (sessions + 1) := by
  have hgross := grossOf_of_lt h
  by_cases hlast : e.sessionsCompleted + (sessions + 1) = e.totalSessions
  · have hone : grossOf (afterSessions e sessions (grossOf e sessions) fee) 1 =
        e.amount - grossOf e sessions := by
      rw [grossOf, if_pos (by simp only [afterSessions]; omega)]
      rfl
    have hall : grossOf e (sessions + 1) = e.amount := by rw [grossOf, if_pos hlast]
    rw [hone, hall]
    ring
  · have hlt : e.sessionsCompleted + (sessions + 1) < e.totalSessions := by omega
    have hone : grossOf (afterSessions e sessions (grossOf e sessions) fee) 1 =
        e.quotedTokenAmount / e.totalSessions := by
      rw [grossOf, if_neg (by simp only [afterSessions]; omega)]
      simp [afterSessions]
    rw [hone, hgross, grossOf_of_lt hlt]
    push_cast
    ring

/-- Releasing one more session after a batch is a batch with one more session. -/
theorem afterSessions_succ (h : e.sessionsCompleted + sessions < e.totalSessions)
    (gross gross' fee fee' : ℤ) :
    afterSessions (afterSessions e sessions gross fee) 1 gross' fee' =
      afterSessions e (sessions + 1) (gross + gross') (fee + fee') := by
  simp only [afterSessions, if_neg h.ne, Nat.add_assoc, EscrowRecord.mk.injEq, true_and,
    and_true]
  refine ⟨?_, ?_, ?_⟩
  · ring
  · ring
  · ring

end SessionArithmetic

section Refinement

variable [DecidableEq Addr] {self : Addr} {digests : Digests} {s t u v : State Addr}
  {e : EscrowRecord Addr} {id k : ℕ} {initial : Addr → Addr → ℤ}

/-- A call that releases one session of the escrow `id`. -/
def Call.IsReleasePartial (id : ℕ) (call : Call Addr) : Prop :=
  ∃ caller, call = .custody (.releasePartial caller id)

/-- `u` comes from `s` by `k` releases of one session of the record `e`. -/
structure AfterPartials (home : Addr) (id : ℕ) (e : EscrowRecord Addr) (s : State Addr) (k : ℕ)
    (u : State Addr) : Prop where
  wellFormed : u.WellFormed
  record : ∃ fee, u.custody.book.escrow id = some (afterSessions e k (grossOf e k) fee)
  sent_eq : u.custody.tokens.sent e.tokenAddress home =
    s.custody.tokens.sent e.tokenAddress home + grossOf e k

theorem AfterPartials.zero (hs : s.WellFormed) (he : s.custody.book.escrow id = some e)
    (hlt : e.sessionsCompleted < e.totalSessions) : AfterPartials self id e s 0 s where
  wellFormed := hs
  record := ⟨0, by rw [afterSessions_zero hlt, he]⟩
  sent_eq := by simp [grossOf, hlt.ne]

theorem AfterPartials.succ {inv : Invocation Addr self} {caller : Addr}
    (h : AfterPartials self id e s k u) (hlt : e.sessionsCompleted + k < e.totalSessions)
    (hx : exec digests inv (.custody (.releasePartial caller id)) u = .ok v) :
    AfterPartials self id e s (k + 1) v := by
  have hv := exec_wellFormed h.wellFormed hx
  simp only [exec, execCustody, bind_eq_ok, pure_eq_ok] at hx
  obtain ⟨custody, hcall, rfl⟩ := hx
  obtain ⟨e', fee', -, -, -, hsettle⟩ :=
    releasePartial_spec h.wellFormed.config.feeCapped (h.wellFormed.book.record id) hcall
  obtain ⟨fee, hrecord⟩ := h.record
  obtain rfl : afterSessions e k (grossOf e k) fee = e' :=
    Option.some.inj (hrecord.symm.trans hsettle.found)
  refine ⟨hv, ⟨fee + fee', ?_⟩, ?_⟩
  · simp only [hsettle.escrow, Function.update_self]
    rw [afterSessions_succ hlt, grossOf_succ hlt fee]
  · have hsent := hsettle.flow.sent_eq e.tokenAddress
    simp only [afterSessions, if_true] at hsent
    rw [hsent, h.sent_eq, add_assoc]
    exact congrArg _ (grossOf_succ hlt fee)

theorem afterPartials_of_execAll {steps : List (Step Addr self)} (hs : s.WellFormed)
    (he : s.custody.book.escrow id = some e) (hlt : e.sessionsCompleted < e.totalSessions)
    (hle : e.sessionsCompleted + steps.length ≤ e.totalSessions)
    (hreleases : ∀ step ∈ steps, step.2.IsReleasePartial id)
    (hx : (machine self digests).execAll s steps = .ok u) :
    AfterPartials self id e s steps.length u := by
  induction steps using List.reverseRecOn generalizing u with
  | nil =>
    obtain rfl : s = u := by simpa using hx
    exact .zero hs he hlt
  | append_singleton steps step ih =>
    rw [List.length_append, List.length_singleton] at hle ⊢
    obtain ⟨w, hw, hstep⟩ := Machine.execAll_snoc_eq_ok.mp hx
    have hsteps := ih (by omega) (fun step' h => hreleases step' (by simp [h])) hw
    obtain ⟨inv, call⟩ := step
    obtain ⟨caller, rfl⟩ := hreleases (inv, call) (by simp)
    exact hsteps.succ (by omega) hstep

/-- What a batch release by `admin` shows about the invocation and the configuration, all of
which a release of one session needs as well. -/
structure ReleaseGranted {home : Addr} (inv : Invocation Addr home) (c : Config Addr)
    (cache : PriceCache) (admin mentor : Addr) : Prop where
  admin_eq : c.admin = some admin
  auth : inv.auth admin = true
  treasury : ∃ treasury, c.treasury = some treasury
  quote : ∃ amount quote, computeFeeUnified inv c cache mentor amount = .ok quote

theorem batchRelease_granted {inv : Invocation Addr self} {c : Config Addr}
    {s t : Custody Addr} {admin : Addr} {sessions : ℕ}
    (h : batchRelease inv c s admin id sessions = .ok t) :
    ∃ e, s.book.escrow id = some e ∧ e.status = .active ∧ 0 < sessions ∧
      e.sessionsCompleted + sessions ≤ e.totalSessions ∧
      e.sessionsCompleted + sessions < 2 ^ 32 ∧
      ReleaseGranted inv c s.price admin e.mentor := by
  simp only [batchRelease, bind_eq_ok, loadEscrow_eq_ok, require_eq_ok, expect_eq_ok,
    requireAuth_eq_ok] at h
  obtain ⟨e, he, stored, hadmin, -, hauth, -, rfl, -, hactive, -, hne, -, hle, -, hsessions,
    gross, -, h⟩ := h
  simp only [releaseSessions, settleRelease, payRelease, bind_eq_ok, expect_eq_ok,
    u32_eq_ok] at h
  obtain ⟨quote, hquote, net, -, settled, ⟨tokens, ⟨treasury, htreasury, -⟩, -⟩, _, ⟨h32, rfl⟩,
    -⟩ := h
  exact ⟨e, he, hactive, Nat.pos_of_ne_zero hne, by omega, h32, hadmin, hauth,
    ⟨treasury, htreasury⟩, gross, quote, hquote⟩

theorem settleRelease_isOk {inv : Invocation Addr self} {c : Config Addr} {s : Custody Addr}
    {gross fee net : ℤ} {tokens : Tokens Addr} (price : PriceCache)
    (htokens : payRelease inv c s.tokens e.tokenAddress e.mentor fee net = .ok tokens)
    (hamount : FitsI128 (e.amount - gross)) (hfee : FitsI128 (e.platformFee + fee))
    (hnet : FitsI128 (e.netAmount + net)) :
    settleRelease inv c s e gross fee net price =
      .ok ({ e with
        amount := e.amount - gross
        platformFee := e.platformFee + fee
        netAmount := e.netAmount + net }, { s with price := price, tokens := tokens }) := by
  simp only [settleRelease, htokens, safeSub_eq_ok.mpr ⟨hamount, rfl⟩,
    safeAdd_eq_ok.mpr ⟨hfee, rfl⟩, safeAdd_eq_ok.mpr ⟨hnet, rfl⟩, ok_bind]
  rfl

/-- Sums of a record that stay within its deposit fit the type. -/
theorem releaseSessions_isOk {inv : Invocation Addr self} {c : Config Addr} {s : Custody Addr}
    {a : Addr} {gross : ℤ} {quote : FeeQuote} {tokens : Tokens Addr} {sessions : ℕ}
    (hinv : RecordInvariant e) (hactive : e.status = .active)
    (hquote : computeFeeUnified inv c s.price e.mentor gross = .ok quote)
    (htokens : payRelease inv c s.tokens e.tokenAddress e.mentor quote.fee (gross - quote.fee) =
      .ok tokens) (hle : gross ≤ e.amount)
    (hfee : 0 ≤ quote.fee ∧ quote.fee ≤ gross)
    (h32 : e.sessionsCompleted + sessions < 2 ^ 32) :
    ∃ t, releaseSessions inv c s e id a sessions gross = .ok t ∧ t.price = quote.price := by
  have hlive := hinv.live (.inl hactive)
  have hquoted := hinv.quoted_le
  have hreleased := hlive.released_eq
  have hfee₀ := hlive.fee_nonneg
  have hnet₀ := hlive.net_nonneg
  simp only [maxFinancialAmount] at hquoted
  have hfits : FitsI128 (gross - quote.fee) ∧ FitsI128 (e.amount - gross) ∧
      FitsI128 (e.platformFee + quote.fee) ∧ FitsI128 (e.netAmount + (gross - quote.fee)) := by
    simp only [FitsI128]
    omega
  obtain ⟨hsub, hrest, hfees, hnets⟩ := hfits
  have hsettle := settleRelease_isOk (s := s) quote.price htokens hrest hfees hnets
  simp only [releaseSessions, hquote, hsettle, safeSub_eq_ok.mpr ⟨hsub, rfl⟩,
    u32_eq_ok.mpr ⟨h32, rfl⟩, ok_bind]
  by_cases hlast : e.sessionsCompleted + sessions = e.totalSessions
  · have hvalid : EscrowStatus.isValidTransition e.status .released = true := by
      rw [hactive]
      rfl
    simp only [if_pos hlast, transitionStatus_eq_ok.mpr ⟨hvalid, rfl⟩, ok_bind]
    exact ⟨_, rfl, rfl⟩
  · simp only [if_neg hlast]
    exact ⟨_, rfl, rfl⟩

/-- A funded active escrow releases its next session when the release is granted. -/
theorem releasePartial_isOk {inv : Invocation Addr self} {c : Config Addr} {s : Custody Addr}
    {cache : PriceCache} {admin : Addr} (haccepts : ∀ x, inv.accepts x = true)
    (hgranted : ReleaseGranted inv c cache admin e.mentor) (hc : c.FeeCapped)
    (hprice : SamePrice inv c cache s.price) (he : s.book.escrow id = some e)
    (hinv : RecordInvariant e) (hactive : e.status = .active)
    (h32 : e.sessionsCompleted + 1 < 2 ^ 32)
    (hfunded : e.amount ≤ s.tokens.balance e.tokenAddress self) :
    ∃ t, releasePartial inv c s admin id = .ok t ∧ SamePrice inv c cache t.price := by
  have hlive := hinv.live (.inl hactive)
  have hgross := grossOf_nonneg hinv 1
  have hmax := hinv.amount_le hactive
  have hle := grossOf_le hinv hactive 1 hlive.completed_lt
  obtain ⟨treasury, htreasury⟩ := hgranted.treasury
  obtain ⟨amount, quote, hquote⟩ := hgranted.quote
  obtain ⟨quote', hquote', hprice'⟩ :=
    computeFeeUnified_isOk hc hquote hprice hgross (hle.trans hmax)
  have hbounds := (computeFeeUnified_isFee hc hquote').bounds hgross
  have hnet : 0 ≤ grossOf e 1 - quote'.fee := by omega
  have hcovered : quote'.fee + (grossOf e 1 - quote'.fee) ≤
      s.tokens.balance e.tokenAddress self := by omega
  obtain ⟨tokens, htokens⟩ :=
    payRelease_isOk (m := e.mentor) haccepts htreasury hbounds.1 hnet hcovered
  obtain ⟨t, ht, hcached⟩ := releaseSessions_isOk (a := admin) hinv hactive hquote' htokens
    hle hbounds h32
  refine ⟨t, ?_, hcached ▸ hprice'⟩
  simp only [releasePartial, bind_eq_ok, loadEscrow_eq_ok, require_eq_ok, expect_eq_ok,
    requireAuth_eq_ok]
  exact ⟨e, he, (), hactive, (), hlive.completed_lt, admin, hgranted.admin_eq, (),
    hgranted.auth, (), .inr rfl, grossOf e 1, sessionAmount_isOk hinv, ht⟩

/-- As `AfterPartials`, where the next release of one session is still granted. -/
structure Continues {home : Addr} (inv : Invocation Addr home) (id : ℕ) (e : EscrowRecord Addr)
    (s : State Addr) (k : ℕ) (u : State Addr) : Prop where
  partials : AfterPartials home id e s k u
  config_eq : u.config = s.config
  price : SamePrice inv s.config s.custody.price u.custody.price
  funded : e.amount - grossOf e k ≤ u.custody.tokens.balance e.tokenAddress home

theorem Continues.succ {inv : Invocation Addr self} {admin : Addr}
    (haccepts : ∀ x, inv.accepts x = true) (hactive : e.status = .active)
    (hgranted : ReleaseGranted inv s.config s.custody.price admin e.mentor)
    (h : Continues inv id e s k u) (hlt : e.sessionsCompleted + k < e.totalSessions)
    (h32 : e.sessionsCompleted + k + 1 < 2 ^ 32) :
    ∃ v, exec digests inv (.custody (.releasePartial admin id)) u = .ok v ∧
      Continues inv id e s (k + 1) v := by
  obtain ⟨fee, hrecord⟩ := h.partials.record
  have hu := h.partials.wellFormed
  have hinv := hu.book.record id _ hrecord
  have hstatus : (afterSessions e k (grossOf e k) fee).status = .active := by
    rw [afterSessions_status_of_lt hlt, hactive]
  obtain ⟨custody, hcall, hprice⟩ := releasePartial_isOk
    (e := afterSessions e k (grossOf e k) fee) haccepts hgranted
    (h.config_eq ▸ hu.config.feeCapped) h.price hrecord hinv hstatus h32 h.funded
  have hx : exec digests inv (.custody (.releasePartial admin id)) u =
      .ok { u with custody := custody } := by
    simp only [exec, execCustody, bind_eq_ok, pure_eq_ok]
    exact ⟨custody, h.config_eq ▸ hcall, rfl⟩
  obtain ⟨e', fee', -, -, -, hsettle⟩ :=
    releasePartial_spec hu.config.feeCapped (hu.book.record id) (h.config_eq ▸ hcall)
  obtain rfl : afterSessions e k (grossOf e k) fee = e' :=
    Option.some.inj (hrecord.symm.trans hsettle.found)
  refine ⟨_, hx, h.partials.succ hlt hx, h.config_eq, hprice, ?_⟩
  have hbalance := hsettle.flow.le_balance
  have hfunded := h.funded
  have hgross := grossOf_succ hlt fee
  simp only [afterSessions] at hbalance hgross ⊢
  omega

/-- As many releases of one session as are left all succeed. -/
theorem replicate_releasePartial_isOk {inv : Invocation Addr self} {admin : Addr}
    (haccepts : ∀ x, inv.accepts x = true) (hs : s.WellFormed)
    (he : s.custody.book.escrow id = some e) (hactive : e.status = .active)
    (hgranted : ReleaseGranted inv s.config s.custody.price admin e.mentor)
    (hfunded : e.amount ≤ s.custody.tokens.balance e.tokenAddress self)
    (hle : e.sessionsCompleted + k ≤ e.totalSessions) (h32 : e.sessionsCompleted + k < 2 ^ 32) :
    ∃ u, (machine self digests).execAll s
        (List.replicate k (inv, .custody (.releasePartial admin id))) = .ok u ∧
      Continues inv id e s k u := by
  have hlt := ((hs.book.record id e he).live (.inl hactive)).completed_lt
  induction k with
  | zero =>
    have hzero : grossOf e 0 = 0 := by simp [grossOf, hlt.ne]
    exact ⟨s, rfl, .zero hs he hlt, rfl, .refl _, by rw [hzero, sub_zero]; exact hfunded⟩
  | succ k ih =>
    obtain ⟨u, hu, hcontinues⟩ := ih (by omega) (by omega)
    obtain ⟨v, hv, hcontinues'⟩ := hcontinues.succ haccepts hactive hgranted hle h32
    refine ⟨v, ?_, hcontinues'⟩
    rw [List.replicate_succ', Machine.execAll_snoc_eq_ok]
    exact ⟨u, hu, hv⟩

/-- Both states left the same of the escrow `id` and paid out the same in `token`. -/
structure SameRelease (home token : Addr) (id : ℕ) (t u : State Addr) : Prop where
  gross : t.custody.tokens.sent token home = u.custody.tokens.sent token home
  record : ∃ e e', t.custody.book.escrow id = some e ∧ u.custody.book.escrow id = some e' ∧
    e.amount = e'.amount ∧ e.sessionsCompleted = e'.sessionsCompleted ∧ e.status = e'.status

/-- A batch of `n` sessions does what `n` releases of one session do, whoever makes them; and
where the escrow is funded and the token accepts, the admin's `n` releases all succeed. -/
theorem batchRelease_refines_releasePartial {pre : List (Step Addr self)}
    {inv : Invocation Addr self} {admin : Addr} {n : ℕ}
    (hx : (machine self digests).exec (inv, .custody (.batchRelease admin id n))
      ((machine self digests).run (deployed initial) pre) = .ok t) :
    ∃ e, ((machine self digests).run (deployed initial) pre).custody.book.escrow id = some e ∧
      e.status = .active ∧
      (∀ steps u, steps.length = n → (∀ step ∈ steps, step.2.IsReleasePartial id) →
        (machine self digests).execAll ((machine self digests).run (deployed initial) pre)
          steps = .ok u → SameRelease self e.tokenAddress id t u) ∧
      ((∀ x, inv.accepts x = true) →
        e.amount ≤ ((machine self digests).run (deployed initial) pre).custody.tokens.balance
          e.tokenAddress self →
        ∃ u, (machine self digests).execAll ((machine self digests).run (deployed initial) pre)
          (List.replicate n (inv, .custody (.releasePartial admin id))) = .ok u) := by
  have hs := run_wellFormed digests initial pre
  generalize (machine self digests).run (deployed initial) pre = s at hx hs ⊢
  simp only [machine, exec, execCustody, bind_eq_ok, pure_eq_ok] at hx
  obtain ⟨custody, hcall, rfl⟩ := hx
  obtain ⟨e, he, hactive, hn, hle, h32, hgranted⟩ := batchRelease_granted hcall
  have hlt := ((hs.book.record id e he).live (.inl hactive)).completed_lt
  refine ⟨e, he, hactive, ?_, ?_⟩
  · rintro steps u rfl hreleases hu
    obtain ⟨e', fee, -, -, -, -, hsettle⟩ :=
      batchRelease_spec hs.config.feeCapped (hs.book.record id) hcall
    obtain rfl : e = e' := Option.some.inj (he.symm.trans hsettle.found)
    have hafter := afterPartials_of_execAll hs he hlt hle hreleases hu
    obtain ⟨fee', hrecord⟩ := hafter.record
    refine ⟨?_, afterSessions e steps.length _ fee, _, by rw [hsettle.escrow]; simp, hrecord,
      rfl, rfl, rfl⟩
    rw [hsettle.flow.sent_eq, if_pos rfl, hafter.sent_eq]
  · intro haccepts hfunded
    obtain ⟨u, hu, -⟩ :=
      replicate_releasePartial_isOk haccepts hs he hactive hgranted hfunded hle h32
    exact ⟨u, hu⟩

end Refinement

theorem batchRelease_refines_releasePartial_booked :
    ∃ e, booked.custody.book.escrow 1 = some e ∧ e.status = .active ∧
      (∀ steps u, steps.length = 2 → (∀ step ∈ steps, step.2.IsReleasePartial 1) →
        (machine 0 lengthDigests).execAll booked steps = .ok u → SameRelease 0 e.tokenAddress 1
          ((machine 0 lengthDigests).apply booked
            (grantedByAll 0, .custody (.batchRelease 1 1 2))) u) ∧
      ((∀ x : Transfer ℕ, (grantedByAll 0).accepts x = true) →
        e.amount ≤ booked.custody.tokens.balance e.tokenAddress 0 →
        ∃ u, (machine 0 lengthDigests).execAll booked
          (List.replicate 2 (grantedByAll 0, .custody (.releasePartial 1 1))) = .ok u) :=
  batchRelease_refines_releasePartial rfl

end Escrow
