import MentorsMind.Escrow.Changes

/-! The session nonces are spent for good. A path payment always spends the one of the
session id `PATHPAY`, so only the first one of a deployment can succeed. -/
namespace Escrow
open Outcome Soroban Shared

section Steps

variable {Addr : Type} [DecidableEq Addr] {self : Addr} {digests : Digests} {s t : State Addr}
  {step : Step Addr self}

omit [DecidableEq Addr] in
theorem restoreRecords_sessionsKept (b : Book Addr) (records : List (EscrowRecord Addr)) :
    SessionsKept b (restoreRecords b records) := by
  induction records generalizing b with
  | nil => exact .refl b
  | cons r records ih =>
    have hrest := ih (b.setEscrow r.id r)
    exact ⟨hrest.nonce, hrest.session⟩

theorem exec_sessionsKept (hs : s.WellFormed) (hcall : step.2.opensSession = none)
    (h : exec digests step.1 step.2 s = .ok t) :
    SessionsKept s.custody.book t.custody.book := by
  cases exec_bookChange hs h with
  | unchanged same => exact same.sessions
  | initialized fresh book => exact .of_eq (by rw [book]) (by rw [book])
  | created sessionId e opens =>
    rw [hcall] at opens
    cases opens
  | rewritten id e e' call rewrites => exact rewrites.sessions
  | milestoneCreated m creates opening new => exact new.sessions
  | milestoneRewritten id m m' rewrites => exact rewrites.sessions
  | restored records restores book =>
    rw [book]
    exact restoreRecords_sessionsKept s.custody.book records

end Steps

section Runs

variable {Addr : Type} [DecidableEq Addr] {self : Addr} {digests : Digests}
  {initial : Addr → Addr → ℤ}

/-- A session with this digest was opened in the run of `steps`. -/
def Opened {home : Addr} (digests : Digests) (initial : Addr → Addr → ℤ)
    (steps : List (Step Addr home)) (digest : Hash) : Prop :=
  ∃ pre step t sessionId, (machine home digests).Executes (deployed initial) steps pre step t ∧
    step.2.opensSession = some sessionId ∧ digests.session sessionId = digest

/-- The nonces that are spent are those of the sessions that were opened. -/
structure NonceHistory {home : Addr} (digests : Digests) (initial : Addr → Addr → ℤ)
    (steps : List (Step Addr home)) (s : State Addr) : Prop where
  wellFormed : s.WellFormed
  spent : ∀ digest, s.custody.book.usedSessionNonce digest = true ↔
    Opened digests initial steps digest
  booked : ∀ sessionId, s.custody.book.session sessionId = true →
    s.custody.book.usedSessionNonce (digests.session sessionId) = true

theorem Opened.append {steps : List (Step Addr self)} {digest : Hash}
    (h : Opened digests initial steps digest) (step : Step Addr self) :
    Opened digests initial (steps ++ [step]) digest := by
  obtain ⟨pre, earlier, t, sessionId, hx, hopens⟩ := h
  exact ⟨pre, earlier, t, sessionId, hx.append [step], hopens⟩

/-- A call that opens no session leaves what was opened. -/
theorem opened_append_iff_of_none {steps : List (Step Addr self)} {step : Step Addr self}
    (hcall : step.2.opensSession = none) {digest : Hash} :
    Opened digests initial (steps ++ [step]) digest ↔ Opened digests initial steps digest := by
  constructor
  · rintro ⟨pre, earlier, t, sessionId, hx, hopens, hdigest⟩
    rcases Machine.executes_append_singleton.mp hx with hbefore | ⟨-, rfl, -⟩
    · exact ⟨pre, earlier, t, sessionId, hbefore, hopens, hdigest⟩
    · rw [hcall] at hopens
      cases hopens
  · intro h
    exact h.append step

theorem opened_append_iff_of_some {steps : List (Step Addr self)} {step : Step Addr self}
    {t : State Addr} {sessionId : String} (hcall : step.2.opensSession = some sessionId)
    (hx : (machine self digests).exec step ((machine self digests).run (deployed initial) steps) =
      .ok t) {digest : Hash} :
    Opened digests initial (steps ++ [step]) digest ↔
      Opened digests initial steps digest ∨ digests.session sessionId = digest := by
  constructor
  · rintro ⟨pre, earlier, t', sid, hx', hopens, hdigest⟩
    rcases Machine.executes_append_singleton.mp hx' with hbefore | ⟨-, rfl, -⟩
    · exact .inl ⟨pre, earlier, t', sid, hbefore, hopens, hdigest⟩
    · obtain rfl : sessionId = sid := Option.some.inj (hcall.symm.trans hopens)
      exact .inr hdigest
  · rintro (h | hdigest)
    · exact h.append step
    · exact ⟨steps, step, t, sessionId, Machine.executes_snoc hx, hcall, hdigest⟩

theorem opened_append_iff_of_error {steps : List (Step Addr self)} {step : Step Addr self}
    {e : Trap} (hx : (machine self digests).exec step
      ((machine self digests).run (deployed initial) steps) = .error e) {digest : Hash} :
    Opened digests initial (steps ++ [step]) digest ↔ Opened digests initial steps digest := by
  unfold Opened
  simp only [Machine.executes_snoc_error hx]

theorem NonceHistory.exec {steps : List (Step Addr self)} {step : Step Addr self}
    {t : State Addr}
    (h : NonceHistory digests initial steps
      ((machine self digests).run (deployed initial) steps))
    (hx : (machine self digests).exec step ((machine self digests).run (deployed initial) steps) =
      .ok t) : NonceHistory digests initial (steps ++ [step]) t := by
  have hwf := exec_wellFormed h.wellFormed hx
  cases hcall : step.2.opensSession with
  | none =>
    have hkept := exec_sessionsKept h.wellFormed hcall hx
    refine ⟨hwf, fun digest => ?_, fun sessionId hopen => ?_⟩
    · rw [hkept.nonce, opened_append_iff_of_none hcall]
      exact h.spent digest
    · rw [hkept.nonce]
      exact h.booked sessionId (hkept.session sessionId hopen)
  | some opened =>
    obtain ⟨e, -, -, hopens⟩ := exec_opensSession hcall hx
    have hnonce := hopens.nonce
    have hsession := hopens.session
    refine ⟨hwf, fun digest => ?_, fun sessionId hopen => ?_⟩
    · rw [hnonce, opened_append_iff_of_some hcall hx, ← h.spent]
      by_cases hdigest : digest = digests.session opened
      · simp [hdigest]
      · rw [Function.update_of_ne hdigest]
        constructor
        · exact .inl
        · rintro (hspent | rfl)
          · exact hspent
          · exact absurd rfl hdigest
    · rw [hsession] at hopen
      rw [hnonce]
      by_cases hdigest : digests.session sessionId = digests.session opened
      · rw [hdigest, Function.update_self]
      · have hne : sessionId ≠ opened := fun heq => hdigest (by rw [heq])
        rw [Function.update_of_ne hne] at hopen
        rw [Function.update_of_ne hdigest]
        exact h.booked sessionId hopen

theorem run_nonceHistory (digests : Digests) (initial : Addr → Addr → ℤ)
    (steps : List (Step Addr self)) :
    NonceHistory digests initial steps
      ((machine self digests).run (deployed initial) steps) := by
  refine Machine.run_history (M := machine self digests)
    (P := fun steps s => NonceHistory digests initial steps s) ?_ ?_ ?_ steps
  · refine ⟨deployed_wellFormed initial, fun digest => ?_, fun sessionId hopen => ?_⟩
    · simp [deployed, emptyBook, Opened, Machine.Executes]
    · simp [deployed, emptyBook] at hopen
  · intro pre step t h hx
    exact h.exec hx
  · intro pre step e h hx
    exact ⟨h.wellFormed, fun digest => (h.spent digest).trans
      (opened_append_iff_of_error hx).symm, h.booked⟩

end Runs

section PathPayments

variable {Addr : Type} [DecidableEq Addr] {self : Addr}

/-- The checks that `create_escrow_with_path_payment` makes on its own inputs. -/
structure PathPaymentAllowed {home : Addr} (inv : Invocation Addr home) (c : Config Addr)
    (s : Custody Addr) (learner sendAsset : Addr) (sendMax : ℤ) (destAsset : Addr)
    (destAmount : ℤ) (totalSessions : ℕ) : Prop where
  sendApproved : c.approvedToken sendAsset = true
  destApproved : c.approvedToken destAsset = true
  amount_pos : 0 < destAmount
  amount_le : destAmount ≤ maxFinancialAmount
  sendMax_le : sendMax ≤ maxFinancialAmount
  slippage : destAmount ≤ sendMax
  sessions_pos : 0 < totalSessions
  sessions_le : (totalSessions : ℤ) ≤ destAmount
  auth : inv.auth learner = true
  funded : destAmount ≤ s.tokens.balance destAsset learner
  accepted : inv.accepts ⟨destAsset, learner, home, destAmount⟩ = true

theorem PathPaymentAllowed.transfer_isOk {inv : Invocation Addr self} {c : Config Addr}
    {s : Custody Addr} {learner sendAsset destAsset : Addr} {sendMax destAmount : ℤ}
    {totalSessions : ℕ}
    (h : PathPaymentAllowed inv c s learner sendAsset sendMax destAsset destAmount
      totalSessions) :
    ∃ tokens, s.tokens.transfer inv.accepts destAsset learner self destAmount = .ok tokens :=
  Tokens.transfer_isOk_iff.mpr ⟨h.amount_pos.le, h.funded, h.accepted⟩

/-- With its own inputs in order, a path payment depends on the replay protection and on
the escrow counter alone. -/
theorem PathPaymentAllowed.isOk_iff (digests : Digests) (mentor : Addr)
    {inv : Invocation Addr self} {c : Config Addr} {s : Custody Addr}
    {learner sendAsset destAsset : Addr}
    {sendMax destAmount : ℤ} {totalSessions : ℕ}
    (h : PathPaymentAllowed inv c s learner sendAsset sendMax destAsset destAmount
      totalSessions) :
    (∃ x, createEscrowWithPathPayment inv digests c s learner mentor sendAsset sendMax destAsset
      destAmount totalSessions = .ok x) ↔
    s.book.usedSessionNonce (digests.session "PATHPAY") = false ∧
      s.book.session "PATHPAY" = false ∧ s.book.escrowCount + 1 < 2 ^ 64 := by
  simp only [createEscrowWithPathPayment, createEscrowInternal, bind_eq_ok, require_eq_ok,
    requirePositive_eq_ok, requireMax_eq_ok, requireSufficientForDivision_eq_ok,
    requireAuth_eq_ok, u64_eq_ok, transitionStatus_eq_ok, pure_eq_ok]
  constructor
  · rintro ⟨x, -, -, -, -, -, -, -, -, -, -, -, -, -, -, -, -, -, -, -, -, -, -, -, -, -, -, -,
      -, -, -, -, -, -, hnonce, -, -, -, hsession, _, ⟨hcount, rfl⟩, -⟩
    refine ⟨?_, hsession, hcount⟩
    simpa [validateSessionNonce] using hnonce
  · rintro ⟨hnonce, hsession, hcount⟩
    obtain ⟨tokens, htokens⟩ := h.transfer_isOk
    have hsessions : (0 : ℤ) < totalSessions := by exact_mod_cast h.sessions_pos
    refine ⟨_, (), h.sendApproved, (), h.destApproved, (), h.amount_pos, (), h.amount_le, (),
      h.amount_pos.trans_le h.slippage, (), h.sendMax_le, (), h.slippage, (), h.amount_pos, (),
      h.amount_le, (), hsessions, (), ⟨hsessions, h.sessions_le⟩, (), h.destApproved, (),
      .inr h.sendApproved, (), .inl trivial, (), h.auth, (), h.funded, (), ?_, (), ?_, (), hsession,
      _, ⟨hcount, rfl⟩, tokens, htokens, _, ⟨rfl, rfl⟩, rfl⟩
    · simp [validateSessionNonce, hnonce]
    · simp

/-- A path payment whose own inputs are in order succeeds exactly when no session with the
digest of `PATHPAY` was ever opened, by whomever. An escrow in dollars is never created. -/
theorem createEscrowWithPathPayment_isOk_iff (digests : Digests) (initial : Addr → Addr → ℤ)
    (steps : List (Step Addr self)) (inv : Invocation Addr self)
    {learner mentor sendAsset destAsset : Addr} {sendMax destAmount : ℤ} {totalSessions : ℕ}
    (hallowed : PathPaymentAllowed inv
      ((machine self digests).run (deployed initial) steps).config
      ((machine self digests).run (deployed initial) steps).custody learner sendAsset sendMax
      destAsset destAmount totalSessions) :
    ((∃ t, exec digests inv (.custody (.createEscrowWithPathPayment learner mentor sendAsset
        sendMax destAsset destAmount totalSessions))
        ((machine self digests).run (deployed initial) steps) = .ok t) ↔
      ¬ Opened digests initial steps (digests.session "PATHPAY") ∧
        ((machine self digests).run (deployed initial) steps).custody.book.escrowCount + 1 <
          2 ^ 64) ∧
    ∀ usdAmount, ¬ ∃ t, exec digests inv (.custody (.createEscrowUsd usdAmount))
      ((machine self digests).run (deployed initial) steps) = .ok t := by
  have hhistory := run_nonceHistory digests initial steps
  constructor
  · have hiff := hallowed.isOk_iff digests mentor
    rw [← hhistory.spent]
    constructor
    · rintro ⟨t, hx⟩
      simp only [exec, execCustody, bind_eq_ok, pure_eq_ok] at hx
      obtain ⟨custody, ⟨x, hcreate, -⟩, -⟩ := hx
      obtain ⟨hnonce, -, hcount⟩ := hiff.mp ⟨x, hcreate⟩
      exact ⟨by simp [hnonce], hcount⟩
    · rintro ⟨hfresh, hcount⟩
      have hnonce : ((machine self digests).run (deployed initial)
          steps).custody.book.usedSessionNonce (digests.session "PATHPAY") = false := by
        simpa using hfresh
      have hsession : ((machine self digests).run (deployed initial)
          steps).custody.book.session "PATHPAY" = false := by
        by_contra hbooked
        have hspent := hhistory.booked "PATHPAY" (by simpa using hbooked)
        exact hfresh hspent
      obtain ⟨x, hx⟩ := hiff.mpr ⟨hnonce, hsession, hcount⟩
      simp only [exec, execCustody, bind_eq_ok, pure_eq_ok]
      exact ⟨_, _, ⟨x, hx, rfl⟩, rfl⟩
  · rintro usdAmount ⟨t, hx⟩
    simp [exec, execCustody, createEscrowUsd] at hx

end PathPayments

/-- A contract that was initialised, and a second learner with funds. -/
def twoLearners : List (Step ℕ 0) :=
  [(grantedByAll 0, .initializeEscrow 1 2 500 [9] 0), (grantedByAll 0, .tokenActivity 9 5 100)]

/-- The learner 3 has paid along a path. -/
def firstPathPayment : List (Step ℕ 0) :=
  twoLearners ++ [(grantedByAll 0, .custody (.createEscrowWithPathPayment 3 4 9 40 9 40 1))]

theorem firstPathPayment_allowed : PathPaymentAllowed (grantedByAll 0)
    ((machine 0 lengthDigests).run (deployed learnerFunds) firstPathPayment).config
    ((machine 0 lengthDigests).run (deployed learnerFunds) firstPathPayment).custody
    5 9 40 9 40 1 where
  sendApproved := by decide
  destApproved := by decide
  amount_pos := by decide
  amount_le := by decide
  sendMax_le := by decide
  slippage := by decide
  sessions_pos := by decide
  sessions_le := by decide
  auth := by decide
  funded := by decide
  accepted := by decide

theorem createEscrowWithPathPayment_isOk_iff_firstPathPayment :
    ((∃ t, exec lengthDigests (grantedByAll 0)
        (.custody (.createEscrowWithPathPayment 5 4 9 40 9 40 1))
        ((machine 0 lengthDigests).run (deployed learnerFunds) firstPathPayment) = .ok t) ↔
      ¬ Opened lengthDigests learnerFunds firstPathPayment (lengthDigests.session "PATHPAY") ∧
        ((machine 0 lengthDigests).run (deployed learnerFunds)
          firstPathPayment).custody.book.escrowCount + 1 < 2 ^ 64) ∧
    ∀ usdAmount, ¬ ∃ t, exec lengthDigests (grantedByAll 0)
      (.custody (.createEscrowUsd usdAmount))
      ((machine 0 lengthDigests).run (deployed learnerFunds) firstPathPayment) = .ok t :=
  createEscrowWithPathPayment_isOk_iff lengthDigests learnerFunds firstPathPayment
    (grantedByAll 0) firstPathPayment_allowed

/-- The inputs of the second learner are in order, and the call fails. -/
theorem secondPathPayment_fails :
    PathPaymentAllowed (grantedByAll 0)
      ((machine 0 lengthDigests).run (deployed learnerFunds) firstPathPayment).config
      ((machine 0 lengthDigests).run (deployed learnerFunds) firstPathPayment).custody
      5 9 40 9 40 1 ∧
    ¬ ∃ t, exec lengthDigests (grantedByAll 0)
      (.custody (.createEscrowWithPathPayment 5 4 9 40 9 40 1))
      ((machine 0 lengthDigests).run (deployed learnerFunds) firstPathPayment) = .ok t := by
  refine ⟨firstPathPayment_allowed, ?_⟩
  rintro ⟨t, hx⟩
  simp only [exec, execCustody, bind_eq_ok, pure_eq_ok] at hx
  obtain ⟨custody, ⟨x, hcreate, -⟩, -⟩ := hx
  obtain ⟨hnonce, -, -⟩ := (firstPathPayment_allowed.isOk_iff lengthDigests 4).mp ⟨x, hcreate⟩
  have hspent : ((machine 0 lengthDigests).run (deployed learnerFunds)
      firstPathPayment).custody.book.usedSessionNonce (lengthDigests.session "PATHPAY") =
      true := by
    decide
  rw [hspent] at hnonce
  cases hnonce

end Escrow
