import MentorsMind.Escrow.Changes

/-! When an automatic release can come, against when the escrow was created. The delay runs
from the session end that the creating call was given, and no call has to give one. -/
namespace Escrow
open Outcome Soroban Shared

section Records

variable {Addr : Type}

/-- A session end that was given is at most the admitted drift before the creation. -/
def Timed (e : EscrowRecord Addr) : Prop :=
  e.sessionEndTime = 0 ∨ e.createdAt ≤ e.sessionEndTime + maxSessionTimeDriftSecs

theorem timed_rule [DecidableEq Addr] : RecordRule (@Timed Addr) where
  new _ _ _ now e _ hnew := by
    unfold Timed
    rw [hnew.createdAt_eq]
    exact hnew.timed
  change now e e' _ hchange htimed := by
    cases hchange with
    | released fee active isFee => exact htimed
    | sessions n fee active pos le isFee => exact htimed
    | disputed reason active => exact htimed
    | resolved mentorAmount disputed nonneg le => exact htimed
    | refunded live => exact htimed

/-- At `now` the delay has run since the creation, but for the admitted drift. -/
def DelayElapsed (e : EscrowRecord Addr) (now : ℕ) : Prop :=
  e.createdAt + e.autoReleaseDelay ≤ now + maxSessionTimeDriftSecs

/-- What `try_auto_release` asks of the time. -/
def WindowElapsed (e : EscrowRecord Addr) (now : ℕ) : Prop :=
  e.sessionEndTime + e.autoReleaseDelay ≤ now

/-- A session end was given, or the creation was within the drift of the epoch. -/
def SessionEndGiven (e : EscrowRecord Addr) : Prop :=
  e.sessionEndTime ≠ 0 ∨ e.createdAt ≤ maxSessionTimeDriftSecs

/-- The window is late enough exactly when a session end was given. -/
theorem Timed.windowElapsed_iff {e : EscrowRecord Addr} (h : Timed e) :
    (∀ now, WindowElapsed e now → DelayElapsed e now) ↔ SessionEndGiven e := by
  unfold WindowElapsed DelayElapsed SessionEndGiven
  constructor
  · intro helapsed
    by_contra hnone
    have hearly := helapsed (e.sessionEndTime + e.autoReleaseDelay) le_rfl
    omega
  · intro hgiven now hnow
    rcases h with hzero | htimed
    · omega
    · omega

end Records

section Steps

variable {Addr : Type} [DecidableEq Addr] {self : Addr} {inv : Invocation Addr self}
  {digests : Digests} {s t : State Addr} {id : ℕ}

/-- A call of `try_auto_release` that succeeds has found the window elapsed. -/
theorem exec_windowElapsed {e : EscrowRecord Addr}
    (h : exec digests inv (.tryAutoRelease id) s = .ok t)
    (he : s.custody.book.escrow id = some e) : WindowElapsed e inv.timestamp := by
  simp only [exec, tryAutoRelease, bind_eq_ok, loadEscrow_eq_ok, require_eq_ok, safeAddU64_eq_ok,
    pure_eq_ok] at h
  obtain ⟨x, ⟨e', he', -, -, _, ⟨-, rfl⟩, -, hwindow, -⟩, -⟩ := h
  obtain rfl : e = e' := Option.some.inj (he.symm.trans he')
  exact hwindow

/-- Whatever was configured since, no automatic release of an escrow that was given a
session end comes before the delay has run; without one the window opens too early. -/
theorem tryAutoRelease_delayElapsed (digests : Digests) (balance : Addr → Addr → ℤ)
    (steps : List (Step Addr self)) :
    (∀ pre id e, pre <+: steps →
      ((machine self digests).run (deployed balance) pre).custody.book.escrow id = some e →
      ((∀ now, WindowElapsed e now → DelayElapsed e now) ↔ SessionEndGiven e)) ∧
    ∀ pre step t id e, (machine self digests).Executes (deployed balance) steps pre step t →
      step.2 = .tryAutoRelease id →
      ((machine self digests).run (deployed balance) pre).custody.book.escrow id = some e →
      SessionEndGiven e → DelayElapsed e step.1.timestamp := by
  constructor
  · intro pre id e _ he
    have htimed := (run_everywhere timed_rule digests balance pre).stored id e he
    exact htimed.windowElapsed_iff
  · intro pre step t id e hx hcall he hgiven
    have htimed := (run_everywhere timed_rule digests balance pre).stored id e he
    have hexec : exec digests step.1 step.2 _ = .ok t := hx.exec_eq
    rw [hcall] at hexec
    exact htimed.windowElapsed_iff.mpr hgiven _ (exec_windowElapsed hexec he)

end Steps

/-- An escrow paid for along a path, which is given no session end, and its release. -/
def pathPaymentRun : List (Step ℕ 0) :=
  [(grantedByAll 1000000, .initializeEscrow 1 2 500 [9] 1000),
    (grantedByAll 1000000, .custody (.createEscrowWithPathPayment 3 4 9 100 9 100 1)),
    (grantedByAll 1000000, .tryAutoRelease 1)]

/-- The release comes in the second in which the escrow was created. -/
theorem pathPaymentRun_early :
    ∃ e, ((machine 0 lengthDigests).run (deployed learnerFunds)
        (pathPaymentRun.take 2)).custody.book.escrow 1 = some e ∧
      ¬ DelayElapsed e 1000000 ∧
      (((machine 0 lengthDigests).run (deployed learnerFunds)
        pathPaymentRun).custody.book.escrow 1).map EscrowRecord.status = some .released := by
  have hfound : (((machine 0 lengthDigests).run (deployed learnerFunds)
      (pathPaymentRun.take 2)).custody.book.escrow 1).map
      (fun e => (e.createdAt, e.autoReleaseDelay)) = some (1000000, 1000) := by
    decide
  obtain ⟨e, he, htimes⟩ := Option.map_eq_some_iff.mp hfound
  simp only [Prod.mk.injEq] at htimes
  refine ⟨e, he, ?_, by decide⟩
  unfold DelayElapsed maxSessionTimeDriftSecs
  omega

/-- An escrow whose session ends 50 seconds after its creation, released with a delay of one. -/
def timedRun : List (Step ℕ 0) :=
  [(grantedByAll 1000, .initializeEscrow 1 2 500 [9] 1),
    (grantedByAll 1000, .custody (.createEscrow 4 3 100 "session" 9 1050 1)),
    (grantedByAll 1051, .tryAutoRelease 1)]

/-- The record that is released in `timedRun`. -/
def timedRecord : EscrowRecord ℕ where
  id := 1
  mentor := 4
  learner := 3
  amount := 100
  sessionId := "session"
  status := .active
  createdAt := 1000
  tokenAddress := 9
  platformFee := 0
  netAmount := 0
  sessionEndTime := 1050
  autoReleaseDelay := 1
  disputeReason := ""
  resolvedAt := 0
  usdAmount := 0
  quotedTokenAmount := 100
  sendAsset := 9
  destAsset := 9
  totalSessions := 1
  sessionsCompleted := 0

theorem tryAutoRelease_delayElapsed_timedRun : DelayElapsed timedRecord 1051 := by
  have hstatus : (((machine 0 lengthDigests).run (deployed learnerFunds)
      timedRun).custody.book.escrow 1).map EscrowRecord.status = some .released := by
    decide
  have hbefore : ((machine 0 lengthDigests).run (deployed learnerFunds)
      (timedRun.take 2)).custody.book.escrow 1 = some timedRecord := rfl
  have hne : (machine 0 lengthDigests).run (deployed learnerFunds)
      (timedRun.take 2 ++ [(grantedByAll 1051, .tryAutoRelease 1)]) ≠
      (machine 0 lengthDigests).run (deployed learnerFunds) (timedRun.take 2) := by
    intro hsame
    have hafter := congrArg (fun s => (s.custody.book.escrow 1).map EscrowRecord.status) hsame
    change (((machine 0 lengthDigests).run (deployed learnerFunds)
      timedRun).custody.book.escrow 1).map EscrowRecord.status = _ at hafter
    rw [hstatus] at hafter
    simp only [hbefore] at hafter
    cases hafter
  exact (tryAutoRelease_delayElapsed lengthDigests learnerFunds timedRun).2 (timedRun.take 2)
    (grantedByAll 1051, .tryAutoRelease 1) _ 1 timedRecord (Machine.executes_of_run_ne hne) rfl
    hbefore (.inl (by decide))

end Escrow
