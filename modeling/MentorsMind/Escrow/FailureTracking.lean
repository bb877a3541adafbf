import MentorsMind.Escrow.EmergencySafety
import MentorsMind.Escrow.FeeBounds

/-! The failure record of an automatic release: how it counts the attempts, how far apart they
are, and who may still release the escrow. -/
namespace Escrow
open Outcome Soroban Shared

section Backoff

/-- The wait after the attempt `n` failed. -/
def releaseBackoff (n : ℕ) : ℕ :=
  calculateBackoffDelay n exponentialBackoffInitialSecs exponentialBackoffMultiplier
    exponentialBackoffMaxSecs

/-- The loop may stop early only where the cap of eight hours is exceeded anyway. -/
theorem backoffFactor_capped (n : ℕ) {factor : ℕ} (hpos : 0 < factor) (hle : factor ≤ 8) :
    min (min (3600 * backoffFactor 2 8 n factor) (2 ^ 64 - 1)) 28800 =
      min (3600 * (factor * 2 ^ n)) 28800 := by
  induction n generalizing factor with
  | zero =>
    simp only [backoffFactor, pow_zero, mul_one]
    omega
  | succ n ih =>
    have hnext : min (factor * 2) (2 ^ 64 - 1) = factor * 2 := by omega
    simp only [backoffFactor, hnext]
    have hpow : 1 ≤ 2 ^ n := Nat.one_le_two_pow
    have hmul : factor * 2 ^ (n + 1) = factor * 2 * 2 ^ n := by ring
    split_ifs with hover
    · have hgrow : factor * 2 ≤ factor * 2 * 2 ^ n := Nat.le_mul_of_pos_right _ hpow
      rw [hmul]
      omega
    · rw [ih (by omega) (by omega), hmul]

/-- The wait doubles from one hour on, up to eight hours. -/
theorem releaseBackoff_eq (n : ℕ) : releaseBackoff n = min (3600 * 2 ^ (n - 1)) 28800 := by
  have hcapped := backoffFactor_capped (n - 1) Nat.one_pos (by norm_num)
  rw [one_mul] at hcapped
  exact hcapped

end Backoff

section Steps

variable {Addr : Type} [DecidableEq Addr] {self : Addr} {digests : Digests} {s t : State Addr}
  {step : Step Addr self} {id : ℕ}

theorem recordFailedAttempt_eq_ok {now : ℕ} {f f' : ReleaseFailure}
    (h : recordFailedAttempt now f = .ok f') : f'.attemptNumber = f.attemptNumber + 1 ∧
      f'.lastFailureTime = now ∧
      f'.nextRetryTime = saturatingAddU64 now (releaseBackoff (f.attemptNumber + 1)) := by
  simp only [recordFailedAttempt, bind_eq_ok, u32_eq_ok, pure_eq_ok] at h
  obtain ⟨_, ⟨-, rfl⟩, rfl⟩ := h
  exact ⟨rfl, rfl, rfl⟩

def ActiveEscrow (s : State Addr) (id : ℕ) : Prop :=
  ∃ e, s.custody.book.escrow id = some e ∧ e.status = .active

def ReleasedEscrow (s : State Addr) (id : ℕ) : Prop :=
  ∃ e, s.custody.book.escrow id = some e ∧ e.status = .released

omit [DecidableEq Addr] in
theorem getOrInitRecord_of_some {f : ReleaseFailure} (hf : s.failures.record id = some f) :
    s.failures.getOrInitRecord id = f := by
  rw [Failures.getOrInitRecord, hf, Option.getD_some]

/-- What an automatic release has checked by the time it runs the prechecks. -/
structure ReleaseDue (s : State Addr) (id now : ℕ) : Prop where
  active : ActiveEscrow s id
  attempts_lt : (s.failures.getOrInitRecord id).attemptNumber < maxAutoReleaseAttempts
  retry_le : (s.failures.getOrInitRecord id).nextRetryTime ≤ now

/-- How a step changes the failure record of an escrow. -/
inductive FailureChange (step : Step Addr self) (s t : State Addr) (id : ℕ) : Prop
  | kept (record : t.failures.record id = s.failures.record id)
  | failed (f : ReleaseFailure) (call : step.2 = .tryAutoRelease id)
      (due : ReleaseDue s id step.1.timestamp)
      (attempt : recordFailedAttempt step.1.timestamp (s.failures.getOrInitRecord id) = .ok f)
      (record : t.failures.record id = some f)
  | recovered (reasonHash : Hash) (f : ReleaseFailure)
      (call : step.2 = .manualRecoveryRelease id reasonHash)
      (found : s.failures.record id = some f)
      (threshold_le : manualRecoveryThreshold ≤ f.attemptNumber)
      (attempts_lt : f.attemptNumber < maxAutoReleaseAttempts)
      (record : t.failures.record id = some { f with
        recoveryState := .recovered
        manualRecoveryAt := step.1.timestamp
        manualRecoveryReason := reasonHash })
  | cleared (active : ActiveEscrow s id) (released : ReleasedEscrow t id)
      (record : t.failures.record id = none)

/-- An automatic release that is due records a failure or releases the escrow. -/
theorem exec_tryAutoRelease {inv : Invocation Addr self}
    (h : exec digests inv (.tryAutoRelease id) s = .ok t) :
    ReleaseDue s id inv.timestamp ∧
      ((∃ f, recordFailedAttempt inv.timestamp (s.failures.getOrInitRecord id) = .ok f ∧
          t.failures = s.failures.setRecord id f ∧ t.custody = s.custody) ∨
        (ReleasedEscrow t id ∧ t.failures = s.failures.clearRecord id)) := by
  simp only [exec, tryAutoRelease, bind_eq_ok, loadEscrow_eq_ok, require_eq_ok,
    pure_eq_ok] at h
  obtain ⟨x, ⟨e, he, -, hactive, _, -, -, -, -, hattempts, -, hretry, h⟩, rfl⟩ := h
  refine ⟨⟨⟨e, he, hactive⟩, hattempts, hretry⟩, ?_⟩
  split_ifs at h with hpassed
  · simp only [bind_eq_ok, pure_eq_ok] at h
    obtain ⟨custody, hrelease, rfl⟩ := h
    obtain ⟨a, -, hreleased⟩ := doRelease_amounts hrelease
    exact .inr ⟨⟨_, hreleased, rfl⟩, rfl⟩
  · simp only [bind_eq_ok, pure_eq_ok] at h
    obtain ⟨f, hf, rfl⟩ := h
    exact .inl ⟨f, hf, rfl, rfl⟩

theorem exec_manualRecoveryRelease {inv : Invocation Addr self} {reasonHash : Hash}
    (h : exec digests inv (.manualRecoveryRelease id reasonHash) s = .ok t) :
    ∃ f, s.failures.record id = some f ∧ manualRecoveryThreshold ≤ f.attemptNumber ∧
      f.attemptNumber < maxAutoReleaseAttempts ∧
      t.failures = s.failures.setRecord id { f with
        recoveryState := .recovered
        manualRecoveryAt := inv.timestamp
        manualRecoveryReason := reasonHash } := by
  simp only [exec, manualRecoveryRelease, bind_eq_ok, expect_eq_ok, require_eq_ok,
    pure_eq_ok] at h
  obtain ⟨x, ⟨_, -, f, hf, -, hthreshold, -, hattempts, _, -, -, -, _, -, rfl⟩, rfl⟩ := h
  exact ⟨f, hf, hthreshold, hattempts, rfl⟩

/-- An emergency execution leaves the failure records alone, unless it releases the escrow. -/
theorem executeEmergencyAction_failures {inv : Invocation Addr self} {c : Config Addr}
    {custody : Custody Addr} {f : Failures} {em : Emergency Addr} {caller : Addr} {actionId : ℕ}
    {x : Execution Addr} (h : executeEmergencyAction inv c custody f em caller actionId = .ok x) :
    x.failures = f ∨ ∃ k e e', custody.book.escrow k = some e ∧ e.status = .active ∧
      x.custody.book.escrow k = some e' ∧ e'.status = .released ∧
      x.failures = (f.clearRecord k).removeFromStuckWatchlist k := by
  simp only [executeEmergencyAction, bind_eq_ok, expect_eq_ok, require_eq_ok] at h
  obtain ⟨_, -, action, -, _, -, _, -, _, -, registered, -, gates, hgates, h⟩ := h
  cases gates with
  | none =>
    obtain rfl := pure_eq_ok.mp h
    exact .inl rfl
  | some passed =>
    obtain ⟨escrow, circuit⟩ := passed
    simp only [bind_eq_ok, pure_eq_ok] at h
    obtain ⟨u, hrelease, rfl⟩ := h
    have hpassed := executionGates_eq_some hgates
    obtain ⟨a, -, hreleased⟩ := doReleaseSimple_amounts hrelease
    exact .inr ⟨action.escrowId, escrow, _, hpassed.found, hpassed.active, hreleased, rfl, rfl⟩

omit [DecidableEq Addr] in
theorem reportStuckEscrow_record {inv : Invocation Addr self} {b : Book Addr} {f f' : Failures}
    {reporter : Addr} {k : ℕ} (h : reportStuckEscrow inv b f reporter k = .ok f') :
    f'.record = f.record := by
  simp only [reportStuckEscrow, bind_eq_ok, pure_eq_ok] at h
  obtain ⟨-, -, _, -, -, -, _, -, _, -, -, -, rfl⟩ := h
  split_ifs <;> rfl

/-- Every successful step changes the failure record of an escrow in one of these ways. -/
theorem exec_failureChange (id : ℕ) (h : exec digests step.1 step.2 s = .ok t) :
    FailureChange step s t id := by
  obtain ⟨inv, call⟩ := step
  have hemergency : ∀ {k : ℕ} {e e' : EscrowRecord Addr}, s.custody.book.escrow k = some e →
      e.status = .active → t.custody.book.escrow k = some e' → e'.status = .released →
      t.failures = (s.failures.clearRecord k).removeFromStuckWatchlist k →
      FailureChange (inv, call) s t id := by
    intro k e e' he hactive he' hreleased hfailures
    by_cases hk : id = k
    · subst hk
      exact .cleared ⟨e, he, hactive⟩ ⟨e', he', hreleased⟩
        (by rw [hfailures]; exact Function.update_self _ _ _)
    · exact .kept (by rw [hfailures]; exact Function.update_of_ne hk _ _)
  cases call with
  | tryAutoRelease k =>
    obtain ⟨hdue, ⟨f, hf, hfailures, -⟩ | ⟨hreleased, hfailures⟩⟩ := exec_tryAutoRelease h
    all_goals by_cases hk : id = k
    · subst hk
      exact .failed f rfl hdue hf (by rw [hfailures]; exact Function.update_self _ _ _)
    · exact .kept (by rw [hfailures]; exact Function.update_of_ne hk _ _)
    · subst hk
      exact .cleared hdue.active hreleased (by rw [hfailures]; exact Function.update_self _ _ _)
    · exact .kept (by rw [hfailures]; exact Function.update_of_ne hk _ _)
  | manualRecoveryRelease k reasonHash =>
    obtain ⟨f, hf, hthreshold, hattempts, hfailures⟩ := exec_manualRecoveryRelease h
    by_cases hk : id = k
    · subst hk
      exact .recovered reasonHash f rfl hf hthreshold hattempts
        (by rw [hfailures]; exact Function.update_self _ _ _)
    · exact .kept (by rw [hfailures]; exact Function.update_of_ne hk _ _)
  | executeEmergencyAction caller actionId =>
    simp only [exec, bind_eq_ok, pure_eq_ok] at h
    obtain ⟨x, hx, rfl⟩ := h
    obtain hsame | ⟨k, e, e', he, hactive, he', hreleased, hfailures⟩ :=
      executeEmergencyAction_failures hx
    · exact .kept (congrArg (fun f => f.record id) hsame)
    · exact hemergency he hactive he' hreleased hfailures
  | emergencyRelease caller escrowId reasonHash actionId =>
    simp only [exec, bind_eq_ok, pure_eq_ok] at h
    obtain ⟨x, hx, rfl⟩ := h
    obtain hsame | ⟨k, e, e', he, hactive, he', hreleased, hfailures⟩ :=
      executeEmergencyAction_failures (emergencyRelease_spec hx)
    · exact .kept (congrArg (fun f => f.record id) hsame)
    · exact hemergency he hactive he' hreleased hfailures
  | reportStuckEscrow reporter k =>
    simp only [exec, bind_eq_ok, pure_eq_ok] at h
    obtain ⟨f, hf, rfl⟩ := h
    exact .kept (congrFun (reportStuckEscrow_record hf) id)
  | _ =>
    simp only [exec, bind_eq_ok, pure_eq_ok] at h
    obtain ⟨_, -, rfl⟩ := h
    exact .kept rfl

/-- No more than ten attempts are counted, and the next one is due at a ledger time. -/
structure FailureBounded (f : ReleaseFailure) : Prop where
  attempts_le : f.attemptNumber ≤ maxAutoReleaseAttempts
  retry_lt : f.nextRetryTime < 2 ^ 64

theorem exec_failureBounded (hs : ∀ f, s.failures.record id = some f → FailureBounded f)
    (h : exec digests step.1 step.2 s = .ok t) :
    ∀ f, t.failures.record id = some f → FailureBounded f := by
  intro f' hf'
  cases exec_failureChange id h with
  | kept record => exact hs f' (record.symm.trans hf')
  | failed f call due attempt record =>
    obtain rfl := Option.some.inj (record.symm.trans hf')
    obtain ⟨hattempts, -, hretry⟩ := recordFailedAttempt_eq_ok attempt
    have hlt := due.attempts_lt
    refine ⟨by omega, ?_⟩
    rw [hretry, saturatingAddU64]
    omega
  | recovered reasonHash f call found threshold_le attempts_lt record =>
    obtain rfl := Option.some.inj (record.symm.trans hf')
    exact ⟨(hs f found).attempts_le, (hs f found).retry_lt⟩
  | cleared active released record =>
    rw [record] at hf'
    cases hf'

/-- A record that is still there only counts on, and its next attempt is never due earlier. -/
structure CountsOn (f f' : ReleaseFailure) : Prop where
  attempts_le : f.attemptNumber ≤ f'.attemptNumber
  retry_le : f.nextRetryTime ≤ f'.nextRetryTime

theorem exec_countsOn {f f' : ReleaseFailure} (hf : s.failures.record id = some f)
    (hbounded : FailureBounded f) (h : exec digests step.1 step.2 s = .ok t)
    (hf' : t.failures.record id = some f') : CountsOn f f' := by
  cases exec_failureChange id h with
  | kept record =>
    obtain rfl := Option.some.inj (hf'.symm.trans (record.trans hf))
    exact ⟨le_rfl, le_rfl⟩
  | failed g call due attempt record =>
    obtain rfl := Option.some.inj (record.symm.trans hf')
    obtain ⟨hattempts, -, hretry⟩ := recordFailedAttempt_eq_ok attempt
    have hdue := due.retry_le
    have hlt := hbounded.retry_lt
    rw [getOrInitRecord_of_some hf] at hattempts hretry hdue
    refine ⟨by omega, ?_⟩
    rw [hretry, saturatingAddU64]
    omega
  | recovered reasonHash g call found threshold_le attempts_lt record =>
    obtain rfl := Option.some.inj (found.symm.trans hf)
    obtain rfl := Option.some.inj (record.symm.trans hf')
    exact ⟨le_rfl, le_rfl⟩
  | cleared active released record =>
    rw [record] at hf'
    cases hf'

/-- A record is removed by the release of its escrow, and by nothing else. -/
theorem exec_removed (hrecord : s.failures.record id ≠ none)
    (h : exec digests step.1 step.2 s = .ok t) (hnone : t.failures.record id = none) :
    ActiveEscrow s id ∧ ReleasedEscrow t id := by
  cases exec_failureChange id h with
  | kept record => exact absurd (record.symm.trans hnone) hrecord
  | failed f call due attempt record =>
    rw [record] at hnone
    cases hnone
  | recovered reasonHash f call found threshold_le attempts_lt record =>
    rw [record] at hnone
    cases hnone
  | cleared active released record => exact ⟨active, released⟩

omit [DecidableEq Addr] in
theorem ReleasedEscrow.not_active (h : ReleasedEscrow s id) : ¬ ActiveEscrow s id := by
  rintro ⟨e, he, hactive⟩
  obtain ⟨e', he', hreleased⟩ := h
  obtain rfl := Option.some.inj (he.symm.trans he')
  rw [hactive] at hreleased
  cases hreleased

end Steps

section Runs

variable {Addr : Type} [DecidableEq Addr] {self : Addr} {digests : Digests}
  {initial : Addr → Addr → ℤ} {steps : List (Step Addr self)} {id : ℕ}

/-- The failure record of the escrow after the calls. -/
def failureAfter (digests : Digests) (initial : Addr → Addr → ℤ) (id : ℕ)
    (steps : List (Step Addr self)) : Option ReleaseFailure :=
  ((machine self digests).run (deployed initial) steps).failures.record id

/-- The call after `pre` is an automatic release of the escrow that fails for the time `n`. -/
structure FailsAt {home : Addr} (digests : Digests) (initial : Addr → Addr → ℤ) (id : ℕ)
    (steps pre : List (Step Addr home)) (step : Step Addr home) (n : ℕ) : Prop where
  call : step.2 = .tryAutoRelease id
  recorded : ∃ t f, (machine home digests).Executes (deployed initial) steps pre step t ∧
    t.failures.record id = some f ∧ f.attemptNumber = n

/-- The tracking of failures as the contract promises it, between two moments of the run that
`Within` relates, where an attempt is due at `due` of the last failure and the wait. -/
structure FailureLaw {home : Addr} (digests : Digests) (initial : Addr → Addr → ℤ) (id : ℕ)
    (steps : List (Step Addr home))
    (Within : List (Step Addr home) → List (Step Addr home) → Prop) (due : ℕ → ℕ → ℕ) :
    Prop where
  bounded : ∀ pre, pre <+: steps → ∀ f, failureAfter digests initial id pre = some f →
    f.attemptNumber ≤ 10
  counted : ∀ pre step n, FailsAt digests initial id steps pre step n →
    n = ((failureAfter digests initial id pre).map ReleaseFailure.attemptNumber).getD 0 + 1
  increasing : ∀ pre later, pre <+: later → later <+: steps → Within pre later → ∀ f f',
    failureAfter digests initial id pre = some f →
    failureAfter digests initial id later = some f' → f.attemptNumber ≤ f'.attemptNumber
  spaced : ∀ pre step n later step' n', FailsAt digests initial id steps pre step n →
    FailsAt digests initial id steps later step' n' → pre ++ [step] <+: later →
    Within (pre ++ [step]) later →
    (∀ mid between k, pre ++ [step] <+: mid → mid ++ [between] <+: later →
      ¬ FailsAt digests initial id steps mid between k) →
    due step.1.timestamp (releaseBackoff n) ≤ step'.1.timestamp
  blocked : ∀ pre later step t f, pre <+: later → Within pre later →
    failureAfter digests initial id pre = some f → f.attemptNumber = 10 →
    (machine home digests).Executes (deployed initial) steps later step t →
    step.2 = .tryAutoRelease id →
    t.custody.book.escrow id =
      ((machine home digests).run (deployed initial) later).custody.book.escrow id
  recovery : ∀ pre step t reasonHash,
    (machine home digests).Executes (deployed initial) steps pre step t →
    step.2 = .manualRecoveryRelease id reasonHash →
    ∃ f, failureAfter digests initial id pre = some f ∧ 5 ≤ f.attemptNumber ∧
      f.attemptNumber < 10

/-- The record was there all the while. -/
def RecordStands (digests : Digests) (initial : Addr → Addr → ℤ) (id : ℕ)
    (pre later : List (Step Addr self)) : Prop :=
  ∀ mid, pre <+: mid → mid <+: later → failureAfter digests initial id mid ≠ none

theorem run_failureBounded (digests : Digests) (initial : Addr → Addr → ℤ) (id : ℕ)
    (steps : List (Step Addr self)) :
    ∀ f, failureAfter digests initial id steps = some f → FailureBounded f :=
  Machine.run_invariant (M := machine self digests)
    (P := fun s => ∀ f, s.failures.record id = some f → FailureBounded f)
    (fun f hf => by cases hf) (fun _ _ _ hs h => exec_failureBounded hs h) steps

theorem run_countsOn {pre later : List (Step Addr self)} (hlater : pre <+: later)
    (hstands : RecordStands digests initial id pre later) {f : ReleaseFailure}
    (hf : failureAfter digests initial id pre = some f) :
    ∃ f', failureAfter digests initial id later = some f' ∧ CountsOn f f' := by
  obtain ⟨post, rfl⟩ := hlater
  induction post using List.reverseRecOn with
  | nil => exact ⟨f, by rw [List.append_nil, hf], le_rfl, le_rfl⟩
  | append_singleton post step ih =>
    obtain ⟨g, hg, hcounts⟩ := ih fun mid hmid hle =>
      hstands mid hmid (hle.trans ⟨[step], by simp⟩)
    obtain ⟨f', hf'⟩ := Option.ne_none_iff_exists'.mp
      (hstands _ (List.prefix_append pre (post ++ [step])) List.prefix_rfl)
    refine ⟨f', hf', ?_⟩
    rw [failureAfter, ← List.append_assoc, Machine.run_snoc] at hf'
    obtain ⟨t, hx, ht⟩ | ⟨-, -, ht⟩ := Machine.apply_cases (machine self digests)
      ((machine self digests).run (deployed initial) (pre ++ post)) step
    · rw [ht] at hf'
      have hnext := exec_countsOn hg (run_failureBounded digests initial id _ g hg) hx hf'
      exact ⟨hcounts.attempts_le.trans hnext.attempts_le, hcounts.retry_le.trans hnext.retry_le⟩
    · rw [ht] at hf'
      obtain rfl := Option.some.inj (hg.symm.trans hf')
      exact hcounts

/-- An automatic release after which the count has become `n` has failed. -/
theorem FailsAt.of_attempts {pre : List (Step Addr self)} {step : Step Addr self} {n : ℕ}
    (hcall : step.2 = .tryAutoRelease id) (hsteps : pre ++ [step] <+: steps)
    (hbefore : (failureAfter digests initial id pre).map ReleaseFailure.attemptNumber ≠ some n)
    (hafter : (failureAfter digests initial id (pre ++ [step])).map
      ReleaseFailure.attemptNumber = some n) :
    FailsAt digests initial id steps pre step n := by
  obtain ⟨f, hf, hattempts⟩ := Option.map_eq_some_iff.mp hafter
  refine ⟨hcall, _, f, (Machine.executes_of_run_ne ?_).mono hsteps, hf, hattempts⟩
  intro hsame
  rw [failureAfter, hsame] at hafter
  exact hbefore hafter

/-- What a failed attempt had checked, and the record that it left. -/
theorem FailsAt.record {pre : List (Step Addr self)} {step : Step Addr self} {n : ℕ}
    (h : FailsAt digests initial id steps pre step n) :
    ReleaseDue ((machine self digests).run (deployed initial) pre) id step.1.timestamp ∧
      n = (((machine self digests).run (deployed initial) pre).failures.getOrInitRecord
        id).attemptNumber + 1 ∧
      ∃ f, failureAfter digests initial id (pre ++ [step]) = some f ∧ f.attemptNumber = n ∧
        f.nextRetryTime = saturatingAddU64 step.1.timestamp (releaseBackoff n) := by
  obtain ⟨t, f, hx, hf, hn⟩ := h.recorded
  have hexec : exec digests step.1 step.2
      ((machine self digests).run (deployed initial) pre) = .ok t := hx.exec_eq
  rw [h.call] at hexec
  obtain ⟨hdue, ⟨g, hg, hfailures, -⟩ | ⟨-, hfailures⟩⟩ := exec_tryAutoRelease hexec
  · have hrecord : t.failures.record id = some g := by
      rw [hfailures]
      exact Function.update_self _ _ _
    obtain rfl := Option.some.inj (hrecord.symm.trans hf)
    obtain ⟨hattempts, -, hretry⟩ := recordFailedAttempt_eq_ok hg
    refine ⟨hdue, by rw [← hn, hattempts], g, ?_, hn, by rw [hretry, ← hattempts, hn]⟩
    rw [failureAfter, hx.run_eq, hrecord]
  · have hrecord : t.failures.record id = none := by
      rw [hfailures]
      exact Function.update_self _ _ _
    rw [hrecord] at hf
    cases hf

/-- The law holds between moments that the record outlasts. -/
theorem failureLaw_of_stands {Within : List (Step Addr self) → List (Step Addr self) → Prop}
    (hwithin : ∀ pre later, pre <+: later → later <+: steps → Within pre later →
      failureAfter digests initial id pre ≠ none →
      failureAfter digests initial id later ≠ none ∨
        ActiveEscrow ((machine self digests).run (deployed initial) later) id →
      RecordStands digests initial id pre later) :
    FailureLaw digests initial id steps Within saturatingAddU64 where
  bounded := by
    intro pre _ f hf
    exact (run_failureBounded digests initial id pre f hf).attempts_le
  counted := by
    intro pre step n hfails
    obtain ⟨-, hn, -⟩ := hfails.record
    rw [hn, Failures.getOrInitRecord]
    unfold failureAfter
    cases ((machine self digests).run (deployed initial) pre).failures.record id with
    | none => rfl
    | some f => rfl
  increasing := by
    intro pre later hlater hsteps hin f f' hf hf'
    have hstands := hwithin pre later hlater hsteps hin (by rw [hf]; exact Option.some_ne_none f)
      (.inl (by rw [hf']; exact Option.some_ne_none f'))
    obtain ⟨g, hg, hcounts⟩ := run_countsOn hlater hstands hf
    obtain rfl := Option.some.inj (hg.symm.trans hf')
    exact hcounts.attempts_le
  spaced := by
    intro pre step n later step' n' hfails hfails' hlater hin _
    obtain ⟨-, -, f, hf, -, hretry⟩ := hfails.record
    obtain ⟨hdue, -, -⟩ := hfails'.record
    obtain ⟨t, -, hx, -⟩ := hfails'.recorded
    have hsteps : later <+: steps := (List.prefix_append later [step']).trans hx.snoc_prefix
    have hstands := hwithin _ later hlater hsteps hin (by rw [hf]; exact Option.some_ne_none f)
      (.inr hdue.active)
    obtain ⟨g, hg, hcounts⟩ := run_countsOn hlater hstands hf
    have hlast := hdue.retry_le
    rw [getOrInitRecord_of_some hg] at hlast
    calc saturatingAddU64 step.1.timestamp (releaseBackoff n) = f.nextRetryTime := hretry.symm
      _ ≤ g.nextRetryTime := hcounts.retry_le
      _ ≤ step'.1.timestamp := hlast
  blocked := by
    intro pre later step t f hlater hin hf hten hx hcall
    have hexec : exec digests step.1 step.2
        ((machine self digests).run (deployed initial) later) = .ok t := hx.exec_eq
    rw [hcall] at hexec
    obtain ⟨hdue, -⟩ := exec_tryAutoRelease hexec
    have hsteps : later <+: steps := (List.prefix_append later [step]).trans hx.snoc_prefix
    have hstands := hwithin pre later hlater hsteps hin
      (by rw [hf]; exact Option.some_ne_none f) (.inr hdue.active)
    obtain ⟨g, hg, hcounts⟩ := run_countsOn hlater hstands hf
    have hlt := hdue.attempts_lt
    have hle := hcounts.attempts_le
    rw [getOrInitRecord_of_some hg, maxAutoReleaseAttempts] at hlt
    omega
  recovery := by
    intro pre step t reasonHash hx hcall
    have hexec : exec digests step.1 step.2
        ((machine self digests).run (deployed initial) pre) = .ok t := hx.exec_eq
    rw [hcall] at hexec
    obtain ⟨f, hf, hthreshold, hattempts, -⟩ := exec_manualRecoveryRelease hexec
    exact ⟨f, hf, hthreshold, hattempts⟩

section WithoutRollback

variable {pre mid later : List (Step Addr self)}

theorem ReleasedEscrow.stays (hno : ∀ step ∈ steps, step.2.rollbackProposal = none)
    (hlater : mid <+: later) (hsteps : later <+: steps)
    (h : ReleasedEscrow ((machine self digests).run (deployed initial) mid) id) :
    ReleasedEscrow ((machine self digests).run (deployed initial) later) id := by
  obtain ⟨e, he, hreleased⟩ := h
  have hkept : TerminalKept ((machine self digests).run (deployed initial) mid).custody.book
      ((machine self digests).run (deployed initial) later).custody.book :=
    run_terminalKept (fun step hstep => hno step (hsteps.subset hstep)) hlater
  obtain ⟨e', he', hstatus⟩ := hkept.escrow id e he (by rw [hreleased]; exact .inl rfl)
  exact ⟨e', he', hstatus.trans hreleased⟩

/-- Where a record is gone, its escrow has been released. -/
theorem released_of_removed (hno : ∀ step ∈ steps, step.2.rollbackProposal = none)
    (hmid : pre <+: mid) (hsteps : mid <+: steps)
    (hrecord : failureAfter digests initial id pre ≠ none)
    (hnone : failureAfter digests initial id mid = none) :
    ReleasedEscrow ((machine self digests).run (deployed initial) mid) id := by
  obtain ⟨post, rfl⟩ := hmid
  induction post using List.reverseRecOn with
  | nil =>
    rw [List.append_nil] at hnone
    exact absurd hnone hrecord
  | append_singleton post step ih =>
    have hbefore : pre ++ post <+: pre ++ (post ++ [step]) := ⟨[step], by simp⟩
    by_cases hgone : failureAfter digests initial id (pre ++ post) = none
    · exact (ih (hbefore.trans hsteps) hgone).stays hno hbefore hsteps
    · rw [failureAfter, ← List.append_assoc, Machine.run_snoc] at hnone
      rw [← List.append_assoc, Machine.run_snoc]
      obtain ⟨t, hx, ht⟩ | ⟨-, -, ht⟩ := Machine.apply_cases (machine self digests)
        ((machine self digests).run (deployed initial) (pre ++ post)) step
      · rw [ht] at hnone ⊢
        exact (exec_removed hgone hx hnone).2
      · rw [ht] at hnone
        exact absurd hnone hgone

/-- A released escrow without a record never gets one again. -/
theorem stays_removed (hno : ∀ step ∈ steps, step.2.rollbackProposal = none)
    (hlater : mid <+: later) (hsteps : later <+: steps)
    (hreleased : ReleasedEscrow ((machine self digests).run (deployed initial) mid) id)
    (hnone : failureAfter digests initial id mid = none) :
    failureAfter digests initial id later = none := by
  obtain ⟨post, rfl⟩ := hlater
  induction post using List.reverseRecOn with
  | nil => rw [List.append_nil, hnone]
  | append_singleton post step ih =>
    have hbefore : mid ++ post <+: mid ++ (post ++ [step]) := ⟨[step], by simp⟩
    have hgone := ih (hbefore.trans hsteps)
    have hclosed := hreleased.stays hno (List.prefix_append mid post) (hbefore.trans hsteps)
    rw [failureAfter, ← List.append_assoc, Machine.run_snoc]
    obtain ⟨t, hx, ht⟩ | ⟨-, -, ht⟩ := Machine.apply_cases (machine self digests)
      ((machine self digests).run (deployed initial) (mid ++ post)) step
    · rw [ht]
      cases exec_failureChange id hx with
      | kept record => exact record.trans hgone
      | failed f call due attempt record => exact absurd due.active hclosed.not_active
      | recovered reasonHash f call found threshold_le attempts_lt record =>
        cases hgone.symm.trans found
      | cleared active released record => exact record
    · rw [ht]
      exact hgone

theorem recordStands_of_noRollback (hno : ∀ step ∈ steps, step.2.rollbackProposal = none)
    (hsteps : later <+: steps) (hrecord : failureAfter digests initial id pre ≠ none)
    (hlive : failureAfter digests initial id later ≠ none ∨
      ActiveEscrow ((machine self digests).run (deployed initial) later) id) :
    RecordStands digests initial id pre later := by
  intro mid hmid hlater hnone
  have hreleased := released_of_removed hno hmid (hlater.trans hsteps) hrecord hnone
  rcases hlive with hlive | hlive
  · exact hlive (stays_removed hno hlater hsteps hreleased hnone)
  · exact (hreleased.stays hno hlater hsteps).not_active hlive

end WithoutRollback

/-- Failures are tracked as promised for as long as the record stands, which only the release
of its escrow ends; so where nothing is rolled back, they are over the whole run. The waits double
from one hour up to eight. -/
theorem failure_tracking (digests : Digests) (initial : Addr → Addr → ℤ) (id : ℕ)
    (steps : List (Step Addr self)) :
    FailureLaw digests initial id steps (RecordStands digests initial id) saturatingAddU64 ∧
    (∀ pre step t, (machine self digests).Executes (deployed initial) steps pre step t →
      failureAfter digests initial id pre ≠ none → t.failures.record id = none →
      ActiveEscrow ((machine self digests).run (deployed initial) pre) id ∧
        ReleasedEscrow t id) ∧
    ((∀ step ∈ steps, step.2.rollbackProposal = none) →
      FailureLaw digests initial id steps (fun _ _ => True) saturatingAddU64) ∧
    ∀ n, releaseBackoff n = min (3600 * 2 ^ (n - 1)) 28800 := by
  refine ⟨failureLaw_of_stands fun _ _ _ _ hstands _ _ => hstands, ?_, ?_, releaseBackoff_eq⟩
  · intro pre step t hx hrecord hnone
    exact exec_removed hrecord hx.exec_eq hnone
  · intro hno
    exact failureLaw_of_stands fun pre later _ hsteps _ hrecord hlive =>
      recordStands_of_noRollback hno hsteps hrecord hlive

end Runs

theorem failure_tracking_approvedRelease :
    FailureLaw lengthDigests learnerFunds 1 approvedRelease (fun _ _ => True)
      saturatingAddU64 :=
  (failure_tracking lengthDigests learnerFunds 1 approvedRelease).2.2.1 (by decide)

/-- A snapshot of the stuck escrow of `approvedRelease`, and an agreed rollback to it. -/
def agreedRestore : List (Step ℕ 0) :=
  [(grantedByAll 2000000, .config (.setGovernanceContract 1 8)),
    (grantedByAll 2000000, .recovery (.snapshotState 1 1)),
    (grantedByAll 2000000, .recovery (.proposeEmergencyRollback 11 1 5 .escrow ⟨6, 7, 8⟩)),
    (grantedByAll 2000000, .recovery (.approveTechnicalRollback 12 1)),
    (grantedByAll 2000000, .recovery (.approveTechnicalRollback 13 1)),
    (grantedByAll 2000000, .recovery (.approveTechnicalRollback 14 1)),
    (grantedByAll 2000000, .recovery (.linkGovernanceRollbackReview 8 1 5)),
    (grantedByAll 2000000, .recovery (.markGovRollbackApproved 8 1 5))]

/-- After ten failures the emergency action releases the escrow, which removes its record; the
rollback makes the escrow active again. -/
def restoredRun : List (Step ℕ 0) :=
  approvedRelease ++ (agreedRestore ++ [execution, (grantedByAll 2172800, .emergencyRollback 1 11)])

/-- An automatic release once more, as for an escrow that never failed. -/
def retriedRelease : Step ℕ 0 := (grantedByAll 2172800, .tryAutoRelease 1)

theorem restoredRun_released (due : ℕ → ℕ → ℕ) : ¬ FailureLaw lengthDigests learnerFunds 1
    (restoredRun ++ [retriedRelease]) (fun _ _ => True) due := by
  intro hlaw
  have hstatus : (((machine 0 lengthDigests).run (deployed learnerFunds)
      (restoredRun ++ [retriedRelease])).custody.book.escrow 1).map EscrowRecord.status ≠
      (((machine 0 lengthDigests).run (deployed learnerFunds)
        restoredRun).custody.book.escrow 1).map EscrowRecord.status := by
    decide +kernel
  have hmoved : (machine 0 lengthDigests).run (deployed learnerFunds)
      (restoredRun ++ [retriedRelease]) ≠
      (machine 0 lengthDigests).run (deployed learnerFunds) restoredRun := by
    intro hsame
    exact hstatus (by rw [hsame])
  have hx := Machine.executes_of_run_ne hmoved
  have hten : (failureAfter lengthDigests learnerFunds 1 approvedRelease).map
      ReleaseFailure.attemptNumber = some 10 := by
    decide +kernel
  obtain ⟨f, hf, hattempts⟩ := Option.map_eq_some_iff.mp hten
  have hblocked := hlaw.blocked approvedRelease restoredRun retriedRelease _ f
    (List.prefix_append approvedRelease _) trivial hf hattempts hx rfl
  exact hstatus (congrArg (Option.map EscrowRecord.status) hblocked)

/-- An escrow whose release fails in the last two seconds of the ledger's clock. -/
def bookedWithReputation : List (Step ℕ 0) :=
  [(grantedByAll 0, .initializeEscrow 1 2 500 [9] 0),
    (grantedByAll 0, .config (.setReputationContract 1 30)),
    (grantedByAll 0, .custody (.createEscrow 4 3 100 "session" 9 0 1))]

def lateFailure (now : ℕ) : Step ℕ 0 := (reputationDown now, .tryAutoRelease 1)

def lateFailures : List (Step ℕ 0) :=
  bookedWithReputation ++ [lateFailure (2 ^ 64 - 2), lateFailure (2 ^ 64 - 1)]

theorem lateFailures_close : ¬ FailureLaw lengthDigests learnerFunds 1 lateFailures
    (RecordStands lengthDigests learnerFunds 1) (· + ·) := by
  intro hlaw
  have hfirst : FailsAt lengthDigests learnerFunds 1 lateFailures bookedWithReputation
      (lateFailure (2 ^ 64 - 2)) 1 :=
    .of_attempts rfl ⟨[_], rfl⟩ (by decide +kernel) (by decide +kernel)
  have hsecond : FailsAt lengthDigests learnerFunds 1 lateFailures
      (bookedWithReputation ++ [lateFailure (2 ^ 64 - 2)]) (lateFailure (2 ^ 64 - 1)) 2 :=
    .of_attempts rfl ⟨[], rfl⟩ (by decide +kernel) (by decide +kernel)
  have hdue := hlaw.spaced _ _ _ _ _ _ hfirst hsecond List.prefix_rfl ?_ ?_
  · exact absurd hdue (by decide)
  · intro mid hmid hle
    obtain rfl := hmid.eq_of_length_le hle.length_le
    intro hnone
    have hone : (failureAfter lengthDigests learnerFunds 1
        (bookedWithReputation ++ [lateFailure (2 ^ 64 - 2)])).map
        ReleaseFailure.attemptNumber = some 1 := by
      decide +kernel
    rw [hnone] at hone
    cases hone
  · intro mid between k hmid hle
    have hlength := hmid.length_le.trans_lt (Nat.lt_succ_self mid.length)
    have hshort := hle.length_le
    rw [List.length_append, List.length_singleton] at hshort
    omega

/-- A rollback brings back an escrow that its failures had blocked, and where the clock ends
the wait is cut short. -/
theorem failure_tracking_limits :
    ¬ FailureLaw lengthDigests learnerFunds 1 (restoredRun ++ [retriedRelease])
      (fun _ _ => True) (· + ·) ∧
    ¬ FailureLaw lengthDigests learnerFunds 1 (restoredRun ++ [retriedRelease])
      (fun _ _ => True) saturatingAddU64 ∧
    ¬ FailureLaw lengthDigests learnerFunds 1 lateFailures
      (RecordStands lengthDigests learnerFunds 1) (· + ·) :=
  ⟨restoredRun_released _, restoredRun_released _, lateFailures_close⟩

end Escrow
