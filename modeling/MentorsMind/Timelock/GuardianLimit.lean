import MentorsMind.Lib.SlidingWindow
import MentorsMind.Timelock.Effects

/-! How often one guardian overrides. The list of times belongs to the address and survives
its replacement and its return, so the limit holds across changes of the guardian. -/
namespace Timelock
open Outcome Soroban Shared

variable {Addr Val : Type} [DecidableEq Addr] {self : Addr}

omit [DecidableEq Addr] in
theorem recentOverrides_eq (now : ℕ) (timestamps : List ℕ) :
    recentOverrides now timestamps =
      SlidingWindow.recent guardianOverridePeriodSecs now timestamps := rfl

/-- The time of a call, if it is an override by `guardian`. -/
def overrideTime (guardian : Addr) (step : Step Addr Val self) : Option ℕ :=
  match step.2 with
  | .emergencyCancel caller _ _ => if caller = guardian then some step.1.timestamp else none
  | _ => none

/-- The times of the successful `emergency_cancel` calls of `guardian`. -/
def overrides (digests : Digests Addr Val) (guardian : Addr) (steps : List (Step Addr Val self)) :
    List ℕ :=
  (machine self digests).collect (fun _ step _ => overrideTime guardian step)
    (deployed Addr Val) steps

/-- The ledger time of the calls of a run, one after the other. -/
def ClockForward (steps : List (Step Addr Val self)) : Prop :=
  (steps.map fun step => step.1.timestamp).Pairwise (· ≤ ·)

variable {digests : Digests Addr Val} {pre : List (Step Addr Val self)} {step : Step Addr Val self}
  {s t : State Addr Val} {guardian : Addr}

/-- Only an override by this guardian touches its list. -/
theorem Effect.overrideTimestamps (h : Effect digests step s t) (guardian : Addr) :
    (overrideTime guardian step = none ∧
        t.guardianOverrideTimestamps guardian = s.guardianOverrideTimestamps guardian) ∨
      (overrideTime guardian step = some step.1.timestamp ∧
        (recentOverrides step.1.timestamp (s.guardianOverrideTimestamps guardian)).length <
          maxGuardianOverridesPerPeriod ∧
        t.guardianOverrideTimestamps guardian =
          recentOverrides step.1.timestamp (s.guardianOverrideTimestamps guardian) ++
            [step.1.timestamp]) := by
  cases h with
  | overridden caller operationId reasonHash op audit call registered auth found pending recent
      eq =>
    subst eq
    by_cases hcaller : caller = guardian
    · subst hcaller
      refine .inr ⟨by simp [overrideTime, call], recent, ?_⟩
      simp [State.cancelOp, State.setOp]
    · refine .inl ⟨by simp [overrideTime, call, hcaller], ?_⟩
      simp [State.cancelOp, State.setOp, Ne.symm hcaller]
  | initialized _ call _ eq | scheduled _ _ _ _ _ _ _ call _ _ _ _ _ eq
  | executed _ _ call _ _ _ eq | cancelled _ _ _ call _ _ _ _ eq
  | guardianSet _ _ call _ eq | adminTransferred _ _ call _ _ eq =>
    subst eq
    exact .inl ⟨by simp [overrideTime, call], rfl⟩

theorem mem_overrides {time : ℕ} (h : time ∈ overrides digests guardian pre) :
    ∃ step ∈ pre, step.1.timestamp = time := by
  obtain ⟨before, step, t, hx, htime⟩ := Machine.exists_of_mem_collect h
  refine ⟨step, hx.mem, ?_⟩
  unfold overrideTime at htime
  split at htime
  · split_ifs at htime
    exact Option.some.inj htime
  · exact absurd htime (by simp)

/-- The stored list limits the overrides of the run so far. -/
theorem run_limits (digests : Digests Addr Val) (guardian : Addr)
    (steps : List (Step Addr Val self)) (hclock : ClockForward steps) :
    SlidingWindow.Limits guardianOverridePeriodSecs maxGuardianOverridesPerPeriod
      ((reached digests steps).guardianOverrideTimestamps guardian)
      (overrides digests guardian steps) := by
  refine Machine.run_history (M := machine self digests)
    (P := fun steps s => ClockForward steps →
      SlidingWindow.Limits guardianOverridePeriodSecs maxGuardianOverridesPerPeriod
        (s.guardianOverrideTimestamps guardian) (overrides digests guardian steps))
    ?_ ?_ ?_ steps hclock
  · intro _
    exact SlidingWindow.limits_nil
  · intro pre step t hs hx hforward
    unfold ClockForward at hforward
    rw [List.map_append, List.pairwise_append] at hforward
    obtain ⟨hpre, -, hlast⟩ := hforward
    have hlater : ∀ time ∈ overrides digests guardian pre, time ≤ step.1.timestamp := by
      intro time htime
      obtain ⟨earlier, hmem, rfl⟩ := mem_overrides htime
      exact hlast _ (List.mem_map_of_mem hmem) _ (by simp)
    have hcollect : overrides digests guardian (pre ++ [step]) =
        overrides digests guardian pre ++ (overrideTime guardian step).toList :=
      Machine.collect_snoc_ok hx
    rw [hcollect]
    rcases (exec_effect hx).overrideTimestamps guardian with ⟨hnone, hsame⟩ | ⟨htime, hroom, hnew⟩
    · rw [hnone, hsame]
      simpa using hs hpre
    · rw [htime, hnew, recentOverrides_eq]
      rw [recentOverrides_eq] at hroom
      exact (hs hpre).record hlater hroom
  · intro pre step e hs herror hforward
    unfold ClockForward at hforward
    rw [List.map_append, List.pairwise_append] at hforward
    have hcollect : overrides digests guardian (pre ++ [step]) = overrides digests guardian pre :=
      Machine.collect_snoc_error herror
    rw [hcollect]
    exact hs hforward.1

/-- In no 30 days, both ends included, does one guardian override more than three times. -/
theorem guardian_overrides_le_three {steps : List (Step Addr Val self)}
    (hclock : ClockForward steps) (guardian : Addr) (start : ℕ) :
    ((overrides digests guardian steps).filter fun time =>
      start ≤ time ∧ time ≤ start + guardianOverridePeriodSecs).length ≤ 3 :=
  (run_limits digests guardian steps hclock).within_le start

/-- Guardian 5 overrides three operations of account 1 within a day, and is refused a fourth. -/
def overridingRun : List (Step ℕ ℕ 0) :=
  [(grantedBy 0 0 [9], .initializeTimelock 9),
    (grantedBy 0 0 [9], .setGuardianMultisig 9 5),
    (grantedBy 0 0 [1], .schedule 1 7 "set_fee" [25] minDelay 0),
    (grantedBy 0 0 [1], .schedule 1 7 "set_fee" [26] minDelay 0),
    (grantedBy 0 0 [1], .schedule 1 7 "set_fee" [27] minDelay 0),
    (grantedBy 0 0 [1], .schedule 1 7 "set_fee" [28] minDelay 0),
    (grantedBy 0 10 [5], .emergencyCancel 5 1 77),
    (grantedBy 0 20 [5], .emergencyCancel 5 2 77),
    (grantedBy 0 86400 [5], .emergencyCancel 5 3 77),
    (grantedBy 0 86401 [5], .emergencyCancel 5 4 77)]

theorem guardian_overrides_le_three_overridingRun :
    overrides countingDigests 5 overridingRun = [10, 20, 86400] ∧
      ((overrides countingDigests 5 overridingRun).filter fun time =>
        10 ≤ time ∧ time ≤ 10 + guardianOverridePeriodSecs).length ≤ 3 :=
  ⟨by decide +kernel, guardian_overrides_le_three (by unfold ClockForward; decide) 5 10⟩

end Timelock
