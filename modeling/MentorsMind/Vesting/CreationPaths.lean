import MentorsMind.Vesting.ScheduleIds

/-! The two ways to create a schedule side by side. The admin's path ends the vesting after the
cliff and the duration, a Merkle claim after the duration alone. -/
namespace Vesting
open Outcome Soroban Shared

variable {Addr : Type} [DecidableEq Addr] {home : Addr}

theorem scheduleStart_eq_ok {now start actual : ℕ} (h : scheduleStart now start = .ok actual) :
    actual = (if start = 0 then now else start) ∧ now ≤ actual + maxPastStartSecs := by
  unfold scheduleStart at h
  split_ifs at h ⊢ with hzero
  · obtain rfl := pure_eq_ok.mp h
    exact ⟨rfl, Nat.le_add_right ..⟩
  · simp only [bind_eq_ok, require_eq_ok, pure_eq_ok] at h
    obtain ⟨-, hpast, -, -, rfl⟩ := h
    exact ⟨rfl, by omega⟩

theorem saturatingAddU64_eq {a b : ℕ} (h : a + b < 2 ^ 64) : saturatingAddU64 a b = a + b := by
  unfold saturatingAddU64
  omega

section Schedules

variable {g : Grant Addr} {start : ℕ} (hfits : start + g.cliffSeconds + g.vestingSeconds < 2 ^ 64)
include hfits

omit [DecidableEq Addr] in
/-- The schedule of a Merkle claim, where nothing saturates. -/
theorem Grant.merkleSchedule_eq {now : ℕ} (hstart : start = g.actualStart now) :
    g.merkleSchedule now = { g.schedule start with vestingEnd := start + g.vestingSeconds } := by
  unfold Grant.merkleSchedule Grant.schedule
  rw [← hstart, saturatingAddU64_eq (by omega), saturatingAddU64_eq (by omega)]

omit [DecidableEq Addr] in
/-- With a cliff, there is a time at which the shorter schedule has released everything, and
the longer one has not. -/
theorem Grant.claimable_ne (hpos : 0 < g.totalAmount)
    (hmin : minVestingSecs ≤ g.vestingSeconds) (hcliff : g.cliffSeconds ≠ 0) :
    ∃ now, start + g.vestingSeconds ≤ now ∧ (g.schedule start).claimable now ≠
      { g.schedule start with vestingEnd := start + g.vestingSeconds }.claimable now := by
  unfold minVestingSecs at hmin
  have heffective : (g.schedule start).effectiveStart = start + g.cliffSeconds + 60 := by
    unfold VestingSchedule.effectiveStart timestampToleranceSecs
    exact saturatingAddU64_eq (show start + g.cliffSeconds + 60 < 2 ^ 64 by omega)
  have hsame : VestingSchedule.effectiveStart
      { g.schedule start with vestingEnd := start + g.vestingSeconds } =
        start + g.cliffSeconds + 60 := heffective
  refine ⟨max (start + g.vestingSeconds) (start + g.cliffSeconds + 60), by omega, ?_⟩
  generalize hnow : max (start + g.vestingSeconds) (start + g.cliffSeconds + 60) = now
  have hreleased : VestingSchedule.claimable
      { g.schedule start with vestingEnd := start + g.vestingSeconds } now =
        .ok g.totalAmount := by
    unfold VestingSchedule.claimable
    rw [hsame, if_neg (by omega), if_pos (by show start + g.vestingSeconds ≤ now; omega),
      i128_eq_ok]
    show FitsI128 (g.totalAmount - 0) ∧ g.totalAmount - 0 = g.totalAmount
    rw [sub_zero]
    exact ⟨g.total_fits, rfl⟩
  rw [hreleased]
  intro hpaid
  unfold VestingSchedule.claimable at hpaid
  rw [heffective, if_neg (by omega), if_neg (by
    show ¬ start + g.cliffSeconds + g.vestingSeconds ≤ now
    omega)] at hpaid
  simp only [bind_eq_ok, require_eq_ok, i128_eq_ok] at hpaid
  obtain ⟨-, -, product, ⟨-, rfl⟩, -, -, vested, ⟨-, rfl⟩, -, hvested⟩ := hpaid
  -- Less than the whole period has passed.
  have hperiod : (g.schedule start).vestingEnd - (g.schedule start).cliffEnd =
      g.vestingSeconds := by
    show start + g.cliffSeconds + g.vestingSeconds - (start + g.cliffSeconds) = g.vestingSeconds
    omega
  rw [hperiod] at hvested
  change (g.totalAmount * ((now - (start + g.cliffSeconds + 60) : ℕ) : ℤ)).tdiv
    g.vestingSeconds - 0 = g.totalAmount at hvested
  have hless : (g.totalAmount * ((now - (start + g.cliffSeconds + 60) : ℕ) : ℤ)).tdiv
      g.vestingSeconds < g.totalAmount := by
    rw [Int.tdiv_eq_ediv_of_nonneg (by positivity)]
    apply Int.ediv_lt_of_lt_mul (by omega)
    apply mul_lt_mul_of_pos_left _ hpos
    omega
  omega

end Schedules

/-- When both paths accept a grant at the same time, the schedules that they store are the same,
and release the same at every later time, exactly if the grant has no cliff. -/
theorem creationPaths_agree_iff {digests : Digests Addr} {inv inv' : Invocation Addr home}
    {s s' t t' : State Addr} {g : Grant Addr} {proof : List Hash} {id id' : ℕ}
    (htime : inv'.timestamp = inv.timestamp)
    (hadmin : createSchedule inv s g = .ok (t, id))
    (hmerkle : claimVestingMerkle digests inv' s' g proof = .ok (t', id')) :
    (t.schedule id = t'.schedule id' ↔ g.cliffSeconds = 0) ∧
      ((∀ later : Invocation Addr home, inv.timestamp ≤ later.timestamp →
        claimableAmount later t id = claimableAmount later t' id') ↔ g.cliffSeconds = 0) := by
  obtain ⟨start, -, hpos, hmin, hstart, hfits, rfl, rfl⟩ := createSchedule_spec hadmin
  obtain ⟨root, -, -, -, rfl, rfl⟩ := claimVestingMerkle_spec hmerkle
  obtain ⟨hactual, hnear⟩ := scheduleStart_eq_ok hstart
  have hmerkleSchedule : g.merkleSchedule inv'.timestamp =
      { g.schedule start with vestingEnd := start + g.vestingSeconds } := by
    apply g.merkleSchedule_eq hfits
    rw [htime]
    exact hactual
  simp only [claimableAmount, addSchedule_schedule, Function.update_self, hmerkleSchedule,
    Option.some.injEq, expect, ok_bind]
  have hsame : g.cliffSeconds = 0 → g.schedule start =
      { g.schedule start with vestingEnd := start + g.vestingSeconds } := by
    intro hcliff
    unfold Grant.schedule
    rw [hcliff]
    rfl
  constructor
  · constructor
    · intro heq
      have hend : start + g.cliffSeconds + g.vestingSeconds = start + g.vestingSeconds :=
        congrArg VestingSchedule.vestingEnd heq
      omega
    · exact hsame
  · constructor
    · intro hreleases
      by_contra hcliff
      obtain ⟨now, hlate, hne⟩ := g.claimable_ne hfits hpos hmin hcliff
      apply hne
      refine hreleases { inv with timestamp := now } ?_
      unfold maxPastStartSecs at hnear
      unfold minVestingSecs at hmin
      show inv.timestamp ≤ now
      omega
    · intro hcliff later _
      rw [← hsame hcliff]

/-- The paths agree on a grant that has no cliff. -/
theorem creationPaths_agree_dayGrant : ∃ t id t' id',
    createSchedule (acceptedAt 1000) ((machine 0 (leafDigests dayGrant dayGrantLeaf)).run
      (deployed fun _ _ => 0) rootedRun) dayGrant = .ok (t, id) ∧
    claimVestingMerkle (leafDigests dayGrant dayGrantLeaf) (acceptedAt 1000)
      ((machine 0 (leafDigests dayGrant dayGrantLeaf)).run (deployed fun _ _ => 0) rootedRun)
      dayGrant [] = .ok (t', id') ∧ t.schedule id = t'.schedule id' := by
  have hadmin : ∃ r, createSchedule (acceptedAt 1000)
      ((machine 0 (leafDigests dayGrant dayGrantLeaf)).run (deployed fun _ _ => 0) rootedRun)
      dayGrant = .ok r := ⟨_, rfl⟩
  have hmerkle : ∃ r, claimVestingMerkle (leafDigests dayGrant dayGrantLeaf) (acceptedAt 1000)
      ((machine 0 (leafDigests dayGrant dayGrantLeaf)).run (deployed fun _ _ => 0) rootedRun)
      dayGrant [] = .ok r := ⟨_, rfl⟩
  obtain ⟨⟨t, id⟩, ht⟩ := hadmin
  obtain ⟨⟨t', id'⟩, ht'⟩ := hmerkle
  exact ⟨t, id, t', id', ht, ht', (creationPaths_agree_iff rfl ht ht').1.mpr rfl⟩

/-- The same with a cliff of an hour. -/
def cliffGrant : Grant ℕ :=
  { dayGrant with cliffSeconds := 3600, cliff_lt := by decide }

def cliffGrantLeaf : Hash := 0x4953cb81a4bfc570b9dab3d10b586e67cfdafbd2dc3c51255875a1010d17be9d

/-- The admin publishes a root with one leaf. -/
def cliffRoot : State ℕ :=
  (machine 0 (leafDigests cliffGrant cliffGrantLeaf)).run (deployed fun _ _ => 0)
    [(acceptedAt 1000, .initializeVesting 1 9), (acceptedAt 1000, .setMerkleRoot cliffGrantLeaf)]

/-- Both paths accept it at the same time, and end its vesting an hour apart. -/
theorem cliffGrant_disagrees : ∃ t id t' id',
    createSchedule (acceptedAt 1000) cliffRoot cliffGrant = .ok (t, id) ∧
    claimVestingMerkle (leafDigests cliffGrant cliffGrantLeaf) (acceptedAt 1000) cliffRoot
      cliffGrant [] = .ok (t', id') ∧
    t.schedule id = some ⟨4, 500, 0, 4600, 91000, 1000⟩ ∧
    t'.schedule id' = some ⟨4, 500, 0, 4600, 87400, 1000⟩ ∧
    t.schedule id ≠ t'.schedule id' := by
  have hadmin : ∃ r, createSchedule (acceptedAt 1000) cliffRoot cliffGrant = .ok r ∧
      r.1.schedule r.2 = some ⟨4, 500, 0, 4600, 91000, 1000⟩ := ⟨_, rfl, rfl⟩
  have hmerkle : ∃ r, claimVestingMerkle (leafDigests cliffGrant cliffGrantLeaf)
      (acceptedAt 1000) cliffRoot cliffGrant [] = .ok r ∧
      r.1.schedule r.2 = some ⟨4, 500, 0, 4600, 87400, 1000⟩ := ⟨_, rfl, rfl⟩
  obtain ⟨⟨t, id⟩, ht, hschedule⟩ := hadmin
  obtain ⟨⟨t', id'⟩, ht', hschedule'⟩ := hmerkle
  refine ⟨t, id, t', id', ht, ht', hschedule, hschedule', ?_⟩
  change t.schedule id = _ at hschedule
  change t'.schedule id' = _ at hschedule'
  rw [hschedule, hschedule']
  decide

end Vesting
