import MentorsMind.Shared.Staking

/-! The detector of suspicious patterns in the recent actions of a staker, and what becomes of
its verdict when the two halves of the list it reads are exchanged. -/
namespace Shared
open Outcome Soroban

/-- Below this a cycle from a stake to its withdrawal counts as short. -/
def suspiciousCycleThresholdSecs : ℕ := 7 * 24 * 60 * 60

inductive SuspiciousPatternFlag where
  | none
  | shortCycle
  | largeLateStake
  | repeatedShortCycle
  | distributionSniping
  deriving DecidableEq

/-- What the loop of `detect_suspicious_pattern` carries. -/
structure CycleScan where
  shortCycles : ℕ
  lastStake : Option StakingActionRecord

def scanAction (scan : CycleScan) (act : StakingActionRecord) : CycleScan :=
  match act.action with
  | .stake => { scan with lastStake := some act }
  | .unstake =>
      match scan.lastStake with
      | none => scan
      | some lastStake =>
          let cycle := act.timestamp - lastStake.timestamp
          ⟨if cycle < suspiciousCycleThresholdSecs then saturatingAddU32 scan.shortCycles 1
            else scan.shortCycles, none⟩
  | .claim => scan

/-- Whether the stake is a tenth of the total or more. -/
def isLargeStake (currentStake totalStaked : ℤ) : Result Bool :=
  if 0 < totalStaked ∧ 0 < currentStake then do
    let scaled ← u128 (currentStake.toNat * 10)
    pure (decide (totalStaked.toNat ≤ scaled))
  else pure false

/-- The flag for a large stake just before a distribution that is known. -/
def lateStakeFlag (shortCycles : ℕ) (currentStake totalStaked : ℤ)
    (nextDistributionAt : Option ℕ) (now : ℕ) : Result (Option SuspiciousPatternFlag) :=
  match nextDistributionAt with
  | none => pure none
  | some distAt => do
      let withinWindow : Bool := distAt - now < suspiciousCycleThresholdSecs
      let isLarge ← isLargeStake currentStake totalStaked
      if withinWindow && isLarge then pure (some .distributionSniping)
      else if withinWindow && isLarge && decide (1 ≤ shortCycles) then
        pure (some .largeLateStake)
      else pure none

/-- The flag for a number of short cycles. -/
def patternVerdict (shortCycles : ℕ) (currentStake totalStaked : ℤ)
    (nextDistributionAt : Option ℕ) (now : ℕ) : Result SuspiciousPatternFlag :=
  if 2 ≤ shortCycles then pure .repeatedShortCycle
  else do
    let late ← lateStakeFlag shortCycles currentStake totalStaked nextDistributionAt now
    match late with
    | some flag => pure flag
    | none => if 1 ≤ shortCycles then pure .shortCycle else pure .none

def detectSuspiciousPattern (actions : List StakingActionRecord)
    (currentStake totalStaked : ℤ) (nextDistributionAt : Option ℕ) (now : ℕ) :
    Result SuspiciousPatternFlag :=
  if actions.length < 2 then pure .none
  else patternVerdict (actions.foldl scanAction ⟨0, none⟩).shortCycles currentStake totalStaked
    nextDistributionAt now

section Cycles

/-- The stake that is still open after an action, where `o` was open before. -/
def openAfter (o : Option StakingActionRecord) (act : StakingActionRecord) :
    Option StakingActionRecord :=
  match act.action with
  | .stake => some act
  | .unstake => none
  | .claim => o

/-- The action withdraws the open stake within the threshold. -/
def EndsShort (o : Option StakingActionRecord) (act : StakingActionRecord) : Prop :=
  act.action = .unstake ∧
    ∃ staked ∈ o, act.timestamp - staked.timestamp < suspiciousCycleThresholdSecs

instance (o : Option StakingActionRecord) (act : StakingActionRecord) :
    Decidable (EndsShort o act) := inferInstanceAs (Decidable (_ ∧ ∃ _ ∈ o, _))

/-- The number of short cycles, when `o` is open at first. -/
def cyclesFrom (o : Option StakingActionRecord) : List StakingActionRecord → ℕ
  | [] => 0
  | act :: acts => (if EndsShort o act then 1 else 0) + cyclesFrom (openAfter o act) acts

/-- The stake that is open after all of the actions. -/
def openStake (acts : List StakingActionRecord) : Option StakingActionRecord :=
  acts.foldl openAfter none

/-- The first action that is not a claim. -/
def firstMove (acts : List StakingActionRecord) : Option StakingActionRecord :=
  acts.find? fun act => act.action ≠ .claim

/-- A stake of `before` that is open at its end is withdrawn within the threshold by the first
move of `after`. -/
def Straddles (before after : List StakingActionRecord) : Prop :=
  ∃ act ∈ firstMove after, EndsShort (openStake before) act

instance (before after : List StakingActionRecord) : Decidable (Straddles before after) :=
  inferInstanceAs (Decidable (∃ _ ∈ firstMove after, _))

/-- The short cycles within `acts` alone. -/
def shortCyclesIn (acts : List StakingActionRecord) : ℕ := cyclesFrom none acts

/-- The counter of the loop is exact up to the largest `u32`. -/
theorem foldl_scanAction (acts : List StakingActionRecord) (count : ℕ)
    (o : Option StakingActionRecord) :
    acts.foldl scanAction ⟨min count (2 ^ 32 - 1), o⟩ =
      ⟨min (count + cyclesFrom o acts) (2 ^ 32 - 1), acts.foldl openAfter o⟩ := by
  induction acts generalizing count o with
  | nil => simp [cyclesFrom]
  | cons act acts ih =>
    have hround : scanAction ⟨min count (2 ^ 32 - 1), o⟩ act =
        ⟨min (count + if EndsShort o act then 1 else 0) (2 ^ 32 - 1), openAfter o act⟩ := by
      cases haction : act.action with
      | stake =>
        have hnot : ¬ EndsShort o act := by simp [EndsShort, haction]
        simp [scanAction, openAfter, haction, hnot]
      | claim =>
        have hnot : ¬ EndsShort o act := by simp [EndsShort, haction]
        simp [scanAction, openAfter, haction, hnot]
      | unstake =>
        cases o with
        | none =>
          have hnot : ¬ EndsShort none act := by simp [EndsShort]
          simp [scanAction, openAfter, haction, hnot]
        | some staked =>
          have hends : EndsShort (some staked) act ↔
              act.timestamp - staked.timestamp < suspiciousCycleThresholdSecs := by
            simp [EndsShort, haction]
          simp only [scanAction, openAfter, haction, hends, saturatingAddU32]
          split_ifs
          · congr 1
            omega
          · simp
    rw [List.foldl_cons, hround, ih, cyclesFrom, List.foldl_cons, add_assoc]

theorem cyclesFrom_append (o : Option StakingActionRecord) (as bs : List StakingActionRecord) :
    cyclesFrom o (as ++ bs) = cyclesFrom o as + cyclesFrom (as.foldl openAfter o) bs := by
  induction as generalizing o with
  | nil => simp [cyclesFrom]
  | cons act as ih => rw [List.cons_append, cyclesFrom, cyclesFrom, ih, List.foldl_cons, add_assoc]

/-- What is open at first makes a difference for the first move only. -/
theorem cyclesFrom_eq (o : Option StakingActionRecord) (acts : List StakingActionRecord) :
    cyclesFrom o acts = shortCyclesIn acts +
      if ∃ act ∈ firstMove acts, EndsShort o act then 1 else 0 := by
  induction acts with
  | nil => simp [shortCyclesIn, cyclesFrom, firstMove]
  | cons act acts ih =>
    have hnone : ¬ EndsShort none act := fun ⟨_, _, hmem, _⟩ => nomatch hmem
    unfold shortCyclesIn at *
    rw [cyclesFrom, cyclesFrom, if_neg hnone, zero_add]
    cases haction : act.action with
    | claim =>
      have hfirst : firstMove (act :: acts) = firstMove acts := by
        simp [firstMove, haction]
      have hnot : ¬ EndsShort o act := by simp [EndsShort, haction]
      have hsame : ∀ o, openAfter o act = o := by simp [openAfter, haction]
      rw [if_neg hnot, zero_add, hfirst, hsame, hsame, ih]
    | stake =>
      have hfirst : firstMove (act :: acts) = some act := by simp [firstMove, haction]
      have hnot : ¬ EndsShort o act := by simp [EndsShort, haction]
      have hopen : ∀ o, openAfter o act = some act := by simp [openAfter, haction]
      rw [hfirst, hopen, hopen, if_neg hnot, zero_add, if_neg (by simpa using hnot), add_zero]
    | unstake =>
      have hfirst : firstMove (act :: acts) = some act := by simp [firstMove, haction]
      have hopen : ∀ o, openAfter o act = none := by simp [openAfter, haction]
      rw [hfirst, hopen, hopen, add_comm]
      simp

theorem shortCyclesIn_append (as bs : List StakingActionRecord) :
    shortCyclesIn (as ++ bs) =
      shortCyclesIn as + shortCyclesIn bs + if Straddles as bs then 1 else 0 := by
  unfold shortCyclesIn
  rw [cyclesFrom_append, cyclesFrom_eq (as.foldl openAfter none), add_assoc]
  rfl

end Cycles

section Verdict

variable {currentStake totalStaked : ℤ} {nextDistributionAt : Option ℕ} {now : ℕ}

/-- The stake is a tenth of the total or more, close to a distribution that is known; or ten
times the stake is no `u128`. -/
def LateStake (currentStake totalStaked : ℤ) (nextDistributionAt : Option ℕ) (now : ℕ) : Prop :=
  ∃ distAt ∈ nextDistributionAt, 0 < totalStaked ∧ 0 < currentStake ∧
    (2 ^ 128 ≤ currentStake * 10 ∨
      (distAt - now < suspiciousCycleThresholdSecs ∧ totalStaked ≤ currentStake * 10))

theorem isLargeStake_cases (currentStake totalStaked : ℤ) :
    (2 ^ 128 ≤ currentStake * 10 ∧ 0 < totalStaked ∧
        isLargeStake currentStake totalStaked = .error .arithmetic) ∨
      ((2 ^ 128 ≤ currentStake * 10 → totalStaked ≤ 0) ∧ isLargeStake currentStake totalStaked =
        .ok (decide (0 < totalStaked ∧ 0 < currentStake ∧ totalStaked ≤ currentStake * 10))) := by
  unfold isLargeStake
  by_cases hpos : 0 < totalStaked ∧ 0 < currentStake
  · rw [if_pos hpos]
    by_cases hfits : currentStake.toNat * 10 < 2 ^ 128
    · right
      have hproduct : u128 (currentStake.toNat * 10) = .ok (currentStake.toNat * 10) :=
        u128_eq_ok.mpr ⟨hfits, rfl⟩
      have hlarge : totalStaked.toNat ≤ currentStake.toNat * 10 ↔
          0 < totalStaked ∧ 0 < currentStake ∧ totalStaked ≤ currentStake * 10 := by omega
      rw [hproduct]
      refine ⟨by omega, congrArg Except.ok ?_⟩
      exact decide_eq_decide.mpr hlarge
    · left
      refine ⟨by omega, hpos.1, ?_⟩
      simp only [u128, require, if_neg hfits]
      rfl
  · right
    rw [if_neg hpos]
    refine ⟨by omega, congrArg Except.ok ?_⟩
    symm
    exact decide_eq_false fun hall => hpos ⟨hall.1, hall.2.1⟩

theorem lateStakeFlag_of_not (h : ¬ LateStake currentStake totalStaked nextDistributionAt now)
    (n : ℕ) : lateStakeFlag n currentStake totalStaked nextDistributionAt now = .ok none := by
  cases nextDistributionAt with
  | none => rfl
  | some distAt =>
    unfold LateStake at h
    simp only [Option.mem_def, Option.some.injEq, exists_eq_left'] at h
    rcases isLargeStake_cases currentStake totalStaked with ⟨hbig, htotal, -⟩ | ⟨hfits, hlarge⟩
    · exact absurd ⟨htotal, by omega, .inl hbig⟩ h
    · have hnot : (decide (distAt - now < suspiciousCycleThresholdSecs) && decide (0 < totalStaked ∧
          0 < currentStake ∧ totalStaked ≤ currentStake * 10)) = false := by
        rw [← Bool.decide_and, decide_eq_false_iff_not]
        rintro ⟨hwindow, htotal, hstake, hle⟩
        exact h ⟨htotal, hstake, .inr ⟨hwindow, hle⟩⟩
      simp only [lateStakeFlag, hlarge]
      show (if _ then _ else if _ then _ else _) = _
      rw [hnot]
      rfl

/-- A large stake shortly before a distribution gets its own flag, whatever the cycles. -/
theorem lateStakeFlag_of (h : LateStake currentStake totalStaked nextDistributionAt now) :
    (∃ trap, ∀ n, lateStakeFlag n currentStake totalStaked nextDistributionAt now =
        .error trap) ∨
      ∀ n, lateStakeFlag n currentStake totalStaked nextDistributionAt now =
        .ok (some .distributionSniping) := by
  obtain ⟨distAt, hdist, htotal, hstake, hcase⟩ := h
  obtain rfl := Option.mem_def.mp hdist
  rcases isLargeStake_cases currentStake totalStaked with ⟨-, -, herror⟩ | ⟨hfits, hlarge⟩
  · left
    refine ⟨.arithmetic, fun n => ?_⟩
    simp only [lateStakeFlag, herror]
    rfl
  · right
    intro n
    obtain ⟨hwindow, hle⟩ := hcase.resolve_left fun hbig => absurd (hfits hbig) (not_le.mpr htotal)
    have hyes : (decide (distAt - now < suspiciousCycleThresholdSecs) && decide (0 < totalStaked ∧
        0 < currentStake ∧ totalStaked ≤ currentStake * 10)) = true := by
      rw [← Bool.decide_and, decide_eq_true_eq]
      exact ⟨hwindow, htotal, hstake, hle⟩
    simp only [lateStakeFlag, hlarge]
    show (if _ then _ else if _ then _ else _) = _
    rw [hyes]
    rfl

theorem patternVerdict_of_not (h : ¬ LateStake currentStake totalStaked nextDistributionAt now)
    (n : ℕ) : patternVerdict n currentStake totalStaked nextDistributionAt now =
      .ok (if 2 ≤ n then .repeatedShortCycle else if 1 ≤ n then .shortCycle else .none) := by
  unfold patternVerdict
  rw [lateStakeFlag_of_not h, ok_bind]
  split_ifs
  · rfl
  · rfl
  · rfl

theorem patternVerdict_of (h : LateStake currentStake totalStaked nextDistributionAt now) :
    ∃ r, r ≠ .ok .repeatedShortCycle ∧
      ∀ n, patternVerdict n currentStake totalStaked nextDistributionAt now =
        if 2 ≤ n then .ok .repeatedShortCycle else r := by
  unfold patternVerdict
  rcases lateStakeFlag_of h with ⟨trap, hflag⟩ | hflag
  · refine ⟨.error trap, by simp, fun n => ?_⟩
    rw [hflag]
    rfl
  · refine ⟨.ok .distributionSniping, by simp, fun n => ?_⟩
    rw [hflag]
    rfl

/-- One more short cycle makes a difference unless there are two already, or none and the
stake is late anyway. -/
theorem patternVerdict_succ_eq_iff (n : ℕ) :
    patternVerdict (n + 1) currentStake totalStaked nextDistributionAt now =
        patternVerdict n currentStake totalStaked nextDistributionAt now ↔
      2 ≤ n ∨ (n = 0 ∧ LateStake currentStake totalStaked nextDistributionAt now) := by
  by_cases hlate : LateStake currentStake totalStaked nextDistributionAt now
  · obtain ⟨r, hne, hverdict⟩ := patternVerdict_of hlate
    rw [hverdict, hverdict]
    simp only [hlate, and_true]
    match n with
    | 0 => simp
    | 1 => simp [hne.symm]
    | n + 2 => simp
  · rw [patternVerdict_of_not hlate, patternVerdict_of_not hlate]
    simp only [hlate, and_false, or_false]
    match n with
    | 0 => simp
    | 1 => simp
    | n + 2 => simp

/-- The counter saturates far above the numbers that make a difference. -/
theorem patternVerdict_min (n : ℕ) :
    patternVerdict (min n (2 ^ 32 - 1)) currentStake totalStaked nextDistributionAt now =
      patternVerdict n currentStake totalStaked nextDistributionAt now := by
  have htwo : 2 ≤ min n (2 ^ 32 - 1) ↔ 2 ≤ n := by omega
  have hone : 1 ≤ min n (2 ^ 32 - 1) ↔ 1 ≤ n := by omega
  by_cases hlate : LateStake currentStake totalStaked nextDistributionAt now
  · obtain ⟨r, -, hverdict⟩ := patternVerdict_of hlate
    rw [hverdict, hverdict]
    simp only [htwo]
  · rw [patternVerdict_of_not hlate, patternVerdict_of_not hlate]
    simp only [htwo, hone]

theorem detectSuspiciousPattern_eq {acts : List StakingActionRecord} (hlength : 2 ≤ acts.length) :
    detectSuspiciousPattern acts currentStake totalStaked nextDistributionAt now =
      patternVerdict (shortCyclesIn acts) currentStake totalStaked nextDistributionAt now := by
  have hscan := foldl_scanAction acts 0 none
  rw [Nat.zero_min, Nat.zero_add] at hscan
  rw [detectSuspiciousPattern, if_neg (not_lt.mpr hlength), hscan, patternVerdict_min]
  rfl

theorem not_straddles_nil_left (acts : List StakingActionRecord) : ¬ Straddles [] acts := by
  rintro ⟨act, -, -, staked, hstaked, -⟩
  cases hstaked

theorem not_straddles_nil_right (acts : List StakingActionRecord) : ¬ Straddles acts [] := by
  rintro ⟨act, hact, -⟩
  cases hact

/-- The verdict is the same in both orders of two halves exactly if a short cycle straddles
both seams or neither, or if one more short cycle makes no difference. -/
theorem detectSuspiciousPattern_swap_iff (as bs : List StakingActionRecord) :
    detectSuspiciousPattern (bs ++ as) currentStake totalStaked nextDistributionAt now =
        detectSuspiciousPattern (as ++ bs) currentStake totalStaked nextDistributionAt now ↔
      (Straddles as bs ↔ Straddles bs as) ∨ 2 ≤ shortCyclesIn as + shortCyclesIn bs ∨
        (shortCyclesIn as + shortCyclesIn bs = 0 ∧
          LateStake currentStake totalStaked nextDistributionAt now) := by
  by_cases hlength : 2 ≤ (as ++ bs).length
  · have hlength' : 2 ≤ (bs ++ as).length := by
      rwa [List.length_append, add_comm, ← List.length_append]
    rw [detectSuspiciousPattern_eq hlength, detectSuspiciousPattern_eq hlength',
      shortCyclesIn_append, shortCyclesIn_append, add_comm (shortCyclesIn bs)]
    by_cases hfirst : Straddles as bs
    · by_cases hsecond : Straddles bs as
      · simp [hfirst, hsecond]
      · rw [if_pos hfirst, if_neg hsecond, add_zero, eq_comm, patternVerdict_succ_eq_iff]
        simp [hfirst, hsecond]
    · by_cases hsecond : Straddles bs as
      · rw [if_neg hfirst, if_pos hsecond, add_zero, patternVerdict_succ_eq_iff]
        simp [hfirst, hsecond]
      · simp [hfirst, hsecond]
  -- A list of one action has an empty half.
  · have hsame : bs ++ as = as ++ bs ∧ (Straddles as bs ↔ Straddles bs as) := by
      cases as with
      | nil => simp [not_straddles_nil_left, not_straddles_nil_right]
      | cons act as =>
        obtain rfl : bs = [] := by
          rw [List.length_append, List.length_cons] at hlength
          exact List.length_eq_zero_iff.mp (by omega)
        simp [not_straddles_nil_left, not_straddles_nil_right]
    exact iff_of_true (by rw [hsame.1]) (.inl hsame.2)

end Verdict

end Shared
