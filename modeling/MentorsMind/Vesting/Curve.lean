import MentorsMind.Vesting.Revocation

/-! The claims of one schedule from its creation by the admin, for as long as it stands: nobody
revokes it, and no Merkle claim takes its id. -/
namespace Vesting
open Outcome Soroban Shared

variable {Addr : Type} [DecidableEq Addr] {home : Addr}

section Amounts

variable {schedule : VestingSchedule Addr} {now : ℕ}

/-- What `create_schedule` has checked, and that no more than the total was claimed. -/
structure WellFormed (schedule : VestingSchedule Addr) : Prop where
  total_fits : FitsI128 schedule.total
  long : schedule.cliffEnd + minVestingSecs ≤ schedule.vestingEnd
  short : schedule.vestingEnd ≤ schedule.cliffEnd + maxVestingSecs
  fits : schedule.vestingEnd < 2 ^ 64
  claimed_nonneg : 0 ≤ schedule.claimed
  claimed_le : schedule.claimed ≤ schedule.total

omit [DecidableEq Addr] in
theorem WellFormed.effectiveStart_eq (h : WellFormed schedule) :
    schedule.effectiveStart = schedule.cliffEnd + timestampToleranceSecs := by
  have hlong := h.long
  have hfits := h.fits
  unfold VestingSchedule.effectiveStart saturatingAddU64
  simp only [minVestingSecs, timestampToleranceSecs] at *
  omega

omit [DecidableEq Addr] in
theorem WellFormed.vestedAt_mem (h : WellFormed schedule) (now : ℕ) :
    0 ≤ schedule.vestedAt now ∧ schedule.vestedAt now ≤ schedule.total := by
  have hlong := h.long
  have hfits := h.fits
  exact (vestedAt_bounds now (by omega)).1 (h.claimed_nonneg.trans h.claimed_le)

omit [DecidableEq Addr] in
theorem WellFormed.elapsed_le (h : WellFormed schedule) (hbefore : now < schedule.vestingEnd) :
    now - schedule.effectiveStart ≤ maxVestingSecs := by
  have hshort := h.short
  rw [h.effectiveStart_eq]
  omega

omit [DecidableEq Addr] in
/-- With a total of at most the largest number over the longest duration, nothing overflows. -/
theorem WellFormed.claimable_ok (h : WellFormed schedule)
    (hsmall : schedule.total ≤ (2 ^ 127 - 1) / maxVestingSecs) (now : ℕ) :
    schedule.claimable now = .ok (if now < schedule.effectiveStart then 0
      else schedule.vestedAt now - schedule.claimed) := by
  have htotal := h.total_fits
  have hlong := h.long
  have hclaimed := h.claimed_nonneg
  have hle := h.claimed_le
  obtain ⟨hvested, hvestedLe⟩ := h.vestedAt_mem now
  have hfitsOf : ∀ x, 0 ≤ x → x ≤ schedule.total → FitsI128 (x - schedule.claimed) := by
    intro x hx hxle
    have htop := htotal.2
    exact ⟨by omega, by omega⟩
  have hdifference := hfitsOf _ hvested hvestedLe
  have hvestedFits : FitsI128 (schedule.vestedAt now) := ⟨by omega, hvestedLe.trans_lt htotal.2⟩
  unfold VestingSchedule.claimable
  unfold VestingSchedule.vestedAt at hdifference hvestedFits ⊢
  split_ifs at hdifference hvestedFits ⊢ with hearly hlate
  · rfl
  · exact i128_eq_ok.mpr ⟨hdifference, rfl⟩
  · have hproduct : FitsI128 (schedule.total * (now - schedule.effectiveStart : ℕ)) := by
      have hperiod : ((now - schedule.effectiveStart : ℕ) : ℤ) ≤ maxVestingSecs :=
        Int.ofNat_le.mpr (h.elapsed_le (not_le.mp hlate))
      have hnonneg : 0 ≤ schedule.total * (now - schedule.effectiveStart : ℕ) :=
        mul_nonneg (hclaimed.trans hle) (Int.natCast_nonneg _)
      have hbound : schedule.total * (now - schedule.effectiveStart : ℕ) ≤
          (2 ^ 127 - 1) / maxVestingSecs * maxVestingSecs :=
        mul_le_mul hsmall hperiod (Int.natCast_nonneg _) (Int.ediv_nonneg (by norm_num)
          (Int.natCast_nonneg _))
      have hmax := Int.ediv_mul_le (2 ^ 127 - 1) (show (maxVestingSecs : ℤ) ≠ 0 by decide)
      exact ⟨by omega, by omega⟩
    simp only [bind_eq_ok, require_eq_ok, i128_eq_ok]
    simp only [minVestingSecs] at hlong
    exact ⟨(), by omega, _, ⟨hproduct, rfl⟩, (), by omega, _, ⟨hvestedFits, rfl⟩, hdifference, rfl⟩

omit [DecidableEq Addr] in
/-- What a claim pays is a part of the total. -/
theorem WellFormed.claim (h : WellFormed schedule) {amount : ℤ}
    (hclaimable : schedule.claimable now = .ok amount) (hpos : 0 < amount) :
    WellFormed { schedule with claimed := schedule.claimed + amount } := by
  have hvested := claimable_eq_ok hclaimable hpos
  have hnonneg := h.claimed_nonneg
  have hle := (h.vestedAt_mem now).2
  exact ⟨h.total_fits, h.long, h.short, h.fits, add_nonneg hnonneg hpos.le,
    hvested.trans_le hle⟩

end Amounts

section Runs

variable {digests : Digests Addr} {inv : Invocation Addr home} {s t : State Addr} {id : ℕ}

/-- The call leaves the schedule of the id where it is. -/
def Leaves (id : ℕ) (s : State Addr) : Call Addr → Prop
  | .revoke id' => id' ≠ id
  | .claimVestingMerkle _ _ => s.nextScheduleId ≠ id
  | _ => True

/-- The time of a claim of the schedule. -/
def claimTime (id : ℕ) (_ : State Addr) (step : Step Addr home) (_ : State Addr) : Option ℕ :=
  match step.2 with
  | .claim id' => if id' = id then some step.1.timestamp else none
  | _ => none

omit [DecidableEq Addr] in
theorem claimTime_claim (id' : ℕ) : claimTime id s (inv, .claim id') t =
    if id' = id then some inv.timestamp else none := rfl

/-- When the schedule was claimed, in the order of the claims. -/
def claimTimes (digests : Digests Addr) (s : State Addr) (steps : List (Step Addr home))
    (id : ℕ) : List ℕ :=
  (machine home digests).collect (claimTime id) s steps

/-- What was claimed of the schedule of an id. -/
def State.claimed (s : State Addr) (id : ℕ) : ℤ := (s.schedule id).elim 0 (·.claimed)

/-- The schedule of the id stands, with what was claimed. -/
structure Standing (schedule : VestingSchedule Addr) (id : ℕ) (s : State Addr) : Prop where
  initialised : s.admin ≠ none
  numbered : id ≤ s.nextScheduleId
  stored : s.schedule id = some { schedule with claimed := s.claimed id }
  wellFormed : WellFormed { schedule with claimed := s.claimed id }

variable {schedule : VestingSchedule Addr} {call : Call Addr}

omit [DecidableEq Addr] in
theorem Standing.of_stored {claimed : ℤ} (hadmin : s.admin ≠ none) (hnumber : id ≤ s.nextScheduleId)
    (hstored : s.schedule id = some { schedule with claimed := claimed })
    (hformed : WellFormed { schedule with claimed := claimed }) :
    Standing schedule id s ∧ s.claimed id = claimed := by
  have hclaimed : s.claimed id = claimed := by
    rw [State.claimed, hstored]
    rfl
  rw [← hclaimed] at hstored hformed
  exact ⟨⟨hadmin, hnumber, hstored, hformed⟩, hclaimed⟩

/-- A schedule that the admin creates stands. -/
theorem standing_of_createSchedule {g : Grant Addr} (h : createSchedule inv s g = .ok (t, id)) :
    ∃ start, scheduleStart inv.timestamp g.start = .ok start ∧
      Standing (g.schedule start) id t ∧ t.claimed id = 0 := by
  obtain ⟨start, hadmin, hpos, hmin, hstart, hfits, rfl, rfl⟩ := createSchedule_spec h
  simp only [createSchedule, bind_eq_ok, require_eq_ok] at h
  obtain ⟨-, -, -, -, -, -, -, hmax, -⟩ := h
  refine ⟨start, hstart, Standing.of_stored hadmin le_rfl (Function.update_self ..) ?_⟩
  exact ⟨g.total_fits, Nat.add_le_add_left hmin _, Nat.add_le_add_left hmax _, hfits, le_rfl,
    hpos.le⟩

/-- The claimed amount stays, or a claim at `now` brings it to what has vested. -/
def Progress (schedule : VestingSchedule Addr) (id : ℕ) (s t : State Addr) : Option ℕ → Prop
  | none => t.claimed id = s.claimed id
  | some now => s.claimed id ≤ t.claimed id ∧ t.claimed id = schedule.vestedAt now

theorem Standing.step (hs : Standing schedule id s) (hx : Effect digests inv s t call)
    (hleaves : Leaves id s call) :
    Standing schedule id t ∧ Progress schedule id s t (claimTime id s (inv, call) t) := by
  have hadmin := hs.initialised
  have hnumber := hs.numbered
  have hkept : t.admin ≠ none → id ≤ t.nextScheduleId → t.schedule id = s.schedule id →
      Standing schedule id t ∧ t.claimed id = s.claimed id := by
    intro hadmin hnumber hsame
    exact Standing.of_stored hadmin hnumber (hsame.trans hs.stored) hs.wellFormed
  cases hx with
  | initialized fresh _ => exact absurd fresh hadmin
  | created _ _ _ eq =>
    subst eq
    refine hkept hadmin (hnumber.trans (Nat.le_succ _)) ?_
    exact Function.update_of_ne (by omega) ..
  | merkleClaimed _ _ _ eq =>
    subst eq
    refine hkept hadmin (hnumber.trans (Nat.le_succ _)) ?_
    exact Function.update_of_ne (Ne.symm hleaves) ..
  | revoked _ _ _ _ _ eq =>
    rw [eq] at hkept ⊢
    refine hkept hadmin hnumber ?_
    exact Function.update_of_ne (Ne.symm hleaves) ..
  | rootSet _ eq | received _ _ eq | elsewhere _ eq =>
    rw [eq] at hkept ⊢
    exact hkept hadmin hnumber rfl
  | @claimed other found token amount stored auth claimable pos _ _ eq =>
    by_cases hid : other = id
    · subst hid
      obtain rfl := Option.some.inj (hs.stored.symm.trans stored)
      have hvested : s.claimed other + amount = schedule.vestedAt inv.timestamp :=
        claimable_eq_ok claimable pos
      have hstored : t.schedule other =
          some { schedule with claimed := s.claimed other + amount } := by
        rw [eq]
        exact Function.update_self ..
      obtain ⟨hstanding, hclaimed⟩ := Standing.of_stored (by rw [eq]; exact hadmin)
        (by rw [eq]; exact hnumber) hstored (hs.wellFormed.claim claimable pos)
      rw [claimTime_claim, if_pos rfl]
      exact ⟨hstanding, by omega, by omega⟩
    · rw [claimTime_claim, if_neg hid]
      rw [eq] at hkept ⊢
      refine hkept hadmin hnumber ?_
      exact Function.update_of_ne (Ne.symm hid) ..

/-- What a claim of the schedule pays. -/
theorem Standing.claim_pays (hs : Standing schedule id s)
    (hx : Effect digests inv s t (.claim id)) :
    ∃ amount, claimableAmount inv s id = .ok amount ∧ 0 < amount ∧
      sentTo home t schedule.beneficiary = sentTo home s schedule.beneficiary + amount ∧
      t.claimed id = s.claimed id + amount := by
  cases hx with
  | @claimed _ found token amount stored auth claimable pos htoken paid eq =>
    obtain rfl := Option.some.inj (hs.stored.symm.trans stored)
    have hsent := sentTo_transfer htoken (by rw [eq]; exact htoken) paid schedule.beneficiary
    rw [if_pos rfl] at hsent
    refine ⟨amount, ?_, pos, hsent, ?_⟩
    · rw [claimableAmount, stored]
      exact claimable
    · have hstored : t.schedule id = some { schedule with claimed := s.claimed id + amount } := by
        rw [eq]
        exact Function.update_self ..
      rw [State.claimed, hstored]
      rfl

/-- A claim goes through exactly when the beneficiary signs it, something is due, and the contract
holds it in a token that accepts the transfer. -/
theorem Standing.claim_isOk_iff (hs : Standing schedule id s) :
    (∃ t, claim inv s id = .ok t) ↔
      inv.auth schedule.beneficiary = true ∧ ∃ amount token,
        claimableAmount inv s id = .ok amount ∧ 0 < amount ∧ s.token = some token ∧
        amount ≤ s.tokens.balance token home ∧
        inv.accepts ⟨token, home, schedule.beneficiary, amount⟩ = true := by
  constructor
  · rintro ⟨t, h⟩
    simp only [claim, bind_eq_ok, expect_eq_ok, requireAuth_eq_ok, require_eq_ok] at h
    obtain ⟨found, hfound, -, hauth, amount, hclaimable, -, hpos, token, htoken, -, hheld, -, -,
      tokens, hpaid, -⟩ := h
    obtain rfl := Option.some.inj (hs.stored.symm.trans hfound)
    refine ⟨hauth, amount, token, ?_, hpos, htoken, hheld, ?_⟩
    · rw [claimableAmount, hs.stored]
      exact hclaimable
    · exact (Tokens.transfer_isOk_iff.mp ⟨tokens, hpaid⟩).2.2
  · rintro ⟨hauth, amount, token, hamount, hpos, htoken, hheld, haccepts⟩
    rw [claimableAmount, hs.stored] at hamount
    have hclaimable : ({ schedule with claimed := s.claimed id } :
      VestingSchedule Addr).claimable inv.timestamp = .ok amount := hamount
    have hvested : s.claimed id + amount = schedule.vestedAt inv.timestamp :=
      claimable_eq_ok hclaimable hpos
    have hle : schedule.vestedAt inv.timestamp ≤ schedule.total :=
      (hs.wellFormed.vestedAt_mem inv.timestamp).2
    have hclaimed : 0 ≤ s.claimed id := hs.wellFormed.claimed_nonneg
    have htotal : schedule.total < 2 ^ 127 := hs.wellFormed.total_fits.2
    have hfits : FitsI128 (s.claimed id + amount) := ⟨by omega, by omega⟩
    obtain ⟨tokens, hpaid⟩ := Tokens.transfer_isOk_iff.mpr ⟨hpos.le, hheld, haccepts⟩
    simp only [claim, bind_eq_ok, expect_eq_ok, requireAuth_eq_ok, require_eq_ok, i128_eq_ok,
      pure_eq_ok]
    exact ⟨_, _, hs.stored, (), hauth, amount, hclaimable, (), hpos, token, htoken, (), hheld, _,
      ⟨hfits, rfl⟩, tokens, hpaid, rfl⟩

/-- What has vested and is not claimed yet is due, from the end of the cliff and its tolerance on,
and nothing before. -/
def VestingSchedule.due (schedule : VestingSchedule Addr) (claimed : ℤ) (now : ℕ) : ℤ :=
  if now < schedule.cliffEnd + timestampToleranceSecs then 0
  else schedule.vestedAt now - claimed

omit [DecidableEq Addr] in
/-- Both functions compute what is due, whatever the time. -/
theorem Standing.claimable_due (hs : Standing schedule id s)
    (hsmall : schedule.total ≤ (2 ^ 127 - 1) / maxVestingSecs) (inv : Invocation Addr home) :
    claimableAmount inv s id = .ok (schedule.due (s.claimed id) inv.timestamp) ∧
      FitsI128 (s.claimed id + schedule.due (s.claimed id) inv.timestamp) := by
  have hformed := hs.wellFormed
  have hstart : schedule.effectiveStart = schedule.cliffEnd + timestampToleranceSecs :=
    hformed.effectiveStart_eq
  have hamount : claimableAmount inv s id =
      .ok (if inv.timestamp < schedule.effectiveStart then 0
        else schedule.vestedAt inv.timestamp - s.claimed id) := by
    rw [claimableAmount, hs.stored]
    exact hformed.claimable_ok hsmall inv.timestamp
  obtain ⟨hvested, hvestedLe⟩ : 0 ≤ schedule.vestedAt inv.timestamp ∧
      schedule.vestedAt inv.timestamp ≤ schedule.total := hformed.vestedAt_mem inv.timestamp
  have hclaimed : 0 ≤ s.claimed id := hformed.claimed_nonneg
  have hle : s.claimed id ≤ schedule.total := hformed.claimed_le
  have htotal : schedule.total < 2 ^ 127 := hformed.total_fits.2
  rw [hstart] at hamount
  refine ⟨hamount, ?_⟩
  unfold VestingSchedule.due
  split_ifs
  · exact ⟨by omega, by omega⟩
  · exact ⟨by omega, by omega⟩

/-- The claims of a schedule that stands from `s` on, through these calls. -/
structure VestingCurve (digests : Digests Addr) (s : State Addr) (steps : List (Step Addr home))
    (id : ℕ) (schedule : VestingSchedule Addr) : Prop where
  stored : ∀ pre, pre <+: steps → ((machine home digests).run s pre).schedule id =
    some { schedule with claimed := ((machine home digests).run s pre).claimed id }
  paid : ∀ pre inv t, (machine home digests).Executes s steps pre (inv, .claim id) t →
    ∃ amount, claimableAmount inv ((machine home digests).run s pre) id = .ok amount ∧
      0 < amount ∧
      sentTo home t schedule.beneficiary =
        sentTo home ((machine home digests).run s pre) schedule.beneficiary + amount ∧
      t.claimed id = ((machine home digests).run s pre).claimed id + amount
  monotone : ∀ pre pre', pre <+: pre' → pre' <+: steps →
    ((machine home digests).run s pre).claimed id ≤ ((machine home digests).run s pre').claimed id
  bounded : ∀ pre, pre <+: steps → 0 ≤ ((machine home digests).run s pre).claimed id ∧
    ((machine home digests).run s pre).claimed id ≤ schedule.total
  vested : ∀ pre, pre <+: steps → ((machine home digests).run s pre).claimed id =
    schedule.vestedAtLast (claimTimes digests s pre id).getLast?
  before : ∀ pre, pre <+: steps →
    (∀ time ∈ claimTimes digests s pre id, time < schedule.cliffEnd + timestampToleranceSecs) →
    ((machine home digests).run s pre).claimed id = 0
  complete : ∀ pre, pre <+: steps →
    (∃ time ∈ claimTimes digests s pre id, schedule.vestingEnd ≤ time) →
    ((machine home digests).run s pre).claimed id = schedule.total
  reported : schedule.total ≤ (2 ^ 127 - 1) / maxVestingSecs →
    ∀ pre, pre <+: steps → ∀ inv : Invocation Addr home,
      claimableAmount inv ((machine home digests).run s pre) id =
        .ok (schedule.due (((machine home digests).run s pre).claimed id) inv.timestamp) ∧
      FitsI128 (((machine home digests).run s pre).claimed id +
        schedule.due (((machine home digests).run s pre).claimed id) inv.timestamp)
  served : ∀ pre, pre <+: steps → ∀ inv : Invocation Addr home,
    (∃ t, claim inv ((machine home digests).run s pre) id = .ok t) ↔
      inv.auth schedule.beneficiary = true ∧ ∃ amount token,
        claimableAmount inv ((machine home digests).run s pre) id = .ok amount ∧ 0 < amount ∧
        ((machine home digests).run s pre).token = some token ∧
        amount ≤ ((machine home digests).run s pre).tokens.balance token home ∧
        inv.accepts ⟨token, home, schedule.beneficiary, amount⟩ = true

section Standing

variable {steps : List (Step Addr home)}

/-- Every call of the run leaves the schedule where it is. -/
def Undisturbed (digests : Digests Addr) (s : State Addr) (steps : List (Step Addr home))
    (id : ℕ) : Prop :=
  ∀ pre step t, (machine home digests).Executes s steps pre step t →
    Leaves id ((machine home digests).run s pre) step.2

theorem run_standing (hs : Standing schedule id s) (hzero : s.claimed id = 0)
    (hsteps : Undisturbed digests s steps id) : ∀ pre, pre <+: steps →
    Standing schedule id ((machine home digests).run s pre) ∧
      ((machine home digests).run s pre).claimed id =
        schedule.vestedAtLast (claimTimes digests s pre id).getLast? := by
  apply Machine.run_history_of_executes (M := machine home digests)
    (P := fun pre s' => Standing schedule id s' ∧
      s'.claimed id = schedule.vestedAtLast (claimTimes digests s pre id).getLast?)
  · exact ⟨hs, hzero⟩
  · rintro pre ⟨inv, call⟩ t hx ⟨hpre, hvested⟩
    obtain ⟨hstanding, hprogress⟩ := hpre.step (exec_effect hx.exec_eq) (hsteps _ _ _ hx)
    refine ⟨hstanding, ?_⟩
    rw [claimTimes, Machine.collect_snoc_ok hx.exec_eq]
    cases htime : claimTime id ((machine home digests).run s pre) (inv, call) t with
    | none =>
      rw [htime] at hprogress
      rw [Option.toList_none, List.append_nil]
      exact hprogress.trans hvested
    | some now =>
      rw [htime] at hprogress
      rw [Option.toList_some, List.getLast?_concat]
      exact hprogress.2
  · rintro pre step e ⟨hpre, hvested⟩ hx
    refine ⟨hpre, ?_⟩
    rw [claimTimes, Machine.collect_snoc_error hx]
    exact hvested

/-- The claimed amount only grows. -/
theorem claimed_mono (hs : Standing schedule id s) (hzero : s.claimed id = 0)
    (hsteps : Undisturbed digests s steps id) : ∀ pre later, pre <+: later → later <+: steps →
    ((machine home digests).run s pre).claimed id ≤
      ((machine home digests).run s later).claimed id := by
  apply Machine.run_mono_of_executes (M := machine home digests) (f := fun s => s.claimed id)
  rintro pre ⟨inv, call⟩ t hx
  have hpre := (run_standing hs hzero hsteps pre ((List.prefix_append _ _).trans hx.snoc_prefix)).1
  obtain ⟨-, hprogress⟩ := hpre.step (exec_effect hx.exec_eq) (hsteps _ _ _ hx)
  cases htime : claimTime id ((machine home digests).run s pre) (inv, call) t with
  | none =>
    rw [htime] at hprogress
    exact hprogress.ge
  | some now =>
    rw [htime] at hprogress
    exact hprogress.1

omit [DecidableEq Addr] in
theorem vestedAt_eq_zero (hformed : WellFormed schedule) {now : ℕ}
    (hearly : now < schedule.cliffEnd + timestampToleranceSecs) : schedule.vestedAt now = 0 := by
  rw [VestingSchedule.vestedAt, if_pos]
  rw [hformed.effectiveStart_eq]
  exact hearly

omit [DecidableEq Addr] in
theorem vestedAt_eq_total (hformed : WellFormed schedule) {now : ℕ}
    (hlate : schedule.vestingEnd ≤ now) : schedule.vestedAt now = schedule.total := by
  have hlong := hformed.long
  simp only [minVestingSecs] at hlong
  rw [VestingSchedule.vestedAt, if_neg, if_pos hlate]
  rw [hformed.effectiveStart_eq, timestampToleranceSecs]
  omega

/-- A claim at the end of the schedule or later completes it. -/
theorem claimed_eq_total (hs : Standing schedule id s) (hzero : s.claimed id = 0)
    (hsteps : Undisturbed digests s steps id) {pre : List (Step Addr home)} {time : ℕ}
    (hpre : pre <+: steps) (htime : time ∈ claimTimes digests s pre id)
    (hlate : schedule.vestingEnd ≤ time) :
    ((machine home digests).run s pre).claimed id = schedule.total := by
  have hformed := (run_standing hs hzero hsteps pre hpre).1.wellFormed
  obtain ⟨before, ⟨inv, call⟩, t, hx, hclaim⟩ := Machine.exists_of_mem_collect htime
  have hbefore := (run_standing hs hzero hsteps before ((List.prefix_append _ _).trans
    (hx.snoc_prefix.trans hpre))).1
  obtain ⟨-, hprogress⟩ := hbefore.step (exec_effect hx.exec_eq) (hsteps _ _ _ (hx.mono hpre))
  rw [hclaim] at hprogress
  have hgrown := claimed_mono hs hzero hsteps (before ++ [(inv, call)]) pre hx.snoc_prefix hpre
  rw [hx.run_eq] at hgrown
  have hall : schedule.vestedAt time = schedule.total := vestedAt_eq_total hformed hlate
  have hle : ((machine home digests).run s pre).claimed id ≤ schedule.total := hformed.claimed_le
  have hnow := hprogress.2
  omega

/-- For every schedule that the admin creates and every run in which it stands, the view reports
what is due, a claim of it goes through where it is signed and funded and pays what the view
reports, and what was claimed is the part of the total that had vested at the last claim. -/
theorem vestingCurve {g : Grant Addr} (h : createSchedule inv s g = .ok (t, id))
    (hsteps : Undisturbed digests t steps id) :
    ∃ start, scheduleStart inv.timestamp g.start = .ok start ∧
      VestingCurve digests t steps id (g.schedule start) := by
  obtain ⟨start, hstart, hstands, hzero⟩ := standing_of_createSchedule h
  have hrun := run_standing hstands hzero hsteps
  refine ⟨start, hstart, ⟨?_, ?_, claimed_mono hstands hzero hsteps, ?_, ?_, ?_, ?_, ?_, ?_⟩⟩
  · intro pre hpre
    exact (hrun pre hpre).1.stored
  · intro pre inv t hx
    have heffect : Effect digests inv ((machine home digests).run _ pre) t (.claim id) :=
      exec_effect hx.exec_eq
    exact (hrun pre ((List.prefix_append _ _).trans hx.snoc_prefix)).1.claim_pays heffect
  · intro pre hpre
    have hformed := (hrun pre hpre).1.wellFormed
    exact ⟨hformed.claimed_nonneg, hformed.claimed_le⟩
  · intro pre hpre
    exact (hrun pre hpre).2
  · intro pre hpre hearly
    rw [(hrun pre hpre).2]
    cases hlast : (claimTimes digests t pre id).getLast? with
    | none => rfl
    | some time =>
      exact vestedAt_eq_zero hstands.wellFormed (hearly time (List.mem_of_getLast? hlast))
  · rintro pre hpre ⟨time, htime, hlate⟩
    exact claimed_eq_total hstands hzero hsteps hpre htime hlate
  · intro hsmall pre hpre inv
    exact (hrun pre hpre).1.claimable_due hsmall inv
  · intro pre hpre inv
    exact (hrun pre hpre).1.claim_isOk_iff

end Standing

end Runs

/-- A claim at half time and one after the end. -/
def twoClaims : List (Step ℕ 0) := [(acceptedAt 44260, .claim 1), (acceptedAt 90000, .claim 1)]

/-- Both claims go through: the first one pays the half, and the second one the rest. -/
theorem vestingCurve_twoClaims :
    (∃ start, scheduleStart 1000 0 = .ok start ∧
      VestingCurve noDigests ((machine 0 noDigests).run (deployed vestingFunds) grantedRun)
        twoClaims 1 (wholeDayGrant.schedule start)) ∧
    claimTimes noDigests ((machine 0 noDigests).run (deployed vestingFunds) grantedRun)
      twoClaims 1 = [44260, 90000] ∧
    sentTo 0 ((machine 0 noDigests).run (deployed vestingFunds)
      (grantedRun ++ twoClaims.take 1)) 3 = 500 ∧
    sentTo 0 ((machine 0 noDigests).run (deployed vestingFunds) (grantedRun ++ twoClaims)) 3 =
      1000 := by
  have hcreate : createSchedule (acceptedAt 1000)
      ((machine 0 noDigests).run (deployed vestingFunds) (grantedRun.take 2)) wholeDayGrant =
      .ok ((machine 0 noDigests).run (deployed vestingFunds) grantedRun, 1) := rfl
  refine ⟨vestingCurve hcreate ?_, by decide +kernel, by decide +kernel, by decide +kernel⟩
  intro pre step t hx
  have hmem := hx.mem
  simp only [twoClaims, List.mem_cons, List.not_mem_nil, or_false] at hmem
  obtain rfl | rfl := hmem
  · trivial
  · trivial

end Vesting
