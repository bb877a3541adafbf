import MentorsMind.Lib.Table
import MentorsMind.Vesting.Effects

/-! What a revocation pays. Beside the run a book is kept of the payments that the claims of a
schedule made; the revocation itself sends nothing to the beneficiary. -/
namespace Vesting
open Outcome Soroban Shared

variable {Addr : Type} [DecidableEq Addr] {home : Addr}

/-- How much of the total has vested at `now`. -/
def VestingSchedule.vestedAt (schedule : VestingSchedule Addr) (now : ℕ) : ℤ :=
  if now < schedule.effectiveStart then 0
  else if schedule.vestingEnd ≤ now then schedule.total
  else (schedule.total * (now - schedule.effectiveStart : ℕ)).tdiv
    (schedule.vestingEnd - schedule.cliffEnd : ℕ)

/-- What the contract has sent to `who` in its token. -/
def sentTo (home : Addr) (s : State Addr) (who : Addr) : ℤ :=
  s.token.elim 0 fun token => Tokens.paidBy token home (· = who) s.tokens.transfers

/-- What happens to the schedule of an id: one is created, or a claim pays its beneficiary. -/
inductive ScheduleEvent where
  | created
  | paid (time : ℕ) (amount : ℤ)

/-- What a call does to the schedule of an id, by the tokens that it moves. -/
def scheduleEvent (id : ℕ) (s : State Addr) (step : Step Addr home) (t : State Addr) :
    Option ScheduleEvent :=
  match step.2 with
  | .createSchedule _ => if s.nextScheduleId + 1 = id then some .created else none
  | .claimVestingMerkle _ _ => if s.nextScheduleId = id then some .created else none
  | .claim id' =>
      if id' = id then (s.schedule id).map fun schedule =>
        .paid step.1.timestamp
          (sentTo home t schedule.beneficiary - sentTo home s schedule.beneficiary)
      else none
  | _ => none

/-- What the claims have paid since the schedule was created. -/
def paidSince (sum : ℤ) : ScheduleEvent → ℤ
  | .created => 0
  | .paid _ amount => sum + amount

/-- When the last of them was made. -/
def claimedLast (_ : Option ℕ) : ScheduleEvent → Option ℕ
  | .created => none
  | .paid time _ => some time

def scheduleEvents (digests : Digests Addr) (balance : Addr → Addr → ℕ)
    (steps : List (Step Addr home)) (id : ℕ) : List ScheduleEvent :=
  (machine home digests).collect (scheduleEvent id) (deployed balance) steps

def received (digests : Digests Addr) (balance : Addr → Addr → ℕ)
    (steps : List (Step Addr home)) (id : ℕ) : ℤ :=
  (scheduleEvents digests balance steps id).foldl paidSince 0

def lastClaim (digests : Digests Addr) (balance : Addr → Addr → ℕ)
    (steps : List (Step Addr home)) (id : ℕ) : Option ℕ :=
  (scheduleEvents digests balance steps id).foldl claimedLast none

/-- What had vested at the last claim, and nothing if there was none. -/
def VestingSchedule.vestedAtLast (schedule : VestingSchedule Addr) (last : Option ℕ) : ℤ :=
  last.elim 0 schedule.vestedAt

/-- The book agrees with the schedule: what was claimed was paid, and had vested by the time of
the last claim. -/
structure Booked (schedule : VestingSchedule Addr) (events : List ScheduleEvent) : Prop where
  claimed_eq : schedule.claimed = events.foldl paidSince 0
  vested_eq : schedule.claimed = schedule.vestedAtLast (events.foldl claimedLast none)
  nonneg : 0 ≤ schedule.claimed
  cliffEnd_lt : schedule.cliffEnd < 2 ^ 64

section Amounts

variable {schedule : VestingSchedule Addr} {now : ℕ}

omit [DecidableEq Addr] in
theorem vestedAmount_eq_ok {vested : ℤ} (h : schedule.vestedAmount now = .ok vested) :
    vested = schedule.vestedAt now := by
  unfold VestingSchedule.vestedAmount at h
  unfold VestingSchedule.vestedAt
  split_ifs at h ⊢
  · exact (pure_eq_ok.mp h).symm
  · exact (pure_eq_ok.mp h).symm
  · simp only [bind_eq_ok, require_eq_ok, checkedI128_eq_ok] at h
    obtain ⟨-, -, product, ⟨-, rfl⟩, -, -, -, hvested⟩ := h
    exact hvested.symm

omit [DecidableEq Addr] in
/-- What a claim pays leaves nothing vested unclaimed. -/
theorem claimable_eq_ok {amount : ℤ} (h : schedule.claimable now = .ok amount)
    (hpos : 0 < amount) : schedule.claimed + amount = schedule.vestedAt now := by
  unfold VestingSchedule.claimable at h
  unfold VestingSchedule.vestedAt
  split_ifs at h ⊢
  · obtain rfl := pure_eq_ok.mp h
    exact absurd hpos (lt_irrefl _)
  · obtain ⟨-, rfl⟩ := i128_eq_ok.mp h
    ring
  · simp only [bind_eq_ok, require_eq_ok, i128_eq_ok] at h
    obtain ⟨-, -, product, ⟨-, rfl⟩, -, -, vested, ⟨-, rfl⟩, -, rfl⟩ := h
    ring

/-- The share of a total for a part of a period, rounded towards zero. -/
theorem share_bounds {total elapsed period : ℤ} (hnonneg : 0 ≤ elapsed) (hle : elapsed ≤ period)
    (hpos : 0 < period) (htotal : 0 ≤ total) :
    0 ≤ (total * elapsed).tdiv period ∧ (total * elapsed).tdiv period ≤ total := by
  have hproduct : 0 ≤ total * elapsed := mul_nonneg htotal hnonneg
  refine ⟨Int.tdiv_nonneg hproduct hpos.le, ?_⟩
  rw [Int.tdiv_eq_ediv_of_nonneg hproduct]
  exact Int.ediv_le_of_le_mul hpos (mul_le_mul_of_nonneg_left hle htotal)

omit [DecidableEq Addr] in
/-- Never more than the total has vested, in the direction that the total has. -/
theorem vestedAt_bounds (now : ℕ) (hcliff : schedule.cliffEnd < 2 ^ 64) :
    (0 ≤ schedule.total → 0 ≤ schedule.vestedAt now ∧ schedule.vestedAt now ≤ schedule.total) ∧
      (schedule.total < 0 → schedule.total ≤ schedule.vestedAt now) := by
  unfold VestingSchedule.vestedAt
  split_ifs with hearly hlate
  · omega
  · omega
  · have heffective : schedule.cliffEnd ≤ schedule.effectiveStart := by
      unfold VestingSchedule.effectiveStart saturatingAddU64
      omega
    have hperiod : now - schedule.effectiveStart ≤ schedule.vestingEnd - schedule.cliffEnd := by
      omega
    have hpos : (0 : ℤ) < (schedule.vestingEnd - schedule.cliffEnd : ℕ) := by omega
    have hshare : ∀ total : ℤ, 0 ≤ total → _ := fun total =>
      share_bounds (Int.natCast_nonneg _) (Int.ofNat_le.mpr hperiod) hpos
    refine ⟨hshare schedule.total, fun htotal => ?_⟩
    have hneg := (hshare (-schedule.total) (by omega)).2
    rw [neg_mul, Int.neg_tdiv] at hneg
    omega

end Amounts

section Runs

variable {digests : Digests Addr} {balance : Addr → Addr → ℕ} {pre : List (Step Addr home)}
  {inv : Invocation Addr home} {s t : State Addr}

/-- A transfer of the contract in its token adds to what it has sent to the recipient. -/
theorem sentTo_transfer {token recipient : Addr} {amount : ℤ} (hs : s.token = some token)
    (ht : t.token = some token)
    (h : s.tokens.transfer inv.accepts token home recipient amount = .ok t.tokens) (who : Addr) :
    sentTo home t who = sentTo home s who + if who = recipient then amount else 0 := by
  obtain ⟨-, -, htokens⟩ := Tokens.transfer_eq_ok h
  unfold sentTo
  rw [hs, ht, htokens]
  simp [Tokens.paidBy, eq_comm (a := who)]

theorem scheduleEvents_snoc {step : Step Addr home}
    (hx : (machine home digests).exec step ((machine home digests).run (deployed balance) pre) =
      .ok t) (id : ℕ) : scheduleEvents digests balance (pre ++ [step]) id =
      scheduleEvents digests balance pre id ++
        (scheduleEvent id ((machine home digests).run (deployed balance) pre) step t).toList :=
  Machine.collect_snoc_ok hx

omit [DecidableEq Addr] in
/-- A schedule starts with an empty book. -/
theorem Booked.created {schedule : VestingSchedule Addr} (events : List ScheduleEvent)
    (hclaimed : schedule.claimed = 0) (hcliff : schedule.cliffEnd < 2 ^ 64) :
    Booked schedule (events ++ [.created]) := by
  refine ⟨?_, ?_, hclaimed.ge, hcliff⟩
  · rw [hclaimed, List.foldl_append]
    rfl
  · rw [hclaimed, List.foldl_append]
    rfl

omit [DecidableEq Addr] in
/-- A claim is booked with what it pays. -/
theorem Booked.paid {schedule : VestingSchedule Addr} {events : List ScheduleEvent} {now : ℕ}
    {amount : ℤ} (hs : Booked schedule events) (hpos : 0 < amount)
    (hclaimable : schedule.claimable now = .ok amount) :
    Booked { schedule with claimed := schedule.claimed + amount }
      (events ++ [.paid now amount]) := by
  refine ⟨?_, ?_, add_nonneg hs.nonneg hpos.le, hs.cliffEnd_lt⟩
  · rw [List.foldl_append, ← hs.claimed_eq]
    rfl
  · rw [List.foldl_append]
    exact claimable_eq_ok hclaimable hpos

theorem run_booked (pre : List (Step Addr home)) : ∀ id schedule,
    ((machine home digests).run (deployed balance) pre).schedule id = some schedule →
    Booked schedule (scheduleEvents digests balance pre id) := by
  refine Machine.run_history (M := machine home digests) (s := deployed balance)
    (P := fun pre s => ∀ id schedule, s.schedule id = some schedule →
      Booked schedule (scheduleEvents digests balance pre id)) ?_ ?_ ?_ pre
  · intro id schedule h
    cases h
  · rintro pre ⟨inv, call⟩ t hs hx id schedule hstored
    rw [scheduleEvents_snoc hx]
    have heffect : Effect digests inv ((machine home digests).run (deployed balance) pre) t
      call := exec_effect hx
    generalize (machine home digests).run (deployed balance) pre = s at *
    have hsame : scheduleEvent id s (inv, call) t = none → t.schedule id = s.schedule id →
        Booked schedule (scheduleEvents digests balance pre id ++
          (scheduleEvent id s (inv, call) t).toList) := by
      intro hnone hschedule
      rw [hnone, Option.toList_none, List.append_nil]
      exact hs id schedule (hschedule ▸ hstored)
    cases heffect with
    | @created g start initialised start_eq fits eq =>
      by_cases hid : s.nextScheduleId + 1 = id
      · rw [eq, addSchedule_schedule, hid, Function.update_self, Option.some.injEq] at hstored
        subst hstored
        simp only [scheduleEvent, if_pos hid, Option.toList_some]
        exact Booked.created _ rfl (by show start + g.cliffSeconds < 2 ^ 64; omega)
      · apply hsame (by simp only [scheduleEvent, if_neg hid])
        rw [eq, addSchedule_schedule, Function.update_of_ne (Ne.symm hid)]
    | @merkleClaimed g proof merkleRoot stored unclaimed proved eq =>
      by_cases hid : s.nextScheduleId = id
      · rw [eq, addSchedule_schedule, hid, Function.update_self, Option.some.injEq] at hstored
        subst hstored
        simp only [scheduleEvent, if_pos hid, Option.toList_some]
        refine Booked.created _ rfl ?_
        show saturatingAddU64 (g.actualStart inv.timestamp) g.cliffSeconds < 2 ^ 64
        unfold saturatingAddU64
        omega
      · apply hsame (by simp only [scheduleEvent, if_neg hid])
        rw [eq, addSchedule_schedule, Function.update_of_ne (Ne.symm hid)]
    | @claimed other found' token amount found auth claimable pos stored paid eq =>
      by_cases hid : other = id
      · subst hid
        have hsent := sentTo_transfer stored (by rw [eq]; exact stored) paid found'.beneficiary
        rw [if_pos rfl] at hsent
        have hafter : t.schedule other =
            some { found' with claimed := found'.claimed + amount } := by
          rw [eq]
          exact Function.update_self ..
        obtain rfl := Option.some.inj (hafter.symm.trans hstored)
        simp only [scheduleEvent, if_pos, found, Option.map_some, Option.toList_some, hsent,
          add_sub_cancel_left]
        exact (hs other found' found).paid pos claimable
      · apply hsame (by simp only [scheduleEvent, if_neg hid])
        rw [eq]
        exact Function.update_of_ne (Ne.symm hid) ..
    | @revoked other found' admin vested stored found vested_eq refund_fits refunds eq =>
      apply hsame rfl
      rw [eq] at hstored ⊢
      exact Function.update_of_ne (Table.erase_eq_some_iff.mp hstored).1 ..
    | initialized _ eq | rootSet _ eq | received _ _ eq | elsewhere _ eq =>
      exact hsame rfl (by rw [eq])
  · intro pre step e hs herror id schedule hstored
    unfold scheduleEvents
    rw [Machine.collect_snoc_error herror]
    exact hs id schedule hstored

/-- The revocation sends `toBeneficiary` to the beneficiary and `toAdmin` to the admin, and
nothing to anybody else. -/
def Sends (home : Addr) (s t : State Addr) (beneficiary admin : Addr)
    (toBeneficiary toAdmin : ℤ) : Prop :=
  ∀ who, sentTo home t who = sentTo home s who +
    (if who = beneficiary then toBeneficiary else 0) + (if who = admin then toAdmin else 0)

/-- With what the revocation of `schedule` sends, its beneficiary has received what has vested by
`now`, and the admin the rest of the total. -/
def PaysVested (home : Addr) (s t : State Addr) (schedule : VestingSchedule Addr) (now : ℕ)
    (received : ℤ) : Prop :=
  ∃ admin toBeneficiary toAdmin, s.admin = some admin ∧
    Sends home s t schedule.beneficiary admin toBeneficiary toAdmin ∧
    received + toBeneficiary = schedule.vestedAt now ∧
    toAdmin = schedule.total - schedule.vestedAt now

/-- What a revocation sends. -/
theorem Refunds.sends {admin : Addr} {unvested : ℤ} (h : Refunds inv s t admin unvested)
    (htoken : t.token = s.token) (beneficiary : Addr) :
    Sends home s t beneficiary admin 0 (max unvested 0) := by
  obtain ⟨token, hstored, hpaid⟩ := h
  intro who
  rw [ite_self, add_zero]
  split_ifs at hpaid with hpos
  · rw [sentTo_transfer hstored (htoken.trans hstored) hpaid, max_eq_left hpos.le]
  · rw [max_eq_right (not_lt.mp hpos), ite_self, add_zero]
    unfold sentTo
    rw [htoken, hpaid]

/-- A revocation pays what has vested exactly if all of it was claimed before. -/
theorem Effect.paysVested_iff {id : ℕ} {schedule : VestingSchedule Addr}
    {events : List ScheduleEvent} (h : Effect digests inv s t (.revoke id))
    (hstored : s.schedule id = some schedule) (hs : Booked schedule events) :
    PaysVested home s t schedule inv.timestamp (events.foldl paidSince 0) ↔
      0 ≤ schedule.total ∧
        schedule.vestedAt inv.timestamp =
          schedule.vestedAtLast (events.foldl claimedLast none) := by
  rw [← hs.claimed_eq, ← hs.vested_eq]
  cases h with
  | @revoked _ found' admin vested stored found vested_eq refund_fits refunds eq =>
    obtain rfl := Option.some.inj (found.symm.trans hstored)
    obtain rfl := vestedAmount_eq_ok vested_eq
    have hsends := refunds.sends (by rw [eq]) found'.beneficiary
    obtain ⟨hbounds, hbounds'⟩ := vestedAt_bounds inv.timestamp hs.cliffEnd_lt
    have hnonneg := hs.nonneg
    unfold PaysVested
    generalize found'.vestedAt inv.timestamp = vested at *
    constructor
    · rintro ⟨admin', toBeneficiary, toAdmin, hadmin, hpays, hreceived, rfl⟩
      obtain rfl := Option.some.inj (stored.symm.trans hadmin)
      have hbeneficiary := (hpays found'.beneficiary).symm.trans (hsends found'.beneficiary)
      have hadmin' := (hpays admin).symm.trans (hsends admin)
      rw [if_pos rfl, if_pos rfl] at hbeneficiary
      rw [if_pos rfl] at hadmin'
      by_cases hsame : found'.beneficiary = admin
      · rw [if_pos hsame, if_pos hsame] at hbeneficiary
        omega
      · rw [if_neg hsame, if_neg hsame] at hbeneficiary
        rw [if_neg (Ne.symm hsame), if_neg (Ne.symm hsame)] at hadmin'
        omega
    · rintro ⟨htotal, hclaimed⟩
      obtain ⟨-, hle⟩ := hbounds htotal
      refine ⟨admin, 0, _, stored, hsends, by omega, by omega⟩

/-- For every schedule, every history before it and every time: an executed revocation pays what
has vested exactly if the total is not negative and as much had vested at the last claim of the
schedule, or nothing has vested and there was none. -/
theorem revocation_paysVested_iff {steps : List (Step Addr home)} {id : ℕ}
    {schedule : VestingSchedule Addr}
    (hx : (machine home digests).Executes (deployed balance) steps pre (inv, .revoke id) t)
    (hstored : ((machine home digests).run (deployed balance) pre).schedule id =
      some schedule) :
    PaysVested home ((machine home digests).run (deployed balance) pre) t schedule inv.timestamp
        (received digests balance pre id) ↔
      0 ≤ schedule.total ∧ schedule.vestedAt inv.timestamp =
        schedule.vestedAtLast (lastClaim digests balance pre id) := by
  have heffect : Effect digests inv ((machine home digests).run (deployed balance) pre) t
      (.revoke id) := exec_effect hx.exec_eq
  exact heffect.paysVested_iff hstored (run_booked pre id schedule hstored)

end Runs

/-- Token balances with which anybody can fund the contract. -/
def vestingFunds : ℕ → ℕ → ℕ := fun _ holder => if holder = 0 then 0 else 1000000

/-- The host functions of runs without Merkle claims. -/
def noDigests : Digests ℕ := ⟨fun _ => 0, contractXdr⟩

/-- 1000 for account 3 over a day from second 1000 on. -/
def grantedRun : List (Step ℕ 0) :=
  [(acceptedAt 1000, .initializeVesting 1 9),
    (acceptedAt 1000, .send 9 5 1000),
    (acceptedAt 1000, .createSchedule wholeDayGrant)]

/-- The claim at half time and the revocation right after it. -/
def claimedRun : List (Step ℕ 0) := grantedRun ++ [(acceptedAt 44260, .claim 1)]

theorem revocation_paysVested_claimedRun : PaysVested 0
    ((machine 0 noDigests).run (deployed vestingFunds) claimedRun)
    ((machine 0 noDigests).run (deployed vestingFunds)
      (claimedRun ++ [(acceptedAt 44260, .revoke 1)]))
    ⟨3, 1000, 500, 1000, 87400, 1000⟩ 44260
    (received noDigests vestingFunds claimedRun 1) := by
  have hstored : ((machine 0 noDigests).run (deployed vestingFunds) claimedRun).schedule 1 =
      some ⟨3, 1000, 500, 1000, 87400, 1000⟩ := by
    decide +kernel
  have hremoved : ((machine 0 noDigests).run (deployed vestingFunds)
      (claimedRun ++ [(acceptedAt 44260, .revoke 1)])).schedule 1 = none := by
    decide +kernel
  have hlast : lastClaim noDigests vestingFunds claimedRun 1 = some 44260 := by decide +kernel
  have hx : (machine 0 noDigests).Executes (deployed vestingFunds)
      (claimedRun ++ [(acceptedAt 44260, .revoke 1)]) claimedRun (acceptedAt 44260, .revoke 1)
      ((machine 0 noDigests).run (deployed vestingFunds)
        (claimedRun ++ [(acceptedAt 44260, .revoke 1)])) := by
    apply Machine.executes_of_run_ne
    intro heq
    rw [heq, hstored] at hremoved
    cases hremoved
  refine (revocation_paysVested_iff hx hstored).mpr ?_
  rw [hlast]
  decide

/-- Without the claim, what has vested goes to nobody. -/
theorem grantedRun_revocation_keeps_vested :
    ((machine 0 noDigests).run (deployed vestingFunds) grantedRun).schedule 1 =
      some ⟨3, 1000, 0, 1000, 87400, 1000⟩ ∧
    ((machine 0 noDigests).run (deployed vestingFunds)
      (grantedRun ++ [(acceptedAt 44260, .revoke 1)])).schedule 1 = none ∧
    ¬ PaysVested 0 ((machine 0 noDigests).run (deployed vestingFunds) grantedRun)
      ((machine 0 noDigests).run (deployed vestingFunds)
        (grantedRun ++ [(acceptedAt 44260, .revoke 1)]))
      ⟨3, 1000, 0, 1000, 87400, 1000⟩ 44260
      (received noDigests vestingFunds grantedRun 1) := by
  refine ⟨by decide +kernel, by decide +kernel, ?_⟩
  rintro ⟨admin, toBeneficiary, toAdmin, hadmin, hsends, hreceived, -⟩
  have hstored : ((machine 0 noDigests).run (deployed vestingFunds) grantedRun).admin =
      some 1 := by
    decide +kernel
  have hbook : received noDigests vestingFunds grantedRun 1 = 0 := by decide +kernel
  have hnothing : sentTo 0 ((machine 0 noDigests).run (deployed vestingFunds)
      (grantedRun ++ [(acceptedAt 44260, .revoke 1)])) 3 =
      sentTo 0 ((machine 0 noDigests).run (deployed vestingFunds) grantedRun) 3 := by
    decide +kernel
  have hvested : VestingSchedule.vestedAt ⟨3, 1000, 0, 1000, 87400, 1000⟩ 44260 = 500 := by
    decide
  obtain rfl := Option.some.inj (hstored.symm.trans hadmin)
  have hpaid := hsends 3
  rw [hnothing, if_pos rfl, if_neg (by decide)] at hpaid
  rw [hbook, hvested] at hreceived
  omega

end Vesting
