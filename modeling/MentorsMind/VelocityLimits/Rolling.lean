import MentorsMind.Lib.SlidingWindow
import MentorsMind.VelocityLimits.Contract

/-! What the limits are worth: no day and no month, wherever it starts, holds more accepted payments
of a user than the limits of the tier, as long as the tier has limits. -/
namespace VelocityLimits
open Outcome Soroban Shared RollingSum

section Totals

variable {txs : List TxRecord} {now : ℕ}

theorem saturatingAdd_min {n a : ℤ} (hn : 0 ≤ n) (ha : 0 ≤ a) :
    saturatingAdd (min n unlimited) a = min (n + a) unlimited := by
  unfold saturatingAdd saturateI128 unlimited
  omega

theorem total_nonneg (hpos : ∀ tx ∈ txs, 0 ≤ tx.amountUsd) : 0 ≤ total TxRecord.amountUsd txs := by
  apply List.sum_nonneg
  intro n hn
  obtain ⟨tx, htx, rfl⟩ := List.mem_map.mp hn
  exact hpos tx htx

theorem recent_cons (width : ℕ) (tx : TxRecord) :
    recent TxRecord.timestamp width now (tx :: txs) =
      if now - width ≤ tx.timestamp then tx :: recent TxRecord.timestamp width now txs
      else recent TxRecord.timestamp width now txs := by
  simp [recent, List.filter_cons]

/-- The loop keeps the payments of the last month and adds up those of the last day and month. -/
theorem foldl_countTx (hpos : ∀ tx ∈ txs, 0 ≤ tx.amountUsd) (retained : List TxRecord) {d m : ℤ}
    (hd : 0 ≤ d) (hm : 0 ≤ m) :
    txs.foldl (countTx now) ⟨retained, min d unlimited, min m unlimited⟩ =
      ⟨retained ++ recent TxRecord.timestamp monthSecs now txs,
        min (d + total TxRecord.amountUsd (recent TxRecord.timestamp daySecs now txs)) unlimited,
        min (m + total TxRecord.amountUsd (recent TxRecord.timestamp monthSecs now txs))
          unlimited⟩ := by
  induction txs generalizing retained d m with
  | nil => simp [recent, total]
  | cons tx txs ih =>
    obtain ⟨htx, htxs⟩ := List.forall_mem_cons.mp hpos
    have hcons : ∀ xs, total TxRecord.amountUsd (tx :: xs) =
        tx.amountUsd + total TxRecord.amountUsd xs := fun xs => by simp [total]
    rw [List.foldl_cons, countTx, recent_cons, recent_cons]
    by_cases hmonth : now - monthSecs ≤ tx.timestamp
    · rw [if_pos hmonth, if_pos hmonth, saturatingAdd_min hm htx, saturatingAdd_min hd htx]
      by_cases hday : now - daySecs ≤ tx.timestamp
      · rw [if_pos hday, if_pos hday, ih htxs _ (add_nonneg hd htx) (add_nonneg hm htx), hcons, hcons]
        simp [add_assoc]
      · rw [if_neg hday, if_neg hday, ih htxs _ hd (add_nonneg hm htx), hcons]
        simp [add_assoc]
    · have hday : ¬ now - daySecs ≤ tx.timestamp := by
        unfold monthSecs at hmonth
        omega
      rw [if_neg hmonth, if_neg hmonth, if_neg hday, ih htxs _ hd hm]

end Totals

variable {Addr : Type} {self : Addr} {inv : Invocation Addr self} {s t : State Addr} {user : Addr}

theorem loadUsage_eq (hpos : ∀ tx ∈ s.userTxs user, 0 ≤ tx.amountUsd) (now : ℕ) :
    loadUsage s user now = ⟨recent TxRecord.timestamp monthSecs now (s.userTxs user),
      min (total TxRecord.amountUsd (recent TxRecord.timestamp daySecs now (s.userTxs user))) unlimited,
      min (total TxRecord.amountUsd (recent TxRecord.timestamp monthSecs now (s.userTxs user)))
        unlimited⟩ := by
  have hfold := @foldl_countTx (s.userTxs user) now hpos [] 0 0 le_rfl le_rfl
  have hzero : min (0 : ℤ) unlimited = 0 := by decide
  unfold loadUsage
  simpa only [hzero, zero_add, List.nil_append] using hfold

/-- A limit below the largest amount is not hidden by saturation. -/
theorem le_of_saturated {n a limit : ℤ} (hn : 0 ≤ n) (ha : 0 ≤ a) (hlimit : limit < unlimited)
    (h : saturatingAdd (min n unlimited) a ≤ limit) : n + a ≤ limit := by
  rw [saturatingAdd_min hn ha] at h
  omega

section Effects

variable [DecidableEq Addr]

/-- What an accepted payment has passed and leaves. -/
theorem checkAndRecord_accepted {amountUsd : ℤ}
    (h : checkAndRecord inv s user amountUsd = .ok (t, true)) :
    0 < amountUsd ∧ s.userOnHold user = false ∧ ∃ level, kycLevelFor inv s user = .ok level ∧
      saturatingAdd (loadUsage s user inv.timestamp).dailyUsed amountUsd ≤
        (limitConfig (tierForKyc level)).dailyLimit ∧
      saturatingAdd (loadUsage s user inv.timestamp).monthlyUsed amountUsd ≤
        (limitConfig (tierForKyc level)).monthlyLimit ∧
      t.userTxs = Function.update s.userTxs user
        ((loadUsage s user inv.timestamp).retained ++ [⟨inv.timestamp, amountUsd⟩]) := by
  unfold checkAndRecord at h
  split_ifs at h with hamount hhold
  · simp at h
  · simp at h
  · simp only [limitConfigFor, bind_eq_ok, pure_eq_ok] at h
    obtain ⟨config, ⟨level, hlevel, rfl⟩, h⟩ := h
    split_ifs at h with htx hday hmonth
    · simp at h
    · simp at h
    · simp at h
    · simp only [pure_eq_ok, Prod.mk.injEq, and_true] at h
      refine ⟨not_le.mp hamount, Bool.eq_false_iff.mpr hhold, level, hlevel, not_lt.mp hday,
        not_lt.mp hmonth, ?_⟩
      rw [← h]

/-- A refused payment leaves all usage as it is. -/
theorem checkAndRecord_refused {amountUsd : ℤ}
    (h : checkAndRecord inv s user amountUsd = .ok (t, false)) : t.userTxs = s.userTxs := by
  unfold checkAndRecord at h
  split_ifs at h with hamount hhold
  · simp only [pure_eq_ok, Prod.mk.injEq, and_true] at h
    rw [h]
  · simp only [pure_eq_ok, Prod.mk.injEq, and_true] at h
    rw [h]
  · simp only [bind_eq_ok] at h
    obtain ⟨config, -, h⟩ := h
    split_ifs at h with htx hday hmonth
    · simp only [pure_eq_ok, Prod.mk.injEq, and_true] at h
      rw [← h]
    · simp only [pure_eq_ok, Prod.mk.injEq, and_true] at h
      rw [h]
    · simp only [pure_eq_ok, Prod.mk.injEq, and_true] at h
      rw [h]
    · simp at h

/-- The only hold that a payment sets is its user's. -/
theorem checkAndRecord_userOnHold {amountUsd : ℤ} {accepted : Bool}
    (h : checkAndRecord inv s user amountUsd = .ok (t, accepted)) :
    t.userOnHold = s.userOnHold ∨ t.userOnHold = Function.update s.userOnHold user true := by
  unfold checkAndRecord at h
  split_ifs at h with hamount hhold
  · simp only [pure_eq_ok, Prod.mk.injEq] at h
    exact .inl (by rw [h.1])
  · simp only [pure_eq_ok, Prod.mk.injEq] at h
    exact .inl (by rw [h.1])
  · simp only [bind_eq_ok] at h
    obtain ⟨config, -, h⟩ := h
    split_ifs at h with htx hday hmonth
    · simp only [pure_eq_ok, Prod.mk.injEq] at h
      exact .inr (by rw [← h.1])
    · simp only [pure_eq_ok, Prod.mk.injEq] at h
      exact .inl (by rw [h.1])
    · simp only [pure_eq_ok, Prod.mk.injEq] at h
      exact .inl (by rw [h.1])
    · simp only [pure_eq_ok, Prod.mk.injEq] at h
      exact .inl (by rw [← h.1])

/-- The payment of `user` that a call records. -/
def acceptedTx (user : Addr) (s : State Addr) (step : Step Addr self) (_ : State Addr) :
    Option TxRecord :=
  match step.2 with
  | .checkAndRecord a amountUsd =>
      if a = user then
        match checkAndRecord step.1 s a amountUsd with
        | .ok (_, true) => some ⟨step.1.timestamp, amountUsd⟩
        | _ => none
      else none
  | _ => none

theorem acceptedTx_eq_some {step : Step Addr self} {tx : TxRecord}
    (h : acceptedTx user s step t = some tx) : tx.timestamp = step.1.timestamp ∧ 0 < tx.amountUsd := by
  unfold acceptedTx at h
  split at h
  · split_ifs at h with ha
    split at h
    · rename_i amountUsd _ u haccepted
      obtain rfl := Option.some.inj h
      exact ⟨rfl, (checkAndRecord_accepted haccepted).1⟩
    · cases h
  · cases h

/-- A call records a payment of `user` or leaves the usage of `user` as it is. -/
theorem exec_txs {call : Call Addr} (h : exec inv call s = .ok t) (user : Addr) :
    acceptedTx user s (inv, call) t = none ∧ t.userTxs user = s.userTxs user ∨
      ∃ amountUsd, call = .checkAndRecord user amountUsd ∧
        checkAndRecord inv s user amountUsd = .ok (t, true) ∧
        acceptedTx user s (inv, call) t = some ⟨inv.timestamp, amountUsd⟩ := by
  cases call with
  | initializeLimits admin kycRegistry =>
    simp only [exec, initializeLimits, bind_eq_ok, pure_eq_ok] at h
    obtain ⟨-, -, -, -, rfl⟩ := h
    exact .inl ⟨rfl, rfl⟩
  | setKycRegistry kycRegistry =>
    simp only [exec, setKycRegistry, bind_eq_ok, pure_eq_ok] at h
    obtain ⟨-, -, rfl⟩ := h
    exact .inl ⟨rfl, rfl⟩
  | clearHold a =>
    simp only [exec, clearHold, bind_eq_ok, pure_eq_ok] at h
    obtain ⟨-, -, rfl⟩ := h
    exact .inl ⟨rfl, rfl⟩
  | resetDaily =>
    simp only [exec, resetDaily, bind_eq_ok, pure_eq_ok] at h
    obtain ⟨-, -, -, -, rfl⟩ := h
    exact .inl ⟨rfl, rfl⟩
  | checkAndRecord a amountUsd =>
    simp only [exec, map_eq_ok] at h
    obtain ⟨⟨u, accepted⟩, hanswer, rfl⟩ := h
    cases accepted with
    | false =>
      refine .inl ⟨by simp [acceptedTx, hanswer], ?_⟩
      rw [checkAndRecord_refused hanswer]
    | true =>
      by_cases ha : a = user
      · subst ha
        exact .inr ⟨amountUsd, rfl, hanswer, by simp [acceptedTx, hanswer]⟩
      · refine .inl ⟨by simp [acceptedTx, ha], ?_⟩
        obtain ⟨-, -, level, -, -, -, htxs⟩ := checkAndRecord_accepted hanswer
        show u.userTxs user = _
        rw [htxs, Function.update_of_ne (Ne.symm ha)]

end Effects

variable [DecidableEq Addr]

section Holds

/-- The call is a payment of `user` above the limit for a single one. -/
def breaches (user : Addr) (s : State Addr) (step : Step Addr self) : Prop :=
  ∃ amountUsd level, step.2 = .checkAndRecord user amountUsd ∧
    kycLevelFor step.1 s user = .ok level ∧
    (limitConfig (tierForKyc level)).perTxLimit < amountUsd

def clears (user : Addr) (_ : State Addr) (step : Step Addr self) : Prop := step.2 = .clearHold user

theorem perTxLimit_pos (tier : LimitTier) : 0 < (limitConfig tier).perTxLimit := by
  cases tier <;> decide

theorem hold_of_breaches {step : Step Addr self} (h : (machine self).exec step s = .ok t)
    (hbreach : breaches user s step) : t.userOnHold user = true := by
  obtain ⟨inv, call⟩ := step
  obtain ⟨amountUsd, level, hcall, hlevel, hover⟩ := hbreach
  obtain rfl : call = .checkAndRecord user amountUsd := hcall
  have hexec : exec inv (.checkAndRecord user amountUsd) s = .ok t := h
  have hpos := perTxLimit_pos (tierForKyc level)
  simp only [exec, map_eq_ok] at hexec
  obtain ⟨⟨u, accepted⟩, hanswer, rfl⟩ := hexec
  unfold checkAndRecord at hanswer
  rw [if_neg (by omega : ¬ amountUsd ≤ 0)] at hanswer
  split_ifs at hanswer with hhold
  · simp only [pure_eq_ok, Prod.mk.injEq] at hanswer
    obtain ⟨rfl, -⟩ := hanswer
    exact hhold
  · simp only [limitConfigFor, bind_eq_ok, pure_eq_ok] at hanswer
    obtain ⟨config, ⟨found, hfound, rfl⟩, hanswer⟩ := hanswer
    obtain rfl := Except.ok.inj (hlevel.symm.trans hfound)
    rw [if_pos hover] at hanswer
    simp only [pure_eq_ok, Prod.mk.injEq] at hanswer
    obtain ⟨rfl, -⟩ := hanswer
    exact Function.update_self ..

/-- Only `clear_hold` lifts a hold. -/
theorem hold_kept {step : Step Addr self} (h : (machine self).exec step s = .ok t)
    (hkept : ¬ clears user s step) (hhold : s.userOnHold user = true) :
    t.userOnHold user = true := by
  obtain ⟨inv, call⟩ := step
  have hexec : exec inv call s = .ok t := h
  cases call with
  | initializeLimits admin kycRegistry =>
    simp only [exec, initializeLimits, bind_eq_ok, pure_eq_ok] at hexec
    obtain ⟨-, -, -, -, rfl⟩ := hexec
    exact hhold
  | setKycRegistry kycRegistry =>
    simp only [exec, setKycRegistry, bind_eq_ok, pure_eq_ok] at hexec
    obtain ⟨-, -, rfl⟩ := hexec
    exact hhold
  | clearHold a =>
    have ha : user ≠ a := by
      rintro rfl
      exact hkept rfl
    simp only [exec, clearHold, bind_eq_ok, pure_eq_ok] at hexec
    obtain ⟨-, -, rfl⟩ := hexec
    exact (Function.update_of_ne ha ..).trans hhold
  | resetDaily =>
    simp only [exec, resetDaily, bind_eq_ok, pure_eq_ok] at hexec
    obtain ⟨-, -, -, -, rfl⟩ := hexec
    exact hhold
  | checkAndRecord a amountUsd =>
    simp only [exec, map_eq_ok] at hexec
    obtain ⟨⟨u, accepted⟩, hanswer, rfl⟩ := hexec
    obtain hsame | hheld := checkAndRecord_userOnHold hanswer
    · rw [hsame]
      exact hhold
    · rw [hheld]
      by_cases ha : user = a
      · rw [ha, Function.update_self]
      · rw [Function.update_of_ne ha]
        exact hhold

/-- Who is on hold is refused. -/
theorem not_accepted_of_hold {amountUsd : ℤ} (hhold : s.userOnHold user = true) :
    checkAndRecord inv s user amountUsd ≠ .ok (t, true) := by
  intro haccepted
  rw [(checkAndRecord_accepted haccepted).2.1] at hhold
  cases hhold

end Holds

section Runs

/-- The payments of `user` that were accepted, in their order. -/
def accepted (steps : List (Step Addr self)) (user : Addr) : List TxRecord :=
  (machine self).collect (acceptedTx user) (deployed Addr) steps

def ClockForward (steps : List (Step Addr self)) : Prop :=
  (steps.map fun step => step.1.timestamp).Pairwise (· ≤ ·)

/-- Every payment of `user` finds the same tier. -/
def TierFixed (steps : List (Step Addr self)) (user : Addr) (tier : LimitTier) : Prop :=
  ∀ pre inv amountUsd t level,
    (machine self).Executes (deployed Addr) steps pre (inv, .checkAndRecord user amountUsd) t →
      kycLevelFor inv (reached pre) user = .ok level → tierForKyc level = tier

/-- What is kept of a user's payments stands for all of them, and they are within the limits. -/
structure Tracked {home : Addr} (user : Addr) (tier : LimitTier) (steps : List (Step Addr home))
    (s : State Addr) : Prop where
  keeps : Keeps TxRecord.timestamp monthSecs (s.userTxs user) (accepted steps user)
  nonneg : ∀ tx ∈ s.userTxs user, 0 ≤ tx.amountUsd
  daily : (limitConfig tier).dailyLimit < unlimited → Bounded TxRecord.timestamp TxRecord.amountUsd
    daySecs (limitConfig tier).dailyLimit (accepted steps user)
  monthly : (limitConfig tier).monthlyLimit < unlimited →
    Bounded TxRecord.timestamp TxRecord.amountUsd monthSecs (limitConfig tier).monthlyLimit
      (accepted steps user)

variable {steps : List (Step Addr self)} {tier : LimitTier}

theorem accepted_nonneg : ∀ tx ∈ accepted steps user, 0 ≤ tx.amountUsd := by
  intro tx htx
  obtain ⟨pre, step, t, -, haccepted⟩ := Machine.exists_of_mem_collect htx
  exact (acceptedTx_eq_some haccepted).2.le

theorem accepted_timestamp_le {step : Step Addr self} (hclock : ClockForward (steps ++ [step])) :
    ∀ tx ∈ accepted steps user, tx.timestamp ≤ step.1.timestamp := by
  intro tx htx
  obtain ⟨pre, earlier, t, hx, haccepted⟩ := Machine.exists_of_mem_collect htx
  unfold ClockForward at hclock
  rw [List.map_append, List.pairwise_append] at hclock
  rw [(acceptedTx_eq_some haccepted).1]
  exact hclock.2.2 _ (List.mem_map_of_mem hx.mem) _ (by simp)

/-- An accepted payment finds room in both windows. -/
theorem Tracked.accept {tx : TxRecord} {level : KycLevel}
    (h : Tracked user (tierForKyc level) steps s)
    (hlater : ∀ x ∈ accepted steps user, x.timestamp ≤ tx.timestamp)
    {steps' : List (Step Addr self)}
    (haccepted : accepted steps' user = accepted steps user ++ [tx])
    (hpos : 0 < tx.amountUsd)
    (hday : saturatingAdd (loadUsage s user tx.timestamp).dailyUsed tx.amountUsd ≤
      (limitConfig (tierForKyc level)).dailyLimit)
    (hmonth : saturatingAdd (loadUsage s user tx.timestamp).monthlyUsed tx.amountUsd ≤
      (limitConfig (tierForKyc level)).monthlyLimit)
    (htxs : t.userTxs = Function.update s.userTxs user
      ((loadUsage s user tx.timestamp).retained ++ [tx])) :
    Tracked user (tierForKyc level) steps' t := by
  have husage := loadUsage_eq h.nonneg tx.timestamp
  have hnarrow : Keeps TxRecord.timestamp daySecs (s.userTxs user) (accepted steps user) :=
    h.keeps.narrow (by decide)
  have hrecent : ∀ width, 0 ≤ total TxRecord.amountUsd
      (recent TxRecord.timestamp width tx.timestamp (s.userTxs user)) :=
    fun width => total_nonneg fun x hx => h.nonneg x (List.mem_of_mem_filter hx)
  have hstored : t.userTxs user =
      recent TxRecord.timestamp monthSecs tx.timestamp (s.userTxs user) ++
        [tx] := by
    rw [htxs, Function.update_self, husage]
  rw [husage] at hday hmonth
  constructor
  · rw [hstored, haccepted]
    exact h.keeps.record
  · intro x hx
    rw [hstored] at hx
    obtain hold | hnew := List.mem_append.mp hx
    · exact h.nonneg x (List.mem_of_mem_filter hold)
    · rw [List.mem_singleton.mp hnew]
      exact hpos.le
  · intro hlimit
    have hroom := le_of_saturated (hrecent daySecs) hpos.le hlimit hday
    rw [hnarrow _ hlater] at hroom
    rw [haccepted]
    exact (h.daily hlimit).record accepted_nonneg hroom
  · intro hlimit
    have hroom := le_of_saturated (hrecent monthSecs) hpos.le hlimit hmonth
    rw [h.keeps _ hlater] at hroom
    rw [haccepted]
    exact (h.monthly hlimit).record accepted_nonneg hroom

omit [DecidableEq Addr] in
theorem Tracked.congr [DecidableEq Addr] {steps' : List (Step Addr self)}
    (h : Tracked user tier steps s) (haccepted : accepted steps' user = accepted steps user)
    (htxs : t.userTxs user = s.userTxs user) : Tracked user tier steps' t := by
  constructor
  · rw [haccepted, htxs]
    exact h.keeps
  · rw [htxs]
    exact h.nonneg
  · rw [haccepted]
    exact h.daily
  · rw [haccepted]
    exact h.monthly

theorem run_tracked (hclock : ClockForward steps) (htier : TierFixed steps user tier) :
    ∀ pre, pre <+: steps → Tracked user tier pre (reached pre) := by
  apply Machine.run_history_of_executes (M := machine self)
    (P := fun pre s => Tracked user tier pre s)
  · refine ⟨keeps_nil, ?_, ?_, ?_⟩
    · intro tx htx
      cases htx
    · intro _
      exact bounded_nil (by cases tier <;> decide)
    · intro _
      exact bounded_nil (by cases tier <;> decide)
  · rintro pre ⟨inv, call⟩ t hx hpre
    have hcollect : accepted (pre ++ [(inv, call)]) user =
        accepted pre user ++ (acceptedTx user (reached pre) (inv, call) t).toList :=
      Machine.collect_snoc_ok hx.exec_eq
    obtain ⟨hnone, hsame⟩ | ⟨amountUsd, rfl, hanswer, hsome⟩ := exec_txs hx.exec_eq user
    · refine hpre.congr ?_ hsame
      rw [hcollect, hnone]
      simp
    · obtain ⟨hpos, -, level, hlevel, hday, hmonth, htxs⟩ := checkAndRecord_accepted hanswer
      obtain rfl := htier pre inv amountUsd t level hx hlevel
      have hprefix : ClockForward (pre ++ [(inv, .checkAndRecord user amountUsd)]) :=
        hclock.sublist (hx.snoc_prefix.sublist.map _)
      have haccepted : accepted (pre ++ [(inv, .checkAndRecord user amountUsd)]) user =
          accepted pre user ++ [⟨inv.timestamp, amountUsd⟩] := by
        rw [hcollect, hsome]
        rfl
      exact hpre.accept (accepted_timestamp_le hprefix) haccepted hpos hday hmonth htxs
  · intro pre step e hpre herror
    exact hpre.congr (Machine.collect_snoc_error herror) rfl

/-- What the limits of a tier promise for a user: they hold in every interval of a day and of a
month, unless the tier is unlimited; a refusal leaves the usage; and after a payment above the limit
for a single one the user waits for `clear_hold`. -/
structure VelocityLaw {home : Addr} (steps : List (Step Addr home)) (user : Addr)
    (tier : LimitTier) : Prop where
  daily : (limitConfig tier).dailyLimit < unlimited → ∀ start,
    total TxRecord.amountUsd (within TxRecord.timestamp daySecs start (accepted steps user)) ≤
      (limitConfig tier).dailyLimit
  monthly : (limitConfig tier).monthlyLimit < unlimited → ∀ start,
    total TxRecord.amountUsd (within TxRecord.timestamp monthSecs start (accepted steps user)) ≤
      (limitConfig tier).monthlyLimit
  refused : ∀ (inv : Invocation Addr home) amountUsd t,
    checkAndRecord inv (reached steps) user amountUsd = .ok (t, false) →
      t.userTxs = (reached steps).userTxs
  held : (machine home).SwitchedOnIn (breaches user) (clears user) (deployed Addr) steps →
    ∀ (inv : Invocation Addr home) amountUsd t,
      checkAndRecord inv (reached steps) user amountUsd ≠ .ok (t, true)

theorem velocityLaw_of_clockForward (hclock : ClockForward steps)
    (htier : TierFixed steps user tier) : VelocityLaw steps user tier := by
  have htracked := run_tracked hclock htier steps List.prefix_rfl
  constructor
  · exact htracked.daily
  · exact htracked.monthly
  · intro inv amountUsd t hrefused
    exact checkAndRecord_refused hrefused
  · intro hswitched inv amountUsd t
    refine not_accepted_of_hold ?_
    exact Machine.of_switchedOnIn (M := machine self) (P := fun s => s.userOnHold user = true)
      (fun step s t hx => hold_of_breaches hx) (fun step s t hx => hold_kept hx) hswitched

end Runs

section Example

/-- An invocation at time `now` that every account signed, where users are known at this level. -/
def knownAs (level : KycLevel) (now : ℕ) : Invocation ℕ 0 where
  toEnv := signedByAll now
  getKycLevel _ _ := some level

theorem tierFixed_knownAs {level : KycLevel} {tier : LimitTier} {steps : List (Step ℕ 0)}
    (htier : tierForKyc level = tier) (h : ∀ step ∈ steps, ∃ now, step.1 = knownAs level now)
    (user : ℕ) : TierFixed steps user tier := by
  intro pre inv amountUsd t found hx hfound
  obtain ⟨now, hnow⟩ := h _ hx.mem
  obtain rfl : inv = knownAs level now := hnow
  simp only [kycLevelFor, knownAs, bind_eq_ok, expect_eq_ok] at hfound
  obtain ⟨registry, -, hlevel⟩ := hfound
  rw [← Option.some.inj hlevel]
  exact htier

/-- User 5 moves twice 500 in a day, is refused more, and tries to move 501 at once. -/
def basicRun : List (Step ℕ 0) :=
  [(knownAs .basic 0, .initializeLimits 1 2), (knownAs .basic 1000, .checkAndRecord 5 500),
    (knownAs .basic 1000, .checkAndRecord 5 500), (knownAs .basic 87400, .checkAndRecord 5 1),
    (knownAs .basic 90000, .checkAndRecord 5 501)]

/-- The last attempt is above the limit for one payment, so that nothing is accepted after it. -/
theorem velocityLaw_basicRun : VelocityLaw basicRun 5 .basic ∧
    accepted basicRun 5 = [⟨1000, 500⟩, ⟨1000, 500⟩] ∧
    ∀ (inv : Invocation ℕ 0) amountUsd t,
      checkAndRecord inv (reached basicRun) 5 amountUsd ≠ .ok (t, true) := by
  have htier : tierForKyc .basic = .basic := rfl
  have hlaw : VelocityLaw basicRun 5 .basic := by
    refine velocityLaw_of_clockForward ?_ (tierFixed_knownAs htier ?_ 5)
    · unfold ClockForward
      decide
    · simp [basicRun]
  refine ⟨hlaw, rfl, hlaw.held ?_⟩
  refine ⟨basicRun.take 4, (knownAs .basic 90000, .checkAndRecord 5 501), _, ⟨[], rfl, rfl⟩,
    ⟨501, .basic, rfl, rfl, by decide⟩, ?_⟩
  intro later step t hx hlater
  have hlt : later.length < 5 := hx.length_lt
  have hfour : 4 < later.length := hlater
  omega

/-- User 5 is known as an institution and moves more than an `i128` can count. -/
def institutionalRun : List (Step ℕ 0) :=
  [(knownAs .institutional 0, .initializeLimits 1 2),
    (knownAs .institutional 1000, .checkAndRecord 5 unlimited),
    (knownAs .institutional 1000, .checkAndRecord 5 unlimited)]

theorem institutional_unlimited : ClockForward institutionalRun ∧
    TierFixed institutionalRun 5 .institutional ∧
    ¬ total TxRecord.amountUsd
        (within TxRecord.timestamp daySecs 1000 (accepted institutionalRun 5)) ≤
      (limitConfig .institutional).dailyLimit := by
  have htier : tierForKyc .institutional = .institutional := rfl
  refine ⟨?_, ?_, ?_⟩
  · unfold ClockForward
    decide
  · refine tierFixed_knownAs htier ?_ 5
    simp [institutionalRun]
  · have haccepted : accepted institutionalRun 5 = [⟨1000, unlimited⟩, ⟨1000, unlimited⟩] := rfl
    rw [haccepted]
    decide

end Example

end VelocityLimits
