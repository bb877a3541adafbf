import MentorsMind.Lib.TopBoard
import MentorsMind.Referral.Effects

/-! The leaderboard of an epoch shows the ten referrers with the most referrals of the epoch, and its
bonus is paid once. -/
namespace Referral
open Outcome Soroban Shared TopBoard

section Sorting

variable {Addr : Type} {x carried : Addr × ℕ} {xs ys board : List (Addr × ℕ)}

theorem bubble_perm (carried : Addr × ℕ) (xs : List (Addr × ℕ)) :
    (bubble carried xs).Perm (carried :: xs) := by
  induction xs generalizing carried with
  | nil => exact List.Perm.refl _
  | cons entry rest ih =>
    unfold bubble
    split_ifs
    · exact ((ih carried).cons entry).trans (List.Perm.swap carried entry rest)
    · exact (ih entry).cons carried

theorem bubblePass_perm (board : List (Addr × ℕ)) : (bubblePass board).Perm board := by
  cases board with
  | nil => exact List.Perm.refl _
  | cons entry rest => exact bubble_perm entry rest

/-- What is carried to the end is the least. -/
theorem bubble_eq_snoc (carried : Addr × ℕ) (xs : List (Addr × ℕ)) :
    ∃ front least, bubble carried xs = front ++ [least] ∧ ∀ x ∈ front, least.2 ≤ x.2 := by
  induction xs generalizing carried with
  | nil => exact ⟨[], carried, rfl, by simp⟩
  | cons entry rest ih =>
    unfold bubble
    split_ifs with hlt
    · obtain ⟨front, least, heq, hleast⟩ := ih carried
      refine ⟨entry :: front, least, by rw [heq]; rfl, ?_⟩
      have hcarried : least.2 ≤ carried.2 := by
        have hin : carried ∈ front ++ [least] :=
          heq ▸ (bubble_perm carried rest).mem_iff.mpr List.mem_cons_self
        obtain hfront | hlast := List.mem_append.mp hin
        · exact hleast carried hfront
        · rw [List.mem_singleton.mp hlast]
      intro x hx
      obtain rfl | hx := List.mem_cons.mp hx
      · exact hcarried.trans hlt.le
      · exact hleast x hx
    · obtain ⟨front, least, heq, hleast⟩ := ih entry
      refine ⟨carried :: front, least, by rw [heq]; rfl, ?_⟩
      have hentry : least.2 ≤ entry.2 := by
        have hin : entry ∈ front ++ [least] :=
          heq ▸ (bubble_perm entry rest).mem_iff.mpr List.mem_cons_self
        obtain hfront | hlast := List.mem_append.mp hin
        · exact hleast entry hfront
        · rw [List.mem_singleton.mp hlast]
      intro x hx
      obtain rfl | hx := List.mem_cons.mp hx
      · exact hentry.trans (not_lt.mp hlt)
      · exact hleast x hx

/-- A pass leaves a sorted tail of the least entries alone. -/
theorem bubble_append (hsorted : Sorted ys) (hle : ∀ x ∈ carried :: xs, ∀ y ∈ ys, y.2 ≤ x.2) :
    bubble carried (xs ++ ys) = bubble carried xs ++ ys := by
  induction xs generalizing carried with
  | nil =>
    rw [List.nil_append]
    induction ys generalizing carried with
    | nil => rfl
    | cons y ys ih =>
      obtain ⟨hfirst, hrest⟩ := List.pairwise_cons.mp hsorted
      have hstays : ¬ carried.2 < y.2 := not_lt.mpr (hle carried List.mem_cons_self y List.mem_cons_self)
      show bubble carried (y :: ys) = carried :: y :: ys
      rw [bubble, if_neg hstays, ih hrest]
      · rfl
      · intro x hx z hz
        rw [List.mem_singleton.mp hx]
        exact hfirst z hz
  | cons entry rest ih =>
    have hentry : ∀ y ∈ ys, y.2 ≤ entry.2 := hle entry (by simp)
    have hcarried : ∀ y ∈ ys, y.2 ≤ carried.2 := hle carried List.mem_cons_self
    have hrest : ∀ x ∈ rest, ∀ y ∈ ys, y.2 ≤ x.2 := fun x hx => hle x (by simp [hx])
    rw [List.cons_append, bubble, bubble]
    split_ifs
    · rw [ih (List.forall_mem_cons.mpr ⟨hcarried, hrest⟩), List.cons_append]
    · rw [ih (List.forall_mem_cons.mpr ⟨hentry, hrest⟩), List.cons_append]

/-- After so many passes the so many least entries stand in order at the end. -/
structure Settled (n : ℕ) (board : List (Addr × ℕ)) : Prop where
  exists_tail : ∃ front tail, board = front ++ tail ∧ front.length = board.length - n ∧
    Sorted tail ∧ ∀ x ∈ front, ∀ y ∈ tail, y.2 ≤ x.2

theorem Settled.pass {n : ℕ} (h : Settled n board) : Settled (n + 1) (bubblePass board) := by
  obtain ⟨front, tail, rfl, hlength, hsorted, hle⟩ := h
  have hsame : (bubblePass (front ++ tail)).length = (front ++ tail).length :=
    (bubblePass_perm _).length_eq
  cases front with
  | nil =>
    have hpass : bubblePass tail = tail := by
      cases tail with
      | nil => rfl
      | cons y ys =>
        obtain ⟨hfirst, hrest⟩ := List.pairwise_cons.mp hsorted
        have htail : bubble y ([] ++ ys) = bubble y [] ++ ys :=
          bubble_append hrest fun x hx z hz => by rw [List.mem_singleton.mp hx]; exact hfirst z hz
        exact htail
    rw [List.nil_append] at hlength ⊢
    rw [hpass]
    refine ⟨[], tail, rfl, ?_, hsorted, by simp⟩
    rw [List.length_nil] at hlength ⊢
    omega
  | cons entry rest =>
    obtain ⟨front, least, heq, hleast⟩ := bubble_eq_snoc entry rest
    have hpass : bubblePass (entry :: rest ++ tail) = front ++ least :: tail := by
      rw [List.cons_append, bubblePass, bubble_append hsorted hle, heq, List.append_assoc]
      rfl
    have hmem : ∀ x ∈ front ++ [least], ∀ y ∈ tail, y.2 ≤ x.2 := by
      intro x hx
      rw [← heq] at hx
      exact hle x ((bubble_perm entry rest).mem_iff.mp hx)
    rw [hpass] at hsame ⊢
    refine ⟨front, least :: tail, rfl, ?_, ?_, ?_⟩
    · simp only [List.length_append, List.length_cons] at hlength hsame ⊢
      omega
    · exact List.pairwise_cons.mpr ⟨hmem least (by simp), hsorted⟩
    · intro x hx y hy
      obtain rfl | hy := List.mem_cons.mp hy
      · exact hleast x hx
      · exact hmem x (by simp [hx]) y hy

theorem sortLeaderboard_perm (board : List (Addr × ℕ)) : (sortLeaderboard board).Perm board := by
  have hall : ∀ n, (bubblePass^[n] board).Perm board := by
    intro n
    induction n with
    | zero => exact List.Perm.refl _
    | succ n ih =>
      rw [Function.iterate_succ_apply']
      exact (bubblePass_perm _).trans ih
  exact hall board.length

theorem sortLeaderboard_sorted (board : List (Addr × ℕ)) : Sorted (sortLeaderboard board) := by
  have hall : ∀ n, Settled n (bubblePass^[n] board) := by
    intro n
    induction n with
    | zero => exact ⟨board, [], by simp, rfl, List.Pairwise.nil, by simp⟩
    | succ n ih =>
      rw [Function.iterate_succ_apply']
      exact ih.pass
  obtain ⟨front, tail, heq, hlength, hsorted, -⟩ := hall board.length
  have hperm : (bubblePass^[board.length] board).Perm board := sortLeaderboard_perm board
  have hempty : front = [] := by
    rw [hperm.length_eq, Nat.sub_self] at hlength
    exact List.length_eq_zero_iff.mp hlength
  rw [hempty, List.nil_append] at heq
  show Sorted (bubblePass^[board.length] board)
  rw [heq]
  exact hsorted

end Sorting

variable {Addr : Type} [DecidableEq Addr] {self : Addr} {inv : Invocation Addr self}
  {s t : State Addr}

section Placing

variable {count : Addr → ℕ} {board : List (Addr × ℕ)} {referrer : Addr}

/-- Where every name stands once, its entry is the one that is rewritten. -/
theorem setCount_eq_map (newCount : ℕ) (hdistinct : (board.map Prod.fst).Nodup) :
    setCount referrer newCount board =
      board.map fun entry => if entry.1 = referrer then (referrer, newCount) else entry := by
  induction board with
  | nil => rfl
  | cons entry rest ih =>
    obtain ⟨hout, hrest⟩ := List.nodup_cons.mp hdistinct
    rw [setCount, List.map_cons]
    split_ifs with heq
    · have hothers : ∀ other ∈ rest, (if other.1 = referrer then (referrer, newCount) else other) =
          other := by
        intro other hother
        rw [if_neg]
        intro hsame
        apply hout
        rw [heq, ← hsame]
        exact List.mem_map_of_mem hother
      rw [List.map_congr_left hothers, List.map_id']
    · rw [ih hrest]

/-- The board shows one more referral. -/
theorem placeReferrer_shows (h : Shows leaderboardMaxSize count board) (hsorted : Sorted board) :
    Shows leaderboardMaxSize (raise count referrer)
      (placeReferrer board referrer (count referrer + 1)) := by
  have hlisted : board.any (fun entry => entry.1 = referrer) = true ↔
      referrer ∈ board.map Prod.fst := by simp
  unfold placeReferrer
  split_ifs with hin hfree hbeats
  · rw [setCount_eq_map _ h.distinct]
    exact h.raise_listed (hlisted.mp hin)
  · exact h.raise_free (fun hname => hin (hlisted.mpr hname)) hfree
  · have hout : referrer ∉ board.map Prod.fst := fun hname => hin (hlisted.mpr hname)
    obtain ⟨last, hlast, hlt⟩ := hbeats
    obtain ⟨rest, rfl⟩ := List.getLast?_eq_some_iff.mp hlast
    rw [List.dropLast_concat]
    exact h.raise_displacing hsorted hout (le_antisymm h.length_le (not_lt.mp hfree)) hlt
  · have hout : referrer ∉ board.map Prod.fst := fun hname => hin (hlisted.mpr hname)
    have hfull : board.length = leaderboardMaxSize := le_antisymm h.length_le (not_lt.mp hfree)
    obtain rfl | ⟨rest, last, rfl⟩ := List.eq_nil_or_concat' board
    · cases hfull
    · refine h.raise_outside hsorted hout hfull (not_lt.mp ?_)
      intro hlt
      exact hbeats ⟨last, by simp, hlt⟩

end Placing

section Steps

/-- What a successful call does to the epochs. -/
inductive EpochEffect (inv : Invocation Addr self) (s t : State Addr) : Call Addr → Prop where
  | kept {call : Call Addr} (count : t.epochReferralCount = s.epochReferralCount)
      (top : t.epochTopReferrers = s.epochTopReferrers)
      (bonus : t.epochBonusDistributed = s.epochBonusDistributed)
      (unregistered : ∀ referrer referee isMentor,
        call ≠ .registerReferral referrer referee isMentor)
      (undistributed : call ≠ .distributeEpochBonus) : EpochEffect inv s t call
  | registered {referrer referee : Addr} {isMentor : Bool} {epoch : ℕ}
      (now : currentEpoch inv.timestamp = epoch)
      (count : t.epochReferralCount = Function.update s.epochReferralCount (epoch, referrer)
        (s.epochReferralCount (epoch, referrer) + 1))
      (top : t.epochTopReferrers = Function.update s.epochTopReferrers epoch
        (sortLeaderboard (placeReferrer (s.epochTopReferrers epoch) referrer
          (s.epochReferralCount (epoch, referrer) + 1))))
      (bonus : t.epochBonusDistributed = s.epochBonusDistributed) :
      EpochEffect inv s t (.registerReferral referrer referee isMentor)
  | distributed {epoch : ℕ} (now : currentEpoch inv.timestamp = epoch + 1)
      (unpaid : s.epochBonusDistributed epoch = false)
      (count : t.epochReferralCount = s.epochReferralCount)
      (top : t.epochTopReferrers = s.epochTopReferrers)
      (bonus : t.epochBonusDistributed = Function.update s.epochBonusDistributed epoch true) :
      EpochEffect inv s t .distributeEpochBonus

theorem exec_epochEffect {call : Call Addr} (h : exec inv call s = .ok t) :
    EpochEffect inv s t call := by
  cases call with
  | registerReferral referrer referee isMentor =>
    simp only [exec, registerReferral, recordEpochReferral, bind_eq_ok, require_eq_ok, u32_eq_ok,
      pure_eq_ok] at h
    obtain ⟨-, -, -, -, -, -, count, ⟨-, rfl⟩, newCount, ⟨-, rfl⟩, rfl⟩ := h
    exact .registered rfl rfl rfl rfl
  | distributeEpochBonus =>
    simp only [exec, distributeEpochBonus, bind_eq_ok, require_eq_ok, expect_eq_ok, pure_eq_ok] at h
    obtain ⟨-, -, -, hepoch, -, hunpaid, mntToken, -, paid, hpaid, rfl⟩ := h
    rw [mintBonuses_eq_ok hpaid]
    exact .distributed (Nat.sub_add_cancel hepoch).symm hunpaid rfl rfl rfl
  | fulfillReferral referee =>
    simp only [exec, fulfillReferral, bind_eq_ok, require_eq_ok, expect_eq_ok, i128_eq_ok,
      pure_eq_ok] at h
    obtain ⟨-, -, info, -, -, -, pending, -, leaderboard, -, -, -, rfl⟩ := h
    exact .kept rfl rfl rfl (by simp) (by simp)
  | setPauseGuardian guardian =>
    simp only [exec, setPauseGuardian, bind_eq_ok, pure_eq_ok] at h
    obtain ⟨-, -, rfl⟩ := h
    exact .kept rfl rfl rfl (by simp) (by simp)
  | initializeReferral admin mntToken leaderboard =>
    simp only [exec, initializeReferral, bind_eq_ok, require_eq_ok, pure_eq_ok] at h
    obtain ⟨-, -, rfl⟩ := h
    exact .kept rfl rfl rfl (by simp) (by simp)
  | proposeAdminChange admin newAdmin =>
    simp only [exec, proposeAdminChange, bind_eq_ok, pure_eq_ok] at h
    obtain ⟨-, -, -, -, rfl⟩ := h
    exact .kept rfl rfl rfl (by simp) (by simp)
  | acceptAdminChange newAdmin =>
    simp only [exec, acceptAdminChange, bind_eq_ok, pure_eq_ok] at h
    obtain ⟨-, -, -, -, -, -, -, -, rfl⟩ := h
    exact .kept rfl rfl rfl (by simp) (by simp)
  | cancelAdminChange multisig =>
    simp only [exec, cancelAdminChange, bind_eq_ok, pure_eq_ok] at h
    obtain ⟨-, -, -, -, rfl⟩ := h
    exact .kept rfl rfl rfl (by simp) (by simp)
  | setConfig config =>
    simp only [exec, setConfig, bind_eq_ok, pure_eq_ok] at h
    obtain ⟨-, -, -, -, -, -, -, -, rfl⟩ := h
    exact .kept rfl rfl rfl (by simp) (by simp)
  | claimReward referrer =>
    simp only [exec, claimReward, bind_eq_ok] at h
    obtain ⟨-, -, -, -, -, -, h⟩ := h
    split_ifs at h with hsuspicious
    · simp only [bind_eq_ok, pure_eq_ok] at h
      obtain ⟨deferred, -, rfl⟩ := h
      exact .kept rfl rfl rfl (by simp) (by simp)
    · simp only [bind_eq_ok] at h
      obtain ⟨config, -, total, -, mntToken, -, leaderboard, -, raw, -, scaled, -, -, -, -, -, h⟩ := h
      split_ifs at h with hdeferred
      · obtain rfl := pure_eq_ok.mp h
        exact .kept rfl rfl rfl (by simp) (by simp)
      · simp only [mint, bind_eq_ok, pure_eq_ok] at h
        obtain ⟨paid, ⟨-, -, rfl⟩, -, -, lifetime, -, globalMinted, -, rfl⟩ := h
        exact .kept rfl rfl rfl (by simp) (by simp)
  | distributeFromFee referrer platformFee rewardBps =>
    simp only [exec, distributeFromFee, bind_eq_ok] at h
    obtain ⟨-, -, h⟩ := h
    split_ifs at h with hnothing
    · obtain rfl := pure_eq_ok.mp h
      exact .kept rfl rfl rfl (by simp) (by simp)
    · simp only [bind_eq_ok] at h
      obtain ⟨scaled, -, h⟩ := h
      split_ifs at h with hzero
      · obtain rfl := pure_eq_ok.mp h
        exact .kept rfl rfl rfl (by simp) (by simp)
      · simp only [bind_eq_ok, pure_eq_ok] at h
        obtain ⟨pending, -, rfl⟩ := h
        exact .kept rfl rfl rfl (by simp) (by simp)

end Steps

section Runs

/-- One if the call registers a referral of `referrer` in the epoch. -/
def registers (epoch : ℕ) (referrer : Addr) (_ : State Addr) (step : Step Addr self)
    (_ : State Addr) : ℤ :=
  match step.2 with
  | .registerReferral a _ _ =>
      if a = referrer ∧ currentEpoch step.1.timestamp = epoch then 1 else 0
  | _ => 0

/-- One if the call pays the bonus of the epoch. -/
def paysBonus (epoch : ℕ) (_ : State Addr) (step : Step Addr self) (_ : State Addr) : ℤ :=
  match step.2 with
  | .distributeEpochBonus => if currentEpoch step.1.timestamp = epoch + 1 then 1 else 0
  | _ => 0

/-- The referrals of `referrer` that the run registered in the epoch. -/
def referralCount (steps : List (Step Addr self)) (epoch : ℕ) (referrer : Addr) : ℤ :=
  (machine self).tally (registers epoch referrer) deployed steps

def bonusCount (steps : List (Step Addr self)) (epoch : ℕ) : ℤ :=
  (machine self).tally (paysBonus epoch) deployed steps

/-- What is stored for an epoch against what the run did in it. -/
structure EpochKept {home : Addr} (epoch : ℕ) (steps : List (Step Addr home)) (s : State Addr) :
    Prop where
  counted : ∀ referrer,
    (s.epochReferralCount (epoch, referrer) : ℤ) = referralCount steps epoch referrer
  shows : Shows leaderboardMaxSize (fun referrer => s.epochReferralCount (epoch, referrer))
    (s.epochTopReferrers epoch)
  sorted : Sorted (s.epochTopReferrers epoch)
  paid : bonusCount steps epoch = if s.epochBonusDistributed epoch then 1 else 0

variable {epoch : ℕ} {steps : List (Step Addr self)}

theorem registers_eq_zero {inv : Invocation Addr self} {call : Call Addr}
    (h : ∀ a referee isMentor, call ≠ .registerReferral a referee isMentor) (referrer : Addr) :
    registers epoch referrer s (inv, call) t = 0 := by
  unfold registers
  split
  · rename_i a referee isMentor hcall
    exact absurd hcall (h a referee isMentor)
  · rfl

omit [DecidableEq Addr] in
theorem paysBonus_eq_zero {inv : Invocation Addr self} {call : Call Addr}
    (h : call ≠ .distributeEpochBonus) : paysBonus epoch s (inv, call) t = 0 := by
  unfold paysBonus
  split
  · rename_i hcall
    exact absurd hcall h
  · rfl

/-- One epoch's counts after one of them has grown. -/
theorem raise_epochCount (count : ℕ × Addr → ℕ) (referrer : Addr) :
    (fun a => Function.update count (epoch, referrer) (count (epoch, referrer) + 1) (epoch, a)) =
      raise (fun a => count (epoch, a)) referrer := by
  funext a
  by_cases ha : a = referrer
  · rw [ha, Function.update_self, raise_self]
  · rw [raise_of_ne ha, Function.update_of_ne (by simp [ha])]

/-- A registration in the epoch raises one count and the board with it. -/
theorem EpochKept.register {referrer : Addr} {steps' : List (Step Addr self)}
    (h : EpochKept epoch steps s)
    (hcount : t.epochReferralCount = Function.update s.epochReferralCount (epoch, referrer)
      (s.epochReferralCount (epoch, referrer) + 1))
    (htop : t.epochTopReferrers epoch = sortLeaderboard (placeReferrer (s.epochTopReferrers epoch)
      referrer (s.epochReferralCount (epoch, referrer) + 1)))
    (hbonus : t.epochBonusDistributed = s.epochBonusDistributed)
    (hreferrals : ∀ a, referralCount steps' epoch a =
      referralCount steps epoch a + if referrer = a then 1 else 0)
    (hpaid : bonusCount steps' epoch = bonusCount steps epoch) : EpochKept epoch steps' t := by
  constructor
  · intro a
    rw [hreferrals, ← h.counted a, hcount]
    by_cases ha : referrer = a
    · rw [← ha, Function.update_self, if_pos rfl]
      push_cast
      rfl
    · rw [Function.update_of_ne (by simp [Ne.symm ha]), if_neg ha, add_zero]
  · rw [hcount, raise_epochCount, htop]
    exact (placeReferrer_shows h.shows h.sorted).perm (sortLeaderboard_perm _)
  · rw [htop]
    exact sortLeaderboard_sorted _
  · rw [hpaid, hbonus]
    exact h.paid

theorem EpochKept.congr {steps' : List (Step Addr self)} (h : EpochKept epoch steps s)
    (hcount : ∀ a, t.epochReferralCount (epoch, a) = s.epochReferralCount (epoch, a))
    (htop : t.epochTopReferrers epoch = s.epochTopReferrers epoch)
    (hreferrals : ∀ a, referralCount steps' epoch a = referralCount steps epoch a)
    (hpaid : bonusCount steps' epoch = if t.epochBonusDistributed epoch then 1 else 0) :
    EpochKept epoch steps' t := by
  constructor
  · intro a
    rw [hreferrals, hcount]
    exact h.counted a
  · simp only [hcount, htop]
    exact h.shows
  · rw [htop]
    exact h.sorted
  · exact hpaid

theorem EpochKept.step {step : Step Addr self} (h : EpochKept epoch steps (reached steps))
    (hx : (machine self).exec step (reached steps) = .ok t) :
    EpochKept epoch (steps ++ [step]) t := by
  obtain ⟨inv, call⟩ := step
  have hexec : exec inv call (reached steps) = .ok t := hx
  have hreferrals : ∀ a, referralCount (steps ++ [(inv, call)]) epoch a =
      referralCount steps epoch a + registers epoch a (reached steps) (inv, call) t :=
    fun a => Machine.tally_snoc_ok hx
  have hbonuses : bonusCount (steps ++ [(inv, call)]) epoch =
      bonusCount steps epoch + paysBonus epoch (reached steps) (inv, call) t :=
    Machine.tally_snoc_ok hx
  cases exec_epochEffect hexec with
  | kept hcount htop hbonus hunregistered hundistributed =>
    refine h.congr (by simp [hcount]) (by rw [htop]) ?_ ?_
    · intro a
      rw [hreferrals, registers_eq_zero hunregistered, add_zero]
    · rw [hbonuses, paysBonus_eq_zero hundistributed, add_zero, hbonus]
      exact h.paid
  | @registered referrer referee isMentor e hnow hcount htop hbonus =>
    have hpaid : bonusCount (steps ++ [(inv, .registerReferral referrer referee isMentor)]) epoch =
        bonusCount steps epoch := by
      rw [hbonuses, paysBonus_eq_zero (by simp), add_zero]
    by_cases he : e = epoch
    · subst he
      refine h.register hcount (by rw [htop, Function.update_self]) hbonus ?_ hpaid
      intro a
      rw [hreferrals]
      simp [registers, hnow]
    · refine h.congr ?_ (by rw [htop, Function.update_of_ne (Ne.symm he)]) ?_ ?_
      · intro a
        rw [hcount, Function.update_of_ne (by simp [Ne.symm he])]
      · intro a
        rw [hreferrals]
        simp [registers, hnow, he]
      · rw [hpaid, hbonus]
        exact h.paid
  | @distributed e hnow hunpaid hcount htop hbonus =>
    refine h.congr (by simp [hcount]) (by rw [htop]) ?_ ?_
    · intro a
      rw [hreferrals, registers_eq_zero (by simp), add_zero]
    · rw [hbonuses, h.paid, hbonus]
      by_cases he : e = epoch
      · subst he
        simp [paysBonus, hnow, hunpaid]
      · simp [paysBonus, hnow, he, Ne.symm he]

theorem reached_epochKept (steps : List (Step Addr self)) (epoch : ℕ) :
    EpochKept epoch steps (reached steps) := by
  refine Machine.run_history (M := machine self) (P := fun steps s => EpochKept epoch steps s)
    ?_ ?_ ?_ steps
  · exact ⟨fun _ => rfl, shows_nil fun _ => rfl, List.Pairwise.nil, rfl⟩
  · intro pre step t hpre hx
    exact hpre.step hx
  · intro pre step e hpre herror
    refine hpre.congr (fun _ => rfl) rfl ?_ ?_
    · intro a
      exact Machine.tally_snoc_error herror
    · have hsame : bonusCount (pre ++ [step]) epoch = bonusCount pre epoch :=
        Machine.tally_snoc_error herror
      rw [hsame]
      exact hpre.paid

/-- The leaderboard of an epoch after a run: the ten that referred most in it, with their exact
counts, and its bonus is paid once at most. -/
structure TopTen {home : Addr} (steps : List (Step Addr home)) (epoch : ℕ) : Prop where
  distinct : (((reached steps).epochTopReferrers epoch).map Prod.fst).Nodup
  counts : ∀ entry ∈ (reached steps).epochTopReferrers epoch,
    (entry.2 : ℤ) = referralCount steps epoch entry.1
  sorted : ((reached steps).epochTopReferrers epoch).Pairwise fun x y => y.2 ≤ x.2
  bounded : ((reached steps).epochTopReferrers epoch).length ≤ 10
  complete : {a | 0 < referralCount steps epoch a}.encard ≤ 10 → ∀ a,
    0 < referralCount steps epoch a → a ∈ ((reached steps).epochTopReferrers epoch).map Prod.fst
  outside : ∀ a, a ∉ ((reached steps).epochTopReferrers epoch).map Prod.fst →
    ∀ last ∈ ((reached steps).epochTopReferrers epoch).getLast?,
      referralCount steps epoch a ≤ last.2
  once : bonusCount steps epoch ≤ 1

theorem leaderboard_topTen (steps : List (Step Addr self)) (epoch : ℕ) : TopTen steps epoch := by
  have hkept := reached_epochKept steps epoch
  have hpositive : ∀ a, 0 < referralCount steps epoch a ↔
      0 < (reached steps).epochReferralCount (epoch, a) := by
    intro a
    rw [← hkept.counted a]
    exact Int.natCast_pos
  constructor
  · exact hkept.shows.distinct
  · intro entry hentry
    rw [← hkept.counted, hkept.shows.eq_count entry hentry]
  · exact hkept.sorted
  · exact hkept.shows.length_le
  · intro hfew a ha
    simp only [hpositive] at hfew ha
    exact hkept.shows.complete hfew a ha
  · intro a hout last hlast
    rw [← hkept.counted a, Int.ofNat_le]
    have hmem : last ∈ (reached steps).epochTopReferrers epoch := List.mem_of_getLast? hlast
    by_cases ha : 0 < (reached steps).epochReferralCount (epoch, a)
    · exact (hkept.shows.covers a ha hout).2 last hmem
    · omega
  · rw [hkept.paid]
    split_ifs
    · exact le_rfl
    · exact zero_le_one

end Runs

end Referral
