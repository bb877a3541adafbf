import MentorsMind.DelegatedPower.Effects
import MentorsMind.Lib.Forest

/-! What a walk up a chain does to the stored weights, and what setting or removing a
delegation does to them when the weight that is moved is the one below the delegator. -/
namespace DelegatedPower
open Outcome Soroban

variable {Addr : Type} [DecidableEq Addr]
  {s t u : State Addr} {parent : Addr → Option Addr} {start cur e d next : Addr} {delta : ℤ}

open Classical in
/-- The weights below every node of a chain and the cache of its end are raised. -/
structure Raised (parent : Addr → Option Addr) (s t : State Addr) (start e : Addr) (delta : ℤ) :
    Prop where
  subtreeWeight : ∀ x, t.subtreeWeight x =
    s.subtreeWeight x + if Forest.Below parent start x then delta else 0
  delegatedPowerCache : ∀ x, t.delegatedPowerCache x =
    s.delegatedPowerCache x + if x = e then delta else 0

theorem raised_zero (parent : Addr → Option Addr) (s : State Addr) (start e : Addr) :
    Raised parent s s start e 0 := by
  constructor
  · intro x
    rw [ite_self, add_zero]
  · intro x
    rw [ite_self, add_zero]

/-- Of the pointers only the chain matters. -/
theorem Raised.congr {other : Addr → Option Addr} (h : Raised parent s t start e delta)
    (hchain : ∀ x, Forest.Below other start x ↔ Forest.Below parent start x) :
    Raised other s t start e delta := by
  classical
  constructor
  · intro x
    rw [h.subtreeWeight]
    simp only [hchain]
  · exact h.delegatedPowerCache

/-- The walk ends where the chain ends, as long as it may go that far. -/
theorem climbAndAdjust_eq_ok {k n : ℕ} (hgrounded : Forest.Grounded s.delegate)
    (hends : Forest.EndsAfter s.delegate k cur e) (hlt : k < n)
    (h : climbAndAdjust delta n cur s = .ok t) :
    t.delegate = s.delegate ∧ Raised s.delegate s t cur e delta := by
  classical
  induction k generalizing cur s n with
  | zero =>
    obtain ⟨m, rfl⟩ := Nat.exists_eq_add_of_lt hlt
    obtain rfl := Option.some.inj hends.1
    simp only [climbAndAdjust, bind_eq_ok] at h
    obtain ⟨own, hown, h⟩ := h
    have heq := adjustSubtreeWeight_eq_ok hown
    subst heq
    simp only [weighed, hends.2] at h
    have heq := adjustPowerCache_eq_ok h
    subst heq
    have hbelow : ∀ x, Forest.Below s.delegate cur x ↔ x = cur := by
      intro x
      constructor
      · intro hx
        exact hx.eq_of_end hends.2
      · intro hx
        rw [hx]
        exact Forest.Below.refl s.delegate cur
    constructor
    · rfl
    · constructor
      · intro x
        simp only [hbelow, Function.update_apply]
        split_ifs with hx
        · rw [hx]
        · rw [add_zero]
      · intro x
        simp only [Function.update_apply]
        split_ifs with hx
        · rw [hx]
        · rw [add_zero]
  | succ k ih =>
    obtain ⟨m, rfl⟩ := Nat.exists_eq_add_of_lt hlt
    obtain ⟨next, hnext, hrest⟩ := hends.of_succ
    simp only [climbAndAdjust, bind_eq_ok] at h
    obtain ⟨own, hown, h⟩ := h
    have heq := adjustSubtreeWeight_eq_ok hown
    subst heq
    simp only [weighed, hnext] at h
    have hleft : k < k + 1 + m := by omega
    obtain ⟨hsame, hraised⟩ := ih (s := weighed s cur delta) hgrounded hrest hleft h
    constructor
    · exact hsame
    · constructor
      · intro x
        have hx := hraised.subtreeWeight x
        simp only [Function.update_apply] at hx
        by_cases hcur : x = cur
        · subst hcur
          rw [if_pos rfl, if_neg (hgrounded.not_below_of_parent hnext), add_zero] at hx
          rw [hx, if_pos (Forest.Below.refl s.delegate x)]
        · have hbelow : Forest.Below s.delegate cur x ↔ Forest.Below s.delegate next x := by
            rw [Forest.below_iff_of_parent hnext, or_iff_right hcur]
          rw [if_neg hcur] at hx
          simp only [hx, hbelow]
      · exact hraised.delegatedPowerCache

theorem propagateWeightChange_eq_ok {maxDepth : ℕ} (hgrounded : Forest.Grounded s.delegate)
    (hnear : delta ≠ 0 → ∃ k < maxDepth, Forest.EndsAfter s.delegate k start e)
    (h : propagateWeightChange s start delta maxDepth = .ok t) :
    t.delegate = s.delegate ∧ Raised s.delegate s t start e delta := by
  unfold propagateWeightChange at h
  by_cases hzero : delta = 0
  · rw [if_pos hzero, pure_eq_ok] at h
    rw [hzero, ← h]
    exact ⟨rfl, raised_zero s.delegate s start e⟩
  · rw [if_neg hzero] at h
    obtain ⟨k, hlt, hk⟩ := hnear hzero
    exact climbAndAdjust_eq_ok hgrounded hk hlt h

/-- A chain that was validated ends within the depth and does not lead back. -/
theorem walkChain_eq_ok {n depth : ℕ} {seen : List Addr}
    (h : walkChain s d n seen cur = .ok depth) :
    (∃ k < n, ∃ e, Forest.EndsAfter s.delegate k cur e) ∧ ¬ Forest.Below s.delegate cur d := by
  induction n generalizing seen cur with
  | zero =>
    rw [walkChain] at h
    cases h
  | succ n ih =>
    rw [walkChain] at h
    by_cases hself : cur = d
    · rw [if_pos hself] at h
      cases h
    · rw [if_neg hself] at h
      by_cases hseen : cur ∈ seen
      · rw [if_pos hseen] at h
        cases h
      · rw [if_neg hseen] at h
        cases hcur : s.delegate cur with
        | none =>
          constructor
          · exact ⟨0, n.succ_pos, cur, rfl, hcur⟩
          · intro hbelow
            exact hself (hbelow.eq_of_end hcur).symm
        | some next =>
          simp only [hcur] at h
          obtain ⟨⟨k, hlt, e, hk⟩, hfree⟩ := ih h
          constructor
          · refine ⟨k + 1, Nat.succ_lt_succ hlt, e, ?_, hk.2⟩
            rw [Forest.climb_succ_of_some hcur, hk.1]
          · rw [Forest.below_iff_of_parent hcur]
            intro hbelow
            rcases hbelow with heq | hbelow
            · exact hself heq.symm
            · exact hfree hbelow

theorem requireValidChain_eq_ok {delegate : Addr} {r : Unit}
    (h : requireValidChain s d delegate = .ok r) :
    (∃ k < getMaxDelegationDepth s, ∃ e, Forest.EndsAfter s.delegate k delegate e) ∧
      ¬ Forest.Below s.delegate delegate d := by
  unfold requireValidChain at h
  cases hvalid : validateDelegationChain s d delegate with
  | error failure =>
    rw [hvalid] at h
    cases failure <;> cases h
  | ok depth =>
    unfold validateDelegationChain at hvalid
    by_cases hself : d = delegate
    · rw [if_pos hself] at hvalid
      cases hvalid
    · rw [if_neg hself] at hvalid
      exact walkChain_eq_ok hvalid

section Moves

variable (balance : Addr → ℤ)

/-- From `s` to `t` the stored weights change as the sums do that they stand for when the
pointers change from `before` to `after`. The cache only does where a chain ends all along. -/
structure Moves (s t : State Addr) (before after : Addr → Option Addr) : Prop where
  subtreeWeight : ∀ x, t.subtreeWeight x = s.subtreeWeight x +
    (Forest.followerSum after balance x - Forest.followerSum before balance x)
  ends : ∀ x, before x = none → after x = none →
    t.delegatedPowerCache x = s.delegatedPowerCache x +
      (Forest.followerSum after balance x - Forest.followerSum before balance x)
  others : ∀ x, before x ≠ none ∨ after x ≠ none →
    t.delegatedPowerCache x = s.delegatedPowerCache x

omit [DecidableEq Addr] in
theorem moves_refl (s : State Addr) (parent : Addr → Option Addr) :
    Moves balance s s parent parent := by
  constructor
  · intro x
    rw [sub_self, add_zero]
  · intro x _ _
    rw [sub_self, add_zero]
  · intro x _
    rfl

variable {balance} (hfinite : (Function.support balance).Finite)
include hfinite

/-- Taking from the chain above a delegator what is below it. -/
theorem Raised.unlinks (hgrounded : Forest.Grounded parent) (hd : parent d = some next)
    (hends : Forest.EndsIn parent next e)
    (h : Raised parent s t next e (-Forest.subtreeSum parent balance d)) :
    Moves balance s t parent (Function.update parent d none) := by
  classical
  have hsum := Forest.followerSum_unlink hfinite hgrounded hd
  have hne : e ≠ d := by
    intro heq
    rw [heq] at hends
    exact hgrounded.not_below_of_parent hd hends.1
  constructor
  · intro x
    rw [h.subtreeWeight, hsum]
    split_ifs <;> ring
  · intro x hx _
    rw [h.delegatedPowerCache, hsum]
    simp only [hends.below_iff hx]
    split_ifs <;> ring
  · intro x hx
    have hother : x ≠ e := by
      intro heq
      subst heq
      rcases hx with hx | hx
      · exact hx hends.2
      · rw [Function.update_of_ne hne] at hx
        exact hx hends.2
    rw [h.delegatedPowerCache, if_neg hother, add_zero]

/-- Giving to the chain above a new delegator what is below it. -/
theorem Raised.links (hd : parent d = none) (hfree : ¬ Forest.Below parent next d)
    (hends : Forest.EndsIn parent next e)
    (h : Raised parent s t next e (Forest.subtreeSum parent balance d)) :
    Moves balance s t parent (Function.update parent d (some next)) := by
  classical
  have hsum := Forest.followerSum_link hfinite hd hfree
  have hne : e ≠ d := by
    intro heq
    rw [heq] at hends
    exact hfree hends.1
  constructor
  · intro x
    rw [h.subtreeWeight, hsum]
    split_ifs <;> ring
  · intro x hx _
    rw [h.delegatedPowerCache, hsum]
    simp only [hends.below_iff hx]
    split_ifs <;> ring
  · intro x hx
    have hother : x ≠ e := by
      intro heq
      subst heq
      rcases hx with hx | hx
      · exact hx hends.2
      · rw [Function.update_of_ne hne] at hx
        exact hx hends.2
    rw [h.delegatedPowerCache, if_neg hother, add_zero]

omit hfinite in
/-- A delegation is taken back before it is given to somebody else. -/
theorem Moves.relink (hfreed : Moves balance s u parent (Function.update parent d none))
    (hlinked : Moves balance u t (Function.update parent d none)
      (Function.update parent d (some next))) :
    Moves balance s t parent (Function.update parent d (some next)) := by
  have hself : Function.update parent d (some next) d ≠ none := by
    rw [Function.update_self]
    exact Option.some_ne_none next
  constructor
  · intro x
    rw [hlinked.subtreeWeight, hfreed.subtreeWeight]
    ring
  · intro x hbefore hafter
    have hx : x ≠ d := by
      intro heq
      subst heq
      exact hself hafter
    have hmid : Function.update parent d none x = none := by
      rw [Function.update_of_ne hx, hbefore]
    rw [hlinked.ends x hmid hafter, hfreed.ends x hbefore hmid]
    ring
  · intro x hx
    by_cases hxd : x = d
    · subst hxd
      rw [hlinked.others x (.inr hself)]
      by_cases hend : parent x = none
      · rw [hfreed.ends x hend (Function.update_self ..), ← hend, Function.update_eq_self]
        ring
      · exact hfreed.others x (.inl hend)
    · have hdelegated : parent x ≠ none := by
        rw [Function.update_of_ne hxd, or_self] at hx
        exact hx
      rw [hlinked.others x (.inr (by rw [Function.update_of_ne hxd]; exact hdelegated)),
        hfreed.others x (.inl hdelegated)]

end Moves

end DelegatedPower
