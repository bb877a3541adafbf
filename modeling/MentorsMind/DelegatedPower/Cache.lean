import MentorsMind.DelegatedPower.Propagation
import MentorsMind.DelegatedPower.Snapshots

/-! The eager cache of delegated power against the sum it stands for. The cache follows every
delegation and every balance that changes, but three things go wrong on the way: a reported
balance enters the stored weight of its own holder, where the holder's balance is added a second
time as soon as it moves; who takes a delegation back gets the cache of the day when it
delegated; and the walk gives up at the configured depth, which only the target's side of a new
delegation was checked for. -/
namespace DelegatedPower
open Outcome Soroban

/-- The contract and the balances of the token that reports to it. -/
structure Ledger (Addr : Type) where
  delegation : State Addr
  balance : Addr → ℤ

/-- The contract as deployed when the holders own what `opening` says. -/
def Ledger.deployed {Addr : Type} (opening : Addr → ℤ) : Ledger Addr where
  delegation := DelegatedPower.deployed Addr
  balance := opening

inductive Activity (Addr : Type) where
  | call (call : Call Addr)
  /-- The token gives the holder a new balance and reports it. -/
  | balanceChange (holder : Addr) (balance : ℤ)

variable {Addr : Type} [DecidableEq Addr] {home : Addr}

/-- The token authorises its report only when a balance changes. -/
def Ledger.exec (inv : Invocation Addr home) (activity : Activity Addr) (w : Ledger Addr) :
    Result (Ledger Addr) :=
  match activity with
  | .call (.invalidatePowerCache _ _ _) => .error .unauthorized
  | .call call => do
      let delegation ←
        DelegatedPower.exec { inv with balance := w.balance } call w.delegation
      pure { w with delegation := delegation }
  | .balanceChange holder balance => do
      let delegation ←
        invalidatePowerCache inv w.delegation holder (w.balance holder) balance
      pure { delegation := delegation, balance := Function.update w.balance holder balance }

abbrev LedgerStep (Addr : Type) (home : Addr) := Invocation Addr home × Activity Addr

def ledgerMachine (home : Addr) : Machine (Ledger Addr) (LedgerStep Addr home) Trap where
  exec step := Ledger.exec step.1 step.2

abbrev ledgerAfter (opening : Addr → ℤ) (steps : List (LedgerStep Addr home)) : Ledger Addr :=
  (ledgerMachine home).run (.deployed opening) steps

namespace Ledger

variable (w : Ledger Addr)

/-- What everybody whose chain ends at `x` owns, `x` itself apart. -/
noncomputable def followers (x : Addr) : ℤ :=
  Forest.followerSum w.delegation.delegate w.balance x

/-- The cache of every address that has not delegated is what its followers own. -/
def CacheExact : Prop :=
  ∀ x, w.delegation.delegate x = none → w.delegation.delegatedPowerCache x = w.followers x

/-- A walk up the chain of `d` reaches its end. -/
def WithinDepth (d : Addr) : Prop :=
  Forest.Shallow w.delegation.delegate (getMaxDelegationDepth w.delegation) d

end Ledger

section Condition

variable (opening : Addr → ℤ)

/-- Within the calls `pre`, after the calls `before` was the last time that `d` had no
delegation. -/
structure LastFree (pre : List (LedgerStep Addr home)) (d : Addr)
    (before : List (LedgerStep Addr home)) : Prop where
  earlier : before <+: pre
  free : (ledgerAfter opening before).delegation.delegate d = none
  since : ∀ mid, before <+: mid → mid <+: pre → mid ≠ before →
    (ledgerAfter opening mid).delegation.delegate d ≠ none

/-- The followers of `d` own together what they owned when `d` delegated. -/
def FollowersAsLeft (pre : List (LedgerStep Addr home)) (d : Addr) : Prop :=
  ∀ before, LastFree opening pre d before →
    (ledgerAfter opening pre).followers d = (ledgerAfter opening before).followers d

/-- The delegator owns what it owned at the deployment, and its chain is not too long. -/
structure Movable (w : Ledger Addr) (d : Addr) : Prop where
  settled : w.balance d = opening d
  near : Forest.subtreeSum w.delegation.delegate w.balance d ≠ 0 → w.WithinDepth d

/-- When the call that follows the calls `pre` keeps the cache exact. -/
def Harmless (pre : List (LedgerStep Addr home)) (activity : Activity Addr) : Prop :=
  let w := ledgerAfter opening pre
  match activity with
  | .call (.delegate d _) => Movable opening w d
  | .call (.undelegate d) =>
      w.delegation.delegate d ≠ none → Movable opening w d ∧ FollowersAsLeft opening pre d
  | .call _ => True
  | .balanceChange d balance => balance ≠ w.balance d → w.WithinDepth d

end Condition

/-- The pointers form a forest, and the stored weight of a node is what its followers own with
every change of its own balance on top. -/
structure Ledger.Sound (opening : Addr → ℤ) (w : Ledger Addr) : Prop where
  grounded : Forest.Grounded w.delegation.delegate
  finite : (Function.support w.balance).Finite
  subtreeWeight : ∀ x,
    w.delegation.subtreeWeight x = w.followers x + (w.balance x - opening x)

/-- The cache of an end changes as what its followers own, and no other cache does. -/
structure Ledger.Follows (w v : Ledger Addr) : Prop where
  ends : ∀ x, w.delegation.delegate x = none → v.delegation.delegate x = none →
    v.delegation.delegatedPowerCache x =
      w.delegation.delegatedPowerCache x + (v.followers x - w.followers x)
  others : ∀ x, w.delegation.delegate x ≠ none ∨ v.delegation.delegate x ≠ none →
    v.delegation.delegatedPowerCache x = w.delegation.delegatedPowerCache x
  freed : ∀ x, w.delegation.delegate x ≠ none → v.delegation.delegate x = none →
    v.followers x = w.followers x

variable {opening : Addr → ℤ} {inv : Invocation Addr home} {w v : Ledger Addr}
  {t : State Addr} {d target : Addr}

omit [DecidableEq Addr] in
theorem deployed_sound (hfinite : (Function.support opening).Finite) :
    (Ledger.deployed opening).Sound opening := by
  constructor
  · intro x
    exact ⟨x, Forest.Below.refl _ x, rfl⟩
  · exact hfinite
  · intro x
    have hnobody : (Ledger.deployed opening).followers x = 0 :=
      Forest.followerSum_of_ends (fun _ => rfl) x
    rw [hnobody]
    exact (sub_self (opening x)).symm.trans (zero_add _).symm

omit [DecidableEq Addr] in
/-- While its balance is the one of the deployment, what is read as the weight of a subtree is
what everybody in it owns. -/
theorem getSubtreeWeight_eq_ok {weight : ℤ} (hs : w.Sound opening)
    (hsettled : w.balance d = opening d)
    (h : getSubtreeWeight { inv with balance := w.balance } w.delegation d = .ok weight) :
    weight = Forest.subtreeSum w.delegation.delegate w.balance d := by
  simp only [getSubtreeWeight, tokenBalance, bind_eq_ok, pure_eq_ok, checkedI128_eq_ok] at h
  obtain ⟨own, ⟨-, -, rfl⟩, -, hweight⟩ := h
  rw [← hweight, hs.subtreeWeight, ← hsettled, sub_self, add_zero,
    Forest.subtreeSum_eq_add hs.finite]
  rfl

omit [DecidableEq Addr] in
/-- The chain above a delegator is one hop shorter than its own. -/
theorem Ledger.WithinDepth.above {next : Addr} (h : w.WithinDepth d)
    (hd : w.delegation.delegate d = some next) :
    ∃ k < getMaxDelegationDepth w.delegation, ∃ e,
      Forest.EndsAfter w.delegation.delegate k next e := by
  obtain ⟨n, e, hle, hends⟩ := h
  cases n with
  | zero =>
    obtain rfl := Option.some.inj hends.1
    rw [hends.2] at hd
    cases hd
  | succ n =>
    obtain ⟨y, hy, hrest⟩ := hends.of_succ
    obtain rfl := Option.some.inj (hd.symm.trans hy)
    exact ⟨n, hle, e, hrest⟩

omit [DecidableEq Addr] in
/-- A walk from above a delegator that moves the delegator's weight reaches the end. -/
theorem Movable.reaches {next : Addr} (hs : w.Sound opening) (hm : Movable opening w d)
    (hd : w.delegation.delegate d = some next) :
    ∃ e, Forest.EndsIn w.delegation.delegate next e ∧
      (Forest.subtreeSum w.delegation.delegate w.balance d ≠ 0 →
        ∃ k < getMaxDelegationDepth w.delegation,
          Forest.EndsAfter w.delegation.delegate k next e) := by
  obtain ⟨e, hends⟩ := hs.grounded next
  refine ⟨e, hends, ?_⟩
  intro hne
  obtain ⟨k, hlt, e', hk⟩ := (hm.near hne).above hd
  rw [hends.unique hk.endsIn]
  exact ⟨k, hlt, hk⟩

theorem releaseWeight_moves {freed : State Addr} (hs : w.Sound opening)
    (hm : Movable opening w d)
    (h : releaseWeight w.delegation d (Forest.subtreeSum w.delegation.delegate w.balance d)
      (getMaxDelegationDepth w.delegation) = .ok freed) :
    freed.delegate = w.delegation.delegate ∧
      Moves w.balance w.delegation freed w.delegation.delegate
        (Function.update w.delegation.delegate d none) := by
  rcases releaseWeight_eq_ok h with ⟨hnone, heq⟩ | ⟨prev, hprev, hmoved⟩
  · rw [← hnone, Function.update_eq_self, heq]
    exact ⟨rfl, moves_refl w.balance w.delegation w.delegation.delegate⟩
  · obtain ⟨e, hends, hnear⟩ := hm.reaches hs hprev
    obtain ⟨hsame, hraised⟩ := propagateWeightChange_eq_ok hs.grounded
      (fun hne => hnear (neg_ne_zero.mp hne)) hmoved
    exact ⟨hsame, hraised.unlinks hs.finite hs.grounded hprev hends⟩

theorem delegate_moves (hs : w.Sound opening) (hm : Movable opening w d)
    (h : delegate { inv with balance := w.balance } w.delegation d target = .ok t) :
    ¬ Forest.Below w.delegation.delegate target d ∧
      t.delegate = Function.update w.delegation.delegate d (some target) ∧
      Moves w.balance w.delegation t w.delegation.delegate
        (Function.update w.delegation.delegate d (some target)) := by
  obtain ⟨-, ⟨u, hvalid⟩, weight, freed, hweight, hfreed, hlinked⟩ := delegate_eq_ok h
  obtain ⟨⟨k, hlt, e, hk⟩, hfree⟩ := requireValidChain_eq_ok hvalid
  have hvalue := getSubtreeWeight_eq_ok hs hm.settled hweight
  subst hvalue
  obtain ⟨hsame, hunlinked⟩ := releaseWeight_moves hs hm hfreed
  -- the chain of the target does not pass the delegator, whose pointer thus does not matter
  have hbelow := fun p z => Forest.below_update_of_not_below (z := z) hfree p
  have hends := fun p => hk.update_of_not_below hfree p
  have hgrounded : Forest.Grounded (Function.update w.delegation.delegate d (some target)) := by
    have hrelinked := (hs.grounded.unlink d).link (Function.update_self ..)
      (mt (hbelow none d).mp hfree)
    rw [Function.update_idem] at hrelinked
    exact hrelinked
  rw [hsame] at hlinked
  obtain ⟨hpointers, hraised⟩ := propagateWeightChange_eq_ok hgrounded
    (fun _ => ⟨k, hlt, hends (some target)⟩) hlinked
  refine ⟨hfree, hpointers, ?_⟩
  have hgiven : Raised (Function.update w.delegation.delegate d none) freed t target e
      (Forest.subtreeSum (Function.update w.delegation.delegate d none) w.balance d) := by
    rw [Forest.subtreeSum_unlink_self hs.grounded]
    have hchain := hraised.congr fun x => (hbelow none x).trans (hbelow (some target) x).symm
    exact ⟨hchain.subtreeWeight, hchain.delegatedPowerCache⟩
  have hmoved := hgiven.links hs.finite (Function.update_self ..)
    (mt (hbelow none d).mp hfree) (hends none).endsIn
  rw [Function.update_idem] at hmoved
  exact hunlinked.relink hmoved

theorem undelegate_moves {next : Addr} (hs : w.Sound opening) (hm : Movable opening w d)
    (hd : w.delegation.delegate d = some next) {weight : ℤ}
    (hweight : getSubtreeWeight { inv with balance := w.balance } w.delegation d = .ok weight)
    (h : propagateWeightChange { w.delegation with
      delegate := Function.update w.delegation.delegate d none
      delegators := w.delegation.delegators.erase d } next (-weight)
        (getMaxDelegationDepth w.delegation) = .ok t) :
    t.delegate = Function.update w.delegation.delegate d none ∧
      Moves w.balance w.delegation t w.delegation.delegate
        (Function.update w.delegation.delegate d none) := by
  have hvalue := getSubtreeWeight_eq_ok hs hm.settled hweight
  subst hvalue
  obtain ⟨e, hends, hnear⟩ := hm.reaches hs hd
  have hfree := hs.grounded.not_below_of_parent hd
  have hbelow := fun z => Forest.below_update_of_not_below (z := z) hfree none
  have hreach : -Forest.subtreeSum w.delegation.delegate w.balance d ≠ 0 →
      ∃ k < getMaxDelegationDepth w.delegation,
        Forest.EndsAfter (Function.update w.delegation.delegate d none) k next e := by
    intro hne
    obtain ⟨k, hlt, hk⟩ := hnear (neg_ne_zero.mp hne)
    exact ⟨k, hlt, hk.update_of_not_below hfree none⟩
  obtain ⟨hpointers, hraised⟩ := propagateWeightChange_eq_ok (hs.grounded.unlink d) hreach h
  have htaken : Raised w.delegation.delegate w.delegation t next e
      (-Forest.subtreeSum w.delegation.delegate w.balance d) := by
    have hchain := hraised.congr fun x => (hbelow x).symm
    exact ⟨hchain.subtreeWeight, hchain.delegatedPowerCache⟩
  exact ⟨hpointers, htaken.unlinks hs.finite hs.grounded hd hends⟩

omit [DecidableEq Addr] in
theorem Ledger.Follows.refl (w : Ledger Addr) : w.Follows w := by
  constructor
  · intro x _ _
    rw [sub_self, add_zero]
  · intro x _
    rfl
  · intro x _ _
    rfl

omit [DecidableEq Addr] in
/-- Stored weights that move as their sums do still stand for them. -/
theorem Moves.carried (hs : w.Sound opening) (hgrounded : Forest.Grounded t.delegate)
    (h : Moves w.balance w.delegation t w.delegation.delegate t.delegate)
    (hfreed : ∀ x, w.delegation.delegate x ≠ none → t.delegate x = none →
      Forest.followerSum t.delegate w.balance x = w.followers x) :
    ({ w with delegation := t } : Ledger Addr).Sound opening ∧
      w.Follows { w with delegation := t } := by
  constructor
  · constructor
    · exact hgrounded
    · exact hs.finite
    · intro x
      rw [h.subtreeWeight, hs.subtreeWeight]
      simp only [Ledger.followers]
      ring
  · exact ⟨h.ends, h.others, hfreed⟩

omit [DecidableEq Addr] in
/-- A call that leaves pointers, weights and cache alone. -/
theorem carried_of_eq (hs : w.Sound opening) (hpointers : t.delegate = w.delegation.delegate)
    (hweights : t.subtreeWeight = w.delegation.subtreeWeight)
    (hcache : t.delegatedPowerCache = w.delegation.delegatedPowerCache) :
    ({ w with delegation := t } : Ledger Addr).Sound opening ∧
      w.Follows { w with delegation := t } := by
  apply Moves.carried hs
  · rw [hpointers]
    exact hs.grounded
  · rw [hpointers]
    have hrefl := moves_refl w.balance w.delegation w.delegation.delegate
    constructor
    · rw [hweights]
      exact hrefl.subtreeWeight
    · rw [hcache]
      exact hrefl.ends
    · rw [hcache]
      exact hrefl.others
  · rw [hpointers]
    intro x _ _
    rfl

theorem delegate_carried (hs : w.Sound opening) (hm : Movable opening w d)
    (h : delegate { inv with balance := w.balance } w.delegation d target = .ok t) :
    ({ w with delegation := t } : Ledger Addr).Sound opening ∧
      w.Follows { w with delegation := t } := by
  obtain ⟨hfree, hpointers, hmoves⟩ := delegate_moves hs hm h
  rw [← hpointers] at hmoves
  apply hmoves.carried hs
  · have hunlinked := Forest.below_update_of_not_below (z := d) hfree none
    have hrelinked := (hs.grounded.unlink d).link (Function.update_self ..)
      (mt hunlinked.mp hfree)
    rw [Function.update_idem, ← hpointers] at hrelinked
    exact hrelinked
  · intro x hbefore hafter
    rw [hpointers] at hafter
    by_cases hx : x = d
    · rw [hx, Function.update_self] at hafter
      cases hafter
    · rw [Function.update_of_ne hx] at hafter
      exact absurd hafter hbefore

theorem undelegate_carried (hs : w.Sound opening)
    (hm : w.delegation.delegate d ≠ none → Movable opening w d)
    (h : undelegate { inv with balance := w.balance } w.delegation d = .ok t) :
    ({ w with delegation := t } : Ledger Addr).Sound opening ∧
      w.Follows { w with delegation := t } := by
  classical
  obtain ⟨-, hcases⟩ := undelegate_eq_ok h
  rcases hcases with ⟨-, heq⟩ | ⟨next, weight, hd, hweight, hmoved⟩
  · rw [heq]
    exact ⟨hs, Ledger.Follows.refl w⟩
  · obtain ⟨hpointers, hmoves⟩ :=
      undelegate_moves hs (hm (by rw [hd]; exact Option.some_ne_none next)) hd hweight hmoved
    rw [← hpointers] at hmoves
    apply hmoves.carried hs
    · rw [hpointers]
      exact hs.grounded.unlink d
    · intro x hbefore hafter
      rw [hpointers] at hafter
      by_cases hx : x = d
      · subst hx
        rw [hpointers, Forest.followerSum_unlink hs.finite hs.grounded hd,
          if_neg (hs.grounded.not_below_of_parent hd), sub_zero]
        rfl
      · rw [Function.update_of_ne hx] at hafter
        exact absurd hafter hbefore

open Classical in
/-- A report moves the stored weights of the holder and of everybody above it, and the cache at
the end of the chain above it. -/
theorem invalidatePowerCache_spec {balance : ℤ} (hs : w.Sound opening)
    (hnear : balance ≠ w.balance d → w.WithinDepth d)
    (h : invalidatePowerCache inv w.delegation d (w.balance d) balance = .ok t) :
    t.delegate = w.delegation.delegate ∧
      (∀ x, t.subtreeWeight x = w.delegation.subtreeWeight x +
        if Forest.Below w.delegation.delegate d x then balance - w.balance d else 0) ∧
      (∀ x, w.delegation.delegate x = none → t.delegatedPowerCache x =
        w.delegation.delegatedPowerCache x +
          if x = d then 0
          else if Forest.Below w.delegation.delegate d x then balance - w.balance d else 0) ∧
      (∀ x, w.delegation.delegate x ≠ none →
        t.delegatedPowerCache x = w.delegation.delegatedPowerCache x) := by
  rcases invalidatePowerCache_eq_ok h with ⟨hsame, heq⟩ | ⟨hdiffers, ⟨hd, heq⟩ | ⟨next, hd, hmoved⟩⟩
  · rw [heq, hsame, sub_self]
    simp
  · have honly : ∀ x, Forest.Below w.delegation.delegate d x ↔ x = d := by
      intro x
      constructor
      · intro hx
        exact hx.eq_of_end hd
      · intro hx
        rw [hx]
        exact Forest.Below.refl w.delegation.delegate d
    subst heq
    simp only [honly, Function.update_apply]
    refine ⟨trivial, ?_, ?_, fun _ _ => trivial⟩
    · intro x
      split_ifs with hx
      · rw [hx]
      · rw [add_zero]
    · intro x _
      split_ifs <;> rw [add_zero]
  · obtain ⟨k, hlt, e, hk⟩ := (hnear hdiffers.symm).above hd
    obtain ⟨hpointers, hraised⟩ :=
      propagateWeightChange_eq_ok (s := weighed w.delegation d (balance - w.balance d))
        hs.grounded (fun _ => ⟨k, hlt, hk⟩) hmoved
    have hfree := hs.grounded.not_below_of_parent hd
    refine ⟨hpointers, ?_, ?_, ?_⟩
    · intro x
      have hx := hraised.subtreeWeight x
      simp only [Function.update_apply] at hx
      rw [hx]
      simp only [Forest.below_iff_of_parent hd]
      by_cases hself : x = d
      · subst hself
        simp [hfree]
      · simp [hself]
    · intro x hend
      have hself : x ≠ d := by
        intro heq
        rw [heq, hd] at hend
        cases hend
      have hx := hraised.delegatedPowerCache x
      rw [hx, if_neg hself]
      simp only [Forest.below_iff_of_parent hd, hself, false_or]
      congr 1
      exact if_congr (hk.endsIn.below_iff hend).symm rfl rfl
    · intro x hdelegated
      have hother : x ≠ e := by
        intro heq
        rw [heq] at hdelegated
        exact hdelegated hk.2
      have hx := hraised.delegatedPowerCache x
      rw [if_neg hother, add_zero] at hx
      exact hx

theorem balanceChange_carried {balance : ℤ} (hs : w.Sound opening)
    (hnear : balance ≠ w.balance d → w.WithinDepth d)
    (h : invalidatePowerCache inv w.delegation d (w.balance d) balance = .ok t) :
    (⟨t, Function.update w.balance d balance⟩ : Ledger Addr).Sound opening ∧
      w.Follows ⟨t, Function.update w.balance d balance⟩ := by
  classical
  obtain ⟨hpointers, hweights, hends, hothers⟩ := invalidatePowerCache_spec hs hnear h
  have hsum : ∀ x, (⟨t, Function.update w.balance d balance⟩ : Ledger Addr).followers x =
      w.followers x + if x = d then 0
        else if Forest.Below w.delegation.delegate d x then balance - w.balance d else 0 := by
    intro x
    unfold Ledger.followers
    rw [hpointers]
    exact Forest.followerSum_update hs.finite balance x
  constructor
  · constructor
    · rw [hpointers]
      exact hs.grounded
    · exact (hs.finite.union (Set.finite_singleton d)).subset Forest.support_update_subset
    · intro x
      show t.subtreeWeight x = _ + (Function.update w.balance d balance x - opening x)
      rw [hsum, hweights, hs.subtreeWeight]
      by_cases hx : x = d
      · subst hx
        rw [if_pos (Forest.Below.refl _ x), if_pos rfl, Function.update_self]
        ring
      · rw [if_neg hx, Function.update_of_ne hx]
        ring
  · constructor
    · intro x hend _
      rw [hsum, hends x hend]
      ring
    · intro x hdelegated
      rw [hpointers, or_self] at hdelegated
      exact hothers x hdelegated
    · intro x hdelegated hend
      rw [hpointers] at hend
      exact absurd hend hdelegated

/-- Taking a snapshot touches neither pointers nor weights. -/
theorem snapshotDelegations_kept {s t : State Addr} {snapshotId : ℕ}
    (h : s.delegators.foldlM (snapshotDelegator inv snapshotId) s = .ok t) :
    t.delegate = s.delegate ∧ t.subtreeWeight = s.subtreeWeight ∧
      t.delegatedPowerCache = s.delegatedPowerCache := by
  have hframe := (taken_of_foldlM h).frame
  rw [hframe]
  exact ⟨rfl, rfl, rfl⟩

/-- A call of an account works on the balances of the moment. -/
theorem call_eq_ok {call : Call Addr}
    (h : (ledgerMachine home).exec (inv, .call call) w = .ok v) :
    ∃ t, exec { inv with balance := w.balance } call w.delegation = .ok t ∧
      { w with delegation := t } = v := by
  cases call with
  | invalidatePowerCache _ _ _ => cases h
  | _ =>
    simp only [ledgerMachine, Ledger.exec, bind_eq_ok, pure_eq_ok] at h
    exact h

theorem exec_carried {pre : List (LedgerStep Addr home)} {step : LedgerStep Addr home}
    (hs : (ledgerAfter opening pre).Sound opening) (hharmless : Harmless opening pre step.2)
    (h : (ledgerMachine home).exec step (ledgerAfter opening pre) = .ok v) :
    v.Sound opening ∧ (ledgerAfter opening pre).Follows v := by
  obtain ⟨inv, activity⟩ := step
  cases activity with
  | balanceChange holder balance =>
    simp only [ledgerMachine, Ledger.exec, bind_eq_ok, pure_eq_ok] at h
    obtain ⟨t, ht, rfl⟩ := h
    exact balanceChange_carried hs hharmless ht
  | call call =>
    obtain ⟨t, ht, rfl⟩ := call_eq_ok h
    cases exec_effect ht with
    | configured eq =>
      rw [eq]
      exact carried_of_eq hs rfl rfl rfl
    | delegated auth eq => exact delegate_carried hs hharmless ht
    | undelegated auth was eq => exact undelegate_carried hs (fun hd => (hharmless hd).1) ht
    | reported eq => cases h
    | snapshotTaken eq =>
      obtain ⟨hpointers, hweights, hcache⟩ := snapshotDelegations_kept eq
      exact carried_of_eq hs hpointers hweights hcache

/-- Only its own `undelegate` frees an address. -/
theorem exec_frees {pre : List (LedgerStep Addr home)} {step : LedgerStep Addr home}
    (hs : (ledgerAfter opening pre).Sound opening) (hharmless : Harmless opening pre step.2)
    (h : (ledgerMachine home).exec step (ledgerAfter opening pre) = .ok v)
    (hbefore : (ledgerAfter opening pre).delegation.delegate d ≠ none)
    (hafter : v.delegation.delegate d = none) : FollowersAsLeft opening pre d := by
  obtain ⟨inv, activity⟩ := step
  cases activity with
  | balanceChange holder balance =>
    simp only [ledgerMachine, Ledger.exec, bind_eq_ok, pure_eq_ok] at h
    obtain ⟨t, ht, rfl⟩ := h
    rw [(invalidatePowerCache_spec hs hharmless ht).1] at hafter
    exact absurd hafter hbefore
  | call call =>
    obtain ⟨t, ht, rfl⟩ := call_eq_ok h
    cases exec_effect ht with
    | configured eq =>
      rw [eq] at hafter
      exact absurd hafter hbefore
    | @delegated delegator target auth eq =>
      rw [eq] at hafter
      by_cases hd : d = delegator
      · simp [hd] at hafter
      · simp only [Function.update_of_ne hd] at hafter
        exact absurd hafter hbefore
    | @undelegated delegator target auth was eq =>
      rw [eq] at hafter
      by_cases hd : d = delegator
      · subst hd
        exact (hharmless hbefore).2
      · simp only [Function.update_of_ne hd] at hafter
        exact absurd hafter hbefore
    | reported eq => cases h
    | snapshotTaken eq =>
      rw [(snapshotDelegations_kept eq).1] at hafter
      exact absurd hafter hbefore

/-- What holds after the calls `pre`: every cache is what the followers owned when the address
last had no delegation. -/
structure Kept (opening : Addr → ℤ) (pre : List (LedgerStep Addr home)) : Prop where
  sound : (ledgerAfter opening pre).Sound opening
  last : ∀ d, ∃ before, LastFree opening pre d before
  frozen : ∀ d before, LastFree opening pre d before →
    (ledgerAfter opening pre).delegation.delegatedPowerCache d =
      (ledgerAfter opening before).followers d

theorem lastFree_self {pre : List (LedgerStep Addr home)}
    (h : (ledgerAfter opening pre).delegation.delegate d = none) :
    LastFree opening pre d pre := by
  constructor
  · exact List.prefix_rfl
  · exact h
  · intro mid hlonger hshorter hne
    exact absurd (hshorter.eq_of_length_le hlonger.length_le) hne

theorem Kept.snoc {pre : List (LedgerStep Addr home)} {step : LedgerStep Addr home}
    (hk : Kept opening pre) (hs : (ledgerAfter opening (pre ++ [step])).Sound opening)
    (hf : (ledgerAfter opening pre).Follows (ledgerAfter opening (pre ++ [step])))
    (hfrees : ∀ d, (ledgerAfter opening pre).delegation.delegate d ≠ none →
      (ledgerAfter opening (pre ++ [step])).delegation.delegate d = none →
      FollowersAsLeft opening pre d) : Kept opening (pre ++ [step]) := by
  constructor
  · exact hs
  · intro d
    by_cases hd : (ledgerAfter opening (pre ++ [step])).delegation.delegate d = none
    · exact ⟨pre ++ [step], lastFree_self hd⟩
    · obtain ⟨before, hlast⟩ := hk.last d
      refine ⟨before, hlast.earlier.trans (List.prefix_append pre [step]), hlast.free, ?_⟩
      intro mid hsince hmid hne
      rcases List.prefix_concat_iff.mp hmid with heq | hearlier
      · rw [heq]
        exact hd
      · exact hlast.since mid hsince hearlier hne
  · intro d before hlast
    rcases List.prefix_concat_iff.mp hlast.earlier with heq | hearlier
    · subst heq
      by_cases hd : (ledgerAfter opening pre).delegation.delegate d = none
      · rw [hf.ends d hd hlast.free, hk.frozen d pre (lastFree_self hd)]
        ring
      · obtain ⟨before, hbefore⟩ := hk.last d
        rw [hf.others d (.inl hd), hf.freed d hd hlast.free, hk.frozen d before hbefore,
          hfrees d hd hlast.free before hbefore]
    · have hnow : (ledgerAfter opening (pre ++ [step])).delegation.delegate d ≠ none := by
        apply hlast.since _ hlast.earlier List.prefix_rfl
        intro heq
        have hlength := hearlier.length_le
        rw [← heq, List.length_append, List.length_singleton] at hlength
        omega
      have hlastBefore : LastFree opening pre d before := by
        refine ⟨hearlier, hlast.free, ?_⟩
        intro mid hsince hmid hne
        exact hlast.since mid hsince (hmid.trans (List.prefix_append pre [step])) hne
      rw [hf.others d (.inr hnow), hk.frozen d before hlastBefore]

/-- In a run whose calls find every delegator that moves with the balance of the deployment,
within the depth, and with followers that own what they owned when it delegated, the cache of
every address that has not delegated is always what its followers own. -/
theorem run_cacheExact (opening : Addr → ℤ) (hfinite : (Function.support opening).Finite)
    (steps : List (LedgerStep Addr home))
    (hharmless : ∀ pre step v, (ledgerMachine home).Executes (.deployed opening) steps pre step v →
      Harmless opening pre step.2) :
    ∀ pre, pre <+: steps → (ledgerAfter opening pre).CacheExact := by
  have hkept : ∀ pre, pre <+: steps → Kept opening pre := by
    apply Machine.run_history_of_executes (M := ledgerMachine home) (s := .deployed opening)
      (P := fun pre _ => Kept opening pre)
    · have hfree : ∀ d, LastFree opening ([] : List (LedgerStep Addr home)) d [] :=
        fun _ => lastFree_self rfl
      refine ⟨deployed_sound hfinite, fun d => ⟨[], hfree d⟩, ?_⟩
      intro d before hlast
      rw [List.prefix_nil.mp hlast.earlier]
      exact (Forest.followerSum_of_ends (fun _ => rfl) d).symm
    · intro pre step v hx hk
      obtain ⟨hs, hf⟩ := exec_carried hk.sound (hharmless pre step v hx) hx.exec_eq
      have hv : ledgerAfter opening (pre ++ [step]) = v := hx.run_eq
      apply hk.snoc
      · rw [hv]
        exact hs
      · rw [hv]
        exact hf
      · intro d hbefore hafter
        rw [hv] at hafter
        exact exec_frees hk.sound (hharmless pre step v hx) hx.exec_eq hbefore hafter
    · intro pre step e hk herror
      have hsame : ledgerAfter opening (pre ++ [step]) = ledgerAfter opening pre := by
        rw [ledgerAfter, Machine.run_snoc, Machine.apply_error herror]
      apply hk.snoc
      · rw [hsame]
        exact hk.sound
      · rw [hsame]
        exact Ledger.Follows.refl _
      · intro d hbefore hafter
        rw [hsame] at hafter
        exact absurd hafter hbefore
  intro pre hpre x hend
  exact (hkept pre hpre).frozen x pre (lastFree_self hend)

/-- An invocation that every account signed. -/
def signed : Invocation ℕ 0 where
  toEnv := signedByAll 0
  balance _ := 0
  snapshotBalance _ _ := some 0

/-- One holder of fifty. -/
def fifty (holder : ℕ) : ℤ := if holder = 1 then 50 else 0

theorem fifty_support : (Function.support fifty).Finite := by
  apply (Set.finite_singleton 1).subset
  intro holder hweighs
  by_contra hother
  exact hweighs (if_neg hother)

/-- The holder delegates and its balance grows to 120. -/
def settledRun : List (LedgerStep ℕ 0) :=
  [(signed, .call (.initializeDelegation 9 8)), (signed, .call (.delegate 1 2)),
    (signed, .balanceChange 1 120)]

theorem settledRun_harmless (pre : List (LedgerStep ℕ 0)) (step : LedgerStep ℕ 0)
    (v : Ledger ℕ) (hx : (ledgerMachine 0).Executes (.deployed fifty) settledRun pre step v) :
    Harmless fifty pre step.2 := by
  obtain ⟨hpre, hstep⟩ := hx.eq_take
  have hlength : pre.length < 3 := hx.length_lt
  generalize pre.length = n at hpre hstep hlength
  interval_cases n
  · obtain rfl := Option.some.inj hstep
    exact trivial
  · obtain rfl := Option.some.inj hstep
    rw [hpre]
    constructor
    · rfl
    · intro _
      exact ⟨0, 1, by decide, rfl, rfl⟩
  · obtain rfl := Option.some.inj hstep
    rw [hpre]
    intro _
    exact ⟨1, 2, by decide, rfl, rfl⟩

theorem settledRun_cacheExact : (ledgerAfter fifty settledRun).CacheExact :=
  run_cacheExact fifty fifty_support settledRun settledRun_harmless settledRun List.prefix_rfl

/-- Then it takes the delegation back: 190 leave the chain, of which 120 were ever there. -/
def strandedRun : List (LedgerStep ℕ 0) := settledRun ++ [(signed, .call (.undelegate 1))]

theorem strandedRun_ends (x : ℕ) : (ledgerAfter fifty strandedRun).delegation.delegate x = none := by
  have hpointers : (ledgerAfter fifty strandedRun).delegation.delegate =
      Function.update (Function.update (fun _ => none) 1 (some 2)) 1 none := rfl
  rw [hpointers]
  by_cases hx : x = 1
  · rw [hx, Function.update_self]
  · rw [Function.update_of_ne hx, Function.update_of_ne hx]

theorem strandedRun_not_cacheExact :
    (ledgerAfter fifty strandedRun).delegation.delegatedPowerCache 2 = -70 ∧
      ¬ (ledgerAfter fifty strandedRun).CacheExact := by
  have hcache : (ledgerAfter fifty strandedRun).delegation.delegatedPowerCache 2 = -70 := rfl
  constructor
  · exact hcache
  · intro hexact
    have hnobody : (ledgerAfter fifty strandedRun).followers 2 = 0 :=
      Forest.followerSum_of_ends strandedRun_ends 2
    have heq := hexact 2 (strandedRun_ends 2)
    rw [hcache, hnobody] at heq
    exact absurd heq (by decide)

end DelegatedPower
