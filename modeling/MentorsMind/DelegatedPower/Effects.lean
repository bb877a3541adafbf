import MentorsMind.DelegatedPower.Contract

/-! What a successful call changes, as far as the settings, the pointers and the snapshots are
concerned. -/
namespace DelegatedPower
open Outcome Soroban

variable {Addr : Type} [DecidableEq Addr] {self : Addr} {inv : Invocation Addr self}
  {s t : State Addr} {cur d : Addr} {delta : ℤ}

/-- The state with another stored weight for `d`. -/
abbrev weighed (s : State Addr) (d : Addr) (delta : ℤ) : State Addr :=
  { s with subtreeWeight := Function.update s.subtreeWeight d (s.subtreeWeight d + delta) }

theorem adjustSubtreeWeight_eq_ok (h : adjustSubtreeWeight s d delta = .ok t) :
    t = weighed s d delta := by
  unfold adjustSubtreeWeight at h
  unfold weighed
  by_cases hzero : delta = 0
  · rw [if_pos hzero, pure_eq_ok] at h
    rw [hzero, add_zero, Function.update_eq_self, h]
  · simp only [if_neg hzero, bind_eq_ok, checkedI128_eq_ok, pure_eq_ok] at h
    obtain ⟨updated, ⟨-, hupdated⟩, ht⟩ := h
    rw [← ht, hupdated]

theorem adjustPowerCache_eq_ok (h : adjustPowerCache s d delta = .ok t) :
    t = { s with
      delegatedPowerCache :=
        Function.update s.delegatedPowerCache d (s.delegatedPowerCache d + delta) } := by
  unfold adjustPowerCache at h
  by_cases hzero : delta = 0
  · rw [if_pos hzero, pure_eq_ok] at h
    rw [hzero, add_zero, Function.update_eq_self, h]
  · simp only [if_neg hzero, bind_eq_ok, checkedI128_eq_ok, pure_eq_ok] at h
    obtain ⟨updated, ⟨-, hupdated⟩, ht⟩ := h
    rw [← ht, hupdated]

/-- Only the stored weights and the cache differ. -/
def Reweighed (s t : State Addr) : Prop :=
  t = { s with
    delegatedPowerCache := t.delegatedPowerCache
    subtreeWeight := t.subtreeWeight }

theorem climbAndAdjust_reweighed {n : ℕ} (h : climbAndAdjust delta n cur s = .ok t) :
    Reweighed s t := by
  induction n generalizing cur s with
  | zero => rw [adjustPowerCache_eq_ok h, Reweighed]
  | succ n ih =>
    simp only [climbAndAdjust, bind_eq_ok] at h
    obtain ⟨own, hown, h⟩ := h
    have hkept : Reweighed own t := by
      cases hnext : own.delegate cur with
      | none =>
        rw [hnext] at h
        rw [adjustPowerCache_eq_ok h, Reweighed]
      | some next =>
        rw [hnext] at h
        exact ih h
    rw [adjustSubtreeWeight_eq_ok hown] at hkept
    exact hkept

theorem propagateWeightChange_reweighed {maxDepth : ℕ}
    (h : propagateWeightChange s cur delta maxDepth = .ok t) : Reweighed s t := by
  unfold propagateWeightChange at h
  split_ifs at h
  · rw [pure_eq_ok] at h
    rw [← h, Reweighed]
  · exact climbAndAdjust_reweighed h

/-- The calls by what they change. -/
inductive Effect (inv : Invocation Addr self) (s t : State Addr) : Call Addr → Prop where
  | configured {call} (eq : t = { s with
      admin := t.admin
      mntToken := t.mntToken
      snapshotContract := t.snapshotContract
      maxDelegationDepth := t.maxDelegationDepth
      maxDelegatedPowerBps := t.maxDelegatedPowerBps
      delegationSuspended := t.delegationSuspended }) : Effect inv s t call
  | delegated {delegator target : Addr} (auth : inv.auth delegator = true)
      (eq : Reweighed { s with
        delegate := Function.update s.delegate delegator (some target)
        delegators :=
          if delegator ∈ s.delegators then s.delegators else s.delegators ++ [delegator] } t) :
      Effect inv s t (.delegate delegator target)
  | undelegated {delegator target : Addr} (auth : inv.auth delegator = true)
      (was : s.delegate delegator = some target)
      (eq : Reweighed { s with
        delegate := Function.update s.delegate delegator none
        delegators := s.delegators.erase delegator } t) :
      Effect inv s t (.undelegate delegator)
  | reported {delegator : Addr} {oldBalance newBalance : ℤ} (eq : Reweighed s t) :
      Effect inv s t (.invalidatePowerCache delegator oldBalance newBalance)
  | snapshotTaken {snapshotId : ℕ}
      (eq : s.delegators.foldlM (snapshotDelegator inv snapshotId) s = .ok t) :
      Effect inv s t (.snapshotDelegations snapshotId)

theorem releaseWeight_eq_ok {weight : ℤ} {maxDepth : ℕ}
    (h : releaseWeight s d weight maxDepth = .ok t) :
    s.delegate d = none ∧ t = s ∨
      ∃ prev, s.delegate d = some prev ∧ propagateWeightChange s prev (-weight) maxDepth = .ok t := by
  unfold releaseWeight at h
  cases hprev : s.delegate d with
  | none =>
    simp only [hprev, pure_eq_ok] at h
    exact .inl ⟨rfl, h.symm⟩
  | some prev =>
    simp only [hprev, bind_eq_ok, i128_eq_ok] at h
    obtain ⟨taken, ⟨-, htaken⟩, hfreed⟩ := h
    rw [← htaken] at hfreed
    exact .inr ⟨prev, rfl, hfreed⟩

theorem delegate_eq_ok {delegator target : Addr} (h : delegate inv s delegator target = .ok t) :
    inv.auth delegator = true ∧ (∃ u, requireValidChain s delegator target = .ok u) ∧
      ∃ weight freed, getSubtreeWeight inv s delegator = .ok weight ∧
        releaseWeight s delegator weight (getMaxDelegationDepth s) = .ok freed ∧
        propagateWeightChange { freed with
          delegate := Function.update freed.delegate delegator (some target)
          delegators :=
            if delegator ∈ freed.delegators then freed.delegators
            else freed.delegators ++ [delegator] } target weight (getMaxDelegationDepth s) =
          .ok t := by
  simp only [delegate, bind_eq_ok, requireAuth_eq_ok, require_eq_ok] at h
  obtain ⟨-, hauth, -, -, -, -, u, hvalid, weight, hweight, freed, hfreed, -, -, hlinked⟩ := h
  exact ⟨hauth, ⟨u, hvalid⟩, weight, freed, hweight, hfreed, hlinked⟩

theorem delegate_effect {delegator target : Addr}
    (h : delegate inv s delegator target = .ok t) : Effect inv s t (.delegate delegator target) := by
  obtain ⟨hauth, -, weight, freed, -, hfreed, hlinked⟩ := delegate_eq_ok h
  have hreweighed : Reweighed s freed := by
    rcases releaseWeight_eq_ok hfreed with ⟨-, heq⟩ | ⟨prev, -, hmoved⟩
    · rw [heq, Reweighed]
    · exact propagateWeightChange_reweighed hmoved
  have hlast := propagateWeightChange_reweighed hlinked
  rw [hreweighed] at hlast
  exact .delegated hauth hlast

theorem undelegate_eq_ok {delegator : Addr} (h : undelegate inv s delegator = .ok t) :
    inv.auth delegator = true ∧
      (s.delegate delegator = none ∧ t = s ∨
        ∃ target weight, s.delegate delegator = some target ∧
          getSubtreeWeight inv s delegator = .ok weight ∧
          propagateWeightChange { s with
            delegate := Function.update s.delegate delegator none
            delegators := s.delegators.erase delegator } target (-weight)
              (getMaxDelegationDepth s) = .ok t) := by
  simp only [undelegate, bind_eq_ok, requireAuth_eq_ok] at h
  obtain ⟨-, hauth, h⟩ := h
  refine ⟨hauth, ?_⟩
  cases hwas : s.delegate delegator with
  | none =>
    simp only [hwas, pure_eq_ok] at h
    exact .inl ⟨rfl, h.symm⟩
  | some target =>
    simp only [hwas, bind_eq_ok, i128_eq_ok] at h
    obtain ⟨weight, hweight, taken, ⟨-, htaken⟩, hmoved⟩ := h
    rw [← htaken] at hmoved
    exact .inr ⟨target, weight, rfl, hweight, hmoved⟩

/-- A report raises the stored weight of the holder itself and then of the chain above it. -/
theorem invalidatePowerCache_eq_ok {oldBalance newBalance : ℤ}
    (h : invalidatePowerCache inv s d oldBalance newBalance = .ok t) :
    oldBalance = newBalance ∧ t = s ∨
      oldBalance ≠ newBalance ∧
        (s.delegate d = none ∧ t = weighed s d (newBalance - oldBalance) ∨
          ∃ next, s.delegate d = some next ∧
            propagateWeightChange (weighed s d (newBalance - oldBalance)) next
              (newBalance - oldBalance) (getMaxDelegationDepth s) = .ok t) := by
  simp only [invalidatePowerCache, bind_eq_ok, expect_eq_ok, requireAuth_eq_ok,
    checkedI128_eq_ok] at h
  obtain ⟨token, -, -, -, delta, ⟨-, rfl⟩, h⟩ := h
  by_cases hsame : oldBalance = newBalance
  · left
    rw [if_pos (by omega), pure_eq_ok] at h
    exact ⟨hsame, h.symm⟩
  · right
    rw [if_neg (by omega), bind_eq_ok] at h
    obtain ⟨adjusted, hadjusted, h⟩ := h
    have heq := adjustSubtreeWeight_eq_ok hadjusted
    subst heq
    refine ⟨hsame, ?_⟩
    cases hnext : s.delegate d with
    | none =>
      simp only [weighed, hnext, pure_eq_ok] at h
      exact .inl ⟨rfl, h.symm⟩
    | some next =>
      simp only [weighed, hnext] at h
      exact .inr ⟨next, rfl, h⟩

theorem exec_effect {call : Call Addr} (h : exec inv call s = .ok t) : Effect inv s t call := by
  cases call with
  | initializeDelegation admin mntToken =>
    simp only [exec, initializeDelegation, bind_eq_ok, pure_eq_ok] at h
    obtain ⟨-, -, rfl⟩ := h
    exact .configured rfl
  | setMaxDelegationDepth admin depth =>
    simp only [exec, setMaxDelegationDepth, bind_eq_ok, pure_eq_ok] at h
    obtain ⟨-, -, -, -, rfl⟩ := h
    exact .configured rfl
  | setDelegationPowerCapBps admin capBps =>
    simp only [exec, setDelegationPowerCapBps, bind_eq_ok, pure_eq_ok] at h
    obtain ⟨-, -, -, -, rfl⟩ := h
    exact .configured rfl
  | setDelegationSuspended admin suspended =>
    simp only [exec, setDelegationSuspended, bind_eq_ok, pure_eq_ok] at h
    obtain ⟨-, -, rfl⟩ := h
    exact .configured rfl
  | setSnapshotContract admin snapshotContract =>
    simp only [exec, setSnapshotContract, bind_eq_ok, pure_eq_ok] at h
    obtain ⟨-, -, rfl⟩ := h
    exact .configured rfl
  | delegate delegator target => exact delegate_effect h
  | undelegate delegator =>
    obtain ⟨hauth, hcases⟩ := undelegate_eq_ok h
    rcases hcases with ⟨-, heq⟩ | ⟨target, weight, hwas, -, hmoved⟩
    · rw [heq]
      exact .configured rfl
    · exact .undelegated hauth hwas (propagateWeightChange_reweighed hmoved)
  | invalidatePowerCache delegator oldBalance newBalance =>
    rcases invalidatePowerCache_eq_ok h with ⟨-, heq⟩ | ⟨-, ⟨-, heq⟩ | ⟨next, -, hmoved⟩⟩
    · rw [heq]
      exact .configured rfl
    · rw [heq]
      exact .reported rfl
    · have hlast := propagateWeightChange_reweighed hmoved
      exact .reported hlast
  | snapshotDelegations snapshotId =>
    simp only [exec, snapshotDelegations, bind_eq_ok] at h
    obtain ⟨-, -, h⟩ := h
    exact .snapshotTaken h

end DelegatedPower
