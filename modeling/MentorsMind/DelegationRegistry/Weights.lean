import MentorsMind.DelegationRegistry.Contract

/-! Delegations form a forest, and what the holders may vote with adds up to the weight of
those whose chains are at most `MAX_CHAIN_DEPTH` hops long, each counted once. What is
further from the end of its chain is dropped. -/
namespace DelegationRegistry
open Outcome Soroban

variable {Addr : Type} [DecidableEq Addr] {self : Addr} {inv : Invocation Addr self}
  {s t : State Addr} {id : ℕ}

/-- Every chain has an end, and the lists of delegators hold what the pointers say. -/
structure Sound (s : State Addr) : Prop where
  grounded : Forest.Grounded s.delegation
  nodup : ∀ d, (s.delegators d).Nodup
  mem_iff : ∀ d c, c ∈ s.delegators d ↔ s.delegation c = some d
  snapshot : s.admin ≠ none → s.snapshot ≠ none

omit [DecidableEq Addr] in
theorem deployed_sound : Sound (deployed Addr) where
  grounded x := ⟨x, Forest.Below.refl _ x, rfl⟩
  nodup _ := List.nodup_nil
  mem_iff _ _ := by simp [deployed]
  snapshot h := absurd rfl h

theorem unlink_delegation (s : State Addr) (delegator : Addr) :
    (unlink s delegator).delegation = Function.update s.delegation delegator none := by
  unfold unlink
  cases h : s.delegation delegator with
  | none => simp [← h]
  | some delegate => rfl

theorem unlink_admin (s : State Addr) (delegator : Addr) :
    (unlink s delegator).admin = s.admin ∧ (unlink s delegator).snapshot = s.snapshot := by
  unfold unlink
  cases s.delegation delegator with
  | none => exact ⟨rfl, rfl⟩
  | some delegate => exact ⟨rfl, rfl⟩

/-- Who leaves is in no list afterwards, and nobody else goes. -/
theorem unlink_delegators (hs : Sound s) (delegator d : Addr) :
    (unlink s delegator).delegators d = (s.delegators d).filter fun c => c ≠ delegator := by
  have hother : s.delegation delegator ≠ some d →
      (s.delegators d).filter (fun c => c ≠ delegator) = s.delegators d := by
    intro hne
    rw [List.filter_eq_self]
    intro c hc
    rw [decide_eq_true_eq]
    intro heq
    rw [heq, hs.mem_iff] at hc
    exact hne hc
  cases h : s.delegation delegator with
  | none =>
    rw [hother (by simp [h])]
    simp [unlink, h]
  | some delegate =>
    by_cases hd : d = delegate
    · simp [unlink, h, hd]
    · rw [hother (by simp [h, Ne.symm hd])]
      simp [unlink, h, hd]

theorem unlink_sound (hs : Sound s) (delegator : Addr) : Sound (unlink s delegator) := by
  constructor
  · rw [unlink_delegation]
    exact hs.grounded.unlink delegator
  · intro d
    rw [unlink_delegators hs]
    exact (hs.nodup d).filter _
  · intro d c
    rw [unlink_delegators hs, unlink_delegation, List.mem_filter, hs.mem_iff]
    by_cases hc : c = delegator
    · simp [hc]
    · simp [hc]
  · rw [(unlink_admin s delegator).1, (unlink_admin s delegator).2]
    exact hs.snapshot

/-- The walk of `require_acyclic` passes only when it reaches an end without meeting the
delegator. -/
theorem walkToEnd_eq_ok {delegator current : Addr} {n : ℕ} {u : Unit}
    (h : walkToEnd s delegator n current = .ok u) :
    ¬ Forest.Below s.delegation current delegator := by
  induction n generalizing current with
  | zero =>
    rw [walkToEnd] at h
    cases h
  | succ n ih =>
    rw [walkToEnd] at h
    by_cases hcurrent : current = delegator
    · rw [if_pos hcurrent] at h
      cases h
    · rw [if_neg hcurrent] at h
      intro hbelow
      obtain ⟨k, hk⟩ := hbelow
      cases hnext : s.delegation current with
      | none =>
        have heq := Forest.Below.eq_of_end ⟨k, hk⟩ hnext
        exact hcurrent heq.symm
      | some next =>
        rw [hnext] at h
        cases k with
        | zero => exact hcurrent (Option.some.inj hk)
        | succ k =>
          rw [Forest.climb_succ_of_some hnext] at hk
          exact ih h ⟨k, hk⟩

theorem delegate_spec {delegator target : Addr}
    (h : delegate inv s delegator target = .ok t) (hs : Sound s) :
    ¬ Forest.Below s.delegation target delegator ∧
      t = { s with
        delegation := Function.update s.delegation delegator (some target)
        delegators := Function.update (unlink s delegator).delegators target
          ((unlink s delegator).delegators target ++ [delegator]) } := by
  simp only [delegate, requireInitialized, requireAcyclic, bind_eq_ok, require_eq_ok,
    requireAuth_eq_ok, pure_eq_ok] at h
  obtain ⟨-, -, -, -, -, -, u, hwalk, heq⟩ := h
  have hgone : delegator ∉ (unlink s delegator).delegators target := by
    rw [(unlink_sound hs delegator).mem_iff, unlink_delegation, Function.update_self]
    simp
  have hkept := unlink_admin s delegator
  constructor
  · exact walkToEnd_eq_ok hwalk
  · rw [← heq, if_neg hgone, unlink_delegation, Function.update_idem, hkept.1, hkept.2]

theorem delegate_sound {delegator target : Addr} (hs : Sound s)
    (h : delegate inv s delegator target = .ok t) : Sound t := by
  obtain ⟨hfree, rfl⟩ := delegate_spec h hs
  have hfreed := unlink_sound hs delegator
  have hend : (unlink s delegator).delegation delegator = none := by
    rw [unlink_delegation, Function.update_self]
  have hlinked : Function.update s.delegation delegator (some target) =
      Function.update (unlink s delegator).delegation delegator (some target) := by
    rw [unlink_delegation, Function.update_idem]
  have hgone : delegator ∉ (unlink s delegator).delegators target := by
    rw [hfreed.mem_iff, hend]
    simp
  constructor
  · show Forest.Grounded (Function.update s.delegation delegator (some target))
    rw [hlinked]
    apply hfreed.grounded.link hend
    intro hbelow
    rw [unlink_delegation] at hbelow
    exact hfree hbelow.of_unlink
  · intro d
    show List.Nodup (Function.update (unlink s delegator).delegators target
      ((unlink s delegator).delegators target ++ [delegator]) d)
    by_cases hd : d = target
    · subst hd
      rw [Function.update_self]
      rw [← List.concat_eq_append]
      exact (hfreed.nodup d).concat hgone
    · rw [Function.update_of_ne hd]
      exact hfreed.nodup d
  · intro d c
    show c ∈ Function.update (unlink s delegator).delegators target
      ((unlink s delegator).delegators target ++ [delegator]) d ↔
        Function.update s.delegation delegator (some target) c = some d
    rw [hlinked]
    by_cases hc : c = delegator
    · subst hc
      rw [Function.update_self, Option.some.injEq]
      by_cases hd : d = target
      · simp [hd]
      · have hother : c ∉ (unlink s c).delegators d := by
          rw [hfreed.mem_iff, hend]
          simp
        rw [Function.update_of_ne hd]
        simp [hother, Ne.symm hd]
    · rw [Function.update_of_ne hc]
      by_cases hd : d = target
      · subst hd
        simp [hfreed.mem_iff, hc]
      · rw [Function.update_of_ne hd]
        exact hfreed.mem_iff d c
  · exact hs.snapshot

theorem exec_sound (step : Step Addr self) (s t : State Addr) (hs : Sound s)
    (h : (machine self).exec step s = .ok t) : Sound t := by
  obtain ⟨inv, call⟩ := step
  cases call with
  | initializeRegistry admin snapshotContract =>
    simp only [machine, exec, initializeRegistry, bind_eq_ok, require_eq_ok, pure_eq_ok] at h
    obtain ⟨-, -, rfl⟩ := h
    exact ⟨hs.grounded, hs.nodup, hs.mem_iff, fun _ => by simp⟩
  | delegate delegator target => exact delegate_sound hs h
  | revoke delegator =>
    simp only [machine, exec, revoke, bind_eq_ok, require_eq_ok, requireAuth_eq_ok,
      pure_eq_ok] at h
    obtain ⟨-, -, -, -, -, -, rfl⟩ := h
    exact unlink_sound hs delegator

theorem run_sound (steps : List (Step Addr self)) : Sound (reached steps) :=
  Machine.run_invariant deployed_sound exec_sound steps

section Resolution

variable {base : Addr → ℤ} (hs : Sound s) (hfinite : (Function.support base).Finite)
  (hbase : ∀ holder, inv.votingPower id holder = some (base holder))
include hs hfinite hbase

omit [DecidableEq Addr] hs hfinite in
theorem getBaseWeight_eq_ok {holder : Addr} {r : ℤ}
    (h : getBaseWeight inv s id holder = .ok r) : r = base holder := by
  simp only [getBaseWeight, bind_eq_ok, expect_eq_ok, hbase] at h
  obtain ⟨-, -, -, -, h⟩ := h
  exact (Option.some.inj h).symm

omit [DecidableEq Addr] hfinite in
theorem getBaseWeight_isOk (hinitialized : s.admin ≠ none) (holder : Addr) :
    getBaseWeight inv s id holder = .ok (base holder) := by
  obtain ⟨snapshot, hsnapshot⟩ := Option.ne_none_iff_exists'.mp (hs.snapshot hinitialized)
  simp only [getBaseWeight, requireInitialized, bind_eq_ok, require_eq_ok, expect_eq_ok, hbase]
  exact ⟨(), hinitialized, snapshot, hsnapshot, trivial⟩

omit hbase in
/-- What a holder's delegators contribute, and theirs, as far as `hops` levels down. -/
theorem sum_contributions (hops : ℕ) (holder : Addr) :
    ((s.delegators holder).map fun c =>
        ∑ k ∈ Finset.range (hops + 1), Forest.levelSum s.delegation base k c).sum =
      ∑ k ∈ Finset.range (hops + 1), Forest.levelSum s.delegation base (k + 1) holder := by
  rw [← List.sum_toFinset _ (hs.nodup holder), Finset.sum_comm]
  apply Finset.sum_congr rfl
  intro k _
  rw [List.sum_toFinset _ (hs.nodup holder),
    Forest.levelSum_succ hfinite (hs.nodup holder) (hs.mem_iff holder) k]

theorem resolve_eq_ok {hops : ℕ} {holder : Addr} {r : ℤ}
    (h : resolve inv s id hops holder = .ok r) :
    r = ∑ k ∈ Finset.range hops, Forest.levelSum s.delegation base (k + 1) holder := by
  induction hops generalizing holder r with
  | zero =>
    rw [resolve, pure_eq_ok] at h
    rw [← h, Finset.range_zero, Finset.sum_empty]
  | succ hops ih =>
    rw [resolve] at h
    rw [← sum_contributions hs hfinite]
    apply foldlM_induction (P := fun visited total => total = (visited.map fun c =>
      ∑ k ∈ Finset.range (hops + 1), Forest.levelSum s.delegation base k c).sum) _ _ h
    · rfl
    · intro visited c rest total d _ htotal hround
      simp only [bind_eq_ok, checkedI128_eq_ok] at hround
      obtain ⟨weight, hweight, below, hbelow, contributed, ⟨-, rfl⟩, -, rfl⟩ := hround
      rw [List.map_append, List.sum_append, ← htotal, List.map_singleton, List.sum_singleton,
        getBaseWeight_eq_ok hbase hweight, ih hbelow, Finset.sum_range_succ',
        Forest.levelSum_zero, add_comm (base c)]

/-- Nothing overflows while all holders together weigh an `i128`. -/
theorem resolve_isOk (hinitialized : s.admin ≠ none) (hnonneg : ∀ holder, 0 ≤ base holder)
    (hfits : ∑ᶠ holder, base holder < 2 ^ 127) (hops : ℕ) (holder : Addr) :
    ∃ r, resolve inv s id hops holder = .ok r := by
  have hsum : ∀ n z, ∑ k ∈ Finset.range n, Forest.levelSum s.delegation base k z < 2 ^ 127 :=
    fun n z => (Forest.sum_levelSum_le hs.grounded hfinite hnonneg n z).trans_lt hfits
  induction hops generalizing holder with
  | zero => exact ⟨0, rfl⟩
  | succ hops ih =>
    have hwhole : ((s.delegators holder).map fun c =>
        ∑ k ∈ Finset.range (hops + 1), Forest.levelSum s.delegation base k c).sum < 2 ^ 127 := by
      have hall := hsum (hops + 2) holder
      rw [Finset.sum_range_succ', Forest.levelSum_zero] at hall
      have hself := hnonneg holder
      rw [sum_contributions hs hfinite]
      omega
    have hcontribution : ∀ c, 0 ≤ ∑ k ∈ Finset.range (hops + 1),
        Forest.levelSum s.delegation base k c :=
      fun c => Finset.sum_nonneg fun k _ => Forest.levelSum_nonneg hnonneg k c
    have hpart : ∀ cs : List Addr, 0 ≤ (cs.map fun c => ∑ k ∈ Finset.range (hops + 1),
        Forest.levelSum s.delegation base k c).sum := by
      intro cs
      apply List.sum_nonneg
      intro x hx
      obtain ⟨c, -, rfl⟩ := List.mem_map.mp hx
      exact hcontribution c
    have hloop : ∃ r, resolve inv s id (hops + 1) holder = .ok r ∧
        r = ((s.delegators holder).map fun c =>
          ∑ k ∈ Finset.range (hops + 1), Forest.levelSum s.delegation base k c).sum := by
      rw [resolve]
      apply foldlM_isOk (P := fun visited total => total = (visited.map fun c =>
        ∑ k ∈ Finset.range (hops + 1), Forest.levelSum s.delegation base k c).sum) rfl
      intro visited c rest total heq htotal
      obtain ⟨below, hbelow⟩ := ih c
      have hvalue : base c + below =
          ∑ k ∈ Finset.range (hops + 1), Forest.levelSum s.delegation base k c := by
        rw [resolve_eq_ok hs hfinite hbase hbelow, Finset.sum_range_succ', Forest.levelSum_zero,
          add_comm]
      have hnext : total + (base c + below) = ((visited ++ [c]).map fun c =>
          ∑ k ∈ Finset.range (hops + 1), Forest.levelSum s.delegation base k c).sum := by
        rw [htotal, hvalue, List.map_append, List.sum_append, List.map_singleton,
          List.sum_singleton]
      have hone := hsum (hops + 1) c
      have hpos := hcontribution c
      have hdone := hpart (visited ++ [c])
      have hrest := hpart rest
      have hlt := hwhole
      rw [heq, List.append_cons, List.map_append, List.sum_append] at hlt
      refine ⟨total + (base c + below), ?_, hnext⟩
      simp only [bind_eq_ok, checkedI128_eq_ok]
      refine ⟨base c, getBaseWeight_isOk hs hbase hinitialized c, below, hbelow, base c + below,
        ⟨⟨?_, ?_⟩, rfl⟩, ⟨?_, ?_⟩, rfl⟩ <;> omega
    obtain ⟨r, hr, -⟩ := hloop
    exact ⟨r, hr⟩

/-- Who delegated away votes with nothing, and anybody else with what the first levels of his
delegators add to his own weight. -/
theorem getVotingWeight_eq_ok {holder : Addr} {r : ℤ}
    (h : getVotingWeight inv s id holder = .ok r) :
    r = if s.delegation holder = none then
      ∑ k ∈ Finset.range (maxChainDepth + 1), Forest.levelSum s.delegation base k holder
      else 0 := by
  simp only [getVotingWeight, bind_eq_ok] at h
  obtain ⟨-, -, h⟩ := h
  by_cases hend : s.delegation holder = none
  · rw [if_neg (not_not.mpr hend)] at h
    simp only [bind_eq_ok, checkedI128_eq_ok] at h
    obtain ⟨weight, hweight, delegated, hdelegated, -, hr⟩ := h
    rw [if_pos hend, ← hr, getBaseWeight_eq_ok hbase hweight,
      resolve_eq_ok hs hfinite hbase hdelegated, Finset.sum_range_succ', Forest.levelSum_zero,
      add_comm]
  · rw [if_pos hend, pure_eq_ok] at h
    rw [if_neg hend, h]

theorem getVotingWeight_isOk (hinitialized : s.admin ≠ none)
    (hnonneg : ∀ holder, 0 ≤ base holder) (hfits : ∑ᶠ holder, base holder < 2 ^ 127)
    (holder : Addr) : ∃ r, getVotingWeight inv s id holder = .ok r := by
  by_cases hend : s.delegation holder = none
  · obtain ⟨delegated, hdelegated⟩ :=
      resolve_isOk hs hfinite hbase hinitialized hnonneg hfits maxChainDepth holder
    have hvalue : base holder + delegated =
        ∑ k ∈ Finset.range (maxChainDepth + 1), Forest.levelSum s.delegation base k holder := by
      rw [resolve_eq_ok hs hfinite hbase hdelegated, Finset.sum_range_succ',
        Forest.levelSum_zero, add_comm]
    have hle := Forest.sum_levelSum_le hs.grounded hfinite hnonneg (maxChainDepth + 1) holder
    have hpos : 0 ≤ ∑ k ∈ Finset.range (maxChainDepth + 1),
        Forest.levelSum s.delegation base k holder :=
      Finset.sum_nonneg fun k _ => Forest.levelSum_nonneg hnonneg k holder
    exists base holder + delegated
    simp only [getVotingWeight, requireInitialized, bind_eq_ok, require_eq_ok, if_neg (not_not.mpr hend),
      checkedI128_eq_ok]
    refine ⟨(), hinitialized, base holder, getBaseWeight_isOk hs hbase hinitialized holder,
      delegated, hdelegated, ⟨?_, ?_⟩, rfl⟩ <;> omega
  · exists 0
    simp only [getVotingWeight, requireInitialized, bind_eq_ok, require_eq_ok, if_pos hend,
      pure_eq_ok]
    exact ⟨(), hinitialized, trivial⟩

end Resolution

/-- No chain of delegations returns to where it started, and all weights together are the
base weights of the holders whose chains have at most `MAX_CHAIN_DEPTH` hops, each once. While
the base weights fit in an `i128` every weight is answered. -/
theorem reached_weights (steps : List (Step Addr self)) :
    (∀ n holder, Forest.climb (reached steps).delegation (n + 1) holder ≠ some holder) ∧
      ∀ (inv : Invocation Addr self) (id : ℕ) (base : Addr → ℤ),
        (Function.support base).Finite →
        (∀ holder, inv.votingPower id holder = some (base holder)) →
        (∀ weight : Addr → ℤ,
            (∀ holder, getVotingWeight inv (reached steps) id holder = .ok (weight holder)) →
            ∑ᶠ holder, weight holder =
              ∑ᶠ holder ∈ {x | Forest.Shallow (reached steps).delegation maxChainDepth x},
                base holder) ∧
          ((reached steps).admin ≠ none → (∀ holder, 0 ≤ base holder) →
            ∑ᶠ holder, base holder < 2 ^ 127 →
            ∃ weight : Addr → ℤ,
              ∀ holder, getVotingWeight inv (reached steps) id holder = .ok (weight holder)) := by
  have hs := run_sound steps
  constructor
  · intro n holder
    exact hs.grounded.climb_succ_ne n holder
  · intro inv id base hfinite hbase
    constructor
    · intro weight hweight
      have hvalue := fun holder => getVotingWeight_eq_ok hs hfinite hbase (hweight holder)
      classical
      rw [finsum_congr hvalue, Forest.finsum_levelSum hfinite, finsum_mem_def]
      apply finsum_congr
      intro holder
      rw [Set.indicator_apply]
      congr
    · intro hinitialized hnonneg hfits
      choose weight hweight using
        getVotingWeight_isOk hs hfinite hbase hinitialized hnonneg hfits
      exact ⟨weight, hweight⟩

/-- Ten holders of ten each, every one delegating to the next. The walk looks up from the
target only and each time finds an end at once, while the chain below grows to nine hops. -/
def chainRun : List (Step ℕ 0) :=
  (tenEach, .initializeRegistry 20 21) ::
    (List.range 9).map fun k => (tenEach, .delegate (k + 1) (k + 2))

/-- The pointers and the lists after the last delegation. -/
theorem chainRun_links :
    (reached chainRun).delegation =
        (List.range 9).foldl (fun (links : ℕ → Option ℕ) k =>
          Function.update links (k + 1) (some (k + 2))) (fun _ => none) ∧
      (reached chainRun).delegators =
        (List.range 9).foldl (fun (lists : ℕ → List ℕ) k =>
          Function.update lists (k + 2) [k + 1]) (fun _ => []) :=
  ⟨rfl, rfl⟩

/-- One holder of the ten is the end of the chain and votes with ninety. -/
theorem chainRun_weight (holder : ℕ) :
    getVotingWeight tenEach (reached chainRun) 7 holder =
      .ok (if holder = 10 then 90 else 0) := by
  by_cases hnear : holder ≤ 10
  · interval_cases holder <;> decide
  · have hne : ∀ n ≤ 10, holder ≠ n := by omega
    have hend : (reached chainRun).delegation holder = none := by
      rw [chainRun_links.1]
      simp [List.range, List.range.loop, hne]
    have hnone : (reached chainRun).delegators holder = [] := by
      rw [chainRun_links.2]
      simp [List.range, List.range.loop, hne]
    have hbase : getBaseWeight tenEach (reached chainRun) 7 holder = .ok 0 := by
      simp only [getBaseWeight, requireInitialized, bind_eq_ok, require_eq_ok, expect_eq_ok]
      refine ⟨(), by decide, 21, rfl, ?_⟩
      simp [tenEach, hnear]
    have hdelegated : resolve tenEach (reached chainRun) 7 maxChainDepth holder = .ok 0 := by
      rw [maxChainDepth, resolve, hnone]
      rfl
    have hother : holder ≠ 10 := by omega
    rw [getVotingWeight, hbase, hend, hdelegated, if_neg hother]
    rfl

/-- What the ten weigh, and nobody else. -/
def tens (holder : ℕ) : ℤ := if holder ∈ Finset.Icc 1 10 then 10 else 0

theorem tens_support : Function.support tens ⊆ ↑(Finset.Icc 1 10) := by
  intro holder hweighs
  rw [Function.mem_support] at hweighs
  by_contra hout
  exact hweighs (if_neg hout)

theorem finsum_tens : ∑ᶠ holder, tens holder = 100 := by
  rw [finsum_eq_sum_of_support_subset tens tens_support]
  decide

/-- The first holder is nine hops below the last, and his weight is nowhere. -/
theorem chainRun_drops :
    Forest.EndsAfter (reached chainRun).delegation (maxChainDepth + 1) 1 10 ∧
      (∀ holder, tenEach.votingPower 7 holder = some (tens holder)) ∧
      ∑ᶠ holder, tens holder = 100 ∧
      ∃ weight : ℕ → ℤ,
        (∀ holder, getVotingWeight tenEach (reached chainRun) 7 holder = .ok (weight holder)) ∧
          ∑ᶠ holder, weight holder = 90 := by
  refine ⟨⟨by decide, by decide⟩, fun _ => rfl, finsum_tens, _, chainRun_weight, ?_⟩
  rw [finsum_eq_single _ 10]
  · rfl
  · intro holder hother
    exact if_neg hother

/-- The ninety are the tens of the nine holders whose chains are short enough. -/
theorem chainRun_weights :
    (∀ n holder, Forest.climb (reached chainRun).delegation (n + 1) holder ≠ some holder) ∧
      (∃ weight : ℕ → ℤ,
        ∀ holder, getVotingWeight tenEach (reached chainRun) 7 holder = .ok (weight holder)) ∧
      ∑ᶠ holder, (if holder = 10 then 90 else 0) =
        ∑ᶠ holder ∈ {x | Forest.Shallow (reached chainRun).delegation maxChainDepth x},
          tens holder := by
  have hrun := reached_weights chainRun
  have hfinite : (Function.support tens).Finite :=
    (Finset.finite_toSet (Finset.Icc 1 10)).subset tens_support
  have hbase := hrun.2 tenEach 7 tens hfinite fun _ => rfl
  have hnonneg : ∀ holder, 0 ≤ tens holder := by
    intro holder
    unfold tens
    split_ifs <;> decide
  have hfits : ∑ᶠ holder, tens holder < 2 ^ 127 := by
    rw [finsum_tens]
    decide
  constructor
  · exact hrun.1
  · constructor
    · exact hbase.2 (by decide) hnonneg hfits
    · exact hbase.1 _ chainRun_weight

end DelegationRegistry
