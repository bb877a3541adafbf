import MentorsMind.DelegatedPower.Effects
import MentorsMind.Lib.Poll

/-! The snapshots of delegations. Anybody may take one at any time under any id, and what is
delegated then is added to what the id has already. A snapshot stays what it was exactly as long
as no later one under its id finds a delegator with a balance. -/
namespace DelegatedPower
open Outcome Soroban

variable {Addr : Type} [DecidableEq Addr] {home : Addr} {inv : Invocation Addr home}
  {s t : State Addr} {call : Call Addr} {id : ℕ} {a d : Addr}

/-- The list of delegators has everybody who delegates, once. -/
structure Listed (s : State Addr) : Prop where
  nodup : s.delegators.Nodup
  mem_iff : ∀ a, a ∈ s.delegators ↔ s.delegate a ≠ none

omit [DecidableEq Addr] in
theorem listed_deployed : Listed (deployed Addr) where
  nodup := List.nodup_nil
  mem_iff a := by simp [deployed]

/-- What the balance of a delegator adds to the power of its delegate. -/
def snapshotWeight (inv : Invocation Addr home) (id : ℕ) (a : Addr) : ℤ :=
  max ((inv.snapshotBalance id a).getD 0) 0

/-- What the listed delegators add to the power of `d`. -/
def gathered (inv : Invocation Addr home) (s : State Addr) (id : ℕ) (d : Addr)
    (delegators : List Addr) : ℤ :=
  (delegators.map fun a => if s.delegate a = some d then snapshotWeight inv id a else 0).sum

section Taking

/-- One round of the loop, for a delegator who has a delegate. -/
theorem snapshotDelegator_eq_ok (h : snapshotDelegator inv id s a = .ok t)
    (hdelegate : s.delegate a = some d) : t = { s with
      delegationAtSnapshot := Function.update s.delegationAtSnapshot (id, a) (some d)
      delegationSnapshot := Function.update s.delegationSnapshot (id, d)
        (s.delegationSnapshot (id, d) + snapshotWeight inv id a) } := by
  simp only [snapshotDelegator, hdelegate, bind_eq_ok, expect_eq_ok] at h
  obtain ⟨balance, hbalance, h⟩ := h
  have hweight : snapshotWeight inv id a = max balance 0 := by
    rw [snapshotWeight, hbalance, Option.getD_some]
  rw [hweight]
  split_ifs at h with hpos
  · simp only [bind_eq_ok, checkedI128_eq_ok, pure_eq_ok] at h
    obtain ⟨power, ⟨-, rfl⟩, rfl⟩ := h
    rw [max_eq_left hpos.le]
  · rw [pure_eq_ok] at h
    rw [max_eq_right (not_lt.mp hpos), add_zero, Function.update_eq_self, ← h]

/-- What has become of the state `s` when the loop has visited some of the delegators. -/
structure Taken (inv : Invocation Addr home) (id : ℕ) (s : State Addr) (visited : List Addr)
    (t : State Addr) : Prop where
  frame : t = { s with
    delegationAtSnapshot := t.delegationAtSnapshot
    delegationSnapshot := t.delegationSnapshot }
  delegate : ∀ a, t.delegationAtSnapshot (id, a) =
    if a ∈ visited then (s.delegate a).or (s.delegationAtSnapshot (id, a))
    else s.delegationAtSnapshot (id, a)
  power : ∀ d, t.delegationSnapshot (id, d) =
    s.delegationSnapshot (id, d) + gathered inv s id d visited
  others : ∀ key, key.1 ≠ id → t.delegationAtSnapshot key = s.delegationAtSnapshot key ∧
    t.delegationSnapshot key = s.delegationSnapshot key

theorem taken_of_foldlM {delegators : List Addr}
    (h : delegators.foldlM (snapshotDelegator inv id) s = .ok t) : Taken inv id s delegators t := by
  apply foldlM_induction (P := Taken inv id s) _ _ h
  · constructor
    · rfl
    · intro a
      simp
    · intro d
      simp [gathered]
    · intro key _
      exact ⟨rfl, rfl⟩
  · intro visited a rest u v _ hu hround
    have hsame : u.delegate a = s.delegate a := by
      rw [hu.frame]
    have hgathered : ∀ d, gathered inv s id d (visited ++ [a]) = gathered inv s id d visited +
        if s.delegate a = some d then snapshotWeight inv id a else 0 := by
      intro d
      rw [gathered, List.map_append, List.sum_append]
      simp [gathered]
    cases hdelegate : s.delegate a with
    | none =>
      rw [hdelegate] at hsame
      simp only [snapshotDelegator, hsame, pure_eq_ok] at hround
      subst hround
      constructor
      · exact hu.frame
      · intro b
        rw [hu.delegate]
        by_cases hb : b = a
        · rw [hb, hdelegate]
          simp
        · simp [hb]
      · intro d
        rw [hu.power, hgathered, hdelegate]
        simp
      · exact hu.others
    | some d =>
      rw [hdelegate] at hsame
      rw [snapshotDelegator_eq_ok hround hsame]
      constructor
      · rw [hu.frame]
      · intro b
        show Function.update u.delegationAtSnapshot (id, a) (some d) (id, b) = _
        by_cases hb : b = a
        · rw [hb, Function.update_self, hdelegate]
          simp
        · have hne : (id, b) ≠ (id, a) := by simp [hb]
          rw [Function.update_of_ne hne, hu.delegate]
          simp [hb]
      · intro x
        show Function.update u.delegationSnapshot (id, d) _ (id, x) = _
        rw [hgathered, hdelegate]
        by_cases hx : x = d
        · rw [hx, Function.update_self, hu.power, if_pos rfl, add_assoc]
        · have hne : (id, x) ≠ (id, d) := by simp [hx]
          have hother : some d ≠ some x := by simp [Ne.symm hx]
          rw [Function.update_of_ne hne, hu.power, if_neg hother, add_zero]
      · intro key hkey
        have hne : ∀ x, key ≠ (id, x) := by
          rintro x rfl
          exact hkey rfl
        obtain ⟨hat, hpower⟩ := hu.others key hkey
        constructor
        · exact (Function.update_of_ne (hne a) _ _).trans hat
        · exact (Function.update_of_ne (hne d) _ _).trans hpower

omit [DecidableEq Addr] in
theorem snapshotWeight_nonneg (inv : Invocation Addr home) (id : ℕ) (a : Addr) :
    0 ≤ snapshotWeight inv id a := le_max_right _ _

/-- A delegator with a balance adds to the power of its delegate. -/
theorem gathered_pos {delegators : List Addr} (hmem : a ∈ delegators)
    (hdelegate : s.delegate a = some d) (hweighs : 0 < snapshotWeight inv id a) :
    0 < gathered inv s id d delegators := by
  have hterm : (if s.delegate a = some d then snapshotWeight inv id a else 0) ≤
      gathered inv s id d delegators := by
    apply List.single_le_sum
    · intro x hx
      obtain ⟨b, -, rfl⟩ := List.mem_map.mp hx
      split_ifs
      · exact snapshotWeight_nonneg inv id b
      · exact le_rfl
    · exact List.mem_map_of_mem (f := fun a =>
        if s.delegate a = some d then snapshotWeight inv id a else 0) hmem
  rw [if_pos hdelegate] at hterm
  exact hweighs.trans_le hterm

theorem gathered_eq_zero {delegators : List Addr}
    (hnone : ∀ a ∈ delegators, s.delegate a ≠ none → snapshotWeight inv id a = 0) :
    gathered inv s id d delegators = 0 := by
  apply List.sum_eq_zero
  intro x hx
  obtain ⟨a, ha, rfl⟩ := List.mem_map.mp hx
  split_ifs with hdelegate
  · apply hnone a ha
    rw [hdelegate]
    exact Option.some_ne_none d
  · rfl

end Taking

/-- What is left alone by all calls but a snapshot under the id. -/
theorem Effect.snapshot_kept (h : Effect inv s t call) (hother : call ≠ .snapshotDelegations id) :
    (∀ a, t.delegationAtSnapshot (id, a) = s.delegationAtSnapshot (id, a)) ∧
      ∀ d, t.delegationSnapshot (id, d) = s.delegationSnapshot (id, d) := by
  cases h with
  | configured eq =>
    rw [eq]
    exact ⟨fun _ => rfl, fun _ => rfl⟩
  | delegated auth eq =>
    rw [eq]
    exact ⟨fun _ => rfl, fun _ => rfl⟩
  | undelegated auth was eq =>
    rw [eq]
    exact ⟨fun _ => rfl, fun _ => rfl⟩
  | reported eq =>
    rw [eq]
    exact ⟨fun _ => rfl, fun _ => rfl⟩
  | @snapshotTaken snapshotId eq =>
    have hid : id ≠ snapshotId := by
      rintro rfl
      exact hother rfl
    have htaken := taken_of_foldlM eq
    exact ⟨fun a => (htaken.others (id, a) hid).1, fun d => (htaken.others (id, d) hid).2⟩

theorem Effect.listed (h : Effect inv s t call) (hs : Listed s) : Listed t := by
  cases h with
  | configured eq =>
    rw [eq]
    exact ⟨hs.nodup, hs.mem_iff⟩
  | @delegated delegator target auth eq =>
    rw [eq]
    constructor
    · show (if delegator ∈ s.delegators then s.delegators
        else s.delegators ++ [delegator]).Nodup
      split_ifs with hmem
      · exact hs.nodup
      · rw [← List.concat_eq_append]
        exact hs.nodup.concat hmem
    · intro a
      show a ∈ (if delegator ∈ s.delegators then s.delegators
        else s.delegators ++ [delegator]) ↔
          Function.update s.delegate delegator (some target) a ≠ none
      by_cases ha : a = delegator
      · rw [ha, Function.update_self]
        apply iff_of_true _ (Option.some_ne_none target)
        split_ifs with hmem
        · exact hmem
        · simp
      · rw [Function.update_of_ne ha, ← hs.mem_iff]
        split_ifs
        · rfl
        · simp [ha]
  | @undelegated delegator target auth was eq =>
    rw [eq]
    constructor
    · exact hs.nodup.erase delegator
    · intro a
      show a ∈ s.delegators.erase delegator ↔
        Function.update s.delegate delegator none a ≠ none
      rw [hs.nodup.mem_erase_iff, hs.mem_iff]
      by_cases ha : a = delegator
      · simp [ha]
      · simp [ha]
  | reported eq =>
    rw [eq]
    exact ⟨hs.nodup, hs.mem_iff⟩
  | snapshotTaken eq =>
    rw [(taken_of_foldlM eq).frame]
    exact ⟨hs.nodup, hs.mem_iff⟩

theorem run_listed (steps : List (Step Addr home)) : Listed (reached steps) :=
  Machine.run_invariant listed_deployed (fun _ _ _ hs hx => (exec_effect hx).listed hs) steps

/-- The sum of the balances of those whose delegate is `d`, as the snapshot contract answers. -/
noncomputable def delegatedBalance (delegateAt : Addr → Option Addr) (inv : Invocation Addr home)
    (id : ℕ) (d : Addr) : ℤ :=
  Poll.tally delegateAt (fun a => (inv.snapshotBalance id a).getD 0) d

/-- Summed up over the list, the delegators are counted once each. -/
theorem gathered_eq (hs : Listed s) (hstakes : ∀ a b, inv.snapshotBalance id a = some b → 0 ≤ b)
    (d : Addr) : gathered inv s id d s.delegators = delegatedBalance s.delegate inv id d := by
  have hweight : ∀ a, snapshotWeight inv id a = (inv.snapshotBalance id a).getD 0 := by
    intro a
    apply max_eq_left
    cases hbalance : inv.snapshotBalance id a with
    | none => exact le_rfl
    | some balance => exact hstakes a balance hbalance
  have hsupport : (Function.support fun a => if s.delegate a = some d then
      (inv.snapshotBalance id a).getD 0 else 0) ⊆ s.delegators.toFinset := by
    intro a ha
    rw [List.coe_toFinset]
    apply (hs.mem_iff a).mpr
    intro hnone
    exact ha (if_neg (by simp [hnone]))
  rw [delegatedBalance, Poll.tally, finsum_eq_sum_of_support_subset _ hsupport,
    List.sum_toFinset _ hs.nodup]
  simp only [gathered, hweight]

section Runs

variable {steps pre : List (Step Addr home)}

/-- Nothing is recorded under the id. -/
structure Unrecorded (s : State Addr) (id : ℕ) : Prop where
  delegate : ∀ a, s.delegationAtSnapshot (id, a) = none
  power : ∀ d, s.delegationSnapshot (id, d) = 0

theorem run_unrecorded (hnone : ∀ early step u,
      (machine home).Executes (deployed Addr) steps early step u →
        step.2 ≠ .snapshotDelegations id) : Unrecorded (reached steps) id := by
  have hfresh : Unrecorded (deployed Addr) id := ⟨fun _ => rfl, fun _ => rfl⟩
  apply Machine.run_invariant_of_executes (M := machine home) (P := fun s => Unrecorded s id)
    hfresh _ steps List.prefix_rfl
  intro early step u hx hs
  obtain ⟨hat, hpower⟩ := (exec_effect hx.exec_eq).snapshot_kept (hnone early step u hx)
  constructor
  · intro a
    rw [hat]
    exact hs.delegate a
  · intro d
    rw [hpower]
    exact hs.power d

theorem snapshotDelegations_taken (h : exec inv (.snapshotDelegations id) s = .ok t) :
    Taken inv id s s.delegators t := by
  simp only [exec, snapshotDelegations, bind_eq_ok] at h
  obtain ⟨-, -, h⟩ := h
  exact taken_of_foldlM h

/-- A snapshot fails unless the balance of everybody who delegates is answered. -/
theorem answered (h : exec inv (.snapshotDelegations id) s = .ok t) (hs : Listed s)
    (hdelegates : s.delegate a ≠ none) : inv.snapshotBalance id a ≠ none := by
  simp only [exec, snapshotDelegations, bind_eq_ok] at h
  obtain ⟨-, -, h⟩ := h
  have hall := foldlM_induction (P := fun visited u => u.delegate = s.delegate ∧
    ∀ a ∈ visited, s.delegate a ≠ none → inv.snapshotBalance id a ≠ none) ⟨rfl, by simp⟩ ?_ h
  · exact hall.2 a ((hs.mem_iff a).mpr hdelegates) hdelegates
  · intro visited b rest u v _ hu hround
    obtain ⟨hsame, hvisited⟩ := hu
    cases hdelegate : u.delegate b with
    | none =>
      simp only [snapshotDelegator, hdelegate, pure_eq_ok] at hround
      subst hround
      refine ⟨hsame, ?_⟩
      intro a ha hdelegates
      rcases List.mem_append.mp ha with hold | hnew
      · exact hvisited a hold hdelegates
      · obtain rfl := List.mem_singleton.mp hnew
        rw [← hsame] at hdelegates
        exact absurd hdelegate hdelegates
    | some d =>
      have hv := snapshotDelegator_eq_ok hround hdelegate
      refine ⟨?_, ?_⟩
      · rw [hv]
        exact hsame
      · intro a ha hdelegates
        rcases List.mem_append.mp ha with hold | hnew
        · exact hvisited a hold hdelegates
        · obtain rfl := List.mem_singleton.mp hnew
          simp only [snapshotDelegator, hdelegate, bind_eq_ok, expect_eq_ok] at hround
          obtain ⟨balance, hbalance, -⟩ := hround
          rw [hbalance]
          exact Option.some_ne_none balance

/-- A snapshot under an id that has none records the delegations and balances of the moment. -/
theorem snapshot_first (h : exec inv (.snapshotDelegations id) s = .ok t) (hs : Listed s)
    (hfresh : Unrecorded s id) (hstakes : ∀ a b, inv.snapshotBalance id a = some b → 0 ≤ b) :
    (∀ a, t.delegationAtSnapshot (id, a) = s.delegate a) ∧
      ∀ d, t.delegationSnapshot (id, d) =
        delegatedBalance (getDelegationAtSnapshot t id) inv id d := by
  have htaken := snapshotDelegations_taken h
  have hat : ∀ a, t.delegationAtSnapshot (id, a) = s.delegate a := by
    intro a
    rw [htaken.delegate, hfresh.delegate, Option.or_none]
    split_ifs with hmem
    · rfl
    · by_contra hne
      exact hmem ((hs.mem_iff a).mpr (Ne.symm hne))
  have hdelegates : getDelegationAtSnapshot t id = s.delegate := funext hat
  constructor
  · exact hat
  · intro d
    rw [htaken.power, hfresh.power, zero_add, gathered_eq hs hstakes, hdelegates]

/-- A snapshot is immutable exactly as long as no later one under its id finds a delegator who
has a balance in the snapshot. -/
theorem run_immutable_iff (steps pre : List (Step Addr home)) (inv : Invocation Addr home)
    (id : ℕ) (t : State Addr)
    (hx : (machine home).Executes (deployed Addr) steps pre (inv, .snapshotDelegations id) t)
    (hfirst : ∀ early step u, (machine home).Executes (deployed Addr) steps early step u →
      early.length < pre.length → step.2 ≠ .snapshotDelegations id)
    (hstakes : ∀ a b, inv.snapshotBalance id a = some b → 0 ≤ b) :
    (∀ later, pre ++ [(inv, .snapshotDelegations id)] <+: later → later <+: steps →
        ∀ d, getDelegatedPowerAtSnapshot (reached later) d id =
          delegatedBalance (getDelegationAtSnapshot t id) inv id d) ↔
      ∀ later inv' u, (machine home).Executes (deployed Addr) steps later
        (inv', .snapshotDelegations id) u → pre.length < later.length →
          ∀ a, (reached later).delegate a ≠ none → (inv'.snapshotBalance id a).getD 0 ≤ 0 := by
  have hexec : exec inv (.snapshotDelegations id) (reached pre) = .ok t := hx.exec_eq
  have hfresh : Unrecorded (reached pre) id := by
    apply run_unrecorded
    intro early step u hu
    have hprefix : pre <+: steps := (List.prefix_append pre [_]).trans hx.snoc_prefix
    exact hfirst early step u (hu.mono hprefix) hu.length_lt
  obtain ⟨-, htaken⟩ := snapshot_first hexec (run_listed pre) hfresh hstakes
  constructor
  · intro hconstant later inv' u hu hlt a hdelegates
    have hafter : pre ++ [(inv, .snapshotDelegations id)] <+: later := by
      apply List.prefix_of_prefix_length_le hx.snoc_prefix
        ((List.prefix_append later [_]).trans hu.snoc_prefix)
      rw [List.length_append, List.length_singleton]
      exact hlt
    obtain ⟨d, hd⟩ := Option.ne_none_iff_exists'.mp hdelegates
    have hbefore := hconstant later hafter ((List.prefix_append later [_]).trans hu.snoc_prefix) d
    have hagain := hconstant (later ++ [(inv', .snapshotDelegations id)])
      (hafter.trans (List.prefix_append later _)) hu.snoc_prefix d
    have hpower := (snapshotDelegations_taken hu.exec_eq).power d
    have hsum : gathered inv' (reached later) id d (reached later).delegators = 0 := by
      rw [reached, hu.run_eq] at hagain
      unfold getDelegatedPowerAtSnapshot at hbefore hagain
      rw [hbefore, hagain] at hpower
      linarith only [hpower]
    by_contra hweighs
    have hpos := gathered_pos (((run_listed later).mem_iff a).mpr hdelegates) hd
      (lt_max_of_lt_left (not_le.mp hweighs))
    exact absurd hsum hpos.ne'
  · intro hnone later hsince hlater d
    refine hx.kept (D := fun s => ∀ d, s.delegationSnapshot (id, d) =
      delegatedBalance (getDelegationAtSnapshot t id) inv id d) htaken ?_ later hsince hlater d
    intro mid step u hu hmid d
    by_cases htakes : step.2 = .snapshotDelegations id
    · obtain ⟨inv', call⟩ := step
      subst htakes
      rcases lt_trichotomy mid.length pre.length with hearly | hsame | hlate
      · exact absurd rfl (hfirst mid _ u hu hearly)
      · obtain rfl : mid = pre := by rw [hu.eq_take.1, hx.eq_take.1, hsame]
        obtain ⟨rfl, -⟩ :=
          Prod.mk.inj (Option.some.inj (hu.eq_take.2.symm.trans hx.eq_take.2))
        obtain rfl := Except.ok.inj (hu.exec_eq.symm.trans hx.exec_eq)
        exact htaken d
      · have hzero : gathered inv' (reached mid) id d (reached mid).delegators = 0 :=
          gathered_eq_zero fun a _ hdelegates =>
            max_eq_right (hnone mid inv' u hu hlate a hdelegates)
        rw [(snapshotDelegations_taken hu.exec_eq).power, hzero, add_zero]
        exact hmid d
    · rw [((exec_effect hu.exec_eq).snapshot_kept htakes).2]
      exact hmid d

end Runs

/-- An invocation that every account signed, for holders of a hundred each. -/
def hundredEach : Invocation ℕ 0 where
  toEnv := signedByAll 0
  balance _ := 100
  snapshotBalance _ _ := some 100

/-- Account 1 delegates to account 2. -/
def delegatedRun : List (Step ℕ 0) :=
  [(hundredEach, .initializeDelegation 9 8), (hundredEach, .setSnapshotContract 9 7),
    (hundredEach, .delegate 1 2)]

/-- A snapshot is taken, and the delegation is taken back. -/
def takenRun : List (Step ℕ 0) :=
  delegatedRun ++ [(hundredEach, .snapshotDelegations 5)] ++ [(hundredEach, .undelegate 1)]

theorem delegatedRun_taken (post : List (Step ℕ 0)) : (machine 0).Executes (deployed ℕ)
    (delegatedRun ++ [(hundredEach, .snapshotDelegations 5)] ++ post) delegatedRun
    (hundredEach, .snapshotDelegations 5)
    (reached (delegatedRun ++ [(hundredEach, .snapshotDelegations 5)])) := by
  apply Machine.Executes.append
  apply Machine.executes_of_run_ne
  intro hsame
  exact absurd (congrArg (fun s => s.delegationSnapshot (5, 2)) hsame) (by decide)

/-- Account 2 keeps what it had at the snapshot, although account 1 took its delegation back. -/
theorem takenRun_immutable : getDelegatedPowerAtSnapshot (reached takenRun) 2 5 = 100 ∧
    ∀ later, delegatedRun ++ [(hundredEach, .snapshotDelegations 5)] <+: later →
      later <+: takenRun → ∀ d, getDelegatedPowerAtSnapshot (reached later) d 5 =
        delegatedBalance (getDelegationAtSnapshot
          (reached (delegatedRun ++ [(hundredEach, .snapshotDelegations 5)])) 5) hundredEach 5 d := by
  constructor
  · decide
  · apply (run_immutable_iff takenRun delegatedRun hundredEach 5 _ (delegatedRun_taken _) ?_ ?_).mpr
    · intro later inv' u hx hlt
      have hlength : later.length < 5 := hx.length_lt
      have hstep := hx.eq_take.2
      have hfour : later.length = 4 := by
        have hthree : 3 < later.length := hlt
        omega
      rw [hfour] at hstep
      cases hstep
    · intro early step u hx hlt
      have hstep := hx.eq_take.2
      have hlength : early.length < 3 := hlt
      generalize early.length = n at hstep hlength
      interval_cases n
      · obtain rfl := Option.some.inj hstep
        exact nofun
      · obtain rfl := Option.some.inj hstep
        exact nofun
      · obtain rfl := Option.some.inj hstep
        exact nofun
    · intro a b hb
      obtain rfl := Option.some.inj hb
      decide

/-- A second snapshot under the id counts the delegation again. -/
def repeatedRun : List (Step ℕ 0) :=
  delegatedRun ++ [(hundredEach, .snapshotDelegations 5)] ++
    [(hundredEach, .snapshotDelegations 5)]

theorem repeatedRun_doubled : getDelegatedPowerAtSnapshot (reached repeatedRun) 2 5 = 200 ∧
    ¬ ∀ later, delegatedRun ++ [(hundredEach, .snapshotDelegations 5)] <+: later →
      later <+: repeatedRun → ∀ d, getDelegatedPowerAtSnapshot (reached later) d 5 =
        delegatedBalance (getDelegationAtSnapshot
          (reached (delegatedRun ++ [(hundredEach, .snapshotDelegations 5)])) 5) hundredEach 5
          d := by
  have htwice : getDelegatedPowerAtSnapshot (reached repeatedRun) 2 5 = 200 := by decide
  have honce : getDelegatedPowerAtSnapshot
      (reached (delegatedRun ++ [(hundredEach, .snapshotDelegations 5)])) 2 5 = 100 := by decide
  constructor
  · exact htwice
  · intro hconstant
    have hfirst := hconstant _ List.prefix_rfl (List.prefix_append _ _) 2
    have hsecond := hconstant repeatedRun (List.prefix_append _ _) List.prefix_rfl 2
    rw [← hfirst, htwice, honce] at hsecond
    exact absurd hsecond (by decide)

end DelegatedPower
