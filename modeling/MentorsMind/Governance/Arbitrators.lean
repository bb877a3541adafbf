import MentorsMind.Governance.Proposals
import MentorsMind.Lib.DenseIndex

/-! Arbitrators: their records, the dense index over them and the choice of one for a dispute,
with the appeals that they resolve. The compensation and the events are left out. -/
namespace Governance
open Outcome Soroban

def disputeCoordinationWindowSecs : ℕ := 3600
def disputeIndependenceRiskThreshold : ℕ := 60

structure DisputeIndependenceFlag where
  independent : Bool
  riskScore : ℕ
  sharedActorCount : ℕ
  clusteredTimingCount : ℕ

/-- Timestamps that follow the one before them within the window. -/
def clustered : List ℕ → ℕ
  | prev :: cur :: rest =>
      (if cur - prev < disputeCoordinationWindowSecs then 1 else 0) + clustered (cur :: rest)
  | _ => 0

def ensureDisputeIndependence (sharedTimestamps : List ℕ) (sharedActorCount : ℕ) :
    DisputeIndependenceFlag :=
  let risk := min 100 <|
    (if 3 ≤ sharedTimestamps.length then 30 else 0) +
      (if 2 ≤ clustered sharedTimestamps then 35 else 0) +
      (if 2 ≤ sharedActorCount then 35 else 0)
  { independent := risk < disputeIndependenceRiskThreshold
    riskScore := risk
    sharedActorCount := sharedActorCount
    clusteredTimingCount := clustered sharedTimestamps }

structure ArbitratorRecord (Addr : Type) where
  address : Addr
  active : Bool
  casesHandled : ℕ

structure AppealRecord (Addr : Type) where
  proposalId : ℕ
  appellant : Addr
  reason : String
  submittedAt : ℕ
  resolved : Bool

/-- One field for each storage key; an absent count reads as zero, an absent history as empty. -/
structure Arbitrators (Addr : Type) where
  arbitrator : Addr → Option (ArbitratorRecord Addr)
  arbitratorAt : ℕ → Option Addr
  arbitratorIndex : Addr → Option ℕ
  arbitratorCount : ℕ
  /-- The list that stood in for the index in earlier versions. -/
  arbitratorList : Option (List Addr)
  disputeHistory : Addr → List ℕ
  independenceFlag : Addr → Option DisputeIndependenceFlag
  appeal : ℕ → Option (AppealRecord Addr)

/-- `Error::ArbitratorConflict`. -/
def arbitratorConflict : Trap := .contractError 7

variable {Addr : Type} {self : Addr}

/-- Appeals are stored without a look at the proposal. -/
def submitAppeal (inv : Invocation Addr self) (r : Arbitrators Addr) (appellant : Addr)
    (proposalId : ℕ) (reason : String) : Result (Arbitrators Addr) := do
  requireAuth inv.toEnv appellant
  let appeal : AppealRecord Addr := {
    proposalId := proposalId
    appellant := appellant
    reason := reason
    submittedAt := inv.timestamp
    resolved := false }
  pure { r with appeal := Function.update r.appeal proposalId (some appeal) }

section Selection

/-- One round of the loop: the arbitrator found, or the position to look at next. -/
def Arbitrators.selectRound (r : Arbitrators Addr) (start idx : ℕ) : Result (Addr ⊕ ℕ) := do
  let addr ← expect (r.arbitratorAt idx) (.panic "invalid arbitrator index")
  let record ← expect (r.arbitrator addr) (.panic "arbitrator record not found")
  if record.active then pure (.inl addr)
  else do
    let bumped ← u32 (idx + 1)
    let next := bumped % r.arbitratorCount
    require (next ≠ start) (.panic "no active arbitrators")
    pure (.inr next)

/-- The loop, for at most `fuel` rounds; `none` if that is not enough. -/
def Arbitrators.selectLoop (r : Arbitrators Addr) (start : ℕ) : ℕ → ℕ → Option (Result Addr)
  | 0, _ => none
  | fuel + 1, idx =>
      match r.selectRound start idx with
      | .error e => some (.error e)
      | .ok (.inl addr) => some (.ok addr)
      | .ok (.inr next) => r.selectLoop start fuel next

def Arbitrators.selectArbitrator (r : Arbitrators Addr) (fuel disputeId : ℕ) :
    Option (Result Addr) :=
  if r.arbitratorCount = 0 then some (.error (.panic "no arbitrators"))
  else
    let startIdx := disputeId % r.arbitratorCount
    r.selectLoop startIdx fuel startIdx

end Selection

section Calls

variable [DecidableEq Addr]

/-- Appends `addr` to the index. -/
def Arbitrators.append (r : Arbitrators Addr) (addr : Addr) : Result (Arbitrators Addr) := do
  let count ← u32 (r.arbitratorCount + 1)
  pure { r with
    arbitratorAt := Function.update r.arbitratorAt r.arbitratorCount (some addr)
    arbitratorIndex := Function.update r.arbitratorIndex addr (some r.arbitratorCount)
    arbitratorCount := count }

def registerArbitrator (inv : Invocation Addr self) (s : State Addr) (r : Arbitrators Addr)
    (admin arbitrator : Addr) : Result (Arbitrators Addr) := do
  assertAdmin inv s admin
  let history := r.disputeHistory arbitrator
  let flag := ensureDisputeIndependence history history.length
  require (flag.independent = true) arbitratorConflict
  let record : ArbitratorRecord Addr := {
    address := arbitrator
    active := true
    casesHandled := 0 }
  let written := { r with
    independenceFlag := Function.update r.independenceFlag arbitrator (some flag)
    arbitrator := Function.update r.arbitrator arbitrator (some record) }
  if (r.arbitrator arbitrator).isSome then pure written
  else written.append arbitrator

/-- The last arbitrator takes the place at `index`. -/
def Arbitrators.moveLast (r : Arbitrators Addr) (index lastIndex : ℕ) :
    Result (Arbitrators Addr) :=
  if index = lastIndex then pure r
  else do
    let last ← expect (r.arbitratorAt lastIndex) (.panic "last arbitrator not found")
    pure { r with
      arbitratorAt := Function.update r.arbitratorAt index (some last)
      arbitratorIndex := Function.update r.arbitratorIndex last (some index) }

def unregisterArbitrator (inv : Invocation Addr self) (s : State Addr) (r : Arbitrators Addr)
    (admin arbitrator : Addr) : Result (Arbitrators Addr) := do
  assertAdmin inv s admin
  require (r.arbitrator arbitrator).isSome (.panic "arbitrator not found")
  require (r.arbitratorCount ≠ 0) (.panic "no arbitrators")
  let index ← expect (r.arbitratorIndex arbitrator) (.panic "arbitrator index not found")
  let lastIndex := r.arbitratorCount - 1
  let moved ← r.moveLast index lastIndex
  pure { moved with
    arbitratorAt := Function.update moved.arbitratorAt lastIndex none
    arbitratorIndex := Function.update moved.arbitratorIndex arbitrator none
    arbitrator := Function.update r.arbitrator arbitrator none
    arbitratorCount := lastIndex }

/-- One round of the loop of `migrate_arbitrators`. -/
def Arbitrators.migrateOne (r : Arbitrators Addr) (addr : Addr) : Result (Arbitrators Addr) :=
  if (r.arbitratorIndex addr).isSome then pure r else r.append addr

def migrateArbitrators (inv : Invocation Addr self) (s : State Addr) (r : Arbitrators Addr)
    (admin : Addr) : Result (Arbitrators Addr) := do
  assertAdmin inv s admin
  match r.arbitratorList with
  | none => pure r
  | some list => do
      let migrated ← list.foldlM Arbitrators.migrateOne r
      pure { migrated with arbitratorList := none }

def resolveAppeal (inv : Invocation Addr self) (r : Arbitrators Addr) (arbitrator : Addr)
    (proposalId : ℕ) : Result (Arbitrators Addr) := do
  requireAuth inv.toEnv arbitrator
  let record ← expect (r.arbitrator arbitrator) (.panic "arbitrator not found")
  require (record.active = true) (.panic "arbitrator inactive")
  let appeal ← expect (r.appeal proposalId) (.panic "appeal not found")
  let casesHandled ← u32 (record.casesHandled + 1)
  pure { r with
    appeal := Function.update r.appeal proposalId (some { appeal with resolved := true })
    arbitrator := Function.update r.arbitrator arbitrator
      (some { record with casesHandled := casesHandled }) }

inductive ArbitratorCall (Addr : Type) where
  | registerArbitrator (admin arbitrator : Addr)
  | unregisterArbitrator (admin arbitrator : Addr)
  | migrateArbitrators (admin : Addr)
  | submitAppeal (appellant : Addr) (proposalId : ℕ) (reason : String)
  | resolveAppeal (arbitrator : Addr) (proposalId : ℕ)

/-- A call, with the state in which the rest of the contract is when it comes. -/
structure ArbitratorStep (Addr : Type) (home : Addr) where
  inv : Invocation Addr home
  governance : State Addr
  call : ArbitratorCall Addr

def execArbitrator (step : ArbitratorStep Addr self) (r : Arbitrators Addr) :
    Result (Arbitrators Addr) :=
  match step.call with
  | .registerArbitrator admin arbitrator =>
      registerArbitrator step.inv step.governance r admin arbitrator
  | .unregisterArbitrator admin arbitrator =>
      unregisterArbitrator step.inv step.governance r admin arbitrator
  | .migrateArbitrators admin => migrateArbitrators step.inv step.governance r admin
  | .submitAppeal appellant proposalId reason =>
      submitAppeal step.inv r appellant proposalId reason
  | .resolveAppeal arbitrator proposalId => resolveAppeal step.inv r arbitrator proposalId

def arbitratorMachine (home : Addr) :
    Machine (Arbitrators Addr) (ArbitratorStep Addr home) Trap :=
  ⟨execArbitrator⟩

omit [DecidableEq Addr] in
/-- Nobody is registered. What is known of disputes does not matter. -/
def noArbitrators (disputeHistory : Addr → List ℕ) : Arbitrators Addr where
  arbitrator _ := none
  arbitratorAt _ := none
  arbitratorIndex _ := none
  arbitratorCount := 0
  arbitratorList := none
  disputeHistory := disputeHistory
  independenceFlag _ := none
  appeal _ := none

end Calls

variable {r r' : Arbitrators Addr} {a : Addr}

section Layout

def Arbitrators.index (r : Arbitrators Addr) : DenseIndex Addr where
  entry := r.arbitratorAt
  position := r.arbitratorIndex
  count := r.arbitratorCount

/-- Who stands on the old list and is not migrated yet. -/
def Arbitrators.waiting (r : Arbitrators Addr) : List Addr := r.arbitratorList.getD []

/-- The index is dense, and the arbitrators are those in it and those who wait. -/
structure Arbitrators.Layout (r : Arbitrators Addr) : Prop where
  index : r.index.Sound
  count_lt : r.arbitratorCount < 2 ^ 32
  record_iff : ∀ a, (r.arbitrator a).isSome ↔ (r.arbitratorIndex a).isSome ∨ a ∈ r.waiting
  unlisted : ∀ a ∈ r.waiting, r.arbitratorIndex a = none

theorem noArbitrators_layout (disputeHistory : Addr → List ℕ) :
    (noArbitrators disputeHistory).Layout where
  index := DenseIndex.empty_sound
  count_lt := Nat.two_pow_pos 32
  record_iff := by simp [noArbitrators, Arbitrators.waiting]
  unlisted := by simp [noArbitrators]

/-- The index only speaks of addresses, so records may be rewritten. -/
theorem Arbitrators.Layout.of_eq (h : r.Layout) (hindex : r'.index = r.index)
    (hlist : r'.arbitratorList = r.arbitratorList)
    (hrecord : ∀ a, (r'.arbitrator a).isSome = (r.arbitrator a).isSome) : r'.Layout := by
  have hposition : r'.arbitratorIndex = r.arbitratorIndex := congrArg DenseIndex.position hindex
  have hcount : r'.arbitratorCount = r.arbitratorCount := congrArg DenseIndex.count hindex
  have hwaiting : r'.waiting = r.waiting := by
    unfold Arbitrators.waiting
    rw [hlist]
  constructor
  · rw [hindex]
    exact h.index
  · rw [hcount]
    exact h.count_lt
  · intro a
    rw [hrecord, hposition, hwaiting]
    exact h.record_iff a
  · intro a ha
    rw [hwaiting] at ha
    rw [hposition]
    exact h.unlisted a ha

/-- An arbitrator with a record has a position once nobody waits. -/
theorem Arbitrators.Layout.position_isSome (h : r.Layout) (hlist : r.arbitratorList = none) :
    (r.arbitratorIndex a).isSome ↔ (r.arbitrator a).isSome := by
  have hrecord := h.record_iff a
  simp only [Arbitrators.waiting, hlist, Option.getD_none, List.not_mem_nil, or_false] at hrecord
  exact hrecord.symm

end Layout

section Steps

variable [DecidableEq Addr]

theorem Arbitrators.append_eq_ok (h : r.append a = .ok r') :
    r.arbitratorCount + 1 < 2 ^ 32 ∧ r'.index = r.index.push a ∧
      r'.arbitrator = r.arbitrator ∧ r'.arbitratorList = r.arbitratorList := by
  simp only [append, bind_eq_ok, u32_eq_ok, pure_eq_ok] at h
  obtain ⟨count, ⟨hlt, rfl⟩, rfl⟩ := h
  exact ⟨hlt, rfl, rfl, rfl⟩

/-- The maps of an index that grew by one. -/
theorem Arbitrators.index_of_push (h : r'.index = r.index.push a) :
    r'.arbitratorIndex = (r.index.push a).position ∧
      r'.arbitratorCount = r.arbitratorCount + 1 :=
  ⟨congrArg DenseIndex.position h, congrArg DenseIndex.count h⟩

/-- A newcomer goes to the end of the index. -/
theorem Arbitrators.Layout.push {record : ArbitratorRecord Addr} (h : r.Layout)
    (hunknown : ¬ (r.arbitrator a).isSome) (hlt : r.arbitratorCount + 1 < 2 ^ 32)
    (hindex : r'.index = r.index.push a)
    (hrecords : r'.arbitrator = Function.update r.arbitrator a (some record))
    (hlist : r'.arbitratorList = r.arbitratorList) : r'.Layout := by
  obtain ⟨hposition, hcount⟩ := Arbitrators.index_of_push hindex
  rw [h.record_iff, not_or] at hunknown
  obtain ⟨hfree, habsent⟩ := hunknown
  have hwaiting : r'.waiting = r.waiting := by
    unfold Arbitrators.waiting
    rw [hlist]
  constructor
  · rw [hindex]
    exact h.index.push (Option.not_isSome_iff_eq_none.mp hfree)
  · rw [hcount]
    exact hlt
  · intro x
    rw [hrecords, hposition, hwaiting]
    have hx := h.record_iff x
    have hpush := DenseIndex.push_isSome (d := r.index) (a := a) (x := x)
    by_cases heq : x = a
    · simp [heq, DenseIndex.push]
    · simp only [heq, ne_eq, not_false_eq_true, Function.update_of_ne, hx]
      rw [hpush, or_iff_right heq]
      rfl
  · intro x hx
    rw [hwaiting] at hx
    have hne : x ≠ a := by
      rintro rfl
      exact habsent hx
    rw [hposition]
    simp only [DenseIndex.push, Function.update_of_ne hne]
    exact h.unlisted x hx

theorem registerArbitrator_layout {home : Addr} {inv : Invocation Addr home} {s : State Addr}
    {admin : Addr} (hr : r.Layout) (h : registerArbitrator inv s r admin a = .ok r') :
    r'.Layout ∧ r'.arbitratorList = r.arbitratorList := by
  simp only [registerArbitrator, bind_eq_ok, require_eq_ok] at h
  obtain ⟨-, -, -, -, h⟩ := h
  split_ifs at h with hknown
  · rw [pure_eq_ok] at h
    subst h
    refine ⟨hr.of_eq rfl rfl fun x => ?_, rfl⟩
    by_cases hx : x = a
    · simp [hx, hknown]
    · simp [hx]
  · obtain ⟨hlt, hpushed, hrecords, hlist⟩ := Arbitrators.append_eq_ok h
    exact ⟨hr.push hknown hlt hpushed hrecords hlist, hlist⟩

theorem unregisterArbitrator_eq_ok {home : Addr} {inv : Invocation Addr home} {s : State Addr}
    {admin : Addr} (hr : r.Layout) (h : unregisterArbitrator inv s r admin a = .ok r') :
    ∃ k last, r.arbitratorIndex a = some k ∧ r.arbitratorAt (r.arbitratorCount - 1) = some last ∧
      r'.index = r.index.swapRemove a last k ∧
      r'.arbitrator = Function.update r.arbitrator a none ∧
      r'.arbitratorList = r.arbitratorList := by
  simp only [unregisterArbitrator, bind_eq_ok, require_eq_ok, expect_eq_ok] at h
  obtain ⟨-, -, -, -, -, -, k, hk, moved, hmoved, h⟩ := h
  have hentry : r.arbitratorAt k = some a := (hr.index.entry_iff k a).mpr hk
  rw [pure_eq_ok] at h
  unfold Arbitrators.moveLast at hmoved
  split_ifs at hmoved with hlast
  · rw [pure_eq_ok] at hmoved
    subst hmoved h
    refine ⟨k, a, hk, hlast ▸ hentry, ?_, rfl, rfl⟩
    simp only [Arbitrators.index, DenseIndex.swapRemove, ← hlast, Function.update_idem]
  · simp only [bind_eq_ok, expect_eq_ok, pure_eq_ok] at hmoved
    obtain ⟨last, hlastEntry, rfl⟩ := hmoved
    subst h
    exact ⟨k, last, hk, hlastEntry, rfl, rfl, rfl⟩

theorem unregisterArbitrator_layout {home : Addr} {inv : Invocation Addr home} {s : State Addr}
    {admin : Addr} (hr : r.Layout) (h : unregisterArbitrator inv s r admin a = .ok r') :
    r'.Layout ∧ r'.arbitratorList = r.arbitratorList := by
  obtain ⟨k, last, hk, hlast, hindex, hrecords, hlist⟩ := unregisterArbitrator_eq_ok hr h
  have hposition : r'.arbitratorIndex = (r.index.swapRemove a last k).position :=
    congrArg DenseIndex.position hindex
  have hcount : r'.arbitratorCount = r.arbitratorCount - 1 := congrArg DenseIndex.count hindex
  have hwaiting : r'.waiting = r.waiting := by
    unfold Arbitrators.waiting
    rw [hlist]
  have hleft : ∀ x, (r'.arbitratorIndex x).isSome ↔ x ≠ a ∧ (r.arbitratorIndex x).isSome := by
    intro x
    rw [hposition]
    exact hr.index.swapRemove_isSome hlast
  refine ⟨?_, hlist⟩
  constructor
  · rw [hindex]
    exact hr.index.swapRemove hk hlast
  · have hlt := hr.count_lt
    omega
  · intro x
    rw [hrecords, hleft, hwaiting]
    have hx := hr.record_iff x
    by_cases heq : x = a
    · subst heq
      have hgone : x ∉ r.waiting := by
        intro hmem
        rw [hr.unlisted x hmem] at hk
        cases hk
      simp [hgone]
    · simp only [heq, ne_eq, not_false_eq_true, Function.update_of_ne, true_and]
      exact hx
  · intro x hx
    rw [hwaiting] at hx
    have hnone := hr.unlisted x hx
    have hx' := hleft x
    rw [hnone] at hx'
    simpa using hx'

/-- What the migration has done after the first entries of the list. -/
structure Arbitrators.Migrating (r : Arbitrators Addr) (visited : List Addr)
    (c : Arbitrators Addr) : Prop where
  index : c.index.Sound
  count_lt : c.arbitratorCount < 2 ^ 32
  records : c.arbitrator = r.arbitrator
  position_iff : ∀ a, (c.arbitratorIndex a).isSome ↔
    (r.arbitratorIndex a).isSome ∨ a ∈ visited

theorem Arbitrators.Migrating.step {visited : List Addr} {c d : Arbitrators Addr}
    (hc : r.Migrating visited c) (h : c.migrateOne a = .ok d) :
    r.Migrating (visited ++ [a]) d := by
  unfold migrateOne at h
  have hmem : ∀ x, x ∈ visited ++ [a] ↔ x ∈ visited ∨ x = a := by simp
  split_ifs at h with hlisted
  · rw [pure_eq_ok] at h
    subst h
    refine ⟨hc.index, hc.count_lt, hc.records, fun x => ?_⟩
    rw [hc.position_iff, hmem]
    by_cases heq : x = a
    · have hx := (hc.position_iff x).mp (heq ▸ hlisted)
      tauto
    · tauto
  · obtain ⟨hlt, hindex, hrecords, -⟩ := append_eq_ok h
    obtain ⟨hposition, hcount⟩ := index_of_push hindex
    constructor
    · rw [hindex]
      exact hc.index.push (Option.not_isSome_iff_eq_none.mp hlisted)
    · rw [hcount]
      exact hlt
    · rw [hrecords, hc.records]
    · intro x
      have hpush := DenseIndex.push_isSome (d := c.index) (a := a) (x := x)
      have hx := hc.position_iff x
      rw [hposition, hpush, hmem]
      change _ ∨ (c.arbitratorIndex x).isSome ↔ _
      rw [hx]
      tauto

theorem migrateArbitrators_layout {home : Addr} {inv : Invocation Addr home} {s : State Addr}
    {admin : Addr} (hr : r.Layout) (h : migrateArbitrators inv s r admin = .ok r') :
    r'.Layout ∧ r'.arbitratorList = none := by
  simp only [migrateArbitrators, bind_eq_ok] at h
  obtain ⟨-, -, h⟩ := h
  cases hlist : r.arbitratorList with
  | none =>
    rw [hlist] at h
    simp only [pure_eq_ok] at h
    subst h
    exact ⟨hr, hlist⟩
  | some list =>
    rw [hlist] at h
    simp only [bind_eq_ok, pure_eq_ok] at h
    obtain ⟨migrated, hfold, rfl⟩ := h
    have hwaiting : r.waiting = list := by simp [Arbitrators.waiting, hlist]
    have hdone : r.Migrating list migrated := by
      refine foldlM_induction (P := fun visited c => r.Migrating visited c) ?_ ?_ hfold
      · exact ⟨hr.index, hr.count_lt, rfl, by simp⟩
      · intro visited x rest c d _ hc hx
        exact hc.step hx
    refine ⟨?_, rfl⟩
    constructor
    · exact hdone.index
    · exact hdone.count_lt
    · intro x
      have hx := hr.record_iff x
      rw [hwaiting] at hx
      have hx' := hdone.position_iff x
      change (migrated.arbitrator x).isSome ↔ (migrated.arbitratorIndex x).isSome ∨ x ∈ []
      rw [hdone.records, hx, hx']
      simp
    · intro x hx
      exact absurd hx (List.not_mem_nil)

theorem resolveAppeal_layout {home : Addr} {inv : Invocation Addr home} {proposalId : ℕ}
    (hr : r.Layout) (h : resolveAppeal inv r a proposalId = .ok r') :
    r'.Layout ∧ r'.arbitratorList = r.arbitratorList := by
  simp only [resolveAppeal, bind_eq_ok, expect_eq_ok, pure_eq_ok] at h
  obtain ⟨-, -, record, hrecord, -, -, appeal, -, casesHandled, -, rfl⟩ := h
  refine ⟨hr.of_eq rfl rfl fun x => ?_, rfl⟩
  by_cases hx : x = a
  · simp [hx, hrecord]
  · simp [hx]

/-- Every call keeps the layout, and no call writes the old list. -/
theorem execArbitrator_layout {home : Addr} {step : ArbitratorStep Addr home} (hr : r.Layout)
    (h : execArbitrator step r = .ok r') :
    r'.Layout ∧ (r.arbitratorList = none → r'.arbitratorList = none) := by
  obtain ⟨inv, s, call⟩ := step
  cases call with
  | registerArbitrator admin arbitrator =>
    obtain ⟨hlayout, hlist⟩ := registerArbitrator_layout hr h
    exact ⟨hlayout, fun hnone => hlist.trans hnone⟩
  | unregisterArbitrator admin arbitrator =>
    obtain ⟨hlayout, hlist⟩ := unregisterArbitrator_layout hr h
    exact ⟨hlayout, fun hnone => hlist.trans hnone⟩
  | migrateArbitrators admin =>
    obtain ⟨hlayout, hlist⟩ := migrateArbitrators_layout hr h
    exact ⟨hlayout, fun _ => hlist⟩
  | submitAppeal appellant proposalId reason =>
    simp only [execArbitrator, submitAppeal, bind_eq_ok, pure_eq_ok] at h
    obtain ⟨-, -, rfl⟩ := h
    exact ⟨hr.of_eq rfl rfl fun _ => rfl, id⟩
  | resolveAppeal arbitrator proposalId =>
    obtain ⟨hlayout, hlist⟩ := resolveAppeal_layout hr h
    exact ⟨hlayout, fun hnone => hlist.trans hnone⟩

end Steps

section Selection

/-- A round at a position that is taken. -/
theorem Arbitrators.Layout.selectRound_eq (h : r.Layout) (hlist : r.arbitratorList = none)
    (start : ℕ) {idx : ℕ} (hidx : idx < r.arbitratorCount) :
    ∃ x record, r.arbitratorAt idx = some x ∧ r.arbitrator x = some record ∧
      (record.active = true → r.selectRound start idx = .ok (.inl x)) ∧
      (record.active = false → (idx + 1) % r.arbitratorCount ≠ start →
        r.selectRound start idx = .ok (.inr ((idx + 1) % r.arbitratorCount))) := by
  have hsome : (r.arbitratorAt idx).isSome := (h.index.isSome_iff idx).mpr hidx
  obtain ⟨x, hx⟩ := Option.isSome_iff_exists.mp hsome
  have hposition : r.arbitratorIndex x = some idx := (h.index.entry_iff idx x).mp hx
  have hknown : (r.arbitrator x).isSome := by
    rw [← h.position_isSome hlist, hposition]
    rfl
  obtain ⟨record, hrecord⟩ := Option.isSome_iff_exists.mp hknown
  have hcount := h.count_lt
  have hbump : u32 (idx + 1) = .ok (idx + 1) := u32_eq_ok.mpr ⟨by omega, rfl⟩
  refine ⟨x, record, hx, hrecord, ?_, ?_⟩
  · intro hactive
    simp [selectRound, hx, hrecord, hactive]
  · intro hactive hnext
    simp [selectRound, hx, hrecord, hactive, hnext, hbump]

/-- Fewer than `n` steps round a ring of `n` positions do not lead back. -/
theorem add_succ_mod_ne {start k n : ℕ} (hstart : start < n) (hk : k + 1 < n) :
    (start + (k + 1)) % n ≠ start := by
  intro heq
  have hwrapped : (start + (k + 1)) ≡ start + 0 [MOD n] := by
    unfold Nat.ModEq
    rw [heq, add_zero, Nat.mod_eq_of_lt hstart]
  have hzero := Nat.ModEq.add_left_cancel' start hwrapped
  have hle := Nat.le_of_dvd (Nat.succ_pos k) ((Nat.modEq_zero_iff_dvd).mp hzero)
  omega

/-- After `k` rounds over inactive arbitrators the loop still finds an active one, as it has
not come round to where it started. -/
theorem Arbitrators.Layout.selectLoop_eq (h : r.Layout) (hlist : r.arbitratorList = none)
    {start j : ℕ} {b : Addr} {record : ArbitratorRecord Addr} (hstart : start < r.arbitratorCount)
    (hb : r.arbitratorAt ((start + j) % r.arbitratorCount) = some b)
    (hrecord : r.arbitrator b = some record) (hactive : record.active = true) :
    ∀ fuel k, k ≤ j → j < r.arbitratorCount → r.arbitratorCount ≤ fuel + k →
      ∃ x active, r.selectLoop start fuel ((start + k) % r.arbitratorCount) = some (.ok x) ∧
        r.arbitrator x = some active ∧ active.active = true := by
  have hpos : 0 < r.arbitratorCount := by omega
  intro fuel
  induction fuel with
  | zero =>
    intro k hk hj hfuel
    omega
  | succ fuel ih =>
    intro k hk hj hfuel
    obtain ⟨x, found, hx, hfound, hstop, hnext⟩ :=
      h.selectRound_eq hlist start (Nat.mod_lt (start + k) hpos)
    cases hfoundActive : found.active with
    | true =>
      refine ⟨x, found, ?_, hfound, hfoundActive⟩
      unfold selectLoop
      rw [hstop hfoundActive]
    | false =>
      have hne : k ≠ j := by
        rintro rfl
        obtain rfl := Option.some.inj (hx.symm.trans hb)
        obtain rfl := Option.some.inj (hfound.symm.trans hrecord)
        rw [hactive] at hfoundActive
        cases hfoundActive
      have hmod : ((start + k) % r.arbitratorCount + 1) % r.arbitratorCount =
          (start + (k + 1)) % r.arbitratorCount := by
        rw [Nat.mod_add_mod]
        rfl
      have haway : (start + (k + 1)) % r.arbitratorCount ≠ start :=
        add_succ_mod_ne hstart (by omega)
      obtain ⟨y, active, hy, hrest⟩ := ih (k + 1) (by omega) hj (by omega)
      refine ⟨y, active, ?_, hrest⟩
      unfold selectLoop
      rw [hnext hfoundActive (hmod ▸ haway), hmod]
      exact hy

/-- The rounds that the loop may need are as many as there are arbitrators. -/
theorem Arbitrators.Layout.selectArbitrator_eq (h : r.Layout) (hlist : r.arbitratorList = none)
    {b : Addr} {record : ArbitratorRecord Addr} (hrecord : r.arbitrator b = some record)
    (hactive : record.active = true) (disputeId : ℕ) {fuel : ℕ} (hfuel : r.arbitratorCount ≤ fuel) :
    ∃ x active, r.selectArbitrator fuel disputeId = some (.ok x) ∧
      r.arbitrator x = some active ∧ active.active = true := by
  have hlisted : (r.arbitratorIndex b).isSome := by
    rw [h.position_isSome hlist, hrecord]
    rfl
  obtain ⟨i, hi⟩ := Option.isSome_iff_exists.mp hlisted
  have hlt : i < r.arbitratorCount := h.index.lt_count hi
  have hpos : 0 < r.arbitratorCount := by omega
  have hstart := Nat.mod_lt disputeId hpos
  set start := disputeId % r.arbitratorCount with hs
  -- how many rounds after the start the loop reaches position `i`
  obtain ⟨j, hj, hreach⟩ : ∃ j, j < r.arbitratorCount ∧ (start + j) % r.arbitratorCount = i := by
    by_cases hle : start ≤ i
    · refine ⟨i - start, by omega, ?_⟩
      rw [Nat.add_sub_cancel' hle, Nat.mod_eq_of_lt hlt]
    · refine ⟨i + r.arbitratorCount - start, by omega, ?_⟩
      rw [show start + (i + r.arbitratorCount - start) = i + r.arbitratorCount by omega,
        Nat.add_mod_right, Nat.mod_eq_of_lt hlt]
  have hentry : r.arbitratorAt ((start + j) % r.arbitratorCount) = some b := by
    rw [hreach]
    exact (h.index.entry_iff i b).mpr hi
  have hloop := h.selectLoop_eq hlist hstart hentry hrecord hactive fuel 0 (Nat.zero_le j) hj hfuel
  rw [add_zero, Nat.mod_eq_of_lt hstart] at hloop
  unfold selectArbitrator
  rw [if_neg hpos.ne']
  exact hloop

end Selection

section Runs

variable [DecidableEq Addr] {home : Addr}

/-- What the index promises, and the choice that relies on it. -/
structure Arbitrators.Indexed (r : Arbitrators Addr) : Prop where
  inverse : ∀ i a, r.arbitratorAt i = some a ↔ r.arbitratorIndex a = some i
  dense : ∀ i, (r.arbitratorAt i).isSome ↔ i < r.arbitratorCount
  range : ∀ a, (∃ i, i < r.arbitratorCount ∧ r.arbitratorAt i = some a) ↔ (r.arbitrator a).isSome
  selects : ∀ disputeId, (∃ b record, r.arbitrator b = some record ∧ record.active = true) →
    ∃ rounds, ∀ fuel, rounds ≤ fuel →
      ∃ x active, r.selectArbitrator fuel disputeId = some (.ok x) ∧
        r.arbitrator x = some active ∧ active.active = true

omit [DecidableEq Addr] in
theorem Arbitrators.Layout.indexed (h : r.Layout) (hlist : r.arbitratorList = none) :
    r.Indexed := by
  constructor
  · exact h.index.entry_iff
  · exact h.index.isSome_iff
  · intro x
    rw [← h.position_isSome hlist, Option.isSome_iff_exists]
    constructor
    · rintro ⟨i, -, hi⟩
      exact ⟨i, (h.index.entry_iff i x).mp hi⟩
    · rintro ⟨i, hi⟩
      exact ⟨i, h.index.lt_count hi, (h.index.entry_iff i x).mpr hi⟩
  · rintro disputeId ⟨b, record, hrecord, hactive⟩
    refine ⟨r.arbitratorCount, fun fuel hfuel => ?_⟩
    exact h.selectArbitrator_eq hlist hrecord hactive disputeId hfuel

/-- From a layout on, the old list apart, the index is always complete. -/
theorem run_layout (h : r.Layout) (steps : List (ArbitratorStep Addr home)) :
    ((arbitratorMachine home).run r steps).Layout ∧ (r.arbitratorList = none →
      ((arbitratorMachine home).run r steps).arbitratorList = none) := by
  refine Machine.run_invariant (M := arbitratorMachine home)
    (P := fun c => c.Layout ∧ (r.arbitratorList = none → c.arbitratorList = none)) ⟨h, id⟩ ?_ steps
  rintro step c d ⟨hc, hlist⟩ hx
  obtain ⟨hd, hkept⟩ := execArbitrator_layout hc hx
  exact ⟨hd, fun hnone => hkept (hlist hnone)⟩

/-- Whatever calls come, in whatever order, the index lists the arbitrators and the choice ends
with an active one; and arbitrators of an earlier version, who wait on its list, are all in the
index once they are migrated. -/
theorem arbitrators_indexed (disputeHistory : Addr → List ℕ)
    (steps : List (ArbitratorStep Addr home)) :
    ((arbitratorMachine home).run (noArbitrators disputeHistory) steps).Indexed ∧
      ∀ r : Arbitrators Addr, r.Layout →
        ((arbitratorMachine home).run r steps).arbitratorList = none →
        ((arbitratorMachine home).run r steps).Indexed := by
  constructor
  · obtain ⟨hlayout, hlist⟩ := run_layout (noArbitrators_layout disputeHistory) steps
    exact hlayout.indexed (hlist rfl)
  · intro r hr hmigrated
    exact (run_layout hr steps).1.indexed hmigrated

end Runs

/-- Two arbitrators of an earlier version. -/
def listedArbitrators : Arbitrators ℕ :=
  { noArbitrators fun _ => [] with
    arbitrator := fun a => if a = 5 ∨ a = 6 then some ⟨a, true, 0⟩ else none
    arbitratorList := some [5, 6] }

theorem listedArbitrators_layout : listedArbitrators.Layout where
  index := DenseIndex.empty_sound
  count_lt := Nat.two_pow_pos 32
  record_iff a := by
    by_cases ha : a = 5 ∨ a = 6
    · simp [listedArbitrators, noArbitrators, Arbitrators.waiting, ha]
    · simp [listedArbitrators, noArbitrators, Arbitrators.waiting, ha]
  unlisted a _ := rfl

/-- One of them leaves after the migration. -/
def migratingRun : List (ArbitratorStep ℕ 0) :=
  [⟨answered 1, { deployed ℕ with admin := some 1 }, .migrateArbitrators 1⟩,
    ⟨answered 2, { deployed ℕ with admin := some 1 }, .unregisterArbitrator 1 5⟩]

theorem arbitrators_indexed_migratingRun :
    ((arbitratorMachine 0).run listedArbitrators migratingRun).Indexed ∧
      ((arbitratorMachine 0).run listedArbitrators migratingRun).arbitratorAt 0 = some 6 :=
  ⟨(arbitrators_indexed (fun _ => []) migratingRun).2 listedArbitrators listedArbitrators_layout
    (by decide +kernel), by decide +kernel⟩

end Governance
