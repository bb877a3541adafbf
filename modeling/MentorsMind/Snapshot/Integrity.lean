import MentorsMind.Snapshot.Contract

/-! The integrity check of a snapshot. It enumerates the stakers that the staking contract lists
when it runs and not those that were recorded, so that its answer follows the present stakers. -/
namespace Snapshot
open Outcome Soroban

variable {Addr : Type} {home : Addr}

/-- What a snapshot records, as the staking contract answers in the invocation. -/
def recordedData (inv : Invocation Addr home) (stakingContract : Addr) : List (Addr × ℤ) :=
  ((inv.stakers stakingContract).getD []).map fun staker =>
    (staker, (inv.stakedAmount stakingContract staker).getD 0)

/-- The entries of a snapshot are still those that were recorded. -/
def Unmodified (s : State Addr) (id : ℕ) (stakerData : List (Addr × ℤ)) : Prop :=
  ∀ entry ∈ stakerData, s.snapshot (id, entry.1) = some entry.2

section Checking

variable {s : State Addr} {id : ℕ} {stakers : List Addr} {stakerData : List (Addr × ℤ)}

/-- What the check reads are the listed stakers with their entries. -/
theorem storedStakerData_eq_some_iff : storedStakerData s id stakers = some stakerData ↔
    stakerData.map Prod.fst = stakers ∧ Unmodified s id stakerData := by
  induction stakers generalizing stakerData with
  | nil =>
    constructor
    · intro h
      obtain rfl := Option.some.inj h
      exact ⟨rfl, nofun⟩
    · intro h
      rw [List.map_eq_nil_iff] at h
      rw [h.1]
      rfl
  | cons staker stakers ih =>
    constructor
    · intro h
      simp only [storedStakerData, Option.bind_eq_bind, Option.bind_eq_some_iff,
        Option.pure_def, Option.some.injEq] at h
      obtain ⟨amount, hamount, rest, hrest, rfl⟩ := h
      obtain ⟨hstakers, hunmodified⟩ := ih.mp hrest
      constructor
      · rw [List.map_cons, hstakers]
      · intro entry hentry
        rcases List.mem_cons.mp hentry with rfl | hold
        · exact hamount
        · exact hunmodified entry hold
    · intro h
      obtain ⟨hstakers, hunmodified⟩ := h
      cases stakerData with
      | nil => cases hstakers
      | cons entry rest =>
        obtain ⟨rfl, hrest⟩ := List.cons.inj hstakers
        have hfirst := hunmodified entry List.mem_cons_self
        have hothers := ih.mpr ⟨hrest, fun other hother =>
          hunmodified other (List.mem_cons_of_mem entry hother)⟩
        simp only [storedStakerData, Option.bind_eq_bind, hfirst, hothers, Option.bind_some,
          Option.pure_def]

variable {digests : Digests Addr} {inv : Invocation Addr home} {stakingContract : Addr}

/-- The check compares with a checksum that no other list of stakers has. -/
def CollisionFree (digests : Digests Addr) (inv : Invocation Addr home) (stakingContract : Addr)
    (s : State Addr) (id : ℕ) (stakerData : List (Addr × ℤ)) : Prop :=
  ∀ stakers other, inv.stakers stakingContract = some stakers →
    storedStakerData s id stakers = some other →
      digests.checksum other = digests.checksum stakerData → other = stakerData

/-- The check answers whether the present stakers are the recorded ones and have the recorded
entries. -/
theorem verifySnapshotIntegrity_eq (hstaking : s.stakingContract = some stakingContract)
    (hchecksum : s.snapshotChecksum id = some (digests.checksum stakerData))
    (hfree : CollisionFree digests inv stakingContract s id stakerData)
    (hstakers : inv.stakers stakingContract = some stakers) :
    verifySnapshotIntegrity digests inv s id = .ok true ∧
        storedStakerData s id stakers = some stakerData ∨
      verifySnapshotIntegrity digests inv s id = .ok false ∧
        storedStakerData s id stakers ≠ some stakerData := by
  simp only [verifySnapshotIntegrity, hchecksum, hstaking, hstakers, expect, ok_bind]
  cases hdata : storedStakerData s id stakers with
  | none => exact .inr ⟨rfl, (Option.some_ne_none _).symm⟩
  | some other =>
    by_cases hsame : other = stakerData
    · left
      rw [hsame]
      exact ⟨congrArg Except.ok (beq_self_eq_true _), rfl⟩
    · right
      have hdiffer : digests.checksum other ≠ digests.checksum stakerData :=
        fun heq => hsame (hfree stakers other hstakers hdata heq)
      constructor
      · exact congrArg Except.ok (beq_false_of_ne hdiffer)
      · intro heq
        exact hsame (Option.some.inj heq)

theorem verifySnapshotIntegrity_none (hstaking : s.stakingContract = some stakingContract)
    (hchecksum : s.snapshotChecksum id = some (digests.checksum stakerData))
    (hstakers : inv.stakers stakingContract = none) (answer : Bool) :
    verifySnapshotIntegrity digests inv s id ≠ .ok answer := by
  simp only [verifySnapshotIntegrity, hchecksum, hstaking, hstakers, expect, ok_bind]
  intro h
  cases h

/-- The check is right exactly if the staking contract answers, and lists the recorded stakers in
the recorded order as long as their entries are the recorded ones. -/
theorem integrity_iff (hstaking : s.stakingContract = some stakingContract)
    (hchecksum : s.snapshotChecksum id = some (digests.checksum stakerData))
    (hfree : CollisionFree digests inv stakingContract s id stakerData) :
    ((Unmodified s id stakerData → verifySnapshotIntegrity digests inv s id = .ok true) ∧
        (¬ Unmodified s id stakerData → verifySnapshotIntegrity digests inv s id = .ok false)) ↔
      ∃ stakers, inv.stakers stakingContract = some stakers ∧
        (Unmodified s id stakerData → stakers = stakerData.map Prod.fst) := by
  cases hstakers : inv.stakers stakingContract with
  | none =>
    have hnone := verifySnapshotIntegrity_none hstaking hchecksum hstakers
    constructor
    · intro h
      by_cases hunmodified : Unmodified s id stakerData
      · exact absurd (h.1 hunmodified) (hnone true)
      · exact absurd (h.2 hunmodified) (hnone false)
    · intro h
      obtain ⟨stakers, hsome, -⟩ := h
      cases hsome
  | some stakers =>
    have hcheck := verifySnapshotIntegrity_eq hstaking hchecksum hfree hstakers
    rw [storedStakerData_eq_some_iff, ne_eq, storedStakerData_eq_some_iff] at hcheck
    constructor
    · intro h
      refine ⟨stakers, rfl, ?_⟩
      intro hunmodified
      rcases hcheck with ⟨-, hsame, -⟩ | ⟨hfalse, -⟩
      · exact hsame.symm
      · rw [h.1 hunmodified] at hfalse
        cases hfalse
    · intro h
      obtain ⟨others, hothers, hsame⟩ := h
      obtain rfl := Option.some.inj hothers
      constructor
      · intro hunmodified
        rcases hcheck with ⟨htrue, -⟩ | ⟨-, hdiffer⟩
        · exact htrue
        · exact absurd ⟨(hsame hunmodified).symm, hunmodified⟩ hdiffer
      · intro hmodified
        rcases hcheck with ⟨-, -, hunmodified⟩ | ⟨hfalse, -⟩
        · exact absurd hunmodified hmodified
        · exact hfalse

end Checking

section Recording

variable [DecidableEq Addr] {s t : State Addr} {id : ℕ} {stakers : List Addr}
  {stakerData : List (Addr × ℤ)} {inv : Invocation Addr home} {stakingContract : Addr}

/-- The loop of `record_snapshot` writes an entry for each staker and returns the entries. -/
theorem recordStakers_eq_ok
    (h : recordStakers inv stakingContract id stakers s = .ok (t, stakerData)) :
    t = { s with snapshot := t.snapshot } ∧
      stakerData = stakers.map (fun a => (a, (inv.stakedAmount stakingContract a).getD 0)) ∧
      (∀ a ∈ stakers, t.snapshot (id, a) = inv.stakedAmount stakingContract a ∧
        inv.stakedAmount stakingContract a ≠ none) ∧
      ∀ key, (key.1 = id → key.2 ∉ stakers) → t.snapshot key = s.snapshot key := by
  induction stakers generalizing s t stakerData with
  | nil =>
    obtain ⟨rfl, rfl⟩ := Prod.mk.inj (pure_eq_ok.mp h)
    exact ⟨rfl, rfl, nofun, fun _ _ => rfl⟩
  | cons staker stakers ih =>
    simp only [recordStakers, bind_eq_ok, expect_eq_ok, pure_eq_ok] at h
    obtain ⟨amount, hamount, ⟨u, rest⟩, hrest, hresult⟩ := h
    obtain ⟨rfl, rfl⟩ := Prod.mk.inj hresult
    obtain ⟨hframe, hdata, hwritten, hkept⟩ := ih hrest
    refine ⟨?_, ?_, ?_, ?_⟩
    · rw [hframe]
    · rw [List.map_cons, hamount, hdata]
      rfl
    · intro a ha
      by_cases hlater : a ∈ stakers
      · exact hwritten a hlater
      · obtain rfl : a = staker := (List.mem_cons.mp ha).resolve_right hlater
        rw [hkept (id, a) fun _ => hlater, hamount]
        exact ⟨Function.update_self .., Option.some_ne_none amount⟩
    · intro key hkey
      have hne : key ≠ (id, staker) := by
        rintro rfl
        exact hkey rfl List.mem_cons_self
      rw [hkept key fun hid hmem => hkey hid (List.mem_cons_of_mem staker hmem)]
      exact Function.update_of_ne hne _ _

variable {digests : Digests Addr} {caller : Addr}

/-- What a successful call does. -/
inductive Effect (digests : Digests Addr) (inv : Invocation Addr home) (s t : State Addr) :
    Call Addr → Prop where
  | initialized {admin stakingContract delegationContract : Addr} (fresh : s.admin = none)
      (eq : t = { s with
        admin := some admin
        stakingContract := some stakingContract
        delegationContract := some delegationContract }) :
      Effect digests inv s t (.initializeSnapshot admin stakingContract delegationContract)
  | recorded {caller : Addr} {id : ℕ} (stakingContract delegationContract : Addr)
      (auth : inv.auth caller = true) (admin : s.admin = some caller)
      (staking : s.stakingContract = some stakingContract)
      (delegation : s.delegationContract = some delegationContract)
      (entries : Unmodified t id (recordedData inv stakingContract))
      (kept : ∀ key, (key.1 = id → key.2 ∉ (recordedData inv stakingContract).map Prod.fst) →
        t.snapshot key = s.snapshot key)
      (supply : t.snapshotTotalSupply id = inv.totalStaked stakingContract)
      (snapshots : inv.snapshotDelegations delegationContract id = true)
      (eq : t = { s with
        snapshot := t.snapshot
        snapshotTotalSupply :=
          Function.update s.snapshotTotalSupply id (t.snapshotTotalSupply id)
        snapshotChecksum := Function.update s.snapshotChecksum id
          (some (digests.checksum (recordedData inv stakingContract))) }) :
      Effect digests inv s t (.recordSnapshot caller id)

theorem exec_effect {call : Call Addr} (h : exec digests inv call s = .ok t) :
    Effect digests inv s t call := by
  cases call with
  | initializeSnapshot admin stakingContract delegationContract =>
    simp only [exec, initializeSnapshot, bind_eq_ok, require_eq_ok, pure_eq_ok] at h
    obtain ⟨-, hfresh, rfl⟩ := h
    exact .initialized hfresh rfl
  | recordSnapshot caller id =>
    simp only [exec, recordSnapshot, bind_eq_ok, requireAuth_eq_ok, expect_eq_ok, require_eq_ok,
      pure_eq_ok] at h
    obtain ⟨-, hauth, admin, hadmin, -, rfl, stakingContract, hstaking, delegationContract,
      hdelegation, total, htotal, stakers, hstakers, ⟨u, stakerData⟩, hrecorded, -, hsnapshots,
      rfl⟩ := h
    obtain ⟨hframe, hdata, hwritten, hkept⟩ := recordStakers_eq_ok hrecorded
    have hrecordedData : recordedData inv stakingContract = stakerData := by
      rw [recordedData, hstakers, hdata]
      rfl
    have hnames : stakerData.map Prod.fst = stakers := by
      rw [hdata, List.map_map]
      exact List.map_id'' (fun _ => rfl) stakers
    apply Effect.recorded stakingContract delegationContract hauth hadmin hstaking hdelegation
    · rw [hrecordedData]
      intro entry hentry
      rw [hdata] at hentry
      obtain ⟨a, ha, rfl⟩ := List.mem_map.mp hentry
      obtain ⟨heq, hne⟩ := hwritten a ha
      obtain ⟨amount, hamount⟩ := Option.ne_none_iff_exists'.mp hne
      show u.snapshot (id, a) = _
      rw [heq, hamount]
      rfl
    · intro key hkey
      rw [hrecordedData, hnames] at hkey
      exact hkept key hkey
    · rw [hframe, htotal]
      exact Function.update_self ..
    · exact hsnapshots
    · rw [hrecordedData, hframe]
      simp only [Function.update_self]

end Recording

/-- The check tells snapshots that are as they were recorded from those that are not. -/
def IntegrityStable (digests : Digests Addr) (inv : Invocation Addr home) (s : State Addr)
    (id : ℕ) (stakerData : List (Addr × ℤ)) : Prop :=
  (Unmodified s id stakerData → verifySnapshotIntegrity digests inv s id = .ok true) ∧
    (¬ Unmodified s id stakerData → verifySnapshotIntegrity digests inv s id = .ok false)

section Runs

variable [DecidableEq Addr] {digests : Digests Addr} {inv : Invocation Addr home}
  {s t : State Addr} {call : Call Addr} {id : ℕ} {stakingContract caller : Addr}
  {stakerData : List (Addr × ℤ)} {steps pre : List (Step Addr home)}

/-- The snapshot is stored as it was recorded, and the contract stays initialised. -/
structure Stored (digests : Digests Addr) (stakingContract : Addr) (id : ℕ)
    (stakerData : List (Addr × ℤ)) (s : State Addr) : Prop where
  ready : s.admin ≠ none
  staking : s.stakingContract = some stakingContract
  checksum : s.snapshotChecksum id = some (digests.checksum stakerData)
  entries : Unmodified s id stakerData

omit [DecidableEq Addr] in
theorem Effect.stored_of_record (h : Effect digests inv s t (.recordSnapshot caller id))
    (hstaking : s.stakingContract = some stakingContract) :
    Stored digests stakingContract id (recordedData inv stakingContract) t := by
  cases h with
  | recorded stakingContract' delegationContract auth admin staking _ entries _ _ _ eq =>
    obtain rfl := Option.some.inj (hstaking.symm.trans staking)
    constructor
    · rw [eq]
      show s.admin ≠ none
      rw [admin]
      exact Option.some_ne_none caller
    · rw [eq]
      exact staking
    · rw [eq]
      exact Function.update_self ..
    · exact entries

omit [DecidableEq Addr] in
/-- Only recording under the same id touches a stored snapshot. -/
theorem Effect.stored_kept (h : Effect digests inv s t call)
    (hother : ∀ caller, call ≠ .recordSnapshot caller id)
    (hs : Stored digests stakingContract id stakerData s) :
    Stored digests stakingContract id stakerData t := by
  cases h with
  | initialized fresh _ => exact absurd fresh hs.ready
  | @recorded caller id' stakingContract' delegationContract _ _ _ _ _ kept _ _ eq =>
    have hid : id ≠ id' := by
      rintro rfl
      exact hother caller rfl
    constructor
    · rw [eq]
      exact hs.ready
    · rw [eq]
      exact hs.staking
    · rw [eq]
      exact (Function.update_of_ne hid _ _).trans hs.checksum
    · intro entry hentry
      rw [kept (id, entry.1) fun heq => absurd heq hid]
      exact hs.entries entry hentry

theorem run_stored
    (hx : (machine home digests).Executes (deployed Addr) steps pre
      (inv, .recordSnapshot caller id) t)
    (hstaking : (reached digests pre).stakingContract = some stakingContract)
    (hlast : ∀ later step u, (machine home digests).Executes (deployed Addr) steps later step u →
      pre.length < later.length → ∀ caller, step.2 ≠ .recordSnapshot caller id) :
    Stored digests stakingContract id (recordedData inv stakingContract)
      (reached digests steps) := by
  have hswitched : (machine home digests).SwitchedOnIn
      (fun s step => step = (inv, .recordSnapshot caller id) ∧
        s.stakingContract = some stakingContract)
      (fun _ step => ∃ caller, step.2 = .recordSnapshot caller id) (deployed Addr) steps := by
    refine ⟨pre, _, t, hx, ⟨rfl, hstaking⟩, ?_⟩
    intro later step u hu hlt hagain
    obtain ⟨caller, heq⟩ := hagain
    exact hlast later step u hu hlt caller heq
  apply Machine.of_switchedOnIn _ _ hswitched
  · intro step s t h hon
    obtain ⟨rfl, hstaking⟩ := hon
    have hexec : exec digests inv (.recordSnapshot caller id) s = .ok t := h
    exact (exec_effect hexec).stored_of_record hstaking
  · intro step s t h hoff hs
    exact (exec_effect h).stored_kept (fun caller heq => hoff ⟨caller, heq⟩) hs

end Runs

/-- After a snapshot was recorded its entries stay as they are, and in every later state, with
whatever entries it may have, the check is right about them exactly if the staking contract still
lists the recorded stakers in the recorded order, as far as the entries are unmodified. -/
theorem run_integrity_iff [DecidableEq Addr] (digests : Digests Addr)
    (steps pre : List (Step Addr home)) (inv : Invocation Addr home) (caller : Addr) (id : ℕ)
    (t : State Addr) (stakingContract : Addr)
    (hx : (machine home digests).Executes (deployed Addr) steps pre
      (inv, .recordSnapshot caller id) t)
    (hstaking : (reached digests pre).stakingContract = some stakingContract)
    (hlast : ∀ later step u, (machine home digests).Executes (deployed Addr) steps later step u →
      pre.length < later.length → ∀ caller, step.2 ≠ .recordSnapshot caller id) :
    Unmodified (reached digests steps) id (recordedData inv stakingContract) ∧
      ∀ (table : ℕ × Addr → Option ℤ) (checker : Invocation Addr home),
        CollisionFree digests checker stakingContract
            { reached digests steps with snapshot := table } id
            (recordedData inv stakingContract) →
          (IntegrityStable digests checker { reached digests steps with snapshot := table } id
              (recordedData inv stakingContract) ↔
            ∃ stakers, checker.stakers stakingContract = some stakers ∧
              (Unmodified { reached digests steps with snapshot := table } id
                  (recordedData inv stakingContract) →
                stakers = (recordedData inv stakingContract).map Prod.fst)) := by
  have hstored := run_stored hx hstaking hlast
  constructor
  · exact hstored.entries
  · intro table checker hfree
    exact integrity_iff (s := { reached digests steps with snapshot := table }) hstored.staking
      hstored.checksum hfree

/-- An invocation that every account signed, in which the given addresses stake a hundred each. -/
def stakedBy (stakers : List ℕ) : Invocation ℕ 0 where
  toEnv := signedByAll 0
  totalStaked _ := some (100 * stakers.length)
  stakers _ := some stakers
  stakedAmount _ _ := some 100
  snapshotDelegations _ _ := true
  delegationAtSnapshot _ _ _ := some none

/-- A host where an address and an amount are one byte each. -/
def byteDigests : Digests ℕ where
  sha256 data := BitVec.ofNat 256 (data.foldl (fun digest byte => 256 * digest + byte.toNat) 0)
  stakerXdr data := data.flatMap fun entry => [UInt8.ofNat entry.1, UInt8.ofNat entry.2.toNat]

def initialised : List (Step ℕ 0) := [(stakedBy [5], .initializeSnapshot 1 2 3)]

/-- Staker 5 is recorded. -/
def recordedRun : List (Step ℕ 0) := initialised ++ [(stakedBy [5], .recordSnapshot 1 7)]

theorem recordedRun_executes : (machine 0 byteDigests).Executes (deployed ℕ) recordedRun
    initialised (stakedBy [5], .recordSnapshot 1 7) (reached byteDigests recordedRun) := by
  apply Machine.executes_of_run_ne
  intro hsame
  exact absurd (congrArg (fun s => s.snapshot (7, 5)) hsame) (by decide)

theorem recordedRun_last (later : List (Step ℕ 0)) (step : Step ℕ 0) (u : State ℕ)
    (hx : (machine 0 byteDigests).Executes (deployed ℕ) recordedRun later step u)
    (hlt : initialised.length < later.length) : ∀ caller, step.2 ≠ .recordSnapshot caller 7 := by
  have hlength : later.length < 2 := hx.length_lt
  have hone : 1 < later.length := hlt
  omega

theorem recordedRun_collisionFree : CollisionFree byteDigests (stakedBy [5]) 2
    (reached byteDigests recordedRun) 7 (recordedData (stakedBy [5]) 2) := by
  intro stakers other hstakers hother _
  obtain rfl := Option.some.inj hstakers
  have hdata : storedStakerData (reached byteDigests recordedRun) 7 [5] = some [(5, 100)] := rfl
  exact Option.some.inj (hother.symm.trans hdata)

theorem recordedRun_stable :
    IntegrityStable byteDigests (stakedBy [5]) (reached byteDigests recordedRun) 7
      (recordedData (stakedBy [5]) 2) :=
  ((run_integrity_iff byteDigests recordedRun _ _ 1 7 _ 2 recordedRun_executes rfl
    recordedRun_last).2 _ _ recordedRun_collisionFree).mpr ⟨[5], rfl, fun _ => rfl⟩

/-- Then staker 6 joins, and the check fails. -/
theorem recordedRun_joined :
    verifySnapshotIntegrity byteDigests (stakedBy [5, 6]) (reached byteDigests recordedRun) 7 =
        .ok false ∧
      ¬ IntegrityStable byteDigests (stakedBy [5, 6]) (reached byteDigests recordedRun) 7
        (recordedData (stakedBy [5]) 2) := by
  have hfalse : verifySnapshotIntegrity byteDigests (stakedBy [5, 6])
      (reached byteDigests recordedRun) 7 = .ok false := rfl
  have hunmodified : Unmodified (reached byteDigests recordedRun) 7
      (recordedData (stakedBy [5]) 2) := by
    intro entry hentry
    obtain rfl := List.mem_singleton.mp hentry
    rfl
  constructor
  · exact hfalse
  · intro hstable
    rw [hstable.1 hunmodified] at hfalse
    cases hfalse

end Snapshot
