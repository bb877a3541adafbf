import MentorsMind.Lib.Table
import MentorsMind.Vesting.Effects

/-! The ids of schedules. The admin's path takes the number after the stored one, a Merkle claim
takes the stored one itself, so that a Merkle claim after the admin's path meets a schedule. -/
namespace Vesting
open Outcome Soroban Shared

variable {Addr : Type} [DecidableEq Addr] {home : Addr}

/-- The call creates a schedule and returns its id. -/
def CreatesAs (digests : Digests Addr) (s : State Addr) (step : Step Addr home) (id : ℕ)
    (t : State Addr) : Prop :=
  match step.2 with
  | .createSchedule g => createSchedule step.1 s g = .ok (t, id)
  | .claimVestingMerkle g proof => claimVestingMerkle digests step.1 s g proof = .ok (t, id)
  | _ => False

/-- Both schedules are for the same beneficiary, the same total and the same times. -/
structure SameTerms (a b : VestingSchedule Addr) : Prop where
  beneficiary : a.beneficiary = b.beneficiary
  total : a.total = b.total
  cliffEnd : a.cliffEnd = b.cliffEnd
  vestingEnd : a.vestingEnd = b.vestingEnd
  start : a.start = b.start

/-- Whatever is created gets an id that no schedule has, and no call changes the terms of a
schedule, which only its revocation removes. -/
structure NeverOverwritten (digests : Digests Addr) (balance : Addr → Addr → ℕ)
    (steps : List (Step Addr home)) : Prop where
  fresh : ∀ pre step t id, (machine home digests).Executes (deployed balance) steps pre step t →
    CreatesAs digests ((machine home digests).run (deployed balance) pre) step id t →
    ((machine home digests).run (deployed balance) pre).schedule id = none
  kept : ∀ pre step t, (machine home digests).Executes (deployed balance) steps pre step t →
    ∀ id schedule,
      ((machine home digests).run (deployed balance) pre).schedule id = some schedule →
      step.2 = .revoke id ∨ ∃ later, t.schedule id = some later ∧ SameTerms schedule later

/-- The admin creates a schedule. -/
def AdminCreates (_ : State Addr) (step : Step Addr home) : Prop :=
  match step.2 with
  | .createSchedule _ => True
  | _ => False

/-- A Merkle claim, or the revocation of the schedule that the stored number names. -/
def FreesStoredId (s : State Addr) (step : Step Addr home) : Prop :=
  match step.2 with
  | .claimVestingMerkle _ _ => True
  | .revoke id => id = s.nextScheduleId
  | _ => False

/-- The last creation of the run was the admin's, and its schedule is not revoked. -/
def LastCreationStands (digests : Digests Addr) (balance : Addr → Addr → ℕ)
    (steps : List (Step Addr home)) : Prop :=
  (machine home digests).SwitchedOnIn AdminCreates FreesStoredId (deployed balance) steps

/-- The stored number is the highest id, and that of a schedule exactly if the last creation
was the admin's and stands. -/
structure Numbered (digests : Digests Addr) (balance : Addr → Addr → ℕ)
    (pre : List (Step Addr home)) (s : State Addr) : Prop where
  le : ∀ id schedule, s.schedule id = some schedule → id ≤ s.nextScheduleId
  stored_iff : (∃ schedule, s.schedule s.nextScheduleId = some schedule) ↔
    LastCreationStands digests balance pre
  blank : s.admin = none →
    s.nextScheduleId = 0 ∧ (∀ id, s.schedule id = none) ∧ s.merkleRoot = none

variable {digests : Digests Addr} {balance : Addr → Addr → ℕ} {pre steps : List (Step Addr home)}

omit [DecidableEq Addr] in
theorem SameTerms.refl (a : VestingSchedule Addr) : SameTerms a a := ⟨rfl, rfl, rfl, rfl, rfl⟩

/-- A call that leaves the number alone, and does not create or free, keeps whether the
schedule of that number is there. -/
theorem lastCreationStands_snoc {step : Step Addr home} {t : State Addr}
    (hx : (machine home digests).exec step ((machine home digests).run (deployed balance) pre) =
      .ok t)
    (hon : ¬ AdminCreates ((machine home digests).run (deployed balance) pre) step) :
    LastCreationStands digests balance (pre ++ [step]) ↔
      ¬ FreesStoredId ((machine home digests).run (deployed balance) pre) step ∧
        LastCreationStands digests balance pre := by
  unfold LastCreationStands
  rw [Machine.switchedOnIn_snoc_ok hx, or_iff_right hon]

/-- A call keeps what the number says if it leaves the schedules and the number alone. -/
theorem Numbered.of_same {step : Step Addr home} {t : State Addr}
    (hs : Numbered digests balance pre ((machine home digests).run (deployed balance) pre))
    (hx : (machine home digests).exec step ((machine home digests).run (deployed balance) pre) =
      .ok t)
    (hon : ¬ AdminCreates ((machine home digests).run (deployed balance) pre) step)
    (hoff : ¬ FreesStoredId ((machine home digests).run (deployed balance) pre) step)
    (hnext : t.nextScheduleId =
      ((machine home digests).run (deployed balance) pre).nextScheduleId)
    (hschedule : t.schedule = ((machine home digests).run (deployed balance) pre).schedule)
    (hadmin : t.admin = none → ((machine home digests).run (deployed balance) pre).admin = none ∧
      t.merkleRoot = ((machine home digests).run (deployed balance) pre).merkleRoot) :
    Numbered digests balance (pre ++ [step]) t := by
  refine ⟨?_, ?_, ?_⟩
  · rw [hschedule, hnext]
    exact hs.le
  · rw [hschedule, hnext, lastCreationStands_snoc hx hon, hs.stored_iff]
    exact (and_iff_right hoff).symm
  · intro hblank
    rw [hschedule, hnext, (hadmin hblank).2]
    exact hs.blank (hadmin hblank).1

/-- With the schedule that is created the number goes up, to at least the id of it. -/
theorem Numbered.le_of_created {s : State Addr} {k : ℕ} {created : VestingSchedule Addr}
    (hs : Numbered digests balance pre s) (hk : k ≤ s.nextScheduleId + 1) :
    ∀ id schedule, Function.update s.schedule k (some created) id = some schedule →
      id ≤ s.nextScheduleId + 1 := by
  apply Table.forall_update
  · intro id schedule hfound
    exact (hs.le id schedule hfound).trans (Nat.le_succ _)
  · exact hk

theorem Numbered.snoc {step : Step Addr home} {t : State Addr}
    (hs : Numbered digests balance pre ((machine home digests).run (deployed balance) pre))
    (hx : (machine home digests).exec step ((machine home digests).run (deployed balance) pre) =
      .ok t) : Numbered digests balance (pre ++ [step]) t := by
  obtain ⟨inv, call⟩ := step
  have heffect : Effect digests inv ((machine home digests).run (deployed balance) pre) t call :=
    exec_effect hx
  have hstands := lastCreationStands_snoc hx
  have hcreates : LastCreationStands digests balance (pre ++ [(inv, call)]) ↔ _ :=
    Machine.switchedOnIn_snoc_ok hx
  have hsame := hs.of_same hx
  generalize (machine home digests).run (deployed balance) pre = s at *
  cases heffect with
  | @initialized admin token fresh eq =>
    obtain ⟨hzero, -, -⟩ := hs.blank fresh
    refine hsame not_false not_false ?_ (by rw [eq]) (by rw [eq]; exact nofun)
    rw [eq, hzero]
  | @created g start initialised start_eq fits eq =>
    refine ⟨?_, ?_, ?_⟩
    · rw [eq, addSchedule_schedule, addSchedule_nextScheduleId]
      exact hs.le_of_created le_rfl
    · refine iff_of_true ⟨g.schedule start, ?_⟩ (hcreates.mpr (.inl trivial))
      rw [eq]
      exact Function.update_self ..
    · intro hblank
      rw [eq] at hblank
      exact absurd hblank initialised
  | @claimed id schedule token amount found auth claimable pos stored paid eq =>
    have hfound : ∀ other, (∃ schedule, t.schedule other = some schedule) ↔
        ∃ schedule, s.schedule other = some schedule := by
      intro other
      rw [eq]
      by_cases hid : other = id
      · subst hid
        simp [found]
      · simp [Function.update_of_ne hid]
    have hnext : t.nextScheduleId = s.nextScheduleId := by rw [eq]
    refine ⟨?_, ?_, ?_⟩
    · rw [eq]
      exact Table.forall_update hs.le (hs.le id schedule found)
    · rw [hnext, hfound, hstands not_false, hs.stored_iff]
      exact (and_iff_right not_false).symm
    · intro hblank
      rw [eq] at hblank
      have hnone := (hs.blank hblank).2.1 id
      rw [found] at hnone
      cases hnone
  | @revoked id schedule admin vested stored found vested_eq refund_fits refunds eq =>
    have hnext : t.nextScheduleId = s.nextScheduleId := by rw [eq]
    refine ⟨?_, ?_, ?_⟩
    · intro other later hlater
      rw [hnext]
      rw [eq] at hlater
      exact hs.le other later (Table.erase_eq_some_iff.mp hlater).2
    · rw [hnext, hstands not_false, ← hs.stored_iff, eq]
      by_cases hid : s.nextScheduleId = id
      · subst hid
        simp [FreesStoredId]
      · simp [Function.update_of_ne hid, FreesStoredId, Ne.symm hid]
    · intro hblank
      rw [eq] at hblank
      rw [stored] at hblank
      cases hblank
  | @rootSet merkleRoot initialised eq =>
    refine hsame not_false not_false (by rw [eq]) (by rw [eq]) ?_
    intro hblank
    rw [eq] at hblank
    exact absurd hblank initialised
  | @merkleClaimed g proof merkleRoot stored unclaimed proved eq =>
    refine ⟨?_, ?_, ?_⟩
    · rw [eq, addSchedule_schedule, addSchedule_nextScheduleId]
      exact hs.le_of_created (Nat.le_succ _)
    · refine iff_of_false ?_ ?_
      · rintro ⟨schedule, hfound⟩
        rw [eq, addSchedule_nextScheduleId, addSchedule_schedule,
          Function.update_of_ne (Nat.succ_ne_self _)] at hfound
        exact absurd (hs.le _ schedule hfound) (by omega)
      · rw [hstands not_false]
        exact fun hfrees => hfrees.1 trivial
    · intro hblank
      rw [eq] at hblank
      have hroot := (hs.blank hblank).2.2
      rw [stored] at hroot
      cases hroot
  | received _ _ eq | elsewhere _ eq =>
    refine hsame not_false not_false (by rw [eq]) (by rw [eq]) ?_
    rw [eq]
    exact fun hadmin => ⟨hadmin, rfl⟩

theorem run_numbered (pre : List (Step Addr home)) :
    Numbered digests balance pre ((machine home digests).run (deployed balance) pre) := by
  refine Machine.run_history (M := machine home digests) (P := Numbered digests balance)
    ?_ (fun _ _ _ hs hx => hs.snoc hx) ?_ pre
  · refine ⟨fun _ _ h => (nomatch h), iff_of_false ?_ Machine.not_switchedOnIn_nil,
      fun _ => ⟨rfl, fun _ => rfl, rfl⟩⟩
    rintro ⟨schedule, hfound⟩
    cases hfound
  · intro pre step e hs herror
    refine ⟨hs.le, ?_, hs.blank⟩
    unfold LastCreationStands
    rw [Machine.switchedOnIn_snoc_error herror]
    exact hs.stored_iff

/-- A call keeps the terms of all schedules that it neither revokes nor overwrites. -/
theorem Effect.kept {inv : Invocation Addr home} {s t : State Addr} {call : Call Addr}
    (h : Effect digests inv s t call)
    (hle : ∀ id schedule, s.schedule id = some schedule → id ≤ s.nextScheduleId)
    (hfree : ∀ g proof, call = .claimVestingMerkle g proof →
      s.schedule s.nextScheduleId = none) {id : ℕ} {schedule : VestingSchedule Addr}
    (hstored : s.schedule id = some schedule) :
    call = .revoke id ∨ ∃ later, t.schedule id = some later ∧ SameTerms schedule later := by
  have hsame : t.schedule id = s.schedule id →
      ∃ later, t.schedule id = some later ∧ SameTerms schedule later := by
    intro heq
    exact ⟨schedule, heq.trans hstored, SameTerms.refl schedule⟩
  cases h with
  | created initialised start_eq fits eq =>
    have hne : id ≠ s.nextScheduleId + 1 := by
      have hid := hle id schedule hstored
      omega
    right
    apply hsame
    rw [eq, addSchedule_schedule, Function.update_of_ne hne]
  | @claimed other found' token amount found auth claimable pos stored paid eq =>
    right
    rw [eq]
    by_cases hid : id = other
    · subst hid
      obtain rfl := Option.some.inj (found.symm.trans hstored)
      exact ⟨_, Function.update_self .., rfl, rfl, rfl, rfl, rfl⟩
    · exact ⟨schedule, by simp [Function.update_of_ne hid, hstored], SameTerms.refl schedule⟩
  | @revoked other found' admin vested stored found vested_eq refund_fits refunds eq =>
    by_cases hid : id = other
    · exact .inl (by rw [hid])
    · right
      apply hsame
      rw [eq]
      exact Function.update_of_ne hid ..
  | @merkleClaimed g proof merkleRoot stored unclaimed proved eq =>
    have hne : id ≠ s.nextScheduleId := by
      rintro rfl
      rw [hfree g proof rfl] at hstored
      cases hstored
    right
    apply hsame
    rw [eq, addSchedule_schedule, Function.update_of_ne hne]
  | initialized _ eq | rootSet _ eq | received _ _ eq | elsewhere _ eq =>
    right
    apply hsame
    rw [eq]

/-- In every run, schedules are never overwritten exactly if no Merkle claim follows a schedule
that the admin created last and that is still there. -/
theorem neverOverwritten_iff (digests : Digests Addr) (balance : Addr → Addr → ℕ)
    (steps : List (Step Addr home)) :
    NeverOverwritten digests balance steps ↔
      ∀ pre inv g proof t, (machine home digests).Executes (deployed balance) steps pre
        (inv, .claimVestingMerkle g proof) t → ¬ LastCreationStands digests balance pre := by
  have hfree : ∀ pre : List (Step Addr home), ¬ LastCreationStands digests balance pre ↔
      ((machine home digests).run (deployed balance) pre).schedule
        ((machine home digests).run (deployed balance) pre).nextScheduleId = none := by
    intro pre
    rw [← (run_numbered pre).stored_iff, Option.eq_none_iff_forall_ne_some, not_exists]
  constructor
  · intro hkept pre inv g proof t hx
    have hcall := hx.exec_eq
    simp only [machine, exec, bind_eq_ok, pure_eq_ok] at hcall
    obtain ⟨⟨claimed, id⟩, hclaimed, rfl⟩ := hcall
    have hcreates : CreatesAs digests ((machine home digests).run (deployed balance) pre)
        (inv, .claimVestingMerkle g proof) id claimed := hclaimed
    obtain ⟨root, -, -, -, rfl, -⟩ := claimVestingMerkle_spec hclaimed
    exact (hfree pre).mpr (hkept.fresh pre _ _ _ hx hcreates)
  · intro hclaims
    constructor
    · rintro pre ⟨inv, call⟩ t id hx hcreates
      cases call with
      | createSchedule g =>
        obtain ⟨start, -, -, -, -, -, rfl, -⟩ := createSchedule_spec hcreates
        rw [Option.eq_none_iff_forall_ne_some]
        intro schedule hfound
        have hle := (run_numbered pre).le _ schedule hfound
        omega
      | claimVestingMerkle g proof =>
        obtain ⟨root, -, -, -, rfl, -⟩ := claimVestingMerkle_spec hcreates
        exact (hfree pre).mp (hclaims pre inv g proof t hx)
      | _ => exact hcreates.elim
    · rintro pre ⟨inv, call⟩ t hx id schedule hstored
      refine (exec_effect hx.exec_eq).kept (run_numbered pre).le ?_ hstored
      rintro g proof rfl
      exact (hfree pre).mp (hclaims pre inv g proof t hx)

/-- 500 for account 4 over a day, without a cliff. -/
def dayGrant : Grant ℕ :=
  { wholeDayGrant with beneficiary := 4, totalAmount := 500, total_fits := by decide }

/-- The digest of the leaf of `dayGrant`. -/
def dayGrantLeaf : Hash := 0xe9aaaee9c6d4a97fb725aaf534a8f521569eff4b005dbe0fbef323ff870cf666

/-- The admin creates a schedule for 3, and publishes a root with one leaf. -/
def rootedRun : List (Step ℕ 0) :=
  [(acceptedAt 1000, .initializeVesting 1 9),
    (acceptedAt 1000, .createSchedule wholeDayGrant),
    (acceptedAt 1000, .setMerkleRoot dayGrantLeaf)]

/-- The claim of 4 takes the id 1, which is that of the schedule of 3. -/
theorem rootedRun_overwritten : ¬ NeverOverwritten (leafDigests dayGrant dayGrantLeaf)
    (fun _ _ => 0) (rootedRun ++ [(acceptedAt 1000, .claimVestingMerkle dayGrant [])]) := by
  intro hnever
  have hbefore : ((machine 0 (leafDigests dayGrant dayGrantLeaf)).run (deployed fun _ _ => 0)
      rootedRun).schedule 1 = some ⟨3, 1000, 0, 1000, 87400, 1000⟩ := by
    decide +kernel
  have hafter : ((machine 0 (leafDigests dayGrant dayGrantLeaf)).run (deployed fun _ _ => 0)
      (rootedRun ++ [(acceptedAt 1000, .claimVestingMerkle dayGrant [])])).schedule 1 =
        some ⟨4, 500, 0, 1000, 87400, 1000⟩ := by
    decide +kernel
  have hx : (machine 0 (leafDigests dayGrant dayGrantLeaf)).Executes (deployed fun _ _ => 0)
      (rootedRun ++ [(acceptedAt 1000, .claimVestingMerkle dayGrant [])]) rootedRun
      (acceptedAt 1000, .claimVestingMerkle dayGrant [])
      ((machine 0 (leafDigests dayGrant dayGrantLeaf)).run (deployed fun _ _ => 0)
        (rootedRun ++ [(acceptedAt 1000, .claimVestingMerkle dayGrant [])])) := by
    apply Machine.executes_of_run_ne
    intro heq
    rw [heq, hbefore] at hafter
    revert hafter
    decide
  have hkept := hnever.kept _ _ _ hx 1
  generalize (machine 0 (leafDigests dayGrant dayGrantLeaf)).run (deployed fun _ _ => 0)
    rootedRun = before at *
  generalize (machine 0 (leafDigests dayGrant dayGrantLeaf)).run (deployed fun _ _ => 0)
    (rootedRun ++ [(acceptedAt 1000, .claimVestingMerkle dayGrant [])]) = after at *
  rcases hkept _ hbefore with hrevoked | ⟨later, hlater, hterms⟩
  · cases hrevoked
  · obtain rfl := Option.some.inj (hafter.symm.trans hlater)
    exact absurd hterms.beneficiary (by decide)

end Vesting
