import MentorsMind.Escrow.Changes

/-! The comparison of the stored state with a snapshot after an upgrade. -/
namespace Escrow
open Outcome Soroban Shared

structure StateVerificationReport where
  fieldsChecked : ℕ
  mismatches : List String

/-- The comparison of one field, and what to report when it differs. -/
structure FieldCheck where
  differs : Bool
  message : String

def StateVerificationReport.check (report : StateVerificationReport) (field : FieldCheck) :
    Result StateVerificationReport := do
  let fieldsChecked ← u32 (report.fieldsChecked + 1)
  pure {
    fieldsChecked := fieldsChecked
    mismatches :=
      if field.differs then report.mismatches ++ [field.message] else report.mismatches }

section Report

/-- The report lists the messages of the fields that differ, unless there are too many
fields to count. -/
theorem foldlM_check_eq_ok {fields : List FieldCheck} {report final : StateVerificationReport}
    (hcount : report.fieldsChecked < 2 ^ 32) :
    fields.foldlM StateVerificationReport.check report = .ok final ↔
      report.fieldsChecked + fields.length < 2 ^ 32 ∧ final = {
        fieldsChecked := report.fieldsChecked + fields.length
        mismatches := report.mismatches ++
          (fields.filter FieldCheck.differs).map FieldCheck.message } := by
  induction fields generalizing report with
  | nil =>
    constructor
    · intro h
      obtain rfl := pure_eq_ok.mp h
      exact ⟨hcount, by simp⟩
    · rintro ⟨-, rfl⟩
      simp [List.foldlM_nil, pure, Except.pure]
  | cons field fields ih =>
    simp only [List.foldlM_cons, bind_eq_ok, StateVerificationReport.check, u32_eq_ok,
      pure_eq_ok]
    constructor
    · rintro ⟨_, ⟨_, ⟨hlt, rfl⟩, rfl⟩, h⟩
      obtain ⟨hle, rfl⟩ := (ih hlt).mp h
      refine ⟨by simp at hle ⊢; omega, ?_⟩
      cases hdiffers : field.differs <;> simp [hdiffers] <;> omega
    · rintro ⟨hle, rfl⟩
      simp only [List.length_cons] at hle
      refine ⟨_, ⟨_, ⟨by omega, rfl⟩, rfl⟩, (ih (by simp; omega)).mpr ⟨by simp; omega, ?_⟩⟩
      cases hdiffers : field.differs <;> simp [hdiffers] <;> omega

end Report

variable {Addr : Type}

/-- The fields of a record in the order of their comparison. The id of the session, the
times of creation and resolution, the release delay, the dispute reason, the USD amounts
and the path payment assets are not among them. -/
def recordChecks [DecidableEq Addr] (currentRec snapshotRec : EscrowRecord Addr) :
    List FieldCheck :=
  [⟨currentRec.id ≠ snapshotRec.id, "EscrowRecord.id mismatch"⟩,
    ⟨currentRec.mentor ≠ snapshotRec.mentor, "EscrowRecord.mentor mismatch"⟩,
    ⟨currentRec.learner ≠ snapshotRec.learner, "EscrowRecord.learner mismatch"⟩,
    ⟨currentRec.amount ≠ snapshotRec.amount, "EscrowRecord.amount mismatch"⟩,
    ⟨currentRec.status ≠ snapshotRec.status, "EscrowRecord.status mismatch"⟩,
    ⟨currentRec.tokenAddress ≠ snapshotRec.tokenAddress, "EscrowRecord.token_address mismatch"⟩,
    ⟨currentRec.platformFee ≠ snapshotRec.platformFee, "EscrowRecord.platform_fee mismatch"⟩,
    ⟨currentRec.netAmount ≠ snapshotRec.netAmount, "EscrowRecord.net_amount mismatch"⟩,
    ⟨currentRec.sessionEndTime ≠ snapshotRec.sessionEndTime,
      "EscrowRecord.session_end_time mismatch"⟩,
    ⟨currentRec.totalSessions ≠ snapshotRec.totalSessions,
      "EscrowRecord.total_sessions mismatch"⟩,
    ⟨currentRec.sessionsCompleted ≠ snapshotRec.sessionsCompleted,
      "EscrowRecord.sessions_completed mismatch"⟩]

def snapshotChecks [DecidableEq Addr] (b : Book Addr) (snapshotRec : EscrowRecord Addr) :
    List FieldCheck :=
  match b.escrow snapshotRec.id with
  | some currentRec => recordChecks currentRec snapshotRec
  | none => [⟨true, "EscrowRecord missing in current state"⟩]

/-- Of the configuration only the number of escrows is compared. -/
def verifyPostUpgradeState [DecidableEq Addr] (b : Book Addr) (r : Recovery Addr)
    (snapshotId : ℕ) : Result StateVerificationReport := do
  let records ← expect (r.snapshot snapshotId) (.panic "Snapshot not found")
  let snapshotMeta ← expect (r.snapshotMetadata snapshotId)
    (.panic "Snapshot metadata not found")
  let countCheck : FieldCheck :=
    ⟨b.escrowCount ≠ snapshotMeta.recordCount, "EscrowCount mismatch"⟩
  (countCheck :: records.flatMap (snapshotChecks b)).foldlM StateVerificationReport.check ⟨0, []⟩

/-- The records that a snapshot of the state holds. -/
def captured (s : State Addr) : List (EscrowRecord Addr) :=
  collectRecords s.custody.book s.custody.book.escrowCount 1

section Intact

/-- The fields that the verification compares are the same. -/
structure SameChecked (e e' : EscrowRecord Addr) : Prop where
  id : e'.id = e.id
  mentor : e'.mentor = e.mentor
  learner : e'.learner = e.learner
  amount : e'.amount = e.amount
  status : e'.status = e.status
  tokenAddress : e'.tokenAddress = e.tokenAddress
  platformFee : e'.platformFee = e.platformFee
  netAmount : e'.netAmount = e.netAmount
  sessionEndTime : e'.sessionEndTime = e.sessionEndTime
  totalSessions : e'.totalSessions = e.totalSessions
  sessionsCompleted : e'.sessionsCompleted = e.sessionsCompleted

/-- The other fields are the same. -/
structure SameUnchecked (e e' : EscrowRecord Addr) : Prop where
  sessionId : e'.sessionId = e.sessionId
  createdAt : e'.createdAt = e.createdAt
  autoReleaseDelay : e'.autoReleaseDelay = e.autoReleaseDelay
  disputeReason : e'.disputeReason = e.disputeReason
  resolvedAt : e'.resolvedAt = e.resolvedAt
  usdAmount : e'.usdAmount = e.usdAmount
  quotedTokenAmount : e'.quotedTokenAmount = e.quotedTokenAmount
  sendAsset : e'.sendAsset = e.sendAsset
  destAsset : e'.destAsset = e.destAsset

theorem eq_iff_same {e e' : EscrowRecord Addr} :
    e' = e ↔ SameChecked e e' ∧ SameUnchecked e e' := by
  constructor
  · rintro rfl
    exact ⟨⟨rfl, rfl, rfl, rfl, rfl, rfl, rfl, rfl, rfl, rfl, rfl⟩,
      ⟨rfl, rfl, rfl, rfl, rfl, rfl, rfl, rfl, rfl⟩⟩
  · rintro ⟨hchecked, hunchecked⟩
    cases hchecked
    cases hunchecked
    cases e
    cases e'
    simp_all

/-- The configuration and every captured record have in `t` the values they had in `s`. -/
structure Intact (s t : State Addr) : Prop where
  admin : t.config.admin = s.config.admin
  treasury : t.config.treasury = s.config.treasury
  feeBps : t.config.feeBps = s.config.feeBps
  autoRelDelay : t.config.autoRelDelay = s.config.autoRelDelay
  escrowCount : t.custody.book.escrowCount = s.custody.book.escrowCount
  record : ∀ e ∈ captured s, t.custody.book.escrow e.id = some e

/-- So far as the verification compares them. -/
structure CheckedIntact (s t : State Addr) : Prop where
  escrowCount : t.custody.book.escrowCount = s.custody.book.escrowCount
  record : ∀ e ∈ captured s, ∃ e', t.custody.book.escrow e.id = some e' ∧ SameChecked e e'

/-- So far as it does not. -/
structure UncheckedIntact (s t : State Addr) : Prop where
  admin : t.config.admin = s.config.admin
  treasury : t.config.treasury = s.config.treasury
  feeBps : t.config.feeBps = s.config.feeBps
  autoRelDelay : t.config.autoRelDelay = s.config.autoRelDelay
  record : ∀ e ∈ captured s, ∀ e', t.custody.book.escrow e.id = some e' → SameUnchecked e e'

theorem intact_iff {s t : State Addr} :
    Intact s t ↔ CheckedIntact s t ∧ UncheckedIntact s t := by
  constructor
  · intro h
    constructor
    · exact ⟨h.escrowCount, fun e he => ⟨e, h.record e he, (eq_iff_same.mp rfl).1⟩⟩
    · refine ⟨h.admin, h.treasury, h.feeBps, h.autoRelDelay, ?_⟩
      intro e he e' hfound
      obtain rfl : e = e' := Option.some.inj ((h.record e he).symm.trans hfound)
      exact (eq_iff_same.mp rfl).2
  · rintro ⟨hchecked, hunchecked⟩
    refine ⟨hunchecked.admin, hunchecked.treasury, hunchecked.feeBps, hunchecked.autoRelDelay,
      hchecked.escrowCount, ?_⟩
    intro e he
    obtain ⟨e', hfound, hsame⟩ := hchecked.record e he
    rw [hfound, eq_iff_same.mpr ⟨hsame, hunchecked.record e he e' hfound⟩]

end Intact

section Checks

variable [DecidableEq Addr]

theorem recordChecks_agree_iff {e e' : EscrowRecord Addr} :
    (∀ field ∈ recordChecks e' e, field.differs = false) ↔ SameChecked e e' := by
  simp only [recordChecks, List.forall_mem_cons, decide_eq_false_iff_not, not_not]
  constructor
  · rintro ⟨hid, hmentor, hlearner, hamount, hstatus, htoken, hfee, hnet, hend, htotal, hdone, -⟩
    exact ⟨hid, hmentor, hlearner, hamount, hstatus, htoken, hfee, hnet, hend, htotal, hdone⟩
  · intro h
    exact ⟨h.id, h.mentor, h.learner, h.amount, h.status, h.tokenAddress, h.platformFee,
      h.netAmount, h.sessionEndTime, h.totalSessions, h.sessionsCompleted, by simp⟩

theorem snapshotChecks_agree_iff {b : Book Addr} {e : EscrowRecord Addr} :
    (∀ field ∈ snapshotChecks b e, field.differs = false) ↔
      ∃ e', b.escrow e.id = some e' ∧ SameChecked e e' := by
  unfold snapshotChecks
  cases hfound : b.escrow e.id with
  | none => simp
  | some e' => simp [recordChecks_agree_iff]

theorem snapshotChecks_length {b : Book Addr} {e e' : EscrowRecord Addr}
    (hfound : b.escrow e.id = some e') : (snapshotChecks b e).length = 11 := by
  simp [snapshotChecks, hfound, recordChecks]

/-- When no record is missing, every one of them costs eleven comparisons. -/
theorem flatMap_snapshotChecks_length {b : Book Addr} {records : List (EscrowRecord Addr)}
    (hfound : ∀ e ∈ records, ∃ e', b.escrow e.id = some e') :
    (records.flatMap (snapshotChecks b)).length = 11 * records.length := by
  have hconst : records.map (fun e => (snapshotChecks b e).length) =
      List.replicate records.length 11 :=
    List.map_eq_replicate_iff.mpr fun e he => by
      obtain ⟨e', hfound⟩ := hfound e he
      exact snapshotChecks_length hfound
  rw [List.length_flatMap, hconst, List.sum_replicate, smul_eq_mul, Nat.mul_comm]

/-- No mismatch is reported exactly when all comparisons agree and can be counted. -/
theorem verifyPostUpgradeState_clean_iff {b : Book Addr} {r : Recovery Addr} {id : ℕ}
    {records : List (EscrowRecord Addr)} {snapshotMeta : SnapshotMeta Addr}
    (hdata : r.snapshot id = some records) (hmetadata : r.snapshotMetadata id = some snapshotMeta) :
    (∃ report, verifyPostUpgradeState b r id = .ok report ∧ report.mismatches = []) ↔
      (b.escrowCount = snapshotMeta.recordCount ∧
        ∀ e ∈ records, ∃ e', b.escrow e.id = some e' ∧ SameChecked e e') ∧
      1 + 11 * records.length < 2 ^ 32 := by
  have hverify : verifyPostUpgradeState b r id =
      ((⟨b.escrowCount ≠ snapshotMeta.recordCount, "EscrowCount mismatch"⟩ : FieldCheck) ::
        records.flatMap (snapshotChecks b)).foldlM StateVerificationReport.check ⟨0, []⟩ := by
    simp [verifyPostUpgradeState, hdata, hmetadata, expect, bind, Except.bind]
  have hagree : (∀ field ∈ records.flatMap (snapshotChecks b), field.differs = false) ↔
      ∀ e ∈ records, ∃ e', b.escrow e.id = some e' ∧ SameChecked e e' := by
    simp only [List.mem_flatMap, ← snapshotChecks_agree_iff]
    constructor
    · intro h e he field hf
      exact h field ⟨e, he, hf⟩
    · intro h field hfield
      obtain ⟨e, he, hf⟩ := hfield
      exact h e he field hf
  have hlength (h : ∀ e ∈ records, ∃ e', b.escrow e.id = some e' ∧ SameChecked e e') :
      (records.flatMap (snapshotChecks b)).length = 11 * records.length :=
    flatMap_snapshotChecks_length fun e he => (h e he).imp fun _ hfound => hfound.1
  have hstart : (⟨0, []⟩ : StateVerificationReport).fieldsChecked < 2 ^ 32 := by decide
  simp only [hverify, foldlM_check_eq_ok hstart]
  constructor
  · rintro ⟨_, ⟨hlt, rfl⟩, hclean⟩
    simp only [List.nil_append, List.map_eq_nil_iff, List.filter_eq_nil_iff,
      List.forall_mem_cons, Bool.not_eq_true, decide_eq_false_iff_not, not_not] at hclean
    have hrecords := hagree.mp hclean.2
    rw [List.length_cons, hlength hrecords] at hlt
    exact ⟨⟨hclean.1, hrecords⟩, by omega⟩
  · rintro ⟨⟨hcount, hrecords⟩, hlt⟩
    refine ⟨_, ⟨?_, rfl⟩, ?_⟩
    · rw [List.length_cons, hlength hrecords]
      simpa [Nat.add_comm] using hlt
    · simp only [List.nil_append, List.map_eq_nil_iff, List.filter_eq_nil_iff,
        List.forall_mem_cons, Bool.not_eq_true, decide_eq_false_iff_not, not_not]
      exact ⟨hcount, hagree.mpr hrecords⟩

end Checks

section Captures

/-- Every escrow that was ever counted is still stored. -/
def Book.NoGaps (b : Book Addr) : Prop :=
  ∀ id, 1 ≤ id → id ≤ b.escrowCount → b.escrow id ≠ none

theorem Book.NoGaps.of_update {b b' : Book Addr} {k : ℕ} {e : EscrowRecord Addr}
    (hb : b.NoGaps) (hescrow : b'.escrow = Function.update b.escrow k (some e))
    (hbetween : ∀ id, b.escrowCount < id → id ≤ b'.escrowCount → id = k) : b'.NoGaps := by
  intro id hpos hle
  rw [hescrow]
  by_cases hid : id = k
  · simp [hid]
  · rw [Function.update_of_ne hid]
    apply hb id hpos
    by_contra hgt
    exact hid (hbetween id (by omega) hle)

theorem collectRecords_length {b : Book Addr} {n id : ℕ}
    (hstored : ∀ k, id ≤ k → k < id + n → b.escrow k ≠ none) :
    (collectRecords b n id).length = n := by
  induction n generalizing id with
  | zero => rfl
  | succ n ih =>
    have hrest : (collectRecords b n (id + 1)).length = n :=
      ih fun k hle hlt => hstored k (by omega) (by omega)
    cases he : b.escrow id with
    | none => exact absurd he (hstored id le_rfl (by omega))
    | some e => simp [collectRecords, he, hrest]

theorem captured_length {s : State Addr} (hs : s.custody.book.NoGaps) :
    (captured s).length = s.custody.book.escrowCount :=
  collectRecords_length fun k hle hlt => hs k hle (by omega)

variable [DecidableEq Addr] {self : Addr} {digests : Digests} {s t : State Addr}
  {step : Step Addr self}

/-- Records are counted one by one and never removed. -/
theorem exec_noGaps (hs : s.WellFormed) (hgaps : s.custody.book.NoGaps)
    (h : exec digests step.1 step.2 s = .ok t) : t.custody.book.NoGaps := by
  cases exec_bookChange hs h with
  | unchanged same =>
    unfold Book.NoGaps
    rw [same.escrows.escrow, same.escrows.escrowCount]
    exact hgaps
  | initialized fresh book =>
    intro id hpos hle
    rw [book] at hle
    simp only at hle
    omega
  | created sessionId e opens opening new session =>
    apply hgaps.of_update opening.escrow
    intro id hgt hle
    rw [opening.escrowCount] at hle
    omega
  | rewritten id e e' call rewrites =>
    apply hgaps.of_update rewrites.escrow
    intro k hgt hle
    rw [rewrites.escrowCount] at hle
    omega
  | milestoneCreated m creates opening new =>
    unfold Book.NoGaps
    rw [opening.escrow, opening.escrowCount]
    exact hgaps
  | milestoneRewritten id m m' rewrites =>
    unfold Book.NoGaps
    rw [rewrites.escrow, rewrites.escrowCount]
    exact hgaps
  | restored records restores book =>
    intro id hpos hle
    rw [book, (restoreRecords_counts s.custody.book records).2.1] at hle
    rw [book]
    rcases restoreRecords_escrow s.custody.book records id with hsame | ⟨e, -, -, hfound⟩
    · rw [hsame]
      exact hgaps id hpos hle
    · simp [hfound]

theorem run_noGaps (digests : Digests) (balance : Addr → Addr → ℤ)
    (steps : List (Step Addr self)) :
    ((machine self digests).run (deployed balance) steps).custody.book.NoGaps := by
  have hrun := Machine.run_invariant (M := machine self digests) (s := deployed balance)
    (P := fun s => s.WellFormed ∧ s.custody.book.NoGaps)
    ⟨deployed_wellFormed balance, fun id hpos hle => by
      have hzero : (deployed balance).custody.book.escrowCount = 0 := rfl
      omega⟩
    (fun _ _ _ hs h => ⟨exec_wellFormed hs.1 h, exec_noGaps hs.1 hs.2 h⟩) steps
  exact hrun.2

/-- A snapshot stores the captured records and how many there are. -/
theorem exec_snapshotState {admin : Addr} {id : ℕ}
    (hcall : step.2 = .recovery (.snapshotState admin id))
    (h : exec digests step.1 step.2 s = .ok t) :
    t.recovery.snapshot id = some (captured s) ∧
      ∃ snapshotMeta, t.recovery.snapshotMetadata id = some snapshotMeta ∧
        snapshotMeta.recordCount = (captured s).length := by
  rw [hcall] at h
  simp only [exec, execRecovery, snapshotState, bind_eq_ok, pure_eq_ok] at h
  obtain ⟨_, ⟨-, -, rfl⟩, rfl⟩ := h
  simp [captured]

/-- The verification against a stored snapshot is exact when, in a state that agrees with
the snapshot where the two are compared, they agree elsewhere exactly when the
comparisons do not overflow their counter. -/
theorem verifyPostUpgradeState_exact_iff {balance : Addr → Addr → ℤ}
    {steps pre : List (Step Addr self)} {admin : Addr} {id : ℕ}
    (hx : (machine self digests).Executes (deployed balance) steps pre step s)
    (hcall : step.2 = .recovery (.snapshotState admin id)) (t : State Addr)
    (hdata : t.recovery.snapshot id = s.recovery.snapshot id)
    (hmetadata : t.recovery.snapshotMetadata id = s.recovery.snapshotMetadata id) :
    ((∃ report, verifyPostUpgradeState t.custody.book t.recovery id = .ok report ∧
        report.mismatches = []) ↔
      Intact ((machine self digests).run (deployed balance) pre) t) ↔
    (CheckedIntact ((machine self digests).run (deployed balance) pre) t →
      (UncheckedIntact ((machine self digests).run (deployed balance) pre) t ↔
        1 + 11 * ((machine self digests).run (deployed balance) pre).custody.book.escrowCount <
          2 ^ 32)) := by
  have hlength := captured_length (run_noGaps digests balance pre)
  obtain ⟨hrecords, snapshotMeta, hmeta, hrecordCount⟩ := exec_snapshotState hcall hx.exec_eq
  have hclean := verifyPostUpgradeState_clean_iff (b := t.custody.book)
    (hdata.trans hrecords) (hmetadata.trans hmeta)
  rw [hrecordCount, hlength] at hclean
  have hchecked : (t.custody.book.escrowCount =
        ((machine self digests).run (deployed balance) pre).custody.book.escrowCount ∧
      ∀ e ∈ captured ((machine self digests).run (deployed balance) pre),
        ∃ e', t.custody.book.escrow e.id = some e' ∧ SameChecked e e') ↔
      CheckedIntact ((machine self digests).run (deployed balance) pre) t :=
    ⟨fun h => ⟨h.1, h.2⟩, fun h => ⟨h.escrowCount, h.record⟩⟩
  rw [hclean, hchecked, intact_iff]
  tauto

end Captures

/-- The contract is initialised, and the admin takes a snapshot and doubles the fee. -/
def raisedFee : List (Step ℕ 0) :=
  [(grantedByAll 0, .initializeEscrow 1 2 500 [9] 0),
    (grantedByAll 0, .recovery (.snapshotState 1 1)),
    (grantedByAll 5, .config (.updateFee 1000))]

theorem verifyPostUpgradeState_exact_iff_raisedFee :
    let s := (machine 0 lengthDigests).run (deployed learnerFunds) (raisedFee.take 1)
    let t := (machine 0 lengthDigests).run (deployed learnerFunds) raisedFee
    ((∃ report, verifyPostUpgradeState t.custody.book t.recovery 1 = .ok report ∧
        report.mismatches = []) ↔ Intact s t) ↔
      (CheckedIntact s t →
        (UncheckedIntact s t ↔ 1 + 11 * s.custody.book.escrowCount < 2 ^ 32)) := by
  have hx : (machine 0 lengthDigests).Executes (deployed learnerFunds) raisedFee
      (raisedFee.take 1) (grantedByAll 0, .recovery (.snapshotState 1 1))
      ((machine 0 lengthDigests).run (deployed learnerFunds) (raisedFee.take 2)) :=
    ⟨[(grantedByAll 5, .config (.updateFee 1000))], rfl, rfl⟩
  exact verifyPostUpgradeState_exact_iff hx rfl _ rfl rfl

/-- The report is clean although the fee is no longer that of the snapshot. -/
theorem raisedFee_unnoticed :
    let s := (machine 0 lengthDigests).run (deployed learnerFunds) (raisedFee.take 1)
    let t := (machine 0 lengthDigests).run (deployed learnerFunds) raisedFee
    ¬ ((∃ report, verifyPostUpgradeState t.custody.book t.recovery 1 = .ok report ∧
        report.mismatches = []) ↔ Intact s t) := by
  intro s t h
  have hclean : ∃ report, verifyPostUpgradeState t.custody.book t.recovery 1 = .ok report ∧
      report.mismatches = [] := ⟨⟨1, []⟩, rfl, rfl⟩
  have hfee : t.config.feeBps = s.config.feeBps := (h.mp hclean).feeBps
  have hraised : t.config.feeBps = some 1000 := rfl
  have hold : s.config.feeBps = some 500 := rfl
  rw [hraised, hold] at hfee
  simp at hfee

end Escrow
