import MentorsMind.Escrow.Solvency

/-! A rollback restores records but no tokens. The contract can pay what its records say as
long as no rollback restores more than is still owed. -/
namespace Escrow
open Outcome Soroban Shared

variable {Addr : Type} [DecidableEq Addr] {self : Addr} {digests : Digests} {s t : State Addr}
  {step : Step Addr self} {initial : Addr → Addr → ℤ}

/-- No more is payable on the snapshotted record than on the escrow as it stands. -/
def StillOwed (b : Book Addr) (e : EscrowRecord Addr) : Prop :=
  ∀ token, owedByEscrow token (some e) ≤ owedByEscrow token (b.escrow e.id)

/-- The contract's balance covers its active and disputed escrows. -/
structure EscrowsCovered (home : Addr) (s : State Addr) : Prop where
  finite : ∀ token, PointSum.Finite (owedByEscrow token) s.custody.book.escrow
  covered : ∀ token, PointSum.total (owedByEscrow token) s.custody.book.escrow ≤
    s.custody.tokens.balance token home

section Book

variable {b : Book Addr}

theorem Book.WellFormed.escrow_finite (hb : b.WellFormed) (token : Addr) :
    PointSum.Finite (owedByEscrow token) b.escrow := by
  refine (Set.finite_le_nat b.escrowCount).subset fun id hid => ?_
  by_contra hgt
  exact hid (by simp [hb.escrow_gt id (not_le.mp hgt), owedByEscrow])

theorem Book.WellFormed.milestone_finite (hb : b.WellFormed) (token : Addr) :
    PointSum.Finite (owedByMilestone token) b.milestone := by
  refine (Set.finite_le_nat b.milestoneCount).subset fun id hid => ?_
  by_contra hgt
  exact hid (by simp [hb.milestone_gt id (not_le.mp hgt), owedByMilestone])

/-- Only escrows that were opened are owed anything. -/
theorem Book.WellFormed.vault_finite (hb : b.WellFormed) (held : Addr → ℤ) :
    (vault held b).Finite := by
  intro token
  refine (((hb.escrow_finite token).image .regular).union
    ((hb.milestone_finite token).image .milestone)).subset ?_
  rintro (id | id) hid
  · exact .inl ⟨id, hid, rfl⟩
  · exact .inr ⟨id, hid, rfl⟩

omit [DecidableEq Addr] in
theorem unpaid_nonneg {ms : List MilestoneSpec} (h : ∀ m ∈ ms, 0 < m.amount)
    (statuses : List MilestoneStatus) : 0 ≤ unpaid ms statuses := by
  induction ms generalizing statuses with
  | nil => simp [unpaid]
  | cons m ms ih =>
    cases statuses with
    | nil => simp [unpaid]
    | cons status statuses =>
      have hm := h m (by simp)
      have hms := ih (fun m' hm' => h m' (by simp [hm'])) statuses
      rw [unpaid]
      split_ifs <;> omega

theorem Book.WellFormed.owed_nonneg (hb : b.WellFormed) (account : Account) (token : Addr) :
    0 ≤ b.owed account token := by
  cases account with
  | regular id =>
    cases he : b.escrow id with
    | none => simp [Book.owed, he, owedByEscrow]
    | some e =>
      have hamount := (hb.record id e he).amount_nonneg
      simp only [Book.owed, he, owedByEscrow]
      split_ifs <;> omega
  | milestone id =>
    cases hm : b.milestone id with
    | none => simp [Book.owed, hm, owedByMilestone]
    | some m =>
      have hunpaid := unpaid_nonneg (hb.milestone id m hm).amount_pos m.milestoneStatuses
      simp only [Book.owed, hm, owedByMilestone]
      split_ifs <;> omega

/-- A rollback under the condition raises no account. -/
theorem restoreRecords_owed_le {records : List (EscrowRecord Addr)}
    (h : ∀ e ∈ records, StillOwed b e) (account : Account) (token : Addr) :
    (restoreRecords b records).owed account token ≤ b.owed account token := by
  cases account with
  | regular id =>
    obtain hsame | ⟨e, he, rfl, hrestored⟩ := restoreRecords_escrow b records id
    · simp only [Book.owed, hsame, le_refl]
    · simp only [Book.owed, hrestored]
      exact h e he token
  | milestone id => simp only [Book.owed, (restoreRecords_counts b records).1, le_refl]

end Book

/-- One step keeps the vault solvent, a rollback under the condition. -/
theorem Movement.solvent (hs : s.WellFormed) (h : Movement step s t)
    (hrestores : ∀ records, Restores step s records →
      ∀ e ∈ records, StillOwed s.custody.book e)
    (hsolvent : (vault (gained initial self s) s.custody.book).Solvent) :
    (vault (gained initial self t) t.custody.book).Solvent := by
  have hbook := h.book_wellFormed hs
  obtain ⟨account, o, hsettle⟩ | ⟨records, hrestored, hrecords, htokens⟩ :=
    h.settlesExactly initial hs
  · exact hsolvent.settle hsettle.settles
  · refine hsolvent.rewrite (hbook.vault_finite _) (fun account token => ?_) fun token => ?_
    · simp only [vault, hrecords]
      exact restoreRecords_owed_le (hrestores records hrestored) account token
    · simp [vault, gained, htokens]

/-- What the contract paid to itself never shrinks. -/
theorem Movement.looped_le (h : Movement step s t) (token : Addr) :
    s.custody.tokens.looped token self ≤ t.custody.tokens.looped token self := by
  cases h with
  | idle book balance transfers => simp only [Tokens.looped, transfers, le_refl]
  | initialized fresh book tokens => rw [tokens]
  | opened e approved opening => exact opening.flow.looped_le token
  | settled id e e' gross settlement => exact settlement.flow.looped_le token
  | milestoneOpened m approved opening => exact opening.flow.looped_le token
  | milestoneSettled id m m' gross settlement => exact settlement.flow.looped_le token
  | rolledBack records restores book tokens => rw [tokens]

section Runs

theorem run_looped_nonneg (digests : Digests) (initial : Addr → Addr → ℤ)
    (steps : List (Step Addr self)) (token : Addr) :
    0 ≤ ((machine self digests).run (deployed initial) steps).custody.tokens.looped token
      self := by
  have hinv := Machine.run_invariant (M := machine self digests)
    (P := fun s => s.WellFormed ∧ 0 ≤ s.custody.tokens.looped token self)
    (s := deployed initial)
    ⟨deployed_wellFormed initial, by simp [deployed, Tokens.looped, Tokens.paidBy]⟩
    (fun step s t hs hx => ⟨exec_wellFormed hs.1 hx,
      hs.2.trans ((exec_movement hs.1.sound hx).looped_le token)⟩) steps
  exact hinv.2

variable {steps : List (Step Addr self)}

/-- If no rollback of the run restores more than is still owed, then the vault is solvent
after every step. -/
theorem run_solvent (hrestores : ∀ pre step t records,
      (machine self digests).Executes (deployed initial) steps pre step t →
      Restores step ((machine self digests).run (deployed initial) pre) records →
      ∀ e ∈ records, StillOwed
        ((machine self digests).run (deployed initial) pre).custody.book e) :
    ∀ pre, pre <+: steps →
      (vault (gained initial self ((machine self digests).run (deployed initial) pre))
        ((machine self digests).run (deployed initial) pre).custody.book).Solvent :=
  Machine.run_invariant_of_executes (M := machine self digests)
    (P := fun s => (vault (gained initial self s) s.custody.book).Solvent)
    deployed_balanced.solvent (fun pre step t hx hsolvent =>
      have hs := run_wellFormed digests initial pre
      (exec_movement hs.sound hx.exec_eq).solvent hs
        (fun records hrestored => hrestores pre step t records hx hrestored) hsolvent)

/-- If no rollback of the run restores more than is still owed, then after every step the
contract's balance covers its escrows. -/
theorem rollback_escrowsCovered (hinitial : ∀ token, 0 ≤ initial token self)
    (hrestores : ∀ pre step t records,
      (machine self digests).Executes (deployed initial) steps pre step t →
      Restores step ((machine self digests).run (deployed initial) pre) records →
      ∀ e ∈ records, StillOwed
        ((machine self digests).run (deployed initial) pre).custody.book e) :
    ∀ pre, pre <+: steps →
      EscrowsCovered self ((machine self digests).run (deployed initial) pre) := by
  intro pre hpre
  have hsolvent := run_solvent hrestores pre hpre
  have hbook := (run_wellFormed digests initial pre).book
  refine ⟨hbook.escrow_finite, fun token => ?_⟩
  have hcovered := hsolvent.part_le (f := Account.regular) (fun _ _ h => by simpa using h)
    hbook.owed_nonneg token
  have hlooped := run_looped_nonneg digests initial pre token
  have hdeposit := hinitial token
  calc PointSum.total (owedByEscrow token) _ ≤ gained initial self _ token := hcovered
    _ ≤ _ := by unfold gained; omega

end Runs

/-- An escrow of 100 is snapshotted and a rollback to the snapshot is agreed upon. -/
def agreedRollback : List (Step ℕ 0) :=
  [(grantedByAll 0, .initializeEscrow 1 2 500 [9] 0),
    (grantedByAll 0, .setEmergencySigners 1 [11, 12, 13, 14, 15, 16, 17]),
    (grantedByAll 0, .config (.setGovernanceContract 1 8)),
    (grantedByAll 0, .custody (.createEscrow 4 3 100 "session" 9 0 1)),
    (grantedByAll 0, .recovery (.snapshotState 1 1)),
    (grantedByAll 0, .recovery (.proposeEmergencyRollback 11 1 5 .escrow ⟨6, 7, 8⟩)),
    (grantedByAll 0, .recovery (.approveTechnicalRollback 12 1)),
    (grantedByAll 0, .recovery (.approveTechnicalRollback 13 1)),
    (grantedByAll 0, .recovery (.approveTechnicalRollback 14 1)),
    (grantedByAll 0, .recovery (.linkGovernanceRollbackReview 8 1 5)),
    (grantedByAll 0, .recovery (.markGovRollbackApproved 8 1 5))]

/-- The escrow is disputed before the rollback, which makes it active again. -/
def disputedRun : List (Step ℕ 0) :=
  agreedRollback ++ [(grantedByAll 0, .custody (.dispute 3 1 "late")),
    (grantedByAll 172800, .emergencyRollback 1 11)]

/-- The state in which `disputedRun` rolls back. -/
def disputedState : State ℕ :=
  (machine 0 lengthDigests).run (deployed learnerFunds) disputedRun.dropLast

/-- The escrow of `agreedRollback` as it was snapshotted. -/
def snapshotted : EscrowRecord ℕ where
  id := 1
  mentor := 4
  learner := 3
  amount := 100
  sessionId := "session"
  status := .active
  createdAt := 0
  tokenAddress := 9
  platformFee := 0
  netAmount := 0
  sessionEndTime := 0
  autoReleaseDelay := 259200
  disputeReason := ""
  resolvedAt := 0
  usdAmount := 0
  quotedTokenAmount := 100
  sendAsset := 9
  destAsset := 9
  totalSessions := 1
  sessionsCompleted := 0

theorem disputedState_snapshot : disputedState.recovery.snapshot 1 = some [snapshotted] := rfl

theorem disputedState_stillOwed : StillOwed disputedState.custody.book snapshotted := by
  intro token
  have hescrow : disputedState.custody.book.escrow 1 =
    some { snapshotted with status := .disputed, disputeReason := "late" } := rfl
  simp [snapshotted, owedByEscrow, hescrow, EscrowStatus.IsLive]

theorem rollback_escrowsCovered_disputedRun :
    EscrowsCovered 0 ((machine 0 lengthDigests).run (deployed learnerFunds) disputedRun) := by
  refine rollback_escrowsCovered (fun token => by simp [learnerFunds]) ?_ _ List.prefix_rfl
  intro pre step t records hx hrestored e he
  have hlast : disputedRun =
      disputedRun.dropLast ++ [(grantedByAll 172800, .emergencyRollback 1 11)] := rfl
  rw [hlast] at hx
  obtain ⟨rfl, rfl⟩ := hx.eq_last (p := fun step => step.2.rollbackProposal ≠ none) (by decide)
    hrestored.rollbackProposal_ne_none
  obtain ⟨proposalId, rollback, hproposal, hfound, -, hrecords⟩ := hrestored
  obtain rfl : 1 = proposalId := by simpa [Call.rollbackProposal] using hproposal
  have hid : (disputedState.recovery.rollback 1).map EmergencyRollback.snapshotId = some 1 := by
    decide
  have hsnapshot : rollback.snapshotId = 1 := by
    rw [disputedState, hfound] at hid
    simpa using hid
  rw [hsnapshot] at hrecords
  obtain rfl : [snapshotted] = records :=
    Option.some.inj (disputedState_snapshot.symm.trans hrecords)
  obtain rfl : e = snapshotted := by simpa using he
  exact disputedState_stillOwed

/-- The escrow is paid out before the rollback, which makes it active again. -/
def paidRun : List (Step ℕ 0) :=
  agreedRollback ++ [(grantedByAll 0, .custody (.adminRelease 1)),
    (grantedByAll 172800, .emergencyRollback 1 11)]

/-- The contract owes 100 on an escrow and has nothing. -/
theorem paidRun_uncovered :
    ¬ EscrowsCovered 0 ((machine 0 lengthDigests).run (deployed learnerFunds) paidRun) := by
  intro h
  have hbalance : ((machine 0 lengthDigests).run (deployed learnerFunds)
      paidRun).custody.tokens.balance 9 0 = 0 := by decide
  have howed : owedByEscrow 9 (((machine 0 lengthDigests).run (deployed learnerFunds)
      paidRun).custody.book.escrow 1) = 100 := by decide
  have hbook := (run_wellFormed lengthDigests learnerFunds paidRun).book
  have hle := (h.finite 9).le_total (fun id => hbook.owed_nonneg (.regular id) 9) 1
  have hcovered := h.covered 9
  rw [howed] at hle
  omega

end Escrow
