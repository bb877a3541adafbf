import MentorsMind.Lib.Vault
import MentorsMind.Escrow.Invariant

/-! The escrow contract as a vault: what it gained covers what it owes, after every run. -/
namespace Escrow
open Outcome Soroban Shared

/-- Regular and milestone escrows are numbered separately. -/
inductive Account where
  | regular (id : ℕ)
  | milestone (id : ℕ)
  deriving DecidableEq

variable {Addr : Type} [DecidableEq Addr]

/-- What is still to be paid out of an account: the amount of an active or disputed escrow,
and the open milestones of a milestone escrow that is not closed. -/
def Book.owed (b : Book Addr) : Account → Addr → ℤ
  | .regular id, token => owedByEscrow token (b.escrow id)
  | .milestone id, token => owedByMilestone token (b.milestone id)

/-- The escrows of the book against the assets `held`. -/
def vault (held : Addr → ℤ) (b : Book Addr) : Vault Account Addr := ⟨held, b.owed⟩

/-- The balance gained since deployment, less what the contract paid to itself. -/
def gained (initial : Addr → Addr → ℤ) (home : Addr) (s : State Addr) (token : Addr) : ℤ :=
  s.custody.tokens.balance token home - initial token home -
    s.custody.tokens.looped token home

variable {self : Addr} {digests : Digests} {s t : State Addr} {step : Step Addr self}
  {initial : Addr → Addr → ℤ}

theorem gained_eq (token : Addr) :
    gained initial self s token = s.custody.tokens.net token self - initial token self := by
  simp only [gained, Tokens.net]
  ring

section Accounts

variable {b b' : Book Addr}

theorem Book.owed_of_sameEscrows (h : b.SameEscrows b') : b'.owed = b.owed := by
  funext account token
  cases account with
  | regular id => simp only [Book.owed, h.escrow]
  | milestone id => simp only [Book.owed, h.milestone]

theorem Book.owed_setEscrow {id : ℕ} {e : EscrowRecord Addr}
    (hescrow : b'.escrow = Function.update b.escrow id (some e))
    (hmilestone : b'.milestone = b.milestone) :
    b'.owed = Function.update b.owed (.regular id) (fun token => owedByEscrow token (some e)) := by
  funext account token
  cases account with
  | regular k =>
    by_cases hk : k = id
    · subst hk
      simp [Book.owed, hescrow]
    · have hne : Account.regular k ≠ Account.regular id := by simpa using hk
      rw [Function.update_of_ne hne]
      simp [Book.owed, hescrow, Function.update_of_ne hk]
  | milestone k =>
    rw [Function.update_of_ne (by simp)]
    simp only [Book.owed, hmilestone]

theorem Book.owed_setMilestone {id : ℕ} {m : MilestoneEscrow Addr}
    (hescrow : b'.escrow = b.escrow)
    (hmilestone : b'.milestone = Function.update b.milestone id (some m)) :
    b'.owed =
      Function.update b.owed (.milestone id) (fun token => owedByMilestone token (some m)) := by
  funext account token
  cases account with
  | regular k =>
    rw [Function.update_of_ne (by simp)]
    simp only [Book.owed, hescrow]
  | milestone k =>
    by_cases hk : k = id
    · subst hk
      simp [Book.owed, hmilestone]
    · have hne : Account.milestone k ≠ Account.milestone id := by simpa using hk
      rw [Function.update_of_ne hne]
      simp [Book.owed, hmilestone, Function.update_of_ne hk]

end Accounts

/-- Every step settles one account exactly, or is a rollback and moves no tokens. -/
theorem Movement.settlesExactly (initial : Addr → Addr → ℤ) (hs : s.WellFormed)
    (h : Movement step s t) :
    (∃ account o, (vault (gained initial self s) s.custody.book).SettlesExactly
      (vault (gained initial self t) t.custody.book) account o) ∨
    ∃ records, Restores step s records ∧
      t.custody.book = restoreRecords s.custody.book records ∧
      t.custody.tokens = s.custody.tokens := by
  have hb := hs.book
  cases h with
  | idle book balance transfers =>
    refine .inl ⟨.regular 0, s.custody.book.owed (.regular 0), ?_, fun token => ?_⟩
    · simp [vault, Book.owed_of_sameEscrows book]
    · simp [vault, gained, Tokens.looped, balance, transfers]
  | initialized fresh book tokens =>
    obtain ⟨hescrow, hmilestone⟩ := hs.fresh fresh
    refine .inl ⟨.regular 0, s.custody.book.owed (.regular 0), ?_, fun token => ?_⟩
    · have hsame : s.custody.book.SameEscrows t.custody.book := by
        rw [book]
        exact ⟨rfl, rfl, hescrow.symm, hmilestone.symm⟩
      simp [vault, Book.owed_of_sameEscrows hsame]
    · simp [vault, gained, tokens]
  | opened e approved opening =>
    refine .inl ⟨_, _, Book.owed_setEscrow opening.escrow opening.milestone, fun token => ?_⟩
    have hnone : s.custody.book.escrow (s.custody.book.escrowCount + 1) = none :=
      hb.escrow_gt _ (Nat.lt_succ_self _)
    have hlive : e.status.IsLive := .inl opening.status
    simp only [vault, gained_eq, opening.flow.net_eq, Book.owed, hnone, owedByEscrow, hlive,
      and_true, eq_comm (a := token)]
    split_ifs <;> ring
  | settled id e e' gross settlement progress =>
    refine .inl ⟨_, _, Book.owed_setEscrow settlement.escrow settlement.milestone, fun token => ?_⟩
    simp only [vault, gained_eq, settlement.flow.net_eq, Book.owed, settlement.found,
      progress.owed_eq]
    split_ifs <;> ring
  | milestoneOpened m approved opening =>
    refine .inl ⟨_, _, Book.owed_setMilestone opening.escrow opening.milestone, fun token => ?_⟩
    have hnone : s.custody.book.milestone (s.custody.book.milestoneCount + 1) = none :=
      hb.milestone_gt _ (Nat.lt_succ_self _)
    simp only [vault, gained_eq, opening.flow.net_eq, Book.owed, hnone, opening.owed]
    simp only [owedByMilestone]
    split_ifs <;> ring
  | milestoneSettled id m m' gross settlement =>
    refine .inl ⟨_, _, Book.owed_setMilestone settlement.escrow settlement.milestone,
      fun token => ?_⟩
    simp only [vault, gained_eq, settlement.flow.net_eq, Book.owed, settlement.found,
      settlement.owed]
    split_ifs <;> ring
  | rolledBack records restores book tokens => exact .inr ⟨records, restores, book, tokens⟩

theorem Restores.rollbackProposal_ne_none {records : List (EscrowRecord Addr)}
    (h : Restores step s records) : step.2.rollbackProposal ≠ none := by
  obtain ⟨proposalId, -, hproposal, -⟩ := h
  simp [hproposal]

/-- An escrow of `b` that is released, refunded or resolved has the same status in `b'`. -/
structure TerminalKept (b b' : Book Addr) : Prop where
  escrow : ∀ id e, b.escrow id = some e → e.status.IsTerminal →
    ∃ e', b'.escrow id = some e' ∧ e'.status = e.status
  milestone : ∀ id m, b.milestone id = some m → m.status.IsTerminal →
    ∃ m', b'.milestone id = some m' ∧ m'.status = m.status

omit [DecidableEq Addr] in
theorem TerminalKept.refl (b : Book Addr) : TerminalKept b b :=
  ⟨fun _ e h _ => ⟨e, h, rfl⟩, fun _ m h _ => ⟨m, h, rfl⟩⟩

omit [DecidableEq Addr] in
theorem TerminalKept.trans {a b c : Book Addr} (h : TerminalKept a b) (h' : TerminalKept b c) :
    TerminalKept a c := by
  constructor
  · intro id e he hterminal
    obtain ⟨e', he', hstatus⟩ := h.escrow id e he hterminal
    obtain ⟨e'', he'', hstatus'⟩ := h'.escrow id e' he' (hstatus ▸ hterminal)
    exact ⟨e'', he'', hstatus'.trans hstatus⟩
  · intro id m hm hterminal
    obtain ⟨m', hm', hstatus⟩ := h.milestone id m hm hterminal
    obtain ⟨m'', hm'', hstatus'⟩ := h'.milestone id m' hm' (hstatus ▸ hterminal)
    exact ⟨m'', hm'', hstatus'.trans hstatus⟩

theorem Movement.terminalKept (hs : s.WellFormed) (h : Movement step s t)
    (hno : step.2.rollbackProposal = none) : TerminalKept s.custody.book t.custody.book := by
  have hb := hs.book
  have hrefl := TerminalKept.refl s.custody.book
  cases h with
  | idle book => exact ⟨by rw [book.escrow]; exact hrefl.escrow,
      by rw [book.milestone]; exact hrefl.milestone⟩
  | initialized fresh book => rw [book]; exact ⟨hrefl.escrow, hrefl.milestone⟩
  | opened e approved opening =>
    refine ⟨fun id e₀ he₀ _ => ⟨e₀, ?_, rfl⟩, by rw [opening.milestone]; exact hrefl.milestone⟩
    have hne : id ≠ s.custody.book.escrowCount + 1 := by
      rintro rfl
      simp [hb.escrow_gt _ (Nat.lt_succ_self _)] at he₀
    rw [opening.escrow, Function.update_of_ne hne, he₀]
  | settled id e e' gross settlement progress =>
    refine ⟨fun k e₀ he₀ hterminal => ⟨e₀, ?_, rfl⟩,
      by rw [settlement.milestone]; exact hrefl.milestone⟩
    have hne : k ≠ id := by
      rintro rfl
      obtain rfl : e = e₀ := by simpa [settlement.found] using he₀
      exact progress.live.not_isTerminal hterminal
    rw [settlement.escrow, Function.update_of_ne hne, he₀]
  | milestoneOpened m approved opening =>
    refine ⟨by rw [opening.escrow]; exact hrefl.escrow, fun id m₀ hm₀ _ => ⟨m₀, ?_, rfl⟩⟩
    have hne : id ≠ s.custody.book.milestoneCount + 1 := by
      rintro rfl
      simp [hb.milestone_gt _ (Nat.lt_succ_self _)] at hm₀
    rw [opening.milestone, Function.update_of_ne hne, hm₀]
  | milestoneSettled id m m' gross settlement =>
    refine ⟨by rw [settlement.escrow]; exact hrefl.escrow, fun k m₀ hm₀ hterminal => ?_⟩
    rw [settlement.milestone]
    by_cases hk : k = id
    · subst hk
      obtain rfl : m = m₀ := by simpa [settlement.found] using hm₀
      refine ⟨m', by simp, ?_⟩
      obtain hsame | hvalid := settlement.status
      · exact hsame
      · exact absurd hterminal (EscrowStatus.not_isTerminal_of_isValidTransition hvalid)
    · exact ⟨m₀, by rw [Function.update_of_ne hk, hm₀], rfl⟩
  | rolledBack records restores => exact absurd hno restores.rollbackProposal_ne_none

section Runs

theorem emptyBook_owed (account : Account) (token : Addr) :
    (emptyBook Addr).owed account token = 0 := by
  cases account <;> rfl

theorem deployed_balanced :
    (vault (gained initial self (deployed initial)) (deployed initial).custody.book).Balanced where
  finite token := by simp [vault, deployed, emptyBook_owed]
  held_eq token := by
    simp [vault, Vault.debt, emptyBook_owed, gained, deployed, Tokens.looped, Tokens.paidBy]

variable {steps : List (Step Addr self)}

/-- A run without rollbacks keeps the vault balanced: no account is paid for another. -/
theorem run_balanced (hno : ∀ step ∈ steps, step.2.rollbackProposal = none) :
    let s := (machine self digests).run (deployed initial) steps
    (vault (gained initial self s) s.custody.book).Balanced := by
  refine Machine.run_invariant_of_executes
    (P := fun s => (vault (gained initial self s) s.custody.book).Balanced)
    deployed_balanced ?_ steps List.prefix_rfl
  intro pre step t hx hbalanced
  have hs := run_wellFormed digests initial pre
  obtain ⟨account, o, hsettle⟩ | ⟨records, hrestores, -⟩ :=
    (exec_movement hs.sound hx.exec_eq).settlesExactly initial hs
  · exact hbalanced.settle hsettle
  · exact absurd (hno step hx.mem) hrestores.rollbackProposal_ne_none

theorem run_terminalKept (hno : ∀ step ∈ steps, step.2.rollbackProposal = none)
    {pre : List (Step Addr self)} (hpre : pre <+: steps) :
    TerminalKept ((machine self digests).run (deployed initial) pre).custody.book
      ((machine self digests).run (deployed initial) steps).custody.book := by
  obtain ⟨post, rfl⟩ := hpre
  induction post using List.reverseRecOn with
  | nil => rw [List.append_nil]; exact .refl _
  | append_singleton post step ih =>
    have hno' : ∀ step ∈ pre ++ post, step.2.rollbackProposal = none :=
      fun step hstep => hno step (by
        rw [← List.append_assoc]
        exact List.mem_append_left _ hstep)
    refine (ih hno').trans ?_
    rw [← List.append_assoc, Machine.run_snoc]
    have hs := run_wellFormed digests initial (pre ++ post)
    obtain ⟨t, hx, ht⟩ | ⟨-, -, ht⟩ := Machine.apply_cases (machine self digests)
      ((machine self digests).run (deployed initial) (pre ++ post)) step
    · rw [ht]
      exact (exec_movement hs.sound hx).terminalKept hs (hno step (by simp))
    · rw [ht]
      exact .refl _

/-- What the contract gained, less what it paid to itself, is what it owes; and a closed
escrow stays as it was closed. -/
theorem solvency_and_terminality (hno : ∀ step ∈ steps, step.2.rollbackProposal = none) :
    let s := (machine self digests).run (deployed initial) steps
    (vault (gained initial self s) s.custody.book).Balanced ∧
      ∀ pre, pre <+: steps →
        TerminalKept ((machine self digests).run (deployed initial) pre).custody.book
          s.custody.book :=
  ⟨run_balanced hno, fun _ hpre => run_terminalKept hno hpre⟩

end Runs

/-- The learner 3 books a session with the escrow contract itself, and it is released. -/
def selfMentorRun : List (Step ℕ 0) :=
  [(grantedByAll 0, .initializeEscrow 1 2 500 [9] 0),
    (grantedByAll 0, .custody (.createEscrow 0 3 100 "session" 9 0 1)),
    (grantedByAll 0, .custody (.adminRelease 1))]

theorem solvency_and_terminality_selfMentorRun :
    let s := (machine 0 lengthDigests).run (deployed learnerFunds) selfMentorRun
    (vault (gained learnerFunds 0 s) s.custody.book).Balanced ∧
      ∀ pre, pre <+: selfMentorRun →
        TerminalKept ((machine 0 lengthDigests).run (deployed learnerFunds) pre).custody.book
          s.custody.book :=
  solvency_and_terminality (by decide)

/-- The contract keeps the 95 units that it paid to itself and owes them to nobody. -/
theorem selfMentorRun_unbalanced :
    let s := (machine 0 lengthDigests).run (deployed learnerFunds) selfMentorRun
    ¬ (vault (fun token => s.custody.tokens.balance token 0 - learnerFunds token 0)
      s.custody.book).Balanced := by
  intro s h
  have hlooped : s.custody.tokens.looped 9 0 = 95 := by decide
  have hbalanced : (vault (gained learnerFunds 0 s) s.custody.book).Balanced :=
    run_balanced (by decide)
  have hheld := (h.held_eq 9).trans (hbalanced.held_eq 9).symm
  simp only [vault, gained, hlooped] at hheld
  omega

end Escrow
