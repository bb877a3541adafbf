import MentorsMind.Lib.Ballot
import MentorsMind.Lib.Table
import MentorsMind.MultiSig.Effects

/-! What becomes of a proposal: its counter counts its approvals, it is settled once, and an
execution pays what was proposed. All of it rests on ids not being given out twice, and
`initialize` starts the numbering over. -/
namespace MultiSig
open Outcome Soroban

variable {Addr : Type} [DecidableEq Addr] {self : Addr}

/-- The step proposes the transaction `tx` under the id `id`. -/
def ProposesAs (s : State Addr) (step : Step Addr self) (id : ℕ) (tx : Transaction Addr) : Prop :=
  s.transCount + 1 = id ∧ step.2 =
    .proposeTransaction tx.proposer tx.recipient tx.token tx.amount tx.executeAfter

omit [DecidableEq Addr] in
theorem ProposesAs.proposes {s : State Addr} {step : Step Addr self} {id : ℕ}
    {tx : Transaction Addr} (h : ProposesAs s step id tx) : Proposes s step id :=
  ⟨h.1, tx.proposer, tx.recipient, tx.token, tx.amount, tx.executeAfter, h.2⟩

/-- What the storage knows about the proposals of the run. -/
structure Recorded {home : Addr} (balance : Addr → Addr → ℕ) (steps : List (Step Addr home))
    (s : State Addr) : Prop where
  unused : ∀ id, s.transCount < id → s.transaction id = none ∧ ∀ a, s.approval id a = false
  counted : ∀ id tx, s.transaction id = some tx →
    {a | s.approval id a = true}.encard = tx.approvals
  proposed : ∀ id tx, s.transaction id = some tx → ∃ pre step t,
    (machine home).Executes (deployed balance) steps pre step t ∧
      ProposesAs (reached balance pre) step id tx
  numbered : ∀ pre step t id, (machine home).Executes (deployed balance) steps pre step t →
    Proposes (reached balance pre) step id → id ≤ s.transCount
  settled : ∀ pre step t id, (machine home).Executes (deployed balance) steps pre step t →
    step.2.settles = some id → ∃ tx, s.transaction id = some tx ∧ tx.status ≠ .pending

variable {balance : Addr → Addr → ℕ} {pre : List (Step Addr self)} {step : Step Addr self}
  {s t : State Addr}

/-- `initialize` runs only while nothing has been proposed. -/
def InitializesFirst (s : State Addr) (step : Step Addr self) : Prop :=
  ∀ admin signers threshold, step.2 = .initializeMultisig admin signers threshold →
    s.transCount = 0

omit [DecidableEq Addr] in
theorem InitializesFirst.count_eq (hfirst : InitializesFirst s step)
    (hcount : t.transCount = s.transCount ∨ t.transCount = 0 ∧
      ∃ admin signers threshold, step.2 = .initializeMultisig admin signers threshold) :
    t.transCount = s.transCount := by
  rcases hcount with heq | ⟨hzero, admin, signers, threshold, hcall⟩
  · exact heq
  · rw [hzero, hfirst admin signers threshold hcall]

section Step

variable (hs : Recorded balance pre (reached balance pre))
  (hfirst : InitializesFirst (reached balance pre) step)
  (h : (machine self).exec step (reached balance pre) = .ok t)
include hs

/-- An id that is stored has been given out. -/
theorem Recorded.le_count {id : ℕ} {tx : Transaction Addr}
    (hfound : (reached balance pre).transaction id = some tx) :
    id ≤ (reached balance pre).transCount := by
  by_contra hlt
  have hnone := (hs.unused id (by omega)).1
  rw [hfound] at hnone
  exact absurd hnone (by simp)

include hfirst in
theorem BallotChange.unused_step (hchange : BallotChange step (reached balance pre) t) (id : ℕ)
    (hid : t.transCount < id) : t.transaction id = none ∧ ∀ a, t.approval id a = false := by
  cases hchange with
  | same settles proposes approves transaction approval count =>
    rw [hfirst.count_eq count] at hid
    rw [transaction, approval]
    exact hs.unused id hid
  | proposed proposer recipient token amount executeAfter call transaction approval count =>
    rw [count] at hid
    rw [transaction, approval, Function.update_of_ne (by omega)]
    exact hs.unused id (by omega)
  | approved signer transId tx call registered found pending first transaction approval count =>
    rw [count] at hid
    have hle := hs.le_count found
    rw [transaction, approval, Function.update_of_ne (by omega), Function.update_of_ne (by omega)]
    exact hs.unused id hid
  | settled transId tx status call found pending final transaction approval count =>
    rw [count] at hid
    have hle := hs.le_count found
    rw [transaction, approval, Function.update_of_ne (by omega)]
    exact hs.unused id hid

theorem BallotChange.counted_step (hchange : BallotChange step (reached balance pre) t) (id : ℕ)
    (tx : Transaction Addr) (htx : t.transaction id = some tx) :
    {a | t.approval id a = true}.encard = tx.approvals := by
  cases hchange with
  | same settles proposes approves transaction approval =>
    rw [transaction] at htx
    rw [approval]
    exact hs.counted id tx htx
  | proposed proposer recipient token amount executeAfter call transaction approval =>
    rw [transaction] at htx
    rw [approval]
    obtain ⟨rfl, rfl⟩ | ⟨-, hold⟩ := Table.update_eq_some_iff.mp htx
    · have hnobody := (hs.unused _ (Nat.lt_succ_self (reached balance pre).transCount)).2
      simp [proposal, hnobody]
    · exact hs.counted id tx hold
  | approved signer transId old call registered found pending first transaction approval =>
    rw [transaction] at htx
    rw [approval]
    obtain ⟨rfl, rfl⟩ | ⟨hid, hother⟩ := Table.update_eq_some_iff.mp htx
    · have hold : CountsFlags old.approvals ((reached balance pre).approval id) :=
        hs.counted id old found
      rw [Function.update_self]
      exact hold.set first
    · rw [Function.update_of_ne hid]
      exact hs.counted id tx hother
  | settled transId old status call found pending final transaction approval =>
    rw [transaction] at htx
    rw [approval]
    exact Table.forall_update (P := fun id tx =>
      {a | (reached balance pre).approval id a = true}.encard = tx.approvals) hs.counted
      (hs.counted transId old found) id tx htx

include h in
theorem BallotChange.proposed_step (hchange : BallotChange step (reached balance pre) t) (id : ℕ)
    (tx : Transaction Addr) (htx : t.transaction id = some tx) :
    ∃ origin first u, (machine self).Executes (deployed balance) (pre ++ [step]) origin first u ∧
      ProposesAs (reached balance origin) first id tx := by
  have hkept : ∀ k old, (reached balance pre).transaction k = some old →
      ∃ origin first u, (machine self).Executes (deployed balance) (pre ++ [step]) origin first u ∧
        ProposesAs (reached balance origin) first k old := by
    intro k old hfound
    obtain ⟨origin, first, u, hx, hproposes⟩ := hs.proposed k old hfound
    exact ⟨origin, first, u, hx.append [step], hproposes⟩
  cases hchange with
  | same settles proposes approves transaction =>
    rw [transaction] at htx
    exact hkept id tx htx
  | proposed proposer recipient token amount executeAfter call transaction =>
    rw [transaction] at htx
    exact Table.forall_update hkept ⟨pre, step, t, Machine.executes_snoc h, rfl, call⟩ id tx htx
  | approved signer transId old call registered found pending first transaction
  | settled transId old status call found pending final transaction =>
    rw [transaction] at htx
    refine Table.forall_update hkept ?_ id tx htx
    exact hkept transId old found

/-- A settled transaction stays as it is, since only pending ones change. -/
theorem BallotChange.settled_step (hchange : BallotChange step (reached balance pre) t) {id : ℕ}
    {tx : Transaction Addr} (hfound : (reached balance pre).transaction id = some tx)
    (hstatus : tx.status ≠ .pending) : t.transaction id = some tx := by
  have hle := hs.le_count hfound
  cases hchange with
  | same settles proposes approves transaction => rw [transaction, hfound]
  | proposed proposer recipient token amount executeAfter call transaction =>
    rw [transaction, Function.update_of_ne (by omega), hfound]
  | approved signer transId old call registered found pending first transaction
  | settled transId old status call found pending final transaction =>
    have hne : id ≠ transId := by
      rintro rfl
      obtain rfl : tx = old := Option.some.inj (hfound.symm.trans found)
      exact hstatus pending
    rw [transaction, Function.update_of_ne hne, hfound]

omit hs in
include hfirst in
/-- The count grows with every proposal and never shrinks. -/
theorem BallotChange.le_count_step (hchange : BallotChange step (reached balance pre) t) :
    (reached balance pre).transCount ≤ t.transCount ∧
      ∀ id, Proposes (reached balance pre) step id → id ≤ t.transCount := by
  cases hchange with
  | same settles proposes approves transaction approval count =>
    refine ⟨(hfirst.count_eq count).ge, ?_⟩
    rintro id ⟨-, proposer, recipient, token, amount, executeAfter, hcall⟩
    exact absurd hcall (proposes proposer recipient token amount executeAfter)
  | proposed proposer recipient token amount executeAfter call transaction approval count =>
    refine ⟨by omega, ?_⟩
    rintro id ⟨hid, -⟩
    omega
  | approved signer transId tx call registered found pending first transaction approval count =>
    refine ⟨count.ge, ?_⟩
    rintro id ⟨-, proposer, recipient, token, amount, executeAfter, hcall⟩
    simp [hcall] at call
  | settled transId tx status call found pending final transaction approval count =>
    refine ⟨count.ge, ?_⟩
    rintro id ⟨-, proposer, recipient, token, amount, executeAfter, hcall⟩
    simp [hcall, Call.settles] at call

omit hs in
/-- What a call settles is settled. -/
theorem BallotChange.exists_of_settles (hchange : BallotChange step s t) {id : ℕ}
    (hcall : step.2.settles = some id) : ∃ tx, t.transaction id = some tx ∧
      tx.status ≠ .pending := by
  cases hchange with
  | same settles => simp [settles] at hcall
  | proposed proposer recipient token amount executeAfter call => simp [call, Call.settles] at hcall
  | approved signer transId tx call => simp [call, Call.settles] at hcall
  | settled transId tx status call found pending final transaction =>
    obtain rfl : transId = id := Option.some.inj (call.symm.trans hcall)
    exact ⟨{ tx with status := status }, by rw [transaction, Function.update_self], final⟩

include hfirst h in
theorem Recorded.snoc : Recorded balance (pre ++ [step]) t := by
  have hchange := (exec_effect h).ballotChange
  refine ⟨hchange.unused_step hs hfirst, hchange.counted_step hs,
    hchange.proposed_step hs h, ?_, ?_⟩
  · intro origin first u id hx hproposes
    rcases Machine.executes_append_singleton.mp hx with hbefore | ⟨rfl, rfl, -⟩
    · have hle := hs.numbered origin first u id hbefore hproposes
      exact hle.trans (hchange.le_count_step hfirst).1
    · exact (hchange.le_count_step hfirst).2 id hproposes
  · intro settling call u id hx hcall
    rcases Machine.executes_append_singleton.mp hx with hbefore | ⟨rfl, rfl, -⟩
    · obtain ⟨tx, hfound, hstatus⟩ := hs.settled settling call u id hbefore hcall
      exact ⟨tx, hchange.settled_step hs hfound hstatus, hstatus⟩
    · exact hchange.exists_of_settles hcall

end Step

theorem run_recorded {steps : List (Step Addr self)}
    (hfirst : ∀ pre step t, (machine self).Executes (deployed balance) steps pre step t →
      InitializesFirst (reached balance pre) step) :
    ∀ pre, pre <+: steps → Recorded balance pre (reached balance pre) := by
  refine Machine.run_history_of_executes (M := machine self)
    (P := fun pre s => Recorded balance pre s) ?_ ?_ ?_
  · exact ⟨fun _ _ => ⟨rfl, fun _ => rfl⟩, fun _ _ htx => (nomatch htx),
      fun _ _ htx => (nomatch htx), fun _ _ _ _ hx => absurd hx Machine.not_executes_nil,
      fun _ _ _ _ hx => absurd hx Machine.not_executes_nil⟩
  · intro pre step t hx hs
    exact hs.snoc (hfirst pre step t hx) hx.exec_eq
  · intro pre step e hs herror
    refine ⟨hs.unused, hs.counted, ?_, ?_, ?_⟩
    · simpa only [Machine.executes_snoc_error herror] using hs.proposed
    · simpa only [Machine.executes_snoc_error herror] using hs.numbered
    · simpa only [Machine.executes_snoc_error herror] using hs.settled

/-- A run keeps its proposals: counters are right after every step, nothing is executed after
it was executed or cancelled, and what is executed is the one proposal of that id, due and
paid as it was proposed. -/
structure ProposalsKept {home : Addr} (balance : Addr → Addr → ℕ)
    (steps : List (Step Addr home)) : Prop where
  counted : ∀ pre, pre <+: steps → ∀ id tx, (reached balance pre).transaction id = some tx →
    {a | (reached balance pre).approval id a = true}.encard = tx.approvals
  once : ∀ pre inv executor id t, (machine home).Executes (deployed balance) steps pre
      (inv, .executeTransaction executor id) t →
    ∀ earlier step u, (machine home).Executes (deployed balance) steps earlier step u →
      earlier.length < pre.length → step.2.settles ≠ some id
  paid : ∀ pre inv executor id t, (machine home).Executes (deployed balance) steps pre
      (inv, .executeTransaction executor id) t →
    ∃ origin step u tx, (machine home).Executes (deployed balance) pre origin step u ∧
      ProposesAs (reached balance origin) step id tx ∧
      (∀ other step u, (machine home).Executes (deployed balance) steps other step u →
        Proposes (reached balance other) step id → other = origin) ∧
      tx.executeAfter ≤ inv.timestamp ∧
      (reached balance pre).tokens.transfer inv.accepts tx.token home tx.recipient tx.amount =
        .ok t.tokens

/-- No id is given out twice. -/
theorem proposes_unique {steps origin other : List (Step Addr self)} {first second : Step Addr self}
    {u v : State Addr} {id : ℕ}
    (hrecorded : ∀ pre, pre <+: steps → Recorded balance pre (reached balance pre))
    (hx : (machine self).Executes (deployed balance) steps origin first u)
    (hy : (machine self).Executes (deployed balance) steps other second v)
    (hfirst : Proposes (reached balance origin) first id)
    (hsecond : Proposes (reached balance other) second id) : origin.length ≤ other.length := by
  by_contra hlt
  have hbefore := hy.before hx (by omega)
  have hprefix := (List.prefix_append origin [first]).trans hx.snoc_prefix
  have hle := (hrecorded origin hprefix).numbered other second v id hbefore hsecond
  have hid := hfirst.1
  omega

theorem proposals_kept {steps : List (Step Addr self)}
    (hfirst : ∀ pre step t, (machine self).Executes (deployed balance) steps pre step t →
      InitializesFirst (reached balance pre) step) : ProposalsKept balance steps := by
  have hrecorded := run_recorded hfirst
  refine ⟨fun pre hpre => (hrecorded pre hpre).counted, ?_, ?_⟩
  · intro pre inv executor id t hx earlier step u hearlier hlt hcall
    have hpre := hrecorded pre ((List.prefix_append pre [_]).trans hx.snoc_prefix)
    obtain ⟨tx, hfound, hstatus⟩ := hpre.settled earlier step u id (hearlier.before hx hlt) hcall
    obtain ⟨tx', -, -, hfound', hpending, -⟩ := executeTransaction_spec hx.exec_eq
    obtain rfl : tx = tx' := Option.some.inj (hfound.symm.trans hfound')
    exact hstatus hpending
  · intro pre inv executor id t hx
    have hpre := hrecorded pre ((List.prefix_append pre [_]).trans hx.snoc_prefix)
    obtain ⟨tx, threshold, tokens, hfound, hpending, hthreshold, henough, hdue, hpaid, rfl⟩ :=
      executeTransaction_spec hx.exec_eq
    obtain ⟨origin, step, u, horigin, hproposes⟩ := hpre.proposed id tx hfound
    have hinside := horigin.mono ((List.prefix_append pre [_]).trans hx.snoc_prefix)
    refine ⟨origin, step, u, tx, horigin, hproposes, ?_, hdue, hpaid⟩
    intro other step' u' hother hagain
    have hle := proposes_unique hrecorded hinside hother hproposes.proposes hagain
    have hge := proposes_unique hrecorded hother hinside hagain hproposes.proposes
    rw [hother.eq_take.1, hinside.eq_take.1]
    congr 1
    omega

/-- A wallet of the signers 1 and 2 pays 50 of token 7 to account 6. -/
def payingRun : List (Step ℕ 0) :=
  [(signedByOthers 0 0, .initializeMultisig 9 [1, 2] 2),
    (signedByOthers 0 0, .proposeTransaction 4 6 7 50 10),
    (signedByOthers 0 0, .approveTransaction 1 1),
    (signedByOthers 0 0, .approveTransaction 2 1),
    (signedByOthers 0 10, .executeTransaction 4 1)]

theorem proposals_kept_payingRun :
    ProposalsKept (fun _ _ => 100) payingRun ∧
      ((reached (fun _ _ => 100) payingRun).transaction 1).map Transaction.status =
        some .executed := by
  refine ⟨proposals_kept ?_, by decide +kernel⟩
  rintro pre ⟨inv, call⟩ t hx admin signers threshold hcall
  obtain rfl : call = .initializeMultisig admin signers threshold := hcall
  rcases hx.eq_nil_or_mem with rfl | hmem
  · rfl
  · simp at hmem

/-- Somebody proposes a payment before `initialize` and another one after it. -/
def renumberedRun : List (Step ℕ 0) :=
  [(signedByOthers 0 0, .proposeTransaction 4 6 7 50 0),
    (signedByOthers 0 0, .initializeMultisig 9 [1] 1),
    (signedByOthers 0 0, .approveTransaction 1 1),
    (signedByOthers 0 0, .proposeTransaction 4 8 7 60 0)]

/-- The second payment takes the id of the first one, which signer 1 has approved. -/
theorem renumberedRun_not_kept : ¬ ProposalsKept (fun _ _ => 100) renumberedRun := by
  intro h
  have hstored : (reached (fun _ _ => 100) renumberedRun).transaction 1 =
      some (proposal 1 4 8 7 60 0) := by decide +kernel
  have hflag : (reached (fun _ _ => 100) renumberedRun).approval 1 1 = true := by decide +kernel
  have hcount := h.counted renumberedRun List.prefix_rfl 1 _ hstored
  have hempty : {a | (reached (fun _ _ => 100) renumberedRun).approval 1 a = true} = ∅ :=
    Set.encard_eq_zero.mp hcount
  have hmem : 1 ∈ {a | (reached (fun _ _ => 100) renumberedRun).approval 1 a = true} := hflag
  rw [hempty] at hmem
  exact hmem

end MultiSig
