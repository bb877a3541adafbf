import MentorsMind.Lib.Ballot
import MentorsMind.Lib.Table
import MentorsMind.MultiSig.SignerSet

/-! Who approved what an execution pays. The counter of a transaction counts the addresses
that approved it since it was proposed; those that are signers no longer stay counted. -/
namespace MultiSig
open Outcome Soroban

variable {Addr : Type} [DecidableEq Addr] {self : Addr}

/-- The addresses that approved the transaction stored under `id` since it was proposed. -/
def approvers (balance : Addr → Addr → ℕ) (steps : List (Step Addr self)) (id : ℕ) : Set Addr :=
  {a | (machine self).SwitchedOnIn (fun _ step => step.2 = .approveTransaction a id)
    (fun s step => Proposes s step id) (deployed balance) steps}

/-- The addresses that an executed `remove_signer` removed and none added again since. -/
def departed (balance : Addr → Addr → ℕ) (steps : List (Step Addr self)) : Set Addr :=
  {a | (machine self).SwitchedOn (fun step => ∃ admin, step.2 = .removeSigner admin a)
    (fun step => ∃ admin, step.2 = .addSigner admin a) (deployed balance) steps}

/-- At least the threshold of registered signers approved the transaction. -/
def Authorised (balance : Addr → Addr → ℕ) (steps : List (Step Addr self)) (id : ℕ) : Prop :=
  ∃ threshold, (reached balance steps).threshold = some threshold ∧
    (threshold : ℕ∞) ≤
      (approvers balance steps id ∩ (reached balance steps).signers).encard

/-- The approvals beyond the threshold make up for those of approvers who departed. -/
def DeparturesCovered (balance : Addr → Addr → ℕ) (steps : List (Step Addr self)) (id : ℕ) :
    Prop :=
  ∃ threshold tx, (reached balance steps).threshold = some threshold ∧
    (reached balance steps).transaction id = some tx ∧
    threshold + (approvers balance steps id ∩ departed balance steps).encard ≤
      (tx.approvals : ℕ∞)

variable {balance : Addr → Addr → ℕ} {pre : List (Step Addr self)} {step : Step Addr self}
  {s t : State Addr}

theorem mem_approvers {a : Addr} {id : ℕ} : a ∈ approvers balance pre id ↔
    (machine self).SwitchedOnIn (fun _ step => step.2 = .approveTransaction a id)
      (fun s step => Proposes s step id) (deployed balance) pre := by
  simp [approvers]

theorem mem_departed {a : Addr} : a ∈ departed balance pre ↔
    (machine self).SwitchedOn (fun step => ∃ admin, step.2 = .removeSigner admin a)
      (fun step => ∃ admin, step.2 = .addSigner admin a) (deployed balance) pre := by
  simp [departed]

theorem mem_approvers_snoc {a : Addr} {id : ℕ}
    (h : (machine self).exec step (reached balance pre) = .ok t) :
    a ∈ approvers balance (pre ++ [step]) id ↔ step.2 = .approveTransaction a id ∨
      ¬ Proposes (reached balance pre) step id ∧
        a ∈ approvers balance pre id := by
  rw [mem_approvers, mem_approvers]
  exact Machine.switchedOnIn_snoc_ok h

theorem mem_departed_snoc {a : Addr}
    (h : (machine self).exec step (reached balance pre) = .ok t) :
    a ∈ departed balance (pre ++ [step]) ↔ (∃ admin, step.2 = .removeSigner admin a) ∨
      (¬ ∃ admin, step.2 = .addSigner admin a) ∧ a ∈ departed balance pre := by
  rw [mem_departed, mem_departed]
  exact Machine.switchedOn_snoc_ok h

section Ballots

/-- What a step does to the ballot of the transaction `id`. -/
def ballotEvent (id : ℕ) (s : State Addr) (step : Step Addr self) : Option (BallotEvent Addr) :=
  match step.2 with
  | .proposeTransaction _ _ _ _ _ => if s.transCount + 1 = id then some .called else none
  | .approveTransaction signer transId => if transId = id then some (.cast signer) else none
  | _ => none

def ballot (balance : Addr → Addr → ℕ) (steps : List (Step Addr self)) (id : ℕ) :
    List (BallotEvent Addr) :=
  (machine self).collect (fun s step _ => ballotEvent id s step) (deployed balance) steps

omit [DecidableEq Addr] in
theorem ballotEvent_of_none {id : ℕ} (hproposes : ¬ Proposes s step id)
    (happroves : ∀ a, step.2 ≠ .approveTransaction a id) : ballotEvent id s step = none := by
  obtain ⟨inv, call⟩ := step
  cases call with
  | proposeTransaction proposer recipient token amount executeAfter =>
    apply if_neg
    intro hid
    exact hproposes ⟨hid, proposer, recipient, token, amount, executeAfter, rfl⟩
  | approveTransaction signer transId =>
    apply if_neg
    rintro rfl
    exact happroves signer rfl
  | _ => rfl

/-- The approvers are those who voted since the ballot was called last. -/
theorem coe_voters_ballot (balance : Addr → Addr → ℕ) (steps : List (Step Addr self)) (id : ℕ) :
    (Ballot.voters (ballot balance steps id) : Set Addr) = approvers balance steps id := by
  ext a
  rw [Finset.mem_coe]
  induction steps using List.reverseRecOn with
  | nil =>
    rw [mem_approvers, ballot, Machine.collect_nil, Ballot.voters_nil]
    simp [Machine.not_switchedOnIn_nil]
  | append_singleton pre step ih =>
    cases hx : (machine self).exec step (reached balance pre) with
    | error e =>
      have hballot : ballot balance (pre ++ [step]) id = ballot balance pre id :=
        Machine.collect_snoc_error hx
      rw [hballot, ih, mem_approvers, mem_approvers, Machine.switchedOnIn_snoc_error hx]
    | ok t =>
      have hballot : ballot balance (pre ++ [step]) id = ballot balance pre id ++
          (ballotEvent id (reached balance pre) step).toList := Machine.collect_snoc_ok hx
      rw [hballot, mem_approvers_snoc hx, ← ih]
      by_cases hproposes : Proposes (reached balance pre) step id
      · obtain ⟨hid, proposer, recipient, token, amount, executeAfter, hcall⟩ := hproposes
        have hevent : ballotEvent id (reached balance pre) step = some .called := by
          simp only [ballotEvent, hcall, if_pos hid]
        rw [hevent, Option.toList_some, Ballot.voters_snoc]
        simp [Ballot.vote, Proposes, hcall, hid]
      by_cases happroves : ∃ signer, step.2 = .approveTransaction signer id
      · obtain ⟨signer, hcall⟩ := happroves
        have hevent : ballotEvent id (reached balance pre) step = some (.cast signer) := by
          simp only [ballotEvent, hcall, if_true]
        rw [hevent, Option.toList_some, Ballot.voters_snoc]
        simp [Ballot.vote, Proposes, hcall, eq_comm]
      · rw [ballotEvent_of_none hproposes fun signer hcall => happroves ⟨signer, hcall⟩,
          Option.toList_none, List.append_nil, and_iff_right hproposes,
          or_iff_right fun hcall => happroves ⟨a, hcall⟩]

/-- The counter of each transaction that is stored. -/
def State.approvalCounts (s : State Addr) : ℕ → Option ℕ :=
  Option.map Transaction.approvals ∘ s.transaction

theorem BallotChange.change (h : BallotChange step s t) :
    Ballot.Change s.approvalCounts t.approvalCounts s.approval t.approval
      fun id => ballotEvent id s step := by
  unfold State.approvalCounts
  cases h with
  | same settles proposes approves transaction approval =>
    refine .same (fun id => ballotEvent_of_none ?_ fun a => approves a id) ?_ approval
    · rintro ⟨-, proposer, recipient, token, amount, executeAfter, hcall⟩
      exact proposes proposer recipient token amount executeAfter hcall
    · rw [transaction]
  | settled transId tx status call found pending final transaction approval =>
    refine .same (fun id => ballotEvent_of_none ?_ ?_) ?_ approval
    · rintro ⟨-, proposer, recipient, token, amount, executeAfter, hcall⟩
      simp [hcall, Call.settles] at call
    · intro a hcall
      simp [hcall, Call.settles] at call
    · rw [transaction]
      exact Table.map_update_eq found rfl
  | proposed proposer recipient token amount executeAfter call transaction approval =>
    refine .called (s.transCount + 1) (fun id => ?_) ?_ approval
    · simp only [ballotEvent, call]
    · rw [transaction, Function.comp_update]
      rfl
  | approved signer transId tx call registered found pending first transaction approval =>
    refine .cast transId signer tx.approvals ?_ first (fun id => ?_) ?_ approval
    · rw [Function.comp_apply, found, Option.map_some]
    · simp only [ballotEvent, call]
    · rw [transaction, Function.comp_update, Option.map_some]

/-- The counters count the approvers, and the flags remember them. -/
theorem run_tallied (balance : Addr → Addr → ℕ) (steps : List (Step Addr self)) (id : ℕ) :
    Ballot.Tallied (ballot balance steps id) ((reached balance steps).approvalCounts id)
      ((reached balance steps).approval id) := by
  apply Ballot.run_tallied (M := machine self)
  · exact fun _ => rfl
  · intro step s t hx
    exact (exec_effect hx).ballotChange.change

theorem encard_approvers {id : ℕ} {tx : Transaction Addr}
    (hfound : (reached balance pre).transaction id = some tx) :
    (approvers balance pre id).encard = tx.approvals := by
  have hstored : (reached balance pre).approvalCounts id = some tx.approvals := by
    rw [State.approvalCounts, Function.comp_apply, hfound, Option.map_some]
  rw [← coe_voters_ballot, Set.encard_coe_eq_coe_finsetCard,
    (run_tallied balance pre id).counted _ hstored]

end Ballots

/-- Approvers who are signers no longer have departed, and nobody who departed is a signer. -/
structure Followed {home : Addr} (balance : Addr → Addr → ℕ) (steps : List (Step Addr home))
    (s : State Addr) : Prop where
  unregistered : ∀ a ∈ departed balance steps, s.signer a = false ∧ s.admin ≠ none
  member : ∀ id, ∀ a ∈ approvers balance steps id, s.signer a = true ∨ a ∈ departed balance steps

/-- Whoever approves is a signer at that time. -/
theorem BallotChange.registered_of_approves {a : Addr} {id : ℕ} (h : BallotChange step s t)
    (hcall : step.2 = .approveTransaction a id) : s.signer a = true := by
  cases h with
  | same settles proposes approves => exact absurd hcall (approves a id)
  | proposed proposer recipient token amount executeAfter call => simp [call] at hcall
  | approved signer transId tx call registered =>
    rw [call] at hcall
    obtain ⟨rfl, -⟩ := Call.approveTransaction.inj hcall
    exact registered
  | settled transId tx status call => simp [hcall, Call.settles] at call

theorem mem_departed_snoc_of_ne {a : Addr}
    (h : (machine self).exec step (reached balance pre) = .ok t)
    (hadds : ∀ admin, step.2 ≠ .addSigner admin a)
    (hremoves : ∀ admin, step.2 ≠ .removeSigner admin a) :
    a ∈ departed balance (pre ++ [step]) ↔ a ∈ departed balance pre := by
  rw [mem_departed_snoc h]
  simp [hadds, hremoves]

/-- Whoever has approved by the end of a call was a signer before it, or had departed. -/
theorem Followed.member_snoc (hs : Followed balance pre (reached balance pre))
    (h : (machine self).exec step (reached balance pre) = .ok t) :
    ∀ id, ∀ a ∈ approvers balance (pre ++ [step]) id,
      (reached balance pre).signer a = true ∨ a ∈ departed balance pre := by
  intro id a ha
  rcases (mem_approvers_snoc h).mp ha with hcall | ⟨-, hbefore⟩
  · exact .inl ((exec_effect h).ballotChange.registered_of_approves hcall)
  · exact hs.member id a hbefore

/-- A call after which the same addresses have departed keeps its signers. -/
theorem Followed.of_kept (hs : Followed balance pre (reached balance pre))
    (h : (machine self).exec step (reached balance pre) = .ok t)
    (hdeparted : ∀ a, a ∈ departed balance (pre ++ [step]) ↔ a ∈ departed balance pre)
    (hsigner : ∀ a, (reached balance pre).signer a = true → t.signer a = true)
    (hgone : ∀ a ∈ departed balance pre, t.signer a = false ∧ t.admin ≠ none) :
    Followed balance (pre ++ [step]) t where
  unregistered a ha := hgone a ((hdeparted a).mp ha)
  member id a ha := by
    rw [hdeparted]
    exact (hs.member_snoc h id a ha).imp_left (hsigner a)

theorem SignerChange.followed (hs : Followed balance pre (reached balance pre))
    (h : (machine self).exec step (reached balance pre) = .ok t)
    (hchange : SignerChange step (reached balance pre) t) :
    Followed balance (pre ++ [step]) t := by
  have hmember := hs.member_snoc h
  cases hchange with
  | same adds removes same =>
    apply hs.of_kept h
    · intro a
      exact mem_departed_snoc_of_ne h (fun admin => adds admin a) fun admin => removes admin a
    · intro a ha
      rwa [same.signer]
    · rw [same.signer, same.admin]
      exact hs.unregistered
  | initialized admin signers threshold call fresh stored threshold_eq count signer =>
    apply hs.of_kept h
    · intro a
      exact mem_departed_snoc_of_ne h (by simp [call]) (by simp [call])
    · intro a ha
      rw [signer, registerSigners_apply]
      exact .inr ha
    · intro a ha
      exact absurd fresh (hs.unregistered a ha).2
  | added admin signer call auth stored unregistered eq =>
    subst eq
    have hdeparted : ∀ a, a ≠ signer →
        (a ∈ departed balance (pre ++ [step]) ↔ a ∈ departed balance pre) := by
      intro a hne
      refine mem_departed_snoc_of_ne h (fun other hcall => ?_) (by simp [call])
      rw [call] at hcall
      exact hne (Call.addSigner.inj hcall).2.symm
    refine ⟨fun a ha => ⟨?_, by simp [stored]⟩, fun id a ha => ?_⟩
    · have hne : a ≠ signer := by
        rintro rfl
        rw [mem_departed_snoc h] at ha
        simp [call] at ha
      show Function.update (reached balance pre).signer signer true a = false
      rw [Function.update_of_ne hne]
      exact (hs.unregistered a ((hdeparted a hne).mp ha)).1
    · show Function.update (reached balance pre).signer signer true a = true ∨ _
      by_cases hne : a = signer
      · simp [hne]
      · rw [Function.update_of_ne hne, hdeparted a hne]
        exact hmember id a ha
  | removed admin signer call auth stored registered le eq =>
    subst eq
    have hdeparted : ∀ a, a ≠ signer →
        (a ∈ departed balance (pre ++ [step]) ↔ a ∈ departed balance pre) := by
      intro a hne
      refine mem_departed_snoc_of_ne h (by simp [call]) (fun other hcall => ?_)
      rw [call] at hcall
      exact hne (Call.removeSigner.inj hcall).2.symm
    refine ⟨fun a ha => ⟨?_, by simp [stored]⟩, fun id a ha => ?_⟩
    · show Function.update (reached balance pre).signer signer false a = false
      by_cases hne : a = signer
      · simp [hne]
      · rw [Function.update_of_ne hne]
        exact (hs.unregistered a ((hdeparted a hne).mp ha)).1
    · show Function.update (reached balance pre).signer signer false a = true ∨ _
      by_cases hne : a = signer
      · right
        rw [mem_departed_snoc h, hne]
        exact .inl ⟨admin, call⟩
      · rw [Function.update_of_ne hne, hdeparted a hne]
        exact hmember id a ha
  | rethresholded admin threshold call auth stored pos le eq =>
    subst eq
    apply hs.of_kept h
    · intro a
      exact mem_departed_snoc_of_ne h (by simp [call]) (by simp [call])
    · exact fun _ ha => ha
    · exact hs.unregistered

theorem run_followed (balance : Addr → Addr → ℕ) (steps : List (Step Addr self)) :
    Followed balance steps (reached balance steps) := by
  refine Machine.run_history (M := machine self) (P := fun steps s => Followed balance steps s)
    ?_ ?_ ?_ steps
  · refine ⟨fun a ha => ?_, fun id a ha => ?_⟩
    · exact absurd (mem_departed.mp ha) Machine.not_switchedOn_nil
    · exact absurd (mem_approvers.mp ha) Machine.not_switchedOnIn_nil
  · intro pre step t hs h
    exact (exec_effect h).signerChange.followed hs h
  · intro pre step e hs h
    have hdeparted : ∀ a, a ∈ departed balance (pre ++ [step]) ↔ a ∈ departed balance pre := by
      intro a
      rw [mem_departed, mem_departed]
      exact Machine.switchedOn_snoc_error h
    refine ⟨fun a ha => hs.unregistered a ((hdeparted a).mp ha), fun id a ha => ?_⟩
    rw [hdeparted]
    rw [mem_approvers, Machine.switchedOnIn_snoc_error h, ← mem_approvers] at ha
    exact hs.member id a ha

/-- A transfer that executes is approved by the threshold of registered signers if and only
if the approvals beyond the threshold make up for the approvers that were removed since. -/
theorem authorised_iff_departuresCovered {steps : List (Step Addr self)}
    {inv : Invocation Addr self} {executor : Addr} {id : ℕ}
    (h : (machine self).Executes (deployed balance) steps pre
      (inv, .executeTransaction executor id) t) :
    Authorised balance pre id ↔ DeparturesCovered balance pre id := by
  have hx : executeTransaction inv (reached balance pre) id = .ok t := h.exec_eq
  obtain ⟨tx, -, -, found, -⟩ := executeTransaction_spec hx
  have hcount := encard_approvers found
  have hfollowed := run_followed balance pre
  have hdisjoint : Disjoint (reached balance pre).signers (departed balance pre) := by
    rw [Set.disjoint_left]
    intro a hsigner hgone
    have hregistered : (reached balance pre).signer a = true := hsigner
    rw [(hfollowed.unregistered a hgone).1] at hregistered
    cases hregistered
  have hle : ∀ threshold : ℕ, (threshold : ℕ∞) ≤
      (approvers balance pre id ∩ (reached balance pre).signers).encard ↔
        threshold + (approvers balance pre id ∩ departed balance pre).encard ≤
          (tx.approvals : ℕ∞) :=
    fun threshold => Ballot.le_encard_inter_iff hcount (hfollowed.member id) hdisjoint
  constructor
  · rintro ⟨threshold, hthreshold, henough⟩
    exact ⟨threshold, tx, hthreshold, found, (hle threshold).mp henough⟩
  · rintro ⟨threshold, tx', hthreshold, hfound, hcovered⟩
    obtain rfl : tx = tx' := Option.some.inj (found.symm.trans hfound)
    exact ⟨threshold, hthreshold, (hle threshold).mpr hcovered⟩

/-- Two of three signers approve a payment and the admin removes one of them. -/
def removedRun : List (Step ℕ 0) :=
  [(signedByOthers 0 0, .initializeMultisig 9 [1, 2, 3] 2),
    (signedByOthers 0 0, .deposit 7 5 100),
    (signedByOthers 0 0, .proposeTransaction 4 6 7 50 0),
    (signedByOthers 0 0, .approveTransaction 1 1),
    (signedByOthers 0 0, .approveTransaction 2 1),
    (signedByOthers 0 0, .removeSigner 9 1)]

theorem removedRun_executes :
    ∃ t, (machine 0).Executes (deployed fun _ _ => 100)
      (removedRun ++ [(signedByOthers 0 0, .executeTransaction 4 1)]) removedRun
      (signedByOthers 0 0, .executeTransaction 4 1) t := by
  refine ⟨_, Machine.executes_of_run_ne fun h => ?_⟩
  exact absurd (congrArg (fun s => s.transaction 1) h) (by decide +kernel)

theorem authorised_iff_departuresCovered_removedRun :
    Authorised (fun _ _ => 100) removedRun 1 ↔ DeparturesCovered (fun _ _ => 100) removedRun 1 :=
  authorised_iff_departuresCovered removedRun_executes.choose_spec

/-- The payment executes although only one of its approvers is still a signer. -/
theorem removedRun_unauthorised :
    (∃ t, (machine 0).Executes (deployed fun _ _ => 100)
      (removedRun ++ [(signedByOthers 0 0, .executeTransaction 4 1)]) removedRun
      (signedByOthers 0 0, .executeTransaction 4 1) t) ∧
    ¬ Authorised (fun _ _ => 100) removedRun 1 := by
  refine ⟨removedRun_executes, ?_⟩
  rintro ⟨threshold, hthreshold, hle⟩
  have htwo : (reached (fun _ _ => 100) removedRun).threshold = some 2 := by decide +kernel
  have hgone : (reached (fun _ _ => 100) removedRun).signer 1 = false := by decide +kernel
  obtain rfl : 2 = threshold := Option.some.inj (htwo.symm.trans hthreshold)
  have hsub : approvers (fun _ _ => 100) removedRun 1 ∩
      (reached (fun _ _ => 100) removedRun).signers ⊆ {2} := by
    rintro a ⟨ha, hsigner⟩
    obtain ⟨pre, step, t, hx, hcall, -⟩ := mem_approvers.mp ha
    have hmem := hx.mem
    have hregistered : (reached (fun _ _ => 100) removedRun).signer a = true := hsigner
    obtain ⟨inv, call⟩ := step
    obtain rfl : call = .approveTransaction a 1 := hcall
    have hcases : a = 1 ∨ a = 2 := by
      simp only [removedRun, List.mem_cons, Prod.mk.injEq, reduceCtorEq, and_false, false_or,
        Call.approveTransaction.injEq, List.not_mem_nil, or_false] at hmem
      omega
    rcases hcases with rfl | rfl
    · rw [hgone] at hregistered
      exact absurd hregistered (by simp)
    · rfl
  have hone := (hle.trans (Set.encard_le_encard hsub))
  rw [Set.encard_singleton] at hone
  exact absurd hone (by decide)

end MultiSig
