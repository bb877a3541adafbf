import MentorsMind.DelegatedPower.Snapshots
import MentorsMind.Governance.Contract
import MentorsMind.Lib.Poll
import MentorsMind.Snapshot.Integrity

/-! The contracts that the weight of a vote comes from. A call that records a snapshot has the
delegation contract take one under the same id, which in turn asks for the balances. Each contract
is taken to know the others by their addresses. -/
namespace VotingPower
open Outcome Soroban

variable {Addr : Type} {snapshotHome delegationHome home : Addr}

structure World (Addr : Type) where
  snapshot : Snapshot.State Addr
  delegation : DelegatedPower.State Addr

def World.deployed (Addr : Type) : World Addr where
  snapshot := Snapshot.deployed Addr
  delegation := DelegatedPower.deployed Addr

/-- The host computes the checksums, and says whether a contract may be called while it runs, which
Soroban rules out. -/
structure Host (Addr : Type) extends Snapshot.Digests Addr where
  reentry : Bool

/-- The invocation in which `record_snapshot` calls the delegation contract. It needs no
signatures. -/
def visit (inv : Snapshot.Invocation Addr snapshotHome) (balance : Addr → ℤ) :
    DelegatedPower.Invocation Addr delegationHome where
  timestamp := inv.timestamp
  sequence := inv.sequence
  auth _ := false
  auth_home := rfl
  balance := balance
  snapshotBalance _ _ := none

/-- The invocation with the balances that the snapshot contract answers, if it may be called. -/
def asking (inv : DelegatedPower.Invocation Addr delegationHome) (s : Snapshot.State Addr)
    (callable : Bool) : DelegatedPower.Invocation Addr delegationHome :=
  { inv with
    snapshotBalance := fun id a =>
      if callable then some (Snapshot.getSnapshotBalance s id a) else none }

/-- The calls that reach the two contracts from outside, with the balances of the token for those
made from the snapshot contract. -/
inductive WorldCall (snapshotHome delegationHome : Addr) where
  | initializeSnapshot (inv : Snapshot.Invocation Addr snapshotHome)
      (admin stakingContract delegationContract : Addr)
  | recordSnapshot (inv : Snapshot.Invocation Addr snapshotHome) (balance : Addr → ℤ)
      (caller : Addr) (id : ℕ)
  | delegation (inv : DelegatedPower.Invocation Addr delegationHome)
      (call : DelegatedPower.Call Addr)

variable [DecidableEq Addr]

/-- A snapshot is recorded if the delegation contract takes its own. -/
def World.exec (host : Host Addr) (call : WorldCall snapshotHome delegationHome) (w : World Addr) :
    Result (World Addr) :=
  match call with
  | .initializeSnapshot inv admin stakingContract delegationContract => do
      let snapshot ← Snapshot.exec host.toDigests inv
        (.initializeSnapshot admin stakingContract delegationContract) w.snapshot
      pure { w with snapshot := snapshot }
  | .recordSnapshot inv balance caller id => do
      let snapshot ← Snapshot.exec host.toDigests
        { inv with snapshotDelegations := fun _ _ => true } (.recordSnapshot caller id) w.snapshot
      match DelegatedPower.exec
        (asking (visit inv balance : DelegatedPower.Invocation Addr delegationHome) snapshot
          host.reentry)
        (.snapshotDelegations id) w.delegation with
      | .ok delegation => pure ⟨snapshot, delegation⟩
      | .error _ => .error Snapshot.Error.crossContractCallFailed.trap
  | .delegation inv call => do
      let delegation ← DelegatedPower.exec (asking inv w.snapshot true) call w.delegation
      pure { w with delegation := delegation }

/-- The two contracts. -/
def machine (snapshotHome delegationHome : Addr) (host : Host Addr) :
    Machine (World Addr) (WorldCall snapshotHome delegationHome) Trap where
  exec := World.exec host

/-- The world after a run from deployment. -/
abbrev reached (host : Host Addr) (steps : List (WorldCall snapshotHome delegationHome)) :
    World Addr :=
  (machine snapshotHome delegationHome host).run (World.deployed Addr) steps

section Steps

variable {host : Host Addr} {w v : World Addr} {id : ℕ}
  {step : WorldCall snapshotHome delegationHome}

/-- What a successful call does to the two contracts. -/
inductive Effect (host : Host Addr) (w v : World Addr) :
    WorldCall snapshotHome delegationHome → Prop where
  | initialized {inv : Snapshot.Invocation Addr snapshotHome}
      {admin stakingContract delegationContract : Addr}
      (effect : Snapshot.Effect host.toDigests inv w.snapshot v.snapshot
        (.initializeSnapshot admin stakingContract delegationContract))
      (delegation : v.delegation = w.delegation) :
      Effect host w v (.initializeSnapshot inv admin stakingContract delegationContract)
  | recorded {inv : Snapshot.Invocation Addr snapshotHome} {balance : Addr → ℤ} {caller : Addr}
      {id : ℕ}
      (effect : Snapshot.Effect host.toDigests { inv with snapshotDelegations := fun _ _ => true }
        w.snapshot v.snapshot (.recordSnapshot caller id))
      (taken : DelegatedPower.exec
        (asking (visit inv balance : DelegatedPower.Invocation Addr delegationHome) v.snapshot
          host.reentry) (.snapshotDelegations id) w.delegation = .ok v.delegation) :
      Effect host w v (.recordSnapshot inv balance caller id)
  | delegated {inv : DelegatedPower.Invocation Addr delegationHome}
      {call : DelegatedPower.Call Addr}
      (exec : DelegatedPower.exec (asking inv w.snapshot true) call w.delegation =
        .ok v.delegation)
      (snapshot : v.snapshot = w.snapshot) : Effect host w v (.delegation inv call)

theorem exec_effect (h : World.exec host step w = .ok v) : Effect host w v step := by
  cases step with
  | initializeSnapshot inv admin stakingContract delegationContract =>
    simp only [World.exec, bind_eq_ok, pure_eq_ok] at h
    obtain ⟨snapshot, hsnapshot, rfl⟩ := h
    exact .initialized (Snapshot.exec_effect hsnapshot) rfl
  | recordSnapshot inv balance caller id =>
    simp only [World.exec, bind_eq_ok] at h
    obtain ⟨snapshot, hsnapshot, h⟩ := h
    split at h
    · next delegation hdelegation =>
      obtain rfl := Except.ok.inj h
      exact .recorded (Snapshot.exec_effect hsnapshot) hdelegation
    · cases h
  | delegation inv call =>
    simp only [World.exec, bind_eq_ok, pure_eq_ok] at h
    obtain ⟨delegation, hdelegation, rfl⟩ := h
    exact .delegated hdelegation rfl

/-- The call records a snapshot of the stakes under the id. -/
def WorldCall.Records (id : ℕ) : WorldCall snapshotHome delegationHome → Prop
  | .recordSnapshot _ _ _ id' => id' = id
  | _ => False

/-- The call takes a snapshot of the delegations under the id. -/
def WorldCall.TakesDelegations (id : ℕ) : WorldCall snapshotHome delegationHome → Prop
  | .recordSnapshot _ _ _ id' => id' = id
  | .delegation _ (.snapshotDelegations id') => id' = id
  | _ => False

theorem Effect.listed (h : Effect host w v step) (hs : DelegatedPower.Listed w.delegation) :
    DelegatedPower.Listed v.delegation := by
  cases h with
  | initialized _ delegation =>
    rw [delegation]
    exact hs
  | recorded _ taken => exact (DelegatedPower.exec_effect taken).listed hs
  | delegated exec _ => exact (DelegatedPower.exec_effect exec).listed hs

/-- What is stored under an id is left alone by all calls that record or take nothing under it. -/
theorem Effect.kept (h : Effect host w v step) (hother : ¬ step.TakesDelegations id) :
    (∀ a, v.snapshot.snapshot (id, a) = w.snapshot.snapshot (id, a)) ∧
      (∀ a, v.delegation.delegationAtSnapshot (id, a) =
        w.delegation.delegationAtSnapshot (id, a)) ∧
      ∀ d, v.delegation.delegationSnapshot (id, d) = w.delegation.delegationSnapshot (id, d) := by
  cases h with
  | initialized effect delegation =>
    cases effect with
    | initialized _ eq =>
      rw [eq, delegation]
      exact ⟨fun _ => rfl, fun _ => rfl, fun _ => rfl⟩
  | @recorded inv balance caller id' effect taken =>
    have hid : id' ≠ id := hother
    constructor
    · cases effect with
      | recorded _ _ _ _ _ _ _ kept _ _ _ =>
        intro a
        exact kept (id, a) fun heq => absurd heq.symm hid
    · apply (DelegatedPower.exec_effect taken).snapshot_kept
      intro heq
      exact hid (DelegatedPower.Call.snapshotDelegations.inj heq)
  | @delegated inv call exec snapshot =>
    constructor
    · intro a
      rw [snapshot]
    · apply (DelegatedPower.exec_effect exec).snapshot_kept
      rintro rfl
      exact hother rfl

end Steps

section Voting

omit [DecidableEq Addr]

/-- The invocation of `vote`, with what the two contracts answer. -/
def answering (inv : Governance.Invocation Addr home)
    (asked : Snapshot.Invocation Addr snapshotHome) (w : World Addr) : Governance.Invocation Addr home :=
  { inv with
    votingPower := fun _ id voter =>
      (Snapshot.getVotingPower { asked with
        delegationAtSnapshot := fun _ id delegator =>
          some (DelegatedPower.getDelegationAtSnapshot w.delegation id delegator) }
        w.snapshot id voter).toOption
    delegatedPowerAtSnapshot := fun _ delegate id =>
      some (DelegatedPower.getDelegatedPowerAtSnapshot w.delegation delegate id) }

/-- The weight that `vote` on a proposal gives a voter. -/
def voteWeight (inv : Governance.Invocation Addr home)
    (asked : Snapshot.Invocation Addr snapshotHome) (w : World Addr) (g : Governance.State Addr)
    (p : Governance.Proposal Addr) (proposalId : ℕ) (voter : Addr) : Result ℤ :=
  Governance.votingWeight (answering inv asked w) g p proposalId voter

/-- The voter who a staker's units are counted for: its delegate at the snapshot, or itself. -/
def countedFor (w : World Addr) (id : ℕ) (staker : Addr) : Addr :=
  (DelegatedPower.getDelegationAtSnapshot w.delegation id staker).getD staker

end Voting

end VotingPower
