import MentorsMind.Lib.Forest
import MentorsMind.Soroban.Host

/-! The delegation registry that resolves weights when they are asked for. The source file
holds two versions of the delegation contract whose texts are interleaved. This is the one
with `MAX_CHAIN_DEPTH`, `revoke` and `unlink`, which stores `Delegation(delegator)` and
`Delegators(delegate)`; the one with `undelegate` is `DelegatedPower`. The paged index of
delegators and the lifetimes of entries are left out. -/
namespace DelegationRegistry
open Outcome Soroban

def maxChainDepth : ℕ := 8

/-- One field for each storage key. An absent list reads as the empty one. -/
structure State (Addr : Type) where
  admin : Option Addr
  snapshot : Option Addr
  delegation : Addr → Option Addr
  delegators : Addr → List Addr

def deployed (Addr : Type) : State Addr where
  admin := none
  snapshot := none
  delegation _ := none
  delegators _ := []

/-- One invocation: the ledger, the signers, and what `get_voting_power` of the snapshot
contract answers for a proposal and a holder. A call that traps answers `none`. -/
structure Invocation (Addr : Type) (home : Addr) extends Env Addr home where
  votingPower : ℕ → Addr → Option ℤ

variable {Addr : Type} {self : Addr}

/-- The entry point `initialize`, which asks for no authorisation. -/
def initializeRegistry (s : State Addr) (admin snapshotContract : Addr) : Result (State Addr) := do
  require (s.admin = none) (.panic "already initialized")
  pure { s with admin := some admin, snapshot := some snapshotContract }

def requireInitialized (s : State Addr) : Result Unit :=
  require (s.admin ≠ none) (.panic "not initialized")

section Views

/-- The holder's own weight, whether delegated or not. -/
def getBaseWeight (inv : Invocation Addr self) (s : State Addr) (proposalId : ℕ)
    (holder : Addr) : Result ℤ := do
  requireInitialized s
  let _ ← expect s.snapshot (.panic "snapshot not set")
  expect (inv.votingPower proposalId holder) .subcall

/-- `resolve` with the number of hops that are still followed, `MAX_CHAIN_DEPTH` less the depth. -/
def resolve (inv : Invocation Addr self) (s : State Addr) (proposalId : ℕ) :
    ℕ → Addr → Result ℤ
  | 0, _ => pure 0
  | hops + 1, holder =>
      (s.delegators holder).foldlM (fun total delegator => do
        let base ← getBaseWeight inv s proposalId delegator
        let below ← resolve inv s proposalId hops delegator
        let contributed ← checkedI128 (base + below) (.panic "delegated weight overflow")
        checkedI128 (total + contributed) (.panic "delegated weight overflow")) 0

def getVotingWeight (inv : Invocation Addr self) (s : State Addr) (proposalId : ℕ)
    (holder : Addr) : Result ℤ := do
  requireInitialized s
  if s.delegation holder ≠ none then pure 0
  else do
    let base ← getBaseWeight inv s proposalId holder
    let delegated ← resolve inv s proposalId maxChainDepth holder
    checkedI128 (base + delegated) (.panic "delegated weight overflow")

end Views

variable [DecidableEq Addr]

/-- The loop of `require_acyclic`, with the number of iterations left. -/
def walkToEnd (s : State Addr) (delegator : Addr) : ℕ → Addr → Result Unit
  | 0, _ => .error (.panic "delegation chain too deep")
  | n + 1, current =>
      if current = delegator then .error (.panic "circular delegation")
      else match s.delegation current with
        | some next => walkToEnd s delegator n next
        | none => pure ()

def requireAcyclic (s : State Addr) (delegator delegate : Addr) : Result Unit :=
  walkToEnd s delegator maxChainDepth delegate

/-- Removes the outgoing delegation from both indexes. -/
def unlink (s : State Addr) (delegator : Addr) : State Addr :=
  match s.delegation delegator with
  | none => s
  | some delegate =>
      { s with
        delegation := Function.update s.delegation delegator none
        delegators := Function.update s.delegators delegate
          ((s.delegators delegate).filter fun d => d ≠ delegator) }

def delegate (inv : Invocation Addr self) (s : State Addr) (delegator delegate : Addr) :
    Result (State Addr) := do
  requireInitialized s
  requireAuth inv.toEnv delegator
  require (delegator ≠ delegate) (.panic "cannot delegate to self")
  requireAcyclic s delegator delegate
  let freed := unlink s delegator
  let delegators := freed.delegators delegate
  pure { freed with
    delegation := Function.update freed.delegation delegator (some delegate)
    delegators :=
      if delegator ∈ delegators then freed.delegators
      else Function.update freed.delegators delegate (delegators ++ [delegator]) }

def revoke (inv : Invocation Addr self) (s : State Addr) (delegator : Addr) :
    Result (State Addr) := do
  requireInitialized s
  requireAuth inv.toEnv delegator
  require (s.delegation delegator ≠ none) (.panic "no delegation to revoke")
  pure (unlink s delegator)

/-- The entry points that write, with their arguments. -/
inductive Call (Addr : Type) where
  | initializeRegistry (admin snapshotContract : Addr)
  | delegate (delegator delegate : Addr)
  | revoke (delegator : Addr)

def exec (inv : Invocation Addr self) (call : Call Addr) (s : State Addr) :
    Result (State Addr) :=
  match call with
  | .initializeRegistry admin snapshotContract => initializeRegistry s admin snapshotContract
  | .delegate delegator target => delegate inv s delegator target
  | .revoke delegator => revoke inv s delegator

abbrev Step (Addr : Type) (self : Addr) := Invocation Addr self × Call Addr

/-- The deployed registry. -/
def machine (self : Addr) : Machine (State Addr) (Step Addr self) Trap where
  exec step := exec step.1 step.2

/-- The state after a run from deployment. -/
abbrev reached (steps : List (Step Addr self)) : State Addr :=
  (machine self).run (deployed Addr) steps

/-- An invocation that every account signed, where the holders 1 to 10 weigh ten each. -/
def tenEach : Invocation ℕ 0 where
  toEnv := signedByAll 0
  votingPower _ holder := some (if holder ∈ Finset.Icc 1 10 then 10 else 0)

end DelegationRegistry
