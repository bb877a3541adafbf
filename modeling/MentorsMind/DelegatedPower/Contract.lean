import MentorsMind.Soroban.Host

/-! The delegation contract with the eager power cache and the snapshots of delegations. The
source file interleaves it with `DelegationRegistry`; this is the version with `undelegate`.
Events, the paged index of delegators and the lifetimes of entries are left out. -/
namespace DelegatedPower
open Outcome Soroban

def defaultDelegationCapBps : ℕ := 10000

/-- What `validate_delegation_chain` answers when it fails. -/
inductive DelegationError where
  | circularDelegation
  | depthExceeded
  deriving DecidableEq

/-- One field for each storage key. An absent amount reads as zero, an absent list as the
empty one. -/
structure State (Addr : Type) where
  admin : Option Addr
  mntToken : Option Addr
  snapshotContract : Option Addr
  delegate : Addr → Option Addr
  delegators : List Addr
  maxDelegationDepth : Option ℕ
  delegatedPowerCache : Addr → ℤ
  subtreeWeight : Addr → ℤ
  delegationAtSnapshot : ℕ × Addr → Option Addr
  delegationSnapshot : ℕ × Addr → ℤ
  maxDelegatedPowerBps : Option ℕ
  delegationSuspended : Option Bool

def deployed (Addr : Type) : State Addr where
  admin := none
  mntToken := none
  snapshotContract := none
  delegate _ := none
  delegators := []
  maxDelegationDepth := none
  delegatedPowerCache _ := 0
  subtreeWeight _ := 0
  delegationAtSnapshot _ := none
  delegationSnapshot _ := 0
  maxDelegatedPowerBps := none
  delegationSuspended := none

/-- One invocation: the ledger, the signers, the balances of the token, and what
`get_snapshot_balance` of the snapshot contract answers. A call that traps answers `none`. -/
structure Invocation (Addr : Type) (home : Addr) extends Env Addr home where
  balance : Addr → ℤ
  snapshotBalance : ℕ → Addr → Option ℤ

variable {Addr : Type} [DecidableEq Addr] {self : Addr}

section Settings

/-- The entry point `initialize`, which asks for no authorisation. -/
def initializeDelegation (s : State Addr) (admin mntToken : Addr) : Result (State Addr) := do
  require (s.admin = none) (.panic "already initialized")
  pure { s with
    admin := some admin
    mntToken := some mntToken
    maxDelegationDepth := some 10
    maxDelegatedPowerBps := some defaultDelegationCapBps
    delegationSuspended := some false }

/-- The check that every setter starts with. -/
def requireAdmin (inv : Invocation Addr self) (s : State Addr) (admin : Addr) : Result Unit := do
  let storedAdmin ← expect s.admin (.panic "not initialized")
  requireAuth inv.toEnv admin
  require (admin = storedAdmin) (.panic "unauthorized")

def setMaxDelegationDepth (inv : Invocation Addr self) (s : State Addr) (admin : Addr)
    (depth : ℕ) : Result (State Addr) := do
  requireAdmin inv s admin
  require (2 ≤ depth ∧ depth ≤ 100) (.panic "depth must be between 2 and 100")
  pure { s with maxDelegationDepth := some depth }

def getMaxDelegationDepth (s : State Addr) : ℕ := s.maxDelegationDepth.getD 10

def setDelegationPowerCapBps (inv : Invocation Addr self) (s : State Addr) (admin : Addr)
    (capBps : ℕ) : Result (State Addr) := do
  requireAdmin inv s admin
  require (0 < capBps ∧ capBps ≤ 10000) (.panic "cap must be between 1 and 10000 bps")
  pure { s with maxDelegatedPowerBps := some capBps }

def getDelegationPowerCapBps (s : State Addr) : ℕ :=
  s.maxDelegatedPowerBps.getD defaultDelegationCapBps

def setDelegationSuspended (inv : Invocation Addr self) (s : State Addr) (admin : Addr)
    (suspended : Bool) : Result (State Addr) := do
  requireAdmin inv s admin
  pure { s with delegationSuspended := some suspended }

def isDelegationSuspended (s : State Addr) : Bool := s.delegationSuspended.getD false

def setSnapshotContract (inv : Invocation Addr self) (s : State Addr)
    (admin snapshotContract : Addr) : Result (State Addr) := do
  requireAdmin inv s admin
  pure { s with snapshotContract := some snapshotContract }

end Settings

section Weights

def tokenBalance (inv : Invocation Addr self) (s : State Addr) (addr : Addr) : Result ℤ := do
  let _ ← expect s.mntToken (.panic "token not set")
  pure (inv.balance addr)

/-- The holder's own balance on top of what `SubtreeWeight` stores for it. -/
def getSubtreeWeight (inv : Invocation Addr self) (s : State Addr) (addr : Addr) :
    Result ℤ := do
  let ownBalance ← tokenBalance inv s addr
  checkedI128 (ownBalance + s.subtreeWeight addr) (.panic "overflow")

def adjustSubtreeWeight (s : State Addr) (addr : Addr) (delta : ℤ) : Result (State Addr) := do
  if delta = 0 then pure s
  else do
    let updated ← checkedI128 (s.subtreeWeight addr + delta) (.panic "overflow")
    pure { s with subtreeWeight := Function.update s.subtreeWeight addr updated }

def adjustPowerCache (s : State Addr) (delegate : Addr) (delta : ℤ) : Result (State Addr) := do
  if delta = 0 then pure s
  else do
    let updated ← checkedI128 (s.delegatedPowerCache delegate + delta) (.panic "overflow")
    pure { s with delegatedPowerCache := Function.update s.delegatedPowerCache delegate updated }

/-- The loop of `propagate_weight_change`, with the number of iterations left. When none is
left the node it stands at is taken for the end of the chain. -/
def climbAndAdjust (delta : ℤ) : ℕ → Addr → State Addr → Result (State Addr)
  | 0, cur, s => adjustPowerCache s cur delta
  | n + 1, cur, s => do
      let s ← adjustSubtreeWeight s cur delta
      match s.delegate cur with
      | some next => climbAndAdjust delta n next s
      | none => adjustPowerCache s cur delta

def propagateWeightChange (s : State Addr) (start : Addr) (delta : ℤ) (maxDepth : ℕ) :
    Result (State Addr) :=
  if delta = 0 then pure s
  else climbAndAdjust delta maxDepth start s

def totalDelegatedBalanceFrom (inv : Invocation Addr self) (s : State Addr)
    (delegators : List Addr) (pending : Addr) : Result ℤ := do
  let total ← delegators.foldlM (fun total delegator => do
    let balance ← tokenBalance inv s delegator
    checkedI128 (total + balance) (.panic "overflow")) 0
  if pending ∈ delegators then pure total
  else do
    let balance ← tokenBalance inv s pending
    checkedI128 (total + balance) (.panic "overflow")

/-- The `cap_exceeded` of `assess_delegation_concentration`: the product saturates in a `u128`
and the quotient is cut to a `u32`. -/
def capExceeded (totalPower delegatePower : ℤ) (capBps : ℕ) : Bool :=
  let concentrationBps :=
    if 0 < totalPower ∧ 0 < delegatePower then
      min (delegatePower.toNat * 10000) (2 ^ 128 - 1) / totalPower.toNat % 2 ^ 32
    else 0
  min capBps 10000 < concentrationBps

end Weights

/-- The loop of `validate_delegation_chain`, with the number of nodes that may still be
visited and those visited so far. It answers the depth. -/
def walkChain (s : State Addr) (delegator : Addr) :
    ℕ → List Addr → Addr → Except DelegationError ℕ
  | 0, _, _ => .error .depthExceeded
  | n + 1, seen, cur =>
      if cur = delegator then .error .circularDelegation
      else if cur ∈ seen then .error .circularDelegation
      else match s.delegate cur with
        | some next => walkChain s delegator n (seen ++ [cur]) next
        | none => .ok (seen.length + 1)

def validateDelegationChain (s : State Addr) (delegator delegate : Addr) :
    Except DelegationError ℕ :=
  if delegator = delegate then .error .circularDelegation
  else walkChain s delegator (getMaxDelegationDepth s) [] delegate

def requireValidChain (s : State Addr) (delegator delegate : Addr) : Result Unit :=
  match validateDelegationChain s delegator delegate with
  | .ok _ => pure ()
  | .error .circularDelegation => .error (.panic "circular delegation")
  | .error .depthExceeded => .error (.panic "delegation depth exceeded")

/-- The concentration check of `delegate`. When it fails the weight is first given back to the
previous chain. -/
def requireUnderCap (inv : Invocation Addr self) (s : State Addr) (delegator delegate : Addr)
    (weight : ℤ) (maxDepth : ℕ) : Result Unit := do
  let cap := getDelegationPowerCapBps s
  if cap < defaultDelegationCapBps then do
    let totalAfter ← totalDelegatedBalanceFrom inv s s.delegators delegator
    let projected ← checkedI128 (s.delegatedPowerCache delegate + weight) (.panic "overflow")
    if capExceeded totalAfter projected cap then do
      let _ ← match s.delegate delegator with
        | some prev => propagateWeightChange s prev weight maxDepth
        | none => pure s
      .error (.panic "delegation concentration cap exceeded")
    else pure ()
  else pure ()

/-- Takes the weight from the chain that the delegator is part of. -/
def releaseWeight (s : State Addr) (delegator : Addr) (weight : ℤ) (maxDepth : ℕ) :
    Result (State Addr) :=
  match s.delegate delegator with
  | some prev => do
      let taken ← i128 (-weight)
      propagateWeightChange s prev taken maxDepth
  | none => pure s

def delegate (inv : Invocation Addr self) (s : State Addr) (delegator delegate : Addr) :
    Result (State Addr) := do
  requireAuth inv.toEnv delegator
  require (isDelegationSuspended s = false) (.panic "delegation suspended")
  require (delegator ≠ delegate) (.panic "cannot delegate to self")
  requireValidChain s delegator delegate
  let maxDepth := getMaxDelegationDepth s
  let weight ← getSubtreeWeight inv s delegator
  let freed ← releaseWeight s delegator weight maxDepth
  requireUnderCap inv freed delegator delegate weight maxDepth
  let linked := { freed with
    delegate := Function.update freed.delegate delegator (some delegate)
    delegators :=
      if delegator ∈ freed.delegators then freed.delegators
      else freed.delegators ++ [delegator] }
  propagateWeightChange linked delegate weight maxDepth

/-- Without a delegation this is a call that does nothing. -/
def undelegate (inv : Invocation Addr self) (s : State Addr) (delegator : Addr) :
    Result (State Addr) := do
  requireAuth inv.toEnv delegator
  match s.delegate delegator with
  | none => pure s
  | some delegate => do
      let maxDepth := getMaxDelegationDepth s
      let weight ← getSubtreeWeight inv s delegator
      let unlinked := { s with
        delegate := Function.update s.delegate delegator none
        delegators := s.delegators.erase delegator }
      let taken ← i128 (-weight)
      propagateWeightChange unlinked delegate taken maxDepth

/-- The transfer hook of the token. -/
def invalidatePowerCache (inv : Invocation Addr self) (s : State Addr) (delegator : Addr)
    (oldBalance newBalance : ℤ) : Result (State Addr) := do
  let token ← expect s.mntToken (.panic "token not set")
  requireAuth inv.toEnv token
  let delta ← checkedI128 (newBalance - oldBalance) (.panic "overflow")
  if delta = 0 then pure s
  else do
    let adjusted ← adjustSubtreeWeight s delegator delta
    match adjusted.delegate delegator with
    | some delegate =>
        propagateWeightChange adjusted delegate delta (getMaxDelegationDepth adjusted)
    | none => pure adjusted

section Snapshots

/-- One round of the loop of `snapshot_delegations`. -/
def snapshotDelegator (inv : Invocation Addr self) (snapshotId : ℕ) (s : State Addr)
    (delegator : Addr) : Result (State Addr) :=
  match s.delegate delegator with
  | none => pure s
  | some delegate => do
      let balance ← expect (inv.snapshotBalance snapshotId delegator) .subcall
      let noted := { s with
        delegationAtSnapshot :=
          Function.update s.delegationAtSnapshot (snapshotId, delegator) (some delegate) }
      if 0 < balance then do
        let power ← checkedI128 (noted.delegationSnapshot (snapshotId, delegate) + balance)
          (.panic "overflow")
        pure { noted with
          delegationSnapshot :=
            Function.update noted.delegationSnapshot (snapshotId, delegate) power }
      else pure noted

/-- Anybody may call it, and for any id. -/
def snapshotDelegations (inv : Invocation Addr self) (s : State Addr) (snapshotId : ℕ) :
    Result (State Addr) := do
  let _ ← expect s.snapshotContract (.panic "snapshot contract not set")
  s.delegators.foldlM (snapshotDelegator inv snapshotId) s

def getDelegationAtSnapshot (s : State Addr) (snapshotId : ℕ) (delegator : Addr) : Option Addr :=
  s.delegationAtSnapshot (snapshotId, delegator)

def getDelegatedPowerAtSnapshot (s : State Addr) (delegate : Addr) (snapshotId : ℕ) : ℤ :=
  s.delegationSnapshot (snapshotId, delegate)

end Snapshots

section Views

def getDelegatedPower (s : State Addr) (delegate : Addr) : ℤ := s.delegatedPowerCache delegate

def getEffectivePower (inv : Invocation Addr self) (s : State Addr) (voter : Addr) :
    Result ℤ := do
  if s.delegate voter ≠ none then pure 0
  else do
    let own ← tokenBalance inv s voter
    checkedI128 (own + getDelegatedPower s voter) (.panic "overflow")

end Views

/-- The entry points that write, with their arguments. -/
inductive Call (Addr : Type) where
  | initializeDelegation (admin mntToken : Addr)
  | setMaxDelegationDepth (admin : Addr) (depth : ℕ)
  | setDelegationPowerCapBps (admin : Addr) (capBps : ℕ)
  | setDelegationSuspended (admin : Addr) (suspended : Bool)
  | setSnapshotContract (admin snapshotContract : Addr)
  | delegate (delegator delegate : Addr)
  | undelegate (delegator : Addr)
  | invalidatePowerCache (delegator : Addr) (oldBalance newBalance : ℤ)
  | snapshotDelegations (snapshotId : ℕ)

def exec (inv : Invocation Addr self) (call : Call Addr) (s : State Addr) :
    Result (State Addr) :=
  match call with
  | .initializeDelegation admin mntToken => initializeDelegation s admin mntToken
  | .setMaxDelegationDepth admin depth => setMaxDelegationDepth inv s admin depth
  | .setDelegationPowerCapBps admin capBps => setDelegationPowerCapBps inv s admin capBps
  | .setDelegationSuspended admin suspended => setDelegationSuspended inv s admin suspended
  | .setSnapshotContract admin snapshotContract => setSnapshotContract inv s admin snapshotContract
  | .delegate delegator target => delegate inv s delegator target
  | .undelegate delegator => undelegate inv s delegator
  | .invalidatePowerCache delegator oldBalance newBalance =>
      invalidatePowerCache inv s delegator oldBalance newBalance
  | .snapshotDelegations snapshotId => snapshotDelegations inv s snapshotId

abbrev Step (Addr : Type) (self : Addr) := Invocation Addr self × Call Addr

/-- The deployed contract. -/
def machine (self : Addr) : Machine (State Addr) (Step Addr self) Trap where
  exec step := exec step.1 step.2

/-- The state after a run from deployment. -/
abbrev reached (steps : List (Step Addr self)) : State Addr :=
  (machine self).run (deployed Addr) steps

end DelegatedPower
