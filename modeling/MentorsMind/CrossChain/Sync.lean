import MentorsMind.Lib.BigEndian
import MentorsMind.Soroban.Host

/-! Cross-chain operations: a two-phase commit whose coordinator counts the messages that relayers
bring from the participating chains. State proofs, finality tiers, the clean-up of old operations
and the events are left out. -/
namespace CrossChain
open Outcome Soroban

def xchainOpTimeoutSecs : ℕ := 86400
def maxParticipatingChains : ℕ := 8

inductive XChainPhase where
  | prepared
  | committing
  | committed
  | rollingBack
  | rolledBack
  | expired
  deriving DecidableEq

structure AtomicXChainOp (Addr : Type) where
  opId : Hash
  chainIds : List ℕ
  preparedCount : ℕ
  committedCount : ℕ
  phase : XChainPhase
  createdAt : ℕ
  expiresAt : ℕ
  initiator : Addr
  expectedStateRoot : Hash
  deriving DecidableEq

structure CrossChainInconsistency where
  opId : Hash
  affectedChainId : ℕ
  expectedRoot : Hash
  observedRoot : Hash
  recoveryInitiated : Bool
  detectedAt : ℕ

structure ChainIsolationRecord where
  chainId : ℕ
  reason : String
  failureCount : ℕ
  isolatedAt : ℕ
  liftEligibleAt : ℕ

inductive XChainSyncError where
  | opNotFound
  | alreadyTerminal
  | notAllPrepared
  | expired
  | chainIsolated
  | invalidStateProof
  | tooManyChains
  | insufficientFinality
  | reorgUnsafe
  | duplicateOp
  deriving DecidableEq

def XChainSyncError.code : XChainSyncError → ℕ
  | .opNotFound => 1
  | .alreadyTerminal => 2
  | .notAllPrepared => 3
  | .expired => 4
  | .chainIsolated => 5
  | .invalidStateProof => 6
  | .tooManyChains => 7
  | .insufficientFinality => 8
  | .reorgUnsafe => 9
  | .duplicateOp => 10

/-- A message that an operation took in, and the chain it is said to come from. -/
inductive Message where
  | acknowledged (chainId : ℕ)
  | confirmed (chainId : ℕ)
  | mismatched (chainId : ℕ)
  deriving DecidableEq

/-- One field for each storage key, and a log that no key stores: the messages that each operation
took in, latest first. -/
structure SyncState (Addr : Type) where
  op : Hash → Option (AtomicXChainOp Addr)
  inconsistency : Hash × ℕ → Option CrossChainInconsistency
  isolation : ℕ → Option ChainIsolationRecord
  received : Hash → List Message

def noOperations {Addr : Type} : SyncState Addr where
  op _ := none
  inconsistency _ := none
  isolation _ := none
  received _ := []

variable {Addr : Type}

section Operation

def checkNotTerminal (op : AtomicXChainOp Addr) : Except XChainSyncError Unit :=
  match op.phase with
  | .committed => .error .alreadyTerminal
  | .rolledBack => .error .alreadyTerminal
  | .expired => .error .alreadyTerminal
  | _ => .ok ()

def checkNotExpired (now : ℕ) (op : AtomicXChainOp Addr) : Except XChainSyncError Unit :=
  require (now ≤ op.expiresAt) .expired

/-- One more acknowledgement, whichever chain it comes from. -/
def AtomicXChainOp.acknowledge (op : AtomicXChainOp Addr) : AtomicXChainOp Addr :=
  let counted := { op with preparedCount := min (op.preparedCount + 1) maxU32 }
  if counted.chainIds.length ≤ counted.preparedCount then { counted with phase := .committing }
  else counted

/-- One more confirmation, whichever chain it comes from. -/
def AtomicXChainOp.confirm (op : AtomicXChainOp Addr) : AtomicXChainOp Addr :=
  let counted := { op with committedCount := min (op.committedCount + 1) maxU32 }
  if counted.chainIds.length ≤ counted.committedCount then { counted with phase := .committed }
  else counted

def AtomicXChainOp.withPhase (op : AtomicXChainOp Addr) (phase : XChainPhase) :
    AtomicXChainOp Addr :=
  { op with phase := phase }

theorem AtomicXChainOp.acknowledge_phase (op : AtomicXChainOp Addr) :
    op.acknowledge.phase =
      if op.chainIds.length ≤ min (op.preparedCount + 1) maxU32 then .committing
      else op.phase := by
  simp only [acknowledge]
  split_ifs <;> rfl

theorem AtomicXChainOp.confirm_phase (op : AtomicXChainOp Addr) :
    op.confirm.phase =
      if op.chainIds.length ≤ min (op.committedCount + 1) maxU32 then .committed
      else op.phase := by
  simp only [confirm]
  split_ifs <;> rfl

@[simp] theorem AtomicXChainOp.acknowledge_chainIds (op : AtomicXChainOp Addr) :
    op.acknowledge.chainIds = op.chainIds := by
  simp only [acknowledge]
  split_ifs <;> rfl

@[simp] theorem AtomicXChainOp.acknowledge_committedCount (op : AtomicXChainOp Addr) :
    op.acknowledge.committedCount = op.committedCount := by
  simp only [acknowledge]
  split_ifs <;> rfl

@[simp] theorem AtomicXChainOp.confirm_chainIds (op : AtomicXChainOp Addr) :
    op.confirm.chainIds = op.chainIds := by
  simp only [confirm]
  split_ifs <;> rfl

@[simp] theorem AtomicXChainOp.confirm_expiresAt (op : AtomicXChainOp Addr) :
    op.confirm.expiresAt = op.expiresAt := by
  simp only [confirm]
  split_ifs <;> rfl

@[simp] theorem AtomicXChainOp.confirm_committedCount (op : AtomicXChainOp Addr) :
    op.confirm.committedCount = min (op.committedCount + 1) maxU32 := by
  simp only [confirm]
  split_ifs <;> rfl

end Operation

section Functions

def getOp (s : SyncState Addr) (opId : Hash) : Except XChainSyncError (AtomicXChainOp Addr) :=
  expect (s.op opId) .opNotFound

/-- What both messages of a chain check first. -/
def getActiveOp (now : ℕ) (s : SyncState Addr) (opId : Hash) :
    Except XChainSyncError (AtomicXChainOp Addr) := do
  let op ← getOp s opId
  checkNotTerminal op
  checkNotExpired now op
  pure op

def SyncState.setOp (s : SyncState Addr) (opId : Hash) (op : AtomicXChainOp Addr) :
    SyncState Addr :=
  { s with op := Function.update s.op opId (some op) }

def SyncState.log (s : SyncState Addr) (opId : Hash) (message : Message) : SyncState Addr :=
  { s with received := Function.update s.received opId (message :: s.received opId) }

/-- The chain ids, the time and the ledger sequence, from which the id of an operation is
hashed. -/
def opPayload (chains : List ℕ) (now sequence : ℕ) : List UInt8 :=
  chains.flatMap (BigEndian.bytes 4) ++ BigEndian.bytes 8 now ++ BigEndian.bytes 4 sequence

def beginAtomicXChainOp (sha256 : List UInt8 → Hash) (now sequence : ℕ) (s : SyncState Addr)
    (initiator : Addr) (participatingChains : List ℕ) (expectedStateRoot : Hash) :
    Except XChainSyncError (SyncState Addr × Hash) := do
  require (participatingChains.length ≤ maxParticipatingChains) .tooManyChains
  require (∀ chainId ∈ participatingChains, (s.isolation chainId).isNone) .chainIsolated
  let opId := sha256 (opPayload participatingChains now sequence)
  require (s.op opId).isNone .duplicateOp
  let op : AtomicXChainOp Addr := {
    opId := opId
    chainIds := participatingChains
    preparedCount := 0
    committedCount := 0
    phase := .prepared
    createdAt := now
    expiresAt := min (now + xchainOpTimeoutSecs) maxU64
    initiator := initiator
    expectedStateRoot := expectedStateRoot }
  pure (s.setOp opId op, opId)

def acknowledgePrepare (now : ℕ) (s : SyncState Addr) (opId : Hash) (chainId : ℕ) :
    Except XChainSyncError (SyncState Addr × XChainPhase) := do
  let op ← getActiveOp now s opId
  pure ((s.setOp opId op.acknowledge).log opId (.acknowledged chainId), op.acknowledge.phase)

def recordInconsistency (now : ℕ) (s : SyncState Addr) (opId : Hash) (affectedChainId : ℕ)
    (expectedRoot observedRoot : Hash) : SyncState Addr :=
  let record : CrossChainInconsistency := {
    opId := opId
    affectedChainId := affectedChainId
    expectedRoot := expectedRoot
    observedRoot := observedRoot
    recoveryInitiated := true
    detectedAt := now }
  { s with inconsistency := Function.update s.inconsistency (opId, affectedChainId) (some record) }

def initiateRollback (s : SyncState Addr) (opId : Hash) :
    Except XChainSyncError (SyncState Addr) := do
  let op ← getOp s opId
  checkNotTerminal op
  pure (s.setOp opId (op.withPhase .rollingBack))

/-- The state is what the function leaves behind, which on a mismatch it also does when it returns
an error. -/
def confirmCommit (now : ℕ) (s : SyncState Addr) (opId : Hash) (chainId : ℕ)
    (chainStateRoot : Hash) : SyncState Addr × Except XChainSyncError XChainPhase :=
  match getActiveOp now s opId with
  | .error e => (s, .error e)
  | .ok op =>
      if chainStateRoot ≠ op.expectedStateRoot then
        let recorded := (recordInconsistency now s opId chainId op.expectedStateRoot
          chainStateRoot).log opId (.mismatched chainId)
        match initiateRollback recorded opId with
        | .error e => (recorded, .error e)
        | .ok rolledBack => (rolledBack, .error .invalidStateProof)
      else ((s.setOp opId op.confirm).log opId (.confirmed chainId), .ok op.confirm.phase)

def confirmRollback (s : SyncState Addr) (opId : Hash) :
    Except XChainSyncError (SyncState Addr) := do
  let op ← getOp s opId
  require (op.phase = .rollingBack) .alreadyTerminal
  pure (s.setOp opId (op.withPhase .rolledBack))

def expireXChainOp (now : ℕ) (s : SyncState Addr) (opId : Hash) :
    Except XChainSyncError (SyncState Addr) := do
  let op ← getOp s opId
  checkNotTerminal op
  require (op.expiresAt ≤ now) .expired
  pure (s.setOp opId (op.withPhase .expired))

def isolateChain (now : ℕ) (s : SyncState Addr) (chainId : ℕ) (reason : String)
    (failureCount isolationDurationSecs : ℕ) : SyncState Addr :=
  let record : ChainIsolationRecord := {
    chainId := chainId
    reason := reason
    failureCount := failureCount
    isolatedAt := now
    liftEligibleAt := min (now + isolationDurationSecs) maxU64 }
  { s with isolation := Function.update s.isolation chainId (some record) }

/-- Nothing happens before the cooling-off period is over. -/
def liftChainIsolation (now : ℕ) (s : SyncState Addr) (chainId : ℕ) : SyncState Addr × Bool :=
  match s.isolation chainId with
  | none => (s, false)
  | some record =>
      if record.liftEligibleAt ≤ now then
        ({ s with isolation := Function.update s.isolation chainId none }, true)
      else (s, false)

end Functions

/-- The functions that write, with their arguments. -/
inductive Call (Addr : Type) where
  | beginAtomicXChainOp (initiator : Addr) (participatingChains : List ℕ)
      (expectedStateRoot : Hash)
  | acknowledgePrepare (opId : Hash) (chainId : ℕ)
  | confirmCommit (opId : Hash) (chainId : ℕ) (chainStateRoot : Hash)
  | initiateRollback (opId : Hash)
  | confirmRollback (opId : Hash)
  | expireXChainOp (opId : Hash)
  | isolateChain (chainId : ℕ) (reason : String) (failureCount isolationDurationSecs : ℕ)
  | liftChainIsolation (chainId : ℕ)

structure Step (Addr : Type) where
  timestamp : ℕ
  sequence : ℕ
  call : Call Addr

/-- What a function that returns an error before it writes leaves behind. -/
def kept {σ β : Type} (s : σ) (after : β → σ) : Except XChainSyncError β → σ
  | .error _ => s
  | .ok b => after b

/-- The state after a call, whatever it returns. -/
def exec (sha256 : List UInt8 → Hash) (step : Step Addr) (s : SyncState Addr) : SyncState Addr :=
  match step.call with
  | .beginAtomicXChainOp initiator participatingChains expectedStateRoot =>
      kept s Prod.fst (beginAtomicXChainOp sha256 step.timestamp step.sequence s initiator
        participatingChains expectedStateRoot)
  | .acknowledgePrepare opId chainId =>
      kept s Prod.fst (acknowledgePrepare step.timestamp s opId chainId)
  | .confirmCommit opId chainId chainStateRoot =>
      (confirmCommit step.timestamp s opId chainId chainStateRoot).1
  | .initiateRollback opId => kept s id (initiateRollback s opId)
  | .confirmRollback opId => kept s id (confirmRollback s opId)
  | .expireXChainOp opId => kept s id (expireXChainOp step.timestamp s opId)
  | .isolateChain chainId reason failureCount isolationDurationSecs =>
      isolateChain step.timestamp s chainId reason failureCount isolationDurationSecs
  | .liftChainIsolation chainId => (liftChainIsolation step.timestamp s chainId).1

def XChainPhase.isTerminal : XChainPhase → Bool
  | .committed => true
  | .rolledBack => true
  | .expired => true
  | _ => false

/-- What the messages of chains need. -/
structure AtomicXChainOp.Active (op : AtomicXChainOp Addr) (now : ℕ) : Prop where
  running : op.phase.isTerminal = false
  inTime : now ≤ op.expiresAt

@[simp] theorem checkNotTerminal_eq_ok {op : AtomicXChainOp Addr} {u : Unit} :
    checkNotTerminal op = .ok u ↔ op.phase.isTerminal = false := by
  unfold checkNotTerminal
  cases op.phase <;> simp [XChainPhase.isTerminal]

@[simp] theorem getOp_eq_ok {s : SyncState Addr} {opId : Hash} {op : AtomicXChainOp Addr} :
    getOp s opId = .ok op ↔ s.op opId = some op := by
  simp [getOp]

theorem getActiveOp_eq_ok {now : ℕ} {s : SyncState Addr} {opId : Hash}
    {op : AtomicXChainOp Addr} :
    getActiveOp now s opId = .ok op ↔ s.op opId = some op ∧ op.Active now := by
  simp only [getActiveOp, checkNotExpired, bind_eq_ok, getOp_eq_ok, checkNotTerminal_eq_ok,
    require_eq_ok, pure_eq_ok]
  constructor
  · rintro ⟨op, hop, -, hrunning, -, htime, rfl⟩
    exact ⟨hop, hrunning, htime⟩
  · rintro ⟨hop, hrunning, htime⟩
    exact ⟨op, hop, (), hrunning, (), htime, rfl⟩

/-- A root that differs leaves a record and a rollback behind, although an error is returned. -/
theorem confirmCommit_mismatch {now : ℕ} {s : SyncState Addr} {opId root : Hash}
    {op : AtomicXChainOp Addr} (hop : s.op opId = some op) (hactive : op.Active now)
    (hne : root ≠ op.expectedStateRoot) (chainId : ℕ) : confirmCommit now s opId chainId root =
      (((recordInconsistency now s opId chainId op.expectedStateRoot root).log opId
        (.mismatched chainId)).setOp opId (op.withPhase .rollingBack),
        .error .invalidStateProof) := by
  have hrollback : initiateRollback ((recordInconsistency now s opId chainId
      op.expectedStateRoot root).log opId (.mismatched chainId)) opId =
      .ok (((recordInconsistency now s opId chainId op.expectedStateRoot root).log opId
        (.mismatched chainId)).setOp opId (op.withPhase .rollingBack)) := by
    simp only [initiateRollback, bind_eq_ok, getOp_eq_ok, checkNotTerminal_eq_ok, pure_eq_ok]
    exact ⟨op, hop, (), hactive.running, rfl⟩
  simp only [confirmCommit, getActiveOp_eq_ok.mpr ⟨hop, hactive⟩, ne_eq, hne, not_false_eq_true,
    if_true, hrollback]

theorem confirmCommit_match {now : ℕ} {s : SyncState Addr} {opId : Hash} {op : AtomicXChainOp Addr}
    (hop : s.op opId = some op) (hactive : op.Active now) (chainId : ℕ) :
    confirmCommit now s opId chainId op.expectedStateRoot =
      ((s.setOp opId op.confirm).log opId (.confirmed chainId), .ok op.confirm.phase) := by
  simp only [confirmCommit, getActiveOp_eq_ok.mpr ⟨hop, hactive⟩, ne_eq, not_true_eq_false,
    if_false]

/-- What a call does to an operation that it finds, and to the log of its messages. -/
inductive Change (step : Step Addr) (opId : Hash) (op : AtomicXChainOp Addr)
    (log : List Message) : AtomicXChainOp Addr → List Message → Prop
  | acknowledged (chainId : ℕ) (call : step.call = .acknowledgePrepare opId chainId)
      (active : op.Active step.timestamp) :
      Change step opId op log op.acknowledge (.acknowledged chainId :: log)
  | confirmed (chainId : ℕ) (call : step.call = .confirmCommit opId chainId op.expectedStateRoot)
      (active : op.Active step.timestamp) :
      Change step opId op log op.confirm (.confirmed chainId :: log)
  | mismatched (chainId : ℕ) (root : Hash) (call : step.call = .confirmCommit opId chainId root)
      (active : op.Active step.timestamp) (differs : root ≠ op.expectedStateRoot) :
      Change step opId op log (op.withPhase .rollingBack) (.mismatched chainId :: log)
  | rollback (call : step.call = .initiateRollback opId) (running : op.phase.isTerminal = false) :
      Change step opId op log (op.withPhase .rollingBack) log
  | rolledBack (call : step.call = .confirmRollback opId) (rolling : op.phase = .rollingBack) :
      Change step opId op log (op.withPhase .rolledBack) log
  | expired (call : step.call = .expireXChainOp opId) (running : op.phase.isTerminal = false)
      (late : op.expiresAt ≤ step.timestamp) :
      Change step opId op log (op.withPhase .expired) log

/-- An operation as it is when it is opened. -/
structure AtomicXChainOp.Opened (op : AtomicXChainOp Addr) : Prop where
  few : op.chainIds.length ≤ maxParticipatingChains
  prepared : op.preparedCount = 0
  committed : op.committedCount = 0
  phase : op.phase = .prepared

/-- What one call does as far as the operation `opId` is concerned. -/
inductive Effect (step : Step Addr) (opId : Hash) (s t : SyncState Addr) : Prop
  | kept (op : t.op opId = s.op opId) (received : t.received opId = s.received opId)
  | opened (op : AtomicXChainOp Addr) (absent : s.op opId = none) (present : t.op opId = some op)
      (fresh : op.Opened) (received : t.received opId = s.received opId)
  | changed (op op' : AtomicXChainOp Addr) (before : s.op opId = some op)
      (after : t.op opId = some op') (change : Change step opId op (s.received opId) op'
        (t.received opId))

section Effects

variable {s : SyncState Addr} {step : Step Addr} {opId target : Hash} {op op' : AtomicXChainOp Addr}

/-- A call that returns an error before it writes does nothing. -/
theorem Effect.of_kept {β : Type} {x : Except XChainSyncError β} {after : β → SyncState Addr}
    (h : ∀ b, x = .ok b → Effect step opId s (after b)) :
    Effect step opId s (CrossChain.kept s after x) := by
  cases x with
  | error e => exact .kept rfl rfl
  | ok b => exact h b rfl

/-- A write of the operation `target`, which concerns `opId` if the two are the same. -/
theorem Effect.of_update {t : SyncState Addr} {log : List Message} (hop : s.op target = some op)
    (h : Change step target op (s.received target) op' log)
    (hops : t.op = Function.update s.op target (some op'))
    (hlog : t.received = Function.update s.received target log) : Effect step opId s t := by
  by_cases hid : opId = target
  · subst hid
    have hafter : t.op opId = some op' := by rw [hops, Function.update_self]
    have hreceived : t.received opId = log := by rw [hlog, Function.update_self]
    refine .changed op op' hop hafter ?_
    rw [hreceived]
    exact h
  · apply Effect.kept
    · rw [hops, Function.update_of_ne hid]
    · rw [hlog, Function.update_of_ne hid]

theorem Effect.of_setOp (hop : s.op target = some op)
    (h : Change step target op (s.received target) op' (s.received target)) :
    Effect step opId s (s.setOp target op') :=
  Effect.of_update hop h rfl (Function.update_eq_self _ _).symm

variable {result : SyncState Addr}

theorem beginAtomicXChainOp_effect {sha256 : List UInt8 → Hash} {initiator : Addr} {chains : List ℕ}
    {root target : Hash} (h : beginAtomicXChainOp sha256 step.timestamp step.sequence s initiator
      chains root = .ok (result, target)) : Effect step opId s result := by
  simp only [beginAtomicXChainOp, bind_eq_ok, require_eq_ok, pure_eq_ok, Prod.mk.injEq] at h
  obtain ⟨-, hfew, -, -, -, habsent, rfl, rfl⟩ := h
  by_cases hid : opId = sha256 (opPayload chains step.timestamp step.sequence)
  · subst hid
    exact .opened _ (Option.isNone_iff_eq_none.mp habsent) (Function.update_self _ _ _)
      ⟨hfew, rfl, rfl, rfl⟩ rfl
  · exact .kept (Function.update_of_ne hid _ _) rfl

theorem acknowledgePrepare_effect {chainId : ℕ} {phase : XChainPhase}
    (hcall : step.call = .acknowledgePrepare target chainId)
    (h : acknowledgePrepare step.timestamp s target chainId = .ok (result, phase)) :
    Effect step opId s result := by
  simp only [acknowledgePrepare, bind_eq_ok, getActiveOp_eq_ok, pure_eq_ok, Prod.mk.injEq] at h
  obtain ⟨op, ⟨hop, hactive⟩, rfl, -⟩ := h
  exact Effect.of_update hop (.acknowledged chainId hcall hactive) rfl rfl

theorem confirmCommit_effect {chainId : ℕ} {root : Hash}
    (hcall : step.call = .confirmCommit target chainId root) :
    Effect step opId s (confirmCommit step.timestamp s target chainId root).1 := by
  cases h : getActiveOp step.timestamp s target with
  | error e =>
    rw [confirmCommit, h]
    exact .kept rfl rfl
  | ok op =>
    obtain ⟨hop, hactive⟩ := getActiveOp_eq_ok.mp h
    by_cases hroot : root = op.expectedStateRoot
    · rw [hroot] at hcall ⊢
      rw [confirmCommit_match hop hactive chainId]
      exact Effect.of_update hop (.confirmed chainId hcall hactive) rfl rfl
    · rw [confirmCommit_mismatch hop hactive hroot chainId]
      exact Effect.of_update hop (.mismatched chainId root hcall hactive hroot) rfl rfl

theorem initiateRollback_effect (hcall : step.call = .initiateRollback target)
    (h : initiateRollback s target = .ok result) : Effect step opId s result := by
  simp only [initiateRollback, bind_eq_ok, getOp_eq_ok, checkNotTerminal_eq_ok, pure_eq_ok] at h
  obtain ⟨op, hop, -, hrunning, rfl⟩ := h
  exact Effect.of_setOp hop (.rollback hcall hrunning)

theorem confirmRollback_effect (hcall : step.call = .confirmRollback target)
    (h : confirmRollback s target = .ok result) : Effect step opId s result := by
  simp only [confirmRollback, bind_eq_ok, getOp_eq_ok, require_eq_ok, pure_eq_ok] at h
  obtain ⟨op, hop, -, hrolling, rfl⟩ := h
  exact Effect.of_setOp hop (.rolledBack hcall hrolling)

theorem expireXChainOp_effect (hcall : step.call = .expireXChainOp target)
    (h : expireXChainOp step.timestamp s target = .ok result) : Effect step opId s result := by
  simp only [expireXChainOp, bind_eq_ok, getOp_eq_ok, checkNotTerminal_eq_ok, require_eq_ok,
    pure_eq_ok] at h
  obtain ⟨op, hop, -, hrunning, -, hlate, rfl⟩ := h
  exact Effect.of_setOp hop (.expired hcall hrunning hlate)

theorem liftChainIsolation_effect (now chainId : ℕ) :
    Effect step opId s (liftChainIsolation now s chainId).1 := by
  unfold liftChainIsolation
  cases s.isolation chainId with
  | none => exact .kept rfl rfl
  | some record =>
    dsimp only
    split_ifs
    · exact .kept rfl rfl
    · exact .kept rfl rfl

theorem exec_effect (sha256 : List UInt8 → Hash) (step : Step Addr) (opId : Hash)
    (s : SyncState Addr) : Effect step opId s (exec sha256 step s) := by
  unfold exec
  cases hcall : step.call with
  | beginAtomicXChainOp initiator chains root =>
    exact Effect.of_kept fun _ h => beginAtomicXChainOp_effect h
  | acknowledgePrepare target chainId =>
    exact Effect.of_kept fun _ h => acknowledgePrepare_effect hcall h
  | confirmCommit target chainId root => exact confirmCommit_effect hcall
  | initiateRollback target => exact Effect.of_kept fun _ h => initiateRollback_effect hcall h
  | confirmRollback target => exact Effect.of_kept fun _ h => confirmRollback_effect hcall h
  | expireXChainOp target => exact Effect.of_kept fun _ h => expireXChainOp_effect hcall h
  | isolateChain chainId reason failureCount isolationDurationSecs => exact .kept rfl rfl
  | liftChainIsolation chainId => exact liftChainIsolation_effect step.timestamp chainId

end Effects

section Runs

variable (Addr) in
/-- No call reverts, as the functions return their errors as values. -/
def machine (sha256 : List UInt8 → Hash) : Machine (SyncState Addr) (Step Addr) XChainSyncError :=
  ⟨fun step s => .ok (exec sha256 step s)⟩

/-- The state after these calls, from the time when there was no operation. -/
def reached (sha256 : List UInt8 → Hash) (steps : List (Step Addr)) : SyncState Addr :=
  (machine Addr sha256).run noOperations steps

theorem reached_snoc (sha256 : List UInt8 → Hash) (pre : List (Step Addr)) (step : Step Addr) :
    reached sha256 (pre ++ [step]) = exec sha256 step (reached sha256 pre) :=
  Machine.run_snoc _ _ _ _

/-- What holds at first and is kept by every call holds in every state reached. -/
theorem reached_induction {sha256 : List UInt8 → Hash} {P : SyncState Addr → Prop}
    (h0 : P noOperations) (hstep : ∀ step s, P s → P (exec sha256 step s))
    (steps : List (Step Addr)) : P (reached sha256 steps) := by
  refine Machine.run_invariant (M := machine Addr sha256) h0 ?_ steps
  intro step s t hs hx
  obtain rfl := Except.ok.inj hx
  exact hstep step s hs

end Runs

end CrossChain
