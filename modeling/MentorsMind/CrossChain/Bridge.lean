import MentorsMind.CrossChain.Atomicity

/-! The bridge receiver, where trusted relayers deliver the messages of the chains. An error of the
functions underneath is turned into a panic, which reverts what they wrote. The assets and escrows
that the bridge funds, its supported chains and the second layer are left out. -/
namespace CrossChain.Bridge
open Outcome Soroban

/-- One field for each storage key; an absent flag reads as false. -/
structure BridgeState (Addr : Type) where
  admin : Option Addr
  trustedRelayer : Addr → Bool
  sync : SyncState Addr

def deployed {Addr : Type} : BridgeState Addr where
  admin := none
  trustedRelayer _ := false
  sync := noOperations

variable {Addr : Type} {self : Addr}

/-- `unwrap_or_else` with a panic that prints the code. -/
def unwrap {α : Type} (message : String) : Except XChainSyncError α → Result α
  | .ok a => .ok a
  | .error e => .error (.panic (message ++ toString e.code))

@[simp] theorem unwrap_eq_ok {α : Type} {message : String} {x : Except XChainSyncError α} {a : α} :
    unwrap message x = .ok a ↔ x = .ok a := by
  cases x with
  | ok b => simp [unwrap]
  | error e => simp [unwrap]

/-- The entry point `init`, which may be called again. -/
def initBridge (env : Env Addr self) (s : BridgeState Addr) (admin : Addr) :
    Result (BridgeState Addr) := do
  requireAuth env admin
  pure { s with admin := some admin }

def requireTrusted (env : Env Addr self) (s : BridgeState Addr) (relayer : Addr) :
    Result Unit := do
  requireAuth env relayer
  require (s.trustedRelayer relayer = true) (.panic "Untrusted relayer")

def beginBridgeAtomicOp (sha256 : List UInt8 → Hash) (env : Env Addr self)
    (s : BridgeState Addr) (relayer : Addr) (sourceChainId destChainId : ℕ)
    (expectedStateRoot : Hash) : Result (BridgeState Addr) := do
  requireTrusted env s relayer
  require (s.sync.isolation sourceChainId).isNone (.panic "Source chain is currently isolated")
  require (s.sync.isolation destChainId).isNone (.panic "Destination chain is currently isolated")
  let opened ← unwrap "Failed to begin atomic op: " (beginAtomicXChainOp sha256 env.timestamp
    env.sequence s.sync relayer [sourceChainId, destChainId] expectedStateRoot)
  pure { s with sync := opened.1 }

def acknowledgeBridgePrepare (env : Env Addr self) (s : BridgeState Addr) (relayer : Addr)
    (opId : Hash) (chainId : ℕ) : Result (BridgeState Addr) := do
  requireTrusted env s relayer
  let acknowledged ← unwrap "Prepare ack failed: "
    (acknowledgePrepare env.timestamp s.sync opId chainId)
  pure { s with sync := acknowledged.1 }

def confirmBridgeCommit (env : Env Addr self) (s : BridgeState Addr) (relayer : Addr)
    (opId : Hash) (chainId : ℕ) (chainStateRoot : Hash) : Result (BridgeState Addr) := do
  requireTrusted env s relayer
  let confirmed := confirmCommit env.timestamp s.sync opId chainId chainStateRoot
  let _phase ← unwrap "Commit failed: " confirmed.2
  pure { s with sync := confirmed.1 }

variable [DecidableEq Addr]

def requireAdmin (env : Env Addr self) (s : BridgeState Addr) (admin : Addr) : Result Unit := do
  let stored ← expect s.admin (.panic "Bridge not initialized")
  require (stored = admin) (.panic "Unauthorized: admin only")
  requireAuth env admin

/-- `add_trusted_relayer` and `remove_trusted_relayer`. -/
def setTrustedRelayer (trusted : Bool) (env : Env Addr self) (s : BridgeState Addr)
    (admin relayer : Addr) : Result (BridgeState Addr) := do
  requireAdmin env s admin
  pure { s with trustedRelayer := Function.update s.trustedRelayer relayer trusted }

def addTrustedRelayer (env : Env Addr self) (s : BridgeState Addr) (admin relayer : Addr) :
    Result (BridgeState Addr) :=
  setTrustedRelayer true env s admin relayer

def removeTrustedRelayer (env : Env Addr self) (s : BridgeState Addr) (admin relayer : Addr) :
    Result (BridgeState Addr) :=
  setTrustedRelayer false env s admin relayer

def rollbackBridgeOp (env : Env Addr self) (s : BridgeState Addr) (admin : Addr) (opId : Hash) :
    Result (BridgeState Addr) := do
  requireAdmin env s admin
  let sync ← unwrap "Rollback failed: " (initiateRollback s.sync opId)
  pure { s with sync := sync }

def confirmBridgeRollback (env : Env Addr self) (s : BridgeState Addr) (admin : Addr)
    (opId : Hash) : Result (BridgeState Addr) := do
  requireAdmin env s admin
  let sync ← unwrap "Confirm rollback failed: " (confirmRollback s.sync opId)
  pure { s with sync := sync }

def emergencyIsolateChain (env : Env Addr self) (s : BridgeState Addr) (admin : Addr)
    (chainId : ℕ) (reason : String) : Result (BridgeState Addr) := do
  requireAdmin env s admin
  pure { s with sync := isolateChain env.timestamp s.sync chainId reason 1 (24 * 60 * 60) }

def liftBridgeChainIsolation (env : Env Addr self) (s : BridgeState Addr) (admin : Addr)
    (chainId : ℕ) : Result (BridgeState Addr) := do
  requireAdmin env s admin
  pure { s with sync := (liftChainIsolation env.timestamp s.sync chainId).1 }

inductive Call (Addr : Type) where
  | initBridge (admin : Addr)
  | addTrustedRelayer (admin relayer : Addr)
  | removeTrustedRelayer (admin relayer : Addr)
  | beginBridgeAtomicOp (relayer : Addr) (sourceChainId destChainId : ℕ) (expectedStateRoot : Hash)
  | acknowledgeBridgePrepare (relayer : Addr) (opId : Hash) (chainId : ℕ)
  | confirmBridgeCommit (relayer : Addr) (opId : Hash) (chainId : ℕ) (chainStateRoot : Hash)
  | rollbackBridgeOp (admin : Addr) (opId : Hash)
  | confirmBridgeRollback (admin : Addr) (opId : Hash)
  | emergencyIsolateChain (admin : Addr) (chainId : ℕ) (reason : String)
  | liftBridgeChainIsolation (admin : Addr) (chainId : ℕ)

abbrev Step (Addr : Type) (home : Addr) := Env Addr home × Call Addr

def exec (sha256 : List UInt8 → Hash) (step : Step Addr self) (s : BridgeState Addr) :
    Result (BridgeState Addr) :=
  match step.2 with
  | .initBridge admin => initBridge step.1 s admin
  | .addTrustedRelayer admin relayer => addTrustedRelayer step.1 s admin relayer
  | .removeTrustedRelayer admin relayer => removeTrustedRelayer step.1 s admin relayer
  | .beginBridgeAtomicOp relayer sourceChainId destChainId expectedStateRoot =>
      beginBridgeAtomicOp sha256 step.1 s relayer sourceChainId destChainId expectedStateRoot
  | .acknowledgeBridgePrepare relayer opId chainId =>
      acknowledgeBridgePrepare step.1 s relayer opId chainId
  | .confirmBridgeCommit relayer opId chainId chainStateRoot =>
      confirmBridgeCommit step.1 s relayer opId chainId chainStateRoot
  | .rollbackBridgeOp admin opId => rollbackBridgeOp step.1 s admin opId
  | .confirmBridgeRollback admin opId => confirmBridgeRollback step.1 s admin opId
  | .emergencyIsolateChain admin chainId reason =>
      emergencyIsolateChain step.1 s admin chainId reason
  | .liftBridgeChainIsolation admin chainId => liftBridgeChainIsolation step.1 s admin chainId

def machine (sha256 : List UInt8 → Hash) (home : Addr) :
    Machine (BridgeState Addr) (Step Addr home) Trap := ⟨exec sha256⟩

variable {home : Addr} {sha256 : List UInt8 → Hash} {s t : BridgeState Addr}

section Records

/-- The operation `opId` is in a phase that satisfies `p`. -/
def InPhase (s : BridgeState Addr) (opId : Hash) (p : XChainPhase → Prop) : Prop :=
  ∃ op, s.sync.op opId = some op ∧ p op.phase

def Call.isConfirm : Call Addr → Bool
  | .confirmBridgeCommit _ _ _ _ => true
  | _ => false

/-- What a call that reports another root is meant to bring about, where `t` is the state that it
leaves, reverted if it panics. -/
structure Aborted (sha256 : List UInt8 → Hash) (home : Addr) (t : BridgeState Addr) (opId : Hash)
    (chainId : ℕ) (chainStateRoot : Hash) : Prop where
  rollingBack : InPhase t opId (· = .rollingBack)
  recorded : ∃ record, t.sync.inconsistency (opId, chainId) = some record ∧
    record.observedRoot = chainStateRoot
  forGood : ∀ later : List (Step Addr home), (∀ step ∈ later, step.2.isConfirm = true) →
    ¬ InPhase ((machine sha256 home).run t later) opId (· = .committed)

/-- A trusted relayer reports a root that differs from the expected one, while the operation is
running and in time. -/
structure Mismatch (s : BridgeState Addr) (env : Env Addr home) (relayer : Addr) (opId : Hash)
    (chainId : ℕ) (chainStateRoot : Hash) (op : AtomicXChainOp Addr) : Prop where
  signed : env.auth relayer = true
  trusted : s.trustedRelayer relayer = true
  found : s.sync.op opId = some op
  active : op.Active env.timestamp
  listed : chainId ∈ op.chainIds
  differs : chainStateRoot ≠ op.expectedStateRoot

end Records

section Refinement

section Frames

variable {sync sync' : SyncState Addr} {now sequence chainId : ℕ} {opId root : Hash}
  {phase : XChainPhase}

omit [DecidableEq Addr] in
theorem beginAtomicXChainOp_inconsistency {initiator : Addr} {chains : List ℕ}
    (h : beginAtomicXChainOp sha256 now sequence sync initiator chains root = .ok (sync', opId)) :
    sync'.inconsistency = sync.inconsistency := by
  simp only [beginAtomicXChainOp, bind_eq_ok, pure_eq_ok, Prod.mk.injEq] at h
  obtain ⟨-, -, -, -, -, -, rfl, -⟩ := h
  rfl

omit [DecidableEq Addr] in
theorem acknowledgePrepare_inconsistency
    (h : acknowledgePrepare now sync opId chainId = .ok (sync', phase)) :
    sync'.inconsistency = sync.inconsistency := by
  simp only [acknowledgePrepare, bind_eq_ok, pure_eq_ok, Prod.mk.injEq] at h
  obtain ⟨op, -, rfl, -⟩ := h
  rfl

omit [DecidableEq Addr] in
/-- Only the call that fails records something. -/
theorem confirmCommit_inconsistency (h : (confirmCommit now sync opId chainId root).2 = .ok phase) :
    (confirmCommit now sync opId chainId root).1.inconsistency = sync.inconsistency := by
  cases hop : getActiveOp now sync opId with
  | error e =>
    rw [confirmCommit, hop] at h
    cases h
  | ok op =>
    obtain ⟨hfound, hactive⟩ := getActiveOp_eq_ok.mp hop
    by_cases hroot : root = op.expectedStateRoot
    · rw [hroot, confirmCommit_match hfound hactive chainId]
      rfl
    · rw [confirmCommit_mismatch hfound hactive hroot chainId] at h
      cases h

omit [DecidableEq Addr] in
theorem initiateRollback_inconsistency (h : initiateRollback sync opId = .ok sync') :
    sync'.inconsistency = sync.inconsistency := by
  simp only [initiateRollback, bind_eq_ok, pure_eq_ok] at h
  obtain ⟨op, -, -, -, rfl⟩ := h
  rfl

omit [DecidableEq Addr] in
theorem confirmRollback_inconsistency (h : confirmRollback sync opId = .ok sync') :
    sync'.inconsistency = sync.inconsistency := by
  simp only [confirmRollback, bind_eq_ok, pure_eq_ok] at h
  obtain ⟨op, -, -, -, rfl⟩ := h
  rfl

omit [DecidableEq Addr] in
theorem liftChainIsolation_inconsistency (now : ℕ) (sync : SyncState Addr) (chainId : ℕ) :
    (liftChainIsolation now sync chainId).1.inconsistency = sync.inconsistency := by
  unfold liftChainIsolation
  cases sync.isolation chainId with
  | none => rfl
  | some record =>
    dsimp only
    split_ifs <;> rfl

end Frames

/-- What a call of the bridge does underneath: nothing, or one step that records no
inconsistency. -/
inductive Moves (sha256 : List UInt8 → Hash) (sync sync' : SyncState Addr) : Prop
  | none (same : sync' = sync)
  | step (sub : CrossChain.Step Addr) (taken : sync' = CrossChain.exec sha256 sub sync)
      (records : sync'.inconsistency = sync.inconsistency)

theorem exec_moves {step : Step Addr home} (h : exec sha256 step s = .ok t) :
    Moves sha256 s.sync t.sync := by
  obtain ⟨env, call⟩ := step
  cases call with
  | initBridge admin =>
    simp only [exec, initBridge, bind_eq_ok, pure_eq_ok] at h
    obtain ⟨-, -, rfl⟩ := h
    exact .none rfl
  | addTrustedRelayer admin relayer =>
    simp only [exec, addTrustedRelayer, setTrustedRelayer, bind_eq_ok, pure_eq_ok] at h
    obtain ⟨-, -, rfl⟩ := h
    exact .none rfl
  | removeTrustedRelayer admin relayer =>
    simp only [exec, removeTrustedRelayer, setTrustedRelayer, bind_eq_ok, pure_eq_ok] at h
    obtain ⟨-, -, rfl⟩ := h
    exact .none rfl
  | beginBridgeAtomicOp relayer sourceChainId destChainId root =>
    simp only [exec, beginBridgeAtomicOp, bind_eq_ok, unwrap_eq_ok, pure_eq_ok] at h
    obtain ⟨-, -, -, -, -, -, opened, hopened, rfl⟩ := h
    refine .step ⟨env.timestamp, env.sequence,
      .beginAtomicXChainOp relayer [sourceChainId, destChainId] root⟩ ?_
      (beginAtomicXChainOp_inconsistency hopened)
    simp only [CrossChain.exec, hopened, kept]
  | acknowledgeBridgePrepare relayer opId chainId =>
    simp only [exec, acknowledgeBridgePrepare, bind_eq_ok, unwrap_eq_ok, pure_eq_ok] at h
    obtain ⟨-, -, acknowledged, hacknowledged, rfl⟩ := h
    refine .step ⟨env.timestamp, env.sequence, .acknowledgePrepare opId chainId⟩ ?_
      (acknowledgePrepare_inconsistency hacknowledged)
    simp only [CrossChain.exec, hacknowledged, kept]
  | confirmBridgeCommit relayer opId chainId root =>
    simp only [exec, confirmBridgeCommit, bind_eq_ok, unwrap_eq_ok, pure_eq_ok] at h
    obtain ⟨-, -, phase, hphase, rfl⟩ := h
    exact .step ⟨env.timestamp, env.sequence, .confirmCommit opId chainId root⟩ rfl
      (confirmCommit_inconsistency hphase)
  | rollbackBridgeOp admin opId =>
    simp only [exec, rollbackBridgeOp, bind_eq_ok, unwrap_eq_ok, pure_eq_ok] at h
    obtain ⟨-, -, sync, hsync, rfl⟩ := h
    refine .step ⟨env.timestamp, env.sequence, .initiateRollback opId⟩ ?_
      (initiateRollback_inconsistency hsync)
    simp only [CrossChain.exec, hsync, kept, id]
  | confirmBridgeRollback admin opId =>
    simp only [exec, confirmBridgeRollback, bind_eq_ok, unwrap_eq_ok, pure_eq_ok] at h
    obtain ⟨-, -, sync, hsync, rfl⟩ := h
    refine .step ⟨env.timestamp, env.sequence, .confirmRollback opId⟩ ?_
      (confirmRollback_inconsistency hsync)
    simp only [CrossChain.exec, hsync, kept, id]
  | emergencyIsolateChain admin chainId reason =>
    simp only [exec, emergencyIsolateChain, bind_eq_ok, pure_eq_ok] at h
    obtain ⟨-, -, rfl⟩ := h
    exact .step ⟨env.timestamp, env.sequence, .isolateChain chainId reason 1 (24 * 60 * 60)⟩ rfl rfl
  | liftBridgeChainIsolation admin chainId =>
    simp only [exec, liftBridgeChainIsolation, bind_eq_ok, pure_eq_ok] at h
    obtain ⟨-, -, rfl⟩ := h
    exact .step ⟨env.timestamp, env.sequence, .liftChainIsolation chainId⟩ rfl
      (liftChainIsolation_inconsistency env.timestamp s.sync chainId)

/-- No inconsistency is ever on record. -/
theorem reached_inconsistency (steps : List (Step Addr home)) :
    ((machine sha256 home).run deployed steps).sync.inconsistency = fun _ => none := by
  refine Machine.run_invariant (M := machine sha256 home)
    (P := fun s => s.sync.inconsistency = fun _ => none) rfl ?_ steps
  intro step s t hs hx
  rcases exec_moves hx with hsame | ⟨sub, -, hrecords⟩
  · rw [hsame]
    exact hs
  · exact hrecords.trans hs

/-- What holds of every run of the functions underneath holds of the bridge. -/
theorem sync_reached (sha256 : List UInt8 → Hash) (steps : List (Step Addr home)) :
    ∃ subs : List (CrossChain.Step Addr),
    ((machine sha256 home).run deployed steps).sync = reached sha256 subs := by
  refine Machine.run_invariant (M := machine sha256 home)
    (P := fun s => ∃ subs, s.sync = reached sha256 subs) ⟨[], rfl⟩ ?_ steps
  rintro step s t ⟨subs, hs⟩ hx
  rcases exec_moves hx with hsame | ⟨sub, hsub, -⟩
  · exact ⟨subs, hsame.trans hs⟩
  · refine ⟨subs ++ [sub], ?_⟩
    rw [reached_snoc, hsub, hs]

end Refinement

section Mismatch

variable {env : Env Addr home} {relayer : Addr} {opId chainStateRoot : Hash} {chainId : ℕ}
  {op : AtomicXChainOp Addr}

omit [DecidableEq Addr] in
theorem requireTrusted_eq_ok (hsigned : env.auth relayer = true)
    (htrusted : s.trustedRelayer relayer = true) : requireTrusted env s relayer = .ok () := by
  simp only [requireTrusted, bind_eq_ok, requireAuth_eq_ok, require_eq_ok]
  exact ⟨(), hsigned, htrusted⟩

/-- The call panics, which reverts the rollback and the record. -/
theorem Mismatch.reverts (sha256 : List UInt8 → Hash)
    (h : Mismatch s env relayer opId chainId chainStateRoot op) :
    (machine sha256 home).apply s
      (env, .confirmBridgeCommit relayer opId chainId chainStateRoot) = s := by
  apply Machine.apply_error (e := .panic ("Commit failed: " ++ toString 6))
  have hconfirm := confirmCommit_mismatch h.found h.active h.differs chainId
  change confirmBridgeCommit env s relayer opId chainId chainStateRoot = _
  simp only [confirmBridgeCommit, requireTrusted_eq_ok h.signed h.trusted, ok_bind, hconfirm, unwrap]
  rfl

/-- A confirmation that a trusted relayer delivers with the expected root. -/
theorem exec_confirmBridgeCommit (sha256 : List UInt8 → Hash) (hsigned : env.auth relayer = true)
    (htrusted : s.trustedRelayer relayer = true) (hop : s.sync.op opId = some op)
    (hactive : op.Active env.timestamp) (chainId : ℕ) :
    ∃ t, (machine sha256 home).exec
        (env, .confirmBridgeCommit relayer opId chainId op.expectedStateRoot) s = .ok t ∧
      t.trustedRelayer = s.trustedRelayer ∧ t.sync.op opId = some op.confirm := by
  have hconfirm := confirmCommit_match hop hactive chainId
  refine ⟨{ s with sync := (s.sync.setOp opId op.confirm).log opId (.confirmed chainId) },
    ?_, rfl, Function.update_self _ _ _⟩
  change confirmBridgeCommit env s relayer opId chainId op.expectedStateRoot = _
  simp only [confirmBridgeCommit, requireTrusted_eq_ok hsigned htrusted, ok_bind, hconfirm, unwrap]
  rfl

/-- The relayer can still have the operation committed. -/
theorem commits_later (hsigned : env.auth relayer = true) (chainId : ℕ) :
    ∀ (k : ℕ) (s : BridgeState Addr) (op : AtomicXChainOp Addr),
      s.trustedRelayer relayer = true → s.sync.op opId = some op → op.Active env.timestamp →
      op.chainIds.length ≤ maxParticipatingChains →
      op.chainIds.length ≤ op.committedCount + k + 1 →
      ∃ later : List (Step Addr home), (∀ step ∈ later, step.2.isConfirm = true) ∧
        InPhase ((machine sha256 home).run s later) opId (· = .committed) := by
  intro k
  induction k with
  | zero =>
    intro s op htrusted hop hactive hfew hmissing
    obtain ⟨t, hx, -, hconfirmed⟩ :=
      exec_confirmBridgeCommit sha256 hsigned htrusted hop hactive chainId
    refine ⟨[(env, .confirmBridgeCommit relayer opId chainId op.expectedStateRoot)], by simp
      [Call.isConfirm], op.confirm, ?_, ?_⟩
    · rw [Machine.run_cons, Machine.apply_ok hx]
      exact hconfirmed
    · rw [AtomicXChainOp.confirm_phase, if_pos]
      unfold maxParticipatingChains at hfew
      unfold maxU32
      omega
  | succ k ih =>
    intro s op htrusted hop hactive hfew hmissing
    obtain ⟨t, hx, hrelayers, hconfirmed⟩ :=
      exec_confirmBridgeCommit sha256 hsigned htrusted hop hactive chainId
    have hphase := op.confirm_phase
    split_ifs at hphase with hlast
    · refine ⟨[(env, .confirmBridgeCommit relayer opId chainId op.expectedStateRoot)], by simp
        [Call.isConfirm], op.confirm, ?_, hphase⟩
      rw [Machine.run_cons, Machine.apply_ok hx]
      exact hconfirmed
    · obtain ⟨later, hall, hdone⟩ := ih t op.confirm (by rw [hrelayers]; exact htrusted) hconfirmed
        ⟨by rw [hphase]; exact hactive.running,
          by rw [op.confirm_expiresAt]; exact hactive.inTime⟩
        (by rw [op.confirm_chainIds]; exact hfew) (by
          rw [op.confirm_chainIds, op.confirm_committedCount]
          unfold maxParticipatingChains at hfew
          unfold maxU32 at hlast ⊢
          omega)
      refine ⟨(env, .confirmBridgeCommit relayer opId chainId op.expectedStateRoot) :: later, ?_, ?_⟩
      · intro step hstep
        rcases List.mem_cons.mp hstep with rfl | hrest
        · rfl
        · exact hall step hrest
      · rw [Machine.run_cons, Machine.apply_ok hx]
        exact hdone

/-- Whatever root is reported and whatever came before, a mismatch aborts nothing. -/
theorem mismatch_never_aborts (sha256 : List UInt8 → Hash) (steps : List (Step Addr home))
    (env : Env Addr home) (relayer : Addr) (opId : Hash) (chainId : ℕ) (chainStateRoot : Hash)
    (op : AtomicXChainOp Addr)
    (h : Mismatch ((machine sha256 home).run deployed steps) env relayer opId chainId
      chainStateRoot op) :
    let t := (machine sha256 home).run deployed
      (steps ++ [(env, .confirmBridgeCommit relayer opId chainId chainStateRoot)])
    ¬ Aborted sha256 home t opId chainId chainStateRoot ∧
      ∃ later : List (Step Addr home), (∀ step ∈ later, step.2.isConfirm = true) ∧
        InPhase ((machine sha256 home).run t later) opId (· = .committed) := by
  intro t
  have ht : t = (machine sha256 home).run deployed steps := by
    rw [← h.reverts sha256, ← Machine.run_snoc]
  constructor
  · rintro ⟨-, ⟨record, hrecord, -⟩, -⟩
    rw [ht, reached_inconsistency] at hrecord
    cases hrecord
  · obtain ⟨subs, hsubs⟩ := sync_reached sha256 steps
    have hfound := h.found
    rw [hsubs] at hfound
    have hfew := ((reached_bookkept sha256 subs opId).counted op hfound).few
    rw [ht]
    exact commits_later h.signed chainId op.chainIds.length _ op h.trusted h.found h.active hfew
      (by omega)

end Mismatch

section Forgotten

/-- Account 1 is admin and account 5 its relayer, who opens an operation over chains 2 and 1 and
acknowledges for both. -/
def acknowledgedByBoth : List (Step ℕ 0) :=
  [(signedByAll 1000, .initBridge 1), (signedByAll 1000, .addTrustedRelayer 1 5),
    (signedByAll 1000, .beginBridgeAtomicOp 5 2 1 7),
    (signedByAll 1000, .acknowledgeBridgePrepare 5 exampleDigest 2),
    (signedByAll 1000, .acknowledgeBridgePrepare 5 exampleDigest 1)]

/-- The operation of `acknowledgedByBoth`. -/
def acknowledgedOp : AtomicXChainOp ℕ where
  opId := exampleDigest
  chainIds := [2, 1]
  preparedCount := 2
  committedCount := 0
  phase := .committing
  createdAt := 1000
  expiresAt := 87400
  initiator := 5
  expectedStateRoot := 7

theorem acknowledgedByBoth_mismatch :
    Mismatch ((machine (fun _ => exampleDigest) 0).run deployed acknowledgedByBoth)
      (signedByAll 1001) 5 exampleDigest 2 8 acknowledgedOp where
  signed := rfl
  trusted := by decide
  found := by decide +kernel
  active := ⟨by decide, by decide⟩
  listed := by decide
  differs := by decide

/-- Nothing of the mismatch is left. -/
theorem mismatch_forgotten :
    Mismatch ((machine (fun _ => exampleDigest) 0).run deployed acknowledgedByBoth)
      (signedByAll 1001) 5 exampleDigest 2 8 acknowledgedOp ∧
    ¬ Aborted (fun _ => exampleDigest) 0 ((machine (fun _ => exampleDigest) 0).run deployed
      (acknowledgedByBoth ++ [(signedByAll 1001, .confirmBridgeCommit 5 exampleDigest 2 8)]))
      exampleDigest 2 8 :=
  ⟨acknowledgedByBoth_mismatch, (mismatch_never_aborts (fun _ => exampleDigest) acknowledgedByBoth
    (signedByAll 1001) 5 exampleDigest 2 8 acknowledgedOp acknowledgedByBoth_mismatch).1⟩

/-- A root that chain 2 never had is reported, and the operation goes on committing. -/
theorem mismatch_without_abort :
    ¬ ∀ (sha256 : List UInt8 → Hash) (steps : List (Step ℕ 0)) (env : Env ℕ 0) (relayer : ℕ)
      (opId : Hash) (chainId : ℕ) (chainStateRoot : Hash) (op : AtomicXChainOp ℕ),
      Mismatch ((machine sha256 0).run deployed steps) env relayer opId chainId chainStateRoot op →
      Aborted sha256 0 ((machine sha256 0).run deployed
        (steps ++ [(env, .confirmBridgeCommit relayer opId chainId chainStateRoot)])) opId chainId
        chainStateRoot := by
  intro h
  have hback := (h (fun _ => exampleDigest) acknowledgedByBoth (signedByAll 1001) 5 exampleDigest 2
    8 acknowledgedOp acknowledgedByBoth_mismatch).rollingBack
  rw [Machine.run_snoc, acknowledgedByBoth_mismatch.reverts (fun _ => exampleDigest)] at hback
  obtain ⟨op, hop, hphase⟩ := hback
  rw [acknowledgedByBoth_mismatch.found, Option.some.injEq] at hop
  subst hop
  cases hphase

end Forgotten

end CrossChain.Bridge
