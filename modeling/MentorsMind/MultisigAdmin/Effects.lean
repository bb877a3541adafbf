import MentorsMind.MultisigAdmin.Contract

/-! What a successful call of the multisig does, said once. -/
namespace MultisigAdmin
open Outcome Soroban Shared

variable {Addr Val : Type} {home : Addr}

@[simp] theorem setProposal_proposal (s : State Addr Val) (id : ℕ)
    (p : ProposalRecord Addr Val) :
    (s.setProposal id p).proposal = Function.update s.proposal id (some p) := rfl

/-- The record that `propose_action` stores. -/
def newProposal (s : State Addr Val) (now : ℕ) (proposer : Addr) (action : Action Addr Val) :
    ProposalRecord Addr Val :=
  ⟨s.proposalCount + 1, proposer, action.target, action.function, action.args, 1,
    now + expirySeconds, false, false⟩

/-- The record that `propose_emergency_rollback` stores. -/
def newRollback (s : State Addr Val) (now : ℕ) (proposer : Addr) (snapshotId : ℕ)
    (oldWasmHash : Hash) : RollbackProposal Addr :=
  ⟨s.govRollbackProposalCount + 1, snapshotId, oldWasmHash, 1, false, now, proposer⟩

variable [DecidableEq Addr]

/-- The action is an operation of the multisig on itself, with the address `a`. -/
def Action.Requests (host : Host Addr Val) (home : Addr) (function : String) (a : Addr)
    (action : Action Addr Val) : Prop :=
  action.target = home ∧ action.function = function ∧
    firstArg host.asAddress action.args = .ok a

/-- What it does to carry out an action. -/
inductive Dispatched (host : Host Addr Val) (home : Addr) (s v : State Addr Val)
    (action : Action Addr Val) : Prop
  | added (signer : Addr) (requested : action.Requests host home "add_signer" signer)
      (unregistered : s.signer signer = false)
      (eq : v = { s with
        signer := Function.update s.signer signer true
        signerCount := s.signerCount + 1 })
  | removed (signer : Addr) (requested : action.Requests host home "remove_signer" signer)
      (registered : s.signer signer = true) (pos : 1 ≤ s.signerCount)
      (le : s.threshold.getD 0 ≤ s.signerCount - 1)
      (eq : v = { s with
        signer := Function.update s.signer signer false
        signerCount := s.signerCount - 1 })
  | rethresholded (threshold : ℕ) (target : action.target = home)
      (function : action.function = "update_threshold") (pos : 1 ≤ threshold)
      (le : threshold ≤ s.signerCount) (eq : v = { s with threshold := some threshold })
  | called (foreign : action.target ≠ home)
      (eq : v = { s with invoked := action :: s.invoked })

inductive Effect (host : Host Addr Val) (inv : Invocation Addr Val home)
    (s t : State Addr Val) : Call Addr Val → Prop
  | initialized {signers : List Addr} {threshold : ℕ} (registered : Addr → Bool)
      (fresh : s.threshold = none) (pos : 1 ≤ threshold) (le : threshold ≤ signers.length)
      (registers : registerSigners s.signer signers = .ok registered)
      (eq : t = { s with
        signer := registered
        threshold := some threshold
        signerCount := signers.length
        proposalCount := 0
        activeProposalCount := 0 }) : Effect host inv s t (.initializeMultisig signers threshold)
  | proposed {proposer target : Addr} {function : String} {args : List Val}
      (initialised : s.threshold ≠ none) (registered : s.signer proposer = true)
      (auth : inv.auth proposer = true)
      (eq : t = { s.setProposal (s.proposalCount + 1)
          (newProposal s inv.timestamp proposer ⟨target, function, args⟩) with
        proposalCount := s.proposalCount + 1
        activeProposalCount := s.activeProposalCount + 1
        proposalArgsChecksum := Function.update s.proposalArgsChecksum (s.proposalCount + 1)
          (some (host.sha256 (host.argsXdr args)))
        approval := approve s.approval (s.proposalCount + 1) proposer }) :
      Effect host inv s t (.proposeAction proposer target function args)
  | signed {signer : Addr} {actionId : ℕ} (p : ProposalRecord Addr Val)
      (initialised : s.threshold ≠ none) (registered : s.signer signer = true)
      (auth : inv.auth signer = true) (found : s.proposal actionId = some p)
      (active : p.Active) (due : inv.timestamp ≤ p.expiry)
      (first : s.approval actionId signer = false)
      (eq : t = { s.setProposal actionId { p with approvalCount := p.approvalCount + 1 } with
        approval := approve s.approval actionId signer }) :
      Effect host inv s t (.signAction signer actionId)
  | executed {actionId : ℕ} (p : ProposalRecord Addr Val) (threshold : ℕ)
      (v : State Addr Val) (stored : s.threshold = some threshold)
      (found : s.proposal actionId = some p) (active : p.Active)
      (due : inv.timestamp ≤ p.expiry) (enough : threshold ≤ p.approvalCount)
      (intact : s.proposalArgsChecksum actionId = some (host.sha256 (host.argsXdr p.args)))
      (dispatch_eq : dispatch host inv s p.action = .ok v)
      (eq : t = { v.setProposal actionId { p with executed := true } with
        activeProposalCount := s.activeProposalCount - 1 }) :
      Effect host inv s t (.executeAction actionId)
  | cancelled {caller : Addr} {actionId : ℕ} (p : ProposalRecord Addr Val)
      (initialised : s.threshold ≠ none) (found : s.proposal actionId = some p)
      (active : p.Active) (due : inv.timestamp ≤ p.expiry) (auth : inv.auth caller = true)
      (eq : t = { s.setProposal actionId { p with cancelled := true } with
        activeProposalCount := s.activeProposalCount - 1 }) :
      Effect host inv s t (.cancelAction caller actionId)
  | emergencySignersSet {caller : Addr} {signers : List Addr}
      (initialised : s.threshold ≠ none) (registered : s.signer caller = true)
      (auth : inv.auth caller = true) (length : signers.length = 7) (distinct : signers.Nodup)
      (eq : t = { s with govEmergencySigners := some signers }) :
      Effect host inv s t (.setEmergencySigners caller signers)
  | snapshotTaken {caller : Addr} {snapshotId : ℕ} (kept : State Addr Val)
      (index : List ℕ) (record : SnapshotMeta Addr) (initialised : s.threshold ≠ none)
      (registered : s.signer caller = true) (auth : inv.auth caller = true)
      (kept_eq : kept = s ∨ ∃ oldId, kept = s.dropSnapshot oldId)
      (eq : t = { s with
        govSnapshotIndex := index
        govSnapshot := Function.update kept.govSnapshot snapshotId (some s.config)
        govSnapshotMeta := Function.update kept.govSnapshotMeta snapshotId (some record) }) :
      Effect host inv s t (.snapshotState caller snapshotId)
  | rollbackProposed {proposer : Addr} {snapshotId : ℕ} {oldWasmHash : Hash}
      (signers : List Addr) (stored : s.govEmergencySigners = some signers)
      (registered : proposer ∈ signers) (snapshotted : (s.govSnapshotMeta snapshotId).isSome)
      (auth : inv.auth proposer = true)
      (eq : t = { s.setRollback (s.govRollbackProposalCount + 1)
          (newRollback s inv.timestamp proposer snapshotId oldWasmHash) with
        govRollbackProposalCount := s.govRollbackProposalCount + 1
        govRollbackApproval :=
          approve s.govRollbackApproval (s.govRollbackProposalCount + 1) proposer }) :
      Effect host inv s t (.proposeEmergencyRollback proposer snapshotId oldWasmHash)
  | rollbackApproved {signer : Addr} {proposalId : ℕ} (signers : List Addr)
      (p : RollbackProposal Addr) (stored : s.govEmergencySigners = some signers)
      (registered : signer ∈ signers) (found : s.govRollbackProposal proposalId = some p)
      (pending : p.executed = false)
      (first : s.govRollbackApproval proposalId signer = false)
      (auth : inv.auth signer = true)
      (eq : t = { s.setRollback proposalId { p with approvalCount := p.approvalCount + 1 } with
        govRollbackApproval := approve s.govRollbackApproval proposalId signer }) :
      Effect host inv s t (.approveEmergencyRollback signer proposalId)
  | rolledBack {proposalId : ℕ} (p : RollbackProposal Addr) (config : GovConfigSnapshot)
      (found : s.govRollbackProposal proposalId = some p) (pending : p.executed = false)
      (enough : 4 ≤ p.approvalCount) (stored : s.govSnapshot p.snapshotId = some config)
      (eq : t = (s.restore config).setRollback proposalId { p with executed := true }) :
      Effect host inv s t (.executeEmergencyRollback proposalId)

variable {host : Host Addr Val} {inv : Invocation Addr Val home} {s t v : State Addr Val}

theorem dispatch_spec {action : Action Addr Val} (h : dispatch host inv s action = .ok v) :
    Dispatched host home s v action := by
  unfold dispatch at h
  split_ifs at h with htarget hadd hremove hupdate
  · simp only [applyAddSigner, bind_eq_ok, require_eq_ok, checkedU32_eq_ok, pure_eq_ok] at h
    obtain ⟨signer, harg, -, hnot, count, ⟨-, rfl⟩, rfl⟩ := h
    exact .added signer ⟨htarget, hadd, harg⟩ hnot rfl
  · simp only [applyRemoveSigner, bind_eq_ok, require_eq_ok, pure_eq_ok] at h
    obtain ⟨signer, harg, -, hsigner, -, hpos, -, hle, rfl⟩ := h
    exact .removed signer ⟨htarget, hremove, harg⟩ hsigner hpos hle rfl
  · simp only [applyUpdateThreshold, bind_eq_ok, require_eq_ok, pure_eq_ok] at h
    obtain ⟨threshold, -, -, hpos, -, hle, rfl⟩ := h
    exact .rethresholded threshold htarget hupdate (Nat.one_le_iff_ne_zero.mpr hpos) hle rfl
  · simp only [bind_eq_ok, pure_eq_ok] at h
    obtain ⟨-, -, rfl⟩ := h
    exact .called htarget rfl

theorem Dispatched.threshold_ne_none {action : Action Addr Val}
    (h : Dispatched host home s v action) (hs : s.threshold ≠ none) : v.threshold ≠ none := by
  cases h with
  | rethresholded _ _ _ _ _ eq =>
    rw [eq]
    exact nofun
  | added _ _ _ eq | removed _ _ _ _ _ eq | called _ eq =>
    rw [eq]
    exact hs

/-- Carrying out an action changes nothing but the signers, the threshold and what is invoked. -/
theorem Dispatched.frame {action : Action Addr Val} (h : Dispatched host home s v action) :
    ∃ threshold signerCount signer invoked, v = { s with
      threshold := threshold
      signerCount := signerCount
      signer := signer
      invoked := invoked } := by
  cases h with
  | added _ _ _ eq | removed _ _ _ _ _ eq | rethresholded _ _ _ _ _ eq | called _ eq =>
    exact ⟨_, _, _, _, eq⟩

/-- Carrying out an action neither reads nor writes the proposals. -/
theorem dispatch_setProposal {action : Action Addr Val} {id : ℕ} {p : ProposalRecord Addr Val}
    {u : State Addr Val} (h : dispatch host inv (s.setProposal id p) action = .ok u) :
    ∃ v, dispatch host inv s action = .ok v ∧ u = v.setProposal id p := by
  unfold dispatch at h ⊢
  split_ifs at h ⊢
  · simp only [applyAddSigner, bind_eq_ok, require_eq_ok, checkedU32_eq_ok, pure_eq_ok] at h ⊢
    obtain ⟨signer, harg, -, hnot, count, ⟨hlt, rfl⟩, rfl⟩ := h
    exact ⟨_, ⟨signer, harg, (), hnot, _, ⟨hlt, rfl⟩, rfl⟩, rfl⟩
  · simp only [applyRemoveSigner, bind_eq_ok, require_eq_ok, pure_eq_ok] at h ⊢
    obtain ⟨signer, harg, -, hsigner, -, hpos, -, hle, rfl⟩ := h
    exact ⟨_, ⟨signer, harg, (), hsigner, (), hpos, (), hle, rfl⟩, rfl⟩
  · simp only [applyUpdateThreshold, bind_eq_ok, require_eq_ok, pure_eq_ok] at h ⊢
    obtain ⟨threshold, harg, -, hpos, -, hle, rfl⟩ := h
    exact ⟨_, ⟨threshold, harg, (), hpos, (), hle, rfl⟩, rfl⟩
  · simp only [bind_eq_ok, pure_eq_ok] at h ⊢
    obtain ⟨_, haccepts, rfl⟩ := h
    exact ⟨_, ⟨_, haccepts, rfl⟩, rfl⟩

theorem exec_effect {call : Call Addr Val} (h : exec host inv call s = .ok t) :
    Effect host inv s t call := by
  cases call with
  | initializeMultisig signers threshold =>
    simp only [exec, initializeMultisig, bind_eq_ok, require_eq_ok, pure_eq_ok] at h
    obtain ⟨-, hfresh, -, ⟨-, hpos⟩, -, hle, registered, hregisters, rfl⟩ := h
    exact .initialized registered hfresh (Nat.one_le_iff_ne_zero.mpr hpos) hle hregisters rfl
  | proposeAction proposer target function args =>
    simp only [exec, proposeAction, bind_eq_ok, require_eq_ok, requireAuth_eq_ok,
      checkedU32_eq_ok, checkedU64_eq_ok, pure_eq_ok] at h
    obtain ⟨_, ⟨-, hinitialised, -, hsigner, -, hauth, id, ⟨-, rfl⟩, active, ⟨-, rfl⟩, expiry,
      ⟨-, rfl⟩, rfl⟩, rfl⟩ := h
    exact .proposed hinitialised hsigner hauth rfl
  | signAction signer actionId =>
    simp only [exec, signAction, bind_eq_ok, require_eq_ok, requireAuth_eq_ok, expect_eq_ok,
      checkedU32_eq_ok, pure_eq_ok] at h
    obtain ⟨-, hinitialised, -, hsigner, p, hfound, -, hexecuted, -, hcancelled, -, hdue, -,
      hfirst, -, hauth, count, ⟨-, rfl⟩, rfl⟩ := h
    exact .signed p hinitialised hsigner hauth hfound ⟨hexecuted, hcancelled⟩ hdue hfirst rfl
  | executeAction actionId =>
    simp only [exec, executeAction, bind_eq_ok, require_eq_ok, expect_eq_ok, pure_eq_ok] at h
    obtain ⟨threshold, hthreshold, p, hfound, -, hexecuted, -, hcancelled, -, hdue, -, henough,
      checksum, hchecksum, -, hintact, u, hdispatch, rfl⟩ := h
    obtain ⟨v, hv, rfl⟩ := dispatch_setProposal hdispatch
    have hactive : v.activeProposalCount = s.activeProposalCount := by
      obtain ⟨_, _, _, _, hframe⟩ := (dispatch_spec hv).frame
      rw [hframe]
    refine .executed p threshold v hthreshold hfound ⟨hexecuted, hcancelled⟩ hdue henough ?_ hv ?_
    · rw [hchecksum, hintact]
    · rw [← hactive]
      rfl
  | cancelAction caller actionId =>
    simp only [exec, cancelAction, bind_eq_ok, require_eq_ok, requireAuth_eq_ok, expect_eq_ok,
      pure_eq_ok] at h
    obtain ⟨-, hinitialised, p, hfound, -, -, -, hexecuted, -, hcancelled, -, hdue, -, hauth,
      rfl⟩ := h
    exact .cancelled p hinitialised hfound ⟨hexecuted, hcancelled⟩ hdue hauth rfl
  | setEmergencySigners caller signers =>
    simp only [exec, setEmergencySigners, bind_eq_ok, require_eq_ok, requireAuth_eq_ok,
      pure_eq_ok] at h
    obtain ⟨-, hinitialised, -, hsigner, -, hauth, -, hvalid, rfl⟩ := h
    have hconfig : signers.length = 7 ∧ signers.Nodup := by
      simpa [MultisigValidation.isValidEmergencyConfig, emergencyMsigSigners] using hvalid
    exact .emergencySignersSet hinitialised hsigner hauth hconfig.1 hconfig.2 rfl
  | snapshotState caller snapshotId =>
    simp only [exec, snapshotState, bind_eq_ok, require_eq_ok, requireAuth_eq_ok,
      pure_eq_ok] at h
    obtain ⟨-, hinitialised, -, hsigner, -, hauth, rfl⟩ := h
    cases (pushSnapshotIndex s.govSnapshotIndex snapshotId).2 with
    | none => exact .snapshotTaken s _ _ hinitialised hsigner hauth (.inl rfl) rfl
    | some oldId =>
      exact .snapshotTaken (s.dropSnapshot oldId) _ _ hinitialised hsigner hauth
        (.inr ⟨oldId, rfl⟩) rfl
  | proposeEmergencyRollback proposer snapshotId oldWasmHash =>
    simp only [exec, proposeEmergencyRollback, bind_eq_ok, require_eq_ok, requireAuth_eq_ok,
      expect_eq_ok, checkedU32_eq_ok, pure_eq_ok] at h
    obtain ⟨_, ⟨signers, hsigners, -, hmem, -, hmeta, -, hauth, id, ⟨-, rfl⟩, rfl⟩, rfl⟩ := h
    exact .rollbackProposed signers hsigners hmem hmeta hauth rfl
  | approveEmergencyRollback signer proposalId =>
    simp only [exec, approveEmergencyRollback, bind_eq_ok, require_eq_ok, requireAuth_eq_ok,
      expect_eq_ok, checkedU32_eq_ok, pure_eq_ok] at h
    obtain ⟨signers, hsigners, -, hmem, p, hfound, -, hpending, -, hfirst, -, hauth, count,
      ⟨-, rfl⟩, rfl⟩ := h
    exact .rollbackApproved signers p hsigners hmem hfound hpending hfirst hauth rfl
  | executeEmergencyRollback proposalId =>
    simp only [exec, executeEmergencyRollback, bind_eq_ok, require_eq_ok, expect_eq_ok,
      pure_eq_ok] at h
    obtain ⟨p, hfound, -, hpending, -, henough, config, hstored, -, -, rfl⟩ := h
    exact .rolledBack p config hfound hpending henough hstored rfl

theorem effect_of_executes {call : Call Addr Val} {steps pre : List (Step Addr Val home)}
    (h : (machine home host).Executes s steps pre (inv, call) t) :
    Effect host inv ((machine home host).run s pre) t call := exec_effect h.exec_eq

end MultisigAdmin
