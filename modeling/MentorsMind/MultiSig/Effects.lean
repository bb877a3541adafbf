import MentorsMind.MultiSig.Contract

/-! What a successful call does, said once. Everything that is proved about runs of the
wallet reads it off here and never unfolds an entry point. -/
namespace MultiSig
open Outcome Soroban

variable {Addr : Type} [DecidableEq Addr] {self : Addr}

/-- The transaction that a proposal stores under the id `id`. -/
def proposal (id : ℕ) (proposer recipient token : Addr) (amount : ℤ) (executeAfter : ℕ) :
    Transaction Addr :=
  ⟨id, proposer, recipient, token, amount, executeAfter, .pending, 0⟩

inductive Effect (step : Step Addr self) (s t : State Addr) : Prop
  | initialized (admin : Addr) (signers : List Addr) (threshold : ℕ)
      (call : step.2 = .initializeMultisig admin signers threshold)
      (fresh : s.admin = none) (pos : 1 ≤ threshold) (le : threshold ≤ signers.length)
      (eq : t = { s with
        admin := some admin
        threshold := some threshold
        transCount := 0
        signerCount := signers.length
        signer := registerSigners s.signer signers })
  | proposed (proposer recipient token : Addr) (amount : ℤ) (executeAfter : ℕ)
      (call : step.2 = .proposeTransaction proposer recipient token amount executeAfter)
      (auth : step.1.auth proposer = true) (pos : 0 < amount)
      (eq : t = { s with transCount := s.transCount + 1 }.setTransaction (s.transCount + 1)
        (proposal (s.transCount + 1) proposer recipient token amount executeAfter))
  | approved (signer : Addr) (transId : ℕ) (tx : Transaction Addr)
      (call : step.2 = .approveTransaction signer transId)
      (auth : step.1.auth signer = true) (registered : s.signer signer = true)
      (found : s.transaction transId = some tx) (pending : tx.status = .pending)
      (first : s.approval transId signer = false)
      (eq : t = { s with
        approval := Function.update s.approval transId
          (Function.update (s.approval transId) signer true) }.setTransaction transId
            { tx with approvals := tx.approvals + 1 })
  | executed (executor : Addr) (transId : ℕ) (tx : Transaction Addr) (threshold : ℕ)
      (tokens : Tokens Addr) (call : step.2 = .executeTransaction executor transId)
      (found : s.transaction transId = some tx) (pending : tx.status = .pending)
      (needed : s.threshold = some threshold) (enough : threshold ≤ tx.approvals)
      (due : tx.executeAfter ≤ step.1.timestamp)
      (paid : s.tokens.transfer step.1.accepts tx.token self tx.recipient tx.amount =
        .ok tokens)
      (eq : t = { s with tokens := tokens }.setTransaction transId
        { tx with status := .executed })
  | cancelled (adminOrProposer : Addr) (transId : ℕ) (tx : Transaction Addr)
      (call : step.2 = .cancelTransaction adminOrProposer transId)
      (found : s.transaction transId = some tx) (pending : tx.status = .pending)
      (eq : t = s.setTransaction transId { tx with status := .cancelled })
  | signerAdded (admin signer : Addr) (call : step.2 = .addSigner admin signer)
      (auth : step.1.auth admin = true) (stored : s.admin = some admin)
      (unregistered : s.signer signer = false)
      (eq : t = { s with
        signer := Function.update s.signer signer true
        signerCount := s.signerCount + 1 })
  | signerRemoved (admin signer : Addr) (call : step.2 = .removeSigner admin signer)
      (auth : step.1.auth admin = true) (stored : s.admin = some admin)
      (registered : s.signer signer = true)
      (le : s.threshold.getD 0 ≤ s.signerCount - 1)
      (eq : t = { s with
        signer := Function.update s.signer signer false
        signerCount := s.signerCount - 1 })
  | thresholdUpdated (admin : Addr) (threshold : ℕ)
      (call : step.2 = .updateThreshold admin threshold)
      (auth : step.1.auth admin = true) (stored : s.admin = some admin)
      (pos : 1 ≤ threshold) (le : threshold ≤ s.signerCount)
      (eq : t = { s with threshold := some threshold })
  | tokensMoved (tokens : Tokens Addr)
      (call : (∃ token source amount, step.2 = .deposit token source amount) ∨
        ∃ token holder balance, step.2 = .tokenActivity token holder balance)
      (eq : t = { s with tokens := tokens })

variable {step : Step Addr self} {inv : Invocation Addr self} {s t : State Addr}

theorem requireAdmin_eq_ok {admin : Addr} {u : Unit} :
    requireAdmin inv s admin = .ok u ↔ inv.auth admin = true ∧ s.admin = some admin := by
  simp only [requireAdmin, bind_eq_ok, requireAuth_eq_ok, expect_eq_ok, require_eq_ok]
  constructor
  · rintro ⟨-, hauth, stored, hstored, rfl⟩
    exact ⟨hauth, hstored⟩
  · rintro ⟨hauth, hstored⟩
    exact ⟨(), hauth, admin, hstored, rfl⟩

theorem executeTransaction_spec {transId : ℕ} (h : executeTransaction inv s transId = .ok t) :
    ∃ tx threshold tokens, s.transaction transId = some tx ∧ tx.status = .pending ∧
      s.threshold = some threshold ∧ threshold ≤ tx.approvals ∧
      tx.executeAfter ≤ inv.timestamp ∧
      s.tokens.transfer inv.accepts tx.token self tx.recipient tx.amount = .ok tokens ∧
      t = { s with tokens := tokens }.setTransaction transId { tx with status := .executed } := by
  simp only [executeTransaction, bind_eq_ok, require_eq_ok, expect_eq_ok, pure_eq_ok] at h
  obtain ⟨tx, htx, -, hpending, threshold, hthreshold, -, henough, -, hdue, tokens, hpaid,
    rfl⟩ := h
  exact ⟨tx, threshold, tokens, htx, hpending, hthreshold, henough, hdue, hpaid, rfl⟩

theorem exec_effect (h : exec step.1 step.2 s = .ok t) : Effect step s t := by
  obtain ⟨inv, call⟩ := step
  cases call with
  | initializeMultisig admin signers threshold =>
    simp only [exec, initializeMultisig, bind_eq_ok, require_eq_ok, pure_eq_ok] at h
    obtain ⟨-, hfresh, -, ⟨-, hpos, hle⟩, rfl⟩ := h
    exact .initialized admin signers threshold rfl hfresh (Nat.one_le_iff_ne_zero.mpr hpos) hle rfl
  | proposeTransaction proposer recipient token amount executeAfter =>
    simp only [exec, proposeTransaction, bind_eq_ok, requireAuth_eq_ok, require_eq_ok, u64_eq_ok,
      pure_eq_ok] at h
    obtain ⟨-, ⟨-, hauth, -, hpos, count, ⟨-, rfl⟩, rfl⟩, rfl⟩ := h
    exact .proposed proposer recipient token amount executeAfter rfl hauth hpos rfl
  | approveTransaction signer transId =>
    simp only [exec, approveTransaction, bind_eq_ok, requireAuth_eq_ok, require_eq_ok,
      expect_eq_ok, u32_eq_ok, pure_eq_ok] at h
    obtain ⟨-, hauth, -, hsigner, tx, htx, -, hpending, -, hfirst, approvals, ⟨-, rfl⟩, rfl⟩ := h
    exact .approved signer transId tx rfl hauth hsigner htx hpending hfirst rfl
  | executeTransaction executor transId =>
    obtain ⟨tx, threshold, tokens, htx, hpending, hthreshold, henough, hdue, hpaid, rfl⟩ :=
      executeTransaction_spec h
    exact .executed executor transId tx threshold tokens rfl htx hpending hthreshold henough hdue
      hpaid rfl
  | cancelTransaction adminOrProposer transId =>
    simp only [exec, cancelTransaction, bind_eq_ok, requireAuth_eq_ok, require_eq_ok,
      expect_eq_ok, pure_eq_ok] at h
    obtain ⟨-, -, tx, htx, admin, -, -, -, -, hpending, rfl⟩ := h
    exact .cancelled adminOrProposer transId tx rfl htx hpending rfl
  | addSigner admin signer =>
    simp only [exec, addSigner, bind_eq_ok, requireAdmin_eq_ok, require_eq_ok, u32_eq_ok,
      pure_eq_ok] at h
    obtain ⟨-, ⟨hauth, hstored⟩, -, hnew, count, ⟨-, rfl⟩, rfl⟩ := h
    exact .signerAdded admin signer rfl hauth hstored hnew rfl
  | removeSigner admin signer =>
    simp only [exec, removeSigner, bind_eq_ok, requireAdmin_eq_ok, require_eq_ok,
      pure_eq_ok] at h
    obtain ⟨-, ⟨hauth, hstored⟩, -, hsigner, -, -, -, hle, rfl⟩ := h
    exact .signerRemoved admin signer rfl hauth hstored hsigner hle rfl
  | updateThreshold admin threshold =>
    simp only [exec, updateThreshold, bind_eq_ok, requireAdmin_eq_ok, require_eq_ok,
      pure_eq_ok] at h
    obtain ⟨-, ⟨hauth, hstored⟩, -, ⟨hpos, hle⟩, rfl⟩ := h
    exact .thresholdUpdated admin threshold rfl hauth hstored (Nat.one_le_iff_ne_zero.mpr hpos)
      hle rfl
  | deposit token source amount =>
    simp only [exec, bind_eq_ok, pure_eq_ok] at h
    obtain ⟨-, -, tokens, -, rfl⟩ := h
    exact .tokensMoved tokens (.inl ⟨token, source, amount, rfl⟩) rfl
  | tokenActivity token holder balance =>
    simp only [exec, bind_eq_ok, pure_eq_ok] at h
    obtain ⟨-, -, rfl⟩ := h
    exact .tokensMoved _ (.inr ⟨token, holder, balance, rfl⟩) rfl

omit [DecidableEq Addr] in
/-- The transaction that a call executes or cancels. -/
def Call.settles : Call Addr → Option ℕ
  | .executeTransaction _ transId => some transId
  | .cancelTransaction _ transId => some transId
  | _ => none

/-- The step proposes a transaction under the id `id`. -/
def Proposes (s : State Addr) (step : Step Addr self) (id : ℕ) : Prop :=
  s.transCount + 1 = id ∧ ∃ proposer recipient token amount executeAfter,
    step.2 = .proposeTransaction proposer recipient token amount executeAfter

/-- What a step does to the transactions and their approvals. -/
inductive BallotChange (step : Step Addr self) (s t : State Addr) : Prop
  | same (settles : step.2.settles = none)
      (proposes : ∀ proposer recipient token amount executeAfter,
        step.2 ≠ .proposeTransaction proposer recipient token amount executeAfter)
      (approves : ∀ a id, step.2 ≠ .approveTransaction a id)
      (transaction : t.transaction = s.transaction) (approval : t.approval = s.approval)
      (count : t.transCount = s.transCount ∨ t.transCount = 0 ∧
        ∃ admin signers threshold, step.2 = .initializeMultisig admin signers threshold)
  | proposed (proposer recipient token : Addr) (amount : ℤ) (executeAfter : ℕ)
      (call : step.2 = .proposeTransaction proposer recipient token amount executeAfter)
      (transaction : t.transaction = Function.update s.transaction (s.transCount + 1)
        (some (proposal (s.transCount + 1) proposer recipient token amount executeAfter)))
      (approval : t.approval = s.approval) (count : t.transCount = s.transCount + 1)
  | approved (signer : Addr) (transId : ℕ) (tx : Transaction Addr)
      (call : step.2 = .approveTransaction signer transId)
      (registered : s.signer signer = true) (found : s.transaction transId = some tx)
      (pending : tx.status = .pending) (first : s.approval transId signer = false)
      (transaction : t.transaction = Function.update s.transaction transId
        (some { tx with approvals := tx.approvals + 1 }))
      (approval : t.approval = Function.update s.approval transId
        (Function.update (s.approval transId) signer true))
      (count : t.transCount = s.transCount)
  | settled (transId : ℕ) (tx : Transaction Addr) (status : TransactionStatus)
      (call : step.2.settles = some transId) (found : s.transaction transId = some tx)
      (pending : tx.status = .pending) (final : status ≠ .pending)
      (transaction : t.transaction = Function.update s.transaction transId
        (some { tx with status := status })) (approval : t.approval = s.approval)
      (count : t.transCount = s.transCount)

theorem Effect.ballotChange (h : Effect step s t) : BallotChange step s t := by
  cases h with
  | proposed proposer recipient token amount executeAfter call auth pos eq =>
    subst eq
    exact .proposed proposer recipient token amount executeAfter call rfl rfl rfl
  | approved signer transId tx call auth registered found pending first eq =>
    subst eq
    exact .approved signer transId tx call registered found pending first rfl rfl rfl
  | executed executor transId tx threshold tokens call found pending needed enough due paid eq =>
    subst eq
    exact .settled transId tx .executed (by rw [call]; rfl) found pending (by simp) rfl rfl rfl
  | cancelled adminOrProposer transId tx call found pending eq =>
    subst eq
    exact .settled transId tx .cancelled (by rw [call]; rfl) found pending (by simp) rfl rfl rfl
  | initialized admin signers threshold call _ _ _ eq =>
    subst eq
    exact .same (by simp [call, Call.settles]) (by simp [call]) (by simp [call]) rfl rfl
      (.inr ⟨rfl, admin, signers, threshold, call⟩)
  | signerAdded _ _ call _ _ _ eq
  | signerRemoved _ _ call _ _ _ _ eq | thresholdUpdated _ _ call _ _ _ _ eq =>
    subst eq
    exact .same (by simp [call, Call.settles]) (by simp [call]) (by simp [call]) rfl rfl
      (.inl rfl)
  | tokensMoved tokens call eq =>
    subst eq
    rcases call with ⟨token, source, amount, call⟩ | ⟨token, holder, balance, call⟩
    · exact .same (by simp [call, Call.settles]) (by simp [call]) (by simp [call]) rfl rfl
        (.inl rfl)
    · exact .same (by simp [call, Call.settles]) (by simp [call]) (by simp [call]) rfl rfl
        (.inl rfl)

end MultiSig
