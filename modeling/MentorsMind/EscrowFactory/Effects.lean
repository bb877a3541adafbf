import MentorsMind.EscrowFactory.Contract
import MentorsMind.Lib.Table

/-! What a successful call does, said once. -/
namespace EscrowFactory
open Outcome Soroban Shared

variable {Addr : Type} {home : Addr} {escrowAddress : String → Addr → Addr → ℕ → Addr}
  {inv : Invocation Addr home} {s t : State Addr} {params : DeployParams Addr} {call : Call Addr}

/-- What the deployment of an escrow writes. -/
def State.recordEscrow (s : State Addr) (escrow : Addr) (params : DeployParams Addr) (now : ℕ) :
    State Addr :=
  { s with
    sessionNonce := Function.update s.sessionNonce params.sessionId
      (s.sessionNonce params.sessionId + 1)
    escrowMapping := Function.update s.escrowMapping params.sessionId (some escrow)
    escrowCount := s.escrowCount + 1
    escrowList := Function.update s.escrowList (s.escrowCount + 1)
      (some ⟨escrow, params.sessionId, params.mentor, params.learner, now⟩) }

/-- What storing a request writes. -/
def State.request (s : State Addr) (params : DeployParams Addr) (now : ℕ) : State Addr :=
  { s with
    pendingHighValueSession := Function.update s.pendingHighValueSession params.sessionId
      (some ⟨params.mentor, params.learner, params.amount, params.token, now⟩) }

def State.removeRequest (s : State Addr) (sessionId : String) : State Addr :=
  { s with
    pendingHighValueSession := Function.update s.pendingHighValueSession sessionId none }

/-- What a request asks to deploy. -/
def PendingSession.deployParams (pending : PendingSession Addr) (sessionId : String) :
    DeployParams Addr :=
  ⟨pending.mentor, pending.learner, pending.amount, pending.token, sessionId⟩

def PendingSession.Expired (pending : PendingSession Addr) (now : ℕ) : Prop :=
  pending.requestedAt + highValueApprovalWindowSecs < now

instance (pending : PendingSession Addr) (now : ℕ) : Decidable (pending.Expired now) :=
  inferInstanceAs (Decidable (_ < _))

/-- What `deploy_escrow` does from the state `s`, in which the nonces may have moved already. -/
inductive Deployment (now : ℕ) (s t : State Addr) (params : DeployParams Addr) : Prop where
  | requested (depHist : Addr → ℕ × ℤ) (started : s.admin.isSome = true)
      (unmapped : s.escrowMapping params.sessionId = none)
      (high : highValueThreshold < params.amount)
      (eq : t = { s.request params now with depHist := depHist })
  | deployed (depHist : Addr → ℕ × ℤ) (escrow : Addr) (started : s.admin.isSome = true)
      (unmapped : s.escrowMapping params.sessionId = none)
      (low : params.amount ≤ highValueThreshold)
      (eq : t = { s.recordEscrow escrow params now with depHist := depHist })

/-- A call that deploys nothing leaves the escrows, the requests and the nonces. -/
structure EscrowsKept (s t : State Addr) : Prop where
  mapping : t.escrowMapping = s.escrowMapping
  list : t.escrowList = s.escrowList
  count : t.escrowCount = s.escrowCount
  pending : t.pendingHighValueSession = s.pendingHighValueSession
  nonces : t.nonces = s.nonces
  started : s.admin.isSome = true → t.admin.isSome = true

inductive Effect [DecidableEq Addr] (inv : Invocation Addr home) (s t : State Addr) :
    Call Addr → Prop where
  | initialized {admin implementationAddress : Addr} (fresh : s.admin = none)
      (eq : t = { s with
        admin := some admin, implementation := some implementationAddress, escrowCount := 0 }) :
      Effect inv s t (.initializeFactory admin implementationAddress)
  | deployed {params : DeployParams Addr} (deployment : Deployment inv.timestamp s t params) :
      Effect inv s t (.deployEscrow params)
  | relayed {signer : Addr} {payload : MetaTxPayload Addr} {params : DeployParams Addr}
      (nonces : Addr → ℕ) (action : payload.action = .deployEscrow)
      (accepted : validateAndConsumeNonce inv.timestamp home inv.authForArgs s.nonces signer
        payload = .ok nonces)
      (deployment : Deployment inv.timestamp { s with nonces := nonces } t params) :
      Effect inv s t (.executeMetaTx signer payload params)
  | approved {multisig : Addr} {sessionId : String} (pending : PendingSession Addr)
      (escrow : Addr) (signed : inv.auth multisig = true)
      (found : s.pendingHighValueSession sessionId = some pending)
      (inTime : ¬ pending.Expired inv.timestamp)
      (eq : t = (s.removeRequest sessionId).recordEscrow escrow (pending.deployParams sessionId)
        inv.timestamp) :
      Effect inv s t (.approveHighValueSession multisig sessionId)
  | other {call : Call Addr} (isOther : (∀ params, call ≠ .deployEscrow params) ∧
        (∀ signer payload params, call ≠ .executeMetaTx signer payload params) ∧
        ∀ multisig sessionId, call ≠ .approveHighValueSession multisig sessionId)
      (kept : EscrowsKept s t) : Effect inv s t call

theorem deployEscrowInternal_spec {now sessionEnd : ℕ} {escrow : Addr}
    (h : deployEscrowInternal escrowAddress inv s params now sessionEnd = .ok (t, escrow)) :
    t = s.recordEscrow escrow params now := by
  simp only [deployEscrowInternal, bind_eq_ok, require_eq_ok, checkedU32_eq_ok, u64_eq_ok,
    pure_eq_ok] at h
  obtain ⟨-, ⟨-, rfl⟩, -, -, -, -, -, -, -, ⟨-, rfl⟩, -, -, -, -, heq⟩ := h
  obtain ⟨rfl, rfl⟩ := Prod.mk.inj heq
  rfl

theorem requestHighValueSession_spec {now : ℕ} {predicted : Addr}
    (h : requestHighValueSession escrowAddress now s params = .ok (t, predicted)) :
    t = s.request params now := by
  simp only [requestHighValueSession, bind_eq_ok, checkedU32_eq_ok, u64_eq_ok, pure_eq_ok] at h
  obtain ⟨-, -, -, ⟨-, rfl⟩, heq⟩ := h
  obtain ⟨rfl, -⟩ := Prod.mk.inj heq
  rfl

theorem approveHighValueSession_spec {multisig escrow : Addr} {sessionId : String}
    (h : approveHighValueSession escrowAddress inv s multisig sessionId = .ok (t, escrow)) :
    ∃ pending, inv.auth multisig = true ∧ s.pendingHighValueSession sessionId = some pending ∧
      ¬ pending.Expired inv.timestamp ∧
      t = (s.removeRequest sessionId).recordEscrow escrow (pending.deployParams sessionId)
        inv.timestamp := by
  simp only [approveHighValueSession, bind_eq_ok, requireAuth_eq_ok, expect_eq_ok,
    u64_eq_ok] at h
  obtain ⟨-, hsigned, pending, hfound, -, ⟨-, rfl⟩, h⟩ := h
  split_ifs at h with hexpired
  · obtain ⟨-, -, h⟩ := bind_eq_ok.mp h
    cases h
  · simp only [bind_eq_ok, expect_eq_ok, checkedU64_eq_ok] at h
    obtain ⟨-, -, -, ⟨-, rfl⟩, h⟩ := h
    exact ⟨pending, hsigned, hfound, hexpired, deployEscrowInternal_spec h⟩

variable [DecidableEq Addr]

theorem checkFeeEvasion_spec {learner : Addr} {expectedFee : ℤ}
    (h : checkFeeEvasion inv s learner expectedFee = .ok t) :
    ∃ depHist, t = { s with depHist := depHist } := by
  simp only [checkFeeEvasion, bind_eq_ok, pure_eq_ok] at h
  obtain ⟨-, -, rfl⟩ := h
  exact ⟨_, rfl⟩

theorem deployEscrow_spec {escrow : Addr}
    (h : deployEscrow escrowAddress inv s params = .ok (t, escrow)) :
    Deployment inv.timestamp s t params := by
  simp only [deployEscrow, getAdmin, bind_eq_ok, expect_eq_ok, require_eq_ok,
    checkedU64_eq_ok] at h
  obtain ⟨admin, hadmin, expected, -, u, hhistory, -, -, -, -, -, hunmapped, h⟩ := h
  obtain ⟨-, -, -, ⟨-, rfl⟩, -, -, h⟩ := h
  obtain ⟨depHist, rfl⟩ := checkFeeEvasion_spec hhistory
  have hstarted : s.admin.isSome = true := by
    rw [hadmin]
    rfl
  split_ifs at h with hhigh
  · rw [requestHighValueSession_spec h]
    exact .requested depHist hstarted hunmapped hhigh rfl
  · rw [deployEscrowInternal_spec h]
    exact .deployed depHist escrow hstarted hunmapped (not_lt.mp hhigh) rfl

theorem executeMetaTx_spec {signer escrow : Addr} {payload : MetaTxPayload Addr}
    (h : executeMetaTx escrowAddress inv s signer payload params = .ok (t, escrow)) :
    ∃ nonces, payload.action = .deployEscrow ∧
      validateAndConsumeNonce inv.timestamp home inv.authForArgs s.nonces signer payload =
        .ok nonces ∧ Deployment inv.timestamp { s with nonces := nonces } t params := by
  simp only [executeMetaTx, bind_eq_ok, require_eq_ok] at h
  obtain ⟨-, haction, nonces, haccepted, h⟩ := h
  exact ⟨nonces, haction, haccepted, deployEscrow_spec h⟩

omit [DecidableEq Addr] in
/-- What a setter writes leaves the escrows. -/
theorem requireStoredAdmin_kept {u : State Addr}
    (h : (requireStoredAdmin inv s >>= fun _ => pure u) = .ok t) (hkept : EscrowsKept s u) :
    EscrowsKept s t := by
  simp only [bind_eq_ok, pure_eq_ok] at h
  obtain ⟨-, -, rfl⟩ := h
  exact hkept

theorem exec_effect (hx : exec escrowAddress inv call s = .ok t) : Effect inv s t call := by
  cases call with
  | initializeFactory admin implementationAddress =>
    simp only [exec, initializeFactory, bind_eq_ok, require_eq_ok, pure_eq_ok] at hx
    obtain ⟨-, hfresh, rfl⟩ := hx
    exact .initialized hfresh rfl
  | proposeAdminChange currentAdmin newAdmin =>
    simp only [exec, proposeAdminChange, bind_eq_ok, pure_eq_ok] at hx
    obtain ⟨-, -, -, -, -, -, -, -, rfl⟩ := hx
    exact .other (by simp) ⟨rfl, rfl, rfl, rfl, rfl, id⟩
  | acceptAdminChange newAdmin =>
    simp only [exec, acceptAdminChange, bind_eq_ok, pure_eq_ok] at hx
    obtain ⟨-, -, -, -, -, -, -, -, rfl⟩ := hx
    exact .other (by simp) ⟨rfl, rfl, rfl, rfl, rfl, fun _ => rfl⟩
  | cancelAdminChange multisig =>
    simp only [exec, cancelAdminChange, bind_eq_ok, pure_eq_ok] at hx
    obtain ⟨-, -, -, -, rfl⟩ := hx
    exact .other (by simp) ⟨rfl, rfl, rfl, rfl, rfl, id⟩
  | setPauseGuardian guardian =>
    exact .other (by simp) (requireStoredAdmin_kept hx ⟨rfl, rfl, rfl, rfl, rfl, id⟩)
  | setInterfaceRegistry registry =>
    exact .other (by simp) (requireStoredAdmin_kept hx ⟨rfl, rfl, rfl, rfl, rfl, id⟩)
  | setHealthDashboard healthDashboard =>
    exact .other (by simp) (requireStoredAdmin_kept hx ⟨rfl, rfl, rfl, rfl, rfl, id⟩)
  | setAnomalyDetector detector =>
    exact .other (by simp) (requireStoredAdmin_kept hx ⟨rfl, rfl, rfl, rfl, rfl, id⟩)
  | setBypassAnomalyCheck bypass =>
    exact .other (by simp) (requireStoredAdmin_kept hx ⟨rfl, rfl, rfl, rfl, rfl, id⟩)
  | upgradeImplementation newImplementation =>
    exact .other (by simp) (requireStoredAdmin_kept hx ⟨rfl, rfl, rfl, rfl, rfl, id⟩)
  | checkFeeEvasion learner expectedFee =>
    obtain ⟨depHist, rfl⟩ := checkFeeEvasion_spec hx
    exact .other (by simp) ⟨rfl, rfl, rfl, rfl, rfl, id⟩
  | deployEscrow params =>
    obtain ⟨⟨u, escrow⟩, hdeploy, rfl⟩ := map_eq_ok.mp hx
    exact .deployed (deployEscrow_spec hdeploy)
  | executeMetaTx signer payload params =>
    obtain ⟨⟨u, escrow⟩, hrelay, rfl⟩ := map_eq_ok.mp hx
    obtain ⟨nonces, haction, haccepted, hdeployment⟩ := executeMetaTx_spec hrelay
    exact .relayed nonces haction haccepted hdeployment
  | approveHighValueSession multisig sessionId =>
    obtain ⟨⟨u, escrow⟩, happrove, rfl⟩ := map_eq_ok.mp hx
    obtain ⟨pending, hsigned, hfound, htime, rfl⟩ := approveHighValueSession_spec happrove
    exact .approved pending escrow hsigned hfound htime rfl

end EscrowFactory
