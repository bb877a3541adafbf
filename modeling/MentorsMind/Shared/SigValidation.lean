import MentorsMind.Shared.SafeMath

/-! Payloads that a relayer submits for a signer, and the nonces and deadlines that guard them. -/
namespace Shared
open Outcome Soroban

def expiryToleranceSecs : ℕ := 60
def maxDeadlineSecs : ℕ := 24 * 60 * 60

inductive MetaTxAction where
  | deployEscrow
  | releaseEscrow
  | cancelSubscription
  | claimVested
  deriving DecidableEq

/-- What the signer authorises. The hash stands for the parameters of the call. -/
structure MetaTxPayload (Addr : Type) where
  contractId : Addr
  nonce : ℕ
  deadline : ℕ
  action : MetaTxAction
  paramsHash : Hash
  deriving DecidableEq

/-- The sums are those of `u64::saturating_add`. -/
def validateDeadline (now deadline : ℕ) : Result Unit := do
  require (saturatingAddU64 now expiryToleranceSecs < deadline) (.panic "sig: expired")
  require (deadline ≤ saturatingAddU64 now maxDeadlineSecs) (.panic "sig: deadline too far")

variable {Addr : Type} [DecidableEq Addr]

/-- Returns the nonces after the payload is consumed. `authForArgs` is what the host answers to
`require_auth_for_args`. The parameters of the call are not seen here. -/
def validateAndConsumeNonce (now : ℕ) (home : Addr)
    (authForArgs : Addr → MetaTxPayload Addr → Bool) (nonces : Addr → ℕ) (signer : Addr)
    (payload : MetaTxPayload Addr) : Result (Addr → ℕ) := do
  require (payload.contractId = home) (.panic "sig: contract mismatch")
  let storedNonce := nonces signer
  require (payload.nonce = storedNonce) (.panic "sig: invalid nonce")
  validateDeadline now payload.deadline
  require (authForArgs signer payload = true) .unauthorized
  let newNonce ← checkedU64 (storedNonce + 1) (.panic "sig: nonce overflow")
  pure (Function.update nonces signer newNonce)

/-- What holds of a payload that is consumed. -/
structure Consumable (now : ℕ) (home : Addr) (authForArgs : Addr → MetaTxPayload Addr → Bool)
    (nonces : Addr → ℕ) (signer : Addr) (payload : MetaTxPayload Addr) : Prop where
  contract : payload.contractId = home
  nonce : payload.nonce = nonces signer
  inTime : now < payload.deadline
  authorized : authForArgs signer payload = true

theorem validateDeadline_inTime {now deadline : ℕ} {u : Unit}
    (h : validateDeadline now deadline = .ok u) : now < deadline := by
  simp only [validateDeadline, bind_eq_ok, require_eq_ok] at h
  obtain ⟨-, hlater, hwithin⟩ := h
  simp only [saturatingAddU64, expiryToleranceSecs, maxDeadlineSecs] at hlater hwithin
  omega

theorem validateAndConsumeNonce_spec {now : ℕ} {home signer : Addr}
    {authForArgs : Addr → MetaTxPayload Addr → Bool} {nonces nonces' : Addr → ℕ}
    {payload : MetaTxPayload Addr}
    (h : validateAndConsumeNonce now home authForArgs nonces signer payload = .ok nonces') :
    Consumable now home authForArgs nonces signer payload ∧
      nonces' = Function.update nonces signer (nonces signer + 1) := by
  simp only [validateAndConsumeNonce, bind_eq_ok, require_eq_ok, checkedU64_eq_ok,
    pure_eq_ok] at h
  obtain ⟨-, hcontract, -, hnonce, u, hdeadline, -, hauth, -, ⟨-, rfl⟩, rfl⟩ := h
  exact ⟨⟨hcontract, hnonce, validateDeadline_inTime hdeadline, hauth⟩, rfl⟩

end Shared
