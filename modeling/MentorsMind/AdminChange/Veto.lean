import MentorsMind.Lib.Custody
import MentorsMind.Governance.Proposals
import MentorsMind.Referral.MintCaps
import MentorsMind.Staking.Effects
import MentorsMind.Treasury.Succession

/-! Who can take back a pending change of the admin, in the four contracts whose
`cancel_admin_change` asks no more than the signature of the address it is given. -/

namespace Governance
open Outcome Soroban Shared

variable {Addr : Type} [DecidableEq Addr] {self : Addr} {inv : Invocation Addr self}
  {s t : State Addr}

/-- The admin and the multisig contract may take a change back. -/
def custody (Addr : Type) (self : Addr) :
    Custody (State Addr) (Step Addr self) (PendingAdminChange Addr) where
  pending s := s.pendingAdmin
  privileged s step :=
    ∃ a, (s.admin = some a ∨ s.multisigAdmin = some a) ∧ step.1.auth a = true
  ripe pending step := pending.effectiveAt ≤ step.1.timestamp
  vetoes step := ∃ multisig, step.2 = .config (.cancelAdminChange multisig)

theorem execConfig_pendingAdmin {call : ConfigCall Addr} (h : execConfig inv call s = .ok t)
    {pending : PendingAdminChange Addr} (hpending : s.pendingAdmin = some pending)
    (hadmin : ∀ a, s.admin = some a → inv.auth a = false)
    (hearly : inv.timestamp < pending.effectiveAt)
    (hcall : ∀ multisig, call ≠ .cancelAdminChange multisig) : t.pendingAdmin = some pending := by
  cases call with
  | initializeGovernance _ _ _ _ _ _ _ _ =>
    simp only [execConfig, initializeGovernance, bind_eq_ok, require_eq_ok, pure_eq_ok] at h
    obtain ⟨-, -, -, -, -, -, rfl⟩ := h
    exact hpending
  | proposeAdminChange currentAdmin newAdmin =>
    simp only [execConfig, proposeAdminChange, bind_eq_ok, requireAuth_eq_ok, expect_eq_ok,
      require_eq_ok] at h
    obtain ⟨-, hauth, stored, hstored, -, rfl, -⟩ := h
    rw [hadmin stored hstored] at hauth
    cases hauth
  | acceptAdminChange newAdmin =>
    simp only [execConfig, acceptAdminChange, bind_eq_ok, expect_eq_ok, require_eq_ok] at h
    obtain ⟨-, -, found, hfound, -, -, -, hripe, -⟩ := h
    obtain rfl := Option.some.inj (hpending.symm.trans hfound)
    omega
  | cancelAdminChange multisig => exact absurd rfl (hcall multisig)
  | setTimelock timelock =>
    simp only [execConfig, setTimelock, bind_eq_ok, pure_eq_ok] at h
    obtain ⟨-, -, -, -, rfl⟩ := h
    exact hpending
  | addAllowedCall admin target function =>
    simp only [execConfig, addAllowedCall, bind_eq_ok, pure_eq_ok] at h
    obtain ⟨-, -, rfl⟩ := h
    exact hpending
  | setTemplatesContract templatesContract =>
    simp only [execConfig, setTemplatesContract, bind_eq_ok, pure_eq_ok] at h
    obtain ⟨-, -, -, -, rfl⟩ := h
    exact hpending
  | setStakingContract admin stakingContract =>
    simp only [execConfig, setStakingContract, bind_eq_ok, pure_eq_ok] at h
    obtain ⟨-, -, rfl⟩ := h
    exact hpending
  | setMultisigAdmin admin multisigAdmin =>
    simp only [execConfig, setMultisigAdmin, bind_eq_ok, pure_eq_ok] at h
    obtain ⟨-, -, rfl⟩ := h
    exact hpending

/-- Only the configuration calls touch the pending change. -/
theorem exec_pendingAdmin {call : Call Addr} (h : exec inv call s = .ok t)
    (hcall : ∀ config, call ≠ .config config) : t.pendingAdmin = s.pendingAdmin := by
  cases exec_effect h with
  | initialized => exact absurd rfl (hcall _)
  | configured => exact absurd rfl (hcall _)
  | created _ _ _ _ _ _ _ eq => rw [eq]; rfl
  | voted _ _ _ _ _ _ _ _ _ eq => rw [eq]; rfl
  | failed _ _ _ _ _ eq => rw [eq]; rfl
  | queued _ _ _ _ _ _ _ _ _ eq => rw [eq]; rfl
  | enacted _ _ _ _ _ _ _ eq => rw [eq]; rfl
  | enactedQueued _ _ _ _ _ _ _ eq => rw [eq]; rfl
  | cancelled _ _ _ _ _ _ _ _ eq => rw [eq]; rfl

theorem unvetoed_iff (steps : List (Step Addr self)) :
    (custody Addr self).Unvetoed (machine self) (deployed Addr) steps ↔
      (custody Addr self).Respected (machine self) (deployed Addr) steps := by
  apply Custody.unvetoed_iff
  · intro s step t hx hveto
    obtain ⟨inv, call⟩ := step
    obtain ⟨multisig, rfl⟩ := hveto
    have h : cancelAdminChange inv s multisig = .ok t := hx
    simp only [cancelAdminChange, bind_eq_ok, pure_eq_ok] at h
    obtain ⟨-, -, -, -, rfl⟩ := h
    rfl
  · intro s step t pending hx hpending houtside hveto
    obtain ⟨inv, call⟩ := step
    obtain ⟨hforeign, hearly⟩ := houtside
    have h : exec inv call s = .ok t := hx
    by_cases hconfig : ∃ config, call = .config config
    · obtain ⟨config, rfl⟩ := hconfig
      apply execConfig_pendingAdmin h hpending
      · intro a ha
        exact Bool.eq_false_iff.mpr fun hauth => hforeign ⟨a, .inl ha, hauth⟩
      · exact not_le.mp hearly
      · intro multisig hcall
        exact hveto ⟨multisig, by rw [hcall]⟩
    · rw [← hpending]
      exact exec_pendingAdmin h fun config hcall => hconfig ⟨config, hcall⟩

end Governance

namespace Staking
open Outcome Soroban Shared

variable {Addr : Type} [DecidableEq Addr] {self : Addr} {inv : Invocation Addr self}
  {checksum : ℕ → ℤ → Hash} {s t : State Addr}

/-- The admin may take a change back; no multisig is configured. -/
def custody (Addr : Type) (self : Addr) :
    Custody (State Addr) (Step Addr self) (PendingAdminChange Addr) where
  pending s := s.config.pendingAdmin
  privileged s step := ∃ a, s.config.admin = some a ∧ step.1.auth a = true
  ripe pending step := pending.effectiveAt ≤ step.1.timestamp
  vetoes step := ∃ multisig, step.2 = .config (.cancelAdminChange multisig)

theorem execConfig_pendingAdmin {call : ConfigCall Addr} {c c' : Config Addr}
    (h : execConfig inv call c = .ok c') {pending : PendingAdminChange Addr}
    (hpending : c.pendingAdmin = some pending)
    (hadmin : ∀ a, c.admin = some a → inv.auth a = false)
    (hearly : inv.timestamp < pending.effectiveAt)
    (hcall : ∀ multisig, call ≠ .cancelAdminChange multisig) : c'.pendingAdmin = some pending := by
  cases call with
  | initializeStaking admin mntToken guardian =>
    simp only [execConfig, initializeStaking, bind_eq_ok, require_eq_ok, pure_eq_ok] at h
    obtain ⟨-, -, rfl⟩ := h
    exact hpending
  | proposeAdminChange currentAdmin newAdmin =>
    simp only [execConfig, proposeAdminChange, requireAdmin, bind_eq_ok, requireAuth_eq_ok,
      expect_eq_ok, require_eq_ok] at h
    obtain ⟨-, ⟨-, hauth, stored, hstored, rfl⟩, -⟩ := h
    rw [hadmin stored hstored] at hauth
    cases hauth
  | acceptAdminChange newAdmin =>
    simp only [execConfig, acceptAdminChange, bind_eq_ok, expect_eq_ok, require_eq_ok] at h
    obtain ⟨-, -, found, hfound, -, -, -, hripe, -⟩ := h
    obtain rfl := Option.some.inj (hpending.symm.trans hfound)
    omega
  | cancelAdminChange multisig => exact absurd rfl (hcall multisig)
  | setPauseGuardian guardian =>
    simp only [execConfig, setPauseGuardian, bind_eq_ok, pure_eq_ok] at h
    obtain ⟨-, -, rfl⟩ := h
    exact hpending
  | setAnomalyDetector detector =>
    simp only [execConfig, setAnomalyDetector, bind_eq_ok, pure_eq_ok] at h
    obtain ⟨-, -, rfl⟩ := h
    exact hpending
  | setBypassAnomalyCheck bypass =>
    simp only [execConfig, setBypassAnomalyCheck, bind_eq_ok, pure_eq_ok] at h
    obtain ⟨-, -, rfl⟩ := h
    exact hpending
  | setTreasuryContract admin treasury =>
    simp only [execConfig, setTreasuryContract, bind_eq_ok, pure_eq_ok] at h
    obtain ⟨-, -, rfl⟩ := h
    exact hpending
  | setReputationContract reputation =>
    simp only [execConfig, setReputationContract, bind_eq_ok, pure_eq_ok] at h
    obtain ⟨-, -, rfl⟩ := h
    exact hpending
  | setSessionRegistryContract registry =>
    simp only [execConfig, setSessionRegistryContract, bind_eq_ok, pure_eq_ok] at h
    obtain ⟨-, -, rfl⟩ := h
    exact hpending
  | setHealthDashboard dashboard =>
    simp only [execConfig, setHealthDashboard, bind_eq_ok, pure_eq_ok] at h
    obtain ⟨-, -, rfl⟩ := h
    exact hpending
  | setTierRequirements admin requirements =>
    simp only [execConfig, setTierRequirements, bind_eq_ok, pure_eq_ok] at h
    obtain ⟨-, -, -, -, -, -, rfl⟩ := h
    exact hpending

/-- Only the configuration calls touch the configuration. -/
theorem exec_config {call : Call Addr} (h : exec checksum inv call s = .ok t)
    (hcall : ∀ config, call ≠ .config config) : t.config = s.config := by
  cases call with
  | config call => exact absurd rfl (hcall call)
  | recovery call =>
    simp only [exec, bind_eq_ok, pure_eq_ok] at h
    obtain ⟨-, -, rfl⟩ := h
    rfl
  | setNextDistributionAt admin timestamp =>
    simp only [exec, bind_eq_ok, pure_eq_ok] at h
    obtain ⟨-, -, rfl⟩ := h
    rfl
  | migrateStakers =>
    simp only [exec, bind_eq_ok, pure_eq_ok] at h
    obtain ⟨-, -, rfl⟩ := h
    rfl
  | rollbackToSnapshot proposalId =>
    simp only [exec, bind_eq_ok, pure_eq_ok] at h
    obtain ⟨-, -, rfl⟩ := h
    rfl
  | stake mentor amount days =>
    obtain ⟨record, mnt, heffect⟩ := stake_effect h
    exact heffect.config
  | unstake mentor =>
    obtain ⟨record, penalty, settled, mnt, heffect⟩ := unstake_effect h
    exact heffect.config
  | receiveTreasuryDistribution id treasury token amount time =>
    exact (receiveTreasuryDistribution_effect h).config
  | distributeRevenue token amount =>
    simp only [exec, distributeRevenue, bind_eq_ok, requireNonNegative_eq_ok] at h
    obtain ⟨-, hnonneg, -, -, h⟩ := h
    exact (closeEpoch_effect hnonneg h).config
  | distributeRevenueBatch token amount offset limit =>
    exact (distributeRevenueBatch_effect h).config
  | claimRewards staker token =>
    obtain ⟨settled, scan, claim, heffect⟩ := claimRewards_effect h
    exact heffect.config
  | addToLpRewardPool amount => exact (addToLpRewardPool_effect h).config
  | registerLpPosition lpHolder lpTokenContract lpAmount tokenA tokenB =>
    simp only [exec, registerLpPosition, bind_eq_ok, pure_eq_ok] at h
    obtain ⟨-, -, -, -, rfl⟩ := h
    rfl
  | claimLpRewards lpHolder token =>
    obtain ⟨reward, heffect⟩ := claimLpRewards_effect h
    exact heffect.config
  | deposit token source amount =>
    simp only [exec, bind_eq_ok, pure_eq_ok] at h
    obtain ⟨-, -, -, -, rfl⟩ := h
    rfl
  | tokenActivity token holder balance =>
    simp only [exec, bind_eq_ok, pure_eq_ok] at h
    obtain ⟨-, -, rfl⟩ := h
    rfl

theorem unvetoed_iff (checksum : ℕ → ℤ → Hash) (balance : Addr → Addr → ℕ)
    (steps : List (Step Addr self)) :
    (custody Addr self).Unvetoed (machine self checksum) (deployed balance) steps ↔
      (custody Addr self).Respected (machine self checksum) (deployed balance) steps := by
  apply Custody.unvetoed_iff
  · intro s step t hx hveto
    obtain ⟨inv, call⟩ := step
    obtain ⟨multisig, rfl⟩ := hveto
    have h : exec checksum inv (.config (.cancelAdminChange multisig)) s = .ok t := hx
    simp only [exec, execConfig, cancelAdminChange, bind_eq_ok, pure_eq_ok] at h
    obtain ⟨c, ⟨-, -, -, -, rfl⟩, rfl⟩ := h
    rfl
  · intro s step t pending hx hpending houtside hveto
    obtain ⟨inv, call⟩ := step
    obtain ⟨hforeign, hearly⟩ := houtside
    have h : exec checksum inv call s = .ok t := hx
    by_cases hconfig : ∃ config, call = .config config
    · obtain ⟨config, rfl⟩ := hconfig
      simp only [exec, bind_eq_ok, pure_eq_ok] at h
      obtain ⟨c, hc, rfl⟩ := h
      apply execConfig_pendingAdmin hc hpending
      · intro a ha
        exact Bool.eq_false_iff.mpr fun hauth => hforeign ⟨a, ha, hauth⟩
      · exact not_le.mp hearly
      · intro multisig hcall
        exact hveto ⟨multisig, by rw [hcall]⟩
    · have hkept := exec_config h fun config hcall => hconfig ⟨config, hcall⟩
      show t.config.pendingAdmin = some pending
      rw [hkept]
      exact hpending

end Staking

namespace Treasury
open Outcome Soroban Shared

variable {Addr : Type} [DecidableEq Addr] {self : Addr}

/-- The admin and the timelock, which acts for the multisig, may take a change back. -/
def custody (Addr : Type) (self : Addr) :
    Custody (State Addr) (Step Addr self) (AdminTransfer Addr) where
  pending s := s.pendingAdminTransfer
  privileged s step := ∃ a, (s.admin = some a ∨ s.timelock = some a) ∧ step.1.auth a = true
  ripe pending step := pending.effectiveAt ≤ step.1.timestamp
  vetoes step := ∃ multisig, step.2 = .cancelAdminChange multisig

theorem unvetoed_iff (balance : Addr → Addr → ℕ) (steps : List (Step Addr self)) :
    (custody Addr self).Unvetoed (machine self) (deployed balance) steps ↔
      (custody Addr self).Respected (machine self) (deployed balance) steps := by
  apply Custody.unvetoed_iff
  · intro s step t hx hveto
    obtain ⟨inv, call⟩ := step
    obtain ⟨multisig, rfl⟩ := hveto
    have h : cancelAdminChange inv s multisig = .ok t := hx
    simp only [cancelAdminChange, bind_eq_ok, pure_eq_ok] at h
    obtain ⟨-, -, -, -, rfl⟩ := h
    rfl
  · intro s step t pending hx hpending houtside hveto
    obtain ⟨inv, call⟩ := step
    obtain ⟨hforeign, hearly⟩ := houtside
    have h : exec inv call s = .ok t := hx
    cases exec_effect h with
    | initialized _ eq => rw [eq]; exact hpending
    | adminProposed auth stored => exact absurd ⟨_, .inl stored, auth⟩ hforeign
    | adminAccepted found auth hfound named ripe =>
      obtain rfl := Option.some.inj (hpending.symm.trans hfound)
      exact absurd ripe hearly
    | adminCancelled => exact absurd ⟨_, rfl⟩ hveto
    | adminRevoked timelock stored auth => exact absurd ⟨timelock, .inr stored, auth⟩ hforeign
    | callerAdded _ _ _ eq => rw [eq]; exact hpending
    | configured _ eq => rw [eq]; exact hpending
    | allocated _ _ _ _ _ _ eq => rw [eq]; exact hpending
    | queued _ _ _ _ _ eq => rw [eq]; exact hpending
    | batched _ _ _ _ _ eq => rw [eq]; exact hpending
    | approved _ _ _ _ _ _ eq => rw [eq]; exact hpending
    | released _ _ _ _ _ _ eq => rw [eq]; exact hpending
    | distributed _ _ _ _ eq => rw [eq]; exact hpending

end Treasury

namespace Referral
open Outcome Soroban Shared

variable {Addr : Type} [DecidableEq Addr] {self : Addr}

/-- The admin may take a change back; no multisig is configured. -/
def custody (Addr : Type) (self : Addr) :
    Custody (State Addr) (Step Addr self) (PendingAdminChange Addr) where
  pending s := s.pendingAdmin
  privileged s step := ∃ a, s.admin = some a ∧ step.1.auth a = true
  ripe pending step := pending.effectiveAt ≤ step.1.timestamp
  vetoes step := ∃ multisig, step.2 = .cancelAdminChange multisig

theorem unvetoed_iff (steps : List (Step Addr self)) :
    (custody Addr self).Unvetoed (machine self) deployed steps ↔
      (custody Addr self).Respected (machine self) deployed steps := by
  apply Custody.unvetoed_iff
  · intro s step t hx hveto
    obtain ⟨inv, call⟩ := step
    obtain ⟨multisig, rfl⟩ := hveto
    have h : cancelAdminChange inv s multisig = .ok t := hx
    simp only [cancelAdminChange, bind_eq_ok, pure_eq_ok] at h
    obtain ⟨-, -, -, -, rfl⟩ := h
    rfl
  · intro s step t pending hx hpending houtside hveto
    obtain ⟨inv, call⟩ := step
    obtain ⟨hforeign, hearly⟩ := houtside
    have h : exec inv call s = .ok t := hx
    cases exec_effect h with
    | initialized _ eq => rw [eq]; exact hpending
    | adminProposed auth stored => exact absurd ⟨_, stored, auth⟩ hforeign
    | adminAccepted found auth hfound named ripe =>
      obtain rfl := Option.some.inj (hpending.symm.trans hfound)
      exact absurd ripe hearly
    | adminCancelled => exact absurd ⟨_, rfl⟩ hveto
    | configured _ _ _ _ _ eq => rw [eq]; exact hpending
    | booked eq => rw [eq]; exact hpending
    | claimed _ _ _ _ _ _ eq => rw [eq]; exact hpending
    | distributed _ _ eq => rw [eq]; exact hpending

end Referral

namespace AdminChange
open Soroban

/-- In the four contracts outsiders cannot take a pending change back exactly in the runs whose
cancellations come from the admin, or from the multisig where one is configured. -/
theorem unvetoed_iff_respected {Addr : Type} [DecidableEq Addr] (self : Addr) :
    (∀ steps : List (Governance.Step Addr self),
      (Governance.custody Addr self).Unvetoed (Governance.machine self)
          (Governance.deployed Addr) steps ↔
        (Governance.custody Addr self).Respected (Governance.machine self)
          (Governance.deployed Addr) steps) ∧
    (∀ (checksum : ℕ → ℤ → Hash) (balance : Addr → Addr → ℕ)
        (steps : List (Staking.Step Addr self)),
      (Staking.custody Addr self).Unvetoed (Staking.machine self checksum)
          (Staking.deployed balance) steps ↔
        (Staking.custody Addr self).Respected (Staking.machine self checksum)
          (Staking.deployed balance) steps) ∧
    (∀ (balance : Addr → Addr → ℕ) (steps : List (Treasury.Step Addr self)),
      (Treasury.custody Addr self).Unvetoed (Treasury.machine self)
          (Treasury.deployed balance) steps ↔
        (Treasury.custody Addr self).Respected (Treasury.machine self)
          (Treasury.deployed balance) steps) ∧
    (∀ steps : List (Referral.Step Addr self),
      (Referral.custody Addr self).Unvetoed (Referral.machine self) Referral.deployed steps ↔
        (Referral.custody Addr self).Respected (Referral.machine self) Referral.deployed
          steps) := by
  refine ⟨?_, ?_, ?_, ?_⟩
  · intro steps
    exact Governance.unvetoed_iff steps
  · intro checksum balance steps
    exact Staking.unvetoed_iff checksum balance steps
  · intro balance steps
    exact Treasury.unvetoed_iff balance steps
  · intro steps
    exact Referral.unvetoed_iff steps

/-- Account 9 signs, and nobody else. -/
def signedByOutsider (now : ℕ) : Env ℕ 0 where
  timestamp := now
  sequence := 0
  auth a := a == 9
  auth_home := rfl

def governanceProposed : List (Governance.Step ℕ 0) :=
  [(Governance.answered 100000,
      .config (.initializeGovernance 1 2 3 none none none none none)),
    (Governance.answered 100000, .config (.proposeAdminChange 1 4))]

def governanceVeto : Governance.Step ℕ 0 :=
  ({ Governance.answered 100001 with toEnv := signedByOutsider 100001 },
    .config (.cancelAdminChange 9))

def stakingProposed : List (Staking.Step ℕ 0) :=
  [(Staking.grantedByAll 100000, .config (.initializeStaking 1 2 none)),
    (Staking.grantedByAll 100000, .config (.proposeAdminChange 1 4))]

def stakingVeto : Staking.Step ℕ 0 :=
  ({ Staking.grantedByAll 100001 with toEnv := signedByOutsider 100001 },
    .config (.cancelAdminChange 9))

def treasuryProposed : List (Treasury.Step ℕ 0) :=
  [(Treasury.calm 100000, .initializeTreasury 1 2 3 none),
    (Treasury.calm 100000, .proposeAdminChange 1 4)]

def treasuryVeto : Treasury.Step ℕ 0 :=
  ({ Treasury.calm 100001 with toEnv := signedByOutsider 100001 }, .cancelAdminChange 9)

def referralProposed : List (Referral.Step ℕ 0) :=
  [(Referral.calm 100000, .initializeReferral 1 2 3),
    (Referral.calm 100000, .proposeAdminChange 1 4)]

def referralVeto : Referral.Step ℕ 0 :=
  ({ Referral.calm 100001 with toEnv := signedByOutsider 100001 }, .cancelAdminChange 9)

/-- In each of the four contracts account 9 takes back what the admin 1 proposed. -/
theorem outsider_cancels :
    ¬ (Governance.custody ℕ 0).Unvetoed (Governance.machine 0) (Governance.deployed ℕ)
      (governanceProposed ++ [governanceVeto]) ∧
    ¬ (Staking.custody ℕ 0).Unvetoed (Staking.machine 0 fun _ _ => 0)
      (Staking.deployed fun _ _ => 0) (stakingProposed ++ [stakingVeto]) ∧
    ¬ (Treasury.custody ℕ 0).Unvetoed (Treasury.machine 0) (Treasury.deployed fun _ _ => 0)
      (treasuryProposed ++ [treasuryVeto]) ∧
    ¬ (Referral.custody ℕ 0).Unvetoed (Referral.machine 0) Referral.deployed
      (referralProposed ++ [referralVeto]) := by
  refine ⟨?_, ?_, ?_, ?_⟩
  · apply Custody.not_unvetoed (p := ⟨4, 272800⟩) rfl
    · intro hprivileged
      obtain ⟨a, hadmin, hauth⟩ := hprivileged
      obtain rfl : a = 9 := eq_of_beq hauth
      exact absurd hadmin (by decide)
    · show ¬ 272800 ≤ 100001
      decide
    · rfl
  · apply Custody.not_unvetoed (p := ⟨4, 272800⟩) rfl
    · intro hprivileged
      obtain ⟨a, hadmin, hauth⟩ := hprivileged
      obtain rfl : a = 9 := eq_of_beq hauth
      exact absurd hadmin (by decide)
    · show ¬ 272800 ≤ 100001
      decide
    · rfl
  · apply Custody.not_unvetoed (p := ⟨4, 272800, .proposed⟩) rfl
    · intro hprivileged
      obtain ⟨a, hadmin, hauth⟩ := hprivileged
      obtain rfl : a = 9 := eq_of_beq hauth
      exact absurd hadmin (by decide)
    · show ¬ 272800 ≤ 100001
      decide
    · rfl
  · apply Custody.not_unvetoed (p := ⟨4, 272800⟩) rfl
    · intro hprivileged
      obtain ⟨a, hadmin, hauth⟩ := hprivileged
      obtain rfl : a = 9 := eq_of_beq hauth
      exact absurd hadmin (by decide)
    · show ¬ 272800 ≤ 100001
      decide
    · rfl

end AdminChange
