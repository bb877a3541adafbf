import MentorsMind.KeyManagement.Contract
import MentorsMind.Lib.Table

/-! What a successful call does, said once, and how the records of keys are kept by it. -/
namespace KeyManagement
open Outcome Soroban Shared

variable {Addr : Type} [DecidableEq Addr] {sha256 : List UInt8 → Hash} {now : ℕ}
  {s t : State Addr} {account : Addr} {key : NewKey} {call : Call Addr}

omit [DecidableEq Addr] in
/-- The version that a registration for the account would get. -/
def State.nextVersion (s : State Addr) (account : Addr) : ℕ :=
  saturatingAddU32 (s.currentVersion account) keyVersionBump

/-- What a registration writes. -/
def State.install (s : State Addr) (now : ℕ) (account : Addr) (key : NewKey) : State Addr :=
  { s with
    keyRecord := Function.update s.keyRecord (account, s.nextVersion account)
      (some (key.record account (s.nextVersion account) now))
    currentVersion := Function.update s.currentVersion account (s.nextVersion account) }

@[simp] theorem install_keyRecord : (s.install now account key).keyRecord =
    Function.update s.keyRecord (account, s.nextVersion account)
      (some (key.record account (s.nextVersion account) now)) := rfl

@[simp] theorem install_currentVersion : (s.install now account key).currentVersion =
    Function.update s.currentVersion account (s.nextVersion account) := rfl

/-- The key that was registered is the current one. -/
theorem install_current : (s.install now account key).keyRecord
    (account, (s.install now account key).currentVersion account) =
      some (key.record account (s.nextVersion account) now) := by
  rw [install_currentVersion, install_keyRecord, Function.update_self, Function.update_self]

omit [DecidableEq Addr] in
/-- The session still takes approvals, and can still be executed. -/
def SocialRecoverySession.Open (session : SocialRecoverySession Addr) (now : ℕ) : Prop :=
  session.executed = false ∧ now ≤ session.expiresAt

inductive Effect (sha256 : List UInt8 → Hash) (now : ℕ) (s t : State Addr) :
    Call Addr → Prop where
  | registered (account : Addr) (key : NewKey) (eq : t = s.install now account key) :
      Effect sha256 now s t (.registerKey account key)
  | proposed {account newScheme newPubkeyCommitment newDerivationPathHash}
      (eq : t = { s with
        rotationProposal := Function.update s.rotationProposal account (some ⟨account,
          saturatingAddU32 (s.currentVersion account) 1, newScheme, newPubkeyCommitment,
          newDerivationPathHash, now, saturatingAddU64 now keyRotationOverlapSecs, false⟩) }) :
      Effect sha256 now s t (.proposeKeyRotation account newScheme newPubkeyCommitment
        newDerivationPathHash)
  | rotated {account : Addr} (p : KeyRotationProposal Addr)
      (found : s.rotationProposal account = some p) (pending : p.executed = false)
      (eq : t = { s.install now account p.key with
        rotationProposal := Function.update s.rotationProposal account
          (some { p with executed := true }) }) :
      Effect sha256 now s t (.executeKeyRotation account)
  | revoked {account : Addr} {version : ℕ} {reason : String} (record : KeyRecord Addr)
      (found : s.keyRecord (account, version) = some record) (standing : record.revoked = false)
      (eq : t = { s with
        keyRecord := Function.update s.keyRecord (account, version)
          (some { record with revoked := true, revokedAt := now })
        revocationRecord := Function.update s.revocationRecord account
          (some ⟨account, version, reason, now,
            saturatingAddU64 now revocationCooldownSecs, true⟩) }) :
      Effect sha256 now s t (.emergencyRevokeKey account version reason)
  | initiated {account : Addr} {newKeyCommitment : Hash}
      (eq : t = { s with
        session := Function.update s.session (sessionIdOf sha256 newKeyCommitment now)
          (some (.opened account newKeyCommitment now)) }) :
      Effect sha256 now s t (.initiateSocialRecovery account newKeyCommitment)
  | approved {guardian : Addr} {sessionId : Hash} (session : SocialRecoverySession Addr)
      (found : s.session sessionId = some session) (isOpen : session.Open now)
      (registered : guardian ∈ s.guardians session.account)
      (first : s.approved (sessionId, guardian) = false)
      (eq : t = { s with
        approved := Function.update s.approved (sessionId, guardian) true
        session := Function.update s.session sessionId (some { session with
          approvalsCollected := saturatingAddU32 session.approvalsCollected 1 }) }) :
      Effect sha256 now s t (.approveSocialRecovery guardian sessionId)
  | recovered {sessionId derivationPathHash : Hash} (session : SocialRecoverySession Addr)
      (found : s.session sessionId = some session) (isOpen : session.Open now)
      (quorum : session.quorum ≤ session.approvalsCollected)
      (eq : t = { s.install now session.account (session.key derivationPathHash) with
        session := Function.update s.session sessionId (some { session with executed := true }) }) :
      Effect sha256 now s t (.executeSocialRecovery sessionId derivationPathHash)
  | guardianAdded {account guardian : Addr}
      (room : (s.guardians account).length < maxGuardians)
      (fresh : guardian ∉ s.guardians account)
      (eq : t = { s with
        guardians := Function.update s.guardians account (s.guardians account ++ [guardian]) }) :
      Effect sha256 now s t (.registerGuardian account guardian)

theorem registerKey_eq_ok {r : State Addr × KeyRecord Addr} :
    registerKey now s account key = .ok r ↔ isSchemeSupported key.scheme = true ∧
      (s.install now account key, key.record account (s.nextVersion account) now) = r := by
  simp only [registerKey, bind_eq_ok, require_eq_ok, pure_eq_ok, exists_const]
  rfl

omit [DecidableEq Addr] in
theorem getOpenSession_eq_ok {sessionId : Hash} {session : SocialRecoverySession Addr} :
    getOpenSession now s sessionId = .ok session ↔
      s.session sessionId = some session ∧ session.Open now := by
  simp only [getOpenSession, bind_eq_ok, expect_eq_ok, require_eq_ok, pure_eq_ok, exists_const,
    SocialRecoverySession.Open]
  constructor
  · rintro ⟨found, hfound, hexecuted, hexpires, rfl⟩
    exact ⟨hfound, hexecuted, hexpires⟩
  · rintro ⟨hfound, hexecuted, hexpires⟩
    exact ⟨session, hfound, hexecuted, hexpires, rfl⟩

theorem exec_effect (hx : exec sha256 now call s = .ok t) : Effect sha256 now s t call := by
  cases call with
  | registerKey account key =>
    simp only [exec, map_eq_ok, registerKey_eq_ok] at hx
    obtain ⟨-, ⟨-, rfl⟩, rfl⟩ := hx
    exact .registered account key rfl
  | proposeKeyRotation account newScheme newPubkeyCommitment newDerivationPathHash =>
    simp only [exec, map_eq_ok, proposeKeyRotation, bind_eq_ok, pure_eq_ok] at hx
    obtain ⟨-, ⟨-, -, rfl⟩, rfl⟩ := hx
    exact .proposed rfl
  | executeKeyRotation account =>
    simp only [exec, executeKeyRotation, bind_eq_ok, expect_eq_ok, require_eq_ok,
      registerKey_eq_ok, pure_eq_ok] at hx
    obtain ⟨p, hfound, -, hpending, -, -, -, ⟨-, rfl⟩, rfl⟩ := hx
    exact .rotated p hfound hpending rfl
  | emergencyRevokeKey account version reason =>
    simp only [exec, emergencyRevokeKey, bind_eq_ok, expect_eq_ok, require_eq_ok,
      pure_eq_ok] at hx
    obtain ⟨record, hfound, -, hstanding, rfl⟩ := hx
    exact .revoked record hfound hstanding rfl
  | initiateSocialRecovery account newKeyCommitment =>
    rw [← pure_eq_ok.mp hx]
    exact .initiated rfl
  | approveSocialRecovery guardian sessionId =>
    simp only [exec, map_eq_ok, approveSocialRecovery, bind_eq_ok, getOpenSession_eq_ok,
      require_eq_ok, pure_eq_ok, isRegisteredGuardian, decide_eq_true_eq] at hx
    obtain ⟨-, ⟨session, ⟨hfound, hopen⟩, -, hregistered, -, hfirst, rfl⟩, rfl⟩ := hx
    exact .approved session hfound hopen hregistered hfirst rfl
  | executeSocialRecovery sessionId derivationPathHash =>
    simp only [exec, executeSocialRecovery, bind_eq_ok, getOpenSession_eq_ok, require_eq_ok,
      registerKey_eq_ok, pure_eq_ok] at hx
    obtain ⟨session, ⟨hfound, hopen⟩, -, hquorum, -, ⟨-, rfl⟩, rfl⟩ := hx
    exact .recovered session hfound hopen hquorum rfl
  | registerGuardian account guardian =>
    simp only [exec, registerGuardian, bind_eq_ok, require_eq_ok, pure_eq_ok] at hx
    obtain ⟨-, hroom, -, hfresh, rfl⟩ := hx
    exact .guardianAdded hroom hfresh rfl

section Keys

omit [DecidableEq Addr] in
/-- The account and the key that the call makes the current one of the account, if it
succeeds. -/
def Call.installs (s : State Addr) : Call Addr → Option (Addr × NewKey)
  | .registerKey account key => some (account, key)
  | .executeKeyRotation account =>
      (s.rotationProposal account).map fun proposal => (account, proposal.key)
  | .executeSocialRecovery sessionId derivationPathHash =>
      (s.session sessionId).map fun session => (session.account, session.key derivationPathHash)
  | _ => none

/-- What a call does to the keys of the accounts and to the records of revocations. -/
inductive KeyTurn (now : ℕ) (s t : State Addr) (call : Call Addr) : Prop where
  | installed (account : Addr) (key : NewKey) (installs : call.installs s = some (account, key))
      (records : t.keyRecord = (s.install now account key).keyRecord)
      (versions : t.currentVersion = (s.install now account key).currentVersion)
      (revocations : t.revocationRecord = s.revocationRecord)
  | revoked (account : Addr) (version : ℕ) (reason : String) (record : KeyRecord Addr)
      (isCall : call = .emergencyRevokeKey account version reason)
      (found : s.keyRecord (account, version) = some record) (standing : record.revoked = false)
      (records : t.keyRecord = Function.update s.keyRecord (account, version)
        (some { record with revoked := true, revokedAt := now }))
      (versions : t.currentVersion = s.currentVersion)
      (revocations : t.revocationRecord = Function.update s.revocationRecord account
        (some ⟨account, version, reason, now, saturatingAddU64 now revocationCooldownSecs, true⟩))
  | kept (installs : call.installs s = none)
      (noRevocation : ∀ account version reason, call ≠ .emergencyRevokeKey account version reason)
      (records : t.keyRecord = s.keyRecord) (versions : t.currentVersion = s.currentVersion)
      (revocations : t.revocationRecord = s.revocationRecord)

theorem Effect.keyTurn (h : Effect sha256 now s t call) : KeyTurn now s t call := by
  cases h with
  | registered account key eq =>
    rw [eq]
    exact .installed account key rfl rfl rfl rfl
  | proposed eq =>
    rw [eq]
    exact .kept rfl (by simp) rfl rfl rfl
  | @rotated account p found pending eq =>
    rw [eq]
    refine .installed account p.key ?_ rfl rfl rfl
    rw [Call.installs, found]
    rfl
  | @revoked account version reason record found standing eq =>
    rw [eq]
    exact .revoked account version reason record rfl found standing rfl rfl rfl
  | initiated eq =>
    rw [eq]
    exact .kept rfl (by simp) rfl rfl rfl
  | approved session found isOpen registered first eq =>
    rw [eq]
    exact .kept rfl (by simp) rfl rfl rfl
  | @recovered sessionId derivationPathHash session found isOpen quorum eq =>
    rw [eq]
    refine .installed session.account (session.key derivationPathHash) ?_ rfl rfl rfl
    rw [Call.installs, found]
    rfl
  | guardianAdded room fresh eq =>
    rw [eq]
    exact .kept rfl (by simp) rfl rfl rfl

/-- The records of an account are those of its versions up to the current one. -/
structure Versioned (s : State Addr) : Prop where
  fits : ∀ account, s.currentVersion account ≤ maxU32
  bound : ∀ key record, s.keyRecord key = some record →
    record.version = key.2 ∧ 0 < key.2 ∧ key.2 ≤ s.currentVersion key.1
  current : ∀ account, 0 < s.currentVersion account →
    ∃ record, s.keyRecord (account, s.currentVersion account) = some record

omit [DecidableEq Addr] in
theorem versioned_deployed : Versioned (deployed Addr) where
  fits _ := Nat.zero_le _
  bound key record h := by cases h
  current account h := absurd h (lt_irrefl 0)

omit [DecidableEq Addr] in
theorem nextVersion_eq (s : State Addr) (account : Addr) :
    s.nextVersion account = min (s.currentVersion account + 1) maxU32 := rfl

omit [DecidableEq Addr] in
theorem le_nextVersion (hs : Versioned s) (account : Addr) :
    s.currentVersion account ≤ s.nextVersion account := by
  have hfits := hs.fits account
  rw [nextVersion_eq]
  omega

omit [DecidableEq Addr] in
theorem nextVersion_pos (s : State Addr) (account : Addr) : 0 < s.nextVersion account := by
  rw [nextVersion_eq, maxU32]
  omega

omit [DecidableEq Addr] in
/-- A registration writes over a record only when the versions have come to their end. -/
theorem nextVersion_stored (hs : Versioned s) {record : KeyRecord Addr}
    (h : s.keyRecord (account, s.nextVersion account) = some record) :
    s.currentVersion account = maxU32 ∧ s.nextVersion account = maxU32 := by
  obtain ⟨-, -, hle⟩ := hs.bound _ record h
  have hle' : s.nextVersion account ≤ s.currentVersion account := hle
  have hfits := hs.fits account
  rw [nextVersion_eq] at hle' ⊢
  omega

theorem KeyTurn.versioned (h : KeyTurn now s t call) (hs : Versioned s) : Versioned t := by
  cases h with
  | installed account key installs records versions revocations =>
    have hcurrent : ∀ other, s.currentVersion other ≤ t.currentVersion other := by
      intro other
      rw [versions, install_currentVersion, Function.update_apply]
      split_ifs with hother
      · rw [hother]
        exact le_nextVersion hs account
      · exact le_rfl
    constructor
    · intro other
      rw [versions, install_currentVersion, Function.update_apply]
      split_ifs
      · rw [nextVersion_eq]
        exact min_le_right _ _
      · exact hs.fits other
    · rw [records, install_keyRecord]
      apply Table.forall_update
      · intro other record hrecord
        obtain ⟨hversion, hpos, hle⟩ := hs.bound other record hrecord
        exact ⟨hversion, hpos, hle.trans (hcurrent other.1)⟩
      · refine ⟨rfl, nextVersion_pos s account, ?_⟩
        rw [versions, install_currentVersion, Function.update_self]
    · intro other hpos
      rw [versions, install_currentVersion] at hpos ⊢
      rw [records, install_keyRecord]
      by_cases hother : other = account
      · subst hother
        rw [Function.update_self, Function.update_self]
        exact ⟨_, rfl⟩
      · rw [Function.update_of_ne hother] at hpos ⊢
        rw [Function.update_of_ne (by simp [hother])]
        exact hs.current other hpos
  | revoked account version reason record isCall found standing records versions revocations =>
    constructor
    · rw [versions]
      exact hs.fits
    · rw [records, versions]
      exact Table.forall_update hs.bound (hs.bound _ record found)
    · intro other hpos
      rw [versions] at hpos ⊢
      rw [records]
      by_cases hother : (other, s.currentVersion other) = (account, version)
      · rw [hother, Function.update_self]
        exact ⟨_, rfl⟩
      · rw [Function.update_of_ne hother]
        exact hs.current other hpos
  | kept installs noRevocation records versions revocations =>
    constructor
    · rw [versions]
      exact hs.fits
    · rw [records, versions]
      exact hs.bound
    · rw [records, versions]
      exact hs.current

theorem run_versioned (sha256 : List UInt8 → Hash) (steps : List (Step Addr)) :
    Versioned (reached sha256 steps) :=
  Machine.run_invariant versioned_deployed
    (fun _ _ _ hs hx => (exec_effect hx).keyTurn.versioned hs) steps

end Keys

end KeyManagement
