import MentorsMind.KeyManagement.Effects

/-! The cool-down after an emergency revocation. The functions that register a key do not look at
revocations, so that it holds in exactly the runs that keep to it on their own. -/
namespace KeyManagement
open Outcome Soroban Shared

variable {Addr : Type} [DecidableEq Addr] {sha256 : List UInt8 → Hash} {now : ℕ}
  {s t : State Addr} {account : Addr} {key : NewKey} {call : Call Addr}
  {steps : List (Step Addr)}

/-- The ledger's clock does not go back. -/
def ClockForward (steps : List (Step Addr)) : Prop :=
  steps.Pairwise fun earlier later => earlier.1 ≤ later.1

/-- The record of the current version, if there is one. -/
def getCurrentKey (s : State Addr) (account : Addr) : Option (KeyRecord Addr) :=
  let version := s.currentVersion account
  if version = 0 then none else s.keyRecord (account, version)

/-- No key becomes the current one of an account within the cool-down after a revocation. -/
def CooledDown (sha256 : List UInt8 → Hash) (steps : List (Step Addr)) : Prop :=
  ∀ early pre account version reason key revokedAt step t u,
    (machine sha256).Executes (deployed Addr) steps early
      (revokedAt, .emergencyRevokeKey account version reason) u →
    (machine sha256).Executes (deployed Addr) steps pre step t →
    early.length < pre.length → step.2.installs (reached sha256 pre) = some (account, key) →
    revokedAt + revocationCooldownSecs ≤ step.1

/-- From its revocation on, a version is never the current key of its account and unrevoked. -/
def StaysRevoked (sha256 : List UInt8 → Hash) (steps : List (Step Addr)) : Prop :=
  ∀ early account version reason revokedAt u later record,
    (machine sha256).Executes (deployed Addr) steps early
      (revokedAt, .emergencyRevokeKey account version reason) u →
    early ++ [(revokedAt, .emergencyRevokeKey account version reason)] <+: later →
    later <+: steps → getCurrentKey (reached sha256 later) account = some record →
    record.version = version → record.revoked = true

/-- The last revocation for the account is over, and the last of all versions is not revoked. -/
def MayInstall (now : ℕ) (s : State Addr) (account : Addr) : Prop :=
  (∀ rev, s.revocationRecord account = some rev →
    rev.revokedAt + revocationCooldownSecs ≤ now) ∧
  ∀ record, s.currentVersion account = maxU32 → s.keyRecord (account, maxU32) = some record →
    record.revoked = false

section Revocations

/-- What is stored as revoked was revoked by a call, at the time that is stored. -/
structure Revoked (sha256 : List UInt8 → Hash) (pre : List (Step Addr)) (s : State Addr) :
    Prop where
  record : ∀ key record, s.keyRecord key = some record → record.revoked = true →
    ∃ early reason revokedAt u, (machine sha256).Executes (deployed Addr) pre early
      (revokedAt, .emergencyRevokeKey key.1 key.2 reason) u
  revocation : ∀ account rev, s.revocationRecord account = some rev →
    ∃ early version reason u, (machine sha256).Executes (deployed Addr) pre early
      (rev.revokedAt, .emergencyRevokeKey account version reason) u

theorem KeyTurn.revoked_snoc {pre : List (Step Addr)} {step : Step Addr}
    (h : KeyTurn step.1 (reached sha256 pre) t step.2)
    (hx : (machine sha256).exec step (reached sha256 pre) = .ok t)
    (hr : Revoked sha256 pre (reached sha256 pre)) : Revoked sha256 (pre ++ [step]) t := by
  have hrecord : ∀ key record, (reached sha256 pre).keyRecord key = some record →
      record.revoked = true → ∃ early reason revokedAt u,
        (machine sha256).Executes (deployed Addr) (pre ++ [step]) early
          (revokedAt, .emergencyRevokeKey key.1 key.2 reason) u := by
    intro key record hfound hrevoked
    obtain ⟨early, reason, revokedAt, u, hearly⟩ := hr.record key record hfound hrevoked
    exact ⟨early, reason, revokedAt, u, hearly.append [step]⟩
  have hrevocation : ∀ account rev, (reached sha256 pre).revocationRecord account = some rev →
      ∃ early version reason u,
        (machine sha256).Executes (deployed Addr) (pre ++ [step]) early
          (rev.revokedAt, .emergencyRevokeKey account version reason) u := by
    intro account rev hfound
    obtain ⟨early, version, reason, u, hearly⟩ := hr.revocation account rev hfound
    exact ⟨early, version, reason, u, hearly.append [step]⟩
  cases h with
  | installed account key installs records versions revocations =>
    constructor
    · rw [records, install_keyRecord]
      apply Table.forall_update hrecord
      intro hrevoked
      exact absurd hrevoked Bool.false_ne_true
    · rw [revocations]
      exact hrevocation
  | revoked account version reason record isCall found standing records versions revocations =>
    have hnow : (machine sha256).Executes (deployed Addr) (pre ++ [step]) pre
        (step.1, .emergencyRevokeKey account version reason) t := by
      rw [← isCall]
      exact Machine.executes_snoc hx
    constructor
    · rw [records]
      exact Table.forall_update hrecord fun _ => ⟨pre, reason, step.1, t, hnow⟩
    · rw [revocations]
      exact Table.forall_update hrevocation ⟨pre, version, reason, t, hnow⟩
  | kept installs noRevocation records versions revocations =>
    constructor
    · rw [records]
      exact hrecord
    · rw [revocations]
      exact hrevocation

theorem run_revoked (sha256 : List UInt8 → Hash) (steps : List (Step Addr)) :
    Revoked sha256 steps (reached sha256 steps) := by
  refine Machine.run_history (P := Revoked sha256) ?_ ?_ ?_ steps
  · constructor
    · intro key record hfound
      cases hfound
    · intro account rev hfound
      cases hfound
  · intro pre step t hr hx
    exact (exec_effect hx).keyTurn.revoked_snoc hx hr
  · intro pre step e hr herror
    constructor
    · intro key record hfound hrevoked
      obtain ⟨early, reason, revokedAt, u, hearly⟩ := hr.record key record hfound hrevoked
      exact ⟨early, reason, revokedAt, u, hearly.append [step]⟩
    · intro account rev hfound
      obtain ⟨early, version, reason, u, hearly⟩ := hr.revocation account rev hfound
      exact ⟨early, version, reason, u, hearly.append [step]⟩

/-- What a call that revokes leaves. -/
theorem exec_revoke {version : ℕ} {reason : String}
    (hx : (machine sha256).exec (now, .emergencyRevokeKey account version reason) s = .ok t) :
    (∃ rev, t.revocationRecord account = some rev ∧ rev.revokedAt = now) ∧
      ∃ record, t.keyRecord (account, version) = some record ∧ record.revoked = true := by
  have hexec : exec sha256 now (.emergencyRevokeKey account version reason) s = .ok t := hx
  cases exec_effect hexec with
  | revoked record found standing eq =>
    rw [eq]
    exact ⟨⟨_, Function.update_self .., rfl⟩, _, Function.update_self .., rfl⟩

/-- The time of a call of the run is not before that of a call that comes earlier in it. -/
theorem time_le (hclock : ClockForward steps) {early pre : List (Step Addr)}
    {step step' : Step Addr} {u : State Addr}
    (hearly : (machine sha256).Executes (deployed Addr) pre early step u)
    (hpre : pre ++ [step'] <+: steps) : step.1 ≤ step'.1 := by
  have hpair : (pre ++ [step']).Pairwise fun earlier later => earlier.1 ≤ later.1 :=
    hclock.sublist hpre.sublist
  exact (List.pairwise_append.mp hpair).2.2 step hearly.mem step' (by simp)

end Revocations

section Law

/-- From a revocation on, the stored time of revocation is not before it. -/
theorem revokedAt_kept (hclock : ClockForward steps) {revokedAt : ℕ} {pre : List (Step Addr)}
    {step : Step Addr}
    (hx : (machine sha256).Executes (deployed Addr) steps pre step t)
    (hrev : ∃ rev, (reached sha256 pre).revocationRecord account = some rev ∧
      revokedAt ≤ rev.revokedAt) :
    ∃ rev, t.revocationRecord account = some rev ∧ revokedAt ≤ rev.revokedAt := by
  obtain ⟨rev, hfound, hle⟩ := hrev
  cases (exec_effect hx.exec_eq).keyTurn with
  | installed other key installs records versions revocations =>
    rw [revocations]
    exact ⟨rev, hfound, hle⟩
  | revoked other version reason record isCall found standing records versions revocations =>
    rw [revocations]
    by_cases hother : account = other
    · subst hother
      obtain ⟨early, earlier, why, u, hearly⟩ :=
        (run_revoked sha256 pre).revocation account rev hfound
      have htime : rev.revokedAt ≤ step.1 := time_le hclock hearly hx.snoc_prefix
      exact ⟨_, Function.update_self .., hle.trans htime⟩
    · rw [Function.update_of_ne hother]
      exact ⟨rev, hfound, hle⟩
  | kept installs noRevocation records versions revocations =>
    rw [revocations]
    exact ⟨rev, hfound, hle⟩

/-- A revoked record stays revoked, unless it is that of the last version and written over. -/
theorem KeyTurn.stays_revoked (h : KeyTurn now s t call) (hs : Versioned s)
    (hmay : ∀ account key, call.installs s = some (account, key) → MayInstall now s account)
    {key : Addr × ℕ}
    (hrevoked : ∃ record, s.keyRecord key = some record ∧ record.revoked = true) :
    ∃ record, t.keyRecord key = some record ∧ record.revoked = true := by
  obtain ⟨record, hfound, hrevoked⟩ := hrevoked
  cases h with
  | installed account new installs records versions revocations =>
    have hne : key ≠ (account, s.nextVersion account) := by
      rintro rfl
      obtain ⟨hcurrent, hnext⟩ := nextVersion_stored hs hfound
      rw [hnext] at hfound
      rw [(hmay account new installs).2 record hcurrent hfound] at hrevoked
      cases hrevoked
    rw [records, install_keyRecord, Function.update_of_ne hne]
    exact ⟨record, hfound, hrevoked⟩
  | revoked account version reason other isCall found standing records versions revocations =>
    rw [records]
    by_cases hkey : key = (account, version)
    · rw [hkey, Function.update_self]
      exact ⟨_, rfl, rfl⟩
    · rw [Function.update_of_ne hkey]
      exact ⟨record, hfound, hrevoked⟩
  | kept installs noRevocation records versions revocations =>
    rw [records]
    exact ⟨record, hfound, hrevoked⟩

/-- In every run whose clock does not go back, keys are registered only after the cool-down and
revoked versions stay revoked, if and only if each call that registers a key comes when the last
revocation for its account is over, and does not write over a last version that is revoked. -/
theorem revocationLaw_iff (hclock : ClockForward steps) :
    CooledDown sha256 steps ∧ StaysRevoked sha256 steps ↔
      ∀ pre step t account key, (machine sha256).Executes (deployed Addr) steps pre step t →
        step.2.installs (reached sha256 pre) = some (account, key) →
        MayInstall step.1 (reached sha256 pre) account := by
  constructor
  · rintro ⟨hcooled, hstays⟩ pre step t account key hx hinstalls
    constructor
    · intro rev hrev
      obtain ⟨early, version, reason, u, hearly⟩ :=
        (run_revoked sha256 pre).revocation account rev hrev
      have hbefore : pre <+: steps := (List.prefix_append pre [step]).trans hx.snoc_prefix
      exact hcooled early pre account version reason key rev.revokedAt step t u
        (hearly.mono hbefore) hx hearly.length_lt hinstalls
    · intro record hcurrent hfound
      rw [← Bool.not_eq_true]
      intro hrevoked
      obtain ⟨early, reason, revokedAt, u, hearly⟩ :=
        (run_revoked sha256 pre).record _ record hfound hrevoked
      have hbefore : pre <+: steps := (List.prefix_append pre [step]).trans hx.snoc_prefix
      have hnext : (reached sha256 pre).nextVersion account = maxU32 := by
        rw [nextVersion_eq, hcurrent]
        rfl
      have hrecord : getCurrentKey (reached sha256 (pre ++ [step])) account =
          some (key.record account maxU32 step.1) := by
        rw [reached, hx.run_eq]
        cases (exec_effect hx.exec_eq).keyTurn with
        | installed other new installs records versions revocations =>
          obtain ⟨rfl, rfl⟩ := Prod.mk.inj (Option.some.inj (hinstalls.symm.trans installs))
          rw [getCurrentKey, versions, records, install_currentVersion, install_keyRecord,
            Function.update_self, hnext, Function.update_self, if_neg (by decide)]
        | revoked other version reason record isCall =>
          rw [isCall] at hinstalls
          cases hinstalls
        | kept installs =>
          rw [installs] at hinstalls
          cases hinstalls
      exact Bool.false_ne_true (hstays early account maxU32 reason revokedAt u _ _
        (hearly.mono hbefore) (hearly.snoc_prefix.trans (List.prefix_append pre [step]))
        hx.snoc_prefix hrecord rfl)
  · intro hmay
    constructor
    · intro early pre account version reason key revokedAt step t u hearly hx hlt hinstalls
      have hpre : pre <+: steps := (List.prefix_append pre [step]).trans hx.snoc_prefix
      have hsince : early ++ [(revokedAt, .emergencyRevokeKey account version reason)] <+: pre := by
        apply List.prefix_of_prefix_length_le hearly.snoc_prefix hpre
        rw [List.length_append, List.length_singleton]
        omega
      obtain ⟨rev, hrev, hat⟩ := (exec_revoke hearly.exec_eq).1
      obtain ⟨last, hlast, hle⟩ := hearly.kept
        (D := fun s => ∃ rev, s.revocationRecord account = some rev ∧ revokedAt ≤ rev.revokedAt)
        ⟨rev, hrev, hat.ge⟩ (fun mid b v hb => revokedAt_kept hclock hb) pre hsince hpre
      have hover := (hmay pre step t account key hx hinstalls).1 last hlast
      omega
    · intro early account version reason revokedAt u later record hearly hsince hlater hcurrent
        hversion
      obtain ⟨revoked, hfound, hrevoked⟩ := hearly.kept
        (D := fun s => ∃ record, s.keyRecord (account, version) = some record ∧
          record.revoked = true)
        (exec_revoke hearly.exec_eq).2
        (fun mid b v hb => (exec_effect hb.exec_eq).keyTurn.stays_revoked (run_versioned sha256 mid)
          (fun other key => hmay mid b v other key hb)) later hsince hlater
      unfold getCurrentKey at hcurrent
      simp only at hcurrent
      split_ifs at hcurrent
      have hsame : version = (reached sha256 later).currentVersion account :=
        hversion.symm.trans ((run_versioned sha256 later).bound _ record hcurrent).1
      rw [← hsame] at hcurrent
      obtain rfl := Option.some.inj (hfound.symm.trans hcurrent)
      exact hrevoked

end Law

section Runs

/-- An Ed25519 key without forward secrecy. -/
def plainKey (pubkeyCommitment : Hash) : NewKey := ⟨.ed25519, pubkeyCommitment, 0, false⟩

/-- A key is registered, revoked, and followed by another one at the given time. -/
def rekeyedRun (again : ℕ) : List (Step ℕ) :=
  [(1, .registerKey 4 (plainKey 10)), (2, .emergencyRevokeKey 4 1 "lost"),
    (again, .registerKey 4 (plainKey 11))]

theorem revocationLaw_rekeyedRun :
    CooledDown (fun _ => 0) (rekeyedRun 3602) ∧ StaysRevoked (fun _ => 0) (rekeyedRun 3602) := by
  have hclock : ClockForward (rekeyedRun 3602) := by
    unfold ClockForward
    decide
  rw [revocationLaw_iff hclock]
  intro pre step t account key hx hinstalls
  obtain ⟨hpre, hstep⟩ := hx.eq_take
  have hlt : pre.length < 3 := hx.length_lt
  rw [hpre] at hinstalls ⊢
  generalize pre.length = n at hstep hlt hinstalls ⊢
  interval_cases n
  · obtain rfl := Option.some.inj hstep
    constructor
    · intro rev hrev
      cases hrev
    · intro record _ hfound
      cases hfound
  · obtain rfl := Option.some.inj hstep
    cases hinstalls
  · obtain rfl := Option.some.inj hstep
    obtain ⟨rfl, -⟩ := Prod.mk.inj (Option.some.inj hinstalls)
    constructor
    · intro rev hrev
      obtain rfl := Option.some.inj hrev
      decide
    · intro record hcurrent
      exact absurd hcurrent (by decide)

/-- The new key is registered a second after the revocation. -/
theorem rekeyed_within_cooldown : ClockForward (rekeyedRun 3) ∧
    ¬ CooledDown (fun _ => 0) (rekeyedRun 3) := by
  constructor
  · unfold ClockForward
    decide
  · intro hcooled
    have hrevoked : (machine fun _ => 0).Executes (deployed ℕ) (rekeyedRun 3)
        [(1, .registerKey 4 (plainKey 10))] (2, .emergencyRevokeKey 4 1 "lost")
        (reached (fun _ => 0) ((rekeyedRun 3).take 2)) := ⟨_, rfl, rfl⟩
    have hregistered : (machine fun _ => 0).Executes (deployed ℕ) (rekeyedRun 3)
        ((rekeyedRun 3).take 2) (3, .registerKey 4 (plainKey 11))
        (reached (fun _ => 0) (rekeyedRun 3)) := ⟨_, rfl, rfl⟩
    have hlate := hcooled _ _ 4 1 "lost" (plainKey 11) 2 _ _ _ hrevoked hregistered (by decide) rfl
    exact absurd hlate (by decide)

end Runs

end KeyManagement
