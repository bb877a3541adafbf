import MentorsMind.Referral.Contract

/-! What a successful call changes. -/
namespace Referral
open Outcome Soroban Shared

variable {Addr : Type} [DecidableEq Addr] {self : Addr} {inv : Invocation Addr self}
  {s t : State Addr}

/-- What the token has minted for the contract. -/
def totalMinted (s : State Addr) : ℤ := (s.minted.map Mint.amount).sum

/-- What the token has minted to `a` for the contract. -/
def mintedTo (s : State Addr) (a : Addr) : ℤ :=
  (s.minted.map fun mint => if mint.recipient = a then mint.amount else 0).sum

/-- What a claim asks the token for. -/
def mintAsked (inv : Invocation Addr self) (s : State Addr) (referrer : Addr) : ℤ :=
  s.pendingReward referrer * getMultiplierInternal inv.timestamp s referrer

/-- What a claim counts, when the leaderboard contract answers `rawMultiplier`. -/
def mintDue (s : State Addr) (referrer : Addr) (config : ReferralConfig) (rawMultiplier : ℕ) : ℤ :=
  min (min (s.pendingReward referrer * min rawMultiplier config.maxMultiplierBps / 10000)
    (config.maxLifetimeReward - s.lifetimeClaimed referrer))
    (config.globalReferralMintCap - s.globalMinted)

/-- The claim is neither held for review nor put off, and these are its terms. -/
structure Granted {home : Addr} (inv : Invocation Addr home) (s : State Addr) (referrer : Addr)
    (config : ReferralConfig) (rawMultiplier : ℕ) : Prop where
  unsuspicious : isSuspiciousReferralPattern inv.timestamp s referrer = false
  stored : s.config = some config
  answered : ∃ leaderboard, s.leaderboardContract = some leaderboard ∧
    inv.multiplier leaderboard referrer = some rawMultiplier
  steady : assessMintVelocity inv.timestamp s referrer
    (mintDue s referrer config rawMultiplier) config = false

/-- The bonus of the epoch before. -/
def bonusDue (now : ℕ) (s : State Addr) : ℤ :=
  (min (s.epochTopReferrers (currentEpoch now - 1)).length topReferrerBonusCount : ℕ) * bonusMnt

omit [DecidableEq Addr] in
theorem Granted.unique {referrer : Addr} {config config' : ReferralConfig} {raw raw' : ℕ}
    (h : Granted inv s referrer config raw) (h' : Granted inv s referrer config' raw') :
    config = config' ∧ raw = raw' := by
  obtain ⟨leaderboard, hleaderboard, hraw⟩ := h.answered
  obtain ⟨leaderboard', hleaderboard', hraw'⟩ := h'.answered
  obtain rfl := Option.some.inj (hleaderboard.symm.trans hleaderboard')
  exact ⟨Option.some.inj (h.stored.symm.trans h'.stored), Option.some.inj (hraw.symm.trans hraw')⟩

theorem remaining_eq {cap used : ℤ} (h : 0 < remaining cap used) :
    remaining cap used = cap - used := by
  unfold remaining at h ⊢
  split_ifs at h ⊢ with hfits
  · rfl
  · omega

omit [DecidableEq Addr] in
theorem requireStoredAdmin_eq_ok {u : Unit} :
    requireStoredAdmin inv s = .ok u ↔ ∃ admin, s.admin = some admin ∧ inv.auth admin = true := by
  simp only [requireStoredAdmin, bind_eq_ok, expect_eq_ok, requireAuth_eq_ok]

theorem requireAdmin_eq_ok {admin : Addr} {u : Unit} : requireAdmin inv s admin = .ok u ↔
    inv.auth admin = true ∧ s.admin = some admin := by
  simp only [requireAdmin, bind_eq_ok, expect_eq_ok, requireAuth_eq_ok, require_eq_ok]
  constructor
  · intro h
    obtain ⟨-, hauth, stored, hstored, rfl⟩ := h
    exact ⟨hauth, hstored⟩
  · intro h
    exact ⟨(), h.1, admin, h.2, rfl⟩

omit [DecidableEq Addr] in
/-- The bonuses minted to the entries, latest first. -/
theorem mintBonuses_eq_ok {token : Addr} {entries : List (Addr × ℕ)}
    (h : entries.foldlM (fun s entry => mint inv s token entry.1 bonusMnt) s = .ok t) :
    t = { s with
      minted := (entries.map fun entry => ⟨entry.1, bonusMnt⟩).reverse ++ s.minted } := by
  induction entries generalizing s with
  | nil =>
    rw [List.foldlM_nil, pure_eq_ok] at h
    rw [← h]
    rfl
  | cons entry entries ih =>
    rw [List.foldlM_cons, bind_eq_ok] at h
    obtain ⟨after, hafter, hrest⟩ := h
    simp only [mint, bind_eq_ok, require_eq_ok, pure_eq_ok] at hafter
    obtain ⟨-, -, rfl⟩ := hafter
    rw [ih hrest]
    simp

/-- What a successful call does. -/
inductive Effect (inv : Invocation Addr self) (s t : State Addr) : Call Addr → Prop where
  | initialized {admin mntToken leaderboard : Addr} (fresh : s.admin = none)
      (eq : t = { s with
        admin := some admin
        mntToken := some mntToken
        leaderboardContract := some leaderboard
        config := some defaultConfig
        globalMinted := 0 }) : Effect inv s t (.initializeReferral admin mntToken leaderboard)
  | adminProposed {admin newAdmin : Addr} (auth : inv.auth admin = true)
      (stored : s.admin = some admin)
      (eq : t = { s with
        pendingAdmin := some ⟨newAdmin, inv.timestamp + adminChangeTimelock⟩ }) :
      Effect inv s t (.proposeAdminChange admin newAdmin)
  | adminAccepted {newAdmin : Addr} (pending : PendingAdminChange Addr)
      (auth : inv.auth newAdmin = true) (found : s.pendingAdmin = some pending)
      (named : pending.newAdmin = newAdmin) (ripe : pending.effectiveAt ≤ inv.timestamp)
      (eq : t = { s with admin := some newAdmin, pendingAdmin := none }) :
      Effect inv s t (.acceptAdminChange newAdmin)
  | adminCancelled {multisig : Addr} (auth : inv.auth multisig = true)
      (found : s.pendingAdmin ≠ none) (eq : t = { s with pendingAdmin := none }) :
      Effect inv s t (.cancelAdminChange multisig)
  | configured {config : ReferralConfig} (admin : Addr) (stored : s.admin = some admin)
      (auth : inv.auth admin = true) (lifetime : 0 < config.maxLifetimeReward)
      (cap : 0 < config.globalReferralMintCap) (eq : t = { s with config := some config }) :
      Effect inv s t (.setConfig config)
  | booked {call : Call Addr}
      (eq : t = { s with
        pauseGuardian := t.pauseGuardian
        referral := t.referral
        referrerCount := t.referrerCount
        pendingReward := t.pendingReward
        epochReferralCount := t.epochReferralCount
        epochTopReferrers := t.epochTopReferrers
        suspiciousClaim := t.suspiciousClaim })
      (ungranted : ∀ referrer, call = .claimReward referrer → ∀ config raw,
        ¬ Granted inv s referrer config raw)
      (unminted : call ≠ .distributeEpochBonus) (unset : ∀ config, call ≠ .setConfig config)
      (kept : ∀ multisig, call ≠ .cancelAdminChange multisig) : Effect inv s t call
  | claimed {referrer : Addr} (config : ReferralConfig) (raw : ℕ)
      (granted : Granted inv s referrer config raw)
      (minted : t.minted = ⟨referrer, mintAsked inv s referrer⟩ :: s.minted)
      (lifetime : t.lifetimeClaimed = Function.update s.lifetimeClaimed referrer
        (s.lifetimeClaimed referrer + mintDue s referrer config raw))
      (global : t.globalMinted = s.globalMinted + mintDue s referrer config raw)
      (eq : t = { s with
        minted := t.minted
        pendingReward := t.pendingReward
        lifetimeClaimed := t.lifetimeClaimed
        globalMinted := t.globalMinted
        velocityWindowMinted := t.velocityWindowMinted
        referrerWindowMinted := t.referrerWindowMinted }) : Effect inv s t (.claimReward referrer)
  | distributed (mints : List (Mint Addr))
      (due : (mints.map Mint.amount).sum = bonusDue inv.timestamp s)
      (eq : t = { s with
        minted := mints ++ s.minted
        epochBonusDistributed := t.epochBonusDistributed }) : Effect inv s t .distributeEpochBonus

theorem claimReward_effect {referrer : Addr} (h : claimReward inv s referrer = .ok t) :
    Effect inv s t (.claimReward referrer) := by
  simp only [claimReward, bind_eq_ok, requireAuth_eq_ok, require_eq_ok] at h
  obtain ⟨-, -, -, -, -, -, h⟩ := h
  split_ifs at h with hsuspicious
  · simp only [bind_eq_ok, i128_eq_ok, pure_eq_ok] at h
    obtain ⟨deferred, -, rfl⟩ := h
    refine .booked rfl ?_ (by simp) (by simp) (by simp)
    intro claimant hclaimant config raw hgranted
    obtain rfl := Call.claimReward.inj hclaimant
    rw [hgranted.unsuspicious] at hsuspicious
    cases hsuspicious
  · simp only [bind_eq_ok, expect_eq_ok, checkedI128_eq_ok, i128_eq_ok, require_eq_ok] at h
    obtain ⟨config, hconfig, total, ⟨-, rfl⟩, mntToken, -, leaderboard, hleaderboard, raw, hraw,
      scaled, ⟨-, rfl⟩, -, hlifetime, -, hglobal, h⟩ := h
    have hdue : min (min (s.pendingReward referrer * ↑(min raw config.maxMultiplierBps) / 10000)
        (remaining config.maxLifetimeReward (s.lifetimeClaimed referrer)))
        (remaining config.globalReferralMintCap s.globalMinted) =
          mintDue s referrer config raw := by
      rw [remaining_eq hlifetime, remaining_eq hglobal]
      rfl
    simp only [hdue] at h
    split_ifs at h with hdeferred
    · obtain rfl := pure_eq_ok.mp h
      refine .booked rfl ?_ (by simp) (by simp) (by simp)
      intro claimant hclaimant config' raw' hgranted
      obtain rfl := Call.claimReward.inj hclaimant
      obtain ⟨board, hboard, hanswer⟩ := hgranted.answered
      obtain rfl := Option.some.inj (hboard.symm.trans hleaderboard)
      obtain rfl := Option.some.inj (hanswer.symm.trans hraw)
      obtain rfl := Option.some.inj (hgranted.stored.symm.trans hconfig)
      rw [hgranted.steady] at hdeferred
      cases hdeferred
    · simp only [mint, bind_eq_ok, require_eq_ok, i128_eq_ok, pure_eq_ok] at h
      obtain ⟨paid, ⟨-, -, rfl⟩, -, -, lifetime, ⟨-, rfl⟩, globalMinted, ⟨-, rfl⟩, rfl⟩ := h
      exact .claimed config raw ⟨Bool.eq_false_iff.mpr hsuspicious, hconfig,
        ⟨leaderboard, hleaderboard, hraw⟩, Bool.eq_false_iff.mpr hdeferred⟩ rfl rfl rfl rfl

theorem distributeEpochBonus_effect (h : distributeEpochBonus inv s = .ok t) :
    Effect inv s t .distributeEpochBonus := by
  simp only [distributeEpochBonus, bind_eq_ok, require_eq_ok, expect_eq_ok, pure_eq_ok] at h
  obtain ⟨-, -, -, -, -, -, mntToken, -, paid, hpaid, rfl⟩ := h
  have heq := mintBonuses_eq_ok hpaid
  refine .distributed _ ?_ (by rw [heq])
  rw [List.map_reverse, List.sum_reverse, List.map_map]
  have hconst : (Mint.amount ∘ fun entry : Addr × ℕ => (⟨entry.1, bonusMnt⟩ : Mint Addr)) =
      fun _ => bonusMnt := rfl
  rw [hconst, List.map_const', List.sum_replicate, nsmul_eq_mul, List.length_take, bonusDue,
    min_comm]

theorem exec_effect {call : Call Addr} (h : exec inv call s = .ok t) : Effect inv s t call := by
  cases call with
  | initializeReferral admin mntToken leaderboard =>
    simp only [exec, initializeReferral, bind_eq_ok, require_eq_ok, pure_eq_ok] at h
    obtain ⟨-, hfresh, rfl⟩ := h
    exact .initialized hfresh rfl
  | proposeAdminChange admin newAdmin =>
    simp only [exec, proposeAdminChange, bind_eq_ok, requireAdmin_eq_ok, checkedU64_eq_ok,
      pure_eq_ok] at h
    obtain ⟨-, ⟨hauth, hstored⟩, effectiveAt, ⟨-, rfl⟩, rfl⟩ := h
    exact .adminProposed hauth hstored rfl
  | acceptAdminChange newAdmin =>
    simp only [exec, acceptAdminChange, bind_eq_ok, requireAuth_eq_ok, expect_eq_ok, require_eq_ok,
      pure_eq_ok] at h
    obtain ⟨-, hauth, pending, hfound, -, hnamed, -, hripe, rfl⟩ := h
    exact .adminAccepted pending hauth hfound hnamed hripe rfl
  | cancelAdminChange multisig =>
    simp only [exec, cancelAdminChange, bind_eq_ok, requireAuth_eq_ok, require_eq_ok,
      pure_eq_ok] at h
    obtain ⟨-, hauth, -, hfound, rfl⟩ := h
    exact .adminCancelled hauth (Option.isSome_iff_ne_none.mp hfound) rfl
  | setPauseGuardian guardian =>
    simp only [exec, setPauseGuardian, bind_eq_ok, pure_eq_ok] at h
    obtain ⟨-, -, rfl⟩ := h
    exact .booked rfl (by simp) (by simp) (by simp) (by simp)
  | setConfig config =>
    simp only [exec, setConfig, bind_eq_ok, requireStoredAdmin_eq_ok, require_eq_ok,
      pure_eq_ok] at h
    obtain ⟨-, ⟨admin, hstored, hauth⟩, -, -, -, hlifetime, -, hcap, rfl⟩ := h
    exact .configured admin hstored hauth hlifetime hcap rfl
  | registerReferral referrer referee isMentor =>
    simp only [exec, registerReferral, recordEpochReferral, bind_eq_ok, require_eq_ok, u32_eq_ok,
      pure_eq_ok] at h
    obtain ⟨-, -, -, -, -, -, count, ⟨-, rfl⟩, newCount, ⟨-, rfl⟩, rfl⟩ := h
    exact .booked rfl (by simp) (by simp) (by simp) (by simp)
  | fulfillReferral referee =>
    simp only [exec, fulfillReferral, bind_eq_ok, require_eq_ok, expect_eq_ok, i128_eq_ok,
      pure_eq_ok] at h
    obtain ⟨-, -, info, -, -, -, pending, -, leaderboard, -, -, -, rfl⟩ := h
    exact .booked rfl (by simp) (by simp) (by simp) (by simp)
  | claimReward referrer => exact claimReward_effect h
  | distributeEpochBonus => exact distributeEpochBonus_effect h
  | distributeFromFee referrer platformFee rewardBps =>
    simp only [exec, distributeFromFee, bind_eq_ok] at h
    obtain ⟨-, -, h⟩ := h
    split_ifs at h with hnothing
    · obtain rfl := pure_eq_ok.mp h
      exact .booked rfl (by simp) (by simp) (by simp) (by simp)
    · simp only [bind_eq_ok, checkedI128_eq_ok] at h
      obtain ⟨scaled, ⟨-, rfl⟩, h⟩ := h
      split_ifs at h with hzero
      · obtain rfl := pure_eq_ok.mp h
        exact .booked rfl (by simp) (by simp) (by simp) (by simp)
      · simp only [bind_eq_ok, checkedI128_eq_ok, pure_eq_ok] at h
        obtain ⟨pending, -, rfl⟩ := h
        exact .booked rfl (by simp) (by simp) (by simp) (by simp)

end Referral
