import MentorsMind.Shared.Throttling
import MentorsMind.Soroban.Host

/-! The referral programme: referrals that the admin registers and fulfils, rewards that the
referrers claim in newly minted tokens, a leaderboard for each epoch and a bonus for its top three.
The re-entrancy guard, the events and the pages of the leaderboard are left out. -/
namespace Referral
open Outcome Soroban Shared

inductive RefereeType where
  | mentor
  | learner

structure ReferralInfo (Addr : Type) where
  referrer : Addr
  refereeType : RefereeType
  completed : Bool

structure ReferralConfig where
  maxMultiplierBps : ℕ
  maxLifetimeReward : ℤ
  globalReferralMintCap : ℤ

structure PendingAdminChange (Addr : Type) where
  newAdmin : Addr
  effectiveAt : ℕ

def rewardMentor : ℤ := 50 * 10000000
def rewardLearner : ℤ := 20 * 10000000
def bonusMnt : ℤ := 100 * 10000000
def leaderboardEpochSecs : ℕ := 30 * 24 * 3600
def maxMultiplier : ℕ := 10
def topReferrerBonusCount : ℕ := 3
def leaderboardMaxSize : ℕ := 10
def referralVelocityWindowSecs : ℕ := 24 * 60 * 60
def adminChangeTimelock : ℕ := 48 * 60 * 60

/-- The config that `initialize` stores. -/
def defaultConfig : ReferralConfig where
  maxMultiplierBps := 20000
  maxLifetimeReward := 10000 * 10000000
  globalReferralMintCap := 5000000 * 10000000

/-- What the token contract minted for one call. -/
structure Mint (Addr : Type) where
  recipient : Addr
  amount : ℤ

/-- One field for each storage key; absent amounts and counts read as zero, an absent flag as false
and an absent leaderboard as empty. `minted` is the record of the token, latest first. -/
structure State (Addr : Type) where
  admin : Option Addr
  mntToken : Option Addr
  leaderboardContract : Option Addr
  pauseGuardian : Option Addr
  config : Option ReferralConfig
  pendingAdmin : Option (PendingAdminChange Addr)
  referral : Addr → Option (ReferralInfo Addr)
  referrerCount : Addr → ℕ
  pendingReward : Addr → ℤ
  epochReferralCount : ℕ × Addr → ℕ
  epochTopReferrers : ℕ → List (Addr × ℕ)
  epochBonusDistributed : ℕ → Bool
  lifetimeClaimed : Addr → ℤ
  globalMinted : ℤ
  suspiciousClaim : Addr → ℤ
  velocityWindowMinted : ℕ → ℤ
  referrerWindowMinted : ℕ × Addr → ℤ
  minted : List (Mint Addr)

def deployed {Addr : Type} : State Addr where
  admin := none
  mntToken := none
  leaderboardContract := none
  pauseGuardian := none
  config := none
  pendingAdmin := none
  referral _ := none
  referrerCount _ := 0
  pendingReward _ := 0
  epochReferralCount _ := 0
  epochTopReferrers _ := []
  epochBonusDistributed _ := false
  lifetimeClaimed _ := 0
  globalMinted := 0
  suspiciousClaim _ := 0
  velocityWindowMinted _ := 0
  referrerWindowMinted _ := 0
  minted := []

/-- One invocation: the ledger, the signers and what the other contracts answer. A call that traps
answers `none`, or `false` where only success counts. -/
structure Invocation (Addr : Type) (home : Addr) extends Env Addr home where
  isPaused : Addr → Option Bool
  /-- The token contract mints for this recipient and amount. -/
  mints : Addr → Addr → ℤ → Bool
  recordReferral : Addr → Addr → ℕ → Bool
  multiplier : Addr → Addr → Option ℕ

variable {Addr : Type} {self : Addr}

/-- The entry point `initialize`, which asks for no authorisation. -/
def initializeReferral (s : State Addr) (admin mntToken leaderboard : Addr) :
    Result (State Addr) := do
  require (s.admin = none) (.panic "Already initialized")
  pure { s with
    admin := some admin
    mntToken := some mntToken
    leaderboardContract := some leaderboard
    config := some defaultConfig
    globalMinted := 0 }

section Admin

/-- The check of the entry points that name no admin. -/
def requireStoredAdmin (inv : Invocation Addr self) (s : State Addr) : Result Unit := do
  let admin ← expect s.admin (.panic "Not initialized")
  requireAuth inv.toEnv admin

variable [DecidableEq Addr]

def requireAdmin (inv : Invocation Addr self) (s : State Addr) (admin : Addr) : Result Unit := do
  requireAuth inv.toEnv admin
  let stored ← expect s.admin (.panic "Not initialized")
  require (stored = admin) (.panic "unauthorized")

def proposeAdminChange (inv : Invocation Addr self) (s : State Addr)
    (currentAdmin newAdmin : Addr) : Result (State Addr) := do
  requireAdmin inv s currentAdmin
  let effectiveAt ← checkedU64 (inv.timestamp + adminChangeTimelock) (.panic "timestamp overflow")
  pure { s with pendingAdmin := some ⟨newAdmin, effectiveAt⟩ }

def acceptAdminChange (inv : Invocation Addr self) (s : State Addr) (newAdmin : Addr) :
    Result (State Addr) := do
  requireAuth inv.toEnv newAdmin
  let pending ← expect s.pendingAdmin (.panic "no pending admin change")
  require (pending.newAdmin = newAdmin) (.panic "unauthorized")
  require (pending.effectiveAt ≤ inv.timestamp) (.panic "admin change not yet effective")
  pure { s with admin := some newAdmin, pendingAdmin := none }

omit [DecidableEq Addr] in
/-- Any address that signs may cancel. -/
def cancelAdminChange (inv : Invocation Addr self) (s : State Addr) (multisig : Addr) :
    Result (State Addr) := do
  requireAuth inv.toEnv multisig
  require (s.pendingAdmin.isSome = true) (.panic "no pending admin change")
  pure { s with pendingAdmin := none }

omit [DecidableEq Addr] in
def setPauseGuardian (inv : Invocation Addr self) (s : State Addr) (guardian : Addr) :
    Result (State Addr) := do
  requireStoredAdmin inv s
  pure { s with pauseGuardian := some guardian }

omit [DecidableEq Addr] in
def setConfig (inv : Invocation Addr self) (s : State Addr) (config : ReferralConfig) :
    Result (State Addr) := do
  requireStoredAdmin inv s
  require (config.maxMultiplierBps ≠ 0) (.panic "max_multiplier_bps must be > 0")
  require (0 < config.maxLifetimeReward) (.panic "max_lifetime_reward must be positive")
  require (0 < config.globalReferralMintCap) (.panic "global_referral_mint_cap must be positive")
  pure { s with config := some config }

end Admin

section Leaderboard

/-- One pass of the sort: an entry with a larger count moves before the one carried along. -/
def bubble (carried : Addr × ℕ) : List (Addr × ℕ) → List (Addr × ℕ)
  | [] => [carried]
  | entry :: rest =>
      if carried.2 < entry.2 then entry :: bubble carried rest else carried :: bubble entry rest

def bubblePass : List (Addr × ℕ) → List (Addr × ℕ)
  | [] => []
  | entry :: rest => bubble entry rest

/-- By count, the largest first. -/
def sortLeaderboard (leaderboard : List (Addr × ℕ)) : List (Addr × ℕ) :=
  bubblePass^[leaderboard.length] leaderboard

variable [DecidableEq Addr]

/-- The referrer's entry, when there is one, with the new count. -/
def setCount (referrer : Addr) (newCount : ℕ) : List (Addr × ℕ) → List (Addr × ℕ)
  | [] => []
  | entry :: rest =>
      if entry.1 = referrer then (referrer, newCount) :: rest
      else entry :: setCount referrer newCount rest

/-- The leaderboard before it is sorted again. A newcomer takes the last place of a full board if
the count beats it. -/
def placeReferrer (leaderboard : List (Addr × ℕ)) (referrer : Addr) (newCount : ℕ) :
    List (Addr × ℕ) :=
  if leaderboard.any (fun entry => entry.1 = referrer) then setCount referrer newCount leaderboard
  else if leaderboard.length < leaderboardMaxSize then leaderboard ++ [(referrer, newCount)]
  else if ∃ last ∈ leaderboard.getLast?, last.2 < newCount then
    leaderboard.dropLast ++ [(referrer, newCount)]
  else leaderboard

/-- Cut to a `u32`. -/
def currentEpoch (now : ℕ) : ℕ := now / leaderboardEpochSecs % 2 ^ 32

def recordEpochReferral (inv : Invocation Addr self) (s : State Addr) (referrer : Addr) :
    Result (State Addr) := do
  let epoch := currentEpoch inv.timestamp
  let newCount ← u32 (s.epochReferralCount (epoch, referrer) + 1)
  pure { s with
    epochReferralCount := Function.update s.epochReferralCount (epoch, referrer) newCount
    epochTopReferrers := Function.update s.epochTopReferrers epoch
      (sortLeaderboard (placeReferrer (s.epochTopReferrers epoch) referrer newCount)) }

/-- The multiplier of a place on the leaderboard of the current epoch. -/
def getMultiplierInternal (now : ℕ) (s : State Addr) (referrer : Addr) : ℕ :=
  match (s.epochTopReferrers (currentEpoch now)).findIdx? (fun entry => entry.1 = referrer) with
  | some 0 => maxMultiplier
  | some 1 => 5
  | some 2 => 3
  | some _ => 2
  | none => 1

end Leaderboard

section Rewards

variable [DecidableEq Addr]

def registerReferral (inv : Invocation Addr self) (s : State Addr) (referrer referee : Addr)
    (isMentor : Bool) : Result (State Addr) := do
  requireStoredAdmin inv s
  require (referrer ≠ referee) (.panic "Self-referral not allowed")
  require ((s.referral referee).isNone = true) (.panic "Referee already registered")
  let count ← u32 (s.referrerCount referrer + 1)
  let info : ReferralInfo Addr := {
    referrer := referrer
    refereeType := if isMentor then .mentor else .learner
    completed := false }
  recordEpochReferral inv { s with
    referral := Function.update s.referral referee (some info)
    referrerCount := Function.update s.referrerCount referrer count } referrer

def fulfillReferral (inv : Invocation Addr self) (s : State Addr) (referee : Addr) :
    Result (State Addr) := do
  requireStoredAdmin inv s
  let info ← expect (s.referral referee) (.panic "Referral not found")
  require (info.completed = false) (.panic "Already completed")
  let reward := match info.refereeType with
    | .mentor => rewardMentor
    | .learner => rewardLearner
  let pending ← i128 (s.pendingReward info.referrer + reward)
  let leaderboard ← expect s.leaderboardContract (.panic "Leaderboard not set")
  require (inv.recordReferral leaderboard info.referrer (s.referrerCount info.referrer) = true)
    .subcall
  pure { s with
    referral := Function.update s.referral referee (some { info with completed := true })
    pendingReward := Function.update s.pendingReward info.referrer pending }

omit [DecidableEq Addr] in
/-- More than five referrals in this epoch or the one before. -/
def isSuspiciousReferralPattern (now : ℕ) (s : State Addr) (referrer : Addr) : Bool :=
  5 < s.epochReferralCount (currentEpoch now, referrer) ||
    (0 < currentEpoch now && 5 < s.epochReferralCount (currentEpoch now - 1, referrer))

/-- `checked_sub(..).unwrap_or(0)` -/
def remaining (cap used : ℤ) : ℤ := if FitsI128 (cap - used) then cap - used else 0

def saturatingAddI128 (a b : ℤ) : ℤ := max (-(2 ^ 127)) (min (a + b) (2 ^ 127 - 1))

def velocityWindow (now : ℕ) : ℕ := now / referralVelocityWindowSecs

omit [DecidableEq Addr] in
/-- The `stabilization_required` of `assess_mint_velocity`. -/
def assessMintVelocity (now : ℕ) (s : State Addr) (referrer : Addr) (amount : ℤ)
    (config : ReferralConfig) : Bool :=
  let window := velocityWindow now
  let windowMinted := saturatingAddI128 (s.velocityWindowMinted window) amount
  let referrerMinted := saturatingAddI128 (s.referrerWindowMinted (window, referrer)) amount
  let concentrationBps :=
    if 0 < windowMinted ∧ 0 < referrerMinted then
      min (min (referrerMinted.toNat * 10000) (2 ^ 128 - 1) / windowMinted.toNat) 10000
    else 0
  stabilizationRequired config.globalReferralMintCap windowMinted concentrationBps

def recordWindowMint (now : ℕ) (s : State Addr) (referrer : Addr) (amount : ℤ) : State Addr :=
  let window := velocityWindow now
  { s with
    velocityWindowMinted := Function.update s.velocityWindowMinted window
      (saturatingAddI128 (s.velocityWindowMinted window) amount)
    referrerWindowMinted := Function.update s.referrerWindowMinted (window, referrer)
      (saturatingAddI128 (s.referrerWindowMinted (window, referrer)) amount) }

omit [DecidableEq Addr] in
/-- `MNTTokenClient::mint`. -/
def mint (inv : Invocation Addr self) (s : State Addr) (token recipient : Addr) (amount : ℤ) :
    Result (State Addr) := do
  require (inv.mints token recipient amount = true) .subcall
  pure { s with minted := ⟨recipient, amount⟩ :: s.minted }

omit [DecidableEq Addr] in
def requireGuardianNotPaused (inv : Invocation Addr self) (s : State Addr) : Result Unit :=
  match s.pauseGuardian with
  | none => pure ()
  | some guardian => do
      let paused ← expect (inv.isPaused guardian) .subcall
      require (paused = false) (.panic "Contract is paused")

/-- What is minted is the pending reward times the place on this epoch's leaderboard; what is
counted is the pending reward times the multiplier of the leaderboard contract, within the caps. -/
def claimReward (inv : Invocation Addr self) (s : State Addr) (referrer : Addr) :
    Result (State Addr) := do
  requireGuardianNotPaused inv s
  requireAuth inv.toEnv referrer
  let pending := s.pendingReward referrer
  require (0 < pending) (.panic "No rewards to claim")
  if isSuspiciousReferralPattern inv.timestamp s referrer then do
    let deferred ← i128 (s.suspiciousClaim referrer + pending)
    pure { s with
      suspiciousClaim := Function.update s.suspiciousClaim referrer deferred
      pendingReward := Function.update s.pendingReward referrer 0 }
  else do
    let config ← expect s.config (.panic "Config not set")
    let total ← checkedI128 (pending * getMultiplierInternal inv.timestamp s referrer)
      (.panic "reward overflow")
    let mntToken ← expect s.mntToken (.panic "Token not set")
    let leaderboard ← expect s.leaderboardContract (.panic "Leaderboard not set")
    let rawMultiplier ← expect (inv.multiplier leaderboard referrer) .subcall
    let scaled ← i128 (pending * min rawMultiplier config.maxMultiplierBps)
    let remainingLifetime := remaining config.maxLifetimeReward (s.lifetimeClaimed referrer)
    require (0 < remainingLifetime) (.panic "Lifetime reward cap reached")
    let globalRemaining := remaining config.globalReferralMintCap s.globalMinted
    require (0 < globalRemaining) (.panic "Global referral mint cap reached")
    let actualAmount := min (min (scaled / 10000) remainingLifetime) globalRemaining
    if assessMintVelocity inv.timestamp s referrer actualAmount config then pure s
    else do
      let paid ← mint inv s mntToken referrer total
      require (0 < actualAmount) (.panic "Computed reward is zero")
      let lifetime ← i128 (s.lifetimeClaimed referrer + actualAmount)
      let globalMinted ← i128 (s.globalMinted + actualAmount)
      pure (recordWindowMint inv.timestamp { paid with
        pendingReward := Function.update s.pendingReward referrer 0
        lifetimeClaimed := Function.update s.lifetimeClaimed referrer lifetime
        globalMinted := globalMinted } referrer actualAmount)

omit [DecidableEq Addr] in
/-- The bonus is minted beside the counters. -/
def distributeEpochBonus (inv : Invocation Addr self) (s : State Addr) : Result (State Addr) := do
  requireStoredAdmin inv s
  let epoch := currentEpoch inv.timestamp
  require (1 ≤ epoch) (.panic "no previous epoch")
  require (s.epochBonusDistributed (epoch - 1) = false) (.panic "bonus already distributed")
  let mntToken ← expect s.mntToken (.panic "Token not set")
  let paid ← ((s.epochTopReferrers (epoch - 1)).take topReferrerBonusCount).foldlM
    (fun s entry => mint inv s mntToken entry.1 bonusMnt) s
  pure { paid with
    epochBonusDistributed := Function.update s.epochBonusDistributed (epoch - 1) true }

def distributeFromFee (inv : Invocation Addr self) (s : State Addr) (referrer : Addr)
    (platformFee : ℤ) (rewardBps : ℕ) : Result (State Addr) := do
  requireStoredAdmin inv s
  if platformFee ≤ 0 ∨ rewardBps = 0 then pure s
  else do
    let scaled ← checkedI128 (platformFee * rewardBps) (.panic "overflow")
    let reward := scaled / 10000
    if reward ≤ 0 then pure s
    else do
      let pending ← checkedI128 (s.pendingReward referrer + reward) (.panic "overflow")
      pure { s with pendingReward := Function.update s.pendingReward referrer pending }

end Rewards

/-- The entry points that write, with their arguments. -/
inductive Call (Addr : Type) where
  | initializeReferral (admin mntToken leaderboard : Addr)
  | proposeAdminChange (currentAdmin newAdmin : Addr)
  | acceptAdminChange (newAdmin : Addr)
  | cancelAdminChange (multisig : Addr)
  | setPauseGuardian (guardian : Addr)
  | setConfig (config : ReferralConfig)
  | registerReferral (referrer referee : Addr) (isMentor : Bool)
  | fulfillReferral (referee : Addr)
  | claimReward (referrer : Addr)
  | distributeEpochBonus
  | distributeFromFee (referrer : Addr) (platformFee : ℤ) (rewardBps : ℕ)

variable [DecidableEq Addr]

def exec (inv : Invocation Addr self) (call : Call Addr) (s : State Addr) :
    Result (State Addr) :=
  match call with
  | .initializeReferral admin mntToken leaderboard =>
      initializeReferral s admin mntToken leaderboard
  | .proposeAdminChange currentAdmin newAdmin => proposeAdminChange inv s currentAdmin newAdmin
  | .acceptAdminChange newAdmin => acceptAdminChange inv s newAdmin
  | .cancelAdminChange multisig => cancelAdminChange inv s multisig
  | .setPauseGuardian guardian => setPauseGuardian inv s guardian
  | .setConfig config => setConfig inv s config
  | .registerReferral referrer referee isMentor => registerReferral inv s referrer referee isMentor
  | .fulfillReferral referee => fulfillReferral inv s referee
  | .claimReward referrer => claimReward inv s referrer
  | .distributeEpochBonus => distributeEpochBonus inv s
  | .distributeFromFee referrer platformFee rewardBps =>
      distributeFromFee inv s referrer platformFee rewardBps

abbrev Step (Addr : Type) (self : Addr) := Invocation Addr self × Call Addr

/-- The deployed contract. -/
def machine (self : Addr) : Machine (State Addr) (Step Addr self) Trap where
  exec step := exec step.1 step.2

/-- The state after a run from deployment. -/
abbrev reached (steps : List (Step Addr self)) : State Addr := (machine self).run deployed steps

end Referral
