import MentorsMind.Shared.SafeMath
import MentorsMind.Shared.Throttling
import MentorsMind.Soroban.TokenLedger

/-! Subscriptions: monthly plans that anybody may renew from an allowance of the learner, and
streams that drip a deposit to the mentor second by second. The deposits lie in the escrow wallet,
which signs for the payments out of it. The events and the protocol parameters are left out. -/
namespace Subscription
open Outcome Soroban Shared

def secondsPerMonth : ℕ := 30 * 24 * 60 * 60
def renewalGraceSecs : ℕ := 60
def subscriptionExpiryGraceSecs : ℕ := 7 * 24 * 60 * 60
def defaultPlatformFeeBps : ℤ := 250

inductive SubscriptionStatus where
  | active
  | paused
  | cancelled
  | expired
  deriving DecidableEq

structure Plan (Addr : Type) where
  mentor : Addr
  pricePerMonth : ℤ
  token : Addr
  sessionsPerMonth : ℕ

structure SubscriptionRecord (Addr : Type) where
  learner : Addr
  mentor : Addr
  planId : ℕ
  startDate : ℕ
  nextBillingDate : ℕ
  sessionsUsed : ℕ
  status : SubscriptionStatus

structure StreamPlan (Addr : Type) where
  mentor : Addr
  ratePerSecond : ℤ
  token : Addr

structure StreamingSubscription (Addr : Type) where
  learner : Addr
  mentor : Addr
  planId : ℕ
  start : ℕ
  balanceDeposited : ℤ
  withdrawnByMentor : ℤ
  isActive : Bool
  endedAt : ℕ

/-- One field for each storage key; absent counters, revenues and counts read as zero, an absent
approval as false. `transfers` is what the tokens moved for the contract, latest first. -/
structure State (Addr : Type) where
  admin : Option Addr
  escrow : Option Addr
  planCounter : ℕ
  subCounter : ℕ
  plan : ℕ → Option (Plan Addr)
  sub : ℕ → Option (SubscriptionRecord Addr)
  renewalAllowance : ℕ → Option ℤ
  streamPlanCounter : ℕ
  streamSubCounter : ℕ
  streamPlan : ℕ → Option (StreamPlan Addr)
  streamSub : ℕ → Option (StreamingSubscription Addr)
  approvedToken : Addr → Bool
  treasury : Option Addr
  platformFeeBps : Option ℤ
  mentorRevenue : Addr × Addr → ℤ
  graceRenewalCount : Addr → ℕ
  graceRenewalVolume : Addr → ℤ
  transfers : List (Transfer Addr)

def deployed {Addr : Type} : State Addr where
  admin := none
  escrow := none
  planCounter := 0
  subCounter := 0
  plan _ := none
  sub _ := none
  renewalAllowance _ := none
  streamPlanCounter := 0
  streamSubCounter := 0
  streamPlan _ := none
  streamSub _ := none
  approvedToken _ := false
  treasury := none
  platformFeeBps := none
  mentorRevenue _ := 0
  graceRenewalCount _ := 0
  graceRenewalVolume _ := 0
  transfers := []

/-- One invocation: the ledger, the signers and what the tokens answer. -/
structure Invocation (Addr : Type) (home : Addr) extends Env Addr home where
  /-- An honest token moves what it is asked to, or refuses. -/
  accepts : Transfer Addr → Bool
  /-- The balance of a holder; `none` where the token traps. -/
  balance : Addr → Addr → Option ℤ

variable {Addr : Type} {self : Addr}

/-- The entry point `initialize`, which asks for no authorisation. -/
def initializeSubscription (s : State Addr) (admin escrow : Addr) : Result (State Addr) := do
  require (s.admin = none) (.panic "already initialized")
  pure { s with
    admin := some admin
    escrow := some escrow
    planCounter := 0
    subCounter := 0
    treasury := some admin
    platformFeeBps := some defaultPlatformFeeBps }

/-- `token::Client::transfer`. -/
def transfer (inv : Invocation Addr self) (s : State Addr) (token source recipient : Addr)
    (amount : ℤ) : Result (State Addr) := do
  require (0 ≤ amount) .subcall
  require (inv.accepts ⟨token, source, recipient, amount⟩ = true) .subcall
  pure { s with transfers := ⟨token, source, recipient, amount⟩ :: s.transfers }

/-- A transfer that is left out when there is nothing to move. -/
def transferPositive (inv : Invocation Addr self) (s : State Addr)
    (token source recipient : Addr) (amount : ℤ) : Result (State Addr) :=
  if 0 < amount then transfer inv s token source recipient amount else pure s

section Streams

def createStreamingPlan (inv : Invocation Addr self) (s : State Addr) (mentor : Addr)
    (ratePerSecond : ℤ) (token : Addr) : Result (State Addr) := do
  requireAuth inv.toEnv mentor
  require (0 < ratePerSecond) (.panic "rate_per_second must be positive")
  let count ← u32 (s.streamPlanCounter + 1)
  pure { s with
    streamPlan := Function.update s.streamPlan s.streamPlanCounter
      (some ⟨mentor, ratePerSecond, token⟩)
    streamPlanCounter := count }

def subscribeStreaming (inv : Invocation Addr self) (s : State Addr) (learner : Addr)
    (planId : ℕ) (depositAmount : ℤ) : Result (State Addr) := do
  requireAuth inv.toEnv learner
  let plan ← expect (s.streamPlan planId) (.panic "stream plan not found")
  require (0 < depositAmount) (.panic "deposit_amount must be positive")
  let escrow ← expect s.escrow (.panic "not initialized")
  let paid ← transfer inv s plan.token learner escrow depositAmount
  let count ← u32 (s.streamSubCounter + 1)
  let record : StreamingSubscription Addr := {
    learner := learner
    mentor := plan.mentor
    planId := planId
    start := inv.timestamp
    balanceDeposited := depositAmount
    withdrawnByMentor := 0
    isActive := true
    endedAt := 0 }
  pure { paid with
    streamSub := Function.update s.streamSub s.streamSubCounter (some record)
    streamSubCounter := count }

/-- `(elapsed * rate_per_second).min(balance_deposited)`; the product is not checked. -/
def totalEarned (record : StreamingSubscription Addr) (rate : ℤ) (now : ℕ) : Result ℤ := do
  let product ← i128 ((now - record.start : ℕ) * rate)
  pure (min product record.balanceDeposited)

variable [DecidableEq Addr]

def withdrawEarned (inv : Invocation Addr self) (s : State Addr) (mentor : Addr) (subId : ℕ) :
    Result (State Addr) := do
  requireAuth inv.toEnv mentor
  let record ← expect (s.streamSub subId) (.panic "stream not found")
  require (record.mentor = mentor) (.panic "not the stream mentor")
  let plan ← expect (s.streamPlan record.planId) (.panic "stream plan not found")
  let effectiveNow := if record.isActive then inv.timestamp else record.endedAt
  let earned ← totalEarned record plan.ratePerSecond effectiveNow
  let claimable ← i128 (earned - record.withdrawnByMentor)
  require (0 < claimable) (.panic "nothing to withdraw")
  let withdrawn ← i128 (record.withdrawnByMentor + claimable)
  let escrow ← expect s.escrow (.panic "not initialized")
  let written := { s with
    streamSub := Function.update s.streamSub subId
      (some { record with withdrawnByMentor := withdrawn }) }
  transfer inv written plan.token escrow mentor claimable

def cancelStreaming (inv : Invocation Addr self) (s : State Addr) (learner : Addr)
    (subId : ℕ) : Result (State Addr) := do
  requireAuth inv.toEnv learner
  let record ← expect (s.streamSub subId) (.panic "stream not found")
  require (record.learner = learner) (.panic "not the stream learner")
  require (record.isActive = true) (.panic "stream already cancelled")
  let plan ← expect (s.streamPlan record.planId) (.panic "stream plan not found")
  let earned ← totalEarned record plan.ratePerSecond inv.timestamp
  let mentorOwed ← i128 (earned - record.withdrawnByMentor)
  let learnerRefund ← i128 (record.balanceDeposited - earned)
  let ended := { record with
    isActive := false, endedAt := inv.timestamp, withdrawnByMentor := earned }
  let written := { s with streamSub := Function.update s.streamSub subId (some ended) }
  let escrow ← expect s.escrow (.panic "not initialized")
  let settled ← transferPositive inv written plan.token escrow record.mentor mentorOwed
  transferPositive inv settled plan.token escrow learner learnerRefund

end Streams

section Monthly

variable [DecidableEq Addr]

/-- The check of the entry points of the admin. -/
def requireAdmin (inv : Invocation Addr self) (s : State Addr) (admin : Addr) : Result Unit := do
  let stored ← expect s.admin (.panic "not initialized")
  requireAuth inv.toEnv admin
  require (admin = stored) (.panic "not admin")

def setApprovedToken (inv : Invocation Addr self) (s : State Addr) (admin token : Addr)
    (approved : Bool) : Result (State Addr) := do
  requireAdmin inv s admin
  pure { s with approvedToken := Function.update s.approvedToken token approved }

def setTreasury (inv : Invocation Addr self) (s : State Addr) (admin treasury : Addr) :
    Result (State Addr) := do
  requireAdmin inv s admin
  pure { s with treasury := some treasury }

def setPlatformFeeBps (inv : Invocation Addr self) (s : State Addr) (admin : Addr)
    (feeBps : ℤ) : Result (State Addr) := do
  requireAdmin inv s admin
  require (0 ≤ feeBps ∧ feeBps ≤ 10000) (.panic "fee_bps must be 0-10000")
  pure { s with platformFeeBps := some feeBps }

/-- The fee goes to the treasury and the rest to the escrow wallet. -/
def routePayment (inv : Invocation Addr self) (s : State Addr) (payer mentor token : Addr)
    (amount : ℤ) : Result (State Addr) := do
  let treasury ← expect s.treasury (.panic "not initialized")
  let feeBps := s.platformFeeBps.getD defaultPlatformFeeBps
  let escrow ← expect s.escrow (.panic "not initialized")
  let product ← checkedI128 (amount * feeBps) (.panic "fee overflow")
  let fee := product.tdiv 10000
  let remainder ← i128 (amount - fee)
  let taxed ← transferPositive inv s token payer treasury fee
  let paid ← transfer inv taxed token payer escrow remainder
  let revenue ← i128 (s.mentorRevenue (mentor, token) + remainder)
  pure { paid with
    mentorRevenue := Function.update s.mentorRevenue (mentor, token) revenue }

def createPlan (inv : Invocation Addr self) (s : State Addr) (mentor : Addr)
    (pricePerMonth : ℤ) (token : Addr) (sessionsPerMonth : ℕ) : Result (State Addr) := do
  requireAuth inv.toEnv mentor
  require (0 < pricePerMonth) (.panic "price must be positive")
  require (sessionsPerMonth ≠ 0) (.panic "sessions_per_month must be > 0")
  require (s.approvedToken token = true) (.panic "token not approved")
  let count ← u32 (s.planCounter + 1)
  pure { s with
    plan := Function.update s.plan s.planCounter
      (some ⟨mentor, pricePerMonth, token, sessionsPerMonth⟩)
    planCounter := count }

def subscribe (inv : Invocation Addr self) (s : State Addr) (learner : Addr) (planId : ℕ) :
    Result (State Addr) := do
  requireAuth inv.toEnv learner
  let plan ← expect (s.plan planId) (.panic "plan not found")
  let paid ← routePayment inv s learner plan.mentor plan.token plan.pricePerMonth
  let nextBillingDate ← u64 (inv.timestamp + secondsPerMonth)
  let count ← u32 (s.subCounter + 1)
  let record : SubscriptionRecord Addr := {
    learner := learner
    mentor := plan.mentor
    planId := planId
    startDate := inv.timestamp
    nextBillingDate := nextBillingDate
    sessionsUsed := 0
    status := .active }
  pure { paid with
    sub := Function.update s.sub s.subCounter (some record)
    subCounter := count }

omit [DecidableEq Addr] in
/-- The record of a subscription that is stored again under another status. -/
def setStatus (s : State Addr) (id : ℕ) (record : SubscriptionRecord Addr)
    (status : SubscriptionStatus) : State Addr :=
  { s with sub := Function.update s.sub id (some { record with status := status }) }

omit [DecidableEq Addr] in
/-- A renewal that comes too late or finds no funds. -/
def expireRenewal (s : State Addr) (id : ℕ) (record : SubscriptionRecord Addr) : State Addr :=
  { setStatus s id record .expired with
    renewalAllowance := Function.update s.renewalAllowance id none }

/-- What a renewal before the billing date leaves of the counters of the learner. -/
def countGraceRenewal (s : State Addr) (learner : Addr) (count : ℕ) (volume : ℤ) : State Addr :=
  { s with
    graceRenewalCount := Function.update s.graceRenewalCount learner count
    graceRenewalVolume := Function.update s.graceRenewalVolume learner volume }

/-- The payment of a renewal that is due and funded. -/
def chargeRenewal (inv : Invocation Addr self) (s : State Addr) (id : ℕ)
    (record : SubscriptionRecord Addr) (plan : Plan Addr) (allowance : ℤ) :
    Result (State Addr) := do
  let isGraceRenewal : Bool := inv.timestamp < record.nextBillingDate
  let count := saturatingAddU32 (s.graceRenewalCount record.learner)
    (if isGraceRenewal then 1 else 0)
  let priorVolume := s.graceRenewalVolume record.learner
  let volume :=
    if isGraceRenewal then saturateI128 (priorVolume + plan.pricePerMonth) else priorVolume
  require (isEvading count volume = false) (.contractError 1)
  let counted := if isGraceRenewal then countGraceRenewal s record.learner count volume else s
  let newAllowance ← i128 (allowance - plan.pricePerMonth)
  let deducted := { counted with
    renewalAllowance := Function.update s.renewalAllowance id (some newAllowance) }
  let paid ← routePayment inv deducted record.learner record.mentor plan.token plan.pricePerMonth
  let nextBillingDate ← u64 (record.nextBillingDate + secondsPerMonth)
  pure { paid with
    sub := Function.update s.sub id
      (some { record with nextBillingDate := nextBillingDate, sessionsUsed := 0 }) }

/-- Anybody may call. -/
def renew (inv : Invocation Addr self) (s : State Addr) (id : ℕ) : Result (State Addr) := do
  let record ← expect (s.sub id) (.panic "subscription not found")
  require (record.status = .active) (.panic "subscription not active")
  let expiryDeadline ← checkedU64 (record.nextBillingDate + subscriptionExpiryGraceSecs)
    (.panic "timestamp overflow")
  if expiryDeadline ≤ inv.timestamp then pure (expireRenewal s id record)
  else do
    require (record.nextBillingDate - renewalGraceSecs ≤ inv.timestamp)
      (.panic "billing date not reached")
    let plan ← expect (s.plan record.planId) (.panic "plan not found")
    let allowance := (s.renewalAllowance id).getD 0
    let available ← expect (inv.balance plan.token record.learner) .subcall
    if allowance < plan.pricePerMonth ∨ available < plan.pricePerMonth then
      pure (expireRenewal s id record)
    else chargeRenewal inv s id record plan allowance

omit [DecidableEq Addr] in
def cancel (inv : Invocation Addr self) (s : State Addr) (id : ℕ) : Result (State Addr) := do
  let record ← expect (s.sub id) (.panic "subscription not found")
  requireAuth inv.toEnv record.learner
  require (record.status ≠ .cancelled) (.panic "already cancelled")
  pure (setStatus s id record .cancelled)

omit [DecidableEq Addr] in
def pause (inv : Invocation Addr self) (s : State Addr) (id : ℕ) : Result (State Addr) := do
  let record ← expect (s.sub id) (.panic "subscription not found")
  requireAuth inv.toEnv record.learner
  require (record.status = .active) (.panic "subscription not active")
  pure (setStatus s id record .paused)

omit [DecidableEq Addr] in
/-- Where the subscription has lapsed the call panics, so that its status stays as it is. -/
def useSession (inv : Invocation Addr self) (s : State Addr) (id : ℕ) : Result (State Addr) := do
  let record ← expect (s.sub id) (.panic "subscription not found")
  require (record.status = .active) (.panic "subscription not active")
  let expiryDeadline ← checkedU64 (record.nextBillingDate + subscriptionExpiryGraceSecs)
    (.panic "timestamp overflow")
  require (inv.timestamp < expiryDeadline) (.panic "subscription expired")
  let plan ← expect (s.plan record.planId) (.panic "plan not found")
  require (record.sessionsUsed < plan.sessionsPerMonth) (.panic "session limit reached")
  let used ← u32 (record.sessionsUsed + 1)
  pure { s with sub := Function.update s.sub id (some { record with sessionsUsed := used }) }

omit [DecidableEq Addr] in
def checkExpiry (inv : Invocation Addr self) (s : State Addr) (id : ℕ) : Result (State Addr) := do
  let record ← expect (s.sub id) (.panic "subscription not found")
  if record.status = .active then do
    let expiryDeadline ← checkedU64 (record.nextBillingDate + subscriptionExpiryGraceSecs)
      (.panic "timestamp overflow")
    if expiryDeadline ≤ inv.timestamp then pure (setStatus s id record .expired) else pure s
  else pure s

omit [DecidableEq Addr] in
def authorizeRenewal (inv : Invocation Addr self) (s : State Addr) (id : ℕ) (maxAmount : ℤ) :
    Result (State Addr) := do
  let record ← expect (s.sub id) (.panic "subscription not found")
  requireAuth inv.toEnv record.learner
  require (0 ≤ maxAmount) (.panic "max_amount must be non-negative")
  pure { s with renewalAllowance := Function.update s.renewalAllowance id (some maxAmount) }

end Monthly

/-- The entry points that write, with their arguments. -/
inductive Call (Addr : Type) where
  | initializeSubscription (admin escrow : Addr)
  | setApprovedToken (admin token : Addr) (approved : Bool)
  | setTreasury (admin treasury : Addr)
  | setPlatformFeeBps (admin : Addr) (feeBps : ℤ)
  | createPlan (mentor : Addr) (pricePerMonth : ℤ) (token : Addr) (sessionsPerMonth : ℕ)
  | subscribe (learner : Addr) (planId : ℕ)
  | renew (id : ℕ)
  | cancel (id : ℕ)
  | pause (id : ℕ)
  | useSession (id : ℕ)
  | checkExpiry (id : ℕ)
  | authorizeRenewal (id : ℕ) (maxAmount : ℤ)
  | createStreamingPlan (mentor : Addr) (ratePerSecond : ℤ) (token : Addr)
  | subscribeStreaming (learner : Addr) (planId : ℕ) (depositAmount : ℤ)
  | withdrawEarned (mentor : Addr) (subId : ℕ)
  | cancelStreaming (learner : Addr) (subId : ℕ)

variable [DecidableEq Addr]

def exec (inv : Invocation Addr self) (call : Call Addr) (s : State Addr) :
    Result (State Addr) :=
  match call with
  | .initializeSubscription admin escrow => initializeSubscription s admin escrow
  | .setApprovedToken admin token approved => setApprovedToken inv s admin token approved
  | .setTreasury admin treasury => setTreasury inv s admin treasury
  | .setPlatformFeeBps admin feeBps => setPlatformFeeBps inv s admin feeBps
  | .createPlan mentor pricePerMonth token sessionsPerMonth =>
      createPlan inv s mentor pricePerMonth token sessionsPerMonth
  | .subscribe learner planId => subscribe inv s learner planId
  | .renew id => renew inv s id
  | .cancel id => cancel inv s id
  | .pause id => pause inv s id
  | .useSession id => useSession inv s id
  | .checkExpiry id => checkExpiry inv s id
  | .authorizeRenewal id maxAmount => authorizeRenewal inv s id maxAmount
  | .createStreamingPlan mentor ratePerSecond token =>
      createStreamingPlan inv s mentor ratePerSecond token
  | .subscribeStreaming learner planId depositAmount =>
      subscribeStreaming inv s learner planId depositAmount
  | .withdrawEarned mentor subId => withdrawEarned inv s mentor subId
  | .cancelStreaming learner subId => cancelStreaming inv s learner subId

abbrev Step (Addr : Type) (self : Addr) := Invocation Addr self × Call Addr

/-- The deployed contract. -/
def machine (self : Addr) : Machine (State Addr) (Step Addr self) Trap where
  exec step := exec step.1 step.2

/-- The state after a run from deployment. -/
abbrev reached (steps : List (Step Addr self)) : State Addr := (machine self).run deployed steps

end Subscription
