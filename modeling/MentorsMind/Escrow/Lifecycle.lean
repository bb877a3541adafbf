import MentorsMind.Escrow.Config

/-! The life of a regular escrow: creation, the ways it is released, dispute and refund. -/
namespace Escrow
open Outcome Soroban Shared

variable {Addr : Type} [DecidableEq Addr] {self : Addr}

section Helpers

omit [DecidableEq Addr]

/-- The new status, logged under the id. -/
def transitionStatus (inv : Invocation Addr self) (b : Book Addr) (id : ℕ)
    (old new : EscrowStatus) (actor : Addr) : Result (EscrowStatus × Book Addr) := do
  let final ← EscrowStatus.transition old new
  pure (final, b.logTransition id ⟨old, final, actor, inv.timestamp⟩)

/-- Most entry points extend the record's lifetime before they read it. -/
def loadEscrow (b : Book Addr) (id : ℕ) : Result (EscrowRecord Addr) :=
  expect (b.escrow id) .missingEntry

end Helpers

/-- `token_client.transfer` from the contract, skipped for amounts that are not positive. -/
def transferIfPositive (inv : Invocation Addr self) (tokens : Tokens Addr)
    (token recipient : Addr) (amount : ℤ) : Result (Tokens Addr) :=
  if 0 < amount then tokens.transfer inv.accepts token self recipient amount else pure tokens

/-- The two payments of every release: the fee to the treasury, the rest to the mentor. -/
def payRelease (inv : Invocation Addr self) (c : Config Addr) (tokens : Tokens Addr)
    (token mentor : Addr) (platformFee netAmount : ℤ) : Result (Tokens Addr) := do
  let treasury ← expect c.treasury (.panic "Treasury not found")
  let tokens ← transferIfPositive inv tokens token treasury platformFee
  tokens.transfer inv.accepts token self mentor netAmount

/-- The end of a release of `grossAmount`: it is paid out, taken off the record and added
to the record's totals. -/
def settleRelease (inv : Invocation Addr self) (c : Config Addr) (s : Custody Addr)
    (escrow : EscrowRecord Addr) (grossAmount platformFee netAmount : ℤ)
    (price : PriceCache) : Result (EscrowRecord Addr × Custody Addr) := do
  let tokens ← payRelease inv c s.tokens escrow.tokenAddress escrow.mentor platformFee netAmount
  let amount ← safeSub escrow.amount grossAmount
  let fee ← safeAdd escrow.platformFee platformFee
  let net ← safeAdd escrow.netAmount netAmount
  pure ({ escrow with amount := amount, platformFee := fee, netAmount := net },
    { s with price := price, tokens := tokens })

def createEscrowInternal (inv : Invocation Addr self) (digests : Digests) (c : Config Addr)
    (s : Custody Addr) (mentor learner : Addr) (amount : ℤ) (sessionId : String)
    (tokenAddress : Addr) (sessionEndTime : ℕ) (usdAmount quotedTokenAmount : ℤ)
    (sendAsset destAsset : Addr) (totalSessions : ℕ) : Result (Custody Addr × ℕ) := do
  requirePositive amount
  requireMax amount maxFinancialAmount
  requirePositive totalSessions
  requireSufficientForDivision amount totalSessions
  require (c.approvedToken tokenAddress = true) (.panic "Token not approved")
  require (sendAsset = tokenAddress ∨ c.approvedToken sendAsset = true)
    (.panic "Send asset token not approved")
  require (destAsset = tokenAddress ∨ c.approvedToken destAsset = true)
    (.panic "Dest asset token not approved")
  requireAuth inv.toEnv learner
  require (amount ≤ s.tokens.balance tokenAddress learner) (.panic "Insufficient token balance")
  let nonce := digests.session sessionId
  require (validateSessionNonce 1 1 (s.book.usedSessionNonce nonce) = true)
    Error.duplicateEntry.trap
  require (¬ (0 < sessionEndTime ∧ sessionEndTime < inv.timestamp ∧
    detectTemporalReplay sessionEndTime inv.timestamp maxSessionTimeDriftSecs = true ∧
    maxSessionTimeDriftSecs < inv.timestamp - sessionEndTime))
    (.panic "Session timestamp too old")
  require (s.book.session sessionId = false) (.panic "Session already exists")
  let count ← u64 (s.book.escrowCount + 1)
  let tokens ← s.tokens.transfer inv.accepts tokenAddress learner self amount
  let (status, book) ← transitionStatus inv s.book count .pending .active learner
  let escrow : EscrowRecord Addr := {
    id := count
    mentor := mentor
    learner := learner
    amount := amount
    sessionId := sessionId
    status := status
    createdAt := inv.timestamp
    tokenAddress := tokenAddress
    platformFee := 0
    netAmount := 0
    sessionEndTime := sessionEndTime
    autoReleaseDelay := c.autoRelDelay.getD defaultAutoReleaseDelay
    disputeReason := ""
    resolvedAt := 0
    usdAmount := usdAmount
    quotedTokenAmount := quotedTokenAmount
    sendAsset := sendAsset
    destAsset := destAsset
    totalSessions := totalSessions
    sessionsCompleted := 0 }
  let book := { book with
    usedSessionNonce := Function.update book.usedSessionNonce nonce true
    session := Function.update book.session sessionId true
    escrowCount := count
    mentorEscrows := Function.update book.mentorEscrows mentor (book.mentorEscrows mentor ++ [count])
    learnerEscrows :=
      Function.update book.learnerEscrows learner (book.learnerEscrows learner ++ [count]) }
  pure ({ s with book := book.setEscrow count escrow, tokens := tokens }, count)

def createEscrow (inv : Invocation Addr self) (digests : Digests) (c : Config Addr)
    (s : Custody Addr) (mentor learner : Addr) (amount : ℤ) (sessionId : String)
    (tokenAddress : Addr) (sessionEndTime totalSessions : ℕ) : Result (Custody Addr × ℕ) :=
  createEscrowInternal inv digests c s mentor learner amount sessionId tokenAddress
    sessionEndTime 0 amount tokenAddress tokenAddress totalSessions

/-- `create_escrow_usd` validates its amount and then reads the oracle's address, which no
entry point ever stores. -/
def createEscrowUsd (_s : Custody Addr) (usdAmount : ℤ) : Result (Custody Addr × ℕ) := do
  requirePositive usdAmount
  requireMax usdAmount maxFinancialAmount
  throw (.panic "oracle not set")

def createEscrowWithPathPayment (inv : Invocation Addr self) (digests : Digests)
    (c : Config Addr) (s : Custody Addr) (learner mentor sendAsset : Addr) (sendMax : ℤ)
    (destAsset : Addr) (destAmount : ℤ) (totalSessions : ℕ) : Result (Custody Addr × ℕ) := do
  require (c.approvedToken sendAsset = true) (.panic "Send asset token not approved")
  require (c.approvedToken destAsset = true) (.panic "Dest asset token not approved")
  requirePositive destAmount
  requireMax destAmount maxFinancialAmount
  requirePositive sendMax
  requireMax sendMax maxFinancialAmount
  require (destAmount ≤ sendMax) (.panic "path slippage exceeded")
  createEscrowInternal inv digests c s mentor learner destAmount "PATHPAY" destAsset 0 0
    destAmount sendAsset destAsset totalSessions

/-- `_do_release`: all that remains is released. -/
def doRelease (inv : Invocation Addr self) (c : Config Addr) (s : Custody Addr)
    (escrow : EscrowRecord Addr) (id : ℕ) (actor : Addr) : Result (Custody Addr) := do
  let quote ← computeFeeUnified inv c s.price escrow.mentor escrow.amount
  let netAmount ← safeSub escrow.amount quote.fee
  let (settled, s) ← settleRelease inv c s escrow escrow.amount quote.fee netAmount quote.price
  let (status, book) ← transitionStatus inv s.book escrow.id escrow.status .released actor
  pure { s with book := book.setEscrow id { settled with status := status } }

/-- `_do_release_simple`: as `doRelease`, always at the flat rate. -/
def doReleaseSimple (inv : Invocation Addr self) (c : Config Addr) (s : Custody Addr)
    (escrow : EscrowRecord Addr) (id : ℕ) (actor : Addr) : Result (Custody Addr) := do
  let platformFee ← flatFee c escrow.amount
  let netAmount ← safeSub escrow.amount platformFee
  let (settled, s) ← settleRelease inv c s escrow escrow.amount platformFee netAmount s.price
  let (status, book) ← transitionStatus inv s.book escrow.id escrow.status .released actor
  pure { s with book := book.setEscrow id { settled with status := status } }

omit [DecidableEq Addr] in
/-- The minutes between creation and session end, as the `u32` they are cast to. -/
def interactionMinutes (escrow : EscrowRecord Addr) : ℕ :=
  if escrow.createdAt < escrow.sessionEndTime then
    (escrow.sessionEndTime - escrow.createdAt) / 60 % 2 ^ 32
  else requiredInteractionMinutes

def releaseFunds (inv : Invocation Addr self) (c : Config Addr) (isolated : ℕ → Bool)
    (s : Custody Addr) (caller : Addr) (escrowId : ℕ) : Result (Custody Addr) := do
  let escrow ← loadEscrow s.book escrowId
  require (escrow.status = .active) (.panic "Escrow not active")
  require (isolated escrowId = false) (.panic "Escrow isolated pending manual review")
  let admin ← expect c.admin (.panic "Admin not found")
  requireAuth inv.toEnv caller
  require (caller = escrow.learner ∨ caller = admin)
    (.panic s!"release_funds: caller is neither the learner nor the admin for escrow {escrowId}")
  let bypass := detectPlatformBypass (s.book.lowFeeSessionCount escrow.mentor escrow.learner)
    escrow.amount
  require (verifySessionAuthenticity (interactionMinutes escrow) true = true ∧
    bypass.isColluding = false) Error.sessionAuthFailed.trap
  let counts := Function.update s.book.lowFeeSessionCount escrow.mentor
    (Function.update (s.book.lowFeeSessionCount escrow.mentor) escrow.learner bypass.lowFeeCount)
  doRelease inv c { s with book := { s.book with lowFeeSessionCount := counts } } escrow
    escrowId caller

/-- The end that `release_partial` and `batch_release` share: `sessions` sessions worth
`grossAmount` are released, and the last one closes the escrow. -/
def releaseSessions (inv : Invocation Addr self) (c : Config Addr) (s : Custody Addr)
    (escrow : EscrowRecord Addr) (escrowId : ℕ) (actor : Addr) (sessions : ℕ)
    (grossAmount : ℤ) : Result (Custody Addr) := do
  let quote ← computeFeeUnified inv c s.price escrow.mentor grossAmount
  let netAmount ← safeSub grossAmount quote.fee
  let (settled, s) ← settleRelease inv c s escrow grossAmount quote.fee netAmount quote.price
  let completed ← u32 (escrow.sessionsCompleted + sessions)
  let settled := { settled with sessionsCompleted := completed }
  if completed = escrow.totalSessions then do
    let (status, book) ← transitionStatus inv s.book escrow.id escrow.status .released actor
    let book := { book with session := Function.update book.session escrow.sessionId false }
    pure { s with book := book.setEscrow escrowId { settled with status := status } }
  else
    pure { s with book := s.book.setEscrow escrowId settled }

omit [DecidableEq Addr] in
/-- What one session releases. The last one takes what is left, rounding dust included. -/
def sessionAmount (escrow : EscrowRecord Addr) : Result ℤ :=
  if escrow.sessionsCompleted + 1 = escrow.totalSessions then pure escrow.amount
  else safeDiv escrow.quotedTokenAmount escrow.totalSessions

omit [DecidableEq Addr] in
/-- What a batch of sessions releases. The last batch takes what is left. -/
def batchAmount (escrow : EscrowRecord Addr) (sessions : ℕ) : Result ℤ := do
  let perSession ← safeDiv escrow.quotedTokenAmount escrow.totalSessions
  if escrow.sessionsCompleted + sessions = escrow.totalSessions then pure escrow.amount
  else safeMul perSession sessions

def releasePartial (inv : Invocation Addr self) (c : Config Addr) (s : Custody Addr)
    (caller : Addr) (escrowId : ℕ) : Result (Custody Addr) := do
  let escrow ← loadEscrow s.book escrowId
  require (escrow.status = .active) (.panic "Escrow not active")
  require (escrow.sessionsCompleted < escrow.totalSessions)
    (.panic "All sessions already released")
  let admin ← expect c.admin (.panic "Admin not found")
  requireAuth inv.toEnv caller
  require (caller = escrow.learner ∨ caller = admin) (.panic "Caller not authorized")
  let amountToRelease ← sessionAmount escrow
  releaseSessions inv c s escrow escrowId caller 1 amountToRelease

def batchRelease (inv : Invocation Addr self) (c : Config Addr) (s : Custody Addr)
    (admin : Addr) (escrowId sessionsToRelease : ℕ) : Result (Custody Addr) := do
  let escrow ← loadEscrow s.book escrowId
  let storedAdmin ← expect c.admin (.panic "Admin not found")
  requireAuth inv.toEnv admin
  require (admin = storedAdmin) (.panic "Only admin can batch release")
  require (escrow.status = .active) (.panic "Escrow not active")
  require (sessionsToRelease ≠ 0) (.panic "Must release at least one session")
  require (escrow.sessionsCompleted ≤ escrow.totalSessions) .arithmetic
  require (sessionsToRelease ≤ escrow.totalSessions - escrow.sessionsCompleted)
    (.panic "Cannot release more sessions than remaining")
  let amountToRelease ← batchAmount escrow sessionsToRelease
  releaseSessions inv c s escrow escrowId admin sessionsToRelease amountToRelease

def adminRelease (inv : Invocation Addr self) (c : Config Addr) (s : Custody Addr)
    (escrowId : ℕ) : Result (Custody Addr) := do
  let escrow ← loadEscrow s.book escrowId
  require (escrow.status = .active) (.panic "Escrow not active")
  let admin ← storedAdmin inv c "Admin not found"
  doRelease inv c s escrow escrowId admin

def dispute (inv : Invocation Addr self) (s : Custody Addr) (caller : Addr) (escrowId : ℕ)
    (reason : String) : Result (Custody Addr) := do
  let escrow ← loadEscrow s.book escrowId
  require (escrow.status = .active) (.panic "Escrow not active")
  requireAuth inv.toEnv caller
  require (caller = escrow.mentor ∨ caller = escrow.learner)
    (.panic "Caller not authorized to dispute")
  let (status, book) ← transitionStatus inv s.book escrow.id escrow.status .disputed caller
  pure { s with book :=
    book.setEscrow escrowId { escrow with status := status, disputeReason := reason } }

/-- The learner's share of a resolved escrow is stored as its platform fee. -/
def resolveDispute (inv : Invocation Addr self) (c : Config Addr) (isolated : ℕ → Bool)
    (s : Custody Addr) (escrowId mentorPct : ℕ) : Result (Custody Addr) := do
  let admin ← storedAdmin inv c "Not initialized"
  require (mentorPct ≤ 100) (.panic "mentor_pct must be 0–100")
  require (isolated escrowId = false) (.panic "Escrow isolated pending manual review")
  let escrow ← loadEscrow s.book escrowId
  require (escrow.status = .disputed) (.panic "Escrow is not in Disputed status")
  let product ← safeMul escrow.amount mentorPct
  let mentorAmount ← safeDiv product 100
  let learnerAmount ← safeSub escrow.amount mentorAmount
  let tokens ← transferIfPositive inv s.tokens escrow.tokenAddress escrow.mentor mentorAmount
  let tokens ← transferIfPositive inv tokens escrow.tokenAddress escrow.learner learnerAmount
  let (status, book) ← transitionStatus inv s.book escrow.id escrow.status .resolved admin
  let resolved := { escrow with
    status := status
    netAmount := mentorAmount
    platformFee := learnerAmount
    resolvedAt := inv.timestamp }
  pure { s with book := book.setEscrow escrowId resolved, tokens := tokens }

def refund (inv : Invocation Addr self) (c : Config Addr) (s : Custody Addr)
    (escrowId : ℕ) : Result (Custody Addr) := do
  let admin ← storedAdmin inv c "Admin not found"
  let escrow ← loadEscrow s.book escrowId
  require (escrow.status ≠ .released ∧ escrow.status ≠ .refunded ∧ escrow.status ≠ .resolved)
    (.panic "Cannot refund")
  let tokens ← s.tokens.transfer inv.accepts escrow.tokenAddress self escrow.learner
    escrow.amount
  let (status, book) ← transitionStatus inv s.book escrow.id escrow.status .refunded admin
  pure { s with
    book := book.setEscrow escrowId { escrow with status := status }, tokens := tokens }

end Escrow

/-! Automatic release with its failure record, the watchlist of stuck escrows and the
admin's manual recovery. -/
namespace Escrow
open Outcome Soroban Shared

variable {Addr : Type} {self : Addr}

namespace Failures

def setRecord (f : Failures) (id : ℕ) (failure : ReleaseFailure) : Failures :=
  { f with record := Function.update f.record id (some failure) }

def clearRecord (f : Failures) (id : ℕ) : Failures :=
  { f with record := Function.update f.record id none }

/-- `_get_or_init_failure_record`. -/
def getOrInitRecord (f : Failures) (id : ℕ) : ReleaseFailure :=
  (f.record id).getD {
    escrowId := id
    attemptNumber := 0
    maxAttempts := maxAutoReleaseAttempts
    classification := .unknown
    lastFailureTime := 0
    nextRetryTime := 0
    errorHash := 0
    recoveryState := .retrying
    manualRecoveryAt := 0
    manualRecoveryReason := 0 }

/-- `_remove_from_stuck_watchlist`. -/
def removeFromStuckWatchlist (f : Failures) (id : ℕ) : Failures :=
  { f with stuckEscrows := f.stuckEscrows.filter (· ≠ id) }

end Failures

/-- The reputation hook, the insurance cover and the tier lookup, where configured. -/
def autoReleasePrechecks (inv : Invocation Addr self) (c : Config Addr)
    (escrow : EscrowRecord Addr) : Bool :=
  (match c.reputationContract with
    | some reputation => inv.onSessionReleased reputation escrow.id escrow.mentor escrow.learner
        escrow.amount
    | none => true) &&
  (match c.insuranceContract with
    | some insurance => (inv.coverageRatio insurance).any (0 < ·)
    | none => true) &&
  (match c.feeSchedule, c.stakingContract with
    | some _, some staking => (inv.tier staking escrow.mentor).isSome
    | _, _ => true)

/-- The record after one more failed attempt. -/
def recordFailedAttempt (now : ℕ) (failure : ReleaseFailure) : Result ReleaseFailure := do
  let attemptNumber ← u32 (failure.attemptNumber + 1)
  let failure := { failure with attemptNumber := attemptNumber, lastFailureTime := now }
  pure { failure with
    nextRetryTime := calculateNextRetry now failure
    recoveryState := if maxAutoReleaseAttempts ≤ attemptNumber then .awaitingManualRecovery
      else .retrying }

variable [DecidableEq Addr]

/-- A failed precheck is recorded and the call succeeds, so that the record stays. -/
def tryAutoRelease (inv : Invocation Addr self) (c : Config Addr) (s : Custody Addr)
    (f : Failures) (escrowId : ℕ) : Result (Custody Addr × Failures) := do
  let escrow ← loadEscrow s.book escrowId
  require (escrow.status = .active) (.panic "Escrow not active")
  let now := inv.timestamp
  let releaseAfter ← safeAddU64 escrow.sessionEndTime escrow.autoReleaseDelay
  require (releaseAfter ≤ now) (.panic "Auto-release window has not elapsed")
  let failure := f.getOrInitRecord escrowId
  require (failure.attemptNumber < maxAutoReleaseAttempts)
    (.panic s!"Auto-release permanently disabled: {failure.attemptNumber} attempts exhausted; manual recovery required")
  require (failure.nextRetryTime ≤ now)
    (.panic s!"Auto-release in exponential backoff; next retry at {failure.nextRetryTime}")
  if autoReleasePrechecks inv c escrow then do
    let s ← doRelease inv c s escrow escrowId self
    pure (s, f.clearRecord escrowId)
  else do
    let failure ← recordFailedAttempt now failure
    pure (s, f.setRecord escrowId failure)

def reportStuckEscrow (inv : Invocation Addr self) (b : Book Addr) (f : Failures)
    (reporter : Addr) (escrowId : ℕ) : Result Failures := do
  requireAuth inv.toEnv reporter
  let escrow ← loadEscrow b escrowId
  require (escrow.status = .active)
    (.panic "Escrow is not active; cannot be reported as stuck")
  let stuckSince ← safeAddU64 escrow.sessionEndTime escrow.autoReleaseDelay
  let reportableAfter ← safeAddU64 stuckSince gracePeriodSecs
  require (reportableAfter ≤ inv.timestamp)
    (.panic s!"Stuck-report grace period not elapsed: {inv.timestamp} < {reportableAfter}")
  pure (if f.stuckEscrows.contains escrowId then f
    else { f with stuckEscrows := f.stuckEscrows ++ [escrowId] })

def manualRecoveryRelease (inv : Invocation Addr self) (c : Config Addr) (s : Custody Addr)
    (f : Failures) (escrowId : ℕ) (recoveryReasonHash : Hash) :
    Result (Custody Addr × Failures) := do
  let admin ← storedAdmin inv c "Not initialized"
  let failure ← expect (f.record escrowId)
    (.panic "No failure record found; escrow may not have auto-release issues")
  require (manualRecoveryThreshold ≤ failure.attemptNumber)
    (.panic s!"Manual recovery not yet available; {manualRecoveryThreshold - failure.attemptNumber} more failures required")
  require (failure.attemptNumber < maxAutoReleaseAttempts)
    (.panic s!"Escrow permanently blocked; max attempts ({maxAutoReleaseAttempts}) reached")
  let escrow ← loadEscrow s.book escrowId
  require (escrow.status = .active)
    (.panic "Escrow not active; manual recovery only for active escrows")
  let s ← doReleaseSimple inv c s escrow escrowId admin
  pure (s, f.setRecord escrowId { failure with
    recoveryState := .recovered
    manualRecoveryAt := inv.timestamp
    manualRecoveryReason := recoveryReasonHash })

end Escrow
