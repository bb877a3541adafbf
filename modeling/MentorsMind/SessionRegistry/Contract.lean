import MentorsMind.Shared.PlatformAuthenticity

/-! The registry of booked sessions: booking with its checks, the bucket index that conflicts are
found through, and the changes of status. Left out are events, proofs of completion, the lists of
sessions by mentor and learner, the scores that only views read, and the other services of the
contract. -/
namespace SessionRegistry
open Outcome Soroban Shared

/-- Schedule occupancy is tracked in buckets of half an hour. -/
def slotSizeSecs : ℕ := 1800

/-- The time that must stay free between two sessions of a mentor. -/
def schedulingBufferSecs : ℕ := 900

def monitoringLogCap : ℕ := 20

inductive SessionStatus where
  | pending
  | confirmed
  | completed
  | cancelled
  deriving DecidableEq

structure SessionRecord (Addr : Type) where
  sessionId : String
  mentor : Addr
  learner : Addr
  scheduledAt : ℕ
  durationMins : ℕ
  amount : ℤ
  token : Addr
  status : SessionStatus
  registeredAt : ℕ
  deriving DecidableEq

/-- One field for each kind of storage key. Absent counters, totals and logs read as zero and
empty, but for the active sessions, whose default is not the same everywhere. -/
structure State (Addr : Type) where
  backend : Option Addr
  sessionOracle : Option Addr
  session : String → Option (SessionRecord Addr)
  mentorScheduleSlot : Addr × ℕ → Option String
  mentorRequestCount : Addr × ℕ → ℕ
  activeSessions : Addr → Option ℕ
  totalRequests : Addr → ℕ
  cancelledRequests : Addr → ℕ
  mentorLowFeeCount : Addr × Addr → ℕ
  mentorLearnerLog : Addr × Addr → List ℕ
  learnerTotalSpend : Addr → ℤ
  learnerTotalSessionCount : Addr → ℕ
  /-- The `affordability_concern` of the stored assessment of a learner and a mentor. -/
  affordabilityConcern : Addr × Addr → Bool

def deployed (Addr : Type) : State Addr where
  backend := none
  sessionOracle := none
  session _ := none
  mentorScheduleSlot _ := none
  mentorRequestCount _ := 0
  activeSessions _ := none
  totalRequests _ := 0
  cancelledRequests _ := 0
  mentorLowFeeCount _ := 0
  mentorLearnerLog _ := []
  learnerTotalSpend _ := 0
  learnerTotalSessionCount _ := 0
  affordabilityConcern _ := false

/-- One invocation: the ledger, the signers, and the mentors that the functions for the protection
of learners have suspended. -/
structure Invocation (Addr : Type) (home : Addr) extends Env Addr home where
  mentorSuspended : Addr → Bool

/-- What a caller of `register_session` hands over. -/
structure Booking (Addr : Type) where
  sessionId : String
  mentor : Addr
  learner : Addr
  scheduledAt : ℕ
  durationMins : ℕ
  amount : ℤ
  token : Addr

variable {Addr : Type} {home : Addr}

section Schedule

/-- Returns the end of the session. -/
def validateTimeSlot (scheduledAt durationMins : ℕ) : Result ℕ := do
  require (durationMins ≠ 0) (.panic "InvalidDuration")
  checkedU64 (scheduledAt + durationMins * 60) (.panic "SessionEndOverflow")

/-- The buckets from that of `start` to the last one that begins before `stop`. -/
def bucketsBetween (start stop : ℕ) : List ℕ :=
  let startBucket := start / slotSizeSecs
  let endBucket := (stop + slotSizeSecs - 1) / slotSizeSecs
  List.range' startBucket (endBucket - startBucket)

/-- The session that stands in a bucket comes within the buffer of `[scheduledAt, sessionEnd)`. Its
status is not looked at. The sums are those of `u64::saturating_add`. -/
def conflictsInBucket (s : State Addr) (mentor : Addr) (scheduledAt sessionEnd bucket : ℕ) :
    Bool :=
  match (s.mentorScheduleSlot (mentor, bucket)).bind s.session with
  | none => false
  | some other =>
      let otherEnd := saturatingAddU64 other.scheduledAt (other.durationMins * 60)
      decide (scheduledAt < saturatingAddU64 otherEnd schedulingBufferSecs ∧
        other.scheduledAt < saturatingAddU64 sessionEnd schedulingBufferSecs)

/-- The buckets that a booking looks through. -/
def scannedBuckets (scheduledAt sessionEnd : ℕ) : List ℕ :=
  bucketsBetween (scheduledAt - schedulingBufferSecs) (sessionEnd + schedulingBufferSecs)

def checkSchedulingConflicts (s : State Addr) (mentor : Addr) (scheduledAt durationMins : ℕ) :
    Result Unit := do
  let sessionEnd ← validateTimeSlot scheduledAt durationMins
  let scanEnd ← checkedU64 (sessionEnd + schedulingBufferSecs) (.panic "SessionEndOverflow")
  let _ ← u64 (scanEnd + slotSizeSecs)
  require (∀ bucket ∈ scannedBuckets scheduledAt sessionEnd,
    conflictsInBucket s mentor scheduledAt sessionEnd bucket = false) (.panic "SessionConflict")

variable [DecidableEq Addr]

/-- A bucket holds one session: what stood in it is overwritten. -/
def reserveTimeBuckets (slot : Addr × ℕ → Option String) (mentor : Addr)
    (scheduledAt sessionEnd : ℕ) (sessionId : String) : Addr × ℕ → Option String :=
  (bucketsBetween scheduledAt sessionEnd).foldl
    (fun slot bucket => Function.update slot (mentor, bucket) (some sessionId)) slot

/-- Clears the buckets of a session, whichever session stands in them. -/
def releaseTimeBuckets (slot : Addr × ℕ → Option String) (mentor : Addr)
    (scheduledAt sessionEnd : ℕ) : Addr × ℕ → Option String :=
  (bucketsBetween scheduledAt sessionEnd).foldl
    (fun slot bucket => Function.update slot (mentor, bucket) none) slot

end Schedule

section Monitoring

def maxRequestsPerMinute : ℕ := 30
def resourceQuotaMaxSessions : ℕ := 100
def abusePatternThresholdBps : ℕ := 8000
def coordinationMinInteractions : ℕ := 3
def coordinationTightWindowSecs : ℕ := 3600
def communityInterventionThreshold : ℕ := 70

/-- The `allowed` of `manage_session_load`, outside an emergency. -/
def manageSessionLoad (recentRequests : ℕ) : Bool := decide (recentRequests < maxRequestsPerMinute)

/-- The `granted` of `allocate_system_resources`. -/
def allocateSystemResources (currentActive requested : ℕ) : Bool :=
  decide (saturatingAddU32 currentActive requested ≤ resourceQuotaMaxSessions)

/-- The `is_abusive` of `detect_abuse_patterns`. -/
def detectAbusePatterns (totalRequests failedRequests : ℕ) : Bool :=
  if totalRequests < 5 then false
  else decide (abusePatternThresholdBps ≤
    min (failedRequests * 10000) (2 ^ 32 - 1) / totalRequests)

/-- The `risk_score` of `detect_coordination`: many bookings, and bookings close together. -/
def detectCoordination (timestamps : List ℕ) : ℕ :=
  let count := timestamps.length
  let clustered := (timestamps.zip timestamps.tail).countP
    fun pair => pair.2 - pair.1 < coordinationTightWindowSecs
  let risk := (if coordinationMinInteractions ≤ count then 30 else 0) +
    (if 2 ≤ clustered then 40 else 0) +
    (if coordinationMinInteractions * 2 ≤ count then 20 else 0)
  min risk 100

/-- The learner's average price so far. -/
def avgHistoricalPrice (s : State Addr) (learner : Addr) : ℤ :=
  if 0 < s.learnerTotalSessionCount learner then
    (s.learnerTotalSpend learner).tdiv (s.learnerTotalSessionCount learner)
  else 0

/-- The price that `enforce_fair_pricing` works out is not used: only its failures are seen. -/
def enforceFairPricing (inv : Invocation Addr home) (s : State Addr) (learner mentor : Addr)
    (proposedPrice : ℤ) : Result Unit := do
  require (inv.mentorSuspended mentor = false) (.panic "MentorSuspended")
  let avg := avgHistoricalPrice s learner
  require (¬ (0 < proposedPrice ∧ s.affordabilityConcern (learner, mentor) = true ∧ 0 < avg) ∨
    FitsI128 (avg * 15000)) .arithmetic

/-- The `affordability_concern` of `assess_vulnerability`. -/
def assessAffordability (latestSessionPrice avgHistoricalPrice : ℤ) : Result Bool :=
  if 0 < avgHistoricalPrice ∧ 0 < latestSessionPrice then do
    let product ← i128 (avgHistoricalPrice * 5000)
    let allowed ← i128 (avgHistoricalPrice + product.tdiv 10000)
    pure (decide (allowed < latestSessionPrice))
  else pure false

variable [DecidableEq Addr]

/-- Rate limit, quota, abuse and collusion, in this order. -/
def manageResources (inv : Invocation Addr home) (s : State Addr) (b : Booking Addr) :
    Result (State Addr) := do
  let reqKey := (b.mentor, inv.sequence)
  let reqCount ← u32 (s.mentorRequestCount reqKey + 1)
  require (manageSessionLoad reqCount = true) (.panic "Rate limit exceeded")
  let currentActive := (s.activeSessions b.mentor).getD 0
  require (allocateSystemResources currentActive 1 = true) (.panic "Resource quota exceeded")
  let totalRequests ← u32 (s.totalRequests b.mentor + 1)
  require (detectAbusePatterns totalRequests (s.cancelledRequests b.mentor) = false)
    (.panic "Abuse pattern detected")
  let collusion := detectPlatformBypass (s.mentorLowFeeCount (b.mentor, b.learner)) b.amount
  require (collusion.penaltyTier ≠ .permanentBan ∧ collusion.penaltyTier ≠ .temporarySuspension)
    (.panic "Collusion detected: platform bypass")
  pure { s with
    mentorRequestCount := Function.update s.mentorRequestCount reqKey reqCount
    activeSessions := Function.update s.activeSessions b.mentor (some (currentActive + 1))
    totalRequests := Function.update s.totalRequests b.mentor totalRequests
    mentorLowFeeCount :=
      Function.update s.mentorLowFeeCount (b.mentor, b.learner) collusion.lowFeeCount }

/-- The log of the pair, with the new booking, and without those before the last twenty. -/
def recordPair (log : List ℕ) (scheduledAt : ℕ) : List ℕ :=
  let pushed := log ++ [scheduledAt]
  pushed.drop (pushed.length - monitoringLogCap)

/-- Access to the community, the totals of the learner, and the checks of prices. -/
def monitorBooking (inv : Invocation Addr home) (s : State Addr) (b : Booking Addr) :
    Result (State Addr) := do
  let pairLog := recordPair (s.mentorLearnerLog (b.mentor, b.learner)) b.scheduledAt
  require (detectCoordination pairLog < communityInterventionThreshold)
    (.panic "CommunityAccessRestricted")
  let counted : State Addr := { s with
    mentorLearnerLog := Function.update s.mentorLearnerLog (b.mentor, b.learner) pairLog
    learnerTotalSpend := Function.update s.learnerTotalSpend b.learner
      (saturateI128 (s.learnerTotalSpend b.learner + b.amount))
    learnerTotalSessionCount := Function.update s.learnerTotalSessionCount b.learner
      (saturatingAddU32 (s.learnerTotalSessionCount b.learner) 1) }
  enforceFairPricing inv counted b.learner b.mentor b.amount
  let concern ← assessAffordability b.amount (avgHistoricalPrice counted b.learner)
  pure { counted with
    affordabilityConcern :=
      Function.update counted.affordabilityConcern (b.learner, b.mentor) concern }

end Monitoring

section Sessions

def requireBackend (inv : Invocation Addr home) (s : State Addr) : Result Unit := do
  let backend ← expect s.backend (.panic "Not initialized")
  requireAuth inv.toEnv backend

/-- The entry point `initialize`, which asks for no authorisation. -/
def initializeRegistry (s : State Addr) (backend : Addr) : Result (State Addr) := do
  require (s.backend = none) (.panic "Already initialized")
  pure { s with backend := some backend }

def setSessionOracle (inv : Invocation Addr home) (s : State Addr) (oracle : Addr) :
    Result (State Addr) := do
  requireBackend inv s
  pure { s with sessionOracle := some oracle }

/-- The record that a booking stores. -/
def Booking.record (b : Booking Addr) (now : ℕ) : SessionRecord Addr where
  sessionId := b.sessionId
  mentor := b.mentor
  learner := b.learner
  scheduledAt := b.scheduledAt
  durationMins := b.durationMins
  amount := b.amount
  token := b.token
  status := .pending
  registeredAt := now

variable [DecidableEq Addr]

def registerSession (inv : Invocation Addr home) (s : State Addr) (b : Booking Addr) :
    Result (State Addr) := do
  requireBackend inv s
  require (s.session b.sessionId = none) (.panic "Duplicate session")
  checkSchedulingConflicts s b.mentor b.scheduledAt b.durationMins
  let managed ← manageResources inv s b
  let monitored ← monitorBooking inv managed b
  let sessionEnd ← validateTimeSlot b.scheduledAt b.durationMins
  pure { monitored with
    session := Function.update monitored.session b.sessionId (some (b.record inv.timestamp))
    mentorScheduleSlot := reserveTimeBuckets monitored.mentorScheduleSlot b.mentor b.scheduledAt
      sessionEnd b.sessionId }

def SessionStatus.Terminal (status : SessionStatus) : Prop :=
  status = .cancelled ∨ status = .completed

instance (status : SessionStatus) : Decidable status.Terminal :=
  inferInstanceAs (Decidable (_ ∨ _))

/-- A session that ends is no longer active. -/
def countActive (s : State Addr) (record : SessionRecord Addr) (status : SessionStatus) :
    State Addr :=
  if status.Terminal ∧ ¬ record.status.Terminal then
    { s with
      activeSessions := Function.update s.activeSessions record.mentor
        (some ((s.activeSessions record.mentor).getD 1 - 1)) }
  else s

/-- A session that is cancelled is counted, and its buckets are released. -/
def releaseCancelled (s : State Addr) (record : SessionRecord Addr) (status : SessionStatus) :
    Result (State Addr) :=
  if status = .cancelled ∧ record.status ≠ .cancelled then do
    let cancelled ← u32 (s.cancelledRequests record.mentor + 1)
    let sessionEnd ← validateTimeSlot record.scheduledAt record.durationMins
    pure { s with
      cancelledRequests := Function.update s.cancelledRequests record.mentor cancelled
      mentorScheduleSlot := releaseTimeBuckets s.mentorScheduleSlot record.mentor
        record.scheduledAt sessionEnd }
  else pure s

/-- What `update_status` and `update_status_from_oracle` do once the caller is accepted. Any status
may follow any other, and leaving `Cancelled` reserves nothing. -/
def changeStatus (s : State Addr) (sessionId : String) (status : SessionStatus) :
    Result (State Addr) := do
  let record ← expect (s.session sessionId) (.panic "Session not found")
  let counted ← releaseCancelled (countActive s record status) record status
  require (status = .completed → verifySessionAuthenticity record.durationMins true = true)
    (.panic "Session is not authentic")
  pure { counted with
    session := Function.update counted.session sessionId
      (some { record with status := status }) }

def updateStatus (inv : Invocation Addr home) (s : State Addr) (sessionId : String)
    (status : SessionStatus) : Result (State Addr) := do
  requireBackend inv s
  changeStatus s sessionId status

def cancelSession (inv : Invocation Addr home) (s : State Addr) (sessionId : String) :
    Result (State Addr) :=
  updateStatus inv s sessionId .cancelled

def updateStatusFromOracle (inv : Invocation Addr home) (s : State Addr) (oracle : Addr)
    (sessionId : String) (status : SessionStatus) : Result (State Addr) := do
  let configuredOracle ← expect s.sessionOracle (.panic "Session oracle not configured")
  requireAuth inv.toEnv oracle
  require (oracle = configuredOracle) (.panic "Unauthorized")
  changeStatus s sessionId status

/-- Forces a session to be confirmed, past the conflict checks. The flag that is stored with it is
read nowhere. -/
def emergencySchedulingOverride (inv : Invocation Addr home) (s : State Addr)
    (sessionId : String) : Result (State Addr) :=
  updateStatus inv s sessionId .confirmed

end Sessions

/-- The functions that write, with their arguments. -/
inductive Call (Addr : Type) where
  | initializeRegistry (backend : Addr)
  | setSessionOracle (oracle : Addr)
  | registerSession (booking : Booking Addr)
  | updateStatus (sessionId : String) (status : SessionStatus)
  | updateStatusFromOracle (oracle : Addr) (sessionId : String) (status : SessionStatus)
  | cancelSession (sessionId : String)
  | emergencySchedulingOverride (sessionId : String)

variable [DecidableEq Addr]

def exec (inv : Invocation Addr home) (call : Call Addr) (s : State Addr) : Result (State Addr) :=
  match call with
  | .initializeRegistry backend => initializeRegistry s backend
  | .setSessionOracle oracle => setSessionOracle inv s oracle
  | .registerSession booking => registerSession inv s booking
  | .updateStatus sessionId status => updateStatus inv s sessionId status
  | .updateStatusFromOracle oracle sessionId status =>
      updateStatusFromOracle inv s oracle sessionId status
  | .cancelSession sessionId => cancelSession inv s sessionId
  | .emergencySchedulingOverride sessionId => emergencySchedulingOverride inv s sessionId

/-- A call and what its invocation sees. -/
abbrev Step (Addr : Type) (home : Addr) := Invocation Addr home × Call Addr

def machine (home : Addr) : Machine (State Addr) (Step Addr home) Trap where
  exec step := exec step.1 step.2

/-- The state after a run from deployment. -/
abbrev reached (steps : List (Step Addr home)) : State Addr :=
  (machine home).run (deployed Addr) steps

end SessionRegistry
