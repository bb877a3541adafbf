import MentorsMind.Soroban.TokenLedger

/-! Bounties: a poster deposits a reward that is split over milestones, learners claim the bounty,
verified mentors release the milestones to them, and the poster takes back what is left after the
deadline. The events and the storage namespace are left out. -/
namespace Bounty
open Outcome Soroban

structure Milestone (Addr : Type) where
  descriptionHash : Hash
  rewardBps : ℕ
  completed : Bool
  completedBy : Option Addr

inductive BountyStatus where
  | opened
  | claimed
  | partiallyVerified
  | verified
  | disputed
  | refunded
  deriving DecidableEq

inductive ClaimStatus where
  | pending
  | verified
  | disputed
  deriving DecidableEq

/-- What a poster hands in. -/
structure Terms (Addr : Type) where
  skill : String
  descriptionHash : Hash
  reward : ℤ
  token : Addr
  deadline : ℕ
  milestones : List (Milestone Addr)

structure BountyRecord (Addr : Type) extends Terms Addr where
  id : ℕ
  poster : Addr
  status : BountyStatus
  winner : Option Addr

structure ClaimRecord (Addr : Type) where
  learner : Addr
  claimedAt : ℕ
  status : ClaimStatus
  submissionHash : Hash
  submissionUriHash : Hash

structure EvidenceBundle where
  submissionHash : Hash
  uriHash : Hash
  submittedAt : ℕ

/-- 48 hours. -/
def disputeWindow : ℕ := 48 * 60 * 60

/-- One field for each storage key; an absent count reads as zero and an absent flag as false.
`transfers` is what the tokens moved for the contract, latest first. -/
structure State (Addr : Type) where
  admin : Option Addr
  verificationContract : Option Addr
  bountyCount : ℕ
  bounty : ℕ → Option (BountyRecord Addr)
  claim : ℕ × Addr → Option (ClaimRecord Addr)
  claimEvidence : ℕ × Addr → Option EvidenceBundle
  bountyLock : ℕ → Bool
  healthDashboard : Option Addr
  pauseGuardian : Option Addr
  paused : Bool
  transfers : List (Transfer Addr)

def deployed {Addr : Type} : State Addr where
  admin := none
  verificationContract := none
  bountyCount := 0
  bounty _ := none
  claim _ := none
  claimEvidence _ := none
  bountyLock _ := false
  healthDashboard := none
  pauseGuardian := none
  paused := false
  transfers := []

/-- One invocation: the ledger, the signers and what the other contracts answer. A call that traps
answers `none`, or `false` where only success counts. -/
structure Invocation (Addr : Type) (home : Addr) extends Env Addr home where
  /-- An honest token moves what it is asked to, or refuses. -/
  accepts : Transfer Addr → Bool
  isVerified : Addr → Addr → Option Bool
  /-- The dashboard records the number of bounties. -/
  reports : Addr → ℕ → Bool

variable {Addr : Type} {self : Addr}

/-- The entry point `initialize`, which asks for no authorisation. -/
def initializeBounty (s : State Addr) (admin verificationContract : Addr) :
    Result (State Addr) := do
  require (s.admin = none) (.panic "Already initialized")
  pure { s with
    admin := some admin
    verificationContract := some verificationContract
    bountyCount := 0 }

def setHealthDashboard (inv : Invocation Addr self) (s : State Addr) (dashboard : Addr) :
    Result (State Addr) := do
  let admin ← expect s.admin (.panic "Not initialized")
  requireAuth inv.toEnv admin
  pure { s with healthDashboard := some dashboard }

/-- `token::Client::transfer`. -/
def transfer (inv : Invocation Addr self) (s : State Addr) (token source recipient : Addr)
    (amount : ℤ) : Result (State Addr) := do
  require (0 ≤ amount) .subcall
  require (inv.accepts ⟨token, source, recipient, amount⟩ = true) .subcall
  pure { s with transfers := ⟨token, source, recipient, amount⟩ :: s.transfers }

def reportCreated (inv : Invocation Addr self) (s : State Addr) (count : ℕ) : Result Unit :=
  match s.healthDashboard with
  | none => pure ()
  | some dashboard => require (inv.reports dashboard count = true) .subcall

def addBps (total : ℕ) (milestone : Milestone Addr) : Result ℕ :=
  checkedU32 (total + milestone.rewardBps) (.panic "BPS overflow")

/-- The milestones are stored as they are handed in. -/
def postBounty (inv : Invocation Addr self) (s : State Addr) (poster : Addr)
    (terms : Terms Addr) : Result (State Addr) := do
  requireAuth inv.toEnv poster
  require (0 < terms.reward) (.panic "Reward must be positive")
  require (inv.timestamp < terms.deadline) (.panic "Deadline must be in the future")
  require (terms.milestones ≠ []) (.panic "At least one milestone required")
  let totalBps ← terms.milestones.foldlM addBps 0
  require (totalBps = 10000) (.panic "Milestone reward_bps must sum to 10000")
  require (∀ milestone ∈ terms.milestones, milestone.descriptionHash ≠ 0)
    (.panic "Milestone description_hash cannot be zero")
  let paid ← transfer inv s terms.token poster self terms.reward
  let count ← u32 (s.bountyCount + 1)
  let bounty : BountyRecord Addr := {
    toTerms := terms
    id := count
    poster := poster
    status := .opened
    winner := none }
  reportCreated inv s count
  pure { paid with
    bounty := Function.update s.bounty count (some bounty)
    bountyCount := count }

/-- `bounty.reward * (reward_bps as i128) / 10000` -/
def milestoneReward (reward : ℤ) (milestone : Milestone Addr) : Result ℤ := do
  let product ← i128 (reward * milestone.rewardBps)
  pure (product.tdiv 10000)

/-- One round of the loops that add up what is not completed. -/
def addRemaining (reward total : ℤ) (milestone : Milestone Addr) : Result ℤ :=
  if milestone.completed then pure total
  else do
    let share ← milestoneReward reward milestone
    i128 (total + share)

def remainingReward (reward : ℤ) (milestones : List (Milestone Addr)) : Result ℤ :=
  milestones.foldlM (addRemaining reward) 0

def complete (learner : Addr) (milestone : Milestone Addr) : Milestone Addr :=
  { milestone with completed := true, completedBy := some learner }

def completeRemaining (learner : Addr) (milestone : Milestone Addr) : Milestone Addr :=
  if milestone.completed then milestone else complete learner milestone

variable [DecidableEq Addr]

def setPauseGuardian (inv : Invocation Addr self) (s : State Addr) (admin guardian : Addr) :
    Result (State Addr) := do
  let stored ← expect s.admin (.panic "Not initialized")
  require (stored = admin) (.panic "Admin address mismatch")
  requireAuth inv.toEnv admin
  pure { s with pauseGuardian := some guardian }

def claimBounty (inv : Invocation Addr self) (s : State Addr) (learner : Addr) (bountyId : ℕ)
    (submissionHash submissionUriHash : Hash) : Result (State Addr) := do
  requireAuth inv.toEnv learner
  require (submissionHash ≠ 0) (.panic "Submission hash cannot be zero")
  require (submissionUriHash ≠ 0) (.panic "Submission URI hash cannot be zero")
  let bounty ← expect (s.bounty bountyId) (.panic "Bounty not found")
  require (¬ (bounty.status = .refunded ∨ bounty.status = .verified))
    (.panic "Bounty is no longer active")
  require (inv.timestamp ≤ bounty.deadline) (.panic "Bounty deadline has passed")
  require (s.claim (bountyId, learner) = none) (.panic "Already claimed by this learner")
  let claim : ClaimRecord Addr := {
    learner := learner
    claimedAt := inv.timestamp
    status := .pending
    submissionHash := submissionHash
    submissionUriHash := submissionUriHash }
  let evidence : EvidenceBundle := ⟨submissionHash, submissionUriHash, inv.timestamp⟩
  let claimed := { s with
    claim := Function.update s.claim (bountyId, learner) (some claim)
    claimEvidence := Function.update s.claimEvidence (bountyId, learner) (some evidence) }
  if bounty.status = .opened then
    pure { claimed with
      bounty := Function.update s.bounty bountyId (some { bounty with status := .claimed }) }
  else pure claimed

omit [DecidableEq Addr] in
/-- What both entry points that release milestones check first. -/
def requireReviewer (inv : Invocation Addr self) (s : State Addr) (mentor : Addr) (bountyId : ℕ)
    (reviewerNotesHash : Hash) : Result Unit := do
  require (s.bountyLock bountyId = false) (.panic "Bounty is locked")
  requireAuth inv.toEnv mentor
  require (s.paused = false) (.panic "contract paused")
  require (reviewerNotesHash ≠ 0) (.panic "Reviewer notes hash cannot be zero")
  let verContract ← expect s.verificationContract (.panic "Not initialized")
  let isVerified ← expect (inv.isVerified verContract mentor) .subcall
  require (isVerified = true) (.panic "Mentor is not verified")

omit [DecidableEq Addr] in
/-- The claim that a mentor reviews. -/
def loadClaim (s : State Addr) (bountyId : ℕ) (learner : Addr) : Result (ClaimRecord Addr) := do
  let claim ← expect (s.claim (bountyId, learner)) (.panic "No claim found for this learner")
  require (claim.status ≠ .disputed) (.panic "Claim is disputed")
  pure claim

/-- The writes of a release, the transfer last; the lock is open again afterwards. -/
def release (inv : Invocation Addr self) (s : State Addr) (bountyId : ℕ) (learner : Addr)
    (claim : ClaimRecord Addr) (bounty : BountyRecord Addr) (amount : ℤ) :
    Result (State Addr) := do
  let written := { s with
    claim := Function.update s.claim (bountyId, learner) (some { claim with status := .verified })
    bounty := Function.update s.bounty bountyId (some bounty) }
  let paid ← transfer inv written bounty.token self learner amount
  pure { paid with bountyLock := Function.update s.bountyLock bountyId false }

def verifyCompletion (inv : Invocation Addr self) (s : State Addr) (mentor : Addr)
    (bountyId : ℕ) (learner : Addr) (reviewerNotesHash : Hash) : Result (State Addr) := do
  requireReviewer inv s mentor bountyId reviewerNotesHash
  let bounty ← expect (s.bounty bountyId) (.panic "Bounty not found")
  require (bounty.status ≠ .verified) (.panic "Bounty already verified")
  require (bounty.status ≠ .refunded) (.panic "Bounty already refunded")
  let claim ← loadClaim s bountyId learner
  let totalRemaining ← remainingReward bounty.reward bounty.milestones
  require (totalRemaining ≠ 0) (.panic "All milestones already completed")
  release inv s bountyId learner claim
    { bounty with
      status := .verified
      winner := some learner
      milestones := bounty.milestones.map (completeRemaining learner) } totalRemaining

/-- The bounty after the milestone at `index` is completed by `learner`. -/
def completeMilestone (bounty : BountyRecord Addr) (learner : Addr) (index : ℕ)
    (milestone : Milestone Addr) : BountyRecord Addr :=
  let milestones := bounty.milestones.set index (complete learner milestone)
  if milestones.all Milestone.completed then
    { bounty with status := .verified, winner := some learner, milestones := milestones }
  else { bounty with status := .partiallyVerified, milestones := milestones }

def verifyMilestone (inv : Invocation Addr self) (s : State Addr) (mentor : Addr)
    (bountyId : ℕ) (learner : Addr) (milestoneIndex : ℕ) (reviewerNotesHash : Hash) :
    Result (State Addr) := do
  requireReviewer inv s mentor bountyId reviewerNotesHash
  let bounty ← expect (s.bounty bountyId) (.panic "Bounty not found")
  require (bounty.status ≠ .verified) (.panic "Bounty already fully verified")
  require (bounty.status ≠ .refunded) (.panic "Bounty already refunded")
  let milestone ← expect bounty.milestones[milestoneIndex]? (.panic "Milestone index out of bounds")
  require (milestone.completed = false) (.panic "Milestone already completed")
  let claim ← loadClaim s bountyId learner
  let reward ← milestoneReward bounty.reward milestone
  release inv s bountyId learner claim (completeMilestone bounty learner milestoneIndex milestone)
    reward

def disputeCompletion (inv : Invocation Addr self) (s : State Addr) (bountyId : ℕ)
    (learner : Addr) (disputeEvidenceHash : Hash) : Result (State Addr) := do
  let bounty ← expect (s.bounty bountyId) (.panic "Bounty not found")
  requireAuth inv.toEnv bounty.poster
  require (disputeEvidenceHash ≠ 0) (.panic "Dispute evidence hash cannot be zero")
  require (bounty.status ≠ .verified) (.panic "Bounty already verified")
  require (bounty.status ≠ .refunded) (.panic "Bounty already refunded")
  let claim ← expect (s.claim (bountyId, learner)) (.panic "No claim found for this learner")
  require (claim.status = .pending) (.panic "Claim is not in pending state")
  let windowEnd ← u64 (claim.claimedAt + disputeWindow)
  require (inv.timestamp ≤ windowEnd) (.panic "Dispute window has passed")
  pure { s with
    claim := Function.update s.claim (bountyId, learner) (some { claim with status := .disputed })
    bounty := Function.update s.bounty bountyId (some { bounty with status := .disputed }) }

omit [DecidableEq Addr] in
def refundBounty (inv : Invocation Addr self) (s : State Addr) (bountyId : ℕ) :
    Result (State Addr) := do
  let bounty ← expect (s.bounty bountyId) (.panic "Bounty not found")
  requireAuth inv.toEnv bounty.poster
  require (bounty.status ≠ .verified) (.panic "Bounty already fully verified")
  require (bounty.status ≠ .refunded) (.panic "Already refunded")
  require (bounty.deadline < inv.timestamp) (.panic "Deadline has not passed yet")
  let unverifiedReward ← remainingReward bounty.reward bounty.milestones
  let paid ← transfer inv s bounty.token self bounty.poster unverifiedReward
  pure { paid with
    bounty := Function.update s.bounty bountyId (some { bounty with status := .refunded }) }

/-- The entry points that write, with their arguments. -/
inductive Call (Addr : Type) where
  | initializeBounty (admin verificationContract : Addr)
  | setHealthDashboard (dashboard : Addr)
  | setPauseGuardian (admin guardian : Addr)
  | postBounty (poster : Addr) (terms : Terms Addr)
  | claimBounty (learner : Addr) (bountyId : ℕ) (submissionHash submissionUriHash : Hash)
  | verifyCompletion (mentor : Addr) (bountyId : ℕ) (learner : Addr) (reviewerNotesHash : Hash)
  | verifyMilestone (mentor : Addr) (bountyId : ℕ) (learner : Addr) (milestoneIndex : ℕ)
      (reviewerNotesHash : Hash)
  | disputeCompletion (bountyId : ℕ) (learner : Addr) (disputeEvidenceHash : Hash)
  | refundBounty (bountyId : ℕ)

def exec (inv : Invocation Addr self) (call : Call Addr) (s : State Addr) :
    Result (State Addr) :=
  match call with
  | .initializeBounty admin verificationContract => initializeBounty s admin verificationContract
  | .setHealthDashboard dashboard => setHealthDashboard inv s dashboard
  | .setPauseGuardian admin guardian => setPauseGuardian inv s admin guardian
  | .postBounty poster terms => postBounty inv s poster terms
  | .claimBounty learner bountyId submissionHash submissionUriHash =>
      claimBounty inv s learner bountyId submissionHash submissionUriHash
  | .verifyCompletion mentor bountyId learner reviewerNotesHash =>
      verifyCompletion inv s mentor bountyId learner reviewerNotesHash
  | .verifyMilestone mentor bountyId learner milestoneIndex reviewerNotesHash =>
      verifyMilestone inv s mentor bountyId learner milestoneIndex reviewerNotesHash
  | .disputeCompletion bountyId learner disputeEvidenceHash =>
      disputeCompletion inv s bountyId learner disputeEvidenceHash
  | .refundBounty bountyId => refundBounty inv s bountyId

abbrev Step (Addr : Type) (self : Addr) := Invocation Addr self × Call Addr

/-- The deployed contract. -/
def machine (self : Addr) : Machine (State Addr) (Step Addr self) Trap where
  exec step := exec step.1 step.2

/-- The state after a run from deployment. -/
abbrev reached (steps : List (Step Addr self)) : State Addr := (machine self).run deployed steps

end Bounty
