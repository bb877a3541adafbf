import MentorsMind.Lib.Quorum
import MentorsMind.Soroban.Host

/-! The quorum rule of the consensus module: how many validators have to agree. View changes are
left out. -/
namespace Consensus
open Soroban

/-- How many of `n` validators may be malicious. -/
def faultBound (validatorCount : ℕ) : ℕ := validatorCount / 3

def minValidators : ℕ := 4

/-- It is at most two thirds of a `u32` and one more, so that it does not overflow. -/
def computeQuorumThreshold (validatorCount : ℕ) : ℕ := 2 * faultBound validatorCount + 1

def hasQuorum (signerCount quorumThreshold : ℕ) : Bool := quorumThreshold ≤ signerCount

theorem hasQuorum_iff {k n : ℕ} :
    hasQuorum k (computeQuorumThreshold n) = true ↔ 2 * (n / 3) + 1 ≤ k := by
  simp [hasQuorum, computeQuorumThreshold, faultBound]

variable {Addr : Type} [DecidableEq Addr] {validators : Finset Addr}

/-- The validators that commit to a block, where `commits v` are the blocks `v` commits to. -/
def committing (validators : Finset Addr) (commits : Addr → Finset Hash) (block : Hash) :
    Finset Addr :=
  validators.filter fun v => block ∈ commits v

/-- What the quorum rule is for: safety against fewer than a third of faulty validators, and
progress without them. -/
structure QuorumRule (validators : Finset Addr) : Prop where
  shared : ∀ A B, A ⊆ validators → B ⊆ validators →
    hasQuorum A.card (computeQuorumThreshold validators.card) = true →
    hasQuorum B.card (computeQuorumThreshold validators.card) = true →
    faultBound validators.card + 1 ≤ (A ∩ B).card
  agreement : ∀ (faulty : Finset Addr) (commits : Addr → Finset Hash) (b b' : Hash),
    3 * faulty.card < validators.card →
    (∀ v ∈ validators, v ∉ faulty → (commits v).card ≤ 1) →
    hasQuorum (committing validators commits b).card
      (computeQuorumThreshold validators.card) = true →
    hasQuorum (committing validators commits b').card
      (computeQuorumThreshold validators.card) = true → b = b'
  progress : hasQuorum (validators.card - faultBound validators.card)
    (computeQuorumThreshold validators.card) = true

/-- Commit quorums that share an honest validator are quorums for the same block. -/
theorem agreement_of_shared {faulty : Finset Addr} {commits : Addr → Finset Hash} {b b' : Hash}
    (hfaulty : faulty.card <
      (committing validators commits b ∩ committing validators commits b').card)
    (honest : ∀ v ∈ validators, v ∉ faulty → (commits v).card ≤ 1) : b = b' := by
  obtain ⟨v, hv, hv', hgood⟩ := Quorum.exists_shared_outside hfaulty
  obtain ⟨hmem, hb⟩ := Finset.mem_filter.mp hv
  obtain ⟨-, hb'⟩ := Finset.mem_filter.mp hv'
  exact Finset.card_le_one.mp (honest v hmem hgood) b hb b' hb'

/-- The rule serves its purpose exactly for the numbers of the form `3 f + 1`. -/
theorem quorumRule_iff (validators : Finset Addr) (hmin : minValidators ≤ validators.card) :
    QuorumRule validators ↔ validators.card % 3 = 1 := by
  unfold minValidators at hmin
  constructor
  · intro h
    have hprogress := hasQuorum_iff.mp h.progress
    unfold faultBound at hprogress
    by_contra hrest
    -- what is left over is two, and two quorums may share just the fault bound
    have hfits : computeQuorumThreshold validators.card ≤ validators.card := by
      unfold computeQuorumThreshold faultBound
      omega
    have hmost : validators.card ≤ 2 * computeQuorumThreshold validators.card := by
      unfold computeQuorumThreshold faultBound
      omega
    obtain ⟨A, B, hA, hB, hcardA, hcardB, hinter⟩ := Quorum.exists_least_overlap hfits hmost
    have hshared := h.shared A B hA hB (by simp [hasQuorum, hcardA]) (by simp [hasQuorum, hcardB])
    rw [hinter] at hshared
    unfold computeQuorumThreshold faultBound at hshared
    omega
  · intro hrest
    have hshared : ∀ A B, A ⊆ validators → B ⊆ validators →
        hasQuorum A.card (computeQuorumThreshold validators.card) = true →
        hasQuorum B.card (computeQuorumThreshold validators.card) = true →
        faultBound validators.card + 1 ≤ (A ∩ B).card := by
      intro A B hA hB hqA hqB
      have hcount := Quorum.card_add_le_inter hA hB
      rw [hasQuorum_iff] at hqA hqB
      unfold faultBound
      omega
    constructor
    · exact hshared
    · intro faulty commits b b' hfaulty honest hb hb'
      have hinter := hshared (committing validators commits b) (committing validators commits b')
        (Finset.filter_subset _ _) (Finset.filter_subset _ _) hb hb'
      refine agreement_of_shared ?_ honest
      unfold faultBound at hinter
      omega
    · rw [hasQuorum_iff]
      unfold faultBound
      omega

/-- With seven validators the rule does what it is for. -/
theorem quorumRule_seven : QuorumRule (Finset.range 7) :=
  (quorumRule_iff (Finset.range 7) (by decide)).mpr rfl

/-- With five validators two quorums of three may share a single one, which may be faulty. -/
theorem not_quorumRule_five : ¬ QuorumRule (Finset.range 5) := by
  intro h
  have hshared := h.shared {0, 1, 2} {2, 3, 4} (by decide) (by decide) (by decide) (by decide)
  exact absurd hshared (by decide)

end Consensus

/-! A consensus round: prepare votes, commit votes, the certificate, and whose votes stand behind
it. View changes, the choice of proposers and the state across rounds are left out. -/
namespace Consensus
open Outcome Soroban

inductive ConsensusPhase where
  | idle
  | prePrepare
  | prepare
  | commit
  | finalized
  | failed
  deriving DecidableEq

structure ConsensusRound (Addr : Type) where
  round : ℕ
  phase : ConsensusPhase
  blockHash : Hash
  proposer : Addr
  epoch : ℕ
  startedAt : ℕ
  prepareCount : ℕ
  commitCount : ℕ
  quorumThreshold : ℕ
  viewChangeRequested : Bool

structure QuorumCertificate (Addr : Type) where
  blockHash : Hash
  round : ℕ
  signers : List Addr
  signatureCount : ℕ
  quorumThreshold : ℕ
  createdAt : ℕ

/-- Of these `DoubleVote` and `InsufficientSigners` are never returned. -/
inductive ConsensusError where
  | notValidator
  | alreadyFinalized
  | invalidPhase
  | quorumNotMet
  | doubleVote
  | hashMismatch
  | roundExpired
  | insufficientSigners
  | invalidProposer
  deriving DecidableEq

def roundTimeoutSecs : ℕ := 30

variable {Addr : Type}

def startRound (now round : ℕ) (blockHash : Hash) (proposer : Addr)
    (epoch quorumThreshold : ℕ) : ConsensusRound Addr where
  round := round
  phase := .prePrepare
  blockHash := blockHash
  proposer := proposer
  epoch := epoch
  startedAt := now
  prepareCount := 0
  commitCount := 0
  quorumThreshold := quorumThreshold
  viewChangeRequested := false

def isRoundExpired (now : ℕ) (r : ConsensusRound Addr) : Bool :=
  min (r.startedAt + roundTimeoutSecs) maxU64 ≤ now

/-- The voter is not looked at. -/
def castPrepare (now : ℕ) (r : ConsensusRound Addr) (_voter : Addr) (blockHash : Hash) :
    Except ConsensusError (ConsensusRound Addr) := do
  require (r.phase = .prePrepare) .invalidPhase
  require (r.blockHash = blockHash) .hashMismatch
  require (isRoundExpired now r = false) .roundExpired
  let counted := { r with prepareCount := min (r.prepareCount + 1) maxU32 }
  if r.quorumThreshold ≤ counted.prepareCount then pure { counted with phase := .prepare }
  else pure counted

/-- The voter is not looked at. -/
def castCommit (now : ℕ) (r : ConsensusRound Addr) (_voter : Addr) (blockHash : Hash) :
    Except ConsensusError (ConsensusRound Addr) := do
  require (r.phase = .prepare) .invalidPhase
  require (r.blockHash = blockHash) .hashMismatch
  require (isRoundExpired now r = false) .roundExpired
  let counted := { r with commitCount := min (r.commitCount + 1) maxU32 }
  if r.quorumThreshold ≤ counted.commitCount then pure { counted with phase := .commit }
  else pure counted

/-- The certificate takes the signers as they are handed in. -/
def finalizeRound (now : ℕ) (r : ConsensusRound Addr) (signers : List Addr) :
    Except ConsensusError (ConsensusRound Addr × QuorumCertificate Addr) := do
  require (r.phase = .commit) .invalidPhase
  require (r.quorumThreshold ≤ r.commitCount) .quorumNotMet
  pure ({ r with phase := .finalized }, {
    blockHash := r.blockHash
    round := r.round
    signers := signers
    signatureCount := r.commitCount
    quorumThreshold := r.quorumThreshold
    createdAt := now })

section Verification

variable [DecidableEq Addr]

/-- The signers that do not stand before, among those already `seen` or in the list. -/
def countUnseen (seen : List Addr) : List Addr → ℕ
  | [] => 0
  | signer :: signers =>
      (if signer ∈ seen then 0 else 1) + countUnseen (seen ++ [signer]) signers

def countUniqueSigners (signers : List Addr) : ℕ := countUnseen [] signers

def verifyQuorumCertificate (qc : QuorumCertificate Addr) (expectedBlockHash : Hash)
    (expectedRound : ℕ) : Bool :=
  if qc.blockHash ≠ expectedBlockHash then false
  else if qc.round ≠ expectedRound then false
  else if qc.signatureCount < qc.quorumThreshold then false
  else qc.signers.length = countUniqueSigners qc.signers

theorem countUnseen_eq (seen signers : List Addr) :
    countUnseen seen signers + seen.toFinset.card = (seen ++ signers).toFinset.card := by
  induction signers generalizing seen with
  | nil => simp [countUnseen]
  | cons signer signers ih =>
    have hrest := ih (seen ++ [signer])
    rw [List.append_assoc, List.singleton_append] at hrest
    rw [← hrest, countUnseen, List.toFinset_append, List.toFinset_cons, List.toFinset_nil,
      insert_empty_eq, Finset.union_singleton]
    by_cases hseen : signer ∈ seen
    · rw [if_pos hseen, Finset.insert_eq_of_mem (List.mem_toFinset.mpr hseen)]
      omega
    · rw [if_neg hseen, Finset.card_insert_of_notMem (by rwa [List.mem_toFinset])]
      omega

theorem countUniqueSigners_eq (signers : List Addr) :
    countUniqueSigners signers = signers.toFinset.card := by
  have h := countUnseen_eq [] signers
  unfold countUniqueSigners
  simpa using h

/-- What the verification looks at: the number of signatures that the certificate states, and
that no signer is listed twice. -/
theorem verifyQuorumCertificate_iff {qc : QuorumCertificate Addr} {expectedBlockHash : Hash}
    {expectedRound : ℕ} : verifyQuorumCertificate qc expectedBlockHash expectedRound = true ↔
      qc.blockHash = expectedBlockHash ∧ qc.round = expectedRound ∧
        qc.quorumThreshold ≤ qc.signatureCount ∧ qc.signers.Nodup := by
  have hnodup : qc.signers.length = countUniqueSigners qc.signers ↔ qc.signers.Nodup := by
    rw [countUniqueSigners_eq]
    constructor
    · intro h
      by_contra hdup
      have hlt := Quorum.card_toFinset_lt_of_not_nodup hdup
      omega
    · intro h
      exact (List.toFinset_card_of_nodup h).symm
  unfold verifyQuorumCertificate
  split_ifs with hhash hround hcount
  · simp [hhash]
  · simp [hround]
  · simp [hcount]
  · rw [not_not] at hhash hround
    rw [decide_eq_true_iff, hnodup]
    simp [hhash, hround, not_lt.mp hcount]

end Verification

inductive Call (Addr : Type) where
  | castPrepare (voter : Addr) (blockHash : Hash)
  | castCommit (voter : Addr) (blockHash : Hash)
  | finalizeRound (signers : List Addr)

/-- A call and the time at which it comes. -/
abbrev Step (Addr : Type) := ℕ × Call Addr

def exec (step : Step Addr) (r : ConsensusRound Addr) :
    Except ConsensusError (ConsensusRound Addr) :=
  match step.2 with
  | .castPrepare voter blockHash => castPrepare step.1 r voter blockHash
  | .castCommit voter blockHash => castCommit step.1 r voter blockHash
  | .finalizeRound signers => Prod.fst <$> finalizeRound step.1 r signers

def machine (Addr : Type) : Machine (ConsensusRound Addr) (Step Addr) ConsensusError := ⟨exec⟩

section Votes

/-- The voter of a prepare vote. -/
def Call.preparer : Call Addr → Option Addr
  | .castPrepare voter _ => some voter
  | _ => none

/-- The voter of a commit vote. -/
def Call.committer : Call Addr → Option Addr
  | .castCommit voter _ => some voter
  | _ => none

/-- Whose prepare votes the run has counted, one entry for each vote. -/
def preparers (r : ConsensusRound Addr) (steps : List (Step Addr)) : List Addr :=
  (machine Addr).collect (fun _ step _ => step.2.preparer) r steps

/-- Whose commit votes the run has counted. -/
def committers (r : ConsensusRound Addr) (steps : List (Step Addr)) : List Addr :=
  (machine Addr).collect (fun _ step _ => step.2.committer) r steps

/-- How many votes there are in each phase of a round with the threshold `q`. A phase ends with
the vote that reaches the threshold, or with its first one if that is zero. -/
def PhaseVotes (q : ℕ) : ConsensusPhase → ℕ → ℕ → Prop
  | .prePrepare, prepares, commits => (prepares = 0 ∨ min prepares maxU32 < q) ∧ commits = 0
  | .prepare, prepares, commits => prepares = max q 1 ∧ (commits = 0 ∨ min commits maxU32 < q)
  | .commit, prepares, commits => prepares = max q 1 ∧ commits = max q 1
  | .finalized, prepares, commits => prepares = max q 1 ∧ commits = max q 1
  | .idle, _, _ => False
  | .failed, _, _ => False

/-- What a round with the threshold `q` keeps while its votes are counted. -/
structure Counted (q : ℕ) (prepares commits : ℕ) (r : ConsensusRound Addr) : Prop where
  threshold : r.quorumThreshold = q
  prepareCount : r.prepareCount = min prepares maxU32
  commitCount : r.commitCount = min commits maxU32
  votes : PhaseVotes q r.phase prepares commits

variable {q prepares commits now : ℕ} {r t : ConsensusRound Addr} {voter : Addr}
  {blockHash : Hash}

theorem castPrepare_counted (hr : Counted q prepares commits r)
    (h : castPrepare now r voter blockHash = .ok t) : Counted q (prepares + 1) commits t := by
  obtain ⟨hq, hprepare, hcommit, hvotes⟩ := hr
  simp only [castPrepare, bind_eq_ok, require_eq_ok] at h
  obtain ⟨-, hphase, -, -, -, -, h⟩ := h
  rw [hphase] at hvotes
  obtain ⟨hbefore, hnone⟩ := hvotes
  have hcount : min (r.prepareCount + 1) maxU32 = min (prepares + 1) maxU32 := by
    rw [hprepare]
    omega
  split_ifs at h with hreached
  · rw [pure_eq_ok] at h
    subst h
    refine ⟨hq, hcount, hcommit, ?_⟩
    rw [hq, hcount] at hreached
    constructor
    · omega
    · exact .inl hnone
  · rw [pure_eq_ok] at h
    subst h
    refine ⟨hq, hcount, hcommit, ?_⟩
    rw [hq, hcount] at hreached
    change PhaseVotes q r.phase _ _
    rw [hphase]
    exact ⟨.inr (not_le.mp hreached), hnone⟩

theorem castCommit_counted (hr : Counted q prepares commits r)
    (h : castCommit now r voter blockHash = .ok t) : Counted q prepares (commits + 1) t := by
  obtain ⟨hq, hprepare, hcommit, hvotes⟩ := hr
  simp only [castCommit, bind_eq_ok, require_eq_ok] at h
  obtain ⟨-, hphase, -, -, -, -, h⟩ := h
  rw [hphase] at hvotes
  obtain ⟨hprepares, hbefore⟩ := hvotes
  have hcount : min (r.commitCount + 1) maxU32 = min (commits + 1) maxU32 := by
    rw [hcommit]
    omega
  split_ifs at h with hreached
  · rw [pure_eq_ok] at h
    subst h
    refine ⟨hq, hprepare, hcount, ?_⟩
    rw [hq, hcount] at hreached
    exact ⟨hprepares, by omega⟩
  · rw [pure_eq_ok] at h
    subst h
    refine ⟨hq, hprepare, hcount, ?_⟩
    rw [hq, hcount] at hreached
    change PhaseVotes q r.phase _ _
    rw [hphase]
    exact ⟨hprepares, .inr (not_le.mp hreached)⟩

/-- A round that is finalized had as many votes in either phase as the threshold asks for. -/
theorem finalizeRound_counted {signers : List Addr} {qc : QuorumCertificate Addr}
    (hr : Counted q prepares commits r) (h : finalizeRound now r signers = .ok (t, qc)) :
    Counted q prepares commits t ∧ prepares = max q 1 ∧ commits = max q 1 ∧
      t.phase = .finalized ∧ qc.signers = signers := by
  simp only [finalizeRound, bind_eq_ok, require_eq_ok, pure_eq_ok, Prod.mk.injEq] at h
  obtain ⟨-, hphase, -, -, rfl, rfl⟩ := h
  obtain ⟨hq, hprepare, hcommit, hvotes⟩ := hr
  rw [hphase] at hvotes
  exact ⟨⟨hq, hprepare, hcommit, hvotes⟩, hvotes.1, hvotes.2, rfl, rfl⟩

/-- The votes that a run counts are those of its successful calls. -/
theorem run_counted (now round : ℕ) (blockHash : Hash) (proposer : Addr) (epoch q : ℕ)
    (steps : List (Step Addr)) :
    let start := startRound now round blockHash proposer epoch q
    Counted q (preparers start steps).length (committers start steps).length
      ((machine Addr).run start steps) := by
  intro start
  refine Machine.run_history (M := machine Addr) (P := fun pre r => Counted q
    (preparers start pre).length (committers start pre).length r) ?_ ?_ ?_ steps
  · exact ⟨rfl, rfl, rfl, .inl rfl, rfl⟩
  · rintro pre ⟨now, call⟩ t hpre hx
    have hprepares := Machine.collect_snoc_ok
      (f := fun _ (step : Step Addr) (_ : ConsensusRound Addr) => step.2.preparer) hx
    have hcommits := Machine.collect_snoc_ok
      (f := fun _ (step : Step Addr) (_ : ConsensusRound Addr) => step.2.committer) hx
    rw [preparers, committers, hprepares, hcommits, List.length_append, List.length_append]
    have hexec : exec (now, call) ((machine Addr).run start pre) = .ok t := hx
    cases call with
    | castPrepare voter hash =>
      have hcast : castPrepare now _ voter hash = .ok t := hexec
      exact castPrepare_counted hpre hcast
    | castCommit voter hash =>
      have hcast : castCommit now _ voter hash = .ok t := hexec
      exact castCommit_counted hpre hcast
    | finalizeRound signers =>
      simp only [exec, map_eq_ok] at hexec
      obtain ⟨⟨u, qc⟩, hfinal, rfl⟩ := hexec
      exact (finalizeRound_counted hpre hfinal).1
  · intro pre step e hpre herror
    rw [preparers, committers, Machine.collect_snoc_error herror,
      Machine.collect_snoc_error herror]
    exact hpre

end Votes

section Meaning

variable [DecidableEq Addr]

/-- As many votes as the threshold asks for are of as many voters exactly if none is repeated. -/
theorem le_card_voters_iff {q : ℕ} {votes : List Addr} (h : votes.length = max q 1) :
    q ≤ votes.toFinset.card ↔ votes.Nodup := by
  constructor
  · intro hle
    by_contra hdup
    have hlt := Quorum.card_toFinset_lt_of_not_nodup hdup
    have hsome : votes ≠ [] := by
      rintro rfl
      exact hdup List.nodup_nil
    have hpos : 0 < votes.toFinset.card :=
      Finset.card_pos.mpr (List.toFinset_nonempty_iff votes |>.mpr hsome)
    omega
  · intro hnodup
    rw [List.toFinset_card_of_nodup hnodup]
    omega

omit [DecidableEq Addr] in
/-- The signers are the voters, each once. -/
def Lists (signers voters : List Addr) : Prop :=
  signers.Nodup ∧ ∀ v, v ∈ signers ↔ v ∈ voters

/-- In a round started with the threshold `q`, a certificate stands for votes. -/
structure MeansVotes (start : ConsensusRound Addr) (q : ℕ) (steps : List (Step Addr))
    (qc : QuorumCertificate Addr) (expectedBlockHash : Hash) (expectedRound : ℕ) : Prop where
  prepared : ∀ pre now signers t, (machine Addr).Executes start steps pre
    (now, .finalizeRound signers) t → q ≤ (preparers start pre).toFinset.card
  committed : ∀ pre now signers t, (machine Addr).Executes start steps pre
    (now, .finalizeRound signers) t → q ≤ (committers start pre).toFinset.card
  signed : ∀ pre now signers t issued,
    (machine Addr).Executes start steps pre (now, .finalizeRound signers) t →
    finalizeRound now ((machine Addr).run start pre) signers = .ok (t, issued) →
    Lists issued.signers (committers start pre)
  verified : verifyQuorumCertificate qc expectedBlockHash expectedRound = true →
    qc.quorumThreshold ≤ qc.signers.toFinset.card

/-- When the round is finalized nobody has voted twice in a phase and the signers handed in are
the commit voters; and the certificate lists enough signers, or is refused for other reasons. -/
structure VotesOnce (start : ConsensusRound Addr) (steps : List (Step Addr))
    (qc : QuorumCertificate Addr) (expectedBlockHash : Hash) (expectedRound : ℕ) : Prop where
  prepares : ∀ pre now signers t, (machine Addr).Executes start steps pre
    (now, .finalizeRound signers) t → (preparers start pre).Nodup
  commits : ∀ pre now signers t, (machine Addr).Executes start steps pre
    (now, .finalizeRound signers) t → (committers start pre).Nodup
  signers : ∀ pre now signers t, (machine Addr).Executes start steps pre
    (now, .finalizeRound signers) t → signers.Perm (committers start pre)
  listed : qc.blockHash = expectedBlockHash → qc.round = expectedRound →
    qc.quorumThreshold ≤ qc.signatureCount → qc.signers.Nodup →
    qc.quorumThreshold ≤ qc.signers.length

omit [DecidableEq Addr] in
/-- A round is finalized with as many votes of each phase as the threshold asks for, and with the
signers that are handed in. -/
theorem finalized_counted {now round epoch q : ℕ} {blockHash : Hash} {proposer : Addr}
    {steps pre : List (Step Addr)} {at' : ℕ} {signers : List Addr} {t : ConsensusRound Addr}
    (hx : (machine Addr).Executes (startRound now round blockHash proposer epoch q) steps pre
      (at', .finalizeRound signers) t) :
    let start := startRound now round blockHash proposer epoch q
    ∃ issued, finalizeRound at' ((machine Addr).run start pre) signers = .ok (t, issued) ∧
      issued.signers = signers ∧ (preparers start pre).length = max q 1 ∧
      (committers start pre).length = max q 1 := by
  intro start
  have hexec : exec (at', .finalizeRound signers) ((machine Addr).run start pre) = .ok t :=
    hx.exec_eq
  simp only [exec, map_eq_ok] at hexec
  obtain ⟨⟨u, issued⟩, hissued, rfl⟩ := hexec
  obtain ⟨-, hprepares, hcommits, -, hsigners⟩ := finalizeRound_counted
    (run_counted now round blockHash proposer epoch q pre) hissued
  exact ⟨issued, hissued, hsigners, hprepares, hcommits⟩

theorem certificate_means_votes_iff (now round : ℕ) (blockHash : Hash) (proposer : Addr)
    (epoch q : ℕ) (steps : List (Step Addr)) (qc : QuorumCertificate Addr)
    (expectedBlockHash : Hash) (expectedRound : ℕ) :
    let start := startRound now round blockHash proposer epoch q
    MeansVotes start q steps qc expectedBlockHash expectedRound ↔
      VotesOnce start steps qc expectedBlockHash expectedRound := by
  intro start
  constructor
  · intro h
    constructor
    · intro pre at' signers t hx
      obtain ⟨-, -, -, hprepares, -⟩ := finalized_counted hx
      exact (le_card_voters_iff hprepares).mp (h.prepared pre at' signers t hx)
    · intro pre at' signers t hx
      obtain ⟨-, -, -, -, hcommits⟩ := finalized_counted hx
      exact (le_card_voters_iff hcommits).mp (h.committed pre at' signers t hx)
    · intro pre at' signers t hx
      obtain ⟨issued, hissued, rfl, -, hcommits⟩ := finalized_counted hx
      obtain ⟨hnodup, hmem⟩ := h.signed pre at' issued.signers t issued hx hissued
      have honce := (le_card_voters_iff hcommits).mp (h.committed pre at' issued.signers t hx)
      exact (List.perm_ext_iff_of_nodup hnodup honce).mpr hmem
    · intro hhash hround hcount hnodup
      have hverified := h.verified (verifyQuorumCertificate_iff.mpr ⟨hhash, hround, hcount, hnodup⟩)
      rwa [List.toFinset_card_of_nodup hnodup] at hverified
  · intro h
    constructor
    · intro pre at' signers t hx
      obtain ⟨-, -, -, hprepares, -⟩ := finalized_counted hx
      exact (le_card_voters_iff hprepares).mpr (h.prepares pre at' signers t hx)
    · intro pre at' signers t hx
      obtain ⟨-, -, -, -, hcommits⟩ := finalized_counted hx
      exact (le_card_voters_iff hcommits).mpr (h.commits pre at' signers t hx)
    · intro pre at' signers t issued hx hissued
      obtain ⟨issued', hissued', hsigners, -, -⟩ := finalized_counted hx
      obtain rfl : issued = issued' := by
        rw [hissued, Except.ok.injEq, Prod.mk.injEq] at hissued'
        exact hissued'.2
      have hperm := h.signers pre at' signers t hx
      rw [hsigners]
      constructor
      · rw [hperm.nodup_iff]
        exact h.commits pre at' signers t hx
      · intro v
        exact hperm.mem_iff
    · intro hverified
      obtain ⟨hhash, hround, hcount, hnodup⟩ := verifyQuorumCertificate_iff.mp hverified
      rw [List.toFinset_card_of_nodup hnodup]
      exact h.listed hhash hround hcount hnodup

end Meaning

section Lone

/-- Validator 1 alone votes three times in each phase, and nobody signs. -/
def loneVotes : List (Step ℕ) :=
  List.replicate 3 (0, .castPrepare 1 7) ++ List.replicate 3 (0, .castCommit 1 7) ++
    [(0, .finalizeRound [])]

def emptyCertificate : QuorumCertificate ℕ := ⟨7, 1, [], 3, 3, 0⟩

/-- One validator finalizes a round that needs three. -/
theorem lone_validator_finalizes :
    ¬ ∀ (q : ℕ) (steps : List (Step ℕ)) (qc : QuorumCertificate ℕ),
      MeansVotes (startRound 0 1 7 1 0 q) q steps qc 7 1 := by
  intro h
  have hx : (machine ℕ).Executes (startRound 0 1 7 1 0 3) loneVotes loneVotes.dropLast
      (0, .finalizeRound []) ((machine ℕ).run (startRound 0 1 7 1 0 3) loneVotes) := by
    have hne : (machine ℕ).run (startRound 0 1 7 1 0 3) loneVotes ≠
        (machine ℕ).run (startRound 0 1 7 1 0 3) loneVotes.dropLast := by
      intro heq
      exact absurd (congrArg ConsensusRound.phase heq) (by decide)
    exact Machine.executes_of_run_ne hne
  exact absurd ((h 3 loneVotes emptyCertificate).prepared _ _ _ _ hx) (by decide)

end Lone

end Consensus
