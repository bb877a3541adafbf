import MentorsMind.Lib.MerkleTree
import MentorsMind.Soroban.Host

/-! Recordings of sessions: the Merkle root over the hashes of the chunks, and the check of what is
provided against a recording. An odd node is hashed with itself, which is why two lists of chunks
can have one root. Consent, redaction and access are left out. -/
namespace Shared.RecordingIntegrity
open Outcome Soroban MerkleTree

def defaultRetentionDays : ℕ := 90

inductive RecordingStatus where
  | recording
  | completed
  | processing
  | verified
  | redacted
  | expired
  | deleted
  deriving DecidableEq

structure SessionRecording (Addr : Type) where
  recordingId : String
  sessionId : String
  mentor : Addr
  learner : Addr
  storageUri : String
  contentHash : Hash
  merkleRoot : Hash
  chunkHashes : List Hash
  sizeBytes : ℕ
  durationSecs : ℕ
  status : RecordingStatus
  recordedAt : ℕ
  verifiedAt : Option ℕ
  expiresAt : ℕ

structure IntegrityVerificationResult (Addr : Type) where
  recordingId : String
  isIntact : Bool
  verifiedChunks : ℕ
  totalChunks : ℕ
  mismatchedChunks : List ℕ
  merkleRootMatch : Bool
  contentHashMatch : Bool
  verifiedAt : ℕ
  verifier : Addr

/-- How a hash is written as 32 bytes. -/
def hashBytes : Encoding UInt8 Hash := Encoding.bigEndian 32

section Functions

variable {Addr : Type} (sha256 : List UInt8 → Hash)

/-- Layer by layer, where an odd last element is hashed with itself. -/
def computeMerkleRoot : List Hash → Hash
  | [] => 0
  | chunkHashes =>
    (Layers.collapse (join hashBytes sha256) (fun last => join hashBytes sha256 last last)
      chunkHashes.length chunkHashes).headD 0

def createRecording (now : ℕ) (sessionId : String) (mentor learner : Addr) (storageUri : String)
    (contentHash : Hash) (chunkHashes : List Hash) (sizeBytes durationSecs : ℕ) :
    Result (SessionRecording Addr) := do
  let merkleRoot := computeMerkleRoot sha256 chunkHashes
  let expiresAt ← u64 (now + defaultRetentionDays * 24 * 3600)
  pure {
    recordingId := "rec_"
    sessionId := sessionId
    mentor := mentor
    learner := learner
    storageUri := storageUri
    contentHash := contentHash
    merkleRoot := merkleRoot
    chunkHashes := chunkHashes
    sizeBytes := sizeBytes
    durationSecs := durationSecs
    status := .completed
    recordedAt := now
    verifiedAt := none
    expiresAt := expiresAt }

def verifyRecordingIntegrity (now : ℕ) (recording : SessionRecording Addr)
    (providedChunkHashes : List Hash) (providedContentHash : Hash) (verifier : Addr) :
    IntegrityVerificationResult Addr :=
  let minLen := min recording.chunkHashes.length providedChunkHashes.length
  let verified := (List.range minLen).countP fun i =>
    recording.chunkHashes[i]? = providedChunkHashes[i]?
  let mismatched := (List.range minLen).filter fun i =>
    recording.chunkHashes[i]? ≠ providedChunkHashes[i]?
  let merkleMatch := decide (computeMerkleRoot sha256 providedChunkHashes = recording.merkleRoot)
  let contentMatch := decide (providedContentHash = recording.contentHash)
  { recordingId := recording.recordingId
    isIntact := merkleMatch && contentMatch && decide (mismatched.length = 0) &&
      decide (minLen = recording.chunkHashes.length)
    verifiedChunks := min verified maxU32
    totalChunks := recording.chunkHashes.length
    mismatchedChunks := mismatched
    merkleRootMatch := merkleMatch
    contentHashMatch := contentMatch
    verifiedAt := now
    verifier := verifier }

/-- The check tells exactly whether what is provided is what was recorded. -/
def IntegrityExact (now : ℕ) (recording : SessionRecording Addr) (provided : List Hash)
    (contentHash : Hash) (verifier : Addr) : Prop :=
  (verifyRecordingIntegrity sha256 now recording provided contentHash verifier).isIntact = true ↔
    provided = recording.chunkHashes ∧ contentHash = recording.contentHash

end Functions

section Trees

/-- The tree over a list of hashes, with its odd nodes doubled; nothing stands for zero. -/
def doubledTree : List Hash → DigestTree Hash
  | [] => .leaf 0
  | hashes =>
    (Layers.collapse DigestTree.node (fun last => .node last last) hashes.length
      (hashes.map DigestTree.leaf)).headD (.leaf 0)

variable {sha256 : List UInt8 → Hash} {hashes recorded provided : List Hash}

theorem doubledTree_collapse (hhashes : hashes ≠ []) :
    Layers.collapse DigestTree.node (fun last => .node last last) hashes.length
        (hashes.map DigestTree.leaf) = [doubledTree hashes] ∧
      (doubledTree hashes).Perfect (Nat.clog 2 hashes.length) := by
  obtain ⟨tree, htree, hperfect⟩ : ∃ tree, Layers.collapse DigestTree.node
      (fun last => .node last last) hashes.length (hashes.map DigestTree.leaf) = [tree] ∧
        tree.Perfect (0 + Nat.clog 2 (hashes.map DigestTree.leaf).length) := by
    refine Layers.collapse_rule (P := DigestTree.Perfect) ?_ ?_ 0 (by simpa using hhashes)
      (by simp) ?_
    · intro k left right hleft hright
      exact ⟨hleft, hright⟩
    · intro k last hlast
      exact ⟨hlast, hlast⟩
    · simp [DigestTree.Perfect]
  have hdoubled : doubledTree hashes = tree := by
    cases hashes with
    | nil => exact absurd rfl hhashes
    | cons hash rest =>
      rw [doubledTree, htree, List.headD_cons]
      simp
  rw [zero_add, List.length_map] at hperfect
  rw [hdoubled]
  exact ⟨htree, hperfect⟩

theorem doubledTree_perfect (hashes : List Hash) :
    (doubledTree hashes).Perfect (Nat.clog 2 hashes.length) := by
  cases hashes with
  | nil => simp [doubledTree, DigestTree.Perfect]
  | cons hash rest => exact (doubledTree_collapse (by simp)).2

theorem computeMerkleRoot_eq (sha256 : List UInt8 → Hash) (hashes : List Hash) :
    computeMerkleRoot sha256 hashes = (doubledTree hashes).root hashBytes sha256 := by
  cases hashes with
  | nil => rfl
  | cons hash rest =>
    have htree := (doubledTree_collapse (List.cons_ne_nil hash rest)).1
    have hleaves : ((hash :: rest).map .leaf).map (DigestTree.root hashBytes sha256) =
        hash :: rest := by
      rw [List.map_map, show DigestTree.root hashBytes sha256 ∘ .leaf = id from rfl, List.map_id]
    have hroots : (Layers.collapse DigestTree.node (fun last => .node last last)
          (hash :: rest).length ((hash :: rest).map .leaf)).map
            (DigestTree.root hashBytes sha256) =
        Layers.collapse (join hashBytes sha256) (fun last => join hashBytes sha256 last last)
          (hash :: rest).length (((hash :: rest).map .leaf).map
            (DigestTree.root hashBytes sha256)) := by
      refine Layers.map_collapse ?_ ?_ _ _
      · intro left right
        rfl
      · intro last
        rfl
    rw [htree, hleaves] at hroots
    rw [computeMerkleRoot, ← hroots, List.map_singleton, List.headD_cons]
    simp

theorem doubledTree_leftmost (hashes : List Hash) :
    (doubledTree hashes).leftmost = hashes.headD 0 := by
  cases hashes with
  | nil => rfl
  | cons hash rest =>
    have htree := (doubledTree_collapse (List.cons_ne_nil hash rest)).1
    have hfirst : ∀ tree ∈ (Layers.collapse DigestTree.node (fun last => .node last last)
        (hash :: rest).length ((hash :: rest).map DigestTree.leaf)).head?,
          tree.leftmost = hash := by
      refine Layers.head_collapse ?_ ?_ ?_
      · exact fun left right hleft => hleft
      · exact fun last hlast => hlast
      · simp [DigestTree.leftmost]
    rw [htree] at hfirst
    exact hfirst _ rfl

/-- A longer list with the same first hash and the same root makes the same tree, as long as
nothing that is hashed collides and the first hash is no digest of a node above it. -/
theorem doubledTree_eq_of_root_eq
    (hfree : Set.InjOn sha256 {x | x ∈ (doubledTree recorded).inputs hashBytes sha256 ∨
      x ∈ (doubledTree provided).inputs hashBytes sha256})
    (hfirst : recorded.headD 0 ∉ (doubledTree provided).digests hashBytes sha256)
    (hlonger : recorded.length ≤ provided.length)
    (hroot : computeMerkleRoot sha256 recorded = computeMerkleRoot sha256 provided) :
    doubledTree recorded = doubledTree provided := by
  rw [computeMerkleRoot_eq, computeMerkleRoot_eq] at hroot
  have hrecorded := doubledTree_perfect recorded
  have hprovided := doubledTree_perfect provided
  rcases (Nat.clog_mono_right 2 hlonger).eq_or_lt with hsame | hdeeper
  · rw [← hsame] at hprovided
    exact DigestTree.eq_of_root_eq hrecorded hprovided hfree hroot
  · obtain ⟨j, hj⟩ := Nat.exists_eq_add_of_lt hdeeper
    rw [hj] at hprovided
    have hmem := DigestTree.leftmost_mem_digests hrecorded hprovided hfree hroot
    rw [doubledTree_leftmost] at hmem
    exact absurd hmem hfirst

end Trees

section Check

variable {Addr : Type} {sha256 : List UInt8 → Hash} {recording : SessionRecording Addr}
  {provided : List Hash} {contentHash : Hash} {verifier : Addr} {now : ℕ}

/-- No chunk of the recording is missing or different if it is the beginning of what is
provided. -/
theorem chunks_match_iff (recorded provided : List Hash) :
    ((List.range (min recorded.length provided.length)).filter
        fun i => decide (recorded[i]? ≠ provided[i]?)).length = 0 ∧
      min recorded.length provided.length = recorded.length ↔ recorded <+: provided := by
  rw [List.length_eq_zero_iff, List.filter_eq_nil_iff, List.prefix_iff_getElem?]
  constructor
  · rintro ⟨hmatch, hmin⟩ i hi
    have hequal := hmatch i (by rwa [hmin, List.mem_range])
    rw [decide_eq_true_eq, not_not] at hequal
    rw [← hequal, List.getElem?_eq_getElem hi]
  · intro hall
    have hlength := (List.prefix_iff_getElem?.mpr hall).length_le
    refine ⟨?_, min_eq_left hlength⟩
    intro i hi
    rw [min_eq_left hlength, List.mem_range] at hi
    rw [hall i hi, List.getElem?_eq_getElem hi]
    simp

theorem isIntact_iff :
    (verifyRecordingIntegrity sha256 now recording provided contentHash verifier).isIntact = true ↔
      recording.chunkHashes <+: provided ∧
        computeMerkleRoot sha256 provided = recording.merkleRoot ∧
        contentHash = recording.contentHash := by
  rw [← chunks_match_iff]
  simp only [verifyRecordingIntegrity, Bool.and_eq_true, decide_eq_true_eq]
  tauto

/-- The check is exact unless the content matches and what is provided goes on after the recorded
chunks, with hashes that double the recorded ones where their tree does. -/
theorem integrityExact_iff {created durationSecs sizeBytes : ℕ} {sessionId storageUri : String}
    {mentor learner : Addr} {recordedContent : Hash} {chunkHashes : List Hash}
    (hcreated : createRecording sha256 created sessionId mentor learner storageUri recordedContent
      chunkHashes sizeBytes durationSecs = .ok recording)
    (hfree : Set.InjOn sha256 {x | x ∈ (doubledTree chunkHashes).inputs hashBytes sha256 ∨
      x ∈ (doubledTree provided).inputs hashBytes sha256})
    (hfirst : chunkHashes.headD 0 ∉ (doubledTree provided).digests hashBytes sha256) :
    IntegrityExact sha256 now recording provided contentHash verifier ↔
      ¬ (contentHash = recordedContent ∧ chunkHashes <+: provided ∧ chunkHashes ≠ provided ∧
        doubledTree chunkHashes = doubledTree provided) := by
  simp only [createRecording, bind_eq_ok, u64_eq_ok, pure_eq_ok] at hcreated
  obtain ⟨expiresAt, -, rfl⟩ := hcreated
  rw [IntegrityExact, isIntact_iff]
  constructor
  · rintro hexact ⟨hcontent, hstart, hne, htree⟩
    have hroot : computeMerkleRoot sha256 provided = computeMerkleRoot sha256 chunkHashes := by
      rw [computeMerkleRoot_eq, computeMerkleRoot_eq, htree]
    exact hne (hexact.mp ⟨hstart, hroot, hcontent⟩).1.symm
  · intro hcondition
    constructor
    · rintro ⟨hstart, hroot, hcontent⟩
      refine ⟨?_, hcontent⟩
      by_contra hne
      have htree := doubledTree_eq_of_root_eq hfree hfirst hstart.length_le hroot.symm
      exact hcondition ⟨hcontent, hstart, fun heq => hne heq.symm, htree⟩
    · rintro ⟨rfl, hcontent⟩
      exact ⟨List.prefix_rfl, rfl, hcontent⟩

end Check

section Example

/-- A polynomial in the bytes. -/
def polynomialDigest (data : List UInt8) : Hash :=
  BitVec.ofNat 256 (data.foldl (fun digest byte => digest * 257 + byte.toNat + 1) 0)

/-- A recording of three chunks. -/
def threeChunks : SessionRecording ℕ where
  recordingId := "rec_"
  sessionId := "session"
  mentor := 1
  learner := 2
  storageUri := "uri"
  contentHash := 9
  merkleRoot := computeMerkleRoot polynomialDigest [1, 2, 3]
  chunkHashes := [1, 2, 3]
  sizeBytes := 100
  durationSecs := 60
  status := .completed
  recordedAt := 0
  verifiedAt := none
  expiresAt := 7776000

theorem threeChunks_created : createRecording polynomialDigest 0 "session" 1 2 "uri" 9 [1, 2, 3]
    100 60 = .ok threeChunks := rfl

/-- Another chunk that is provided does not go unnoticed. -/
theorem integrityExact_fourth :
    IntegrityExact polynomialDigest 5 threeChunks [1, 2, 3, 4] 9 4 := by
  have hinputs : ∀ x ∈ (doubledTree [1, 2, 3]).inputs hashBytes polynomialDigest ++
      (doubledTree [1, 2, 3, 4]).inputs hashBytes polynomialDigest,
      ∀ y ∈ (doubledTree [1, 2, 3]).inputs hashBytes polynomialDigest ++
        (doubledTree [1, 2, 3, 4]).inputs hashBytes polynomialDigest,
      polynomialDigest x = polynomialDigest y → x = y := by
    decide +kernel
  refine (integrityExact_iff threeChunks_created ?_ ?_).mpr ?_
  · intro x hx y hy
    exact hinputs x (List.mem_append.mpr hx) y (List.mem_append.mpr hy)
  · decide +kernel
  · decide +kernel

/-- The third chunk twice does. -/
theorem third_chunk_doubled :
    ¬ ∀ provided, IntegrityExact polynomialDigest 5 threeChunks provided 9 4 := by
  intro h
  have hintact : (verifyRecordingIntegrity polynomialDigest 5 threeChunks [1, 2, 3, 3] 9
      4).isIntact = true := by
    decide +kernel
  have hsame := ((h [1, 2, 3, 3]).mp hintact).1
  exact absurd hsame (by decide)

end Example

end Shared.RecordingIntegrity
