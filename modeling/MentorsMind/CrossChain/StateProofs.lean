import MentorsMind.Lib.MerkleTree
import MentorsMind.Soroban.Host

/-! State proofs: the Merkle root of the leaves of a chain's state, and the check of a proof against
an expected root. Both are compared for every list of leaves. -/
namespace CrossChain.StateProofs
open Soroban MerkleTree

structure CrossChainStateProof where
  chainId : ℕ
  stateRoot : Hash
  proofPath : List Hash
  generatedAt : ℕ
  validated : Bool

/-- The 32 bytes of a hash. -/
def toArray (h : Hash) : List UInt8 := (Encoding.bigEndian 32).encode h

theorem length_toArray (h : Hash) : (toArray h).length = 32 :=
  (Encoding.bigEndian 32).length_encode h

section Functions

variable (sha256 : List UInt8 → Hash)

/-- The hash chain over the path, which is hashed once more at its end. -/
def validateStateProof (proof : CrossChainStateProof) (expectedRoot : Hash) : Bool :=
  if proof.proofPath.isEmpty = true then decide (proof.stateRoot = expectedRoot)
  else
    let current := proof.proofPath.foldl
      (fun current sibling => toArray (sha256 (current ++ toArray sibling)))
      (toArray proof.stateRoot)
    decide (sha256 current = expectedRoot)

/-- Neighbours are hashed together, layer by layer, and an odd last element is carried on. -/
def computeStateMerkleRoot : List Hash → Hash
  | [] => 0
  | [leaf] => leaf
  | leaves =>
    (Layers.collapse (fun left right => sha256 (toArray left ++ toArray right)) id
      leaves.length leaves).headD 0

/-- What a list of leaves is to be proved by. -/
structure StateProofsMatch (leaves : List Hash) : Prop where
  complete : ∀ leaf ∈ leaves, ∃ proof : CrossChainStateProof, proof.stateRoot = leaf ∧
    validateStateProof sha256 proof (computeStateMerkleRoot sha256 leaves) = true
  sound : ∀ proof : CrossChainStateProof,
    validateStateProof sha256 proof (computeStateMerkleRoot sha256 leaves) = true →
      proof.stateRoot ∈ leaves

end Functions

variable {sha256 : List UInt8 → Hash} {leaves : List Hash} {leaf root : Hash}
  {proof : CrossChainStateProof}

theorem validateStateProof_nil (hpath : proof.proofPath = []) :
    validateStateProof sha256 proof root = true ↔ proof.stateRoot = root := by
  simp [validateStateProof, hpath]

/-- Whatever the path is, what is hashed last is a single digest. -/
theorem validateStateProof_cons (hpath : proof.proofPath ≠ [])
    (h : validateStateProof sha256 proof root = true) : ∃ last, sha256 (toArray last) = root := by
  have hbytes : ∀ (path : List Hash) (start : Hash), ∃ last, path.foldl
      (fun current sibling => toArray (sha256 (current ++ toArray sibling))) (toArray start) =
        toArray last := by
    intro path
    induction path with
    | nil =>
      intro start
      exact ⟨start, by rw [List.foldl_nil]⟩
    | cons sibling path ih =>
      intro start
      obtain ⟨last, hlast⟩ := ih (sha256 (toArray start ++ toArray sibling))
      exact ⟨last, by rw [List.foldl_cons, hlast]⟩
  obtain ⟨last, hlast⟩ := hbytes proof.proofPath proof.stateRoot
  have hcurrent : sha256 (toArray last) = root := by
    simpa [validateStateProof, hpath, hlast] using h
  exact ⟨last, hcurrent⟩

/-- The root of several leaves hashes two digests. -/
theorem computeStateMerkleRoot_eq_node (sha256 : List UInt8 → Hash) (htwo : 2 ≤ leaves.length) :
    ∃ left right, computeStateMerkleRoot sha256 leaves =
      sha256 (toArray left ++ toArray right) := by
  obtain ⟨left, right, hnode⟩ : ∃ left right,
      Layers.collapse (fun left right => sha256 (toArray left ++ toArray right)) id
        leaves.length leaves = [sha256 (toArray left ++ toArray right)] :=
    Layers.collapse_eq_node htwo (Nat.le_succ leaves.length)
  refine ⟨left, right, ?_⟩
  rw [computeStateMerkleRoot, hnode]
  · rfl
  · rintro rfl
    simp at htwo
  · rintro leaf rfl
    simp at htwo

/-- No leaf of a longer list has a proof, as long as no digest has the hash of a node. -/
theorem validateStateProof_leaf (htwo : 2 ≤ leaves.length)
    (hfree : ∀ a left right : Hash,
      sha256 (toArray a) ≠ sha256 (toArray left ++ toArray right))
    (houtputs : ∀ data, sha256 data ∉ leaves) (hleaf : proof.stateRoot ∈ leaves) :
    validateStateProof sha256 proof (computeStateMerkleRoot sha256 leaves) = false := by
  obtain ⟨left, right, hnode⟩ := computeStateMerkleRoot_eq_node sha256 htwo
  rw [Bool.eq_false_iff]
  intro haccepts
  rw [hnode] at haccepts
  by_cases hpath : proof.proofPath = []
  · rw [(validateStateProof_nil hpath).mp haccepts] at hleaf
    exact houtputs _ hleaf
  · obtain ⟨last, hlast⟩ := validateStateProof_cons hpath haccepts
    exact hfree last left right hlast

/-- Proofs match roots only for a single leaf: of a longer list the root is accepted in place of a
leaf, and no leaf is. -/
theorem stateProofsMatch_iff (hleaves : leaves ≠ [])
    (hfree : ∀ a left right : Hash,
      sha256 (toArray a) ≠ sha256 (toArray left ++ toArray right))
    (houtputs : ∀ data, sha256 data ∉ leaves) :
    (StateProofsMatch sha256 leaves ↔ leaves.length = 1) ∧
      (2 ≤ leaves.length → ∀ proof : CrossChainStateProof, proof.stateRoot ∈ leaves →
        validateStateProof sha256 proof (computeStateMerkleRoot sha256 leaves) = false) := by
  refine ⟨⟨?_, ?_⟩, fun htwo proof => validateStateProof_leaf htwo hfree houtputs⟩
  · intro hmatch
    by_contra hlength
    have hpos := List.length_pos_iff.mpr hleaves
    obtain ⟨left, right, hnode⟩ :=
      computeStateMerkleRoot_eq_node sha256 (show 2 ≤ leaves.length by omega)
    have hroot := hmatch.sound ⟨0, computeStateMerkleRoot sha256 leaves, [], 0, false⟩
      ((validateStateProof_nil rfl).mpr rfl)
    rw [hnode] at hroot
    exact houtputs _ hroot
  · intro hlength
    obtain ⟨leaf, rfl⟩ := List.length_eq_one_iff.mp hlength
    constructor
    · intro found hfound
      refine ⟨⟨0, found, [], 0, false⟩, rfl, (validateStateProof_nil rfl).mpr ?_⟩
      exact List.mem_singleton.mp hfound
    · intro proof haccepts
      by_cases hpath : proof.proofPath = []
      · exact List.mem_singleton.mpr ((validateStateProof_nil hpath).mp haccepts)
      · obtain ⟨last, hlast⟩ := validateStateProof_cons hpath haccepts
        exact absurd (List.mem_singleton.mpr hlast) (houtputs _)

section Example

/-- A digest that tells the lengths apart, and is above the leaves 5 and 6. -/
def lengthDigest (data : List UInt8) : Hash := BitVec.ofNat 256 (1000 + data.length % 1000)

theorem lengthDigest_free (a left right : Hash) :
    lengthDigest (toArray a) ≠ lengthDigest (toArray left ++ toArray right) := by
  simp only [lengthDigest, List.length_append, length_toArray]
  decide

theorem lengthDigest_not_mem (data : List UInt8) : lengthDigest data ∉ [(5 : Hash), 6] := by
  have hsmall : 1000 + data.length % 1000 < 2 ^ 256 := by
    have hmod := Nat.mod_lt data.length (show 1000 > 0 by decide)
    omega
  have hvalue : (lengthDigest data).toNat = 1000 + data.length % 1000 := by
    rw [lengthDigest, BitVec.toNat_ofNat, Nat.mod_eq_of_lt hsmall]
  intro hmem
  simp only [List.mem_cons, List.not_mem_nil, or_false] at hmem
  rcases hmem with hfive | hsix
  · rw [hfive] at hvalue
    simp at hvalue
    omega
  · rw [hsix] at hvalue
    simp at hvalue
    omega

theorem stateProofsMatch_pair : ¬ StateProofsMatch lengthDigest [5, 6] := by
  intro hmatch
  have hlength := (stateProofsMatch_iff (by simp) lengthDigest_free
    lengthDigest_not_mem).1.mp hmatch
  simp at hlength

/-- Leaf 5 has no proof. -/
theorem leaf_without_proof :
    ¬ ∀ (sha256 : List UInt8 → Hash) (leaves : List Hash), leaves ≠ [] →
      StateProofsMatch sha256 leaves := by
  intro h
  obtain ⟨proof, hleaf, haccepts⟩ := (h lengthDigest [5, 6] (by simp)).complete 5 (by simp)
  have hlisted : proof.stateRoot ∈ [(5 : Hash), 6] := by simp [hleaf]
  have hrejects := validateStateProof_leaf (by simp) lengthDigest_free lengthDigest_not_mem hlisted
  rw [hrejects] at haccepts
  cases haccepts

end Example

end CrossChain.StateProofs
