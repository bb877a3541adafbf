import MentorsMind.Vesting.CreationPaths

/-! Which grants a Merkle claim accepts. What a leaf hashes determines the grant, and is never as
long as what an inner node hashes. -/
namespace Vesting
open Outcome Soroban Shared MerkleTree

variable {Addr : Type} [DecidableEq Addr] {home : Addr} {digests : Digests Addr}

/-- The documented encoding of addresses: 44 bytes for an account, 40 for a contract. -/
structure Digests.EncodesAddresses (digests : Digests Addr) : Prop where
  injective : Function.Injective digests.addressXdr
  length : ∀ a, (digests.addressXdr a).length = 44 ∨ (digests.addressXdr a).length = 40

theorem u64Xdr_inj {n m : ℕ} (hn : n < 2 ^ 64) (hm : m < 2 ^ 64) (h : u64Xdr n = u64Xdr m) :
    n = m :=
  BigEndian.bytes_inj (k := 8) hn hm (List.append_cancel_left h)

theorem i128Xdr_inj {n m : ℤ} (hn : FitsI128 n) (hm : FitsI128 m) (h : i128Xdr n = i128Xdr m) :
    n = m := by
  unfold FitsI128 at hn hm
  have hword : (n % 2 ^ 128).toNat = (m % 2 ^ 128).toNat := by
    refine BigEndian.bytes_inj (k := 16) ?_ ?_ (List.append_cancel_left h)
    · omega
    · omega
  omega

omit [DecidableEq Addr] in
theorem Grant.length_leafData (g : Grant Addr) :
    (g.leafData digests).length = (digests.addressXdr g.beneficiary).length + 56 := by
  simp [Grant.leafData, i128Xdr, u64Xdr]

omit [DecidableEq Addr] in
/-- What a leaf hashes determines the grant: the parts after the address have fixed lengths. -/
theorem leafData_injective (haddress : digests.EncodesAddresses) :
    Function.Injective (Grant.leafData digests) := by
  intro g g' h
  obtain ⟨h, hstart⟩ := List.append_inj' h (by simp [u64Xdr])
  obtain ⟨h, hvesting⟩ := List.append_inj' h (by simp [u64Xdr])
  obtain ⟨h, hcliff⟩ := List.append_inj' h (by simp [u64Xdr])
  obtain ⟨h, htotal⟩ := List.append_inj' h (by simp [i128Xdr])
  have hbeneficiary := haddress.injective h
  have htotal' := i128Xdr_inj g.total_fits g'.total_fits htotal
  have hcliff' := u64Xdr_inj g.cliff_lt g'.cliff_lt hcliff
  have hvesting' := u64Xdr_inj g.vesting_lt g'.vesting_lt hvesting
  have hstart' := u64Xdr_inj g.start_lt g'.start_lt hstart
  cases g
  cases g'
  simp only at hbeneficiary htotal' hcliff' hvesting' hstart'
  subst hbeneficiary htotal' hcliff' hvesting' hstart'
  rfl

omit [DecidableEq Addr] in
/-- A leaf hashes 100 or 96 bytes, and an inner node 64. -/
theorem length_leafData_ne (haddress : digests.EncodesAddresses) (g : Grant Addr) :
    (g.leafData digests).length ≠ 2 * digestEncoding.length := by
  rw [g.length_leafData]
  show _ ≠ 64
  rcases haddress.length g.beneficiary with hlength | hlength
  · omega
  · omega

/-- SHA-256 has no collision among what is hashed to build the tree and to check the proof. -/
def CollisionFree (digests : Digests Addr) (tree : HashTree UInt8) (g : Grant Addr)
    (proof : List Hash) : Prop :=
  Set.InjOn digests.sha256
    {x | x ∈ tree.inputs digestEncoding digests.sha256 ∨ x = g.leafData digests ∨
      x ∈ climbInputs digestEncoding digests.sha256 proof (digests.sha256 (g.leafData digests))}

/-- The root is that of a tree over the grants. -/
structure RootOf (digests : Digests Addr) (tree : HashTree UInt8) (grants : List (Grant Addr))
    (merkleRoot : Option Hash) : Prop where
  leaves : tree.leaves = grants.map (Grant.leafData digests)
  root : merkleRoot = some (tree.root digestEncoding digests.sha256)

omit [DecidableEq Addr] in
/-- A proof that leads to the root is one for a grant of the tree. -/
theorem RootOf.mem {tree : HashTree UInt8} {grants : List (Grant Addr)} {merkleRoot : Hash}
    {g : Grant Addr} {proof : List Hash} (h : RootOf digests tree grants (some merkleRoot))
    (haddress : digests.EncodesAddresses) (hfree : CollisionFree digests tree g proof)
    (hproved : climb digestEncoding digests.sha256 proof
      (digests.sha256 (g.leafData digests)) = merkleRoot) : g ∈ grants := by
  have hleaf : g.leafData digests ∈ tree.leaves := by
    refine mem_leaves_of_climb_eq_root hfree (length_leafData_ne haddress g) ?_ ?_
    · intro leaf hleaf
      rw [h.leaves] at hleaf
      obtain ⟨found, -, rfl⟩ := List.mem_map.mp hleaf
      exact length_leafData_ne haddress found
    · rw [hproved]
      exact Option.some.inj h.root
  rw [h.leaves] at hleaf
  exact (List.mem_map_of_injective (leafData_injective haddress)).mp hleaf

/-- A leaf that is marked stays so. -/
theorem Effect.claimedMerkleLeaf {inv : Invocation Addr home} {s t : State Addr}
    {call : Call Addr} {leaf : Hash} (h : Effect digests inv s t call)
    (hclaimed : s.claimedMerkleLeaf leaf = true) : t.claimedMerkleLeaf leaf = true := by
  cases h with
  | merkleClaimed _ _ _ eq =>
    rw [eq]
    simp [State.addSchedule, Function.update_apply, hclaimed]
  | created _ _ _ eq =>
    rw [eq]
    exact hclaimed
  | initialized _ eq | claimed _ _ _ _ _ _ eq | revoked _ _ _ _ _ eq | rootSet _ eq
  | received _ _ eq | elsewhere _ eq =>
    rw [eq]
    exact hclaimed

/-- A Merkle claim succeeds only for grants of the tree whose root is stored, with whatever
proof, and over a run every grant is claimed at most once. -/
theorem merkleClaims_sound_once (haddress : digests.EncodesAddresses)
    (balance : Addr → Addr → ℕ) (steps : List (Step Addr home)) :
    (∀ (inv : Invocation Addr home) (s t : State Addr) (id : ℕ) (g : Grant Addr)
      (proof : List Hash) (tree : HashTree UInt8) (grants : List (Grant Addr)),
      RootOf digests tree grants s.merkleRoot → CollisionFree digests tree g proof →
      claimVestingMerkle digests inv s g proof = .ok (t, id) → g ∈ grants) ∧
    ∀ (g : Grant Addr) (pre pre' : List (Step Addr home)) (inv inv' : Invocation Addr home)
      (proof proof' : List Hash) (t t' : State Addr),
      (machine home digests).Executes (deployed balance) steps pre
        (inv, .claimVestingMerkle g proof) t →
      (machine home digests).Executes (deployed balance) steps pre'
        (inv', .claimVestingMerkle g proof') t' → pre = pre' := by
  constructor
  · intro inv s t id g proof tree grants hroot hfree h
    obtain ⟨merkleRoot, hstored, -, hproved, -, -⟩ := claimVestingMerkle_spec h
    rw [hstored] at hroot
    exact hroot.mem haddress hfree hproved
  · intro g pre pre' inv inv' proof proof' t t' hx hx'
    -- The mark of the leaf is missing before a claim of the grant, and stays after it.
    have hmarks : ∀ pre step t, (machine home digests).Executes (deployed balance) steps pre
        step t → (∃ proof, step.2 = .claimVestingMerkle g proof) →
        ((machine home digests).run (deployed balance) pre).claimedMerkleLeaf
          (digests.sha256 (g.leafData digests)) ≠ true ∧
        t.claimedMerkleLeaf (digests.sha256 (g.leafData digests)) = true := by
      rintro pre ⟨inv, call⟩ t hx ⟨proof, hcall⟩
      obtain rfl : call = .claimVestingMerkle g proof := hcall
      have heffect : Effect digests inv ((machine home digests).run (deployed balance) pre) t
        (.claimVestingMerkle g proof) := exec_effect hx.exec_eq
      cases heffect with
      | merkleClaimed stored unclaimed proved eq =>
        refine ⟨by simp [unclaimed], ?_⟩
        rw [eq]
        exact Function.update_self ..
    refine Machine.Executes.unique (M := machine home digests)
      (P := fun _ step _ => ∃ proof, step.2 = .claimVestingMerkle g proof)
      (D := fun s => s.claimedMerkleLeaf (digests.sha256 (g.leafData digests)) = true)
      (fun pre step t hx hcall => (hmarks pre step t hx hcall).1)
      (fun pre step t hx hcall => (hmarks pre step t hx hcall).2)
      (fun pre step t hx hdone => (exec_effect hx.exec_eq).claimedMerkleLeaf hdone)
      hx ⟨proof, rfl⟩ hx' ⟨proof', rfl⟩

/-- The grants of a tree with two leaves, for the contract with address 4. -/
def dayLeaf : Grant (BitVec 256) :=
  { dayGrant with beneficiary := 4 }

def cliffLeaf : Grant (BitVec 256) :=
  { cliffGrant with beneficiary := 4 }

def contractAddressXdr (a : BitVec 256) : List UInt8 := contractXdr a.toNat

def twoLeafRoot : Hash := 0xd7b7a468c9cfe09b28324c06c2ae1863cb97a7ba0262917a1dcf8f7349eb58af

/-- SHA-256 where the tree below and its proofs compute it. -/
def twoLeafDigests : Digests (BitVec 256) where
  sha256 data :=
    if data = dayLeaf.leafData ⟨fun _ => 0, contractAddressXdr⟩ then dayGrantLeaf
    else if data = cliffLeaf.leafData ⟨fun _ => 0, contractAddressXdr⟩ then cliffGrantLeaf
    else if data = nodeInput digestEncoding dayGrantLeaf cliffGrantLeaf then twoLeafRoot
    else 0
  addressXdr := contractAddressXdr

def twoLeafTree : HashTree UInt8 :=
  .node (.leaf (dayLeaf.leafData twoLeafDigests)) (.leaf (cliffLeaf.leafData twoLeafDigests))

theorem twoLeafDigests_encodesAddresses : twoLeafDigests.EncodesAddresses := by
  constructor
  · intro a b h
    exact BigEndian.bytes_toNat_injective 32 (List.append_cancel_left h)
  · intro a
    right
    simp [twoLeafDigests, contractAddressXdr, contractXdr]

/-- An invocation that every address signed but that of the contract, which is 0. -/
def signedInvocation (now : ℕ) : Invocation (BitVec 256) 0 where
  timestamp := now
  sequence := 0
  auth a := a != 0
  auth_home := rfl
  accepts _ := true

/-- The admin publishes the root of the tree. -/
def twoLeafState : State (BitVec 256) :=
  (machine 0 twoLeafDigests).run (deployed fun _ _ => 0)
    [(signedInvocation 1000, .initializeVesting 1 9),
      (signedInvocation 1000, .setMerkleRoot twoLeafRoot)]

/-- A claim with the other leaf as its proof succeeds, and is one for a grant of the tree. -/
theorem twoLeafTree_claim_sound : (∃ r, claimVestingMerkle twoLeafDigests
    (signedInvocation 1000) twoLeafState dayLeaf [cliffGrantLeaf] = .ok r) ∧
    dayLeaf ∈ [dayLeaf, cliffLeaf] := by
  have hclaim : ∃ r, claimVestingMerkle twoLeafDigests (signedInvocation 1000) twoLeafState
      dayLeaf [cliffGrantLeaf] = .ok r := ⟨_, rfl⟩
  refine ⟨hclaim, ?_⟩
  obtain ⟨⟨t, id⟩, h⟩ := hclaim
  refine (merkleClaims_sound_once twoLeafDigests_encodesAddresses (fun _ _ => 0) []).1
    (signedInvocation 1000) twoLeafState t id dayLeaf [cliffGrantLeaf] twoLeafTree
    [dayLeaf, cliffLeaf] ⟨rfl, by decide +kernel⟩ ?_ h
  have hinputs : ∀ x ∈ twoLeafTree.inputs digestEncoding twoLeafDigests.sha256 ++
      dayLeaf.leafData twoLeafDigests :: climbInputs digestEncoding twoLeafDigests.sha256
        [cliffGrantLeaf] (twoLeafDigests.sha256 (dayLeaf.leafData twoLeafDigests)),
      ∀ y ∈ twoLeafTree.inputs digestEncoding twoLeafDigests.sha256 ++
        dayLeaf.leafData twoLeafDigests :: climbInputs digestEncoding twoLeafDigests.sha256
          [cliffGrantLeaf] (twoLeafDigests.sha256 (dayLeaf.leafData twoLeafDigests)),
      twoLeafDigests.sha256 x = twoLeafDigests.sha256 y → x = y := by
    decide +kernel
  have hmem : ∀ x, (x ∈ twoLeafTree.inputs digestEncoding twoLeafDigests.sha256 ∨
      x = dayLeaf.leafData twoLeafDigests ∨ x ∈ climbInputs digestEncoding
        twoLeafDigests.sha256 [cliffGrantLeaf]
        (twoLeafDigests.sha256 (dayLeaf.leafData twoLeafDigests))) →
      x ∈ twoLeafTree.inputs digestEncoding twoLeafDigests.sha256 ++
        dayLeaf.leafData twoLeafDigests :: climbInputs digestEncoding twoLeafDigests.sha256
          [cliffGrantLeaf] (twoLeafDigests.sha256 (dayLeaf.leafData twoLeafDigests)) := by
    rintro x (hx | hx | hx)
    · exact List.mem_append_left _ hx
    · exact List.mem_append_right _ (hx ▸ List.mem_cons_self)
    · exact List.mem_append_right _ (List.mem_cons_of_mem _ hx)
  intro x hx y hy heq
  exact hinputs x (hmem x hx) y (hmem y hy) heq

end Vesting
