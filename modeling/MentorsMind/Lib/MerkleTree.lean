import MentorsMind.Lib.BigEndian

/-! Hash trees whose inner nodes hash the digests of their children in sorted order, so that a
proof of membership is a list of siblings without directions. Leaves and inner nodes are hashed
alike: what keeps them apart is the length of what is hashed. -/
namespace MerkleTree

variable {B H : Type*}

/-- A digest as a byte string of fixed length. -/
structure Encoding (B H : Type*) where
  encode : H → List B
  length : ℕ
  length_encode : ∀ h, (encode h).length = length
  injective : Function.Injective encode

variable [LT H] [DecidableLT H] (E : Encoding B H) (hash : List B → H)

/-- What is hashed for two digests: the smaller one first. -/
def nodeInput (a b : H) : List B :=
  if a < b then E.encode a ++ E.encode b else E.encode b ++ E.encode a

/-- One step up the tree after the other, beside the siblings of the proof. -/
def climb (proof : List H) (start : H) : H :=
  proof.foldl (fun current sibling => hash (nodeInput E current sibling)) start

/-- What is hashed on the way. -/
def climbInputs : List H → H → List (List B)
  | [], _ => []
  | sibling :: proof, current =>
      nodeInput E current sibling ::
        climbInputs proof (hash (nodeInput E current sibling))

/-- A tree over data, of any shape. -/
inductive HashTree (B : Type*) where
  | leaf (data : List B)
  | node (left right : HashTree B)

namespace HashTree

def root : HashTree B → H
  | leaf data => hash data
  | node left right => hash (nodeInput E (root left) (root right))

def leaves : HashTree B → List (List B)
  | leaf data => [data]
  | node left right => left.leaves ++ right.leaves

/-- What is hashed to build the tree. -/
def inputs : HashTree B → List (List B)
  | leaf data => [data]
  | node left right =>
      nodeInput E (root E hash left) (root E hash right) ::
        (inputs left ++ inputs right)

end HashTree

variable {E hash}

@[simp] theorem length_nodeInput (a b : H) : (nodeInput E a b).length = 2 * E.length := by
  unfold nodeInput
  split_ifs
  · rw [List.length_append, E.length_encode, E.length_encode, two_mul]
  · rw [List.length_append, E.length_encode, E.length_encode, two_mul]

/-- What is hashed for two digests tells them, up to their order. -/
theorem eq_or_eq_of_nodeInput_eq {a b c d : H} (h : nodeInput E a b = nodeInput E c d) :
    a = c ∨ a = d := by
  have hpairs : ∀ {x y z w : H}, E.encode x ++ E.encode y = E.encode z ++ E.encode w →
      x = z ∧ y = w := by
    intro x y z w heq
    obtain ⟨hfirst, hsecond⟩ := List.append_inj heq (by rw [E.length_encode, E.length_encode])
    exact ⟨E.injective hfirst, E.injective hsecond⟩
  unfold nodeInput at h
  split_ifs at h
  · exact .inl (hpairs h).1
  · exact .inr (hpairs h).1
  · exact .inr (hpairs h).2
  · exact .inl (hpairs h).2

theorem climb_concat (proof : List H) (sibling start : H) :
    climb E hash (proof ++ [sibling]) start =
      hash (nodeInput E (climb E hash proof start) sibling) := by
  simp [climb]

theorem climbInputs_concat (proof : List H) (sibling start : H) :
    climbInputs E hash (proof ++ [sibling]) start =
      climbInputs E hash proof start ++ [nodeInput E (climb E hash proof start) sibling] := by
  induction proof generalizing start with
  | nil => rfl
  | cons first proof ih =>
    show _ :: climbInputs E hash (proof ++ [sibling]) _ = _
    rw [ih]
    rfl

/-- Only what is a leaf of the tree has a proof, of whatever length, as long as nothing that is
hashed collides and no leaf is as long as an inner node. The proof is taken from the root
down: its last step is made at the root, or the tree is a leaf. -/
theorem mem_leaves_of_climb_eq_root {tree : HashTree B} {proof : List H} {data : List B}
    (hfree : Set.InjOn hash
      {x | x ∈ tree.inputs E hash ∨ x = data ∨ x ∈ climbInputs E hash proof (hash data)})
    (hdata : data.length ≠ 2 * E.length)
    (hleaves : ∀ leaf ∈ tree.leaves, leaf.length ≠ 2 * E.length)
    (hroot : climb E hash proof (hash data) = tree.root E hash) : data ∈ tree.leaves := by
  induction proof using List.reverseRecOn generalizing tree with
  | nil =>
    cases tree with
    | leaf found =>
      obtain rfl := hfree (.inr (.inl rfl)) (.inl (by simp [HashTree.inputs])) hroot
      exact List.mem_singleton_self data
    | node left right =>
      have heq := hfree (.inr (.inl rfl)) (.inl (by simp [HashTree.inputs])) hroot
      exact absurd (heq ▸ length_nodeInput (E := E) _ _) hdata
  | append_singleton proof sibling ih =>
    rw [climb_concat] at hroot
    rw [climbInputs_concat] at hfree
    have hlast : nodeInput E (climb E hash proof (hash data)) sibling ∈
        climbInputs E hash proof (hash data) ++
          [nodeInput E (climb E hash proof (hash data)) sibling] := by
      simp
    cases tree with
    | leaf found =>
      have heq := hfree (.inr (.inr hlast)) (.inl (by simp [HashTree.inputs])) hroot
      exact absurd (heq ▸ length_nodeInput (E := E) _ _) (hleaves found (by simp [HashTree.leaves]))
    | node left right =>
      have heq := hfree (.inr (.inr hlast)) (.inl (by simp [HashTree.inputs])) hroot
      have hbelow : ∀ subtree : HashTree B, subtree = left ∨ subtree = right →
          climb E hash proof (hash data) = subtree.root E hash → data ∈ subtree.leaves := by
        intro subtree hsubtree hclimb
        refine ih (hfree.mono ?_) ?_ hclimb
        · rintro x (hx | hx | hx)
          · left
            rcases hsubtree with rfl | rfl
            · exact List.mem_cons_of_mem _ (List.mem_append_left _ hx)
            · exact List.mem_cons_of_mem _ (List.mem_append_right _ hx)
          · exact .inr (.inl hx)
          · exact .inr (.inr (List.mem_append_left _ hx))
        · intro leaf hleaf
          apply hleaves leaf
          rcases hsubtree with rfl | rfl
          · exact List.mem_append_left _ hleaf
          · exact List.mem_append_right _ hleaf
      rcases eq_or_eq_of_nodeInput_eq heq with hleft | hright
      · exact List.mem_append_left _ (hbelow left (.inl rfl) hleft)
      · exact List.mem_append_right _ (hbelow right (.inr rfl) hright)

/-- The big-endian bytes of a bit vector. -/
def Encoding.bigEndian (k : ℕ) : Encoding UInt8 (BitVec (8 * k)) where
  encode h := BigEndian.bytes k h.toNat
  length := k
  length_encode h := BigEndian.length_bytes k h.toNat
  injective := BigEndian.bytes_toNat_injective k

end MerkleTree

/-! Trees that are built layer by layer from a list of leaves, where neighbours are joined, and
what becomes of the last element of an odd layer is a parameter. -/
namespace MerkleTree.Layers

variable {α β : Type*}

/-- One layer from the layer below. -/
def pairUp (node : α → α → α) (odd : α → α) : List α → List α
  | [] => []
  | [a] => [odd a]
  | a :: b :: rest => node a b :: pairUp node odd rest

/-- At most `rounds` layers, until one element is left. -/
def collapse (node : α → α → α) (odd : α → α) : ℕ → List α → List α
  | 0, layer => layer
  | rounds + 1, layer =>
      if layer.length ≤ 1 then layer else collapse node odd rounds (pairUp node odd layer)

variable {node : α → α → α} {odd : α → α} {rounds : ℕ} {layer : List α}

theorem length_pairUp (layer : List α) :
    (pairUp node odd layer).length = (layer.length + 1) / 2 := by
  induction layer using pairUp.induct with
  | case1 => simp [pairUp]
  | case2 a => simp [pairUp]
  | case3 a b rest ih =>
    simp only [pairUp, List.length_cons, ih]
    omega

/-- What respects the joining of neighbours respects the layers. -/
theorem map_pairUp {node' : β → β → β} {odd' : β → β} {f : α → β}
    (hnode : ∀ a b, f (node a b) = node' (f a) (f b)) (hodd : ∀ a, f (odd a) = odd' (f a))
    (layer : List α) : (pairUp node odd layer).map f = pairUp node' odd' (layer.map f) := by
  induction layer using pairUp.induct with
  | case1 => rfl
  | case2 a => simp only [pairUp, List.map_cons, List.map_nil, hodd]
  | case3 a b rest ih => simp only [pairUp, List.map_cons, hnode, ih]

theorem map_collapse {node' : β → β → β} {odd' : β → β} {f : α → β}
    (hnode : ∀ a b, f (node a b) = node' (f a) (f b)) (hodd : ∀ a, f (odd a) = odd' (f a))
    (rounds : ℕ) (layer : List α) :
    (collapse node odd rounds layer).map f = collapse node' odd' rounds (layer.map f) := by
  induction rounds generalizing layer with
  | zero => rfl
  | succ rounds ih =>
    simp only [collapse, List.length_map]
    split_ifs
    · rfl
    · rw [ih, map_pairUp hnode hodd]

theorem pairUp_rule {P Q : α → Prop} (hnode : ∀ a b, P a → P b → Q (node a b))
    (hodd : ∀ a, P a → Q (odd a)) (layer : List α) (h : ∀ a ∈ layer, P a) :
    ∀ a ∈ pairUp node odd layer, Q a := by
  induction layer using pairUp.induct with
  | case1 => simp [pairUp]
  | case2 a => simpa [pairUp] using hodd a (h a (by simp))
  | case3 a b rest ih =>
    rw [pairUp, List.forall_mem_cons]
    exact ⟨hnode a b (h a (by simp)) (h b (by simp)),
      ih fun x hx => h x (List.mem_cons_of_mem _ (List.mem_cons_of_mem _ hx))⟩

/-- What every layer passes on to the next one, at its height, is true of the element that is
left, at the height of the whole tree. -/
theorem collapse_rule {P : ℕ → α → Prop} (hnode : ∀ k a b, P k a → P k b → P (k + 1) (node a b))
    (hodd : ∀ k a, P k a → P (k + 1) (odd a)) (k : ℕ) (hlayer : layer ≠ [])
    (hrounds : layer.length ≤ rounds + 1) (h : ∀ a ∈ layer, P k a) :
    ∃ a, collapse node odd rounds layer = [a] ∧ P (k + Nat.clog 2 layer.length) a := by
  have hpos := List.length_pos_iff.mpr hlayer
  induction rounds generalizing k layer with
  | zero =>
    obtain ⟨a, rfl⟩ := List.length_eq_one_iff.mp (show layer.length = 1 by omega)
    exact ⟨a, rfl, by simpa using h a (by simp)⟩
  | succ rounds ih =>
    by_cases hone : layer.length ≤ 1
    · obtain ⟨a, rfl⟩ := List.length_eq_one_iff.mp (show layer.length = 1 by omega)
      exact ⟨a, rfl, by simpa using h a (by simp)⟩
    · have hlength : (pairUp node odd layer).length = (layer.length + 1) / 2 := length_pairUp layer
      have hnext : 0 < (pairUp node odd layer).length := by omega
      obtain ⟨a, ha, hp⟩ := ih (k + 1) (List.length_pos_iff.mp hnext) (by omega)
        (pairUp_rule (hnode k) (hodd k) layer h) hnext
      refine ⟨a, by rw [collapse, if_neg hone, ha], ?_⟩
      have hclog : Nat.clog 2 layer.length = Nat.clog 2 ((layer.length + 1) / 2) + 1 :=
        Nat.clog_of_two_le one_lt_two (by omega)
      rw [hlength] at hp
      rwa [hclog, show k + (Nat.clog 2 ((layer.length + 1) / 2) + 1) =
        k + 1 + Nat.clog 2 ((layer.length + 1) / 2) by omega]

theorem head_pairUp {P : α → Prop} (hnode : ∀ a b, P a → P (node a b))
    (hodd : ∀ a, P a → P (odd a)) (h : ∀ a ∈ layer.head?, P a) :
    ∀ a ∈ (pairUp node odd layer).head?, P a := by
  cases layer with
  | nil => simp [pairUp]
  | cons a rest =>
    have ha : P a := h a (by simp)
    cases rest with
    | nil => simpa [pairUp] using hodd a ha
    | cons b rest => simpa [pairUp] using hnode a b ha

/-- What the first element of a layer passes on to that of the next one. -/
theorem head_collapse {P : α → Prop} (hnode : ∀ a b, P a → P (node a b))
    (hodd : ∀ a, P a → P (odd a)) (h : ∀ a ∈ layer.head?, P a) :
    ∀ a ∈ (collapse node odd rounds layer).head?, P a := by
  induction rounds generalizing layer with
  | zero => exact h
  | succ rounds ih =>
    rw [collapse]
    split_ifs
    · exact h
    · exact ih (head_pairUp hnode hodd h)

/-- The element that is left of several is joined from two. -/
theorem collapse_eq_node (htwo : 2 ≤ layer.length) (hrounds : layer.length ≤ rounds + 1) :
    ∃ a b, collapse node odd rounds layer = [node a b] := by
  induction rounds generalizing layer with
  | zero => omega
  | succ rounds ih =>
    rw [collapse, if_neg (by omega)]
    have hlength : (pairUp node odd layer).length = (layer.length + 1) / 2 := length_pairUp layer
    by_cases hthree : 3 ≤ layer.length
    · exact ih (by omega) (by omega)
    · obtain ⟨a, b, rfl⟩ := List.length_eq_two.mp (show layer.length = 2 by omega)
      refine ⟨a, b, ?_⟩
      cases rounds with
      | zero => rfl
      | succ rounds => rfl

end MerkleTree.Layers

/-! Trees over digests, whose nodes hash the digests of their children from left to right. -/
namespace MerkleTree

variable {B H : Type*} (E : Encoding B H) (hash : List B → H)

/-- A tree with digests at its leaves. -/
inductive DigestTree (H : Type*) where
  | leaf (digest : H)
  | node (left right : DigestTree H)
  deriving DecidableEq

/-- The digest of a node. -/
def join (a b : H) : H := hash (E.encode a ++ E.encode b)

namespace DigestTree

def root : DigestTree H → H
  | leaf digest => digest
  | node left right => join E hash (root left) (root right)

/-- What is hashed to build the tree. -/
def inputs : DigestTree H → List (List B)
  | leaf _ => []
  | node left right =>
      (E.encode (root E hash left) ++ E.encode (root E hash right)) ::
        (inputs left ++ inputs right)

/-- The digests of its nodes, without the leaves. -/
def digests : DigestTree H → List H
  | leaf _ => []
  | node left right => root E hash (node left right) :: (digests left ++ digests right)

def leftmost : DigestTree H → H
  | leaf digest => digest
  | node left _ => leftmost left

/-- All leaves are at depth `k`. -/
def Perfect : ℕ → DigestTree H → Prop
  | 0, leaf _ => True
  | k + 1, node left right => Perfect k left ∧ Perfect k right
  | _, _ => False

variable {E hash} {s t : DigestTree H}

theorem join_inj {a b c d : H} (hfree : hash (E.encode a ++ E.encode b) =
      hash (E.encode c ++ E.encode d) → E.encode a ++ E.encode b = E.encode c ++ E.encode d)
    (h : join E hash a b = join E hash c d) : a = c ∧ b = d := by
  obtain ⟨hleft, hright⟩ := List.append_inj (hfree h) (by rw [E.length_encode, E.length_encode])
  exact ⟨E.injective hleft, E.injective hright⟩

/-- The root tells the trees of a depth apart, as long as nothing that is hashed collides. -/
theorem eq_of_root_eq {k : ℕ} (hs : s.Perfect k) (ht : t.Perfect k)
    (hfree : Set.InjOn hash {x | x ∈ s.inputs E hash ∨ x ∈ t.inputs E hash})
    (h : s.root E hash = t.root E hash) : s = t := by
  induction k generalizing s t with
  | zero =>
    cases s with
    | node left right => exact hs.elim
    | leaf digest =>
      cases t with
      | node left right => exact ht.elim
      | leaf digest' => exact congrArg leaf h
  | succ k ih =>
    cases s with
    | leaf digest => exact hs.elim
    | node left right =>
      cases t with
      | leaf digest => exact ht.elim
      | node left' right' =>
        obtain ⟨hleft, hright⟩ := join_inj (fun heq => hfree (.inl (by simp [inputs]))
          (.inr (by simp [inputs])) heq) h
        have hsameLeft : left = left' := by
          refine ih hs.1 ht.1 (hfree.mono ?_) hleft
          rintro x (hx | hx)
          · exact .inl (List.mem_cons_of_mem _ (List.mem_append_left _ hx))
          · exact .inr (List.mem_cons_of_mem _ (List.mem_append_left _ hx))
        have hsameRight : right = right' := by
          refine ih hs.2 ht.2 (hfree.mono ?_) hright
          rintro x (hx | hx)
          · exact .inl (List.mem_cons_of_mem _ (List.mem_append_right _ hx))
          · exact .inr (List.mem_cons_of_mem _ (List.mem_append_right _ hx))
        rw [hsameLeft, hsameRight]

/-- A deeper tree with the same root has the first leaf of the other one for a digest. -/
theorem leftmost_mem_digests {k j : ℕ} (hs : s.Perfect k) (ht : t.Perfect (k + j + 1))
    (hfree : Set.InjOn hash {x | x ∈ s.inputs E hash ∨ x ∈ t.inputs E hash})
    (h : s.root E hash = t.root E hash) : s.leftmost ∈ t.digests E hash := by
  induction k generalizing s t with
  | zero =>
    cases s with
    | node left right => exact hs.elim
    | leaf digest =>
      cases t with
      | leaf digest' => exact ht.elim
      | node left right =>
        rw [show (leaf digest).leftmost = digest from rfl, show digest = _ from h]
        exact List.mem_cons_self
  | succ k ih =>
    cases s with
    | leaf digest => exact hs.elim
    | node left right =>
      cases t with
      | leaf digest => exact absurd ht (by simp [Perfect])
      | node left' right' =>
        rw [show k + 1 + j + 1 = k + j + 1 + 1 by omega] at ht
        obtain ⟨hleft, -⟩ := join_inj (fun heq => hfree (.inl (by simp [inputs]))
          (.inr (by simp [inputs])) heq) h
        have hbelow : left.leftmost ∈ left'.digests E hash := by
          refine ih hs.1 ht.1 (hfree.mono ?_) hleft
          rintro x (hx | hx)
          · exact .inl (List.mem_cons_of_mem _ (List.mem_append_left _ hx))
          · exact .inr (List.mem_cons_of_mem _ (List.mem_append_left _ hx))
        exact List.mem_cons_of_mem _ (List.mem_append_left _ hbelow)

end DigestTree

end MerkleTree
