import Mathlib

/-! Forests given by parent pointers: chains that climb to an end, what setting or removing
one pointer does to them, and weights that are summed over everything below a node. -/
namespace Forest

variable {α : Type*} {parent : α → Option α} {u x y z e e' : α} {m n : ℕ}

/-- The node that `n` hops lead to, if the chain is that long. -/
def climb (parent : α → Option α) : ℕ → α → Option α
  | 0, x => some x
  | n + 1, x => (parent x).bind (climb parent n)

@[simp] theorem climb_zero (parent : α → Option α) (x : α) : climb parent 0 x = some x := rfl

theorem climb_succ_of_some (h : parent x = some y) :
    climb parent (n + 1) x = climb parent n y := by
  simp [climb, h]

theorem climb_succ_of_none (h : parent x = none) : climb parent (n + 1) x = none := by
  simp [climb, h]

theorem climb_add (parent : α → Option α) (m n : ℕ) (x : α) :
    climb parent (m + n) x = (climb parent m x).bind (climb parent n) := by
  induction m generalizing x with
  | zero => simp
  | succ m ih =>
    rw [Nat.succ_add]
    cases hx : parent x with
    | none => simp [climb_succ_of_none hx]
    | some y => rw [climb_succ_of_some hx, climb_succ_of_some hx, ih]

theorem climb_succ_eq_some_iff :
    climb parent (n + 1) x = some z ↔ ∃ y, climb parent n x = some y ∧ parent y = some z := by
  rw [climb_add]
  cases hx : climb parent n x with
  | none => simp
  | some y => cases hy : parent y <;> simp [climb, hy]

/-- The chain of `x` passes through `z`. -/
def Below (parent : α → Option α) (x z : α) : Prop := ∃ n, climb parent n x = some z

/-- The chain of `x` ends in `e` after `n` hops. -/
def EndsAfter (parent : α → Option α) (n : ℕ) (x e : α) : Prop :=
  climb parent n x = some e ∧ parent e = none

def EndsIn (parent : α → Option α) (x e : α) : Prop := Below parent x e ∧ parent e = none

/-- Every chain has an end. -/
def Grounded (parent : α → Option α) : Prop := ∀ x, ∃ e, EndsIn parent x e

theorem Below.refl (parent : α → Option α) (x : α) : Below parent x x := ⟨0, rfl⟩

theorem Below.of_parent (h : parent x = some y) (hy : Below parent y z) : Below parent x z := by
  obtain ⟨n, hn⟩ := hy
  exact ⟨n + 1, by rw [climb_succ_of_some h, hn]⟩

theorem Below.trans (hxy : Below parent x y) (hyz : Below parent y z) : Below parent x z := by
  obtain ⟨m, hm⟩ := hxy
  obtain ⟨n, hn⟩ := hyz
  exact ⟨m + n, by rw [climb_add, hm, Option.bind_some, hn]⟩

/-- An end has only itself above it. -/
theorem Below.eq_of_end (h : Below parent x z) (hx : parent x = none) : z = x := by
  obtain ⟨n, hn⟩ := h
  cases n with
  | zero => exact (Option.some.inj hn).symm
  | succ n =>
    rw [climb_succ_of_none hx] at hn
    cases hn

theorem below_iff_of_parent (h : parent x = some y) :
    Below parent x z ↔ z = x ∨ Below parent y z := by
  constructor
  · intro hbelow
    obtain ⟨n, hn⟩ := hbelow
    cases n with
    | zero => exact .inl (Option.some.inj hn).symm
    | succ n =>
      rw [climb_succ_of_some h] at hn
      exact .inr ⟨n, hn⟩
  · intro hbelow
    rcases hbelow with heq | hbelow
    · rw [heq]
      exact Below.refl parent x
    · exact hbelow.of_parent h

/-- The nodes of one chain are ordered. -/
theorem Below.total (hy : Below parent x y) (hz : Below parent x z) :
    Below parent y z ∨ Below parent z y := by
  obtain ⟨m, hm⟩ := hy
  obtain ⟨n, hn⟩ := hz
  rcases Nat.le_total m n with hle | hle
  · obtain ⟨k, rfl⟩ := Nat.exists_eq_add_of_le hle
    rw [climb_add, hm, Option.bind_some] at hn
    exact .inl ⟨k, hn⟩
  · obtain ⟨k, rfl⟩ := Nat.exists_eq_add_of_le hle
    rw [climb_add, hn, Option.bind_some] at hm
    exact .inr ⟨k, hm⟩

theorem EndsAfter.endsIn (h : EndsAfter parent n x e) : EndsIn parent x e := ⟨⟨n, h.1⟩, h.2⟩

/-- A chain that has more to go has a first hop. -/
theorem EndsAfter.of_succ (h : EndsAfter parent (n + 1) x e) :
    ∃ y, parent x = some y ∧ EndsAfter parent n y e := by
  cases hx : parent x with
  | none =>
    have hnone := h.1
    rw [climb_succ_of_none hx] at hnone
    cases hnone
  | some y => exact ⟨y, rfl, by rw [← climb_succ_of_some hx]; exact h.1, h.2⟩

theorem EndsIn.unique (h : EndsIn parent x e) (h' : EndsIn parent x e') : e = e' := by
  rcases h.1.total h'.1 with habove | habove
  · exact (habove.eq_of_end h.2).symm
  · exact habove.eq_of_end h'.2

theorem EndsIn.below_iff (h : EndsIn parent x e) (hz : parent z = none) :
    Below parent x z ↔ z = e := by
  constructor
  · intro hbelow
    exact EndsIn.unique ⟨hbelow, hz⟩ h
  · intro heq
    rw [heq]
    exact h.1

theorem EndsAfter.unique (h : EndsAfter parent m x e) (h' : EndsAfter parent n x e') :
    m = n ∧ e = e' := by
  induction m generalizing n x with
  | zero =>
    obtain rfl := Option.some.inj h.1
    cases n with
    | zero => exact ⟨rfl, Option.some.inj h'.1⟩
    | succ n =>
      obtain ⟨y, hy, -⟩ := h'.of_succ
      rw [h.2] at hy
      cases hy
  | succ m ih =>
    obtain ⟨y, hy, hm⟩ := h.of_succ
    cases n with
    | zero =>
      have hend := h'.2
      rw [← Option.some.inj h'.1, hy] at hend
      cases hend
    | succ n =>
      obtain ⟨z, hz, hn⟩ := h'.of_succ
      obtain rfl := Option.some.inj (hy.symm.trans hz)
      obtain ⟨hmn, he⟩ := ih hm hn
      exact ⟨congrArg Nat.succ hmn, he⟩

/-- Where every chain has an end, no chain comes back to its start. -/
theorem Grounded.climb_succ_ne (h : Grounded parent) (n : ℕ) (x : α) :
    climb parent (n + 1) x ≠ some x := by
  intro hcycle
  obtain ⟨e, ⟨m, hm⟩, hend⟩ := h x
  have hround : ∀ k, climb parent ((n + 1) * k) x = some x := by
    intro k
    induction k with
    | zero => rfl
    | succ k ih => rw [Nat.mul_succ, climb_add, ih, Option.bind_some, hcycle]
  have hlong : (n + 1) * (m + 1) = m + ((n + 1) * (m + 1) - m) := by
    have hle : m + 1 ≤ (n + 1) * (m + 1) := Nat.le_mul_of_pos_left (m + 1) n.succ_pos
    omega
  have hpast := hround (m + 1)
  rw [hlong, climb_add, hm, Option.bind_some] at hpast
  have hmore : ∃ k, (n + 1) * (m + 1) - m = k + 1 := by
    have hle : m + 1 ≤ (n + 1) * (m + 1) := Nat.le_mul_of_pos_left (m + 1) n.succ_pos
    exact ⟨(n + 1) * (m + 1) - m - 1, by omega⟩
  obtain ⟨k, hk⟩ := hmore
  rw [hk, climb_succ_of_none hend] at hpast
  cases hpast

/-- Nor does it pass through a node twice. -/
theorem Grounded.climb_inj (h : Grounded parent) (hm : climb parent m x = some z)
    (hn : climb parent n x = some z) : m = n := by
  have hnotlt : ∀ {k l : ℕ}, climb parent k x = some z → climb parent l x = some z → ¬ k < l := by
    intro k l hk hl hlt
    obtain ⟨d, rfl⟩ := Nat.exists_eq_add_of_lt hlt
    rw [Nat.add_assoc, climb_add, hk, Option.bind_some] at hl
    exact h.climb_succ_ne d z hl
  exact le_antisymm (not_lt.mp (hnotlt hn hm)) (not_lt.mp (hnotlt hm hn))

/-- The parent of a node is never below it. -/
theorem Grounded.not_below_of_parent (h : Grounded parent) (hx : parent x = some y) :
    ¬ Below parent y x := by
  intro hbelow
  obtain ⟨n, hn⟩ := hbelow
  exact h.climb_succ_ne n x (by rw [climb_succ_of_some hx, hn])

section Relink

variable [DecidableEq α]

/-- A pointer set at an end `x` adds what is above its target to the chains through `x`. -/
theorem below_link_iff (hend : parent x = none) (hfree : ¬ Below parent y x) :
    Below (Function.update parent x (some y)) u z ↔
      Below parent u z ∨ Below parent u x ∧ Below parent y z := by
  have hself : Function.update parent x (some y) x = some y := Function.update_self ..
  constructor
  · intro h
    obtain ⟨n, hn⟩ := h
    induction n generalizing u with
    | zero => exact .inl ⟨0, hn⟩
    | succ n ih =>
      by_cases hu : u = x
      · subst hu
        rw [climb_succ_of_some hself] at hn
        rcases ih hn with hy | ⟨hy, -⟩
        · exact .inr ⟨Below.refl parent u, hy⟩
        · exact absurd hy hfree
      · cases hp : parent u with
        | none =>
          rw [climb_succ_of_none (by rw [Function.update_of_ne hu, hp])] at hn
          cases hn
        | some v =>
          rw [climb_succ_of_some (by rw [Function.update_of_ne hu, hp])] at hn
          rcases ih hn with hv | ⟨hv, hy⟩
          · exact .inl (hv.of_parent hp)
          · exact .inr ⟨hv.of_parent hp, hy⟩
  · have hkept : ∀ {v w : α}, Below parent v w →
        Below (Function.update parent x (some y)) v w := by
      intro v w h
      obtain ⟨n, hn⟩ := h
      induction n generalizing v with
      | zero => exact ⟨0, hn⟩
      | succ n ih =>
        cases hp : parent v with
        | none =>
          rw [climb_succ_of_none hp] at hn
          cases hn
        | some p =>
          have hv : v ≠ x := by
            intro heq
            rw [heq, hend] at hp
            cases hp
          rw [climb_succ_of_some hp] at hn
          exact Below.of_parent (by rw [Function.update_of_ne hv, hp]) (ih hn)
    intro h
    rcases h with h | ⟨hux, hyz⟩
    · exact hkept h
    · exact (hkept hux).trans (Below.of_parent hself (hkept hyz))

/-- A pointer only matters to the chains that pass through it. -/
theorem climb_update_of_not_below (hfree : ¬ Below parent y x) (p : Option α) (n : ℕ) :
    climb (Function.update parent x p) n y = climb parent n y := by
  induction n generalizing y with
  | zero => rfl
  | succ n ih =>
    have hne : y ≠ x := by
      intro heq
      rw [heq] at hfree
      exact hfree (Below.refl parent x)
    cases hy : parent y with
    | none =>
      rw [climb_succ_of_none hy, climb_succ_of_none (by rw [Function.update_of_ne hne, hy])]
    | some z =>
      rw [climb_succ_of_some hy, climb_succ_of_some (by rw [Function.update_of_ne hne, hy])]
      apply ih
      intro hbelow
      exact hfree (hbelow.of_parent hy)

theorem below_update_of_not_below (hfree : ¬ Below parent y x) (p : Option α) :
    Below (Function.update parent x p) y z ↔ Below parent y z := by
  unfold Below
  simp only [climb_update_of_not_below hfree]

theorem EndsAfter.update_of_not_below (h : EndsAfter parent n y e) (hfree : ¬ Below parent y x)
    (p : Option α) : EndsAfter (Function.update parent x p) n y e := by
  have hne : e ≠ x := by
    intro heq
    rw [← heq] at hfree
    exact hfree ⟨n, h.1⟩
  constructor
  · rw [climb_update_of_not_below hfree, h.1]
  · rw [Function.update_of_ne hne, h.2]

/-- A pointer is what it is after it was removed and set again. -/
theorem link_unlink (h : parent x = some y) :
    Function.update (Function.update parent x none) x (some y) = parent := by
  rw [Function.update_idem, ← h, Function.update_eq_self]

/-- A removed pointer leaves only chains that were there. -/
theorem Below.of_unlink (h : Below (Function.update parent x none) u z) : Below parent u z := by
  obtain ⟨n, hn⟩ := h
  induction n generalizing u with
  | zero => exact ⟨0, hn⟩
  | succ n ih =>
    cases hp : Function.update parent x none u with
    | none =>
      rw [climb_succ_of_none hp] at hn
      cases hn
    | some v =>
      rw [climb_succ_of_some hp] at hn
      have hu : u ≠ x := by
        intro heq
        rw [heq, Function.update_self] at hp
        cases hp
      rw [Function.update_of_ne hu] at hp
      exact (ih hn).of_parent hp

theorem Grounded.link (h : Grounded parent) (hend : parent x = none)
    (hfree : ¬ Below parent y x) : Grounded (Function.update parent x (some y)) := by
  intro u
  obtain ⟨e, hue, he⟩ := h u
  by_cases hex : e = x
  · subst hex
    obtain ⟨f, hyf, hf⟩ := h y
    have hne : f ≠ e := by
      intro heq
      rw [heq] at hyf
      exact hfree hyf
    refine ⟨f, (below_link_iff hend hfree).mpr (.inr ⟨hue, hyf⟩), ?_⟩
    rw [Function.update_of_ne hne, hf]
  · refine ⟨e, (below_link_iff hend hfree).mpr (.inl hue), ?_⟩
    rw [Function.update_of_ne hex, he]

theorem Grounded.unlink (h : Grounded parent) (x : α) :
    Grounded (Function.update parent x none) := by
  have hclimb : ∀ n u e, climb parent n u = some e → parent e = none →
      ∃ f, EndsIn (Function.update parent x none) u f := by
    intro n
    induction n with
    | zero =>
      intro u e hn he
      obtain rfl := Option.some.inj hn
      refine ⟨u, Below.refl _ u, ?_⟩
      by_cases hu : u = x
      · rw [hu, Function.update_self]
      · rw [Function.update_of_ne hu, he]
    | succ n ih =>
      intro u e hn he
      by_cases hu : u = x
      · exact ⟨u, Below.refl _ u, by rw [hu, Function.update_self]⟩
      · cases hp : parent u with
        | none =>
          rw [climb_succ_of_none hp] at hn
          cases hn
        | some v =>
          rw [climb_succ_of_some hp] at hn
          obtain ⟨f, hf, hend⟩ := ih v e hn he
          exact ⟨f, hf.of_parent (by rw [Function.update_of_ne hu, hp]), hend⟩
  intro u
  obtain ⟨e, ⟨n, hn⟩, he⟩ := h u
  exact hclimb n u e hn he

end Relink

section Sums

variable {w : α → ℤ}

/-- What everything below `z` weighs, itself included. -/
noncomputable def subtreeSum (parent : α → Option α) (w : α → ℤ) (z : α) : ℤ :=
  ∑ᶠ u ∈ {u | Below parent u z}, w u

/-- What the other chains that end in `e` weigh together. -/
noncomputable def followerSum (parent : α → Option α) (w : α → ℤ) (e : α) : ℤ :=
  ∑ᶠ u ∈ {u | u ≠ e ∧ Below parent u e}, w u

theorem subtreeSum_eq_add (hw : (Function.support w).Finite) (z : α) :
    subtreeSum parent w z = w z + followerSum parent w z := by
  have hsplit : {u | Below parent u z} = insert z {u | u ≠ z ∧ Below parent u z} := by
    ext u
    by_cases hu : u = z
    · simp [hu, Below.refl]
    · simp [hu]
  unfold subtreeSum followerSum
  rw [hsplit]
  apply finsum_mem_insert'
  · simp
  · exact hw.subset Set.inter_subset_right

theorem followerSum_eq_sub (hw : (Function.support w).Finite) (z : α) :
    followerSum parent w z = subtreeSum parent w z - w z := by
  rw [subtreeSum_eq_add hw]
  ring

/-- Where nothing points anywhere nobody follows. -/
theorem followerSum_of_ends (h : ∀ u, parent u = none) (z : α) : followerSum parent w z = 0 := by
  have hnone : {u | u ≠ z ∧ Below parent u z} = ∅ := by
    ext u
    simp only [Set.mem_ofPred_eq, Set.mem_empty_iff_false, iff_false, not_and]
    intro hne hbelow
    exact hne (hbelow.eq_of_end (h u)).symm
  rw [followerSum, hnone, finsum_mem_empty]

variable [DecidableEq α]

/-- A pointer set at an end moves the weight below it to everything above the target. -/
theorem subtreeSum_link (hw : (Function.support w).Finite) (hend : parent x = none)
    (hfree : ¬ Below parent y x) (z : α) [Decidable (Below parent y z)] :
    subtreeSum (Function.update parent x (some y)) w z =
      subtreeSum parent w z + if Below parent y z then subtreeSum parent w x else 0 := by
  unfold subtreeSum
  by_cases hyz : Below parent y z
  · have hunion : {u | Below (Function.update parent x (some y)) u z} =
        {u | Below parent u z} ∪ {u | Below parent u x} := by
      ext u
      simp [below_link_iff hend hfree, hyz]
    have hdisjoint : Disjoint {u | Below parent u z} {u | Below parent u x} := by
      rw [Set.disjoint_left]
      intro u hz hx
      rcases Below.total hz hx with hzx | hxz
      · exact hfree (hyz.trans hzx)
      · rw [hxz.eq_of_end hend] at hyz
        exact hfree hyz
    rw [if_pos hyz, hunion]
    apply finsum_mem_union' hdisjoint
    · exact hw.subset Set.inter_subset_right
    · exact hw.subset Set.inter_subset_right
  · have hsame : {u | Below (Function.update parent x (some y)) u z} =
        {u | Below parent u z} := by
      ext u
      simp [below_link_iff hend hfree, hyz]
    rw [if_neg hyz, hsame, add_zero]

/-- What is below an end before a pointer is set there is below it afterwards. -/
theorem subtreeSum_link_self (hend : parent x = none) (hfree : ¬ Below parent y x) :
    subtreeSum (Function.update parent x (some y)) w x = subtreeSum parent w x := by
  unfold subtreeSum
  simp only [below_link_iff hend hfree, hfree, and_false, or_false]

theorem followerSum_link (hw : (Function.support w).Finite) (hend : parent x = none)
    (hfree : ¬ Below parent y x) (z : α) [Decidable (Below parent y z)] :
    followerSum (Function.update parent x (some y)) w z =
      followerSum parent w z + if Below parent y z then subtreeSum parent w x else 0 := by
  rw [followerSum_eq_sub hw, followerSum_eq_sub hw, subtreeSum_link hw hend hfree]
  ring

theorem subtreeSum_unlink_self (h : Grounded parent) (x : α) :
    subtreeSum (Function.update parent x none) w x = subtreeSum parent w x := by
  cases hx : parent x with
  | none => rw [← hx, Function.update_eq_self]
  | some y =>
    have hfree : ¬ Below (Function.update parent x none) y x := by
      intro hbelow
      exact h.not_below_of_parent hx hbelow.of_unlink
    rw [← subtreeSum_link_self (Function.update_self ..) hfree, link_unlink hx]

/-- A removed pointer takes the weight below it from everything above. -/
theorem followerSum_unlink (hw : (Function.support w).Finite) (h : Grounded parent)
    (hx : parent x = some y) (z : α) [Decidable (Below parent y z)] :
    followerSum (Function.update parent x none) w z =
      followerSum parent w z - if Below parent y z then subtreeSum parent w x else 0 := by
  have hfree := h.not_below_of_parent hx
  have hsame := fun z => below_update_of_not_below (z := z) hfree none
  have hdecidable := decidable_of_iff _ (hsame z).symm
  have hlink := followerSum_link hw (Function.update_self x none parent)
    (mt (hsame x).mp hfree) z
  rw [link_unlink hx, subtreeSum_unlink_self h x] at hlink
  rw [hlink]
  simp only [hsame]
  ring

theorem support_update_subset {v : ℤ} :
    Function.support (Function.update w x v) ⊆ Function.support w ∪ {x} := by
  intro u hu
  by_cases hux : u = x
  · exact .inr hux
  · rw [Function.mem_support, Function.update_of_ne hux] at hu
    exact .inl hu

/-- Rewriting one weight moves the sums of what is above. -/
theorem subtreeSum_update (hw : (Function.support w).Finite) (v : ℤ) (z : α)
    [Decidable (Below parent x z)] :
    subtreeSum parent (Function.update w x v) z =
      subtreeSum parent w z + if Below parent x z then v - w x else 0 := by
  have hv : (Function.support (Function.update w x v)).Finite :=
    (hw.union (Set.finite_singleton x)).subset support_update_subset
  unfold subtreeSum
  by_cases hx : Below parent x z
  · have hsplit : {u | Below parent u z} = insert x ({u | Below parent u z} \ {x}) := by
      rw [Set.insert_sdiff_singleton, Set.insert_eq_of_mem]
      exact hx
    have hrest : ∑ᶠ u ∈ {u | Below parent u z} \ {x}, Function.update w x v u =
        ∑ᶠ u ∈ {u | Below parent u z} \ {x}, w u := by
      apply finsum_mem_congr rfl
      intro u hu
      exact Function.update_of_ne hu.2 v w
    rw [if_pos hx, hsplit, finsum_mem_insert' _ (by simp) (hv.subset Set.inter_subset_right),
      finsum_mem_insert' _ (by simp) (hw.subset Set.inter_subset_right), hrest,
      Function.update_self]
    ring
  · rw [if_neg hx, add_zero]
    apply finsum_mem_congr rfl
    intro u hu
    apply Function.update_of_ne
    intro heq
    rw [heq] at hu
    exact hx hu

/-- Rewriting the weight of a node moves what follows the nodes above it. -/
theorem followerSum_update (hw : (Function.support w).Finite) (v : ℤ) (z : α)
    [Decidable (Below parent x z)] [Decidable (z = x)] :
    followerSum parent (Function.update w x v) z = followerSum parent w z +
      if z = x then 0 else if Below parent x z then v - w x else 0 := by
  have hv : (Function.support (Function.update w x v)).Finite :=
    (hw.union (Set.finite_singleton x)).subset support_update_subset
  rw [followerSum_eq_sub hv, followerSum_eq_sub hw, subtreeSum_update hw]
  by_cases hz : z = x
  · subst hz
    rw [if_pos (Below.refl parent z), if_pos rfl, Function.update_self]
    ring
  · rw [if_neg hz, Function.update_of_ne hz]
    ring

end Sums

section Levels

variable [DecidableEq α] {w : α → ℤ}

/-- What the nodes weigh from which `n` hops lead to `z`. -/
noncomputable def levelSum (parent : α → Option α) (w : α → ℤ) (n : ℕ) (z : α) : ℤ :=
  ∑ᶠ u, if climb parent n u = some z then w u else 0

theorem levelSum_eq_sum (hw : (Function.support w).Finite) (n : ℕ) (z : α) :
    levelSum parent w n z =
      ∑ u ∈ hw.toFinset, if climb parent n u = some z then w u else 0 := by
  apply finsum_eq_sum_of_support_subset
  intro u hu
  rw [Function.mem_support] at hu
  have hne : w u ≠ 0 := by
    intro hzero
    rw [hzero, ite_self] at hu
    exact hu rfl
  simpa using hne

theorem levelSum_nonneg (hnonneg : ∀ u, 0 ≤ w u) (n : ℕ) (z : α) :
    0 ≤ levelSum parent w n z := by
  apply finsum_nonneg
  intro u
  split_ifs
  · exact hnonneg u
  · exact le_rfl

@[simp] theorem levelSum_zero (w : α → ℤ) (z : α) : levelSum parent w 0 z = w z := by
  unfold levelSum
  rw [finsum_eq_single _ z]
  · simp
  · intro u hu
    simp [hu]

/-- One level further down, child by child. -/
theorem levelSum_succ (hw : (Function.support w).Finite) {children : List α}
    (hnodup : children.Nodup) (hmem : ∀ c, c ∈ children ↔ parent c = some z) (n : ℕ) :
    levelSum parent w (n + 1) z = (children.map (levelSum parent w n)).sum := by
  rw [← List.sum_toFinset _ hnodup, levelSum_eq_sum hw]
  simp only [levelSum_eq_sum hw]
  rw [Finset.sum_comm]
  apply Finset.sum_congr rfl
  intro u _
  cases hu : climb parent n u with
  | none =>
    have hnone : climb parent (n + 1) u = none := by rw [climb_add, hu, Option.bind_none]
    simp [hnone]
  | some c =>
    have hiff : climb parent (n + 1) u = some z ↔ c ∈ children.toFinset := by
      rw [List.mem_toFinset, hmem, climb_succ_eq_some_iff, hu]
      simp
    simp only [hiff, Option.some.injEq]
    rw [Finset.sum_ite_eq]

/-- Where every chain has an end, no node is met on two levels below `z`. -/
theorem sum_levelSum_le (h : Grounded parent) (hw : (Function.support w).Finite)
    (hnonneg : ∀ u, 0 ≤ w u) (n : ℕ) (z : α) :
    ∑ k ∈ Finset.range n, levelSum parent w k z ≤ ∑ᶠ u, w u := by
  have honce : ∀ u, (∑ k ∈ Finset.range n, if climb parent k u = some z then w u else 0) ≤ w u := by
    intro u
    by_cases hmet : ∃ k ∈ Finset.range n, climb parent k u = some z
    · obtain ⟨k, hk, hclimb⟩ := hmet
      rw [Finset.sum_eq_single_of_mem k hk, if_pos hclimb]
      intro m _ hne
      rw [if_neg]
      intro hm
      exact hne (h.climb_inj hm hclimb)
    · rw [Finset.sum_eq_zero]
      · exact hnonneg u
      · intro k hk
        rw [if_neg]
        intro hclimb
        exact hmet ⟨k, hk, hclimb⟩
  simp only [levelSum_eq_sum hw]
  rw [Finset.sum_comm, finsum_eq_sum_of_support_subset (s := hw.toFinset) w (by simp)]
  exact Finset.sum_le_sum fun u _ => honce u

/-- The chain of `x` ends after at most `depth` hops. -/
def Shallow (parent : α → Option α) (depth : ℕ) (x : α) : Prop :=
  ∃ n e, n ≤ depth ∧ EndsAfter parent n x e

open Classical in
/-- Of the hops that a chain makes, at most one leads to an end. -/
theorem sum_hops (depth : ℕ) (u : α) (a : ℤ) (hend : parent e = none) :
    (∑ n ∈ Finset.range (depth + 1), if climb parent n u = some e then a else 0) =
      if ∃ n ≤ depth, EndsAfter parent n u e then a else 0 := by
  by_cases hends : ∃ n ≤ depth, EndsAfter parent n u e
  · rw [if_pos hends]
    obtain ⟨m, hle, hm⟩ := hends
    rw [Finset.sum_eq_single m]
    · rw [if_pos hm.1]
    · intro n _ hne
      rw [if_neg]
      intro hclimb
      exact hne (EndsAfter.unique ⟨hclimb, hend⟩ hm).1
    · intro hout
      exact absurd (Finset.mem_range.mpr (Nat.lt_succ_of_le hle)) hout
  · rw [if_neg hends]
    apply Finset.sum_eq_zero
    intro n hn
    rw [if_neg]
    intro hclimb
    exact hends ⟨n, Nat.le_of_lt_succ (Finset.mem_range.mp hn), hclimb, hend⟩

open Classical in
/-- A chain that is short enough has one end, and any other has none in reach. -/
theorem finsum_ends (depth : ℕ) (u : α) (a : ℤ) :
    (Function.support fun e => if ∃ n ≤ depth, EndsAfter parent n u e then a else 0).Finite ∧
      (∑ᶠ e, if ∃ n ≤ depth, EndsAfter parent n u e then a else 0) =
        if Shallow parent depth u then a else 0 := by
  by_cases hshallow : Shallow parent depth u
  · obtain ⟨m, e, hle, hends⟩ := hshallow
    have hterm : ∀ f, (∃ n ≤ depth, EndsAfter parent n u f) ↔ f = e := by
      intro f
      constructor
      · intro h
        obtain ⟨n, -, hn⟩ := h
        exact (hn.unique hends).2
      · intro h
        exact ⟨m, hle, h ▸ hends⟩
    simp only [hterm]
    constructor
    · apply (Set.finite_singleton e).subset
      intro f hf
      by_contra hne
      exact hf (if_neg hne)
    · rw [finsum_eq_single _ e fun f hf => if_neg hf, if_pos rfl, if_pos ⟨m, e, hle, hends⟩]
  · have hterm : ∀ f, ¬ ∃ n ≤ depth, EndsAfter parent n u f := by
      intro f h
      obtain ⟨n, hle, hn⟩ := h
      exact hshallow ⟨n, f, hle, hn⟩
    simp only [hterm, if_false, if_neg hshallow]
    exact ⟨by simp, finsum_zero⟩

open Classical in
/-- Every node whose chain is short enough is met once, under the end of its chain. -/
theorem finsum_levelSum (hw : (Function.support w).Finite) (depth : ℕ) :
    (∑ᶠ e, if parent e = none then ∑ n ∈ Finset.range (depth + 1), levelSum parent w n e
      else 0) = ∑ᶠ x, if Shallow parent depth x then w x else 0 := by
  have hswap : ∀ e, (if parent e = none then
      ∑ n ∈ Finset.range (depth + 1), levelSum parent w n e else 0) =
      ∑ u ∈ hw.toFinset, if ∃ n ≤ depth, EndsAfter parent n u e then w u else 0 := by
    intro e
    by_cases hend : parent e = none
    · rw [if_pos hend]
      simp only [levelSum_eq_sum hw]
      rw [Finset.sum_comm]
      exact Finset.sum_congr rfl fun u _ => sum_hops depth u (w u) hend
    · rw [if_neg hend]
      symm
      apply Finset.sum_eq_zero
      intro u _
      rw [if_neg]
      intro h
      obtain ⟨n, -, hn⟩ := h
      exact hend hn.2
  simp only [hswap]
  rw [finsum_sum_comm _ _ fun u _ => (finsum_ends depth u (w u)).1]
  rw [finsum_eq_sum_of_support_subset (s := hw.toFinset)]
  · exact Finset.sum_congr rfl fun u _ => (finsum_ends depth u (w u)).2
  · intro u hu
    rw [Function.mem_support] at hu
    have hne : w u ≠ 0 := by
      intro hzero
      rw [hzero, ite_self] at hu
      exact hu rfl
    simpa using hne

end Levels

end Forest
