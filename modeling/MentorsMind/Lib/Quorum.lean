import Mathlib

/-! Quorums: a finite set of members and how many of them have to agree. A quorum that its
members cannot reach, or that nobody has to join, cannot be built. -/

structure Quorum (α : Type*) where
  members : Finset α
  needed : ℕ
  needed_pos : 1 ≤ needed
  needed_le : needed ≤ members.card

namespace Quorum

variable {α : Type*} [DecidableEq α]

/-- The quorum of a list without repetitions. -/
def ofList (members : List α) (needed : ℕ) (hdistinct : members.Nodup) (hpos : 1 ≤ needed)
    (hle : needed ≤ members.length) : Quorum α where
  members := members.toFinset
  needed := needed
  needed_pos := hpos
  needed_le := by rwa [List.toFinset_card_of_nodup hdistinct]

def enter (q : Quorum α) (a : α) : Quorum α where
  members := insert a q.members
  needed := q.needed
  needed_pos := q.needed_pos
  needed_le := q.needed_le.trans (Finset.card_le_card (Finset.subset_insert a q.members))

/-- A member leaves while enough others stay. -/
def leave (q : Quorum α) (a : α) (hmem : a ∈ q.members) (hle : q.needed ≤ q.members.card - 1) :
    Quorum α where
  members := q.members.erase a
  needed := q.needed
  needed_pos := q.needed_pos
  needed_le := by rwa [Finset.card_erase_of_mem hmem]

omit [DecidableEq α] in
def withNeeded (q : Quorum α) (needed : ℕ) (hpos : 1 ≤ needed) (hle : needed ≤ q.members.card) :
    Quorum α where
  members := q.members
  needed := needed
  needed_pos := hpos
  needed_le := hle

/-- A list that names somebody twice has fewer members than entries. -/
theorem card_toFinset_lt_of_not_nodup {members : List α} (h : ¬ members.Nodup) :
    members.toFinset.card < members.length := by
  have hle : members.toFinset.card ≤ members.length := members.toFinset_card_le
  have hne : members.toFinset.card ≠ members.length := by
    intro heq
    exact h (Multiset.coe_nodup.mp (Multiset.toFinset_card_eq_card_iff_nodup.mp heq))
  omega

section Overlap

variable {members A B : Finset α}

/-- Two groups of members share at least what they have too many to be apart. -/
theorem card_add_le_inter (hA : A ⊆ members) (hB : B ⊆ members) :
    A.card + B.card ≤ members.card + (A ∩ B).card := by
  have hunion : (A ∪ B).card ≤ members.card := Finset.card_le_card (Finset.union_subset hA hB)
  have hcount := Finset.card_union_add_card_inter A B
  omega

/-- Two groups of `q` members that share no more than they have to. -/
theorem exists_least_overlap {q : ℕ} (hq : q ≤ members.card) (hmost : members.card ≤ 2 * q) :
    ∃ A B, A ⊆ members ∧ B ⊆ members ∧ A.card = q ∧ B.card = q ∧
      (A ∩ B).card = 2 * q - members.card := by
  obtain ⟨A, hA, hcard⟩ := Finset.exists_subset_card_eq hq
  obtain ⟨C, hC, hCcard⟩ := Finset.exists_subset_card_eq (s := A) (n := 2 * q - members.card)
    (by omega)
  have hrest : (members \ A).card = members.card - q := by
    rw [Finset.card_sdiff_of_subset hA, hcard]
  have hdisjoint : Disjoint (members \ A) C :=
    Finset.disjoint_of_subset_right hC Finset.sdiff_disjoint
  refine ⟨A, (members \ A) ∪ C, hA, ?_, hcard, ?_, ?_⟩
  · exact Finset.union_subset Finset.sdiff_subset (hC.trans hA)
  · rw [Finset.card_union_of_disjoint hdisjoint, hrest, hCcard]
    omega
  · have hinter : A ∩ ((members \ A) ∪ C) = C := by
      rw [Finset.inter_union_distrib_left, Finset.inter_sdiff_self, Finset.empty_union,
        Finset.inter_eq_right.mpr hC]
    rw [hinter, hCcard]

/-- Groups that share more members than are faulty share one that is not. -/
theorem exists_shared_outside {faulty : Finset α} (h : faulty.card < (A ∩ B).card) :
    ∃ a, a ∈ A ∧ a ∈ B ∧ a ∉ faulty := by
  obtain ⟨a, hmem, hgood⟩ := Finset.exists_mem_notMem_of_card_lt_card h
  obtain ⟨ha, hb⟩ := Finset.mem_inter.mp hmem
  exact ⟨a, ha, hb, hgood⟩

end Overlap

end Quorum
