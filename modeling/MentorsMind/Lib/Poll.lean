import MentorsMind.Lib.Table

/-! Polls in which each voter takes a side with a weight. One law is used about the tallies of the
sides: a first vote adds its weight to the side it takes, and to no other. -/
namespace Poll

variable {α β : Type*} {side : α → Option β} {weight : α → ℤ}

/-- The poll has finitely many votes. -/
def Finite (side : α → Option β) : Prop := {a | side a ≠ none}.Finite

theorem finite_empty (h : ∀ a, side a = none) : Finite side := by
  have hempty : {a | side a ≠ none} = ∅ := by
    ext a
    simp [h a]
  rw [Finite, hempty]
  exact Set.finite_empty

theorem Finite.cast [DecidableEq α] (h : Finite side) (a : α) (b : β) :
    Finite (Function.update side a (some b)) := by
  apply (h.union (Set.finite_singleton a)).subset
  intro c hc
  by_cases hca : c = a
  · exact .inr hca
  · have hne : Function.update side a (some b) c ≠ none := hc
    rw [Function.update_of_ne hca] at hne
    exact .inl hne

variable [DecidableEq β]

/-- What the votes for a side add up to. -/
noncomputable def tally (side : α → Option β) (weight : α → ℤ) (b : β) : ℤ :=
  ∑ᶠ a, if side a = some b then weight a else 0

theorem tally_empty (h : ∀ a, side a = none) (b : β) : tally side weight b = 0 := by
  simp [tally, h]

/-- A first vote. -/
theorem Finite.tally_cast [DecidableEq α] (h : Finite side) (weight : α → ℤ) {a : α} (b : β)
    (w : ℤ) (hfirst : side a = none) (c : β) :
    tally (Function.update side a (some b)) (Function.update weight a w) c =
      tally side weight c + if b = c then w else 0 := by
  have hfinite : PointSum.Finite (fun x : ℤ => x)
      fun i => if side i = some c then weight i else 0 := by
    apply h.subset
    intro i hi hnone
    exact hi (if_neg (by simp [hnone]))
  have hsplit : (fun i => if Function.update side a (some b) i = some c then
      Function.update weight a w i else 0) =
      Function.update (fun i => if side i = some c then weight i else 0) a
        (if b = c then w else 0) := by
    funext i
    by_cases hi : i = a
    · subst hi
      simp
    · simp [hi]
  have hupdate := hfinite.total_update a (if b = c then w else 0)
  rw [← hsplit, hfirst, if_neg (Option.some_ne_none c).symm, sub_zero] at hupdate
  exact hupdate

section Assignments

variable {f : α → β}

/-- What is on the side of a voter whose voters stay where they are unless they are sent on: its
own weight, if it stays, and the weights of those who are sent to it. -/
theorem tally_sent [DecidableEq α] (sent : α → Option α) (hfinite : (Function.support weight).Finite)
    (a : α) : tally (fun x => some ((sent x).getD x)) weight a =
      (if sent a = none then weight a else 0) + tally sent weight a := by
  have hsplit : (fun x => if some ((sent x).getD x) = some a then weight x else 0) = fun x =>
      (if x = a then if sent a = none then weight a else 0 else 0) +
        if sent x = some a then weight x else 0 := by
    funext x
    by_cases hx : x = a
    · subst hx
      cases sent x <;> simp
    · cases sent x <;> simp [hx]
  have hown : (Function.support fun x => if x = a then if sent a = none then weight a else 0
      else 0).Finite := by
    apply (Set.finite_singleton a).subset
    intro x hx
    by_contra hne
    exact hx (if_neg hne)
  have hothers : (Function.support fun x => if sent x = some a then weight x else 0).Finite := by
    apply hfinite.subset
    intro x hx hzero
    exact hx (by simp [hzero])
  rw [tally, hsplit, finsum_add_distrib hown hothers]
  congr 1
  rw [finsum_eq_single _ a fun x hx => if_neg hx, if_pos rfl]

/-- When everybody is on a side the tallies add up to all the weights. -/
theorem sum_tally (hfinite : (Function.support weight).Finite) :
    ∑ᶠ b, tally (fun a => some (f a)) weight b = ∑ᶠ a, weight a := by
  have hsides : (Function.support fun b => tally (fun a => some (f a)) weight b) ⊆
      hfinite.toFinset.image f := by
    intro b hb
    by_contra hnone
    apply hb
    apply finsum_eq_zero_of_forall_eq_zero
    intro a
    by_cases ha : f a = b
    · rw [if_pos (congrArg some ha)]
      by_contra hweight
      apply hnone
      rw [Finset.coe_image]
      exact ⟨a, by simpa using hweight, ha⟩
    · exact if_neg fun hsame => ha (Option.some.inj hsame)
  have htally : ∀ b, tally (fun a => some (f a)) weight b =
      ∑ a ∈ hfinite.toFinset with f a = b, weight a := by
    intro b
    have hvoters : (Function.support fun a => if some (f a) = some b then weight a else 0) ⊆
        hfinite.toFinset := by
      intro a ha
      rw [Set.Finite.coe_toFinset]
      intro hzero
      exact ha (by simp [hzero])
    rw [tally, Finset.sum_filter, finsum_eq_sum_of_support_subset _ hvoters]
    simp only [Option.some.injEq]
  rw [finsum_eq_sum_of_support_subset _ hsides]
  simp only [htally]
  rw [Finset.sum_fiberwise_of_maps_to fun a ha => Finset.mem_image_of_mem f ha,
    ← finsum_eq_sum_of_support_toFinset_subset weight hfinite subset_rfl]

end Assignments

section Nonnegative

variable (hnonneg : ∀ a, 0 ≤ weight a)
include hnonneg

theorem tally_nonneg (b : β) : 0 ≤ tally side weight b := by
  apply finsum_nonneg
  intro a
  split_ifs
  · exact hnonneg a
  · exact le_rfl

/-- No side gets more than all the weights. -/
theorem tally_le (hfinite : (Function.support weight).Finite) (b : β) :
    tally side weight b ≤ ∑ᶠ a, weight a := by
  apply finsum_le_finsum'
  · apply hfinite.subset
    intro a ha hzero
    exact ha (by simp [hzero])
  · exact hfinite
  · intro a
    show (if side a = some b then weight a else 0) ≤ weight a
    split_ifs
    · exact le_rfl
    · exact hnonneg a

omit [DecidableEq β] in
/-- The listed voters carry all the weight exactly if nobody else carries any. -/
theorem sum_eq_listed_iff [DecidableEq α] (hfinite : (Function.support weight).Finite)
    {voters : List α} (hnodup : voters.Nodup) :
    ∑ᶠ a, weight a = (voters.map weight).sum ↔ ∀ a, a ∉ voters → weight a = 0 := by
  have hsupport : Function.support weight ⊆ hfinite.toFinset ∪ voters.toFinset := by
    intro a ha
    exact .inl (by simpa using ha)
  have hsplit : ∑ᶠ a, weight a =
      (∑ a ∈ (hfinite.toFinset ∪ voters.toFinset) \ voters.toFinset, weight a) +
        (voters.map weight).sum := by
    rw [finsum_eq_sum_of_support_subset weight (by rwa [Finset.coe_union]),
      ← Finset.sum_sdiff Finset.subset_union_right, List.sum_toFinset weight hnodup]
  rw [hsplit, add_eq_right, Finset.sum_eq_zero_iff_of_nonneg fun a _ => hnonneg a]
  constructor
  · intro hothers a ha
    by_contra hweight
    apply hweight
    apply hothers
    simp [hweight, ha]
  · intro hothers a ha
    apply hothers
    simpa using (Finset.mem_sdiff.mp ha).2

end Nonnegative

end Poll
