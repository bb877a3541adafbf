import Mathlib

/-! Pro-rata shares of an amount, each rounded down, over accounts whose weights do not add
up to more than the denominator; and weights that are read off numbered positions. -/
namespace Shares

variable {ι : Type*}

/-- Rounded shares together never exceed the amount that is shared. -/
theorem sum_share_le {S : Finset ι} {n : ι → ℤ} {R D : ℤ} (hR : 0 ≤ R) (hD : 0 < D)
    (hsum : ∑ i ∈ S, n i ≤ D) : ∑ i ∈ S, n i * R / D ≤ R := by
  have hscaled : D * ∑ i ∈ S, n i * R / D ≤ D * R := by
    calc D * ∑ i ∈ S, n i * R / D = ∑ i ∈ S, D * (n i * R / D) := Finset.mul_sum ..
      _ ≤ ∑ i ∈ S, n i * R := Finset.sum_le_sum fun i _ => Int.mul_ediv_self_le hD.ne'
      _ = (∑ i ∈ S, n i) * R := (Finset.sum_mul ..).symm
      _ ≤ D * R := mul_le_mul_of_nonneg_right hsum hR
  exact le_of_mul_le_mul_left hscaled hD

/-- Nor do payouts that stay below the shares of the accounts in `S` and are zero elsewhere. -/
theorem finsum_le {S : Finset ι} {n pay : ι → ℤ} {R D : ℤ} (hR : 0 ≤ R) (hD : 0 < D)
    (hsum : ∑ i ∈ S, n i ≤ D) (hsupport : Function.support pay ⊆ S)
    (hpay : ∀ i ∈ S, pay i ≤ n i * R / D) : ∑ᶠ i, pay i ≤ R := by
  rw [finsum_eq_sum_of_support_subset pay hsupport]
  exact (Finset.sum_le_sum hpay).trans (sum_share_le hR hD hsum)

/-- What the positions below `count` weigh, an empty position weighing nothing. -/
def positionSum (occupant : ℕ → Option ι) (w : ι → ℤ) (count : ℕ) : ℤ :=
  ∑ i ∈ Finset.range count, (occupant i).elim 0 w

theorem positionSum_succ (occupant : ℕ → Option ι) (w : ι → ℤ) (count : ℕ) :
    positionSum occupant w (count + 1) =
      positionSum occupant w count + (occupant count).elim 0 w :=
  Finset.sum_range_succ ..

/-- Something stands on a position below `count` exactly if there is an account that
weighs something and occupies one. -/
theorem positionSum_pos_iff {occupant : ℕ → Option ι} {w : ι → ℤ} {count : ℕ}
    (hw : ∀ i, 0 ≤ w i) : 0 < positionSum occupant w count ↔
      ∃ k i, k < count ∧ occupant k = some i ∧ 0 < w i := by
  have hterm : ∀ k ∈ Finset.range count, 0 ≤ (occupant k).elim 0 w := by
    intro k _
    cases occupant k with
    | none => exact le_rfl
    | some i => exact hw i
  unfold positionSum
  rw [Finset.sum_pos_iff_of_nonneg hterm]
  constructor
  · rintro ⟨k, hk, hpos⟩
    cases hi : occupant k with
    | none =>
      rw [hi] at hpos
      exact absurd hpos (lt_irrefl _)
    | some i =>
      rw [hi] at hpos
      exact ⟨k, i, Finset.mem_range.mp hk, hi, hpos⟩
  · rintro ⟨k, i, hk, hi, hpos⟩
    exact ⟨k, Finset.mem_range.mpr hk, by rw [hi]; exact hpos⟩

/-- Accounts that each occupy a position weigh no more than all positions do. -/
theorem sum_le_positionSum [DecidableEq ι] {occupant : ℕ → Option ι} {w : ι → ℤ} {count : ℕ}
    {S : Finset ι} (hw : ∀ i, 0 ≤ w i)
    (hS : ∀ i ∈ S, ∃ k, k < count ∧ occupant k = some i) :
    ∑ i ∈ S, w i ≤ positionSum occupant w count := by
  choose! position hlt hoccupant using hS
  have hinj : Set.InjOn position S := by
    intro i hi j hj hij
    have hocc : some i = some j := by rw [← hoccupant i hi, ← hoccupant j hj, hij]
    exact Option.some.inj hocc
  calc ∑ i ∈ S, w i = ∑ i ∈ S, (occupant (position i)).elim 0 w := by
        refine Finset.sum_congr rfl fun i hi => ?_
        rw [hoccupant i hi]
        rfl
    _ = ∑ k ∈ S.image position, (occupant k).elim 0 w :=
        (Finset.sum_image (f := fun k => (occupant k).elim 0 w) hinj).symm
    _ ≤ positionSum occupant w count := by
        refine Finset.sum_le_sum_of_subset_of_nonneg ?_ ?_
        · intro k hk
          obtain ⟨i, hi, rfl⟩ := Finset.mem_image.mp hk
          exact Finset.mem_range.mpr (hlt i hi)
        · intro k _ _
          cases occupant k with
          | none => exact le_rfl
          | some i => exact hw i

/-- Positions that no account occupies twice weigh no more than all accounts do. -/
theorem sum_positions_le [DecidableEq ι] {occupant : ℕ → Option ι} {w : ι → ℤ}
    (hw : ∀ i, 0 ≤ w i) (hfinite : (Function.support w).Finite)
    (hinj : ∀ k k' i, occupant k = some i → occupant k' = some i → k = k') (P : Finset ℕ) :
    ∑ k ∈ P, (occupant k).elim 0 w ≤ ∑ᶠ i, w i := by
  have hfilter : ∑ k ∈ P, (occupant k).elim 0 w =
      ∑ k ∈ P.filter fun k => occupant k ≠ none, (occupant k).elim 0 w := by
    refine (Finset.sum_filter_of_ne (p := fun k => occupant k ≠ none) ?_).symm
    intro k _ hk hnone
    rw [hnone] at hk
    exact hk rfl
  have hinjOn : Set.InjOn occupant (P.filter fun k => occupant k ≠ none) := by
    intro k hk k' _ heq
    obtain ⟨i, hi⟩ := Option.ne_none_iff_exists'.mp (Finset.mem_filter.mp hk).2
    exact hinj k k' i hi (heq ▸ hi)
  rw [finsum_eq_sum_of_support_subset (s := hfinite.toFinset ∪
    Finset.eraseNone ((P.filter fun k => occupant k ≠ none).image occupant)) w (by simp)]
  calc ∑ k ∈ P, (occupant k).elim 0 w
      = ∑ o ∈ (P.filter fun k => occupant k ≠ none).image occupant, o.elim 0 w := by
        rw [hfilter, Finset.sum_image hinjOn]
    _ = ∑ i ∈ Finset.eraseNone ((P.filter fun k => occupant k ≠ none).image occupant), w i := by
        simp only [Finset.sum_eraseNone, Option.elim'_eq_elim]
    _ ≤ _ := Finset.sum_le_sum_of_subset_of_nonneg Finset.subset_union_right fun i _ _ => hw i

end Shares
