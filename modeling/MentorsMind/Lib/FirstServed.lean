import Mathlib

/-! A scan in increasing order that gives up after it has met a fixed number of entries. -/
namespace FirstServed

variable {entry entry' : ℕ → Prop} [DecidablePred entry] [DecidablePred entry'] {limit n : ℕ}

/-- There is an entry at `n`, and the scan gets there. -/
def Reached (entry : ℕ → Prop) [DecidablePred entry] (limit n : ℕ) : Prop :=
  entry n ∧ Nat.count entry n < limit

instance : Decidable (Reached entry limit n) := inferInstanceAs (Decidable (_ ∧ _))

/-- How many entries the scan has met before `n`. -/
def met (entry : ℕ → Prop) [DecidablePred entry] (limit n : ℕ) : ℕ :=
  min (Nat.count entry n) limit

theorem le_met_iff : limit ≤ met entry limit n ↔ limit ≤ Nat.count entry n := by
  unfold met
  omega

theorem met_succ_of_reached (h : Reached entry limit n) :
    met entry limit (n + 1) = met entry limit n + 1 := by
  have hcount := Nat.count_succ entry n
  rw [if_pos h.1] at hcount
  have hlt := h.2
  unfold met
  omega

theorem met_succ_of_not_reached (h : ¬ Reached entry limit n) :
    met entry limit (n + 1) = met entry limit n := by
  unfold met
  rw [Nat.count_succ]
  by_cases hentry : entry n
  · have hge : ¬ Nat.count entry n < limit := fun hlt => h ⟨hentry, hlt⟩
    rw [if_pos hentry]
    omega
  · rw [if_neg hentry, add_zero]

/-- How far the scan gets depends on the entries up to there only. -/
theorem count_congr (h : ∀ k < n, entry k ↔ entry' k) :
    Nat.count entry n = Nat.count entry' n :=
  le_antisymm (Nat.count_mono_left fun k hk => (h k hk).mp)
    (Nat.count_mono_left fun k hk => (h k hk).mpr)

variable {p : ℕ → Prop} [DecidablePred p] {bound : ℕ}

/-- The positions below `bound` that the scan gets to and serves. -/
def served (entry p : ℕ → Prop) [DecidablePred entry] [DecidablePred p] (limit bound : ℕ) :
    Finset ℕ :=
  (Finset.range bound).filter fun n => p n ∧ Reached entry limit n

@[simp] theorem mem_served :
    n ∈ served entry p limit bound ↔ n < bound ∧ p n ∧ Reached entry limit n := by
  simp [served]

@[simp] theorem served_zero : served entry p limit 0 = ∅ := rfl

theorem served_succ_of_served (hp : p n) (hreached : Reached entry limit n) :
    served entry p limit (n + 1) = insert n (served entry p limit n) := by
  unfold served
  rw [Finset.range_add_one, Finset.filter_insert, if_pos ⟨hp, hreached⟩]

theorem served_succ_of_not_served (h : ¬ (p n ∧ Reached entry limit n)) :
    served entry p limit (n + 1) = served entry p limit n := by
  unfold served
  rw [Finset.range_add_one, Finset.filter_insert, if_neg h]

theorem notMem_served : n ∉ served entry p limit n := by
  simp

end FirstServed
