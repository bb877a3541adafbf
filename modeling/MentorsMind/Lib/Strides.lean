import Mathlib

/-! Walks in strides over the positions below a count, where each visit sees a window of positions
from where it stands. A window may be narrower than the stride; what lies between is not seen. -/
namespace Strides

variable {count stride size k i : ℕ}

/-- The positions that visit `k` sees. -/
def window (count stride size k : ℕ) : List ℕ :=
  List.range' (min (k * stride) count) (min (k * stride + size) count - min (k * stride) count)

/-- The visits that it takes to come past every position. -/
def visits (count stride : ℕ) : ℕ := (count + stride - 1) / stride

def seen (count stride size : ℕ) : List ℕ :=
  (List.range (visits count stride)).flatMap (window count stride size)

theorem mem_window (hsize : size ≤ stride) :
    i ∈ window count stride size k ↔ i < count ∧ i / stride = k ∧ i % stride < size := by
  have hmem : i ∈ window count stride size k ↔
      i < count ∧ k * stride ≤ i ∧ i < k * stride + size := by
    unfold window
    rw [List.mem_range'_1]
    omega
  have hsplit := Nat.div_add_mod i stride
  rw [hmem]
  constructor
  · rintro ⟨hcount, hlow, hhigh⟩
    have hk : i / stride = k := by
      apply Nat.div_eq_of_lt_le hlow
      rw [Nat.succ_mul]
      omega
    rw [hk, mul_comm] at hsplit
    exact ⟨hcount, hk, by omega⟩
  · rintro ⟨hcount, rfl, hmod⟩
    rw [mul_comm] at hsplit
    exact ⟨hcount, by omega, by omega⟩

theorem lt_visits (hstride : 0 < stride) (hi : i < count) : i / stride < visits count stride := by
  unfold visits
  rw [Nat.div_lt_iff_lt_mul hstride]
  have hround := Nat.div_add_mod (count + stride - 1) stride
  have hrest := Nat.mod_lt (count + stride - 1) hstride
  rw [mul_comm] at hround
  omega

/-- A position is seen if and only if it lies less than a window behind a multiple of the stride. -/
theorem mem_seen (hstride : 0 < stride) (hsize : size ≤ stride) :
    i ∈ seen count stride size ↔ i < count ∧ i % stride < size := by
  simp only [seen, List.mem_flatMap, List.mem_range, mem_window hsize]
  constructor
  · rintro ⟨k, -, hi, -, hmod⟩
    exact ⟨hi, hmod⟩
  · rintro ⟨hi, hmod⟩
    exact ⟨i / stride, lt_visits hstride hi, hi, rfl, hmod⟩

/-- No position is seen twice. -/
theorem seen_nodup (hsize : size ≤ stride) : (seen count stride size).Nodup := by
  unfold seen
  rw [List.nodup_flatMap]
  constructor
  · intro k _
    exact List.nodup_range'
  · refine List.nodup_range.imp ?_
    intro k k' hne i hi hi'
    obtain ⟨-, rfl, -⟩ := (mem_window hsize).mp hi
    obtain ⟨-, hk', -⟩ := (mem_window hsize).mp hi'
    exact hne hk'

end Strides
