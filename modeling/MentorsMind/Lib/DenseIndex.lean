import Mathlib

/-! A dense index: entries at the positions below a count, and the position of each entry.
Removal moves the last entry to the position that becomes free. -/

structure DenseIndex (α : Type*) where
  entry : ℕ → Option α
  position : α → Option ℕ
  count : ℕ

namespace DenseIndex

variable {α : Type*} {d : DenseIndex α} {a b x : α} {i k : ℕ}

/-- The two maps are inverse to each other, and the positions below the count are taken. -/
structure Sound (d : DenseIndex α) : Prop where
  entry_iff : ∀ i a, d.entry i = some a ↔ d.position a = some i
  isSome_iff : ∀ i, (d.entry i).isSome ↔ i < d.count

def empty : DenseIndex α := ⟨fun _ => none, fun _ => none, 0⟩

theorem empty_sound : (empty : DenseIndex α).Sound := ⟨by simp [empty], by simp [empty]⟩

theorem Sound.lt_count (h : d.Sound) (ha : d.position a = some i) : i < d.count := by
  rw [← h.isSome_iff, (h.entry_iff i a).mpr ha]
  rfl

/-- No entry is listed twice. -/
theorem Sound.entry_inj (h : d.Sound) (hi : d.entry i = some a) (hk : d.entry k = some a) :
    i = k := by
  have hpos := (h.entry_iff i a).mp hi
  rw [(h.entry_iff k a).mp hk] at hpos
  exact (Option.some.inj hpos).symm

section Slices

/-- The entries at the positions from `i` up to `j`. -/
def slice (d : DenseIndex α) (i j : ℕ) : List α := (List.range' i (j - i)).filterMap d.entry

theorem mem_slice {j : ℕ} : a ∈ d.slice i j ↔ ∃ k, i ≤ k ∧ k < j ∧ d.entry k = some a := by
  simp only [slice, List.mem_filterMap, List.mem_range'_1]
  constructor
  · rintro ⟨k, ⟨hle, hlt⟩, hk⟩
    exact ⟨k, hle, by omega, hk⟩
  · rintro ⟨k, hle, hlt, hk⟩
    exact ⟨k, ⟨hle, by omega⟩, hk⟩

theorem Sound.slice_nodup (h : d.Sound) (i j : ℕ) : (d.slice i j).Nodup := by
  unfold slice
  refine List.Nodup.filterMap ?_ List.nodup_range'
  intro k k' x hk hk'
  exact h.entry_inj hk hk'

/-- All that is listed stands below the count. -/
theorem Sound.mem_slice_count (h : d.Sound) : a ∈ d.slice 0 d.count ↔ (d.position a).isSome := by
  rw [mem_slice, Option.isSome_iff_exists]
  constructor
  · rintro ⟨k, -, -, hk⟩
    exact ⟨k, (h.entry_iff k a).mp hk⟩
  · rintro ⟨k, hk⟩
    exact ⟨k, k.zero_le, h.lt_count hk, (h.entry_iff k a).mpr hk⟩

theorem slice_append {j : ℕ} (hij : i ≤ j) (hjk : j ≤ k) :
    d.slice i j ++ d.slice j k = d.slice i k := by
  have hrange : List.range' i (j - i) ++ List.range' j (k - j) = List.range' i (k - i) := by
    have hsplit := List.range'_append_1 (s := i) (m := j - i) (n := k - j)
    rw [show i + (j - i) = j by omega, show j - i + (k - j) = k - i by omega] at hsplit
    exact hsplit
  unfold slice
  rw [← List.filterMap_append, hrange]

/-- Pages of `size` positions, one after the other, list what stands on them. -/
theorem flatMap_pages (d : DenseIndex α) (size n : ℕ) :
    ((List.range n).flatMap fun k =>
        d.slice (min (k * size) d.count) (min (k * size + size) d.count)) =
      d.slice 0 (min (n * size) d.count) := by
  induction n with
  | zero => simp [slice]
  | succ n ih =>
    rw [List.range_succ, List.flatMap_append, ih, List.flatMap_singleton, Nat.succ_mul]
    exact slice_append (Nat.zero_le _) (by omega)

end Slices

variable [DecidableEq α]

def push (d : DenseIndex α) (a : α) : DenseIndex α where
  entry := Function.update d.entry d.count (some a)
  position := Function.update d.position a (some d.count)
  count := d.count + 1

/-- `a` goes from position `k`, and `b`, the last entry, takes its place. -/
def swapRemove (d : DenseIndex α) (a b : α) (k : ℕ) : DenseIndex α where
  entry := Function.update (Function.update d.entry k (some b)) (d.count - 1) none
  position := Function.update (Function.update d.position b (some k)) a none
  count := d.count - 1

theorem Sound.push (h : d.Sound) (ha : d.position a = none) : (d.push a).Sound where
  entry_iff i x := by
    have hfree : d.entry d.count = none := by
      by_contra hsome
      have hlt := (h.isSome_iff d.count).mp (Option.isSome_iff_ne_none.mpr hsome)
      exact lt_irrefl _ hlt
    have hx := h.entry_iff i x
    have hcount := h.entry_iff d.count x
    simp only [DenseIndex.push, Function.update_apply]
    grind
  isSome_iff i := by
    have hi := h.isSome_iff i
    simp only [DenseIndex.push, Function.update_apply]
    grind

theorem push_isSome : ((d.push a).position x).isSome ↔ x = a ∨ (d.position x).isSome := by
  simp only [push, Function.update_apply]
  grind

theorem Sound.swapRemove (h : d.Sound) (ha : d.position a = some k)
    (hb : d.entry (d.count - 1) = some b) : (d.swapRemove a b k).Sound where
  entry_iff i x := by
    have hx := h.entry_iff i x
    have hlast := (h.entry_iff (d.count - 1) b).mp hb
    have hk := (h.entry_iff k a).mpr ha
    have hkx := h.entry_iff k x
    have hlastx := h.entry_iff (d.count - 1) x
    simp only [DenseIndex.swapRemove, Function.update_apply]
    grind
  isSome_iff i := by
    have hi := h.isSome_iff i
    have hk := h.lt_count ha
    simp only [DenseIndex.swapRemove, Function.update_apply]
    grind

theorem Sound.swapRemove_isSome (h : d.Sound) (hb : d.entry (d.count - 1) = some b) :
    ((d.swapRemove a b k).position x).isSome ↔ x ≠ a ∧ (d.position x).isSome := by
  have hlast := (h.entry_iff (d.count - 1) b).mp hb
  simp only [DenseIndex.swapRemove, Function.update_apply]
  grind

end DenseIndex
