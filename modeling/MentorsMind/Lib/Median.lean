import Mathlib.Data.List.Sort

/-! The upper median of a list, located by counting. -/
namespace List

variable {α : Type*} [LinearOrder α] {l : List α} {p : α → Prop} [DecidablePred p]

/-- The entry in the middle of the sorted list, the upper one of two. -/
def upperMedian (l : List α) : Option α := (l.insertionSort (· ≤ ·))[l.length / 2]?

/-- In a sorted list the entries of a lower set come first. -/
theorem getElem_iff_lt_countP (hp : ∀ x y, x ≤ y → p y → p x) (hl : l.Pairwise (· ≤ ·)) {i : ℕ}
    (hi : i < l.length) : p l[i] ↔ i < l.countP p := by
  induction l generalizing i with
  | nil => cases hi
  | cons x l ih =>
    obtain ⟨hx, hl⟩ := List.pairwise_cons.mp hl
    by_cases hpx : p x
    · rw [List.countP_cons_of_pos (by simpa using hpx)]
      cases i with
      | zero => simp [hpx]
      | succ i => simpa using ih hl (by simpa using hi)
    · have hnone : ∀ y ∈ l, ¬ p y := fun y hy hpy => hpx (hp x y (hx y hy) hpy)
      have hzero : l.countP p = 0 := List.countP_eq_zero.mpr (by simpa using hnone)
      rw [List.countP_cons_of_neg (by simpa using hpx), hzero]
      constructor
      · intro hpi
        rcases List.mem_cons.mp (List.getElem_mem hi) with heq | hmem
        · exact absurd (heq ▸ hpi) hpx
        · exact absurd hpi (hnone _ hmem)
      · intro hlt
        cases hlt

theorem upperMedian_eq_none : l.upperMedian = none ↔ l = [] := by
  rw [upperMedian, List.getElem?_eq_none_iff, List.length_insertionSort]
  constructor
  · intro h
    cases l with
    | nil => rfl
    | cons x l =>
      simp only [List.length_cons] at h
      omega
  · rintro rfl
    simp

theorem upperMedian_mem {m : α} (h : l.upperMedian = some m) : m ∈ l :=
  (List.perm_insertionSort (· ≤ ·) l).mem_iff.mp (List.mem_of_getElem? h)

/-- The upper median lies in a lower set exactly if more than half of the entries do. -/
theorem upperMedian_iff (hp : ∀ x y, x ≤ y → p y → p x) {m : α} (h : l.upperMedian = some m) :
    p m ↔ l.length / 2 < l.countP p := by
  obtain ⟨hi, hm⟩ := List.getElem?_eq_some_iff.mp h
  have hsorted : (l.insertionSort (· ≤ ·)).Pairwise (· ≤ ·) := List.pairwise_insertionSort _ l
  rw [← hm, getElem_iff_lt_countP hp hsorted hi,
    (List.perm_insertionSort (· ≤ ·) l).countP_eq]

theorem upperMedian_lt_iff {m a : α} (h : l.upperMedian = some m) :
    m < a ↔ l.length / 2 < l.countP (· < a) :=
  upperMedian_iff (fun _ _ hle hlt => hle.trans_lt hlt) h

theorem upperMedian_le_iff {m b : α} (h : l.upperMedian = some m) :
    m ≤ b ↔ l.length / 2 < l.countP (· ≤ b) :=
  upperMedian_iff (fun _ _ hle hle' => hle.trans hle') h

end List
