import Mathlib

/-! Indices by label that entries are only appended to: under each label the entries stand at
the positions of a list. -/

/-- The table holds, under each label, the list of that label. -/
def AppendIndex {κ α : Type*} (entry : κ × ℕ → Option α) (listed : κ → List α) : Prop :=
  ∀ label i, entry (label, i) = (listed label)[i]?

namespace AppendIndex

variable {κ α : Type*} {entry : κ × ℕ → Option α} {listed : κ → List α} {label : κ}

theorem empty : AppendIndex (fun _ => none : κ × ℕ → Option α) fun _ => [] := by
  intro label i
  rfl

/-- The positions that are taken are those below the length of the list. -/
theorem isSome_iff (h : AppendIndex entry listed) {i : ℕ} :
    (entry (label, i)).isSome = true ↔ i < (listed label).length := by
  rw [h label i, Option.isSome_iff_exists]
  constructor
  · rintro ⟨a, ha⟩
    exact (List.getElem?_eq_some_iff.mp ha).1
  · intro hlt
    exact ⟨_, List.getElem?_eq_getElem hlt⟩

/-- One more entry stands behind the others of its label. -/
theorem push [DecidableEq κ] (h : AppendIndex entry listed) (label : κ) (a : α) :
    AppendIndex (Function.update entry (label, (listed label).length) (some a))
      (Function.update listed label (listed label ++ [a])) := by
  intro other i
  by_cases hother : other = label
  · subst hother
    rw [Function.update_self, List.getElem?_append]
    by_cases hi : i = (listed other).length
    · subst hi
      simp
    · rw [Function.update_of_ne (by simpa using hi), h other i]
      by_cases hlt : i < (listed other).length
      · rw [if_pos hlt]
      · have hpos : [a].length ≤ i - (listed other).length := by
          rw [List.length_singleton]
          omega
        rw [if_neg hlt, List.getElem?_eq_none (not_lt.mp hlt), List.getElem?_eq_none hpos]
  · rw [Function.update_of_ne hother, Function.update_of_ne (by simp [hother]), h other i]

/-- Going through a range of positions lists what stands there. -/
theorem filterMap_range' (h : AppendIndex entry listed) {i j : ℕ} (hij : i ≤ j)
    (hj : j ≤ (listed label).length) :
    ((List.range' i (j - i)).filterMap fun k => entry (label, k)) =
      ((listed label).take j).drop i := by
  induction j, hij using Nat.le_induction with
  | base => simp
  | succ j hij ih =>
    have hlt : j < (listed label).length := by omega
    have hrange : List.range' i (j + 1 - i) = List.range' i (j - i) ++ [j] := by
      rw [show j + 1 - i = (j - i) + 1 by omega, List.range'_concat, one_mul,
        show i + (j - i) = j by omega]
    rw [hrange, List.filterMap_append, ih (by omega), List.take_succ_eq_append_getElem hlt,
      List.drop_append_of_le_length (by rw [List.length_take]; omega)]
    simp [h label j, List.getElem?_eq_getElem hlt]

/-- The window of `size` positions from `offset`, as far as the list goes. -/
theorem window_eq (h : AppendIndex entry listed) (label : κ) (offset size : ℕ) :
    ((List.range' (min offset (listed label).length) (min (offset + size) (listed label).length -
        min offset (listed label).length)).filterMap fun i => entry (label, i)) =
      ((listed label).take (offset + size)).drop offset := by
  rw [h.filterMap_range' (min_le_min_right _ (Nat.le_add_right _ _)) (min_le_right _ _)]
  rcases le_total offset (listed label).length with hin | hout
  · rw [min_eq_left hin, ← List.take_take, List.take_length]
  · rw [List.drop_eq_nil_of_le, List.drop_eq_nil_of_le]
    · rw [List.length_take]
      omega
    · rw [List.length_take]
      omega

/-- Pages of `size` positions, one after the other, list what stands on them. -/
theorem flatten_pages (l : List α) (size n : ℕ) :
    ((List.range n).map fun k => (l.take (k * size + size)).drop (k * size)).flatten =
      l.take (n * size) := by
  induction n with
  | zero => simp
  | succ n ih =>
    rw [List.range_succ, List.map_append, List.flatten_append, ih, List.map_singleton,
      List.flatten_singleton, Nat.succ_mul]
    calc l.take (n * size) ++ (l.take (n * size + size)).drop (n * size)
        = (l.take (n * size + size)).take (n * size)
            ++ (l.take (n * size + size)).drop (n * size) := by
          rw [List.take_take, min_eq_left (Nat.le_add_right _ _)]
      _ = l.take (n * size + size) := List.take_append_drop _ _

end AppendIndex
