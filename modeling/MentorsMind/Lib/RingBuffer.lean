import Mathlib.Data.List.DropRight
import Mathlib.Tactic

/-! Ring buffers that overwrite in place: the slots, and the position of the next write. Read
from that position on and around, the slots are the last values in the order of their writes. -/

structure RingBuffer (α : Type*) where
  slots : List α
  next : ℕ

namespace RingBuffer

variable {α : Type*} {capacity : ℕ} {b : RingBuffer α} {xs : List α}

def empty : RingBuffer α := ⟨[], 0⟩

/-- The slots fill up first, and are overwritten one after the other from then on. -/
def push (capacity : ℕ) (b : RingBuffer α) (x : α) : RingBuffer α where
  slots := if b.slots.length < capacity then b.slots ++ [x] else b.slots.set b.next x
  next := (b.next + 1) % capacity

/-- The values that were written before the writes came around. -/
def older (b : RingBuffer α) : List α := b.slots.drop b.next

/-- The values written since. -/
def newer (b : RingBuffer α) : List α := b.slots.take b.next

/-- The slots hold the last values of `xs`. -/
structure Holds (capacity : ℕ) (b : RingBuffer α) (xs : List α) : Prop where
  length : b.slots.length = min xs.length capacity
  next : b.next = xs.length % capacity
  contents : b.older ++ b.newer = xs.rtake capacity

theorem newer_append_older (b : RingBuffer α) : b.newer ++ b.older = b.slots :=
  List.take_append_drop ..

theorem holds_empty (capacity : ℕ) : Holds capacity (empty : RingBuffer α) [] := by
  constructor
  · simp [empty]
  · simp [empty]
  · simp [empty, older, newer]

theorem next_succ_mod {n : ℕ} :
    (n % capacity + 1) % capacity = (n + 1) % capacity := by
  rw [Nat.add_mod, Nat.mod_mod, ← Nat.add_mod]

/-- Before the slots are full a write goes to the end. -/
theorem Holds.push_of_lt (h : Holds capacity b xs)
    (hlt : xs.length < capacity) (x : α) : Holds capacity (b.push capacity x) (xs ++ [x]) := by
  have hlength : b.slots.length = xs.length := by
    rw [h.length]
    omega
  have hnext : b.next = b.slots.length := by
    rw [h.next, Nat.mod_eq_of_lt hlt, hlength]
  have hslots : b.slots = xs := by
    have hcontents := h.contents
    rw [List.rtake, older, newer, hnext, List.drop_length, List.take_length, List.nil_append,
      show xs.length - capacity = 0 by omega, List.drop_zero] at hcontents
    exact hcontents
  have hpushed : (b.push capacity x).slots = xs ++ [x] := by
    show (if b.slots.length < capacity then b.slots ++ [x] else b.slots.set b.next x) = _
    rw [if_pos (by omega), hslots]
  have hnext' : (b.push capacity x).next = (xs.length + 1) % capacity := by
    show (b.next + 1) % capacity = _
    rw [hnext, hlength]
  constructor
  · rw [hpushed, List.length_append, List.length_singleton]
    omega
  · rw [hnext', List.length_append, List.length_singleton]
  · have hfirst : (xs ++ [x]).length - capacity = 0 := by
      rw [List.length_append, List.length_singleton]
      omega
    rw [List.rtake, older, newer, hpushed, hnext', hfirst, List.drop_zero]
    rcases Nat.lt_or_ge (xs.length + 1) capacity with hmore | hfull
    · have hall : (xs ++ [x]).length ≤ (xs.length + 1) % capacity := by
        rw [Nat.mod_eq_of_lt hmore, List.length_append, List.length_singleton]
      rw [List.drop_eq_nil_of_le hall, List.take_of_length_le hall, List.nil_append]
    · rw [show xs.length + 1 = capacity by omega, Nat.mod_self, List.drop_zero, List.take_zero,
        List.append_nil]

/-- From then on it replaces the oldest value. -/
theorem Holds.push_of_le (hpos : 0 < capacity) (h : Holds capacity b xs)
    (hle : capacity ≤ xs.length) (x : α) : Holds capacity (b.push capacity x) (xs ++ [x]) := by
  have hlength : b.slots.length = capacity := by
    rw [h.length]
    omega
  have hlt : b.next < capacity := by
    rw [h.next]
    exact Nat.mod_lt _ hpos
  have hpushed : (b.push capacity x).slots = b.slots.set b.next x :=
    if_neg (by omega)
  have hnext' : (b.push capacity x).next = (b.next + 1) % capacity := rfl
  constructor
  · rw [hpushed, List.length_set, hlength, List.length_append, List.length_singleton]
    omega
  · rw [hnext', h.next, next_succ_mod, List.length_append, List.length_singleton]
  · -- The oldest value leaves at the front and the new one joins at the end.
    have hrest : b.slots.drop (b.next + 1) ++ b.slots.take b.next =
        xs.drop (xs.length - capacity + 1) := by
      have htail := congrArg List.tail h.contents
      rw [List.rtake, older, newer, List.drop_eq_getElem_cons (by omega), List.cons_append, List.tail_cons,
        List.tail_drop] at htail
      exact htail
    have hturn : (b.slots.set b.next x).drop ((b.next + 1) % capacity) ++
        (b.slots.set b.next x).take ((b.next + 1) % capacity) =
          b.slots.drop (b.next + 1) ++ b.slots.take b.next ++ [x] := by
      have htake : (b.slots.set b.next x).take (b.next + 1) = b.slots.take b.next ++ [x] := by
        rw [List.take_succ_eq_append_getElem (by rw [List.length_set]; omega),
          List.getElem_set_self, List.take_set_of_le le_rfl]
      rcases Nat.lt_or_ge (b.next + 1) capacity with hmore | hfull
      · rw [Nat.mod_eq_of_lt hmore, List.drop_set_of_lt (Nat.lt_succ_self _), htake,
          List.append_assoc]
      · have hend : b.next + 1 = capacity := by omega
        have hall : (b.slots.set b.next x).take (b.next + 1) = b.slots.set b.next x :=
          List.take_of_length_le (by rw [List.length_set]; omega)
        rw [hend, Nat.mod_self, List.drop_zero, List.take_zero, List.append_nil, ← hend,
          List.drop_eq_nil_of_le (by omega), List.nil_append, ← htake, hall]
    rw [List.rtake, older, newer, hpushed, hnext', hturn, hrest, List.length_append, List.length_singleton,
      show xs.length + 1 - capacity = xs.length - capacity + 1 by omega,
      List.drop_append_of_le_length (by omega)]

theorem Holds.push (hpos : 0 < capacity) (h : Holds capacity b xs) (x : α) :
    Holds capacity (b.push capacity x) (xs ++ [x]) := by
  rcases Nat.lt_or_ge xs.length capacity with hlt | hle
  · exact h.push_of_lt hlt x
  · exact h.push_of_le hpos hle x

end RingBuffer
