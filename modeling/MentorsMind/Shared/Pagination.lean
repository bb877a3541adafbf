import Mathlib
import MentorsMind.Lib.AppendIndex
import MentorsMind.Soroban.Host

/-! The page windows that the paginated views share. -/
namespace Shared.Pagination

def maxPageSize : ℕ := 50

/-- A limit of zero counts as one. -/
def clampLimit (limit : ℕ) : ℕ :=
  if limit = 0 then 1 else if maxPageSize < limit then maxPageSize else limit

def bounds (total offset limit : ℕ) : ℕ × ℕ :=
  let limit := clampLimit limit
  if total ≤ offset then (total, total)
  else (offset, if total - offset ≤ limit then total else offset + limit)

theorem clampLimit_pos (limit : ℕ) : 0 < clampLimit limit := by
  unfold clampLimit maxPageSize
  split_ifs <;> omega

theorem clampLimit_of_pos {limit : ℕ} (h : 0 < limit) :
    clampLimit limit = min limit maxPageSize := by
  unfold clampLimit
  split_ifs with hzero hmax
  · omega
  · rw [min_eq_right (le_of_lt hmax)]
  · rw [min_eq_left (not_lt.mp hmax)]

/-- A page holds as many positions as the limit allows. -/
theorem bounds_eq (total offset limit : ℕ) : bounds total offset limit =
    (min offset total, min (offset + clampLimit limit) total) := by
  have hpos := clampLimit_pos limit
  show (if total ≤ offset then (total, total)
    else (offset, if total - offset ≤ clampLimit limit then total
      else offset + clampLimit limit)) = _
  split_ifs with hout hlast
  · rw [min_eq_right hout, min_eq_right (by omega)]
  · rw [min_eq_left (by omega), min_eq_right (by omega)]
  · rw [min_eq_left (by omega), min_eq_left (by omega)]

end Shared.Pagination

/-! Views that list ids page by page, and when their pages list what they should. -/
namespace Shared.Listings
open Outcome Soroban

/-- The first `n` pages of a view at a limit, one after the other. -/
def concatenated (view : ℕ → ℕ → Result (List ℕ)) (limit n : ℕ) : Result (List ℕ) :=
  List.flatten <$>
    (List.range n).mapM fun k => view (k * Pagination.clampLimit limit) limit

/-- At every limit, pages that reach beyond `total` positions list the ids that `holds` is true
of, each once. -/
def ListsExactly (view : ℕ → ℕ → Result (List ℕ)) (total : ℕ) (holds : ℕ → Prop) : Prop :=
  ∀ limit n, total ≤ n * Pagination.clampLimit limit → ∃ ids,
    concatenated view limit n = .ok ids ∧ ids.Nodup ∧ ∀ id, id ∈ ids ↔ holds id

variable {κ : Type*} {entry : κ × ℕ → Option ℕ} {listed : κ → List ℕ} {label : κ}

/-- The window that `bounds` gives on the list of a label. -/
theorem page_eq (h : AppendIndex entry listed) (offset limit : ℕ) :
    let window := Pagination.bounds (listed label).length offset limit
    ((List.range' window.1 (window.2 - window.1)).filterMap fun i => entry (label, i)) =
      ((listed label).take (offset + Pagination.clampLimit limit)).drop offset := by
  intro window
  have hwindow : window = (min offset (listed label).length,
      min (offset + Pagination.clampLimit limit) (listed label).length) :=
    Pagination.bounds_eq ..
  rw [hwindow]
  exact h.window_eq label offset (Pagination.clampLimit limit)

variable {view : ℕ → ℕ → Result (List ℕ)}

theorem concatenated_eq {ids : List ℕ}
    (hview : ∀ offset limit, view offset limit =
      .ok ((ids.take (offset + Pagination.clampLimit limit)).drop offset)) (limit n : ℕ) :
    concatenated view limit n = .ok (ids.take (n * Pagination.clampLimit limit)) := by
  unfold concatenated
  rw [mapM_eq_ok_map (fun k _ => hview (k * Pagination.clampLimit limit) limit)]
  exact congrArg Except.ok
    (AppendIndex.flatten_pages ids (Pagination.clampLimit limit) n)

/-- A view that shows windows of a list without repetitions is exact if the list is. -/
theorem listsExactly_iff {ids : List ℕ} {holds : ℕ → Prop}
    (hview : ∀ offset limit, view offset limit =
      .ok ((ids.take (offset + Pagination.clampLimit limit)).drop offset)) (hnodup : ids.Nodup) :
    ListsExactly view ids.length holds ↔ ∀ id, id ∈ ids ↔ holds id := by
  have hall : ∀ limit n, ids.length ≤ n * Pagination.clampLimit limit →
      concatenated view limit n = .ok ids := by
    intro limit n hn
    rw [concatenated_eq hview, List.take_of_length_le hn]
  constructor
  · intro hexact
    obtain ⟨found, hfound, -, hmem⟩ := hexact 1 ids.length (by simp [Pagination.clampLimit,
      Pagination.maxPageSize])
    rw [hall 1 _ (by simp [Pagination.clampLimit, Pagination.maxPageSize])] at hfound
    obtain rfl := Except.ok.inj hfound
    exact hmem
  · intro hmem limit n hn
    exact ⟨ids, hall limit n hn, hnodup, hmem⟩

end Shared.Listings
