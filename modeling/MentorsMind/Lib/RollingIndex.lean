import Mathlib

/-! A rolling window of keys: a new key goes to the end and, once the window is full, the
oldest key falls out together with the entry stored under it. -/
namespace RollingIndex

variable {κ V : Type*} {cap : ℕ} {window : List κ} {stored : κ → Prop}

/-- The window with `k` at its end, and the key that falls out. -/
def push (cap : ℕ) (window : List κ) (k : κ) : List κ × Option κ :=
  if cap < (window ++ [k]).length then ((window ++ [k]).tail, (window ++ [k]).head?)
  else (window ++ [k], none)

theorem push_of_lt (h : window.length < cap) (k : κ) :
    push cap window k = (window ++ [k], none) := by
  unfold push
  rw [if_neg]
  simp only [List.length_append, List.length_singleton]
  omega

theorem push_of_full {oldest : κ} {rest : List κ} (h : (oldest :: rest).length = cap) (k : κ) :
    push cap (oldest :: rest) k = (rest ++ [k], some oldest) := by
  unfold push
  rw [if_pos]
  · rfl
  · simp only [List.length_append, List.length_singleton]
    omega

/-- The window lists, without repetition, the keys under which something is stored. -/
structure Faithful (cap : ℕ) (window : List κ) (stored : κ → Prop) : Prop where
  nodup : window.Nodup
  length_le : window.length ≤ cap
  mem_iff : ∀ k, k ∈ window ↔ stored k

/-- Pushing `k` repeats no key: it is new, or the one that falls out. -/
def Admits (cap : ℕ) (window : List κ) (k : κ) : Prop :=
  k ∉ window ∨ (window.length = cap ∧ window.head? = some k)

/-- What is stored once `k` is and the key that falls out no longer is. -/
def storedAfter (evicted : Option κ) (stored : κ → Prop) (k : κ) : κ → Prop :=
  fun j => j = k ∨ (stored j ∧ evicted ≠ some j)

/-- The entries once `v` is stored under `k`, after the entry of the evicted key is gone. -/
def overwrite [DecidableEq κ] (evicted : Option κ) (entries : κ → Option V) (k : κ) (v : V) :
    κ → Option V :=
  Function.update (match evicted with
    | some old => Function.update entries old none
    | none => entries) k (some v)

theorem overwrite_isSome [DecidableEq κ] (evicted : Option κ) (entries : κ → Option V) (k : κ)
    (v : V) : (fun j => (overwrite evicted entries k v j).isSome = true) =
      storedAfter evicted (fun j => (entries j).isSome = true) k := by
  funext j
  unfold overwrite storedAfter
  by_cases hj : j = k
  · simp [hj]
  · rw [Function.update_of_ne hj]
    cases evicted with
    | none => simp [hj]
    | some old =>
      by_cases hold : j = old
      · subst hold
        simp [hj]
      · have hne : ¬ old = j := fun h => hold h.symm
        simp [hj, hold, hne]

/-- One push keeps the window faithful exactly when it repeats no key. -/
theorem Faithful.push_iff (hcap : 0 < cap) (h : Faithful cap window stored) (k : κ) :
    Faithful cap (push cap window k).1 (storedAfter (push cap window k).2 stored k) ↔
      Admits cap window k := by
  rcases h.length_le.lt_or_eq with hlt | hfull
  · rw [push_of_lt hlt]
    constructor
    · intro hpushed
      have hnodup := List.nodup_append.mp hpushed.nodup
      exact .inl fun hk => hnodup.2.2 k hk k (by simp) rfl
    · rintro (hnew | ⟨hlength, -⟩)
      · refine ⟨?_, ?_, fun j => ?_⟩
        · apply List.nodup_append.mpr
          refine ⟨h.nodup, by simp, ?_⟩
          rintro a ha b hb rfl
          obtain rfl := List.mem_singleton.mp hb
          exact hnew ha
        · simp only [List.length_append, List.length_singleton]
          omega
        · simp only [List.mem_append, List.mem_singleton, h.mem_iff, storedAfter]
          tauto
      · omega
  · cases window with
    | nil =>
      simp only [List.length_nil] at hfull
      omega
    | cons oldest rest =>
      rw [push_of_full hfull]
      have hnodup := List.nodup_cons.mp h.nodup
      constructor
      · intro hpushed
        have hrest := List.nodup_append.mp hpushed.nodup
        have hk : k ∉ rest := fun hk => hrest.2.2 k hk k (by simp) rfl
        by_cases holdest : oldest = k
        · exact .inr ⟨hfull, by rw [holdest, List.head?_cons]⟩
        · refine .inl fun hmem => ?_
          rcases List.mem_cons.mp hmem with rfl | hmem
          · exact holdest rfl
          · exact hk hmem
      · intro hadmits
        have hk : k ∉ rest := by
          rcases hadmits with hnew | ⟨-, hhead⟩
          · exact fun hmem => hnew (List.mem_cons_of_mem oldest hmem)
          · obtain rfl : oldest = k := by simpa using hhead
            exact hnodup.1
        refine ⟨?_, ?_, fun j => ?_⟩
        · apply List.nodup_append.mpr
          refine ⟨hnodup.2, by simp, ?_⟩
          rintro a ha b hb rfl
          obtain rfl := List.mem_singleton.mp hb
          exact hk ha
        · simpa using hfull.le
        · have hmem := h.mem_iff j
          simp only [List.mem_cons] at hmem
          simp only [List.mem_append, List.mem_singleton, storedAfter, ← hmem, ne_eq,
            Option.some.injEq]
          constructor
          · rintro (hj | rfl)
            · right
              exact ⟨.inr hj, fun heq => hnodup.1 (heq ▸ hj)⟩
            · exact .inl rfl
          · rintro (rfl | ⟨rfl | hj, hne⟩)
            · exact .inr rfl
            · exact absurd rfl hne
            · exact .inl hj

end RollingIndex
