import Mathlib

/-! Tables, as functions from keys to what is stored under them, and what one write changes. -/
namespace Table

variable {ι V : Type*} [DecidableEq ι] {m : ι → Option V} {P : ι → V → Prop} {j k : ι} {v w : V}

/-- What is stored after a write is what was written, or was stored under another key. -/
theorem update_eq_some_iff :
    Function.update m k (some v) j = some w ↔ j = k ∧ v = w ∨ j ≠ k ∧ m j = some w := by
  by_cases hj : j = k
  · simp [hj]
  · simp [hj]

theorem erase_eq_some_iff : Function.update m k none j = some w ↔ j ≠ k ∧ m j = some w := by
  by_cases hj : j = k
  · simp [hj]
  · simp [hj]

/-- What holds of every stored value still holds after one more that satisfies it. -/
theorem forall_update (hm : ∀ j x, m j = some x → P j x) (hv : P k v) :
    ∀ j x, Function.update m k (some v) j = some x → P j x := by
  intro j x hx
  obtain ⟨rfl, rfl⟩ | ⟨-, hother⟩ := update_eq_some_iff.mp hx
  · exact hv
  · exact hm j x hother

theorem update_eq_none_iff :
    Function.update m k (some v) j = none ↔ j ≠ k ∧ m j = none := by
  by_cases hj : j = k
  · simp [hj]
  · simp [hj]

/-- Rewriting a stored value stores nothing under other keys. -/
theorem none_update {p : ι → Prop} (hm : ∀ j, p j → m j = none) (hstored : m k = some v) :
    ∀ j, p j → Function.update m k (some w) j = none := by
  intro j hj
  have hne : j ≠ k := by
    rintro rfl
    simp [hm j hj] at hstored
  exact update_eq_none_iff.mpr ⟨hne, hm j hj⟩

/-- Rewriting a stored value leaves alone whatever the new one shares with it. -/
theorem map_update_eq {U : Type*} {f : V → U} (hstored : m k = some v) (hsame : f w = f v) :
    Option.map f ∘ Function.update m k (some w) = Option.map f ∘ m := by
  have hkept : Option.map f (some w) = (Option.map f ∘ m) k := by
    rw [Function.comp_apply, hstored, Option.map_some, Option.map_some, hsame]
  rw [Function.comp_update, hkept, Function.update_eq_self]

end Table

/-! Totals over a map with unboundedly many keys, of which finitely many weigh anything.
The one law used about them is how a total moves when one key is rewritten. -/
namespace PointSum

variable {ι V : Type*} {w : V → ℤ} {m : ι → V}

/-- Only finitely many keys of `m` have a nonzero weight. -/
def Finite (w : V → ℤ) (m : ι → V) : Prop := (Function.support fun i => w (m i)).Finite

noncomputable def total (w : V → ℤ) (m : ι → V) : ℤ := ∑ᶠ i, w (m i)

theorem finite_const {v : V} (h : w v = 0) : Finite w (fun _ : ι => v) := by
  simp [Finite, h]

@[simp] theorem total_const {v : V} (h : w v = 0) : total w (fun _ : ι => v) = 0 := by
  simp [total, h]

theorem Finite.update [DecidableEq ι] (h : Finite w m) (i : ι) (v : V) :
    Finite w (Function.update m i v) := by
  refine (h.union (Set.finite_singleton i)).subset ?_
  intro j hj
  by_cases hij : j = i
  · exact .inr hij
  · exact .inl (by simpa [Function.update_of_ne hij] using hj)

/-- Rewriting one key moves the total by the difference of its weights. -/
theorem Finite.total_update [DecidableEq ι] (h : Finite w m) (i : ι) (v : V) :
    total w (Function.update m i v) = total w m + (w v - w (m i)) := by
  have hd : (Function.support (Pi.single i (w v - w (m i)) : ι → ℤ)).Finite :=
    (Set.finite_singleton i).subset Pi.support_single_subset
  have hsplit : (fun j => w (Function.update m i v j)) =
      fun j => w (m j) + (Pi.single i (w v - w (m i)) : ι → ℤ) j := by
    funext j
    by_cases hij : j = i
    · subst hij; simp
    · simp [Function.update_of_ne hij, Pi.single_eq_of_ne hij]
  have hone : ∑ᶠ j, (Pi.single i (w v - w (m i)) : ι → ℤ) j = w v - w (m i) := by
    rw [finsum_eq_single _ i (fun j hj => Pi.single_eq_of_ne hj _), Pi.single_eq_same]
  rw [total, hsplit, finsum_add_distrib h hd, hone, total]

/-- Maps that weigh the same key by key have the same total. -/
theorem total_congr {U : Type*} {u : U → ℤ} {k : ι → U} (h : ∀ i, w (m i) = u (k i)) :
    total w m = total u k :=
  finsum_congr h

theorem Finite.congr {U : Type*} {u : U → ℤ} {k : ι → U} (hf : Finite u k)
    (h : ∀ i, w (m i) = u (k i)) : Finite w m := by
  have hsame : (fun i => w (m i)) = fun i => u (k i) := funext h
  rwa [Finite, hsame]

/-- The total over pairs, summed one second component after the other. -/
theorem Finite.total_eq_sum_fibers {κ : Type*} {p : ι × κ → V} (hf : Finite w p) {B : Finset κ}
    (hB : ∀ i b, w (p (i, b)) ≠ 0 → b ∈ B) :
    total w p = ∑ b ∈ B, ∑ᶠ i, w (p (i, b)) := by
  have hswapped : (Function.support fun x : κ × ι => w (p x.swap)).Finite :=
    hf.preimage Prod.swap_injective.injOn
  have hsupport : (Function.support fun b => ∑ᶠ i, w (p (i, b))) ⊆ B := by
    intro b hb
    by_contra hout
    refine hb (finsum_eq_zero_of_forall_eq_zero fun i => ?_)
    by_contra hne
    exact hout (hB i b hne)
  calc total w p = ∑ᶠ x : κ × ι, w (p x.swap) :=
        (finsum_comp_equiv (Equiv.prodComm κ ι)).symm
    _ = ∑ᶠ b, ∑ᶠ i, w (p (i, b)) := finsum_curry _ hswapped
    _ = ∑ b ∈ B, ∑ᶠ i, w (p (i, b)) := finsum_eq_sum_of_support_subset _ hsupport

theorem total_nonneg (h : ∀ i, 0 ≤ w (m i)) : 0 ≤ total w m := finsum_nonneg h

/-- No key weighs more than the total of nonnegative weights. -/
theorem Finite.le_total (hf : Finite w m) (h : ∀ i, 0 ≤ w (m i)) (i : ι) :
    w (m i) ≤ total w m := single_le_finsum i hf h

end PointSum
