import Mathlib

/-! Guards and lookups of fallible functions, with the inversion rules that read a
successful outcome back as the conjunction of everything it passed. -/
namespace Outcome
universe u v

variable {ε : Type u} {α β : Type v}

/-- Passes when `p` holds and fails with `e` otherwise. -/
def require (p : Prop) [Decidable p] (e : ε) : Except ε Unit :=
  if p then .ok () else .error e

/-- The value of a lookup, or the failure `e` when there is none. -/
def expect (o : Option α) (e : ε) : Except ε α :=
  match o with
  | some a => .ok a
  | none => .error e

@[simp] theorem bind_eq_ok {x : Except ε α} {f : α → Except ε β} {b : β} :
    (x >>= f) = .ok b ↔ ∃ a, x = .ok a ∧ f a = .ok b := by
  cases x with
  | ok a => simp [bind, Except.bind]
  | error e => simp [bind, Except.bind]

theorem ok_bind {a : α} {f : α → Except ε β} : ((.ok a : Except ε α) >>= f) = f a := rfl

@[simp] theorem pure_eq_ok {a b : α} : (pure a : Except ε α) = .ok b ↔ a = b := by
  simp [pure, Except.pure]

@[simp] theorem map_eq_ok {x : Except ε α} {f : α → β} {b : β} :
    (f <$> x) = .ok b ↔ ∃ a, x = .ok a ∧ f a = b := by
  cases x with
  | ok a => simp [Functor.map, Except.map]
  | error e => simp [Functor.map, Except.map]

@[simp] theorem require_eq_ok {p : Prop} [Decidable p] {e : ε} {u : Unit} :
    require p e = .ok u ↔ p := by
  by_cases h : p
  · simp [require, h]
  · simp [require, h]

@[simp] theorem expect_eq_ok {o : Option α} {e : ε} {a : α} :
    expect o e = .ok a ↔ o = some a := by
  cases o with
  | some b => simp [expect]
  | none => simp [expect]

@[simp] theorem error_ne_ok {e : ε} {a : α} : (.error e : Except ε α) = .ok a ↔ False := by
  simp

@[simp] theorem throw_ne_ok {e : ε} {a : α} : (throw e : Except ε α) = .ok a ↔ False := by
  simp [throw, throwThe, MonadExceptOf.throw]

section Loops

variable {f : β → α → Except ε β} {P : List α → β → Prop} {as : List α} {b : β}

/-- A loop that succeeds keeps what each of its rounds keeps, where `P` also speaks of the
entries that were visited. -/
theorem foldlM_induction (h0 : P [] b)
    (hstep : ∀ visited a rest c d, as = visited ++ a :: rest → P visited c → f c a = .ok d →
      P (visited ++ [a]) d) {r : β} (h : as.foldlM f b = .ok r) : P as r := by
  have hall : ∀ rest visited c, as = visited ++ rest → P visited c →
      rest.foldlM f c = .ok r → P as r := by
    intro rest
    induction rest with
    | nil =>
      intro visited c heq hc hr
      rw [List.append_nil] at heq
      rw [List.foldlM_nil, pure_eq_ok] at hr
      rw [heq, ← hr]
      exact hc
    | cons a rest ih =>
      intro visited c heq hc hr
      rw [List.foldlM_cons, bind_eq_ok] at hr
      obtain ⟨d, hd, hr⟩ := hr
      exact ih (visited ++ [a]) d (by rw [heq]; simp) (hstep visited a rest c d heq hc hd) hr
  exact hall as [] b rfl h0 h

/-- A loop succeeds when each of its rounds does. -/
theorem foldlM_isOk (h0 : P [] b)
    (hstep : ∀ visited a rest c, as = visited ++ a :: rest → P visited c →
      ∃ d, f c a = .ok d ∧ P (visited ++ [a]) d) : ∃ r, as.foldlM f b = .ok r ∧ P as r := by
  have hall : ∀ rest visited c, as = visited ++ rest → P visited c →
      ∃ r, rest.foldlM f c = .ok r ∧ P as r := by
    intro rest
    induction rest with
    | nil =>
      intro visited c heq hc
      rw [List.append_nil] at heq
      rw [heq]
      exact ⟨c, rfl, hc⟩
    | cons a rest ih =>
      intro visited c heq hc
      obtain ⟨d, hd, hvisited⟩ := hstep visited a rest c heq hc
      obtain ⟨r, hr, has⟩ := ih (visited ++ [a]) d (by rw [heq]; simp) hvisited
      refine ⟨r, ?_, has⟩
      rw [List.foldlM_cons, hd]
      exact hr
  exact hall as [] b rfl h0

end Loops

section Traversals

variable {f : α → Except ε β} {g : α → β} {as : List α} {bs : List β}

theorem mapM_eq_ok_map (h : ∀ a ∈ as, f a = .ok (g a)) : as.mapM f = .ok (as.map g) := by
  induction as with
  | nil => rfl
  | cons a as ih =>
    obtain ⟨ha, has⟩ := List.forall_mem_cons.mp h
    rw [List.mapM_cons, ha, ih has]
    rfl

/-- A traversal that succeeds does so at each entry. -/
theorem isOk_of_mapM_eq_ok (h : as.mapM f = .ok bs) : ∀ a ∈ as, ∃ b, f a = .ok b := by
  induction as generalizing bs with
  | nil =>
    intro a ha
    cases ha
  | cons a as ih =>
    rw [List.mapM_cons] at h
    simp only [bind_eq_ok, pure_eq_ok] at h
    obtain ⟨b, hb, rest, hrest, -⟩ := h
    rw [List.forall_mem_cons]
    exact ⟨⟨b, hb⟩, ih hrest⟩

end Traversals

end Outcome
