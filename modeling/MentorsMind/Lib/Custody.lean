import MentorsMind.Lib.Machine

/-! A change that waits for its time, and who may take it back meanwhile. -/

/-- `vetoes` are the calls that take a pending change back, `privileged` the calls of those who may,
and a change is `ripe` at a call that comes late enough to carry it out. -/
structure Custody (σ α π : Type*) where
  pending : σ → Option π
  privileged : σ → α → Prop
  ripe : π → α → Prop
  vetoes : α → Prop

namespace Custody

variable {σ α π ε : Type*} (C : Custody σ α π) (M : Machine σ α ε)

/-- A call of somebody who may not take the change back, before its time. -/
def Outside (s : σ) (p : π) (a : α) : Prop := ¬ C.privileged s a ∧ ¬ C.ripe p a

/-- Whatever happens from the outside, a pending change stays. -/
def Unvetoed (s : σ) (as : List α) : Prop :=
  ∀ pre more p, pre ++ more <+: as → C.pending (M.run s pre) = some p →
    (∀ mid a post, more = mid ++ a :: post → C.Outside (M.run s (pre ++ mid)) p a) →
    C.pending (M.run s (pre ++ more)) = some p

/-- The vetoes of the run come from those who may, or when the change may be carried out. -/
def Respected (s : σ) (as : List α) : Prop :=
  ∀ pre a t p, M.Executes s as pre a t → C.vetoes a → C.pending (M.run s pre) = some p →
    C.privileged (M.run s pre) a ∨ C.ripe p a

variable {C M}

theorem not_outside_iff {s : σ} {p : π} {a : α} :
    ¬ C.Outside s p a ↔ C.privileged s a ∨ C.ripe p a := by
  unfold Outside
  rw [not_and_or, not_not, not_not]

/-- A single call from the outside. -/
theorem Unvetoed.stays {s : σ} {as pre : List α} {a : α} {p : π} (h : C.Unvetoed M s as)
    (hsofar : pre ++ [a] <+: as) (hpending : C.pending (M.run s pre) = some p)
    (houtside : C.Outside (M.run s pre) p a) : C.pending (M.run s (pre ++ [a])) = some p := by
  apply h pre [a] p hsofar hpending
  intro mid b post heq
  obtain ⟨rfl, hab⟩ | ⟨-, hnil⟩ := List.singleton_eq_append_iff.mp heq
  · obtain ⟨rfl, -⟩ := List.cons.inj hab
    rw [List.append_nil]
    exact houtside
  · cases hnil

/-- A pending change that is gone after a call from the outside. -/
theorem not_unvetoed {s : σ} {pre : List α} {a : α} {p : π}
    (hpending : C.pending (M.run s pre) = some p) (hforeign : ¬ C.privileged (M.run s pre) a)
    (hearly : ¬ C.ripe p a) (hgone : C.pending (M.run s (pre ++ [a])) = none) :
    ¬ C.Unvetoed M s (pre ++ [a]) := by
  intro h
  have hstays := h.stays List.prefix_rfl hpending ⟨hforeign, hearly⟩
  rw [hgone] at hstays
  cases hstays

theorem Unvetoed.respected {s : σ} {as : List α}
    (htakes : ∀ s a t, M.exec a s = .ok t → C.vetoes a → C.pending t = none)
    (h : C.Unvetoed M s as) : C.Respected M s as := by
  intro pre a t p hx hveto hpending
  rw [← not_outside_iff]
  intro houtside
  have hstays := h.stays hx.snoc_prefix hpending houtside
  rw [hx.run_eq, htakes _ a t hx.exec_eq hveto] at hstays
  cases hstays

theorem Respected.unvetoed {s : σ} {as : List α}
    (hkeeps : ∀ s a t p, M.exec a s = .ok t → C.pending s = some p → C.Outside s p a →
      ¬ C.vetoes a → C.pending t = some p) (h : C.Respected M s as) : C.Unvetoed M s as := by
  intro pre more
  induction more using List.reverseRecOn with
  | nil =>
    intro p _ hpending _
    rw [List.append_nil]
    exact hpending
  | append_singleton more a ih =>
    intro p hsofar hpending houtside
    rw [← List.append_assoc] at hsofar ⊢
    have hbefore := ih p ((List.prefix_append _ [a]).trans hsofar) hpending (by
      intro mid b post heq
      exact houtside mid b (post ++ [a]) (by rw [heq]; simp))
    have hlast := houtside more a [] rfl
    rw [Machine.run_snoc]
    obtain ⟨t, hx, ht⟩ | ⟨e, -, ht⟩ := Machine.apply_cases M (M.run s (pre ++ more)) a
    · rw [ht]
      apply hkeeps _ a t p hx hbefore hlast
      intro hveto
      exact not_outside_iff.mpr (h _ a t p ((Machine.executes_snoc hx).mono hsofar) hveto hbefore)
        hlast
    · rw [ht]
      exact hbefore

/-- Where only vetoes take a change back, outsiders cannot exactly if every veto is respected. -/
theorem unvetoed_iff {s : σ} {as : List α}
    (htakes : ∀ s a t, M.exec a s = .ok t → C.vetoes a → C.pending t = none)
    (hkeeps : ∀ s a t p, M.exec a s = .ok t → C.pending s = some p → C.Outside s p a →
      ¬ C.vetoes a → C.pending t = some p) : C.Unvetoed M s as ↔ C.Respected M s as :=
  ⟨Unvetoed.respected htakes, Respected.unvetoed hkeeps⟩

end Custody
