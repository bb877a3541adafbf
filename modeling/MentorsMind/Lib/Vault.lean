import MentorsMind.Lib.Table

/-! A vault holds assets against what it owes to its accounts. The laws say how the two
sides move together when one account is settled, and what a rewrite of accounts may do. -/

structure Vault (κ τ : Type*) where
  held : τ → ℤ
  owed : κ → τ → ℤ

namespace Vault

variable {κ τ : Type*} {v w : Vault κ τ}

/-- In each asset only finitely many accounts are owed anything. -/
def Finite (v : Vault κ τ) : Prop := ∀ a, (Function.support fun k => v.owed k a).Finite

noncomputable def debt (v : Vault κ τ) (a : τ) : ℤ := ∑ᶠ k, v.owed k a

/-- The vault holds exactly what it owes. -/
structure Balanced (v : Vault κ τ) : Prop where
  finite : v.Finite
  held_eq : ∀ a, v.held a = v.debt a

/-- The vault holds at least what it owes. -/
structure Solvent (v : Vault κ τ) : Prop where
  finite : v.Finite
  debt_le : ∀ a, v.debt a ≤ v.held a

theorem Balanced.solvent (h : v.Balanced) : v.Solvent :=
  ⟨h.finite, fun a => (h.held_eq a).ge⟩

/-- One account is rewritten to `o`; the vault gains at least what it owes more. -/
structure Settles [DecidableEq κ] (v w : Vault κ τ) (k : κ) (o : τ → ℤ) : Prop where
  owed_eq : w.owed = Function.update v.owed k o
  held_le : ∀ a, v.held a + (o a - v.owed k a) ≤ w.held a

/-- As `Settles`, where the vault gains exactly what it owes more. -/
structure SettlesExactly [DecidableEq κ] (v w : Vault κ τ) (k : κ) (o : τ → ℤ) : Prop where
  owed_eq : w.owed = Function.update v.owed k o
  held_eq : ∀ a, w.held a = v.held a + (o a - v.owed k a)

section Settle

variable [DecidableEq κ] {k : κ} {o : τ → ℤ}

theorem SettlesExactly.settles (h : v.SettlesExactly w k o) : v.Settles w k o :=
  ⟨h.owed_eq, fun a => (h.held_eq a).ge⟩

theorem Finite.of_owed_update (hf : v.Finite) (h : w.owed = Function.update v.owed k o) :
    w.Finite := by
  intro a
  rw [h]
  exact PointSum.Finite.update (w := fun o : τ → ℤ => o a) (hf a) k o

/-- Rewriting one account moves the debt by the difference. -/
theorem Finite.debt_of_owed_update (hf : v.Finite) (h : w.owed = Function.update v.owed k o)
    (a : τ) : w.debt a = v.debt a + (o a - v.owed k a) := by
  rw [debt, h]
  exact PointSum.Finite.total_update (w := fun o : τ → ℤ => o a) (hf a) k o

theorem Balanced.settle (hv : v.Balanced) (h : v.SettlesExactly w k o) : w.Balanced :=
  ⟨hv.finite.of_owed_update h.owed_eq, fun a => by
    rw [h.held_eq, hv.held_eq, hv.finite.debt_of_owed_update h.owed_eq]⟩

theorem Solvent.settle (hv : v.Solvent) (h : v.Settles w k o) : w.Solvent :=
  ⟨hv.finite.of_owed_update h.owed_eq, fun a => by
    have hd := hv.debt_le a
    have hh := h.held_le a
    rw [hv.finite.debt_of_owed_update h.owed_eq]
    omega⟩

end Settle

/-- Accounts may be rewritten at will as long as none is owed more and assets stay. -/
theorem Solvent.rewrite (hv : v.Solvent) (hw : w.Finite)
    (howed : ∀ k a, w.owed k a ≤ v.owed k a) (hheld : ∀ a, v.held a ≤ w.held a) :
    w.Solvent :=
  ⟨hw, fun a => ((finsum_le_finsum' (hw a) (hv.finite a) fun k => howed k a).trans
    (hv.debt_le a)).trans (hheld a)⟩

/-- What a solvent vault holds covers each of its accounts. -/
theorem Solvent.owed_le (hv : v.Solvent) (hnonneg : ∀ k a, 0 ≤ v.owed k a) (k : κ) (a : τ) :
    v.owed k a ≤ v.held a :=
  (single_le_finsum k (hv.finite a) fun k => hnonneg k a).trans (hv.debt_le a)

/-- What a solvent vault holds covers any part of its accounts. -/
theorem Solvent.part_le {ι : Type*} {f : ι → κ} (hv : v.Solvent) (hf : f.Injective)
    (hnonneg : ∀ k a, 0 ≤ v.owed k a) (a : τ) : ∑ᶠ i, v.owed (f i) a ≤ v.held a := by
  rw [← finsum_mem_range (f := fun k => v.owed k a) hf, finsum_mem_def]
  refine le_trans ?_ (hv.debt_le a)
  have hsub : (Function.support ((Set.range f).indicator fun k => v.owed k a)) ⊆
      Function.support fun k => v.owed k a := by
    rw [Set.support_indicator]
    exact Set.inter_subset_right
  exact finsum_le_finsum' ((hv.finite a).subset hsub) (hv.finite a) fun k =>
    Set.indicator_le_self' (fun _ _ => hnonneg k a) k

end Vault
