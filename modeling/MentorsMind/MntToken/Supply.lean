import MentorsMind.MntToken.Contract
import MentorsMind.Lib.Table

/-! Conservation of the supply. Every call that succeeds is an issue, a burn, a move or
leaves the ledger alone, and only a move from an address to itself breaks the sum. -/
namespace MntToken
open Outcome Soroban

variable {Addr : Type} {self : Addr}

/-- The balances add up to the supply, which stays within its cap. -/
structure LedgerInvariant (s : Storage Addr) : Prop where
  finite : (Function.support s.balance).Finite
  sum_eq : ∑ᶠ a, s.balance a = s.totalSupply
  balance_nonneg : ∀ a, 0 ≤ s.balance a
  supply_nonneg : 0 ≤ s.totalSupply
  supply_le_cap : s.totalSupply ≤ supplyCap

/-- A transfer whose source is also its destination. -/
def Call.IsSelfTransfer : Call Addr → Prop
  | .transfer source recipient _ => recipient.address = source
  | .transferFrom _ source recipient _ => recipient = source
  | _ => False

theorem empty_ledgerInvariant : LedgerInvariant (empty Addr) :=
  ⟨by simp [empty], by simp [empty], by simp [empty], by simp [empty],
    by simp [empty, supplyCap]⟩

/-- Before `initialize` there is nothing to move. -/
def Unissued (s : Storage Addr) : Prop :=
  s.admin = none → s.totalSupply = 0 ∧ ∀ a, s.balance a = 0

variable [DecidableEq Addr]

/-- What a successful call does to the balances and the supply. -/
inductive LedgerChange (call : Call Addr) (s t : Storage Addr) : Prop
  | same (hcall : ¬ call.IsSelfTransfer) (hbalance : t.balance = s.balance)
      (hsupply : t.totalSupply = s.totalSupply)
  | issued (a : Addr) (n : ℤ) (hcall : ¬ call.IsSelfTransfer) (hadmin : s.admin ≠ none)
      (hn : 0 < n)
      (hcap : s.totalSupply + n ≤ supplyCap)
      (hbalance : t.balance = Function.update s.balance a (s.balance a + n))
      (hsupply : t.totalSupply = s.totalSupply + n)
  | burned (a : Addr) (n : ℤ) (hcall : ¬ call.IsSelfTransfer) (hn : 0 < n)
      (hle : n ≤ s.balance a)
      (hbalance : t.balance = Function.update s.balance a (s.balance a - n))
      (hsupply : t.totalSupply = s.totalSupply - n)
  | moved (a b : Addr) (n : ℤ) (hcall : call.IsSelfTransfer ↔ b = a) (hn : 0 < n)
      (hle : n ≤ s.balance a)
      (hbalance : t.balance = Function.update (Function.update s.balance a (s.balance a - n))
        b (s.balance b + n))
      (hsupply : t.totalSupply = s.totalSupply)

theorem exec_ledgerChange {env : Env Addr self} {call : Call Addr} {s t : Storage Addr}
    (hu : Unissued s) (h : exec env call s = .ok t) :
    LedgerChange call s t ∧ (t.admin = none → s.admin = none) := by
  cases call with
  | initializeToken admin =>
    simp only [exec, initializeToken, bind_eq_ok, require_eq_ok, pure_eq_ok] at h
    obtain ⟨-, hadmin, rfl⟩ := h
    exact ⟨.same id rfl (hu hadmin).1.symm, fun _ => hadmin⟩
  | mint recipient amount =>
    simp only [exec, mint, bind_eq_ok, require_eq_ok, pure_eq_ok, expect_eq_ok,
      requireAuth_eq_ok, checkedI128_eq_ok, i128_eq_ok] at h
    obtain ⟨_, hadmin, -, -, -, -, -, hn, _, ⟨-, rfl⟩, -, hcap, _, ⟨-, rfl⟩, rfl⟩ := h
    exact ⟨.issued recipient amount id (by simp [hadmin]) hn hcap rfl rfl, id⟩
  | doBurn source amount =>
    simp only [exec, doBurn, bind_eq_ok, require_eq_ok, pure_eq_ok, requireAuth_eq_ok,
      i128_eq_ok] at h
    obtain ⟨-, -, -, -, -, hn, -, hle, _, ⟨-, rfl⟩, _, ⟨-, rfl⟩, rfl⟩ := h
    exact ⟨.burned source amount id hn hle rfl rfl, id⟩
  | burn source amount =>
    simp only [exec, burn, doBurn, bind_eq_ok, require_eq_ok, pure_eq_ok, requireAuth_eq_ok,
      i128_eq_ok] at h
    obtain ⟨-, -, -, -, -, hn, -, hle, _, ⟨-, rfl⟩, _, ⟨-, rfl⟩, rfl⟩ := h
    exact ⟨.burned source amount id hn hle rfl rfl, id⟩
  | setPauseGuardian admin guardian =>
    simp only [exec, setPauseGuardian, bind_eq_ok, pure_eq_ok] at h
    obtain ⟨-, -, rfl⟩ := h
    exact ⟨.same id rfl rfl, id⟩
  | pause guardian =>
    simp only [exec, pause, bind_eq_ok, pure_eq_ok] at h
    obtain ⟨-, -, rfl⟩ := h
    exact ⟨.same id rfl rfl, id⟩
  | unpause guardian =>
    simp only [exec, unpause, bind_eq_ok, pure_eq_ok] at h
    obtain ⟨-, -, rfl⟩ := h
    exact ⟨.same id rfl rfl, id⟩
  | approve owner spender amount expiration =>
    simp only [exec, approve, bind_eq_ok, pure_eq_ok] at h
    obtain ⟨-, -, -, -, rfl⟩ := h
    exact ⟨.same id rfl rfl, id⟩
  | transfer source recipient amount =>
    simp only [exec, transfer, move, bind_eq_ok, require_eq_ok, pure_eq_ok, requireAuth_eq_ok,
      i128_eq_ok] at h
    obtain ⟨-, -, -, -, -, hn, -, hle, _, ⟨-, rfl⟩, _, ⟨-, rfl⟩, rfl⟩ := h
    exact ⟨.moved source recipient.address amount Iff.rfl hn hle rfl rfl, id⟩
  | transferFrom spender source recipient amount =>
    simp only [exec, transferFrom, spendAllowance, move, bind_eq_ok, require_eq_ok, pure_eq_ok,
      requireAuth_eq_ok, i128_eq_ok] at h
    obtain ⟨_, ⟨-, -, -, -, -, hn, -, -, -, hle, _, -, rfl⟩, _, ⟨-, rfl⟩, _, ⟨-, rfl⟩, rfl⟩ := h
    exact ⟨.moved source recipient amount Iff.rfl hn hle rfl rfl, id⟩
  | burnFrom spender source amount =>
    simp only [exec, burnFrom, spendAllowance, bind_eq_ok, require_eq_ok, pure_eq_ok,
      requireAuth_eq_ok, i128_eq_ok] at h
    obtain ⟨_, ⟨-, -, -, -, -, hn, -, -, -, hle, _, -, rfl⟩, _, ⟨-, rfl⟩, _, ⟨-, rfl⟩, rfl⟩ := h
    exact ⟨.burned source amount id hn hle rfl rfl, id⟩

theorem exec_unissued {env : Env Addr self} {call : Call Addr} {s t : Storage Addr}
    (hu : Unissued s) (h : exec env call s = .ok t) : Unissued t := by
  obtain ⟨hc, hadmin⟩ := exec_ledgerChange hu h
  intro ht
  obtain ⟨hsupply, hbalance⟩ := hu (hadmin ht)
  cases hc with
  | same _ hb hs => rw [hs, hb]; exact ⟨hsupply, hbalance⟩
  | issued _ _ _ hsome => exact absurd (hadmin ht) hsome
  | burned a n _ hn hle => have := hbalance a; omega
  | moved a _ n _ hn hle => have := hbalance a; omega

section Totals

variable {s t : Storage Addr}

/-- The sum after one balance is rewritten. -/
private theorem sum_update (h : LedgerInvariant s) (a : Addr) (n : ℤ) :
    ∑ᶠ b, Function.update s.balance a n b = s.totalSupply + (n - s.balance a) := by
  rw [← h.sum_eq]
  exact PointSum.Finite.total_update (w := id) h.finite a n

private theorem finite_update (h : (Function.support s.balance).Finite) (a : Addr) (n : ℤ) :
    (Function.support (Function.update s.balance a n)).Finite :=
  PointSum.Finite.update (w := id) h a n

private theorem sum_update_update (h : LedgerInvariant s) (a b : Addr) (n m : ℤ) :
    ∑ᶠ c, Function.update (Function.update s.balance a n) b m c =
      s.totalSupply + (n - s.balance a) + (m - Function.update s.balance a n b) := by
  rw [← sum_update h a n]
  exact PointSum.Finite.total_update (w := id) (finite_update h.finite a n) b m

/-- A call that is no self-transfer keeps the ledger balanced. -/
theorem LedgerChange.preserves {call : Call Addr} (hc : LedgerChange call s t)
    (hself : ¬ call.IsSelfTransfer) (h : LedgerInvariant s) : LedgerInvariant t := by
  have hcap := h.supply_le_cap
  have hnonneg := h.supply_nonneg
  cases hc with
  | same _ hb hs => exact ⟨hb ▸ h.finite, by rw [hb, hs, h.sum_eq], hb ▸ h.balance_nonneg,
      hs ▸ hnonneg, hs ▸ hcap⟩
  | issued a n _ _ hn hle hb hs =>
    refine ⟨hb ▸ finite_update h.finite a _, ?_, fun c => ?_, by omega, by omega⟩
    · rw [hb, hs, sum_update h]; ring
    · have hc := h.balance_nonneg c
      have ha := h.balance_nonneg a
      rw [hb, Function.update_apply]
      split_ifs <;> omega
  | burned a n _ hn hle hb hs =>
    have hsum : ∑ᶠ c, t.balance c = t.totalSupply := by rw [hb, hs, sum_update h]; ring
    have hpos : ∀ c, 0 ≤ t.balance c := by
      intro c
      have hc := h.balance_nonneg c
      rw [hb, Function.update_apply]
      split_ifs <;> omega
    refine ⟨hb ▸ finite_update h.finite a _, hsum, hpos, ?_, by omega⟩
    rw [← hsum]
    exact finsum_nonneg hpos
  | moved a b n hcall hn hle hb hs =>
    have hab : b ≠ a := fun heq => hself (hcall.mpr heq)
    refine ⟨?_, ?_, fun c => ?_, hs ▸ hnonneg, hs ▸ hcap⟩
    · rw [hb]
      exact PointSum.Finite.update (w := id) (finite_update h.finite a _) b _
    · rw [hb, hs, sum_update_update h, Function.update_of_ne hab]; ring
    · have hc := h.balance_nonneg c
      have hb' := h.balance_nonneg b
      rw [hb, Function.update_apply, Function.update_apply]
      split_ifs <;> omega

/-- A self-transfer adds its amount to the sum and leaves the supply alone. -/
theorem LedgerChange.breaks {call : Call Addr} (hc : LedgerChange call s t)
    (hself : call.IsSelfTransfer) (h : LedgerInvariant s) : ¬ LedgerInvariant t := by
  intro ht
  cases hc with
  | same hcall => exact hcall hself
  | issued _ _ hcall => exact hcall hself
  | burned _ _ hcall => exact hcall hself
  | moved a b n hcall hn _ hb hs =>
    obtain rfl := hcall.mp hself
    have hsum := ht.sum_eq
    rw [hb, hs, sum_update_update h, Function.update_self] at hsum
    omega

end Totals

/-- The ledger stays balanced through a run exactly when no self-transfer of the run
succeeds. -/
theorem ledgerInvariant_run_iff (steps : List (Env Addr self × Call Addr)) :
    (∀ pre, pre <+: steps → LedgerInvariant ((machine self).run (empty Addr) pre)) ↔
      ∀ pre step t, (machine self).Executes (empty Addr) steps pre step t →
        ¬ step.2.IsSelfTransfer := by
  have hunissued : ∀ pre, Unissued ((machine self).run (empty Addr) pre) :=
    Machine.run_invariant (fun _ => ⟨rfl, fun _ => rfl⟩) fun _ _ _ hu hx => exec_unissued hu hx
  constructor
  · rintro h pre step t ⟨post, rfl, hx⟩ hself
    have hbefore := h pre (List.prefix_append pre _)
    have hafter := h (pre ++ [step]) ⟨post, by simp⟩
    rw [(Machine.executes_snoc hx).run_eq] at hafter
    exact (exec_ledgerChange (hunissued pre) hx).1.breaks hself hbefore hafter
  · intro h
    refine Machine.run_invariant_of_executes empty_ledgerInvariant ?_
    intro pre step t hx hinv
    exact (exec_ledgerChange (hunissued pre) hx.exec_eq).1.preserves (h pre step t hx) hinv

/-- Address 1 is paid 100 tokens and transfers all of them to itself. -/
def selfTransferRun : List (Env ℕ 0 × Call ℕ) :=
  [(signedByAll 0, .initializeToken 7), (signedByAll 0, .mint 1 100),
    (signedByAll 0, .transfer 1 ⟨1, none⟩ 100)]

/-- Afterwards it holds 200 of a supply of 100. -/
theorem selfTransferRun_breaks_ledger :
    ¬ LedgerInvariant ((machine 0).run (empty ℕ) selfTransferRun) := by
  intro h
  have hbalance : ((machine 0).run (empty ℕ) selfTransferRun).balance 1 = 200 := by decide
  have hsupply : ((machine 0).run (empty ℕ) selfTransferRun).totalSupply = 100 := by decide
  have hle := single_le_finsum 1 h.finite h.balance_nonneg
  rw [h.sum_eq, hsupply, hbalance] at hle
  omega

end MntToken
