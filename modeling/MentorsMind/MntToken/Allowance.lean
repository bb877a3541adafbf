import MentorsMind.MntToken.Contract

/-! The allowance ledger: what a spender has left is what the last approval gave, less
what was spent under it. -/
namespace MntToken
open Outcome Soroban

variable {Addr : Type} [DecidableEq Addr] {self : Addr}

/-- A call that rewrites the allowance of `spender` over the tokens of `owner`. -/
def Call.Approves (owner spender : Addr) : Call Addr → Prop
  | .approve o p _ _ => o = owner ∧ p = spender
  | _ => False

/-- What a successful call moves under the allowance of `spender` over `owner`. -/
def Call.spent (owner spender : Addr) : Call Addr → ℤ
  | .transferFrom p o _ amount => if o = owner ∧ p = spender then amount else 0
  | .burnFrom p o amount => if o = owner ∧ p = spender then amount else 0
  | _ => 0

/-- A payment under the allowance to somebody else moves its amount from the owner to the recipient,
and a burn takes it from the owner and from the supply. -/
def Call.Settles (owner spender : Addr) (s t : Storage Addr) : Call Addr → Prop
  | .transferFrom p o recipient amount => o = owner → p = spender → recipient ≠ owner →
      t.balance owner = s.balance owner - amount ∧
        t.balance recipient = s.balance recipient + amount
  | .burnFrom p o amount => o = owner → p = spender →
      t.balance owner = s.balance owner - amount ∧ t.totalSupply = s.totalSupply - amount
  | _ => True

/-- The total moved under the allowance by the calls of a run that succeed. -/
def spentOver (self owner spender : Addr) (s : Storage Addr)
    (steps : List (Env Addr self × Call Addr)) : ℤ :=
  (machine self).tally (fun _ step _ => step.2.spent owner spender) s steps

theorem move_allowance {s t : Storage Addr} {source recipient : Addr} {amount : ℤ}
    (h : move s source recipient amount = .ok t) : t.allowance = s.allowance := by
  simp only [move, bind_eq_ok, pure_eq_ok, i128_eq_ok] at h
  obtain ⟨_, -, _, -, rfl⟩ := h
  rfl

/-- Spending takes the amount from one allowance, which covers it, and from no other. -/
theorem spendAllowance_allowance {env : Env Addr self} {s t : Storage Addr}
    {spender source : Addr} {amount : ℤ} (owner holder : Addr)
    (h : spendAllowance env s spender source amount = .ok t) :
    t.allowance owner holder =
        s.allowance owner holder - (if source = owner ∧ spender = holder then amount else 0) ∧
      (0 ≤ s.allowance owner holder → 0 ≤ t.allowance owner holder) := by
  simp only [spendAllowance, bind_eq_ok, require_eq_ok, pure_eq_ok, requireAuth_eq_ok,
    i128_eq_ok] at h
  obtain ⟨-, -, -, -, -, -, -, hle, -, -, _, ⟨-, rfl⟩, rfl⟩ := h
  rw [Storage.setAllowance_allowance]
  by_cases hkey : source = owner ∧ spender = holder
  · obtain ⟨rfl, rfl⟩ := hkey
    simp only [and_self, if_true, true_and]
    omega
  · have hkey' : ¬ (owner = source ∧ holder = spender) := fun h' => hkey ⟨h'.1.symm, h'.2.symm⟩
    simp [hkey, hkey']

/-- A successful call that is no approval of this pair takes what it spends under the
allowance, and never more than is left. -/
theorem exec_allowance {env : Env Addr self} {call : Call Addr} {s t : Storage Addr}
    (owner spender : Addr) (hcall : ¬ call.Approves owner spender)
    (h : exec env call s = .ok t) :
    t.allowance owner spender = s.allowance owner spender - call.spent owner spender ∧
      (0 ≤ s.allowance owner spender → 0 ≤ t.allowance owner spender) := by
  have same (heq : t.allowance = s.allowance) (hzero : call.spent owner spender = 0) :
      t.allowance owner spender = s.allowance owner spender - call.spent owner spender ∧
        (0 ≤ s.allowance owner spender → 0 ≤ t.allowance owner spender) := by
    rw [heq, hzero]
    exact ⟨by ring, id⟩
  cases call with
  | initializeToken admin =>
    simp only [exec, initializeToken, bind_eq_ok, pure_eq_ok] at h
    obtain ⟨-, -, rfl⟩ := h
    exact same rfl rfl
  | mint recipient amount =>
    simp only [exec, mint, bind_eq_ok, pure_eq_ok] at h
    obtain ⟨_, -, -, -, -, -, -, -, _, -, -, -, _, -, rfl⟩ := h
    exact same rfl rfl
  | doBurn source amount =>
    simp only [exec, doBurn, bind_eq_ok, pure_eq_ok] at h
    obtain ⟨-, -, -, -, -, -, -, -, _, -, _, -, rfl⟩ := h
    exact same rfl rfl
  | burn source amount =>
    simp only [exec, burn, doBurn, bind_eq_ok, pure_eq_ok] at h
    obtain ⟨-, -, -, -, -, -, -, -, _, -, _, -, rfl⟩ := h
    exact same rfl rfl
  | setPauseGuardian admin guardian =>
    simp only [exec, setPauseGuardian, bind_eq_ok, pure_eq_ok] at h
    obtain ⟨-, -, rfl⟩ := h
    exact same rfl rfl
  | pause guardian =>
    simp only [exec, pause, bind_eq_ok, pure_eq_ok] at h
    obtain ⟨-, -, rfl⟩ := h
    exact same rfl rfl
  | unpause guardian =>
    simp only [exec, unpause, bind_eq_ok, pure_eq_ok] at h
    obtain ⟨-, -, rfl⟩ := h
    exact same rfl rfl
  | approve o p amount expiration =>
    simp only [exec, approve, bind_eq_ok, pure_eq_ok] at h
    obtain ⟨-, -, -, -, rfl⟩ := h
    have hne : ¬ (owner = o ∧ spender = p) := fun heq => hcall ⟨heq.1.symm, heq.2.symm⟩
    simp [Storage.setAllowance_allowance, hne, Call.spent]
  | transfer source recipient amount =>
    simp only [exec, transfer, bind_eq_ok] at h
    obtain ⟨-, -, -, -, -, -, -, -, hmove⟩ := h
    exact same (move_allowance hmove) rfl
  | transferFrom p o recipient amount =>
    simp only [exec, transferFrom, bind_eq_ok] at h
    obtain ⟨u, hspend, hmove⟩ := h
    rw [move_allowance hmove]
    exact spendAllowance_allowance owner spender hspend
  | burnFrom p o amount =>
    simp only [exec, burnFrom, bind_eq_ok, pure_eq_ok] at h
    obtain ⟨u, hspend, _, -, _, -, rfl⟩ := h
    have hspent := spendAllowance_allowance owner spender hspend
    exact hspent

theorem move_balance {s t : Storage Addr} {source recipient : Addr} {amount : ℤ}
    (hother : recipient ≠ source) (h : move s source recipient amount = .ok t) :
    t.balance source = s.balance source - amount ∧
      t.balance recipient = s.balance recipient + amount := by
  simp only [move, bind_eq_ok, pure_eq_ok, i128_eq_ok] at h
  obtain ⟨_, ⟨-, rfl⟩, _, ⟨-, rfl⟩, rfl⟩ := h
  simp [hother.symm]

theorem spendAllowance_kept {env : Env Addr self} {s t : Storage Addr} {spender source : Addr}
    {amount : ℤ} (h : spendAllowance env s spender source amount = .ok t) :
    t.balance = s.balance ∧ t.totalSupply = s.totalSupply := by
  simp only [spendAllowance, bind_eq_ok, pure_eq_ok] at h
  obtain ⟨-, -, -, -, -, -, -, -, -, -, _, -, rfl⟩ := h
  exact ⟨rfl, rfl⟩

theorem exec_settles {env : Env Addr self} {call : Call Addr} {s t : Storage Addr}
    (owner spender : Addr) (h : exec env call s = .ok t) : call.Settles owner spender s t := by
  cases call with
  | transferFrom p o recipient amount =>
    rintro rfl rfl hother
    simp only [exec, transferFrom, bind_eq_ok] at h
    obtain ⟨u, hspend, hmove⟩ := h
    have hmoved := move_balance hother hmove
    rwa [(spendAllowance_kept hspend).1] at hmoved
  | burnFrom p o amount =>
    rintro rfl rfl
    simp only [exec, burnFrom, bind_eq_ok, i128_eq_ok, pure_eq_ok] at h
    obtain ⟨u, hspend, _, ⟨-, rfl⟩, _, ⟨-, rfl⟩, rfl⟩ := h
    obtain ⟨hbalance, hsupply⟩ := spendAllowance_kept hspend
    simp [hbalance, hsupply]
  | _ => trivial

/-- In a run without approvals of the pair, the allowance only pays for what is spent. -/
theorem run_allowance (owner spender : Addr) (s : Storage Addr)
    (hs : 0 ≤ s.allowance owner spender) (steps : List (Env Addr self × Call Addr))
    (hnone : ∀ pre step t, (machine self).Executes s steps pre step t →
      ¬ step.2.Approves owner spender) :
    ((machine self).run s steps).allowance owner spender =
        s.allowance owner spender - spentOver self owner spender s steps ∧
      0 ≤ ((machine self).run s steps).allowance owner spender := by
  induction steps using List.reverseRecOn with
  | nil => simp [spentOver, hs]
  | append_singleton steps step ih =>
    obtain ⟨heq, hpos⟩ := ih fun pre step' t hx => hnone pre step' t (hx.append [step])
    rw [Machine.run_snoc, spentOver]
    obtain ⟨t, hx, ht⟩ | ⟨e, hx, ht⟩ :=
      Machine.apply_cases (machine self) ((machine self).run s steps) step
    · have hcall := hnone steps step t (Machine.executes_snoc hx)
      obtain ⟨hstep, hkeep⟩ := exec_allowance owner spender hcall hx
      rw [ht, Machine.tally_snoc_ok hx, hstep, heq, spentOver]
      exact ⟨by ring, by rw [← spentOver, ← heq, ← hstep]; exact hkeep hpos⟩
    · rw [ht, Machine.tally_snoc_error hx]
      exact ⟨heq, hpos⟩

/-- Since the last approval of a pair, what was moved under it and what is left add up
to what was approved, and the balances moved by it. -/
theorem allowance_since_approval (pre post : List (Env Addr self × Call Addr))
    (env : Env Addr self) (owner spender : Addr) (amount : ℤ) (expiration : ℕ)
    (t : Storage Addr)
    (happrove : exec env (.approve owner spender amount expiration)
      ((machine self).run (empty Addr) pre) = .ok t)
    (hlast : ∀ mid step u, (machine self).Executes t post mid step u →
      ¬ step.2.Approves owner spender) :
    let s := (machine self).run (empty Addr)
      (pre ++ (env, .approve owner spender amount expiration) :: post)
    spentOver self owner spender t post ≤ amount ∧
      s.allowance owner spender = amount - spentOver self owner spender t post ∧
      0 ≤ s.allowance owner spender ∧
      ∀ mid step u, (machine self).Executes t post mid step u →
        step.2.Settles owner spender ((machine self).run t mid) u := by
  have hrun : (machine self).run (empty Addr)
      (pre ++ (env, .approve owner spender amount expiration) :: post) =
        (machine self).run t post := by
    rw [Machine.run_append, Machine.run_cons, Machine.apply_ok happrove]
  have happroved := happrove
  simp only [exec, approve, bind_eq_ok, require_eq_ok, pure_eq_ok, requireAuth_eq_ok]
    at happroved
  obtain ⟨-, -, -, hamount, hset⟩ := happroved
  have hstart : t.allowance owner spender = amount := by
    rw [← hset, Storage.setAllowance_allowance]
    simp
  obtain ⟨heq, hpos⟩ := run_allowance owner spender t (hstart.symm ▸ hamount) post hlast
  intro s
  rw [hstart] at heq
  have hs : s = (machine self).run t post := hrun
  rw [hs, heq]
  rw [heq] at hpos
  exact ⟨by omega, rfl, hpos, fun mid step u hx => exec_settles owner spender hx.exec_eq⟩

/-- Address 1 holds 100 tokens and lets address 2 spend 50 of them. -/
def approvedStorage : Storage ℕ :=
  (machine 0).run (empty ℕ) [(signedByAll 0, .initializeToken 7), (signedByAll 0, .mint 1 100),
    (signedByAll 0, .approve 1 2 50 9)]

/-- Address 2 spends 20 and burns 10, and tries to spend 40 more. -/
def spendingRun : List (Env ℕ 0 × Call ℕ) :=
  [(signedByAll 1, .transferFrom 2 1 3 20), (signedByAll 2, .approve 1 3 5 9),
    (signedByAll 3, .burnFrom 2 1 10), (signedByAll 4, .transferFrom 2 1 2 40)]

theorem allowance_since_approval_spendingRun :
    spentOver 0 1 2 approvedStorage spendingRun = 30 ∧
      ((machine 0).run (empty ℕ)
        ([(signedByAll 0, .initializeToken 7), (signedByAll 0, .mint 1 100)] ++
          (signedByAll 0, .approve 1 2 50 9) :: spendingRun)).allowance 1 2 = 50 - 30 := by
  have hspent : spentOver 0 1 2 approvedStorage spendingRun = 30 := by decide
  have h := allowance_since_approval
    [(signedByAll 0, .initializeToken 7), (signedByAll 0, .mint 1 100)] spendingRun
    (signedByAll 0) 1 2 50 9 approvedStorage rfl (by
      intro mid step u hx
      have hmem := hx.mem
      simp only [spendingRun, List.mem_cons, List.not_mem_nil, or_false] at hmem
      rcases hmem with rfl | rfl | rfl | rfl <;> simp [Call.Approves])
  exact ⟨hspent, hspent ▸ h.2.1⟩

end MntToken
