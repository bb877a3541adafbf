import MentorsMind.Soroban.Host

/-! The token contracts that a contract pays through, seen from outside: honest ledgers
that move exactly what is asked and may refuse. Every transfer is kept on record. -/
namespace Soroban
open Outcome

variable {Addr : Type}

structure Transfer (Addr : Type) where
  token : Addr
  source : Addr
  recipient : Addr
  amount : ℤ

structure Tokens (Addr : Type) where
  balance : Addr → Addr → ℤ
  transfers : List (Transfer Addr)

namespace Tokens

variable [DecidableEq Addr]

/-- What one transfer adds to the balance of `holder` in `token`. -/
def flow (x : Transfer Addr) (token holder : Addr) : ℤ :=
  if x.token = token then
    (if x.recipient = holder then x.amount else 0) - (if x.source = holder then x.amount else 0)
  else 0

/-- `token::Client::transfer`. The token contract may refuse for reasons of its own. -/
def transfer (accepts : Transfer Addr → Bool) (tokens : Tokens Addr)
    (token source recipient : Addr) (amount : ℤ) : Result (Tokens Addr) := do
  let x : Transfer Addr := ⟨token, source, recipient, amount⟩
  require (0 ≤ amount) .subcall
  require (amount ≤ tokens.balance token source) .subcall
  require (accepts x = true) .subcall
  pure ⟨fun t a => tokens.balance t a + flow x t a, x :: tokens.transfers⟩

/-- What `payer` pays in `token` by these transfers to the addresses that satisfy `p`. -/
def paidBy (token payer : Addr) (p : Addr → Prop) [DecidablePred p] :
    List (Transfer Addr) → ℤ
  | [] => 0
  | x :: xs =>
      paidBy token payer p xs +
        if x.token = token ∧ x.source = payer ∧ p x.recipient then x.amount else 0

/-- One more payment takes nothing back. -/
theorem paidBy_le_cons {token payer : Addr} {p : Addr → Prop} [DecidablePred p]
    {x : Transfer Addr} {xs : List (Transfer Addr)} (hx : 0 ≤ x.amount) :
    paidBy token payer p xs ≤ paidBy token payer p (x :: xs) := by
  rw [paidBy]
  split_ifs <;> omega

/-- All that `payer` paid in `token` so far. -/
def sent (tokens : Tokens Addr) (token payer : Addr) : ℤ :=
  paidBy token payer (fun _ => True) tokens.transfers

/-- What `payer` paid to itself in `token` so far. -/
def looped (tokens : Tokens Addr) (token payer : Addr) : ℤ :=
  paidBy token payer (fun recipient => recipient = payer) tokens.transfers

theorem transfer_eq_ok {accepts : Transfer Addr → Bool} {tokens tokens' : Tokens Addr}
    {token source recipient : Addr} {amount : ℤ}
    (h : tokens.transfer accepts token source recipient amount = .ok tokens') :
    0 ≤ amount ∧ amount ≤ tokens.balance token source ∧
      tokens' = ⟨fun t a => tokens.balance t a + flow ⟨token, source, recipient, amount⟩ t a,
        ⟨token, source, recipient, amount⟩ :: tokens.transfers⟩ := by
  simp only [transfer, bind_eq_ok, require_eq_ok, pure_eq_ok] at h
  obtain ⟨-, hpos, -, hle, -, -, rfl⟩ := h
  exact ⟨hpos, hle, rfl⟩

/-- What `holder` gains by a payment of somebody else to it. -/
theorem balance_of_paid_in {accepts : Transfer Addr → Bool} {tokens tokens' : Tokens Addr}
    {token source holder : Addr} {amount : ℤ} (hne : source ≠ holder)
    (h : tokens.transfer accepts token source holder amount = .ok tokens') (t : Addr) :
    tokens'.balance t holder = tokens.balance t holder + if t = token then amount else 0 := by
  obtain ⟨-, -, rfl⟩ := transfer_eq_ok h
  simp [flow, hne, eq_comm (a := t)]

/-- What `holder` loses by a payment to somebody else. -/
theorem balance_of_paid_out {accepts : Transfer Addr → Bool} {tokens tokens' : Tokens Addr}
    {token holder recipient : Addr} {amount : ℤ} (hne : recipient ≠ holder)
    (h : tokens.transfer accepts token holder recipient amount = .ok tokens') (t : Addr) :
    tokens'.balance t holder = tokens.balance t holder - if t = token then amount else 0 := by
  obtain ⟨-, -, rfl⟩ := transfer_eq_ok h
  simp only [flow, hne, if_false, if_true, eq_comm (a := t)]
  split_ifs <;> omega

/-- The balance of `holder` without what it paid to itself. -/
def net (tokens : Tokens Addr) (token holder : Addr) : ℤ :=
  tokens.balance token holder - tokens.looped token holder

/-- Between two ledgers `holder` received `received` and paid `spent`, all in `token`. -/
structure Flow (holder token : Addr) (received spent : ℤ) (before after : Tokens Addr) :
    Prop where
  net_eq : ∀ t, after.net t holder =
    before.net t holder + if t = token then received - spent else 0
  sent_eq : ∀ t, after.sent t holder = before.sent t holder + if t = token then spent else 0
  looped_le : ∀ t, before.looped t holder ≤ after.looped t holder

theorem Flow.refl (holder token : Addr) (tokens : Tokens Addr) :
    Flow holder token 0 0 tokens tokens :=
  ⟨fun t => by simp, fun t => by simp, fun _ => le_rfl⟩

theorem Flow.trans {holder token : Addr} {r r' p p' : ℤ} {a b c : Tokens Addr}
    (h : Flow holder token r p a b) (h' : Flow holder token r' p' b c) :
    Flow holder token (r + r') (p + p') a c := by
  refine ⟨fun t => ?_, fun t => ?_, fun t => (h.looped_le t).trans (h'.looped_le t)⟩
  · rw [h'.net_eq, h.net_eq]
    split_ifs <;> ring
  · rw [h'.sent_eq, h.sent_eq]
    split_ifs <;> ring

/-- A payment of `holder`, whoever it goes to. -/
theorem transfer_flow_out {accepts : Transfer Addr → Bool} {tokens tokens' : Tokens Addr}
    {token holder recipient : Addr} {amount : ℤ}
    (h : tokens.transfer accepts token holder recipient amount = .ok tokens') :
    Flow holder token 0 amount tokens tokens' := by
  obtain ⟨hamount, -, rfl⟩ := transfer_eq_ok h
  refine ⟨fun t => ?_, fun t => ?_, fun t => paidBy_le_cons hamount⟩
  · simp only [net, looped, paidBy, flow, eq_comm (a := t), true_and]
    split_ifs <;> first | omega | tauto
  · simp only [sent, paidBy, eq_comm (a := t), and_true]

/-- A payment of somebody else to `holder`. -/
theorem transfer_flow_in {accepts : Transfer Addr → Bool} {tokens tokens' : Tokens Addr}
    {token source holder : Addr} {amount : ℤ} (hne : source ≠ holder)
    (h : tokens.transfer accepts token source holder amount = .ok tokens') :
    Flow holder token amount 0 tokens tokens' := by
  obtain ⟨hamount, -, rfl⟩ := transfer_eq_ok h
  refine ⟨fun t => ?_, fun t => ?_, fun t => paidBy_le_cons hamount⟩
  · simp only [net, looped, paidBy, flow, hne, eq_comm (a := t), if_true, if_false, false_and,
      and_false]
    split_ifs <;> omega
  · simp [sent, paidBy, hne]

/-- The holder loses no more than it paid. -/
theorem Flow.le_balance {holder token : Addr} {received spent : ℤ} {before after : Tokens Addr}
    (h : Flow holder token received spent before after) :
    before.balance token holder + received - spent ≤ after.balance token holder := by
  have hnet := h.net_eq token
  have hlooped := h.looped_le token
  simp only [net, if_true] at hnet
  omega

/-- A payment in one token takes nothing of another. -/
theorem Flow.le_balance_of_ne {holder token other : Addr} {received spent : ℤ}
    {before after : Tokens Addr} (h : Flow holder token received spent before after)
    (hne : other ≠ token) : before.balance other holder ≤ after.balance other holder := by
  have hnet := h.net_eq other
  have hlooped := h.looped_le other
  simp only [net, hne, if_false] at hnet
  omega

/-- A transfer goes through exactly when the amount is there and the token accepts it. -/
theorem transfer_isOk_iff {accepts : Transfer Addr → Bool} {tokens : Tokens Addr}
    {token source r : Addr} {amount : ℤ} :
    (∃ tokens', tokens.transfer accepts token source r amount = .ok tokens') ↔
      0 ≤ amount ∧ amount ≤ tokens.balance token source ∧
        accepts ⟨token, source, r, amount⟩ = true := by
  simp only [transfer, bind_eq_ok, require_eq_ok, pure_eq_ok]
  constructor
  · rintro ⟨_, -, hpos, -, hle, -, haccepts, -⟩
    exact ⟨hpos, hle, haccepts⟩
  · rintro ⟨hpos, hle, haccepts⟩
    exact ⟨_, (), hpos, (), hle, (), haccepts, rfl⟩

/-- A token that accepts everything moves any amount that is there. -/
theorem transfer_isOk {accepts : Transfer Addr → Bool} {tokens : Tokens Addr}
    {token source r : Addr} {amount : ℤ} (haccepts : ∀ x, accepts x = true)
    (hpos : 0 ≤ amount) (hle : amount ≤ tokens.balance token source) :
    ∃ tokens', tokens.transfer accepts token source r amount = .ok tokens' :=
  transfer_isOk_iff.mpr ⟨hpos, hle, haccepts _⟩

end Tokens

end Soroban
