import MentorsMind.Lib.Machine

/-! The part of the Soroban host that contract code talks to: the ledger header, address
authorisation, checked machine arithmetic and the ways an invocation fails. The release
profile keeps overflow checks on, so plain integer operators trap as well. -/
namespace Soroban
open Outcome

/-- How an invocation fails. The host then reverts every write of the invocation. -/
inductive Trap where
  | panic (message : String)
  | contractError (code : ℕ)
  | unauthorized
  | arithmetic
  | missingEntry
  | subcall
  deriving DecidableEq

abbrev Result (α : Type) := Except Trap α

/-- A 32-byte digest. -/
abbrev Hash := BitVec 256

def maxU32 : ℕ := 2 ^ 32 - 1

def maxU64 : ℕ := 2 ^ 64 - 1

/-- What one invocation of the contract at address `home` sees. The contract is never
the invoker of its own entry points, so it never authorises one. -/
structure Env (Addr : Type) (home : Addr) where
  timestamp : ℕ
  sequence : ℕ
  auth : Addr → Bool
  auth_home : auth home = false

variable {Addr : Type} {self : Addr}

def requireAuth (env : Env Addr self) (a : Addr) : Result Unit :=
  require (env.auth a = true) .unauthorized

@[simp] theorem requireAuth_eq_ok {env : Env Addr self} {a : Addr} {u : Unit} :
    requireAuth env a = .ok u ↔ env.auth a = true := by
  simp [requireAuth]

/-- An address that authorised the invocation is not the contract. -/
theorem Env.ne_self_of_auth {env : Env Addr self} {a : Addr} (h : env.auth a = true) :
    a ≠ self := by
  rintro rfl
  simp [env.auth_home] at h

/-- An invocation at time `now` that every account signed; the contract is address 0. -/
def signedByAll (now : ℕ) : Env ℕ 0 where
  timestamp := now
  sequence := 0
  auth a := a != 0
  auth_home := rfl

def FitsI128 (n : ℤ) : Prop := -(2 ^ 127) ≤ n ∧ n < 2 ^ 127

instance (n : ℤ) : Decidable (FitsI128 n) := inferInstanceAs (Decidable (_ ∧ _))

/-- The `i128` result `n`, or the failure `e` when it overflows. -/
def checkedI128 (n : ℤ) (e : Trap) : Result ℤ := do
  require (FitsI128 n) e
  pure n

/-- The result of a plain `i128` operator. -/
def i128 (n : ℤ) : Result ℤ := checkedI128 n .arithmetic

def checkedU64 (n : ℕ) (e : Trap) : Result ℕ := do
  require (n < 2 ^ 64) e
  pure n

def u64 (n : ℕ) : Result ℕ := checkedU64 n .arithmetic

def checkedU32 (n : ℕ) (e : Trap) : Result ℕ := do
  require (n < 2 ^ 32) e
  pure n

def u32 (n : ℕ) : Result ℕ := checkedU32 n .arithmetic

@[simp] theorem checkedI128_eq_ok {n m : ℤ} {e : Trap} :
    checkedI128 n e = .ok m ↔ FitsI128 n ∧ n = m := by
  simp [checkedI128]

@[simp] theorem i128_eq_ok {n m : ℤ} :
    i128 n = .ok m ↔ FitsI128 n ∧ n = m := by
  simp [i128]

@[simp] theorem checkedU64_eq_ok {n m : ℕ} {e : Trap} :
    checkedU64 n e = .ok m ↔ n < 2 ^ 64 ∧ n = m := by
  simp [checkedU64]

@[simp] theorem u64_eq_ok {n m : ℕ} :
    u64 n = .ok m ↔ n < 2 ^ 64 ∧ n = m := by
  simp [u64]

@[simp] theorem checkedU32_eq_ok {n m : ℕ} {e : Trap} :
    checkedU32 n e = .ok m ↔ n < 2 ^ 32 ∧ n = m := by
  simp [checkedU32]

@[simp] theorem u32_eq_ok {n m : ℕ} :
    u32 n = .ok m ↔ n < 2 ^ 32 ∧ n = m := by
  simp [u32]

end Soroban
