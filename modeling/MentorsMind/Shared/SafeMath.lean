import MentorsMind.Soroban.Host

/-! Checked arithmetic and field validation shared by the contracts. -/
namespace Shared
open Outcome Soroban

inductive SharedError where
  | overflow
  | underflow
  | divisionByZero

def SharedError.code : SharedError → ℕ
  | .overflow => 9
  | .underflow => 10
  | .divisionByZero => 13

def SharedError.trap (e : SharedError) : Trap := .contractError e.code

def safeAdd (a b : ℤ) : Result ℤ := checkedI128 (a + b) SharedError.overflow.trap

def safeSub (a b : ℤ) : Result ℤ := checkedI128 (a - b) SharedError.underflow.trap

def safeMul (a b : ℤ) : Result ℤ := checkedI128 (a * b) SharedError.overflow.trap

/-- Division truncates towards zero. -/
def safeDiv (a b : ℤ) : Result ℤ := do
  require (b ≠ 0 ∧ FitsI128 (a.tdiv b)) SharedError.divisionByZero.trap
  pure (a.tdiv b)

def safeAddU64 (a b : ℕ) : Result ℕ := checkedU64 (a + b) SharedError.overflow.trap

def safeMulU64 (a b : ℕ) : Result ℕ := checkedU64 (a * b) SharedError.overflow.trap

def safeAddU32 (a b : ℕ) : Result ℕ := checkedU32 (a + b) SharedError.overflow.trap

def safeMulU32 (a b : ℕ) : Result ℕ := checkedU32 (a * b) SharedError.overflow.trap

def safeDivU32 (a b : ℕ) : Result ℕ := do
  require (b ≠ 0) SharedError.divisionByZero.trap
  pure (a / b)

/-- `u64::saturating_add`. -/
def saturatingAddU64 (a b : ℕ) : ℕ := min (a + b) (2 ^ 64 - 1)

/-- `u32::saturating_add`. -/
def saturatingAddU32 (a b : ℕ) : ℕ := min (a + b) (2 ^ 32 - 1)

/-- An `i128` result clamped to the range of the type. -/
def saturateI128 (n : ℤ) : ℤ := max (-(2 ^ 127)) (min n (2 ^ 127 - 1))

@[simp] theorem safeAdd_eq_ok {a b c : ℤ} :
    safeAdd a b = .ok c ↔ FitsI128 (a + b) ∧ a + b = c := by
  simp [safeAdd]

@[simp] theorem safeSub_eq_ok {a b c : ℤ} :
    safeSub a b = .ok c ↔ FitsI128 (a - b) ∧ a - b = c := by
  simp [safeSub]

@[simp] theorem safeMul_eq_ok {a b c : ℤ} :
    safeMul a b = .ok c ↔ FitsI128 (a * b) ∧ a * b = c := by
  simp [safeMul]

@[simp] theorem safeDiv_eq_ok {a b c : ℤ} :
    safeDiv a b = .ok c ↔ (b ≠ 0 ∧ FitsI128 (a.tdiv b)) ∧ a.tdiv b = c := by
  simp [safeDiv]

@[simp] theorem safeAddU64_eq_ok {a b c : ℕ} :
    safeAddU64 a b = .ok c ↔ a + b < 2 ^ 64 ∧ a + b = c := by
  simp [safeAddU64]

@[simp] theorem safeMulU64_eq_ok {a b c : ℕ} :
    safeMulU64 a b = .ok c ↔ a * b < 2 ^ 64 ∧ a * b = c := by
  simp [safeMulU64]

@[simp] theorem safeAddU32_eq_ok {a b c : ℕ} :
    safeAddU32 a b = .ok c ↔ a + b < 2 ^ 32 ∧ a + b = c := by
  simp [safeAddU32]

@[simp] theorem safeMulU32_eq_ok {a b c : ℕ} :
    safeMulU32 a b = .ok c ↔ a * b < 2 ^ 32 ∧ a * b = c := by
  simp [safeMulU32]

@[simp] theorem safeDivU32_eq_ok {a b c : ℕ} :
    safeDivU32 a b = .ok c ↔ b ≠ 0 ∧ a / b = c := by
  simp [safeDivU32]

/-- The ceiling on a single amount: 100M tokens with 7 decimals. -/
def maxFinancialAmount : ℤ := 1000000000000000

/-- The validator's checks, each with the text that `validate_or_panic` raises for it. -/
def requirePositive (value : ℤ) : Result Unit :=
  require (0 < value) (.panic "validation failed: value must be greater than zero")

def requireNonNegative (value : ℤ) : Result Unit :=
  require (0 ≤ value) (.panic "validation failed: value must not be negative")

def requireMax (value max : ℤ) : Result Unit :=
  require (value ≤ max) (.panic "validation failed: value exceeds the maximum allowed amount")

def requireSufficientForDivision (total parts : ℤ) : Result Unit :=
  require (0 < parts ∧ parts ≤ total)
    (.panic "validation failed: amount too small to split without rounding a share to zero")

@[simp] theorem requirePositive_eq_ok {n : ℤ} {u : Unit} :
    requirePositive n = .ok u ↔ 0 < n := by
  simp [requirePositive]

@[simp] theorem requireNonNegative_eq_ok {n : ℤ} {u : Unit} :
    requireNonNegative n = .ok u ↔ 0 ≤ n := by
  simp [requireNonNegative]

@[simp] theorem requireMax_eq_ok {n m : ℤ} {u : Unit} : requireMax n m = .ok u ↔ n ≤ m := by
  simp [requireMax]

@[simp] theorem requireSufficientForDivision_eq_ok {n m : ℤ} {u : Unit} :
    requireSufficientForDivision n m = .ok u ↔ 0 < m ∧ m ≤ n := by
  simp [requireSufficientForDivision]

end Shared
