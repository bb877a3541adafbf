import Mathlib

/-! Numbers as byte strings of a fixed length, the most significant byte first. -/
namespace BigEndian

/-- The last `k` bytes of `n`. -/
def bytes : ℕ → ℕ → List UInt8
  | 0, _ => []
  | k + 1, n => bytes k (n / 256) ++ [UInt8.ofNat n]

@[simp] theorem length_bytes (k n : ℕ) : (bytes k n).length = k := by
  induction k generalizing n with
  | zero => rfl
  | succ k ih => simp [bytes, ih]

/-- Numbers that fit are told apart by their bytes. -/
theorem bytes_inj {k n m : ℕ} (hn : n < 256 ^ k) (hm : m < 256 ^ k)
    (h : bytes k n = bytes k m) : n = m := by
  induction k generalizing n m with
  | zero =>
    rw [pow_zero] at hn hm
    omega
  | succ k ih =>
    obtain ⟨hhigh, hlow⟩ := List.append_inj' h rfl
    have hquotient : n / 256 = m / 256 := by
      refine ih ?_ ?_ hhigh
      · rw [pow_succ] at hn
        omega
      · rw [pow_succ] at hm
        omega
    have hremainder : n % 256 = m % 256 := by
      have hbyte := congrArg UInt8.toNat (List.singleton_inj.mp hlow)
      simpa using hbyte
    omega

/-- So are bit vectors of whole bytes. -/
theorem bytes_toNat_injective (k : ℕ) :
    Function.Injective fun v : BitVec (8 * k) => bytes k v.toNat := by
  intro v w h
  have hlt : ∀ u : BitVec (8 * k), u.toNat < 256 ^ k := by
    intro u
    have hu := u.isLt
    rwa [pow_mul] at hu
  exact BitVec.eq_of_toNat_eq (bytes_inj (hlt v) (hlt w) h)

end BigEndian
