import Mathlib.Data.Nat.Notation

/-!
# Unsigned machine words

Unsigned integers are modelled by natural numbers. Where the source can leave the range of a type,
the operation of that type is one of those below; elsewhere it is the one of `ℕ`.
-/

namespace MagpieTts.Runtime

/-- The largest `std::uint32_t`. -/
def maximumUint32 : ℕ := 4294967295

/-- The largest `std::uint64_t`. -/
def maximumUint64 : ℕ := 18446744073709551615

/-- Addition of `std::uint32_t`. -/
def addUint32 (a b : ℕ) : ℕ := (a + b) % 4294967296

/-- Subtraction of `std::uint32_t`. -/
def subUint32 (a b : ℕ) : ℕ := (a + 4294967296 - b) % 4294967296

/-- Addition of `std::uint64_t`. -/
def addUint64 (a b : ℕ) : ℕ := (a + b) % 18446744073709551616

theorem addUint32_eq {a b : ℕ} (h : a + b ≤ maximumUint32) : addUint32 a b = a + b := by
  rw [maximumUint32] at h
  exact Nat.mod_eq_of_lt (by omega)

theorem subUint32_eq {a b : ℕ} (hle : b ≤ a) (ha : a ≤ maximumUint32) :
    subUint32 a b = a - b := by
  rw [maximumUint32] at ha
  rw [subUint32, show a + 4294967296 - b = a - b + 4294967296 by omega, Nat.add_mod_right]
  exact Nat.mod_eq_of_lt (by omega)

theorem addUint64_eq {a b : ℕ} (h : a + b ≤ maximumUint64) : addUint64 a b = a + b := by
  rw [maximumUint64] at h
  exact Nat.mod_eq_of_lt (by omega)

theorem addUint64_mod (a b : ℕ) : addUint64 (a % 18446744073709551616) b = addUint64 a b := by
  rw [addUint64, addUint64, Nat.mod_add_mod]

end MagpieTts.Runtime
