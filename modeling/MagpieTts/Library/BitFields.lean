import Mathlib.Algebra.Group.Nat.Defs

/-!
# Bit fields of a machine word

Shifting a word and masking it reads a digit of its value, and joining a shifted word with a
smaller one adds their values.

## Main results

* `toNat_or_shiftLeft`: the value of a word joined of two fields that do not overlap.
* `toNat_ushiftRight_and`: the value of a field read by a shift and a mask.
-/

namespace MagpieTts.Library

variable {width : ℕ}

/-- A field `high` put above the lowest `k` bits, joined with a word below them. -/
theorem toNat_or_shiftLeft {high low : BitVec width} {k : ℕ} (hlow : low.toNat < 2 ^ k)
    (hhigh : high.toNat * 2 ^ k < 2 ^ width) :
    (high <<< k ||| low).toNat = high.toNat * 2 ^ k + low.toNat := by
  rw [BitVec.toNat_or, BitVec.toNat_shiftLeft, Nat.shiftLeft_eq, Nat.mod_eq_of_lt hhigh,
    ← Nat.shiftLeft_eq, Nat.shiftLeft_add_eq_or_of_lt hlow]

/-- The field of `size` bits above the lowest `k` bits of a word. -/
theorem toNat_ushiftRight_and {word mask : BitVec width} {k size : ℕ}
    (hmask : mask.toNat = 2 ^ size - 1) :
    ((word >>> k) &&& mask).toNat = word.toNat / 2 ^ k % 2 ^ size := by
  rw [BitVec.toNat_and, BitVec.toNat_ushiftRight, hmask, Nat.and_two_pow_sub_one_eq_mod,
    Nat.shiftRight_eq_div_pow]

/-- The lowest `size` bits of a word. -/
theorem toNat_and_mask {word mask : BitVec width} {size : ℕ} (hmask : mask.toNat = 2 ^ size - 1) :
    (word &&& mask).toNat = word.toNat % 2 ^ size := by
  rw [BitVec.toNat_and, hmask, Nat.and_two_pow_sub_one_eq_mod]

end MagpieTts.Library
