import Mathlib.Algebra.Group.Nat.Defs
import Mathlib.Logic.Function.Basic

/-!
# The Philox generator on four 32-bit words

A counter-based generator: a block of four words is a fixed number of rounds over a counter of four
words, under a key of two words. A round multiplies two words of the counter, spreads the high
words of the products over the other two under the key, and the key moves by a constant.

## Main definitions

* `PhiloxConstants`: the multipliers, which have inverses, and the increments of the key.
* `PhiloxConstants.rounds`: a number of rounds over a counter.
* `philox4x32`: the standard constants; a block is ten rounds.

## Main results

* `PhiloxConstants.rounds_injective`: distinct counters have distinct blocks under one key.
-/

namespace MagpieTts.Library

/-- The high word of the product of two unsigned words. -/
def mulHi (a b : BitVec 32) : BitVec 32 := BitVec.ofNat 32 (a.toNat * b.toNat / 4294967296)

/-- The counter of four words. -/
@[ext]
structure PhiloxCounter where
  c0 : BitVec 32
  c1 : BitVec 32
  c2 : BitVec 32
  c3 : BitVec 32
  deriving DecidableEq

/-- The key of two words. -/
structure PhiloxKey where
  k0 : BitVec 32
  k1 : BitVec 32
  deriving DecidableEq

/-- The constants of a generator. Odd multipliers are the ones with an inverse. -/
structure PhiloxConstants where
  multiplier0 : BitVec 32
  multiplier1 : BitVec 32
  increment0 : BitVec 32
  increment1 : BitVec 32
  invertible0 : ∃ inverse, inverse * multiplier0 = 1#32
  invertible1 : ∃ inverse, inverse * multiplier1 = 1#32

/-- Multiplication by a word with an inverse is injective. -/
theorem mul_left_injective_of_inverse {multiplier : BitVec 32}
    (h : ∃ inverse, inverse * multiplier = 1#32) :
    Function.Injective fun word : BitVec 32 => multiplier * word := by
  obtain ⟨inverse, hinverse⟩ := h
  intro a b hab
  have hcancel : inverse * (multiplier * a) = inverse * (multiplier * b) :=
    congrArg (inverse * ·) hab
  rwa [← BitVec.mul_assoc, ← BitVec.mul_assoc, hinverse, BitVec.one_mul, BitVec.one_mul]
    at hcancel

theorem xor_left_injective (mask : BitVec 32) :
    Function.Injective fun word : BitVec 32 => mask ^^^ word := by
  intro a b hab
  have hcancel : mask ^^^ (mask ^^^ a) = mask ^^^ (mask ^^^ b) := congrArg (mask ^^^ ·) hab
  rwa [← BitVec.xor_assoc, ← BitVec.xor_assoc, BitVec.xor_self, BitVec.zero_xor,
    BitVec.zero_xor] at hcancel

namespace PhiloxConstants

variable (constants : PhiloxConstants)

/-- One round. -/
def round (key : PhiloxKey) (counter : PhiloxCounter) : PhiloxCounter where
  c0 := mulHi constants.multiplier1 counter.c2 ^^^ counter.c1 ^^^ key.k0
  c1 := constants.multiplier1 * counter.c2
  c2 := mulHi constants.multiplier0 counter.c0 ^^^ counter.c3 ^^^ key.k1
  c3 := constants.multiplier0 * counter.c0

/-- The key of the next round. -/
def bump (key : PhiloxKey) : PhiloxKey :=
  ⟨key.k0 + constants.increment0, key.k1 + constants.increment1⟩

/-- A number of rounds, the key moving between them. -/
def rounds : ℕ → PhiloxKey → PhiloxCounter → PhiloxCounter
  | 0, _, counter => counter
  | n + 1, key, counter => rounds n (constants.bump key) (constants.round key counter)

/-- A round can be undone: the low words of the products give the two multiplied words back, and
their high words then the other two. -/
theorem round_injective (key : PhiloxKey) : Function.Injective (constants.round key) := by
  intro a b hab
  simp only [round, PhiloxCounter.mk.injEq] at hab
  obtain ⟨h0, h1, h2, h3⟩ := hab
  have hc2 : a.c2 = b.c2 := mul_left_injective_of_inverse constants.invertible1 h1
  have hc0 : a.c0 = b.c0 := mul_left_injective_of_inverse constants.invertible0 h3
  rw [hc2, BitVec.xor_assoc, BitVec.xor_assoc] at h0
  rw [hc0, BitVec.xor_assoc, BitVec.xor_assoc] at h2
  have hc1 : a.c1 = b.c1 := by
    have hkey := xor_left_injective _ h0
    rw [BitVec.xor_comm a.c1, BitVec.xor_comm b.c1] at hkey
    exact xor_left_injective _ hkey
  have hc3 : a.c3 = b.c3 := by
    have hkey := xor_left_injective _ h2
    rw [BitVec.xor_comm a.c3, BitVec.xor_comm b.c3] at hkey
    exact xor_left_injective _ hkey
  exact PhiloxCounter.ext hc0 hc1 hc2 hc3

/-- Distinct counters stay distinct in every number of rounds under one key. -/
theorem rounds_injective (n : ℕ) (key : PhiloxKey) :
    Function.Injective (constants.rounds n key) := by
  induction n generalizing key with
  | zero => exact fun _ _ h => h
  | succ n ih => exact (ih (constants.bump key)).comp (constants.round_injective key)

end PhiloxConstants

/-- The standard constants. -/
def philox4x32 : PhiloxConstants where
  multiplier0 := 0xD2511F53#32
  multiplier1 := 0xCD9E8D57#32
  increment0 := 0x9E3779B9#32
  increment1 := 0xBB67AE85#32
  invertible0 := ⟨0x991A7CDB#32, by decide⟩
  invertible1 := ⟨0x6D7CAE67#32, by decide⟩

end MagpieTts.Library
