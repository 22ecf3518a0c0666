import MagpieTts.Library.FileSystem
import Mathlib.Algebra.Group.Nat.Defs

/-!
# SHA-256

The digest of a list of bytes. The words are natural numbers below `2 ^ 32`, so that a digest can be
computed in a proof.

## Main definitions

* `sha256`: the digest.
-/

namespace MagpieTts.Library

namespace Sha256

/-- The first digits of the cube roots of the first 64 primes. -/
def roundConstants : List ℕ :=
  [0x428a2f98, 0x71374491, 0xb5c0fbcf, 0xe9b5dba5, 0x3956c25b, 0x59f111f1, 0x923f82a4, 0xab1c5ed5,
    0xd807aa98, 0x12835b01, 0x243185be, 0x550c7dc3, 0x72be5d74, 0x80deb1fe, 0x9bdc06a7, 0xc19bf174,
    0xe49b69c1, 0xefbe4786, 0x0fc19dc6, 0x240ca1cc, 0x2de92c6f, 0x4a7484aa, 0x5cb0a9dc, 0x76f988da,
    0x983e5152, 0xa831c66d, 0xb00327c8, 0xbf597fc7, 0xc6e00bf3, 0xd5a79147, 0x06ca6351, 0x14292967,
    0x27b70a85, 0x2e1b2138, 0x4d2c6dfc, 0x53380d13, 0x650a7354, 0x766a0abb, 0x81c2c92e, 0x92722c85,
    0xa2bfe8a1, 0xa81a664b, 0xc24b8b70, 0xc76c51a3, 0xd192e819, 0xd6990624, 0xf40e3585, 0x106aa070,
    0x19a4c116, 0x1e376c08, 0x2748774c, 0x34b0bcb5, 0x391c0cb3, 0x4ed8aa4a, 0x5b9cca4f, 0x682e6ff3,
    0x748f82ee, 0x78a5636f, 0x84c87814, 0x8cc70208, 0x90befffa, 0xa4506ceb, 0xbef9a3f7, 0xc67178f2]

/-- The eight words of a state. -/
structure State where
  a : ℕ
  b : ℕ
  c : ℕ
  d : ℕ
  e : ℕ
  f : ℕ
  g : ℕ
  h : ℕ

/-- The first digits of the square roots of the first eight primes. -/
def initial : State :=
  ⟨0x6a09e667, 0xbb67ae85, 0x3c6ef372, 0xa54ff53a, 0x510e527f, 0x9b05688c, 0x1f83d9ab, 0x5be0cd19⟩

def add (x y : ℕ) : ℕ := (x + y) % 2 ^ 32

def rotateRight (x n : ℕ) : ℕ := (x >>> n) ||| ((x <<< (32 - n)) % 2 ^ 32)

def bigSigma0 (x : ℕ) : ℕ := rotateRight x 2 ^^^ rotateRight x 13 ^^^ rotateRight x 22

def bigSigma1 (x : ℕ) : ℕ := rotateRight x 6 ^^^ rotateRight x 11 ^^^ rotateRight x 25

def smallSigma0 (x : ℕ) : ℕ := rotateRight x 7 ^^^ rotateRight x 18 ^^^ (x >>> 3)

def smallSigma1 (x : ℕ) : ℕ := rotateRight x 17 ^^^ rotateRight x 19 ^^^ (x >>> 10)

def choose (x y z : ℕ) : ℕ := (x &&& y) ^^^ ((2 ^ 32 - 1 - x) &&& z)

def majority (x y z : ℕ) : ℕ := (x &&& y) ^^^ (x &&& z) ^^^ (y &&& z)

/-- The word of the message schedule that follows sixteen of them. -/
def nextWord : List ℕ → ℕ
  | [w0, w1, _, _, _, _, _, _, _, w9, _, _, _, _, w14, _] =>
    add (add (smallSigma1 w14) w9) (add (smallSigma0 w1) w0)
  | _ => 0

def round (state : State) (constant word : ℕ) : State :=
  let first := add (add (add state.h (bigSigma1 state.e)) (add (choose state.e state.f state.g)
    constant)) word
  let second := add (bigSigma0 state.a) (majority state.a state.b state.c)
  ⟨add first second, state.a, state.b, state.c, add state.d first, state.e, state.f, state.g⟩

/-- The rounds of a block: the head of the window is the word of the round. -/
def rounds : List ℕ → List ℕ → State → State
  | [], _, state => state
  | constant :: constants, window, state =>
    rounds constants (window.tail ++ [nextWord window]) (round state constant (window.headD 0))

def compress (state : State) (block : List ℕ) : State :=
  let result := rounds roundConstants block state
  ⟨add state.a result.a, add state.b result.b, add state.c result.c, add state.d result.d,
    add state.e result.e, add state.f result.f, add state.g result.g, add state.h result.h⟩

/-- Words of four bytes. -/
def words : List ℕ → List ℕ
  | b0 :: b1 :: b2 :: b3 :: rest =>
    (((b0 * 256 + b1) * 256 + b2) * 256 + b3) :: words rest
  | _ => []

/-- Blocks of sixteen words. -/
def blocks : ℕ → List ℕ → List (List ℕ)
  | 0, _ => []
  | count + 1, words => words.take 16 :: blocks count (words.drop 16)

/-- The bytes of a number, the last one first. -/
def littleEndian : ℕ → ℕ → List ℕ
  | 0, _ => []
  | count + 1, value => value % 256 :: littleEndian count (value / 256)

/-- A one bit, zeros up to eight bytes before the end of a block, and the number of bits. -/
def pad (bytes : List ℕ) : List ℕ :=
  bytes ++ 0x80 :: (List.replicate ((119 - bytes.length % 64) % 64) 0 ++
    (littleEndian 8 (8 * bytes.length)).reverse)

def State.toList (state : State) : List ℕ :=
  [state.a, state.b, state.c, state.d, state.e, state.f, state.g, state.h]

end Sha256

open Sha256 in
/-- The SHA-256 digest. -/
def sha256 (bytes : Bytes) : Bytes :=
  let padded := pad (bytes.map UInt8.toNat)
  let state := (blocks (padded.length / 64) (words padded)).foldl compress initial
  state.toList.flatMap fun word => ((littleEndian 4 word).reverse).map UInt8.ofNat

theorem length_sha256 (bytes : Bytes) : (sha256 bytes).length = 32 := by
  simp [sha256, Sha256.State.toList, Sha256.littleEndian]

/-- The digest of the three letters `abc`. -/
example : sha256 [0x61, 0x62, 0x63] =
    [0xba, 0x78, 0x16, 0xbf, 0x8f, 0x01, 0xcf, 0xea, 0x41, 0x41, 0x40, 0xde, 0x5d, 0xae, 0x22,
      0x23, 0xb0, 0x03, 0x61, 0xa3, 0x96, 0x17, 0x7a, 0x9c, 0xb4, 0x10, 0xff, 0x61, 0xf2, 0x00,
      0x15, 0xad] := by
  decide +kernel

end MagpieTts.Library
