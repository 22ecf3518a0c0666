import MagpieTts.Runtime.MachineWords
import Mathlib.Order.Lattice

/-!
# The contract of the alignment controller

The alignment controller reads one row of attention scores per decoder step, moves the attended
text position and writes the attention prior of the next step. It exists twice: as a host class and
as a device kernel. This file has what the two share: the scores they compare, the values they
write and the numbers they take from the manifest.

## Main definitions

* `Score`: a floating-point score over an ordered type of finite values.
* `PriorValue`: an entry of the prior.
* `AlignmentManifest`, `AlignmentKernelContract`: the numbers of the contract.
-/

namespace MagpieTts.Runtime

/-- A floating-point score. Converting `bfloat16` to `float` is exact, so both controllers compare
the same scores; the finite ones are ordered as their values. -/
inductive Score (α : Type*) where
  | finite (value : α)
  | nan
  | positiveInfinity
  | negativeInfinity
  deriving DecidableEq

namespace Score

variable {α : Type*}

/-- `std::isfinite`. -/
def isfinite : Score α → Bool
  | finite _ => true
  | _ => false

@[simp] theorem isfinite_finite (value : α) : (finite value).isfinite = true := rfl

/-- The comparison `candidate > best` of floating-point numbers: false whenever a side is not a
number. -/
def gt [LinearOrder α] : Score α → Score α → Bool
  | finite a, finite b => b < a
  | finite _, negativeInfinity => true
  | positiveInfinity, finite _ => true
  | positiveInfinity, negativeInfinity => true
  | _, _ => false

@[simp] theorem gt_finite [LinearOrder α] (a b : α) :
    (finite a).gt (finite b) = decide (b < a) := rfl

end Score

/-- An entry of the attention prior: the contract's `prior_epsilon` or one. -/
inductive PriorValue where
  | epsilon
  | one
  deriving DecidableEq

/-- The numbers that the launch of the kernel passes by value. -/
structure AlignmentKernelContract where
  textLength : ℕ
  ignoredTerminalTokens : ℕ
  shortTextNoPriorMaxTokens : ℕ
  lookahead : ℕ
  sinkThreshold : ℕ
  deriving DecidableEq

/-- The loops over `offset <= lookahead` end, or are not entered: `offset` is a `std::uint32_t`, and
none is greater than the largest one. -/
def LookaheadEnds (contract : AlignmentKernelContract) : Prop :=
  contract.textLength ≤ contract.shortTextNoPriorMaxTokens ∨ contract.lookahead ≠ maximumUint32

instance (contract : AlignmentKernelContract) : Decidable (LookaheadEnds contract) :=
  inferInstanceAs (Decidable (_ ∨ _))

/-- The alignment section of the manifest, as far as the controllers read it. -/
structure AlignmentManifest where
  initialAttended : ℕ
  ignoredTerminalTokens : ℕ
  shortTextNoPriorMaxTokens : ℕ
  lookahead : ℕ
  sinkThreshold : ℕ
  deriving DecidableEq

/-- The only alignment section that the manifest validator accepts. -/
def acceptedAlignment : AlignmentManifest where
  initialAttended := 1
  ignoredTerminalTokens := 3
  shortTextNoPriorMaxTokens := 5
  lookahead := 6
  sinkThreshold := 4

/-- The kernel contract of a text of `textLength` tokens under a manifest. -/
def AlignmentManifest.kernelContract (manifest : AlignmentManifest) (textLength : ℕ) :
    AlignmentKernelContract where
  textLength := textLength
  ignoredTerminalTokens := manifest.ignoredTerminalTokens
  shortTextNoPriorMaxTokens := manifest.shortTextNoPriorMaxTokens
  lookahead := manifest.lookahead
  sinkThreshold := manifest.sinkThreshold

end MagpieTts.Runtime
