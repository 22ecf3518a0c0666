import Mathlib.Data.Int.Notation
import Mathlib.Data.List.Basic
import MagpieTts.Runtime.AsyncPipelineContract

/-!
# The diagnostics of a generation batch

`generation_diagnostics.hpp`: the record that the packing kernel writes for a batch of decoder
steps, and the check of its layout behind the copy to the host.

## Main definitions

* `GenerationStepDiagnostics`, `GenerationBatchDiagnostics`: the record.
* `validateGenerationDiagnosticPayload`: the check.
-/

namespace MagpieTts.Runtime

structure GenerationStepDiagnostics where
  attendedTokenIndex : ℤ
  alignmentInvalid : ℤ
  localInvalidRows : ℤ
  endFrameIndex : ℤ
  reserved : ℤ
  deriving DecidableEq

/-- The array `steps` has `kMaximumDecoderStepsPerEmission` entries. -/
structure GenerationBatchDiagnostics where
  stepCount : ℕ
  mainDecoderExecutionStatus : ℤ
  steps : ℕ → GenerationStepDiagnostics

inductive GenerationDiagnosticPayloadError where
  | none
  | invalidExpectedStepCount
  | packedStepCountMismatch
  | nonzeroReservedField
  | noncanonicalUnusedStep
  deriving DecidableEq

/-- The number of an enumerator. -/
def GenerationDiagnosticPayloadError.toNat : GenerationDiagnosticPayloadError → ℕ
  | none => 0
  | invalidExpectedStepCount => 1
  | packedStepCountMismatch => 2
  | nonzeroReservedField => 3
  | noncanonicalUnusedStep => 4

structure GenerationDiagnosticPayloadValidation where
  code : GenerationDiagnosticPayloadError
  step : ℕ
  deriving DecidableEq

def GenerationDiagnosticPayloadValidation.valid (self : GenerationDiagnosticPayloadValidation) :
    Bool :=
  self.code = .none

/-- The entry behind the last step that the packing kernel writes. -/
def GenerationStepDiagnostics.unused : GenerationStepDiagnostics where
  attendedTokenIndex := -1
  alignmentInvalid := 0
  localInvalidRows := 0
  endFrameIndex := -1
  reserved := 0

/-- The checks of one entry in the loop over all entries. -/
def validateGenerationStep (current : GenerationStepDiagnostics) (expectedStepCount step : ℕ) :
    Option GenerationDiagnosticPayloadValidation :=
  if current.reserved ≠ 0 then
    some ⟨.nonzeroReservedField, step⟩
  else if expectedStepCount ≤ step ∧
      (current.attendedTokenIndex ≠ -1 ∨ current.alignmentInvalid ≠ 0 ∨
        current.localInvalidRows ≠ 0 ∨ current.endFrameIndex ≠ -1) then
    some ⟨.noncanonicalUnusedStep, step⟩
  else
    none

/-- `validate_generation_diagnostic_payload`. -/
def validateGenerationDiagnosticPayload (diagnostics : GenerationBatchDiagnostics)
    (expectedStepCount : ℕ) : GenerationDiagnosticPayloadValidation :=
  if expectedStepCount = 0 ∨ kMaximumDecoderStepsPerEmission < expectedStepCount then
    ⟨.invalidExpectedStepCount, 0⟩
  else if diagnostics.stepCount ≠ expectedStepCount then
    ⟨.packedStepCountMismatch, 0⟩
  else
    ((List.range kMaximumDecoderStepsPerEmission).findSome? fun step =>
      validateGenerationStep (diagnostics.steps step) expectedStepCount step).getD ⟨.none, 0⟩

end MagpieTts.Runtime
