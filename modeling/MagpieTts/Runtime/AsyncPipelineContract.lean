import Mathlib.Data.Nat.Notation
import Mathlib.Logic.Function.Basic

/-!
# The order of work on the two batch slots

`AsyncPipelineContract` of `async_pipeline_contract.hpp`: a slot is filled by a generation batch,
read by the codec, and filled again only behind a wait for that read. Each operation throws a
`std::logic_error` when its slot is not in the state the order asks for. The counters that the class
keeps for its metrics decide nothing and are left out.

## Main definitions

* `BatchSlotState`, `AsyncPipelineContract`: the state of the slots.
* `AsyncPipelineContract.scheduleGeneration` and its companions: the operations.
-/

namespace MagpieTts.Runtime

def kGenerationBatchSlotCount : ℕ := 2

def kMaximumDecoderStepsPerEmission : ℕ := 4

/-- One of the two slots: `batch_slot` is an index into a `std::array` of length
`kGenerationBatchSlotCount`. -/
abbrev BatchSlot := Fin 2

inductive BatchSlotState where
  | unused
  | generationPending
  | generationReady
  | codecPending
  | reuseDependencyQueued
  deriving DecidableEq

structure AsyncPipelineContract where
  states : BatchSlot → BatchSlotState

namespace AsyncPipelineContract

/-- The contract of a new pipeline. -/
def initial : AsyncPipelineContract := ⟨fun _ => .unused⟩

/-- The new state of a slot, or the text of the `std::logic_error` if the slot is not in one of the
states `expected`. -/
def transition (self : AsyncPipelineContract) (slot : BatchSlot) (expected : List BatchSlotState)
    (next : BatchSlotState) (what : String) : Except String AsyncPipelineContract :=
  if self.states slot ∈ expected then
    .ok ⟨Function.update self.states slot next⟩
  else
    .error what

def scheduleGeneration (self : AsyncPipelineContract) (slot : BatchSlot) :
    Except String AsyncPipelineContract :=
  self.transition slot [.unused, .reuseDependencyQueued] .generationPending
    "generation batch slot reused without codec-consumed dependency"

def markGenerationReady (self : AsyncPipelineContract) (slot : BatchSlot) :
    Except String AsyncPipelineContract :=
  self.transition slot [.generationPending] .generationReady
    "generation completion did not match a pending batch"

def scheduleCodec (self : AsyncPipelineContract) (slot : BatchSlot) :
    Except String AsyncPipelineContract :=
  self.transition slot [.generationReady] .codecPending
    "codec batch scheduled before generation diagnostics completed"

def queueReuseDependency (self : AsyncPipelineContract) (slot : BatchSlot) :
    Except String AsyncPipelineContract :=
  self.transition slot [.codecPending] .reuseDependencyQueued
    "generation slot reuse lacks a preceding codec pack"

variable {self : AsyncPipelineContract} {slot : BatchSlot} {expected : List BatchSlotState}
  {next : BatchSlotState} {what : String}

theorem transition_of_mem (h : self.states slot ∈ expected) :
    self.transition slot expected next what = .ok ⟨Function.update self.states slot next⟩ :=
  if_pos h

end AsyncPipelineContract

end MagpieTts.Runtime
