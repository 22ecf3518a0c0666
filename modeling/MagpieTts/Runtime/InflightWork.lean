import Mathlib.Data.List.DropRight
import MagpieTts.Library.Run
import MagpieTts.Runtime.SynthesisPipeline

/-!
# The work in flight

The pipeline enqueues its commands on two streams of the device, and learns of their completion by
waiting for events. This file keeps the books of both: which commands may still be running, which
batch slots the codec may still read, which batches have been validated, and whether a codec result
waits for its publication.

## Main definitions

* `PipelineEvent`: what the host does and learns.
* `InflightWork`, `InflightWork.step`: the books.
* `InflightWork.Allows`: the order that the two batch slots and the one PCM buffer ask for.
* `InflightWork.Quiet`: nothing is in flight.
* `InflightWork.Enqueues`, `InflightWork.Generating`: the commands of a function, and of a
  generation batch.

## Main results

* `InflightWork.Generating.append`: a generation batch keeps its order.
-/

namespace MagpieTts.Runtime

open MagpieTts.Library

/-- An event of a pipeline. The host enqueues a command; it has waited for the event behind a
generation batch or behind a codec run; it has validated a generation batch; the request has taken
the codec result; the pipeline has settled. -/
inductive PipelineEvent where
  | command (command : DeviceCommand)
  | generationAwaited (slot : BatchSlot)
  | generationValidated (slot : BatchSlot)
  | codecAwaited
  | published
  | settled
  deriving DecidableEq

/-- The commands of the codec stream. All others go to the generation stream. -/
def DeviceCommand.onCodecStream : DeviceCommand → Bool
  | packCodecFrames _ _ | runCodec _ _ _ | copyValidSampleLength | copyPcm _ => true
  | _ => false

/-- The last command of a codec run. The event of the run is recorded behind it. -/
def DeviceCommand.isCopyPcm : DeviceCommand → Bool
  | copyPcm _ => true
  | _ => false

/-- The commands of each stream that are not known to be complete, in their order; the slots whose
codes a pack reads without the generation stream being ordered behind it; the slots that hold a
validated batch; and whether a codec result waits for its publication. -/
structure InflightWork where
  generation : List DeviceCommand
  codec : List DeviceCommand
  packing : BatchSlot → Bool
  validated : BatchSlot → Bool
  result : Bool

namespace InflightWork

def initial : InflightWork := ⟨[], [], fun _ => false, fun _ => false, false⟩

def enqueue (self : InflightWork) (command : DeviceCommand) : InflightWork :=
  if command.onCodecStream then
    { self with codec := self.codec ++ [command] }
  else
    { self with generation := self.generation ++ [command] }

/-- The books behind an event. Work on a stream completes in its order, so the wait for the event
behind a command leaves only the commands behind it. -/
def step (self : InflightWork) : PipelineEvent → InflightWork
  | .command command =>
    let queued := self.enqueue command
    match command with
    | .waitCodesConsumed slot =>
      { queued with packing := Function.update self.packing slot false }
    | .finalizeLocalStep _ slot _ =>
      { queued with validated := Function.update self.validated slot false }
    | .packCodecFrames slot _ => { queued with packing := Function.update self.packing slot true }
    | .runCodec _ _ _ => { queued with result := true }
    | _ => queued
  | .generationAwaited slot =>
    { self with
      generation := self.generation.rtakeWhile (· ≠ .copyGenerationDiagnostics slot) }
  | .generationValidated slot =>
    { self with validated := Function.update self.validated slot true }
  | .codecAwaited => { self with codec := self.codec.rtakeWhile (! ·.isCopyPcm) }
  | .published | .settled => { self with result := false }

/-- A step writes codes into a slot only behind every pack that reads them; the codec takes only
validated batches; and the codec result is not overwritten while it waits. -/
def Allows (self : InflightWork) : PipelineEvent → Prop
  | .command (.finalizeLocalStep _ slot _) => self.packing slot = false
  | .command (.packCodecFrames slot _) => self.validated slot = true
  | .command (.runCodec _ _ _) => self.result = false
  | _ => True

/-- No enqueued command is left that may still be running. -/
def Quiet (self : InflightWork) : Prop := self.generation = [] ∧ self.codec = []

/-- The generation work ends with the batch in flight. -/
def Generates (self : InflightWork) : Option BatchSlot → Prop
  | none => self.generation = []
  | some slot => ∃ commands, self.generation = commands ++ [.copyGenerationDiagnostics slot]

variable {self after : InflightWork} {slot : BatchSlot} {commands : List DeviceCommand}

theorem quiet_initial : initial.Quiet := ⟨rfl, rfl⟩

/-- The wait for a batch completes all generation work up to its last command. -/
theorem step_generationAwaited
    (h : self.generation = commands ++ [.copyGenerationDiagnostics slot]) :
    self.step (.generationAwaited slot) = { self with generation := [] } := by
  rw [step, h, List.rtakeWhile_concat_neg]
  simp

/-- The wait for a codec run completes all codec work up to its last command. -/
theorem step_codecAwaited {samples : ℕ} (h : self.codec = commands ++ [.copyPcm samples]) :
    self.step .codecAwaited = { self with codec := [] } := by
  rw [step, h, List.rtakeWhile_concat_neg]
  simp [DeviceCommand.isCopyPcm]

/-- Waits enqueue nothing. -/
theorem Quiet.awaited (h : self.Quiet) {event : PipelineEvent}
    (hevent : ∀ command, event ≠ .command command) : (self.step event).Quiet := by
  obtain ⟨hgeneration, hcodec⟩ := h
  cases event with
  | command command => exact absurd rfl (hevent command)
  | generationAwaited slot => exact ⟨by simp [step, hgeneration], hcodec⟩
  | codecAwaited => exact ⟨hgeneration, by simp [step, hcodec]⟩
  | generationValidated slot => exact ⟨hgeneration, hcodec⟩
  | published => exact ⟨hgeneration, hcodec⟩
  | settled => exact ⟨hgeneration, hcodec⟩

/-! ### The commands of a function -/

/-- Behind `work`, the commands are enqueued in an allowed order and lead to `after`. -/
structure Enqueues (work : InflightWork) (commands : List DeviceCommand) (after : InflightWork) :
    Prop where
  allowed : StepsMeet step Allows work (commands.map .command)
  after_eq : run step work (commands.map .command) = after

namespace Enqueues

theorem nil : self.Enqueues [] self := ⟨trivial, rfl⟩

theorem concat (h : self.Enqueues commands after) {command : DeviceCommand}
    (hallows : after.Allows (.command command)) :
    self.Enqueues (commands ++ [command]) (after.step (.command command)) := by
  constructor
  · rw [List.map_append, stepsMeet_append, h.after_eq]
    exact ⟨h.allowed, hallows, trivial⟩
  · rw [List.map_append, run_append, h.after_eq]
    rfl

/-- A function that fails has enqueued a part of its commands. -/
theorem take (h : self.Enqueues commands after) (enqueued : ℕ) :
    ∃ after', self.Enqueues (commands.take enqueued) after' := by
  refine ⟨_, ?_, rfl⟩
  rw [List.map_take]
  exact stepsMeet_take h.allowed enqueued

end Enqueues

end InflightWork

/-! ### The commands of a generation batch -/

/-- The commands that a generation batch for the slot may enqueue. -/
def DeviceCommand.Generates (slot : BatchSlot) : DeviceCommand → Prop
  | waitCodesConsumed other => other = slot
  | finalizeLocalStep _ other _ => other = slot
  | command => command.onCodecStream = false

namespace InflightWork

variable {self after : InflightWork} {slot : BatchSlot} {commands more : List DeviceCommand}

/-- The commands are part of a generation batch for the slot, whose codes nothing reads anymore. -/
structure Generating (work : InflightWork) (slot : BatchSlot) (commands : List DeviceCommand)
    (after : InflightWork) : Prop where
  enqueues : work.Enqueues commands after
  codec_eq : after.codec = work.codec
  result_eq : after.result = work.result
  packing_eq : after.packing = Function.update work.packing slot false

namespace Generating

theorem concat (h : self.Generating slot commands after) {command : DeviceCommand}
    (hcommand : command.Generates slot) :
    self.Generating slot (commands ++ [command]) (after.step (.command command)) := by
  have hpacking := h.packing_eq
  have hidem : Function.update after.packing slot false =
      Function.update self.packing slot false := by
    rw [hpacking, Function.update_idem]
  cases command with
  | waitCodesConsumed other =>
    obtain rfl : other = slot := hcommand
    exact ⟨h.enqueues.concat trivial, h.codec_eq, h.result_eq, hidem⟩
  | finalizeLocalStep stepSlot other offset =>
    obtain rfl : other = slot := hcommand
    refine ⟨h.enqueues.concat ?_, h.codec_eq, h.result_eq, hpacking⟩
    change after.packing other = false
    rw [hpacking, Function.update_self]
  | packCodecFrames other frameCount => cases hcommand
  | runCodec route frameCount stateInput => cases hcommand
  | copyValidSampleLength => cases hcommand
  | copyPcm samples => cases hcommand
  | _ => exact ⟨h.enqueues.concat trivial, h.codec_eq, h.result_eq, hpacking⟩

theorem append (h : self.Generating slot commands after)
    (hmore : ∀ command ∈ more, command.Generates slot) :
    ∃ after', self.Generating slot (commands ++ more) after' := by
  induction more generalizing commands after with
  | nil =>
    rw [List.append_nil]
    exact ⟨after, h⟩
  | cons command rest ih =>
    rw [List.append_cons]
    exact ih (h.concat (hmore command List.mem_cons_self))
      fun other hother => hmore other (List.mem_cons_of_mem command hother)

end Generating

end InflightWork

end MagpieTts.Runtime
