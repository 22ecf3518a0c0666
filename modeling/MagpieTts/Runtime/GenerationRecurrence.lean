import MagpieTts.Runtime.SessionWorkspace

/-!
# The recurrence of a request

What the engines compute on one another's results, without buffers: the alignment controller reads
the scores of a decoder step, the Local AR engine its hidden state, and the next decoder step the
tokens, the prior and the caches that they leave. The recurrence goes on behind an end of speech.

## Main definitions

* `Recurrence`: the engines, the request, and what the buffers of the controller held before it.
* `Recurrence.state`, `Recurrence.step`: the states in front of and behind each Local AR step.
* `Recurrence.calls`: the calls of the prefill and of the first Local AR steps.
* `Recurrence.codecFrame`, `Recurrence.diagnostics`: the frames and the entries of the steps.
* `Recurrence.chunkCall`, `Recurrence.chunkPcm`: the codec on the frames of a chunk.
-/

namespace MagpieTts.Runtime

open MagpieTts.Library MagpieTts.Plugins

/-- The engines of a request, and what the buffers of the alignment controller held before it. -/
structure Recurrence (types : SessionTypes) where
  engines : SessionEngines types
  arguments : PipelineArguments
  counters : ℕ → ℕ
  prior : ℕ → PriorValue

/-- In front of a Local AR step. -/
structure GenerationState (types : SessionTypes) where
  decoderHidden : types.Hidden
  alignmentScores : ℕ → Score types.AttentionScore
  executionStatus : ℤ
  selfCaches : types.SelfCaches
  alignment : AlignmentMemory
  rngCounter : ℤ
  generationFinished : Bool

/-- Behind a Local AR step. -/
structure GenerationStep (types : SessionTypes) where
  executionStatus : ℤ
  selfCaches : types.SelfCaches
  alignment : AlignmentMemory
  outputs : LocalArOutputs
  generationFinished : Bool

namespace Recurrence

variable {types : SessionTypes} (self : Recurrence types)

def textLength : ℕ := self.arguments.textTokenIds.length

def contract : AlignmentKernelContract :=
  self.arguments.manifest.alignment.kernelContract self.textLength

/-- The mask of the two rows of the condition. -/
def conditionMask : List Bool :=
  boundTensor (self.textLength * 2)
    (conditionMaskElement self.textLength fun _ => true)

/-- The mask of the text. -/
def textMask : List Bool := List.replicate self.textLength true

/-- The two rows of the condition. -/
def condition : List types.Element :=
  boundTensor (self.textLength * kModelWidth * 2)
    (cfgConditionElement self.textLength
      (self.engines.textEncoder self.arguments.textTokenIds self.textMask))

def prefill : PrefillOutputs types :=
  self.engines.mainDecoderPrefill self.condition self.conditionMask

/-- In front of the first step. -/
def start : GenerationState types where
  decoderHidden := self.prefill.lastHidden
  alignmentScores := self.prefill.alignment
  executionStatus := 0
  selfCaches := self.prefill.selfCaches
  alignment :=
    { counters := copyTo (List.replicate self.textLength 0) self.counters
      lastAttended := self.arguments.manifest.alignment.initialAttended
      nextPrior := self.prior
      attendedTokenIndex := 0
      unfinishedText := false
      invalidState := 0 }
  rngCounter := 0
  generationFinished := false

/-- The controller behind a state. -/
def aligned (state : GenerationState types) : AlignmentMemory :=
  launchAlignmentController self.contract state.alignmentScores state.alignment

/-- What a Local AR step is given. The end of speech is forbidden in the first two. -/
def localArInputsOf (number : ℕ) (state : GenerationState types) : LocalArInputs types where
  decoderHidden := state.decoderHidden
  unfinished := (self.aligned state).unfinishedText
  finished := state.generationFinished
  forbidEos := decide (number < 2)
  rngSeed := self.arguments.randomSeed
  rngCounter := state.rngCounter

/-- A Local AR step. An end of speech is kept. -/
def speak (number : ℕ) (state : GenerationState types) : GenerationStep types :=
  let outputs := self.engines.localAr (self.localArInputsOf number state)
  { executionStatus := state.executionStatus
    selfCaches := state.selfCaches
    alignment := self.aligned state
    outputs
    generationFinished := (finalizeLocalStepScalars outputs.invalidRows outputs.endFrameIndex
      outputs.updatedRngCounter state.generationFinished).generationFinished }

/-- What the decoder step behind a Local AR step is given. -/
def decoderStepInputsOf (number : ℕ) (step : GenerationStep types) : DecoderStepInputs types where
  previousCodecTokens := boundTensor (kLocalArCodebooks * kLocalArFrames) step.outputs.codecTokens
  position := (self.arguments.manifest.kvCache.firstStepPosition : ℤ) + number
  executionStatus := step.executionStatus
  alignmentPrior := boundTensor (self.textLength * 2) step.alignment.nextPrior
  conditionMask := self.conditionMask
  selfCaches := step.selfCaches
  crossCaches := self.prefill.crossCaches

/-- A decoder step. -/
def decode (number : ℕ) (step : GenerationStep types) : GenerationState types :=
  let outputs := self.engines.mainDecoderStep (self.decoderStepInputsOf number step)
  { decoderHidden := outputs.decoderHidden
    alignmentScores := outputs.alignment
    executionStatus := outputs.executionStatus
    selfCaches := outputs.selfCaches
    alignment := step.alignment
    rngCounter := step.outputs.updatedRngCounter
    generationFinished := step.generationFinished }

/-- In front of the Local AR step of a number. -/
def state : ℕ → GenerationState types
  | 0 => self.start
  | number + 1 => self.decode number (self.speak number (state number))

/-- Behind the Local AR step of a number. -/
def step (number : ℕ) : GenerationStep types := self.speak number (self.state number)

def localArInputs (number : ℕ) : LocalArInputs types :=
  self.localArInputsOf number (self.state number)

/-- The decoder step behind the Local AR step of a number. -/
def decoderStepInputs (number : ℕ) : DecoderStepInputs types :=
  self.decoderStepInputsOf number (self.step number)

/-- The calls in front of the first Local AR step. -/
def prefillCalls : List (DecoderCall types) :=
  [.textEncoder self.arguments.textTokenIds self.textMask,
    .mainDecoderPrefill self.condition self.conditionMask]

/-- The calls up to a number of Local AR steps. -/
def calls : ℕ → List (DecoderCall types)
  | 0 => self.prefillCalls
  | 1 => self.prefillCalls ++ [.localAr (self.localArInputs 0)]
  | number + 2 => calls (number + 1) ++
      [.mainDecoderStep (self.decoderStepInputs number), .localAr (self.localArInputs (number + 1))]

/-- A token of the stream, by its frame and its codebook. -/
def codecFrame (frame codebook : ℕ) : ℤ :=
  (self.step (frame / kLocalArFrames)).outputs.codecTokens
    (codebook * kLocalArFrames + frame % kLocalArFrames)

/-- The entry of a step. -/
def diagnostics (number : ℕ) : GenerationStepDiagnostics where
  attendedTokenIndex := (self.step number).alignment.attendedTokenIndex
  alignmentInvalid := (self.step number).alignment.invalidState
  localInvalidRows := (self.step number).outputs.invalidRows
  endFrameIndex := (self.step number).outputs.endFrameIndex
  reserved := 0

/-- The record of the steps from `first` on. -/
def batchDiagnostics (first stepCount : ℕ) : GenerationBatchDiagnostics where
  stepCount := stepCount
  mainDecoderExecutionStatus := (self.step (first + stepCount - 1)).executionStatus
  steps := fun step => if step < stepCount then self.diagnostics (first + step) else .unused

/-! ### The codec -/

/-- The tensor of `count` frames from `first` on. -/
def codecTokens (first count : ℕ) : List ℤ :=
  boundTensor (kLocalArCodebooks * count) fun index =>
    self.codecFrame (first + index % count) (index / count)

/-- The first frame of a chunk behind open ones. -/
def chunkStart : ℕ → ℕ
  | 0 => 0
  | number + 1 => 4 + 8 * number

/-- The states of the codec behind an open chunk. -/
def codecStates : ℕ → types.CodecStates
  | 0 => (self.engines.nanocodecInitial (self.codecTokens 0 4)).states
  | number + 1 => (self.engines.nanocodecSteady (self.codecTokens (chunkStart (number + 1)) 8)
      (codecStates number)).states

/-- The call of the codec on a chunk with frames. -/
def chunkCall (number frameCount : ℕ) (final : Bool) : CodecCall types :=
  let codecTokens := self.codecTokens (chunkStart number) frameCount
  match number with
  | 0 => .initial codecTokens
  | previous + 1 =>
    if final then .tail codecTokens (self.codecStates previous)
    else .steady codecTokens (self.codecStates previous)

/-- The samples of a chunk. -/
def chunkPcm (number frameCount : ℕ) (final : Bool) : List types.Sample :=
  boundTensor (frameCount * 1024)
    (self.engines.nanocodec (self.chunkCall number frameCount final)).pcm

end Recurrence

end MagpieTts.Runtime
