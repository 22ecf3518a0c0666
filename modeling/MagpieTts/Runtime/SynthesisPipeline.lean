import MagpieTts.Runtime.GenerationDiagnostics
import MagpieTts.Runtime.RequestAllocation
import MagpieTts.Runtime.RuntimeManifest
import MagpieTts.Runtime.SynthesisErrors

/-!
# The host side of the synthesis pipeline

The member functions of `Pipeline` in `synthesis_pipeline.cpp` that enqueue device work or read its
results. Device work is a list of commands; what a command computes is not decided here. The
functions throw, so they are computations of `PipelineM`.

The CUDA graphs of the three engines are captured from the calls that they replace and replayed in
their place, so a graph and the call it stands for are one command. The discarded warm-up calls of
the startup gate and its golden capture are left out, as are the event records, which add no command
of their own.

## Main definitions

* `DeviceCommand`: the device work.
* `Pipeline`, `PipelineM`: the fields of the class and computations on them.
* `Pipeline.generateFirstFour`, `Pipeline.generateSteadyBatch`, `Pipeline.awaitGenerationBatch`,
  `Pipeline.scheduleCodec`, `Pipeline.awaitCodec`, `Pipeline.audioChunk`: the stages of a batch.
-/

namespace MagpieTts.Runtime

/-- One of the two buffers of a cache or state that each step reads from one and writes into the
other. -/
abbrev BufferIndex := Fin 2

instance instNeZeroTwo : NeZero (2 : ℕ) := ⟨by decide⟩

inductive CodecRoute where
  | initial
  | steady
  | tail
  deriving DecidableEq

/-- The work that the pipeline enqueues, in the order of the enqueues. -/
inductive DeviceCommand where
  | initializeRequest
  | runTextEncoder
  | prepareCfgInputs
  | runPrefill
  | advanceAlignment (stepSlot : ℕ)
  | stageUnfinished (stepSlot : ℕ)
  | updateForbidEos (forbidEos : Bool)
  | runLocalAr
  | finalizeLocalStep (stepSlot : ℕ) (batchSlot : BatchSlot) (aggregateFrameOffset : ℕ)
  | advanceDecoderPosition
  | runDecoderStep (cacheInput : BufferIndex)
  | waitCodesConsumed (batchSlot : BatchSlot)
  | packGenerationDiagnostics (batchSlot : BatchSlot) (stepCount : ℕ) (cacheIndex : BufferIndex)
  | copyGenerationDiagnostics (batchSlot : BatchSlot)
  | packCodecFrames (batchSlot : BatchSlot) (frameCount : ℕ)
  | runCodec (route : CodecRoute) (frameCount : ℕ) (stateInput : BufferIndex)
  | copyValidSampleLength
  | copyPcm (sampleCount : ℕ)
  deriving DecidableEq

/-- What a `Pipeline` is constructed from. -/
structure PipelineArguments where
  manifest : RuntimeBundleManifest
  pinnedPcm : HostAllocation
  textTokenIds : List ℤ
  randomSeed : ℕ

/-- `pinned_pcm_capacity_samples`. -/
def PipelineArguments.pinnedPcmCapacitySamples (arguments : PipelineArguments) : ℕ :=
  arguments.manifest.codec.steadyFrames * arguments.manifest.codec.hopLengthSamples

structure GenerationBatchResult where
  batchSlot : BatchSlot
  frameCount : ℕ
  final : Bool
  eosStep : ℤ
  eosFrameIndex : ℤ
  attendedTokenIndices : List ℤ
  deriving DecidableEq

structure PendingGenerationBatch where
  batchSlot : BatchSlot
  stepCount : ℕ
  decoderStepsAfterBatch : ℕ
  deriving DecidableEq

structure PendingCodecBatch where
  generation : GenerationBatchResult
  expectedSamples : ℕ
  first : Bool
  deriving DecidableEq

/-- The fields of the class that its functions write, and the commands they enqueued. The counters
stay far below their types: the decoder steps are limited. -/
structure Pipeline where
  cacheIndex : BufferIndex
  codecStateIndex : BufferIndex
  generatedDecoderSteps : ℕ
  nextSampleIndex : ℕ
  sequence : ℕ
  committedTextTokens : ℕ
  generationPending : BatchSlot → Bool
  slotRequiresReuseWait : BatchSlot → Bool
  audioPending : Bool
  overlapContract : AsyncPipelineContract
  commands : List DeviceCommand

/-- A member function: it returns or throws, and either way leaves a pipeline. -/
abbrev PipelineM := ExceptT WorkerException (StateM Pipeline)

namespace Pipeline

/-- A constructed pipeline. -/
def initial : Pipeline where
  cacheIndex := 0
  codecStateIndex := 0
  generatedDecoderSteps := 0
  nextSampleIndex := 0
  sequence := 0
  committedTextTokens := 0
  generationPending := fun _ => false
  slotRequiresReuseWait := fun _ => false
  audioPending := false
  overlapContract := .initial
  commands := []

/-- `fail`. -/
def fail {β : Type} (code : SynthesisPipelineErrorCode) (detail : String) : PipelineM β :=
  throw (.synthesis code detail)

/-- `fail` under a condition. -/
def failIf (condition : Prop) [Decidable condition] (code : SynthesisPipelineErrorCode)
    (detail : String) : PipelineM Unit :=
  if condition then fail code detail else pure ()

def enqueue (command : DeviceCommand) : PipelineM Unit :=
  modify fun self => { self with commands := self.commands ++ [command] }

/-- An operation of the overlap contract, which may throw a `std::logic_error`. -/
def overlap (operation : AsyncPipelineContract → Except String AsyncPipelineContract) :
    PipelineM Unit := do
  match operation (← get).overlapContract with
  | .ok contract => modify fun self => { self with overlapContract := contract }
  | .error what => throw (.standard what)

/-! ### Generation -/

variable (arguments : PipelineArguments)

def requireInitialBatchCapacity : PipelineM Unit := do
  failIf (arguments.manifest.limits.maximumDecoderSteps < 2) .contextExhausted
    "the fixed first four codec frames require two decoder steps"
  failIf (arguments.manifest.kvCache.stepPositionUpperBoundExclusive ≤
      arguments.manifest.kvCache.firstStepPosition) .contextExhausted
    "the first Main Decoder step is outside the authenticated position range"

def requireSteadyBatchCapacity : PipelineM Unit := do
  let steps := kMaximumDecoderStepsPerEmission
  let self ← get
  failIf (self.generatedDecoderSteps = 0 ∨
      arguments.manifest.limits.maximumDecoderSteps < self.generatedDecoderSteps + steps)
    .contextExhausted
    "the next fixed four-step generation batch would exceed the authenticated decoder context"
  failIf (arguments.manifest.kvCache.stepPositionUpperBoundExclusive ≤
      arguments.manifest.kvCache.firstStepPosition + self.generatedDecoderSteps + steps - 2)
    .contextExhausted
    "the next fixed four-step generation batch would exceed the authenticated position range"

def initializeRequest : PipelineM Unit := do
  failIf (arguments.manifest.kvCache.firstStepPosition = 0) .invariantFailure
    "Main Decoder first position must be greater than zero"
  enqueue .initializeRequest

def runTextEncoder : PipelineM Unit := do
  enqueue .runTextEncoder
  enqueue .prepareCfgInputs

def runPrefill : PipelineM Unit := do
  enqueue .runPrefill
  modify fun self => { self with cacheIndex := 0 }

def advanceAlignment (stepSlot : ℕ) : PipelineM Unit := enqueue (.advanceAlignment stepSlot)

def runLocal (stepSlot : ℕ) (batchSlot : BatchSlot) (aggregateFrameOffset : ℕ) :
    PipelineM Unit := do
  if stepSlot ≠ 0 then
    enqueue (.stageUnfinished stepSlot)
  enqueue (.updateForbidEos (decide ((← get).generatedDecoderSteps < 2)))
  enqueue .runLocalAr
  enqueue (.finalizeLocalStep stepSlot batchSlot aggregateFrameOffset)
  modify fun self => { self with generatedDecoderSteps := self.generatedDecoderSteps + 1 }

def runDecoderStep (stepSlot : ℕ) : PipelineM Unit := do
  let self ← get
  failIf (self.generatedDecoderSteps = 0 ∨
      arguments.manifest.limits.maximumDecoderSteps ≤ self.generatedDecoderSteps)
    .contextExhausted "Main Decoder step would exceed the authenticated context"
  failIf (arguments.manifest.kvCache.stepPositionUpperBoundExclusive ≤
      arguments.manifest.kvCache.firstStepPosition + self.generatedDecoderSteps - 1)
    .contextExhausted "absolute Main Decoder position reached its upper bound"
  enqueue .advanceDecoderPosition
  enqueue (.runDecoderStep self.cacheIndex)
  modify fun self => { self with cacheIndex := 1 - self.cacheIndex }
  advanceAlignment stepSlot

def prepareGenerationSlot (batchSlot : BatchSlot) : PipelineM Unit := do
  if (← get).slotRequiresReuseWait batchSlot then
    enqueue (.waitCodesConsumed batchSlot)
    overlap fun contract => contract.queueReuseDependency batchSlot
    modify fun self =>
      { self with
        slotRequiresReuseWait := Function.update self.slotRequiresReuseWait batchSlot false }
  overlap fun contract => contract.scheduleGeneration batchSlot

def finishGenerationBatch (batchSlot : BatchSlot) (stepCount : ℕ) :
    PipelineM PendingGenerationBatch := do
  enqueue (.packGenerationDiagnostics batchSlot stepCount (← get).cacheIndex)
  enqueue (.copyGenerationDiagnostics batchSlot)
  modify fun self =>
    { self with generationPending := Function.update self.generationPending batchSlot true }
  return { batchSlot, stepCount, decoderStepsAfterBatch := (← get).generatedDecoderSteps }

def generateFirstFour (batchSlot : BatchSlot) : PipelineM PendingGenerationBatch := do
  prepareGenerationSlot batchSlot
  advanceAlignment 0
  runLocal 0 batchSlot 0
  runDecoderStep arguments 1
  runLocal 1 batchSlot 2
  finishGenerationBatch batchSlot 2

def generateSteadyBatch (batchSlot : BatchSlot) : PipelineM PendingGenerationBatch := do
  requireSteadyBatchCapacity arguments
  prepareGenerationSlot batchSlot
  (List.range kMaximumDecoderStepsPerEmission).forM fun stepSlot => do
    runDecoderStep arguments stepSlot
    runLocal stepSlot batchSlot (stepSlot * arguments.manifest.localAr.framesPerDecoderStep)
  finishGenerationBatch batchSlot kMaximumDecoderStepsPerEmission

/-! ### The result of a generation batch -/

def kCodecFramesPerDecoderStep : ℕ := 2

/-- `retained_codec_frames_before_eos`. The indexed EOS frame is not retained. -/
def retainedCodecFramesBeforeEos (decoderStepIndex : ℕ) (eosFrameIndex : ℤ) : Except String ℕ :=
  if eosFrameIndex ≠ 0 ∧ eosFrameIndex ≠ 1 then
    .error "EOS frame index must be zero or one"
  else if (maximumUint32 - 1) / kCodecFramesPerDecoderStep < decoderStepIndex then
    .error "retained codec frame count overflows uint32"
  else
    .ok (decoderStepIndex * kCodecFramesPerDecoderStep + eosFrameIndex.toNat)

/-- The local variables of the loop over the steps of a batch. -/
structure BatchProgress where
  attended : List ℤ
  emittedFrames : ℕ
  final : Bool
  eosStep : ℤ
  eosFrameIndex : ℤ

/-- One pass of the loop over the steps. Steps behind an end of speech are checked as all others,
but do not belong to the batch. -/
def readGenerationStep (diagnostics : GenerationStepDiagnostics) (step : ℕ)
    (progress : BatchProgress) : PipelineM BatchProgress := do
  failIf (diagnostics.alignmentInvalid ≠ 0) .alignmentFailure
    ("alignment controller rejected step " ++ toString step)
  failIf (diagnostics.localInvalidRows ≠ 0) .localArFailure
    ("Local AR rejected step " ++ toString step)
  failIf (diagnostics.attendedTokenIndex < 0 ∨
      (arguments.textTokenIds.length : ℤ) ≤ diagnostics.attendedTokenIndex) .alignmentFailure
    "alignment produced an out-of-range token index"
  let eos := diagnostics.endFrameIndex
  failIf (eos ≠ -1 ∧ eos ≠ 0 ∧ eos ≠ 1) .localArFailure
    "Local AR produced an invalid EOS frame index"
  if progress.final then
    return progress
  let attended := progress.attended ++ [diagnostics.attendedTokenIndex]
  if 0 ≤ eos then
    match retainedCodecFramesBeforeEos step eos with
    | .ok emittedFrames =>
      return { attended, emittedFrames, final := true, eosStep := step, eosFrameIndex := eos }
    | .error what => throw (.standard what)
  else
    return { progress with attended }

/-- `await_generation_batch`, behind the wait for its event, with the record that the event makes
readable. -/
def awaitGenerationBatch (pending : PendingGenerationBatch)
    (diagnostics : GenerationBatchDiagnostics) : PipelineM GenerationBatchResult := do
  modify fun self =>
    { self with
      generationPending := Function.update self.generationPending pending.batchSlot false }
  overlap fun contract => contract.markGenerationReady pending.batchSlot
  let validation := validateGenerationDiagnosticPayload diagnostics pending.stepCount
  failIf (validation.valid = false) .invariantFailure
    ("packed generation diagnostics failed validation at step " ++ toString validation.step ++
      " with code " ++ toString validation.code.toNat)
  failIf (diagnostics.mainDecoderExecutionStatus ≠ 0) .mainDecoderFailure
    (describeMainDevicePositionStatus diagnostics.mainDecoderExecutionStatus)
  let progress ← (List.range pending.stepCount).foldlM
    (fun progress step => readGenerationStep arguments (diagnostics.steps step) step progress)
    { attended := []
      emittedFrames := pending.stepCount * arguments.manifest.localAr.framesPerDecoderStep
      final := false
      eosStep := -1
      eosFrameIndex := -1 }
  failIf (progress.final = false ∧
      arguments.manifest.limits.maximumDecoderSteps ≤ pending.decoderStepsAfterBatch)
    .contextExhausted "generation reached the maximum decoder steps without EOS"
  return {
    batchSlot := pending.batchSlot
    frameCount := progress.emittedFrames
    final := progress.final
    eosStep := progress.eosStep
    eosFrameIndex := progress.eosFrameIndex
    attendedTokenIndices := progress.attended }

/-! ### The codec -/

/-- `schedule_codec`. -/
def scheduleCodec (batch : GenerationBatchResult) (first : Bool) : PipelineM PendingCodecBatch := do
  failIf (arguments.manifest.codec.steadyFrames < batch.frameCount ∨
      (batch.frameCount = 0 ∧ (batch.final = false ∨ first = true))) .codecFailure
    ("zero codec frames are valid only for a non-FIRST FINAL control marker; decoded chunks " ++
      "must contain 1-8 frames")
  failIf (batch.frameCount = 0) .invariantFailure
    "zero-frame terminal markers do not enter NanoCodec"
  failIf ((← get).audioPending = true) .invariantFailure
    "the single PCM slot was reused before publication"
  enqueue (.packCodecFrames batch.batchSlot batch.frameCount)
  overlap fun contract => contract.scheduleCodec batch.batchSlot
  modify fun self =>
    { self with
      slotRequiresReuseWait := Function.update self.slotRequiresReuseWait batch.batchSlot true }
  if first then
    enqueue (.runCodec .initial batch.frameCount 0)
    modify fun self => { self with codecStateIndex := 0 }
  else
    failIf (batch.final = false ∧ batch.frameCount ≠ arguments.manifest.codec.steadyFrames)
      .codecFailure "a non-terminal codec call is not the fixed steady route"
    enqueue (.runCodec (if batch.final then .tail else .steady) batch.frameCount
      (← get).codecStateIndex)
    modify fun self => { self with codecStateIndex := 1 - self.codecStateIndex }
  let expectedSamples := batch.frameCount * arguments.manifest.codec.hopLengthSamples
  failIf (arguments.pinnedPcmCapacitySamples < expectedSamples) .codecFailure
    "PCM output exceeds the pinned emission slot"
  enqueue .copyValidSampleLength
  enqueue (.copyPcm expectedSamples)
  modify fun self => { self with audioPending := true }
  return { generation := batch, expectedSamples, first }

/-- The part of `await_codec_and_publish` in front of its check for a cancellation: the wait for the
event, and the checks of the results that it makes readable. -/
def awaitCodec (pending : PendingCodecBatch) (validSampleLength : ℤ) (pcmFinite : Bool) :
    PipelineM Unit := do
  modify fun self => { self with audioPending := false }
  failIf (validSampleLength ≠ pending.expectedSamples) .codecFailure
    "NanoCodec valid sample length differs from frame contract"
  failIf (pcmFinite = false) .codecFailure "NanoCodec produced non-finite PCM"

/-- One pass of the loop over the attended positions of a batch: an event where the step commits
more of the text. A step that ends at its first frame contributes no audio and no event. -/
def readAttendedStep (batch : GenerationBatchResult) (events : List AlignmentProgress)
    (step : ℕ) (attended : ℤ) : PipelineM (List AlignmentProgress) := do
  let framesPerStep := arguments.manifest.localAr.framesPerDecoderStep
  let terminalStep := batch.final && step + 1 = batch.attendedTokenIndices.length
  failIf (terminalStep = true ∧ batch.frameCount < step * framesPerStep) .invariantFailure
    "terminal attended prefix exceeds its codec frame count"
  let stepFrames := if terminalStep then batch.frameCount - step * framesPerStep else framesPerStep
  if stepFrames = 0 then
    return events
  let self ← get
  let boundary := self.nextSampleIndex +
    (step * framesPerStep + stepFrames) * arguments.manifest.codec.hopLengthSamples
  let committed := min (attended.toNat + 1) arguments.textTokenIds.length
  if self.committedTextTokens < committed then
    set { self with committedTextTokens := committed }
    return events ++ [{ sampleIndex := boundary, committedTextTokens := committed }]
  else
    return events

/-- The constructor of an audio buffer on shared storage. -/
def audioBuffer (samples sampleCount : ℕ) : PipelineM AudioBuffer :=
  if h : samples = 0 ↔ sampleCount = 0 then
    return ⟨samples, sampleCount, h⟩
  else
    throw (.standard "audio buffer pointer and sample count disagree")

/-- The chunk that `await_codec_and_publish` publishes. Its samples are the pinned PCM buffer
itself. -/
def audioChunk (pending : PendingCodecBatch) : PipelineM AudioChunk := do
  let batch := pending.generation
  let events ← batch.attendedTokenIndices.zipIdx.foldlM
    (fun events (attended, step) => readAttendedStep arguments batch events step attended) []
  let samples ← audioBuffer arguments.pinnedPcm.address pending.expectedSamples
  let self ← get
  return {
    samples
    firstSampleIndex := self.nextSampleIndex
    sequence := self.sequence
    codecFrameCount := batch.frameCount
    first := pending.first
    final := batch.final
    alignmentValid := true
    committedTextTokens := self.committedTextTokens
    alignmentEvents := events }

/-- The null pointer of an empty buffer. -/
theorem null_iff_zero : (0 : ℕ) = 0 ↔ (0 : ℕ) = 0 := Iff.rfl

/-- The chunk that `publish_zero_frame_final` publishes. -/
def zeroFrameFinal : PipelineM AudioChunk := do
  let self ← get
  return {
    samples := ⟨0, 0, null_iff_zero⟩
    firstSampleIndex := self.nextSampleIndex
    sequence := self.sequence
    codecFrameCount := 0
    first := false
    final := true
    alignmentValid := true
    committedTextTokens := self.committedTextTokens
    alignmentEvents := [] }

/-- What a rejected publication throws. -/
def publicationFailure (error : RequestStateError) (chunk : AudioChunk)
    (batch : GenerationBatchResult) : WorkerException :=
  .synthesis .invariantFailure (describeAudioChunkValidationFailure error chunk
    { randomSeed := arguments.randomSeed
      eosStep := batch.eosStep
      eosFrameIndex := batch.eosFrameIndex
      attendedTokenIndices := batch.attendedTokenIndices })

/-- `settle_inflight`, behind its waits. -/
def settleInflight : PipelineM Unit := do
  [0, 1].forM fun (slot : BatchSlot) => do
    if (← get).generationPending slot then
      modify fun self =>
        { self with generationPending := Function.update self.generationPending slot false }
      overlap fun contract => contract.markGenerationReady slot
  modify fun self => { self with audioPending := false }

end Pipeline

end MagpieTts.Runtime
