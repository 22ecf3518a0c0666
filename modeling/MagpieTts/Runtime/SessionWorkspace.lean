import MagpieTts.Plugins.EosKernels
import MagpieTts.Runtime.AlignmentLaunch
import MagpieTts.Runtime.SynthesisPipeline

/-!
# The workspace of a session

The buffers of `SessionWorkspace`, and what the commands of the pipeline do to them. The engines are
arbitrary functions of the tensors that are bound to them; the kernels between them are those of
`synthesis_kernels.cu` and `alignment_kernel.cu`. A tensor is read in the shape of its request, so a
buffer may hold anything behind it. The commands run in the order of their enqueues: no command that
is in flight on one stream touches what the other stream uses (`InflightPipeline`).

## Main definitions

* `SessionTypes`, `SessionEngines`: what the engines compute on, and the engines.
* `SessionWorkspace`: the buffers.
* `DeviceCommand.execute`: what a command does to the buffers.
* `DeviceCommand.decoderCall`, `DeviceCommand.codecCall`: the call of an engine that it makes.
* `SessionTrace`: the buffers, and the calls of the engines so far.
-/

namespace MagpieTts.Runtime

open MagpieTts.Library MagpieTts.Plugins

/-! ### Engines -/

/-- What the engines compute on. The pipeline looks into the scores and into the samples, and moves
the other tensors. -/
structure SessionTypes where
  Element : Type
  zero : Element
  AttentionScore : Type
  order : LinearOrder AttentionScore
  Hidden : Type
  SelfCaches : Type
  CrossCaches : Type
  CodecStates : Type
  Sample : Type
  isfinite : Sample → Bool

instance (types : SessionTypes) : LinearOrder types.AttentionScore := types.order

variable {types : SessionTypes}

structure PrefillOutputs (types : SessionTypes) where
  lastHidden : types.Hidden
  alignment : ℕ → Score types.AttentionScore
  selfCaches : types.SelfCaches
  crossCaches : types.CrossCaches

/-- The tensors bound to the inputs of the Main Decoder step. -/
structure DecoderStepInputs (types : SessionTypes) where
  previousCodecTokens : List ℤ
  position : ℤ
  executionStatus : ℤ
  alignmentPrior : List PriorValue
  conditionMask : List Bool
  selfCaches : types.SelfCaches
  crossCaches : types.CrossCaches

structure DecoderStepOutputs (types : SessionTypes) where
  decoderHidden : types.Hidden
  alignment : ℕ → Score types.AttentionScore
  executionStatus : ℤ
  selfCaches : types.SelfCaches

/-- The tensors bound to the inputs of the Local AR engine. -/
structure LocalArInputs (types : SessionTypes) where
  decoderHidden : types.Hidden
  unfinished : Bool
  finished : Bool
  forbidEos : Bool
  rngSeed : ℤ
  rngCounter : ℤ

structure LocalArOutputs where
  codecTokens : ℕ → ℤ
  updatedRngCounter : ℤ
  invalidRows : ℤ
  endFrameIndex : ℤ

structure CodecOutputs (types : SessionTypes) where
  pcm : ℕ → types.Sample
  validSampleLength : ℤ
  states : types.CodecStates

/-- The engines of a bundle, as functions of their inputs. -/
structure SessionEngines (types : SessionTypes) where
  textEncoder : (textTokenIds : List ℤ) → (textMask : List Bool) → ℕ → types.Element
  mainDecoderPrefill : (condition : List types.Element) → (conditionMask : List Bool) →
    PrefillOutputs types
  mainDecoderStep : DecoderStepInputs types → DecoderStepOutputs types
  localAr : LocalArInputs types → LocalArOutputs
  nanocodecInitial : (codecTokens : List ℤ) → CodecOutputs types
  nanocodecSteady : (codecTokens : List ℤ) → types.CodecStates → CodecOutputs types
  nanocodecTail : (codecTokens : List ℤ) → types.CodecStates → CodecOutputs types

/-- A call of a NanoCodec engine, with the tensors bound to its inputs. The initial engine reads no
states. -/
inductive CodecCall (types : SessionTypes) where
  | initial (codecTokens : List ℤ)
  | steady (codecTokens : List ℤ) (states : types.CodecStates)
  | tail (codecTokens : List ℤ) (states : types.CodecStates)

def SessionEngines.nanocodec (engines : SessionEngines types) :
    CodecCall types → CodecOutputs types
  | .initial codecTokens => engines.nanocodecInitial codecTokens
  | .steady codecTokens states => engines.nanocodecSteady codecTokens states
  | .tail codecTokens states => engines.nanocodecTail codecTokens states

/-- A call of an engine of the recurrence, with the tensors bound to its inputs. -/
inductive DecoderCall (types : SessionTypes) where
  | textEncoder (textTokenIds : List ℤ) (textMask : List Bool)
  | mainDecoderPrefill (condition : List types.Element) (conditionMask : List Bool)
  | localAr (inputs : LocalArInputs types)
  | mainDecoderStep (inputs : DecoderStepInputs types)

/-! ### Buffers -/

/-- The tensor of the first `count` elements of a buffer. -/
def boundTensor {β : Type} (count : ℕ) (buffer : ℕ → β) : List β := (List.range count).map buffer

/-- A copy of `values` to the front of a buffer. -/
def copyTo {β : Type} (values : List β) (buffer : ℕ → β) : ℕ → β :=
  fun index => values.getD index (buffer index)

/-- The buffers of a session. Those with one entry for each step slot have a function of the slot,
and those that alternate have a function of the buffer index. -/
structure SessionWorkspace (types : SessionTypes) where
  textTokenIds : ℕ → ℤ
  textMask : ℕ → Bool
  textCondition : ℕ → types.Element
  cfgCondition : ℕ → types.Element
  conditionMask : ℕ → Bool
  alignmentScores : ℕ → Score types.AttentionScore
  alignmentCounters : ℕ → ℕ
  lastAttended : ℕ
  alignmentPrior : ℕ → PriorValue
  attendedTokenIndex : ℕ → ℕ
  unfinishedText : ℕ → Bool
  alignmentInvalid : ℕ → ℕ
  decoderHidden : types.Hidden
  decoderPosition : ℤ
  mainDecoderExecutionStatus : BufferIndex → ℤ
  selfCaches : BufferIndex → types.SelfCaches
  crossCaches : types.CrossCaches
  forbidEos : Bool
  generationFinished : Bool
  rngSeed : ℤ
  rngCounter : ℤ
  updatedRngCounter : ℤ
  localCodecTokens : ℕ → ℤ
  canonicalLocalInvalidRows : ℤ
  canonicalLocalEndFrameIndex : ℤ
  localInvalidRows : ℕ → ℤ
  localEndFrameIndex : ℕ → ℤ
  aggregateCodecTokens : BatchSlot → ℕ → ℤ
  generationDiagnostics : BatchSlot → GenerationBatchDiagnostics
  pinnedGenerationDiagnostics : BatchSlot → GenerationBatchDiagnostics
  codecInputTokens : ℕ → ℤ
  codecStates : BufferIndex → types.CodecStates
  codecPcm : ℕ → types.Sample
  codecValidSampleLength : ℤ
  pinnedValidSampleLength : ℤ
  pinnedPcm : ℕ → types.Sample

namespace SessionWorkspace

variable (self : SessionWorkspace types)

/-- The buffers that a launch of the alignment controller for a step slot is given. -/
def alignmentMemory (stepSlot : ℕ) : AlignmentMemory where
  counters := self.alignmentCounters
  lastAttended := self.lastAttended
  nextPrior := self.alignmentPrior
  attendedTokenIndex := self.attendedTokenIndex stepSlot
  unfinishedText := self.unfinishedText stepSlot
  invalidState := self.alignmentInvalid stepSlot

def withAlignmentMemory (stepSlot : ℕ) (memory : AlignmentMemory) : SessionWorkspace types :=
  { self with
    alignmentCounters := memory.counters
    lastAttended := memory.lastAttended
    alignmentPrior := memory.nextPrior
    attendedTokenIndex :=
      Function.update self.attendedTokenIndex stepSlot memory.attendedTokenIndex
    unfinishedText := Function.update self.unfinishedText stepSlot memory.unfinishedText
    alignmentInvalid := Function.update self.alignmentInvalid stepSlot memory.invalidState }

/-- `local_bindings`. -/
def localArInputs : LocalArInputs types where
  decoderHidden := self.decoderHidden
  unfinished := self.unfinishedText 0
  finished := self.generationFinished
  forbidEos := self.forbidEos
  rngSeed := self.rngSeed
  rngCounter := self.rngCounter

/-- `step_bindings`, for a text of `textLength` tokens. -/
def decoderStepInputs (textLength : ℕ) (cacheInput : BufferIndex) : DecoderStepInputs types where
  previousCodecTokens := boundTensor (kLocalArCodebooks * kLocalArFrames) self.localCodecTokens
  position := self.decoderPosition
  executionStatus := self.mainDecoderExecutionStatus cacheInput
  alignmentPrior := boundTensor (textLength * 2) self.alignmentPrior
  conditionMask := boundTensor (textLength * 2) self.conditionMask
  selfCaches := self.selfCaches cacheInput
  crossCaches := self.crossCaches

/-- `codec_initial_bindings` and `codec_stateful_bindings`. -/
def codecCall (route : CodecRoute) (frameCount : ℕ) (stateInput : BufferIndex) :
    CodecCall types :=
  let codecTokens := boundTensor (kLocalArCodebooks * frameCount) self.codecInputTokens
  match route with
  | .initial => .initial codecTokens
  | .steady => .steady codecTokens (self.codecStates stateInput)
  | .tail => .tail codecTokens (self.codecStates stateInput)

end SessionWorkspace

/-! ### Kernels -/

def kModelWidth : ℕ := 768

/-- An element of `cfg_condition`, as `prepare_cfg_inputs_kernel` writes it. -/
def cfgConditionElement (textLength : ℕ) (textCondition : ℕ → types.Element) (index : ℕ) :
    types.Element :=
  if index < textLength * kModelWidth then textCondition index else types.zero

/-- An element of `condition_mask`, as `prepare_cfg_inputs_kernel` writes it. -/
def conditionMaskElement (textLength : ℕ) (textMask : ℕ → Bool) (index : ℕ) : Bool :=
  if index < textLength then textMask index else index = textLength

/-- `launch_finalize_local_step`, the tokens, with the threads of its kernel in turn. -/
def launchFinalizeLocalStep (stepCodecTokens aggregate : ℕ → ℤ) (frameOffset : ℕ) : ℕ → ℤ :=
  storeAll aggregate ((List.range (kLocalArCodebooks * kLocalArFrames)).map
    (finalizeLocalStepThread stepCodecTokens frameOffset)).flatten

/-- `launch_pack_codec_frames`, with the threads of its kernel in turn. -/
def launchPackCodecFrames (aggregate packed : ℕ → ℤ) (frameCount : ℕ) : ℕ → ℤ :=
  storeAll packed ((List.range (kLocalArCodebooks * frameCount)).map
    (packCodecFramesThread aggregate frameCount)).flatten

/-- `pack_generation_diagnostics_kernel`. -/
def SessionWorkspace.packedDiagnostics (self : SessionWorkspace types) (stepCount : ℕ)
    (cacheIndex : BufferIndex) : GenerationBatchDiagnostics where
  stepCount := stepCount
  mainDecoderExecutionStatus := self.mainDecoderExecutionStatus cacheIndex
  steps := fun step =>
    if step < stepCount then
      { attendedTokenIndex := self.attendedTokenIndex step
        alignmentInvalid := self.alignmentInvalid step
        localInvalidRows := self.localInvalidRows step
        endFrameIndex := self.localEndFrameIndex step
        reserved := 0 }
    else
      .unused

/-! ### Commands -/

section Execute

variable (engines : SessionEngines types) (arguments : PipelineArguments)

/-- What a command does. -/
def DeviceCommand.execute (self : SessionWorkspace types) : DeviceCommand → SessionWorkspace types
  | .initializeRequest =>
    let textLength := arguments.textTokenIds.length
    { self with
      textTokenIds := copyTo arguments.textTokenIds self.textTokenIds
      textMask := copyTo (List.replicate textLength true) self.textMask
      alignmentCounters := copyTo (List.replicate textLength 0) self.alignmentCounters
      lastAttended := arguments.manifest.alignment.initialAttended
      rngSeed := arguments.randomSeed
      rngCounter := 0
      decoderPosition := (arguments.manifest.kvCache.firstStepPosition : ℤ) - 1
      mainDecoderExecutionStatus := fun _ => 0
      generationFinished := false }
  | .runTextEncoder =>
    let textLength := arguments.textTokenIds.length
    { self with
      textCondition := engines.textEncoder (boundTensor textLength self.textTokenIds)
        (boundTensor textLength self.textMask) }
  | .prepareCfgInputs =>
    let textLength := arguments.textTokenIds.length
    { self with
      cfgCondition := fun index =>
        if index < textLength * kModelWidth * 2 then
          cfgConditionElement textLength self.textCondition index
        else self.cfgCondition index
      conditionMask := fun index =>
        if index < textLength * 2 then conditionMaskElement textLength self.textMask index
        else self.conditionMask index }
  | .runPrefill =>
    let textLength := arguments.textTokenIds.length
    let outputs := engines.mainDecoderPrefill
      (boundTensor (textLength * kModelWidth * 2) self.cfgCondition)
      (boundTensor (textLength * 2) self.conditionMask)
    { self with
      decoderHidden := outputs.lastHidden
      alignmentScores := outputs.alignment
      selfCaches := Function.update self.selfCaches 0 outputs.selfCaches
      crossCaches := outputs.crossCaches }
  | .advanceAlignment stepSlot =>
    self.withAlignmentMemory stepSlot (launchAlignmentController
      (arguments.manifest.alignment.kernelContract arguments.textTokenIds.length)
      self.alignmentScores (self.alignmentMemory stepSlot))
  | .stageUnfinished stepSlot =>
    { self with
      unfinishedText := Function.update self.unfinishedText 0 (self.unfinishedText stepSlot) }
  | .updateForbidEos forbidEos => { self with forbidEos }
  | .runLocalAr =>
    let outputs := engines.localAr self.localArInputs
    { self with
      localCodecTokens := outputs.codecTokens
      updatedRngCounter := outputs.updatedRngCounter
      canonicalLocalInvalidRows := outputs.invalidRows
      canonicalLocalEndFrameIndex := outputs.endFrameIndex }
  | .finalizeLocalStep stepSlot batchSlot aggregateFrameOffset =>
    let scalars := finalizeLocalStepScalars self.canonicalLocalInvalidRows
      self.canonicalLocalEndFrameIndex self.updatedRngCounter self.generationFinished
    { self with
      aggregateCodecTokens := Function.update self.aggregateCodecTokens batchSlot
        (launchFinalizeLocalStep self.localCodecTokens (self.aggregateCodecTokens batchSlot)
          aggregateFrameOffset)
      localInvalidRows := Function.update self.localInvalidRows stepSlot scalars.stepInvalidRows
      localEndFrameIndex :=
        Function.update self.localEndFrameIndex stepSlot scalars.stepEndFrameIndex
      rngCounter := scalars.rngCounter
      generationFinished := scalars.generationFinished }
  | .advanceDecoderPosition => { self with decoderPosition := self.decoderPosition + 1 }
  | .runDecoderStep cacheInput =>
    let outputs := engines.mainDecoderStep
      (self.decoderStepInputs arguments.textTokenIds.length cacheInput)
    { self with
      decoderHidden := outputs.decoderHidden
      alignmentScores := outputs.alignment
      mainDecoderExecutionStatus := Function.update self.mainDecoderExecutionStatus
        (1 - cacheInput) outputs.executionStatus
      selfCaches := Function.update self.selfCaches (1 - cacheInput) outputs.selfCaches }
  | .waitCodesConsumed _ => self
  | .packGenerationDiagnostics batchSlot stepCount cacheIndex =>
    { self with
      generationDiagnostics := Function.update self.generationDiagnostics batchSlot
        (self.packedDiagnostics stepCount cacheIndex) }
  | .copyGenerationDiagnostics batchSlot =>
    { self with
      pinnedGenerationDiagnostics := Function.update self.pinnedGenerationDiagnostics batchSlot
        (self.generationDiagnostics batchSlot) }
  | .packCodecFrames batchSlot frameCount =>
    { self with
      codecInputTokens := launchPackCodecFrames (self.aggregateCodecTokens batchSlot)
        self.codecInputTokens frameCount }
  | .runCodec route frameCount stateInput =>
    let outputs := engines.nanocodec (self.codecCall route frameCount stateInput)
    -- the initial engine writes the first states, the others the states that they do not read
    let stateOutput := if route = .initial then 0 else 1 - stateInput
    { self with
      codecPcm := outputs.pcm
      codecValidSampleLength := outputs.validSampleLength
      codecStates := Function.update self.codecStates stateOutput outputs.states }
  | .copyValidSampleLength => { self with pinnedValidSampleLength := self.codecValidSampleLength }
  | .copyPcm sampleCount =>
    { self with
      pinnedPcm := fun index =>
        if index < sampleCount then self.codecPcm index else self.pinnedPcm index }

/-- The call of an engine of the recurrence that a command makes. -/
def DeviceCommand.decoderCall (self : SessionWorkspace types) :
    DeviceCommand → Option (DecoderCall types)
  | .runTextEncoder =>
    let textLength := arguments.textTokenIds.length
    some (.textEncoder (boundTensor textLength self.textTokenIds)
      (boundTensor textLength self.textMask))
  | .runPrefill =>
    let textLength := arguments.textTokenIds.length
    some (.mainDecoderPrefill (boundTensor (textLength * kModelWidth * 2) self.cfgCondition)
      (boundTensor (textLength * 2) self.conditionMask))
  | .runLocalAr => some (.localAr self.localArInputs)
  | .runDecoderStep cacheInput =>
    some (.mainDecoderStep (self.decoderStepInputs arguments.textTokenIds.length cacheInput))
  | _ => none

/-- The call of a NanoCodec engine that a command makes. -/
def DeviceCommand.codecCall (self : SessionWorkspace types) :
    DeviceCommand → Option (CodecCall types)
  | .runCodec route frameCount stateInput => some (self.codecCall route frameCount stateInput)
  | _ => none

/-- The buffers, and the calls of the engines so far. -/
structure SessionTrace (types : SessionTypes) where
  workspace : SessionWorkspace types
  decoderCalls : List (DecoderCall types)
  codecCalls : List (CodecCall types)

namespace SessionTrace

def start (workspace : SessionWorkspace types) : SessionTrace types := ⟨workspace, [], []⟩

def execute (self : SessionTrace types) (command : DeviceCommand) : SessionTrace types where
  workspace := command.execute engines arguments self.workspace
  decoderCalls := self.decoderCalls ++ (command.decoderCall arguments self.workspace).toList
  codecCalls := self.codecCalls ++ (command.codecCall self.workspace).toList

/-- The commands of a step, in turn. -/
def executeAll (self : SessionTrace types) (commands : List DeviceCommand) : SessionTrace types :=
  commands.foldl (execute engines arguments) self

end SessionTrace

end Execute

end MagpieTts.Runtime
