import MagpieTts.Library.Streaming
import MagpieTts.Library.StreamingConvolution
import Mathlib.Algebra.Field.Basic
import Mathlib.Data.List.FinRange

/-!
# The explicit-state NanoCodec decoder

`ExplicitStateNanoCodec` of `nanocodec_wrapper.py`, the functional decoder that the exporter
serializes. Every causal convolution reads a history of its input, every transposed convolution adds
the pending overlap of the chunk before; both are inputs and outputs of a call, named in a registry
of 97 states.

A tensor of shape `(1, channels, samples)` is modelled by the list of its time steps, a time step by
its channels. The arithmetic is that of a field. The counts of stages, branches and blocks, and the
sizes that `_history_samples` and `_overlap_samples` accept, are fields of the types.

## Main definitions

* `CausalConv`, `CausalTransposedConv`, `Decoder`: the layers.
* `causalConv`, `causalTransposedConv`: a layer on a chunk.
* `ExplicitStateNanoCodec.forward`: a call of the decoder.
-/

namespace MagpieTts.Export

open MagpieTts.Library

variable {K : Type*} [Field K]

/-- The channels of a time step. -/
abbrev Step (K : Type*) := ℕ → K

abbrev Signal (K : Type*) := List (Step K)

/-! ### The layers -/

/-- `torch.nn.Conv1d`, with a weight for every output channel, input channel and tap. -/
structure RawConv (K : Type*) where
  inChannels : ℕ
  kernelSize : ℕ
  stride : ℕ
  padding : ℕ
  dilation : ℕ
  weight : ℕ → ℕ → ℕ → K
  bias : Option (Step K)

/-- A causal convolution, with an activation that acts on each time step. -/
structure CausalConv (K : Type*) where
  conv : RawConv K
  paddingTotal : ℕ
  extraPadMode : String
  activation : Step K → Step K

/-- A tuple of one number. -/
def tupleText (value : ℕ) : String := "(" ++ toString value ++ ",)"

def historySamples (causalConv : CausalConv K) : Except String ℕ :=
  let rawConv := causalConv.conv
  let historySamples := (rawConv.kernelSize - 1) * rawConv.dilation
  if rawConv.stride ≠ 1 then
    .error ("NanoCodec causal convolution must have stride 1, got " ++ tupleText rawConv.stride)
  else if rawConv.padding ≠ 0 then
    .error ("NanoCodec causal convolution must have zero raw padding, got " ++
      tupleText rawConv.padding)
  else if causalConv.paddingTotal ≠ historySamples then
    .error ("NanoCodec causal padding no longer matches its finite history: " ++
      toString causalConv.paddingTotal ++ " != " ++ toString historySamples)
  else if causalConv.extraPadMode ≠ "constant" then
    .error ("NanoCodec causal convolution requires zero constant history, got '" ++
      causalConv.extraPadMode ++ "'")
  else .ok historySamples

/-- A causal convolution of which `_history_samples` accepts the sizes. -/
structure HistoryConv (K : Type*) [Field K] extends CausalConv K where
  history : ℕ
  historySamples_eq : historySamples toCausalConv = .ok history

/-- `torch.nn.ConvTranspose1d`, with a weight for every input channel, output channel and tap. -/
structure RawTransposedConv (K : Type*) where
  inChannels : ℕ
  kernelSize : ℕ
  stride : ℕ
  padding : ℕ
  outputPadding : ℕ
  dilation : ℕ
  weight : ℕ → ℕ → ℕ → K
  bias : Option (Step K)

structure CausalTransposedConv (K : Type*) where
  conv : RawTransposedConv K
  paddingLeft : ℤ
  paddingRight : ℤ
  activation : Step K → Step K

def overlapSamples (causalTransposedConv : CausalTransposedConv K) : Except String ℕ :=
  let rawConv := causalTransposedConv.conv
  let overlap : ℤ := rawConv.kernelSize - rawConv.stride
  if rawConv.dilation ≠ 1 then
    .error ("NanoCodec transposed convolution must have dilation 1, got " ++
      tupleText rawConv.dilation)
  else if rawConv.padding ≠ 0 ∨ rawConv.outputPadding ≠ 0 then
    .error ("NanoCodec transposed convolution must have zero padding and output padding, got " ++
      tupleText rawConv.padding ++ "/" ++ tupleText rawConv.outputPadding)
  else if causalTransposedConv.paddingLeft ≠ 0 then
    .error "NanoCodec transposed convolution has a future-frame dependency"
  else if causalTransposedConv.paddingRight ≠ overlap then
    .error ("NanoCodec transposed-convolution trimming changed: " ++
      toString causalTransposedConv.paddingRight ++ " != " ++ toString overlap)
  else if overlap < 0 ∨ (rawConv.stride : ℤ) < overlap then
    .error ("NanoCodec transposed-convolution overlap is unsupported: " ++ toString overlap)
  else .ok overlap.toNat

/-- A transposed convolution of which `_overlap_samples` accepts the sizes. -/
structure OverlapConv (K : Type*) [Field K] extends CausalTransposedConv K where
  overlap : ℕ
  overlapSamples_eq : overlapSamples toCausalTransposedConv = .ok overlap
  stride_pos : 0 < conv.stride

structure ResidualBlock (K : Type*) [Field K] where
  inputActivation : Step K → Step K
  inputConv : HistoryConv K
  skipActivation : Step K → Step K
  skipConv : HistoryConv K

/-- A stage: its upsampling and its residual layer of three branches of three blocks. -/
structure DecoderStage (K : Type*) [Field K] where
  activation : Step K → Step K
  upsampleConv : OverlapConv K
  configuredRate : ℕ
  stride_eq : upsampleConv.conv.stride = configuredRate
  residualBlocks : Fin 3 → Fin 3 → ResidualBlock K

structure Decoder (K : Type*) [Field K] where
  preConv : HistoryConv K
  stages : Fin 5 → DecoderStage K
  postActivation : Step K → Step K
  postConv : HistoryConv K
  outActivation : Step K → Step K

/-! ### The registry of states -/

inductive ConvolutionName
  | inputConv
  | skipConv
  deriving DecidableEq

def ConvolutionName.text : ConvolutionName → String
  | inputConv => "input_conv"
  | skipConv => "skip_conv"

/-- The states by their logical names. -/
inductive StateName
  | preConvHistory
  | pendingOverlap (stage : Fin 5)
  | residualHistory (stage : Fin 5) (branch block : Fin 3) (convolution : ConvolutionName)
  | postConvHistory
  deriving DecidableEq

def StateName.logicalName : StateName → String
  | preConvHistory => "pre_conv.input_history"
  | pendingOverlap stage => "upsample_convs." ++ toString stage.1 ++ ".pending_overlap"
  | residualHistory stage branch block convolution =>
      "residual_layers." ++ toString stage.1 ++ ".branches." ++ toString branch.1 ++
        ".residual_blocks." ++ toString block.1 ++ "." ++ convolution.text ++ ".input_history"
  | postConvHistory => "post_conv.input_history"

/-- The order of `enumerate_persistent_state`: the first history, the overlaps, the histories of the
residual layers and the last history. -/
def stateNames : List StateName :=
  .preConvHistory :: (List.finRange 5).map .pendingOverlap ++
    ((List.finRange 5).flatMap fun stage => (List.finRange 3).flatMap fun branch =>
      (List.finRange 3).flatMap fun block =>
        [.residualHistory stage branch block .inputConv,
          .residualHistory stage branch block .skipConv]) ++
    [.postConvHistory]

/-- The samples of a state. -/
def Decoder.stateSamples (decoder : Decoder K) : StateName → ℕ
  | .preConvHistory => decoder.preConv.history
  | .pendingOverlap stage => (decoder.stages stage).upsampleConv.overlap
  | .residualHistory stage branch block .inputConv =>
      ((decoder.stages stage).residualBlocks branch block).inputConv.history
  | .residualHistory stage branch block .skipConv =>
      ((decoder.stages stage).residualBlocks branch block).skipConv.history
  | .postConvHistory => decoder.postConv.history

/-! ### A layer on a chunk -/

/-- The output of a convolution at the start of a window of its input. -/
def RawConv.readWindow (conv : RawConv K) (window : ℕ → Step K) : Step K := fun channel =>
  conv.bias.getD 0 channel + ∑ tap ∈ Finset.range conv.kernelSize,
    ∑ input ∈ Finset.range conv.inChannels,
      conv.weight channel input tap * window (tap * conv.dilation) input

/-- A convolution of stride one without padding. -/
def RawConv.apply (conv : RawConv K) (inputs : Signal K) : Signal K :=
  slide ((conv.kernelSize - 1) * conv.dilation) conv.readWindow 0 inputs

def causalConv (convolution : HistoryConv K) (inputs history : Signal K) : Signal K × Signal K :=
  let historySamples := convolution.history
  let convolutionInputs := if historySamples = 0 then inputs else history ++ inputs
  let updatedHistory :=
    if historySamples = 0 then history
    else convolutionInputs.drop (convolutionInputs.length - historySamples)
  ((convolution.conv.apply convolutionInputs).map convolution.activation, updatedHistory)

/-- The segment that a time step adds to the output of a transposed convolution. -/
def RawTransposedConv.segment (conv : RawTransposedConv K) (step : Step K) (tap : ℕ) : Step K :=
  fun channel => ∑ input ∈ Finset.range conv.inChannels,
    step input * conv.weight input channel tap

/-- A transposed convolution of dilation one without padding. -/
def RawTransposedConv.apply (conv : RawTransposedConv K) (inputs : Signal K) : Signal K :=
  (List.range ((inputs.length - 1) * conv.stride + conv.kernelSize)).map fun t =>
    conv.bias.getD 0 + overlapSum conv.stride conv.kernelSize conv.segment 0 inputs t

def causalTransposedConv (convolution : OverlapConv K) (inputs pendingOverlap : Signal K) :
    Signal K × Signal K :=
  let rawOutputs := convolution.conv.apply inputs
  let finalizedSamples := inputs.length * convolution.conv.stride
  if 0 < convolution.overlap then
    let finalized :=
      List.zipWith (· + ·) (rawOutputs.take convolution.overlap) pendingOverlap ++
        (rawOutputs.take finalizedSamples).drop convolution.overlap
    let updatedOverlap := rawOutputs.drop finalizedSamples
    let updatedOverlap :=
      match convolution.conv.bias with
      | some bias => updatedOverlap.map (· - bias)
      | none => updatedOverlap
    (finalized.map convolution.activation, updatedOverlap)
  else
    ((rawOutputs.take finalizedSamples).map convolution.activation, pendingOverlap)

/-! ### A call of the decoder -/

/-- The states of a call. -/
abbrev States (K : Type*) := StateName → Signal K

/-- The states that a call has written, in order. -/
abbrev Updated (K : Type*) := List (StateName × Signal K)

/-- The body of the loop over the blocks of a branch. Dropout is the identity. -/
def residualBlock (block : ResidualBlock K) (stage : Fin 5) (branch index : Fin 3)
    (states : States K) (branchOutput : Signal K) : Signal K × Updated K :=
  let inputName := StateName.residualHistory stage branch index .inputConv
  let residual := branchOutput.map block.inputActivation
  let input := causalConv block.inputConv residual (states inputName)
  let skipName := StateName.residualHistory stage branch index .skipConv
  let residual := input.1.map block.skipActivation
  let skip := causalConv block.skipConv residual (states skipName)
  (List.zipWith (· + ·) branchOutput skip.1, [(inputName, input.2), (skipName, skip.2)])

/-- The loop over the blocks of a branch. -/
def residualBranch (blocks : Fin 3 → ResidualBlock K) (stage : Fin 5) (branch : Fin 3)
    (states : States K) (outputs : Signal K) : Signal K × Updated K :=
  (List.finRange 3).foldl
    (fun acc index =>
      ((residualBlock (blocks index) stage branch index states acc.1).1,
        acc.2 ++ (residualBlock (blocks index) stage branch index states acc.1).2))
    (outputs, [])

/-- `sum(branch_outputs) / len(branch_outputs)`. -/
def meanSignal (branchOutputs : List (Signal K)) : Signal K :=
  match branchOutputs with
  | [] => []
  | first :: rest =>
      (rest.foldl (List.zipWith (· + ·)) first).map fun step channel =>
        step channel / (branchOutputs.length : K)

/-- The loop over the branches of a stage. -/
def residualLayer (blocks : Fin 3 → Fin 3 → ResidualBlock K) (stage : Fin 5) (states : States K)
    (outputs : Signal K) : Signal K × Updated K :=
  let branches := (List.finRange 3).map fun branch =>
    residualBranch (blocks branch) stage branch states outputs
  (meanSignal (branches.map Prod.fst), branches.flatMap Prod.snd)

/-- The body of the loop over the stages. -/
def decodeStage (stage : DecoderStage K) (index : Fin 5) (states : States K) (outputs : Signal K) :
    Except String (Signal K × Updated K) :=
  let outputs := outputs.map stage.activation
  let upsampled := causalTransposedConv stage.upsampleConv outputs (states (.pendingOverlap index))
  if upsampled.1.length % stage.configuredRate ≠ 0 then
    .error ("NanoCodec stage " ++ toString index.1 ++ " emitted an invalid length")
  else
    let residual := residualLayer stage.residualBlocks index states upsampled.1
    .ok (residual.1, (.pendingOverlap index, upsampled.2) :: residual.2)

/-- The loop over the stages, with the states that were written before it. -/
def decodeStages (stages : Fin 5 → DecoderStage K) (states : States K) (outputs : Signal K)
    (updated : Updated K) : Except String (Signal K × Updated K) :=
  (List.finRange 5).foldlM
    (fun acc index => do
      let stage ← decodeStage (stages index) index states acc.1
      return (stage.1, acc.2 ++ stage.2))
    (outputs, updated)

def samplesPerFrame : ℕ := 1024

/-- The token of every codebook in one frame. -/
abbrev CodecFrame := Fin 8 → ℕ

/-- The codebooks: the vector of a token of a codebook. -/
structure CodebookTable (K : Type*) where
  dimension : ℕ
  entry : Fin 8 → ℕ → ℕ → K

/-- The vectors of the tokens of a frame, one behind the other. -/
def dequantizeFrame (codebookTable : CodebookTable K) (frame : CodecFrame) : Step K :=
  fun channel =>
    if hcodebook : channel / codebookTable.dimension < 8 then
      codebookTable.entry ⟨channel / codebookTable.dimension, hcodebook⟩
        (frame ⟨channel / codebookTable.dimension, hcodebook⟩) (channel % codebookTable.dimension)
    else 0

def dequantize (codebookTable : CodebookTable K) (codecTokens : List CodecFrame) : Signal K :=
  codecTokens.map (dequantizeFrame codebookTable)

structure ExplicitStateNanoCodec (K : Type*) [Field K] where
  decoder : Decoder K
  codebookTable : CodebookTable K

namespace ExplicitStateNanoCodec

/-- The states of the initial route: zeros. -/
def initialStates (codec : ExplicitStateNanoCodec K) : List (Signal K) :=
  stateNames.map fun name => List.replicate (codec.decoder.stateSamples name) 0

/-- The computation of a call on states by name. -/
def decode (codec : ExplicitStateNanoCodec K) (codecTokens : List CodecFrame) (states : States K) :
    Except String (List K × ℕ × List (Signal K)) := do
  let decoder := codec.decoder
  let pre := causalConv decoder.preConv (dequantize codec.codebookTable codecTokens)
    (states .preConvHistory)
  let stages ← decodeStages decoder.stages states pre.1 [(StateName.preConvHistory, pre.2)]
  let post := causalConv decoder.postConv (stages.1.map decoder.postActivation)
    (states .postConvHistory)
  let updated := stages.2 ++ [(StateName.postConvHistory, post.2)]
  let pcm := post.1.map fun step => decoder.outActivation step 0
  return (pcm, codecTokens.length * samplesPerFrame,
    stateNames.map fun name => (updated.lookup name).getD [])

/-- A call of the initial or of the stateful route. -/
def forward (codec : ExplicitStateNanoCodec K) (initial : Bool) (codecTokens : List CodecFrame)
    (stateInputs : List (Signal K)) : Except String (List K × ℕ × List (Signal K)) :=
  if initial then
    if stateInputs ≠ [] then .error "initial NanoCodec route does not accept state"
    else codec.decode codecTokens fun name =>
      codec.initialStates.getD (stateNames.idxOf name) []
  else if stateInputs.length ≠ stateNames.length then
    .error ("stateful NanoCodec route received " ++ toString stateInputs.length ++
      " states, expected " ++ toString stateNames.length)
  else codec.decode codecTokens fun name => stateInputs.getD (stateNames.idxOf name) []

end ExplicitStateNanoCodec

end MagpieTts.Export
