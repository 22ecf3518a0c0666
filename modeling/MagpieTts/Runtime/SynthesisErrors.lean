import MagpieTts.Runtime.RequestState
import Mathlib.Algebra.Group.Nat.Defs

/-!
# The failures of the synthesis worker

The exceptions that leave the pipeline, their texts, and what `run_request_worker` makes of each:
the status, stage and message that the request fails with, and whether the session is poisoned.

## Main definitions

* `WorkerException`: an exception on its way out of the worker.
* `WorkerFailure`, `WorkerException.failure`: the arguments of `fail_request_worker`.
* `describeAudioChunkValidationFailure`, `describeMainDevicePositionStatus`: composed texts.
-/

namespace MagpieTts.Runtime

inductive SynthesisPipelineErrorCode where
  | cudaFailure
  | engineFailure
  | mainDecoderFailure
  | alignmentFailure
  | localArFailure
  | codecFailure
  | contextExhausted
  | invariantFailure
  deriving DecidableEq

/-- `to_string` of an error code. -/
def SynthesisPipelineErrorCode.text : SynthesisPipelineErrorCode → String
  | cudaFailure => "cuda_failure"
  | engineFailure => "engine_failure"
  | mainDecoderFailure => "main_decoder_failure"
  | alignmentFailure => "alignment_failure"
  | localArFailure => "local_ar_failure"
  | codecFailure => "codec_failure"
  | contextExhausted => "context_exhausted"
  | invariantFailure => "invariant_failure"

/-- `to_string` of an error code of the request state. -/
def RequestStateErrorCode.text : RequestStateErrorCode → String
  | invalidTransition => "invalid_transition"
  | invalidAudioChunk => "invalid_audio_chunk"
  | backpressure => "backpressure"
  | noAudio => "no_audio"
  | unknownLease => "unknown_lease"
  | leaseSequenceExhausted => "lease_sequence_exhausted"

/-- `what()` of a `RequestStateError`. -/
def RequestStateError.what (error : RequestStateError) : String :=
  "streaming request state error [code=" ++ error.code.text ++ "]: " ++ error.detail

/-- What ends a worker early: an exception by its type, which is a `SynthesisPipelineError`, a
`std::bad_alloc`, another `std::exception` or none of these; or in front of the pipeline a
`cudaSetDevice` that fails, with its error string. -/
inductive WorkerException where
  | synthesis (code : SynthesisPipelineErrorCode) (detail : String)
  | badAlloc
  | standard (what : String)
  | nonStandard
  | setDevice (detail : String)
  deriving DecidableEq

/-! ### Composed texts -/

structure AudioChunkOrigin where
  randomSeed : ℕ
  eosStep : ℤ
  eosFrameIndex : ℤ
  attendedTokenIndices : List ℤ

/-- `describe_audio_chunk_validation_failure`. -/
def describeAudioChunkValidationFailure (error : RequestStateError) (chunk : AudioChunk)
    (origin : AudioChunkOrigin) : String :=
  let chunkEnd := chunk.firstSampleIndex + chunk.samples.sampleCount
  let diagnostic :=
    "audio_chunk_diag\x7bseed=" ++ toString origin.randomSeed ++
    ",event_index=" ++ toString error.alignmentEventIndex ++
    ",chunk=[" ++ toString chunk.firstSampleIndex ++ "," ++ toString chunkEnd ++ ")" ++
    ",frames=" ++ toString chunk.codecFrameCount ++
    ",eos_step=" ++ toString origin.eosStep ++
    ",eos_frame=" ++ toString origin.eosFrameIndex ++
    ",attended=[" ++ String.intercalate "," (origin.attendedTokenIndices.map toString) ++ "]"
  let event :=
    if error.alignmentEventIndex < 0 then
      none
    else
      chunk.alignmentEvents[error.alignmentEventIndex.toNat]?
  let eventText :=
    match event with
    | none => ""
    | some event =>
      ",event_sample=" ++ toString event.sampleIndex ++
      ",event_tokens=" ++ toString event.committedTextTokens
  diagnostic ++ eventText ++ "\x7d; validation=" ++ error.detail

def mainDevicePositionLayerCountV1 : ℕ := 12

/-- `MainDevicePositionStatus`, without the raw status it was decoded from. -/
structure MainDevicePositionStatus where
  category : ℕ
  layerIndex : ℕ
  operation : ℕ
  detail : ℕ
  valid : Bool

/-- `decode_main_device_position_status` of a 32-bit status. -/
def decodeMainDevicePositionStatus (raw : ℤ) : MainDevicePositionStatus :=
  let encoded := (raw % 4294967296).toNat
  let category := encoded / 2 ^ 28 % 8
  let layer := encoded / 2 ^ 24 % 16
  let operation := encoded / 2 ^ 22 % 4
  let detail := encoded % 2 ^ 22
  let commonValid := 0 < raw && layer < mainDevicePositionLayerCountV1
  let invalidK := category = 1 && operation = 0 && detail = 0
  let cudaUpdate := category = 2 && (operation = 1 || operation = 2) && detail ≠ 0
  { category, layerIndex := layer, operation, detail
    valid := commonValid && (invalidK || cudaUpdate) }

/-- `describe_main_device_position_status`. -/
def describeMainDevicePositionStatus (raw : ℤ) : String :=
  let status := decodeMainDevicePositionStatus raw
  if status.valid then
    let detail :=
      "Main Decoder device-position failure layer=" ++ toString status.layerIndex ++
      " operation=" ++
        (if status.operation = 0 then "selector" else if status.operation = 1 then "qk" else "pv")
    if status.category = 1 then
      detail ++ " reason=invalid_k raw=" ++ toString raw
    else
      detail ++ " reason=cuda_graph_update cuda_status=" ++ toString status.detail ++
        " raw=" ++ toString raw
  else
    "malformed Main Decoder device-position status raw=" ++ toString raw

/-! ### The failure of the worker -/

/-- The arguments of `fail_request_worker`. -/
structure WorkerFailure where
  status : ℤ
  stage : ℤ
  message : String
  poisonSession : Bool
  deriving DecidableEq

/-- `error_message` of `synthesis_pipeline.cpp`. -/
def synthesisErrorMessage (code : SynthesisPipelineErrorCode) (detail : String) : String :=
  "streaming synthesis failed [code=" ++ code.text ++ "]: " ++ detail

/-- The switch of `run_request_worker` on the error code. -/
def SynthesisPipelineErrorCode.statusAndStage : SynthesisPipelineErrorCode → ℤ × ℤ
  | cudaFailure => (9, 8)
  | engineFailure => (8, 7)
  | mainDecoderFailure => (8, 9)
  | alignmentFailure => (8, 10)
  | localArFailure => (8, 9)
  | codecFailure => (8, 11)
  | contextExhausted => (8, 6)
  | invariantFailure => (15, 6)

/-- The calls of `fail_request_worker` in `run_request_worker`. A context that is exhausted at a
quiescent boundary is the only failure that does not poison the session. -/
def WorkerException.failure : WorkerException → WorkerFailure
  | synthesis code detail =>
    { status := code.statusAndStage.1
      stage := code.statusAndStage.2
      message := synthesisErrorMessage code detail
      poisonSession := code ≠ .contextExhausted }
  | badAlloc =>
    { status := 15
      stage := 6
      message := "synthesis worker exhausted host memory"
      poisonSession := true }
  | standard what =>
    { status := 15
      stage := 6
      message := what
      poisonSession := true }
  | nonStandard =>
    { status := 15
      stage := 6
      message := "synthesis worker failed with a non-standard exception"
      poisonSession := true }
  | setDevice detail =>
    { status := 9
      stage := 8
      message := detail
      poisonSession := true }

/-- The bytes of a message. -/
def messageBytes (message : String) : List UInt8 := message.toUTF8.data.toList

theorem messageBytes_eq_nil_iff {message : String} : messageBytes message = [] ↔ message = "" := by
  rw [← String.toByteArray_inj, messageBytes, String.toUTF8_eq_toByteArray,
    String.toByteArray_empty, Array.toList_eq_nil_iff, ByteArray.ext_iff]
  rfl

/-- A `SynthesisPipelineError`. The checks of the pipeline throw no other exception. -/
def WorkerException.Typed : WorkerException → Prop
  | synthesis _ _ => True
  | _ => False

/-- An exception with a text. -/
def WorkerException.Reported (exception : WorkerException) : Prop := exception.failure.message ≠ ""

theorem WorkerException.reported_synthesis (code : SynthesisPipelineErrorCode) (detail : String) :
    (synthesis code detail).Reported := by
  change ¬ "streaming synthesis failed [code=" ++ code.text ++ "]: " ++ detail = ""
  simp only [String.append_eq_empty_iff, String.reduceEq, false_and, not_false_eq_true]

theorem WorkerException.reported_badAlloc : badAlloc.Reported := by
  change ¬ "synthesis worker exhausted host memory" = ""
  simp only [String.reduceEq, not_false_eq_true]

theorem WorkerException.reported_nonStandard : nonStandard.Reported := by
  change ¬ "synthesis worker failed with a non-standard exception" = ""
  simp only [String.reduceEq, not_false_eq_true]

theorem WorkerException.Typed.reported {exception : WorkerException} (h : exception.Typed) :
    exception.Reported := by
  cases exception with
  | synthesis code detail => exact reported_synthesis code detail
  | _ => exact h.elim

theorem WorkerException.Reported.messageBytes_ne_nil {exception : WorkerException}
    (h : exception.Reported) : messageBytes exception.failure.message ≠ [] := by
  rw [ne_eq, messageBytes_eq_nil_iff]
  exact h

end MagpieTts.Runtime
