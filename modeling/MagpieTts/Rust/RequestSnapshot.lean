import MagpieTts.Api.PublicSnapshot

/-!
# The snapshot validation of the Rust wrapper

`Request::validate_snapshot` of `runtime.rs`: what the wrapper checks of a snapshot that crosses the
C interface, alone and against the last one it accepted.

## Main definitions

* `RequestSnapshot`, `Request`: the accepted snapshot and the wrapper's record of it.
* `Request.validateSnapshot`: the validation.
-/

namespace MagpieTts.Rust

open MagpieTts.Api

/-- `Error::InvalidNativeData`. -/
structure InvalidNativeData where
  operation : String
  field : String
  reason : String
  deriving DecidableEq

/-- An early return of `invalid_native` under a condition. -/
def invalidNativeIf (condition : Prop) [Decidable condition] (operation field reason : String) :
    Except InvalidNativeData Unit :=
  if condition then .error ⟨operation, field, reason⟩ else .ok ()

inductive RequestState where
  | running
  | completed
  | cancelled
  | failed
  deriving DecidableEq

structure NativeError where
  operation : String
  status : ℤ
  stage : ℤ
  message : List UInt8
  deriving DecidableEq

structure RequestSnapshot where
  revision : ℕ
  state : RequestState
  availableAudioLeases : ℕ
  generatedCodecFrames : ℕ
  publishedSamples : ℕ
  committedTextTokens : ℕ
  terminalStatus : ℤ
  terminalError : Option NativeError
  deriving DecidableEq

/-- The fields of `Request` that the snapshot validation reads and writes. -/
structure SnapshotRecord where
  tokenCount : ℕ
  lastSnapshot : Option RequestSnapshot
  deriving DecidableEq

/-- `validate_header`. -/
def validateHeader (operation : String) (structSize abiVersion expectedSize : ℕ) :
    Except InvalidNativeData Unit := do
  invalidNativeIf (structSize ≠ expectedSize) operation "struct_size"
    "does not match the complete ABI v1 structure"
  invalidNativeIf (abiVersion ≠ abiVersion1) operation "abi_version" "does not equal ABI v1"

/-- `fixed_message_bytes`: the bytes in front of the first `NUL`, and whether there is one. -/
def fixedMessageBytes (raw : List UInt8) : List UInt8 × Bool :=
  if 0 ∈ raw then (raw.takeWhile (· ≠ 0), true) else (raw, false)

/-- The match on the declared request states. -/
def requestStateFromRaw (operation : String) : ℤ → Except InvalidNativeData RequestState
  | 1 => .ok .running
  | 2 => .ok .completed
  | 3 => .ok .cancelled
  | 4 => .ok .failed
  | _ => .error ⟨operation, "state", "is not a declared ABI v1 request state"⟩

/-- `Status::is_terminal_failure`. -/
def isTerminalFailure (status : ℤ) : Bool :=
  status ∈ ([1, 2, 4, 5, 6, 7, 8, 9, 13, 14, 15] : List ℤ)

/-- `ErrorStage::is_declared`. -/
def stageIsDeclared (stage : ℤ) : Bool := 0 ≤ stage && stage ≤ 11

/-- The checks on status, stage and message that depend on the state. -/
def validateDiagnostic (operation : String) (terminalStatus terminalErrorStage : ℤ)
    (terminalErrorMessage : List UInt8) : RequestState → Except InvalidNativeData Unit
  | .running | .completed => do
      invalidNativeIf (terminalStatus ≠ 0) operation "terminal_status"
        "must be OK for RUNNING or COMPLETED"
      invalidNativeIf (terminalErrorStage ≠ 0 ∨ terminalErrorMessage ≠ []) operation
        "terminal diagnostic" "must be NONE with an empty message for RUNNING or COMPLETED"
  | .cancelled => do
      invalidNativeIf (terminalStatus ≠ 10) operation "terminal_status"
        "must be CANCELLED for a cancelled request"
      invalidNativeIf (terminalErrorStage ≠ 6 ∨ terminalErrorMessage ≠ []) operation
        "terminal diagnostic" "must be REQUEST with an empty message for CANCELLED"
  | .failed => do
      invalidNativeIf (isTerminalFailure terminalStatus = false) operation "terminal_status"
        "must be a declared non-control failure status"
      invalidNativeIf (terminalErrorStage = 0) operation "terminal_error_stage"
        "must be a declared non-NONE stage for FAILED"
      invalidNativeIf (terminalErrorMessage = []) operation "terminal_error_message"
        "must be non-empty for FAILED"

/-- The checks of a snapshot against the last one. -/
def validateAgainstPrevious (operation : String) (snapshot previous : RequestSnapshot) :
    Except InvalidNativeData Unit := do
  invalidNativeIf (snapshot.revision < previous.revision ∨
      snapshot.generatedCodecFrames < previous.generatedCodecFrames ∨
      snapshot.publishedSamples < previous.publishedSamples ∨
      snapshot.committedTextTokens < previous.committedTextTokens)
    operation "snapshot counters" "must be monotonic within a request"
  invalidNativeIf (snapshot.revision = previous.revision ∧ snapshot ≠ previous) operation
    "revision" "may repeat only when the complete snapshot is unchanged"
  invalidNativeIf (previous.state ≠ .running ∧ snapshot.state ≠ previous.state) operation
    "state" "must not transition away from a terminal state"
  invalidNativeIf (previous.state = .failed ∧
      (snapshot.terminalStatus ≠ previous.terminalStatus ∨
        snapshot.terminalError ≠ previous.terminalError))
    operation "terminal diagnostic" "must remain unchanged after FAILED"

/-- `validate_snapshot`. -/
def SnapshotRecord.validateSnapshot (self : SnapshotRecord) (operation : String)
    (raw : PublicSnapshot) (minimumRevisionExclusive : Option ℕ) :
    Except InvalidNativeData (RequestSnapshot × SnapshotRecord) := do
  validateHeader operation raw.structSize raw.abiVersion requestSnapshotSize
  invalidNativeIf (raw.reserved ≠ [0, 0, 0, 0]) operation "reserved" "must be zero for ABI v1"
  invalidNativeIf (self.tokenCount < raw.committedTextTokens) operation "committed_text_tokens"
    "exceeds request text_token_count"
  invalidNativeIf (∃ minimum ∈ minimumRevisionExclusive, raw.revision ≤ minimum) operation
    "revision" "must be greater than after_revision when wait succeeds"
  let state ← requestStateFromRaw operation raw.state
  let (terminalErrorMessage, terminalMessageIsTerminated) :=
    fixedMessageBytes raw.terminalErrorMessage
  invalidNativeIf (stageIsDeclared raw.terminalErrorStage = false) operation
    "terminal_error_stage" "is not a declared ABI v1 error stage"
  invalidNativeIf (terminalMessageIsTerminated = false) operation "terminal_error_message"
    "must be NUL-terminated"
  validateDiagnostic operation raw.terminalStatus raw.terminalErrorStage terminalErrorMessage state
  let snapshot : RequestSnapshot :=
    { revision := raw.revision
      state
      availableAudioLeases := raw.availableAudioLeases
      generatedCodecFrames := raw.generatedCodecFrames
      publishedSamples := raw.publishedSamples
      committedTextTokens := raw.committedTextTokens
      terminalStatus := raw.terminalStatus
      terminalError :=
        if state = .failed then
          some ⟨"request_terminal", raw.terminalStatus, raw.terminalErrorStage,
            terminalErrorMessage⟩
        else
          none }
  match self.lastSnapshot with
  | none => pure ()
  | some previous => validateAgainstPrevious operation snapshot previous
  return (snapshot, { self with lastSnapshot := some snapshot })

end MagpieTts.Rust
