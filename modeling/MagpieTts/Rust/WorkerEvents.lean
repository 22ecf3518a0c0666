import MagpieTts.Rust.RequestSnapshot

/-!
# The events and errors of the inference worker

The values that `worker.rs` passes between its threads: the errors of the safe wrapper, the errors
of the worker, and the events of a synthesis.

## Main definitions

* `Error`, `WorkerError`: the errors.
* `cancelMayHaveRacedTerminal`, `cancelErrorIsFatal`: what the worker asks of them.
* `OwnedAudioChunk`, `SynthesisEvent`: the events.
* `terminalEvent`: the event of a terminal snapshot.
-/

namespace MagpieTts.Rust

/-- The errors of the wrapper that a call on a session, a request or a lease returns. -/
inductive Error where
  | invalidInput (field reason : String)
  | poisoned (resource reason : String)
  | closed (resource : String)
  | nullHandle (operation : String)
  | native (error : NativeError)
  | invalidNativeError (operation : String) (returnedStatus reportedStatus reportedStage : ℤ)
      (message : List UInt8) (reason : String)
  | invalidNativeData (data : InvalidNativeData)
  | invalidAudioLeaseAndReleaseFailed (leaseError releaseError : Error)
  deriving DecidableEq

/-- The errors that the inference thread returns or replies. -/
inductive WorkerError where
  | runtime (error : Error)
  | commandChannelClosed
  | busy
  | unknownRequest (requestId : ℕ)
  | requestIdentifierExhausted
  deriving DecidableEq

/-- `cancel_may_have_raced_terminal`: an `INVALID_ARGUMENT` of the request stage. -/
def cancelMayHaveRacedTerminal : Error → Bool
  | .native error => error.status = 1 && error.stage = 6
  | _ => false

/-- `cancel_error_is_fatal`. -/
def cancelErrorIsFatal : WorkerError → Bool
  | .runtime error => !cancelMayHaveRacedTerminal error
  | _ => true

structure AlignmentEvent where
  sampleIndex : ℕ
  committedTextTokens : ℕ
  deriving DecidableEq

/-- A chunk with its own copy of the samples, which are the bits of `f32` values. -/
structure OwnedAudioChunk where
  sequence : ℕ
  firstSampleIndex : ℕ
  sampleRateHz : ℕ
  first : Bool
  finalChunk : Bool
  committedTextTokens : Option ℕ
  alignmentEvents : List AlignmentEvent
  samples : List UInt32
  deriving DecidableEq

inductive SynthesisEvent where
  | audio (chunk : OwnedAudioChunk)
  | completed
  | cancelled
  | failed (error : NativeError)
  | runtimeError (error : Error)
  deriving DecidableEq

namespace SynthesisEvent

/-- The chunk of an audio event. -/
def chunk? : SynthesisEvent → Option OwnedAudioChunk
  | audio chunk => some chunk
  | _ => none

/-- The event reports the terminal state of the request. -/
def EndsRequest : SynthesisEvent → Prop
  | completed | cancelled | failed _ => True
  | _ => False

end SynthesisEvent

/-- `terminal_event`. -/
def terminalEvent (snapshot : RequestSnapshot) : Except WorkerError SynthesisEvent :=
  match snapshot.state with
  | .running => .error (.runtime (.invalidNativeData ⟨"worker_terminal_event", "state",
      "terminal event requires a terminal snapshot"⟩))
  | .completed => .ok .completed
  | .cancelled => .ok .cancelled
  | .failed =>
    match snapshot.terminalError with
    | some failure => .ok (.failed failure)
    | none => .error (.runtime (.invalidNativeData ⟨"worker_terminal_event", "terminal_error",
        "FAILED snapshot omitted its diagnostic"⟩))

/-- A terminal event ends its request. -/
theorem endsRequest_of_terminalEvent {snapshot : RequestSnapshot} {event : SynthesisEvent}
    (h : terminalEvent snapshot = .ok event) : event.EndsRequest := by
  rw [terminalEvent] at h
  split at h
  · cases h
  · cases h
    trivial
  · cases h
    trivial
  · split at h
    · cases h
      trivial
    · cases h

end MagpieTts.Rust
