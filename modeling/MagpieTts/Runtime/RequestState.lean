import Mathlib.Data.Int.Notation
import MagpieTts.Runtime.MachineWords

/-!
# The state of a streaming request

`StreamingRequestState` of `request_state.cpp`: the queue of published audio, the leases on it, the
frames they occupy in the PCM ring, and the terminal outcome. Every operation holds the mutex of the
request from its first read to its last write, so it is a function on states. An operation that
throws returns its error together with the state it leaves, which need not be the state it found.

## Main definitions

* `AudioChunk`, `StoredLease`, `AudioLeaseView`: audio on its way to the consumer.
* `StreamingRequestState`: the fields of the class.
* `StreamingRequestState.publish` and its companions: the operations.
-/

namespace MagpieTts.Runtime

def kCodecSamplesPerFrame : ℕ := 1024

inductive RequestLifecycleState where
  | running
  | completed
  | cancelled
  | failed
  deriving DecidableEq

inductive RequestStateErrorCode where
  | invalidTransition
  | invalidAudioChunk
  | backpressure
  | noAudio
  | unknownLease
  | leaseSequenceExhausted
  deriving DecidableEq

/-- `alignmentEventIndex` is `-1` where no alignment event is to blame. -/
structure RequestStateError where
  code : RequestStateErrorCode
  detail : String
  alignmentEventIndex : ℤ
  deriving DecidableEq

structure AlignmentProgress where
  sampleIndex : ℕ
  committedTextTokens : ℕ
  deriving DecidableEq

/-- Shared PCM storage: the address of its first sample and the number of samples. The constructors
of the class make the pointer null exactly for an empty buffer. -/
structure AudioBuffer where
  samples : ℕ
  sampleCount : ℕ
  null_iff : samples = 0 ↔ sampleCount = 0
  deriving DecidableEq

structure AudioChunk where
  samples : AudioBuffer
  firstSampleIndex : ℕ
  sequence : ℕ
  codecFrameCount : ℕ
  first : Bool
  final : Bool
  alignmentValid : Bool
  committedTextTokens : ℕ
  alignmentEvents : List AlignmentProgress
  deriving DecidableEq

structure RequestStateSnapshot where
  revision : ℕ
  state : RequestLifecycleState
  availableAudioLeases : ℕ
  generatedCodecFrames : ℕ
  publishedSamples : ℕ
  committedTextTokens : ℕ
  terminalStatus : ℤ
  terminalErrorStage : ℤ
  terminalErrorMessage : List UInt8
  deriving DecidableEq

/-- A view of a live lease. The list of events stands for the pointer to the events of the stored
chunk and their number; the pointer is null for an empty list. -/
structure AudioLeaseView where
  leaseId : ℕ
  samples : ℕ
  sampleCount : ℕ
  firstSampleIndex : ℕ
  sequence : ℕ
  first : Bool
  final : Bool
  alignmentValid : Bool
  committedTextTokens : ℕ
  alignmentEvents : List AlignmentProgress
  deriving DecidableEq

structure StoredLease where
  leaseId : ℕ
  chunk : AudioChunk
  deriving DecidableEq

/-- The view that `acquire_audio` returns of a stored lease. -/
def StoredLease.view (stored : StoredLease) : AudioLeaseView where
  leaseId := stored.leaseId
  samples := stored.chunk.samples.samples
  sampleCount := stored.chunk.samples.sampleCount
  firstSampleIndex := stored.chunk.firstSampleIndex
  sequence := stored.chunk.sequence
  first := stored.chunk.first
  final := stored.chunk.final
  alignmentValid := stored.chunk.alignmentValid
  committedTextTokens := stored.chunk.committedTextTokens
  alignmentEvents := stored.chunk.alignmentEvents

/-- `fail_state` under a condition. -/
def failStateIf (condition : Prop) [Decidable condition] (code : RequestStateErrorCode)
    (detail : String) (alignmentEventIndex : ℤ) : Except RequestStateError Unit :=
  if condition then .error ⟨code, detail, alignmentEventIndex⟩ else .ok ()

/-- The process-wide sequence of lease identifiers, as the identifier it hands out next. -/
structure LeaseIdSequence where
  next : ℕ
  deriving DecidableEq

/-- No identifier is left. -/
def LeaseIdSequence.Exhausted (ids : LeaseIdSequence) : Prop :=
  ids.next = 0 ∨ ids.next = maximumUint64

instance (ids : LeaseIdSequence) : Decidable ids.Exhausted :=
  inferInstanceAs (Decidable (_ ∨ _))

/-- `LeaseIdSequence::acquire`. The compare-and-exchange loop takes effect in one step. -/
def LeaseIdSequence.acquire (ids : LeaseIdSequence) :
    Except RequestStateError ℕ × LeaseIdSequence :=
  if ids.Exhausted then
    (.error ⟨.leaseSequenceExhausted, "process-wide lease identifier sequence is exhausted", -1⟩,
      ids)
  else
    (.ok ids.next, ⟨ids.next + 1⟩)

/-- The fields of a request state. The queue lists its front first; the lease table lists its
entries by ascending identifier. -/
structure StreamingRequestState where
  textTokenCount : ℕ
  pcmRingCapacityFrames : ℕ
  revision : ℕ
  state : RequestLifecycleState
  cancellationRequested : Bool
  generatedCodecFrames : ℕ
  publishedSamples : ℕ
  committedTextTokens : ℕ
  nextSampleIndex : ℕ
  nextSequence : ℕ
  occupiedCodecFrames : ℕ
  terminalStatus : ℤ
  terminalErrorStage : ℤ
  terminalErrorMessage : List UInt8
  availableAudio : List AudioChunk
  liveLeases : List StoredLease
  deriving DecidableEq

namespace StreamingRequestState

/-- The constructor; its error is the text of the `std::invalid_argument`. -/
def construct (textTokenCount pcmRingCapacityFrames : ℕ) : Except String StreamingRequestState :=
  if textTokenCount = 0 then
    .error "request text token count must be positive"
  else if pcmRingCapacityFrames < 8 then
    .error "PCM ring capacity must hold one steady eight-frame chunk"
  else
    .ok
      { textTokenCount
        pcmRingCapacityFrames
        revision := 1
        state := .running
        cancellationRequested := false
        generatedCodecFrames := 0
        publishedSamples := 0
        committedTextTokens := 0
        nextSampleIndex := 0
        nextSequence := 0
        occupiedCodecFrames := 0
        terminalStatus := 0
        terminalErrorStage := 0
        terminalErrorMessage := []
        availableAudio := []
        liveLeases := [] }

variable (self : StreamingRequestState)

def canPublish (codecFrames : ℕ) : Bool :=
  self.state = .running && !self.cancellationRequested && 0 < codecFrames &&
    codecFrames ≤ subUint32 self.pcmRingCapacityFrames self.occupiedCodecFrames

/-- The loop of `validate_chunk_locked` over the alignment events. -/
def validateEvents (chunkEnd : ℕ) :
    (eventIndex previousSample previousTokens : ℕ) → List AlignmentProgress →
    Except RequestStateError Unit
  | _, _, _, [] => .ok ()
  | eventIndex, previousSample, previousTokens, event :: events => do
      failStateIf (event.sampleIndex ≤ previousSample ∨ chunkEnd < event.sampleIndex ∨
          event.sampleIndex % kCodecSamplesPerFrame ≠ 0)
        .invalidAudioChunk "alignment event is outside its lease or not frame-aligned" eventIndex
      failStateIf (event.committedTextTokens ≤ previousTokens ∨
          self.textTokenCount < event.committedTextTokens)
        .invalidAudioChunk "alignment token progress is not a strict in-range advance" eventIndex
      validateEvents chunkEnd (eventIndex + 1) event.sampleIndex event.committedTextTokens events

/-- `validate_chunk_locked`. -/
def validateChunk (chunk : AudioChunk) : Except RequestStateError Unit := do
  failStateIf (self.state ≠ .running) .invalidTransition
    "audio cannot be published after the request becomes terminal" (-1)
  failStateIf (8 < chunk.codecFrameCount) .invalidAudioChunk
    "codec frame count must be in [0, 8]" (-1)
  failStateIf (chunk.codecFrameCount = 0 ∧
      (chunk.final = false ∨ chunk.first = true ∨ chunk.samples.sampleCount ≠ 0))
    .invalidAudioChunk
    "a zero-frame chunk must be a non-FIRST FINAL control marker with no PCM" (-1)
  let expectedSampleCount := chunk.codecFrameCount * kCodecSamplesPerFrame
  failStateIf (chunk.samples.sampleCount ≠ expectedSampleCount) .invalidAudioChunk
    "PCM sample count does not equal codec_frame_count * 1024" (-1)
  failStateIf (chunk.firstSampleIndex ≠ self.nextSampleIndex) .invalidAudioChunk
    "PCM sample ranges are not contiguous" (-1)
  failStateIf (chunk.sequence ≠ self.nextSequence) .invalidAudioChunk
    "audio sequence is not contiguous" (-1)
  failStateIf (chunk.first ≠ decide (self.nextSequence = 0)) .invalidAudioChunk
    "FIRST flag does not match sequence zero" (-1)
  failStateIf (chunk.first = true ∧ chunk.codecFrameCount ≠ 4) .invalidAudioChunk
    "the first audio chunk must contain exactly four codec frames" (-1)
  failStateIf (chunk.first = false ∧ chunk.final = false ∧ chunk.codecFrameCount ≠ 8)
    .invalidAudioChunk
    "a non-terminal steady chunk must contain exactly eight codec frames" (-1)
  failStateIf
    (subUint32 self.pcmRingCapacityFrames self.occupiedCodecFrames < chunk.codecFrameCount)
    .backpressure "PCM ring has insufficient free codec frames" (-1)
  let chunkEnd := addUint64 chunk.firstSampleIndex expectedSampleCount
  failStateIf (chunk.alignmentValid = false ∧
      (chunk.alignmentEvents ≠ [] ∨ chunk.committedTextTokens ≠ 0)) .invalidAudioChunk
    "a chunk without valid alignment must not carry progress" (-1)
  failStateIf (chunk.alignmentValid = true ∧
      (chunk.committedTextTokens < self.committedTextTokens ∨
        self.textTokenCount < chunk.committedTextTokens)) .invalidAudioChunk
    "lease-level alignment progress is not monotonic and in range" (-1)
  failStateIf (chunk.alignmentValid = true ∧ chunk.alignmentEvents = [] ∧
      chunk.committedTextTokens ≠ self.committedTextTokens) .invalidAudioChunk
    "lease-level alignment progress cannot advance without an event" (-1)
  self.validateEvents chunkEnd 0 chunk.firstSampleIndex self.committedTextTokens
    chunk.alignmentEvents
  failStateIf (chunk.alignmentValid = true ∧
      ∃ last ∈ chunk.alignmentEvents.getLast?, chunk.committedTextTokens ≠ last.committedTextTokens)
    .invalidAudioChunk "lease-level alignment progress does not equal the last event" (-1)

/-- `increment_revision_locked` at the end of an operation that returns `value`. -/
def incrementRevision {β : Type} (value : β) : Except RequestStateError β × StreamingRequestState :=
  if self.revision = maximumUint64 then
    (.error ⟨.invalidTransition, "request revision is exhausted", -1⟩, self)
  else
    (.ok value, { self with revision := self.revision + 1 })

/-- The writes of `publish` behind the validation. -/
def acceptChunk (chunk : AudioChunk) : StreamingRequestState :=
  { self with
    committedTextTokens :=
      if chunk.alignmentValid then chunk.committedTextTokens else self.committedTextTokens
    nextSampleIndex := addUint64 self.nextSampleIndex chunk.samples.sampleCount
    nextSequence := addUint64 self.nextSequence 1
    generatedCodecFrames := addUint64 self.generatedCodecFrames chunk.codecFrameCount
    publishedSamples := addUint64 self.publishedSamples chunk.samples.sampleCount
    occupiedCodecFrames := addUint32 self.occupiedCodecFrames chunk.codecFrameCount
    availableAudio := self.availableAudio ++ [chunk]
    state := if chunk.final then .completed else self.state }

/-- `publish`. It returns `false` when an accepted cancellation has closed the publication. -/
def publish (chunk : AudioChunk) : Except RequestStateError Bool × StreamingRequestState :=
  if self.cancellationRequested then
    (.ok false, self)
  else
    match self.validateChunk chunk with
    | .error error => (.error error, self)
    | .ok () => (self.acceptChunk chunk).incrementRevision true

/-- The loop of `discard_unleased_audio_locked` over the queue. -/
def subtractFrames : (occupied : ℕ) → List AudioChunk → Except RequestStateError Unit × ℕ
  | occupied, [] => (.ok (), occupied)
  | occupied, chunk :: chunks =>
      if occupied < chunk.codecFrameCount then
        (.error ⟨.invalidTransition, "PCM ring accounting underflow", -1⟩, occupied)
      else
        subtractFrames (occupied - chunk.codecFrameCount) chunks

/-- `discard_unleased_audio_locked`. -/
def discardUnleasedAudio : Except RequestStateError Unit × StreamingRequestState :=
  match subtractFrames self.occupiedCodecFrames self.availableAudio with
  | (.error error, occupied) => (.error error, { self with occupiedCodecFrames := occupied })
  | (.ok (), occupied) =>
    (.ok (), { self with occupiedCodecFrames := occupied, availableAudio := [] })

/-- `complete_cancellation_locked`. -/
def completeCancellation : Except RequestStateError Unit × StreamingRequestState :=
  if self.state ≠ .running ∨ self.cancellationRequested = false then
    (.error ⟨.invalidTransition,
      "cancellation completion requires an accepted running request", -1⟩, self)
  else
    match self.discardUnleasedAudio with
    | (.error error, next) => (.error error, next)
    | (.ok (), next) =>
      (.ok (),
        { next with
          state := .cancelled
          terminalStatus := 10
          terminalErrorStage := 6
          terminalErrorMessage := [] })

/-- `request_cancellation`. -/
def requestCancellation : Except RequestStateError Bool × StreamingRequestState :=
  if self.state = .cancelled then
    (.ok true, self)
  else if self.state ≠ .running then
    (.ok false, self)
  else if self.cancellationRequested then
    (.ok true, self)
  else
    match ({ self with cancellationRequested := true }).discardUnleasedAudio with
    | (.error error, next) => (.error error, next)
    | (.ok (), next) => next.incrementRevision true

/-- `cancellation_requested`. -/
def cancellationPending : Bool :=
  self.state = .running && self.cancellationRequested

/-- `complete_cancellation_after_drain`. -/
def completeCancellationAfterDrain : Except RequestStateError Bool × StreamingRequestState :=
  if self.state ≠ .running ∨ self.cancellationRequested = false then
    (.ok false, self)
  else
    match self.completeCancellation with
    | (.error error, next) => (.error error, next)
    | (.ok (), next) => next.incrementRevision true

/-- `fail`. -/
def fail (terminalStatus terminalErrorStage : ℤ) (terminalErrorMessage : List UInt8) :
    Except RequestStateError Unit × StreamingRequestState :=
  if terminalStatus ≤ 0 ∨ terminalStatus = 3 ∨ terminalStatus = 10 ∨ terminalStatus = 11 ∨
      terminalStatus = 12 ∨ terminalErrorStage ≤ 0 ∨ terminalErrorMessage = [] then
    (.error ⟨.invalidTransition,
      "failed request requires a declared failure status, stage, and message", -1⟩, self)
  else if self.state ≠ .running then
    (.error ⟨.invalidTransition, "only a running request can fail", -1⟩, self)
  else
    match self.discardUnleasedAudio with
    | (.error error, next) => (.error error, next)
    | (.ok (), next) =>
      ({ next with state := .failed, terminalStatus, terminalErrorStage, terminalErrorMessage
          : StreamingRequestState }).incrementRevision ()

/-- `snapshot`. -/
def snapshot : Except RequestStateError RequestStateSnapshot :=
  if maximumUint32 < self.availableAudio.length then
    .error ⟨.invalidTransition, "available audio lease count exceeds UINT32", -1⟩
  else
    .ok
      { revision := self.revision
        state := self.state
        availableAudioLeases := self.availableAudio.length
        generatedCodecFrames := self.generatedCodecFrames
        publishedSamples := self.publishedSamples
        committedTextTokens := self.committedTextTokens
        terminalStatus := self.terminalStatus
        terminalErrorStage := self.terminalErrorStage
        terminalErrorMessage := self.terminalErrorMessage }

/-- `acquire_audio`, on the request and on the shared lease identifiers. -/
def acquireAudio (ids : LeaseIdSequence) :
    Except RequestStateError AudioLeaseView × StreamingRequestState × LeaseIdSequence :=
  match self.availableAudio with
  | [] => (.error ⟨.noAudio, "no audio chunk is currently available", -1⟩, self, ids)
  | chunk :: rest =>
    match ids.acquire with
    | (.error error, ids) => (.error error, self, ids)
    | (.ok leaseId, ids) =>
      let popped := { self with availableAudio := rest }
      if popped.liveLeases.any fun lease => lease.leaseId = leaseId then
        (.error ⟨.invalidTransition, "process-wide lease identifier was reused", -1⟩, popped, ids)
      else
        let stored : StoredLease := { leaseId, chunk }
        let (outcome, next) :=
          ({ popped with liveLeases := popped.liveLeases ++ [stored] }).incrementRevision
            stored.view
        (outcome, next, ids)

/-- `release_audio`. -/
def releaseAudio (leaseId : ℕ) : Except RequestStateError Unit × StreamingRequestState :=
  match self.liveLeases.find? fun lease => lease.leaseId = leaseId with
  | none =>
    (.error ⟨.unknownLease, "lease identifier is not live on this request", -1⟩, self)
  | some found =>
    if self.occupiedCodecFrames < found.chunk.codecFrameCount then
      (.error ⟨.invalidTransition, "PCM ring accounting underflow", -1⟩, self)
    else
      ({ self with
          occupiedCodecFrames := self.occupiedCodecFrames - found.chunk.codecFrameCount
          liveLeases := self.liveLeases.eraseP fun lease => lease.leaseId = leaseId
          : StreamingRequestState }).incrementRevision ()

/-- `is_terminal`. -/
def isTerminal : Bool := self.state ≠ .running

end StreamingRequestState

end MagpieTts.Runtime
