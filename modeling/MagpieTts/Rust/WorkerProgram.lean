import MagpieTts.Library.Interaction
import MagpieTts.Rust.AudioLease

/-!
# The program of the inference worker

`worker_loop` and `drive_fatal_request` of `worker.rs`, with the wrapper functions of `runtime.rs`
that they call. The thread performs one operation after the other on what it shares: the command
channels, the wake channel, the event channels, the reply channels and the native library. Between
two operations any other thread may run.

A call on the native library replies with the result of `Api::result_from_call`: what it wrote, or
the error of its status.

## Main definitions

* `WorkerOperation`, `WorkerOperation.Reply`: the operations and their replies.
* `Request`: the wrapper of a native request, with its functions.
* `ActiveRequest`, `advanceRequest`, `cancelActiveRequest`: the request that the worker serves.
* `WorkerLoop`, `loopIteration`, `fatalIteration`: the two loops.
* `WorkerPhase`, `WorkerPhase.pass`: the program of the thread.
-/

namespace MagpieTts.Rust

open MagpieTts.Library MagpieTts.Api MagpieTts.Runtime

/-! ### The operations -/

/-- `StartCommand`. The number `stream` stands for the event channel and the reply channel that the
caller made for this command. -/
structure StartCommand where
  textTokenIds : List ℤ
  randomSeed : ℕ
  stream : ℕ
  deriving DecidableEq

/-- `ControlCommand`. The number `reply` stands for the reply channel of the caller; a shutdown has
none, and is numbered all the same. -/
inductive ControlCommand where
  | cancel (requestId reply : ℕ)
  | shutdown (reply : ℕ)
  deriving DecidableEq

/-- The result of `Receiver::try_recv`. -/
inductive TryReceive (α : Type) where
  | received (command : α)
  | empty
  | disconnected
  deriving DecidableEq

/-- The result of `SyncSender::try_send`. -/
inductive TrySend where
  | sent
  | full
  | disconnected
  deriving DecidableEq

/-- What the worker thread does to what it shares. A native request is known by its handle. -/
inductive WorkerOperation where
  | tryReceiveControl
  | tryReceiveStart
  | receiveWake
  | sleep
  | replyStart (stream : ℕ) (result : Except WorkerError ℕ)
  | replyCancel (reply : ℕ) (result : Except WorkerError Unit)
  | trySend (stream : ℕ) (event : SynthesisEvent)
  | dropSender (stream : ℕ)
  | dropReceivers
  | abort (resource : String) (error : Error)
  | requestStart (textTokenIds : List ℤ) (randomSeed : ℕ)
  | requestCancel (handle : ℕ)
  | requestPoll (handle : ℕ)
  | requestWait (handle afterRevision : ℕ)
  | audioAcquire (handle : ℕ)
  | copySamples (handle : ℕ) (lease : AudioLeaseV1)
  | audioRelease (handle leaseId : ℕ)
  | requestDestroy (handle : ℕ)

/-- The reply of an operation. A start returns a handle, zero for a null pointer; a wait returns
nothing at its timeout, and an acquire nothing when it would block. An abort has no reply. -/
@[reducible] def WorkerOperation.Reply : WorkerOperation → Type
  | tryReceiveControl => TryReceive ControlCommand
  | tryReceiveStart => TryReceive StartCommand
  | receiveWake => Bool
  | sleep | replyStart _ _ | replyCancel _ _ | dropSender _ | dropReceivers => Unit
  | trySend _ _ => TrySend
  | abort _ _ => Empty
  | requestStart _ _ => Except Error ℕ
  | requestCancel _ | audioRelease _ _ | requestDestroy _ => Except Error Unit
  | requestPoll _ => Except Error PublicSnapshot
  | requestWait _ _ => Except Error (Option PublicSnapshot)
  | audioAcquire _ => Except Error (Option AudioLeaseV1)
  | copySamples _ _ => List UInt32

/-- The programs of the worker thread. -/
abbrev Worker := Program WorkerOperation WorkerOperation.Reply

/-- The program that performs one operation. -/
def perform (operation : WorkerOperation) : Worker operation.Reply := Program.call operation

/-- `abort_drop_failure`. -/
def abortDropFailure {α : Type} (resource : String) (error : Error) : Worker α :=
  .perform (.abort resource error) Empty.elim

/-! ### The wrapper of a native request -/

/-- `Request`. -/
structure Request where
  handle : Option ℕ
  snapshots : SnapshotRecord
  leases : LeaseRecord
  poisoned : Bool
  closeError : Option Error
  deriving DecidableEq

namespace Request

variable (self : Request)

def poisonedError : Error :=
  .poisoned "Request" "an invalid native audio lease could not be released"

/-- `handle_ptr`. -/
def handlePtr : Except Error ℕ :=
  if self.poisoned then
    .error poisonedError
  else
    match self.handle with
    | some handle => .ok handle
    | none => .error (.closed "Request")

/-- `cancel`. -/
def cancel : Worker (Except Error Unit) :=
  match self.handlePtr with
  | .error error => return .error error
  | .ok handle => perform (.requestCancel handle)

/-- The validation of a raw snapshot, with its error as one of the wrapper. -/
def acceptSnapshot (operation : String) (raw : PublicSnapshot)
    (minimumRevisionExclusive : Option ℕ) : Request × Except Error RequestSnapshot :=
  match self.snapshots.validateSnapshot operation raw minimumRevisionExclusive with
  | .error invalid => (self, .error (.invalidNativeData invalid))
  | .ok (snapshot, snapshots) => ({ self with snapshots }, .ok snapshot)

/-- `poll`. -/
def poll : Worker (Request × Except Error RequestSnapshot) :=
  match self.handlePtr with
  | .error error => return (self, .error error)
  | .ok handle => do
    match ← perform (.requestPoll handle) with
    | .error error => return (self, .error error)
    | .ok raw => return self.acceptSnapshot "request_poll" raw none

/-- `wait_after`. -/
def waitAfter (afterRevision : ℕ) : Worker (Request × Except Error (Option RequestSnapshot)) :=
  match self.handlePtr with
  | .error error => return (self, .error error)
  | .ok handle => do
    match ← perform (.requestWait handle afterRevision) with
    | .error error => return (self, .error error)
    | .ok none => return (self, .ok none)
    | .ok (some raw) =>
      let (accepted, snapshot) := self.acceptSnapshot "request_wait" raw (some afterRevision)
      return (accepted, snapshot.map some)

/-- `release_audio_id`. -/
def releaseAudioId (leaseId : ℕ) : Worker (Except Error Unit) :=
  match self.handlePtr with
  | .error error => return .error error
  | .ok handle => perform (.audioRelease handle leaseId)

/-- The validation of a raw lease in `acquire_audio`, with the record it leaves. -/
def acceptLease (raw : AudioLeaseV1) : LeaseRecord × Except Error (List AlignmentEvent) :=
  let (validated, leases) := validateAudioLease self.snapshots.tokenCount self.leases raw
  match (do
    let alignmentEvents ← validated
    let position ← nextAudioPosition raw
    return (alignmentEvents, position)) with
  | .error invalid => (leases, .error (.invalidNativeData invalid))
  | .ok (alignmentEvents, position) =>
    ({ leases with
        nextAudioPosition := some position
        lastAudioCommittedTokens :=
          if raw.flags &&& audioFlagAlignmentValid ≠ 0 then some raw.committedTextTokens
          else leases.lastAudioCommittedTokens
        finalAudioAcquired := decide (raw.flags &&& audioFlagFinal ≠ 0) },
      .ok alignmentEvents)

/-- `acquire_audio`: the raw lease with its alignment events. A lease that fails the validation is
released at once. -/
def acquireAudio :
    Worker (Request × Except Error (Option (AudioLeaseV1 × List AlignmentEvent))) :=
  match self.handlePtr with
  | .error error => return (self, .error error)
  | .ok handle =>
    if self.leases.finalAudioAcquired then
      return (self, .ok none)
    else do
      match ← perform (.audioAcquire handle) with
      | .error error => return (self, .error error)
      | .ok none => return (self, .ok none)
      | .ok (some raw) =>
        match self.acceptLease raw with
        | (leases, .ok alignmentEvents) =>
          return ({ self with leases }, .ok (some (raw, alignmentEvents)))
        | (leases, .error leaseError) =>
          match ← releaseAudioId { self with leases } raw.leaseId with
          | .ok () => return ({ self with leases }, .error leaseError)
          | .error releaseError =>
            return ({ self with leases, poisoned := true },
              .error (.invalidAudioLeaseAndReleaseFailed leaseError releaseError))

/-- `close`, which is `destroy_once`. -/
def close : Worker (Request × Except Error Unit) :=
  if self.poisoned then
    return (self, .error poisonedError)
  else
    match self.handle with
    | none => return (self, .ok ())
    | some handle => do
      match ← perform (.requestDestroy handle) with
      | .ok () => return ({ self with handle := none, closeError := none }, .ok ())
      | .error closeError =>
        return ({ self with closeError := some closeError }, .error closeError)

/-- `Drop for Request`. -/
def drop : Worker Unit :=
  match self.closeError with
  | some closeError => abortDropFailure "Request" closeError
  | none => do
    match ← self.close with
    | (_, .ok ()) => return ()
    | (_, .error error) => abortDropFailure "Request" error

/-- The input checks of `Session::start_request`. -/
def checkInput (textTokenIds : List ℤ) (randomSeed : ℕ) : Except Error Unit := do
  if textTokenIds = [] then
    throw (.invalidInput "text_token_ids" "must contain at least one prepared token")
  if 512 < textTokenIds.length then
    throw (.invalidInput "text_token_ids" "exceeds the ABI v1 token limit")
  if ∃ token ∈ textTokenIds, token < 0 ∨ 2147483647 < token then
    throw (.invalidInput "text_token_ids" "every identifier must fit a non-negative INT32 value")
  if maximumUint32 < randomSeed then
    throw (.invalidInput "random_seed" "must be in [0, 2^32)")

/-- The wrapper of a request that has just been started. -/
def started (handle : ℕ) (textTokenIds : List ℤ) : Request :=
  ⟨some handle, ⟨textTokenIds.length, none⟩, .initial, false, none⟩

/-- `Session::start_request`. -/
def start (textTokenIds : List ℤ) (randomSeed : ℕ) : Worker (Except Error Request) :=
  match checkInput textTokenIds randomSeed with
  | .error error => return .error error
  | .ok () => do
    match ← perform (.requestStart textTokenIds randomSeed) with
    | .error error => return .error error
    | .ok 0 => return .error (.nullHandle "request_start")
    | .ok (handle + 1) => return .ok (started (handle + 1) textTokenIds)

end Request

/-! ### The active request -/

/-- `ActiveRequest`. The sender of the events is known by its channel. -/
structure ActiveRequest where
  identifier : ℕ
  request : Request
  events : Option ℕ
  pendingEvent : Option SynthesisEvent
  observedRevision : ℕ
  knownAvailableAudio : ℕ
  terminalSnapshot : Option RequestSnapshot
  terminalEventQueued : Bool
  deriving DecidableEq

inductive AdvanceOutcome where
  | finished
  | progressed
  | waited
  | backpressured
  deriving DecidableEq

/-- The chunk that `acquire_owned_audio` builds from a lease. -/
def ownedAudioChunk (raw : AudioLeaseV1) (alignmentEvents : List AlignmentEvent)
    (samples : List UInt32) : OwnedAudioChunk where
  sequence := raw.sequence
  firstSampleIndex := raw.firstSampleIndex
  sampleRateHz := raw.sampleRateHz
  first := decide (raw.flags &&& audioFlagFirst ≠ 0)
  finalChunk := decide (raw.flags &&& audioFlagFinal ≠ 0)
  committedTextTokens :=
    if raw.flags &&& audioFlagAlignmentValid ≠ 0 then some raw.committedTextTokens else none
  alignmentEvents
  samples

/-- `acquire_owned_audio`. A lease whose release failed aborts the process when it is dropped. -/
def acquireOwnedAudio (request : Request) :
    Worker (Request × Except Error (Option OwnedAudioChunk)) := do
  match ← request.acquireAudio with
  | (request, .error error) => return (request, .error error)
  | (request, .ok none) => return (request, .ok none)
  | (request, .ok (some (raw, alignmentEvents))) =>
    let samples ← perform (.copySamples (request.handle.getD 0) raw)
    match ← request.releaseAudioId raw.leaseId with
    | .ok () => return (request, .ok (some (ownedAudioChunk raw alignmentEvents samples)))
    | .error releaseError => abortDropFailure "AudioLease" releaseError

namespace ActiveRequest

/-- `observe_snapshot`. -/
def observeSnapshot (active : ActiveRequest) (snapshot : RequestSnapshot) : ActiveRequest :=
  { active with
    observedRevision := snapshot.revision
    knownAvailableAudio := snapshot.availableAudioLeases
    terminalSnapshot :=
      if snapshot.state ≠ .running then some snapshot else active.terminalSnapshot }

/-- `request.events = None`. -/
def detach (active : ActiveRequest) : Worker ActiveRequest :=
  match active.events with
  | none => return active
  | some stream => do
    perform (.dropSender stream)
    return { active with events := none }

/-- `Drop` of the fields of an `ActiveRequest`. -/
def drop (active : ActiveRequest) : Worker Unit := do
  active.request.drop
  let _ ← active.detach
  return ()

end ActiveRequest

/-- `flush_pending_event`. -/
def flushPendingEvent (active : ActiveRequest) : Worker ActiveRequest :=
  match active.pendingEvent with
  | none => return active
  | some event =>
    match active.events with
    | none => return { active with pendingEvent := none }
    | some stream => do
      match ← perform (.trySend stream event) with
      | .sent => return { active with pendingEvent := none }
      | .full => return active
      | .disconnected => ActiveRequest.detach { active with pendingEvent := none }

/-- `cancel_active_request`. -/
def cancelActiveRequest (active : ActiveRequest) :
    Worker (ActiveRequest × Except WorkerError Unit) :=
  if active.terminalSnapshot.isSome then
    return (active, .ok ())
  else do
    match ← active.request.cancel with
    | .ok () => return ({ active with knownAvailableAudio := 0 }, .ok ())
    | .error cancelError =>
      if cancelMayHaveRacedTerminal cancelError then
        match ← active.request.poll with
        | (request, .ok snapshot) =>
          let observed := ActiveRequest.observeSnapshot { active with request } snapshot
          if snapshot.state ≠ .running then
            return (observed, .ok ())
          else
            return (observed, .error (.runtime cancelError))
        | (request, .error _) => return ({ active with request }, .error (.runtime cancelError))
      else
        return (active, .error (.runtime cancelError))

/-- The end of `advance_request`: the request is closed. -/
def closeStage (active : ActiveRequest) :
    Worker (ActiveRequest × Except WorkerError AdvanceOutcome) := do
  match ← active.request.close with
  | (request, .ok ()) => return ({ active with request }, .ok .finished)
  | (request, .error error) => return ({ active with request }, .error (.runtime error))

/-- `advance_request` from the terminal event on. -/
def finishStage (active : ActiveRequest) (snapshot : RequestSnapshot) :
    Worker (ActiveRequest × Except WorkerError AdvanceOutcome) :=
  if active.terminalEventQueued then
    closeStage active
  else
    let queued := { active with terminalEventQueued := true }
    if queued.events.isSome then
      match terminalEvent snapshot with
      | .error error => return (queued, .error error)
      | .ok event => do
        let flushed ← flushPendingEvent { queued with pendingEvent := some event }
        if flushed.pendingEvent.isSome then
          return (flushed, .ok .backpressured)
        else
          closeStage flushed
    else
      closeStage queued

/-- `advance_request` from the wait on. -/
def observeStage (active : ActiveRequest) :
    Worker (ActiveRequest × Except WorkerError AdvanceOutcome) :=
  match active.terminalSnapshot with
  | none => do
    match ← active.request.waitAfter active.observedRevision with
    | (request, .error error) => return ({ active with request }, .error (.runtime error))
    | (request, .ok none) => return ({ active with request }, .ok .waited)
    | (request, .ok (some snapshot)) =>
      return (ActiveRequest.observeSnapshot { active with request } snapshot, .ok .progressed)
  | some snapshot =>
    if 0 < active.knownAvailableAudio then
      return (active, .ok .progressed)
    else
      finishStage active snapshot

/-- `advance_request` from the acquisition of audio on. -/
def acquireStage (active : ActiveRequest) :
    Worker (ActiveRequest × Except WorkerError AdvanceOutcome) :=
  if active.terminalEventQueued = false ∧ 0 < active.knownAvailableAudio then do
    match ← acquireOwnedAudio active.request with
    | (request, .error error) => return ({ active with request }, .error (.runtime error))
    | (request, .ok none) => observeStage { active with request, knownAvailableAudio := 0 }
    | (request, .ok (some chunk)) =>
      let acquired : ActiveRequest :=
        { active with request, knownAvailableAudio := active.knownAvailableAudio - 1 }
      if acquired.events.isSome then
        let flushed ← flushPendingEvent { acquired with pendingEvent := some (.audio chunk) }
        if flushed.pendingEvent.isSome then
          return (flushed, .ok .backpressured)
        else
          return (flushed, .ok .progressed)
      else
        return (acquired, .ok .progressed)
  else
    observeStage active

/-- `advance_request`. -/
def advanceRequest (active : ActiveRequest) :
    Worker (ActiveRequest × Except WorkerError AdvanceOutcome) := do
  let flushed ← flushPendingEvent active
  if flushed.pendingEvent.isSome then
    return (flushed, .ok .backpressured)
  else if flushed.events.isNone ∧ flushed.terminalSnapshot.isNone then
    match ← cancelActiveRequest flushed with
    | (cancelled, .error error) => return (cancelled, .error error)
    | (cancelled, .ok ()) => acquireStage cancelled
  else
    acquireStage flushed

/-! ### The two loops -/

/-- The local variables of `worker_loop`. -/
structure WorkerLoop where
  active : Option ActiveRequest
  mostRecentTerminalIdentifier : Option ℕ
  nextIdentifier : ℕ
  shutdownRequested : Bool
  shutdownError : Option WorkerError
  startsConnected : Bool
  controlsConnected : Bool

/-- The variables at the start of `worker_loop`. -/
def WorkerLoop.initial : WorkerLoop := ⟨none, none, 1, false, none, true, true⟩

/-- Where the thread is: at the head of `worker_loop`, at the head of the loop of
`drive_fatal_request`, or behind the return of `worker_loop`. -/
inductive WorkerPhase where
  | loop (state : WorkerLoop)
  | fatal (active : ActiveRequest) (pendingErrorEvent : Option SynthesisEvent) (error : WorkerError)
  | returned (result : Except WorkerError Unit)

/-- `AdmittedWorkerCommand`. -/
inductive AdmittedWorkerCommand where
  | control (command : ControlCommand)
  | start (command : StartCommand)

/-- The return of `worker_loop`, which drops its variables and the receivers. -/
def leaveLoop (active : Option ActiveRequest) (result : Except WorkerError Unit) :
    Worker WorkerPhase := do
  match active with
  | some active => active.drop
  | none => pure ()
  perform .dropReceivers
  return .returned result

/-- `try_receive_prioritized` from the start channel on. -/
def tryReceiveStarts (state : WorkerLoop) :
    Worker (WorkerLoop × Option AdmittedWorkerCommand) :=
  if state.startsConnected then do
    match ← perform .tryReceiveStart with
    | .received command => return (state, some (.start command))
    | .empty => return (state, none)
    | .disconnected => return ({ state with startsConnected := false }, none)
  else
    return (state, none)

/-- `try_receive_prioritized`. -/
def tryReceivePrioritized (state : WorkerLoop) :
    Worker (WorkerLoop × Option AdmittedWorkerCommand) :=
  if state.controlsConnected then do
    match ← perform .tryReceiveControl with
    | .received command => return (state, some (.control command))
    | .empty => tryReceiveStarts state
    | .disconnected => tryReceiveStarts { state with controlsConnected := false }
  else
    tryReceiveStarts state

/-- The event that `drive_fatal_request` tries to send. -/
def pendingErrorEvent : WorkerError → Option SynthesisEvent
  | .runtime error => some (.runtimeError error)
  | _ => none

/-- The head of `drive_fatal_request`. -/
def driveFatalRequest (active : ActiveRequest) (error : WorkerError) : WorkerPhase :=
  .fatal { active with pendingEvent := none } (pendingErrorEvent error) error

/-- The end of a pass of `worker_loop`: the worker waits, unless it did something. -/
def waitStage (state : WorkerLoop) (handled : Bool) (outcome : Option AdvanceOutcome) :
    Worker WorkerPhase :=
  if handled then
    return .loop state
  else
    match outcome with
    | none => do
      if ← perform .receiveWake then
        return .loop state
      else
        leaveLoop state.active (.error .commandChannelClosed)
    | some .backpressured => do
      perform .sleep
      return .loop state
    | some _ => return .loop state

/-- A pass of `worker_loop` from the check of the senders on. -/
def disconnectStage (state : WorkerLoop) (handled : Bool) (outcome : Option AdvanceOutcome) :
    Worker WorkerPhase :=
  if state.startsConnected = false ∧ state.controlsConnected = false ∧
      state.shutdownRequested = false then
    let closing : WorkerLoop :=
      { state with shutdownRequested := true, shutdownError := some .commandChannelClosed }
    match closing.active with
    | none => waitStage closing handled outcome
    | some active => do
      let detached ← active.detach
      waitStage { closing with active := some { detached with pendingEvent := none } } handled
        outcome
  else
    waitStage state handled outcome

/-- A pass of `worker_loop` from the start of a request on. -/
def startStage (state : WorkerLoop) (command : Option AdmittedWorkerCommand)
    (outcome : Option AdvanceOutcome) : Worker WorkerPhase :=
  match command with
  | some (.start command) =>
    if state.active.isSome ∨ state.shutdownRequested = true then do
      perform (.replyStart command.stream (.error .busy))
      disconnectStage state true outcome
    else if state.nextIdentifier = maximumUint64 then do
      perform (.replyStart command.stream (.error .requestIdentifierExhausted))
      disconnectStage state true outcome
    else do
      match ← Request.start command.textTokenIds command.randomSeed with
      | .ok request =>
        perform (.replyStart command.stream (.ok state.nextIdentifier))
        disconnectStage
          { state with
            nextIdentifier := state.nextIdentifier + 1
            active := some ⟨state.nextIdentifier, request, some command.stream, none, 0, 0, none,
              false⟩ }
          true outcome
      | .error error =>
        perform (.replyStart command.stream (.error (.runtime error)))
        leaveLoop state.active (.error (.runtime error))
  | some (.control _) => disconnectStage state true outcome
  | none => disconnectStage state false outcome

/-- `shutdown_error.map_or(Ok(()), Err)`. -/
def WorkerLoop.shutdownResult (state : WorkerLoop) : Except WorkerError Unit :=
  match state.shutdownError with
  | none => .ok ()
  | some error => .error error

/-- A pass of `worker_loop` from the advance of the active request on. -/
def advanceStage (state : WorkerLoop) (command : Option AdmittedWorkerCommand) :
    Worker WorkerPhase :=
  match state.active with
  | none =>
    if state.shutdownRequested then
      leaveLoop none state.shutdownResult
    else
      startStage state command none
  | some active => do
    match ← advanceRequest active with
    | (finished, .ok .finished) =>
      finished.drop
      let idle : WorkerLoop :=
        { state with mostRecentTerminalIdentifier := some finished.identifier, active := none }
      if idle.shutdownRequested then
        leaveLoop none idle.shutdownResult
      else
        startStage idle command (some .finished)
    | (advanced, .ok outcome) =>
      startStage { state with active := some advanced } command (some outcome)
    | (failed, .error error) => return driveFatalRequest failed error

/-- The answer to a cancel of a request that is not the active one. -/
def WorkerLoop.answerOther (state : WorkerLoop) (requestId : ℕ) : Except WorkerError Unit :=
  if state.mostRecentTerminalIdentifier = some requestId then
    .ok ()
  else
    .error (.unknownRequest requestId)

/-- A pass of `worker_loop` from the receipt of a cancel on. -/
def cancelStage (state : WorkerLoop) (requestId reply : ℕ)
    (command : Option AdmittedWorkerCommand) : Worker WorkerPhase :=
  match state.active with
  | some active =>
    if active.identifier = requestId then do
      let (cancelled, result) ← cancelActiveRequest active
      perform (.replyCancel reply result)
      match result with
      | .ok () => advanceStage { state with active := some cancelled } command
      | .error error =>
        if cancelErrorIsFatal error then
          return driveFatalRequest cancelled error
        else
          advanceStage { state with active := some cancelled } command
    else do
      perform (.replyCancel reply (state.answerOther requestId))
      advanceStage state command
  | none => do
    perform (.replyCancel reply (state.answerOther requestId))
    advanceStage state command

/-- A pass of `worker_loop` from the receipt of a shutdown on. -/
def shutdownStage (state : WorkerLoop) (command : Option AdmittedWorkerCommand) :
    Worker WorkerPhase :=
  let closing : WorkerLoop := { state with shutdownRequested := true }
  match closing.active with
  | none => advanceStage closing command
  | some active => do
    let detached ← active.detach
    advanceStage { closing with active := some { detached with pendingEvent := none } } command

/-- One pass of the loop of `worker_loop`. -/
def loopIteration (state : WorkerLoop) : Worker WorkerPhase := do
  let (state, command) ← tryReceivePrioritized state
  match command with
  | some (.control (.cancel requestId reply)) => cancelStage state requestId reply command
  | some (.control (.shutdown _)) => shutdownStage state command
  | _ => advanceStage state command

/-- The return of `drive_fatal_request` with the event sender dropped. -/
def leaveFatal (active : ActiveRequest) (error : WorkerError) : Worker WorkerPhase := do
  let detached ← active.detach
  leaveLoop (some detached) (.error error)

/-- One pass of the loop of `drive_fatal_request` from the start channel on. -/
def fatalStarts (active : ActiveRequest) (event : SynthesisEvent) (error : WorkerError)
    (controlsConnected : Bool) : Worker WorkerPhase := do
  match ← perform .tryReceiveStart with
  | .received command =>
    perform (.replyStart command.stream (.error error))
    perform .sleep
    return .fatal active (some event) error
  | .empty =>
    perform .sleep
    return .fatal active (some event) error
  | .disconnected =>
    if controlsConnected then
      perform .sleep
      return .fatal active (some event) error
    else
      leaveFatal active error

/-- One pass of the loop of `drive_fatal_request` from the control channel on. -/
def fatalControls (active : ActiveRequest) (event : SynthesisEvent) (error : WorkerError) :
    Worker WorkerPhase := do
  match ← perform .tryReceiveControl with
  | .received (.shutdown _) => leaveFatal active error
  | .received (.cancel _ reply) =>
    perform (.replyCancel reply (.error error))
    fatalStarts active event error true
  | .empty => fatalStarts active event error true
  | .disconnected => fatalStarts active event error false

/-- One pass of the loop of `drive_fatal_request`. -/
def fatalIteration (active : ActiveRequest) (pendingErrorEvent : Option SynthesisEvent)
    (error : WorkerError) : Worker WorkerPhase :=
  match pendingErrorEvent with
  | none => leaveFatal active error
  | some event =>
    match active.events with
    | none => leaveLoop (some active) (.error error)
    | some stream => do
      match ← perform (.trySend stream event) with
      | .sent | .disconnected => leaveFatal active error
      | .full => fatalControls active event error

/-- One pass of the loop that the thread is in. -/
def WorkerPhase.pass : WorkerPhase → Worker WorkerPhase
  | loop state => loopIteration state
  | fatal active pendingErrorEvent error => fatalIteration active pendingErrorEvent error
  | returned result => return .returned result

end MagpieTts.Rust
