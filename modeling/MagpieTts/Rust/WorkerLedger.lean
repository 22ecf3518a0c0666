import MagpieTts.Rust.WorkerSystem

/-!
# The ledger of the inference worker

The trace of the worker thread is its operations with their replies. The ledger keeps the books of
a trace: the command in the worker's hand, the native request that lives, what the native library
has handed out for it and what its stream has been sent. Its rules say which operation may come
next.

The ledger knows nothing of the worker's variables: it is the specification that the program is
measured against.

## Main definitions

* `LiveRequest`: a native request that has been started and not been destroyed.
* `WorkerLedger`, `WorkerLedger.step`: the books.
* `LiveRequest.Sends`: the order of the events of a stream.
* `WorkerLedger.Answers`: the answer to a cancel.
* `WorkerLedger.Allows`, `workerDiscipline`: the rules.
-/

namespace MagpieTts.Rust

open MagpieTts.Library MagpieTts.Api

/-- What the worker knows of a command channel since it last took a wake-up. -/
inductive Inspection where
  | unknown
  | empty
  | disconnected
  deriving DecidableEq

/-- A wake-up may announce a command, unless no sender is left. -/
def Inspection.afterWake : Inspection → Inspection
  | disconnected => disconnected
  | _ => unknown

/-- A native request that has been started and has not been destroyed. The snapshots are validated
one behind the other; `terminal` is the terminal one, and `advertised` counts the chunks that the
last one advertised, less those acquired since. `lease` has been acquired and not been released, and
`copied` says that its samples were copied. `sent` has the events that entered the channel of the
stream; `attached` says that the worker still has the sender, and `refused` that the owner of the
stream was found to be gone. -/
structure LiveRequest where
  identifier : ℕ
  stream : ℕ
  handle : ℕ
  attached : Bool
  refused : Bool
  snapshots : SnapshotRecord
  terminal : Option RequestSnapshot
  advertised : ℕ
  finalAcquired : Bool
  lease : Option AudioLeaseV1
  copied : Bool
  acquired : List OwnedAudioChunk
  sent : List SynthesisEvent
  /-- the error of the native cancel since the last command was received -/
  cancelError : Option Error
  /-- a call on the request failed in a way that the worker does not recover from -/
  failing : Bool
  /-- the release of a lease failed, or the destruction did -/
  stopped : Bool
  destroyError : Option Error

/-- A request that has just been started. -/
def LiveRequest.started (identifier handle : ℕ) (command : StartCommand) : LiveRequest where
  identifier
  stream := command.stream
  handle
  attached := true
  refused := false
  snapshots := ⟨command.textTokenIds.length, none⟩
  terminal := none
  advertised := 0
  finalAcquired := false
  lease := none
  copied := false
  acquired := []
  sent := []
  cancelError := none
  failing := false
  stopped := false
  destroyError := none

namespace LiveRequest

/-- A validated snapshot. -/
def observe (live : LiveRequest) (snapshot : RequestSnapshot) (snapshots : SnapshotRecord) :
    LiveRequest :=
  { live with
    snapshots
    advertised := snapshot.availableAudioLeases
    terminal := if snapshot.state ≠ .running then some snapshot else live.terminal }

/-- The reply of a poll. It is asked for behind a failed cancel; unless it shows the terminal state,
the cancel has failed for good, which only the sender of a command recovers from. -/
def polled (live : LiveRequest) (commanded : Bool) : Except Error PublicSnapshot → LiveRequest
  | .error _ => { live with failing := live.failing || !commanded }
  | .ok raw =>
    match live.snapshots.validateSnapshot "request_poll" raw none with
    | .error _ => { live with failing := live.failing || !commanded }
    | .ok (snapshot, snapshots) =>
      { live.observe snapshot snapshots with
        failing := live.failing || (snapshot.state = .running && !commanded) }

/-- The reply of a wait. -/
def waited (live : LiveRequest) (afterRevision : ℕ) :
    Except Error (Option PublicSnapshot) → LiveRequest
  | .error _ => { live with failing := true }
  | .ok none => live
  | .ok (some raw) =>
    match live.snapshots.validateSnapshot "request_wait" raw (some afterRevision) with
    | .error _ => { live with failing := true }
    | .ok (snapshot, snapshots) => live.observe snapshot snapshots

/-- The reply of an acquire. -/
def acquires (live : LiveRequest) : Except Error (Option AudioLeaseV1) → LiveRequest
  | .error _ => { live with failing := true }
  | .ok none => { live with advertised := 0 }
  | .ok (some raw) =>
    { live with lease := some raw, copied := false, advertised := live.advertised - 1 }

/-- The chunk of a lease and its samples. -/
def chunkOf (raw : AudioLeaseV1) (samples : List UInt32) : OwnedAudioChunk :=
  ownedAudioChunk raw
    ((raw.eventMemory.take raw.alignmentEventCount).map alignmentEvent) samples

/-- The samples of a lease have been copied. -/
def copies (live : LiveRequest) (raw : AudioLeaseV1) (samples : List UInt32) : LiveRequest :=
  { live with
    copied := true
    acquired := live.acquired ++ [chunkOf raw samples]
    finalAcquired := decide (raw.flags &&& audioFlagFinal ≠ 0) }

/-- The reply of a release. A lease that is released before it is copied was refused. -/
def releases (live : LiveRequest) : Except Error Unit → LiveRequest
  | .error _ => { live with lease := none, failing := true, stopped := true }
  | .ok () => { live with lease := none, failing := live.failing || !live.copied }

/-- The reply of a cancel. -/
def cancels (live : LiveRequest) : Except Error Unit → LiveRequest
  | .error error =>
    { live with
      cancelError := some error
      failing := live.failing || !cancelMayHaveRacedTerminal error }
  | .ok () => { live with advertised := 0 }

/-- No more audio of the request is advertised: the counter is used up, or the final chunk has been
acquired. -/
def Drained (live : LiveRequest) : Prop := live.advertised = 0 ∨ live.finalAcquired = true

/-- The events of the acquired chunks. -/
def audioEvents (live : LiveRequest) : List SynthesisEvent := live.acquired.map .audio

/-- The event may be the next one on the stream. Audio follows the order of acquisition; the event
of the terminal snapshot follows all audio of a healthy request; and a runtime error follows audio
only, except that the destruction of the request may fail behind its terminal event. -/
def Sends (live : LiveRequest) : SynthesisEvent → Prop
  | .audio chunk => live.audioEvents = live.sent ++ [.audio chunk]
  | .runtimeError error =>
    live.failing = true ∧
      (live.sent <+: live.audioEvents ∨
        live.destroyError = some error ∧
          ∃ event, event.EndsRequest ∧ live.sent = live.audioEvents ++ [event])
  | event =>
    live.sent = live.audioEvents ∧ live.Drained ∧ live.failing = false ∧
      ∃ snapshot, live.terminal = some snapshot ∧ terminalEvent snapshot = .ok event

/-- The result of a cancel of the live request. A failure does not count when the terminal state has
been observed. -/
def cancelResult (live : LiveRequest) : Except WorkerError Unit :=
  match live.terminal, live.cancelError with
  | none, some error => .error (.runtime error)
  | _, _ => .ok ()

/-- A call on the native request is in order. -/
def Callable (live : LiveRequest) (handle : ℕ) : Prop :=
  live.handle = handle ∧ live.lease = none ∧ live.stopped = false

end LiveRequest

/-- The books of a trace: what is known of the two command channels, whether a shutdown was
received, the cancel and the start in the worker's hand, how many identifiers have been issued, the
identifier of the request that was finished last, the live request, and the error that the worker
reports since it failed. -/
structure WorkerLedger where
  controls : Inspection
  starts : Inspection
  shutdown : Bool
  cancel : Option (ℕ × ℕ)
  start : Option StartCommand
  issued : ℕ
  finished : Option ℕ
  live : Option LiveRequest
  fatal : Option Error

namespace WorkerLedger

def initial : WorkerLedger := ⟨.unknown, .unknown, false, none, none, 0, none, none, none⟩

/-- A change of the live request. -/
def onLive (ledger : WorkerLedger) (f : LiveRequest → LiveRequest) : WorkerLedger :=
  { ledger with live := ledger.live.map f }

/-- The books behind an event that entered the channel of a stream. -/
def sends (ledger : WorkerLedger) (stream : ℕ) (event : SynthesisEvent) : WorkerLedger :=
  ledger.onLive fun live =>
    if live.stream = stream then { live with sent := live.sent ++ [event] } else live

/-- The books behind an event that found the owner of the stream gone. -/
def refuses (ledger : WorkerLedger) (stream : ℕ) : WorkerLedger :=
  ledger.onLive fun live => if live.stream = stream then { live with refused := true } else live

/-- The worker has failed when it tries to report a runtime error. -/
def reports (ledger : WorkerLedger) : SynthesisEvent → WorkerLedger
  | .runtimeError error => { ledger with fatal := some error }
  | _ => ledger

/-- The books behind an operation. -/
def step (ledger : WorkerLedger) :
    Performed WorkerOperation WorkerOperation.Reply → WorkerLedger
  | ⟨.tryReceiveControl, .received (.cancel requestId reply)⟩ =>
    { ledger.onLive fun live => { live with cancelError := none } with
      controls := .unknown
      cancel := some (requestId, reply) }
  | ⟨.tryReceiveControl, .received (.shutdown _)⟩ =>
    { ledger with controls := .unknown, shutdown := true }
  | ⟨.tryReceiveControl, .empty⟩ => { ledger with controls := .empty }
  | ⟨.tryReceiveControl, .disconnected⟩ => { ledger with controls := .disconnected }
  | ⟨.tryReceiveStart, .received command⟩ =>
    { ledger with starts := .unknown, start := some command }
  | ⟨.tryReceiveStart, .empty⟩ => { ledger with starts := .empty }
  | ⟨.tryReceiveStart, .disconnected⟩ => { ledger with starts := .disconnected }
  | ⟨.receiveWake, _⟩ =>
    { ledger with controls := ledger.controls.afterWake, starts := ledger.starts.afterWake }
  | ⟨.replyStart _ (.ok identifier), _⟩ => { ledger with issued := identifier }
  | ⟨.replyStart _ (.error _), _⟩ => { ledger with start := none }
  | ⟨.replyCancel _ _, _⟩ => { ledger with cancel := none }
  | ⟨.trySend stream event, .sent⟩ => (ledger.sends stream event).reports event
  | ⟨.trySend _ event, .full⟩ => ledger.reports event
  | ⟨.trySend stream event, .disconnected⟩ => (ledger.refuses stream).reports event
  | ⟨.dropSender stream, _⟩ =>
    ledger.onLive fun live => if live.stream = stream then { live with attached := false } else live
  | ⟨.requestStart _ _, .ok (handle + 1)⟩ =>
    { ledger with
      start := none
      live := ledger.start.map (.started (ledger.issued + 1) (handle + 1)) }
  | ⟨.requestCancel _, reply⟩ => ledger.onLive (·.cancels reply)
  | ⟨.requestPoll _, reply⟩ => ledger.onLive (·.polled ledger.cancel.isSome reply)
  | ⟨.requestWait _ afterRevision, reply⟩ => ledger.onLive (·.waited afterRevision reply)
  | ⟨.audioAcquire _, reply⟩ => ledger.onLive (·.acquires reply)
  | ⟨.copySamples _ raw, samples⟩ => ledger.onLive (·.copies raw samples)
  | ⟨.audioRelease _ _, reply⟩ => ledger.onLive (·.releases reply)
  | ⟨.requestDestroy _, .ok ()⟩ =>
    { ledger with finished := ledger.live.map (·.identifier), live := none }
  | ⟨.requestDestroy _, .error error⟩ =>
    ledger.onLive fun live =>
      { live with failing := true, stopped := true, destroyError := some error }
  | _ => ledger

/-- The answer to a cancel of the identifier. A worker that has failed answers with its error;
otherwise the live request is cancelled, the request that was finished last counts as cancelled,
and no other identifier is known. -/
def Answers (ledger : WorkerLedger) (requestId : ℕ) (result : Except WorkerError Unit) : Prop :=
  match ledger.fatal with
  | some error => result = .error (.runtime error)
  | none =>
    match ledger.live.filter (·.identifier = requestId) with
    | some live => result = live.cancelResult
    | none =>
      result =
        if ledger.finished = some requestId then .ok () else .error (.unknownRequest requestId)

/-- The worker may drop the sender of the live request. -/
def Detaches (ledger : WorkerLedger) (live : LiveRequest) : Prop :=
  live.refused = true ∨ live.failing = true ∨ ledger.shutdown = true ∨
    (ledger.controls = .disconnected ∧ ledger.starts = .disconnected)

/-- The operation may come next. -/
def Allows (ledger : WorkerLedger) : WorkerOperation → Prop
  | .receiveWake => ledger.live = none ∧ ledger.controls ≠ .unknown ∧ ledger.starts ≠ .unknown
  | .replyStart stream (.ok identifier) =>
    identifier = ledger.issued + 1 ∧
      ∃ live, ledger.live = some live ∧ live.identifier = identifier ∧ live.stream = stream
  | .replyStart stream (.error _) =>
    ∃ command, ledger.start = some command ∧ command.stream = stream
  | .replyCancel reply result =>
    ∃ requestId, ledger.cancel = some (requestId, reply) ∧ ledger.Answers requestId result
  | .trySend stream event =>
    ∃ live, ledger.live = some live ∧ live.stream = stream ∧ live.attached = true ∧
      live.lease = none ∧ live.Sends event
  | .dropSender stream => ∀ live, ledger.live = some live → live.stream = stream →
      ledger.Detaches live
  | .dropReceivers => ledger.live = none ∧ ledger.cancel = none
  | .abort _ _ => ∃ live, ledger.live = some live ∧ live.stopped = true
  | .requestStart textTokenIds randomSeed =>
    ledger.live = none ∧ ∃ stream, ledger.start = some ⟨textTokenIds, randomSeed, stream⟩
  | .requestCancel handle =>
    ∃ live, ledger.live = some live ∧ live.Callable handle ∧ live.terminal = none ∧
      ((ledger.cancel = none ∧ live.attached = false) ∨
        ∃ reply, ledger.cancel = some (live.identifier, reply))
  | .requestPoll handle =>
    ∃ live, ledger.live = some live ∧ live.Callable handle ∧ live.terminal = none ∧
      live.cancelError.isSome = true
  | .requestWait handle _ =>
    ∃ live, ledger.live = some live ∧ live.Callable handle ∧ live.terminal = none
  | .audioAcquire handle =>
    ∃ live, ledger.live = some live ∧ live.Callable handle ∧ ¬ live.Drained ∧
      (live.attached = true → live.sent = live.audioEvents)
  | .copySamples handle raw =>
    ∃ live, ledger.live = some live ∧ live.handle = handle ∧ live.lease = some raw ∧
      live.copied = false
  | .audioRelease handle leaseId =>
    ∃ live, ledger.live = some live ∧ live.handle = handle ∧
      ∃ raw, live.lease = some raw ∧ raw.leaseId = leaseId
  | .requestDestroy handle =>
    ∃ live, ledger.live = some live ∧ live.Callable handle ∧
      (live.failing = true ∨ live.Drained ∧
        ∃ snapshot, live.terminal = some snapshot ∧ (live.attached = true →
          ∃ event, terminalEvent snapshot = .ok event ∧ live.sent = live.audioEvents ++ [event]))
  | .tryReceiveControl => ledger.cancel = none
  | .tryReceiveStart | .sleep => True

end WorkerLedger

/-- The rules of the worker. -/
def workerDiscipline : Discipline WorkerOperation WorkerOperation.Reply WorkerLedger where
  step := WorkerLedger.step
  Allows := WorkerLedger.Allows

end MagpieTts.Rust
