import MagpieTts.Rust.WorkerProgram

/-!
# The inference worker and its users

The worker thread of `worker.rs` among the threads that use it: callers of `synthesize`, `cancel`
and `shutdown` put a command into its channel and wake the worker in two separate steps; the owner
of a `SynthesisStream` receives events; the handle of the worker and the streams may be dropped. An
interleaving is a list of actions, of the worker thread and of the others.

A caller of `synthesize` borrows the handle until it returns the stream, so that the senders of the
stream are counted from the start command on.

## Main definitions

* `WorkerChannels`: what the threads share; `WorkerChannels.answer`: an operation of the worker.
* `NativeReplies`: what the native library replies to the next operation.
* `WorkerAction`, `WorkerSystem.step`: the actions of all threads.
* `WorkerSystem.initial`: the state in which `worker_loop` begins.
-/

namespace MagpieTts.Rust

open MagpieTts.Library MagpieTts.Api

/-- `START_COMMAND_CAPACITY`. -/
def startCommandCapacity : ℕ := 1

/-- `CONTROL_COMMAND_CAPACITY`. -/
def controlCommandCapacity : ℕ := 8

/-- The capacity of the channel that `synthesize` makes for the events. -/
def eventCapacity : ℕ := 1

/-- The number of the caller that sent a control command. -/
def ControlCommand.reply : ControlCommand → ℕ
  | cancel _ reply | shutdown reply => reply

/-- A call that has put its command into a channel and has not woken the worker yet: the number of
the command, and the stream that the caller uses, if it is not the handle of the worker. -/
structure OwedWake where
  command : ℕ
  stream : Option ℕ
  deriving DecidableEq

/-- What the threads share. `handle` and `streams` are the owners of senders that are alive; a
stream also owns the receiver of its events. `delivered` has the events that the owner of a stream
has received. -/
structure WorkerChannels where
  starts : List StartCommand
  controls : List ControlCommand
  wake : Bool
  receiversDropped : Bool
  handle : Bool
  streams : List ℕ
  events : ℕ → List SynthesisEvent
  delivered : ℕ → List SynthesisEvent
  owed : List OwedWake
  nextNumber : ℕ

/-- What the native library replies to the next operation of the worker, and its memory. -/
structure NativeReplies where
  start : Except Error ℕ
  cancel : Except Error Unit
  poll : Except Error PublicSnapshot
  wait : Except Error (Option PublicSnapshot)
  acquire : Except Error (Option AudioLeaseV1)
  memory : ℕ → UInt32
  release : Except Error Unit
  destroy : Except Error Unit

namespace WorkerChannels

variable (channels : WorkerChannels)

/-- Some sender of the control channel and of the wake channel is alive. -/
def hasSenders : Bool := channels.handle || !channels.streams.isEmpty

/-- The reply to an operation of the worker; none while it blocks. -/
def answer (replies : NativeReplies) :
    (operation : WorkerOperation) → Option operation.Reply
  | .tryReceiveControl =>
    match channels.controls with
    | command :: _ => some (.received command)
    | [] => some (if channels.hasSenders then .empty else .disconnected)
  | .tryReceiveStart =>
    match channels.starts with
    | command :: _ => some (.received command)
    | [] => some (if channels.handle then .empty else .disconnected)
  | .receiveWake =>
    if channels.wake then some true else if channels.hasSenders then none else some false
  | .trySend stream _ =>
    if stream ∈ channels.streams then
      some (if (channels.events stream).length < eventCapacity then .sent else .full)
    else
      some .disconnected
  | .sleep | .replyStart _ _ | .replyCancel _ _ | .dropSender _ | .dropReceivers => some ()
  | .abort _ _ => none
  | .requestStart _ _ => some replies.start
  | .requestCancel _ => some replies.cancel
  | .requestPoll _ => some replies.poll
  | .requestWait _ _ => some replies.wait
  | .audioAcquire _ => some replies.acquire
  | .copySamples _ lease =>
    some ((List.range lease.sampleCount).map fun i => replies.memory (lease.samples + 4 * i))
  | .audioRelease _ _ => some replies.release
  | .requestDestroy _ => some replies.destroy

/-- The channels behind an operation of the worker. -/
def effect : WorkerOperation → WorkerChannels
  | .tryReceiveControl => { channels with controls := channels.controls.tail }
  | .tryReceiveStart => { channels with starts := channels.starts.tail }
  | .receiveWake => { channels with wake := false }
  | .trySend stream event =>
    if stream ∈ channels.streams ∧ (channels.events stream).length < eventCapacity then
      { channels with
        events := Function.update channels.events stream (channels.events stream ++ [event]) }
    else
      channels
  | .dropReceivers =>
    { channels with starts := [], controls := [], wake := false, receiversDropped := true }
  | _ => channels

/-- `synthesize` up to the wake-up. With the receiver dropped or the channel full it returns; so it
does when it refuses its input, which is no step. -/
def sendStart (textTokenIds : List ℤ) (randomSeed : ℕ) : WorkerChannels :=
  if channels.handle = true ∧ channels.receiversDropped = false ∧
      channels.starts.length < startCommandCapacity then
    { channels with
      starts := channels.starts ++ [⟨textTokenIds, randomSeed, channels.nextNumber⟩]
      streams := channels.nextNumber :: channels.streams
      owed := ⟨channels.nextNumber, some channels.nextNumber⟩ :: channels.owed
      nextNumber := channels.nextNumber + 1 }
  else
    channels

/-- A control command up to the wake-up. The sender waits while the channel is full. -/
def sendControl (command : ℕ → ControlCommand) (sender : Option ℕ) : WorkerChannels :=
  if channels.receiversDropped = false ∧ channels.controls.length < controlCommandCapacity then
    { channels with
      controls := channels.controls ++ [command channels.nextNumber]
      owed := ⟨channels.nextNumber, sender⟩ :: channels.owed
      nextNumber := channels.nextNumber + 1 }
  else
    channels

/-- `notify_worker`. -/
def notifyWorker (wake : OwedWake) : WorkerChannels :=
  if wake ∈ channels.owed then
    { channels with
      wake := if channels.receiversDropped then channels.wake else true
      owed := channels.owed.erase wake }
  else
    channels

/-- The owner of a stream receives the next event, if there is one. -/
def receiveEvent (stream : ℕ) : WorkerChannels :=
  match channels.events stream with
  | [] => channels
  | event :: rest =>
    { channels with
      events := Function.update channels.events stream rest
      delivered :=
        Function.update channels.delivered stream (channels.delivered stream ++ [event]) }

/-- A stream is dropped, when no call on it is under way. -/
def dropStream (stream : ℕ) : WorkerChannels :=
  if channels.owed.any fun wake => wake.stream = some stream then
    channels
  else
    { channels with streams := channels.streams.filter (· ≠ stream) }

/-- The handle of the worker is dropped, when no shutdown is under way. -/
def dropWorker : WorkerChannels :=
  if channels.owed.any fun wake => wake.stream = none then channels
  else { channels with handle := false }

end WorkerChannels

/-- The worker thread. -/
abbrev WorkerThread := Thread WorkerOperation WorkerOperation.Reply WorkerPhase

/-- All threads. -/
structure WorkerSystem where
  channels : WorkerChannels
  worker : WorkerThread

/-- The actions of the threads. The worker performs its next operation; the others send a command,
wake the worker, receive an event, or drop their end. -/
inductive WorkerAction where
  | worker (replies : NativeReplies)
  | synthesize (textTokenIds : List ℤ) (randomSeed : ℕ)
  | cancel (stream requestId : ℕ)
  | shutdown
  | notify (wake : OwedWake)
  | receive (stream : ℕ)
  | dropStream (stream : ℕ)
  | dropWorker

namespace WorkerSystem

/-- The state in which `worker_loop` begins. -/
def initial : WorkerSystem where
  channels :=
    { starts := [], controls := [], wake := false, receiversDropped := false, handle := true
      streams := [], events := fun _ => [], delivered := fun _ => [], owed := [], nextNumber := 0 }
  worker := ⟨.done (.loop .initial), []⟩

/-- The step of the worker thread. -/
def workerStep (system : WorkerSystem) (replies : NativeReplies) : WorkerSystem where
  channels :=
    match system.worker.residual with
    | .done _ => system.channels
    | .perform operation _ =>
      if (system.channels.answer replies operation).isSome then system.channels.effect operation
      else system.channels
  worker := system.worker.advance WorkerPhase.pass (system.channels.answer replies)

/-- One step of one thread. -/
def step (system : WorkerSystem) : WorkerAction → WorkerSystem
  | .worker replies => system.workerStep replies
  | .synthesize textTokenIds randomSeed =>
    { system with channels := system.channels.sendStart textTokenIds randomSeed }
  | .cancel stream requestId =>
    if stream ∈ system.channels.streams then
      { system with channels := system.channels.sendControl (.cancel requestId) (some stream) }
    else
      system
  | .shutdown =>
    if system.channels.handle then
      { system with channels := system.channels.sendControl .shutdown none }
    else
      system
  | .notify wake => { system with channels := system.channels.notifyWorker wake }
  | .receive stream => { system with channels := system.channels.receiveEvent stream }
  | .dropStream stream => { system with channels := system.channels.dropStream stream }
  | .dropWorker => { system with channels := system.channels.dropWorker }

/-- The operations of the worker so far, with their replies. -/
def trace (system : WorkerSystem) : List (Performed WorkerOperation WorkerOperation.Reply) :=
  system.worker.trace

end WorkerSystem

end MagpieTts.Rust
