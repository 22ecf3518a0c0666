import MagpieTts.Runtime.RequestCalls
import MagpieTts.Runtime.SynthesisPipeline

/-!
# The synthesis worker

`Pipeline::run` and `run_request_worker` as a machine. Between two points of the machine the worker
makes at most one call on the state of its request, or waits for one event: the other threads of the
process act between the points. The results of the device and its failures come from outside.

## Main definitions

* `DeviceReading`, `DeviceFault`: what comes from outside.
* `WorkerPoint`, `WorkerState`: where the worker is, and what it holds there.
* `WorkerPoint.call`, `WorkerState.resume`, `WorkerState.advance`: its steps with and without a
  call.
* `WorkerState.interrupt`: a step in which the device, an engine or an allocation fails.
* `SynthesisRun`, `SynthesisRun.step`: the worker and the consumer of one request.
-/

namespace MagpieTts.Runtime

open MagpieTts.Library

/-- What the events make readable: the pinned diagnostics record, the pinned valid sample length,
and whether all samples of the pinned PCM are finite. -/
structure DeviceReading where
  diagnostics : GenerationBatchDiagnostics
  validSampleLength : ℤ
  pcmFinite : Bool

/-- A failure from outside: of a CUDA call, with its error string, of an engine or another member
of the session, of an allocation, or any other exception. -/
inductive DeviceFault where
  | cuda (detail : String)
  | synthesis (code : SynthesisPipelineErrorCode) (detail : String)
  | allocation
  | standard (what : String)
  | nonStandard
  deriving DecidableEq

/-- The exception of a failure, behind the handlers of `run_synthesis_pipeline`. -/
def DeviceFault.exception : DeviceFault → WorkerException
  | cuda detail => .synthesis .cudaFailure detail
  | synthesis code detail => .synthesis code detail
  | allocation => .badAlloc
  | standard what => .standard what
  | nonStandard => .nonStandard

/-- A point of the worker, named after what it does next. -/
inductive WorkerPoint where
  | setDevice
  | start
  | awaitFirst (pending : PendingGenerationBatch)
  | observeFirst (batch : GenerationBatchResult)
  | awaitCodec (codec : PendingCodecBatch) (following : Option PendingGenerationBatch)
  | observeDecoded (codec : PendingCodecBatch) (following : Option PendingGenerationBatch)
  | publish (chunk : AudioChunk) (codec : PendingCodecBatch)
      (following : Option PendingGenerationBatch)
  | observePublished (following : Option PendingGenerationBatch)
  | canPublish (pending : PendingGenerationBatch)
  | observeFull (pending : PendingGenerationBatch)
  | readRevision (pending : PendingGenerationBatch)
  | recheckCapacity (pending : PendingGenerationBatch) (revision : ℕ)
  | observeRechecked (pending : PendingGenerationBatch) (revision : ℕ)
  | waitForRevision (pending : PendingGenerationBatch) (revision : ℕ)
  | observeCapacity (pending : PendingGenerationBatch)
  | awaitGeneration (pending : PendingGenerationBatch)
  | observeGeneration (batch : GenerationBatchResult)
  | generateFollowing (codec : PendingCodecBatch)
  | observeZeroFrame (batch : GenerationBatchResult)
  | publishZeroFrame (chunk : AudioChunk) (batch : GenerationBatchResult)
  | settle (outcome : Option WorkerException)
  | observeSettled
  | completeCancellation
  | failed (exception : WorkerException)
  | failRequest (failure : WorkerFailure)
  | done
  deriving DecidableEq

/-- The call that the worker makes at a point. -/
def WorkerPoint.call : WorkerPoint → Option RequestCall
  | publish chunk _ _ => some (.publish chunk)
  | publishZeroFrame chunk _ => some (.publish chunk)
  | completeCancellation => some .completeCancellationAfterDrain
  | failRequest failure => some (.fail failure.status failure.stage (messageBytes failure.message))
  | _ => none

/-- The worker of a request: its pipeline, whose commands are those of its last step, and the flag
of the session that it may set. -/
structure WorkerState where
  pipeline : Pipeline
  point : WorkerPoint
  poisoned : Bool

namespace WorkerState

def initial : WorkerState where
  pipeline := .initial
  point := .setDevice
  poisoned := false

/-- Go to a point without device work. -/
def goto (self : WorkerState) (point : WorkerPoint) : WorkerState :=
  { self with
    pipeline := { self.pipeline with commands := [] }
    point }

/-- Run a member function. What it throws leaves `run_impl`, and the batches in flight are
settled. -/
def perform {β : Type} (self : WorkerState) (action : PipelineM β) (next : β → WorkerPoint) :
    WorkerState :=
  match action.run.run { self.pipeline with commands := [] } with
  | (.ok value, pipeline) => { self with pipeline, point := next value }
  | (.error exception, pipeline) => { self with pipeline, point := .settle (some exception) }

variable (arguments : PipelineArguments)

/-- The step at a point without a call. The worker reads what the device left and the state of its
request. -/
def advance (reading : DeviceReading) (request : StreamingRequestState) (self : WorkerState) :
    WorkerState :=
  match self.point with
  | .setDevice => self.goto .start
  | .start =>
    self.perform
      (do
        Pipeline.requireInitialBatchCapacity arguments
        Pipeline.initializeRequest arguments
        Pipeline.runTextEncoder
        Pipeline.runPrefill
        Pipeline.generateFirstFour arguments 0)
      .awaitFirst
  | .awaitFirst pending =>
    self.perform
      (do
        let first ← Pipeline.awaitGenerationBatch arguments pending reading.diagnostics
        Pipeline.failIf
          (first.final = true ∨ first.frameCount ≠ arguments.manifest.codec.initialFrames)
          .invariantFailure "EOS was admitted before the fixed initial four frames"
        return first)
      .observeFirst
  | .observeFirst batch =>
    if request.cancellationPending then
      self.goto (.settle none)
    else
      self.perform (Pipeline.scheduleCodec arguments batch true) (.awaitCodec · none)
  | .awaitCodec codec following =>
    self.perform (Pipeline.awaitCodec codec reading.validSampleLength reading.pcmFinite)
      fun _ => .observeDecoded codec following
  | .observeDecoded codec following =>
    if request.cancellationPending then
      self.goto (.settle none)
    else
      self.perform (Pipeline.audioChunk arguments codec) (.publish · codec following)
  | .observePublished following =>
    if request.cancellationPending then
      self.goto (.settle none)
    else
      match following with
      | some pending => self.goto (.canPublish pending)
      | none =>
        -- behind the first chunk there is no batch yet
        self.perform
          (do
            Pipeline.requireSteadyBatchCapacity arguments
            Pipeline.generateSteadyBatch arguments 1)
          .canPublish
  | .canPublish pending =>
    if request.canPublish arguments.manifest.codec.steadyFrames then
      self.goto (.observeCapacity pending)
    else
      self.goto (.observeFull pending)
  | .observeFull pending =>
    if request.cancellationPending then
      self.goto (.settle none)
    else
      self.goto (.readRevision pending)
  | .readRevision pending =>
    match request.snapshot with
    | .ok snapshot => self.goto (.recheckCapacity pending snapshot.revision)
    | .error error => self.goto (.settle (some (.standard error.what)))
  | .recheckCapacity pending revision =>
    if request.canPublish arguments.manifest.codec.steadyFrames then
      self.goto (.canPublish pending)
    else
      self.goto (.observeRechecked pending revision)
  | .observeRechecked pending revision =>
    if request.cancellationPending then
      self.goto (.settle none)
    else
      self.goto (.waitForRevision pending revision)
  | .waitForRevision pending _ =>
    -- the wait ends with a new revision, or with its timeout
    self.goto (.canPublish pending)
  | .observeCapacity pending =>
    if request.cancellationPending then
      self.goto (.settle none)
    else
      self.goto (.awaitGeneration pending)
  | .awaitGeneration pending =>
    self.perform (Pipeline.awaitGenerationBatch arguments pending reading.diagnostics)
      .observeGeneration
  | .observeGeneration batch =>
    if request.cancellationPending then
      self.goto (.settle none)
    else if batch.frameCount = 0 then
      self.perform
        (Pipeline.failIf (batch.final = false ∨ batch.frameCount ≠ 0) .invariantFailure
          "zero-frame publication requires a terminal generation batch")
        fun _ => .observeZeroFrame batch
    else if batch.final then
      self.perform (Pipeline.scheduleCodec arguments batch false) (.awaitCodec · none)
    else
      self.perform
        (do
          Pipeline.requireSteadyBatchCapacity arguments
          Pipeline.scheduleCodec arguments batch false)
        .generateFollowing
  | .generateFollowing codec =>
    self.perform (Pipeline.generateSteadyBatch arguments (1 - codec.generation.batchSlot))
      fun following => .awaitCodec codec (some following)
  | .observeZeroFrame batch =>
    if request.cancellationPending then
      self.goto (.settle none)
    else
      self.perform Pipeline.zeroFrameFinal (.publishZeroFrame · batch)
  | .settle outcome =>
    match self.perform Pipeline.settleInflight fun _ => .observeSettled, outcome with
    | settled, none => settled
    | settled, some exception =>
      match settled.point with
      | .settle (some inner) => { settled with point := .failed inner }
      | _ => { settled with point := .failed exception }
  | .observeSettled =>
    if request.cancellationPending then
      self.goto .completeCancellation
    else
      self.goto .done
  | .failed exception =>
    let failure := exception.failure
    { self.goto (if request.isTerminal then .done else .failRequest failure) with
      poisoned := self.poisoned || failure.poisonSession }
  | _ => self.goto self.point

/-- The step behind the call of a point, with the reply of the call. -/
def resume (reply : RequestReply) (self : WorkerState) : WorkerState :=
  match self.point, reply with
  | .publish _ codec following, .published true =>
    let published : WorkerState :=
      { self with
        pipeline :=
          { self.pipeline with
            nextSampleIndex := self.pipeline.nextSampleIndex + codec.expectedSamples
            sequence := self.pipeline.sequence + 1 } }
    if codec.generation.final && !codec.first then
      published.goto (.settle none)
    else
      published.goto (.observePublished following)
  | .publish chunk codec _, .error error =>
    self.goto (.settle (some (Pipeline.publicationFailure arguments error chunk codec.generation)))
  | .publishZeroFrame _ _, .published true =>
    { self with pipeline := { self.pipeline with sequence := self.pipeline.sequence + 1 } }.goto
      (.settle none)
  | .publishZeroFrame chunk batch, .error error =>
    self.goto (.settle (some (Pipeline.publicationFailure arguments error chunk batch)))
  | .publish _ _ _, _ | .publishZeroFrame _ _, _ => self.goto (.settle none)
  | .completeCancellation, .drained false =>
    self.goto (.failed (.synthesis .invariantFailure
      "accepted cancellation disappeared after CUDA drain"))
  | .completeCancellation, .error error => self.goto (.failed (.standard error.what))
  | .failRequest _, .error _ => { self.goto .done with poisoned := true }
  | _, _ => self.goto .done

/-- A step that fails behind its first `enqueued` commands. The fields keep their values: those that
`settle_inflight` reads are set behind the last command of a function. -/
def interrupt (reading : DeviceReading) (request : StreamingRequestState) (enqueued : ℕ)
    (fault : DeviceFault) (self : WorkerState) : WorkerState :=
  let commands := (self.advance arguments reading request).pipeline.commands.take enqueued
  let point : WorkerPoint :=
    match self.point, fault with
    | .setDevice, .cuda detail => .failed (.setDevice detail)
    | .setDevice, _ => .setDevice
    | .done, _ => .done
    | .failed exception, _ => .failed exception
    | .failRequest failure, _ => .failRequest failure
    | .settle (some _), _ | .observeSettled, _ | .completeCancellation, _ =>
      .failed fault.exception
    | _, _ => .settle (some fault.exception)
  { self with
    pipeline := { self.pipeline with commands }
    point }

end WorkerState

/-! ### The worker and the consumer of a request -/

/-- The calls of the consumer, and a lease of another request of the process. -/
inductive ConsumerCall where
  | acquireAudio
  | releaseAudio (leaseId : ℕ)
  | requestCancellation
  | drawElsewhere
  deriving DecidableEq

def ConsumerCall.toRequestCall : ConsumerCall → RequestCall
  | acquireAudio => .acquireAudio
  | releaseAudio leaseId => .releaseAudio leaseId
  | requestCancellation => .requestCancellation
  | drawElsewhere => .drawElsewhere

/-- A step of the worker, a step of it that fails, a publication whose queue cannot grow, or a call
of the consumer. -/
inductive SynthesisAction where
  | worker (reading : DeviceReading)
  | fault (reading : DeviceReading) (enqueued : ℕ) (fault : DeviceFault)
  | publicationFault
  | consumer (call : ConsumerCall)

structure SynthesisRun where
  history : RequestHistory
  worker : WorkerState

namespace SynthesisRun

def start (request : StreamingRequestState) (leaseIds : LeaseIdSequence) : SynthesisRun where
  history := .start request leaseIds
  worker := .initial

def step (arguments : PipelineArguments) (self : SynthesisRun) : SynthesisAction → SynthesisRun
  | .worker reading =>
    match self.worker.point.call with
    | some call =>
      { history := self.history.step call
        worker := self.worker.resume arguments (self.history.call call).1 }
    | none =>
      { self with worker := self.worker.advance arguments reading self.history.request }
  | .fault reading enqueued fault =>
    { self with
      worker := self.worker.interrupt arguments reading self.history.request enqueued fault }
  | .publicationFault =>
    match self.worker.point.call with
    | some (.publish chunk) =>
      match self.history.request.publishAllocating (fun point => point = .queueNode) chunk with
      | (.error .badAlloc, request) =>
        { history := { self.history with request }
          worker := self.worker.goto (.settle (some .badAlloc)) }
      -- the publication does not come to its queue
      | _ => self
    | _ => self
  | .consumer call =>
    { self with history := self.history.step call.toRequestCall }

end SynthesisRun

end MagpieTts.Runtime
