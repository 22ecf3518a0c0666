import MagpieTts.Runtime.SynthesisPublication

/-!
# The codec executions of a synthesis run

An observer of a run keeps the executions of the NanoCodec engines, each with its route and its
frames. They are those of the chunks that the request has accepted, and of the one that the worker
still decodes: the first chunk runs the initial engine, an open chunk the steady one, a final chunk
with frames the tail engine, and a final chunk without frames none.

## Main definitions

* `CodecExecution`, `CodecObservation`: an execution, and a run with its executions.
* `streamExecutions`: the executions of a stream of chunks.
* `ExecutesStream`: what holds of the executions at a point of the worker.

## Main results

* `executesStream_run`: it holds in every state of every run.
* `codecExecutions_completed`: the executions of a completed request.
-/

namespace MagpieTts.Runtime

open MagpieTts.Library Pipeline

/-! ### The executions -/

structure CodecExecution where
  route : CodecRoute
  frameCount : ℕ
  deriving DecidableEq

def DeviceCommand.codecExecution : DeviceCommand → Option CodecExecution
  | runCodec route frameCount _ => some ⟨route, frameCount⟩
  | _ => none

/-- The executions among the commands of a step. -/
def codecExecutions (commands : List DeviceCommand) : List CodecExecution :=
  commands.filterMap DeviceCommand.codecExecution

/-- The commands that an action enqueues. -/
def SynthesisRun.commands (arguments : PipelineArguments) (self : SynthesisRun)
    (action : SynthesisAction) : List DeviceCommand :=
  match action with
  | .worker _ | .fault _ _ _ => (self.step arguments action).worker.pipeline.commands
  | .publicationFault | .consumer _ => []

/-- A run, the entries of the batches that were read, and the executions of the codec. -/
structure CodecObservation where
  observation : SynthesisObservation
  executions : List CodecExecution

namespace CodecObservation

def start (request : StreamingRequestState) (leaseIds : LeaseIdSequence) : CodecObservation where
  observation := .start request leaseIds
  executions := []

def step (arguments : PipelineArguments) (self : CodecObservation) (action : SynthesisAction) :
    CodecObservation where
  observation := self.observation.step arguments action
  executions := self.executions ++ codecExecutions (self.observation.run.commands arguments action)

theorem run_observation (arguments : PipelineArguments) (self : CodecObservation)
    (actions : List SynthesisAction) :
    (run (step arguments) self actions).observation =
      run (SynthesisObservation.step arguments) self.observation actions := by
  induction actions generalizing self with
  | nil => rfl
  | cons action rest ih => exact ih (self.step arguments action)

end CodecObservation

/-- The execution of a chunk behind the first one. -/
def AudioChunk.followingExecution (chunk : AudioChunk) : Option CodecExecution :=
  if chunk.codecFrameCount = 0 then none
  else some ⟨if chunk.final then .tail else .steady, chunk.codecFrameCount⟩

/-- The executions of a stream of chunks. -/
def streamExecutions : List AudioChunk → List CodecExecution
  | [] => []
  | first :: following =>
    ⟨.initial, first.codecFrameCount⟩ :: following.filterMap AudioChunk.followingExecution

theorem streamExecutions_concat {accepted : List AudioChunk} (chunk : AudioChunk)
    (haccepted : accepted ≠ []) :
    streamExecutions (accepted ++ [chunk]) =
      streamExecutions accepted ++ chunk.followingExecution.toList := by
  cases accepted with
  | nil => exact absurd rfl haccepted
  | cons first following =>
    rw [List.cons_append, streamExecutions, streamExecutions, List.filterMap_append,
      List.cons_append]
    cases hchunk : chunk.followingExecution <;> simp [hchunk]

/-- The execution that a codec run has enqueued. -/
def PendingCodecBatch.execution (codec : PendingCodecBatch) : CodecExecution :=
  ⟨if codec.first then .initial else if codec.generation.final then .tail else .steady,
    codec.generation.frameCount⟩

/-- The codec run of a point whose chunk is not published. -/
def WorkerPoint.decoding : WorkerPoint → Option PendingCodecBatch
  | awaitCodec codec _ => some codec
  | observeDecoded codec _ => some codec
  | publish _ codec _ => some codec
  | generateFollowing codec => some codec
  | _ => none

/-- The worker has not left `run_impl`. -/
def WorkerPoint.Works : WorkerPoint → Prop
  | settle _ | observeSettled | completeCancellation | failed _ | failRequest _ | done => False
  | _ => True

/-- The executions so far are those of the accepted chunks and of the codec run that the worker
holds. Once the worker has left `run_impl`, this is asked only of a stream with its final chunk. -/
structure ExecutesStream (executions : List CodecExecution) (accepted : List AudioChunk)
    (point : WorkerPoint) : Prop where
  tail_le : ∀ chunk ∈ accepted, chunk.final = true → chunk.codecFrameCount ≤ 7
  decoding_le : ∀ codec ∈ point.decoding, codec.generation.final = true →
    codec.generation.frameCount ≤ 7
  working : point.Works → executions =
    streamExecutions accepted ++ (point.decoding.map PendingCodecBatch.execution).toList
  settled : ¬ point.Works → (∃ chunk ∈ accepted, chunk.final = true) →
    executions = streamExecutions accepted

/-! ### The commands without a codec run -/

section Commands

variable {p : Pipeline} {slot : BatchSlot} {commands more : List DeviceCommand}

theorem codecExecutions_append :
    codecExecutions (commands ++ more) = codecExecutions commands ++ codecExecutions more :=
  List.filterMap_append

theorem codecExecutions_take (h : codecExecutions commands = []) (enqueued : ℕ) :
    codecExecutions (commands.take enqueued) = [] := by
  rw [codecExecutions, List.filterMap_eq_nil_iff] at h ⊢
  exact fun command hmem => h command (List.mem_of_mem_take hmem)

theorem codecExecutions_passCommands (cache : BufferIndex) (generated : ℕ) (stepSlots : List ℕ) :
    codecExecutions (passCommands slot cache generated stepSlots) = [] := by
  induction stepSlots generalizing cache generated with
  | nil => rfl
  | cons stepSlot rest ih =>
    rw [passCommands, codecExecutions_append, codecExecutions_append, ih, localCommands]
    split_ifs <;> rfl

theorem codecExecutions_steadyCommands : codecExecutions (p.steadyCommands slot) = [] := by
  rw [steadyCommands, codecExecutions_append, codecExecutions_append, codecExecutions_passCommands]
  split_ifs <;> rfl

theorem codecExecutions_codecCommands (batch : GenerationBatchResult) (first : Bool)
    (stateInput : BufferIndex) (expectedSamples : ℕ) :
    codecExecutions (codecCommands batch first stateInput) =
      [(⟨batch, expectedSamples, first⟩ : PendingCodecBatch).execution] := by
  cases first <;> rfl

end Commands

/-! ### The steps -/

namespace ExecutesStream

variable {executions : List CodecExecution} {accepted : List AudioChunk} {point next : WorkerPoint}
  {commands : List DeviceCommand}

theorem decoding_eq_none (hstops : ¬ next.Works) : next.decoding = none := by
  cases next <;> first | rfl | exact absurd trivial hstops

/-- A worker that leaves `run_impl` without a final chunk leaves any executions. -/
theorem stop (hexecutes : ExecutesStream executions accepted point)
    (hopen : ∀ chunk ∈ accepted, chunk.final = false) (hstops : ¬ next.Works)
    (left : List CodecExecution) : ExecutesStream left accepted next where
  tail_le := hexecutes.tail_le
  decoding_le := fun codec hmem => by
    rw [decoding_eq_none hstops] at hmem
    cases hmem
  working := fun hworks => absurd hworks hstops
  settled := fun _ ⟨chunk, hmem, hfinal⟩ => by
    rw [hopen chunk hmem] at hfinal
    cases hfinal

/-- A step without a codec run. -/
theorem keep (hexecutes : ExecutesStream executions accepted point)
    (hdecoding : next.decoding = point.decoding) (hworks : next.Works ↔ point.Works)
    (hcommands : codecExecutions commands = []) :
    ExecutesStream (executions ++ codecExecutions commands) accepted next := by
  rw [hcommands, List.append_nil]
  exact
    { tail_le := hexecutes.tail_le
      decoding_le := by rw [hdecoding]; exact hexecutes.decoding_le
      working := by rw [hdecoding, hworks]; exact hexecutes.working
      settled := by rw [hworks]; exact hexecutes.settled }

/-- The codec runs on a batch. -/
theorem schedule (hexecutes : ExecutesStream executions accepted point)
    (hpoint : point.decoding = none) (hworks : point.Works) (hnext : next.Works)
    {codec : PendingCodecBatch} (hdecoding : next.decoding = some codec)
    (htail : codec.generation.final = true → codec.generation.frameCount ≤ 7)
    {stateInput : BufferIndex}
    (hcommands : commands = codecCommands codec.generation codec.first stateInput) :
    ExecutesStream (executions ++ codecExecutions commands) accepted next where
  tail_le := hexecutes.tail_le
  decoding_le := by
    intro other hother
    rw [hdecoding] at hother
    rw [← Option.some.inj hother]
    exact htail
  working := fun _ => by
    have hexecutions := hexecutes.working hworks
    rw [hpoint, Option.map_none, Option.toList_none, List.append_nil] at hexecutions
    rw [hexecutions, hcommands,
      codecExecutions_codecCommands _ _ _ codec.expectedSamples, hdecoding, Option.map_some,
      Option.toList_some]
  settled := fun hstops => absurd hnext hstops

/-- The request accepts a chunk, whose execution is the one that the worker holds. -/
theorem publish (hexecutes : ExecutesStream executions accepted point) (hworks : point.Works)
    (hnext : next.decoding = none) {chunk : AudioChunk}
    (htail : chunk.final = true → chunk.codecFrameCount ≤ 7)
    (hstream : streamExecutions (accepted ++ [chunk]) =
      streamExecutions accepted ++ (point.decoding.map PendingCodecBatch.execution).toList) :
    ExecutesStream executions (accepted ++ [chunk]) next := by
  have hexecutions : executions = streamExecutions (accepted ++ [chunk]) :=
    (hexecutes.working hworks).trans hstream.symm
  refine
    { tail_le := fun other hmem => ?_
      decoding_le := fun codec hmem => ?_
      working := fun _ => ?_
      settled := fun _ _ => hexecutions }
  · rcases List.mem_append.mp hmem with hold | hnew
    · exact hexecutes.tail_le other hold
    · rw [List.mem_singleton.mp hnew]
      exact htail
  · rw [hnext] at hmem
    cases hmem
  · rw [hnext, Option.map_none, Option.toList_none, List.append_nil]
    exact hexecutions

/-- A step that runs a member function: it throws and the worker leaves `run_impl`, or it
returns. -/
theorem perform {β : Type} {p : Pipeline} {poisoned : Bool} {action : PipelineM β}
    {continue_ : β → WorkerPoint} {returns : β → Pipeline → Prop}
    {throws : WorkerException → Pipeline → Prop}
    (hexecutes : ExecutesStream executions accepted point)
    (hopen : ∀ chunk ∈ accepted, chunk.final = false)
    (hmeets : Meets action { p with commands := [] } returns throws)
    (hreturns : ∀ value p', returns value p' →
      ExecutesStream (executions ++ codecExecutions p'.commands) accepted (continue_ value)) :
    ExecutesStream
      (executions ++ codecExecutions
        ((⟨p, point, poisoned⟩ : WorkerState).perform action continue_).pipeline.commands) accepted
      ((⟨p, point, poisoned⟩ : WorkerState).perform action continue_).point := by
  rcases WorkerState.perform_cases hmeets with
    ⟨value, p', hvalue, hperform⟩ | ⟨exception, p', -, hperform⟩
  · rw [hperform]
    exact hreturns value p' hvalue
  · rw [hperform]
    refine hexecutes.stop hopen ?_ _
    exact id

end ExecutesStream

/-- The chunks of a request that runs are open. -/
theorem StreamInvariant.open_of_running {arguments : PipelineArguments}
    {Q : WorkerException → Prop} {h : RequestHistory} {steps : List GenerationStepDiagnostics}
    (hstream : StreamInvariant arguments Q h steps) (hrunning : h.request.state = .running) :
    ∀ chunk ∈ h.accepted, chunk.final = false := by
  refine hstream.open_of ?_
  rw [hrunning]
  exact RequestLifecycleState.noConfusion

/-- The chunk of a codec run has its execution. -/
theorem CodecHeld.streamExecutions_concat {h : RequestHistory} {codec : PendingCodecBatch}
    (hcodec : CodecHeld h codec) {p : Pipeline} {chunk : AudioChunk}
    (hat : ChunkAt p codec.generation.frameCount codec.first codec.generation.final chunk) :
    streamExecutions (h.accepted ++ [chunk]) =
      streamExecutions h.accepted ++ [codec.execution] := by
  have hpos := hcodec.frames.pos
  have hfirst := hcodec.first_eq
  by_cases haccepted : h.accepted = []
  · rw [decide_eq_true haccepted] at hfirst
    rw [haccepted, List.nil_append, PendingCodecBatch.execution, hfirst, if_pos rfl,
      ← hat.codecFrameCount_eq]
    rfl
  · rw [decide_eq_false haccepted] at hfirst
    rw [Runtime.streamExecutions_concat chunk haccepted, AudioChunk.followingExecution, if_neg,
      hat.codecFrameCount_eq, hat.final_eq, PendingCodecBatch.execution, hfirst]
    · rfl
    · rw [hat.codecFrameCount_eq]
      omega

namespace WorkerAt

variable {arguments : PipelineArguments} {Q : WorkerException → Prop} {h : RequestHistory}
  {p : Pipeline} {steps : List GenerationStepDiagnostics} {point : WorkerPoint}

/-- The request of a worker in `run_impl` runs. -/
theorem running (hat : WorkerAt arguments Q h p steps point) (hworks : point.Works) :
    h.request.state = .running := by
  cases hat with
  | setDevice _ _ _ hrunning => exact hrunning
  | start _ _ _ hrunning => exact hrunning
  | awaitFirst hholds => exact hholds.running
  | observeFirst batch hholds => exact hholds.running
  | awaitCodec codec following hfollowing hholds => exact hholds.running
  | observeDecoded codec following hfollowing hholds => exact hholds.running
  | publish chunk codec following hfollowing hholds => exact hholds.running
  | observePublished following hfollowing hholds => exact hholds.running
  | waiting pending point hpoint hfour hholds => exact hholds.running
  | observeCapacity pending hfour hholds => exact hholds.running
  | awaitGeneration pending hfour hholds => exact hholds.running
  | observeGeneration batch hholds => exact hholds.running
  | generateFollowing codec hholds => exact hholds.running
  | observeZeroFrame batch hholds => exact hholds.running
  | publishZeroFrame chunk batch hholds => exact hholds.running
  | _ => exact hworks.elim

end WorkerAt

namespace WorkerInvariant

variable {arguments : PipelineArguments} {Q : WorkerException → Prop} {h : RequestHistory}
  {w : WorkerState} {p : Pipeline} {point : WorkerPoint} {poisoned : Bool}
  {steps : List GenerationStepDiagnostics} {executions : List CodecExecution}
  {reading : DeviceReading}

/-- The chunks are open while the worker is in `run_impl`. -/
theorem open_of_works (hinv : WorkerInvariant arguments Q h w steps) (hworks : w.point.Works) :
    ∀ chunk ∈ h.accepted, chunk.final = false :=
  hinv.stream.open_of_running (hinv.point.running hworks)

variable (hmanifest : arguments.manifest = acceptedManifest)
  (hexecutes : ExecutesStream executions h.accepted w.point)

include hmanifest in
/-- The codec run of a batch that was read. -/
theorem executes_scheduled {batch : GenerationBatchResult} {first idle : Bool}
    (hholds : Holds h p steps ⟨none, some batch.batchSlot, batch.frameCount, batch.final, false,
      idle⟩) (hframes : CodecFrames batch first)
    (hexecutes : ExecutesStream executions h.accepted point) (hpoint : point.decoding = none)
    (hworks : point.Works) (htail : batch.final = true → batch.frameCount ≤ 7)
    (continue_ : PendingCodecBatch → WorkerPoint)
    (hdecoding : ∀ codec, (continue_ codec).decoding = some codec)
    (hcontinue : ∀ codec, (continue_ codec).Works) :
    Meets (scheduleCodec arguments batch first) { p with commands := [] }
      (fun codec p' => ExecutesStream (executions ++ codecExecutions p'.commands) h.accepted
        (continue_ codec))
      fun _ _ => False := by
  have hempty := hholds.forget [] p.committedTextTokens
  rw [meets_of_run_eq (run_scheduleCodec hmanifest hempty.slots.filledSlot hframes
    hempty.audioPending_eq)]
  exact hexecutes.schedule hpoint hworks (hcontinue _) (hdecoding _) htail rfl

include hmanifest in
/-- The steps behind a batch that was read. -/
theorem executes_observeGeneration {batch : GenerationBatchResult}
    (hinv : WorkerInvariant arguments Q h ⟨p, .observeGeneration batch, poisoned⟩ steps)
    (hexecutes : ExecutesStream executions h.accepted (.observeGeneration batch))
    (hholds : Holds h p steps ⟨none, some batch.batchSlot, batch.frameCount, batch.final, false,
      true⟩) (hshape : BatchShape 4 batch) :
    ExecutesStream
      (executions ++ codecExecutions (WorkerState.advance arguments reading h.request
        ⟨p, .observeGeneration batch, poisoned⟩).pipeline.commands) h.accepted
      (WorkerState.advance arguments reading h.request
        ⟨p, .observeGeneration batch, poisoned⟩).point := by
  have hopen := hinv.open_of_works trivial
  have hlength := hshape.length_le
  have htail : batch.final = true → batch.frameCount ≤ 7 := fun hfinal => by
    have := (hshape.final_frames hfinal).2
    omega
  simp only [WorkerState.advance]
  split_ifs with hcancelled hzero hfinal
  · exact hexecutes.stop hopen id _
  · -- only a batch with an end of speech has no frames
    have hfinal : batch.final = true := by
      by_contra hne
      have := (hshape.open_frames (Bool.eq_false_iff.mpr hne)).2
      omega
    rw [WorkerState.perform_of_run_eq (run_failIf_of_not (by simp [hfinal, hzero]))]
    exact hexecutes.keep rfl Iff.rfl rfl
  · have hframes : CodecFrames batch false :=
      ⟨by omega, by have := htail hfinal; omega,
        fun hopen' => by rw [hfinal] at hopen'; cases hopen'⟩
    exact hexecutes.perform hopen (executes_scheduled hmanifest hholds hframes hexecutes rfl trivial
      htail (.awaitCodec · none) (fun _ => rfl) fun _ => trivial) fun _ _ hnext => hnext
  · have hframes : CodecFrames batch false := by
      have := (hshape.open_frames (Bool.eq_false_iff.mpr hfinal)).2
      exact ⟨by omega, by omega, fun _ _ => by omega⟩
    have hscheduled := executes_scheduled hmanifest hholds hframes hexecutes rfl trivial htail
      .generateFollowing (fun _ => rfl) fun _ => trivial
    have hmeets := (meets_bind (requireSteadyBatchCapacity arguments)
      fun _ => scheduleCodec arguments batch false).mpr
      ((meets_requireSteadyBatchCapacity (p := { p with commands := [] }) hmanifest).mono
        (fun _ p' h => by
          rw [h.1]
          exact hscheduled.mono (fun _ _ h => h) fun _ _ h => h.elim)
        fun _ _ h => h)
    exact hexecutes.perform hopen hmeets fun _ _ hnext => hnext

/-- The settlement of the batches enqueues nothing. -/
theorem advance_settle_silent {outcome : Option WorkerException} (hsettles : p.Settles) :
    (WorkerState.advance arguments reading h.request
        ⟨p, .settle outcome, poisoned⟩).pipeline.commands = [] ∧
      ¬ (WorkerState.advance arguments reading h.request
        ⟨p, .settle outcome, poisoned⟩).point.Works := by
  simp only [WorkerState.advance]
  rcases WorkerState.perform_cases (meets_settleInflight (p := { p with commands := [] })
      (hsettles.of_eq rfl rfl)) with
    ⟨_, p', ⟨-, hcommands⟩, hperform⟩ | ⟨exception, p', hfalse, -⟩
  · rw [hperform]
    cases outcome with
    | none => exact ⟨hcommands, id⟩
    | some exception => exact ⟨hcommands, id⟩
  · exact hfalse.elim

include hmanifest in
/-- A step of the worker without a call. -/
theorem executes_advance (hinv : WorkerInvariant arguments Q h w steps)
    (hcall : w.point.call = none) (hexecutes : ExecutesStream executions h.accepted w.point)
    (reading : DeviceReading) :
    ExecutesStream
      (executions ++ codecExecutions (w.advance arguments reading h.request).pipeline.commands)
      h.accepted (w.advance arguments reading h.request).point := by
  have hopen := hinv.open_of_works
  obtain ⟨p, point, poisoned⟩ := w
  have hat := hinv.point
  cases hat with
  | setDevice => exact hexecutes.keep rfl Iff.rfl rfl
  | start hinitial =>
    subst hinitial
    rw [WorkerState.advance, WorkerState.perform_of_run_eq (run_start hmanifest)]
    exact hexecutes.keep rfl Iff.rfl rfl
  | awaitFirst hholds =>
    have hempty := hholds.forget [] p.committedTextTokens
    refine hexecutes.perform (hopen trivial)
      (meets_awaitFirst hmanifest hempty.slots.fillingSlot) ?_
    rintro batch p' ⟨rfl, -⟩
    exact hexecutes.keep rfl Iff.rfl rfl
  | observeFirst batch hholds hshape hfinal hframes =>
    have hcodecFrames : CodecFrames batch true :=
      ⟨by omega, by omega, fun _ hfirst => Bool.noConfusion hfirst⟩
    simp only [WorkerState.advance]
    split_ifs
    · exact hexecutes.stop (hopen trivial) id _
    · exact hexecutes.perform (hopen trivial) (executes_scheduled hmanifest hholds hcodecFrames
        hexecutes rfl trivial (fun _ => by omega) (.awaitCodec · none) (fun _ => rfl)
        fun _ => trivial) fun _ _ hnext => hnext
  | awaitCodec codec following =>
    refine hexecutes.perform (hopen trivial) (meets_awaitCodec codec _ _) ?_
    rintro _ p' rfl
    exact hexecutes.keep rfl Iff.rfl rfl
  | observeDecoded codec following hfollowing hholds hcodec hcommitted =>
    obtain ⟨stepCount, hshape⟩ := hcodec.shape
    have hsample : p.nextSampleIndex = publishedFrames h.accepted * 1024 :=
      hholds.nextSampleIndex_eq
    have hle : p.committedTextTokens ≤ arguments.textTokenIds.length :=
      hcommitted ▸ hinv.stream.committed_le
    have hmeets := meets_audioChunk (p := { p with commands := [] }) hmanifest hshape
      hcodec.frames.pos hcodec.samples_eq (by simp only; omega) hle
    simp only [WorkerState.advance]
    split_ifs
    · exact hexecutes.stop (hopen trivial) id _
    · refine hexecutes.perform (hopen trivial) hmeets ?_
      rintro chunk p' ⟨rfl, -⟩
      exact hexecutes.keep rfl Iff.rfl rfl
  | publish => cases hcall
  | observePublished following hfollowing hholds =>
    have hempty := hholds.forget [] p.committedTextTokens
    simp only [WorkerState.advance]
    split_ifs
    · exact hexecutes.stop (hopen trivial) id _
    cases following with
    | some pending => exact hexecutes.keep rfl Iff.rfl rfl
    | none =>
      have hmeets := (meets_bind (requireSteadyBatchCapacity arguments)
        fun _ => generateSteadyBatch arguments 1).mpr
        ((meets_requireSteadyBatchCapacity (p := { p with commands := [] }) hmanifest).mono
          (fun _ p' h => by
            rw [h.1]
            exact meets_generateSteadyBatch hmanifest (hempty.slots.free 1))
          fun _ _ h => h)
      refine hexecutes.perform (hopen trivial) hmeets ?_
      rintro pending p' ⟨-, rfl, -⟩
      exact hexecutes.keep rfl Iff.rfl codecExecutions_steadyCommands
  | waiting pending point hpoint =>
    cases point <;> cases hpoint <;> simp only [WorkerState.advance]
    case waiting.canPublish.refl =>
      split_ifs
      · exact hexecutes.keep rfl Iff.rfl rfl
      · exact hexecutes.keep rfl Iff.rfl rfl
    case waiting.observeFull.refl =>
      split_ifs
      · exact hexecutes.stop (hopen trivial) id _
      · exact hexecutes.keep rfl Iff.rfl rfl
    case waiting.readRevision.refl =>
      rw [hinv.stream.invariant.snapshot_eq]
      exact hexecutes.keep rfl Iff.rfl rfl
    case waiting.recheckCapacity.refl =>
      split_ifs
      · exact hexecutes.keep rfl Iff.rfl rfl
      · exact hexecutes.keep rfl Iff.rfl rfl
    case waiting.observeRechecked.refl =>
      split_ifs
      · exact hexecutes.stop (hopen trivial) id _
      · exact hexecutes.keep rfl Iff.rfl rfl
    case waiting.waitForRevision.refl => exact hexecutes.keep rfl Iff.rfl rfl
  | observeCapacity pending =>
    simp only [WorkerState.advance]
    split_ifs
    · exact hexecutes.stop (hopen trivial) id _
    · exact hexecutes.keep rfl Iff.rfl rfl
  | awaitGeneration pending hfour hholds =>
    have hempty := hholds.forget [] p.committedTextTokens
    refine hexecutes.perform (hopen trivial) (meets_awaitGenerationBatch arguments
      reading.diagnostics hmanifest hfour.le hempty.slots.fillingSlot) ?_
    rintro batch p' ⟨rfl, -⟩
    exact hexecutes.keep rfl Iff.rfl rfl
  | observeGeneration batch hholds hshape =>
    exact hinv.executes_observeGeneration hmanifest hexecutes hholds hshape
  | generateFollowing codec hholds =>
    have hempty := hholds.forget [] p.committedTextTokens
    refine hexecutes.perform (hopen trivial) (meets_generateSteadyBatch hmanifest
      (hempty.slots.free (1 - codec.generation.batchSlot))) ?_
    rintro pending p' ⟨-, rfl, -⟩
    exact hexecutes.keep rfl Iff.rfl codecExecutions_steadyCommands
  | observeZeroFrame batch hholds haccepted hcommitted =>
    have hle : p.committedTextTokens ≤ arguments.textTokenIds.length :=
      hcommitted ▸ hinv.stream.committed_le
    simp only [WorkerState.advance]
    split_ifs
    · exact hexecutes.stop (hopen trivial) id _
    · obtain ⟨chunk, hrun, -⟩ := run_zeroFrameFinal (p := { p with commands := [] }) arguments hle
      rw [WorkerState.perform_of_run_eq hrun]
      exact hexecutes.keep rfl Iff.rfl rfl
  | publishZeroFrame => cases hcall
  | settle outcome hsettles =>
    obtain ⟨hcommands, hstops⟩ := advance_settle_silent hsettles
    refine hexecutes.keep ?_ (iff_of_false hstops id) (by rw [hcommands]; rfl)
    rw [ExecutesStream.decoding_eq_none hstops]
    rfl
  | observeSettled =>
    simp only [WorkerState.advance]
    split_ifs
    · exact hexecutes.keep rfl Iff.rfl rfl
    · exact hexecutes.keep rfl Iff.rfl rfl
  | completeCancellation => cases hcall
  | failed exception =>
    simp only [WorkerState.advance]
    split_ifs
    · exact hexecutes.keep rfl Iff.rfl rfl
    · exact hexecutes.keep rfl Iff.rfl rfl
  | failRequest => cases hcall
  | done => exact hexecutes.keep rfl Iff.rfl rfl

/-- A step of the worker with a call, whatever the request replies. -/
theorem executes_resume (hinv : WorkerInvariant arguments Q h w steps) {call : RequestCall}
    (hcall : w.point.call = some call) (hexecutes : ExecutesStream executions h.accepted w.point)
    (reply : RequestReply) :
    ExecutesStream (executions ++ codecExecutions (w.resume arguments reply).pipeline.commands)
      (h.accepted ++ RequestHistory.acceptedBy call reply) (w.resume arguments reply).point := by
  have hopen := hinv.open_of_works
  obtain ⟨p, point, poisoned⟩ := w
  have hat := hinv.point
  cases hat with
  | publish chunk codec following hfollowing hholds hcodec hchunk hat =>
    obtain rfl := Option.some.inj hcall
    have hstream := hcodec.streamExecutions_concat hat
    have htail : chunk.final = true → chunk.codecFrameCount ≤ 7 := by
      rw [hat.final_eq, hat.codecFrameCount_eq]
      exact hexecutes.decoding_le codec rfl
    cases reply with
    | published accepted =>
      cases accepted with
      | true =>
        simp only [WorkerState.resume]
        split_ifs
        · rw [← List.append_nil executions] at hexecutes
          exact hexecutes.publish trivial rfl htail hstream
        · rw [← List.append_nil executions] at hexecutes
          exact hexecutes.publish trivial rfl htail hstream
      | false =>
        simp only [RequestHistory.acceptedBy, List.append_nil]
        exact hexecutes.stop (hopen trivial) id _
    | _ =>
      simp only [RequestHistory.acceptedBy, List.append_nil]
      exact hexecutes.stop (hopen trivial) id _
  | publishZeroFrame chunk batch hholds haccepted hchunk hat =>
    obtain rfl := Option.some.inj hcall
    have hstream :
        streamExecutions (h.accepted ++ [chunk]) = streamExecutions h.accepted ++ [] := by
      rw [streamExecutions_concat chunk haccepted, AudioChunk.followingExecution,
        if_pos hat.codecFrameCount_eq]
      rfl
    cases reply with
    | published accepted =>
      cases accepted with
      | true =>
        rw [← List.append_nil executions] at hexecutes
        exact hexecutes.publish trivial rfl (fun _ => by rw [hat.codecFrameCount_eq]; omega) hstream
      | false =>
        simp only [RequestHistory.acceptedBy, List.append_nil]
        exact hexecutes.stop (hopen trivial) id _
    | _ =>
      simp only [RequestHistory.acceptedBy, List.append_nil]
      exact hexecutes.stop (hopen trivial) id _
  | completeCancellation =>
    obtain rfl := Option.some.inj hcall
    simp only [RequestHistory.acceptedBy, List.append_nil]
    cases reply with
    | drained cancelled => cases cancelled <;> exact hexecutes.keep rfl Iff.rfl rfl
    | _ => exact hexecutes.keep rfl Iff.rfl rfl
  | failRequest =>
    obtain rfl := Option.some.inj hcall
    simp only [RequestHistory.acceptedBy, List.append_nil]
    cases reply <;> exact hexecutes.keep rfl Iff.rfl rfl
  | waiting pending point hpoint =>
    cases point <;> first | (cases hpoint; done) | cases hcall
  | _ => cases hcall

/-- A step that fails. -/
theorem executes_interrupt (hinv : WorkerInvariant arguments Q h w steps)
    (hexecutes : ExecutesStream executions h.accepted w.point) (enqueued : ℕ)
    (fault : DeviceFault) :
    ExecutesStream
      (executions ++ codecExecutions
        (w.interrupt arguments reading h.request enqueued fault).pipeline.commands)
      h.accepted (w.interrupt arguments reading h.request enqueued fault).point := by
  have hopen := hinv.open_of_works
  obtain ⟨p, point, poisoned⟩ := w
  have hat := hinv.point
  cases hat with
  | setDevice =>
    cases fault with
    | cuda detail => exact hexecutes.stop (hopen trivial) id _
    | _ => exact hexecutes.keep rfl Iff.rfl (codecExecutions_take rfl enqueued)
  | settle outcome hsettles =>
    have hcommands : codecExecutions (WorkerState.advance arguments reading h.request
        ⟨p, .settle outcome, poisoned⟩).pipeline.commands = [] := by
      rw [(advance_settle_silent hsettles).1]
      rfl
    cases outcome with
    | none => exact hexecutes.keep rfl Iff.rfl (codecExecutions_take hcommands enqueued)
    | some exception => exact hexecutes.keep rfl Iff.rfl (codecExecutions_take hcommands enqueued)
  | observeSettled =>
    refine hexecutes.keep rfl Iff.rfl (codecExecutions_take ?_ enqueued)
    simp only [WorkerState.advance]
    split_ifs <;> rfl
  | completeCancellation => exact hexecutes.keep rfl Iff.rfl (codecExecutions_take rfl enqueued)
  | failed exception =>
    refine hexecutes.keep rfl Iff.rfl (codecExecutions_take ?_ enqueued)
    simp only [WorkerState.advance]
    split_ifs <;> rfl
  | failRequest => exact hexecutes.keep rfl Iff.rfl (codecExecutions_take rfl enqueued)
  | done => exact hexecutes.keep rfl Iff.rfl (codecExecutions_take rfl enqueued)
  | waiting pending point hpoint =>
    cases point <;> first
      | cases hpoint; done
      | exact hexecutes.stop (hopen trivial) id _
  | _ => exact hexecutes.stop (hopen trivial) id _

end WorkerInvariant

/-! ### The runs -/

/-- The invariant of a run with its executions. -/
structure CodecInvariant (arguments : PipelineArguments) (Q : WorkerException → Prop)
    (observed : CodecObservation) : Prop where
  run : RunInvariant arguments Q observed.observation
  executes : ExecutesStream observed.executions observed.observation.run.history.accepted
    observed.observation.run.worker.point

namespace CodecInvariant

variable {arguments : PipelineArguments} {Q : WorkerException → Prop} {self : CodecObservation}
  {executions : List CodecExecution} {observation : SynthesisObservation}

/-- A step of the worker. -/
theorem executes_worker (hmanifest : arguments.manifest = acceptedManifest)
    (hinv : RunInvariant arguments Q observation)
    (hexecutes : ExecutesStream executions observation.run.history.accepted
      observation.run.worker.point) (reading : DeviceReading) :
    ExecutesStream
      (executions ++ codecExecutions (observation.run.commands arguments (.worker reading)))
      (observation.step arguments (.worker reading)).run.history.accepted
      (observation.step arguments (.worker reading)).run.worker.point := by
  obtain ⟨⟨history, w⟩, steps⟩ := observation
  obtain ⟨h, hworker, hhistory⟩ := hinv
  have haccepted : history.accepted = h.accepted := by
    rcases hhistory with rfl | ⟨-, lead, rfl⟩ <;> rfl
  simp only [SynthesisObservation.step, SynthesisRun.commands, SynthesisRun.step] at *
  rw [haccepted] at hexecutes
  cases hcall : w.point.call with
  | some call =>
    have hresume := hworker.executes_resume hcall hexecutes (history.call call).1
    rw [← haccepted] at hresume
    exact hresume
  | none =>
    have hadvance := hworker.executes_advance hmanifest hcall hexecutes reading
    rcases hhistory with rfl | ⟨hfailing, lead, rfl⟩
    · exact hadvance
    · simp only [RequestHistory.ahead, hfailing.advance_ahead]
      exact hadvance

/-- A step that fails. -/
theorem executes_fault (hinv : RunInvariant arguments Q observation)
    (hexecutes : ExecutesStream executions observation.run.history.accepted
      observation.run.worker.point) (reading : DeviceReading) (enqueued : ℕ) (fault : DeviceFault) :
    ExecutesStream
      (executions ++
        codecExecutions (observation.run.commands arguments (.fault reading enqueued fault)))
      (observation.step arguments (.fault reading enqueued fault)).run.history.accepted
      (observation.step arguments (.fault reading enqueued fault)).run.worker.point := by
  obtain ⟨⟨history, w⟩, steps⟩ := observation
  obtain ⟨h, hworker, hhistory⟩ := hinv
  have haccepted : history.accepted = h.accepted := by
    rcases hhistory with rfl | ⟨-, lead, rfl⟩ <;> rfl
  simp only [SynthesisObservation.step, SynthesisRun.commands, SynthesisRun.step] at *
  rw [haccepted] at hexecutes ⊢
  have hinterrupt := @WorkerInvariant.executes_interrupt _ _ _ _ _ _ reading hworker hexecutes
    enqueued fault
  rcases hhistory with rfl | ⟨hfailing, lead, rfl⟩
  · exact hinterrupt
  · simp only [RequestHistory.ahead, hfailing.interrupt_ahead]
    exact hinterrupt

/-- A publication whose queue cannot grow. -/
theorem executes_publicationFault (hinv : RunInvariant arguments Q observation)
    (hexecutes : ExecutesStream executions observation.run.history.accepted
      observation.run.worker.point) :
    ExecutesStream executions
      (observation.step arguments .publicationFault).run.history.accepted
      (observation.step arguments .publicationFault).run.worker.point := by
  obtain ⟨⟨history, w⟩, steps⟩ := observation
  obtain ⟨h, hworker, hhistory⟩ := hinv
  have haccepted : history.accepted = h.accepted := by
    rcases hhistory with rfl | ⟨-, lead, rfl⟩ <;> rfl
  simp only [SynthesisObservation.step, SynthesisRun.step] at *
  split
  · rename_i chunk hcall
    split
    · have hworks : w.point.Works := by
        cases hpoint : w.point <;> rw [hpoint] at hcall <;> first | trivial | cases hcall
      rw [haccepted] at hexecutes
      simp only [haccepted]
      exact hexecutes.stop (hworker.open_of_works hworks) id _
    · exact hexecutes
  · exact hexecutes

/-- **Every step keeps the invariant.** -/
theorem step (hmanifest : arguments.manifest = acceptedManifest) (hQ : ExceptionKind Q)
    (hinv : CodecInvariant arguments Q self) {action : SynthesisAction}
    (hblames : self.observation.Blames arguments Q action) :
    CodecInvariant arguments Q (self.step arguments action) where
  run := hinv.run.step hmanifest hQ hblames
  executes := by
    cases action with
    | worker reading => exact executes_worker hmanifest hinv.run hinv.executes reading
    | fault reading enqueued fault =>
      exact executes_fault hinv.run hinv.executes reading enqueued fault
    | publicationFault =>
      have hfault := executes_publicationFault hinv.run hinv.executes
      rw [← List.append_nil self.executions] at hfault
      exact hfault
    | consumer call =>
      have haccepted : (self.observation.run.history.step call.toRequestCall).accepted =
          self.observation.run.history.accepted := by
        cases call <;> exact List.append_nil _
      have hkept := hinv.executes
      rw [← haccepted, ← List.append_nil self.executions] at hkept
      exact hkept

theorem start (hmanifest : arguments.manifest = acceptedManifest) {request : StreamingRequestState}
    (hrequest : StreamingRequestState.construct arguments.textTokenIds.length
      arguments.manifest.limits.pcmRingCapacityFrames = .ok request) (leaseIds : LeaseIdSequence) :
    CodecInvariant arguments Q (.start request leaseIds) where
  run := .start hmanifest hrequest leaseIds
  executes :=
    { tail_le := fun chunk hmem => by cases hmem
      decoding_le := fun codec hmem => by cases hmem
      working := fun _ => rfl
      settled := fun hstops => absurd trivial hstops }

end CodecInvariant

/-- **The executions of every run.** In every state of every run, the codec has executed the
accepted chunks and the batch that the worker decodes. -/
theorem executesStream_run {arguments : PipelineArguments} {Q : WorkerException → Prop}
    (hmanifest : arguments.manifest = acceptedManifest) (hQ : ExceptionKind Q)
    {request : StreamingRequestState}
    (hrequest : StreamingRequestState.construct arguments.textTokenIds.length
      arguments.manifest.limits.pcmRingCapacityFrames = .ok request) (leaseIds : LeaseIdSequence)
    (actions : List SynthesisAction)
    (hblames : StepsMeet (CodecObservation.step arguments)
      (fun self => self.observation.Blames arguments Q) (.start request leaseIds) actions) :
    CodecInvariant arguments Q
      (run (CodecObservation.step arguments) (.start request leaseIds) actions) :=
  run_induction_of_stepsMeet (fun _ _ hinv hblames => hinv.step hmanifest hQ hblames)
    (.start hmanifest hrequest leaseIds) actions hblames

/-! ### The executions of a completed request -/

/-- The executions of a request that retains the given frames: a tail run decodes what is left of
them behind the steady runs, if anything is. -/
def requestExecutions (frames : ℕ) : List CodecExecution :=
  ⟨.initial, 4⟩ :: (List.replicate ((frames - 4) / 8) ⟨.steady, 8⟩ ++
    if (frames - 4) % 8 = 0 then [] else [⟨.tail, (frames - 4) % 8⟩])

/-- The open chunks behind the first one run the steady engine. -/
theorem filterMap_followingExecution {chunks : List AudioChunk}
    (hopen : ∀ chunk ∈ chunks, chunk.final = false)
    (hframes : ∀ chunk ∈ chunks, chunk.codecFrameCount = 8) :
    chunks.filterMap AudioChunk.followingExecution = List.replicate chunks.length ⟨.steady, 8⟩ := by
  induction chunks with
  | nil => rfl
  | cons chunk rest ih =>
    have hchunk : chunk.followingExecution = some ⟨.steady, 8⟩ := by
      rw [AudioChunk.followingExecution, hframes chunk List.mem_cons_self,
        hopen chunk List.mem_cons_self]
      rfl
    rw [List.filterMap_cons_some hchunk, List.length_cons, List.replicate_succ,
      ih (fun other hmem => hopen other (List.mem_cons_of_mem _ hmem))
        fun other hmem => hframes other (List.mem_cons_of_mem _ hmem)]

theorem publishedFrames_of_forall_eq {chunks : List AudioChunk}
    (hframes : ∀ chunk ∈ chunks, chunk.codecFrameCount = 8) :
    publishedFrames chunks = 8 * chunks.length := by
  induction chunks with
  | nil => rfl
  | cons chunk rest ih =>
    have hrest := ih fun other hmem => hframes other (List.mem_cons_of_mem _ hmem)
    have hchunk := hframes chunk List.mem_cons_self
    simp only [publishedFrames, List.map_cons, List.sum_cons, List.length_cons] at hrest ⊢
    omega

/-- A complete stream decides its executions by its frames alone. -/
theorem streamExecutions_of_complete {accepted : List AudioChunk}
    {steps : List GenerationStepDiagnostics} (hcomplete : StreamComplete accepted steps)
    (hcontiguous : ∀ k chunk, accepted[k]? = some chunk →
      RequestHistory.ContinuesStream accepted k chunk)
    (htail : ∀ chunk ∈ accepted, chunk.final = true → chunk.codecFrameCount ≤ 7) :
    streamExecutions accepted = requestExecutions (retainedFrames steps) := by
  obtain ⟨earlier, last, rfl, hlast, hopen⟩ := hcomplete.last
  rw [← hcomplete.frames_eq]
  have hlastLe := htail last (List.mem_append_right _ (List.mem_singleton.mpr rfl)) hlast
  cases earlier with
  | nil =>
    have hframes : last.codecFrameCount = 4 := (hcontiguous 0 last rfl).first_frames rfl
    simp [streamExecutions, requestExecutions, publishedFrames, hframes]
  | cons first middle =>
    have hfirst : first.codecFrameCount = 4 := (hcontiguous 0 first rfl).first_frames rfl
    have hmiddleOpen : ∀ chunk ∈ middle, chunk.final = false :=
      fun chunk hmem => hopen chunk (List.mem_cons_of_mem _ hmem)
    have hmiddle : ∀ chunk ∈ middle, chunk.codecFrameCount = 8 := by
      intro chunk hmem
      obtain ⟨k, hk, rfl⟩ := List.mem_iff_getElem.mp hmem
      refine (hcontiguous (k + 1) middle[k] ?_).steady_frames (Nat.succ_pos k) (hmiddleOpen _ hmem)
      rw [List.cons_append, List.getElem?_cons_succ, List.getElem?_append_left hk,
        List.getElem?_eq_getElem hk]
    have hpublished : publishedFrames (first :: middle ++ [last]) =
        4 + 8 * middle.length + last.codecFrameCount := by
      have := publishedFrames_of_forall_eq hmiddle
      simp only [publishedFrames, List.map_append, List.map_cons, List.map_nil, List.sum_append,
        List.sum_cons, List.sum_nil] at this ⊢
      omega
    have hquotient : (publishedFrames (first :: middle ++ [last]) - 4) / 8 = middle.length := by
      omega
    have hremainder : (publishedFrames (first :: middle ++ [last]) - 4) % 8 =
        last.codecFrameCount := by
      omega
    rw [requestExecutions, hquotient, hremainder, List.cons_append, streamExecutions, hfirst,
      List.filterMap_append, filterMap_followingExecution hmiddleOpen hmiddle]
    congr 2
    by_cases hzero : last.codecFrameCount = 0
    · simp [AudioChunk.followingExecution, hzero]
    · simp [AudioChunk.followingExecution, hzero, hlast]

/-- **The executions of a completed request.** They depend on its retained frames alone, whatever
the interleaving with the consumer and wherever the end of speech lies. -/
theorem codecExecutions_completed {arguments : PipelineArguments}
    (hmanifest : arguments.manifest = acceptedManifest) {request : StreamingRequestState}
    (hrequest : StreamingRequestState.construct arguments.textTokenIds.length
      arguments.manifest.limits.pcmRingCapacityFrames = .ok request) (leaseIds : LeaseIdSequence)
    {actions : List SynthesisAction} (hreported : ∀ action ∈ actions, action.Reported)
    {observed : CodecObservation}
    (hrun : run (CodecObservation.step arguments) (.start request leaseIds) actions = observed)
    (hcompleted : observed.observation.run.history.request.state = .completed) :
    observed.executions = requestExecutions (retainedFrames observed.observation.steps) := by
  have hinv : CodecInvariant arguments WorkerException.Reported observed := by
    rw [← hrun]
    refine executesStream_run hmanifest exceptionKind_reported hrequest leaseIds actions
      (stepsMeet_of_forall_mem fun self action hmem => ?_)
    exact (hreported action hmem).blames self.observation
  have hpublishes := hinv.run.publishesStream exceptionKind_reported
  have hcomplete := hpublishes.complete hcompleted
  rw [← streamExecutions_of_complete hcomplete hpublishes.contiguous hinv.executes.tail_le]
  by_cases hworks : observed.observation.run.worker.point.Works
  · -- a worker in `run_impl` has an open request
    obtain ⟨h, hworker, hhistory⟩ := hinv.run
    have hrunning := hworker.point.running hworks
    have hsame : observed.observation.run.history.request.state = h.request.state := by
      rcases hhistory with hhistory | ⟨-, lead, hhistory⟩
      · rw [hhistory]
      · rw [hhistory]
        rfl
    rw [hsame, hrunning] at hcompleted
    cases hcompleted
  · obtain ⟨earlier, last, haccepted, hlast, -⟩ := hcomplete.last
    refine hinv.executes.settled hworks ⟨last, ?_, hlast⟩
    rw [haccepted]
    exact List.mem_append_right _ (List.mem_singleton.mpr rfl)

end MagpieTts.Runtime
