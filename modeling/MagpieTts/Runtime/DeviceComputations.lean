import MagpieTts.Runtime.DeviceRuns

/-!
# What a synthesis run computes

Between any two steps of a run, the workspace holds what the recurrence of the request says: the
state behind the last Local AR step, the frames and the record of the batch in flight, the frames of
the batch that was read, and the samples of the chunk that waits for its publication.

## Main definitions

* `Computes`: the workspace at a point of the worker.
* `DeviceFollows`: what holds of workspace and calls in every state of a run.

## Main results

* `Computes.generate`, `Computes.read`, `Computes.schedule`, `Computes.publish`: the stages of a
  batch.
* `WorkerInvariant.follows_advance`, `WorkerInvariant.follows_resume`: the steps of the worker.
-/

namespace MagpieTts.Runtime

open MagpieTts.Library MagpieTts.Plugins Pipeline

variable {types : SessionTypes}

/-! ### The points of the worker -/

/-- The batch that is in flight at a point. -/
def WorkerPoint.generating : WorkerPoint → Option PendingGenerationBatch
  | awaitFirst pending => some pending
  | awaitCodec _ following => following
  | observeDecoded _ following => following
  | publish _ _ following => following
  | observePublished following => following
  | canPublish pending => some pending
  | observeFull pending => some pending
  | readRevision pending => some pending
  | recheckCapacity pending _ => some pending
  | observeRechecked pending _ => some pending
  | waitForRevision pending _ => some pending
  | observeCapacity pending => some pending
  | awaitGeneration pending => some pending
  | _ => none

/-- The batch that was read and waits for the codec. -/
def WorkerPoint.generated : WorkerPoint → Option GenerationBatchResult
  | observeFirst batch => some batch
  | observeGeneration batch => some batch
  | _ => none

/-- The calls of the codec on chunks from a number on. -/
def Recurrence.streamCalls (recurrence : Recurrence types) :
    ℕ → List AudioChunk → List (CodecCall types)
  | _, [] => []
  | number, chunk :: rest =>
    (if chunk.codecFrameCount = 0 then []
      else [recurrence.chunkCall number chunk.codecFrameCount chunk.final]) ++
      streamCalls recurrence (number + 1) rest

theorem Recurrence.streamCalls_concat (recurrence : Recurrence types) (number : ℕ)
    (accepted : List AudioChunk) (chunk : AudioChunk) :
    recurrence.streamCalls number (accepted ++ [chunk]) =
      recurrence.streamCalls number accepted ++
        if chunk.codecFrameCount = 0 then []
        else [recurrence.chunkCall (number + accepted.length) chunk.codecFrameCount
          chunk.final] := by
  induction accepted generalizing number with
  | nil => simp [streamCalls]
  | cons first rest ih =>
    rw [List.cons_append, streamCalls, streamCalls, ih, List.append_assoc, List.length_cons,
      Nat.add_assoc, Nat.add_comm 1]

/-! ### The workspace at a point -/

/-- The samples of a codec run, and its states where the stream goes on. -/
structure HoldsDecoded (recurrence : Recurrence types) (number : ℕ) (codecStateIndex : BufferIndex)
    (codec : PendingCodecBatch) (workspace : SessionWorkspace types) : Prop where
  states_eq : codec.generation.final = false →
    workspace.codecStates codecStateIndex = recurrence.codecStates number
  validSampleLength_eq : workspace.pinnedValidSampleLength =
    (recurrence.engines.nanocodec (recurrence.chunkCall number codec.generation.frameCount
      codec.generation.final)).validSampleLength
  pcm_eq : boundTensor (codec.generation.frameCount * 1024) workspace.pinnedPcm =
    recurrence.chunkPcm number codec.generation.frameCount codec.generation.final

/-- The workspace behind the start, with what the worker holds at its point. -/
structure Computes (recurrence : Recurrence types) (p : Pipeline) (accepted : List AudioChunk)
    (steps : List GenerationStepDiagnostics) (point : WorkerPoint) (trace : SessionTrace types) :
    Prop where
  positive : 0 < p.generatedDecoderSteps
  spoken : ∀ last, last + 1 = p.generatedDecoderSteps →
    trace.workspace.Spoken recurrence p.cacheIndex last
  decoderCalls_eq : trace.decoderCalls = recurrence.calls p.generatedDecoderSteps
  steps_eq : steps = (List.range steps.length).map recurrence.diagnostics
  generating : ∀ g ∈ point.generating,
    trace.workspace.pinnedGenerationDiagnostics g.batchSlot =
        recurrence.batchDiagnostics steps.length g.stepCount ∧
      trace.workspace.SlotFrames recurrence g.batchSlot (steps.length * 2) (g.stepCount * 2)
  generated : ∀ batch ∈ point.generated, trace.workspace.SlotFrames recurrence batch.batchSlot
    (Recurrence.chunkStart accepted.length) batch.frameCount
  codecCalls_eq : trace.codecCalls = recurrence.streamCalls 0 accepted ++
    (point.decoding.map fun codec => recurrence.chunkCall accepted.length
      codec.generation.frameCount codec.generation.final).toList
  states_eq : point.decoding = none → ∀ previous, accepted.length = previous + 1 →
    trace.workspace.codecStates p.codecStateIndex = recurrence.codecStates previous
  decoding : ∀ codec ∈ point.decoding,
    HoldsDecoded recurrence accepted.length p.codecStateIndex codec trace.workspace

section Computes

variable {recurrence : Recurrence types} {p p' : Pipeline} {accepted : List AudioChunk}
  {steps : List GenerationStepDiagnostics} {point next : WorkerPoint}
  {trace after : SessionTrace types}

/-- A step without commands that reads nothing. -/
theorem Computes.keep (hcomputes : Computes recurrence p accepted steps point trace)
    (hcache : p'.cacheIndex = p.cacheIndex) (hstate : p'.codecStateIndex = p.codecStateIndex)
    (hsteps : p'.generatedDecoderSteps = p.generatedDecoderSteps)
    (hgenerating : ∀ g ∈ next.generating, g ∈ point.generating)
    (hgenerated : ∀ batch ∈ next.generated, batch ∈ point.generated)
    (hdecoding : next.decoding = point.decoding) :
    Computes recurrence p' accepted steps next trace where
  positive := hsteps ▸ hcomputes.positive
  spoken := by
    rw [hsteps, hcache]
    exact hcomputes.spoken
  decoderCalls_eq := by
    rw [hsteps]
    exact hcomputes.decoderCalls_eq
  steps_eq := hcomputes.steps_eq
  generating g hg := hcomputes.generating g (hgenerating g hg)
  generated batch hbatch := hcomputes.generated batch (hgenerated batch hbatch)
  codecCalls_eq := by
    rw [hdecoding]
    exact hcomputes.codecCalls_eq
  states_eq := by
    rw [hdecoding, hstate]
    exact hcomputes.states_eq
  decoding := by
    rw [hdecoding, hstate]
    exact hcomputes.decoding

/-- The entries of a record of the recurrence. -/
theorem batchSteps_batchDiagnostics (recurrence : Recurrence types)
    (pending : PendingGenerationBatch) (first : ℕ) :
    batchSteps pending (recurrence.batchDiagnostics first pending.stepCount) =
      (List.range pending.stepCount).map fun step => recurrence.diagnostics (first + step) := by
  refine List.map_congr_left fun step hstep => ?_
  exact if_pos (List.mem_range.mp hstep)

/-- The batch in flight was read. -/
theorem Computes.read (hcomputes : Computes recurrence p accepted steps point trace)
    {pending : PendingGenerationBatch} {batch : GenerationBatchResult}
    (hpending : point.generating = some pending) (hpoint : point.decoding = none)
    (hcache : p'.cacheIndex = p.cacheIndex) (hstate : p'.codecStateIndex = p.codecStateIndex)
    (hsteps : p'.generatedDecoderSteps = p.generatedDecoderSteps)
    (hslot : batch.batchSlot = pending.batchSlot)
    (hframes : batch.frameCount ≤ pending.stepCount * 2)
    (hstart : Recurrence.chunkStart accepted.length = steps.length * 2)
    (hgenerating : next.generating = none) (hgenerated : next.generated = some batch)
    (hdecoding : next.decoding = none) :
    Computes recurrence p' accepted
      (steps ++ batchSteps pending
        (trace.workspace.pinnedGenerationDiagnostics pending.batchSlot)) next trace := by
  obtain ⟨hdiagnostics, hslotFrames⟩ := hcomputes.generating pending hpending
  rw [hdiagnostics, batchSteps_batchDiagnostics]
  refine
    { positive := hsteps ▸ hcomputes.positive
      spoken := ?_
      decoderCalls_eq := ?_
      steps_eq := ?_
      generating := fun g hg => ?_
      generated := fun other hother => ?_
      codecCalls_eq := ?_
      states_eq := ?_
      decoding := fun codec hcodec => ?_ }
  · rw [hsteps, hcache]
    exact hcomputes.spoken
  · rw [hsteps]
    exact hcomputes.decoderCalls_eq
  · rw [List.length_append, List.length_map, List.length_range, List.range_add, List.map_append,
      List.map_map, ← hcomputes.steps_eq]
    rfl
  · rw [hgenerating] at hg
    cases hg
  · rw [hgenerated] at hother
    obtain rfl := Option.some.inj hother
    rw [hslot, hstart]
    exact hslotFrames.mono hframes
  · rw [hdecoding, ← hpoint]
    exact hcomputes.codecCalls_eq
  · rw [hstate]
    exact fun _ => hcomputes.states_eq hpoint
  · rw [hdecoding] at hcodec
    cases hcodec

/-- A batch is generated. -/
theorem Computes.generate {batchSlot : BatchSlot} {stepCount : ℕ}
    (hcomputes : Computes recurrence p accepted steps point trace)
    (hgenerates : GeneratesBatch recurrence batchSlot p'.cacheIndex p.generatedDecoderSteps
      stepCount trace after)
    (hlength : steps.length = p.generatedDecoderSteps)
    (hstate : p'.codecStateIndex = p.codecStateIndex)
    (hsteps : p'.generatedDecoderSteps = p.generatedDecoderSteps + stepCount)
    {pending : PendingGenerationBatch} (hslot : pending.batchSlot = batchSlot)
    (hcount : pending.stepCount = stepCount)
    (hgenerating : next.generating = some pending) (hgenerated : next.generated = none)
    (hdecoding : next.decoding = point.decoding) :
    Computes recurrence p' accepted steps next after := by
  have hkeeps := hgenerates.keeps
  have hpositive := hcomputes.positive
  refine
    { positive := by omega
      spoken := fun last hlast => hgenerates.spoken last (by omega)
      decoderCalls_eq := ?_
      steps_eq := hcomputes.steps_eq
      generating := fun g hg => ?_
      generated := fun other hother => ?_
      codecCalls_eq := ?_
      states_eq := ?_
      decoding := fun codec hcodec => ?_ }
  · rw [hsteps]
    exact hgenerates.decoderCalls_eq hcomputes.decoderCalls_eq
  · rw [hgenerating] at hg
    obtain rfl := Option.some.inj hg
    rw [hslot, hcount, hlength]
    exact ⟨hgenerates.diagnostics_eq, hgenerates.frames⟩
  · rw [hgenerated] at hother
    cases hother
  · rw [hdecoding, hgenerates.codecCalls_eq]
    exact hcomputes.codecCalls_eq
  · rw [hdecoding, hstate, hkeeps.codecStates_eq]
    exact hcomputes.states_eq
  · rw [hdecoding] at hcodec
    have hdecoded := hcomputes.decoding codec hcodec
    refine ⟨?_, ?_, ?_⟩
    · rw [hstate, hkeeps.codecStates_eq]
      exact hdecoded.states_eq
    · rw [hkeeps.pinnedValidSampleLength_eq]
      exact hdecoded.validSampleLength_eq
    · rw [hkeeps.pinnedPcm_eq]
      exact hdecoded.pcm_eq

/-- The states behind an open chunk. -/
theorem Recurrence.states_chunkCall (recurrence : Recurrence types) {number frameCount : ℕ}
    (hfirst : number = 0 → frameCount = 4) (hsteady : 0 < number → frameCount = 8) :
    (recurrence.engines.nanocodec (recurrence.chunkCall number frameCount false)).states =
      recurrence.codecStates number := by
  rcases number with _ | previous
  · rw [hfirst rfl]
    rfl
  · rw [hsteady (Nat.succ_pos previous)]
    rfl

/-- The codec runs on the batch that was read. -/
theorem Computes.schedule {codec : PendingCodecBatch}
    (hcomputes : Computes recurrence p accepted steps point trace)
    (hpoint : point.decoding = none) (hbatch : point.generated = some codec.generation)
    (hfirst : codec.first = decide (accepted = []))
    (hfirstFrames : accepted = [] → codec.generation.frameCount = 4)
    (hsteady : accepted ≠ [] → codec.generation.final = false → codec.generation.frameCount = 8)
    (hcache : p'.cacheIndex = p.cacheIndex)
    (hstate : p'.codecStateIndex = if codec.first then 0 else 1 - p.codecStateIndex)
    (hsteps : p'.generatedDecoderSteps = p.generatedDecoderSteps)
    (hcommands : p'.commands = codecCommands codec.generation codec.first p.codecStateIndex)
    (hgenerating : next.generating = none) (hgenerated : next.generated = none)
    (hdecoding : next.decoding = some codec) :
    Computes recurrence p' accepted steps next
      (trace.executeAll recurrence.engines recurrence.arguments p'.commands) := by
  have hzero : decide (accepted = []) = decide (accepted.length = 0) :=
    decide_eq_decide.mpr List.length_eq_zero_iff.symm
  rw [hzero] at hfirst
  have hdecodes := decodesChunk_executeAll (hcomputes.generated _ hbatch)
    (hcomputes.states_eq hpoint)
  rw [hcommands, hfirst]
  rw [hfirst] at hstate
  refine
    { positive := hsteps ▸ hcomputes.positive
      spoken := fun last hlast => ?_
      decoderCalls_eq := ?_
      steps_eq := hcomputes.steps_eq
      generating := fun g hg => ?_
      generated := fun other hother => ?_
      codecCalls_eq := ?_
      states_eq := fun hnone => ?_
      decoding := fun other hother => ?_ }
  · rw [hcache]
    exact hdecodes.spoken_of _ _ (hcomputes.spoken last (hlast.trans hsteps))
  · rw [hsteps, hdecodes.decoderCalls_eq]
    exact hcomputes.decoderCalls_eq
  · rw [hgenerating] at hg
    cases hg
  · rw [hgenerated] at hother
    cases hother
  · have hcalls := hcomputes.codecCalls_eq
    rw [hpoint, Option.map_none, Option.toList_none, List.append_nil] at hcalls
    rw [hdecodes.codecCalls_eq, hcalls, hdecoding]
    rfl
  · rw [hdecoding] at hnone
    cases hnone
  · rw [hdecoding] at hother
    obtain rfl := Option.some.inj hother
    refine ⟨fun hfinal => ?_, hdecodes.validSampleLength_eq, hdecodes.pcm_eq⟩
    rw [hstate, hdecodes.states_eq, hfinal]
    refine recurrence.states_chunkCall
      (fun hempty => hfirstFrames (List.length_eq_zero_iff.mp hempty))
      fun hpositive => hsteady (List.ne_nil_of_length_pos hpositive) hfinal

/-- The request has accepted the chunk of the codec run, and the stream goes on. -/
theorem Computes.publish {codec : PendingCodecBatch} {chunk : AudioChunk}
    (hcomputes : Computes recurrence p accepted steps point trace)
    (hpoint : point.decoding = some codec)
    (hpositive : 0 < codec.generation.frameCount) (hopen : codec.generation.final = false)
    (hframes : chunk.codecFrameCount = codec.generation.frameCount)
    (hfinal : chunk.final = codec.generation.final)
    (hcache : p'.cacheIndex = p.cacheIndex) (hstate : p'.codecStateIndex = p.codecStateIndex)
    (hsteps : p'.generatedDecoderSteps = p.generatedDecoderSteps)
    (hgenerating : next.generating = point.generating) (hgenerated : next.generated = none)
    (hdecoding : next.decoding = none) :
    Computes recurrence p' (accepted ++ [chunk]) steps next trace := by
  refine
    { positive := hsteps ▸ hcomputes.positive
      spoken := ?_
      decoderCalls_eq := ?_
      steps_eq := hcomputes.steps_eq
      generating := hgenerating ▸ hcomputes.generating
      generated := fun other hother => ?_
      codecCalls_eq := ?_
      states_eq := fun _ previous hprevious => ?_
      decoding := fun other hother => ?_ }
  · rw [hsteps, hcache]
    exact hcomputes.spoken
  · rw [hsteps]
    exact hcomputes.decoderCalls_eq
  · rw [hgenerated] at hother
    cases hother
  · rw [hcomputes.codecCalls_eq, hpoint, hdecoding, recurrence.streamCalls_concat, hframes, hfinal,
      if_neg (by omega), Nat.zero_add]
    simp
  · obtain rfl : accepted.length = previous := by
      rw [List.length_append, List.length_singleton] at hprevious
      omega
    rw [hstate]
    exact (hcomputes.decoding codec hpoint).states_eq hopen
  · rw [hdecoding] at hother
    cases hother

/-- The first step of the worker. -/
theorem Computes.start {workspace : SessionWorkspace types}
    (hstale : recurrence = workspace.recurrence recurrence.engines recurrence.arguments)
    (hcontract : rejectsContract recurrence.contract = false)
    (hcache : p'.cacheIndex = 1) (hsteps : p'.generatedDecoderSteps = 2) :
    Computes recurrence p' [] [] (.awaitFirst ⟨0, 2, 2⟩)
      ((SessionTrace.start workspace).executeAll recurrence.engines recurrence.arguments
        startCommands) := by
  have hgenerates := @SessionTrace.generatesBatch_startCommands _ recurrence.engines
    recurrence.arguments workspace hcontract
  rw [← hstale] at hgenerates
  refine
    { positive := by omega
      spoken := fun last hlast => ?_
      decoderCalls_eq := ?_
      steps_eq := rfl
      generating := fun g hg => ?_
      generated := fun other hother => by cases hother
      codecCalls_eq := hgenerates.codecCalls_eq
      states_eq := fun _ previous hprevious => by cases hprevious
      decoding := fun codec hcodec => by cases hcodec }
  · rw [hcache]
    exact hgenerates.spoken last (by omega)
  · rw [hsteps]
    refine hgenerates.decoderCalls_eq ?_
    rw [hstale]
    exact (SessionTrace.ready_executeAll_prefillCommands workspace).2
  · obtain rfl := Option.some.inj hg
    exact ⟨hgenerates.diagnostics_eq, hgenerates.frames⟩

end Computes

/-! ### The steps of the worker -/

/-- The worker has not enqueued anything. -/
def WorkerPoint.Starts : WorkerPoint → Prop
  | setDevice | start => True
  | _ => False

/-- What holds of workspace and calls in every state of a run. -/
structure DeviceFollows (recurrence : Recurrence types) (workspace : SessionWorkspace types)
    (w : WorkerState) (accepted : List AudioChunk) (steps : List GenerationStepDiagnostics)
    (trace : SessionTrace types) : Prop where
  starts : w.point.Starts → trace = .start workspace
  steps_eq : steps = (List.range steps.length).map recurrence.diagnostics
  computes : w.point.Works → ¬ w.point.Starts →
    Computes recurrence w.pipeline accepted steps w.point trace
  calls : ¬ w.point.Works → ∃ number ≤ 250, trace.decoderCalls <+: recurrence.calls number
  settled : ¬ w.point.Works → (∃ chunk ∈ accepted, chunk.final = true) →
    trace.codecCalls = recurrence.streamCalls 0 accepted

section Follows

variable {recurrence : Recurrence types} {workspace : SessionWorkspace types}
  {Q : WorkerException → Prop} {h : RequestHistory} {w : WorkerState} {p p' : Pipeline}
  {point next : WorkerPoint} {poisoned : Bool} {accepted : List AudioChunk}
  {steps : List GenerationStepDiagnostics} {trace after : SessionTrace types}

/-- The steps of a worker in `run_impl` are limited. -/
theorem WorkerAt.generated_le {arguments : PipelineArguments}
    (hat : WorkerAt arguments Q h p steps point) (hworks : point.Works) :
    p.generatedDecoderSteps ≤ 250 := by
  cases hat with
  | setDevice hinitial => rw [hinitial]; exact Nat.zero_le _
  | start hinitial => rw [hinitial]; exact Nat.zero_le _
  | awaitFirst hholds => exact hholds.generated_le
  | observeFirst batch hholds => exact hholds.generated_le
  | awaitCodec codec following hfollowing hholds => exact hholds.generated_le
  | observeDecoded codec following hfollowing hholds => exact hholds.generated_le
  | publish chunk codec following hfollowing hholds => exact hholds.generated_le
  | observePublished following hfollowing hholds => exact hholds.generated_le
  | waiting pending point hpoint hfour hholds => exact hholds.generated_le
  | observeCapacity pending hfour hholds => exact hholds.generated_le
  | awaitGeneration pending hfour hholds => exact hholds.generated_le
  | observeGeneration batch hholds => exact hholds.generated_le
  | generateFollowing codec hholds => exact hholds.generated_le
  | observeZeroFrame batch hholds => exact hholds.generated_le
  | publishZeroFrame chunk batch hholds => exact hholds.generated_le
  | _ => exact hworks.elim

namespace DeviceFollows

/-- The calls so far are the first of the recurrence. -/
theorem exists_calls (hfollows : DeviceFollows recurrence workspace w accepted steps trace)
    (hle : w.point.Works → w.pipeline.generatedDecoderSteps ≤ 250) :
    ∃ number ≤ 250, trace.decoderCalls <+: recurrence.calls number := by
  by_cases hworks : w.point.Works
  · by_cases hstarts : w.point.Starts
    · rw [hfollows.starts hstarts]
      exact ⟨0, Nat.zero_le _, List.nil_prefix⟩
    · exact ⟨_, hle hworks, (hfollows.computes hworks hstarts).decoderCalls_eq ▸ List.prefix_refl _⟩
  · exact hfollows.calls hworks

/-- The worker goes on. -/
theorem of_computes (hcomputes : Computes recurrence p accepted steps point trace)
    (hworks : point.Works) (hstarts : ¬ point.Starts) :
    DeviceFollows recurrence workspace ⟨p, point, poisoned⟩ accepted steps trace where
  starts hpoint := absurd hpoint hstarts
  steps_eq := hcomputes.steps_eq
  computes _ _ := hcomputes
  calls hstops := absurd hworks hstops
  settled hstops := absurd hworks hstops

/-- A worker that leaves `run_impl` without a final chunk. -/
theorem stop (hcalls : ∃ number ≤ 250, trace.decoderCalls <+: recurrence.calls number)
    (hsteps : steps = (List.range steps.length).map recurrence.diagnostics)
    (hopen : ∀ chunk ∈ accepted, chunk.final = false) (hstops : ¬ w.point.Works) :
    DeviceFollows recurrence workspace w accepted (steps ++ []) trace where
  starts hstarts := by
    obtain ⟨p, point, poisoned⟩ := w
    cases point <;> first | exact hstarts.elim | exact absurd trivial hstops
  steps_eq := by
    rw [List.append_nil]
    exact hsteps
  computes hworks := absurd hworks hstops
  calls _ := hcalls
  settled _ := fun ⟨chunk, hmem, hfinal⟩ => by
    rw [hopen chunk hmem] at hfinal
    cases hfinal

/-- A step without commands that reads nothing. -/
theorem keep
    (hfollows : DeviceFollows recurrence workspace ⟨p, point, poisoned⟩ accepted steps trace)
    (hworks : point.Works) (hstarts : ¬ point.Starts)
    (hcache : p'.cacheIndex = p.cacheIndex) (hstate : p'.codecStateIndex = p.codecStateIndex)
    (hsteps : p'.generatedDecoderSteps = p.generatedDecoderSteps)
    (hgenerating : ∀ g ∈ next.generating, g ∈ point.generating)
    (hgenerated : ∀ batch ∈ next.generated, batch ∈ point.generated)
    (hdecoding : next.decoding = point.decoding) (hnext : next.Works)
    (hnextStarts : ¬ next.Starts) :
    DeviceFollows recurrence workspace ⟨p', next, poisoned⟩ accepted (steps ++ []) trace := by
  rw [List.append_nil]
  exact of_computes ((hfollows.computes hworks hstarts).keep hcache hstate hsteps hgenerating
    hgenerated hdecoding) hnext hnextStarts

/-- A worker that has left `run_impl`. -/
theorem rest (hfollows : DeviceFollows recurrence workspace w accepted steps trace)
    (hstopped : ¬ w.point.Works) {w' : WorkerState} (hstops : ¬ w'.point.Works) :
    DeviceFollows recurrence workspace w' accepted (steps ++ []) trace where
  starts hstarts := by
    obtain ⟨p, point, poisoned⟩ := w'
    cases point <;> first | exact hstarts.elim | exact absurd trivial hstops
  steps_eq := by
    rw [List.append_nil]
    exact hfollows.steps_eq
  computes hworks := absurd hworks hstops
  calls _ := hfollows.calls hstopped
  settled _ := hfollows.settled hstopped

/-- A step that runs a member function: it throws without a command and the worker leaves
`run_impl`, or it returns. -/
theorem perform {β : Type} {action : PipelineM β} {continue_ : β → WorkerPoint}
    {returns : β → Pipeline → Prop} {throws : WorkerException → Pipeline → Prop}
    {diagnostics : GenerationBatchDiagnostics}
    (hcalls : ∃ number ≤ 250, trace.decoderCalls <+: recurrence.calls number)
    (hsteps : steps = (List.range steps.length).map recurrence.diagnostics)
    (hopen : ∀ chunk ∈ accepted, chunk.final = false)
    (hmeets : Meets action { p with commands := [] } returns throws)
    (hthrows : ∀ exception p', throws exception p' → p'.commands = [])
    (hreturns : ∀ value p', returns value p' →
      DeviceFollows recurrence workspace ⟨p', continue_ value, poisoned⟩ accepted
        (steps ++ point.stepsRead diagnostics (continue_ value))
        (trace.executeAll recurrence.engines recurrence.arguments p'.commands)) :
    DeviceFollows recurrence workspace
      ((⟨p, point, poisoned⟩ : WorkerState).perform action continue_) accepted
      (steps ++ point.stepsRead diagnostics
        ((⟨p, point, poisoned⟩ : WorkerState).perform action continue_).point)
      (trace.executeAll recurrence.engines recurrence.arguments
        ((⟨p, point, poisoned⟩ : WorkerState).perform action continue_).pipeline.commands) := by
  rcases WorkerState.perform_cases hmeets with
    ⟨value, p', hvalue, hperform⟩ | ⟨exception, p', hexception, hperform⟩
  · rw [hperform]
    exact hreturns value p' hvalue
  · have hread : point.stepsRead diagnostics (.settle (some exception)) = [] := by
      cases point <;> rfl
    rw [hperform, hthrows exception p' hexception, hread]
    exact stop hcalls hsteps hopen id

end DeviceFollows

/-- The frames of open chunks. -/
theorem publishedFrames_of_open (hopen : ∀ chunk ∈ accepted, chunk.final = false)
    (hcontiguous : ∀ k chunk, accepted[k]? = some chunk →
      RequestHistory.ContinuesStream accepted k chunk) :
    publishedFrames accepted = Recurrence.chunkStart accepted.length := by
  cases accepted with
  | nil => rfl
  | cons first rest =>
    have hrest : ∀ chunk ∈ rest, chunk.codecFrameCount = 8 := by
      intro chunk hmem
      obtain ⟨k, hk, rfl⟩ := List.mem_iff_getElem.mp hmem
      refine (hcontiguous (k + 1) rest[k] ?_).steady_frames (Nat.succ_pos k)
        (hopen _ (List.mem_cons_of_mem _ hmem))
      rw [List.getElem?_cons_succ, List.getElem?_eq_getElem hk]
    have hfirst : first.codecFrameCount = 4 := (hcontiguous 0 first rfl).first_frames rfl
    have hpublished := publishedFrames_of_forall_eq hrest
    rw [publishedFrames, List.map_cons, List.sum_cons, hfirst, List.length_cons,
      Recurrence.chunkStart]
    rw [publishedFrames] at hpublished
    omega

/-- In front of a batch, all frames are published. -/
theorem Holds.chunkStart_eq {arguments : PipelineArguments}
    {pending : Option PendingGenerationBatch} {decoding idle : Bool}
    (hstream : StreamInvariant arguments Q h steps)
    (hholds : Holds h p steps ⟨pending, none, 0, false, decoding, idle⟩) :
    Recurrence.chunkStart h.accepted.length = steps.length * 2 := by
  have hpublished := publishedFrames_of_open (hstream.open_of_running hholds.running)
    hstream.invariant.stream
  have hframes := hholds.frames_eq
  have hended : reportsEos steps = false := hholds.ended_eq
  rw [retainedFrames_of_not hended] at hframes
  simp only at hframes
  omega

/-- The frames of a batch are those of its steps. -/
theorem BatchShape.frameCount_le {stepCount : ℕ} {batch : GenerationBatchResult}
    (hshape : BatchShape stepCount batch) : batch.frameCount ≤ stepCount * 2 := by
  have hlength := hshape.length_le
  rcases hfinal : batch.final with _ | _
  · have := (hshape.open_frames hfinal).2
    omega
  · have := (hshape.final_frames hfinal).2
    omega

namespace WorkerInvariant

variable (hmanifest : recurrence.arguments.manifest = acceptedManifest)
  (hcontract : rejectsContract recurrence.contract = false)
  (hinv : WorkerInvariant recurrence.arguments Q h w steps)
  (hfollows : DeviceFollows recurrence workspace w h.accepted steps trace)

/-- The calls in front of a step. -/
theorem exists_calls (hinv : WorkerInvariant recurrence.arguments Q h w steps)
    (hfollows : DeviceFollows recurrence workspace w h.accepted steps trace) :
    ∃ number ≤ 250, trace.decoderCalls <+: recurrence.calls number :=
  hfollows.exists_calls hinv.point.generated_le

include hmanifest in
/-- The codec run of a batch that was read. -/
theorem follows_scheduled {batch : GenerationBatchResult} {first idle : Bool}
    (hcomputes : Computes recurrence p h.accepted steps point trace)
    (hholds : Holds h p steps ⟨none, some batch.batchSlot, batch.frameCount, batch.final, false,
      idle⟩) (hframes : CodecFrames batch first) (hfirst : first = decide (h.accepted = []))
    (hfirstFrames : h.accepted = [] → batch.frameCount = 4) (hpoint : point.decoding = none)
    (hbatch : point.generated = some batch) (continue_ : PendingCodecBatch → WorkerPoint)
    (hcontinue : ∀ codec, (continue_ codec).Works ∧ ¬ (continue_ codec).Starts ∧
      (continue_ codec).generating = none ∧ (continue_ codec).generated = none ∧
      (continue_ codec).decoding = some codec)
    (hread : ∀ codec diagnostics, point.stepsRead diagnostics (continue_ codec) = [])
    (diagnostics : GenerationBatchDiagnostics) :
    Meets (scheduleCodec recurrence.arguments batch first) { p with commands := [] }
      (fun codec p' => DeviceFollows recurrence workspace ⟨p', continue_ codec, poisoned⟩ h.accepted
        (steps ++ point.stepsRead diagnostics (continue_ codec))
        (trace.executeAll recurrence.engines recurrence.arguments p'.commands))
      fun _ _ => False := by
  have hempty := hholds.forget [] p.committedTextTokens
  rw [meets_of_run_eq (run_scheduleCodec hmanifest hempty.slots.filledSlot hframes
    hempty.audioPending_eq)]
  obtain ⟨hworks, hstarts, hgenerating, hgenerated, hdecoding⟩ :=
    hcontinue ⟨batch, batch.frameCount * 1024, first⟩
  rw [hread, List.append_nil]
  refine .of_computes ?_ hworks hstarts
  exact hcomputes.schedule hpoint hbatch hfirst hfirstFrames
    (fun hne hfinal => hframes.steady hfinal (hfirst.trans (decide_eq_false hne))) rfl rfl rfl
    (List.nil_append _) hgenerating hgenerated hdecoding

include hmanifest in
/-- The steps behind a batch that was read. -/
theorem follows_observeGeneration {batch : GenerationBatchResult} {reading : DeviceReading}
    (hinv : WorkerInvariant recurrence.arguments Q h ⟨p, .observeGeneration batch, poisoned⟩ steps)
    (hfollows : DeviceFollows recurrence workspace ⟨p, .observeGeneration batch, poisoned⟩
      h.accepted steps trace)
    (hholds : Holds h p steps ⟨none, some batch.batchSlot, batch.frameCount, batch.final, false,
      true⟩) (hshape : BatchShape 4 batch) (haccepted : h.accepted ≠ []) :
    DeviceFollows recurrence workspace
      (WorkerState.advance recurrence.arguments reading h.request
        ⟨p, .observeGeneration batch, poisoned⟩) h.accepted
      (steps ++ (WorkerPoint.observeGeneration batch).stepsRead reading.diagnostics
        (WorkerState.advance recurrence.arguments reading h.request
          ⟨p, .observeGeneration batch, poisoned⟩).point)
      (trace.executeAll recurrence.engines recurrence.arguments
        (WorkerState.advance recurrence.arguments reading h.request
          ⟨p, .observeGeneration batch, poisoned⟩).pipeline.commands) := by
  have hopen := hinv.open_of_works trivial
  have hcalls := hinv.exists_calls hfollows
  have hcomputes := hfollows.computes trivial id
  have hlength := hshape.length_le
  have hfirst : false = decide (h.accepted = []) := (decide_eq_false haccepted).symm
  have hfirstFrames : h.accepted = [] → batch.frameCount = 4 :=
    fun hempty => absurd hempty haccepted
  simp only [WorkerState.advance]
  split_ifs with hcancelled hzero hfinal
  · exact .stop hcalls hfollows.steps_eq hopen id
  · -- only a batch with an end of speech has no frames
    have hfinal : batch.final = true := by
      by_contra hne
      have := (hshape.open_frames (Bool.eq_false_iff.mpr hne)).2
      omega
    rw [WorkerState.perform_of_run_eq (run_failIf_of_not (by simp [hfinal, hzero]))]
    rw [WorkerPoint.stepsRead, List.append_nil]
    · exact .of_computes (hcomputes.keep rfl rfl rfl (fun g hg => by cases hg)
        (fun batch hbatch => by cases hbatch) rfl) trivial id
    · exact fun _ _ _ h => by cases h
    · exact fun _ _ h => by cases h
  · have hframes : CodecFrames batch false := by
      have := (hshape.final_frames hfinal).2
      exact ⟨by omega, by omega, fun hopen' => by rw [hfinal] at hopen'; cases hopen'⟩
    exact .perform hcalls hfollows.steps_eq hopen
      (follows_scheduled hmanifest hcomputes hholds hframes hfirst hfirstFrames rfl rfl
        (.awaitCodec · none) (fun _ => ⟨trivial, id, rfl, rfl, rfl⟩) (fun _ _ => rfl)
        reading.diagnostics) (fun _ _ h => h.elim) fun _ _ hnext => hnext
  · have hframes : CodecFrames batch false := by
      have := (hshape.open_frames (Bool.eq_false_iff.mpr hfinal)).2
      exact ⟨by omega, by omega, fun _ _ => by omega⟩
    have hscheduled := @follows_scheduled _ recurrence workspace _ _ _ poisoned _ _ hmanifest _ _ _
      hcomputes hholds hframes hfirst hfirstFrames rfl rfl .generateFollowing
      (fun _ => ⟨trivial, id, rfl, rfl, rfl⟩) (fun _ _ => rfl) reading.diagnostics
    have hmeets := (meets_bind (requireSteadyBatchCapacity recurrence.arguments)
      fun _ => scheduleCodec recurrence.arguments batch false).mpr
      ((meets_requireSteadyBatchCapacity (p := { p with commands := [] }) hmanifest).mono
        (fun _ p' h => by
          rw [h.1]
          exact hscheduled.mono (fun _ _ h => h) fun _ _ h => h.elim)
        fun _ _ h => h)
    refine .perform hcalls hfollows.steps_eq hopen hmeets ?_ fun _ _ hnext => hnext
    rintro exception p' ⟨rfl, -⟩
    rfl

include hmanifest hcontract in
/-- A steady batch is generated. -/
theorem follows_generated {slot : BatchSlot} {frames : ℕ} {ended decoding idle : Bool}
    (hcomputes : Computes recurrence p h.accepted steps point trace)
    (hholds : Holds h p steps ⟨none, none, frames, ended, decoding, idle⟩)
    (continue_ : PendingGenerationBatch → WorkerPoint)
    (hcontinue : ∀ pending, (continue_ pending).Works ∧ ¬ (continue_ pending).Starts ∧
      (continue_ pending).generating = some pending ∧ (continue_ pending).generated = none ∧
      (continue_ pending).decoding = point.decoding)
    (hread : ∀ pending diagnostics, point.stepsRead diagnostics (continue_ pending) = [])
    (diagnostics : GenerationBatchDiagnostics) :
    Meets (generateSteadyBatch recurrence.arguments slot) { p with commands := [] }
      (fun pending p' => DeviceFollows recurrence workspace ⟨p', continue_ pending, poisoned⟩
        h.accepted (steps ++ point.stepsRead diagnostics (continue_ pending))
        (trace.executeAll recurrence.engines recurrence.arguments p'.commands))
      fun _ p' => p'.commands = [] := by
  have hempty := hholds.forget [] p.committedTextTokens
  refine (meets_generateSteadyBatch hmanifest (hempty.slots.free slot)).mono ?_ ?_
  · rintro pending p' ⟨rfl, rfl, -⟩
    obtain ⟨hworks, hstarts, hgenerating, hgenerated, hdecoding⟩ :=
      hcontinue ⟨slot, 4, p.generatedDecoderSteps + 4⟩
    rw [hread, List.append_nil]
    refine .of_computes ?_ hworks hstarts
    have hpositive := hcomputes.positive
    obtain ⟨number, hnumber⟩ : ∃ number, p.generatedDecoderSteps = number + 1 :=
      ⟨p.generatedDecoderSteps - 1, by omega⟩
    have hgenerates := (hcomputes.spoken number hnumber.symm).generatesBatch
      (p := { p with commands := [] }) hnumber hcontract slot
    rw [← hnumber] at hgenerates
    exact hcomputes.generate hgenerates hholds.generated_eq.symm rfl rfl rfl rfl hgenerating
      hgenerated hdecoding
  · rintro exception p' ⟨rfl, -⟩
    rfl

include hmanifest hcontract in
/-- **A step of the worker without a call.** -/
theorem follows_advance
    (hstale : recurrence = workspace.recurrence recurrence.engines recurrence.arguments)
    (hinv : WorkerInvariant recurrence.arguments Q h w steps) (hcall : w.point.call = none)
    (hfollows : DeviceFollows recurrence workspace w h.accepted steps trace) :
    DeviceFollows recurrence workspace
      (w.advance recurrence.arguments (trace.workspace.reading w.point) h.request) h.accepted
      (steps ++ w.point.stepsRead (trace.workspace.reading w.point).diagnostics
        (w.advance recurrence.arguments (trace.workspace.reading w.point) h.request).point)
      (trace.executeAll recurrence.engines recurrence.arguments
        (w.advance recurrence.arguments (trace.workspace.reading w.point)
          h.request).pipeline.commands) := by
  have hopen := hinv.open_of_works
  have hcalls := hinv.exists_calls hfollows
  obtain ⟨p, point, poisoned⟩ := w
  have hat := hinv.point
  cases hat with
  | setDevice =>
    exact
      { starts := fun _ => hfollows.starts trivial
        steps_eq := by
          rw [WorkerPoint.stepsRead, List.append_nil]
          · exact hfollows.steps_eq
          · exact fun _ _ h => by cases h
          · exact fun _ _ h => by cases h
        computes := fun _ hstarts => absurd trivial hstarts
        calls := fun hstops => absurd trivial hstops
        settled := fun hstops => absurd trivial hstops }
  | start hinitial hsteps haccepted =>
    subst hinitial hsteps
    rw [WorkerState.advance, WorkerState.perform_of_run_eq (run_start hmanifest),
      hfollows.starts trivial, haccepted]
    exact .of_computes (.start hstale hcontract rfl rfl) trivial id
  | awaitFirst hholds =>
    have hcomputes := hfollows.computes trivial id
    have hempty := hholds.forget [] p.committedTextTokens
    refine .perform hcalls hfollows.steps_eq (hopen trivial)
      (meets_awaitFirst hmanifest hempty.slots.fillingSlot) ?_ ?_
    · rintro exception p' ⟨rfl, -⟩
      rfl
    · rintro batch p' ⟨rfl, hshape, rfl, -⟩
      refine .of_computes ?_ trivial id
      exact hcomputes.read rfl rfl rfl rfl rfl rfl hshape.frameCount_le
        (hholds.chunkStart_eq hinv.stream) rfl rfl rfl
  | observeFirst batch hholds hshape hfinal hframes haccepted =>
    have hcodecFrames : CodecFrames batch true :=
      ⟨by omega, by omega, fun _ hfirst => Bool.noConfusion hfirst⟩
    simp only [WorkerState.advance]
    split_ifs
    · exact .stop hcalls hfollows.steps_eq (hopen trivial) id
    · exact .perform hcalls hfollows.steps_eq (hopen trivial) (follows_scheduled hmanifest
        (hfollows.computes trivial id) hholds hcodecFrames (decide_eq_true haccepted).symm
        (fun _ => hframes) rfl rfl (.awaitCodec · none) (fun _ => ⟨trivial, id, rfl, rfl, rfl⟩)
        (fun _ _ => rfl) _) (fun _ _ h => h.elim) fun _ _ hnext => hnext
  | awaitCodec codec following =>
    refine .perform hcalls hfollows.steps_eq (hopen trivial) (meets_awaitCodec codec _ _) ?_ ?_
    · rintro exception p' ⟨rfl, -⟩
      rfl
    · rintro _ p' rfl
      exact hfollows.keep trivial id rfl rfl rfl (fun _ h => h) (fun _ h => h) rfl trivial id
  | observeDecoded codec following hfollowing hholds hcodec hcommitted =>
    obtain ⟨stepCount, hshape⟩ := hcodec.shape
    have hsample : p.nextSampleIndex = publishedFrames h.accepted * 1024 :=
      hholds.nextSampleIndex_eq
    have hle : p.committedTextTokens ≤ recurrence.arguments.textTokenIds.length :=
      hcommitted ▸ hinv.stream.committed_le
    have hmeets := meets_audioChunk (p := { p with commands := [] }) hmanifest hshape
      hcodec.frames.pos hcodec.samples_eq (by simp only; omega) hle
    simp only [WorkerState.advance]
    split_ifs
    · exact .stop hcalls hfollows.steps_eq (hopen trivial) id
    · refine .perform hcalls hfollows.steps_eq (hopen trivial) hmeets (fun _ _ h => h.elim) ?_
      rintro chunk p' ⟨rfl, -⟩
      exact hfollows.keep trivial id rfl rfl rfl (fun _ h => h) (fun _ h => h) rfl trivial id
  | publish => cases hcall
  | observePublished following hfollowing hholds =>
    simp only [WorkerState.advance]
    split_ifs
    · exact .stop hcalls hfollows.steps_eq (hopen trivial) id
    cases following with
    | some pending =>
      exact hfollows.keep trivial id rfl rfl rfl (fun _ h => h) (fun _ h => h) rfl trivial id
    | none =>
      have hgenerated := @follows_generated _ recurrence workspace _ _ _ poisoned _ _ hmanifest
        hcontract 1 _ _ _ _ (hfollows.computes trivial id) hholds .canPublish
        (fun _ => ⟨trivial, id, rfl, rfl, rfl⟩) (fun _ _ => rfl)
        (trace.workspace.reading (.observePublished none)).diagnostics
      have hmeets := (meets_bind (requireSteadyBatchCapacity recurrence.arguments)
        fun _ => generateSteadyBatch recurrence.arguments 1).mpr
        ((meets_requireSteadyBatchCapacity (p := { p with commands := [] }) hmanifest).mono
          (fun _ p' h => by rw [h.1]; exact hgenerated) fun _ _ h => by rw [h.1])
      exact .perform hcalls hfollows.steps_eq (hopen trivial) hmeets (fun _ _ h => h)
        fun _ _ hnext => hnext
  | waiting pending point hpoint =>
    cases point <;> cases hpoint <;> simp only [WorkerState.advance]
    case waiting.canPublish.refl =>
      split_ifs
      · exact hfollows.keep trivial id rfl rfl rfl (fun _ h => h) (fun _ h => h) rfl trivial id
      · exact hfollows.keep trivial id rfl rfl rfl (fun _ h => h) (fun _ h => h) rfl trivial id
    case waiting.observeFull.refl =>
      split_ifs
      · exact .stop hcalls hfollows.steps_eq (hopen trivial) id
      · exact hfollows.keep trivial id rfl rfl rfl (fun _ h => h) (fun _ h => h) rfl trivial id
    case waiting.readRevision.refl =>
      rw [hinv.stream.invariant.snapshot_eq]
      exact hfollows.keep trivial id rfl rfl rfl (fun _ h => h) (fun _ h => h) rfl trivial id
    case waiting.recheckCapacity.refl =>
      split_ifs
      · exact hfollows.keep trivial id rfl rfl rfl (fun _ h => h) (fun _ h => h) rfl trivial id
      · exact hfollows.keep trivial id rfl rfl rfl (fun _ h => h) (fun _ h => h) rfl trivial id
    case waiting.observeRechecked.refl =>
      split_ifs
      · exact .stop hcalls hfollows.steps_eq (hopen trivial) id
      · exact hfollows.keep trivial id rfl rfl rfl (fun _ h => h) (fun _ h => h) rfl trivial id
    case waiting.waitForRevision.refl =>
      exact hfollows.keep trivial id rfl rfl rfl (fun _ h => h) (fun _ h => h) rfl trivial id
  | observeCapacity pending =>
    simp only [WorkerState.advance]
    split_ifs
    · exact .stop hcalls hfollows.steps_eq (hopen trivial) id
    · exact hfollows.keep trivial id rfl rfl rfl (fun _ h => h) (fun _ h => h) rfl trivial id
  | awaitGeneration pending hfour hholds =>
    have hcomputes := hfollows.computes trivial id
    have hempty := hholds.forget [] p.committedTextTokens
    refine .perform hcalls hfollows.steps_eq (hopen trivial) (meets_awaitGenerationBatch
      recurrence.arguments _ hmanifest hfour.le hempty.slots.fillingSlot) ?_ ?_
    · rintro exception p' ⟨rfl, -⟩
      rfl
    · rintro batch p' ⟨rfl, hrecord, rfl, -⟩
      refine .of_computes ?_ trivial id
      exact hcomputes.read rfl rfl rfl rfl rfl rfl (batchShape_batchOf hrecord).frameCount_le
        (hholds.chunkStart_eq hinv.stream) rfl rfl rfl
  | observeGeneration batch hholds hshape haccepted =>
    exact follows_observeGeneration hmanifest hinv hfollows hholds hshape haccepted
  | generateFollowing codec hholds =>
    exact .perform hcalls hfollows.steps_eq (hopen trivial) (follows_generated hmanifest hcontract
      (hfollows.computes trivial id) hholds (fun following => .awaitCodec codec (some following))
      (fun _ => ⟨trivial, id, rfl, rfl, rfl⟩) (fun _ _ => rfl) _) (fun _ _ h => h)
      fun _ _ hnext => hnext
  | observeZeroFrame batch hholds haccepted hcommitted =>
    have hle : p.committedTextTokens ≤ recurrence.arguments.textTokenIds.length :=
      hcommitted ▸ hinv.stream.committed_le
    simp only [WorkerState.advance]
    split_ifs
    · exact .stop hcalls hfollows.steps_eq (hopen trivial) id
    · obtain ⟨chunk, hrun, -⟩ :=
        run_zeroFrameFinal (p := { p with commands := [] }) recurrence.arguments hle
      rw [WorkerState.perform_of_run_eq hrun]
      exact hfollows.keep trivial id rfl rfl rfl (fun _ h => h) (fun _ h => h) rfl trivial id
  | publishZeroFrame => cases hcall
  | settle outcome hsettles =>
    obtain ⟨hcommands, hstops⟩ := advance_settle_silent hsettles
    rw [hcommands]
    exact hfollows.rest id hstops
  | observeSettled =>
    simp only [WorkerState.advance]
    split_ifs
    · exact hfollows.rest id id
    · exact hfollows.rest id id
  | completeCancellation => cases hcall
  | failed exception =>
    simp only [WorkerState.advance]
    split_ifs
    · exact hfollows.rest id id
    · exact hfollows.rest id id
  | failRequest => cases hcall
  | done => exact hfollows.rest id id

/-- The calls of the codec behind the publication of a chunk. -/
theorem codecCalls_publish {codec : PendingCodecBatch} {chunk : AudioChunk}
    (hcomputes : Computes recurrence p accepted steps point trace)
    (hpoint : point.decoding = some codec) (hpositive : 0 < codec.generation.frameCount)
    (hframes : chunk.codecFrameCount = codec.generation.frameCount)
    (hfinal : chunk.final = codec.generation.final) :
    trace.codecCalls = recurrence.streamCalls 0 (accepted ++ [chunk]) := by
  rw [hcomputes.codecCalls_eq, hpoint, recurrence.streamCalls_concat, hframes, hfinal,
    if_neg (by omega), Nat.zero_add]
  rfl

/-- **A step of the worker with a call**, whatever the request replies. -/
theorem follows_resume (hinv : WorkerInvariant recurrence.arguments Q h w steps)
    {call : RequestCall} (hcall : w.point.call = some call)
    (hfollows : DeviceFollows recurrence workspace w h.accepted steps trace)
    (reply : RequestReply) :
    DeviceFollows recurrence workspace (w.resume recurrence.arguments reply)
      (h.accepted ++ RequestHistory.acceptedBy call reply) (steps ++ []) trace := by
  have hopen := hinv.open_of_works
  have hcalls := hinv.exists_calls hfollows
  have hsteps : steps ++ [] = (List.range (steps ++ []).length).map recurrence.diagnostics := by
    rw [List.append_nil]
    exact hfollows.steps_eq
  obtain ⟨p, point, poisoned⟩ := w
  have hat := hinv.point
  cases hat with
  | publish chunk codec following hfollowing hholds hcodec hchunk hat =>
    obtain rfl := Option.some.inj hcall
    have hcomputes := hfollows.computes trivial id
    cases reply with
    | published accepted =>
      cases accepted with
      | true =>
        simp only [WorkerState.resume]
        split_ifs with hlast
        · exact
            { starts := fun hstarts => hstarts.elim
              steps_eq := hsteps
              computes := fun hworks => hworks.elim
              calls := fun _ => hcalls
              settled := fun _ _ => codecCalls_publish hcomputes rfl hcodec.frames.pos
                hat.codecFrameCount_eq hat.final_eq }
        · have hgoes : codec.generation.final = false := by
            rcases hfirst : codec.first with _ | _
            · simpa [hfirst] using hlast
            · exact (hcodec.first_frames hfirst).2
          rw [List.append_nil steps]
          refine .of_computes ?_ trivial id
          exact hcomputes.publish rfl hcodec.frames.pos hgoes hat.codecFrameCount_eq hat.final_eq
            rfl rfl rfl rfl rfl rfl
      | false =>
        simp only [RequestHistory.acceptedBy, List.append_nil h.accepted]
        exact .stop hcalls hfollows.steps_eq (hopen trivial) id
    | _ =>
      simp only [RequestHistory.acceptedBy, List.append_nil h.accepted]
      exact .stop hcalls hfollows.steps_eq (hopen trivial) id
  | publishZeroFrame chunk batch hholds haccepted hchunk hat =>
    obtain rfl := Option.some.inj hcall
    have hcomputes := hfollows.computes trivial id
    cases reply with
    | published accepted =>
      cases accepted with
      | true =>
        exact
          { starts := fun hstarts => hstarts.elim
            steps_eq := hsteps
            computes := fun hworks => hworks.elim
            calls := fun _ => hcalls
            settled := fun _ _ => by
              rw [hcomputes.codecCalls_eq, RequestHistory.acceptedBy, recurrence.streamCalls_concat,
                if_pos hat.codecFrameCount_eq]
              rfl }
      | false =>
        simp only [RequestHistory.acceptedBy, List.append_nil h.accepted]
        exact .stop hcalls hfollows.steps_eq (hopen trivial) id
    | _ =>
      simp only [RequestHistory.acceptedBy, List.append_nil h.accepted]
      exact .stop hcalls hfollows.steps_eq (hopen trivial) id
  | completeCancellation =>
    obtain rfl := Option.some.inj hcall
    simp only [RequestHistory.acceptedBy, List.append_nil h.accepted]
    cases reply with
    | drained cancelled => cases cancelled <;> exact hfollows.rest id id
    | _ => exact hfollows.rest id id
  | failRequest =>
    obtain rfl := Option.some.inj hcall
    simp only [RequestHistory.acceptedBy, List.append_nil h.accepted]
    cases reply <;> exact hfollows.rest id id
  | waiting pending point hpoint =>
    cases point <;> first | (cases hpoint; done) | cases hcall
  | _ => cases hcall

/-- The steps with a call enqueue nothing. -/
theorem commands_resume {arguments : PipelineArguments} (hcall : w.point.call ≠ none)
    (reply : RequestReply) : (w.resume arguments reply).pipeline.commands = [] := by
  obtain ⟨p, point, poisoned⟩ := w
  cases point with
  | publish chunk codec following =>
    cases reply with
    | published accepted =>
      cases accepted with
      | true =>
        simp only [WorkerState.resume]
        split_ifs <;> rfl
      | false => rfl
    | _ => rfl
  | publishZeroFrame chunk batch =>
    cases reply with
    | published accepted => cases accepted <;> rfl
    | _ => rfl
  | completeCancellation =>
    cases reply with
    | drained cancelled => cases cancelled <;> rfl
    | _ => rfl
  | failRequest failure => cases reply <;> rfl
  | _ => exact absurd rfl hcall

end WorkerInvariant

end Follows

end MagpieTts.Runtime
