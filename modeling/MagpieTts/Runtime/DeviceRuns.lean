import MagpieTts.Runtime.CodecExecutions
import MagpieTts.Runtime.GenerationBatches

/-!
# Synthesis runs with the device

The worker and its consumer with the buffers of the session: the commands of a step are executed on
the workspace, and the worker reads its records and its samples there. What the buffers hold before
the request is arbitrary.

## Main definitions

* `DeviceRun`, `DeviceRun.step`: a run with the workspace.
* `StreamingRequestState.heldAudio`: the chunks whose samples a consumer may read.
* `DecodesChunk`: what the codec does to the workspace.

## Main results

* `decodesChunk_executeAll`: a codec run computes the samples of the next chunk.
-/

namespace MagpieTts.Runtime

open MagpieTts.Library MagpieTts.Plugins Pipeline

variable {types : SessionTypes}

/-! ### Runs -/

/-- A step of the worker, a step of it that fails, a publication whose queue cannot grow, or a call
of the consumer. The results of the device come from the workspace. -/
inductive DeviceAction where
  | worker
  | fault (enqueued : ℕ) (fault : DeviceFault)
  | publicationFault
  | consumer (call : ConsumerCall)

def DeviceAction.Reported : DeviceAction → Prop
  | .fault _ failure => failure.Reported
  | _ => True

/-- What the worker reads at a point: the record of the batch that it waits for, and whether the
samples of the chunk that it waits for are finite. -/
def SessionWorkspace.reading (self : SessionWorkspace types) (point : WorkerPoint) :
    DeviceReading where
  diagnostics :=
    match point with
    | .awaitFirst pending => self.pinnedGenerationDiagnostics pending.batchSlot
    | .awaitGeneration pending => self.pinnedGenerationDiagnostics pending.batchSlot
    | _ => self.pinnedGenerationDiagnostics 0
  validSampleLength := self.pinnedValidSampleLength
  pcmFinite :=
    match point with
    | .awaitCodec codec _ => (boundTensor codec.expectedSamples self.pinnedPcm).all types.isfinite
    | _ => true

/-- A run, and the workspace with the calls of the engines. -/
structure DeviceRun (types : SessionTypes) where
  observation : SynthesisObservation
  trace : SessionTrace types

namespace DeviceRun

def start (request : StreamingRequestState) (leaseIds : LeaseIdSequence)
    (workspace : SessionWorkspace types) : DeviceRun types where
  observation := .start request leaseIds
  trace := .start workspace

def reading (self : DeviceRun types) : DeviceReading :=
  self.trace.workspace.reading self.observation.run.worker.point

def action (self : DeviceRun types) : DeviceAction → SynthesisAction
  | .worker => .worker self.reading
  | .fault enqueued fault => .fault self.reading enqueued fault
  | .publicationFault => .publicationFault
  | .consumer call => .consumer call

def step (engines : SessionEngines types) (arguments : PipelineArguments) (self : DeviceRun types)
    (action : DeviceAction) : DeviceRun types where
  observation := self.observation.step arguments (self.action action)
  trace := self.trace.executeAll engines arguments
    (self.observation.run.commands arguments (self.action action))

end DeviceRun

theorem DeviceAction.Reported.action {action : DeviceAction} (h : action.Reported)
    (self : DeviceRun types) : (self.action action).Reported := by
  cases action with
  | fault enqueued fault => exact h
  | _ => trivial

/-- The chunks in the queue and behind live leases. -/
def StreamingRequestState.heldAudio (self : StreamingRequestState) : List AudioChunk :=
  self.availableAudio ++ self.liveLeases.map StoredLease.chunk

/-! ### Prefixes of commands -/

namespace SessionTrace

variable {engines : SessionEngines types} {arguments : PipelineArguments}
  {trace : SessionTrace types} {commands : List DeviceCommand}

theorem decoderCalls_prefix_executeAll (trace : SessionTrace types)
    (commands : List DeviceCommand) :
    trace.decoderCalls <+: (trace.executeAll engines arguments commands).decoderCalls := by
  induction commands generalizing trace with
  | nil => exact List.prefix_refl _
  | cons command rest ih =>
    exact (List.prefix_append _ _).trans (ih (trace.execute engines arguments command))

/-- A part of the commands makes the first of their calls. -/
theorem decoderCalls_take_prefix (trace : SessionTrace types) (commands : List DeviceCommand)
    (enqueued : ℕ) :
    (trace.executeAll engines arguments (commands.take enqueued)).decoderCalls <+:
      (trace.executeAll engines arguments commands).decoderCalls := by
  conv_rhs => rw [← List.take_append_drop enqueued commands, executeAll_append]
  exact decoderCalls_prefix_executeAll _ _

/-- Commands without a copy of samples leave the pinned samples. -/
theorem pinnedPcm_executeAll (trace : SessionTrace types)
    (hcommands : ∀ sampleCount, .copyPcm sampleCount ∉ commands) :
    (trace.executeAll engines arguments commands).workspace.pinnedPcm =
      trace.workspace.pinnedPcm := by
  induction commands generalizing trace with
  | nil => rfl
  | cons command rest ih =>
    rw [executeAll_cons, ih _ fun sampleCount hmem =>
      hcommands sampleCount (List.mem_cons_of_mem _ hmem)]
    cases command <;> first | rfl | exact absurd List.mem_cons_self (hcommands _)

end SessionTrace

/-! ### A codec run -/

/-- What a codec run on the frames of a chunk does to the workspace and to the calls. -/
structure DecodesChunk (recurrence : Recurrence types) (number frameCount : ℕ) (final : Bool)
    (stateIndex : BufferIndex) (trace after : SessionTrace types) : Prop where
  spoken_of : ∀ cacheIndex last, trace.workspace.Spoken recurrence cacheIndex last →
    after.workspace.Spoken recurrence cacheIndex last
  diagnostics_eq : after.workspace.pinnedGenerationDiagnostics =
    trace.workspace.pinnedGenerationDiagnostics
  aggregate_eq : after.workspace.aggregateCodecTokens = trace.workspace.aggregateCodecTokens
  decoderCalls_eq : after.decoderCalls = trace.decoderCalls
  codecCalls_eq : after.codecCalls =
    trace.codecCalls ++ [recurrence.chunkCall number frameCount final]
  states_eq : after.workspace.codecStates stateIndex =
    (recurrence.engines.nanocodec (recurrence.chunkCall number frameCount final)).states
  validSampleLength_eq : after.workspace.pinnedValidSampleLength =
    (recurrence.engines.nanocodec
      (recurrence.chunkCall number frameCount final)).validSampleLength
  pcm_eq : boundTensor (frameCount * 1024) after.workspace.pinnedPcm =
    recurrence.chunkPcm number frameCount final

section Codec

variable {recurrence : Recurrence types} {workspace : SessionWorkspace types}
  {batchSlot : BatchSlot} {first frameCount : ℕ}

/-- The frames in a slot are packed into the tensor of the codec. -/
theorem SessionWorkspace.SlotFrames.packed
    (h : workspace.SlotFrames recurrence batchSlot first frameCount) (packed : ℕ → ℤ) :
    boundTensor (kLocalArCodebooks * frameCount)
        (launchPackCodecFrames (workspace.aggregateCodecTokens batchSlot) packed frameCount) =
      recurrence.codecTokens first frameCount := by
  refine boundTensor_congr fun index hindex => ?_
  have hpositive : 0 < frameCount := by
    rcases Nat.eq_zero_or_pos frameCount with hzero | hpositive
    · rw [hzero] at hindex
      exact absurd hindex (Nat.not_lt_zero index)
    · exact hpositive
  have hcodebook : index / frameCount < kLocalArCodebooks :=
    Nat.div_lt_of_lt_mul (Nat.mul_comm _ _ ▸ hindex)
  have hframe : index % frameCount < frameCount := Nat.mod_lt _ hpositive
  have hpack := phaseOutcome_sequential ((List.range (kLocalArCodebooks * frameCount)).map
    (packCodecFramesThread (workspace.aggregateCodecTokens batchSlot) frameCount)) packed
  have hpacked : launchPackCodecFrames (workspace.aggregateCodecTokens batchSlot) packed frameCount
      (index / frameCount * frameCount + index % frameCount) =
        workspace.aggregateCodecTokens batchSlot
          (index / frameCount * kSteadyFrames + index % frameCount) := by
    refine hpack.rowMajor_apply (f := fun codebook column =>
      workspace.aggregateCodecTokens batchSlot (codebook * kSteadyFrames + column))
      (fun t ht s hs => ?_) hframe ?_
    · obtain ⟨thread, hthread, rfl⟩ := List.mem_map.mp ht
      rw [packCodecFramesThread, if_neg (Nat.not_le.mpr (List.mem_range.mp hthread)),
        List.mem_singleton] at hs
      refine ⟨thread / frameCount, thread % frameCount, Nat.mod_lt _ hpositive, ?_⟩
      rw [hs, Nat.div_add_mod']
    · refine ⟨_, List.mem_map.mpr ⟨index, List.mem_range.mpr hindex, rfl⟩, ?_⟩
      rw [packCodecFramesThread, if_neg (Nat.not_le.mpr hindex), Nat.div_add_mod']
      exact ⟨_, List.mem_singleton.mpr rfl, rfl⟩
  rw [Nat.div_add_mod', h _ hframe _ hcodebook] at hpacked
  exact hpacked

theorem SessionWorkspace.SlotFrames.mono {count : ℕ}
    (h : workspace.SlotFrames recurrence batchSlot first count) (hle : frameCount ≤ count) :
    workspace.SlotFrames recurrence batchSlot first frameCount :=
  fun frame hframe => h frame (hframe.trans_le hle)

/-- The commands of a codec run whose call is that of a chunk. -/
theorem decodesChunk_of_call {trace : SessionTrace types} (route : CodecRoute)
    (stateInput : BufferIndex) {number : ℕ} {final : Bool}
    (hcall : ({ trace.workspace with
      codecInputTokens := launchPackCodecFrames (trace.workspace.aggregateCodecTokens batchSlot)
        trace.workspace.codecInputTokens frameCount } : SessionWorkspace types).codecCall route
          frameCount stateInput = recurrence.chunkCall number frameCount final) :
    DecodesChunk recurrence number frameCount final
      (if route = .initial then 0 else 1 - stateInput) trace
      (trace.executeAll recurrence.engines recurrence.arguments
        [.packCodecFrames batchSlot frameCount, .runCodec route frameCount stateInput,
          .copyValidSampleLength, .copyPcm (frameCount * 1024)]) := by
  simp only [SessionTrace.executeAll_cons, SessionTrace.executeAll_nil, SessionTrace.execute,
    DeviceCommand.execute, DeviceCommand.decoderCall, DeviceCommand.codecCall, hcall,
    Option.toList_none, Option.toList_some, List.append_nil]
  exact
    { spoken_of := fun cacheIndex last hspoken => { hspoken with }
      diagnostics_eq := rfl
      aggregate_eq := rfl
      decoderCalls_eq := rfl
      codecCalls_eq := rfl
      states_eq := by
        show Function.update trace.workspace.codecStates _ _ _ = _
        rw [Function.update_self]
      validSampleLength_eq := rfl
      pcm_eq := boundTensor_congr fun index hindex => if_pos hindex }

/-- The commands of a codec run on the frames of a chunk, behind the open chunks before it. -/
theorem decodesChunk_executeAll {trace : SessionTrace types} {batch : GenerationBatchResult}
    {number : ℕ} {stateInput : BufferIndex}
    (hframes : trace.workspace.SlotFrames recurrence batch.batchSlot
      (Recurrence.chunkStart number) batch.frameCount)
    (hstates : ∀ previous, number = previous + 1 →
      trace.workspace.codecStates stateInput = recurrence.codecStates previous) :
    DecodesChunk recurrence number batch.frameCount batch.final
      (if decide (number = 0) = true then 0 else 1 - stateInput) trace
      (trace.executeAll recurrence.engines recurrence.arguments
        (codecCommands batch (decide (number = 0)) stateInput)) := by
  have hpacked := hframes.packed trace.workspace.codecInputTokens
  rcases number with _ | previous
  · refine decodesChunk_of_call .initial 0 ?_
    simp only [SessionWorkspace.codecCall, hpacked]
    rfl
  · have hinput := hstates previous rfl
    rcases hfinal : batch.final with _ | _
    · simp only [codecCommands, hfinal, Nat.add_eq_zero_iff, one_ne_zero, and_false, decide_false,
        Bool.false_eq_true, if_false]
      refine decodesChunk_of_call .steady stateInput ?_
      simp only [SessionWorkspace.codecCall, hpacked, hinput]
      rfl
    · simp only [codecCommands, hfinal, Nat.add_eq_zero_iff, one_ne_zero, and_false, decide_false,
        Bool.false_eq_true, if_false, if_true]
      refine decodesChunk_of_call .tail stateInput ?_
      simp only [SessionWorkspace.codecCall, hpacked, hinput]
      rfl

end Codec

end MagpieTts.Runtime
