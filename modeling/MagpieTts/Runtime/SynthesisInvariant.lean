import MagpieTts.Runtime.SynthesisStream

/-!
# The invariant of the synthesis worker

What the worker holds at each of its points: the batch that is in flight, the batch that was read,
the frames that it has not published yet. Every step of the worker, of its consumer and of a failing
device leads from one such state to another.

## Main definitions

* `Pipeline.SlotsHold`: the batch slots by what they hold.
* `WorkerStage`, `Holds`: what the worker holds.
* `WorkerAt`: the points of the worker, each with what it holds there.

## Main results

* `WorkerAt.advance`, `WorkerAt.resume`, `WorkerAt.interrupt`: the steps of the worker.
-/

namespace MagpieTts.Runtime

open MagpieTts.Library

namespace Pipeline

/-! ### The slots -/

/-- The slot of a batch in flight, the slot of a batch that was read, and the others, which are
free. -/
def SlotsHold (p : Pipeline) (pending filled : Option BatchSlot) : Prop :=
  ∀ slot, if pending = some slot then p.Filling slot
    else if filled = some slot then p.Filled slot
    else p.Free slot

variable {p p' : Pipeline} {slot : BatchSlot} {pending read : Option BatchSlot}

theorem slotsHold_initial : initial.SlotsHold none none := fun slot => by
  rw [if_neg (by simp), if_neg (by simp)]
  exact ⟨rfl, Or.inl ⟨rfl, rfl⟩⟩

namespace SlotsHold

theorem of_eq (h : p.SlotsHold pending read)
    (hpending : p'.generationPending = p.generationPending)
    (hreuse : p'.slotRequiresReuseWait = p.slotRequiresReuseWait)
    (hcontract : p'.overlapContract = p.overlapContract) : p'.SlotsHold pending read := by
  intro slot
  have hslot := h slot
  split_ifs at hslot ⊢
  · exact ⟨by rw [hpending]; exact hslot.pending, by rw [hreuse]; exact hslot.fresh,
      by rw [hcontract]; exact hslot.state⟩
  · exact ⟨by rw [hpending]; exact hslot.notPending, by rw [hreuse]; exact hslot.fresh,
      by rw [hcontract]; exact hslot.state⟩
  · exact ⟨by rw [hpending]; exact hslot.notPending, by rw [hreuse, hcontract]; exact hslot.state⟩

theorem free (h : p.SlotsHold none none) (slot : BatchSlot) : p.Free slot := by
  simpa using h slot

theorem fillingSlot (h : p.SlotsHold (some slot) read) : p.Filling slot := by
  simpa using h slot

theorem filledSlot (h : p.SlotsHold none (some slot)) : p.Filled slot := by
  simpa using h slot

/-- All other slots are free. -/
theorem free_of_ne (h : p.SlotsHold pending read) (hpending : ∀ s ∈ pending, s = slot)
    (hfilled : ∀ s ∈ read, s = slot) {other : BatchSlot} (hne : other ≠ slot) :
    p.Free other := by
  have hother := h other
  have hpending' : pending ≠ some other := fun heq => hne (hpending other (Option.mem_def.mpr heq))
  have hfilled' : read ≠ some other := fun heq => hne (hfilled other (Option.mem_def.mpr heq))
  rwa [if_neg hpending', if_neg hfilled'] at hother

theorem fill (h : p.SlotsHold none none) (slot : BatchSlot) :
    (p.withSlot slot true false .generationPending).SlotsHold (some slot) none := by
  intro other
  rcases eq_or_ne other slot with rfl | hne
  · rw [if_pos rfl]
    exact filling_withSlot
  · rw [if_neg (by simpa using hne.symm), if_neg (by simp)]
    exact (h.free other).withSlot hne

theorem ready (h : p.SlotsHold (some slot) none) :
    (p.withSlot slot false false .generationReady).SlotsHold none (some slot) := by
  intro other
  rw [if_neg (by simp)]
  rcases eq_or_ne other slot with rfl | hne
  · rw [if_pos rfl]
    exact filled_withSlot
  · rw [if_neg (by simpa using hne.symm)]
    exact (h.free_of_ne (by simp) (by simp) hne).withSlot hne

theorem pack (h : p.SlotsHold none (some slot)) :
    (p.withSlot slot false true .codecPending).SlotsHold none none := by
  intro other
  rw [if_neg (by simp), if_neg (by simp)]
  rcases eq_or_ne other slot with rfl | hne
  · exact free_withSlot
  · exact (h.free_of_ne (by simp) (by simp) hne).withSlot hne

theorem settles (h : p.SlotsHold pending read) : p.Settles := by
  intro slot hpending
  have hslot := h slot
  split_ifs at hslot
  · exact hslot.state
  · rw [hslot.notPending] at hpending
    cases hpending
  · rw [hslot.notPending] at hpending
    cases hpending

end SlotsHold

end Pipeline

/-! ### What the worker holds -/

/-- The batch in flight, the slot of the batch that was read and waits for the codec, the frames
that were read and not published yet, whether they end the stream, whether the codec runs on them,
and whether the ring is known to be empty. -/
structure WorkerStage where
  pending : Option PendingGenerationBatch
  filled : Option BatchSlot
  frames : ℕ
  ended : Bool
  decoding : Bool
  idle : Bool

/-- The worker holds what the stage says. -/
structure Holds (h : RequestHistory) (p : Pipeline) (steps : List GenerationStepDiagnostics)
    (stage : WorkerStage) : Prop where
  running : h.request.state = .running
  slots : p.SlotsHold (stage.pending.map PendingGenerationBatch.batchSlot) stage.filled
  audioPending_eq : p.audioPending = stage.decoding
  generated_eq : p.generatedDecoderSteps =
    steps.length + (stage.pending.map PendingGenerationBatch.stepCount).getD 0
  generated_le : p.generatedDecoderSteps ≤ 250
  pending : ∀ g ∈ stage.pending, 0 < g.stepCount ∧ g.stepCount ≤ 4 ∧
    g.decoderStepsAfterBatch = p.generatedDecoderSteps
  sequence_eq : p.sequence = h.accepted.length
  nextSampleIndex_eq : p.nextSampleIndex = publishedFrames h.accepted * 1024
  frames_eq : publishedFrames h.accepted + stage.frames = retainedFrames steps
  ended_eq : reportsEos steps = stage.ended
  idle : stage.idle = true → h.request.occupiedCodecFrames = 0

namespace Holds

variable {h h' : RequestHistory} {p : Pipeline} {steps : List GenerationStepDiagnostics}
  {stage : WorkerStage}

theorem of_eq {p' : Pipeline} (hholds : Holds h p steps stage)
    (hpending : p'.generationPending = p.generationPending)
    (hreuse : p'.slotRequiresReuseWait = p.slotRequiresReuseWait)
    (hcontract : p'.overlapContract = p.overlapContract)
    (hgenerated : p'.generatedDecoderSteps = p.generatedDecoderSteps)
    (hsequence : p'.sequence = p.sequence) (hsample : p'.nextSampleIndex = p.nextSampleIndex)
    {decoding : Bool} (haudio : p'.audioPending = decoding) :
    Holds h p' steps { stage with decoding } where
  running := hholds.running
  slots := hholds.slots.of_eq hpending hreuse hcontract
  audioPending_eq := haudio
  generated_eq := hgenerated.trans hholds.generated_eq
  generated_le := hgenerated.le.trans hholds.generated_le
  pending := fun g hg => hgenerated ▸ hholds.pending g hg
  sequence_eq := hsequence.trans hholds.sequence_eq
  nextSampleIndex_eq := hsample.trans hholds.nextSampleIndex_eq
  frames_eq := hholds.frames_eq
  ended_eq := hholds.ended_eq
  idle := hholds.idle

/-- The commands and the committed position do not matter. -/
theorem forget (hholds : Holds h p steps stage) (commands : List DeviceCommand) (committed : ℕ) :
    Holds h { p with commands, committedTextTokens := committed } steps stage := by
  refine hholds.of_eq ?_ ?_ ?_ ?_ ?_ ?_ ?_
  case refine_7 => exact hholds.audioPending_eq
  all_goals rfl

theorem consumer (hholds : Holds h p steps stage) (hkeeps : h.ConsumerKeeps h') :
    Holds h' p steps stage where
  running := hkeeps.state_eq.trans hholds.running
  slots := hholds.slots
  audioPending_eq := hholds.audioPending_eq
  generated_eq := hholds.generated_eq
  generated_le := hholds.generated_le
  pending := hholds.pending
  sequence_eq := by rw [hkeeps.accepted_eq]; exact hholds.sequence_eq
  nextSampleIndex_eq := by rw [hkeeps.accepted_eq]; exact hholds.nextSampleIndex_eq
  frames_eq := by rw [hkeeps.accepted_eq]; exact hholds.frames_eq
  ended_eq := hholds.ended_eq
  idle := fun hidle => Nat.le_zero.mp (hkeeps.occupied_le.trans (hholds.idle hidle).le)

/-- A batch of `stepCount` steps is on its way into a slot. -/
theorem fill {frames : ℕ} {ended decoding idle : Bool}
    (hholds : Holds h p steps ⟨none, none, frames, ended, decoding, idle⟩) (slot : BatchSlot)
    (stepCount : ℕ) (hpos : 0 < stepCount) (hfour : stepCount ≤ 4)
    (hle : p.generatedDecoderSteps + stepCount ≤ 250) (cacheIndex : BufferIndex)
    (commands : List DeviceCommand) :
    Holds h
      { p.withSlot slot true false .generationPending with
        cacheIndex
        generatedDecoderSteps := p.generatedDecoderSteps + stepCount
        commands }
      steps ⟨some ⟨slot, stepCount, p.generatedDecoderSteps + stepCount⟩, none, frames, ended,
        decoding, idle⟩ where
  running := hholds.running
  slots := (hholds.slots.fill slot).of_eq rfl rfl rfl
  audioPending_eq := hholds.audioPending_eq
  generated_eq := by
    have := hholds.generated_eq
    simp only [Option.map_none, Option.getD_none, Option.map_some, Option.getD_some] at this ⊢
    omega
  generated_le := hle
  pending := by
    intro g hg
    rw [← Option.some.inj hg]
    exact ⟨hpos, hfour, rfl⟩
  sequence_eq := hholds.sequence_eq
  nextSampleIndex_eq := hholds.nextSampleIndex_eq
  frames_eq := hholds.frames_eq
  ended_eq := hholds.ended_eq
  idle := hholds.idle

/-- The batch in flight was read. -/
theorem read {pending : PendingGenerationBatch} {decoding idle : Bool}
    (hholds : Holds h p steps ⟨some pending, none, 0, false, decoding, idle⟩)
    (diagnostics : GenerationBatchDiagnostics) :
    Holds h (p.withSlot pending.batchSlot false false .generationReady)
      (steps ++ batchSteps pending diagnostics)
      ⟨none, some pending.batchSlot, (Pipeline.batchOf pending diagnostics).frameCount,
        (Pipeline.batchOf pending diagnostics).final, decoding, idle⟩ where
  running := hholds.running
  slots := hholds.slots.ready
  audioPending_eq := hholds.audioPending_eq
  generated_eq := by
    have := hholds.generated_eq
    simp only [Option.map_some, Option.getD_some] at this
    rw [List.length_append, batchSteps, List.length_map, List.length_range]
    exact this
  generated_le := hholds.generated_le
  pending := fun g hg => by cases hg
  sequence_eq := hholds.sequence_eq
  nextSampleIndex_eq := hholds.nextSampleIndex_eq
  frames_eq := by
    have hframes := hholds.frames_eq
    have hended : reportsEos steps = false := hholds.ended_eq
    rw [retainedFrames_of_not hended] at hframes
    rw [retainedFrames_append_of_not hended, (Pipeline.batchOf_eq pending diagnostics).1]
    simp only at hframes ⊢
    omega
  ended_eq := by
    have hended : reportsEos steps = false := hholds.ended_eq
    rw [reportsEos_append, hended, Bool.false_or]
    exact (Pipeline.batchOf_eq pending diagnostics).2.symm
  idle := hholds.idle

/-- The codec runs on the batch that was read. -/
theorem schedule {slot : BatchSlot} {frames : ℕ} {ended decoding idle : Bool}
    (hholds : Holds h p steps ⟨none, some slot, frames, ended, decoding, idle⟩)
    (codecStateIndex : BufferIndex) (commands : List DeviceCommand) :
    Holds h
      { p.withSlot slot false true .codecPending with
        codecStateIndex
        audioPending := true
        commands }
      steps ⟨none, none, frames, ended, true, idle⟩ where
  running := hholds.running
  slots := hholds.slots.pack.of_eq rfl rfl rfl
  audioPending_eq := rfl
  generated_eq := hholds.generated_eq
  generated_le := hholds.generated_le
  pending := fun g hg => by cases hg
  sequence_eq := hholds.sequence_eq
  nextSampleIndex_eq := hholds.nextSampleIndex_eq
  frames_eq := hholds.frames_eq
  ended_eq := hholds.ended_eq
  idle := hholds.idle

/-- The request has accepted the frames. -/
theorem publish {pending : Option PendingGenerationBatch} {frames : ℕ} {decoding idle : Bool}
    (hholds : Holds h p steps ⟨pending, none, frames, false, decoding, idle⟩) {chunk : AudioChunk}
    (hframes : chunk.codecFrameCount = frames) (haccepted : h'.accepted = h.accepted ++ [chunk])
    (hrunning : h'.request.state = .running) (commands : List DeviceCommand) :
    Holds h'
      { p with
        nextSampleIndex := p.nextSampleIndex + frames * 1024
        sequence := p.sequence + 1
        commands }
      steps ⟨pending, none, 0, false, decoding, false⟩ where
  running := hrunning
  slots := hholds.slots.of_eq rfl rfl rfl
  audioPending_eq := hholds.audioPending_eq
  generated_eq := hholds.generated_eq
  generated_le := hholds.generated_le
  pending := hholds.pending
  sequence_eq := by
    rw [haccepted, List.length_append, List.length_singleton, hholds.sequence_eq]
  nextSampleIndex_eq := by
    have := hholds.nextSampleIndex_eq
    simp only [haccepted, publishedFrames, List.map_append, List.sum_append, List.map_singleton,
      List.sum_singleton, hframes] at this ⊢
    omega
  frames_eq := by
    have := hholds.frames_eq
    simp only [haccepted, publishedFrames, List.map_append, List.sum_append, List.map_singleton,
      List.sum_singleton, hframes] at this ⊢
    omega
  ended_eq := hholds.ended_eq
  idle := fun hidle => Bool.noConfusion hidle

/-- The ring was found empty. -/
theorem found_idle (hholds : Holds h p steps stage) (hidle : h.request.occupiedCodecFrames = 0) :
    Holds h p steps { stage with idle := true } :=
  { hholds with idle := fun _ => hidle }

theorem settles (hholds : Holds h p steps stage) : p.Settles := hholds.slots.settles

end Holds

/-! ### The points of the worker -/

/-- A codec run on the frames that the worker holds. -/
structure CodecHeld (h : RequestHistory) (codec : PendingCodecBatch) : Prop where
  frames : Pipeline.CodecFrames codec.generation codec.first
  samples_eq : codec.expectedSamples = codec.generation.frameCount * 1024
  shape : ∃ stepCount, BatchShape stepCount codec.generation
  first_eq : codec.first = decide (h.accepted = [])
  first_frames : codec.first = true →
    codec.generation.frameCount = 4 ∧ codec.generation.final = false

theorem CodecHeld.consumer {h h' : RequestHistory} {codec : PendingCodecBatch}
    (hcodec : CodecHeld h codec) (hkeeps : h.ConsumerKeeps h') : CodecHeld h' codec :=
  { hcodec with first_eq := by rw [hkeeps.accepted_eq]; exact hcodec.first_eq }

/-- The batch for which the worker waits at a point of its capacity loop. -/
def WorkerPoint.waitsFor : WorkerPoint → Option PendingGenerationBatch
  | canPublish pending => some pending
  | observeFull pending => some pending
  | readRevision pending => some pending
  | recheckCapacity pending _ => some pending
  | observeRechecked pending _ => some pending
  | waitForRevision pending _ => some pending
  | _ => none

/-- The points of the worker in a reachable state, with what the worker holds there. The exception
of a failing worker is of the kind `Q`. -/
inductive WorkerAt (arguments : PipelineArguments) (Q : WorkerException → Prop)
    (h : RequestHistory) (p : Pipeline) (steps : List GenerationStepDiagnostics) :
    WorkerPoint → Prop where
  | setDevice (hinitial : p = .initial) (hsteps : steps = []) (haccepted : h.accepted = [])
      (hrunning : h.request.state = .running) : WorkerAt arguments Q h p steps .setDevice
  | start (hinitial : p = .initial) (hsteps : steps = []) (haccepted : h.accepted = [])
      (hrunning : h.request.state = .running) : WorkerAt arguments Q h p steps .start
  | awaitFirst (hholds : Holds h p steps ⟨some ⟨0, 2, 2⟩, none, 0, false, false, false⟩)
      (haccepted : h.accepted = []) (hcommitted : p.committedTextTokens = 0) :
      WorkerAt arguments Q h p steps (.awaitFirst ⟨0, 2, 2⟩)
  | observeFirst (batch : GenerationBatchResult)
      (hholds : Holds h p steps ⟨none, some batch.batchSlot, batch.frameCount, batch.final, false,
        false⟩)
      (hshape : BatchShape 2 batch) (hfinal : batch.final = false) (hframes : batch.frameCount = 4)
      (haccepted : h.accepted = []) (hcommitted : p.committedTextTokens = 0) :
      WorkerAt arguments Q h p steps (.observeFirst batch)
  | awaitCodec (codec : PendingCodecBatch) (following : Option PendingGenerationBatch)
      (hfollowing : ∀ g ∈ following, g.stepCount = 4)
      (hholds : Holds h p steps ⟨following, none, codec.generation.frameCount,
        codec.generation.final, true, true⟩)
      (hcodec : CodecHeld h codec)
      (hcommitted : p.committedTextTokens = h.request.committedTextTokens) :
      WorkerAt arguments Q h p steps (.awaitCodec codec following)
  | observeDecoded (codec : PendingCodecBatch) (following : Option PendingGenerationBatch)
      (hfollowing : ∀ g ∈ following, g.stepCount = 4)
      (hholds : Holds h p steps ⟨following, none, codec.generation.frameCount,
        codec.generation.final, false, true⟩)
      (hcodec : CodecHeld h codec)
      (hcommitted : p.committedTextTokens = h.request.committedTextTokens) :
      WorkerAt arguments Q h p steps (.observeDecoded codec following)
  | publish (chunk : AudioChunk) (codec : PendingCodecBatch)
      (following : Option PendingGenerationBatch)
      (hfollowing : ∀ g ∈ following, g.stepCount = 4)
      (hholds : Holds h p steps ⟨following, none, codec.generation.frameCount,
        codec.generation.final, false, true⟩)
      (hcodec : CodecHeld h codec)
      (hchunk : PipelineChunk arguments h.request.committedTextTokens chunk)
      (hat : ChunkAt p codec.generation.frameCount codec.first codec.generation.final chunk)
      (hcommitted : p.committedTextTokens = chunk.committedTextTokens) :
      WorkerAt arguments Q h p steps (.publish chunk codec following)
  | observePublished (following : Option PendingGenerationBatch)
      (hfollowing : ∀ g ∈ following, g.stepCount = 4)
      (hholds : Holds h p steps ⟨following, none, 0, false, false, false⟩)
      (haccepted : h.accepted ≠ [])
      (hcommitted : p.committedTextTokens = h.request.committedTextTokens) :
      WorkerAt arguments Q h p steps (.observePublished following)
  | waiting (pending : PendingGenerationBatch) (point : WorkerPoint)
      (hpoint : point.waitsFor = some pending) (hfour : pending.stepCount = 4)
      (hholds : Holds h p steps ⟨some pending, none, 0, false, false, false⟩)
      (haccepted : h.accepted ≠ [])
      (hcommitted : p.committedTextTokens = h.request.committedTextTokens) :
      WorkerAt arguments Q h p steps point
  | observeCapacity (pending : PendingGenerationBatch) (hfour : pending.stepCount = 4)
      (hholds : Holds h p steps ⟨some pending, none, 0, false, false, true⟩)
      (haccepted : h.accepted ≠ [])
      (hcommitted : p.committedTextTokens = h.request.committedTextTokens) :
      WorkerAt arguments Q h p steps (.observeCapacity pending)
  | awaitGeneration (pending : PendingGenerationBatch) (hfour : pending.stepCount = 4)
      (hholds : Holds h p steps ⟨some pending, none, 0, false, false, true⟩)
      (haccepted : h.accepted ≠ [])
      (hcommitted : p.committedTextTokens = h.request.committedTextTokens) :
      WorkerAt arguments Q h p steps (.awaitGeneration pending)
  | observeGeneration (batch : GenerationBatchResult)
      (hholds : Holds h p steps ⟨none, some batch.batchSlot, batch.frameCount, batch.final, false,
        true⟩)
      (hshape : BatchShape 4 batch) (haccepted : h.accepted ≠ [])
      (hcommitted : p.committedTextTokens = h.request.committedTextTokens) :
      WorkerAt arguments Q h p steps (.observeGeneration batch)
  | generateFollowing (codec : PendingCodecBatch)
      (hholds : Holds h p steps ⟨none, none, codec.generation.frameCount, codec.generation.final,
        true, true⟩)
      (hcodec : CodecHeld h codec)
      (hcommitted : p.committedTextTokens = h.request.committedTextTokens) :
      WorkerAt arguments Q h p steps (.generateFollowing codec)
  | observeZeroFrame (batch : GenerationBatchResult)
      (hholds : Holds h p steps ⟨none, some batch.batchSlot, 0, true, false, true⟩)
      (haccepted : h.accepted ≠ [])
      (hcommitted : p.committedTextTokens = h.request.committedTextTokens) :
      WorkerAt arguments Q h p steps (.observeZeroFrame batch)
  | publishZeroFrame (chunk : AudioChunk) (batch : GenerationBatchResult)
      (hholds : Holds h p steps ⟨none, some batch.batchSlot, 0, true, false, true⟩)
      (haccepted : h.accepted ≠ [])
      (hchunk : PipelineChunk arguments h.request.committedTextTokens chunk)
      (hat : ChunkAt p 0 false true chunk) :
      WorkerAt arguments Q h p steps (.publishZeroFrame chunk batch)
  | settle (outcome : Option WorkerException) (hsettles : p.Settles)
      (hclosing : outcome = none → h.request.state = .completed ∨
        (h.request.state = .running ∧ h.request.cancellationRequested = true))
      (hfailing : ∀ exception ∈ outcome, Q exception) :
      WorkerAt arguments Q h p steps (.settle outcome)
  | observeSettled (hclosing : h.request.state = .completed ∨
        (h.request.state = .running ∧ h.request.cancellationRequested = true)) :
      WorkerAt arguments Q h p steps .observeSettled
  | completeCancellation (hrunning : h.request.state = .running)
      (hcancelled : h.request.cancellationRequested = true) :
      WorkerAt arguments Q h p steps .completeCancellation
  | failed (exception : WorkerException) (hQ : Q exception) :
      WorkerAt arguments Q h p steps (.failed exception)
  | failRequest (exception : WorkerException) (hQ : Q exception)
      (hrunning : h.request.state = .running) :
      WorkerAt arguments Q h p steps (.failRequest exception.failure)
  | done (hterminal : h.request.state ≠ .running) : WorkerAt arguments Q h p steps .done

namespace WorkerAt

variable {arguments : PipelineArguments} {Q : WorkerException → Prop} {h h' : RequestHistory}
  {p : Pipeline} {steps : List GenerationStepDiagnostics} {point : WorkerPoint}

/-- A call of the consumer leaves the worker where it is. -/
theorem consumer (hat : WorkerAt arguments Q h p steps point) (hkeeps : h.ConsumerKeeps h') :
    WorkerAt arguments Q h' p steps point := by
  have haccepted_eq := hkeeps.accepted_eq
  have hstate_eq := hkeeps.state_eq
  have hcommitted_eq := hkeeps.committedTextTokens_eq
  have hclosing : h.request.state = .completed ∨
      (h.request.state = .running ∧ h.request.cancellationRequested = true) →
      h'.request.state = .completed ∨
      (h'.request.state = .running ∧ h'.request.cancellationRequested = true) := by
    rw [hstate_eq]
    exact Or.imp id (And.imp id hkeeps.cancelled_of)
  cases hat with
  | setDevice hinitial hsteps haccepted hrunning =>
    exact .setDevice hinitial hsteps (haccepted_eq.trans haccepted) (hstate_eq.trans hrunning)
  | start hinitial hsteps haccepted hrunning =>
    exact .start hinitial hsteps (haccepted_eq.trans haccepted) (hstate_eq.trans hrunning)
  | awaitFirst hholds haccepted hcommitted =>
    exact .awaitFirst (hholds.consumer hkeeps) (haccepted_eq.trans haccepted) hcommitted
  | observeFirst batch hholds hshape hfinal hframes haccepted hcommitted =>
    exact .observeFirst batch (hholds.consumer hkeeps) hshape hfinal hframes
      (haccepted_eq.trans haccepted) hcommitted
  | awaitCodec codec following hfollowing hholds hcodec hcommitted =>
    exact .awaitCodec codec following hfollowing (hholds.consumer hkeeps) (hcodec.consumer hkeeps)
      (hcommitted.trans hcommitted_eq.symm)
  | observeDecoded codec following hfollowing hholds hcodec hcommitted =>
    exact .observeDecoded codec following hfollowing (hholds.consumer hkeeps)
      (hcodec.consumer hkeeps)
      (hcommitted.trans hcommitted_eq.symm)
  | publish chunk codec following hfollowing hholds hcodec hchunk hat hcommitted =>
    exact .publish chunk codec following hfollowing (hholds.consumer hkeeps)
      (hcodec.consumer hkeeps)
      (hcommitted_eq ▸ hchunk) hat hcommitted
  | observePublished following hfollowing hholds haccepted hcommitted =>
    exact .observePublished following hfollowing (hholds.consumer hkeeps) (haccepted_eq ▸ haccepted)
      (hcommitted.trans hcommitted_eq.symm)
  | waiting pending point hpoint hfour hholds haccepted hcommitted =>
    exact .waiting pending point hpoint hfour (hholds.consumer hkeeps) (haccepted_eq ▸ haccepted)
      (hcommitted.trans hcommitted_eq.symm)
  | observeCapacity pending hfour hholds haccepted hcommitted =>
    exact .observeCapacity pending hfour (hholds.consumer hkeeps) (haccepted_eq ▸ haccepted)
      (hcommitted.trans hcommitted_eq.symm)
  | awaitGeneration pending hfour hholds haccepted hcommitted =>
    exact .awaitGeneration pending hfour (hholds.consumer hkeeps) (haccepted_eq ▸ haccepted)
      (hcommitted.trans hcommitted_eq.symm)
  | observeGeneration batch hholds hshape haccepted hcommitted =>
    exact .observeGeneration batch (hholds.consumer hkeeps) hshape (haccepted_eq ▸ haccepted)
      (hcommitted.trans hcommitted_eq.symm)
  | generateFollowing codec hholds hcodec hcommitted =>
    exact .generateFollowing codec (hholds.consumer hkeeps) (hcodec.consumer hkeeps)
      (hcommitted.trans hcommitted_eq.symm)
  | observeZeroFrame batch hholds haccepted hcommitted =>
    exact .observeZeroFrame batch (hholds.consumer hkeeps) (haccepted_eq ▸ haccepted)
      (hcommitted.trans hcommitted_eq.symm)
  | publishZeroFrame chunk batch hholds haccepted hchunk hat =>
    exact .publishZeroFrame chunk batch (hholds.consumer hkeeps) (haccepted_eq ▸ haccepted)
      (hcommitted_eq ▸ hchunk) hat
  | settle outcome hsettles hclosed hfailing =>
    exact .settle outcome hsettles (fun hnone => hclosing (hclosed hnone)) hfailing
  | observeSettled hclosed => exact .observeSettled (hclosing hclosed)
  | completeCancellation hrunning hcancelled =>
    exact .completeCancellation (hstate_eq.trans hrunning) (hkeeps.cancelled_of hcancelled)
  | failed exception hQ => exact .failed exception hQ
  | failRequest exception hQ hrunning =>
    exact .failRequest exception hQ (hstate_eq.trans hrunning)
  | done hterminal => exact .done (hstate_eq ▸ hterminal)

end WorkerAt

end MagpieTts.Runtime
