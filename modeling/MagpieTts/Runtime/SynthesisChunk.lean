import MagpieTts.Runtime.SynthesisPipelineSpec

/-!
# The chunk of a batch

What the pipeline publishes for a batch: the samples of its codec run, and an alignment event for
each decoder step that commits more of the text.

## Main definitions

* `BatchShape`: the frames of a batch and the attended positions of its steps.
* `ChunkEvents`: what holds of the alignment events of a chunk.
* `PipelineChunk`, `ChunkAt`: a chunk that the pipeline builds, and its place in the stream.

## Main results

* `Pipeline.batchShape_batchOf`: the shape of a batch that was read.
* `Pipeline.meets_audioChunk`: the chunk of a batch, whatever positions were attended.
-/

namespace MagpieTts.Runtime

open MagpieTts.Library StreamingRequestState

/-- The frames of a batch of `stepCount` steps and its attended positions: two frames for each step,
of which the last step of a final batch has kept none or one. -/
structure BatchShape (stepCount : ℕ) (batch : GenerationBatchResult) : Prop where
  length_le : batch.attendedTokenIndices.length ≤ stepCount
  open_frames : batch.final = false →
    batch.attendedTokenIndices.length = stepCount ∧ batch.frameCount = 2 * stepCount
  final_frames : batch.final = true →
    2 * batch.attendedTokenIndices.length ≤ batch.frameCount + 2 ∧
      batch.frameCount + 1 ≤ 2 * batch.attendedTokenIndices.length

/-- The alignment events of a chunk of `frames` frames that starts at sample `first`. They lead from
`committed` to `committed'` text tokens. -/
structure ChunkEvents (textLength first frames committed : ℕ) (final : Bool)
    (events : List AlignmentProgress) (committed' : ℕ) : Prop where
  advance : EventsAdvance textLength (first + frames * 1024) first committed events
  committed_eq : (events.getLastD ⟨first, committed⟩).committedTextTokens = committed'
  committed_le : committed ≤ committed'
  committed_le_textLength : committed' ≤ textLength
  boundary : ∀ event ∈ events, (∃ steps, event.sampleIndex = first + steps * 2048) ∨
    (final = true ∧ event.sampleIndex = first + frames * 1024)
  length_le : 2 * events.length ≤ frames + 1

/-- An event may be appended where it advances from the last one. -/
theorem eventsAdvance_concat {textTokens chunkEnd : ℕ} {event : AlignmentProgress} :
    (events : List AlignmentProgress) → {previous : AlignmentProgress} →
    EventsAdvance textTokens chunkEnd previous.sampleIndex previous.committedTextTokens events →
    ((events.getLastD previous).sampleIndex < event.sampleIndex ∧ event.sampleIndex ≤ chunkEnd ∧
      event.sampleIndex % kCodecSamplesPerFrame = 0) →
    ((events.getLastD previous).committedTextTokens < event.committedTextTokens ∧
      event.committedTextTokens ≤ textTokens) →
    EventsAdvance textTokens chunkEnd previous.sampleIndex previous.committedTextTokens
      (events ++ [event])
  | [], _, _, hsample, htokens => ⟨hsample, htokens, trivial⟩
  | head :: rest, _, hadvance, hsample, htokens => by
      rw [List.getLastD_cons] at hsample htokens
      exact ⟨hadvance.1, hadvance.2.1, eventsAdvance_concat rest hadvance.2.2 hsample htokens⟩

/-- A chunk that the pipeline builds behind `committed` text tokens. -/
structure PipelineChunk (arguments : PipelineArguments) (committed : ℕ) (chunk : AudioChunk) :
    Prop where
  samples_eq : chunk.samples.samples =
    if chunk.codecFrameCount = 0 then 0 else arguments.pinnedPcm.address
  alignmentValid_eq : chunk.alignmentValid = true
  events : ChunkEvents arguments.textTokenIds.length chunk.firstSampleIndex chunk.codecFrameCount
    committed chunk.final chunk.alignmentEvents chunk.committedTextTokens

/-- The chunk takes the next place in the stream of a pipeline. -/
structure ChunkAt (p : Pipeline) (frames : ℕ) (first final : Bool) (chunk : AudioChunk) : Prop where
  sampleCount_eq : chunk.samples.sampleCount = frames * 1024
  firstSampleIndex_eq : chunk.firstSampleIndex = p.nextSampleIndex
  sequence_eq : chunk.sequence = p.sequence
  codecFrameCount_eq : chunk.codecFrameCount = frames
  first_eq : chunk.first = first
  final_eq : chunk.final = final

namespace Pipeline

/-! ### The shape of a batch -/

theorem length_attendedOf (diagnostics : GenerationBatchDiagnostics) (steps : ℕ) :
    (attendedOf diagnostics steps).length = steps := by
  rw [attendedOf, List.length_map, List.length_range]

theorem firstEos_eq_some {diagnostics : GenerationBatchDiagnostics} {stepCount step : ℕ}
    (h : firstEos diagnostics stepCount = some step) :
    step < stepCount ∧ 0 ≤ (diagnostics.steps step).endFrameIndex := by
  refine ⟨List.mem_range.mp (List.mem_of_find?_eq_some h), ?_⟩
  simpa using List.find?_some h

theorem batchShape_batchOf {textLength : ℕ} {pending : PendingGenerationBatch}
    {diagnostics : GenerationBatchDiagnostics}
    (haccepted : RecordAccepted textLength pending.stepCount diagnostics) :
    BatchShape pending.stepCount (batchOf pending diagnostics) := by
  cases hfirst : firstEos diagnostics pending.stepCount with
  | none =>
    simp only [batchOf, progressOf, hfirst]
    refine ⟨by simp only [length_attendedOf, le_refl], fun _ => ?_, fun hfinal => ?_⟩
    · simp only [length_attendedOf, Nat.mul_comm, and_self]
    · exact Bool.noConfusion hfinal
  | some step =>
    obtain ⟨hlt, hend⟩ := firstEos_eq_some hfirst
    have hmem := (haccepted.steps step hlt).endFrameIndex_mem
    simp only [batchOf, progressOf, hfirst]
    refine ⟨?_, fun hfinal => Bool.noConfusion hfinal, fun _ => ?_⟩
    · rw [length_attendedOf]
      omega
    · simp only [length_attendedOf]
      omega

/-! ### The events of a chunk -/

/-- What the loop over the attended positions has done in its first `steps` passes. -/
structure EventsBuilt (textLength first frames committed steps : ℕ) (final : Bool)
    (events : List AlignmentProgress) (committed' : ℕ) : Prop where
  chunk : ChunkEvents textLength first frames committed final events committed'
  last_le : (events.getLastD ⟨first, committed⟩).sampleIndex ≤ first + steps * 2048
  length_le : events.length ≤ steps

/-- No events. -/
theorem chunkEvents_nil {textLength first frames committed : ℕ} {final : Bool}
    (hcommitted : committed ≤ textLength) :
    ChunkEvents textLength first frames committed final [] committed :=
  ⟨trivial, rfl, le_refl _, hcommitted, fun _ hmem => absurd hmem List.not_mem_nil, Nat.zero_le _⟩

namespace EventsBuilt

variable {textLength first frames committed steps committed' : ℕ} {final : Bool}
  {events : List AlignmentProgress}
  (hbuilt : EventsBuilt textLength first frames committed steps final events committed')

include hbuilt

/-- A pass without an event. -/
theorem succ :
    EventsBuilt textLength first frames committed (steps + 1) final events committed' where
  chunk := hbuilt.chunk
  last_le := hbuilt.last_le.trans (by omega)
  length_le := hbuilt.length_le.trans (Nat.le_succ steps)

/-- A pass with an event, behind the frames of its step. -/
theorem concat {stepFrames attended : ℕ} (haligned : first % 1024 = 0) (hpos : 0 < stepFrames)
    (hle : steps * 2 + stepFrames ≤ frames) (htwo : stepFrames ≤ 2)
    (hend : stepFrames = 2 ∨ (final = true ∧ steps * 2 + stepFrames = frames))
    (hnew : committed' < attended) (hattended : attended ≤ textLength) :
    EventsBuilt textLength first frames committed (steps + 1) final
      (events ++ [⟨first + (steps * 2 + stepFrames) * 1024, attended⟩]) attended := by
  have hlast := hbuilt.last_le
  have hlength := hbuilt.length_le
  have hcommitted := hbuilt.chunk.committed_eq
  have hcommittedLe := hbuilt.chunk.committed_le
  have hadvance := @eventsAdvance_concat textLength (first + frames * 1024)
    ⟨first + (steps * 2 + stepFrames) * 1024, attended⟩ events ⟨first, committed⟩
    hbuilt.chunk.advance
    ⟨by simp only; omega, by simp only; omega, by rw [kCodecSamplesPerFrame]; simp only; omega⟩
    ⟨by rw [hcommitted]; exact hnew, hattended⟩
  refine ⟨⟨hadvance, ?_, by omega, hattended, ?_, ?_⟩, ?_, ?_⟩
  · rw [List.getLastD_concat]
  · intro event hmem
    rcases List.mem_append.mp hmem with hold | hlast
    · exact hbuilt.chunk.boundary event hold
    · rw [List.mem_singleton.mp hlast]
      rcases hend with rfl | ⟨hfinal, heq⟩
      · exact Or.inl ⟨steps + 1, by simp only; omega⟩
      · exact Or.inr ⟨hfinal, by rw [heq]⟩
  · rw [List.length_append, List.length_singleton]
    omega
  · rw [List.getLastD_concat]
    simp only
    omega
  · rw [List.length_append, List.length_singleton]
    omega

end EventsBuilt

variable {arguments : PipelineArguments} (hmanifest : arguments.manifest = acceptedManifest)
  {p : Pipeline} {batch : GenerationBatchResult}

include hmanifest

/-- One pass of the loop over the attended positions. -/
theorem meets_readAttendedStep {stepCount : ℕ} (hshape : BatchShape stepCount batch)
    (haligned : p.nextSampleIndex % 1024 = 0) {committed committed' step : ℕ} (attended : ℤ)
    {events : List AlignmentProgress} (hstep : step < batch.attendedTokenIndices.length)
    (hbuilt : EventsBuilt arguments.textTokenIds.length p.nextSampleIndex batch.frameCount committed
      step batch.final events committed') :
    Meets (readAttendedStep arguments batch events step attended)
      { p with committedTextTokens := committed' }
      (fun events p' => ∃ committed', p' = { p with committedTextTokens := committed' } ∧
        EventsBuilt arguments.textTokenIds.length p.nextSampleIndex batch.frameCount committed
          (step + 1) batch.final events committed')
      fun _ _ => False := by
  have hframes : arguments.manifest.localAr.framesPerDecoderStep = 2 := by
    rw [hmanifest, acceptedManifest]
  have hhop : arguments.manifest.codec.hopLengthSamples = 1024 := by
    rw [hmanifest, acceptedManifest]
  have hopen := hshape.open_frames
  have hfinal := hshape.final_frames
  have hlast := hbuilt.last_le
  have hlength := hbuilt.length_le
  simp only [readAttendedStep, hframes, hhop, meets_bind, meets_failIf]
  -- the frames of this step: two, or what is left in front of the end of speech
  generalize hterminal : (batch.final && decide (step + 1 = batch.attendedTokenIndices.length)) =
    terminal
  have hcases : (terminal = false ∧ (step + 1) * 2 ≤ batch.frameCount) ∨
      (terminal = true ∧ batch.final = true ∧ step * 2 ≤ batch.frameCount ∧
        batch.frameCount ≤ step * 2 + 1) := by
    cases hf : batch.final with
    | false =>
      have := hopen hf
      refine Or.inl ⟨by rw [← hterminal, hf, Bool.false_and], by omega⟩
    | true =>
      have := hfinal hf
      rw [hf, Bool.true_and] at hterminal
      rcases Nat.lt_or_ge (step + 1) batch.attendedTokenIndices.length with hlt | hge
      · exact Or.inl ⟨by rw [← hterminal, decide_eq_false (by omega)], by omega⟩
      · exact Or.inr ⟨by rw [← hterminal, decide_eq_true (by omega)], rfl, by omega, by omega⟩
  refine ⟨fun h => by omega, fun _ => ?_⟩
  obtain ⟨stepFrames, hstepFrames, hle, htwo, hend⟩ : ∃ stepFrames,
      (if terminal = true then batch.frameCount - step * 2 else 2) = stepFrames ∧
      step * 2 + stepFrames ≤ batch.frameCount ∧ stepFrames ≤ 2 ∧
      (stepFrames = 2 ∨ (batch.final = true ∧ step * 2 + stepFrames = batch.frameCount)) := by
    refine ⟨_, rfl, ?_⟩
    rcases hcases with ⟨rfl, hle⟩ | ⟨rfl, hf, hle, hge⟩
    · rw [if_neg Bool.false_ne_true]
      omega
    · rw [if_pos rfl]
      exact ⟨by omega, by omega, Or.inr ⟨hf, by omega⟩⟩
  simp only [hstepFrames, meets_ite, meets_pure]
  have hnext := hbuilt.succ
  refine ⟨fun _ => ⟨committed', rfl, hnext⟩, fun hpos => ?_⟩
  simp only [meets_bind, meets_get, meets_ite, meets_pure]
  refine ⟨fun hnew => ?_, fun _ => ⟨committed', rfl, hnext⟩⟩
  rw [meets_set]
  exact ⟨_, rfl, hbuilt.concat haligned (by omega) hle htwo hend hnew (Nat.min_le_right _ _)⟩

/-- The loop over the attended positions. -/
theorem meets_readAttendedSteps {stepCount : ℕ} (hshape : BatchShape stepCount batch)
    (haligned : p.nextSampleIndex % 1024 = 0)
    (hcommitted : p.committedTextTokens ≤ arguments.textTokenIds.length) :
    Meets (batch.attendedTokenIndices.zipIdx.foldlM
        (fun events (attended, step) => readAttendedStep arguments batch events step attended) []) p
      (fun events p' => ∃ committed', p' = { p with committedTextTokens := committed' } ∧
        ChunkEvents arguments.textTokenIds.length p.nextSampleIndex batch.frameCount
          p.committedTextTokens batch.final events committed')
      fun _ _ => False := by
  have hstart : ∃ committed', p = { p with committedTextTokens := committed' } ∧
      EventsBuilt arguments.textTokenIds.length p.nextSampleIndex batch.frameCount
        p.committedTextTokens ([] : List (ℤ × ℕ)).length batch.final [] committed' :=
    ⟨p.committedTextTokens, rfl, chunkEvents_nil hcommitted, Nat.le_add_right _ _, le_refl _⟩
  refine (meets_foldlM (fun done events p' => ∃ committed',
      p' = { p with committedTextTokens := committed' } ∧
      EventsBuilt arguments.textTokenIds.length p.nextSampleIndex batch.frameCount
        p.committedTextTokens done.length batch.final events committed') hstart ?_).mono
    (fun events p' h => ?_) fun _ _ h => h
  · rintro done ⟨attended, step⟩ rest hlist events p' ⟨committed', rfl, hbuilt⟩
    -- the index of an item is the number of items before it
    have hitem : batch.attendedTokenIndices.zipIdx[done.length]? = some (attended, step) := by
      rw [hlist, List.getElem?_append_right (le_refl _), Nat.sub_self, List.getElem?_cons_zero]
    rw [List.getElem?_zipIdx, Option.map_eq_some_iff] at hitem
    obtain ⟨attended', hget, hpair⟩ := hitem
    rw [Prod.mk.injEq, Nat.zero_add] at hpair
    obtain ⟨-, rfl⟩ := hpair
    rw [List.length_append, List.length_singleton]
    exact meets_readAttendedStep hmanifest hshape haligned attended
      (List.getElem?_eq_some_iff.mp hget).1 hbuilt
  · obtain ⟨committed', hp', hbuilt⟩ := h
    exact ⟨committed', hp', hbuilt.chunk⟩

/-- The chunk of a batch. Nothing is thrown, and only the committed position moves. -/
theorem meets_audioChunk {codec : PendingCodecBatch} {stepCount : ℕ}
    (hshape : BatchShape stepCount codec.generation) (hframes : 0 < codec.generation.frameCount)
    (hsamples : codec.expectedSamples = codec.generation.frameCount * 1024)
    (haligned : p.nextSampleIndex % 1024 = 0)
    (hcommitted : p.committedTextTokens ≤ arguments.textTokenIds.length) :
    Meets (audioChunk arguments codec) p
      (fun chunk p' => p' = { p with committedTextTokens := chunk.committedTextTokens } ∧
        PipelineChunk arguments p.committedTextTokens chunk ∧
        ChunkAt p codec.generation.frameCount codec.first codec.generation.final chunk)
      fun _ _ => False := by
  rw [audioChunk, meets_bind]
  refine (meets_readAttendedSteps hmanifest hshape haligned hcommitted).mono ?_ fun _ _ h => h
  rintro events p' ⟨committed', rfl, hevents⟩
  have hbuffer : arguments.pinnedPcm.address = 0 ↔ codec.expectedSamples = 0 :=
    iff_of_false arguments.pinnedPcm.address_ne_zero (by omega)
  rw [meets_bind, audioBuffer, dif_pos hbuffer, meets_pure, meets_bind, meets_get, meets_pure]
  refine ⟨rfl, ⟨?_, rfl, hevents⟩, ⟨hsamples, rfl, rfl, rfl, rfl, rfl⟩⟩
  rw [if_neg (by simp only; omega)]

omit hmanifest in
/-- The marker that ends the stream behind a batch without frames. -/
theorem run_zeroFrameFinal (arguments : PipelineArguments)
    (hcommitted : p.committedTextTokens ≤ arguments.textTokenIds.length) :
    ∃ chunk, zeroFrameFinal.run.run p = (.ok chunk, p) ∧
      chunk.committedTextTokens = p.committedTextTokens ∧
      PipelineChunk arguments p.committedTextTokens chunk ∧ ChunkAt p 0 false true chunk :=
  ⟨_, rfl, rfl, ⟨rfl, rfl, chunkEvents_nil hcommitted⟩, ⟨rfl, rfl, rfl, rfl, rfl, rfl⟩⟩

end Pipeline

end MagpieTts.Runtime
