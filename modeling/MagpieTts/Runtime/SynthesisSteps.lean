import MagpieTts.Runtime.SynthesisInvariant

/-!
# The steps of the synthesis worker

Every step of the worker leads from a point of `WorkerAt` to another one, whatever the device
reports. Where the device is healthy, the only exception is the one of an exhausted context.

## Main definitions

* `WorkerPoint.Healthy`: the reports of a healthy device.
* `WorkerInvariant`: the invariant of the worker and its request.

## Main results

* `WorkerInvariant.advance`, `WorkerInvariant.resume`, `WorkerInvariant.interrupt`: the steps.
-/

namespace MagpieTts.Runtime

open MagpieTts.Library Pipeline

/-- What a healthy device reports at a point: an accepted record, without an end of speech in the
first batch, and finite samples of the expected number. -/
def WorkerPoint.Healthy (arguments : PipelineArguments) (reading : DeviceReading) :
    WorkerPoint → Prop
  | awaitFirst pending =>
    RecordAccepted arguments.textTokenIds.length pending.stepCount reading.diagnostics ∧
      reportsEos (batchSteps pending reading.diagnostics) = false
  | awaitGeneration pending =>
    RecordAccepted arguments.textTokenIds.length pending.stepCount reading.diagnostics
  | awaitCodec codec _ =>
    reading.validSampleLength = codec.expectedSamples ∧ reading.pcmFinite = true
  | _ => True

/-- A kind of exceptions: each has a text, and an exhausted context belongs to it. -/
structure ExceptionKind (Q : WorkerException → Prop) : Prop where
  reported : ∀ exception, Q exception → exception.Reported
  exhausted : ∀ detail, Q (.synthesis .contextExhausted detail)

/-- The invariant of the worker and its request. -/
structure WorkerInvariant (arguments : PipelineArguments) (Q : WorkerException → Prop)
    (h : RequestHistory) (w : WorkerState) (steps : List GenerationStepDiagnostics) : Prop where
  stream : StreamInvariant arguments Q h steps
  point : WorkerAt arguments Q h w.pipeline steps w.point
  poisoned : w.poisoned = true → ∃ exception, Q exception ∧ exception.failure.poisonSession = true

namespace WorkerState

/-- The two ways in which a member function ends. -/
theorem perform_cases {β : Type} {p : Pipeline} {point : WorkerPoint} {poisoned : Bool}
    {action : PipelineM β} {next : β → WorkerPoint} {returns : β → Pipeline → Prop}
    {throws : WorkerException → Pipeline → Prop}
    (hmeets : Meets action { p with commands := [] } returns throws) :
    (∃ value p', returns value p' ∧
      (⟨p, point, poisoned⟩ : WorkerState).perform action next = ⟨p', next value, poisoned⟩) ∨
    ∃ exception p', throws exception p' ∧
      (⟨p, point, poisoned⟩ : WorkerState).perform action next =
        ⟨p', .settle (some exception), poisoned⟩ := by
  rw [Meets] at hmeets
  simp only [perform]
  rcases hrun : action.run.run { p with commands := [] } with ⟨exception | value, p'⟩
  · rw [hrun] at hmeets
    exact Or.inr ⟨exception, p', hmeets, rfl⟩
  · rw [hrun] at hmeets
    exact Or.inl ⟨value, p', hmeets, rfl⟩

theorem perform_of_run_eq {β : Type} {p p' : Pipeline} {point : WorkerPoint} {poisoned : Bool}
    {action : PipelineM β} {next : β → WorkerPoint} {value : β}
    (hrun : action.run.run { p with commands := [] } = (.ok value, p')) :
    (⟨p, point, poisoned⟩ : WorkerState).perform action next = ⟨p', next value, poisoned⟩ := by
  simp only [perform, hrun]

end WorkerState

namespace WorkerInvariant

variable {arguments : PipelineArguments} {Q : WorkerException → Prop} {h : RequestHistory}
  {p p' : Pipeline} {point : WorkerPoint} {poisoned : Bool}
  {steps : List GenerationStepDiagnostics} {stage : WorkerStage}

/-- An exception ends the work on the batches. -/
theorem thrown (hinv : WorkerInvariant arguments Q h ⟨p, point, poisoned⟩ steps)
    (hsettles : p'.Settles) {exception : WorkerException}
    (hexception : Q exception) :
    WorkerInvariant arguments Q h ⟨p', .settle (some exception), poisoned⟩ steps where
  stream := hinv.stream
  point := by
    refine .settle _ hsettles (fun hnone => by cases hnone) fun other hmem => ?_
    rw [← Option.some.inj hmem]
    exact hexception
  poisoned := hinv.poisoned

/-- An observed cancellation ends the work on the batches. -/
theorem cancelled (hinv : WorkerInvariant arguments Q h ⟨p, point, poisoned⟩ steps)
    (hholds : Holds h p steps stage) (hcancelled : h.request.cancellationPending = true) :
    WorkerInvariant arguments Q h ((⟨p, point, poisoned⟩ : WorkerState).goto (.settle none))
      steps where
  stream := hinv.stream
  point := by
    rw [StreamingRequestState.cancellationPending, Bool.and_eq_true] at hcancelled
    exact .settle none (hholds.settles.of_eq rfl rfl)
      (fun _ => Or.inr ⟨hholds.running, hcancelled.2⟩) fun exception hmem => by cases hmem
  poisoned := hinv.poisoned

/-- A step to another point. -/
theorem moved (hinv : WorkerInvariant arguments Q h ⟨p, point, poisoned⟩ steps) {next : WorkerPoint}
    (hnext : WorkerAt arguments Q h p' steps next) :
    WorkerInvariant arguments Q h ⟨p', next, poisoned⟩ steps :=
  ⟨hinv.stream, hnext, hinv.poisoned⟩

variable (hmanifest : arguments.manifest = acceptedManifest) (hQ : ExceptionKind Q)
  {reading : DeviceReading}

include hmanifest

/-! ### Generation -/

theorem advance_start
    (hinv : WorkerInvariant arguments Q h ⟨.initial, .start, poisoned⟩ [])
    (haccepted : h.accepted = []) (hrunning : h.request.state = .running) :
    WorkerInvariant arguments Q h
      (WorkerState.advance arguments reading h.request ⟨.initial, .start, poisoned⟩) [] := by
  have hinitial : Holds h .initial [] ⟨none, none, 0, false, false, false⟩ :=
    { running := hrunning
      slots := slotsHold_initial
      audioPending_eq := rfl
      generated_eq := rfl
      generated_le := Nat.zero_le _
      pending := fun g hg => by cases hg
      sequence_eq := by rw [haccepted]; rfl
      nextSampleIndex_eq := by rw [haccepted]; rfl
      frames_eq := by rw [haccepted]; rfl
      ended_eq := rfl
      idle := fun hidle => by cases hidle }
  rw [WorkerState.advance, WorkerState.perform_of_run_eq (run_start hmanifest)]
  refine hinv.moved (.awaitFirst ?_ haccepted rfl)
  exact hinitial.fill 0 2 (by omega) (by omega) (by simp [initial]) 1 startCommands

omit hmanifest in
/-- What the worker holds behind the generation of a batch. -/
theorem holds_generated {frames : ℕ} {ended decoding idle : Bool}
    (hholds : Holds h p steps ⟨none, none, frames, ended, decoding, idle⟩) {slot : BatchSlot}
    (hle : p.generatedDecoderSteps + 4 ≤ 250) (commands : List DeviceCommand) :
    Holds h { p.withSlot slot true false .generationPending with
        generatedDecoderSteps := p.generatedDecoderSteps + 4
        commands } steps
      ⟨some ⟨slot, 4, p.generatedDecoderSteps + 4⟩, none, frames, ended, decoding, idle⟩ :=
  hholds.fill slot 4 (by omega) (by omega) hle p.cacheIndex commands

include hQ

theorem advance_generateFollowing {codec : PendingCodecBatch}
    (hinv : WorkerInvariant arguments Q h ⟨p, .generateFollowing codec, poisoned⟩ steps)
    (hholds : Holds h p steps ⟨none, none, codec.generation.frameCount, codec.generation.final,
      true, true⟩)
    (hcodec : CodecHeld h codec)
    (hcommitted : p.committedTextTokens = h.request.committedTextTokens) :
    WorkerInvariant arguments Q h
      (WorkerState.advance arguments reading h.request ⟨p, .generateFollowing codec, poisoned⟩)
      steps := by
  have hempty := hholds.forget [] p.committedTextTokens
  simp only [WorkerState.advance]
  rcases WorkerState.perform_cases (meets_generateSteadyBatch hmanifest
      (hempty.slots.free (1 - codec.generation.batchSlot))) with
    ⟨pending, p', ⟨rfl, rfl, hle⟩, hperform⟩ | ⟨exception, p', ⟨rfl, detail, rfl⟩, hperform⟩
  · rw [hperform]
    exact hinv.moved (.awaitCodec codec _ (fun g hg => by rw [← Option.some.inj hg])
      (holds_generated hempty hle _) hcodec hcommitted)
  · rw [hperform]
    exact hinv.thrown hempty.settles (hQ.exhausted detail)

theorem advance_observePublished {following : Option PendingGenerationBatch}
    (hinv : WorkerInvariant arguments Q h ⟨p, .observePublished following, poisoned⟩ steps)
    (hfollowing : ∀ g ∈ following, g.stepCount = 4)
    (hholds : Holds h p steps ⟨following, none, 0, false, false, false⟩)
    (haccepted : h.accepted ≠ [])
    (hcommitted : p.committedTextTokens = h.request.committedTextTokens) :
    WorkerInvariant arguments Q h
      (WorkerState.advance arguments reading h.request ⟨p, .observePublished following, poisoned⟩)
      steps := by
  have hempty := hholds.forget [] p.committedTextTokens
  simp only [WorkerState.advance]
  split_ifs with hcancelled
  · exact hinv.cancelled hholds hcancelled
  cases following with
  | some pending =>
    exact hinv.moved (.waiting pending _ rfl (hfollowing pending rfl) hempty haccepted hcommitted)
  | none =>
    have hmeets := (meets_bind (requireSteadyBatchCapacity arguments)
      fun _ => generateSteadyBatch arguments 1).mpr
      ((meets_requireSteadyBatchCapacity (p := { p with commands := [] }) hmanifest).mono
        (fun _ p' h => by rw [h.1]; exact meets_generateSteadyBatch hmanifest (hempty.slots.free 1))
        fun _ _ h => h)
    rcases WorkerState.perform_cases hmeets with
      ⟨pending, p', ⟨rfl, rfl, hle⟩, hperform⟩ | ⟨exception, p', ⟨rfl, detail, rfl⟩, hperform⟩
    · rw [hperform]
      exact hinv.moved (.waiting _ _ rfl rfl (holds_generated hempty hle _) haccepted hcommitted)
    · rw [hperform]
      exact hinv.thrown hempty.settles (hQ.exhausted detail)

/-! ### The result of a batch -/

omit hmanifest hQ in
/-- The entries of a batch were read. -/
theorem stream_read (hinv : WorkerInvariant arguments Q h ⟨p, point, poisoned⟩ steps)
    {pending : PendingGenerationBatch} {decoding idle : Bool}
    (hholds : Holds h p steps ⟨some pending, none, 0, false, decoding, idle⟩)
    (hshape : BatchShape pending.stepCount (batchOf pending reading.diagnostics)) :
    StreamInvariant arguments Q h (steps ++ batchSteps pending reading.diagnostics) := by
  have hread := hholds.read reading.diagnostics
  have hended : reportsEos steps = false := hholds.ended_eq
  have hgenerated := hread.generated_eq
  have hle := hread.generated_le
  have hframes := hread.frames_eq
  have hretained : retainedFrames (steps ++ batchSteps pending reading.diagnostics) = _ :=
    retainedFrames_append_of_not hended
  rw [← (batchOf_eq pending reading.diagnostics).1] at hretained
  have hcount : (batchOf pending reading.diagnostics).frameCount ≤ 2 * pending.stepCount := by
    have hlength := hshape.length_le
    cases hfinal : (batchOf pending reading.diagnostics).final with
    | false => exact (hshape.open_frames hfinal).2.le
    | true =>
      have := (hshape.final_frames hfinal).2
      omega
  have hlength : (batchSteps pending reading.diagnostics).length = pending.stepCount := by
    rw [batchSteps, List.length_map, List.length_range]
  simp only [Option.map_none, Option.getD_none, Nat.add_zero] at hgenerated
  exact
    { hinv.stream with
      steps_le := by omega
      retained_le := by
        rw [hretained, List.length_append]
        omega
      frames_le := by
        simp only at hframes
        omega
      completed := fun hcompleted => by
        rw [hholds.running] at hcompleted
        cases hcompleted }

omit hmanifest in
/-- What is thrown on the way is of the kind `Q`. -/
theorem kind_of_thrown {healthy : Prop} {exception : WorkerException}
    (hblame : healthy ∨ ∀ exception : WorkerException, exception.Typed → Q exception)
    (htyped : exception.Typed)
    (hexhausted : healthy → ∃ detail, exception = .synthesis .contextExhausted detail) :
    Q exception := by
  rcases hblame with hhealthy | hall
  · obtain ⟨detail, rfl⟩ := hexhausted hhealthy
    exact hQ.exhausted detail
  · exact hall exception htyped

theorem advance_awaitGeneration {pending : PendingGenerationBatch}
    (hinv : WorkerInvariant arguments Q h ⟨p, .awaitGeneration pending, poisoned⟩ steps)
    (hfour : pending.stepCount = 4)
    (hholds : Holds h p steps ⟨some pending, none, 0, false, false, true⟩)
    (haccepted : h.accepted ≠ [])
    (hcommitted : p.committedTextTokens = h.request.committedTextTokens)
    (hblame : (WorkerPoint.awaitGeneration pending).Healthy arguments reading ∨
      ∀ exception : WorkerException, exception.Typed → Q exception) :
    WorkerInvariant arguments Q h
      (WorkerState.advance arguments reading h.request ⟨p, .awaitGeneration pending, poisoned⟩)
      (steps ++ (WorkerPoint.awaitGeneration pending).stepsRead reading.diagnostics
        (WorkerState.advance arguments reading h.request
          ⟨p, .awaitGeneration pending, poisoned⟩).point) := by
  have hempty := hholds.forget [] p.committedTextTokens
  simp only [WorkerState.advance]
  rcases WorkerState.perform_cases (meets_awaitGenerationBatch arguments reading.diagnostics
      hmanifest hfour.le hempty.slots.fillingSlot) with
    ⟨batch, p', ⟨rfl, hrecord, rfl, -⟩, hperform⟩ |
    ⟨exception, p', ⟨rfl, htyped, hexhausted⟩, hperform⟩
  · have hshape := batchShape_batchOf hrecord
    rw [hperform]
    refine ⟨hinv.stream_read hholds hshape, .observeGeneration _ (hempty.read reading.diagnostics)
      (hfour ▸ hshape) haccepted hcommitted, hinv.poisoned⟩
  · rw [hperform]
    change WorkerInvariant _ _ _ _ (steps ++ [])
    rw [List.append_nil]
    exact hinv.thrown (hempty.read reading.diagnostics).settles
      (kind_of_thrown hQ hblame htyped fun hrecord => (hexhausted hrecord).1)

omit hQ in
/-- The first batch has no end of speech and four frames, or the worker fails. -/
theorem meets_awaitFirst (hslot : p.Filling 0) :
    Meets (do
        let first ← awaitGenerationBatch arguments ⟨0, 2, 2⟩ reading.diagnostics
        failIf (first.final = true ∨ first.frameCount ≠ arguments.manifest.codec.initialFrames)
          .invariantFailure "EOS was admitted before the fixed initial four frames"
        return first) p
      (fun batch p' => p' = p.withSlot 0 false false .generationReady ∧
        BatchShape 2 batch ∧ batch = batchOf ⟨0, 2, 2⟩ reading.diagnostics ∧
        batch.final = false ∧ batch.frameCount = 4)
      fun exception p' => p' = p.withSlot 0 false false .generationReady ∧ exception.Typed ∧
        ((WorkerPoint.awaitFirst ⟨0, 2, 2⟩).Healthy arguments reading →
          ∃ detail, exception = .synthesis .contextExhausted detail) := by
  have hinitial : arguments.manifest.codec.initialFrames = 4 := by rw [hmanifest, acceptedManifest]
  rw [meets_bind]
  refine (meets_awaitGenerationBatch arguments reading.diagnostics hmanifest
    (show (⟨0, 2, 2⟩ : PendingGenerationBatch).stepCount ≤ 4 by simp) hslot).mono ?_ ?_
  · rintro batch p' ⟨rfl, hrecord, rfl, -⟩
    have hshape := batchShape_batchOf hrecord
    rw [meets_bind, meets_failIf, meets_pure, hinitial]
    refine ⟨fun h => ⟨rfl, trivial, fun hhealthy => ?_⟩, fun h => ?_⟩
    · -- a batch without an end of speech has all its frames
      have hfinal := (batchOf_eq ⟨0, 2, 2⟩ reading.diagnostics).2.trans hhealthy.2
      have hframes := (hshape.open_frames hfinal).2
      rcases h with h | h
      · rw [hfinal] at h
        cases h
      · exact absurd hframes h
    · rw [not_or, not_not, Bool.not_eq_true] at h
      exact ⟨rfl, hshape, rfl, h.1, h.2⟩
  · rintro exception p' ⟨rfl, htyped, hexhausted⟩
    exact ⟨rfl, htyped, fun hhealthy => (hexhausted hhealthy.1).1⟩

theorem advance_awaitFirst
    (hinv : WorkerInvariant arguments Q h ⟨p, .awaitFirst ⟨0, 2, 2⟩, poisoned⟩ steps)
    (hholds : Holds h p steps ⟨some ⟨0, 2, 2⟩, none, 0, false, false, false⟩)
    (haccepted : h.accepted = []) (hcommitted : p.committedTextTokens = 0)
    (hblame : (WorkerPoint.awaitFirst ⟨0, 2, 2⟩).Healthy arguments reading ∨
      ∀ exception : WorkerException, exception.Typed → Q exception) :
    WorkerInvariant arguments Q h
      (WorkerState.advance arguments reading h.request ⟨p, .awaitFirst ⟨0, 2, 2⟩, poisoned⟩)
      (steps ++ (WorkerPoint.awaitFirst ⟨0, 2, 2⟩).stepsRead reading.diagnostics
        (WorkerState.advance arguments reading h.request
          ⟨p, .awaitFirst ⟨0, 2, 2⟩, poisoned⟩).point) := by
  have hempty := hholds.forget [] p.committedTextTokens
  simp only [WorkerState.advance]
  rcases WorkerState.perform_cases (meets_awaitFirst hmanifest hempty.slots.fillingSlot) with
    ⟨batch, p', ⟨rfl, hshape, hbatch, hfinal, hframes⟩, hperform⟩ |
    ⟨exception, p', ⟨rfl, htyped, hexhausted⟩, hperform⟩
  · rw [hperform]
    subst hbatch
    exact ⟨hinv.stream_read hholds hshape, .observeFirst _ (hempty.read reading.diagnostics)
      hshape hfinal hframes haccepted hcommitted, hinv.poisoned⟩
  · rw [hperform]
    change WorkerInvariant _ _ _ _ (steps ++ [])
    rw [List.append_nil]
    exact hinv.thrown (hempty.read reading.diagnostics).settles
      (kind_of_thrown hQ hblame htyped hexhausted)

/-! ### The codec -/

omit hQ in
/-- The codec run of a batch that was read. -/
theorem scheduled {batch : GenerationBatchResult} {first : Bool}
    (hholds : Holds h p steps ⟨none, some batch.batchSlot, batch.frameCount, batch.final, false,
      true⟩)
    (hframes : CodecFrames batch first) {stepCount : ℕ} (hshape : BatchShape stepCount batch)
    (hfirst : first = decide (h.accepted = []))
    (hfour : first = true → batch.frameCount = 4 ∧ batch.final = false) :
    Meets (scheduleCodec arguments batch first) { p with commands := [] }
      (fun codec p' => codec = ⟨batch, batch.frameCount * 1024, first⟩ ∧ CodecHeld h codec ∧
        Holds h p' steps ⟨none, none, batch.frameCount, batch.final, true, true⟩ ∧
        p'.committedTextTokens = p.committedTextTokens)
      fun _ _ => False := by
  have hempty := hholds.forget [] p.committedTextTokens
  rw [meets_of_run_eq (run_scheduleCodec hmanifest hempty.slots.filledSlot hframes
    hempty.audioPending_eq)]
  exact ⟨rfl, ⟨hframes, rfl, ⟨stepCount, hshape⟩, hfirst, hfour⟩, hempty.schedule _ _, rfl⟩

omit hQ in
theorem advance_observeFirst {batch : GenerationBatchResult}
    (hinv : WorkerInvariant arguments Q h ⟨p, .observeFirst batch, poisoned⟩ steps)
    (hholds : Holds h p steps ⟨none, some batch.batchSlot, batch.frameCount, batch.final, false,
      false⟩)
    (hshape : BatchShape 2 batch) (hfinal : batch.final = false) (hframes : batch.frameCount = 4)
    (haccepted : h.accepted = []) (hcommitted : p.committedTextTokens = 0) :
    WorkerInvariant arguments Q h
      (WorkerState.advance arguments reading h.request ⟨p, .observeFirst batch, poisoned⟩)
        steps := by
  simp only [WorkerState.advance]
  split_ifs with hcancelled
  · exact hinv.cancelled hholds hcancelled
  have hidle := hholds.found_idle (hinv.stream.occupied_eq_zero haccepted)
  have hrequest : h.request.committedTextTokens = 0 := by
    rw [hinv.stream.committed_eq, haccepted]
    rfl
  have hcodecFrames : CodecFrames batch true :=
    ⟨by omega, by omega, fun _ hfirst => Bool.noConfusion hfirst⟩
  rcases WorkerState.perform_cases (scheduled hmanifest hidle hcodecFrames hshape
      (by rw [decide_eq_true haccepted]) fun _ => ⟨hframes, hfinal⟩) with
    ⟨codec, p', ⟨rfl, hcodec, hholds', hp'⟩, hperform⟩ | ⟨exception, p', hfalse, -⟩
  · rw [hperform]
    exact hinv.moved (.awaitCodec _ none (fun g hg => by cases hg) hholds' hcodec
      (by rw [hp', hcommitted, hrequest]))
  · exact hfalse.elim

theorem advance_observeGeneration {batch : GenerationBatchResult}
    (hinv : WorkerInvariant arguments Q h ⟨p, .observeGeneration batch, poisoned⟩ steps)
    (hholds : Holds h p steps ⟨none, some batch.batchSlot, batch.frameCount, batch.final, false,
      true⟩)
    (hshape : BatchShape 4 batch) (haccepted : h.accepted ≠ [])
    (hcommitted : p.committedTextTokens = h.request.committedTextTokens) :
    WorkerInvariant arguments Q h
      (WorkerState.advance arguments reading h.request ⟨p, .observeGeneration batch, poisoned⟩)
      steps := by
  have hempty := hholds.forget [] p.committedTextTokens
  have hlength := hshape.length_le
  have hopen := hshape.open_frames
  have hend := hshape.final_frames
  simp only [WorkerState.advance]
  split_ifs with hcancelled hzero hfinal
  · exact hinv.cancelled hholds hcancelled
  · -- only a batch with an end of speech has no frames
    have hfinal : batch.final = true := by
      by_contra hne
      have := (hopen (Bool.eq_false_iff.mpr hne)).2
      omega
    rw [WorkerState.perform_of_run_eq (run_failIf_of_not (by simp [hfinal, hzero]))]
    rw [hzero, hfinal] at hempty
    exact hinv.moved (.observeZeroFrame batch hempty haccepted hcommitted)
  · have hcodecFrames : CodecFrames batch false :=
      ⟨by omega, by have := (hend hfinal).2; omega,
        fun hopen' => by rw [hfinal] at hopen'; cases hopen'⟩
    rcases WorkerState.perform_cases (scheduled hmanifest hholds hcodecFrames hshape
        (by rw [decide_eq_false haccepted]) fun hfirst => Bool.noConfusion hfirst) with
      ⟨codec, p', ⟨rfl, hcodec, hholds', hp'⟩, hperform⟩ | ⟨exception, p', hfalse, -⟩
    · rw [hperform]
      exact hinv.moved (.awaitCodec _ none (fun g hg => by cases hg) hholds' hcodec
        (hp'.trans hcommitted))
    · exact hfalse.elim
  · have hframes := (hopen (Bool.eq_false_iff.mpr hfinal)).2
    have hcodecFrames : CodecFrames batch false := ⟨by omega, by omega, fun _ _ => by omega⟩
    have hmeets := (meets_bind (requireSteadyBatchCapacity arguments)
      fun _ => scheduleCodec arguments batch false).mpr
      ((meets_requireSteadyBatchCapacity (p := { p with commands := [] }) hmanifest).mono
        (fun _ p' h => by
          rw [h.1]
          exact (scheduled hmanifest hholds hcodecFrames hshape (by rw [decide_eq_false haccepted])
            fun hfirst => Bool.noConfusion hfirst).mono (fun _ _ h => h) fun _ _ h => h.elim)
        fun _ _ h => h)
    rcases WorkerState.perform_cases hmeets with
      ⟨codec, p', ⟨rfl, hcodec, hholds', hp'⟩, hperform⟩ |
      ⟨exception, p', ⟨rfl, detail, rfl⟩, hperform⟩
    · rw [hperform]
      exact hinv.moved (.generateFollowing _ hholds' hcodec (hp'.trans hcommitted))
    · rw [hperform]
      exact hinv.thrown hempty.settles (hQ.exhausted detail)

omit hmanifest in
theorem advance_awaitCodec {codec : PendingCodecBatch} {following : Option PendingGenerationBatch}
    (hinv : WorkerInvariant arguments Q h ⟨p, .awaitCodec codec following, poisoned⟩ steps)
    (hfollowing : ∀ g ∈ following, g.stepCount = 4)
    (hholds : Holds h p steps ⟨following, none, codec.generation.frameCount,
      codec.generation.final, true, true⟩)
    (hcodec : CodecHeld h codec)
    (hcommitted : p.committedTextTokens = h.request.committedTextTokens)
    (hblame : (WorkerPoint.awaitCodec codec following).Healthy arguments reading ∨
      ∀ exception : WorkerException, exception.Typed → Q exception) :
    WorkerInvariant arguments Q h
      (WorkerState.advance arguments reading h.request ⟨p, .awaitCodec codec following, poisoned⟩)
      steps := by
  have hawaited : Holds h { p with audioPending := false, commands := [] } steps
      ⟨following, none, codec.generation.frameCount, codec.generation.final, false, true⟩ := by
    refine hholds.of_eq ?_ ?_ ?_ ?_ ?_ ?_ ?_ <;> rfl
  simp only [WorkerState.advance]
  rcases WorkerState.perform_cases (meets_awaitCodec codec reading.validSampleLength
      reading.pcmFinite) with
    ⟨_, p', rfl, hperform⟩ | ⟨exception, p', ⟨rfl, htyped, hrejected⟩, hperform⟩
  · rw [hperform]
    exact hinv.moved (.observeDecoded codec following hfollowing hawaited hcodec hcommitted)
  · rw [hperform]
    exact hinv.thrown hawaited.settles
      (kind_of_thrown hQ hblame htyped fun hhealthy => absurd hhealthy hrejected)

omit hQ in
theorem advance_observeDecoded {codec : PendingCodecBatch}
    {following : Option PendingGenerationBatch}
    (hinv : WorkerInvariant arguments Q h ⟨p, .observeDecoded codec following, poisoned⟩ steps)
    (hfollowing : ∀ g ∈ following, g.stepCount = 4)
    (hholds : Holds h p steps ⟨following, none, codec.generation.frameCount,
      codec.generation.final, false, true⟩)
    (hcodec : CodecHeld h codec)
    (hcommitted : p.committedTextTokens = h.request.committedTextTokens) :
    WorkerInvariant arguments Q h
      (WorkerState.advance arguments reading h.request
        ⟨p, .observeDecoded codec following, poisoned⟩) steps := by
  obtain ⟨stepCount, hshape⟩ := hcodec.shape
  have hsample := hholds.nextSampleIndex_eq
  have hle : p.committedTextTokens ≤ arguments.textTokenIds.length :=
    hcommitted ▸ hinv.stream.committed_le
  have hmeets := meets_audioChunk (p := { p with commands := [] }) hmanifest hshape
    hcodec.frames.pos hcodec.samples_eq (by simp only; omega) hle
  simp only [WorkerState.advance]
  split_ifs with hcancelled
  · exact hinv.cancelled hholds hcancelled
  rcases WorkerState.perform_cases hmeets with
    ⟨chunk, p', ⟨rfl, hchunk, hat⟩, hperform⟩ | ⟨exception, p', hfalse, -⟩
  · rw [hperform]
    simp only [hcommitted] at hchunk
    exact hinv.moved (.publish chunk codec following hfollowing
      (hholds.forget [] chunk.committedTextTokens) hcodec hchunk
      ⟨hat.sampleCount_eq, hat.firstSampleIndex_eq, hat.sequence_eq, hat.codecFrameCount_eq,
        hat.first_eq, hat.final_eq⟩ rfl)
  · exact hfalse.elim

omit hmanifest hQ in
theorem advance_observeZeroFrame {batch : GenerationBatchResult}
    (hinv : WorkerInvariant arguments Q h ⟨p, .observeZeroFrame batch, poisoned⟩ steps)
    (hholds : Holds h p steps ⟨none, some batch.batchSlot, 0, true, false, true⟩)
    (haccepted : h.accepted ≠ [])
    (hcommitted : p.committedTextTokens = h.request.committedTextTokens) :
    WorkerInvariant arguments Q h
      (WorkerState.advance arguments reading h.request ⟨p, .observeZeroFrame batch, poisoned⟩)
      steps := by
  have hle : p.committedTextTokens ≤ arguments.textTokenIds.length :=
    hcommitted ▸ hinv.stream.committed_le
  simp only [WorkerState.advance]
  split_ifs with hcancelled
  · exact hinv.cancelled hholds hcancelled
  obtain ⟨chunk, hrun, -, hchunk, hat⟩ :=
    run_zeroFrameFinal (p := { p with commands := [] }) arguments hle
  rw [WorkerState.perform_of_run_eq hrun]
  simp only [hcommitted] at hchunk
  exact hinv.moved (.publishZeroFrame chunk batch (hholds.forget [] p.committedTextTokens) haccepted
    hchunk ⟨hat.sampleCount_eq, hat.firstSampleIndex_eq, hat.sequence_eq, hat.codecFrameCount_eq,
      hat.first_eq, hat.final_eq⟩)

/-! ### The capacity of the ring -/

omit hQ in
theorem advance_waiting {pending : PendingGenerationBatch}
    (hinv : WorkerInvariant arguments Q h ⟨p, point, poisoned⟩ steps)
    (hpoint : point.waitsFor = some pending) (hfour : pending.stepCount = 4)
    (hholds : Holds h p steps ⟨some pending, none, 0, false, false, false⟩)
    (haccepted : h.accepted ≠ [])
    (hcommitted : p.committedTextTokens = h.request.committedTextTokens) :
    WorkerInvariant arguments Q h
      (WorkerState.advance arguments reading h.request ⟨p, point, poisoned⟩) steps := by
  have hempty := hholds.forget [] p.committedTextTokens
  have hwait : ∀ next : WorkerPoint, next.waitsFor = some pending →
      WorkerInvariant arguments Q h ((⟨p, point, poisoned⟩ : WorkerState).goto next) steps :=
    fun next hnext => hinv.moved (.waiting pending next hnext hfour hempty haccepted hcommitted)
  have hsteady : arguments.manifest.codec.steadyFrames = 8 := by rw [hmanifest, acceptedManifest]
  cases point <;> rw [WorkerPoint.waitsFor] at hpoint <;> cases hpoint <;>
    simp only [WorkerState.advance]
  case canPublish =>
    split_ifs with hcan
    · -- eight free frames in a ring of eight: the ring is empty
      rw [hsteady, StreamingRequestState.canPublish_iff hinv.stream.invariant.accounted,
        hinv.stream.capacity_eq] at hcan
      exact hinv.moved (.observeCapacity pending hfour (hempty.found_idle (by omega)) haccepted
        hcommitted)
    · exact hwait _ rfl
  case observeFull =>
    split_ifs with hcancelled
    · exact hinv.cancelled hholds hcancelled
    · exact hwait _ rfl
  case readRevision =>
    rw [hinv.stream.invariant.snapshot_eq]
    exact hwait _ rfl
  case recheckCapacity =>
    split_ifs
    · exact hwait _ rfl
    · exact hwait _ rfl
  case observeRechecked =>
    split_ifs with hcancelled
    · exact hinv.cancelled hholds hcancelled
    · exact hwait _ rfl
  case waitForRevision => exact hwait _ rfl

/-! ### The end of a run -/

omit hmanifest hQ in
theorem advance_settle {outcome : Option WorkerException}
    (hinv : WorkerInvariant arguments Q h ⟨p, .settle outcome, poisoned⟩ steps)
    (hsettles : p.Settles)
    (hclosing : outcome = none → h.request.state = .completed ∨
      (h.request.state = .running ∧ h.request.cancellationRequested = true))
    (hfailing : ∀ exception ∈ outcome, Q exception) :
    WorkerInvariant arguments Q h
      (WorkerState.advance arguments reading h.request ⟨p, .settle outcome, poisoned⟩) steps := by
  simp only [WorkerState.advance]
  rcases WorkerState.perform_cases (meets_settleInflight (p := { p with commands := [] })
      (hsettles.of_eq rfl rfl)) with
    ⟨_, p', -, hperform⟩ | ⟨exception, p', hfalse, -⟩
  · rw [hperform]
    cases outcome with
    | none => exact hinv.moved (.observeSettled (hclosing rfl))
    | some exception => exact hinv.moved (.failed exception (hfailing exception rfl))
  · exact hfalse.elim

omit hmanifest hQ in
theorem advance_observeSettled
    (hinv : WorkerInvariant arguments Q h ⟨p, .observeSettled, poisoned⟩ steps)
    (hclosing : h.request.state = .completed ∨
      (h.request.state = .running ∧ h.request.cancellationRequested = true)) :
    WorkerInvariant arguments Q h
      (WorkerState.advance arguments reading h.request ⟨p, .observeSettled, poisoned⟩) steps := by
  have hpending : h.request.cancellationPending = true ↔
      h.request.state = .running ∧ h.request.cancellationRequested = true := by
    rw [StreamingRequestState.cancellationPending, Bool.and_eq_true, decide_eq_true_eq]
  simp only [WorkerState.advance]
  split_ifs with hcancelled
  · rw [hpending] at hcancelled
    exact hinv.moved (.completeCancellation hcancelled.1 hcancelled.2)
  · refine hinv.moved (.done ?_)
    rcases hclosing with hcompleted | hcancelling
    · rw [hcompleted]
      exact RequestLifecycleState.noConfusion
    · exact absurd (hpending.mpr hcancelling) hcancelled

omit hmanifest hQ in
theorem advance_failed {exception : WorkerException}
    (hinv : WorkerInvariant arguments Q h ⟨p, .failed exception, poisoned⟩ steps)
    (hexception : Q exception) :
    WorkerInvariant arguments Q h
      (WorkerState.advance arguments reading h.request ⟨p, .failed exception, poisoned⟩) steps where
  stream := hinv.stream
  point := by
    simp only [WorkerState.advance]
    split_ifs with hterminal
    · rw [StreamingRequestState.isTerminal, decide_eq_true_eq] at hterminal
      exact .done hterminal
    · rw [StreamingRequestState.isTerminal, decide_eq_true_eq, not_not] at hterminal
      exact .failRequest exception hexception hterminal
  poisoned := by
    intro hpoisoned
    have hor : (poisoned || exception.failure.poisonSession) = true := hpoisoned
    rcases Bool.or_eq_true _ _ ▸ hor with hold | hnew
    · exact hinv.poisoned hold
    · exact ⟨exception, hexception, hnew⟩

/-- **A step without a call.** -/
theorem advance {w : WorkerState} (hinv : WorkerInvariant arguments Q h w steps)
    (hcall : w.point.call = none)
    (hblame : w.point.Healthy arguments reading ∨
      ∀ exception : WorkerException, exception.Typed → Q exception) :
    WorkerInvariant arguments Q h (w.advance arguments reading h.request)
      (steps ++ w.point.stepsRead reading.diagnostics
        (w.advance arguments reading h.request).point) := by
  obtain ⟨p, point, poisoned⟩ := w
  have hat := hinv.point
  -- only the two waits for a batch read entries
  have hsilent : ∀ {next : WorkerState}, WorkerInvariant arguments Q h next steps →
      point.stepsRead reading.diagnostics next.point = [] →
      WorkerInvariant arguments Q h next
        (steps ++ point.stepsRead reading.diagnostics next.point) := by
    intro next hnext hread
    rw [hread, List.append_nil]
    exact hnext
  cases hat with
  | setDevice hinitial hsteps haccepted hrunning =>
    subst hinitial
    exact hsilent (hinv.moved (.start rfl hsteps haccepted hrunning)) rfl
  | start hinitial hsteps haccepted hrunning =>
    subst hinitial hsteps
    exact hsilent (hinv.advance_start hmanifest haccepted hrunning) rfl
  | awaitFirst hholds haccepted hcommitted =>
    exact hinv.advance_awaitFirst hmanifest hQ hholds haccepted hcommitted hblame
  | observeFirst batch hholds hshape hfinal hframes haccepted hcommitted =>
    exact hsilent
      (hinv.advance_observeFirst hmanifest hholds hshape hfinal hframes haccepted hcommitted) rfl
  | awaitCodec codec following hfollowing hholds hcodec hcommitted =>
    exact hsilent (hinv.advance_awaitCodec hQ hfollowing hholds hcodec hcommitted hblame) rfl
  | observeDecoded codec following hfollowing hholds hcodec hcommitted =>
    exact hsilent
      (hinv.advance_observeDecoded hmanifest hfollowing hholds hcodec hcommitted) rfl
  | publish chunk codec following hfollowing hholds hcodec hchunk hat hcommitted => cases hcall
  | observePublished following hfollowing hholds haccepted hcommitted =>
    exact hsilent
      (hinv.advance_observePublished hmanifest hQ hfollowing hholds haccepted hcommitted) rfl
  | waiting pending point hpoint hfour hholds haccepted hcommitted =>
    refine hsilent (hinv.advance_waiting hmanifest hpoint hfour hholds haccepted hcommitted) ?_
    cases point <;> first | rfl | cases hpoint
  | observeCapacity pending hfour hholds haccepted hcommitted =>
    refine hsilent ?_ rfl
    simp only [WorkerState.advance]
    split_ifs with hcancelled
    · exact hinv.cancelled hholds hcancelled
    · exact hinv.moved (.awaitGeneration pending hfour (hholds.forget [] p.committedTextTokens)
        haccepted hcommitted)
  | awaitGeneration pending hfour hholds haccepted hcommitted =>
    exact hinv.advance_awaitGeneration hmanifest hQ hfour hholds haccepted hcommitted hblame
  | observeGeneration batch hholds hshape haccepted hcommitted =>
    exact hsilent
      (hinv.advance_observeGeneration hmanifest hQ hholds hshape haccepted hcommitted) rfl
  | generateFollowing codec hholds hcodec hcommitted =>
    exact hsilent (hinv.advance_generateFollowing hmanifest hQ hholds hcodec hcommitted) rfl
  | observeZeroFrame batch hholds haccepted hcommitted =>
    exact hsilent (hinv.advance_observeZeroFrame hholds haccepted hcommitted) rfl
  | publishZeroFrame chunk batch hholds haccepted hchunk hat => cases hcall
  | settle outcome hsettles hclosing hfailing =>
    exact hsilent (hinv.advance_settle hsettles hclosing hfailing) rfl
  | observeSettled hclosing => exact hsilent (hinv.advance_observeSettled hclosing) rfl
  | completeCancellation hrunning hcancelled => cases hcall
  | failed exception hexception => exact hsilent (hinv.advance_failed hexception) rfl
  | failRequest exception hexception hrunning => cases hcall
  | done hterminal => exact hsilent (hinv.moved (.done hterminal)) rfl

/-! ### The calls -/

omit hmanifest hQ in
/-- A chunk of the pipeline that takes the next place in the stream is valid, where the ring is
empty. -/
theorem validChunk (hinv : WorkerInvariant arguments Q h ⟨p, point, poisoned⟩ steps)
    {pending : Option PendingGenerationBatch} {slot : Option BatchSlot} {frames : ℕ}
    {ended decoding first final : Bool}
    (hholds : Holds h p steps ⟨pending, slot, frames, ended, decoding, true⟩) {chunk : AudioChunk}
    (hchunk : PipelineChunk arguments h.request.committedTextTokens chunk)
    (hat : ChunkAt p frames first final chunk) (hle : frames ≤ 8)
    (hmarker : frames = 0 → final = true ∧ first = false)
    (hfirst : first = decide (h.accepted = [])) (hfour : first = true → frames = 4)
    (hsteady : first = false → final = false → frames = 8) : h.request.ValidChunk chunk := by
  have hstream := hinv.stream
  have hcapacity := hstream.capacity_eq
  have hidle := hholds.idle rfl
  have hsample := hholds.nextSampleIndex_eq
  have hframes : publishedFrames h.accepted + frames = retainedFrames steps := hholds.frames_eq
  have hretained := hstream.retained_le
  have hsteps := hstream.steps_le
  have hcount := hat.codecFrameCount_eq
  have hevents := hchunk.events
  have hend : addUint64 chunk.firstSampleIndex (chunk.codecFrameCount * kCodecSamplesPerFrame) =
      chunk.firstSampleIndex + chunk.codecFrameCount * 1024 := by
    have := hat.firstSampleIndex_eq
    rw [kCodecSamplesPerFrame, addUint64_eq]
    rw [maximumUint64]
    omega
  refine
    { running := hholds.running
      frames_le := hcount ▸ hle
      marker := ?_
      sampleCount_eq := by rw [hat.sampleCount_eq, hcount, kCodecSamplesPerFrame]
      firstSampleIndex_eq := by
        rw [hat.firstSampleIndex_eq, hstream.nextSampleIndex_eq, hsample]
      sequence_eq := by
        rw [hat.sequence_eq, hstream.invariant.nextSequence_eq, hholds.sequence_eq]
      first_eq := by
        rw [hat.first_eq, hfirst, hstream.invariant.nextSequence_eq]
        simp only [List.length_eq_zero_iff]
      first_frames := fun h => hcount.trans (hfour (hat.first_eq ▸ h))
      steady_frames := fun h h' => hcount.trans (hsteady (hat.first_eq ▸ h) (hat.final_eq ▸ h'))
      fits := by
        rw [hcapacity, hidle, hcount, subUint32]
        omega
      invalid_alignment := fun hinvalid => by
        rw [hchunk.alignmentValid_eq] at hinvalid
        cases hinvalid
      committed_range := fun _ => ⟨hevents.committed_le, by
        rw [hstream.textTokenCount_eq]
        exact hevents.committed_le_textLength⟩
      committed_eq := fun _ hempty => ?_
      events_advance := by
        rw [hend, hstream.textTokenCount_eq]
        exact hevents.advance
      committed_last := fun _ last hlast => ?_ }
  · intro hzero
    rw [hat.final_eq, hat.first_eq]
    exact hmarker (hcount.symm.trans hzero)
  · have hlast := hevents.committed_eq
    rw [hempty] at hlast
    exact hlast.symm
  · have hcommitted := hevents.committed_eq
    rw [List.getLastD_eq_getLast?, Option.mem_def.mp hlast] at hcommitted
    exact hcommitted.symm

omit hmanifest hQ in
/-- A publication behind an accepted cancellation ends the work on the batches. -/
theorem publish_cancelled (hinv : WorkerInvariant arguments Q h ⟨p, point, poisoned⟩ steps)
    (hholds : Holds h p steps stage) (hcancelled : h.request.cancellationRequested = true)
    (chunk : AudioChunk) :
    WorkerInvariant arguments Q (h.step (.publish chunk))
      ((⟨p, point, poisoned⟩ : WorkerState).goto (.settle none)) steps := by
  rw [(StreamInvariant.publish_of_cancelled chunk hcancelled).2]
  refine hinv.cancelled hholds ?_
  rw [StreamingRequestState.cancellationPending, hcancelled, hholds.running]
  rfl

omit hmanifest hQ in
theorem resume_publish {chunk : AudioChunk} {codec : PendingCodecBatch}
    {following : Option PendingGenerationBatch}
    (hinv : WorkerInvariant arguments Q h ⟨p, .publish chunk codec following, poisoned⟩ steps)
    (hfollowing : ∀ g ∈ following, g.stepCount = 4)
    (hholds : Holds h p steps ⟨following, none, codec.generation.frameCount,
      codec.generation.final, false, true⟩)
    (hcodec : CodecHeld h codec)
    (hchunk : PipelineChunk arguments h.request.committedTextTokens chunk)
    (hat : ChunkAt p codec.generation.frameCount codec.first codec.generation.final chunk)
    (hcommitted : p.committedTextTokens = chunk.committedTextTokens) :
    h.request.ValidChunk chunk ∧
      (∃ accepted, (h.call (.publish chunk)).1 = .published accepted) ∧
      WorkerInvariant arguments Q (h.step (.publish chunk))
        (WorkerState.resume arguments (h.call (.publish chunk)).1
          ⟨p, .publish chunk codec following, poisoned⟩) steps := by
  have hpos := hcodec.frames.pos
  have hvalid := hinv.validChunk hholds hchunk hat hcodec.frames.le (fun hzero => by omega)
    hcodec.first_eq (fun hfirst => (hcodec.first_frames hfirst).1)
    (fun hfirst hfinal => hcodec.frames.steady hfinal hfirst)
  refine ⟨hvalid, ?_⟩
  by_cases hcancelled : h.request.cancellationRequested = true
  · have hreply := (StreamInvariant.publish_of_cancelled chunk hcancelled).1
    refine ⟨⟨false, hreply⟩, ?_⟩
    rw [hreply]
    exact hinv.publish_cancelled hholds hcancelled chunk
  · obtain ⟨hreply, hstream, haccepted, hstate, hrequest⟩ := hinv.stream.publish
      (Bool.eq_false_iff.mpr hcancelled) hvalid hchunk
      (by rw [hat.codecFrameCount_eq]; exact hholds.frames_eq)
      (by rw [hat.final_eq]; exact hholds.ended_eq.symm)
    refine ⟨⟨true, hreply⟩, ?_⟩
    rw [hreply, hat.final_eq] at *
    simp only [WorkerState.resume]
    cases hfinal : codec.generation.final with
    | true =>
      have hfirst : codec.first = false := by
        by_contra hne
        rw [(hcodec.first_frames (Bool.eq_true_of_not_eq_false hne)).2] at hfinal
        cases hfinal
      rw [hfirst]
      refine ⟨hstream, .settle none (hholds.settles.of_eq rfl rfl) (fun _ => Or.inl ?_)
        (fun exception hmem => by cases hmem), hinv.poisoned⟩
      rw [hstate, hfinal]
      rfl
    | false =>
      rw [hfinal] at hholds hstate
      have hpublished := hholds.publish hat.codecFrameCount_eq haccepted hstate []
      rw [← hcodec.samples_eq] at hpublished
      exact ⟨hstream, .observePublished following hfollowing hpublished
        (by rw [haccepted]; simp) (hcommitted.trans hrequest.symm), hinv.poisoned⟩

omit hmanifest hQ in
theorem resume_publishZeroFrame {chunk : AudioChunk} {batch : GenerationBatchResult}
    (hinv : WorkerInvariant arguments Q h ⟨p, .publishZeroFrame chunk batch, poisoned⟩ steps)
    (hholds : Holds h p steps ⟨none, some batch.batchSlot, 0, true, false, true⟩)
    (haccepted : h.accepted ≠ [])
    (hchunk : PipelineChunk arguments h.request.committedTextTokens chunk)
    (hat : ChunkAt p 0 false true chunk) :
    h.request.ValidChunk chunk ∧
      (∃ accepted, (h.call (.publish chunk)).1 = .published accepted) ∧
      WorkerInvariant arguments Q (h.step (.publish chunk))
        (WorkerState.resume arguments (h.call (.publish chunk)).1
          ⟨p, .publishZeroFrame chunk batch, poisoned⟩) steps := by
  have hvalid := hinv.validChunk hholds hchunk hat (by omega) (fun _ => ⟨rfl, rfl⟩)
    (by rw [decide_eq_false haccepted]) (fun hfirst => Bool.noConfusion hfirst)
    (fun _ hfinal => Bool.noConfusion hfinal)
  refine ⟨hvalid, ?_⟩
  by_cases hcancelled : h.request.cancellationRequested = true
  · have hreply := (StreamInvariant.publish_of_cancelled chunk hcancelled).1
    refine ⟨⟨false, hreply⟩, ?_⟩
    rw [hreply]
    exact hinv.publish_cancelled hholds hcancelled chunk
  · obtain ⟨hreply, hstream, -, hstate, -⟩ := hinv.stream.publish
      (Bool.eq_false_iff.mpr hcancelled) hvalid hchunk
      (by rw [hat.codecFrameCount_eq]; exact hholds.frames_eq)
      (by rw [hat.final_eq]; exact hholds.ended_eq.symm)
    refine ⟨⟨true, hreply⟩, ?_⟩
    rw [hreply]
    refine ⟨hstream, .settle none (hholds.settles.of_eq rfl rfl) (fun _ => Or.inl ?_)
      (fun exception hmem => by cases hmem), hinv.poisoned⟩
    rw [hstate, hat.final_eq]
    rfl

/-- What the worker offers to its request is valid, and the request answers. -/
def Offered (h : RequestHistory) (call : RequestCall) : Prop :=
  ∀ chunk, call = .publish chunk →
    h.request.ValidChunk chunk ∧ ∃ accepted, (h.call call).1 = .published accepted

omit hmanifest in
/-- **A step with a call.** -/
theorem resume {w : WorkerState} (hinv : WorkerInvariant arguments Q h w steps) {call : RequestCall}
    (hcall : w.point.call = some call) :
    Offered h call ∧
      WorkerInvariant arguments Q (h.step call) (w.resume arguments (h.call call).1) steps := by
  obtain ⟨p, point, poisoned⟩ := w
  have hat := hinv.point
  cases hat with
  | publish chunk codec following hfollowing hholds hcodec hchunk hat hcommitted =>
    obtain rfl := Option.some.inj hcall
    obtain ⟨hvalid, hreply, hnext⟩ :=
      hinv.resume_publish hfollowing hholds hcodec hchunk hat hcommitted
    refine ⟨fun other hother => ?_, hnext⟩
    cases hother
    exact ⟨hvalid, hreply⟩
  | publishZeroFrame chunk batch hholds haccepted hchunk hat =>
    obtain rfl := Option.some.inj hcall
    obtain ⟨hvalid, hreply, hnext⟩ :=
      hinv.resume_publishZeroFrame hholds haccepted hchunk hat
    refine ⟨fun other hother => ?_, hnext⟩
    cases hother
    exact ⟨hvalid, hreply⟩
  | completeCancellation hrunning hcancelled =>
    obtain rfl := Option.some.inj hcall
    obtain ⟨hreply, hstream, hstate⟩ :=
      hinv.stream.completeCancellationAfterDrain hrunning hcancelled
    refine ⟨fun other hother => RequestCall.noConfusion hother, hstream, ?_, ?_⟩
    · rw [hreply]
      refine .done ?_
      rw [hstate]
      exact RequestLifecycleState.noConfusion
    · rw [hreply]
      exact hinv.poisoned
  | failRequest exception hexception hrunning =>
    obtain rfl := Option.some.inj hcall
    obtain ⟨hreply, hstream, hstate⟩ := hinv.stream.fail hexception hrunning
      (hQ.reported exception hexception).messageBytes_ne_nil
    refine ⟨fun other hother => RequestCall.noConfusion hother, hstream, ?_, ?_⟩
    · rw [hreply]
      refine .done ?_
      rw [hstate]
      exact RequestLifecycleState.noConfusion
    · rw [hreply]
      exact hinv.poisoned
  | waiting pending point hpoint hfour hholds haccepted hcommitted =>
    cases point <;> first | (cases hpoint; done) | cases hcall
  | _ => cases hcall

omit hmanifest hQ in
/-- **A step that fails.** -/
theorem interrupt {w : WorkerState} (hinv : WorkerInvariant arguments Q h w steps)
    {fault : DeviceFault} (hfault : Q fault.exception)
    (hdevice : ∀ detail, fault = .cuda detail → Q (.setDevice detail)) (enqueued : ℕ) :
    WorkerInvariant arguments Q h (w.interrupt arguments reading h.request enqueued fault)
      steps := by
  obtain ⟨p, point, poisoned⟩ := w
  have hat := hinv.point
  -- a worker that holds batches settles them; behind the settlement it fails at once
  have hsettle : ∀ {p' : Pipeline}, p.Settles → p'.generationPending = p.generationPending →
      p'.overlapContract = p.overlapContract →
      WorkerInvariant arguments Q h ⟨p', .settle (some fault.exception), poisoned⟩ steps :=
    fun hsettles hpending hcontract => hinv.thrown (hsettles.of_eq hpending hcontract) hfault
  have hfail : ∀ {p' : Pipeline},
      WorkerInvariant arguments Q h ⟨p', .failed fault.exception, poisoned⟩ steps :=
    hinv.moved (.failed _ hfault)
  cases hat with
  | setDevice hinitial hsteps haccepted hrunning =>
    subst hinitial
    cases fault with
    | cuda detail => exact hinv.moved (.failed _ (hdevice detail rfl))
    | _ =>
      refine hinv.moved (.setDevice ?_ hsteps haccepted hrunning)
      simp [WorkerState.advance, WorkerState.goto, initial]
  | start hinitial hsteps haccepted hrunning =>
    subst hinitial
    exact hsettle slotsHold_initial.settles rfl rfl
  | waiting pending point hpoint hfour hholds haccepted hcommitted =>
    cases point <;> first | exact hsettle hholds.settles rfl rfl | cases hpoint
  | settle outcome hsettles hclosing hfailing =>
    cases outcome with
    | none => exact hsettle hsettles rfl rfl
    | some exception => exact hfail
  | observeSettled hclosing => exact hfail
  | completeCancellation hrunning hcancelled => exact hfail
  | failed exception hexception => exact hinv.moved (.failed exception hexception)
  | failRequest exception hexception hrunning =>
    exact hinv.moved (.failRequest exception hexception hrunning)
  | done hterminal => exact hinv.moved (.done hterminal)
  | awaitFirst hholds => exact hsettle hholds.settles rfl rfl
  | observeFirst batch hholds => exact hsettle hholds.settles rfl rfl
  | awaitCodec codec following hfollowing hholds => exact hsettle hholds.settles rfl rfl
  | observeDecoded codec following hfollowing hholds => exact hsettle hholds.settles rfl rfl
  | publish chunk codec following hfollowing hholds => exact hsettle hholds.settles rfl rfl
  | observePublished following hfollowing hholds => exact hsettle hholds.settles rfl rfl
  | observeCapacity pending hfour hholds => exact hsettle hholds.settles rfl rfl
  | awaitGeneration pending hfour hholds => exact hsettle hholds.settles rfl rfl
  | observeGeneration batch hholds => exact hsettle hholds.settles rfl rfl
  | generateFollowing codec hholds => exact hsettle hholds.settles rfl rfl
  | observeZeroFrame batch hholds => exact hsettle hholds.settles rfl rfl
  | publishZeroFrame chunk batch hholds => exact hsettle hholds.settles rfl rfl

end WorkerInvariant

end MagpieTts.Runtime
