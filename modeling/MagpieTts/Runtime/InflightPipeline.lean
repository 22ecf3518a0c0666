import MagpieTts.Runtime.InflightWork
import MagpieTts.Runtime.SynthesisInvariant

/-!
# The pipeline and its work in flight

Each function of the pipeline enqueues its commands in an allowed order and leaves the books of the
work in flight in agreement with the fields of the pipeline. Nothing is asked of the manifest here:
the limits, the frame counts and the buffer sizes may be any.

## Main definitions

* `Pipeline.Tracks`: the books agree with the fields of a pipeline.
* `Pipeline.StepFits`, `Pipeline.BatchFits`: the limits leave room for a step, and for a batch.
* `WorkerException.Lawful`: an exception that does not come from a violated contract.
* `Pipeline.Abandons`: what holds where a function throws.

## Main results

* `Pipeline.meets_generateFirstFour_tracks`, `Pipeline.meets_generateSteadyBatch_tracks`,
  `Pipeline.meets_awaitGenerationBatch_tracks`, `Pipeline.meets_scheduleCodec_tracks`: the
  functions.
* `Pipeline.Tracks.settlesTo`: the waits of `settle_inflight` leave nothing in flight.
-/

namespace MagpieTts.Runtime

open MagpieTts.Library

/-! ### The exceptions -/

/-- The texts of the overlap contract. -/
def AsyncPipelineContract.violations : List String :=
  ["generation batch slot reused without codec-consumed dependency",
    "generation completion did not match a pending batch",
    "codec batch scheduled before generation diagnostics completed",
    "generation slot reuse lacks a preceding codec pack"]

/-- The texts of the capacity checks of a decoder step. -/
def Pipeline.decoderStepExhaustions : List String :=
  ["Main Decoder step would exceed the authenticated context",
    "absolute Main Decoder position reached its upper bound"]

/-- The exception is neither a logic error of the overlap contract nor thrown by the capacity checks
of a decoder step. -/
def WorkerException.Lawful : WorkerException → Prop
  | standard what => what ∉ AsyncPipelineContract.violations
  | synthesis .contextExhausted detail => detail ∉ Pipeline.decoderStepExhaustions
  | _ => True

theorem WorkerException.Lawful.of_exhausted {detail : String}
    (hsteps : detail ≠ "Main Decoder step would exceed the authenticated context")
    (hposition : detail ≠ "absolute Main Decoder position reached its upper bound") :
    (synthesis .contextExhausted detail).Lawful := by
  change detail ∉ Pipeline.decoderStepExhaustions
  rw [Pipeline.decoderStepExhaustions, List.mem_cons, List.mem_singleton, not_or]
  exact ⟨hsteps, hposition⟩

/-- The exception leaves the session usable. -/
def WorkerException.LeavesUsable (exception : WorkerException) : Prop :=
  exception.failure.poisonSession = false

theorem WorkerException.leavesUsable_iff {exception : WorkerException} :
    exception.LeavesUsable ↔ ∃ detail, exception = .synthesis .contextExhausted detail := by
  cases exception with
  | synthesis code detail => cases code <;> simp [LeavesUsable, failure]
  | _ => simp [LeavesUsable, failure]

namespace Pipeline

/-! ### The limits -/

variable (arguments : PipelineArguments)

/-- The limits leave room for one more decoder step. -/
structure StepFits (generated : ℕ) : Prop where
  pos : 0 < generated
  lt_steps : generated < arguments.manifest.limits.maximumDecoderSteps
  lt_position : arguments.manifest.kvCache.firstStepPosition + generated - 1 <
    arguments.manifest.kvCache.stepPositionUpperBoundExclusive

/-- The limits leave room for a steady batch. -/
structure BatchFits (generated : ℕ) : Prop where
  pos : 0 < generated
  le_steps : generated + 4 ≤ arguments.manifest.limits.maximumDecoderSteps
  lt_position : arguments.manifest.kvCache.firstStepPosition + generated + 4 - 2 <
    arguments.manifest.kvCache.stepPositionUpperBoundExclusive

variable {arguments} {p : Pipeline}

/-- The check for a batch covers each of its steps. -/
theorem BatchFits.stepFits {generated : ℕ} (h : BatchFits arguments generated) {step : ℕ}
    (hstep : step < 4) : StepFits arguments (generated + step) := by
  have hpos := h.pos
  have hsteps := h.le_steps
  have hposition := h.lt_position
  exact ⟨by omega, by omega, by omega⟩

/-- The check for the first batch covers its only decoder step. -/
theorem meets_requireInitialBatchCapacity_fits :
    Meets (requireInitialBatchCapacity arguments) p
      (fun _ p' => p' = p ∧ StepFits arguments 1)
      fun exception p' => p' = p ∧ exception.Lawful := by
  rw [requireInitialBatchCapacity, meets_bind, meets_failIf]
  refine ⟨fun _ => ⟨rfl, .of_exhausted (by simp only [ne_eq, String.reduceEq, not_false_eq_true])
    (by simp only [ne_eq, String.reduceEq, not_false_eq_true])⟩, fun hsteps => ?_⟩
  rw [meets_failIf]
  refine ⟨fun _ => ⟨rfl, .of_exhausted (by simp only [ne_eq, String.reduceEq, not_false_eq_true])
    (by simp only [ne_eq, String.reduceEq, not_false_eq_true])⟩, fun hposition => ?_⟩
  exact ⟨rfl, by omega, by omega, by omega⟩

theorem meets_requireSteadyBatchCapacity_fits :
    Meets (requireSteadyBatchCapacity arguments) p
      (fun _ p' => p' = p ∧ BatchFits arguments p.generatedDecoderSteps)
      fun exception p' => p' = p ∧ exception.Lawful ∧
        ¬ BatchFits arguments p.generatedDecoderSteps := by
  rw [requireSteadyBatchCapacity, kMaximumDecoderStepsPerEmission,
    meets_bind, meets_get, meets_bind,
    meets_failIf]
  refine ⟨fun h => ⟨rfl, .of_exhausted (by simp only [ne_eq, String.reduceEq, not_false_eq_true])
    (by simp only [ne_eq, String.reduceEq, not_false_eq_true]), fun hfits => ?_⟩, fun hsteps => ?_⟩
  · have hpos := hfits.pos
    have hle := hfits.le_steps
    omega
  rw [meets_failIf]
  refine ⟨fun h => ⟨rfl, .of_exhausted (by simp only [ne_eq, String.reduceEq, not_false_eq_true])
    (by simp only [ne_eq, String.reduceEq, not_false_eq_true]), fun hfits => ?_⟩,
    fun hposition => ?_⟩
  · exact absurd hfits.lt_position (Nat.not_lt_of_le h)
  · exact ⟨rfl, by omega, by omega, by omega⟩

/-- The capacity checks of a decoder step never fail where there is room for it. -/
theorem run_runDecoderStep_of_fits (hfits : StepFits arguments p.generatedDecoderSteps)
    (stepSlot : ℕ) :
    (runDecoderStep arguments stepSlot).run.run p =
      (.ok (),
        { p with
          cacheIndex := 1 - p.cacheIndex
          commands := p.commands ++ decoderCommands p.cacheIndex stepSlot }) := by
  have hpos := hfits.pos
  have hsteps := hfits.lt_steps
  have hposition := hfits.lt_position
  refine run_eq_of_meets ?_
  simp only [runDecoderStep, advanceAlignment, decoderCommands, meets_bind, meets_get, meets_failIf,
    meets_enqueue, meets_modify, List.append_assoc, List.cons_append, List.nil_append, and_self]
  exact ⟨by omega, fun _ => ⟨by omega, fun _ => trivial⟩⟩

/-! ### The books and the pipeline -/

/-- The waits of `settle_inflight`. -/
def settleEvents (p : Pipeline) : List PipelineEvent :=
  ((([0, 1] : List BatchSlot).filter p.generationPending).map .generationAwaited ++
    if p.audioPending then [.codecAwaited] else []) ++ [.settled]

/-- The waits of `settle_inflight` leave nothing in flight. -/
def SettlesTo (p : Pipeline) (work : InflightWork) : Prop :=
  (run InflightWork.step work p.settleEvents).Quiet

/-- The books agree with the fields of the pipeline: with the batch in flight, the batch that was
validated, whether the codec runs, and whether its result waits for its publication. -/
structure Tracks (p : Pipeline) (work : InflightWork) (pending filled : Option BatchSlot)
    (decoding result : Bool) : Prop where
  slots : p.SlotsHold pending filled
  audioPending_eq : p.audioPending = decoding
  generation : work.Generates pending
  codec : if decoding then ∃ commands samples, work.codec = commands ++ [.copyPcm samples]
    else work.codec = []
  packing_eq : work.packing = p.slotRequiresReuseWait
  validated : ∀ slot ∈ filled, work.validated slot = true
  result_eq : work.result = result

theorem tracks_initial : initial.Tracks .initial none none false false where
  slots := slotsHold_initial
  audioPending_eq := rfl
  generation := rfl
  codec := rfl
  packing_eq := rfl
  validated := fun slot h => by cases h
  result_eq := rfl

/-- The fields that the books speak of are the same. -/
structure KeepsSlots (p p' : Pipeline) : Prop where
  generationPending_eq : p'.generationPending = p.generationPending
  slotRequiresReuseWait_eq : p'.slotRequiresReuseWait = p.slotRequiresReuseWait
  overlapContract_eq : p'.overlapContract = p.overlapContract
  audioPending_eq : p'.audioPending = p.audioPending

namespace KeepsSlots

variable {p' p'' : Pipeline}

theorem refl (p : Pipeline) : KeepsSlots p p := ⟨rfl, rfl, rfl, rfl⟩

theorem trans (h : KeepsSlots p p') (h' : KeepsSlots p' p'') : KeepsSlots p p'' :=
  ⟨h'.1.trans h.1, h'.2.trans h.2, h'.3.trans h.3, h'.4.trans h.4⟩

end KeepsSlots

namespace Tracks

variable {p' : Pipeline} {work : InflightWork} {pending filled : Option BatchSlot}
  {decoding result : Bool}

theorem of_keeps (h : p.Tracks work pending filled decoding result) (hkeeps : KeepsSlots p p') :
    p'.Tracks work pending filled decoding result where
  slots := h.slots.of_eq hkeeps.1 hkeeps.2 hkeeps.3
  audioPending_eq := hkeeps.4.trans h.audioPending_eq
  generation := h.generation
  codec := h.codec
  packing_eq := h.packing_eq.trans hkeeps.2.symm
  validated := h.validated
  result_eq := h.result_eq

/-- The commands do not matter. -/
theorem forget (h : p.Tracks work pending filled decoding result) (commands : List DeviceCommand) :
    ({ p with commands } : Pipeline).Tracks work pending filled decoding result :=
  h.of_keeps ⟨rfl, rfl, rfl, rfl⟩

theorem filter_slot (slot : BatchSlot) :
    ([0, 1] : List BatchSlot).filter (fun other => decide (some slot = some other)) = [slot] := by
  revert slot
  decide

/-- The waits of `settle_inflight` leave nothing in flight. -/
theorem settlesTo (h : p.Tracks work pending filled decoding result) : p.SettlesTo work := by
  have hpending : ∀ slot, p.generationPending slot = decide (pending = some slot) := by
    intro slot
    have hslot := h.slots slot
    split_ifs at hslot with hp hf
    · rw [hslot.pending, decide_eq_true hp]
    · rw [hslot.notPending, decide_eq_false hp]
    · rw [hslot.notPending, decide_eq_false hp]
  have hcodec : ∀ work' : InflightWork, work'.generation = [] → work'.codec = work.codec →
      (run InflightWork.step work'
        ((if p.audioPending then [.codecAwaited] else []) ++ [.settled])).Quiet := by
    intro work' hgeneration hcodec_eq
    have hrunning := h.codec
    rw [← h.audioPending_eq, ← hcodec_eq] at hrunning
    split_ifs at hrunning ⊢ with haudio
    · obtain ⟨commands, samples, hcopy⟩ := hrunning
      rw [List.singleton_append, run_cons, InflightWork.step_codecAwaited hcopy]
      exact ⟨hgeneration, rfl⟩
    · exact ⟨hgeneration, hrunning⟩
  rw [SettlesTo, settleEvents, List.append_assoc, run_append]
  have hgeneration := h.generation
  cases pending with
  | none =>
    simp only [List.filter_cons, hpending, reduceCtorEq, decide_false, Bool.false_eq_true, if_false,
      List.filter_nil, List.map_nil, run_nil]
    exact hcodec work hgeneration rfl
  | some slot =>
    obtain ⟨commands, hcopy⟩ := hgeneration
    have hfilter : ([0, 1] : List BatchSlot).filter p.generationPending = [slot] := by
      rw [funext hpending, filter_slot]
    rw [hfilter, List.map_singleton, run_cons, run_nil, InflightWork.step_generationAwaited hcopy]
    exact hcodec _ rfl rfl

end Tracks

/-! ### The generation of a batch -/

variable {work : InflightWork} {slot : BatchSlot}

theorem generates_localCommands (stepSlot aggregateFrameOffset : ℕ) (forbidEos : Bool) :
    ∀ command ∈ localCommands stepSlot slot aggregateFrameOffset forbidEos,
      command.Generates slot := by
  intro command hmem
  rcases List.mem_append.mp hmem with hstage | hrest
  · split_ifs at hstage
    · obtain rfl := List.mem_singleton.mp hstage
      rfl
    · cases hstage
  · simp only [List.mem_cons, List.not_mem_nil, or_false] at hrest
    rcases hrest with rfl | rfl | rfl <;> rfl

theorem generates_decoderCommands (cacheInput : BufferIndex) (stepSlot : ℕ) :
    ∀ command ∈ decoderCommands cacheInput stepSlot, command.Generates slot := by
  intro command hmem
  simp only [decoderCommands, List.mem_cons, List.not_mem_nil, or_false] at hmem
  rcases hmem with rfl | rfl | rfl <;> rfl

/-- Between the two pipelines, commands of a generation batch for the slot were enqueued. -/
structure GeneratesSteps (work : InflightWork) (slot : BatchSlot) (p p' : Pipeline)
    (steps : ℕ) : Prop where
  keeps : KeepsSlots p p'
  generating : ∃ after, work.Generating slot p'.commands after
  generated_eq : p'.generatedDecoderSteps = p.generatedDecoderSteps + steps

namespace GeneratesSteps

variable {p' p'' : Pipeline} {steps more : ℕ}

theorem trans (h : GeneratesSteps work slot p p' steps)
    (h' : GeneratesSteps work slot p' p'' more) :
    GeneratesSteps work slot p p'' (steps + more) where
  keeps := h.keeps.trans h'.keeps
  generating := h'.generating
  generated_eq := by
    rw [h'.generated_eq, h.generated_eq, Nat.add_assoc]

/-- More commands of the batch. -/
theorem enqueue (h : GeneratesSteps work slot p p' steps) {commands : List DeviceCommand}
    (hcommands : ∀ command ∈ commands, command.Generates slot) :
    GeneratesSteps work slot p { p' with commands := p'.commands ++ commands } steps where
  keeps := h.keeps.trans ⟨rfl, rfl, rfl, rfl⟩
  generating := by
    obtain ⟨after, hafter⟩ := h.generating
    exact hafter.append hcommands
  generated_eq := h.generated_eq

end GeneratesSteps

theorem meets_runLocal_tracks (stepSlot aggregateFrameOffset : ℕ)
    (h : ∃ after, work.Generating slot p.commands after) :
    Meets (runLocal stepSlot slot aggregateFrameOffset) p
      (fun _ p' => GeneratesSteps work slot p p' 1) fun _ _ => False := by
  obtain ⟨after, hafter⟩ := h
  rw [meets_of_run_eq (run_runLocal stepSlot slot aggregateFrameOffset p)]
  exact ⟨⟨rfl, rfl, rfl, rfl⟩, hafter.append (generates_localCommands _ _ _), rfl⟩

theorem meets_runDecoderStep_tracks (hfits : StepFits arguments p.generatedDecoderSteps)
    (stepSlot : ℕ) (h : ∃ after, work.Generating slot p.commands after) :
    Meets (runDecoderStep arguments stepSlot) p
      (fun _ p' => GeneratesSteps work slot p p' 0) fun _ _ => False := by
  obtain ⟨after, hafter⟩ := h
  rw [meets_of_run_eq (run_runDecoderStep_of_fits hfits stepSlot)]
  exact ⟨⟨rfl, rfl, rfl, rfl⟩, hafter.append (generates_decoderCommands _ _), rfl⟩

/-- The passes of a steady batch. -/
theorem meets_passes_tracks (stepSlots : List ℕ)
    (hfits : ∀ step < stepSlots.length, StepFits arguments (p.generatedDecoderSteps + step))
    (h : ∃ after, work.Generating slot p.commands after) :
    Meets (stepSlots.forM fun stepSlot => do
        runDecoderStep arguments stepSlot
        runLocal stepSlot slot (stepSlot * arguments.manifest.localAr.framesPerDecoderStep)) p
      (fun _ p' => GeneratesSteps work slot p p' stepSlots.length) fun _ _ => False := by
  induction stepSlots generalizing p with
  | nil => exact ⟨KeepsSlots.refl p, h, rfl⟩
  | cons stepSlot rest ih =>
    rw [List.forM, meets_bind, meets_bind]
    refine (meets_runDecoderStep_tracks (hfits 0 (Nat.succ_pos _)) stepSlot h).mono
      (fun _ p₁ hdecoder => ?_) fun _ _ h => h
    refine (meets_runLocal_tracks stepSlot _ hdecoder.generating).mono
      (fun _ p₂ hlocal => ?_) fun _ _ h => h
    have hgenerated := (hdecoder.trans hlocal).generated_eq
    refine (ih (fun step hstep => ?_) hlocal.generating).mono (fun _ p₃ hrest => ?_) fun _ _ h => h
    · have hlater := hfits (step + 1) (Nat.succ_lt_succ hstep)
      rwa [hgenerated, Nat.add_assoc, Nat.zero_add, Nat.add_comm 1]
    · have hall := (hdecoder.trans hlocal).trans hrest
      rwa [Nat.zero_add, Nat.add_comm 1] at hall

/-- The slot is prepared for its next batch: the wait for the codec orders the writes of the batch
behind the pack that reads the slot. -/
theorem run_prepareGenerationSlot_tracks (hfree : p.Free slot)
    (hpacking : work.packing = p.slotRequiresReuseWait) {after : InflightWork}
    (henqueues : work.Enqueues p.commands after) (hcodec : after.codec = work.codec)
    (hresult : after.result = work.result) (hsame : after.packing = work.packing) :
    ∃ p', (prepareGenerationSlot slot).run.run p = (.ok (), p') ∧
      KeepsSlots (p.withSlot slot false false .generationPending) p' ∧
      p'.generatedDecoderSteps = p.generatedDecoderSteps ∧
      ∃ after, work.Generating slot p'.commands after := by
  refine ⟨_, run_prepareGenerationSlot hfree, ⟨rfl, rfl, rfl, rfl⟩, rfl, ?_⟩
  cases hreuse : p.slotRequiresReuseWait slot with
  | true =>
    refine ⟨_, henqueues.concat
      (show after.Allows (.command (.waitCodesConsumed slot)) from trivial),
      hcodec, hresult, ?_⟩
    rw [← hsame]
    rfl
  | false =>
    refine ⟨after, ?_, hcodec, hresult, ?_⟩
    · simp only [Bool.false_eq_true, if_false, List.append_nil]
      exact henqueues
    · rw [hsame, ← hreuse, ← hpacking, Function.update_eq_self]

/-- The end of a batch: it is in flight. -/
theorem tracks_generated {p' : Pipeline} {decoding result : Bool}
    (htracks : p.Tracks work none none decoding result)
    (hkeeps : KeepsSlots (p.withSlot slot false false .generationPending) p')
    (hgenerating : ∃ after, work.Generating slot p'.commands after) (stepCount : ℕ) :
    ∃ after, work.Enqueues (p'.commands ++ finishCommands slot stepCount p'.cacheIndex) after ∧
      ({ p' with
        generationPending := Function.update p'.generationPending slot true
        commands := p'.commands ++ finishCommands slot stepCount p'.cacheIndex } : Pipeline).Tracks
          after (some slot) none decoding result := by
  obtain ⟨after, hafter⟩ := hgenerating
  have hpacked := hafter.concat
    (show (DeviceCommand.packGenerationDiagnostics slot stepCount p'.cacheIndex).Generates slot
      from rfl)
  have hcopied := hpacked.concat
    (show (DeviceCommand.copyGenerationDiagnostics slot).Generates slot from rfl)
  rw [List.append_assoc] at hcopied
  refine ⟨_, hcopied.enqueues, ?_⟩
  constructor
  · refine (htracks.slots.fill slot).of_eq ?_ hkeeps.2 hkeeps.3
    change Function.update p'.generationPending slot true = _
    rw [hkeeps.1]
    exact Function.update_idem ..
  · exact hkeeps.4.trans htracks.audioPending_eq
  · exact ⟨_, rfl⟩
  · rw [hcopied.codec_eq]
    exact htracks.codec
  · rw [hcopied.packing_eq, htracks.packing_eq]
    exact hkeeps.2.symm
  · exact fun slot h => by cases h
  · exact hcopied.result_eq.trans htracks.result_eq

/-- A batch of a function that started with the books `work` is in flight. -/
def LeavesInFlight (work : InflightWork) (slot : BatchSlot) (decoding result : Bool)
    (pending : PendingGenerationBatch) (p' : Pipeline) : Prop :=
  pending.batchSlot = slot ∧
    ∃ after, work.Enqueues p'.commands after ∧ p'.Tracks after (some slot) none decoding result

theorem meets_finishGenerationBatch_tracks {p' : Pipeline} {decoding result : Bool}
    (htracks : p.Tracks work none none decoding result)
    (hkeeps : KeepsSlots (p.withSlot slot false false .generationPending) p')
    (hgenerating : ∃ after, work.Generating slot p'.commands after) (stepCount : ℕ) :
    Meets (finishGenerationBatch slot stepCount) p' (LeavesInFlight work slot decoding result)
      fun _ _ => False := by
  rw [meets_of_run_eq (run_finishGenerationBatch slot stepCount p')]
  exact ⟨rfl, tracks_generated htracks hkeeps hgenerating stepCount⟩

/-- The first batch, behind the commands that initialize the request. -/
theorem meets_generateFirstFour_tracks (hfits : StepFits arguments 1)
    (hkeeps : KeepsSlots initial p) (hgenerated : p.generatedDecoderSteps = 0)
    (hgenerating : ∃ after, InflightWork.initial.Generating 0 p.commands after) :
    Meets (generateFirstFour arguments 0) p (LeavesInFlight .initial 0 false false)
      fun _ _ => False := by
  have htracks : p.Tracks .initial none none false false := tracks_initial.of_keeps hkeeps
  obtain ⟨after, hafter⟩ := hgenerating
  have hpacking : after.packing = InflightWork.initial.packing := by
    rw [hafter.packing_eq]
    exact Function.update_eq_self 0 InflightWork.initial.packing
  obtain ⟨p₀, hrun, hslots, hgenerated₀, hgenerating₀⟩ :=
    run_prepareGenerationSlot_tracks (htracks.slots.free 0) htracks.packing_eq hafter.enqueues
      hafter.codec_eq hafter.result_eq hpacking
  rw [hgenerated] at hgenerated₀
  have hbegun : GeneratesSteps .initial 0 p₀ p₀ 0 := ⟨KeepsSlots.refl p₀, hgenerating₀, rfl⟩
  have hadvanced : GeneratesSteps .initial 0 p₀
      { p₀ with commands := p₀.commands ++ [.advanceAlignment 0] } 0 :=
    hbegun.enqueue fun command hmem => by
      rw [List.mem_singleton.mp hmem]
      rfl
  rw [generateFirstFour, meets_bind, meets_of_run_eq hrun, meets_bind, advanceAlignment,
    meets_enqueue, meets_bind]
  refine
    (meets_runLocal_tracks 0 0 hadvanced.generating).mono (fun _ p₁ hlocal => ?_) fun _ _ h => h
  have hfirst := hadvanced.trans hlocal
  have hone : p₁.generatedDecoderSteps = 1 := by rw [hfirst.generated_eq, hgenerated₀]
  rw [meets_bind]
  refine (meets_runDecoderStep_tracks (hone ▸ hfits) 1 hfirst.generating).mono
    (fun _ p₂ hdecoder => ?_) fun _ _ h => h
  rw [meets_bind]
  refine (meets_runLocal_tracks 1 2 (hfirst.trans hdecoder).generating).mono
    (fun _ p₃ hsecond => ?_) fun _ _ h => h
  have hall := (hfirst.trans hdecoder).trans hsecond
  exact meets_finishGenerationBatch_tracks htracks (hslots.trans hall.keeps) hall.generating 2

/-- A steady batch, or no room for it. -/
theorem meets_generateSteadyBatch_tracks {decoding result : Bool}
    (htracks : p.Tracks work none none decoding result) (hcommands : p.commands = []) :
    Meets (generateSteadyBatch arguments slot) p (LeavesInFlight work slot decoding result)
      fun exception p' => p' = p ∧ exception.Lawful ∧
        ¬ BatchFits arguments p.generatedDecoderSteps := by
  rw [generateSteadyBatch, meets_bind]
  refine meets_requireSteadyBatchCapacity_fits.mono ?_ fun _ _ h => h
  rintro _ _ ⟨rfl, hfits⟩
  obtain ⟨p₀, hrun, hslots, hgenerated, hgenerating⟩ :=
    run_prepareGenerationSlot_tracks (htracks.slots.free slot) htracks.packing_eq
      (hcommands ▸ InflightWork.Enqueues.nil) rfl rfl rfl
  rw [meets_bind, meets_of_run_eq hrun, meets_bind]
  refine (meets_passes_tracks (List.range kMaximumDecoderStepsPerEmission) (fun step hstep => ?_)
    hgenerating).mono (fun _ p₁ hpasses => ?_) fun _ _ h => h.elim
  · rw [kMaximumDecoderStepsPerEmission, List.length_range] at hstep
    rw [hgenerated]
    exact hfits.stepFits hstep
  · exact (meets_finishGenerationBatch_tracks htracks (hslots.trans hpasses.keeps)
      hpasses.generating _).mono (fun _ _ h => h) fun _ _ h => h.elim

/-! ### The result of a batch -/

theorem meets_readGenerationStep_tracks (diagnostics : GenerationStepDiagnostics) (step : ℕ)
    (progress : BatchProgress) :
    Meets (readGenerationStep arguments diagnostics step progress) p (fun _ p' => p' = p)
      fun exception p' => exception.Lawful ∧ p' = p := by
  have htext : ∀ {emitted : String}, retainedCodecFramesBeforeEos step diagnostics.endFrameIndex =
      .error emitted → emitted ∉ AsyncPipelineContract.violations := by
    intro emitted hemitted
    rw [retainedCodecFramesBeforeEos] at hemitted
    split_ifs at hemitted
    · rw [← Except.error.inj hemitted]
      simp only [AsyncPipelineContract.violations, List.mem_cons, List.not_mem_nil, String.reduceEq,
        or_self, not_false_eq_true]
    · rw [← Except.error.inj hemitted]
      simp only [AsyncPipelineContract.violations, List.mem_cons, List.not_mem_nil, String.reduceEq,
        or_self, not_false_eq_true]
  simp only [readGenerationStep, meets_bind, meets_failIf]
  refine ⟨fun _ => ⟨trivial, trivial⟩, fun _ => ⟨fun _ => ⟨trivial, trivial⟩, fun _ =>
    ⟨fun _ => ⟨trivial, trivial⟩, fun _ => ⟨fun _ => ⟨trivial, trivial⟩, fun _ => ?_⟩⟩⟩⟩
  cases progress.final with
  | true => rfl
  | false =>
    by_cases hend : 0 ≤ diagnostics.endFrameIndex
    · simp only [Bool.false_eq_true, if_false, if_pos hend]
      cases hretained : retainedCodecFramesBeforeEos step diagnostics.endFrameIndex with
      | ok emittedFrames => rfl
      | error what => exact ⟨htext hretained, rfl⟩
    · simp only [Bool.false_eq_true, if_false, if_neg hend]
      rfl

/-- The batch is read, or the pipeline fails. Only the end of the context leaves the session
usable. -/
theorem meets_awaitGenerationBatch_tracks {pending : PendingGenerationBatch}
    (diagnostics : GenerationBatchDiagnostics) (hfilling : p.Filling pending.batchSlot) :
    Meets (awaitGenerationBatch arguments pending diagnostics) p
      (fun batch p' => batch.batchSlot = pending.batchSlot ∧
        p' = p.withSlot pending.batchSlot false false .generationReady)
      fun exception p' => exception.Lawful ∧
        p' = p.withSlot pending.batchSlot false false .generationReady := by
  have hready : p.overlapContract.markGenerationReady pending.batchSlot =
      .ok ⟨Function.update p.overlapContract.states pending.batchSlot .generationReady⟩ :=
    AsyncPipelineContract.transition_of_mem (by simp [hfilling.state])
  have hslot : ({ p with
      generationPending := Function.update p.generationPending pending.batchSlot false
      overlapContract :=
        ⟨Function.update p.overlapContract.states pending.batchSlot .generationReady⟩ } :
          Pipeline) =
      p.withSlot pending.batchSlot false false .generationReady := by
    have hreuse : Function.update p.slotRequiresReuseWait pending.batchSlot false =
        p.slotRequiresReuseWait := by
      rw [← hfilling.fresh, Function.update_eq_self]
    rw [withSlot, hreuse]
  rw [awaitGenerationBatch, meets_bind, meets_modify, meets_bind, meets_overlap rfl hready]
  simp only [meets_bind, meets_failIf, hslot]
  refine ⟨fun _ => ⟨trivial, trivial⟩, fun _ => ⟨fun _ => ⟨trivial, trivial⟩, fun _ => ?_⟩⟩
  refine (meets_foldlM
    (fun _ _ p' => p' = p.withSlot pending.batchSlot false false .generationReady)
    rfl fun _ _ _ _ _ _ h => ?_).mono ?_ fun exception p' h => h
  · subst h
    exact meets_readGenerationStep_tracks _ _ _
  · rintro progress p' rfl
    refine ⟨fun _ => ⟨.of_exhausted ?_ ?_, rfl⟩, fun _ => ⟨rfl, rfl⟩⟩
    · simp only [ne_eq, String.reduceEq, not_false_eq_true]
    · simp only [ne_eq, String.reduceEq, not_false_eq_true]

/-- A batch was read: its slot waits for the codec. -/
theorem Tracks.read {decoding result : Bool}
    (h : p.Tracks work (some slot) none decoding result) :
    (p.withSlot slot false false .generationReady).Tracks
      (run InflightWork.step work [.generationAwaited slot, .generationValidated slot]) none
      (some slot) decoding result := by
  obtain ⟨commands, hcopy⟩ := h.generation
  rw [run_cons, run_cons, run_nil, InflightWork.step_generationAwaited hcopy]
  constructor
  · exact h.slots.ready
  · exact h.audioPending_eq
  · rfl
  · exact h.codec
  · change work.packing = Function.update p.slotRequiresReuseWait slot false
    rw [← h.slots.fillingSlot.fresh, Function.update_eq_self, h.packing_eq]
  · intro other hother
    obtain rfl := Option.some.inj hother
    exact Function.update_self ..
  · exact h.result_eq

/-- A batch was awaited while the codec was idle. -/
theorem Tracks.quiet_awaited {result : Bool} (h : p.Tracks work (some slot) none false result) :
    (work.step (.generationAwaited slot)).Quiet := by
  obtain ⟨commands, hcopy⟩ := h.generation
  rw [InflightWork.step_generationAwaited hcopy]
  exact ⟨rfl, h.codec⟩

/-! ### The codec -/

/-- The codec runs, and its result waits for its publication. -/
def LeavesDecoding (work : InflightWork) (batch : GenerationBatchResult) (generated : ℕ)
    (codec : PendingCodecBatch) (p' : Pipeline) : Prop :=
  codec.generation = batch ∧ p'.generatedDecoderSteps = generated ∧
    ∃ after, work.Enqueues p'.commands after ∧ p'.Tracks after none none true true

/-- What holds where the codec is not scheduled to its end. -/
def AbandonsCodec (work : InflightWork) (exception : WorkerException) (p' : Pipeline) : Prop :=
  exception.Lawful ∧ ¬ exception.LeavesUsable ∧ p'.Settles ∧
    ∃ after, work.Enqueues p'.commands after

/-- Between the two pipelines, the codes of the slot were packed, and the codec runs on them if
`result` holds. -/
structure Packs (work : InflightWork) (slot : BatchSlot) (result : Bool) (p p' : Pipeline) :
    Prop where
  keeps : KeepsSlots (p.withSlot slot false true .codecPending) p'
  generated_eq : p'.generatedDecoderSteps = p.generatedDecoderSteps
  work : ∃ after, work.Enqueues p'.commands after ∧ after.generation = [] ∧
    after.packing = Function.update work.packing slot true ∧ after.result = result

namespace Packs

variable {p' : Pipeline} {result : Bool}

theorem settles (h : Packs work slot result p p')
    (htracks : p.Tracks work none (some slot) false false) : p'.Settles := by
  refine htracks.slots.pack.settles.of_eq h.keeps.1 h.keeps.3

theorem abandons (h : Packs work slot result p p')
    (htracks : p.Tracks work none (some slot) false false) {exception : WorkerException}
    (hlawful : exception.Lawful) (husable : ¬ exception.LeavesUsable) :
    AbandonsCodec work exception p' := by
  obtain ⟨after, henqueues, -⟩ := h.work
  exact ⟨hlawful, husable, h.settles htracks, after, henqueues⟩

/-- The codec runs on the packed codes. -/
theorem runCodec (h : Packs work slot false p p') (route : CodecRoute) (frameCount : ℕ)
    (stateInput codecStateIndex : BufferIndex) :
    Packs work slot true p
      { p' with
        codecStateIndex
        commands := p'.commands ++ [.runCodec route frameCount stateInput] } := by
  obtain ⟨after, henqueues, hgeneration, hpacking, hresult⟩ := h.work
  exact ⟨h.keeps.trans ⟨rfl, rfl, rfl, rfl⟩, h.generated_eq, _, henqueues.concat hresult,
    hgeneration, hpacking, rfl⟩

/-- The result of the codec is on its way to the pinned buffer. -/
theorem copyPcm (h : Packs work slot true p p')
    (htracks : p.Tracks work none (some slot) false false) (samples : ℕ) :
    p'.generatedDecoderSteps = p.generatedDecoderSteps ∧
      ∃ after, work.Enqueues (p'.commands ++ [.copyValidSampleLength] ++ [.copyPcm samples]) after ∧
        ({ p' with
          audioPending := true
          commands := p'.commands ++ [.copyValidSampleLength] ++ [.copyPcm samples] } :
          Pipeline).Tracks after none none true true := by
  obtain ⟨after, henqueues, hgeneration, hpacking, hresult⟩ := h.work
  have hlength := henqueues.concat
    (show after.Allows (.command .copyValidSampleLength) from trivial)
  refine ⟨h.generated_eq, _, hlength.concat trivial, ?_⟩
  constructor
  · exact htracks.slots.pack.of_eq h.keeps.1 h.keeps.2 h.keeps.3
  · rfl
  · exact hgeneration
  · exact ⟨_, _, rfl⟩
  · change after.packing = p'.slotRequiresReuseWait
    rw [hpacking, htracks.packing_eq, h.keeps.2]
    rfl
  · exact fun slot h => by cases h
  · exact hresult

end Packs

variable {batch : GenerationBatchResult} {first : Bool}

theorem meets_scheduleCodec_tracks
    (htracks : p.Tracks work none (some batch.batchSlot) false false)
    (hcommands : p.commands = []) :
    Meets (scheduleCodec arguments batch first) p
      (LeavesDecoding work batch p.generatedDecoderSteps) (AbandonsCodec work) := by
  have hfilled := htracks.slots.filledSlot
  have hstart : AbandonsCodec work (.synthesis .invariantFailure "") p :=
    ⟨trivial, Bool.noConfusion, htracks.slots.settles, work, hcommands ▸ .nil⟩
  have hpending : Function.update p.generationPending batch.batchSlot false =
      p.generationPending := by
    rw [← hfilled.notPending, Function.update_eq_self]
  have hschedule : p.overlapContract.scheduleCodec batch.batchSlot =
      .ok ⟨Function.update p.overlapContract.states batch.batchSlot .codecPending⟩ :=
    AsyncPipelineContract.transition_of_mem (by simp [hfilled.state])
  have hpacked : Packs work batch.batchSlot false p
      { p with
        slotRequiresReuseWait := Function.update p.slotRequiresReuseWait batch.batchSlot true
        overlapContract :=
          ⟨Function.update p.overlapContract.states batch.batchSlot .codecPending⟩
        commands := p.commands ++ [.packCodecFrames batch.batchSlot batch.frameCount] } := by
    refine ⟨⟨hpending.symm, rfl, rfl, rfl⟩, rfl, _,
      (hcommands ▸ InflightWork.Enqueues.nil : work.Enqueues p.commands work).concat
        (htracks.validated _ rfl), htracks.generation, rfl, htracks.result_eq⟩
  rw [scheduleCodec, meets_bind, meets_failIf]
  refine ⟨fun _ => hstart, fun _ => ?_⟩
  rw [meets_bind, meets_failIf]
  refine ⟨fun _ => hstart, fun _ => ?_⟩
  rw [meets_bind, meets_get, meets_bind, meets_failIf]
  refine ⟨fun _ => hstart, fun _ => ?_⟩
  rw [meets_bind, meets_enqueue, meets_bind, meets_overlap rfl hschedule, meets_bind, meets_modify]
  cases first with
  | true =>
    have hdecoded := hpacked.runCodec .initial batch.frameCount 0 0
    simp only [if_true, meets_bind, meets_enqueue, meets_modify, meets_failIf, meets_pure]
    refine ⟨fun _ => hdecoded.abandons htracks trivial Bool.noConfusion, fun _ => ?_⟩
    exact ⟨rfl, hdecoded.copyPcm htracks _⟩
  | false =>
    have hdecoded := hpacked.runCodec (if batch.final then .tail else .steady) batch.frameCount
      p.codecStateIndex (1 - p.codecStateIndex)
    simp only [Bool.false_eq_true, if_false, meets_bind, meets_enqueue, meets_modify, meets_get,
      meets_failIf, meets_pure]
    refine ⟨fun _ => hpacked.abandons htracks trivial Bool.noConfusion, fun _ =>
      ⟨fun _ => hdecoded.abandons htracks trivial Bool.noConfusion, fun _ => ?_⟩⟩
    exact ⟨rfl, hdecoded.copyPcm htracks _⟩

/-- The codec was awaited: its result waits for its publication. -/
theorem Tracks.decoded {pending : Option BatchSlot} {result : Bool}
    (h : p.Tracks work pending none true result) :
    ({ p with audioPending := false } : Pipeline).Tracks (work.step .codecAwaited) pending
      none false
      result := by
  obtain ⟨commands, samples, hcopy⟩ := h.codec
  rw [InflightWork.step_codecAwaited hcopy]
  exact ⟨h.slots.of_eq rfl rfl rfl, rfl, h.generation, rfl, h.packing_eq, h.validated, h.result_eq⟩

theorem meets_awaitCodec_tracks (codec : PendingCodecBatch) (validSampleLength : ℤ)
    (pcmFinite : Bool) :
    Meets (awaitCodec codec validSampleLength pcmFinite) p
      (fun _ p' => p' = { p with audioPending := false })
      fun exception p' => exception.Lawful ∧ ¬ exception.LeavesUsable ∧
        p' = { p with audioPending := false } := by
  simp only [awaitCodec, meets_bind, meets_modify, meets_failIf]
  exact ⟨fun _ => ⟨trivial, Bool.noConfusion, trivial⟩, fun _ =>
    ⟨fun _ => ⟨trivial, Bool.noConfusion, trivial⟩, fun _ => trivial⟩⟩

/-- The request has taken the codec result. -/
theorem Tracks.published {pending filled : Option BatchSlot} {decoding result : Bool}
    (h : p.Tracks work pending filled decoding result) :
    p.Tracks (work.step .published) pending filled decoding false :=
  ⟨h.slots, h.audioPending_eq, h.generation, h.codec, h.packing_eq, h.validated, rfl⟩

/-- Only the committed position differs. -/
structure KeepsWork (p p' : Pipeline) : Prop where
  keeps : KeepsSlots p p'
  commands_eq : p'.commands = p.commands

theorem meets_readAttendedStep_tracks (batch : GenerationBatchResult)
    (events : List AlignmentProgress) (step : ℕ) (attended : ℤ) :
    Meets (readAttendedStep arguments batch events step attended) p
      (fun _ p' => KeepsWork p p')
      fun exception p' => exception.Lawful ∧ ¬ exception.LeavesUsable ∧ KeepsWork p p' := by
  have hsame : KeepsWork p p := ⟨KeepsSlots.refl p, rfl⟩
  simp only [readAttendedStep, meets_bind, meets_failIf]
  refine ⟨fun _ => ⟨trivial, Bool.noConfusion, hsame⟩, fun _ => ?_⟩
  rw [meets_ite]
  refine ⟨fun _ => hsame, fun _ => ?_⟩
  rw [meets_bind, meets_get, meets_ite]
  exact ⟨fun _ => ⟨⟨rfl, rfl, rfl, rfl⟩, rfl⟩, fun _ => hsame⟩

theorem meets_audioChunk_tracks (codec : PendingCodecBatch) :
    Meets (audioChunk arguments codec) p (fun _ p' => KeepsWork p p')
      fun exception p' => exception.Lawful ∧ ¬ exception.LeavesUsable ∧ KeepsWork p p' := by
  rw [audioChunk, meets_bind]
  refine (meets_foldlM (fun _ _ p' => KeepsWork p p') ⟨KeepsSlots.refl p, rfl⟩
    fun _ _ _ _ _ p₁ h₁ => ?_).mono (fun events p₁ h₁ => ?_) fun exception p' h => h
  · exact (meets_readAttendedStep_tracks _ _ _ _).mono
      (fun _ p₂ h₂ => ⟨h₁.keeps.trans h₂.keeps, h₂.commands_eq.trans h₁.commands_eq⟩)
      fun _ p₂ h₂ => ⟨h₂.1, h₂.2.1, h₁.keeps.trans h₂.2.2.keeps,
        h₂.2.2.commands_eq.trans h₁.commands_eq⟩
  · rw [meets_bind, audioBuffer]
    split
    · rw [meets_pure, meets_bind, meets_get, meets_pure]
      exact h₁
    · rw [meets_throw]
      refine ⟨?_, Bool.noConfusion, h₁⟩
      change _ ∉ AsyncPipelineContract.violations
      simp only [AsyncPipelineContract.violations, List.mem_cons, List.not_mem_nil, String.reduceEq,
        or_self, not_false_eq_true]

end Pipeline

end MagpieTts.Runtime
