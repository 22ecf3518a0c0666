import MagpieTts.Library.ThrowingState
import MagpieTts.Runtime.RequestStateSpec
import MagpieTts.Runtime.SynthesisPipeline

/-!
# What the functions of the pipeline do

One statement for each member function of `Pipeline` that the worker calls. Under the accepted
manifest the functions that generate never throw where the capacity checks hold, so their outcome is
an equation; the functions that read the results of the device have two postconditions.

## Main definitions

* `Pipeline.Free`, `Pipeline.Filling`, `Pipeline.Filled`: the life of a batch slot.
* `Pipeline.batchOf`: the result of a batch as a function of its diagnostics.

## Main results

* `Pipeline.run_generateFirstFour`, `Pipeline.run_generateSteadyBatch`: the generation of a batch.
* `Pipeline.meets_awaitGenerationBatch`: its result.
* `Pipeline.run_scheduleCodec`: the codec run of a batch.
-/

namespace MagpieTts.Runtime

open MagpieTts.Library

namespace Pipeline

variable {β : Type} {p : Pipeline} {returns : β → Pipeline → Prop}
  {throws : WorkerException → Pipeline → Prop}

/-! ### The constructs -/

@[simp] theorem meets_fail {code : SynthesisPipelineErrorCode} {detail : String} :
    Meets (fail code detail : PipelineM β) p returns throws ↔ throws (.synthesis code detail) p :=
  Iff.rfl

@[simp] theorem meets_failIf {condition : Prop} {_ : Decidable condition}
    {code : SynthesisPipelineErrorCode} {detail : String} {returns : Unit → Pipeline → Prop} :
    Meets (failIf condition code detail) p returns throws ↔
      (condition → throws (.synthesis code detail) p) ∧ (¬ condition → returns () p) :=
  meets_ite

theorem run_failIf_of_not {condition : Prop} {_ : Decidable condition}
    {code : SynthesisPipelineErrorCode} {detail : String} (h : ¬ condition) :
    (failIf condition code detail).run.run p = (.ok (), p) :=
  run_eq_of_meets (meets_failIf.mpr ⟨fun hc => absurd hc h, fun _ => ⟨rfl, rfl⟩⟩)

@[simp] theorem meets_enqueue {command : DeviceCommand} {returns : Unit → Pipeline → Prop} :
    Meets (enqueue command) p returns throws ↔
      returns () { p with commands := p.commands ++ [command] } := Iff.rfl

theorem meets_overlap {operation : AsyncPipelineContract → Except String AsyncPipelineContract}
    {before after : AsyncPipelineContract} (hbefore : p.overlapContract = before)
    (h : operation before = .ok after) {returns : Unit → Pipeline → Prop} :
    Meets (overlap operation) p returns throws ↔
      returns () { p with overlapContract := after } := by
  rw [overlap, meets_bind, meets_get, hbefore, h]
  exact Iff.rfl

/-! ### The batch slots -/

/-- The slot holds no batch: it was never used, or its batch has been packed for the codec. -/
structure Free (p : Pipeline) (slot : BatchSlot) : Prop where
  notPending : p.generationPending slot = false
  state : (p.slotRequiresReuseWait slot = false ∧ p.overlapContract.states slot = .unused) ∨
    (p.slotRequiresReuseWait slot = true ∧ p.overlapContract.states slot = .codecPending)

/-- A batch is on its way into the slot. -/
structure Filling (p : Pipeline) (slot : BatchSlot) : Prop where
  pending : p.generationPending slot = true
  fresh : p.slotRequiresReuseWait slot = false
  state : p.overlapContract.states slot = .generationPending

/-- The batch of the slot has been read, and waits for the codec. -/
structure Filled (p : Pipeline) (slot : BatchSlot) : Prop where
  notPending : p.generationPending slot = false
  fresh : p.slotRequiresReuseWait slot = false
  state : p.overlapContract.states slot = .generationReady

/-- The pipeline with a slot in the given condition. -/
def withSlot (p : Pipeline) (slot : BatchSlot) (pending reuseWait : Bool)
    (state : BatchSlotState) : Pipeline :=
  { p with
    generationPending := Function.update p.generationPending slot pending
    slotRequiresReuseWait := Function.update p.slotRequiresReuseWait slot reuseWait
    overlapContract := ⟨Function.update p.overlapContract.states slot state⟩ }

section WithSlot

variable {slot other : BatchSlot} {pending reuseWait : Bool} {state : BatchSlotState}

theorem filling_withSlot : (p.withSlot slot true false .generationPending).Filling slot :=
  ⟨Function.update_self .., Function.update_self .., Function.update_self ..⟩

theorem filled_withSlot : (p.withSlot slot false false .generationReady).Filled slot :=
  ⟨Function.update_self .., Function.update_self .., Function.update_self ..⟩

theorem free_withSlot : (p.withSlot slot false true .codecPending).Free slot :=
  ⟨Function.update_self .., Or.inr ⟨Function.update_self .., Function.update_self ..⟩⟩

theorem withSlot_generationPending (hne : other ≠ slot) :
    (p.withSlot slot pending reuseWait state).generationPending other = p.generationPending other :=
  Function.update_of_ne hne ..

theorem withSlot_slotRequiresReuseWait (hne : other ≠ slot) :
    (p.withSlot slot pending reuseWait state).slotRequiresReuseWait other =
      p.slotRequiresReuseWait other :=
  Function.update_of_ne hne ..

theorem withSlot_states (hne : other ≠ slot) :
    (p.withSlot slot pending reuseWait state).overlapContract.states other =
      p.overlapContract.states other :=
  Function.update_of_ne hne ..

theorem Free.withSlot (h : p.Free other) (hne : other ≠ slot) :
    (p.withSlot slot pending reuseWait state).Free other := by
  constructor
  · rw [withSlot_generationPending hne]
    exact h.notPending
  · rw [withSlot_slotRequiresReuseWait hne, withSlot_states hne]
    exact h.state

theorem Filling.withSlot (h : p.Filling other) (hne : other ≠ slot) :
    (p.withSlot slot pending reuseWait state).Filling other := by
  constructor
  · rw [withSlot_generationPending hne]
    exact h.pending
  · rw [withSlot_slotRequiresReuseWait hne]
    exact h.fresh
  · rw [withSlot_states hne]
    exact h.state

end WithSlot

theorem run_prepareGenerationSlot {slot : BatchSlot} (h : p.Free slot) :
    (prepareGenerationSlot slot).run.run p =
      (.ok (),
        { p.withSlot slot false false .generationPending with
          commands := p.commands ++
            if p.slotRequiresReuseWait slot then [.waitCodesConsumed slot] else [] }) := by
  have hpending : Function.update p.generationPending slot false = p.generationPending := by
    rw [← h.notPending, Function.update_eq_self]
  refine run_eq_of_meets ?_
  rcases h.state with ⟨hreuse, hstate⟩ | ⟨hreuse, hstate⟩
  · have hschedule : p.overlapContract.scheduleGeneration slot =
        .ok ⟨Function.update p.overlapContract.states slot .generationPending⟩ :=
      AsyncPipelineContract.transition_of_mem (by simp [hstate])
    have hunchanged : Function.update p.slotRequiresReuseWait slot false =
        p.slotRequiresReuseWait := by
      rw [← hreuse, Function.update_eq_self]
    simp only [prepareGenerationSlot, meets_bind, meets_get, hreuse, Bool.false_eq_true,
      if_false, withSlot, hpending, hunchanged, true_and, List.append_nil]
    exact (meets_overlap rfl hschedule).mpr rfl
  · have hqueue : p.overlapContract.queueReuseDependency slot =
        .ok ⟨Function.update p.overlapContract.states slot .reuseDependencyQueued⟩ :=
      AsyncPipelineContract.transition_of_mem (by simp [hstate])
    have hschedule :
        (⟨Function.update p.overlapContract.states slot .reuseDependencyQueued⟩ :
          AsyncPipelineContract).scheduleGeneration slot =
        .ok ⟨Function.update p.overlapContract.states slot .generationPending⟩ := by
      rw [AsyncPipelineContract.scheduleGeneration, AsyncPipelineContract.transition_of_mem
        (by simp), Function.update_idem]
    simp only [prepareGenerationSlot, meets_bind, meets_get, hreuse, if_true, meets_enqueue,
      meets_modify, withSlot, hpending, true_and]
    refine (meets_overlap rfl hqueue).mpr ?_
    exact (meets_overlap rfl hschedule).mpr rfl

/-! ### The generation of a batch -/

/-- The commands of a decoder step. -/
def decoderCommands (cacheInput : BufferIndex) (stepSlot : ℕ) : List DeviceCommand :=
  [.advanceDecoderPosition, .runDecoderStep cacheInput, .advanceAlignment stepSlot]

/-- The commands of a Local AR step. -/
def localCommands (stepSlot : ℕ) (batchSlot : BatchSlot) (aggregateFrameOffset : ℕ)
    (forbidEos : Bool) : List DeviceCommand :=
  (if stepSlot ≠ 0 then [.stageUnfinished stepSlot] else []) ++
    [.updateForbidEos forbidEos, .runLocalAr,
      .finalizeLocalStep stepSlot batchSlot aggregateFrameOffset]

/-- The commands that end a batch. -/
def finishCommands (batchSlot : BatchSlot) (stepCount : ℕ) (cacheIndex : BufferIndex) :
    List DeviceCommand :=
  [.packGenerationDiagnostics batchSlot stepCount cacheIndex, .copyGenerationDiagnostics batchSlot]

/-- The commands of the passes of a steady batch over the step slots of a list. -/
def passCommands (batchSlot : BatchSlot) :
    (cacheInput : BufferIndex) → (generated : ℕ) → List ℕ → List DeviceCommand
  | _, _, [] => []
  | cacheInput, generated, stepSlot :: rest =>
      decoderCommands cacheInput stepSlot ++
        localCommands stepSlot batchSlot (stepSlot * 2) (decide (generated < 2)) ++
        passCommands batchSlot (1 - cacheInput) (generated + 1) rest

theorem run_runLocal (stepSlot : ℕ) (batchSlot : BatchSlot) (aggregateFrameOffset : ℕ)
    (p : Pipeline) :
    (runLocal stepSlot batchSlot aggregateFrameOffset).run.run p =
      (.ok (),
        { p with
          generatedDecoderSteps := p.generatedDecoderSteps + 1
          commands := p.commands ++ localCommands stepSlot batchSlot aggregateFrameOffset
            (decide (p.generatedDecoderSteps < 2)) }) := by
  refine run_eq_of_meets ?_
  by_cases hslot : stepSlot = 0
  · simp [runLocal, localCommands, hslot]
  · simp [runLocal, localCommands, hslot]

theorem run_finishGenerationBatch (batchSlot : BatchSlot) (stepCount : ℕ) (p : Pipeline) :
    (finishGenerationBatch batchSlot stepCount).run.run p =
      (.ok ⟨batchSlot, stepCount, p.generatedDecoderSteps⟩,
        { p with
          generationPending := Function.update p.generationPending batchSlot true
          commands := p.commands ++ finishCommands batchSlot stepCount p.cacheIndex }) := by
  refine run_eq_of_meets ?_
  simp [finishGenerationBatch, finishCommands]

section Generation

variable {arguments : PipelineArguments} (hmanifest : arguments.manifest = acceptedManifest)

include hmanifest

theorem run_runDecoderStep (hpos : 0 < p.generatedDecoderSteps)
    (hlt : p.generatedDecoderSteps < 250) (stepSlot : ℕ) :
    (runDecoderStep arguments stepSlot).run.run p =
      (.ok (),
        { p with
          cacheIndex := 1 - p.cacheIndex
          commands := p.commands ++ decoderCommands p.cacheIndex stepSlot }) := by
  refine run_eq_of_meets ?_
  simp only [runDecoderStep, advanceAlignment, decoderCommands, hmanifest, acceptedManifest,
    meets_bind, meets_get, meets_failIf, meets_enqueue, meets_modify, List.append_assoc,
    List.cons_append, List.nil_append, and_self]
  exact ⟨by omega, fun _ => ⟨by omega, fun _ => trivial⟩⟩

/-- The passes of a steady batch. -/
theorem run_passes (batchSlot : BatchSlot) (stepSlots : List ℕ) {p : Pipeline}
    (hpos : 0 < p.generatedDecoderSteps)
    (hle : p.generatedDecoderSteps + stepSlots.length ≤ 250) :
    (stepSlots.forM fun stepSlot => do
      runDecoderStep arguments stepSlot
      runLocal stepSlot batchSlot
        (stepSlot * arguments.manifest.localAr.framesPerDecoderStep)).run.run p =
      (.ok ⟨⟩,
        { p with
          cacheIndex := (fun cache => 1 - cache)^[stepSlots.length] p.cacheIndex
          generatedDecoderSteps := p.generatedDecoderSteps + stepSlots.length
          commands := p.commands ++
            passCommands batchSlot p.cacheIndex p.generatedDecoderSteps stepSlots }) := by
  induction stepSlots generalizing p with
  | nil =>
    rw [passCommands, List.append_nil]
    rfl
  | cons stepSlot rest ih =>
    rw [List.length_cons] at hle
    have hframes : arguments.manifest.localAr.framesPerDecoderStep = 2 := by
      rw [hmanifest, acceptedManifest]
    refine run_eq_of_meets ?_
    rw [List.forM, meets_bind, meets_bind,
      meets_of_run_eq (run_runDecoderStep hmanifest hpos (by omega) stepSlot),
      meets_of_run_eq (run_runLocal stepSlot batchSlot _ _),
      meets_of_run_eq (ih (by simp) (by simp only; omega))]
    simp only [hframes, passCommands, List.length_cons, Function.iterate_succ_apply,
      List.append_assoc, Nat.add_assoc, Nat.add_comm 1, and_self]

/-- The commands of the first batch. -/
def firstFourCommands (p : Pipeline) (batchSlot : BatchSlot) : List DeviceCommand :=
  (if p.slotRequiresReuseWait batchSlot then [.waitCodesConsumed batchSlot] else []) ++
    [.advanceAlignment 0] ++ localCommands 0 batchSlot 0 true ++ decoderCommands p.cacheIndex 1 ++
    localCommands 1 batchSlot 2 true ++ finishCommands batchSlot 2 (1 - p.cacheIndex)

/-- The commands of a steady batch. -/
def steadyCommands (p : Pipeline) (batchSlot : BatchSlot) : List DeviceCommand :=
  (if p.slotRequiresReuseWait batchSlot then [.waitCodesConsumed batchSlot] else []) ++
    passCommands batchSlot p.cacheIndex p.generatedDecoderSteps [0, 1, 2, 3] ++
    finishCommands batchSlot 4 p.cacheIndex

theorem run_generateFirstFour {batchSlot : BatchSlot} (hfree : p.Free batchSlot)
    (hgenerated : p.generatedDecoderSteps = 0) :
    (generateFirstFour arguments batchSlot).run.run p =
      (.ok ⟨batchSlot, 2, 2⟩,
        { p.withSlot batchSlot true false .generationPending with
          cacheIndex := 1 - p.cacheIndex
          generatedDecoderSteps := 2
          commands := p.commands ++ p.firstFourCommands batchSlot }) := by
  refine run_eq_of_meets ?_
  rw [generateFirstFour, meets_bind, meets_of_run_eq (run_prepareGenerationSlot hfree), meets_bind,
    advanceAlignment, meets_enqueue, meets_bind, meets_of_run_eq (run_runLocal 0 batchSlot 0 _),
    meets_bind, meets_of_run_eq (run_runDecoderStep hmanifest (by simp [withSlot])
      (by simp [withSlot, hgenerated]) 1),
    meets_bind, meets_of_run_eq (run_runLocal 1 batchSlot 2 _),
    meets_of_run_eq (run_finishGenerationBatch batchSlot 2 _)]
  simp [withSlot, hgenerated, firstFourCommands, Function.update_idem]

/-- The capacity check throws nothing where four more steps fit. -/
theorem run_requireSteadyBatchCapacity (hpos : 0 < p.generatedDecoderSteps)
    (hle : p.generatedDecoderSteps + 4 ≤ 250) :
    (requireSteadyBatchCapacity arguments).run.run p = (.ok (), p) := by
  refine run_eq_of_meets ?_
  simp only [requireSteadyBatchCapacity, meets_bind, meets_get, meets_failIf, and_self]
  simp only [kMaximumDecoderStepsPerEmission, hmanifest, acceptedManifest]
  exact ⟨by omega, fun _ => ⟨by omega, fun _ => trivial⟩⟩

omit hmanifest in
/-- Four steps of a steady batch end on the cache they began on. -/
theorem iterate_four_sub (cache : BufferIndex) : (fun cache => 1 - cache)^[4] cache = cache := by
  revert cache
  decide

theorem run_generateSteadyBatch {batchSlot : BatchSlot} (hfree : p.Free batchSlot)
    (hpos : 0 < p.generatedDecoderSteps) (hle : p.generatedDecoderSteps + 4 ≤ 250) :
    (generateSteadyBatch arguments batchSlot).run.run p =
      (.ok ⟨batchSlot, 4, p.generatedDecoderSteps + 4⟩,
        { p.withSlot batchSlot true false .generationPending with
          generatedDecoderSteps := p.generatedDecoderSteps + 4
          commands := p.commands ++ p.steadyCommands batchSlot }) := by
  refine run_eq_of_meets ?_
  have hslots : List.range kMaximumDecoderStepsPerEmission = [0, 1, 2, 3] := rfl
  rw [generateSteadyBatch, meets_bind,
    meets_of_run_eq (run_requireSteadyBatchCapacity hmanifest hpos hle), meets_bind,
    meets_of_run_eq (run_prepareGenerationSlot hfree), meets_bind, hslots,
    meets_of_run_eq (run_passes hmanifest batchSlot [0, 1, 2, 3] (by exact hpos) (by exact hle)),
    meets_of_run_eq (run_finishGenerationBatch batchSlot _ _)]
  simp [withSlot, steadyCommands, kMaximumDecoderStepsPerEmission, Function.update_idem,
    iterate_four_sub]

theorem meets_requireSteadyBatchCapacity :
    Meets (requireSteadyBatchCapacity arguments) p
      (fun _ p' => p' = p ∧ 0 < p.generatedDecoderSteps ∧ p.generatedDecoderSteps + 4 ≤ 250)
      fun exception p' => p' = p ∧ ∃ detail, exception = .synthesis .contextExhausted detail := by
  simp only [requireSteadyBatchCapacity, meets_bind, meets_get, meets_failIf, true_and,
    WorkerException.synthesis.injEq, exists_eq', and_self]
  simp only [kMaximumDecoderStepsPerEmission, hmanifest, acceptedManifest]
  exact ⟨fun _ => trivial, fun _ => ⟨fun _ => trivial, fun _ => by omega⟩⟩

/-- A steady batch is generated where four more steps fit. -/
theorem meets_generateSteadyBatch {batchSlot : BatchSlot} (hfree : p.Free batchSlot) :
    Meets (generateSteadyBatch arguments batchSlot) p
      (fun pending p' => pending = ⟨batchSlot, 4, p.generatedDecoderSteps + 4⟩ ∧
        p' = { p.withSlot batchSlot true false .generationPending with
          generatedDecoderSteps := p.generatedDecoderSteps + 4
          commands := p.commands ++ p.steadyCommands batchSlot } ∧
        p.generatedDecoderSteps + 4 ≤ 250)
      fun exception p' => p' = p ∧ ∃ detail, exception = .synthesis .contextExhausted detail := by
  by_cases hfits : 0 < p.generatedDecoderSteps ∧ p.generatedDecoderSteps + 4 ≤ 250
  · rw [meets_of_run_eq (run_generateSteadyBatch hmanifest hfree hfits.1 hfits.2)]
    exact ⟨rfl, rfl, hfits.2⟩
  · rw [generateSteadyBatch, meets_bind]
    refine (meets_requireSteadyBatchCapacity hmanifest).mono ?_ fun _ _ h => h
    rintro _ p' ⟨-, hpos, hle⟩
    exact absurd ⟨hpos, hle⟩ hfits

/-- The commands in front of the first event. -/
def startCommands : List DeviceCommand :=
  [.initializeRequest, .runTextEncoder, .prepareCfgInputs, .runPrefill] ++
    initial.firstFourCommands 0

/-- The first step of the worker. -/
theorem run_start :
    (do
      requireInitialBatchCapacity arguments
      initializeRequest arguments
      runTextEncoder
      runPrefill
      generateFirstFour arguments 0).run.run initial =
      (.ok ⟨0, 2, 2⟩,
        { initial.withSlot 0 true false .generationPending with
          cacheIndex := 1
          generatedDecoderSteps := 2
          commands := startCommands }) := by
  have hfree : ({ initial with
      commands := [.initializeRequest, .runTextEncoder, .prepareCfgInputs, .runPrefill] } :
      Pipeline).Free 0 := ⟨rfl, Or.inl ⟨rfl, rfl⟩⟩
  refine run_eq_of_meets ?_
  simp only [requireInitialBatchCapacity, initializeRequest, runTextEncoder, runPrefill, meets_bind,
    meets_failIf, meets_enqueue, meets_modify]
  simp only [hmanifest, acceptedManifest]
  refine ⟨by omega, fun _ => ⟨by omega, fun _ => ⟨by omega, fun _ => ?_⟩⟩⟩
  exact (meets_of_run_eq (run_generateFirstFour hmanifest hfree rfl)).mpr ⟨rfl, rfl⟩

end Generation

/-! ### The result of a batch -/

/-- The first of `stepCount` steps that reports an end of speech. -/
def firstEos (diagnostics : GenerationBatchDiagnostics) (stepCount : ℕ) : Option ℕ :=
  (List.range stepCount).find? fun step => 0 ≤ (diagnostics.steps step).endFrameIndex

/-- The attended positions of the first `stepCount` steps. -/
def attendedOf (diagnostics : GenerationBatchDiagnostics) (stepCount : ℕ) : List ℤ :=
  (List.range stepCount).map fun step => (diagnostics.steps step).attendedTokenIndex

/-- What a batch of `stepCount` steps has made of its first `steps` steps. -/
def progressOf (diagnostics : GenerationBatchDiagnostics) (stepCount steps : ℕ) : BatchProgress :=
  match firstEos diagnostics steps with
  | none =>
    { attended := attendedOf diagnostics steps
      emittedFrames := stepCount * 2
      final := false
      eosStep := -1
      eosFrameIndex := -1 }
  | some step =>
    { attended := attendedOf diagnostics (step + 1)
      emittedFrames := step * 2 + (diagnostics.steps step).endFrameIndex.toNat
      final := true
      eosStep := step
      eosFrameIndex := (diagnostics.steps step).endFrameIndex }

/-- The result of a batch. -/
def batchOf (pending : PendingGenerationBatch) (diagnostics : GenerationBatchDiagnostics) :
    GenerationBatchResult :=
  let progress := progressOf diagnostics pending.stepCount pending.stepCount
  { batchSlot := pending.batchSlot
    frameCount := progress.emittedFrames
    final := progress.final
    eosStep := progress.eosStep
    eosFrameIndex := progress.eosFrameIndex
    attendedTokenIndices := progress.attended }

/-- The entry of a step that the pipeline does not reject, for a text of `textLength` tokens. -/
structure StepAccepted (textLength : ℕ) (diagnostics : GenerationStepDiagnostics) : Prop where
  alignmentInvalid_eq : diagnostics.alignmentInvalid = 0
  localInvalidRows_eq : diagnostics.localInvalidRows = 0
  attended_nonneg : 0 ≤ diagnostics.attendedTokenIndex
  attended_lt : diagnostics.attendedTokenIndex < textLength
  endFrameIndex_mem : diagnostics.endFrameIndex = -1 ∨ diagnostics.endFrameIndex = 0 ∨
    diagnostics.endFrameIndex = 1

/-- The record of a batch that the pipeline does not reject. -/
structure RecordAccepted (textLength stepCount : ℕ) (diagnostics : GenerationBatchDiagnostics) :
    Prop where
  valid : (validateGenerationDiagnosticPayload diagnostics stepCount).valid = true
  mainDecoderExecutionStatus_eq : diagnostics.mainDecoderExecutionStatus = 0
  steps : ∀ step < stepCount, StepAccepted textLength (diagnostics.steps step)

theorem firstEos_succ (diagnostics : GenerationBatchDiagnostics) (steps : ℕ) :
    firstEos diagnostics (steps + 1) =
      (firstEos diagnostics steps).or
        (if 0 ≤ (diagnostics.steps steps).endFrameIndex then some steps else none) := by
  rw [firstEos, firstEos, List.range_succ, List.find?_append, List.find?_singleton]
  by_cases hend : 0 ≤ (diagnostics.steps steps).endFrameIndex <;> simp [hend]

theorem attendedOf_succ (diagnostics : GenerationBatchDiagnostics) (steps : ℕ) :
    attendedOf diagnostics (steps + 1) =
      attendedOf diagnostics steps ++ [(diagnostics.steps steps).attendedTokenIndex] := by
  rw [attendedOf, attendedOf, List.range_succ, List.map_append, List.map_singleton]

theorem retainedCodecFramesBeforeEos_eq {step : ℕ} {eos : ℤ} (hstep : step < 4)
    (heos : eos = 0 ∨ eos = 1) :
    retainedCodecFramesBeforeEos step eos = .ok (step * 2 + eos.toNat) := by
  rw [retainedCodecFramesBeforeEos, if_neg (by omega), if_neg]
  · rfl
  · rw [maximumUint32, kCodecFramesPerDecoderStep]
    omega

section Reading

variable (arguments : PipelineArguments) (diagnostics : GenerationBatchDiagnostics)

/-- One pass of the loop over the steps. -/
theorem meets_readGenerationStep (stepCount : ℕ) {step : ℕ} (hstep : step < 4) (p : Pipeline) :
    Meets (readGenerationStep arguments (diagnostics.steps step) step
        (progressOf diagnostics stepCount step)) p
      (fun progress p' => p' = p ∧
        StepAccepted arguments.textTokenIds.length (diagnostics.steps step) ∧
        progress = progressOf diagnostics stepCount (step + 1))
      fun exception p' => p' = p ∧ exception.Typed ∧
        ¬ StepAccepted arguments.textTokenIds.length (diagnostics.steps step) := by
  simp only [readGenerationStep, meets_bind, meets_failIf, WorkerException.Typed, true_and]
  refine ⟨fun h haccepted => h haccepted.alignmentInvalid_eq, fun halignment => ?_⟩
  refine ⟨fun h haccepted => h haccepted.localInvalidRows_eq, fun hlocal => ?_⟩
  refine ⟨fun h haccepted => ?_, fun hattended => ?_⟩
  · have hnonneg := haccepted.attended_nonneg
    have hlt := haccepted.attended_lt
    omega
  refine ⟨fun h haccepted => ?_, fun heos => ?_⟩
  · have hmem := haccepted.endFrameIndex_mem
    omega
  have haccepted : StepAccepted arguments.textTokenIds.length (diagnostics.steps step) :=
    ⟨by omega, by omega, by omega, by omega, by omega⟩
  cases hfirst : firstEos diagnostics step with
  | some found =>
    simp [progressOf, hfirst, firstEos_succ, haccepted]
  | none =>
    by_cases hend : 0 ≤ (diagnostics.steps step).endFrameIndex
    · simp [progressOf, hfirst, firstEos_succ, haccepted, hend, attendedOf_succ,
        retainedCodecFramesBeforeEos_eq hstep (show (diagnostics.steps step).endFrameIndex = 0 ∨
          (diagnostics.steps step).endFrameIndex = 1 by omega)]
    · simp [progressOf, hfirst, firstEos_succ, haccepted, hend, attendedOf_succ]

/-- The loop over the steps of a batch. -/
theorem meets_readGenerationSteps (stepCount : ℕ) (hcount : stepCount ≤ 4) (p : Pipeline) :
    Meets ((List.range stepCount).foldlM
        (fun progress step => readGenerationStep arguments (diagnostics.steps step) step progress)
        (progressOf diagnostics stepCount 0)) p
      (fun progress p' => p' = p ∧
        (∀ step < stepCount, StepAccepted arguments.textTokenIds.length (diagnostics.steps step)) ∧
        progress = progressOf diagnostics stepCount stepCount)
      fun exception p' => p' = p ∧ exception.Typed ∧
        ¬ ∀ step < stepCount,
          StepAccepted arguments.textTokenIds.length (diagnostics.steps step) := by
  refine (meets_foldlM (fun done progress p' => p' = p ∧
      (∀ step < done.length,
        StepAccepted arguments.textTokenIds.length (diagnostics.steps step)) ∧
      progress = progressOf diagnostics stepCount done.length)
    ⟨rfl, fun _ h => absurd h (Nat.not_lt_zero _), rfl⟩ ?_).mono (fun progress p' h => ?_)
    fun _ _ h => h
  · rintro done item rest hlist progress p' ⟨rfl, haccepted, rfl⟩
    -- the item of a pass is the number of passes before it
    have hlength := congrArg List.length hlist
    rw [List.length_range, List.length_append, List.length_cons] at hlength
    have hitem : item = done.length := by
      have hget := congrArg (fun l => l[done.length]?) hlist
      simp only [List.getElem?_append_right (le_refl _), Nat.sub_self,
        List.getElem?_cons_zero] at hget
      rw [List.getElem?_range (by omega)] at hget
      exact (Option.some.inj hget).symm
    subst hitem
    refine (meets_readGenerationStep arguments diagnostics stepCount (by omega) p').mono ?_ ?_
    · rintro progress' p'' ⟨rfl, hstep, rfl⟩
      rw [List.length_append, List.length_singleton]
      refine ⟨rfl, fun step hlt => ?_, rfl⟩
      rcases Nat.lt_succ_iff_lt_or_eq.mp hlt with hlt | rfl
      · exact haccepted step hlt
      · exact hstep
    · rintro exception p'' ⟨rfl, htyped, hstep⟩
      exact ⟨rfl, htyped, fun hall => hstep (hall done.length (by omega))⟩
  · rw [List.length_range] at h
    exact h

/-- The result of a batch, or the reason that there is none: its record is rejected, or no end of
speech was reported within the context. -/
theorem meets_awaitGenerationBatch (hmanifest : arguments.manifest = acceptedManifest)
    {pending : PendingGenerationBatch} (hcount : pending.stepCount ≤ 4)
    (hfilling : p.Filling pending.batchSlot) :
    Meets (awaitGenerationBatch arguments pending diagnostics) p
      (fun batch p' => p' = p.withSlot pending.batchSlot false false .generationReady ∧
        RecordAccepted arguments.textTokenIds.length pending.stepCount diagnostics ∧
        batch = batchOf pending diagnostics ∧
        (batch.final = false → pending.decoderStepsAfterBatch < 250))
      fun exception p' => p' = p.withSlot pending.batchSlot false false .generationReady ∧
        exception.Typed ∧
        (RecordAccepted arguments.textTokenIds.length pending.stepCount diagnostics →
          (∃ detail, exception = .synthesis .contextExhausted detail) ∧
            (batchOf pending diagnostics).final = false ∧
            250 ≤ pending.decoderStepsAfterBatch) := by
  have hready : p.overlapContract.markGenerationReady pending.batchSlot =
      .ok ⟨Function.update p.overlapContract.states pending.batchSlot .generationReady⟩ :=
    AsyncPipelineContract.transition_of_mem (by simp [hfilling.state])
  have hslot : ({ p with
      generationPending := Function.update p.generationPending pending.batchSlot false
      overlapContract :=
        ⟨Function.update p.overlapContract.states pending.batchSlot .generationReady⟩ } :
          Pipeline) =
      p.withSlot pending.batchSlot false false .generationReady := by
    have hreuse : Function.update p.slotRequiresReuseWait pending.batchSlot false =
        p.slotRequiresReuseWait := by
      rw [← hfilling.fresh, Function.update_eq_self]
    rw [withSlot, hreuse]
  have hframes : arguments.manifest.localAr.framesPerDecoderStep = 2 := by
    rw [hmanifest, acceptedManifest]
  have hlimit : arguments.manifest.limits.maximumDecoderSteps = 250 := by
    rw [hmanifest, acceptedManifest]
  rw [awaitGenerationBatch, meets_bind, meets_modify, meets_bind, meets_overlap rfl hready]
  simp only [meets_bind, meets_failIf, hslot, hframes, hlimit, WorkerException.Typed, true_and]
  refine ⟨fun h haccepted => ?_, fun hvalid => ⟨fun h haccepted => ?_, fun hstatus => ?_⟩⟩
  · rw [haccepted.valid] at h
    cases h
  · exact absurd haccepted.mainDecoderExecutionStatus_eq h
  refine (meets_readGenerationSteps arguments diagnostics pending.stepCount hcount _).mono ?_ ?_
  · rintro progress p' ⟨rfl, hsteps, rfl⟩
    have haccepted : RecordAccepted arguments.textTokenIds.length pending.stepCount diagnostics :=
      ⟨Bool.eq_true_of_not_eq_false hvalid, not_not.mp hstatus, hsteps⟩
    simp only [meets_pure, true_and]
    refine ⟨fun hexhausted _ => ⟨⟨_, rfl⟩, hexhausted⟩, fun hfits => ?_⟩
    refine ⟨haccepted, rfl, fun hfinal => ?_⟩
    exact Nat.lt_of_not_le fun hle => hfits ⟨hfinal, hle⟩
  · rintro exception p' ⟨rfl, htyped, hsteps⟩
    exact ⟨rfl, htyped, fun haccepted => absurd haccepted.steps hsteps⟩

end Reading

/-! ### The codec -/

/-- The frames of a batch that enters the codec, by its route. -/
structure CodecFrames (batch : GenerationBatchResult) (first : Bool) : Prop where
  pos : 0 < batch.frameCount
  le : batch.frameCount ≤ 8
  steady : batch.final = false → first = false → batch.frameCount = 8

/-- The commands of a codec run. -/
def codecCommands (batch : GenerationBatchResult) (first : Bool) (stateInput : BufferIndex) :
    List DeviceCommand :=
  [.packCodecFrames batch.batchSlot batch.frameCount,
    if first then .runCodec .initial batch.frameCount 0
    else .runCodec (if batch.final then .tail else .steady) batch.frameCount stateInput,
    .copyValidSampleLength, .copyPcm (batch.frameCount * 1024)]

section Codec

variable {arguments : PipelineArguments} (hmanifest : arguments.manifest = acceptedManifest)
  {batch : GenerationBatchResult} {first : Bool}

include hmanifest

theorem run_scheduleCodec (hfilled : p.Filled batch.batchSlot) (hframes : CodecFrames batch first)
    (haudio : p.audioPending = false) :
    (scheduleCodec arguments batch first).run.run p =
      (.ok ⟨batch, batch.frameCount * 1024, first⟩,
        { p.withSlot batch.batchSlot false true .codecPending with
          codecStateIndex := if first then 0 else 1 - p.codecStateIndex
          audioPending := true
          commands := p.commands ++ codecCommands batch first p.codecStateIndex }) := by
  have hpos := hframes.pos
  have hle := hframes.le
  have hpending : Function.update p.generationPending batch.batchSlot false =
      p.generationPending := by
    rw [← hfilled.notPending, Function.update_eq_self]
  have hschedule : p.overlapContract.scheduleCodec batch.batchSlot =
      .ok ⟨Function.update p.overlapContract.states batch.batchSlot .codecPending⟩ :=
    AsyncPipelineContract.transition_of_mem (by simp [hfilled.state])
  have hsteadyFrames : arguments.manifest.codec.steadyFrames = 8 := by
    rw [hmanifest, acceptedManifest]
  have hhop : arguments.manifest.codec.hopLengthSamples = 1024 := by
    rw [hmanifest, acceptedManifest]
  have hrange : ¬ (arguments.manifest.codec.steadyFrames < batch.frameCount ∨
      (batch.frameCount = 0 ∧ (batch.final = false ∨ first = true))) := by
    rw [hsteadyFrames]
    omega
  have hcapacity : ¬ arguments.pinnedPcmCapacitySamples < batch.frameCount * 1024 := by
    rw [PipelineArguments.pinnedPcmCapacitySamples, hsteadyFrames, hhop]
    omega
  refine run_eq_of_meets ?_
  rw [scheduleCodec, meets_bind, meets_failIf]
  refine ⟨fun h => hrange h, fun _ => ?_⟩
  rw [meets_bind, meets_failIf]
  refine ⟨fun h => by omega, fun _ => ?_⟩
  rw [meets_bind, meets_get, meets_bind, meets_failIf]
  refine ⟨fun h => by simp [haudio] at h, fun _ => ?_⟩
  rw [meets_bind, meets_enqueue, meets_bind, meets_overlap rfl hschedule, meets_bind, meets_modify]
  cases first with
  | true =>
    simp only [if_true, meets_bind, meets_enqueue, meets_modify, meets_failIf, meets_pure, hhop,
      true_and]
    refine ⟨fun h => hcapacity h, fun _ => ?_⟩
    simp [withSlot, hpending, codecCommands]
  | false =>
    have hsteady : ¬ (batch.final = false ∧
        batch.frameCount ≠ arguments.manifest.codec.steadyFrames) := by
      rintro ⟨hfinal, hne⟩
      rw [hsteadyFrames] at hne
      exact hne (hframes.steady hfinal rfl)
    simp only [Bool.false_eq_true, if_false, meets_bind, meets_enqueue, meets_modify, meets_get,
      meets_failIf, meets_pure, hhop, true_and]
    refine ⟨fun h => hsteady h, fun _ => ⟨fun h => hcapacity h, fun _ => ?_⟩⟩
    simp [withSlot, hpending, codecCommands]

end Codec

theorem meets_awaitCodec (codec : PendingCodecBatch) (validSampleLength : ℤ) (pcmFinite : Bool) :
    Meets (awaitCodec codec validSampleLength pcmFinite) p
      (fun _ p' => p' = { p with audioPending := false })
      fun exception p' => p' = { p with audioPending := false } ∧ exception.Typed ∧
        ¬ (validSampleLength = codec.expectedSamples ∧ pcmFinite = true) := by
  simp only [awaitCodec, meets_bind, meets_modify, meets_failIf, WorkerException.Typed, true_and]
  refine ⟨fun h haccepted => h haccepted.1, fun _ => ⟨fun h haccepted => ?_, fun _ => trivial⟩⟩
  rw [haccepted.2] at h
  cases h

/-! ### The end of a run -/

/-- Every batch in flight has its slot in the state that its completion expects. -/
def Settles (p : Pipeline) : Prop :=
  ∀ slot, p.generationPending slot = true → p.overlapContract.states slot = .generationPending

theorem Settles.of_eq {p' : Pipeline} (h : p.Settles)
    (hpending : p'.generationPending = p.generationPending)
    (hcontract : p'.overlapContract = p.overlapContract) : p'.Settles := by
  rw [Settles, hpending, hcontract]
  exact h

/-- The loop over the slots completes the batches in flight. -/
theorem meets_settleSlots (slots : List BatchSlot) (h : p.Settles) :
    Meets (slots.forM fun slot => (do
        if (← get).generationPending slot then
          modify fun self =>
            { self with generationPending := Function.update self.generationPending slot false }
          overlap fun contract => contract.markGenerationReady slot : PipelineM PUnit)) p
      (fun _ p' => p'.Settles ∧ p'.commands = p.commands) fun _ _ => False := by
  induction slots generalizing p with
  | nil => exact ⟨h, rfl⟩
  | cons slot rest ih =>
    rw [List.forM, meets_bind, meets_bind, meets_get, meets_ite]
    refine ⟨fun hpending => ?_, fun _ => ih h⟩
    have hready : p.overlapContract.markGenerationReady slot =
        .ok ⟨Function.update p.overlapContract.states slot .generationReady⟩ :=
      AsyncPipelineContract.transition_of_mem (by simp [h slot hpending])
    rw [meets_bind, meets_modify, meets_overlap rfl hready]
    refine ih fun other hother => ?_
    rcases eq_or_ne other slot with rfl | hne
    · simp at hother
    · simp only [Function.update_of_ne hne] at hother ⊢
      exact h other hother

theorem meets_settleInflight (h : p.Settles) :
    Meets settleInflight p (fun _ p' => p'.Settles ∧ p'.commands = p.commands)
      fun _ _ => False := by
  rw [settleInflight, meets_bind]
  refine (meets_settleSlots [0, 1] h).mono (fun _ p' hp' => ?_) fun _ _ h => h
  rw [meets_modify]
  exact hp'

end Pipeline

end MagpieTts.Runtime
