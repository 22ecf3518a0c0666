import MagpieTts.Runtime.ListenedRuns

/-!
# Reuse of a session

The buffers of a session are not cleared between requests. A request initializes the counters of its
own text and none of its prior, which its first launch of the alignment controller writes, unless
that launch finds its scores invalid. Behind a valid first launch nothing that an observer of the
request sees, and nothing that its consumer reads, depends on what the buffers held before.

## Main definitions

* `Recurrence.behind`: the recurrence of the same request behind other buffers.
* `DeviceReading.AgreesAt`: two readings with the same results of the device at a point.

## Main results

* `launchAlignmentController_agrees`: a launch on the counters of the text.
* `sessionReuse_run`: two runs on different buffers.
-/

namespace MagpieTts.Runtime

open MagpieTts.Library MagpieTts.Plugins Pipeline

/-! ### The alignment controller -/

section Launch

variable {α : Type*} [LinearOrder α] {contract : AlignmentKernelContract}

/-- What a launch leaves apart from the prior, with the counters of the text. -/
structure AlignmentMemory.Agrees (textLength : ℕ) (memory other : AlignmentMemory) : Prop where
  lastAttended_eq : memory.lastAttended = other.lastAttended
  counters_eq : ∀ p < textLength, memory.counters p = other.counters p
  attended_eq : memory.attendedTokenIndex = other.attendedTokenIndex
  unfinished_eq : memory.unfinishedText = other.unfinishedText
  invalid_eq : memory.invalidState = other.invalidState

/-- The priors of the two rows of the condition agree. -/
def PriorAgrees (textLength : ℕ) (prior other : ℕ → PriorValue) : Prop :=
  ∀ index < textLength * 2, prior index = other index

theorem scanSinks_congr {counters counters' : ℕ → ℕ}
    (h : ∀ p < contract.textLength, counters p = counters' p) :
    scanSinks contract counters = scanSinks contract counters' := by
  rw [scanSinks, scanSinks]
  refine List.foldl_ext _ _ _ fun maximum index hindex => ?_
  rw [h index (List.mem_range.mp hindex)]

/-- The position of a window. -/
theorem attendWindow_lt (hlength : 0 < contract.textLength) (scores : ℕ → Score α)
    {searchStart windowEnd : ℕ} (hend : windowEnd ≤ contract.textLength) :
    (attendWindow contract scores searchStart windowEnd).1 < contract.textLength := by
  rw [attendWindow]
  split_ifs with hlt
  · exact (searchWindow_mem scores hlt).2.trans_le hend
  · exact Nat.sub_lt hlength Nat.one_pos

/-- Thread zero sees the counters of the text alone. -/
theorem controllerThread_agrees (hcontract : rejectsContract contract = false)
    (scores : ℕ → Score α) {memory other : AlignmentMemory}
    (hlast : memory.lastAttended = other.lastAttended)
    (hcounters : ∀ p < contract.textLength, memory.counters p = other.counters p) :
    (controllerThread contract scores memory).1 = (controllerThread contract scores other).1 ∧
      (controllerThread contract scores memory).2.Agrees contract.textLength
        (controllerThread contract scores other).2 := by
  have hlength := (rejectsContract_eq_false_iff.mp hcontract).1
  have hbounded : memory.counters (min other.lastAttended (contract.textLength - 1)) =
      other.counters (min other.lastAttended (contract.textLength - 1)) :=
    hcounters _ (by omega)
  simp only [controllerThread, hcontract, Bool.false_eq_true, if_false, hlast, hbounded]
  generalize hwindow : attendWindow contract scores _ _ = window
  have hattended : window.1 < contract.textLength := by
    rw [← hwindow]
    exact attendWindow_lt hlength scores (by omega)
  rw [hcounters _ hattended]
  have hupdate : ∀ p < contract.textLength,
      (if decide (other.counters window.1 = maximumUint32) = true then memory.counters
        else Function.update memory.counters window.1 (other.counters window.1 + 1)) p =
      (if decide (other.counters window.1 = maximumUint32) = true then other.counters
        else Function.update other.counters window.1 (other.counters window.1 + 1)) p := by
    intro p hp
    split_ifs
    · exact hcounters p hp
    · rcases eq_or_ne p window.1 with rfl | hne
      · rw [Function.update_self, Function.update_self]
      · rw [Function.update_of_ne hne, Function.update_of_ne hne, hcounters p hp]
  refine ⟨?_, rfl, hupdate, rfl, rfl, rfl⟩
  rw [scanSinks_congr hupdate]

/-- The stores of both phases write the prior of both rows. -/
theorem launchPrior_agrees (contract : AlignmentKernelContract) (shared : AlignmentShared)
    (prior other : ℕ → PriorValue) :
    PriorAgrees contract.textLength (launchPrior contract shared prior)
      (launchPrior contract shared other) := by
  intro index hindex
  have hvalue : ∀ s ∈ ((List.range kThreads).map fun thread =>
      (oneStores contract shared thread).getD []).flatten, s.value = PriorValue.one := by
    intro s hs
    obtain ⟨stores, hstores, hmem⟩ := List.mem_flatten.mp hs
    obtain ⟨thread, -, rfl⟩ := List.mem_map.mp hstores
    cases hones : oneStores contract shared thread with
    | none =>
      rw [hones, Option.getD_none] at hmem
      cases hmem
    | some ones =>
      rw [hones, Option.getD_some] at hmem
      exact value_of_oneStores hones s hmem
  have hepsilon : ∀ s ∈ ((List.range kThreads).map (epsilonStores contract)).flatten,
      s.value = PriorValue.epsilon := by
    intro s hs
    obtain ⟨stores, hstores, hmem⟩ := List.mem_flatten.mp hs
    exact value_of_mem_epsilonStores hstores s hmem
  have hfilled : index ∈ (((List.range kThreads).map (epsilonStores contract)).flatten.map
      Store.address) := by
    obtain ⟨thread, hthread, hstrided⟩ :=
      (exists_mem_stridedIndices_iff (show 0 < kThreads by decide)).mpr hindex
    exact List.mem_map.mpr ⟨⟨index, .epsilon⟩, List.mem_flatten.mpr
      ⟨_, List.mem_map.mpr ⟨thread, List.mem_range.mpr hthread, rfl⟩,
        List.mem_map.mpr ⟨index, hstrided, rfl⟩⟩, rfl⟩
  have hraised (filled : ℕ → PriorValue) :=
    storeAll_apply (f := fun _ => PriorValue.one) hvalue filled index
  have hcleared (prior : ℕ → PriorValue) :=
    storeAll_apply (f := fun _ => PriorValue.epsilon) hepsilon prior index
  simp only [launchPrior, hraised, hcleared, if_pos hfilled]

/-- A launch sees the counters of the text alone, and writes the prior unless it is invalid. -/
theorem launchAlignmentController_agrees (hcontract : rejectsContract contract = false)
    (scores : ℕ → Score α) {memory other : AlignmentMemory}
    (hlast : memory.lastAttended = other.lastAttended)
    (hcounters : ∀ p < contract.textLength, memory.counters p = other.counters p) :
    (launchAlignmentController contract scores memory).Agrees contract.textLength
        (launchAlignmentController contract scores other) ∧
      ((launchAlignmentController contract scores memory).invalidState = 0 ∨
          PriorAgrees contract.textLength memory.nextPrior other.nextPrior →
        PriorAgrees contract.textLength
          (launchAlignmentController contract scores memory).nextPrior
          (launchAlignmentController contract scores other).nextPrior) := by
  obtain ⟨hshared, hagrees⟩ := controllerThread_agrees hcontract scores hlast hcounters
  have hinvalid : (controllerThread contract scores memory).2.invalidState =
      if (controllerThread contract scores memory).1.invalid then 1 else 0 := by
    simp only [controllerThread, hcontract, Bool.false_eq_true, if_false]
  have hkept (other : AlignmentMemory) :
      (controllerThread contract scores other).2.nextPrior = other.nextPrior := by
    simp only [controllerThread, hcontract, Bool.false_eq_true, if_false]
  have hmemory := hkept memory
  have hother := hkept other
  rw [launchAlignmentController, launchAlignmentController]
  generalize controllerThread contract scores memory = left at *
  generalize controllerThread contract scores other = right at *
  obtain ⟨shared, written⟩ := left
  obtain ⟨shared', written'⟩ := right
  simp only at *
  subst hshared
  split_ifs with hbad
  · refine ⟨hagrees, fun hprior => ?_⟩
    rw [hmemory, hother]
    refine hprior.resolve_left ?_
    rw [hinvalid, if_pos hbad]
    exact Nat.one_ne_zero
  · exact ⟨{ hagrees with }, fun _ => launchPrior_agrees contract shared _ _⟩

end Launch

/-! ### The recurrence -/

variable {types : SessionTypes}

namespace Recurrence

/-- The recurrence of the same request behind other buffers. -/
def behind (self : Recurrence types) (counters : ℕ → ℕ) (prior : ℕ → PriorValue) :
    Recurrence types :=
  { self with counters, prior }

/-- Two states of one recurrence behind different buffers. -/
structure StateAgrees (textLength : ℕ) (state other : GenerationState types) : Prop where
  decoderHidden_eq : state.decoderHidden = other.decoderHidden
  alignmentScores_eq : state.alignmentScores = other.alignmentScores
  executionStatus_eq : state.executionStatus = other.executionStatus
  selfCaches_eq : state.selfCaches = other.selfCaches
  lastAttended_eq : state.alignment.lastAttended = other.alignment.lastAttended
  counters_eq : ∀ p < textLength, state.alignment.counters p = other.alignment.counters p
  rngCounter_eq : state.rngCounter = other.rngCounter
  generationFinished_eq : state.generationFinished = other.generationFinished

/-- Two steps of one recurrence behind different buffers. -/
structure StepAgrees (textLength : ℕ) (step other : GenerationStep types) : Prop where
  executionStatus_eq : step.executionStatus = other.executionStatus
  selfCaches_eq : step.selfCaches = other.selfCaches
  alignment_agrees : step.alignment.Agrees textLength other.alignment
  prior_agrees : PriorAgrees textLength step.alignment.nextPrior other.alignment.nextPrior
  outputs_eq : step.outputs = other.outputs
  generationFinished_eq : step.generationFinished = other.generationFinished

variable {self : Recurrence types} (counters : ℕ → ℕ) (prior : ℕ → PriorValue)

/-- A Local AR step. -/
theorem StateAgrees.speak (hcontract : rejectsContract self.contract = false)
    {state other : GenerationState types} (h : StateAgrees self.textLength state other)
    (number : ℕ)
    (hprior : (self.aligned state).invalidState = 0 ∨
      PriorAgrees self.textLength state.alignment.nextPrior other.alignment.nextPrior) :
    StepAgrees self.textLength (self.speak number state)
      ((self.behind counters prior).speak number other) := by
  obtain ⟨hagrees, hwrites⟩ := launchAlignmentController_agrees hcontract state.alignmentScores
    h.lastAttended_eq h.counters_eq
  have haligned : (self.behind counters prior).aligned other =
      launchAlignmentController self.contract state.alignmentScores other.alignment := by
    rw [h.alignmentScores_eq]
    rfl
  have hinputs : (self.behind counters prior).localArInputsOf number other =
      self.localArInputsOf number state := by
    rw [localArInputsOf, localArInputsOf, haligned, ← h.decoderHidden_eq, ← h.rngCounter_eq,
      ← h.generationFinished_eq, ← hagrees.unfinished_eq]
    rfl
  have houtputs : (self.speak number state).outputs =
      ((self.behind counters prior).speak number other).outputs := by
    show self.engines.localAr _ = self.engines.localAr _
    rw [hinputs]
  exact
    { executionStatus_eq := h.executionStatus_eq
      selfCaches_eq := h.selfCaches_eq
      alignment_agrees := by
        show (launchAlignmentController _ _ _).Agrees _ ((self.behind counters prior).aligned other)
        rw [haligned]
        exact hagrees
      prior_agrees := by
        show PriorAgrees _ (launchAlignmentController _ _ _).nextPrior
          ((self.behind counters prior).aligned other).nextPrior
        rw [haligned]
        exact hwrites hprior
      outputs_eq := houtputs
      generationFinished_eq := by
        show (finalizeLocalStepScalars (self.speak number state).outputs.invalidRows
          (self.speak number state).outputs.endFrameIndex
          (self.speak number state).outputs.updatedRngCounter
          state.generationFinished).generationFinished = _
        rw [houtputs, h.generationFinished_eq]
        rfl }

/-- A decoder step. -/
theorem StepAgrees.decode {step other : GenerationStep types}
    (h : StepAgrees self.textLength step other) (number : ℕ) :
    StateAgrees self.textLength (self.decode number step)
      ((self.behind counters prior).decode number other) := by
  have hinputs : (self.behind counters prior).decoderStepInputsOf number other =
      self.decoderStepInputsOf number step := by
    have hprior : boundTensor (self.textLength * 2) other.alignment.nextPrior =
        boundTensor (self.textLength * 2) step.alignment.nextPrior :=
      boundTensor_congr fun index hindex => (h.prior_agrees index hindex).symm
    simp only [decoderStepInputsOf, h.outputs_eq, h.executionStatus_eq, h.selfCaches_eq]
    rw [← hprior]
    rfl
  have houtputs : (self.behind counters prior).engines.mainDecoderStep
      ((self.behind counters prior).decoderStepInputsOf number other) =
      self.engines.mainDecoderStep (self.decoderStepInputsOf number step) := by
    rw [hinputs]
    rfl
  rw [Recurrence.decode, Recurrence.decode, houtputs]
  exact ⟨rfl, rfl, rfl, rfl, h.alignment_agrees.lastAttended_eq, h.alignment_agrees.counters_eq,
    by rw [h.outputs_eq], h.generationFinished_eq⟩

/-- In front of the first step. -/
theorem stateAgrees_start :
    StateAgrees self.textLength self.start (self.behind counters prior).start where
  decoderHidden_eq := rfl
  alignmentScores_eq := rfl
  executionStatus_eq := rfl
  selfCaches_eq := rfl
  lastAttended_eq := rfl
  counters_eq := fun p hp => by
    have hlength : p < (List.replicate self.textLength 0).length := by
      rw [List.length_replicate]
      exact hp
    show (List.replicate self.textLength 0).getD p _ = (List.replicate self.textLength 0).getD p _
    rw [List.getD_eq_getElem _ _ hlength, List.getD_eq_getElem _ _ hlength]
  rngCounter_eq := rfl
  generationFinished_eq := rfl

variable (hcontract : rejectsContract self.contract = false)
  (hvalid : (self.step 0).alignment.invalidState = 0)

include hcontract hvalid

/-- The steps agree. By induction on the steps: the first one writes the prior. -/
theorem stepAgrees (number : ℕ) :
    StepAgrees self.textLength (self.step number) ((self.behind counters prior).step number) := by
  induction number with
  | zero =>
    exact (stateAgrees_start counters prior).speak counters prior hcontract 0 (Or.inl hvalid)
  | succ number ih =>
    exact (ih.decode counters prior number).speak counters prior hcontract (number + 1)
      (Or.inr ih.prior_agrees)

theorem diagnostics_behind (number : ℕ) :
    (self.behind counters prior).diagnostics number = self.diagnostics number := by
  have h := stepAgrees counters prior hcontract hvalid number
  rw [diagnostics, diagnostics, ← h.alignment_agrees.attended_eq, ← h.alignment_agrees.invalid_eq,
    ← h.outputs_eq]

theorem batchDiagnostics_behind (first stepCount : ℕ) :
    (self.behind counters prior).batchDiagnostics first stepCount =
      self.batchDiagnostics first stepCount := by
  simp only [batchDiagnostics, diagnostics_behind counters prior hcontract hvalid,
    ← (stepAgrees counters prior hcontract hvalid (first + stepCount - 1)).executionStatus_eq]

theorem codecTokens_behind (first count : ℕ) :
    (self.behind counters prior).codecTokens first count = self.codecTokens first count := by
  refine boundTensor_congr fun index _ => ?_
  rw [codecFrame, codecFrame, ← (stepAgrees counters prior hcontract hvalid _).outputs_eq]

theorem codecStates_behind (number : ℕ) :
    (self.behind counters prior).codecStates number = self.codecStates number := by
  induction number with
  | zero =>
    rw [codecStates, codecStates, codecTokens_behind counters prior hcontract hvalid]
    rfl
  | succ number ih =>
    rw [codecStates, codecStates, codecTokens_behind counters prior hcontract hvalid, ih]
    rfl

theorem chunkCall_behind (number frameCount : ℕ) (final : Bool) :
    (self.behind counters prior).chunkCall number frameCount final =
      self.chunkCall number frameCount final := by
  cases number with
  | zero => rw [chunkCall, chunkCall, codecTokens_behind counters prior hcontract hvalid]
  | succ number =>
    simp only [chunkCall, codecTokens_behind counters prior hcontract hvalid,
      codecStates_behind counters prior hcontract hvalid]

theorem chunkPcm_behind (number frameCount : ℕ) (final : Bool) :
    (self.behind counters prior).chunkPcm number frameCount final =
      self.chunkPcm number frameCount final := by
  rw [chunkPcm, chunkPcm, chunkCall_behind counters prior hcontract hvalid]
  rfl

theorem streamPcm_behind (number : ℕ) (chunks : List AudioChunk) :
    (self.behind counters prior).streamPcm number chunks = self.streamPcm number chunks := by
  induction chunks generalizing number with
  | nil => rfl
  | cons chunk rest ih =>
    rw [streamPcm, streamPcm, chunkPcm_behind counters prior hcontract hvalid, ih]

end Recurrence

/-! ### Readings -/

/-- Two readings with the same results of the device at a point. -/
def DeviceReading.AgreesAt (point : WorkerPoint) (reading other : DeviceReading) : Prop :=
  match point with
  | .awaitFirst _ | .awaitGeneration _ => reading.diagnostics = other.diagnostics
  | .awaitCodec _ _ =>
    reading.validSampleLength = other.validSampleLength ∧ reading.pcmFinite = other.pcmFinite
  | _ => True

section Readings

variable {arguments : PipelineArguments} {reading other : DeviceReading}

/-- The worker sees the results for which it waits. -/
theorem WorkerState.advance_congr {self : WorkerState} (h : reading.AgreesAt self.point other)
    (request : StreamingRequestState) :
    self.advance arguments reading request = self.advance arguments other request := by
  obtain ⟨p, point, poisoned⟩ := self
  cases point with
  | awaitFirst pending =>
    have hdiagnostics : reading.diagnostics = other.diagnostics := h
    simp only [WorkerState.advance, hdiagnostics]
  | awaitGeneration pending =>
    have hdiagnostics : reading.diagnostics = other.diagnostics := h
    simp only [WorkerState.advance, hdiagnostics]
  | awaitCodec codec following =>
    obtain ⟨hlength, hfinite⟩ : _ ∧ _ := h
    simp only [WorkerState.advance, hlength, hfinite]
  | _ => rfl

theorem SynthesisObservation.step_worker_congr {self : SynthesisObservation}
    (h : reading.AgreesAt self.run.worker.point other) :
    self.step arguments (.worker reading) = self.step arguments (.worker other) := by
  have hrun : self.run.step arguments (.worker reading) =
      self.run.step arguments (.worker other) := by
    rw [SynthesisRun.step, SynthesisRun.step]
    cases self.run.worker.point.call with
    | some call => rfl
    | none => simp only [WorkerState.advance_congr h]
  have hsteps (next : WorkerPoint) :
      self.run.worker.point.stepsRead reading.diagnostics next =
        self.run.worker.point.stepsRead other.diagnostics next := by
    cases hpoint : self.run.worker.point with
    | awaitFirst pending =>
      rw [hpoint] at h
      rw [show reading.diagnostics = other.diagnostics from h]
    | awaitGeneration pending =>
      rw [hpoint] at h
      rw [show reading.diagnostics = other.diagnostics from h]
    | _ => cases next <;> rfl
  rw [SynthesisObservation.step, SynthesisObservation.step]
  simp only [hrun, hsteps]

theorem SynthesisObservation.step_fault_congr {self : SynthesisObservation}
    (h : reading.AgreesAt self.run.worker.point other) (enqueued : ℕ) (fault : DeviceFault) :
    self.step arguments (.fault reading enqueued fault) =
      self.step arguments (.fault other enqueued fault) := by
  simp only [SynthesisObservation.step, SynthesisRun.step, WorkerState.interrupt,
    WorkerState.advance_congr h]

end Readings

/-! ### Two runs -/

section Runs

variable {recurrence : Recurrence types} {workspace workspace' : SessionWorkspace types}
  {counters : ℕ → ℕ} {prior : ℕ → PriorValue}
  (hcontract : rejectsContract recurrence.contract = false)
  (hvalid : (recurrence.step 0).alignment.invalidState = 0)

include hcontract hvalid

/-- Two runs with one observation read the same results. -/
theorem DeviceInvariant.reading_agrees {self other : DeviceRun types}
    (hself : DeviceInvariant recurrence workspace self)
    (hother : DeviceInvariant (recurrence.behind counters prior) workspace' other)
    (hobservation : self.observation = other.observation) :
    self.reading.AgreesAt self.observation.run.worker.point other.reading := by
  obtain ⟨h, hworker, -⟩ := hself.run
  have hfollows := hself.follows.computes
  have hfollows' := hother.follows.computes
  rw [← hobservation] at hfollows'
  simp only [DeviceRun.reading, ← hobservation]
  have hat := hworker.point
  generalize self.observation.run.worker = w at *
  obtain ⟨p, point, poisoned⟩ := w
  dsimp only at *
  cases point with
  | awaitFirst pending =>
    show self.trace.workspace.pinnedGenerationDiagnostics pending.batchSlot =
      other.trace.workspace.pinnedGenerationDiagnostics pending.batchSlot
    rw [((hfollows trivial id).generating pending rfl).1,
      ((hfollows' trivial id).generating pending rfl).1,
      Recurrence.batchDiagnostics_behind counters prior hcontract hvalid]
  | awaitGeneration pending =>
    show self.trace.workspace.pinnedGenerationDiagnostics pending.batchSlot =
      other.trace.workspace.pinnedGenerationDiagnostics pending.batchSlot
    rw [((hfollows trivial id).generating pending rfl).1,
      ((hfollows' trivial id).generating pending rfl).1,
      Recurrence.batchDiagnostics_behind counters prior hcontract hvalid]
  | awaitCodec codec following =>
    have hdecoded := (hfollows trivial id).decoding codec rfl
    have hdecoded' := (hfollows' trivial id).decoding codec rfl
    have hsamples : codec.expectedSamples = codec.generation.frameCount * 1024 := by
      cases hat with
      | awaitCodec codec following hfollowing hholds hcodec => exact hcodec.samples_eq
      | waiting pending point hpoint => cases hpoint
    refine ⟨?_, ?_⟩
    · show self.trace.workspace.pinnedValidSampleLength =
        other.trace.workspace.pinnedValidSampleLength
      rw [hdecoded.validSampleLength_eq, hdecoded'.validSampleLength_eq,
        Recurrence.chunkCall_behind counters prior hcontract hvalid]
      rfl
    · show (boundTensor codec.expectedSamples self.trace.workspace.pinnedPcm).all types.isfinite =
        (boundTensor codec.expectedSamples other.trace.workspace.pinnedPcm).all types.isfinite
      rw [hsamples, hdecoded.pcm_eq, hdecoded'.pcm_eq,
        Recurrence.chunkPcm_behind counters prior hcontract hvalid]
  | _ => trivial

/-- Two runs with one observation take one step. -/
theorem DeviceInvariant.observation_step {self other : DeviceRun types}
    (hself : DeviceInvariant recurrence workspace self)
    (hother : DeviceInvariant (recurrence.behind counters prior) workspace' other)
    (hobservation : self.observation = other.observation) (action : DeviceAction) :
    (self.step recurrence.engines recurrence.arguments action).observation =
      (other.step recurrence.engines recurrence.arguments action).observation := by
  have hreading := hself.reading_agrees hcontract hvalid hother hobservation
  simp only [DeviceRun.step, DeviceRun.action, ← hobservation]
  cases action with
  | worker => exact SynthesisObservation.step_worker_congr hreading
  | fault enqueued fault => exact SynthesisObservation.step_fault_congr hreading enqueued fault
  | publicationFault => rfl
  | consumer call => rfl

/-- Two runs with one observation go on as one. By induction on the actions. -/
theorem DeviceRun.observation_congr
    (hmanifest : recurrence.arguments.manifest = acceptedManifest)
    (hstale : recurrence = workspace.recurrence recurrence.engines recurrence.arguments)
    (hstale' : recurrence.behind counters prior =
      workspace'.recurrence recurrence.engines recurrence.arguments)
    {actions : List DeviceAction} (hreported : ∀ action ∈ actions, action.Reported)
    {self other : DeviceRun types} (hself : DeviceInvariant recurrence workspace self)
    (hother : DeviceInvariant (recurrence.behind counters prior) workspace' other)
    (hobservation : self.observation = other.observation) :
    (run (DeviceRun.step recurrence.engines recurrence.arguments) self actions).observation =
      (run (DeviceRun.step recurrence.engines recurrence.arguments) other actions).observation := by
  induction actions generalizing self other with
  | nil => exact hobservation
  | cons action rest ih =>
    have haction := hreported action List.mem_cons_self
    exact ih (fun action hmem => hreported action (List.mem_cons_of_mem _ hmem))
      (hself.step hmanifest hstale hcontract haction)
      (@DeviceInvariant.step _ (recurrence.behind counters prior) workspace' other hmanifest hstale'
        hcontract hother action haction)
      (hself.observation_step hcontract hvalid hother hobservation action)

end Runs

/-- **Nothing of an earlier request remains.** Two runs of one request with the same actions, on
sessions whose buffers hold anything: when the first launch of the alignment controller is valid,
the observers of both see the same, and the consumers of both read the same samples. -/
theorem sessionReuse_run {engines : SessionEngines types} {arguments : PipelineArguments}
    (hmanifest : arguments.manifest = acceptedManifest)
    (hlow : 4 ≤ arguments.textTokenIds.length) (hhigh : arguments.textTokenIds.length ≤ 512)
    {request : StreamingRequestState}
    (hrequest : StreamingRequestState.construct arguments.textTokenIds.length
      arguments.manifest.limits.pcmRingCapacityFrames = .ok request) (leaseIds : LeaseIdSequence)
    (workspace workspace' : SessionWorkspace types)
    (hvalid : ((workspace.recurrence engines arguments).step 0).alignment.invalidState = 0)
    {actions : List DeviceAction} (hreported : ∀ action ∈ actions, action.Reported)
    {listened other : ListenedRun types}
    (hrun : run (ListenedRun.step engines arguments) (.start request leaseIds workspace) actions =
      listened)
    (hrun' : run (ListenedRun.step engines arguments) (.start request leaseIds workspace') actions =
      other) :
    listened.device.observation = other.device.observation ∧ listened.heard = other.heard := by
  have hcontract := rejectsContract_eq_false hmanifest hlow hhigh
  have hinv := listenedInvariant_run engines hmanifest hcontract hrequest leaseIds workspace actions
    hreported
  have hinv' := listenedInvariant_run engines hmanifest hcontract hrequest leaseIds workspace'
    actions hreported
  have hobservation : listened.device.observation = other.device.observation := by
    rw [← hrun, ← hrun', ListenedRun.run_device, ListenedRun.run_device]
    exact @DeviceRun.observation_congr _ (workspace.recurrence engines arguments) workspace
      workspace' workspace'.alignmentCounters workspace'.alignmentPrior hcontract hvalid hmanifest
      rfl rfl actions hreported _ _
      (@DeviceInvariant.start _ (workspace.recurrence engines arguments) workspace hmanifest request
        hrequest leaseIds)
      (@DeviceInvariant.start _ (workspace'.recurrence engines arguments) workspace' hmanifest
        request hrequest leaseIds) rfl
  rw [hrun] at hinv
  rw [hrun'] at hinv'
  refine ⟨hobservation, ?_⟩
  rw [hinv.heard_eq, hinv'.heard_eq, hobservation]
  exact (@Recurrence.streamPcm_behind _ (workspace.recurrence engines arguments)
    workspace'.alignmentCounters workspace'.alignmentPrior hcontract hvalid 0 _).symm

/-- A workspace behind another request. -/
def usedWorkspace : SessionWorkspace briefTypes :=
  { clearedWorkspace with
    alignmentCounters := fun _ => 7
    alignmentPrior := fun _ => .epsilon
    lastAttended := 5
    generationFinished := true
    rngCounter := 99
    codecStates := fun _ _ _ _ => 1
    codecPcm := fun _ => 1
    pinnedPcm := fun _ => 1 }

theorem sessionReuse_run_used :
    (run (ListenedRun.step briefEngines tenTokenArguments)
        (.start tenTokenRequest ⟨1⟩ clearedWorkspace) completingActions).heard =
      (run (ListenedRun.step briefEngines tenTokenArguments)
        (.start tenTokenRequest ⟨1⟩ usedWorkspace) completingActions).heard :=
  (sessionReuse_run rfl (by decide) (by decide) rfl ⟨1⟩ clearedWorkspace usedWorkspace
    (by decide +kernel) reported_completingActions rfl rfl).2

end MagpieTts.Runtime
