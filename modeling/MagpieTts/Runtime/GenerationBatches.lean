import Mathlib.Data.List.Nodup
import MagpieTts.Runtime.GenerationRecurrence
import MagpieTts.Runtime.SynthesisPipelineSpec

/-!
# The generation of a batch on the workspace

The commands of a batch compute the next steps of the recurrence: each leaves the caches that it
does not read, the two frames of its tokens in the slot of the batch and its entry in the record,
and touches nothing of the codec.

## Main definitions

* `SessionWorkspace.Ready`, `SessionWorkspace.Spoken`: the workspace in front of and behind a step.
* `SessionWorkspace.Reports`: the entry of a step in its step slot.
* `SessionWorkspace.SlotFrames`: the frames in the slot of a batch.

## Main results

* `SessionWorkspace.Spoken.generatesBatch`: the commands of a steady batch.
-/

namespace MagpieTts.Runtime

open MagpieTts.Library MagpieTts.Plugins Pipeline

variable {types : SessionTypes}

namespace SessionWorkspace

/-! ### The workspace against the recurrence -/

/-- The workspace holds what does not change in a request. -/
structure Fixed (workspace : SessionWorkspace types) (recurrence : Recurrence types) : Prop where
  conditionMask_eq : boundTensor (recurrence.textLength * 2) workspace.conditionMask =
    recurrence.conditionMask
  crossCaches_eq : workspace.crossCaches = recurrence.prefill.crossCaches
  rngSeed_eq : workspace.rngSeed = recurrence.arguments.randomSeed

/-- In front of the Local AR step of a number, with the caches in the given buffer. -/
structure Ready (workspace : SessionWorkspace types) (recurrence : Recurrence types)
    (cacheIndex : BufferIndex) (number : ℕ) : Prop extends workspace.Fixed recurrence where
  decoderHidden_eq : workspace.decoderHidden = (recurrence.state number).decoderHidden
  alignmentScores_eq : workspace.alignmentScores = (recurrence.state number).alignmentScores
  executionStatus_eq : workspace.mainDecoderExecutionStatus cacheIndex =
    (recurrence.state number).executionStatus
  selfCaches_eq : workspace.selfCaches cacheIndex = (recurrence.state number).selfCaches
  counters_eq : workspace.alignmentCounters = (recurrence.state number).alignment.counters
  lastAttended_eq : workspace.lastAttended = (recurrence.state number).alignment.lastAttended
  prior_eq : workspace.alignmentPrior = (recurrence.state number).alignment.nextPrior
  rngCounter_eq : workspace.rngCounter = (recurrence.state number).rngCounter
  generationFinished_eq : workspace.generationFinished =
    (recurrence.state number).generationFinished
  decoderPosition_eq : workspace.decoderPosition =
    (recurrence.arguments.manifest.kvCache.firstStepPosition : ℤ) - 1 + number

/-- Behind the Local AR step of a number. -/
structure Spoken (workspace : SessionWorkspace types) (recurrence : Recurrence types)
    (cacheIndex : BufferIndex) (number : ℕ) : Prop extends workspace.Fixed recurrence where
  executionStatus_eq : workspace.mainDecoderExecutionStatus cacheIndex =
    (recurrence.step number).executionStatus
  selfCaches_eq : workspace.selfCaches cacheIndex = (recurrence.step number).selfCaches
  counters_eq : workspace.alignmentCounters = (recurrence.step number).alignment.counters
  lastAttended_eq : workspace.lastAttended = (recurrence.step number).alignment.lastAttended
  prior_eq : workspace.alignmentPrior = (recurrence.step number).alignment.nextPrior
  rngCounter_eq : workspace.rngCounter = (recurrence.step number).outputs.updatedRngCounter
  generationFinished_eq : workspace.generationFinished = (recurrence.step number).generationFinished
  localCodecTokens_eq : workspace.localCodecTokens = (recurrence.step number).outputs.codecTokens
  decoderPosition_eq : workspace.decoderPosition =
    (recurrence.arguments.manifest.kvCache.firstStepPosition : ℤ) - 1 + number

/-- The step slot holds the entry of a step. -/
structure Reports (workspace : SessionWorkspace types) (recurrence : Recurrence types)
    (stepSlot number : ℕ) : Prop where
  attended_eq : workspace.attendedTokenIndex stepSlot =
    (recurrence.step number).alignment.attendedTokenIndex
  invalid_eq : workspace.alignmentInvalid stepSlot = (recurrence.step number).alignment.invalidState
  invalidRows_eq : workspace.localInvalidRows stepSlot =
    (recurrence.step number).outputs.invalidRows
  endFrameIndex_eq : workspace.localEndFrameIndex stepSlot =
    (recurrence.step number).outputs.endFrameIndex

/-- The slot of a batch holds `count` frames of the stream from `first` on. -/
def SlotFrames (workspace : SessionWorkspace types) (recurrence : Recurrence types)
    (batchSlot : BatchSlot) (first count : ℕ) : Prop :=
  ∀ frame < count, ∀ codebook < kLocalArCodebooks,
    workspace.aggregateCodecTokens batchSlot (codebook * kSteadyFrames + frame) =
      recurrence.codecFrame (first + frame) codebook

/-- What the generation of a batch leaves alone: the other slot, and everything of the codec. -/
structure KeepsCodec (workspace other : SessionWorkspace types) (batchSlot : BatchSlot) : Prop where
  aggregate_eq : ∀ slot, slot ≠ batchSlot →
    other.aggregateCodecTokens slot = workspace.aggregateCodecTokens slot
  pinned_eq : ∀ slot, slot ≠ batchSlot →
    other.pinnedGenerationDiagnostics slot = workspace.pinnedGenerationDiagnostics slot
  codecInputTokens_eq : other.codecInputTokens = workspace.codecInputTokens
  codecStates_eq : other.codecStates = workspace.codecStates
  codecPcm_eq : other.codecPcm = workspace.codecPcm
  codecValidSampleLength_eq : other.codecValidSampleLength = workspace.codecValidSampleLength
  pinnedValidSampleLength_eq : other.pinnedValidSampleLength = workspace.pinnedValidSampleLength
  pinnedPcm_eq : other.pinnedPcm = workspace.pinnedPcm

theorem KeepsCodec.refl (self : SessionWorkspace types) (batchSlot : BatchSlot) :
    self.KeepsCodec self batchSlot :=
  ⟨fun _ _ => rfl, fun _ _ => rfl, rfl, rfl, rfl, rfl, rfl, rfl⟩

theorem KeepsCodec.trans {self other third : SessionWorkspace types} {batchSlot : BatchSlot}
    (h : self.KeepsCodec other batchSlot) (h' : other.KeepsCodec third batchSlot) :
    self.KeepsCodec third batchSlot where
  aggregate_eq slot hne := (h'.aggregate_eq slot hne).trans (h.aggregate_eq slot hne)
  pinned_eq slot hne := (h'.pinned_eq slot hne).trans (h.pinned_eq slot hne)
  codecInputTokens_eq := h'.codecInputTokens_eq.trans h.codecInputTokens_eq
  codecStates_eq := h'.codecStates_eq.trans h.codecStates_eq
  codecPcm_eq := h'.codecPcm_eq.trans h.codecPcm_eq
  codecValidSampleLength_eq := h'.codecValidSampleLength_eq.trans h.codecValidSampleLength_eq
  pinnedValidSampleLength_eq := h'.pinnedValidSampleLength_eq.trans h.pinnedValidSampleLength_eq
  pinnedPcm_eq := h'.pinnedPcm_eq.trans h.pinnedPcm_eq

end SessionWorkspace

/-! ### The execution of commands -/

namespace SessionTrace

variable {engines : SessionEngines types} {arguments : PipelineArguments}
  {trace : SessionTrace types}

@[simp] theorem executeAll_nil : trace.executeAll engines arguments [] = trace := rfl

@[simp] theorem executeAll_cons (command : DeviceCommand) (rest : List DeviceCommand) :
    trace.executeAll engines arguments (command :: rest) =
      (trace.execute engines arguments command).executeAll engines arguments rest := rfl

theorem executeAll_append (commands more : List DeviceCommand) :
    trace.executeAll engines arguments (commands ++ more) =
      (trace.executeAll engines arguments commands).executeAll engines arguments more :=
  List.foldl_append

end SessionTrace

/-! ### A Local AR step -/

/-- What a Local AR step does to the workspace and to the calls. -/
structure Speaks (recurrence : Recurrence types) (cacheIndex : BufferIndex) (number stepSlot : ℕ)
    (batchSlot : BatchSlot) (aggregateFrameOffset : ℕ) (trace after : SessionTrace types) :
    Prop where
  spoken : after.workspace.Spoken recurrence cacheIndex number
  reports : after.workspace.Reports recurrence stepSlot number
  reports_of_ne : ∀ other number', other ≠ stepSlot →
    trace.workspace.Reports recurrence other number' →
    after.workspace.Reports recurrence other number'
  aggregate_eq : after.workspace.aggregateCodecTokens batchSlot =
    launchFinalizeLocalStep (recurrence.step number).outputs.codecTokens
      (trace.workspace.aggregateCodecTokens batchSlot) aggregateFrameOffset
  keeps : trace.workspace.KeepsCodec after.workspace batchSlot
  decoderCalls_eq : after.decoderCalls =
    trace.decoderCalls ++ [.localAr (recurrence.localArInputs number)]
  codecCalls_eq : after.codecCalls = trace.codecCalls

section Steps

variable {recurrence : Recurrence types} {cacheIndex : BufferIndex} {number : ℕ}
  {trace : SessionTrace types}

/-- The launch of the controller on the workspace is that of the recurrence. -/
theorem SessionWorkspace.Ready.launch_eq {self : SessionWorkspace types}
    (hready : self.Ready recurrence cacheIndex number)
    (hcontract : rejectsContract recurrence.contract = false) (stepSlot : ℕ) :
    launchAlignmentController recurrence.contract self.alignmentScores
        (self.alignmentMemory stepSlot) = (recurrence.step number).alignment := by
  rw [hready.alignmentScores_eq]
  refine launchAlignmentController_congr hcontract ?_ ?_ ?_
  · exact hready.lastAttended_eq
  · exact hready.counters_eq
  · exact hready.prior_eq

/-- The controller, and the copy of its flag to the slot that the engine is bound to. -/
theorem SessionWorkspace.Ready.executeAll_align
    (hready : trace.workspace.Ready recurrence cacheIndex number)
    (hcontract : rejectsContract recurrence.contract = false) (stepSlot : ℕ) :
    ∃ unfinishedText : ℕ → Bool,
      unfinishedText 0 = (recurrence.step number).alignment.unfinishedText ∧
        trace.executeAll recurrence.engines recurrence.arguments (.advanceAlignment stepSlot ::
            if stepSlot ≠ 0 then [.stageUnfinished stepSlot] else []) =
          { trace with
            workspace :=
              { trace.workspace.withAlignmentMemory stepSlot (recurrence.step number).alignment with
                unfinishedText } } := by
  have hexecute : trace.execute recurrence.engines recurrence.arguments
      (.advanceAlignment stepSlot) = { trace with
        workspace :=
          trace.workspace.withAlignmentMemory stepSlot (recurrence.step number).alignment } := by
    rw [← hready.launch_eq hcontract stepSlot]
    simp only [SessionTrace.execute, DeviceCommand.execute, DeviceCommand.decoderCall,
      DeviceCommand.codecCall, Option.toList_none, List.append_nil]
    rfl
  rw [SessionTrace.executeAll_cons, hexecute]
  by_cases hslot : stepSlot = 0
  · subst hslot
    refine ⟨_, ?_, rfl⟩
    exact Function.update_self 0 _ _
  · rw [if_pos hslot, SessionTrace.executeAll_cons, SessionTrace.executeAll_nil]
    simp only [SessionTrace.execute, DeviceCommand.execute, DeviceCommand.decoderCall,
      DeviceCommand.codecCall, Option.toList_none, List.append_nil]
    refine ⟨_, ?_, rfl⟩
    rw [Function.update_self]
    exact Function.update_self stepSlot _ _

/-- The controller and the Local AR engine, behind a decoder step. -/
theorem SessionWorkspace.Ready.speaks (hready : trace.workspace.Ready recurrence cacheIndex number)
    (hcontract : rejectsContract recurrence.contract = false) (stepSlot : ℕ)
    (batchSlot : BatchSlot) (aggregateFrameOffset : ℕ) :
    Speaks recurrence cacheIndex number stepSlot batchSlot aggregateFrameOffset trace
      (trace.executeAll recurrence.engines recurrence.arguments
        (.advanceAlignment stepSlot ::
          localCommands stepSlot batchSlot aggregateFrameOffset (decide (number < 2)))) := by
  obtain ⟨unfinishedText, hunfinished, halign⟩ := hready.executeAll_align hcontract stepSlot
  rw [localCommands, ← List.cons_append, SessionTrace.executeAll_append, halign]
  generalize hworkspace : ({ trace.workspace.withAlignmentMemory stepSlot
    (recurrence.step number).alignment with unfinishedText } : SessionWorkspace types) = workspace
  have hinputs : ({ workspace with forbidEos := decide (number < 2) } :
      SessionWorkspace types).localArInputs = recurrence.localArInputs number := by
    rw [← hworkspace]
    simp only [SessionWorkspace.localArInputs, SessionWorkspace.withAlignmentMemory]
    rw [hunfinished, hready.decoderHidden_eq, hready.generationFinished_eq, hready.rngSeed_eq,
      hready.rngCounter_eq]
    rfl
  simp only [SessionTrace.executeAll_cons, SessionTrace.executeAll_nil, SessionTrace.execute,
    DeviceCommand.execute, DeviceCommand.decoderCall, DeviceCommand.codecCall, hinputs,
    Option.toList_none, Option.toList_some, List.append_nil]
  subst hworkspace
  refine
    { spoken := ?_, reports := ?_, reports_of_ne := ?_, aggregate_eq := ?_, keeps := ?_
      decoderCalls_eq := rfl, codecCalls_eq := rfl }
  · exact
      { hready.toFixed with
        executionStatus_eq := hready.executionStatus_eq
        selfCaches_eq := hready.selfCaches_eq
        counters_eq := rfl
        lastAttended_eq := rfl
        prior_eq := rfl
        rngCounter_eq := rfl
        generationFinished_eq := congrArg (fun finished =>
          let outputs := (recurrence.step number).outputs
          (finalizeLocalStepScalars outputs.invalidRows outputs.endFrameIndex
            outputs.updatedRngCounter finished).generationFinished) hready.generationFinished_eq
        localCodecTokens_eq := rfl
        decoderPosition_eq := hready.decoderPosition_eq }
  · exact ⟨Function.update_self _ _ _, Function.update_self _ _ _, Function.update_self _ _ _,
      Function.update_self _ _ _⟩
  · intro other number' hne hreports
    exact ⟨(Function.update_of_ne hne _ _).trans hreports.attended_eq,
      (Function.update_of_ne hne _ _).trans hreports.invalid_eq,
      (Function.update_of_ne hne _ _).trans hreports.invalidRows_eq,
      (Function.update_of_ne hne _ _).trans hreports.endFrameIndex_eq⟩
  · exact Function.update_self _ _ _
  · exact ⟨fun slot hne => Function.update_of_ne hne _ _, fun _ _ => rfl, rfl, rfl, rfl, rfl, rfl,
      rfl⟩

/-- What a decoder step does to the workspace and to the calls. -/
structure Decodes (recurrence : Recurrence types) (cacheIndex : BufferIndex) (number : ℕ)
    (trace after : SessionTrace types) : Prop where
  ready : after.workspace.Ready recurrence (1 - cacheIndex) (number + 1)
  reports : ∀ other number', trace.workspace.Reports recurrence other number' →
    after.workspace.Reports recurrence other number'
  aggregate_eq : after.workspace.aggregateCodecTokens = trace.workspace.aggregateCodecTokens
  keeps : ∀ batchSlot, trace.workspace.KeepsCodec after.workspace batchSlot
  decoderCalls_eq : after.decoderCalls =
    trace.decoderCalls ++ [.mainDecoderStep (recurrence.decoderStepInputs number)]
  codecCalls_eq : after.codecCalls = trace.codecCalls

/-- The decoder step behind a Local AR step. -/
theorem SessionWorkspace.Spoken.decodes
    (hspoken : trace.workspace.Spoken recurrence cacheIndex number) :
    Decodes recurrence cacheIndex number trace
      (trace.executeAll recurrence.engines recurrence.arguments
        [.advanceDecoderPosition, .runDecoderStep cacheIndex]) := by
  have hposition : trace.workspace.decoderPosition + 1 =
      (recurrence.arguments.manifest.kvCache.firstStepPosition : ℤ) + number := by
    rw [hspoken.decoderPosition_eq]
    omega
  have hinputs : ({ trace.workspace with decoderPosition := trace.workspace.decoderPosition + 1 } :
      SessionWorkspace types).decoderStepInputs recurrence.arguments.textTokenIds.length
        cacheIndex = recurrence.decoderStepInputs number := by
    simp only [SessionWorkspace.decoderStepInputs]
    rw [hspoken.localCodecTokens_eq, hposition, hspoken.executionStatus_eq, hspoken.prior_eq,
      hspoken.selfCaches_eq, hspoken.crossCaches_eq]
    refine congrArg (fun mask => DecoderStepInputs.mk _ _ _ _ mask _ _) ?_
    exact hspoken.conditionMask_eq
  simp only [SessionTrace.executeAll_cons, SessionTrace.executeAll_nil, SessionTrace.execute,
    DeviceCommand.execute, DeviceCommand.decoderCall, DeviceCommand.codecCall, hinputs,
    Option.toList_none, Option.toList_some, List.append_nil]
  refine
    { ready := ?_, reports := ?_, aggregate_eq := rfl, keeps := ?_
      decoderCalls_eq := rfl, codecCalls_eq := rfl }
  · exact
      { hspoken.toFixed with
        decoderHidden_eq := rfl
        alignmentScores_eq := rfl
        executionStatus_eq := Function.update_self _ _ _
        selfCaches_eq := Function.update_self _ _ _
        counters_eq := hspoken.counters_eq
        lastAttended_eq := hspoken.lastAttended_eq
        prior_eq := hspoken.prior_eq
        rngCounter_eq := hspoken.rngCounter_eq
        generationFinished_eq := hspoken.generationFinished_eq
        decoderPosition_eq := by
          show trace.workspace.decoderPosition + 1 = _
          rw [hspoken.decoderPosition_eq]
          omega }
  · exact fun other number' hreports => ⟨hreports.attended_eq, hreports.invalid_eq,
      hreports.invalidRows_eq, hreports.endFrameIndex_eq⟩
  · exact fun batchSlot => ⟨fun _ _ => rfl, fun _ _ => rfl, rfl, rfl, rfl, rfl, rfl, rfl⟩

end Steps

/-! ### The steps of a batch -/

/-- The tokens of the steps from `first` on, at the offsets of their step slots. -/
def Recurrence.slotSteps (recurrence : Recurrence types) : ℕ → List ℕ → List (ℕ × (ℕ → ℤ))
  | _, [] => []
  | first, stepSlot :: rest =>
    (stepSlot * 2, (recurrence.step first).outputs.codecTokens) ::
      slotSteps recurrence (first + 1) rest

/-- What the steps from `first` on in the given step slots do to the workspace and to the calls. -/
structure Generates (recurrence : Recurrence types) (batchSlot : BatchSlot)
    (cacheIndex : BufferIndex) (first : ℕ) (stepSlots : List ℕ) (trace after : SessionTrace types) :
    Prop where
  spoken : ∀ last, last + 1 = first + stepSlots.length →
    after.workspace.Spoken recurrence cacheIndex last
  reports : ∀ step (h : step < stepSlots.length),
    after.workspace.Reports recurrence stepSlots[step] (first + step)
  reports_of_notMem : ∀ other number, other ∉ stepSlots →
    trace.workspace.Reports recurrence other number →
    after.workspace.Reports recurrence other number
  aggregated : AggregatedSteps (recurrence.slotSteps first stepSlots)
    (trace.workspace.aggregateCodecTokens batchSlot)
    (after.workspace.aggregateCodecTokens batchSlot)
  keeps : trace.workspace.KeepsCodec after.workspace batchSlot
  decoderCalls_eq : trace.decoderCalls = recurrence.calls first →
    after.decoderCalls = recurrence.calls (first + stepSlots.length)
  codecCalls_eq : after.codecCalls = trace.codecCalls

section Batch

variable {recurrence : Recurrence types} {batchSlot : BatchSlot} {cacheIndex : BufferIndex}
  {first number : ℕ} {trace after : SessionTrace types}

theorem Recurrence.slotSteps_append (recurrence : Recurrence types) (stepSlots more : List ℕ)
    (first : ℕ) : recurrence.slotSteps first (stepSlots ++ more) =
      recurrence.slotSteps first stepSlots ++
        recurrence.slotSteps (first + stepSlots.length) more := by
  induction stepSlots generalizing first with
  | nil => rfl
  | cons stepSlot rest ih =>
    rw [List.cons_append, slotSteps, slotSteps, ih, List.length_cons, List.cons_append,
      Nat.add_assoc, Nat.add_comm 1]

theorem Recurrence.mem_slotSteps (recurrence : Recurrence types) (stepSlots : List ℕ) (first : ℕ)
    {step : ℕ} (h : step < stepSlots.length) :
    (stepSlots[step] * 2, (recurrence.step (first + step)).outputs.codecTokens) ∈
      recurrence.slotSteps first stepSlots := by
  induction stepSlots generalizing first step with
  | nil => exact absurd h (Nat.not_lt_zero step)
  | cons stepSlot rest ih =>
    rw [slotSteps]
    rcases step with _ | step
    · exact List.mem_cons_self
    · refine List.mem_cons_of_mem _ ?_
      have hmem := ih (first + 1) (Nat.lt_of_succ_lt_succ h)
      rwa [Nat.add_right_comm] at hmem

theorem Recurrence.map_fst_slotSteps (recurrence : Recurrence types) (stepSlots : List ℕ)
    (first : ℕ) :
    (recurrence.slotSteps first stepSlots).map Prod.fst = stepSlots.map (· * 2) := by
  induction stepSlots generalizing first with
  | nil => rfl
  | cons stepSlot rest ih => rw [slotSteps, List.map_cons, List.map_cons, ih]

theorem aggregatedSteps_append {steps more : List (ℕ × (ℕ → ℤ))}
    {aggregate middle result : ℕ → ℤ} (h : AggregatedSteps steps aggregate middle)
    (h' : AggregatedSteps more middle result) :
    AggregatedSteps (steps ++ more) aggregate result := by
  induction h with
  | nil => exact h'
  | cons hvalid hphase _ ih => exact .cons hvalid hphase (ih h')

/-- Steps compose. -/
theorem Generates.append {stepSlots more : List ℕ} {middle : SessionTrace types}
    {middleCache : BufferIndex}
    (h : Generates recurrence batchSlot middleCache first stepSlots trace middle)
    (h' : Generates recurrence batchSlot cacheIndex (first + stepSlots.length) more middle after)
    (hdisjoint : stepSlots.Disjoint more) :
    Generates recurrence batchSlot cacheIndex first (stepSlots ++ more) trace after where
  spoken last hlast := h'.spoken last (by rw [hlast, List.length_append, Nat.add_assoc])
  reports step hstep := by
    by_cases hleft : step < stepSlots.length
    · rw [List.getElem_append_left hleft]
      exact h'.reports_of_notMem _ _ (hdisjoint (List.getElem_mem hleft)) (h.reports step hleft)
    · have hright : stepSlots.length ≤ step := Nat.le_of_not_lt hleft
      rw [List.getElem_append_right hright]
      rw [List.length_append] at hstep
      have hreports := h'.reports (step - stepSlots.length) (by omega)
      rwa [Nat.add_assoc, Nat.add_sub_cancel' hright] at hreports
  reports_of_notMem other number' hmem hreports := by
    rw [List.mem_append, not_or] at hmem
    exact h'.reports_of_notMem other number' hmem.2
      (h.reports_of_notMem other number' hmem.1 hreports)
  aggregated := by
    rw [recurrence.slotSteps_append]
    exact aggregatedSteps_append h.aggregated h'.aggregated
  keeps := h.keeps.trans h'.keeps
  decoderCalls_eq hcalls := by
    rw [h'.decoderCalls_eq (h.decoderCalls_eq hcalls), List.length_append, Nat.add_assoc]
  codecCalls_eq := h'.codecCalls_eq.trans h.codecCalls_eq

/-- The offset of a step slot of a batch. -/
theorem frameOffsetValid_of_lt {stepSlot : ℕ} (h : stepSlot < 4) :
    FrameOffsetValid (stepSlot * 2) :=
  ⟨by show stepSlot * 2 ≤ 6; omega, Nat.mul_mod_left stepSlot 2⟩

/-- A Local AR step is a step of its batch, from the trace in front of its decoder step on. -/
theorem Speaks.generates {stepSlot : ℕ} {before : SessionTrace types} (hstepSlot : stepSlot < 4)
    (h : Speaks recurrence cacheIndex number stepSlot batchSlot (stepSlot * 2) trace after)
    (hreports : ∀ other number', before.workspace.Reports recurrence other number' →
      trace.workspace.Reports recurrence other number')
    (haggregate : trace.workspace.aggregateCodecTokens = before.workspace.aggregateCodecTokens)
    (hkeeps : before.workspace.KeepsCodec trace.workspace batchSlot)
    (hcalls : before.decoderCalls = recurrence.calls number →
      trace.decoderCalls ++ [.localAr (recurrence.localArInputs number)] =
        recurrence.calls (number + 1))
    (hcodecCalls : trace.codecCalls = before.codecCalls) :
    Generates recurrence batchSlot cacheIndex number [stepSlot] before after where
  spoken last hlast := by
    obtain rfl : last = number := Nat.succ_injective hlast
    exact h.spoken
  reports step hstep := by
    obtain rfl : step = 0 := Nat.lt_one_iff.mp hstep
    exact h.reports
  reports_of_notMem other number' hmem hbefore :=
    h.reports_of_ne other number' (List.ne_of_not_mem_cons hmem) (hreports other number' hbefore)
  aggregated := by
    refine .cons (frameOffsetValid_of_lt hstepSlot) ?_ (.nil _)
    rw [h.aggregate_eq, haggregate]
    exact phaseOutcome_sequential _ _
  keeps := hkeeps.trans h.keeps
  decoderCalls_eq hbefore := h.decoderCalls_eq.trans (hcalls hbefore)
  codecCalls_eq := h.codecCalls_eq.trans hcodecCalls

/-- The first step of a request. -/
theorem SessionWorkspace.Ready.generates
    (hready : trace.workspace.Ready recurrence cacheIndex 0)
    (hcontract : rejectsContract recurrence.contract = false) (batchSlot : BatchSlot) :
    Generates recurrence batchSlot cacheIndex 0 [0] trace
      (trace.executeAll recurrence.engines recurrence.arguments
        (.advanceAlignment 0 :: localCommands 0 batchSlot 0 true)) := by
  refine (hready.speaks hcontract 0 batchSlot 0).generates (by decide) (fun _ _ h => h) rfl
    (.refl _ _) (fun hcalls => ?_) rfl
  rw [hcalls]
  rfl

/-- A pass over a step slot. -/
theorem SessionWorkspace.Spoken.generates_pass
    (hspoken : trace.workspace.Spoken recurrence cacheIndex number)
    (hcontract : rejectsContract recurrence.contract = false) (batchSlot : BatchSlot)
    {stepSlot : ℕ} (hstepSlot : stepSlot < 4) :
    Generates recurrence batchSlot (1 - cacheIndex) (number + 1) [stepSlot] trace
      (trace.executeAll recurrence.engines recurrence.arguments
        (decoderCommands cacheIndex stepSlot ++
          localCommands stepSlot batchSlot (stepSlot * 2) (decide (number + 1 < 2)))) := by
  have hdecodes := hspoken.decodes
  have hcommands : decoderCommands cacheIndex stepSlot ++
      localCommands stepSlot batchSlot (stepSlot * 2) (decide (number + 1 < 2)) =
        [.advanceDecoderPosition, .runDecoderStep cacheIndex] ++
          .advanceAlignment stepSlot ::
            localCommands stepSlot batchSlot (stepSlot * 2) (decide (number + 1 < 2)) := rfl
  rw [hcommands, SessionTrace.executeAll_append]
  refine (hdecodes.ready.speaks hcontract stepSlot batchSlot (stepSlot * 2)).generates hstepSlot
    hdecodes.reports hdecodes.aggregate_eq (hdecodes.keeps batchSlot) (fun hcalls => ?_)
    hdecodes.codecCalls_eq
  rw [hdecodes.decoderCalls_eq, hcalls, List.append_assoc]
  rfl

/-- The cache that is read behind a number of decoder steps. -/
def cacheBehind (cacheIndex : BufferIndex) (steps : ℕ) : BufferIndex :=
  (fun index => 1 - index)^[steps] cacheIndex

/-- The passes over the step slots of a list. -/
theorem SessionWorkspace.Spoken.generates
    (hspoken : trace.workspace.Spoken recurrence cacheIndex number)
    (hcontract : rejectsContract recurrence.contract = false) (batchSlot : BatchSlot)
    {stepSlots : List ℕ} (hstepSlots : ∀ stepSlot ∈ stepSlots, stepSlot < 4)
    (hnodup : stepSlots.Nodup) :
    Generates recurrence batchSlot (cacheBehind cacheIndex stepSlots.length) (number + 1) stepSlots
      trace (trace.executeAll recurrence.engines recurrence.arguments
        (passCommands batchSlot cacheIndex (number + 1) stepSlots)) := by
  induction stepSlots generalizing trace cacheIndex number with
  | nil =>
    refine ⟨fun last hlast => ?_, fun step hstep => absurd hstep (Nat.not_lt_zero step),
      fun _ _ _ h => h, .nil _, .refl _ _, fun h => h, rfl⟩
    obtain rfl : last = number := Nat.succ_injective hlast
    exact hspoken
  | cons stepSlot rest ih =>
    have hpass := hspoken.generates_pass hcontract batchSlot
      (hstepSlots stepSlot List.mem_cons_self)
    rw [List.nodup_cons] at hnodup
    rw [passCommands, SessionTrace.executeAll_append]
    refine hpass.append (ih (hpass.spoken _ rfl)
      (fun slot hslot => hstepSlots slot (List.mem_cons_of_mem _ hslot)) hnodup.2) ?_
    rw [List.singleton_disjoint]
    exact hnodup.1

/-! ### Whole batches -/

/-- What the generation of the steps from `first` on does to the workspace and to the calls. -/
structure GeneratesBatch (recurrence : Recurrence types) (batchSlot : BatchSlot)
    (cacheIndex : BufferIndex) (first stepCount : ℕ) (trace after : SessionTrace types) :
    Prop where
  spoken : ∀ last, last + 1 = first + stepCount →
    after.workspace.Spoken recurrence cacheIndex last
  diagnostics_eq : after.workspace.pinnedGenerationDiagnostics batchSlot =
    recurrence.batchDiagnostics first stepCount
  frames : after.workspace.SlotFrames recurrence batchSlot (first * 2) (stepCount * 2)
  keeps : trace.workspace.KeepsCodec after.workspace batchSlot
  decoderCalls_eq : trace.decoderCalls = recurrence.calls first →
    after.decoderCalls = recurrence.calls (first + stepCount)
  codecCalls_eq : after.codecCalls = trace.codecCalls

/-- The frames behind the steps of a batch. -/
theorem Generates.slotFrames {stepCount : ℕ}
    (h : Generates recurrence batchSlot cacheIndex first (List.range stepCount) trace after) :
    after.workspace.SlotFrames recurrence batchSlot (first * 2) (stepCount * 2) := by
  intro frame hframe codebook hcodebook
  have hstep : frame / 2 < (List.range stepCount).length := by
    rw [List.length_range]
    omega
  have hmem := recurrence.mem_slotSteps (List.range stepCount) first hstep
  rw [List.getElem_range] at hmem
  have hdistinct : ((recurrence.slotSteps first (List.range stepCount)).map Prod.fst).Nodup := by
    rw [recurrence.map_fst_slotSteps]
    refine List.Nodup.map (fun a b hab => ?_) List.nodup_range
    exact Nat.eq_of_mul_eq_mul_right (by decide) hab
  have hparity : frame % 2 < kLocalArFrames := Nat.mod_lt _ (by decide)
  have htoken := h.aggregated.apply_of_mem hdistinct hmem hcodebook hparity
  have hdiv : (first * 2 + frame) / kLocalArFrames = first + frame / 2 := by
    show (first * 2 + frame) / 2 = _
    omega
  have hmod : (first * 2 + frame) % kLocalArFrames = frame % 2 := by
    show (first * 2 + frame) % 2 = _
    omega
  rw [Nat.div_add_mod'] at htoken
  rw [htoken, Recurrence.codecFrame, hdiv, hmod]

/-- The record that is packed behind the steps of a batch. -/
theorem Generates.packedDiagnostics_eq {stepCount last : ℕ}
    (h : Generates recurrence batchSlot cacheIndex first (List.range stepCount) trace after)
    (hlast : last + 1 = first + stepCount) :
    after.workspace.packedDiagnostics stepCount cacheIndex =
      recurrence.batchDiagnostics first stepCount := by
  have hspoken := h.spoken last (by rw [hlast, List.length_range])
  rw [SessionWorkspace.packedDiagnostics, Recurrence.batchDiagnostics, hspoken.executionStatus_eq,
    ← hlast, Nat.add_sub_cancel]
  refine congrArg (GenerationBatchDiagnostics.mk _ _) ?_
  funext step
  by_cases hstep : step < stepCount
  · have hreports := h.reports step (by rwa [List.length_range])
    rw [List.getElem_range] at hreports
    rw [if_pos hstep, if_pos hstep, hreports.attended_eq, hreports.invalid_eq,
      hreports.invalidRows_eq, hreports.endFrameIndex_eq]
    rfl
  · rw [if_neg hstep, if_neg hstep]

/-- The commands that end a batch make the record of its steps. -/
theorem Generates.finish {stepCount : ℕ} (hpositive : 0 < stepCount)
    (h : Generates recurrence batchSlot cacheIndex first (List.range stepCount) trace after) :
    GeneratesBatch recurrence batchSlot cacheIndex first stepCount trace
      (after.executeAll recurrence.engines recurrence.arguments
        (finishCommands batchSlot stepCount cacheIndex)) := by
  obtain ⟨last, hlast⟩ : ∃ last, last + 1 = first + stepCount :=
    ⟨first + stepCount - 1, by omega⟩
  have hpacked := h.packedDiagnostics_eq hlast
  simp only [finishCommands, SessionTrace.executeAll_cons, SessionTrace.executeAll_nil,
    SessionTrace.execute, DeviceCommand.execute, DeviceCommand.decoderCall,
    DeviceCommand.codecCall, hpacked, Option.toList_none, List.append_nil, Function.update_self]
  refine
    { spoken := ?_, diagnostics_eq := Function.update_self _ _ _, frames := ?_, keeps := ?_
      decoderCalls_eq := ?_, codecCalls_eq := h.codecCalls_eq }
  · intro last' hlast'
    have hspoken := h.spoken last' (by rw [hlast', List.length_range])
    exact { hspoken with }
  · exact h.slotFrames
  · exact h.keeps.trans ⟨fun _ _ => rfl, fun slot hne => Function.update_of_ne hne _ _, rfl, rfl,
      rfl, rfl, rfl, rfl⟩
  · intro hcalls
    have hafter := h.decoderCalls_eq hcalls
    rwa [List.length_range] at hafter

/-- The wait of a slot that was used before touches nothing. -/
theorem SessionTrace.executeAll_waitCodesConsumed (trace : SessionTrace types)
    (engines : SessionEngines types) (arguments : PipelineArguments) (condition : Bool)
    (commands : List DeviceCommand) :
    trace.executeAll engines arguments
        ((if condition = true then [.waitCodesConsumed batchSlot] else []) ++ commands) =
      trace.executeAll engines arguments commands := by
  rw [executeAll_append]
  by_cases hcondition : condition = true
  · rw [if_pos hcondition]
    simp only [executeAll_cons, executeAll_nil, SessionTrace.execute, DeviceCommand.execute,
      DeviceCommand.decoderCall, DeviceCommand.codecCall, Option.toList_none, List.append_nil]
  · rw [if_neg hcondition, executeAll_nil]

/-- The first batch of a request. -/
theorem SessionWorkspace.Ready.generatesBatch {p : Pipeline}
    (hready : trace.workspace.Ready recurrence p.cacheIndex 0)
    (hcontract : rejectsContract recurrence.contract = false) (batchSlot : BatchSlot) :
    GeneratesBatch recurrence batchSlot (1 - p.cacheIndex) 0 2 trace
      (trace.executeAll recurrence.engines recurrence.arguments
        (p.firstFourCommands batchSlot)) := by
  have hfirst := hready.generates hcontract batchSlot
  have hpasses := (hfirst.spoken 0 rfl).generates hcontract batchSlot
    (by decide : ∀ stepSlot ∈ [1], stepSlot < 4) (by decide)
  have hboth := hfirst.append hpasses (List.singleton_disjoint.mpr (by decide))
  have hcommands : (([.advanceAlignment 0] ++ localCommands 0 batchSlot 0 true ++
      decoderCommands p.cacheIndex 1 ++ localCommands 1 batchSlot 2 true ++
      finishCommands batchSlot 2 (1 - p.cacheIndex)) : List DeviceCommand) =
        (.advanceAlignment 0 :: localCommands 0 batchSlot 0 true) ++
          passCommands batchSlot p.cacheIndex 1 [1] ++
          finishCommands batchSlot 2 (1 - p.cacheIndex) := rfl
  rw [firstFourCommands]
  simp only [List.append_assoc] at hcommands ⊢
  rw [SessionTrace.executeAll_waitCodesConsumed, hcommands, ← List.append_assoc,
    SessionTrace.executeAll_append, SessionTrace.executeAll_append]
  exact Generates.finish (show 0 < 2 by decide) hboth

/-- A steady batch. -/
theorem SessionWorkspace.Spoken.generatesBatch {p : Pipeline}
    (hspoken : trace.workspace.Spoken recurrence p.cacheIndex number)
    (hgenerated : p.generatedDecoderSteps = number + 1)
    (hcontract : rejectsContract recurrence.contract = false) (batchSlot : BatchSlot) :
    GeneratesBatch recurrence batchSlot p.cacheIndex (number + 1) 4 trace
      (trace.executeAll recurrence.engines recurrence.arguments
        (p.steadyCommands batchSlot)) := by
  have hpasses := hspoken.generates hcontract batchSlot
    (by decide : ∀ stepSlot ∈ [0, 1, 2, 3], stepSlot < 4) (by decide)
  have hcache : cacheBehind p.cacheIndex 4 = p.cacheIndex := by
    generalize p.cacheIndex = cacheIndex
    revert cacheIndex
    decide
  rw [steadyCommands, List.append_assoc, SessionTrace.executeAll_waitCodesConsumed, hgenerated,
    SessionTrace.executeAll_append]
  rw [List.length_cons, List.length_cons, List.length_cons, List.length_cons, List.length_nil,
    hcache] at hpasses
  exact Generates.finish (show 0 < 4 by decide) hpasses

end Batch

/-! ### The start of a request -/

section Start

theorem boundTensor_congr {β : Type} {count : ℕ} {buffer buffer' : ℕ → β}
    (h : ∀ index < count, buffer index = buffer' index) :
    boundTensor count buffer = boundTensor count buffer' :=
  List.map_congr_left fun index hindex => h index (List.mem_range.mp hindex)

theorem boundTensor_copyTo {β : Type} (values : List β) (buffer : ℕ → β) :
    boundTensor values.length (copyTo values buffer) = values := by
  unfold boundTensor
  refine List.ext_getElem (by rw [List.length_map, List.length_range]) fun index _ hindex => ?_
  rw [List.getElem_map, List.getElem_range, copyTo, List.getD_eq_getElem _ _ hindex]

/-- The recurrence of a request on a workspace that earlier requests used. -/
def SessionWorkspace.recurrence (self : SessionWorkspace types) (engines : SessionEngines types)
    (arguments : PipelineArguments) : Recurrence types where
  engines := engines
  arguments := arguments
  counters := self.alignmentCounters
  prior := self.alignmentPrior

variable {engines : SessionEngines types} {arguments : PipelineArguments}

/-- The commands in front of the first step. -/
def prefillCommands : List DeviceCommand :=
  [.initializeRequest, .runTextEncoder, .prepareCfgInputs, .runPrefill]

/-- They leave the workspace in front of the first step, whatever earlier requests left there, and
make the first calls. -/
theorem SessionTrace.ready_executeAll_prefillCommands (workspace : SessionWorkspace types) :
    ((SessionTrace.start workspace).executeAll engines arguments
      prefillCommands).workspace.Ready (workspace.recurrence engines arguments) 0 0 ∧
    ((SessionTrace.start workspace).executeAll engines arguments prefillCommands).decoderCalls =
      (workspace.recurrence engines arguments).calls 0 := by
  have hids := boundTensor_copyTo arguments.textTokenIds workspace.textTokenIds
  have hmask := boundTensor_copyTo (List.replicate arguments.textTokenIds.length true)
    workspace.textMask
  rw [List.length_replicate] at hmask
  have hcondition : boundTensor (arguments.textTokenIds.length * 2) (fun index =>
      if index < arguments.textTokenIds.length * 2 then
        conditionMaskElement arguments.textTokenIds.length
          (copyTo (List.replicate arguments.textTokenIds.length true) workspace.textMask) index
      else workspace.conditionMask index) =
        boundTensor (arguments.textTokenIds.length * 2)
          (conditionMaskElement arguments.textTokenIds.length fun _ => true) := by
    refine boundTensor_congr fun index hindex => ?_
    rw [if_pos hindex, conditionMaskElement, conditionMaskElement]
    by_cases htext : index < arguments.textTokenIds.length
    · rw [if_pos htext, if_pos htext, copyTo, List.getD_eq_getElem _ _ (by
        rwa [List.length_replicate]), List.getElem_replicate]
    · rw [if_neg htext, if_neg htext]
  have hcfg (textCondition : ℕ → types.Element) :
      boundTensor (arguments.textTokenIds.length * kModelWidth * 2) (fun index =>
        if index < arguments.textTokenIds.length * kModelWidth * 2 then
          cfgConditionElement arguments.textTokenIds.length textCondition index
        else workspace.cfgCondition index) =
          boundTensor (arguments.textTokenIds.length * kModelWidth * 2)
            (cfgConditionElement arguments.textTokenIds.length textCondition) :=
    boundTensor_congr fun index hindex => if_pos hindex
  simp only [prefillCommands, SessionTrace.executeAll_cons, SessionTrace.executeAll_nil,
    SessionTrace.execute, SessionTrace.start, DeviceCommand.execute, DeviceCommand.decoderCall,
    hids, hmask, hcondition, hcfg]
  refine ⟨?_, rfl⟩
  exact
    { conditionMask_eq := hcondition
      crossCaches_eq := rfl
      rngSeed_eq := rfl
      decoderHidden_eq := rfl
      alignmentScores_eq := rfl
      executionStatus_eq := rfl
      selfCaches_eq := by
        show Function.update workspace.selfCaches 0 _ 0 = _
        rw [Function.update_self]
        rfl
      counters_eq := rfl
      lastAttended_eq := rfl
      prior_eq := rfl
      rngCounter_eq := rfl
      generationFinished_eq := rfl
      decoderPosition_eq := (Int.add_zero _).symm }

/-- The first step of the worker, with the prefill and the first batch. -/
theorem SessionTrace.generatesBatch_startCommands (workspace : SessionWorkspace types)
    (hcontract : rejectsContract (arguments.manifest.alignment.kernelContract
      arguments.textTokenIds.length) = false) :
    GeneratesBatch (workspace.recurrence engines arguments) 0 1 0 2
      ((SessionTrace.start workspace).executeAll engines arguments prefillCommands)
      ((SessionTrace.start workspace).executeAll engines arguments startCommands) := by
  have hready := (@SessionTrace.ready_executeAll_prefillCommands _ engines arguments workspace).1
  rw [startCommands, SessionTrace.executeAll_append]
  exact SessionWorkspace.Ready.generatesBatch (p := Pipeline.initial) hready hcontract 0

end Start

end MagpieTts.Runtime
