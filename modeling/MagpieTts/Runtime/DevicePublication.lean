import MagpieTts.Export.NanoCodec
import MagpieTts.Runtime.DeviceStreams

/-!
# What a request makes of its recurrence

The results of the last modules for whole runs, with the recurrence of the request in place of the
buffers: the calls of the engines, the frames that a completed request has decoded, and what a
consumer reads.

## Main definitions

* `Recurrence.EndsAt`: the first step with an end of speech, and the frames in front of it.
* `Recurrence.requestCalls`: the calls of the codec on a number of frames.
* `Recurrence.streamPcm`: the samples of a stream of chunks.

## Main results

* `engineCalls_run`: the calls of the decoder engines are those of the recurrence.
* `heldAudio_run`: the held chunks show their samples.
* `codecCalls_completed`: the calls of the codec on a completed request.
-/

namespace MagpieTts.Runtime

open MagpieTts.Library MagpieTts.Plugins Pipeline

variable {types : SessionTypes}

/-! ### The end of speech -/

/-- The recurrence ends with the step `terminal`, behind `frames` frames. -/
def Recurrence.EndsAt (recurrence : Recurrence types) (terminal frames : ℕ) : Prop :=
  (∀ number < terminal, (recurrence.step number).outputs.endFrameIndex < 0) ∧
    ∃ endFrameIndex : ℕ, (recurrence.step terminal).outputs.endFrameIndex = endFrameIndex ∧
      frames = 2 * terminal + endFrameIndex

/-- The frames that the entries of the recurrence retain. -/
theorem Recurrence.endsAt_retainedFrames (recurrence : Recurrence types) {count : ℕ}
    (hended : reportsEos ((List.range count).map recurrence.diagnostics) = true) :
    ∃ terminal < count, recurrence.EndsAt terminal
      (retainedFrames ((List.range count).map recurrence.diagnostics)) := by
  induction count with
  | zero => cases hended
  | succ count ih =>
    rw [List.range_succ, List.map_append, List.map_singleton] at hended ⊢
    by_cases hearlier : reportsEos ((List.range count).map recurrence.diagnostics) = true
    · obtain ⟨terminal, hlt, hends⟩ := ih hearlier
      rw [retainedFrames_append_of hearlier]
      exact ⟨terminal, Nat.lt_succ_of_lt hlt, hends⟩
    · rw [Bool.not_eq_true] at hearlier
      rw [reportsEos_append, hearlier, Bool.false_or, reportsEos, List.any_cons, List.any_nil,
        Bool.or_false, decide_eq_true_iff] at hended
      refine ⟨count, Nat.lt_succ_self count, fun number hnumber => ?_, ?_⟩
      · rw [reportsEos, List.any_eq_false] at hearlier
        have hnot := hearlier (recurrence.diagnostics number)
          (List.mem_map_of_mem (List.mem_range.mpr hnumber))
        rw [decide_eq_true_iff, not_le] at hnot
        exact hnot
      · obtain ⟨endFrameIndex, hindex⟩ := Int.eq_ofNat_of_zero_le hended
        refine ⟨endFrameIndex, hindex, ?_⟩
        rw [retainedFrames_append_of_not hearlier, List.length_map, List.length_range,
          retainedFrames, if_pos hended, hindex, Int.toNat_natCast]

theorem Recurrence.EndsAt.eq {recurrence : Recurrence types} {terminal frames other more : ℕ}
    (h : recurrence.EndsAt terminal frames) (hother : recurrence.EndsAt other more) :
    frames = more := by
  obtain ⟨hearlier, endFrameIndex, hindex, rfl⟩ := h
  obtain ⟨hearlier', endFrameIndex', hindex', rfl⟩ := hother
  obtain rfl : terminal = other := by
    rcases Nat.lt_trichotomy terminal other with hlt | heq | hgt
    · have := hearlier' terminal hlt
      omega
    · exact heq
    · have := hearlier other hgt
      omega
  omega

/-- No entries of the recurrence retain more than the frames in front of its end of speech. -/
theorem Recurrence.EndsAt.retainedFrames_le {recurrence : Recurrence types} {terminal frames : ℕ}
    (h : recurrence.EndsAt terminal frames) (count : ℕ) :
    retainedFrames ((List.range count).map recurrence.diagnostics) ≤ frames := by
  by_cases hended : reportsEos ((List.range count).map recurrence.diagnostics) = true
  · obtain ⟨other, -, hother⟩ := recurrence.endsAt_retainedFrames hended
    exact (hother.eq h).le
  · rw [Bool.not_eq_true] at hended
    obtain ⟨-, endFrameIndex, hindex, rfl⟩ := h
    have hle : count ≤ terminal := by
      by_contra hlt
      rw [reportsEos, List.any_eq_false] at hended
      refine hended (recurrence.diagnostics terminal)
        (List.mem_map_of_mem (List.mem_range.mpr (not_le.mp hlt))) (decide_eq_true ?_)
      show 0 ≤ (recurrence.step terminal).outputs.endFrameIndex
      rw [hindex]
      exact Int.natCast_nonneg endFrameIndex
    rw [retainedFrames_of_not hended, List.length_map, List.length_range]
    omega

/-! ### The calls of the codec -/

/-- The calls of the codec on `frames` frames: the initial engine on four of them, the steady one on
each eight behind them, and the tail engine on what is left, if anything is. -/
def Recurrence.requestCalls (recurrence : Recurrence types) (frames : ℕ) : List (CodecCall types) :=
  let steady := (frames - 4) / 8
  let tail := (frames - 4) % 8
  recurrence.chunkCall 0 4 false ::
    ((List.range steady).map fun number => recurrence.chunkCall (number + 1) 8 false) ++
      if tail = 0 then [] else [recurrence.chunkCall (steady + 1) tail true]

/-- The samples of a stream of chunks from a number on. -/
def Recurrence.streamPcm (recurrence : Recurrence types) :
    ℕ → List AudioChunk → List types.Sample
  | _, [] => []
  | number, chunk :: rest =>
    recurrence.chunkPcm number chunk.codecFrameCount chunk.final ++
      streamPcm recurrence (number + 1) rest

section Stream

variable {recurrence : Recurrence types} {accepted : List AudioChunk}

/-- The calls on open chunks behind the first one. -/
theorem Recurrence.streamCalls_of_open (recurrence : Recurrence types) {chunks : List AudioChunk}
    (hopen : ∀ chunk ∈ chunks, chunk.final = false)
    (hframes : ∀ chunk ∈ chunks, chunk.codecFrameCount = 8) (number : ℕ) :
    recurrence.streamCalls number chunks =
      (List.range chunks.length).map fun k => recurrence.chunkCall (number + k) 8 false := by
  induction chunks generalizing number with
  | nil => rfl
  | cons chunk rest ih =>
    rw [streamCalls, hframes chunk List.mem_cons_self, hopen chunk List.mem_cons_self,
      ih (fun other hmem => hopen other (List.mem_cons_of_mem _ hmem))
        (fun other hmem => hframes other (List.mem_cons_of_mem _ hmem)),
      List.length_cons, List.range_succ_eq_map, List.map_cons, List.map_map]
    refine congrArg (_ :: ·) (List.map_congr_left fun k _ => ?_)
    rw [Function.comp_apply, Nat.succ_eq_add_one, Nat.add_assoc, Nat.add_comm 1]

/-- A complete stream has a first chunk of four frames, open chunks of eight frames and a final
chunk; or it is its first chunk. -/
theorem StreamComplete.shape {steps : List GenerationStepDiagnostics}
    (hcomplete : StreamComplete accepted steps)
    (hcontiguous : ∀ k chunk, accepted[k]? = some chunk →
      RequestHistory.ContinuesStream accepted k chunk) :
    (∃ last, accepted = [last] ∧ last.codecFrameCount = 4) ∨
      ∃ first middle last, accepted = first :: middle ++ [last] ∧ first.codecFrameCount = 4 ∧
        first.final = false ∧ (∀ chunk ∈ middle, chunk.final = false) ∧
        (∀ chunk ∈ middle, chunk.codecFrameCount = 8) ∧ last.final = true := by
  obtain ⟨earlier, last, rfl, hlast, hopen⟩ := hcomplete.last
  cases earlier with
  | nil => exact Or.inl ⟨last, rfl, (hcontiguous 0 last rfl).first_frames rfl⟩
  | cons first middle =>
    have hmiddle : ∀ chunk ∈ middle, chunk.final = false :=
      fun chunk hmem => hopen chunk (List.mem_cons_of_mem _ hmem)
    refine Or.inr ⟨first, middle, last, rfl, (hcontiguous 0 first rfl).first_frames rfl,
      hopen first List.mem_cons_self, hmiddle, fun chunk hmem => ?_, hlast⟩
    obtain ⟨k, hk, rfl⟩ := List.mem_iff_getElem.mp hmem
    refine (hcontiguous (k + 1) middle[k] ?_).steady_frames (Nat.succ_pos k) (hmiddle _ hmem)
    rw [List.cons_append, List.getElem?_cons_succ, List.getElem?_append_left hk,
      List.getElem?_eq_getElem hk]

/-- The calls on a complete stream depend on its frames alone. -/
theorem streamCalls_of_complete {steps : List GenerationStepDiagnostics}
    (hcomplete : StreamComplete accepted steps)
    (hcontiguous : ∀ k chunk, accepted[k]? = some chunk →
      RequestHistory.ContinuesStream accepted k chunk)
    (htail : ∀ chunk ∈ accepted, chunk.final = true → chunk.codecFrameCount ≤ 7) :
    recurrence.streamCalls 0 accepted = recurrence.requestCalls (retainedFrames steps) := by
  rw [← hcomplete.frames_eq]
  rcases hcomplete.shape hcontiguous with ⟨last, rfl, hframes⟩ |
    ⟨first, middle, last, rfl, hfirst, hfirstOpen, hopen, hmiddle, hlast⟩
  · rw [publishedFrames, List.map_singleton, List.sum_singleton, hframes]
    simp only [Recurrence.streamCalls, hframes]
    rfl
  · have hlastLe := htail last (List.mem_append_right _ (List.mem_singleton.mpr rfl)) hlast
    have hpublished : publishedFrames (first :: middle ++ [last]) =
        4 + 8 * middle.length + last.codecFrameCount := by
      have := publishedFrames_of_forall_eq hmiddle
      simp only [publishedFrames, List.map_append, List.map_cons, List.map_nil, List.sum_append,
        List.sum_cons, List.sum_nil] at this ⊢
      omega
    have hquotient : (publishedFrames (first :: middle ++ [last]) - 4) / 8 = middle.length := by
      omega
    have hremainder : (publishedFrames (first :: middle ++ [last]) - 4) % 8 =
        last.codecFrameCount := by
      omega
    rw [Recurrence.requestCalls, hquotient, hremainder, recurrence.streamCalls_concat,
      Recurrence.streamCalls, hfirst, hfirstOpen, recurrence.streamCalls_of_open hopen hmiddle,
      hlast, List.length_cons, Nat.zero_add, if_neg (by decide), List.singleton_append]
    have hnumbers : (fun k => recurrence.chunkCall (1 + k) 8 false) =
        fun number => recurrence.chunkCall (number + 1) 8 false :=
      funext fun k => by rw [Nat.add_comm]
    rw [hnumbers, Nat.zero_add]

end Stream

/-! ### A short utterance -/

/-- Engines on tensors of one value each. The states of the codec are buffers of samples. -/
abbrev briefTypes : SessionTypes where
  Element := Unit
  zero := ()
  AttentionScore := ℕ
  order := inferInstance
  Hidden := Unit
  SelfCaches := Unit
  CrossCaches := Unit
  CodecStates := Export.StateName → ℕ → Export.Step ℚ
  Sample := ℚ
  isfinite := fun _ => true

/-- A codec that counts the tokens of its calls, and adds the count to the samples. -/
def briefCodec (codecTokens : List ℤ) (states : briefTypes.CodecStates) :
    CodecOutputs briefTypes where
  pcm := fun index => (codecTokens.getD index 0 : ℤ) + states .preConvHistory 0 0
  validSampleLength := codecTokens.length * 128
  states := fun name sample channel => states name sample channel + codecTokens.length

/-- The end of speech is reported by the eighth step. -/
def briefEngines : SessionEngines briefTypes where
  textEncoder := fun _ _ _ => ()
  mainDecoderPrefill := fun _ _ => ⟨(), fun _ => .finite (0 : ℕ), (), ()⟩
  mainDecoderStep := fun _ => ⟨(), fun _ => .finite (0 : ℕ), 0, ()⟩
  localAr := fun inputs =>
    { codecTokens := fun index => index
      updatedRngCounter := inputs.rngCounter + 1
      invalidRows := 0
      endFrameIndex := if inputs.forbidEos then -1 else if inputs.rngCounter < 7 then -1 else 0 }
  nanocodecInitial := fun codecTokens => briefCodec codecTokens fun _ _ _ => 0
  nanocodecSteady := briefCodec
  nanocodecTail := briefCodec

/-- A workspace that holds zeros. -/
def clearedWorkspace : SessionWorkspace briefTypes where
  textTokenIds := fun _ => 0
  textMask := fun _ => false
  textCondition := fun _ => ()
  cfgCondition := fun _ => ()
  conditionMask := fun _ => false
  alignmentScores := fun _ => .finite (0 : ℕ)
  alignmentCounters := fun _ => 0
  lastAttended := 0
  alignmentPrior := fun _ => .one
  attendedTokenIndex := fun _ => 0
  unfinishedText := fun _ => false
  alignmentInvalid := fun _ => 0
  decoderHidden := ()
  decoderPosition := 0
  mainDecoderExecutionStatus := fun _ => 0
  selfCaches := fun _ => ()
  crossCaches := ()
  forbidEos := false
  generationFinished := false
  rngSeed := 0
  rngCounter := 0
  updatedRngCounter := 0
  localCodecTokens := fun _ => 0
  canonicalLocalInvalidRows := 0
  canonicalLocalEndFrameIndex := 0
  localInvalidRows := fun _ => 0
  localEndFrameIndex := fun _ => 0
  aggregateCodecTokens := fun _ _ => 0
  generationDiagnostics := fun _ => ⟨0, 0, fun _ => .unused⟩
  pinnedGenerationDiagnostics := fun _ => ⟨0, 0, fun _ => .unused⟩
  codecInputTokens := fun _ => 0
  codecStates := fun _ _ _ _ => 0
  codecPcm := fun _ => 0
  codecValidSampleLength := 0
  pinnedValidSampleLength := 0
  pinnedPcm := fun _ => 0

/-- The runs of `tenTokenRequest` on the brief engines. -/
def briefRun (actions : List DeviceAction) : DeviceRun briefTypes :=
  run (DeviceRun.step briefEngines tenTokenArguments) (.start tenTokenRequest ⟨1⟩ clearedWorkspace)
    actions

/-- The recurrence of `briefRun`. -/
def briefRecurrence : Recurrence briefTypes :=
  clearedWorkspace.recurrence briefEngines tenTokenArguments

/-- A run up to the lease of its second chunk, whose samples are where those of the first were. -/
def leasingActions : List DeviceAction :=
  List.replicate 9 .worker ++ .consumer .acquireAudio :: .consumer (.releaseAudio 1) ::
    List.replicate 11 .worker ++ [.consumer .acquireAudio]

/-- A run that completes, with three calls of the codec. -/
def completingActions : List DeviceAction :=
  leasingActions ++ .consumer (.releaseAudio 2) :: List.replicate 9 .worker

theorem briefRun_completingActions :
    (briefRun completingActions).observation.run.history.request.state = .completed ∧
      (briefRun completingActions).trace.codecCalls.length = 3 ∧
      (briefRun completingActions).trace.decoderCalls.length = 21 := by
  decide +kernel

theorem reported_leasingActions : ∀ action ∈ leasingActions, action.Reported := by
  simp [leasingActions, DeviceAction.Reported]

theorem reported_completingActions : ∀ action ∈ completingActions, action.Reported := by
  simp [completingActions, leasingActions, DeviceAction.Reported]

/-! ### Whole runs -/

namespace DeviceRun

/-- The worker and its consumer take the steps of a run without a workspace. -/
theorem exists_actions (engines : SessionEngines types) (arguments : PipelineArguments)
    (self : DeviceRun types) {actions : List DeviceAction}
    (hreported : ∀ action ∈ actions, action.Reported) :
    ∃ synthesisActions : List SynthesisAction, (∀ action ∈ synthesisActions, action.Reported) ∧
      (run (step engines arguments) self actions).observation =
        run (SynthesisObservation.step arguments) self.observation synthesisActions := by
  induction actions generalizing self with
  | nil => exact ⟨[], fun action hmem => absurd hmem List.not_mem_nil, rfl⟩
  | cons action rest ih =>
    obtain ⟨synthesisActions, hrest, hrun⟩ := ih (self.step engines arguments action)
      fun other hmem => hreported other (List.mem_cons_of_mem _ hmem)
    refine ⟨self.action action :: synthesisActions, fun other hmem => ?_, hrun⟩
    rcases List.mem_cons.mp hmem with rfl | hmem
    · exact (hreported action List.mem_cons_self).action self
    · exact hrest other hmem

end DeviceRun

section Runs

variable {engines : SessionEngines types} {arguments : PipelineArguments}
  {request : StreamingRequestState}

/-- A text for which the controller has a window: its last three tokens are no content. -/
theorem rejectsContract_eq_false (hmanifest : arguments.manifest = acceptedManifest)
    (hlow : 4 ≤ arguments.textTokenIds.length) (hhigh : arguments.textTokenIds.length ≤ 512) :
    rejectsContract (arguments.manifest.alignment.kernelContract
      arguments.textTokenIds.length) = false := by
  rw [rejectsContract_eq_false_iff, hmanifest]
  refine ⟨?_, hhigh, ?_, ?_, ?_⟩
  · exact Nat.lt_of_lt_of_le (show 0 < 4 by decide) hlow
  · exact Nat.lt_of_lt_of_le (show 3 < 4 by decide) hlow
  · exact show 0 < 6 by decide
  · exact show 0 < 4 by decide

/-- The final chunk of a run has at most seven frames. -/
theorem finalChunk_le (hmanifest : arguments.manifest = acceptedManifest)
    (hrequest : StreamingRequestState.construct arguments.textTokenIds.length
      arguments.manifest.limits.pcmRingCapacityFrames = .ok request) (leaseIds : LeaseIdSequence)
    {actions : List SynthesisAction} (hreported : ∀ action ∈ actions, action.Reported) :
    ∀ chunk ∈ (run (SynthesisObservation.step arguments) (.start request leaseIds)
      actions).run.history.accepted, chunk.final = true → chunk.codecFrameCount ≤ 7 := by
  have hinv := executesStream_run hmanifest exceptionKind_reported hrequest leaseIds actions
    (stepsMeet_of_forall_mem fun self action hmem =>
      (hreported action hmem).blames self.observation)
  have htail := hinv.executes.tail_le
  rw [CodecObservation.run_observation] at htail
  exact htail

/-- A completed request has published the frames in front of the end of speech. -/
theorem DeviceInvariant.endsAt_of_completed {recurrence : Recurrence types}
    {workspace : SessionWorkspace types} {device : DeviceRun types}
    (hinv : DeviceInvariant recurrence workspace device)
    (hcompleted : device.observation.run.history.request.state = .completed) :
    ∃ terminal < 250, recurrence.EndsAt terminal
      (publishedFrames device.observation.run.history.accepted) := by
  have hcomplete := (hinv.run.publishesStream exceptionKind_reported).complete hcompleted
  have hsteps := hinv.follows.steps_eq
  have hended := hcomplete.reportsEos_eq
  rw [hsteps] at hended
  obtain ⟨terminal, hterminal, hends⟩ := Recurrence.endsAt_retainedFrames _ hended
  rw [← hsteps, ← hcomplete.frames_eq] at hends
  obtain ⟨h, hworker, -⟩ := hinv.run
  exact ⟨terminal, hterminal.trans_le hworker.stream.steps_le, hends⟩

/-- No more frames are published than lie in front of the end of speech. -/
theorem DeviceInvariant.publishedFrames_le {recurrence : Recurrence types}
    {workspace : SessionWorkspace types} {device : DeviceRun types}
    (hinv : DeviceInvariant recurrence workspace device) {terminal frames : ℕ}
    (hends : recurrence.EndsAt terminal frames) :
    publishedFrames device.observation.run.history.accepted ≤ frames := by
  have hretained := hends.retainedFrames_le device.observation.steps.length
  rw [← hinv.follows.steps_eq] at hretained
  obtain ⟨h, hworker, hhistory⟩ := hinv.run
  have hpublished := hworker.stream.frames_le.trans hretained
  rcases hhistory with hhistory | ⟨-, lead, hhistory⟩
  · rw [hhistory]
    exact hpublished
  · rw [hhistory]
    exact hpublished

/-- **The engines compute the recurrence.** In every state of every run, on every workspace, the
calls of the Text Encoder, of the Main Decoder's prefill and step and of the Local AR engine are the
first calls of the recurrence, in its order and with its inputs, at most 250 steps of them; and the
entries that the worker has read are those of its first steps. -/
theorem engineCalls_run (hmanifest : arguments.manifest = acceptedManifest)
    (hlow : 4 ≤ arguments.textTokenIds.length) (hhigh : arguments.textTokenIds.length ≤ 512)
    (hrequest : StreamingRequestState.construct arguments.textTokenIds.length
      arguments.manifest.limits.pcmRingCapacityFrames = .ok request) (leaseIds : LeaseIdSequence)
    (workspace : SessionWorkspace types) {actions : List DeviceAction}
    (hreported : ∀ action ∈ actions, action.Reported) {device : DeviceRun types}
    (hrun : run (DeviceRun.step engines arguments) (.start request leaseIds workspace) actions =
      device) :
    (∃ number ≤ 250, device.trace.decoderCalls <+:
        (workspace.recurrence engines arguments).calls number) ∧
      device.observation.steps = (List.range device.observation.steps.length).map
        (workspace.recurrence engines arguments).diagnostics := by
  have hinv := deviceInvariant_run engines hmanifest
    (rejectsContract_eq_false hmanifest hlow hhigh) hrequest leaseIds workspace actions hreported
  rw [hrun] at hinv
  refine ⟨hinv.follows.exists_calls fun hworks => ?_, hinv.follows.steps_eq⟩
  obtain ⟨h, hworker, -⟩ := hinv.run
  exact hworker.point.generated_le hworks

theorem engineCalls_run_brief :
    (briefRun completingActions).trace.decoderCalls.length = 21 ∧
      ∃ number ≤ 250, (briefRun completingActions).trace.decoderCalls <+:
        briefRecurrence.calls number :=
  ⟨briefRun_completingActions.2.2,
    (engineCalls_run rfl (by decide) (by decide) rfl ⟨1⟩ clearedWorkspace
    reported_completingActions rfl).1⟩

/-- **What a consumer reads.** In every state of every run, the pinned samples begin with those of
every chunk with frames that is queued or leased: what the codec computes from its frames of the
recurrence, behind the chunks before it. -/
theorem heldAudio_run (hmanifest : arguments.manifest = acceptedManifest)
    (hlow : 4 ≤ arguments.textTokenIds.length) (hhigh : arguments.textTokenIds.length ≤ 512)
    (hrequest : StreamingRequestState.construct arguments.textTokenIds.length
      arguments.manifest.limits.pcmRingCapacityFrames = .ok request) (leaseIds : LeaseIdSequence)
    (workspace : SessionWorkspace types) {actions : List DeviceAction}
    (hreported : ∀ action ∈ actions, action.Reported) {device : DeviceRun types}
    (hrun : run (DeviceRun.step engines arguments) (.start request leaseIds workspace) actions =
      device) {chunk : AudioChunk}
    (hheld : chunk ∈ device.observation.run.history.request.heldAudio)
    (hframes : 0 < chunk.codecFrameCount) :
    boundTensor chunk.samples.sampleCount device.trace.workspace.pinnedPcm =
      (workspace.recurrence engines arguments).chunkPcm chunk.sequence chunk.codecFrameCount
        chunk.final := by
  have hinv := deviceInvariant_run engines hmanifest
    (rejectsContract_eq_false hmanifest hlow hhigh) hrequest leaseIds workspace actions hreported
  rw [hrun] at hinv
  exact hinv.shows chunk hheld hframes

theorem heldAudio_run_brief :
    ∃ chunk ∈ (briefRun leasingActions).observation.run.history.request.heldAudio,
      chunk.sequence = 1 ∧
        boundTensor chunk.samples.sampleCount
            (briefRun leasingActions).trace.workspace.pinnedPcm =
          briefRecurrence.chunkPcm chunk.sequence chunk.codecFrameCount chunk.final := by
  obtain ⟨chunk, hheld, hsequence, hframes⟩ :
      ∃ chunk ∈ (briefRun leasingActions).observation.run.history.request.heldAudio,
        chunk.sequence = 1 ∧ 0 < chunk.codecFrameCount := by
    decide +kernel
  have hrun : run (DeviceRun.step briefEngines tenTokenArguments)
      (.start tenTokenRequest ⟨1⟩ clearedWorkspace) leasingActions = briefRun leasingActions := rfl
  exact ⟨chunk, hheld, hsequence, heldAudio_run rfl (by decide) (by decide) rfl ⟨1⟩
    clearedWorkspace reported_leasingActions hrun hheld hframes⟩

/-- **The codec of a completed request.** The codec runs on the frames in front of the first end of
speech of the recurrence and on nothing else, once on every accepted chunk with frames and each time
with the states of the call before; the accepted chunks have these frames; and no step behind the
end of speech changes that. -/
theorem codecCalls_completed (hmanifest : arguments.manifest = acceptedManifest)
    (hlow : 4 ≤ arguments.textTokenIds.length) (hhigh : arguments.textTokenIds.length ≤ 512)
    (hrequest : StreamingRequestState.construct arguments.textTokenIds.length
      arguments.manifest.limits.pcmRingCapacityFrames = .ok request) (leaseIds : LeaseIdSequence)
    (workspace : SessionWorkspace types) {actions : List DeviceAction}
    (hreported : ∀ action ∈ actions, action.Reported) {device : DeviceRun types}
    (hrun : run (DeviceRun.step engines arguments) (.start request leaseIds workspace) actions =
      device) (hcompleted : device.observation.run.history.request.state = .completed) :
    ∃ terminal frames, (workspace.recurrence engines arguments).EndsAt terminal frames ∧
      terminal < 250 ∧
      device.trace.codecCalls = (workspace.recurrence engines arguments).requestCalls frames ∧
      device.trace.codecCalls = (workspace.recurrence engines arguments).streamCalls 0
        device.observation.run.history.accepted ∧
      publishedFrames device.observation.run.history.accepted = frames := by
  have hinv := deviceInvariant_run engines hmanifest
    (rejectsContract_eq_false hmanifest hlow hhigh) hrequest leaseIds workspace actions hreported
  obtain ⟨synthesisActions, hsynthesis, hobservation⟩ := DeviceRun.exists_actions engines arguments
    (.start request leaseIds workspace) hreported
  have htail := finalChunk_le hmanifest hrequest leaseIds hsynthesis
  rw [hrun] at hinv hobservation
  rw [show (DeviceRun.start request leaseIds workspace).observation = .start request leaseIds from
    rfl] at hobservation
  rw [← hobservation] at htail
  have hpublishes := hinv.run.publishesStream exceptionKind_reported
  have hcomplete := hpublishes.complete hcompleted
  obtain ⟨terminal, hterminal, hends⟩ := hinv.endsAt_of_completed hcompleted
  -- a worker in `run_impl` has an open request
  have hstopped : ¬ device.observation.run.worker.point.Works := by
    intro hworks
    obtain ⟨h, hworker, hhistory⟩ := hinv.run
    have hrunning := hworker.point.running hworks
    have hsame : device.observation.run.history.request.state = h.request.state := by
      rcases hhistory with hhistory | ⟨-, lead, hhistory⟩
      · rw [hhistory]
      · rw [hhistory]
        rfl
    rw [hsame, hrunning] at hcompleted
    cases hcompleted
  have hcalls : device.trace.codecCalls = (workspace.recurrence engines arguments).streamCalls 0
      device.observation.run.history.accepted := by
    obtain ⟨earlier, last, haccepted, hlast, -⟩ := hcomplete.last
    refine hinv.follows.settled hstopped ⟨last, ?_, hlast⟩
    rw [haccepted]
    exact List.mem_append_right _ (List.mem_singleton.mpr rfl)
  refine ⟨terminal, _, hends, hterminal, ?_, hcalls, rfl⟩
  rw [hcomplete.frames_eq, ← streamCalls_of_complete hcomplete hpublishes.contiguous htail]
  exact hcalls

theorem codecCalls_completed_brief :
    (briefRun completingActions).trace.codecCalls.length = 3 ∧
      ∃ terminal frames, briefRecurrence.EndsAt terminal frames ∧ terminal < 250 ∧
        (briefRun completingActions).trace.codecCalls = briefRecurrence.requestCalls frames ∧
        (briefRun completingActions).trace.codecCalls = briefRecurrence.streamCalls 0
          (briefRun completingActions).observation.run.history.accepted ∧
        publishedFrames (briefRun completingActions).observation.run.history.accepted = frames :=
  ⟨briefRun_completingActions.2.1, codecCalls_completed rfl (by decide) (by decide) rfl ⟨1⟩
    clearedWorkspace reported_completingActions rfl briefRun_completingActions.1⟩

end Runs

end MagpieTts.Runtime
