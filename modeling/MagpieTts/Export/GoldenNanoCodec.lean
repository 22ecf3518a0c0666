import MagpieTts.Library.ExceptRules
import MagpieTts.Runtime.CodecExecutions

/-!
# The codec routes of the golden

The exporter decodes the codes of a captured generation with the plans of the NanoCodec and hashes
the samples into the startup golden. The capture cuts the codes into chunks of four, then eight
frames, and a rest; `execute_golden_nanocodec` chooses the plan of a chunk by its place in this
schedule. Here the plans are compared with those of a request that retains the same frames.

What the plans compute, and the comparison of the samples with the fixture, are left out.

## Main definitions

* `captureFrameCounts`, `loadFrameSchedule`: the schedule of a capture.
* `executeGoldenNanocodec`, `goldenCodecExecutions`: the executions of the exporter.

## Main results

* `goldenCodecExecutions_eq`: the executions of the exporter.
* `goldenCodecExecutions_eq_iff`: when they are those of a request.
-/

namespace MagpieTts.Export

open MagpieTts.Library MagpieTts.Runtime

/-! ### The schedule of a capture -/

def INITIAL_FRAMES : ℕ := 4

def STEADY_FRAMES : ℕ := 8

def TAIL_MIN_FRAMES : ℕ := 1

def TAIL_MAX_FRAMES : ℕ := 8

/-- The loop behind the first chunk. -/
def remainingFrameCounts (remaining : ℕ) : List ℕ :=
  if _ : remaining = 0 then []
  else
    min 8 remaining :: remainingFrameCounts (remaining - min 8 remaining)
termination_by remaining
decreasing_by omega

/-- The frame counts that the capture writes for a generation of `validFrames` frames. -/
def captureFrameCounts (validFrames : ℕ) : Except String (List ℕ) :=
  if validFrames < 4 then
    .error ("generation produced fewer than four frames: " ++ toString validFrames)
  else
    .ok (min 4 validFrames :: remainingFrameCounts (validFrames - min 4 validFrames))

/-- The checks of a fixture on its schedule. -/
def loadFrameSchedule (schedule : List ℕ) : Except String (List ℕ) :=
  if schedule.length < 2 ∨ ∃ frameCount ∈ schedule,
      frameCount < TAIL_MIN_FRAMES ∨ TAIL_MAX_FRAMES < frameCount then
    .error "boundary fixture codec schedule is invalid"
  else if schedule.head? ≠ some INITIAL_FRAMES then
    .error ("boundary fixture first codec chunk must be " ++ toString INITIAL_FRAMES)
  else if ∃ frameCount ∈ schedule.tail.dropLast, frameCount ≠ STEADY_FRAMES then
    .error "boundary fixture has a non-terminal partial steady codec chunk"
  else
    .ok schedule

/-! ### The executions of the exporter -/

/-- The plan of a chunk, by its place `sequence` among `length` chunks. -/
def goldenExecution (length sequence frameCount : ℕ) : Except String CodecExecution :=
  if sequence = 0 then
    if frameCount ≠ INITIAL_FRAMES then
      .error "golden schedule does not start with four frames"
    else
      .ok ⟨.initial, frameCount⟩
  else if sequence = length - 1 then
    if frameCount < TAIL_MIN_FRAMES ∨ TAIL_MAX_FRAMES < frameCount then
      .error "golden terminal chunk is outside tail profile"
    else
      .ok ⟨.tail, frameCount⟩
  else if frameCount ≠ STEADY_FRAMES then
    .error "golden steady chunk is not eight frames"
  else
    .ok ⟨.steady, frameCount⟩

/-- The loop of `execute_golden_nanocodec` over a schedule. -/
def executeGoldenNanocodec (schedule : List ℕ) : Except String (List CodecExecution) :=
  schedule.zipIdx.mapM fun (frameCount, sequence) =>
    goldenExecution schedule.length sequence frameCount

/-- The executions behind the golden of a generation of `validFrames` frames. -/
def goldenCodecExecutions (validFrames : ℕ) : Except String (List CodecExecution) := do
  let frameCounts ← captureFrameCounts validFrames
  let schedule ← loadFrameSchedule frameCounts
  executeGoldenNanocodec schedule

/-! ### The schedule in closed form -/

theorem remainingFrameCounts_eq (whole rest : ℕ) (hpos : 0 < rest) (hle : rest ≤ 8) :
    remainingFrameCounts (8 * whole + rest) = List.replicate whole 8 ++ [rest] := by
  induction whole with
  | zero =>
    rw [remainingFrameCounts, dif_neg (by omega), Nat.min_eq_right (by omega), Nat.sub_self,
      remainingFrameCounts, dif_pos rfl, Nat.mul_zero, Nat.zero_add]
    rfl
  | succ whole ih =>
    rw [remainingFrameCounts, dif_neg (by omega), Nat.min_eq_left (by omega),
      show 8 * (whole + 1) + rest - 8 = 8 * whole + rest by omega, ih, List.replicate_succ,
      List.cons_append]

/-- The chunks of a generation of more than four frames: the last one may be whole. -/
theorem captureFrameCounts_eq {validFrames : ℕ} (hframes : 4 < validFrames) :
    captureFrameCounts validFrames =
      .ok (4 :: (List.replicate ((validFrames - 5) / 8) 8 ++ [(validFrames - 5) % 8 + 1])) := by
  rw [captureFrameCounts, if_neg (by omega), Nat.min_eq_left (by omega),
    show validFrames - 4 = 8 * ((validFrames - 5) / 8) + ((validFrames - 5) % 8 + 1) by omega,
    remainingFrameCounts_eq _ _ (by omega) (by omega)]

/-- The fixture accepts a schedule of this shape. -/
theorem loadFrameSchedule_eq (whole : ℕ) {rest : ℕ} (hpos : 0 < rest) (hle : rest ≤ 8) :
    loadFrameSchedule (4 :: (List.replicate whole 8 ++ [rest])) =
      .ok (4 :: (List.replicate whole 8 ++ [rest])) := by
  have hbounds : ∀ frameCount ∈ 4 :: (List.replicate whole 8 ++ [rest]),
      1 ≤ frameCount ∧ frameCount ≤ 8 := by
    intro frameCount hmem
    rw [List.mem_cons, List.mem_append, List.mem_singleton] at hmem
    rcases hmem with rfl | hwhole | rfl
    · omega
    · rw [List.eq_of_mem_replicate hwhole]
      omega
    · omega
  rw [loadFrameSchedule, if_neg, if_neg, if_neg]
  · rintro ⟨frameCount, hmem, hne⟩
    rw [List.tail_cons, List.dropLast_concat] at hmem
    exact hne (List.eq_of_mem_replicate hmem)
  · exact fun hne => hne rfl
  · rintro (hlength | ⟨frameCount, hmem, hbound⟩)
    · simp only [List.length_cons, List.length_append, List.length_replicate,
        List.length_nil] at hlength
      omega
    · have := hbounds frameCount hmem
      simp only [TAIL_MIN_FRAMES, TAIL_MAX_FRAMES] at hbound
      omega

/-- The plans behind the first chunk, at any place of the schedule. -/
theorem forall₂_goldenExecution {length rest : ℕ} (hpos : 0 < rest) (hle : rest ≤ 8)
    (whole start : ℕ) (hstart : 0 < start) (hlength : start + whole + 1 = length) :
    List.Forall₂ (fun item result => goldenExecution length item.2 item.1 = .ok result)
      ((List.replicate whole 8 ++ [rest]).zipIdx start)
      (List.replicate whole ⟨.steady, 8⟩ ++ [⟨.tail, rest⟩]) := by
  induction whole generalizing start with
  | zero =>
    refine .cons ?_ .nil
    rw [goldenExecution, if_neg (by omega), if_pos (by omega), if_neg]
    simp only [TAIL_MIN_FRAMES, TAIL_MAX_FRAMES]
    omega
  | succ whole ih =>
    rw [List.replicate_succ, List.replicate_succ, List.cons_append, List.cons_append,
      List.zipIdx_cons]
    refine .cons ?_ (ih (start + 1) (Nat.succ_pos start) (by omega))
    rw [goldenExecution, if_neg (by omega), if_neg (by omega), if_neg (fun hne => hne rfl)]

/-- The plans of a schedule of this shape: the last one is the tail, by its place alone. -/
theorem executeGoldenNanocodec_eq (whole : ℕ) {rest : ℕ} (hpos : 0 < rest) (hle : rest ≤ 8) :
    executeGoldenNanocodec (4 :: (List.replicate whole 8 ++ [rest])) =
      .ok (⟨.initial, 4⟩ :: (List.replicate whole ⟨.steady, 8⟩ ++ [⟨.tail, rest⟩])) := by
  rw [executeGoldenNanocodec, mapM_eq_ok_iff, List.zipIdx_cons]
  refine .cons rfl (forall₂_goldenExecution hpos hle whole 1 Nat.one_pos ?_)
  simp only [List.length_cons, List.length_append, List.length_replicate, List.length_nil]
  omega

/-- The executions of the exporter. -/
theorem goldenCodecExecutions_eq {validFrames : ℕ} (hframes : 4 < validFrames) :
    goldenCodecExecutions validFrames =
      .ok (⟨.initial, 4⟩ :: (List.replicate ((validFrames - 5) / 8) ⟨.steady, 8⟩ ++
        [⟨.tail, (validFrames - 5) % 8 + 1⟩])) := by
  have hle : (validFrames - 5) % 8 + 1 ≤ 8 := by omega
  have hload := loadFrameSchedule_eq ((validFrames - 5) / 8) (Nat.succ_pos _) hle
  rw [goldenCodecExecutions, captureFrameCounts_eq hframes, bind_eq_ok_iff]
  refine ⟨_, rfl, ?_⟩
  rw [hload, bind_eq_ok_iff]
  exact ⟨_, rfl, executeGoldenNanocodec_eq _ (Nat.succ_pos _) hle⟩

/-! ### The executions of a request -/

/-- The exporter runs the tail plan on a whole last chunk, where a request runs the steady one. -/
theorem goldenCodecExecutions_eq_requestExecutions_iff {frames : ℕ} (hframes : 4 < frames) :
    goldenCodecExecutions frames = .ok (requestExecutions frames) ↔ frames % 8 ≠ 4 := by
  rw [goldenCodecExecutions_eq hframes, requestExecutions]
  by_cases hwhole : (frames - 4) % 8 = 0
  · refine iff_of_false (fun heq => ?_) (by omega)
    have hlast := congrArg List.getLast? (List.cons.inj (Except.ok.inj heq)).2
    obtain ⟨whole, hcount⟩ : ∃ whole, (frames - 4) / 8 = whole + 1 :=
      ⟨(frames - 4) / 8 - 1, by omega⟩
    rw [if_pos hwhole, List.append_nil, hcount, List.replicate_succ', List.getLast?_concat,
      List.getLast?_concat] at hlast
    cases hlast
  · refine iff_of_true ?_ (by omega)
    rw [if_neg hwhole, show (frames - 5) / 8 = (frames - 4) / 8 by omega,
      show (frames - 5) % 8 + 1 = (frames - 4) % 8 by omega]

/-! ### Two runs -/

/-- A record of four steps, of which the first one ends at the given frame. -/
def fourStepReading (validSampleLength : ℤ) (endFrameIndex : ℤ) : DeviceReading where
  diagnostics :=
    { stepCount := 4
      mainDecoderExecutionStatus := 0
      steps := fun step =>
        if step < 4 then ⟨step, 0, 0, if step = 0 then endFrameIndex else -1, 0⟩ else .unused }
  validSampleLength
  pcmFinite := true

/-- The first chunk is published and taken. -/
def firstChunkActions : List SynthesisAction :=
  List.replicate 7 (.worker twoStepReading) ++
    [.consumer .acquireAudio, .consumer (.releaseAudio 1)]

/-- The second batch ends at the second frame of its first step. -/
def tailActions : List SynthesisAction :=
  firstChunkActions ++ List.replicate 8 (.worker (fourStepReading 1024 1))

/-- The second batch is whole, and the third one ends at its first frame. -/
def wholeActions : List SynthesisAction :=
  firstChunkActions ++ List.replicate 9 (.worker (fourStepReading 8192 (-1))) ++
    [.consumer .acquireAudio, .consumer (.releaseAudio 2)] ++
    List.replicate 7 (.worker (fourStepReading 0 0))

/-- **When the golden uses the routes of the runtime.** For every run of a request that is completed
with more than four retained frames, the exporter's executions for as many frames are those of the
request exactly when the frames behind the first four do not fill whole chunks of eight. -/
theorem goldenCodecExecutions_eq_iff {arguments : PipelineArguments}
    (hmanifest : arguments.manifest = acceptedManifest) {request : StreamingRequestState}
    (hrequest : StreamingRequestState.construct arguments.textTokenIds.length
      arguments.manifest.limits.pcmRingCapacityFrames = .ok request) (leaseIds : LeaseIdSequence)
    {actions : List SynthesisAction} (hreported : ∀ action ∈ actions, action.Reported)
    {observed : CodecObservation}
    (hrun : run (CodecObservation.step arguments) (.start request leaseIds) actions = observed)
    (hcompleted : observed.observation.run.history.request.state = .completed)
    (hframes : 4 < retainedFrames observed.observation.steps) :
    goldenCodecExecutions (retainedFrames observed.observation.steps) = .ok observed.executions ↔
      retainedFrames observed.observation.steps % 8 ≠ 4 := by
  rw [codecExecutions_completed hmanifest hrequest leaseIds hreported hrun hcompleted]
  exact goldenCodecExecutions_eq_requestExecutions_iff hframes

theorem reported_tailActions : ∀ action ∈ tailActions, action.Reported := by
  simp [tailActions, firstChunkActions, SynthesisAction.Reported]

theorem goldenCodecExecutions_eq_five_frames :
    ∃ request, StreamingRequestState.construct 10 8 = .ok request ∧
      ∃ observed, run (CodecObservation.step tenTokenArguments) (.start request ⟨1⟩) tailActions =
        observed ∧ retainedFrames observed.observation.steps = 5 ∧
        goldenCodecExecutions (retainedFrames observed.observation.steps) =
          .ok observed.executions :=
  ⟨_, rfl, _, rfl, by decide +kernel, (goldenCodecExecutions_eq_iff rfl rfl ⟨1⟩ reported_tailActions
    rfl (by decide +kernel) (by decide +kernel)).mpr (by decide +kernel)⟩

/-- A request that retains twelve frames decodes its last eight with the steady engine, the exporter
with the tail engine. -/
theorem goldenCodecExecutions_ne_twelve_frames :
    ∃ request, StreamingRequestState.construct 10 8 = .ok request ∧
      ∃ observed, run (CodecObservation.step tenTokenArguments) (.start request ⟨1⟩) wholeActions =
        observed ∧ observed.observation.run.history.request.state = .completed ∧
        retainedFrames observed.observation.steps = 12 ∧
        observed.executions = [⟨.initial, 4⟩, ⟨.steady, 8⟩] ∧
        goldenCodecExecutions 12 = .ok [⟨.initial, 4⟩, ⟨.tail, 8⟩] :=
  ⟨_, rfl, _, rfl, by decide +kernel, by decide +kernel, by decide +kernel,
    goldenCodecExecutions_eq (by decide)⟩

end MagpieTts.Export
