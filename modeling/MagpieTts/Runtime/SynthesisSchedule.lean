import MagpieTts.Runtime.InflightPipeline
import MagpieTts.Runtime.SynthesisPublication

/-!
# The schedule of a synthesis run

In every run of the worker, with any limits, any diagnostics, any end of speech and a cancellation
at any check, the device work is enqueued in the order that the two batch slots and the one PCM
buffer ask for, no operation of the overlap contract throws, and the worker returns with nothing in
flight unless its session is poisoned.

## Main definitions

* `ScheduledRun`: a run with the events of its pipeline.
* `ScheduleSafe`: what holds of the events of a run.

## Main results

* `scheduleSafe_run`: it holds in every state of every run.
-/

namespace MagpieTts.Runtime

open MagpieTts.Library Pipeline

/-! ### The events of a run -/

/-- What the host learns in the step from one worker state to the next. -/
def WorkerState.hostEvents (self next : WorkerState) : List PipelineEvent :=
  match self.point, next.point with
  | .awaitFirst pending, .observeFirst _ =>
    [.generationAwaited pending.batchSlot, .generationValidated pending.batchSlot]
  | .awaitFirst pending, _ => [.generationAwaited pending.batchSlot]
  | .awaitGeneration pending, .observeGeneration _ =>
    [.generationAwaited pending.batchSlot, .generationValidated pending.batchSlot]
  | .awaitGeneration pending, _ => [.generationAwaited pending.batchSlot]
  | .awaitCodec _ _, _ => [.codecAwaited]
  | .publish _ _ _, .observePublished _ => [.published]
  | .settle _, _ => self.pipeline.settleEvents
  | _, _ => []

/-- The events of a step. A step that fails learns nothing. -/
def SynthesisRun.events (arguments : PipelineArguments) (self : SynthesisRun)
    (action : SynthesisAction) : List PipelineEvent :=
  let next := (self.step arguments action).worker
  match action with
  | .worker _ => self.worker.hostEvents next ++ next.pipeline.commands.map .command
  | .fault _ _ _ => next.pipeline.commands.map .command
  | .publicationFault | .consumer _ => []

/-- A run with the events of its pipeline. -/
structure ScheduledRun where
  run : SynthesisRun
  events : List PipelineEvent

namespace ScheduledRun

def start (request : StreamingRequestState) (leaseIds : LeaseIdSequence) : ScheduledRun :=
  ⟨.start request leaseIds, []⟩

def step (arguments : PipelineArguments) (self : ScheduledRun) (action : SynthesisAction) :
    ScheduledRun :=
  ⟨self.run.step arguments action, self.events ++ self.run.events arguments action⟩

/-- The books behind the events of the run. -/
def work (self : ScheduledRun) : InflightWork :=
  Library.run InflightWork.step .initial self.events

end ScheduledRun

/-- A failure from outside. The texts of the overlap contract are its own, and only the pipeline
finds its context exhausted. -/
def DeviceFault.Outside : DeviceFault → Prop
  | synthesis code _ => code ≠ .contextExhausted
  | standard what => what ∉ AsyncPipelineContract.violations
  | _ => True

def SynthesisAction.Outside : SynthesisAction → Prop
  | .fault _ _ failure => failure.Outside
  | _ => True

theorem DeviceFault.Outside.exception {fault : DeviceFault} (h : fault.Outside) :
    fault.exception.Lawful ∧ ¬ fault.exception.LeavesUsable := by
  cases fault with
  | synthesis code detail =>
    refine ⟨?_, fun husable => ?_⟩
    · cases code <;> first | exact absurd rfl h | trivial
    · obtain ⟨other, hother⟩ := WorkerException.leavesUsable_iff.mp husable
      exact h (WorkerException.synthesis.inj hother).1
  | standard what => exact ⟨h, Bool.noConfusion⟩
  | _ => exact ⟨trivial, Bool.noConfusion⟩

/-- The exception that the worker holds at a point. -/
def WorkerPoint.exception : WorkerPoint → Option WorkerException
  | settle outcome => outcome
  | failed exception => some exception
  | _ => none

/-- The pipeline has returned: normally, behind a cancellation, or with an exhausted context; or the
worker has returned and left its session usable. -/
def WorkerState.Returned (self : WorkerState) : Prop :=
  match self.point with
  | .observeSettled | .completeCancellation => True
  | .failed exception => exception.LeavesUsable
  | .done => self.poisoned = false
  | _ => False

/-- What holds of the schedule of a run: no exception comes from the overlap contract or from the
capacity checks of a decoder step, all events are allowed, and nothing is in flight where the worker
has returned. -/
structure ScheduleSafe (scheduled : ScheduledRun) : Prop where
  lawful : ∀ exception ∈ scheduled.run.worker.point.exception, exception.Lawful
  allowed : StepsMeet InflightWork.step InflightWork.Allows .initial scheduled.events
  quiet : scheduled.run.worker.Returned → scheduled.work.Quiet

/-! ### The invariant -/

/-- The books at each point of the worker. -/
def ScheduleAt (arguments : PipelineArguments) (work : InflightWork) (w : WorkerState) : Prop :=
  match w.point with
  | .setDevice | .start => w.pipeline = .initial ∧ work = .initial
  | .awaitFirst pending | .canPublish pending | .observeFull pending | .readRevision pending
  | .recheckCapacity pending _ | .observeRechecked pending _ | .waitForRevision pending _
  | .observeCapacity pending | .awaitGeneration pending =>
    w.pipeline.Tracks work (some pending.batchSlot) none false false
  | .observeFirst batch | .observeGeneration batch | .observeZeroFrame batch
  | .publishZeroFrame _ batch =>
    w.pipeline.Tracks work none (some batch.batchSlot) false false
  | .generateFollowing _ =>
    w.pipeline.Tracks work none none true true ∧
      BatchFits arguments w.pipeline.generatedDecoderSteps
  | .awaitCodec _ following =>
    w.pipeline.Tracks work (following.map PendingGenerationBatch.batchSlot) none true true
  | .observeDecoded _ following | .publish _ _ following =>
    w.pipeline.Tracks work (following.map PendingGenerationBatch.batchSlot) none false true
  | .observePublished following =>
    w.pipeline.Tracks work (following.map PendingGenerationBatch.batchSlot) none false false
  | .settle outcome =>
    w.pipeline.Settles ∧ (∀ exception ∈ outcome, exception.Lawful) ∧
      ((∀ exception ∈ outcome, exception.LeavesUsable) → w.pipeline.SettlesTo work)
  | .observeSettled | .completeCancellation => work.Quiet
  | .failed exception => exception.Lawful ∧ (exception.LeavesUsable → work.Quiet)
  | .failRequest _ | .done => w.poisoned = false → work.Quiet

/-- The events are allowed and lead to the books of the next state. -/
def Schedules (arguments : PipelineArguments) (work : InflightWork) (events : List PipelineEvent)
    (next : WorkerState) : Prop :=
  StepsMeet InflightWork.step InflightWork.Allows work events ∧
    ScheduleAt arguments (run InflightWork.step work events) next

variable {arguments : PipelineArguments} {work after : InflightWork} {p p' : Pipeline}
  {point : WorkerPoint} {poisoned : Bool} {exception : WorkerException}
  {pending filled : Option BatchSlot} {decoding result : Bool}

/-- Settling enqueues nothing. -/
theorem command_notMem_settleEvents {command : DeviceCommand} :
    PipelineEvent.command command ∉ p.settleEvents := by
  intro hmem
  simp only [settleEvents, List.mem_append, List.mem_map, List.mem_singleton, reduceCtorEq,
    and_false,
    exists_false, false_or, or_false] at hmem
  split_ifs at hmem
  · simp at hmem
  · cases hmem

theorem InflightWork.Quiet.settlesTo (h : work.Quiet) : p.SettlesTo work := by
  refine run_induction_of_stepsMeet (C := fun _ event => ∀ command, event ≠ .command command)
    (I := Quiet) (fun _ _ hquiet hevent => hquiet.awaited hevent) h _ ?_
  refine stepsMeet_of_forall_mem fun _ event hmem command heq => ?_
  subst heq
  exact command_notMem_settleEvents hmem

namespace ScheduleAt

/-- A cancellation, or the end of the stream. -/
theorem settleNone (htracks : p.Tracks work pending filled decoding result) :
    ScheduleAt arguments work ⟨p, .settle none, poisoned⟩ :=
  ⟨htracks.slots.settles, fun exception h => (by cases h), fun _ => htracks.settlesTo⟩

/-- An exception that leaves the session usable is thrown while nothing is in flight. -/
theorem thrown (hsettles : p.Settles) (hlawful : exception.Lawful)
    (hquiet : exception.LeavesUsable → work.Quiet) :
    ScheduleAt arguments work ⟨p, .settle (some exception), poisoned⟩ := by
  refine ⟨hsettles, fun other hother => ?_, fun husable => ?_⟩
  · rwa [← Option.some.inj hother]
  · exact (hquiet (husable exception rfl)).settlesTo

/-- Any other exception. -/
theorem thrown_of_not (hsettles : p.Settles) (hlawful : exception.Lawful)
    (husable : ¬ exception.LeavesUsable) :
    ScheduleAt arguments work ⟨p, .settle (some exception), poisoned⟩ :=
  thrown hsettles hlawful fun h => absurd h husable

end ScheduleAt

/-! ### The steps without a call -/

/-- The outcome of a step without a call: the host learns of completions, then enqueues commands,
and does not do both. -/
structure Advances (arguments : PipelineArguments) (work : InflightWork) (w next : WorkerState) :
    Prop where
  awaits : ∀ event ∈ w.hostEvents next, ∀ command, event ≠ .command command
  enqueues : ∃ after,
    (run InflightWork.step work (w.hostEvents next)).Enqueues next.pipeline.commands after ∧
      ScheduleAt arguments after next
  alone : w.hostEvents next = [] ∨ next.pipeline.commands = []

namespace Advances

variable {w next : WorkerState}

theorem schedules (h : Advances arguments work w next) :
    Schedules arguments work (w.hostEvents next ++ next.pipeline.commands.map .command) next := by
  obtain ⟨after, henqueues, hat⟩ := h.enqueues
  constructor
  · rw [stepsMeet_append]
    refine ⟨stepsMeet_of_forall_mem fun _ event hmem => ?_, henqueues.allowed⟩
    have hawaits := h.awaits event hmem
    cases event with
    | command command => exact absurd rfl (hawaits command)
    | _ => trivial
  · rw [run_append, henqueues.after_eq]
    exact hat

/-- A step without host events. -/
theorem of_enqueues (hhost : w.hostEvents next = [])
    (h : ∃ after, work.Enqueues next.pipeline.commands after ∧ ScheduleAt arguments after next) :
    Advances arguments work w next where
  awaits := fun event hmem => by rw [hhost] at hmem; cases hmem
  enqueues := by rwa [hhost]
  alone := Or.inl hhost

/-- A step without commands. -/
theorem of_awaits (hcommands : next.pipeline.commands = [])
    (hawaits : ∀ event ∈ w.hostEvents next, ∀ command, event ≠ .command command)
    (hat : ScheduleAt arguments (run InflightWork.step work (w.hostEvents next)) next) :
    Advances arguments work w next where
  awaits := hawaits
  enqueues := ⟨_, by rw [hcommands]; exact .nil, hat⟩
  alone := Or.inr hcommands

/-- A step that neither waits nor enqueues. -/
theorem of_silent (hhost : w.hostEvents next = []) (hcommands : next.pipeline.commands = [])
    (hat : ScheduleAt arguments work next) : Advances arguments work w next :=
  of_enqueues hhost ⟨work, by rw [hcommands]; exact .nil, hat⟩

/-- Commands that a failing step enqueues are allowed. -/
theorem take (h : Advances arguments work w next) (enqueued : ℕ) :
    ∃ after, work.Enqueues (next.pipeline.commands.take enqueued) after := by
  obtain ⟨after, henqueues, -⟩ := h.enqueues
  rcases h.alone with hhost | hcommands
  · rw [hhost] at henqueues
    exact henqueues.take enqueued
  · rw [hcommands, List.take_nil]
    exact ⟨work, .nil⟩

end Advances

/-- The text of an error of the request state is not one of the overlap contract. -/
theorem RequestStateError.lawful (error : RequestStateError) :
    (WorkerException.standard error.what).Lawful := by
  change error.what ∉ AsyncPipelineContract.violations
  intro hmem
  -- the texts differ in their first letters
  have hhead : error.what.toList.head? = some 's' := by
    change ("streaming request state error [code=" ++ error.code.text ++ "]: " ++
      error.detail).toList.head? = _
    simp only [String.toList_append, String.reduceToList]
    rfl
  simp only [AsyncPipelineContract.violations, List.mem_cons, List.not_mem_nil, or_false] at hmem
  generalize error.what = text at hhead hmem
  rcases hmem with rfl | rfl | rfl | rfl <;>
    simp only [String.reduceToList, List.head?_cons, Option.some.injEq, Char.reduceEq] at hhead

section Advance

variable {reading : DeviceReading} {request : StreamingRequestState}

/-- A step that ends the work on the batches. -/
theorem advances_settleNone {w : WorkerState} {next : WorkerState}
    (hnext : next = w.goto (.settle none)) (hhost : w.hostEvents next = [])
    (htracks : w.pipeline.Tracks work pending filled decoding result) :
    Advances arguments work w next := by
  subst hnext
  exact .of_silent hhost rfl (.settleNone (htracks.forget []))

/-- The commands that initialize the request, and those of the first batch. -/
theorem meets_start_tracks :
    Meets (do
        requireInitialBatchCapacity arguments
        initializeRequest arguments
        runTextEncoder
        runPrefill
        generateFirstFour arguments 0) initial
      (LeavesInFlight .initial 0 false false)
      fun exception p' => exception.Lawful ∧ p' = initial := by
  rw [meets_bind]
  refine meets_requireInitialBatchCapacity_fits.mono ?_ fun _ _ h => ⟨h.2, h.1⟩
  rintro _ _ ⟨rfl, hfits⟩
  simp only [initializeRequest, runTextEncoder, runPrefill, meets_bind, meets_failIf, meets_enqueue,
    meets_modify]
  refine ⟨fun _ => ⟨trivial, trivial⟩, fun _ => ?_⟩
  have hstart : InflightWork.initial.Generating 0 [] .initial :=
    ⟨.nil, rfl, rfl, (Function.update_eq_self 0 InflightWork.initial.packing).symm⟩
  refine (meets_generateFirstFour_tracks hfits ?_ rfl ?_).mono (fun _ _ h => h) fun _ _ h => h.elim
  · exact ⟨rfl, rfl, rfl, rfl⟩
  · have hcommands : ∀ command ∈ ([.initializeRequest, .runTextEncoder, .prepareCfgInputs,
        .runPrefill] : List DeviceCommand), command.Generates 0 := by
      intro command hmem
      simp only [List.mem_cons, List.not_mem_nil, or_false] at hmem
      rcases hmem with rfl | rfl | rfl | rfl <;> rfl
    exact hstart.append hcommands

theorem advance_start_schedules (hinitial : p = .initial) (hwork : work = .initial) :
    Advances arguments work ⟨p, .start, poisoned⟩
      (WorkerState.advance arguments reading request ⟨p, .start, poisoned⟩) := by
  subst hinitial hwork
  simp only [WorkerState.advance]
  rcases WorkerState.perform_cases (p := .initial) (@meets_start_tracks arguments) with
    ⟨first, p', ⟨hslot, after, henqueues, htracks⟩, hperform⟩ |
    ⟨exception, p', ⟨hlawful, rfl⟩, hperform⟩
  · rw [hperform]
    refine .of_enqueues rfl ⟨after, henqueues, ?_⟩
    rw [← hslot] at htracks
    exact htracks
  · rw [hperform]
    exact .of_silent rfl rfl (.thrown tracks_initial.slots.settles hlawful
      fun _ => InflightWork.quiet_initial)

theorem advance_awaitGeneration_schedules {pending : PendingGenerationBatch}
    (htracks : p.Tracks work (some pending.batchSlot) none false false) :
    Advances arguments work ⟨p, .awaitGeneration pending, poisoned⟩
      (WorkerState.advance arguments reading request ⟨p, .awaitGeneration pending, poisoned⟩) := by
  have hempty := htracks.forget []
  simp only [WorkerState.advance]
  rcases WorkerState.perform_cases (@meets_awaitGenerationBatch_tracks arguments _ pending
      reading.diagnostics hempty.slots.fillingSlot) with
    ⟨batch, p', ⟨hslot, rfl⟩, hperform⟩ | ⟨exception, p', ⟨hlawful, rfl⟩, hperform⟩
  · rw [hperform]
    refine .of_awaits rfl (fun event hmem command heq => ?_) ?_
    · simp [WorkerState.hostEvents, heq] at hmem
    · change Tracks _ _ none (some batch.batchSlot) false false
      rw [hslot]
      exact hempty.read
  · rw [hperform]
    refine .of_awaits rfl (fun event hmem command heq => ?_) ?_
    · simp [WorkerState.hostEvents, heq] at hmem
    · exact .thrown hempty.slots.ready.settles hlawful fun _ => hempty.quiet_awaited

theorem advance_awaitFirst_schedules {pending : PendingGenerationBatch}
    (htracks : p.Tracks work (some pending.batchSlot) none false false) :
    Advances arguments work ⟨p, .awaitFirst pending, poisoned⟩
      (WorkerState.advance arguments reading request ⟨p, .awaitFirst pending, poisoned⟩) := by
  have hempty := htracks.forget []
  have hmeets : Meets (do
        let first ← awaitGenerationBatch arguments pending reading.diagnostics
        failIf (first.final = true ∨ first.frameCount ≠ arguments.manifest.codec.initialFrames)
          .invariantFailure "EOS was admitted before the fixed initial four frames"
        return first) { p with commands := [] }
      (fun batch p' => batch.batchSlot = pending.batchSlot ∧
        p' = ({ p with commands := [] } : Pipeline).withSlot pending.batchSlot false false
          .generationReady)
      fun exception p' => exception.Lawful ∧
        p' = ({ p with commands := [] } : Pipeline).withSlot pending.batchSlot false false
          .generationReady := by
    rw [meets_bind]
    refine (meets_awaitGenerationBatch_tracks reading.diagnostics hempty.slots.fillingSlot).mono
      (fun batch p' h => ?_) fun _ _ h => h
    rw [meets_bind, meets_failIf, meets_pure]
    exact ⟨fun _ => ⟨trivial, h.2⟩, fun _ => h⟩
  simp only [WorkerState.advance]
  rcases WorkerState.perform_cases hmeets with
    ⟨batch, p', ⟨hslot, rfl⟩, hperform⟩ | ⟨exception, p', ⟨hlawful, rfl⟩, hperform⟩
  · rw [hperform]
    refine .of_awaits rfl (fun event hmem command heq => ?_) ?_
    · simp [WorkerState.hostEvents, heq] at hmem
    · change Tracks _ _ none (some batch.batchSlot) false false
      rw [hslot]
      exact hempty.read
  · rw [hperform]
    refine .of_awaits rfl (fun event hmem command heq => ?_) ?_
    · simp [WorkerState.hostEvents, heq] at hmem
    · exact .thrown hempty.slots.ready.settles hlawful fun _ => hempty.quiet_awaited

/-- The codec is scheduled behind a batch that was read. -/
theorem perform_scheduleCodec_schedules {batch : GenerationBatchResult} {first : Bool}
    {next : PendingCodecBatch → WorkerPoint}
    (htracks : p.Tracks work none (some batch.batchSlot) false false)
    (hhost : ∀ next', WorkerState.hostEvents ⟨p, point, poisoned⟩ next' = [])
    (hnext : ∀ (codec : PendingCodecBatch) (after : InflightWork) (p' : Pipeline),
      p'.generatedDecoderSteps = p.generatedDecoderSteps →
      p'.Tracks after none none true true →
      ScheduleAt arguments after ⟨p', next codec, poisoned⟩) :
    Advances arguments work ⟨p, point, poisoned⟩
      ((⟨p, point, poisoned⟩ : WorkerState).perform (Pipeline.scheduleCodec arguments batch first)
        next) := by
  rcases WorkerState.perform_cases (@meets_scheduleCodec_tracks arguments { p with commands := [] }
      work batch first (htracks.forget []) rfl) with
    ⟨codec, p', ⟨-, hgenerated, after, henqueues, htracks'⟩, hperform⟩ |
    ⟨exception, p', ⟨hlawful, husable, hsettles, after, henqueues⟩, hperform⟩
  · rw [hperform]
    exact .of_enqueues (hhost _) ⟨after, henqueues, hnext codec after p' hgenerated htracks'⟩
  · rw [hperform]
    exact .of_enqueues (hhost _) ⟨after, henqueues, .thrown_of_not hsettles hlawful husable⟩

theorem advance_observeFirst_schedules {batch : GenerationBatchResult}
    (htracks : p.Tracks work none (some batch.batchSlot) false false) :
    Advances arguments work ⟨p, .observeFirst batch, poisoned⟩
      (WorkerState.advance arguments reading request ⟨p, .observeFirst batch, poisoned⟩) := by
  simp only [WorkerState.advance]
  split_ifs
  · exact advances_settleNone rfl rfl htracks
  · exact perform_scheduleCodec_schedules htracks (fun _ => rfl) fun _ _ _ _ h => h

theorem advance_awaitCodec_schedules {codec : PendingCodecBatch}
    {following : Option PendingGenerationBatch}
    (htracks : p.Tracks work (following.map PendingGenerationBatch.batchSlot) none true true) :
    Advances arguments work ⟨p, .awaitCodec codec following, poisoned⟩
      (WorkerState.advance arguments reading request
        ⟨p, .awaitCodec codec following, poisoned⟩) := by
  have hdecoded := (htracks.forget []).decoded
  simp only [WorkerState.advance]
  rcases WorkerState.perform_cases (meets_awaitCodec_tracks codec reading.validSampleLength
      reading.pcmFinite) with
    ⟨_, p', rfl, hperform⟩ | ⟨exception, p', ⟨hlawful, husable, rfl⟩, hperform⟩
  · rw [hperform]
    refine .of_awaits rfl (fun event hmem command heq => ?_) hdecoded
    simp [WorkerState.hostEvents, heq] at hmem
  · rw [hperform]
    refine .of_awaits rfl (fun event hmem command heq => ?_)
      (.thrown_of_not hdecoded.slots.settles hlawful husable)
    simp [WorkerState.hostEvents, heq] at hmem

theorem advance_observeDecoded_schedules {codec : PendingCodecBatch}
    {following : Option PendingGenerationBatch}
    (htracks : p.Tracks work (following.map PendingGenerationBatch.batchSlot) none false true) :
    Advances arguments work ⟨p, .observeDecoded codec following, poisoned⟩
      (WorkerState.advance arguments reading request
        ⟨p, .observeDecoded codec following, poisoned⟩) := by
  have hempty := htracks.forget []
  simp only [WorkerState.advance]
  split_ifs
  · exact advances_settleNone rfl rfl htracks
  rcases WorkerState.perform_cases (@meets_audioChunk_tracks arguments { p with commands := [] }
      codec) with
    ⟨chunk, p', hkeeps, hperform⟩ | ⟨exception, p', ⟨hlawful, husable, hkeeps⟩, hperform⟩
  · rw [hperform]
    exact .of_silent rfl hkeeps.commands_eq (hempty.of_keeps hkeeps.keeps)
  · rw [hperform]
    exact .of_silent rfl hkeeps.commands_eq
      (.thrown_of_not (hempty.of_keeps hkeeps.keeps).slots.settles hlawful husable)

/-- A steady batch is generated, or no limit leaves room for it and nothing is in flight. -/
theorem advance_observePublished_schedules {following : Option PendingGenerationBatch}
    (htracks : p.Tracks work (following.map PendingGenerationBatch.batchSlot) none false false) :
    Advances arguments work ⟨p, .observePublished following, poisoned⟩
      (WorkerState.advance arguments reading request
        ⟨p, .observePublished following, poisoned⟩) := by
  have hempty := htracks.forget []
  simp only [WorkerState.advance]
  split_ifs
  · exact advances_settleNone rfl rfl htracks
  cases following with
  | some pending => exact .of_silent rfl rfl hempty
  | none =>
    have hmeets := (meets_bind (requireSteadyBatchCapacity arguments)
      fun _ => generateSteadyBatch arguments 1).mpr
      ((@meets_requireSteadyBatchCapacity_fits arguments { p with commands := [] }).mono
        (fun _ p' h => by
          rw [h.1]
          exact @meets_generateSteadyBatch_tracks arguments _ work 1 false false hempty rfl)
        fun _ _ h => h)
    rcases WorkerState.perform_cases hmeets with
      ⟨pending, p', ⟨hslot, after, henqueues, htracks'⟩, hperform⟩ |
      ⟨exception, p', ⟨rfl, hlawful, -⟩, hperform⟩
    · rw [hperform]
      refine .of_enqueues rfl ⟨after, henqueues, ?_⟩
      rw [← hslot] at htracks'
      exact htracks'
    · rw [hperform]
      exact .of_silent rfl rfl (.thrown hempty.slots.settles hlawful
        fun _ => ⟨hempty.generation, hempty.codec⟩)

/-- The following batch has room: its check was made in front of the codec run. -/
theorem advance_generateFollowing_schedules {codec : PendingCodecBatch}
    (htracks : p.Tracks work none none true true)
    (hfits : BatchFits arguments p.generatedDecoderSteps) :
    Advances arguments work ⟨p, .generateFollowing codec, poisoned⟩
      (WorkerState.advance arguments reading request ⟨p, .generateFollowing codec, poisoned⟩) := by
  simp only [WorkerState.advance]
  rcases WorkerState.perform_cases (@meets_generateSteadyBatch_tracks arguments
      { p with commands := [] } work (1 - codec.generation.batchSlot) true true
      (htracks.forget []) rfl) with
    ⟨pending, p', ⟨hslot, after, henqueues, htracks'⟩, hperform⟩ |
    ⟨exception, p', ⟨-, -, hfull⟩, -⟩
  · rw [hperform]
    refine .of_enqueues rfl ⟨after, henqueues, ?_⟩
    rw [← hslot] at htracks'
    exact htracks'
  · exact absurd hfits hfull

theorem advance_observeGeneration_schedules {batch : GenerationBatchResult}
    (htracks : p.Tracks work none (some batch.batchSlot) false false) :
    Advances arguments work ⟨p, .observeGeneration batch, poisoned⟩
      (WorkerState.advance arguments reading request ⟨p, .observeGeneration batch, poisoned⟩) := by
  have hempty := htracks.forget []
  simp only [WorkerState.advance]
  by_cases hcancelled : request.cancellationPending = true
  · rw [if_pos hcancelled]
    exact advances_settleNone rfl rfl htracks
  rw [if_neg hcancelled]
  by_cases hframes : batch.frameCount = 0
  · rw [if_pos hframes]
    have hmeets : Meets (failIf (batch.final = false ∨ batch.frameCount ≠ 0) .invariantFailure
        "zero-frame publication requires a terminal generation batch") { p with commands := [] }
        (fun _ p' => p' = { p with commands := [] })
        fun exception p' => exception.Lawful ∧ ¬ exception.LeavesUsable ∧
          p' = { p with commands := [] } :=
      meets_failIf.mpr ⟨fun _ => ⟨trivial, Bool.noConfusion, rfl⟩, fun _ => rfl⟩
    rcases WorkerState.perform_cases hmeets with
      ⟨_, p', rfl, hperform⟩ | ⟨exception, p', ⟨hlawful, husable, rfl⟩, hperform⟩
    · rw [hperform]
      exact .of_silent rfl rfl hempty
    · rw [hperform]
      exact .of_silent rfl rfl (.thrown_of_not hempty.slots.settles hlawful husable)
  rw [if_neg hframes]
  by_cases hfinal : batch.final = true
  · rw [if_pos hfinal]
    exact perform_scheduleCodec_schedules htracks (fun _ => rfl) fun _ _ _ _ h => h
  · rw [if_neg hfinal]
    have hmeets : Meets (do
          requireSteadyBatchCapacity arguments
          Pipeline.scheduleCodec arguments batch false) { p with commands := [] }
        (fun codec p' => BatchFits arguments p'.generatedDecoderSteps ∧
          LeavesDecoding work batch p.generatedDecoderSteps codec p')
        fun exception p' => AbandonsCodec work exception p' ∨
          (exception.Lawful ∧ p' = { p with commands := [] }) := by
      rw [meets_bind]
      refine meets_requireSteadyBatchCapacity_fits.mono ?_ fun _ _ h => Or.inr ⟨h.2.1, h.1⟩
      rintro _ _ ⟨rfl, hfits⟩
      refine (meets_scheduleCodec_tracks hempty rfl).mono (fun codec p' h => ⟨?_, h⟩)
        fun _ _ h => Or.inl h
      rw [h.2.1]
      exact hfits
    rcases WorkerState.perform_cases hmeets with
      ⟨codec, p', ⟨hfits, -, -, after, henqueues, htracks'⟩, hperform⟩ |
      ⟨exception, p', ⟨hlawful, husable, hsettles, after, henqueues⟩ | ⟨hlawful, rfl⟩, hperform⟩
    · rw [hperform]
      exact .of_enqueues rfl ⟨after, henqueues, htracks', hfits⟩
    · rw [hperform]
      exact .of_enqueues rfl ⟨after, henqueues, .thrown_of_not hsettles hlawful husable⟩
    · rw [hperform]
      exact .of_silent rfl rfl (.thrown hempty.slots.settles hlawful
        fun _ => ⟨hempty.generation, hempty.codec⟩)

theorem advance_observeZeroFrame_schedules {batch : GenerationBatchResult}
    (htracks : p.Tracks work none (some batch.batchSlot) false false) :
    Advances arguments work ⟨p, .observeZeroFrame batch, poisoned⟩
      (WorkerState.advance arguments reading request ⟨p, .observeZeroFrame batch, poisoned⟩) := by
  simp only [WorkerState.advance]
  split_ifs
  · exact advances_settleNone rfl rfl htracks
  · exact .of_silent rfl rfl (htracks.forget [])

/-- The waits of `settle_inflight`. -/
theorem advance_settle_schedules {outcome : Option WorkerException} (hsettles : p.Settles)
    (hlawful : ∀ exception ∈ outcome, exception.Lawful)
    (hquiet : (∀ exception ∈ outcome, exception.LeavesUsable) → p.SettlesTo work) :
    Advances arguments work ⟨p, .settle outcome, poisoned⟩
      (WorkerState.advance arguments reading request ⟨p, .settle outcome, poisoned⟩) := by
  have hempty : ({ p with commands := [] } : Pipeline).Settles := hsettles
  have hawaits : ∀ event ∈ p.settleEvents, ∀ command, event ≠ .command command := by
    rintro event hmem command rfl
    exact command_notMem_settleEvents hmem
  simp only [WorkerState.advance]
  rcases @WorkerState.perform_cases _ p (.settle outcome) poisoned _ (fun _ => .observeSettled) _ _
      (meets_settleInflight hempty) with
    ⟨value, p', ⟨-, hcommands⟩, hperform⟩ | ⟨exception, p', hfalse, -⟩
  · cases outcome with
    | none =>
      rw [hperform]
      exact .of_awaits hcommands hawaits (hquiet fun exception h => (by cases h))
    | some exception =>
      rw [hperform]
      refine .of_awaits hcommands hawaits ⟨hlawful exception rfl, fun husable => hquiet ?_⟩
      intro other hother
      rwa [← Option.some.inj hother]
  · exact hfalse.elim

/-- A step at any point leads to another point of the schedule. -/
theorem ScheduleAt.advance {w : WorkerState} (hat : ScheduleAt arguments work w)
    (hcall : w.point.call = none) (reading : DeviceReading) (request : StreamingRequestState) :
    Advances arguments work w (w.advance arguments reading request) := by
  obtain ⟨p, point, poisoned⟩ := w
  cases point with
  | setDevice =>
    obtain ⟨rfl, rfl⟩ := hat
    exact .of_silent rfl rfl ⟨rfl, rfl⟩
  | start => exact advance_start_schedules hat.1 hat.2
  | awaitFirst pending => exact advance_awaitFirst_schedules hat
  | observeFirst batch => exact advance_observeFirst_schedules hat
  | awaitCodec codec following => exact advance_awaitCodec_schedules hat
  | observeDecoded codec following => exact advance_observeDecoded_schedules hat
  | publish chunk codec following => cases hcall
  | observePublished following => exact advance_observePublished_schedules hat
  | canPublish pending =>
    simp only [WorkerState.advance]
    split_ifs <;> exact .of_silent rfl rfl (Tracks.forget hat [])
  | observeFull pending =>
    simp only [WorkerState.advance]
    split_ifs
    · exact advances_settleNone rfl rfl hat
    · exact .of_silent rfl rfl (Tracks.forget hat [])
  | readRevision pending =>
    simp only [WorkerState.advance]
    cases request.snapshot with
    | ok snapshot => exact .of_silent rfl rfl (Tracks.forget hat [])
    | error error =>
      exact .of_silent rfl rfl (.thrown_of_not (Tracks.forget hat []).slots.settles error.lawful
        Bool.noConfusion)
  | recheckCapacity pending revision =>
    simp only [WorkerState.advance]
    split_ifs <;> exact .of_silent rfl rfl (Tracks.forget hat [])
  | observeRechecked pending revision =>
    simp only [WorkerState.advance]
    split_ifs
    · exact advances_settleNone rfl rfl hat
    · exact .of_silent rfl rfl (Tracks.forget hat [])
  | waitForRevision pending revision => exact .of_silent rfl rfl (Tracks.forget hat [])
  | observeCapacity pending =>
    simp only [WorkerState.advance]
    split_ifs
    · exact advances_settleNone rfl rfl hat
    · exact .of_silent rfl rfl (Tracks.forget hat [])
  | awaitGeneration pending => exact advance_awaitGeneration_schedules hat
  | observeGeneration batch => exact advance_observeGeneration_schedules hat
  | generateFollowing codec => exact advance_generateFollowing_schedules hat.1 hat.2
  | observeZeroFrame batch => exact advance_observeZeroFrame_schedules hat
  | publishZeroFrame chunk batch => cases hcall
  | settle outcome => exact advance_settle_schedules hat.1 hat.2.1 hat.2.2
  | observeSettled =>
    simp only [WorkerState.advance]
    split_ifs
    · exact .of_silent rfl rfl hat
    · exact .of_silent rfl rfl fun _ => hat
  | completeCancellation => cases hcall
  | failed exception =>
    simp only [WorkerState.advance]
    have hquiet : (poisoned || exception.failure.poisonSession) = false → work.Quiet :=
      fun hpoisoned => hat.2 (Bool.or_eq_false_iff.mp hpoisoned).2
    by_cases hterminal : request.isTerminal = true
    · rw [if_pos hterminal]
      exact .of_silent rfl rfl hquiet
    · rw [if_neg hterminal]
      exact .of_silent rfl rfl hquiet
  | failRequest failure => cases hcall
  | done => exact .of_silent rfl rfl hat

end Advance

/-! ### The other steps -/

/-- The step behind a call. -/
theorem ScheduleAt.resume {w : WorkerState} (hat : ScheduleAt arguments work w)
    {call : RequestCall} (hcall : w.point.call = some call) (reply : RequestReply) :
    Advances arguments work w (w.resume arguments reply) := by
  obtain ⟨p, point, poisoned⟩ := w
  cases point with
  | publish chunk codec following =>
    have htracks : p.Tracks work (following.map PendingGenerationBatch.batchSlot) none false true :=
      hat
    have hempty := htracks.forget []
    cases reply with
    | published accepted =>
      cases accepted with
      | true =>
        simp only [WorkerState.resume]
        split_ifs
        · exact .of_silent rfl rfl (.settleNone (hempty.of_keeps ⟨rfl, rfl, rfl, rfl⟩))
        · refine .of_awaits rfl (fun event hmem command heq => ?_)
            (hempty.published.of_keeps ⟨rfl, rfl, rfl, rfl⟩)
          simp [WorkerState.hostEvents, WorkerState.goto, heq] at hmem
      | false => exact .of_silent rfl rfl (.settleNone hempty)
    | error error =>
      exact .of_silent rfl rfl (.thrown_of_not hempty.slots.settles trivial Bool.noConfusion)
    | _ => exact .of_silent rfl rfl (.settleNone hempty)
  | publishZeroFrame chunk batch =>
    have htracks : p.Tracks work none (some batch.batchSlot) false false := hat
    have hempty := htracks.forget []
    cases reply with
    | published accepted =>
      cases accepted with
      | true => exact .of_silent rfl rfl (.settleNone (hempty.of_keeps ⟨rfl, rfl, rfl, rfl⟩))
      | false => exact .of_silent rfl rfl (.settleNone hempty)
    | error error =>
      exact .of_silent rfl rfl (.thrown_of_not hempty.slots.settles trivial Bool.noConfusion)
    | _ => exact .of_silent rfl rfl (.settleNone hempty)
  | completeCancellation =>
    have hquiet : work.Quiet := hat
    cases reply with
    | drained cancelled =>
      cases cancelled with
      | true => exact .of_silent rfl rfl fun _ => hquiet
      | false => exact .of_silent rfl rfl ⟨trivial, fun _ => hquiet⟩
    | error error => exact .of_silent rfl rfl ⟨error.lawful, fun _ => hquiet⟩
    | _ => exact .of_silent rfl rfl fun _ => hquiet
  | failRequest failure =>
    cases reply with
    | error error => exact .of_silent rfl rfl fun hpoisoned => Bool.noConfusion hpoisoned
    | _ => exact .of_silent rfl rfl hat
  | _ => cases hcall

/-- A step that fails. -/
theorem ScheduleAt.interrupt {w : WorkerState} (hat : ScheduleAt arguments work w)
    (reading : DeviceReading) (request : StreamingRequestState) (enqueued : ℕ) {fault : DeviceFault}
    (hfault : fault.Outside) :
    Schedules arguments work
      ((w.interrupt arguments reading request enqueued fault).pipeline.commands.map .command)
      (w.interrupt arguments reading request enqueued fault) := by
  obtain ⟨hlawful, husable⟩ := hfault.exception
  have hcommands : ∃ after, work.Enqueues
      ((w.advance arguments reading request).pipeline.commands.take enqueued) after := by
    cases hcall : w.point.call with
    | none => exact (hat.advance hcall reading request).take enqueued
    | some call =>
      refine ⟨work, ?_⟩
      obtain ⟨p, point, poisoned⟩ := w
      cases point <;> first | cases hcall; done | exact (List.take_nil ▸ .nil)
  obtain ⟨after, henqueues⟩ := hcommands
  refine ⟨henqueues.allowed, ?_⟩
  have hwork : run InflightWork.step work
      ((w.interrupt arguments reading request enqueued fault).pipeline.commands.map .command) =
      after := henqueues.after_eq
  have hsilent : (w.advance arguments reading request).pipeline.commands = [] → after = work := by
    intro hnil
    rw [hnil, List.take_nil] at henqueues
    exact henqueues.after_eq.symm
  rw [hwork]
  have hthrown : w.pipeline.Settles → ScheduleAt arguments after
      ⟨{ w.pipeline with
          commands := (w.advance arguments reading request).pipeline.commands.take enqueued },
        .settle (some fault.exception), w.poisoned⟩ :=
    fun hsettles => .thrown_of_not hsettles hlawful husable
  obtain ⟨p, point, poisoned⟩ := w
  cases point with
  | setDevice =>
    rw [hsilent rfl]
    cases fault with
    | cuda detail => exact ⟨trivial, Bool.noConfusion⟩
    | _ =>
      obtain ⟨rfl, rfl⟩ := hat
      refine ⟨?_, rfl⟩
      change ({ Pipeline.initial with commands := List.take enqueued [] } : Pipeline) = _
      rw [List.take_nil]
      rfl
  | start =>
    obtain ⟨rfl, rfl⟩ := hat
    exact hthrown slotsHold_initial.settles
  | generateFollowing codec => exact hthrown hat.1.slots.settles
  | settle outcome =>
    cases outcome with
    | none => exact hthrown hat.1
    | some exception => exact ⟨hlawful, fun h => absurd h husable⟩
  | observeSettled => exact ⟨hlawful, fun h => absurd h husable⟩
  | completeCancellation => exact ⟨hlawful, fun h => absurd h husable⟩
  | failed exception =>
    rw [hsilent rfl]
    exact hat
  | failRequest failure =>
    rw [hsilent rfl]
    exact hat
  | done =>
    rw [hsilent rfl]
    exact hat
  | _ => exact hthrown (Tracks.slots hat).settles

/-- A publication whose queue cannot grow. -/
theorem ScheduleAt.publicationFault {w : WorkerState} (hat : ScheduleAt arguments work w)
    {chunk : AudioChunk} (hcall : w.point.call = some (.publish chunk)) :
    ScheduleAt arguments work (w.goto (.settle (some .badAlloc))) := by
  obtain ⟨p, point, poisoned⟩ := w
  cases point with
  | publish chunk codec following =>
    exact .thrown_of_not (Tracks.forget hat []).slots.settles trivial Bool.noConfusion
  | publishZeroFrame chunk batch =>
    exact .thrown_of_not (Tracks.forget hat []).slots.settles trivial Bool.noConfusion
  | _ => cases hcall

/-! ### The runs -/

/-- The events so far are allowed, and lead to the books of the worker. -/
structure ScheduleInvariant (arguments : PipelineArguments) (scheduled : ScheduledRun) : Prop where
  allowed : StepsMeet InflightWork.step InflightWork.Allows .initial scheduled.events
  point : ScheduleAt arguments scheduled.work scheduled.run.worker

namespace ScheduleInvariant

variable {self : ScheduledRun}

theorem extend (hinv : ScheduleInvariant arguments self) {run : SynthesisRun}
    {events : List PipelineEvent} (h : Schedules arguments self.work events run.worker) :
    ScheduleInvariant arguments ⟨run, self.events ++ events⟩ := by
  constructor
  · exact (stepsMeet_append _ _).mpr ⟨hinv.allowed, h.1⟩
  · rw [ScheduledRun.work, run_append]
    exact h.2

/-- **Every step keeps the invariant.** -/
theorem step (hinv : ScheduleInvariant arguments self) {action : SynthesisAction}
    (houtside : action.Outside) : ScheduleInvariant arguments (self.step arguments action) := by
  refine hinv.extend ?_
  cases action with
  | worker reading =>
    have hat := hinv.point
    simp only [SynthesisRun.events, SynthesisRun.step]
    cases hcall : self.run.worker.point.call with
    | some call => exact (hat.resume hcall _).schedules
    | none => exact (hat.advance hcall reading _).schedules
  | fault reading enqueued fault => exact hinv.point.interrupt reading _ enqueued houtside
  | publicationFault =>
    refine ⟨trivial, ?_⟩
    have hat := hinv.point
    simp only [SynthesisRun.step]
    split
    · rename_i chunk hcall
      split
      · exact hat.publicationFault hcall
      · exact hat
    · exact hat
  | consumer call => exact ⟨trivial, hinv.point⟩

theorem start (request : StreamingRequestState) (leaseIds : LeaseIdSequence) :
    ScheduleInvariant arguments (.start request leaseIds) := ⟨trivial, rfl, rfl⟩

theorem scheduleSafe (hinv : ScheduleInvariant arguments self) : ScheduleSafe self := by
  have hat := hinv.point
  refine ⟨fun exception hexception => ?_, hinv.allowed, fun hreturned => ?_⟩
  · rw [ScheduleAt] at hat
    cases hpoint : self.run.worker.point with
    | settle outcome =>
      rw [hpoint] at hat hexception
      exact hat.2.1 exception hexception
    | failed other =>
      rw [hpoint] at hat hexception
      obtain rfl := Option.some.inj hexception
      exact hat.1
    | _ =>
      rw [hpoint] at hexception
      cases hexception
  · rw [ScheduleAt] at hat
    rw [WorkerState.Returned] at hreturned
    cases hpoint : self.run.worker.point with
    | observeSettled =>
      rw [hpoint] at hat
      exact hat
    | completeCancellation =>
      rw [hpoint] at hat
      exact hat
    | failed exception =>
      rw [hpoint] at hat hreturned
      exact hat.2 hreturned
    | done =>
      rw [hpoint] at hat hreturned
      exact hat hreturned
    | _ =>
      rw [hpoint] at hreturned
      exact hreturned.elim

end ScheduleInvariant

/-- **The schedule of every run is safe.** Whatever the manifest, the request, the diagnostics and
the interleaving with the consumer, the overlap contract is never violated, the batch slots and the
PCM buffer are used in order, and nothing is in flight where the pipeline has returned. -/
theorem scheduleSafe_run (arguments : PipelineArguments) (request : StreamingRequestState)
    (leaseIds : LeaseIdSequence) (actions : List SynthesisAction)
    (houtside : ∀ action ∈ actions, action.Outside) :
    ScheduleSafe (run (ScheduledRun.step arguments) (.start request leaseIds) actions) := by
  have hinv : ScheduleInvariant arguments
      (run (ScheduledRun.step arguments) (.start request leaseIds) actions) :=
    run_induction_of_stepsMeet (fun _ _ hinv houtside => hinv.step houtside)
      (.start request leaseIds) actions
      (stepsMeet_of_forall_mem fun _ action hmem => houtside action hmem)
  exact hinv.scheduleSafe

theorem scheduleSafe_run_ten_tokens :
    ∃ request, StreamingRequestState.construct 10 8 = .ok request ∧
      ScheduleSafe (run (ScheduledRun.step tenTokenArguments) (.start request ⟨1⟩)
        cancelledActions) :=
  ⟨_, rfl, scheduleSafe_run _ _ _ _ (by
    simp [cancelledActions, SynthesisAction.Outside, DeviceFault.Outside])⟩

end MagpieTts.Runtime
