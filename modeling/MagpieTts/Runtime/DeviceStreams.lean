import MagpieTts.Runtime.DeviceComputations

/-!
# What a consumer of a synthesis run reads

A lease points into the pinned samples of the session, which every codec run overwrites. The worker
runs the codec only while no chunk with frames is held, so what a consumer reads behind a lease are
the samples of its chunk for as long as it holds the lease; and those are what the codec computes
from the frames of the recurrence.

## Main definitions

* `ShowsPcm`: the held chunks show their samples.
* `DeviceInvariant`: the invariant of a run with the workspace.

## Main results

* `deviceInvariant_run`: every run has the invariant.
-/

namespace MagpieTts.Runtime

open MagpieTts.Library MagpieTts.Plugins Pipeline

variable {types : SessionTypes}

/-! ### The held chunks -/

namespace RequestHistory

variable {h h' : RequestHistory} {c : RequestCall}

/-- A call holds no new chunk but the one that it publishes. -/
theorem Move.heldAudio_subset (hmove : h.Move c h') {chunk : AudioChunk}
    (hmem : chunk ∈ h'.request.heldAudio) :
    chunk ∈ h.request.heldAudio ∨
      (c = .publish chunk ∧ h'.accepted = h.accepted ++ [chunk]) := by
  have hbumped (s : StreamingRequestState) : s.bumped.heldAudio = s.heldAudio :=
    StreamingRequestState.bumped_induction (P := fun t => t.heldAudio = s.heldAudio) rfl rfl
  rw [StreamingRequestState.heldAudio] at *
  cases hmove with
  | stay => exact Or.inl hmem
  | draw ids hids => exact Or.inl hmem
  | accept accepted hcall hopen hvalid hrevision =>
    rw [← StreamingRequestState.heldAudio, hbumped] at hmem
    simp only [StreamingRequestState.heldAudio, StreamingRequestState.acceptChunk, List.mem_append,
      List.mem_singleton] at hmem
    rcases hmem with (hold | rfl) | hlease
    · exact Or.inl (List.mem_append_left _ hold)
    · exact Or.inr ⟨hcall, rfl⟩
    · exact Or.inl (List.mem_append_right _ hlease)
  | discard after hclears =>
    rw [hclears.emptied.availableAudio_eq, hclears.emptied.liveLeases_eq, List.nil_append] at hmem
    exact Or.inl (List.mem_append_right _ hmem)
  | take first rest views havailable hviews =>
    rw [← StreamingRequestState.heldAudio, hbumped] at hmem
    simp only [StreamingRequestState.heldAudio, StreamingRequestState.leased, List.mem_append,
      List.map_append, List.map_cons, List.map_nil, List.mem_singleton] at hmem
    refine Or.inl ?_
    rw [havailable]
    simp only [List.mem_append, List.mem_cons]
    tauto
  | release found hcall hfind =>
    rw [← StreamingRequestState.heldAudio, hbumped] at hmem
    refine Or.inl ?_
    rcases List.mem_append.mp hmem with hqueue | hlease
    · exact List.mem_append_left _ hqueue
    · refine List.mem_append_right _ ?_
      obtain ⟨lease, hlive, rfl⟩ := List.mem_map.mp hlease
      exact List.mem_map_of_mem (List.mem_of_mem_eraseP hlive)

end RequestHistory

/-- Without frames in the ring, no held chunk has frames. -/
theorem StreamingRequestState.Accounted.frames_eq_zero {request : StreamingRequestState}
    (haccounted : request.Accounted) (hoccupied : request.occupiedCodecFrames = 0)
    {chunk : AudioChunk} (hmem : chunk ∈ request.heldAudio) : chunk.codecFrameCount = 0 := by
  have hsum := haccounted.occupied_eq
  rw [hoccupied, StreamingRequestState.queueFrames, StreamingRequestState.leaseFrames, eq_comm,
    Nat.add_eq_zero_iff] at hsum
  rcases List.mem_append.mp hmem with hqueue | hlease
  · exact List.sum_eq_zero_iff.mp hsum.1 _ (List.mem_map_of_mem hqueue)
  · obtain ⟨lease, hlive, rfl⟩ := List.mem_map.mp hlease
    exact List.sum_eq_zero_iff.mp hsum.2 _
      (List.mem_map_of_mem (f := fun lease => lease.chunk.codecFrameCount) hlive)

/-! ### The copies of samples -/

/-- No command of the list copies samples. -/
def CopiesNothing (commands : List DeviceCommand) : Prop :=
  ∀ sampleCount, .copyPcm sampleCount ∉ commands

section Copies

variable {arguments : PipelineArguments} {Q : WorkerException → Prop} {h : RequestHistory}
  {w : WorkerState} {p : Pipeline} {point : WorkerPoint} {poisoned : Bool}
  {steps : List GenerationStepDiagnostics} {reading : DeviceReading}
  {commands more : List DeviceCommand}

theorem copiesNothing_nil : CopiesNothing [] := fun _ hmem => nomatch hmem

theorem CopiesNothing.append (h : CopiesNothing commands) (h' : CopiesNothing more) :
    CopiesNothing (commands ++ more) := fun sampleCount hmem =>
  (List.mem_append.mp hmem).elim (h sampleCount) (h' sampleCount)

theorem CopiesNothing.take (h : CopiesNothing commands) (enqueued : ℕ) :
    CopiesNothing (commands.take enqueued) := fun sampleCount hmem =>
  h sampleCount (List.mem_of_mem_take hmem)

theorem copiesNothing_localCommands (stepSlot : ℕ) (batchSlot : BatchSlot)
    (aggregateFrameOffset : ℕ) (forbidEos : Bool) :
    CopiesNothing (localCommands stepSlot batchSlot aggregateFrameOffset forbidEos) := by
  intro sampleCount
  rw [localCommands]
  split_ifs <;> simp

theorem copiesNothing_passCommands (batchSlot : BatchSlot) (cache : BufferIndex) (generated : ℕ)
    (stepSlots : List ℕ) : CopiesNothing (passCommands batchSlot cache generated stepSlots) := by
  induction stepSlots generalizing cache generated with
  | nil => exact copiesNothing_nil
  | cons stepSlot rest ih =>
    refine (CopiesNothing.append ?_ (copiesNothing_localCommands _ _ _ _)).append (ih _ _)
    intro sampleCount
    simp [decoderCommands]

theorem copiesNothing_steadyCommands (p : Pipeline) (batchSlot : BatchSlot) :
    CopiesNothing (p.steadyCommands batchSlot) := by
  refine (CopiesNothing.append ?_ (copiesNothing_passCommands _ _ _ _)).append ?_
  · intro sampleCount
    split_ifs <;> simp
  · intro sampleCount
    simp [finishCommands]

theorem copiesNothing_startCommands : CopiesNothing startCommands := by
  intro sampleCount
  simp [startCommands, firstFourCommands, decoderCommands, localCommands, finishCommands, initial]

/-- A member function without a copy. -/
theorem copiesNothing_perform {β : Type} {action : PipelineM β} {continue_ : β → WorkerPoint}
    {returns : β → Pipeline → Prop} {throws : WorkerException → Pipeline → Prop}
    (hmeets : Meets action { p with commands := [] } returns throws)
    (hreturns : ∀ value p', returns value p' → CopiesNothing p'.commands)
    (hthrows : ∀ exception p', throws exception p' → CopiesNothing p'.commands) :
    CopiesNothing
      ((⟨p, point, poisoned⟩ : WorkerState).perform action continue_).pipeline.commands := by
  rcases WorkerState.perform_cases hmeets with
    ⟨value, p', hvalue, hperform⟩ | ⟨exception, p', hexception, hperform⟩
  · rw [hperform]
    exact hreturns value p' hvalue
  · rw [hperform]
    exact hthrows exception p' hexception

/-- **The samples are copied into an empty ring.** A step of the worker copies no samples, or the
request holds no frames. -/
theorem WorkerInvariant.copies (hmanifest : arguments.manifest = acceptedManifest)
    (hinv : WorkerInvariant arguments Q h w steps) :
    CopiesNothing (w.advance arguments reading h.request).pipeline.commands ∨
      h.request.occupiedCodecFrames = 0 := by
  obtain ⟨p, point, poisoned⟩ := w
  have hat := hinv.point
  cases hat with
  | start hinitial =>
    subst hinitial
    rw [WorkerState.advance, WorkerState.perform_of_run_eq (run_start hmanifest)]
    exact Or.inl copiesNothing_startCommands
  | awaitFirst hholds =>
    have hempty := hholds.forget [] p.committedTextTokens
    refine Or.inl (copiesNothing_perform (meets_awaitFirst hmanifest hempty.slots.fillingSlot)
      ?_ ?_)
    · rintro batch p' ⟨rfl, -⟩
      exact copiesNothing_nil
    · rintro exception p' ⟨rfl, -⟩
      exact copiesNothing_nil
  | observeFirst batch hholds hshape hfinal hframes haccepted =>
    exact Or.inr (hinv.stream.occupied_eq_zero haccepted)
  | awaitCodec codec following =>
    refine Or.inl (copiesNothing_perform (meets_awaitCodec codec _ _) ?_ ?_)
    · rintro _ p' rfl
      exact copiesNothing_nil
    · rintro exception p' ⟨rfl, -⟩
      exact copiesNothing_nil
  | observeDecoded codec following hfollowing hholds hcodec hcommitted =>
    exact Or.inr (hholds.idle rfl)
  | observePublished following hfollowing hholds =>
    have hempty := hholds.forget [] p.committedTextTokens
    simp only [WorkerState.advance]
    split_ifs
    · exact Or.inl copiesNothing_nil
    cases following with
    | some pending => exact Or.inl copiesNothing_nil
    | none =>
      have hmeets := (meets_bind (requireSteadyBatchCapacity arguments)
        fun _ => generateSteadyBatch arguments 1).mpr
        ((meets_requireSteadyBatchCapacity (p := { p with commands := [] }) hmanifest).mono
          (fun _ p' h => by
            rw [h.1]
            exact meets_generateSteadyBatch hmanifest (hempty.slots.free 1))
          fun _ _ h => h)
      refine Or.inl (copiesNothing_perform hmeets ?_ ?_)
      · rintro pending p' ⟨-, rfl, -⟩
        exact copiesNothing_steadyCommands _ _
      · rintro exception p' ⟨rfl, -⟩
        exact copiesNothing_nil
  | waiting pending point hpoint =>
    cases point <;> cases hpoint <;> simp only [WorkerState.advance] <;>
      first | (split_ifs <;> exact Or.inl copiesNothing_nil) | skip
    case waiting.readRevision.refl =>
      rw [hinv.stream.invariant.snapshot_eq]
      exact Or.inl copiesNothing_nil
    case waiting.waitForRevision.refl => exact Or.inl copiesNothing_nil
  | awaitGeneration pending hfour hholds => exact Or.inr (hholds.idle rfl)
  | observeGeneration batch hholds => exact Or.inr (hholds.idle rfl)
  | generateFollowing codec hholds => exact Or.inr (hholds.idle rfl)
  | observeZeroFrame batch hholds => exact Or.inr (hholds.idle rfl)
  | observeCapacity pending hfour hholds => exact Or.inr (hholds.idle rfl)
  | settle outcome hsettles =>
    rw [(advance_settle_silent hsettles).1]
    exact Or.inl copiesNothing_nil
  | observeSettled =>
    simp only [WorkerState.advance]
    split_ifs <;> exact Or.inl copiesNothing_nil
  | failed exception =>
    simp only [WorkerState.advance]
    split_ifs <;> exact Or.inl copiesNothing_nil
  | _ => exact Or.inl copiesNothing_nil

end Copies

/-! ### The samples behind the held chunks -/

/-- Each held chunk with frames shows the samples of its place in the stream. -/
def ShowsPcm (recurrence : Recurrence types) (request : StreamingRequestState)
    (workspace : SessionWorkspace types) : Prop :=
  ∀ chunk ∈ request.heldAudio, 0 < chunk.codecFrameCount →
    boundTensor chunk.samples.sampleCount workspace.pinnedPcm =
      recurrence.chunkPcm chunk.sequence chunk.codecFrameCount chunk.final

section Shows

variable {recurrence : Recurrence types} {workspace : SessionWorkspace types}
  {Q : WorkerException → Prop} {h : RequestHistory} {w : WorkerState}
  {steps : List GenerationStepDiagnostics} {trace : SessionTrace types}

/-- Commands that copy no samples, or find the ring empty. -/
theorem ShowsPcm.executeAll (hshows : ShowsPcm recurrence h.request trace.workspace)
    (haccounted : h.request.Accounted) {commands : List DeviceCommand}
    (hcopies : CopiesNothing commands ∨ h.request.occupiedCodecFrames = 0) :
    ShowsPcm recurrence h.request
      (trace.executeAll recurrence.engines recurrence.arguments commands).workspace := by
  intro chunk hmem hpositive
  rcases hcopies with hcopies | hoccupied
  · rw [SessionTrace.pinnedPcm_executeAll trace hcopies]
    exact hshows chunk hmem hpositive
  · rw [haccounted.frames_eq_zero hoccupied hmem] at hpositive
    exact absurd hpositive (Nat.lt_irrefl 0)

/-- A call of the worker. -/
theorem WorkerInvariant.shows_step (hinv : WorkerInvariant recurrence.arguments Q h w steps)
    {call : RequestCall} (hcall : w.point.call = some call)
    (hfollows : DeviceFollows recurrence workspace w h.accepted steps trace)
    (hshows : ShowsPcm recurrence h.request trace.workspace) :
    ShowsPcm recurrence (h.step call).request trace.workspace := by
  intro chunk hmem hpositive
  rcases (hinv.stream.move_step call).heldAudio_subset hmem with hold | ⟨hpublish, -⟩
  · exact hshows chunk hold hpositive
  · obtain ⟨p, point, poisoned⟩ := w
    have hat := hinv.point
    cases hat with
    | publish other codec following hfollowing hholds hcodec hchunk hat =>
      obtain rfl : other = chunk :=
        RequestCall.publish.inj ((Option.some.inj hcall).trans hpublish)
      have hdecoded := (hfollows.computes trivial id).decoding codec rfl
      have hsequence : other.sequence = h.accepted.length :=
        hat.sequence_eq.trans hholds.sequence_eq
      rw [hat.sampleCount_eq, hat.codecFrameCount_eq, hat.final_eq, hsequence]
      exact hdecoded.pcm_eq
    | publishZeroFrame other batch hholds haccepted hchunk hat =>
      obtain rfl : other = chunk :=
        RequestCall.publish.inj ((Option.some.inj hcall).trans hpublish)
      rw [hat.codecFrameCount_eq] at hpositive
      exact absurd hpositive (Nat.lt_irrefl 0)
    | completeCancellation =>
      cases (Option.some.inj hcall).trans hpublish
    | failRequest => cases (Option.some.inj hcall).trans hpublish
    | waiting pending point hpoint =>
      cases point <;> first | (cases hpoint; done) | cases hcall
    | _ => cases hcall

/-- A call of the consumer. -/
theorem StreamInvariant.shows_consumer {arguments : PipelineArguments}
    (hstream : StreamInvariant arguments Q h steps) (call : ConsumerCall)
    (hshows : ShowsPcm recurrence h.request trace.workspace) :
    ShowsPcm recurrence (h.step call.toRequestCall).request trace.workspace := by
  intro chunk hmem hpositive
  rcases (hstream.move_step call.toRequestCall).heldAudio_subset hmem with hold | ⟨hpublish, -⟩
  · exact hshows chunk hold hpositive
  · cases call <;> cases hpublish

end Shows

/-! ### The steps that fail -/

section Fault

variable {recurrence : Recurrence types} {workspace : SessionWorkspace types}
  {Q : WorkerException → Prop} {h : RequestHistory} {w : WorkerState}
  {steps steps' : List GenerationStepDiagnostics} {trace : SessionTrace types}

/-- A step that fails behind a part of its commands. -/
theorem WorkerInvariant.follows_interrupt (hinv : WorkerInvariant recurrence.arguments Q h w steps)
    (hfollows : DeviceFollows recurrence workspace w h.accepted steps trace)
    {reading : DeviceReading}
    (hadvance : ∃ number ≤ 250, (trace.executeAll recurrence.engines recurrence.arguments
      (w.advance recurrence.arguments reading h.request).pipeline.commands).decoderCalls <+:
        recurrence.calls number)
    (enqueued : ℕ) (fault : DeviceFault) :
    DeviceFollows recurrence workspace
      (w.interrupt recurrence.arguments reading h.request enqueued fault) h.accepted (steps ++ [])
      (trace.executeAll recurrence.engines recurrence.arguments
        (w.interrupt recurrence.arguments reading h.request enqueued fault).pipeline.commands) := by
  have hopen := hinv.open_of_works
  have hcalls : ∃ number ≤ 250, (trace.executeAll recurrence.engines recurrence.arguments
      (w.interrupt recurrence.arguments reading h.request enqueued
        fault).pipeline.commands).decoderCalls <+: recurrence.calls number := by
    obtain ⟨number, hle, hprefix⟩ := hadvance
    exact ⟨number, hle, (SessionTrace.decoderCalls_take_prefix trace _ enqueued).trans hprefix⟩
  obtain ⟨p, point, poisoned⟩ := w
  have hat := hinv.point
  -- behind `run_impl` nothing is enqueued
  have hsilent : ∀ {next : WorkerState},
      (WorkerState.advance recurrence.arguments reading h.request
        ⟨p, point, poisoned⟩).pipeline.commands = [] → ¬ point.Works → ¬ next.point.Works →
      next.pipeline.commands = (WorkerState.advance recurrence.arguments reading h.request
        ⟨p, point, poisoned⟩).pipeline.commands.take enqueued →
      DeviceFollows recurrence workspace next h.accepted (steps ++ [])
        (trace.executeAll recurrence.engines recurrence.arguments next.pipeline.commands) := by
    intro next hempty hstopped hstops hcommands
    rw [hcommands, hempty, List.take_nil]
    exact hfollows.rest hstopped hstops
  cases hat with
  | setDevice =>
    cases fault with
    | cuda detail => exact .stop hcalls hfollows.steps_eq (hopen trivial) id
    | _ =>
      rw [List.append_nil]
      simp only [WorkerState.interrupt, WorkerState.advance, WorkerState.goto, List.take_nil]
      exact ⟨fun _ => hfollows.starts trivial, hfollows.steps_eq,
        fun _ hstarts => absurd trivial hstarts, fun hstops => absurd trivial hstops,
        fun hstops => absurd trivial hstops⟩
  | settle outcome hsettles =>
    have hcommands : (WorkerState.advance recurrence.arguments reading h.request
        ⟨p, .settle outcome, poisoned⟩).pipeline.commands = [] :=
      (WorkerInvariant.advance_settle_silent hsettles).1
    cases outcome with
    | none => exact hsilent hcommands id id rfl
    | some exception => exact hsilent hcommands id id rfl
  | observeSettled =>
    refine hsilent ?_ id id rfl
    simp only [WorkerState.advance]
    split_ifs <;> rfl
  | completeCancellation => exact hsilent rfl id id rfl
  | failed exception =>
    refine hsilent ?_ id id rfl
    simp only [WorkerState.advance]
    split_ifs <;> rfl
  | failRequest => exact hsilent rfl id id rfl
  | done => exact hsilent rfl id id rfl
  | waiting pending point hpoint =>
    cases point <;> first
      | cases hpoint; done
      | exact .stop hcalls hfollows.steps_eq (hopen trivial) id
  | _ => exact .stop hcalls hfollows.steps_eq (hopen trivial) id

end Fault

/-! ### Runs -/

/-- The invariant of a run with the workspace. -/
structure DeviceInvariant (recurrence : Recurrence types) (workspace : SessionWorkspace types)
    (device : DeviceRun types) : Prop where
  run : RunInvariant recurrence.arguments WorkerException.Reported device.observation
  follows : DeviceFollows recurrence workspace device.observation.run.worker
    device.observation.run.history.accepted device.observation.steps device.trace
  shows : ShowsPcm recurrence device.observation.run.history.request device.trace.workspace

namespace DeviceInvariant

variable {recurrence : Recurrence types} {workspace : SessionWorkspace types}
  {self : DeviceRun types} {h : RequestHistory} {w : WorkerState}
  {steps : List GenerationStepDiagnostics} {trace : SessionTrace types}

/-- The calls behind a step of the worker are the first of the recurrence. -/
theorem exists_calls_advance (hmanifest : recurrence.arguments.manifest = acceptedManifest)
    (hstale : recurrence = workspace.recurrence recurrence.engines recurrence.arguments)
    (hcontract : rejectsContract recurrence.contract = false)
    (hinv : WorkerInvariant recurrence.arguments WorkerException.Reported h w steps)
    (hfollows : DeviceFollows recurrence workspace w h.accepted steps trace) :
    ∃ number ≤ 250, (trace.executeAll recurrence.engines recurrence.arguments
      (w.advance recurrence.arguments (trace.workspace.reading w.point)
        h.request).pipeline.commands).decoderCalls <+: recurrence.calls number := by
  cases hcall : w.point.call with
  | none =>
    have hnext : WorkerInvariant recurrence.arguments WorkerException.Reported h
        (w.advance recurrence.arguments (trace.workspace.reading w.point) h.request)
        (steps ++ w.point.stepsRead (trace.workspace.reading w.point).diagnostics
          (w.advance recurrence.arguments (trace.workspace.reading w.point) h.request).point) :=
      hinv.advance hmanifest exceptionKind_reported hcall (Or.inr fun _ htyped => htyped.reported)
    exact hnext.exists_calls (hinv.follows_advance hmanifest hcontract hstale hcall hfollows)
  | some call =>
    have hsilent : (w.advance recurrence.arguments (trace.workspace.reading w.point)
        h.request).pipeline.commands = [] := by
      obtain ⟨p, point, poisoned⟩ := w
      cases point <;> first | rfl | cases hcall
    rw [hsilent]
    exact hinv.exists_calls hfollows

variable (hmanifest : recurrence.arguments.manifest = acceptedManifest)
  (hstale : recurrence = workspace.recurrence recurrence.engines recurrence.arguments)
  (hcontract : rejectsContract recurrence.contract = false)

include hmanifest hstale hcontract

/-- A step of the worker. -/
theorem step_worker (hinv : DeviceInvariant recurrence workspace self) :
    DeviceFollows recurrence workspace
        (self.step recurrence.engines recurrence.arguments .worker).observation.run.worker
        (self.step recurrence.engines recurrence.arguments
          .worker).observation.run.history.accepted
        (self.step recurrence.engines recurrence.arguments .worker).observation.steps
        (self.step recurrence.engines recurrence.arguments .worker).trace ∧
      ShowsPcm recurrence
        (self.step recurrence.engines recurrence.arguments .worker).observation.run.history.request
        (self.step recurrence.engines recurrence.arguments .worker).trace.workspace := by
  obtain ⟨⟨⟨history, w⟩, steps⟩, trace⟩ := self
  obtain ⟨⟨h, hworker, hhistory⟩, hfollows, hshows⟩ := hinv
  have hheld : history.accepted = h.accepted ∧
      history.request.heldAudio = h.request.heldAudio := by
    rcases hhistory with rfl | ⟨-, lead, rfl⟩ <;> exact ⟨rfl, rfl⟩
  simp only [DeviceRun.step, DeviceRun.action, DeviceRun.reading, SynthesisObservation.step,
    SynthesisRun.commands, SynthesisRun.step] at *
  rw [hheld.1] at hfollows
  have hshowsIdeal : ShowsPcm recurrence h.request trace.workspace := by
    rw [ShowsPcm, ← hheld.2]
    exact hshows
  cases hcall : w.point.call with
  | some call =>
    have hresume := hworker.follows_resume hcall hfollows (history.call call).1
    rw [← hheld.1] at hresume
    simp only [WorkerInvariant.commands_resume (hcall ▸ Option.some_ne_none call),
      RunInvariant.stepsRead_of_call hcall, SessionTrace.executeAll_nil]
    refine ⟨hresume, ?_⟩
    have hstep := hworker.shows_step hcall hfollows hshowsIdeal
    rcases hhistory with rfl | ⟨hfailing, lead, rfl⟩
    · exact hstep
    · rw [RequestHistory.step_ahead hworker.stream.invariant.accounted (hfailing.seesNoLead hcall)]
      exact hstep
  | none =>
    have hadvance := hworker.follows_advance hmanifest hcontract hstale hcall hfollows
    have hcopies := @WorkerInvariant.copies _ _ _ _ _ (trace.workspace.reading w.point) hmanifest
      hworker
    have hshown := hshowsIdeal.executeAll hworker.stream.invariant.accounted hcopies
    rcases hhistory with rfl | ⟨hfailing, lead, rfl⟩
    · exact ⟨hadvance, hshown⟩
    · simp only [RequestHistory.ahead, hfailing.advance_ahead]
      exact ⟨hadvance, hshown⟩

/-- A step that fails. -/
theorem step_fault (hinv : DeviceInvariant recurrence workspace self) (enqueued : ℕ)
    (fault : DeviceFault) :
    DeviceFollows recurrence workspace
        (self.step recurrence.engines recurrence.arguments
          (.fault enqueued fault)).observation.run.worker
        (self.step recurrence.engines recurrence.arguments
          (.fault enqueued fault)).observation.run.history.accepted
        (self.step recurrence.engines recurrence.arguments
          (.fault enqueued fault)).observation.steps
        (self.step recurrence.engines recurrence.arguments (.fault enqueued fault)).trace ∧
      ShowsPcm recurrence
        (self.step recurrence.engines recurrence.arguments
          (.fault enqueued fault)).observation.run.history.request
        (self.step recurrence.engines recurrence.arguments
          (.fault enqueued fault)).trace.workspace := by
  obtain ⟨⟨⟨history, w⟩, steps⟩, trace⟩ := self
  obtain ⟨⟨h, hworker, hhistory⟩, hfollows, hshows⟩ := hinv
  have hheld : history.accepted = h.accepted ∧
      history.request.heldAudio = h.request.heldAudio := by
    rcases hhistory with rfl | ⟨-, lead, rfl⟩ <;> exact ⟨rfl, rfl⟩
  simp only [DeviceRun.step, DeviceRun.action, DeviceRun.reading, SynthesisObservation.step,
    SynthesisRun.commands, SynthesisRun.step] at *
  rw [hheld.1] at hfollows ⊢
  have hshowsIdeal : ShowsPcm recurrence h.request trace.workspace := by
    rw [ShowsPcm, ← hheld.2]
    exact hshows
  have hadvance := exists_calls_advance hmanifest hstale hcontract hworker hfollows
  have hinterrupt := hworker.follows_interrupt hfollows hadvance enqueued fault
  have hcopies := @WorkerInvariant.copies _ _ _ _ _ (trace.workspace.reading w.point) hmanifest
    hworker
  have hshown := hshowsIdeal.executeAll hworker.stream.invariant.accounted
    (hcopies.imp (·.take enqueued) id)
  rcases hhistory with rfl | ⟨hfailing, lead, rfl⟩
  · exact ⟨hinterrupt, hshown⟩
  · simp only [RequestHistory.ahead, hfailing.interrupt_ahead]
    exact ⟨hinterrupt, hshown⟩

omit hmanifest hstale hcontract in
/-- A publication whose queue cannot grow. -/
theorem step_publicationFault (hinv : DeviceInvariant recurrence workspace self) :
    DeviceFollows recurrence workspace
        (self.observation.step recurrence.arguments .publicationFault).run.worker
        (self.observation.step recurrence.arguments .publicationFault).run.history.accepted
        (self.observation.steps ++ []) self.trace ∧
      ShowsPcm recurrence
        (self.observation.step recurrence.arguments .publicationFault).run.history.request
        self.trace.workspace := by
  obtain ⟨⟨⟨history, w⟩, steps⟩, trace⟩ := self
  obtain ⟨⟨h, hworker, hhistory⟩, hfollows, hshows⟩ := hinv
  have haccepted : history.accepted = h.accepted := by
    rcases hhistory with rfl | ⟨-, lead, rfl⟩ <;> rfl
  simp only [SynthesisObservation.step, SynthesisRun.step] at *
  split
  · rename_i chunk hcall
    split
    · rename_i request hresult
      have hworks : w.point.Works := by
        cases hpoint : w.point <;> rw [hpoint] at hcall <;> first | trivial | cases hcall
      rcases hhistory with rfl | ⟨hfailing, -⟩
      · have haccounted := hworker.stream.invariant.accounted
        obtain ⟨lead, rfl⟩ := StreamingRequestState.publishAllocating_eq_ahead haccounted hresult
        exact ⟨.stop (hworker.exists_calls hfollows) hfollows.steps_eq
          (hworker.open_of_works hworks) id, hshows⟩
      · exact (hfailing.seesNoLead hcall).elim
    · rw [List.append_nil]
      exact ⟨hfollows, hshows⟩
  · rw [List.append_nil]
    exact ⟨hfollows, hshows⟩

omit hmanifest hstale hcontract in
/-- A call of the consumer. -/
theorem step_consumer (hinv : DeviceInvariant recurrence workspace self) (call : ConsumerCall) :
    DeviceFollows recurrence workspace self.observation.run.worker
        (self.observation.run.history.step call.toRequestCall).accepted self.observation.steps
        self.trace ∧
      ShowsPcm recurrence (self.observation.run.history.step call.toRequestCall).request
        self.trace.workspace := by
  obtain ⟨⟨⟨history, w⟩, steps⟩, trace⟩ := self
  obtain ⟨⟨h, hworker, hhistory⟩, hfollows, hshows⟩ := hinv
  have haccepted : (history.step call.toRequestCall).accepted = history.accepted := by
    cases call <;> exact List.append_nil _
  simp only at *
  rw [haccepted]
  refine ⟨hfollows, ?_⟩
  rcases hhistory with rfl | ⟨-, lead, rfl⟩
  · exact hworker.stream.shows_consumer call hshows
  · have hlead : RequestHistory.SeesNoLead call.toRequestCall := by cases call <;> trivial
    rw [RequestHistory.step_ahead hworker.stream.invariant.accounted hlead]
    exact hworker.stream.shows_consumer call hshows

/-- **Every step keeps the invariant.** -/
theorem step (hinv : DeviceInvariant recurrence workspace self) {action : DeviceAction}
    (hreported : action.Reported) :
    DeviceInvariant recurrence workspace
      (self.step recurrence.engines recurrence.arguments action) := by
  have hrun := hinv.run.step hmanifest exceptionKind_reported
    ((hreported.action self).blames self.observation)
  cases action with
  | worker =>
    have hstep := step_worker hmanifest hstale hcontract hinv
    exact ⟨hrun, hstep.1, hstep.2⟩
  | fault enqueued fault =>
    have hstep := step_fault hmanifest hstale hcontract hinv enqueued fault
    exact ⟨hrun, hstep.1, hstep.2⟩
  | publicationFault =>
    have hstep := step_publicationFault hinv
    exact ⟨hrun, hstep.1, hstep.2⟩
  | consumer call =>
    have hstep := step_consumer hinv call
    refine ⟨hrun, ?_, hstep.2⟩
    have hsteps : (self.step recurrence.engines recurrence.arguments
        (.consumer call)).observation.steps = self.observation.steps := List.append_nil _
    rw [hsteps]
    exact hstep.1

omit hstale hcontract in
theorem start {request : StreamingRequestState}
    (hrequest : StreamingRequestState.construct recurrence.arguments.textTokenIds.length
      recurrence.arguments.manifest.limits.pcmRingCapacityFrames = .ok request)
    (leaseIds : LeaseIdSequence) :
    DeviceInvariant recurrence workspace (.start request leaseIds workspace) where
  run := .start hmanifest hrequest leaseIds
  follows :=
    { starts := fun _ => rfl
      steps_eq := rfl
      computes := fun _ hstarts => absurd trivial hstarts
      calls := fun hstops => absurd trivial hstops
      settled := fun hstops => absurd trivial hstops }
  shows := by
    intro chunk hmem
    rw [StreamingRequestState.construct] at hrequest
    split_ifs at hrequest
    rw [← Except.ok.inj hrequest] at hmem
    cases hmem

end DeviceInvariant

/-- **Every run has the invariant**, whatever the buffers held before the request. -/
theorem deviceInvariant_run (engines : SessionEngines types) {arguments : PipelineArguments}
    (hmanifest : arguments.manifest = acceptedManifest)
    (hcontract : rejectsContract (arguments.manifest.alignment.kernelContract
      arguments.textTokenIds.length) = false) {request : StreamingRequestState}
    (hrequest : StreamingRequestState.construct arguments.textTokenIds.length
      arguments.manifest.limits.pcmRingCapacityFrames = .ok request) (leaseIds : LeaseIdSequence)
    (workspace : SessionWorkspace types) (actions : List DeviceAction)
    (hreported : ∀ action ∈ actions, action.Reported) :
    DeviceInvariant (workspace.recurrence engines arguments) workspace
      (run (DeviceRun.step engines arguments) (.start request leaseIds workspace) actions) := by
  refine run_induction_of_stepsMeet (C := fun _ action => action.Reported)
    (fun self action hinv hreported => ?_) ?_ actions
    (stepsMeet_of_forall_mem fun _ action hmem => hreported action hmem)
  · have hstep := @DeviceInvariant.step _ (workspace.recurrence engines arguments) workspace self
      hmanifest rfl hcontract hinv action hreported
    exact hstep
  · exact .start hmanifest hrequest leaseIds

end MagpieTts.Runtime
