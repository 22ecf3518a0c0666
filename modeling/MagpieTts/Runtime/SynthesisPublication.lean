import MagpieTts.Runtime.SynthesisRuns

/-!
# What a synthesis run publishes, and how it ends

In every run of the worker, with any failures of the device and any calls of the consumer, what the
worker publishes is accepted, the accepted chunks are the stream of the retained frames, and the
worker leaves its request in a terminal state.

## Main definitions

* `DeviceFault.Reported`: a failure with a text.
* `PublishesStream`: what holds of the publications of a run.
* `EndsTerminal`: what holds of the end of a run.

## Main results

* `publishesStream_run`, `endsTerminal_run`: both hold in every state of every run.
-/

namespace MagpieTts.Runtime

open MagpieTts.Library

/-- A failure with a text. -/
def DeviceFault.Reported : DeviceFault → Prop
  | cuda detail => detail ≠ ""
  | standard what => what ≠ ""
  | _ => True

/-- The failures of an action have texts. -/
def SynthesisAction.Reported : SynthesisAction → Prop
  | .fault _ _ failure => failure.Reported
  | _ => True

theorem DeviceFault.Reported.exception {fault : DeviceFault} (h : fault.Reported) :
    fault.exception.Reported := by
  cases fault with
  | cuda detail => exact WorkerException.reported_synthesis _ _
  | synthesis code detail => exact WorkerException.reported_synthesis _ _
  | allocation => exact WorkerException.reported_badAlloc
  | standard what => exact h
  | nonStandard => exact WorkerException.reported_nonStandard

theorem exceptionKind_reported : ExceptionKind WorkerException.Reported where
  reported := fun _ => id
  exhausted := WorkerException.reported_synthesis _

variable {arguments : PipelineArguments} {request : StreamingRequestState}

/-- A failure with a text is blamed on the device. -/
theorem SynthesisAction.Reported.blames {action : SynthesisAction} (hreported : action.Reported)
    (observation : SynthesisObservation) :
    observation.Blames arguments WorkerException.Reported action := by
  cases action with
  | worker reading => exact Or.inr fun _ htyped => htyped.reported
  | fault reading enqueued fault =>
    refine ⟨DeviceFault.Reported.exception hreported, fun detail hcuda => ?_⟩
    rw [hcuda] at hreported
    exact hreported
  | publicationFault => exact WorkerException.reported_badAlloc
  | consumer call => trivial

/-- Every run in which the failures have texts has the invariant. -/
theorem runInvariant_of_reported (hmanifest : arguments.manifest = acceptedManifest)
    (hrequest : StreamingRequestState.construct arguments.textTokenIds.length
      arguments.manifest.limits.pcmRingCapacityFrames = .ok request) (leaseIds : LeaseIdSequence)
    {actions : List SynthesisAction} (hreported : ∀ action ∈ actions, action.Reported) :
    RunInvariant arguments WorkerException.Reported
      (run (SynthesisObservation.step arguments) (.start request leaseIds) actions) :=
  runInvariant_run hmanifest exceptionKind_reported hrequest leaseIds actions
    (stepsMeet_of_forall_mem fun observation action hmem =>
      (hreported action hmem).blames observation)

/-! ### The publications of a run -/

/-- What the worker offers to its request is valid, and the request accepts it or answers that it is
cancelled; the accepted chunks continue each other, and have the retained frames once the request is
completed; and at its end the request is completed, cancelled or failed. -/
structure PublishesStream (observation : SynthesisObservation) : Prop where
  offered : ∀ chunk, observation.run.worker.point.call = some (.publish chunk) →
    observation.run.history.request.validateChunk chunk = .ok () ∧
      ∃ accepted, (observation.run.history.call (.publish chunk)).1 = .published accepted
  contiguous : ∀ k chunk, observation.run.history.accepted[k]? = some chunk →
    RequestHistory.ContinuesStream observation.run.history.accepted k chunk
  frames_le : publishedFrames observation.run.history.accepted ≤ retainedFrames observation.steps
  open_of : observation.run.history.request.state ≠ .completed →
    ∀ chunk ∈ observation.run.history.accepted, chunk.final = false
  complete : observation.run.history.request.state = .completed →
    StreamComplete observation.run.history.accepted observation.steps
  ends : observation.run.worker.point = .done → observation.run.history.request.state ≠ .running

theorem RunInvariant.publishesStream {Q : WorkerException → Prop} (hQ : ExceptionKind Q)
    {self : SynthesisObservation} (hinv : RunInvariant arguments Q self) :
    PublishesStream self := by
  obtain ⟨⟨history, w⟩, steps⟩ := self
  obtain ⟨h, hworker, hhistory⟩ := hinv
  simp only at hworker hhistory
  have hstream := hworker.stream
  -- the observer of the request sees the same with a lead
  have hsame : history.accepted = h.accepted ∧ history.request.state = h.request.state := by
    rcases hhistory with rfl | ⟨-, lead, rfl⟩ <;> exact ⟨rfl, rfl⟩
  refine
    { offered := fun chunk hcall => ?_
      contiguous := ?_
      frames_le := ?_
      open_of := ?_
      complete := ?_
      ends := fun hdone => ?_ }
  · rcases hhistory with rfl | ⟨hfailing, -⟩
    · obtain ⟨hvalid, hreply⟩ := (hworker.resume hQ hcall).1 chunk rfl
      exact ⟨StreamingRequestState.validateChunk_eq_ok_iff.mpr hvalid, hreply⟩
    · exact (hfailing.seesNoLead hcall).elim
  · rw [hsame.1]
    exact hstream.invariant.stream
  · rw [hsame.1]
    exact hstream.frames_le
  · rw [hsame.1, hsame.2]
    exact hstream.open_of
  · rw [hsame.1, hsame.2]
    exact hstream.completed
  · rw [hsame.2]
    obtain ⟨p, point, poisoned⟩ := w
    have hat := hworker.point
    cases hdone
    cases hat with
    | done hterminal => exact hterminal
    | waiting pending point hpoint => cases hpoint

/-- **What a run publishes.** In every state of every run, the chunks that the worker publishes are
accepted and are the stream of the retained frames. -/
theorem publishesStream_run (hmanifest : arguments.manifest = acceptedManifest)
    (hrequest : StreamingRequestState.construct arguments.textTokenIds.length
      arguments.manifest.limits.pcmRingCapacityFrames = .ok request) (leaseIds : LeaseIdSequence)
    (actions : List SynthesisAction) (hreported : ∀ action ∈ actions, action.Reported) :
    PublishesStream
      (run (SynthesisObservation.step arguments) (.start request leaseIds) actions) :=
  (runInvariant_of_reported hmanifest hrequest leaseIds hreported).publishesStream
    exceptionKind_reported

/-- The arguments of a request with ten text tokens. -/
def tenTokenArguments : PipelineArguments where
  manifest := acceptedManifest
  pinnedPcm := ⟨64, by decide, by decide⟩
  textTokenIds := [2001, 5, 6, 7, 8, 9, 10, 11, 12, 2002]
  randomSeed := 1

/-- A record of two steps at the head of the text. -/
def twoStepReading : DeviceReading where
  diagnostics :=
    { stepCount := 2
      mainDecoderExecutionStatus := 0
      steps := fun step => if step < 2 then ⟨step, 0, 0, -1, 0⟩ else .unused }
  validSampleLength := 4096
  pcmFinite := true

/-- A run with one published chunk, which is cancelled and then fails. -/
def cancelledActions : List SynthesisAction :=
  List.replicate 8 (.worker twoStepReading) ++
    [.consumer .acquireAudio, .consumer .requestCancellation,
      .fault twoStepReading 0 (.cuda "driver shutting down")] ++
    List.replicate 3 (.worker twoStepReading)

theorem reported_cancelledActions : ∀ action ∈ cancelledActions, action.Reported := by
  simp [cancelledActions, SynthesisAction.Reported, DeviceFault.Reported]

/-- The request of `tenTokenArguments`. -/
def tenTokenRequest : StreamingRequestState :=
  (StreamingRequestState.construct 10 8).toOption.get rfl

/-- The state behind `cancelledActions`. -/
def cancelledRun : SynthesisObservation :=
  run (SynthesisObservation.step tenTokenArguments) (.start tenTokenRequest ⟨1⟩) cancelledActions

theorem accepted_cancelledRun : cancelledRun.run.history.accepted.length = 1 := by
  decide +kernel

theorem done_cancelledRun : cancelledRun.run.worker.point = .done := rfl

theorem publishesStream_run_ten_tokens :
    PublishesStream cancelledRun ∧ cancelledRun.run.history.accepted.length = 1 ∧
      cancelledRun.run.worker.point = .done :=
  ⟨publishesStream_run rfl rfl ⟨1⟩ _ reported_cancelledActions, accepted_cancelledRun,
    done_cancelledRun⟩

/-! ### The cancellation of a run -/

namespace RequestSystem

open StreamingRequestState

theorem discardUnleasedAudio_cancellationRequested (request : StreamingRequestState) :
    request.discardUnleasedAudio.2.cancellationRequested = request.cancellationRequested := by
  rw [discardUnleasedAudio]
  split <;> rfl

theorem incrementRevision_cancellationRequested {β : Type} (request : StreamingRequestState)
    (value : β) :
    (request.incrementRevision value).2.cancellationRequested = request.cancellationRequested := by
  rw [incrementRevision_snd, RequestHistory.bumped_cancellationRequested]

theorem completeCancellation_cancellationRequested (request : StreamingRequestState) :
    request.completeCancellation.2.cancellationRequested = request.cancellationRequested := by
  have hdiscard := discardUnleasedAudio_cancellationRequested request
  rw [completeCancellation]
  split_ifs
  · rfl
  · split <;> rename_i hresult <;> rw [hresult] at hdiscard <;> exact hdiscard

theorem publishAllocating_cancellationRequested (request : StreamingRequestState)
    (fails : AllocationPoint → Bool) (chunk : AudioChunk) :
    (request.publishAllocating fails chunk).2.cancellationRequested =
      request.cancellationRequested := by
  by_cases hcancelled : request.cancellationRequested = true
  · rw [publishAllocating_of_cancelled hcancelled]
  rw [Bool.not_eq_true] at hcancelled
  by_cases hvalid : request.ValidChunk chunk
  · rw [publishAllocating_of_valid hcancelled hvalid]
    split_ifs
    · rfl
    · exact incrementRevision_cancellationRequested _ _
  · obtain ⟨error, -, hallocating⟩ := publishAllocating_of_not_valid hcancelled hvalid
    rw [hallocating]

/-- Only `request_cancellation` closes the publication. -/
theorem step_cancellationRequested (s : RequestSystem) {c : RequestCall}
    (hc : c ≠ .requestCancellation) :
    (s.step c).request.cancellationRequested = s.request.cancellationRequested := by
  simp only [RequestSystem.step]
  cases c with
  | publish chunk =>
    by_cases hcancelled : s.request.cancellationRequested = true
    · simp only [call, publish_of_cancelled hcancelled]
    rw [Bool.not_eq_true] at hcancelled
    by_cases hvalid : s.request.ValidChunk chunk
    · simp only [call, publish_of_valid hcancelled hvalid]
      exact incrementRevision_cancellationRequested _ _
    · obtain ⟨error, hpublish⟩ := publish_of_not_valid hcancelled hvalid
      simp only [call, hpublish]
  | discardUnleasedAudio => exact discardUnleasedAudio_cancellationRequested _
  | requestCancellation => exact absurd rfl hc
  | completeCancellation => exact completeCancellation_cancellationRequested _
  | completeCancellationAfterDrain =>
    have hcomplete := completeCancellation_cancellationRequested s.request
    simp only [call, completeCancellationAfterDrain]
    split_ifs
    · rfl
    · split <;> rename_i hresult <;> rw [hresult] at hcomplete
      · exact hcomplete
      · exact (incrementRevision_cancellationRequested _ _).trans hcomplete
  | fail status stage message =>
    have hdiscard := discardUnleasedAudio_cancellationRequested s.request
    simp only [call, fail]
    split_ifs
    · rfl
    · rfl
    · split <;> rename_i hresult <;> rw [hresult] at hdiscard
      · exact hdiscard
      · exact (incrementRevision_cancellationRequested _ _).trans hdiscard
  | acquireAudio =>
    simp only [call, acquireAudio]
    cases s.request.availableAudio with
    | nil => rfl
    | cons chunk rest =>
      rcases s.leaseIds.acquire with ⟨error | leaseId, ids⟩
      · rfl
      · simp only
        split_ifs
        · rfl
        · exact incrementRevision_cancellationRequested _ _
  | releaseAudio leaseId =>
    simp only [call, releaseAudio]
    cases s.request.liveLeases.find? fun lease => lease.leaseId = leaseId with
    | none => rfl
    | some found =>
      simp only
      split_ifs
      · rfl
      · exact incrementRevision_cancellationRequested _ _
  | drawElsewhere => rfl

end RequestSystem

/-- A call of the consumer whose cancellation is accepted. -/
def AcceptsCancellation (self : SynthesisObservation) (action : SynthesisAction) : Prop :=
  action = .consumer .requestCancellation ∧
    (self.run.history.call .requestCancellation).1 = .cancellation true

/-- The cancellation that closes a publication is accepted. -/
theorem StreamInvariant.requestCancellation {Q : WorkerException → Prop} {h : RequestHistory}
    {steps : List GenerationStepDiagnostics} (hstream : StreamInvariant arguments Q h steps)
    (hopen : h.request.cancellationRequested = false)
    (hclosed : (h.step .requestCancellation).request.cancellationRequested = true) :
    (h.call .requestCancellation).1 = .cancellation true := by
  by_cases hrunning : h.request.state = .running
  · have hrevision : h.request.cancelRequested.revision ≠ maximumUint64 := hstream.revision_ne
    simp only [RequestSystem.call, StreamingRequestState.requestCancellation_of_open
      hstream.invariant.accounted hrunning hopen,
      StreamingRequestState.incrementRevision_of_lt hrevision, RequestReply.of]
  · simp only [RequestHistory.step, RequestSystem.step, RequestSystem.call,
      StreamingRequestState.requestCancellation_of_ne hrunning] at hclosed
    rw [hopen] at hclosed
    cases hclosed

namespace RunInvariant

variable {Q : WorkerException → Prop} {self : SynthesisObservation}

/-- The step that closes the publication accepts a cancellation. -/
theorem acceptsCancellation (hinv : RunInvariant arguments Q self) {action : SynthesisAction}
    (hopen : self.run.history.request.cancellationRequested = false)
    (hclosed : (self.step arguments action).run.history.request.cancellationRequested = true) :
    AcceptsCancellation self action := by
  obtain ⟨⟨history, w⟩, steps⟩ := self
  -- a step that keeps the flag does not close the publication
  have habsurd : ∀ request : StreamingRequestState,
      request.cancellationRequested = history.request.cancellationRequested →
      request.cancellationRequested = true → False := by
    intro request hkept hflag
    rw [hkept, hopen] at hflag
    cases hflag
  cases action with
  | worker reading =>
    simp only [SynthesisObservation.step, SynthesisRun.step] at hclosed
    cases hcall : w.point.call with
    | none =>
      rw [hcall] at hclosed
      exact (habsurd _ rfl hclosed).elim
    | some call =>
      rw [hcall] at hclosed
      refine (habsurd _ (RequestSystem.step_cancellationRequested _ ?_) hclosed).elim
      rintro rfl
      cases hpoint : w.point <;> rw [hpoint] at hcall <;> cases hcall
  | fault reading enqueued fault => exact (habsurd _ rfl hclosed).elim
  | publicationFault =>
    simp only [SynthesisObservation.step, SynthesisRun.step] at hclosed
    cases hcall : w.point.call with
    | none =>
      rw [hcall] at hclosed
      exact (habsurd _ rfl hclosed).elim
    | some call =>
      rw [hcall] at hclosed
      cases call with
      | publish chunk =>
        have hkept := RequestSystem.publishAllocating_cancellationRequested history.request
          (fun point => point = .queueNode) chunk
        simp only at hclosed
        split at hclosed
        · rename_i request hresult
          rw [hresult] at hkept
          exact (habsurd _ hkept hclosed).elim
        · exact (habsurd _ rfl hclosed).elim
      | _ => exact (habsurd _ rfl hclosed).elim
  | consumer call =>
    obtain ⟨h, hworker, hhistory⟩ := hinv
    have hstream := hworker.stream
    cases call with
    | requestCancellation =>
      refine ⟨rfl, ?_⟩
      rcases hhistory with rfl | ⟨-, lead, rfl⟩
      · exact hstream.requestCancellation hopen hclosed
      · have hcall : (h.ahead lead).call .requestCancellation = _ :=
          RequestHistory.call_ahead hstream.invariant.accounted trivial
        have hstep : (h.ahead lead).step .requestCancellation = _ :=
          RequestHistory.step_ahead hstream.invariant.accounted trivial
        change ((h.ahead lead).step .requestCancellation).request.cancellationRequested = true
          at hclosed
        rw [hstep] at hclosed
        rw [hcall]
        exact hstream.requestCancellation hopen hclosed
    | _ =>
      refine (habsurd _ (RequestSystem.step_cancellationRequested _ ?_) hclosed).elim
      exact RequestCall.noConfusion

end RunInvariant

/-! ### The end of a run -/

/-- What holds of the end of a run: where the worker returns, its request is terminal; a completed
request has published a final chunk; and the worker moves its request to a terminal state only while
it runs, and no such call throws. -/
structure EndsTerminal (observation : SynthesisObservation) : Prop where
  terminal : observation.run.worker.point = .done →
    observation.run.history.request.state = .completed ∨
      observation.run.history.request.state = .cancelled ∨
      observation.run.history.request.state = .failed
  completed : observation.run.history.request.state = .completed →
    ∃ chunk ∈ observation.run.history.accepted, chunk.final = true
  transitions : ∀ call, observation.run.worker.point.call = some call →
    observation.run.history.request.state = .running ∧
      ∀ error, (observation.run.history.call call).1 ≠ .error error

/-- The calls of the worker find a running request, and do not throw. -/
theorem WorkerInvariant.transitions {Q : WorkerException → Prop} (hQ : ExceptionKind Q)
    {h : RequestHistory} {w : WorkerState} {steps : List GenerationStepDiagnostics}
    (hinv : WorkerInvariant arguments Q h w steps) {call : RequestCall}
    (hcall : w.point.call = some call) :
    h.request.state = .running ∧ ∀ error, (h.call call).1 ≠ .error error := by
  have hoffered := (hinv.resume hQ hcall).1
  have hpublish : ∀ chunk, call = .publish chunk → ∀ error, (h.call call).1 ≠ .error error := by
    intro chunk hchunk error herror
    obtain ⟨accepted, haccepted⟩ := (hoffered chunk hchunk).2
    rw [haccepted] at herror
    cases herror
  obtain ⟨p, point, poisoned⟩ := w
  have hat := hinv.point
  cases hat with
  | publish chunk codec following hfollowing hholds =>
    exact ⟨hholds.running, hpublish chunk (Option.some.inj hcall).symm⟩
  | publishZeroFrame chunk batch hholds =>
    exact ⟨hholds.running, hpublish chunk (Option.some.inj hcall).symm⟩
  | completeCancellation hrunning hcancelled =>
    obtain rfl := Option.some.inj hcall
    refine ⟨hrunning, fun error herror => ?_⟩
    rw [(hinv.stream.completeCancellationAfterDrain hrunning hcancelled).1] at herror
    cases herror
  | failRequest exception hexception hrunning =>
    obtain rfl := Option.some.inj hcall
    refine ⟨hrunning, fun error herror => ?_⟩
    rw [(hinv.stream.fail hexception hrunning
      (hQ.reported exception hexception).messageBytes_ne_nil).1] at herror
    cases herror
  | waiting pending point hpoint => cases point <;> first | (cases hpoint; done) | cases hcall
  | _ => cases hcall

theorem RunInvariant.endsTerminal {Q : WorkerException → Prop} (hQ : ExceptionKind Q)
    {self : SynthesisObservation} (hinv : RunInvariant arguments Q self) : EndsTerminal self := by
  have hpublishes := hinv.publishesStream hQ
  refine ⟨fun hdone => ?_, fun hcompleted => ?_, fun call hcall => ?_⟩
  · have hterminal := hpublishes.ends hdone
    cases hstate : self.run.history.request.state with
    | running => exact absurd hstate hterminal
    | completed => exact Or.inl rfl
    | cancelled => exact Or.inr (Or.inl rfl)
    | failed => exact Or.inr (Or.inr rfl)
  · obtain ⟨earlier, last, haccepted, hlast, -⟩ := (hpublishes.complete hcompleted).last
    exact ⟨last, by rw [haccepted]; exact List.mem_append_right _ (List.mem_singleton.mpr rfl),
      hlast⟩
  · obtain ⟨⟨history, w⟩, steps⟩ := self
    obtain ⟨h, hworker, hhistory⟩ := hinv
    have htransitions := hworker.transitions hQ hcall
    rcases hhistory with rfl | ⟨hfailing, lead, rfl⟩
    · exact htransitions
    · have hreply : ((h.ahead lead).call call).1 = (h.call call).1 := by
        rw [RequestHistory.call_ahead hworker.stream.invariant.accounted
          (hfailing.seesNoLead hcall)]
      refine ⟨htransitions.1, fun error => ?_⟩
      rw [hreply]
      exact htransitions.2 error

/-- A cancelled request has closed its publication. -/
theorem RunInvariant.cancellationRequested {Q : WorkerException → Prop}
    {self : SynthesisObservation} (hinv : RunInvariant arguments Q self)
    (hcancelled : self.run.history.request.state = .cancelled) :
    self.run.history.request.cancellationRequested = true := by
  obtain ⟨⟨history, w⟩, steps⟩ := self
  obtain ⟨h, hworker, rfl | ⟨-, lead, rfl⟩⟩ := hinv
  · exact hworker.stream.cancelled hcancelled
  · exact hworker.stream.cancelled hcancelled

/-- **How a run ends.** In every state of every run, the worker has left its request terminal if it
has returned, and a cancelled request has accepted a cancellation of its consumer. -/
theorem endsTerminal_run (hmanifest : arguments.manifest = acceptedManifest)
    (hrequest : StreamingRequestState.construct arguments.textTokenIds.length
      arguments.manifest.limits.pcmRingCapacityFrames = .ok request) (leaseIds : LeaseIdSequence)
    (actions : List SynthesisAction) (hreported : ∀ action ∈ actions, action.Reported) :
    EndsTerminal (run (SynthesisObservation.step arguments) (.start request leaseIds) actions) ∧
      ((run (SynthesisObservation.step arguments) (.start request leaseIds)
          actions).run.history.request.state = .cancelled →
        ∃ i, ∃ hi : i < actions.length,
          AcceptsCancellation (run (SynthesisObservation.step arguments) (.start request leaseIds)
            (actions.take i)) actions[i]) := by
  have hinv := runInvariant_of_reported hmanifest hrequest leaseIds hreported
  refine ⟨hinv.endsTerminal exceptionKind_reported, fun hcancelled => ?_⟩
  have hstart :
      ¬ (SynthesisObservation.start request leaseIds).run.history.request.cancellationRequested =
      true := by
    rw [StreamingRequestState.construct] at hrequest
    split_ifs at hrequest
    rw [← Except.ok.inj hrequest]
    exact Bool.false_ne_true
  obtain ⟨i, hi, hopen, hclosed⟩ := exists_step_of_run
    (P := fun self : SynthesisObservation => self.run.history.request.cancellationRequested = true)
    hstart actions (hinv.cancellationRequested hcancelled)
  have hprefix : ∀ action ∈ actions.take i, action.Reported :=
    fun action hmem => hreported action (List.mem_of_mem_take hmem)
  exact ⟨i, hi, (runInvariant_of_reported hmanifest hrequest leaseIds hprefix).acceptsCancellation
    (Bool.eq_false_iff.mpr hopen) hclosed⟩

theorem endsTerminal_run_ten_tokens :
    EndsTerminal cancelledRun ∧ cancelledRun.run.history.accepted.length = 1 ∧
      cancelledRun.run.worker.point = .done ∧
      cancelledRun.run.history.request.state = .failed :=
  ⟨(endsTerminal_run rfl rfl ⟨1⟩ _ reported_cancelledActions).1, accepted_cancelledRun,
    done_cancelledRun, by decide +kernel⟩

end MagpieTts.Runtime
