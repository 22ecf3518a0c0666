import MagpieTts.Runtime.DevicePublication

/-!
# What a consumer has read

A consumer that reads the samples behind every lease when it is given the lease, and keeps them.
What it has read in a run are the samples of the chunks that it was given, in the order of the
stream.

## Main definitions

* `DeviceRun.listen`: the samples behind the lease that a call gives.
* `ListenedRun`: a run, and the samples that the consumer has read in it.

## Main results

* `listenedInvariant_run`: they are the samples of the chunks that were leased.
-/

namespace MagpieTts.Runtime

open MagpieTts.Library MagpieTts.Plugins Pipeline

variable {types : SessionTypes}

/-- The samples behind the lease that a call of the consumer gives it. -/
def DeviceRun.listen (self : DeviceRun types) : DeviceAction → List types.Sample
  | .consumer call =>
    (RequestHistory.returnedBy (self.observation.run.history.call call.toRequestCall).1).flatMap
      fun view => boundTensor view.sampleCount self.trace.workspace.pinnedPcm
  | _ => []

structure ListenedRun (types : SessionTypes) where
  device : DeviceRun types
  heard : List types.Sample

namespace ListenedRun

def start (request : StreamingRequestState) (leaseIds : LeaseIdSequence)
    (workspace : SessionWorkspace types) : ListenedRun types where
  device := .start request leaseIds workspace
  heard := []

def step (engines : SessionEngines types) (arguments : PipelineArguments)
    (self : ListenedRun types) (action : DeviceAction) : ListenedRun types where
  device := self.device.step engines arguments action
  heard := self.heard ++ self.device.listen action

/-- The run does not notice who listens. -/
theorem run_device (engines : SessionEngines types) (arguments : PipelineArguments)
    (self : ListenedRun types) (actions : List DeviceAction) :
    (run (step engines arguments) self actions).device =
      run (DeviceRun.step engines arguments) self.device actions := by
  induction actions generalizing self with
  | nil => rfl
  | cons action rest ih => exact ih (self.step engines arguments action)

end ListenedRun

/-! ### The leases of a step -/

/-- Only `acquire_audio` gives a lease. -/
theorem RequestHistory.Move.taken_eq {h h' : RequestHistory} {c : RequestCall}
    (hmove : h.Move c h') :
    h'.taken = h.taken ∨ ∃ chunk rest leaseId, h.request.availableAudio = chunk :: rest ∧
      h'.taken = h.taken ++ [⟨leaseId, chunk⟩] := by
  cases hmove with
  | take chunk rest views havailable hviews => exact Or.inr ⟨chunk, rest, _, havailable, rfl⟩
  | _ => exact Or.inl rfl

/-- The worker leases nothing. -/
theorem SynthesisRun.taken_step {arguments : PipelineArguments} (self : SynthesisRun)
    {action : SynthesisAction} (hworker : ∀ call, action ≠ .consumer call) :
    (self.step arguments action).history.taken = self.history.taken := by
  cases action with
  | worker reading =>
    rw [step]
    cases hcall : self.worker.point.call with
    | none => rfl
    | some call =>
      have htaken : RequestHistory.takenBy self.history.request (self.history.call call).2.request
          call = [] := by
        cases hpoint : self.worker.point <;> rw [hpoint] at hcall <;> cases hcall <;> rfl
      show self.history.taken ++ _ = _
      rw [htaken, List.append_nil]
  | fault reading enqueued fault => rfl
  | publicationFault =>
    rw [step]
    split
    · split <;> rfl
    · rfl
  | consumer call => exact absurd rfl (hworker call)

section Runs

variable {recurrence : Recurrence types} {workspace : SessionWorkspace types}
  {arguments : PipelineArguments} {Q : WorkerException → Prop}

/-- The views that were returned are those of the leases. -/
theorem RunInvariant.returned_eq {self : SynthesisObservation}
    (hinv : RunInvariant arguments Q self) :
    self.run.history.returned = self.run.history.taken.map StoredLease.view := by
  obtain ⟨h, hworker, hhistory⟩ := hinv
  have horderly := hworker.stream.orderly.returned_eq
  rcases hhistory with hhistory | ⟨-, lead, hhistory⟩
  · rw [hhistory]
    exact horderly
  · rw [hhistory]
    exact horderly

/-- A call of the consumer leases the next chunk of the stream or nothing. -/
theorem RunInvariant.taken_step {self : SynthesisObservation}
    (hinv : RunInvariant arguments Q self) (call : ConsumerCall) :
    (self.run.history.step call.toRequestCall).taken = self.run.history.taken ∨
      ∃ chunk leaseId, chunk ∈ self.run.history.request.heldAudio ∧
        RequestHistory.ContinuesStream self.run.history.accepted self.run.history.taken.length
          chunk ∧
        (self.run.history.step call.toRequestCall).taken =
          self.run.history.taken ++ [⟨leaseId, chunk⟩] := by
  obtain ⟨h, hworker, hhistory⟩ := hinv
  have hstream := hworker.stream
  have hideal : (h.step call.toRequestCall).taken = h.taken ∨
      ∃ chunk leaseId, chunk ∈ h.request.heldAudio ∧
        RequestHistory.ContinuesStream h.accepted h.taken.length chunk ∧
        (h.step call.toRequestCall).taken = h.taken ++ [⟨leaseId, chunk⟩] := by
    rcases (hstream.move_step call.toRequestCall).taken_eq with hsame |
      ⟨chunk, rest, leaseId, havailable, htaken⟩
    · exact Or.inl hsame
    · refine Or.inr ⟨chunk, leaseId, ?_, hstream.invariant.stream _ _ ?_, htaken⟩
      · rw [StreamingRequestState.heldAudio, havailable]
        exact List.mem_append_left _ List.mem_cons_self
      · rw [hstream.orderly.accepted_eq_of_cons havailable, List.getElem?_append_right (by
          rw [List.length_map]), List.length_map, Nat.sub_self, List.getElem?_cons_zero]
  rcases hhistory with hhistory | ⟨-, lead, hhistory⟩
  · rw [hhistory]
    exact hideal
  · have hlead : RequestHistory.SeesNoLead call.toRequestCall := by cases call <;> trivial
    rw [hhistory, RequestHistory.step_ahead hstream.invariant.accounted hlead]
    exact hideal

/-- The samples of a stream in two parts. -/
theorem Recurrence.streamPcm_append (recurrence : Recurrence types) (number : ℕ)
    (chunks more : List AudioChunk) :
    recurrence.streamPcm number (chunks ++ more) = recurrence.streamPcm number chunks ++
      recurrence.streamPcm (number + chunks.length) more := by
  induction chunks generalizing number with
  | nil => rfl
  | cons first rest ih =>
    rw [List.cons_append, streamPcm, streamPcm, ih, List.append_assoc, List.length_cons,
      Nat.add_assoc, Nat.add_comm 1]

theorem Recurrence.streamPcm_singleton (recurrence : Recurrence types) (number : ℕ)
    (chunk : AudioChunk) :
    recurrence.streamPcm number [chunk] =
      recurrence.chunkPcm number chunk.codecFrameCount chunk.final :=
  List.append_nil _

/-- The invariant of a run with a listening consumer. -/
structure ListenedInvariant (recurrence : Recurrence types) (workspace : SessionWorkspace types)
    (listened : ListenedRun types) : Prop where
  device : DeviceInvariant recurrence workspace listened.device
  heard_eq : listened.heard = recurrence.streamPcm 0
    (listened.device.observation.run.history.taken.map StoredLease.chunk)

/-- A call of the consumer. -/
theorem ListenedInvariant.heard_consumer {self : ListenedRun types}
    (hinv : ListenedInvariant recurrence workspace self) (call : ConsumerCall)
    (hnext : DeviceInvariant recurrence workspace
      (self.device.step recurrence.engines recurrence.arguments (.consumer call))) :
    self.heard ++ self.device.listen (.consumer call) = recurrence.streamPcm 0
      ((self.device.observation.run.history.step call.toRequestCall).taken.map
        StoredLease.chunk) := by
  have hbefore := hinv.device.run.returned_eq
  have hafter := hnext.run.returned_eq
  simp only [DeviceRun.step, DeviceRun.action, SynthesisObservation.step, SynthesisRun.step]
    at hafter
  have hreturned : self.device.observation.run.history.taken.map StoredLease.view ++
      RequestHistory.returnedBy
        (self.device.observation.run.history.call call.toRequestCall).1 =
      (self.device.observation.run.history.step call.toRequestCall).taken.map
        StoredLease.view := by
    rw [← hbefore]
    exact hafter
  rw [DeviceRun.listen, hinv.heard_eq]
  rcases hinv.device.run.taken_step call with hsame |
    ⟨chunk, leaseId, hheld, hcontinues, htaken⟩
  · rw [hsame, List.append_right_eq_self] at hreturned
    rw [hsame, hreturned, List.flatMap_nil, List.append_nil]
  · rw [htaken, List.map_append, List.append_cancel_left_eq, List.map_singleton] at hreturned
    rw [hreturned, htaken, List.flatMap_singleton, List.map_append, List.map_singleton,
      recurrence.streamPcm_append, recurrence.streamPcm_singleton, Nat.zero_add, List.length_map]
    refine congrArg (_ ++ ·) ?_
    show boundTensor chunk.samples.sampleCount _ = _
    rcases Nat.eq_zero_or_pos chunk.codecFrameCount with hzero | hpositive
    · rw [hcontinues.sampleCount_eq, hzero, Recurrence.chunkPcm, Nat.zero_mul, Nat.zero_mul]
      rfl
    · rw [hinv.device.shows chunk hheld hpositive, hcontinues.sequence_eq]

variable (hmanifest : recurrence.arguments.manifest = acceptedManifest)
  (hstale : recurrence = workspace.recurrence recurrence.engines recurrence.arguments)
  (hcontract : rejectsContract recurrence.contract = false)

include hmanifest hstale hcontract

/-- **Every step keeps the invariant.** -/
theorem ListenedInvariant.step {self : ListenedRun types}
    (hinv : ListenedInvariant recurrence workspace self) {action : DeviceAction}
    (hreported : action.Reported) :
    ListenedInvariant recurrence workspace
      (self.step recurrence.engines recurrence.arguments action) := by
  have hnext := hinv.device.step hmanifest hstale hcontract hreported
  have hworker (hlisten : self.device.listen action = [])
      (haction : ∀ call, self.device.action action ≠ .consumer call) :
      ListenedInvariant recurrence workspace
        (self.step recurrence.engines recurrence.arguments action) := by
    refine ⟨hnext, ?_⟩
    show self.heard ++ self.device.listen action = recurrence.streamPcm 0
      ((self.device.observation.run.step recurrence.arguments
        (self.device.action action)).history.taken.map StoredLease.chunk)
    rw [SynthesisRun.taken_step _ haction, hlisten, List.append_nil, hinv.heard_eq]
  cases action with
  | consumer call => exact ⟨hnext, hinv.heard_consumer call hnext⟩
  | _ => exact hworker rfl nofun

omit hstale hcontract in
theorem ListenedInvariant.start {request : StreamingRequestState}
    (hrequest : StreamingRequestState.construct recurrence.arguments.textTokenIds.length
      recurrence.arguments.manifest.limits.pcmRingCapacityFrames = .ok request)
    (leaseIds : LeaseIdSequence) :
    ListenedInvariant recurrence workspace (.start request leaseIds workspace) :=
  ⟨.start hmanifest hrequest leaseIds, rfl⟩

end Runs

/-- **Every run has the invariant.** -/
theorem listenedInvariant_run (engines : SessionEngines types) {arguments : PipelineArguments}
    (hmanifest : arguments.manifest = acceptedManifest)
    (hcontract : rejectsContract (arguments.manifest.alignment.kernelContract
      arguments.textTokenIds.length) = false) {request : StreamingRequestState}
    (hrequest : StreamingRequestState.construct arguments.textTokenIds.length
      arguments.manifest.limits.pcmRingCapacityFrames = .ok request) (leaseIds : LeaseIdSequence)
    (workspace : SessionWorkspace types) (actions : List DeviceAction)
    (hreported : ∀ action ∈ actions, action.Reported) :
    ListenedInvariant (workspace.recurrence engines arguments) workspace
      (run (ListenedRun.step engines arguments) (.start request leaseIds workspace) actions) := by
  refine run_induction_of_stepsMeet (C := fun _ action => action.Reported)
    (fun self action hinv hreported => ?_) ?_ actions
    (stepsMeet_of_forall_mem fun _ action hmem => hreported action hmem)
  · exact @ListenedInvariant.step _ (workspace.recurrence engines arguments) workspace hmanifest
      rfl hcontract self hinv action hreported
  · exact .start hmanifest hrequest leaseIds

end MagpieTts.Runtime
