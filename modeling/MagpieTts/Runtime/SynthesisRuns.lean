import MagpieTts.Runtime.RequestLead
import MagpieTts.Runtime.SynthesisSteps

/-!
# Whole runs of the synthesis worker

The invariant of the worker holds in every state of a run, for every interleaving of the worker, its
failures and its consumer. Behind a publication that could not grow its queue, the request has a
lead, and the worker is on its way out.

## Main definitions

* `RunInvariant`: the invariant of a run.
* `SynthesisObservation.Blames`: what an action may blame on the device.

## Main results

* `RunInvariant.step`, `runInvariant_run`: every step keeps it, and every run has it.
-/

namespace MagpieTts.Runtime

open MagpieTts.Library Pipeline

/-- The worker has failed and is on its way out. -/
def WorkerPoint.Failing : WorkerPoint → Prop
  | settle (some _) | failed _ | failRequest _ | done => True
  | _ => False

/-- The invariant of the worker holds, or would hold if the request had no lead. -/
def RunInvariant (arguments : PipelineArguments) (Q : WorkerException → Prop)
    (self : SynthesisObservation) : Prop :=
  ∃ h, WorkerInvariant arguments Q h self.run.worker self.steps ∧
    (self.run.history = h ∨
      (self.run.worker.point.Failing ∧ ∃ lead, self.run.history = h.ahead lead))

/-- The exceptions that an action brings about are of the kind `Q`. -/
def SynthesisObservation.Blames (arguments : PipelineArguments) (Q : WorkerException → Prop)
    (self : SynthesisObservation) : SynthesisAction → Prop
  | .worker reading => self.run.worker.point.Healthy arguments reading ∨
      ∀ exception : WorkerException, exception.Typed → Q exception
  | .fault _ _ fault => Q fault.exception ∧ ∀ detail, fault = .cuda detail → Q (.setDevice detail)
  | .publicationFault => Q .badAlloc
  | .consumer _ => True

variable {arguments : PipelineArguments} {Q : WorkerException → Prop} {h : RequestHistory}
  {w : WorkerState} {steps : List GenerationStepDiagnostics} {lead : CounterLead}

/-! ### The worker on its way out -/

namespace WorkerPoint.Failing

variable (hfailing : w.point.Failing) {reading : DeviceReading} {request : StreamingRequestState}

include hfailing

/-- A failing worker asks its request for nothing but its state. -/
theorem advance_ahead : w.advance arguments reading (request.ahead lead) =
    w.advance arguments reading request := by
  obtain ⟨p, point, poisoned⟩ := w
  cases point <;> first | exact hfailing.elim | rfl

theorem advance : (w.advance arguments reading request).point.Failing := by
  obtain ⟨p, point, poisoned⟩ := w
  cases point with
  | settle outcome =>
    cases outcome with
    | none => exact hfailing.elim
    | some exception =>
      simp only [WorkerState.advance, WorkerState.perform]
      rcases settleInflight.run.run { p with commands := [] } with ⟨inner | value, p'⟩ <;> trivial
  | failed exception =>
    simp only [WorkerState.advance]
    split_ifs <;> trivial
  | failRequest failure => trivial
  | done => trivial
  | _ => exact hfailing.elim

theorem resume (reply : RequestReply) : (w.resume arguments reply).point.Failing := by
  obtain ⟨p, point, poisoned⟩ := w
  cases point with
  | failRequest failure => cases reply <;> trivial
  | settle outcome => cases reply <;> trivial
  | failed exception => cases reply <;> trivial
  | done => cases reply <;> trivial
  | _ => exact hfailing.elim

theorem interrupt (enqueued : ℕ) (fault : DeviceFault) :
    (w.interrupt arguments reading request enqueued fault).point.Failing := by
  obtain ⟨p, point, poisoned⟩ := w
  cases point with
  | settle outcome =>
    cases outcome with
    | none => exact hfailing.elim
    | some exception => trivial
  | failRequest failure => trivial
  | failed exception => trivial
  | done => trivial
  | _ => exact hfailing.elim

theorem interrupt_ahead (enqueued : ℕ) (fault : DeviceFault) :
    w.interrupt arguments reading (request.ahead lead) enqueued fault =
      w.interrupt arguments reading request enqueued fault := by
  simp only [WorkerState.interrupt, hfailing.advance_ahead]

/-- The only call of a failing worker reports its failure. -/
theorem seesNoLead {call : RequestCall} (hcall : w.point.call = some call) :
    RequestHistory.SeesNoLead call := by
  obtain ⟨p, point, poisoned⟩ := w
  cases point with
  | failRequest failure =>
    rw [← Option.some.inj hcall]
    trivial
  | _ => first | exact hfailing.elim | cases hcall

end WorkerPoint.Failing

/-! ### The steps of a run -/

namespace WorkerInvariant

/-- A worker that publishes holds batches that can be settled. -/
theorem settles_of_publish (hinv : WorkerInvariant arguments Q h w steps) {chunk : AudioChunk}
    (hcall : w.point.call = some (.publish chunk)) : w.pipeline.Settles := by
  obtain ⟨p, point, poisoned⟩ := w
  have hat := hinv.point
  cases hat with
  | publish chunk codec following hfollowing hholds => exact hholds.settles
  | publishZeroFrame chunk batch hholds => exact hholds.settles
  | waiting pending point hpoint => cases point <;> first | (cases hpoint; done) | cases hcall
  | _ => cases hcall

/-- A call of the consumer. -/
theorem consumer (hinv : WorkerInvariant arguments Q h w steps) (call : ConsumerCall) :
    WorkerInvariant arguments Q (h.step call.toRequestCall) w steps := by
  obtain ⟨hstream, hkeeps⟩ := hinv.stream.consumer call
  exact ⟨hstream, hinv.point.consumer hkeeps, hinv.poisoned⟩

end WorkerInvariant

namespace RunInvariant

variable (hmanifest : arguments.manifest = acceptedManifest) (hQ : ExceptionKind Q)
  {self : SynthesisObservation}

/-- The entries that a step with a call reads. -/
theorem stepsRead_of_call {point next : WorkerPoint} {call : RequestCall}
    (hcall : point.call = some call) (diagnostics : GenerationBatchDiagnostics) :
    point.stepsRead diagnostics next = [] := by
  cases point <;> first | rfl | cases hcall

include hmanifest hQ

/-- A step of the worker. -/
theorem step_worker (hinv : RunInvariant arguments Q self) {reading : DeviceReading}
    (hblame : self.run.worker.point.Healthy arguments reading ∨
      ∀ exception : WorkerException, exception.Typed → Q exception) :
    RunInvariant arguments Q (self.step arguments (.worker reading)) := by
  obtain ⟨⟨history, w⟩, steps⟩ := self
  obtain ⟨h, hworker, hhistory⟩ := hinv
  simp only [SynthesisObservation.step, SynthesisRun.step] at *
  cases hcall : w.point.call with
  | some call =>
    have hresume := (hworker.resume hQ hcall).2
    rw [stepsRead_of_call hcall, List.append_nil]
    rcases hhistory with rfl | ⟨hfailing, lead, rfl⟩
    · exact ⟨_, hresume, Or.inl rfl⟩
    · have haccounted := hworker.stream.invariant.accounted
      have hlead := hfailing.seesNoLead hcall
      have hreply : ((h.ahead lead).call call).1 = (h.call call).1 := by
        rw [RequestHistory.call_ahead haccounted hlead]
      simp only [RequestHistory.step_ahead haccounted hlead, hreply]
      exact ⟨_, hresume, Or.inr ⟨hfailing.resume _, lead, rfl⟩⟩
  | none =>
    have hadvance := hworker.advance hmanifest hQ hcall hblame
    rcases hhistory with rfl | ⟨hfailing, lead, rfl⟩
    · exact ⟨_, hadvance, Or.inl rfl⟩
    · simp only [RequestHistory.ahead, hfailing.advance_ahead]
      exact ⟨h, hadvance, Or.inr ⟨hfailing.advance, lead, rfl⟩⟩

omit hmanifest hQ in
/-- A step that fails. -/
theorem step_fault (hinv : RunInvariant arguments Q self) {reading : DeviceReading} {enqueued : ℕ}
    {fault : DeviceFault} (hfault : Q fault.exception)
    (hdevice : ∀ detail, fault = .cuda detail → Q (.setDevice detail)) :
    RunInvariant arguments Q (self.step arguments (.fault reading enqueued fault)) := by
  obtain ⟨⟨history, w⟩, steps⟩ := self
  obtain ⟨h, hworker, hhistory⟩ := hinv
  simp only [SynthesisObservation.step, SynthesisRun.step, List.append_nil] at *
  have hinterrupt : WorkerInvariant arguments Q h
      (w.interrupt arguments reading h.request enqueued fault) steps :=
    hworker.interrupt hfault hdevice enqueued
  rcases hhistory with rfl | ⟨hfailing, lead, rfl⟩
  · exact ⟨_, hinterrupt, Or.inl rfl⟩
  · simp only [RequestHistory.ahead, hfailing.interrupt_ahead]
    exact ⟨h, hinterrupt, Or.inr ⟨hfailing.interrupt _ _, lead, rfl⟩⟩

omit hmanifest hQ in
/-- A publication whose queue cannot grow gives its request a lead. -/
theorem step_publicationFault (hinv : RunInvariant arguments Q self) (hQ : Q .badAlloc) :
    RunInvariant arguments Q (self.step arguments .publicationFault) := by
  obtain ⟨⟨history, w⟩, steps⟩ := self
  obtain ⟨h, hworker, hhistory⟩ := hinv
  simp only [SynthesisObservation.step, SynthesisRun.step, List.append_nil] at *
  cases hcall : w.point.call with
  | none => exact ⟨h, hworker, hhistory⟩
  | some call =>
    cases call with
    | publish chunk =>
      rcases hhistory with rfl | ⟨hfailing, -⟩
      · simp only
        split
        · rename_i request hresult
          obtain ⟨lead, hlead⟩ :=
            StreamingRequestState.publishAllocating_eq_ahead hworker.stream.invariant.accounted
              hresult
          refine ⟨_, hworker.thrown ?_ hQ, Or.inr ⟨trivial, lead, ?_⟩⟩
          · exact (hworker.settles_of_publish hcall).of_eq rfl rfl
          · rw [RequestHistory.ahead, ← hlead]
        · exact ⟨_, hworker, Or.inl rfl⟩
      · exact (hfailing.seesNoLead hcall).elim
    | _ => exact ⟨h, hworker, hhistory⟩

omit hmanifest hQ in
/-- A call of the consumer. -/
theorem step_consumer (hinv : RunInvariant arguments Q self) (call : ConsumerCall) :
    RunInvariant arguments Q (self.step arguments (.consumer call)) := by
  obtain ⟨⟨history, w⟩, steps⟩ := self
  obtain ⟨h, hworker, hhistory⟩ := hinv
  simp only [SynthesisObservation.step, SynthesisRun.step, List.append_nil] at *
  have hconsumer := hworker.consumer call
  rcases hhistory with rfl | ⟨hfailing, lead, rfl⟩
  · exact ⟨_, hconsumer, Or.inl rfl⟩
  · have hlead : RequestHistory.SeesNoLead call.toRequestCall := by cases call <;> trivial
    rw [RequestHistory.step_ahead hworker.stream.invariant.accounted hlead]
    exact ⟨_, hconsumer, Or.inr ⟨hfailing, lead, rfl⟩⟩

/-- **Every step keeps the invariant.** -/
theorem step (hinv : RunInvariant arguments Q self) {action : SynthesisAction}
    (hblames : self.Blames arguments Q action) :
    RunInvariant arguments Q (self.step arguments action) := by
  cases action with
  | worker reading => exact hinv.step_worker hmanifest hQ hblames
  | fault reading enqueued fault => exact hinv.step_fault hblames.1 hblames.2
  | publicationFault => exact hinv.step_publicationFault hblames
  | consumer call => exact hinv.step_consumer call

omit hQ in
theorem start {request : StreamingRequestState}
    (hrequest : StreamingRequestState.construct arguments.textTokenIds.length
      arguments.manifest.limits.pcmRingCapacityFrames = .ok request) (leaseIds : LeaseIdSequence) :
    RunInvariant arguments Q (.start request leaseIds) := by
  have hcapacity : arguments.manifest.limits.pcmRingCapacityFrames = 8 := by
    rw [hmanifest, acceptedManifest]
  rw [hcapacity] at hrequest
  have hinvariant := RequestHistory.invariant_start (by decide) hrequest leaseIds
  have horderly := RequestHistory.Orderly.start hrequest leaseIds
  rw [StreamingRequestState.construct] at hrequest
  split_ifs at hrequest
  obtain rfl := Except.ok.inj hrequest
  refine ⟨_, ⟨?_, .setDevice rfl rfl rfl rfl, fun hpoisoned => Bool.noConfusion hpoisoned⟩,
    Or.inl rfl⟩
  exact
    { invariant := hinvariant
      orderly := horderly
      textTokenCount_eq := rfl
      capacity_eq := rfl
      chunks := fun k chunk hk => by cases hk
      committed_eq := rfl
      steps_le := Nat.zero_le _
      retained_le := le_refl _
      frames_le := le_refl _
      open_of := fun _ chunk hmem => by cases hmem
      completed := fun hcompleted => by cases hcompleted
      cancelled := fun hcancelled => by cases hcancelled
      failed := fun hfailed => by cases hfailed }

end RunInvariant

/-- **Every run has the invariant.** -/
theorem runInvariant_run (hmanifest : arguments.manifest = acceptedManifest) (hQ : ExceptionKind Q)
    {request : StreamingRequestState}
    (hrequest : StreamingRequestState.construct arguments.textTokenIds.length
      arguments.manifest.limits.pcmRingCapacityFrames = .ok request) (leaseIds : LeaseIdSequence)
    (actions : List SynthesisAction)
    (hblames : StepsMeet (SynthesisObservation.step arguments)
      (SynthesisObservation.Blames arguments Q) (.start request leaseIds) actions) :
    RunInvariant arguments Q
      (run (SynthesisObservation.step arguments) (.start request leaseIds) actions) :=
  run_induction_of_stepsMeet (fun _ _ hinv hblames => hinv.step hmanifest hQ hblames)
    (.start hmanifest hrequest leaseIds) actions hblames

end MagpieTts.Runtime
