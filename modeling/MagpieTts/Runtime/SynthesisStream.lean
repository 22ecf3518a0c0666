import Mathlib.Algebra.BigOperators.Ring.List
import MagpieTts.Runtime.RequestTraffic
import MagpieTts.Runtime.SynthesisChunk

/-!
# The stream of a synthesis run

An observer of a run keeps the entries of the decoder steps that the worker has read. They decide
which frames are retained; the chunks that the request accepts are compared with them.

## Main definitions

* `SynthesisObservation`: a run with the entries read so far.
* `retainedFrames`, `reportsEos`: the frames that a list of entries retains.
* `StreamInvariant`: what holds of the request and of the entries between any two steps.

## Main results

* `Pipeline.batchOf_eq`: the frames of a batch are those that its entries retain.
* `StreamInvariant.consumer`, `StreamInvariant.publish`: the calls on the request.
-/

namespace MagpieTts.Runtime

open MagpieTts.Library

/-! ### The entries that were read -/

/-- The frames that the entries of a run retain: two for each step in front of the first end of
speech, and those of its step that lie in front of the indexed frame. -/
def retainedFrames : List GenerationStepDiagnostics → ℕ
  | [] => 0
  | step :: rest =>
    if 0 ≤ step.endFrameIndex then step.endFrameIndex.toNat else 2 + retainedFrames rest

/-- One of the entries reports an end of speech. -/
def reportsEos (steps : List GenerationStepDiagnostics) : Bool :=
  steps.any fun step => 0 ≤ step.endFrameIndex

variable {steps more : List GenerationStepDiagnostics}

theorem reportsEos_append : reportsEos (steps ++ more) = (reportsEos steps || reportsEos more) :=
  List.any_append

theorem retainedFrames_append_of_not (h : reportsEos steps = false) :
    retainedFrames (steps ++ more) = 2 * steps.length + retainedFrames more := by
  induction steps with
  | nil => simp
  | cons step rest ih =>
    rw [reportsEos, List.any_cons, Bool.or_eq_false_iff, decide_eq_false_iff_not] at h
    rw [List.cons_append, retainedFrames, if_neg h.1, ih h.2, List.length_cons]
    omega

theorem retainedFrames_of_not (h : reportsEos steps = false) :
    retainedFrames steps = 2 * steps.length := by
  have := @retainedFrames_append_of_not steps [] h
  rwa [List.append_nil] at this

theorem retainedFrames_append_of (h : reportsEos steps = true) :
    retainedFrames (steps ++ more) = retainedFrames steps := by
  induction steps with
  | nil => cases h
  | cons step rest ih =>
    rw [List.cons_append, retainedFrames, retainedFrames]
    split_ifs with hend
    · rfl
    · rw [reportsEos, List.any_cons, decide_eq_false hend, Bool.false_or] at h
      rw [ih h]

/-- The entries of the steps of a batch. -/
def batchSteps (pending : PendingGenerationBatch) (diagnostics : GenerationBatchDiagnostics) :
    List GenerationStepDiagnostics :=
  (List.range pending.stepCount).map diagnostics.steps

namespace Pipeline

/-- What the first steps of a batch have made of their entries. -/
theorem firstEos_eq (diagnostics : GenerationBatchDiagnostics) (steps : ℕ) :
    match firstEos diagnostics steps with
    | none => reportsEos ((List.range steps).map diagnostics.steps) = false
    | some step => reportsEos ((List.range steps).map diagnostics.steps) = true ∧
        retainedFrames ((List.range steps).map diagnostics.steps) =
          step * 2 + (diagnostics.steps step).endFrameIndex.toNat := by
  induction steps with
  | zero => rfl
  | succ steps ih =>
    rw [firstEos_succ, List.range_succ, List.map_append, List.map_singleton, reportsEos_append]
    cases hfirst : firstEos diagnostics steps with
    | some step =>
      rw [hfirst] at ih
      rw [Option.some_or, retainedFrames_append_of ih.1, ih.1, Bool.true_or]
      exact ⟨rfl, ih.2⟩
    | none =>
      rw [hfirst] at ih
      rw [Option.none_or, retainedFrames_append_of_not ih, ih, Bool.false_or]
      by_cases hend : 0 ≤ (diagnostics.steps steps).endFrameIndex
      · simp [hend, reportsEos, retainedFrames, Nat.mul_comm]
      · simp [hend, reportsEos]

/-- The frames of a batch are those that its entries retain. -/
theorem batchOf_eq (pending : PendingGenerationBatch) (diagnostics : GenerationBatchDiagnostics) :
    (batchOf pending diagnostics).frameCount = retainedFrames (batchSteps pending diagnostics) ∧
      (batchOf pending diagnostics).final = reportsEos (batchSteps pending diagnostics) := by
  have hentries := firstEos_eq diagnostics pending.stepCount
  cases hfirst : firstEos diagnostics pending.stepCount with
  | none =>
    rw [hfirst] at hentries
    simp only [batchOf, progressOf, hfirst, batchSteps]
    exact ⟨by rw [retainedFrames_of_not hentries, List.length_map, List.length_range, Nat.mul_comm],
      hentries.symm⟩
  | some step =>
    rw [hfirst] at hentries
    simp only [batchOf, progressOf, hfirst, batchSteps]
    exact ⟨hentries.2.symm, hentries.1.symm⟩

end Pipeline

/-! ### The observer -/

/-- A run, and the entries of the batches that the worker has read. -/
structure SynthesisObservation where
  run : SynthesisRun
  steps : List GenerationStepDiagnostics

/-- The entries that the worker reads on its way between two points. -/
def WorkerPoint.stepsRead (diagnostics : GenerationBatchDiagnostics) :
    (before after : WorkerPoint) → List GenerationStepDiagnostics
  | .awaitFirst pending, .observeFirst _ => batchSteps pending diagnostics
  | .awaitGeneration pending, .observeGeneration _ => batchSteps pending diagnostics
  | _, _ => []

namespace SynthesisObservation

def start (request : StreamingRequestState) (leaseIds : LeaseIdSequence) :
    SynthesisObservation where
  run := .start request leaseIds
  steps := []

def step (arguments : PipelineArguments) (self : SynthesisObservation) (action : SynthesisAction) :
    SynthesisObservation where
  run := self.run.step arguments action
  steps := self.steps ++
    match action with
    | .worker reading =>
      self.run.worker.point.stepsRead reading.diagnostics
        (self.run.step arguments action).worker.point
    | _ => []

end SynthesisObservation

/-- The request accepts the failure of an exception with a text. -/
theorem WorkerException.not_rejectsFailure (exception : WorkerException)
    (hmessage : messageBytes exception.failure.message ≠ []) :
    ¬ StreamingRequestState.RejectsFailure exception.failure.status exception.failure.stage
      (messageBytes exception.failure.message) := by
  rw [StreamingRequestState.RejectsFailure]
  generalize messageBytes exception.failure.message = message at hmessage
  cases exception with
  | synthesis code detail =>
    cases code <;>
      simp [WorkerException.failure, SynthesisPipelineErrorCode.statusAndStage, hmessage]
  | _ => simp [WorkerException.failure, hmessage]

/-! ### The invariant of the stream -/

/-- The frames of a list of chunks. -/
def publishedFrames (chunks : List AudioChunk) : ℕ := (chunks.map AudioChunk.codecFrameCount).sum

/-- The text tokens that the last of the chunks has committed. -/
def committedBy (chunks : List AudioChunk) : ℕ :=
  (chunks.getLast?.map AudioChunk.committedTextTokens).getD 0

/-- The accepted chunks are the whole stream: exactly the last one is final, and together they have
the retained frames. -/
structure StreamComplete (accepted : List AudioChunk) (steps : List GenerationStepDiagnostics) :
    Prop where
  reportsEos_eq : reportsEos steps = true
  frames_eq : publishedFrames accepted = retainedFrames steps
  last : ∃ earlier last, accepted = earlier ++ [last] ∧ last.final = true ∧
    ∀ chunk ∈ earlier, chunk.final = false

/-- The request has failed with an exception of the kind `Q`. -/
def FailedWith (Q : WorkerException → Prop) (request : StreamingRequestState) : Prop :=
  ∃ exception, Q exception ∧ request.terminalStatus = exception.failure.status ∧
    request.terminalErrorStage = exception.failure.stage ∧
    request.terminalErrorMessage = messageBytes exception.failure.message

/-- What holds of the request and of the entries between any two steps; a failure is of the kind
`Q`. -/
structure StreamInvariant (arguments : PipelineArguments) (Q : WorkerException → Prop)
    (h : RequestHistory) (steps : List GenerationStepDiagnostics) : Prop where
  invariant : h.Invariant
  orderly : h.Orderly
  textTokenCount_eq : h.request.textTokenCount = arguments.textTokenIds.length
  capacity_eq : h.request.pcmRingCapacityFrames = 8
  chunks : ∀ k chunk, h.accepted[k]? = some chunk →
    PipelineChunk arguments (committedBy (h.accepted.take k)) chunk
  committed_eq : h.request.committedTextTokens = committedBy h.accepted
  steps_le : steps.length ≤ 250
  retained_le : retainedFrames steps ≤ 2 * steps.length
  frames_le : publishedFrames h.accepted ≤ retainedFrames steps
  open_of : h.request.state ≠ .completed → ∀ chunk ∈ h.accepted, chunk.final = false
  completed : h.request.state = .completed → StreamComplete h.accepted steps
  cancelled : h.request.state = .cancelled → h.request.cancellationRequested = true
  failed : h.request.state = .failed → FailedWith Q h.request

namespace StreamInvariant

open RequestHistory

variable {arguments : PipelineArguments} {Q : WorkerException → Prop} {h h' : RequestHistory}
  {c : RequestCall} (hstream : StreamInvariant arguments Q h steps)

include hstream

/-- The chunks are few. -/
theorem length_accepted_le : h.accepted.length ≤ 126 := by
  have hfour := length_le_of_four_le AudioChunk.codecFrameCount h.accepted (by
    intro i hi
    have hcontinues := hstream.invariant.stream i _ (List.getElem?_eq_getElem (by omega))
    have hopen : h.accepted[i].final = false := by
      by_contra hfinal
      have := hcontinues.final_last (Bool.eq_true_of_not_eq_false hfinal)
      omega
    rcases Nat.eq_zero_or_pos i with hzero | hpos
    · rw [hcontinues.first_frames hzero]
    · rw [hcontinues.steady_frames hpos hopen]
      omega)
  have hframes := hstream.frames_le
  have hretained := hstream.retained_le
  have hsteps := hstream.steps_le
  rw [publishedFrames] at hframes
  omega

/-- No frames are occupied in front of the first chunk. -/
theorem occupied_eq_zero (haccepted : h.accepted = []) : h.request.occupiedCodecFrames = 0 := by
  have hpartition := hstream.invariant.conservation.partition
  rw [haccepted, List.nil_perm, List.append_eq_nil_iff, List.append_eq_nil_iff,
    List.append_eq_nil_iff, List.map_eq_nil_iff] at hpartition
  obtain ⟨⟨⟨hqueue, hleases⟩, -⟩, -⟩ := hpartition
  rw [hstream.invariant.accounted.occupied_eq, StreamingRequestState.queueFrames,
    StreamingRequestState.leaseFrames, hqueue, hleases]
  rfl

theorem committed_le : h.request.committedTextTokens ≤ arguments.textTokenIds.length := by
  rw [hstream.committed_eq, committedBy]
  cases hlast : h.accepted.getLast? with
  | none => exact Nat.zero_le _
  | some last =>
    rw [List.getLast?_eq_getElem?] at hlast
    exact (hstream.chunks _ last hlast).events.committed_le_textLength

/-- The samples of the stream are those of its frames. -/
theorem nextSampleIndex_eq : h.request.nextSampleIndex = publishedFrames h.accepted * 1024 := by
  have hsum : (h.accepted.map fun chunk => chunk.samples.sampleCount).sum =
      publishedFrames h.accepted * 1024 := by
    rw [publishedFrames, ← List.sum_map_mul_right]
    refine congrArg List.sum (List.map_congr_left fun chunk hmem => ?_)
    obtain ⟨k, hk⟩ := List.mem_iff_getElem?.mp hmem
    exact (hstream.invariant.stream k chunk hk).sampleCount_eq
  have hframes := hstream.frames_le
  have hretained := hstream.retained_le
  have hsteps := hstream.steps_le
  rw [hstream.invariant.nextSampleIndex_eq, hsum]
  omega

theorem revision_ne : h.request.revision ≠ maximumUint64 := by
  have hle := hstream.orderly.revision_le_length hstream.invariant
  have hlength := hstream.length_accepted_le
  rw [maximumUint64]
  omega

/-- The move of a call. -/
theorem move_step (c : RequestCall) : h.Move c (h.step c) :=
  RequestHistory.move_step hstream.invariant.accounted
    (fun lease hmem => hstream.invariant.leaseIds_lt lease (hstream.invariant.leases.subset hmem))
    fun ⟨_, _, _, _, hmax⟩ => hstream.revision_ne hmax

/-- A call that accepts nothing. -/
theorem of_move (hmove : h.Move c h') (hqueue : c ≠ .discardUnleasedAudio)
    (haccepted : h'.accepted = h.accepted)
    (hcommitted : h'.request.committedTextTokens = h.request.committedTextTokens)
    (hcompleted : h'.request.state = .completed ↔ h.request.state = .completed)
    (hcancelled : h'.request.state = .cancelled → h'.request.cancellationRequested = true)
    (hfailed : h'.request.state = .failed → FailedWith Q h'.request) :
    StreamInvariant arguments Q h' steps where
  invariant := hstream.invariant.move hmove
  orderly := hstream.orderly.move hmove hqueue hstream.revision_ne
  textTokenCount_eq := hmove.textTokenCount_eq.trans hstream.textTokenCount_eq
  capacity_eq := hmove.pcmRingCapacityFrames_eq.trans hstream.capacity_eq
  chunks := haccepted ▸ hstream.chunks
  committed_eq := by rw [hcommitted, haccepted, hstream.committed_eq]
  steps_le := hstream.steps_le
  retained_le := hstream.retained_le
  frames_le := haccepted ▸ hstream.frames_le
  open_of := by
    rw [haccepted, ne_eq, hcompleted]
    exact hstream.open_of
  completed := by
    rw [haccepted, hcompleted]
    exact hstream.completed
  cancelled := hcancelled
  failed := hfailed

/-- A call of the consumer. -/
theorem consumer (call : ConsumerCall) :
    StreamInvariant arguments Q (h.step call.toRequestCall) steps ∧
      h.ConsumerKeeps (h.step call.toRequestCall) := by
  have hmove := hstream.move_step call.toRequestCall
  have hkeeps := consumerKeeps_move hstream.invariant call hmove
  refine ⟨hstream.of_move hmove (by cases call <;> exact RequestCall.noConfusion)
    hkeeps.accepted_eq hkeeps.committedTextTokens_eq (by rw [hkeeps.state_eq])
    (fun hcancelled => hkeeps.cancelled_of (hstream.cancelled (hkeeps.state_eq ▸ hcancelled)))
    fun hfailed => ?_, hkeeps⟩
  rw [hkeeps.state_eq] at hfailed
  obtain ⟨exception, hQ, hstatus, hstage, hmessage⟩ := hstream.failed hfailed
  exact ⟨exception, hQ, hkeeps.terminal_eq.1.trans hstatus, hkeeps.terminal_eq.2.1.trans hstage,
    hkeeps.terminal_eq.2.2.trans hmessage⟩

/-! ### The calls of the worker -/

omit hstream in
/-- A publication behind an accepted cancellation. -/
theorem publish_of_cancelled (chunk : AudioChunk)
    (hcancelled : h.request.cancellationRequested = true) :
    (h.call (.publish chunk)).1 = .published false ∧ h.step (.publish chunk) = h := by
  have hpublish : h.request.publish chunk = (.ok false, h.request) :=
    StreamingRequestState.publish_of_cancelled hcancelled
  have hcall : h.call (.publish chunk) = (.published false, h.toRequestSystem) := by
    simp only [RequestSystem.call, hpublish, RequestReply.of]
  exact ⟨by rw [hcall], step_eq_self _ hcall rfl rfl⟩

/-- A chunk that the request accepts. -/
theorem publish {chunk : AudioChunk} (hopen : h.request.cancellationRequested = false)
    (hvalid : h.request.ValidChunk chunk)
    (hchunk : PipelineChunk arguments h.request.committedTextTokens chunk)
    (hframes : publishedFrames h.accepted + chunk.codecFrameCount = retainedFrames steps)
    (hfinal : chunk.final = reportsEos steps) :
    (h.call (.publish chunk)).1 = .published true ∧
      StreamInvariant arguments Q (h.step (.publish chunk)) steps ∧
      (h.step (.publish chunk)).accepted = h.accepted ++ [chunk] ∧
      (h.step (.publish chunk)).request.state = (if chunk.final then .completed else .running) ∧
      (h.step (.publish chunk)).request.committedTextTokens = chunk.committedTextTokens := by
  have hpublish : h.request.publish chunk = (.ok true, (h.request.acceptChunk chunk).bumped) := by
    rw [StreamingRequestState.publish_of_valid hopen hvalid,
      ← StreamingRequestState.incrementRevision_snd true,
      StreamingRequestState.incrementRevision_of_lt (by exact hstream.revision_ne)]
  have hstep : h.step (.publish chunk) = { h with
      request := (h.request.acceptChunk chunk).bumped, accepted := h.accepted ++ [chunk] } := by
    simp only [step, RequestSystem.step, RequestSystem.call, hpublish, RequestReply.of,
      acceptedBy, takenBy, returnedBy, releasedBy, discardedBy, List.append_nil]
  have hmove := hstream.move_step (.publish chunk)
  have hstate : (h.request.acceptChunk chunk).bumped.state =
      if chunk.final then .completed else .running := by
    rw [bumped_state, StreamingRequestState.acceptChunk, hvalid.running]
  have hcommitted : (h.request.acceptChunk chunk).bumped.committedTextTokens =
      chunk.committedTextTokens := by
    rw [bumped_committedTextTokens, StreamingRequestState.acceptChunk,
      if_pos hchunk.alignmentValid_eq]
  have hsum : publishedFrames (h.accepted ++ [chunk]) = retainedFrames steps := by
    rw [← hframes, publishedFrames, List.map_append, List.sum_append, List.map_singleton,
      List.sum_singleton]
    rfl
  have hearlier := hstream.open_of (by rw [hvalid.running]; exact RequestLifecycleState.noConfusion)
  refine ⟨by simp only [RequestSystem.call, hpublish, RequestReply.of], ?_, by rw [hstep],
    by rw [hstep]; exact hstate, by rw [hstep]; exact hcommitted⟩
  rw [hstep] at hmove ⊢
  refine
    { invariant := hstream.invariant.move hmove
      orderly := hstream.orderly.move hmove RequestCall.noConfusion hstream.revision_ne
      textTokenCount_eq := hmove.textTokenCount_eq.trans hstream.textTokenCount_eq
      capacity_eq := hmove.pcmRingCapacityFrames_eq.trans hstream.capacity_eq
      chunks := ?_
      committed_eq := hcommitted.trans (by simp [committedBy])
      steps_le := hstream.steps_le
      retained_le := hstream.retained_le
      frames_le := hsum.le
      open_of := ?_
      completed := ?_
      cancelled := ?_
      failed := ?_ }
  · intro k other hk
    rcases Nat.lt_trichotomy k h.accepted.length with hlt | rfl | hgt
    · rw [List.getElem?_append_left hlt] at hk
      rw [List.take_append_of_le_length hlt.le]
      exact hstream.chunks k other hk
    · rw [List.getElem?_concat_length, Option.some.injEq] at hk
      rw [List.take_left, ← hstream.committed_eq, ← hk]
      exact hchunk
    · rw [List.getElem?_eq_none (by rw [List.length_append, List.length_singleton]; omega)] at hk
      cases hk
  · intro hne other hmem
    change (h.request.acceptChunk chunk).bumped.state ≠ _ at hne
    rw [hstate] at hne
    rcases List.mem_append.mp hmem with hold | hnew
    · exact hearlier other hold
    · rw [List.mem_singleton.mp hnew]
      by_contra hfinal
      rw [Bool.not_eq_false] at hfinal
      rw [if_pos hfinal] at hne
      exact hne rfl
  · intro hcompleted
    change (h.request.acceptChunk chunk).bumped.state = _ at hcompleted
    rw [hstate] at hcompleted
    have hlast : chunk.final = true := by
      by_contra hne
      rw [if_neg hne] at hcompleted
      cases hcompleted
    exact ⟨hfinal ▸ hlast, hsum, h.accepted, chunk, rfl, hlast, hearlier⟩
  · intro hcancelled
    change (h.request.acceptChunk chunk).bumped.state = _ at hcancelled
    rw [hstate] at hcancelled
    split at hcancelled <;> cases hcancelled
  · intro hfailed
    change (h.request.acceptChunk chunk).bumped.state = _ at hfailed
    rw [hstate] at hfailed
    split at hfailed <;> cases hfailed

/-- The completion of a cancellation that is pending. -/
theorem completeCancellationAfterDrain (hrunning : h.request.state = .running)
    (hrequested : h.request.cancellationRequested = true) :
    (h.call .completeCancellationAfterDrain).1 = .drained true ∧
      StreamInvariant arguments Q (h.step .completeCancellationAfterDrain) steps ∧
      (h.step .completeCancellationAfterDrain).request.state = .cancelled := by
  have hcomplete : h.request.completeCancellationAfterDrain =
      (.ok true, h.request.cancelCompleted.bumped) := by
    rw [StreamingRequestState.completeCancellationAfterDrain_of_requested
        hstream.invariant.accounted hrunning hrequested,
      ← StreamingRequestState.incrementRevision_snd true,
      StreamingRequestState.incrementRevision_of_lt (by exact hstream.revision_ne)]
  have hmove := hstream.move_step .completeCancellationAfterDrain
  have hstate : (h.step .completeCancellationAfterDrain).request.state = .cancelled := by
    simp only [step, RequestSystem.step, RequestSystem.call, hcomplete]
    exact bumped_state _
  refine ⟨by simp only [RequestSystem.call, hcomplete, RequestReply.of], ?_, hstate⟩
  refine hstream.of_move hmove RequestCall.noConfusion ?_ ?_ ?_ (fun _ => ?_) ?_
  · simp [step, acceptedBy]
  · simp only [step, RequestSystem.step, RequestSystem.call, hcomplete]
    exact bumped_committedTextTokens _
  · rw [hstate, hrunning]
    exact iff_of_false RequestLifecycleState.noConfusion RequestLifecycleState.noConfusion
  · simp only [step, RequestSystem.step, RequestSystem.call, hcomplete]
    exact (bumped_cancellationRequested _).trans hrequested
  · rw [hstate]
    exact fun hfailed => RequestLifecycleState.noConfusion hfailed

/-- The failure of a running request. -/
theorem fail {exception : WorkerException} (hQ : Q exception)
    (hrunning : h.request.state = .running)
    (hmessage : messageBytes exception.failure.message ≠ []) :
    (h.call (.fail exception.failure.status exception.failure.stage
        (messageBytes exception.failure.message))).1 = .done ∧
      StreamInvariant arguments Q (h.step (.fail exception.failure.status exception.failure.stage
        (messageBytes exception.failure.message))) steps ∧
      (h.step (.fail exception.failure.status exception.failure.stage
        (messageBytes exception.failure.message))).request.state = .failed := by
  have hargs := exception.not_rejectsFailure hmessage
  generalize hbytes : messageBytes exception.failure.message = message at *
  have hfail : h.request.fail exception.failure.status exception.failure.stage message =
      (.ok (), (h.request.failed exception.failure.status exception.failure.stage
        message).bumped) := by
    rw [StreamingRequestState.fail_of_running hstream.invariant.accounted hargs hrunning,
      ← StreamingRequestState.incrementRevision_snd (),
      StreamingRequestState.incrementRevision_of_lt (by exact hstream.revision_ne)]
  have hmove := hstream.move_step
    (.fail exception.failure.status exception.failure.stage message)
  have hstep : (h.step (.fail exception.failure.status exception.failure.stage message)).request =
      (h.request.failed exception.failure.status exception.failure.stage message).bumped := by
    simp only [step, RequestSystem.step, RequestSystem.call, hfail]
  have hstate : (h.step (.fail exception.failure.status exception.failure.stage
      message)).request.state = .failed := by
    rw [hstep]
    exact bumped_state _
  refine ⟨by simp only [RequestSystem.call, hfail, RequestReply.of], ?_, hstate⟩
  refine hstream.of_move hmove RequestCall.noConfusion ?_ ?_ ?_ (fun hcancelled => ?_) fun _ => ?_
  · simp [step, acceptedBy]
  · rw [hstep]
    exact bumped_committedTextTokens _
  · rw [hstate, hrunning]
    exact iff_of_false RequestLifecycleState.noConfusion RequestLifecycleState.noConfusion
  · rw [hstate] at hcancelled
    cases hcancelled
  · obtain ⟨hstatus, hstage, hterminal⟩ := bumped_terminal
      (h.request.failed exception.failure.status exception.failure.stage message)
    rw [hstep]
    exact ⟨exception, hQ, hstatus, hstage, hterminal.trans hbytes.symm⟩

end StreamInvariant

end MagpieTts.Runtime
