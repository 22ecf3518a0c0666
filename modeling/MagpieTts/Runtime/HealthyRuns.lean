import MagpieTts.Runtime.HealthyDevice
import MagpieTts.Runtime.InflightPipeline
import Mathlib.Order.Nat

/-!
# Requests on a healthy device

On a healthy device nothing but the end of the context can fail a request. The worker generates two
steps and then batches of four, so that the last batch ends exactly with the context; it is rejected
there if speech has not ended, and nowhere else.

## Main definitions

* `Proceeds`: the worker goes on, or has ended without a failure.
* `DeviceAction.Faultless`: a step without failure.
* `EndsHealthy`: the end of a request on a healthy device.

## Main results

* `WorkerInvariant.proceeds_advance`, `WorkerInvariant.proceeds_resume`: the steps of the worker.
* `WorkerInvariant.healthy_reading`: what the worker reads.
* `healthy_run`: every run without failures.
-/

namespace MagpieTts.Runtime

open MagpieTts.Library MagpieTts.Plugins Pipeline

variable {types : SessionTypes}

/-! ### A worker that goes on -/

/-- The worker generates in batches of four steps behind the first two, and it goes on where speech
has not ended within the context. -/
structure Continues (w : WorkerState) (steps : List GenerationStepDiagnostics) : Prop where
  strided : w.pipeline.generatedDecoderSteps % 4 = 2
  open_lt : reportsEos steps = false → steps.length < 250
  fits : ∀ codec, w.point = .generateFollowing codec → w.pipeline.generatedDecoderSteps + 4 ≤ 250

/-- The worker holds no exception. -/
def WorkerPoint.Blameless : WorkerPoint → Prop
  | settle (some _) | failed _ | failRequest _ => False
  | _ => True

/-- The worker goes on, or has ended without a failure. -/
structure Proceeds (h : RequestHistory) (w : WorkerState)
    (steps : List GenerationStepDiagnostics) : Prop where
  blameless : w.point.Blameless
  unfailed : h.request.state ≠ .failed
  continues : w.point.Works → ¬ w.point.Starts → Continues w steps

namespace Proceeds

variable {arguments : PipelineArguments} {Q : WorkerException → Prop} {h : RequestHistory}
  {p p' : Pipeline} {point next : WorkerPoint} {poisoned : Bool}
  {steps : List GenerationStepDiagnostics} {reading : DeviceReading}

/-- A step that generates nothing and reads nothing. -/
theorem moved (hproceeds : Proceeds h ⟨p, point, poisoned⟩ steps) (hworks : point.Works)
    (hstarts : ¬ point.Starts) (hblameless : next.Blameless)
    (hgenerated : p'.generatedDecoderSteps = p.generatedDecoderSteps)
    (hfits : ∀ codec, next = .generateFollowing codec → p.generatedDecoderSteps + 4 ≤ 250) :
    Proceeds h ⟨p', next, poisoned⟩ steps where
  blameless := hblameless
  unfailed := hproceeds.unfailed
  continues _ _ :=
    have hcontinues := hproceeds.continues hworks hstarts
    { strided := hgenerated ▸ hcontinues.strided
      open_lt := hcontinues.open_lt
      fits := fun codec hnext => hgenerated ▸ hfits codec hnext }

/-- A step out of `run_impl` without an exception. -/
theorem stopped (hproceeds : Proceeds h ⟨p, point, poisoned⟩ steps) (hblameless : next.Blameless)
    (hstops : ¬ next.Works) : Proceeds h ⟨p', next, poisoned⟩ steps where
  blameless := hblameless
  unfailed := hproceeds.unfailed
  continues hworks := absurd hworks hstops

/-- Four more steps are generated. -/
theorem generated (hproceeds : Proceeds h ⟨p, point, poisoned⟩ steps) (hworks : point.Works)
    (hstarts : ¬ point.Starts) (hblameless : next.Blameless)
    (hgenerated : p'.generatedDecoderSteps = p.generatedDecoderSteps + 4)
    (hnext : ∀ codec, next ≠ .generateFollowing codec) :
    Proceeds h ⟨p', next, poisoned⟩ steps where
  blameless := hblameless
  unfailed := hproceeds.unfailed
  continues _ _ :=
    have hcontinues := hproceeds.continues hworks hstarts
    { strided := by
        rw [hgenerated, Nat.add_mod_right]
        exact hcontinues.strided
      open_lt := hcontinues.open_lt
      fits := fun codec hcodec => absurd hcodec (hnext codec) }

variable (hmanifest : arguments.manifest = acceptedManifest)

include hmanifest

theorem advance_awaitFirst (hproceeds : Proceeds h ⟨p, .awaitFirst ⟨0, 2, 2⟩, poisoned⟩ steps)
    (hholds : Holds h p steps ⟨some ⟨0, 2, 2⟩, none, 0, false, false, false⟩)
    (hhealthy : (WorkerPoint.awaitFirst ⟨0, 2, 2⟩).Healthy arguments reading) :
    Proceeds h
      (WorkerState.advance arguments reading h.request ⟨p, .awaitFirst ⟨0, 2, 2⟩, poisoned⟩)
      (steps ++ (WorkerPoint.awaitFirst ⟨0, 2, 2⟩).stepsRead reading.diagnostics
        (WorkerState.advance arguments reading h.request
          ⟨p, .awaitFirst ⟨0, 2, 2⟩, poisoned⟩).point) := by
  have hempty := hholds.forget [] p.committedTextTokens
  have hinitial : arguments.manifest.codec.initialFrames = 4 := by rw [hmanifest, acceptedManifest]
  have hmeets : Meets (do
      let first ← awaitGenerationBatch arguments ⟨0, 2, 2⟩ reading.diagnostics
      failIf (first.final = true ∨ first.frameCount ≠ arguments.manifest.codec.initialFrames)
        .invariantFailure "EOS was admitted before the fixed initial four frames"
      return first) { p with commands := [] }
      (fun _ p' => p'.generatedDecoderSteps = p.generatedDecoderSteps) fun _ _ => False := by
    rw [meets_bind]
    refine (meets_awaitGenerationBatch arguments reading.diagnostics hmanifest
      (show (⟨0, 2, 2⟩ : PendingGenerationBatch).stepCount ≤ 4 by simp)
      hempty.slots.fillingSlot).mono ?_ ?_
    · rintro batch p' ⟨rfl, hrecord, rfl, -⟩
      -- a batch without an end of speech has all its frames
      have hfinal := (batchOf_eq ⟨0, 2, 2⟩ reading.diagnostics).2.trans hhealthy.2
      have hframes := ((batchShape_batchOf hrecord).open_frames hfinal).2
      rw [meets_bind, meets_failIf, meets_pure, hinitial]
      refine ⟨fun hor => ?_, fun _ => rfl⟩
      rcases hor with hor | hor
      · exact Bool.false_ne_true (hfinal.symm.trans hor)
      · exact hor hframes
    · rintro exception p' ⟨-, -, hexhausted⟩
      exact absurd (hexhausted hhealthy.1).2.2 (by decide)
  have hlength : steps.length = 0 := by
    have hsteps := (hholds.pending _ rfl).2.2
    have hgenerated := hholds.generated_eq
    simp only [Option.map_some, Option.getD_some] at hsteps hgenerated
    omega
  simp only [WorkerState.advance]
  rcases WorkerState.perform_cases hmeets with
    ⟨batch, p', hgenerated, hperform⟩ | ⟨exception, p', hfalse, -⟩
  · rw [hperform]
    refine ⟨trivial, hproceeds.unfailed, fun _ _ => ⟨?_, fun _ => ?_, fun codec hcodec => ?_⟩⟩
    · exact hgenerated ▸ (hproceeds.continues trivial id).strided
    · rw [List.length_append, hlength]
      show 0 + ((List.range 2).map _).length < 250
      rw [List.length_map, List.length_range]
      decide
    · cases hcodec
  · exact hfalse.elim

theorem advance_awaitGeneration {pending : PendingGenerationBatch}
    (hproceeds : Proceeds h ⟨p, .awaitGeneration pending, poisoned⟩ steps)
    (hfour : pending.stepCount = 4)
    (hholds : Holds h p steps ⟨some pending, none, 0, false, false, true⟩)
    (hhealthy : (WorkerPoint.awaitGeneration pending).Healthy arguments reading)
    (hends : 250 ≤ steps.length + 4 →
      reportsEos (steps ++ batchSteps pending reading.diagnostics) = true) :
    Proceeds h
      (WorkerState.advance arguments reading h.request ⟨p, .awaitGeneration pending, poisoned⟩)
      (steps ++ (WorkerPoint.awaitGeneration pending).stepsRead reading.diagnostics
        (WorkerState.advance arguments reading h.request
          ⟨p, .awaitGeneration pending, poisoned⟩).point) := by
  have hempty := hholds.forget [] p.committedTextTokens
  have hsteps := (hholds.pending _ rfl).2.2
  have hgenerated := hholds.generated_eq
  have hended : reportsEos steps = false := hholds.ended_eq
  have hreports : (batchOf pending reading.diagnostics).final =
      reportsEos (steps ++ batchSteps pending reading.diagnostics) := by
    rw [reportsEos_append, hended, Bool.false_or]
    exact (batchOf_eq pending reading.diagnostics).2
  simp only [Option.map_some, Option.getD_some, hfour] at hgenerated
  simp only [WorkerState.advance]
  rcases WorkerState.perform_cases (meets_awaitGenerationBatch arguments reading.diagnostics
      hmanifest hfour.le hempty.slots.fillingSlot) with
    ⟨batch, p', ⟨rfl, -, rfl, hfits⟩, hperform⟩ | ⟨exception, p', ⟨-, -, hexhausted⟩, -⟩
  · rw [hperform]
    refine ⟨trivial, hproceeds.unfailed, fun _ _ => ⟨?_, fun hopen => ?_, fun codec hcodec => ?_⟩⟩
    · exact (hproceeds.continues trivial id).strided
    · have hlt := hfits (hreports.trans hopen)
      rw [List.length_append]
      show steps.length + ((List.range pending.stepCount).map _).length < 250
      rw [List.length_map, List.length_range]
      omega
    · cases hcodec
  · obtain ⟨-, hfinal, hle⟩ := hexhausted hhealthy
    rw [hreports, hends (by omega)] at hfinal
    cases hfinal

omit hmanifest in
/-- Where speech has not ended, four more steps fit. -/
theorem fits (hproceeds : Proceeds h ⟨p, point, poisoned⟩ steps) (hworks : point.Works)
    (hstarts : ¬ point.Starts) (hlength : p.generatedDecoderSteps = steps.length)
    (hopen : reportsEos steps = false) :
    0 < p.generatedDecoderSteps ∧ p.generatedDecoderSteps + 4 ≤ 250 := by
  have hcontinues := hproceeds.continues hworks hstarts
  have hstrided : p.generatedDecoderSteps % 4 = 2 := hcontinues.strided
  have hlt := hcontinues.open_lt hopen
  omega

theorem advance_observePublished {following : Option PendingGenerationBatch}
    (hproceeds : Proceeds h ⟨p, .observePublished following, poisoned⟩ steps)
    (hholds : Holds h p steps ⟨following, none, 0, false, false, false⟩) :
    Proceeds h
      (WorkerState.advance arguments reading h.request ⟨p, .observePublished following, poisoned⟩)
      steps := by
  have hempty := hholds.forget [] p.committedTextTokens
  simp only [WorkerState.advance]
  split_ifs with hcancelled
  · exact hproceeds.stopped trivial id
  cases following with
  | some pending => exact hproceeds.moved trivial id trivial rfl fun codec hnext => by cases hnext
  | none =>
    obtain ⟨hpositive, hle⟩ := hproceeds.fits trivial id hholds.generated_eq hholds.ended_eq
    have hmeets : Meets (do
        requireSteadyBatchCapacity arguments
        generateSteadyBatch arguments 1) { p with commands := [] }
        (fun _ p' => p'.generatedDecoderSteps = p.generatedDecoderSteps + 4) fun _ _ => False := by
      have hfits : 0 < ({ p with commands := [] } : Pipeline).generatedDecoderSteps ∧
          ({ p with commands := [] } : Pipeline).generatedDecoderSteps + 4 ≤ 250 := ⟨hpositive, hle⟩
      rw [meets_bind, meets_of_run_eq (run_requireSteadyBatchCapacity hmanifest hfits.1 hfits.2),
        meets_of_run_eq
          (run_generateSteadyBatch hmanifest (hempty.slots.free 1) hfits.1 hfits.2)]
    rcases WorkerState.perform_cases hmeets with
      ⟨pending, p', hgenerated, hperform⟩ | ⟨exception, p', hfalse, -⟩
    · rw [hperform]
      exact hproceeds.generated trivial id trivial hgenerated fun codec hnext => by cases hnext
    · exact hfalse.elim

theorem advance_observeGeneration {batch : GenerationBatchResult}
    (hproceeds : Proceeds h ⟨p, .observeGeneration batch, poisoned⟩ steps)
    (hholds : Holds h p steps ⟨none, some batch.batchSlot, batch.frameCount, batch.final, false,
      true⟩)
    (hshape : BatchShape 4 batch) (haccepted : h.accepted ≠ []) :
    Proceeds h
      (WorkerState.advance arguments reading h.request ⟨p, .observeGeneration batch, poisoned⟩)
      steps := by
  have hempty := hholds.forget [] p.committedTextTokens
  have hlength := hshape.length_le
  have hopen := hshape.open_frames
  have hend := hshape.final_frames
  have hscheduled : ∀ {p' : Pipeline}, Holds h p' steps ⟨none, none, batch.frameCount, batch.final,
      true, true⟩ → p'.generatedDecoderSteps = p.generatedDecoderSteps := fun hholds' =>
    hholds'.generated_eq.trans hholds.generated_eq.symm
  simp only [WorkerState.advance]
  split_ifs with hcancelled hzero hfinal
  · exact hproceeds.stopped trivial id
  · have hfinal : batch.final = true := by
      by_contra hne
      have := (hopen (Bool.eq_false_iff.mpr hne)).2
      omega
    rw [WorkerState.perform_of_run_eq (run_failIf_of_not (by simp [hfinal, hzero]))]
    exact hproceeds.moved trivial id trivial rfl fun codec hnext => by cases hnext
  · have hcodecFrames : CodecFrames batch false :=
      ⟨by omega, by have := (hend hfinal).2; omega,
        fun hopen' => by rw [hfinal] at hopen'; cases hopen'⟩
    rcases WorkerState.perform_cases (WorkerInvariant.scheduled hmanifest hholds hcodecFrames hshape
        (by rw [decide_eq_false haccepted]) fun hfirst => Bool.noConfusion hfirst) with
      ⟨codec, p', ⟨rfl, -, hholds', -⟩, hperform⟩ | ⟨exception, p', hfalse, -⟩
    · rw [hperform]
      exact hproceeds.moved trivial id trivial (hscheduled hholds') fun codec hnext => by
        cases hnext
    · exact hfalse.elim
  · obtain ⟨hpositive, hle⟩ := hproceeds.fits trivial id hholds.generated_eq
      (hholds.ended_eq.trans (Bool.eq_false_iff.mpr hfinal))
    have hframes := (hopen (Bool.eq_false_iff.mpr hfinal)).2
    have hcodecFrames : CodecFrames batch false := ⟨by omega, by omega, fun _ _ => by omega⟩
    have hrequire : (requireSteadyBatchCapacity arguments).run.run { p with commands := [] } =
        (.ok (), { p with commands := [] }) :=
      run_requireSteadyBatchCapacity hmanifest hpositive hle
    have hmeets := (meets_bind (requireSteadyBatchCapacity arguments)
      fun _ => scheduleCodec arguments batch false).mpr ((meets_of_run_eq hrequire).mpr
        (WorkerInvariant.scheduled hmanifest hholds hcodecFrames hshape
          (by rw [decide_eq_false haccepted]) fun hfirst => Bool.noConfusion hfirst))
    rcases WorkerState.perform_cases hmeets with
      ⟨codec, p', ⟨rfl, -, hholds', -⟩, hperform⟩ | ⟨exception, p', hfalse, -⟩
    · rw [hperform]
      exact hproceeds.moved trivial id trivial (hscheduled hholds') fun _ _ => hle
    · exact hfalse.elim

end Proceeds

section Steps

variable {arguments : PipelineArguments} {Q : WorkerException → Prop} {h : RequestHistory}
  {w : WorkerState} {steps : List GenerationStepDiagnostics} {reading : DeviceReading}

/-- A step in the capacity loop. -/
theorem WorkerInvariant.proceeds_waiting {p : Pipeline} {point : WorkerPoint} {poisoned : Bool}
    {pending : PendingGenerationBatch}
    (hinv : WorkerInvariant arguments Q h ⟨p, point, poisoned⟩ steps)
    (hpoint : point.waitsFor = some pending) (hproceeds : Proceeds h ⟨p, point, poisoned⟩ steps) :
    Proceeds h (WorkerState.advance arguments reading h.request ⟨p, point, poisoned⟩) steps := by
  have hworks : point.Works ∧ ¬ point.Starts := by
    cases point <;> first | (cases hpoint; done) | exact ⟨trivial, id⟩
  have hwait : ∀ next : WorkerPoint, next.Blameless → (∀ codec, next ≠ .generateFollowing codec) →
      Proceeds h ((⟨p, point, poisoned⟩ : WorkerState).goto next) steps :=
    fun next hblameless hnext => hproceeds.moved hworks.1 hworks.2 hblameless rfl fun codec heq =>
      absurd heq (hnext codec)
  cases point <;> rw [WorkerPoint.waitsFor] at hpoint <;> cases hpoint <;>
    simp only [WorkerState.advance]
  case canPublish => split_ifs <;> exact hwait _ trivial fun codec heq => by cases heq
  case observeFull => split_ifs <;> exact hwait _ trivial fun codec heq => by cases heq
  case readRevision =>
    rw [hinv.stream.invariant.snapshot_eq]
    exact hwait _ trivial fun codec heq => by cases heq
  case recheckCapacity => split_ifs <;> exact hwait _ trivial fun codec heq => by cases heq
  case observeRechecked => split_ifs <;> exact hwait _ trivial fun codec heq => by cases heq
  case waitForRevision => exact hwait _ trivial fun codec heq => by cases heq

/-- **A step without a call** of a worker that has not failed, on a healthy device. -/
theorem WorkerInvariant.proceeds_advance (hmanifest : arguments.manifest = acceptedManifest)
    (hinv : WorkerInvariant arguments Q h w steps) (hcall : w.point.call = none)
    (hhealthy : w.point.Healthy arguments reading)
    (hends : ∀ pending, w.point = .awaitGeneration pending → 250 ≤ steps.length + 4 →
      reportsEos (steps ++ batchSteps pending reading.diagnostics) = true)
    (hproceeds : Proceeds h w steps) :
    Proceeds h (w.advance arguments reading h.request)
      (steps ++ w.point.stepsRead reading.diagnostics
        (w.advance arguments reading h.request).point) := by
  obtain ⟨p, point, poisoned⟩ := w
  have hat := hinv.point
  have hsilent : ∀ {next : WorkerState}, Proceeds h next steps →
      point.stepsRead reading.diagnostics next.point = [] →
      Proceeds h next (steps ++ point.stepsRead reading.diagnostics next.point) := by
    intro next hnext hread
    rw [hread, List.append_nil]
    exact hnext
  cases hat with
  | setDevice hinitial hsteps haccepted hrunning =>
    exact hsilent ⟨trivial, hproceeds.unfailed, fun _ hstarts => absurd trivial hstarts⟩ rfl
  | start hinitial hsteps haccepted hrunning =>
    subst hinitial hsteps
    refine hsilent ?_ rfl
    rw [WorkerState.advance, WorkerState.perform_of_run_eq (run_start hmanifest)]
    exact ⟨trivial, hproceeds.unfailed, fun _ _ => ⟨rfl, fun _ => by decide, fun _ h => by cases h⟩⟩
  | awaitFirst hholds haccepted hcommitted =>
    exact hproceeds.advance_awaitFirst hmanifest hholds hhealthy
  | observeFirst batch hholds hshape hfinal hframes haccepted hcommitted =>
    refine hsilent ?_ rfl
    simp only [WorkerState.advance]
    split_ifs with hcancelled
    · exact hproceeds.stopped trivial id
    have hcodecFrames : CodecFrames batch true :=
      ⟨by omega, by omega, fun _ hfirst => Bool.noConfusion hfirst⟩
    have hidle := hholds.found_idle (hinv.stream.occupied_eq_zero haccepted)
    rcases WorkerState.perform_cases (WorkerInvariant.scheduled hmanifest hidle hcodecFrames hshape
        (by rw [decide_eq_true haccepted]) fun _ => ⟨hframes, hfinal⟩) with
      ⟨codec, p', ⟨rfl, -, hholds', -⟩, hperform⟩ | ⟨exception, p', hfalse, -⟩
    · rw [hperform]
      exact hproceeds.moved trivial id trivial
        (hholds'.generated_eq.trans hholds.generated_eq.symm) fun codec hnext => by cases hnext
    · exact hfalse.elim
  | awaitCodec codec following hfollowing hholds hcodec hcommitted =>
    refine hsilent ?_ rfl
    simp only [WorkerState.advance]
    rcases WorkerState.perform_cases (meets_awaitCodec codec reading.validSampleLength
        reading.pcmFinite) with
      ⟨_, p', rfl, hperform⟩ | ⟨exception, p', ⟨-, -, hrejected⟩, -⟩
    · rw [hperform]
      exact hproceeds.moved trivial id trivial rfl fun codec hnext => by cases hnext
    · exact absurd hhealthy hrejected
  | observeDecoded codec following hfollowing hholds hcodec hcommitted =>
    obtain ⟨stepCount, hshape⟩ := hcodec.shape
    have haligned : p.nextSampleIndex % 1024 = 0 := by
      rw [hholds.nextSampleIndex_eq]
      exact Nat.mul_mod_left _ _
    have hmeets := meets_audioChunk (p := { p with commands := [] }) hmanifest hshape
      hcodec.frames.pos hcodec.samples_eq haligned
      (show p.committedTextTokens ≤ _ from hcommitted ▸ hinv.stream.committed_le)
    refine hsilent ?_ rfl
    simp only [WorkerState.advance]
    split_ifs with hcancelled
    · exact hproceeds.stopped trivial id
    rcases WorkerState.perform_cases hmeets with
      ⟨chunk, p', ⟨rfl, -, -⟩, hperform⟩ | ⟨exception, p', hfalse, -⟩
    · rw [hperform]
      exact hproceeds.moved trivial id trivial rfl fun codec hnext => by cases hnext
    · exact hfalse.elim
  | publish chunk codec following hfollowing hholds hcodec hchunk hat hcommitted => cases hcall
  | observePublished following hfollowing hholds haccepted hcommitted =>
    exact hsilent (hproceeds.advance_observePublished hmanifest hholds) rfl
  | waiting pending point hpoint hfour hholds haccepted hcommitted =>
    refine hsilent (hinv.proceeds_waiting hpoint hproceeds) ?_
    cases point <;> first | rfl | cases hpoint
  | observeCapacity pending hfour hholds haccepted hcommitted =>
    refine hsilent ?_ rfl
    simp only [WorkerState.advance]
    split_ifs with hcancelled
    · exact hproceeds.stopped trivial id
    · exact hproceeds.moved trivial id trivial rfl fun codec hnext => by cases hnext
  | awaitGeneration pending hfour hholds haccepted hcommitted =>
    exact hproceeds.advance_awaitGeneration hmanifest hfour hholds hhealthy (hends pending rfl)
  | observeGeneration batch hholds hshape haccepted hcommitted =>
    exact hsilent (hproceeds.advance_observeGeneration hmanifest hholds hshape haccepted) rfl
  | generateFollowing codec hholds hcodec hcommitted =>
    have hle := (hproceeds.continues trivial id).fits codec rfl
    have hpositive : 0 < p.generatedDecoderSteps := by
      have hstrided : p.generatedDecoderSteps % 4 = 2 := (hproceeds.continues trivial id).strided
      omega
    have hempty := hholds.forget [] p.committedTextTokens
    have hrun := run_generateSteadyBatch (p := { p with commands := [] }) hmanifest
      (hempty.slots.free (1 - codec.generation.batchSlot)) hpositive hle
    refine hsilent ?_ rfl
    simp only [WorkerState.advance, WorkerState.perform_of_run_eq hrun]
    exact hproceeds.generated trivial id trivial rfl fun codec hnext => by cases hnext
  | observeZeroFrame batch hholds haccepted hcommitted =>
    refine hsilent ?_ rfl
    simp only [WorkerState.advance]
    split_ifs with hcancelled
    · exact hproceeds.stopped trivial id
    obtain ⟨chunk, hrun, -⟩ := run_zeroFrameFinal (p := { p with commands := [] }) arguments
      (show p.committedTextTokens ≤ _ from hcommitted ▸ hinv.stream.committed_le)
    rw [WorkerState.perform_of_run_eq hrun]
    exact hproceeds.moved trivial id trivial rfl fun codec hnext => by cases hnext
  | publishZeroFrame chunk batch hholds haccepted hchunk hat => cases hcall
  | settle outcome hsettles hclosing hfailing =>
    cases outcome with
    | some exception => exact hproceeds.blameless.elim
    | none =>
      refine hsilent ?_ rfl
      simp only [WorkerState.advance]
      rcases WorkerState.perform_cases (meets_settleInflight (p := { p with commands := [] })
          (hsettles.of_eq rfl rfl)) with
        ⟨_, p', -, hperform⟩ | ⟨exception, p', hfalse, -⟩
      · rw [hperform]
        exact hproceeds.stopped trivial id
      · exact hfalse.elim
  | observeSettled hclosing =>
    refine hsilent ?_ rfl
    simp only [WorkerState.advance]
    split_ifs with hcancelled
    · exact hproceeds.stopped trivial id
    · exact hproceeds.stopped trivial id
  | completeCancellation hrunning hcancelled => cases hcall
  | failed exception hexception => exact hproceeds.blameless.elim
  | failRequest exception hexception hrunning => cases hcall
  | done hterminal => exact hsilent (hproceeds.stopped trivial id) rfl

/-- A worker without an exception that has not returned has not failed its request. -/
theorem WorkerAt.state_ne_failed {p : Pipeline} {point : WorkerPoint}
    (hat : WorkerAt arguments Q h p steps point) (hblameless : point.Blameless)
    (hdone : point ≠ .done) : h.request.state ≠ .failed := by
  have hrunning : h.request.state = .running → h.request.state ≠ .failed := fun hrunning hfailed =>
    RequestLifecycleState.noConfusion (hrunning.symm.trans hfailed)
  have hclosed : (h.request.state = .completed ∨
      (h.request.state = .running ∧ h.request.cancellationRequested = true)) →
      h.request.state ≠ .failed := by
    rintro (hcompleted | ⟨hrunning', -⟩)
    · exact fun hfailed => RequestLifecycleState.noConfusion (hcompleted.symm.trans hfailed)
    · exact hrunning hrunning'
  cases hat with
  | setDevice _ _ _ hstate => exact hrunning hstate
  | start _ _ _ hstate => exact hrunning hstate
  | settle outcome hsettles hclosing hfailing =>
    cases outcome with
    | none => exact hclosed (hclosing rfl)
    | some exception => exact hblameless.elim
  | observeSettled hclosing => exact hclosed hclosing
  | completeCancellation hstate hcancelled => exact hrunning hstate
  | failed exception hexception => exact hblameless.elim
  | failRequest exception hexception hstate => exact hblameless.elim
  | done hterminal => exact absurd rfl hdone
  | awaitFirst hholds => exact hrunning hholds.running
  | observeFirst batch hholds => exact hrunning hholds.running
  | awaitCodec codec following hfollowing hholds => exact hrunning hholds.running
  | observeDecoded codec following hfollowing hholds => exact hrunning hholds.running
  | publish chunk codec following hfollowing hholds => exact hrunning hholds.running
  | observePublished following hfollowing hholds => exact hrunning hholds.running
  | waiting pending point hpoint hfour hholds => exact hrunning hholds.running
  | observeCapacity pending hfour hholds => exact hrunning hholds.running
  | awaitGeneration pending hfour hholds => exact hrunning hholds.running
  | observeGeneration batch hholds => exact hrunning hholds.running
  | generateFollowing codec hholds => exact hrunning hholds.running
  | observeZeroFrame batch hholds => exact hrunning hholds.running
  | publishZeroFrame chunk batch hholds => exact hrunning hholds.running

/-- **A step with a call** of a worker that has not failed. -/
theorem WorkerInvariant.proceeds_resume (hQ : ExceptionKind Q)
    (hinv : WorkerInvariant arguments Q h w steps) {call : RequestCall}
    (hcall : w.point.call = some call) (hproceeds : Proceeds h w steps) :
    Proceeds (h.step call) (w.resume arguments (h.call call).1) steps := by
  obtain ⟨hoffered, hnext⟩ := hinv.resume hQ hcall
  obtain ⟨p, point, poisoned⟩ := w
  cases point with
  | publish chunk codec following =>
    obtain rfl := Option.some.inj hcall
    obtain ⟨accepted, hreply⟩ := (hoffered chunk rfl).2
    rw [hreply] at hnext ⊢
    cases accepted with
    | false =>
      exact ⟨trivial, hnext.point.state_ne_failed trivial (by rintro ⟨⟩), fun hworks => hworks.elim⟩
    | true =>
      have hcontinues := hproceeds.continues trivial id
      simp only [WorkerState.resume] at hnext ⊢
      split_ifs at hnext ⊢
      · exact ⟨trivial, hnext.point.state_ne_failed trivial (by rintro ⟨⟩),
          fun hworks => hworks.elim⟩
      · exact ⟨trivial, hnext.point.state_ne_failed trivial (by rintro ⟨⟩), fun _ _ =>
          ⟨hcontinues.strided, hcontinues.open_lt, fun codec hcodec => by cases hcodec⟩⟩
  | publishZeroFrame chunk batch =>
    obtain rfl := Option.some.inj hcall
    obtain ⟨accepted, hreply⟩ := (hoffered chunk rfl).2
    rw [hreply] at hnext ⊢
    cases accepted <;>
      exact ⟨trivial, hnext.point.state_ne_failed trivial (by rintro ⟨⟩), fun hworks => hworks.elim⟩
  | completeCancellation =>
    obtain rfl := Option.some.inj hcall
    have hat := hinv.point
    cases hat with
    | waiting pending point hpoint => cases hpoint
    | completeCancellation hrunning hcancelled =>
      obtain ⟨hreply, -, hstate⟩ := hinv.stream.completeCancellationAfterDrain hrunning hcancelled
      rw [hreply]
      refine ⟨trivial, fun hfailed => ?_, fun hworks => hworks.elim⟩
      exact RequestLifecycleState.noConfusion (hstate.symm.trans hfailed)
  | failRequest failure => exact hproceeds.blameless.elim
  | _ => cases hcall

end Steps

/-! ### Healthy runs -/

/-- A step without failure. -/
def DeviceAction.Faultless : DeviceAction → Prop
  | .worker => True
  | .consumer _ => True
  | _ => False

theorem DeviceAction.Faultless.reported {action : DeviceAction} (hfaultless : action.Faultless) :
    action.Reported := by
  cases action <;> trivial

theorem exceptionKind_leavesUsable : ExceptionKind WorkerException.LeavesUsable where
  reported exception husable := by
    obtain ⟨detail, rfl⟩ := WorkerException.leavesUsable_iff.mp husable
    exact WorkerException.reported_synthesis _ detail
  exhausted detail := WorkerException.leavesUsable_iff.mpr ⟨detail, rfl⟩

section Runs

variable {L : Type} [LinearOrder L] [OrderBot L] {recurrence : Recurrence types}
  (hmanifest : recurrence.arguments.manifest = acceptedManifest)
  (hcontract : rejectsContract recurrence.contract = false)
  (hwell : recurrence.engines.WellFormed L recurrence.arguments)

include hmanifest hcontract hwell

/-- What the worker reads on a healthy device. -/
theorem WorkerInvariant.healthy_reading {Q : WorkerException → Prop} {h : RequestHistory}
    {w : WorkerState} {steps : List GenerationStepDiagnostics}
    {workspace : SessionWorkspace types} {trace : SessionTrace types}
    (hinv : WorkerInvariant recurrence.arguments Q h w steps)
    (hfollows : DeviceFollows recurrence workspace w h.accepted steps trace) :
    w.point.Healthy recurrence.arguments (trace.workspace.reading w.point) := by
  obtain ⟨p, point, poisoned⟩ := w
  have hat := hinv.point
  cases hat with
  | awaitFirst hholds haccepted hcommitted =>
    obtain ⟨hdiagnostics, -⟩ := (hfollows.computes trivial id).generating _ rfl
    have hlength : steps.length = 0 := by
      have hsteps := (hholds.pending _ rfl).2.2
      have hgenerated := hholds.generated_eq
      simp only [Option.map_some, Option.getD_some] at hsteps hgenerated
      omega
    have hreading : (trace.workspace.reading (.awaitFirst ⟨0, 2, 2⟩)).diagnostics =
        recurrence.batchDiagnostics 0 2 := hlength ▸ hdiagnostics
    refine ⟨?_, ?_⟩
    · rw [hreading]
      exact Recurrence.recordAccepted hmanifest hcontract hwell two_pos (by decide) (by decide)
    · rw [hreading]
      exact Recurrence.reportsEos_first hmanifest hcontract hwell
  | awaitGeneration pending hfour hholds haccepted hcommitted =>
    obtain ⟨hdiagnostics, -⟩ := (hfollows.computes trivial id).generating _ rfl
    have hgenerated : p.generatedDecoderSteps = steps.length + pending.stepCount :=
      hholds.generated_eq
    have hle : p.generatedDecoderSteps ≤ 250 := hholds.generated_le
    have hreading : (trace.workspace.reading (.awaitGeneration pending)).diagnostics =
        recurrence.batchDiagnostics steps.length pending.stepCount := hdiagnostics
    show RecordAccepted _ _ _
    rw [hreading]
    exact Recurrence.recordAccepted hmanifest hcontract hwell (by omega) (by omega) (by omega)
  | awaitCodec codec following hfollowing hholds hcodec hcommitted =>
    obtain ⟨-, hvalid, hpcm⟩ := (hfollows.computes trivial id).decoding codec rfl
    have hlength : (recurrence.chunkCall h.accepted.length codec.generation.frameCount
        codec.generation.final).codecTokens.length =
          kLocalArCodebooks * codec.generation.frameCount := by
      rcases h.accepted.length with _ | previous
      · exact (List.length_map _).trans List.length_range
      · cases codec.generation.final <;> exact (List.length_map _).trans List.length_range
    refine ⟨?_, ?_⟩
    · rw [hcodec.samples_eq]
      exact hvalid.trans ((hwell.validSampleLength_eq _ _ hlength).trans (by push_cast; rfl))
    · show (boundTensor codec.expectedSamples trace.workspace.pinnedPcm).all types.isfinite = true
      rw [hcodec.samples_eq, hpcm, Recurrence.chunkPcm, boundTensor, List.all_map, List.all_eq_true]
      exact fun index _ => hwell.pcm_finite _ index
  | waiting pending point hpoint =>
    cases point <;> trivial
  | _ => trivial

omit hmanifest hcontract hwell in
/-- Where a batch reaches the end of the context, the entries report the end of speech. -/
theorem WorkerInvariant.reportsEos_last {Q : WorkerException → Prop} {h : RequestHistory}
    {w : WorkerState} {steps : List GenerationStepDiagnostics}
    {workspace : SessionWorkspace types} {trace : SessionTrace types}
    (hinv : WorkerInvariant recurrence.arguments Q h w steps)
    (hfollows : DeviceFollows recurrence workspace w h.accepted steps trace)
    (hends : recurrence.Ends) (pending : PendingGenerationBatch)
    (hpoint : w.point = .awaitGeneration pending) (hlast : 250 ≤ steps.length + 4) :
    reportsEos (steps ++
      batchSteps pending (trace.workspace.reading w.point).diagnostics) = true := by
  obtain ⟨p, point, poisoned⟩ := w
  obtain rfl : point = .awaitGeneration pending := hpoint
  have hat := hinv.point
  obtain ⟨hdiagnostics, -⟩ := (hfollows.computes trivial id).generating pending rfl
  have hfour : pending.stepCount = 4 := by
    cases hat with
    | awaitGeneration pending hfour => exact hfour
    | waiting pending point hwaits => cases hwaits
  have hreading : (trace.workspace.reading (.awaitGeneration pending)).diagnostics =
      recurrence.batchDiagnostics steps.length pending.stepCount := hdiagnostics
  have hsteps : steps ++ batchSteps pending
      (trace.workspace.reading (.awaitGeneration pending)).diagnostics =
        (List.range (steps.length + 4)).map recurrence.diagnostics := by
    rw [hreading, batchSteps_batchDiagnostics, hfour, List.range_add, List.map_append, List.map_map,
      ← hfollows.steps_eq]
    rfl
  rw [hsteps]
  exact hends.reportsEos hlast

end Runs

/-- The invariant of a run on a healthy device. -/
structure HealthyInvariant (recurrence : Recurrence types) (workspace : SessionWorkspace types)
    (device : DeviceRun types) : Prop where
  invariant : DeviceInvariant recurrence workspace device
  usable : RunInvariant recurrence.arguments WorkerException.LeavesUsable device.observation
  proceeds : recurrence.Ends → Proceeds device.observation.run.history
    device.observation.run.worker device.observation.steps

namespace HealthyInvariant

variable {L : Type} [LinearOrder L] [OrderBot L] {recurrence : Recurrence types}
  {workspace : SessionWorkspace types} {self : DeviceRun types}
  (hmanifest : recurrence.arguments.manifest = acceptedManifest)
  (hstale : recurrence = workspace.recurrence recurrence.engines recurrence.arguments)
  (hcontract : rejectsContract recurrence.contract = false)
  (hwell : recurrence.engines.WellFormed L recurrence.arguments)

include hmanifest hcontract hwell in
/-- A step of a worker that has not failed. -/
theorem proceeds_worker (hinv : HealthyInvariant recurrence workspace self)
    (hends : recurrence.Ends) :
    Proceeds
      (self.step recurrence.engines recurrence.arguments .worker).observation.run.history
      (self.step recurrence.engines recurrence.arguments .worker).observation.run.worker
      (self.step recurrence.engines recurrence.arguments .worker).observation.steps := by
  have hproceeds := hinv.proceeds hends
  obtain ⟨h, hworker, hhistory⟩ := hinv.usable
  have hfollows := hinv.invariant.follows
  obtain ⟨⟨⟨history, w⟩, steps⟩, trace⟩ := self
  simp only [DeviceRun.step, DeviceRun.action, DeviceRun.reading, SynthesisObservation.step,
    SynthesisRun.step] at *
  rcases hhistory with rfl | ⟨hfailing, -⟩
  · cases hcall : w.point.call with
    | some call =>
      rw [RunInvariant.stepsRead_of_call hcall, List.append_nil]
      exact hworker.proceeds_resume exceptionKind_leavesUsable hcall hproceeds
    | none =>
      exact hworker.proceeds_advance hmanifest hcall
        (hworker.healthy_reading hmanifest hcontract hwell hfollows)
        (hworker.reportsEos_last hfollows hends) hproceeds
  · -- a failing worker without an exception has returned
    obtain ⟨p, point, poisoned⟩ := w
    have hdone : point = .done := by
      have hblameless := hproceeds.blameless
      cases point with
      | done => rfl
      | settle outcome =>
        cases outcome with
        | none => exact hfailing.elim
        | some exception => exact hblameless.elim
      | failed exception => exact hblameless.elim
      | failRequest failure => exact hblameless.elim
      | _ => exact hfailing.elim
    subst hdone
    exact ⟨trivial, hproceeds.unfailed, fun hworks => hworks.elim⟩

include hmanifest hstale hcontract hwell in
/-- **Every step keeps the invariant.** -/
theorem step (hinv : HealthyInvariant recurrence workspace self) {action : DeviceAction}
    (hfaultless : action.Faultless) :
    HealthyInvariant recurrence workspace
      (self.step recurrence.engines recurrence.arguments action) := by
  have hdevice := hinv.invariant.step hmanifest hstale hcontract hfaultless.reported
  cases action with
  | worker =>
    refine ⟨hdevice, ?_, hinv.proceeds_worker hmanifest hcontract hwell⟩
    refine hinv.usable.step hmanifest exceptionKind_leavesUsable (Or.inl ?_)
    obtain ⟨h, hworker, hhistory⟩ := hinv.invariant.run
    have hfollows := hinv.invariant.follows
    have haccepted : self.observation.run.history.accepted = h.accepted := by
      rcases hhistory with hhistory | ⟨-, lead, hhistory⟩
      · rw [hhistory]
      · rw [hhistory]
        rfl
    rw [haccepted] at hfollows
    exact hworker.healthy_reading hmanifest hcontract hwell hfollows
  | consumer call =>
    refine ⟨hdevice, hinv.usable.step hmanifest exceptionKind_leavesUsable trivial, fun hends => ?_⟩
    have hproceeds := hinv.proceeds hends
    have hsteps : (self.step recurrence.engines recurrence.arguments
        (.consumer call)).observation.steps = self.observation.steps := List.append_nil _
    rw [hsteps]
    have hstate : (self.observation.run.history.step call.toRequestCall).request.state =
        self.observation.run.history.request.state := by
      obtain ⟨h, hworker, hhistory⟩ := hinv.usable
      have hkeeps := (hworker.stream.consumer call).2
      rcases hhistory with hhistory | ⟨-, lead, hhistory⟩
      · rw [hhistory]
        exact hkeeps.state_eq
      · have hlead : RequestHistory.SeesNoLead call.toRequestCall := by cases call <;> trivial
        rw [hhistory, RequestHistory.step_ahead hworker.stream.invariant.accounted hlead]
        exact hkeeps.state_eq
    exact ⟨hproceeds.blameless, fun hfailed => hproceeds.unfailed (hstate.symm.trans hfailed),
      hproceeds.continues⟩
  | fault enqueued failure => exact hfaultless.elim
  | publicationFault => exact hfaultless.elim

include hmanifest in
theorem start {request : StreamingRequestState}
    (hrequest : StreamingRequestState.construct recurrence.arguments.textTokenIds.length
      recurrence.arguments.manifest.limits.pcmRingCapacityFrames = .ok request)
    (leaseIds : LeaseIdSequence) :
    HealthyInvariant recurrence workspace (.start request leaseIds workspace) where
  invariant := .start hmanifest hrequest leaseIds
  usable := .start hmanifest hrequest leaseIds
  proceeds _ := by
    refine ⟨trivial, fun hfailed => ?_, fun _ hstarts => absurd trivial hstarts⟩
    rw [StreamingRequestState.construct] at hrequest
    split_ifs at hrequest
    obtain rfl := Except.ok.inj hrequest
    cases hfailed

end HealthyInvariant

/-- How a request on a healthy device ends: the session stays usable, a request that completes has
ended its speech, and one that fails has not, and has exhausted its context. -/
structure EndsHealthy (ends : Prop) (observation : SynthesisObservation) : Prop where
  usable : observation.run.worker.poisoned = false
  completed : observation.run.history.request.state = .completed → ends
  failed : observation.run.history.request.state = .failed → ¬ ends ∧
    FailedWith WorkerException.LeavesUsable observation.run.history.request
  returned : observation.run.worker.point = .done →
    observation.run.history.request.state ≠ .running

theorem HealthyInvariant.endsHealthy {recurrence : Recurrence types}
    {workspace : SessionWorkspace types} {self : DeviceRun types}
    (hinv : HealthyInvariant recurrence workspace self) :
    EndsHealthy recurrence.Ends self.observation := by
  have hsteps := hinv.invariant.follows.steps_eq
  have hproceeds := hinv.proceeds
  obtain ⟨h, hworker, hhistory⟩ := hinv.usable
  have hstate : self.observation.run.history.request.state = h.request.state := by
    rcases hhistory with hhistory | ⟨-, lead, hhistory⟩
    · rw [hhistory]
    · rw [hhistory]
      rfl
  refine ⟨?_, fun hcompleted => ?_, fun hfailed => ⟨fun hends => ?_, ?_⟩, fun hdone => ?_⟩
  · by_contra hpoisoned
    obtain ⟨exception, husable, hpoisons⟩ :=
      hworker.poisoned (Bool.eq_true_of_not_eq_false hpoisoned)
    exact Bool.false_ne_true (husable.symm.trans hpoisons)
  · -- the entries that were read report the end
    have hreports := (hworker.stream.completed (hstate ▸ hcompleted)).reportsEos_eq
    rw [hsteps, reportsEos, List.any_eq_true] at hreports
    obtain ⟨entry, hentry, hindex⟩ := hreports
    obtain ⟨number, hnumber, rfl⟩ := List.mem_map.mp hentry
    exact ⟨number, (List.mem_range.mp hnumber).trans_le hworker.stream.steps_le,
      of_decide_eq_true hindex⟩
  · exact (hproceeds hends).unfailed hfailed
  · have hfailure := hworker.stream.failed (hstate ▸ hfailed)
    rcases hhistory with hhistory | ⟨-, lead, hhistory⟩ <;> rw [hhistory] <;> exact hfailure
  · rw [hstate]
    have hat := hworker.point
    rw [hdone] at hat
    cases hat with
    | waiting pending point hpoint => cases hpoint
    | done hterminal => exact hterminal

/-- **A request on a healthy device.** In every state of every run without failures, on every
workspace, the session is usable; the request completes only if its speech ends within the 250 steps
of the context, and it fails only if it does not. -/
theorem healthy_run {L : Type} [LinearOrder L] [OrderBot L] {engines : SessionEngines types}
    {arguments : PipelineArguments} (hwell : engines.WellFormed L arguments)
    (hmanifest : arguments.manifest = acceptedManifest)
    (hlow : 4 ≤ arguments.textTokenIds.length) (hhigh : arguments.textTokenIds.length ≤ 512)
    {request : StreamingRequestState}
    (hrequest : StreamingRequestState.construct arguments.textTokenIds.length
      arguments.manifest.limits.pcmRingCapacityFrames = .ok request) (leaseIds : LeaseIdSequence)
    (workspace : SessionWorkspace types) (actions : List DeviceAction)
    (hfaultless : ∀ action ∈ actions, action.Faultless) :
    EndsHealthy (workspace.recurrence engines arguments).Ends
      (run (DeviceRun.step engines arguments) (.start request leaseIds workspace)
        actions).observation := by
  have hcontract := rejectsContract_eq_false hmanifest hlow hhigh
  have hinv : HealthyInvariant (workspace.recurrence engines arguments) workspace
      (run (DeviceRun.step engines arguments) (.start request leaseIds workspace) actions) := by
    refine run_induction_of_stepsMeet (C := fun _ action => action.Faultless)
      (fun self action hinv hfaultless => ?_) ?_ actions
      (stepsMeet_of_forall_mem fun _ action hmem => hfaultless action hmem)
    · exact @HealthyInvariant.step _ L _ _ (workspace.recurrence engines arguments) workspace self
        hmanifest rfl hcontract hwell hinv action hfaultless
    · exact .start hmanifest hrequest leaseIds
  exact hinv.endsHealthy

/-- The gated engines, with the scores of a reader in a hurry. -/
def hurriedEngines : SessionEngines briefTypes :=
  { gatedEngines with
    mainDecoderPrefill := fun _ _ => ⟨(), fun p => .finite p, (), ()⟩
    mainDecoderStep := fun _ => ⟨(), fun p => .finite p, 0, ()⟩ }

theorem wellFormed_hurriedEngines : hurriedEngines.WellFormed ℕ tenTokenArguments where
  prefill_finite _ _ p _ := ⟨p, rfl⟩
  step_finite _ p _ := ⟨p, rfl⟩
  executionStatus_eq _ _ _ _ := rfl
  invalidRows_eq _ _ := rfl
  ends := endsByKernels_gatedEngines
  validSampleLength_eq call frames hlength := by
    have hsamples : (hurriedEngines.nanocodec call).validSampleLength =
        (call.codecTokens.length * 128 : ℤ) := by
      cases call <;> rfl
    rw [hsamples, hlength, kLocalArCodebooks]
    push_cast
    omega
  pcm_finite _ _ := rfl

/-- A run whose second chunk ends the stream. -/
def finishingActions : List DeviceAction := completingActions ++ List.replicate 6 .worker

theorem healthy_run_hurried :
    EndsHealthy (clearedWorkspace.recurrence hurriedEngines tenTokenArguments).Ends
        (run (DeviceRun.step hurriedEngines tenTokenArguments)
          (.start tenTokenRequest ⟨1⟩ clearedWorkspace) finishingActions).observation ∧
      (run (DeviceRun.step hurriedEngines tenTokenArguments)
        (.start tenTokenRequest ⟨1⟩ clearedWorkspace)
          finishingActions).observation.run.history.request.state = .completed :=
  ⟨healthy_run wellFormed_hurriedEngines rfl (by decide) (by decide) rfl ⟨1⟩ clearedWorkspace
    finishingActions (by
      simp [finishingActions, completingActions, leasingActions, DeviceAction.Faultless]),
    by decide +kernel⟩

end MagpieTts.Runtime
