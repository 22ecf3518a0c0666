import MagpieTts.Runtime.DevicePublication
import Mathlib.Order.Nat

/-!
# The gates of the Local AR steps

A Local AR step is given three gates: whether the text is unfinished, whether an end of speech was
reported, and whether the end of speech is forbidden. The sampling kernel reports a row whose gates
contradict. When the engine reports the end of speech as the kernels of `launch_local_ar_eos` do, no
step of a run has such gates, those behind the end of speech included: the end is only reported
behind the content of the text, and there the alignment stays.

## Main definitions

* `SessionEngines.EndsByKernels`: the engine reports the end of speech as the kernels do.
* `DecoderCall.localArInputs`: the inputs of a Local AR step.

## Main results

* `eosGates_run`: the gates of every step of every run.
-/

namespace MagpieTts.Runtime

open MagpieTts.Library MagpieTts.Plugins Pipeline

variable {types : SessionTypes}

def LocalArInputs.gates (inputs : LocalArInputs types) : EosGates :=
  ⟨inputs.unfinished, inputs.finished, inputs.forbidEos⟩

/-- The Local AR engine reports the end frame that `launch_local_ar_eos` leaves for its gates and
tokens, on some logits. -/
def SessionEngines.EndsByKernels (L : Type) [LinearOrder L] [OrderBot L]
    (engines : SessionEngines types) : Prop :=
  ∀ inputs, ∃ projection : ℕ → EosLogit L, LaunchLocalArEos inputs.gates projection
    (engines.localAr inputs).codecTokens (engines.localAr inputs).endFrameIndex

def DecoderCall.localArInputs : DecoderCall types → Option (LocalArInputs types)
  | .localAr inputs => some inputs
  | _ => none

section Ends

variable {L : Type} [LinearOrder L] [OrderBot L] {engines : SessionEngines types}
  (hends : engines.EndsByKernels L)

include hends

/-- The engine names a frame or reports no end. -/
theorem SessionEngines.EndsByKernels.endFrameIndex_cases (inputs : LocalArInputs types) :
    (engines.localAr inputs).endFrameIndex = -1 ∨ (engines.localAr inputs).endFrameIndex = 0 ∨
      (engines.localAr inputs).endFrameIndex = 1 := by
  obtain ⟨projection, hlaunch⟩ := hends inputs
  by_cases hopen : (inputs.gates.unfinished || inputs.gates.finished ||
      inputs.gates.forbidEos) = false
  · rcases hlaunch.open_spec hopen with ⟨hnone, -⟩ | ⟨frame, hframe, hindex, -⟩
    · exact Or.inl hnone
    · have hsmall : frame < 2 := hframe
      omega
  · by_cases hfinished : inputs.gates.finished = true
    · exact Or.inr (Or.inl (hlaunch.finished_spec hfinished))
    · rw [Bool.not_eq_true] at hfinished
      refine Or.inl (hlaunch.closed_spec hfinished ?_)
      rw [hfinished, Bool.or_false, Bool.not_eq_false, Bool.or_eq_true] at hopen
      exact hopen

/-- A step that must go on reports no end. -/
theorem SessionEngines.EndsByKernels.endFrameIndex_of_closed {inputs : LocalArInputs types}
    (hfinished : inputs.finished = false)
    (hclosed : inputs.unfinished = true ∨ inputs.forbidEos = true) :
    (engines.localAr inputs).endFrameIndex = -1 := by
  obtain ⟨projection, hlaunch⟩ := hends inputs
  exact hlaunch.closed_spec hfinished hclosed

end Ends

/-! ### The recurrence -/

namespace Recurrence

variable (self : Recurrence types)

theorem generationFinished_succ (number : ℕ) :
    (self.state (number + 1)).generationFinished =
      if (self.step number).outputs.endFrameIndex = 0 ∨
          (self.step number).outputs.endFrameIndex = 1 then true
      else (self.state number).generationFinished := rfl

/-- The Local AR steps among the calls. -/
theorem filterMap_calls (number : ℕ) :
    (self.calls number).filterMap DecoderCall.localArInputs =
      (List.range number).map self.localArInputs := by
  induction number using calls.induct with
  | case1 => rfl
  | case2 => rfl
  | case3 number ih =>
    rw [calls, List.filterMap_append, ih, Nat.succ_eq_add_one, List.range_succ (n := number + 1),
      List.map_append, List.map_singleton]
    rfl

variable {L : Type} [LinearOrder L] [OrderBot L] {self}
  (hends : self.engines.EndsByKernels L) (hcontract : rejectsContract self.contract = false)
  (hignored : 0 < self.contract.ignoredTerminalTokens)

include hends hcontract hignored

/-- The latch, and the alignment behind the end of speech. By induction on the steps. -/
theorem generationFinished_iff (number : ℕ) :
    ((self.state number).generationFinished = true ↔
        ∃ earlier < number, 0 ≤ (self.step earlier).outputs.endFrameIndex) ∧
      ((self.state number).generationFinished = true → 2 < number ∧
        (self.state number).alignment.lastAttended = self.contract.textLength - 1) := by
  induction number with
  | zero =>
    refine ⟨iff_of_false Bool.false_ne_true ?_, fun h => absurd h Bool.false_ne_true⟩
    rintro ⟨earlier, hearlier, -⟩
    exact Nat.not_lt_zero earlier hearlier
  | succ number ih =>
    obtain ⟨hlatch, hterminal⟩ := ih
    have hcases : (self.step number).outputs.endFrameIndex = -1 ∨
        (self.step number).outputs.endFrameIndex = 0 ∨
        (self.step number).outputs.endFrameIndex = 1 :=
      hends.endFrameIndex_cases (self.localArInputs number)
    have hkeeps (hfinished : (self.state number).generationFinished = true) :
        2 < number + 1 ∧
          (self.state (number + 1)).alignment.lastAttended = self.contract.textLength - 1 :=
      ⟨(hterminal hfinished).1.trans (Nat.lt_succ_self number),
        (launchAlignmentController_terminal hcontract hignored _ (hterminal hfinished).2).1⟩
    rw [generationFinished_succ]
    split_ifs with hnamed
    · refine ⟨iff_of_true rfl ⟨number, Nat.lt_succ_self number, by omega⟩, fun _ => ?_⟩
      by_cases hfinished : (self.state number).generationFinished = true
      · exact hkeeps hfinished
      · rw [Bool.not_eq_true] at hfinished
        have hopen : ¬ ((self.localArInputs number).unfinished = true ∨
            (self.localArInputs number).forbidEos = true) := by
          intro hclosed
          have hindex : (self.step number).outputs.endFrameIndex = -1 :=
            hends.endFrameIndex_of_closed hfinished hclosed
          omega
        rw [not_or, Bool.not_eq_true, Bool.not_eq_true] at hopen
        have hnumber : ¬ number < 2 := of_decide_eq_false hopen.2
        exact ⟨by omega, launchAlignmentController_unfinishedText hcontract _ _ hopen.1⟩
    · refine ⟨hlatch.trans ⟨?_, ?_⟩, hkeeps⟩
      · rintro ⟨earlier, hearlier, hindex⟩
        exact ⟨earlier, Nat.lt_succ_of_lt hearlier, hindex⟩
      · rintro ⟨earlier, hearlier, hindex⟩
        rcases Nat.lt_succ_iff_lt_or_eq.mp hearlier with hlt | rfl
        · exact ⟨earlier, hlt, hindex⟩
        · omega

/-- Behind the end of speech a step sees finished text and may end. -/
theorem gates_of_finished {number : ℕ}
    (hfinished : (self.localArInputs number).finished = true) :
    (self.localArInputs number).unfinished = false ∧
      (self.localArInputs number).forbidEos = false := by
  obtain ⟨hnumber, hlast⟩ := (generationFinished_iff hends hcontract hignored number).2 hfinished
  exact ⟨(launchAlignmentController_terminal hcontract hignored _ hlast).2,
    decide_eq_false (by omega)⟩

/-- The gates of a step. -/
theorem gates_spec (number : ℕ) :
    ¬ (self.localArInputs number).gates.Rejected ∧
      (number < 2 ∨ (self.localArInputs number).unfinished = true →
        (self.engines.localAr (self.localArInputs number)).endFrameIndex = -1) ∧
      ((self.localArInputs number).finished = true ↔ ∃ earlier < number,
        0 ≤ (self.engines.localAr (self.localArInputs earlier)).endFrameIndex) ∧
      ((self.localArInputs number).finished = true →
        (self.engines.localAr (self.localArInputs number)).endFrameIndex = 0) := by
  have hgates := @gates_of_finished _ self _ _ _ hends hcontract hignored number
  obtain ⟨hlatch, hlate⟩ := generationFinished_iff hends hcontract hignored number
  refine ⟨?_, fun hclosed => ?_, hlatch, fun hfinished => ?_⟩
  · rintro (⟨hunfinished, hfinished⟩ | ⟨hfinished, hforbid⟩)
    · exact Bool.false_ne_true ((hgates hfinished).1.symm.trans hunfinished)
    · exact Bool.false_ne_true ((hgates hfinished).2.symm.trans hforbid)
  · have hopen : (self.localArInputs number).finished = false := by
      by_contra hfinished
      rw [Bool.not_eq_false] at hfinished
      rcases hclosed with hnumber | hunfinished
      · exact absurd (hlate hfinished).1 (by omega)
      · exact Bool.false_ne_true ((hgates hfinished).1.symm.trans hunfinished)
    exact hends.endFrameIndex_of_closed hopen
      (hclosed.symm.imp id fun hnumber => decide_eq_true hnumber)
  · obtain ⟨projection, hlaunch⟩ := hends (self.localArInputs number)
    exact hlaunch.finished_spec hfinished

end Recurrence

/-! ### Runs -/

section Runs

variable {engines : SessionEngines types} {arguments : PipelineArguments}
  {request : StreamingRequestState}

/-- What the gates of a Local AR step among the steps of a run say: the sampling kernel does not
reject them; no end of speech is reported in the first two steps or for unfinished text; and the
step sees a finished request if and only if an earlier step has reported an end, and then it
reports the first frame. -/
structure GatesAgree (engines : SessionEngines types) (steps : List (LocalArInputs types))
    (number : ℕ) (inputs : LocalArInputs types) : Prop where
  accepted : ¬ inputs.gates.Rejected
  closed : number < 2 ∨ inputs.unfinished = true → (engines.localAr inputs).endFrameIndex = -1
  finished_iff : inputs.finished = true ↔ ∃ earlier < number, ∃ earlierInputs,
    steps[earlier]? = some earlierInputs ∧ 0 ≤ (engines.localAr earlierInputs).endFrameIndex
  finished : inputs.finished = true → (engines.localAr inputs).endFrameIndex = 0

/-- **The gates of a run.** In every state of every run, on every workspace, the gates of all Local
AR steps agree, those behind an end of speech included. -/
theorem eosGates_run {L : Type} [LinearOrder L] [OrderBot L] (hends : engines.EndsByKernels L)
    (hmanifest : arguments.manifest = acceptedManifest)
    (hlow : 4 ≤ arguments.textTokenIds.length) (hhigh : arguments.textTokenIds.length ≤ 512)
    (hrequest : StreamingRequestState.construct arguments.textTokenIds.length
      arguments.manifest.limits.pcmRingCapacityFrames = .ok request) (leaseIds : LeaseIdSequence)
    (workspace : SessionWorkspace types) {actions : List DeviceAction}
    (hreported : ∀ action ∈ actions, action.Reported) {steps : List (LocalArInputs types)}
    (hsteps : (run (DeviceRun.step engines arguments) (.start request leaseIds workspace)
      actions).trace.decoderCalls.filterMap DecoderCall.localArInputs = steps) {number : ℕ}
    {inputs : LocalArInputs types} (hinputs : steps[number]? = some inputs) :
    GatesAgree engines steps number inputs := by
  have hcontract := rejectsContract_eq_false hmanifest hlow hhigh
  have hinv := deviceInvariant_run engines hmanifest hcontract hrequest leaseIds workspace actions
    hreported
  obtain ⟨count, -, hprefix⟩ : ∃ count ≤ 250, _ <+: _ := hinv.follows.exists_calls fun hworks => by
    obtain ⟨h, hworker, -⟩ := hinv.run
    exact hworker.point.generated_le hworks
  obtain ⟨rest, hrest⟩ := hprefix.filterMap DecoderCall.localArInputs
  rw [hsteps, Recurrence.filterMap_calls] at hrest
  -- the steps of the run are the first steps of the recurrence
  have hat : ∀ k x, steps[k]? = some x →
      x = (workspace.recurrence engines arguments).localArInputs k := by
    intro k x hk
    have hlt := (List.getElem?_eq_some_iff.mp hk).1
    have hmap : (steps ++ rest)[k]? = some x := (List.getElem?_append_left hlt).trans hk
    rw [hrest, List.getElem?_map, Option.map_eq_some_iff] at hmap
    obtain ⟨index, hindex, rfl⟩ := hmap
    obtain ⟨hcount, rfl⟩ := List.getElem?_eq_some_iff.mp hindex
    rw [List.getElem_range]
  have hlt := (List.getElem?_eq_some_iff.mp hinputs).1
  obtain rfl := hat number inputs hinputs
  have hignored : 0 < (workspace.recurrence engines arguments).contract.ignoredTerminalTokens := by
    show 0 < arguments.manifest.alignment.ignoredTerminalTokens
    rw [hmanifest]
    decide
  obtain ⟨hgates, hclosed, hlatch, hfirst⟩ := @Recurrence.gates_spec _
    (workspace.recurrence engines arguments) _ _ _ hends hcontract hignored number
  refine ⟨hgates, hclosed, hlatch.trans (exists_congr fun earlier => and_congr_right fun hearlier =>
    ⟨fun hindex => ⟨_, List.getElem?_eq_getElem (hearlier.trans hlt), ?_⟩, ?_⟩), hfirst⟩
  · rw [hat earlier _ (List.getElem?_eq_getElem (hearlier.trans hlt))]
    exact hindex
  · rintro ⟨earlierInputs, hsome, hindex⟩
    rw [← hat earlier _ hsome]
    exact hindex

/-! ### An engine that ends by the kernels -/

/-- Logits that prefer the end of the audio everywhere. -/
def endingProjection (index : ℕ) : EosLogit ℕ :=
  some (if index % kLocalArVocabularySize = kLocalArAudioEosId then 1 else 0)

/-- The brief engines, with the end of speech as the kernels find it on `endingProjection`. -/
def gatedEngines : SessionEngines briefTypes :=
  { briefEngines with
    localAr := fun inputs =>
      { codecTokens := fun index => index
        updatedRngCounter := inputs.rngCounter + 1
        invalidRows := 0
        endFrameIndex :=
          if inputs.finished then 0 else if inputs.unfinished || inputs.forbidEos then -1 else 0 } }

theorem frameEnds_endingProjection (codecTokens : ℕ → ℤ) :
    FrameEnds endingProjection codecTokens 0 := by
  refine ⟨0, by decide, Or.inl ⟨by decide, fun token htoken _ => ?_⟩⟩
  have hsmall : token < 2016 := htoken
  have hcode : token % kLocalArVocabularySize ≠ kLocalArAudioEosId := by
    simp only [kLocalArVocabularySize, kLocalArAudioEosId]
    omega
  simp only [positionLogit, Nat.zero_mul, Nat.zero_add, endingProjection, if_neg hcode]
  decide

theorem endsByKernels_gatedEngines : gatedEngines.EndsByKernels ℕ := by
  intro inputs
  refine ⟨endingProjection, ?_⟩
  obtain ⟨endFrameIndex, hlaunch⟩ := LaunchLocalArEos.exists_endFrameIndex inputs.gates
    endingProjection (gatedEngines.localAr inputs).codecTokens
  have heq : endFrameIndex = (gatedEngines.localAr inputs).endFrameIndex := by
    simp only [gatedEngines]
    split_ifs with hfinished hclosed
    · exact hlaunch.finished_spec hfinished
    · exact hlaunch.closed_spec (Bool.eq_false_iff.mpr hfinished) (Bool.or_eq_true_iff.mp hclosed)
    · rcases hlaunch.open_spec (by simp_all [LocalArInputs.gates]) with
        ⟨-, hnone⟩ | ⟨frame, -, hindex, -, hfirst⟩
      · exact absurd (frameEnds_endingProjection _) (hnone 0 (by decide))
      · rcases Nat.eq_zero_or_pos frame with rfl | hpositive
        · exact hindex
        · exact absurd (frameEnds_endingProjection _) (hfirst 0 hpositive)
  exact heq ▸ hlaunch

theorem eosGates_run_gated :
    ∃ steps inputs, steps[2]? = some inputs ∧ GatesAgree gatedEngines steps 2 inputs := by
  have hlength : 2 < ((run (DeviceRun.step gatedEngines tenTokenArguments)
      (.start tenTokenRequest ⟨1⟩ clearedWorkspace) leasingActions).trace.decoderCalls.filterMap
        DecoderCall.localArInputs).length := by
    decide +kernel
  exact ⟨_, _, List.getElem?_eq_getElem hlength, eosGates_run endsByKernels_gatedEngines rfl
    (by decide) (by decide) rfl ⟨1⟩ clearedWorkspace reported_leasingActions rfl
    (List.getElem?_eq_getElem hlength)⟩

end Runs

end MagpieTts.Runtime
