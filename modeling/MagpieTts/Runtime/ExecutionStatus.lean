import MagpieTts.Plugins.DevicePositionBank
import Mathlib.Data.List.FinRange

/-!
# Execution status of the Main Decoder

One decoder step sends the status word through the twelve self-attention layers, each reading the
word its predecessor left. The word a step starts from is the one the step before it ended with:
the session holds two status buffers, of which a step reads one and writes the other.

## Main definitions

* `DecoderStep`: what the bank updates of one step read, layer by layer.
* `StatusSession.runDecoderSteps`: the status buffers and banks after a run of steps.
* `FailsFirst`: the first failure of a run in execution order.

## Main results

* `runDecoderSteps_status`: the word that a run leaves, failure by failure.
* `executionStatus_run`: zero, or the encoding of the first failure, which the runtime decodes.
-/

namespace MagpieTts.Runtime

open MagpieTts.Plugins

/-- A layer of the decoder. -/
abbrev Layer := Fin mainDevicePositionLayerCount

/-- The attribute `layer_index` of a layer's plugin. -/
def Layer.index (layer : Layer) : Word := BitVec.ofNat 32 layer

/-- What the bank updates of one decoder step read. -/
structure DecoderStep where
  layers : Layer → LayerUpdate
  layerIndex_eq : ∀ layer, (layers layer).layerIndex = layer.index

/-- The direction of a step: the buffers it reads, the other ones being those it writes. -/
abbrev CacheIndex := Fin 2

/-- The status buffers of a session, and the banks of its two execution contexts. -/
structure StatusSession where
  cacheIndex : CacheIndex
  executionStatus : CacheIndex → Word
  banks : CacheIndex → Layer → BankNodes

namespace StatusSession

/-- The session at the start of a request, which clears both status buffers. -/
def start (banks : CacheIndex → Layer → BankNodes) : StatusSession where
  cacheIndex := 0
  executionStatus := fun _ => 0#32
  banks := banks

/-- The update of one layer, on the banks of an execution context and the status word. -/
def runLayer (step : DecoderStep) (state : (Layer → BankNodes) × Word) (layer : Layer) :
    (Layer → BankNodes) × Word :=
  let update := (step.layers layer).updateMainDevicePositionBank (state.1 layer) state.2
  (fun l => if l = layer then update.1 else state.1 l, update.2)

/-- The layers of a step in their order. -/
def runLayers (step : DecoderStep) (state : (Layer → BankNodes) × Word) :
    (Layer → BankNodes) × Word :=
  (List.finRange mainDevicePositionLayerCount).foldl (runLayer step) state

/-- `run_decoder_step`, as far as the status word goes. -/
def runDecoderStep (session : StatusSession) (step : DecoderStep) : StatusSession :=
  let nextCache := 1 - session.cacheIndex
  let output := runLayers step
    (session.banks session.cacheIndex, session.executionStatus session.cacheIndex)
  { cacheIndex := nextCache
    executionStatus := fun c => if c = nextCache then output.2 else session.executionStatus c
    banks := fun c => if c = session.cacheIndex then output.1 else session.banks c }

def runDecoderSteps (session : StatusSession) (steps : List DecoderStep) : StatusSession :=
  steps.foldl runDecoderStep session

/-- The status word that the diagnostics of a run report. -/
def status (session : StatusSession) : Word := session.executionStatus session.cacheIndex

end StatusSession

/-! ### Failures in execution order -/

/-- The first failure of a step, with its layer. -/
def DecoderStep.failure (step : DecoderStep) : Option (Layer × UpdateFailure) :=
  (List.finRange mainDevicePositionLayerCount).findSome? fun layer =>
    ((step.layers layer).failure).map (layer, ·)

/-- A failure of a layer that every update of the run before it got past. -/
def FailsFirst (steps : List DecoderStep) (layer : Layer) (failure : UpdateFailure) : Prop :=
  ∃ before step after, steps = before ++ step :: after ∧
    (∀ s ∈ before, ∀ l, (s.layers l).failure = none) ∧
    (∀ l < layer, (step.layers l).failure = none) ∧ (step.layers layer).failure = some failure

/-- The first failure of a run. -/
def firstFailure (steps : List DecoderStep) : Option (Layer × UpdateFailure) :=
  steps.findSome? DecoderStep.failure

theorem Layer.index_toNat (layer : Layer) : layer.index.toNat = layer := by
  have hlt : (layer : ℕ) < 12 := layer.isLt
  rw [index, BitVec.toNat_ofNat]
  omega

theorem Layer.index_lt (layer : Layer) : layer.index.toNat < mainDevicePositionLayerCount := by
  rw [layer.index_toNat]
  exact layer.isLt

/-- Steps whose CUDA calls answer nothing that the detail field cannot hold. -/
def DecoderStep.Bounded (step : DecoderStep) : Prop := ∀ layer, (step.layers layer).Bounded

theorem DecoderStep.failure_eq_none {step : DecoderStep} :
    step.failure = none ↔ ∀ layer, (step.layers layer).failure = none := by
  simp [failure]

/-- The first failure of a step is the one of its least layer that fails. -/
theorem DecoderStep.failure_eq_some {step : DecoderStep} {layer : Layer} {failure : UpdateFailure}
    (h : step.failure = some (layer, failure)) :
    (∀ l < layer, (step.layers l).failure = none) ∧
      (step.layers layer).failure = some failure := by
  obtain ⟨before, l, after, hsplit, hl, hbefore⟩ := List.findSome?_eq_some_iff.mp h
  obtain ⟨f, hf, heq⟩ := Option.map_eq_some_iff.mp hl
  obtain ⟨rfl, rfl⟩ := Prod.mk.inj heq
  refine ⟨fun l' hlt => ?_, hf⟩
  have hmem : l' ∈ before ++ l :: after := hsplit ▸ List.mem_finRange l'
  have hsorted : (before ++ l :: after).Pairwise (· < ·) := hsplit ▸ List.pairwise_lt_finRange _
  rw [List.mem_append, List.mem_cons] at hmem
  obtain hmem | rfl | hmem := hmem
  · exact Option.map_eq_none_iff.mp (hbefore l' hmem)
  · exact absurd hlt (lt_irrefl _)
  · have hgt := List.rel_of_pairwise_cons (List.pairwise_append.mp hsorted).2.1 hmem
    exact absurd hlt (lt_asymm hgt)

theorem firstFailure_eq_none {steps : List DecoderStep} :
    firstFailure steps = none ↔
      ∀ step ∈ steps, ∀ layer, (step.layers layer).failure = none := by
  simp only [firstFailure, List.findSome?_eq_none_iff, DecoderStep.failure_eq_none]

theorem failsFirst_of_firstFailure {steps : List DecoderStep} {layer : Layer}
    {failure : UpdateFailure} (h : firstFailure steps = some (layer, failure)) :
    FailsFirst steps layer failure := by
  obtain ⟨before, step, after, hsplit, hstep, hbefore⟩ := List.findSome?_eq_some_iff.mp h
  obtain ⟨hleast, hfailure⟩ := DecoderStep.failure_eq_some hstep
  exact ⟨before, step, after, hsplit, fun s hs => DecoderStep.failure_eq_none.mp (hbefore s hs),
    hleast, hfailure⟩

/-! ### The word of a run -/

/-- The word that reports a failure, zero without one. -/
def statusWord (failure : Option (Layer × UpdateFailure)) : Word :=
  failure.elim 0#32 fun (layer, failure) => failure.encode layer.index

namespace StatusSession

variable {step : DecoderStep} {session : StatusSession}

/-- A failure on record passes a layer untouched. -/
theorem runLayer_of_failed {state : (Layer → BankNodes) × Word} (h : state.2 ≠ 0#32)
    (layer : Layer) : (runLayer step state layer).2 = state.2 :=
  (step.layers layer).updateMainDevicePositionBank_of_incoming _ h

/-- Otherwise the layer reports its own. -/
theorem runLayer_of_zero {state : (Layer → BankNodes) × Word} (h : state.2 = 0#32)
    (layer : Layer) :
    (runLayer step state layer).2 =
      statusWord (((step.layers layer).failure).map (layer, ·)) := by
  have hstatus := (step.layers layer).updateMainDevicePositionBank_status (state.1 layer)
  rw [step.layerIndex_eq] at hstatus
  rw [runLayer, h]
  refine hstatus.trans ?_
  cases (step.layers layer).failure with
  | none => rfl
  | some failure => rfl

theorem foldl_runLayer_status (layers : List Layer)
    (state : (Layer → BankNodes) × Word) :
    (layers.foldl (runLayer step) state).2 =
      if state.2 = 0#32 then
        statusWord (layers.findSome? fun layer => ((step.layers layer).failure).map (layer, ·))
      else state.2 := by
  induction layers generalizing state with
  | nil =>
    split_ifs with h
    · exact h
    · rfl
  | cons layer layers ih =>
    rw [List.foldl_cons, ih]
    by_cases hzero : state.2 = 0#32
    · rw [if_pos hzero, runLayer_of_zero hzero, List.findSome?_cons]
      cases hfailure : (step.layers layer).failure with
      | none => exact if_pos rfl
      | some failure =>
        exact if_neg (failure.encode_ne_zero layer.index)
    · rw [runLayer_of_failed hzero, if_neg hzero, if_neg hzero]

/-- One decoder step keeps a failure on record, and reports its own first one otherwise. -/
theorem runDecoderStep_status :
    (session.runDecoderStep step).status =
      if session.status = 0#32 then statusWord step.failure else session.status := by
  simp only [status, runDecoderStep, if_true, runLayers, foldl_runLayer_status]
  rfl

theorem runDecoderSteps_status (steps : List DecoderStep) :
    (session.runDecoderSteps steps).status =
      if session.status = 0#32 then statusWord (firstFailure steps) else session.status := by
  induction steps generalizing session with
  | nil =>
    split_ifs with h
    · exact h
    · rfl
  | cons step steps ih =>
    rw [runDecoderSteps, List.foldl_cons, ← runDecoderSteps,
      ih, runDecoderStep_status]
    by_cases hzero : session.status = 0#32
    · rw [if_pos hzero, if_pos hzero, firstFailure, firstFailure, List.findSome?_cons]
      cases hfailure : step.failure with
      | none => exact if_pos rfl
      | some result =>
        exact if_neg (result.2.encode_ne_zero result.1.index)
    · rw [if_neg hzero, if_neg hzero, if_neg hzero]

end StatusSession

/-- The failure that comes first fits the fields of the status word. -/
theorem encodable_of_failsFirst {steps : List DecoderStep}
    (hbounded : ∀ step ∈ steps, step.Bounded) {layer : Layer} {failure : UpdateFailure}
    (h : FailsFirst steps layer failure) : failure.Encodable := by
  obtain ⟨before, step, after, rfl, -, -, hfailure⟩ := h
  exact (hbounded step (by simp) layer).failure_encodable hfailure

/-- **The first failure survives.** From a cleared session, the status word that a run of decoder
steps leaves is zero exactly when every layer of every step succeeded. Otherwise it is the encoding
of the failure that came first, a positive number that the runtime decodes to the fields of that
failure; and the runtime finds every word malformed that is no encoding of a failure. -/
theorem executionStatus_run (banks : CacheIndex → Layer → BankNodes) (steps : List DecoderStep)
    (hbounded : ∀ step ∈ steps, step.Bounded) :
    let status := ((StatusSession.start banks).runDecoderSteps steps).status
    (status = 0#32 ↔ ∀ step ∈ steps, ∀ layer, (step.layers layer).failure = none) ∧
      (status ≠ 0#32 → ∃ layer failure, FailsFirst steps layer failure ∧
        status = failure.encode layer.index ∧ 0 < status.toInt ∧
        decodeMainDevicePositionStatus status =
          { raw := status
            category := failure.category
            layerIndex := layer.index
            operation := failure.operation
            detail := failure.detail
            valid := true }) ∧
      ∀ raw : Word, (∀ (layer : Layer) (failure : UpdateFailure),
        failure.Encodable → raw ≠ failure.encode layer.index) →
        (decodeMainDevicePositionStatus raw).valid = false := by
  have hstatus : ((StatusSession.start banks).runDecoderSteps steps).status = _ :=
    StatusSession.runDecoderSteps_status steps
  rw [if_pos (show (StatusSession.start banks).status = 0#32 from rfl)] at hstatus
  refine ⟨?_, fun hne => ?_, fun raw hraw => ?_⟩
  · rw [hstatus, ← firstFailure_eq_none]
    cases hfirst : firstFailure steps with
    | none => exact iff_of_true rfl rfl
    | some result =>
      exact iff_of_false (result.2.encode_ne_zero result.1.index) (by simp)
  · rw [hstatus] at hne ⊢
    cases hfirst : firstFailure steps with
    | none => exact absurd (by rw [hfirst]; rfl) hne
    | some result =>
      have hfails := failsFirst_of_firstFailure hfirst
      have hencodable := encodable_of_failsFirst hbounded hfails
      have hlt := result.1.index_lt
      refine ⟨result.1, result.2, hfails, rfl, ?_, UpdateFailure.decode_encode hencodable hlt⟩
      exact UpdateFailure.encode_toInt_pos hencodable (Nat.lt_of_lt_of_le hlt (by decide))
  · rw [← Bool.not_eq_true, decode_valid_iff]
    rintro ⟨layerIndex, failure, hlt, hencodable, rfl⟩
    refine hraw ⟨layerIndex.toNat, hlt⟩ failure hencodable ?_
    rw [Layer.index, BitVec.ofNat_toNat, BitVec.setWidth_eq]

/-- A step at a position whose CUDA calls all succeed. -/
def quietStep (position : ℤ) : DecoderStep where
  layers := fun layer =>
    { position
      layerIndex := layer.index
      launches := fun _ _ => { classIndex := 0, parameterSize := 8 }
      answer := fun _ => cudaSuccess }
  layerIndex_eq := fun _ => rfl

theorem quietStep_bounded (position : ℤ) : (quietStep position).Bounded :=
  fun _ _ => (by decide : cudaSuccess.toNat < 2 ^ 22)

/-- The last cache entry is attended, the position after it fails. -/
theorem executionStatus_run_past_capacity :
    ((StatusSession.start fun _ _ _ _ => ⟨true, {}, fun _ => 0⟩).runDecoderSteps
        [quietStep 465, quietStep 466]).status = 0#32 ∧
      ((StatusSession.start fun _ _ _ _ => ⟨true, {}, fun _ => 0⟩).runDecoderSteps
        [quietStep 466, quietStep 467]).status ≠ 0#32 := by
  constructor
  · refine (executionStatus_run _ _ ?_).1.mpr ?_
    · simp [quietStep_bounded]
    · simp only [List.mem_cons, List.not_mem_nil, or_false]
      rintro step (rfl | rfl) layer
      · rfl
      · rfl
  · intro hzero
    have h := (executionStatus_run _ _ (by simp [quietStep_bounded])).1.mp hzero (quietStep 467)
      (by simp) ⟨0, by decide⟩
    cases h

end MagpieTts.Runtime
