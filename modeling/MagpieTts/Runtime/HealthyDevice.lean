import MagpieTts.Runtime.GenerationGates

/-!
# A healthy device

The engines of a device are well formed for a text when the scores are finite, the Main Decoder
reports no status in front of the end of its context, the Local AR engine reports no row whose gates
agree, and the codec returns the samples of its frames, all finite. On such engines the counters of
the alignment controller never run out, and the worker accepts the record of every batch.

## Main definitions

* `SessionEngines.WellFormed`: the engines of a healthy device.
* `Recurrence.SoundAt`: the state in front of a Local AR step.
* `Recurrence.Ends`: speech ends within the context.

## Main results

* `Recurrence.soundAt`: the states in front of the steps of a request.
* `Recurrence.recordAccepted`: the worker accepts the record of every batch.
-/

namespace MagpieTts.Runtime

open MagpieTts.Library MagpieTts.Plugins Pipeline

variable {types : SessionTypes}

def FiniteScores {α : Type*} (textLength : ℕ) (scores : ℕ → Score α) : Prop :=
  ∀ p < textLength, ∃ value, scores p = .finite value

theorem FiniteScores.exists_row {α : Type*} {textLength : ℕ} {scores : ℕ → Score α}
    (hfinite : FiniteScores textLength scores) (hpositive : 0 < textLength) :
    ∃ row : ScoreRow α, row.buffer textLength = scores := by
  obtain ⟨fallback, -⟩ := hfinite 0 hpositive
  have hvalue : ∀ p, ∃ value, p < textLength → scores p = .finite value := by
    intro p
    by_cases hp : p < textLength
    · obtain ⟨value, hscore⟩ := hfinite p hp
      exact ⟨value, fun _ => hscore⟩
    · exact ⟨fallback, fun habsurd => absurd habsurd hp⟩
  choose found hfound using hvalue
  refine ⟨⟨found, fun p => scores (textLength + p)⟩, funext fun p => ?_⟩
  rw [ScoreRow.buffer]
  split_ifs with hp
  · exact (hfound p hp).symm
  · dsimp only
    rw [Nat.add_sub_cancel' (Nat.not_lt.mp hp)]

/-! ### Engines -/

def CodecCall.codecTokens : CodecCall types → List ℤ
  | .initial codecTokens => codecTokens
  | .steady codecTokens _ => codecTokens
  | .tail codecTokens _ => codecTokens

/-- The engines of a healthy device, for a text. -/
structure SessionEngines.WellFormed (L : Type) [LinearOrder L] [OrderBot L]
    (engines : SessionEngines types) (arguments : PipelineArguments) : Prop where
  prefill_finite : ∀ condition conditionMask, FiniteScores arguments.textTokenIds.length
    (engines.mainDecoderPrefill condition conditionMask).alignment
  step_finite : ∀ inputs, FiniteScores arguments.textTokenIds.length
    (engines.mainDecoderStep inputs).alignment
  executionStatus_eq : ∀ inputs, inputs.executionStatus = 0 →
    (arguments.manifest.kvCache.firstStepPosition : ℤ) ≤ inputs.position →
    inputs.position < (arguments.manifest.kvCache.stepPositionUpperBoundExclusive : ℤ) →
    (engines.mainDecoderStep inputs).executionStatus = 0
  invalidRows_eq : ∀ inputs, ¬ inputs.gates.Rejected → (engines.localAr inputs).invalidRows = 0
  ends : engines.EndsByKernels L
  validSampleLength_eq : ∀ call frames, call.codecTokens.length = kLocalArCodebooks * frames →
    (engines.nanocodec call).validSampleLength = frames * 1024
  pcm_finite : ∀ call index, types.isfinite ((engines.nanocodec call).pcm index) = true

/-! ### The recurrence -/

namespace Recurrence

/-- In front of a Local AR step of a healthy device. -/
structure SoundAt (recurrence : Recurrence types) (number : ℕ) : Prop where
  executionStatus_eq : (recurrence.state number).executionStatus = 0
  lastAttended_lt : (recurrence.state number).alignment.lastAttended < recurrence.textLength
  counters_le : ∀ p < recurrence.textLength,
    (recurrence.state number).alignment.counters p ≤ number
  finite : FiniteScores recurrence.textLength (recurrence.state number).alignmentScores

section Sound

variable {L : Type} [LinearOrder L] [OrderBot L] {self : Recurrence types}
  (hmanifest : self.arguments.manifest = acceptedManifest)
  (hcontract : rejectsContract self.contract = false)
  (hwell : self.engines.WellFormed L self.arguments)

include hmanifest hcontract

/-- The launch of the controller on a sound state: no counter is exhausted. -/
theorem SoundAt.launch {number : ℕ} (hsound : self.SoundAt number) (hnumber : number < 250) :
    (self.step number).alignment.invalidState = 0 ∧
      (self.step number).alignment.attendedTokenIndex < self.textLength ∧
      (self.step number).alignment.lastAttended < self.textLength ∧
      ∀ p < self.textLength, (self.step number).alignment.counters p ≤ number + 1 := by
  have hpositive : 0 < self.textLength := (rejectsContract_eq_false_iff.mp hcontract).1
  obtain ⟨row, hrow⟩ := hsound.finite.exists_row hpositive
  have hends : LookaheadEnds self.contract := by
    refine Or.inr ?_
    show self.arguments.manifest.alignment.lookahead ≠ maximumUint32
    rw [hmanifest]
    decide
  have hspec := launchSpec_of_step hcontract hsound.lastAttended_lt
    ((alignmentKernelStep_iff hends (row.buffer self.textLength) (self.state number).alignment
      _).mpr rfl)
  rw [hrow] at hspec
  have hattended := @AttentionPrior.attended_lt _ _ self.contract hpositive
    (self.state number).alignment.state row
  have hexhausted : ¬ AttentionPrior.Exhausted self.contract
      (self.state number).alignment.state row := by
    have hle := hsound.counters_le _ hattended
    rw [AttentionPrior.Exhausted]
    show ¬ (self.state number).alignment.counters _ = maximumUint32
    rw [maximumUint32]
    omega
  have hlast : (self.step number).alignment.lastAttended = _ :=
    congrArg AttentionPrior.State.lastAttended hspec.state_eq
  have hcounters : (self.step number).alignment.counters = _ :=
    congrArg AttentionPrior.State.counters hspec.state_eq
  refine ⟨hspec.invalid_eq.trans (if_neg hexhausted), hspec.attended_eq.trans_lt hattended,
    hlast.trans_lt hattended, fun p hp => ?_⟩
  rw [hcounters, AttentionPrior.advance]
  simp only [if_neg hexhausted, AttentionPrior.countVisit]
  rcases eq_or_ne p (AttentionPrior.attended self.contract (self.state number).alignment.state row)
    with rfl | hne
  · rw [Function.update_self]
    exact Nat.succ_le_succ (hsound.counters_le _ hp)
  · rw [Function.update_of_ne hne]
    exact (hsound.counters_le p hp).trans (Nat.le_succ number)

include hwell

/-- The states in front of the steps of a request. By induction on the steps. -/
theorem soundAt {number : ℕ} (hnumber : number < 250) : self.SoundAt number := by
  induction number with
  | zero =>
    have hlength : 3 < self.textLength := by
      have hignored := (rejectsContract_eq_false_iff.mp hcontract).2.2.1
      rw [contract, hmanifest] at hignored
      exact hignored
    refine ⟨rfl, ?_, fun p hp => ?_, hwell.prefill_finite _ _⟩
    · show self.arguments.manifest.alignment.initialAttended < _
      rw [hmanifest]
      exact Nat.lt_trans (show 1 < 3 by decide) hlength
    · show (List.replicate self.textLength 0).getD p _ ≤ 0
      rw [List.getD_eq_getElem _ _ (by rw [List.length_replicate]; exact hp),
        List.getElem_replicate]
  | succ number ih =>
    have hsound := ih (by omega)
    obtain ⟨-, -, hlast, hcounters⟩ := hsound.launch hmanifest hcontract (by omega)
    refine ⟨hwell.executionStatus_eq _ hsound.executionStatus_eq ?_ ?_, hlast, hcounters,
      hwell.step_finite _⟩
    · exact Int.le_add_of_nonneg_right (Int.natCast_nonneg number)
    · show (self.arguments.manifest.kvCache.firstStepPosition : ℤ) + number <
        self.arguments.manifest.kvCache.stepPositionUpperBoundExclusive
      rw [hmanifest]
      simp only [acceptedManifest]
      omega

/-- The worker accepts the entries of the steps. -/
theorem stepAccepted {number : ℕ} (hnumber : number < 250) :
    StepAccepted self.textLength (self.diagnostics number) := by
  have hignored : 0 < self.contract.ignoredTerminalTokens := by
    show 0 < self.arguments.manifest.alignment.ignoredTerminalTokens
    rw [hmanifest]
    decide
  obtain ⟨hinvalid, hattended, -, -⟩ :=
    (soundAt hmanifest hcontract hwell hnumber).launch hmanifest hcontract hnumber
  refine ⟨?_, hwell.invalidRows_eq _ (gates_spec hwell.ends hcontract hignored number).1, ?_, ?_,
    hwell.ends.endFrameIndex_cases _⟩
  · rw [diagnostics, hinvalid]
    rfl
  · exact Int.natCast_nonneg _
  · exact Int.ofNat_lt.mpr hattended

/-- The worker accepts the record of every batch. -/
theorem recordAccepted {first stepCount : ℕ} (hpositive : 0 < stepCount) (hfour : stepCount ≤ 4)
    (hlast : first + stepCount ≤ 250) :
    RecordAccepted self.textLength stepCount (self.batchDiagnostics first stepCount) := by
  refine ⟨?_, ?_, fun step hstep => ?_⟩
  · have hentries : ((List.range kMaximumDecoderStepsPerEmission).findSome? fun step =>
        validateGenerationStep ((self.batchDiagnostics first stepCount).steps step) stepCount
          step) = none := by
      refine List.findSome?_eq_none_iff.mpr fun step _ => ?_
      rw [batchDiagnostics]
      dsimp only
      split_ifs with hstep
      · rw [validateGenerationStep,
          if_neg (show ¬ (self.diagnostics (first + step)).reserved ≠ 0 from not_not.mpr rfl),
          if_neg fun hunused => absurd hunused.1 (Nat.not_le.mpr hstep)]
      · rw [validateGenerationStep,
          if_neg (show ¬ GenerationStepDiagnostics.unused.reserved ≠ 0 from not_not.mpr rfl),
          if_neg]
        simp [GenerationStepDiagnostics.unused]
    rw [validateGenerationDiagnosticPayload, hentries, if_neg, if_neg]
    · rfl
    · exact not_not.mpr rfl
    · rw [kMaximumDecoderStepsPerEmission]
      omega
  · exact (soundAt hmanifest hcontract hwell (by omega)).executionStatus_eq
  · rw [batchDiagnostics]
    simp only [if_pos hstep]
    exact stepAccepted hmanifest hcontract hwell (by omega)

/-- The first batch has no end of speech. -/
theorem reportsEos_first :
    reportsEos (batchSteps ⟨0, 2, 2⟩ (self.batchDiagnostics 0 2)) = false := by
  have hignored : 0 < self.contract.ignoredTerminalTokens := by
    show 0 < self.arguments.manifest.alignment.ignoredTerminalTokens
    rw [hmanifest]
    decide
  rw [batchSteps_batchDiagnostics, reportsEos, List.any_eq_false]
  intro entry hentry
  obtain ⟨step, hstep, rfl⟩ := List.mem_map.mp hentry
  have htwo : step < 2 := List.mem_range.mp hstep
  have hclosed := (gates_spec hwell.ends hcontract hignored (0 + step)).2.1 (Or.inl (by omega))
  rw [decide_eq_true_eq]
  show ¬ 0 ≤ (self.engines.localAr (self.localArInputs (0 + step))).endFrameIndex
  omega

end Sound

/-- Speech ends within the context. -/
def Ends (self : Recurrence types) : Prop :=
  ∃ number < 250, 0 ≤ (self.engines.localAr (self.localArInputs number)).endFrameIndex

/-- A request that ends reports its end in its first steps. -/
theorem Ends.reportsEos {self : Recurrence types} (hends : self.Ends) {steps : ℕ}
    (hsteps : 250 ≤ steps) : reportsEos ((List.range steps).map self.diagnostics) = true := by
  obtain ⟨number, hnumber, hindex⟩ := hends
  rw [Runtime.reportsEos, List.any_eq_true]
  exact ⟨_, List.mem_map_of_mem (List.mem_range.mpr (hnumber.trans_le hsteps)),
    decide_eq_true hindex⟩

end Recurrence

end MagpieTts.Runtime
