import Mathlib.Data.List.GetD
import MagpieTts.Library.Run
import MagpieTts.Runtime.AlignmentController
import MagpieTts.Runtime.AlignmentKernel

/-!
# The device alignment controller against the host reference

The kernel and `AlignmentControllerReference::advance` are run in lock step. They move the attended
position and the counters alike in every step. The prior agrees as long as every position to be
raised has a thread of its own: the last phase of the kernel raises a position only in the thread of
that number, and the block has 256 threads.

## Main definitions

* `LockStepAgrees`: both controllers return at every step of a run and leave the same state and the
  same outputs.
* `AttentionPrior.Covered`: no position beyond the block is to be raised in a step.

## Main results

* `lockStepAgrees_iff_stepsMeet_covered`: the runs on which the controllers agree.
-/

namespace MagpieTts.Runtime

open MagpieTts.Library

variable {α : Type*} [LinearOrder α]

/-- The first `n` entries of a device buffer, as a host vector. -/
def hostVector {β : Type*} (n : ℕ) (buffer : ℕ → β) : List β := (List.range n).map buffer

/-- What a step leaves on the device agrees with what it leaves and returns on the host. -/
def StepAgrees (textLength : ℕ) (memory : AlignmentMemory)
    (reference : AlignmentControllerReference) :
    Except AlignmentControllerError AlignmentStepResult → Prop
  | .ok result =>
    memory.lastAttended = reference.lastAttended ∧
      hostVector textLength memory.counters = reference.counters ∧
      memory.invalidState = 0 ∧
      memory.attendedTokenIndex = result.attendedTokenIndex ∧
      memory.unfinishedText = result.unfinishedText ∧
      hostVector (textLength * 2) memory.nextPrior = result.nextPrior
  | .error _ =>
    memory.lastAttended = reference.lastAttended ∧
      hostVector textLength memory.counters = reference.counters ∧
      memory.invalidState = 1

/-- The lock-step run of both controllers: whatever the order of the kernel's stores, both return
and agree after every row. -/
def LockStepAgrees (contract : AlignmentKernelContract) :
    AlignmentMemory → AlignmentControllerReference → List (ScoreRow α) → Prop
  | _, _, [] => True
  | memory, reference, row :: rows =>
    (∃ memory', AlignmentKernelStep contract (row.buffer contract.textLength) memory memory') ∧
      ∀ memory', AlignmentKernelStep contract (row.buffer contract.textLength) memory memory' →
        ∃ reference' outcome,
          reference.advance (row.scores contract.textLength) = some (reference', outcome) ∧
            StepAgrees contract.textLength memory' reference' outcome ∧
            LockStepAgrees contract memory' reference' rows

/-- The step is rejected for an exhausted counter, or the lookahead loops end and every position to
be raised is the number of a thread. -/
def AttentionPrior.Covered (contract : AlignmentKernelContract) (state : AttentionPrior.State)
    (row : ScoreRow α) : Prop :=
  AttentionPrior.Exhausted contract state row ∨
    LookaheadEnds contract ∧ ∀ p, kThreads ≤ p →
      ¬ AttentionPrior.Raised contract (AttentionPrior.advance contract state row).counters
        (AttentionPrior.attended contract state row) p

/-! ### One step -/

omit [LinearOrder α] in
theorem hostVector_prior_eq_iff {n : ℕ} {buffer : ℕ → PriorValue} {prior : List PriorValue}
    (hlength : prior.length = n) :
    hostVector n buffer = prior ↔
      ∀ p < n, (buffer p = .one ↔ prior.getD p .epsilon = .one) := by
  have hvalue : ∀ a b : PriorValue, a = b ↔ (a = .one ↔ b = .one) := by
    rintro (_ | _) (_ | _) <;> simp
  subst hlength
  rw [hostVector, List.ext_get_iff]
  simp only [List.length_map, List.length_range, true_and, List.get_eq_getElem, List.getElem_map,
    List.getElem_range]
  constructor
  · intro h p hp
    rw [← hvalue, h p hp hp, List.getD_eq_getElem _ _ hp]
  · intro h p hp _
    rw [hvalue, h p hp, List.getD_eq_getElem _ _ hp]

omit [LinearOrder α] in
theorem hostVector_counters_eq {memory : AlignmentMemory} {reference : AlignmentControllerReference}
    (hlength : reference.counters.length = reference.textLength)
    (h : memory.state.AgreeBelow reference.textLength reference.state) :
    hostVector reference.textLength memory.counters = reference.counters := by
  apply List.ext_getElem
  · rw [hostVector, List.length_map, List.length_range, hlength]
  · intro p hp hp'
    have := h.counters_eq p (by omega)
    simp only [AlignmentMemory.state, AlignmentControllerReference.state,
      List.getD_eq_getElem _ _ hp'] at this
    simpa [hostVector] using this

variable {contract : AlignmentKernelContract} {memory memory' : AlignmentMemory}
  {reference next : AlignmentControllerReference} {state : AttentionPrior.State} {row : ScoreRow α}

/-- Both controllers are in the same abstract state, as far as the text goes. -/
structure InStep (contract : AlignmentKernelContract) (memory : AlignmentMemory)
    (reference : AlignmentControllerReference) (state : AttentionPrior.State) : Prop where
  memory_agree : memory.state.AgreeBelow contract.textLength state
  reference_agree : reference.state.AgreeBelow contract.textLength state
  wellFormed : reference.WellFormed
  contract_eq : reference.contract = contract

namespace InStep

variable (h : InStep contract memory reference state)

include h

omit [LinearOrder α] in
theorem textLength_eq : reference.textLength = contract.textLength := by
  rw [← h.contract_eq]
  rfl

omit [LinearOrder α] in
theorem reference_lt : reference.state.lastAttended < contract.textLength := by
  rw [← h.textLength_eq]
  exact h.wellFormed.lastAttended_lt

omit [LinearOrder α] in
theorem memory_lt : memory.lastAttended < contract.textLength := by
  have hmemory : memory.lastAttended = state.lastAttended := h.memory_agree.lastAttended_eq
  have hreference := h.reference_agree.lastAttended_eq
  have := h.reference_lt
  omega

omit [LinearOrder α] in
/-- The states agree in the form that the comparison of a step asks for. -/
theorem hostVector_eq :
    memory.lastAttended = reference.lastAttended ∧
      hostVector contract.textLength memory.counters = reference.counters := by
  refine ⟨h.memory_agree.lastAttended_eq.trans h.reference_agree.lastAttended_eq.symm, ?_⟩
  rw [← h.textLength_eq]
  apply hostVector_counters_eq h.wellFormed.length_counters
  rw [h.textLength_eq]
  exact
    { lastAttended_eq := h.memory_agree.lastAttended_eq.trans
        h.reference_agree.lastAttended_eq.symm
      counters_eq := fun p hp => (h.memory_agree.counters_eq p hp).trans
        (h.reference_agree.counters_eq p hp).symm }

/-- A step of both that follows the abstract controller keeps them in step. -/
theorem step (hmemory : memory'.state = AttentionPrior.advance contract memory.state row)
    (hreference : next.state = AttentionPrior.advance contract reference.state row)
    (hnext : next.WellFormed) (hcontract : next.contract = reference.contract) :
    InStep contract memory' next (AttentionPrior.advance contract state row) where
  memory_agree := by
    rw [hmemory]
    exact AttentionPrior.advance_congr h.memory_agree h.memory_lt row
  reference_agree := by
    rw [hreference]
    exact AttentionPrior.advance_congr h.reference_agree h.reference_lt row
  wellFormed := hnext
  contract_eq := hcontract.trans h.contract_eq

end InStep

/-- The launch of a step that finds its counter exhausted. -/
theorem exists_alignmentKernelStep_of_exhausted (hcontract : rejectsContract contract = false)
    (hlast : memory.lastAttended < contract.textLength)
    (h : AttentionPrior.Exhausted contract memory.state row) :
    ∃ memory', AlignmentKernelStep contract (row.buffer contract.textLength) memory memory' := by
  refine ⟨(controllerThread contract (row.buffer contract.textLength) memory).2, ?_⟩
  rw [AlignmentKernelStep, controllerThread_eq hcontract hlast row]
  simp only [h, decide_true, if_true]

theorem exhausted_step (hcontract : rejectsContract contract = false)
    (h : InStep contract memory reference state)
    (hexhausted : AttentionPrior.Exhausted contract state row)
    (hstep : AlignmentKernelStep contract (row.buffer contract.textLength) memory memory') :
    ∃ next error, reference.advance (row.scores contract.textLength) = some (next, .error error) ∧
      StepAgrees contract.textLength memory' next (.error error) ∧
      InStep contract memory' next (AttentionPrior.advance contract state row) := by
  have hspec := launchSpec_of_step hcontract h.memory_lt hstep
  have hmemory := (AttentionPrior.exhausted_congr h.memory_agree h.memory_lt).mpr hexhausted
  have hreference :=
    (AttentionPrior.exhausted_congr h.reference_agree h.reference_lt).mpr hexhausted
  rw [← h.contract_eq] at hreference
  obtain ⟨next, error, hadvance, hnext, hcontractEq, hstate⟩ :=
    AlignmentControllerReference.advance_eq_error h.wellFormed hreference
  rw [h.textLength_eq] at hadvance
  rw [h.contract_eq] at hstate
  have hinStep := h.step hspec.state_eq hstate hnext hcontractEq
  refine ⟨next, error, hadvance, ⟨hinStep.hostVector_eq.1, hinStep.hostVector_eq.2, ?_⟩, hinStep⟩
  rw [hspec.invalid_eq, if_pos hmemory]

/-- The outputs of a step that is not rejected. They agree if and only if every position to be
raised is the number of a thread. -/
theorem returned_step (hcontract : rejectsContract contract = false)
    (h : InStep contract memory reference state)
    (hexhausted : ¬ AttentionPrior.Exhausted contract state row) (hends : LookaheadEnds contract)
    (hstep : AlignmentKernelStep contract (row.buffer contract.textLength) memory memory') :
    ∃ next result, reference.advance (row.scores contract.textLength) = some (next, .ok result) ∧
      (StepAgrees contract.textLength memory' next (.ok result) ↔
        ∀ p, kThreads ≤ p →
          ¬ AttentionPrior.Raised contract (AttentionPrior.advance contract state row).counters
            (AttentionPrior.attended contract state row) p) ∧
      InStep contract memory' next (AttentionPrior.advance contract state row) := by
  have hspec := launchSpec_of_step hcontract h.memory_lt hstep
  have hmemory := mt (AttentionPrior.exhausted_congr h.memory_agree h.memory_lt).mp hexhausted
  have hreference :=
    mt (AttentionPrior.exhausted_congr h.reference_agree h.reference_lt).mp hexhausted
  have hattended := AttentionPrior.attended_congr h.memory_agree h.memory_lt row
  have hattended' := AttentionPrior.attended_congr h.reference_agree h.reference_lt row
  have hraised := AttentionPrior.raised_congr
    (AttentionPrior.advance_congr h.memory_agree h.memory_lt row).counters_eq
    (AttentionPrior.attended contract state row)
  have hraised' := AttentionPrior.raised_congr
    (AttentionPrior.advance_congr h.reference_agree h.reference_lt row).counters_eq
    (AttentionPrior.attended contract state row)
  have hends' := hends
  rw [← h.contract_eq] at hreference hends'
  obtain ⟨next, result, hadvance, hnext⟩ :=
    AlignmentControllerReference.advance_eq_ok h.wellFormed hreference hends'
  obtain ⟨hwf, hcontractEq, hstate, hindex, hunfinished, hlength, hprior⟩ := hnext
  rw [h.textLength_eq] at hadvance hlength
  rw [h.contract_eq] at hstate hindex hunfinished
  simp only [h.contract_eq] at hprior
  have hinStep := h.step hspec.state_eq hstate hwf hcontractEq
  refine ⟨next, result, hadvance, ?_, hinStep⟩
  have hkernel := hspec.prior_iff hmemory
  simp only [hattended, hraised] at hkernel
  simp only [hattended', hraised'] at hprior
  have hvalid : memory'.invalidState = 0 := by rw [hspec.invalid_eq, if_neg hmemory]
  have hindexEq : memory'.attendedTokenIndex = result.attendedTokenIndex := by
    rw [hspec.attended_eq, hindex, hattended, hattended']
  have hunfinishedEq : memory'.unfinishedText = result.unfinishedText := by
    rw [hspec.unfinished_eq, hunfinished, hattended, hattended']
  simp only [StepAgrees, hinStep.hostVector_eq, hvalid, hindexEq, hunfinishedEq, true_and]
  rw [hostVector_prior_eq_iff hlength]
  constructor
  · intro hagree p hp hr
    have hlt : p < contract.textLength := hr.1
    have := ((hkernel p (by omega)).mp ((hagree p (by omega)).mpr ((hprior p).mpr hr))).1
    omega
  · intro hnone p hp
    rw [hkernel p hp, hprior p]
    constructor
    · exact fun hr => hr.2
    · intro hr
      exact ⟨Nat.lt_of_not_le fun hle => hnone p hle hr, hr⟩

/-! ### Whole runs -/

/-- The controllers agree on a run exactly when every step of it is covered. -/
theorem lockStepAgrees_iff_stepsMeet_covered (hcontract : rejectsContract contract = false) :
    (rows : List (ScoreRow α)) → {memory : AlignmentMemory} →
    {reference : AlignmentControllerReference} → {state : AttentionPrior.State} →
    InStep contract memory reference state →
    (LockStepAgrees contract memory reference rows ↔
      StepsMeet (AttentionPrior.advance contract) (AttentionPrior.Covered contract) state rows)
  | [], _, _, _, _ => by simp [LockStepAgrees, StepsMeet]
  | row :: rows, memory, reference, state, h => by
      rw [LockStepAgrees, StepsMeet]
      by_cases hexhausted : AttentionPrior.Exhausted contract state row
      · have hmemory := (AttentionPrior.exhausted_congr h.memory_agree h.memory_lt).mpr hexhausted
        constructor
        · rintro ⟨⟨memory', hstep⟩, hagree⟩
          obtain ⟨next, outcome, hadvance, -, hrest⟩ := hagree memory' hstep
          obtain ⟨next', error, hadvance', -, hinStep⟩ :=
            exhausted_step hcontract h hexhausted hstep
          rw [hadvance', Option.some.injEq, Prod.mk.injEq] at hadvance
          obtain ⟨rfl, rfl⟩ := hadvance
          exact ⟨Or.inl hexhausted,
            (lockStepAgrees_iff_stepsMeet_covered hcontract rows hinStep).mp hrest⟩
        · rintro ⟨-, hrest⟩
          refine ⟨exists_alignmentKernelStep_of_exhausted hcontract h.memory_lt hmemory, ?_⟩
          intro memory' hstep
          obtain ⟨next, error, hadvance, hagrees, hinStep⟩ :=
            exhausted_step hcontract h hexhausted hstep
          exact ⟨next, _, hadvance, hagrees,
            (lockStepAgrees_iff_stepsMeet_covered hcontract rows hinStep).mpr hrest⟩
      · have hcovered : AttentionPrior.Covered contract state row ↔ _ := or_iff_right hexhausted
        rw [hcovered]
        constructor
        · rintro ⟨⟨memory', hstep⟩, hagree⟩
          obtain ⟨next, outcome, hadvance, hagrees, hrest⟩ := hagree memory' hstep
          have hends : LookaheadEnds contract := by
            by_contra hends
            have hreference :=
              mt (AttentionPrior.exhausted_congr h.reference_agree h.reference_lt).mp hexhausted
            rw [← h.contract_eq] at hreference hends
            have hnone := AlignmentControllerReference.advance_eq_none h.wellFormed hreference hends
            rw [h.textLength_eq, hadvance] at hnone
            cases hnone
          obtain ⟨next', result, hadvance', hiff, hinStep⟩ :=
            returned_step hcontract h hexhausted hends hstep
          rw [hadvance', Option.some.injEq, Prod.mk.injEq] at hadvance
          obtain ⟨rfl, rfl⟩ := hadvance
          exact ⟨⟨hends, hiff.mp hagrees⟩,
            (lockStepAgrees_iff_stepsMeet_covered hcontract rows hinStep).mp hrest⟩
        · rintro ⟨⟨hends, hcover⟩, hrest⟩
          refine ⟨exists_alignmentKernelStep hends _ memory, ?_⟩
          intro memory' hstep
          obtain ⟨next, result, hadvance, hiff, hinStep⟩ :=
            returned_step hcontract h hexhausted hends hstep
          exact ⟨next, _, hadvance, hiff.mpr hcover,
            (lockStepAgrees_iff_stepsMeet_covered hcontract rows hinStep).mpr hrest⟩

theorem rejectsContract_kernelContract {manifest : AlignmentManifest} {textLength : ℕ}
    {reference : AlignmentControllerReference} (hlength : textLength ≤ kMaximumTextTokens)
    (hlookahead : 0 < manifest.lookahead) (hthreshold : 0 < manifest.sinkThreshold)
    (h : AlignmentControllerReference.construct textLength manifest = .ok reference) :
    rejectsContract (manifest.kernelContract textLength) = false := by
  rw [AlignmentControllerReference.construct] at h
  split_ifs at h with hinvalid
  have hpositive : 0 < textLength := by omega
  have hignored : manifest.ignoredTerminalTokens < textLength := by omega
  exact rejectsContract_eq_false_iff.mpr ⟨hpositive, hlength, hignored, hlookahead, hthreshold⟩

/-- The constructor and a cleared workspace start in step. -/
theorem inStep_construct {manifest : AlignmentManifest} {textLength : ℕ}
    (hlength : textLength ≤ kMaximumTextTokens)
    (h : AlignmentControllerReference.construct textLength manifest = .ok reference)
    (hlast : memory.lastAttended = manifest.initialAttended)
    (hcounters : ∀ p < textLength, memory.counters p = 0) :
    InStep (manifest.kernelContract textLength) memory reference
      { lastAttended := manifest.initialAttended, counters := fun _ => 0 } := by
  rw [AlignmentControllerReference.construct] at h
  split_ifs at h with hinvalid
  rw [Except.ok.injEq] at h
  subst h
  refine ⟨⟨hlast, hcounters⟩, ⟨rfl, ?_⟩, ⟨List.length_replicate, ?_, ?_⟩, rfl⟩
  · intro p _
    simp [AlignmentControllerReference.state]
  · change manifest.initialAttended < textLength
    omega
  · change textLength ≤ maximumUint32
    exact hlength.trans (by decide)

/-- Scores that rise along the text. -/
def risingRow : ScoreRow ℤ where
  conditional := fun p => p
  unconditional := fun _ => .nan

/-- A cleared workspace in front of the first step. -/
def clearedMemory : AlignmentMemory where
  counters := fun _ => 0
  lastAttended := 1
  nextPrior := fun _ => .epsilon
  attendedTokenIndex := 0
  unfinishedText := false
  invalidState := 0

/-- **The kernel against the reference, over whole runs.** From a cleared workspace and a fresh
controller, for every text the kernel accepts and every sequence of finite rows, both agree after
every step if and only if every step is covered. -/
theorem lockStepAgrees_iff_stepsMeet (manifest : AlignmentManifest) (textLength : ℕ)
    (hlength : textLength ≤ kMaximumTextTokens) (hlookahead : 0 < manifest.lookahead)
    (hthreshold : 0 < manifest.sinkThreshold) (reference : AlignmentControllerReference)
    (h : AlignmentControllerReference.construct textLength manifest = .ok reference)
    (memory : AlignmentMemory) (hlast : memory.lastAttended = manifest.initialAttended)
    (hcounters : ∀ p < textLength, memory.counters p = 0) (rows : List (ScoreRow α)) :
    LockStepAgrees (manifest.kernelContract textLength) memory reference rows ↔
      StepsMeet (AttentionPrior.advance (manifest.kernelContract textLength))
        (AttentionPrior.Covered (manifest.kernelContract textLength))
        { lastAttended := manifest.initialAttended, counters := fun _ => 0 } rows :=
  lockStepAgrees_iff_stepsMeet_covered
    (rejectsContract_kernelContract hlength hlookahead hthreshold h) rows
    (inStep_construct hlength h hlast hcounters)

theorem lockStepAgrees_iff_stepsMeet_short :
    ∃ reference, AlignmentControllerReference.construct 39 acceptedAlignment = .ok reference ∧
      (LockStepAgrees (acceptedAlignment.kernelContract 39) clearedMemory reference
          [risingRow, risingRow] ↔
        StepsMeet (AttentionPrior.advance (acceptedAlignment.kernelContract 39))
          (AttentionPrior.Covered (acceptedAlignment.kernelContract 39))
          { lastAttended := 1, counters := fun _ => 0 } [risingRow, risingRow]) :=
  ⟨_, rfl, lockStepAgrees_iff_stepsMeet acceptedAlignment 39 (by decide) (by decide) (by decide) _
    rfl clearedMemory rfl (fun _ _ => rfl) _⟩

/-- A text that fits in the block is covered at every step. -/
theorem AttentionPrior.covered_of_textLength_le (hlength : contract.textLength ≤ kThreads)
    (hends : LookaheadEnds contract) (state : AttentionPrior.State) (row : ScoreRow α) :
    AttentionPrior.Covered contract state row := by
  refine Or.inr ⟨hends, fun p hp hr => ?_⟩
  have hlt : p < contract.textLength := hr.1
  omega

/-! ### A text longer than the block -/

theorem firstMaximum_risingRow {start stop : ℕ} (hlt : start < stop) (otherwise : ℕ) :
    firstMaximum risingRow.conditional start stop otherwise = stop - 1 := by
  have hle := le_firstMaximum (show start ≤ stop - 1 by omega) (show stop - 1 < stop by omega)
    risingRow.conditional otherwise
  have hmem := firstMaximum_mem hlt risingRow.conditional otherwise
  simp only [risingRow] at hle hmem ⊢
  omega

/-- The state after `k` rising rows: the position has moved by five in every step. -/
structure RisingState (k : ℕ) (state : AttentionPrior.State) : Prop where
  lastAttended_eq : state.lastAttended = 1 + 5 * k
  counters_le : ∀ p, state.counters p ≤ 1
  counters_eq : ∀ p, 1 + 5 * k < p → state.counters p = 0

namespace RisingState

variable {k : ℕ}

theorem attended_eq (h : RisingState k state) (hk : k < 59) :
    AttentionPrior.attended (acceptedAlignment.kernelContract 300) state risingRow = 6 + 5 * k := by
  have hstart : AttentionPrior.windowStart (acceptedAlignment.kernelContract 300) state =
      1 + 5 * k := by
    have hle := h.counters_le state.lastAttended
    have hthreshold : (acceptedAlignment.kernelContract 300).sinkThreshold = 4 := rfl
    rw [AttentionPrior.windowStart, hthreshold, if_neg (by omega), h.lastAttended_eq]
  have hstop : min (1 + 5 * k + (acceptedAlignment.kernelContract 300).lookahead)
      (AttentionPrior.contentEnd (acceptedAlignment.kernelContract 300)) = 7 + 5 * k := by
    change min (1 + 5 * k + 6) 297 = _
    omega
  rw [AttentionPrior.attended, hstart, hstop, firstMaximum_risingRow (by omega)]
  omega

theorem not_exhausted (h : RisingState k state) :
    ¬ AttentionPrior.Exhausted (acceptedAlignment.kernelContract 300) state risingRow := by
  have hle := h.counters_le
    (AttentionPrior.attended (acceptedAlignment.kernelContract 300) state risingRow)
  rw [AttentionPrior.Exhausted, maximumUint32]
  omega

theorem advance (h : RisingState k state) (hk : k < 59) :
    RisingState (k + 1)
      (AttentionPrior.advance (acceptedAlignment.kernelContract 300) state risingRow) := by
  have hzero := h.counters_eq (6 + 5 * k) (by omega)
  rw [AttentionPrior.advance, if_neg h.not_exhausted, h.attended_eq hk]
  refine ⟨by change 6 + 5 * k = _; omega, fun p => ?_, fun p hp => ?_⟩
  · simp only [AttentionPrior.countVisit, Function.update_apply, hzero]
    split
    · exact le_refl 1
    · exact h.counters_le p
  · simp only [AttentionPrior.countVisit, Function.update_apply]
    rw [if_neg (by omega)]
    exact h.counters_eq p (by omega)

theorem run_replicate : (k : ℕ) → k < 59 →
    RisingState k (run (AttentionPrior.advance (acceptedAlignment.kernelContract 300))
      { lastAttended := 1, counters := fun _ => 0 } (List.replicate k risingRow))
  | 0, _ => ⟨rfl, fun _ => Nat.zero_le 1, fun _ _ => rfl⟩
  | k + 1, hk => by
      rw [List.replicate_succ', run_concat]
      exact (run_replicate k (by omega)).advance (by omega)

/-- The fiftieth rising row is to raise position 256, which no thread of the block does. -/
theorem not_covered (h : RisingState 49 state) :
    ¬ AttentionPrior.Covered (acceptedAlignment.kernelContract 300) state risingRow := by
  rintro (hexhausted | ⟨-, hcover⟩)
  · exact h.not_exhausted hexhausted
  · apply hcover 256 (by decide)
    rw [h.attended_eq (by omega)]
    refine ⟨by decide, Or.inr (Or.inr (Or.inr ⟨5, by decide, by decide, by decide⟩)), ?_⟩
    intro sink hsink
    have hle := (h.advance (by omega)).counters_le sink
    have hge : 4 ≤ _ := hsink.2
    omega

end RisingState

/-- On a text of 300 tokens the kernel leaves the prior at position 256, which the reference
raises. -/
theorem not_lockStepAgrees_risingRow :
    ∃ reference, AlignmentControllerReference.construct 300 acceptedAlignment = .ok reference ∧
      ¬ LockStepAgrees (acceptedAlignment.kernelContract 300) clearedMemory reference
        (List.replicate 50 risingRow) := by
  refine ⟨_, rfl, fun hagrees => ?_⟩
  have hlength : 300 ≤ kMaximumTextTokens := by decide
  rw [lockStepAgrees_iff_stepsMeet_covered (by decide) _
    (inStep_construct hlength (show AlignmentControllerReference.construct 300 acceptedAlignment =
      .ok _ from rfl) rfl fun _ _ => rfl), show 50 = 49 + 1 from rfl, List.replicate_succ',
      stepsMeet_append] at hagrees
  exact (RisingState.run_replicate 49 (by omega)).not_covered hagrees.2.1

end MagpieTts.Runtime
