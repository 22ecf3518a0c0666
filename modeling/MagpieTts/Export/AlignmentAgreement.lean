import MagpieTts.Export.SofiaAlignmentController
import MagpieTts.Library.Run
import MagpieTts.Runtime.AlignmentController

/-!
# The host's and the exporter's alignment controllers

`AlignmentControllerReference::advance` searches an explicit window, `SofiaAlignmentController`
masks the row and takes the `argmax` of all of it. Both are the abstract controller, so they agree
step by step, with one exception: the host counts visits in 32 bits and rejects the visit of a
position whose counter is exhausted.

## Main definitions

* `ControllersAgree`: a run of both controllers on the same rows that agrees after every step.

## Main results

* `controllersAgree_iff`: the controllers agree as long as no exhausted position is visited.
-/

namespace MagpieTts.Export

open MagpieTts.Library MagpieTts.Runtime

variable {α : Type*} [LinearOrder α]

/-- The outcome of a step of the exporter's controller agrees with that of the host's. -/
structure UpdateAgrees (controller : SofiaAlignmentController) (update : AlignmentUpdate)
    (reference : AlignmentControllerReference) (result : AlignmentStepResult) : Prop where
  attended : update.attended = result.attendedTokenIndex
  lastAttended : controller.lastAttended = reference.lastAttended
  counters : controller.counters = reference.counters
  prior : update.prior.flatten = result.nextPrior

/-- Both controllers accept every row, and agree after every one. -/
def ControllersAgree :
    SofiaAlignmentController → AlignmentControllerReference → List (ScoreRow α) → Prop
  | _, _, [] => True
  | controller, reference, row :: rows =>
    ∃ controller' update reference' result,
      controller.update (controller.scoreTensor row) = .ok (controller', update) ∧
        reference.advance (row.scores controller.textLength) = some (reference', .ok result) ∧
        UpdateAgrees controller' update reference' result ∧
        ControllersAgree controller' reference' rows

/-- Two controllers between steps. -/
structure SameState (controller : SofiaAlignmentController)
    (reference : AlignmentControllerReference) : Prop where
  controller_wellFormed : controller.WellFormed
  reference_wellFormed : reference.WellFormed
  contract_eq : reference.contract = controller.contract
  state_eq : reference.state = controller.state

variable {controller : SofiaAlignmentController} {reference : AlignmentControllerReference}

theorem SameState.textLength_eq (h : SameState controller reference) :
    reference.textLength = controller.textLength :=
  congrArg AlignmentKernelContract.textLength h.contract_eq

theorem SameState.counters_eq (h : SameState controller reference) :
    controller.counters = reference.counters := by
  have hlength : controller.counters.length = reference.counters.length := by
    rw [h.controller_wellFormed.length_counters, h.reference_wellFormed.length_counters,
      h.textLength_eq]
  refine List.ext_getElem hlength fun p hp hp' => ?_
  have hcounter := congrFun (congrArg AttentionPrior.State.counters h.state_eq) p
  simp only [AlignmentControllerReference.state, SofiaAlignmentController.state,
    List.getD_eq_getElem _ _ hp, List.getD_eq_getElem _ _ hp'] at hcounter
  exact hcounter.symm

/-- Two rows of prior values of one length that are one at the same positions are the same. -/
theorem prior_ext {prior prior' : List PriorValue} (hlength : prior.length = prior'.length)
    (hone : ∀ p, prior.getD p .epsilon = .one ↔ prior'.getD p .epsilon = .one) :
    prior = prior' := by
  refine List.ext_getElem hlength fun p hp hp' => ?_
  have hvalue := hone p
  rw [List.getD_eq_getElem _ _ hp, List.getD_eq_getElem _ _ hp'] at hvalue
  rcases hleft : prior[p] with _ | _ <;> rcases hright : prior'[p] with _ | _ <;>
    simp_all

/-- The two rows of the exporter's prior against the host's vector. -/
theorem flatten_eq_nextPrior {textLength : ℕ} {conditional nextPrior : List PriorValue}
    {P : ℕ → Prop} (hbelow : ∀ p, P p → p < textLength)
    (hconditional : conditional.length = textLength)
    (hraised : ∀ p, conditional.getD p .epsilon = .one ↔ P p)
    (hlength : nextPrior.length = textLength * 2)
    (hnext : ∀ p, nextPrior.getD p .epsilon = .one ↔ P p) :
    [conditional, List.replicate textLength .epsilon].flatten = nextPrior := by
  have hflatten : [conditional, List.replicate textLength .epsilon].flatten =
      conditional ++ List.replicate textLength .epsilon := by simp
  rw [hflatten]
  refine prior_ext (by rw [List.length_append, List.length_replicate]; omega) fun p => ?_
  rw [hnext]
  rcases Nat.lt_or_ge p textLength with hp | hp
  · rw [List.getD_append _ _ _ _ (by omega), hraised]
  · rw [List.getD_append_right _ _ _ _ (by omega)]
    constructor
    · intro hone
      rw [List.getD_eq_getElem?_getD, List.getElem?_replicate] at hone
      split_ifs at hone <;> cases hone
    · exact fun hP => absurd (hbelow p hP) (Nat.not_lt.mpr hp)

/-- One step of both, if the counter of the position is not exhausted. -/
theorem SameState.step (h : SameState controller reference) (row : ScoreRow α)
    (hexhausted : ¬ AttentionPrior.Exhausted controller.contract controller.state row) :
    ∃ controller' update reference' result,
      controller.update (controller.scoreTensor row) = .ok (controller', update) ∧
        reference.advance (row.scores controller.textLength) = some (reference', .ok result) ∧
        UpdateAgrees controller' update reference' result ∧ SameState controller' reference' ∧
        controller'.contract = controller.contract ∧
        controller'.state = AttentionPrior.advance controller.contract controller.state row := by
  obtain ⟨controller', update, hupdate, hupdated⟩ :=
    SofiaAlignmentController.update_eq h.controller_wellFormed row
  have hends : LookaheadEnds reference.contract := by
    rw [h.contract_eq]
    exact Or.inr (show acceptedAlignment.lookahead ≠ maximumUint32 by decide)
  have hreference : ¬ AttentionPrior.Exhausted reference.contract reference.state row := by
    rwa [h.contract_eq, h.state_eq]
  obtain ⟨reference', result, hadvance, hadvanced⟩ :=
    AlignmentControllerReference.advance_eq_ok h.reference_wellFormed hreference hends
  have hcontract : controller'.contract = controller.contract :=
    congrArg acceptedAlignment.kernelContract hupdated.textLength_eq
  have hstate : controller'.state =
      AttentionPrior.advance controller.contract controller.state row := by
    rw [AttentionPrior.advance, if_neg hexhausted, ← hupdated.counters_eq,
      ← hupdated.lastAttended_eq]
    rfl
  have hsame : SameState controller' reference' :=
    { controller_wellFormed := hupdated.wellFormed
      reference_wellFormed := hadvanced.wellFormed
      contract_eq := by rw [hadvanced.contract_eq, h.contract_eq, hcontract]
      state_eq := by rw [hadvanced.state_eq, h.contract_eq, h.state_eq, hstate] }
  refine ⟨controller', update, reference', result, hupdate, ?_, ⟨?_, ?_, ?_, ?_⟩, hsame, hcontract,
    hstate⟩
  · rw [← h.textLength_eq]
    exact hadvance
  · rw [hupdated.attended_eq, hadvanced.attended_eq, h.contract_eq, h.state_eq]
  · exact congrArg AttentionPrior.State.lastAttended hsame.state_eq.symm
  · exact hsame.counters_eq
  · obtain ⟨conditional, hlength, hprior, hraised⟩ := hupdated.prior_eq
    have hlengthNext := hadvanced.length_prior
    have hnext := hadvanced.prior_iff
    rw [h.textLength_eq] at hlengthNext
    rw [h.contract_eq, h.state_eq, ← hstate] at hnext
    rw [hprior]
    exact flatten_eq_nextPrior (fun _ hp => hp.1) hlength hraised hlengthNext hnext

/-- The visit of an exhausted position: the host's controller rejects it. -/
theorem SameState.not_ok (h : SameState controller reference) {row : ScoreRow α}
    (hexhausted : AttentionPrior.Exhausted controller.contract controller.state row)
    {reference' : AlignmentControllerReference} {result : AlignmentStepResult} :
    reference.advance (row.scores controller.textLength) ≠ some (reference', .ok result) := by
  intro hadvance
  rw [← h.contract_eq, ← h.state_eq] at hexhausted
  obtain ⟨next, error, herror, -⟩ :=
    AlignmentControllerReference.advance_eq_error h.reference_wellFormed hexhausted
  rw [h.textLength_eq, hadvance] at herror
  cases herror

/-! ### Runs -/

/-- By induction on the rows, from any two controllers in the same state. -/
theorem SameState.agree_iff_stepsMeet (h : SameState controller reference)
    (rows : List (ScoreRow α)) :
    ControllersAgree controller reference rows ↔
      StepsMeet (AttentionPrior.advance controller.contract)
        (fun state row => ¬ AttentionPrior.Exhausted controller.contract state row)
        controller.state rows := by
  induction rows generalizing controller reference with
  | nil => exact Iff.rfl
  | cons row rows ih =>
    rw [ControllersAgree, StepsMeet]
    constructor
    · rintro ⟨controller', update, reference', result, hupdate, hadvance, -, hrest⟩
      have hexhausted : ¬ AttentionPrior.Exhausted controller.contract controller.state row :=
        fun hexhausted => h.not_ok hexhausted hadvance
      obtain ⟨_, _, _, _, hupdate', hadvance', -, hsame, hcontract, hstate⟩ :=
        h.step row hexhausted
      rw [hupdate, Except.ok.injEq, Prod.mk.injEq] at hupdate'
      rw [hadvance, Option.some.injEq, Prod.mk.injEq] at hadvance'
      rw [← hupdate'.1, ← hadvance'.1] at hsame
      rw [← hupdate'.1] at hcontract hstate
      refine ⟨hexhausted, ?_⟩
      rw [← hstate, ← hcontract]
      exact (ih hsame).mp hrest
    · rintro ⟨hexhausted, hrest⟩
      obtain ⟨controller', update, reference', result, hupdate, hadvance, hagrees, hsame, hcontract,
        hstate⟩ := h.step row hexhausted
      rw [← hstate, ← hcontract] at hrest
      exact ⟨controller', update, reference', result, hupdate, hadvance, hagrees,
        (ih hsame).mpr hrest⟩

/-- A counter is at most the number of the steps, so it is not exhausted in fewer than `2 ^ 32`
steps. By induction on the rows that are left. -/
theorem stepsMeet_not_exhausted (contract : AlignmentKernelContract) {state : AttentionPrior.State}
    (steps : ℕ) (hcounters : ∀ p, state.counters p ≤ steps) (rows : List (ScoreRow α))
    (hrows : steps + rows.length ≤ maximumUint32) :
    StepsMeet (AttentionPrior.advance contract)
      (fun state row => ¬ AttentionPrior.Exhausted contract state row) state rows := by
  induction rows generalizing state steps with
  | nil => trivial
  | cons row rows ih =>
    rw [List.length_cons] at hrows
    have hexhausted : ¬ AttentionPrior.Exhausted contract state row := by
      intro hexhausted
      have := hcounters (AttentionPrior.attended contract state row)
      rw [hexhausted] at this
      omega
    refine ⟨hexhausted, ih (steps + 1) (fun p => ?_) (by omega)⟩
    have hle := hcounters p
    simp only [AttentionPrior.advance, if_neg hexhausted, AttentionPrior.countVisit,
      Function.update_apply]
    split_ifs with hp
    · rw [← hp]
      omega
    · omega

/-- The controllers of a text, in front of the first step. -/
theorem exists_sameState {textLength : ℕ} (hlength : 4 ≤ textLength)
    (hword : textLength ≤ maximumUint32) (device : String) :
    ∃ controller reference,
      SofiaAlignmentController.init textLength device .bfloat16 = .ok controller ∧
        AlignmentControllerReference.construct textLength acceptedAlignment = .ok reference ∧
        SameState controller reference ∧
        controller.contract = acceptedAlignment.kernelContract textLength ∧
        controller.state = { lastAttended := 1, counters := fun _ => 0 } := by
  have hcounters : (fun p => (List.replicate textLength 0).getD p 0) = fun _ => 0 := by
    funext p
    rw [List.getD_eq_getElem?_getD, List.getElem?_replicate]
    split_ifs <;> rfl
  have hlast : min initialAttended (textLength - 1) = 1 := by
    rw [initialAttended]
    omega
  refine ⟨_, _, by rw [SofiaAlignmentController.init, if_neg (by omega), if_neg (by decide)],
    by rw [AlignmentControllerReference.construct, if_neg (by simp [acceptedAlignment]; omega)],
    ⟨⟨List.length_replicate, ?_, rfl⟩, ⟨List.length_replicate, ?_, hword⟩, rfl, ?_⟩, rfl, ?_⟩
  · change min initialAttended (textLength - 1) < textLength
    omega
  · change 1 < textLength
    omega
  · rw [AlignmentControllerReference.state, SofiaAlignmentController.state, hlast]
    rfl
  · rw [SofiaAlignmentController.state, hlast, hcounters]

/-- **The two controllers agree.** For every text of at least four tokens and every sequence of
finite conditional rows, the two controllers accept every row and agree after every step if and
only if no step visits a position whose counter is exhausted; in particular on all sequences of
fewer than `2 ^ 32` rows. -/
theorem controllersAgree_iff {textLength : ℕ} (hlength : 4 ≤ textLength)
    (hword : textLength ≤ maximumUint32) (device : String) :
    ∃ controller reference,
      SofiaAlignmentController.init textLength device .bfloat16 = .ok controller ∧
        AlignmentControllerReference.construct textLength acceptedAlignment = .ok reference ∧
        ∀ rows : List (ScoreRow α),
          (ControllersAgree controller reference rows ↔
            StepsMeet (AttentionPrior.advance (acceptedAlignment.kernelContract textLength))
              (fun state row => ¬ AttentionPrior.Exhausted
                (acceptedAlignment.kernelContract textLength) state row)
              { lastAttended := 1, counters := fun _ => 0 } rows) ∧
          (rows.length < 2 ^ 32 → ControllersAgree controller reference rows) := by
  obtain ⟨controller, reference, hinit, hconstruct, hsame, hcontract, hstate⟩ :=
    exists_sameState hlength hword device
  refine ⟨controller, reference, hinit, hconstruct, fun rows => ?_⟩
  have hiff := hsame.agree_iff_stepsMeet rows
  rw [hcontract, hstate] at hiff
  refine ⟨hiff, fun hrows => hiff.mpr ?_⟩
  refine stepsMeet_not_exhausted _ 0 (fun _ => le_rfl) rows ?_
  rw [maximumUint32]
  omega

/-- A row that rises along the text. -/
def risingScores : ScoreRow ℤ where
  conditional := fun p => p
  unconditional := fun _ => .nan

theorem controllersAgree_iff_two_rows :
    ∃ controller reference,
      SofiaAlignmentController.init 7 "cuda:0" .bfloat16 = .ok controller ∧
        AlignmentControllerReference.construct 7 acceptedAlignment = .ok reference ∧
        ControllersAgree controller reference [risingScores, risingScores] := by
  obtain ⟨controller, reference, hinit, hconstruct, hagree⟩ :=
    controllersAgree_iff (α := ℤ) (show 4 ≤ 7 by decide) (by decide) "cuda:0"
  exact ⟨controller, reference, hinit, hconstruct, (hagree _).2 (by decide)⟩

/-! ### The last token of a short text -/

/-- In a text of four tokens the window behind the first token is empty. -/
theorem attended_four {state : AttentionPrior.State} (hlast : 1 ≤ state.lastAttended) :
    AttentionPrior.attended (acceptedAlignment.kernelContract 4) state risingScores = 3 := by
  have hstart : 1 ≤ AttentionPrior.windowStart (acceptedAlignment.kernelContract 4) state := by
    rw [AttentionPrior.windowStart]
    split_ifs <;> omega
  have hend : AttentionPrior.contentEnd (acceptedAlignment.kernelContract 4) = 1 := rfl
  rw [AttentionPrior.attended, hend, firstMaximum_of_le (by omega)]
  rfl

/-- After `steps` rows the counter of the last token is their number. -/
theorem run_replicate_four (steps : ℕ) (hsteps : steps ≤ maximumUint32) :
    1 ≤ (run (AttentionPrior.advance (acceptedAlignment.kernelContract 4))
        { lastAttended := 1, counters := fun _ => 0 }
        (List.replicate steps risingScores)).lastAttended ∧
      (run (AttentionPrior.advance (acceptedAlignment.kernelContract 4))
        { lastAttended := 1, counters := fun _ => 0 }
        (List.replicate steps risingScores)).counters 3 = steps := by
  induction steps with
  | zero => exact ⟨le_rfl, rfl⟩
  | succ steps ih =>
    obtain ⟨hlast, hcounter⟩ := ih (by omega)
    have hattended := attended_four hlast
    rw [List.replicate_succ', run_concat, AttentionPrior.advance, hattended]
    refine ⟨show 1 ≤ 3 by omega, ?_⟩
    rw [if_neg (by rw [AttentionPrior.Exhausted, hattended, hcounter]; omega),
      AttentionPrior.countVisit]
    simp only [Function.update_self, hcounter]

/-- In the row after `2 ^ 32 - 1` rows the host's controller rejects the last token of a text of
four tokens. -/
theorem not_controllersAgree_four :
    ∃ controller reference,
      SofiaAlignmentController.init 4 "cuda:0" .bfloat16 = .ok controller ∧
        AlignmentControllerReference.construct 4 acceptedAlignment = .ok reference ∧
        ¬ ∀ rows : List (ScoreRow ℤ), ControllersAgree controller reference rows := by
  obtain ⟨controller, reference, hinit, hconstruct, hsame, hcontract, hstate⟩ :=
    exists_sameState (show 4 ≤ 4 by decide) (by decide) "cuda:0"
  refine ⟨controller, reference, hinit, hconstruct, fun hall => ?_⟩
  have hmeet := (hsame.agree_iff_stepsMeet _).mp
    (hall (List.replicate maximumUint32 risingScores ++ [risingScores]))
  rw [hcontract, hstate, stepsMeet_append] at hmeet
  obtain ⟨hlast, hcounter⟩ := run_replicate_four maximumUint32 le_rfl
  refine hmeet.2.1 ?_
  rw [AttentionPrior.Exhausted, attended_four hlast, hcounter]

end MagpieTts.Export
