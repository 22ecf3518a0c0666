import MagpieTts.Library.RowTensor
import MagpieTts.Runtime.AttentionPrior
import Mathlib.Algebra.Group.Nat.Defs

/-!
# The exporter's alignment controller

`SofiaAlignmentController` of `alignment_controller.py`, which the sequence validator of the
exporter runs in front of the decoder. One step is a sequence of tensor operations on rows as long
as the text: masks, an `argmax` over the whole row, a scatter and fills.

A tensor of one row is modelled by its row, and a 64-bit integer by a natural number or an integer.

## Main definitions

* `AlignmentTensor`: the scores that a step is given.
* `SofiaAlignmentController.init`, `SofiaAlignmentController.update`: the constructor and a step.

## Main results

* `SofiaAlignmentController.update_eq`: a step on finite conditional scores is that of the abstract
  controller.
-/

namespace MagpieTts.Export

open MagpieTts.Library MagpieTts.Runtime

variable {α : Type*} [LinearOrder α]

def cfgRows : ℕ := 2

def initialAttended : ℕ := 1

def ignoredTerminalTokens : ℕ := 3

def shortTextNoPriorMaxTokens : ℕ := 5

def lookahead : ℕ := 6

def sinkThreshold : ℕ := 4

inductive TensorDtype
  | bfloat16
  | float16
  | float32
  deriving DecidableEq

def TensorDtype.text : TensorDtype → String
  | bfloat16 => "torch.bfloat16"
  | float16 => "torch.float16"
  | float32 => "torch.float32"

/-- A tensor of scores, row-major. -/
structure AlignmentTensor (α : Type*) where
  shape : List ℕ
  data : List (Score α)
  length_data : data.length = shape.prod
  dtype : TensorDtype
  device : String

/-- The text of a shape, as that of a tuple. -/
def shapeText (shape : List ℕ) : String :=
  "(" ++ String.intercalate ", " (shape.map toString) ++ (if shape.length = 1 then ",)" else ")")

/-- `AlignmentUpdate`: the prior of the next step, one row of the text for each row of the batch,
and the attended position. -/
structure AlignmentUpdate where
  prior : List (List PriorValue)
  attended : ℕ
  deriving DecidableEq

structure SofiaAlignmentController where
  textLength : ℕ
  device : String
  dtype : TensorDtype
  lastAttended : ℕ
  counters : List ℕ
  positions : List ℕ
  deriving DecidableEq

/-- The order of `torch.argmax`: a score that is not a number is the greatest. -/
def scoreExceeds : Score α → Score α → Bool
  | .nan, .nan => false
  | .nan, _ => true
  | _, .nan => false
  | a, b => a.gt b

namespace SofiaAlignmentController

/-- The constructor. -/
def init (textLength : ℕ) (device : String) (dtype : TensorDtype) :
    Except String SofiaAlignmentController :=
  if textLength < 1 then
    .error ("text_length must be positive, got " ++ toString textLength)
  else if dtype ≠ .bfloat16 then
    .error ("Sofia alignment dtype must be BF16, got " ++ dtype.text)
  else
    .ok
      { textLength := textLength
        device := device
        dtype := dtype
        lastAttended := min initialAttended (textLength - 1)
        counters := List.replicate textLength 0
        positions := List.range textLength }

def searchStart (self : SofiaAlignmentController) : ℕ :=
  let lastCount := self.counters.getD self.lastAttended 0
  min (self.lastAttended + if sinkThreshold ≤ lastCount then 1 else 0) self.textLength

/-- In a text of fewer tokens than the ignored ones the difference is negative in the source; the
window is empty either way. -/
def windowEnd (self : SofiaAlignmentController) : ℕ :=
  min (self.searchStart + lookahead) (self.textLength - ignoredTerminalTokens)

/-- The scores of the conditional row, with minus infinity outside the window. -/
def maskedScores (self : SofiaAlignmentController) (scores : List (Score α)) : List (Score α) :=
  let validWindow := self.positions.map fun p =>
    decide (self.searchStart ≤ p ∧ p < self.windowEnd)
  maskedFill (validWindow.map (! ·)) .negativeInfinity scores

def attend (self : SofiaAlignmentController) (scores : List (Score α)) : ℕ :=
  let maximum := argmax scoreExceeds .nan (self.maskedScores scores)
  if self.searchStart < self.windowEnd then maximum else self.textLength - 1

/-- The positions that are raised: the one before the attended one, which is clamped to the text,
the attended one and the lookahead. -/
def priorIndices (self : SofiaAlignmentController) (attended : ℕ) : List ℕ :=
  let historyFloor := min initialAttended (self.textLength - 1)
  [min (max (attended - 1) historyFloor) (self.textLength - 1), attended] ++
    (List.range' 1 lookahead).map fun offset => min (attended + offset) (self.textLength - 1)

/-- The last position whose counter has reached the threshold, or `-1`. -/
def maximumSink (self : SofiaAlignmentController) : ℤ :=
  (maskedFill (self.counters.map (· < sinkThreshold)) (-1)
    (self.positions.map fun p : ℕ => (p : ℤ))).max?.getD (-1)

/-- The prior of the conditional row. -/
def conditionalPrior (self : SofiaAlignmentController) (attended : ℕ) : List PriorValue :=
  let conditional := List.replicate self.textLength PriorValue.epsilon
  let conditional := scatter (self.priorIndices attended) .one conditional
  let conditional :=
    if self.textLength ≤ shortTextNoPriorMaxTokens then List.replicate self.textLength .one
    else conditional
  maskedFill (self.positions.map fun p : ℕ => decide ((p : ℤ) ≤ self.maximumSink)) .epsilon
    conditional

/-- The controller after a visit of the position. -/
def visit (self : SofiaAlignmentController) (attended : ℕ) : SofiaAlignmentController :=
  { self with
    lastAttended := attended
    counters := self.counters.set attended (self.counters.getD attended 0 + 1) }

def update (self : SofiaAlignmentController) (alignment : AlignmentTensor α) :
    Except String (SofiaAlignmentController × AlignmentUpdate) :=
  if alignment.shape ≠ [cfgRows, self.textLength] ∨ alignment.dtype ≠ self.dtype ∨
      alignment.device ≠ self.device then
    .error ("alignment does not match controller state: expected=" ++
      shapeText [cfgRows, self.textLength] ++ "/" ++ self.dtype.text ++ "/" ++ self.device ++
      ", actual=" ++ shapeText alignment.shape ++ "/" ++ alignment.dtype.text ++ "/" ++
      alignment.device)
  else
    let attended := self.attend (alignment.data.take self.textLength)
    let visited := self.visit attended
    .ok (visited,
      { prior := [visited.conditionalPrior attended,
          List.replicate self.textLength .epsilon]
        attended := attended })

/-! ### A step against the abstract controller -/

/-- The numbers of the contract. -/
def contract (self : SofiaAlignmentController) : AlignmentKernelContract :=
  acceptedAlignment.kernelContract self.textLength

/-- The abstract state of the controller. -/
def state (self : SofiaAlignmentController) : AttentionPrior.State where
  lastAttended := self.lastAttended
  counters := fun p => self.counters.getD p 0

/-- What the constructor establishes and every step keeps. -/
structure WellFormed (controller : SofiaAlignmentController) : Prop where
  length_counters : controller.counters.length = controller.textLength
  lastAttended_lt : controller.lastAttended < controller.textLength
  positions_eq : controller.positions = List.range controller.textLength

variable {self : SofiaAlignmentController}

theorem searchStart_eq (hwf : self.WellFormed) :
    self.searchStart = AttentionPrior.windowStart self.contract self.state := by
  have hlast := hwf.lastAttended_lt
  change min (self.lastAttended +
      if sinkThreshold ≤ self.counters.getD self.lastAttended 0 then 1 else 0) self.textLength =
    if sinkThreshold ≤ self.counters.getD self.lastAttended 0 then self.lastAttended + 1
    else self.lastAttended
  split_ifs <;> omega

theorem windowEnd_eq :
    self.windowEnd = min (self.searchStart + self.contract.lookahead)
      (AttentionPrior.contentEnd self.contract) := rfl

omit [LinearOrder α] in
/-- The entry of the masked row at a position of the text. -/
theorem getD_maskedScores (hwf : self.WellFormed) (row : ScoreRow α) {p : ℕ}
    (hp : p < self.textLength) :
    (self.maskedScores (row.scores self.textLength)).getD p .nan =
      if self.searchStart ≤ p ∧ p < self.windowEnd then .finite (row.conditional p)
      else .negativeInfinity := by
  have hlength := row.length_scores self.textLength
  have hmask : ((self.positions.map fun p => decide (self.searchStart ≤ p ∧ p < self.windowEnd)).map
      (! ·)) = (List.range (row.scores self.textLength).length).map fun p =>
        ! decide (self.searchStart ≤ p ∧ p < self.windowEnd) := by
    rw [hwf.positions_eq, hlength, List.map_map]
    rfl
  rw [maskedScores, hmask, getD_maskedFill _ _ (by rwa [hlength]), row.getD_scores hp]
  by_cases hwindow : self.searchStart ≤ p ∧ p < self.windowEnd <;> simp [hwindow]

omit [LinearOrder α] in
theorem length_maskedScores (hwf : self.WellFormed) (row : ScoreRow α) :
    (self.maskedScores (row.scores self.textLength)).length = self.textLength := by
  rw [maskedScores, length_maskedFill, row.length_scores]
  rw [List.length_map, List.length_map, hwf.positions_eq, List.length_range, row.length_scores]

/-- The `argmax` over the whole masked row is the first maximum of the window. -/
theorem attend_eq (hwf : self.WellFormed) (row : ScoreRow α) :
    self.attend (row.scores self.textLength) =
      AttentionPrior.attended self.contract self.state row := by
  have hcontent := AttentionPrior.contentEnd_le self.contract
  have htext : self.contract.textLength = self.textLength := rfl
  rw [attend, AttentionPrior.attended, ← searchStart_eq hwf, ← windowEnd_eq]
  split_ifs with hwindow
  · have hend : self.windowEnd ≤ self.textLength := by
      rw [windowEnd_eq]
      omega
    obtain ⟨hstart, hstop⟩ := firstMaximum_mem hwindow row.conditional
      (self.contract.textLength - 1)
    have hbest := getD_maskedScores hwf row (show firstMaximum row.conditional self.searchStart
      self.windowEnd (self.contract.textLength - 1) < self.textLength by omega)
    rw [if_pos ⟨hstart, hstop⟩] at hbest
    refine argmax_eq (by rw [length_maskedScores hwf]; omega) (fun q hq => ?_) fun q hq => ?_
    · rw [length_maskedScores hwf] at hq
      rw [hbest, getD_maskedScores hwf row hq]
      split_ifs with hin
      · exact decide_eq_false (not_lt.mpr (le_firstMaximum hin.1 hin.2 row.conditional _))
      · rfl
    · rw [hbest, getD_maskedScores hwf row (by omega)]
      split_ifs with hin
      · exact decide_eq_true (lt_firstMaximum hin.1 row.conditional _ hq hwindow)
      · rfl
  · rw [firstMaximum_of_le (by omega), htext]

theorem maximumSink_lt_iff (hwf : self.WellFormed) (p : ℕ) :
    self.maximumSink < p ↔
      ∀ sink, AttentionPrior.Sink self.contract self.state.counters sink → sink < p := by
  have hlast := hwf.lastAttended_lt
  have hcounters : self.counters.map (fun count => decide (count < sinkThreshold)) =
      (List.range self.textLength).map fun q =>
        decide (self.counters.getD q 0 < sinkThreshold) := by
    conv_lhs => rw [← map_range_getD self.counters 0, List.map_map, hwf.length_counters]
    rfl
  have hrow : maskedFill (self.counters.map (· < sinkThreshold)) (-1)
      (self.positions.map fun q : ℕ => (q : ℤ)) = (List.range self.textLength).map fun q =>
        if self.counters.getD q 0 < sinkThreshold then -1 else (q : ℤ) := by
    rw [hcounters, hwf.positions_eq, maskedFill_map_range]
    simp only [decide_eq_true_eq]
  rw [maximumSink, hrow]
  cases hmax : ((List.range self.textLength).map fun q =>
      if self.counters.getD q 0 < sinkThreshold then (-1 : ℤ) else q).max? with
  | none =>
    rw [List.max?_eq_none_iff, List.map_eq_nil_iff, List.range_eq_nil] at hmax
    omega
  | some maximum =>
    rw [List.max?_eq_some_iff] at hmax
    obtain ⟨hmem, hle⟩ := hmax
    rw [Option.getD_some]
    constructor
    · rintro hlt sink ⟨hsink, hcount⟩
      have := hle _ (List.mem_map.mpr ⟨sink, List.mem_range.mpr hsink, rfl⟩)
      have hnot : ¬ self.counters.getD sink 0 < sinkThreshold := Nat.not_lt.mpr hcount
      rw [if_neg hnot] at this
      omega
    · intro hbelow
      obtain ⟨q, hq, rfl⟩ := List.mem_map.mp hmem
      split_ifs with hcount
      · omega
      · have := hbelow q ⟨List.mem_range.mp hq, Nat.not_lt.mp hcount⟩
        omega

theorem mem_priorIndices_iff {attended p : ℕ} :
    p ∈ self.priorIndices attended ↔
      p = min (max (attended - 1) (min initialAttended (self.textLength - 1)))
        (self.textLength - 1) ∨ p = attended ∨
      ∃ offset, 1 ≤ offset ∧ offset ≤ lookahead ∧
        p = min (attended + offset) (self.textLength - 1) := by
  simp only [priorIndices, List.cons_append, List.nil_append, List.mem_cons, List.mem_map,
    List.mem_range'_1, and_assoc, eq_comm (a := p), Nat.lt_one_add_iff]

/-- The prior of the conditional row is one exactly at the raised positions. -/
theorem conditionalPrior_spec (hwf : self.WellFormed) {attended : ℕ}
    (hattended : attended < self.textLength) :
    (self.conditionalPrior attended).length = self.textLength ∧
      ∀ p, (self.conditionalPrior attended).getD p .epsilon = .one ↔
        AttentionPrior.Raised self.contract self.state.counters attended p := by
  set raised : List PriorValue :=
    if self.textLength ≤ shortTextNoPriorMaxTokens then List.replicate self.textLength .one
    else scatter (self.priorIndices attended) .one (List.replicate self.textLength .epsilon)
    with hraised
  have hlength : raised.length = self.textLength := by
    rw [hraised]
    split_ifs
    · exact List.length_replicate
    · rw [length_scatter, List.length_replicate]
  have hnear : ∀ p < self.textLength, (raised.getD p .epsilon = .one ↔
      AttentionPrior.Near self.contract attended p) := by
    intro p hp
    by_cases hshort : self.textLength ≤ shortTextNoPriorMaxTokens
    · rw [hraised, if_pos hshort, List.getD_eq_getElem _ _ (by simpa), List.getElem_replicate]
      exact ⟨fun _ => Or.inl hshort, fun _ => rfl⟩
    · have hepsilon : (List.replicate self.textLength PriorValue.epsilon).getD p .epsilon =
          .epsilon := by
        rw [List.getD_eq_getElem _ _ (by simpa), List.getElem_replicate]
      have hhistory : min (max (attended - 1) (min initialAttended (self.textLength - 1)))
          (self.textLength - 1) = max (min 1 (self.textLength - 1)) (attended - 1) := by
        rw [initialAttended]
        omega
      have hmember : raised.getD p .epsilon = .one ↔ p ∈ self.priorIndices attended := by
        rw [hraised, if_neg hshort, getD_scatter _ _ (by simpa), hepsilon]
        split_ifs with hmem <;> simp [hmem]
      rw [hmember, mem_priorIndices_iff, hhistory]
      exact ⟨Or.inr, fun h => h.resolve_left hshort⟩
  have hprior : self.conditionalPrior attended = maskedFill ((List.range raised.length).map
      fun p : ℕ => decide ((p : ℤ) ≤ self.maximumSink)) .epsilon raised := by
    rw [conditionalPrior, hwf.positions_eq, hlength]
  refine ⟨by rw [hprior, length_maskedFill (by simp), hlength], fun p => ?_⟩
  rcases Nat.lt_or_ge p self.textLength with hp | hp
  · rw [hprior, getD_maskedFill _ _ (by rwa [hlength]), AttentionPrior.Raised,
      ← maximumSink_lt_iff hwf]
    by_cases hsink : (p : ℤ) ≤ self.maximumSink
    · simp [hsink]
    · simp only [hsink, decide_false, Bool.false_eq_true, if_false, hnear p hp]
      exact ⟨fun h => ⟨hp, h, not_le.mp hsink⟩, fun h => h.2.1⟩
  · rw [List.getD_eq_default _ _ (by rw [hprior, length_maskedFill (by simp), hlength]; exact hp)]
    exact ⟨(fun h => by cases h), fun h => absurd h.1 (Nat.not_lt.mpr hp)⟩

/-- What a step leaves and returns, in the terms of the abstract controller. -/
structure Updated (controller next : SofiaAlignmentController) (row : ScoreRow α)
    (update : AlignmentUpdate) : Prop where
  wellFormed : next.WellFormed
  textLength_eq : next.textLength = controller.textLength
  dtype_eq : next.dtype = controller.dtype
  device_eq : next.device = controller.device
  lastAttended_eq : next.lastAttended =
    AttentionPrior.attended controller.contract controller.state row
  counters_eq : next.state.counters = AttentionPrior.countVisit controller.state.counters
    (AttentionPrior.attended controller.contract controller.state row)
  attended_eq : update.attended = AttentionPrior.attended controller.contract controller.state row
  prior_eq : ∃ conditional : List PriorValue, conditional.length = controller.textLength ∧
    update.prior = [conditional, List.replicate controller.textLength .epsilon] ∧
    ∀ p, conditional.getD p .epsilon = .one ↔
      AttentionPrior.Raised controller.contract next.state.counters
        (AttentionPrior.attended controller.contract controller.state row) p

/-- The scores of a row, the conditional half first, as the tensor that a step accepts. -/
def scoreTensor (self : SofiaAlignmentController) (row : ScoreRow α) : AlignmentTensor α where
  shape := [cfgRows, self.textLength]
  data := (List.range (cfgRows * self.textLength)).map (row.buffer self.textLength)
  length_data := by simp
  dtype := self.dtype
  device := self.device

omit [LinearOrder α] in
theorem take_data_scoreTensor (row : ScoreRow α) :
    (self.scoreTensor row).data.take self.textLength = row.scores self.textLength := by
  have hle : self.textLength ≤ cfgRows * self.textLength := by
    rw [cfgRows]
    omega
  rw [scoreTensor, ScoreRow.scores, ← List.map_take, List.take_range, Nat.min_eq_left hle]

theorem counters_visit (hwf : self.WellFormed) {attended : ℕ}
    (hattended : attended < self.textLength) :
    (self.visit attended).state.counters =
      AttentionPrior.countVisit self.state.counters attended := by
  funext p
  simp only [visit, AttentionPrior.countVisit, state, Function.update_apply,
    List.getD_eq_getElem?_getD, List.getElem?_set, hwf.length_counters]
  grind

/-- The specification of a step on finite conditional scores. -/
theorem update_eq (hwf : self.WellFormed) (row : ScoreRow α) :
    ∃ next update, self.update (self.scoreTensor row) = .ok (next, update) ∧
      Updated self next row update := by
  set attended := AttentionPrior.attended self.contract self.state row with hattended
  have hlt : attended < self.textLength :=
    AttentionPrior.attended_lt (Nat.zero_lt_of_lt hwf.lastAttended_lt) self.state row
  have hvisit : (self.visit attended).WellFormed :=
    { length_counters := (List.length_set ..).trans hwf.length_counters
      lastAttended_lt := hlt
      positions_eq := hwf.positions_eq }
  have hupdate : self.update (self.scoreTensor row) = .ok (self.visit attended,
      { prior := [(self.visit attended).conditionalPrior attended,
          List.replicate self.textLength .epsilon]
        attended := attended }) := by
    rw [update, if_neg, take_data_scoreTensor, attend_eq hwf]
    exact not_or.mpr ⟨not_not.mpr rfl, not_or.mpr ⟨not_not.mpr rfl, not_not.mpr rfl⟩⟩
  obtain ⟨hlength, hraised⟩ := conditionalPrior_spec hvisit hlt
  refine ⟨_, _, hupdate, ?_⟩
  exact
    { wellFormed := hvisit
      textLength_eq := rfl
      dtype_eq := rfl
      device_eq := rfl
      lastAttended_eq := rfl
      counters_eq := counters_visit hwf hlt
      attended_eq := rfl
      prior_eq := ⟨_, hlength, rfl, hraised⟩ }

end SofiaAlignmentController

end MagpieTts.Export
