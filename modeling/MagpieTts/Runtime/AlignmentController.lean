import MagpieTts.Runtime.AttentionPrior

/-!
# The host alignment controller

`AlignmentControllerReference` of `alignment_controller.cpp`, the sequential reference of the device
kernel.

## Main definitions

* `AlignmentControllerReference.construct`: the constructor.
* `AlignmentControllerReference.advance`: one step on a row of scores.
-/

namespace MagpieTts.Runtime

inductive AlignmentControllerErrorCode where
  | invalidTextLength
  | invalidScoreCount
  | nonFiniteScore
  | stateOverflow
  deriving DecidableEq

structure AlignmentControllerError where
  code : AlignmentControllerErrorCode
  detail : String
  deriving DecidableEq

/-- The result of a step. `nextPrior` is row-major, the conditional row before the unconditional
one. -/
structure AlignmentStepResult where
  attendedTokenIndex : ℕ
  unfinishedText : Bool
  nextPrior : List PriorValue
  deriving DecidableEq

structure AlignmentControllerReference where
  textLength : ℕ
  ignoredTerminalTokens : ℕ
  shortTextNoPriorMaxTokens : ℕ
  lookahead : ℕ
  sinkThreshold : ℕ
  lastAttended : ℕ
  counters : List ℕ
  deriving DecidableEq

/-- `std::fill(prior.begin(), prior.begin() + stop, value)`. -/
def fillPrefix (stop : ℕ) (value : PriorValue) (prior : List PriorValue) : List PriorValue :=
  List.replicate stop value ++ prior.drop stop

namespace AlignmentControllerReference

variable {α : Type*} [LinearOrder α]

/-- The constructor. -/
def construct (textLength : ℕ) (contract : AlignmentManifest) :
    Except AlignmentControllerError AlignmentControllerReference :=
  if textLength = 0 ∨ textLength ≤ contract.ignoredTerminalTokens ∨
      textLength ≤ contract.initialAttended then
    .error ⟨.invalidTextLength,
      "text must contain the initial attended token and all ignored terminal tokens"⟩
  else
    .ok
      { textLength
        ignoredTerminalTokens := contract.ignoredTerminalTokens
        shortTextNoPriorMaxTokens := contract.shortTextNoPriorMaxTokens
        lookahead := contract.lookahead
        sinkThreshold := contract.sinkThreshold
        lastAttended := contract.initialAttended
        counters := List.replicate textLength 0 }

def contentEnd (self : AlignmentControllerReference) : ℕ :=
  self.textLength - self.ignoredTerminalTokens

/-- The end of the search window, computed in 64 bits and clamped to 32. -/
def windowEnd (self : AlignmentControllerReference) (searchStart : ℕ) : ℕ :=
  min (min (searchStart + self.lookahead) maximumUint32) self.contentEnd

/-- The search of the window for its first maximal score. -/
def attend (self : AlignmentControllerReference) (scores : List (Score α)) (searchStart : ℕ) : ℕ :=
  let windowEnd := self.windowEnd searchStart
  if searchStart < windowEnd then
    ((List.range' (searchStart + 1) (windowEnd - (searchStart + 1))).foldl
      (fun (attended, best) index =>
        let candidate := scores.getD index .nan
        if candidate.gt best then (index, candidate) else (attended, best))
      (searchStart, scores.getD searchStart .nan)).1
  else
    self.textLength - 1

/-- The last position whose counter has reached the sink threshold, or `-1`. -/
def maximumSinkPosition (self : AlignmentControllerReference) : ℤ :=
  (List.range self.textLength).foldl
    (fun maximum index =>
      if self.sinkThreshold ≤ self.counters.getD index 0 then (index : ℤ) else maximum)
    (-1)

/-- The history position, `std::clamp`ed to the text. -/
def history (self : AlignmentControllerReference) (attended : ℕ) : ℕ :=
  max (min 1 (self.textLength - 1))
    (min (if attended = 0 then 0 else attended - 1) (self.textLength - 1))

/-- The prior before the sinks are lowered. The result is `none` when the lookahead loop does not
end: `offset <= lookahead_` holds of every `std::uint32_t` if the lookahead is the largest one. -/
def raisedPrior (self : AlignmentControllerReference) (attended : ℕ) : Option (List PriorValue) :=
  let prior := List.replicate (self.textLength * 2) PriorValue.epsilon
  if self.textLength ≤ self.shortTextNoPriorMaxTokens then
    some (fillPrefix self.textLength .one prior)
  else if self.lookahead = maximumUint32 then
    none
  else
    let prior := prior.set (self.history attended) .one
    let prior := prior.set attended .one
    some ((List.range' 1 self.lookahead).foldl
      (fun prior offset => prior.set (min (attended + offset) (self.textLength - 1)) .one) prior)

/-- The prior after the sinks are lowered. -/
def nextPrior (self : AlignmentControllerReference) (attended : ℕ) : Option (List PriorValue) :=
  (self.raisedPrior attended).map fun prior =>
    if 0 ≤ self.maximumSinkPosition then
      fillPrefix (self.maximumSinkPosition + 1).toNat .epsilon prior
    else
      prior

/-- `last_attended_ = attended`. -/
def moveTo (self : AlignmentControllerReference) (attended : ℕ) : AlignmentControllerReference :=
  { self with lastAttended := attended }

/-- `++counters_.at(attended)`. -/
def countVisit (self : AlignmentControllerReference) (attended : ℕ) :
    AlignmentControllerReference :=
  { self with counters := self.counters.set attended (self.counters.getD attended 0 + 1) }

/-- One step: the state it leaves and its result or error, or `none` when it does not return. All
positions are inside the vectors, so the bounds checks of `at` do not fire. -/
def advance (self : AlignmentControllerReference) (scores : List (Score α)) :
    Option (AlignmentControllerReference × Except AlignmentControllerError AlignmentStepResult) :=
  if scores.length ≠ self.textLength then
    some (self, .error ⟨.invalidScoreCount,
      "alignment score length differs from the prepared token length"⟩)
  else if ¬ scores.all Score.isfinite then
    some (self, .error ⟨.nonFiniteScore, "alignment scores must all be finite"⟩)
  else
    let last := min self.lastAttended (self.textLength - 1)
    let overAttended := self.sinkThreshold ≤ self.counters.getD last 0
    if overAttended ∧ self.lastAttended = maximumUint32 then
      some (self, .error ⟨.stateOverflow, "alignment search position overflowed"⟩)
    else
      let searchStart :=
        min (if overAttended then self.lastAttended + 1 else self.lastAttended) self.textLength
      let attended := self.attend scores searchStart
      let moved := self.moveTo attended
      if moved.counters.getD attended 0 = maximumUint32 then
        some (moved, .error ⟨.stateOverflow, "alignment sink counter overflowed"⟩)
      else
        let counted := moved.countVisit attended
        (counted.nextPrior attended).map fun prior =>
          (counted, .ok
            { attendedTokenIndex := attended
              unfinishedText := attended < counted.contentEnd
              nextPrior := prior })

/-! ### The host controller against the abstract one -/

/-- The numbers of the contract that the controller holds. -/
def contract (self : AlignmentControllerReference) : AlignmentKernelContract where
  textLength := self.textLength
  ignoredTerminalTokens := self.ignoredTerminalTokens
  shortTextNoPriorMaxTokens := self.shortTextNoPriorMaxTokens
  lookahead := self.lookahead
  sinkThreshold := self.sinkThreshold

/-- The abstract state of the controller. -/
def state (self : AlignmentControllerReference) : AttentionPrior.State where
  lastAttended := self.lastAttended
  counters := fun p => self.counters.getD p 0

/-- What the constructor establishes and every step keeps. -/
structure WellFormed (controller : AlignmentControllerReference) : Prop where
  length_counters : controller.counters.length = controller.textLength
  lastAttended_lt : controller.lastAttended < controller.textLength
  textLength_le : controller.textLength ≤ maximumUint32

omit [LinearOrder α] in
theorem getD_set_one (prior : List PriorValue) (i p : ℕ) :
    (prior.set i .one).getD p .epsilon = .one ↔
      (p = i ∧ i < prior.length) ∨ prior.getD p .epsilon = .one := by
  simp only [List.getD_eq_getElem?_getD, List.getElem?_set]
  grind

theorem getD_foldl_set_one (f : ℕ → ℕ) (p : ℕ) : (l : List ℕ) → (prior : List PriorValue) →
    ((l.foldl (fun prior offset => prior.set (f offset) .one) prior).getD p .epsilon = .one ↔
      (∃ offset ∈ l, p = f offset ∧ p < prior.length) ∨ prior.getD p .epsilon = .one)
  | [], prior => by simp
  | offset :: l, prior => by
      rw [List.foldl_cons, getD_foldl_set_one f p l, getD_set_one, List.length_set]
      simp only [List.mem_cons, exists_eq_or_imp]
      grind

theorem getD_fillPrefix (stop p : ℕ) (value : PriorValue) (prior : List PriorValue) :
    (fillPrefix stop value prior).getD p .epsilon =
      if p < stop then value else prior.getD p .epsilon := by
  simp only [fillPrefix, List.getD_eq_getElem?_getD, List.getElem?_append, List.length_replicate,
    List.getElem?_replicate, List.getElem?_drop]
  grind

theorem length_fillPrefix {stop : ℕ} {prior : List PriorValue} (h : stop ≤ prior.length)
    (value : PriorValue) : (fillPrefix stop value prior).length = prior.length := by
  simp only [fillPrefix, List.length_append, List.length_replicate, List.length_drop]
  omega

variable {self : AlignmentControllerReference}

omit [LinearOrder α] in
theorem raisedPrior_eq_none (h : ¬ LookaheadEnds self.contract) (attended : ℕ) :
    self.raisedPrior attended = none := by
  rw [LookaheadEnds, not_or, not_not] at h
  obtain ⟨hshort, hlookahead⟩ : ¬ self.textLength ≤ self.shortTextNoPriorMaxTokens ∧
      self.lookahead = maximumUint32 := h
  rw [raisedPrior, if_neg hshort, if_pos hlookahead]

/-- Before the sinks are lowered, the prior is one around the attended position. -/
theorem raisedPrior_eq_some (h : LookaheadEnds self.contract) {attended : ℕ}
    (hattended : attended < self.textLength) :
    ∃ prior, self.raisedPrior attended = some prior ∧ prior.length = self.textLength * 2 ∧
      ∀ p, prior.getD p .epsilon = .one ↔
        p < self.textLength ∧ AttentionPrior.Near self.contract attended p := by
  have hepsilon : ∀ p, (List.replicate (self.textLength * 2) PriorValue.epsilon).getD p .epsilon =
      .epsilon := by
    intro p
    simp only [List.getD_eq_getElem?_getD, List.getElem?_replicate]
    split <;> rfl
  by_cases hshort : self.textLength ≤ self.shortTextNoPriorMaxTokens
  · refine ⟨_, by rw [raisedPrior, if_pos hshort], ?_, ?_⟩
    · rw [length_fillPrefix (by rw [List.length_replicate]; omega), List.length_replicate]
    · intro p
      rw [getD_fillPrefix, hepsilon]
      have hnear : AttentionPrior.Near self.contract attended p := Or.inl hshort
      simp [hnear]
  · have hreturns : self.lookahead ≠ maximumUint32 := h.resolve_left hshort
    refine ⟨_, by rw [raisedPrior, if_neg hshort, if_neg hreturns], ?_, ?_⟩
    · have hlength : ∀ (l : List ℕ) (prior : List PriorValue),
          (l.foldl (fun prior offset =>
            prior.set (min (attended + offset) (self.textLength - 1)) .one) prior).length =
            prior.length := by
        intro l
        induction l with
        | nil => intro prior; rfl
        | cons offset l ih => intro prior; rw [List.foldl_cons, ih, List.length_set]
      rw [hlength, List.length_set, List.length_set, List.length_replicate]
    · intro p
      have hhistory : self.history attended =
          max (min 1 (self.textLength - 1)) (attended - 1) := by
        rw [history]
        split <;> omega
      rw [getD_foldl_set_one, getD_set_one, getD_set_one, hepsilon, hhistory]
      simp only [List.length_set, List.length_replicate, List.mem_range'_1, AttentionPrior.Near,
        contract, hshort, false_or, reduceCtorEq, or_false]
      constructor
      · rintro (⟨offset, hoffset, rfl, -⟩ | ⟨rfl, -⟩ | ⟨rfl, -⟩)
        · exact ⟨by omega, Or.inr (Or.inr ⟨offset, by omega, by omega, rfl⟩)⟩
        · exact ⟨by omega, Or.inr (Or.inl rfl)⟩
        · exact ⟨by omega, Or.inl rfl⟩
      · rintro ⟨hp, rfl | rfl | ⟨offset, hone, hle, rfl⟩⟩
        · exact Or.inr (Or.inr ⟨rfl, by omega⟩)
        · exact Or.inr (Or.inl ⟨rfl, by omega⟩)
        · exact Or.inl ⟨offset, by omega, rfl, by omega⟩

theorem maximumSinkPosition_lt_iff (p : ℕ) :
    self.maximumSinkPosition < p ↔
      ∀ sink, AttentionPrior.Sink self.contract self.state.counters sink → sink < p := by
  rw [maximumSinkPosition, foldl_last_lt_iff]
  simp only [AttentionPrior.Sink, contract, state, and_imp]

theorem maximumSinkPosition_lt : self.maximumSinkPosition < self.textLength := by
  rw [maximumSinkPosition_lt_iff]
  exact fun sink h => h.1

/-- The prior of the next step is one exactly at the raised positions. -/
theorem nextPrior_eq_some (self : AlignmentControllerReference)
    (h : LookaheadEnds self.contract) {attended : ℕ} (hattended : attended < self.textLength) :
    ∃ prior, self.nextPrior attended = some prior ∧ prior.length = self.textLength * 2 ∧
      ∀ p, prior.getD p .epsilon = .one ↔
        AttentionPrior.Raised self.contract self.state.counters attended p := by
  obtain ⟨prior, hprior, hlength, hone⟩ := raisedPrior_eq_some h hattended
  have hlt : self.maximumSinkPosition < self.textLength := maximumSinkPosition_lt
  rw [nextPrior, hprior, Option.map_some]
  by_cases hsink : 0 ≤ self.maximumSinkPosition
  · refine ⟨_, by rw [if_pos hsink], ?_, ?_⟩
    · rw [length_fillPrefix (by omega), hlength]
    · intro p
      rw [getD_fillPrefix, AttentionPrior.Raised, ← maximumSinkPosition_lt_iff]
      by_cases hp : p < (self.maximumSinkPosition + 1).toNat
      · rw [if_pos hp]
        simp only [reduceCtorEq, false_iff, not_and]
        omega
      · rw [if_neg hp, hone]
        have : self.maximumSinkPosition < p := by omega
        simp only [this, and_true]
        rfl
  · refine ⟨_, by rw [if_neg hsink], hlength, ?_⟩
    intro p
    have : self.maximumSinkPosition < p := by omega
    rw [hone, AttentionPrior.Raised, ← maximumSinkPosition_lt_iff]
    simp only [this, and_true]
    rfl

theorem attend_eq (hwf : self.WellFormed) (row : ScoreRow α) {searchStart : ℕ}
    (hstart : searchStart = AttentionPrior.windowStart self.contract self.state) :
    self.attend (row.scores self.textLength) searchStart =
      AttentionPrior.attended self.contract self.state row := by
  have hle := hwf.textLength_le
  have hcontent : self.contentEnd = AttentionPrior.contentEnd self.contract := rfl
  have hcontentLe : AttentionPrior.contentEnd self.contract ≤ self.textLength :=
    AttentionPrior.contentEnd_le _
  have hend : self.windowEnd searchStart =
      min (searchStart + self.contract.lookahead) (AttentionPrior.contentEnd self.contract) := by
    rw [windowEnd, hcontent]
    change min (min (searchStart + self.lookahead) _) _ = min (searchStart + self.lookahead) _
    omega
  simp only [attend, AttentionPrior.attended, hend, ← hstart]
  split
  · rename_i hlt
    refine foldl_search_range_eq (fun p => (row.scores self.textLength).getD p .nan) hlt
      (fun p hp => row.getD_scores (by omega)) _
  · rename_i hge
    rw [firstMaximum_of_le (by omega)]
    rfl

/-- The specification of a step on finite scores. -/
theorem advance_eq (hwf : self.WellFormed) (row : ScoreRow α) :
    self.advance (row.scores self.textLength) =
      if AttentionPrior.Exhausted self.contract self.state row then
        some (self.moveTo (AttentionPrior.attended self.contract self.state row),
          .error ⟨.stateOverflow, "alignment sink counter overflowed"⟩)
      else
        (((self.moveTo (AttentionPrior.attended self.contract self.state row)).countVisit
          (AttentionPrior.attended self.contract self.state row)).nextPrior
          (AttentionPrior.attended self.contract self.state row)).map fun prior =>
          ((self.moveTo (AttentionPrior.attended self.contract self.state row)).countVisit
            (AttentionPrior.attended self.contract self.state row), .ok
            { attendedTokenIndex := AttentionPrior.attended self.contract self.state row
              unfinishedText := AttentionPrior.attended self.contract self.state row <
                AttentionPrior.contentEnd self.contract
              nextPrior := prior }) := by
  have hlt := hwf.lastAttended_lt
  have hle := hwf.textLength_le
  have hlast : min self.lastAttended (self.textLength - 1) = self.lastAttended := by omega
  have hstart : min (if self.sinkThreshold ≤ self.counters.getD self.lastAttended 0 then
      self.lastAttended + 1 else self.lastAttended) self.textLength =
      AttentionPrior.windowStart self.contract self.state := by
    change _ = if self.sinkThreshold ≤ self.counters.getD self.lastAttended 0 then _ else _
    split <;> simp only [state] <;> omega
  rw [advance, if_neg (not_not.mpr (row.length_scores _)),
    if_neg (not_not.mpr (row.isfinite_scores _))]
  simp only [hlast]
  rw [if_neg (by omega), attend_eq hwf row hstart]
  rfl

/-- What a step on finite scores leaves and returns when it succeeds. -/
structure Advanced (controller next : AlignmentControllerReference) (row : ScoreRow α)
    (result : AlignmentStepResult) : Prop where
  wellFormed : next.WellFormed
  contract_eq : next.contract = controller.contract
  state_eq : next.state = AttentionPrior.advance controller.contract controller.state row
  attended_eq : result.attendedTokenIndex =
    AttentionPrior.attended controller.contract controller.state row
  unfinished_eq : result.unfinishedText =
    decide (AttentionPrior.attended controller.contract controller.state row <
      AttentionPrior.contentEnd controller.contract)
  length_prior : result.nextPrior.length = controller.textLength * 2
  prior_iff : ∀ p, result.nextPrior.getD p .epsilon = .one ↔
    AttentionPrior.Raised controller.contract
      (AttentionPrior.advance controller.contract controller.state row).counters
      (AttentionPrior.attended controller.contract controller.state row) p

theorem state_countVisit (self : AlignmentControllerReference)
    (h : self.counters.length = self.textLength) {attended : ℕ}
    (hattended : attended < self.textLength) :
    (self.countVisit attended).state =
      { self.state with counters := AttentionPrior.countVisit self.state.counters attended } := by
  rw [state, AttentionPrior.State.mk.injEq]
  refine ⟨rfl, funext fun p => ?_⟩
  simp only [countVisit, AttentionPrior.countVisit, state, Function.update_apply,
    List.getD_eq_getElem?_getD, List.getElem?_set, h]
  grind

theorem advance_eq_error (hwf : self.WellFormed) {row : ScoreRow α}
    (h : AttentionPrior.Exhausted self.contract self.state row) :
    ∃ next error, self.advance (row.scores self.textLength) = some (next, .error error) ∧
      next.WellFormed ∧ next.contract = self.contract ∧
      next.state = AttentionPrior.advance self.contract self.state row := by
  refine ⟨self.moveTo (AttentionPrior.attended self.contract self.state row), _,
    by rw [advance_eq hwf row, if_pos h], ⟨hwf.length_counters, ?_, hwf.textLength_le⟩, rfl, ?_⟩
  · have hlength : 0 < self.contract.textLength := Nat.zero_lt_of_lt hwf.lastAttended_lt
    exact AttentionPrior.attended_lt hlength self.state row
  · rw [AttentionPrior.advance, if_pos h]
    rfl

theorem advance_eq_none (hwf : self.WellFormed) {row : ScoreRow α}
    (h : ¬ AttentionPrior.Exhausted self.contract self.state row)
    (hends : ¬ LookaheadEnds self.contract) :
    self.advance (row.scores self.textLength) = none := by
  rw [advance_eq hwf row, if_neg h, nextPrior, raisedPrior_eq_none (by exact hends)]
  rfl

theorem advance_eq_ok (hwf : self.WellFormed) {row : ScoreRow α}
    (h : ¬ AttentionPrior.Exhausted self.contract self.state row)
    (hends : LookaheadEnds self.contract) :
    ∃ next result, self.advance (row.scores self.textLength) = some (next, .ok result) ∧
      Advanced self next row result := by
  have hlength : 0 < self.contract.textLength := Nat.zero_lt_of_lt hwf.lastAttended_lt
  have hattended : AttentionPrior.attended self.contract self.state row < self.textLength :=
    AttentionPrior.attended_lt hlength self.state row
  have hstate :=
    (self.moveTo (AttentionPrior.attended self.contract self.state row)).state_countVisit
    hwf.length_counters hattended
  have hnext : AttentionPrior.advance self.contract self.state row =
      ((self.moveTo (AttentionPrior.attended self.contract self.state row)).countVisit
        (AttentionPrior.attended self.contract self.state row)).state := by
    rw [hstate, AttentionPrior.advance, if_neg h]
    rfl
  obtain ⟨prior, hprior, hlength, hone⟩ := nextPrior_eq_some
    ((self.moveTo (AttentionPrior.attended self.contract self.state row)).countVisit
      (AttentionPrior.attended self.contract self.state row)) hends hattended
  refine ⟨_, _, by rw [advance_eq hwf row, if_neg h, hprior, Option.map_some], ?_⟩
  exact
    { wellFormed :=
        { length_counters := (List.length_set ..).trans hwf.length_counters
          lastAttended_lt := hattended
          textLength_le := hwf.textLength_le }
      contract_eq := rfl
      state_eq := hnext.symm
      attended_eq := rfl
      unfinished_eq := rfl
      length_prior := hlength
      prior_iff := fun p => by rw [hone, hnext]; rfl }

end AlignmentControllerReference

end MagpieTts.Runtime
