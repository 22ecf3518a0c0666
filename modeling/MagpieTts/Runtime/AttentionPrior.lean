import Mathlib.Data.List.MinMax
import MagpieTts.Runtime.AlignmentContract

/-!
# The attention-prior controller, abstractly

What the alignment controller is for, in its own terms: the text position of a step is the first
position of maximal score in a window that starts at the last position, and the prior of the next
step is raised around that position, beyond every position that was attended too often. Nothing
here is a translation; the host controller and the device kernel are both compared with it.

## Main definitions

* `firstMaximum`: the first position of maximal value in a range.
* `AttentionPrior.attended`, `AttentionPrior.Raised`: the position of a step and the positions whose
  prior is one.
* `AttentionPrior.advance`: the state after a row of scores.
-/

namespace MagpieTts.Runtime

variable {α : Type*} [LinearOrder α]

/-- The first position of maximal value among `start ≤ p < stop`, or `otherwise` when there is
none. -/
def firstMaximum (value : ℕ → α) (start stop otherwise : ℕ) : ℕ :=
  ((List.range' start (stop - start)).argmax value).getD otherwise

theorem firstMaximum_of_le {start stop : ℕ} (h : stop ≤ start) (value : ℕ → α) (otherwise : ℕ) :
    firstMaximum value start stop otherwise = otherwise := by
  rw [firstMaximum, Nat.sub_eq_zero_of_le h, List.range'_zero, List.argmax_nil, Option.getD_none]

theorem firstMaximum_mem {start stop : ℕ} (h : start < stop) (value : ℕ → α) (otherwise : ℕ) :
    start ≤ firstMaximum value start stop otherwise ∧
      firstMaximum value start stop otherwise < stop := by
  rw [firstMaximum]
  cases hmax : (List.range' start (stop - start)).argmax value with
  | none =>
    rw [List.argmax_eq_none, List.range'_eq_nil_iff] at hmax
    omega
  | some p =>
    have hp := List.argmax_mem hmax
    rw [List.mem_range'_1] at hp
    rw [Option.getD_some]
    omega

theorem le_firstMaximum {start stop p : ℕ} (hstart : start ≤ p) (hstop : p < stop) (value : ℕ → α)
    (otherwise : ℕ) : value p ≤ value (firstMaximum value start stop otherwise) := by
  have hp : p ∈ List.range' start (stop - start) := by
    rw [List.mem_range'_1]
    omega
  rw [firstMaximum]
  cases hmax : (List.range' start (stop - start)).argmax value with
  | none =>
    rw [List.argmax_eq_none] at hmax
    simp [hmax] at hp
  | some q => exact List.le_of_mem_argmax hp hmax

omit [LinearOrder α] in
theorem idxOf_range' {start n p : ℕ} (hp : p ∈ List.range' start n) :
    (List.range' start n).idxOf p = p - start := by
  rw [List.mem_range'_1] at hp
  have hlength : p - start < (List.range' start n).length := by
    rw [List.length_range']
    omega
  have hget : (List.range' start n)[p - start] = p := by
    rw [List.getElem_range']
    omega
  conv_lhs => rw [← hget]
  exact List.Nodup.idxOf_getElem List.nodup_range' _ hlength

/-- The values in front of the first maximum are smaller. -/
theorem lt_firstMaximum {start stop p : ℕ} (hstart : start ≤ p) (value : ℕ → α) (otherwise : ℕ)
    (hfirst : p < firstMaximum value start stop otherwise) (hwindow : start < stop) :
    value p < value (firstMaximum value start stop otherwise) := by
  have hstop := (firstMaximum_mem hwindow value otherwise).2
  refine lt_of_not_ge fun hle => ?_
  rw [firstMaximum] at hfirst hle hstop
  cases hmax : (List.range' start (stop - start)).argmax value with
  | none =>
    rw [List.argmax_eq_none, List.range'_eq_nil_iff] at hmax
    omega
  | some q =>
    rw [hmax, Option.getD_some] at hfirst hle hstop
    have hp : p ∈ List.range' start (stop - start) := by
      rw [List.mem_range'_1]
      omega
    have hq := List.argmax_mem hmax
    have hindex := List.index_of_argmax hmax hp hle
    rw [idxOf_range' hp, idxOf_range' hq] at hindex
    rw [List.mem_range'_1] at hq
    omega

/-- The running maximum of a scan is the position that `List.argmax` selects. -/
theorem foldl_search_eq (score : ℕ → Score α) (value : ℕ → α) :
    (l : List ℕ) → (a : ℕ) → (∀ p ∈ l, score p = .finite (value p)) →
    l.foldl (fun (best : ℕ × Score α) p => if (score p).gt best.2 then (p, score p) else best)
        (a, .finite (value a)) =
      (((a :: l).argmax value).getD a, .finite (value (((a :: l).argmax value).getD a)))
  | [], a, _ => by simp
  | p :: l, a, h => by
      have hl : ∀ q ∈ l, score q = .finite (value q) := fun q hq => h q (List.mem_cons_of_mem p hq)
      have hargmax : (a :: p :: l).argmax value =
          ((if value a < value p then p else a) :: l).argmax value := by
        simp only [List.argmax, List.foldl_cons, List.argAux]
        split <;> rfl
      rw [List.foldl_cons, h p List.mem_cons_self, Score.gt_finite, hargmax]
      by_cases hlt : value a < value p
      · simp only [hlt, decide_true, if_true]
        rw [foldl_search_eq score value l p hl]
        cases hmax : (p :: l).argmax value with
        | none => simp at hmax
        | some q => simp
      · simp only [hlt, decide_false, if_false, Bool.false_eq_true]
        exact foldl_search_eq score value l a hl

/-- The scan of a non-empty range for its first maximal score. -/
theorem foldl_search_range_eq (score : ℕ → Score α) {value : ℕ → α} {start stop : ℕ}
    (hlt : start < stop) (h : ∀ p < stop, score p = .finite (value p)) (otherwise : ℕ) :
    ((List.range' (start + 1) (stop - (start + 1))).foldl
      (fun (best : ℕ × Score α) p => if (score p).gt best.2 then (p, score p) else best)
      (start, score start)).1 = firstMaximum value start stop otherwise := by
  have hrange : List.range' start (stop - start) =
      start :: List.range' (start + 1) (stop - (start + 1)) := by
    rw [show stop - start = (stop - (start + 1)) + 1 by omega, List.range'_succ]
  have hscore : ∀ p ∈ List.range' (start + 1) (stop - (start + 1)),
      score p = .finite (value p) := by
    intro p hp
    rw [List.mem_range'_1] at hp
    exact h p (by omega)
  rw [h start hlt, foldl_search_eq score value _ start hscore, firstMaximum, hrange]
  cases hmax : (start :: List.range' (start + 1) (stop - (start + 1))).argmax value with
  | none => simp at hmax
  | some p => rfl

/-- The scan of the positions below `n` for the last one with the property `P`, which starts at
`-1`: what it returns is below a position exactly when every position with the property is. -/
theorem foldl_last_lt_iff (P : ℕ → Prop) [DecidablePred P] (p : ℕ) : (n : ℕ) →
    ((List.range n).foldl (fun (last : ℤ) q => if P q then (q : ℤ) else last) (-1) < p ↔
      ∀ q < n, P q → q < p)
  | 0 => by
      simp only [List.range_zero, List.foldl_nil, Nat.not_lt_zero, false_implies, implies_true,
        iff_true]
      omega
  | n + 1 => by
      rw [List.range_succ, List.foldl_concat]
      by_cases hn : P n
      · rw [if_pos hn]
        constructor
        · intro hlt q hq _
          omega
        · intro h
          exact_mod_cast h n (Nat.lt_succ_self n) hn
      · rw [if_neg hn, foldl_last_lt_iff P p n]
        constructor
        · intro h q hq hPq
          rcases Nat.lt_succ_iff_lt_or_eq.mp hq with hlt | rfl
          · exact h q hlt hPq
          · exact absurd hPq hn
        · intro h q hq hPq
          exact h q (Nat.lt_succ_of_lt hq) hPq

/-- A row of finite alignment scores: the conditional half is finite, nothing is known of the
unconditional half. -/
structure ScoreRow (α : Type*) where
  conditional : ℕ → α
  unconditional : ℕ → Score α

/-- The device buffer of a row, the conditional half first. -/
def ScoreRow.buffer (row : ScoreRow α) (textLength : ℕ) (p : ℕ) : Score α :=
  if p < textLength then .finite (row.conditional p) else row.unconditional (p - textLength)

/-- The conditional half of a row, as the vector that the host controller is given. -/
def ScoreRow.scores (row : ScoreRow α) (textLength : ℕ) : List (Score α) :=
  (List.range textLength).map (row.buffer textLength)

omit [LinearOrder α] in
theorem ScoreRow.buffer_of_lt (row : ScoreRow α) {textLength p : ℕ} (h : p < textLength) :
    row.buffer textLength p = .finite (row.conditional p) := if_pos h

omit [LinearOrder α] in
theorem ScoreRow.length_scores (row : ScoreRow α) (textLength : ℕ) :
    (row.scores textLength).length = textLength := by
  rw [scores, List.length_map, List.length_range]

omit [LinearOrder α] in
theorem ScoreRow.getD_scores (row : ScoreRow α) {textLength p : ℕ} (h : p < textLength) :
    (row.scores textLength).getD p .nan = .finite (row.conditional p) := by
  simp [scores, List.getD_eq_getElem?_getD, h, buffer]

omit [LinearOrder α] in
theorem ScoreRow.isfinite_scores (row : ScoreRow α) (textLength : ℕ) :
    (row.scores textLength).all Score.isfinite = true := by
  simp only [scores, List.all_map, List.all_eq_true, List.mem_range, Function.comp_apply]
  intro p hp
  rw [row.buffer_of_lt hp, Score.isfinite_finite]

namespace AttentionPrior

/-- The state of a controller: the last attended position and how often each was attended. -/
structure State where
  lastAttended : ℕ
  counters : ℕ → ℕ

variable (contract : AlignmentKernelContract)

/-- The number of positions in front of the ignored terminal tokens. -/
def contentEnd : ℕ := contract.textLength - contract.ignoredTerminalTokens

/-- The window starts at the last position, or behind it when that has become a sink. -/
def windowStart (state : State) : ℕ :=
  if contract.sinkThreshold ≤ state.counters state.lastAttended then state.lastAttended + 1
  else state.lastAttended

/-- The position of the step: the first maximum of the window, and the last token of the text when
the window has no content token. -/
def attended (state : State) (row : ScoreRow α) : ℕ :=
  firstMaximum row.conditional (windowStart contract state)
    (min (windowStart contract state + contract.lookahead) (contentEnd contract))
    (contract.textLength - 1)

/-- A position that was attended as often as the threshold says. -/
def Sink (counters : ℕ → ℕ) (p : ℕ) : Prop :=
  p < contract.textLength ∧ contract.sinkThreshold ≤ counters p

/-- The positions around the attended one: the one before it (but not the first), itself and the
lookahead, all of them in a short text. -/
def Near (attended p : ℕ) : Prop :=
  contract.textLength ≤ contract.shortTextNoPriorMaxTokens ∨
    p = max (min 1 (contract.textLength - 1)) (attended - 1) ∨ p = attended ∨
    ∃ offset, 1 ≤ offset ∧ offset ≤ contract.lookahead ∧
      p = min (attended + offset) (contract.textLength - 1)

/-- The positions whose prior is one: those around the attended position and beyond every sink. -/
def Raised (counters : ℕ → ℕ) (attended p : ℕ) : Prop :=
  p < contract.textLength ∧ Near contract attended p ∧
    ∀ sink, Sink contract counters sink → sink < p

/-- The counters after a visit of `attended`. -/
def countVisit (counters : ℕ → ℕ) (attended : ℕ) : ℕ → ℕ :=
  Function.update counters attended (counters attended + 1)

/-- The visit of a position whose counter is exhausted is rejected. -/
def Exhausted (state : State) (row : ScoreRow α) : Prop :=
  state.counters (attended contract state row) = maximumUint32

instance (state : State) (row : ScoreRow α) : Decidable (Exhausted contract state row) :=
  inferInstanceAs (Decidable (_ = _))

/-- The state after a row: the position moves, and its counter unless that is exhausted. -/
def advance (state : State) (row : ScoreRow α) : State where
  lastAttended := attended contract state row
  counters :=
    if Exhausted contract state row then state.counters
    else countVisit state.counters (attended contract state row)

variable {contract}

theorem contentEnd_le (contract : AlignmentKernelContract) :
    contentEnd contract ≤ contract.textLength :=
  Nat.sub_le _ _

/-- The attended position is a position of the text. -/
theorem attended_lt (hlength : 0 < contract.textLength) (state : State) (row : ScoreRow α) :
    attended contract state row < contract.textLength := by
  have hle := contentEnd_le contract
  rw [attended]
  rcases Nat.lt_or_ge (windowStart contract state)
    (min (windowStart contract state + contract.lookahead) (contentEnd contract)) with hlt | hge
  · have := firstMaximum_mem hlt row.conditional (contract.textLength - 1)
    omega
  · rw [firstMaximum_of_le hge]
    omega

/-! ### What a step depends on -/

/-- Two states with the same position and the same counters below `n`. -/
structure State.AgreeBelow (n : ℕ) (s t : State) : Prop where
  lastAttended_eq : s.lastAttended = t.lastAttended
  counters_eq : ∀ p < n, s.counters p = t.counters p

variable {s t : State} {row : ScoreRow α}

omit [LinearOrder α] in
theorem windowStart_congr (h : s.AgreeBelow contract.textLength t)
    (hlast : s.lastAttended < contract.textLength) :
    windowStart contract s = windowStart contract t := by
  rw [windowStart, windowStart, h.counters_eq _ hlast, h.lastAttended_eq]

theorem attended_congr (h : s.AgreeBelow contract.textLength t)
    (hlast : s.lastAttended < contract.textLength) (row : ScoreRow α) :
    attended contract s row = attended contract t row := by
  rw [attended, attended, windowStart_congr h hlast]

theorem exhausted_congr (h : s.AgreeBelow contract.textLength t)
    (hlast : s.lastAttended < contract.textLength) :
    Exhausted contract s row ↔ Exhausted contract t row := by
  rw [Exhausted, Exhausted, ← attended_congr h hlast row,
    h.counters_eq _ (attended_lt (by omega) s row)]

theorem advance_congr (h : s.AgreeBelow contract.textLength t)
    (hlast : s.lastAttended < contract.textLength) (row : ScoreRow α) :
    (advance contract s row).AgreeBelow contract.textLength (advance contract t row) where
  lastAttended_eq := attended_congr h hlast row
  counters_eq := by
    intro p hp
    simp only [advance, exhausted_congr h hlast, attended_congr h hlast row]
    split
    · exact h.counters_eq p hp
    · simp only [countVisit, Function.update_apply, h.counters_eq p hp,
        h.counters_eq _ (attended_lt (by omega) t row)]

omit [LinearOrder α] in
theorem raised_congr {c d : ℕ → ℕ} (h : ∀ p < contract.textLength, c p = d p) (attended p : ℕ) :
    Raised contract c attended p ↔ Raised contract d attended p := by
  have hsink : ∀ sink, Sink contract c sink ↔ Sink contract d sink := by
    intro sink
    rw [Sink, Sink]
    exact and_congr_right fun hlt => by rw [h sink hlt]
  simp only [Raised, hsink]

end AttentionPrior

end MagpieTts.Runtime
