import Mathlib.Data.List.GetD
import Mathlib.Data.List.Basic

/-!
# Operations on the rows of a tensor

Masked and indexed operations of tensor programs on one row, as functions on lists, each with the
entry that it leaves at a position.

## Main definitions

* `maskedFill`: a value wherever a mask is set.
* `scatter`: a value at every position of a list of indices.
* `argmax`: the first position whose entry no entry exceeds.

## Main results

* `getD_maskedFill`, `getD_scatter`: the entries.
* `argmax_eq`: the position that exceeds every earlier one and is exceeded by none is selected.
-/

namespace MagpieTts.Library

variable {β : Type*}

/-- The row with `value` wherever the mask is set. -/
def maskedFill (mask : List Bool) (value : β) (row : List β) : List β :=
  List.zipWith (fun set entry => if set then value else entry) mask row

/-- The row with `value` at every index of the list. -/
def scatter (indices : List ℕ) (value : β) (row : List β) : List β :=
  indices.foldl (fun row index => row.set index value) row

/-- The first position of a row whose entry is not exceeded by a later one, found by a scan. -/
def argmax (exceeds : β → β → Bool) (default : β) (row : List β) : ℕ :=
  (List.range row.length).foldl
    (fun best index =>
      if exceeds (row.getD index default) (row.getD best default) then index else best) 0

theorem length_maskedFill {mask : List Bool} {row : List β} (h : mask.length = row.length)
    (value : β) : (maskedFill mask value row).length = row.length := by
  rw [maskedFill, List.length_zipWith, h, Nat.min_self]

/-- An entry of a filled row, for a mask that is a predicate of the position. -/
theorem getD_maskedFill {row : List β} (mask : ℕ → Bool) (value : β) {p : ℕ} (hp : p < row.length)
    (default : β) :
    (maskedFill ((List.range row.length).map mask) value row).getD p default =
      if mask p then value else row.getD p default := by
  simp only [maskedFill, List.getD_eq_getElem?_getD, List.getElem?_zipWith, List.getElem?_map,
    List.getElem?_range hp, List.getElem?_eq_getElem hp, Option.map_some, Option.getD_some]

/-- A row is the list of its entries. -/
theorem map_range_getD (row : List β) (default : β) :
    ((List.range row.length).map fun p => row.getD p default) = row := by
  refine List.ext_getElem (by simp) fun p hp hp' => ?_
  rw [List.getElem_map, List.getElem_range, List.getD_eq_getElem _ _ hp']

/-- A filled row, for an entry that is a function of the position as well. -/
theorem maskedFill_map_range {n : ℕ} (mask : ℕ → Bool) (value : β) (entry : ℕ → β) :
    maskedFill ((List.range n).map mask) value ((List.range n).map entry) =
      (List.range n).map fun p => if mask p then value else entry p := by
  rw [maskedFill, List.zipWith_map, List.zipWith_self]

theorem length_scatter (indices : List ℕ) (value : β) (row : List β) :
    (scatter indices value row).length = row.length := by
  induction indices generalizing row with
  | nil => rfl
  | cons index indices ih => rw [scatter, List.foldl_cons, ← scatter, ih, List.length_set]

theorem getD_scatter (indices : List ℕ) (value : β) {row : List β} {p : ℕ} (hp : p < row.length)
    (default : β) :
    (scatter indices value row).getD p default =
      if p ∈ indices then value else row.getD p default := by
  induction indices generalizing row with
  | nil => rfl
  | cons index indices ih =>
    rw [scatter, List.foldl_cons, ← scatter, ih (by rwa [List.length_set])]
    simp only [List.mem_cons]
    by_cases hmem : p ∈ indices
    · rw [if_pos hmem, if_pos (Or.inr hmem)]
    · rw [if_neg hmem]
      by_cases heq : p = index
      · subst heq
        rw [if_pos (Or.inl rfl), List.getD_eq_getElem _ _ (by rwa [List.length_set]),
          List.getElem_set_self]
      · rw [if_neg (not_or.mpr ⟨heq, hmem⟩), List.getD_eq_getElem _ _ (by rwa [List.length_set]),
          List.getElem_set_ne (Ne.symm heq), List.getD_eq_getElem _ _ hp]

/-- The scan selects the position that exceeds every earlier one and is exceeded by none. By
induction on the entries scanned: until the position is reached the best one is an earlier one, and
from then on it is the position. -/
theorem argmax_eq {exceeds : β → β → Bool} {default : β} {row : List β} {p : ℕ}
    (hp : p < row.length)
    (hmaximal : ∀ q < row.length, exceeds (row.getD q default) (row.getD p default) = false)
    (hfirst : ∀ q < p, exceeds (row.getD p default) (row.getD q default) = true) :
    argmax exceeds default row = p := by
  have hscan : ∀ n ≤ row.length,
      (n ≤ p → (List.range n).foldl (fun best index =>
        if exceeds (row.getD index default) (row.getD best default) then index else best) 0 ≤
          n - 1) ∧
      (p < n → (List.range n).foldl (fun best index =>
        if exceeds (row.getD index default) (row.getD best default) then index else best) 0 =
          p) := by
    intro n
    induction n with
    | zero => exact fun _ => ⟨fun _ => Nat.le_refl _, fun h => absurd h (Nat.not_lt_zero p)⟩
    | succ n ih =>
      intro hn
      obtain ⟨hbefore, hafter⟩ := ih (by omega)
      rw [List.range_succ, List.foldl_concat]
      rcases Nat.lt_trichotomy n p with hlt | heq | hgt
      · refine ⟨fun _ => ?_, fun h => by omega⟩
        have := hbefore (by omega)
        split_ifs <;> omega
      · subst heq
        refine ⟨fun h => by omega, fun _ => ?_⟩
        rcases Nat.eq_zero_or_pos n with hzero | hpos
        · subst hzero
          simp
        · have := hbefore (Nat.le_refl n)
          rw [if_pos (hfirst _ (by omega))]
      · refine ⟨fun h => by omega, fun _ => ?_⟩
        rw [hafter hgt, hmaximal n (by omega)]
        simp
  exact (hscan row.length (Nat.le_refl _)).2 hp

end MagpieTts.Library
