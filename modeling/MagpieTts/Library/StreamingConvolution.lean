import Mathlib.Algebra.BigOperators.Group.Finset.Basic
import Mathlib.Algebra.BigOperators.Intervals
import Mathlib.Data.List.GetD

/-!
# Convolutions that are cut into chunks

A causal convolution reads a window of the past at every time step; a transposed one adds a segment
of the output for every time step of its input. Cut into chunks, the first needs the last time steps
of what it has read, the second the part of its last segment that reaches beyond the chunk.

## Main definitions

* `slide`: a function of a window, at every position of a signal.
* `overlapSum`, `overlapAdd`, `pendingOverlap`: overlapping segments, the samples that are final and
  the tail that the next chunk completes.

## Main results

* `slide_append`: a sliding window over two chunks.
* `overlapAdd_append`, `pendingOverlap_append`: overlapping segments of two chunks.
-/

namespace MagpieTts.Library

/-! ### Sliding windows -/

section Slide

variable {A B : Type*}

/-- A function of the window that starts at each position and reaches `history` steps ahead. -/
def slide (history : ℕ) (read : (ℕ → A) → B) (default : A) (signal : List A) : List B :=
  (List.range (signal.length - history)).map fun t => read fun j => signal.getD (t + j) default

variable {history : ℕ} {read : (ℕ → A) → B} {default : A}

theorem length_slide (signal : List A) :
    (slide history read default signal).length = signal.length - history := by
  rw [slide, List.length_map, List.length_range]

/-- A window over two chunks, behind a past as long as the window reaches: the second chunk is read
behind the last time steps of the past and the first chunk. -/
theorem slide_append (hread : ∀ w w', (∀ j ≤ history, w j = w' j) → read w = read w')
    {past : List A} (hpast : past.length = history) (xs ys : List A) :
    slide history read default (past ++ (xs ++ ys)) =
      slide history read default (past ++ xs) ++
        slide history read default ((past ++ xs).drop xs.length ++ ys) := by
  have hlength : (past ++ (xs ++ ys)).length - history = xs.length + ys.length := by
    simp only [List.length_append]
    omega
  have hfirst : (past ++ xs).length - history = xs.length := by
    rw [List.length_append]
    omega
  have hsecond : ((past ++ xs).drop xs.length ++ ys).length - history = ys.length := by
    rw [List.length_append, List.length_drop, List.length_append]
    omega
  rw [slide, slide, slide, hlength, hfirst, hsecond, List.range_add, List.map_append, List.map_map]
  congr 1
  · refine List.map_congr_left fun t ht => hread _ _ fun j hj => ?_
    rw [List.mem_range] at ht
    rw [← List.append_assoc, List.getD_append _ _ _ _ (by rw [List.length_append]; omega)]
  · refine List.map_congr_left fun t _ => congrArg read (funext fun j => ?_)
    have hle : xs.length ≤ (past ++ xs).length := by
      rw [List.length_append]
      omega
    have hcut : (past ++ xs).drop xs.length ++ ys = (past ++ xs ++ ys).drop xs.length :=
      (List.drop_append_of_le_length hle).symm
    rw [hcut, ← List.append_assoc, List.getD_eq_getElem?_getD, List.getD_eq_getElem?_getD,
      List.getElem?_drop, Nat.add_assoc]

end Slide

/-! ### Overlapping segments -/

section Overlap

variable {A V : Type*} [AddCommGroup V]

/-- The sum of the segments at time `t`: the time step `i` of the input has the segment that starts
at `i * stride` and is `width` long. -/
def overlapSum (stride width : ℕ) (segment : A → ℕ → V) (default : A) (xs : List A) (t : ℕ) : V :=
  ∑ i ∈ Finset.range xs.length,
    if i * stride ≤ t ∧ t < i * stride + width then segment (xs.getD i default) (t - i * stride)
    else 0

/-- The samples in front of the next chunk, with the tail of the chunk before. -/
def overlapAdd (stride width : ℕ) (segment : A → ℕ → V) (default : A) (pending : List V)
    (xs : List A) : List V :=
  (List.range (xs.length * stride)).map fun t =>
    overlapSum stride width segment default xs t + pending.getD t 0

/-- The tail of the segments behind the samples of the chunk. -/
def pendingOverlap (stride width : ℕ) (segment : A → ℕ → V) (default : A) (xs : List A) : List V :=
  (List.range (width - stride)).map fun j =>
    overlapSum stride width segment default xs (xs.length * stride + j)

variable {stride width : ℕ} {segment : A → ℕ → V} {default : A}

/-- Behind its last segment the sum is empty. -/
theorem overlapSum_eq_zero {xs : List A} {t : ℕ} (ht : xs.length * stride + (width - stride) ≤ t)
    (hwidth : stride ≤ width) : overlapSum stride width segment default xs t = 0 := by
  refine Finset.sum_eq_zero fun i hi => if_neg fun hin => ?_
  have hstep : (i + 1) * stride ≤ xs.length * stride :=
    Nat.mul_le_mul_right stride (Finset.mem_range.mp hi)
  rw [Nat.succ_mul] at hstep
  omega

/-- The segments of two chunks. -/
theorem overlapSum_append (xs ys : List A) (t : ℕ) :
    overlapSum stride width segment default (xs ++ ys) t =
      overlapSum stride width segment default xs t +
        if xs.length * stride ≤ t then
          overlapSum stride width segment default ys (t - xs.length * stride)
        else 0 := by
  rw [overlapSum, List.length_append, Finset.sum_range_add]
  congr 1
  · refine Finset.sum_congr rfl fun i hi => ?_
    rw [List.getD_append _ _ _ _ (Finset.mem_range.mp hi)]
  · split_ifs with ht
    · refine Finset.sum_congr rfl fun i _ => ?_
      rw [List.getD_append_right _ _ _ _ (Nat.le_add_right _ _), Nat.add_sub_cancel_left,
        Nat.add_mul, ← Nat.sub_sub]
      refine if_congr ?_ rfl rfl
      omega
    · refine Finset.sum_eq_zero fun i _ => if_neg fun hin => ?_
      rw [Nat.add_mul] at hin
      omega

theorem length_pendingOverlap (xs : List A) :
    (pendingOverlap stride width segment default xs).length = width - stride := by
  rw [pendingOverlap, List.length_map, List.length_range]

/-- The samples of two chunks: the tail of the first is added to the second. -/
theorem overlapAdd_append (hwidth : stride ≤ width) (hoverlap : width - stride ≤ stride)
    {pending : List V} (hpending : pending.length = width - stride) {xs : List A} (hxs : xs ≠ [])
    (ys : List A) :
    overlapAdd stride width segment default pending (xs ++ ys) =
      overlapAdd stride width segment default pending xs ++
        overlapAdd stride width segment default
          (pendingOverlap stride width segment default xs) ys := by
  have hlength : 1 * stride ≤ xs.length * stride :=
    Nat.mul_le_mul_right stride (List.length_pos_iff.mpr hxs)
  rw [overlapAdd, List.length_append, Nat.add_mul, List.range_add, List.map_append, List.map_map]
  congr 1
  · refine List.map_congr_left fun t ht => ?_
    rw [overlapSum_append, if_neg (by have := List.mem_range.mp ht; omega), add_zero]
  · refine List.map_congr_left fun t _ => ?_
    rw [Function.comp_apply, overlapSum_append, if_pos (Nat.le_add_right _ _),
      Nat.add_sub_cancel_left, List.getD_eq_default _ _ (by omega), add_zero, add_comm]
    congr 1
    rcases Nat.lt_or_ge t (width - stride) with ht | ht
    · rw [List.getD_eq_getElem _ _ (by rwa [length_pendingOverlap])]
      simp only [pendingOverlap, List.getElem_map, List.getElem_range]
    · rw [List.getD_eq_default _ _ (by rwa [length_pendingOverlap]),
        overlapSum_eq_zero (by omega) hwidth]

/-- The tail of two chunks is that of the second. -/
theorem pendingOverlap_append (hwidth : stride ≤ width) (hoverlap : width - stride ≤ stride)
    (xs : List A) {ys : List A} (hys : ys ≠ []) :
    pendingOverlap stride width segment default (xs ++ ys) =
      pendingOverlap stride width segment default ys := by
  have hlength : 1 * stride ≤ ys.length * stride :=
    Nat.mul_le_mul_right stride (List.length_pos_iff.mpr hys)
  refine List.map_congr_left fun j _ => ?_
  rw [overlapSum_append, List.length_append, Nat.add_mul, overlapSum_eq_zero (by omega) hwidth,
    zero_add, if_pos (by omega), Nat.add_assoc, Nat.add_sub_cancel_left]

end Overlap

end MagpieTts.Library
