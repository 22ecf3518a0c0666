import MagpieTts.Library.DenseTensor
import Mathlib.Algebra.BigOperators.Intervals
import Mathlib.Algebra.Ring.Int.Defs

/-!
# Lowered convolutions

Two convolutions of the exported engines are written twice: the `forward` of the autograd function
runs the convolution of PyTorch, and its `symbolic` builds the graph that is compiled into the plan.
The causal output projection of the Text Encoder (`text_encoder_wrapper.py`) is lowered to slices
side by side and one matrix product, the pointwise convolution of the Main Decoder
(`main_decoder_wrapper.py`) to a matrix product. Arithmetic is exact: the entries are in a
commutative semiring.

## Main definitions

* `conv1d`: `functional.conv1d` with stride and dilation one, no padding and one group.
* `CausalOutputProjection.forward`, `CausalOutputProjection.symbolic`: the two programs of the
  projection.
* `PointwiseConvolution.forward`, `PointwiseConvolution.symbolic`: those of the pointwise
  convolution.

## Main results

* `CausalOutputProjection.symbolic_eq_forward_iff`: the graph computes the projection at the widths
  that its `Reshape` names, and has no result at others.
* `PointwiseConvolution.symbolic_eq_forward`: the graph computes the pointwise convolution.
-/

namespace MagpieTts.Export

open Library Library.Tensor

variable {R : Type} [CommSemiring R]

/-! ### The convolution -/

def conv1d (value weight : Tensor R) : Option (Tensor R) :=
  match value.shape, weight.shape with
  | [batch, width, length], [outputWidth, width', kernel] =>
    if width = width' ∧ 1 ≤ kernel ∧ kernel ≤ length then
      some (cube batch outputWidth (length - kernel + 1) fun b o t =>
        ∑ i ∈ Finset.range width, ∑ j ∈ Finset.range kernel,
          weight.entry [o, i, j] * value.entry [b, i, t + j])
    else none
  | _, _ => none

theorem conv1d_cube {batch width length outputWidth kernel : ℕ} (v w : ℕ → ℕ → ℕ → R)
    (hkernel : 1 ≤ kernel) (hlength : kernel ≤ length) :
    conv1d (cube batch width length v) (cube outputWidth width kernel w) =
      some (cube batch outputWidth (length - kernel + 1) fun b o t =>
        ∑ i ∈ Finset.range width, ∑ j ∈ Finset.range kernel, w o i j * v b i (t + j)) := by
  have hconv : conv1d (cube batch width length v) (cube outputWidth width kernel w) =
      if width = width ∧ 1 ≤ kernel ∧ kernel ≤ length then
        some (cube batch outputWidth (length - kernel + 1) fun b o t =>
          ∑ i ∈ Finset.range width, ∑ j ∈ Finset.range kernel,
            (cube outputWidth width kernel w).entry [o, i, j] *
              (cube batch width length v).entry [b, i, t + j])
      else none := rfl
  rw [hconv, if_pos ⟨rfl, hkernel, hlength⟩, Option.some.injEq]
  refine cube_congr fun b o t hb ho ht => ?_
  refine Finset.sum_congr rfl fun i hi => Finset.sum_congr rfl fun j hj => ?_
  rw [Finset.mem_range] at hi hj
  rw [entry_cube w ho hi hj, entry_cube v hb hi (by omega)]

/-- A tensor of rank three is the cube of its entries. -/
theorem exists_eq_cube {t : Tensor R} {a b c : ℕ} (h : t.shape = [a, b, c]) :
    ∃ f, t = cube a b c f :=
  ⟨fun x y z => t.entry [x, y, z], eq_cube h fun _ _ _ _ _ _ => rfl⟩

theorem exists_eq_table {t : Tensor R} {a b : ℕ} (h : t.shape = [a, b]) :
    ∃ f, t = table a b f :=
  ⟨fun x y => t.entry [x, y], eq_table h fun _ _ _ _ => rfl⟩

/-! ### The causal output projection -/

namespace CausalOutputProjection

def textEncoderFfnWidth : ℕ := 3072

def textEncoderConvKernel : ℕ := 3

def textEncoderOutputProjectionWidth : ℕ := textEncoderFfnWidth * textEncoderConvKernel

def modelWidth : ℕ := 768

def forward (value weight numericTextMask : Tensor R) : Option (Tensor R) := do
  let expandedMask ← numericTextMask.unsqueeze 1
  let masked ← value.mul expandedMask
  -- `functional.pad` names the pads of the last axis only
  let padded ← masked.pad [0, 0, textEncoderConvKernel - 1, 0, 0, 0]
  let projected ← conv1d padded weight
  projected.mul expandedMask

/-- One of the `windows`: a slice of the last axis, with time in front of the channels. -/
def window (padded : Tensor R) (offset stop : ℤ) : Option (Tensor R) := do
  let sliced ← padded.slice offset stop 2 1
  sliced.transpose [0, 2, 1]

/-- The weights as a matrix: its row `kernel tap * width + channel` has the weights of that tap and
channel. -/
def flattenedWeight (weight : Tensor R) : Option (Tensor R) := do
  let transposed ← weight.transpose [2, 1, 0]
  transposed.reshape [textEncoderOutputProjectionWidth, modelWidth]

/-- `slice_ends` ends with `2 ** 63 - 1`, which stands for the end of the axis. -/
def symbolic (value weight numericTextMask : Tensor R) : Option (Tensor R) := do
  let expandedMask ← numericTextMask.unsqueeze 1
  let masked ← value.mul expandedMask
  let padded ← masked.pad [0, 0, 2, 0, 0, 0]
  let window0 ← window padded 0 (-2)
  let window1 ← window padded 1 (-1)
  let window2 ← window padded 2 9223372036854775807
  let im2col ← concat 2 [window0, window1, window2]
  let flattened ← flattenedWeight weight
  let projected ← im2col.matMul flattened
  let channelFirst ← projected.transpose [0, 2, 1]
  channelFirst.mul expandedMask

section Programs

variable {batch width outputWidth length : ℕ} (v w : ℕ → ℕ → ℕ → R) (m : ℕ → ℕ → R)

/-- The masked values behind two zeros. -/
def paddedEntry (b i t : ℕ) : R := if 2 ≤ t then v b i (t - 2) * m b (t - 2) else 0

theorem forward_eq (hlength : 1 ≤ length) :
    forward (cube batch width length v) (cube outputWidth width 3 w) (table batch length m) =
      some (cube batch outputWidth length fun b o t =>
        (∑ i ∈ Finset.range width, ∑ j ∈ Finset.range 3, w o i j * paddedEntry v m b i (t + j)) *
          m b t) := by
  have hpadded : 2 + length - 3 + 1 = length := by omega
  simp only [forward, unsqueeze_table, mul_cube, textEncoderConvKernel, pad_cube, bind,
    Option.bind_some, Nat.reduceSub]
  rw [conv1d_cube _ _ (by omega) (by omega), Option.bind_some, hpadded, mul_cube]
  rfl

/-- A window over the padded values has the length of the values, whatever that length. -/
theorem window_eq {k : ℕ} {stop : ℤ} (f : ℕ → ℕ → ℕ → R) (hk : k ≤ 2)
    (hstop : sliceBound stop (2 + length) = k + length) :
    window (cube batch width (2 + length) f) k stop =
      some (cube batch length width fun b t i => f b i (k + t)) := by
  have hstart : sliceBound (k : ℤ) (2 + length) = k := by
    rw [sliceBound, if_neg (by omega), if_neg (by omega), Int.toNat_natCast]
    omega
  simp only [window, slice_cube f hstart hstop, transpose_cube_021, bind, Option.bind_some]

theorem windows_eq (f : ℕ → ℕ → ℕ → R) (hlength : 1 ≤ length) :
    window (cube batch width (2 + length) f) 0 (-2) =
        some (cube batch length width fun b t i => f b i (0 + t)) ∧
      window (cube batch width (2 + length) f) 1 (-1) =
        some (cube batch length width fun b t i => f b i (1 + t)) ∧
      window (cube batch width (2 + length) f) 2 9223372036854775807 =
        some (cube batch length width fun b t i => f b i (2 + t)) := by
  refine ⟨@window_eq R _ batch width length 0 (-2) f (by omega) ?_,
    @window_eq R _ batch width length 1 (-1) f (by omega) ?_,
    @window_eq R _ batch width length 2 9223372036854775807 f (by omega) ?_⟩
  · rw [sliceBound, if_neg (by omega), if_pos (by omega)]
    omega
  · rw [sliceBound, if_neg (by omega), if_pos (by omega)]
    omega
  · exact if_pos rfl

/-- The `im2col` matrix: at each time, the three taps of the kernel one behind the other. -/
def im2colEntry (width : ℕ) (v : ℕ → ℕ → ℕ → R) (m : ℕ → ℕ → R) (b t q : ℕ) : R :=
  if q < width then paddedEntry v m b q (0 + t)
  else if q - width < width then paddedEntry v m b (q - width) (1 + t)
  else paddedEntry v m b (q - width - width) (2 + t)

/-- The columns of the matrix, tap by tap, are the terms of the convolution. -/
theorem sum_im2colEntry (g : ℕ → R) (b t : ℕ) :
    ∑ q ∈ Finset.range (3 * width), im2colEntry width v m b t q * g q =
      ∑ i ∈ Finset.range width, ∑ j ∈ Finset.range 3,
        paddedEntry v m b i (t + j) * g (j * width + i) := by
  have hlength : 3 * width = width + (width + width) := by omega
  rw [hlength, Finset.sum_range_add, Finset.sum_range_add, ← Finset.sum_add_distrib,
    ← Finset.sum_add_distrib]
  refine Finset.sum_congr rfl fun i hi => ?_
  rw [Finset.mem_range] at hi
  have htap0 : im2colEntry width v m b t i = paddedEntry v m b i (0 + t) := if_pos hi
  have htap1 : im2colEntry width v m b t (width + i) = paddedEntry v m b i (1 + t) := by
    rw [im2colEntry, if_neg (by omega), if_pos (by omega), Nat.add_sub_cancel_left]
  have htap2 : im2colEntry width v m b t (width + (width + i)) =
      paddedEntry v m b i (2 + t) := by
    rw [im2colEntry, if_neg (by omega), if_neg (by omega), Nat.add_sub_cancel_left,
      Nat.add_sub_cancel_left]
  rw [htap0, htap1, htap2, Finset.sum_range_succ, Finset.sum_range_succ, Finset.sum_range_one,
    Nat.add_comm 0 t, Nat.add_comm 1 t, Nat.add_comm 2 t, Nat.zero_mul, Nat.zero_add, Nat.one_mul,
    ← Nat.add_assoc, Nat.two_mul, Nat.add_assoc width width i,
    add_assoc (paddedEntry v m b i (t + 0) * _)]

/-- The matrix of the weights, for widths that fit the shape that the graph names. -/
theorem flattenedWeight_eq (hwidth : width * 3 = textEncoderOutputProjectionWidth)
    (houtput : outputWidth = modelWidth) :
    flattenedWeight (cube outputWidth width 3 w) =
      some (table (3 * width) outputWidth fun q o => w o (q % width) (q / width)) := by
  rw [flattenedWeight, transpose_cube_210, ← hwidth, ← houtput, Nat.mul_comm width 3]
  exact reshape_cube _

omit [CommSemiring R] in
/-- The rows of the matrix are tap by tap the weights. -/
theorem weight_at (o : ℕ) {i : ℕ} (j : ℕ) (hi : i < width) :
    w o ((j * width + i) % width) ((j * width + i) / width) = w o i j := by
  rw [Nat.mul_add_mod_self_right, Nat.mod_eq_of_lt hi, Nat.add_comm,
    Nat.add_mul_div_right _ _ (Nat.zero_lt_of_lt hi), Nat.div_eq_of_lt hi, Nat.zero_add]

/-- The graph up to the product with the weights. -/
theorem symbolic_eq_bind (hlength : 1 ≤ length) (weight : Tensor R) :
    symbolic (cube batch width length v) weight (table batch length m) =
      (flattenedWeight weight).bind fun flattened =>
        ((cube batch length (3 * width) (im2colEntry width v m)).matMul flattened).bind
          fun projected => (projected.transpose [0, 2, 1]).bind
            fun channelFirst => channelFirst.mul (cube batch 1 length fun b _ t => m b t) := by
  obtain ⟨h0, h1, h2⟩ := @windows_eq R _ batch width length (paddedEntry v m) hlength
  have hpadded : (cube batch width length fun b i t => v b i t * m b t).pad [0, 0, 2, 0, 0, 0] =
      some (cube batch width (2 + length) (paddedEntry v m)) := pad_cube 2 _
  simp only [symbolic, unsqueeze_table, mul_cube, hpadded, h0, h1, h2, concat_cube, bind,
    Option.bind_some]
  rfl

theorem symbolic_eq (hlength : 1 ≤ length) (hwidth : width * 3 = textEncoderOutputProjectionWidth)
    (houtput : outputWidth = modelWidth) :
    symbolic (cube batch width length v) (cube outputWidth width 3 w) (table batch length m) =
      forward (cube batch width length v) (cube outputWidth width 3 w) (table batch length m) := by
  rw [symbolic_eq_bind v m hlength, flattenedWeight_eq w hwidth houtput, forward_eq v w m hlength]
  simp only [Option.bind_some, matMul_cube_table, transpose_cube_021, mul_cube, Option.some.injEq]
  refine cube_congr fun b o t _ _ _ => congrArg (· * m b t) ?_
  rw [sum_im2colEntry]
  refine Finset.sum_congr rfl fun i hi => Finset.sum_congr rfl fun j _ => ?_
  rw [weight_at w o j (Finset.mem_range.mp hi), mul_comm]

theorem outputWidth_of_prod {rows : ℕ}
    (hprod : [3, width, outputWidth].prod = [rows, modelWidth].prod) (hrows : 3 * width = rows)
    (hpos : 0 < rows) : outputWidth = modelWidth := by
  simp only [List.prod_cons, List.prod_nil, Nat.mul_one] at hprod
  rw [← Nat.mul_assoc, hrows] at hprod
  exact Nat.eq_of_mul_eq_mul_left hpos hprod

/-- At other widths the weights have no matrix of the shape that the graph names, or one that the
windows do not fit. -/
theorem symbolic_eq_none (hlength : 1 ≤ length)
    (h : ¬ (width * 3 = textEncoderOutputProjectionWidth ∧ outputWidth = modelWidth)) :
    symbolic (cube batch width length v) (cube outputWidth width 3 w) (table batch length m) =
      none := by
  rw [symbolic_eq_bind v m hlength]
  cases hflattened : flattenedWeight (cube outputWidth width 3 w) with
  | none => rfl
  | some flattened =>
    have hreshape : (cube 3 width outputWidth fun j i o => w o i j).reshape
        [textEncoderOutputProjectionWidth, modelWidth] = some flattened := by
      rw [← hflattened, flattenedWeight, transpose_cube_210]
      rfl
    obtain ⟨hprod, hshape⟩ := shape_of_reshape hreshape
    have hwidth : 3 * width ≠ textEncoderOutputProjectionWidth := fun hwidth =>
      h ⟨by omega, outputWidth_of_prod hprod hwidth (by decide)⟩
    rw [Option.bind_some, matMul_eq_none _ hshape hwidth]
    rfl

end Programs

section Tensors

variable {batch width outputWidth length : ℕ} {value weight numericTextMask : Tensor R}

/-- The graph computes the projection exactly at the widths that its `Reshape` names. -/
theorem symbolic_eq_forward_iff (hvalue : value.shape = [batch, width, length])
    (hweight : weight.shape = [outputWidth, width, 3])
    (hmask : numericTextMask.shape = [batch, length]) (hlength : 1 ≤ length) :
    symbolic value weight numericTextMask = forward value weight numericTextMask ↔
      width * 3 = textEncoderOutputProjectionWidth ∧ outputWidth = modelWidth := by
  obtain ⟨v, rfl⟩ := exists_eq_cube hvalue
  obtain ⟨w, rfl⟩ := exists_eq_cube hweight
  obtain ⟨m, rfl⟩ := exists_eq_table hmask
  constructor
  · intro h
    by_contra hwidths
    rw [symbolic_eq_none v w m hlength hwidths, forward_eq v w m hlength] at h
    cases h
  · exact fun h => symbolic_eq v w m hlength h.1 h.2

theorem exists_forward_eq (hvalue : value.shape = [batch, width, length])
    (hweight : weight.shape = [outputWidth, width, 3])
    (hmask : numericTextMask.shape = [batch, length]) (hlength : 1 ≤ length) :
    ∃ result, forward value weight numericTextMask = some result := by
  obtain ⟨v, rfl⟩ := exists_eq_cube hvalue
  obtain ⟨w, rfl⟩ := exists_eq_cube hweight
  obtain ⟨m, rfl⟩ := exists_eq_table hmask
  exact ⟨_, forward_eq v w m hlength⟩

end Tensors

end CausalOutputProjection

/-! ### The pointwise convolution -/

namespace PointwiseConvolution

def forward (value weight : Tensor R) : Option (Tensor R) := conv1d value weight

def symbolic (value weight : Tensor R) : Option (Tensor R) := do
  let transposedValue ← value.transpose [0, 2, 1]
  let matrixWeight ← weight.squeeze 2
  let transposedWeight ← matrixWeight.transpose [1, 0]
  let projected ← transposedValue.matMul transposedWeight
  projected.transpose [0, 2, 1]

variable {batch width outputWidth length : ℕ} {value weight : Tensor R}

theorem symbolic_eq_forward (hvalue : value.shape = [batch, width, length])
    (hweight : weight.shape = [outputWidth, width, 1]) (hlength : 1 ≤ length) :
    ∃ result, forward value weight = some result ∧ symbolic value weight = some result := by
  obtain ⟨v, rfl⟩ := exists_eq_cube hvalue
  obtain ⟨w, rfl⟩ := exists_eq_cube hweight
  refine ⟨_, conv1d_cube v w (Nat.le_refl 1) hlength, ?_⟩
  simp only [symbolic, transpose_cube_021, squeeze_cube, transpose_table, matMul_cube_table, bind,
    Option.bind_some, Nat.sub_add_cancel hlength, Option.some.injEq]
  refine cube_congr fun b o t _ _ _ => Finset.sum_congr rfl fun i _ => ?_
  rw [Finset.sum_range_one, Nat.add_zero, mul_comm]

end PointwiseConvolution

/-! ### Both lowerings -/

end MagpieTts.Export
