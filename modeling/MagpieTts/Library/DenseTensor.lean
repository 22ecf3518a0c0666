import Mathlib.Algebra.BigOperators.Group.Finset.Basic
import Mathlib.Algebra.BigOperators.Group.List.Basic
import Mathlib.Algebra.Ring.Defs
import Mathlib.Data.List.GetD
import Mathlib.Data.List.Forall2
import Mathlib.Algebra.Order.Group.Nat
import Mathlib.Algebra.GroupWithZero.Nat

/-!
# Dense tensors and their operators

Tensors of any rank with their entries in row-major order, and the operators of tensor graphs that a
lowered convolution uses. The operators follow the ONNX operator definitions; an operator whose
operands do not fit has no result.

## Main definitions

* `Tensor`: a shape with as many entries as it has positions.
* `Tensor.entry`, `Tensor.build`: the entry at a multi-index, and the tensor with given entries.
* `Tensor.reshape`, `unsqueeze`, `squeeze`, `mul`, `pad`, `slice`, `transpose`, `concat`, `matMul`:
  the operators.
* `Tensor.cube`, `Tensor.table`: tensors of rank three and two.

## Main results

* `Tensor.ext_entry`: tensors of one shape with the same entries are equal.
* `Tensor.mul_cube`, `Tensor.pad_cube`, `Tensor.slice_cube` and their companions: the operators on
  tensors of rank three and two.
-/

namespace MagpieTts.Library

/-! ### Multi-indices in row-major order -/

/-- The position of a multi-index in row-major order. -/
def flatIndex : List ℕ → List ℕ → ℕ
  | _ :: shape, i :: index => i * shape.prod + flatIndex shape index
  | _, _ => 0

/-- The multi-index at a position. -/
def multiIndex : List ℕ → ℕ → List ℕ
  | [], _ => []
  | _ :: shape, position => position / shape.prod :: multiIndex shape (position % shape.prod)

/-- The multi-indices of a shape. -/
def InBounds (shape index : List ℕ) : Prop := List.Forall₂ (fun i d => i < d) index shape

theorem prod_pos_of_inBounds {shape index : List ℕ} (h : InBounds shape index) :
    0 < shape.prod := by
  induction h with
  | nil => exact Nat.one_pos
  | cons hlt _ ih =>
    rw [List.prod_cons]
    exact Nat.mul_pos (Nat.zero_lt_of_lt hlt) ih

theorem flatIndex_lt {shape index : List ℕ} (h : InBounds shape index) :
    flatIndex shape index < shape.prod := by
  induction h with
  | nil => exact Nat.one_pos
  | @cons i d index shape hlt hrest ih =>
    rw [flatIndex, List.prod_cons]
    calc i * shape.prod + flatIndex shape index
      _ < i * shape.prod + shape.prod := Nat.add_lt_add_left ih _
      _ = (i + 1) * shape.prod := (Nat.succ_mul i shape.prod).symm
      _ ≤ d * shape.prod := Nat.mul_le_mul_right _ hlt

theorem multiIndex_flatIndex {shape index : List ℕ} (h : InBounds shape index) :
    multiIndex shape (flatIndex shape index) = index := by
  induction h with
  | nil => rfl
  | @cons i d index shape hlt hrest ih =>
    have hsmall : flatIndex shape index < shape.prod := flatIndex_lt hrest
    rw [flatIndex, multiIndex, Nat.add_comm, Nat.add_mul_div_right _ _ (prod_pos_of_inBounds hrest),
      Nat.div_eq_of_lt hsmall, Nat.zero_add, Nat.add_mul_mod_self_right, Nat.mod_eq_of_lt hsmall,
      ih]

theorem inBounds_multiIndex {shape : List ℕ} {position : ℕ} (h : position < shape.prod) :
    InBounds shape (multiIndex shape position) := by
  induction shape generalizing position with
  | nil => exact .nil
  | cons d shape ih =>
    rw [List.prod_cons] at h
    have hpos : 0 < shape.prod := Nat.pos_of_lt_mul_left h
    exact .cons ((Nat.div_lt_iff_lt_mul hpos).mpr h) (ih (Nat.mod_lt _ hpos))

theorem flatIndex_multiIndex {shape : List ℕ} {position : ℕ} (h : position < shape.prod) :
    flatIndex shape (multiIndex shape position) = position := by
  induction shape generalizing position with
  | nil => exact (Nat.lt_one_iff.mp h).symm
  | cons d shape ih =>
    rw [List.prod_cons] at h
    have hpos : 0 < shape.prod := Nat.pos_of_lt_mul_left h
    rw [multiIndex, flatIndex, ih (Nat.mod_lt _ hpos)]
    exact Nat.div_add_mod' position shape.prod

/-! ### Tensors -/

/-- A tensor: its entries in row-major order, one for each position of the shape. -/
structure Tensor (R : Type*) where
  shape : List ℕ
  data : List R
  length_data : data.length = shape.prod

namespace Tensor

variable {R : Type*}

section Entries

variable [Zero R]

/-- The entry at a multi-index. -/
def entry (t : Tensor R) (index : List ℕ) : R := t.data.getD (flatIndex t.shape index) 0

/-- The tensor of a shape with given entries. -/
def build (shape : List ℕ) (f : List ℕ → R) : Tensor R where
  shape := shape
  data := (List.range shape.prod).map fun position => f (multiIndex shape position)
  length_data := by rw [List.length_map, List.length_range]

theorem entry_build {shape index : List ℕ} (f : List ℕ → R) (h : InBounds shape index) :
    (build shape f).entry index = f index := by
  rw [entry, build, List.getD_eq_getElem?_getD, List.getElem?_map,
    List.getElem?_range (flatIndex_lt h), Option.map_some, Option.getD_some, multiIndex_flatIndex h]

/-- Tensors of one shape with the same entries are equal. -/
theorem ext_entry {t u : Tensor R} (hshape : t.shape = u.shape)
    (hentry : ∀ index, InBounds t.shape index → t.entry index = u.entry index) : t = u := by
  obtain ⟨shape, data, hdata⟩ := t
  obtain ⟨shape', data', hdata'⟩ := u
  obtain rfl : shape = shape' := hshape
  have heq : data = data' := by
    refine List.ext_getElem (hdata.trans hdata'.symm) fun position hlt hlt' => ?_
    rw [hdata] at hlt
    have hat := hentry _ (inBounds_multiIndex hlt)
    simp only [entry, flatIndex_multiIndex hlt] at hat
    rwa [List.getD_eq_getElem _ _ (hdata ▸ hlt), List.getD_eq_getElem _ _ (hdata' ▸ hlt)] at hat
  cases heq
  rfl

/-! ### The operators -/

/-- `Reshape` to a shape without placeholders: the entries keep their row-major order. -/
def reshape (target : List ℕ) (t : Tensor R) : Option (Tensor R) :=
  if h : t.shape.prod = target.prod then some ⟨target, t.data, t.length_data.trans h⟩ else none

/-- `Unsqueeze` at one axis: a dimension of size one is inserted. -/
def unsqueeze (axis : ℕ) (t : Tensor R) : Option (Tensor R) :=
  if axis ≤ t.shape.length then t.reshape (t.shape.insertIdx axis 1) else none

/-- `Squeeze` of one axis, which has to have size one. -/
def squeeze (axis : ℕ) (t : Tensor R) : Option (Tensor R) :=
  if t.shape[axis]? = some 1 then t.reshape (t.shape.eraseIdx axis) else none

/-- The broadcast of two shapes, from the last dimension on. -/
def broadcastReversed : List ℕ → List ℕ → Option (List ℕ)
  | [], shape => some shape
  | shape, [] => some shape
  | d :: shape, e :: shape' =>
    if d = e ∨ e = 1 then (broadcastReversed shape shape').map (d :: ·)
    else if d = 1 then (broadcastReversed shape shape').map (e :: ·)
    else none

def broadcastShape (shape shape' : List ℕ) : Option (List ℕ) :=
  (broadcastReversed shape.reverse shape'.reverse).map List.reverse

/-- The multi-index at which a broadcast operand is read: its dimensions of size one are read at
zero. -/
def broadcastIndex (shape index : List ℕ) : List ℕ :=
  List.zipWith (fun d i => if d = 1 then 0 else i) shape (index.drop (index.length - shape.length))

/-- `Mul`, with broadcasting. -/
def mul [Mul R] (t u : Tensor R) : Option (Tensor R) :=
  (broadcastShape t.shape u.shape).map fun shape => build shape fun index =>
    t.entry (broadcastIndex t.shape index) * u.entry (broadcastIndex u.shape index)

/-- The multi-index that a padded one comes from; none where it lies in the padding. -/
def padSource : List ℕ → List ℕ → List ℕ → Option (List ℕ)
  | p :: starts, d :: shape, i :: index =>
    if p ≤ i ∧ i - p < d then (padSource starts shape index).map ((i - p) :: ·) else none
  | _, _, _ => some []

/-- `Pad` with zeros; the pads are the ones at the start of each axis, then those at the end. -/
def pad (pads : List ℕ) (t : Tensor R) : Option (Tensor R) :=
  let starts := pads.take t.shape.length
  let ends := pads.drop t.shape.length
  if pads.length = 2 * t.shape.length then
    some (build (List.zipWith (· + ·) (List.zipWith (· + ·) starts t.shape) ends) fun index =>
      match padSource starts t.shape index with
      | some source => t.entry source
      | none => 0)
  else none

/-- A bound of `Slice`: a negative one counts from the end, and all are clamped. Dimensions are
64-bit integers, so the largest of these is the end of every axis. -/
def sliceBound (bound : ℤ) (d : ℕ) : ℕ :=
  if bound = 9223372036854775807 then d
  else min (if bound < 0 then bound + d else bound).toNat d

/-- `Slice` of one axis with a positive step. -/
def slice (start stop : ℤ) (axis step : ℕ) (t : Tensor R) : Option (Tensor R) :=
  match t.shape[axis]? with
  | none => none
  | some d =>
    if step = 0 then none
    else
      some (build (t.shape.set axis ((sliceBound stop d - sliceBound start d + step - 1) / step))
        fun index => t.entry (index.modify axis fun i => sliceBound start d + i * step))

/-- `Transpose`: axis `k` of the result is axis `perm[k]` of the operand. -/
def transpose (perm : List ℕ) (t : Tensor R) : Option (Tensor R) :=
  if perm.isPerm (List.range t.shape.length) then
    some (build (perm.map fun axis => t.shape.getD axis 0) fun index =>
      t.entry ((List.range t.shape.length).map fun axis => index.getD (perm.idxOf axis) 0))
  else none

/-- The entry of a concatenation. -/
def concatEntry (axis : ℕ) : List (Tensor R) → List ℕ → R
  | [], _ => 0
  | t :: rest, index =>
    if index.getD axis 0 < t.shape.getD axis 0 then t.entry index
    else concatEntry axis rest (index.modify axis (· - t.shape.getD axis 0))

/-- `Concat` along an axis: the other dimensions agree. -/
def concat (axis : ℕ) : List (Tensor R) → Option (Tensor R)
  | [] => none
  | t :: rest =>
    if axis < t.shape.length ∧ rest.all fun u =>
        u.shape.length == t.shape.length && u.shape.eraseIdx axis == t.shape.eraseIdx axis then
      some (build (t.shape.set axis ((t :: rest).map fun u => u.shape.getD axis 0).sum)
        (concatEntry axis (t :: rest)))
    else none

end Entries

/-- `MatMul` with a matrix on the right. -/
def matMul [NonUnitalNonAssocSemiring R] (t u : Tensor R) : Option (Tensor R) :=
  match t.shape.reverse, u.shape with
  | k :: rows, [k', n] =>
    if rows ≠ [] ∧ k = k' then
      some (build (rows.reverse ++ [n]) fun index =>
        ∑ q ∈ Finset.range k, t.entry (index.dropLast ++ [q]) * u.entry [q, index.getLastD 0])
    else none
  | _, _ => none

/-! ### Tensors of rank three and two -/

section Ranks

variable {a b c : ℕ}

/-- A tensor of rank three. -/
def cube (a b c : ℕ) (f : ℕ → ℕ → ℕ → R) : Tensor R :=
  build [a, b, c] fun index => f (index.getD 0 0) (index.getD 1 0) (index.getD 2 0)

/-- A tensor of rank two. -/
def table (a b : ℕ) (f : ℕ → ℕ → R) : Tensor R :=
  build [a, b] fun index => f (index.getD 0 0) (index.getD 1 0)

theorem shape_cube (f : ℕ → ℕ → ℕ → R) : (cube a b c f).shape = [a, b, c] := rfl

theorem shape_table (f : ℕ → ℕ → R) : (table a b f).shape = [a, b] := rfl

theorem inBounds_cube_iff {index : List ℕ} :
    InBounds [a, b, c] index ↔ ∃ x y z, index = [x, y, z] ∧ x < a ∧ y < b ∧ z < c := by
  constructor
  · rintro (_ | ⟨hx, _ | ⟨hy, _ | ⟨hz, _ | _⟩⟩⟩)
    exact ⟨_, _, _, rfl, hx, hy, hz⟩
  · rintro ⟨x, y, z, rfl, hx, hy, hz⟩
    exact .cons hx (.cons hy (.cons hz .nil))

theorem inBounds_table_iff {index : List ℕ} :
    InBounds [a, b] index ↔ ∃ x y, index = [x, y] ∧ x < a ∧ y < b := by
  constructor
  · rintro (_ | ⟨hx, _ | ⟨hy, _ | _⟩⟩)
    exact ⟨_, _, rfl, hx, hy⟩
  · rintro ⟨x, y, rfl, hx, hy⟩
    exact .cons hx (.cons hy .nil)

variable [Zero R]

theorem entry_cube (f : ℕ → ℕ → ℕ → R) {x y z : ℕ} (hx : x < a) (hy : y < b) (hz : z < c) :
    (cube a b c f).entry [x, y, z] = f x y z :=
  entry_build _ (inBounds_cube_iff.mpr ⟨x, y, z, rfl, hx, hy, hz⟩)

theorem entry_table (f : ℕ → ℕ → R) {x y : ℕ} (hx : x < a) (hy : y < b) :
    (table a b f).entry [x, y] = f x y :=
  entry_build _ (inBounds_table_iff.mpr ⟨x, y, rfl, hx, hy⟩)

/-- A tensor with the shape and the entries of a cube is that cube. -/
theorem eq_cube {t : Tensor R} {f : ℕ → ℕ → ℕ → R} (hshape : t.shape = [a, b, c])
    (hentry : ∀ x y z, x < a → y < b → z < c → t.entry [x, y, z] = f x y z) :
    t = cube a b c f := by
  refine ext_entry hshape fun index hindex => ?_
  rw [hshape] at hindex
  obtain ⟨x, y, z, rfl, hx, hy, hz⟩ := inBounds_cube_iff.mp hindex
  rw [hentry x y z hx hy hz, entry_cube f hx hy hz]

theorem eq_table {t : Tensor R} {f : ℕ → ℕ → R} (hshape : t.shape = [a, b])
    (hentry : ∀ x y, x < a → y < b → t.entry [x, y] = f x y) : t = table a b f := by
  refine ext_entry hshape fun index hindex => ?_
  rw [hshape] at hindex
  obtain ⟨x, y, rfl, hx, hy⟩ := inBounds_table_iff.mp hindex
  rw [hentry x y hx hy, entry_table f hx hy]

theorem cube_congr {f g : ℕ → ℕ → ℕ → R}
    (h : ∀ x y z, x < a → y < b → z < c → f x y z = g x y z) : cube a b c f = cube a b c g :=
  eq_cube rfl fun x y z hx hy hz => by rw [entry_cube f hx hy hz, h x y z hx hy hz]

/-- A reshaped tensor has the entry of the position that its multi-index names. -/
theorem entry_reshape {t u : Tensor R} {target : List ℕ} (h : t.reshape target = some u)
    {index index' : List ℕ} (hflat : flatIndex target index = flatIndex t.shape index') :
    u.entry index = t.entry index' := by
  rw [reshape] at h
  split_ifs at h with hprod
  cases h
  rw [entry, entry, hflat]

omit [Zero R] in
theorem shape_of_reshape {t u : Tensor R} {target : List ℕ} (h : t.reshape target = some u) :
    t.shape.prod = target.prod ∧ u.shape = target := by
  rw [reshape] at h
  split_ifs at h with hprod
  cases h
  exact ⟨hprod, rfl⟩

omit [Zero R] in
theorem reshape_eq_some {t : Tensor R} {target : List ℕ} (h : t.shape.prod = target.prod) :
    ∃ u, t.reshape target = some u ∧ u.shape = target :=
  ⟨_, dif_pos h, rfl⟩

theorem unsqueeze_table (f : ℕ → ℕ → R) :
    (table a b f).unsqueeze 1 = some (cube a 1 b fun x _ z => f x z) := by
  obtain ⟨u, hu, hshape⟩ := @reshape_eq_some R (table a b f) [a, 1, b] (by simp [shape_table])
  have hunsqueeze : (table a b f).unsqueeze 1 = some u := hu
  rw [hunsqueeze, Option.some.injEq]
  refine eq_cube hshape fun x y z hx hy hz => ?_
  obtain rfl : y = 0 := Nat.lt_one_iff.mp hy
  rw [@entry_reshape _ _ _ _ _ hu _ [x, z] (by simp [flatIndex, shape_table]),
    entry_table f hx hz]

theorem squeeze_cube (f : ℕ → ℕ → ℕ → R) :
    (cube a b 1 f).squeeze 2 = some (table a b fun x y => f x y 0) := by
  obtain ⟨u, hu, hshape⟩ := @reshape_eq_some R (cube a b 1 f) [a, b] (by simp [shape_cube])
  have hsqueeze : (cube a b 1 f).squeeze 2 = some u := hu
  rw [hsqueeze, Option.some.injEq]
  refine eq_table hshape fun x y hx hy => ?_
  rw [@entry_reshape _ _ _ _ _ hu _ [x, y, 0] (by simp [flatIndex, shape_cube]),
    entry_cube f hx hy Nat.one_pos]

/-- The first two axes of a cube, flattened. -/
theorem reshape_cube (f : ℕ → ℕ → ℕ → R) :
    (cube a b c f).reshape [a * b, c] = some (table (a * b) c fun q z => f (q / b) (q % b) z) := by
  obtain ⟨u, hu, hshape⟩ := @reshape_eq_some R (cube a b c f) [a * b, c]
    (by simp [shape_cube, Nat.mul_assoc])
  rw [hu, Option.some.injEq]
  refine eq_table hshape fun q z hq hz => ?_
  have hb : 0 < b := Nat.pos_of_lt_mul_left hq
  rw [@entry_reshape _ _ _ _ _ hu _ [q / b, q % b, z] ?_,
    entry_cube f ((Nat.div_lt_iff_lt_mul hb).mpr hq) (Nat.mod_lt q hb) hz]
  simp only [flatIndex, shape_cube, List.prod_cons, List.prod_nil, Nat.mul_one, Nat.add_zero]
  calc q * c + z
    _ = (q / b * b + q % b) * c + z := by rw [Nat.div_add_mod']
    _ = q / b * (b * c) + (q % b * c + z) := by rw [Nat.add_mul, Nat.mul_assoc, Nat.add_assoc]

theorem broadcastIndex_cube {x y z : ℕ} (hx : x < a) (hy : y < b) (hz : z < c) :
    broadcastIndex [a, b, c] [x, y, z] = [x, y, z] := by
  have hclamp : ∀ {d i : ℕ}, i < d → (if d = 1 then 0 else i) = i := by
    intro d i hlt
    split_ifs with hone
    · omega
    · rfl
  simp only [broadcastIndex, List.length_cons, List.length_nil, Nat.sub_self, List.drop_zero,
    List.zipWith_cons_cons, List.zipWith_nil_left, hclamp hx, hclamp hy, hclamp hz]

theorem broadcastIndex_row {x y z : ℕ} (hx : x < a) (hz : z < c) :
    broadcastIndex [a, 1, c] [x, y, z] = [x, 0, z] := by
  have h := @broadcastIndex_cube a 1 c x 0 z hx Nat.one_pos hz
  simpa only [broadcastIndex, List.length_cons, List.length_nil, Nat.sub_self, List.drop_zero,
    List.zipWith_cons_cons, if_true] using h

/-- A cube times one row for each first index. -/
theorem mul_cube [Mul R] (f g : ℕ → ℕ → ℕ → R) :
    (cube a b c f).mul (cube a 1 c g) = some (cube a b c fun x y z => f x y z * g x 0 z) := by
  have hbroadcast : broadcastShape [a, b, c] [a, 1, c] = some [a, b, c] := by
    simp [broadcastShape, broadcastReversed]
  rw [mul, shape_cube, shape_cube, hbroadcast, Option.map_some, Option.some.injEq]
  refine eq_cube rfl fun x y z hx hy hz => ?_
  rw [entry_build _ (inBounds_cube_iff.mpr ⟨x, y, z, rfl, hx, hy, hz⟩),
    broadcastIndex_cube hx hy hz, broadcastIndex_row hx hz, entry_cube f hx hy hz,
    entry_cube g hx Nat.one_pos hz]

/-- Zeros in front of the last axis. -/
theorem pad_cube (n : ℕ) (f : ℕ → ℕ → ℕ → R) :
    (cube a b c f).pad [0, 0, n, 0, 0, 0] =
      some (cube a b (n + c) fun x y z => if n ≤ z then f x y (z - n) else 0) := by
  have hpad : (cube a b c f).pad [0, 0, n, 0, 0, 0] =
      some (build [0 + a + 0, 0 + b + 0, n + c + 0] fun index =>
        match padSource [0, 0, n] [a, b, c] index with
        | some source => (cube a b c f).entry source
        | none => 0) := rfl
  simp only [hpad, Nat.zero_add, Nat.add_zero, Option.some.injEq]
  refine eq_cube rfl fun x y z hx hy hz => ?_
  rw [entry_build _ (inBounds_cube_iff.mpr ⟨x, y, z, rfl, hx, hy, hz⟩)]
  by_cases hn : n ≤ z
  · have hlt : z - n < c := by omega
    have hsource : padSource [0, 0, n] [a, b, c] [x, y, z] = some [x, y, z - n] := by
      simp only [padSource, Nat.zero_le, Nat.sub_zero, hx, hy, hn, hlt, and_self, if_true,
        Option.map_some]
    rw [hsource, if_pos hn]
    exact entry_cube f hx hy hlt
  · have hsource : padSource [0, 0, n] [a, b, c] [x, y, z] = none := by
      simp only [padSource, hn, false_and, if_false, Option.map_none, ite_self]
    rw [hsource, if_neg hn]

omit [Zero R] in
theorem sliceBound_le (bound : ℤ) (d : ℕ) : sliceBound bound d ≤ d := by
  rw [sliceBound]
  split_ifs
  · exact Nat.le_refl d
  · exact Nat.min_le_right _ d
  · exact Nat.min_le_right _ d

/-- A window of the last axis. -/
theorem slice_cube (f : ℕ → ℕ → ℕ → R) {start stop : ℤ} {first n : ℕ}
    (hstart : sliceBound start c = first) (hstop : sliceBound stop c = first + n) :
    (cube a b c f).slice start stop 2 1 = some (cube a b n fun x y z => f x y (first + z)) := by
  have hc : first + n ≤ c := hstop ▸ sliceBound_le stop c
  have hat : (cube a b c f).shape[2]? = some c := rfl
  rw [slice, hat]
  simp only [hstart, hstop, Nat.one_ne_zero, if_false, Option.some.injEq]
  have hlength : (first + n - first + 1 - 1) / 1 = n := by omega
  have hshape : (cube a b c f).shape.set 2 n = [a, b, n] := rfl
  rw [hlength, hshape]
  refine eq_cube rfl fun x y z hx hy hz => ?_
  rw [entry_build _ (inBounds_cube_iff.mpr ⟨x, y, z, rfl, hx, hy, hz⟩),
    ← entry_cube f hx hy (show first + z < c by omega)]
  exact congrArg (fun w => (cube a b c f).entry [x, y, first + w]) (Nat.mul_one z)

theorem transpose_cube_021 (f : ℕ → ℕ → ℕ → R) :
    (cube a b c f).transpose [0, 2, 1] = some (cube a c b fun x y z => f x z y) := by
  have htranspose : (cube a b c f).transpose [0, 2, 1] = some (build [a, c, b] fun index =>
      (cube a b c f).entry [index.getD 0 0, index.getD 2 0, index.getD 1 0]) := rfl
  rw [htranspose, Option.some.injEq]
  refine eq_cube rfl fun x y z hx hy hz => ?_
  rw [entry_build _ (inBounds_cube_iff.mpr ⟨x, y, z, rfl, hx, hy, hz⟩)]
  exact entry_cube f hx hz hy

theorem transpose_cube_210 (f : ℕ → ℕ → ℕ → R) :
    (cube a b c f).transpose [2, 1, 0] = some (cube c b a fun x y z => f z y x) := by
  have htranspose : (cube a b c f).transpose [2, 1, 0] = some (build [c, b, a] fun index =>
      (cube a b c f).entry [index.getD 2 0, index.getD 1 0, index.getD 0 0]) := rfl
  rw [htranspose, Option.some.injEq]
  refine eq_cube rfl fun x y z hx hy hz => ?_
  rw [entry_build _ (inBounds_cube_iff.mpr ⟨x, y, z, rfl, hx, hy, hz⟩)]
  exact entry_cube f hz hy hx

theorem transpose_table (f : ℕ → ℕ → R) :
    (table a b f).transpose [1, 0] = some (table b a fun x y => f y x) := by
  have htranspose : (table a b f).transpose [1, 0] = some (build [b, a] fun index =>
      (table a b f).entry [index.getD 1 0, index.getD 0 0]) := rfl
  rw [htranspose, Option.some.injEq]
  refine eq_table rfl fun x y hx hy => ?_
  rw [entry_build _ (inBounds_table_iff.mpr ⟨x, y, rfl, hx, hy⟩)]
  exact entry_table f hy hx

/-- Three cubes side by side along the last axis. -/
theorem concat_cube (f g h : ℕ → ℕ → ℕ → R) :
    concat 2 [cube a b c f, cube a b c g, cube a b c h] =
      some (cube a b (3 * c) fun x y z =>
        if z < c then f x y z else if z - c < c then g x y (z - c) else h x y (z - c - c)) := by
  have hconcat : concat 2 [cube a b c f, cube a b c g, cube a b c h] =
      some (build [a, b, c + (c + (c + 0))]
        (concatEntry 2 [cube a b c f, cube a b c g, cube a b c h])) := by
    rw [concat, if_pos (by simp [shape_cube])]
    rfl
  have hlength : c + (c + (c + 0)) = 3 * c := by omega
  rw [hconcat, hlength, Option.some.injEq]
  refine eq_cube rfl fun x y z hx hy hz => ?_
  rw [entry_build _ (inBounds_cube_iff.mpr ⟨x, y, z, rfl, hx, hy, hz⟩)]
  change (if z < c then (cube a b c f).entry [x, y, z]
    else if z - c < c then (cube a b c g).entry [x, y, z - c]
    else if z - c - c < c then (cube a b c h).entry [x, y, z - c - c] else 0) = _
  split_ifs with hf hg hh
  · exact entry_cube f hx hy hf
  · exact entry_cube g hx hy hg
  · exact entry_cube h hx hy hh
  · omega

end Ranks

theorem matMul_cube_table [NonUnitalNonAssocSemiring R] {a b k n : ℕ} (f : ℕ → ℕ → ℕ → R)
    (g : ℕ → ℕ → R) :
    (cube a b k f).matMul (table k n g) =
      some (cube a b n fun x y z => ∑ q ∈ Finset.range k, f x y q * g q z) := by
  have hmatMul : (cube a b k f).matMul (table k n g) =
      if [b, a] ≠ [] ∧ k = k then
        some (build [a, b, n] fun index => ∑ q ∈ Finset.range k,
          (cube a b k f).entry (index.dropLast ++ [q]) *
            (table k n g).entry [q, index.getLastD 0])
      else none := rfl
  rw [hmatMul, if_pos ⟨List.cons_ne_nil _ _, rfl⟩, Option.some.injEq]
  refine eq_cube rfl fun x y z hx hy hz => ?_
  rw [entry_build _ (inBounds_cube_iff.mpr ⟨x, y, z, rfl, hx, hy, hz⟩)]
  refine Finset.sum_congr rfl fun q hq => ?_
  rw [Finset.mem_range] at hq
  exact congrArg₂ (· * ·) (entry_cube f hx hy hq) (entry_table g hq hz)

/-- A product with a matrix whose rows do not fit has no result. -/
theorem matMul_eq_none [NonUnitalNonAssocSemiring R] {a b k k' n : ℕ} (f : ℕ → ℕ → ℕ → R)
    {u : Tensor R} (hu : u.shape = [k', n]) (h : k ≠ k') : (cube a b k f).matMul u = none := by
  rw [matMul, hu]
  exact if_neg fun hfits => h hfits.2

end Tensor

end MagpieTts.Library
