import MagpieTts.Library.BlockExecution
import Mathlib.Algebra.BigOperators.Group.Finset.Basic

/-!
# Strided batched matrix products

A batch of matrix products `C = A B` on flat memories. Matrices are stored by columns: entry
`(row, column)` of a matrix lies at `column * ld + row` from its start, and the matrices of a batch
start a fixed stride apart.

## Main definitions

* `StridedBatchedGemm`: sizes, leading dimensions and strides of a call.
* `StridedBatchedGemm.run`: the memory of `C` after the call.

## Main results

* `StridedBatchedGemm.run_apply`: an entry of `C` after the call.
-/

open Finset

namespace MagpieTts.Library

/-- The sizes of a batch of products `C = A B` of an `m × k` with a `k × n` matrix. -/
structure StridedBatchedGemm where
  m : ℕ
  n : ℕ
  k : ℕ
  lda : ℕ
  strideA : ℕ
  ldb : ℕ
  strideB : ℕ
  ldc : ℕ
  strideC : ℕ
  batchCount : ℕ
  deriving DecidableEq

namespace StridedBatchedGemm

variable {α β : Type*} [AddCommMonoid α] [Mul α] (g : StridedBatchedGemm)

/-- An entry of the product of one batch. -/
def entry (a b : ℕ → α) (batch column row : ℕ) : α :=
  ∑ p ∈ range g.k,
    a (batch * g.strideA + p * g.lda + row) * b (batch * g.strideB + column * g.ldb + p)

/-- The address of an entry of `C`. -/
def address (batch column row : ℕ) : ℕ := batch * g.strideC + (column * g.ldc + row)

/-- The stores of a call, converted to the elements of `C`. -/
def stores (a b : ℕ → α) (convert : α → β) : List (Store β) :=
  (List.range g.batchCount).flatMap fun batch =>
    (List.range g.n).flatMap fun column =>
      (List.range g.m).map fun row =>
        ⟨g.address batch column row, convert (g.entry a b batch column row)⟩

/-- The memory of `C` after a call. -/
def run (a b : ℕ → α) (convert : α → β) (c : ℕ → β) : ℕ → β :=
  storeAll c (g.stores a b convert)

/-- The matrices of `C` do not overlap. -/
def Packed : Prop := g.m ≤ g.ldc ∧ g.n * g.ldc ≤ g.strideC

variable {g}

theorem mem_stores {a b : ℕ → α} {convert : α → β} {s : Store β} :
    s ∈ g.stores a b convert ↔ ∃ batch < g.batchCount, ∃ column < g.n, ∃ row < g.m,
      s = ⟨g.address batch column row, convert (g.entry a b batch column row)⟩ := by
  simp only [stores, List.mem_flatMap, List.mem_map, List.mem_range, eq_comm]

/-- The entry that a packed call stores at an address. -/
theorem stores_value (hpacked : g.Packed) {a b : ℕ → α} {convert : α → β} {s : Store β}
    (hs : s ∈ g.stores a b convert) :
    s.value = convert (g.entry a b (s.address / g.strideC) (s.address % g.strideC / g.ldc)
      (s.address % g.strideC % g.ldc)) := by
  obtain ⟨batch, hbatch, column, hcolumn, row, hrow, rfl⟩ := mem_stores.mp hs
  have hrow' : row < g.ldc := Nat.lt_of_lt_of_le hrow hpacked.1
  have hcolumn' : column * g.ldc + row < g.strideC :=
    Nat.lt_of_lt_of_le (rowMajor_lt hcolumn hrow') hpacked.2
  simp only [address, rowMajor_div hcolumn', rowMajor_mod hcolumn', rowMajor_div hrow',
    rowMajor_mod hrow']

/-- **A batch of products.** The call leaves every entry of every product at its address. -/
theorem run_apply (hpacked : g.Packed) (a b : ℕ → α) (convert : α → β) (c : ℕ → β)
    {batch column row : ℕ} (hbatch : batch < g.batchCount) (hcolumn : column < g.n)
    (hrow : row < g.m) :
    g.run a b convert c (g.address batch column row) =
      convert (g.entry a b batch column row) := by
  have hmem : (⟨g.address batch column row, convert (g.entry a b batch column row)⟩ : Store β) ∈
      g.stores a b convert :=
    mem_stores.mpr ⟨batch, hbatch, column, hcolumn, row, hrow, rfl⟩
  have happly := storeAll_apply
    (f := fun address => convert (g.entry a b (address / g.strideC)
      (address % g.strideC / g.ldc) (address % g.strideC % g.ldc)))
    (fun s hs => stores_value hpacked hs) c (g.address batch column row)
  rw [run, happly, if_pos (List.mem_map.mpr ⟨_, hmem, rfl⟩)]
  exact (stores_value hpacked hmem).symm

end StridedBatchedGemm

end MagpieTts.Library
