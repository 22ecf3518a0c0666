import Mathlib.Data.List.Perm.Basic
import Mathlib.Logic.Function.Basic

/-!
# Stores of a thread block between two barriers

Between two barriers the threads of a block store into a common memory, each in its own program
order, and the hardware interleaves the stores freely. The end of such a phase is described here by
the stores of all threads in *some* order (`PhaseOutcome`), which covers every interleaving. A
phase whose stores to one address all carry the same value is free of races: every order of its
stores leaves the same memory (`PhaseOutcome.apply_eq`).

## Main definitions

* `Store`: one store of a thread; `storeAll`: a list of stores, performed in turn.
* `PhaseOutcome`: the memories a phase can leave; `AtomicOrOutcome`: the same for atomic operations.
* `stridedIndices`: the indices of a grid-stride loop; `gridStride`: the stores of its threads.

## Main results

* `storeAll_apply`: the memory after race-free stores.
* `PhaseOutcome.apply_eq`: every outcome of a race-free phase, address by address.
* `PhaseOutcome.gridStride_apply`, `PhaseOutcome.rowMajor_apply`: grid-stride loops and rows.
* `AtomicOrOutcome.apply_eq_zero_iff`: the words that atomic operations leave zero.
-/

namespace MagpieTts.Library

variable {β : Type*}

/-- A store of `value` at `address`. -/
structure Store (β : Type*) where
  address : ℕ
  value : β
  deriving DecidableEq

/-- The memory after the stores of `trace`, performed in turn. -/
def storeAll (memory : ℕ → β) (trace : List (Store β)) : ℕ → β :=
  trace.foldl (fun m s => Function.update m s.address s.value) memory

@[simp] theorem storeAll_nil (memory : ℕ → β) : storeAll memory [] = memory := rfl

@[simp] theorem storeAll_cons (memory : ℕ → β) (s : Store β) (trace : List (Store β)) :
    storeAll memory (s :: trace) = storeAll (Function.update memory s.address s.value) trace :=
  rfl

/-- Stores whose value is determined by their address leave that value at every address they hit,
and the old memory elsewhere. -/
theorem storeAll_apply {f : ℕ → β} {trace : List (Store β)}
    (hf : ∀ s ∈ trace, s.value = f s.address) (memory : ℕ → β) (a : ℕ) :
    storeAll memory trace a = if a ∈ trace.map Store.address then f a else memory a := by
  induction trace generalizing memory with
  | nil => simp
  | cons s trace ih =>
    rw [storeAll_cons, ih fun t ht => hf t (List.mem_cons_of_mem s ht), List.map_cons]
    by_cases hmem : a ∈ trace.map Store.address
    · rw [if_pos hmem, if_pos (List.mem_cons_of_mem _ hmem)]
    · rw [if_neg hmem]
      by_cases ha : a = s.address
      · subst ha
        rw [Function.update_self, if_pos List.mem_cons_self, hf s List.mem_cons_self]
      · rw [Function.update_of_ne ha, if_neg (by simp [ha, hmem])]

/-- A memory that the phase with the given stores of its threads can leave: the stores of all
threads performed in some order. -/
def PhaseOutcome (threads : List (List (Store β))) (memory memory' : ℕ → β) : Prop :=
  ∃ trace, trace.Perm threads.flatten ∧ memory' = storeAll memory trace

/-- The order that runs one thread after the other is an outcome of the phase. -/
theorem phaseOutcome_sequential (threads : List (List (Store β))) (memory : ℕ → β) :
    PhaseOutcome threads memory (storeAll memory threads.flatten) :=
  ⟨threads.flatten, List.Perm.refl _, rfl⟩

/-- **Race freedom.** When the stores of a phase to one address carry one value, every order of
them leaves the same memory. -/
theorem PhaseOutcome.apply_eq {threads : List (List (Store β))} {memory memory' : ℕ → β}
    (h : PhaseOutcome threads memory memory') {f : ℕ → β}
    (hf : ∀ t ∈ threads, ∀ s ∈ t, s.value = f s.address) (a : ℕ) :
    memory' a = if ∃ t ∈ threads, ∃ s ∈ t, s.address = a then f a else memory a := by
  obtain ⟨trace, hperm, rfl⟩ := h
  have hvalue : ∀ s ∈ trace, s.value = f s.address := by
    intro s hs
    obtain ⟨t, ht, hst⟩ := List.mem_flatten.mp (hperm.mem_iff.mp hs)
    exact hf t ht s hst
  have hhit : a ∈ trace.map Store.address ↔ ∃ t ∈ threads, ∃ s ∈ t, s.address = a := by
    rw [(hperm.map Store.address).mem_iff, List.mem_map]
    constructor
    · rintro ⟨s, hs, rfl⟩
      obtain ⟨t, ht, hst⟩ := List.mem_flatten.mp hs
      exact ⟨t, ht, s, hst, rfl⟩
    · rintro ⟨t, ht, s, hst, rfl⟩
      exact ⟨s, List.mem_flatten.mpr ⟨t, ht, hst⟩, rfl⟩
  rw [storeAll_apply hvalue]
  exact if_congr hhit rfl rfl

/-- The indices of the loop `for (i = start; i < limit; i += stride)`. -/
def stridedIndices (start stride limit : ℕ) : List ℕ :=
  List.range' start ((limit - start + stride - 1) / stride) stride

/-- The threads of a block, striding by their number, share out the indices below the limit. -/
theorem exists_mem_stridedIndices_iff {threads limit i : ℕ} (hthreads : 0 < threads) :
    (∃ thread < threads, i ∈ stridedIndices thread threads limit) ↔ i < limit := by
  simp only [stridedIndices, List.mem_range']
  constructor
  · rintro ⟨thread, -, k, hk, rfl⟩
    have hk' : threads * (k + 1) ≤ limit - thread + threads - 1 :=
      Nat.le_trans (Nat.mul_le_mul_left threads hk) (Nat.mul_div_le _ _)
    rw [Nat.mul_succ] at hk'
    omega
  · intro hi
    refine ⟨i % threads, Nat.mod_lt i hthreads, i / threads, ?_, (Nat.mod_add_div i threads).symm⟩
    rw [Nat.lt_iff_add_one_le, Nat.le_div_iff_mul_le hthreads, Nat.succ_mul]
    have := Nat.mod_add_div i threads
    rw [Nat.mul_comm threads] at this
    omega

/-- The threads of a launch that share out the indices below a limit, each storing where and what
`store` says of its indices. -/
def gridStride (threads limit : ℕ) (store : ℕ → Store β) : List (List (Store β)) :=
  (List.range threads).map fun thread => (stridedIndices thread threads limit).map store

theorem mem_gridStride {threads limit : ℕ} (hthreads : 0 < threads) {store : ℕ → Store β}
    {s : Store β} :
    (∃ t ∈ gridStride threads limit store, s ∈ t) ↔ ∃ i < limit, s = store i := by
  constructor
  · rintro ⟨t, ht, hs⟩
    obtain ⟨thread, hthread, rfl⟩ := List.mem_map.mp ht
    obtain ⟨i, hi, rfl⟩ := List.mem_map.mp hs
    exact ⟨i, (exists_mem_stridedIndices_iff hthreads).mp ⟨thread, List.mem_range.mp hthread, hi⟩,
      rfl⟩
  · rintro ⟨i, hi, rfl⟩
    obtain ⟨thread, hthread, hmem⟩ := (exists_mem_stridedIndices_iff hthreads).mpr hi
    exact ⟨_, List.mem_map.mpr ⟨thread, List.mem_range.mpr hthread, rfl⟩, List.mem_map.mpr
      ⟨i, hmem, rfl⟩⟩

/-- A grid-stride loop that stores a value at every index. -/
theorem PhaseOutcome.gridStride_apply {threads limit : ℕ} (hthreads : 0 < threads) {f : ℕ → β}
    {memory memory' : ℕ → β}
    (h : PhaseOutcome (gridStride threads limit fun i => ⟨i, f i⟩) memory memory') (a : ℕ) :
    memory' a = if a < limit then f a else memory a := by
  rw [h.apply_eq (f := f) fun t ht s hs => ?_]
  · refine if_congr ⟨?_, fun ha => ?_⟩ rfl rfl
    · rintro ⟨t, ht, s, hs, rfl⟩
      obtain ⟨i, hi, rfl⟩ := (mem_gridStride hthreads).mp ⟨t, ht, hs⟩
      exact hi
    · have hstore : ∃ t ∈ gridStride threads limit fun i => ⟨i, f i⟩, (⟨a, f a⟩ : Store β) ∈ t :=
        (mem_gridStride hthreads).mpr ⟨a, ha, rfl⟩
      obtain ⟨t, ht, hs⟩ := hstore
      exact ⟨t, ht, _, hs, rfl⟩
  · obtain ⟨i, -, rfl⟩ := (mem_gridStride hthreads).mp ⟨t, ht, hs⟩
    rfl

/-! ### Atomic operations -/

section AtomicOr

variable {width : ℕ}

/-- The memory after each of the stores has been joined to it by a bitwise or, in turn. -/
def atomicOrAll (memory : ℕ → BitVec width) (trace : List (Store (BitVec width))) :
    ℕ → BitVec width :=
  trace.foldl (fun m s => Function.update m s.address (m s.address ||| s.value)) memory

theorem atomicOrAll_apply_eq_zero_iff (memory : ℕ → BitVec width)
    (trace : List (Store (BitVec width))) (a : ℕ) :
    atomicOrAll memory trace a = BitVec.ofNat width 0 ↔
      memory a = BitVec.ofNat width 0 ∧
        ∀ s ∈ trace, s.address = a → s.value = BitVec.ofNat width 0 := by
  induction trace generalizing memory with
  | nil => simp [atomicOrAll]
  | cons s trace ih =>
    rw [atomicOrAll, List.foldl_cons, ← atomicOrAll, ih, List.forall_mem_cons]
    by_cases ha : s.address = a
    · subst ha
      rw [Function.update_self, BitVec.or_eq_zero_iff, and_assoc]
      simp only [true_implies]
    · rw [Function.update_of_ne (Ne.symm ha)]
      simp only [ha, false_implies, true_and]

/-- A memory that a phase of atomic operations can leave. -/
def AtomicOrOutcome (threads : List (List (Store (BitVec width))))
    (memory memory' : ℕ → BitVec width) : Prop :=
  ∃ trace, trace.Perm threads.flatten ∧ memory' = atomicOrAll memory trace

/-- A word that was zero remains so exactly when no thread joins a bit to it. -/
theorem AtomicOrOutcome.apply_eq_zero_iff {threads : List (List (Store (BitVec width)))}
    {memory memory' : ℕ → BitVec width} (h : AtomicOrOutcome threads memory memory') (a : ℕ) :
    memory' a = BitVec.ofNat width 0 ↔
      memory a = BitVec.ofNat width 0 ∧
        ∀ t ∈ threads, ∀ s ∈ t, s.address = a → s.value = BitVec.ofNat width 0 := by
  obtain ⟨trace, hperm, rfl⟩ := h
  rw [atomicOrAll_apply_eq_zero_iff]
  refine and_congr_right fun _ => ⟨fun hzero t ht s hs => ?_, fun hzero s hs => ?_⟩
  · exact hzero s (hperm.mem_iff.mpr (List.mem_flatten.mpr ⟨t, ht, hs⟩))
  · obtain ⟨t, ht, hst⟩ := List.mem_flatten.mp (hperm.mem_iff.mp hs)
    exact hzero t ht s hst

end AtomicOr

/-! ### Row-major layouts -/

/-- The column of an address in a row-major layout. -/
theorem rowMajor_mod {width i j : ℕ} (hj : j < width) : (i * width + j) % width = j := by
  rw [Nat.mul_add_mod_self_right, Nat.mod_eq_of_lt hj]

/-- The row of an address in a row-major layout. -/
theorem rowMajor_div {width i j : ℕ} (hj : j < width) : (i * width + j) / width = i := by
  rw [Nat.add_comm, Nat.add_mul_div_right _ _ (Nat.zero_lt_of_lt hj), Nat.div_eq_of_lt hj,
    Nat.zero_add]

/-- Addresses of a row-major layout stay below its size. -/
theorem rowMajor_lt {rows width i j : ℕ} (hi : i < rows) (hj : j < width) :
    i * width + j < rows * width :=
  Nat.lt_of_lt_of_le (by rw [Nat.succ_mul]; omega) (Nat.mul_le_mul_right width hi)

/-- A phase without stores leaves the memory as it was. -/
theorem PhaseOutcome.eq_of_nil {memory memory' : ℕ → β} (h : PhaseOutcome [] memory memory') :
    memory' = memory := by
  obtain ⟨trace, hperm, rfl⟩ := h
  rw [List.flatten_nil, List.perm_nil] at hperm
  rw [hperm, storeAll_nil]

/-- What a launch leaves at an address of a row-major layout, when some thread stores there and
every store carries the value of its row and column. -/
theorem PhaseOutcome.rowMajor_apply {threads : List (List (Store β))} {memory memory' : ℕ → β}
    (h : PhaseOutcome threads memory memory') {width : ℕ} {f : ℕ → ℕ → β}
    (hf : ∀ t ∈ threads, ∀ s ∈ t, ∃ row column, column < width ∧
      s = ⟨row * width + column, f row column⟩) {row column : ℕ} (hcolumn : column < width)
    (hmem : ∃ t ∈ threads, ∃ s ∈ t, s.address = row * width + column) :
    memory' (row * width + column) = f row column := by
  rw [h.apply_eq (f := fun a => f (a / width) (a % width)) fun t ht s hs => ?_, if_pos hmem,
    rowMajor_div hcolumn, rowMajor_mod hcolumn]
  obtain ⟨r, c, hc, rfl⟩ := hf t ht s hs
  simp only [rowMajor_div hc, rowMajor_mod hc]

end MagpieTts.Library
