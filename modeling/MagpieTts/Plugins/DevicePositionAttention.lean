import MagpieTts.Library.BlockExecution
import MagpieTts.Library.StridedGemm
import MagpieTts.Plugins.DevicePositionBank
import MagpieTts.Runtime.AlignmentContract
import Mathlib.Algebra.BigOperators.Ring.Finset

/-!
# Device-position attention

The self-attention of one decoder step over a key-value cache of fixed capacity, of which the
entries up to the position on the device are attended. Arithmetic is exact and the softmax of a row
is a parameter; it sees the row as the warp loads it, filled up with minus infinity.

## Main definitions

* `attentionOutput`: what the attention computes, head by head.
* `PlainLaunch`: `launch_main_self_attention_device_position`, the kernels without a bank.

## Main results

* `plainLaunch_output`: the plain kernels compute the attention.
-/

open Finset

namespace MagpieTts.Plugins

open MagpieTts.Library MagpieTts.Runtime

def kAttentionHeads : ℕ := 12

def kMainDecoderBatch : ℕ := 2

def kMainSelfAttentionHeadWidth : ℕ := 64

def kMainSelfAttentionBatchHeads : ℕ := kMainDecoderBatch * kAttentionHeads

/-- The arithmetic that the kernels share: the scale `0.125F` and the softmax of a row. -/
structure AttentionArithmetic (α : Type*) where
  scale : α
  softmax : List (Score α) → ℕ → α

/-- The tensors of one attention. -/
structure AttentionInputs (α : Type*) where
  query : ℕ → α
  key : ℕ → α
  value : ℕ → α
  keyMask : ℕ → Bool
  position : ℤ

variable {α : Type*} [CommSemiring α]

/-! ### What is computed -/

namespace AttentionArithmetic

variable (arithmetic : AttentionArithmetic α)

/-- Multiplication of a score with the scale, a positive number. -/
def scaleScore : Score α → Score α
  | .finite value => .finite (value * arithmetic.scale)
  | score => score

/-- The row of a warp that loads `count` elements. -/
def paddedRow (log2Elements count : ℕ) (row : ℕ → Score α) : List (Score α) :=
  (List.range (2 ^ log2Elements)).map fun element =>
    if element < count then row element else .negativeInfinity

/-- The width of the softmax that takes a row of `count` elements. -/
def log2Elements (count : ℕ) : ℕ := if count ≤ 256 then 8 else 9

/-- The score of a cache entry for a head of a batch element. -/
def attentionScore (inputs : AttentionInputs α) (row cacheIndex : ℕ) : Score α :=
  if inputs.keyMask (row / kAttentionHeads * kMainDecoderCacheCapacity + cacheIndex) then
    .finite ((∑ component ∈ range kMainSelfAttentionHeadWidth,
      inputs.query (row * kMainSelfAttentionHeadWidth + component) *
        inputs.key ((row * kMainDecoderCacheCapacity + cacheIndex) * kMainSelfAttentionHeadWidth +
          component)) * arithmetic.scale)
  else .negativeInfinity

def attentionProbability (inputs : AttentionInputs α) (activeK row cacheIndex : ℕ) : α :=
  arithmetic.softmax
    (paddedRow (log2Elements activeK) activeK (arithmetic.attentionScore inputs row)) cacheIndex

/-- The output of a head over the first `activeK` cache entries. -/
def attentionOutput (inputs : AttentionInputs α) (activeK row component : ℕ) : α :=
  ∑ cacheIndex ∈ range activeK,
    arithmetic.attentionProbability inputs activeK row cacheIndex *
      inputs.value ((row * kMainDecoderCacheCapacity + cacheIndex) * kMainSelfAttentionHeadWidth +
        component)

end AttentionArithmetic

/-! ### The plain kernels -/

/-- The buffers of the plain kernels. -/
structure PlainMemory (α : Type*) where
  scores : ℕ → Score α
  probabilities : ℕ → α
  output : ℕ → α

variable (arithmetic : AttentionArithmetic α) (inputs : AttentionInputs α)

/-- The positions that have a cache entry of their own. -/
def AttentionInputs.positionValid : Bool :=
  (kMainDecoderPrefillLength : ℤ) ≤ inputs.position &&
    inputs.position < kMainDecoderCacheCapacity

/-- The score that a thread of the first kernel stores. -/
def mainDevicePositionQkScore (row cacheIndex : ℕ) : Score α :=
  if ¬ inputs.positionValid then .nan
  else if inputs.position < cacheIndex ∨
      ¬ inputs.keyMask (row / kAttentionHeads * kMainDecoderCacheCapacity + cacheIndex) then
    .negativeInfinity
  else
    .finite ((List.range kMainSelfAttentionHeadWidth).foldl
      (fun accumulator headIndex =>
        inputs.query (row * kMainSelfAttentionHeadWidth + headIndex) *
            inputs.key ((row * kMainDecoderCacheCapacity + cacheIndex) *
              kMainSelfAttentionHeadWidth + headIndex) +
          accumulator) 0 * arithmetic.scale)

def mainDevicePositionQkKernel : List (List (Store (Score α))) :=
  (List.range kMainSelfAttentionBatchHeads).flatMap fun row =>
    gridStride 128 kMainDecoderCacheCapacity fun cacheIndex =>
      { address := row * kMainDecoderCacheCapacity + cacheIndex
        value := mainDevicePositionQkScore arithmetic inputs row cacheIndex }

/-- The stores of a warp that takes the softmax of a row of `count` elements. -/
def softmaxRow (log2Elements count : ℕ) (rowBase : ℕ) (scores : ℕ → Score α) :
    List (List (Store α)) :=
  (List.range 32).map fun lane =>
    ((stridedIndices lane 32 (2 ^ log2Elements)).filter (· < count)).map fun element =>
      { address := rowBase + element
        value := arithmetic.softmax
          (AttentionArithmetic.paddedRow log2Elements count fun e => scores (rowBase + e)) element }

/-- `main_device_position_softmax_kernel`. -/
def mainDevicePositionSoftmaxKernel (log2Elements : ℕ) (upperRange : Bool)
    (scores : ℕ → Score α) : List (List (Store α)) :=
  let elementCount := (inputs.position + 1).bmod (2 ^ 32)
  let inSelectedRange := if upperRange then 256 < elementCount else elementCount ≤ 256
  if ¬ inputs.positionValid ∨ ¬ inSelectedRange then []
  else
    (List.range kMainSelfAttentionBatchHeads).flatMap fun row =>
      softmaxRow arithmetic log2Elements elementCount.toNat (row * kMainDecoderCacheCapacity)
        scores

/-- The output that a thread of the last kernel stores. -/
def mainDevicePositionPvOutput (nan : α) (probabilities : ℕ → α) (row headIndex : ℕ) : α :=
  if ¬ inputs.positionValid then nan
  else
    (List.range (inputs.position + 1).toNat).foldl
      (fun accumulator cacheIndex =>
        probabilities (row * kMainDecoderCacheCapacity + cacheIndex) *
            inputs.value ((row * kMainDecoderCacheCapacity + cacheIndex) *
              kMainSelfAttentionHeadWidth + headIndex) +
          accumulator) 0

def mainDevicePositionPvKernel (nan : α) (probabilities : ℕ → α) : List (List (Store α)) :=
  (List.range kMainSelfAttentionBatchHeads).flatMap fun row =>
    (List.range kMainSelfAttentionHeadWidth).map fun headIndex =>
      [{ address := row * kMainSelfAttentionHeadWidth + headIndex
         value := mainDevicePositionPvOutput inputs nan probabilities row headIndex }]

/-- `launch_main_self_attention_device_position`: the buffers that its kernels, one after the other,
can leave. -/
def PlainLaunch (nan : α) (memory memory' : PlainMemory α) : Prop :=
  ∃ lower,
    PhaseOutcome (mainDevicePositionQkKernel arithmetic inputs) memory.scores memory'.scores ∧
    PhaseOutcome (mainDevicePositionSoftmaxKernel arithmetic inputs 8 false memory'.scores)
      memory.probabilities lower ∧
    PhaseOutcome (mainDevicePositionSoftmaxKernel arithmetic inputs 9 true memory'.scores)
      lower memory'.probabilities ∧
    PhaseOutcome (mainDevicePositionPvKernel inputs nan memory'.probabilities)
      memory.output memory'.output

/-! ### Kernels with a block for each row -/

/-- A loop that accumulates products is their sum. -/
theorem foldl_accumulate (f : ℕ → α) (n : ℕ) :
    (List.range n).foldl (fun accumulator i => f i + accumulator) 0 = ∑ i ∈ range n, f i := by
  induction n with
  | zero => rfl
  | succ n ih =>
    rw [List.range_succ, List.foldl_append, ih, sum_range_succ, add_comm (∑ i ∈ range n, f i)]
    rfl

omit [CommSemiring α] in
theorem mem_softmaxRow {log2Elements count rowBase : ℕ} {scores : ℕ → Score α} {s : Store α} :
    (∃ t ∈ softmaxRow arithmetic log2Elements count rowBase scores, s ∈ t) ↔
      ∃ element, element < 2 ^ log2Elements ∧ element < count ∧
        s = ⟨rowBase + element, arithmetic.softmax
          (AttentionArithmetic.paddedRow log2Elements count fun e => scores (rowBase + e))
          element⟩ := by
  constructor
  · rintro ⟨t, ht, hs⟩
    obtain ⟨lane, hlane, rfl⟩ := List.mem_map.mp ht
    obtain ⟨element, helement, rfl⟩ := List.mem_map.mp hs
    obtain ⟨hstrided, hcount⟩ := List.mem_filter.mp helement
    exact ⟨element, (exists_mem_stridedIndices_iff (by decide)).mp
      ⟨lane, List.mem_range.mp hlane, hstrided⟩, of_decide_eq_true hcount, rfl⟩
  · rintro ⟨element, hwidth, hcount, rfl⟩
    obtain ⟨lane, hlane, hmem⟩ :=
      (@exists_mem_stridedIndices_iff 32 (2 ^ log2Elements) element (by decide)).mpr hwidth
    exact ⟨_, List.mem_map.mpr ⟨lane, List.mem_range.mpr hlane, rfl⟩, List.mem_map.mpr
      ⟨element, List.mem_filter.mpr ⟨hmem, decide_eq_true hcount⟩, rfl⟩⟩

omit [CommSemiring α] in
/-- The softmax of the rows of a launch, for a row of at most the loaded width. -/
theorem softmaxRows_apply {log2Elements count width : ℕ} {scores : ℕ → Score α}
    {memory memory' : ℕ → α}
    (h : PhaseOutcome ((List.range kMainSelfAttentionBatchHeads).flatMap fun row =>
      softmaxRow arithmetic log2Elements count (row * width) scores) memory memory')
    (hwidth : count ≤ width) (hcount : count ≤ 2 ^ log2Elements) {row element : ℕ}
    (hrow : row < kMainSelfAttentionBatchHeads) (helement : element < count) :
    memory' (row * width + element) = arithmetic.softmax
      (AttentionArithmetic.paddedRow log2Elements count fun e => scores (row * width + e))
      element := by
  refine h.rowMajor_apply
    (f := fun row element => arithmetic.softmax
      (AttentionArithmetic.paddedRow log2Elements count fun e => scores (row * width + e)) element)
    (fun t ht s hs => ?_) (by omega) ?_
  · obtain ⟨r, hr, ht'⟩ := List.mem_flatMap.mp ht
    obtain ⟨e, -, he, rfl⟩ := (mem_softmaxRow arithmetic).mp ⟨t, ht', hs⟩
    exact ⟨r, e, by omega, rfl⟩
  · obtain ⟨t, ht, hs⟩ := (mem_softmaxRow arithmetic).mpr
      ⟨element, Nat.lt_of_lt_of_le helement hcount, helement, rfl⟩
    exact ⟨t, List.mem_flatMap.mpr ⟨row, List.mem_range.mpr hrow, ht⟩, _, hs, rfl⟩

/-! ### The plain kernels compute the attention -/

section Plain

variable {arithmetic inputs}

/-- The number of cache entries attended at a valid position. -/
def AttentionInputs.activeK (inputs : AttentionInputs α) : ℕ := (inputs.position + 1).toNat

omit [CommSemiring α] in
theorem AttentionInputs.activeK_spec (h : inputs.positionValid = true) :
    inputs.position = inputs.activeK - 1 ∧ 219 ≤ inputs.activeK ∧ inputs.activeK ≤ 467 := by
  simp only [positionValid, Bool.and_eq_true, decide_eq_true_eq] at h
  rw [kMainDecoderPrefillLength, kMainDecoderCacheCapacity] at h
  rw [activeK]
  omega

/-- The score that the first kernel leaves for an attended entry. -/
theorem mainDevicePositionQkKernel_apply (hvalid : inputs.positionValid = true)
    {scores scores' : ℕ → Score α}
    (h : PhaseOutcome (mainDevicePositionQkKernel arithmetic inputs) scores scores')
    {row cacheIndex : ℕ} (hrow : row < kMainSelfAttentionBatchHeads)
    (hindex : cacheIndex < inputs.activeK) :
    scores' (row * kMainDecoderCacheCapacity + cacheIndex) =
      arithmetic.attentionScore inputs row cacheIndex := by
  obtain ⟨hposition, hmin, hmax⟩ := AttentionInputs.activeK_spec hvalid
  have hcapacity : cacheIndex < kMainDecoderCacheCapacity := by
    rw [kMainDecoderCacheCapacity]
    omega
  have hstores : ∀ t ∈ mainDevicePositionQkKernel arithmetic inputs, ∀ s ∈ t,
      ∃ row column, column < kMainDecoderCacheCapacity ∧
        s = ⟨row * kMainDecoderCacheCapacity + column,
          mainDevicePositionQkScore arithmetic inputs row column⟩ := by
    intro t ht s hs
    obtain ⟨r, -, ht'⟩ := List.mem_flatMap.mp ht
    obtain ⟨c, hc, rfl⟩ := (mem_gridStride (by decide)).mp ⟨t, ht', hs⟩
    exact ⟨r, c, hc, rfl⟩
  have hmem : ∃ t ∈ mainDevicePositionQkKernel arithmetic inputs, ∃ s ∈ t,
      s.address = row * kMainDecoderCacheCapacity + cacheIndex := by
    obtain ⟨t, ht, hs⟩ := (mem_gridStride (by decide : 0 < 128)).mpr ⟨cacheIndex, hcapacity, rfl⟩
    exact ⟨t, List.mem_flatMap.mpr ⟨row, List.mem_range.mpr hrow, ht⟩, _, hs, rfl⟩
  rw [h.rowMajor_apply hstores hcapacity hmem]
  have hnot : ¬ inputs.position < cacheIndex := by omega
  simp only [mainDevicePositionQkScore, hvalid, hnot, not_true, if_false, false_or,
    foldl_accumulate, AttentionArithmetic.attentionScore]
  cases inputs.keyMask (row / kAttentionHeads * kMainDecoderCacheCapacity + cacheIndex) with
  | false => rfl
  | true => rfl

omit [CommSemiring α] in
theorem AttentionInputs.bmod_activeK (h : inputs.positionValid = true) :
    (inputs.position + 1).bmod (2 ^ 32) = inputs.activeK := by
  obtain ⟨hposition, -, hmax⟩ := activeK_spec h
  rw [hposition, Int.bmod_eq_of_le (by omega) (by omega)]
  omega

omit [CommSemiring α] in
/-- Of the two softmax launches the one for the number of active entries stores, and it leaves the
softmax of every row. -/
theorem plainSoftmax_apply (hvalid : inputs.positionValid = true) {scores : ℕ → Score α}
    {probabilities lower probabilities' : ℕ → α}
    (hlower : PhaseOutcome (mainDevicePositionSoftmaxKernel arithmetic inputs 8 false scores)
      probabilities lower)
    (hupper : PhaseOutcome (mainDevicePositionSoftmaxKernel arithmetic inputs 9 true scores)
      lower probabilities')
    {row cacheIndex : ℕ} (hrow : row < kMainSelfAttentionBatchHeads)
    (hindex : cacheIndex < inputs.activeK) :
    probabilities' (row * kMainDecoderCacheCapacity + cacheIndex) =
      arithmetic.softmax (AttentionArithmetic.paddedRow
        (AttentionArithmetic.log2Elements inputs.activeK) inputs.activeK
        fun e => scores (row * kMainDecoderCacheCapacity + e)) cacheIndex := by
  obtain ⟨-, hmin, hmax⟩ := AttentionInputs.activeK_spec hvalid
  simp only [mainDevicePositionSoftmaxKernel, AttentionInputs.bmod_activeK hvalid, hvalid,
    not_true, false_or, Int.toNat_natCast, Bool.false_eq_true, if_false, if_true] at hlower hupper
  have hcapacity : inputs.activeK ≤ kMainDecoderCacheCapacity := hmax
  by_cases hselected : inputs.activeK ≤ 256
  · rw [if_neg (by omega)] at hlower
    rw [if_pos (by omega)] at hupper
    rw [hupper.eq_of_nil, AttentionArithmetic.log2Elements, if_pos hselected]
    exact softmaxRows_apply arithmetic hlower hcapacity (by omega) hrow hindex
  · rw [if_neg (by omega)] at hupper
    rw [AttentionArithmetic.log2Elements, if_neg hselected]
    exact softmaxRows_apply arithmetic hupper hcapacity (by omega) hrow hindex

omit [CommSemiring α] in
/-- A row of equal scores has equal loaded rows. -/
theorem paddedRow_congr {log2Elements count : ℕ} {row row' : ℕ → Score α}
    (h : ∀ element < count, row element = row' element) :
    AttentionArithmetic.paddedRow log2Elements count row =
      AttentionArithmetic.paddedRow log2Elements count row' := by
  refine List.map_congr_left fun element _ => ?_
  split_ifs with hlt
  · exact h element hlt
  · rfl

/-- **The plain kernels.** At a position with a cache entry they leave the attention over the
entries up to it. -/
theorem plainLaunch_output (hvalid : inputs.positionValid = true) {nan : α}
    {memory memory' : PlainMemory α} (h : PlainLaunch arithmetic inputs nan memory memory')
    {row component : ℕ} (hrow : row < kMainSelfAttentionBatchHeads)
    (hcomponent : component < kMainSelfAttentionHeadWidth) :
    memory'.output (row * kMainSelfAttentionHeadWidth + component) =
      arithmetic.attentionOutput inputs inputs.activeK row component := by
  obtain ⟨lower, hscores, hlower, hupper, houtput⟩ := h
  have hstores : ∀ t ∈ mainDevicePositionPvKernel inputs nan memory'.probabilities, ∀ s ∈ t,
      ∃ row column, column < kMainSelfAttentionHeadWidth ∧
        s = ⟨row * kMainSelfAttentionHeadWidth + column,
          mainDevicePositionPvOutput inputs nan memory'.probabilities row column⟩ := by
    intro t ht s hs
    obtain ⟨r, -, ht'⟩ := List.mem_flatMap.mp ht
    obtain ⟨c, hc, rfl⟩ := List.mem_map.mp ht'
    exact ⟨r, c, List.mem_range.mp hc, List.mem_singleton.mp hs⟩
  have hmem : ∃ t ∈ mainDevicePositionPvKernel inputs nan memory'.probabilities, ∃ s ∈ t,
      s.address = row * kMainSelfAttentionHeadWidth + component :=
    ⟨_, List.mem_flatMap.mpr ⟨row, List.mem_range.mpr hrow, List.mem_map.mpr
      ⟨component, List.mem_range.mpr hcomponent, rfl⟩⟩, _, List.mem_singleton_self _, rfl⟩
  rw [houtput.rowMajor_apply hstores hcomponent hmem, mainDevicePositionPvOutput,
    if_neg (by simp [hvalid]), foldl_accumulate]
  refine sum_congr rfl fun cacheIndex hindex => ?_
  rw [plainSoftmax_apply hvalid hlower hupper hrow (mem_range.mp hindex),
    AttentionArithmetic.attentionProbability, paddedRow_congr fun e he =>
      mainDevicePositionQkKernel_apply hvalid hscores hrow he]

end Plain

end MagpieTts.Plugins
