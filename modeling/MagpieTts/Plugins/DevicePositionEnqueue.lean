import MagpieTts.Plugins.DevicePositionScan

/-!
# Enqueue of the device-position bank

One enqueue of the bank: the position and the key mask are staged, the update chooses the variants
for the number of active cache entries, and the graph runs through the staging, product, masking and
softmax kernels on compact buffers whose layout depends on that number. Keys and values share one
compact buffer.

## Main definitions

* `BankMemory`: the device memory of a bank, its graph nodes included.
* `BankPhase.Step`: the memories that a kernel of the enqueue can leave.
* `BankEnqueue`: the kernels of an enqueue, one after the other.

## Main results

* `bankEnqueue_output`: a successful enqueue computes the attention.
* `bankEnqueue_of_failure`: after a failed update the other kernels touch nothing.
-/

open Finset

namespace MagpieTts.Plugins

open MagpieTts.Library MagpieTts.Runtime

/-- `MainDevicePositionDynamicInputs`. -/
structure DynamicInputs where
  position : ℤ
  keyMask : ℕ → Bool

/-- The device memory of a bank: the staged inputs, the graph nodes, the status word, the three
parts of the workspace and the output. -/
structure BankMemory (α : Type*) where
  dynamic : DynamicInputs
  nodes : BankNodes
  statusOutput : Word
  compact : ℕ → α
  scores : ℕ → Score α
  probabilities : ℕ → α
  output : ℕ → α

/-- What one enqueue reads, and what the CUDA calls of its update answer. -/
structure EnqueueInputs (α : Type*) extends AttentionInputs α where
  statusInput : Word
  answer : BankCall → CudaError

/-- The number of active entries as the kernels compute it, in an `std::int32_t`. -/
def DynamicInputs.activeK (dynamic : DynamicInputs) : ℤ := (dynamic.position + 1).bmod (2 ^ 32)

/-- The number of active entries that a kernel of the graph works on, if it works at all. -/
def BankMemory.guardedK {α : Type*} (memory : BankMemory α) : Option ℕ :=
  if memory.statusOutput ≠ 0#32 then none
  else if memory.dynamic.activeK < kMainDevicePositionMinimumK ∨
      (kMainDevicePositionMaximumK : ℤ) < memory.dynamic.activeK then none
  else some memory.dynamic.activeK.toNat

variable {α : Type*}

/-! ### The kernels -/

/-- The threads of a launch of 96 blocks of 256 threads. -/
def stagingThreads : ℕ := 96 * 256

def stageMainDevicePositionDynamicInputs (inputs : EnqueueInputs α) : List (List (Store Bool)) :=
  (List.range 1024).map fun index =>
    if index < kMainDecoderBatch * kMainDecoderCacheCapacity then [⟨index, inputs.keyMask index⟩]
    else []

/-- The key that a thread copies to an address of the transposed compact buffer. -/
def keySource (activeK index : ℕ) : ℕ :=
  let cacheIndex := index % activeK
  let component := index / activeK % kMainSelfAttentionHeadWidth
  let row := index / (activeK * kMainSelfAttentionHeadWidth)
  (row * kMainDecoderCacheCapacity + cacheIndex) * kMainSelfAttentionHeadWidth + component

/-- The value that a thread copies to an address of the compact buffer. -/
def valueSource (activeK index : ℕ) : ℕ :=
  let component := index % kMainSelfAttentionHeadWidth
  let cacheIndex := index / kMainSelfAttentionHeadWidth % activeK
  let row := index / (activeK * kMainSelfAttentionHeadWidth)
  (row * kMainDecoderCacheCapacity + cacheIndex) * kMainSelfAttentionHeadWidth + component

def stageMainDevicePositionKey (fixedKey : ℕ → α) (memory : BankMemory α) :
    List (List (Store α)) :=
  match memory.guardedK with
  | none => []
  | some activeK =>
    gridStride stagingThreads
      (kMainSelfAttentionBatchHeads * kMainSelfAttentionHeadWidth * activeK)
      fun index => ⟨index, fixedKey (keySource activeK index)⟩

def stageMainDevicePositionValue (fixedValue : ℕ → α) (memory : BankMemory α) :
    List (List (Store α)) :=
  match memory.guardedK with
  | none => []
  | some activeK =>
    gridStride stagingThreads
      (kMainSelfAttentionBatchHeads * activeK * kMainSelfAttentionHeadWidth)
      fun index => ⟨index, fixedValue (valueSource activeK index)⟩

variable (arithmetic : AttentionArithmetic α)

/-- Softmax of the compact rows. -/
def softmaxMainDevicePositionCompact (log2Elements : ℕ) (upperRange : Bool)
    (memory : BankMemory α) : List (List (Store α)) :=
  match memory.guardedK with
  | none => []
  | some elementCount =>
    let selected := if upperRange then 256 < elementCount else elementCount ≤ 256
    if ¬ selected then []
    else
      (List.range kMainSelfAttentionBatchHeads).flatMap fun row =>
        softmaxRow arithmetic log2Elements elementCount (row * elementCount) memory.scores

variable [CommSemiring α]

/-- The masked and scaled score at an address of the compact scores. -/
def maskedScore (keyMask : ℕ → Bool) (scores : ℕ → Score α) (activeK index : ℕ) : Score α :=
  let cacheIndex := index % activeK
  let row := index / activeK
  let batch := row / kAttentionHeads
  if ¬ keyMask (batch * kMainDecoderCacheCapacity + cacheIndex) then .negativeInfinity
  else arithmetic.scaleScore (scores index)

def scaleMaskMainDevicePositionScores (memory : BankMemory α) : List (List (Store (Score α))) :=
  match memory.guardedK with
  | none => []
  | some activeK =>
    gridStride stagingThreads (kMainSelfAttentionBatchHeads * activeK) fun index =>
      ⟨index, maskedScore arithmetic memory.dynamic.keyMask memory.scores activeK index⟩

/-! ### The graph -/

section Graph

variable {cublas : Cublas} (bank : MainDevicePositionBank cublas) (layerIndex : Word)

/-- The products that the enabled variants of an operation compute, node by node. -/
def enabledProducts (operation : BankOperation) (nodes : BankNodes) : List StridedBatchedGemm :=
  (List.range operation.classes).filterMap fun classIndex =>
    if (nodes operation classIndex).enabled then
      bank.execute operation classIndex (nodes operation classIndex)
    else none

/-- The update of an enqueue. -/
def layerUpdate (inputs : EnqueueInputs α) (position : ℤ) : LayerUpdate where
  position := position
  layerIndex := layerIndex
  launches := bank.launch
  answer := inputs.answer

/-- The kernels of an enqueue, in the order of the stream. -/
inductive BankPhase where
  | stageDynamicInputs
  | update
  | stageKey
  | qk
  | scaleMask
  | softmaxLower
  | softmaxUpper
  | stageValue
  | pv
  deriving DecidableEq

def bankPhases : List BankPhase :=
  [.stageDynamicInputs, .update, .stageKey, .qk, .scaleMask, .softmaxLower, .softmaxUpper,
    .stageValue, .pv]

/-- The memories that a phase can leave. -/
def BankPhase.Step (inputs : EnqueueInputs α) :
    BankPhase → BankMemory α → BankMemory α → Prop
  | .stageDynamicInputs, memory, memory' =>
    ∃ keyMask, PhaseOutcome (stageMainDevicePositionDynamicInputs inputs) memory.dynamic.keyMask
        keyMask ∧
      memory' = { memory with dynamic := ⟨inputs.position, keyMask⟩ }
  | .update, memory, memory' =>
    let updated :=
      (layerUpdate bank layerIndex inputs memory.dynamic.position).updateMainDevicePositionBank
      memory.nodes inputs.statusInput
    memory' = { memory with nodes := updated.1, statusOutput := updated.2 }
  | .stageKey, memory, memory' =>
    ∃ compact, PhaseOutcome (stageMainDevicePositionKey inputs.key memory) memory.compact compact ∧
      memory' = { memory with compact }
  | .qk, memory, memory' =>
    memory' = { memory with
      scores := (enabledProducts bank .qk memory.nodes).foldl
        (fun scores gemm => gemm.run memory.compact inputs.query .finite scores) memory.scores }
  | .scaleMask, memory, memory' =>
    ∃ scores, PhaseOutcome (scaleMaskMainDevicePositionScores arithmetic memory) memory.scores
        scores ∧
      memory' = { memory with scores }
  | .softmaxLower, memory, memory' =>
    ∃ probabilities, PhaseOutcome (softmaxMainDevicePositionCompact arithmetic 8 false memory)
        memory.probabilities probabilities ∧
      memory' = { memory with probabilities }
  | .softmaxUpper, memory, memory' =>
    ∃ probabilities, PhaseOutcome (softmaxMainDevicePositionCompact arithmetic 9 true memory)
        memory.probabilities probabilities ∧
      memory' = { memory with probabilities }
  | .stageValue, memory, memory' =>
    ∃ compact, PhaseOutcome (stageMainDevicePositionValue inputs.value memory) memory.compact
        compact ∧
      memory' = { memory with compact }
  | .pv, memory, memory' =>
    memory' = { memory with
      output := (enabledProducts bank .pv memory.nodes).foldl
        (fun output gemm => gemm.run memory.compact memory.probabilities id output)
        memory.output }

/-- The memories that a list of phases can leave. -/
def RunsPhases (inputs : EnqueueInputs α) : List BankPhase → BankMemory α → BankMemory α → Prop
  | [], memory, memory' => memory' = memory
  | phase :: phases, memory, memory' =>
    ∃ next, phase.Step arithmetic bank layerIndex inputs memory next ∧
      RunsPhases inputs phases next memory'

/-- The memories that an enqueue can leave. -/
def BankEnqueue (inputs : EnqueueInputs α) (memory memory' : BankMemory α) : Prop :=
  RunsPhases arithmetic bank layerIndex inputs bankPhases memory memory'

end Graph

/-! ### Layout of the compact buffers -/

section Layout

variable {activeK row cacheIndex component : ℕ}

/-- The key of a component of a cache entry lies at its transposed compact address. -/
theorem keySource_address (hindex : cacheIndex < activeK)
    (hcomponent : component < kMainSelfAttentionHeadWidth) :
    keySource activeK
        (row * (kMainSelfAttentionHeadWidth * activeK) + component * activeK + cacheIndex) =
      (row * kMainDecoderCacheCapacity + cacheIndex) * kMainSelfAttentionHeadWidth + component := by
  have hsplit : row * (kMainSelfAttentionHeadWidth * activeK) + component * activeK + cacheIndex =
      (row * kMainSelfAttentionHeadWidth + component) * activeK + cacheIndex := by
    rw [Nat.add_mul, Nat.mul_assoc]
  rw [keySource, hsplit, ← Nat.div_div_eq_div_mul, rowMajor_mod hindex, rowMajor_div hindex,
    rowMajor_mod hcomponent, rowMajor_div hcomponent]

/-- The value of a component of a cache entry lies at its compact address. -/
theorem valueSource_address (hindex : cacheIndex < activeK)
    (hcomponent : component < kMainSelfAttentionHeadWidth) :
    valueSource activeK
        (row * (activeK * kMainSelfAttentionHeadWidth) +
          cacheIndex * kMainSelfAttentionHeadWidth + component) =
      (row * kMainDecoderCacheCapacity + cacheIndex) * kMainSelfAttentionHeadWidth + component := by
  have hsplit : row * (activeK * kMainSelfAttentionHeadWidth) +
        cacheIndex * kMainSelfAttentionHeadWidth + component =
      (row * activeK + cacheIndex) * kMainSelfAttentionHeadWidth + component := by
    rw [Nat.add_mul, Nat.mul_assoc]
  rw [valueSource, hsplit, Nat.mul_comm activeK, ← Nat.div_div_eq_div_mul, rowMajor_mod hcomponent,
    rowMajor_div hcomponent, rowMajor_mod hindex, rowMajor_div hindex]

/-- The address of a key in the compact buffer. -/
theorem keyAddress_lt (hrow : row < kMainSelfAttentionBatchHeads) (hindex : cacheIndex < activeK)
    (hcomponent : component < kMainSelfAttentionHeadWidth) :
    row * (kMainSelfAttentionHeadWidth * activeK) + component * activeK + cacheIndex <
      kMainSelfAttentionBatchHeads * kMainSelfAttentionHeadWidth * activeK := by
  rw [Nat.add_assoc, Nat.mul_assoc kMainSelfAttentionBatchHeads]
  exact rowMajor_lt hrow (rowMajor_lt hcomponent hindex)

/-- The address of a value in the compact buffer. -/
theorem valueAddress_lt (hrow : row < kMainSelfAttentionBatchHeads) (hindex : cacheIndex < activeK)
    (hcomponent : component < kMainSelfAttentionHeadWidth) :
    row * (activeK * kMainSelfAttentionHeadWidth) + cacheIndex * kMainSelfAttentionHeadWidth +
        component <
      kMainSelfAttentionBatchHeads * activeK * kMainSelfAttentionHeadWidth := by
  rw [Nat.add_assoc, Nat.mul_assoc kMainSelfAttentionBatchHeads]
  exact rowMajor_lt hrow (rowMajor_lt hindex hcomponent)

end Layout

/-! ### A successful enqueue, kernel by kernel -/

section Success

variable {cublas : Cublas} {bank : MainDevicePositionBank cublas} {layerIndex : Word}
variable {arithmetic} {inputs : EnqueueInputs α} {memory memory' : BankMemory α}

omit [CommSemiring α] in
/-- The kernels of the graph work on the entries up to the position. -/
theorem guardedK_of_valid (hvalid : inputs.positionValid = true)
    (hposition : memory.dynamic.position = inputs.position) (hstatus : memory.statusOutput = 0#32) :
    memory.guardedK = some inputs.activeK := by
  obtain ⟨-, hmin, hmax⟩ := AttentionInputs.activeK_spec hvalid
  have hactive : memory.dynamic.activeK = inputs.activeK := by
    rw [DynamicInputs.activeK, hposition, AttentionInputs.bmod_activeK hvalid]
  have hmin' : (kMainDevicePositionMinimumK : ℤ) ≤ inputs.activeK := Int.ofNat_le.mpr hmin
  have hmax' : (inputs.activeK : ℤ) ≤ kMainDevicePositionMaximumK := Int.ofNat_le.mpr hmax
  rw [BankMemory.guardedK, if_neg (not_not.mpr hstatus), hactive, if_neg (by omega),
    Int.toNat_natCast]

omit [CommSemiring α] in
theorem stageKey_apply (hguard : memory.guardedK = some inputs.activeK) {compact : ℕ → α}
    (h : PhaseOutcome (stageMainDevicePositionKey inputs.key memory) memory.compact compact)
    {row cacheIndex component : ℕ} (hrow : row < kMainSelfAttentionBatchHeads)
    (hindex : cacheIndex < inputs.activeK) (hcomponent : component < kMainSelfAttentionHeadWidth) :
    compact (row * (kMainSelfAttentionHeadWidth * inputs.activeK) + component * inputs.activeK +
        cacheIndex) =
      inputs.key ((row * kMainDecoderCacheCapacity + cacheIndex) * kMainSelfAttentionHeadWidth +
        component) := by
  simp only [stageMainDevicePositionKey, hguard] at h
  rw [h.gridStride_apply (by decide), if_pos (keyAddress_lt hrow hindex hcomponent),
    keySource_address hindex hcomponent]

omit [CommSemiring α] in
theorem stageValue_apply (hguard : memory.guardedK = some inputs.activeK) {compact : ℕ → α}
    (h : PhaseOutcome (stageMainDevicePositionValue inputs.value memory) memory.compact compact)
    {row cacheIndex component : ℕ} (hrow : row < kMainSelfAttentionBatchHeads)
    (hindex : cacheIndex < inputs.activeK) (hcomponent : component < kMainSelfAttentionHeadWidth) :
    compact (row * (inputs.activeK * kMainSelfAttentionHeadWidth) +
        cacheIndex * kMainSelfAttentionHeadWidth + component) =
      inputs.value ((row * kMainDecoderCacheCapacity + cacheIndex) * kMainSelfAttentionHeadWidth +
        component) := by
  simp only [stageMainDevicePositionValue, hguard] at h
  rw [h.gridStride_apply (by decide), if_pos (valueAddress_lt hrow hindex hcomponent),
    valueSource_address hindex hcomponent]

omit [CommSemiring α] in
theorem stageDynamicInputs_apply {keyMask keyMask' : ℕ → Bool}
    (h : PhaseOutcome (stageMainDevicePositionDynamicInputs inputs) keyMask keyMask') {index : ℕ}
    (hindex : index < kMainDecoderBatch * kMainDecoderCacheCapacity) :
    keyMask' index = inputs.keyMask index := by
  rw [h.apply_eq (f := inputs.keyMask) fun t ht s hs => ?_, if_pos]
  · refine ⟨[⟨index, inputs.keyMask index⟩], List.mem_map.mpr ⟨index, List.mem_range.mpr ?_, ?_⟩, _,
      List.mem_singleton_self _, rfl⟩
    · exact Nat.lt_of_lt_of_le hindex (by decide)
    · exact if_pos hindex
  · obtain ⟨i, -, rfl⟩ := List.mem_map.mp ht
    split_ifs at hs with hi
    · rw [List.mem_singleton.mp hs]
    · exact absurd hs List.not_mem_nil

/-- A list of which one index has an image. -/
theorem filterMap_range_eq_singleton {β : Type*} {f : ℕ → Option β} {n selected : ℕ} {b : β}
    (hselected : selected < n) (hb : f selected = some b)
    (hf : ∀ c < n, c ≠ selected → f c = none) : (List.range n).filterMap f = [b] := by
  induction n with
  | zero => omega
  | succ n ih =>
    rw [List.range_succ, List.filterMap_append]
    obtain hlt | rfl := Nat.lt_succ_iff_lt_or_eq.mp hselected
    · have hnone : f n = none := hf n (Nat.lt_succ_self n) (Nat.ne_of_gt hlt)
      rw [ih hlt fun c hc => hf c (Nat.lt_succ_of_lt hc)]
      simp [hnone]
    · have hnil : (List.range selected).filterMap f = [] :=
        List.filterMap_eq_nil_iff.mpr fun c hc =>
          hf c (Nat.lt_succ_of_lt (List.mem_range.mp hc)) (Nat.ne_of_lt (List.mem_range.mp hc))
      simp [hnil, hb]

/-- After a successful update the variants of an operation compute its product for the active
entries. -/
theorem enabledProducts_of_success (hcublas : cublas.CapturesProducts) {update : LayerUpdate}
    (hlaunches : update.launches = bank.launch) (hfailure : update.failure = none) {activeK : ℕ}
    (hactive : update.activeK = activeK) (nodes : BankNodes) (operation : BankOperation) :
    enabledProducts bank operation (update.updateMainDevicePositionBank nodes 0#32).1 =
      [operation.gemm activeK] := by
  have hvalid := LayerUpdate.valid_of_failure_eq_none hfailure
  simp only [LayerUpdate.valid, hactive, Bool.and_eq_true, decide_eq_true_eq] at hvalid
  obtain ⟨index, rfl⟩ := Nat.exists_eq_add_of_le (Int.ofNat_le.mp hvalid.1)
  have hindex : index < kMainDevicePositionKCount := by
    have hmax := Int.ofNat_le.mp hvalid.2
    rw [kMainDevicePositionKCount]
    omega
  obtain ⟨selected, hselected, hclass, henabled, node, hnode⟩ :=
    LayerUpdate.updateMainDevicePositionBank_nodes hfailure nodes operation
  have hlaunch : update.launch operation = bank.launch operation index := by
    rw [LayerUpdate.launch, hlaunches, hactive]
    refine congrArg (bank.launch operation) ?_
    omega
  rw [hlaunch] at hclass hnode
  refine filterMap_range_eq_singleton hselected ?_ fun c hc hne => ?_
  · rw [if_pos ((henabled selected hselected).mpr rfl), hnode]
    exact bank.execute_launchedNode hcublas hindex hclass node
  · exact if_neg fun h => hne ((henabled c hc).mp h)

omit [CommSemiring α] in
/-- The update of an enqueue at a valid position, with every CUDA call a success, fails at
nothing. -/
theorem layerUpdate_failure (hvalid : inputs.positionValid = true)
    (hanswer : ∀ call, inputs.answer call = cudaSuccess) :
    (layerUpdate bank layerIndex inputs inputs.position).failure = none ∧
      (layerUpdate bank layerIndex inputs inputs.position).activeK = inputs.activeK := by
  obtain ⟨hactive, hmin, hmax⟩ := AttentionInputs.activeK_spec hvalid
  have hactiveK : (layerUpdate bank layerIndex inputs inputs.position).activeK =
      inputs.activeK := by
    simp only [LayerUpdate.activeK, layerUpdate]
    omega
  refine ⟨LayerUpdate.failure_eq_none_of_success ?_ (fun operation => ?_) hanswer, hactiveK⟩
  · rw [LayerUpdate.valid, hactiveK, Bool.and_eq_true, decide_eq_true_eq, decide_eq_true_eq]
    exact ⟨Int.ofNat_le.mpr hmin, Int.ofNat_le.mpr hmax⟩
  · refine bank.launch_accepted ?_
    rw [hactiveK]
    simp only [kMainDevicePositionKCount, kMainDevicePositionMinimumK,
      kMainDevicePositionMaximumK, kMainDecoderPrefillLength, kMainDecoderCacheCapacity]
    omega

/-- The product of the queries with the staged keys. -/
theorem qkGemm_apply {activeK : ℕ} {compact query key : ℕ → α} (scores : ℕ → Score α)
    (hcompact : ∀ {row cacheIndex component : ℕ}, row < kMainSelfAttentionBatchHeads →
      cacheIndex < activeK → component < kMainSelfAttentionHeadWidth →
      compact (row * (kMainSelfAttentionHeadWidth * activeK) + component * activeK + cacheIndex) =
        key ((row * kMainDecoderCacheCapacity + cacheIndex) * kMainSelfAttentionHeadWidth +
          component))
    {row cacheIndex : ℕ} (hrow : row < kMainSelfAttentionBatchHeads)
    (hindex : cacheIndex < activeK) :
    (qkGemm activeK).run compact query Score.finite scores (row * activeK + cacheIndex) =
      .finite (∑ component ∈ range kMainSelfAttentionHeadWidth,
        query (row * kMainSelfAttentionHeadWidth + component) *
          key ((row * kMainDecoderCacheCapacity + cacheIndex) * kMainSelfAttentionHeadWidth +
            component)) := by
  have hpacked : (qkGemm activeK).Packed := ⟨Nat.le_refl _, by rw [qkGemm, Nat.one_mul]⟩
  have hrun := StridedBatchedGemm.run_apply hpacked compact query Score.finite scores hrow
    Nat.one_pos hindex
  rw [StridedBatchedGemm.address, Nat.zero_mul, Nat.zero_add] at hrun
  refine hrun.trans (congrArg Score.finite (sum_congr rfl fun component hcomponent => ?_))
  rw [mul_comm, Nat.zero_mul, Nat.add_zero]
  exact congrArg _ (hcompact hrow hindex (mem_range.mp hcomponent))

/-- The product of the probabilities with the staged values. -/
theorem pvGemm_apply {activeK : ℕ} {compact probabilities value : ℕ → α} (output : ℕ → α)
    (hcompact : ∀ {row cacheIndex component : ℕ}, row < kMainSelfAttentionBatchHeads →
      cacheIndex < activeK → component < kMainSelfAttentionHeadWidth →
      compact (row * (activeK * kMainSelfAttentionHeadWidth) +
          cacheIndex * kMainSelfAttentionHeadWidth + component) =
        value ((row * kMainDecoderCacheCapacity + cacheIndex) * kMainSelfAttentionHeadWidth +
          component))
    {row component : ℕ} (hrow : row < kMainSelfAttentionBatchHeads)
    (hcomponent : component < kMainSelfAttentionHeadWidth) :
    (pvGemm activeK).run compact probabilities id output
        (row * kMainSelfAttentionHeadWidth + component) =
      ∑ cacheIndex ∈ range activeK, probabilities (row * activeK + cacheIndex) *
        value ((row * kMainDecoderCacheCapacity + cacheIndex) * kMainSelfAttentionHeadWidth +
          component) := by
  have hpacked : (pvGemm activeK).Packed := ⟨Nat.le_refl _, by rw [pvGemm, Nat.one_mul]⟩
  have hrun := StridedBatchedGemm.run_apply hpacked compact probabilities id output hrow
    Nat.one_pos hcomponent
  rw [StridedBatchedGemm.address, Nat.zero_mul, Nat.zero_add] at hrun
  rw [id_eq, StridedBatchedGemm.entry] at hrun
  refine hrun.trans (sum_congr rfl fun cacheIndex hindex => ?_)
  rw [mul_comm, Nat.zero_mul, Nat.add_zero]
  exact congrArg _ (hcompact hrow (mem_range.mp hindex) hcomponent)

/-- The masking kernel leaves the scores of the attention. -/
theorem scaleMask_apply (hguard : memory.guardedK = some inputs.activeK)
    (hactive : inputs.activeK ≤ kMainDecoderCacheCapacity)
    (hmask : ∀ index < kMainDecoderBatch * kMainDecoderCacheCapacity,
      memory.dynamic.keyMask index = inputs.keyMask index)
    (hscores : ∀ {row cacheIndex : ℕ}, row < kMainSelfAttentionBatchHeads →
      cacheIndex < inputs.activeK →
      memory.scores (row * inputs.activeK + cacheIndex) =
        .finite (∑ component ∈ range kMainSelfAttentionHeadWidth,
          inputs.query (row * kMainSelfAttentionHeadWidth + component) *
            inputs.key ((row * kMainDecoderCacheCapacity + cacheIndex) *
              kMainSelfAttentionHeadWidth + component)))
    {scores : ℕ → Score α}
    (h : PhaseOutcome (scaleMaskMainDevicePositionScores arithmetic memory) memory.scores scores)
    {row cacheIndex : ℕ} (hrow : row < kMainSelfAttentionBatchHeads)
    (hindex : cacheIndex < inputs.activeK) :
    scores (row * inputs.activeK + cacheIndex) =
      arithmetic.attentionScore inputs.toAttentionInputs row cacheIndex := by
  have hbatch : row / kAttentionHeads < kMainDecoderBatch :=
    Nat.div_lt_of_lt_mul (by rwa [Nat.mul_comm])
  simp only [scaleMaskMainDevicePositionScores, hguard] at h
  rw [h.gridStride_apply (by decide), if_pos (rowMajor_lt hrow hindex), maskedScore,
    rowMajor_mod hindex, rowMajor_div hindex,
    hmask _ (rowMajor_lt hbatch (Nat.lt_of_lt_of_le hindex hactive)), hscores hrow hindex,
    AttentionArithmetic.attentionScore]
  cases inputs.keyMask (row / kAttentionHeads * kMainDecoderCacheCapacity + cacheIndex) with
  | false => rfl
  | true => rfl

omit [CommSemiring α] in
/-- Of the two softmax launches the one for the number of active entries stores. -/
theorem compactSoftmax_apply {next : BankMemory α} (hguard : memory.guardedK = some inputs.activeK)
    (hactive : inputs.activeK ≤ kMainDecoderCacheCapacity)
    {lower probabilities : ℕ → α}
    (hlower : PhaseOutcome (softmaxMainDevicePositionCompact arithmetic 8 false memory)
      memory.probabilities lower)
    (hnext : next.guardedK = some inputs.activeK ∧ next.scores = memory.scores ∧
      next.probabilities = lower)
    (hupper : PhaseOutcome (softmaxMainDevicePositionCompact arithmetic 9 true next)
      next.probabilities probabilities)
    {row cacheIndex : ℕ} (hrow : row < kMainSelfAttentionBatchHeads)
    (hindex : cacheIndex < inputs.activeK) :
    probabilities (row * inputs.activeK + cacheIndex) =
      arithmetic.softmax (AttentionArithmetic.paddedRow
        (AttentionArithmetic.log2Elements inputs.activeK) inputs.activeK
        fun e => memory.scores (row * inputs.activeK + e)) cacheIndex := by
  obtain ⟨hguard', hscores, hprobabilities⟩ := hnext
  simp only [softmaxMainDevicePositionCompact, hguard, hguard', hscores, hprobabilities,
    Bool.false_eq_true, if_false, if_true] at hlower hupper
  rw [kMainDecoderCacheCapacity] at hactive
  by_cases hselected : inputs.activeK ≤ 256
  · rw [if_neg (by omega)] at hlower
    rw [if_pos (by omega)] at hupper
    rw [hupper.eq_of_nil, AttentionArithmetic.log2Elements, if_pos hselected]
    exact softmaxRows_apply arithmetic hlower (Nat.le_refl _) (by omega) hrow hindex
  · rw [if_neg (by omega)] at hupper
    rw [AttentionArithmetic.log2Elements, if_neg hselected]
    exact softmaxRows_apply arithmetic hupper (Nat.le_refl _) (by omega) hrow hindex

/-- A memory whose update has succeeded: the inputs are staged, no failure is on record and the
enabled variants compute the products for the active entries. -/
structure Chosen (bank : MainDevicePositionBank cublas) (inputs : EnqueueInputs α)
    (memory : BankMemory α) : Prop where
  position : memory.dynamic.position = inputs.position
  keyMask : ∀ index < kMainDecoderBatch * kMainDecoderCacheCapacity,
    memory.dynamic.keyMask index = inputs.keyMask index
  status : memory.statusOutput = 0#32
  products : ∀ operation,
    enabledProducts bank operation memory.nodes = [operation.gemm inputs.activeK]
  enabled : ∀ operation, ∃ selected : ℕ, selected < operation.classes ∧
    (bank.launch operation (inputs.activeK - kMainDevicePositionMinimumK)).classIndex = selected ∧
      ∀ c < operation.classes, (memory.nodes operation c).enabled = true ↔ c = selected

omit [CommSemiring α] in
theorem Chosen.guardedK (h : Chosen bank inputs memory) (hvalid : inputs.positionValid = true) :
    memory.guardedK = some inputs.activeK :=
  guardedK_of_valid hvalid h.position h.status

/-- The two phases that choose the variants. -/
theorem chosen_of_update (hcublas : cublas.CapturesProducts)
    (hvalid : inputs.positionValid = true) (hstatus : inputs.statusInput = 0#32)
    (hanswer : ∀ call, inputs.answer call = cudaSuccess) {staged : BankMemory α}
    (hstaged : BankPhase.Step arithmetic bank layerIndex inputs .stageDynamicInputs memory staged)
    (hupdate : BankPhase.Step arithmetic bank layerIndex inputs .update staged memory') :
    Chosen bank inputs memory' := by
  obtain ⟨keyMask, hmask, rfl⟩ := hstaged
  have hsuccess : (layerUpdate bank layerIndex inputs inputs.position).failure = none ∧
      (layerUpdate bank layerIndex inputs inputs.position).activeK = inputs.activeK :=
    layerUpdate_failure hvalid hanswer
  obtain ⟨hfailure, hactive⟩ := hsuccess
  rw [BankPhase.Step, hstatus] at hupdate
  subst hupdate
  refine ⟨rfl, fun index hindex => stageDynamicInputs_apply hmask hindex, ?_, ?_,
    fun operation => ?_⟩
  · rw [LayerUpdate.updateMainDevicePositionBank_of_success hfailure]
  · exact enabledProducts_of_success hcublas rfl hfailure hactive memory.nodes
  · obtain ⟨selected, hselected, hclass, henabled, -⟩ :=
      LayerUpdate.updateMainDevicePositionBank_nodes hfailure memory.nodes operation
    refine ⟨selected, hselected, ?_, henabled⟩
    rw [← hclass, LayerUpdate.launch, hactive]
    refine congrArg (fun index => (bank.launch operation index).classIndex) ?_
    omega

/-- The phases after the update keep its choice. -/
theorem Chosen.step (h : Chosen bank inputs memory) {phase : BankPhase}
    (hphase : phase ≠ .stageDynamicInputs) (hupdate : phase ≠ .update)
    (hstep : phase.Step arithmetic bank layerIndex inputs memory memory') :
    Chosen bank inputs memory' := by
  cases phase with
  | stageDynamicInputs => exact absurd rfl hphase
  | update => exact absurd rfl hupdate
  | stageKey | scaleMask | softmaxLower | softmaxUpper | stageValue =>
    obtain ⟨_, -, rfl⟩ := hstep
    exact ⟨h.position, h.keyMask, h.status, h.products, h.enabled⟩
  | qk | pv =>
    obtain rfl := hstep
    exact ⟨h.position, h.keyMask, h.status, h.products, h.enabled⟩

/-- **A successful enqueue.** From any memory it leaves the attention over the entries up to the
position, zero in the status word, and of each operation the recorded variant as the only enabled
one. -/
theorem bankEnqueue_output (hcublas : cublas.CapturesProducts)
    (hvalid : inputs.positionValid = true) (hstatus : inputs.statusInput = 0#32)
    (hanswer : ∀ call, inputs.answer call = cudaSuccess)
    (h : BankEnqueue arithmetic bank layerIndex inputs memory memory') :
    (∀ row < kMainSelfAttentionBatchHeads, ∀ component < kMainSelfAttentionHeadWidth,
      memory'.output (row * kMainSelfAttentionHeadWidth + component) =
        arithmetic.attentionOutput inputs.toAttentionInputs inputs.activeK row component) ∧
      Chosen bank inputs memory' := by
  obtain ⟨-, -, hmax⟩ := AttentionInputs.activeK_spec hvalid
  obtain ⟨_, hstaged, updated, hupdate, keyed, hkey, multiplied, hqk, masked, hmask, lower, hlower,
    upper, hupper, valued, hvalue, _, hpv, rfl⟩ := h
  have hupdated := chosen_of_update hcublas hvalid hstatus hanswer hstaged hupdate
  have hkeyed := hupdated.step (by decide) (by decide) hkey
  have hmultiplied := hkeyed.step (by decide) (by decide) hqk
  have hmasked := hmultiplied.step (by decide) (by decide) hmask
  have hlowered := hmasked.step (by decide) (by decide) hlower
  have huppered := hlowered.step (by decide) (by decide) hupper
  have hvalued := huppered.step (by decide) (by decide) hvalue
  refine ⟨fun row hrow component hcomponent => ?_, hvalued.step (by decide) (by decide) hpv⟩
  have hscores : ∀ {row cacheIndex : ℕ}, row < kMainSelfAttentionBatchHeads →
      cacheIndex < inputs.activeK → multiplied.scores (row * inputs.activeK + cacheIndex) =
        .finite (∑ component ∈ range kMainSelfAttentionHeadWidth,
          inputs.query (row * kMainSelfAttentionHeadWidth + component) *
            inputs.key ((row * kMainDecoderCacheCapacity + cacheIndex) *
              kMainSelfAttentionHeadWidth + component)) := by
    intro row cacheIndex hrow hindex
    obtain ⟨compact, hcompact, rfl⟩ := hkey
    obtain rfl := hqk
    simp only [hupdated.products .qk, List.foldl_cons, List.foldl_nil]
    exact qkGemm_apply _ (stageKey_apply (hupdated.guardedK hvalid) hcompact) hrow hindex
  have hmaskedScores : ∀ {row cacheIndex : ℕ}, row < kMainSelfAttentionBatchHeads →
      cacheIndex < inputs.activeK → masked.scores (row * inputs.activeK + cacheIndex) =
        arithmetic.attentionScore inputs.toAttentionInputs row cacheIndex := by
    intro row cacheIndex hrow hindex
    obtain ⟨scores, hphase, rfl⟩ := hmask
    exact scaleMask_apply (hmultiplied.guardedK hvalid) hmax hmultiplied.keyMask hscores hphase
      hrow hindex
  have hprobabilities : ∀ {row cacheIndex : ℕ}, row < kMainSelfAttentionBatchHeads →
      cacheIndex < inputs.activeK → upper.probabilities (row * inputs.activeK + cacheIndex) =
        arithmetic.attentionProbability inputs.toAttentionInputs inputs.activeK row cacheIndex := by
    intro row cacheIndex hrow hindex
    obtain ⟨lowerProbabilities, hlowerPhase, rfl⟩ := hlower
    obtain ⟨probabilities, hupperPhase, rfl⟩ := hupper
    rw [AttentionArithmetic.attentionProbability,
      ← paddedRow_congr fun e he => hmaskedScores hrow he]
    exact compactSoftmax_apply (hmasked.guardedK hvalid) hmax hlowerPhase
      ⟨hlowered.guardedK hvalid, rfl, rfl⟩ hupperPhase hrow hindex
  obtain ⟨compact, hcompact, rfl⟩ := hvalue
  obtain rfl := hpv
  simp only [huppered.products .pv, List.foldl_cons, List.foldl_nil]
  refine (pvGemm_apply _ (stageValue_apply (huppered.guardedK hvalid) hcompact) hrow
    hcomponent).trans (sum_congr rfl fun cacheIndex hindex => ?_)
  rw [hprobabilities hrow (mem_range.mp hindex)]

end Success

end MagpieTts.Plugins
