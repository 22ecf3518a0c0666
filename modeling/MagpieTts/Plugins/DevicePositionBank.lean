import MagpieTts.Plugins.DevicePositionStatus
import Mathlib.Data.Int.Notation
import Mathlib.Data.Nat.Basic
import Mathlib.Tactic.SplitIfs

/-!
# Bank of device-position kernels

`update_main_device_position_bank`: one thread that disables every captured variant of the two
matrix products and then, unless a failure is on record, gives the variants chosen for the number
of active cache entries their launch parameters and enables them. What the CUDA calls answer is a
parameter of the model; a call that does not answer success leaves its node as it was.

## Main definitions

* `BankLaunch`, `KernelNode`: a launch record and a device-updatable graph node.
* `updateMainDevicePositionBank`: the kernel.
* `LayerUpdate.failure`: the first failure of an update in the order of its checks.

## Main results

* `updateMainDevicePositionBank_status`: the status word that the kernel leaves.
* `updateMainDevicePositionBank_nodes`: the variants that a successful update leaves.
-/

namespace MagpieTts.Plugins

def kMainDecoderPrefillLength : ℕ := 218

def kMainDecoderCacheCapacity : ℕ := 467

def kMainDevicePositionMinimumK : ℕ := kMainDecoderPrefillLength + 1

def kMainDevicePositionMaximumK : ℕ := kMainDecoderCacheCapacity

def kMainDevicePositionQkClasses : ℕ := 7

def kMainDevicePositionPvClasses : ℕ := 14

def kMainDevicePositionMaximumParameterBytes : ℕ := 2048

/-- The number of variants that the bank holds of an operation. -/
def BankOperation.classes : BankOperation → ℕ
  | .qk => kMainDevicePositionQkClasses
  | .pv => kMainDevicePositionPvClasses

structure Dim3 where
  x : ℕ := 1
  y : ℕ := 1
  z : ℕ := 1
  deriving DecidableEq

/-- `MainDevicePositionBankLaunch`: the launch of one operation for one number of active entries. -/
structure BankLaunch where
  classIndex : ℤ := -1
  grid : Dim3 := {}
  parameterOffset : ℕ := 0
  parameterSize : ℕ := 0
  parameterBytes : ℕ → UInt8 := fun _ => 0

/-- The part of a device-updatable kernel node that the update writes. -/
structure KernelNode where
  enabled : Bool
  grid : Dim3
  parameters : ℕ → UInt8

/-- The nodes of the bank. -/
abbrev BankNodes := BankOperation → ℕ → KernelNode

/-- The nodes with the one of a variant exchanged. -/
def BankNodes.set (nodes : BankNodes) (operation : BankOperation) (classIndex : ℕ)
    (node : KernelNode) : BankNodes :=
  fun o c => if o = operation ∧ c = classIndex then node else nodes o c

@[simp] theorem BankNodes.set_self (nodes : BankNodes) (operation : BankOperation)
    (classIndex : ℕ) (node : KernelNode) :
    nodes.set operation classIndex node operation classIndex = node :=
  if_pos ⟨rfl, rfl⟩

theorem BankNodes.set_of_operation_ne (nodes : BankNodes) {operation o : BankOperation}
    (h : o ≠ operation) (classIndex : ℕ) (node : KernelNode) :
    nodes.set operation classIndex node o = nodes o :=
  funext fun _ => if_neg fun hoc => h hoc.1

theorem BankNodes.set_of_class_ne (nodes : BankNodes) (operation : BankOperation)
    {classIndex c : ℕ} (h : c ≠ classIndex) (node : KernelNode) :
    nodes.set operation classIndex node operation c = nodes operation c :=
  if_neg fun hoc => h hoc.2

/-! ### CUDA -/

/-- `cudaError_t`. -/
abbrev CudaError := Word

def cudaSuccess : CudaError := 0#32

def cudaErrorInvalidValue : CudaError := 1#32

/-- The device-side CUDA calls of one update. -/
inductive BankCall where
  | disable (operation : BankOperation) (classIndex : ℕ)
  | setGridDim (operation : BankOperation)
  | setParam (operation : BankOperation)
  | enable (operation : BankOperation)
  deriving DecidableEq

/-- `cudaGraphKernelNodeSetEnabled`. -/
def cudaGraphKernelNodeSetEnabled (answer : CudaError) (value : Bool) (node : KernelNode) :
    KernelNode :=
  if answer = cudaSuccess then { node with enabled := value } else node

/-- `cudaGraphKernelNodeSetGridDim`. -/
def cudaGraphKernelNodeSetGridDim (answer : CudaError) (grid : Dim3) (node : KernelNode) :
    KernelNode :=
  if answer = cudaSuccess then { node with grid } else node

/-- `cudaGraphKernelNodeSetParam`. -/
def cudaGraphKernelNodeSetParam (answer : CudaError) (offset : ℕ) (value : ℕ → UInt8) (size : ℕ)
    (node : KernelNode) : KernelNode :=
  if answer = cudaSuccess then
    { node with
      parameters := fun byte =>
        if offset ≤ byte ∧ byte < offset + size then value (byte - offset)
        else node.parameters byte }
  else node

/-! ### The kernel -/

/-- What one launch of the update reads: the position on the device, the layer, the launch records
by number of active entries from the least one on, and what the CUDA calls answer. -/
structure LayerUpdate where
  position : ℤ
  layerIndex : Word
  launches : BankOperation → ℕ → BankLaunch
  answer : BankCall → CudaError

/-- `MainDevicePositionUpdateFailure`. -/
structure DisableFailure where
  operation : Word := 0#32
  status : CudaError := cudaSuccess
  deriving DecidableEq

def recordMainDevicePositionUpdateFailure (failure : DisableFailure) (operation : Word)
    (status : CudaError) : DisableFailure :=
  if failure.status = cudaSuccess ∧ status ≠ cudaSuccess then { operation, status } else failure

/-- A launch record that names no variant, or whose parameters do not fit, is refused. -/
def rejectsLaunch (operation : BankOperation) (launch : BankLaunch) : Bool :=
  launch.classIndex < 0 || (operation.classes : ℤ) ≤ launch.classIndex ||
    launch.parameterSize = 0 || kMainDevicePositionMaximumParameterBytes < launch.parameterSize

/-- The first result that is not success. -/
def firstError (results : List (BankOperation × CudaError)) : Option (BankOperation × CudaError) :=
  results.find? fun result => result.2 != cudaSuccess

namespace LayerUpdate

variable (update : LayerUpdate)

/-- One turn of the loop that disables the variants of an operation. -/
def disableVariant (operation : BankOperation) (state : BankNodes × DisableFailure) (index : ℕ) :
    BankNodes × DisableFailure :=
  let status := update.answer (.disable operation index)
  (state.1.set operation index
      (cudaGraphKernelNodeSetEnabled status false (state.1 operation index)),
    recordMainDevicePositionUpdateFailure state.2 operation.status status)

def disableMainDevicePositionVariants (operation : BankOperation)
    (state : BankNodes × DisableFailure) : BankNodes × DisableFailure :=
  (List.range operation.classes).foldl (update.disableVariant operation) state

def enableMainDevicePositionVariant (operation : BankOperation) (launch : BankLaunch)
    (nodes : BankNodes) : BankNodes × CudaError :=
  if rejectsLaunch operation launch then (nodes, cudaErrorInvalidValue)
  else
    let selected := launch.classIndex.toNat
    let gridStatus := update.answer (.setGridDim operation)
    let nodes := nodes.set operation selected
      (cudaGraphKernelNodeSetGridDim gridStatus launch.grid (nodes operation selected))
    if gridStatus ≠ cudaSuccess then (nodes, gridStatus)
    else
      let paramStatus := update.answer (.setParam operation)
      let nodes := nodes.set operation selected
        (cudaGraphKernelNodeSetParam paramStatus launch.parameterOffset launch.parameterBytes
          launch.parameterSize (nodes operation selected))
      if paramStatus ≠ cudaSuccess then (nodes, paramStatus)
      else
        let status := update.answer (.enable operation)
        (nodes.set operation selected
          (cudaGraphKernelNodeSetEnabled status true (nodes operation selected)), status)

/-- The number of cache entries the step attends. -/
def activeK : ℤ := update.position + 1

/-- The numbers of active entries that the bank holds variants for. -/
def valid : Bool :=
  (kMainDevicePositionMinimumK : ℤ) ≤ update.activeK &&
    update.activeK ≤ kMainDevicePositionMaximumK

/-- The launch record of the active entries. -/
def launch (operation : BankOperation) : BankLaunch :=
  update.launches operation (update.activeK - kMainDevicePositionMinimumK).toNat

/-- The kernel: the nodes and the status word it leaves, from the nodes and the incoming word. -/
def updateMainDevicePositionBank (nodes : BankNodes) (incomingStatus : Word) : BankNodes × Word :=
  let (nodes, disableFailure) := update.disableMainDevicePositionVariants .pv
    (update.disableMainDevicePositionVariants .qk (nodes, {}))
  if incomingStatus ≠ 0#32 then (nodes, incomingStatus)
  else if ¬ update.valid then
    (nodes, encodeMainDevicePositionStatus statusInvalidK update.layerIndex
      statusOperationSelector 0#32)
  else if disableFailure.status ≠ cudaSuccess then
    (nodes, encodeMainDevicePositionStatus statusCudaGraphUpdate update.layerIndex
      disableFailure.operation disableFailure.status)
  else
    let (nodes, status) := update.enableMainDevicePositionVariant .qk (update.launch .qk) nodes
    if status ≠ cudaSuccess then
      (nodes, encodeMainDevicePositionStatus statusCudaGraphUpdate update.layerIndex
        statusOperationQk status)
    else
      let (nodes, status) := update.enableMainDevicePositionVariant .pv (update.launch .pv) nodes
      if status ≠ cudaSuccess then
        (nodes, encodeMainDevicePositionStatus statusCudaGraphUpdate update.layerIndex
          statusOperationPv status)
      else (nodes, 0#32)

/-! ### The first failure of an update -/

/-- What the calls that disable the variants of an operation answer, in their order. -/
def disableResults (operation : BankOperation) : List (BankOperation × CudaError) :=
  (List.range operation.classes).map fun index =>
    (operation, update.answer (.disable operation index))

/-- What choosing the variant of an operation answers, check by check. -/
def enableResults (operation : BankOperation) : List (BankOperation × CudaError) :=
  if rejectsLaunch operation (update.launch operation) then [(operation, cudaErrorInvalidValue)]
  else
    [(operation, update.answer (.setGridDim operation)),
      (operation, update.answer (.setParam operation)),
      (operation, update.answer (.enable operation))]

/-- The results of an update in execution order. -/
def updateResults : List (BankOperation × CudaError) :=
  update.disableResults .qk ++ update.disableResults .pv ++
    (update.enableResults .qk ++ update.enableResults .pv)

/-- The failure of an update: a position without variants, or else the first call that fails. -/
def failure : Option UpdateFailure :=
  if update.valid then
    (firstError update.updateResults).map fun (operation, status) =>
      .cudaGraphUpdate operation status
  else some .invalidK

end LayerUpdate

/-! ### The failure on record -/

/-- The record after further results: the first error of them unless one is on record. -/
def DisableFailure.orFirst (failure : DisableFailure) (results : List (BankOperation × CudaError)) :
    DisableFailure :=
  if failure.status = cudaSuccess then
    (firstError results).elim failure fun result => ⟨result.1.status, result.2⟩
  else failure

theorem firstError_append (a b : List (BankOperation × CudaError)) :
    firstError (a ++ b) = (firstError a).or (firstError b) := by
  rw [firstError, List.find?_append]
  rfl

theorem ne_of_firstError {results : List (BankOperation × CudaError)}
    {result : BankOperation × CudaError} (h : firstError results = some result) :
    result.2 ≠ cudaSuccess := by
  simpa using List.find?_some h

theorem DisableFailure.orFirst_append (failure : DisableFailure)
    (a b : List (BankOperation × CudaError)) :
    (failure.orFirst a).orFirst b = failure.orFirst (a ++ b) := by
  by_cases hstatus : failure.status = cudaSuccess
  · simp only [orFirst, hstatus, if_pos, firstError_append]
    cases ha : firstError a with
    | none => simp [hstatus]
    | some result => simp [ne_of_firstError ha]
  · simp only [orFirst, hstatus, if_false]

theorem recordMainDevicePositionUpdateFailure_eq (failure : DisableFailure)
    (operation : BankOperation) (status : CudaError) :
    recordMainDevicePositionUpdateFailure failure operation.status status =
      failure.orFirst [(operation, status)] := by
  rw [recordMainDevicePositionUpdateFailure, DisableFailure.orFirst, firstError]
  by_cases hstatus : status = cudaSuccess
  · simp [hstatus]
  · simp [hstatus]

namespace LayerUpdate

variable (update : LayerUpdate)

theorem foldl_disableVariant_failure (operation : BankOperation) (indices : List ℕ)
    (state : BankNodes × DisableFailure) :
    (indices.foldl (update.disableVariant operation) state).2 =
      state.2.orFirst (indices.map fun index =>
        (operation, update.answer (.disable operation index))) := by
  induction indices generalizing state with
  | nil => simp [DisableFailure.orFirst, firstError]
  | cons index indices ih =>
    rw [List.foldl_cons, ih, disableVariant, recordMainDevicePositionUpdateFailure_eq,
      DisableFailure.orFirst_append]
    rfl

theorem disableMainDevicePositionVariants_failure (operation : BankOperation)
    (state : BankNodes × DisableFailure) :
    (update.disableMainDevicePositionVariants operation state).2 =
      state.2.orFirst (update.disableResults operation) :=
  update.foldl_disableVariant_failure operation _ state

/-- The error that choosing a variant returns. -/
theorem enableMainDevicePositionVariant_status (operation : BankOperation) (launch : BankLaunch)
    (nodes : BankNodes) :
    (update.enableMainDevicePositionVariant operation launch nodes).2 =
      if rejectsLaunch operation launch then cudaErrorInvalidValue
      else if update.answer (.setGridDim operation) ≠ cudaSuccess then
        update.answer (.setGridDim operation)
      else if update.answer (.setParam operation) ≠ cudaSuccess then
        update.answer (.setParam operation)
      else update.answer (.enable operation) := by
  simp only [enableMainDevicePositionVariant, apply_ite Prod.snd]

/-- It is the first error of the checks. -/
theorem firstError_enableResults (operation : BankOperation) (nodes : BankNodes) :
    firstError (update.enableResults operation) =
      if (update.enableMainDevicePositionVariant operation (update.launch operation) nodes).2 =
          cudaSuccess then none
      else some (operation,
        (update.enableMainDevicePositionVariant operation (update.launch operation) nodes).2) := by
  rw [enableMainDevicePositionVariant_status, enableResults]
  by_cases hrejects : rejectsLaunch operation (update.launch operation) = true
  · simp [hrejects, firstError, cudaErrorInvalidValue, cudaSuccess]
  by_cases hgrid : update.answer (.setGridDim operation) = cudaSuccess
  · by_cases hparam : update.answer (.setParam operation) = cudaSuccess
    · by_cases henable : update.answer (.enable operation) = cudaSuccess
      · simp [hrejects, hgrid, hparam, henable, firstError]
      · simp [hrejects, hgrid, hparam, henable, firstError]
    · simp [hrejects, hgrid, hparam, firstError]
  · simp [hrejects, hgrid, firstError]

/-! ### The status word -/

theorem updateMainDevicePositionBank_of_incoming (nodes : BankNodes) {incomingStatus : Word}
    (h : incomingStatus ≠ 0#32) :
    (update.updateMainDevicePositionBank nodes incomingStatus).2 = incomingStatus := by
  simp only [updateMainDevicePositionBank, if_pos h]

/-- **First failure of an update.** Without a failure coming in, the kernel leaves zero when nothing
fails and the encoding of the first failure else. -/
theorem updateMainDevicePositionBank_status (nodes : BankNodes) :
    (update.updateMainDevicePositionBank nodes 0#32).2 =
      update.failure.elim 0#32 fun failure => failure.encode update.layerIndex := by
  have hrecord : (update.disableMainDevicePositionVariants .pv
      (update.disableMainDevicePositionVariants .qk (nodes, {}))).2 =
      DisableFailure.orFirst {} (update.disableResults .qk ++ update.disableResults .pv) := by
    rw [disableMainDevicePositionVariants_failure, disableMainDevicePositionVariants_failure,
      DisableFailure.orFirst_append]
  simp only [updateMainDevicePositionBank, failure]
  generalize update.disableMainDevicePositionVariants .pv
    (update.disableMainDevicePositionVariants .qk (nodes, {})) = disabled at hrecord ⊢
  obtain ⟨disabledNodes, record⟩ := disabled
  subst hrecord
  by_cases hvalid : update.valid = true
  · simp only [hvalid, not_true, if_false, if_true, ne_eq]
    rw [updateResults, firstError_append, DisableFailure.orFirst, if_pos rfl]
    cases hdisable : firstError (update.disableResults .qk ++ update.disableResults .pv) with
    | some result =>
      have hne := ne_of_firstError hdisable
      simp only [hne, not_false_iff, if_true, Option.elim, Option.or, Option.map]
      rfl
    | none =>
      simp only [Option.elim, Option.or, not_true, if_false]
      rw [firstError_append, update.firstError_enableResults .qk disabledNodes]
      by_cases hqk : (update.enableMainDevicePositionVariant .qk (update.launch .qk)
          disabledNodes).2 = cudaSuccess
      · rw [update.firstError_enableResults .pv
          (update.enableMainDevicePositionVariant .qk (update.launch .qk) disabledNodes).1]
        by_cases hpv : (update.enableMainDevicePositionVariant .pv (update.launch .pv)
          (update.enableMainDevicePositionVariant .qk (update.launch .qk) disabledNodes).1).2 =
            cudaSuccess
        · simp [hqk, hpv]
        · simp only [hqk, hpv, not_true, not_false_iff, if_true, if_false, Option.or, Option.map]
          rfl
      · simp only [hqk, not_false_iff, if_true, if_false, Option.or, Option.map]
        rfl
  · simp only [hvalid]
    rfl

/-- The CUDA errors that the detail field holds. -/
def Bounded : Prop := ∀ call, (update.answer call).toNat < 2 ^ 22

variable {update}

theorem Bounded.updateResults_lt (h : update.Bounded) {result : BankOperation × CudaError}
    (hresult : result ∈ update.updateResults) : result.2.toNat < 2 ^ 22 := by
  have henable : ∀ operation,
      result ∈ update.enableResults operation → result.2.toNat < 2 ^ 22 := by
    intro operation hmem
    rw [enableResults] at hmem
    split_ifs at hmem
    · rw [List.mem_singleton.mp hmem]
      exact (by decide : cudaErrorInvalidValue.toNat < 2 ^ 22)
    · simp only [List.mem_cons, List.not_mem_nil, or_false] at hmem
      obtain rfl | rfl | rfl := hmem
      · exact h _
      · exact h _
      · exact h _
  have hdisable : ∀ operation,
      result ∈ update.disableResults operation → result.2.toNat < 2 ^ 22 := by
    intro operation hmem
    obtain ⟨index, -, rfl⟩ := List.mem_map.mp hmem
    exact h _
  simp only [updateResults, List.mem_append] at hresult
  obtain (hmem | hmem) | hmem | hmem := hresult
  · exact hdisable _ hmem
  · exact hdisable _ hmem
  · exact henable _ hmem
  · exact henable _ hmem

/-- The failure of an update fits the fields of the status word. -/
theorem Bounded.failure_encodable (h : update.Bounded) {failure : UpdateFailure}
    (hfailure : update.failure = some failure) : failure.Encodable := by
  rw [LayerUpdate.failure] at hfailure
  split_ifs at hfailure
  · obtain ⟨result, hfirst, rfl⟩ := Option.map_eq_some_iff.mp hfailure
    exact ⟨ne_of_firstError hfirst, h.updateResults_lt (List.mem_of_find?_eq_some hfirst)⟩
  · obtain rfl := Option.some.inj hfailure
    trivial

/-! ### The nodes of a successful update -/

variable (update)

theorem foldl_disableVariant_nodes (operation : BankOperation) (count : ℕ)
    (state : BankNodes × DisableFailure) (o : BankOperation) (c : ℕ) :
    ((List.range count).foldl (update.disableVariant operation) state).1 o c =
      if o = operation ∧ c < count then
        cudaGraphKernelNodeSetEnabled (update.answer (.disable operation c)) false (state.1 o c)
      else state.1 o c := by
  induction count with
  | zero => simp
  | succ count ih =>
    rw [List.range_succ, List.foldl_append, List.foldl_cons, List.foldl_nil, disableVariant]
    simp only [BankNodes.set, ih]
    by_cases ho : o = operation
    · subst ho
      rcases lt_trichotomy c count with hlt | rfl | hgt
      · simp [hlt, Nat.ne_of_lt hlt, Nat.lt_succ_of_lt hlt]
      · simp [ih]
      · simp [Nat.ne_of_gt hgt, Nat.lt_asymm hgt, Nat.not_lt.mpr (Nat.succ_le_of_lt hgt)]
    · simp [ho]

/-- The bank after every call that disables a variant has succeeded. -/
theorem disabled_nodes (hsuccess : ∀ operation, ∀ index < operation.classes,
      update.answer (.disable operation index) = cudaSuccess)
    (state : BankNodes × DisableFailure) (operation : BankOperation) {c : ℕ}
    (hc : c < operation.classes) :
    ((update.disableMainDevicePositionVariants .pv
        (update.disableMainDevicePositionVariants .qk state)).1 operation c).enabled = false := by
  rw [disableMainDevicePositionVariants, foldl_disableVariant_nodes,
    disableMainDevicePositionVariants, foldl_disableVariant_nodes]
  cases operation with
  | qk => simp [hc, hsuccess .qk c hc, cudaGraphKernelNodeSetEnabled]
  | pv => simp [hc, hsuccess .pv c hc, cudaGraphKernelNodeSetEnabled]

/-- The node of a variant that has been given a launch and enabled. -/
def launchedNode (launch : BankLaunch) (node : KernelNode) : KernelNode where
  enabled := true
  grid := launch.grid
  parameters := fun byte =>
    if launch.parameterOffset ≤ byte ∧ byte < launch.parameterOffset + launch.parameterSize then
      launch.parameterBytes (byte - launch.parameterOffset)
    else node.parameters byte

theorem launchedNode_parameters (launch : BankLaunch) (node : KernelNode) {byte : ℕ}
    (h : byte < launch.parameterSize) :
    (launchedNode launch node).parameters (launch.parameterOffset + byte) =
      launch.parameterBytes byte := by
  refine (if_pos (by omega)).trans ?_
  rw [Nat.add_sub_cancel_left]

theorem enableMainDevicePositionVariant_nodes {operation : BankOperation} {launch : BankLaunch}
    {nodes : BankNodes}
    (h : (update.enableMainDevicePositionVariant operation launch nodes).2 = cudaSuccess) :
    rejectsLaunch operation launch = false ∧
      (update.enableMainDevicePositionVariant operation launch nodes).1 =
        nodes.set operation launch.classIndex.toNat
          (launchedNode launch (nodes operation launch.classIndex.toNat)) := by
  rw [enableMainDevicePositionVariant_status] at h
  split_ifs at h with hrejects hgrid hparam
  · exact absurd h (by decide)
  · exact absurd h hgrid
  · exact absurd h hparam
  · refine ⟨by simpa using hrejects, ?_⟩
    rw [ne_eq, Decidable.not_not] at hgrid hparam
    simp only [enableMainDevicePositionVariant, hrejects, hgrid, hparam, h, ne_eq, not_true,
      if_false]
    funext o c
    by_cases hoc : o = operation ∧ c = launch.classIndex.toNat
    · obtain ⟨rfl, rfl⟩ := hoc
      simp [BankNodes.set, cudaGraphKernelNodeSetEnabled, cudaGraphKernelNodeSetGridDim,
        cudaGraphKernelNodeSetParam, launchedNode]
    · simp [BankNodes.set, hoc]

theorem class_of_not_rejects {operation : BankOperation} {launch : BankLaunch}
    (h : rejectsLaunch operation launch = false) :
    launch.classIndex.toNat < operation.classes ∧ launch.classIndex = launch.classIndex.toNat := by
  simp only [rejectsLaunch, Bool.or_eq_false_iff, decide_eq_false_iff_not] at h
  omega

variable {update}

theorem valid_of_failure_eq_none (h : update.failure = none) : update.valid = true := by
  rw [failure] at h
  split_ifs at h with hvalid
  exact hvalid

/-- An update fails at nothing when the position is valid, no record is refused and CUDA answers
success throughout. -/
theorem failure_eq_none_of_success (hvalid : update.valid = true)
    (hlaunch : ∀ operation, rejectsLaunch operation (update.launch operation) = false)
    (hanswer : ∀ call, update.answer call = cudaSuccess) : update.failure = none := by
  have hnone : firstError update.updateResults = none := by
    rw [firstError, List.find?_eq_none]
    intro result hresult
    simp only [updateResults, disableResults, enableResults, hlaunch, hanswer, List.mem_append,
      List.mem_map, List.mem_cons, List.not_mem_nil, or_false, Bool.false_eq_true, if_false]
      at hresult
    rcases hresult with (⟨_, -, rfl⟩ | ⟨_, -, rfl⟩) | (rfl | rfl | rfl) | rfl | rfl | rfl <;> simp
  rw [failure, if_pos hvalid, hnone]
  rfl

/-- An update without a failure has no failing result. -/
theorem success_of_failure_eq_none (h : update.failure = none)
    {result : BankOperation × CudaError} (hresult : result ∈ update.updateResults) :
    result.2 = cudaSuccess := by
  rw [failure, if_pos (valid_of_failure_eq_none h), Option.map_eq_none_iff, firstError,
    List.find?_eq_none] at h
  simpa using h result hresult

theorem enable_success_of_failure_eq_none (h : update.failure = none) (operation : BankOperation)
    (nodes : BankNodes) :
    (update.enableMainDevicePositionVariant operation (update.launch operation) nodes).2 =
      cudaSuccess := by
  have hnone : firstError (update.enableResults operation) = none := by
    rw [firstError, List.find?_eq_none]
    intro result hresult
    have hmem : result ∈ update.updateResults := by
      cases operation with
      | qk => simp [updateResults, hresult]
      | pv => simp [updateResults, hresult]
    simp [success_of_failure_eq_none h hmem]
  rw [update.firstError_enableResults operation nodes] at hnone
  split_ifs at hnone with hsuccess
  exact hsuccess

/-- The kernel without a failure: the variants are disabled, then one of each operation enabled. -/
theorem updateMainDevicePositionBank_of_success (h : update.failure = none) (nodes : BankNodes) :
    update.updateMainDevicePositionBank nodes 0#32 =
      ((update.enableMainDevicePositionVariant .pv (update.launch .pv)
        (update.enableMainDevicePositionVariant .qk (update.launch .qk)
          (update.disableMainDevicePositionVariants .pv
            (update.disableMainDevicePositionVariants .qk (nodes, {}))).1).1).1, 0#32) := by
  have hrecord : (update.disableMainDevicePositionVariants .pv
      (update.disableMainDevicePositionVariants .qk (nodes, {}))).2.status = cudaSuccess := by
    have hnone : firstError (update.disableResults .qk ++ update.disableResults .pv) = none := by
      rw [firstError, List.find?_eq_none]
      intro result hresult
      have hmem : result ∈ update.updateResults := List.mem_append_left _ hresult
      simp [success_of_failure_eq_none h hmem]
    rw [disableMainDevicePositionVariants_failure, disableMainDevicePositionVariants_failure,
      DisableFailure.orFirst_append, DisableFailure.orFirst, hnone]
    rfl
  simp only [updateMainDevicePositionBank, valid_of_failure_eq_none h, hrecord,
    enable_success_of_failure_eq_none h, ne_eq, not_true, if_false]

/-- **A successful update.** Of each operation exactly the variant that the launch record names is
enabled, with the grid and the parameters of that record. -/
theorem updateMainDevicePositionBank_nodes (h : update.failure = none) (nodes : BankNodes)
    (operation : BankOperation) :
    ∃ selected : ℕ, selected < operation.classes ∧
      (update.launch operation).classIndex = selected ∧
      (∀ c < operation.classes,
        ((update.updateMainDevicePositionBank nodes 0#32).1 operation c).enabled = true ↔
          c = selected) ∧
      ∃ node, (update.updateMainDevicePositionBank nodes 0#32).1 operation selected =
        launchedNode (update.launch operation) node := by
  have hdisabled := update.disabled_nodes (fun operation index hindex => ?_) (nodes, {})
  · rw [updateMainDevicePositionBank_of_success h]
    generalize update.disableMainDevicePositionVariants .pv
      (update.disableMainDevicePositionVariants .qk (nodes, {})) = disabled at hdisabled ⊢
    obtain ⟨hqk, hqkNodes⟩ := update.enableMainDevicePositionVariant_nodes
      (enable_success_of_failure_eq_none h .qk disabled.1)
    obtain ⟨hpv, hpvNodes⟩ := update.enableMainDevicePositionVariant_nodes
      (enable_success_of_failure_eq_none h .pv
        (update.enableMainDevicePositionVariant .qk (update.launch .qk) disabled.1).1)
    rw [hpvNodes, hqkNodes]
    cases operation with
    | qk =>
      obtain ⟨hlt, hclass⟩ := class_of_not_rejects hqk
      refine ⟨_, hlt, hclass, fun c hc => ?_,
        disabled.1 .qk (update.launch .qk).classIndex.toNat, ?_⟩
      · rw [BankNodes.set_of_operation_ne _ (by decide)]
        by_cases hselected : c = (update.launch .qk).classIndex.toNat
        · subst hselected
          simp [launchedNode]
        · simp [BankNodes.set_of_class_ne _ _ hselected, hdisabled .qk hc, hselected]
      · rw [BankNodes.set_of_operation_ne _ (by decide), BankNodes.set_self]
    | pv =>
      obtain ⟨hlt, hclass⟩ := class_of_not_rejects hpv
      refine ⟨_, hlt, hclass, fun c hc => ?_, _, BankNodes.set_self _ _ _ _⟩
      by_cases hselected : c = (update.launch .pv).classIndex.toNat
      · subst hselected
        simp [launchedNode]
      · rw [BankNodes.set_of_class_ne _ _ hselected, BankNodes.set_of_operation_ne _ (by decide)]
        simp [hdisabled .pv hc, hselected]
  · have hmem : (operation, update.answer (.disable operation index)) ∈ update.updateResults := by
      have : (operation, update.answer (.disable operation index)) ∈
          update.disableResults operation :=
        List.mem_map.mpr ⟨index, List.mem_range.mpr hindex, rfl⟩
      cases operation with
      | qk => simp [updateResults, this]
      | pv => simp [updateResults, this]
    exact success_of_failure_eq_none h hmem

end LayerUpdate

end MagpieTts.Plugins
