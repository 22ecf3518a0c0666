import MagpieTts.Library.StridedGemm
import MagpieTts.Plugins.DevicePositionAttention
import Mathlib.Data.List.Forall2

/-!
# Scan of the captured kernels

Building the bank captures, for every number of active cache entries, the kernel that cuBLAS
launches for each of the two products. Kernels that differ in nothing but grid and parameters are
one class; the launch record of a number of entries names the class, the grid and the parameters.
The kernels come from cuBLAS and are a parameter of the model.

## Main definitions

* `Cublas`: what cuBLAS launches, and what a kernel with a grid and parameters computes.
* `scanOperation`: the representatives and the launch records of an operation.
* `MainDevicePositionBank`: a bank that both scans have built.

## Main results

* `scanOperation_spec`: the record of a number of entries describes the kernel captured for it.
* `MainDevicePositionBank.execute_launchedNode`: a node given a record computes its product.
-/

namespace MagpieTts.Plugins

open MagpieTts.Library

inductive ParameterTransport where
  | kernelParams
  | extra
  deriving DecidableEq

/-- What `same_main_device_position_kernel_class` compares. -/
structure KernelClass where
  functionIdentity : ℕ
  functionName : String
  parameterTransport : ParameterTransport
  block : Dim3
  sharedMemory : ℕ
  parameterOffset : ℕ
  parameterSize : ℕ
  deriving DecidableEq

/-- `MainDevicePositionKernelSnapshot`. -/
structure KernelSnapshot where
  kernelClass : KernelClass
  grid : Dim3
  parameterBytes : ℕ → UInt8

/-- The product of the queries with the compact keys. -/
def qkGemm (activeK : ℕ) : StridedBatchedGemm where
  m := activeK
  n := 1
  k := kMainSelfAttentionHeadWidth
  lda := activeK
  strideA := kMainSelfAttentionHeadWidth * activeK
  ldb := kMainSelfAttentionHeadWidth
  strideB := kMainSelfAttentionHeadWidth
  ldc := activeK
  strideC := activeK
  batchCount := kMainSelfAttentionBatchHeads

/-- The product of the probabilities with the compact values. -/
def pvGemm (activeK : ℕ) : StridedBatchedGemm where
  m := kMainSelfAttentionHeadWidth
  n := 1
  k := activeK
  lda := kMainSelfAttentionHeadWidth
  strideA := activeK * kMainSelfAttentionHeadWidth
  ldb := activeK
  strideB := activeK
  ldc := kMainSelfAttentionHeadWidth
  strideC := kMainSelfAttentionHeadWidth
  batchCount := kMainSelfAttentionBatchHeads

/-- The call of cuBLAS for an operation. -/
def BankOperation.gemm : BankOperation → ℕ → StridedBatchedGemm
  | .qk => qkGemm
  | .pv => pvGemm

/-- cuBLAS: the kernel that it launches for an operation and a number of active entries, if the
capture finds one, and the product that a kernel of a class computes with a grid and a parameter
buffer. -/
structure Cublas where
  capture : BankOperation → ℕ → Option KernelSnapshot
  execute : KernelClass → Dim3 → (ℕ → UInt8) → StridedBatchedGemm

/-- A captured kernel computes the product it was captured for, whatever lies outside its
parameter. -/
def Cublas.CapturesProducts (cublas : Cublas) : Prop :=
  ∀ operation activeK snapshot, cublas.capture operation activeK = some snapshot →
    ∀ parameters : ℕ → UInt8,
      (∀ byte < snapshot.kernelClass.parameterSize,
        parameters (snapshot.kernelClass.parameterOffset + byte) = snapshot.parameterBytes byte) →
      cublas.execute snapshot.kernelClass snapshot.grid parameters = operation.gemm activeK

/-! ### The scan -/

/-- `capture_main_device_position_kernel`: a parameter without bytes or with too many of them is
refused. -/
def captureMainDevicePositionKernel (cublas : Cublas) (operation : BankOperation) (activeK : ℕ) :
    Option KernelSnapshot :=
  (cublas.capture operation activeK).filter fun snapshot =>
    snapshot.kernelClass.parameterSize ≠ 0 &&
      snapshot.kernelClass.parameterSize ≤ kMainDevicePositionMaximumParameterBytes

/-- `MainDevicePositionRepresentative`. -/
structure Representative where
  activeK : ℕ
  kernel : KernelSnapshot

/-- The launch record of a captured kernel. -/
def launchOf (classIndex : ℕ) (snapshot : KernelSnapshot) : BankLaunch where
  classIndex := classIndex
  grid := snapshot.grid
  parameterOffset := snapshot.kernelClass.parameterOffset
  parameterSize := snapshot.kernelClass.parameterSize
  parameterBytes := snapshot.parameterBytes

/-- The representatives found so far, and the launch records. -/
abbrev ScanState := List Representative × List BankLaunch

/-- One turn of the scan. -/
def scanActiveK (cublas : Cublas) (operation : BankOperation) (state : ScanState) (activeK : ℕ) :
    Option ScanState :=
  match captureMainDevicePositionKernel cublas operation activeK with
  | none => none
  | some snapshot =>
    match state.1.findIdx? fun r => r.kernel.kernelClass = snapshot.kernelClass with
    | some classIndex => some (state.1, state.2 ++ [launchOf classIndex snapshot])
    | none =>
      if operation.classes ≤ state.1.length then none
      else
        some (state.1 ++ [⟨activeK, snapshot⟩], state.2 ++ [launchOf state.1.length snapshot])

/-- The scan over a list of numbers of active entries. -/
def scanAll (cublas : Cublas) (operation : BankOperation) : ScanState → List ℕ → Option ScanState
  | state, [] => some state
  | state, activeK :: rest =>
    match scanActiveK cublas operation state activeK with
    | none => none
    | some state => scanAll cublas operation state rest

def kMainDevicePositionKCount : ℕ :=
  kMainDevicePositionMaximumK - kMainDevicePositionMinimumK + 1

def scanOperation (cublas : Cublas) (operation : BankOperation) : Option ScanState :=
  (scanAll cublas operation ([], [])
      (List.range' kMainDevicePositionMinimumK kMainDevicePositionKCount)).filter
    fun state => state.1.length = operation.classes

/-- A bank, with the scans that built it. -/
structure MainDevicePositionBank (cublas : Cublas) where
  representatives : BankOperation → List Representative
  launches : BankOperation → List BankLaunch
  scanned : ∀ operation,
    scanOperation cublas operation = some (representatives operation, launches operation)

/-! ### What the records say -/

/-- The record of a number of active entries names a representative of the class of the kernel
captured for it, and holds the grid and parameters of that kernel. -/
def Describes (cublas : Cublas) (operation : BankOperation) (representatives : List Representative)
    (activeK : ℕ) (launch : BankLaunch) : Prop :=
  ∃ snapshot classIndex representative,
    captureMainDevicePositionKernel cublas operation activeK = some snapshot ∧
      launch = launchOf classIndex snapshot ∧ representatives[classIndex]? = some representative ∧
      representative.kernel.kernelClass = snapshot.kernelClass

variable {cublas : Cublas} {operation : BankOperation}

theorem Describes.append {representatives : List Representative} {activeK : ℕ}
    {launch : BankLaunch} (h : Describes cublas operation representatives activeK launch)
    (more : List Representative) :
    Describes cublas operation (representatives ++ more) activeK launch := by
  obtain ⟨snapshot, classIndex, representative, hcapture, hlaunch, hget, hclass⟩ := h
  refine ⟨snapshot, classIndex, representative, hcapture, hlaunch, ?_, hclass⟩
  rw [List.getElem?_append_left (List.getElem?_eq_some_iff.mp hget).1, hget]

/-- One turn of the scan adds a record that describes the kernel it captured. -/
theorem scanActiveK_spec {state state' : ScanState} {activeK : ℕ}
    (h : scanActiveK cublas operation state activeK = some state') :
    ∃ more launch, state' = (state.1 ++ more, state.2 ++ [launch]) ∧
      Describes cublas operation (state.1 ++ more) activeK launch := by
  rw [scanActiveK] at h
  cases hcapture : captureMainDevicePositionKernel cublas operation activeK with
  | none => simp [hcapture] at h
  | some snapshot =>
    simp only [hcapture] at h
    cases hfind : state.1.findIdx? fun r => r.kernel.kernelClass = snapshot.kernelClass with
    | some classIndex =>
      simp only [hfind, Option.some.injEq] at h
      obtain ⟨hlt, hclass, -⟩ := List.findIdx?_eq_some_iff_getElem.mp hfind
      refine ⟨[], launchOf classIndex snapshot, by rw [List.append_nil, h], snapshot, classIndex,
        state.1[classIndex], hcapture, rfl, ?_, of_decide_eq_true hclass⟩
      rw [List.append_nil, List.getElem?_eq_getElem hlt]
    | none =>
      simp only [hfind] at h
      split_ifs at h with hfull
      refine ⟨[⟨activeK, snapshot⟩], launchOf state.1.length snapshot, (Option.some.inj h).symm,
        snapshot, state.1.length, ⟨activeK, snapshot⟩, hcapture, rfl, ?_, rfl⟩
      rw [List.getElem?_concat_length]

/-- The scan keeps the records it has and adds one for every number of active entries. -/
theorem scanAll_spec {done rest : List ℕ} {state state' : ScanState}
    (h : scanAll cublas operation state rest = some state')
    (hdone : List.Forall₂ (Describes cublas operation state.1) done state.2) :
    List.Forall₂ (Describes cublas operation state'.1) (done ++ rest) state'.2 := by
  induction rest generalizing done state with
  | nil =>
    rw [scanAll, Option.some.injEq] at h
    rw [← h, List.append_nil]
    exact hdone
  | cons activeK rest ih =>
    rw [scanAll] at h
    cases hturn : scanActiveK cublas operation state activeK with
    | none => simp [hturn] at h
    | some next =>
      simp only [hturn] at h
      obtain ⟨more, launch, rfl, hdescribes⟩ := scanActiveK_spec hturn
      have hnext : List.Forall₂ (Describes cublas operation (state.1 ++ more)) (done ++ [activeK])
          (state.2 ++ [launch]) :=
        List.rel_append (hdone.imp fun _ _ hd => hd.append more)
          (.cons hdescribes .nil)
      simpa using ih h hnext

/-- **The scan.** It leaves as many representatives as the operation has classes, and for every
number of active entries the record of the kernel captured for it. -/
theorem scanOperation_spec {representatives : List Representative} {launches : List BankLaunch}
    (h : scanOperation cublas operation = some (representatives, launches)) :
    representatives.length = operation.classes ∧
      ∀ index < kMainDevicePositionKCount, ∃ launch, launches[index]? = some launch ∧
        Describes cublas operation representatives
          (kMainDevicePositionMinimumK + index) launch := by
  obtain ⟨hscan, hlength⟩ := Option.filter_eq_some_iff.mp h
  refine ⟨of_decide_eq_true hlength, fun index hindex => ?_⟩
  have hforall := scanAll_spec hscan List.Forall₂.nil
  rw [List.nil_append] at hforall
  have hlaunches : index < launches.length := by
    rw [← hforall.length_eq, List.length_range']
    exact hindex
  refine ⟨launches[index], List.getElem?_eq_getElem hlaunches, ?_⟩
  have hget := hforall.get (by rwa [List.length_range']) hlaunches
  simpa using hget

/-- The scan leaves a record for every number of active entries. -/
theorem scanOperation_length {representatives : List Representative} {launches : List BankLaunch}
    (h : scanOperation cublas operation = some (representatives, launches)) :
    launches.length = kMainDevicePositionKCount := by
  have hforall := scanAll_spec (Option.filter_eq_some_iff.mp h).1 List.Forall₂.nil
  rw [← hforall.length_eq, List.nil_append, List.length_range']

namespace MainDevicePositionBank

variable (bank : MainDevicePositionBank cublas)

/-- The launch records as the update reads them. -/
def launch (operation : BankOperation) (index : ℕ) : BankLaunch :=
  (bank.launches operation)[index]?.getD {}

/-- The class of the kernel behind a node of the bank. -/
def kernelClass? (operation : BankOperation) (classIndex : ℕ) : Option KernelClass :=
  (bank.representatives operation)[classIndex]?.map fun r => r.kernel.kernelClass

/-- What a node of the bank computes. -/
def execute (operation : BankOperation) (classIndex : ℕ) (node : KernelNode) :
    Option StridedBatchedGemm :=
  (bank.kernelClass? operation classIndex).map fun kernelClass =>
    cublas.execute kernelClass node.grid node.parameters

/-- Records that the scan left are not refused by the update. -/
theorem launch_accepted {index : ℕ} (hindex : index < kMainDevicePositionKCount) :
    rejectsLaunch operation (bank.launch operation index) = false := by
  obtain ⟨hlength, hlaunches⟩ := scanOperation_spec (bank.scanned operation)
  obtain ⟨launch, hget, snapshot, classIndex, representative, hcapture, rfl, hclass, -⟩ :=
    hlaunches index hindex
  obtain ⟨-, hsize⟩ := Option.filter_eq_some_iff.mp hcapture
  have hlt := (List.getElem?_eq_some_iff.mp hclass).1
  simp only [ne_eq, Bool.and_eq_true, decide_eq_true_eq] at hsize
  simp only [rejectsLaunch, MainDevicePositionBank.launch, hget, Option.getD_some, launchOf,
    Bool.or_eq_false_iff, decide_eq_false_iff_not]
  omega

/-- **A node given its record.** It computes the product that the record was captured for. -/
theorem execute_launchedNode (hcublas : cublas.CapturesProducts) {index classIndex : ℕ}
    (hindex : index < kMainDevicePositionKCount)
    (hclass : (bank.launch operation index).classIndex = classIndex) (node : KernelNode) :
    bank.execute operation classIndex
      (LayerUpdate.launchedNode (bank.launch operation index) node) =
      some (operation.gemm (kMainDevicePositionMinimumK + index)) := by
  obtain ⟨launch, hget, snapshot, c, representative, hcapture, rfl, hrepresentative, hsame⟩ :=
    (scanOperation_spec (bank.scanned operation)).2 index hindex
  simp only [MainDevicePositionBank.launch, hget, Option.getD_some] at hclass ⊢
  obtain rfl : c = classIndex := Int.natCast_inj.mp hclass
  rw [execute, kernelClass?, hrepresentative, Option.map_some, Option.map_some, hsame]
  refine congrArg some
    (hcublas _ _ _ (Option.filter_eq_some_iff.mp hcapture).1 _ fun byte hbyte => ?_)
  exact LayerUpdate.launchedNode_parameters (launchOf c snapshot) node hbyte

end MainDevicePositionBank

end MagpieTts.Plugins
