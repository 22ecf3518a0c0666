import Mathlib.Data.Fintype.Pi
import MagpieTts.Library.Latch
import MagpieTts.Library.Run
import MagpieTts.Plugins.DevicePositionScan
import MagpieTts.Plugins.PluginRegistration

/-!
# The kernel-class table

A scan of the captured kernels leaves a representative of each class; the plugin writes the classes
and the launches of both operations into one table and latches it: the first table stays, and a
table that differs from it is a conflict for good. The table is the record that the plugin interface
exports.

## Main definitions

* `ClassRecord`, `KRecord`, `ClassTable`: the records of the interface.
* `candidateTable`: the table of two scans.
* `latchMainDevicePositionClassTable`: the latch.

## Main results

* `scanOperation_classes`: classes are distinct, and numbered in the order of their first use.
* `latch_run`: what any calls of the latch leave and answer.
-/

namespace MagpieTts.Plugins

open MagpieTts.Library

/-! ### The classes of a scan -/

/-- A class is used, and before its first use only lower ones are. -/
def FirstUsedInOrder (launches : List BankLaunch) (classIndex : ℕ) : Prop :=
  ∃ before launch after, launches = before ++ launch :: after ∧
    launch.classIndex = (classIndex : ℤ) ∧ ∀ earlier ∈ before, earlier.classIndex < (classIndex : ℤ)

theorem FirstUsedInOrder.append {launches : List BankLaunch} {classIndex : ℕ}
    (h : FirstUsedInOrder launches classIndex) (more : List BankLaunch) :
    FirstUsedInOrder (launches ++ more) classIndex := by
  obtain ⟨before, launch, after, rfl, hclass, hbefore⟩ := h
  exact ⟨before, launch, after ++ more, by simp, hclass, hbefore⟩

/-- What the turns of the scan keep. -/
structure ScanInvariant (state : ScanState) : Prop where
  distinct : state.1.Pairwise fun a b => a.kernel.kernelClass ≠ b.kernel.kernelClass
  firstUse : ∀ classIndex < state.1.length, FirstUsedInOrder state.2 classIndex
  bounded : ∀ launch ∈ state.2, launch.classIndex < (state.1.length : ℤ)

variable {cublas : Cublas} {operation : BankOperation}

theorem scanInvariant_scanActiveK {state state' : ScanState} {activeK : ℕ}
    (hinv : ScanInvariant state) (h : scanActiveK cublas operation state activeK = some state') :
    ScanInvariant state' := by
  rw [scanActiveK] at h
  cases hcapture : captureMainDevicePositionKernel cublas operation activeK with
  | none => simp [hcapture] at h
  | some snapshot =>
    simp only [hcapture] at h
    cases hfind : state.1.findIdx? fun r => r.kernel.kernelClass = snapshot.kernelClass with
    | some classIndex =>
      -- the kernel is of a class that is there
      simp only [hfind, Option.some.injEq] at h
      obtain ⟨hlt, -, -⟩ := List.findIdx?_eq_some_iff_getElem.mp hfind
      subst h
      refine ⟨hinv.distinct, fun c hc => (hinv.firstUse c hc).append _, fun launch hlaunch => ?_⟩
      rcases List.mem_append.mp hlaunch with hlaunch | hlaunch
      · exact hinv.bounded launch hlaunch
      · rw [List.mem_singleton.mp hlaunch]
        exact Int.ofNat_lt.mpr hlt
    | none =>
      -- the kernel is the first of its class
      simp only [hfind] at h
      split_ifs at h
      cases h
      have hnew := List.findIdx?_eq_none_iff.mp hfind
      refine ⟨?_, fun c hc => ?_, fun launch hlaunch => ?_⟩
      · refine List.pairwise_append.mpr ⟨hinv.distinct, List.pairwise_singleton _ _, ?_⟩
        intro a ha b hb
        rw [List.mem_singleton.mp hb]
        exact of_decide_eq_false (hnew a ha)
      · rw [List.length_append, List.length_singleton] at hc
        rcases Nat.lt_succ_iff_lt_or_eq.mp hc with hc | rfl
        · exact (hinv.firstUse c hc).append _
        · exact ⟨state.2, launchOf state.1.length snapshot, [], rfl, rfl, hinv.bounded⟩
      · rw [List.length_append, List.length_singleton]
        rcases List.mem_append.mp hlaunch with hlaunch | hlaunch
        · have := hinv.bounded launch hlaunch
          omega
        · rw [List.mem_singleton.mp hlaunch]
          exact Int.ofNat_lt.mpr (Nat.lt_succ_self _)

theorem scanInvariant_scanAll {rest : List ℕ} {state state' : ScanState}
    (hinv : ScanInvariant state) (h : scanAll cublas operation state rest = some state') :
    ScanInvariant state' := by
  induction rest generalizing state with
  | nil =>
    rw [scanAll, Option.some.injEq] at h
    exact h ▸ hinv
  | cons activeK rest ih =>
    rw [scanAll] at h
    cases hturn : scanActiveK cublas operation state activeK with
    | none => simp [hturn] at h
    | some next =>
      simp only [hturn] at h
      exact ih (scanInvariant_scanActiveK hinv hturn) h

/-- The classes of a scan are distinct, numbered in the order of their first use, and all used. -/
theorem scanOperation_classes {representatives : List Representative} {launches : List BankLaunch}
    (h : scanOperation cublas operation = some (representatives, launches)) :
    representatives.Pairwise (fun a b => a.kernel.kernelClass ≠ b.kernel.kernelClass) ∧
      ∀ classIndex < operation.classes, FirstUsedInOrder launches classIndex := by
  obtain ⟨hscan, hlength⟩ := Option.filter_eq_some_iff.mp h
  have hstart : ScanInvariant ([], []) :=
    ⟨List.Pairwise.nil, fun _ hlt => absurd hlt (Nat.not_lt_zero _), fun _ hmem => nomatch hmem⟩
  have hinv := scanInvariant_scanAll hstart hscan
  refine ⟨hinv.distinct, fun classIndex hclass => hinv.firstUse classIndex ?_⟩
  exact (of_decide_eq_true hlength).symm ▸ hclass

/-! ### The table -/

def mttPluginAbiVersion1 : ℕ := 1

def mttMainDevicePositionClassCountV1 : ℕ := 21

def mttMainDevicePositionKCountV1 : ℕ := 249

def mttMainDevicePositionFunctionNameCapacity : ℕ := 256

/-- `MTT_MAIN_DEVICE_POSITION_OPERATION_QK` and `MTT_MAIN_DEVICE_POSITION_OPERATION_PV`. -/
def BankOperation.abiValue : BankOperation → ℕ
  | .qk => 1
  | .pv => 2

/-- `MTT_MAIN_DEVICE_POSITION_PARAMETER_KERNEL_PARAMS` and
`MTT_MAIN_DEVICE_POSITION_PARAMETER_EXTRA`. -/
def ParameterTransport.abiValue : ParameterTransport → ℕ
  | .kernelParams => 1
  | .extra => 2

/-- The bytes of a function name. -/
abbrev NameBuffer :=
  {bytes : List UInt8 // bytes.length = mttMainDevicePositionFunctionNameCapacity}

/-- `mtt_main_device_position_class_v1_t`. -/
@[ext] structure ClassRecord where
  structSize : ℕ
  abiVersion : ℕ
  operation : ℕ
  classIndex : ℕ
  parameterTransport : ℕ
  blockX : ℕ
  blockY : ℕ
  blockZ : ℕ
  sharedMemoryBytes : ℕ
  reserved0 : ℕ
  parameterOffset : ℕ
  parameterSize : ℕ
  functionName : NameBuffer
  reserved : Fin 4 → ℕ
  deriving DecidableEq

/-- `mtt_main_device_position_k_v1_t`. -/
@[ext] structure KRecord where
  structSize : ℕ
  abiVersion : ℕ
  activeK : ℤ
  qkClassIndex : ℤ
  qkGridX : ℕ
  qkGridY : ℕ
  qkGridZ : ℕ
  pvClassIndex : ℤ
  pvGridX : ℕ
  pvGridY : ℕ
  pvGridZ : ℕ
  reserved0 : ℕ
  reserved : Fin 4 → ℕ
  deriving DecidableEq

/-- `mtt_main_device_position_class_table_v1_t`. -/
@[ext] structure ClassTable where
  structSize : ℕ
  abiVersion : ℕ
  classCount : ℕ
  kCount : ℕ
  classes : Fin mttMainDevicePositionClassCountV1 → ClassRecord
  kRecords : Fin mttMainDevicePositionKCountV1 → KRecord
  reserved : Fin 4 → ℕ
  deriving DecidableEq

/-- The sizes of the three records. -/
def classRecordSize : ℕ := 344

def kRecordSize : ℕ := 80

def classTableSize : ℕ :=
  16 + mttMainDevicePositionClassCountV1 * classRecordSize +
    mttMainDevicePositionKCountV1 * kRecordSize + 32

/-- The bytes of a captured name, with zeros behind. -/
def nameBuffer (name : String) : NameBuffer :=
  ⟨((name.toList.map fun c : Char => UInt8.ofNat c.toNat) ++
      List.replicate mttMainDevicePositionFunctionNameCapacity 0).take
        mttMainDevicePositionFunctionNameCapacity, by simp⟩

/-- `populate_main_device_position_class_record`, on a record of zeros. -/
def populateClassRecord (operation : BankOperation) (classIndex : ℕ) (kernel : KernelClass) :
    ClassRecord where
  structSize := classRecordSize
  abiVersion := mttPluginAbiVersion1
  operation := operation.abiValue
  classIndex := classIndex
  parameterTransport := kernel.parameterTransport.abiValue
  blockX := kernel.block.x
  blockY := kernel.block.y
  blockZ := kernel.block.z
  sharedMemoryBytes := kernel.sharedMemory
  reserved0 := 0
  parameterOffset := kernel.parameterOffset
  parameterSize := kernel.parameterSize
  functionName := nameBuffer kernel.functionName
  reserved := fun _ => 0

/-- The record of a number of active entries. -/
def kRecord (index : ℕ) (qk pv : BankLaunch) : KRecord where
  structSize := kRecordSize
  abiVersion := mttPluginAbiVersion1
  activeK := kMainDevicePositionMinimumK + index
  qkClassIndex := qk.classIndex
  qkGridX := qk.grid.x
  qkGridY := qk.grid.y
  qkGridZ := qk.grid.z
  pvClassIndex := pv.classIndex
  pvGridX := pv.grid.x
  pvGridY := pv.grid.y
  pvGridZ := pv.grid.z
  reserved0 := 0
  reserved := fun _ => 0

/-- The arguments of `latch_main_device_position_class_table`: the arrays of both operations. -/
structure LatchCall where
  representatives : BankOperation → ℕ → Representative
  launches : BankOperation → ℕ → BankLaunch

/-- The class of a launch is one of its operation. -/
def ClassInRange (operation : BankOperation) (launch : BankLaunch) : Prop :=
  0 ≤ launch.classIndex ∧ launch.classIndex < (operation.classes : ℤ)

instance (operation : BankOperation) (launch : BankLaunch) :
    Decidable (ClassInRange operation launch) := inferInstanceAs (Decidable (_ ∧ _))

/-- Every launch names a class. -/
def LatchCall.Accepted (call : LatchCall) : Prop :=
  ∀ index < kMainDevicePositionKCount,
    ClassInRange .qk (call.launches .qk index) ∧ ClassInRange .pv (call.launches .pv index)

instance (call : LatchCall) : Decidable call.Accepted :=
  inferInstanceAs (Decidable (∀ index < kMainDevicePositionKCount, _))

/-- The table of a call. -/
def LatchCall.table (call : LatchCall) : ClassTable where
  structSize := classTableSize
  abiVersion := mttPluginAbiVersion1
  classCount := mttMainDevicePositionClassCountV1
  kCount := mttMainDevicePositionKCountV1
  classes := fun index =>
    if (index : ℕ) < kMainDevicePositionQkClasses then
      populateClassRecord .qk index (call.representatives .qk index).kernel.kernelClass
    else
      populateClassRecord .pv (index - kMainDevicePositionQkClasses)
        (call.representatives .pv (index - kMainDevicePositionQkClasses)).kernel.kernelClass
  kRecords := fun index => kRecord index (call.launches .qk index) (call.launches .pv index)
  reserved := fun _ => 0

/-- The `candidate` of a call, unless a launch names no class. Unfolded by name only: the condition
runs over all launches. -/
@[irreducible] def candidateTable (call : LatchCall) : Option ClassTable :=
  if call.Accepted then some call.table else none

theorem candidateTable_eq {call : LatchCall} (h : call.Accepted) :
    candidateTable call = some call.table := by
  unfold candidateTable
  exact if_pos h

/-! ### The latch -/

/-- `latch_main_device_position_class_table`, which holds the mutex. The latch is the table, when it
is ready, and the flag of a conflict. -/
def latchMainDevicePositionClassTable (latch : Latch ClassTable) (call : LatchCall) :
    Bool × Latch ClassTable :=
  match candidateTable call with
  | none => (false, latch)
  | some candidate => latch.offer candidate

/-- The latch behind a call. -/
def latchStep (latch : Latch ClassTable) (call : LatchCall) : Latch ClassTable :=
  (latchMainDevicePositionClassTable latch call).2

/-- The tables of some calls. -/
def candidates (calls : List LatchCall) : List ClassTable := calls.filterMap candidateTable

/-- Any calls leave the first table, and a conflict when another one differs from it. -/
theorem latch_run (calls : List LatchCall) :
    run latchStep .initial calls = .after (candidates calls) := by
  induction calls using List.reverseRecOn with
  | nil => exact Latch.after_nil.symm
  | append_singleton calls call ih =>
    rw [run_concat, ih, latchStep, latchMainDevicePositionClassTable, candidates, candidates,
      List.filterMap_append]
    cases hcandidate : candidateTable call with
    | none =>
      rw [List.filterMap_cons_none hcandidate, List.filterMap_nil, List.append_nil]
    | some candidate =>
      rw [List.filterMap_cons_some hcandidate, List.filterMap_nil]
      exact congrArg Prod.snd (Latch.offer_after _ candidate)

/-- A call is answered by whether its table is the one of every call before. -/
theorem latch_answer_iff (calls : List LatchCall) (call : LatchCall) :
    (latchMainDevicePositionClassTable (run latchStep .initial calls) call).1 = true ↔
      ∃ candidate, candidateTable call = some candidate ∧
        ∀ table ∈ candidates calls, table = candidate := by
  rw [latch_run, latchMainDevicePositionClassTable]
  cases hcandidate : candidateTable call with
  | none => exact iff_of_false Bool.false_ne_true fun ⟨_, hsome, _⟩ => nomatch hsome
  | some candidate =>
    dsimp only
    rw [Latch.offer_after, decide_eq_true_iff]
    constructor
    · exact fun hall => ⟨candidate, rfl, hall⟩
    · rintro ⟨_, hsome, hall⟩
      rwa [Option.some.inj hsome]

/-! ### The getter -/

/-- `get_main_device_position_class_table`, on the record of the caller. -/
def getMainDevicePositionClassTable (latch : Latch ClassTable) (table : ClassTable) :
    PluginStatus × ClassTable :=
  if table.structSize ≠ classTableSize ∨ table.abiVersion ≠ mttPluginAbiVersion1 then
    (.abiMismatch, table)
  else if latch.conflict = true then (.classTableConflict, table)
  else
    match latch.value with
    | none => (.notReady, table)
    | some value => (.ok, value)

/-- A caller that names its record gets the table that is latched, unless there is a conflict. -/
theorem get_eq_ok_iff {latch : Latch ClassTable} {request table : ClassTable}
    (hsize : request.structSize = classTableSize)
    (habi : request.abiVersion = mttPluginAbiVersion1) :
    getMainDevicePositionClassTable latch request = (.ok, table) ↔
      latch.conflict = false ∧ latch.value = some table := by
  rw [getMainDevicePositionClassTable, if_neg (by simp [hsize, habi])]
  split_ifs with hconflict
  · exact iff_of_false (fun h => nomatch congrArg Prod.fst h) fun h =>
      Bool.false_ne_true (h.1.symm.trans hconflict)
  · cases hvalue : latch.value with
    | none => exact iff_of_false (fun h => nomatch congrArg Prod.fst h) fun h => nomatch h.2
    | some value =>
      have hno : latch.conflict = false := Bool.eq_false_iff.mpr hconflict
      exact ⟨fun h => ⟨hno, congrArg some (congrArg Prod.snd h)⟩,
        fun h => congrArg (Prod.mk _) (Option.some.inj h.2)⟩

end MagpieTts.Plugins
