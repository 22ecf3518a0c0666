import MagpieTts.Library.Run
import MagpieTts.Library.ThrowingState
import MagpieTts.Runtime.TensorStorage
import Mathlib.Algebra.GroupWithZero.Nat

/-!
# The device-memory registry

A session allocates its workspace through one registry (`cuda_memory.cpp`), which holds the
allocations by name and their total against the budget of the manifest. The total is updated around
an allocation on the device, which can fail, and the registry has no call that gives one allocation
back: all of them are released with the registry.

## Main definitions

* `DeviceMemoryRegistry.allocate`: the call, on the state of the registry; how the device and the
  heap answer is a parameter.
* `RegistryCall`, `DeviceMemory`: the calls and what they leave of the registry.
* `RegistryHistory`: the memory with the allocations that its calls have handed out.
* `RegistryHistory.Balanced`: the total is the sum of the allocations that were handed out and not
  released, and within the budget.

## Main results

* `DeviceMemoryRegistry.meets_allocate`: what a call does, by its outcome.
* `sizes_exact_and_registry_balanced`: sizes are exact, the registry is balanced after every
  sequence of calls, and a call that fails leaves it as it was.
-/

namespace MagpieTts.Runtime

open Library

/-! ### Allocations and their errors -/

inductive CudaMemoryErrorCode
  | zeroSize | budgetExceeded | duplicateName | unknownName | allocationFailed
  deriving DecidableEq, Repr

structure CudaMemoryError where
  code : CudaMemoryErrorCode
  allocationName : String
  detail : String
  deriving DecidableEq, Repr

/-- What a call of the registry throws. -/
inductive RegistryException
  | cudaMemory (error : CudaMemoryError)
  /-- `std::bad_alloc`, from the hash table of the registry. -/
  | badAlloc
  deriving DecidableEq, Repr

/-- What `cudaMalloc` answers; a refusal carries the text of its status. -/
inductive MallocOutcome (Pointer : Type)
  | granted (pointer : Pointer)
  | refused (message : String)

structure DeviceAllocation (Pointer : Type) where
  pointer : Pointer
  sizeBytes : UInt64

/-- How the environment answers the insertion of an allocation. -/
structure EmplaceOutcome (Pointer : Type) where
  /-- The heap has memory for the node of the table. -/
  nodeAllocated : Bool
  malloc : MallocOutcome Pointer
  /-- The heap has memory for the buckets, when the table grows. -/
  bucketsAllocated : Bool

variable {Pointer : Type}

/-- `checked_size`; `std::size_t` is as wide as `std::uint64_t`. -/
def checkedSize (sizeBytes : UInt64) (allocationName : String) :
    Except RegistryException UInt64 :=
  if sizeBytes = 0 then
    .error (.cudaMemory ⟨.zeroSize, allocationName, "allocation size must be positive"⟩)
  else if largestUInt64 < sizeBytes then
    .error (.cudaMemory ⟨.allocationFailed, allocationName, "allocation size does not fit size_t"⟩)
  else .ok sizeBytes

/-- The constructor of `DeviceAllocation`. -/
def DeviceAllocation.create (sizeBytes : UInt64) (outcome : MallocOutcome Pointer) :
    Except RegistryException (DeviceAllocation Pointer) := do
  let _ ← checkedSize sizeBytes "device"
  match outcome with
  | .granted pointer => pure ⟨pointer, sizeBytes⟩
  | .refused message => throw (.cudaMemory ⟨.allocationFailed, "device", message⟩)

/-! ### The registry -/

structure DeviceMemoryRegistry (Pointer : Type) where
  maximumBytes : UInt64
  allocatedBytes : UInt64
  /-- The entries of the table, each with its name. -/
  allocations : List (String × DeviceAllocation Pointer)

namespace DeviceMemoryRegistry

abbrev RegistryM (Pointer : Type) :=
  ExceptT RegistryException (StateM (DeviceMemoryRegistry Pointer))

/-- The constructor. -/
def create (maximumBytes : UInt64) : Except RegistryException (DeviceMemoryRegistry Pointer) :=
  if maximumBytes = 0 then
    .error (.cudaMemory ⟨.zeroSize, "registry", "device-memory budget must be positive"⟩)
  else .ok ⟨maximumBytes, 0, []⟩

/-- `allocations_.find(name)`. -/
def find (registry : DeviceMemoryRegistry Pointer) (name : String) :
    Option (DeviceAllocation Pointer) :=
  (registry.allocations.find? fun entry => entry.1 == name).map (·.2)

def contains (registry : DeviceMemoryRegistry Pointer) (name : String) : Bool :=
  (registry.find name).isSome

def remainingBytes (registry : DeviceMemoryRegistry Pointer) : UInt64 :=
  registry.maximumBytes - registry.allocatedBytes

/-- `std::unordered_map::emplace`: the node with its allocation is built first; where the name is
taken, or the buckets cannot grow, the node is destroyed again. -/
def emplace (name : String) (sizeBytes : UInt64) (outcome : EmplaceOutcome Pointer) :
    RegistryM Pointer (DeviceAllocation Pointer × Bool) := do
  if outcome.nodeAllocated = false then throw .badAlloc
  else do
    let allocation ← check (DeviceAllocation.create sizeBytes outcome.malloc)
    match (← get).find name with
    | some present => pure (present, false)
    | none =>
      if outcome.bucketsAllocated = false then throw .badAlloc
      else do
        modify fun registry =>
          { registry with allocations := (name, allocation) :: registry.allocations }
        pure (allocation, true)

/-- The checks before the insertion. -/
def checkRequest (registry : DeviceMemoryRegistry Pointer) (name : String) (sizeBytes : UInt64) :
    Except RegistryException Unit :=
  if name = "" then
    .error (.cudaMemory ⟨.unknownName, "", "allocation name must be non-empty"⟩)
  else if registry.contains name then
    .error (.cudaMemory ⟨.duplicateName, name, "allocation name is already present"⟩)
  else if sizeBytes = 0 ∨ registry.remainingBytes < sizeBytes then
    .error (.cudaMemory ⟨if sizeBytes = 0 then .zeroSize else .budgetExceeded, name,
      "requested " ++ toString sizeBytes ++ " bytes with " ++ toString registry.remainingBytes ++
        " bytes remaining"⟩)
  else .ok ()

def allocate (name : String) (sizeBytes : UInt64) (outcome : EmplaceOutcome Pointer) :
    RegistryM Pointer Pointer := do
  check (checkRequest (← get) name sizeBytes)
  let (allocation, inserted) ← emplace name sizeBytes outcome
  if inserted = false then
    throw (.cudaMemory ⟨.duplicateName, name, "allocation insertion failed"⟩)
  else do
    modify fun registry => { registry with allocatedBytes := registry.allocatedBytes + sizeBytes }
    pure allocation.pointer

def unknownAllocation (name : String) : RegistryException :=
  .cudaMemory ⟨.unknownName, name, "allocation does not exist"⟩

/-- The look-up of `require` and of `allocation_size`. -/
def lookUp (name : String) : RegistryM Pointer (DeviceAllocation Pointer) := do
  match (← get).find name with
  | none => throw (unknownAllocation name)
  | some allocation => pure allocation

def require (name : String) : RegistryM Pointer Pointer := do
  pure (← lookUp name).pointer

def allocationSize (name : String) : RegistryM Pointer UInt64 := do
  pure (← lookUp name).sizeBytes

end DeviceMemoryRegistry

/-! ### Sequences of calls -/

/-- The device memory of a session: its registry, until the registry is destroyed. -/
abbrev DeviceMemory (Pointer : Type) := Option (DeviceMemoryRegistry Pointer)

inductive RegistryCall (Pointer : Type)
  | allocate (name : String) (sizeBytes : UInt64) (outcome : EmplaceOutcome Pointer)
  | require (name : String)
  | allocationSize (name : String)
  /-- The registry is destroyed, and each allocation with it. -/
  | release

/-- What a call of the registry returns. -/
inductive RegistryReply (Pointer : Type)
  | pointer (pointer : Pointer)
  | size (sizeBytes : UInt64)
  | released
  deriving DecidableEq

/-- A call on the registry. -/
def RegistryCall.perform :
    RegistryCall Pointer → DeviceMemoryRegistry.RegistryM Pointer (RegistryReply Pointer)
  | allocate name sizeBytes outcome => do
    return .pointer (← DeviceMemoryRegistry.allocate name sizeBytes outcome)
  | require name => do
    return .pointer (← DeviceMemoryRegistry.require name)
  | allocationSize name => do
    return .size (← DeviceMemoryRegistry.allocationSize name)
  | release => pure .released

namespace DeviceMemory

def step (memory : DeviceMemory Pointer) (call : RegistryCall Pointer) : DeviceMemory Pointer :=
  match memory, call with
  | none, _ => none
  | some _, .release => none
  | some registry, call => some (call.perform.run.run registry).2

/-- What the call returns or throws, while there is a registry. -/
def answer (memory : DeviceMemory Pointer) (call : RegistryCall Pointer) :
    Option (Except RegistryException (RegistryReply Pointer)) :=
  memory.map fun registry => (call.perform.run.run registry).1

end DeviceMemory

/-! ### The allocations that are handed out -/

/-- The memory, and the allocations that its calls have handed out and that are not released, each
with the size that was asked for. They are known from the calls and their answers alone. -/
structure RegistryHistory (Pointer : Type) where
  memory : DeviceMemory Pointer
  live : List (Pointer × UInt64)

namespace RegistryHistory

/-- The history of a registry on which nothing was called. -/
def start (registry : DeviceMemoryRegistry Pointer) : RegistryHistory Pointer :=
  ⟨some registry, []⟩

/-- The allocations behind a call: one more behind an `allocate` that returns, and none behind the
release. -/
def liveAfter (live : List (Pointer × UInt64)) :
    RegistryCall Pointer → Option (Except RegistryException (RegistryReply Pointer)) →
      List (Pointer × UInt64)
  | .release, _ => []
  | .allocate _ sizeBytes _, some (.ok (.pointer pointer)) => (pointer, sizeBytes) :: live
  | _, _ => live

def step (self : RegistryHistory Pointer) (call : RegistryCall Pointer) :
    RegistryHistory Pointer where
  memory := self.memory.step call
  live := liveAfter self.live call (self.memory.answer call)

end RegistryHistory

/-! ### The invariant -/

namespace DeviceMemoryRegistry

/-- The total of the registry is the sum of the sizes of `live`, and within the budget. -/
structure Balanced (maximumBytes : UInt64) (live : List (Pointer × UInt64))
    (registry : DeviceMemoryRegistry Pointer) : Prop where
  maximumBytes_eq : registry.maximumBytes = maximumBytes
  allocatedBytes_eq : registry.allocatedBytes.toNat =
    (live.map fun allocation => allocation.2.toNat).sum
  allocatedBytes_le : registry.allocatedBytes ≤ maximumBytes

/-- The registry after an allocation. -/
def withAllocation (registry : DeviceMemoryRegistry Pointer) (name : String)
    (allocation : DeviceAllocation Pointer) : DeviceMemoryRegistry Pointer :=
  { registry with
    allocatedBytes := registry.allocatedBytes + allocation.sizeBytes
    allocations := (name, allocation) :: registry.allocations }

variable {registry : DeviceMemoryRegistry Pointer} {name : String} {sizeBytes maximumBytes : UInt64}
  {outcome : EmplaceOutcome Pointer} {live : List (Pointer × UInt64)}

theorem balanced_create (h : create maximumBytes = .ok registry) :
    registry.Balanced maximumBytes [] := by
  rw [create] at h
  split_ifs at h with hzero
  cases h
  exact ⟨rfl, rfl, UInt64.zero_le⟩

theorem Balanced.withAllocation {allocation : DeviceAllocation Pointer}
    (h : registry.Balanced maximumBytes live)
    (hfits : allocation.sizeBytes ≤ registry.remainingBytes) :
    (registry.withAllocation name allocation).Balanced maximumBytes
      ((allocation.pointer, allocation.sizeBytes) :: live) := by
  have hle := UInt64.le_iff_toNat_le.mp h.allocatedBytes_le
  have hsize : allocation.sizeBytes.toNat ≤ maximumBytes.toNat - registry.allocatedBytes.toNat := by
    rw [remainingBytes, h.maximumBytes_eq, UInt64.le_iff_toNat_le,
      UInt64.toNat_sub_of_le _ _ h.allocatedBytes_le] at hfits
    exact hfits
  have htotal : (registry.allocatedBytes + allocation.sizeBytes).toNat =
      registry.allocatedBytes.toNat + allocation.sizeBytes.toNat := by
    rw [UInt64.toNat_add]
    have := maximumBytes.toNat_lt
    exact Nat.mod_eq_of_lt (by omega)
  refine ⟨h.maximumBytes_eq, ?_, ?_⟩
  · calc (registry.allocatedBytes + allocation.sizeBytes).toNat
      _ = allocation.sizeBytes.toNat + (live.map fun entry => entry.2.toNat).sum := by
        rw [htotal, h.allocatedBytes_eq, Nat.add_comm]
      _ = (((allocation.pointer, allocation.sizeBytes) :: live).map fun entry =>
          entry.2.toNat).sum := List.sum_cons.symm
  · change registry.allocatedBytes + allocation.sizeBytes ≤ maximumBytes
    rw [UInt64.le_iff_toNat_le, htotal]
    omega

/-! ### One call -/

theorem find_eq_none_of_contains_ne (h : ¬ registry.contains name) : registry.find name = none :=
  Option.not_isSome_iff_eq_none.mp h

/-- What the checks let through. -/
theorem of_checkRequest_eq_ok {value : Unit}
    (h : checkRequest registry name sizeBytes = .ok value) :
    registry.find name = none ∧ sizeBytes ≤ registry.remainingBytes := by
  rw [checkRequest] at h
  split_ifs at h with hname hcontains hsize
  rw [not_or, UInt64.not_lt] at hsize
  exact ⟨find_eq_none_of_contains_ne hcontains, hsize.2⟩

theorem sizeBytes_of_create {allocation : DeviceAllocation Pointer} {malloc : MallocOutcome Pointer}
    (h : DeviceAllocation.create sizeBytes malloc = .ok allocation) :
    allocation.sizeBytes = sizeBytes := by
  unfold DeviceAllocation.create at h
  obtain ⟨_, -, h⟩ := bind_eq_ok_iff.mp h
  cases malloc with
  | granted pointer => cases h; rfl
  | refused message => cases h

/-- An insertion under a free name: the new entry, or an exception and the table as it was. -/
theorem meets_emplace (hfree : registry.find name = none) :
    Meets (emplace name sizeBytes outcome) registry
      (fun result registry' => result.1.sizeBytes = sizeBytes ∧ result.2 = true ∧
        registry' = { registry with allocations := (name, result.1) :: registry.allocations })
      (fun _ registry' => registry' = registry) := by
  rw [emplace, meets_ite]
  refine ⟨fun _ => rfl, fun _ => ?_⟩
  rw [meets_bind, meets_check]
  refine ⟨fun allocation hallocation => ?_, fun _ _ => rfl⟩
  rw [meets_bind, meets_get, hfree]
  change Meets (ite _ _ _) registry _ _
  rw [meets_ite]
  refine ⟨fun _ => rfl, fun _ => ?_⟩
  rw [meets_bind, meets_modify, meets_pure]
  exact ⟨sizeBytes_of_create hallocation, rfl, rfl⟩

/-- A call that returns has added its allocation, of the size that was asked for and that the budget
had left; a call that throws has changed nothing. -/
theorem meets_allocate :
    Meets (allocate name sizeBytes outcome) registry
      (fun pointer registry' => ∃ allocation : DeviceAllocation Pointer,
        allocation.pointer = pointer ∧ allocation.sizeBytes ≤ registry.remainingBytes ∧
          allocation.sizeBytes = sizeBytes ∧ registry' = registry.withAllocation name allocation)
      (fun _ registry' => registry' = registry) := by
  rw [allocate, meets_bind, meets_get, meets_bind, meets_check]
  refine ⟨fun value hvalue => ?_, fun _ _ => rfl⟩
  obtain ⟨hfree, hfits⟩ := of_checkRequest_eq_ok hvalue
  rw [meets_bind]
  refine (meets_emplace hfree).mono ?_ fun _ _ h => h
  rintro ⟨allocation, inserted⟩ registry' ⟨hsize, hinserted, rfl⟩
  obtain rfl : inserted = true := hinserted
  change Meets (modify _ >>= _) _ _ _
  rw [meets_bind, meets_modify, meets_pure]
  refine ⟨allocation, rfl, hsize ▸ hfits, hsize, ?_⟩
  rw [withAllocation, hsize]

/-- Looking a name up changes nothing. -/
theorem meets_lookUp :
    Meets (lookUp name) registry (fun _ registry' => registry' = registry)
      (fun _ registry' => registry' = registry) := by
  rw [lookUp, meets_bind, meets_get]
  cases registry.find name with
  | none => exact rfl
  | some allocation => exact rfl

end DeviceMemoryRegistry

namespace RegistryCall

variable {registry : DeviceMemoryRegistry Pointer} {maximumBytes : UInt64}
  {live : List (Pointer × UInt64)}

/-- Each call but the release keeps the registry balanced with what it hands out, and leaves the
registry as it was where it throws. -/
theorem meets_perform (call : RegistryCall Pointer) (hcall : call ≠ .release)
    (h : registry.Balanced maximumBytes live) :
    Meets call.perform registry
      (fun reply registry' => registry'.Balanced maximumBytes
        (RegistryHistory.liveAfter live call (some (.ok reply))))
      (fun _ registry' => registry' = registry) := by
  cases call with
  | allocate name sizeBytes outcome =>
    rw [perform, meets_bind]
    refine DeviceMemoryRegistry.meets_allocate.mono ?_ fun _ _ h => h
    rintro pointer registry' ⟨allocation, rfl, hfits, rfl, rfl⟩
    exact h.withAllocation hfits
  | require name =>
    rw [perform, meets_bind, DeviceMemoryRegistry.require, meets_bind]
    exact DeviceMemoryRegistry.meets_lookUp.mono (fun _ _ heq => heq ▸ h) fun _ _ heq => heq
  | allocationSize name =>
    rw [perform, meets_bind, DeviceMemoryRegistry.allocationSize, meets_bind]
    exact DeviceMemoryRegistry.meets_lookUp.mono (fun _ _ heq => heq ▸ h) fun _ _ heq => heq
  | release => exact absurd rfl hcall

end RegistryCall

/-! ### Every sequence of calls -/

namespace RegistryHistory

variable {self : RegistryHistory Pointer} {maximumBytes : UInt64}

/-- The registry, where there still is one, is balanced with the allocations that are live. -/
def Balanced (maximumBytes : UInt64) (self : RegistryHistory Pointer) : Prop :=
  ∀ registry, self.memory = some registry → registry.Balanced maximumBytes self.live

theorem Balanced.step (h : self.Balanced maximumBytes) (call : RegistryCall Pointer) :
    (self.step call).Balanced maximumBytes := by
  obtain ⟨memory, live⟩ := self
  intro registry' heq
  cases memory with
  | none => cases heq
  | some registry =>
    by_cases hcall : call = .release
    · subst hcall
      cases heq
    · have hstep : (DeviceMemory.step (some registry) call) =
          some (call.perform.run.run registry).2 := by
        cases call <;> first | rfl | exact absurd rfl hcall
      obtain rfl := Option.some.inj (hstep.symm.trans heq)
      have hlive : (RegistryHistory.step ⟨some registry, live⟩ call).live =
          liveAfter live call (some (call.perform.run.run registry).1) := rfl
      rw [hlive]
      rcases (call.meets_perform hcall (h registry rfl)).outcome with
        ⟨reply, registry', hrun, hbalanced⟩ | ⟨exception, registry', hrun, rfl⟩
      · rw [hrun]
        exact hbalanced
      · rw [hrun]
        cases call <;> first | exact h _ rfl | exact absurd rfl hcall

/-- A call that throws changes nothing. -/
theorem Balanced.step_eq_of_throws (h : self.Balanced maximumBytes) {call : RegistryCall Pointer}
    {exception : RegistryException} (hthrows : self.memory.answer call = some (.error exception)) :
    self.step call = self := by
  obtain ⟨memory, live⟩ := self
  cases memory with
  | none => cases hthrows
  | some registry =>
    have hcall : call ≠ .release := by
      rintro rfl
      cases hthrows
    have hanswer : (call.perform.run.run registry).1 = .error exception :=
      Option.some.inj hthrows
    have hsame : (call.perform.run.run registry).2 = registry := by
      rcases (call.meets_perform hcall (h registry rfl)).outcome with
        ⟨reply, registry', hrun, -⟩ | ⟨other, registry', hrun, rfl⟩
      · rw [hrun] at hanswer
        cases hanswer
      · rw [hrun]
    rw [RegistryHistory.step, hthrows]
    cases call <;> first
      | exact absurd rfl hcall
      | exact congrArg (RegistryHistory.mk · live) (congrArg some hsame)

theorem balanced_run {registry : DeviceMemoryRegistry Pointer}
    (h : DeviceMemoryRegistry.create maximumBytes = .ok registry)
    (calls : List (RegistryCall Pointer)) :
    (run RegistryHistory.step (.start registry) calls).Balanced maximumBytes := by
  refine run_induction (fun _ call hhistory => hhistory.step call) ?_ calls
  rintro registry' heq
  cases heq
  exact DeviceMemoryRegistry.balanced_create h

end RegistryHistory

/-- The sizes of tensors are exact, and a size is refused only where the exact one does not fit or a
dimension is not positive. After every sequence of calls the total of a registry is the sum of the
sizes that its `allocate` calls have handed out and that are not released, and within the budget;
and a call that throws leaves the registry and these allocations as they were. -/
theorem sizes_exact_and_registry_balanced :
    (∀ (dtype : TensorDataType) (dimensions : List Int64),
      (∀ bytes, tensorStorageBytes dtype dimensions = .ok bytes →
        bytes.toNat = storageBytes dtype dimensions) ∧
      ((∃ exception, tensorStorageBytes dtype dimensions = .error exception) ↔
        (∃ dimension ∈ dimensions, dimension ≤ 0) ∨
          UInt64.size ≤ storageBytes dtype dimensions)) ∧
    ∀ (maximumBytes : UInt64) (registry : DeviceMemoryRegistry Pointer),
      DeviceMemoryRegistry.create maximumBytes = .ok registry →
      ∀ (calls : List (RegistryCall Pointer)) (history : RegistryHistory Pointer),
        run RegistryHistory.step (.start registry) calls = history →
        history.Balanced maximumBytes ∧
        ∀ call exception, history.memory.answer call = some (.error exception) →
          history.step call = history := by
  refine ⟨fun dtype dimensions => ⟨fun bytes h => (tensorStorageBytes_eq_ok_iff.mp h).2, ?_⟩, ?_⟩
  · rw [exists_error_iff, exists_tensorStorageBytes_eq_ok_iff, not_and_or, not_lt]
    refine or_congr_left ?_
    rw [not_forall]
    refine exists_congr fun dimension => ?_
    rw [Classical.not_imp, Int64.not_lt]
  · rintro maximumBytes registry h calls history rfl
    have hbalanced := RegistryHistory.balanced_run h calls
    exact ⟨hbalanced, fun call exception hthrows => hbalanced.step_eq_of_throws hthrows⟩

/-- Two allocations fill the budget of ten bytes: their sizes make the total, and a third one is
refused. -/
theorem sizes_exact_and_registry_balanced_filled :
    let granted : EmplaceOutcome ℕ := ⟨true, .granted 64, true⟩
    let history := run RegistryHistory.step (.start ⟨10, 0, []⟩)
      [.allocate "codes" 4 granted, .allocate "pcm" 6 granted]
    history.live = [(64, 6), (64, 4)] ∧
      (history.memory.map fun registry => registry.allocatedBytes) = some 10 ∧
      history.Balanced 10 ∧ history.step (.allocate "codes" 1 granted) = history := by
  intro granted history
  obtain ⟨hbalanced, hthrows⟩ := (@sizes_exact_and_registry_balanced ℕ).2 10 ⟨10, 0, []⟩ rfl
    [.allocate "codes" 4 granted, .allocate "pcm" 6 granted] history rfl
  refine ⟨by decide, by decide, hbalanced, hthrows (.allocate "codes" 1 granted)
    (.cudaMemory ⟨.duplicateName, "codes", "allocation name is already present"⟩) ?_⟩
  decide

end MagpieTts.Runtime
