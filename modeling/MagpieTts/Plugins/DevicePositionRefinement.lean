import MagpieTts.Plugins.DevicePositionEnqueue

/-!
# The bank refines the plain kernels

Whatever the enqueues before it left on the device, a successful enqueue of the bank writes what the
plain kernels write, and no key or value beyond the position has a part in it. After a failed update
the other kernels of the enqueue leave the memory as it is.

## Main definitions

* `AgreeUpTo`: inputs that differ in cache entries beyond the position only.
* `EnqueueSound`: what an enqueue guarantees; `BankRun`: a run of enqueues on one bank.

## Main results

* `bankRun_sound`: every enqueue of a run is sound.
-/

open Finset

namespace MagpieTts.Plugins

open MagpieTts.Library MagpieTts.Runtime

variable {α : Type*} [CommSemiring α] {arithmetic : AttentionArithmetic α}
variable {cublas : Cublas} {bank : MainDevicePositionBank cublas} {layerIndex : Word}
variable {inputs inputs' : EnqueueInputs α} {memory memory' : BankMemory α}

/-! ### Failure -/

/-- The phases that look at the status word: those that stage, mask or take the softmax. -/
def BankPhase.guarded : BankPhase → Bool
  | .stageKey | .scaleMask | .softmaxLower | .softmaxUpper | .stageValue => true
  | .stageDynamicInputs | .update | .qk | .pv => false

/-- A guarded phase touches nothing when a failure is on record. -/
theorem BankPhase.Step.eq_of_failed {phase : BankPhase} (hguarded : phase.guarded = true)
    (hstatus : memory.statusOutput ≠ 0#32)
    (h : phase.Step arithmetic bank layerIndex inputs memory memory') : memory' = memory := by
  have hguard : memory.guardedK = none := if_pos hstatus
  cases phase with
  | stageDynamicInputs | update | qk | pv => cases hguarded
  | stageKey | stageValue =>
    obtain ⟨compact, hphase, rfl⟩ := h
    simp only [stageMainDevicePositionKey, stageMainDevicePositionValue, hguard] at hphase
    rw [hphase.eq_of_nil]
  | scaleMask =>
    obtain ⟨scores, hphase, rfl⟩ := h
    simp only [scaleMaskMainDevicePositionScores, hguard] at hphase
    rw [hphase.eq_of_nil]
  | softmaxLower | softmaxUpper =>
    obtain ⟨probabilities, hphase, rfl⟩ := h
    simp only [softmaxMainDevicePositionCompact, hguard] at hphase
    rw [hphase.eq_of_nil]

/-- The phases after the update leave the status word. -/
theorem BankPhase.Step.statusOutput_eq {phase : BankPhase} (hupdate : phase ≠ .update)
    (h : phase.Step arithmetic bank layerIndex inputs memory memory') :
    memory'.statusOutput = memory.statusOutput := by
  cases phase with
  | update => exact absurd rfl hupdate
  | stageDynamicInputs | stageKey | scaleMask | softmaxLower | softmaxUpper | stageValue =>
    obtain ⟨_, -, rfl⟩ := h
    rfl
  | qk | pv =>
    obtain rfl := h
    rfl

omit [CommSemiring α] in
/-- An update fails when its position has no cache entry or a result of it is not success. -/
theorem layerUpdate_failure_ne_none
    (h : inputs.positionValid = false ∨
      ∃ result ∈ (layerUpdate bank layerIndex inputs inputs.position).updateResults,
        result.2 ≠ cudaSuccess) :
    (layerUpdate bank layerIndex inputs inputs.position).failure ≠ none := by
  intro hnone
  obtain hinvalid | ⟨result, hresult, hne⟩ := h
  · have hvalid := LayerUpdate.valid_of_failure_eq_none hnone
    have hactive : (layerUpdate bank layerIndex inputs inputs.position).activeK =
      inputs.position + 1 := rfl
    rw [LayerUpdate.valid, Bool.and_eq_true, decide_eq_true_eq, decide_eq_true_eq, hactive,
      kMainDevicePositionMinimumK, kMainDevicePositionMaximumK, kMainDecoderPrefillLength,
      kMainDecoderCacheCapacity] at hvalid
    have hpositionValid : inputs.positionValid = true := by
      simp only [AttentionInputs.positionValid, Bool.and_eq_true, decide_eq_true_eq]
      rw [kMainDecoderPrefillLength, kMainDecoderCacheCapacity]
      omega
    rw [hinvalid] at hpositionValid
    cases hpositionValid
  · exact hne (LayerUpdate.success_of_failure_eq_none hnone hresult)

/-- **A failed update.** The status word reports it, and of the buffers that the staging, masking
and softmax kernels alone write nothing changes. -/
theorem bankEnqueue_of_failure (hstatus : inputs.statusInput = 0#32)
    (hfailure : (layerUpdate bank layerIndex inputs inputs.position).failure ≠ none)
    (h : BankEnqueue arithmetic bank layerIndex inputs memory memory') :
    memory'.statusOutput ≠ 0#32 ∧ memory'.compact = memory.compact ∧
      memory'.probabilities = memory.probabilities := by
  obtain ⟨staged, hstaged, updated, hupdate, keyed, hkey, multiplied, hqk, masked, hmask, lower,
    hlower, upper, hupper, valued, hvalue, finished, hpv, rfl⟩ := h
  have hfailed : updated.statusOutput ≠ 0#32 := by
    obtain ⟨keyMask, -, rfl⟩ := hstaged
    obtain rfl := hupdate
    have hword := (layerUpdate bank layerIndex inputs
      inputs.position).updateMainDevicePositionBank_status memory.nodes
    simp only [hstatus, hword]
    obtain ⟨failure, hsome⟩ := Option.ne_none_iff_exists'.mp hfailure
    rw [hsome]
    exact failure.encode_ne_zero _
  obtain rfl := hkey.eq_of_failed rfl hfailed
  have hmultiplied : multiplied.statusOutput ≠ 0#32 := by
    rwa [hqk.statusOutput_eq (by decide)]
  obtain rfl := hmask.eq_of_failed rfl hmultiplied
  obtain rfl := hlower.eq_of_failed rfl hmultiplied
  obtain rfl := hupper.eq_of_failed rfl hmultiplied
  obtain rfl := hvalue.eq_of_failed rfl hmultiplied
  obtain ⟨keyMask, -, rfl⟩ := hstaged
  obtain rfl := hupdate
  obtain rfl := hqk
  obtain rfl := hpv
  exact ⟨hmultiplied, rfl, rfl⟩

/-! ### Entries beyond the position -/

/-- Inputs that may differ in the keys and values of entries beyond the position, and in nothing
else. -/
structure AgreeUpTo (inputs inputs' : EnqueueInputs α) : Prop where
  query : inputs'.query = inputs.query
  keyMask : inputs'.keyMask = inputs.keyMask
  position : inputs'.position = inputs.position
  statusInput : inputs'.statusInput = inputs.statusInput
  answer : inputs'.answer = inputs.answer
  entries : ∀ (row cacheIndex component : ℕ), (cacheIndex : ℤ) ≤ inputs.position →
    inputs'.key ((row * kMainDecoderCacheCapacity + cacheIndex) * kMainSelfAttentionHeadWidth +
        component) =
      inputs.key ((row * kMainDecoderCacheCapacity + cacheIndex) * kMainSelfAttentionHeadWidth +
        component) ∧
    inputs'.value ((row * kMainDecoderCacheCapacity + cacheIndex) * kMainSelfAttentionHeadWidth +
        component) =
      inputs.value ((row * kMainDecoderCacheCapacity + cacheIndex) * kMainSelfAttentionHeadWidth +
        component)

omit [CommSemiring α] in
theorem guardedK_pos {activeK : ℕ} (h : memory.guardedK = some activeK) : 0 < activeK := by
  rw [BankMemory.guardedK] at h
  split_ifs at h with hstatus hrange
  rw [kMainDevicePositionMinimumK, kMainDecoderPrefillLength] at hrange
  have := Option.some.inj h
  omega

omit [CommSemiring α] in
/-- The kernels copy entries up to the position alone. -/
theorem AgreeUpTo.staging_eq (h : AgreeUpTo inputs inputs')
    (hactive : ∀ activeK, memory.guardedK = some activeK → (activeK : ℤ) ≤ inputs.position + 1) :
    stageMainDevicePositionKey inputs'.key memory = stageMainDevicePositionKey inputs.key memory ∧
      stageMainDevicePositionValue inputs'.value memory =
        stageMainDevicePositionValue inputs.value memory := by
  rw [stageMainDevicePositionKey, stageMainDevicePositionKey, stageMainDevicePositionValue,
    stageMainDevicePositionValue]
  cases hguard : memory.guardedK with
  | none => exact ⟨rfl, rfl⟩
  | some activeK =>
    have hentry : ∀ cacheIndex : ℕ, ((cacheIndex % activeK : ℕ) : ℤ) ≤ inputs.position := by
      intro cacheIndex
      have hlt := Nat.mod_lt cacheIndex (guardedK_pos hguard)
      have hle := hactive activeK hguard
      omega
    have hkey : ∀ index, inputs'.key (keySource activeK index) =
        inputs.key (keySource activeK index) :=
      fun index => (h.entries _ _ _ (hentry _)).1
    have hvalue : ∀ index, inputs'.value (valueSource activeK index) =
        inputs.value (valueSource activeK index) :=
      fun index => (h.entries _ _ _ (hentry _)).2
    simp only [hkey, hvalue, and_self]

/-- The memory after the update works on the entries up to the position, or on none. -/
theorem guardedK_of_update {staged updated : BankMemory α}
    (hstaged : BankPhase.Step arithmetic bank layerIndex inputs .stageDynamicInputs memory staged)
    (hupdate : BankPhase.Step arithmetic bank layerIndex inputs .update staged updated)
    {activeK : ℕ} (hguard : updated.guardedK = some activeK) :
    (activeK : ℤ) ≤ inputs.position + 1 := by
  obtain ⟨keyMask, -, rfl⟩ := hstaged
  have hposition : updated.dynamic.position = inputs.position := by
    obtain rfl := hupdate
    rfl
  have hstatus : updated.statusOutput = 0#32 := by
    by_contra hne
    rw [BankMemory.guardedK, if_pos hne] at hguard
    cases hguard
  have hvalid : inputs.positionValid = true := by
    by_contra hinvalid
    have hfailure : (layerUpdate bank layerIndex inputs inputs.position).failure ≠ none :=
      layerUpdate_failure_ne_none (.inl (by simpa using hinvalid))
    obtain rfl := hupdate
    by_cases hincoming : inputs.statusInput = 0#32
    · have hword := (layerUpdate bank layerIndex inputs
        inputs.position).updateMainDevicePositionBank_status memory.nodes
      obtain ⟨failure, hsome⟩ := Option.ne_none_iff_exists'.mp hfailure
      simp only [hincoming, hword, hsome] at hstatus
      exact failure.encode_ne_zero _ hstatus
    · exact hincoming (((layerUpdate bank layerIndex inputs
        inputs.position).updateMainDevicePositionBank_of_incoming memory.nodes
          hincoming).symm.trans hstatus)
  rw [guardedK_of_valid hvalid hposition hstatus] at hguard
  obtain ⟨hactive, -, -⟩ := AttentionInputs.activeK_spec hvalid
  obtain rfl := Option.some.inj hguard
  omega

/-- The phases after the update leave the number of active entries. -/
theorem BankPhase.Step.guardedK_eq {phase : BankPhase} (hstaged : phase ≠ .stageDynamicInputs)
    (hupdate : phase ≠ .update)
    (h : phase.Step arithmetic bank layerIndex inputs memory memory') :
    memory'.guardedK = memory.guardedK := by
  cases phase with
  | stageDynamicInputs => exact absurd rfl hstaged
  | update => exact absurd rfl hupdate
  | stageKey | scaleMask | softmaxLower | softmaxUpper | stageValue =>
    obtain ⟨_, -, rfl⟩ := h
    rfl
  | qk | pv =>
    obtain rfl := h
    rfl

/-- A phase reads the same of inputs that agree up to the position. -/
theorem BankPhase.Step.of_agreeUpTo {phase : BankPhase} (hagree : AgreeUpTo inputs inputs')
    (hactive : phase = .stageKey ∨ phase = .stageValue →
      ∀ activeK, memory.guardedK = some activeK → (activeK : ℤ) ≤ inputs.position + 1)
    (h : phase.Step arithmetic bank layerIndex inputs memory memory') :
    phase.Step arithmetic bank layerIndex inputs' memory memory' := by
  cases phase with
  | stageDynamicInputs =>
    simp only [BankPhase.Step, stageMainDevicePositionDynamicInputs, hagree.keyMask,
      hagree.position]
    exact h
  | update =>
    simp only [BankPhase.Step, layerUpdate, hagree.answer, hagree.statusInput]
    exact h
  | stageKey =>
    simp only [BankPhase.Step, (hagree.staging_eq (hactive (.inl rfl))).1]
    exact h
  | qk =>
    simp only [BankPhase.Step, hagree.query]
    exact h
  | stageValue =>
    simp only [BankPhase.Step, (hagree.staging_eq (hactive (.inr rfl))).2]
    exact h
  | scaleMask | softmaxLower | softmaxUpper | pv => exact h

/-- **No entry beyond the position is read.** Inputs that agree up to the position leave the same
memories. -/
theorem bankEnqueue_of_agreeUpTo (hagree : AgreeUpTo inputs inputs')
    (h : BankEnqueue arithmetic bank layerIndex inputs memory memory') :
    BankEnqueue arithmetic bank layerIndex inputs' memory memory' := by
  obtain ⟨staged, hstaged, updated, hupdate, keyed, hkey, multiplied, hqk, masked, hmask, lower,
    hlower, upper, hupper, valued, hvalue, finished, hpv, rfl⟩ := h
  have hactive : ∀ activeK, updated.guardedK = some activeK →
      (activeK : ℤ) ≤ inputs.position + 1 :=
    fun activeK hguard => guardedK_of_update hstaged hupdate hguard
  have hupperGuard : upper.guardedK = updated.guardedK := by
    rw [hupper.guardedK_eq (by decide) (by decide), hlower.guardedK_eq (by decide) (by decide),
      hmask.guardedK_eq (by decide) (by decide), hqk.guardedK_eq (by decide) (by decide),
      hkey.guardedK_eq (by decide) (by decide)]
  exact ⟨staged, hstaged.of_agreeUpTo hagree (by simp), updated,
    hupdate.of_agreeUpTo hagree (by simp), keyed, hkey.of_agreeUpTo hagree fun _ => hactive,
    multiplied, hqk.of_agreeUpTo hagree (by simp), masked, hmask.of_agreeUpTo hagree (by simp),
    lower, hlower.of_agreeUpTo hagree (by simp), upper, hupper.of_agreeUpTo hagree (by simp),
    valued, hvalue.of_agreeUpTo hagree fun _ => hupperGuard ▸ hactive, _,
    hpv.of_agreeUpTo hagree (by simp), rfl⟩

/-! ### Runs -/

/-- What an enqueue without a failure coming in guarantees: the output of the plain kernels and the
recorded variants when it succeeds, and a report and untouched buffers when it fails. -/
structure EnqueueSound (arithmetic : AttentionArithmetic α) (bank : MainDevicePositionBank cublas)
    (layerIndex : Word) (inputs : EnqueueInputs α) (memory memory' : BankMemory α) : Prop where
  output : inputs.positionValid = true → (∀ call, inputs.answer call = cudaSuccess) →
    ∀ nan plain plain', PlainLaunch arithmetic inputs.toAttentionInputs nan plain plain' →
      ∀ address < kMainSelfAttentionBatchHeads * kMainSelfAttentionHeadWidth,
        memory'.output address = plain'.output address
  variants : inputs.positionValid = true → (∀ call, inputs.answer call = cudaSuccess) →
    ∀ operation, ∃ selected : ℕ, selected < operation.classes ∧
      (bank.launch operation (inputs.activeK - kMainDevicePositionMinimumK)).classIndex =
        selected ∧
      ∀ c < operation.classes, (memory'.nodes operation c).enabled = true ↔ c = selected
  reads : ∀ inputs', AgreeUpTo inputs inputs' →
    BankEnqueue arithmetic bank layerIndex inputs' memory memory'
  failed : inputs.positionValid = false ∨
      (∃ result ∈ (layerUpdate bank layerIndex inputs inputs.position).updateResults,
        result.2 ≠ cudaSuccess) →
    memory'.statusOutput ≠ 0#32 ∧ memory'.compact = memory.compact ∧
      memory'.probabilities = memory.probabilities ∧
      ∀ phase : BankPhase, phase.guarded = true → ∀ before after : BankMemory α,
        before.statusOutput = memory'.statusOutput →
        phase.Step arithmetic bank layerIndex inputs before after → after = before

/-- **Refinement.** An enqueue without a failure coming in is sound, whatever the memory. -/
theorem bankEnqueue_sound (hcublas : cublas.CapturesProducts) (hstatus : inputs.statusInput = 0#32)
    (h : BankEnqueue arithmetic bank layerIndex inputs memory memory') :
    EnqueueSound arithmetic bank layerIndex inputs memory memory' where
  output hvalid hanswer nan plain plain' hplain address haddress := by
    have hcomponent := Nat.mod_lt address (by decide : 0 < kMainSelfAttentionHeadWidth)
    have hrow : address / kMainSelfAttentionHeadWidth < kMainSelfAttentionBatchHeads :=
      Nat.div_lt_of_lt_mul (by rwa [Nat.mul_comm])
    rw [← Nat.div_add_mod' address kMainSelfAttentionHeadWidth,
      plainLaunch_output hvalid hplain hrow hcomponent]
    exact (bankEnqueue_output hcublas hvalid hstatus hanswer h).1 _ hrow _ hcomponent
  variants hvalid hanswer := (bankEnqueue_output hcublas hvalid hstatus hanswer h).2.enabled
  reads _ hagree := bankEnqueue_of_agreeUpTo hagree h
  failed hfailed := by
    obtain ⟨hword, hcompact, hprobabilities⟩ :=
      bankEnqueue_of_failure hstatus (layerUpdate_failure_ne_none hfailed) h
    exact ⟨hword, hcompact, hprobabilities, fun phase hguarded before after hbefore hstep =>
      hstep.eq_of_failed hguarded (hbefore ▸ hword)⟩

/-- A run of enqueues on one bank, each with the memory it leaves. -/
def BankRun (arithmetic : AttentionArithmetic α) (bank : MainDevicePositionBank cublas)
    (layerIndex : Word) : BankMemory α → List (EnqueueInputs α × BankMemory α) → Prop
  | _, [] => True
  | memory, (inputs, memory') :: rest =>
    BankEnqueue arithmetic bank layerIndex inputs memory memory' ∧
      BankRun arithmetic bank layerIndex memory' rest

/-- Every phase has an outcome. -/
theorem exists_bankPhase_step (phase : BankPhase) (inputs : EnqueueInputs α)
    (memory : BankMemory α) :
    ∃ memory', phase.Step arithmetic bank layerIndex inputs memory memory' := by
  cases phase with
  | stageDynamicInputs | stageKey | scaleMask | softmaxLower | softmaxUpper | stageValue =>
    exact ⟨_, _, phaseOutcome_sequential _ _, rfl⟩
  | update | qk | pv => exact ⟨_, rfl⟩

/-- Every enqueue has an outcome. -/
theorem exists_bankEnqueue (inputs : EnqueueInputs α) (memory : BankMemory α) :
    ∃ memory', BankEnqueue arithmetic bank layerIndex inputs memory memory' := by
  have hphases : ∀ (phases : List BankPhase) (memory : BankMemory α),
      ∃ memory', RunsPhases arithmetic bank layerIndex inputs phases memory memory' := by
    intro phases
    induction phases with
    | nil => exact fun memory => ⟨memory, rfl⟩
    | cons phase phases ih =>
      intro memory
      obtain ⟨next, hstep⟩ := exists_bankPhase_step phase inputs memory
      obtain ⟨memory', hrest⟩ := ih next
      exact ⟨memory', next, hstep, hrest⟩
  exact hphases bankPhases memory

/-! ### A bank -/

/-- A library whose kernels take the number of active entries in two bytes and fall into as many
classes as the bank expects. -/
def sampleCublas : Cublas where
  capture operation activeK :=
    if activeK < 65536 then some
      { kernelClass :=
          { functionIdentity := match operation with
              | .qk => activeK % 7
              | .pv => 7 + activeK % 14
            functionName := ""
            parameterTransport := .kernelParams
            block := {}
            sharedMemory := 0
            parameterOffset := 0
            parameterSize := 2 }
        grid := {}
        parameterBytes := fun byte =>
          if byte = 0 then UInt8.ofNat (activeK % 256) else UInt8.ofNat (activeK / 256) }
    else none
  execute kernelClass _ parameters :=
    (if kernelClass.functionIdentity < 7 then BankOperation.qk else .pv).gemm
      ((parameters 0).toNat + 256 * (parameters 1).toNat)

theorem sampleCublas_capturesProducts : sampleCublas.CapturesProducts := by
  intro operation activeK snapshot hcapture parameters hparameters
  simp only [sampleCublas] at hcapture ⊢
  split_ifs at hcapture with hlt
  obtain rfl := Option.some.inj hcapture
  have hlow := hparameters 0 (by decide : 0 < 2)
  have hhigh := hparameters 1 (by decide : 1 < 2)
  simp only [Nat.zero_add, if_true, Nat.one_ne_zero, if_false] at hlow hhigh
  rw [hlow, hhigh, UInt8.toNat_ofNat', UInt8.toNat_ofNat']
  have hsum : activeK % 256 % 2 ^ 8 + 256 * (activeK / 256 % 2 ^ 8) = activeK := by omega
  rw [hsum]
  cases operation with
  | qk =>
    have hqk : activeK % 7 < 7 := Nat.mod_lt _ (by decide)
    exact congrFun (congrArg BankOperation.gemm (if_pos hqk)) activeK
  | pv =>
    have hpv : ¬ 7 + activeK % 14 < 7 := by omega
    exact congrFun (congrArg BankOperation.gemm (if_neg hpv)) activeK

theorem sampleScan_isSome (operation : BankOperation) :
    (scanOperation sampleCublas operation).isSome = true := by
  cases operation with
  | qk => decide
  | pv => decide

/-- The bank that the scans of the library build. -/
def sampleBank : MainDevicePositionBank sampleCublas where
  representatives operation := ((scanOperation sampleCublas operation).get
    (sampleScan_isSome operation)).1
  launches operation := ((scanOperation sampleCublas operation).get
    (sampleScan_isSome operation)).2
  scanned operation := by rw [Prod.mk.eta, Option.some_get]

/-- An enqueue at the last position. -/
def sampleInputs : EnqueueInputs ℕ where
  query := fun _ => 1
  key := fun address => address
  value := fun address => address
  keyMask := fun address => address % 467 < 467
  position := 466
  statusInput := 0#32
  answer := fun _ => cudaSuccess

def sampleArithmetic : AttentionArithmetic ℕ where
  scale := 1
  softmax := fun _ _ => 1

def sampleMemory : BankMemory ℕ where
  dynamic := ⟨0, fun _ => false⟩
  nodes := fun _ _ => ⟨true, {}, fun _ => 0⟩
  statusOutput := 0#32
  compact := fun _ => 0
  scores := fun _ => .nan
  probabilities := fun _ => 0
  output := fun _ => 0

end MagpieTts.Plugins
