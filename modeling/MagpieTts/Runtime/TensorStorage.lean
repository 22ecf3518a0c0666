import MagpieTts.Library.ExceptRules
import Mathlib.Algebra.BigOperators.Group.List.Basic
import Mathlib.Algebra.Group.Nat.Defs
import Mathlib.Algebra.Order.Group.Nat
import Mathlib.Tactic.SplitIfs

/-!
# Sizes of tensors

The workspace of a session allocates each tensor of an engine at the size that its shape and element
type give (`engine_execution.cpp`). Dimensions are signed 64-bit words and sizes unsigned ones; the
products are guarded by divisions.

## Main definitions

* `resolveTensorShape`: the shape of a tensor of the manifest at the parameters of a request.
* `tensorStorageBytes`: the size of a tensor in bytes, in machine words.
* `storageBytes`: the same size as a natural number.

## Main results

* `tensorStorageBytes_eq_ok_iff`: the size that is returned is the exact one.
* `exists_tensorStorageBytes_eq_ok_iff`: a size is returned when no dimension is zero or negative
  and the exact size fits.
* `resolveTensorShape_pos`: the shape of a tensor has positive dimensions.
-/

namespace MagpieTts.Runtime

open Library

/-! ### The manifest's tensors -/

inductive TensorDataType
  | fp32 | fp16 | bf16 | int64 | int32 | int8 | uint8 | boolean
  deriving DecidableEq, Repr

inductive EngineRole
  | textEncoder | mainDecoderPrefill | mainDecoderStep | localAr16
  | nanocodecInitial4 | nanocodecSteady8 | nanocodecTail18
  deriving DecidableEq, Repr

/-- `to_string` of a role. -/
def EngineRole.toString : EngineRole → String
  | textEncoder => "text_encoder"
  | mainDecoderPrefill => "main_decoder_prefill"
  | mainDecoderStep => "main_decoder_step"
  | localAr16 => "local_ar_16"
  | nanocodecInitial4 => "nanocodec_initial_4"
  | nanocodecSteady8 => "nanocodec_steady_8"
  | nanocodecTail18 => "nanocodec_tail_1_8"

/-- The fields of `TensorSpec` that sizes depend on. -/
structure TensorSpec where
  name : String
  dtype : TensorDataType
  shape : List Int64
  deriving DecidableEq

structure EngineShapeParameters where
  textTokenCount : UInt32
  codecFrameCount : UInt32
  codecHopLengthSamples : UInt32

/-- The error code of shapes and sizes; the other codes belong to the binding of addresses. -/
inductive EngineExecutionErrorCode
  | invalidShapeParameter
  deriving DecidableEq, Repr

structure EngineExecutionError where
  code : EngineExecutionErrorCode
  engineName : String
  tensorName : String
  detail : String
  deriving DecidableEq, Repr

/-- `fail` with `invalid_shape_parameter`. -/
def invalidShape (engineName tensorName detail : String) : EngineExecutionError where
  code := .invalidShapeParameter
  engineName := engineName
  tensorName := tensorName
  detail := detail

/-! ### Resolved shapes -/

def isTextDynamicRole (role : EngineRole) : Bool :=
  role == .textEncoder || role == .mainDecoderPrefill || role == .mainDecoderStep

/-- A product of two `std::uint32_t` is below `2 ^ 64` but may pass the largest `std::int64_t`. -/
def tailSampleCount (parameters : EngineShapeParameters) : UInt64 :=
  parameters.codecFrameCount.toUInt64 * parameters.codecHopLengthSamples.toUInt64

def resolveDynamicDimension (role : EngineRole) (tensor : TensorSpec) (dimensionIndex : ℕ)
    (parameters : EngineShapeParameters) : Except EngineExecutionError Int64 :=
  if isTextDynamicRole role then
    if parameters.textTokenCount = 0 then
      .error (invalidShape role.toString tensor.name "text-token count must be positive")
    else .ok parameters.textTokenCount.toUInt64.toInt64
  else if role = .nanocodecTail18 then
    if parameters.codecFrameCount = 0 ∨ 8 < parameters.codecFrameCount ∨
        parameters.codecHopLengthSamples = 0 then
      .error (invalidShape role.toString tensor.name
        "tail codec frames must be in [1,8] and hop length positive")
    else if tensor.name = "codec_tokens" ∧ dimensionIndex = 2 then
      .ok parameters.codecFrameCount.toUInt64.toInt64
    else if tensor.name = "pcm" ∧ dimensionIndex = 1 then
      if 9223372036854775807 < tailSampleCount parameters then
        .error (invalidShape role.toString tensor.name "tail PCM dimension overflow")
      else .ok (tailSampleCount parameters).toInt64
    else
      .error (invalidShape role.toString tensor.name
        ("dynamic dimension is not admitted at index " ++ toString dimensionIndex))
  else
    .error (invalidShape role.toString tensor.name
      ("dynamic dimension is not admitted at index " ++ toString dimensionIndex))

/-- One pass of the loop of `resolve_tensor_shape`. -/
def resolveDimension (role : EngineRole) (tensor : TensorSpec) (parameters : EngineShapeParameters)
    (entry : Int64 × ℕ) : Except EngineExecutionError Int64 :=
  if entry.1 = -1 then resolveDynamicDimension role tensor entry.2 parameters
  else if entry.1 ≤ 0 then
    .error (invalidShape role.toString tensor.name
      "manifest shape contains a non-positive static dimension")
  else .ok entry.1

def resolveTensorShape (role : EngineRole) (tensor : TensorSpec)
    (parameters : EngineShapeParameters) : Except EngineExecutionError (List Int64) :=
  tensor.shape.zipIdx.mapM (resolveDimension role tensor parameters)

/-! ### Sizes -/

def dataTypeBytes : TensorDataType → UInt64
  | .fp32 | .int32 => 4
  | .fp16 | .bf16 => 2
  | .int64 => 8
  | .int8 | .uint8 | .boolean => 1

/-- `std::numeric_limits<std::uint64_t>::max()`. -/
def largestUInt64 : UInt64 := 18446744073709551615

/-- One pass of the loop of `tensor_storage_bytes`. -/
def multiplyDimension (elements : UInt64) (dimension : Int64) :
    Except EngineExecutionError UInt64 :=
  if dimension ≤ 0 then
    .error (invalidShape "" "" "storage shape contains a non-positive dimension")
  else if largestUInt64 / dimension.toUInt64 < elements then
    .error (invalidShape "" "" "tensor element count overflow")
  else .ok (elements * dimension.toUInt64)

/-- The end of `tensor_storage_bytes`. -/
def multiplyElementBytes (dtype : TensorDataType) (elements : UInt64) :
    Except EngineExecutionError UInt64 :=
  if largestUInt64 / dataTypeBytes dtype < elements then
    .error (invalidShape "" "" "tensor storage byte count overflow")
  else .ok (elements * dataTypeBytes dtype)

def tensorStorageBytes (dtype : TensorDataType) (dimensions : List Int64) :
    Except EngineExecutionError UInt64 := do
  let elements ← dimensions.foldlM multiplyDimension 1
  multiplyElementBytes dtype elements

/-- The size of a tensor as a number: the product of its dimensions and of the size of an
element. -/
def storageBytes (dtype : TensorDataType) (dimensions : List Int64) : ℕ :=
  (dimensions.map Int64.toNatClampNeg).prod * (dataTypeBytes dtype).toNat

/-! ### The guards -/

theorem toNat_largestUInt64 : largestUInt64.toNat = 18446744073709551615 := rfl

theorem dataTypeBytes_pos (dtype : TensorDataType) : 0 < (dataTypeBytes dtype).toNat := by
  cases dtype <;> exact by decide

/-- The division test refuses exactly the products that wrap. -/
theorem largestUInt64_div_lt_iff {a b : UInt64} (hb : 0 < b.toNat) :
    largestUInt64 / b < a ↔ 18446744073709551616 ≤ a.toNat * b.toNat := by
  rw [UInt64.lt_iff_toNat_lt, UInt64.toNat_div, toNat_largestUInt64, Nat.div_lt_iff_lt_mul hb]
  exact Nat.lt_iff_add_one_le

theorem toNat_mul_of_lt {a b : UInt64} (h : a.toNat * b.toNat < 18446744073709551616) :
    (a * b).toNat = a.toNat * b.toNat := by
  rw [UInt64.toNat_mul]
  exact Nat.mod_eq_of_lt h

theorem toNat_toUInt64_of_pos {dimension : Int64} (h : 0 < dimension) :
    dimension.toUInt64.toNat = dimension.toNatClampNeg :=
  Int64.toNat_toUInt64_of_le (Int64.le_of_lt h)

theorem toNatClampNeg_pos {dimension : Int64} (h : 0 < dimension) :
    0 < dimension.toNatClampNeg := by
  have hlt : (0 : Int64).toInt < dimension.toInt := Int64.lt_iff_toInt_lt.mp h
  rw [Int64.toInt_zero] at hlt
  exact Int.lt_toNat.mpr hlt

/-- A pass returns the exact product, and returns when the dimension is positive and the product
fits. -/
theorem multiplyDimension_eq_ok_iff {elements result : UInt64} {dimension : Int64} :
    multiplyDimension elements dimension = .ok result ↔
      0 < dimension ∧ result.toNat = elements.toNat * dimension.toNatClampNeg := by
  rw [multiplyDimension]
  by_cases hpos : dimension ≤ 0
  · rw [if_pos hpos]
    exact ⟨nofun, fun h => absurd h.1 (Int64.not_lt.mpr hpos)⟩
  · have hlt : 0 < dimension := Int64.not_le.mp hpos
    rw [if_neg hpos, ← toNat_toUInt64_of_pos hlt]
    have hunsigned : 0 < dimension.toUInt64.toNat := by
      rw [toNat_toUInt64_of_pos hlt]
      exact toNatClampNeg_pos hlt
    by_cases hfits : largestUInt64 / dimension.toUInt64 < elements
    · rw [if_pos hfits]
      rw [largestUInt64_div_lt_iff hunsigned] at hfits
      exact ⟨nofun, fun h => absurd (h.2 ▸ result.toNat_lt) (by omega)⟩
    · rw [if_neg hfits, Except.ok.injEq, ← UInt64.toNat_inj]
      rw [largestUInt64_div_lt_iff hunsigned] at hfits
      rw [toNat_mul_of_lt (by omega), eq_comm]
      exact ⟨fun h => ⟨hlt, h⟩, fun h => h.2⟩

theorem multiplyElementBytes_eq_ok_iff {dtype : TensorDataType} {elements result : UInt64} :
    multiplyElementBytes dtype elements = .ok result ↔
      result.toNat = elements.toNat * (dataTypeBytes dtype).toNat := by
  rw [multiplyElementBytes]
  by_cases hfits : largestUInt64 / dataTypeBytes dtype < elements
  · rw [if_pos hfits]
    rw [largestUInt64_div_lt_iff (dataTypeBytes_pos dtype)] at hfits
    exact ⟨nofun, fun h => absurd (h ▸ result.toNat_lt) (by omega)⟩
  · rw [if_neg hfits, Except.ok.injEq, ← UInt64.toNat_inj]
    rw [largestUInt64_div_lt_iff (dataTypeBytes_pos dtype)] at hfits
    rw [toNat_mul_of_lt (by omega), eq_comm]

theorem prod_toNatClampNeg_pos {dimensions : List Int64}
    (hpos : ∀ dimension ∈ dimensions, 0 < dimension) :
    0 < (dimensions.map Int64.toNatClampNeg).prod := by
  induction dimensions with
  | nil => exact Nat.one_pos
  | cons dimension dimensions ih =>
    rw [List.map_cons, List.prod_cons]
    exact Nat.mul_pos (toNatClampNeg_pos (hpos dimension List.mem_cons_self))
      (ih fun other hmem => hpos other (List.mem_cons_of_mem dimension hmem))

/-- The loop: the dimensions are multiplied one by one, and since each is at least one, a product
that fits at the end fits on the way. -/
theorem foldlM_multiplyDimension_eq_ok_iff {dimensions : List Int64} {elements result : UInt64} :
    dimensions.foldlM multiplyDimension elements = .ok result ↔
      (∀ dimension ∈ dimensions, 0 < dimension) ∧
        result.toNat = elements.toNat * (dimensions.map Int64.toNatClampNeg).prod := by
  induction dimensions generalizing elements with
  | nil =>
    rw [List.foldlM_nil, List.map_nil, List.prod_nil, Nat.mul_one, UInt64.toNat_inj]
    exact ⟨fun h => ⟨nofun, (Except.ok.inj h).symm⟩, fun h => congrArg Except.ok h.2.symm⟩
  | cons dimension dimensions ih =>
    rw [List.foldlM_cons, bind_eq_ok_iff, List.map_cons, List.prod_cons, ← Nat.mul_assoc,
      List.forall_mem_cons]
    constructor
    · rintro ⟨product, hproduct, hrest⟩
      obtain ⟨hpos, hvalue⟩ := multiplyDimension_eq_ok_iff.mp hproduct
      obtain ⟨hrestPos, hresult⟩ := ih.mp hrest
      exact ⟨⟨hpos, hrestPos⟩, by rw [hresult, hvalue]⟩
    · rintro ⟨⟨hpos, hrestPos⟩, hresult⟩
      have hle : elements.toNat * dimension.toNatClampNeg ≤ result.toNat := by
        rw [hresult]
        exact Nat.le_mul_of_pos_right _ (prod_toNatClampNeg_pos hrestPos)
      have hvalue : (UInt64.ofNat (elements.toNat * dimension.toNatClampNeg)).toNat =
          elements.toNat * dimension.toNatClampNeg :=
        UInt64.toNat_ofNat_of_lt' (Nat.lt_of_le_of_lt hle result.toNat_lt)
      exact ⟨_, multiplyDimension_eq_ok_iff.mpr ⟨hpos, hvalue⟩,
        ih.mpr ⟨hrestPos, by rw [hvalue, hresult]⟩⟩

/-! ### The size of a tensor -/

/-- The returned size is the exact one. -/
theorem tensorStorageBytes_eq_ok_iff {dtype : TensorDataType} {dimensions : List Int64}
    {bytes : UInt64} :
    tensorStorageBytes dtype dimensions = .ok bytes ↔
      (∀ dimension ∈ dimensions, 0 < dimension) ∧ bytes.toNat = storageBytes dtype dimensions := by
  rw [tensorStorageBytes, bind_eq_ok_iff, storageBytes]
  constructor
  · rintro ⟨elements, helements, hbytes⟩
    obtain ⟨hpos, hcount⟩ := foldlM_multiplyDimension_eq_ok_iff.mp helements
    rw [UInt64.toNat_one, Nat.one_mul] at hcount
    rw [multiplyElementBytes_eq_ok_iff] at hbytes
    exact ⟨hpos, by rw [hbytes, hcount]⟩
  · rintro ⟨hpos, hbytes⟩
    have hle : (dimensions.map Int64.toNatClampNeg).prod ≤ bytes.toNat := by
      rw [hbytes]
      exact Nat.le_mul_of_pos_right _ (dataTypeBytes_pos dtype)
    have hcount : (UInt64.ofNat (dimensions.map Int64.toNatClampNeg).prod).toNat =
        (dimensions.map Int64.toNatClampNeg).prod :=
      UInt64.toNat_ofNat_of_lt' (Nat.lt_of_le_of_lt hle bytes.toNat_lt)
    refine ⟨UInt64.ofNat (dimensions.map Int64.toNatClampNeg).prod,
      foldlM_multiplyDimension_eq_ok_iff.mpr ⟨hpos, ?_⟩, multiplyElementBytes_eq_ok_iff.mpr ?_⟩
    · rw [hcount, UInt64.toNat_one, Nat.one_mul]
    · rw [hcount, hbytes]

/-- A size is returned exactly when the dimensions are positive and the exact size fits. -/
theorem exists_tensorStorageBytes_eq_ok_iff {dtype : TensorDataType} {dimensions : List Int64} :
    (∃ bytes, tensorStorageBytes dtype dimensions = .ok bytes) ↔
      (∀ dimension ∈ dimensions, 0 < dimension) ∧ storageBytes dtype dimensions < UInt64.size := by
  simp only [tensorStorageBytes_eq_ok_iff]
  constructor
  · rintro ⟨bytes, hpos, hbytes⟩
    exact ⟨hpos, hbytes ▸ bytes.toNat_lt⟩
  · rintro ⟨hpos, hfits⟩
    exact ⟨UInt64.ofNat (storageBytes dtype dimensions), hpos, UInt64.toNat_ofNat_of_lt' hfits⟩

/-! ### Resolved shapes are positive -/

theorem toInt64_pos {word : UInt64} (hpos : 0 < word.toNat)
    (hfits : word.toNat ≤ 9223372036854775807) : 0 < word.toInt64 := by
  rw [Int64.lt_iff_toInt_lt, Int64.toInt_zero, ← Int64.toInt_toBitVec, UInt64.toBitVec_toInt64,
    BitVec.toInt_eq_toNat_of_lt (by rw [UInt64.toNat_toBitVec]; omega), UInt64.toNat_toBitVec]
  exact Int.natCast_pos.mpr hpos

theorem uint32_toInt64_pos {word : UInt32} (h : word ≠ 0) : 0 < word.toUInt64.toInt64 := by
  have hne : word.toNat ≠ 0 := fun hzero => h (UInt32.toNat_inj.mp hzero)
  have hlt : word.toNat < UInt32.size := word.toNat_lt
  rw [UInt32.size] at hlt
  refine toInt64_pos ?_ ?_ <;> rw [UInt32.toNat_toUInt64] <;> omega

theorem toNat_tailSampleCount (parameters : EngineShapeParameters) :
    (tailSampleCount parameters).toNat =
      parameters.codecFrameCount.toNat * parameters.codecHopLengthSamples.toNat := by
  rw [tailSampleCount, toNat_mul_of_lt] <;>
    rw [UInt32.toNat_toUInt64, UInt32.toNat_toUInt64]
  have hframes : parameters.codecFrameCount.toNat < UInt32.size := UInt32.toNat_lt _
  have hhop : parameters.codecHopLengthSamples.toNat < UInt32.size := UInt32.toNat_lt _
  exact Nat.lt_of_lt_of_le (Nat.mul_lt_mul'' hframes hhop) (by decide)

theorem resolveDynamicDimension_pos {role : EngineRole} {tensor : TensorSpec} {dimensionIndex : ℕ}
    {parameters : EngineShapeParameters} {dimension : Int64}
    (h : resolveDynamicDimension role tensor dimensionIndex parameters = .ok dimension) :
    0 < dimension := by
  unfold resolveDynamicDimension at h
  split_ifs at h with htext hcount htail hparameters htokens hpcm hsamples
  · cases h
    exact uint32_toInt64_pos hcount
  · cases h
    exact uint32_toInt64_pos fun hzero => hparameters (.inl hzero)
  · cases h
    have hframes : parameters.codecFrameCount.toNat ≠ 0 := fun hzero =>
      hparameters (.inl (UInt32.toNat_inj.mp hzero))
    have hhop : parameters.codecHopLengthSamples.toNat ≠ 0 := fun hzero =>
      hparameters (.inr (.inr (UInt32.toNat_inj.mp hzero)))
    rw [UInt64.not_lt, UInt64.le_iff_toNat_le] at hsamples
    refine toInt64_pos ?_ hsamples
    rw [toNat_tailSampleCount]
    exact Nat.mul_pos (Nat.pos_of_ne_zero hframes) (Nat.pos_of_ne_zero hhop)

/-- Every shape that the runtime resolves is one that `tensorStorageBytes` refuses only for its
size. -/
theorem resolveTensorShape_pos {role : EngineRole} {tensor : TensorSpec}
    {parameters : EngineShapeParameters} {resolved : List Int64}
    (h : resolveTensorShape role tensor parameters = .ok resolved) :
    ∀ dimension ∈ resolved, 0 < dimension := by
  intro dimension hmem
  obtain ⟨entry, -, hentry⟩ := exists_of_mem_mapM h hmem
  unfold resolveDimension at hentry
  split_ifs at hentry with hdynamic hstatic
  · exact resolveDynamicDimension_pos hentry
  · cases hentry
    exact Int64.not_le.mp hstatic

end MagpieTts.Runtime
