import MagpieTts.Library.BitFields

/-!
# Status words of the device-position attention

The plugin reports the first failure of the Main Decoder's self-attention in one `std::int32_t`
with packed fields; the runtime, another binary, takes it apart again. Words are `BitVec 32`,
which `static_cast` between `std::int32_t` and `std::uint32_t` leaves as they are.

## Main definitions

* `encodeMainDevicePositionStatus`, `decodeMainDevicePositionStatus`: the two sides.
* `UpdateFailure`: what the plugin encodes, and `UpdateFailure.encode`, its calls of the encoder.

## Main results

* `UpdateFailure.decode_encode`: the runtime reads back what the plugin encoded.
* `decode_valid_iff`: a word is valid exactly when a call of the encoder produces it.
-/

namespace MagpieTts.Plugins

open MagpieTts.Library

/-- A word of 32 bits, signed or not. -/
abbrev Word := BitVec 32

/-! ### The layout -/

def statusCategoryShift : ℕ := 28

def statusLayerShift : ℕ := 24

def statusOperationShift : ℕ := 22

def statusDetailMask : Word := 0x003fffff#32

def statusCategoryMask : Word := 0x7#32

def statusLayerMask : Word := 0xf#32

def statusOperationMask : Word := 0x3#32

def statusInvalidK : Word := 1#32

def statusCudaGraphUpdate : Word := 2#32

def statusOperationSelector : Word := 0#32

def statusOperationQk : Word := 1#32

def statusOperationPv : Word := 2#32

def mainDevicePositionLayerCount : ℕ := 12

/-! ### The plugin's encoder -/

def encodeMainDevicePositionStatus (category layerIndex operation detail : Word) : Word :=
  (category <<< statusCategoryShift) ||| (layerIndex <<< statusLayerShift) |||
    (operation <<< statusOperationShift) ||| (detail &&& statusDetailMask)

/-- The two matrix products whose kernels the bank exchanges. -/
inductive BankOperation where
  | qk
  | pv
  deriving DecidableEq, Repr

/-- The operation field of a failed update. -/
def BankOperation.status : BankOperation → Word
  | .qk => statusOperationQk
  | .pv => statusOperationPv

/-- A failure that the bank update reports. -/
inductive UpdateFailure where
  | invalidK
  | cudaGraphUpdate (operation : BankOperation) (status : Word)
  deriving DecidableEq, Repr

namespace UpdateFailure

def category : UpdateFailure → Word
  | invalidK => statusInvalidK
  | cudaGraphUpdate _ _ => statusCudaGraphUpdate

def operation : UpdateFailure → Word
  | invalidK => statusOperationSelector
  | cudaGraphUpdate operation _ => operation.status

def detail : UpdateFailure → Word
  | invalidK => 0#32
  | cudaGraphUpdate _ status => status

/-- The call of the encoder that reports the failure in a layer. -/
def encode (failure : UpdateFailure) (layerIndex : Word) : Word :=
  encodeMainDevicePositionStatus failure.category layerIndex failure.operation failure.detail

/-- The details that the encoder keeps whole: a CUDA error other than success that fits its
field. -/
def Encodable : UpdateFailure → Prop
  | invalidK => True
  | cudaGraphUpdate _ status => status ≠ 0#32 ∧ status.toNat < 2 ^ 22

end UpdateFailure

/-! ### The runtime's decoder -/

/-- A decoded word. The two enumerations have `std::uint32_t` under them and are written as the
words they are cast from. -/
@[ext] structure MainDevicePositionStatus where
  raw : Word
  category : Word
  layerIndex : Word
  operation : Word
  detail : Word
  valid : Bool
  deriving DecidableEq

def decodeMainDevicePositionStatus (raw : Word) : MainDevicePositionStatus :=
  let category := (raw >>> statusCategoryShift) &&& statusCategoryMask
  let layer := (raw >>> statusLayerShift) &&& statusLayerMask
  let operation := (raw >>> statusOperationShift) &&& statusOperationMask
  let detail := raw &&& statusDetailMask
  let commonValid := decide (0 < raw.toInt) && decide (layer.toNat < mainDevicePositionLayerCount)
  let invalidK := category == statusInvalidK && operation == statusOperationSelector &&
    detail == 0#32
  let cudaUpdate := category == statusCudaGraphUpdate &&
    (operation == statusOperationQk || operation == statusOperationPv) && detail != 0#32
  { raw, category, layerIndex := layer, operation, detail,
    valid := commonValid && (invalidK || cudaUpdate) }

/-! ### Round trip -/

/-- Fields that keep to their bits do not overlap: the value of the word is their sum. -/
theorem encode_toNat {category layerIndex operation detail : Word} (hcategory : category.toNat < 8)
    (hlayer : layerIndex.toNat < 16) (hoperation : operation.toNat < 4)
    (hdetail : detail.toNat < 2 ^ 22) :
    (encodeMainDevicePositionStatus category layerIndex operation detail).toNat =
      category.toNat * 2 ^ 28 +
        (layerIndex.toNat * 2 ^ 24 + (operation.toNat * 2 ^ 22 + detail.toNat)) := by
  have hmask : (detail &&& statusDetailMask).toNat = detail.toNat := by
    rw [toNat_and_mask (show statusDetailMask.toNat = 2 ^ 22 - 1 from rfl),
      Nat.mod_eq_of_lt hdetail]
  have hlow : (operation <<< 22 ||| (detail &&& statusDetailMask)).toNat =
      operation.toNat * 2 ^ 22 + detail.toNat := by
    rw [toNat_or_shiftLeft (by omega) (by omega), hmask]
  have hmiddle :
      (layerIndex <<< 24 ||| (operation <<< 22 ||| (detail &&& statusDetailMask))).toNat =
        layerIndex.toNat * 2 ^ 24 + (operation.toNat * 2 ^ 22 + detail.toNat) := by
    rw [toNat_or_shiftLeft (by omega) (by omega), hlow]
  rw [encodeMainDevicePositionStatus, BitVec.or_assoc, BitVec.or_assoc, statusCategoryShift,
    statusLayerShift, statusOperationShift, toNat_or_shiftLeft (by omega) (by omega), hmiddle]

theorem decode_category_toNat (raw : Word) :
    (decodeMainDevicePositionStatus raw).category.toNat = raw.toNat / 2 ^ 28 % 2 ^ 3 :=
  toNat_ushiftRight_and rfl

theorem decode_layerIndex_toNat (raw : Word) :
    (decodeMainDevicePositionStatus raw).layerIndex.toNat = raw.toNat / 2 ^ 24 % 2 ^ 4 :=
  toNat_ushiftRight_and rfl

theorem decode_operation_toNat (raw : Word) :
    (decodeMainDevicePositionStatus raw).operation.toNat = raw.toNat / 2 ^ 22 % 2 ^ 2 :=
  toNat_ushiftRight_and rfl

theorem decode_detail_toNat (raw : Word) :
    (decodeMainDevicePositionStatus raw).detail.toNat = raw.toNat % 2 ^ 22 :=
  toNat_and_mask rfl

theorem decode_valid (raw : Word) :
    (decodeMainDevicePositionStatus raw).valid = true ↔
      0 < raw.toInt ∧
        (decodeMainDevicePositionStatus raw).layerIndex.toNat < mainDevicePositionLayerCount ∧
          ((decodeMainDevicePositionStatus raw).category = statusInvalidK ∧
              (decodeMainDevicePositionStatus raw).operation = statusOperationSelector ∧
              (decodeMainDevicePositionStatus raw).detail = 0#32 ∨
            (decodeMainDevicePositionStatus raw).category = statusCudaGraphUpdate ∧
              ((decodeMainDevicePositionStatus raw).operation = statusOperationQk ∨
                (decodeMainDevicePositionStatus raw).operation = statusOperationPv) ∧
              (decodeMainDevicePositionStatus raw).detail ≠ 0#32) := by
  simp only [decodeMainDevicePositionStatus, Bool.and_eq_true, Bool.or_eq_true, decide_eq_true_iff,
    beq_iff_eq, bne_iff_ne, and_assoc]

/-- The sign bit set aside, a word is the encoding of its decoded fields. -/
theorem encode_decode {raw : Word} (hraw : raw.toNat < 2 ^ 31) :
    encodeMainDevicePositionStatus (decodeMainDevicePositionStatus raw).category
      (decodeMainDevicePositionStatus raw).layerIndex
      (decodeMainDevicePositionStatus raw).operation
      (decodeMainDevicePositionStatus raw).detail = raw := by
  have hcategory := decode_category_toNat raw
  have hlayer := decode_layerIndex_toNat raw
  have hoperation := decode_operation_toNat raw
  have hdetail := decode_detail_toNat raw
  apply BitVec.eq_of_toNat_eq
  rw [encode_toNat (by omega) (by omega) (by omega) (by omega)]
  omega

namespace UpdateFailure

/-- The category of a failure is in the word, so that a failure is never reported as success. -/
theorem encode_ne_zero (failure : UpdateFailure) (layerIndex : Word) :
    failure.encode layerIndex ≠ 0#32 := by
  intro hzero
  rw [encode, encodeMainDevicePositionStatus, BitVec.or_eq_zero_iff, BitVec.or_eq_zero_iff,
    BitVec.or_eq_zero_iff] at hzero
  have hcategory : failure.category <<< statusCategoryShift = 0#32 := hzero.1.1.1
  cases failure with
  | invalidK => exact absurd hcategory (by decide : statusInvalidK <<< 28 ≠ 0#32)
  | cudaGraphUpdate _ _ => exact absurd hcategory (by decide : statusCudaGraphUpdate <<< 28 ≠ 0#32)

variable {failure : UpdateFailure}

theorem category_toNat_lt (failure : UpdateFailure) : failure.category.toNat < 8 := by
  cases failure with
  | invalidK => exact (by decide : statusInvalidK.toNat < 8)
  | cudaGraphUpdate _ _ => exact (by decide : statusCudaGraphUpdate.toNat < 8)

theorem operation_toNat_lt (failure : UpdateFailure) : failure.operation.toNat < 4 := by
  cases failure with
  | invalidK => exact (by decide : statusOperationSelector.toNat < 4)
  | cudaGraphUpdate operation _ =>
    cases operation with
    | qk => exact (by decide : statusOperationQk.toNat < 4)
    | pv => exact (by decide : statusOperationPv.toNat < 4)

theorem Encodable.detail_lt (h : failure.Encodable) : failure.detail.toNat < 2 ^ 22 := by
  cases failure with
  | invalidK => decide
  | cudaGraphUpdate operation status => exact h.2

theorem encode_toNat {layerIndex : Word} (h : failure.Encodable) (hlayer : layerIndex.toNat < 16) :
    (failure.encode layerIndex).toNat = failure.category.toNat * 2 ^ 28 +
      (layerIndex.toNat * 2 ^ 24 + (failure.operation.toNat * 2 ^ 22 + failure.detail.toNat)) :=
  Plugins.encode_toNat failure.category_toNat_lt hlayer failure.operation_toNat_lt h.detail_lt

/-- Encoded failures are positive numbers. -/
theorem encode_toInt_pos {layerIndex : Word} (h : failure.Encodable)
    (hlayer : layerIndex.toNat < 16) : 0 < (failure.encode layerIndex).toInt := by
  have hword := encode_toNat h hlayer
  have hdetail := h.detail_lt
  have hoperation := failure.operation_toNat_lt
  have hcategory : failure.category.toNat = 1 ∨ failure.category.toNat = 2 := by
    cases failure with
    | invalidK => exact .inl rfl
    | cudaGraphUpdate _ _ => exact .inr rfl
  rw [BitVec.toInt_eq_toNat_of_lt (by omega)]
  omega

/-- **Round trip.** The runtime finds an encoded failure valid, with the category, the layer, the
operation and the detail that the plugin put in. -/
theorem decode_encode {layerIndex : Word} (h : failure.Encodable)
    (hlayer : layerIndex.toNat < mainDevicePositionLayerCount) :
    decodeMainDevicePositionStatus (failure.encode layerIndex) =
      { raw := failure.encode layerIndex
        category := failure.category
        layerIndex
        operation := failure.operation
        detail := failure.detail
        valid := true } := by
  rw [mainDevicePositionLayerCount] at hlayer
  have hlayer' : layerIndex.toNat < 16 := by omega
  have hword := encode_toNat h hlayer'
  have hdetail := h.detail_lt
  have hoperation := failure.operation_toNat_lt
  have hcategory := failure.category_toNat_lt
  have hpos := encode_toInt_pos h hlayer'
  generalize failure.encode layerIndex = raw at *
  have hcategory' : (decodeMainDevicePositionStatus raw).category = failure.category := by
    apply BitVec.eq_of_toNat_eq
    rw [decode_category_toNat]
    omega
  have hlayerIndex : (decodeMainDevicePositionStatus raw).layerIndex = layerIndex := by
    apply BitVec.eq_of_toNat_eq
    rw [decode_layerIndex_toNat]
    omega
  have hoperation' : (decodeMainDevicePositionStatus raw).operation = failure.operation := by
    apply BitVec.eq_of_toNat_eq
    rw [decode_operation_toNat]
    omega
  have hdetail' : (decodeMainDevicePositionStatus raw).detail = failure.detail := by
    apply BitVec.eq_of_toNat_eq
    rw [decode_detail_toNat]
    omega
  refine MainDevicePositionStatus.ext rfl hcategory' hlayerIndex hoperation' hdetail' ?_
  rw [decode_valid, hcategory', hlayerIndex, hoperation', hdetail']
  refine ⟨hpos, hlayer, ?_⟩
  cases failure with
  | invalidK => exact .inl ⟨rfl, rfl, rfl⟩
  | cudaGraphUpdate operation status =>
    cases operation with
    | qk => exact .inr ⟨rfl, .inl rfl, h.1⟩
    | pv => exact .inr ⟨rfl, .inr rfl, h.1⟩

end UpdateFailure

theorem toNat_lt_of_toInt_pos {raw : Word} (h : 0 < raw.toInt) : raw.toNat < 2 ^ 31 := by
  rw [BitVec.toInt_eq_toNat_cond] at h
  split at h <;> omega

/-- **Malformed words.** A word is valid exactly when the encoder produces it for a layer of the
decoder and a failure that fits its fields. -/
theorem decode_valid_iff (raw : Word) :
    (decodeMainDevicePositionStatus raw).valid = true ↔
      ∃ (layerIndex : Word) (failure : UpdateFailure),
        layerIndex.toNat < mainDevicePositionLayerCount ∧ failure.Encodable ∧
          raw = failure.encode layerIndex := by
  constructor
  · intro hvalid
    obtain ⟨hpos, hlayer, hfields⟩ := (decode_valid raw).mp hvalid
    have hraw := encode_decode (toNat_lt_of_toInt_pos hpos)
    have hdetail : (decodeMainDevicePositionStatus raw).detail.toNat < 2 ^ 22 := by
      rw [decode_detail_toNat]
      omega
    refine ⟨(decodeMainDevicePositionStatus raw).layerIndex, ?_⟩
    obtain ⟨hcategory, hoperation, hzero⟩ | ⟨hcategory, hoperation | hoperation, hdetail'⟩ :=
      hfields
    · rw [hcategory, hoperation, hzero] at hraw
      exact ⟨.invalidK, hlayer, trivial, hraw.symm⟩
    · rw [hcategory, hoperation] at hraw
      exact ⟨.cudaGraphUpdate .qk _, hlayer, ⟨hdetail', hdetail⟩, hraw.symm⟩
    · rw [hcategory, hoperation] at hraw
      exact ⟨.cudaGraphUpdate .pv _, hlayer, ⟨hdetail', hdetail⟩, hraw.symm⟩
  · rintro ⟨layerIndex, failure, hlayer, hencodable, rfl⟩
    rw [UpdateFailure.decode_encode hencodable hlayer]

end MagpieTts.Plugins
