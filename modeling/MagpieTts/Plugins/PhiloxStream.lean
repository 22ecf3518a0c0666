import Mathlib.Logic.Function.Iterate
import Mathlib.Tactic.SplitIfs
import MagpieTts.Library.BitFields
import MagpieTts.Library.Philox

/-!
# The random stream of the sampling kernel

`sampling_kernel` of `local_ar_plugins.cu` draws one number for each token of a call, at an offset
that the counter of the call and the token determine. The exporter draws the same numbers in
`philox_uniform` of `local_ar_wrapper.py`, on signed 64-bit integers that wrap.

## Main definitions

* `philoxWord`, `philoxMagnitude`: the number of an offset as the kernel computes it.
* `exporterMagnitude`: the number as the exporter computes it.
* `samplingOffset`, `updatedCounter`: the offset of a token and the counter of the next call.

## Main results

* `philoxWord_eq`: the kernel computes the first word of a standard block.
* `exporterMagnitude_eq`: the exporter computes the number of the kernel.
* `samplingOffset_injective`: calls with a valid counter draw at distinct offsets.
-/

namespace MagpieTts.Plugins

open MagpieTts.Library

/-! ### The kernel -/

/-- `__umulhi`: the high word of the 64-bit product. -/
def umulhi (a b : BitVec 32) : BitVec 32 :=
  ((a.setWidth 64 * b.setWidth 64) >>> 32).setWidth 32

/-- The variables of the loop of `philox_word`. -/
structure PhiloxVariables (width : ℕ) where
  c0 : BitVec width
  c1 : BitVec width
  c2 : BitVec width
  c3 : BitVec width
  k0 : BitVec width
  k1 : BitVec width
  deriving DecidableEq

/-- The body of the loop of `philox_word`. -/
def philoxRound (s : PhiloxVariables 32) : PhiloxVariables 32 where
  c0 := umulhi 0xCD9E8D57#32 s.c2 ^^^ s.c1 ^^^ s.k0
  c1 := 0xCD9E8D57#32 * s.c2
  c2 := umulhi 0xD2511F53#32 s.c0 ^^^ s.c3 ^^^ s.k1
  c3 := 0xD2511F53#32 * s.c0
  k0 := s.k0 + 0x9E3779B9#32
  k1 := s.k1 + 0xBB67AE85#32

/-- The variables in front of the loop. -/
def philoxStart (seed : BitVec 32) (offset : BitVec 64) : PhiloxVariables 32 where
  c0 := offset.setWidth 32
  c1 := (offset >>> 32).setWidth 32
  c2 := 0
  c3 := 0
  k0 := seed
  k1 := 0

/-- `philox_word`. -/
def philoxWord (seed : BitVec 32) (offset : BitVec 64) : BitVec 32 :=
  (philoxRound^[10] (philoxStart seed offset)).c0

/-- The integer that `philox_uniform` scales, from the word read as a `std::int32_t`. -/
def philoxMagnitude (word : BitVec 32) : ℤ :=
  if word.toInt < 0 then -word.toInt - 1 else word.toInt

theorem umulhi_eq (a b : BitVec 32) : umulhi a b = mulHi a b := by
  have hproduct : a.toNat * b.toNat < 18446744073709551616 := Nat.mul_lt_mul'' a.isLt b.isLt
  have ha : (a.setWidth 64).toNat = a.toNat := BitVec.toNat_setWidth_of_le (by decide)
  have hb : (b.setWidth 64).toNat = b.toNat := BitVec.toNat_setWidth_of_le (by decide)
  apply BitVec.eq_of_toNat_eq
  rw [umulhi, mulHi, BitVec.toNat_setWidth, BitVec.toNat_ushiftRight, BitVec.toNat_mul, ha, hb,
    BitVec.toNat_ofNat, Nat.shiftRight_eq_div_pow, Nat.mod_eq_of_lt hproduct]

/-- The counter and the key in the variables of the kernel. -/
def blockVariables (key : PhiloxKey) (counter : PhiloxCounter) : PhiloxVariables 32 :=
  ⟨counter.c0, counter.c1, counter.c2, counter.c3, key.k0, key.k1⟩

theorem philoxRound_block (key : PhiloxKey) (counter : PhiloxCounter) :
    philoxRound (blockVariables key counter) =
      blockVariables (philox4x32.bump key) (philox4x32.round key counter) := by
  simp only [philoxRound, blockVariables, umulhi_eq]
  rfl

theorem philoxRound_iterate (n : ℕ) (key : PhiloxKey) (counter : PhiloxCounter) :
    (philoxRound^[n] (blockVariables key counter)).c0 =
      (philox4x32.rounds n key counter).c0 := by
  induction n generalizing key counter with
  | zero => rfl
  | succ n ih =>
    rw [Function.iterate_succ_apply, philoxRound_block, ih]
    rfl

/-- The counter of an offset: its two words, and zeros. -/
def offsetCounter (offset : BitVec 64) : PhiloxCounter :=
  ⟨offset.setWidth 32, (offset >>> 32).setWidth 32, 0, 0⟩

/-- The kernel computes the first word of the standard block of ten rounds. -/
theorem philoxWord_eq (seed : BitVec 32) (offset : BitVec 64) :
    philoxWord seed offset = (philox4x32.rounds 10 ⟨seed, 0⟩ (offsetCounter offset)).c0 :=
  philoxRound_iterate 10 ⟨seed, 0⟩ (offsetCounter offset)

/-! ### The exporter -/

/-- `UINT32_MASK`. -/
def uint32Mask : BitVec 64 := 0xFFFFFFFF#64

theorem uint32Mask_toNat : uint32Mask.toNat = 2 ^ 32 - 1 := rfl

/-- `_umulhi_u32`: the product wraps, and the shift is arithmetic. -/
def umulhiU32 (left right : BitVec 64) : BitVec 64 :=
  (left * right).sshiftRight 32 &&& uint32Mask

/-- The body of the loop of the exporter's `philox_uniform`. -/
def exporterRound (s : PhiloxVariables 64) : PhiloxVariables 64 where
  c0 := umulhiU32 s.c2 0xCD9E8D57#64 ^^^ s.c1 ^^^ s.k0
  c1 := s.c2 * 0xCD9E8D57#64 &&& uint32Mask
  c2 := umulhiU32 s.c0 0xD2511F53#64 ^^^ s.c3 ^^^ s.k1
  c3 := s.c0 * 0xD2511F53#64 &&& uint32Mask
  k0 := s.k0 + 0x9E3779B9#64 &&& uint32Mask
  k1 := s.k1 + 0xBB67AE85#64 &&& uint32Mask

/-- The variables in front of the loop. -/
def exporterStart (seed offset : BitVec 64) : PhiloxVariables 64 where
  c0 := offset &&& uint32Mask
  c1 := offset.sshiftRight 32 &&& uint32Mask
  c2 := 0
  c3 := 0
  k0 := seed &&& uint32Mask
  k1 := 0

/-- The `magnitude` of the exporter's `philox_uniform`. -/
def exporterMagnitude (seed offset : BitVec 64) : ℤ :=
  let c0 := (exporterRound^[10] (exporterStart seed offset)).c0
  let signed := if BitVec.sle 0x80000000#64 c0 then c0 - 0x100000000#64 else c0
  let magnitude := if BitVec.slt signed 0#64 then -signed - 1#64 else signed
  magnitude.toInt

/-- The exporter keeps the words of the kernel in its wider integers. -/
def PhiloxVariables.widen (s : PhiloxVariables 32) : PhiloxVariables 64 where
  c0 := s.c0.setWidth 64
  c1 := s.c1.setWidth 64
  c2 := s.c2.setWidth 64
  c3 := s.c3.setWidth 64
  k0 := s.k0.setWidth 64
  k1 := s.k1.setWidth 64

theorem toNat_widen (word : BitVec 32) : (word.setWidth 64).toNat = word.toNat :=
  BitVec.toNat_setWidth_of_le (by decide)

/-- The mask keeps the low word. -/
theorem and_uint32Mask (word : BitVec 64) :
    word &&& uint32Mask = (word.setWidth 32).setWidth 64 := by
  apply BitVec.eq_of_toNat_eq
  rw [toNat_and_mask uint32Mask_toNat, toNat_widen, BitVec.toNat_setWidth]

/-- Behind the mask it does not matter that the shift is arithmetic. -/
theorem sshiftRight_and_uint32Mask (word : BitVec 64) :
    word.sshiftRight 32 &&& uint32Mask = ((word >>> 32).setWidth 32).setWidth 64 := by
  rw [and_uint32Mask]
  congr 1
  ext i hi
  have hlow : ¬ 64 ≤ i := by omega
  have hshifted : 32 + i < 64 := by omega
  simp only [BitVec.getElem_setWidth, BitVec.getLsbD_sshiftRight, BitVec.getLsbD_ushiftRight,
    hlow, hshifted, decide_false, Bool.not_false, Bool.true_and, if_true]

theorem mul_and_uint32Mask (a b : BitVec 32) :
    a.setWidth 64 * b.setWidth 64 &&& uint32Mask = (b * a).setWidth 64 := by
  apply BitVec.eq_of_toNat_eq
  rw [toNat_and_mask uint32Mask_toNat, toNat_widen, BitVec.toNat_mul, BitVec.toNat_mul,
    toNat_widen, toNat_widen, Nat.mul_comm b.toNat, Nat.mod_mod_of_dvd _ (by decide)]

theorem add_and_uint32Mask (a b : BitVec 32) :
    a.setWidth 64 + b.setWidth 64 &&& uint32Mask = (a + b).setWidth 64 := by
  apply BitVec.eq_of_toNat_eq
  rw [toNat_and_mask uint32Mask_toNat, toNat_widen, BitVec.toNat_add, BitVec.toNat_add,
    toNat_widen, toNat_widen, Nat.mod_mod_of_dvd _ (by decide)]

theorem umulhiU32_widen (a b : BitVec 32) :
    umulhiU32 (a.setWidth 64) (b.setWidth 64) = (umulhi b a).setWidth 64 := by
  rw [umulhiU32, sshiftRight_and_uint32Mask, umulhi, BitVec.mul_comm]

/-- A round of the exporter is a round of the kernel. -/
theorem exporterRound_widen (s : PhiloxVariables 32) :
    exporterRound s.widen = (philoxRound s).widen := by
  have hmultiplier0 : 0xD2511F53#64 = (0xD2511F53#32).setWidth 64 := rfl
  have hmultiplier1 : 0xCD9E8D57#64 = (0xCD9E8D57#32).setWidth 64 := rfl
  have hincrement0 : 0x9E3779B9#64 = (0x9E3779B9#32).setWidth 64 := rfl
  have hincrement1 : 0xBB67AE85#64 = (0xBB67AE85#32).setWidth 64 := rfl
  simp only [exporterRound, PhiloxVariables.widen, philoxRound, hmultiplier0, hmultiplier1,
    hincrement0, hincrement1, umulhiU32_widen, mul_and_uint32Mask, add_and_uint32Mask,
    BitVec.setWidth_xor]

theorem exporterStart_widen (seed : BitVec 32) (offset : BitVec 64) :
    exporterStart (seed.setWidth 64) offset = (philoxStart seed offset).widen := by
  have hseed : (seed.setWidth 64).setWidth 32 = seed := by
    rw [BitVec.setWidth_setWidth_of_le _ (by decide), BitVec.setWidth_eq]
  rw [exporterStart, sshiftRight_and_uint32Mask, and_uint32Mask, and_uint32Mask, hseed]
  rfl

/-- The exporter's magnitude of a word of the kernel. -/
theorem widen_magnitude (word : BitVec 32) :
    (let signed := if BitVec.sle 0x80000000#64 (word.setWidth 64) then
        word.setWidth 64 - 0x100000000#64 else word.setWidth 64
      if BitVec.slt signed 0#64 then -signed - 1#64 else signed).toInt = philoxMagnitude word := by
  have hlt := word.isLt
  have hnat := toNat_widen word
  have hwide : (word.setWidth 64).toInt = word.toNat := by
    rw [BitVec.toInt_eq_toNat_cond, hnat, if_pos (by omega)]
  have hword := BitVec.toInt_eq_toNat_cond word
  rw [philoxMagnitude]
  rcases Nat.lt_or_ge word.toNat 2147483648 with hlow | hhigh
  · have hsmall : ¬ (BitVec.sle 0x80000000#64 (word.setWidth 64) = true) := by
      rw [BitVec.sle_iff_toInt_le, hwide]
      exact Int.not_le.mpr (Int.ofNat_lt.mpr hlow)
    have hpositive : ¬ (BitVec.slt (word.setWidth 64) 0#64 = true) := by
      rw [BitVec.slt_iff_toInt_lt, hwide]
      exact Int.not_lt.mpr (Int.natCast_nonneg _)
    simp only [if_neg hsmall, if_neg hpositive]
    rw [if_pos (by omega)] at hword
    rw [hwide, hword, if_neg (by omega)]
  · have hlarge : BitVec.sle 0x80000000#64 (word.setWidth 64) = true := by
      rw [BitVec.sle_iff_toInt_le, hwide]
      exact Int.ofNat_le.mpr hhigh
    -- the word lies in the upper half, so that the difference is negative
    have hdifference : (word.setWidth 64 - 0x100000000#64).toNat =
        word.toNat + 18446744069414584320 := by bv_omega
    have hnegative : BitVec.slt (word.setWidth 64 - 0x100000000#64) 0#64 = true := by
      rw [BitVec.slt_iff_toInt_lt, BitVec.toInt_eq_toNat_cond, hdifference, if_neg (by omega)]
      show _ < (0 : ℤ)
      omega
    have hmagnitude : (-(word.setWidth 64 - 0x100000000#64) - 1#64).toNat =
        4294967295 - word.toNat := by bv_omega
    simp only [if_pos hlarge, if_pos hnegative]
    rw [if_neg (by omega)] at hword
    rw [BitVec.toInt_eq_toNat_cond, hmagnitude, if_pos (by omega), hword, if_pos (by omega)]
    omega

/-- The exporter computes the number of the kernel. -/
theorem exporterMagnitude_eq (seed : BitVec 32) (offset : BitVec 64) :
    exporterMagnitude (seed.setWidth 64) offset = philoxMagnitude (philoxWord seed offset) := by
  have hrounds : exporterRound^[10] (exporterStart (seed.setWidth 64) offset) =
      (philoxRound^[10] (philoxStart seed offset)).widen := by
    rw [exporterStart_widen]
    exact (Function.Semiconj.iterate_right (fun s => (exporterRound_widen s).symm) 10 _).symm
  rw [exporterMagnitude, hrounds]
  exact widen_magnitude _

/-! ### Counters and offsets -/

/-- `kPhiloxStride`. -/
def kPhiloxStride : ℤ := 2048

/-- `kMaximumCounter`. -/
def kMaximumCounter : ℤ := (9223372036854775807 - (kPhiloxStride - 1)) / kPhiloxStride

/-- `kLocalArVocabularySize`. -/
def kLocalArVocabularySize : ℕ := 2024

/-- The scalar inputs of a row of `sampling_kernel`. -/
structure SamplingScalars where
  unfinished : Bool
  finished : Bool
  forbidEos : Bool
  seedValue : ℤ
  counterValue : ℤ

/-- `seed_valid`. -/
def seedValid (seedValue : ℤ) : Bool := 0 ≤ seedValue && seedValue < 4294967296

/-- `counter_valid`. -/
def counterValid (counterValue : ℤ) : Bool :=
  0 ≤ counterValue && counterValue ≤ kMaximumCounter

/-- What the scalar inputs write to `invalid`. -/
def SamplingScalars.invalid (scalars : SamplingScalars) : Bool :=
  (scalars.unfinished && scalars.finished) || (scalars.finished && scalars.forbidEos) ||
    (!seedValid scalars.seedValue || !counterValid scalars.counterValue)

/-- `invalid_rows`, with what the candidates of the row write to `invalid`. -/
def invalidRow (scalars : SamplingScalars) (candidatesInvalid : Bool) : Bool :=
  scalars.invalid || candidatesInvalid

/-- `offset_base`. -/
def offsetBase (counterValue : ℤ) : BitVec 64 :=
  if counterValid counterValue then BitVec.ofInt 64 counterValue * BitVec.ofInt 64 kPhiloxStride
  else 0#64

/-- The offset at which a call draws the number of a token. -/
def samplingOffset (counterValue : ℤ) (token : ℕ) : BitVec 64 :=
  offsetBase counterValue + BitVec.ofNat 64 token

/-- `updated_rng_counter`. -/
def updatedCounter (counterValue : ℤ) : ℤ :=
  if counterValid counterValue then counterValue + 1 else counterValue

/-- The counter of a call in a chain of calls, each with the counter that the one before has
left. -/
def counterOfCall (start : ℤ) (call : ℕ) : ℤ := updatedCounter^[call] start

theorem counterValid_iff {counterValue : ℤ} :
    counterValid counterValue = true ↔ 0 ≤ counterValue ∧ counterValue ≤ 4503599627370495 := by
  have hmaximum : kMaximumCounter = 4503599627370495 := rfl
  rw [counterValid, Bool.and_eq_true, decide_eq_true_iff, decide_eq_true_iff, hmaximum]

/-- The offset of a token of a call with a valid counter. -/
theorem toNat_samplingOffset {counterValue : ℤ} (hvalid : counterValid counterValue = true)
    {token : ℕ} (htoken : token < kLocalArVocabularySize) :
    ((samplingOffset counterValue token).toNat : ℤ) = counterValue * 2048 + token := by
  obtain ⟨hlow, hhigh⟩ := counterValid_iff.mp hvalid
  obtain ⟨counter, rfl⟩ := Int.eq_ofNat_of_zero_le hlow
  have hcounter : counter ≤ 4503599627370495 := by omega
  rw [kLocalArVocabularySize] at htoken
  have hword : BitVec.ofInt 64 (counter : ℤ) = BitVec.ofNat 64 counter := BitVec.ofInt_natCast ..
  have hstride : BitVec.ofInt 64 kPhiloxStride = 2048#64 := rfl
  rw [samplingOffset, offsetBase, if_pos hvalid, hword, hstride, BitVec.toNat_add,
    BitVec.toNat_mul, BitVec.toNat_ofNat, BitVec.toNat_ofNat, BitVec.toNat_ofNat]
  omega

theorem counterOfCall_succ (start : ℤ) (call : ℕ) :
    counterOfCall start (call + 1) = updatedCounter (counterOfCall start call) :=
  Function.iterate_succ_apply' ..

/-- A chain that reaches a valid counter has grown by one with every call. -/
theorem counterOfCall_of_valid {start : ℤ} {call : ℕ}
    (hvalid : counterValid (counterOfCall start call) = true) :
    counterOfCall start call = start + call := by
  induction call with
  | zero => exact (Int.add_zero start).symm
  | succ call ih =>
    rw [counterOfCall_succ] at hvalid ⊢
    have hbefore : counterValid (counterOfCall start call) = true := by
      by_contra hinvalid
      rw [updatedCounter, if_neg hinvalid] at hvalid
      exact hinvalid hvalid
    rw [updatedCounter, if_pos hbefore, ih hbefore]
    exact Int.add_assoc ..

/-- The calls of a chain that have a valid counter draw at distinct offsets. -/
theorem samplingOffset_injective {start : ℤ} {call call' token token' : ℕ}
    (hvalid : counterValid (counterOfCall start call) = true)
    (hvalid' : counterValid (counterOfCall start call') = true)
    (htoken : token < kLocalArVocabularySize) (htoken' : token' < kLocalArVocabularySize)
    (heq : samplingOffset (counterOfCall start call) token =
      samplingOffset (counterOfCall start call') token') :
    call = call' ∧ token = token' := by
  have hoffset := toNat_samplingOffset hvalid htoken
  have hoffset' := toNat_samplingOffset hvalid' htoken'
  rw [heq, hoffset', counterOfCall_of_valid hvalid, counterOfCall_of_valid hvalid'] at hoffset
  rw [kLocalArVocabularySize] at htoken htoken'
  omega

/-! ### The stream -/

/-- The kernel and the exporter draw the same number at every offset, the first word of the standard
block of ten rounds, and the rounds are injective. In a chain of calls from any counter, the calls
with a valid counter draw at distinct offsets below `2 ^ 63` and move the counter by one. A call
with another counter, in particular one above the maximum, reports its row and leaves the counter;
its numbers are those of the offsets from zero. -/
theorem philox_streams (start : ℤ) :
    (∀ (seed : BitVec 32) (offset : BitVec 64),
        philoxWord seed offset = (philox4x32.rounds 10 ⟨seed, 0⟩ (offsetCounter offset)).c0 ∧
          exporterMagnitude (seed.setWidth 64) offset =
            philoxMagnitude (philoxWord seed offset)) ∧
      (∀ key, Function.Injective (philox4x32.rounds 10 key)) ∧
      (∀ call, counterValid (counterOfCall start call) = true →
        counterOfCall start (call + 1) = counterOfCall start call + 1 ∧
          ∀ token < kLocalArVocabularySize,
            (samplingOffset (counterOfCall start call) token).toNat < 9223372036854775808) ∧
      (∀ call call', counterValid (counterOfCall start call) = true →
        counterValid (counterOfCall start call') = true →
        ∀ token < kLocalArVocabularySize, ∀ token' < kLocalArVocabularySize,
          samplingOffset (counterOfCall start call) token =
            samplingOffset (counterOfCall start call') token' → call = call' ∧ token = token') ∧
      ∀ scalars : SamplingScalars, ¬ (counterValid scalars.counterValue = true) →
        (∀ candidatesInvalid, invalidRow scalars candidatesInvalid = true) ∧
          updatedCounter scalars.counterValue = scalars.counterValue ∧
          ∀ token, samplingOffset scalars.counterValue token = BitVec.ofNat 64 token := by
  refine ⟨fun seed offset => ⟨philoxWord_eq seed offset, exporterMagnitude_eq seed offset⟩,
    philox4x32.rounds_injective 10, fun call hvalid => ⟨?_, fun token htoken => ?_⟩,
    fun call call' hvalid hvalid' token htoken token' htoken' =>
      samplingOffset_injective hvalid hvalid' htoken htoken',
    fun scalars hinvalid => ⟨fun candidatesInvalid => ?_, if_neg hinvalid, fun token => ?_⟩⟩
  · rw [counterOfCall_succ, updatedCounter, if_pos hvalid]
  · have hoffset := toNat_samplingOffset hvalid htoken
    obtain ⟨hlow, hhigh⟩ := counterValid_iff.mp hvalid
    rw [kLocalArVocabularySize] at htoken
    omega
  · rw [invalidRow, SamplingScalars.invalid, Bool.eq_false_iff.mpr hinvalid]
    simp
  · rw [samplingOffset, offsetBase, if_neg hinvalid, BitVec.zero_add]

/-- Two calls with a counter above the maximum draw at the same offsets. -/
theorem not_samplingOffset_injective :
    ¬ ∀ (start : ℤ) (call call' token token' : ℕ), token < kLocalArVocabularySize →
      token' < kLocalArVocabularySize →
      samplingOffset (counterOfCall start call) token =
        samplingOffset (counterOfCall start call') token' → call = call' ∧ token = token' := by
  intro h
  have hequal := h (kMaximumCounter + 1) 0 1 5 5 (by decide) (by decide) (by decide)
  exact absurd hequal.1 (by decide)

end MagpieTts.Plugins
