import MagpieTts.Api.RequestStart
import MagpieTts.Rust.RequestSnapshot
import Mathlib.Data.List.GetD
import Mathlib.Algebra.Group.Nat.Defs

/-!
# The request validation of the Rust wrapper

The worker validates a request against the properties of the model before it admits the request,
`Session::start_request` checks it once more, and `request_start` of the native library validates
the descriptor that is built from it. What the worker accepts, the native validation accepts.

## Main definitions

* `ModelInfo`, `modelInfo`: the properties that the wrapper accepts from the native library.
* `validateSynthesisRequest`: the validation of the worker.
* `startRequestChecks`, `requestDesc`: the checks of `Session::start_request` and its descriptor.

## Main results

* `validDesc_requestDesc`: the descriptor of a request that the worker accepts is well formed.
* `requestValidation_agrees`: the three layers agree.
-/

namespace MagpieTts.Rust

open MagpieTts.Api MagpieTts.Library MagpieTts.Runtime

/-! ### The accepted properties -/

structure ModelInfo where
  tokenizerVocabularySize : UInt32
  textEmbeddingRows : UInt32
  bosTokenId : UInt32
  eosTokenId : UInt32
  japaneseGlobalPadTokenId : UInt32
  maximumTextTokens : ℕ
  maximumAudioFrames : ℕ
  sampleRateHz : ℕ
  channels : ℕ
  codecFrameSamples : ℕ
  initialFrames : ℕ
  steadyFrames : ℕ
  tailMinFrames : ℕ
  tailMaxFrames : ℕ
  tokenizerIdentitySha256 : List UInt8

/-- `i32::MAX as u32`. -/
def maximumInt32 : UInt32 := 2147483647

/-- The refusals of `Model::info` about the tokens of a model. -/
def TokensViolate (raw : ModelInfoV1) : Prop :=
  raw.tokenizerVocabularySize = 0 ∨ maximumInt32 < raw.tokenizerVocabularySize ∨
    raw.textEmbeddingRows ≤ raw.tokenizerVocabularySize ∨ maximumInt32 < raw.textEmbeddingRows ∨
    raw.bosTokenId < raw.tokenizerVocabularySize ∨ raw.textEmbeddingRows ≤ raw.bosTokenId ∨
    raw.eosTokenId < raw.tokenizerVocabularySize ∨ raw.textEmbeddingRows ≤ raw.eosTokenId ∨
    raw.bosTokenId = raw.eosTokenId ∨
    raw.tokenizerVocabularySize ≤ raw.japaneseGlobalPadTokenId ∨
    raw.maximumTextTokens = 0 ∨ maximumTextTokensV1 < raw.maximumTextTokens

instance (raw : ModelInfoV1) : Decidable (TokensViolate raw) := by
  unfold TokensViolate
  infer_instance

/-- The refusals of `Model::info` about the audio of a model. -/
def AudioViolates (raw : ModelInfoV1) : Prop :=
  raw.maximumAudioFrames = 0 ∨ raw.sampleRateHz ≠ 22050 ∨ raw.channels ≠ 1 ∨
    raw.pcmFormat ≠ 1 ∨ raw.codecFrameSamples ≠ 1024 ∨ raw.initialFrames ≠ 4 ∨
    raw.steadyFrames ≠ 8 ∨ raw.tailMinFrames ≠ 1 ∨ raw.tailMaxFrames ≠ 8

instance (raw : ModelInfoV1) : Decidable (AudioViolates raw) := by
  unfold AudioViolates
  infer_instance

/-- `Model::info`, behind the call of the native library. -/
def modelInfo (raw : ModelInfoV1) : Except InvalidNativeData ModelInfo := do
  invalidNativeIf
    (raw.structSize ≠ modelInfoSize ∨ raw.abiVersion ≠ abiVersion1 ∨ TokensViolate raw ∨
      AudioViolates raw ∨ raw.reserved0 ≠ 0 ∨ raw.reserved ≠ [0, 0, 0, 0] ∨
      (raw.tokenizerIdentitySha256.all (· = 0)) = true)
    "model_get_info" "model_info"
    "authenticated model properties violate the ABI v1 contract"
  return {
    tokenizerVocabularySize := raw.tokenizerVocabularySize
    textEmbeddingRows := raw.textEmbeddingRows
    bosTokenId := raw.bosTokenId
    eosTokenId := raw.eosTokenId
    japaneseGlobalPadTokenId := raw.japaneseGlobalPadTokenId
    maximumTextTokens := raw.maximumTextTokens
    maximumAudioFrames := raw.maximumAudioFrames
    sampleRateHz := raw.sampleRateHz
    channels := raw.channels
    codecFrameSamples := raw.codecFrameSamples
    initialFrames := raw.initialFrames
    steadyFrames := raw.steadyFrames
    tailMinFrames := raw.tailMinFrames
    tailMaxFrames := raw.tailMaxFrames
    tokenizerIdentitySha256 := raw.tokenizerIdentitySha256 }

theorem invalidNativeIf_eq_ok_iff {condition : Prop} [Decidable condition]
    {operation field reason : String} :
    invalidNativeIf condition operation field reason = .ok () ↔ ¬ condition := by
  rw [invalidNativeIf]
  split_ifs with h <;> simp [h]

/-! ### The worker -/

/-- `WorkerError::InvalidRequest`, and `Error::InvalidInput`. -/
structure InvalidRequest where
  field : String
  reason : String

/-- An early return under a condition. -/
def invalidRequestIf (condition : Prop) [Decidable condition] (field reason : String) :
    Except InvalidRequest Unit :=
  if condition then .error ⟨field, reason⟩ else .ok ()

theorem invalidRequestIf_eq_ok_iff {condition : Prop} [Decidable condition]
    {field reason : String} : invalidRequestIf condition field reason = .ok () ↔ ¬ condition := by
  rw [invalidRequestIf]
  split_ifs with h <;> simp [h]

/-- The search for the first token outside the rows of the tokenizer, with its index. -/
def findOutside (vocabulary : UInt32) (tokens : List Int64) : Option (ℕ × Int64) :=
  (tokens.zipIdx.find? fun item => item.1 < 0 ∨ int64OfUint32 vocabulary ≤ item.1).map fun item =>
    (item.2, item.1)

/-- `validate_synthesis_request`. -/
def validateSynthesisRequest (info : ModelInfo) (textTokenIds : List Int64) (randomSeed : ℕ) :
    Except InvalidRequest Unit := do
  invalidRequestIf (textTokenIds = []) "text_token_ids"
    "must contain at least one prepared token"
  invalidRequestIf (textTokenIds.length > info.maximumTextTokens) "text_token_ids"
    ("count " ++ toString textTokenIds.length ++ " exceeds model maximum " ++
      toString info.maximumTextTokens)
  let finalIndex := textTokenIds.length - 1
  invalidRequestIf (textTokenIds.getLast? ≠ some (int64OfUint32 info.eosTokenId)) "text_token_ids"
    ("final token at index " ++ toString finalIndex ++ " must be authenticated EOS " ++
      toString info.eosTokenId)
  match findOutside info.tokenizerVocabularySize (textTokenIds.take finalIndex) with
  | some (index, token) =>
    .error ⟨"text_token_ids", "non-final token at index " ++ toString index ++ " is " ++
      toString token ++ ", outside normal tokenizer rows [0, " ++
      toString info.tokenizerVocabularySize ++ ")"⟩
  | none =>
    invalidRequestIf (randomSeed > 4294967295) "random_seed"
      (toString randomSeed ++ " exceeds uint32 maximum 4294967295")

/-! ### The session -/

/-- The checks of `Session::start_request`. -/
def startRequestChecks (textTokenIds : List Int64) (randomSeed : ℕ) :
    Except InvalidRequest Unit := do
  invalidRequestIf (textTokenIds = []) "text_token_ids" "must contain at least one prepared token"
  invalidRequestIf (textTokenIds.length > maximumTextTokensV1) "text_token_ids"
    "exceeds the ABI v1 token limit"
  invalidRequestIf (∃ token ∈ textTokenIds, token < 0 ∨ Int64.ofInt 2147483647 < token)
    "text_token_ids" "every identifier must fit a non-negative INT32 value"
  invalidRequestIf (randomSeed > 4294967295) "random_seed" "must be in [0, 2^32)"

/-- The descriptor that `Session::start_request` passes on. -/
def requestDesc (textTokenIds : List Int64) (randomSeed : ℕ) : RequestDescV1 where
  structSize := requestDescSize
  abiVersion := abiVersion1
  textTokenIds := some fun index => textTokenIds.getD index 0
  textTokenCount := textTokenIds.length
  randomSeed := randomSeed
  flags := 0
  reserved0 := 0
  reserved := [0, 0, 0, 0]

/-! ### Agreement -/

/-- What the properties of a model are known to be once the wrapper has accepted them. -/
structure AcceptedInfo (manifest : ModelManifest) (info : ModelInfo) : Prop where
  vocabulary : info.tokenizerVocabularySize = manifest.tokenizer.tokenizerVocabularySize
  eos : info.eosTokenId = manifest.tokenizer.eosTokenId
  maximumTextTokens : info.maximumTextTokens = manifest.limits.maximumTextTokens
  count_le : manifest.limits.maximumTextTokens ≤ maximumTextTokensV1
  vocabulary_lt : manifest.tokenizer.tokenizerVocabularySize.toNat < 2 ^ 31
  eos_lt : manifest.tokenizer.eosTokenId.toNat < 2 ^ 31

theorem modelInfo_ok {manifest : ModelManifest} {out raw : ModelInfoV1} {info : ModelInfo}
    (hraw : modelGetInfo (some manifest) (some out) = .ok raw) (hinfo : modelInfo raw = .ok info) :
    AcceptedInfo manifest info := by
  obtain ⟨-, hraw⟩ := bind_unit_eq_ok_iff.mp hraw
  obtain ⟨haccepted, hinfo⟩ := bind_unit_eq_ok_iff.mp hinfo
  cases hinfo
  cases hidentity : decodeSha256Hex manifest.tokenizer.identitySha256 with
  | none =>
    rw [hidentity] at hraw
    cases hraw
  | some identity =>
    rw [hidentity] at hraw
    cases hraw
    rw [invalidNativeIf_eq_ok_iff] at haccepted
    simp only [not_or, TokensViolate, UInt32.not_lt, UInt32.not_le, Nat.not_lt] at haccepted
    obtain ⟨-, -, ⟨-, hvocabulary, -, hrows, -, -, -, heos, -, -, -, hcount⟩, -⟩ := haccepted
    have hmaximum : maximumInt32.toNat = 2 ^ 31 - 1 := rfl
    rw [UInt32.le_iff_toNat_le, hmaximum] at hvocabulary hrows
    rw [UInt32.lt_iff_toNat_lt] at heos
    exact ⟨rfl, rfl, rfl, hcount, by omega, by omega⟩

theorem findOutside_eq_none {vocabulary : UInt32} {tokens : List Int64}
    (h : findOutside vocabulary tokens = none) :
    ∀ token ∈ tokens, 0 ≤ token ∧ token < int64OfUint32 vocabulary := by
  intro token htoken
  obtain ⟨index, hindex⟩ := List.mem_iff_getElem?.mp htoken
  have hitem := List.find?_eq_none.mp (Option.map_eq_none_iff.mp h) (token, index)
    (List.mk_mem_zipIdx_iff_getElem?.mpr hindex)
  simpa using hitem

/-- What the worker accepts is prepared for the model. -/
theorem validateSynthesisRequest_ok {info : ModelInfo} {tokens : List Int64} {randomSeed : ℕ}
    (h : validateSynthesisRequest info tokens randomSeed = .ok ()) :
    tokens.length ≤ info.maximumTextTokens ∧ randomSeed ≤ 4294967295 ∧
      IsPrepared info.tokenizerVocabularySize info.eosTokenId tokens := by
  rw [validateSynthesisRequest, bind_unit_eq_ok_iff, bind_unit_eq_ok_iff, bind_unit_eq_ok_iff] at h
  simp only [invalidRequestIf_eq_ok_iff, not_not] at h
  obtain ⟨hne, hcount, hlast, h⟩ := h
  cases houtside : findOutside info.tokenizerVocabularySize
      (tokens.take (tokens.length - 1)) with
  | some item =>
    rw [houtside] at h
    cases h
  | none =>
    rw [houtside] at h
    refine ⟨Nat.not_lt.mp hcount, Nat.not_lt.mp (invalidRequestIf_eq_ok_iff.mp h),
      tokens.take (tokens.length - 1), ?_, findOutside_eq_none houtside⟩
    rw [← List.dropLast_eq_take]
    obtain ⟨rows, rfl⟩ := List.getLast?_eq_some_iff.mp hlast
    rw [List.dropLast_concat]

/-- The descriptor of a request that the worker accepts is well formed. -/
theorem validDesc_requestDesc {manifest : ModelManifest} {info : ModelInfo}
    (hinfo : AcceptedInfo manifest info) {tokens : List Int64} {randomSeed : ℕ}
    (h : validateSynthesisRequest info tokens randomSeed = .ok ()) :
    ValidDesc manifest (requestDesc tokens randomSeed) tokens := by
  obtain ⟨hcount, hseed, hprepared⟩ := validateSynthesisRequest_ok h
  rw [hinfo.vocabulary, hinfo.eos] at hprepared
  rw [hinfo.maximumTextTokens] at hcount
  refine ⟨rfl, ⟨_, rfl, ?_⟩, ⟨?_, Nat.le_trans hcount hinfo.count_le, hcount⟩,
    fun token htoken => ?_,
    hseed, ⟨rfl, rfl, rfl⟩, hprepared⟩
  · refine List.ext_getElem (by simp [requestDesc]) fun index hlt _ => ?_
    rw [List.getElem_map, List.getElem_range]
    exact List.getD_eq_getElem _ _ _
  · obtain ⟨rows, rfl, -⟩ := hprepared
    simp [requestDesc]
  · have hmaximum : (Int64.ofInt 2147483647).toInt = 2147483647 := rfl
    rw [Int64.le_iff_toInt_le, Int64.le_iff_toInt_le, hmaximum]
    obtain ⟨rows, rfl, hrows⟩ := hprepared
    have hvocabulary := hinfo.vocabulary_lt
    have heos := hinfo.eos_lt
    rcases List.mem_append.mp htoken with hrow | heq
    · obtain ⟨hnonneg, hlt⟩ := hrows token hrow
      rw [Int64.lt_iff_toInt_lt, toInt_int64OfUint32] at hlt
      rw [Int64.le_iff_toInt_le] at hnonneg
      exact ⟨hnonneg, by omega⟩
    · rw [List.mem_singleton.mp heq, toInt_int64OfUint32]
      exact ⟨Int.natCast_nonneg _, by omega⟩

theorem ValidDesc.startRequestChecks {manifest : ModelManifest} {tokens : List Int64}
    {randomSeed : ℕ} (h : ValidDesc manifest (requestDesc tokens randomSeed) tokens) :
    startRequestChecks tokens randomSeed = .ok () := by
  rw [Rust.startRequestChecks, bind_unit_eq_ok_iff, bind_unit_eq_ok_iff, bind_unit_eq_ok_iff]
  simp only [invalidRequestIf_eq_ok_iff]
  refine ⟨?_, Nat.not_lt.mpr h.count.2.1, ?_, Nat.not_lt.mpr h.seed⟩
  · rintro rfl
    exact absurd h.count.1 (Nat.lt_irrefl 0)
  · rintro ⟨token, htoken, hneg | hlarge⟩
    · exact Int64.not_lt.mpr (h.fits token htoken).1 hneg
    · exact Int64.not_lt.mpr (h.fits token htoken).2 hlarge

/-- **The layers agree.** Against the properties that the native library reports and the wrapper
accepts, every request that the worker accepts passes the checks of the session and is no invalid
argument of `request_start`, whatever the session, the machine and the error buffer are. The 32-bit
and the 64-bit validator report the same first defect of the same numbers, and for the vocabulary
of an accepted model what the 64-bit validator accepts is a sequence of 32-bit tokens. -/
theorem requestValidation_agrees {manifest : ModelManifest} {out raw : ModelInfoV1}
    {info : ModelInfo} (hraw : modelGetInfo (some manifest) (some out) = .ok raw)
    (hinfo : modelInfo raw = .ok info) :
    (∀ tokens randomSeed, validateSynthesisRequest info tokens randomSeed = .ok () →
      startRequestChecks tokens randomSeed = .ok () ∧
        ∀ poisoned answers error, (apiCall error (requestStart (some ⟨manifest, poisoned⟩)
          (some (requestDesc tokens randomSeed)) true answers)).1 ≠ Status.invalidArgument) ∧
    (∀ tokens vocabulary eos, validatePreparedTokenIds32 tokens vocabulary eos =
      validatePreparedTokenIds64 (tokens.map Int32.toInt64) vocabulary eos) ∧
    ∀ tokens, (validatePreparedTokenIds64 tokens manifest.tokenizer.tokenizerVocabularySize
        manifest.tokenizer.eosTokenId).valid = true →
      ∃ tokens32, tokens32.map Int32.toInt64 = tokens ∧
        (validatePreparedTokenIds32 tokens32 manifest.tokenizer.tokenizerVocabularySize
          manifest.tokenizer.eosTokenId).valid = true := by
  have haccepted := modelInfo_ok hraw hinfo
  refine ⟨fun tokens randomSeed h => ?_, fun tokens _ _ => validatePreparedTokenIds32_eq tokens,
    fun tokens h => ?_⟩
  · have hdesc := validDesc_requestDesc haccepted h
    exact ⟨ValidDesc.startRequestChecks hdesc, fun poisoned answers error =>
      requestStart_status_ne (by exact hdesc) answers error⟩
  · have hfits := exists_int32_of_isPrepared haccepted.vocabulary_lt haccepted.eos_lt
      (validatePreparedTokenIds64_valid_iff.mp h)
    exact ⟨_, hfits, by rw [validatePreparedTokenIds32_eq, hfits, h]⟩

/-- A model with ten rows of the tokenizer and twenty embedding rows. -/
def smallModel : ModelManifest where
  tokenizer := {
    tokenizerVocabularySize := 10
    textEmbeddingRows := 20
    bosTokenId := 18
    eosTokenId := 19
    japaneseGlobalPadTokenId := 0
    identitySha256 := List.replicate 64 0x61 }
  codec := acceptedManifest.codec
  channels := 1
  limits := acceptedManifest.limits

def smallModelInfo : ModelInfo where
  tokenizerVocabularySize := 10
  textEmbeddingRows := 20
  bosTokenId := 18
  eosTokenId := 19
  japaneseGlobalPadTokenId := 0
  maximumTextTokens := acceptedManifest.limits.maximumTextTokens
  maximumAudioFrames := acceptedManifest.limits.maximumAudioFrames
  sampleRateHz := 22050
  channels := 1
  codecFrameSamples := 1024
  initialFrames := 4
  steadyFrames := 8
  tailMinFrames := 1
  tailMaxFrames := 8
  tokenizerIdentitySha256 := List.replicate 32 0xaa

def smallModelInfoV1 : ModelInfoV1 where
  structSize := modelInfoSize
  abiVersion := abiVersion1
  tokenizerVocabularySize := 10
  textEmbeddingRows := 20
  bosTokenId := 18
  eosTokenId := 19
  japaneseGlobalPadTokenId := 0
  maximumTextTokens := acceptedManifest.limits.maximumTextTokens
  maximumAudioFrames := acceptedManifest.limits.maximumAudioFrames
  sampleRateHz := 22050
  channels := 1
  pcmFormat := 1
  codecFrameSamples := 1024
  initialFrames := 4
  steadyFrames := 8
  tailMinFrames := 1
  tailMaxFrames := 8
  tokenizerIdentitySha256 := List.replicate 32 0xaa
  reserved0 := 0
  reserved := [0, 0, 0, 0]

theorem requestValidation_agrees_example :
    modelGetInfo (some smallModel) (some smallModelInfoV1) = .ok smallModelInfoV1 ∧
      modelInfo smallModelInfoV1 = .ok smallModelInfo ∧
      startRequestChecks [3, 19] 4294967295 = .ok () := by
  have hraw : modelGetInfo (some smallModel) (some smallModelInfoV1) = .ok smallModelInfoV1 := rfl
  have hinfo : modelInfo smallModelInfoV1 = .ok smallModelInfo := rfl
  exact ⟨hraw, hinfo, ((requestValidation_agrees hraw hinfo).1 [3, 19] 4294967295 rfl).1⟩

end MagpieTts.Rust
