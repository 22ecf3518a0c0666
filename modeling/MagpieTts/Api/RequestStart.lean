import MagpieTts.Api.ErrorBuffer
import MagpieTts.Library.ExceptRules
import MagpieTts.Runtime.PreparedTokens
import MagpieTts.Runtime.RuntimeManifest

/-!
# Starting a request through the C interface

`model_get_info` reports the properties of a model to its callers, and `request_start` validates
the descriptor of a request against the same model before it creates the request.

## Main definitions

* `ModelManifest`, `ModelInfoV1`, `modelGetInfo`: the reported properties.
* `RequestDescV1`, `requestStart`: the descriptor and its validation.

## Main results

* `requestStart_status_ne`: a well formed descriptor is not an invalid argument.
-/

namespace MagpieTts.Api

open MagpieTts.Library MagpieTts.Runtime

/-! ### The properties of a model -/

/-- `TokenizerArtifact`, with the hexadecimal text of the identity digest. -/
structure TokenizerArtifact where
  tokenizerVocabularySize : UInt32
  textEmbeddingRows : UInt32
  bosTokenId : UInt32
  eosTokenId : UInt32
  japaneseGlobalPadTokenId : UInt32
  identitySha256 : List UInt8

/-- The part of the manifest that the two functions read. -/
structure ModelManifest where
  tokenizer : TokenizerArtifact
  codec : CodecManifest
  channels : ℕ
  limits : LimitsManifest

/-- The size of `mtt_model_info_v1_t`. -/
def modelInfoSize : ℕ := 136

/-- `mtt_model_info_v1_t`. -/
structure ModelInfoV1 where
  structSize : ℕ
  abiVersion : ℕ
  tokenizerVocabularySize : UInt32
  textEmbeddingRows : UInt32
  bosTokenId : UInt32
  eosTokenId : UInt32
  japaneseGlobalPadTokenId : UInt32
  maximumTextTokens : ℕ
  maximumAudioFrames : ℕ
  sampleRateHz : ℕ
  channels : ℕ
  pcmFormat : ℤ
  codecFrameSamples : ℕ
  initialFrames : ℕ
  steadyFrames : ℕ
  tailMinFrames : ℕ
  tailMaxFrames : ℕ
  tokenizerIdentitySha256 : List UInt8
  reserved0 : ℕ
  reserved : List ℕ

/-- `hex_digit`. -/
def hexDigit (value : UInt8) : Option UInt8 :=
  if 0x30 ≤ value ∧ value ≤ 0x39 then some (value - 0x30)
  else if 0x61 ≤ value ∧ value ≤ 0x66 then some (value - 0x61 + 10)
  else none

/-- The loop of `decode_sha256_hex`. -/
def decodeHexPairs : List UInt8 → Option (List UInt8)
  | [] => some []
  | [_] => none
  | first :: second :: rest => do
    let high ← hexDigit first
    let low ← hexDigit second
    let decoded ← decodeHexPairs rest
    return (high <<< 4 ||| low) :: decoded

/-- `decode_sha256_hex`. -/
def decodeSha256Hex (encoded : List UInt8) : Option (List UInt8) :=
  if encoded.length ≠ 32 * 2 then none else decodeHexPairs encoded

/-- `model_get_info`, of a model with this manifest. The descriptor is the one of the caller, with
its header. -/
def modelGetInfo (model : Option ModelManifest) (info : Option ModelInfoV1) :
    Except ApiFailure ModelInfoV1 :=
  match model, info with
  | some manifest, some info => do
    failIf (hasValidHeader info.structSize info.abiVersion modelInfoSize = false)
      (.text Status.abiMismatch Stage.abi "model info does not match ABI version 1")
    match decodeSha256Hex manifest.tokenizer.identitySha256 with
    | none =>
      .error (.text Status.manifestError Stage.manifest
        "authenticated tokenizer identity is not a lowercase SHA-256 digest")
    | some identity =>
      return {
        structSize := modelInfoSize
        abiVersion := abiVersion1
        tokenizerVocabularySize := manifest.tokenizer.tokenizerVocabularySize
        textEmbeddingRows := manifest.tokenizer.textEmbeddingRows
        bosTokenId := manifest.tokenizer.bosTokenId
        eosTokenId := manifest.tokenizer.eosTokenId
        japaneseGlobalPadTokenId := manifest.tokenizer.japaneseGlobalPadTokenId
        maximumTextTokens := manifest.limits.maximumTextTokens
        maximumAudioFrames := manifest.limits.maximumAudioFrames
        sampleRateHz := manifest.codec.sampleRateHz
        channels := manifest.channels
        pcmFormat := 1
        codecFrameSamples := manifest.codec.hopLengthSamples
        initialFrames := manifest.codec.initialFrames
        steadyFrames := manifest.codec.steadyFrames
        tailMinFrames := manifest.codec.tailMinFrames
        tailMaxFrames := manifest.codec.tailMaxFrames
        tokenizerIdentitySha256 := identity
        reserved0 := 0
        reserved := [0, 0, 0, 0] }
  | _, _ =>
    .error (.text Status.invalidArgument Stage.model "model and model info output are required")

/-! ### The descriptor of a request -/

/-- `MTT_MAX_TEXT_TOKENS`. -/
def maximumTextTokensV1 : ℕ := 512

/-- The size of `mtt_request_desc_v1_t`. -/
def requestDescSize : ℕ := 72

/-- `mtt_request_desc_v1_t`. The pointer leads to the tokens, by their index. -/
structure RequestDescV1 where
  structSize : ℕ
  abiVersion : ℕ
  textTokenIds : Option (ℕ → Int64)
  textTokenCount : ℕ
  randomSeed : ℕ
  flags : ℕ
  reserved0 : ℕ
  reserved : List ℕ

/-- `reserved_is_zero`. -/
def reservedIsZero (values : List ℕ) : Bool := values.all (· = 0)

/-- What `request_start` reads of a session. -/
structure StartSession where
  manifest : ModelManifest
  poisoned : Bool

/-- How the creation of the request and of its thread ends. -/
inductive RequestCreation
  | created
  | badAlloc
  | exception (what : List UInt8)
  | unknownException

/-- What the machine and the other calls decide of a start. -/
structure StartAnswers where
  copyFails : Bool
  counterReserved : Bool
  creation : RequestCreation

/-- The request that is created: its tokens and the seed of its worker. -/
structure CreatedRequest where
  textTokenIds : List Int32
  randomSeed : UInt32

/-- The checks of the descriptor that read no tokens but their range. -/
def checkRequestDesc (session : StartSession) (desc : RequestDescV1) (tokens : List Int64) :
    Except ApiFailure Unit := do
  failIf (desc.textTokenCount > maximumTextTokensV1)
    (.text Status.invalidArgument Stage.request "token sequence exceeds the ABI v1 token limit")
  failIf (∃ token ∈ tokens, token < 0 ∨ Int64.ofInt 2147483647 < token)
    (.text Status.invalidArgument Stage.request
      "every token identifier must fit a non-negative INT32 value")
  failIf (desc.randomSeed > 4294967295)
    (.text Status.invalidArgument Stage.request "random seed must be in [0, 2^32)")
  failIf (desc.flags ≠ 0 ∨ desc.reserved0 ≠ 0 ∨ reservedIsZero desc.reserved = false)
    (.text Status.invalidArgument Stage.request "request flags and reserved fields must be zero")
  failIf (desc.textTokenCount > session.manifest.limits.maximumTextTokens)
    (.text Status.invalidArgument Stage.request
      "token sequence exceeds the authenticated model limit")

/-- `request_start` behind its null checks. -/
def startWith (session : StartSession) (desc : RequestDescV1) (answers : StartAnswers) :
    Except ApiFailure CreatedRequest := do
  failIf (hasValidHeader desc.structSize desc.abiVersion requestDescSize = false)
    (.text Status.abiMismatch Stage.abi "request descriptor does not match ABI version 1")
  failIf (desc.textTokenIds.isNone ∨ desc.textTokenCount = 0)
    (.text Status.invalidArgument Stage.request "a non-empty token sequence is required")
  let tokens := (List.range desc.textTokenCount).map (desc.textTokenIds.getD fun _ => 0)
  checkRequestDesc session desc tokens
  failIf (session.poisoned = true)
    (.text Status.poisoned Stage.session "session is poisoned by an earlier execution failure")
  let tokenizer := session.manifest.tokenizer
  failIf ((validatePreparedTokenIds64 tokens tokenizer.tokenizerVocabularySize
      tokenizer.eosTokenId).valid = false)
    (.text Status.invalidArgument Stage.request
      "token sequence violates the authenticated prepared frontend contract")
  failIf (answers.copyFails = true)
    (.text Status.internalError Stage.request "copying request tokens exhausted host memory")
  failIf (answers.counterReserved = false)
    (.text Status.busy Stage.request "session already owns its active request")
  match answers.creation with
  | .created => return ⟨tokens.map Int64.toInt32, UInt32.ofNat desc.randomSeed⟩
  | .badAlloc =>
    .error (.text Status.internalError Stage.request
      "allocating request state exhausted host memory")
  | .exception what => .error ⟨Status.internalError, Stage.request, what⟩
  | .unknownException =>
    .error (.text Status.internalError Stage.request
      "request creation failed with a non-standard exception")

/-- `request_start`. The request output is present or null. -/
def requestStart (session : Option StartSession) (desc : Option RequestDescV1)
    (requestOutput : Bool) (answers : StartAnswers) : Except ApiFailure CreatedRequest := do
  failIf (requestOutput = false)
    (.text Status.invalidArgument Stage.request "request output is null")
  match session, desc with
  | some session, some desc => startWith session desc answers
  | _, _ =>
    .error (.text Status.invalidArgument Stage.request
      "session and request descriptor are required")

/-! ### Accepted descriptors -/

/-- What the argument validation demands of a descriptor. -/
structure ValidDesc (manifest : ModelManifest) (desc : RequestDescV1) (tokens : List Int64) :
    Prop where
  header : hasValidHeader desc.structSize desc.abiVersion requestDescSize = true
  pointer : ∃ memory, desc.textTokenIds = some memory ∧
    (List.range desc.textTokenCount).map memory = tokens
  count : 0 < desc.textTokenCount ∧ desc.textTokenCount ≤ maximumTextTokensV1 ∧
    desc.textTokenCount ≤ manifest.limits.maximumTextTokens
  fits : ∀ token ∈ tokens, 0 ≤ token ∧ token ≤ Int64.ofInt 2147483647
  seed : desc.randomSeed ≤ 4294967295
  reserved : desc.flags = 0 ∧ desc.reserved0 = 0 ∧ reservedIsZero desc.reserved = true
  prepared : IsPrepared manifest.tokenizer.tokenizerVocabularySize manifest.tokenizer.eosTokenId
    tokens

theorem ValidDesc.checkRequestDesc {session : StartSession} {desc : RequestDescV1}
    {tokens : List Int64} (h : ValidDesc session.manifest desc tokens) :
    checkRequestDesc session desc tokens = .ok () := by
  rw [Api.checkRequestDesc, bind_unit_eq_ok_iff, bind_unit_eq_ok_iff, bind_unit_eq_ok_iff,
    bind_unit_eq_ok_iff]
  simp only [failIf_eq_ok_iff]
  refine ⟨Nat.not_lt.mpr h.count.2.1, ?_, Nat.not_lt.mpr h.seed, ?_, Nat.not_lt.mpr h.count.2.2⟩
  · rintro ⟨token, htoken, hneg | hlarge⟩
    · exact Int64.not_lt.mpr (h.fits token htoken).1 hneg
    · exact Int64.not_lt.mpr (h.fits token htoken).2 hlarge
  · simp [h.reserved]

theorem ValidDesc.startWith {session : StartSession} {desc : RequestDescV1}
    {tokens : List Int64} (h : ValidDesc session.manifest desc tokens) (answers : StartAnswers) :
    FailsWith (fun failure => failure.status ≠ Status.invalidArgument)
      (startWith session desc answers) := by
  obtain ⟨memory, hpointer, htokens⟩ := h.pointer
  have hvalid := validatePreparedTokenIds64_valid_iff.mpr h.prepared
  have hread :
      (List.range desc.textTokenCount).map (desc.textTokenIds.getD fun _ => 0) = tokens := by
    rw [hpointer, Option.getD_some, htokens]
  rw [Api.startWith]
  simp only [hread, failsWith_bind_iff, failsWith_failIf_iff, h.checkRequestDesc]
  refine ⟨fun _ => by decide, fun _ _ => ⟨fun hempty => ?_, fun _ _ => ⟨failsWith_ok, fun _ _ =>
    ⟨fun _ => by decide, fun _ _ => ⟨fun hdefect => ?_, fun _ _ => ⟨fun _ => by decide,
      fun _ _ => ⟨fun _ => by decide, fun _ _ => ?_⟩⟩⟩⟩⟩⟩⟩
  · rcases hempty with hnull | hzero
    · rw [hpointer] at hnull
      cases hnull
    · exact absurd hzero (Nat.pos_iff_ne_zero.mp h.count.1)
  · rw [hvalid] at hdefect
    cases hdefect
  · cases answers.creation with
    | created => exact failsWith_pure
    | badAlloc | exception | unknownException =>
      rw [failsWith_error_iff]
      show Status.internalError ≠ Status.invalidArgument
      decide

/-- A well formed descriptor is not an invalid argument, whatever else happens. -/
theorem requestStart_status_ne {session : StartSession} {desc : RequestDescV1}
    {tokens : List Int64} (h : ValidDesc session.manifest desc tokens) (answers : StartAnswers)
    (error : Option ErrorV1) :
    (apiCall error (requestStart (some session) (some desc) true answers)).1 ≠
      Status.invalidArgument := by
  have hstart : requestStart (some session) (some desc) true answers =
      startWith session desc answers := rfl
  rw [hstart]
  rcases apiCall_status error (h.startWith answers) with hstatus | hstatus | ⟨failure, hne, hstatus⟩
  · rw [hstatus]
    decide
  · rw [hstatus]
    decide
  · rw [hstatus]
    exact hne

end MagpieTts.Api
