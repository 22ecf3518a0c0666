import MagpieTts.Frontend.BenchmarkSource

/-!
# The reader of the benchmark corpus

`load_benchmark_corpus` of `runtime_benchmark.cpp` reads the lines of a corpus: a header, 108 cases
and the case that is cancelled. The parser of a line is a library; a parser that is correct on
strict JSON returns the value of a text of the grammar, with the members of its objects.

## Main definitions

* `ReadsStrictJson`: a parser that is correct on strict JSON.
* `loadBenchmarkCorpus`: the reader.
-/

namespace MagpieTts.Frontend

open MagpieTts.Library

/-- What the reader throws. -/
inductive CorpusError
  | runtimeError (message : String)
  | invalidArgument (message : String)
  deriving Repr, DecidableEq

structure CorpusCase where
  caseId : Bytes
  sourceText : Bytes
  sourceTextSha256 : Bytes
  tokenIds : List ℕ
  seed : ℕ
  deriving Repr, DecidableEq

structure BenchmarkCorpus where
  corpusId : Bytes
  tokenizerIdentitySha256 : Bytes
  fileSha256 : Bytes
  normalCases : List CorpusCase
  cancelCase : CorpusCase
  deriving Repr, DecidableEq

/-! ### The parser of the lines -/

mutual

/-- The values of which every parser has the same idea: no fraction, no integer beyond 64 bits, no
half of a surrogate pair. -/
def StrictJson : JsonValue → Prop
  | .null => True
  | .boolean _ => True
  | .integer value => -2 ^ 63 ≤ value ∧ value < 2 ^ 64
  | .float _ => False
  | .string text => Encodable text
  | .array elements => ElementsStrictJson elements
  | .object members => MembersStrictJson members

def ElementsStrictJson : List JsonValue → Prop
  | [] => True
  | element :: elements => StrictJson element ∧ ElementsStrictJson elements

def MembersStrictJson : List (CodePoints × JsonValue) → Prop
  | [] => True
  | (key, value) :: members => Encodable key ∧ StrictJson value ∧ MembersStrictJson members

end

/-- An integer of 64 bits has at most twenty digits. -/
def strictLimits : JsonLimits := ⟨20, 1000⟩

/-- The parser returns the value of every text of the grammar. -/
def ReadsStrictJson (parse : Bytes → Option JsonValue) : Prop :=
  ∀ value text, StrictJson value → IsJsonText strictLimits value text →
    parse (encodeUtf8 text) = some value

/-! ### Checks of a record -/

def onLine (lineNumber : ℕ) : String := "corpus line " ++ toString lineNumber

section Reader

variable (parse : Bytes → Option JsonValue) (sha256 : Bytes → Bytes)

/-- `parse_strict_json_line`. -/
def parseStrictJsonLine (line : Bytes) (lineNumber : ℕ) : Except CorpusError JsonValue :=
  match parse line with
  | none => .error (.runtimeError ("invalid JSON on " ++ onLine lineNumber))
  | some value =>
    if distinctKeys value = true then .ok value
    else .error (.runtimeError ("duplicate JSON key on " ++ onLine lineNumber))

/-- `require_exact_members`. -/
def requireExactMembers (record : JsonValue) (expected : List String) (lineNumber : ℕ) :
    Except CorpusError (List (CodePoints × JsonValue)) :=
  match record with
  | .object members =>
    if HasKeys expected members then .ok members
    else .error (.runtimeError (onLine lineNumber ++ " has unknown or missing members"))
  | _ => .error (.runtimeError (onLine lineNumber ++ " must be one JSON object"))

/-- `get<std::int64_t>()` of an integer of 64 bits. -/
def asInt64 (value : ℤ) : ℤ := if 2 ^ 63 ≤ value then value - 2 ^ 64 else value

/-- `require_uint`. -/
def requireUint (record : List (CodePoints × JsonValue)) (member : String) (lineNumber : ℕ) :
    Except CorpusError ℕ :=
  match record.lookup (codePoints member) with
  | some (.integer value) =>
    if asInt64 value < 0 then
      .error (.runtimeError (onLine lineNumber ++ " member " ++ member ++ " must be non-negative"))
    else .ok value.toNat
  | _ =>
    .error (.runtimeError
      (onLine lineNumber ++ " member " ++ member ++ " must be an unsigned integer"))

/-- `require_string`. -/
def requireStringMember (record : List (CodePoints × JsonValue)) (member : String)
    (lineNumber : ℕ) : Except CorpusError Bytes :=
  match record.lookup (codePoints member) with
  | some (.string text) => .ok (encodeUtf8 (characters text))
  | _ => .error (.runtimeError (onLine lineNumber ++ " member " ++ member ++ " must be a string"))

/-- `allowed` of `valid_identifier`, without the two signs. -/
def isLetterOrDigit (byte : UInt8) : Bool :=
  (0x61 ≤ byte.toNat && byte.toNat ≤ 0x7a) || (0x41 ≤ byte.toNat && byte.toNat ≤ 0x5a) ||
    (0x30 ≤ byte.toNat && byte.toNat ≤ 0x39)

/-- `valid_identifier`. -/
def validIdentifierBytes (value : Bytes) : Bool :=
  match value with
  | [] => false
  | first :: _ =>
    value.length ≤ 64 && isLetterOrDigit first &&
      value.all fun byte => isLetterOrDigit byte || byte == 0x5f || byte == 0x2d

/-! ### The scan of the code points -/

/-- The width of a code point and the bits of its first byte. -/
def leadBits (first : ℕ) : Except CorpusError (ℕ × ℕ) :=
  if first < 0x80 then .ok (1, first)
  else if first &&& 0xe0 = 0xc0 then .ok (2, first &&& 0x1f)
  else if first &&& 0xf0 = 0xe0 then .ok (3, first &&& 0x0f)
  else if first &&& 0xf8 = 0xf0 then .ok (4, first &&& 0x07)
  else .error (.runtimeError "source_text contains invalid UTF-8")

/-- The loop over the continuation bytes. -/
def continueBits (codepoint : ℕ) : Bytes → Except CorpusError ℕ
  | [] => .ok codepoint
  | byte :: bytes =>
    if byte.toNat &&& 0xc0 = 0x80 then
      continueBits (codepoint <<< 6 ||| (byte.toNat &&& 0x3f)) bytes
    else .error (.runtimeError "source_text contains invalid UTF-8")

/-- The code point has a shorter encoding, or is no scalar value. -/
def Noncanonical (width codepoint : ℕ) : Prop :=
  width = 2 ∧ codepoint < 0x80 ∨ width = 3 ∧ codepoint < 0x800 ∨ width = 4 ∧ codepoint < 0x10000 ∨
    0xd800 ≤ codepoint ∧ codepoint ≤ 0xdfff ∨ 0x10ffff < codepoint

instance (width codepoint : ℕ) : Decidable (Noncanonical width codepoint) :=
  inferInstanceAs (Decidable (_ ∨ _ ∨ _ ∨ _ ∨ _))

/-- `contains_japanese_codepoint`. Every pass of the loop reads a byte. -/
def containsJapaneseCodepoint : ℕ → Bytes → Except CorpusError Bool
  | 0, _ => .ok false
  | _ + 1, [] => .ok false
  | fuel + 1, first :: rest => do
    let lead ← leadBits first.toNat
    ensure (lead.1 ≤ rest.length + 1)
      (.runtimeError "source_text contains truncated UTF-8")
    let codepoint ← continueBits lead.2 (rest.take (lead.1 - 1))
    ensure (¬ Noncanonical lead.1 codepoint)
      (.runtimeError "source_text contains noncanonical UTF-8")
    let more ← containsJapaneseCodepoint fuel (rest.drop (lead.1 - 1))
    return isJapanese codepoint || more

/-! ### Cases -/

def kHex (nibble : ℕ) : UInt8 :=
  if nibble < 10 then UInt8.ofNat (0x30 + nibble) else UInt8.ofNat (0x61 + (nibble - 10))

/-- `digest_hex`. -/
def digestHex (bytes : Bytes) : Bytes :=
  (sha256 bytes).flatMap fun byte => [kHex (byte.toNat / 16), kHex (byte.toNat % 16)]

def mttMaxTextTokens : ℕ := 512

/-- The pass of a token identifier. -/
def requireToken : JsonValue → Except CorpusError ℕ
  | .integer value =>
    if asInt64 value < 0 then
      .error (.runtimeError "prepared_token_ids must contain non-negative integers")
    else if 2 ^ 31 - 1 < value then
      .error (.runtimeError "prepared token identifier exceeds INT32")
    else .ok value.toNat
  | _ => .error (.runtimeError "prepared_token_ids must contain non-negative integers")

/-- `prepared_token_ids`. -/
def requireTokens (record : List (CodePoints × JsonValue)) : Except CorpusError (List ℕ) :=
  match record.lookup (codePoints "prepared_token_ids") with
  | some (.array tokens) =>
    if tokens = [] ∨ mttMaxTextTokens < tokens.length then
      .error (.runtimeError "prepared_token_ids must be a non-empty bounded array")
    else tokens.mapM requireToken
  | _ => .error (.runtimeError "prepared_token_ids must be a non-empty bounded array")

/-- `parse_corpus_case`. -/
def parseCorpusCase (record : JsonValue) (lineNumber : ℕ) (requiredRecordType : String) :
    Except CorpusError CorpusCase := do
  let members ← requireExactMembers record ["record_type", "case_id", "source_text",
    "source_text_sha256", "prepared_token_ids", "random_seed"] lineNumber
  let recordType ← requireStringMember members "record_type" lineNumber
  ensure (recordType = utf8 requiredRecordType)
    (.runtimeError ("unexpected record_type on " ++ onLine lineNumber))
  let caseId ← requireStringMember members "case_id" lineNumber
  ensure (validIdentifierBytes caseId = true)
    (.runtimeError ("invalid case_id on " ++ onLine lineNumber))
  let sourceText ← requireStringMember members "source_text" lineNumber
  ensure (sourceText ≠ [] ∧ sourceText.length ≤ 4096)
    (.runtimeError "source_text must contain Japanese and be 1-4096 UTF-8 bytes")
  let japanese ← containsJapaneseCodepoint sourceText.length sourceText
  ensure (japanese = true)
    (.runtimeError "source_text must contain Japanese and be 1-4096 UTF-8 bytes")
  let sourceTextSha256 ← requireStringMember members "source_text_sha256" lineNumber
  ensure (sourceTextSha256 = digestHex sha256 sourceText)
    (.runtimeError ("source_text_sha256 mismatch on " ++ onLine lineNumber))
  let tokenIds ← requireTokens members
  let seed ← requireUint members "random_seed" lineNumber
  ensure (seed ≤ 2 ^ 32 - 1) (.runtimeError "random_seed must be a uint32")
  return ⟨caseId, sourceText, sourceTextSha256, tokenIds, seed⟩

/-! ### The corpus -/

/-- `hex_nibble`. -/
def hexNibble (value : UInt8) : Except CorpusError ℕ :=
  if 0x30 ≤ value.toNat ∧ value.toNat ≤ 0x39 then .ok (value.toNat - 0x30)
  else if 0x61 ≤ value.toNat ∧ value.toNat ≤ 0x66 then .ok (value.toNat - 0x61 + 10)
  else .error (.invalidArgument "manifest SHA-256 must contain exactly 64 lowercase hex digits")

/-- The loop of `parse_sha256`. -/
def parseNibbles : Bytes → Except CorpusError (List ℕ)
  | high :: low :: rest => do
    let high ← hexNibble high
    let low ← hexNibble low
    let more ← parseNibbles rest
    return (high * 16 + low) :: more
  | _ => .ok []

/-- `parse_sha256`. -/
def parseSha256 (value : Bytes) : Except CorpusError (List ℕ) := do
  ensure (value.length = 64)
    (.invalidArgument "manifest SHA-256 must contain exactly 64 lowercase hex digits")
  let digest ← parseNibbles value
  ensure (digest ≠ List.replicate 32 0)
    (.invalidArgument "manifest SHA-256 must not be all zero")
  return digest

def kMaximumSmokeJsonBytes : ℕ := 16 * 1024 * 1024

def kAcceptanceNormalCases : ℕ := 108

/-- The loop over the lines. -/
def parseLines : ℕ → List Bytes → Except CorpusError (List JsonValue)
  | _, [] => .ok []
  | lineNumber, line :: lines => do
    ensure (line ≠ [] ∧ line.getLast? ≠ some 0x0d)
      (.runtimeError ("blank or CRLF " ++ onLine lineNumber))
    let record ← parseStrictJsonLine parse line lineNumber
    let records ← parseLines (lineNumber + 1) lines
    return record :: records

/-- The loop over the normal cases, with the identifiers that it has seen. -/
def parseCorpusCases : ℕ → List Bytes → List JsonValue → Except CorpusError (List CorpusCase)
  | _, _, [] => .ok []
  | lineNumber, caseIds, record :: records => do
    let parsed ← parseCorpusCase sha256 record lineNumber "case"
    ensure (parsed.caseId ∉ caseIds) (.runtimeError "duplicate benchmark case_id")
    let more ← parseCorpusCases (lineNumber + 1) (parsed.caseId :: caseIds) records
    return parsed :: more

/-- The checks of the header: the identifier of the corpus and the identity of the tokenizer. -/
def parseHeader (header : JsonValue) (recordCount : ℕ) : Except CorpusError (Bytes × Bytes) := do
  let members ← requireExactMembers header ["record_type", "schema_version", "corpus_id",
    "tokenizer_identity_sha256", "normal_case_count"] 1
  let recordType ← requireStringMember members "record_type" 1
  let schemaVersion ← requireStringMember members "schema_version" 1
  ensure (recordType = utf8 "header" ∧
      schemaVersion = utf8 "magpie-tts-rt.benchmark-corpus.v1")
    (.runtimeError "unsupported benchmark corpus header")
  let corpusId ← requireStringMember members "corpus_id" 1
  ensure (validIdentifierBytes corpusId = true) (.runtimeError "invalid benchmark corpus_id")
  let identity ← requireStringMember members "tokenizer_identity_sha256" 1
  let _ ← parseSha256 identity
  let declaredCount ← requireUint members "normal_case_count" 1
  ensure (declaredCount = kAcceptanceNormalCases ∧ recordCount = declaredCount + 2)
    (.runtimeError "normal_case_count does not match the JSONL record count")
  return (corpusId, identity)

/-- `load_benchmark_corpus`, from the bytes of the file. -/
def loadBenchmarkCorpus (file : Bytes) : Except CorpusError BenchmarkCorpus := do
  ensure (file ≠ []) (.invalidArgument "benchmark corpus must not be empty")
  ensure (file.length ≤ kMaximumSmokeJsonBytes)
    (.runtimeError "benchmark corpus exceeds the 16 MiB input limit")
  ensure (0 ∉ file) (.runtimeError "benchmark corpus contains a NUL byte")
  let records ← parseLines parse 1 (getlines 0x0a file)
  ensure (records.length = kAcceptanceNormalCases + 2)
    (.runtimeError
      "benchmark corpus requires a header, exactly 108 normal cases, and one cancel case")
  let header ← parseHeader (records.headD .null) records.length
  let normalCases ← parseCorpusCases sha256 2 []
    ((records.drop 1).take kAcceptanceNormalCases)
  let cancelCase ← parseCorpusCase sha256 (records.getLastD .null) (kAcceptanceNormalCases + 2)
    "cancel_case"
  ensure (cancelCase.caseId ∉ normalCases.map CorpusCase.caseId)
    (.runtimeError "duplicate cancel case_id")
  return ⟨header.1, header.2, digestHex sha256 file, normalCases, cancelCase⟩

end Reader

end MagpieTts.Frontend
