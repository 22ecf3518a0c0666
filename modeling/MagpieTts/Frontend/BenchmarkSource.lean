import MagpieTts.Library.JsonWriter
import Mathlib.Algebra.Group.Int.Defs
import Mathlib.Algebra.Group.Nat.Defs

/-!
# The source of the benchmark corpus

`load_benchmark_source` of `generate_benchmark_corpus.py` reads a JSON document of 108 cases and one
that is cancelled; `generate_corpus_bytes` writes a header and the cases with the token identifiers
that a front end prepares, one record on a line.

## Main definitions

* `loadBenchmarkSource`: the document.
* `generateCorpusBytes`: the lines.
-/

namespace MagpieTts.Frontend

open MagpieTts.Library

/-- What the generator raises. -/
inductive CorpusException
  | corpusSourceError (message : String)
  /-- The keys of a mapping differ from those that are expected. -/
  | keysMismatch (label : String)
  /-- `int` of too many digits. -/
  | valueError
  | recursionError
  | unicodeEncodeError
  /-- What the front end raises. -/
  | frontendError
  deriving Repr, DecidableEq

/-! ### Values -/

section Json

mutual

/-- No object has a key twice. -/
def distinctKeys : JsonValue → Bool
  | .array elements => elementsDistinctKeys elements
  | .object members => decide (members.map Prod.fst).Nodup && membersDistinctKeys members
  | _ => true

def elementsDistinctKeys : List JsonValue → Bool
  | [] => true
  | element :: elements => distinctKeys element && elementsDistinctKeys elements

def membersDistinctKeys : List (CodePoints × JsonValue) → Bool
  | [] => true
  | (_, value) :: members => distinctKeys value && membersDistinctKeys members

end

mutual

/-- No number is one of the constants that are not finite. -/
def finiteNumbers : JsonValue → Bool
  | .float .nan => false
  | .float (.infinity _) => false
  | .array elements => elementsFiniteNumbers elements
  | .object members => membersFiniteNumbers members
  | _ => true

def elementsFiniteNumbers : List JsonValue → Bool
  | [] => true
  | element :: elements => finiteNumbers element && elementsFiniteNumbers elements

def membersFiniteNumbers : List (CodePoints × JsonValue) → Bool
  | [] => true
  | (_, value) :: members => finiteNumbers value && membersFiniteNumbers members

end

/-- The members have the expected keys and no others. -/
def HasKeys (expected : List String) (members : List (CodePoints × JsonValue)) : Prop :=
  (∀ member ∈ members, member.1 ∈ expected.map codePoints) ∧
    ∀ key ∈ expected, codePoints key ∈ members.map Prod.fst

instance (expected : List String) (members : List (CodePoints × JsonValue)) :
    Decidable (HasKeys expected members) :=
  inferInstanceAs (Decidable (_ ∧ _))

/-- `_require_exact_keys`. -/
def requireExactKeys (value : JsonValue) (expected : List String) (label : String) :
    Except CorpusException (List (CodePoints × JsonValue)) :=
  match value with
  | .object members =>
    if HasKeys expected members then .ok members else .error (.keysMismatch label)
  | _ => .error (.keysMismatch label)

/-- `_require_string`. -/
def requireNonemptyString (value : Option JsonValue) (label : String) :
    Except CorpusException CodePoints :=
  match value with
  | some (.string text) =>
    if text = [] then .error (.corpusSourceError (label ++ " must be a non-empty string"))
    else .ok text
  | _ => .error (.corpusSourceError (label ++ " must be a non-empty string"))

/-- `_require_uint32`. -/
def requireUint32 (value : Option JsonValue) (label : String) : Except CorpusException ℕ :=
  match value with
  | some (.integer value) =>
    if 0 ≤ value ∧ value ≤ 2 ^ 32 - 1 then .ok value.toNat
    else .error (.corpusSourceError (label ++ " must be a uint32"))
  | _ => .error (.corpusSourceError (label ++ " must be a uint32"))

end Json

/-- An ASCII letter or digit. -/
def isAsciiAlnum (point : ℕ) : Bool :=
  (0x30 ≤ point && point ≤ 0x39) || (0x41 ≤ point && point ≤ 0x5a) || (0x61 ≤ point && point ≤ 0x7a)

/-- `_valid_identifier`. A first character that is not ASCII is refused with all of them, whatever
`isalnum` says of it. -/
def validIdentifier (value : CodePoints) : Bool :=
  match value with
  | [] => false
  | first :: _ =>
    value.length ≤ 64 && isAsciiAlnum first &&
      value.all fun point => isAsciiAlnum point || point == 0x5f || point == 0x2d

/-- `"0123456789abcdef"`. -/
def isHexPoint (point : ℕ) : Bool :=
  (0x30 ≤ point && point ≤ 0x39) || (0x61 ≤ point && point ≤ 0x66)

/-- The digits of a digest that is not zero. -/
def IsSha256 (digest : CodePoints) : Prop :=
  digest.length = 64 ∧ digest ≠ List.replicate 64 0x30 ∧ ∀ point ∈ digest, isHexPoint point = true

instance (digest : CodePoints) : Decidable (IsSha256 digest) :=
  inferInstanceAs (Decidable (_ ∧ _ ∧ _))

/-- `_require_sha256`. -/
def requireSha256 (value : Option JsonValue) (label : String) :
    Except CorpusException CodePoints := do
  let digest ← requireNonemptyString value label
  ensure (IsSha256 digest)
    (.corpusSourceError (label ++ " must be a nonzero lowercase SHA-256"))
  return digest

def isJapanese (point : ℕ) : Bool :=
  (0x3040 ≤ point && point ≤ 0x30ff) || (0x3400 ≤ point && point ≤ 0x9fff)

/-- `_contains_japanese`. -/
def containsJapanese (sourceText : CodePoints) : Bool := sourceText.any isJapanese

/-! ### The document -/

structure BenchmarkSourceCase where
  caseId : CodePoints
  category : CodePoints
  sourceText : CodePoints
  randomSeed : ℕ
  deriving Repr, DecidableEq

structure BenchmarkSource where
  corpusId : CodePoints
  tokenizerIdentitySha256 : CodePoints
  normalCases : List BenchmarkSourceCase
  cancelCase : BenchmarkSourceCase
  deriving Repr, DecidableEq

def sourceSchema : CodePoints := codePoints "magpie-tts-rt.benchmark-source.v1"

def acceptanceNormalCases : ℕ := 108

def maximumSourceBytes : ℕ := 4096

def maximumSourceFileBytes : ℕ := 4 * 1024 * 1024

def requiredCategories : List CodePoints :=
  ["short", "filler", "conversation", "punctuation", "number_unit", "latin_abbreviation", "spatial",
    "robot_instruction", "long"].map codePoints

/-- `source_text.encode("utf-8")`. -/
def encodeText (text : CodePoints) : Except CorpusException Bytes :=
  match encodePoints text with
  | none => .error .unicodeEncodeError
  | some bytes => .ok bytes

/-- The category of a case. -/
def parseCategory (record : List (CodePoints × JsonValue)) (label : String) :
    Bool → Except CorpusException CodePoints
  | true => do
    let category ← requireNonemptyString (record.lookup (codePoints "category"))
      (label ++ ".category")
    ensure (category ∈ requiredCategories)
      (.corpusSourceError (label ++ ".category is unsupported"))
    return category
  | false => .ok (codePoints "cancel")

/-- `_parse_case`. -/
def parseCase (value : JsonValue) (label : String) (requireCategory : Bool) :
    Except CorpusException BenchmarkSourceCase := do
  let record ← requireExactKeys value
    (if requireCategory then ["case_id", "category", "source_text", "random_seed"]
      else ["case_id", "source_text", "random_seed"]) label
  let caseId ← requireNonemptyString (record.lookup (codePoints "case_id")) (label ++ ".case_id")
  ensure (validIdentifier caseId = true)
    (.corpusSourceError (label ++ ".case_id is not a valid identifier"))
  let sourceText ← requireNonemptyString (record.lookup (codePoints "source_text"))
    (label ++ ".source_text")
  let encoded ← encodeText sourceText
  ensure (encoded.length ≤ maximumSourceBytes ∧ containsJapanese sourceText = true)
    (.corpusSourceError (label ++ ".source_text must contain Japanese and fit 4096 UTF-8 bytes"))
  let category ← parseCategory record label requireCategory
  let randomSeed ← requireUint32 (record.lookup (codePoints "random_seed"))
    (label ++ ".random_seed")
  return ⟨caseId, category, sourceText, randomSeed⟩

/-- The loop over `source.cases`. -/
def parseCases : ℕ → List JsonValue → Except CorpusException (List BenchmarkSourceCase)
  | _, [] => .ok []
  | index, value :: values => do
    let parsed ← parseCase value ("source.cases[" ++ toString index ++ "]") true
    let rest ← parseCases (index + 1) values
    return parsed :: rest

/-- The array of the cases, which has the declared length. -/
def requireCases (value : Option JsonValue) : Except CorpusException (List JsonValue) :=
  match value with
  | some (.array values) =>
    if values.length = acceptanceNormalCases then .ok values
    else .error (.corpusSourceError "source.cases length differs from normal_case_count")
  | _ => .error (.corpusSourceError "source.cases length differs from normal_case_count")

/-- `normal_case_count` is the integer 108. -/
def DeclaresCount (value : Option JsonValue) : Prop :=
  match value with
  | some (.integer count) => count = acceptanceNormalCases
  | _ => False

instance (value : Option JsonValue) : Decidable (DeclaresCount value) := by
  unfold DeclaresCount
  split <;> infer_instance

/-- The schema of the document. -/
def HasSchema (value : Option JsonValue) (schema : CodePoints) : Prop :=
  match value with
  | some (.string text) => text = schema
  | _ => False

instance (value : Option JsonValue) (schema : CodePoints) : Decidable (HasSchema value schema) := by
  unfold HasSchema
  split <;> infer_instance

/-- The checks of the document. -/
def parseSource (document : JsonValue) : Except CorpusException BenchmarkSource := do
  let root ← requireExactKeys document ["schema_version", "corpus_id",
    "tokenizer_identity_sha256", "normal_case_count", "cases", "cancel_case"] "source"
  ensure (HasSchema (root.lookup (codePoints "schema_version")) sourceSchema)
    (.corpusSourceError "unsupported benchmark source schema")
  let corpusId ← requireNonemptyString (root.lookup (codePoints "corpus_id")) "source.corpus_id"
  ensure (validIdentifier corpusId = true)
    (.corpusSourceError "source.corpus_id is not a valid identifier")
  let tokenizerIdentity ← requireSha256 (root.lookup (codePoints "tokenizer_identity_sha256"))
    "source.tokenizer_identity_sha256"
  ensure (DeclaresCount (root.lookup (codePoints "normal_case_count")))
    (.corpusSourceError "source.normal_case_count must be exactly 108")
  let rawCases ← requireCases (root.lookup (codePoints "cases"))
  let normalCases ← parseCases 0 rawCases
  let cancelCase ← parseCase ((root.lookup (codePoints "cancel_case")).getD .null)
    "source.cancel_case" false
  let allCases := normalCases ++ [cancelCase]
  ensure (allCases.map BenchmarkSourceCase.caseId).Nodup
    (.corpusSourceError "benchmark source contains duplicate case_id")
  ensure (allCases.map BenchmarkSourceCase.randomSeed).Nodup
    (.corpusSourceError "benchmark source contains duplicate random_seed")
  ensure (allCases.map BenchmarkSourceCase.sourceText).Nodup
    (.corpusSourceError "benchmark source contains duplicate source_text")
  ensure (∀ category ∈ requiredCategories,
      category ∈ normalCases.map BenchmarkSourceCase.category)
    (.corpusSourceError "benchmark source category coverage mismatch")
  return ⟨corpusId, tokenizerIdentity, normalCases, cancelCase⟩

/-- The line ends that a file has when it is read as text. -/
def universalNewlines : List Char → List Char
  | '\r' :: '\n' :: rest => '\n' :: universalNewlines rest
  | '\r' :: rest => '\n' :: universalNewlines rest
  | character :: rest => character :: universalNewlines rest
  | [] => []
termination_by structural text => text

/-- `json.loads` with the two hooks of `load_benchmark_source`. -/
def loadDocument (limits : JsonLimits) (text : List Char) : Except CorpusException JsonValue :=
  match scanText limits text with
  | .error .decodeError => .error (.corpusSourceError "cannot read strict benchmark source JSON")
  | .error .integerTooLong => .error .valueError
  | .error .nestedTooDeeply => .error .recursionError
  | .ok document =>
    if distinctKeys document = false then .error (.corpusSourceError "duplicate JSON key")
    else if finiteNumbers document = false then
      .error (.corpusSourceError "non-finite JSON number is forbidden")
    else .ok document

/-- `load_benchmark_source`, from the bytes of the file. -/
def loadBenchmarkSource (limits : JsonLimits) (file : Bytes) :
    Except CorpusException BenchmarkSource := do
  ensure (file ≠ [])
    (.corpusSourceError "--source must be an absolute non-symlink regular file")
  ensure (file.length ≤ maximumSourceFileBytes)
    (.corpusSourceError "benchmark source exceeds the 4 MiB limit")
  match decodeUtf8 file with
  | none => .error (.corpusSourceError "cannot read strict benchmark source JSON")
  | some text => do
    let document ← loadDocument limits (universalNewlines text)
    parseSource document

/-! ### The corpus -/

/-- An element of `global_token_ids`. -/
inductive CorpusToken
  | integer (value : ℤ)
  /-- A value of another type, a Boolean value for one. -/
  | other
  deriving Repr, DecidableEq

/-- A front end: `list(prepare(text).global_token_ids)`. The texts of a source differ, so that the
answers of one run are a function of the text. -/
abbrev CorpusFrontend := CodePoints → Except CorpusException (List CorpusToken)

def maximumPreparedTokens : ℕ := 512

/-- An element that is an `INT32`. -/
def requireInt32 : CorpusToken → Except CorpusException ℕ
  | .integer value =>
    if 0 ≤ value ∧ value ≤ 2 ^ 31 - 1 then .ok value.toNat
    else .error (.corpusSourceError "token is not INT32")
  | .other => .error (.corpusSourceError "token is not INT32")

/-- `_prepared_token_ids`. -/
def preparedTokenIds (frontend : CorpusFrontend) (sourceCase : BenchmarkSourceCase) :
    Except CorpusException (List ℕ) := do
  let tokens ← frontend sourceCase.sourceText
  ensure (1 ≤ tokens.length ∧ tokens.length ≤ maximumPreparedTokens)
    (.corpusSourceError "prepared token count is outside [1, 512]")
  tokens.mapM requireInt32

/-- The digits of a digest. -/
def hexdigest (digest : Bytes) : CodePoints :=
  digest.flatMap fun byte => [hexPoint (byte.toNat / 16), hexPoint (byte.toNat % 16)]
where
  hexPoint (nibble : ℕ) : ℕ := if nibble < 10 then 0x30 + nibble else 0x61 + (nibble - 10)

section Generate

variable (sha256 : Bytes → Bytes)

/-- The members of the record of a case. -/
def caseMembers (sourceCase : BenchmarkSourceCase) (recordType : String) (encoded : Bytes)
    (tokenIds : List ℕ) : List (CodePoints × JsonRecord) :=
  [(codePoints "record_type", .string (codePoints recordType)),
    (codePoints "case_id", .string sourceCase.caseId),
    (codePoints "source_text", .string sourceCase.sourceText),
    (codePoints "source_text_sha256", .string (hexdigest (sha256 encoded))),
    (codePoints "prepared_token_ids",
      .array (tokenIds.map fun tokenId : ℕ => .integer (tokenId : ℤ))),
    (codePoints "random_seed", .integer (sourceCase.randomSeed : ℤ))]

/-- `_case_record`. -/
def caseRecord (frontend : CorpusFrontend) (sourceCase : BenchmarkSourceCase)
    (recordType : String) : Except CorpusException JsonRecord := do
  let encoded ← encodeText sourceCase.sourceText
  let tokenIds ← preparedTokenIds frontend sourceCase
  return .object (caseMembers sha256 sourceCase recordType encoded tokenIds)

def outputSchema : CodePoints := codePoints "magpie-tts-rt.benchmark-corpus.v1"

/-- The members of the record in front of the cases. -/
def headerMembers (source : BenchmarkSource) (identity : CodePoints) :
    List (CodePoints × JsonRecord) :=
  [(codePoints "record_type", .string (codePoints "header")),
    (codePoints "schema_version", .string outputSchema),
    (codePoints "corpus_id", .string source.corpusId),
    (codePoints "tokenizer_identity_sha256", .string identity),
    (codePoints "normal_case_count", .integer (source.normalCases.length : ℤ))]

def maximumOutputBytes : ℕ := 16 * 1024 * 1024

/-- `generate_corpus_bytes`. -/
def generateCorpusBytes (source : BenchmarkSource) (frontend : CorpusFrontend)
    (actualTokenizerIdentitySha256 : CodePoints) : Except CorpusException Bytes := do
  let actualIdentity ← requireSha256 (some (.string actualTokenizerIdentitySha256))
    "actual tokenizer identity"
  ensure (actualIdentity = source.tokenizerIdentitySha256)
    (.corpusSourceError "frontend tokenizer identity differs from the tracked source pin")
  let normalRecords ← source.normalCases.mapM fun sourceCase =>
    caseRecord sha256 frontend sourceCase "case"
  let cancelRecord ← caseRecord sha256 frontend source.cancelCase "cancel_case"
  let records := .object (headerMembers source actualIdentity) :: (normalRecords ++ [cancelRecord])
  let payload ← encodeText ([0x0a].intercalate (records.map JsonRecord.dumps) ++ [0x0a])
  ensure (payload.length ≤ maximumOutputBytes)
    (.corpusSourceError "generated corpus exceeds the 16 MiB limit")
  return payload

end Generate

end MagpieTts.Frontend
