import Mathlib.Algebra.Order.BigOperators.Group.List
import Mathlib.Algebra.Order.Ring.Nat
import MagpieTts.Frontend.CorpusRoundTrip
import MagpieTts.Library.Sha256

/-!
# The size of a benchmark corpus

The bounds of a source bound the lines of its corpus, so that the limit of the output is never met:
whether a corpus is generated depends on the identity of the tokenizer and on the token lists alone.

## Main results

* `length_recordLine_caseMembers_le`: the line of a case.
* `exists_generateCorpusBytes_iff`: when a corpus is generated.
* `benchmarkCorpus_roundTrip`: the reader returns the corpus that is generated.
-/

namespace MagpieTts.Frontend

open MagpieTts.Library

/-! ### Texts -/

theorem length_encodeUtf8_le (text : List Char) :
    (encodeUtf8 text).length ≤ 4 * text.length := by
  induction text with
  | nil => exact Nat.le_refl 0
  | cons character text ih =>
    have hle : (String.utf8EncodeChar character).length ≤ 4 := by
      unfold String.utf8EncodeChar
      dsimp only
      split_ifs <;> exact Nat.le_of_ble_eq_true rfl
    rw [encodeUtf8, List.flatMap_cons, List.length_append, ← encodeUtf8, List.length_cons]
    omega

theorem length_escapePoint_le (point : ℕ) : (escapePoint point).length ≤ 6 := by
  unfold escapePoint
  split_ifs <;> exact Nat.le_of_ble_eq_true rfl

theorem length_quotePoints_le (text : CodePoints) :
    (quotePoints text).length ≤ 6 * text.length + 2 := by
  have hflat : (text.flatMap escapePoint).length ≤ 6 * text.length := by
    induction text with
    | nil => exact Nat.le_refl 0
    | cons point text ih =>
      have hle := length_escapePoint_le point
      rw [List.flatMap_cons, List.length_append, List.length_cons]
      omega
  rw [quotePoints, List.length_cons, List.length_append, List.length_singleton]
  omega

theorem length_joinCommas_le (texts : List CodePoints) :
    (joinCommas texts).length ≤ (texts.map fun text => text.length + 1).sum := by
  induction texts with
  | nil => exact Nat.le_refl 0
  | cons first rest ih =>
    rw [List.map_cons, List.sum_cons]
    cases rest with
    | nil =>
      rw [joinCommas]
      omega
    | cons second rest =>
      have hjoin : joinCommas (first :: second :: rest) =
          first ++ 0x2c :: joinCommas (second :: rest) := rfl
      rw [hjoin, List.length_append, List.length_cons]
      omega

/-- The text of an object, from the texts of its members. -/
theorem length_dumps_object_le (members : List (CodePoints × JsonRecord)) :
    (JsonRecord.dumps (.object members)).length ≤
      2 + (members.map fun member => 6 * member.1.length + member.2.dumps.length + 4).sum := by
  have hobject := congrArg List.length (JsonRecord.dumps_object members)
  rw [characters, List.length_map, List.length_cons, List.length_append, List.length_singleton,
    characters, List.length_map] at hobject
  have hjoin := length_joinCommas_le
    ((sortMembersByKey members).map (memberText JsonRecord.dumps))
  rw [List.map_map] at hjoin
  have hperm := ((perm_sortMembersByKey members).map
    ((fun text : CodePoints => text.length + 1) ∘ memberText JsonRecord.dumps)).sum_eq
  have hmembers : (members.map ((fun text : CodePoints => text.length + 1) ∘
      memberText JsonRecord.dumps)).sum ≤
      (members.map fun member => 6 * member.1.length + member.2.dumps.length + 4).sum := by
    refine List.sum_le_sum fun member _ => ?_
    have hkey := length_quotePoints_le member.1
    rw [Function.comp_apply, memberText, List.length_append, List.length_cons]
    omega
  omega

theorem length_recordLine_le (record : JsonRecord) :
    (recordLine record).length ≤ 4 * record.dumps.length + 1 := by
  have hline := length_encodeUtf8_le (record.dumps.map Char.ofNat)
  rw [List.length_map] at hline
  rw [recordLine, List.length_append, List.length_singleton]
  omega

/-! ### Values -/

theorem length_dumps_string_le (text : CodePoints) :
    (JsonRecord.dumps (.string text)).length ≤ 6 * text.length + 2 := by
  rw [JsonRecord.dumps]
  exact length_quotePoints_le text

theorem length_dumps_natural_le {value : ℕ} (h : value < 10 ^ 10) :
    (JsonRecord.dumps (.integer (value : ℤ))).length ≤ 10 := by
  have hrepr : (value : ℤ).repr.toList = Nat.toDigits 10 value := Nat.toList_repr
  rw [JsonRecord.dumps, List.length_map, hrepr]
  exact (Nat.length_toDigits_le_iff (by decide) (by decide)).mpr h

theorem length_dumps_array_le {elements : List JsonRecord} {bound : ℕ}
    (h : ∀ element ∈ elements, element.dumps.length ≤ bound) :
    (JsonRecord.dumps (.array elements)).length ≤ 2 + (bound + 1) * elements.length := by
  have harray := congrArg List.length (JsonRecord.dumps_array elements)
  rw [characters, List.length_map, List.length_cons, List.length_append, List.length_singleton,
    characters, List.length_map] at harray
  have hjoin := length_joinCommas_le (elements.map JsonRecord.dumps)
  rw [List.map_map] at hjoin
  have hsum := List.sum_le_card_nsmul (elements.map
    ((fun text : CodePoints => text.length + 1) ∘ JsonRecord.dumps)) (bound + 1) (by
      rw [List.forall_mem_map]
      exact fun element hmem => Nat.succ_le_succ (h element hmem))
  rw [List.length_map, Nat.nsmul_eq_mul, Nat.mul_comm] at hsum
  omega

theorem length_dumps_naturals_le {values : List ℕ} (h : ∀ value ∈ values, value < 10 ^ 10) :
    (JsonRecord.dumps (.array (values.map fun value : ℕ => .integer (value : ℤ)))).length ≤
      2 + 11 * values.length := by
  have harray : ∀ element ∈ values.map fun value : ℕ => JsonRecord.integer (value : ℤ),
      element.dumps.length ≤ 10 := by
    rw [List.forall_mem_map]
    exact fun value hmem => length_dumps_natural_le (h value hmem)
  have hle := length_dumps_array_le harray
  rwa [List.length_map] at hle

/-- The member adds at most `bound` code points to the text of its object. -/
def MemberFits (bound : ℕ) (member : CodePoints × JsonRecord) : Prop :=
  6 * member.1.length + member.2.dumps.length + 4 ≤ bound

theorem length_dumps_object_le_of_fits {members : List (CodePoints × JsonRecord)} {bound : ℕ}
    (h : ∀ member ∈ members, MemberFits bound member) :
    (JsonRecord.dumps (.object members)).length ≤ 2 + members.length * bound := by
  have hsum := List.sum_le_card_nsmul
    (members.map fun member => 6 * member.1.length + member.2.dumps.length + 4) bound
    (List.forall_mem_map.mpr h)
  rw [List.length_map, Nat.nsmul_eq_mul] at hsum
  exact (length_dumps_object_le members).trans (Nat.add_le_add_left hsum 2)

theorem memberFits_of_le {key : CodePoints} {record : JsonRecord} {bound keyLength length : ℕ}
    (hkey : key.length ≤ keyLength) (hrecord : record.dumps.length ≤ length)
    (hbound : 6 * keyLength + length + 4 ≤ bound) : MemberFits bound (key, record) := by
  unfold MemberFits
  dsimp only
  omega

theorem memberFits_string {key text : CodePoints} {bound keyLength length : ℕ}
    (hkey : key.length ≤ keyLength) (htext : text.length ≤ length)
    (hbound : 6 * keyLength + 6 * length + 6 ≤ bound) : MemberFits bound (key, .string text) := by
  have hstring : (JsonRecord.dumps (.string text)).length ≤ 6 * length + 2 :=
    (length_dumps_string_le text).trans (by omega)
  exact memberFits_of_le hkey hstring (by omega)

/-! ### Lines -/

section Lines

variable {sha256 : Bytes → Bytes} {sourceCase : BenchmarkSourceCase}

theorem length_hexdigest (digest : Bytes) : (hexdigest digest).length = 2 * digest.length := by
  induction digest with
  | nil => rfl
  | cons byte digest ih =>
    rw [hexdigest, List.flatMap_cons, List.length_append, ← hexdigest, ih, List.length_cons,
      List.length_cons, List.length_cons, List.length_nil]
    omega

theorem length_le_of_validIdentifier {value : CodePoints} (h : validIdentifier value = true) :
    value.length ≤ 64 := by
  unfold validIdentifier at h
  split at h
  next => cases h
  next =>
    simp only [Bool.and_eq_true, decide_eq_true_eq] at h
    exact h.1.1

/-- The line of a case. -/
theorem length_recordLine_caseMembers_le (hcase : sourceCase.WellFormed) {recordType : String}
    (htype : recordType.length ≤ 11) {encoded : Bytes} (hdigest : (sha256 encoded).length = 32)
    {tokenIds : List ℕ} (hcount : tokenIds.length ≤ maximumPreparedTokens)
    (htokens : ∀ tokenId ∈ tokenIds, tokenId ≤ 2 ^ 31 - 1) :
    (recordLine (.object (caseMembers sha256 sourceCase recordType encoded tokenIds))).length ≤
      130000 := by
  have hid := length_le_of_validIdentifier hcase.caseId
  have htext : sourceCase.sourceText.length ≤ 4096 := by
    have hle := length_le_length_encodeUtf8 (characters sourceCase.sourceText)
    rw [characters, List.length_map] at hle
    exact hle.trans hcase.bounded
  have hseed := hcase.seed
  have hline := length_recordLine_le
    (.object (caseMembers sha256 sourceCase recordType encoded tokenIds))
  have hobject := length_dumps_object_le (caseMembers sha256 sourceCase recordType encoded tokenIds)
  have hrecordType := length_dumps_string_le (codePoints recordType)
  have hcaseId := length_dumps_string_le sourceCase.caseId
  have hsourceText := length_dumps_string_le sourceCase.sourceText
  have hsha := length_dumps_string_le (hexdigest (sha256 encoded))
  have hnumbers := length_dumps_naturals_le fun tokenId hmem =>
    (show tokenId < 10 ^ 10 from (htokens tokenId hmem).trans_lt (by decide))
  have hrandomSeed := @length_dumps_natural_le sourceCase.randomSeed
    (hseed.trans_lt (by decide))
  rw [length_hexdigest, hdigest] at hsha
  have hlength : (codePoints recordType).length = recordType.length := by
    rw [codePoints, List.length_map, String.length_toList]
  have hkeys : (codePoints "record_type").length = 11 ∧ (codePoints "case_id").length = 7 ∧
      (codePoints "source_text").length = 11 ∧ (codePoints "source_text_sha256").length = 18 ∧
        (codePoints "prepared_token_ids").length = 18 ∧
          (codePoints "random_seed").length = 11 := by
    decide
  have hmaximum : maximumPreparedTokens = 512 := rfl
  rw [caseMembers] at hline hobject ⊢
  simp only [List.map_cons, List.map_nil, List.sum_cons, List.sum_nil, hkeys] at hobject
  omega

/-- The line of the header. -/
theorem length_recordLine_headerMembers_le {source : BenchmarkSource}
    (hsource : source.WellFormed) :
    (recordLine (.object (headerMembers source source.tokenizerIdentitySha256))).length ≤
      130000 := by
  have hid := length_le_of_validIdentifier hsource.corpusId
  have hidentity := hsource.identity.1
  have hcount : source.normalCases.length = 108 := hsource.count
  have hline := length_recordLine_le
    (.object (headerMembers source source.tokenizerIdentitySha256))
  have hobject := length_dumps_object_le (headerMembers source source.tokenizerIdentitySha256)
  have hrecordType := length_dumps_string_le (codePoints "header")
  have hschema := length_dumps_string_le outputSchema
  have hcorpusId := length_dumps_string_le source.corpusId
  have hsha := length_dumps_string_le source.tokenizerIdentitySha256
  have hnumber := @length_dumps_natural_le source.normalCases.length (by rw [hcount]; decide)
  have hkeys : (codePoints "record_type").length = 11 ∧ (codePoints "schema_version").length = 14 ∧
      (codePoints "corpus_id").length = 9 ∧ (codePoints "tokenizer_identity_sha256").length = 25 ∧
        (codePoints "normal_case_count").length = 17 ∧ (codePoints "header").length = 6 ∧
          outputSchema.length = 33 := by
    decide
  rw [headerMembers] at hline hobject ⊢
  simp only [List.map_cons, List.map_nil, List.sum_cons, List.sum_nil, hkeys] at hobject
  omega

variable {frontend : CorpusFrontend}

/-- The record of a case that is generated. -/
theorem length_recordLine_le_of_isCaseRecord (hdigest : ∀ bytes, (sha256 bytes).length = 32)
    (hcase : sourceCase.WellFormed) {recordType : String} (htype : recordType.length ≤ 11)
    {record : JsonRecord} (h : IsCaseRecord sha256 frontend recordType sourceCase record) :
    (recordLine record).length ≤ 130000 := by
  obtain ⟨tokenIds, htokens, rfl⟩ := h
  obtain ⟨-, hcount, hbound⟩ := preparedTokenIds_ok htokens
  exact length_recordLine_caseMembers_le hcase htype (hdigest _) hcount hbound

theorem encodable_dumps_of_isCaseRecord (hcase : sourceCase.WellFormed) {recordType : String}
    {record : JsonRecord} (h : IsCaseRecord sha256 frontend recordType sourceCase record) :
    Encodable record.dumps := by
  obtain ⟨tokenIds, htokens, rfl⟩ := h
  exact (recordMembers_caseMembers hcase recordType _
    (preparedTokenIds_ok htokens).2.2).encodable_dumps

theorem caseRecord_of_preparedTokenIds (hcase : sourceCase.WellFormed) {tokenIds : List ℕ}
    (htokens : preparedTokenIds frontend sourceCase = .ok tokenIds) (recordType : String) :
    ∃ record, caseRecord sha256 frontend sourceCase recordType = .ok record := by
  refine ⟨.object (caseMembers sha256 sourceCase recordType
    (encodeUtf8 (characters sourceCase.sourceText)) tokenIds), ?_⟩
  rw [caseRecord, encodeText_eq_ok_iff.mpr ⟨hcase.encodable, rfl⟩, ok_bind, htokens, ok_bind]
  rfl

end Lines

/-! ### The corpus -/

theorem length_flatMap_recordLine_le {records : List JsonRecord} {bound : ℕ}
    (h : ∀ record ∈ records, (recordLine record).length ≤ bound) :
    (records.flatMap recordLine).length ≤ records.length * bound := by
  induction records with
  | nil => exact Nat.zero_le _
  | cons record records ih =>
    have hrecord := h record List.mem_cons_self
    have hrest := ih fun other hmem => h other (List.mem_cons_of_mem _ hmem)
    rw [List.flatMap_cons, List.length_append, List.length_cons, Nat.succ_mul]
    omega

/-- The records of a corpus and their payload. -/
theorem encodeText_intercalate {first : JsonRecord} {rest : List JsonRecord}
    (h : ∀ record ∈ first :: rest, Encodable record.dumps) :
    encodeText ([0x0a].intercalate ((first :: rest).map JsonRecord.dumps) ++ [0x0a]) =
      .ok ((first :: rest).flatMap recordLine) := by
  rw [encodeText_eq_ok_iff, List.map_cons, intercalate_feed_append, ← List.map_cons,
    List.flatMap_map]
  refine ⟨fun point hmem => ?_, (encodeUtf8_flatMap_dumps _).symm⟩
  obtain ⟨record, hrecord, hpoint⟩ := List.mem_flatMap.mp hmem
  rcases List.mem_append.mp hpoint with hpoint | hpoint
  · exact h record hrecord point hpoint
  · rw [List.mem_singleton.mp hpoint]
    exact isValidChar_of_ascii (by decide)

theorem requireSha256_string {text digest : CodePoints} {label : String}
    (h : requireSha256 (some (.string text)) label = .ok digest) : digest = text := by
  obtain ⟨found, hfound, h⟩ := bind_eq_ok_iff.mp h
  obtain ⟨-, h⟩ := bind_unit_eq_ok_iff.mp h
  cases h
  unfold requireNonemptyString at hfound
  dsimp only at hfound
  split at hfound
  next => cases hfound
  next => exact (Except.ok.inj hfound).symm

theorem requireSha256_of_isSha256 {digest : CodePoints} (h : IsSha256 digest) (label : String) :
    requireSha256 (some (.string digest)) label = .ok digest := by
  have hne : digest ≠ [] := by
    rintro rfl
    cases h.1
  rw [requireSha256, requireNonemptyString, if_neg hne, ok_bind, ensure_of h]
  rfl

/-- **When a corpus is generated.** The limit of the output is never met. -/
theorem exists_generateCorpusBytes_iff {sha256 : Bytes → Bytes}
    (hdigest : ∀ bytes, (sha256 bytes).length = 32) {frontend : CorpusFrontend}
    {source : BenchmarkSource} (hsource : source.WellFormed) {identity : CodePoints} :
    (∃ payload, generateCorpusBytes sha256 source frontend identity = .ok payload) ↔
      identity = source.tokenizerIdentitySha256 ∧
        ∀ sourceCase ∈ source.normalCases ++ [source.cancelCase],
          ∃ tokenIds, preparedTokenIds frontend sourceCase = .ok tokenIds := by
  constructor
  · rintro ⟨payload, h⟩
    obtain ⟨normalRecords, cancelRecord, hnormal, ⟨tokenIds, htokens, -⟩, -, -⟩ :=
      generateCorpusBytes_ok h
    obtain ⟨actual, hactual, h⟩ := bind_eq_ok_iff.mp h
    obtain ⟨hpin, -⟩ := bind_unit_eq_ok_iff.mp h
    refine ⟨(requireSha256_string hactual).symm.trans (ensure_eq_ok_iff.mp hpin), ?_⟩
    rw [List.forall_mem_append, List.forall_mem_singleton]
    refine ⟨fun sourceCase hmem => ?_, tokenIds, htokens⟩
    obtain ⟨record, -, tokenIds, htokens, -⟩ := exists_of_mem_forall₂ hnormal.flip hmem
    exact ⟨tokenIds, htokens⟩
  · rintro ⟨rfl, htokens⟩
    rw [List.forall_mem_append, List.forall_mem_singleton] at htokens
    obtain ⟨htokens, cancelIds, hcancelIds⟩ := htokens
    obtain ⟨normalRecords, hnormalRecords⟩ :=
      (exists_mapM_eq_ok_iff (f := fun sourceCase =>
        caseRecord sha256 frontend sourceCase "case")).mpr fun sourceCase hmem => by
          obtain ⟨tokenIds, htokens⟩ := htokens sourceCase hmem
          exact caseRecord_of_preparedTokenIds (hsource.normalCases sourceCase hmem) htokens "case"
    obtain ⟨cancelRecord, hcancelRecord⟩ :=
      @caseRecord_of_preparedTokenIds sha256 _ _ hsource.cancelCase _ hcancelIds "cancel_case"
    have hnormal : ∀ record ∈ normalRecords, ∃ sourceCase ∈ source.normalCases,
        IsCaseRecord sha256 frontend "case" sourceCase record := fun record hmem => by
      obtain ⟨sourceCase, hcase, hrecord⟩ := exists_of_mem_mapM hnormalRecords hmem
      exact ⟨sourceCase, hcase, isCaseRecord_of_caseRecord hrecord⟩
    have hcancel := isCaseRecord_of_caseRecord hcancelRecord
    have hrecords : ∀ record ∈ JsonRecord.object (headerMembers source
        source.tokenizerIdentitySha256) :: (normalRecords ++ [cancelRecord]),
          Encodable record.dumps ∧ (recordLine record).length ≤ 130000 := by
      rw [List.forall_mem_cons, List.forall_mem_append, List.forall_mem_singleton]
      refine ⟨⟨(recordMembers_headerMembers hsource).encodable_dumps,
        length_recordLine_headerMembers_le hsource⟩, fun record hmem => ?_,
        encodable_dumps_of_isCaseRecord hsource.cancelCase hcancel,
        length_recordLine_le_of_isCaseRecord hdigest hsource.cancelCase (by decide) hcancel⟩
      obtain ⟨sourceCase, hmem, hrecord⟩ := hnormal record hmem
      have hcase := hsource.normalCases sourceCase hmem
      exact ⟨encodable_dumps_of_isCaseRecord hcase hrecord,
        length_recordLine_le_of_isCaseRecord hdigest hcase (by decide) hrecord⟩
    have hlength := length_flatMap_recordLine_le fun record hmem => (hrecords record hmem).2
    have hcount : normalRecords.length = 108 :=
      (mapM_eq_ok_iff.mp hnormalRecords).length_eq.symm.trans hsource.count
    rw [List.length_cons, List.length_append, hcount, List.length_singleton] at hlength
    have hfits : ((JsonRecord.object (headerMembers source source.tokenizerIdentitySha256) ::
        (normalRecords ++ [cancelRecord])).flatMap recordLine).length ≤ maximumOutputBytes :=
      hlength.trans (by decide)
    refine ⟨(JsonRecord.object (headerMembers source source.tokenizerIdentitySha256) ::
      (normalRecords ++ [cancelRecord])).flatMap recordLine, ?_⟩
    rw [generateCorpusBytes, requireSha256_of_isSha256 hsource.identity, ok_bind, ensure_of rfl,
      ok_bind, hnormalRecords, ok_bind, hcancelRecord, ok_bind]
    dsimp only
    rw [encodeText_intercalate fun record hmem => (hrecords record hmem).1, ok_bind,
      ensure_of hfits, ok_bind]
    rfl

/-! ### The round trip -/

/-- **The benchmark corpus round trip.** What is generated for a source that is loaded is accepted,
and the corpus of the reader is that of the generator. -/
theorem benchmarkCorpus_roundTrip {parse : Bytes → Option JsonValue}
    (hparse : ReadsStrictJson parse) {sha256 : Bytes → Bytes} {frontend : CorpusFrontend}
    {limits : JsonLimits} {file : Bytes} {source : BenchmarkSource} {identity : CodePoints}
    {payload : Bytes} (hsource : loadBenchmarkSource limits file = .ok source)
    (hpayload : generateCorpusBytes sha256 source frontend identity = .ok payload) :
    ∃ corpus, loadBenchmarkCorpus parse sha256 payload = .ok corpus ∧
      SameCorpus sha256 frontend source corpus :=
  loadBenchmarkCorpus_of_wellFormed hparse (wellFormed_of_loadBenchmarkSource hsource) hpayload

/-! ### A source with 108 cases -/

/-- A parser that is correct on strict JSON. -/
def scanLine (bytes : Bytes) : Option JsonValue :=
  (decodeUtf8 bytes).bind fun text => (scanText strictLimits text).toOption

theorem decodeUtf8_encodeUtf8 (text : List Char) : decodeUtf8 (encodeUtf8 text) = some text := by
  have hutf8 := decodeUtf8_utf8 (String.ofList text)
  rwa [utf8, String.toList_ofList] at hutf8

theorem readsStrictJson_scanLine : ReadsStrictJson scanLine := by
  intro value text _ htext
  rw [scanLine, decodeUtf8_encodeUtf8, Option.bind_some, scanText_eq_ok_iff.mpr htext]
  rfl

theorem universalNewlines_of_noReturn {text : List Char} (h : '\r' ∉ text) :
    universalNewlines text = text := by
  induction text with
  | nil => rfl
  | cons character text ih =>
    rw [List.mem_cons, not_or] at h
    have hreturn : character ≠ '\r' := Ne.symm h.1
    rw [universalNewlines, ih h.2]
    · exact fun _ heq => absurd heq hreturn
    · exact hreturn

/-- The members of a case with a text of one character. -/
def sampleMembers (index : ℕ) : List (CodePoints × JsonRecord) :=
  [(codePoints "case_id", .string (codePoints ("c" ++ toString index))),
    (codePoints "source_text", .string [0x4e00 + index]),
    (codePoints "random_seed", .integer (index : ℤ))]

def sampleCase (index : ℕ) : JsonRecord :=
  .object ((codePoints "category", .string (requiredCategories.getD (index % 9) [])) ::
    sampleMembers index)

def sampleIdentity : CodePoints := List.replicate 64 0x61

/-- A source with 108 cases. -/
def sampleDocument : JsonRecord :=
  .object [(codePoints "schema_version", .string sourceSchema),
    (codePoints "corpus_id", .string (codePoints "sample")),
    (codePoints "tokenizer_identity_sha256", .string sampleIdentity),
    (codePoints "normal_case_count", .integer 108),
    (codePoints "cases", .array ((List.range 108).map sampleCase)),
    (codePoints "cancel_case", .object (sampleMembers 108))]

def sampleFile : Bytes := encodeUtf8 (characters sampleDocument.dumps)

/-- A front end that prepares two tokens. -/
def sampleFrontend : CorpusFrontend := fun _ => .ok [.integer 7, .integer 2]

/-! ### The cases of the source -/

def sampleId (index : ℕ) : CodePoints := codePoints ("c" ++ toString index)

def sampleCategory (index : ℕ) : CodePoints := requiredCategories.getD (index % 9) []

/-- The case that the reader makes of a record. -/
def sampleSourceCase (category : CodePoints) (index : ℕ) : BenchmarkSourceCase :=
  ⟨sampleId index, category, [0x4e00 + index], index⟩

theorem sampleId_eq (index : ℕ) :
    sampleId index = 0x63 :: (Nat.toDigits 10 index).map Char.toNat := by
  have hrepr : (toString index).toList = Nat.toDigits 10 index := Nat.toList_repr
  rw [sampleId, codePoints, String.toList_append, List.map_append, hrepr]
  rfl

theorem length_sampleId_le {index : ℕ} (h : index < 10 ^ 3) : (sampleId index).length ≤ 4 := by
  have hdigits : (Nat.toDigits 10 index).length ≤ 3 :=
    (Nat.length_toDigits_le_iff (by decide) (by decide)).mpr h
  rw [sampleId_eq, List.length_cons, List.length_map]
  exact Nat.succ_le_succ hdigits

theorem sampleId_injective : Function.Injective sampleId := by
  intro index other h
  rw [sampleId_eq, sampleId_eq] at h
  have hdigits : Nat.toDigits 10 index = Nat.toDigits 10 other :=
    List.map_injective_iff.mpr (fun _ _ => Char.toNat_inj.mp) (List.cons.inj h).2
  rw [← @Nat.ofDigitChars_toDigits 10 index (by decide) (by decide), hdigits]
  exact Nat.ofDigitChars_toDigits (by decide) (by decide)

theorem validIdentifier_sampleId {index : ℕ} (h : index < 10 ^ 3) :
    validIdentifier (sampleId index) = true := by
  have hlength := length_sampleId_le h
  rw [sampleId_eq] at hlength ⊢
  rw [validIdentifier, Bool.and_eq_true, Bool.and_eq_true, decide_eq_true_eq, List.all_eq_true]
  refine ⟨⟨hlength.trans (by decide), rfl⟩, List.forall_mem_cons.mpr ⟨rfl, ?_⟩⟩
  rw [List.forall_mem_map]
  intro digit hmem
  have hdigit := Char.isDigit_iff_toNat.mp
    (Nat.isDigit_of_mem_toDigits (by decide) (by decide) hmem)
  rw [Bool.or_eq_true, Bool.or_eq_true, isAsciiAlnum, Bool.or_eq_true, Bool.or_eq_true,
    Bool.and_eq_true, decide_eq_true_eq, decide_eq_true_eq]
  exact .inl (.inl (.inl (.inl hdigit)))

theorem sampleCategory_mem (index : ℕ) : sampleCategory index ∈ requiredCategories := by
  have hlength : index % 9 < requiredCategories.length := Nat.mod_lt _ (Nat.succ_pos 8)
  rw [sampleCategory, List.getD_eq_getElem?_getD, List.getElem?_eq_getElem hlength]
  exact List.getElem_mem hlength

theorem exists_sampleCategory {category : CodePoints} (h : category ∈ requiredCategories) :
    ∃ index < 108, sampleCategory index = category := by
  obtain ⟨index, hindex, rfl⟩ := List.getElem_of_mem h
  have hnine : index < 9 := hindex
  refine ⟨index, by omega, ?_⟩
  rw [sampleCategory, Nat.mod_eq_of_lt hnine, List.getD_eq_getElem?_getD,
    List.getElem?_eq_getElem hindex]
  rfl

theorem length_requiredCategory : ∀ category ∈ requiredCategories,
    category ≠ [] ∧ category.length ≤ 18 := by
  decide

theorem encodeText_sample {index : ℕ} (h : index < 10 ^ 3) :
    ∃ bytes, encodeText [0x4e00 + index] = .ok bytes ∧ bytes.length ≤ 4 := by
  refine ⟨_, encodeText_eq_ok_iff.mpr ⟨?_, rfl⟩, length_encodeUtf8_le _⟩
  refine List.forall_mem_singleton.mpr (.inl ?_)
  omega

theorem containsJapanese_sample {index : ℕ} (h : index < 10 ^ 3) :
    containsJapanese [0x4e00 + index] = true := by
  have hjapanese : isJapanese (0x4e00 + index) = true := by
    simp only [isJapanese, Bool.or_eq_true, Bool.and_eq_true, decide_eq_true_eq]
    omega
  rw [containsJapanese, List.any_cons, hjapanese]
  rfl

def sampleRecord (index : ℕ) : List (CodePoints × JsonValue) :=
  [(codePoints "case_id", .string (sampleId index)),
    (codePoints "category", .string (sampleCategory index)),
    (codePoints "random_seed", .integer (index : ℤ)),
    (codePoints "source_text", .string [0x4e00 + index])]

theorem toJson_sampleCase (index : ℕ) :
    (sampleCase index).toJson = .object (sampleRecord index) := by
  rw [sampleCase, JsonRecord.toJson, JsonRecord.memberValues_eq_map, sampleMembers, sampleRecord]
  simp only [List.map_cons, List.map_nil, Prod.map, id, JsonRecord.toJson]
  exact congrArg JsonValue.object rfl

theorem hasKeys_of_map_fst {expected : List String} {members : List (CodePoints × JsonValue)}
    {keys : List CodePoints} (hmembers : members.map Prod.fst = keys)
    (hkeys : (∀ key ∈ keys, key ∈ expected.map codePoints) ∧
      ∀ key ∈ expected, codePoints key ∈ keys) : HasKeys expected members := by
  subst hmembers
  exact ⟨List.forall_mem_map.mp hkeys.1, hkeys.2⟩

theorem requireNonemptyString_of_ne_nil {text : CodePoints} (h : text ≠ []) (label : String) :
    requireNonemptyString (some (.string text)) label = .ok text :=
  if_neg h

/-- A record with the members of a case. -/
theorem parseCase_of_lookup {record : List (CodePoints × JsonValue)} {requireCategory : Bool}
    {index : ℕ} {category : CodePoints} {label : String} (h : index < 10 ^ 3)
    (hkeys : HasKeys (if requireCategory then ["case_id", "category", "source_text", "random_seed"]
      else ["case_id", "source_text", "random_seed"]) record)
    (hcaseId : record.lookup (codePoints "case_id") = some (.string (sampleId index)))
    (hsourceText : record.lookup (codePoints "source_text") = some (.string [0x4e00 + index]))
    (hcategory : parseCategory record label requireCategory = .ok category)
    (hrandomSeed : record.lookup (codePoints "random_seed") = some (.integer (index : ℤ))) :
    parseCase (.object record) label requireCategory = .ok (sampleSourceCase category index) := by
  have hid : sampleId index ≠ [] := by
    rw [sampleId_eq]
    exact List.cons_ne_nil _ _
  obtain ⟨bytes, hbytes, hlength⟩ := encodeText_sample h
  have hseed : requireUint32 (some (.integer (index : ℤ))) (label ++ ".random_seed") =
      .ok index := by
    refine if_pos ⟨?_, ?_⟩ <;> omega
  rw [parseCase, requireExactKeys, if_pos hkeys, ok_bind, hcaseId,
    requireNonemptyString_of_ne_nil hid, ok_bind, ensure_of (validIdentifier_sampleId h), ok_bind,
    hsourceText, requireNonemptyString_of_ne_nil (List.cons_ne_nil _ _), ok_bind, hbytes, ok_bind,
    ensure_of ⟨hlength.trans (by decide), containsJapanese_sample h⟩, ok_bind, hcategory, ok_bind,
    hrandomSeed, hseed]
  rfl

theorem parseCase_sampleCase {index : ℕ} (h : index < 10 ^ 3) (label : String) :
    parseCase (sampleCase index).toJson label true =
      .ok (sampleSourceCase (sampleCategory index) index) := by
  have hcategory : parseCategory (sampleRecord index) label true = .ok (sampleCategory index) := by
    have hlookup : (sampleRecord index).lookup (codePoints "category") =
        some (.string (sampleCategory index)) := rfl
    rw [parseCategory, hlookup,
      requireNonemptyString_of_ne_nil (length_requiredCategory _ (sampleCategory_mem index)).1,
      ok_bind, ensure_of (sampleCategory_mem index), ok_bind]
    rfl
  rw [toJson_sampleCase]
  refine parseCase_of_lookup h (hasKeys_of_map_fst (List.map_cons ..) ?_) rfl rfl hcategory rfl
  simp

theorem parseCases_map {value : ℕ → JsonValue} {parsed : ℕ → BenchmarkSourceCase}
    {indices : List ℕ}
    (h : ∀ index ∈ indices, ∀ label, parseCase (value index) label true = .ok (parsed index)) :
    ∀ position, parseCases position (indices.map value) = .ok (indices.map parsed) := by
  induction indices with
  | nil => exact fun _ => rfl
  | cons index indices ih =>
    rw [List.forall_mem_cons] at h
    intro position
    rw [List.map_cons, parseCases, h.1, ok_bind, ih h.2, ok_bind]
    rfl

def sampleRoot : List (CodePoints × JsonValue) :=
  [(codePoints "cancel_case", (JsonRecord.object (sampleMembers 108)).toJson),
    (codePoints "cases", .array ((List.range 108).map fun index => (sampleCase index).toJson)),
    (codePoints "corpus_id", .string (codePoints "sample")),
    (codePoints "normal_case_count", .integer 108),
    (codePoints "schema_version", .string sourceSchema),
    (codePoints "tokenizer_identity_sha256", .string sampleIdentity)]

theorem toJson_sampleDocument : sampleDocument.toJson = .object sampleRoot := by
  rw [sampleDocument, JsonRecord.toJson, JsonRecord.memberValues_eq_map, sampleRoot]
  simp only [List.map_cons, List.map_nil, Prod.map, id, JsonRecord.toJson,
    JsonRecord.elementValues_eq_map, List.map_map, Function.comp_def]
  exact congrArg JsonValue.object rfl

def cancelRecord : List (CodePoints × JsonValue) :=
  [(codePoints "case_id", .string (sampleId 108)),
    (codePoints "random_seed", .integer 108),
    (codePoints "source_text", .string [0x4e00 + 108])]

theorem toJson_cancelCase : (JsonRecord.object (sampleMembers 108)).toJson =
    .object cancelRecord := by
  rw [JsonRecord.toJson, JsonRecord.memberValues_eq_map, sampleMembers, cancelRecord]
  simp only [List.map_cons, List.map_nil, Prod.map, id, JsonRecord.toJson]
  exact congrArg JsonValue.object rfl

theorem parseCase_cancelCase : parseCase (JsonRecord.object (sampleMembers 108)).toJson
    "source.cancel_case" false = .ok (sampleSourceCase (codePoints "cancel") 108) := by
  rw [toJson_cancelCase]
  refine parseCase_of_lookup (by decide) (hasKeys_of_map_fst (List.map_cons ..) ?_) rfl rfl rfl rfl
  simp

/-- A field of the cases of the source, the last of which is the one to cancel. -/
theorem map_sampleSourceCases {α : Type} {field : BenchmarkSourceCase → α} {value : ℕ → α}
    (h : ∀ category index, field (sampleSourceCase category index) = value index) :
    (((List.range 108).map fun index => sampleSourceCase (sampleCategory index) index) ++
      [sampleSourceCase (codePoints "cancel") 108]).map field = (List.range 109).map value := by
  have hrange : List.range 109 = List.range 108 ++ [108] := List.range_succ
  rw [hrange, List.map_append, List.map_append, List.map_map, List.map_singleton,
    List.map_singleton, h]
  exact congrArg (· ++ [value 108]) (List.map_congr_left fun index _ => h _ index)

theorem isSha256_sampleIdentity : IsSha256 sampleIdentity := by
  decide

theorem exists_parseSource_sampleDocument : ∃ source,
    parseSource sampleDocument.toJson = .ok source ∧
      source.tokenizerIdentitySha256 = sampleIdentity := by
  have hroot : HasKeys ["schema_version", "corpus_id", "tokenizer_identity_sha256",
      "normal_case_count", "cases", "cancel_case"] sampleRoot := by
    refine hasKeys_of_map_fst (List.map_cons ..) ?_
    simp
  have hschema : HasSchema (sampleRoot.lookup (codePoints "schema_version")) sourceSchema := rfl
  have hid : requireNonemptyString (sampleRoot.lookup (codePoints "corpus_id"))
      "source.corpus_id" = .ok (codePoints "sample") := rfl
  have hvalid : validIdentifier (codePoints "sample") = true := rfl
  have hidentity : requireSha256 (sampleRoot.lookup (codePoints "tokenizer_identity_sha256"))
      "source.tokenizer_identity_sha256" = .ok sampleIdentity :=
    requireSha256_of_isSha256 isSha256_sampleIdentity _
  have hcount : DeclaresCount (sampleRoot.lookup (codePoints "normal_case_count")) := rfl
  have hrequired : requireCases (sampleRoot.lookup (codePoints "cases")) =
      .ok ((List.range 108).map fun index => (sampleCase index).toJson) := rfl
  have hcases := @parseCases_map (fun index => (sampleCase index).toJson)
    (fun index => sampleSourceCase (sampleCategory index) index) (List.range 108)
    (fun index hmem =>
      parseCase_sampleCase ((List.mem_range.mp hmem).trans (by decide))) 0
  have hcancel : (sampleRoot.lookup (codePoints "cancel_case")).getD .null =
      (JsonRecord.object (sampleMembers 108)).toJson := rfl
  rw [toJson_sampleDocument, parseSource, requireExactKeys, if_pos hroot, ok_bind,
    ensure_of hschema, ok_bind, hid, ok_bind,
    ensure_of hvalid, ok_bind, hidentity, ok_bind, ensure_of hcount, ok_bind, hrequired, ok_bind,
    hcases, ok_bind, hcancel, parseCase_cancelCase, ok_bind]
  dsimp only
  rw [ensure_of, ok_bind, ensure_of, ok_bind, ensure_of, ok_bind, ensure_of, ok_bind]
  · exact ⟨_, rfl, rfl⟩
  · intro category hmem
    obtain ⟨index, hindex, rfl⟩ := exists_sampleCategory hmem
    rw [List.map_map]
    exact List.mem_map.mpr ⟨index, List.mem_range.mpr hindex, rfl⟩
  · rw [@map_sampleSourceCases _ _ (fun index => [0x4e00 + index]) fun _ _ => rfl]
    exact List.nodup_range.map fun _ _ h => Nat.add_left_cancel (List.singleton_injective h)
  · rw [@map_sampleSourceCases _ _ id fun _ _ => rfl, List.map_id]
    exact List.nodup_range
  · rw [map_sampleSourceCases fun _ _ => rfl]
    exact List.nodup_range.map sampleId_injective

/-! ### The length of the file -/

theorem length_sampleTexts :
    (codePoints "case_id").length ≤ 25 ∧ (codePoints "source_text").length ≤ 25 ∧
      (codePoints "random_seed").length ≤ 25 ∧ (codePoints "category").length ≤ 25 ∧
      (codePoints "schema_version").length ≤ 25 ∧ (codePoints "corpus_id").length ≤ 25 ∧
      (codePoints "tokenizer_identity_sha256").length ≤ 25 ∧
      (codePoints "normal_case_count").length ≤ 25 ∧ (codePoints "cases").length ≤ 25 ∧
      (codePoints "cancel_case").length ≤ 25 ∧ sourceSchema.length ≤ 33 ∧
      (codePoints "sample").length ≤ 6 := by
  decide

theorem length_sampleMembers (index : ℕ) : (sampleMembers index).length = 3 := rfl

theorem memberFits_sampleMembers {index : ℕ} (h : index < 10 ^ 3) :
    ∀ member ∈ sampleMembers index, MemberFits 300 member := by
  obtain ⟨hcaseId, hsourceText, hrandomSeed, -⟩ := length_sampleTexts
  rw [sampleMembers, List.forall_mem_cons, List.forall_mem_cons, List.forall_mem_singleton]
  refine ⟨?_, ?_, ?_⟩
  · exact memberFits_string hcaseId (length_sampleId_le h) (by decide)
  · exact memberFits_string hsourceText (Nat.le_refl 1) (by decide)
  · exact memberFits_of_le hrandomSeed (length_dumps_natural_le (h.trans (by decide))) (by decide)

theorem length_dumps_sampleCase_le {index : ℕ} (h : index < 10 ^ 3) :
    (sampleCase index).dumps.length ≤ 1202 := by
  obtain ⟨-, -, -, hcategory, -⟩ := length_sampleTexts
  have hvalue := (length_requiredCategory _ (sampleCategory_mem index)).2
  have hmembers : ∀ member ∈ (codePoints "category",
      JsonRecord.string (requiredCategories.getD (index % 9) [])) :: sampleMembers index,
      MemberFits 300 member :=
    List.forall_mem_cons.mpr
      ⟨memberFits_string hcategory hvalue (by decide),
        memberFits_sampleMembers h⟩
  have hle := length_dumps_object_le_of_fits hmembers
  rw [List.length_cons, length_sampleMembers] at hle
  exact hle

theorem length_dumps_sampleDocument_le : sampleDocument.dumps.length ≤ 900000 := by
  obtain ⟨-, -, -, -, hschemaVersion, hcorpusId, htokenizer, hcount, hcasesKey, hcancelCase,
    hschema, hsample⟩ := length_sampleTexts
  have hcases : (JsonRecord.dumps (.array ((List.range 108).map sampleCase))).length ≤
      2 + 1203 * 108 := by
    have helements : ∀ element ∈ (List.range 108).map sampleCase,
        element.dumps.length ≤ 1202 := by
      rw [List.forall_mem_map]
      intro index hmem
      exact length_dumps_sampleCase_le ((List.mem_range.mp hmem).trans (by decide))
    have harray := length_dumps_array_le helements
    rwa [List.length_map, List.length_range] at harray
  have hcancel := length_dumps_object_le_of_fits (@memberFits_sampleMembers 108 (by decide))
  rw [length_sampleMembers] at hcancel
  have hidentity : sampleIdentity.length ≤ 64 := by decide
  have hmembers : ∀ member ∈ [(codePoints "schema_version", JsonRecord.string sourceSchema),
      (codePoints "corpus_id", .string (codePoints "sample")),
      (codePoints "tokenizer_identity_sha256", .string sampleIdentity),
      (codePoints "normal_case_count", .integer 108),
      (codePoints "cases", .array ((List.range 108).map sampleCase)),
      (codePoints "cancel_case", .object (sampleMembers 108))], MemberFits 130100 member := by
    rw [List.forall_mem_cons, List.forall_mem_cons, List.forall_mem_cons, List.forall_mem_cons,
      List.forall_mem_cons, List.forall_mem_singleton]
    refine ⟨?_, ?_, ?_, ?_, ?_, ?_⟩
    · exact memberFits_string hschemaVersion hschema (by decide)
    · exact memberFits_string hcorpusId hsample (by decide)
    · exact memberFits_string htokenizer hidentity (by decide)
    · exact memberFits_of_le hcount (@length_dumps_natural_le 108 (by decide)) (by decide)
    · exact memberFits_of_le hcasesKey hcases (by decide)
    · exact memberFits_of_le hcancelCase hcancel (by decide)
  have hle := length_dumps_object_le_of_fits hmembers
  simp only [List.length_cons, List.length_nil] at hle
  rw [sampleDocument]
  exact hle.trans (by decide)

/-! ### What the reader makes of the file -/

theorem distinctKeys_sampleCase (index : ℕ) : distinctKeys (sampleCase index).toJson = true := by
  rw [toJson_sampleCase]
  rfl

theorem distinctKeys_sampleDocument : distinctKeys sampleDocument.toJson = true := by
  have hkeys : (sampleRoot.map Prod.fst).Nodup := by
    decide
  have hcases : distinctKeys (.array ((List.range 108).map fun index =>
      (sampleCase index).toJson)) = true := by
    rw [distinctKeys, elementsDistinctKeys_iff, List.forall_mem_map]
    exact fun index _ => distinctKeys_sampleCase index
  have hcancel : distinctKeys (JsonRecord.object (sampleMembers 108)).toJson = true := by
    rw [toJson_cancelCase]
    rfl
  rw [toJson_sampleDocument, distinctKeys, Bool.and_eq_true, decide_eq_true_eq,
    membersDistinctKeys_iff]
  refine ⟨hkeys, ?_⟩
  rw [sampleRoot]
  simp only [List.forall_mem_cons, List.not_mem_nil, false_imp_iff, implies_true, and_true]
  exact ⟨hcancel, hcases, rfl, rfl, rfl, rfl⟩

theorem allEncodable_sampleMembers {index : ℕ} (h : index < 10 ^ 3) :
    AllEncodable (JsonRecord.memberStrings (sampleMembers index)) := by
  have htext : Encodable [0x4e00 + index] := List.forall_mem_singleton.mpr (.inl (by omega))
  rw [JsonRecord.allEncodable_memberStrings_iff, sampleMembers, List.forall_mem_cons,
    List.forall_mem_cons, List.forall_mem_singleton]
  exact ⟨⟨encodable_codePoints _, allEncodable_string.mpr (encodable_codePoints _)⟩,
    ⟨encodable_codePoints _, allEncodable_string.mpr htext⟩,
    encodable_codePoints _, allEncodable_integer _⟩

theorem encodable_sampleCategory (index : ℕ) : Encodable (sampleCategory index) := by
  obtain ⟨name, -, hname⟩ := List.mem_map.mp (sampleCategory_mem index)
  exact hname ▸ encodable_codePoints name

theorem allEncodable_sampleDocument : AllEncodable sampleDocument.strings := by
  have hidentity : Encodable sampleIdentity := by
    intro point hmem
    rw [List.eq_of_mem_replicate hmem]
    decide
  have hcases : ∀ index ∈ List.range 108, AllEncodable (sampleCase index).strings :=
    fun index hmem => allEncodable_object.mpr (allEncodable_memberStrings_cons.mpr
      ⟨encodable_codePoints _, allEncodable_string.mpr (encodable_sampleCategory index),
        allEncodable_sampleMembers ((List.mem_range.mp hmem).trans (by decide))⟩)
  have hcancel := @allEncodable_sampleMembers 108 (by decide)
  rw [sampleDocument, allEncodable_object, JsonRecord.allEncodable_memberStrings_iff]
  simp only [List.forall_mem_cons, List.not_mem_nil, false_imp_iff, implies_true, and_true]
  exact ⟨⟨encodable_codePoints _, allEncodable_string.mpr (encodable_codePoints _)⟩,
    ⟨encodable_codePoints _, allEncodable_string.mpr (encodable_codePoints _)⟩,
    ⟨encodable_codePoints _, allEncodable_string.mpr hidentity⟩,
    ⟨encodable_codePoints _, allEncodable_integer _⟩,
    ⟨encodable_codePoints _, allEncodable_array.mpr hcases⟩,
    encodable_codePoints _, allEncodable_object.mpr hcancel⟩

theorem withinDepth_sampleMembers (depth index : ℕ) :
    ∀ member ∈ sampleMembers index, member.2.WithinDepth depth := by
  simp only [sampleMembers, List.forall_mem_cons, List.not_mem_nil, false_imp_iff, implies_true,
    and_true]
  cases depth <;> exact ⟨trivial, trivial, trivial⟩

theorem withinDepth_sampleDocument (depth : ℕ) : sampleDocument.WithinDepth (depth + 3) := by
  have hcase : ∀ element ∈ (List.range 108).map sampleCase, element.WithinDepth (depth + 1) := by
    rw [List.forall_mem_map]
    intro index _
    refine List.forall_mem_cons.mpr ⟨?_, withinDepth_sampleMembers depth index⟩
    cases depth <;> trivial
  unfold sampleDocument JsonRecord.WithinDepth
  simp only [List.forall_mem_cons, List.not_mem_nil, false_imp_iff, implies_true, and_true]
  exact ⟨trivial, trivial, trivial, trivial, hcase, withinDepth_sampleMembers (depth + 1) 108⟩

/-- The source is loaded. -/
theorem exists_loadBenchmarkSource_sampleFile : ∃ source,
    loadBenchmarkSource strictLimits sampleFile = .ok source ∧
      source.tokenizerIdentitySha256 = sampleIdentity := by
  obtain ⟨source, hparse, hidentity⟩ := exists_parseSource_sampleDocument
  refine ⟨source, ?_, hidentity⟩
  have hdepth : sampleDocument.WithinDepth strictLimits.depth := withinDepth_sampleDocument 997
  have hintegers : ∀ integer ∈ sampleDocument.integers, IntegerFits strictLimits integer := by
    decide
  have hreturn : '\r' ∉ characters sampleDocument.dumps := fun hmem => by
    obtain ⟨point, hpoint, hcharacter⟩ := List.mem_map.mp hmem
    have hle := (sampleDocument.mem_dumps hpoint).1
    have hfound := toNat_ofNat_eq (congrArg Char.toNat hcharacter) (by decide)
    rw [hfound] at hle
    exact absurd hle (by decide)
  have hnonempty : sampleFile ≠ [] := encodeUtf8_ne_nil (List.cons_ne_nil _ _)
  have hlength : sampleFile.length ≤ maximumSourceFileBytes := by
    have hle := length_encodeUtf8_le (characters sampleDocument.dumps)
    rw [characters, List.length_map] at hle
    have hdumps := length_dumps_sampleDocument_le
    rw [sampleFile, characters, maximumSourceFileBytes]
    omega
  have hfinite : finiteNumbers sampleDocument.toJson = true := by
    decide
  have hload : loadDocument strictLimits (characters sampleDocument.dumps) =
      .ok sampleDocument.toJson := by
    rw [loadDocument, scanText_eq_ok_iff.mpr (isJsonText_dumps hdepth hintegers
      allEncodable_sampleDocument)]
    dsimp only
    rw [if_neg (by rw [distinctKeys_sampleDocument]; decide), if_neg (by rw [hfinite]; decide)]
  rw [loadBenchmarkSource, ensure_of hnonempty, ok_bind, ensure_of hlength, ok_bind, sampleFile,
    decodeUtf8_encodeUtf8]
  dsimp only
  rw [universalNewlines_of_noReturn hreturn, hload, ok_bind, hparse]

theorem benchmarkCorpus_roundTrip_sample : ∃ source payload corpus,
    loadBenchmarkSource strictLimits sampleFile = .ok source ∧
      generateCorpusBytes sha256 source sampleFrontend sampleIdentity = .ok payload ∧
        loadBenchmarkCorpus scanLine sha256 payload = .ok corpus ∧
          SameCorpus sha256 sampleFrontend source corpus := by
  obtain ⟨source, hsource, hidentity⟩ := exists_loadBenchmarkSource_sampleFile
  obtain ⟨payload, hpayload⟩ := (@exists_generateCorpusBytes_iff sha256 length_sha256
    sampleFrontend source (wellFormed_of_loadBenchmarkSource hsource) sampleIdentity).mpr
      ⟨hidentity.symm, fun _ _ => ⟨[7, 2], rfl⟩⟩
  obtain ⟨corpus, hcorpus, hsame⟩ :=
    benchmarkCorpus_roundTrip readsStrictJson_scanLine hsource hpayload
  exact ⟨source, payload, corpus, hsource, hpayload, hcorpus, hsame⟩

end MagpieTts.Frontend
