import MagpieTts.Api.Utf8Validation
import MagpieTts.Frontend.CorpusRecords

/-!
# The benchmark corpus round trip

The reader accepts what the generator writes, and it returns the same corpus.

## Main definitions

* `BenchmarkSource.WellFormed`: what is known of a source that is loaded.
* `SameCorpus`: the corpus of the reader is that of the generator.

## Main results

* `wellFormed_of_loadBenchmarkSource`: a source that is loaded is well formed.
* `containsJapaneseCodepoint_encodeUtf8`: the two scans for Japanese agree.
* `loadBenchmarkCorpus_of_wellFormed`: the lines of a well formed source are accepted.
-/

namespace MagpieTts.Frontend

open MagpieTts.Library MagpieTts.Api

/-! ### Sources that are loaded -/

/-- What is known of a case. -/
structure BenchmarkSourceCase.WellFormed (sourceCase : BenchmarkSourceCase) : Prop where
  caseId : validIdentifier sourceCase.caseId = true
  nonempty : sourceCase.sourceText ≠ []
  encodable : Encodable sourceCase.sourceText
  bounded : (encodeUtf8 (characters sourceCase.sourceText)).length ≤ maximumSourceBytes
  japanese : containsJapanese sourceCase.sourceText = true
  seed : sourceCase.randomSeed ≤ 2 ^ 32 - 1

/-- What is known of a source. -/
structure BenchmarkSource.WellFormed (source : BenchmarkSource) : Prop where
  corpusId : validIdentifier source.corpusId = true
  identity : IsSha256 source.tokenizerIdentitySha256
  count : source.normalCases.length = acceptanceNormalCases
  normalCases : ∀ sourceCase ∈ source.normalCases, sourceCase.WellFormed
  cancelCase : source.cancelCase.WellFormed
  distinct : ((source.normalCases ++ [source.cancelCase]).map BenchmarkSourceCase.caseId).Nodup

theorem requireNonemptyString_ok {value : Option JsonValue} {label : String} {text : CodePoints}
    (h : requireNonemptyString value label = .ok text) : text ≠ [] := by
  unfold requireNonemptyString at h
  split at h
  next =>
    split at h
    next => cases h
    next hne => cases h; exact hne
  next => cases h

theorem requireUint32_ok {value : Option JsonValue} {label : String} {number : ℕ}
    (h : requireUint32 value label = .ok number) : number ≤ 2 ^ 32 - 1 := by
  unfold requireUint32 at h
  split at h
  next =>
    split at h
    next hrange => cases h; omega
    next => cases h
  next => cases h

theorem requireSha256_ok {value : Option JsonValue} {label : String} {digest : CodePoints}
    (h : requireSha256 value label = .ok digest) : IsSha256 digest := by
  obtain ⟨found, -, h⟩ := bind_eq_ok_iff.mp h
  obtain ⟨hsha, h⟩ := bind_unit_eq_ok_iff.mp h
  cases h
  exact ensure_eq_ok_iff.mp hsha

theorem wellFormed_of_parseCase {value : JsonValue} {label : String} {requireCategory : Bool}
    {sourceCase : BenchmarkSourceCase}
    (h : parseCase value label requireCategory = .ok sourceCase) : sourceCase.WellFormed := by
  obtain ⟨record, -, h⟩ := bind_eq_ok_iff.mp h
  obtain ⟨caseId, -, h⟩ := bind_eq_ok_iff.mp h
  obtain ⟨hid, h⟩ := bind_unit_eq_ok_iff.mp h
  obtain ⟨sourceText, hsource, h⟩ := bind_eq_ok_iff.mp h
  obtain ⟨encoded, hencoded, h⟩ := bind_eq_ok_iff.mp h
  obtain ⟨hbounds, h⟩ := bind_unit_eq_ok_iff.mp h
  obtain ⟨category, -, h⟩ := bind_eq_ok_iff.mp h
  obtain ⟨randomSeed, hseed, h⟩ := bind_eq_ok_iff.mp h
  cases h
  obtain ⟨hencodable, rfl⟩ := encodeText_eq_ok_iff.mp hencoded
  obtain ⟨hlength, hjapanese⟩ := ensure_eq_ok_iff.mp hbounds
  exact ⟨ensure_eq_ok_iff.mp hid, requireNonemptyString_ok hsource, hencodable, hlength, hjapanese,
    requireUint32_ok hseed⟩

theorem parseCases_ok {index : ℕ} {values : List JsonValue}
    {sourceCases : List BenchmarkSourceCase} (h : parseCases index values = .ok sourceCases) :
    sourceCases.length = values.length ∧ ∀ sourceCase ∈ sourceCases, sourceCase.WellFormed := by
  induction values generalizing index sourceCases with
  | nil => cases h; exact ⟨rfl, fun _ hmem => nomatch hmem⟩
  | cons value values ih =>
    obtain ⟨parsed, hparsed, h⟩ := bind_eq_ok_iff.mp h
    obtain ⟨rest, hrest, h⟩ := bind_eq_ok_iff.mp h
    cases h
    obtain ⟨hlength, hcases⟩ := ih hrest
    exact ⟨congrArg Nat.succ hlength,
      List.forall_mem_cons.mpr ⟨wellFormed_of_parseCase hparsed, hcases⟩⟩

theorem wellFormed_of_parseSource {document : JsonValue} {source : BenchmarkSource}
    (h : parseSource document = .ok source) : source.WellFormed := by
  obtain ⟨root, -, h⟩ := bind_eq_ok_iff.mp h
  obtain ⟨-, h⟩ := bind_unit_eq_ok_iff.mp h
  obtain ⟨corpusId, -, h⟩ := bind_eq_ok_iff.mp h
  obtain ⟨hid, h⟩ := bind_unit_eq_ok_iff.mp h
  obtain ⟨identity, hidentity, h⟩ := bind_eq_ok_iff.mp h
  obtain ⟨-, h⟩ := bind_unit_eq_ok_iff.mp h
  obtain ⟨rawCases, hraw, h⟩ := bind_eq_ok_iff.mp h
  obtain ⟨normalCases, hnormal, h⟩ := bind_eq_ok_iff.mp h
  obtain ⟨cancelCase, hcancel, h⟩ := bind_eq_ok_iff.mp h
  obtain ⟨hdistinct, h⟩ := bind_unit_eq_ok_iff.mp h
  obtain ⟨-, h⟩ := bind_unit_eq_ok_iff.mp h
  obtain ⟨-, h⟩ := bind_unit_eq_ok_iff.mp h
  obtain ⟨-, h⟩ := bind_unit_eq_ok_iff.mp h
  cases h
  obtain ⟨hlength, hcases⟩ := parseCases_ok hnormal
  refine ⟨ensure_eq_ok_iff.mp hid, requireSha256_ok hidentity, hlength.trans ?_, hcases,
    wellFormed_of_parseCase hcancel, ensure_eq_ok_iff.mp hdistinct⟩
  unfold requireCases at hraw
  split at hraw
  next =>
    split at hraw
    next hcount => cases hraw; exact hcount
    next => cases hraw
  next => cases hraw

/-- **A source that is loaded is well formed.** -/
theorem wellFormed_of_loadBenchmarkSource {limits : JsonLimits} {file : Bytes}
    {source : BenchmarkSource} (h : loadBenchmarkSource limits file = .ok source) :
    source.WellFormed := by
  obtain ⟨-, h⟩ := bind_unit_eq_ok_iff.mp h
  obtain ⟨-, h⟩ := bind_unit_eq_ok_iff.mp h
  split at h
  next => cases h
  next =>
    obtain ⟨document, -, h⟩ := bind_eq_ok_iff.mp h
    exact wellFormed_of_parseSource h

/-! ### What is generated -/

section Generated

variable {sha256 : Bytes → Bytes} {frontend : CorpusFrontend}

/-- The token identifiers that are accepted. -/
theorem preparedTokenIds_ok {sourceCase : BenchmarkSourceCase} {tokenIds : List ℕ}
    (h : preparedTokenIds frontend sourceCase = .ok tokenIds) :
    tokenIds ≠ [] ∧ tokenIds.length ≤ maximumPreparedTokens ∧
      ∀ tokenId ∈ tokenIds, tokenId ≤ 2 ^ 31 - 1 := by
  obtain ⟨tokens, -, h⟩ := bind_eq_ok_iff.mp h
  obtain ⟨hcount, h⟩ := bind_unit_eq_ok_iff.mp h
  obtain ⟨hpos, hle⟩ := ensure_eq_ok_iff.mp hcount
  have hlength := (mapM_eq_ok_iff.mp h).length_eq
  refine ⟨?_, hlength ▸ hle, fun tokenId hmem => ?_⟩
  · rintro rfl
    rw [List.length_nil] at hlength
    omega
  · obtain ⟨token, -, htoken⟩ := exists_of_mem_mapM h hmem
    unfold requireInt32 at htoken
    split at htoken
    next =>
      split at htoken
      next hrange => cases htoken; omega
      next => cases htoken
    next => cases htoken

/-- The record of a case. -/
def IsCaseRecord (sha256 : Bytes → Bytes) (frontend : CorpusFrontend) (recordType : String)
    (sourceCase : BenchmarkSourceCase) (record : JsonRecord) : Prop :=
  ∃ tokenIds, preparedTokenIds frontend sourceCase = .ok tokenIds ∧
    record = .object (caseMembers sha256 sourceCase recordType
      (encodeUtf8 (characters sourceCase.sourceText)) tokenIds)

theorem isCaseRecord_of_caseRecord {sourceCase : BenchmarkSourceCase} {recordType : String}
    {record : JsonRecord} (h : caseRecord sha256 frontend sourceCase recordType = .ok record) :
    IsCaseRecord sha256 frontend recordType sourceCase record := by
  obtain ⟨encoded, hencoded, h⟩ := bind_eq_ok_iff.mp h
  obtain ⟨tokenIds, htokens, h⟩ := bind_eq_ok_iff.mp h
  cases h
  rw [(encodeText_eq_ok_iff.mp hencoded).2]
  exact ⟨tokenIds, htokens, rfl⟩

theorem intercalate_feed_append (first : CodePoints) (rest : List CodePoints) :
    [0x0a].intercalate (first :: rest) ++ [0x0a] =
      (first :: rest).flatMap fun text => text ++ [0x0a] := by
  induction rest generalizing first with
  | nil => simp [List.intercalate]
  | cons second rest ih =>
    have hrest := ih second
    rw [List.flatMap_cons, List.append_assoc, ← hrest, List.intercalate_cons_cons,
      List.append_assoc, List.append_assoc]

theorem encodeUtf8_flatMap_dumps (records : List JsonRecord) :
    encodeUtf8 (characters (records.flatMap fun record => record.dumps ++ [0x0a])) =
      records.flatMap recordLine := by
  induction records with
  | nil => rfl
  | cons record records ih =>
    rw [List.flatMap_cons, List.flatMap_cons, ← ih, characters_append, characters_append,
      encodeUtf8, List.flatMap_append, List.flatMap_append]
    rfl

/-- The payload is made of the lines of its records. -/
theorem generateCorpusBytes_ok {source : BenchmarkSource} {identity : CodePoints} {payload : Bytes}
    (h : generateCorpusBytes sha256 source frontend identity = .ok payload) :
    ∃ normalRecords cancelRecord,
      List.Forall₂ (IsCaseRecord sha256 frontend "case") source.normalCases normalRecords ∧
        IsCaseRecord sha256 frontend "cancel_case" source.cancelCase cancelRecord ∧
          payload = (JsonRecord.object (headerMembers source source.tokenizerIdentitySha256) ::
            (normalRecords ++ [cancelRecord])).flatMap recordLine ∧
            payload.length ≤ maximumOutputBytes := by
  obtain ⟨actual, -, h⟩ := bind_eq_ok_iff.mp h
  obtain ⟨hidentity, h⟩ := bind_unit_eq_ok_iff.mp h
  obtain ⟨normalRecords, hnormal, h⟩ := bind_eq_ok_iff.mp h
  obtain ⟨cancelRecord, hcancel, h⟩ := bind_eq_ok_iff.mp h
  obtain ⟨encoded, hencoded, h⟩ := bind_eq_ok_iff.mp h
  obtain ⟨hlength, h⟩ := bind_unit_eq_ok_iff.mp h
  cases h
  rw [ensure_eq_ok_iff.mp hidentity] at hencoded
  refine ⟨normalRecords, cancelRecord, ?_, isCaseRecord_of_caseRecord hcancel, ?_,
    ensure_eq_ok_iff.mp hlength⟩
  · exact (mapM_eq_ok_iff.mp hnormal).imp fun _ _ => isCaseRecord_of_caseRecord
  · rw [(encodeText_eq_ok_iff.mp hencoded).2, List.map_cons, intercalate_feed_append,
      ← List.map_cons, List.flatMap_map, encodeUtf8_flatMap_dumps]

end Generated

/-! ### The two scans for Japanese -/

theorem leadBits_one : ∀ value < 0x80, leadBits value = .ok (1, value) := by decide

theorem leadBits_two : ∀ value < 0x20, leadBits (value + 0xC0) = .ok (2, value) := by
  decide

theorem leadBits_three : ∀ value < 0x10, leadBits (value + 0xE0) = .ok (3, value) := by
  decide

theorem leadBits_four : ∀ value < 0x08, leadBits (value + 0xF0) = .ok (4, value) := by
  decide

theorem continuation_bits : ∀ value < 0x40,
    (value + 0x80) &&& 0xc0 = 0x80 ∧ (value + 0x80) &&& 0x3f = value := by
  decide

theorem toNat_ofNat_add {value base : ℕ} (h : value + base < 256) :
    (UInt8.ofNat (value + base)).toNat = value + base :=
  UInt8.toNat_ofNat_of_lt' h

theorem continueBits_cons {codepoint value : ℕ} (h : value < 0x40) (bytes : Bytes) :
    continueBits codepoint (UInt8.ofNat (value + 0x80) :: bytes) =
      continueBits (codepoint * 64 + value) bytes := by
  obtain ⟨hmark, hbits⟩ := continuation_bits value h
  rw [continueBits, toNat_ofNat_add (by omega), if_pos hmark, hbits,
    ← Nat.shiftLeft_add_eq_or_of_lt h, Nat.shiftLeft_eq]

/-- A pass of the scan. -/
theorem containsJapaneseCodepoint_step {fuel lead codepoint : ℕ} {first : UInt8}
    {continuations rest : Bytes}
    (hlead : leadBits first.toNat = .ok (continuations.length + 1, lead))
    (hbits : continueBits lead continuations = .ok codepoint)
    (hcanonical : ¬ Noncanonical (continuations.length + 1) codepoint) :
    containsJapaneseCodepoint (fuel + 1) (first :: (continuations ++ rest)) =
      (containsJapaneseCodepoint fuel rest >>= fun more =>
        .ok (isJapanese codepoint || more)) := by
  have hfits : continuations.length + 1 ≤ (continuations ++ rest).length + 1 := by
    rw [List.length_append]
    omega
  rw [containsJapaneseCodepoint, hlead, ok_bind, ensure_of hfits, ok_bind,
    Nat.add_sub_cancel, List.take_left, hbits, ok_bind, ensure_of hcanonical, ok_bind,
    List.drop_left]
  rfl

theorem containsJapaneseCodepoint_encodeChar (fuel : ℕ) (character : Char) (rest : Bytes) :
    containsJapaneseCodepoint (fuel + 1) (String.utf8EncodeChar character ++ rest) =
      (containsJapaneseCodepoint fuel rest >>= fun more =>
        .ok (isJapanese character.toNat || more)) := by
  obtain ⟨hle, hscalar⟩ := scalar_bounds character
  change character.toNat ≤ _ at hle
  change character.toNat < _ ∨ _ < character.toNat at hscalar
  by_cases hone : character.toNat < 0x80
  · rw [utf8EncodeChar_one (Nat.le_of_lt_succ hone)]
    refine @containsJapaneseCodepoint_step fuel character.toNat _ _ [] rest ?_ rfl ?_
    · have hbyte := @toNat_ofNat_add character.toNat 0 (by omega)
      rw [Nat.add_zero] at hbyte
      exact (congrArg leadBits hbyte).trans (leadBits_one _ hone)
    · rw [Noncanonical, List.length_nil]
      omega
  by_cases htwo : character.toNat < 0x800
  · rw [utf8EncodeChar_two (Nat.le_of_not_lt hone) htwo]
    refine @containsJapaneseCodepoint_step fuel (character.toNat / 64 % 0x20) _ _ [_] rest ?_ ?_ ?_
    · exact (congrArg leadBits (toNat_ofNat_add (by omega))).trans (leadBits_two _ (by omega))
    · rw [continueBits_cons (by omega), continueBits]
      congr 1
      change character.toNat / 64 % 0x20 * 64 + character.toNat % 0x40 = _
      omega
    · rw [Noncanonical, List.length_singleton]
      omega
  by_cases hthree : character.toNat < 0x10000
  · rw [utf8EncodeChar_three (Nat.le_of_not_lt htwo) hthree]
    refine @containsJapaneseCodepoint_step fuel (character.toNat / 4096 % 0x10) _ _ [_, _] rest
      ?_ ?_ ?_
    · exact (congrArg leadBits (toNat_ofNat_add (by omega))).trans (leadBits_three _ (by omega))
    · rw [continueBits_cons (by omega), continueBits_cons (by omega), continueBits]
      congr 1
      change (character.toNat / 4096 % 0x10 * 64 + character.toNat / 64 % 0x40) * 64 +
        character.toNat % 0x40 = _
      omega
    · rw [Noncanonical, List.length_cons, List.length_singleton]
      omega
  · rw [utf8EncodeChar_four (Nat.le_of_not_lt hthree)]
    refine @containsJapaneseCodepoint_step fuel (character.toNat / 262144 % 0x08) _ _ [_, _, _]
      rest ?_ ?_ ?_
    · exact (congrArg leadBits (toNat_ofNat_add (by omega))).trans (leadBits_four _ (by omega))
    · rw [continueBits_cons (by omega), continueBits_cons (by omega),
        continueBits_cons (by omega), continueBits]
      congr 1
      change ((character.toNat / 262144 % 0x08 * 64 + character.toNat / 4096 % 0x40) * 64 +
        character.toNat / 64 % 0x40) * 64 + character.toNat % 0x40 = _
      omega
    · rw [Noncanonical, List.length_cons, List.length_cons, List.length_singleton]
      omega

/-- The scan of the bytes finds what the scan of the characters finds. -/
theorem containsJapaneseCodepoint_encodeUtf8 {text : List Char} {fuel : ℕ}
    (hfuel : text.length ≤ fuel) : containsJapaneseCodepoint fuel (encodeUtf8 text) =
      .ok (text.any fun character => isJapanese character.toNat) := by
  induction text generalizing fuel with
  | nil => cases fuel <;> rfl
  | cons character text ih =>
    obtain ⟨fuel, rfl⟩ := Nat.exists_eq_succ_of_ne_zero
      (Nat.ne_of_gt (Nat.lt_of_lt_of_le (Nat.succ_pos _) hfuel))
    rw [encodeUtf8, List.flatMap_cons, containsJapaneseCodepoint_encodeChar, ← encodeUtf8,
      ih (Nat.le_of_succ_le_succ hfuel)]
    rfl

theorem encodeUtf8_ne_nil {text : List Char} (h : text ≠ []) : encodeUtf8 text ≠ [] := by
  cases text with
  | nil => exact absurd rfl h
  | cons character text =>
    rw [encodeUtf8, List.flatMap_cons]
    exact List.append_ne_nil_of_left_ne_nil String.utf8EncodeChar_ne_nil _

theorem length_le_length_encodeUtf8 (text : List Char) :
    text.length ≤ (encodeUtf8 text).length := by
  induction text with
  | nil => exact Nat.le_refl 0
  | cons character text ih =>
    have hpos := List.length_pos_iff.mpr (@String.utf8EncodeChar_ne_nil character)
    rw [encodeUtf8, List.flatMap_cons, List.length_append, ← encodeUtf8, List.length_cons]
    omega

theorem any_isJapanese_characters {text : CodePoints} (h : Encodable text) :
    ((characters text).any fun character => isJapanese character.toNat) =
      containsJapanese text := by
  induction text with
  | nil => rfl
  | cons point text ih =>
    rw [characters_cons, List.any_cons, toNat_ofNat_of_valid (h point List.mem_cons_self),
      ih fun other hmem => h other (List.mem_cons_of_mem _ hmem)]
    rfl

/-! ### Identifiers and digests -/

theorem allowed_points : ∀ point < 0x80,
    isLetterOrDigit (UInt8.ofNat point) = isAsciiAlnum point ∧
      (UInt8.ofNat point == 0x5f) = (point == 0x5f) ∧
        (UInt8.ofNat point == 0x2d) = (point == 0x2d) := by
  decide

theorem lt_of_isAsciiAlnum {point : ℕ} (h : isAsciiAlnum point = true) : point < 0x80 := by
  simp only [isAsciiAlnum, Bool.or_eq_true, Bool.and_eq_true, decide_eq_true_eq] at h
  omega

theorem lt_of_validIdentifier {value : CodePoints} (h : validIdentifier value = true) :
    ∀ point ∈ value, point < 0x80 := by
  unfold validIdentifier at h
  split at h
  next => cases h
  next first rest =>
    simp only [Bool.and_eq_true, List.all_eq_true, Bool.or_eq_true, beq_iff_eq] at h
    intro point hmem
    rcases h.2 point hmem with (halnum | rfl) | rfl
    · exact lt_of_isAsciiAlnum halnum
    · decide
    · decide

/-- The two checks of an identifier agree. -/
theorem validIdentifierBytes_map {value : CodePoints} (h : validIdentifier value = true) :
    validIdentifierBytes (value.map UInt8.ofNat) = true := by
  have hascii := lt_of_validIdentifier h
  cases value with
  | nil => exact h
  | cons first rest =>
    rw [validIdentifier] at h
    rw [List.map_cons, validIdentifierBytes]
    simp only [Bool.and_eq_true, List.all_eq_true, decide_eq_true_eq] at h ⊢
    obtain ⟨⟨hlength, hfirst⟩, hall⟩ := h
    rw [← List.map_cons, List.length_map]
    refine ⟨⟨hlength, ?_⟩, ?_⟩
    · rw [(allowed_points first (hascii first List.mem_cons_self)).1]
      exact hfirst
    · rw [List.forall_mem_map]
      intro point hmem
      obtain ⟨halnum, hunder, hdash⟩ := allowed_points point (hascii point hmem)
      rw [halnum, hunder, hdash]
      exact hall point hmem

/-- The value of a hexadecimal digit. -/
def nibbleOf (point : ℕ) : ℕ := if point ≤ 0x39 then point - 0x30 else point - 0x61 + 10

theorem hexNibble_points : ∀ point < 0x80, isHexPoint point = true →
    hexNibble (UInt8.ofNat point) = .ok (nibbleOf point) ∧
      (nibbleOf point = 0 → point = 0x30) := by
  decide

theorem lt_of_isHexPoint {point : ℕ} (h : isHexPoint point = true) : point < 0x80 := by
  simp only [isHexPoint, Bool.or_eq_true, Bool.and_eq_true, decide_eq_true_eq] at h
  omega

/-- Pairs of hexadecimal digits. A digest of zeros has only zeros. -/
theorem parseNibbles_map {count : ℕ} {points : CodePoints} (hlength : points.length = 2 * count)
    (hhex : ∀ point ∈ points, isHexPoint point = true) :
    ∃ digest, parseNibbles (points.map UInt8.ofNat) = .ok digest ∧
      (digest = List.replicate count 0 → points = List.replicate (2 * count) 0x30) := by
  induction count generalizing points with
  | zero =>
    rw [List.length_eq_zero_iff.mp hlength]
    exact ⟨[], rfl, fun _ => rfl⟩
  | succ count ih =>
    match points, hlength, hhex with
    | high :: low :: rest, hlength, hhex =>
      have hrest : rest.length = 2 * count := by
        rw [List.length_cons, List.length_cons] at hlength
        omega
      obtain ⟨digest, hdigest, hzero⟩ := ih hrest fun point hmem =>
        hhex point (List.mem_cons_of_mem _ (List.mem_cons_of_mem _ hmem))
      have hhigh := hhex high List.mem_cons_self
      have hlow := hhex low (List.mem_cons_of_mem _ List.mem_cons_self)
      obtain ⟨hhigh, hhighZero⟩ := hexNibble_points high (lt_of_isHexPoint hhigh) hhigh
      obtain ⟨hlow, hlowZero⟩ := hexNibble_points low (lt_of_isHexPoint hlow) hlow
      refine ⟨(nibbleOf high * 16 + nibbleOf low) :: digest, ?_, fun heq => ?_⟩
      · rw [List.map_cons, List.map_cons, parseNibbles, hhigh, ok_bind, hlow, ok_bind, hdigest,
          ok_bind]
        rfl
      · rw [List.replicate_succ, List.cons_eq_cons] at heq
        rw [hhighZero (by omega), hlowZero (by omega), hzero heq.2]
        rfl

theorem IsSha256.ascii {digest : CodePoints} (h : IsSha256 digest) :
    ∀ point ∈ digest, point < 0x80 :=
  fun point hmem => lt_of_isHexPoint (h.2.2 point hmem)

theorem parseSha256_map {digest : CodePoints} (h : IsSha256 digest) :
    ∃ bytes, parseSha256 (digest.map UInt8.ofNat) = .ok bytes := by
  obtain ⟨hlength, hne, hhex⟩ := h
  obtain ⟨bytes, hbytes, hzero⟩ := @parseNibbles_map 32 digest hlength hhex
  have hnonzero : bytes ≠ List.replicate 32 0 := fun heq => hne (hzero heq)
  refine ⟨bytes, ?_⟩
  rw [parseSha256, List.length_map, ensure_of hlength, ok_bind, hbytes, ok_bind, ensure_of hnonzero]
  rfl

theorem hexPoint_lt {nibble : ℕ} (h : nibble < 16) : hexdigest.hexPoint nibble < 0x80 := by
  unfold hexdigest.hexPoint
  split <;> omega

theorem kHex_eq (nibble : ℕ) : kHex nibble = UInt8.ofNat (hexdigest.hexPoint nibble) := by
  unfold kHex hexdigest.hexPoint
  split <;> rfl

theorem hexdigest_ascii (digest : Bytes) : ∀ point ∈ hexdigest digest, point < 0x80 := by
  intro point hmem
  obtain ⟨byte, -, hpoint⟩ := List.mem_flatMap.mp hmem
  have hbyte : byte.toNat < 256 := UInt8.toNat_lt byte
  rcases List.mem_cons.mp hpoint with rfl | hpoint
  · exact hexPoint_lt (by omega)
  · rw [List.mem_singleton.mp hpoint]
    exact hexPoint_lt (by omega)

/-- The digits of a digest in the two languages. -/
theorem encodeUtf8_hexdigest (sha256 : Bytes → Bytes) (bytes : Bytes) :
    encodeUtf8 (characters (hexdigest (sha256 bytes))) = digestHex sha256 bytes := by
  rw [encodeUtf8_of_ascii (hexdigest_ascii _), hexdigest, List.map_flatMap, digestHex]
  refine List.flatMap_congr fun byte _ => ?_
  rw [kHex_eq, kHex_eq]
  rfl

/-! ### A case -/

/-- The case of the reader is that of the generator. -/
structure CarriesCase (sha256 : Bytes → Bytes) (frontend : CorpusFrontend)
    (sourceCase : BenchmarkSourceCase) (corpusCase : CorpusCase) : Prop where
  caseId : encodePoints sourceCase.caseId = some corpusCase.caseId
  sourceText : encodePoints sourceCase.sourceText = some corpusCase.sourceText
  sourceTextSha256 :
    encodePoints (hexdigest (sha256 corpusCase.sourceText)) = some corpusCase.sourceTextSha256
  tokenIds : preparedTokenIds frontend sourceCase = .ok corpusCase.tokenIds
  seed : corpusCase.seed = sourceCase.randomSeed

theorem map_toNat_map_ofNat {text : CodePoints} (h : ∀ point ∈ text, point < 0x80) :
    (text.map UInt8.ofNat).map UInt8.toNat = text := by
  rw [List.map_map]
  refine (List.map_congr_left fun point hmem => ?_).trans text.map_id
  have hlt := h point hmem
  exact UInt8.toNat_ofNat_of_lt' (show point < 256 by omega)

theorem caseId_injective {first second : BenchmarkSourceCase} (hfirst : first.WellFormed)
    (hsecond : second.WellFormed)
    (h : encodeUtf8 (characters first.caseId) = encodeUtf8 (characters second.caseId)) :
    first.caseId = second.caseId := by
  have hascii := lt_of_validIdentifier hfirst.caseId
  have hascii' := lt_of_validIdentifier hsecond.caseId
  rw [encodeUtf8_of_ascii hascii, encodeUtf8_of_ascii hascii'] at h
  rw [← map_toNat_map_ofNat hascii, h, map_toNat_map_ofNat hascii']

section Cases

variable {sha256 : Bytes → Bytes} {frontend : CorpusFrontend}

theorem recordMembers_caseMembers {sourceCase : BenchmarkSourceCase} (hcase : sourceCase.WellFormed)
    (recordType : String) (encoded : Bytes) {tokenIds : List ℕ}
    (htokens : ∀ tokenId ∈ tokenIds, tokenId ≤ 2 ^ 31 - 1) :
    RecordMembers ["record_type", "case_id", "source_text", "source_text_sha256",
      "prepared_token_ids", "random_seed"]
      (caseMembers sha256 sourceCase recordType encoded tokenIds) where
  keys := rfl
  distinct := by decide
  values := by
    have hseed := hcase.seed
    rw [caseMembers]
    simp only [List.forall_mem_cons, List.not_mem_nil, false_imp_iff, implies_true, and_true]
    refine ⟨.string (encodable_codePoints _),
      .string (encodable_of_ascii (lt_of_validIdentifier hcase.caseId)), .string hcase.encodable,
      .string (encodable_of_ascii (hexdigest_ascii _)), .naturals fun tokenId hmem => ?_,
      .natural (by omega)⟩
    have hle := htokens tokenId hmem
    omega

theorem requireStringMember_of_lookup {members : List (CodePoints × JsonValue)} {member : String}
    {text : CodePoints} (h : members.lookup (codePoints member) = some (.string text))
    (lineNumber : ℕ) :
    requireStringMember members member lineNumber = .ok (encodeUtf8 (characters text)) := by
  rw [requireStringMember, h]

theorem not_asInt64_neg {value : ℕ} (h : value < 2 ^ 63) : ¬ asInt64 (value : ℤ) < 0 := by
  unfold asInt64
  split <;> omega

theorem requireUint_of_lookup {members : List (CodePoints × JsonValue)} {member : String}
    {value : ℕ} (h : members.lookup (codePoints member) = some (.integer (value : ℤ)))
    (hvalue : value < 2 ^ 63) (lineNumber : ℕ) :
    requireUint members member lineNumber = .ok value := by
  rw [requireUint, h]
  exact if_neg (not_asInt64_neg hvalue)

theorem mapM_requireToken {tokenIds : List ℕ}
    (h : ∀ tokenId ∈ tokenIds, tokenId ≤ 2 ^ 31 - 1) :
    (tokenIds.map fun tokenId : ℕ => JsonValue.integer (tokenId : ℤ)).mapM requireToken =
      .ok tokenIds := by
  rw [mapM_eq_ok_iff, List.forall₂_map_left_iff, List.forall₂_same]
  intro tokenId hmem
  have hle := h tokenId hmem
  rw [requireToken, if_neg (not_asInt64_neg (by omega)), if_neg (by omega)]
  rfl

theorem requireTokens_of_lookup {members : List (CodePoints × JsonValue)} {tokenIds : List ℕ}
    (h : members.lookup (codePoints "prepared_token_ids") =
      some (.array (tokenIds.map fun tokenId : ℕ => .integer (tokenId : ℤ))))
    (hne : tokenIds ≠ []) (hlength : tokenIds.length ≤ maximumPreparedTokens)
    (htokens : ∀ tokenId ∈ tokenIds, tokenId ≤ 2 ^ 31 - 1) :
    requireTokens members = .ok tokenIds := by
  rw [requireTokens, h]
  dsimp only
  rw [if_neg, mapM_requireToken htokens]
  rw [List.map_eq_nil_iff, List.length_map, not_or, Nat.not_lt]
  exact ⟨hne, hlength⟩

/-- **The record of a case is read as that case.** -/
theorem parseCorpusCase_of_isCaseRecord {sourceCase : BenchmarkSourceCase}
    (hcase : sourceCase.WellFormed) {recordType : String} {record : JsonRecord}
    (hrecord : IsCaseRecord sha256 frontend recordType sourceCase record) (lineNumber : ℕ) :
    ∃ corpusCase, parseCorpusCase sha256 record.toJson lineNumber recordType = .ok corpusCase ∧
      CarriesCase sha256 frontend sourceCase corpusCase := by
  obtain ⟨tokenIds, htokens, rfl⟩ := hrecord
  obtain ⟨hne, hcount, hbound⟩ := preparedTokenIds_ok htokens
  have hmembers := @recordMembers_caseMembers sha256 sourceCase hcase recordType
    (encodeUtf8 (characters sourceCase.sourceText)) tokenIds hbound
  have hkeys := hmembers.hasKeys_sorted
  have hfind : ∀ key value, (key, value) ∈ caseMembers sha256 sourceCase recordType
      (encodeUtf8 (characters sourceCase.sourceText)) tokenIds → _ :=
    fun key value hmem => @RecordMembers.lookup_sorted _ _ hmembers key value hmem
  rw [RecordMembers.toJson_object]
  generalize sortMembersByKey ((caseMembers sha256 sourceCase recordType
    (encodeUtf8 (characters sourceCase.sourceText)) tokenIds).map (Prod.map id JsonRecord.toJson)) =
      sorted at hkeys hfind ⊢
  have htype : requireStringMember sorted "record_type" lineNumber = .ok (utf8 recordType) := by
    rw [← encodeUtf8_codePoints]
    exact requireStringMember_of_lookup (hfind _ _ (.head _)) lineNumber
  have hcaseId : requireStringMember sorted "case_id" lineNumber =
      .ok (encodeUtf8 (characters sourceCase.caseId)) :=
    requireStringMember_of_lookup (hfind _ _ (.tail _ (.head _))) lineNumber
  have htext : requireStringMember sorted "source_text" lineNumber =
      .ok (encodeUtf8 (characters sourceCase.sourceText)) :=
    requireStringMember_of_lookup (hfind _ _ (.tail _ (.tail _ (.head _)))) lineNumber
  have hdigest : requireStringMember sorted "source_text_sha256" lineNumber =
      .ok (digestHex sha256 (encodeUtf8 (characters sourceCase.sourceText))) := by
    rw [← encodeUtf8_hexdigest]
    exact requireStringMember_of_lookup (hfind _ _ (.tail _ (.tail _ (.tail _ (.head _)))))
      lineNumber
  have htokenIds : requireTokens sorted = .ok tokenIds :=
    requireTokens_of_lookup ((hfind _ _ (.tail _ (.tail _ (.tail _ (.tail _ (.head _)))))).trans
      (congrArg some (toJson_naturals tokenIds))) hne hcount hbound
  have hrandomSeed : requireUint sorted "random_seed" lineNumber = .ok sourceCase.randomSeed := by
    have hseed := hcase.seed
    refine requireUint_of_lookup ((hfind _ _
      (.tail _ (.tail _ (.tail _ (.tail _ (.tail _ (.head _))))))).trans ?_) (by omega) lineNumber
    rw [JsonRecord.toJson]
  have hascii := lt_of_validIdentifier hcase.caseId
  have hvalid : validIdentifierBytes (encodeUtf8 (characters sourceCase.caseId)) = true := by
    rw [encodeUtf8_of_ascii hascii]
    exact validIdentifierBytes_map hcase.caseId
  have hbytes : encodeUtf8 (characters sourceCase.sourceText) ≠ [] ∧
      (encodeUtf8 (characters sourceCase.sourceText)).length ≤ 4096 :=
    ⟨encodeUtf8_ne_nil (mt List.map_eq_nil_iff.mp hcase.nonempty), hcase.bounded⟩
  have hjapanese : containsJapaneseCodepoint (encodeUtf8 (characters sourceCase.sourceText)).length
      (encodeUtf8 (characters sourceCase.sourceText)) = .ok true := by
    rw [containsJapaneseCodepoint_encodeUtf8 (length_le_length_encodeUtf8 _),
      any_isJapanese_characters hcase.encodable, hcase.japanese]
  refine ⟨⟨encodeUtf8 (characters sourceCase.caseId), encodeUtf8 (characters sourceCase.sourceText),
    digestHex sha256 (encodeUtf8 (characters sourceCase.sourceText)), tokenIds,
    sourceCase.randomSeed⟩, ?_, ?_⟩
  · rw [parseCorpusCase, requireExactMembers, if_pos hkeys, ok_bind, htype, ok_bind,
      ensure_of rfl, ok_bind, hcaseId, ok_bind, ensure_of hvalid, ok_bind, htext, ok_bind,
      ensure_of hbytes, ok_bind, hjapanese, ok_bind, ensure_of rfl, ok_bind, hdigest,
      ok_bind, ensure_of rfl, ok_bind, htokenIds, ok_bind, hrandomSeed, ok_bind,
      ensure_of hcase.seed, ok_bind]
    rfl
  · exact ⟨encodePoints_eq_some_iff.mpr ⟨encodable_of_ascii hascii, rfl⟩,
      encodePoints_eq_some_iff.mpr ⟨hcase.encodable, rfl⟩,
      encodePoints_eq_some_iff.mpr ⟨encodable_of_ascii (hexdigest_ascii _),
        (encodeUtf8_hexdigest sha256 _).symm⟩, htokens, rfl⟩

/-- The normal cases are read in order, and their identifiers differ. -/
theorem parseCorpusCases_of_isCaseRecord {sourceCases : List BenchmarkSourceCase}
    {records : List JsonRecord}
    (hrecords : List.Forall₂ (IsCaseRecord sha256 frontend "case") sourceCases records)
    (hcases : ∀ sourceCase ∈ sourceCases, sourceCase.WellFormed) {seen : List Bytes}
    (hseen : ∀ sourceCase ∈ sourceCases, encodeUtf8 (characters sourceCase.caseId) ∉ seen)
    (hdistinct : (sourceCases.map BenchmarkSourceCase.caseId).Nodup) (lineNumber : ℕ) :
    ∃ corpusCases, parseCorpusCases sha256 lineNumber seen (records.map JsonRecord.toJson) =
        .ok corpusCases ∧
      List.Forall₂ (CarriesCase sha256 frontend) sourceCases corpusCases := by
  induction hrecords generalizing seen lineNumber with
  | nil => exact ⟨[], rfl, .nil⟩
  | @cons sourceCase record sourceCases records hrecord _ ih =>
    rw [List.map_cons, List.nodup_cons] at hdistinct
    have hcase := hcases sourceCase List.mem_cons_self
    obtain ⟨corpusCase, hparse, hcarries⟩ :=
      parseCorpusCase_of_isCaseRecord hcase hrecord lineNumber
    have hid := (encodePoints_eq_some_iff.mp hcarries.caseId).2
    have hnew : ∀ other ∈ sourceCases,
        encodeUtf8 (characters other.caseId) ∉ corpusCase.caseId :: seen := by
      intro other hother hmem
      have hwell := hcases other (List.mem_cons_of_mem _ hother)
      rcases List.mem_cons.mp hmem with heq | hmem
      · rw [hid] at heq
        have hsame := caseId_injective hwell hcase heq
        exact hdistinct.1 (hsame ▸ List.mem_map_of_mem hother)
      · exact hseen other (List.mem_cons_of_mem _ hother) hmem
    obtain ⟨corpusCases, hmore, hall⟩ :=
      ih (fun other hother => hcases other (List.mem_cons_of_mem _ hother)) hnew hdistinct.2
        (lineNumber + 1)
    have hnot : corpusCase.caseId ∉ seen := hid ▸ hseen sourceCase List.mem_cons_self
    refine ⟨corpusCase :: corpusCases, ?_, .cons hcarries hall⟩
    rw [List.map_cons, parseCorpusCases, hparse, ok_bind, ensure_of hnot, ok_bind, hmore,
      ok_bind]
    rfl

end Cases

/-! ### Lines -/

/-- A byte of the text of a record is no control character. -/
theorem le_of_mem_dumps {record : JsonRecord} (hrecord : Encodable record.dumps) {byte : UInt8}
    (hmem : byte ∈ encodeUtf8 (characters record.dumps)) : 0x20 ≤ byte.toNat := by
  by_contra hlt
  obtain ⟨character, hcharacter, hbyte⟩ := List.mem_flatMap.mp hmem
  obtain ⟨point, hpoint, rfl⟩ := List.mem_map.mp hcharacter
  have hle := (JsonRecord.mem_dumps record hpoint).1
  have hascii := (utf8EncodeChar_of_ascii hbyte (by omega)).2
  have hnat := congrArg Char.toNat hascii
  rw [toNat_ofNat_of_valid (hrecord point hpoint), asciiChar,
    toNat_ofNat_of_valid (isValidChar_of_ascii (by omega))] at hnat
  omega

/-- What the reader gets of a line: the text of its record. -/
theorem getlines_recordLine {records : List JsonRecord}
    (hrecords : ∀ record ∈ records, Encodable record.dumps) :
    getlines 0x0a (records.flatMap recordLine) =
      records.map fun record => encodeUtf8 (characters record.dumps) := by
  induction records with
  | nil => rfl
  | cons record records ih =>
    have hrecord := hrecords record List.mem_cons_self
    have hfeed : (0x0a : UInt8) ∉ encodeUtf8 (characters record.dumps) := fun hmem =>
      absurd (le_of_mem_dumps hrecord hmem) (by decide)
    have hline : recordLine record = encodeUtf8 (characters record.dumps) ++ [0x0a] := rfl
    rw [List.flatMap_cons, hline, List.append_assoc, getlines_append hfeed, List.singleton_append,
      getlines, if_pos rfl, ih fun other hmem => hrecords other (List.mem_cons_of_mem _ hmem),
      List.map_cons]
    by_cases hnil : encodeUtf8 (characters record.dumps) = []
    · rw [hnil]
      rfl
    · rw [foldr_consLine_append hnil]
      dsimp only
      rw [List.append_nil]

/-- The record of a line is an object with distinct keys that the parser knows. -/
structure ReadableRecord (parse : Bytes → Option JsonValue) (record : JsonRecord) : Prop where
  encodable : Encodable record.dumps
  nonempty : record.dumps ≠ []
  parsed : parse (encodeUtf8 (characters record.dumps)) = some record.toJson
  distinct : distinctKeys record.toJson = true

theorem RecordMembers.encodable_dumps {expected : List String}
    {members : List (CodePoints × JsonRecord)} (h : RecordMembers expected members) :
    Encodable (JsonRecord.object members).dumps := by
  rw [JsonRecord.encodable_dumps_iff, JsonRecord.strings, JsonRecord.allEncodable_memberStrings_iff]
  exact fun member hmem => ⟨h.encodable_keys hmem, (h.values member hmem).strings⟩

theorem RecordMembers.readable {expected : List String}
    {members : List (CodePoints × JsonRecord)} (h : RecordMembers expected members)
    {parse : Bytes → Option JsonValue} (hparse : ReadsStrictJson parse) :
    ReadableRecord parse (.object members) where
  encodable := h.encodable_dumps
  nonempty := by
    rw [JsonRecord.dumps]
    exact List.cons_ne_nil _ _
  parsed := by
    rw [RecordMembers.toJson_object]
    exact h.parse_dumps hparse
  distinct := by
    rw [RecordMembers.toJson_object]
    exact h.distinctKeys_sorted

/-- The lines of readable records are parsed. -/
theorem parseLines_map {parse : Bytes → Option JsonValue} {records : List JsonRecord}
    (hrecords : ∀ record ∈ records, ReadableRecord parse record) (lineNumber : ℕ) :
    parseLines parse lineNumber (records.map fun record => encodeUtf8 (characters record.dumps)) =
      .ok (records.map JsonRecord.toJson) := by
  induction records generalizing lineNumber with
  | nil => rfl
  | cons record records ih =>
    have hrecord := hrecords record List.mem_cons_self
    have hline : encodeUtf8 (characters record.dumps) ≠ [] ∧
        (encodeUtf8 (characters record.dumps)).getLast? ≠ some 0x0d := by
      refine ⟨encodeUtf8_ne_nil (mt List.map_eq_nil_iff.mp hrecord.nonempty), fun hlast => ?_⟩
      exact absurd (le_of_mem_dumps hrecord.encodable (List.mem_of_getLast? hlast)) (by decide)
    rw [List.map_cons, parseLines, ensure_of hline, ok_bind, parseStrictJsonLine,
      hrecord.parsed]
    dsimp only
    rw [if_pos hrecord.distinct, ok_bind,
      ih (fun other hmem => hrecords other (List.mem_cons_of_mem _ hmem)) (lineNumber + 1)]
    rfl

/-! ### The header -/

theorem recordMembers_headerMembers {source : BenchmarkSource} (hsource : source.WellFormed) :
    RecordMembers ["record_type", "schema_version", "corpus_id", "tokenizer_identity_sha256",
      "normal_case_count"] (headerMembers source source.tokenizerIdentitySha256) where
  keys := rfl
  distinct := by decide
  values := by
    have hcount : source.normalCases.length = 108 := hsource.count
    rw [headerMembers]
    simp only [List.forall_mem_cons, List.not_mem_nil, false_imp_iff, implies_true, and_true]
    exact ⟨.string (encodable_codePoints _), .string (encodable_codePoints _),
      .string (encodable_of_ascii (lt_of_validIdentifier hsource.corpusId)),
      .string (encodable_of_ascii hsource.identity.ascii), .natural (by omega)⟩

/-- **The header is read.** -/
theorem parseHeader_of_wellFormed {source : BenchmarkSource} (hsource : source.WellFormed) :
    parseHeader (JsonRecord.object (headerMembers source source.tokenizerIdentitySha256)).toJson
        (kAcceptanceNormalCases + 2) =
      .ok (encodeUtf8 (characters source.corpusId),
        encodeUtf8 (characters source.tokenizerIdentitySha256)) := by
  have hmembers := recordMembers_headerMembers hsource
  have hcount : source.normalCases.length = 108 := hsource.count
  have hkeys := hmembers.hasKeys_sorted
  have hfind : ∀ key value, (key, value) ∈
      headerMembers source source.tokenizerIdentitySha256 → _ :=
    fun key value hmem => @RecordMembers.lookup_sorted _ _ hmembers key value hmem
  rw [RecordMembers.toJson_object]
  generalize sortMembersByKey ((headerMembers source source.tokenizerIdentitySha256).map
    (Prod.map id JsonRecord.toJson)) = sorted at hkeys hfind ⊢
  have htype : requireStringMember sorted "record_type" 1 = .ok (utf8 "header") := by
    rw [← encodeUtf8_codePoints]
    exact requireStringMember_of_lookup (hfind _ _ (.head _)) 1
  have hschema : requireStringMember sorted "schema_version" 1 =
      .ok (utf8 "magpie-tts-rt.benchmark-corpus.v1") := by
    rw [← encodeUtf8_codePoints]
    exact requireStringMember_of_lookup (hfind _ _ (.tail _ (.head _))) 1
  have hid : requireStringMember sorted "corpus_id" 1 =
      .ok (encodeUtf8 (characters source.corpusId)) :=
    requireStringMember_of_lookup (hfind _ _ (.tail _ (.tail _ (.head _)))) 1
  have hidentity : requireStringMember sorted "tokenizer_identity_sha256" 1 =
      .ok (encodeUtf8 (characters source.tokenizerIdentitySha256)) :=
    requireStringMember_of_lookup (hfind _ _ (.tail _ (.tail _ (.tail _ (.head _))))) 1
  have hdeclared : requireUint sorted "normal_case_count" 1 = .ok 108 := by
    refine requireUint_of_lookup ((hfind _ _
      (.tail _ (.tail _ (.tail _ (.tail _ (.head _)))))).trans ?_) (by decide) 1
    rw [JsonRecord.toJson, hcount]
  have hvalid : validIdentifierBytes (encodeUtf8 (characters source.corpusId)) = true := by
    rw [encodeUtf8_of_ascii (lt_of_validIdentifier hsource.corpusId)]
    exact validIdentifierBytes_map hsource.corpusId
  obtain ⟨digest, hdigest⟩ := parseSha256_map hsource.identity
  rw [← encodeUtf8_of_ascii hsource.identity.ascii] at hdigest
  rw [parseHeader, requireExactMembers, if_pos hkeys, ok_bind, htype, ok_bind, hschema, ok_bind,
    ensure_of ⟨rfl, rfl⟩, ok_bind, hid, ok_bind, ensure_of hvalid, ok_bind, hidentity,
    ok_bind, hdigest, ok_bind, hdeclared, ok_bind, ensure_of ⟨rfl, rfl⟩]
  rfl

theorem readable_of_isCaseRecord {parse : Bytes → Option JsonValue}
    (hparse : ReadsStrictJson parse) {sha256 : Bytes → Bytes} {frontend : CorpusFrontend}
    {recordType : String} {sourceCase : BenchmarkSourceCase} (hcase : sourceCase.WellFormed)
    {record : JsonRecord} (h : IsCaseRecord sha256 frontend recordType sourceCase record) :
    ReadableRecord parse record := by
  obtain ⟨tokenIds, htokens, rfl⟩ := h
  exact (recordMembers_caseMembers hcase recordType _ (preparedTokenIds_ok htokens).2.2).readable
    hparse

/-! ### The corpus -/

/-- The corpus of the reader is that of the generator. -/
structure SameCorpus (sha256 : Bytes → Bytes) (frontend : CorpusFrontend)
    (source : BenchmarkSource) (corpus : BenchmarkCorpus) : Prop where
  corpusId : encodePoints source.corpusId = some corpus.corpusId
  identity : encodePoints source.tokenizerIdentitySha256 = some corpus.tokenizerIdentitySha256
  normalCases : List.Forall₂ (CarriesCase sha256 frontend) source.normalCases corpus.normalCases
  cancelCase : CarriesCase sha256 frontend source.cancelCase corpus.cancelCase

/-- The lines of a well formed source are accepted. -/
theorem loadBenchmarkCorpus_of_wellFormed {parse : Bytes → Option JsonValue}
    (hparse : ReadsStrictJson parse) {sha256 : Bytes → Bytes} {frontend : CorpusFrontend}
    {source : BenchmarkSource} (hsource : source.WellFormed) {identity : CodePoints}
    {payload : Bytes} (h : generateCorpusBytes sha256 source frontend identity = .ok payload) :
    ∃ corpus, loadBenchmarkCorpus parse sha256 payload = .ok corpus ∧
      SameCorpus sha256 frontend source corpus := by
  obtain ⟨normalRecords, cancelRecord, hnormal, hcancel, hpayload, hlength⟩ :=
    generateCorpusBytes_ok h
  have hheader := (recordMembers_headerMembers hsource).readable hparse
  have hreadable : ∀ record ∈ JsonRecord.object (headerMembers source
      source.tokenizerIdentitySha256) :: (normalRecords ++ [cancelRecord]),
        ReadableRecord parse record := by
    rw [List.forall_mem_cons, List.forall_mem_append, List.forall_mem_singleton]
    refine ⟨hheader, fun record hmem => ?_, readable_of_isCaseRecord hparse hsource.cancelCase
      hcancel⟩
    obtain ⟨sourceCase, hmem, hrecord⟩ := exists_of_mem_forall₂ hnormal hmem
    exact readable_of_isCaseRecord hparse (hsource.normalCases sourceCase hmem) hrecord
  have hcount : normalRecords.length = 108 := hnormal.length_eq.symm.trans hsource.count
  have hlines := parseLines_map hreadable 1
  rw [← getlines_recordLine fun record hmem => (hreadable record hmem).encodable, ← hpayload]
    at hlines
  have hsmall : payload.length ≤ kMaximumSmokeJsonBytes := hlength
  have hnonempty : payload ≠ [] := by
    rw [hpayload, List.flatMap_cons]
    exact List.append_ne_nil_of_left_ne_nil
      (List.append_ne_nil_of_right_ne_nil _ (List.cons_ne_nil _ _)) _
  have hnul : (0 : UInt8) ∉ payload := by
    rw [hpayload]
    intro hmem
    obtain ⟨record, hrecord, hbyte⟩ := List.mem_flatMap.mp hmem
    rcases List.mem_append.mp hbyte with hbyte | hbyte
    · exact absurd (le_of_mem_dumps (hreadable record hrecord).encodable hbyte) (by decide)
    · exact absurd (List.mem_singleton.mp hbyte) (by decide)
  obtain ⟨cancelCase, hcancelCase, hcarries⟩ := parseCorpusCase_of_isCaseRecord
    hsource.cancelCase hcancel (kAcceptanceNormalCases + 2)
  have hdistinct := hsource.distinct
  rw [List.map_append, List.nodup_append'] at hdistinct
  obtain ⟨normalCases, hnormalCases, hall⟩ := parseCorpusCases_of_isCaseRecord hnormal
    hsource.normalCases (fun _ _ => List.not_mem_nil) hdistinct.1 2
  have hnew : cancelCase.caseId ∉ normalCases.map CorpusCase.caseId := by
    intro hmem
    obtain ⟨corpusCase, hcorpusCase, hsame⟩ := List.mem_map.mp hmem
    obtain ⟨sourceCase, hsourceCase, hcase⟩ := exists_of_mem_forall₂ hall hcorpusCase
    have heq := caseId_injective (hsource.normalCases sourceCase hsourceCase) hsource.cancelCase
      ((encodePoints_eq_some_iff.mp hcase.caseId).2.symm.trans
        (hsame.trans (encodePoints_eq_some_iff.mp hcarries.caseId).2))
    exact hdistinct.2.2 (List.mem_map_of_mem hsourceCase) (heq ▸ List.mem_cons_self)
  generalize hheaderRecord :
    JsonRecord.object (headerMembers source source.tokenizerIdentitySha256) = header at hlines
  have hrecords : ((header :: (normalRecords ++ [cancelRecord])).map JsonRecord.toJson).length =
      kAcceptanceNormalCases + 2 := by
    rw [List.length_map, List.length_cons, List.length_append, hcount]
    rfl
  have hmiddle : (((header :: (normalRecords ++ [cancelRecord])).map JsonRecord.toJson).drop
      1).take kAcceptanceNormalCases = normalRecords.map JsonRecord.toJson := by
    rw [List.map_cons, List.drop_one, List.tail_cons, List.map_append]
    exact List.take_left' (by rw [List.length_map]; exact hcount)
  have hlast : ((header :: (normalRecords ++ [cancelRecord])).map JsonRecord.toJson).getLastD
      .null = cancelRecord.toJson := by
    rw [List.map_cons, List.map_append, List.map_singleton, List.getLastD_cons,
      List.getLastD_concat]
  have hhead : ((header :: (normalRecords ++ [cancelRecord])).map JsonRecord.toJson).headD .null =
      header.toJson := rfl
  refine ⟨⟨encodeUtf8 (characters source.corpusId),
    encodeUtf8 (characters source.tokenizerIdentitySha256), digestHex sha256 payload, normalCases,
    cancelCase⟩, ?_, ?_⟩
  · rw [loadBenchmarkCorpus, ensure_of hnonempty, ok_bind, ensure_of hsmall, ok_bind,
      ensure_of hnul, ok_bind, hlines, ok_bind, hmiddle, hlast, hhead, hrecords, ensure_of rfl,
      ok_bind, ← hheaderRecord, parseHeader_of_wellFormed hsource, ok_bind, hnormalCases, ok_bind,
      hcancelCase, ok_bind, ensure_of hnew, ok_bind]
    rfl
  · exact ⟨encodePoints_eq_some_iff.mpr
        ⟨encodable_of_ascii (lt_of_validIdentifier hsource.corpusId), rfl⟩,
      encodePoints_eq_some_iff.mpr ⟨encodable_of_ascii hsource.identity.ascii, rfl⟩, hall, hcarries⟩

end MagpieTts.Frontend
