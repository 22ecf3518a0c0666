import MagpieTts.Frontend.BenchmarkCorpus
import MagpieTts.Library.FieldTable

/-!
# The records of a benchmark corpus as the reader sees them

A record whose integers have 64 bits and whose strings have encodings is written as strict JSON. In
what the reader gets of an object, every member is found under its key.

## Main results

* `parse_dumps`: the value that a parser returns for the text of a record.
* `lookup_sorted`, `hasKeys_sorted`: the members of an object.
* `encodeUtf8_of_ascii`: a string of ASCII characters.
-/

namespace MagpieTts.Frontend

open MagpieTts.Library

/-! ### Encodings -/

theorem encodePoints_eq_some_iff {text : CodePoints} {bytes : Bytes} :
    encodePoints text = some bytes ↔ Encodable text ∧ bytes = encodeUtf8 (characters text) := by
  unfold encodePoints
  split
  next h => exact ⟨fun heq => ⟨h, (Option.some.inj heq).symm⟩, fun heq => by rw [heq.2]; rfl⟩
  next h => exact ⟨nofun, fun heq => absurd heq.1 h⟩

theorem encodeText_eq_ok_iff {text : CodePoints} {bytes : Bytes} :
    encodeText text = .ok bytes ↔ Encodable text ∧ bytes = encodeUtf8 (characters text) := by
  rw [← encodePoints_eq_some_iff]
  unfold encodeText
  split
  next h => rw [h]; exact iff_of_false nofun nofun
  next found h => rw [h]; exact ⟨fun heq => by cases heq; rfl, fun heq => by cases heq; rfl⟩

theorem isValidChar_of_ascii {point : ℕ} (h : point < 0x80) : point.isValidChar :=
  .inl (by omega)

theorem encodable_of_ascii {text : CodePoints} (h : ∀ point ∈ text, point < 0x80) :
    Encodable text :=
  fun point hmem => isValidChar_of_ascii (h point hmem)

/-- A string of ASCII characters has one byte for each of them. -/
theorem encodeUtf8_of_ascii {text : CodePoints} (h : ∀ point ∈ text, point < 0x80) :
    encodeUtf8 (characters text) = text.map UInt8.ofNat := by
  induction text with
  | nil => rfl
  | cons point text ih =>
    have hpoint := h point List.mem_cons_self
    have hval : (Char.ofNat point).val.toNat = point :=
      toNat_ofNat_of_valid (isValidChar_of_ascii hpoint)
    rw [characters_cons, encodeUtf8, List.flatMap_cons, String.utf8EncodeChar, hval,
      if_pos (Nat.le_of_lt_succ hpoint), List.singleton_append, List.map_cons, ← encodeUtf8,
      ih fun other hmem => h other (List.mem_cons_of_mem _ hmem)]

theorem characters_codePoints (text : String) : characters (codePoints text) = text.toList :=
  characters_map_toNat text.toList

theorem encodeUtf8_codePoints (text : String) :
    encodeUtf8 (characters (codePoints text)) = utf8 text := by
  rw [characters_codePoints]
  rfl

/-! ### Strict values -/

theorem elementsStrictJson_iff {elements : List JsonValue} :
    ElementsStrictJson elements ↔ ∀ element ∈ elements, StrictJson element := by
  induction elements with
  | nil => exact iff_of_true trivial fun _ hmem => nomatch hmem
  | cons element elements ih => rw [ElementsStrictJson, ih, List.forall_mem_cons]

theorem membersStrictJson_iff {members : List (CodePoints × JsonValue)} :
    MembersStrictJson members ↔
      ∀ member ∈ members, Encodable member.1 ∧ StrictJson member.2 := by
  induction members with
  | nil => exact iff_of_true trivial fun _ hmem => nomatch hmem
  | cons member members ih => rw [MembersStrictJson, ih, List.forall_mem_cons, and_assoc]

theorem elementsDistinctKeys_iff {elements : List JsonValue} :
    elementsDistinctKeys elements = true ↔ ∀ element ∈ elements, distinctKeys element = true := by
  induction elements with
  | nil => exact iff_of_true rfl fun _ hmem => nomatch hmem
  | cons element elements ih =>
    rw [elementsDistinctKeys, Bool.and_eq_true, ih, List.forall_mem_cons]

theorem membersDistinctKeys_iff {members : List (CodePoints × JsonValue)} :
    membersDistinctKeys members = true ↔
      ∀ member ∈ members, distinctKeys member.2 = true := by
  induction members with
  | nil => exact iff_of_true rfl fun _ hmem => nomatch hmem
  | cons member members ih =>
    rw [membersDistinctKeys, Bool.and_eq_true, ih, List.forall_mem_cons]

/-- A value of a record of a corpus: a string that has an encoding, an integer, or an array of
integers. -/
inductive MemberValue : JsonRecord → Prop
  | string {text : CodePoints} (h : Encodable text) : MemberValue (.string text)
  | natural {value : ℕ} (h : value < 2 ^ 64) : MemberValue (.integer value)
  | naturals {values : List ℕ} (h : ∀ value ∈ values, value < 2 ^ 64) :
    MemberValue (.array (values.map fun value : ℕ => .integer (value : ℤ)))

/-- The members of a record of a corpus. -/
structure RecordMembers (expected : List String) (members : List (CodePoints × JsonRecord)) :
    Prop where
  keys : members.map Prod.fst = expected.map codePoints
  distinct : (expected.map codePoints).Nodup
  values : ∀ member ∈ members, MemberValue member.2

theorem integerFits_of_lt {value : ℕ} (h : value < 2 ^ 64) : IntegerFits strictLimits value :=
  (Nat.length_toDigits_le_iff (by decide) (by decide)).mpr
    (show value < 10 ^ 20 from Nat.lt_trans h (by decide))

theorem toJson_naturals (values : List ℕ) :
    (JsonRecord.array (values.map fun value : ℕ => .integer (value : ℤ))).toJson =
      .array (values.map fun value : ℕ => .integer (value : ℤ)) := by
  rw [JsonRecord.toJson, JsonRecord.elementValues_eq_map, List.map_map]
  rfl

theorem strictJson_natural {value : ℕ} (h : value < 2 ^ 64) :
    StrictJson (.integer (value : ℤ)) := by
  rw [StrictJson]
  omega

namespace MemberValue

variable {record : JsonRecord}

theorem strictJson (h : MemberValue record) : StrictJson record.toJson := by
  cases h with
  | string h =>
    rw [JsonRecord.toJson, StrictJson]
    exact h
  | natural h =>
    rw [JsonRecord.toJson]
    exact strictJson_natural h
  | naturals h =>
    rw [toJson_naturals, StrictJson, elementsStrictJson_iff, List.forall_mem_map]
    exact fun value hmem => strictJson_natural (h value hmem)

theorem distinctKeys (h : MemberValue record) : distinctKeys record.toJson = true := by
  cases h with
  | string h => rw [JsonRecord.toJson, Frontend.distinctKeys] <;> rintro _ ⟨⟩
  | natural h => rw [JsonRecord.toJson, Frontend.distinctKeys] <;> rintro _ ⟨⟩
  | naturals h =>
    rw [toJson_naturals, Frontend.distinctKeys, elementsDistinctKeys_iff, List.forall_mem_map]
    intro value _
    rw [Frontend.distinctKeys] <;> rintro _ ⟨⟩

theorem integers (h : MemberValue record) : ∀ integer ∈ record.integers,
    IntegerFits strictLimits integer := by
  cases h with
  | string h => exact fun _ hmem => nomatch hmem
  | natural h =>
    intro integer hmem
    rw [List.mem_singleton.mp hmem]
    exact integerFits_of_lt h
  | naturals h =>
    intro integer hmem
    rw [JsonRecord.integers] at hmem
    obtain ⟨element, helement, hmem⟩ := JsonRecord.mem_elementIntegers_iff.mp hmem
    obtain ⟨value, hvalue, rfl⟩ := List.mem_map.mp helement
    rw [List.mem_singleton.mp hmem]
    exact integerFits_of_lt (h value hvalue)

theorem strings (h : MemberValue record) : AllEncodable record.strings := by
  cases h with
  | string h => exact allEncodable_string.mpr h
  | natural h => exact allEncodable_integer _
  | naturals h => exact allEncodable_array.mpr fun _ _ => allEncodable_integer _

theorem withinDepth (h : MemberValue record) (depth : ℕ) : record.WithinDepth (depth + 1) := by
  cases h with
  | string h => trivial
  | natural h => trivial
  | naturals h =>
    intro element hmem
    obtain ⟨value, -, rfl⟩ := List.mem_map.mp hmem
    cases depth <;> trivial

end MemberValue

namespace RecordMembers

variable {expected : List String} {members : List (CodePoints × JsonRecord)}

theorem toJson_object (members : List (CodePoints × JsonRecord)) :
    (JsonRecord.object members).toJson =
      .object (sortMembersByKey (members.map (Prod.map id JsonRecord.toJson))) := by
  rw [JsonRecord.toJson, JsonRecord.memberValues_eq_map]

/-- What the reader gets of the members. -/
theorem mem_sorted_iff {member : CodePoints × JsonValue} :
    member ∈ sortMembersByKey (members.map (Prod.map id JsonRecord.toJson)) ↔
      ∃ found ∈ members, member = (found.1, found.2.toJson) := by
  rw [(perm_sortMembersByKey _).mem_iff, List.mem_map]
  exact ⟨fun ⟨found, hmem, heq⟩ => ⟨found, hmem, heq.symm⟩,
    fun ⟨found, hmem, heq⟩ => ⟨found, hmem, heq.symm⟩⟩

theorem perm_keys (h : RecordMembers expected members) :
    ((sortMembersByKey (members.map (Prod.map id JsonRecord.toJson))).map Prod.fst).Perm
      (expected.map codePoints) := by
  have hperm := (perm_sortMembersByKey (members.map (Prod.map id JsonRecord.toJson))).map Prod.fst
  rw [List.map_map] at hperm
  rw [← h.keys]
  exact hperm

theorem nodup_keys (h : RecordMembers expected members) :
    ((sortMembersByKey (members.map (Prod.map id JsonRecord.toJson))).map Prod.fst).Nodup :=
  h.perm_keys.nodup_iff.mpr h.distinct

theorem encodable_keys (h : RecordMembers expected members) {member : CodePoints × JsonRecord}
    (hmem : member ∈ members) : Encodable member.1 := by
  have hkey : member.1 ∈ expected.map codePoints := h.keys ▸ List.mem_map_of_mem hmem
  obtain ⟨key, -, heq⟩ := List.mem_map.mp hkey
  exact heq ▸ encodable_codePoints key

/-- **The value that a parser returns for the text of a record.** -/
theorem parse_dumps (h : RecordMembers expected members) {parse : Bytes → Option JsonValue}
    (hparse : ReadsStrictJson parse) :
    parse (encodeUtf8 (characters (JsonRecord.object members).dumps)) =
      some (.object (sortMembersByKey (members.map (Prod.map id JsonRecord.toJson)))) := by
  rw [← toJson_object]
  refine hparse _ _ ?_ (@isJsonText_dumps strictLimits _ ?_ ?_ ?_)
  · rw [toJson_object, StrictJson, membersStrictJson_iff]
    intro member hmem
    obtain ⟨found, hfound, rfl⟩ := mem_sorted_iff.mp hmem
    exact ⟨h.encodable_keys hfound, (h.values found hfound).strictJson⟩
  · exact fun member hmem => (h.values member hmem).withinDepth 998
  · intro integer hinteger
    rw [JsonRecord.integers] at hinteger
    obtain ⟨member, hmem, hinteger⟩ := JsonRecord.mem_memberIntegers_iff.mp hinteger
    exact (h.values member hmem).integers integer hinteger
  · rw [JsonRecord.strings, JsonRecord.allEncodable_memberStrings_iff]
    exact fun member hmem => ⟨h.encodable_keys hmem, (h.values member hmem).strings⟩

theorem distinctKeys_sorted (h : RecordMembers expected members) :
    distinctKeys (.object (sortMembersByKey (members.map (Prod.map id JsonRecord.toJson)))) =
      true := by
  rw [distinctKeys, Bool.and_eq_true, decide_eq_true_eq, membersDistinctKeys_iff]
  refine ⟨h.nodup_keys, fun member hmem => ?_⟩
  obtain ⟨found, hfound, rfl⟩ := mem_sorted_iff.mp hmem
  exact (h.values found hfound).distinctKeys

/-- A member is found under its key. -/
theorem lookup_sorted (h : RecordMembers expected members) {key : CodePoints} {value : JsonRecord}
    (hmem : (key, value) ∈ members) :
    (sortMembersByKey (members.map (Prod.map id JsonRecord.toJson))).lookup key =
      some value.toJson :=
  (lookup_eq_some_iff_mem h.nodup_keys).mpr (mem_sorted_iff.mpr ⟨_, hmem, rfl⟩)

theorem hasKeys_sorted (h : RecordMembers expected members) :
    HasKeys expected (sortMembersByKey (members.map (Prod.map id JsonRecord.toJson))) := by
  refine ⟨fun member hmem => h.perm_keys.subset (List.mem_map_of_mem hmem), fun key hkey => ?_⟩
  exact h.perm_keys.symm.subset (List.mem_map_of_mem hkey)

end RecordMembers

end MagpieTts.Frontend
