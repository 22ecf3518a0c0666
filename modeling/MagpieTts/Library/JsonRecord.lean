import Mathlib.Data.List.Sort
import Mathlib.Tactic.MkIffOfInductiveProp
import Mathlib.Tactic.SplitIfs
import MagpieTts.Library.JsonScanner
import MagpieTts.Library.JsonText
import MagpieTts.Library.TextLines
import Mathlib.Data.List.Lex
import Mathlib.Order.Nat

/-!
# Records of one line

A record is written as compact JSON with sorted keys and without escapes for characters outside
ASCII. The line feed is escaped, so that a record is one line. A record with half of a surrogate
pair has no encoding.

## Main definitions

* `JsonRecord`, `dumps`: a record and its text.
* `recordLine`: the line of a record.

## Main results

* `dumps_ne_feed`, `isLine_recordLine`: a record is one line.
* `encodable_dumps_iff`: the records that have an encoding.
-/

namespace MagpieTts.Library

/-! ### Strings -/

/-- A string without escapes. -/
def codePoints (text : String) : CodePoints := text.toList.map Char.toNat

/-- `text.encode("utf-8")`, where it does not raise: no code point is a surrogate. -/
def encodePoints (text : CodePoints) : Option Bytes :=
  if ∀ point ∈ text, point.isValidChar then some (encodeUtf8 (text.map Char.ofNat)) else none

/-- The string has no half of a surrogate pair. -/
def Encodable (text : CodePoints) : Prop := ∀ point ∈ text, point.isValidChar

def AllEncodable (texts : List CodePoints) : Prop := ∀ text ∈ texts, Encodable text

/-! ### Records -/

/-- A value of a record. -/
inductive JsonRecord
  | integer (value : ℤ)
  | string (text : CodePoints)
  | array (elements : List JsonRecord)
  | object (members : List (CodePoints × JsonRecord))

/-- The hexadecimal digits of a control character. -/
def hexDigits (point : ℕ) : CodePoints :=
  [0x30 + point / 16, if point % 16 < 10 then 0x30 + point % 16 else 0x61 + (point % 16 - 10)]

/-- The escapes of `json.dumps(…, ensure_ascii=False)`. -/
def escapePoint (point : ℕ) : CodePoints :=
  if point = 0x22 then [0x5c, 0x22]
  else if point = 0x5c then [0x5c, 0x5c]
  else if point = 0x0a then [0x5c, 0x6e]
  else if point = 0x0d then [0x5c, 0x72]
  else if point = 0x09 then [0x5c, 0x74]
  else if point = 0x0c then [0x5c, 0x66]
  else if point = 0x08 then [0x5c, 0x62]
  else if point < 0x20 then [0x5c, 0x75, 0x30, 0x30] ++ hexDigits point
  else [point]

def quotePoints (text : CodePoints) : CodePoints := 0x22 :: (text.flatMap escapePoint ++ [0x22])

/-- Texts with commas between them. -/
def joinCommas : List CodePoints → CodePoints
  | [] => []
  | [text] => text
  | text :: rest => text ++ 0x2c :: joinCommas rest

/-- Members in the order of their keys. -/
def sortMembersByKey {α : Type} (members : List (CodePoints × α)) : List (CodePoints × α) :=
  members.insertionSort fun first second => first.1 ≤ second.1

theorem perm_sortMembersByKey {α : Type} (members : List (CodePoints × α)) :
    (sortMembersByKey members).Perm members :=
  List.perm_insertionSort _ members

/-- The texts of members in the order of their keys. -/
def sortTexts (texts : List (CodePoints × CodePoints)) : List (CodePoints × CodePoints) :=
  sortMembersByKey texts

namespace JsonRecord

mutual

/-- `json.dumps(value, ensure_ascii=False, separators=(",", ":"), sort_keys=True)`. -/
def dumps : JsonRecord → CodePoints
  | .integer value => value.repr.toList.map Char.toNat
  | .string text => quotePoints text
  | .array elements => 0x5b :: (joinCommas (elementTexts elements) ++ [0x5d])
  | .object members =>
    0x7b :: (joinCommas ((sortTexts (memberTexts members)).map fun member =>
      quotePoints member.1 ++ 0x3a :: member.2) ++ [0x7d])

def elementTexts : List JsonRecord → List CodePoints
  | [] => []
  | element :: elements => element.dumps :: elementTexts elements

def memberTexts : List (CodePoints × JsonRecord) → List (CodePoints × CodePoints)
  | [] => []
  | (key, value) :: members => (key, value.dumps) :: memberTexts members

end

mutual

/-- The strings of a record, the keys included. -/
def strings : JsonRecord → List CodePoints
  | .integer _ => []
  | .string text => [text]
  | .array elements => elementStrings elements
  | .object members => memberStrings members

def elementStrings : List JsonRecord → List CodePoints
  | [] => []
  | element :: elements => element.strings ++ elementStrings elements

def memberStrings : List (CodePoints × JsonRecord) → List CodePoints
  | [] => []
  | (key, value) :: members => key :: (value.strings ++ memberStrings members)

end

mutual

/-- The integers of a record. -/
def integers : JsonRecord → List ℤ
  | .integer value => [value]
  | .string _ => []
  | .array elements => elementIntegers elements
  | .object members => memberIntegers members

def elementIntegers : List JsonRecord → List ℤ
  | [] => []
  | element :: elements => element.integers ++ elementIntegers elements

def memberIntegers : List (CodePoints × JsonRecord) → List ℤ
  | [] => []
  | (_, value) :: members => value.integers ++ memberIntegers members

end

end JsonRecord

/-- `repr` of the integer does not raise. -/
def IntegerFits (limits : JsonLimits) (value : ℤ) : Prop :=
  (Nat.toDigits 10 value.natAbs).length ≤ limits.maxDigits

instance (limits : JsonLimits) (value : ℤ) : Decidable (IntegerFits limits value) :=
  inferInstanceAs (Decidable (_ ≤ _))

/-! ### The text of a record -/

theorem mem_escapePoint {point found : ℕ} (h : found ∈ escapePoint point) :
    0x20 ≤ found ∧ (found < 0x7f ∨ found = point) := by
  unfold escapePoint hexDigits at h
  split_ifs at h <;>
    simp only [List.mem_cons, List.mem_append, List.not_mem_nil, or_false] at h <;> omega

theorem self_mem_escapePoint {point : ℕ} (h : 0x7f ≤ point) : point ∈ escapePoint point := by
  unfold escapePoint
  split_ifs <;> first | omega | exact List.mem_cons_self

theorem mem_quotePoints {text : CodePoints} {found : ℕ} (h : found ∈ quotePoints text) :
    0x20 ≤ found ∧ (found < 0x7f ∨ found ∈ text) := by
  rw [quotePoints, List.mem_cons, List.mem_append, List.mem_singleton] at h
  rcases h with rfl | h | rfl
  · omega
  · obtain ⟨point, hpoint, hfound⟩ := List.mem_flatMap.mp h
    obtain ⟨hle, hlt | rfl⟩ := mem_escapePoint hfound
    · exact ⟨hle, .inl hlt⟩
    · exact ⟨hle, .inr hpoint⟩
  · omega

theorem mem_quotePoints_of_mem {text : CodePoints} {point : ℕ} (hmem : point ∈ text)
    (hpoint : 0x7f ≤ point) : point ∈ quotePoints text :=
  List.mem_cons_of_mem _ (List.mem_append_left _
    (List.mem_flatMap.mpr ⟨point, hmem, self_mem_escapePoint hpoint⟩))

theorem mem_joinCommas_iff {texts : List CodePoints} {found : ℕ} (hcomma : found ≠ 0x2c) :
    found ∈ joinCommas texts ↔ ∃ text ∈ texts, found ∈ text := by
  induction texts with
  | nil => exact ⟨nofun, fun ⟨_, hmem, _⟩ => nomatch hmem⟩
  | cons text rest ih =>
    cases rest with
    | nil =>
      rw [joinCommas]
      simp only [List.mem_singleton, exists_eq_left]
    | cons second rest =>
      have hjoin : joinCommas (text :: second :: rest) =
          text ++ 0x2c :: joinCommas (second :: rest) := rfl
      rw [hjoin, List.mem_append, List.mem_cons, ih]
      simp only [hcomma, false_or, List.mem_cons, exists_eq_or_imp]

theorem mem_sortTexts_iff {texts : List (CodePoints × CodePoints)}
    {member : CodePoints × CodePoints} : member ∈ sortTexts texts ↔ member ∈ texts :=
  (perm_sortMembersByKey texts).mem_iff

namespace JsonRecord

/-- The text of an object, point by point. -/
theorem mem_dumps_object_iff {members : List (CodePoints × JsonRecord)} {found : ℕ}
    (hfound : found ≠ 0x2c ∧ found ≠ 0x7b ∧ found ≠ 0x7d ∧ found ≠ 0x3a) :
    found ∈ dumps (.object members) ↔
      ∃ member ∈ memberTexts members, found ∈ quotePoints member.1 ∨ found ∈ member.2 := by
  rw [dumps, List.mem_cons, List.mem_append, List.mem_singleton, mem_joinCommas_iff hfound.1]
  simp only [hfound.2.1, hfound.2.2.1, false_or, or_false, List.mem_map, mem_sortTexts_iff]
  constructor
  · rintro ⟨_, ⟨member, hmember, rfl⟩, h⟩
    rw [List.mem_append, List.mem_cons] at h
    rcases h with h | h | h
    · exact ⟨member, hmember, .inl h⟩
    · exact absurd h hfound.2.2.2
    · exact ⟨member, hmember, .inr h⟩
  · rintro ⟨member, hmember, h⟩
    refine ⟨_, ⟨member, hmember, rfl⟩, ?_⟩
    rw [List.mem_append, List.mem_cons]
    exact h.imp_right .inr

mutual

/-- A point of a text is printable ASCII, or it stands in a string. -/
theorem mem_dumps : ∀ (value : JsonRecord) {found : ℕ}, found ∈ value.dumps →
    0x20 ≤ found ∧ (found < 0x7f ∨ ∃ text ∈ value.strings, found ∈ text)
  | .integer value, found, h => by
    rw [dumps] at h
    obtain ⟨character, hmem, rfl⟩ := List.mem_map.mp h
    rcases isNumberChar_of_mem_repr hmem with hdigit | rfl
    · simp only [Char.isDigit, Bool.and_eq_true, decide_eq_true_eq] at hdigit
      have hle : (0x30 : ℕ) ≤ character.toNat := UInt32.le_iff_toNat_le.mp hdigit.1
      have hge : character.toNat ≤ 0x39 := UInt32.le_iff_toNat_le.mp hdigit.2
      omega
    · exact ⟨by decide, .inl (by decide)⟩
  | .string text, found, h => by
    obtain ⟨hle, hlt | hmem⟩ := mem_quotePoints h
    · exact ⟨hle, .inl hlt⟩
    · exact ⟨hle, .inr ⟨text, List.mem_singleton_self text, hmem⟩⟩
  | .array elements, found, h => by
    by_cases hpunctuation : found = 0x2c ∨ found = 0x5b ∨ found = 0x5d
    · omega
    · rw [not_or, not_or] at hpunctuation
      rw [dumps, List.mem_cons, List.mem_append, List.mem_singleton,
        mem_joinCommas_iff hpunctuation.1] at h
      obtain ⟨text, htext, hmem⟩ :=
        (h.resolve_left hpunctuation.2.1).resolve_right hpunctuation.2.2
      exact mem_elementTexts elements htext hmem
  | .object members, found, h => by
    by_cases hpunctuation : found = 0x2c ∨ found = 0x7b ∨ found = 0x7d ∨ found = 0x3a
    · omega
    · rw [not_or, not_or, not_or] at hpunctuation
      obtain ⟨member, hmember, hmem⟩ := (mem_dumps_object_iff hpunctuation).mp h
      exact mem_memberTexts members hmember hmem

theorem mem_elementTexts : ∀ (elements : List JsonRecord) {text : CodePoints} {found : ℕ},
    text ∈ elementTexts elements → found ∈ text →
      0x20 ≤ found ∧ (found < 0x7f ∨ ∃ text ∈ elementStrings elements, found ∈ text)
  | [], _, _, h, _ => nomatch h
  | element :: elements, text, found, htext, h => by
    rw [elementTexts, List.mem_cons] at htext
    rw [elementStrings]
    rcases htext with rfl | htext
    · obtain ⟨hle, hor⟩ := mem_dumps element h
      exact ⟨hle, hor.imp_right fun ⟨text, hmem, hfound⟩ =>
        ⟨text, List.mem_append_left _ hmem, hfound⟩⟩
    · obtain ⟨hle, hor⟩ := mem_elementTexts elements htext h
      exact ⟨hle, hor.imp_right fun ⟨text, hmem, hfound⟩ =>
        ⟨text, List.mem_append_right _ hmem, hfound⟩⟩

theorem mem_memberTexts : ∀ (members : List (CodePoints × JsonRecord))
    {member : CodePoints × CodePoints} {found : ℕ}, member ∈ memberTexts members →
    found ∈ quotePoints member.1 ∨ found ∈ member.2 →
      0x20 ≤ found ∧ (found < 0x7f ∨ ∃ text ∈ memberStrings members, found ∈ text)
  | [], _, _, h, _ => nomatch h
  | (key, value) :: members, member, found, hmember, h => by
    rw [memberTexts, List.mem_cons] at hmember
    rw [memberStrings]
    rcases hmember with rfl | hmember
    · rcases h with h | h
      · obtain ⟨hle, hor⟩ := mem_quotePoints h
        exact ⟨hle, hor.imp_right fun hkey => ⟨key, List.mem_cons_self, hkey⟩⟩
      · obtain ⟨hle, hor⟩ := mem_dumps value h
        exact ⟨hle, hor.imp_right fun ⟨text, hmem, hfound⟩ =>
          ⟨text, List.mem_cons_of_mem _ (List.mem_append_left _ hmem), hfound⟩⟩
    · obtain ⟨hle, hor⟩ := mem_memberTexts members hmember h
      exact ⟨hle, hor.imp_right fun ⟨text, hmem, hfound⟩ =>
        ⟨text, List.mem_cons_of_mem _ (List.mem_append_right _ hmem), hfound⟩⟩

end

mutual

/-- A point of a string that is not ASCII stands in the text. -/
theorem mem_dumps_of_mem : ∀ (value : JsonRecord) {text : CodePoints} {found : ℕ},
    text ∈ value.strings → found ∈ text → 0x7f ≤ found → found ∈ value.dumps
  | .integer _, _, _, h, _, _ => nomatch h
  | .string text, _, found, h, hmem, hfound => by
    rw [strings, List.mem_singleton] at h
    exact mem_quotePoints_of_mem (h ▸ hmem) hfound
  | .array elements, text, found, h, hmem, hfound => by
    obtain ⟨whole, hwhole, hin⟩ := mem_elementTexts_of_mem elements h hmem hfound
    rw [dumps, List.mem_cons, List.mem_append]
    exact .inr (.inl ((mem_joinCommas_iff (by omega)).mpr ⟨whole, hwhole, hin⟩))
  | .object members, text, found, h, hmem, hfound => by
    obtain ⟨member, hmember, hin⟩ := mem_memberTexts_of_mem members h hmem hfound
    exact (mem_dumps_object_iff (by omega)).mpr ⟨member, hmember, hin⟩

theorem mem_elementTexts_of_mem : ∀ (elements : List JsonRecord) {text : CodePoints}
    {found : ℕ}, text ∈ elementStrings elements → found ∈ text → 0x7f ≤ found →
      ∃ whole ∈ elementTexts elements, found ∈ whole
  | [], _, _, h, _, _ => nomatch h
  | element :: elements, text, found, h, hmem, hfound => by
    rw [elementStrings, List.mem_append] at h
    rw [elementTexts]
    rcases h with h | h
    · exact ⟨_, List.mem_cons_self, mem_dumps_of_mem element h hmem hfound⟩
    · obtain ⟨whole, hwhole, hin⟩ := mem_elementTexts_of_mem elements h hmem hfound
      exact ⟨whole, List.mem_cons_of_mem _ hwhole, hin⟩

theorem mem_memberTexts_of_mem : ∀ (members : List (CodePoints × JsonRecord))
    {text : CodePoints} {found : ℕ}, text ∈ memberStrings members → found ∈ text → 0x7f ≤ found →
      ∃ member ∈ memberTexts members, found ∈ quotePoints member.1 ∨ found ∈ member.2
  | [], _, _, h, _, _ => nomatch h
  | (key, value) :: members, text, found, h, hmem, hfound => by
    rw [memberStrings, List.mem_cons, List.mem_append] at h
    rw [memberTexts]
    rcases h with rfl | h | h
    · exact ⟨_, List.mem_cons_self, .inl (mem_quotePoints_of_mem hmem hfound)⟩
    · exact ⟨_, List.mem_cons_self, .inr (mem_dumps_of_mem value h hmem hfound)⟩
    · obtain ⟨member, hmember, hin⟩ := mem_memberTexts_of_mem members h hmem hfound
      exact ⟨member, List.mem_cons_of_mem _ hmember, hin⟩

end

/-- A record is one line. -/
theorem dumps_ne_feed (value : JsonRecord) : 0x0a ∉ value.dumps := fun h => by
  have hle := (mem_dumps value h).1
  omega

/-- A record has an encoding when its strings do. -/
theorem encodable_dumps_iff (value : JsonRecord) :
    Encodable value.dumps ↔ AllEncodable value.strings := by
  constructor
  · intro h text htext point hpoint
    by_cases hascii : point < 0x7f
    · exact .inl (by omega)
    · exact h point (mem_dumps_of_mem value htext hpoint (by omega))
  · intro h point hpoint
    obtain ⟨-, hascii | ⟨text, htext, hmem⟩⟩ := mem_dumps value hpoint
    · exact .inl (by omega)
    · exact h text htext point hmem

end JsonRecord

/-! ### The lines that are written -/

theorem encodable_codePoints (text : String) : Encodable (codePoints text) := fun point hpoint => by
  obtain ⟨character, -, rfl⟩ := List.mem_map.mp hpoint
  exact character.valid

theorem encodable_append_iff {first second : CodePoints} :
    Encodable (first ++ second) ↔ Encodable first ∧ Encodable second :=
  List.forall_mem_append

/-- One line: a line feed at the end and nowhere else. -/
def IsLine (line : Bytes) : Prop := ∃ body, line = body ++ [0x0a] ∧ 0x0a ∉ body

/-- The record can be written. -/
@[mk_iff]
structure JsonRecord.Writable (limits : JsonLimits) (value : JsonRecord) : Prop where
  integers : ∀ integer ∈ value.integers, IntegerFits limits integer
  strings : AllEncodable value.strings

/-- The line of a record. -/
def recordLine (value : JsonRecord) : Bytes :=
  encodeUtf8 (value.dumps.map Char.ofNat) ++ [0x0a]

theorem toNat_ofNat_eq {point found : ℕ} (h : (Char.ofNat point).toNat = found)
    (hfound : found ≠ 0) : point = found := by
  by_cases hvalid : point.isValidChar
  · rw [Char.ofNat, dif_pos hvalid] at h
    exact h
  · rw [Char.ofNat, dif_neg hvalid] at h
    exact absurd h.symm hfound

theorem isLine_recordLine (value : JsonRecord) : IsLine (recordLine value) := by
  refine ⟨_, rfl, fun hmem => ?_⟩
  obtain ⟨character, hcharacter, hbyte⟩ := List.mem_flatMap.mp hmem
  obtain ⟨point, hpoint, rfl⟩ := List.mem_map.mp hcharacter
  have hfeed : (Char.ofNat point).toNat = 0x0a :=
    congrArg Char.toNat (utf8EncodeChar_of_ascii hbyte (by decide)).2
  rw [toNat_ofNat_eq hfeed (by decide)] at hpoint
  exact value.dumps_ne_feed hpoint

/-! ### What a record reads -/

theorem JsonRecord.mem_elementIntegers_iff {elements : List JsonRecord} {integer : ℤ} :
    integer ∈ elementIntegers elements ↔ ∃ element ∈ elements, integer ∈ element.integers := by
  induction elements with
  | nil => exact ⟨nofun, fun ⟨_, hmem, _⟩ => nomatch hmem⟩
  | cons element elements ih =>
    rw [elementIntegers, List.mem_append, ih]
    simp only [List.mem_cons, exists_eq_or_imp]

theorem JsonRecord.mem_elementStrings_iff {elements : List JsonRecord} {text : CodePoints} :
    text ∈ elementStrings elements ↔ ∃ element ∈ elements, text ∈ element.strings := by
  induction elements with
  | nil => exact ⟨nofun, fun ⟨_, hmem, _⟩ => nomatch hmem⟩
  | cons element elements ih =>
    rw [elementStrings, List.mem_append, ih]
    simp only [List.mem_cons, exists_eq_or_imp]

/-- The strings of an object have encodings when its keys and the strings of its values do. -/
@[simp]
theorem allEncodable_memberStrings_cons {key : CodePoints} {value : JsonRecord}
    {members : List (CodePoints × JsonRecord)} :
    AllEncodable (JsonRecord.memberStrings ((key, value) :: members)) ↔
      Encodable key ∧ AllEncodable value.strings ∧
        AllEncodable (JsonRecord.memberStrings members) := by
  rw [JsonRecord.memberStrings, AllEncodable, List.forall_mem_cons, List.forall_mem_append]
  rfl

@[simp]
theorem allEncodable_object {members : List (CodePoints × JsonRecord)} :
    AllEncodable (JsonRecord.object members).strings ↔
      AllEncodable (JsonRecord.memberStrings members) := by
  rw [JsonRecord.strings]

@[simp]
theorem allEncodable_nil : AllEncodable [] := fun _ hmem => nomatch hmem

@[simp]
theorem allEncodable_memberStrings_nil : AllEncodable (JsonRecord.memberStrings []) :=
  allEncodable_nil

@[simp]
theorem allEncodable_integer (value : ℤ) : AllEncodable (JsonRecord.integer value).strings :=
  allEncodable_nil

@[simp]
theorem allEncodable_cons {text : CodePoints} {texts : List CodePoints} :
    AllEncodable (text :: texts) ↔ Encodable text ∧ AllEncodable texts :=
  List.forall_mem_cons

@[simp]
theorem allEncodable_string {text : CodePoints} :
    AllEncodable (JsonRecord.string text).strings ↔ Encodable text := by
  rw [JsonRecord.strings, allEncodable_cons]
  exact and_iff_left allEncodable_nil

@[simp]
theorem allEncodable_array {α : Type} {elements : List α} {record : α → JsonRecord} :
    AllEncodable (JsonRecord.array (elements.map record)).strings ↔
      ∀ element ∈ elements, AllEncodable (record element).strings := by
  rw [JsonRecord.strings]
  constructor
  · exact fun h element hmem text htext => h text
      (JsonRecord.mem_elementStrings_iff.mpr ⟨record element, List.mem_map_of_mem hmem, htext⟩)
  · intro h text htext
    obtain ⟨value, hvalue, htext⟩ := JsonRecord.mem_elementStrings_iff.mp htext
    obtain ⟨element, hmem, rfl⟩ := List.mem_map.mp hvalue
    exact h element hmem text htext

end MagpieTts.Library
