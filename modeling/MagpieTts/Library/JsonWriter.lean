import MagpieTts.Library.JsonRecord

/-!
# What the writer of records writes is JSON

The text of a record whose strings have no single surrogates is a text of the grammar, and its value
is the record with the members of every object in the order of their keys.

## Main definitions

* `JsonRecord.toJson`: the value of the text.
* `JsonRecord.WithinDepth`: how deep arrays and objects stand in one another.

## Main results

* `spellsScalar_quotePoints`, `spellsScalar_repr`: strings and integers.
* `isJsonText_dumps`: the text of a record.
-/

namespace MagpieTts.Library

/-! ### Strings -/

/-- The characters of a string without single surrogates. -/
def characters (text : CodePoints) : List Char := text.map Char.ofNat

theorem characters_append (first second : CodePoints) :
    characters (first ++ second) = characters first ++ characters second :=
  List.map_append

theorem characters_cons (point : ℕ) (text : CodePoints) :
    characters (point :: text) = Char.ofNat point :: characters text :=
  rfl

theorem toNat_ofNat_of_valid {point : ℕ} (h : point.isValidChar) :
    (Char.ofNat point).toNat = point := by
  unfold Char.ofNat
  rw [dif_pos h]
  rfl

theorem characters_map_toNat (text : List Char) : characters (text.map Char.toNat) = text := by
  rw [characters, List.map_map]
  exact (List.map_congr_left fun character _ => Char.ofNat_toNat character).trans text.map_id

/-- Without halves there is nothing to join. -/
theorem joinSurrogates_of_encodable {text : CodePoints} (h : Encodable text) :
    joinSurrogates text = text := by
  induction text using joinSurrogates.induct with
  | case1 high low rest hjoin =>
    have hvalid := h high List.mem_cons_self
    simp only [isHighSurrogate, Bool.and_eq_true, decide_eq_true_eq] at hjoin
    rcases hvalid with hlow | hhigh <;> omega
  | case2 high low rest hjoin ih =>
    rw [joinSurrogates, if_neg hjoin, ih fun point hmem => h point (List.mem_cons_of_mem _ hmem)]
  | case3 units hne =>
    cases units with
    | nil => rfl
    | cons unit rest =>
      cases rest with
      | nil => rfl
      | cons second rest => exact absurd rfl (hne unit second rest)

/-- The escape of a control character. -/
theorem hexUnit_hexDigits : ∀ point < 0x20, ∃ high low, characters (hexDigits point) = [high, low] ∧
    hexUnit '0' '0' high low = some point := by
  intro point hpoint
  refine ⟨_, _, rfl, ?_⟩
  revert point
  decide

/-- A code point in front of the code units of a string. -/
theorem spellsUnits_escapePoint {point : ℕ} (hvalid : point.isValidChar) {chars : List Char}
    {units : List ℕ} (h : SpellsUnits chars units) :
    SpellsUnits (characters (escapePoint point) ++ chars) (point :: units) := by
  have hletter : ∀ {escape : Char} {code : ℕ}, escapedCode escape = some code → point = code →
      SpellsUnits ('\\' :: escape :: chars) (point :: units) := by
    rintro escape code hescape rfl
    exact .escaped hescape h
  unfold escapePoint
  split_ifs with hquote hsolidus hfeed hreturn htab hform hback hcontrol
  · exact hletter (show escapedCode '\x22' = some 0x22 from by decide) hquote
  · exact hletter (show escapedCode '\\' = some 0x5c from by decide) hsolidus
  · exact hletter (show escapedCode 'n' = some 0x0a from by decide) hfeed
  · exact hletter (show escapedCode 'r' = some 0x0d from by decide) hreturn
  · exact hletter (show escapedCode 't' = some 0x09 from by decide) htab
  · exact hletter (show escapedCode 'f' = some 0x0c from by decide) hform
  · exact hletter (show escapedCode 'b' = some 0x08 from by decide) hback
  · obtain ⟨high, low, hdigits, hunit⟩ := hexUnit_hexDigits point hcontrol
    rw [characters_append, hdigits]
    exact .unit hunit h
  · have hself := toNat_ofNat_of_valid hvalid
    have hne : ∀ {other : Char} {code : ℕ}, other.toNat = code → point ≠ code →
        Char.ofNat point ≠ other := by
      rintro _ _ rfl hne rfl
      exact hne hself.symm
    have hplain := SpellsUnits.plain (hne rfl hquote) (hne rfl hsolidus)
      (show 0x20 ≤ (Char.ofNat point).toNat by omega) h
    rwa [hself] at hplain

theorem spellsUnits_flatMap {text : CodePoints} (h : Encodable text) :
    SpellsUnits (characters (text.flatMap escapePoint)) text := by
  induction text with
  | nil => exact .nil
  | cons point text ih =>
    rw [List.flatMap_cons, characters_append]
    exact spellsUnits_escapePoint (h point List.mem_cons_self)
      (ih fun other hmem => h other (List.mem_cons_of_mem _ hmem))

theorem characters_quotePoints (text : CodePoints) : characters (quotePoints text) =
    '\x22' :: (characters (text.flatMap escapePoint) ++ ['\x22']) := by
  rw [quotePoints, characters_cons, characters_append]
  rfl

theorem spellsScalar_quotePoints {text : CodePoints} (h : Encodable text) (maxDigits : ℕ) :
    SpellsScalar maxDigits (.string text) (characters (quotePoints text)) := by
  have hspells := @SpellsScalar.string maxDigits _ _ (spellsUnits_flatMap h)
  rwa [joinSurrogates_of_encodable h, ← characters_quotePoints] at hspells

/-! ### Integers -/

theorem digitChar_spec : ∀ digit < 10, (Nat.digitChar digit).isDigit = true ∧
    (Nat.digitChar digit).toNat - 0x30 = digit ∧ (digit ≠ 0 → Nat.digitChar digit ≠ '0') := by
  decide

theorem decimalValue_append_singleton (digits : List Char) (digit : Char) :
    decimalValue (digits ++ [digit]) = decimalValue digits * 10 + (digit.toNat - 0x30) := by
  rw [decimalValue, List.foldl_append]
  rfl

theorem decimalValue_toDigits (value : ℕ) : decimalValue (Nat.toDigits 10 value) = value := by
  induction value using Nat.strongRecOn with
  | ind value ih =>
    by_cases hlt : value < 10
    · rw [Nat.toDigits_of_lt_base hlt, ← List.nil_append [_], decimalValue_append_singleton,
        (digitChar_spec value hlt).2.1]
      exact Nat.zero_add value
    · have hspec := digitChar_spec (value % 10) (Nat.mod_lt _ (by decide))
      rw [Nat.toDigits_of_base_le (by decide) (Nat.le_of_not_lt hlt), decimalValue_append_singleton,
        ih (value / 10) (by omega), hspec.2.1]
      omega

/-- A positive number does not begin with a zero. -/
theorem toDigits_eq_cons {value : ℕ} (hpos : 0 < value) : ∃ first rest,
    Nat.toDigits 10 value = first :: rest ∧ first.isDigit = true ∧ first ≠ '0' ∧
      ∀ digit ∈ rest, digit.isDigit = true := by
  induction value using Nat.strongRecOn with
  | ind value ih =>
    by_cases hlt : value < 10
    · obtain ⟨hdigit, -, hne⟩ := digitChar_spec value hlt
      exact ⟨_, [], Nat.toDigits_of_lt_base hlt, hdigit, hne (by omega), nofun⟩
    · obtain ⟨first, rest, heq, hdigit, hne, hrest⟩ := ih (value / 10) (by omega) (by omega)
      refine ⟨first, rest ++ [Nat.digitChar (value % 10)], ?_, hdigit, hne, ?_⟩
      · rw [Nat.toDigits_of_base_le (by decide) (Nat.le_of_not_lt hlt), heq, List.cons_append]
      · intro digit hmem
        rcases List.mem_append.mp hmem with hmem | hmem
        · exact hrest digit hmem
        · rw [List.mem_singleton.mp hmem]
          exact (digitChar_spec _ (Nat.mod_lt _ (by decide))).1

/-- The parts of the text of an integer. -/
def integerParts (value : ℤ) : NumberParts :=
  ⟨decide (value < 0), Nat.toDigits 10 value.natAbs, none, none⟩

theorem valid_integerParts (value : ℤ) : (integerParts value).Valid where
  whole := by
    rcases Nat.eq_zero_or_pos value.natAbs with hzero | hpos
    · rw [integerParts, hzero]
      exact .inl rfl
    · exact .inr (toDigits_eq_cons hpos)
  fraction := nofun
  exponent := nofun

theorem render_integerParts (value : ℤ) : (integerParts value).render = value.repr.toList := by
  cases value with
  | ofNat value =>
    rw [Int.repr, Nat.toList_repr, NumberParts.render, integerParts,
      if_neg (by rw [decide_eq_true_eq]; exact Int.not_lt.mpr (Int.natCast_nonneg value))]
    simp
  | negSucc value =>
    rw [Int.repr, String.toList_append, Nat.toList_repr, NumberParts.render, integerParts,
      if_pos (decide_eq_true (Int.negSucc_lt_zero value))]
    simp

theorem value_integerParts (value : ℤ) : (integerParts value).value = .integer value := by
  have habs := decimalValue_toDigits value.natAbs
  have hvalue : (integerParts value).value = .integer
      (if decide (value < 0) = true then -(decimalValue (Nat.toDigits 10 value.natAbs) : ℤ)
        else decimalValue (Nat.toDigits 10 value.natAbs)) := rfl
  rw [hvalue, habs]
  congr 1
  split_ifs with hneg
  · rw [decide_eq_true_eq] at hneg
    omega
  · rw [decide_eq_true_eq] at hneg
    omega

theorem spellsScalar_repr {value : ℤ} {maxDigits : ℕ}
    (h : (Nat.toDigits 10 value.natAbs).length ≤ maxDigits) :
    SpellsScalar maxDigits (.integer value) value.repr.toList := by
  have hspells := @SpellsScalar.number maxDigits _ (valid_integerParts value)
    fun htoo => Nat.not_lt.mpr h htoo.2.2
  rwa [value_integerParts, render_integerParts] at hspells

/-! ### Arrays and objects -/

theorem sortMembersByKey_map {α β : Type} (f : α → β) (members : List (CodePoints × α)) :
    sortMembersByKey (members.map (Prod.map id f)) =
      (sortMembersByKey members).map (Prod.map id f) :=
  (List.map_insertionSort _ _ (Prod.map id f) members fun _ _ _ _ => Iff.rfl).symm

namespace JsonRecord

mutual

/-- The value of the text of a record. -/
def toJson : JsonRecord → JsonValue
  | .integer value => .integer value
  | .string text => .string text
  | .array elements => .array (elementValues elements)
  | .object members => .object (sortMembersByKey (memberValues members))

def elementValues : List JsonRecord → List JsonValue
  | [] => []
  | element :: elements => element.toJson :: elementValues elements

def memberValues : List (CodePoints × JsonRecord) → List (CodePoints × JsonValue)
  | [] => []
  | (key, value) :: members => (key, value.toJson) :: memberValues members

end

/-- At most `depth` arrays and objects stand in one another. -/
def WithinDepth : ℕ → JsonRecord → Prop
  | 0 => fun record => match record with
    | .array _ => False
    | .object _ => False
    | _ => True
  | depth + 1 => fun record => match record with
    | .array elements => ∀ element ∈ elements, WithinDepth depth element
    | .object members => ∀ member ∈ members, WithinDepth depth member.2
    | _ => True

theorem elementValues_eq_map (elements : List JsonRecord) :
    elementValues elements = elements.map toJson := by
  induction elements with
  | nil => rfl
  | cons element elements ih => rw [elementValues, ih, List.map_cons]

theorem memberValues_eq_map (members : List (CodePoints × JsonRecord)) :
    memberValues members = members.map (Prod.map id toJson) := by
  induction members with
  | nil => rfl
  | cons member members ih => rw [memberValues, ih, List.map_cons]; rfl

theorem elementTexts_eq_map (elements : List JsonRecord) :
    elementTexts elements = elements.map dumps := by
  induction elements with
  | nil => rfl
  | cons element elements ih => rw [elementTexts, ih, List.map_cons]

theorem memberTexts_eq_map (members : List (CodePoints × JsonRecord)) :
    memberTexts members = members.map (Prod.map id dumps) := by
  induction members with
  | nil => rfl
  | cons member members ih => rw [memberTexts, ih, List.map_cons]; rfl

theorem mem_memberIntegers_iff {members : List (CodePoints × JsonRecord)} {integer : ℤ} :
    integer ∈ memberIntegers members ↔ ∃ member ∈ members, integer ∈ member.2.integers := by
  induction members with
  | nil => exact ⟨nofun, fun ⟨_, hmem, _⟩ => nomatch hmem⟩
  | cons member members ih =>
    rw [memberIntegers, List.mem_append, ih]
    simp only [List.mem_cons, exists_eq_or_imp]

theorem allEncodable_memberStrings_iff {members : List (CodePoints × JsonRecord)} :
    AllEncodable (memberStrings members) ↔
      ∀ member ∈ members, Encodable member.1 ∧ AllEncodable member.2.strings := by
  induction members with
  | nil => exact iff_of_true allEncodable_nil fun _ hmem => nomatch hmem
  | cons member members ih =>
    rw [allEncodable_memberStrings_cons, ih, List.forall_mem_cons, and_assoc]

theorem allEncodable_elementStrings_iff {elements : List JsonRecord} :
    AllEncodable (elementStrings elements) ↔
      ∀ element ∈ elements, AllEncodable element.strings := by
  constructor
  · exact fun h element hmem text htext =>
      h text (mem_elementStrings_iff.mpr ⟨element, hmem, htext⟩)
  · intro h text htext
    obtain ⟨element, hmem, htext⟩ := mem_elementStrings_iff.mp htext
    exact h element hmem text htext

end JsonRecord

section Joined

variable {spells : JsonValue → List Char → Prop} {α : Type} {value : α → JsonValue}
  {text : α → CodePoints}

theorem characters_joinCommas_cons_cons (first second : CodePoints) (rest : List CodePoints) :
    characters (joinCommas (first :: second :: rest)) =
      characters first ++ ',' :: characters (joinCommas (second :: rest)) := by
  have hjoin : joinCommas (first :: second :: rest) =
      first ++ 0x2c :: joinCommas (second :: rest) := rfl
  rw [hjoin, characters_append]
  rfl

theorem spellsElements_joinCommas {first : α} {rest : List α}
    (h : ∀ element ∈ first :: rest, spells (value element) (characters (text element))) :
    SpellsElements spells ((first :: rest).map value)
      (characters (joinCommas ((first :: rest).map text)) ++ [']']) := by
  induction rest generalizing first with
  | nil => exact @SpellsElements.last _ _ _ [] (h first List.mem_cons_self) nofun
  | cons second rest ih =>
    rw [List.map_cons, List.map_cons, List.map_cons, List.map_cons,
      characters_joinCommas_cons_cons, List.append_assoc, List.cons_append]
    exact @SpellsElements.cons _ _ _ _ [] [] _ (h first List.mem_cons_self) nofun nofun
      (ih fun element hmem => h element (List.mem_cons_of_mem _ hmem))

/-- The text of a member. -/
def memberText (text : α → CodePoints) (member : CodePoints × α) : CodePoints :=
  quotePoints member.1 ++ 0x3a :: text member.2

theorem spellsMember_memberText {member : CodePoints × α} (hkey : Encodable member.1)
    (h : spells (value member.2) (characters (text member.2))) :
    SpellsMember spells (Prod.map id value member) (characters (memberText text member)) := by
  have hspells := @SpellsMember.mk spells _ _ _ [] [] _ (spellsUnits_flatMap hkey) nofun nofun h
  have hcolon : Char.ofNat 0x3a = ':' := rfl
  rw [joinSurrogates_of_encodable hkey, List.nil_append, List.nil_append] at hspells
  rwa [memberText, characters_append, characters_quotePoints, characters_cons, hcolon,
    List.cons_append, List.append_assoc, List.singleton_append]

theorem spellsMembers_joinCommas {first : CodePoints × α} {rest : List (CodePoints × α)}
    (h : ∀ member ∈ first :: rest, Encodable member.1 ∧
      spells (value member.2) (characters (text member.2))) :
    SpellsMembers spells ((first :: rest).map (Prod.map id value))
      (characters (joinCommas ((first :: rest).map (memberText text))) ++ ['\x7d']) := by
  have hmember := fun member hmem => spellsMember_memberText (h member hmem).1 (h member hmem).2
  induction rest generalizing first with
  | nil => exact @SpellsMembers.last _ _ _ [] (hmember first List.mem_cons_self) nofun
  | cons second rest ih =>
    rw [List.map_cons, List.map_cons, List.map_cons, List.map_cons,
      characters_joinCommas_cons_cons, List.append_assoc, List.cons_append]
    exact @SpellsMembers.cons _ _ _ _ [] [] _ (hmember first List.mem_cons_self) nofun nofun
      (ih (fun member hmem => h member (List.mem_cons_of_mem _ hmem))
        fun member hmem => hmember member (List.mem_cons_of_mem _ hmem))

end Joined

namespace JsonRecord

theorem dumps_array (elements : List JsonRecord) : characters (dumps (.array elements)) =
    '[' :: (characters (joinCommas (elements.map dumps)) ++ [']']) := by
  rw [dumps, elementTexts_eq_map, characters_cons, characters_append]
  rfl

theorem dumps_object (members : List (CodePoints × JsonRecord)) :
    characters (dumps (.object members)) = '\x7b' ::
      (characters (joinCommas ((sortMembersByKey members).map (memberText dumps))) ++
        ['\x7d']) := by
  have hsort : sortTexts (memberTexts members) =
      (sortMembersByKey members).map (Prod.map id dumps) := by
    rw [memberTexts_eq_map, ← sortMembersByKey_map]
    rfl
  rw [dumps, hsort, List.map_map, characters_cons, characters_append]
  rfl

/-- The text of a record is spelled as the grammar says. -/
theorem spells_dumps {limits : JsonLimits} {depth : ℕ} {record : JsonRecord}
    (hdepth : record.WithinDepth depth)
    (hintegers : ∀ integer ∈ record.integers, IntegerFits limits integer)
    (hstrings : AllEncodable record.strings) :
    Spells limits.maxDigits depth record.toJson (characters record.dumps) := by
  have hscalar : ∀ {record : JsonRecord},
      (∀ integer ∈ record.integers, IntegerFits limits integer) → AllEncodable record.strings →
        (∀ elements, record ≠ .array elements) → (∀ members, record ≠ .object members) →
          SpellsScalar limits.maxDigits record.toJson (characters record.dumps) := by
    intro record hintegers hstrings harray hobject
    cases record with
    | integer value =>
      rw [dumps, characters_map_toNat, toJson]
      exact spellsScalar_repr (hintegers value List.mem_cons_self)
    | string text =>
      rw [dumps, toJson]
      exact spellsScalar_quotePoints (allEncodable_string.mp hstrings) _
    | array elements => exact absurd rfl (harray elements)
    | object members => exact absurd rfl (hobject members)
  induction depth generalizing record with
  | zero =>
    cases record with
    | integer value => exact hscalar hintegers hstrings nofun nofun
    | string text => exact hscalar hintegers hstrings nofun nofun
    | array elements => exact hdepth.elim
    | object members => exact hdepth.elim
  | succ depth ih =>
    cases record with
    | integer value => exact .inl (hscalar hintegers hstrings nofun nofun)
    | string text => exact .inl (hscalar hintegers hstrings nofun nofun)
    | array elements =>
      rw [integers] at hintegers
      rw [strings, allEncodable_elementStrings_iff] at hstrings
      rw [toJson, elementValues_eq_map, dumps_array]
      cases elements with
      | nil => exact .inr (@SpellsNested.emptyArray _ [] nofun)
      | cons first rest =>
        refine .inr (@SpellsNested.array _ _ [] _ nofun (spellsElements_joinCommas ?_))
        exact fun element hmem => ih (hdepth element hmem)
          (fun integer hinteger => hintegers integer
            (mem_elementIntegers_iff.mpr ⟨element, hmem, hinteger⟩)) (hstrings element hmem)
    | object members =>
      rw [integers] at hintegers
      rw [strings, allEncodable_memberStrings_iff] at hstrings
      rw [toJson, memberValues_eq_map, sortMembersByKey_map, dumps_object]
      have hmembers : ∀ member ∈ sortMembersByKey members, Encodable member.1 ∧
          Spells limits.maxDigits depth member.2.toJson (characters member.2.dumps) := by
        intro member hsorted
        have hmem := (perm_sortMembersByKey members).subset hsorted
        exact ⟨(hstrings member hmem).1, ih (hdepth member hmem)
          (fun integer hinteger => hintegers integer
            (mem_memberIntegers_iff.mpr ⟨member, hmem, hinteger⟩)) (hstrings member hmem).2⟩
      cases hsorted : sortMembersByKey members with
      | nil => exact .inr (@SpellsNested.emptyObject _ [] nofun)
      | cons first rest =>
        rw [hsorted] at hmembers
        exact .inr (@SpellsNested.object _ _ [] _ nofun (spellsMembers_joinCommas hmembers))

end JsonRecord

/-- **The text of a record is JSON.** -/
theorem isJsonText_dumps {limits : JsonLimits} {record : JsonRecord}
    (hdepth : record.WithinDepth limits.depth)
    (hintegers : ∀ integer ∈ record.integers, IntegerFits limits integer)
    (hstrings : AllEncodable record.strings) :
    IsJsonText limits record.toJson (characters record.dumps) := by
  refine ⟨[], characters record.dumps, [], ?_, nofun, nofun,
    JsonRecord.spells_dumps hdepth hintegers hstrings⟩
  rw [List.nil_append, List.append_nil]

end MagpieTts.Library
