import Mathlib.Data.Int.Notation
import Mathlib.Data.List.Basic
import Mathlib.Data.List.GetD
import MagpieTts.Frontend.OpenJTalk
import Mathlib.Algebra.GroupWithZero.Nat

/-!
# Source projection and core tokens

What the front end keeps of the source text before it asks for phonemes, the characters that are
not whitespace with the positions after them, and what it keeps of the phoneme tokens.

## Main definitions

* `projectSource`: the text without whitespace in lower case, and its positions in the source.
* `tokenizeCore`: the phoneme tokens that have an identifier, without spaces at the ends.
* `unitEndPositions`: the positions at which a unit of the core tokens ends.

## Main results

* `Projects`: what a projection that returns says about its source.
* `Projects.take_normalizedText`: a prefix of the projected text is the projection of a prefix of
  the source.
-/

namespace MagpieTts.Frontend

open MagpieTts.Library

/-! ### The projection -/

/-- The characters that are not whitespace, with their positions counted from `start`. -/
def compactFrom (start : Nat) (sourceText : Text) : List (Char × Nat) :=
  (sourceText.zipIdx start).filter fun character => !isspace character.1

/-- The number of bytes of a text in UTF-8. -/
def utf8Length (text : Text) : Nat := (text.map Char.utf8Size).sum

/-- The byte positions of the characters of a text that begins at `boundary`, and of its end. -/
def utf8BoundariesFrom (boundary : Nat) : Text → List Nat
  | [] => [boundary]
  | character :: rest => boundary :: utf8BoundariesFrom (boundary + character.utf8Size) rest

/-- `_SourceProjection`. -/
structure SourceProjection where
  normalizedText : Text
  preparedSourceCharEnds : List Nat
  utf8Boundaries : List Nat
  lastNonWhitespaceSourceEnd : Nat
  deriving Repr, DecidableEq

/-- `_project_source`. -/
def projectSource (unicode : UnicodeData) (sourceText : Text) :
    Except FrontendException SourceProjection :=
  let compact := compactFrom 0 sourceText
  let sourceCharEnds := compact.map fun character => character.2 + 1
  let normalized := unicode.lower (compact.map Prod.fst)
  let independentlyLowered := compact.map fun character => unicode.lower [character.1]
  if independentlyLowered.any fun value => value.length != 1 then
    .error (.sourceNormalizationError "lowercase preprocessing expands a source Unicode scalar")
  else if normalized ≠ independentlyLowered.flatten then
    .error (.sourceNormalizationError
      "context-sensitive lowercase preprocessing has no one-scalar lineage")
  else if normalized.isEmpty then
    .error (.sourceNormalizationError "source text contains no non-whitespace Unicode scalar")
  else
    .ok {
      normalizedText := normalized
      preparedSourceCharEnds := sourceCharEnds
      utf8Boundaries := utf8BoundariesFrom 0 sourceText
      lastNonWhitespaceSourceEnd := sourceCharEnds.getLastD 0 }

/-! ### Core tokens -/

/-- A row of the token table: a symbol and the identifier that the model uses for it. -/
structure TokenTableRow where
  token : Text
  effectiveLocalId : ℤ
  deriving Repr, DecidableEq

/-- The part of the locked front-end contract that `prepare` reads. -/
structure FrontendSpec where
  tokenTable : List TokenTableRow
  globalOffset : ℤ
  eosTokenId : ℤ
  deriving Repr, DecidableEq

/-- `effective_local_ids`: of two rows with one symbol the last counts. -/
def FrontendSpec.effectiveLocalIds (spec : FrontendSpec) (symbol : Text) : Option ℤ :=
  (spec.tokenTable.reverse.find? fun row => row.token == symbol).map TokenTableRow.effectiveLocalId

/-- `EncodedCoreToken`. -/
structure EncodedCoreToken where
  symbol : Text
  kind : TokenKind
  unitIndex : Nat
  localTokenId : ℤ
  globalTokenId : ℤ
  deriving Repr, DecidableEq

/-- The loop of `_tokenize_core`: a space is kept after a token that is no space, every other
symbol when it has an identifier. -/
def retainTokens (spec : FrontendSpec) (retained : List G2PToken) (token : G2PToken) :
    List G2PToken :=
  if token.symbol == [' '] then
    if retained.getLast?.any fun last => last.symbol != [' '] then retained ++ [token]
    else retained
  else if (spec.effectiveLocalIds token.symbol).isSome then retained ++ [token]
  else retained

/-- `effective_local_ids[symbol]`. -/
def FrontendSpec.localTokenId (spec : FrontendSpec) (symbol : Text) : Except FrontendException ℤ :=
  match spec.effectiveLocalIds symbol with
  | none => .error (.keyError symbol)
  | some localTokenId => .ok localTokenId

def encodeCoreToken (spec : FrontendSpec) (token : G2PToken) :
    Except FrontendException EncodedCoreToken := do
  let localTokenId ← spec.localTokenId token.symbol
  return {
    symbol := token.symbol
    kind := token.kind
    unitIndex := token.unitIndex
    localTokenId
    globalTokenId := spec.globalOffset + localTokenId }

/-- `_tokenize_core`. -/
def tokenizeCore (spec : FrontendSpec) (tokens : List G2PToken) :
    Except FrontendException (List EncodedCoreToken) :=
  let retained := tokens.foldl (retainTokens spec) []
  (retained.reverse.dropWhile fun token => token.symbol == [' ']).reverse.mapM
    (encodeCoreToken spec)

/-- The loop of `_unit_end_positions`, from the token at position `index`. -/
def unitEndsFrom (index : Nat) : List EncodedCoreToken → List Nat
  | [] => []
  | [_] => [index + 1]
  | token :: next :: rest =>
    if next.unitIndex ≠ token.unitIndex then (index + 1) :: unitEndsFrom (index + 1) (next :: rest)
    else unitEndsFrom (index + 1) (next :: rest)

/-- `_unit_end_positions`. -/
def unitEndPositions (tokens : List EncodedCoreToken) : List Nat := 0 :: unitEndsFrom 0 tokens

/-- `_core`: the phoneme tokens of a text, and its core tokens. -/
def core (unicode : UnicodeData) (spec : FrontendSpec) (runner : FrontendRunner)
    (normalizedText : Text) :
    Except FrontendException (List G2PToken × List EncodedCoreToken) := do
  let rows ← runner normalizedText
  let g2p ← g2pTokens unicode rows
  return (g2p, ← tokenizeCore spec g2p)

/-- `_njd_word_count`. -/
def njdWordCount (unicode : UnicodeData) (runner : FrontendRunner) (sourceText : Text) :
    Except FrontendException Nat := do
  let projection ← projectSource unicode sourceText
  let words ← njdWords (← runner projection.normalizedText)
  return words.length

/-! ### Byte positions -/

theorem getD_utf8BoundariesFrom (boundary : Nat) (sourceText : Text) {position : Nat}
    (hposition : position ≤ sourceText.length) :
    (utf8BoundariesFrom boundary sourceText).getD position 0 =
      boundary + utf8Length (sourceText.take position) := by
  induction sourceText generalizing boundary position with
  | nil =>
    obtain rfl : position = 0 := Nat.le_zero.mp hposition
    rfl
  | cons character rest ih =>
    cases position with
    | zero => rfl
    | succ position =>
      rw [utf8BoundariesFrom, List.getD_cons_succ, ih _ (Nat.le_of_succ_le_succ hposition),
        List.take_succ_cons]
      simp only [utf8Length, List.map_cons, List.sum_cons]
      omega

theorem length_utf8BoundariesFrom (boundary : Nat) (sourceText : Text) :
    (utf8BoundariesFrom boundary sourceText).length = sourceText.length + 1 := by
  induction sourceText generalizing boundary with
  | nil => rfl
  | cons character rest ih => rw [utf8BoundariesFrom, List.length_cons, ih, List.length_cons]

/-! ### Characters that are not whitespace -/

theorem compactFrom_cons (start : Nat) (character : Char) (rest : Text) :
    compactFrom start (character :: rest) =
      if isspace character then compactFrom (start + 1) rest
      else (character, start) :: compactFrom (start + 1) rest := by
  rw [compactFrom, List.zipIdx_cons, List.filter_cons]
  cases isspace character <;> rfl

theorem compactFrom_map_fst (start : Nat) (sourceText : Text) :
    (compactFrom start sourceText).map Prod.fst =
      sourceText.filter fun character => !isspace character := by
  induction sourceText generalizing start with
  | nil => rfl
  | cons character rest ih =>
    rw [compactFrom_cons, List.filter_cons]
    cases isspace character <;> simp [ih]

/-- Every kept character stands where it is recorded. -/
theorem mem_compactFrom {start : Nat} {sourceText : Text} {character : Char} {position : Nat}
    (h : (character, position) ∈ compactFrom start sourceText) :
    start ≤ position ∧ position < start + sourceText.length ∧
      sourceText[position - start]? = some character ∧ isspace character = false := by
  rw [compactFrom, List.mem_filter, List.mem_zipIdx_iff_le_and_getElem?_sub] at h
  obtain ⟨⟨hstart, hget⟩, hspace⟩ := h
  have hlength := (List.getElem?_eq_some_iff.mp hget).choose
  exact ⟨hstart, by omega, hget, by simpa using hspace⟩

theorem pairwise_compactFrom (start : Nat) (sourceText : Text) :
    (compactFrom start sourceText).Pairwise fun first second => first.2 < second.2 := by
  induction sourceText generalizing start with
  | nil => exact .nil
  | cons character rest ih =>
    rw [compactFrom_cons]
    split
    · exact ih _
    · exact .cons (fun kept hkept => (mem_compactFrom hkept).1) (ih _)

/-- The kept characters before the end of the kept character number `index` are the first
`index + 1`. -/
theorem compactFrom_take (start : Nat) (sourceText : Text) {index : Nat}
    {kept : Char × Nat} (h : (compactFrom start sourceText)[index]? = some kept) :
    compactFrom start (sourceText.take (kept.2 + 1 - start)) =
      (compactFrom start sourceText).take (index + 1) := by
  induction sourceText generalizing start index with
  | nil => cases h
  | cons character rest ih =>
    rw [compactFrom_cons] at h ⊢
    split at h
    next hspace =>
      have hstart := (mem_compactFrom (List.mem_of_getElem? h)).1
      rw [if_pos hspace, show kept.2 + 1 - start = kept.2 + 1 - (start + 1) + 1 by omega,
        List.take_succ_cons, compactFrom_cons, if_pos hspace]
      exact ih _ h
    next hspace =>
      rw [if_neg hspace]
      cases index with
      | zero =>
        cases h
        rw [show start + 1 - start = 0 + 1 by omega, List.take_succ_cons, compactFrom_cons,
          if_neg hspace, List.take_succ_cons]
        rfl
      | succ index =>
        rw [List.getElem?_cons_succ] at h
        have hstart := (mem_compactFrom (List.mem_of_getElem? h)).1
        rw [show kept.2 + 1 - start = kept.2 + 1 - (start + 1) + 1 by omega,
          List.take_succ_cons, compactFrom_cons, if_neg hspace, ih _ h, List.take_succ_cons]

/-- A prefix of a concatenation of one-element pieces. -/
theorem take_flatMap_of_length_one {α β : Type} {f : α → List β} {list : List α}
    (h : ∀ item ∈ list, (f item).length = 1) (count : Nat) :
    (list.flatMap f).take count = (list.take count).flatMap f := by
  induction list generalizing count with
  | nil => simp
  | cons item list ih =>
    obtain ⟨value, hvalue⟩ := List.length_eq_one_iff.mp (h item List.mem_cons_self)
    cases count with
    | zero => rfl
    | succ count =>
      rw [List.flatMap_cons, hvalue, List.singleton_append, List.take_succ_cons,
        ih (fun other hother => h other (List.mem_cons_of_mem _ hother)), List.take_succ_cons,
        List.flatMap_cons, hvalue, List.singleton_append]

/-! ### What a projection says -/

/-- The projection of a source prefix, character by character. -/
def projectedPrefix (unicode : UnicodeData) (sourceText : Text) (sourceEnd : Nat) : Text :=
  ((sourceText.take sourceEnd).filter fun character => !isspace character).flatMap
    fun character => unicode.lower [character]

/-- What a projection that is returned says about its source. -/
structure Projects (unicode : UnicodeData) (sourceText : Text) (projection : SourceProjection) :
    Prop where
  normalizedText_eq :
    projection.normalizedText = (sourceText.filter fun character => !isspace character).flatMap
      fun character => unicode.lower [character]
  length_lower : ∀ kept ∈ compactFrom 0 sourceText, (unicode.lower [kept.1]).length = 1
  preparedSourceCharEnds_eq :
    projection.preparedSourceCharEnds = (compactFrom 0 sourceText).map fun kept => kept.2 + 1
  utf8Boundaries_eq : projection.utf8Boundaries = utf8BoundariesFrom 0 sourceText
  lastNonWhitespaceSourceEnd_eq :
    projection.lastNonWhitespaceSourceEnd = projection.preparedSourceCharEnds.getLastD 0
  normalizedText_ne_nil : projection.normalizedText ≠ []

theorem projects_of_projectSource {unicode : UnicodeData} {sourceText : Text}
    {projection : SourceProjection} (h : projectSource unicode sourceText = .ok projection) :
    Projects unicode sourceText projection := by
  simp only [projectSource] at h
  split at h
  · cases h
  next hlength =>
  split at h
  · cases h
  next hflatten =>
  split at h
  · cases h
  next hempty =>
  cases h
  refine ⟨?_, ?_, rfl, rfl, rfl, ?_⟩
  · rw [← compactFrom_map_fst 0, List.flatMap_map, List.flatMap_def]
    exact not_not.mp hflatten
  · intro kept hkept
    by_contra hne
    refine hlength (List.any_eq_true.mpr ⟨_, List.mem_map_of_mem hkept, ?_⟩)
    simpa using hne
  · intro hnil
    exact hempty (List.isEmpty_iff.mpr hnil)

namespace Projects

variable {unicode : UnicodeData} {sourceText : Text} {projection : SourceProjection}
  (h : Projects unicode sourceText projection)
include h

theorem length_normalizedText :
    projection.normalizedText.length = (compactFrom 0 sourceText).length := by
  rw [h.normalizedText_eq, ← compactFrom_map_fst 0, List.flatMap_map, List.length_flatMap,
    List.map_congr_left h.length_lower, List.map_const', List.sum_replicate_nat, Nat.mul_one]

/-- The kept character behind the projected text of a length that is not zero. -/
theorem exists_kept {preparedEnd : Nat} (hpositive : 0 < preparedEnd)
    (hle : preparedEnd ≤ projection.normalizedText.length) :
    ∃ kept, (compactFrom 0 sourceText)[preparedEnd - 1]? = some kept ∧
      projection.preparedSourceCharEnds.getD (preparedEnd - 1) 0 = kept.2 + 1 := by
  rw [h.length_normalizedText] at hle
  have hlt : preparedEnd - 1 < (compactFrom 0 sourceText).length := by omega
  refine ⟨(compactFrom 0 sourceText)[preparedEnd - 1], List.getElem?_eq_getElem hlt, ?_⟩
  rw [h.preparedSourceCharEnds_eq, List.getD_eq_getElem?_getD, List.getElem?_map,
    List.getElem?_eq_getElem hlt]
  rfl

/-- A prefix of the projected text is the projection of the source up to the character that ends
it. -/
theorem take_normalizedText {preparedEnd : Nat} (hpositive : 0 < preparedEnd)
    (hle : preparedEnd ≤ projection.normalizedText.length) :
    projection.normalizedText.take preparedEnd = projectedPrefix unicode sourceText
      (projection.preparedSourceCharEnds.getD (preparedEnd - 1) 0) := by
  obtain ⟨kept, hkept, hend⟩ := h.exists_kept hpositive hle
  have htake := compactFrom_take 0 sourceText hkept
  rw [Nat.sub_zero, Nat.sub_add_cancel hpositive] at htake
  rw [hend, projectedPrefix, ← compactFrom_map_fst 0, htake, h.normalizedText_eq,
    ← compactFrom_map_fst 0, List.flatMap_map, List.flatMap_map]
  exact take_flatMap_of_length_one h.length_lower preparedEnd

/-- The position after a kept character is in the source, after a character that is not
whitespace. -/
theorem sourceCharEnd_spec {preparedEnd : Nat} (hpositive : 0 < preparedEnd)
    (hle : preparedEnd ≤ projection.normalizedText.length) :
    ∃ character, sourceText[projection.preparedSourceCharEnds.getD (preparedEnd - 1) 0 - 1]? =
        some character ∧ isspace character = false ∧
      0 < projection.preparedSourceCharEnds.getD (preparedEnd - 1) 0 ∧
      projection.preparedSourceCharEnds.getD (preparedEnd - 1) 0 ≤ sourceText.length := by
  obtain ⟨kept, hkept, hend⟩ := h.exists_kept hpositive hle
  obtain ⟨-, hlength, hget, hspace⟩ := mem_compactFrom (List.mem_of_getElem? hkept)
  rw [hend]
  exact ⟨kept.1, by simpa using hget, hspace, by omega, by omega⟩

/-- Later kept characters end later. -/
theorem sourceCharEnd_lt {first second : Nat} (hpositive : 0 < first) (hlt : first < second)
    (hle : second ≤ projection.normalizedText.length) :
    projection.preparedSourceCharEnds.getD (first - 1) 0 <
      projection.preparedSourceCharEnds.getD (second - 1) 0 := by
  obtain ⟨kept, hkept, hend⟩ := h.exists_kept hpositive (by omega)
  obtain ⟨later, hlater, hlaterEnd⟩ := h.exists_kept (Nat.lt_trans hpositive hlt) hle
  obtain ⟨hfirst, hget⟩ := List.getElem?_eq_some_iff.mp hkept
  obtain ⟨hsecond, hget'⟩ := List.getElem?_eq_some_iff.mp hlater
  have hpair := List.pairwise_iff_getElem.mp (pairwise_compactFrom 0 sourceText) _ _ hfirst
    hsecond (by omega)
  rw [hget, hget'] at hpair
  omega

/-- The last position is that of the last kept character. -/
theorem lastNonWhitespaceSourceEnd_eq_getD :
    projection.lastNonWhitespaceSourceEnd =
      projection.preparedSourceCharEnds.getD (projection.normalizedText.length - 1) 0 := by
  have hlength : projection.preparedSourceCharEnds.length = projection.normalizedText.length := by
    rw [h.preparedSourceCharEnds_eq, List.length_map, h.length_normalizedText]
  rw [h.lastNonWhitespaceSourceEnd_eq, List.getLastD_eq_getLast?, List.getLast?_eq_getElem?,
    hlength, List.getD_eq_getElem?_getD]

/-- Behind the last kept character there is whitespace only. -/
theorem isspace_of_mem_drop :
    ∀ character ∈ sourceText.drop projection.lastNonWhitespaceSourceEnd,
      isspace character = true := by
  intro character hmem
  obtain ⟨offset, hoffset, hget⟩ := List.mem_iff_getElem.mp hmem
  rw [List.getElem_drop] at hget
  by_contra hspace
  rw [List.length_drop] at hoffset
  have hkept : (character, projection.lastNonWhitespaceSourceEnd + offset) ∈
      compactFrom 0 sourceText := by
    rw [compactFrom, List.mem_filter, List.mem_zipIdx_iff_getElem?]
    exact ⟨List.getElem?_eq_some_iff.mpr ⟨by omega, hget⟩, by simpa using hspace⟩
  obtain ⟨index, hindex, hcompact⟩ := List.mem_iff_getElem.mp hkept
  have hlength := h.length_normalizedText
  have hend : projection.preparedSourceCharEnds.getD index 0 =
      projection.lastNonWhitespaceSourceEnd + offset + 1 := by
    have hpositive : 0 < index + 1 := Nat.succ_pos index
    obtain ⟨kept, hget', hend⟩ := h.exists_kept hpositive (by omega)
    rw [Nat.add_sub_cancel, List.getElem?_eq_getElem hindex, hcompact] at hget'
    rw [← Option.some.inj hget', Nat.add_sub_cancel] at hend
    exact hend
  have hlast := h.lastNonWhitespaceSourceEnd_eq_getD
  rcases Nat.lt_or_ge (index + 1) projection.normalizedText.length with hlt | hge
  · have hpositive : 0 < index + 1 := Nat.succ_pos index
    have hlater := h.sourceCharEnd_lt hpositive hlt (Nat.le_refl _)
    rw [Nat.add_sub_cancel] at hlater
    omega
  · rw [show projection.normalizedText.length - 1 = index by omega] at hlast
    omega

/-- The projected text is the projection of the whole source. -/
theorem projectedPrefix_length :
    projectedPrefix unicode sourceText sourceText.length = projection.normalizedText := by
  rw [projectedPrefix, List.take_length, h.normalizedText_eq]

end Projects

end MagpieTts.Frontend
