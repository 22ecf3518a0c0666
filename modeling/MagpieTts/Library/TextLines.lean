import Mathlib.Data.List.Basic
import Mathlib.Data.List.Forall2
import MagpieTts.Library.FileSystem

/-!
# Lines of a text

Two ways to cut a text into lines. `std::getline` ends a line at one delimiter; `str.splitlines`
ends it at every line boundary of Unicode, and takes a carriage return with its line feed for one.
The first line of the second cut that lies in a line of the first one begins where that line begins.

The first cut is made of bytes and the second one of characters; in UTF-8 a line feed is a byte of
its own.

## Main definitions

* `getlines`, `splitlines`: the two cuts.
* `decodeUtf8`: the strict decoder.

## Main results

* `splitlines_pieces`: the lines of the second cut, gathered by those of the first.
* `getlines_encodeUtf8`: the first cut may be made before or after the encoding.
* `encodeUtf8_eq_ascii_append`: an ASCII prefix of an encoding is the encoding of a prefix.
-/

namespace MagpieTts.Library

/-! ### The two cuts -/

/-- A character in front of a text whose lines are given. -/
def consLine {α : Type} (head : α) : List (List α) → List (List α)
  | [] => [[head]]
  | line :: lines => (head :: line) :: lines

/-- The lines that repeated calls of `std::getline` return. -/
def getlines {α : Type} [DecidableEq α] (delimiter : α) : List α → List (List α)
  | [] => []
  | head :: rest =>
    if head = delimiter then [] :: getlines delimiter rest
    else consLine head (getlines delimiter rest)

/-- The line boundaries of `str.splitlines`. -/
def isLineBoundary (character : Char) : Bool :=
  [0x0A, 0x0B, 0x0C, 0x0D, 0x1C, 0x1D, 0x1E, 0x85, 0x2028, 0x2029].contains character.toNat

/-- `str.splitlines`. -/
def splitlines : List Char → List (List Char)
  | [] => []
  | '\r' :: '\n' :: rest => [] :: splitlines rest
  | head :: rest =>
    if isLineBoundary head then [] :: splitlines rest else consLine head (splitlines rest)

/-- The two sides of the first separator of a line. -/
theorem takeWhile_ne_append_cons {α : Type} [DecidableEq α] {separator : α} {before : List α}
    (h : separator ∉ before) (after : List α) :
    (before ++ separator :: after).takeWhile (· ≠ separator) = before ∧
      (before ++ separator :: after).drop (before.length + 1) = after := by
  constructor
  · rw [List.takeWhile_append_of_pos, List.takeWhile_cons_of_neg (by simp), List.append_nil]
    intro item hmem
    rw [decide_eq_true_eq]
    rintro rfl
    exact h hmem
  · rw [List.drop_append, List.drop_of_length_le (Nat.le_succ _), Nat.add_sub_cancel_left]
    rfl

/-- The part of a line in front of its first boundary. -/
def firstLine (line : List Char) : List Char :=
  line.takeWhile fun character => !isLineBoundary character

section Cuts

variable {head : Char} {line : List Char} {lines : List (List Char)}

theorem firstLine_cons_of_boundary (h : isLineBoundary head = true) :
    firstLine (head :: line) = [] :=
  List.takeWhile_cons_of_neg (by simp [h])

theorem firstLine_cons_of_not (h : isLineBoundary head = false) :
    firstLine (head :: line) = head :: firstLine line :=
  List.takeWhile_cons_of_pos (by simp [h])

/-- What `splitlines` makes of a line of `getlines`: its first line, and more of them. -/
def Pieces (lines : List (List Char)) (pieces : List (List (List Char))) : Prop :=
  List.Forall₂ (fun line piece => ∃ more, piece = firstLine line :: more) lines pieces

/-- A boundary that is no line feed begins an empty line. -/
theorem pieces_consLine_of_boundary (h : isLineBoundary head = true)
    {pieces : List (List (List Char))} (hpieces : Pieces lines pieces) :
    ∃ pieces', [] :: pieces.flatten = pieces'.flatten ∧ Pieces (consLine head lines) pieces' := by
  cases hpieces with
  | nil => exact ⟨[[[]]], rfl, .cons ⟨[], by rw [firstLine_cons_of_boundary h]⟩ .nil⟩
  | @cons line piece _ _ hpiece hrest =>
    refine ⟨([] :: piece) :: _, rfl, .cons ⟨piece, ?_⟩ hrest⟩
    rw [firstLine_cons_of_boundary h]

/-- Any other character belongs to the line that follows it. -/
theorem pieces_consLine_of_not (h : isLineBoundary head = false)
    {pieces : List (List (List Char))} (hpieces : Pieces lines pieces) :
    ∃ pieces', consLine head pieces.flatten = pieces'.flatten ∧
      Pieces (consLine head lines) pieces' := by
  cases hpieces with
  | nil => exact ⟨[[[head]]], rfl, .cons ⟨[], by rw [firstLine_cons_of_not h]; rfl⟩ .nil⟩
  | @cons line piece _ _ hpiece hrest =>
    obtain ⟨more, rfl⟩ := hpiece
    refine ⟨((head :: firstLine line) :: more) :: _, rfl, .cons ⟨more, ?_⟩ hrest⟩
    rw [firstLine_cons_of_not h]

/-- The lines of `splitlines`, gathered by the lines of `getlines` that they lie in. -/
theorem splitlines_pieces (text : List Char) :
    ∃ pieces, splitlines text = pieces.flatten ∧ Pieces (getlines '\n' text) pieces := by
  induction text using splitlines.induct with
  | case1 => exact ⟨[], rfl, .nil⟩
  | case2 rest ih =>
    obtain ⟨pieces, hsplit, hpieces⟩ := ih
    refine ⟨[[]] :: pieces, ?_, .cons ⟨[], rfl⟩ hpieces⟩
    rw [splitlines, hsplit]
    rfl
  | case3 head rest hne hboundary ih =>
    obtain ⟨pieces, hsplit, hpieces⟩ := ih
    rw [splitlines, if_pos hboundary, hsplit, getlines]
    · split_ifs with hfeed
      · exact ⟨[[]] :: pieces, rfl, .cons ⟨[], rfl⟩ hpieces⟩
      · exact pieces_consLine_of_boundary hboundary hpieces
    · exact hne
  | case4 head rest hne hboundary ih =>
    obtain ⟨pieces, hsplit, hpieces⟩ := ih
    rw [Bool.not_eq_true] at hboundary
    have hfeed : head ≠ '\n' := by
      rintro rfl
      cases hboundary
    rw [splitlines, if_neg (by simp [hboundary]), hsplit, getlines, if_neg hfeed]
    · exact pieces_consLine_of_not hboundary hpieces
    · exact hne

theorem firstLine_mem_splitlines {text : List Char} (h : line ∈ getlines '\n' text) :
    firstLine line ∈ splitlines text := by
  obtain ⟨pieces, hsplit, hpieces⟩ := splitlines_pieces text
  obtain ⟨index, hindex, rfl⟩ := List.mem_iff_getElem.mp h
  have hlength := hpieces.length_eq
  obtain ⟨more, hpiece⟩ := hpieces.get hindex (hlength ▸ hindex)
  rw [hsplit, List.mem_flatten]
  refine ⟨_, List.get_mem pieces ⟨index, hlength ▸ hindex⟩, ?_⟩
  rw [hpiece]
  exact List.mem_cons_self

end Cuts

/-! ### The encoding -/

/-- The UTF-8 bytes of a text. -/
def encodeUtf8 (text : List Char) : Bytes := text.flatMap String.utf8EncodeChar

/-- `bytes.decode("utf-8")`, where it does not raise. -/
def decodeUtf8 (bytes : Bytes) : Option (List Char) :=
  (String.fromUTF8? bytes.toByteArray).map String.toList

/-- The character of an ASCII byte. -/
def asciiChar (byte : UInt8) : Char := Char.ofNat byte.toNat

theorem encodeUtf8_of_decodeUtf8 {bytes : Bytes} {text : List Char}
    (h : decodeUtf8 bytes = some text) : encodeUtf8 text = bytes := by
  rw [decodeUtf8, Option.map_eq_some_iff] at h
  obtain ⟨string, hstring, rfl⟩ := h
  rw [String.fromUTF8?] at hstring
  split_ifs at hstring with hvalid
  have hbytes : string.toByteArray = bytes.toByteArray := by
    rw [← Option.some.inj hstring]
    rfl
  rw [← String.utf8Encode_toList, List.utf8Encode] at hbytes
  have hlist := congrArg (fun array => array.data.toList) hbytes
  simpa [encodeUtf8] using hlist

theorem decodeUtf8_utf8 (text : String) : decodeUtf8 (utf8 text) = some text.toList := by
  have hbytes : (utf8 text).toByteArray = text.toByteArray := by
    rw [← String.utf8Encode_toList, List.utf8Encode, utf8]
  rw [decodeUtf8, hbytes, String.fromUTF8?, dif_pos text.isValidUTF8]
  rfl

/-! ### ASCII bytes of an encoding -/

/-- A character with an ASCII byte in its encoding is that byte. -/
theorem utf8EncodeChar_of_ascii {character : Char} {byte : UInt8}
    (hmem : byte ∈ String.utf8EncodeChar character) (hascii : byte.toNat < 128) :
    String.utf8EncodeChar character = [byte] ∧ character = asciiChar byte := by
  rw [String.utf8EncodeChar] at hmem ⊢
  generalize hcode : character.val.toNat = code at hmem ⊢
  have hcharacter : character = Char.ofNat code := by
    rw [← hcode]
    exact (Char.ofNat_toNat character).symm
  have hvalid : code < 0x110000 := by
    have hscalar : character.val.toNat.isValidChar := character.valid
    rw [hcode] at hscalar
    rcases hscalar with hlow | hhigh
    · omega
    · exact hhigh.2
  have hcontinuation : ∀ number : ℕ, byte = UInt8.ofNat number → number < 256 → number < 128 := by
    rintro number rfl hlt
    rwa [UInt8.toNat_ofNat_of_lt' hlt] at hascii
  split_ifs at hmem with hone htwo hthree
  · rw [List.mem_singleton] at hmem
    rw [if_pos hone, hmem, hcharacter, asciiChar,
      UInt8.toNat_ofNat_of_lt' (show code < 256 by omega)]
    exact ⟨rfl, rfl⟩
  -- every byte of a longer encoding is at least 128
  all_goals
    simp only [List.mem_cons, List.not_mem_nil, or_false] at hmem
  · rcases hmem with hbyte | hbyte
    · have := hcontinuation _ hbyte (by omega)
      omega
    · have := hcontinuation _ hbyte (by omega)
      omega
  · rcases hmem with hbyte | hbyte | hbyte
    · have := hcontinuation _ hbyte (by omega)
      omega
    · have := hcontinuation _ hbyte (by omega)
      omega
    · have := hcontinuation _ hbyte (by omega)
      omega
  · rcases hmem with hbyte | hbyte | hbyte | hbyte
    · have := hcontinuation _ hbyte (by omega)
      omega
    · have := hcontinuation _ hbyte (by omega)
      omega
    · have := hcontinuation _ hbyte (by omega)
      omega
    · have := hcontinuation _ hbyte (by omega)
      omega

/-- An ASCII prefix of an encoding is the encoding of a prefix. -/
theorem encodeUtf8_eq_ascii_append {text : List Char} {ascii bytes : Bytes}
    (hascii : ∀ byte ∈ ascii, byte.toNat < 128) (h : encodeUtf8 text = ascii ++ bytes) :
    ∃ rest, text = ascii.map asciiChar ++ rest ∧ encodeUtf8 rest = bytes := by
  induction ascii generalizing text with
  | nil => exact ⟨text, rfl, h⟩
  | cons byte ascii ih =>
    cases text with
    | nil => cases h
    | cons character text =>
      have hmem : byte ∈ String.utf8EncodeChar character := by
        rw [encodeUtf8, List.flatMap_cons, List.cons_append] at h
        cases hencoded : String.utf8EncodeChar character with
        | nil => exact absurd hencoded String.utf8EncodeChar_ne_nil
        | cons first more =>
          rw [hencoded, List.cons_append] at h
          rw [(List.cons.inj h).1]
          exact List.mem_cons_self
      obtain ⟨hencoded, rfl⟩ := utf8EncodeChar_of_ascii hmem (hascii byte List.mem_cons_self)
      rw [encodeUtf8, List.flatMap_cons, hencoded, List.singleton_append, List.cons_append] at h
      obtain ⟨rest, rfl, hrest⟩ :=
        ih (fun other hmem => hascii other (List.mem_cons_of_mem _ hmem)) (List.cons.inj h).2
      exact ⟨rest, rfl, hrest⟩

/-- Other bytes in front of a text whose lines are given. -/
theorem getlines_append {α : Type} [DecidableEq α] {delimiter : α} {before : List α}
    (h : delimiter ∉ before) (rest : List α) :
    getlines delimiter (before ++ rest) = before.foldr consLine (getlines delimiter rest) := by
  induction before with
  | nil => rfl
  | cons head before ih =>
    rw [List.mem_cons, not_or] at h
    rw [List.cons_append, getlines, if_neg (Ne.symm h.1), ih h.2, List.foldr_cons]

theorem foldr_consLine_append {α : Type} {before : List α} (hne : before ≠ [])
    (lines : List (List α)) :
    before.foldr consLine lines =
      match lines with
      | [] => [before]
      | line :: lines => (before ++ line) :: lines := by
  induction before with
  | nil => exact absurd rfl hne
  | cons head before ih =>
    rw [List.foldr_cons]
    cases before with
    | nil => cases lines <;> rfl
    | cons second before =>
      rw [ih (List.cons_ne_nil _ _)]
      cases lines <;> rfl

/-- The lines of an encoded text are the encoded lines. -/
theorem getlines_encodeUtf8 (text : List Char) :
    getlines 0x0A (encodeUtf8 text) = (getlines '\n' text).map encodeUtf8 := by
  induction text with
  | nil => rfl
  | cons head rest ih =>
    rw [encodeUtf8, List.flatMap_cons, ← encodeUtf8, getlines]
    split_ifs with hfeed
    · rw [hfeed, List.map_cons, ← ih]
      rfl
    · have hnot : (0x0A : UInt8) ∉ String.utf8EncodeChar head :=
        fun hmem => hfeed (utf8EncodeChar_of_ascii hmem (by decide)).2
      rw [getlines_append hnot, foldr_consLine_append String.utf8EncodeChar_ne_nil, ih]
      cases getlines '\n' rest with
      | nil =>
        simp [consLine, encodeUtf8]
      | cons line lines =>
        simp [consLine, encodeUtf8]

end MagpieTts.Library
