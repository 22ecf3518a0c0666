import Mathlib.Data.Int.Notation
import Mathlib.Data.List.Basic
import Mathlib.Data.List.TakeWhile

/-!
# Strings and numbers in JSON texts

A scanner of JSON texts goes from left to right. This module has the values, and the scans of
spaces, of the code units of a string and of the parts of a number, each with the texts that it
accepts. A string is a list of code points: an escape may stand for half of a surrogate pair alone.

## Main definitions

* `JsonValue`: a value, `CodePoints`: a string.
* `scanUnits`, `SpellsUnits`: the code units of a string.
* `scanNumber`, `NumberParts`: the parts of a number.

## Main results

* `scanUnits_append`, `scanUnits_sound`: what is scanned of a string.
* `scanNumber_append`, `scanNumber_sound`: what is scanned of a number.
-/

namespace MagpieTts.Library

/-- A character string that may have single surrogates. -/
abbrev CodePoints := List ℕ

/-- A number with a fraction or an exponent, or one that is not finite. -/
inductive JsonFloat
  /-- `digits * 10 ^ exponent`, with a sign. -/
  | decimal (negative : Bool) (digits : ℕ) (exponent : ℤ)
  | nan
  | infinity (negative : Bool)
  deriving Repr, DecidableEq

/-- A JSON value, the members of an object in the order of the text. -/
inductive JsonValue
  | null
  | boolean (value : Bool)
  | integer (value : ℤ)
  | float (value : JsonFloat)
  | string (text : CodePoints)
  | array (elements : List JsonValue)
  | object (members : List (CodePoints × JsonValue))
  deriving Repr

/-! ### Spaces -/

def isJsonSpace (character : Char) : Bool :=
  character == ' ' || character == '\t' || character == '\n' || character == '\r'

def skipSpaces (text : List Char) : List Char := text.dropWhile isJsonSpace

def Spaces (text : List Char) : Prop := ∀ character ∈ text, isJsonSpace character = true

theorem skipSpaces_append {spaces text : List Char} (h : Spaces spaces) :
    skipSpaces (spaces ++ text) = skipSpaces text :=
  List.dropWhile_append_of_pos h

theorem skipSpaces_cons {character : Char} {text : List Char}
    (h : isJsonSpace character = false) : skipSpaces (character :: text) = character :: text :=
  List.dropWhile_cons_of_neg (by rw [h]; exact nofun)

theorem exists_spaces (text : List Char) :
    ∃ spaces, Spaces spaces ∧ text = spaces ++ skipSpaces text :=
  ⟨text.takeWhile isJsonSpace, fun _ hmem => List.mem_takeWhile_imp hmem,
    (List.takeWhile_append_dropWhile).symm⟩

/-! ### Strings -/

def hexValue (character : Char) : Option ℕ :=
  if '0' ≤ character ∧ character ≤ '9' then some (character.toNat - 0x30)
  else if 'a' ≤ character ∧ character ≤ 'f' then some (character.toNat - 0x61 + 10)
  else if 'A' ≤ character ∧ character ≤ 'F' then some (character.toNat - 0x41 + 10)
  else none

/-- Four hexadecimal digits. -/
def hexUnit (a b c d : Char) : Option ℕ :=
  match hexValue a, hexValue b, hexValue c, hexValue d with
  | some a, some b, some c, some d => some (((a * 16 + b) * 16 + c) * 16 + d)
  | _, _, _, _ => none

/-- The escapes of one letter. -/
def escapedCode (character : Char) : Option ℕ :=
  if character = '\x22' then some 0x22
  else if character = '\\' then some 0x5c
  else if character = '/' then some 0x2f
  else if character = 'b' then some 0x08
  else if character = 'f' then some 0x0c
  else if character = 'n' then some 0x0a
  else if character = 'r' then some 0x0d
  else if character = 't' then some 0x09
  else none

/-- The characters behind an opening quotation mark: the code units up to the closing one, and the
text behind it. -/
def scanUnits : List Char → Option (List ℕ × List Char)
  | [] => none
  | '\\' :: 'u' :: a :: b :: c :: d :: rest =>
    match hexUnit a b c d with
    | none => none
    | some unit => (scanUnits rest).map fun scanned => (unit :: scanned.1, scanned.2)
  | '\\' :: escape :: rest =>
    match escapedCode escape with
    | none => none
    | some code => (scanUnits rest).map fun scanned => (code :: scanned.1, scanned.2)
  | character :: rest =>
    if character = '\x22' then some ([], rest)
    else if character = '\\' || character.toNat < 0x20 then none
    else (scanUnits rest).map fun scanned => (character.toNat :: scanned.1, scanned.2)
termination_by structural text => text

/-- The characters of a string between its quotation marks, and its code units. -/
inductive SpellsUnits : List Char → List ℕ → Prop
  | nil : SpellsUnits [] []
  | plain {character : Char} {chars : List Char} {units : List ℕ} (hquote : character ≠ '\x22')
    (hsolidus : character ≠ '\\') (hcontrol : 0x20 ≤ character.toNat)
    (h : SpellsUnits chars units) : SpellsUnits (character :: chars) (character.toNat :: units)
  | escaped {escape : Char} {code : ℕ} {chars : List Char} {units : List ℕ}
    (hescape : escapedCode escape = some code) (h : SpellsUnits chars units) :
    SpellsUnits ('\\' :: escape :: chars) (code :: units)
  | unit {a b c d : Char} {unit : ℕ} {chars : List Char} {units : List ℕ}
    (hunit : hexUnit a b c d = some unit) (h : SpellsUnits chars units) :
    SpellsUnits ('\\' :: 'u' :: a :: b :: c :: d :: chars) (unit :: units)

theorem scanUnits_append {chars : List Char} {units : List ℕ} (h : SpellsUnits chars units)
    (rest : List Char) : scanUnits (chars ++ '\x22' :: rest) = some (units, rest) := by
  induction h with
  | nil => rfl
  | @plain character chars units hquote hsolidus hcontrol _ ih =>
    rw [List.cons_append, scanUnits, if_neg hquote, if_neg, ih]
    · rfl
    · simp only [Bool.or_eq_true, decide_eq_true_eq, not_or, not_lt]
      exact ⟨hsolidus, hcontrol⟩
    · exact fun _ _ _ _ _ heq => absurd heq hsolidus
    · exact fun _ _ heq => absurd heq hsolidus
  | @escaped escape code chars units hescape _ ih =>
    rw [List.cons_append, List.cons_append, scanUnits, hescape]
    · simp only [ih, Option.map_some]
    · rintro _ _ _ _ _ rfl
      cases hescape
  | unit hunit _ ih =>
    simp only [List.cons_append, scanUnits, hunit, ih, Option.map_some]

theorem scanUnits_sound {text rest : List Char} {units : List ℕ}
    (h : scanUnits text = some (units, rest)) :
    ∃ chars, text = chars ++ '\x22' :: rest ∧ SpellsUnits chars units := by
  induction text using scanUnits.induct generalizing units with
  | case1 => cases h
  | case2 a b c d tail hunit =>
    rw [scanUnits, hunit] at h
    cases h
  | case3 a b c d tail unit hunit ih =>
    rw [scanUnits, hunit] at h
    obtain ⟨⟨more, left⟩, htail, heq⟩ := Option.map_eq_some_iff.mp h
    cases heq
    obtain ⟨chars, rfl, hspells⟩ := ih htail
    exact ⟨_, rfl, .unit hunit hspells⟩
  | case4 escape tail hnot hescape =>
    rw [scanUnits, hescape] at h
    · cases h
    · exact hnot
  | case5 escape tail hnot code hescape ih =>
    rw [scanUnits, hescape] at h
    · obtain ⟨⟨more, left⟩, htail, heq⟩ := Option.map_eq_some_iff.mp h
      cases heq
      obtain ⟨chars, rfl, hspells⟩ := ih htail
      exact ⟨_, rfl, .escaped hescape hspells⟩
    · exact hnot
  | case6 tail =>
    cases h
    exact ⟨[], rfl, .nil⟩
  | case7 character tail hunit hescape hquote hrefused =>
    rw [scanUnits, if_neg hquote, if_pos hrefused] at h
    · cases h
    · exact hunit
    · exact hescape
  | case8 character tail hunit hescape hquote hrefused ih =>
    rw [scanUnits, if_neg hquote, if_neg hrefused] at h
    · obtain ⟨⟨more, left⟩, htail, heq⟩ := Option.map_eq_some_iff.mp h
      cases heq
      obtain ⟨chars, rfl, hspells⟩ := ih htail
      simp only [Bool.or_eq_true, decide_eq_true_eq, not_or, not_lt] at hrefused
      exact ⟨_, rfl, .plain hquote hrefused.1 hrefused.2 hspells⟩
    · exact hunit
    · exact hescape

/-- A high half of a surrogate pair and a low half. -/
def isHighSurrogate (unit : ℕ) : Bool := 0xd800 ≤ unit && unit ≤ 0xdbff

def isLowSurrogate (unit : ℕ) : Bool := 0xdc00 ≤ unit && unit ≤ 0xdfff

/-- Two halves in a row are one code point. -/
def joinSurrogates : List ℕ → CodePoints
  | high :: low :: rest =>
    if isHighSurrogate high && isLowSurrogate low then
      (0x10000 + (high - 0xd800) * 0x400 + (low - 0xdc00)) :: joinSurrogates rest
    else high :: joinSurrogates (low :: rest)
  | units => units

/-! ### Numbers -/

/-- The parts of a number. -/
structure NumberParts where
  negative : Bool
  whole : List Char
  fraction : Option (List Char)
  /-- The letter, the sign and the digits of the exponent. -/
  exponent : Option (Char × Option Char × List Char)
  deriving Repr, DecidableEq

/-- The number of which these are the decimal digits. -/
def decimalValue (digits : List Char) : ℕ :=
  digits.foldl (fun value digit => value * 10 + (digit.toNat - 0x30)) 0

namespace NumberParts

/-- The text of a number. -/
def render (parts : NumberParts) : List Char :=
  (if parts.negative then ['-'] else []) ++ parts.whole ++
    (parts.fraction.elim [] fun digits => '.' :: digits) ++
      parts.exponent.elim [] fun exponent => exponent.1 :: (exponent.2.1.toList ++ exponent.2.2)

/-- The parts are those of a number. -/
structure Valid (parts : NumberParts) : Prop where
  whole : parts.whole = ['0'] ∨ ∃ first rest, parts.whole = first :: rest ∧ first.isDigit = true ∧
    first ≠ '0' ∧ ∀ digit ∈ rest, digit.isDigit = true
  fraction : ∀ digits, parts.fraction = some digits →
    digits ≠ [] ∧ ∀ digit ∈ digits, digit.isDigit = true
  exponent : ∀ letter sign digits, parts.exponent = some (letter, sign, digits) →
    (letter = 'e' ∨ letter = 'E') ∧ (∀ character ∈ sign, character = '+' ∨ character = '-') ∧
      digits ≠ [] ∧ ∀ digit ∈ digits, digit.isDigit = true

/-- The exponent of ten. -/
def exponentValue (parts : NumberParts) : ℤ :=
  parts.exponent.elim 0 fun exponent =>
    if exponent.2.1 = some '-' then -(decimalValue exponent.2.2 : ℤ) else decimalValue exponent.2.2

/-- A number without fraction and exponent is an integer. -/
def value (parts : NumberParts) : JsonValue :=
  if parts.fraction.isNone && parts.exponent.isNone then
    .integer (if parts.negative then -(decimalValue parts.whole : ℤ) else decimalValue parts.whole)
  else
    let digits := parts.fraction.getD []
    .float (.decimal parts.negative (decimalValue (parts.whole ++ digits))
      (parts.exponentValue - digits.length))

/-- The number is an integer of more digits than are read. -/
def TooLong (maxDigits : ℕ) (parts : NumberParts) : Prop :=
  parts.fraction = none ∧ parts.exponent = none ∧ maxDigits < parts.whole.length

instance (maxDigits : ℕ) (parts : NumberParts) : Decidable (parts.TooLong maxDigits) :=
  inferInstanceAs (Decidable (_ ∧ _ ∧ _))

end NumberParts

/-- The digits at the front of a text, and the text behind them. -/
def spanDigits (text : List Char) : List Char × List Char :=
  (text.takeWhile Char.isDigit, text.dropWhile Char.isDigit)

/-- A decimal point with digits behind it. -/
def scanFraction (text : List Char) : Option (List Char) × List Char :=
  match text with
  | '.' :: rest =>
    if (spanDigits rest).1 = [] then (none, text)
    else (some (spanDigits rest).1, (spanDigits rest).2)
  | _ => (none, text)

/-- The sign of an exponent. -/
def scanSign (text : List Char) : Option Char × List Char :=
  match text with
  | character :: rest =>
    if character = '+' ∨ character = '-' then (some character, rest) else (none, text)
  | [] => (none, text)

/-- The letter of an exponent with digits behind it. -/
def scanExponent (text : List Char) : Option (Char × Option Char × List Char) × List Char :=
  match text with
  | letter :: rest =>
    if (letter = 'e' ∨ letter = 'E') ∧ (spanDigits (scanSign rest).2).1 ≠ [] then
      (some (letter, (scanSign rest).1, (spanDigits (scanSign rest).2).1),
        (spanDigits (scanSign rest).2).2)
    else (none, text)
  | [] => (none, text)

/-- The digits before the decimal point: a zero alone, or digits of which the first is none. -/
def scanWhole (text : List Char) : Option (List Char × List Char) :=
  match text with
  | '0' :: rest => some (['0'], rest)
  | first :: rest =>
    if first.isDigit then some (first :: (spanDigits rest).1, (spanDigits rest).2) else none
  | [] => none

/-- The sign of a number. -/
def scanMinus (text : List Char) : Bool × List Char :=
  match text with
  | '-' :: rest => (true, rest)
  | _ => (false, text)

/-- The longest number at the front of a text. -/
def scanNumber (text : List Char) : Option (NumberParts × List Char) :=
  let signed := scanMinus text
  (scanWhole signed.2).map fun whole =>
    let fraction := scanFraction whole.2
    let exponent := scanExponent fraction.2
    (⟨signed.1, whole.1, fraction.1, exponent.1⟩, exponent.2)

/-- The text does not continue a number. -/
def EndsNumber (rest : List Char) : Prop :=
  ∀ character ∈ rest.head?, character.isDigit = false ∧ character ≠ '.' ∧ character ≠ 'e' ∧
    character ≠ 'E'

theorem spanDigits_append {digits rest : List Char}
    (hdigits : ∀ digit ∈ digits, digit.isDigit = true)
    (hrest : ∀ character ∈ rest.head?, character.isDigit = false) :
    spanDigits (digits ++ rest) = (digits, rest) := by
  have hstop : rest.takeWhile Char.isDigit = [] ∧ rest.dropWhile Char.isDigit = rest := by
    cases rest with
    | nil => exact ⟨rfl, rfl⟩
    | cons character rest =>
      have hnot : ¬ character.isDigit = true := by rw [hrest character rfl]; exact nofun
      exact ⟨List.takeWhile_cons_of_neg hnot, List.dropWhile_cons_of_neg hnot⟩
  rw [spanDigits, List.takeWhile_append_of_pos hdigits, List.dropWhile_append_of_pos hdigits,
    hstop.1, hstop.2, List.append_nil]

theorem spanDigits_sound (text : List Char) :
    text = (spanDigits text).1 ++ (spanDigits text).2 ∧
      ∀ digit ∈ (spanDigits text).1, digit.isDigit = true :=
  ⟨List.takeWhile_append_dropWhile.symm, fun _ hmem => List.mem_takeWhile_imp hmem⟩

theorem scanWhole_append {whole rest : List Char}
    (hwhole : whole = ['0'] ∨ ∃ first tail, whole = first :: tail ∧ first.isDigit = true ∧
      first ≠ '0' ∧ ∀ digit ∈ tail, digit.isDigit = true)
    (hrest : ∀ character ∈ rest.head?, character.isDigit = false) :
    scanWhole (whole ++ rest) = some (whole, rest) := by
  rcases hwhole with rfl | ⟨first, tail, rfl, hfirst, hzero, htail⟩
  · rfl
  · rw [List.cons_append, scanWhole, if_pos hfirst, spanDigits_append htail hrest]
    exact hzero

theorem scanWhole_sound {text whole rest : List Char} (h : scanWhole text = some (whole, rest)) :
    text = whole ++ rest ∧ (whole = ['0'] ∨ ∃ first tail, whole = first :: tail ∧
      first.isDigit = true ∧ first ≠ '0' ∧ ∀ digit ∈ tail, digit.isDigit = true) := by
  unfold scanWhole at h
  split at h
  next => cases h; exact ⟨rfl, .inl rfl⟩
  next first tail hzero =>
    split at h
    next hfirst =>
      cases h
      obtain ⟨htail, hdigits⟩ := spanDigits_sound tail
      exact ⟨congrArg (List.cons first) htail, .inr ⟨first, _, rfl, hfirst, hzero, hdigits⟩⟩
    next => cases h
  next => cases h

theorem scanFraction_append {fraction : Option (List Char)} {rest : List Char}
    (hfraction : ∀ digits, fraction = some digits →
      digits ≠ [] ∧ ∀ digit ∈ digits, digit.isDigit = true)
    (hrest : ∀ character ∈ rest.head?, character.isDigit = false ∧ character ≠ '.') :
    scanFraction ((fraction.elim [] fun digits => '.' :: digits) ++ rest) = (fraction, rest) := by
  cases fraction with
  | none =>
    unfold scanFraction
    split
    next tail heq =>
      rw [Option.elim_none, List.nil_append] at heq
      subst heq
      exact absurd rfl (hrest '.' rfl).2
    next => rfl
  | some digits =>
    obtain ⟨hne, hdigits⟩ := hfraction digits rfl
    have hspan := spanDigits_append hdigits fun character hmem => (hrest character hmem).1
    rw [Option.elim_some, List.cons_append, scanFraction, hspan, if_neg hne]

theorem scanFraction_sound (text : List Char) :
    text = ((scanFraction text).1.elim [] fun digits => '.' :: digits) ++ (scanFraction text).2 ∧
      ∀ digits, (scanFraction text).1 = some digits →
        digits ≠ [] ∧ ∀ digit ∈ digits, digit.isDigit = true := by
  unfold scanFraction
  split
  next rest =>
    split
    next => exact ⟨rfl, nofun⟩
    next hne =>
      obtain ⟨htext, hdigits⟩ := spanDigits_sound rest
      refine ⟨congrArg (List.cons '.') htext, fun digits heq => ?_⟩
      cases heq
      exact ⟨hne, hdigits⟩
  next => exact ⟨rfl, nofun⟩

theorem scanSign_append {sign : Option Char} {rest : List Char}
    (hsign : ∀ character ∈ sign, character = '+' ∨ character = '-')
    (hrest : ∀ character ∈ rest.head?, character.isDigit = true) :
    scanSign (sign.toList ++ rest) = (sign, rest) := by
  cases sign with
  | none =>
    cases rest with
    | nil => rfl
    | cons character rest =>
      have hdigit := hrest character rfl
      refine if_neg ?_
      rintro (rfl | rfl) <;> cases hdigit
  | some character => exact if_pos (hsign character rfl)

theorem scanSign_sound (text : List Char) :
    text = (scanSign text).1.toList ++ (scanSign text).2 ∧
      ∀ character ∈ (scanSign text).1, character = '+' ∨ character = '-' := by
  unfold scanSign
  split
  next character rest =>
    split
    next hsign => exact ⟨rfl, fun other heq => by cases heq; exact hsign⟩
    next => exact ⟨rfl, nofun⟩
  next => exact ⟨rfl, nofun⟩

theorem scanExponent_append {exponent : Option (Char × Option Char × List Char)}
    {rest : List Char} (hexponent : ∀ letter sign digits, exponent = some (letter, sign, digits) →
      (letter = 'e' ∨ letter = 'E') ∧ (∀ character ∈ sign, character = '+' ∨ character = '-') ∧
        digits ≠ [] ∧ ∀ digit ∈ digits, digit.isDigit = true) (hrest : EndsNumber rest) :
    scanExponent ((exponent.elim [] fun exponent =>
      exponent.1 :: (exponent.2.1.toList ++ exponent.2.2)) ++ rest) = (exponent, rest) := by
  cases exponent with
  | none =>
    cases rest with
    | nil => rfl
    | cons letter rest =>
      obtain ⟨-, -, hlower, hupper⟩ := hrest letter rfl
      exact if_neg fun h => h.1.elim hlower hupper
  | some exponent =>
    obtain ⟨letter, sign, digits⟩ := exponent
    obtain ⟨hletter, hsign, hne, hdigits⟩ := hexponent letter sign digits rfl
    have hspan := spanDigits_append hdigits fun character hmem => (hrest character hmem).1
    have hscan : scanSign (sign.toList ++ (digits ++ rest)) = (sign, digits ++ rest) := by
      refine scanSign_append hsign fun character hmem => ?_
      cases digits with
      | nil => exact absurd rfl hne
      | cons digit digits =>
        cases hmem
        exact hdigits _ List.mem_cons_self
    rw [Option.elim_some, List.cons_append, List.append_assoc, scanExponent, hscan, hspan]
    exact if_pos ⟨hletter, hne⟩

theorem scanExponent_sound (text : List Char) :
    text = ((scanExponent text).1.elim [] fun exponent =>
        exponent.1 :: (exponent.2.1.toList ++ exponent.2.2)) ++ (scanExponent text).2 ∧
      ∀ letter sign digits, (scanExponent text).1 = some (letter, sign, digits) →
        (letter = 'e' ∨ letter = 'E') ∧ (∀ character ∈ sign, character = '+' ∨ character = '-') ∧
          digits ≠ [] ∧ ∀ digit ∈ digits, digit.isDigit = true := by
  unfold scanExponent
  split
  next letter rest =>
    split
    next h =>
      obtain ⟨hsigned, hsign⟩ := scanSign_sound rest
      obtain ⟨hspan, hdigits⟩ := spanDigits_sound (scanSign rest).2
      refine ⟨?_, fun letter sign digits heq => ?_⟩
      · rw [Option.elim_some, List.cons_append, List.append_assoc, ← hspan, ← hsigned]
      · cases heq
        exact ⟨h.1, hsign, h.2, hdigits⟩
    next => exact ⟨rfl, nofun⟩
  next => exact ⟨rfl, nofun⟩

theorem scanMinus_append {negative : Bool} {whole rest : List Char}
    (hwhole : whole = ['0'] ∨ ∃ first tail, whole = first :: tail ∧ first.isDigit = true ∧
      first ≠ '0' ∧ ∀ digit ∈ tail, digit.isDigit = true) :
    scanMinus ((if negative then ['-'] else []) ++ (whole ++ rest)) =
      (negative, whole ++ rest) := by
  cases negative with
  | true => rfl
  | false =>
    rcases hwhole with rfl | ⟨first, tail, rfl, hfirst, -⟩
    · rfl
    · unfold scanMinus
      split
      next heq =>
        cases heq
        cases hfirst
      next => rfl

theorem scanMinus_sound (text : List Char) :
    text = (if (scanMinus text).1 then ['-'] else []) ++ (scanMinus text).2 := by
  unfold scanMinus
  split
  next => rfl
  next => rfl

theorem scanNumber_append {parts : NumberParts} (hvalid : parts.Valid) {rest : List Char}
    (hrest : EndsNumber rest) : scanNumber (parts.render ++ rest) = some (parts, rest) := by
  obtain ⟨negative, whole, fraction, exponent⟩ := parts
  obtain ⟨hwhole, hfraction, hexponent⟩ := hvalid
  dsimp only at hwhole hfraction hexponent
  -- what follows the digits before the decimal point
  have hexponentText : ∀ character ∈ ((exponent.elim [] fun exponent =>
      exponent.1 :: (exponent.2.1.toList ++ exponent.2.2)) ++ rest).head?,
      character.isDigit = false ∧ character ≠ '.' := by
    intro character hmem
    cases exponent with
    | none => exact ⟨(hrest character hmem).1, (hrest character hmem).2.1⟩
    | some exponent =>
      obtain ⟨letter, sign, digits⟩ := exponent
      cases hmem
      obtain ⟨hletter, -⟩ := hexponent letter sign digits rfl
      change letter.isDigit = false ∧ letter ≠ '.'
      clear hexponent
      rcases hletter with rfl | rfl <;> decide
  have hfractionText : ∀ character ∈ ((fraction.elim [] fun digits => '.' :: digits) ++
      ((exponent.elim [] fun exponent => exponent.1 :: (exponent.2.1.toList ++ exponent.2.2)) ++
        rest)).head?, character.isDigit = false := by
    intro character hmem
    cases fraction with
    | none => exact (hexponentText character hmem).1
    | some digits => cases hmem; decide
  have hscan := scanWhole_append hwhole hfractionText
  unfold scanNumber NumberParts.render
  simp only [List.append_assoc]
  rw [scanMinus_append hwhole]
  dsimp only
  rw [hscan, Option.map_some, scanFraction_append hfraction hexponentText,
    scanExponent_append hexponent hrest]

theorem scanNumber_sound {text rest : List Char} {parts : NumberParts}
    (h : scanNumber text = some (parts, rest)) : text = parts.render ++ rest ∧ parts.Valid := by
  unfold scanNumber at h
  obtain ⟨⟨whole, tail⟩, hwhole, heq⟩ := Option.map_eq_some_iff.mp h
  obtain ⟨hparts, hrest⟩ := Prod.mk.inj heq
  obtain ⟨htext, hvalid⟩ := scanWhole_sound hwhole
  obtain ⟨hfractionText, hfraction⟩ := scanFraction_sound tail
  obtain ⟨hexponentText, hexponent⟩ := scanExponent_sound (scanFraction tail).2
  dsimp only at hparts hrest
  subst hparts
  refine ⟨?_, hvalid, hfraction, hexponent⟩
  rw [NumberParts.render, List.append_assoc, List.append_assoc, List.append_assoc, ← hrest,
    ← hexponentText, ← hfractionText, ← htext, ← scanMinus_sound]

end MagpieTts.Library
