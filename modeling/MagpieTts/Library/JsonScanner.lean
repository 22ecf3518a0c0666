import MagpieTts.Library.ExceptRules
import MagpieTts.Library.JsonTokens

/-!
# JSON texts

A scanner of JSON texts. Besides the values of strict JSON it knows the three constants for numbers
that are not finite; it keeps the members of an object in their order, repeated keys included. It
fails when values are nested too deeply, or when an integer has too many digits, before it has seen
the rest of the text.

## Main definitions

* `scanValue`, `scanText`: the scanner.
* `Spells`, `IsJsonText`: the grammar.

## Main results

* `scanValue_sound`, `scanValue_complete`: the front of a text is scanned as the grammar says.
* `scanText_eq_ok_iff`: the texts that are accepted.
* `scanElements_fuel`, `scanMembers_fuel`: the bounds of the loops do not matter.
-/

namespace MagpieTts.Library

/-- Why a text is not scanned. -/
inductive JsonFailure
  /-- The text is not JSON. -/
  | decodeError
  /-- An integer has too many digits. -/
  | integerTooLong
  /-- Too many values stand in one another. -/
  | nestedTooDeeply
  deriving Repr, DecidableEq

/-! ### Values that stand in no other -/

def scanConstant : List Char → Option (JsonValue × List Char)
  | 'n' :: 'u' :: 'l' :: 'l' :: rest => some (.null, rest)
  | 't' :: 'r' :: 'u' :: 'e' :: rest => some (.boolean true, rest)
  | 'f' :: 'a' :: 'l' :: 's' :: 'e' :: rest => some (.boolean false, rest)
  | 'N' :: 'a' :: 'N' :: rest => some (.float .nan, rest)
  | 'I' :: 'n' :: 'f' :: 'i' :: 'n' :: 'i' :: 't' :: 'y' :: rest =>
    some (.float (.infinity false), rest)
  | '-' :: 'I' :: 'n' :: 'f' :: 'i' :: 'n' :: 'i' :: 't' :: 'y' :: rest =>
    some (.float (.infinity true), rest)
  | _ => none

/-- A string, a constant or a number. -/
def scanScalar (maxDigits : ℕ) (text : List Char) : Except JsonFailure (JsonValue × List Char) :=
  match text with
  | '\x22' :: rest =>
    match scanUnits rest with
    | none => .error .decodeError
    | some (units, rest) => .ok (.string (joinSurrogates units), rest)
  | _ =>
    match scanConstant text with
    | some scanned => .ok scanned
    | none =>
      match scanNumber text with
      | none => .error .decodeError
      | some (parts, rest) =>
        if parts.TooLong maxDigits then .error .integerTooLong else .ok (parts.value, rest)

inductive SpellsConstant : JsonValue → List Char → Prop
  | null : SpellsConstant .null ['n', 'u', 'l', 'l']
  | true : SpellsConstant (.boolean true) ['t', 'r', 'u', 'e']
  | false : SpellsConstant (.boolean false) ['f', 'a', 'l', 's', 'e']
  | nan : SpellsConstant (.float .nan) ['N', 'a', 'N']
  | infinity : SpellsConstant (.float (.infinity false)) ['I', 'n', 'f', 'i', 'n', 'i', 't', 'y']
  | minusInfinity : SpellsConstant (.float (.infinity true))
      ['-', 'I', 'n', 'f', 'i', 'n', 'i', 't', 'y']

/-- The text of a string, a constant or a number. -/
inductive SpellsScalar (maxDigits : ℕ) : JsonValue → List Char → Prop
  | string {chars : List Char} {units : List ℕ} (h : SpellsUnits chars units) :
    SpellsScalar maxDigits (.string (joinSurrogates units)) ('\x22' :: (chars ++ ['\x22']))
  | constant {value : JsonValue} {literal : List Char} (h : SpellsConstant value literal) :
    SpellsScalar maxDigits value literal
  | number {parts : NumberParts} (hvalid : parts.Valid) (hshort : ¬ parts.TooLong maxDigits) :
    SpellsScalar maxDigits parts.value parts.render

theorem scanConstant_append {value : JsonValue} {literal : List Char}
    (h : SpellsConstant value literal) (rest : List Char) :
    scanConstant (literal ++ rest) = some (value, rest) := by
  cases h <;> rfl

theorem scanConstant_sound {text rest : List Char} {value : JsonValue}
    (h : scanConstant text = some (value, rest)) :
    ∃ literal, text = literal ++ rest ∧ SpellsConstant value literal := by
  unfold scanConstant at h
  split at h
  next => cases h; exact ⟨_, rfl, .null⟩
  next => cases h; exact ⟨_, rfl, .true⟩
  next => cases h; exact ⟨_, rfl, .false⟩
  next => cases h; exact ⟨_, rfl, .nan⟩
  next => cases h; exact ⟨_, rfl, .infinity⟩
  next => cases h; exact ⟨_, rfl, .minusInfinity⟩
  next => cases h

/-- How a number begins. -/
theorem NumberParts.Valid.render_eq {parts : NumberParts} (hvalid : parts.Valid) :
    ∃ first rest, first.isDigit = true ∧
      (parts.render = first :: rest ∨ parts.render = '-' :: first :: rest) := by
  obtain ⟨negative, whole, fraction, exponent⟩ := parts
  have hwhole : ∃ first tail, whole = first :: tail ∧ first.isDigit = true := by
    rcases hvalid.whole with heq | ⟨first, tail, heq, hfirst, -⟩
    · exact ⟨'0', [], heq, by decide⟩
    · exact ⟨first, tail, heq, hfirst⟩
  obtain ⟨first, tail, rfl, hfirst⟩ := hwhole
  cases negative with
  | true => exact ⟨first, _, hfirst, .inr rfl⟩
  | false => exact ⟨first, _, hfirst, .inl rfl⟩

theorem scanConstant_number {first : Char} (hfirst : first.isDigit = true) (rest : List Char) :
    scanConstant (first :: rest) = none ∧ scanConstant ('-' :: first :: rest) = none := by
  constructor
  · unfold scanConstant
    split <;> first
      | rfl
      | next heq => cases heq; cases hfirst
  · unfold scanConstant
    split <;> first
      | rfl
      | next heq => cases heq; try cases hfirst

/-- The first character of a value. -/
structure StartsValue (literal : List Char) : Prop where
  ne_nil : literal ≠ []
  notSpace : ∀ character ∈ literal.head?, isJsonSpace character = false
  notClosing : ∀ character ∈ literal.head?, character ≠ ']' ∧ character ≠ '\x7d'

theorem SpellsScalar.startsValue {maxDigits : ℕ} {value : JsonValue} {literal : List Char}
    (h : SpellsScalar maxDigits value literal) : StartsValue literal := by
  cases h with
  | string =>
    exact ⟨nofun, fun _ heq => by cases heq; decide, fun _ heq => by cases heq; decide⟩
  | constant h =>
    cases h <;>
      exact ⟨nofun, fun _ heq => by cases heq; decide, fun _ heq => by cases heq; decide⟩
  | number hvalid =>
    obtain ⟨first, rest, hfirst, heq | heq⟩ := hvalid.render_eq
    · rw [heq]
      refine ⟨nofun, fun _ heq => ?_, fun _ heq => ?_⟩
      · cases heq
        refine Bool.eq_false_iff.mpr fun hspace => ?_
        simp only [isJsonSpace, Bool.or_eq_true, beq_iff_eq] at hspace
        rcases hspace with ((rfl | rfl) | rfl) | rfl <;> cases hfirst
      · cases heq
        constructor <;> rintro rfl <;> cases hfirst
    · rw [heq]
      exact ⟨nofun, fun _ heq => by cases heq; decide, fun _ heq => by cases heq; decide⟩

theorem scanScalar_append {maxDigits : ℕ} {value : JsonValue} {literal : List Char}
    (h : SpellsScalar maxDigits value literal) {rest : List Char} (hrest : EndsNumber rest) :
    scanScalar maxDigits (literal ++ rest) = .ok (value, rest) := by
  cases h with
  | string h =>
    rw [List.cons_append, List.append_assoc, List.singleton_append, scanScalar,
      scanUnits_append h rest]
  | constant h =>
    have hscan := scanConstant_append h rest
    unfold scanScalar
    split
    next heq => cases h <;> cases heq
    next => rw [hscan]
  | @number parts hvalid hshort =>
    have hscan := scanNumber_append hvalid hrest
    obtain ⟨first, tail, hfirst, heq⟩ := hvalid.render_eq
    have hconstant : scanConstant (parts.render ++ rest) = none := by
      rcases heq with heq | heq
      · rw [heq]
        exact (scanConstant_number hfirst _).1
      · rw [heq]
        exact (scanConstant_number hfirst _).2
    unfold scanScalar
    split
    next htext =>
      rcases heq with heq | heq <;> rw [heq] at htext <;> cases htext
      cases hfirst
    next =>
      rw [hconstant]
      dsimp only
      rw [hscan]
      exact if_neg hshort

theorem scanScalar_sound {maxDigits : ℕ} {text rest : List Char} {value : JsonValue}
    (h : scanScalar maxDigits text = .ok (value, rest)) :
    ∃ literal, text = literal ++ rest ∧ SpellsScalar maxDigits value literal := by
  unfold scanScalar at h
  split at h
  next tail =>
    split at h
    next => cases h
    next units rest hunits =>
      cases h
      obtain ⟨chars, rfl, hspells⟩ := scanUnits_sound hunits
      refine ⟨'\x22' :: (chars ++ ['\x22']), ?_, .string hspells⟩
      rw [List.cons_append, List.append_assoc, List.singleton_append]
  next =>
    split at h
    next scanned hconstant =>
      cases h
      obtain ⟨literal, htext, hspells⟩ := scanConstant_sound hconstant
      exact ⟨literal, htext, .constant hspells⟩
    next =>
      split at h
      next => cases h
      next parts rest hnumber =>
        split at h
        next => cases h
        next hshort =>
          cases h
          obtain ⟨htext, hvalid⟩ := scanNumber_sound hnumber
          exact ⟨_, htext, .number hvalid hshort⟩

/-! ### Arrays and objects -/

/-- The elements of an array from the first one on, and the text behind the closing bracket. -/
def scanElements (scan : List Char → Except JsonFailure (JsonValue × List Char)) :
    ℕ → List Char → Except JsonFailure (List JsonValue × List Char)
  | 0, _ => .error .decodeError
  | fuel + 1, text => do
    let scanned ← scan text
    match skipSpaces scanned.2 with
    | ']' :: rest => .ok ([scanned.1], rest)
    | ',' :: rest => do
      let more ← scanElements scan fuel (skipSpaces rest)
      return (scanned.1 :: more.1, more.2)
    | _ => .error .decodeError

/-- A key with its value. -/
def scanMember (scan : List Char → Except JsonFailure (JsonValue × List Char))
    (text : List Char) : Except JsonFailure ((CodePoints × JsonValue) × List Char) :=
  match text with
  | '\x22' :: rest =>
    match scanUnits rest with
    | none => .error .decodeError
    | some (units, rest) =>
      match skipSpaces rest with
      | ':' :: rest => do
        let scanned ← scan (skipSpaces rest)
        return ((joinSurrogates units, scanned.1), scanned.2)
      | _ => .error .decodeError
  | _ => .error .decodeError

/-- The members of an object from the first one on, and the text behind the closing brace. -/
def scanMembers (scan : List Char → Except JsonFailure (JsonValue × List Char)) :
    ℕ → List Char → Except JsonFailure (List (CodePoints × JsonValue) × List Char)
  | 0, _ => .error .decodeError
  | fuel + 1, text => do
    let member ← scanMember scan text
    match skipSpaces member.2 with
    | '\x7d' :: rest => .ok ([member.1], rest)
    | ',' :: rest => do
      let more ← scanMembers scan fuel (skipSpaces rest)
      return (member.1 :: more.1, more.2)
    | _ => .error .decodeError

/-- The value at the front of a text, and the text behind it. At most `depth` arrays and objects
stand in one another; every element and every member has a character of its own, so that the loops
end before their bound. -/
def scanValue (maxDigits : ℕ) : ℕ → List Char → Except JsonFailure (JsonValue × List Char)
  | depth, text =>
    match text with
    | '[' :: rest =>
      match depth with
      | 0 => .error .nestedTooDeeply
      | depth + 1 =>
        match skipSpaces rest with
        | ']' :: rest => .ok (.array [], rest)
        | body => do
          let elements ← scanElements (scanValue maxDigits depth) body.length body
          return (.array elements.1, elements.2)
    | '\x7b' :: rest =>
      match depth with
      | 0 => .error .nestedTooDeeply
      | depth + 1 =>
        match skipSpaces rest with
        | '\x7d' :: rest => .ok (.object [], rest)
        | body => do
          let members ← scanMembers (scanValue maxDigits depth) body.length body
          return (.object members.1, members.2)
    | _ => scanScalar maxDigits text

/-- The limits of a scanner. -/
structure JsonLimits where
  maxDigits : ℕ
  depth : ℕ
  deriving Repr, DecidableEq

/-- The value of a whole text. -/
def scanText (limits : JsonLimits) (text : List Char) : Except JsonFailure JsonValue := do
  let scanned ← scanValue limits.maxDigits limits.depth (skipSpaces text)
  match skipSpaces scanned.2 with
  | [] => .ok scanned.1
  | _ => .error .decodeError

section Grammar

variable (spells : JsonValue → List Char → Prop)

/-- The text of the elements of an array up to the closing bracket. -/
inductive SpellsElements : List JsonValue → List Char → Prop
  | last {element : JsonValue} {literal spaces : List Char} (h : spells element literal)
    (hspaces : Spaces spaces) : SpellsElements [element] (literal ++ (spaces ++ [']']))
  | cons {element : JsonValue} {elements : List JsonValue}
    {literal before after text : List Char} (h : spells element literal) (hbefore : Spaces before)
    (hafter : Spaces after) (hrest : SpellsElements elements text) :
    SpellsElements (element :: elements) (literal ++ (before ++ ',' :: (after ++ text)))

/-- The text of a key with its value. -/
inductive SpellsMember : CodePoints × JsonValue → List Char → Prop
  | mk {chars : List Char} {units : List ℕ} {value : JsonValue}
    {before after literal : List Char} (hkey : SpellsUnits chars units) (hbefore : Spaces before)
    (hafter : Spaces after) (h : spells value literal) :
    SpellsMember (joinSurrogates units, value)
      ('\x22' :: (chars ++ '\x22' :: (before ++ ':' :: (after ++ literal))))

/-- The text of the members of an object up to the closing brace. -/
inductive SpellsMembers : List (CodePoints × JsonValue) → List Char → Prop
  | last {member : CodePoints × JsonValue} {literal spaces : List Char}
    (h : SpellsMember spells member literal) (hspaces : Spaces spaces) :
    SpellsMembers [member] (literal ++ (spaces ++ ['\x7d']))
  | cons {member : CodePoints × JsonValue} {members : List (CodePoints × JsonValue)}
    {literal before after text : List Char} (h : SpellsMember spells member literal)
    (hbefore : Spaces before) (hafter : Spaces after) (hrest : SpellsMembers members text) :
    SpellsMembers (member :: members) (literal ++ (before ++ ',' :: (after ++ text)))

/-- The text of an array or of an object. -/
inductive SpellsNested : JsonValue → List Char → Prop
  | emptyArray {spaces : List Char} (hspaces : Spaces spaces) :
    SpellsNested (.array []) ('[' :: (spaces ++ [']']))
  | array {elements : List JsonValue} {spaces text : List Char} (hspaces : Spaces spaces)
    (h : SpellsElements spells elements text) :
    SpellsNested (.array elements) ('[' :: (spaces ++ text))
  | emptyObject {spaces : List Char} (hspaces : Spaces spaces) :
    SpellsNested (.object []) ('\x7b' :: (spaces ++ ['\x7d']))
  | object {members : List (CodePoints × JsonValue)} {spaces text : List Char}
    (hspaces : Spaces spaces) (h : SpellsMembers spells members text) :
    SpellsNested (.object members) ('\x7b' :: (spaces ++ text))

end Grammar

/-- The text of a value in which at most `depth` arrays and objects stand in one another. -/
def Spells (maxDigits : ℕ) : ℕ → JsonValue → List Char → Prop
  | 0 => SpellsScalar maxDigits
  | depth + 1 => fun value literal =>
    SpellsScalar maxDigits value literal ∨ SpellsNested (Spells maxDigits depth) value literal

/-- A text that has one value, with spaces around it. -/
def IsJsonText (limits : JsonLimits) (value : JsonValue) (text : List Char) : Prop :=
  ∃ before literal after, text = before ++ (literal ++ after) ∧ Spaces before ∧ Spaces after ∧
    Spells limits.maxDigits limits.depth value literal

theorem Spells.startsValue {maxDigits depth : ℕ} {value : JsonValue} {literal : List Char}
    (h : Spells maxDigits depth value literal) : StartsValue literal := by
  cases depth with
  | zero => exact SpellsScalar.startsValue h
  | succ depth =>
    rcases h with h | h
    · exact h.startsValue
    · cases h <;>
        exact ⟨nofun, fun _ heq => by cases heq; decide, fun _ heq => by cases heq; decide⟩

/-! ### Every spelled value is scanned -/

/-- The scan returns the values of the grammar. -/
def ScansAll (scan : List Char → Except JsonFailure (JsonValue × List Char))
    (spells : JsonValue → List Char → Prop) : Prop :=
  ∀ value literal rest, spells value literal → EndsNumber rest →
    scan (literal ++ rest) = .ok (value, rest)

theorem endsNumber_spaces_append {spaces rest : List Char} (hspaces : Spaces spaces)
    (hrest : EndsNumber rest) : EndsNumber (spaces ++ rest) := by
  cases spaces with
  | nil => exact hrest
  | cons character spaces =>
    intro other heq
    cases heq
    have hspace := hspaces character List.mem_cons_self
    simp only [isJsonSpace, Bool.or_eq_true, beq_iff_eq] at hspace
    clear hspaces
    rcases hspace with ((rfl | rfl) | rfl) | rfl <;> decide

theorem skipSpaces_literal {spaces literal rest : List Char} (hspaces : Spaces spaces)
    (hliteral : StartsValue literal) :
    skipSpaces (spaces ++ (literal ++ rest)) = literal ++ rest := by
  rw [skipSpaces_append hspaces]
  cases literal with
  | nil => exact absurd rfl hliteral.ne_nil
  | cons character literal => exact skipSpaces_cons (hliteral.notSpace character rfl)

theorem StartsValue.append {literal : List Char} (h : StartsValue literal) (rest : List Char) :
    StartsValue (literal ++ rest) := by
  cases literal with
  | nil => exact absurd rfl h.ne_nil
  | cons character literal => exact ⟨nofun, h.notSpace, h.notClosing⟩

theorem endsNumber_punctuation {character : Char} (rest : List Char)
    (h : character = ']' ∨ character = '\x7d' ∨ character = ',') :
    EndsNumber (character :: rest) := fun other heq => by
  cases heq
  rcases h with rfl | rfl | rfl <;> decide

section Complete

variable {scan : List Char → Except JsonFailure (JsonValue × List Char)}
  {spells : JsonValue → List Char → Prop}

theorem SpellsElements.startsValue
    (hstart : ∀ {value literal}, spells value literal → StartsValue literal)
    {elements : List JsonValue} {text : List Char} (h : SpellsElements spells elements text) :
    StartsValue text := by
  cases h with
  | last h => exact (hstart h).append _
  | cons h => exact (hstart h).append _

theorem SpellsElements.length_le {elements : List JsonValue} {text : List Char}
    (h : SpellsElements spells elements text) : elements.length ≤ text.length := by
  induction h with
  | last =>
    simp only [List.length_append, List.length_cons, List.length_nil]
    omega
  | cons _ _ _ _ ih =>
    simp only [List.length_append, List.length_cons]
    omega

theorem scanElements_append (hscan : ScansAll scan spells)
    (hstart : ∀ {value literal}, spells value literal → StartsValue literal)
    {elements : List JsonValue} {text : List Char} (h : SpellsElements spells elements text)
    {fuel : ℕ} (hfuel : elements.length ≤ fuel) (rest : List Char) :
    scanElements scan fuel (text ++ rest) = .ok (elements, rest) := by
  induction h generalizing fuel with
  | @last element literal spaces h hspaces =>
    obtain ⟨fuel, rfl⟩ := Nat.exists_eq_succ_of_ne_zero (Nat.ne_of_gt hfuel)
    have hends : EndsNumber (spaces ++ ([']'] ++ rest)) :=
      endsNumber_spaces_append hspaces (endsNumber_punctuation rest (.inl rfl))
    rw [List.append_assoc, List.append_assoc, scanElements, hscan _ _ _ h hends]
    simp only [ok_bind]
    rw [skipSpaces_append hspaces, List.singleton_append,
      skipSpaces_cons (show isJsonSpace ']' = false from by decide)]
    rfl
  | @cons element elements literal before after text h hbefore hafter hrest ih =>
    obtain ⟨fuel, rfl⟩ := Nat.exists_eq_succ_of_ne_zero
      (Nat.ne_of_gt (Nat.lt_of_lt_of_le (Nat.succ_pos _) hfuel))
    have hends : EndsNumber (before ++ (',' :: (after ++ text) ++ rest)) :=
      endsNumber_spaces_append hbefore (endsNumber_punctuation _ (.inr (.inr rfl)))
    rw [List.append_assoc, List.append_assoc, scanElements, hscan _ _ _ h hends]
    simp only [ok_bind]
    rw [skipSpaces_append hbefore, List.cons_append,
      skipSpaces_cons (show isJsonSpace ',' = false from by decide)]
    simp only
    rw [List.append_assoc, skipSpaces_literal hafter (hrest.startsValue hstart),
      ih (Nat.le_of_succ_le_succ hfuel)]
    rfl

theorem scanMember_append (hscan : ScansAll scan spells)
    (hstart : ∀ {value literal}, spells value literal → StartsValue literal)
    {member : CodePoints × JsonValue} {literal : List Char}
    (h : SpellsMember spells member literal) {rest : List Char} (hrest : EndsNumber rest) :
    scanMember scan (literal ++ rest) = .ok (member, rest) := by
  cases h with
  | @mk chars units value before after literal hkey hbefore hafter h =>
    simp only [List.cons_append, List.append_assoc, scanMember, scanUnits_append hkey]
    rw [skipSpaces_append hbefore, skipSpaces_cons (show isJsonSpace ':' = false from by decide)]
    simp only
    rw [skipSpaces_literal hafter (hstart h), hscan _ _ _ h hrest]
    rfl

theorem SpellsMember.startsValue {member : CodePoints × JsonValue} {literal : List Char}
    (h : SpellsMember spells member literal) : StartsValue literal := by
  cases h
  exact ⟨nofun, fun _ heq => by cases heq; decide, fun _ heq => by cases heq; decide⟩

theorem SpellsMembers.startsValue {members : List (CodePoints × JsonValue)} {text : List Char}
    (h : SpellsMembers spells members text) : StartsValue text := by
  cases h with
  | last h => exact h.startsValue.append _
  | cons h => exact h.startsValue.append _

theorem SpellsMembers.length_le {members : List (CodePoints × JsonValue)} {text : List Char}
    (h : SpellsMembers spells members text) : members.length ≤ text.length := by
  induction h with
  | last =>
    simp only [List.length_append, List.length_cons, List.length_nil]
    omega
  | cons _ _ _ _ ih =>
    simp only [List.length_append, List.length_cons]
    omega

theorem scanMembers_append (hscan : ScansAll scan spells)
    (hstart : ∀ {value literal}, spells value literal → StartsValue literal)
    {members : List (CodePoints × JsonValue)} {text : List Char}
    (h : SpellsMembers spells members text) {fuel : ℕ} (hfuel : members.length ≤ fuel)
    (rest : List Char) : scanMembers scan fuel (text ++ rest) = .ok (members, rest) := by
  induction h generalizing fuel with
  | @last member literal spaces h hspaces =>
    obtain ⟨fuel, rfl⟩ := Nat.exists_eq_succ_of_ne_zero (Nat.ne_of_gt hfuel)
    have hends : EndsNumber (spaces ++ (['\x7d'] ++ rest)) :=
      endsNumber_spaces_append hspaces (endsNumber_punctuation rest (.inr (.inl rfl)))
    rw [List.append_assoc, List.append_assoc, scanMembers, scanMember_append hscan hstart h hends]
    simp only [ok_bind]
    rw [skipSpaces_append hspaces, List.singleton_append,
      skipSpaces_cons (show isJsonSpace '\x7d' = false from by decide)]
    rfl
  | @cons member members literal before after text h hbefore hafter hrest ih =>
    obtain ⟨fuel, rfl⟩ := Nat.exists_eq_succ_of_ne_zero
      (Nat.ne_of_gt (Nat.lt_of_lt_of_le (Nat.succ_pos _) hfuel))
    have hends : EndsNumber (before ++ (',' :: (after ++ text) ++ rest)) :=
      endsNumber_spaces_append hbefore (endsNumber_punctuation _ (.inr (.inr rfl)))
    rw [List.append_assoc, List.append_assoc, scanMembers, scanMember_append hscan hstart h hends]
    simp only [ok_bind]
    rw [skipSpaces_append hbefore, List.cons_append,
      skipSpaces_cons (show isJsonSpace ',' = false from by decide)]
    simp only
    rw [List.append_assoc, skipSpaces_literal hafter hrest.startsValue,
      ih (Nat.le_of_succ_le_succ hfuel)]
    rfl

end Complete

/-- The first character of a string, a constant or a number is no opening bracket. -/
theorem SpellsScalar.notOpening {maxDigits : ℕ} {value : JsonValue} {literal : List Char}
    (h : SpellsScalar maxDigits value literal) {character : Char}
    (hhead : character ∈ literal.head?) : character ≠ '[' ∧ character ≠ '\x7b' := by
  cases h with
  | string => cases hhead; decide
  | constant h => cases h <;> cases hhead <;> decide
  | number hvalid =>
    obtain ⟨first, rest, hfirst, heq | heq⟩ := hvalid.render_eq
    · rw [heq] at hhead
      cases hhead
      constructor <;> rintro rfl <;> cases hfirst
    · rw [heq] at hhead
      cases hhead
      decide

theorem scanValue_scalar {maxDigits depth : ℕ} {value : JsonValue} {literal : List Char}
    (h : SpellsScalar maxDigits value literal) {rest : List Char} (hrest : EndsNumber rest) :
    scanValue maxDigits depth (literal ++ rest) = .ok (value, rest) := by
  have hscan := scanScalar_append h hrest
  cases literal with
  | nil => exact absurd rfl h.startsValue.ne_nil
  | cons character literal =>
    obtain ⟨hbracket, hbrace⟩ := h.notOpening rfl
    rw [scanValue.eq_def]
    dsimp only
    split
    next heq => exact absurd (List.cons.inj heq).1 hbracket
    next heq => exact absurd (List.cons.inj heq).1 hbrace
    next => exact hscan

/-- **Every value of the grammar is scanned.** -/
theorem scanValue_complete (maxDigits depth : ℕ) :
    ScansAll (scanValue maxDigits depth) (Spells maxDigits depth) := by
  induction depth with
  | zero => exact fun value literal rest h hrest => scanValue_scalar h hrest
  | succ depth ih =>
    intro value literal rest h hrest
    rcases h with h | h
    · exact scanValue_scalar h hrest
    · cases h with
      | @emptyArray spaces hspaces =>
        rw [scanValue.eq_def]
        simp only [List.cons_append, List.append_assoc, skipSpaces_append hspaces,
          skipSpaces_cons (show isJsonSpace ']' = false from by decide), List.nil_append]
      | @array elements spaces text hspaces h =>
        have hstart := h.startsValue Spells.startsValue
        have hskip : skipSpaces (spaces ++ (text ++ rest)) = text ++ rest :=
          skipSpaces_literal hspaces hstart
        have hlength := h.length_le
        rw [scanValue.eq_def]
        simp only [List.cons_append, List.append_assoc, hskip]
        split
        next tail heq =>
          cases text with
          | nil => exact absurd rfl hstart.ne_nil
          | cons character text =>
            cases heq
            exact absurd rfl (hstart.notClosing _ rfl).1
        next =>
          rw [scanElements_append ih Spells.startsValue h
            (hlength.trans (by rw [List.length_append]; omega))]
          rfl
      | @emptyObject spaces hspaces =>
        rw [scanValue.eq_def]
        simp only [List.cons_append, List.append_assoc, skipSpaces_append hspaces,
          skipSpaces_cons (show isJsonSpace '\x7d' = false from by decide), List.nil_append]
      | @object members spaces text hspaces h =>
        have hstart := h.startsValue
        have hskip : skipSpaces (spaces ++ (text ++ rest)) = text ++ rest :=
          skipSpaces_literal hspaces hstart
        have hlength := h.length_le
        rw [scanValue.eq_def]
        simp only [List.cons_append, List.append_assoc, hskip]
        split
        next tail heq =>
          cases text with
          | nil => exact absurd rfl hstart.ne_nil
          | cons character text =>
            cases heq
            exact absurd rfl (hstart.notClosing _ rfl).2
        next =>
          rw [scanMembers_append ih Spells.startsValue h
            (hlength.trans (by rw [List.length_append]; omega))]
          rfl

/-! ### Every scanned value is spelled -/

/-- What the scan returns is in the grammar. -/
def ScansOnly (scan : List Char → Except JsonFailure (JsonValue × List Char))
    (spells : JsonValue → List Char → Prop) : Prop :=
  ∀ text value rest, scan text = .ok (value, rest) →
    ∃ literal, text = literal ++ rest ∧ spells value literal

section Sound

variable {scan : List Char → Except JsonFailure (JsonValue × List Char)}
  {spells : JsonValue → List Char → Prop}

theorem scanElements_sound (hscan : ScansOnly scan spells) {fuel : ℕ} {text rest : List Char}
    {elements : List JsonValue} (h : scanElements scan fuel text = .ok (elements, rest)) :
    ∃ body, text = body ++ rest ∧ SpellsElements spells elements body := by
  induction fuel generalizing text elements with
  | zero => cases h
  | succ fuel ih =>
    rw [scanElements, bind_eq_ok_iff] at h
    obtain ⟨⟨element, tail⟩, helement, h⟩ := h
    obtain ⟨literal, rfl, hspells⟩ := hscan _ _ _ helement
    obtain ⟨before, hbefore, htail⟩ := exists_spaces tail
    split at h
    next left hskip =>
      cases h
      refine ⟨_, ?_, .last hspells hbefore⟩
      rw [hskip] at htail
      rw [htail, List.append_assoc, List.append_assoc, List.singleton_append]
    next left hskip =>
      obtain ⟨⟨more, final⟩, hmore, heq⟩ := bind_eq_ok_iff.mp h
      cases heq
      obtain ⟨body, hbody, hrest⟩ := ih hmore
      obtain ⟨after, hafter, hleft⟩ := exists_spaces left
      refine ⟨_, ?_, .cons hspells hbefore hafter hrest⟩
      rw [hskip] at htail
      rw [hbody] at hleft
      rw [htail, hleft]
      simp only [List.append_assoc, List.cons_append]
    next => cases h

theorem scanMember_sound (hscan : ScansOnly scan spells) {text rest : List Char}
    {member : CodePoints × JsonValue} (h : scanMember scan text = .ok (member, rest)) :
    ∃ literal, text = literal ++ rest ∧ SpellsMember spells member literal := by
  unfold scanMember at h
  split at h
  next tail =>
    split at h
    next => cases h
    next units left hunits =>
      obtain ⟨chars, rfl, hkey⟩ := scanUnits_sound hunits
      obtain ⟨before, hbefore, hleft⟩ := exists_spaces left
      split at h
      next behind hskip =>
        obtain ⟨⟨value, final⟩, hvalue, heq⟩ := bind_eq_ok_iff.mp h
        cases heq
        obtain ⟨literal, hliteral, hspells⟩ := hscan _ _ _ hvalue
        obtain ⟨after, hafter, hbehind⟩ := exists_spaces behind
        refine ⟨_, ?_, .mk hkey hbefore hafter hspells⟩
        rw [hskip] at hleft
        rw [hliteral] at hbehind
        rw [hleft, hbehind]
        simp only [List.append_assoc, List.cons_append]
      next => cases h
  next => cases h

theorem scanMembers_sound (hscan : ScansOnly scan spells) {fuel : ℕ} {text rest : List Char}
    {members : List (CodePoints × JsonValue)}
    (h : scanMembers scan fuel text = .ok (members, rest)) :
    ∃ body, text = body ++ rest ∧ SpellsMembers spells members body := by
  induction fuel generalizing text members with
  | zero => cases h
  | succ fuel ih =>
    rw [scanMembers, bind_eq_ok_iff] at h
    obtain ⟨⟨member, tail⟩, hmember, h⟩ := h
    obtain ⟨literal, rfl, hspells⟩ := scanMember_sound hscan hmember
    obtain ⟨before, hbefore, htail⟩ := exists_spaces tail
    split at h
    next left hskip =>
      cases h
      refine ⟨_, ?_, .last hspells hbefore⟩
      rw [hskip] at htail
      rw [htail, List.append_assoc, List.append_assoc, List.singleton_append]
    next left hskip =>
      obtain ⟨⟨more, final⟩, hmore, heq⟩ := bind_eq_ok_iff.mp h
      cases heq
      obtain ⟨body, hbody, hrest⟩ := ih hmore
      obtain ⟨after, hafter, hleft⟩ := exists_spaces left
      refine ⟨_, ?_, .cons hspells hbefore hafter hrest⟩
      rw [hskip] at htail
      rw [hbody] at hleft
      rw [htail, hleft]
      simp only [List.append_assoc, List.cons_append]
    next => cases h

end Sound

/-- **What is scanned is in the grammar.** -/
theorem scanValue_sound (maxDigits depth : ℕ) :
    ScansOnly (scanValue maxDigits depth) (Spells maxDigits depth) := by
  induction depth with
  | zero =>
    intro text value rest h
    rw [scanValue.eq_def] at h
    dsimp only at h
    split at h
    next => cases h
    next => cases h
    next => exact scanScalar_sound h
  | succ depth ih =>
    intro text value rest h
    rw [scanValue.eq_def] at h
    dsimp only at h
    split at h
    next tail =>
      obtain ⟨spaces, hspaces, htail⟩ := exists_spaces tail
      split at h
      next left hskip =>
        cases h
        refine ⟨_, ?_, .inr (.emptyArray hspaces)⟩
        rw [hskip] at htail
        rw [htail]
        simp only [List.append_assoc, List.cons_append, List.nil_append]
      next =>
        obtain ⟨⟨elements, final⟩, helements, heq⟩ := bind_eq_ok_iff.mp h
        cases heq
        obtain ⟨body, hbody, hspells⟩ := scanElements_sound ih helements
        refine ⟨_, ?_, .inr (.array hspaces hspells)⟩
        rw [hbody] at htail
        rw [htail]
        simp only [List.append_assoc, List.cons_append]
    next tail =>
      obtain ⟨spaces, hspaces, htail⟩ := exists_spaces tail
      split at h
      next left hskip =>
        cases h
        refine ⟨_, ?_, .inr (.emptyObject hspaces)⟩
        rw [hskip] at htail
        rw [htail]
        simp only [List.append_assoc, List.cons_append, List.nil_append]
      next =>
        obtain ⟨⟨members, final⟩, hmembers, heq⟩ := bind_eq_ok_iff.mp h
        cases heq
        obtain ⟨body, hbody, hspells⟩ := scanMembers_sound ih hmembers
        refine ⟨_, ?_, .inr (.object hspaces hspells)⟩
        rw [hbody] at htail
        rw [htail]
        simp only [List.append_assoc, List.cons_append]
    next =>
      obtain ⟨literal, htext, hspells⟩ := scanScalar_sound h
      exact ⟨literal, htext, .inl hspells⟩

theorem skipSpaces_eq_nil {text : List Char} (h : Spaces text) : skipSpaces text = [] :=
  List.dropWhile_eq_nil_iff.mpr h

/-- **The texts that are accepted, and their values.** -/
theorem scanText_eq_ok_iff {limits : JsonLimits} {text : List Char} {value : JsonValue} :
    scanText limits text = .ok value ↔ IsJsonText limits value text := by
  constructor
  · intro h
    obtain ⟨⟨scanned, rest⟩, hscan, h⟩ := bind_eq_ok_iff.mp h
    obtain ⟨literal, hliteral, hspells⟩ := scanValue_sound _ _ _ _ _ hscan
    obtain ⟨before, hbefore, htext⟩ := exists_spaces text
    split at h
    next hskip =>
      cases h
      exact ⟨before, literal, rest, hliteral ▸ htext, hbefore,
        fun character hmem => List.dropWhile_eq_nil_iff.mp hskip character hmem, hspells⟩
    next => cases h
  · rintro ⟨before, literal, after, rfl, hbefore, hafter, hspells⟩
    have hends : EndsNumber after := by
      have h := @endsNumber_spaces_append after [] hafter nofun
      rwa [List.append_nil] at h
    rw [scanText, skipSpaces_literal hbefore hspells.startsValue,
      scanValue_complete _ _ _ _ _ hspells hends, ok_bind, skipSpaces_eq_nil hafter]

/-! ### Limits -/

theorem SpellsMembers.imp {spells other : JsonValue → List Char → Prop}
    {members : List (CodePoints × JsonValue)} {text : List Char}
    (h : SpellsMembers spells members text)
    (himp : ∀ member ∈ members, ∀ literal, spells member.2 literal → other member.2 literal) :
    SpellsMembers other members text := by
  have hmember : ∀ {member : CodePoints × JsonValue} {literal : List Char},
      (∀ literal, spells member.2 literal → other member.2 literal) →
        SpellsMember spells member literal → SpellsMember other member literal := by
    rintro _ _ himp ⟨hkey, hbefore, hafter, h⟩
    exact .mk hkey hbefore hafter (himp _ h)
  induction h with
  | last h hspaces => exact .last (hmember (himp _ List.mem_cons_self) h) hspaces
  | cons h hbefore hafter _ ih =>
    exact .cons (hmember (himp _ List.mem_cons_self) h) hbefore hafter
      (ih fun other hother => himp other (List.mem_cons_of_mem _ hother))

/-- A value that is neither an array nor an object. -/
def JsonValue.IsScalar : JsonValue → Prop
  | .array _ => False
  | .object _ => False
  | _ => True

theorem SpellsScalar.isScalar {maxDigits : ℕ} {value : JsonValue} {literal : List Char}
    (h : SpellsScalar maxDigits value literal) : value.IsScalar := by
  cases h with
  | string => trivial
  | constant h => cases h <;> trivial
  | number =>
    unfold NumberParts.value
    split <;> trivial

theorem Spells.scalar {maxDigits depth : ℕ} {value : JsonValue} {literal : List Char}
    (hvalue : value.IsScalar) (h : Spells maxDigits depth value literal) :
    SpellsScalar maxDigits value literal := by
  cases depth with
  | zero => exact h
  | succ depth =>
    rcases h with h | h
    · exact h
    · cases h <;> exact hvalue.elim

theorem SpellsScalar.spells {maxDigits depth : ℕ} {value : JsonValue} {literal : List Char}
    (h : SpellsScalar maxDigits value literal) : Spells maxDigits depth value literal := by
  cases depth with
  | zero => exact h
  | succ depth => exact .inl h

/-- The limits of the nesting do not matter for an object of scalars. -/
theorem IsJsonText.object_of_scalars {limits other : JsonLimits}
    {members : List (CodePoints × JsonValue)} {text : List Char} (hdepth : 0 < other.depth)
    (hmembers : ∀ member ∈ members, member.2.IsScalar ∧ ∀ literal,
      SpellsScalar limits.maxDigits member.2 literal →
        SpellsScalar other.maxDigits member.2 literal)
    (h : IsJsonText limits (.object members) text) : IsJsonText other (.object members) text := by
  obtain ⟨before, literal, after, rfl, hbefore, hafter, h⟩ := h
  refine ⟨before, literal, after, rfl, hbefore, hafter, ?_⟩
  obtain ⟨depth, hother⟩ := Nat.exists_eq_succ_of_ne_zero (Nat.ne_of_gt hdepth)
  rw [hother]
  cases hlimit : limits.depth with
  | zero =>
    rw [hlimit] at h
    exact (SpellsScalar.isScalar h).elim
  | succ inner =>
    rw [hlimit] at h
    rcases h with h | h
    · exact h.isScalar.elim
    · cases h with
      | emptyObject hspaces => exact .inr (.emptyObject hspaces)
      | object hspaces h =>
        exact .inr (.object hspaces (h.imp fun member hmem literal hliteral =>
          ((hmembers member hmem).2 literal
            (Spells.scalar (hmembers member hmem).1 hliteral)).spells))

/-! ### The bounds of the loops -/

/-- A scan that returns has read something. -/
theorem length_lt_of_scanValue {maxDigits depth : ℕ} {text rest : List Char} {value : JsonValue}
    (h : scanValue maxDigits depth text = .ok (value, rest)) : rest.length < text.length := by
  obtain ⟨literal, rfl, hspells⟩ := scanValue_sound _ _ _ _ _ h
  rw [List.length_append]
  have hpos := List.length_pos_iff.mpr hspells.startsValue.ne_nil
  omega

theorem length_lt_of_scanMember {maxDigits depth : ℕ} {text rest : List Char}
    {member : CodePoints × JsonValue}
    (h : scanMember (scanValue maxDigits depth) text = .ok (member, rest)) :
    rest.length < text.length := by
  obtain ⟨literal, rfl, hspells⟩ := scanMember_sound (scanValue_sound maxDigits depth) h
  rw [List.length_append]
  have hpos := List.length_pos_iff.mpr hspells.startsValue.ne_nil
  omega

theorem length_skipSpaces_le (text : List Char) : (skipSpaces text).length ≤ text.length :=
  List.length_dropWhile_le _ _

/-- The bound of the loop over the elements is never met. -/
theorem scanElements_fuel {maxDigits depth fuel : ℕ} {text : List Char}
    (hfuel : text.length ≤ fuel) (more : ℕ) :
    scanElements (scanValue maxDigits depth) fuel text =
      scanElements (scanValue maxDigits depth) (fuel + more) text := by
  induction fuel generalizing text with
  | zero =>
    cases List.eq_nil_of_length_eq_zero (Nat.le_zero.mp hfuel)
    cases more with
    | zero => rfl
    | succ more => cases depth <;> rfl
  | succ fuel ih =>
    rw [Nat.add_right_comm, scanElements, scanElements]
    cases hscan : scanValue maxDigits depth text with
    | error failure => rfl
    | ok scanned =>
      obtain ⟨element, tail⟩ := scanned
      have hlt := length_lt_of_scanValue hscan
      have htail := length_skipSpaces_le tail
      simp only [ok_bind]
      split
      next => rfl
      next left hskip =>
        rw [hskip, List.length_cons] at htail
        have hleft := length_skipSpaces_le left
        rw [ih (by omega)]
      next => rfl

/-- The bound of the loop over the members is never met. -/
theorem scanMembers_fuel {maxDigits depth fuel : ℕ} {text : List Char}
    (hfuel : text.length ≤ fuel) (more : ℕ) :
    scanMembers (scanValue maxDigits depth) fuel text =
      scanMembers (scanValue maxDigits depth) (fuel + more) text := by
  induction fuel generalizing text with
  | zero =>
    cases List.eq_nil_of_length_eq_zero (Nat.le_zero.mp hfuel)
    cases more with
    | zero => rfl
    | succ more => rfl
  | succ fuel ih =>
    rw [Nat.add_right_comm, scanMembers, scanMembers]
    cases hscan : scanMember (scanValue maxDigits depth) text with
    | error failure => rfl
    | ok scanned =>
      obtain ⟨member, tail⟩ := scanned
      have hlt := length_lt_of_scanMember hscan
      have htail := length_skipSpaces_le tail
      simp only [ok_bind]
      split
      next => rfl
      next left hskip =>
        rw [hskip, List.length_cons] at htail
        have hleft := length_skipSpaces_le left
        rw [ih (by omega)]
      next => rfl

end MagpieTts.Library
