import Mathlib.Data.Nat.Notation
import MagpieTts.Library.BitFields
import MagpieTts.Library.ExceptRules

/-!
# Validation of UTF-8 text

Texts that cross the API are accepted only when they are well-formed UTF-8. The validator reads a
lead byte, the number of continuation bytes that it announces, and rejects the code points that
have a shorter encoding or none.

## Main definitions

* `isValidUtf8`: the validator, with reads that fail behind the end of the text.

## Main results

* `isValidUtf8_exact`: the validator reads inside the text only, and accepts exactly the
  concatenations of encoded Unicode scalar values.
-/

namespace MagpieTts.Api

open MagpieTts.Library

/-- A read behind the end of a text. -/
structure OutOfBounds where
  index : ℕ
  deriving Repr, DecidableEq

/-- `static_cast<unsigned char>(text[index])`, promoted to 32 bits. -/
def readByte (text : List UInt8) (index : ℕ) : Except OutOfBounds (BitVec 32) :=
  match text[index]? with
  | some byte => .ok (byte.toBitVec.setWidth 32)
  | none => .error ⟨index⟩

/-- What a lead byte above `0x7F` announces: the number of continuation bytes and the bits of the
code point that it holds. -/
def leadFields (lead : BitVec 32) : Option (ℕ × BitVec 32) :=
  if lead &&& 0xE0#32 = 0xC0#32 then
    if lead &&& 0x1F#32 = 0#32 then none else some (1, lead &&& 0x1F#32)
  else if lead &&& 0xF0#32 = 0xE0#32 then some (2, lead &&& 0x0F#32)
  else if lead &&& 0xF8#32 = 0xF0#32 then some (3, lead &&& 0x07#32)
  else none

/-- The loop over the offsets of the continuation bytes; none when one of them is no continuation
byte. -/
def readContinuations (text : List UInt8) (index : ℕ) :
    List ℕ → BitVec 32 → Except OutOfBounds (Option (BitVec 32))
  | [], codePoint => .ok (some codePoint)
  | offset :: rest, codePoint => do
    let continuation ← readByte text (index + offset)
    if continuation &&& 0xC0#32 ≠ 0x80#32 then return none
    else readContinuations text index rest (codePoint <<< 6 ||| continuation &&& 0x3F#32)

/-- The test that rejects a code point. -/
def rejectsCodePoint (continuationCount : ℕ) (codePoint : BitVec 32) : Bool :=
  (continuationCount == 1 && codePoint < 0x80#32) ||
    (continuationCount == 2 && codePoint < 0x800#32) ||
    (continuationCount == 3 && codePoint < 0x10000#32) ||
    0x10FFFF#32 < codePoint ||
    (0xD800#32 ≤ codePoint && codePoint ≤ 0xDFFF#32)

/-- One pass of the loop of `is_valid_utf8`: the number of continuation bytes of the character at
`index`, or none when the text is rejected. -/
def utf8Step (text : List UInt8) (index : ℕ) : Except OutOfBounds (Option ℕ) := do
  let lead ← readByte text index
  if lead ≤ 0x7F#32 then return some 0
  else
    match leadFields lead with
    | none => return none
    | some (continuationCount, leadBits) =>
      if continuationCount > text.length - index - 1 then return none
      else
        match ← readContinuations text index (List.range' 1 continuationCount) leadBits with
        | none => return none
        | some codePoint =>
          if rejectsCodePoint continuationCount codePoint then return none
          else return some continuationCount

/-- The loop of `is_valid_utf8` from a position on. -/
def isValidUtf8From (text : List UInt8) (index : ℕ) : Except OutOfBounds Bool :=
  if index < text.length then do
    match ← utf8Step text index with
    | none => return false
    | some continuationCount => isValidUtf8From text (index + (continuationCount + 1))
  else .ok true
termination_by text.length - index

/-- `is_valid_utf8`. -/
def isValidUtf8 (text : List UInt8) : Except OutOfBounds Bool := isValidUtf8From text 0

/-! ### Bits of a byte -/

/-- The value of a byte as the validator reads it. -/
abbrev byteWord (byte : UInt8) : BitVec 32 := byte.toBitVec.setWidth 32

theorem toNat_byteWord (byte : UInt8) : (byteWord byte).toNat = byte.toNat := by
  have hlt := byte.toBitVec.isLt
  rw [byteWord, BitVec.toNat_setWidth, Nat.mod_eq_of_lt (Nat.lt_trans hlt (by decide))]
  rfl

/-- The classes of bytes. -/
theorem byte_classes : ∀ byte : BitVec 8,
    (byte.setWidth 32 &&& 0xE0#32 = 0xC0#32 ↔ 192 ≤ byte.toNat ∧ byte.toNat < 224) ∧
    (byte.setWidth 32 &&& 0xF0#32 = 0xE0#32 ↔ 224 ≤ byte.toNat ∧ byte.toNat < 240) ∧
    (byte.setWidth 32 &&& 0xF8#32 = 0xF0#32 ↔ 240 ≤ byte.toNat ∧ byte.toNat < 248) ∧
    (byte.setWidth 32 &&& 0xC0#32 = 0x80#32 ↔ 128 ≤ byte.toNat ∧ byte.toNat < 192) := by
  decide +kernel

theorem isContinuation_iff (byte : UInt8) :
    byteWord byte &&& 0xC0#32 = 0x80#32 ↔ 128 ≤ byte.toNat ∧ byte.toNat < 192 :=
  (byte_classes byte.toBitVec).2.2.2

/-- A continuation byte appends its six bits to the code point. -/
theorem toNat_append_continuation {codePoint : BitVec 32} (byte : UInt8)
    (hlt : codePoint.toNat < 2 ^ 26) :
    (codePoint <<< 6 ||| byteWord byte &&& 0x3F#32).toNat =
      codePoint.toNat * 64 + byte.toNat % 64 := by
  have hmask : (0x3F#32).toNat = 2 ^ 6 - 1 := rfl
  have hlow : (byteWord byte &&& 0x3F#32).toNat = byte.toNat % 2 ^ 6 := by
    rw [toNat_and_mask hmask, toNat_byteWord]
  have hsize : 2 ^ 6 = 64 := rfl
  rw [toNat_or_shiftLeft (by rw [hlow]; exact Nat.mod_lt _ (by decide)) (by omega), hlow, hsize]

/-- The announcement of a lead byte above `0x7F`, from its value. -/
def announced (lead : ℕ) : Option (ℕ × ℕ) :=
  if 192 < lead ∧ lead < 224 then some (1, lead % 32)
  else if 224 ≤ lead ∧ lead < 240 then some (2, lead % 16)
  else if 240 ≤ lead ∧ lead < 248 then some (3, lead % 8)
  else none

theorem leadFields_eq_announced : ∀ byte : BitVec 8,
    (leadFields (byte.setWidth 32)).map (fun fields => (fields.1, fields.2.toNat)) =
      announced byte.toNat := by
  decide +kernel

theorem announced_le {lead continuationCount bits : ℕ}
    (h : announced lead = some (continuationCount, bits)) :
    continuationCount ≤ 3 ∧ bits < 32 := by
  simp only [announced] at h
  split at h
  · cases h
    exact ⟨by decide, Nat.mod_lt _ (by decide)⟩
  · split at h
    · cases h
      exact ⟨by decide, by omega⟩
    · split at h
      · cases h
        exact ⟨by decide, by omega⟩
      · cases h

/-! ### One character -/

section Step

variable {text : List UInt8}

theorem readByte_of_drop {index : ℕ} {byte : UInt8} {rest : List UInt8}
    (h : text.drop index = byte :: rest) : readByte text index = .ok (byteWord byte) := by
  have hget : text[index]? = some byte := by
    have := congrArg List.head? h
    rwa [List.head?_drop] at this
  rw [readByte, hget]

theorem drop_succ_of_drop {index : ℕ} {byte : UInt8} {rest : List UInt8}
    (h : text.drop index = byte :: rest) : text.drop (index + 1) = rest := by
  rw [← List.drop_drop, h, List.drop_succ_cons, List.drop_zero]

/-- A byte is a continuation byte. -/
def IsContinuation (byte : UInt8) : Prop := 128 ≤ byte.toNat ∧ byte.toNat < 192

/-- The code point that continuation bytes complete. -/
def appendContinuations (value : ℕ) (bytes : List UInt8) : ℕ :=
  bytes.foldl (fun value byte => value * 64 + byte.toNat % 64) value

/-- The loop over the continuation bytes, when all of them are in the text. -/
theorem readContinuations_spec {index offset count : ℕ} {codePoint : BitVec 32}
    {rest : List UInt8} (hrest : text.drop (index + offset) = rest) (hcount : count ≤ rest.length)
    (hbound : (codePoint.toNat + 1) * 64 ^ count ≤ 2 ^ 32) :
    (∃ value : BitVec 32, (∀ byte ∈ rest.take count, IsContinuation byte) ∧
      readContinuations text index (List.range' offset count) codePoint = .ok (some value) ∧
        value.toNat = appendContinuations codePoint.toNat (rest.take count)) ∨
    (¬ (∀ byte ∈ rest.take count, IsContinuation byte) ∧
      readContinuations text index (List.range' offset count) codePoint = .ok none) := by
  induction count generalizing offset codePoint rest with
  | zero => exact .inl ⟨codePoint, by simp, rfl, rfl⟩
  | succ count ih =>
    obtain _ | ⟨byte, rest⟩ := rest
    · cases hcount
    have hread : readByte text (index + offset) = .ok (byteWord byte) := readByte_of_drop hrest
    have hnext : text.drop (index + (offset + 1)) = rest := drop_succ_of_drop hrest
    have hpass : readContinuations text index (List.range' offset (count + 1)) codePoint =
        if byteWord byte &&& 0xC0#32 ≠ 0x80#32 then .ok none
        else readContinuations text index (List.range' (offset + 1) count)
          (codePoint <<< 6 ||| byteWord byte &&& 0x3F#32) := by
      rw [List.range'_succ, readContinuations, hread]
      rfl
    rw [hpass, List.take_succ_cons, List.forall_mem_cons]
    by_cases hbyte : IsContinuation byte
    · have hpower : (codePoint.toNat + 1) * 64 ^ (count + 1) =
          (codePoint.toNat + 1) * 64 * 64 ^ count := by
        rw [Nat.pow_succ, Nat.mul_comm (64 ^ count), Nat.mul_assoc]
      have hone : 1 ≤ 64 ^ count := Nat.pow_pos (by decide)
      have hsmall : (codePoint.toNat + 1) * 64 ≤ 2 ^ 32 := by
        rw [hpower] at hbound
        exact Nat.le_trans (Nat.le_mul_of_pos_right _ hone) hbound
      have hvalue := toNat_append_continuation byte (show codePoint.toNat < 2 ^ 26 by omega)
      have hstep : (codePoint.toNat * 64 + byte.toNat % 64 + 1) * 64 ^ count ≤ 2 ^ 32 := by
        rw [hpower] at hbound
        refine Nat.le_trans (Nat.mul_le_mul_right _ ?_) hbound
        have := Nat.mod_lt byte.toNat (show 0 < 64 by decide)
        omega
      have hrun := ih hnext (Nat.le_of_succ_le_succ hcount) (by rw [hvalue]; exact hstep)
      rw [hvalue] at hrun
      rw [if_neg (not_not.mpr ((isContinuation_iff byte).mpr hbyte))]
      rcases hrun with ⟨value, hall, hok, htotal⟩ | ⟨hnot, hok⟩
      · exact .inl ⟨value, ⟨hbyte, hall⟩, hok, htotal⟩
      · exact .inr ⟨fun hall => hnot hall.2, hok⟩
    · have htest : byteWord byte &&& 0xC0#32 ≠ 0x80#32 :=
        fun heq => hbyte ((isContinuation_iff byte).mp heq)
      refine .inr ⟨fun hall => hbyte hall.1, ?_⟩
      exact if_pos htest

/-- The code points that a character with a number of continuation bytes may have. -/
def AcceptsValue (continuationCount value : ℕ) : Prop :=
  (continuationCount = 1 → 0x80 ≤ value) ∧ (continuationCount = 2 → 0x800 ≤ value) ∧
    (continuationCount = 3 → 0x10000 ≤ value) ∧ value ≤ 0x10FFFF ∧
    (value < 0xD800 ∨ 0xDFFF < value)

theorem rejectsCodePoint_eq_false_iff {continuationCount : ℕ} {codePoint : BitVec 32} :
    rejectsCodePoint continuationCount codePoint = false ↔
      AcceptsValue continuationCount codePoint.toNat := by
  simp only [rejectsCodePoint, AcceptsValue, Bool.or_eq_false_iff, Bool.and_eq_false_iff,
    beq_eq_false_iff_ne, decide_eq_false_iff_not, BitVec.lt_def, BitVec.le_def,
    BitVec.toNat_ofNat]
  omega

/-- What makes a pass accept the character that begins with `lead`. -/
def AcceptsCharacter (lead : UInt8) (rest : List UInt8) (continuationCount : ℕ) : Prop :=
  (lead.toNat ≤ 0x7F ∧ continuationCount = 0) ∨
    ∃ bits, 0x7F < lead.toNat ∧ announced lead.toNat = some (continuationCount, bits) ∧
      continuationCount ≤ rest.length ∧
      (∀ byte ∈ rest.take continuationCount, IsContinuation byte) ∧
      AcceptsValue continuationCount (appendContinuations bits (rest.take continuationCount))

/-- One pass never reads behind the text, and it accepts as stated. -/
theorem utf8Step_spec {index : ℕ} {lead : UInt8} {rest : List UInt8}
    (h : text.drop index = lead :: rest) :
    ∃ result, utf8Step text index = .ok result ∧
      ∀ continuationCount, result = some continuationCount ↔
        AcceptsCharacter lead rest continuationCount := by
  have hlength : text.length - index - 1 = rest.length := by
    have hdrop := congrArg List.length h
    rw [List.length_drop, List.length_cons] at hdrop
    omega
  have hascii : byteWord lead ≤ 0x7F#32 ↔ lead.toNat ≤ 0x7F := by
    rw [BitVec.le_def, toNat_byteWord]
    rfl
  rw [utf8Step, readByte_of_drop h]
  by_cases hlead : lead.toNat ≤ 0x7F
  · refine ⟨some 0, if_pos (hascii.mpr hlead), fun continuationCount => ?_⟩
    constructor
    · intro hsome
      exact .inl ⟨hlead, (Option.some.inj hsome).symm⟩
    · rintro (⟨-, rfl⟩ | ⟨bits, hnot, -⟩)
      · rfl
      · omega
  · have hpass : ∀ continuationCount, AcceptsCharacter lead rest continuationCount ↔
        ∃ bits, announced lead.toNat = some (continuationCount, bits) ∧
          continuationCount ≤ rest.length ∧
          (∀ byte ∈ rest.take continuationCount, IsContinuation byte) ∧
          AcceptsValue continuationCount
            (appendContinuations bits (rest.take continuationCount)) := by
      intro continuationCount
      constructor
      · rintro (⟨hle, -⟩ | ⟨bits, -, hrest⟩)
        · exact absurd hle hlead
        · exact ⟨bits, hrest⟩
      · rintro ⟨bits, hrest⟩
        exact .inr ⟨bits, Nat.lt_of_not_le hlead, hrest⟩
    simp only [hpass]
    have hannounced := leadFields_eq_announced lead.toBitVec
    change (leadFields (byteWord lead)).map _ = announced lead.toNat at hannounced
    rw [← hannounced]
    show ∃ result, (if byteWord lead ≤ 0x7F#32 then _ else _) = Except.ok result ∧ _
    rw [if_neg fun hle => hlead (hascii.mp hle)]
    cases hfields : leadFields (byteWord lead) with
    | none => exact ⟨none, rfl, fun _ => ⟨nofun, fun ⟨_, hsome, _⟩ => nomatch hsome⟩⟩
    | some fields =>
      obtain ⟨count, leadBits⟩ := fields
      rw [hfields] at hannounced
      obtain ⟨hthree, hbits⟩ := announced_le hannounced.symm
      have honly : ∀ {continuationCount bits}, Option.map (fun fields : ℕ × BitVec 32 =>
          (fields.1, fields.2.toNat)) (some (count, leadBits)) = some (continuationCount, bits) →
          continuationCount = count ∧ bits = leadBits.toNat := by
        intro continuationCount bits hsome
        cases hsome
        exact ⟨rfl, rfl⟩
      dsimp only
      rw [hlength]
      by_cases hfits : count ≤ rest.length
      · rw [if_neg (Nat.not_lt.mpr hfits)]
        have hnext : text.drop (index + 1) = rest := drop_succ_of_drop h
        have hbound : (leadBits.toNat + 1) * 64 ^ count ≤ 2 ^ 32 :=
          Nat.le_trans (Nat.mul_le_mul (Nat.succ_le_of_lt hbits)
            (Nat.pow_le_pow_right (by decide) hthree)) (by decide)
        rcases readContinuations_spec hnext hfits hbound with
          ⟨value, hall, hread, hvalue⟩ | ⟨hnot, hread⟩
        · rw [hread]
          have haccepts : rejectsCodePoint count value = false ↔
              AcceptsValue count (appendContinuations leadBits.toNat (rest.take count)) := by
            rw [rejectsCodePoint_eq_false_iff, hvalue]
          by_cases hrejects : rejectsCodePoint count value = true
          · refine ⟨none, if_pos hrejects, fun continuationCount => ⟨nofun, ?_⟩⟩
            rintro ⟨bits, hsome, -, -, haccepted⟩
            obtain ⟨rfl, rfl⟩ := honly hsome
            rw [haccepts.mpr haccepted] at hrejects
            cases hrejects
          · refine ⟨some count, if_neg hrejects, fun continuationCount => ?_⟩
            constructor
            · intro hsome
              obtain rfl := Option.some.inj hsome
              exact ⟨leadBits.toNat, rfl, hfits, hall,
                haccepts.mp (Bool.not_eq_true _ ▸ hrejects)⟩
            · rintro ⟨bits, hsome, -⟩
              rw [(honly hsome).1]
        · rw [hread]
          refine ⟨none, rfl, fun continuationCount => ⟨nofun, ?_⟩⟩
          rintro ⟨bits, hsome, -, hall, -⟩
          obtain ⟨rfl, -⟩ := honly hsome
          exact absurd hall hnot
      · rw [if_pos (Nat.lt_of_not_le hfits)]
        refine ⟨none, rfl, fun continuationCount => ⟨nofun, ?_⟩⟩
        rintro ⟨bits, hsome, hle, -⟩
        obtain ⟨rfl, -⟩ := honly hsome
        exact absurd hle hfits

end Step

/-! ### Characters -/

/-- The character of a code point that is a Unicode scalar value. -/
theorem exists_char (value : ℕ) (h : value ≤ 0x10FFFF) (hscalar : value < 0xD800 ∨ 0xDFFF < value) :
    ∃ scalar : Char, scalar.val.toNat = value := by
  have hvalid : value.isValidChar := by
    rw [Nat.isValidChar]
    omega
  exact ⟨Char.ofNatAux value hvalid, rfl⟩

theorem scalar_bounds (scalar : Char) : scalar.val.toNat ≤ 0x10FFFF ∧
    (scalar.val.toNat < 0xD800 ∨ 0xDFFF < scalar.val.toNat) := by
  have hvalid : scalar.val.toNat.isValidChar := scalar.valid
  rw [Nat.isValidChar] at hvalid
  omega

theorem ofNat_eq_iff {value : ℕ} (byte : UInt8) (h : value < 256) :
    UInt8.ofNat value = byte ↔ byte.toNat = value := by
  rw [← UInt8.toNat_inj, UInt8.toNat_ofNat', Nat.mod_eq_of_lt h]
  exact eq_comm

theorem utf8EncodeChar_one {scalar : Char} (h : scalar.val.toNat ≤ 0x7F) :
    String.utf8EncodeChar scalar = [UInt8.ofNat scalar.val.toNat] := by
  rw [String.utf8EncodeChar, if_pos h]

theorem utf8EncodeChar_two {scalar : Char} (hlower : 0x80 ≤ scalar.val.toNat)
    (hupper : scalar.val.toNat < 0x800) :
    String.utf8EncodeChar scalar = [UInt8.ofNat (scalar.val.toNat / 64 % 0x20 + 0xC0),
      UInt8.ofNat (scalar.val.toNat % 0x40 + 0x80)] := by
  rw [String.utf8EncodeChar, if_neg (by omega), if_pos (by omega)]

theorem utf8EncodeChar_three {scalar : Char} (hlower : 0x800 ≤ scalar.val.toNat)
    (hupper : scalar.val.toNat < 0x10000) :
    String.utf8EncodeChar scalar = [UInt8.ofNat (scalar.val.toNat / 4096 % 0x10 + 0xE0),
      UInt8.ofNat (scalar.val.toNat / 64 % 0x40 + 0x80),
      UInt8.ofNat (scalar.val.toNat % 0x40 + 0x80)] := by
  rw [String.utf8EncodeChar, if_neg (by omega), if_neg (by omega), if_pos (by omega)]

theorem utf8EncodeChar_four {scalar : Char} (hlower : 0x10000 ≤ scalar.val.toNat) :
    String.utf8EncodeChar scalar = [UInt8.ofNat (scalar.val.toNat / 262144 % 0x08 + 0xF0),
      UInt8.ofNat (scalar.val.toNat / 4096 % 0x40 + 0x80),
      UInt8.ofNat (scalar.val.toNat / 64 % 0x40 + 0x80),
      UInt8.ofNat (scalar.val.toNat % 0x40 + 0x80)] := by
  rw [String.utf8EncodeChar, if_neg (by omega), if_neg (by omega), if_neg (by omega)]

/-- What an accepted character is, by the number of its bytes. -/
theorem acceptsCharacter_cases {lead : UInt8} {rest : List UInt8} {continuationCount : ℕ}
    (h : AcceptsCharacter lead rest continuationCount) :
    ∃ scalar : Char, (String.utf8EncodeChar scalar).length = continuationCount + 1 ∧
      String.utf8EncodeChar scalar ++ rest.drop continuationCount = lead :: rest := by
  rcases h with ⟨hle, rfl⟩ | ⟨bits, -, hannounced, hlength, hall, haccepts⟩
  · obtain ⟨scalar, hscalar⟩ := exists_char lead.toNat (by omega) (by omega)
    refine ⟨scalar, ?_⟩
    rw [utf8EncodeChar_one (by omega), hscalar]
    exact ⟨rfl, by rw [(ofNat_eq_iff lead (by omega)).mpr rfl]; rfl⟩
  · obtain ⟨hone, htwo, hthree, hmaximum, hsurrogate⟩ := haccepts
    rw [announced] at hannounced
    split at hannounced
    next hlead =>
      cases hannounced
      obtain _ | ⟨first, rest⟩ := rest
      · cases hlength
      obtain ⟨scalar, hscalar⟩ := exists_char _ hmaximum hsurrogate
      have hfirst : IsContinuation first := hall first (by simp)
      simp only [IsContinuation, List.take_succ_cons, List.take_zero, appendContinuations,
        List.foldl_cons, List.foldl_nil, forall_const] at hfirst hscalar hone
      refine ⟨scalar, ?_⟩
      rw [utf8EncodeChar_two (by omega) (by omega)]
      refine ⟨rfl, ?_⟩
      rw [(ofNat_eq_iff lead (by omega)).mpr (by omega),
        (ofNat_eq_iff first (by omega)).mpr (by omega)]
      rfl
    next =>
    split at hannounced
    next hlead =>
      cases hannounced
      obtain _ | ⟨first, _ | ⟨second, rest⟩⟩ := rest
      · cases hlength
      · exact absurd hlength (by simp)
      obtain ⟨scalar, hscalar⟩ := exists_char _ hmaximum hsurrogate
      have hfirst : IsContinuation first := hall first (by simp)
      have hsecond : IsContinuation second := hall second (by simp)
      simp only [IsContinuation, List.take_succ_cons, List.take_zero, appendContinuations,
        List.foldl_cons, List.foldl_nil, forall_const] at hfirst hsecond hscalar htwo
      refine ⟨scalar, ?_⟩
      rw [utf8EncodeChar_three (by omega) (by omega)]
      refine ⟨rfl, ?_⟩
      rw [(ofNat_eq_iff lead (by omega)).mpr (by omega),
        (ofNat_eq_iff first (by omega)).mpr (by omega),
        (ofNat_eq_iff second (by omega)).mpr (by omega)]
      rfl
    next =>
    split at hannounced
    next hlead =>
      cases hannounced
      obtain _ | ⟨first, _ | ⟨second, _ | ⟨third, rest⟩⟩⟩ := rest
      · cases hlength
      · exact absurd hlength (by simp)
      · exact absurd hlength (by simp)
      obtain ⟨scalar, hscalar⟩ := exists_char _ hmaximum hsurrogate
      have hfirst : IsContinuation first := hall first (by simp)
      have hsecond : IsContinuation second := hall second (by simp)
      have hthird : IsContinuation third := hall third (by simp)
      simp only [IsContinuation, List.take_succ_cons, List.take_zero, appendContinuations,
        List.foldl_cons, List.foldl_nil, forall_const] at hfirst hsecond hthird hscalar hthree
      refine ⟨scalar, ?_⟩
      rw [utf8EncodeChar_four (by omega)]
      refine ⟨rfl, ?_⟩
      rw [(ofNat_eq_iff lead (by omega)).mpr (by omega),
        (ofNat_eq_iff first (by omega)).mpr (by omega),
        (ofNat_eq_iff second (by omega)).mpr (by omega),
        (ofNat_eq_iff third (by omega)).mpr (by omega)]
      rfl
    next => cases hannounced

theorem acceptsCharacter_two {lead first : UInt8} {value : ℕ} (suffix : List UInt8)
    (hlower : 0x80 ≤ value) (hupper : value < 0x800)
    (hlead : lead.toNat = value / 64 % 0x20 + 0xC0) (hfirst : first.toNat = value % 0x40 + 0x80) :
    AcceptsCharacter lead (first :: suffix) 1 := by
  have hbits : announced lead.toNat = some (1, lead.toNat % 32) := if_pos (by omega)
  refine .inr ⟨_, by omega, hbits, by simp, ?_, ?_⟩
  · intro byte hbyte
    obtain rfl : byte = first := by simpa using hbyte
    rw [IsContinuation]
    omega
  · simp only [List.take_succ_cons, List.take_zero, appendContinuations, List.foldl_cons,
      List.foldl_nil, AcceptsValue]
    omega

theorem acceptsCharacter_three {lead first second : UInt8} {value : ℕ} (suffix : List UInt8)
    (hlower : 0x800 ≤ value) (hupper : value < 0x10000)
    (hsurrogate : value < 0xD800 ∨ 0xDFFF < value)
    (hlead : lead.toNat = value / 4096 % 0x10 + 0xE0)
    (hfirst : first.toNat = value / 64 % 0x40 + 0x80)
    (hsecond : second.toNat = value % 0x40 + 0x80) :
    AcceptsCharacter lead (first :: second :: suffix) 2 := by
  have hbits : announced lead.toNat = some (2, lead.toNat % 16) :=
    (if_neg (by omega)).trans (if_pos (by omega))
  refine .inr ⟨_, by omega, hbits, by simp, ?_, ?_⟩
  · intro byte hbyte
    have hbyte : byte = first ∨ byte = second := by simpa using hbyte
    rw [IsContinuation]
    rcases hbyte with rfl | rfl <;> omega
  · simp only [List.take_succ_cons, List.take_zero, appendContinuations, List.foldl_cons,
      List.foldl_nil, AcceptsValue]
    omega

theorem acceptsCharacter_four {lead first second third : UInt8} {value : ℕ} (suffix : List UInt8)
    (hlower : 0x10000 ≤ value) (hupper : value ≤ 0x10FFFF)
    (hlead : lead.toNat = value / 262144 % 0x08 + 0xF0)
    (hfirst : first.toNat = value / 4096 % 0x40 + 0x80)
    (hsecond : second.toNat = value / 64 % 0x40 + 0x80)
    (hthird : third.toNat = value % 0x40 + 0x80) :
    AcceptsCharacter lead (first :: second :: third :: suffix) 3 := by
  have hbits : announced lead.toNat = some (3, lead.toNat % 8) :=
    (if_neg (by omega)).trans ((if_neg (by omega)).trans (if_pos (by omega)))
  refine .inr ⟨_, by omega, hbits, by simp, ?_, ?_⟩
  · intro byte hbyte
    have hbyte : byte = first ∨ byte = second ∨ byte = third := by simpa using hbyte
    rw [IsContinuation]
    rcases hbyte with rfl | rfl | rfl <;> omega
  · simp only [List.take_succ_cons, List.take_zero, appendContinuations, List.foldl_cons,
      List.foldl_nil, AcceptsValue]
    omega

/-- An encoded scalar value is accepted, with the number of its bytes. -/
theorem acceptsCharacter_of_encode {lead : UInt8} {rest suffix : List UInt8} (scalar : Char)
    (h : String.utf8EncodeChar scalar ++ suffix = lead :: rest) :
    ∃ continuationCount, AcceptsCharacter lead rest continuationCount ∧
      suffix = rest.drop continuationCount := by
  obtain ⟨hmaximum, hsurrogate⟩ := scalar_bounds scalar
  rcases Nat.lt_or_ge scalar.val.toNat 0x80 with hone | hone
  · rw [utf8EncodeChar_one (by omega)] at h
    obtain ⟨hlead, rfl⟩ := List.cons.inj h
    have hvalue := (ofNat_eq_iff lead (by omega)).mp hlead
    exact ⟨0, .inl ⟨by omega, rfl⟩, rfl⟩
  rcases Nat.lt_or_ge scalar.val.toNat 0x800 with htwo | htwo
  · rw [utf8EncodeChar_two hone htwo] at h
    obtain ⟨hlead, rfl⟩ := List.cons.inj h
    exact ⟨1, acceptsCharacter_two suffix hone htwo ((ofNat_eq_iff _ (by omega)).mp hlead)
      ((ofNat_eq_iff _ (by omega)).mp rfl), rfl⟩
  rcases Nat.lt_or_ge scalar.val.toNat 0x10000 with hthree | hthree
  · rw [utf8EncodeChar_three htwo hthree] at h
    obtain ⟨hlead, rfl⟩ := List.cons.inj h
    exact ⟨2, acceptsCharacter_three suffix htwo hthree hsurrogate
      ((ofNat_eq_iff _ (by omega)).mp hlead) ((ofNat_eq_iff _ (by omega)).mp rfl)
      ((ofNat_eq_iff _ (by omega)).mp rfl), rfl⟩
  · rw [utf8EncodeChar_four hthree] at h
    obtain ⟨hlead, rfl⟩ := List.cons.inj h
    exact ⟨3, acceptsCharacter_four suffix hthree hmaximum
      ((ofNat_eq_iff _ (by omega)).mp hlead) ((ofNat_eq_iff _ (by omega)).mp rfl)
      ((ofNat_eq_iff _ (by omega)).mp rfl) ((ofNat_eq_iff _ (by omega)).mp rfl), rfl⟩

/-! ### Main result -/

section Run

variable {text : List UInt8}

/-- From every position inside the text the validator returns, and it accepts what follows exactly
when it is a concatenation of encoded scalar values. -/
theorem isValidUtf8From_spec (index : ℕ) :
    ∃ accepted, isValidUtf8From text index = .ok accepted ∧
      (accepted = true ↔ ∃ scalars : List Char,
        scalars.flatMap String.utf8EncodeChar = text.drop index) := by
  fun_induction isValidUtf8From text index with
  | case1 index hlt ih =>
    obtain ⟨lead, rest, hdrop⟩ := List.exists_cons_of_length_pos
      (show 0 < (text.drop index).length by rw [List.length_drop]; omega)
    obtain ⟨result, hstep, haccepts⟩ := utf8Step_spec hdrop
    rw [hstep]
    cases result with
    | none =>
      refine ⟨false, rfl, nofun, ?_⟩
      rintro ⟨scalars, hscalars⟩
      rw [hdrop] at hscalars
      cases scalars with
      | nil => cases hscalars
      | cons scalar scalars =>
        obtain ⟨continuationCount, haccepted, -⟩ := acceptsCharacter_of_encode scalar hscalars
        cases (haccepts continuationCount).mpr haccepted
    | some continuationCount =>
      obtain ⟨accepted, hrest, hexact⟩ := ih continuationCount
      refine ⟨accepted, hrest, hexact.trans ?_⟩
      have hnext : text.drop (index + (continuationCount + 1)) = rest.drop continuationCount := by
        rw [← List.drop_drop, hdrop, List.drop_succ_cons]
      rw [hnext, hdrop]
      constructor
      · rintro ⟨scalars, hscalars⟩
        obtain ⟨scalar, -, hencode⟩ := acceptsCharacter_cases ((haccepts _).mp rfl)
        exact ⟨scalar :: scalars, by rw [List.flatMap_cons, hscalars, hencode]⟩
      · rintro ⟨scalars, hscalars⟩
        cases scalars with
        | nil => cases hscalars
        | cons scalar scalars =>
          obtain ⟨other, haccepted, hsuffix⟩ := acceptsCharacter_of_encode scalar hscalars
          obtain rfl := Option.some.inj ((haccepts other).mpr haccepted)
          exact ⟨scalars, hsuffix⟩
  | case2 index hge =>
    refine ⟨true, rfl, fun _ => ⟨[], ?_⟩, fun _ => rfl⟩
    rw [List.drop_eq_nil_of_le (by omega)]
    rfl

/-- For every text: the validator returns without reading behind its end, and it accepts the text
exactly when it is a concatenation of encoded Unicode scalar values. -/
theorem isValidUtf8_exact (text : List UInt8) :
    ∃ accepted, isValidUtf8 text = .ok accepted ∧
      (accepted = true ↔ ∃ scalars : List Char,
        scalars.flatMap String.utf8EncodeChar = text) :=
  isValidUtf8From_spec 0

end Run

end MagpieTts.Api
