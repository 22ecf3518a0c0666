import Mathlib.Data.List.Perm.Subperm
import MagpieTts.Library.FieldTable
import MagpieTts.Library.JsonRecord
import MagpieTts.Library.JsonScanner
import Mathlib.Algebra.Group.Nat.Defs

/-!
# The request lines of the front-end server

`_request` of `japanese_frontend_server.py` turns a line into the identifier and the text of a
request. The parser of the interpreter accepts more than the protocol: of repeated members the last
counts, `true` and a fraction that rounds to one are equal to one, an escape may stand for half of a
surrogate pair, and an integer of too many digits or a value that is nested too deeply raises an
exception that `_request` does not expect.

## Main definitions

* `request`: `_request`.
* `StrictRequest`: the lines of the protocol.
* `ExactRequest`: what the protocol asks of a line.
* `LeavesProtocol`: the lines for which the parser or the encoder does more than the protocol.

## Main results

* `request_eq_ok_iff`: the lines that are accepted.
* `exactRequest_iff`: the protocol is kept on the other lines and on no more.
-/

namespace MagpieTts.Frontend

open MagpieTts.Library

/-! ### Values of the interpreter -/

/-- A decimal fraction rounds to the number one: it lies between the middles of one and of its
neighbours, where the tie goes to one. -/
def roundsToOne (digits : ℕ) : ℤ → Bool
  | .ofNat exponent =>
    2 ^ 54 - 1 ≤ digits * 10 ^ exponent * 2 ^ 54 && digits * 10 ^ exponent * 2 ^ 53 ≤ 2 ^ 53 + 1
  | .negSucc exponent =>
    (2 ^ 54 - 1) * 10 ^ (exponent + 1) ≤ digits * 2 ^ 54 &&
      digits * 2 ^ 53 ≤ (2 ^ 53 + 1) * 10 ^ (exponent + 1)

/-- `value == 1`. -/
def equalsOne : JsonValue → Bool
  | .boolean value => value
  | .integer value => value == 1
  | .float (.decimal false digits exponent) => roundsToOne digits exponent
  | _ => false

/-- `value[key]` of the mapping that the members make: of repeated keys the last counts. -/
def lastValue (members : List (CodePoints × JsonValue)) (key : CodePoints) : Option JsonValue :=
  members.reverse.lookup key

/-! ### The request -/

/-- What `_request` raises. -/
inductive ServerException
  | protocolError (message : String)
  /-- `int` of too many digits. -/
  | valueError
  | recursionError
  | unicodeEncodeError
  deriving Repr, DecidableEq

def requestKeys : List CodePoints :=
  [codePoints "schema_version", codePoints "request_id", codePoints "text"]

/-- `set(value) == {"schema_version", "request_id", "text"}`. -/
def HasRequestKeys (members : List (CodePoints × JsonValue)) : Prop :=
  (∀ member ∈ members, member.1 ∈ requestKeys) ∧
    ∀ key ∈ requestKeys, key ∈ members.map Prod.fst

instance (members : List (CodePoints × JsonValue)) : Decidable (HasRequestKeys members) :=
  inferInstanceAs (Decidable (_ ∧ _))

/-- The checks of `request_id` and `text`. -/
def requestStrings : Option JsonValue → Option JsonValue →
    Except ServerException (CodePoints × CodePoints)
  | some (.string requestId), text =>
    if requestId = [] then .error (.protocolError "request_id must be a non-empty string")
    else if 0 ∈ requestId then
      .error (.protocolError "request_id exceeds the transport contract")
    else
      match encodePoints requestId with
      | none => .error .unicodeEncodeError
      | some bytes =>
        if 256 < bytes.length then
          .error (.protocolError "request_id exceeds the transport contract")
        else
          match text with
          | some (.string text) => .ok (requestId, text)
          | _ => .error (.protocolError "text must be a string")
  | _, _ => .error (.protocolError "request_id must be a non-empty string")

/-- The checks of the members. -/
def requestMembers (members : List (CodePoints × JsonValue)) :
    Except ServerException (CodePoints × CodePoints) :=
  if ¬ HasRequestKeys members then
    .error (.protocolError "request fields must be schema_version, request_id, and text")
  else if ¬ (lastValue members (codePoints "schema_version")).any equalsOne then
    .error (.protocolError "request schema_version must be 1")
  else
    requestStrings (lastValue members (codePoints "request_id"))
      (lastValue members (codePoints "text"))

/-- `_request`. A byte order mark in front of the text is no value. -/
def request (limits : JsonLimits) (line : Bytes) :
    Except ServerException (CodePoints × CodePoints) :=
  if line.getLast? ≠ some 0x0a then .error (.protocolError "request line must end with LF")
  else
    match decodeUtf8 line with
    | none => .error (.protocolError "request must be one strict UTF-8 JSON object")
    | some text =>
      match scanText limits text with
      | .error .decodeError =>
        .error (.protocolError "request must be one strict UTF-8 JSON object")
      | .error .integerTooLong => .error .valueError
      | .error .nestedTooDeeply => .error .recursionError
      | .ok (.object members) => requestMembers members
      | .ok _ =>
        .error (.protocolError "request fields must be schema_version, request_id, and text")

/-! ### The protocol -/

/-- The members of a request, each once. -/
def strictMembers (requestId text : CodePoints) : List (CodePoints × JsonValue) :=
  [(codePoints "schema_version", .integer 1), (codePoints "request_id", .string requestId),
    (codePoints "text", .string text)]

/-- An identifier of the protocol. -/
structure ValidRequestId (requestId : CodePoints) : Prop where
  ne_nil : requestId ≠ []
  noNul : 0 ∉ requestId
  bounded : ∃ bytes, encodePoints requestId = some bytes ∧ bytes.length ≤ 256

/-- The line ends with a line feed and is the encoding of one JSON object with the three members. -/
structure StrictRequest (line : Bytes) (requestId text : CodePoints) : Prop where
  feed : line.getLast? = some 0x0a
  object : ∃ limits chars members, decodeUtf8 line = some chars ∧
    IsJsonText limits (.object members) chars ∧ members.Perm (strictMembers requestId text)
  requestId : ValidRequestId requestId

/-- What the protocol asks of `_request` on a line. -/
structure ExactRequest (limits : JsonLimits) (line : Bytes) : Prop where
  accepted : ∀ requestId text,
    request limits line = .ok (requestId, text) ↔ StrictRequest line requestId text
  refused : ∀ exception, request limits line = .error exception →
    ∃ message, exception = .protocolError message

/-- The members pass for a request but are none: a key is repeated, or the version is equal to one
and no integer. -/
def PassesAsRequest (members : List (CodePoints × JsonValue)) : Prop :=
  HasRequestKeys members ∧
    (lastValue members (codePoints "schema_version")).any equalsOne = true ∧
      (∃ requestId text, lastValue members (codePoints "request_id") = some (.string requestId) ∧
        ValidRequestId requestId ∧
          lastValue members (codePoints "text") = some (.string text)) ∧
        (members.length ≠ 3 ∨
          lastValue members (codePoints "schema_version") ≠ some (.integer 1))

/-- The members are those of a request up to an identifier that has no encoding. -/
def HasUnencodableId (members : List (CodePoints × JsonValue)) : Prop :=
  HasRequestKeys members ∧
    (lastValue members (codePoints "schema_version")).any equalsOne = true ∧
      ∃ requestId, lastValue members (codePoints "request_id") = some (.string requestId) ∧
        requestId ≠ [] ∧ 0 ∉ requestId ∧ encodePoints requestId = none

/-- The lines for which the parser or the encoder does more than the protocol. -/
def LeavesProtocol (limits : JsonLimits) (line : Bytes) : Prop :=
  line.getLast? = some 0x0a ∧ ∃ chars, decodeUtf8 line = some chars ∧
    (scanText limits chars = .error .integerTooLong ∨
      scanText limits chars = .error .nestedTooDeeply ∨
        ∃ members, scanText limits chars = .ok (.object members) ∧
          (HasUnencodableId members ∨ PassesAsRequest members))

/-! ### Members -/

theorem requestStrings_eq_ok_iff {first second : Option JsonValue} {requestId text : CodePoints} :
    requestStrings first second = .ok (requestId, text) ↔
      first = some (.string requestId) ∧ ValidRequestId requestId ∧
        second = some (.string text) := by
  constructor
  · intro h
    unfold requestStrings at h
    split at h
    next found =>
      split at h
      next => cases h
      next hne =>
        split at h
        next => cases h
        next hnul =>
          split at h
          next => cases h
          next bytes hbytes =>
            split at h
            next => cases h
            next hlength =>
              split at h
              next =>
                cases h
                exact ⟨rfl, ⟨hne, hnul, bytes, hbytes, Nat.le_of_not_lt hlength⟩, rfl⟩
              next => cases h
    next => cases h
  · rintro ⟨rfl, ⟨hne, hnul, bytes, hbytes, hlength⟩, rfl⟩
    rw [requestStrings, if_neg hne, if_neg hnul, hbytes]
    exact if_neg (Nat.not_lt.mpr hlength)

/-- The exceptions of the checks. -/
theorem requestStrings_eq_error {first second : Option JsonValue} {exception : ServerException}
    (h : requestStrings first second = .error exception) :
    (∃ message, exception = .protocolError message) ∨
      exception = .unicodeEncodeError ∧ ∃ requestId, first = some (.string requestId) ∧
        requestId ≠ [] ∧ 0 ∉ requestId ∧ encodePoints requestId = none := by
  unfold requestStrings at h
  split at h
  next found =>
    split at h
    next => cases h; exact .inl ⟨_, rfl⟩
    next hne =>
      split at h
      next => cases h; exact .inl ⟨_, rfl⟩
      next hnul =>
        split at h
        next hnone => cases h; exact .inr ⟨rfl, found, rfl, hne, hnul, hnone⟩
        next =>
          split at h
          next => cases h; exact .inl ⟨_, rfl⟩
          next =>
            split at h
            next => cases h
            next => cases h; exact .inl ⟨_, rfl⟩
  next => cases h; exact .inl ⟨_, rfl⟩

/-- **The members that are accepted.** -/
theorem requestMembers_eq_ok_iff {members : List (CodePoints × JsonValue)}
    {requestId text : CodePoints} :
    requestMembers members = .ok (requestId, text) ↔ HasRequestKeys members ∧
      (lastValue members (codePoints "schema_version")).any equalsOne = true ∧
        lastValue members (codePoints "request_id") = some (.string requestId) ∧
          ValidRequestId requestId ∧
            lastValue members (codePoints "text") = some (.string text) := by
  constructor
  · intro h
    unfold requestMembers at h
    split at h
    next => cases h
    next hkeys =>
      split at h
      next => cases h
      next hversion =>
        exact ⟨not_not.mp hkeys, not_not.mp hversion, requestStrings_eq_ok_iff.mp h⟩
  · rintro ⟨hkeys, hversion, h⟩
    rw [requestMembers, if_neg (not_not.mpr hkeys), if_neg (not_not.mpr hversion)]
    exact requestStrings_eq_ok_iff.mpr h

/-- The members that raise an exception beside the protocol. -/
theorem requestMembers_eq_error {members : List (CodePoints × JsonValue)}
    {exception : ServerException} (h : requestMembers members = .error exception) :
    (∃ message, exception = .protocolError message) ∨ HasUnencodableId members := by
  unfold requestMembers at h
  split at h
  next => cases h; exact .inl ⟨_, rfl⟩
  next hkeys =>
    split at h
    next => cases h; exact .inl ⟨_, rfl⟩
    next hversion =>
      rcases requestStrings_eq_error h with hprotocol | ⟨-, hid⟩
      · exact .inl hprotocol
      · exact .inr ⟨not_not.mp hkeys, not_not.mp hversion, hid⟩

theorem requestMembers_of_unencodable {members : List (CodePoints × JsonValue)}
    (h : HasUnencodableId members) : requestMembers members = .error .unicodeEncodeError := by
  obtain ⟨hkeys, hversion, requestId, hid, hne, hnul, hnone⟩ := h
  rw [requestMembers, if_neg (not_not.mpr hkeys), if_neg (not_not.mpr hversion), hid]
  unfold requestStrings
  dsimp only
  rw [if_neg hne, if_neg hnul, hnone]

theorem nodup_requestKeys : requestKeys.Nodup := by decide

/-- Three members with the keys of a request have each key once. -/
theorem perm_requestKeys {members : List (CodePoints × JsonValue)}
    (hkeys : HasRequestKeys members) (hlength : members.length = 3) :
    (members.map Prod.fst).Perm requestKeys := by
  refine ((nodup_requestKeys.subperm hkeys.2).perm_of_length_le ?_).symm
  rw [List.length_map, hlength]
  exact Nat.le_refl 3

/-- With distinct keys a value is found where it is. -/
theorem lastValue_eq_some_iff {members : List (CodePoints × JsonValue)}
    (hnodup : (members.map Prod.fst).Nodup) {key : CodePoints} {value : JsonValue} :
    lastValue members key = some value ↔ (key, value) ∈ members := by
  rw [lastValue, lookup_eq_some_iff_mem (by rwa [List.map_reverse, List.nodup_reverse]),
    List.mem_reverse]

/-- **The members of the protocol** are those that are accepted, three of them, with the integer
one. -/
theorem perm_strictMembers_iff {members : List (CodePoints × JsonValue)}
    {requestId text : CodePoints} :
    members.Perm (strictMembers requestId text) ↔ HasRequestKeys members ∧ members.length = 3 ∧
      lastValue members (codePoints "schema_version") = some (.integer 1) ∧
        lastValue members (codePoints "request_id") = some (.string requestId) ∧
          lastValue members (codePoints "text") = some (.string text) := by
  constructor
  · intro h
    have hfst : (members.map Prod.fst).Perm requestKeys := h.map Prod.fst
    have hnodup : (members.map Prod.fst).Nodup := hfst.nodup_iff.mpr nodup_requestKeys
    refine ⟨⟨fun member hmem => hfst.subset (List.mem_map_of_mem hmem),
      fun key hkey => hfst.symm.subset hkey⟩, h.length_eq, ?_, ?_, ?_⟩ <;>
      rw [lastValue_eq_some_iff hnodup]
    · exact h.symm.subset (List.mem_cons_self)
    · exact h.symm.subset (List.mem_cons_of_mem _ List.mem_cons_self)
    · exact h.symm.subset (List.mem_cons_of_mem _ (List.mem_cons_of_mem _ List.mem_cons_self))
  · rintro ⟨hkeys, hlength, hversion, hid, htext⟩
    have hnodup : (members.map Prod.fst).Nodup :=
      (perm_requestKeys hkeys hlength).nodup_iff.mpr nodup_requestKeys
    rw [lastValue_eq_some_iff hnodup] at hversion hid htext
    have hstrict : (strictMembers requestId text).Nodup :=
      List.Nodup.of_map Prod.fst nodup_requestKeys
    refine ((hstrict.subperm ?_).perm_of_length_le ?_).symm
    · intro member hmem
      simp only [strictMembers, List.mem_cons, List.not_mem_nil, or_false] at hmem
      rcases hmem with rfl | rfl | rfl
      · exact hversion
      · exact hid
      · exact htext
    · exact hlength.le

/-! ### The integer one -/

theorem le_decimalValue_foldl (digits : List Char) (value : ℕ) :
    value * 10 ^ digits.length ≤
      digits.foldl (fun value digit => value * 10 + (digit.toNat - 0x30)) value := by
  induction digits generalizing value with
  | nil => rw [List.length_nil, Nat.pow_zero, Nat.mul_one]; exact Nat.le_refl value
  | cons digit digits ih =>
    rw [List.length_cons, List.foldl_cons]
    refine Nat.le_trans ?_ (ih _)
    rw [Nat.pow_succ', ← Nat.mul_assoc]
    exact Nat.mul_le_mul_right _ (Nat.le_add_right _ _)

/-- The integer one has one digit. -/
theorem length_whole_of_one {parts : NumberParts} (hvalid : parts.Valid)
    (h : parts.value = .integer 1) : parts.whole.length = 1 := by
  unfold NumberParts.value at h
  split at h
  next =>
    have hone : decimalValue parts.whole = 1 := by
      have hvalue := JsonValue.integer.inj h
      split at hvalue <;> omega
    rcases hvalid.whole with hzero | ⟨first, rest, hwhole, hfirst, hne, -⟩
    · rw [hzero]
      rfl
    · rw [hwhole] at hone ⊢
      have hpos : 1 ≤ first.toNat - 0x30 := by
        simp only [Char.isDigit, Bool.and_eq_true, decide_eq_true_eq] at hfirst
        have hle : ('0').toNat ≤ first.toNat := UInt32.le_iff_toNat_le.mp hfirst.1
        have hlt : ('0').toNat < first.toNat :=
          Nat.lt_of_le_of_ne hle fun heq => hne (Char.toNat_inj.mp heq.symm)
        have hzero : ('0').toNat = 0x30 := rfl
        omega
      have hle := le_decimalValue_foldl rest (first.toNat - 0x30)
      have hvalue : decimalValue (first :: rest) =
          rest.foldl (fun value digit => value * 10 + (digit.toNat - 0x30))
            (first.toNat - 0x30) := by
        rw [decimalValue, List.foldl_cons, Nat.zero_mul, Nat.zero_add]
      rw [← hvalue, hone] at hle
      have hpow : 10 ^ rest.length ≤ 1 :=
        Nat.le_trans (Nat.le_mul_of_pos_left _ hpos) hle
      have hnil : rest.length = 0 := by
        by_contra hrest
        have hten : 10 ^ 1 ≤ 10 ^ rest.length :=
          Nat.pow_le_pow_right (by omega) (by omega)
        omega
      rw [List.length_cons, hnil]
  next => cases h

/-- A member of a request is a scalar with the same texts under every limit. -/
theorem strictMembers_scalar {requestId text : CodePoints} {limits : JsonLimits}
    (hdigits : 0 < limits.maxDigits) {other : ℕ} {member : CodePoints × JsonValue}
    (hmem : member ∈ strictMembers requestId text) :
    member.2.IsScalar ∧ ∀ literal, SpellsScalar other member.2 literal →
      SpellsScalar limits.maxDigits member.2 literal := by
  have hstring : ∀ {found : CodePoints} {literal : List Char},
      SpellsScalar other (.string found) literal →
        SpellsScalar limits.maxDigits (.string found) literal := by
    intro found literal h
    generalize hvalue : JsonValue.string found = value at h
    cases h with
    | string h => exact .string h
    | constant h => exact .constant h
    | number =>
      unfold NumberParts.value at hvalue
      split at hvalue <;> cases hvalue
  simp only [strictMembers, List.mem_cons, List.not_mem_nil, or_false] at hmem
  rcases hmem with rfl | rfl | rfl
  · refine ⟨trivial, fun literal h => ?_⟩
    generalize hvalue : JsonValue.integer 1 = value at h
    change SpellsScalar limits.maxDigits value literal
    cases h with
    | string h => cases hvalue
    | constant h => exact .constant h
    | number hvalid =>
      have hlength := length_whole_of_one hvalid hvalue.symm
      exact .number hvalid fun htoo => by
        have hlong := htoo.2.2
        omega
  · exact ⟨trivial, fun _ h => hstring h⟩
  · exact ⟨trivial, fun _ h => hstring h⟩

/-- What is scanned of a line of the protocol. -/
theorem StrictRequest.scanned {limits : JsonLimits} (hdepth : 0 < limits.depth)
    (hdigits : 0 < limits.maxDigits) {line : Bytes} {requestId text : CodePoints}
    (h : StrictRequest line requestId text) :
    ∃ chars members, decodeUtf8 line = some chars ∧
      scanText limits chars = .ok (.object members) ∧
        members.Perm (strictMembers requestId text) := by
  obtain ⟨other, chars, members, hdecode, htext, hperm⟩ := h.object
  refine ⟨chars, members, hdecode, scanText_eq_ok_iff.mpr ?_, hperm⟩
  exact htext.object_of_scalars hdepth fun member hmem =>
    strictMembers_scalar hdigits (hperm.subset hmem)

/-! ### The lines -/

/-- **The lines that are accepted.** -/
theorem request_eq_ok_iff {limits : JsonLimits} {line : Bytes} {requestId text : CodePoints} :
    request limits line = .ok (requestId, text) ↔ line.getLast? = some 0x0a ∧
      ∃ chars members, decodeUtf8 line = some chars ∧
        scanText limits chars = .ok (.object members) ∧
          requestMembers members = .ok (requestId, text) := by
  constructor
  · intro h
    unfold request at h
    split at h
    next => cases h
    next hfeed =>
      split at h
      next => cases h
      next chars hchars =>
        split at h
        next => cases h
        next => cases h
        next => cases h
        next members hmembers => exact ⟨not_not.mp hfeed, chars, members, hchars, hmembers, h⟩
        next => cases h
  · rintro ⟨hfeed, chars, members, hchars, hmembers, h⟩
    rw [request, if_neg (not_not.mpr hfeed), hchars]
    dsimp only
    rw [hmembers]
    exact h

/-- The exceptions that the protocol does not have. -/
theorem request_eq_error {limits : JsonLimits} {line : Bytes} {exception : ServerException}
    (h : request limits line = .error exception) :
    (∃ message, exception = .protocolError message) ∨ LeavesProtocol limits line := by
  unfold request at h
  split at h
  next => cases h; exact .inl ⟨_, rfl⟩
  next hfeed =>
    split at h
    next => cases h; exact .inl ⟨_, rfl⟩
    next chars hchars =>
      split at h
      next => cases h; exact .inl ⟨_, rfl⟩
      next hlong => exact .inr ⟨not_not.mp hfeed, chars, hchars, .inl hlong⟩
      next hdeep => exact .inr ⟨not_not.mp hfeed, chars, hchars, .inr (.inl hdeep)⟩
      next members hmembers =>
        rcases requestMembers_eq_error h with hprotocol | hid
        · exact .inl hprotocol
        · exact .inr ⟨not_not.mp hfeed, chars, hchars, .inr (.inr ⟨members, hmembers, .inl hid⟩)⟩
      next => cases h; exact .inl ⟨_, rfl⟩

theorem StrictRequest.request_eq_ok {limits : JsonLimits} (hdepth : 0 < limits.depth)
    (hdigits : 0 < limits.maxDigits) {line : Bytes} {requestId text : CodePoints}
    (h : StrictRequest line requestId text) : request limits line = .ok (requestId, text) := by
  obtain ⟨chars, members, hchars, hmembers, hperm⟩ := h.scanned hdepth hdigits
  obtain ⟨hkeys, -, hversion, hid, htext⟩ := perm_strictMembers_iff.mp hperm
  refine request_eq_ok_iff.mpr ⟨h.feed, chars, members, hchars, hmembers,
    requestMembers_eq_ok_iff.mpr ⟨hkeys, ?_, hid, h.requestId, htext⟩⟩
  rw [hversion]
  rfl

/-- **Where the protocol is kept.** A line is parsed as the protocol asks unless it leaves it: the
parser meets an integer that is too long or values that are nested too deeply, a member is repeated,
the version is equal to one and no integer, or the identifier has half of a surrogate pair. -/
theorem exactRequest_iff {limits : JsonLimits} (hdepth : 0 < limits.depth)
    (hdigits : 0 < limits.maxDigits) (line : Bytes) :
    ExactRequest limits line ↔ ¬ LeavesProtocol limits line := by
  constructor
  · rintro hexact ⟨hfeed, chars, hchars, hscan | hscan | ⟨members, hscan, hid | hpasses⟩⟩
    · have herror : request limits line = .error .valueError := by
        rw [request, if_neg (not_not.mpr hfeed), hchars]
        dsimp only
        rw [hscan]
      obtain ⟨message, hmessage⟩ := hexact.refused _ herror
      cases hmessage
    · have herror : request limits line = .error .recursionError := by
        rw [request, if_neg (not_not.mpr hfeed), hchars]
        dsimp only
        rw [hscan]
      obtain ⟨message, hmessage⟩ := hexact.refused _ herror
      cases hmessage
    · have herror : request limits line = .error .unicodeEncodeError := by
        rw [request, if_neg (not_not.mpr hfeed), hchars]
        dsimp only
        rw [hscan]
        exact requestMembers_of_unencodable hid
      obtain ⟨message, hmessage⟩ := hexact.refused _ herror
      cases hmessage
    · obtain ⟨hkeys, hone, ⟨requestId, text, hid, hvalid, htext⟩, hlax⟩ := hpasses
      have hrequest := requestMembers_eq_ok_iff.mpr ⟨hkeys, hone, hid, hvalid, htext⟩
      have hstrict := (hexact.accepted requestId text).mp
        (request_eq_ok_iff.mpr ⟨hfeed, chars, members, hchars, hscan, hrequest⟩)
      obtain ⟨chars', members', hchars', hscan', hperm⟩ := hstrict.scanned hdepth hdigits
      cases hchars.symm.trans hchars'
      cases hscan.symm.trans hscan'
      obtain ⟨-, hlength, hversion, -⟩ := perm_strictMembers_iff.mp hperm
      exact hlax.elim (fun h => h hlength) fun h => h hversion
  · intro hnot
    refine ⟨fun requestId text => ⟨fun h => ?_, fun h => h.request_eq_ok hdepth hdigits⟩,
      fun exception h => (request_eq_error h).resolve_right hnot⟩
    obtain ⟨hfeed, chars, members, hchars, hscan, hmembers⟩ := request_eq_ok_iff.mp h
    obtain ⟨hkeys, hone, hid, hvalid, htext⟩ := requestMembers_eq_ok_iff.mp hmembers
    have hlax : ¬ (members.length ≠ 3 ∨
        lastValue members (codePoints "schema_version") ≠ some (.integer 1)) := fun hlax =>
      hnot ⟨hfeed, chars, hchars, .inr (.inr ⟨members, hscan, .inr
        ⟨hkeys, hone, ⟨requestId, text, hid, hvalid, htext⟩, hlax⟩⟩)⟩
    rw [not_or, not_not, not_not] at hlax
    exact ⟨hfeed, ⟨limits, chars, members, hchars, scanText_eq_ok_iff.mp hscan,
      perm_strictMembers_iff.mpr ⟨hkeys, hlax.1, hlax.2, hid, htext⟩⟩, hvalid⟩

end MagpieTts.Frontend
