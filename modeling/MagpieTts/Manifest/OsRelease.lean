import Mathlib.Data.List.DropRight
import MagpieTts.Library.FieldTable
import MagpieTts.Library.TextLines

/-!
# The operating system of the host

The packager and the runtime each read the identity of the host from its `os-release` file.
`parse_os_release` of `package_runtime_bundle.py` decodes the file, cuts it at every line boundary
and strips the lines; `collect_linux_distribution_fingerprint` of `fingerprint.cpp` reads bytes up
to line feeds and takes them as they are. The packager accepts more files, and the two may read
different values.

## Main definitions

* `collectLinuxDistributionFingerprint`: the reader of the runtime.
* `parseOsRelease`: the reader of the packager.
* `StrictOsRelease`: the files whose lines have nothing but what the runtime accepts.

## Main results

* `readsSameIdentity_iff`: of the files that the packager accepts, exactly the strict ones are read
  by the runtime with the same result.
-/

namespace MagpieTts.Manifest

open MagpieTts.Library

/-! ### The reader of the runtime -/

inductive RuntimeFingerprintStage
  | operatingSystem
  | architecture
  | cudaRuntime
  | cublasRuntime
  | tensorrtRuntime
  | nvidiaDriver
  | cudaDevice
  deriving DecidableEq

structure RuntimeFingerprintError where
  stage : RuntimeFingerprintStage
  detail : Bytes
  deriving DecidableEq

/-- The bytes that the reader looks for. -/
def lineFeedByte : UInt8 := 0x0A

def doubleQuoteByte : UInt8 := 0x22

def numberSignByte : UInt8 := 0x23

def singleQuoteByte : UInt8 := 0x27

def equalsSignByte : UInt8 := 0x3D

def backslashByte : UInt8 := 0x5C

/-- The bytes that may stand behind a backslash: `\`, `"`, `'`, `$` and a backquote. -/
def escapedBytes : Bytes := [0x5C, 0x22, 0x27, 0x24, 0x60]

/-- `fail` for the operating system. -/
def failOperatingSystem {α : Type} (detail : Bytes) : Except RuntimeFingerprintError α :=
  .error ⟨.operatingSystem, detail⟩

/-- `fail` with the number of a line. -/
def failLine {α : Type} (lineNumber : ℕ) (detail : String) : Except RuntimeFingerprintError α :=
  failOperatingSystem (utf8 "os-release line " ++ utf8 (toString lineNumber) ++ utf8 detail)

/-- The loop over the bytes between two quotes. -/
def unescapeOsReleaseValue (lineNumber : ℕ) : Bytes → Except RuntimeFingerprintError Bytes
  | [] => .ok []
  | character :: rest =>
    if character ≠ backslashByte then
      (unescapeOsReleaseValue lineNumber rest).map (character :: ·)
    else
      match rest with
      | [] => failLine lineNumber " ends with an escape"
      | escaped :: rest =>
        if escaped ∉ escapedBytes then
          failLine lineNumber " contains an unsupported escape"
        else
          (unescapeOsReleaseValue lineNumber rest).map (escaped :: ·)

def unquoteOsReleaseValue (raw : Bytes) (lineNumber : ℕ) : Except RuntimeFingerprintError Bytes :=
  match raw with
  | [] => failLine lineNumber " has an empty value"
  | quote :: rest =>
    if quote ≠ doubleQuoteByte ∧ quote ≠ singleQuoteByte then
      .ok raw
    else if rest.getLast? ≠ some quote then
      failLine lineNumber " has an unterminated quoted value"
    else
      unescapeOsReleaseValue lineNumber rest.dropLast

/-- The bytes of a key: capital letters, digits and `_`. -/
def isKeyByte (byte : UInt8) : Bool :=
  (0x41 ≤ byte && byte ≤ 0x5A) || (0x30 ≤ byte && byte ≤ 0x39) || byte == 0x5F

/-- The key and the value of a line. -/
def readAssignment (line : Bytes) (lineNumber : ℕ) :
    Except RuntimeFingerprintError (Bytes × Bytes) :=
  let key := line.takeWhile (· ≠ equalsSignByte)
  if equalsSignByte ∉ line ∨ key = [] then
    failLine lineNumber " is not KEY=VALUE"
  else if ¬ key.all isKeyByte then
    failLine lineNumber " has an invalid key"
  else
    (unquoteOsReleaseValue (line.drop (key.length + 1)) lineNumber).map (key, ·)

local instance : LawfulBEq Bytes := inferInstance

/-- One pass of the loop over the lines. -/
def readOsReleaseLine (values : List (Bytes × Bytes)) (numbered : Bytes × ℕ) :
    Except RuntimeFingerprintError (List (Bytes × Bytes)) :=
  if numbered.1 = [] ∨ numbered.1.head? = some numberSignByte then
    .ok values
  else do
    let entry ← readAssignment numbered.1 numbered.2
    if entry.1 ∈ values.map Prod.fst then
      failOperatingSystem (utf8 "os-release repeats field " ++ entry.1)
    else
      .ok (entry :: values)

/-- The map of the fields of a file. -/
def osReleaseValues (content : Bytes) : Except RuntimeFingerprintError (List (Bytes × Bytes)) :=
  ((getlines lineFeedByte content).zipIdx 1).foldlM readOsReleaseLine []

def requireDistributionValue (values : List (Bytes × Bytes)) (key : String) :
    Except RuntimeFingerprintError Bytes :=
  match values.lookup (utf8 key) with
  | none | some [] => failOperatingSystem (utf8 "os-release is missing required field " ++ utf8 key)
  | some value => .ok value

/-- `collect_linux_distribution_fingerprint` on the content of the file. -/
def collectLinuxDistributionFingerprint (content : Bytes) :
    Except RuntimeFingerprintError (Bytes × Bytes) := do
  let values ← osReleaseValues content
  let distributionId ← requireDistributionValue values "ID"
  let versionId ← requireDistributionValue values "VERSION_ID"
  if distributionId ≠ utf8 "ubuntu" then
    failOperatingSystem (utf8 "only Ubuntu is accepted, got ID=" ++ distributionId)
  else
    .ok (utf8 "linux", distributionId ++ utf8 "-" ++ versionId)

/-! ### The reader of the packager -/

/-- `str.isspace` of one character. -/
def isspace (character : Char) : Bool :=
  (0x09 ≤ character.toNat && character.toNat ≤ 0x0D) ||
    (0x1C ≤ character.toNat && character.toNat ≤ 0x20) ||
    (0x2000 ≤ character.toNat && character.toNat ≤ 0x200A) ||
    [0x85, 0xA0, 0x1680, 0x2028, 0x2029, 0x202F, 0x205F, 0x3000].contains character.toNat

/-- `str.strip`. -/
def strip (text : List Char) : List Char := (text.dropWhile isspace).rdropWhile isspace

/-- The message of a `PackageError`. -/
abbrev PackageError := String

/-- The checks of `require_regular_non_symlink` and `read_verified_regular_file` on the size of the
file. -/
def readOsRelease (path : String) (content : Bytes) : Except PackageError Bytes :=
  if content.length = 0 then
    .error ("OS release must be non-empty: " ++ path)
  else if 64 * 1024 < content.length then
    .error ("OS release exceeds " ++ toString (64 * 1024) ++ " bytes: " ++ path)
  else
    .ok content

/-- The value of an entry, which loses its double quotes. -/
def parseOsReleaseValue (path : String) (lineNumber : ℕ) (rawValue : List Char) :
    Except PackageError (List Char) :=
  if rawValue.head? = some '\x22' then
    if rawValue.getLast? ≠ some '\x22' ∨ rawValue.length < 2 then
      .error (path ++ ":" ++ toString lineNumber ++ ": malformed quoted os-release value")
    else
      .ok rawValue.tail.dropLast
  else
    .ok rawValue

/-- One pass of the loop over the lines. -/
def parseOsReleaseLine (path : String) (fields : List (List Char × List Char))
    (numbered : List Char × ℕ) : Except PackageError (List (List Char × List Char)) :=
  let line := strip numbered.1
  if line = [] ∨ line.head? = some '#' then
    .ok fields
  else if '=' ∉ line then
    .error (path ++ ":" ++ toString numbered.2 ++ ": malformed os-release entry")
  else
    let key := line.takeWhile (· ≠ '=')
    if key = [] ∨ key ∈ fields.map Prod.fst then
      .error (path ++ ":" ++ toString numbered.2 ++ ": duplicate or empty os-release key")
    else do
      let value ← parseOsReleaseValue path numbered.2 (line.drop (key.length + 1))
      return (key, value) :: fields

/-- The fields of a file. -/
def osReleaseFields (path : String) (content : Bytes) :
    Except PackageError (List (List Char × List Char)) := do
  let payload ← readOsRelease path content
  match decodeUtf8 payload with
  | none => .error (path ++ ": os-release is not UTF-8")
  | some text => ((splitlines text).zipIdx 1).foldlM (parseOsReleaseLine path) []

/-- `parse_os_release` on the content of the file. -/
def parseOsRelease (path : String) (content : Bytes) : Except PackageError (String × String) := do
  let fields ← osReleaseFields path content
  if fields.lookup "ID".toList ≠ some "ubuntu".toList ∨
      fields.lookup "VERSION_ID".toList ≠ some "24.04".toList then
    .error "P2 v1 packaging requires exact Ubuntu 24.04 runtime identity"
  else
    return ("linux", "ubuntu-24.04")

/-! ### What the runtime accepts -/

/-- Bytes between two quotes, and the value that they denote. -/
inductive Unescapes : Bytes → Bytes → Prop
  | nil : Unescapes [] []
  | plain {character : UInt8} {rest value : Bytes} (hplain : character ≠ backslashByte)
      (hrest : Unescapes rest value) : Unescapes (character :: rest) (character :: value)
  | escape {escaped : UInt8} {rest value : Bytes} (hescaped : escaped ∈ escapedBytes)
      (hrest : Unescapes rest value) :
        Unescapes (backslashByte :: escaped :: rest) (escaped :: value)

/-- A value without quotes, or between two of them. -/
def StrictValue (raw value : Bytes) : Prop :=
  (∃ head ∈ raw.head?, head ≠ doubleQuoteByte ∧ head ≠ singleQuoteByte ∧ value = raw) ∨
    ∃ quote inner, (quote = doubleQuoteByte ∨ quote = singleQuoteByte) ∧
      raw = quote :: (inner ++ [quote]) ∧ Unescapes inner value

/-- A line that assigns a value to a key. -/
structure StrictAssignment (line key value : Bytes) : Prop where
  key_ne_nil : key ≠ []
  isKeyByte : ∀ byte ∈ key, isKeyByte byte = true
  value : ∃ raw, line = key ++ equalsSignByte :: raw ∧ StrictValue raw value

/-- A line that is skipped. -/
def SkippedLine (line : Bytes) : Prop := line = [] ∨ line.head? = some numberSignByte

/-- Every line, cut at line feeds alone, is empty, a comment or a strict assignment; and the lines
of `ID` and `VERSION_ID` have nothing but the value, in double quotes or without. -/
structure StrictOsRelease (content : Bytes) : Prop where
  lines : ∀ line ∈ getlines lineFeedByte content,
    SkippedLine line ∨ ∃ key value, StrictAssignment line key value
  distributionId : utf8 "ID=ubuntu" ∈ getlines lineFeedByte content ∨
    utf8 "ID=\"ubuntu\"" ∈ getlines lineFeedByte content
  versionId : utf8 "VERSION_ID=24.04" ∈ getlines lineFeedByte content ∨
    utf8 "VERSION_ID=\"24.04\"" ∈ getlines lineFeedByte content

theorem map_eq_ok_cons_iff {head : UInt8} {x : Except RuntimeFingerprintError Bytes}
    {value : Bytes} :
    x.map (head :: ·) = .ok value ↔ ∃ rest, x = .ok rest ∧ value = head :: rest := by
  rw [map_eq_ok_iff]
  exact exists_congr fun rest => and_congr_right fun _ => eq_comm

theorem unescapeOsReleaseValue_eq_ok_iff {lineNumber : ℕ} {inner value : Bytes} :
    unescapeOsReleaseValue lineNumber inner = .ok value ↔ Unescapes inner value := by
  induction inner using unescapeOsReleaseValue.induct generalizing value with
  | case1 =>
    rw [unescapeOsReleaseValue]
    exact ⟨fun h => by cases h; exact .nil, fun h => by cases h; rfl⟩
  | case2 character rest hplain ih =>
    rw [unescapeOsReleaseValue.eq_def]
    simp only [hplain, ne_eq, not_false_eq_true, if_true]
    rw [map_eq_ok_cons_iff]
    constructor
    · rintro ⟨more, hmore, rfl⟩
      exact .plain hplain (ih.mp hmore)
    · intro h
      cases h with
      | plain _ hrest => exact ⟨_, ih.mpr hrest, rfl⟩
      | escape => exact absurd rfl hplain
  | case3 character hbackslash =>
    rw [not_not] at hbackslash
    subst hbackslash
    rw [unescapeOsReleaseValue, if_neg (by simp)]
    refine ⟨(fun h => by cases h), fun h => ?_⟩
    cases h with
    | plain hplain => exact absurd rfl hplain
  | case4 character hbackslash escaped rest hescaped =>
    rw [not_not] at hbackslash
    subst hbackslash
    rw [unescapeOsReleaseValue, if_neg (by simp)]
    simp only [hescaped, not_false_eq_true, if_true]
    refine ⟨(fun h => by cases h), fun h => ?_⟩
    cases h with
    | plain hplain => exact absurd rfl hplain
    | escape hmem => exact absurd hmem hescaped
  | case5 character hbackslash escaped rest hescaped ih =>
    rw [not_not] at hbackslash hescaped
    subst hbackslash
    rw [unescapeOsReleaseValue, if_neg (by simp)]
    simp only [hescaped, not_true_eq_false, if_false, map_eq_ok_cons_iff]
    constructor
    · rintro ⟨more, hmore, rfl⟩
      exact .escape hescaped (ih.mp hmore)
    · intro h
      cases h with
      | plain hplain => exact absurd rfl hplain
      | escape _ hrest => exact ⟨_, ih.mpr hrest, rfl⟩

theorem unquoteOsReleaseValue_eq_ok_iff {raw value : Bytes} {lineNumber : ℕ} :
    unquoteOsReleaseValue raw lineNumber = .ok value ↔ StrictValue raw value := by
  cases raw with
  | nil =>
    rw [unquoteOsReleaseValue]
    refine ⟨(fun h => by cases h), fun h => ?_⟩
    rcases h with ⟨head, hhead, -⟩ | ⟨quote, inner, -, hraw, -⟩
    · cases hhead
    · cases hraw
  | cons quote rest =>
    rw [unquoteOsReleaseValue, StrictValue]
    by_cases hplain : quote ≠ doubleQuoteByte ∧ quote ≠ singleQuoteByte
    · rw [if_pos hplain]
      constructor
      · intro h
        exact Or.inl ⟨quote, rfl, hplain.1, hplain.2, (Except.ok.inj h).symm⟩
      · rintro (⟨head, -, -, -, rfl⟩ | ⟨other, inner, hquote, hraw, -⟩)
        · rfl
        · rw [(List.cons.inj hraw).1] at hplain
          exact absurd hquote (not_or.mpr hplain)
    rw [if_neg hplain]
    have hquote : quote = doubleQuoteByte ∨ quote = singleQuoteByte := by
      rw [not_and_or, not_not, not_not] at hplain
      exact hplain
    by_cases hlast : rest.getLast? = some quote
    · rw [if_neg (not_not.mpr hlast), unescapeOsReleaseValue_eq_ok_iff]
      obtain ⟨inner, rfl⟩ : ∃ inner, rest = inner ++ [quote] :=
        List.getLast?_eq_some_iff.mp hlast
      rw [List.dropLast_concat]
      constructor
      · exact fun h => Or.inr ⟨quote, inner, hquote, rfl, h⟩
      · rintro (⟨head, hhead, hdouble, hsingle, -⟩ | ⟨other, inner', -, hraw, hunescapes⟩)
        · obtain rfl := Option.some.inj hhead
          exact absurd ⟨hdouble, hsingle⟩ hplain
        · obtain ⟨rfl, hinner⟩ := List.cons.inj hraw
          rw [List.append_cancel_right hinner]
          exact hunescapes
    · rw [if_pos hlast]
      refine ⟨(fun h => by cases h), ?_⟩
      rintro (⟨head, hhead, hdouble, hsingle, -⟩ | ⟨other, inner, -, hraw, -⟩)
      · obtain rfl := Option.some.inj hhead
        exact absurd ⟨hdouble, hsingle⟩ hplain
      · obtain ⟨rfl, rfl⟩ := List.cons.inj hraw
        exact absurd List.getLast?_concat hlast

/-- A key byte is no equals sign. -/
theorem equalsSignByte_notMem {key : Bytes} (hkey : ∀ byte ∈ key, isKeyByte byte = true) :
    equalsSignByte ∉ key := fun hmem => by
  have := hkey _ hmem
  revert this
  decide

theorem readAssignment_eq_ok_iff {line key value : Bytes} {lineNumber : ℕ} :
    readAssignment line lineNumber = .ok (key, value) ↔ StrictAssignment line key value := by
  simp only [readAssignment]
  constructor
  · intro h
    by_cases hmem : equalsSignByte ∈ line
    · obtain ⟨before, raw, rfl, hbefore⟩ := List.eq_append_cons_of_mem hmem
      obtain ⟨htake, hdrop⟩ := takeWhile_ne_append_cons hbefore raw
      rw [htake, hdrop] at h
      split_ifs at h with hnil hkey
      · cases h
      · rw [map_eq_ok_iff] at h
        obtain ⟨found, hfound, heq⟩ := h
        obtain ⟨rfl, rfl⟩ := Prod.mk.inj heq
        exact ⟨fun hempty => hnil (Or.inr hempty), List.all_eq_true.mp hkey, raw, rfl,
          unquoteOsReleaseValue_eq_ok_iff.mp hfound⟩
      · cases h
    · rw [if_pos (Or.inl hmem)] at h
      cases h
  · rintro ⟨hne, hkey, raw, rfl, hvalue⟩
    obtain ⟨htake, hdrop⟩ := takeWhile_ne_append_cons (equalsSignByte_notMem hkey) raw
    rw [htake, hdrop, if_neg (by simp [hne]), if_neg (by simpa using hkey), map_eq_ok_iff]
    exact ⟨value, unquoteOsReleaseValue_eq_ok_iff.mpr hvalue, rfl⟩

/-- An assignment is not skipped. -/
theorem StrictAssignment.not_skipped {line key value : Bytes}
    (h : StrictAssignment line key value) :
    ¬ SkippedLine line := by
  obtain ⟨raw, rfl, -⟩ := h.value
  have hne := h.key_ne_nil
  have hbytes := h.isKeyByte
  cases key with
  | nil => exact absurd rfl hne
  | cons head key =>
    rintro (hnil | hhead)
    · cases hnil
    · have hbyte := hbytes head List.mem_cons_self
      rw [Option.some.inj hhead] at hbyte
      revert hbyte
      decide

instance (line : Bytes) : Decidable (SkippedLine line) := by
  unfold SkippedLine
  infer_instance

/-- What a line contributes: nothing where it is malformed. -/
def lineEntry (line : Bytes) : Option (Option (Bytes × Bytes)) :=
  if SkippedLine line then some none else (readAssignment line 0).toOption.map some

theorem lineEntry_eq_some_some_iff {line key value : Bytes} :
    lineEntry line = some (some (key, value)) ↔ StrictAssignment line key value := by
  rw [lineEntry]
  split_ifs with hskipped
  · exact ⟨nofun, fun h => absurd hskipped h.not_skipped⟩
  · rw [← @readAssignment_eq_ok_iff _ _ _ 0]
    cases readAssignment line 0 with
    | error error => exact ⟨nofun, nofun⟩
    | ok entry =>
      constructor
      · intro h
        rw [← Option.some.inj (Option.some.inj h)]
      · intro h
        rw [Except.ok.inj h]
        rfl

theorem lineEntry_ne_none_iff {line : Bytes} :
    lineEntry line ≠ none ↔ SkippedLine line ∨ ∃ key value, StrictAssignment line key value := by
  constructor
  · intro h
    by_cases hskipped : SkippedLine line
    · exact Or.inl hskipped
    · cases hentry : lineEntry line with
      | none => exact absurd hentry h
      | some found =>
        cases found with
        | none =>
          rw [lineEntry, if_neg hskipped] at hentry
          cases hread : readAssignment line 0 <;> rw [hread] at hentry <;> cases hentry
        | some entry => exact Or.inr ⟨entry.1, entry.2, lineEntry_eq_some_some_iff.mp hentry⟩
  · rintro (hskipped | ⟨key, value, hstrict⟩)
    · rw [lineEntry, if_pos hskipped]
      exact Option.some_ne_none _
    · rw [lineEntry_eq_some_some_iff.mpr hstrict]
      exact Option.some_ne_none _

/-- The entries of the lines of a file. -/
def lineEntries (lines : List Bytes) : List (Bytes × Bytes) :=
  lines.filterMap fun line => (lineEntry line).join

theorem lineEntries_cons (line : Bytes) (lines : List Bytes) :
    lineEntries (line :: lines) = (lineEntry line).join.toList ++ lineEntries lines := by
  rw [lineEntries, List.filterMap_cons, lineEntries]
  cases (lineEntry line).join <;> rfl

theorem mem_lineEntries {lines : List Bytes} {key value : Bytes} :
    (key, value) ∈ lineEntries lines ↔ ∃ line ∈ lines, StrictAssignment line key value := by
  rw [lineEntries, List.mem_filterMap]
  refine exists_congr fun line => and_congr_right fun _ => ?_
  rw [← lineEntry_eq_some_some_iff]
  cases lineEntry line with
  | none => exact ⟨nofun, nofun⟩
  | some found => exact ⟨congrArg some, Option.some.inj⟩

/-- A pass of the reader. -/
theorem readOsReleaseLine_eq_ok_iff (values : List (Bytes × Bytes)) (numbered : Bytes × ℕ)
    (result : List (Bytes × Bytes)) :
    readOsReleaseLine values numbered = .ok result ↔
      Collects (lineEntry numbered.1) values result := by
  obtain ⟨line, lineNumber⟩ := numbered
  have hskip : (line = [] ∨ line.head? = some numberSignByte) = SkippedLine line := rfl
  simp only [readOsReleaseLine, hskip, Collects]
  by_cases hskipped : SkippedLine line
  · rw [if_pos hskipped, lineEntry, if_pos hskipped]
    exact ⟨fun h => (Except.ok.inj h).symm, fun h => congrArg _ h.symm⟩
  rw [if_neg hskipped, bind_eq_ok_iff]
  cases hentry : lineEntry line with
  | none =>
    refine iff_of_false ?_ id
    rintro ⟨⟨key, value⟩, hread, -⟩
    rw [lineEntry_eq_some_some_iff.mpr (readAssignment_eq_ok_iff.mp hread)] at hentry
    cases hentry
  | some found =>
    cases found with
    | none =>
      rw [lineEntry, if_neg hskipped] at hentry
      cases hread : readAssignment line 0 <;> rw [hread] at hentry <;> cases hentry
    | some entry =>
      have hread := (@readAssignment_eq_ok_iff line entry.1 entry.2 lineNumber).mpr
        (lineEntry_eq_some_some_iff.mp hentry)
      constructor
      · rintro ⟨other, hother, hresult⟩
        rw [hread] at hother
        obtain rfl := Except.ok.inj hother
        split_ifs at hresult with hrepeated
        · cases hresult
        · exact ⟨hrepeated, (Except.ok.inj hresult).symm⟩
      · rintro ⟨hnew, rfl⟩
        exact ⟨entry, hread, if_neg hnew⟩

/-- The reader of the runtime returns the entries where all lines are well formed and no key is
repeated. -/
theorem osReleaseValues_eq_ok_iff {content : Bytes} {values : List (Bytes × Bytes)} :
    osReleaseValues content = .ok values ↔
      (∀ line ∈ getlines lineFeedByte content,
        SkippedLine line ∨ ∃ key value, StrictAssignment line key value) ∧
      (values.map Prod.fst).Nodup ∧
      values = (lineEntries (getlines lineFeedByte content)).reverse := by
  obtain ⟨hall, hentries⟩ := @numbered_entries _ _ _ lineEntry (getlines lineFeedByte content) 1
  rw [osReleaseValues, foldlM_collect_eq_ok_iff readOsReleaseLine_eq_ok_iff (by simp), hall,
    hentries, List.append_nil, lineEntries]
  simp only [lineEntry_ne_none_iff]

/-! ### What the packager accepts -/

theorem parseOsReleaseValue_eq_ok_iff {path : String} {lineNumber : ℕ}
    {rawValue value : List Char} :
    parseOsReleaseValue path lineNumber rawValue = .ok value ↔
      if rawValue.head? = some '\x22' then
        rawValue.getLast? = some '\x22' ∧ 2 ≤ rawValue.length ∧ value = rawValue.tail.dropLast
      else value = rawValue := by
  rw [parseOsReleaseValue]
  split_ifs with hquoted hmalformed
  · refine ⟨nofun, fun h => absurd hmalformed ?_⟩
    rw [not_or, not_not, Nat.not_lt]
    exact ⟨h.1, h.2.1⟩
  · rw [not_or, not_not, Nat.not_lt] at hmalformed
    constructor
    · exact fun h => ⟨hmalformed.1, hmalformed.2, (Except.ok.inj h).symm⟩
    · exact fun h => congrArg _ h.2.2.symm
  · exact ⟨fun h => (Except.ok.inj h).symm, fun h => congrArg _ h.symm⟩

/-- What a stripped line contributes to the fields: nothing where it is malformed. -/
def strippedEntry (line : List Char) : Option (Option (List Char × List Char)) :=
  if line = [] ∨ line.head? = some '#' then some none
  else if '=' ∉ line ∨ line.takeWhile (· ≠ '=') = [] then none
  else
    (parseOsReleaseValue "" 0 (line.drop ((line.takeWhile (· ≠ '=')).length + 1))).toOption.map
      fun value => some (line.takeWhile (· ≠ '='), value)

/-- A pass of the packager. -/
theorem parseOsReleaseLine_eq_ok_iff (path : String) (fields : List (List Char × List Char))
    (numbered : List Char × ℕ) (result : List (List Char × List Char)) :
    parseOsReleaseLine path fields numbered = .ok result ↔
      Collects (strippedEntry (strip numbered.1)) fields result := by
  obtain ⟨rawLine, lineNumber⟩ := numbered
  simp only [parseOsReleaseLine, strippedEntry]
  generalize strip rawLine = line
  by_cases hskipped : line = [] ∨ line.head? = some '#'
  · rw [if_pos hskipped, if_pos hskipped]
    exact ⟨fun h => (Except.ok.inj h).symm, fun h => congrArg _ h.symm⟩
  rw [if_neg hskipped, if_neg hskipped]
  by_cases hseparator : '=' ∈ line
  swap
  · rw [if_pos hseparator, if_pos (Or.inl hseparator)]
    exact iff_of_false nofun id
  rw [if_neg (not_not.mpr hseparator)]
  by_cases hkey : line.takeWhile (· ≠ '=') = []
  · rw [if_pos (Or.inl hkey), if_pos (Or.inr hkey)]
    exact iff_of_false nofun id
  rw [if_neg (not_or.mpr ⟨not_not.mpr hseparator, hkey⟩)]
  generalize line.takeWhile (· ≠ '=') = key at hkey ⊢
  -- the value is read alike under every number
  have hvalue (value : List Char) :
      parseOsReleaseValue path lineNumber (line.drop (key.length + 1)) = .ok value ↔
        parseOsReleaseValue "" 0 (line.drop (key.length + 1)) = .ok value := by
    rw [parseOsReleaseValue_eq_ok_iff, parseOsReleaseValue_eq_ok_iff]
  by_cases hrepeated : key ∈ fields.map Prod.fst
  · rw [if_pos (Or.inr hrepeated)]
    refine iff_of_false nofun ?_
    cases parseOsReleaseValue "" 0 (line.drop (key.length + 1)) with
    | error error => exact id
    | ok value => exact fun h => h.1 hrepeated
  rw [if_neg (not_or.mpr ⟨hkey, hrepeated⟩), bind_eq_ok_iff]
  simp only [hvalue]
  cases parseOsReleaseValue "" 0 (line.drop (key.length + 1)) with
  | error error =>
    refine iff_of_false ?_ id
    rintro ⟨value, hread, -⟩
    cases hread
  | ok value =>
    constructor
    · rintro ⟨other, hother, hresult⟩
      rw [← Except.ok.inj hother] at hresult
      exact ⟨hrepeated, (Except.ok.inj hresult).symm⟩
    · rintro ⟨-, rfl⟩
      exact ⟨value, rfl, rfl⟩

/-- The fields that the packager reads from a text. -/
theorem osReleaseFields_eq_ok {path : String} {content : Bytes}
    {fields : List (List Char × List Char)} (h : osReleaseFields path content = .ok fields) :
    ∃ text, encodeUtf8 text = content ∧
      (∀ line ∈ splitlines text, strippedEntry (strip line) ≠ none) ∧
      (fields.map Prod.fst).Nodup ∧
      fields = ((splitlines text).filterMap fun line =>
        (strippedEntry (strip line)).join).reverse := by
  rw [osReleaseFields, bind_eq_ok_iff] at h
  obtain ⟨payload, hpayload, h⟩ := h
  have hcontent : payload = content := by
    rw [readOsRelease] at hpayload
    split_ifs at hpayload
    exact (Except.ok.inj hpayload).symm
  subst hcontent
  cases htext : decodeUtf8 payload with
  | none =>
    rw [htext] at h
    cases h
  | some text =>
    rw [htext] at h
    obtain ⟨hall, hentries⟩ :=
      @numbered_entries _ _ _ (fun line => strippedEntry (strip line)) (splitlines text) 1
    rw [foldlM_collect_eq_ok_iff (parseOsReleaseLine_eq_ok_iff path) (by simp), hall, hentries,
      List.append_nil] at h
    exact ⟨text, encodeUtf8_of_decodeUtf8 htext, h⟩

/-! ### The lines of the two readers -/

/-- The character of a key byte is its ASCII character, which is no boundary, no space and none of
the characters that the packager looks for. -/
theorem asciiChar_of_isKeyByte {byte : UInt8} (h : isKeyByte byte = true) :
    byte.toNat < 128 ∧ isLineBoundary (asciiChar byte) = false ∧
      isspace (asciiChar byte) = false ∧ asciiChar byte ≠ '=' ∧ asciiChar byte ≠ '#' := by
  have hall : ∀ number : Fin 256, isKeyByte (UInt8.ofNat number) = true →
      (UInt8.ofNat number).toNat < 128 ∧ isLineBoundary (asciiChar (UInt8.ofNat number)) = false ∧
        isspace (asciiChar (UInt8.ofNat number)) = false ∧
        asciiChar (UInt8.ofNat number) ≠ '=' ∧ asciiChar (UInt8.ofNat number) ≠ '#' := by
    decide +kernel
  have hbyte := hall ⟨byte.toNat, byte.toNat_lt⟩
  rw [UInt8.ofNat_toNat] at hbyte
  exact hbyte h

/-- The text of a strict assignment. -/
theorem StrictAssignment.text {line : List Char} {key value : Bytes}
    (h : StrictAssignment (encodeUtf8 line) key value) :
    ∃ rest, line = key.map asciiChar ++ '=' :: rest := by
  obtain ⟨raw, hline, -⟩ := h.value
  have hascii : ∀ byte ∈ key ++ [equalsSignByte], byte.toNat < 128 := by
    intro byte hmem
    rcases List.mem_append.mp hmem with hkey | hequals
    · exact (asciiChar_of_isKeyByte (h.isKeyByte byte hkey)).1
    · rw [List.mem_singleton.mp hequals]
      decide
  rw [List.append_cons] at hline
  obtain ⟨rest, htext, -⟩ := encodeUtf8_eq_ascii_append hascii hline
  refine ⟨rest, ?_⟩
  rw [htext, List.map_append, List.append_assoc]
  rfl

/-- What is stripped from the end of a line lies behind every other character. -/
theorem rdropWhile_append_cons {character : Char} (h : ¬ isspace character = true)
    (before after : List Char) :
    (before ++ character :: after).rdropWhile isspace =
      before ++ character :: after.rdropWhile isspace := by
  induction after using List.reverseRecOn with
  | nil => exact List.rdropWhile_concat_neg _ _ _ h
  | append_singleton after last ih =>
    have hassoc :
        before ++ character :: (after ++ [last]) = before ++ character :: after ++ [last] := by
      rw [List.append_assoc, List.cons_append]
    rw [hassoc]
    by_cases hlast : isspace last = true
    · rw [List.rdropWhile_concat_pos _ _ _ hlast, List.rdropWhile_concat_pos _ _ _ hlast, ih]
    · rw [List.rdropWhile_concat_neg _ _ _ hlast, List.rdropWhile_concat_neg _ _ _ hlast, hassoc]

/-- The packager finds the key of a strict assignment at the head of its first line. -/
theorem strip_firstLine {line : List Char} {key value : Bytes}
    (h : StrictAssignment (encodeUtf8 line) key value) :
    ∃ rest, strip (firstLine line) = key.map asciiChar ++ '=' :: rest := by
  obtain ⟨rest, rfl⟩ := h.text
  have hkey := fun byte hmem => asciiChar_of_isKeyByte (h.isKeyByte byte hmem)
  have hfirst : firstLine (key.map asciiChar ++ '=' :: rest) =
      key.map asciiChar ++ '=' :: firstLine rest := by
    rw [firstLine, List.takeWhile_append_of_pos, List.takeWhile_cons_of_pos (by decide)]
    · rfl
    · intro character hmem
      obtain ⟨byte, hbyte, rfl⟩ := List.mem_map.mp hmem
      rw [(hkey byte hbyte).2.1]
      rfl
  have hleft : (key.map asciiChar ++ '=' :: firstLine rest).dropWhile isspace =
      key.map asciiChar ++ '=' :: firstLine rest := by
    cases key with
    | nil => exact absurd rfl h.key_ne_nil
    | cons head key =>
      refine List.dropWhile_cons_of_neg ?_
      rw [(hkey head List.mem_cons_self).2.2.1]
      exact Bool.false_ne_true
  refine ⟨(firstLine rest).rdropWhile isspace, ?_⟩
  rw [hfirst, strip, hleft, rdropWhile_append_cons (by decide)]

/-- A strict assignment gives the packager an entry with the same key, or is malformed for it. -/
theorem strippedEntry_of_strict {line : List Char} {key value : Bytes}
    (h : StrictAssignment (encodeUtf8 line) key value)
    (hwellFormed : strippedEntry (strip (firstLine line)) ≠ none) :
    ∃ found, strippedEntry (strip (firstLine line)) = some (some (key.map asciiChar, found)) := by
  obtain ⟨rest, hstrip⟩ := strip_firstLine h
  have hkey := fun byte hmem => asciiChar_of_isKeyByte (h.isKeyByte byte hmem)
  have hequals : '=' ∉ key.map asciiChar := by
    intro hmem
    obtain ⟨byte, hbyte, heq⟩ := List.mem_map.mp hmem
    exact (hkey byte hbyte).2.2.2.1 heq
  have hskipped : ¬ (key.map asciiChar ++ '=' :: rest = [] ∨
      (key.map asciiChar ++ '=' :: rest).head? = some '#') := by
    rw [not_or]
    refine ⟨List.append_ne_nil_of_right_ne_nil _ (List.cons_ne_nil _ _), fun hhead => ?_⟩
    cases key with
    | nil => exact h.key_ne_nil rfl
    | cons head key =>
      exact (hkey head List.mem_cons_self).2.2.2.2 (Option.some.inj hhead)
  have hnil : key.map asciiChar ≠ [] := fun hnil => h.key_ne_nil (List.map_eq_nil_iff.mp hnil)
  rw [hstrip, strippedEntry, if_neg hskipped, (takeWhile_ne_append_cons hequals rest).1]
    at hwellFormed ⊢
  rw [if_neg (by simp [hnil])] at hwellFormed ⊢
  cases hvalue : parseOsReleaseValue "" 0
      ((key.map asciiChar ++ '=' :: rest).drop ((key.map asciiChar).length + 1)) with
  | error error =>
    rw [hvalue] at hwellFormed
    exact absurd rfl hwellFormed
  | ok found => exact ⟨found, rfl⟩

/-- The keys that the runtime reads, among those that the packager reads. -/
theorem keys_sublist {lines : List (List Char)} {pieces : List (List (List Char))}
    (hpieces : Pieces lines pieces)
    (hwellFormed : ∀ line ∈ pieces.flatten, strippedEntry (strip line) ≠ none) :
    ((lineEntries (lines.map encodeUtf8)).map fun entry => entry.1.map asciiChar).Sublist
      ((pieces.flatten.filterMap fun line => (strippedEntry (strip line)).join).map Prod.fst) := by
  induction hpieces with
  | nil => exact List.Sublist.slnil
  | @cons line piece lines pieces hpiece hrest ih =>
    obtain ⟨more, rfl⟩ := hpiece
    rw [List.flatten_cons] at hwellFormed ⊢
    have hrest' := ih fun other hmem => hwellFormed other (List.mem_append_right _ hmem)
    rw [List.filterMap_append, List.map_append, List.map_cons, lineEntries_cons]
    cases hentry : (lineEntry (encodeUtf8 line)).join with
    | none => exact hrest'.trans (List.sublist_append_right _ _)
    | some entry =>
      obtain ⟨key, value⟩ := entry
      have hstrict := lineEntry_eq_some_some_iff.mp (Option.join_eq_some_iff.mp hentry)
      obtain ⟨found, hfound⟩ := strippedEntry_of_strict hstrict
        (hwellFormed _ (List.mem_append_left _ List.mem_cons_self))
      have hhead : (strippedEntry (strip (firstLine line))).join =
          some (key.map asciiChar, found) := by
        rw [hfound]
        rfl
      simp only [List.filterMap_cons, hhead, List.map_cons, List.cons_append]
      exact (hrest'.trans (List.sublist_append_right _ _)).cons_cons _

/-! ### Values without escapes -/

/-- A value without the bytes that are escaped has no escapes. -/
theorem Unescapes.eq_of_plain {inner value : Bytes} (h : Unescapes inner value)
    (hplain : ∀ byte ∈ value, byte ∉ escapedBytes) : inner = value := by
  induction h with
  | nil => rfl
  | plain _ _ ih => rw [ih fun byte hmem => hplain byte (List.mem_cons_of_mem _ hmem)]
  | escape hescaped => exact absurd hescaped (hplain _ List.mem_cons_self)

theorem unescapes_self {value : Bytes} (hplain : ∀ byte ∈ value, byte ∉ escapedBytes) :
    Unescapes value value := by
  induction value with
  | nil => exact .nil
  | cons byte value ih =>
    refine .plain ?_ (ih fun other hmem => hplain other (List.mem_cons_of_mem _ hmem))
    rintro rfl
    exact hplain _ List.mem_cons_self (by decide)

/-- The three ways to write such a value. -/
theorem strictValue_iff_of_plain {raw value : Bytes} (hne : value ≠ [])
    (hplain : ∀ byte ∈ value, byte ∉ escapedBytes) :
    StrictValue raw value ↔ raw = value ∨ raw = doubleQuoteByte :: (value ++ [doubleQuoteByte]) ∨
      raw = singleQuoteByte :: (value ++ [singleQuoteByte]) := by
  constructor
  · rintro (⟨head, -, -, -, rfl⟩ | ⟨quote, inner, hquote, rfl, hunescapes⟩)
    · exact Or.inl rfl
    · rw [hunescapes.eq_of_plain hplain]
      rcases hquote with rfl | rfl
      · exact Or.inr (Or.inl rfl)
      · exact Or.inr (Or.inr rfl)
  · rintro (rfl | rfl | rfl)
    · obtain ⟨head, rest, rfl⟩ := List.exists_cons_of_ne_nil hne
      have hhead := hplain head List.mem_cons_self
      refine Or.inl ⟨head, rfl, ?_, ?_, rfl⟩
      · rintro rfl
        exact hhead (by decide)
      · rintro rfl
        exact hhead (by decide)
    · exact Or.inr ⟨_, value, Or.inl rfl, rfl, unescapes_self hplain⟩
    · exact Or.inr ⟨_, value, Or.inr rfl, rfl, unescapes_self hplain⟩

/-- The lines that assign such a value. -/
theorem strictAssignment_iff_of_plain {line key value : Bytes} (hkey : key ≠ [])
    (hbytes : ∀ byte ∈ key, isKeyByte byte = true) (hne : value ≠ [])
    (hplain : ∀ byte ∈ value, byte ∉ escapedBytes) :
    StrictAssignment line key value ↔ line = key ++ equalsSignByte :: value ∨
      line = key ++ equalsSignByte :: doubleQuoteByte :: (value ++ [doubleQuoteByte]) ∨
      line = key ++ equalsSignByte :: singleQuoteByte :: (value ++ [singleQuoteByte]) := by
  constructor
  · rintro ⟨-, -, raw, rfl, hvalue⟩
    rcases (strictValue_iff_of_plain hne hplain).mp hvalue with rfl | rfl | rfl
    · exact Or.inl rfl
    · exact Or.inr (Or.inl rfl)
    · exact Or.inr (Or.inr rfl)
  · intro h
    refine ⟨hkey, hbytes, ?_⟩
    rcases h with rfl | rfl | rfl
    · exact ⟨_, rfl, (strictValue_iff_of_plain hne hplain).mpr (Or.inl rfl)⟩
    · exact ⟨_, rfl, (strictValue_iff_of_plain hne hplain).mpr (Or.inr (Or.inl rfl))⟩
    · exact ⟨_, rfl, (strictValue_iff_of_plain hne hplain).mpr (Or.inr (Or.inr rfl))⟩

/-! ### The identity -/

theorem parseOsRelease_eq_ok_iff {path : String} {content : Bytes} {identity : String × String} :
    parseOsRelease path content = .ok identity ↔
      ∃ fields, osReleaseFields path content = .ok fields ∧
        fields.lookup "ID".toList = some "ubuntu".toList ∧
        fields.lookup "VERSION_ID".toList = some "24.04".toList ∧
        identity = ("linux", "ubuntu-24.04") := by
  rw [parseOsRelease, bind_eq_ok_iff]
  refine exists_congr fun fields => and_congr_right fun _ => ?_
  split_ifs with hother
  · exact ⟨nofun, fun h => absurd hother (not_or.mpr ⟨not_not.mpr h.1, not_not.mpr h.2.1⟩)⟩
  · rw [not_or, not_not, not_not] at hother
    exact ⟨fun h => ⟨hother.1, hother.2, (Except.ok.inj h).symm⟩, fun h => congrArg _ h.2.2.symm⟩

theorem requireDistributionValue_eq_ok_iff {values : List (Bytes × Bytes)} {key : String}
    {value : Bytes} :
    requireDistributionValue values key = .ok value ↔
      values.lookup (utf8 key) = some value ∧ value ≠ [] := by
  rw [requireDistributionValue]
  cases values.lookup (utf8 key) with
  | none => exact ⟨nofun, fun h => by cases h.1⟩
  | some found =>
    cases found with
    | nil =>
      refine ⟨nofun, fun h => ?_⟩
      rw [← Option.some.inj h.1] at h
      exact absurd rfl h.2
    | cons head rest =>
      constructor
      · intro h
        rw [← Except.ok.inj h]
        exact ⟨rfl, List.cons_ne_nil _ _⟩
      · intro h
        rw [← Option.some.inj h.1]

theorem collectLinuxDistributionFingerprint_eq_ok_iff {content : Bytes} {identity : Bytes × Bytes} :
    collectLinuxDistributionFingerprint content = .ok identity ↔
      ∃ values, osReleaseValues content = .ok values ∧
        values.lookup (utf8 "ID") = some (utf8 "ubuntu") ∧
        ∃ versionId, values.lookup (utf8 "VERSION_ID") = some versionId ∧ versionId ≠ [] ∧
          identity = (utf8 "linux", utf8 "ubuntu" ++ utf8 "-" ++ versionId) := by
  simp only [collectLinuxDistributionFingerprint, bind_eq_ok_iff,
    requireDistributionValue_eq_ok_iff]
  refine exists_congr fun values => and_congr_right fun _ => ?_
  constructor
  · rintro ⟨distributionId, ⟨hid, -⟩, versionId, ⟨hversion, hne⟩, hidentity⟩
    split_ifs at hidentity with hother
    · cases hidentity
    · rw [not_not] at hother
      subst hother
      exact ⟨hid, versionId, hversion, hne, (Except.ok.inj hidentity).symm⟩
  · rintro ⟨hid, versionId, hversion, hne, rfl⟩
    exact ⟨_, ⟨hid, by decide⟩, versionId, ⟨hversion, hne⟩, if_neg (not_not.mpr rfl)⟩

/-- The packager and the runtime read the same identity from a file: where the packager accepts it,
the runtime returns the same pair, and where both do, the fields have the same values. -/
structure ReadsSameIdentity (path : String) (content : Bytes) : Prop where
  identity : ∀ osName osVersion, parseOsRelease path content = .ok (osName, osVersion) →
    collectLinuxDistributionFingerprint content = .ok (utf8 osName, utf8 osVersion)
  fields : ∀ packaged collected, parseOsRelease path content = .ok packaged →
    collectLinuxDistributionFingerprint content = .ok collected →
    ∃ fields values,
      osReleaseFields path content = .ok fields ∧ osReleaseValues content = .ok values ∧
      ∀ key ∈ ["ID", "VERSION_ID"],
        (fields.lookup key.toList).map encodeUtf8 = values.lookup (utf8 key)

/-- What the packager finds in an ASCII line of the runtime. -/
theorem mem_fields_of_ascii {path : String} {content : Bytes}
    {fields : List (List Char × List Char)} (hfields : osReleaseFields path content = .ok fields)
    {line : Bytes} (hmem : line ∈ getlines lineFeedByte content)
    (hascii : ∀ byte ∈ line, byte.toNat < 128) {entry : List Char × List Char}
    (hentry : strippedEntry (strip (firstLine (line.map asciiChar))) = some (some entry)) :
    entry ∈ fields := by
  obtain ⟨text, rfl, -, -, hfields⟩ := osReleaseFields_eq_ok hfields
  rw [lineFeedByte, getlines_encodeUtf8, List.mem_map] at hmem
  obtain ⟨source, hsource, hline⟩ := hmem
  obtain ⟨rest, hsourceEq, hrest⟩ := @encodeUtf8_eq_ascii_append source line [] hascii
    (by rw [hline, List.append_nil])
  have hnil : rest = [] := by
    cases rest with
    | nil => rfl
    | cons character rest =>
      rw [encodeUtf8, List.flatMap_cons, List.append_eq_nil_iff] at hrest
      exact absurd hrest.1 String.utf8EncodeChar_ne_nil
  rw [hnil, List.append_nil] at hsourceEq
  rw [hfields, List.mem_reverse, List.mem_filterMap]
  refine ⟨firstLine source, firstLine_mem_splitlines hsource, ?_⟩
  rw [hsourceEq, hentry]
  rfl

/-- The lines that name the distribution. -/
theorem strictAssignment_distributionId_iff {line : Bytes} :
    StrictAssignment line (utf8 "ID") (utf8 "ubuntu") ↔
      line = utf8 "ID" ++ equalsSignByte :: utf8 "ubuntu" ∨
      line =
        utf8 "ID" ++ equalsSignByte :: doubleQuoteByte :: (utf8 "ubuntu" ++ [doubleQuoteByte]) ∨
      line = utf8 "ID" ++ equalsSignByte :: singleQuoteByte ::
        (utf8 "ubuntu" ++ [singleQuoteByte]) :=
  strictAssignment_iff_of_plain (by decide +kernel) (by decide +kernel) (by decide +kernel)
    (by decide +kernel)

/-- The lines that name its version. -/
theorem strictAssignment_versionId_iff {line : Bytes} :
    StrictAssignment line (utf8 "VERSION_ID") (utf8 "24.04") ↔
      line = utf8 "VERSION_ID" ++ equalsSignByte :: utf8 "24.04" ∨
      line = utf8 "VERSION_ID" ++ equalsSignByte :: doubleQuoteByte ::
        (utf8 "24.04" ++ [doubleQuoteByte]) ∨
      line = utf8 "VERSION_ID" ++ equalsSignByte :: singleQuoteByte ::
        (utf8 "24.04" ++ [singleQuoteByte]) :=
  strictAssignment_iff_of_plain (by decide +kernel) (by decide +kernel) (by decide +kernel)
    (by decide +kernel)

/-- Where the packager accepts a file, the runtime returns the same pair exactly if the file is
strict. -/
theorem collects_iff_strictOsRelease {path : String} {content : Bytes}
    (hpackaged : parseOsRelease path content = .ok ("linux", "ubuntu-24.04")) :
    (∃ values, osReleaseValues content = .ok values ∧
      values.lookup (utf8 "ID") = some (utf8 "ubuntu") ∧
      values.lookup (utf8 "VERSION_ID") = some (utf8 "24.04")) ↔ StrictOsRelease content := by
  obtain ⟨fields, hfields, hid, hversion, -⟩ := parseOsRelease_eq_ok_iff.mp hpackaged
  obtain ⟨text, htext, hwellFormed, hnodup, hentries⟩ := osReleaseFields_eq_ok hfields
  constructor
  · rintro ⟨values, hvalues, hidValue, hversionValue⟩
    obtain ⟨hlines, hvaluesNodup, rfl⟩ := osReleaseValues_eq_ok_iff.mp hvalues
    rw [lookup_eq_some_iff_mem hvaluesNodup, List.mem_reverse, mem_lineEntries]
      at hidValue hversionValue
    refine ⟨hlines, ?_, ?_⟩
    · obtain ⟨line, hmem, hstrict⟩ := hidValue
      rw [strictAssignment_distributionId_iff] at hstrict
      rcases hstrict with rfl | rfl | rfl
      · exact Or.inl hmem
      · exact Or.inr hmem
      · -- the packager does not know single quotes
        have hfound : ("ID".toList, "'ubuntu'".toList) ∈ fields :=
          mem_fields_of_ascii hfields hmem (by decide +kernel) (by decide +kernel)
        rw [(lookup_eq_some_iff_mem hnodup).mpr hfound] at hid
        exact absurd hid (by decide)
    · obtain ⟨line, hmem, hstrict⟩ := hversionValue
      rw [strictAssignment_versionId_iff] at hstrict
      rcases hstrict with rfl | rfl | rfl
      · exact Or.inl hmem
      · exact Or.inr hmem
      · have hfound : ("VERSION_ID".toList, "'24.04'".toList) ∈ fields :=
          mem_fields_of_ascii hfields hmem (by decide +kernel) (by decide +kernel)
        rw [(lookup_eq_some_iff_mem hnodup).mpr hfound] at hversion
        exact absurd hversion (by decide)
  · intro hstrict
    have hvaluesNodup :
        ((lineEntries (getlines lineFeedByte content)).reverse.map Prod.fst).Nodup := by
      rw [List.map_reverse, List.nodup_reverse]
      obtain ⟨pieces, hsplit, hpieces⟩ := splitlines_pieces text
      rw [hsplit] at hwellFormed hentries
      rw [hentries, List.map_reverse, List.nodup_reverse] at hnodup
      have hkeys := (keys_sublist hpieces hwellFormed).nodup hnodup
      rw [← getlines_encodeUtf8, htext, ← Function.comp_def (List.map asciiChar),
        ← List.map_map] at hkeys
      exact hkeys.of_map
    refine ⟨_, osReleaseValues_eq_ok_iff.mpr ⟨hstrict.lines, hvaluesNodup, rfl⟩, ?_, ?_⟩
    · rw [lookup_eq_some_iff_mem hvaluesNodup, List.mem_reverse, mem_lineEntries]
      rcases hstrict.distributionId with hmem | hmem
      · exact ⟨_, hmem, strictAssignment_distributionId_iff.mpr (Or.inl rfl)⟩
      · exact ⟨_, hmem, strictAssignment_distributionId_iff.mpr (Or.inr (Or.inl rfl))⟩
    · rw [lookup_eq_some_iff_mem hvaluesNodup, List.mem_reverse, mem_lineEntries]
      rcases hstrict.versionId with hmem | hmem
      · exact ⟨_, hmem, strictAssignment_versionId_iff.mpr (Or.inl rfl)⟩
      · exact ⟨_, hmem, strictAssignment_versionId_iff.mpr (Or.inr (Or.inl rfl))⟩

/-- **When the two readers agree.** Of the files that the packager accepts, the runtime reads the
same identity from the strict ones and from no others. -/
theorem readsSameIdentity_iff (path : String) (content : Bytes) :
    ReadsSameIdentity path content ↔
      ((∃ identity, parseOsRelease path content = .ok identity) → StrictOsRelease content) := by
  constructor
  · rintro hsame ⟨identity, hpackaged⟩
    obtain ⟨-, -, -, -, rfl⟩ := parseOsRelease_eq_ok_iff.mp hpackaged
    obtain ⟨values, hvalues, hid, versionId, hversion, -, hidentity⟩ :=
      collectLinuxDistributionFingerprint_eq_ok_iff.mp (hsame.identity _ _ hpackaged)
    have hversionId : utf8 "24.04" = versionId :=
      List.append_cancel_left (show (utf8 "ubuntu" ++ utf8 "-") ++ utf8 "24.04" = _ from
        (Prod.mk.inj hidentity).2)
    subst hversionId
    exact (collects_iff_strictOsRelease hpackaged).mp ⟨values, hvalues, hid, hversion⟩
  · intro hcondition
    constructor
    · intro osName osVersion hpackaged
      obtain ⟨-, -, -, -, hidentity⟩ := parseOsRelease_eq_ok_iff.mp hpackaged
      obtain ⟨rfl, rfl⟩ := Prod.mk.inj hidentity
      obtain ⟨values, hvalues, hid, hversion⟩ :=
        (collects_iff_strictOsRelease hpackaged).mpr (hcondition ⟨_, hpackaged⟩)
      exact collectLinuxDistributionFingerprint_eq_ok_iff.mpr
        ⟨values, hvalues, hid, _, hversion, by decide, by decide⟩
    · intro packaged collected hpackaged _
      obtain ⟨fields, hfields, hidField, hversionField, rfl⟩ :=
        parseOsRelease_eq_ok_iff.mp hpackaged
      obtain ⟨values, hvalues, hid, hversion⟩ :=
        (collects_iff_strictOsRelease hpackaged).mpr (hcondition ⟨_, hpackaged⟩)
      refine ⟨fields, values, hfields, hvalues, fun key hmem => ?_⟩
      simp only [List.mem_cons, List.not_mem_nil, or_false] at hmem
      rcases hmem with rfl | rfl
      · rw [hidField, hid]
        rfl
      · rw [hversionField, hversion]
        rfl

theorem osReleaseFields_utf8 {path text : String} (hpos : 0 < (utf8 text).length)
    (hle : (utf8 text).length ≤ 64 * 1024) :
    osReleaseFields path (utf8 text) =
      ((splitlines text.toList).zipIdx 1).foldlM (parseOsReleaseLine path) [] := by
  have hread : readOsRelease path (utf8 text) = .ok (utf8 text) := by
    rw [readOsRelease, if_neg (by omega), if_neg (by omega)]
  rw [osReleaseFields, hread]
  change (match decodeUtf8 (utf8 text) with
    | none => Except.error (path ++ ": os-release is not UTF-8")
    | some text => ((splitlines text).zipIdx 1).foldlM (parseOsReleaseLine path) []) = _
  rw [decodeUtf8_utf8]

/-- The packager strips the carriage return of a line, the runtime keeps it in the value. -/
theorem not_readsSameIdentity_carriage_return :
    parseOsRelease "/usr/lib/os-release" (utf8 "ID=ubuntu\nVERSION_ID=24.04\r\n") =
        .ok ("linux", "ubuntu-24.04") ∧
      collectLinuxDistributionFingerprint (utf8 "ID=ubuntu\nVERSION_ID=24.04\r\n") =
        .ok (utf8 "linux", utf8 "ubuntu-24.04\r") ∧
      ¬ ReadsSameIdentity "/usr/lib/os-release" (utf8 "ID=ubuntu\nVERSION_ID=24.04\r\n") := by
  have hpackaged : parseOsRelease "/usr/lib/os-release" (utf8 "ID=ubuntu\nVERSION_ID=24.04\r\n") =
      .ok ("linux", "ubuntu-24.04") := by
    refine parseOsRelease_eq_ok_iff.mpr
      ⟨[("VERSION_ID".toList, "24.04".toList), ("ID".toList, "ubuntu".toList)], ?_, ?_, ?_, rfl⟩
    · rw [osReleaseFields_utf8 (by decide) (by decide)]
      decide +kernel
    · decide
    · decide
  have hcollected : collectLinuxDistributionFingerprint
      (utf8 "ID=ubuntu\nVERSION_ID=24.04\r\n") = .ok (utf8 "linux", utf8 "ubuntu-24.04\r") := by
    decide +kernel
  refine ⟨hpackaged, hcollected, fun hsame => ?_⟩
  have hidentity := hsame.identity _ _ hpackaged
  rw [hcollected] at hidentity
  exact absurd hidentity (by decide)

end MagpieTts.Manifest
