import MagpieTts.Plugins.ClassTableIdentity

/-!
# The identity of a kernel-class table in the exporter

The exporter asks the plugin for its kernel-class table, checks it record by record, checks the
document that it has built once more, and writes it as canonical JSON: objects in the order in which
they were built, and the members in the order of their keys when they are written.

## Main definitions

* `classDocument`, `kDocument`: the documents of the records.
* `validateClassTableDocument`: the check of a document.
* `collectMode8ClassTableIdentity`: the identity of the table of a plugin.

## Main results

* `collectMode8_eq_ok_iff`: the exporter accepts the valid tables.
* `kernelClassTable_agree`: the scans, the latch, the runtime and the exporter together.
-/

namespace MagpieTts.Export

open MagpieTts.Library MagpieTts.Plugins

/-! ### Writing -/

/-- The escape of a character in a string that `json.dumps` writes with `ensure_ascii`. -/
def pythonEscape (c : Char) : List Char :=
  if ¬ (c = '\\' ∨ c = '\x22' ∨ ¬ (0x20 ≤ c.toNat ∧ c.toNat ≤ 0x7E)) then [c]
  else if c = '\\' then ['\\', '\\']
  else if c = '\x22' then ['\\', '\x22']
  else if c = '\x08' then ['\\', 'b']
  else if c = '\x0C' then ['\\', 'f']
  else if c = '\x0A' then ['\\', 'n']
  else if c = '\x0D' then ['\\', 'r']
  else if c = '\x09' then ['\\', 't']
  else unicodeEscape c

/-- `canonical_class_table_bytes`. -/
def canonicalClassTableBytes (document : JsonTree) : List Char :=
  document.sortKeys.render (quoted pythonEscape)

/-! ### The parts of a document -/

/-- An integer, if the value is one. -/
def integerOf? : Option JsonTree → Option ℤ
  | some (.integer value) => some value
  | _ => none

def stringOf? : Option JsonTree → Option String
  | some (.string text) => some text
  | _ => none

def listOf? : Option JsonTree → Option (List JsonTree)
  | some (.array elements) => some elements
  | _ => none

def dictOf? : Option JsonTree → Option (List (String × JsonTree))
  | some (.object members) => some members
  | _ => none

/-- `raise RuntimeError` under a condition. -/
def raiseIf (condition : Prop) [Decidable condition] (message : String) : Except String Unit :=
  if condition then .error message else .ok ()

/-- The keys of a dictionary are the expected ones. -/
def KeysAre (members : List (String × JsonTree)) (expected : List String) : Prop :=
  (∀ key ∈ members.map Prod.fst, key ∈ expected) ∧
    ∀ key ∈ expected, key ∈ members.map Prod.fst

instance (members : List (String × JsonTree)) (expected : List String) :
    Decidable (KeysAre members expected) := inferInstanceAs (Decidable (_ ∧ _))

/-- The numbers are those of a range from zero. -/
def CoversRange (used : List ℤ) (count : ℕ) : Prop :=
  (∀ classIndex ∈ used, 0 ≤ classIndex ∧ classIndex < (count : ℤ)) ∧
    ∀ classIndex < count, (classIndex : ℤ) ∈ used

instance (used : List ℤ) (count : ℕ) : Decidable (CoversRange used count) :=
  inferInstanceAs (Decidable (_ ∧ _))

/-! ### The check of a document -/

/-- `_require_integer`. -/
def requireInteger (value : Option JsonTree) (label : String) : Except String ℤ :=
  match integerOf? value with
  | some value => .ok value
  | none => .error (label ++ " must be an integer")

/-- Three positive integers. -/
def PositiveTriplet (values : List JsonTree) : Prop :=
  values.length = 3 ∧ ∀ value ∈ values.map fun value => integerOf? (some value),
    ∃ number ∈ value, 0 < number

instance (values : List JsonTree) : Decidable (PositiveTriplet values) :=
  inferInstanceAs (Decidable (_ ∧ _))

/-- `_require_positive_triplet`. -/
def requirePositiveTriplet (value : Option JsonTree) (label : String) : Except String Unit :=
  match listOf? value with
  | some values =>
    raiseIf (¬ PositiveTriplet values) (label ++ " must contain three positive integers")
  | none => .error (label ++ " must contain three positive integers")

/-- The keys of the dictionaries. -/
def tableKeys : List String :=
  ["schema_version", "active_k_range", "qk_class_count", "pv_class_count", "classes", "k_records"]

def classKeys : List String :=
  ["operation", "class_index", "function_name", "parameter_transport", "block",
    "shared_memory_bytes", "parameter_offset", "parameter_size"]

def kKeys : List String := ["active_k", "qk", "pv"]

def operationKeys : List String := ["class_index", "grid"]

/-- `QK_CLASS_COUNT`, `PV_CLASS_COUNT`, `CLASS_COUNT`, `K_COUNT`, `MINIMUM_K` and `MAXIMUM_K`. -/
def qkClassCount : ℕ := 7

def pvClassCount : ℕ := 14

def classCount : ℕ := 21

def kCount : ℕ := 249

def minimumK : ℕ := 219

def maximumK : ℕ := 467

/-- The values of a class in the document, other than its launch values, are canonical. -/
def ClassIdentityCanonical (members : List (String × JsonTree)) (arrayIndex : ℕ) : Prop :=
  stringOf? (members.lookup "operation") = some (if arrayIndex < qkClassCount then "qk" else "pv") ∧
    integerOf? (members.lookup "class_index") =
      some (if arrayIndex < qkClassCount then (arrayIndex : ℤ) else (arrayIndex : ℤ) - qkClassCount)
        ∧
    (∃ functionName ∈ stringOf? (members.lookup "function_name"),
      functionName.toList ≠ [] ∧
        ∀ c ∈ functionName.toList, c.toNat < 0x80 ∧ ¬ (c.toNat < 0x21 ∨ 0x7E < c.toNat)) ∧
    ∃ transport ∈ stringOf? (members.lookup "parameter_transport"),
      transport ∈ ["kernel_params", "extra"]

instance (members : List (String × JsonTree)) (arrayIndex : ℕ) :
    Decidable (ClassIdentityCanonical members arrayIndex) := inferInstanceAs (Decidable (_ ∧ _))

/-- The pass of `_validate_class_table_document` over a class. -/
def validateClass (label : String) (arrayIndex : ℕ) (value : JsonTree) : Except String Unit := do
  let itemLabel := label ++ ".classes[" ++ toString arrayIndex ++ "]"
  let members := (dictOf? (some value)).getD []
  raiseIf (¬ KeysAre members classKeys) (itemLabel ++ " keys are not canonical")
  raiseIf (¬ ClassIdentityCanonical members arrayIndex) (itemLabel ++ " identity is not canonical")
  requirePositiveTriplet (members.lookup "block") (itemLabel ++ ".block")
  let shared ← requireInteger (members.lookup "shared_memory_bytes")
    (itemLabel ++ ".shared_memory_bytes")
  let offset ← requireInteger (members.lookup "parameter_offset") (itemLabel ++ ".parameter_offset")
  let size ← requireInteger (members.lookup "parameter_size") (itemLabel ++ ".parameter_size")
  raiseIf (shared < 0 ∨ offset < 0 ∨ size ≤ 0) (itemLabel ++ " launch values are invalid")

/-- The pass over an operation of a record: the class that it uses. -/
def validateOperation (itemLabel operation : String) (count : ℕ)
    (members : List (String × JsonTree)) : Except String ℤ := do
  let operationMembers := (dictOf? (members.lookup operation)).getD []
  raiseIf (¬ KeysAre operationMembers operationKeys)
    (itemLabel ++ "." ++ operation ++ " keys are not canonical")
  let classIndex ← requireInteger (operationMembers.lookup "class_index")
    (itemLabel ++ "." ++ operation ++ ".class_index")
  raiseIf (¬ (0 ≤ classIndex ∧ classIndex < (count : ℤ)))
    (itemLabel ++ "." ++ operation ++ ".class_index is invalid")
  requirePositiveTriplet (operationMembers.lookup "grid")
    (itemLabel ++ "." ++ operation ++ ".grid")
  return classIndex

/-- The pass over a record: the classes that it uses. -/
def validateK (label : String) (arrayIndex : ℕ) (value : JsonTree) : Except String (ℤ × ℤ) := do
  let itemLabel := label ++ ".k_records[" ++ toString arrayIndex ++ "]"
  let members := (dictOf? (some value)).getD []
  raiseIf (¬ KeysAre members kKeys) (itemLabel ++ " keys are not canonical")
  raiseIf (integerOf? (members.lookup "active_k") ≠ some ((minimumK : ℤ) + arrayIndex))
    (itemLabel ++ ".active_k is not canonical")
  let usedQk ← validateOperation itemLabel "qk" qkClassCount members
  let usedPv ← validateOperation itemLabel "pv" pvClassCount members
  return (usedQk, usedPv)

/-- The dimensions of a document are canonical. -/
def DimensionsCanonical (members : List (String × JsonTree)) : Prop :=
  integerOf? (members.lookup "schema_version") = some 1 ∧
    (listOf? (members.lookup "active_k_range")).map
        (fun values => values.map fun value => integerOf? (some value)) =
      some [some (minimumK : ℤ), some (maximumK : ℤ)] ∧
    integerOf? (members.lookup "qk_class_count") = some (qkClassCount : ℤ) ∧
    integerOf? (members.lookup "pv_class_count") = some (pvClassCount : ℤ) ∧
    (listOf? (members.lookup "classes")).map List.length = some classCount ∧
    (listOf? (members.lookup "k_records")).map List.length = some kCount

instance (members : List (String × JsonTree)) : Decidable (DimensionsCanonical members) :=
  inferInstanceAs (Decidable (_ ∧ _))

/-- `_validate_class_table_document`. -/
def validateClassTableDocument (members : List (String × JsonTree)) (label : String) :
    Except String Unit := do
  raiseIf (¬ KeysAre members tableKeys) (label ++ " keys are not canonical")
  raiseIf (¬ DimensionsCanonical members) (label ++ " dimensions are not canonical")
  let classes := (listOf? (members.lookup "classes")).getD []
  let kRecords := (listOf? (members.lookup "k_records")).getD []
  let _ ← classes.zipIdx.mapM fun (value, arrayIndex) => validateClass label arrayIndex value
  let used ← kRecords.zipIdx.mapM fun (value, arrayIndex) => validateK label arrayIndex value
  raiseIf (¬ CoversRange (used.map Prod.fst) qkClassCount ∨
    ¬ CoversRange (used.map Prod.snd) pvClassCount) (label ++ " contains an unused kernel class")

/-! ### The documents of the records -/

/-- `_require_zero_reserved`. -/
def requireZeroReserved {count : ℕ} (values : Fin count → ℕ) (label : String) :
    Except String Unit :=
  raiseIf (∃ index, values index ≠ 0) (label ++ " contains nonzero reserved fields")

/-- `_decode_function_name`. -/
def decodeFunctionName (record : ClassRecord) (label : String) : Except String String :=
  let payload := record.functionName.val
  match payload.findIdx? (· == 0) with
  | none => .error (label ++ ".function_name is not NUL-terminated")
  | some terminator => do
    raiseIf (terminator < 1) (label ++ ".function_name is not NUL-terminated")
    raiseIf ((payload.drop (terminator + 1)).any (· != 0) = true)
      (label ++ ".function_name has nonzero trailing bytes")
    raiseIf ((payload.take terminator).any (fun byte => 0x7F < byte) = true)
      (label ++ ".function_name is not ASCII")
    let value := (payload.take terminator).map characterOf
    raiseIf (value.any (fun c => c.toNat < 0x21 || 0x7E < c.toNat) = true)
      (label ++ ".function_name has unsafe characters")
    return String.ofList value

/-- The name of a parameter transport in `_class_document`. -/
def transportName (parameterTransport : ℕ) (label : String) : Except String String :=
  match [(1, "kernel_params"), (2, "extra")].lookup parameterTransport with
  | some transport => .ok transport
  | none => .error (label ++ ".parameter_transport is invalid")

/-- `_class_document`. -/
def classDocument (record : ClassRecord) (arrayIndex : ℕ) : Except String JsonTree := do
  let label := "class_table.classes[" ++ toString arrayIndex ++ "]"
  raiseIf (record.structSize ≠ classRecordSize) (label ++ ".struct_size mismatch")
  raiseIf (record.abiVersion ≠ 1) (label ++ ".abi_version mismatch")
  let expectedOperation := if arrayIndex < qkClassCount then 1 else 2
  let expectedClassIndex :=
    if expectedOperation = 1 then arrayIndex else arrayIndex - qkClassCount
  raiseIf (record.operation ≠ expectedOperation ∨ record.classIndex ≠ expectedClassIndex)
    (label ++ " operation/class ordering mismatch")
  let operation := if record.operation = 1 then "qk" else "pv"
  let transport ← transportName record.parameterTransport label
  raiseIf (record.blockX = 0 ∨ record.blockY = 0 ∨ record.blockZ = 0 ∨ record.parameterSize = 0)
    (label ++ " has an empty launch contract")
  raiseIf (record.reserved0 ≠ 0) (label ++ ".reserved_0 is nonzero")
  requireZeroReserved record.reserved (label ++ ".reserved")
  let functionName ← decodeFunctionName record label
  return .object [
    ("operation", .string operation),
    ("class_index", naturalTree record.classIndex),
    ("function_name", .string functionName),
    ("parameter_transport", .string transport),
    ("block", naturalsTree [record.blockX, record.blockY, record.blockZ]),
    ("shared_memory_bytes", naturalTree record.sharedMemoryBytes),
    ("parameter_offset", naturalTree record.parameterOffset),
    ("parameter_size", naturalTree record.parameterSize)]

/-- `_k_document`. -/
def kDocument (record : KRecord) (arrayIndex : ℕ) : Except String JsonTree := do
  let label := "class_table.k_records[" ++ toString arrayIndex ++ "]"
  raiseIf (record.structSize ≠ kRecordSize) (label ++ ".struct_size mismatch")
  raiseIf (record.abiVersion ≠ 1) (label ++ ".abi_version mismatch")
  raiseIf (record.activeK ≠ (minimumK : ℤ) + arrayIndex) (label ++ ".active_k is not canonical")
  raiseIf (¬ (0 ≤ record.qkClassIndex ∧ record.qkClassIndex < (qkClassCount : ℤ)))
    (label ++ ".qk_class_index is invalid")
  raiseIf (¬ (0 ≤ record.pvClassIndex ∧ record.pvClassIndex < (pvClassCount : ℤ)))
    (label ++ ".pv_class_index is invalid")
  raiseIf (record.qkGridX = 0 ∨ record.qkGridY = 0 ∨ record.qkGridZ = 0 ∨ record.pvGridX = 0 ∨
    record.pvGridY = 0 ∨ record.pvGridZ = 0) (label ++ " has an empty grid dimension")
  raiseIf (record.reserved0 ≠ 0) (label ++ ".reserved_0 is nonzero")
  requireZeroReserved record.reserved (label ++ ".reserved")
  return .object [
    ("active_k", .integer record.activeK),
    ("qk", .object [
      ("class_index", .integer record.qkClassIndex),
      ("grid", naturalsTree [record.qkGridX, record.qkGridY, record.qkGridZ])]),
    ("pv", .object [
      ("class_index", .integer record.pvClassIndex),
      ("grid", naturalsTree [record.pvGridX, record.pvGridY, record.pvGridZ])])]

/-! ### The identity -/

/-- `Mode8ClassTableIdentity`. -/
structure Mode8ClassTableIdentity (δ : Type) where
  document : JsonTree
  sha256 : δ

/-- The record that `collect_mode8_class_table_identity` hands to the getter. -/
def requestTable : ClassTable where
  structSize := classTableSize
  abiVersion := 1
  classCount := 0
  kCount := 0
  classes := fun _ => ⟨0, 0, 0, 0, 0, 0, 0, 0, 0, 0, 0, 0, nameBuffer "", fun _ => 0⟩
  kRecords := fun _ => ⟨0, 0, 0, 0, 0, 0, 0, 0, 0, 0, 0, 0, fun _ => 0⟩
  reserved := fun _ => 0

/-- The classes of an operation in the documents of the records. -/
def usedClasses (operation : String) (kRecords : List JsonTree) : List ℤ :=
  kRecords.filterMap fun record =>
    let members := (dictOf? (some record)).getD []
    (dictOf? (members.lookup operation)).bind fun operationMembers =>
      integerOf? (operationMembers.lookup "class_index")

/-- `collect_mode8_class_table_identity`, with the getter of the plugin library. -/
def collectMode8ClassTableIdentity {δ : Type} (sha256 : List Char → δ)
    (getter : ClassTable → PluginStatus × ClassTable) :
    Except String (Mode8ClassTableIdentity δ) := do
  let (status, table) := getter requestTable
  raiseIf (status ≠ .ok)
    ("mode-8 class-table C ABI is not ready or conflicted: status=" ++ toString status.code)
  raiseIf (table.structSize ≠ classTableSize ∨ table.abiVersion ≠ 1 ∨
    table.classCount ≠ classCount ∨ table.kCount ≠ kCount) "mode-8 class-table header mismatch"
  requireZeroReserved table.reserved "class_table.reserved"
  let classes ← (List.finRange mttMainDevicePositionClassCountV1).mapM fun index =>
    classDocument (table.classes index) index
  let kRecords ← (List.finRange mttMainDevicePositionKCountV1).mapM fun index =>
    kDocument (table.kRecords index) index
  raiseIf (¬ CoversRange (usedClasses "qk" kRecords) qkClassCount ∨
    ¬ CoversRange (usedClasses "pv" kRecords) pvClassCount)
    "mode-8 class table contains an unused kernel class"
  let members := [
    ("schema_version", naturalTree 1),
    ("active_k_range", naturalsTree [minimumK, maximumK]),
    ("qk_class_count", naturalTree qkClassCount),
    ("pv_class_count", naturalTree pvClassCount),
    ("classes", .array classes),
    ("k_records", .array kRecords)]
  validateClassTableDocument members "class_table"
  let document := JsonTree.object members
  return ⟨document, sha256 (canonicalClassTableBytes document)⟩

/-! ### What the exporter builds -/

/-- The document of a class record as it is built. -/
def builtClassTree (index : ℕ) (record : ClassRecord) : JsonTree :=
  .object [
    ("operation", .string (operationAt index).text),
    ("class_index", naturalTree record.classIndex),
    ("function_name", .string (nameText record.functionName)),
    ("parameter_transport", .string (transportText record.parameterTransport)),
    ("block", naturalsTree [record.blockX, record.blockY, record.blockZ]),
    ("shared_memory_bytes", naturalTree record.sharedMemoryBytes),
    ("parameter_offset", naturalTree record.parameterOffset),
    ("parameter_size", naturalTree record.parameterSize)]

/-- The document of a record of a number of active entries as it is built. -/
def builtKTree (record : KRecord) : JsonTree :=
  .object [
    ("active_k", .integer record.activeK),
    ("qk", launchTree record.qkClassIndex record.qkGridX record.qkGridY record.qkGridZ),
    ("pv", launchTree record.pvClassIndex record.pvGridX record.pvGridY record.pvGridZ)]

/-- The documents of the records of a table as they are built. -/
def builtClasses (table : ClassTable) : List JsonTree :=
  (List.finRange mttMainDevicePositionClassCountV1).map fun index : Fin _ =>
    builtClassTree index (table.classes index)

def builtKRecords (table : ClassTable) : List JsonTree :=
  (List.finRange mttMainDevicePositionKCountV1).map fun index =>
    builtKTree (table.kRecords index)

/-- The members of the document of a table as it is built. -/
def builtTableMembers (table : ClassTable) : List (String × JsonTree) := [
  ("schema_version", naturalTree 1),
  ("active_k_range", naturalsTree [minimumK, maximumK]),
  ("qk_class_count", naturalTree qkClassCount),
  ("pv_class_count", naturalTree pvClassCount),
  ("classes", .array (builtClasses table)),
  ("k_records", .array (builtKRecords table))]

theorem raiseIf_eq_ok_iff {condition : Prop} [Decidable condition] {message : String}
    {value : Unit} : raiseIf condition message = .ok value ↔ ¬ condition := by
  unfold raiseIf
  split_ifs with h
  · exact ⟨nofun, fun hnot => absurd h hnot⟩
  · exact ⟨fun _ => h, fun _ => rfl⟩

theorem requireZeroReserved_eq_ok_iff {count : ℕ} {values : Fin count → ℕ} {label : String}
    {value : Unit} : requireZeroReserved values label = .ok value ↔ ∀ index, values index = 0 := by
  rw [requireZeroReserved, raiseIf_eq_ok_iff, not_exists_not]

theorem transportName_eq_ok_iff {parameterTransport : ℕ} {label text : String} :
    transportName parameterTransport label = .ok text ↔
      (∃ transport : ParameterTransport, parameterTransport = transport.abiValue) ∧
        transportText parameterTransport = text := by
  have hkernel : ParameterTransport.kernelParams.abiValue = 1 := rfl
  have hextra : ParameterTransport.extra.abiValue = 2 := rfl
  rw [transportName, transportText, hkernel]
  by_cases hone : parameterTransport = 1
  · subst hone
    rw [if_pos rfl]
    exact ⟨fun h => ⟨⟨.kernelParams, rfl⟩, Except.ok.inj h⟩, fun h => congrArg Except.ok h.2⟩
  · rw [if_neg hone]
    by_cases htwo : parameterTransport = 2
    · subst htwo
      exact ⟨fun h => ⟨⟨.extra, rfl⟩, Except.ok.inj h⟩, fun h => congrArg Except.ok h.2⟩
    · have hlookup : [(1, "kernel_params"), (2, "extra")].lookup parameterTransport = none := by
        rw [List.lookup_cons, beq_eq_false_iff_ne.mpr hone, List.lookup_cons,
          beq_eq_false_iff_ne.mpr htwo, List.lookup_nil]
      rw [hlookup]
      refine iff_of_false (fun h => by cases h) ?_
      rintro ⟨⟨_ | _, htransport⟩, -⟩
      · exact hone htransport
      · exact htwo htransport

theorem decodeFunctionName_eq_ok_iff {record : ClassRecord} {label text : String} :
    decodeFunctionName record label = .ok text ↔
      record.functionName.Valid ∧ nameText record.functionName = text := by
  have htake : record.functionName.val.take (nameBytes record.functionName).length =
      nameBytes record.functionName := by
    rw [length_nameBytes, nameBytes]
  have hcharacters : (∀ byte ∈ nameBytes record.functionName, 0x21 ≤ byte ∧ byte ≤ 0x7E) ↔
      ∀ byte ∈ nameBytes record.functionName,
        0x21 ≤ (characterOf byte).toNat ∧ (characterOf byte).toNat ≤ 0x7E := by
    simp only [UInt8.le_iff_toNat_le, characterOf_toNat]
    rfl
  rw [decodeFunctionName]
  rcases findIdx?_zero_cases record.functionName with ⟨hnone, hlength⟩ | ⟨hlt, hsome, hdrop⟩
  · simp only [hnone]
    exact iff_of_false (fun h => by cases h) fun h => absurd hlength h.1.terminated.ne
  · simp only [hsome, htake, bind_unit_eq_ok_iff, raiseIf_eq_ok_iff]
    constructor
    · rintro ⟨hempty, hzeros, -, hprintable, hreturn⟩
      refine ⟨⟨fun hnil => hempty (by rw [hnil]; decide), hlt, hcharacters.mpr ?_, ?_⟩,
        Except.ok.inj hreturn⟩
      · intro byte hbyte
        simp only [List.any_map, List.any_eq_true, not_exists, not_and, Bool.or_eq_true,
          decide_eq_true_iff, not_or, not_lt, Function.comp_apply] at hprintable
        exact hprintable byte hbyte
      · intro byte hbyte
        rw [hdrop] at hbyte
        rcases List.mem_cons.mp hbyte with rfl | hbyte
        · rfl
        · simpa using fun hne => hzeros (List.any_eq_true.mpr ⟨byte, hbyte, hne⟩)
    · rintro ⟨hvalid, rfl⟩
      refine ⟨fun hlt => ?_, ?_, ?_, ?_, rfl⟩
      · exact hvalid.nonempty (List.length_eq_zero_iff.mp (Nat.lt_one_iff.mp hlt))
      · have hzeros := hvalid.zeros
        rw [hdrop] at hzeros
        simp only [List.any_eq_true, not_exists, not_and]
        intro byte hbyte
        simpa using hzeros byte (List.mem_cons_of_mem _ hbyte)
      · simp only [List.any_eq_true, not_exists, not_and, decide_eq_true_iff, UInt8.not_lt]
        exact fun byte hbyte => UInt8.le_trans (hvalid.printable byte hbyte).2 (by decide)
      · simp only [List.any_map, List.any_eq_true, not_exists, not_and, Bool.or_eq_true,
          decide_eq_true_iff, not_or, not_lt, Function.comp_apply]
        exact hcharacters.mp hvalid.printable

theorem classDocument_eq_ok_iff {record : ClassRecord} {index : ℕ} {tree : JsonTree} :
    classDocument record index = .ok tree ↔
      record.Valid index ∧ builtClassTree index record = tree := by
  have hoperation : (if index < qkClassCount then 1 else 2) = (operationAt index).abiValue := by
    rw [operationAt]
    change (if index < kMainDevicePositionQkClasses then 1 else 2) = _
    split_ifs <;> rfl
  have hclassIndex : (if (operationAt index).abiValue = 1 then index else index - qkClassCount) =
      classIndexAt index := by
    rw [operationAt, classIndexAt]
    split_ifs with hqk h h
    · rfl
    · exact absurd rfl h
    · exact absurd h (by decide)
    · rfl
  have htext (h : record.operation = (operationAt index).abiValue) :
      (if record.operation = 1 then "qk" else "pv") = (operationAt index).text := by
    rw [h]
    cases operationAt index <;> rfl
  rw [classDocument]
  simp only [bind_eq_ok_iff, raiseIf_eq_ok_iff, requireZeroReserved_eq_ok_iff,
    transportName_eq_ok_iff, decodeFunctionName_eq_ok_iff, hoperation, hclassIndex, not_or, not_not]
  constructor
  · rintro ⟨-, hsize, -, habi, -, ⟨hop, hclass⟩, _, ⟨htransport, rfl⟩, -, ⟨hx, hy, hz, hparameter⟩,
      -, hreserved0, -, hreserved, _, ⟨hname, rfl⟩, hreturn⟩
    rw [htext hop] at hreturn
    exact ⟨⟨hsize, habi, hreserved0, hreserved, hop, hclass, htransport, ⟨hx, hy, hz⟩, hparameter,
      hname⟩, Except.ok.inj hreturn⟩
  · rintro ⟨hvalid, rfl⟩
    rw [htext hvalid.operation]
    exact ⟨(), hvalid.structSize, (), hvalid.abiVersion, (), ⟨hvalid.operation, hvalid.classIndex⟩,
      _, ⟨hvalid.transport, rfl⟩, (),
      ⟨hvalid.block.1, hvalid.block.2.1, hvalid.block.2.2, hvalid.parameterSize⟩, (),
      hvalid.reserved0, (), hvalid.reserved, _, ⟨hvalid.functionName, rfl⟩, rfl⟩

theorem kDocument_eq_ok_iff {record : KRecord} {index : ℕ} {tree : JsonTree} :
    kDocument record index = .ok tree ↔ record.Valid index ∧ builtKTree record = tree := by
  rw [kDocument]
  simp only [bind_eq_ok_iff, raiseIf_eq_ok_iff, requireZeroReserved_eq_ok_iff, not_or, not_not]
  constructor
  · rintro ⟨-, hsize, -, habi, -, hk, -, hqk, -, hpv, -, ⟨hqx, hqy, hqz, hpx, hpy, hpz⟩, -,
      hreserved0, -, hreserved, hreturn⟩
    exact ⟨⟨hsize, habi, hk, hreserved0, hreserved, hqk, hpv, ⟨hqx, hqy, hqz⟩, ⟨hpx, hpy, hpz⟩⟩,
      Except.ok.inj hreturn⟩
  · rintro ⟨hvalid, rfl⟩
    exact ⟨(), hvalid.structSize, (), hvalid.abiVersion, (), hvalid.activeK, (),
      hvalid.qkClassIndex, (), hvalid.pvClassIndex, (),
      ⟨hvalid.qkGrid.1, hvalid.qkGrid.2.1, hvalid.qkGrid.2.2, hvalid.pvGrid.1, hvalid.pvGrid.2.1,
        hvalid.pvGrid.2.2⟩, (), hvalid.reserved0, (), hvalid.reserved, rfl⟩

/-! ### The check of a built document -/

theorem keysAre_of_map {members : List (String × JsonTree)} {expected : List String}
    (h : members.map Prod.fst = expected) : KeysAre members expected := by
  subst h
  exact ⟨fun _ => id, fun _ => id⟩

theorem positiveTriplet_naturals {x y z : ℕ} (h : x ≠ 0 ∧ y ≠ 0 ∧ z ≠ 0) :
    PositiveTriplet ([x, y, z].map naturalTree) := by
  refine ⟨rfl, ?_⟩
  obtain ⟨hx, hy, hz⟩ := h
  simp [naturalTree, integerOf?]
  omega

theorem requirePositiveTriplet_naturals {x y z : ℕ} (h : x ≠ 0 ∧ y ≠ 0 ∧ z ≠ 0)
    (label : String) : requirePositiveTriplet (some (naturalsTree [x, y, z])) label = .ok () :=
  raiseIf_eq_ok_iff.mpr (not_not_intro (positiveTriplet_naturals h))

/-- The members of a class document. -/
theorem classIdentityCanonical {record : ClassRecord} {index : ℕ} (h : record.Valid index) :
    ClassIdentityCanonical ((dictOf? (some (builtClassTree index record))).getD []) index := by
  refine ⟨?_, ?_, ⟨nameText record.functionName, rfl, ?_, ?_⟩,
    ⟨transportText record.parameterTransport, rfl, ?_⟩⟩
  · change some (operationAt index).text =
      some (if index < kMainDevicePositionQkClasses then _ else _)
    rw [operationAt]
    split_ifs <;> rfl
  · change some (record.classIndex : ℤ) =
      some (if index < kMainDevicePositionQkClasses then (index : ℤ)
        else (index : ℤ) - kMainDevicePositionQkClasses)
    rw [h.classIndex, classIndexAt]
    split_ifs with hqk
    · rfl
    · rw [Int.ofNat_sub (not_lt.mp hqk)]
  · rw [nameText, String.toList_ofList]
    exact fun hnil => h.functionName.nonempty (List.map_eq_nil_iff.mp hnil)
  · intro c hc
    rw [nameText, String.toList_ofList, List.mem_map] at hc
    obtain ⟨byte, hbyte, rfl⟩ := hc
    have hbounds := h.functionName.printable byte hbyte
    rw [UInt8.le_iff_toNat_le, UInt8.le_iff_toNat_le] at hbounds
    have hlow : 0x21 ≤ byte.toNat := hbounds.1
    have hhigh : byte.toNat ≤ 0x7E := hbounds.2
    rw [characterOf_toNat]
    omega
  · rw [transportText]
    split_ifs <;> decide

theorem validateClass_built {record : ClassRecord} {index : ℕ} (h : record.Valid index)
    (label : String) : validateClass label index (builtClassTree index record) = .ok () := by
  rw [validateClass]
  simp only [bind_eq_ok_iff, raiseIf_eq_ok_iff, not_not]
  refine ⟨(), keysAre_of_map rfl, (), classIdentityCanonical h, (),
    requirePositiveTriplet_naturals h.block _, _, rfl, _, rfl, _, rfl, ?_⟩
  have := h.parameterSize
  omega

theorem validateOperation_built {classIndex : ℤ} {x y z count : ℕ}
    {members : List (String × JsonTree)} {operation : String}
    (hlookup : members.lookup operation = some (launchTree classIndex x y z))
    (hclass : 0 ≤ classIndex ∧ classIndex < (count : ℤ)) (hgrid : x ≠ 0 ∧ y ≠ 0 ∧ z ≠ 0)
    (label : String) : validateOperation label operation count members = .ok classIndex := by
  rw [validateOperation, hlookup]
  simp only [bind_eq_ok_iff, raiseIf_eq_ok_iff, not_not]
  exact ⟨(), keysAre_of_map rfl, _, rfl, (), hclass, (), requirePositiveTriplet_naturals hgrid _,
    rfl⟩

theorem validateK_built {record : KRecord} {index : ℕ} (h : record.Valid index) (label : String) :
    validateK label index (builtKTree record) =
      .ok (record.qkClassIndex, record.pvClassIndex) := by
  rw [validateK]
  simp only [bind_eq_ok_iff, raiseIf_eq_ok_iff, not_not]
  exact ⟨(), keysAre_of_map rfl, (), congrArg some h.activeK, _,
    validateOperation_built rfl h.qkClassIndex h.qkGrid _, _,
    validateOperation_built rfl h.pvClassIndex h.pvGrid _, rfl⟩

theorem zipIdx_map_finRange {count : ℕ} {α : Type} (f : Fin count → α) :
    ((List.finRange count).map f).zipIdx =
      (List.finRange count).map fun index => (f index, index.val) := by
  refine List.ext_getElem (by simp) fun index h h' => ?_
  simp

theorem coversRange_iff {length count : ℕ} {used : Fin length → ℤ} :
    CoversRange ((List.finRange length).map used) count ↔
      (∀ index, 0 ≤ used index ∧ used index < (count : ℤ)) ∧
        ∀ classIndex < count, ∃ index, used index = (classIndex : ℤ) := by
  simp [CoversRange]

/-- The records of a valid table use all classes. -/
theorem coversRange_qk {table : ClassTable} (h : table.Valid) :
    CoversRange ((List.finRange mttMainDevicePositionKCountV1).map fun index =>
      (table.kRecords index).qkClassIndex) qkClassCount :=
  coversRange_iff.mpr ⟨fun index => (h.kRecords index).qkClassIndex, h.usedQk⟩

theorem coversRange_pv {table : ClassTable} (h : table.Valid) :
    CoversRange ((List.finRange mttMainDevicePositionKCountV1).map fun index =>
      (table.kRecords index).pvClassIndex) pvClassCount :=
  coversRange_iff.mpr ⟨fun index => (h.kRecords index).pvClassIndex, h.usedPv⟩

theorem length_builtClasses (table : ClassTable) : (builtClasses table).length = classCount :=
  (List.length_map _).trans List.length_finRange

theorem length_builtKRecords (table : ClassTable) : (builtKRecords table).length = kCount :=
  (List.length_map _).trans List.length_finRange

theorem validateClasses_built {table : ClassTable} (h : table.Valid) (label : String) :
    ∃ results, (builtClasses table).zipIdx.mapM (fun (value, arrayIndex) =>
      validateClass label arrayIndex value) = .ok results := by
  rw [builtClasses, zipIdx_map_finRange]
  refine exists_mapM_eq_ok_iff.mpr fun item hitem => ?_
  obtain ⟨index, -, rfl⟩ := List.mem_map.mp hitem
  exact ⟨(), validateClass_built (h.classes index) label⟩

theorem validateKRecords_built {table : ClassTable} (h : table.Valid) (label : String) :
    (builtKRecords table).zipIdx.mapM (fun (value, arrayIndex) =>
        validateK label arrayIndex value) =
      .ok ((List.finRange mttMainDevicePositionKCountV1).map fun index =>
        ((table.kRecords index).qkClassIndex, (table.kRecords index).pvClassIndex)) := by
  rw [builtKRecords, zipIdx_map_finRange, mapM_eq_ok_iff, List.forall₂_map_left_iff,
    List.forall₂_map_right_iff, List.forall₂_same]
  exact fun index _ => validateK_built (h.kRecords index) label

/-- The check of the document that is built for a valid table passes. -/
theorem validateClassTableDocument_built {table : ClassTable} (h : table.Valid) (label : String) :
    validateClassTableDocument (builtTableMembers table) label = .ok () := by
  obtain ⟨results, hclasses⟩ := validateClasses_built h label
  have hkRecords := validateKRecords_built h label
  have hdimensions : DimensionsCanonical (builtTableMembers table) :=
    ⟨rfl, rfl, rfl, rfl, congrArg some (length_builtClasses table),
      congrArg some (length_builtKRecords table)⟩
  rw [validateClassTableDocument]
  simp only [bind_eq_ok_iff, raiseIf_eq_ok_iff, not_not, not_or]
  refine ⟨(), keysAre_of_map rfl, (), hdimensions, results, hclasses, _, hkRecords, ?_, ?_⟩
  · rw [List.map_map]
    exact coversRange_qk h
  · rw [List.map_map]
    exact coversRange_pv h

/-! ### The written document -/

theorem sortKeys_naturalsTree (values : List ℕ) :
    (naturalsTree values).sortKeys = naturalsTree values := by
  rw [naturalsTree, JsonTree.sortKeys, JsonTree.sortElements_eq_map, List.map_map]
  rfl

theorem sortKeys_builtClassTree (index : ℕ) (record : ClassRecord) :
    (builtClassTree index record).sortKeys = classTree index record := by
  simp only [builtClassTree, classTree, naturalTree, JsonTree.sortKeys, JsonTree.sortValues,
    sortKeys_naturalsTree, sortMembers_class]

theorem sortKeys_launchTree (classIndex : ℤ) (x y z : ℕ) :
    (launchTree classIndex x y z).sortKeys = launchTree classIndex x y z := by
  simp only [launchTree, JsonTree.sortKeys, JsonTree.sortValues, sortKeys_naturalsTree,
    sortMembers_launch]

theorem sortKeys_builtKTree (record : KRecord) : (builtKTree record).sortKeys = kTree record := by
  simp only [builtKTree, kTree, JsonTree.sortKeys, JsonTree.sortValues, sortKeys_launchTree,
    sortMembers_k]

/-- With the members in the order of their keys, the document is that of the table. -/
theorem sortKeys_builtTable (table : ClassTable) :
    (JsonTree.object (builtTableMembers table)).sortKeys = tableTree table := by
  have hclasses : JsonTree.sortElements (builtClasses table) =
      (List.finRange mttMainDevicePositionClassCountV1).map fun index : Fin _ =>
        classTree index (table.classes index) := by
    rw [JsonTree.sortElements_eq_map, builtClasses, List.map_map]
    exact List.map_congr_left fun index _ => sortKeys_builtClassTree _ _
  have hkRecords : JsonTree.sortElements (builtKRecords table) =
      (List.finRange mttMainDevicePositionKCountV1).map fun index =>
        kTree (table.kRecords index) := by
    rw [JsonTree.sortElements_eq_map, builtKRecords, List.map_map]
    exact List.map_congr_left fun index _ => sortKeys_builtKTree _
  simp only [builtTableMembers, naturalTree, JsonTree.sortKeys, JsonTree.sortValues,
    sortKeys_naturalsTree, sortMembers_table, hclasses, hkRecords, tableTree]
  rfl

/-- The two programs escape characters the same way. -/
theorem pythonEscape_eq : pythonEscape = nlohmannEscape := by
  funext c
  by_cases hc : c ∈ ['\x08', '\x09', '\x0A', '\x0C', '\x0D', '\x22', '\\']
  · simp only [List.mem_cons, List.not_mem_nil, or_false] at hc
    rcases hc with rfl | rfl | rfl | rfl | rfl | rfl | rfl <;> rfl
  · simp only [List.mem_cons, List.not_mem_nil, or_false, not_or] at hc
    obtain ⟨h08, h09, h0A, h0C, h0D, hmark, hsolidus⟩ := hc
    rw [pythonEscape, nlohmannEscape, if_neg h08, if_neg h09, if_neg h0A, if_neg h0C, if_neg h0D,
      if_neg hmark, if_neg hsolidus, if_neg h08, if_neg h0C, if_neg h0A, if_neg h0D, if_neg h09,
      if_neg hsolidus, if_neg hmark]
    by_cases hplain : 0x20 ≤ c.toNat ∧ c.toNat ≤ 0x7E
    · rw [if_pos (by simp [hmark, hsolidus, hplain]), if_neg (by omega)]
    · rw [if_neg (by simp [hplain]), if_pos (by omega)]

/-- The bytes that the exporter writes are the text that the runtime writes. -/
theorem canonicalClassTableBytes_built (table : ClassTable) :
    canonicalClassTableBytes (.object (builtTableMembers table)) =
      (tableTree table).render (quoted nlohmannEscape) := by
  rw [canonicalClassTableBytes, sortKeys_builtTable, pythonEscape_eq]

/-! ### What the exporter accepts -/

theorem usedClasses_qk (table : ClassTable) : usedClasses "qk" (builtKRecords table) =
    (List.finRange mttMainDevicePositionKCountV1).map fun index =>
      (table.kRecords index).qkClassIndex := by
  rw [usedClasses, builtKRecords, List.filterMap_map, ← List.filterMap_eq_map]
  rfl

theorem usedClasses_pv (table : ClassTable) : usedClasses "pv" (builtKRecords table) =
    (List.finRange mttMainDevicePositionKCountV1).map fun index =>
      (table.kRecords index).pvClassIndex := by
  rw [usedClasses, builtKRecords, List.filterMap_map, ← List.filterMap_eq_map]
  rfl

/-- The identity of a table in the exporter. -/
def mode8IdentityOf {δ : Type} (sha256 : List Char → δ) (table : ClassTable) :
    Mode8ClassTableIdentity δ :=
  let document := JsonTree.object (builtTableMembers table)
  ⟨document, sha256 (canonicalClassTableBytes document)⟩

variable {δ : Type} {sha256 : List Char → δ}

/-- The exporter accepts the valid tables that the getter returns. -/
theorem collectMode8_eq_ok_iff {getter : ClassTable → PluginStatus × ClassTable}
    {identity : Mode8ClassTableIdentity δ} :
    collectMode8ClassTableIdentity sha256 getter = .ok identity ↔
      (getter requestTable).1 = .ok ∧ (getter requestTable).2.Valid ∧
        mode8IdentityOf sha256 (getter requestTable).2 = identity := by
  cases hgetter : getter requestTable with
  | mk status table =>
  rw [collectMode8ClassTableIdentity, hgetter]
  simp only [bind_eq_ok_iff, raiseIf_eq_ok_iff, requireZeroReserved_eq_ok_iff,
    mapM_finRange_eq_ok_iff fun index tree => @classDocument_eq_ok_iff _ index.val tree,
    mapM_finRange_eq_ok_iff fun index tree => @kDocument_eq_ok_iff _ index.val tree,
    not_or, not_not]
  constructor
  · rintro ⟨-, hstatus, -, ⟨hsize, habi, hclassCount, hkCount⟩, -, hreserved, _, ⟨hclasses, rfl⟩, _,
      ⟨hkRecords, rfl⟩, -, ⟨husedQk, husedPv⟩, -, -, hreturn⟩
    have husedQk' := (coversRange_iff.mp (usedClasses_qk table ▸ husedQk)).2
    have husedPv' := (coversRange_iff.mp (usedClasses_pv table ▸ husedPv)).2
    exact ⟨hstatus, ⟨hsize, habi, hclassCount, hkCount, hreserved, hclasses, hkRecords, husedQk',
      husedPv'⟩, Except.ok.inj hreturn⟩
  · rintro ⟨hstatus, hvalid, rfl⟩
    exact ⟨(), hstatus, (), ⟨hvalid.structSize, hvalid.abiVersion, hvalid.classCount,
      hvalid.kCount⟩, (), hvalid.reserved, builtClasses table, ⟨hvalid.classes, rfl⟩,
      builtKRecords table, ⟨hvalid.kRecords, rfl⟩, (),
      ⟨(usedClasses_qk table).symm ▸ coversRange_qk hvalid,
        (usedClasses_pv table).symm ▸ coversRange_pv hvalid⟩, (),
      validateClassTableDocument_built hvalid _, rfl⟩

/-! ### The two programs together -/

/-- The exporter, for a getter that returns a table. -/
def collectMode8Of (sha256 : List Char → δ) (table : ClassTable) :
    Except String (Mode8ClassTableIdentity δ) :=
  collectMode8ClassTableIdentity sha256 fun _ => (.ok, table)

theorem collectMode8Of_eq_ok_iff {table : ClassTable} {identity : Mode8ClassTableIdentity δ} :
    collectMode8Of sha256 table = .ok identity ↔
      table.Valid ∧ mode8IdentityOf sha256 table = identity :=
  collectMode8_eq_ok_iff.trans ⟨And.right, And.intro rfl⟩

/-- The runtime and the exporter accept a table. -/
def AcceptedByBoth (sha256 : List Char → δ) (table : ClassTable) : Prop :=
  (∃ identity, collectMainDevicePositionClassTableIdentity sha256 table = .ok identity) ∧
    ∃ identity, collectMode8Of sha256 table = .ok identity

theorem acceptedByBoth_of_valid {table : ClassTable} (h : table.Valid) :
    AcceptedByBoth sha256 table :=
  ⟨⟨_, collectIdentity_eq_ok_iff.mpr ⟨h, rfl⟩⟩, ⟨_, collectMode8Of_eq_ok_iff.mpr ⟨h, rfl⟩⟩⟩

/-- The calls of the latch by banks whose captured kernels are canonical. -/
def FromBanks (calls : List LatchCall) : Prop :=
  ∀ call ∈ calls, ∃ (cublas : Cublas) (bank : MainDevicePositionBank cublas),
    cublas.Canonical ∧ call = bank.latchCall

/-- What banks latch is valid. -/
theorem valid_of_mem_candidates {calls : List LatchCall} (hcalls : FromBanks calls)
    {table : ClassTable} (htable : table ∈ candidates calls) : table.Valid := by
  obtain ⟨call, hcall, hcandidate⟩ := List.mem_filterMap.mp htable
  obtain ⟨cublas, bank, hcublas, rfl⟩ := hcalls call hcall
  obtain ⟨other, hother, hvalid⟩ := bank.candidateTable_latchCall hcublas
  rwa [Option.some.inj (hcandidate.symm.trans hother)]

/-- With the getter of a plugin whose latched table is valid, the exporter accepts unless there is a
conflict. -/
theorem collectMode8_latch_iff {latch : Latch ClassTable} {table : ClassTable}
    (hvalue : latch.value = some table) (hvalid : table.Valid) :
    (∃ identity, collectMode8ClassTableIdentity sha256 (getMainDevicePositionClassTable latch) =
        .ok identity) ↔ latch.conflict = false := by
  simp only [collectMode8_eq_ok_iff, exists_and_left, exists_eq', and_true]
  constructor
  · rintro ⟨hstatus, -⟩
    exact ((get_eq_ok_iff rfl rfl).mp (Prod.ext hstatus rfl)).1
  · intro hconflict
    rw [(get_eq_ok_iff rfl rfl).mpr ⟨hconflict, hvalue⟩]
    exact ⟨rfl, hvalid⟩

/-- **The kernel-class table.** A scan that succeeds gives every number of active entries a class
whose representative is of the same kernel class; the classes are distinct, numbered in the order
of their first use, and all used. The latch keeps the first table for good, and refuses every call
after two tables that differ; what banks latch is accepted by the runtime and the exporter, which
gets it unless there is a conflict. The two accept the same tables, write the same canonical text
for a table, and the text determines the table. -/
theorem kernelClassTable_agree (sha256 : List Char → δ) :
    (∀ (cublas : Cublas) (operation : BankOperation) (representatives : List Representative)
        (launches : List BankLaunch),
      scanOperation cublas operation = some (representatives, launches) →
        (representatives.length = operation.classes ∧
          ∀ index < kMainDevicePositionKCount, ∃ launch, launches[index]? = some launch ∧
            Describes cublas operation representatives (kMainDevicePositionMinimumK + index)
              launch) ∧
        representatives.Pairwise (fun a b => a.kernel.kernelClass ≠ b.kernel.kernelClass) ∧
        ∀ classIndex < operation.classes, FirstUsedInOrder launches classIndex) ∧
    (∀ calls : List LatchCall,
      (run latchStep .initial calls).value = (candidates calls).head? ∧
      ∀ call, ((latchMainDevicePositionClassTable (run latchStep .initial calls) call).1 = true ↔
        ∃ candidate, candidateTable call = some candidate ∧
          ∀ table ∈ candidates calls, table = candidate)) ∧
    (∀ calls : List LatchCall, FromBanks calls →
      (∀ call ∈ calls, (candidateTable call).isSome = true) ∧
      ∀ table, (run latchStep .initial calls).value = some table →
        AcceptedByBoth sha256 table ∧
          ((∃ identity, collectMode8ClassTableIdentity sha256
            (getMainDevicePositionClassTable (run latchStep .initial calls)) = .ok identity) ↔
              (run latchStep .initial calls).conflict = false)) ∧
    (∀ table : ClassTable,
      ((∃ identity, collectMainDevicePositionClassTableIdentity sha256 table = .ok identity) ↔
        ∃ identity, collectMode8Of sha256 table = .ok identity) ∧
      ∀ identity identity',
        collectMainDevicePositionClassTableIdentity sha256 table = .ok identity →
        collectMode8Of sha256 table = .ok identity' →
          identity.canonicalJson = canonicalClassTableBytes identity'.document ∧
            identity.sha256 = identity'.sha256) ∧
    ∀ (table table' : ClassTable) (identity identity' : ClassTableIdentity δ),
      collectMainDevicePositionClassTableIdentity sha256 table = .ok identity →
      collectMainDevicePositionClassTableIdentity sha256 table' = .ok identity' →
        identity.canonicalJson = identity'.canonicalJson → table = table' := by
  refine ⟨fun cublas operation representatives launches hscan =>
    ⟨scanOperation_spec hscan, scanOperation_classes hscan⟩, fun calls => ⟨?_, fun call =>
      latch_answer_iff calls call⟩, fun calls hcalls => ⟨fun call hcall => ?_, fun table htable =>
      ?_⟩, fun table => ⟨?_, fun identity identity' h h' => ?_⟩,
    fun table table' identity identity' h h' htext => ?_⟩
  · rw [latch_run]
    rfl
  · obtain ⟨cublas, bank, hcublas, rfl⟩ := hcalls call hcall
    obtain ⟨other, hother, -⟩ := bank.candidateTable_latchCall hcublas
    rw [hother]
    rfl
  · have hvalid : table.Valid := by
      rw [latch_run] at htable
      exact valid_of_mem_candidates hcalls (List.mem_of_mem_head? htable)
    exact ⟨acceptedByBoth_of_valid hvalid, collectMode8_latch_iff htable hvalid⟩
  · simp only [collectIdentity_eq_ok_iff, collectMode8Of_eq_ok_iff, exists_and_left, exists_eq',
      and_true]
  · obtain ⟨-, rfl⟩ := collectIdentity_eq_ok_iff.mp h
    obtain ⟨-, rfl⟩ := collectMode8Of_eq_ok_iff.mp h'
    have htext := (canonicalClassTableBytes_built table).symm
    exact ⟨htext, congrArg sha256 htext⟩
  · obtain ⟨hvalid, rfl⟩ := collectIdentity_eq_ok_iff.mp h
    obtain ⟨hvalid', rfl⟩ := collectIdentity_eq_ok_iff.mp h'
    exact canonicalText_injective quotes_nlohmann hvalid hvalid' htext

end MagpieTts.Export
