import MagpieTts.Library.ExceptRules
import MagpieTts.Plugins.ClassTableDocument

/-!
# The identity of a kernel-class table in the runtime

The runtime checks the kernel-class table of the plugin and writes its document as canonical JSON.
It builds objects whose members are in the order of their keys.

## Main definitions

* `classDocument`, `kDocument`: the documents of the records.
* `collectMainDevicePositionClassTableIdentity`: the identity of a table.

## Main results

* `collectIdentity_eq_ok_iff`: the runtime accepts the valid tables, and writes their document.
* `quotes_nlohmann`: its quoting tells where a string of printable characters ends.
-/

namespace MagpieTts.Plugins

open MagpieTts.Library

/-! ### Quoting -/

/-- Four hexadecimal digits. -/
def hex4 (value : ℕ) : List Char :=
  [4096, 256, 16, 1].map fun weight => Nat.digitChar (value / weight % 16)

/-- The escape of a character by its code units. -/
def unicodeEscape (c : Char) : List Char :=
  if c.toNat ≤ 0xFFFF then '\\' :: 'u' :: hex4 c.toNat
  else
    '\\' :: 'u' :: (hex4 (0xD800 + (c.toNat - 0x10000) / 1024) ++
      '\\' :: 'u' :: hex4 (0xDC00 + (c.toNat - 0x10000) % 1024))

/-- The escape of a character in a string that nlohmann::json dumps as ASCII. -/
def nlohmannEscape (c : Char) : List Char :=
  if c = '\x08' then ['\\', 'b']
  else if c = '\x09' then ['\\', 't']
  else if c = '\x0A' then ['\\', 'n']
  else if c = '\x0C' then ['\\', 'f']
  else if c = '\x0D' then ['\\', 'r']
  else if c = '\x22' then ['\\', '\x22']
  else if c = '\\' then ['\\', '\\']
  else if c.toNat ≤ 0x1F ∨ 0x7F ≤ c.toNat then unicodeEscape c
  else [c]

/-- A quoting of printable characters tells where the string ends. -/
theorem quotes_nlohmann : Quotes (quoted nlohmannEscape) Printable := by
  have hquotes : Quotes (quoted nlohmannEscape) fun text =>
      ∀ c ∈ text.toList, 0x20 ≤ c.toNat ∧ c.toNat ≤ 0x7E := by
    refine quotes_quoted (fun c hc hmark hsolidus => ?_) (by decide) (by decide)
    have hne {special : Char} (hspecial : special.toNat < 0x20) : c ≠ special := by
      rintro rfl
      omega
    rw [nlohmannEscape, if_neg (hne (by decide)), if_neg (hne (by decide)),
      if_neg (hne (by decide)), if_neg (hne (by decide)), if_neg (hne (by decide)), if_neg hmark,
      if_neg hsolidus, if_neg (by omega)]
  exact ⟨hquotes.start, fun h h' => hquotes.inj (printable_iff.mp h) (printable_iff.mp h')⟩

/-! ### The runtime -/

inductive MainDevicePositionClassTableErrorCode
  | invalidHeader
  | invalidClassRecord
  | invalidKRecord
  | unusedClass
  | digestFailure
  deriving DecidableEq

structure MainDevicePositionClassTableError where
  code : MainDevicePositionClassTableErrorCode
  detail : String
  deriving DecidableEq

/-- `fail` under a condition. -/
def failTableIf (condition : Prop) [Decidable condition]
    (code : MainDevicePositionClassTableErrorCode) (detail : String) :
    Except MainDevicePositionClassTableError Unit :=
  if condition then .error ⟨code, detail⟩ else .ok ()

/-- The member functions of an object of nlohmann::json hold its members in the order of their
keys. -/
def nlohmannObject (members : List (String × JsonTree)) : JsonTree := .object (sortMembers members)

/-- `all_zero`. -/
def allZero {count : ℕ} (values : Fin count → ℕ) : Bool := decide (∀ index, values index = 0)

/-- `decode_function_name`. -/
def decodeFunctionName (record : ClassRecord) (index : ℕ) :
    Except MainDevicePositionClassTableError String :=
  let label := "classes[" ++ toString index ++ "].function_name "
  let bytes := record.functionName.val
  match bytes.findIdx? (· == 0) with
  | none => .error ⟨.invalidClassRecord, label ++ "is not NUL-terminated"⟩
  | some length => do
    failTableIf (length = 0) .invalidClassRecord (label ++ "is empty")
    failTableIf ((bytes.take length).any (fun byte => byte < 0x21 || 0x7E < byte) = true)
      .invalidClassRecord (label ++ "contains a non-canonical byte")
    failTableIf ((bytes.drop (length + 1)).any (· != 0) = true) .invalidClassRecord
      (label ++ "has nonzero trailing bytes")
    return String.ofList ((bytes.take length).map characterOf)

/-- The `transport` of `class_document`. -/
def transportName (parameterTransport : ℕ) (label : String) :
    Except MainDevicePositionClassTableError String :=
  if parameterTransport = ParameterTransport.kernelParams.abiValue then .ok "kernel_params"
  else if parameterTransport = ParameterTransport.extra.abiValue then .ok "extra"
  else .error ⟨.invalidClassRecord, label ++ ".parameter_transport is invalid"⟩

/-- `class_document`. -/
def classDocument (record : ClassRecord) (index : ℕ) :
    Except MainDevicePositionClassTableError JsonTree := do
  let label := "classes[" ++ toString index ++ "]"
  failTableIf (record.structSize ≠ classRecordSize ∨ record.abiVersion ≠ mttPluginAbiVersion1 ∨
      record.reserved0 ≠ 0 ∨ allZero record.reserved = false) .invalidClassRecord
    (label ++ " has an invalid ABI header or reserved field")
  let isQk := index < kMainDevicePositionQkClasses
  let expectedOperation :=
    if isQk then BankOperation.qk.abiValue else BankOperation.pv.abiValue
  let expectedClassIndex := if isQk then index else index - kMainDevicePositionQkClasses
  failTableIf (record.operation ≠ expectedOperation ∨ record.classIndex ≠ expectedClassIndex)
    .invalidClassRecord (label ++ " operation/class ordering mismatch")
  let transport ← transportName record.parameterTransport label
  failTableIf (record.blockX = 0 ∨ record.blockY = 0 ∨ record.blockZ = 0 ∨
    record.parameterSize = 0) .invalidClassRecord (label ++ " has an empty launch contract")
  let functionName ← decodeFunctionName record index
  return nlohmannObject [
    ("operation", .string (if isQk then "qk" else "pv")),
    ("class_index", naturalTree record.classIndex),
    ("function_name", .string functionName),
    ("parameter_transport", .string transport),
    ("block", naturalsTree [record.blockX, record.blockY, record.blockZ]),
    ("shared_memory_bytes", naturalTree record.sharedMemoryBytes),
    ("parameter_offset", naturalTree record.parameterOffset),
    ("parameter_size", naturalTree record.parameterSize)]

/-- `k_document`, without the flags that it sets. -/
def kDocument (record : KRecord) (index : ℕ) :
    Except MainDevicePositionClassTableError JsonTree := do
  let label := "k_records[" ++ toString index ++ "]"
  let expectedActiveK : ℤ := kMainDevicePositionMinimumK + index
  failTableIf (record.structSize ≠ kRecordSize ∨ record.abiVersion ≠ mttPluginAbiVersion1 ∨
      record.activeK ≠ expectedActiveK ∨ record.reserved0 ≠ 0 ∨ allZero record.reserved = false)
    .invalidKRecord (label ++ " has an invalid ABI header, active K, or reserved field")
  failTableIf (record.qkClassIndex < 0 ∨
      (kMainDevicePositionQkClasses : ℤ) ≤ record.qkClassIndex ∨ record.pvClassIndex < 0 ∨
      (kMainDevicePositionPvClasses : ℤ) ≤ record.pvClassIndex)
    .invalidKRecord (label ++ " contains an invalid class index")
  failTableIf (record.qkGridX = 0 ∨ record.qkGridY = 0 ∨ record.qkGridZ = 0 ∨
      record.pvGridX = 0 ∨ record.pvGridY = 0 ∨ record.pvGridZ = 0)
    .invalidKRecord (label ++ " contains an empty grid dimension")
  return nlohmannObject [
    ("active_k", .integer record.activeK),
    ("qk", nlohmannObject [
      ("class_index", .integer record.qkClassIndex),
      ("grid", naturalsTree [record.qkGridX, record.qkGridY, record.qkGridZ])]),
    ("pv", nlohmannObject [
      ("class_index", .integer record.pvClassIndex),
      ("grid", naturalsTree [record.pvGridX, record.pvGridY, record.pvGridZ])])]

/-- The flags that the calls of `k_document` set for an operation. -/
def usedClasses (count : ℕ) (classIndices : List ℤ) : List Bool :=
  classIndices.foldl (fun used classIndex => used.set classIndex.toNat true)
    (List.replicate count false)

/-- `MainDevicePositionClassTableIdentity`. -/
structure ClassTableIdentity (δ : Type) where
  canonicalJson : List Char
  sha256 : δ

/-- `collect_main_device_position_class_table_identity`, for a digest that does not fail. -/
def collectMainDevicePositionClassTableIdentity {δ : Type} (sha256 : List Char → δ)
    (table : ClassTable) : Except MainDevicePositionClassTableError (ClassTableIdentity δ) := do
  failTableIf (table.structSize ≠ classTableSize ∨ table.abiVersion ≠ mttPluginAbiVersion1 ∨
      table.classCount ≠ mttMainDevicePositionClassCountV1 ∨
      table.kCount ≠ mttMainDevicePositionKCountV1 ∨ allZero table.reserved = false)
    .invalidHeader "class-table ABI header, dimensions, or reserved fields are invalid"
  let classes ← (List.finRange mttMainDevicePositionClassCountV1).mapM fun index =>
    classDocument (table.classes index) index
  let kRecords ← (List.finRange mttMainDevicePositionKCountV1).mapM fun index =>
    kDocument (table.kRecords index) index
  let usedQk := usedClasses kMainDevicePositionQkClasses
    ((List.finRange mttMainDevicePositionKCountV1).map fun index =>
      (table.kRecords index).qkClassIndex)
  let usedPv := usedClasses kMainDevicePositionPvClasses
    ((List.finRange mttMainDevicePositionKCountV1).map fun index =>
      (table.kRecords index).pvClassIndex)
  failTableIf (usedQk.all id = false ∨ usedPv.all id = false)
    .unusedClass "class table contains an unused QK or PV class"
  let document := nlohmannObject [
    ("schema_version", naturalTree 1),
    ("active_k_range",
      naturalsTree [kMainDevicePositionMinimumK, kMainDevicePositionMaximumK]),
    ("qk_class_count", naturalTree kMainDevicePositionQkClasses),
    ("pv_class_count", naturalTree kMainDevicePositionPvClasses),
    ("classes", .array classes),
    ("k_records", .array kRecords)]
  let canonicalJson := document.render (quoted nlohmannEscape)
  return ⟨canonicalJson, sha256 canonicalJson⟩

/-! ### What the runtime accepts -/

theorem failTableIf_eq_ok_iff {condition : Prop} [Decidable condition]
    {code : MainDevicePositionClassTableErrorCode} {detail : String} {value : Unit} :
    failTableIf condition code detail = .ok value ↔ ¬ condition := by
  unfold failTableIf
  split_ifs with h
  · exact ⟨nofun, fun hnot => absurd h hnot⟩
  · exact ⟨fun _ => h, fun _ => rfl⟩

theorem allZero_iff {count : ℕ} {values : Fin count → ℕ} :
    allZero values = true ↔ ∀ index, values index = 0 := decide_eq_true_iff

/-- A search for a zero fails, or finds the one behind the name. -/
theorem findIdx?_zero_cases (buffer : NameBuffer) :
    (buffer.val.findIdx? (· == 0) = none ∧
        (nameBytes buffer).length = mttMainDevicePositionFunctionNameCapacity) ∨
      ((nameBytes buffer).length < mttMainDevicePositionFunctionNameCapacity ∧
        buffer.val.findIdx? (· == 0) = some (nameBytes buffer).length ∧
        buffer.val.drop (nameBytes buffer).length =
          0 :: buffer.val.drop ((nameBytes buffer).length + 1)) := by
  rw [length_nameBytes]
  cases hfind : buffer.val.findIdx? (· == 0) with
  | none =>
    rw [List.findIdx?_eq_none_iff_findIdx_eq] at hfind
    exact Or.inl ⟨rfl, hfind.trans buffer.property⟩
  | some length =>
    obtain ⟨hlt, hindex⟩ := List.findIdx?_eq_some_iff_findIdx_eq.mp hfind
    rw [hindex]
    refine Or.inr ⟨buffer.property ▸ hlt, rfl, ?_⟩
    have hzero : buffer.val[length] = 0 := by
      subst hindex
      exact eq_of_beq (List.findIdx_getElem (w := hlt))
    rw [List.drop_eq_getElem_cons hlt, hzero]

theorem decodeFunctionName_eq_ok_iff {record : ClassRecord} {index : ℕ} {text : String} :
    decodeFunctionName record index = .ok text ↔
      record.functionName.Valid ∧ nameText record.functionName = text := by
  have htake : record.functionName.val.take (nameBytes record.functionName).length =
      nameBytes record.functionName := by
    rw [length_nameBytes, nameBytes]
  rw [decodeFunctionName]
  rcases findIdx?_zero_cases record.functionName with ⟨hnone, hlength⟩ | ⟨hlt, hsome, hdrop⟩
  · simp only [hnone]
    exact iff_of_false (fun h => by cases h) fun h => absurd hlength h.1.terminated.ne
  · simp only [hsome, htake, bind_unit_eq_ok_iff, failTableIf_eq_ok_iff]
    constructor
    · rintro ⟨hempty, hprintable, hzeros, hreturn⟩
      refine ⟨⟨fun hnil => hempty (by rw [hnil]; rfl), hlt, ?_, ?_⟩, Except.ok.inj hreturn⟩
      · intro byte hbyte
        simp only [List.any_eq_true, not_exists, not_and, Bool.or_eq_true, decide_eq_true_iff,
          not_or, UInt8.not_lt] at hprintable
        exact hprintable byte hbyte
      · intro byte hbyte
        rw [hdrop] at hbyte
        rcases List.mem_cons.mp hbyte with rfl | hbyte
        · rfl
        · simpa using fun hne => hzeros (List.any_eq_true.mpr ⟨byte, hbyte, hne⟩)
    · rintro ⟨hvalid, rfl⟩
      refine ⟨fun hzero => hvalid.nonempty (List.length_eq_zero_iff.mp hzero), ?_, ?_, rfl⟩
      · simp only [List.any_eq_true, not_exists, not_and, Bool.or_eq_true, decide_eq_true_iff,
          not_or, UInt8.not_lt]
        exact hvalid.printable
      · have hzeros := hvalid.zeros
        rw [hdrop] at hzeros
        simp only [List.any_eq_true, not_exists, not_and]
        intro byte hbyte
        simpa using hzeros byte (List.mem_cons_of_mem _ hbyte)

/-- The members of a class document in the order of their keys. -/
theorem sortMembers_class (a b c d e f g h : JsonTree) :
    sortMembers [("operation", a), ("class_index", b), ("function_name", c),
        ("parameter_transport", d), ("block", e), ("shared_memory_bytes", f),
        ("parameter_offset", g), ("parameter_size", h)] =
      [("block", e), ("class_index", b), ("function_name", c), ("operation", a),
        ("parameter_offset", g), ("parameter_size", h), ("parameter_transport", d),
        ("shared_memory_bytes", f)] := by
  simp only [sortMembers, insertMember, List.foldr, String.reduceLT, if_true, if_false]

theorem sortMembers_launch (a b : JsonTree) :
    sortMembers [("class_index", a), ("grid", b)] = [("class_index", a), ("grid", b)] := by
  simp only [sortMembers, insertMember, List.foldr, String.reduceLT, if_true]

theorem sortMembers_k (a b c : JsonTree) :
    sortMembers [("active_k", a), ("qk", b), ("pv", c)] =
      [("active_k", a), ("pv", c), ("qk", b)] := by
  simp only [sortMembers, insertMember, List.foldr, String.reduceLT, if_true, if_false]

theorem sortMembers_table (a b c d e f : JsonTree) :
    sortMembers [("schema_version", a), ("active_k_range", b), ("qk_class_count", c),
        ("pv_class_count", d), ("classes", e), ("k_records", f)] =
      [("active_k_range", b), ("classes", e), ("k_records", f), ("pv_class_count", d),
        ("qk_class_count", c), ("schema_version", a)] := by
  simp only [sortMembers, insertMember, List.foldr, String.reduceLT, if_true, if_false]

theorem transportName_eq_ok_iff {parameterTransport : ℕ} {label text : String} :
    transportName parameterTransport label = .ok text ↔
      (∃ transport : ParameterTransport, parameterTransport = transport.abiValue) ∧
        transportText parameterTransport = text := by
  unfold transportName transportText
  split_ifs with hkernel hextra
  · exact ⟨fun h => ⟨⟨.kernelParams, hkernel⟩, Except.ok.inj h⟩, fun h => congrArg Except.ok h.2⟩
  · exact ⟨fun h => ⟨⟨.extra, hextra⟩, Except.ok.inj h⟩, fun h => congrArg Except.ok h.2⟩
  · refine iff_of_false nofun ?_
    rintro ⟨⟨_ | _, htransport⟩, -⟩
    · exact hkernel htransport
    · exact hextra htransport

theorem classDocument_eq_ok_iff {record : ClassRecord} {index : ℕ} {tree : JsonTree} :
    classDocument record index = .ok tree ↔
      record.Valid index ∧ classTree index record = tree := by
  have hoperation : (if index < kMainDevicePositionQkClasses then BankOperation.qk.abiValue
      else BankOperation.pv.abiValue) = (operationAt index).abiValue := by
    rw [operationAt]
    split_ifs <;> rfl
  have htext : (if index < kMainDevicePositionQkClasses then "qk" else "pv") =
      (operationAt index).text := by
    rw [operationAt]
    split_ifs <;> rfl
  have hclassIndex : (if index < kMainDevicePositionQkClasses then index
      else index - kMainDevicePositionQkClasses) = classIndexAt index := rfl
  rw [classDocument]
  simp only [bind_eq_ok_iff, failTableIf_eq_ok_iff, transportName_eq_ok_iff,
    decodeFunctionName_eq_ok_iff, nlohmannObject, sortMembers_class, hoperation, htext,
    hclassIndex, not_or, not_not, Bool.not_eq_false, allZero_iff]
  constructor
  · rintro ⟨-, ⟨hsize, habi, hreserved0, hreserved⟩, -, ⟨hop, hclass⟩, _, ⟨htransport, rfl⟩,
      -, ⟨hx, hy, hz, hparameter⟩, _, ⟨hname, rfl⟩, hreturn⟩
    exact ⟨⟨hsize, habi, hreserved0, hreserved, hop, hclass, htransport, ⟨hx, hy, hz⟩, hparameter,
      hname⟩, Except.ok.inj hreturn⟩
  · rintro ⟨hvalid, rfl⟩
    exact ⟨(), ⟨hvalid.structSize, hvalid.abiVersion, hvalid.reserved0, hvalid.reserved⟩,
      (), ⟨hvalid.operation, hvalid.classIndex⟩, _, ⟨hvalid.transport, rfl⟩,
      (), ⟨hvalid.block.1, hvalid.block.2.1, hvalid.block.2.2, hvalid.parameterSize⟩, _,
      ⟨hvalid.functionName, rfl⟩, rfl⟩

theorem kDocument_eq_ok_iff {record : KRecord} {index : ℕ} {tree : JsonTree} :
    kDocument record index = .ok tree ↔ record.Valid index ∧ kTree record = tree := by
  rw [kDocument]
  simp only [bind_eq_ok_iff, failTableIf_eq_ok_iff, nlohmannObject, sortMembers_launch,
    sortMembers_k, not_or, not_not, Bool.not_eq_false, allZero_iff, not_lt, not_le]
  constructor
  · rintro ⟨-, ⟨hsize, habi, hk, hreserved0, hreserved⟩, -, ⟨hqk, hqk', hpv, hpv'⟩,
      -, ⟨hqx, hqy, hqz, hpx, hpy, hpz⟩, hreturn⟩
    exact ⟨⟨hsize, habi, hk, hreserved0, hreserved, ⟨hqk, hqk'⟩, ⟨hpv, hpv'⟩, ⟨hqx, hqy, hqz⟩,
      ⟨hpx, hpy, hpz⟩⟩, Except.ok.inj hreturn⟩
  · rintro ⟨hvalid, rfl⟩
    exact ⟨(), ⟨hvalid.structSize, hvalid.abiVersion, hvalid.activeK, hvalid.reserved0,
      hvalid.reserved⟩, (), ⟨hvalid.qkClassIndex.1, hvalid.qkClassIndex.2, hvalid.pvClassIndex.1,
      hvalid.pvClassIndex.2⟩, (), ⟨hvalid.qkGrid.1, hvalid.qkGrid.2.1, hvalid.qkGrid.2.2,
      hvalid.pvGrid.1, hvalid.pvGrid.2.1, hvalid.pvGrid.2.2⟩, rfl⟩

theorem getElem?_foldl_set (classIndices : List ℤ) (used : List Bool) (classIndex : ℕ) :
    (classIndices.foldl (fun used classIndex => used.set classIndex.toNat true) used)[classIndex]? =
      if classIndex ∈ classIndices.map Int.toNat then used[classIndex]?.map fun _ => true
      else used[classIndex]? := by
  induction classIndices generalizing used with
  | nil => rfl
  | cons first rest ih =>
    rw [List.foldl_cons, ih, List.map_cons, List.getElem?_set]
    by_cases hfirst : first.toNat = classIndex
    · subst hfirst
      rw [if_pos rfl, if_pos List.mem_cons_self]
      by_cases hlt : first.toNat < used.length
      · simp [hlt]
      · simp [not_lt.mp hlt]
    · have hmem : classIndex ∈ first.toNat :: rest.map Int.toNat ↔
          classIndex ∈ rest.map Int.toNat :=
        ⟨fun h => (List.mem_cons.mp h).resolve_left fun heq => hfirst heq.symm,
          List.mem_cons_of_mem _⟩
      rw [if_neg hfirst]
      exact (if_congr hmem rfl rfl).symm

/-- All flags are set when every class is one of those that the records name. -/
theorem usedClasses_all_iff {count : ℕ} {classIndices : List ℤ}
    (hnonneg : ∀ classIndex ∈ classIndices, 0 ≤ classIndex) :
    (usedClasses count classIndices).all id = true ↔
      ∀ classIndex < count, (classIndex : ℤ) ∈ classIndices := by
  have hmem (classIndex : ℕ) :
      classIndex ∈ classIndices.map Int.toNat ↔ (classIndex : ℤ) ∈ classIndices := by
    rw [List.mem_map]
    constructor
    · rintro ⟨value, hvalue, rfl⟩
      rwa [Int.toNat_of_nonneg (hnonneg value hvalue)]
    · exact fun h => ⟨_, h, Int.toNat_natCast _⟩
  have hget (classIndex : ℕ) : (usedClasses count classIndices)[classIndex]? =
      if (classIndex : ℤ) ∈ classIndices then
        (List.replicate count false)[classIndex]?.map fun _ => true
      else (List.replicate count false)[classIndex]? := by
    rw [usedClasses, getElem?_foldl_set]
    exact if_congr (hmem classIndex) rfl rfl
  rw [List.all_eq_true]
  constructor
  · intro hall classIndex hlt
    by_contra hunused
    have hfalse : (usedClasses count classIndices)[classIndex]? = some false := by
      rw [hget, if_neg hunused, List.getElem?_replicate_of_lt hlt]
    exact absurd (hall false (List.mem_of_getElem? hfalse)) (by decide)
  · intro hall used hused
    obtain ⟨classIndex, hindex⟩ := List.getElem?_of_mem hused
    rw [hget] at hindex
    split_ifs at hindex with hin
    · obtain ⟨_, -, rfl⟩ := Option.map_eq_some_iff.mp hindex
      rfl
    · obtain ⟨hlt, -⟩ := List.getElem?_eq_some_iff.mp hindex
      rw [List.length_replicate] at hlt
      exact absurd (hall classIndex hlt) hin

/-- A loop over the indices that collects documents. -/
theorem mapM_finRange_eq_ok_iff {ε : Type} {count : ℕ} {document : Fin count → JsonTree}
    {valid : Fin count → Prop} {f : Fin count → Except ε JsonTree}
    (hf : ∀ index tree, f index = .ok tree ↔ valid index ∧ document index = tree)
    {trees : List JsonTree} :
    (List.finRange count).mapM f = .ok trees ↔
      (∀ index, valid index) ∧ (List.finRange count).map document = trees := by
  have hforall : ∀ (indices : List (Fin count)) (trees : List JsonTree),
      List.Forall₂ (fun index tree => f index = .ok tree) indices trees ↔
        (∀ index ∈ indices, valid index) ∧ indices.map document = trees := by
    intro indices
    induction indices with
    | nil => exact fun trees => by simp [eq_comm]
    | cons index indices ih =>
      intro trees
      cases trees with
      | nil => simp
      | cons tree trees =>
        rw [List.forall₂_cons, ih, hf, List.forall_mem_cons, List.map_cons, List.cons.injEq]
        exact and_and_and_comm
  rw [mapM_eq_ok_iff, hforall]
  simp only [List.mem_finRange, true_imp_iff]

/-- The identity of a table. -/
def identityOf {δ : Type} (sha256 : List Char → δ) (table : ClassTable) : ClassTableIdentity δ :=
  let canonicalJson := (tableTree table).render (quoted nlohmannEscape)
  ⟨canonicalJson, sha256 canonicalJson⟩

/-- The runtime accepts the valid tables. -/
theorem collectIdentity_eq_ok_iff {δ : Type} {sha256 : List Char → δ} {table : ClassTable}
    {identity : ClassTableIdentity δ} :
    collectMainDevicePositionClassTableIdentity sha256 table = .ok identity ↔
      table.Valid ∧ identityOf sha256 table = identity := by
  have husedIff {count : ℕ} {classIndex : KRecord → ℤ}
      (hnonneg : ∀ index, 0 ≤ classIndex (table.kRecords index)) :
      (usedClasses count ((List.finRange mttMainDevicePositionKCountV1).map fun index =>
        classIndex (table.kRecords index))).all id = true ↔
        ∀ c < count, ∃ index, classIndex (table.kRecords index) = (c : ℤ) := by
    rw [usedClasses_all_iff (by simpa using hnonneg)]
    simp only [List.mem_map, List.mem_finRange, true_and]
  rw [collectMainDevicePositionClassTableIdentity]
  simp only [bind_eq_ok_iff, failTableIf_eq_ok_iff, nlohmannObject, sortMembers_table,
    mapM_finRange_eq_ok_iff fun index tree => @classDocument_eq_ok_iff _ index.val tree,
    mapM_finRange_eq_ok_iff fun index tree => @kDocument_eq_ok_iff _ index.val tree,
    not_or, not_not, Bool.not_eq_false, allZero_iff]
  constructor
  · rintro ⟨-, ⟨hsize, habi, hclassCount, hkCount, hreserved⟩, _, ⟨hclasses, rfl⟩, _,
      ⟨hkRecords, rfl⟩, -, ⟨husedQk, husedPv⟩, hreturn⟩
    exact ⟨⟨hsize, habi, hclassCount, hkCount, hreserved, hclasses, hkRecords,
      (husedIff fun index => (hkRecords index).qkClassIndex.1).mp husedQk,
      (husedIff fun index => (hkRecords index).pvClassIndex.1).mp husedPv⟩, Except.ok.inj hreturn⟩
  · rintro ⟨hvalid, rfl⟩
    exact ⟨(), ⟨hvalid.structSize, hvalid.abiVersion, hvalid.classCount, hvalid.kCount,
      hvalid.reserved⟩, _, ⟨hvalid.classes, rfl⟩, _, ⟨hvalid.kRecords, rfl⟩, (),
      ⟨(husedIff fun index => (hvalid.kRecords index).qkClassIndex.1).mpr hvalid.usedQk,
        (husedIff fun index => (hvalid.kRecords index).pvClassIndex.1).mpr hvalid.usedPv⟩, rfl⟩

end MagpieTts.Plugins
