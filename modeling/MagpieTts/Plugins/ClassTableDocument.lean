import MagpieTts.Library.JsonText
import MagpieTts.Plugins.KernelClassTable

/-!
# The document of a kernel-class table

The identity of a kernel-class table is the JSON document of its launch contracts. The tables that
are accepted have the headers of the interface, zeros in the reserved fields, class records in their
order and no class that is unused; for these the document holds every field.

## Main definitions

* `ClassTable.Valid`: the tables that are accepted.
* `tableTree`: the document of a table.

## Main results

* `MainDevicePositionBank.candidateTable_latchCall`: the table of a bank is valid.
* `canonicalText_injective`: the text of the document determines a valid table.
-/

namespace MagpieTts.Plugins

open MagpieTts.Library

/-! ### Valid tables -/

/-- The name in a buffer: the bytes in front of the first zero. -/
def nameBytes (buffer : NameBuffer) : List UInt8 :=
  buffer.val.take (buffer.val.findIdx (· == 0))

theorem length_nameBytes (buffer : NameBuffer) :
    (nameBytes buffer).length = buffer.val.findIdx (· == 0) := by
  rw [nameBytes, List.length_take]
  exact Nat.min_eq_left List.findIdx_le_length

/-- A buffer with a name of printable characters other than the space, and zeros behind. -/
structure NameBuffer.Valid (buffer : NameBuffer) : Prop where
  nonempty : nameBytes buffer ≠ []
  terminated : (nameBytes buffer).length < mttMainDevicePositionFunctionNameCapacity
  printable : ∀ byte ∈ nameBytes buffer, 0x21 ≤ byte ∧ byte ≤ 0x7E
  zeros : ∀ byte ∈ buffer.val.drop (nameBytes buffer).length, byte = 0

/-- The character of an ASCII byte. -/
def characterOf (byte : UInt8) : Char := Char.ofNat byte.toNat

/-- The text of the name in a buffer. -/
def nameText (buffer : NameBuffer) : String := String.ofList ((nameBytes buffer).map characterOf)

/-- The operation and the class of a record, by its place. -/
def operationAt (index : ℕ) : BankOperation :=
  if index < kMainDevicePositionQkClasses then .qk else .pv

def classIndexAt (index : ℕ) : ℕ :=
  if index < kMainDevicePositionQkClasses then index else index - kMainDevicePositionQkClasses

/-- A class record that is accepted at its place. -/
structure ClassRecord.Valid (record : ClassRecord) (index : ℕ) : Prop where
  structSize : record.structSize = classRecordSize
  abiVersion : record.abiVersion = mttPluginAbiVersion1
  reserved0 : record.reserved0 = 0
  reserved : ∀ i, record.reserved i = 0
  operation : record.operation = (operationAt index).abiValue
  classIndex : record.classIndex = classIndexAt index
  transport : ∃ transport : ParameterTransport, record.parameterTransport = transport.abiValue
  block : record.blockX ≠ 0 ∧ record.blockY ≠ 0 ∧ record.blockZ ≠ 0
  parameterSize : record.parameterSize ≠ 0
  functionName : record.functionName.Valid

/-- A record of a number of active entries that is accepted at its place. -/
structure KRecord.Valid (record : KRecord) (index : ℕ) : Prop where
  structSize : record.structSize = kRecordSize
  abiVersion : record.abiVersion = mttPluginAbiVersion1
  activeK : record.activeK = (kMainDevicePositionMinimumK : ℤ) + index
  reserved0 : record.reserved0 = 0
  reserved : ∀ i, record.reserved i = 0
  qkClassIndex : 0 ≤ record.qkClassIndex ∧
    record.qkClassIndex < (kMainDevicePositionQkClasses : ℤ)
  pvClassIndex : 0 ≤ record.pvClassIndex ∧
    record.pvClassIndex < (kMainDevicePositionPvClasses : ℤ)
  qkGrid : record.qkGridX ≠ 0 ∧ record.qkGridY ≠ 0 ∧ record.qkGridZ ≠ 0
  pvGrid : record.pvGridX ≠ 0 ∧ record.pvGridY ≠ 0 ∧ record.pvGridZ ≠ 0

/-- A table that is accepted. -/
structure ClassTable.Valid (table : ClassTable) : Prop where
  structSize : table.structSize = classTableSize
  abiVersion : table.abiVersion = mttPluginAbiVersion1
  classCount : table.classCount = mttMainDevicePositionClassCountV1
  kCount : table.kCount = mttMainDevicePositionKCountV1
  reserved : ∀ i, table.reserved i = 0
  classes : ∀ index, (table.classes index).Valid index
  kRecords : ∀ index, (table.kRecords index).Valid index
  usedQk : ∀ classIndex < kMainDevicePositionQkClasses, ∃ index,
    (table.kRecords index).qkClassIndex = (classIndex : ℤ)
  usedPv : ∀ classIndex < kMainDevicePositionPvClasses, ∃ index,
    (table.kRecords index).pvClassIndex = (classIndex : ℤ)

/-- The text of an operation and of a transport. -/
def BankOperation.text : BankOperation → String
  | .qk => "qk"
  | .pv => "pv"

def transportText (parameterTransport : ℕ) : String :=
  if parameterTransport = ParameterTransport.kernelParams.abiValue then "kernel_params"
  else "extra"

def naturalTree (value : ℕ) : JsonTree := .integer value

def naturalsTree (values : List ℕ) : JsonTree := .array (values.map naturalTree)

/-- The document of a class record at its place. -/
def classTree (index : ℕ) (record : ClassRecord) : JsonTree :=
  .object [
    ("block", naturalsTree [record.blockX, record.blockY, record.blockZ]),
    ("class_index", naturalTree record.classIndex),
    ("function_name", .string (nameText record.functionName)),
    ("operation", .string (operationAt index).text),
    ("parameter_offset", naturalTree record.parameterOffset),
    ("parameter_size", naturalTree record.parameterSize),
    ("parameter_transport", .string (transportText record.parameterTransport)),
    ("shared_memory_bytes", naturalTree record.sharedMemoryBytes)]

/-- The document of a launch. -/
def launchTree (classIndex : ℤ) (x y z : ℕ) : JsonTree :=
  .object [("class_index", .integer classIndex), ("grid", naturalsTree [x, y, z])]

/-- The document of a record of a number of active entries. -/
def kTree (record : KRecord) : JsonTree :=
  .object [
    ("active_k", .integer record.activeK),
    ("pv", launchTree record.pvClassIndex record.pvGridX record.pvGridY record.pvGridZ),
    ("qk", launchTree record.qkClassIndex record.qkGridX record.qkGridY record.qkGridZ)]

/-- The document of a table. -/
def tableTree (table : ClassTable) : JsonTree :=
  .object [
    ("active_k_range",
      naturalsTree [kMainDevicePositionMinimumK, kMainDevicePositionMaximumK]),
    ("classes", .array ((List.finRange mttMainDevicePositionClassCountV1).map fun index : Fin _ =>
      classTree index (table.classes index))),
    ("k_records", .array ((List.finRange mttMainDevicePositionKCountV1).map fun index =>
      kTree (table.kRecords index))),
    ("pv_class_count", naturalTree kMainDevicePositionPvClasses),
    ("qk_class_count", naturalTree kMainDevicePositionQkClasses),
    ("schema_version", naturalTree 1)]

/-! ### The document determines the table -/

theorem characterOf_toNat (byte : UInt8) : (characterOf byte).toNat = byte.toNat := by
  have hvalid : Nat.isValidChar byte.toNat :=
    Or.inl (lt_trans byte.toNat_lt (by decide))
  rw [characterOf, Char.ofNat, dif_pos hvalid]
  rfl

theorem characterOf_injective : Function.Injective characterOf := fun byte byte' h =>
  UInt8.toNat_inj.mp (by rw [← characterOf_toNat, h, characterOf_toNat])

/-- A valid buffer is its name and zeros behind. -/
theorem NameBuffer.Valid.eq_append {buffer : NameBuffer} (h : buffer.Valid) :
    buffer.val = nameBytes buffer ++ List.replicate
      (mttMainDevicePositionFunctionNameCapacity - (nameBytes buffer).length) 0 := by
  have htake : buffer.val.take (nameBytes buffer).length = nameBytes buffer := by
    rw [length_nameBytes, nameBytes]
  have hdrop := List.eq_replicate_of_mem h.zeros
  rw [List.length_drop, buffer.property] at hdrop
  conv_lhs => rw [← List.take_append_drop (nameBytes buffer).length buffer.val, htake, hdrop]

theorem nameText_injective {buffer buffer' : NameBuffer} (h : buffer.Valid) (h' : buffer'.Valid)
    (htext : nameText buffer = nameText buffer') : buffer = buffer' := by
  have hbytes : nameBytes buffer = nameBytes buffer' :=
    List.map_injective_iff.mpr characterOf_injective (String.ofList_injective htext)
  exact Subtype.ext (by rw [h.eq_append, h'.eq_append, hbytes])

theorem transportText_injective (transport transport' : ParameterTransport)
    (h : transportText transport.abiValue = transportText transport'.abiValue) :
    transport = transport' := by
  cases transport <;> cases transport' <;> first | rfl | exact absurd h (by decide)

theorem naturalTree_injective {value value' : ℕ} (h : naturalTree value = naturalTree value') :
    value = value' :=
  Int.natCast_inj.mp (JsonTree.integer.inj h)

theorem naturalsTree_triple {x y z x' y' z' : ℕ}
    (h : naturalsTree [x, y, z] = naturalsTree [x', y', z']) : x = x' ∧ y = y' ∧ z = z' := by
  simpa [naturalsTree, naturalTree] using h

theorem classTree_injective {index : ℕ} {record record' : ClassRecord} (h : record.Valid index)
    (h' : record'.Valid index) (htree : classTree index record = classTree index record') :
    record = record' := by
  simp only [classTree, JsonTree.object.injEq, List.cons.injEq, Prod.mk.injEq, true_and,
    and_true, JsonTree.string.injEq] at htree
  obtain ⟨hblock, hclassIndex, hname, hoffset, hsize, htransport, hshared⟩ := htree
  obtain ⟨hx, hy, hz⟩ := naturalsTree_triple hblock
  obtain ⟨transport, ht⟩ := h.transport
  obtain ⟨transport', ht'⟩ := h'.transport
  have hparameter : record.parameterTransport = record'.parameterTransport := by
    rw [ht, ht'] at htransport ⊢
    rw [transportText_injective _ _ htransport]
  exact ClassRecord.ext (h.structSize.trans h'.structSize.symm)
    (h.abiVersion.trans h'.abiVersion.symm) (h.operation.trans h'.operation.symm)
    (naturalTree_injective hclassIndex) hparameter hx hy hz (naturalTree_injective hshared)
    (h.reserved0.trans h'.reserved0.symm) (naturalTree_injective hoffset)
    (naturalTree_injective hsize) (nameText_injective h.functionName h'.functionName hname)
    (funext fun i => (h.reserved i).trans (h'.reserved i).symm)

theorem kTree_injective {index : ℕ} {record record' : KRecord} (h : record.Valid index)
    (h' : record'.Valid index) (htree : kTree record = kTree record') : record = record' := by
  simp only [kTree, launchTree, JsonTree.object.injEq, List.cons.injEq, Prod.mk.injEq, true_and,
    and_true, JsonTree.integer.injEq] at htree
  obtain ⟨hactiveK, ⟨hpv, hpvGrid⟩, hqk, hqkGrid⟩ := htree
  obtain ⟨hpx, hpy, hpz⟩ := naturalsTree_triple hpvGrid
  obtain ⟨hqx, hqy, hqz⟩ := naturalsTree_triple hqkGrid
  exact KRecord.ext (h.structSize.trans h'.structSize.symm) (h.abiVersion.trans h'.abiVersion.symm)
    hactiveK hqk hqx hqy hqz hpv hpx hpy hpz (h.reserved0.trans h'.reserved0.symm)
    (funext fun i => (h.reserved i).trans (h'.reserved i).symm)

theorem map_finRange_injective {count : ℕ} {f g : Fin count → JsonTree}
    (h : (List.finRange count).map f = (List.finRange count).map g) (index : Fin count) :
    f index = g index :=
  List.map_inj_left.mp h index (List.mem_finRange index)

/-- The document of a valid table determines the table. -/
theorem tableTree_injective {table table' : ClassTable} (h : table.Valid) (h' : table'.Valid)
    (htree : tableTree table = tableTree table') : table = table' := by
  simp only [tableTree, JsonTree.object.injEq, List.cons.injEq, Prod.mk.injEq, true_and,
    and_true, JsonTree.array.injEq] at htree
  obtain ⟨hclasses, hkRecords⟩ := htree
  exact ClassTable.ext (h.structSize.trans h'.structSize.symm)
    (h.abiVersion.trans h'.abiVersion.symm) (h.classCount.trans h'.classCount.symm)
    (h.kCount.trans h'.kCount.symm)
    (funext fun index => classTree_injective (h.classes index) (h'.classes index)
      (map_finRange_injective hclasses index))
    (funext fun index => kTree_injective (h.kRecords index) (h'.kRecords index)
      (map_finRange_injective hkRecords index))
    (funext fun i => (h.reserved i).trans (h'.reserved i).symm)

/-- A text of printable characters. -/
def Printable (text : String) : Prop :=
  text.toList.all (fun c => Nat.ble 0x20 c.toNat && Nat.ble c.toNat 0x7E) = true

instance (text : String) : Decidable (Printable text) := inferInstanceAs (Decidable (_ = true))

theorem printable_iff {text : String} :
    Printable text ↔ ∀ c ∈ text.toList, 0x20 ≤ c.toNat ∧ c.toNat ≤ 0x7E := by
  simp only [Printable, List.all_eq_true, Bool.and_eq_true, Nat.ble_eq]

theorem printable_nameText {buffer : NameBuffer} (h : buffer.Valid) :
    Printable (nameText buffer) := by
  rw [printable_iff]
  intro c hc
  rw [nameText, String.toList_ofList, List.mem_map] at hc
  obtain ⟨byte, hbyte, rfl⟩ := hc
  obtain ⟨hlow, hhigh⟩ := h.printable byte hbyte
  rw [UInt8.le_iff_toNat_le] at hlow hhigh
  rw [characterOf_toNat]
  exact ⟨le_trans (by decide) hlow, hhigh⟩

theorem within_naturalsTree (values : List ℕ) : (naturalsTree values).Within Printable := by
  rw [naturalsTree, JsonTree.Within, JsonTree.elementsWithin_iff]
  intro element helement
  obtain ⟨value, -, rfl⟩ := List.mem_map.mp helement
  exact trivial

theorem within_launchTree (classIndex : ℤ) (x y z : ℕ) :
    (launchTree classIndex x y z).Within Printable :=
  ⟨by decide, trivial, by decide, within_naturalsTree _, trivial⟩

/-- The strings of the document of a valid table are printable. -/
theorem within_tableTree {table : ClassTable} (h : table.Valid) :
    (tableTree table).Within Printable := by
  have hclasses (index : Fin mttMainDevicePositionClassCountV1) :
      (classTree index (table.classes index)).Within Printable := by
    have hoperation : Printable (operationAt index).text := by
      cases operationAt index <;> decide
    have htransport : Printable (transportText (table.classes index).parameterTransport) := by
      rw [transportText]
      split_ifs <;> decide
    exact ⟨by decide, within_naturalsTree _, by decide, trivial, by decide,
      printable_nameText (h.classes index).functionName, by decide, hoperation, by decide, trivial,
      by decide, trivial, by decide, htransport, by decide, trivial, trivial⟩
  have hkRecords (index) : (kTree (table.kRecords index)).Within Printable :=
    ⟨by decide, trivial, by decide, within_launchTree _ _ _ _, by decide,
      within_launchTree _ _ _ _, trivial⟩
  refine ⟨by decide, within_naturalsTree _, by decide, ?_, by decide, ?_, by decide, trivial,
    by decide, trivial, by decide, trivial, trivial⟩
  · rw [JsonTree.Within, JsonTree.elementsWithin_iff]
    intro element helement
    obtain ⟨index, -, rfl⟩ := List.mem_map.mp helement
    exact hclasses index
  · rw [JsonTree.Within, JsonTree.elementsWithin_iff]
    intro element helement
    obtain ⟨index, -, rfl⟩ := List.mem_map.mp helement
    exact hkRecords index

/-- The canonical text of a valid table determines the table. -/
theorem canonicalText_injective {quote : String → List Char} (hquote : Quotes quote Printable)
    {table table' : ClassTable} (h : table.Valid) (h' : table'.Valid)
    (htext : (tableTree table).render quote = (tableTree table').render quote) : table = table' :=
  tableTree_injective h h'
    (JsonTree.render_injective hquote (within_tableTree h) (within_tableTree h') htext)

/-! ### The table of a bank -/

/-- A captured kernel with a name that fits and is printable, without spaces, a block and a grid. -/
structure KernelSnapshot.Canonical (snapshot : KernelSnapshot) : Prop where
  nonempty : snapshot.kernelClass.functionName.toList ≠ []
  fits : snapshot.kernelClass.functionName.toList.length <
    mttMainDevicePositionFunctionNameCapacity
  printable : ∀ c ∈ snapshot.kernelClass.functionName.toList, 0x21 ≤ c.toNat ∧ c.toNat ≤ 0x7E
  block : snapshot.kernelClass.block.x ≠ 0 ∧ snapshot.kernelClass.block.y ≠ 0 ∧
    snapshot.kernelClass.block.z ≠ 0
  grid : snapshot.grid.x ≠ 0 ∧ snapshot.grid.y ≠ 0 ∧ snapshot.grid.z ≠ 0

/-- The kernels that cuBLAS launches are canonical. -/
def Cublas.Canonical (cublas : Cublas) : Prop :=
  ∀ operation activeK snapshot, cublas.capture operation activeK = some snapshot →
    snapshot.Canonical

instance : Inhabited Representative :=
  ⟨0, ⟨0, "", .kernelParams, {}, 0, 0, 0⟩, {}, fun _ => 0⟩

/-- The arrays of a bank that is built. -/
def MainDevicePositionBank.latchCall {cublas : Cublas} (bank : MainDevicePositionBank cublas) :
    LatchCall where
  representatives := fun operation index => (bank.representatives operation)[index]?.getD default
  launches := bank.launch

/-- The byte of a printable character. -/
theorem toNat_byteOf {c : Char} (hc : 0x21 ≤ c.toNat ∧ c.toNat ≤ 0x7E) :
    (UInt8.ofNat c.toNat).toNat = c.toNat := by
  rw [UInt8.toNat_ofNat']
  exact Nat.mod_eq_of_lt (by omega)

/-- The buffer of a name that fits holds the name and zeros behind. -/
theorem val_nameBuffer {name : String}
    (hfits : name.toList.length < mttMainDevicePositionFunctionNameCapacity) :
    (nameBuffer name).val = (name.toList.map fun c : Char => UInt8.ofNat c.toNat) ++
      List.replicate (mttMainDevicePositionFunctionNameCapacity - name.toList.length) 0 := by
  have htake := hfits.le
  rw [← List.length_map (f := fun c : Char => UInt8.ofNat c.toNat)] at htake
  change List.take _ (_ ++ _) = _
  rw [List.take_append, List.take_of_length_le htake, List.take_replicate, List.length_map,
    Nat.min_eq_left (Nat.sub_le _ _)]

theorem nameBytes_nameBuffer {name : String}
    (hfits : name.toList.length < mttMainDevicePositionFunctionNameCapacity)
    (hprintable : ∀ c ∈ name.toList, 0x21 ≤ c.toNat ∧ c.toNat ≤ 0x7E) :
    nameBytes (nameBuffer name) = name.toList.map fun c : Char => UInt8.ofNat c.toNat := by
  obtain ⟨zeros, hzeros⟩ : ∃ zeros,
      mttMainDevicePositionFunctionNameCapacity - name.toList.length = zeros + 1 :=
    ⟨_, (Nat.sub_add_cancel (Nat.sub_pos_of_lt hfits)).symm⟩
  have hnonzero : ∀ byte ∈ name.toList.map fun c : Char => UInt8.ofNat c.toNat,
      (byte == 0) = false := by
    intro byte hbyte
    obtain ⟨c, hc, rfl⟩ := List.mem_map.mp hbyte
    have hbounds := hprintable c hc
    have htoNat := toNat_byteOf hbounds
    rw [beq_eq_false_iff_ne]
    intro hzero
    rw [hzero] at htoNat
    have : c.toNat = 0 := htoNat.symm
    omega
  have hfind : (nameBuffer name).val.findIdx (· == 0) = name.toList.length := by
    rw [val_nameBuffer hfits, List.findIdx_append, List.findIdx_eq_length_of_false hnonzero,
      if_neg (lt_irrefl _), hzeros, List.replicate_succ, List.findIdx_cons]
    simp
  rw [nameBytes, hfind, val_nameBuffer hfits, List.take_append_of_le_length (by simp),
    List.take_of_length_le (by simp)]

theorem valid_nameBuffer {snapshot : KernelSnapshot} (h : snapshot.Canonical) :
    (nameBuffer snapshot.kernelClass.functionName).Valid := by
  have hbytes := nameBytes_nameBuffer h.fits h.printable
  refine ⟨?_, ?_, ?_, ?_⟩
  · rw [hbytes]
    exact fun hnil => h.nonempty (List.map_eq_nil_iff.mp hnil)
  · rw [hbytes, List.length_map]
    exact h.fits
  · rw [hbytes]
    intro byte hbyte
    obtain ⟨c, hc, rfl⟩ := List.mem_map.mp hbyte
    rw [UInt8.le_iff_toNat_le, UInt8.le_iff_toNat_le, toNat_byteOf (h.printable c hc)]
    exact h.printable c hc
  · rw [hbytes, List.length_map, val_nameBuffer h.fits, List.drop_append_of_le_length (by simp),
      List.drop_of_length_le (by simp), List.nil_append]
    exact fun byte hbyte => List.eq_of_mem_replicate hbyte

section Bank

variable {cublas : Cublas} (bank : MainDevicePositionBank cublas)

namespace MainDevicePositionBank

/-- The launch of a number of active entries has the grid of a captured kernel, and its class has
the launch contract of that kernel. -/
theorem launch_captured (operation : BankOperation) {index : ℕ}
    (hindex : index < kMainDevicePositionKCount) :
    ∃ snapshot classIndex,
      captureMainDevicePositionKernel cublas operation (kMainDevicePositionMinimumK + index) =
        some snapshot ∧
      bank.launch operation index = launchOf classIndex snapshot ∧
      classIndex < operation.classes ∧
      (bank.latchCall.representatives operation classIndex).kernel.kernelClass =
        snapshot.kernelClass := by
  obtain ⟨hlength, hlaunches⟩ := scanOperation_spec (bank.scanned operation)
  obtain ⟨launch, hget, snapshot, classIndex, representative, hcapture, rfl, hclass, hsame⟩ :=
    hlaunches index hindex
  refine ⟨snapshot, classIndex, hcapture, by rw [MainDevicePositionBank.launch, hget]; rfl,
    hlength ▸ (List.getElem?_eq_some_iff.mp hclass).1, ?_⟩
  have hrepresentative : bank.latchCall.representatives operation classIndex = representative := by
    simp only [latchCall, hclass, Option.getD_some]
  rw [hrepresentative, hsame]

/-- Every class of an operation is named by a launch. -/
theorem exists_launch_of_class (operation : BankOperation) {classIndex : ℕ}
    (hclass : classIndex < operation.classes) :
    ∃ index < kMainDevicePositionKCount,
      (bank.launch operation index).classIndex = (classIndex : ℤ) := by
  obtain ⟨before, launch, after, hlaunches, hlaunch, -⟩ :=
    (scanOperation_classes (bank.scanned operation)).2 classIndex hclass
  have hlength := scanOperation_length (bank.scanned operation)
  refine ⟨before.length, ?_, ?_⟩
  · rw [hlaunches, List.length_append, List.length_cons] at hlength
    omega
  · rw [MainDevicePositionBank.launch, hlaunches, List.getElem?_append_right le_rfl, Nat.sub_self]
    exact hlaunch

theorem valid_populateClassRecord (hcublas : cublas.Canonical) (operation : BankOperation)
    {index classIndex : ℕ} (hclass : classIndex < operation.classes)
    (hoperation : operationAt index = operation) (hindex : classIndexAt index = classIndex) :
    (populateClassRecord operation classIndex
      (bank.latchCall.representatives operation classIndex).kernel.kernelClass).Valid index := by
  obtain ⟨k, hk, hlaunch⟩ := bank.exists_launch_of_class operation hclass
  obtain ⟨snapshot, c, hcapture, hlaunchOf, -, hsame⟩ := bank.launch_captured operation hk
  obtain rfl : c = classIndex := by
    rw [hlaunchOf] at hlaunch
    exact Int.natCast_inj.mp hlaunch
  obtain ⟨hcaptured, hsize⟩ := Option.filter_eq_some_iff.mp hcapture
  have hcanonical := hcublas _ _ _ hcaptured
  rw [hsame]
  simp only [ne_eq, Bool.and_eq_true, decide_eq_true_eq] at hsize
  exact {
    structSize := rfl
    abiVersion := rfl
    reserved0 := rfl
    reserved := fun _ => rfl
    operation := by rw [hoperation]; rfl
    classIndex := hindex.symm
    transport := ⟨_, rfl⟩
    block := hcanonical.block
    parameterSize := hsize.1
    functionName := valid_nameBuffer hcanonical }

theorem classInRange_launch (operation : BankOperation) {index : ℕ}
    (hindex : index < kMainDevicePositionKCount) :
    ClassInRange operation (bank.latchCall.launches operation index) := by
  obtain ⟨snapshot, classIndex, -, hlaunch, hclass, -⟩ := bank.launch_captured operation hindex
  have hclassIndex : (bank.latchCall.launches operation index).classIndex = (classIndex : ℤ) :=
    congrArg BankLaunch.classIndex hlaunch
  rw [ClassInRange, hclassIndex]
  exact ⟨Int.natCast_nonneg _, Int.ofNat_lt.mpr hclass⟩

theorem valid_kRecord (hcublas : cublas.Canonical) {index : ℕ}
    (hindex : index < kMainDevicePositionKCount) :
    (kRecord index (bank.latchCall.launches .qk index)
      (bank.latchCall.launches .pv index)).Valid index := by
  have hgrid (operation : BankOperation) :
      (bank.launch operation index).grid.x ≠ 0 ∧ (bank.launch operation index).grid.y ≠ 0 ∧
        (bank.launch operation index).grid.z ≠ 0 := by
    obtain ⟨snapshot, classIndex, hcapture, hlaunch, -⟩ := bank.launch_captured operation hindex
    rw [hlaunch]
    exact (hcublas _ _ _ (Option.filter_eq_some_iff.mp hcapture).1).grid
  exact {
    structSize := rfl
    abiVersion := rfl
    activeK := rfl
    reserved0 := rfl
    reserved := fun _ => rfl
    qkClassIndex := bank.classInRange_launch .qk hindex
    pvClassIndex := bank.classInRange_launch .pv hindex
    qkGrid := hgrid .qk
    pvGrid := hgrid .pv }

/-- **The table of a bank.** When the captured kernels are canonical, the bank has a table, and it
is valid. -/
theorem candidateTable_latchCall (hcublas : cublas.Canonical) :
    ∃ table, candidateTable bank.latchCall = some table ∧ table.Valid := by
  have haccepted : bank.latchCall.Accepted := fun index hindex =>
    ⟨bank.classInRange_launch .qk hindex, bank.classInRange_launch .pv hindex⟩
  refine ⟨bank.latchCall.table, candidateTable_eq haccepted, {
    structSize := rfl
    abiVersion := rfl
    classCount := rfl
    kCount := rfl
    reserved := fun _ => rfl
    classes := fun index => ?_
    kRecords := fun index => bank.valid_kRecord hcublas index.isLt
    usedQk := fun classIndex hclass => ?_
    usedPv := fun classIndex hclass => ?_ }⟩
  · rw [LatchCall.table]
    dsimp only
    split_ifs with hqk
    · exact bank.valid_populateClassRecord hcublas .qk hqk (if_pos hqk) (if_pos hqk)
    · have hpv : index - kMainDevicePositionQkClasses < BankOperation.pv.classes := by
        have hlt : (index : ℕ) < 21 := index.isLt
        have hqkClasses : kMainDevicePositionQkClasses = 7 := rfl
        have hpvClasses : BankOperation.pv.classes = 14 := rfl
        omega
      exact bank.valid_populateClassRecord hcublas .pv hpv (if_neg hqk) (if_neg hqk)
  · obtain ⟨index, hindex, hlaunch⟩ := bank.exists_launch_of_class .qk hclass
    exact ⟨⟨index, hindex⟩, hlaunch⟩
  · obtain ⟨index, hindex, hlaunch⟩ := bank.exists_launch_of_class .pv hclass
    exact ⟨⟨index, hindex⟩, hlaunch⟩

end MainDevicePositionBank

/-- There are banks: the scans of kernels whose classes take turns succeed. -/
example (operation : BankOperation) : (scanOperation
    ⟨fun operation activeK => some ⟨⟨activeK % operation.classes, "gemm", .extra, ⟨32, 1, 1⟩, 0, 0,
      8⟩, ⟨activeK, 1, 1⟩, fun _ => 0⟩, fun _ _ _ => qkGemm 1⟩ operation).isSome = true := by
  cases operation <;> decide +kernel

end Bank

end MagpieTts.Plugins
