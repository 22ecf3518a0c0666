import MagpieTts.Library.ExceptRules
import MagpieTts.Library.FileSystem
import Mathlib.Algebra.GroupWithZero.Nat

/-!
# The files of a bundle

How the verifier opens a file of the bundle: a strict relative path is resolved below the root, the
resolved path has to stay inside the root, and the bytes of the file are copied into a sealed
snapshot while their SHA-256 is computed. A machine is a file system with the answers of the system
calls that may fail whatever the file system holds.

## Main definitions

* `BundleError`: the errors of the verifier, with the file and the manifest field they name.
* `isStrictRelativePath`, `isWithinRoot`: the two checks of a path.
* `openRegularBundleFile`, `snapshotAndSha256File`, `readCompleteFile`: the accesses to a file.

## Main results

* `isStrictRelativePath_components`: the components of a strict path are names of entries.
* `openRegularBundleFile_ok`: a file that is opened is a regular file inside the root.
* `snapshotAndSha256File_ok`, `readCompleteFile_ok`: snapshots have the bytes of the file.
-/

namespace MagpieTts.Bundle

open Library

/-! ### Errors -/

inductive BundleStage
  | bundleRoot
  | manifestFile
  | artifactPath
  | artifactFile
  | sha256
  deriving DecidableEq

inductive BundleErrorCode
  | invalidRelativePath
  | notFound
  | notDirectory
  | notRegularFile
  | pathEscape
  | duplicateCanonicalPath
  | duplicateFileIdentity
  | unexpectedEntry
  | ioError
  | sizeLimitExceeded
  | sizeMismatch
  | invalidDigest
  | digestMismatch
  deriving DecidableEq

structure BundleError where
  stage : BundleStage
  code : BundleErrorCode
  path : Bytes
  manifestPointer : Bytes
  detail : Bytes
  deriving DecidableEq

/-- What `std::error_code::message` and `std::strerror` say. -/
def errorMessage : ErrorNumber → Bytes
  | .noSuchFile => utf8 "No such file or directory"
  | .notDirectory => utf8 "Not a directory"
  | .tooManyLinks => utf8 "Too many levels of symbolic links"
  | .other message => message

def isMissingError (error : ErrorNumber) : Bool := error = .noSuchFile ∨ error = .notDirectory

def systemErrorDetail (operation : Bytes) (error : ErrorNumber) : Bytes :=
  operation ++ utf8 " failed: " ++ errorMessage error

/-- OpenSSL may fail without an error code, which is an error with no message. -/
def opensslErrorDetail (operation : Bytes) (error : ErrorNumber) : Bytes :=
  if errorMessage error = [] then operation ++ utf8 " failed without an OpenSSL error code"
  else operation ++ utf8 " failed: " ++ errorMessage error

/-! ### Kinds of artifacts -/

inductive BundleArtifactKind
  | manifest
  | sourceModelReceipt
  | exportReceipt
  | tokenizerIdentityReceipt
  | pluginBuildReceipt
  | plugin
  | license
  | engine
  | goldenFixture
  | goldenReceipt
  deriving DecidableEq

/-! ### Paths -/

def backslash : UInt8 := 0x5C

/-- `is_strict_relative_path`. -/
def isStrictRelativePath (path : Bytes) : Bool :=
  let genericPath := genericString (pathComponents path)
  if path = [] ∨ path.head? = some slash ∨ backslash ∈ genericPath then false
  else if genericPath.any fun byte => byte ≤ 0x1F || byte = 0x7F then false
  else (pathComponents path).all fun component =>
    component ≠ [] ∧ component ≠ [dot] ∧ component ≠ [dot, dot]

/-- `is_within_root`, on the components of two absolute paths. -/
def isWithinRoot : List Bytes → List Bytes → Bool
  | [], path => path ≠ []
  | _ :: _, [] => false
  | rootComponent :: root, pathComponent :: path =>
    rootComponent = pathComponent && isWithinRoot root path

theorem isStrictRelativePath_components {path : Bytes} (h : isStrictRelativePath path = true) :
    pathComponents path ≠ [] ∧ ∀ c ∈ pathComponents path, IsName c := by
  rw [isStrictRelativePath] at h
  split_ifs at h with hpath hbytes
  rw [not_or] at hpath
  refine ⟨pathComponents_ne_nil hpath.1, fun c hc => ?_⟩
  have hcomponent := List.all_eq_true.mp h c hc
  rw [decide_eq_true_iff] at hcomponent
  exact ⟨hcomponent.1, hcomponent.2.1, hcomponent.2.2, slash_notMem_of_mem_pathComponents hc⟩

theorem isWithinRoot_iff {root path : List Bytes} :
    isWithinRoot root path = true ↔ ∃ rest, rest ≠ [] ∧ path = root ++ rest := by
  induction root generalizing path with
  | nil => simp [isWithinRoot]
  | cons component root ih =>
    rcases path with _ | ⟨first, path⟩
    · simp [isWithinRoot]
    · rw [isWithinRoot, Bool.and_eq_true, decide_eq_true_iff, ih]
      constructor
      · rintro ⟨rfl, rest, hrest, rfl⟩
        exact ⟨rest, hrest, rfl⟩
      · rintro ⟨rest, hrest, hpath⟩
        cases hpath
        exact ⟨rfl, rest, hrest, rfl⟩

/-! ### System calls -/

/-- The calls that may fail on their own account. -/
inductive SystemCall
  | status
  | canonical
  | open
  | fstat
  | canonicalDescriptor
  | digestContext
  | digestInit
  | memfdCreate
  | read (offset : UInt64)
  | write (offset : UInt64)
  | writeNothing (offset : UInt64)
  | digestUpdate (offset : UInt64)
  | digestFinal
  | seek
  | addSeals
  | readSnapshot (offset : ℕ)
  | enumerate
  | symlinkStatus
  | increment
  | seekRetained
  deriving DecidableEq

/-- A machine on which the verifier runs. A `read` returns at most the 64 KiB of the buffer. -/
structure Machine where
  fs : FileSystem
  currentDirectory : List Bytes
  currentDirectory_entry : fs.entry currentDirectory = some .directory
  failure : SystemCall → Bytes → Option ErrorNumber
  readChunks : Bytes → Bytes → List Bytes
  flatten_readChunks : ∀ path contents, (readChunks path contents).flatten = contents
  length_readChunks : ∀ path contents, ∀ chunk ∈ readChunks path contents, chunk.length ≤ 65536
  /-- `EVP_sha256` of a byte string. -/
  sha256 : Bytes → Bytes
  /-- `std::string::max_size`. -/
  maximumStringSize : ℕ

/-- A call whose answer is `result` unless it fails on its own account. -/
def Machine.call {α : Type} (machine : Machine) (call : SystemCall) (path : Bytes)
    (result : Except ErrorNumber α) : Except ErrorNumber α :=
  match machine.failure call path with
  | some error => .error error
  | none => result

/-- A call whose failure becomes an error of the verifier. -/
def Machine.attempt {α : Type} (machine : Machine) (call : SystemCall) (path : Bytes)
    (result : Except ErrorNumber α) (failed : ErrorNumber → BundleError) : Except BundleError α :=
  (machine.call call path result).mapError failed

variable {machine : Machine}

theorem Machine.attempt_ok {α : Type} {call : SystemCall} {path : Bytes}
    {result : Except ErrorNumber α} {failed : ErrorNumber → BundleError} {value : α}
    (h : machine.attempt call path result failed = .ok value) : result = .ok value := by
  rw [attempt, Machine.call] at h
  split at h
  · cases h
  · rcases result with error | result
    · cases h
    · cases h
      rfl

/-- `require condition error` stands for `if (!condition) fail(error)`. -/
def require (condition : Prop) [Decidable condition] (error : BundleError) :
    Except BundleError Unit :=
  if condition then .ok () else .error error

@[simp]
theorem require_eq_ok_iff {condition : Prop} [Decidable condition] {error : BundleError} :
    require condition error = .ok () ↔ condition := by
  rw [require]
  split_ifs with h <;> simp [h]

/-! ### Opening a file -/

/-- The descriptor is represented by the bytes it reads. -/
structure OpenedRegularFile where
  canonicalPath : List Bytes
  deviceId : ℕ
  inodeId : ℕ
  sizeBytes : UInt64
  contents : Bytes

/-- The stage of the errors about the path of a file. -/
def pathStage (stage : BundleStage) : BundleStage :=
  if stage = .manifestFile then .manifestFile else .artifactPath

/-- `open` with `O_NOFOLLOW`. -/
def openNoFollow (fs : FileSystem) (path : List Bytes) : Except ErrorNumber FileEntry :=
  match fs.entry path with
  | none => .error .noSuchFile
  | some (.symlink _) => .error .tooManyLinks
  | some entry => .ok entry

/-- What the status of the descriptor says of a regular file. -/
def requireRegularFile (entry : FileEntry) (stage : BundleStage) (path manifestPointer : Bytes) :
    Except BundleError RegularFile :=
  match entry with
  | .regular file => do
    require (0 ≤ file.size)
      ⟨stage, .ioError, path, manifestPointer, utf8 "regular file reported a negative size"⟩
    return file
  | _ => .error
    ⟨stage, .notRegularFile, path, manifestPointer,
      utf8 "resolved path must identify a regular file"⟩

/-- `open_regular_bundle_file`. The link of the open descriptor leads to the path that was opened.
-/
def openRegularBundleFile (machine : Machine) (canonicalRoot : List Bytes) (relativePath : Bytes)
    (stage : BundleStage) (manifestPointer : Bytes) : Except BundleError OpenedRegularFile := do
  require (isStrictRelativePath relativePath = true)
    ⟨pathStage stage, .invalidRelativePath, relativePath, manifestPointer,
      utf8 ("path must be a non-empty relative path without control bytes, '.', '..', or " ++
        "backslash components")⟩
  let requestedPath := absoluteString (canonicalRoot ++ [relativePath])
  let resolvedPath ← machine.attempt .canonical requestedPath
    (machine.fs.resolve [] (canonicalRoot ++ pathComponents relativePath))
    fun error =>
      ⟨stage, if isMissingError error then .notFound else .ioError, requestedPath, manifestPointer,
        errorMessage error⟩
  require (isWithinRoot canonicalRoot resolvedPath = true)
    ⟨pathStage stage, .pathEscape, absoluteString resolvedPath, manifestPointer,
      utf8 "canonical path escapes the bundle root"⟩
  let entry ← machine.attempt .open (absoluteString resolvedPath)
    (openNoFollow machine.fs resolvedPath)
    fun error =>
      ⟨stage, if isMissingError error then .notFound else .ioError, absoluteString resolvedPath,
        manifestPointer, systemErrorDetail (utf8 "open") error⟩
  machine.attempt .fstat (absoluteString resolvedPath) (.ok ()) fun error =>
    ⟨stage, .ioError, absoluteString resolvedPath, manifestPointer,
      systemErrorDetail (utf8 "fstat") error⟩
  let file ← requireRegularFile entry stage (absoluteString resolvedPath) manifestPointer
  let openedPath ← machine.attempt .canonicalDescriptor (absoluteString resolvedPath)
    (.ok resolvedPath)
    fun error =>
      ⟨stage, .ioError, absoluteString resolvedPath, manifestPointer,
        utf8 "unable to resolve the opened file descriptor: " ++ errorMessage error⟩
  require (isWithinRoot canonicalRoot openedPath = true)
    ⟨pathStage stage, .pathEscape, absoluteString openedPath, manifestPointer,
      utf8 "opened file escapes the bundle root"⟩
  return {
    canonicalPath := openedPath
    deviceId := file.device
    inodeId := file.inode
    sizeBytes := .ofNat file.size.toNat
    contents := file.contents }

/-- What is known of a file that was opened. -/
structure Opened (machine : Machine) (canonicalRoot : List Bytes) (relativePath : Bytes)
    (opened : OpenedRegularFile) : Prop where
  strict : isStrictRelativePath relativePath = true
  resolve : machine.fs.resolve [] (canonicalRoot ++ pathComponents relativePath) =
    .ok opened.canonicalPath
  within : isWithinRoot canonicalRoot opened.canonicalPath = true
  regular : ∃ file, machine.fs.entry opened.canonicalPath = some (.regular file) ∧
    file.contents = opened.contents ∧ file.device = opened.deviceId ∧ file.inode = opened.inodeId

theorem openNoFollow_ok {fs : FileSystem} {path : List Bytes} {entry : FileEntry}
    (h : openNoFollow fs path = .ok entry) : fs.entry path = some entry := by
  rw [openNoFollow] at h
  split at h
  · cases h
  · cases h
  · cases h
    assumption

theorem requireRegularFile_ok {entry : FileEntry} {stage : BundleStage}
    {path manifestPointer : Bytes} {file : RegularFile}
    (h : requireRegularFile entry stage path manifestPointer = .ok file) :
    entry = .regular file := by
  cases entry with
  | regular =>
    obtain ⟨-, hfile⟩ := bind_unit_eq_ok_iff.mp h
    cases hfile
    rfl
  | directory | symlink | special => cases h

/-- A file that is opened is a regular file inside the root. -/
theorem openRegularBundleFile_ok {canonicalRoot : List Bytes} {relativePath : Bytes}
    {stage : BundleStage} {manifestPointer : Bytes} {opened : OpenedRegularFile}
    (h : openRegularBundleFile machine canonicalRoot relativePath stage manifestPointer =
      .ok opened) : Opened machine canonicalRoot relativePath opened := by
  obtain ⟨hstrict, h⟩ := bind_unit_eq_ok_iff.mp h
  obtain ⟨resolvedPath, hresolve, h⟩ := bind_eq_ok_iff.mp h
  obtain ⟨hwithin, h⟩ := bind_unit_eq_ok_iff.mp h
  obtain ⟨entry, hopen, h⟩ := bind_eq_ok_iff.mp h
  obtain ⟨-, h⟩ := bind_unit_eq_ok_iff.mp h
  obtain ⟨file, hfile, h⟩ := bind_eq_ok_iff.mp h
  obtain ⟨openedPath, hdescriptor, h⟩ := bind_eq_ok_iff.mp h
  obtain ⟨hopened, h⟩ := bind_unit_eq_ok_iff.mp h
  cases h
  cases machine.attempt_ok hdescriptor
  have hentry := openNoFollow_ok (machine.attempt_ok hopen)
  rw [requireRegularFile_ok hfile] at hentry
  exact ⟨require_eq_ok_iff.mp hstrict, machine.attempt_ok hresolve, require_eq_ok_iff.mp hopened,
    file, hentry, rfl, rfl, rfl⟩

/-! ### Snapshots -/

/-- `kSha256Bytes`. -/
def sha256Bytes : ℕ := 32

/-- `kMaximumRuntimeBundleManifestBytes`. -/
def maximumRuntimeBundleManifestBytes : UInt64 := 16 * 1024 * 1024

/-- `kMaximumManifestDigestTransportBytes`. -/
def maximumManifestDigestTransportBytes : UInt64 := 4096

def isLowercaseSha256 (digest : Bytes) : Bool :=
  digest.length = sha256Bytes * 2 && digest.all fun character =>
    0x30 ≤ character && character ≤ 0x39 || 0x61 ≤ character && character ≤ 0x66

/-- The character of a hexadecimal digit. -/
def hexadecimal (nibble : UInt8) : UInt8 := if nibble < 10 then 0x30 + nibble else 0x57 + nibble

/-- The text of a digest. -/
def hexDigest (binary : Bytes) : Bytes :=
  binary.flatMap fun byte : UInt8 => [hexadecimal (byte >>> 4), hexadecimal (byte &&& 0x0F)]

structure Sha256SnapshotResult where
  digest : Bytes
  sizeBytes : UInt64
  sealedSnapshot : Bytes

/-- One pass of the loop that reads a file, behind the bytes that are already in the snapshot. -/
def snapshotChunk (machine : Machine) (path manifestPointer : Bytes) (snapshotStage : BundleStage)
    (maximumBytes : UInt64) (state : UInt64 × Bytes) (chunk : Bytes) :
    Except BundleError (UInt64 × Bytes) := do
  let chunkSize := UInt64.ofNat chunk.length
  machine.attempt (.read state.1) path (.ok ()) fun error =>
    ⟨.sha256, .ioError, path, manifestPointer, systemErrorDetail (utf8 "read") error⟩
  require (¬ (maximumBytes < chunkSize ∨ maximumBytes - chunkSize < state.1))
    ⟨snapshotStage, .sizeLimitExceeded, path, manifestPointer,
      utf8 "file grew beyond the configured snapshot size limit"⟩
  require (¬ UInt64.ofNat (2 ^ 64 - 1) - chunkSize < state.1)
    ⟨.sha256, .ioError, path, manifestPointer, utf8 "file size exceeds uint64_t"⟩
  machine.attempt (.write state.1) path (.ok ()) fun error =>
    ⟨snapshotStage, .ioError, path, manifestPointer,
      systemErrorDetail (utf8 "write sealed snapshot") error⟩
  machine.attempt (.writeNothing state.1) path (.ok ()) fun _ =>
    ⟨snapshotStage, .ioError, path, manifestPointer,
      utf8 "writing the artifact snapshot made no progress"⟩
  machine.attempt (.digestUpdate state.1) path (.ok ()) fun error =>
    ⟨.sha256, .ioError, path, manifestPointer, opensslErrorDetail (utf8 "EVP_DigestUpdate") error⟩
  return (state.1 + chunkSize, state.2 ++ chunk)

/-- `snapshot_and_sha256_file`. -/
def snapshotAndSha256File (machine : Machine) (file : OpenedRegularFile) (manifestPointer : Bytes)
    (snapshotStage : BundleStage) (maximumBytes : UInt64) :
    Except BundleError Sha256SnapshotResult := do
  let path := absoluteString file.canonicalPath
  require (file.sizeBytes ≤ maximumBytes)
    ⟨snapshotStage, .sizeLimitExceeded, path, manifestPointer,
      utf8 "file exceeds the configured snapshot size limit"⟩
  machine.attempt .digestContext path (.ok ()) fun error =>
    ⟨.sha256, .ioError, path, manifestPointer, opensslErrorDetail (utf8 "EVP_MD_CTX_new") error⟩
  machine.attempt .digestInit path (.ok ()) fun error =>
    ⟨.sha256, .ioError, path, manifestPointer, opensslErrorDetail (utf8 "EVP_DigestInit_ex") error⟩
  machine.attempt .memfdCreate path (.ok ()) fun error =>
    ⟨snapshotStage, .ioError, path, manifestPointer, systemErrorDetail (utf8 "memfd_create") error⟩
  let (sizeBytes, snapshot) ← (machine.readChunks path file.contents).foldlM
    (snapshotChunk machine path manifestPointer snapshotStage maximumBytes) (0, [])
  machine.attempt (.read sizeBytes) path (.ok ()) fun error =>
    ⟨.sha256, .ioError, path, manifestPointer, systemErrorDetail (utf8 "read") error⟩
  machine.attempt .digestFinal path (.ok ()) fun error =>
    ⟨.sha256, .ioError, path, manifestPointer, opensslErrorDetail (utf8 "EVP_DigestFinal_ex") error⟩
  require ((machine.sha256 snapshot).length = sha256Bytes)
    ⟨.sha256, .ioError, path, manifestPointer,
      utf8 "OpenSSL returned an unexpected SHA-256 digest length"⟩
  machine.attempt .seek path (.ok ()) fun error =>
    ⟨snapshotStage, .ioError, path, manifestPointer,
      systemErrorDetail (utf8 "lseek sealed snapshot") error⟩
  machine.attempt .addSeals path (.ok ()) fun error =>
    ⟨snapshotStage, .ioError, path, manifestPointer, systemErrorDetail (utf8 "F_ADD_SEALS") error⟩
  return {
    digest := hexDigest (machine.sha256 snapshot)
    sizeBytes := sizeBytes
    sealedSnapshot := snapshot }

/-- One pass of the loop that reads a snapshot. -/
def readCompleteChunk (machine : Machine) (path manifestPointer contents chunk : Bytes) :
    Except BundleError Bytes := do
  machine.attempt (.readSnapshot contents.length) path (.ok ()) fun error =>
    ⟨.manifestFile, .ioError, path, manifestPointer, systemErrorDetail (utf8 "read") error⟩
  let maximumManifestBytes := maximumRuntimeBundleManifestBytes.toNat
  require (¬ (maximumManifestBytes < chunk.length ∨
      maximumManifestBytes - chunk.length < contents.length))
    ⟨.manifestFile, .sizeLimitExceeded, path, manifestPointer,
      utf8 "manifest exceeds the 16 MiB size limit"⟩
  require (contents.length ≤ machine.maximumStringSize - chunk.length)
    ⟨.manifestFile, .ioError, path, manifestPointer,
      utf8 "manifest is too large to represent in memory"⟩
  return contents ++ chunk

/-- `read_complete_file`, of a snapshot with these bytes. -/
def readCompleteFile (machine : Machine) (snapshot path manifestPointer : Bytes) :
    Except BundleError Bytes := do
  machine.attempt .seek path (.ok ()) fun error =>
    ⟨.manifestFile, .ioError, path, manifestPointer,
      systemErrorDetail (utf8 "lseek manifest snapshot") error⟩
  let contents ← (machine.readChunks path snapshot).foldlM
    (readCompleteChunk machine path manifestPointer) []
  machine.attempt (.readSnapshot contents.length) path (.ok ()) fun error =>
    ⟨.manifestFile, .ioError, path, manifestPointer, systemErrorDetail (utf8 "read") error⟩
  return contents

section Snapshots

variable {path manifestPointer : Bytes} {snapshotStage : BundleStage} {maximumBytes : UInt64}

theorem snapshotChunk_ok {state state' : UInt64 × Bytes} {chunk : Bytes}
    (hchunk : chunk.length ≤ 65536)
    (h : snapshotChunk machine path manifestPointer snapshotStage maximumBytes state chunk =
      .ok state') :
    state'.1.toNat = state.1.toNat + chunk.length ∧ state'.2 = state.2 ++ chunk := by
  obtain ⟨-, h⟩ := bind_unit_eq_ok_iff.mp h
  obtain ⟨-, h⟩ := bind_unit_eq_ok_iff.mp h
  obtain ⟨hword, h⟩ := bind_unit_eq_ok_iff.mp h
  obtain ⟨-, h⟩ := bind_unit_eq_ok_iff.mp h
  obtain ⟨-, h⟩ := bind_unit_eq_ok_iff.mp h
  obtain ⟨-, h⟩ := bind_unit_eq_ok_iff.mp h
  cases h
  have hsize : (UInt64.ofNat chunk.length).toNat = chunk.length :=
    UInt64.toNat_ofNat_of_lt' (hchunk.trans_lt (by decide))
  have hmaximum : (UInt64.ofNat (2 ^ 64 - 1)).toNat = 2 ^ 64 - 1 := rfl
  rw [require_eq_ok_iff, UInt64.lt_iff_toNat_lt, UInt64.toNat_sub_of_le, hsize, hmaximum] at hword
  · refine ⟨?_, rfl⟩
    rw [UInt64.toNat_add, hsize, Nat.mod_eq_of_lt (by omega)]
  · rw [UInt64.le_iff_toNat_le, hsize, hmaximum]
    omega

/-- The loop appends the chunks, and counts their bytes without wrapping. -/
theorem foldlM_snapshotChunk_ok {chunks : List Bytes} {state state' : UInt64 × Bytes}
    (hchunks : ∀ chunk ∈ chunks, chunk.length ≤ 65536)
    (h : chunks.foldlM (snapshotChunk machine path manifestPointer snapshotStage maximumBytes)
      state = .ok state') :
    state'.1.toNat = state.1.toNat + chunks.flatten.length ∧
      state'.2 = state.2 ++ chunks.flatten := by
  induction chunks generalizing state with
  | nil =>
    cases h
    exact ⟨rfl, (List.append_nil _).symm⟩
  | cons chunk chunks ih =>
    obtain ⟨next, hnext, h⟩ := bind_eq_ok_iff.mp h
    obtain ⟨hsize, hbytes⟩ := snapshotChunk_ok (hchunks chunk List.mem_cons_self) hnext
    obtain ⟨hsize', hbytes'⟩ := ih (fun c hc => hchunks c (List.mem_cons_of_mem _ hc)) h
    rw [hsize', hsize, hbytes', hbytes, List.flatten_cons, List.length_append, Nat.add_assoc,
      List.append_assoc]
    exact ⟨rfl, rfl⟩

/-- A snapshot has the bytes of the file, their number and their digest. -/
theorem snapshotAndSha256File_ok {file : OpenedRegularFile} {result : Sha256SnapshotResult}
    (h : snapshotAndSha256File machine file manifestPointer snapshotStage maximumBytes =
      .ok result) :
    result.sealedSnapshot = file.contents ∧ result.sizeBytes.toNat = file.contents.length ∧
      result.digest = hexDigest (machine.sha256 file.contents) := by
  obtain ⟨-, h⟩ := bind_unit_eq_ok_iff.mp h
  obtain ⟨-, h⟩ := bind_unit_eq_ok_iff.mp h
  obtain ⟨-, h⟩ := bind_unit_eq_ok_iff.mp h
  obtain ⟨-, h⟩ := bind_unit_eq_ok_iff.mp h
  obtain ⟨⟨sizeBytes, snapshot⟩, hloop, h⟩ := bind_eq_ok_iff.mp h
  obtain ⟨-, h⟩ := bind_unit_eq_ok_iff.mp h
  obtain ⟨-, h⟩ := bind_unit_eq_ok_iff.mp h
  obtain ⟨-, h⟩ := bind_unit_eq_ok_iff.mp h
  obtain ⟨-, h⟩ := bind_unit_eq_ok_iff.mp h
  obtain ⟨-, h⟩ := bind_unit_eq_ok_iff.mp h
  cases h
  obtain ⟨hsize, hbytes⟩ := foldlM_snapshotChunk_ok (machine.length_readChunks _ _) hloop
  rw [machine.flatten_readChunks] at hsize hbytes
  rw [List.nil_append] at hbytes
  change snapshot = file.contents at hbytes
  refine ⟨hbytes, ?_, by rw [hbytes]⟩
  simpa using hsize

theorem foldlM_readCompleteChunk_ok {chunks : List Bytes} {contents contents' : Bytes}
    (h : chunks.foldlM (readCompleteChunk machine path manifestPointer) contents = .ok contents') :
    contents' = contents ++ chunks.flatten := by
  induction chunks generalizing contents with
  | nil =>
    cases h
    exact (List.append_nil _).symm
  | cons chunk chunks ih =>
    obtain ⟨next, hnext, h⟩ := bind_eq_ok_iff.mp h
    obtain ⟨-, hnext⟩ := bind_unit_eq_ok_iff.mp hnext
    obtain ⟨-, hnext⟩ := bind_unit_eq_ok_iff.mp hnext
    obtain ⟨-, hnext⟩ := bind_unit_eq_ok_iff.mp hnext
    cases hnext
    rw [ih h, List.flatten_cons, List.append_assoc]

/-- Reading a snapshot returns its bytes. -/
theorem readCompleteFile_ok {snapshot contents : Bytes}
    (h : readCompleteFile machine snapshot path manifestPointer = .ok contents) :
    contents = snapshot := by
  obtain ⟨-, h⟩ := bind_unit_eq_ok_iff.mp h
  obtain ⟨contents', hloop, h⟩ := bind_eq_ok_iff.mp h
  obtain ⟨-, h⟩ := bind_unit_eq_ok_iff.mp h
  cases h
  rw [foldlM_readCompleteChunk_ok hloop, machine.flatten_readChunks, List.nil_append]

end Snapshots

end MagpieTts.Bundle
