import MagpieTts.Bundle.BundleInventory
import MagpieTts.Manifest.ManifestError
import Mathlib.Data.List.Forall2

/-!
# Verifying a bundle

The verifier adds up the declared sizes, opens every declared artifact, compares its size and its
digest with the manifest, and compares the entries below the root with the manifest. A bundle that
passes is exactly what its manifest declares.

## Main definitions

* `canonicalBundleRoot`: the resolved root of the bundle.
* `verifyRuntimeBundleFilesAtCanonicalRoot`, `verifyRuntimeBundleFiles`,
  `loadAndVerifyRuntimeBundle`: the verifier and its two entry points.
* `VerifiedBundle`: what a bundle that passes is known to be.

## Main results

* `foldlM_addDeclaredSize_ok`: the declared sizes are added up without wrapping.
* `verifyRequest_ok`: what an artifact that passes is known to be.
* `bundleVerification_exact`: the verifier accepts only bundles that are what they declare.
-/

namespace MagpieTts.Bundle

open Library Manifest

/-! ### The root -/

/-- Resolution of a path that may be relative to the current directory. -/
def Machine.resolvePath (machine : Machine) (path : Bytes) : Except ErrorNumber (List Bytes) :=
  if path = [] then .error .noSuchFile
  else
    machine.fs.resolve (if path.head? = some slash then [] else machine.currentDirectory)
      (pathComponents (path.dropWhile (· = slash)))

/-- `std::filesystem::status`. -/
def Machine.status (machine : Machine) (path : Bytes) : Except ErrorNumber FileEntry := do
  let resolved ← machine.resolvePath path
  symlinkStatus machine.fs resolved

/-- `canonical_bundle_root`. A status that comes without an error is that of an entry that exists.
-/
def canonicalBundleRoot (machine : Machine) (bundleRoot : Bytes) :
    Except BundleError (List Bytes) := do
  let status ← machine.attempt .status bundleRoot (machine.status bundleRoot) fun error =>
    ⟨.bundleRoot, if isMissingError error then .notFound else .ioError, bundleRoot, utf8 "/",
      errorMessage error⟩
  require (status = .directory)
    ⟨.bundleRoot, .notDirectory, bundleRoot, utf8 "/", utf8 "bundle root must be a directory"⟩
  machine.attempt .canonical bundleRoot (machine.resolvePath bundleRoot) fun error =>
    ⟨.bundleRoot, .ioError, bundleRoot, utf8 "/", errorMessage error⟩

variable {machine : Machine} {canonicalRoot : List Bytes}

theorem symlinkStatus_ok {fs : FileSystem} {path : List Bytes} {status : FileEntry}
    (h : symlinkStatus fs path = .ok status) : fs.entry path = some status := by
  rw [symlinkStatus] at h
  split at h
  · cases h
  · cases h
    assumption

/-- The canonical root is a directory. -/
theorem canonicalBundleRoot_ok {bundleRoot : Bytes}
    (h : canonicalBundleRoot machine bundleRoot = .ok canonicalRoot) :
    machine.fs.entry canonicalRoot = some .directory := by
  obtain ⟨status, hstatus, h⟩ := bind_eq_ok_iff.mp h
  obtain ⟨hdirectory, h⟩ := bind_unit_eq_ok_iff.mp h
  obtain ⟨resolved, hresolved, hentry⟩ := bind_eq_ok_iff.mp (machine.attempt_ok hstatus)
  rw [require_eq_ok_iff] at hdirectory
  rw [machine.attempt_ok h] at hresolved
  cases hresolved
  rw [symlinkStatus_ok hentry, hdirectory]

/-! ### The declared sizes -/

/-- `kMaximumBundleSnapshotBytes`. -/
def maximumBundleSnapshotBytes : UInt64 := .ofNat (16 * 1024 * 1024 * 1024)

/-- One pass of the loop over the declared sizes. -/
def addDeclaredSize (declaredSnapshotBytes : UInt64) (request : ArtifactRequest) :
    Except BundleError UInt64 := do
  require (¬ maximumBundleSnapshotBytes - declaredSnapshotBytes < request.expectedSizeBytes)
    ⟨.artifactFile, .sizeLimitExceeded, request.relativePath, request.sizePointer,
      utf8 "declared artifact sizes exceed the runtime bundle snapshot hard limit"⟩
  return declaredSnapshotBytes + request.expectedSizeBytes

/-- The exact sum of the declared sizes. -/
def declaredBytes (requests : List ArtifactRequest) : ℕ :=
  (requests.map fun request => request.expectedSizeBytes.toNat).sum

/-- A sum that is checked against a limit before it is formed does not wrap. -/
theorem toNat_add_of_le_sub {limit start size : UInt64} (hstart : start ≤ limit)
    (hsize : ¬ limit - start < size) :
    (start + size).toNat = start.toNat + size.toNat ∧ start + size ≤ limit := by
  rw [UInt64.lt_iff_toNat_lt, UInt64.toNat_sub_of_le _ _ hstart] at hsize
  rw [UInt64.le_iff_toNat_le] at hstart
  have hword := limit.toNat_lt
  have hadd : (start + size).toNat = start.toNat + size.toNat := by
    rw [UInt64.toNat_add, Nat.mod_eq_of_lt (by omega)]
  refine ⟨hadd, ?_⟩
  rw [UInt64.le_iff_toNat_le, hadd]
  omega

/-- The loop adds without wrapping, and stays below the hard limit. -/
theorem foldlM_addDeclaredSize_ok {requests : List ArtifactRequest} {start total : UInt64}
    (hstart : start ≤ maximumBundleSnapshotBytes)
    (h : requests.foldlM addDeclaredSize start = .ok total) :
    total.toNat = start.toNat + declaredBytes requests ∧ total ≤ maximumBundleSnapshotBytes := by
  induction requests generalizing start with
  | nil =>
    cases h
    exact ⟨(Nat.add_zero _).symm, hstart⟩
  | cons request requests ih =>
    rw [List.foldlM_cons, bind_eq_ok_iff] at h
    obtain ⟨next, hnext, h⟩ := h
    rw [addDeclaredSize, bind_unit_eq_ok_iff, require_eq_ok_iff] at hnext
    obtain ⟨hlimit, hnext⟩ := hnext
    cases hnext
    obtain ⟨hadd, hle⟩ := toNat_add_of_le_sub hstart hlimit
    obtain ⟨htotal, htotalLe⟩ := ih hle h
    refine ⟨?_, htotalLe⟩
    rw [htotal, hadd, declaredBytes, declaredBytes, List.map_cons, List.sum_cons, Nat.add_assoc]

/-! ### The artifacts -/

/-- The descriptor is represented by the bytes of the sealed snapshot. -/
structure VerifiedBundleArtifact where
  kind : BundleArtifactKind
  logicalName : Bytes
  manifestPointer : Bytes
  relativePath : Bytes
  canonicalPath : List Bytes
  sha256 : Bytes
  sizeBytes : UInt64
  snapshot : Bytes

/-- `canonical_paths` and `file_identities`, with the artifacts that are verified. -/
structure VerifierState where
  canonicalPaths : List (Bytes × Bytes)
  fileIdentities : List (Bytes × Bytes)
  verified : List VerifiedBundleArtifact

/-- `emplace` in a map from keys to manifest fields, which fails when the key is there. -/
def emplace (map : List (Bytes × Bytes)) (key pointer : Bytes) (failed : Bytes → BundleError) :
    Except BundleError (List (Bytes × Bytes)) :=
  match map.lookup key with
  | some existing => .error (failed existing)
  | none => .ok ((key, pointer) :: map)

/-- One pass of the loop over the artifacts. -/
def verifyRequest (machine : Machine) (canonicalRoot : List Bytes) (state : VerifierState)
    (request : ArtifactRequest) : Except BundleError VerifierState := do
  require (isLowercaseSha256 request.expectedSha256 = true)
    ⟨.sha256, .invalidDigest, request.relativePath, request.hashPointer,
      utf8 "expected SHA-256 must be exactly 64 lowercase hexadecimal characters"⟩
  let file ← openRegularBundleFile machine canonicalRoot request.relativePath .artifactFile
    request.pathPointer
  let path := absoluteString file.canonicalPath
  require (file.sizeBytes = request.expectedSizeBytes)
    ⟨.artifactFile, .sizeMismatch, path, request.sizePointer,
      utf8 "artifact size does not match the authenticated manifest value"⟩
  let canonicalPaths ← emplace state.canonicalPaths path request.pathPointer fun existing =>
    ⟨.artifactPath, .duplicateCanonicalPath, path, request.pathPointer,
      utf8 "canonical artifact path is already referenced by " ++ existing⟩
  let identityKey := utf8 (toString file.deviceId) ++ utf8 ":" ++ utf8 (toString file.inodeId)
  let fileIdentities ← emplace state.fileIdentities identityKey request.pathPointer
    fun existing =>
      ⟨.artifactPath, .duplicateFileIdentity, path, request.pathPointer,
        utf8 "artifact is a hard-link alias already referenced by " ++ existing⟩
  let actual ← snapshotAndSha256File machine file request.sizePointer .artifactFile
    request.expectedSizeBytes
  require (actual.sizeBytes = request.expectedSizeBytes)
    ⟨.artifactFile, .sizeMismatch, path, request.sizePointer,
      utf8 "artifact size changed while the immutable snapshot was created"⟩
  require (actual.digest = request.expectedSha256)
    ⟨.sha256, .digestMismatch, path, request.hashPointer,
      utf8 "expected " ++ request.expectedSha256 ++ utf8 ", computed " ++ actual.digest⟩
  let artifact : VerifiedBundleArtifact := {
    kind := request.kind
    logicalName := request.logicalName
    manifestPointer := request.pathPointer
    relativePath := request.relativePath
    canonicalPath := file.canonicalPath
    sha256 := actual.digest
    sizeBytes := actual.sizeBytes
    snapshot := actual.sealedSnapshot }
  return ⟨canonicalPaths, fileIdentities, state.verified ++ [artifact]⟩

/-- `verify_manifest_digest_transport`. -/
def verifyManifestDigestTransport (machine : Machine) (canonicalRoot : List Bytes)
    (inventory : VerifiedBundleInventory) (manifestRelativePath manifestSha256 : Bytes) :
    Except BundleError Unit :=
  if inventory.manifestDigestTransportPresent = false then .ok ()
  else do
    let digestFile ← openRegularBundleFile machine canonicalRoot
      inventory.manifestDigestTransportPath .manifestFile (utf8 "/")
    let path := absoluteString digestFile.canonicalPath
    let digestSnapshot ← snapshotAndSha256File machine digestFile (utf8 "/") .manifestFile
      maximumManifestDigestTransportBytes
    let actual ← readCompleteFile machine digestSnapshot.sealedSnapshot path (utf8 "/")
    require (actual = manifestSha256 ++ utf8 "  " ++
        genericString (pathComponents manifestRelativePath) ++ utf8 "\n")
      ⟨.sha256, .digestMismatch, path, utf8 "/",
        utf8 ("manifest digest transport file does not contain the exact trusted manifest " ++
          "digest record")⟩

/-- `verify_runtime_bundle_files_at_canonical_root`. -/
def verifyRuntimeBundleFilesAtCanonicalRoot (machine : Machine) (canonicalRoot : List Bytes)
    (manifest : BundleManifest) (manifestRelativePath manifestSha256 : Bytes) :
    Except BundleError (List VerifiedBundleArtifact) := do
  let requests := collectArtifacts manifest
  let declaredSnapshotBytes ← requests.foldlM addDeclaredSize 0
  require (manifest.maximumBundleSnapshotBytes ≤ maximumBundleSnapshotBytes)
    ⟨.artifactFile, .sizeLimitExceeded, absoluteString canonicalRoot,
      utf8 "/limits/maximum_bundle_snapshot_bytes",
      utf8 "bundle snapshot budget exceeds the runtime hard limit"⟩
  require (declaredSnapshotBytes = manifest.maximumBundleSnapshotBytes)
    ⟨.artifactFile, .sizeMismatch, absoluteString canonicalRoot,
      utf8 "/limits/maximum_bundle_snapshot_bytes",
      utf8 "bundle snapshot budget must exactly equal the sum of declared artifact sizes"⟩
  let state ← requests.foldlM (verifyRequest machine canonicalRoot) ⟨[], [], []⟩
  let inventory ← verifyExactBundleInventory machine canonicalRoot manifestRelativePath requests
  verifyManifestDigestTransport machine canonicalRoot inventory manifestRelativePath manifestSha256
  return state.verified

/-- `kDefaultRuntimeBundleManifestPath`. -/
def defaultRuntimeBundleManifestPath : Bytes := utf8 "runtime-bundle-manifest.json"

/-- `verify_runtime_bundle_files`. -/
def verifyRuntimeBundleFiles (machine : Machine) (bundleRoot : Bytes) (manifest : BundleManifest) :
    Except BundleError (List VerifiedBundleArtifact) := do
  let canonicalRoot ← canonicalBundleRoot machine bundleRoot
  let manifestFile ← openRegularBundleFile machine canonicalRoot defaultRuntimeBundleManifestPath
    .manifestFile (utf8 "/")
  let manifestHash ← snapshotAndSha256File machine manifestFile (utf8 "/") .manifestFile
    maximumRuntimeBundleManifestBytes
  verifyRuntimeBundleFilesAtCanonicalRoot machine canonicalRoot manifest
    defaultRuntimeBundleManifestPath manifestHash.digest

structure VerifiedRuntimeBundle where
  canonicalRoot : List Bytes
  canonicalManifestPath : List Bytes
  manifestSnapshot : VerifiedBundleArtifact
  manifest : BundleManifest
  artifacts : List VerifiedBundleArtifact

/-- What `load_and_verify_runtime_bundle` throws. -/
inductive LoadError
  | bundle (error : BundleError)
  | manifest (error : ManifestError)

/-- `load_and_verify_runtime_bundle`, with the parser of manifests. -/
def loadAndVerifyRuntimeBundle (machine : Machine)
    (parseRuntimeBundleManifest : Bytes → Except ManifestError BundleManifest)
    (bundleRoot manifestRelativePath expectedManifestSha256 : Bytes) :
    Except LoadError VerifiedRuntimeBundle := do
  (require (isLowercaseSha256 expectedManifestSha256 = true)
    ⟨.sha256, .invalidDigest, manifestRelativePath, utf8 "/",
      utf8 "trusted manifest SHA-256 must be exactly 64 lowercase hexadecimal characters"⟩).mapError
    .bundle
  let canonicalRoot ← (canonicalBundleRoot machine bundleRoot).mapError .bundle
  let manifestFile ← (openRegularBundleFile machine canonicalRoot manifestRelativePath
    .manifestFile (utf8 "/")).mapError .bundle
  let path := absoluteString manifestFile.canonicalPath
  let manifestHash ← (snapshotAndSha256File machine manifestFile (utf8 "/") .manifestFile
    maximumRuntimeBundleManifestBytes).mapError .bundle
  (require (manifestHash.digest = expectedManifestSha256)
    ⟨.sha256, .digestMismatch, path, utf8 "/",
      utf8 "trusted manifest digest does not match the exact parsed snapshot"⟩).mapError .bundle
  let contents ← (readCompleteFile machine manifestHash.sealedSnapshot path (utf8 "/")).mapError
    .bundle
  let manifest ← (parseRuntimeBundleManifest contents).mapError .manifest
  (machine.attempt .seekRetained path (.ok ()) fun error =>
    ⟨.manifestFile, .ioError, path, utf8 "/",
      systemErrorDetail (utf8 "lseek retained manifest snapshot") error⟩).mapError .bundle
  let manifestSnapshot : VerifiedBundleArtifact := {
    kind := .manifest
    logicalName := utf8 "runtime_bundle_manifest"
    manifestPointer := utf8 "/"
    relativePath := manifestRelativePath
    canonicalPath := manifestFile.canonicalPath
    sha256 := manifestHash.digest
    sizeBytes := manifestHash.sizeBytes
    snapshot := manifestHash.sealedSnapshot }
  let artifacts ← (verifyRuntimeBundleFilesAtCanonicalRoot machine canonicalRoot manifest
    manifestRelativePath manifestHash.digest).mapError .bundle
  return {
    canonicalRoot := canonicalRoot
    canonicalManifestPath := manifestFile.canonicalPath
    manifestSnapshot := manifestSnapshot
    manifest := manifest
    artifacts := artifacts }

/-! ### What an artifact that passes is known to be -/

structure ArtifactPasses (machine : Machine) (canonicalRoot : List Bytes)
    (request : ArtifactRequest) (artifact : VerifiedBundleArtifact) (file : OpenedRegularFile) :
    Prop where
  opened : Opened machine canonicalRoot request.relativePath file
  size : file.contents.length = request.expectedSizeBytes.toNat
  digest : hexDigest (machine.sha256 file.contents) = request.expectedSha256
  artifact_eq : artifact = {
    kind := request.kind
    logicalName := request.logicalName
    manifestPointer := request.pathPointer
    relativePath := request.relativePath
    canonicalPath := file.canonicalPath
    sha256 := request.expectedSha256
    sizeBytes := request.expectedSizeBytes
    snapshot := file.contents }

theorem verifyRequest_ok {state state' : VerifierState} {request : ArtifactRequest}
    (h : verifyRequest machine canonicalRoot state request = .ok state') :
    ∃ artifact file, ArtifactPasses machine canonicalRoot request artifact file ∧
      state'.verified = state.verified ++ [artifact] := by
  rw [verifyRequest] at h
  simp only [bind_eq_ok_iff] at h
  obtain ⟨⟨⟩, -, file, hopen, ⟨⟩, -, paths, -, identities, -, actual, hactual, ⟨⟩, hsize, ⟨⟩,
    hdigest, h⟩ := h
  cases h
  rw [require_eq_ok_iff] at hsize hdigest
  obtain ⟨hsnapshot, hlength, hhash⟩ := snapshotAndSha256File_ok hactual
  refine ⟨_, file, ⟨openRegularBundleFile_ok hopen, ?_, ?_, ?_⟩, rfl⟩
  · rw [← hlength, hsize]
  · rw [← hhash, hdigest]
  · rw [hdigest, hsize, hsnapshot]

/-- The loop over the artifacts. -/
theorem foldlM_verifyRequest_ok {requests : List ArtifactRequest} {state state' : VerifierState}
    (h : requests.foldlM (verifyRequest machine canonicalRoot) state = .ok state') :
    ∃ artifacts, state'.verified = state.verified ++ artifacts ∧
      List.Forall₂ (fun request artifact => ∃ file,
        ArtifactPasses machine canonicalRoot request artifact file) requests artifacts := by
  induction requests generalizing state with
  | nil =>
    cases h
    exact ⟨[], (List.append_nil _).symm, .nil⟩
  | cons request requests ih =>
    rw [List.foldlM_cons, bind_eq_ok_iff] at h
    obtain ⟨next, hnext, h⟩ := h
    obtain ⟨artifact, file, hpasses, hverified⟩ := verifyRequest_ok hnext
    obtain ⟨artifacts, hverified', hforall⟩ := ih h
    refine ⟨artifact :: artifacts, ?_, .cons ⟨file, hpasses⟩ hforall⟩
    rw [hverified', hverified, List.append_assoc, List.singleton_append]

/-- The file of an artifact lies under its own path when the bundle has no symbolic links. -/
theorem Opened.canonicalPath_eq {relativePath : Bytes} {file : OpenedRegularFile}
    (h : Opened machine canonicalRoot relativePath file)
    (hroot : machine.fs.entry canonicalRoot = some .directory)
    (hlink : machine.fs.NoLink canonicalRoot) :
    file.canonicalPath = canonicalRoot ++ pathComponents relativePath :=
  FileSystem.resolve_of_noLink hroot hlink (isStrictRelativePath_components h.strict).2 h.resolve

/-! ### The verified bundle -/

/-- An artifact of a verified bundle: the file at its path has the declared size and digest, and the
snapshot has its bytes. -/
structure VerifiedArtifact (machine : Machine) (root : List Bytes) (request : ArtifactRequest)
    (artifact : VerifiedBundleArtifact) : Prop where
  file : ∃ file, machine.fs.entry (root ++ pathComponents request.relativePath) =
      some (.regular file) ∧
    file.contents.length = request.expectedSizeBytes.toNat ∧
    hexDigest (machine.sha256 file.contents) = request.expectedSha256 ∧
    artifact.snapshot = file.contents
  canonicalPath : artifact.canonicalPath = root ++ pathComponents request.relativePath
  declared : artifact.kind = request.kind ∧ artifact.logicalName = request.logicalName ∧
    artifact.manifestPointer = request.pathPointer ∧
    artifact.relativePath = request.relativePath ∧ artifact.sha256 = request.expectedSha256 ∧
    artifact.sizeBytes = request.expectedSizeBytes

/-- The paths that a bundle declares: its manifest and its artifacts. -/
def declaredPaths (manifestRelativePath : Bytes) (manifest : BundleManifest) : List Bytes :=
  manifestRelativePath :: (collectArtifacts manifest).map ArtifactRequest.relativePath

/-- A bundle that is exactly what its manifest declares. -/
structure VerifiedBundle (machine : Machine) (canonicalRoot : List Bytes)
    (manifestRelativePath : Bytes)
    (manifestSha256 : Bytes) (manifest : BundleManifest) (artifacts : List VerifiedBundleArtifact)
    (digestPresent : Bool) : Prop where
  root : machine.fs.entry canonicalRoot = some .directory
  inventory : ExactInventory machine.fs canonicalRoot (declaredPaths manifestRelativePath manifest)
    (manifestDigestTransportPath manifestRelativePath) digestPresent
  strict : ∀ path ∈ declaredPaths manifestRelativePath manifest, isStrictRelativePath path = true
  artifacts : List.Forall₂ (VerifiedArtifact machine canonicalRoot)
    (collectArtifacts manifest) artifacts
  transport : digestPresent = true → ∃ file,
    machine.fs.entry (canonicalRoot ++
      pathComponents (manifestDigestTransportPath manifestRelativePath)) =
      some (.regular file) ∧
    file.contents = manifestSha256 ++ utf8 "  " ++
      genericString (pathComponents manifestRelativePath) ++ utf8 "\n"
  budget : declaredBytes (collectArtifacts manifest) = manifest.maximumBundleSnapshotBytes.toNat
  limit : manifest.maximumBundleSnapshotBytes ≤ maximumBundleSnapshotBytes
  /-- What the loop over the sizes has after each of its passes is the exact sum. -/
  partialSums : ∀ count, ∃ total,
    ((collectArtifacts manifest).take count).foldlM addDeclaredSize 0 = .ok total ∧
      total.toNat = declaredBytes ((collectArtifacts manifest).take count) ∧
      total ≤ maximumBundleSnapshotBytes
  within : ∀ path resolved, isStrictRelativePath path = true →
    machine.fs.resolve [] (canonicalRoot ++ pathComponents path) = .ok resolved →
    isWithinRoot canonicalRoot resolved = true

/-- A strict path stays below the root, read as a text and as it is opened. -/
theorem isWithinRoot_of_strict {relativePath : Bytes} (root : List Bytes)
    (h : isStrictRelativePath relativePath = true) :
    isWithinRoot root (root ++ pathComponents relativePath) = true :=
  isWithinRoot_iff.mpr ⟨_, (isStrictRelativePath_components h).1, rfl⟩

theorem partialSums_of_ok {requests : List ArtifactRequest} {total : UInt64}
    (h : requests.foldlM addDeclaredSize 0 = .ok total) (count : ℕ) :
    ∃ total, (requests.take count).foldlM addDeclaredSize 0 = .ok total ∧
      total.toNat = declaredBytes (requests.take count) ∧ total ≤ maximumBundleSnapshotBytes := by
  rw [← List.take_append_drop count requests, List.foldlM_append, bind_eq_ok_iff] at h
  obtain ⟨part, hpart, -⟩ := h
  obtain ⟨hsum, hle⟩ := foldlM_addDeclaredSize_ok UInt64.zero_le hpart
  exact ⟨part, hpart, by rw [hsum, UInt64.toNat_zero, Nat.zero_add], hle⟩

/-- The digest file, when there is one. -/
theorem verifyManifestDigestTransport_ok {inventory : VerifiedBundleInventory}
    {manifestRelativePath manifestSha256 : Bytes}
    (h : verifyManifestDigestTransport machine canonicalRoot inventory manifestRelativePath
      manifestSha256 = .ok ())
    (hpresent : inventory.manifestDigestTransportPresent = true) :
    ∃ file, Opened machine canonicalRoot inventory.manifestDigestTransportPath file ∧
      file.contents = manifestSha256 ++ utf8 "  " ++
        genericString (pathComponents manifestRelativePath) ++ utf8 "\n" := by
  rw [verifyManifestDigestTransport, if_neg (by rw [hpresent]; exact Bool.noConfusion)] at h
  simp only [bind_eq_ok_iff, require_eq_ok_iff] at h
  obtain ⟨file, hopen, snapshot, hsnapshot, actual, hactual, htext⟩ := h
  refine ⟨file, openRegularBundleFile_ok hopen, ?_⟩
  rw [← htext, readCompleteFile_ok hactual, (snapshotAndSha256File_ok hsnapshot).1]

theorem exists_of_forall₂ {α β : Type} {R : α → β → Prop} {left : List α} {right : List β}
    (h : List.Forall₂ R left right) {a : α} (ha : a ∈ left) : ∃ b ∈ right, R a b := by
  induction h with
  | nil => cases ha
  | cons hhead htail ih =>
    rcases List.mem_cons.mp ha with rfl | ha
    · exact ⟨_, List.mem_cons_self, hhead⟩
    · obtain ⟨b, hb, hab⟩ := ih ha
      exact ⟨b, List.mem_cons_of_mem _ hb, hab⟩

/-- What the verifier accepts is exactly what the manifest declares. -/
theorem verifyRuntimeBundleFilesAtCanonicalRoot_ok {manifest : BundleManifest}
    {manifestRelativePath manifestSha256 : Bytes} {artifacts : List VerifiedBundleArtifact}
    (hroot : machine.fs.entry canonicalRoot = some .directory)
    (h : verifyRuntimeBundleFilesAtCanonicalRoot machine canonicalRoot manifest
      manifestRelativePath manifestSha256 = .ok artifacts) :
    ∃ digestPresent, VerifiedBundle machine canonicalRoot manifestRelativePath manifestSha256
      manifest artifacts digestPresent := by
  rw [verifyRuntimeBundleFilesAtCanonicalRoot] at h
  simp only [bind_eq_ok_iff] at h
  obtain ⟨total, hsizes, ⟨⟩, hlimit, ⟨⟩, hbudget, state, hstate, inventory, hinventory, ⟨⟩,
    htransport, h⟩ := h
  cases h
  rw [require_eq_ok_iff] at hlimit hbudget
  obtain ⟨artifacts, hverified, hpasses⟩ := foldlM_verifyRequest_ok hstate
  rw [List.nil_append] at hverified
  have hrequests : ∀ request ∈ collectArtifacts manifest,
      isStrictRelativePath request.relativePath = true := by
    intro request hrequest
    obtain ⟨artifact, -, file, hpass⟩ := exists_of_forall₂ hpasses hrequest
    exact hpass.opened.strict
  have hpath := verifyExactBundleInventory_path hinventory
  have hdigest := fun hpresent => verifyManifestDigestTransport_ok htransport hpresent
  rw [hpath] at hdigest
  obtain ⟨hmanifest, hexact⟩ := verifyExactBundleInventory_ok hroot hrequests
    (fun hpresent => let ⟨_, hopened, _⟩ := hdigest hpresent; hopened.strict) hinventory
  have hlink := hexact.noLink
  refine ⟨inventory.manifestDigestTransportPresent, hroot, hexact, ?_, ?_, fun hpresent => ?_, ?_,
    hlimit, partialSums_of_ok hsizes, fun path resolved hstrict hresolve => ?_⟩
  · refine List.forall_mem_cons.mpr ⟨hmanifest, fun path hmem => ?_⟩
    obtain ⟨request, hrequest, rfl⟩ := List.mem_map.mp hmem
    exact hrequests request hrequest
  · rw [hverified]
    refine hpasses.imp fun request artifact => ?_
    rintro ⟨file, hopened, hsize, hhash, rfl⟩
    obtain ⟨regular, hentry, hcontents, -⟩ := hopened.regular
    rw [hopened.canonicalPath_eq hroot hlink] at hentry
    refine ⟨⟨regular, hentry, ?_⟩, hopened.canonicalPath_eq hroot hlink,
      rfl, rfl, rfl, rfl, rfl, rfl⟩
    rw [hcontents]
    exact ⟨hsize, hhash, rfl⟩
  · obtain ⟨file, hopened, htext⟩ := hdigest hpresent
    obtain ⟨regular, hentry, hcontents, -⟩ := hopened.regular
    rw [hopened.canonicalPath_eq hroot hlink] at hentry
    exact ⟨regular, hentry, hcontents.trans htext⟩
  · have hsum := (foldlM_addDeclaredSize_ok UInt64.zero_le hsizes).1
    rw [hbudget, UInt64.toNat_zero, Nat.zero_add] at hsum
    exact hsum.symm
  · obtain ⟨hne, hnames⟩ := isStrictRelativePath_components hstrict
    rw [FileSystem.resolve_of_noLink hroot hlink hnames hresolve]
    exact isWithinRoot_of_strict _ hstrict

/-- A call of the parser or of the verifier inside `load_and_verify_runtime_bundle`. -/
theorem mapError_eq_ok_iff {ε ε' α : Type} {f : ε → ε'} {x : Except ε α} {value : α} :
    x.mapError f = .ok value ↔ x = .ok value := by
  cases x with
  | error => exact ⟨nofun, nofun⟩
  | ok result => exact ⟨fun h => by cases h; rfl, fun h => by cases h; rfl⟩

/-- The manifest of a bundle that is loaded: the snapshot of the file at its path, with the trusted
digest, from which the manifest is parsed. -/
structure LoadedManifest (machine : Machine)
    (parseRuntimeBundleManifest : Bytes → Except ManifestError BundleManifest)
    (manifestRelativePath expectedManifestSha256 : Bytes) (bundle : VerifiedRuntimeBundle) :
    Prop where
  file : ∃ file,
    machine.fs.entry (bundle.canonicalRoot ++ pathComponents manifestRelativePath) =
      some (.regular file) ∧
    hexDigest (machine.sha256 file.contents) = expectedManifestSha256 ∧
    parseRuntimeBundleManifest file.contents = .ok bundle.manifest ∧
    bundle.manifestSnapshot.snapshot = file.contents
  path : bundle.canonicalManifestPath = bundle.canonicalRoot ++ pathComponents manifestRelativePath

/-- The bundle that `load_and_verify_runtime_bundle` returns. -/
theorem loadAndVerifyRuntimeBundle_ok
    {parseRuntimeBundleManifest : Bytes → Except ManifestError BundleManifest}
    {bundleRoot manifestRelativePath expectedManifestSha256 : Bytes}
    {bundle : VerifiedRuntimeBundle}
    (h : loadAndVerifyRuntimeBundle machine parseRuntimeBundleManifest bundleRoot
      manifestRelativePath expectedManifestSha256 = .ok bundle) :
    canonicalBundleRoot machine bundleRoot = .ok bundle.canonicalRoot ∧
      (∃ digestPresent, VerifiedBundle machine bundle.canonicalRoot manifestRelativePath
        expectedManifestSha256 bundle.manifest bundle.artifacts digestPresent) ∧
      LoadedManifest machine parseRuntimeBundleManifest manifestRelativePath
        expectedManifestSha256 bundle := by
  rw [loadAndVerifyRuntimeBundle] at h
  simp only [bind_eq_ok_iff, mapError_eq_ok_iff] at h
  obtain ⟨⟨⟩, -, root, hroot, file, hopen, hash, hhash, ⟨⟩, hdigest, contents, hcontents, manifest,
    hparse, ⟨⟩, -, artifacts, hartifacts, h⟩ := h
  cases h
  rw [require_eq_ok_iff] at hdigest
  have hdirectory := canonicalBundleRoot_ok hroot
  have hopened := openRegularBundleFile_ok hopen
  obtain ⟨hsnapshot, -, hsha⟩ := snapshotAndSha256File_ok hhash
  rw [hdigest] at hartifacts hsha
  obtain ⟨digestPresent, hverified⟩ :=
    verifyRuntimeBundleFilesAtCanonicalRoot_ok hdirectory hartifacts
  have hpath := hopened.canonicalPath_eq hdirectory hverified.inventory.noLink
  obtain ⟨regular, hentry, hregular, -⟩ := hopened.regular
  rw [hpath] at hentry
  refine ⟨hroot, ⟨digestPresent, hverified⟩, ⟨regular, hentry, ?_, ?_, ?_⟩, hpath⟩
  · rw [hregular, hsha]
  · rw [hregular, ← hsnapshot, ← readCompleteFile_ok hcontents, hparse]
  · rw [hregular, hsnapshot]

/-- A file of the example, with the bytes of the text `abc`. -/
def exampleFile (inode : ℕ) : FileEntry := .regular ⟨8, inode, 3, utf8 "abc"⟩

/-- The digest record of the example. -/
def exampleRecord : Bytes :=
  utf8 "ba7816bf8f01cfea414140de5dae2223b00361a396177a9cb410ff61f20015ad" ++
    utf8 "  runtime-bundle-manifest.json\n"

/-- The directory `/b` with a manifest, seven artifacts and a digest file. -/
def exampleEntries : List (List Bytes × FileEntry) :=
  [([utf8 "b"], .directory),
    ([utf8 "b", utf8 "runtime-bundle-manifest.json"], exampleFile 1),
    ([utf8 "b", utf8 "runtime-bundle-manifest.json.sha256"], .regular ⟨8, 9, 95, exampleRecord⟩),
    ([utf8 "b", utf8 "receipts"], .directory),
    ([utf8 "b", utf8 "receipts", utf8 "model"], exampleFile 2),
    ([utf8 "b", utf8 "receipts", utf8 "export"], exampleFile 3),
    ([utf8 "b", utf8 "receipts", utf8 "tokenizer"], exampleFile 4),
    ([utf8 "b", utf8 "plugin.so"], exampleFile 5),
    ([utf8 "b", utf8 "receipts", utf8 "plugin"], exampleFile 6),
    ([utf8 "b", utf8 "fixture"], exampleFile 7),
    ([utf8 "b", utf8 "receipts", utf8 "golden"], exampleFile 8)]

/-- The SHA-256 of the text `abc`. -/
def sha256Abc : Bytes :=
  [0xba, 0x78, 0x16, 0xbf, 0x8f, 0x01, 0xcf, 0xea, 0x41, 0x41, 0x40, 0xde, 0x5d, 0xae, 0x22, 0x23,
    0xb0, 0x03, 0x61, 0xa3, 0x96, 0x17, 0x7a, 0x9c, 0xb4, 0x10, 0xff, 0x61, 0xf2, 0x00, 0x15, 0xad]

/-- The SHA-256 of the digest record. -/
def sha256Record : Bytes :=
  [0x65, 0xf2, 0x8e, 0xdd, 0x5c, 0x93, 0x5e, 0xee, 0x60, 0x64, 0xea, 0x3e, 0xea, 0x8a, 0xce, 0xf2,
    0x6a, 0xb5, 0x5e, 0xa8, 0xd5, 0x78, 0xc5, 0x45, 0xb7, 0x93, 0x10, 0xf1, 0xd7, 0xec, 0x0c, 0x0a]

/-- A machine on which no call fails, and a read returns one byte. -/
def exampleMachine : Machine where
  fs := .ofEntries exampleEntries (by decide +kernel)
  currentDirectory := []
  currentDirectory_entry := rfl
  failure _ _ := none
  readChunks _ contents := contents.map fun byte => [byte]
  flatten_readChunks _ contents := by rw [← List.flatMap_def, List.flatMap_singleton']
  length_readChunks _ contents chunk hchunk := by
    obtain ⟨byte, -, rfl⟩ := List.mem_map.mp hchunk
    rw [List.length_singleton]
    omega
  sha256 contents := if contents = exampleRecord then sha256Record else sha256Abc
  maximumStringSize := 2 ^ 62

/-- An artifact of the example. -/
def exampleArtifact (path : String) : FileArtifact := ⟨utf8 path, hexDigest sha256Abc, 3⟩

def exampleManifest : BundleManifest where
  modelId := []
  acceptanceReceipt := exampleArtifact "receipts/model"
  exportFormat := []
  exportReceipt := exampleArtifact "receipts/export"
  tokenizerKind := []
  identityReceipt := exampleArtifact "receipts/tokenizer"
  pluginName := []
  pluginFile := exampleArtifact "plugin.so"
  pluginBuildReceipt := exampleArtifact "receipts/plugin"
  licenses := []
  engines := []
  goldenFixture := exampleArtifact "fixture"
  goldenReceipt := exampleArtifact "receipts/golden"
  maximumBundleSnapshotBytes := 21

end MagpieTts.Bundle
