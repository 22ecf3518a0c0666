import MagpieTts.Bundle.BundleFiles
import Mathlib.Data.Finset.Basic

/-!
# The inventory of a bundle

The verifier compares the entries below the bundle root with the files that the manifest declares:
it collects the texts of the declared paths and of their parent directories, walks over the file
system below the root, and requires both sets to be the same, up to the digest file that may
accompany the manifest.

## Main definitions

* `BundleManifest`, `collectArtifacts`: the part of the manifest that the verifier reads, and the
  artifacts it declares.
* `verifyExactBundleInventory`: the comparison.
* `ExactInventory`: what it establishes, on paths instead of texts.

## Main results

* `visitEntries_ok`: what the walk over the file system collects.
* `verifyExactBundleInventory_ok`: the inventory is exact.
-/

namespace MagpieTts.Bundle

open Library

/-! ### The declared artifacts -/

/-- A file of the manifest. -/
structure FileArtifact where
  path : Bytes
  sha256 : Bytes
  sizeBytes : UInt64

structure LicenseArtifact where
  role : Bytes
  file : FileArtifact

structure EngineArtifact where
  name : Bytes
  file : FileArtifact

/-- The part of `RuntimeBundleManifest` that the verifier reads. -/
structure BundleManifest where
  /-- `artifacts.source_model`. -/
  modelId : Bytes
  acceptanceReceipt : FileArtifact
  /-- `artifacts.export_artifact`. -/
  exportFormat : Bytes
  exportReceipt : FileArtifact
  /-- `artifacts.tokenizer`. -/
  tokenizerKind : Bytes
  identityReceipt : FileArtifact
  /-- `artifacts.plugin`. -/
  pluginName : Bytes
  pluginFile : FileArtifact
  pluginBuildReceipt : FileArtifact
  licenses : List LicenseArtifact
  engines : List EngineArtifact
  goldenFixture : FileArtifact
  goldenReceipt : FileArtifact
  /-- `limits.maximum_bundle_snapshot_bytes`. -/
  maximumBundleSnapshotBytes : UInt64

structure ArtifactRequest where
  kind : BundleArtifactKind
  logicalName : Bytes
  relativePath : Bytes
  expectedSha256 : Bytes
  expectedSizeBytes : UInt64
  pathPointer : Bytes
  hashPointer : Bytes
  sizePointer : Bytes

/-- The request for a file whose fields stand below `pointer` in the manifest. -/
def artifactRequest (kind : BundleArtifactKind) (logicalName : Bytes) (file : FileArtifact)
    (pointer : Bytes) : ArtifactRequest where
  kind := kind
  logicalName := logicalName
  relativePath := file.path
  expectedSha256 := file.sha256
  expectedSizeBytes := file.sizeBytes
  pathPointer := pointer ++ utf8 "/path"
  hashPointer := pointer ++ utf8 "/sha256"
  sizePointer := pointer ++ utf8 "/size_bytes"

/-- The pointer to the file of an element of a list. -/
def elementPointer (list : String) (index : ℕ) : Bytes :=
  utf8 list ++ utf8 (toString index) ++ utf8 "/file"

/-- `collect_artifacts`. -/
def collectArtifacts (manifest : BundleManifest) : List ArtifactRequest :=
  [artifactRequest .sourceModelReceipt manifest.modelId manifest.acceptanceReceipt
      (utf8 "/artifacts/source_model/acceptance_receipt"),
    artifactRequest .exportReceipt manifest.exportFormat manifest.exportReceipt
      (utf8 "/artifacts/export/export_receipt"),
    artifactRequest .tokenizerIdentityReceipt manifest.tokenizerKind manifest.identityReceipt
      (utf8 "/artifacts/tokenizer/identity_receipt"),
    artifactRequest .plugin manifest.pluginName manifest.pluginFile
      (utf8 "/artifacts/plugin/file"),
    artifactRequest .pluginBuildReceipt manifest.pluginName manifest.pluginBuildReceipt
      (utf8 "/artifacts/plugin/build_receipt")] ++
  manifest.licenses.mapIdx (fun index license =>
    artifactRequest .license license.role license.file (elementPointer "/licenses/" index)) ++
  manifest.engines.mapIdx (fun index engine =>
    artifactRequest .engine engine.name engine.file (elementPointer "/engines/" index)) ++
  [artifactRequest .goldenFixture (utf8 "golden_fixture") manifest.goldenFixture
      (utf8 "/golden_fixture"),
    artifactRequest .goldenReceipt (utf8 "golden_receipt") manifest.goldenReceipt
      (utf8 "/golden_receipt")]

/-! ### The expected entries -/

/-- `kRuntimeBundleManifestDigestSuffix`. -/
def runtimeBundleManifestDigestSuffix : Bytes := utf8 ".sha256"

/-- `manifest_digest_transport_path`. -/
def manifestDigestTransportPath (manifestRelativePath : Bytes) : Bytes :=
  manifestRelativePath ++ runtimeBundleManifestDigestSuffix

/-- The loop of `add_parent_directories`, on the reversed components of the parent path. -/
def addParentDirectories : List Bytes → Finset Bytes → Finset Bytes
  | [], directories => directories
  | name :: above, directories =>
    addParentDirectories above (insert (genericString (name :: above).reverse) directories)

/-- `expected_files` and `expected_directories`. -/
structure ExpectedEntries where
  files : Finset Bytes
  directories : Finset Bytes

/-- The parent directories of a path. -/
def ExpectedEntries.addParents (expected : ExpectedEntries) (relativePath : Bytes) :
    ExpectedEntries :=
  { expected with
    directories := addParentDirectories (pathComponents relativePath).dropLast.reverse
      expected.directories }

/-- `add_expected_file`, of a path and the manifest field that declares it. -/
def addExpectedFile (expected : ExpectedEntries) (declared : Bytes × Bytes) :
    Except BundleError ExpectedEntries := do
  let key := genericString (pathComponents declared.1)
  require (key ∉ expected.files)
    ⟨.artifactPath, .duplicateCanonicalPath, declared.1, declared.2,
      utf8 "bundle entry path is already assigned to another role"⟩
  return ExpectedEntries.addParents ⟨insert key expected.files, expected.directories⟩ declared.1

/-! ### The entries of the file system -/

/-- `actual_files`, `actual_directories` and `digest_present`. -/
structure ActualEntries where
  files : Finset Bytes
  directories : Finset Bytes
  digestPresent : Bool

/-- The status of an entry that the iterator has found. -/
def symlinkStatus (fs : FileSystem) (path : List Bytes) : Except ErrorNumber FileEntry :=
  match fs.entry path with
  | none => .error .noSuchFile
  | some entry => .ok entry

/-- What the loop does with an entry. -/
def classifyEntry (expected : ExpectedEntries) (digestKey : Bytes) (actual : ActualEntries)
    (path relative : Bytes) : FileEntry → Except BundleError ActualEntries
  | .symlink _ => .error
    ⟨.artifactPath, .unexpectedEntry, path, utf8 "/",
      utf8 "bundle entry inventory forbids symbolic links: " ++ relative⟩
  | .directory => do
    require (relative ∈ expected.directories)
      ⟨.artifactPath, .unexpectedEntry, path, utf8 "/",
        utf8 "bundle contains an unlisted directory: " ++ relative⟩
    return { actual with directories := insert relative actual.directories }
  | .regular _ => do
    require (relative = digestKey ∨ relative ∈ expected.files)
      ⟨.artifactPath, .unexpectedEntry, path, utf8 "/",
        utf8 "bundle contains an unlisted regular file: " ++ relative⟩
    return { actual with
      files := insert relative actual.files
      digestPresent := actual.digestPresent || relative = digestKey }
  | .special => .error
    ⟨.artifactPath, .unexpectedEntry, path, utf8 "/",
      utf8 "bundle contains an unlisted special entry: " ++ relative⟩

/-- One pass of the loop over the entries below the root. -/
def visitEntry (machine : Machine) (canonicalRoot : List Bytes) (expected : ExpectedEntries)
    (digestKey : Bytes) (actual : ActualEntries) (rest : List Bytes) :
    Except BundleError ActualEntries := do
  let path := absoluteString (canonicalRoot ++ rest)
  let status ← machine.attempt .symlinkStatus path
    (symlinkStatus machine.fs (canonicalRoot ++ rest))
    fun error =>
      ⟨.artifactPath, .ioError, path, utf8 "/",
        utf8 "unable to inspect bundle entry: " ++ errorMessage error⟩
  let next ← classifyEntry expected digestKey actual path (genericString rest) status
  machine.attempt .increment path (.ok ()) fun error =>
    ⟨.artifactPath, .ioError, absoluteString canonicalRoot, utf8 "/",
      utf8 "bundle enumeration failed: " ++ errorMessage error⟩
  return next

structure VerifiedBundleInventory where
  manifestDigestTransportPresent : Bool
  manifestDigestTransportPath : Bytes

/-- `verify_exact_bundle_inventory`. -/
def verifyExactBundleInventory (machine : Machine) (canonicalRoot : List Bytes)
    (manifestRelativePath : Bytes) (requests : List ArtifactRequest) :
    Except BundleError VerifiedBundleInventory := do
  require (isStrictRelativePath manifestRelativePath = true)
    ⟨.manifestFile, .invalidRelativePath, manifestRelativePath, utf8 "/",
      utf8 "manifest path must be a strict relative path"⟩
  let declared ← ((manifestRelativePath, utf8 "/") ::
    requests.map fun request => (request.relativePath, request.pathPointer)).foldlM
      addExpectedFile ⟨∅, ∅⟩
  let digestRelativePath := manifestDigestTransportPath manifestRelativePath
  let digestKey := genericString (pathComponents digestRelativePath)
  require (digestKey ∉ declared.files)
    ⟨.artifactPath, .duplicateCanonicalPath, digestRelativePath, utf8 "/",
      utf8 "manifest digest transport path collides with an authenticated artifact"⟩
  let expected := declared.addParents digestRelativePath
  machine.attempt .enumerate (absoluteString canonicalRoot) (.ok ()) fun error =>
    ⟨.artifactPath, .ioError, absoluteString canonicalRoot, utf8 "/",
      utf8 "unable to enumerate bundle root: " ++ errorMessage error⟩
  let actual ← (machine.fs.listing canonicalRoot).foldlM
    (visitEntry machine canonicalRoot expected digestKey) ⟨∅, ∅, false⟩
  require (¬ (actual.files.erase digestKey ≠ expected.files ∨
      actual.directories ≠ expected.directories))
    ⟨.artifactPath, .unexpectedEntry, absoluteString canonicalRoot, utf8 "/",
      utf8 ("bundle entry inventory differs from the manifest-declared file and " ++
        "parent-directory set")⟩
  return ⟨actual.digestPresent, digestRelativePath⟩

/-! ### What the loops collect -/

theorem mem_addParentDirectories {components : List Bytes} {directories : Finset Bytes}
    {text : Bytes} :
    text ∈ addParentDirectories components.reverse directories ↔
      text ∈ directories ∨ ∃ p, p ≠ [] ∧ p <+: components ∧ text = genericString p := by
  induction components using List.reverseRecOn generalizing directories with
  | nil =>
    rw [List.reverse_nil, addParentDirectories]
    refine ⟨Or.inl, ?_⟩
    rintro (h | ⟨p, hne, hp, -⟩)
    · exact h
    · exact absurd (List.prefix_nil.mp hp) hne
  | append_singleton components name ih =>
    rw [List.reverse_append, List.reverse_singleton, List.singleton_append, addParentDirectories,
      ih, List.reverse_cons, List.reverse_reverse, Finset.mem_insert]
    constructor
    · rintro ((rfl | h) | ⟨p, hne, hp, rfl⟩)
      · exact Or.inr ⟨_, List.concat_ne_nil _ _, List.prefix_rfl, rfl⟩
      · exact Or.inl h
      · exact Or.inr ⟨p, hne, hp.trans (List.prefix_append _ _), rfl⟩
    · rintro (h | ⟨p, hne, hp, rfl⟩)
      · exact Or.inl (Or.inr h)
      · rcases List.prefix_concat_iff.mp hp with rfl | hp
        · exact Or.inl (Or.inl rfl)
        · exact Or.inr ⟨p, hne, hp, rfl⟩

/-- What the loop over the declared paths adds. -/
structure Expects (declared : List Bytes) (expected expected' : ExpectedEntries) : Prop where
  files : ∀ text, text ∈ expected'.files ↔
    text ∈ expected.files ∨ ∃ path ∈ declared, text = genericString (pathComponents path)
  directories : ∀ text, text ∈ expected'.directories ↔ text ∈ expected.directories ∨
    ∃ path ∈ declared, ∃ p, p ≠ [] ∧ p <+: (pathComponents path).dropLast ∧ text = genericString p
  fresh : ∀ path ∈ declared, genericString (pathComponents path) ∉ expected.files
  nodup : (declared.map pathComponents).Nodup

theorem foldlM_addExpectedFile_ok {declared : List (Bytes × Bytes)}
    {expected expected' : ExpectedEntries}
    (h : declared.foldlM addExpectedFile expected = .ok expected') :
    Expects (declared.map Prod.fst) expected expected' := by
  induction declared generalizing expected with
  | nil =>
    cases h
    exact ⟨by simp, by simp, nofun, List.nodup_nil⟩
  | cons first declared ih =>
    obtain ⟨next, hnext, h⟩ := bind_eq_ok_iff.mp h
    obtain ⟨hkey, hnext⟩ := bind_unit_eq_ok_iff.mp hnext
    rw [require_eq_ok_iff] at hkey
    cases hnext
    obtain ⟨hfiles, hdirectories, hfresh, hnodup⟩ := ih h
    simp only [ExpectedEntries.addParents, Finset.mem_insert, mem_addParentDirectories]
      at hfiles hdirectories hfresh
    rw [List.map_cons]
    refine ⟨fun text => ?_, fun text => ?_, ?_, ?_⟩
    · rw [hfiles, List.exists_mem_cons_iff, or_assoc, or_left_comm]
    · rw [hdirectories, List.exists_mem_cons_iff, or_assoc]
    · refine List.forall_mem_cons.mpr ⟨hkey, fun path hpath hmem => ?_⟩
      exact hfresh path hpath (Or.inr hmem)
    · refine List.nodup_cons.mpr ⟨fun hmem => ?_, hnodup⟩
      obtain ⟨path, hpath, heq⟩ := List.mem_map.mp hmem
      exact hfresh path hpath (Or.inl (congrArg genericString heq))

/-- There is a regular file at a path. -/
def IsRegular (fs : FileSystem) (path : List Bytes) : Prop :=
  ∃ file, fs.entry path = some (.regular file)

/-- What the loop over entries below the root collects. -/
structure Visits (fs : FileSystem) (root : List Bytes) (digestKey : Bytes)
    (visited : List (List Bytes)) (actual actual' : ActualEntries) : Prop where
  files : ∀ text, text ∈ actual'.files ↔ text ∈ actual.files ∨
    ∃ rest ∈ visited, IsRegular fs (root ++ rest) ∧ text = genericString rest
  directories : ∀ text, text ∈ actual'.directories ↔ text ∈ actual.directories ∨
    ∃ rest ∈ visited, fs.entry (root ++ rest) = some .directory ∧ text = genericString rest
  digest : actual'.digestPresent = true ↔ actual.digestPresent = true ∨
    ∃ rest ∈ visited, IsRegular fs (root ++ rest) ∧ digestKey = genericString rest
  plain : ∀ rest ∈ visited,
    fs.entry (root ++ rest) = some .directory ∨ IsRegular fs (root ++ rest)

variable {machine : Machine} {canonicalRoot : List Bytes} {digestKey : Bytes}
  {actual actual' : ActualEntries}

theorem visitEntry_ok {expected : ExpectedEntries} {rest : List Bytes}
    (h : visitEntry machine canonicalRoot expected digestKey actual rest = .ok actual') :
    Visits machine.fs canonicalRoot digestKey [rest] actual actual' := by
  obtain ⟨status, hstatus, h⟩ := bind_eq_ok_iff.mp h
  obtain ⟨next, hnext, h⟩ := bind_eq_ok_iff.mp h
  obtain ⟨-, h⟩ := bind_unit_eq_ok_iff.mp h
  cases h
  have hentry : machine.fs.entry (canonicalRoot ++ rest) = some status := by
    have hstatus := machine.attempt_ok hstatus
    rw [symlinkStatus] at hstatus
    split at hstatus
    · cases hstatus
    · cases hstatus
      assumption
  cases status with
  | symlink | special => cases hnext
  | directory =>
    obtain ⟨-, hnext⟩ := bind_unit_eq_ok_iff.mp hnext
    cases hnext
    have hregular : ¬ IsRegular machine.fs (canonicalRoot ++ rest) := by
      rintro ⟨file, hfile⟩
      rw [hentry] at hfile
      cases hfile
    constructor <;> simp [hentry, hregular, or_comm]
  | regular file =>
    obtain ⟨-, hnext⟩ := bind_unit_eq_ok_iff.mp hnext
    cases hnext
    have hregular : IsRegular machine.fs (canonicalRoot ++ rest) := ⟨file, hentry⟩
    refine ⟨fun text => ?_, fun text => ?_, ?_, ?_⟩
    · simp [hregular, or_comm]
    · simp [hentry]
    · simp only [hregular, List.mem_singleton, exists_eq_left, Bool.or_eq_true, decide_eq_true_iff,
        true_and]
      rw [@eq_comm _ digestKey]
    · simp [hregular]

theorem Visits.cons {fs : FileSystem} {rest : List Bytes} {visited : List (List Bytes)}
    {actual'' : ActualEntries} (h : Visits fs canonicalRoot digestKey [rest] actual actual')
    (h' : Visits fs canonicalRoot digestKey visited actual' actual'') :
    Visits fs canonicalRoot digestKey (rest :: visited) actual actual'' where
  files := fun text => by
    rw [h'.files, h.files, List.exists_mem_cons_iff, or_assoc]
    simp
  directories := fun text => by
    rw [h'.directories, h.directories, List.exists_mem_cons_iff, or_assoc]
    simp
  digest := by
    rw [h'.digest, h.digest, List.exists_mem_cons_iff, or_assoc]
    simp
  plain := List.forall_mem_cons.mpr ⟨h.plain rest (List.mem_singleton_self _), h'.plain⟩

/-- The walk over the entries, by induction on them. -/
theorem visitEntries_ok {expected : ExpectedEntries} {visited : List (List Bytes)}
    (h : visited.foldlM (visitEntry machine canonicalRoot expected digestKey) actual =
      .ok actual') : Visits machine.fs canonicalRoot digestKey visited actual actual' := by
  induction visited generalizing actual with
  | nil =>
    cases h
    exact ⟨by simp, by simp, by simp, nofun⟩
  | cons rest visited ih =>
    obtain ⟨next, hnext, h⟩ := bind_eq_ok_iff.mp h
    exact (visitEntry_ok hnext).cons (ih h)

/-! ### The exact inventory -/

/-- The entries below the root are the declared files, perhaps the digest file, and their parent
directories. -/
structure ExactInventory (fs : FileSystem) (root : List Bytes) (declared : List Bytes)
    (digestPath : Bytes) (digestPresent : Bool) : Prop where
  regular : ∀ rest, IsRegular fs (root ++ rest) ↔
    (∃ path ∈ declared, rest = pathComponents path) ∨
      digestPresent = true ∧ rest = pathComponents digestPath
  directory : ∀ rest, rest ≠ [] → (fs.entry (root ++ rest) = some .directory ↔
    ∃ file, IsRegular fs (root ++ file) ∧ rest <+: file ∧ rest ≠ file)
  plain : ∀ rest e, fs.entry (root ++ rest) = some e →
    e = .directory ∨ ∃ file, e = .regular file
  nodup : (declared.map pathComponents).Nodup
  digest : pathComponents digestPath ∉ declared.map pathComponents

theorem ExactInventory.noLink {fs : FileSystem} {root declared : List Bytes} {digestPath : Bytes}
    {digestPresent : Bool} (h : ExactInventory fs root declared digestPath digestPresent) :
    fs.NoLink root := by
  intro rest target hentry
  rcases h.plain rest _ hentry with hlink | ⟨file, hlink⟩ <;> cases hlink

/-- Two paths below the root are the same when their texts are. -/
theorem eq_of_genericString_eq {fs : FileSystem} {root rest components : List Bytes} {e : FileEntry}
    (hentry : fs.entry (root ++ rest) = some e) (hrest : rest ≠ []) (hne : components ≠ [])
    (hnames : ∀ c ∈ components, IsName c) (h : genericString rest = genericString components) :
    rest = components :=
  genericString_injective (fun c hc => fs.isName _ _ hentry c (List.mem_append_right _ hc)) hnames
    hrest hne h

theorem mem_listing_iff {rest : List Bytes} {e : FileEntry} (hrest : rest ≠ [])
    (h : machine.fs.entry (canonicalRoot ++ rest) = some e) :
    rest ∈ machine.fs.listing canonicalRoot :=
  (machine.fs.mem_listing _ _).mpr ⟨hrest, e, h⟩

section Comparison

variable {declared : List Bytes} {expected : ExpectedEntries} {manifestRelativePath : Bytes}

/-- The paths that the comparison relates have names of entries as components. -/
def HasNames (path : Bytes) : Prop :=
  pathComponents path ≠ [] ∧ ∀ c ∈ pathComponents path, IsName c

/-- The comparison of the texts of files, read as a comparison of paths. -/
theorem regular_iff_declared (hroot : machine.fs.entry canonicalRoot = some .directory)
    (hnames : ∀ path ∈ declared, HasNames path) {digestPath : Bytes}
    (hdigest : actual.digestPresent = true → HasNames digestPath)
    (hexpects : Expects declared ⟨∅, ∅⟩ expected)
    (hvisits : Visits machine.fs canonicalRoot (genericString (pathComponents digestPath))
      (machine.fs.listing canonicalRoot) ⟨∅, ∅, false⟩ actual)
    (hfiles : actual.files.erase (genericString (pathComponents digestPath)) = expected.files)
    (rest : List Bytes) :
    IsRegular machine.fs (canonicalRoot ++ rest) ↔
      (∃ path ∈ declared, rest = pathComponents path) ∨
        actual.digestPresent = true ∧ rest = pathComponents digestPath := by
  constructor
  · rintro ⟨file, hentry⟩
    have hrest : rest ≠ [] := by
      rintro rfl
      rw [List.append_nil, hroot] at hentry
      cases hentry
    have hlisted := mem_listing_iff hrest hentry
    by_cases hkey : genericString rest = genericString (pathComponents digestPath)
    · have hpresent := hvisits.digest.mpr (Or.inr ⟨rest, hlisted, ⟨file, hentry⟩, hkey.symm⟩)
      have hcomponents := hdigest hpresent
      exact Or.inr ⟨hpresent,
        eq_of_genericString_eq hentry hrest hcomponents.1 hcomponents.2 hkey⟩
    · have hactual := (hvisits.files _).mpr (Or.inr ⟨rest, hlisted, ⟨file, hentry⟩, rfl⟩)
      have hexpected := Finset.mem_erase.mpr ⟨hkey, hactual⟩
      rw [hfiles, hexpects.files] at hexpected
      obtain ⟨path, hpath, htext⟩ := hexpected.resolve_left (Finset.notMem_empty _)
      have hcomponents := hnames path hpath
      exact Or.inl ⟨path, hpath,
        eq_of_genericString_eq hentry hrest hcomponents.1 hcomponents.2 htext⟩
  · rintro (⟨path, hpath, rfl⟩ | ⟨hpresent, rfl⟩)
    · have hexpected := (hexpects.files _).mpr (Or.inr ⟨path, hpath, rfl⟩)
      rw [← hfiles] at hexpected
      obtain ⟨rest, hlisted, hregular, htext⟩ :=
        ((hvisits.files _).mp (Finset.mem_of_mem_erase hexpected)).resolve_left
          (Finset.notMem_empty _)
      have hcomponents := hnames path hpath
      obtain ⟨hrest, e, hentry⟩ := (machine.fs.mem_listing _ _).mp hlisted
      rwa [← eq_of_genericString_eq hentry hrest hcomponents.1 hcomponents.2 htext.symm]
    · obtain ⟨rest, hlisted, hregular, htext⟩ :=
        (hvisits.digest.mp hpresent).resolve_left Bool.false_ne_true
      have hcomponents := hdigest hpresent
      obtain ⟨hrest, e, hentry⟩ := (machine.fs.mem_listing _ _).mp hlisted
      rwa [← eq_of_genericString_eq hentry hrest hcomponents.1 hcomponents.2 htext.symm]

/-- An expected directory is above a declared file: the digest file lies beside the manifest. -/
theorem mem_directories_addParents (hmanifest : manifestRelativePath ∈ declared)
    (hne : manifestRelativePath ≠ []) (hexpects : Expects declared ⟨∅, ∅⟩ expected)
    {text : Bytes}
    (h : text ∈
      (expected.addParents (manifestDigestTransportPath manifestRelativePath)).directories) :
    ∃ path ∈ declared, ∃ p, p ≠ [] ∧ p <+: (pathComponents path).dropLast ∧
      text = genericString p := by
  rcases mem_addParentDirectories.mp h with h | ⟨p, hp, hbefore, htext⟩
  · exact ((hexpects.directories _).mp h).resolve_left (Finset.notMem_empty _)
  · rw [manifestDigestTransportPath, pathComponents_append hne (by decide)] at hbefore
    exact ⟨_, hmanifest, p, hp, hbefore, htext⟩

/-- The comparison of the texts of directories, read as a comparison of paths. -/
theorem exists_regular_below (hnames : ∀ path ∈ declared, HasNames path)
    (hregular : ∀ path ∈ declared, IsRegular machine.fs (canonicalRoot ++ pathComponents path))
    (hmanifest : manifestRelativePath ∈ declared) (hne : manifestRelativePath ≠ [])
    (hexpects : Expects declared ⟨∅, ∅⟩ expected)
    (hvisits : Visits machine.fs canonicalRoot digestKey (machine.fs.listing canonicalRoot)
      ⟨∅, ∅, false⟩ actual)
    (hdirectories : actual.directories =
      (expected.addParents (manifestDigestTransportPath manifestRelativePath)).directories)
    {rest : List Bytes} (hrest : rest ≠ [])
    (hentry : machine.fs.entry (canonicalRoot ++ rest) = some .directory) :
    ∃ file, IsRegular machine.fs (canonicalRoot ++ file) ∧ rest <+: file ∧ rest ≠ file := by
  have hactual := (hvisits.directories _).mpr
    (Or.inr ⟨rest, mem_listing_iff hrest hentry, hentry, rfl⟩)
  rw [hdirectories] at hactual
  obtain ⟨path, hpath, p, hp, hbefore, htext⟩ :=
    mem_directories_addParents hmanifest hne hexpects hactual
  obtain ⟨hcomponents, hisName⟩ := hnames path hpath
  have hdropLast := List.dropLast_prefix (pathComponents path)
  have heq : rest = p := eq_of_genericString_eq hentry hrest hp
    (fun c hc => hisName c ((hbefore.trans hdropLast).subset hc)) htext
  rw [heq]
  refine ⟨_, hregular path hpath, hbefore.trans hdropLast, fun hwhole => ?_⟩
  have hlength := hbefore.length_le
  rw [hwhole, List.length_dropLast] at hlength
  have hpositive := List.length_pos_iff.mpr hcomponents
  omega

end Comparison

theorem verifyExactBundleInventory_path {manifestRelativePath : Bytes}
    {requests : List ArtifactRequest} {inventory : VerifiedBundleInventory}
    (h : verifyExactBundleInventory machine canonicalRoot manifestRelativePath requests =
      .ok inventory) :
    inventory.manifestDigestTransportPath = manifestDigestTransportPath manifestRelativePath := by
  obtain ⟨-, h⟩ := bind_unit_eq_ok_iff.mp h
  obtain ⟨declared, -, h⟩ := bind_eq_ok_iff.mp h
  obtain ⟨-, h⟩ := bind_unit_eq_ok_iff.mp h
  obtain ⟨-, h⟩ := bind_unit_eq_ok_iff.mp h
  obtain ⟨actual, -, h⟩ := bind_eq_ok_iff.mp h
  obtain ⟨-, h⟩ := bind_unit_eq_ok_iff.mp h
  cases h
  rfl

/-- **The inventory is exact.** The declared paths are known to be strict, and the path of the
digest file when it is there. -/
theorem verifyExactBundleInventory_ok {manifestRelativePath : Bytes}
    {requests : List ArtifactRequest} {inventory : VerifiedBundleInventory}
    (hroot : machine.fs.entry canonicalRoot = some .directory)
    (hrequests : ∀ request ∈ requests, isStrictRelativePath request.relativePath = true)
    (hdigest : inventory.manifestDigestTransportPresent = true →
      isStrictRelativePath (manifestDigestTransportPath manifestRelativePath) = true)
    (h : verifyExactBundleInventory machine canonicalRoot manifestRelativePath requests =
      .ok inventory) :
    isStrictRelativePath manifestRelativePath = true ∧
      ExactInventory machine.fs canonicalRoot
        (manifestRelativePath :: requests.map ArtifactRequest.relativePath)
        (manifestDigestTransportPath manifestRelativePath)
        inventory.manifestDigestTransportPresent := by
  obtain ⟨hmanifest, h⟩ := bind_unit_eq_ok_iff.mp h
  obtain ⟨declared, hdeclared, h⟩ := bind_eq_ok_iff.mp h
  obtain ⟨hkey, h⟩ := bind_unit_eq_ok_iff.mp h
  obtain ⟨-, h⟩ := bind_unit_eq_ok_iff.mp h
  obtain ⟨actual, hactual, h⟩ := bind_eq_ok_iff.mp h
  obtain ⟨hsame, h⟩ := bind_unit_eq_ok_iff.mp h
  cases h
  rw [require_eq_ok_iff] at hmanifest hkey hsame
  simp only [not_or, not_not] at hsame
  have hexpects := foldlM_addExpectedFile_ok hdeclared
  have hvisits := visitEntries_ok hactual
  have hpaths : ((manifestRelativePath, utf8 "/") :: requests.map fun request =>
      (request.relativePath, request.pathPointer)).map Prod.fst =
      manifestRelativePath :: requests.map ArtifactRequest.relativePath := by
    rw [List.map_cons, List.map_map]
    rfl
  rw [hpaths] at hexpects
  have hnames : ∀ path ∈ manifestRelativePath :: requests.map ArtifactRequest.relativePath,
      HasNames path := by
    refine List.forall_mem_cons.mpr
      ⟨isStrictRelativePath_components hmanifest, fun path hpath => ?_⟩
    obtain ⟨request, hrequest, rfl⟩ := List.mem_map.mp hpath
    exact isStrictRelativePath_components (hrequests request hrequest)
  have hne : manifestRelativePath ≠ [] := by
    rintro rfl
    cases hmanifest
  have hregular := regular_iff_declared hroot hnames
    (fun hpresent => isStrictRelativePath_components (hdigest hpresent)) hexpects hvisits hsame.1
  refine ⟨hmanifest, hregular, fun rest hrest => ⟨fun hentry => ?_, ?_⟩, fun rest e hentry => ?_,
    hexpects.nodup, fun hmem => ?_⟩
  · exact exists_regular_below hnames
      (fun path hpath => (hregular _).mpr (Or.inl ⟨path, hpath, rfl⟩)) List.mem_cons_self hne
      hexpects hvisits hsame.2 hrest hentry
  · rintro ⟨file, ⟨regular, hfile⟩, ⟨below, rfl⟩, hproper⟩
    rw [← List.append_assoc] at hfile
    exact FileSystem.entry_of_prefix hfile fun hnil => hproper (by rw [hnil, List.append_nil])
  · by_cases hrest : rest = []
    · rw [hrest, List.append_nil, hroot] at hentry
      cases hentry
      exact Or.inl rfl
    · rcases hvisits.plain rest (mem_listing_iff hrest hentry) with hplain | ⟨file, hplain⟩
      · rw [hentry] at hplain
        cases hplain
        exact Or.inl rfl
      · rw [hentry] at hplain
        cases hplain
        exact Or.inr ⟨file, rfl⟩
  · obtain ⟨path, hpath, heq⟩ := List.mem_map.mp hmem
    exact hkey ((hexpects.files _).mpr (Or.inr ⟨path, hpath, congrArg genericString heq.symm⟩))

end MagpieTts.Bundle
