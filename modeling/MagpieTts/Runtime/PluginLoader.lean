import MagpieTts.Bundle.BundleFiles
import MagpieTts.Library.ThrowingState
import MagpieTts.Manifest.RuntimeFingerprint
import MagpieTts.Plugins.PluginRegistration
import Mathlib.Data.Int.Notation
import Mathlib.Data.List.Forall2

/-!
# Authenticating and registering the plugin library

`RuntimePluginState::authenticate_and_register` binds a runtime to the plugin of a bundle. The first
runtime of the process loads the plugin library, checks its C interface, its creators and the
fingerprint of the host, registers the creators and becomes the process-global owner. A later
runtime joins the owner: it may bind only to the same digest.

The foreign calls (the dynamic loader, the plugin's own interface, the libraries that the
fingerprint is collected from, the registry) and the allocations answer arbitrarily: a
`LoaderAnswers` holds the answers of one call.

## Main definitions

* `PluginApi`, `getPluginApi`: the C interface of the plugin, and what the plugin of this source
  answers.
* `requireMatchingProcessOwner`: the checks of a runtime that joins the owner.
* `preparePlugin`: the checks of a library that is to be registered.
* `bindUnderProcessLock`: the part of `authenticate_and_register` under the lock of the process.

## Main results

* `authenticateCreators_getPluginApi`: the plugin's own interface passes the checks.
-/

open MagpieTts.Bundle (BundleArtifactKind)

namespace MagpieTts.Runtime

open Library Manifest Plugins

/-! ### Errors -/

/-- The codes of `PluginLoadErrorCode` that this path throws. -/
inductive PluginLoadErrorCode
  | missingArtifact
  | conflictingArtifact
  | dynamicLoaderError
  | missingApiSymbol
  | abiMismatch
  | invalidCreatorContract
  | registrationFailed
  deriving DecidableEq

inductive RuntimeFingerprintStage
  | operatingSystem
  | architecture
  | cudaRuntime
  | cublasRuntime
  | tensorrtRuntime
  | nvidiaDriver
  | cudaDevice
  deriving DecidableEq

/-- The exceptions of a call. -/
inductive PluginFailure
  | pluginLoadError (code : PluginLoadErrorCode) (detail : String)
  | runtimeFingerprintError (stage : RuntimeFingerprintStage) (detail : String)
  | manifestError (error : ManifestError)
  | badAlloc
  deriving DecidableEq

/-- The allocations of a call that can fail. -/
inductive Allocation
  | errorDetail
  | descriptorPath
  | preparedProcessSha256
  | preparedRuntimeSha256
  | creatorIdentity
  /-- The fault that a build for tests injects before the registration. -/
  | pluginOwnerTestFault
  /-- The copy of the owner's digest into a runtime that joins. -/
  | joinedRuntimeSha256
  | reportedSha256
  deriving DecidableEq

/-- The allocations that fail. -/
abbrev OutOfMemory := Allocation → Bool

def allocate (outOfMemory : OutOfMemory) (allocation : Allocation) : Except PluginFailure Unit :=
  if outOfMemory allocation then .error .badAlloc else .ok ()

/-- Building the text of the error may itself run out of memory. -/
def failPlugin {α : Type} (outOfMemory : OutOfMemory) (code : PluginLoadErrorCode)
    (detail : String) : Except PluginFailure α :=
  if outOfMemory .errorDetail then .error .badAlloc else .error (.pluginLoadError code detail)

/-! ### The C interface of the plugin -/

def pluginAbiVersion1 : ℕ := 1

def pluginCreatorCountV1 : ℕ := 5

def sizeofPluginCreator : ℕ := 152

def sizeofPluginApi : ℕ := 816

/-- `mtt_plugin_creator_v1_t`, with its arrays of characters. -/
structure PluginCreator where
  structSize : ℕ
  abiVersion : ℕ
  name : List Char
  version : List Char
  pluginNamespace : List Char

/-- `mtt_plugin_api_v1_t`. -/
structure PluginApi where
  structSize : ℕ
  abiVersion : ℕ
  creatorCount : ℕ
  creators : CreatorKind → PluginCreator
  /-- The pointer is not null: it is `register_plugins_explicitly` of the mapping. -/
  registerPlugins : Bool

/-- A value-initialized structure. -/
def PluginCreator.zero : PluginCreator := ⟨0, 0, [], [], []⟩

def PluginApi.zero : PluginApi := ⟨0, 0, 0, fun _ => .zero, false⟩

/-- `kRequiredPluginCreators`. -/
def requiredPluginCreator : CreatorKind → String
  | .sampling => "MagpieLocalARSampling"
  | .eos => "MagpieLocalAREos"
  | .layerNorm => "MagpieLayerNorm"
  | .geluTanh => "MagpieGeluTanh"
  | .softmax => "MagpieSoftmax"

def pluginVersion : String := "1"

def pluginNamespace : String := "magpie_tts_rt"

/-- `std::strncpy` of a text into a zeroed array of the capacity, keeping the last zero. -/
def fixedArray (capacity : ℕ) (text : String) : List Char :=
  let copied := text.toList.take (capacity - 1)
  copied ++ List.replicate (capacity - copied.length) '\x00'

/-- `populate_creator`. -/
def populateCreator (name : String) : PluginCreator where
  structSize := sizeofPluginCreator
  abiVersion := pluginAbiVersion1
  name := fixedArray 64 name
  version := fixedArray 16 pluginVersion
  pluginNamespace := fixedArray 64 pluginNamespace

/-- `mtt_plugin_get_api_v1` of the plugin of this source; `none` is a null pointer. -/
def getPluginApi : Option PluginApi → PluginStatus × Option PluginApi
  | none => (.invalidArgument, none)
  | some api =>
      if api.structSize ≠ sizeofPluginApi ∨ api.abiVersion ≠ pluginAbiVersion1 then
        (.abiMismatch, some api)
      else
        (.ok, some
          { structSize := sizeofPluginApi
            abiVersion := pluginAbiVersion1
            creatorCount := pluginCreatorCountV1
            creators := fun kind => populateCreator (requiredPluginCreator kind)
            registerPlugins := true })

/-! ### The data of a call -/

/-- `ProcessPluginOwner::CreatorIdentity`. -/
structure CreatorIdentity where
  name : String
  version : String
  pluginNamespace : String
  deriving DecidableEq

/-- The plugin library that the process owns; `handle` is empty until a library is registered. -/
structure ProcessPluginOwner where
  handle : Option Handle
  sha256 : String
  abiVersion : ℕ
  cublasIdentity : CublasIdentity
  creators : List CreatorIdentity
  deriving DecidableEq

/-- The fields of `RuntimePluginState`. -/
structure RuntimePluginState where
  authenticated : Bool
  sha256 : String
  abiVersion : ℕ
  deriving DecidableEq

def RuntimePluginState.initial : RuntimePluginState := ⟨false, "", 0⟩

/-- The part of `VerifiedBundleArtifact` that the loader reads. -/
structure PluginArtifact where
  kind : BundleArtifactKind
  sha256 : String
  verifiedFileDescriptor : ℤ
  deriving DecidableEq

/-- The part of `VerifiedRuntimeBundle` that the loader reads. -/
structure PluginBundle where
  artifacts : List PluginArtifact
  /-- `manifest.artifacts.plugin.abi_version`. -/
  pluginAbiVersion : ℕ
  /-- `manifest.runtime`. -/
  runtime : RuntimeFingerprint
  /-- `manifest.local_ar.sampling_plugin_name`. -/
  samplingPluginName : String

/-- The answers of the foreign calls of one call of `authenticate_and_register`. -/
structure LoaderAnswers where
  outOfMemory : OutOfMemory
  dlopen : Option Handle
  /-- `dlerror` after the failed `dlopen`. -/
  dlopenError : Option String
  /-- The plugin exports `mtt_plugin_get_api_v1`. -/
  dlsym : Bool
  dlsymError : Option String
  getApi : Option PluginApi → PluginStatus × Option PluginApi
  collectCublasRuntimeIdentity : Except PluginFailure CublasIdentity
  collectRuntimeFingerprint : ℤ → ℕ → CublasIdentity → Except PluginFailure RuntimeFingerprint
  registrar : Registrar

/-- The first plugin artifact of the bundle. -/
def PluginBundle.pluginArtifact (bundle : PluginBundle) : Option PluginArtifact :=
  bundle.artifacts.find? fun artifact => artifact.kind = .plugin

/-- A call past its first checks: it holds the lock of its runtime. -/
structure PluginCall where
  bundle : PluginBundle
  artifact : PluginArtifact
  pluginArtifact_eq : bundle.pluginArtifact = some artifact
  cudaDeviceIndex : ℤ

/-! ### The checks -/

def requirePluginArtifact (outOfMemory : OutOfMemory) (bundle : PluginBundle) :
    Except PluginFailure { artifact // bundle.pluginArtifact = some artifact } :=
  match bundle.pluginArtifact with
  | some artifact => .ok ⟨artifact, rfl⟩
  | none =>
      failPlugin outOfMemory .missingArtifact "the verified bundle contains no plugin artifact"

def descriptorPath (outOfMemory : OutOfMemory) (fileDescriptor : ℤ) :
    Except PluginFailure String := do
  if fileDescriptor < 0 then
    failPlugin outOfMemory .missingArtifact "the verified plugin descriptor is closed"
  else
    allocate outOfMemory .descriptorPath
    return "/proc/self/fd/" ++ toString fileDescriptor

/-- `load_get_api`: the symbol is there. -/
def loadGetApi (answers : LoaderAnswers) : Except PluginFailure Unit :=
  if answers.dlsymError ≠ none ∨ answers.dlsym = false then
    failPlugin answers.outOfMemory .missingApiSymbol
      (answers.dlsymError.getD "mtt_plugin_get_api_v1 is null")
  else .ok ()

/-- The interface that `get_api` has written, if it meets the contract of version 1. -/
def loadPluginApi (answers : LoaderAnswers) : Except PluginFailure PluginApi := do
  loadGetApi answers
  let answer := answers.getApi (some
    { PluginApi.zero with structSize := sizeofPluginApi, abiVersion := pluginAbiVersion1 })
  let api := answer.2.getD PluginApi.zero
  if answer.1 ≠ .ok ∨ api.structSize ≠ sizeofPluginApi ∨ api.abiVersion ≠ pluginAbiVersion1 ∨
      api.creatorCount ≠ pluginCreatorCountV1 ∨ api.registerPlugins = false then
    failPlugin answers.outOfMemory .abiMismatch
      "mtt_plugin_get_api_v1 did not return the exact ABI v1 contract"
  else return api

def fixedString (outOfMemory : OutOfMemory) (value : List Char) (field : String) :
    Except PluginFailure String := do
  if '\x00' ∉ value then
    failPlugin outOfMemory .invalidCreatorContract (field ++ " is not NUL-terminated")
  else if value.takeWhile (· ≠ '\x00') = [] then
    failPlugin outOfMemory .invalidCreatorContract (field ++ " is empty")
  else
    allocate outOfMemory .creatorIdentity
    return String.ofList (value.takeWhile (· ≠ '\x00'))

def authenticateCreator (outOfMemory : OutOfMemory) (creator : PluginCreator)
    (expectedName : String) : Except PluginFailure CreatorIdentity := do
  if creator.structSize ≠ sizeofPluginCreator ∨ creator.abiVersion ≠ pluginAbiVersion1 then
    failPlugin outOfMemory .abiMismatch "plugin creator descriptor does not match ABI version 1"
  else
    let name ← fixedString outOfMemory creator.name "creator.name"
    let version ← fixedString outOfMemory creator.version "creator.version"
    let namespace' ← fixedString outOfMemory creator.pluginNamespace "creator.plugin_namespace"
    if name ≠ expectedName ∨ version ≠ pluginVersion ∨ namespace' ≠ pluginNamespace then
      failPlugin outOfMemory .invalidCreatorContract
        ("expected creator " ++ expectedName ++ " version 1 in namespace magpie_tts_rt, got " ++
          name ++ " version " ++ version ++ " in namespace " ++ namespace')
    else
      allocate outOfMemory .creatorIdentity
      return { name := name, version := version, pluginNamespace := namespace' }

def authenticateCreators (outOfMemory : OutOfMemory) (api : PluginApi) :
    Except PluginFailure (List CreatorIdentity) :=
  CreatorKind.all.mapM fun kind =>
    authenticateCreator outOfMemory (api.creators kind) (requiredPluginCreator kind)

def requireManifestPluginContract (outOfMemory : OutOfMemory) (bundle : PluginBundle)
    (abiVersion : ℕ) : Except PluginFailure Unit :=
  if bundle.pluginAbiVersion ≠ abiVersion ∨ bundle.runtime.pluginAbiVersion ≠ abiVersion then
    failPlugin outOfMemory .abiMismatch "plugin ABI differs from the authenticated manifest"
  else if bundle.samplingPluginName ≠ requiredPluginCreator .sampling then
    failPlugin outOfMemory .invalidCreatorContract
      "local_ar.sampling_plugin_name does not select the authenticated creator"
  else .ok ()

/-- The host has the fingerprint of the manifest. -/
def requireFingerprint (answers : LoaderAnswers) (call : PluginCall) (abiVersion : ℕ)
    (cublasIdentity : CublasIdentity) : Except PluginFailure Unit := do
  let actual ← answers.collectRuntimeFingerprint call.cudaDeviceIndex abiVersion cublasIdentity
  (requireExactRuntimeFingerprint call.bundle.runtime actual).mapError .manifestError

def requireMatchingProcessOwner (answers : LoaderAnswers) (owner : ProcessPluginOwner)
    (call : PluginCall) : Except PluginFailure Unit := do
  if owner.handle = none then
    failPlugin answers.outOfMemory .missingArtifact
      "the process-global plugin owner is not initialized"
  else if owner.sha256 ≠ call.artifact.sha256 then
    failPlugin answers.outOfMemory .conflictingArtifact
      ("this process is already bound to plugin SHA-256 " ++ owner.sha256 ++ ", requested " ++
        call.artifact.sha256)
  else
    let api ← loadPluginApi answers
    let creators ← authenticateCreators answers.outOfMemory api
    if api.abiVersion ≠ owner.abiVersion ∨ creators ≠ owner.creators then
      failPlugin answers.outOfMemory .invalidCreatorContract
        ("the process-global plugin owner no longer exposes its authenticated ordered creator " ++
          "contract")
    else
      requireManifestPluginContract answers.outOfMemory call.bundle owner.abiVersion
      requireFingerprint answers call owner.abiVersion owner.cublasIdentity

/-- The fields of the owner that are prepared before the registration. -/
structure PreparedPlugin where
  abiVersion : ℕ
  creators : List CreatorIdentity
  cublasIdentity : CublasIdentity

/-- Everything between `dlopen` and the registration. -/
def preparePlugin (answers : LoaderAnswers) (call : PluginCall) :
    Except PluginFailure PreparedPlugin := do
  allocate answers.outOfMemory .preparedProcessSha256
  allocate answers.outOfMemory .preparedRuntimeSha256
  let api ← loadPluginApi answers
  requireManifestPluginContract answers.outOfMemory call.bundle api.abiVersion
  let creators ← authenticateCreators answers.outOfMemory api
  let cublasIdentity ← answers.collectCublasRuntimeIdentity
  requireFingerprint answers call api.abiVersion cublasIdentity
  allocate answers.outOfMemory .pluginOwnerTestFault
  return { abiVersion := api.abiVersion, creators := creators, cublasIdentity := cublasIdentity }

/-! ### The call -/

/-- What a call reads and writes under the lock of the process. -/
structure LoaderState where
  runtime : RuntimePluginState
  owner : ProcessPluginOwner
  registry : PluginRegistry
  /-- The references to mapped libraries that the loader holds. -/
  mappings : List Handle

abbrev Loader := ExceptT PluginFailure (StateM LoaderState)

/-- The first checks of a call, under the lock of the runtime. -/
def requireUnboundOrSame (outOfMemory : OutOfMemory) (runtime : RuntimePluginState)
    (bundle : PluginBundle) (cudaDeviceIndex : ℤ) : Except PluginFailure PluginCall := do
  let artifact ← requirePluginArtifact outOfMemory bundle
  if runtime.authenticated ∧ runtime.sha256 ≠ artifact.1.sha256 then
    failPlugin outOfMemory .conflictingArtifact
      ("this runtime is already bound to plugin SHA-256 " ++ runtime.sha256 ++ ", requested " ++
        artifact.1.sha256)
  else
    return {
      bundle := bundle
      artifact := artifact.1
      pluginArtifact_eq := artifact.2
      cudaDeviceIndex := cudaDeviceIndex }

/-- `api.register_plugins()` of the candidate. -/
def registerPlugins (answers : LoaderAnswers) (candidate : Handle) : Loader PluginStatus := do
  let state ← get
  let registration := registerPluginsExplicitly answers.registrar candidate state.registry
  set { state with registry := registration.2 }
  return registration.1

/-- The registration, and the commit that cannot be interrupted. -/
def registerAndCommit (answers : LoaderAnswers) (call : PluginCall) (candidate : Handle) :
    Loader Unit := do
  let prepared ← check (preparePlugin answers call)
  let status ← registerPlugins answers candidate
  if status ≠ .ok ∧ status ≠ .alreadyRegistered then
    check (failPlugin answers.outOfMemory .registrationFailed
      ("explicit creator registration returned status " ++ toString status.code))
  else
    modify fun state => { state with
      owner :=
        { handle := some candidate
          sha256 := call.artifact.sha256
          abiVersion := prepared.abiVersion
          cublasIdentity := prepared.cublasIdentity
          creators := prepared.creators }
      runtime :=
        { authenticated := true
          sha256 := call.artifact.sha256
          abiVersion := prepared.abiVersion } }

/-- `dlclose` of the candidate, unless the owner has it. -/
def closeCandidate (candidate : Handle) : Loader Unit := do
  let state ← get
  if state.owner.handle = none then
    set { state with mappings := state.mappings.erase candidate }

/-- The path of the first runtime. -/
def loadAndRegister (answers : LoaderAnswers) (call : PluginCall) : Loader Unit := do
  let _path ← check (descriptorPath answers.outOfMemory call.artifact.verifiedFileDescriptor)
  match answers.dlopen with
  | none =>
      check (failPlugin answers.outOfMemory .dynamicLoaderError
        (answers.dlopenError.getD "dlopen failed without a diagnostic"))
  | some candidate =>
      modify fun state => { state with mappings := candidate :: state.mappings }
      tryCatch (registerAndCommit answers call candidate) fun failure => do
        closeCandidate candidate
        throw failure

/-- The path of a runtime that joins the owner. -/
def joinOwner (answers : LoaderAnswers) (call : PluginCall) : Loader Unit := do
  let state ← get
  check (requireMatchingProcessOwner answers state.owner call)
  modify fun state => { state with runtime := { state.runtime with authenticated := true } }
  check (allocate answers.outOfMemory .joinedRuntimeSha256)
  modify fun state => { state with
    runtime := { state.runtime with
      sha256 := state.owner.sha256
      abiVersion := state.owner.abiVersion } }

/-- The path of a runtime that is bound already. -/
def checkOwner (answers : LoaderAnswers) (call : PluginCall) : Loader Unit := do
  let state ← get
  check (requireMatchingProcessOwner answers state.owner call)
  if state.runtime.abiVersion ≠ state.owner.abiVersion then
    check (failPlugin answers.outOfMemory .abiMismatch
      "runtime plugin ABI differs from the process-global owner")

/-- The part of `authenticate_and_register` under the lock of the process. -/
def bindUnderProcessLock (answers : LoaderAnswers) (call : PluginCall) : Loader Unit := do
  let state ← get
  if state.runtime.authenticated then checkOwner answers call
  else if state.owner.handle ≠ none then joinOwner answers call
  else loadAndRegister answers call

/-! ### What the runtime reports -/

def RuntimePluginState.reportedSha256 (outOfMemory : OutOfMemory) (runtime : RuntimePluginState) :
    Except PluginFailure String := do
  if runtime.authenticated = false then
    failPlugin outOfMemory .missingArtifact "runtime plugin has not been authenticated"
  else
    allocate outOfMemory .reportedSha256
    return runtime.sha256

/-! ### The plugin of this source -/

/-- A text without zeros that fits into the array is read back. -/
theorem fixedString_fixedArray {outOfMemory : OutOfMemory}
    (hmemory : outOfMemory .creatorIdentity = false) {capacity : ℕ} {text : String}
    (hlength : text.toList.length < capacity) (hempty : text.toList ≠ [])
    (hzero : '\x00' ∉ text.toList) (field : String) :
    fixedString outOfMemory (fixedArray capacity text) field = .ok text := by
  have hcopied : text.toList.take (capacity - 1) = text.toList :=
    List.take_of_length_le (by omega)
  have harray : fixedArray capacity text =
      text.toList ++ List.replicate (capacity - text.toList.length) '\x00' := by
    rw [fixedArray, hcopied]
  have hread : (fixedArray capacity text).takeWhile (· ≠ '\x00') = text.toList := by
    rw [harray, List.takeWhile_append_of_pos]
    · simp
    · intro value hvalue
      exact decide_eq_true fun heq => hzero (heq ▸ hvalue)
  have hterminator : '\x00' ∈ fixedArray capacity text := by
    rw [harray, List.mem_append, List.mem_replicate]
    exact Or.inr ⟨by omega, rfl⟩
  rw [fixedString, if_neg (not_not.mpr hterminator), hread, if_neg hempty, String.ofList_toList]
  simp [allocate, hmemory, bind, Except.bind, pure, Except.pure]

theorem authenticateCreator_populateCreator {outOfMemory : OutOfMemory}
    (hmemory : outOfMemory .creatorIdentity = false) (kind : CreatorKind) :
    authenticateCreator outOfMemory (populateCreator (requiredPluginCreator kind))
      (requiredPluginCreator kind) =
    .ok ⟨requiredPluginCreator kind, pluginVersion, pluginNamespace⟩ := by
  have hname : ∀ field, fixedString outOfMemory (fixedArray 64 (requiredPluginCreator kind)) field =
      .ok (requiredPluginCreator kind) :=
    fixedString_fixedArray hmemory (by cases kind <;> decide) (by cases kind <;> decide)
      (by cases kind <;> decide)
  have hversion : ∀ field, fixedString outOfMemory (fixedArray 16 pluginVersion) field =
      .ok pluginVersion :=
    fixedString_fixedArray hmemory (by decide) (by decide) (by decide)
  have hnamespace : ∀ field, fixedString outOfMemory (fixedArray 64 pluginNamespace) field =
      .ok pluginNamespace :=
    fixedString_fixedArray hmemory (by decide) (by decide) (by decide)
  simp [authenticateCreator, populateCreator, hname, hversion, hnamespace, allocate, hmemory, bind,
    Except.bind, pure, Except.pure]

/-- The interface that the plugin of this source writes is accepted, creators included. -/
theorem authenticateCreators_getPluginApi {answers : LoaderAnswers}
    (hmemory : answers.outOfMemory .creatorIdentity = false) (hsymbol : answers.dlsym = true)
    (herror : answers.dlsymError = none) (hplugin : answers.getApi = getPluginApi) :
    ∃ api, loadPluginApi answers = .ok api ∧ api.abiVersion = pluginAbiVersion1 ∧
      authenticateCreators answers.outOfMemory api = .ok (CreatorKind.all.map fun kind =>
        ⟨requiredPluginCreator kind, pluginVersion, pluginNamespace⟩) := by
  refine ⟨((getPluginApi (some { PluginApi.zero with
    structSize := sizeofPluginApi, abiVersion := pluginAbiVersion1 })).2.getD PluginApi.zero),
    ?_, rfl, ?_⟩
  · rw [loadPluginApi, loadGetApi, hplugin, if_neg (by simp [hsymbol, herror])]
    rfl
  · rw [authenticateCreators, mapM_eq_ok_iff, List.forall₂_map_right_iff]
    exact List.forall₂_same.mpr fun kind _ => authenticateCreator_populateCreator hmemory kind

end MagpieTts.Runtime
