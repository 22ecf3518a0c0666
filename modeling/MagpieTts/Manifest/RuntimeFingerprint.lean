import MagpieTts.Library.ExceptRules
import MagpieTts.Manifest.ManifestError
import Mathlib.Tactic.SplitIfs

/-!
# The fingerprint of the host

`RuntimeFingerprint` names the host that a bundle was built for: operating system, CUDA, the cuBLAS
libraries with their digests, TensorRT, driver, GPU and the ABI of the plugin.
`require_exact_runtime_fingerprint` compares the fingerprint of the manifest with that of the host,
field by field.

## Main definitions

* `RuntimeFingerprint`: the fields.
* `requireExactRuntimeFingerprint`: the comparison.

## Main results

* `requireExactRuntimeFingerprint_eq_ok_iff`: it accepts the equal fingerprints and no others.
-/

namespace MagpieTts.Manifest

inductive Endianness
  | little
  | big
  deriving DecidableEq

def Endianness.text : Endianness → String
  | little => "little"
  | big => "big"

/-- `RuntimeFingerprint::LoadedLibraryIdentity`. -/
structure LoadedLibraryIdentity where
  soname : String
  sizeBytes : ℕ
  sha256 : String
  deriving DecidableEq

/-- `RuntimeFingerprint::CublasIdentity`. -/
structure CublasIdentity where
  apiVersionInteger : ℕ
  library : LoadedLibraryIdentity
  ltLibrary : LoadedLibraryIdentity
  deriving DecidableEq

structure RuntimeFingerprint where
  osName : String
  osVersion : String
  architecture : String
  endianness : Endianness
  cudaVersion : String
  cublas : CublasIdentity
  tensorrtVersion : String
  driverVersion : String
  gpuName : String
  gpuComputeCapability : String
  pluginAbiVersion : ℕ
  deriving DecidableEq

/-- `require_equal_fingerprint_field`: a field names its segments, separated by slashes. -/
def requireEqualFingerprintField {α : Type} [DecidableEq α] (expected actual : α)
    (field expectedText actualText : String) : Except ManifestError Unit :=
  if expected ≠ actual then
    .error
      { stage := .runtimeCompatibility
        code := .fingerprintMismatch
        jsonPointer := (field.splitOn "/").foldl childPath "/runtime"
        detail := "expected '" ++ expectedText ++ "', actual '" ++ actualText ++ "'" }
  else .ok ()

/-- A field that is a text. -/
def requireEqualFingerprintText (expected actual field : String) : Except ManifestError Unit :=
  requireEqualFingerprintField expected actual field expected actual

/-- A field that is a number. -/
def requireEqualFingerprintNumber (expected actual : ℕ) (field : String) :
    Except ManifestError Unit :=
  requireEqualFingerprintField expected actual field (toString expected) (toString actual)

def requireExactRuntimeFingerprint (expected actual : RuntimeFingerprint) :
    Except ManifestError Unit := do
  requireEqualFingerprintText expected.osName actual.osName "os_name"
  requireEqualFingerprintText expected.osVersion actual.osVersion "os_version"
  requireEqualFingerprintText expected.architecture actual.architecture "architecture"
  requireEqualFingerprintField expected.endianness actual.endianness "endianness"
    expected.endianness.text actual.endianness.text
  requireEqualFingerprintText expected.cudaVersion actual.cudaVersion "cuda_version"
  requireEqualFingerprintNumber expected.cublas.apiVersionInteger actual.cublas.apiVersionInteger
    "cublas/api_version_integer"
  requireEqualFingerprintText expected.cublas.library.soname actual.cublas.library.soname
    "cublas/library/soname"
  requireEqualFingerprintNumber expected.cublas.library.sizeBytes actual.cublas.library.sizeBytes
    "cublas/library/size_bytes"
  requireEqualFingerprintText expected.cublas.library.sha256 actual.cublas.library.sha256
    "cublas/library/sha256"
  requireEqualFingerprintText expected.cublas.ltLibrary.soname actual.cublas.ltLibrary.soname
    "cublas/lt_library/soname"
  requireEqualFingerprintNumber expected.cublas.ltLibrary.sizeBytes
    actual.cublas.ltLibrary.sizeBytes "cublas/lt_library/size_bytes"
  requireEqualFingerprintText expected.cublas.ltLibrary.sha256 actual.cublas.ltLibrary.sha256
    "cublas/lt_library/sha256"
  requireEqualFingerprintText expected.tensorrtVersion actual.tensorrtVersion "tensorrt_version"
  requireEqualFingerprintText expected.driverVersion actual.driverVersion "driver_version"
  requireEqualFingerprintText expected.gpuName actual.gpuName "gpu_name"
  requireEqualFingerprintText expected.gpuComputeCapability actual.gpuComputeCapability
    "gpu_compute_capability"
  requireEqualFingerprintNumber expected.pluginAbiVersion actual.pluginAbiVersion
    "plugin_abi_version"

/-! ### What the comparison accepts -/

theorem requireEqualFingerprintField_eq_ok_iff {α : Type} [DecidableEq α] {expected actual : α}
    {field expectedText actualText : String} :
    requireEqualFingerprintField expected actual field expectedText actualText = .ok () ↔
      expected = actual := by
  rw [requireEqualFingerprintField]
  split_ifs with hne
  · exact ⟨nofun, fun heq => absurd heq hne⟩
  · exact ⟨fun _ => not_not.mp hne, fun _ => rfl⟩

theorem requireExactRuntimeFingerprint_eq_ok_iff {expected actual : RuntimeFingerprint} :
    requireExactRuntimeFingerprint expected actual = .ok () ↔ expected = actual := by
  obtain ⟨_, _, _, _, _, ⟨_, ⟨_, _, _⟩, ⟨_, _, _⟩⟩, _, _, _, _, _⟩ := expected
  obtain ⟨_, _, _, _, _, ⟨_, ⟨_, _, _⟩, ⟨_, _, _⟩⟩, _, _, _, _, _⟩ := actual
  simp only [requireExactRuntimeFingerprint, requireEqualFingerprintText,
    requireEqualFingerprintNumber, Library.bind_unit_eq_ok_iff,
    requireEqualFingerprintField_eq_ok_iff,
    RuntimeFingerprint.mk.injEq, CublasIdentity.mk.injEq, LoadedLibraryIdentity.mk.injEq,
    and_assoc]

end MagpieTts.Manifest
