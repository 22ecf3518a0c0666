import Mathlib.Data.List.Basic

/-!
# The errors of the manifest of a runtime bundle

`ManifestError` of `manifest.hpp`: the stage that failed, the code of the error, the JSON pointer of
the field and a text.

## Main definitions

* `ManifestError`: the error.
* `childPath`: the JSON pointer of a field of an object.
-/

namespace MagpieTts.Manifest

inductive ManifestStage
  | io
  | json
  | topLevel
  | runtimeFingerprint
  | artifacts
  | classifierFreeGuidance
  | licenses
  | engine
  | tensor
  | kvCache
  | alignment
  | sampling
  | localAr
  | codec
  | limits
  | goldenFixture
  | goldenReceipt
  | runtimeCompatibility
  deriving DecidableEq

inductive ManifestErrorCode
  | ioError
  | sizeLimitExceeded
  | jsonSyntaxError
  | missingField
  | unknownField
  | typeMismatch
  | invalidValue
  | duplicateValue
  | invariantViolation
  | fingerprintMismatch
  deriving DecidableEq

structure ManifestError where
  stage : ManifestStage
  code : ManifestErrorCode
  jsonPointer : String
  detail : String
  deriving DecidableEq

/-- A character of a reference token of a JSON pointer. -/
def escapeJsonPointerChar (value : Char) : List Char :=
  if value = '~' then [ '~', '0'] else if value = '/' then [ '~', '1'] else [value]

def escapeJsonPointerToken (token : String) : String :=
  String.ofList (token.toList.flatMap escapeJsonPointerChar)

def childPath (parent child : String) : String :=
  parent ++ "/" ++ escapeJsonPointerToken child

end MagpieTts.Manifest
