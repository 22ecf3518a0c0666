import MagpieTts.Api.PublicSnapshot
import MagpieTts.Library.ExceptRules

/-!
# The error buffer of the C interface

Every function of the C interface returns a status, and describes a failure in the error buffer of
its caller: `write_error` stores the status, the stage of the failure and as much of the message as
fits in front of a terminating `NUL`. A function clears the buffer when it starts, and writes it
once more when it fails.

## Main definitions

* `Status`, `Stage`: the codes of the interface.
* `ErrorV1`, `writeError`, `clearError`: the error buffer and its updates.
* `ApiFailure`, `apiCall`: how a function ends, and what its caller sees of it.
-/

namespace MagpieTts.Api

open MagpieTts.Library

/-! ### Codes -/

namespace Status

def ok : ℤ := 0
def invalidArgument : ℤ := 1
def abiMismatch : ℤ := 2
def busy : ℤ := 3
def ioError : ℤ := 4
def manifestError : ℤ := 5
def hashMismatch : ℤ := 7
def cancelled : ℤ := 10
def timeout : ℤ := 12
def poisoned : ℤ := 13
def internalError : ℤ := 15

end Status

namespace Stage

def none : ℤ := 0
def abi : ℤ := 1
def runtime : ℤ := 2
def manifest : ℤ := 3
def model : ℤ := 4
def session : ℤ := 5
def request : ℤ := 6
def cuda : ℤ := 8
def plugin : ℤ := 9
def alignment : ℤ := 10
def codec : ℤ := 11

end Stage

/-! ### The buffer -/

/-- `mtt_error_v1_t`. The message is a fixed array of characters. -/
structure ErrorV1 where
  structSize : ℕ
  abiVersion : ℕ
  code : ℤ
  stage : ℤ
  message : List UInt8
  deriving DecidableEq

/-- The size of `mtt_error_v1_t`. -/
def errorSize : ℕ := 16 + errorMessageCapacity

def hasValidHeader (structSize abiVersion expectedSize : ℕ) : Bool :=
  structSize = expectedSize && abiVersion = abiVersion1

/-- `error_is_usable`. A caller may pass no buffer. -/
def errorIsUsable (error : Option ErrorV1) : Bool :=
  error.all fun buffer => hasValidHeader buffer.structSize buffer.abiVersion errorSize

/-- The copy of a message into the array of a buffer, of whatever capacity. -/
def storeMessage (array message : List UInt8) : List UInt8 :=
  let copySize := if message.length < array.length - 1 then message.length else array.length - 1
  message.take copySize ++ 0 :: array.drop (copySize + 1)

/-- `write_error`. -/
def writeError (error : Option ErrorV1) (code stage : ℤ) (message : List UInt8) :
    Option ErrorV1 :=
  error.map fun buffer =>
    if hasValidHeader buffer.structSize buffer.abiVersion errorSize then
      { buffer with code := code, stage := stage, message := storeMessage buffer.message message }
    else buffer

/-- `clear_error`. -/
def clearError (error : Option ErrorV1) : Option ErrorV1 :=
  writeError error Status.ok Stage.none []

/-! ### The end of a call -/

/-- A failure that a function writes and returns. -/
structure ApiFailure where
  status : ℤ
  stage : ℤ
  message : List UInt8
  deriving DecidableEq

/-- A diagnostic with a text of the source. -/
def ApiFailure.text (status stage : ℤ) (message : String) : ApiFailure :=
  ⟨status, stage, message.toList.flatMap String.utf8EncodeChar⟩

/-- `if (condition) { write_error(...); return ...; }`. -/
def failIf (condition : Prop) [Decidable condition] (failure : ApiFailure) :
    Except ApiFailure Unit :=
  if condition then .error failure else .ok ()

@[simp]
theorem failIf_eq_ok_iff {condition : Prop} [Decidable condition] {failure : ApiFailure} :
    failIf condition failure = .ok () ↔ ¬ condition := by
  rw [failIf]
  split_ifs with h <;> simp [h]

theorem failsWith_failIf_iff {P : ApiFailure → Prop} {condition : Prop} [Decidable condition]
    {failure : ApiFailure} : FailsWith P (failIf condition failure) ↔ (condition → P failure) := by
  rw [failIf]
  split_ifs with h <;> simp [h]

/-- What the caller of a function sees: the status, the buffer and the output. -/
def apiCall {α : Type} (error : Option ErrorV1) (body : Except ApiFailure α) :
    ℤ × Option ErrorV1 × Option α :=
  if errorIsUsable error = false then (Status.abiMismatch, error, none)
  else
    match body with
    | .ok output => (Status.ok, clearError error, some output)
    | .error failure =>
      (failure.status,
        writeError (clearError error) failure.status failure.stage failure.message, none)

/-- The statuses that a caller may see. -/
theorem apiCall_status {α : Type} {P : ApiFailure → Prop} {body : Except ApiFailure α}
    (error : Option ErrorV1) (h : FailsWith P body) :
    (apiCall error body).1 = Status.abiMismatch ∨ (apiCall error body).1 = Status.ok ∨
      ∃ failure, P failure ∧ (apiCall error body).1 = failure.status := by
  unfold apiCall
  split_ifs with husable
  · exact Or.inl rfl
  · cases body with
    | ok output => exact Or.inr (Or.inl rfl)
    | error failure => exact Or.inr (Or.inr ⟨failure, h failure rfl, rfl⟩)

end MagpieTts.Api
