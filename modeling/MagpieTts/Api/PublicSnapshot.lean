import Mathlib.Data.List.Basic
import MagpieTts.Runtime.RequestState

/-!
# The snapshot of the C interface

`public_snapshot` of `magpie_tts_rt.cpp`: the snapshot of a request, laid out as the structure
`mtt_request_snapshot_v1_t` that crosses the C interface.

## Main definitions

* `PublicSnapshot`, `publicSnapshot`: the structure and the conversion into it.
* `DocumentedTable`: the relation of state, status and diagnostic that the interface documents.
-/

namespace MagpieTts.Api

open MagpieTts.Runtime

/-- `MTT_ERROR_MESSAGE_CAPACITY`. -/
def errorMessageCapacity : ℕ := 512

/-- `MTT_ABI_VERSION_1`. -/
def abiVersion1 : ℕ := 1

/-- The size of `mtt_request_snapshot_v1_t`: ten scalar fields, the message and four reserved
words. -/
def requestSnapshotSize : ℕ := 56 + errorMessageCapacity + 32

/-- `mtt_request_snapshot_v1_t`. The message is a fixed array of characters. -/
structure PublicSnapshot where
  structSize : ℕ
  abiVersion : ℕ
  revision : ℕ
  state : ℤ
  availableAudioLeases : ℕ
  generatedCodecFrames : ℕ
  publishedSamples : ℕ
  committedTextTokens : ℕ
  terminalStatus : ℤ
  terminalErrorStage : ℤ
  terminalErrorMessage : List UInt8
  reserved : List ℕ
  deriving DecidableEq

/-- `public_request_state`. -/
def publicRequestState : RequestLifecycleState → ℤ
  | .running => 1
  | .completed => 2
  | .cancelled => 3
  | .failed => 4

/-- `copy_terminal_message` into a zeroed array. -/
def copyTerminalMessage (source : List UInt8) : List UInt8 :=
  let copied := source.take (errorMessageCapacity - 1)
  copied ++ List.replicate (errorMessageCapacity - copied.length) 0

/-- `public_snapshot`. -/
def publicSnapshot (source : RequestStateSnapshot) : PublicSnapshot where
  structSize := requestSnapshotSize
  abiVersion := abiVersion1
  revision := source.revision
  state := publicRequestState source.state
  availableAudioLeases := source.availableAudioLeases
  generatedCodecFrames := source.generatedCodecFrames
  publishedSamples := source.publishedSamples
  committedTextTokens := source.committedTextTokens
  terminalStatus := source.terminalStatus
  terminalErrorStage := source.terminalErrorStage
  terminalErrorMessage := copyTerminalMessage source.terminalErrorMessage
  reserved := [0, 0, 0, 0]

/-- The text of a message array: the characters in front of the first `NUL`. -/
def messageText (message : List UInt8) : List UInt8 := message.takeWhile (· ≠ 0)

/-- The statuses that the interface documents for a failed request: every declared one but `OK`,
`BUSY`, `CANCELLED`, `WOULD_BLOCK` and `TIMEOUT`. -/
def failureStatuses : List ℤ := [1, 2, 4, 5, 6, 7, 8, 9, 13, 14, 15]

/-- The documented relation of state, status, stage and message. -/
def DocumentedTable (s : PublicSnapshot) : Prop :=
  ((s.state = 1 ∨ s.state = 2) ∧ s.terminalStatus = 0 ∧ s.terminalErrorStage = 0 ∧
      messageText s.terminalErrorMessage = []) ∨
    (s.state = 3 ∧ s.terminalStatus = 10 ∧ s.terminalErrorStage = 6 ∧
      messageText s.terminalErrorMessage = []) ∨
    (s.state = 4 ∧ s.terminalStatus ∈ failureStatuses ∧
      (1 ≤ s.terminalErrorStage ∧ s.terminalErrorStage ≤ 11) ∧
      messageText s.terminalErrorMessage ≠ [])

/-- The array ends in a `NUL`, whatever the message. -/
theorem zero_mem_copyTerminalMessage (source : List UInt8) : 0 ∈ copyTerminalMessage source := by
  have hlength : (source.take (errorMessageCapacity - 1)).length ≤ errorMessageCapacity - 1 :=
    List.length_take_le _ _
  have hpos : errorMessageCapacity - (source.take (errorMessageCapacity - 1)).length ≠ 0 := by
    rw [errorMessageCapacity] at hlength ⊢
    omega
  rw [copyTerminalMessage, List.mem_append, List.mem_replicate]
  exact Or.inr ⟨hpos, rfl⟩

/-- The copied text is empty exactly when the source is empty or starts with a `NUL`. -/
theorem messageText_copyTerminalMessage_eq_nil (source : List UInt8) :
    messageText (copyTerminalMessage source) = [] ↔ source = [] ∨ source.head? = some 0 := by
  cases source with
  | nil => simp [messageText, copyTerminalMessage]
  | cons byte rest =>
    simp only [messageText, copyTerminalMessage, errorMessageCapacity, List.take_succ_cons,
      List.cons_append, List.takeWhile_cons, List.head?_cons, Option.some.injEq, reduceCtorEq,
      false_or]
    by_cases hzero : byte = 0
    · simp [hzero]
    · simp [hzero]

end MagpieTts.Api
