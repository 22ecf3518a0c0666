import MagpieTts.Api.AudioLease
import MagpieTts.Rust.WorkerEvents

/-!
# The lease validation of the Rust wrapper

`Request::validate_audio_lease` and `Request::validate_alignment_events` of `runtime.rs`: what the
wrapper checks of an audio lease that crosses the C interface, alone and against the leases before.
A 64-bit address space holds every `u64` count.

## Main definitions

* `LeaseRecord`: the wrapper's record of the leases it accepted.
* `validateAlignmentEvents`, `validateAudioLease`: the validation.
* `nextAudioPosition`: where the next lease has to begin.

## Main results

* `events_eq_of_validateAudioLease`: the events of an accepted lease.
-/

namespace MagpieTts.Rust

open MagpieTts.Api MagpieTts.Runtime

/-- `CODEC_FRAME_SAMPLES`. -/
def codecFrameSamples : ℕ := 1024

/-- `DECODER_STEP_SAMPLES`. -/
def decoderStepSamples : ℕ := codecFrameSamples * 2

/-- `KNOWN_AUDIO_FLAGS`. -/
def knownAudioFlags : ℕ := audioFlagFirst ||| audioFlagFinal ||| audioFlagAlignmentValid

/-- `isize::MAX`. -/
def maximumIsize : ℕ := 9223372036854775807

/-- `checked_add` of `u64`. -/
def checkedAdd (a b : ℕ) : Option ℕ := if a + b ≤ maximumUint64 then some (a + b) else none

/-- The fields of `Request` that the lease validation reads and writes. -/
structure LeaseRecord where
  nextAudioPosition : Option (ℕ × ℕ)
  lastAudioCommittedTokens : Option ℕ
  lastAudioLeaseId : Option ℕ
  finalAudioAcquired : Bool
  deriving DecidableEq

/-- The record of a request of which no lease has been acquired. -/
def LeaseRecord.initial : LeaseRecord := ⟨none, none, none, false⟩

section Validation

variable (tokenCount : ℕ) (record : LeaseRecord) (raw : AudioLeaseV1)

/-- The loop of `validate_alignment_events` over the events that are left, behind an event at
`previousSampleIndex`. -/
def validateEvents (sampleEnd : ℕ) : List AlignmentEventV1 → Option ℕ → ℕ →
    Except InvalidNativeData (List AlignmentEvent × ℕ)
  | [], _, previousCommitted => .ok ([], previousCommitted)
  | event :: rest, previousSampleIndex, previousCommitted => do
      validateHeader "audio_acquire" event.structSize event.abiVersion alignmentEventSize
      invalidNativeIf (event.reserved ≠ [0, 0]) "audio_acquire" "alignment event reserved"
        "must be zero for ABI v1"
      let isFullDecoderStepBoundary : Prop := event.sampleIndex % decoderStepSamples = 0
      let isSingleFrameTerminalBoundary : Prop := raw.flags &&& audioFlagFinal ≠ 0 ∧
        event.sampleIndex = sampleEnd ∧ event.sampleIndex % codecFrameSamples = 0
      invalidNativeIf (event.sampleIndex ≤ raw.firstSampleIndex ∨ sampleEnd < event.sampleIndex ∨
          (¬ isFullDecoderStepBoundary ∧ ¬ isSingleFrameTerminalBoundary))
        "audio_acquire" "alignment event sample_index"
        "must follow a decoder step inside the lease or its single-frame EOS tail"
      invalidNativeIf (∃ previous ∈ previousSampleIndex, event.sampleIndex ≤ previous)
        "audio_acquire" "alignment event sample_index" "must strictly increase within a lease"
      invalidNativeIf (event.committedTextTokens ≤ previousCommitted ∨
          tokenCount < event.committedTextTokens)
        "audio_acquire" "alignment event committed_text_tokens"
        "must strictly advance without exceeding text_token_count"
      let (events, lastCommitted) ←
        validateEvents sampleEnd rest (some event.sampleIndex) event.committedTextTokens
      return (⟨event.sampleIndex, event.committedTextTokens⟩ :: events, lastCommitted)

/-- The part of `validate_alignment_events` for a lease that carries events. -/
def validateEventRegion : Except InvalidNativeData (List AlignmentEvent) := do
  invalidNativeIf (raw.alignmentEvents = 0) "audio_acquire" "alignment_events"
    "must not be null when alignment_event_count is nonzero"
  invalidNativeIf (raw.alignmentEvents % 8 ≠ 0) "audio_acquire" "alignment_events"
    "must be aligned for mtt_alignment_event_v1_t"
  invalidNativeIf (maximumIsize / alignmentEventSize < raw.alignmentEventCount) "audio_acquire"
    "alignment_event_count" "exceeds Rust slice size limits"
  let maximumEventCount := (raw.sampleCount + decoderStepSamples - 1) / decoderStepSamples
  invalidNativeIf (maximumEventCount < raw.alignmentEventCount) "audio_acquire"
    "alignment_event_count" "exceeds one event per Main Decoder step"
  match checkedAdd raw.firstSampleIndex raw.sampleCount with
  | none => throw ⟨"audio_acquire", "sample range", "overflowed"⟩
  | some sampleEnd =>
    let (events, lastCommitted) ← validateEvents tokenCount raw sampleEnd
      (raw.eventMemory.take raw.alignmentEventCount) none
      (record.lastAudioCommittedTokens.getD 0)
    invalidNativeIf (lastCommitted ≠ raw.committedTextTokens) "audio_acquire"
      "committed_text_tokens" "must equal the final in-lease alignment event"
    return events

/-- `validate_alignment_events`. -/
def validateAlignmentEvents : Except InvalidNativeData (List AlignmentEvent) :=
  if raw.flags &&& audioFlagAlignmentValid = 0 then do
    invalidNativeIf (raw.committedTextTokens ≠ 0) "audio_acquire" "committed_text_tokens"
      "must be zero when ALIGNMENT_VALID is absent"
    invalidNativeIf (raw.alignmentEventCount ≠ 0 ∨ raw.alignmentEvents ≠ 0) "audio_acquire"
      "alignment_events" "must be null and empty when ALIGNMENT_VALID is absent"
    return []
  else do
    invalidNativeIf (∃ previous ∈ record.lastAudioCommittedTokens,
        raw.committedTextTokens < previous)
      "audio_acquire" "committed_text_tokens" "must be monotonic across audio leases"
    if raw.alignmentEventCount = 0 then do
      invalidNativeIf (raw.alignmentEvents ≠ 0) "audio_acquire" "alignment_events"
        "must be null when alignment_event_count is zero"
      invalidNativeIf (raw.committedTextTokens ≠ record.lastAudioCommittedTokens.getD 0)
        "audio_acquire" "committed_text_tokens" "cannot advance without an alignment event"
      return []
    else
      validateEventRegion tokenCount record raw

/-- The checks of `validate_audio_lease` up to the identifier. -/
def validateLeaseId : Except InvalidNativeData Unit := do
  validateHeader "audio_acquire" raw.structSize raw.abiVersion audioLeaseSize
  invalidNativeIf (raw.reserved ≠ [0, 0]) "audio_acquire" "reserved" "must be zero for ABI v1"
  invalidNativeIf (raw.leaseId = 0) "audio_acquire" "lease_id" "must be non-zero"
  invalidNativeIf (∃ previous ∈ record.lastAudioLeaseId, raw.leaseId ≤ previous) "audio_acquire"
    "lease_id" "must strictly increase and must never be reused"

/-- The checks on the samples of a lease. -/
def validateSampleRegion : Except InvalidNativeData Unit :=
  if raw.sampleCount = 0 then do
    invalidNativeIf (raw.samples ≠ 0) "audio_acquire" "samples"
      "must be null for a zero-sample FINAL control marker"
    invalidNativeIf (raw.flags &&& audioFlagFinal = 0 ∨ raw.flags &&& audioFlagFirst ≠ 0)
      "audio_acquire" "flags" "zero samples require FINAL without FIRST"
  else do
    invalidNativeIf (raw.samples = 0) "audio_acquire" "samples" "must not be null"
    invalidNativeIf (raw.samples % 4 ≠ 0) "audio_acquire" "samples" "must be aligned for f32"
    invalidNativeIf (raw.sampleCount % codecFrameSamples ≠ 0) "audio_acquire" "sample_count"
      "must contain complete 1,024-sample codec frames"

/-- The checks of a lease against the position behind the last one. -/
def validatePosition : Except InvalidNativeData Unit :=
  match record.nextAudioPosition with
  | some (expectedSequence, expectedSampleIndex) => do
    invalidNativeIf (raw.sequence ≠ expectedSequence ∨ raw.firstSampleIndex ≠ expectedSampleIndex)
      "audio_acquire" "audio position" "must be contiguous with the previous lease"
    invalidNativeIf (raw.flags &&& audioFlagFirst ≠ 0) "audio_acquire" "flags"
      "FIRST may only appear on the first lease"
  | none =>
    invalidNativeIf (raw.flags &&& audioFlagFirst = 0 ∨ raw.firstSampleIndex ≠ 0)
      "audio_acquire" "first lease" "must carry FIRST and begin at sample zero"

/-- The checks of `validate_audio_lease` behind the identifier. -/
def validateLeaseContents : Except InvalidNativeData (List AlignmentEvent) := do
  invalidNativeIf (raw.flags ||| knownAudioFlags ≠ knownAudioFlags) "audio_acquire" "flags"
    "contains flags unknown to ABI v1"
  validateSampleRegion raw
  invalidNativeIf (maximumIsize / 4 < raw.sampleCount) "audio_acquire" "sample_count"
    "exceeds Rust slice size limits"
  invalidNativeIf (raw.sampleRateHz ≠ streamingSampleRateHz) "audio_acquire" "sample_rate_hz"
    "must equal the ABI v1 MagpieTTS rate of 22,050 Hz"
  invalidNativeIf (raw.channels ≠ 1 ∨ raw.format ≠ pcmFormatF32Mono) "audio_acquire" "PCM layout"
    "must be mono f32"
  invalidNativeIf (tokenCount < raw.committedTextTokens) "audio_acquire" "committed_text_tokens"
    "exceeds request text_token_count"
  let alignmentEvents ← validateAlignmentEvents tokenCount record raw
  validatePosition record raw
  return alignmentEvents

/-- `validate_audio_lease`. An accepted identifier is recorded even when a later check fails. -/
def validateAudioLease : Except InvalidNativeData (List AlignmentEvent) × LeaseRecord :=
  match validateLeaseId record raw with
  | .error invalid => (.error invalid, record)
  | .ok () =>
    (validateLeaseContents tokenCount record raw,
      { record with lastAudioLeaseId := some raw.leaseId })

/-- The sequence number and the sample that the next lease has to begin with. -/
def nextAudioPosition : Except InvalidNativeData (ℕ × ℕ) :=
  match checkedAdd raw.sequence 1 with
  | none => .error ⟨"audio_acquire", "sequence", "overflowed"⟩
  | some nextSequence =>
    match checkedAdd raw.firstSampleIndex raw.sampleCount with
    | none => .error ⟨"audio_acquire", "sample range", "overflowed"⟩
    | some nextSampleIndex => .ok (nextSequence, nextSampleIndex)

end Validation

/-! ### The events of an accepted lease -/

/-- An early return of `invalid_native` that was not taken. -/
theorem bind_invalidNativeIf_eq_ok {condition : Prop} [Decidable condition]
    {operation field reason : String} {β : Type} {next : Unit → Except InvalidNativeData β}
    {value : β} :
    (invalidNativeIf condition operation field reason >>= next) = .ok value ↔
      ¬ condition ∧ next () = .ok value := by
  by_cases hcondition : condition
  · rw [invalidNativeIf, if_pos hcondition]
    exact ⟨fun h => (nomatch h), fun h => absurd hcondition h.1⟩
  · rw [invalidNativeIf, if_neg hcondition]
    exact ⟨fun h => ⟨hcondition, h⟩, fun h => h.2⟩

/-- What a sequence of computations returns, its last one returns. -/
theorem exists_of_bind_eq_ok {ε α β : Type} {x : Except ε α} {next : α → Except ε β} {value : β}
    (h : (x >>= next) = .ok value) : ∃ a, x = .ok a ∧ next a = .ok value := by
  cases x with
  | error e => cases h
  | ok a => exact ⟨a, rfl, h⟩

/-- The alignment event of a native one. -/
def alignmentEvent (event : AlignmentEventV1) : AlignmentEvent :=
  ⟨event.sampleIndex, event.committedTextTokens⟩

section Accepted

variable {tokenCount : ℕ} {record : LeaseRecord} {raw : AudioLeaseV1}

/-- The loop copies every event that it accepts. -/
theorem events_eq_of_validateEvents {sampleEnd : ℕ} :
    {native : List AlignmentEventV1} → {previousSampleIndex : Option ℕ} →
    {previousCommitted : ℕ} → {events : List AlignmentEvent} → {lastCommitted : ℕ} →
    validateEvents tokenCount raw sampleEnd native previousSampleIndex previousCommitted =
      .ok (events, lastCommitted) → events = native.map alignmentEvent
  | [], _, _, _, _, h => by
      cases h
      rfl
  | event :: rest, _, _, _, _, h => by
      rw [validateEvents] at h
      obtain ⟨_, -, h⟩ := exists_of_bind_eq_ok h
      simp only [bind_invalidNativeIf_eq_ok] at h
      obtain ⟨-, -, -, -, h⟩ := h
      obtain ⟨⟨events, lastCommitted⟩, hrest, h⟩ := exists_of_bind_eq_ok h
      cases h
      rw [events_eq_of_validateEvents hrest]
      rfl

theorem events_eq_of_validateEventRegion {events : List AlignmentEvent}
    (h : validateEventRegion tokenCount record raw = .ok events) :
    events = (raw.eventMemory.take raw.alignmentEventCount).map alignmentEvent := by
  rw [validateEventRegion] at h
  simp only [bind_invalidNativeIf_eq_ok] at h
  obtain ⟨-, -, -, -, h⟩ := h
  split at h
  · cases h
  · obtain ⟨⟨events', lastCommitted⟩, hloop, h⟩ := exists_of_bind_eq_ok h
    rw [bind_invalidNativeIf_eq_ok] at h
    obtain ⟨-, h⟩ := h
    cases h
    exact events_eq_of_validateEvents hloop

/-- The accepted events are those that the lease points at. -/
theorem events_eq_of_validateAlignmentEvents {events : List AlignmentEvent}
    (h : validateAlignmentEvents tokenCount record raw = .ok events) :
    events = (raw.eventMemory.take raw.alignmentEventCount).map alignmentEvent := by
  rw [validateAlignmentEvents] at h
  by_cases hvalid : raw.flags &&& audioFlagAlignmentValid = 0
  · rw [if_pos hvalid] at h
    simp only [bind_invalidNativeIf_eq_ok] at h
    obtain ⟨-, hnull, h⟩ := h
    cases h
    rw [not_or, not_not] at hnull
    rw [hnull.1]
    rfl
  · rw [if_neg hvalid, bind_invalidNativeIf_eq_ok] at h
    obtain ⟨-, h⟩ := h
    by_cases hcount : raw.alignmentEventCount = 0
    · rw [if_pos hcount] at h
      simp only [bind_invalidNativeIf_eq_ok] at h
      obtain ⟨-, -, h⟩ := h
      cases h
      rw [hcount]
      rfl
    · rw [if_neg hcount] at h
      exact events_eq_of_validateEventRegion h

theorem events_eq_of_validateAudioLease {events : List AlignmentEvent}
    (h : (validateAudioLease tokenCount record raw).1 = .ok events) :
    events = (raw.eventMemory.take raw.alignmentEventCount).map alignmentEvent := by
  rw [validateAudioLease] at h
  split at h
  · cases h
  · change validateLeaseContents tokenCount record raw = .ok events at h
    rw [validateLeaseContents, bind_invalidNativeIf_eq_ok] at h
    obtain ⟨-, h⟩ := h
    obtain ⟨_, -, h⟩ := exists_of_bind_eq_ok h
    simp only [bind_invalidNativeIf_eq_ok] at h
    obtain ⟨-, -, -, -, h⟩ := h
    obtain ⟨events', hevents, h⟩ := exists_of_bind_eq_ok h
    obtain ⟨_, -, h⟩ := exists_of_bind_eq_ok h
    cases h
    exact events_eq_of_validateAlignmentEvents hevents

end Accepted

end MagpieTts.Rust
