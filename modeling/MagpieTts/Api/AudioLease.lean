import MagpieTts.Api.PublicSnapshot
import MagpieTts.Runtime.RequestAllocation

/-!
# The audio leases of the C interface

`mtt_request_audio_acquire` and `mtt_request_audio_release` of `magpie_tts_rt.cpp`: a lease of the
request state, laid out as `mtt_audio_lease_v1_t`, with a copy of its alignment events that the
request handle keeps until the release.

## Main definitions

* `AudioLeaseV1`, `AlignmentEventV1`: the structures that cross the interface.
* `RequestHandle`: the request state, and the table of the copied events.
* `RequestHandle.audioAcquire`, `RequestHandle.audioRelease`: the two functions.
-/

namespace MagpieTts.Api

open MagpieTts.Runtime

/-- The size of `mtt_alignment_event_v1_t`: two header fields, two words and two reserved words. -/
def alignmentEventSize : ℕ := 8 + 16 + 16

/-- The size of `mtt_audio_lease_v1_t`. -/
def audioLeaseSize : ℕ := 8 + 40 + 16 + 24 + 16

/-- `mtt_alignment_event_v1_t`. -/
structure AlignmentEventV1 where
  structSize : ℕ
  abiVersion : ℕ
  sampleIndex : ℕ
  committedTextTokens : ℕ
  reserved : List ℕ
  deriving DecidableEq

/-- `mtt_audio_lease_v1_t`. The two pointers are addresses, zero for a null pointer; `eventMemory`
is what lies at the address of the events. -/
structure AudioLeaseV1 where
  structSize : ℕ
  abiVersion : ℕ
  leaseId : ℕ
  samples : ℕ
  sampleCount : ℕ
  firstSampleIndex : ℕ
  sequence : ℕ
  sampleRateHz : ℕ
  channels : ℕ
  format : ℤ
  flags : ℕ
  committedTextTokens : ℕ
  alignmentEvents : ℕ
  alignmentEventCount : ℕ
  reserved : List ℕ
  eventMemory : List AlignmentEventV1
  deriving DecidableEq

/-- `kStreamingSampleRateHz`. -/
def streamingSampleRateHz : ℕ := 22050

/-- `MTT_PCM_FORMAT_F32_MONO`. -/
def pcmFormatF32Mono : ℤ := 1

/-- `MTT_AUDIO_FLAG_FIRST`. -/
def audioFlagFirst : ℕ := 1

/-- `MTT_AUDIO_FLAG_FINAL`. -/
def audioFlagFinal : ℕ := 2

/-- `MTT_AUDIO_FLAG_ALIGNMENT_VALID`. -/
def audioFlagAlignmentValid : ℕ := 4

/-- The copy of an alignment event. -/
def alignmentEventV1 (source : AlignmentProgress) : AlignmentEventV1 where
  structSize := alignmentEventSize
  abiVersion := abiVersion1
  sampleIndex := source.sampleIndex
  committedTextTokens := source.committedTextTokens
  reserved := [0, 0]

/-- The flags of a lease. -/
def audioFlags (view : AudioLeaseView) : ℕ :=
  (if view.first then audioFlagFirst else 0) ||| (if view.final then audioFlagFinal else 0) |||
    (if view.alignmentValid then audioFlagAlignmentValid else 0)

/-- The lease of a view, whose copied events lie in `storage`. -/
def audioLeaseV1 (storage : HostAllocation) (view : AudioLeaseView) : AudioLeaseV1 where
  structSize := audioLeaseSize
  abiVersion := abiVersion1
  leaseId := view.leaseId
  samples := view.samples
  sampleCount := view.sampleCount
  firstSampleIndex := view.firstSampleIndex
  sequence := view.sequence
  sampleRateHz := streamingSampleRateHz
  channels := 1
  format := pcmFormatF32Mono
  flags := audioFlags view
  committedTextTokens := view.committedTextTokens
  alignmentEvents := if view.alignmentEvents = [] then 0 else storage.address
  alignmentEventCount := view.alignmentEvents.length
  reserved := [0, 0]
  eventMemory := view.alignmentEvents.map alignmentEventV1

/-- The fields of a request handle that the two functions use, with the process-wide identifiers. -/
structure RequestHandle where
  request : StreamingRequestState
  leaseIds : LeaseIdSequence
  leaseAlignmentEvents : List (ℕ × List AlignmentEventV1)
  deriving DecidableEq

namespace RequestHandle

variable (self : RequestHandle) (fails : AllocationPoint → Bool)

/-- The compensating release, which may throw another error in place of the one on its way. -/
def releaseAcquired {β : Type} (leaseId : ℕ) (outcome : Except HandOverError β) :
    Except HandOverError β × RequestHandle :=
  let (released, request) := self.request.releaseAudio leaseId
  match released with
  | .ok () => (outcome, { self with request })
  | .error error => (.error (throwState fails error), { self with request })

/-- The body of `audio_acquire` behind its argument checks. No lease is returned for an identifier
that is already in the table. -/
def acquireLease (storage : HostAllocation) :
    Except HandOverError (Option AudioLeaseV1) × RequestHandle :=
  match self.request.acquireAudioAllocating fails self.leaseIds with
  | (.error error, request, leaseIds) => (.error error, { self with request, leaseIds })
  | (.ok view, request, leaseIds) =>
    let acquired : RequestHandle := { self with request, leaseIds }
    let events := view.alignmentEvents.map alignmentEventV1
    -- an empty vector does not allocate
    if events ≠ [] ∧ fails .eventVector = true then
      acquired.releaseAcquired fails view.leaseId (.error .badAlloc)
    else if fails .tableNode then
      acquired.releaseAcquired fails view.leaseId (.error .badAlloc)
    else if acquired.leaseAlignmentEvents.any fun entry => entry.1 = view.leaseId then
      match acquired.releaseAcquired fails view.leaseId (.ok none) with
      | (.ok lease, released) => (.ok lease, released)
      | (.error error, released) => released.releaseAcquired fails view.leaseId (.error error)
    else
      (.ok (some (audioLeaseV1 storage view)),
        { acquired with
          leaseAlignmentEvents := acquired.leaseAlignmentEvents ++ [(view.leaseId, events)] })

/-- The status that `audio_acquire` returns. -/
def acquireStatus : Except HandOverError (Option AudioLeaseV1) → ℤ
  | .ok (some _) => 0
  | .ok none => 13
  | .error (.state error) =>
    if error.code = .noAudio then 11 else if error.code = .leaseSequenceExhausted then 13 else 15
  | .error .badAlloc => 15

/-- `audio_acquire` behind its argument checks: the status, and the lease of a success. A status of
`MTT_STATUS_POISONED` poisons the session. -/
def audioAcquire (storage : HostAllocation) : (ℤ × Option AudioLeaseV1) × RequestHandle :=
  let (outcome, handle) := self.acquireLease fails storage
  match outcome with
  | .ok lease => ((acquireStatus outcome, lease), handle)
  | .error _ => ((acquireStatus outcome, none), handle)

/-- `audio_release` behind its argument checks. -/
def audioRelease (leaseId : ℕ) : ℤ × RequestHandle :=
  if self.leaseAlignmentEvents.any fun entry => entry.1 = leaseId then
    match self.request.releaseAudio leaseId with
    | (.ok (), request) =>
      (0, { self with
        request
        leaseAlignmentEvents :=
          self.leaseAlignmentEvents.eraseP fun entry => entry.1 = leaseId })
    | (.error _, request) => (15, { self with request })
  else
    (1, self)

end RequestHandle

end MagpieTts.Api
