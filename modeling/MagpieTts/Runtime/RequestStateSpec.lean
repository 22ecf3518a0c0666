import Mathlib.Data.List.Basic
import Mathlib.Algebra.Order.BigOperators.Group.List
import Mathlib.Algebra.Order.Ring.Nat
import MagpieTts.Runtime.RequestState

/-!
# What the operations of a request state do

One lemma for each operation of `StreamingRequestState`, under the invariant that the occupied
frames are those of the queue and of the leases.

## Main definitions

* `StreamingRequestState.ValidChunk`: what `validate_chunk_locked` accepts.
* `StreamingRequestState.Accounted`: the accounting invariant of the PCM ring.

## Main results

* `StreamingRequestState.validateChunk_eq_ok_iff`: the validation accepts exactly the valid chunks.
* `StreamingRequestState.publish_cases` and its companions: the ways an operation can end.
-/

namespace MagpieTts.Runtime

namespace StreamingRequestState

variable {self next : StreamingRequestState} {chunk : AudioChunk}

/-! ### The validation of a chunk -/

theorem failStateIf_eq_ok_iff {condition : Prop} [Decidable condition]
    {code : RequestStateErrorCode} {detail : String} {index : ℤ} :
    failStateIf condition code detail index = .ok () ↔ ¬ condition := by
  rw [failStateIf]
  split_ifs with h <;> simp [h]

theorem bind_eq_ok_iff {β : Type} {check : Except RequestStateError Unit}
    {rest : Unit → Except RequestStateError β} {value : β} :
    (check >>= rest) = .ok value ↔ check = .ok () ∧ rest () = .ok value := by
  cases check with
  | error e => simp [bind, Except.bind]
  | ok u => simp [bind, Except.bind]

/-- The events advance strictly, in samples up to `chunkEnd` and in tokens up to `textTokens`. -/
def EventsAdvance (textTokens chunkEnd : ℕ) :
    (previousSample previousTokens : ℕ) → List AlignmentProgress → Prop
  | _, _, [] => True
  | previousSample, previousTokens, event :: events =>
      (previousSample < event.sampleIndex ∧ event.sampleIndex ≤ chunkEnd ∧
        event.sampleIndex % kCodecSamplesPerFrame = 0) ∧
      (previousTokens < event.committedTextTokens ∧ event.committedTextTokens ≤ textTokens) ∧
      EventsAdvance textTokens chunkEnd event.sampleIndex event.committedTextTokens events

theorem validateEvents_eq_ok_iff {chunkEnd : ℕ} : (events : List AlignmentProgress) →
    {eventIndex previousSample previousTokens : ℕ} →
    (self.validateEvents chunkEnd eventIndex previousSample previousTokens events = .ok () ↔
      EventsAdvance self.textTokenCount chunkEnd previousSample previousTokens events)
  | [], _, _, _ => by simp [validateEvents, EventsAdvance]
  | event :: events, eventIndex, previousSample, previousTokens => by
      rw [validateEvents, EventsAdvance, bind_eq_ok_iff, bind_eq_ok_iff, failStateIf_eq_ok_iff,
        failStateIf_eq_ok_iff, validateEvents_eq_ok_iff events]
      simp only [not_or, Nat.not_le, Nat.not_lt, ne_eq, not_not]

/-- The chunks that `validate_chunk_locked` accepts. -/
structure ValidChunk (request : StreamingRequestState) (chunk : AudioChunk) : Prop where
  running : request.state = .running
  frames_le : chunk.codecFrameCount ≤ 8
  marker : chunk.codecFrameCount = 0 → chunk.final = true ∧ chunk.first = false
  sampleCount_eq : chunk.samples.sampleCount = chunk.codecFrameCount * kCodecSamplesPerFrame
  firstSampleIndex_eq : chunk.firstSampleIndex = request.nextSampleIndex
  sequence_eq : chunk.sequence = request.nextSequence
  first_eq : chunk.first = decide (request.nextSequence = 0)
  first_frames : chunk.first = true → chunk.codecFrameCount = 4
  steady_frames : chunk.first = false → chunk.final = false → chunk.codecFrameCount = 8
  fits : chunk.codecFrameCount ≤
    subUint32 request.pcmRingCapacityFrames request.occupiedCodecFrames
  invalid_alignment : chunk.alignmentValid = false →
    chunk.alignmentEvents = [] ∧ chunk.committedTextTokens = 0
  committed_range : chunk.alignmentValid = true →
    request.committedTextTokens ≤ chunk.committedTextTokens ∧
      chunk.committedTextTokens ≤ request.textTokenCount
  committed_eq : chunk.alignmentValid = true → chunk.alignmentEvents = [] →
    chunk.committedTextTokens = request.committedTextTokens
  events_advance : EventsAdvance request.textTokenCount
    (addUint64 chunk.firstSampleIndex (chunk.codecFrameCount * kCodecSamplesPerFrame))
    chunk.firstSampleIndex request.committedTextTokens chunk.alignmentEvents
  committed_last : chunk.alignmentValid = true → ∀ last ∈ chunk.alignmentEvents.getLast?,
    chunk.committedTextTokens = last.committedTextTokens

theorem validateChunk_eq_ok_iff : self.validateChunk chunk = .ok () ↔ self.ValidChunk chunk := by
  simp only [validateChunk, bind_eq_ok_iff, failStateIf_eq_ok_iff, validateEvents_eq_ok_iff]
  constructor
  · rintro ⟨hrunning, hframes, hmarker, hcount, hsample, hsequence, hfirst, hfour, height, hfits,
      hinvalid, hrange, hempty, hevents, hlast⟩
    exact
      { running := not_not.mp hrunning
        frames_le := Nat.not_lt.mp hframes
        marker := by
          intro hzero
          simp only [hzero, true_and, not_or, Bool.not_eq_true, Bool.not_eq_false] at hmarker
          exact ⟨hmarker.1, hmarker.2.1⟩
        sampleCount_eq := not_not.mp hcount
        firstSampleIndex_eq := not_not.mp hsample
        sequence_eq := not_not.mp hsequence
        first_eq := not_not.mp hfirst
        first_frames := fun h => not_not.mp fun hne => hfour ⟨h, hne⟩
        steady_frames := fun h h' => not_not.mp fun hne => height ⟨h, h', hne⟩
        fits := Nat.not_lt.mp hfits
        invalid_alignment := by
          intro h
          simpa only [h, true_and, not_or, ne_eq, not_not] using hinvalid
        committed_range := by
          intro h
          simpa only [h, true_and, not_or, Nat.not_lt] using hrange
        committed_eq := fun h h' => not_not.mp fun hne => hempty ⟨h, h', hne⟩
        events_advance := hevents
        committed_last := fun h last hmem => not_not.mp fun hne => hlast ⟨h, last, hmem, hne⟩ }
  · intro h
    refine ⟨not_not.mpr h.running, Nat.not_lt.mpr h.frames_le, ?_, not_not.mpr h.sampleCount_eq,
      not_not.mpr h.firstSampleIndex_eq, not_not.mpr h.sequence_eq, not_not.mpr h.first_eq,
      fun hne => hne.2 (h.first_frames hne.1), fun hne => hne.2.2 (h.steady_frames hne.1 hne.2.1),
      Nat.not_lt.mpr h.fits, ?_, ?_, fun hne => hne.2.2 (h.committed_eq hne.1 hne.2.1),
      h.events_advance, ?_⟩
    · rintro ⟨hzero, hwrong⟩
      obtain ⟨hfinal, hfirst⟩ := h.marker hzero
      have hcount := h.sampleCount_eq
      rw [hzero, Nat.zero_mul] at hcount
      simp [hfinal, hfirst, hcount] at hwrong
    · rintro ⟨hvalid, hwrong⟩
      simp [h.invalid_alignment hvalid] at hwrong
    · rintro ⟨hvalid, hwrong⟩
      have := h.committed_range hvalid
      omega
    · rintro ⟨hvalid, last, hmem, hne⟩
      exact hne (h.committed_last hvalid last hmem)

/-! ### The accounting of the ring -/

/-- The frames of the chunks in the queue. -/
def queueFrames (request : StreamingRequestState) : ℕ :=
  (request.availableAudio.map AudioChunk.codecFrameCount).sum

/-- The frames of the chunks on lease. -/
def leaseFrames (request : StreamingRequestState) : ℕ :=
  (request.liveLeases.map fun lease => lease.chunk.codecFrameCount).sum

/-- The occupied frames are those of the queue and of the leases, and fit in the ring. -/
structure Accounted (request : StreamingRequestState) : Prop where
  occupied_eq : request.occupiedCodecFrames = request.queueFrames + request.leaseFrames
  occupied_le : request.occupiedCodecFrames ≤ request.pcmRingCapacityFrames
  capacity_le : request.pcmRingCapacityFrames ≤ maximumUint32

theorem Accounted.subUint32_eq (h : self.Accounted) :
    subUint32 self.pcmRingCapacityFrames self.occupiedCodecFrames =
      self.pcmRingCapacityFrames - self.occupiedCodecFrames :=
  Runtime.subUint32_eq h.occupied_le h.capacity_le

theorem canPublish_iff (h : self.Accounted) {codecFrames : ℕ} :
    self.canPublish codecFrames = true ↔
      self.state = .running ∧ self.cancellationRequested = false ∧ 0 < codecFrames ∧
        self.occupiedCodecFrames + codecFrames ≤ self.pcmRingCapacityFrames := by
  have hle := h.occupied_le
  simp only [canPublish, h.subUint32_eq, Bool.and_eq_true, decide_eq_true_eq, Bool.not_eq_true',
    and_assoc]
  refine and_congr_right fun _ => and_congr_right fun _ => and_congr_right fun _ => ?_
  omega

/-- The state without its queue. -/
def withoutQueue (request : StreamingRequestState) : StreamingRequestState :=
  { request with occupiedCodecFrames := request.leaseFrames, availableAudio := [] }

theorem subtractFrames_eq : (chunks : List AudioChunk) → {occupied : ℕ} →
    (chunks.map AudioChunk.codecFrameCount).sum ≤ occupied →
    subtractFrames occupied chunks =
      (.ok (), occupied - (chunks.map AudioChunk.codecFrameCount).sum)
  | [], _, _ => by simp [subtractFrames]
  | chunk :: chunks, occupied, h => by
      rw [List.map_cons, List.sum_cons] at h ⊢
      rw [subtractFrames, if_neg (by omega), subtractFrames_eq chunks (by omega), Nat.sub_sub]

theorem discardUnleasedAudio_eq (h : self.Accounted) :
    self.discardUnleasedAudio = (.ok (), self.withoutQueue) := by
  have hocc := h.occupied_eq
  rw [queueFrames] at hocc
  rw [discardUnleasedAudio, subtractFrames_eq _ (by omega), withoutQueue]
  simp only [hocc, Nat.add_sub_cancel_left]

theorem Accounted.withoutQueue (h : self.Accounted) : self.withoutQueue.Accounted where
  occupied_eq := by
    simp [StreamingRequestState.withoutQueue, queueFrames, leaseFrames]
  occupied_le := by
    have hocc := h.occupied_eq
    have hle := h.occupied_le
    change self.leaseFrames ≤ self.pcmRingCapacityFrames
    omega
  capacity_le := h.capacity_le

/-! ### The revision -/

/-- The state with the next revision, unless the revisions are exhausted. -/
def bumped (request : StreamingRequestState) : StreamingRequestState :=
  if request.revision = maximumUint64 then request
  else { request with revision := request.revision + 1 }

theorem incrementRevision_snd {β : Type} (value : β) :
    (self.incrementRevision value).2 = self.bumped := by
  rw [incrementRevision, bumped]
  split <;> rfl

theorem incrementRevision_of_lt {β : Type} (h : self.revision ≠ maximumUint64) (value : β) :
    self.incrementRevision value = (.ok value, { self with revision := self.revision + 1 }) :=
  if_neg h

/-- A predicate on states that does not look at the revision. -/
theorem bumped_induction {P : StreamingRequestState → Prop} (h : P self)
    (hrevision : P { self with revision := self.revision + 1 }) : P self.bumped := by
  rw [bumped]
  split
  · exact h
  · exact hrevision

/-! ### The operations -/

theorem publish_of_cancelled (h : self.cancellationRequested = true) :
    self.publish chunk = (.ok false, self) := by
  rw [publish, if_pos h]

theorem publish_of_not_valid (hopen : self.cancellationRequested = false)
    (h : ¬ self.ValidChunk chunk) : ∃ error, self.publish chunk = (.error error, self) := by
  rw [publish, hopen, if_neg Bool.false_ne_true]
  cases hvalid : self.validateChunk chunk with
  | error error => exact ⟨error, rfl⟩
  | ok u => exact absurd (validateChunk_eq_ok_iff.mp hvalid) h

theorem publish_of_valid (hopen : self.cancellationRequested = false) (h : self.ValidChunk chunk) :
    self.publish chunk = (self.acceptChunk chunk).incrementRevision true := by
  rw [publish, hopen, if_neg Bool.false_ne_true, validateChunk_eq_ok_iff.mpr h]

theorem requestCancellation_of_ne (h : self.state ≠ .running) :
    self.requestCancellation = (.ok (self.state = .cancelled), self) := by
  rw [requestCancellation]
  by_cases hcancelled : self.state = .cancelled
  · rw [if_pos hcancelled, decide_eq_true hcancelled]
  · rw [if_neg hcancelled, if_pos h, decide_eq_false hcancelled]

theorem requestCancellation_of_requested (h : self.state = .running)
    (hrequested : self.cancellationRequested = true) :
    self.requestCancellation = (.ok true, self) := by
  rw [requestCancellation, if_neg (by rw [h]; decide), if_neg (not_not.mpr h), if_pos hrequested]

/-- The state right behind an accepted cancellation. -/
def cancelRequested (request : StreamingRequestState) : StreamingRequestState :=
  { request.withoutQueue with cancellationRequested := true }

theorem requestCancellation_of_open (h : self.Accounted) (hrunning : self.state = .running)
    (hopen : self.cancellationRequested = false) :
    self.requestCancellation = self.cancelRequested.incrementRevision true := by
  have haccounted : ({ self with cancellationRequested := true }).Accounted :=
    ⟨h.occupied_eq, h.occupied_le, h.capacity_le⟩
  rw [requestCancellation, if_neg (by rw [hrunning]; decide), if_neg (not_not.mpr hrunning), hopen,
    if_neg Bool.false_ne_true, discardUnleasedAudio_eq haccounted]
  rfl

/-- The cancelled state. -/
def cancelCompleted (request : StreamingRequestState) : StreamingRequestState :=
  { request.withoutQueue with
    state := .cancelled
    terminalStatus := 10
    terminalErrorStage := 6
    terminalErrorMessage := [] }

theorem completeCancellation_of_not (h : ¬ (self.state = .running ∧
    self.cancellationRequested = true)) :
    ∃ error, self.completeCancellation = (.error error, self) := by
  rw [not_and_or, Bool.not_eq_true] at h
  exact ⟨_, by rw [completeCancellation, if_pos h]⟩

theorem completeCancellation_of_requested (h : self.Accounted) (hrunning : self.state = .running)
    (hrequested : self.cancellationRequested = true) :
    self.completeCancellation = (.ok (), self.cancelCompleted) := by
  rw [completeCancellation, if_neg (by simp [hrunning, hrequested]), discardUnleasedAudio_eq h]
  rfl

theorem completeCancellationAfterDrain_of_not (h : ¬ (self.state = .running ∧
    self.cancellationRequested = true)) :
    self.completeCancellationAfterDrain = (.ok false, self) := by
  rw [completeCancellationAfterDrain, if_pos]
  rw [not_and_or, Bool.not_eq_true] at h
  exact h

theorem completeCancellationAfterDrain_of_requested (h : self.Accounted)
    (hrunning : self.state = .running) (hrequested : self.cancellationRequested = true) :
    self.completeCancellationAfterDrain = self.cancelCompleted.incrementRevision true := by
  rw [completeCancellationAfterDrain, if_neg (by simp [hrunning, hrequested]),
    completeCancellation_of_requested h hrunning hrequested]

/-- The arguments that `fail` rejects. -/
def RejectsFailure (status stage : ℤ) (message : List UInt8) : Prop :=
  status ≤ 0 ∨ status = 3 ∨ status = 10 ∨ status = 11 ∨ status = 12 ∨ stage ≤ 0 ∨ message = []

/-- The failed state. -/
def failed (request : StreamingRequestState) (status stage : ℤ) (message : List UInt8) :
    StreamingRequestState :=
  { request.withoutQueue with
    state := .failed
    terminalStatus := status
    terminalErrorStage := stage
    terminalErrorMessage := message }

variable {status stage : ℤ} {message : List UInt8}

theorem fail_of_not (h : RejectsFailure status stage message ∨ self.state ≠ .running) :
    ∃ error, self.fail status stage message = (.error error, self) := by
  rw [RejectsFailure] at h
  rw [fail]
  split_ifs with hrejects hstate
  · exact ⟨_, rfl⟩
  · exact ⟨_, rfl⟩
  · exact absurd h (not_or.mpr ⟨hrejects, hstate⟩)

theorem fail_of_running (h : self.Accounted) (hargs : ¬ RejectsFailure status stage message)
    (hrunning : self.state = .running) :
    self.fail status stage message = (self.failed status stage message).incrementRevision () := by
  rw [RejectsFailure] at hargs
  rw [fail, if_neg hargs, if_neg (not_not.mpr hrunning), discardUnleasedAudio_eq h]
  rfl

variable {ids : LeaseIdSequence}

theorem acquireAudio_of_nil (h : self.availableAudio = []) :
    ∃ error, self.acquireAudio ids = (.error error, self, ids) := by
  rw [acquireAudio, h]
  exact ⟨_, rfl⟩

theorem acquireAudio_of_exhausted (h : ids.Exhausted) :
    ∃ error, self.acquireAudio ids = (.error error, self, ids) := by
  cases havailable : self.availableAudio with
  | nil => exact acquireAudio_of_nil havailable
  | cons chunk rest =>
    rw [acquireAudio, havailable]
    simp only [LeaseIdSequence.acquire, if_pos h]
    exact ⟨_, rfl⟩

/-- The state with the front of its queue on lease. -/
def leased (request : StreamingRequestState) (rest : List AudioChunk) (stored : StoredLease) :
    StreamingRequestState :=
  { request with
    availableAudio := rest
    liveLeases := request.liveLeases ++ [stored] }

theorem acquireAudio_of_cons {rest : List AudioChunk}
    (havailable : self.availableAudio = chunk :: rest)
    (hids : ¬ ids.Exhausted) (hfresh : ∀ lease ∈ self.liveLeases, lease.leaseId ≠ ids.next) :
    self.acquireAudio ids =
      (((self.leased rest ⟨ids.next, chunk⟩).incrementRevision
        (StoredLease.view ⟨ids.next, chunk⟩)).1,
        (self.leased rest ⟨ids.next, chunk⟩).bumped, ⟨ids.next + 1⟩) := by
  have hany : (self.liveLeases.any fun lease => lease.leaseId = ids.next) = false := by
    simpa using hfresh
  rw [acquireAudio, havailable]
  simp only [LeaseIdSequence.acquire, if_neg hids, hany, Bool.false_eq_true, if_false]
  rw [← incrementRevision_snd]
  rfl

theorem releaseAudio_of_none {leaseId : ℕ}
    (h : (self.liveLeases.find? fun lease => lease.leaseId = leaseId) = none) :
    ∃ error, self.releaseAudio leaseId = (.error error, self) := by
  rw [releaseAudio, h]
  exact ⟨_, rfl⟩

/-- The state without a lease. -/
def unleased (request : StreamingRequestState) (found : StoredLease) : StreamingRequestState :=
  { request with
    occupiedCodecFrames := request.occupiedCodecFrames - found.chunk.codecFrameCount
    liveLeases := request.liveLeases.eraseP fun lease => lease.leaseId = found.leaseId }

theorem releaseAudio_of_some (h : self.Accounted) {leaseId : ℕ} {found : StoredLease}
    (hfind : (self.liveLeases.find? fun lease => lease.leaseId = leaseId) = some found) :
    self.releaseAudio leaseId = (self.unleased found).incrementRevision () := by
  have hmem := List.mem_of_find?_eq_some hfind
  have hid : found.leaseId = leaseId := by simpa using List.find?_some hfind
  have hle : found.chunk.codecFrameCount ≤ self.leaseFrames :=
    List.le_sum_of_mem (List.mem_map.mpr ⟨found, hmem, rfl⟩)
  have hocc := h.occupied_eq
  rw [releaseAudio, hfind]
  simp only
  rw [if_neg (by omega), unleased, hid]

end StreamingRequestState

end MagpieTts.Runtime
