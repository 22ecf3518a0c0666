import MagpieTts.Runtime.RequestStateSpec

/-!
# Allocations of a request state

`publish` and `acquire_audio` with the allocations that they make on their way. An allocation that
fails throws a `std::bad_alloc` from where it stands, with all writes in front of it done.

## Main definitions

* `AllocationPoint`: the allocations of the hand-over of audio.
* `StreamingRequestState.publishAllocating`, `StreamingRequestState.acquireAudioAllocating`: the two
  operations under a choice of the allocations that fail.
* `KeepsAudio`: what an operation that fails is to leave as it was.

## Main results

* `StreamingRequestState.publishAllocating_of_none`,
  `StreamingRequestState.acquireAudioAllocating_of_none`: without a failure they are the operations
  of the request state.
-/

namespace MagpieTts.Runtime

/-- A host allocation. The allocator returns an address that is aligned for every scalar, or
fails. -/
structure HostAllocation where
  address : ℕ
  address_ne_zero : address ≠ 0
  aligned : address % 16 = 0

/-- The allocations of the hand-over: the text of a `RequestStateError`, the node of the queue, the
node of the lease map, and in the C interface the vector of alignment events and the node of the
table that keeps it. -/
inductive AllocationPoint where
  | errorText
  | queueNode
  | leaseNode
  | eventVector
  | tableNode
  deriving DecidableEq

inductive HandOverError where
  | state (error : RequestStateError)
  | badAlloc
  deriving DecidableEq

/-- An error of the request state, whose text has to be composed first. -/
def throwState (fails : AllocationPoint → Bool) (error : RequestStateError) : HandOverError :=
  if fails .errorText then .badAlloc else .state error

/-- The end of an operation, whose error is composed. -/
def throwOutcome {β : Type} (fails : AllocationPoint → Bool) :
    Except RequestStateError β → Except HandOverError β
  | .ok value => .ok value
  | .error error => .error (throwState fails error)

theorem throwOutcome_ne_badAlloc {β : Type} (outcome : Except RequestStateError β) :
    throwOutcome (fun _ => false) outcome ≠ .error .badAlloc := by
  cases outcome <;> simp [throwOutcome, throwState]

/-- The text of an error is the only allocation at the end of an operation. -/
theorem throwOutcome_incrementRevision_ne_iff {β : Type} (fails : AllocationPoint → Bool)
    (request : StreamingRequestState) (value : β) :
    throwOutcome fails (request.incrementRevision value).1 ≠
        throwOutcome (fun _ => false) (request.incrementRevision value).1 ↔
      request.revision = maximumUint64 ∧ fails .errorText = true := by
  rw [StreamingRequestState.incrementRevision]
  split_ifs with hmax
  · cases htext : fails .errorText <;> simp [throwOutcome, throwState, hmax, htext]
  · simp [throwOutcome, hmax]

namespace StreamingRequestState

variable (self : StreamingRequestState) (fails : AllocationPoint → Bool)

/-- The writes of `publish` in front of its `push_back`. -/
def advanceCounters (chunk : AudioChunk) : StreamingRequestState :=
  { self with
    committedTextTokens :=
      if chunk.alignmentValid then chunk.committedTextTokens else self.committedTextTokens
    nextSampleIndex := addUint64 self.nextSampleIndex chunk.samples.sampleCount
    nextSequence := addUint64 self.nextSequence 1
    generatedCodecFrames := addUint64 self.generatedCodecFrames chunk.codecFrameCount
    publishedSamples := addUint64 self.publishedSamples chunk.samples.sampleCount
    occupiedCodecFrames := addUint32 self.occupiedCodecFrames chunk.codecFrameCount }

/-- `publish`. -/
def publishAllocating (chunk : AudioChunk) : Except HandOverError Bool × StreamingRequestState :=
  if self.cancellationRequested then
    (.ok false, self)
  else
    match self.validateChunk chunk with
    | .error error => (.error (throwState fails error), self)
    | .ok () =>
      let counted := self.advanceCounters chunk
      if fails .queueNode then
        (.error .badAlloc, counted)
      else
        let (outcome, next) :=
          ({ counted with
              availableAudio := counted.availableAudio ++ [chunk]
              state := if chunk.final then .completed else counted.state
              : StreamingRequestState }).incrementRevision true
        (throwOutcome fails outcome, next)

/-- `acquire_audio`. -/
def acquireAudioAllocating (ids : LeaseIdSequence) :
    Except HandOverError AudioLeaseView × StreamingRequestState × LeaseIdSequence :=
  match self.availableAudio with
  | [] =>
    (.error (throwState fails ⟨.noAudio, "no audio chunk is currently available", -1⟩), self, ids)
  | chunk :: rest =>
    match ids.acquire with
    | (.error error, ids) => (.error (throwState fails error), self, ids)
    | (.ok leaseId, ids) =>
      let popped := { self with availableAudio := rest }
      if fails .leaseNode then
        (.error .badAlloc, popped, ids)
      else if popped.liveLeases.any fun lease => lease.leaseId = leaseId then
        (.error (throwState fails
          ⟨.invalidTransition, "process-wide lease identifier was reused", -1⟩), popped, ids)
      else
        let stored : StoredLease := { leaseId, chunk }
        let (outcome, next) :=
          ({ popped with liveLeases := popped.liveLeases ++ [stored] }).incrementRevision
            stored.view
        (throwOutcome fails outcome, next, ids)

variable {self} {fails}

/-! ### The ways through the two operations -/

theorem publishAllocating_of_cancelled (hcancelled : self.cancellationRequested = true)
    (chunk : AudioChunk) : self.publishAllocating fails chunk = (.ok false, self) := by
  rw [publishAllocating, if_pos hcancelled]

theorem publishAllocating_of_not_valid {chunk : AudioChunk}
    (hopen : self.cancellationRequested = false) (hvalid : ¬ self.ValidChunk chunk) :
    ∃ error, self.publish chunk = (.error error, self) ∧
      ∀ fails, self.publishAllocating fails chunk = (.error (throwState fails error), self) := by
  simp only [publishAllocating, publish, hopen, Bool.false_eq_true, if_false]
  cases hchecked : self.validateChunk chunk with
  | error error => exact ⟨error, rfl, fun _ => rfl⟩
  | ok u => exact absurd (validateChunk_eq_ok_iff.mp hchecked) hvalid

theorem publishAllocating_of_valid {chunk : AudioChunk}
    (hopen : self.cancellationRequested = false) (hvalid : self.ValidChunk chunk) :
    self.publishAllocating fails chunk =
      if fails .queueNode then (.error .badAlloc, self.advanceCounters chunk)
      else (throwOutcome fails ((self.acceptChunk chunk).incrementRevision true).1,
        ((self.acceptChunk chunk).incrementRevision true).2) := by
  rw [publishAllocating, hopen, if_neg Bool.false_ne_true, validateChunk_eq_ok_iff.mpr hvalid]
  rfl

variable {ids : LeaseIdSequence}

/-- The checks of `acquire_audio` write nothing. -/
theorem acquireAudioAllocating_of_not
    (hchecks : ¬ (self.availableAudio ≠ [] ∧ ¬ ids.Exhausted)) :
    ∃ error, self.acquireAudio ids = (.error error, self, ids) ∧
      ∀ fails, self.acquireAudioAllocating fails ids =
        (.error (throwState fails error), self, ids) := by
  simp only [acquireAudioAllocating, acquireAudio]
  cases havailable : self.availableAudio with
  | nil => exact ⟨_, rfl, fun _ => rfl⟩
  | cons chunk rest =>
    have hexhausted : ids.Exhausted := by
      by_contra hne
      exact hchecks ⟨by rw [havailable]; exact List.cons_ne_nil _ _, hne⟩
    simp only [LeaseIdSequence.acquire, if_pos hexhausted]
    exact ⟨_, rfl, fun _ => rfl⟩

theorem acquireAudioAllocating_of_cons {chunk : AudioChunk} {rest : List AudioChunk}
    (havailable : self.availableAudio = chunk :: rest) (hids : ¬ ids.Exhausted)
    (hfresh : ∀ lease ∈ self.liveLeases, lease.leaseId ≠ ids.next) :
    self.acquireAudioAllocating fails ids =
      if fails .leaseNode then
        (.error .badAlloc, { self with availableAudio := rest }, ⟨ids.next + 1⟩)
      else
        (throwOutcome fails ((self.leased rest ⟨ids.next, chunk⟩).incrementRevision
            (StoredLease.view ⟨ids.next, chunk⟩)).1,
          (self.leased rest ⟨ids.next, chunk⟩).bumped, ⟨ids.next + 1⟩) := by
  have hany : (self.liveLeases.any fun lease => lease.leaseId = ids.next) = false := by
    simpa using hfresh
  simp only [acquireAudioAllocating, havailable, LeaseIdSequence.acquire, if_neg hids, hany,
    Bool.false_eq_true, if_false, ← incrementRevision_snd (StoredLease.view ⟨ids.next, chunk⟩)]
  rfl

/-- Without a failing allocation it is the `publish` of the request state. -/
theorem publishAllocating_of_none (h : ∀ point, fails point = false) (chunk : AudioChunk) :
    self.publishAllocating fails chunk =
      (throwOutcome fails (self.publish chunk).1, (self.publish chunk).2) := by
  by_cases hcancelled : self.cancellationRequested = true
  · rw [publishAllocating_of_cancelled hcancelled, publish_of_cancelled hcancelled]
    rfl
  · rw [Bool.not_eq_true] at hcancelled
    by_cases hvalid : self.ValidChunk chunk
    · rw [publishAllocating_of_valid hcancelled hvalid, publish_of_valid hcancelled hvalid,
        h .queueNode, if_neg Bool.false_ne_true]
    · obtain ⟨error, hpublish, hallocating⟩ := publishAllocating_of_not_valid hcancelled hvalid
      rw [hallocating, hpublish]
      rfl

/-- The identifier of a view lies below the next one. -/
theorem acquireAudioAllocating_leaseId (self : StreamingRequestState)
    (fails : AllocationPoint → Bool) (ids : LeaseIdSequence) (view : AudioLeaseView)
    (hview : (self.acquireAudioAllocating fails ids).1 = .ok view) :
    view.leaseId < (self.acquireAudioAllocating fails ids).2.2.next := by
  revert hview
  rw [acquireAudioAllocating]
  cases self.availableAudio with
  | nil => exact fun hview => Except.noConfusion rfl rfl (heq_of_eq hview)
  | cons chunk rest =>
    by_cases hids : ids.Exhausted
    · simp [LeaseIdSequence.acquire, hids]
    · simp only [LeaseIdSequence.acquire, if_neg hids]
      split_ifs
      · exact fun hview => by cases hview
      · exact fun hview => by cases hview
      · rw [incrementRevision]
        split_ifs
        · exact fun hview => by cases hview
        · intro hview
          rw [← Except.ok.inj hview]
          exact Nat.lt_succ_self _

/-- Without a failing allocation it is the `acquire_audio` of the request state. -/
theorem acquireAudioAllocating_of_none (h : ∀ point, fails point = false) (ids : LeaseIdSequence) :
    self.acquireAudioAllocating fails ids =
      (throwOutcome fails (self.acquireAudio ids).1, (self.acquireAudio ids).2) := by
  rw [acquireAudioAllocating, acquireAudio]
  cases self.availableAudio with
  | nil => rfl
  | cons chunk rest =>
    rcases ids.acquire with ⟨error | leaseId, ids⟩
    · rfl
    · simp only [h, Bool.false_eq_true, if_false]
      split_ifs <;> rfl

end StreamingRequestState

/-! ### What a failed hand-over keeps -/

/-- The same available chunks in the same order, the same live leases, the same occupied frames and
the same counters of what was published. -/
structure KeepsAudio (before after : StreamingRequestState) : Prop where
  availableAudio_eq : after.availableAudio = before.availableAudio
  liveLeases_eq : after.liveLeases = before.liveLeases
  occupied_eq : after.occupiedCodecFrames = before.occupiedCodecFrames
  nextSequence_eq : after.nextSequence = before.nextSequence
  nextSampleIndex_eq : after.nextSampleIndex = before.nextSampleIndex
  publishedSamples_eq : after.publishedSamples = before.publishedSamples
  generatedCodecFrames_eq : after.generatedCodecFrames = before.generatedCodecFrames
  committedTextTokens_eq : after.committedTextTokens = before.committedTextTokens

theorem KeepsAudio.refl (request : StreamingRequestState) : KeepsAudio request request :=
  ⟨rfl, rfl, rfl, rfl, rfl, rfl, rfl, rfl⟩

end MagpieTts.Runtime
