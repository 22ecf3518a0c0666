import MagpieTts.Api.AudioLease
import MagpieTts.Runtime.RequestConservation

/-!
# Failing allocations in the hand-over of audio

An allocation that fails behind the checks of `publish`, `acquire_audio` or
`mtt_request_audio_acquire` leaves the request changed: the counters run ahead of the queue, or a
chunk that was taken from the queue is lost. Only the text of an error of the checks may fail to be
allocated without a trace.

## Main definitions

* `HandOver`, `RequestHandle.attempt`: the three operations under a choice of failing allocations.
* `RequestHandle.Atomic`: a call that fails for want of memory leaves the audio as it was.

## Main results

* `RequestHandle.atomic_iff`: when it does.
-/

namespace MagpieTts.Api

open MagpieTts.Library MagpieTts.Runtime

/-! ### The operations -/

inductive HandOver where
  | publish (chunk : AudioChunk)
  | acquireAudio
  | audioAcquire (storage : HostAllocation)

inductive HandOverOutcome where
  | published (outcome : Except HandOverError Bool)
  | acquired (outcome : Except HandOverError AudioLeaseView)
  | leased (outcome : Except HandOverError (Option AudioLeaseV1))

namespace RequestHandle

variable (self : RequestHandle) (fails : AllocationPoint → Bool)

/-- An operation, in which the chosen allocations fail where they are reached. -/
def attempt : HandOver → HandOverOutcome × RequestHandle
  | .publish chunk =>
    let (outcome, request) := self.request.publishAllocating fails chunk
    (.published outcome, { self with request })
  | .acquireAudio =>
    let (outcome, request, leaseIds) := self.request.acquireAudioAllocating fails self.leaseIds
    (.acquired outcome, { self with request, leaseIds })
  | .audioAcquire storage =>
    let (outcome, handle) := self.acquireLease fails storage
    (.leased outcome, handle)

/-- A failing allocation that changes the outcome of the call leaves the audio as it was. -/
def Atomic (call : HandOver) : Prop :=
  (self.attempt fails call).1 ≠ (self.attempt (fun _ => false) call).1 →
    KeepsAudio self.request (self.attempt fails call).2.request

/-- The checks of the call are passed. -/
def Proceeds : HandOver → Prop
  | .publish chunk => self.request.cancellationRequested = false ∧ self.request.ValidChunk chunk
  | .acquireAudio | .audioAcquire _ => self.request.availableAudio ≠ [] ∧ ¬ self.leaseIds.Exhausted

/-- The chunk that is acquired next carries alignment events. -/
def CarriesEvents : Prop := ∃ chunk ∈ self.request.availableAudio.head?, chunk.alignmentEvents ≠ []

/-- None of the allocations behind the checks fails. -/
def AllocatesBehindChecks : HandOver → Prop
  | .publish _ => fails .queueNode = false ∧
      (self.request.revision = maximumUint64 → fails .errorText = false)
  | .acquireAudio => fails .leaseNode = false ∧
      (self.request.revision = maximumUint64 → fails .errorText = false)
  | .audioAcquire _ => fails .leaseNode = false ∧
      if self.request.revision = maximumUint64 then fails .errorText = false
      else (self.CarriesEvents → fails .eventVector = false) ∧ fails .tableNode = false

end RequestHandle

/-! ### The leases of an operation -/

/-- The live leases of a request after an operation: those from before, or one with an identifier
that was drawn. The identifiers never go back. -/
structure DrawsLeases (before after : RequestSystem) : Prop where
  next_le : before.leaseIds.next ≤ after.leaseIds.next
  leases : ∀ lease ∈ after.request.liveLeases,
    lease ∈ before.request.liveLeases ∨ lease.leaseId < after.leaseIds.next

namespace DrawsLeases

variable {request request' : StreamingRequestState} {ids ids' : LeaseIdSequence}

theorem of_subset (hsubset : request'.liveLeases ⊆ request.liveLeases)
    (hids : ids.next ≤ ids'.next) : DrawsLeases ⟨request, ids⟩ ⟨request', ids'⟩ :=
  ⟨hids, fun _ hmem => Or.inl (hsubset hmem)⟩

theorem of_eq (heq : request'.liveLeases = request.liveLeases) :
    DrawsLeases ⟨request, ids⟩ ⟨request', ids⟩ :=
  of_subset (heq ▸ List.Subset.refl _) (le_refl _)

theorem trans {s t u : RequestSystem} (hst : DrawsLeases s t) (htu : DrawsLeases t u) :
    DrawsLeases s u := by
  refine ⟨hst.next_le.trans htu.next_le, fun lease hmem => ?_⟩
  rcases htu.leases lease hmem with hold | hnew
  · exact (hst.leases lease hold).imp id fun hlt => hlt.trans_le htu.next_le
  · exact Or.inr hnew

theorem incrementRevision {β : Type} (value : β)
    (hdraws : DrawsLeases ⟨request, ids⟩ ⟨request', ids'⟩) :
    DrawsLeases ⟨request, ids⟩ ⟨(request'.incrementRevision value).2, ids'⟩ := by
  rw [StreamingRequestState.incrementRevision]
  split <;> exact ⟨hdraws.next_le, hdraws.leases⟩

theorem acquire_next_le (ids : LeaseIdSequence) : ids.next ≤ ids.acquire.2.next := by
  rw [LeaseIdSequence.acquire]
  split_ifs
  · exact le_refl _
  · exact Nat.le_succ _

theorem publishAllocating (fails : AllocationPoint → Bool) (chunk : AudioChunk) :
    DrawsLeases ⟨request, ids⟩ ⟨(request.publishAllocating fails chunk).2, ids⟩ := by
  by_cases hcancelled : request.cancellationRequested = true
  · rw [StreamingRequestState.publishAllocating_of_cancelled hcancelled]
    exact of_eq rfl
  · rw [Bool.not_eq_true] at hcancelled
    by_cases hvalid : request.ValidChunk chunk
    · rw [StreamingRequestState.publishAllocating_of_valid hcancelled hvalid]
      split_ifs
      · exact of_eq rfl
      · exact incrementRevision true (of_eq rfl)
    · obtain ⟨error, -, hallocating⟩ :=
        StreamingRequestState.publishAllocating_of_not_valid hcancelled hvalid
      rw [hallocating]
      exact of_eq rfl

/-- The identifier of a lease is the one that was drawn for it. -/
theorem acquireAudioAllocating (fails : AllocationPoint → Bool) :
    DrawsLeases ⟨request, ids⟩ ⟨(request.acquireAudioAllocating fails ids).2.1,
      (request.acquireAudioAllocating fails ids).2.2⟩ := by
  rw [StreamingRequestState.acquireAudioAllocating]
  cases request.availableAudio with
  | nil => exact of_subset (List.Subset.refl _) (le_refl _)
  | cons chunk rest =>
    have hnext := acquire_next_le ids
    by_cases hids : ids.Exhausted
    · simp only [LeaseIdSequence.acquire, if_pos hids]
      exact of_subset (List.Subset.refl _) (le_refl _)
    · simp only [LeaseIdSequence.acquire, if_neg hids] at hnext ⊢
      split_ifs
      · exact of_subset (List.Subset.refl _) hnext
      · exact of_subset (List.Subset.refl _) hnext
      · refine incrementRevision _ ⟨hnext, fun lease hmem => ?_⟩
        rcases List.mem_append.mp hmem with hold | hnew
        · exact Or.inl hold
        · rw [List.mem_singleton.mp hnew]
          exact Or.inr (Nat.lt_succ_self _)

theorem releaseAudio (leaseId : ℕ) :
    DrawsLeases ⟨request, ids⟩ ⟨(request.releaseAudio leaseId).2, ids⟩ := by
  rw [StreamingRequestState.releaseAudio]
  cases request.liveLeases.find? fun lease => lease.leaseId = leaseId with
  | none => exact of_subset (List.Subset.refl _) (le_refl _)
  | some found =>
    simp only
    split_ifs
    · exact of_subset (List.Subset.refl _) (le_refl _)
    · exact incrementRevision _ (of_subset List.eraseP_subset (le_refl _))

/-- Emptying the queue does not touch the leases. -/
theorem discardUnleasedAudio_liveLeases (request : StreamingRequestState) :
    request.discardUnleasedAudio.2.liveLeases = request.liveLeases := by
  rw [StreamingRequestState.discardUnleasedAudio]
  split <;> rfl

theorem completeCancellation :
    DrawsLeases ⟨request, ids⟩ ⟨request.completeCancellation.2, ids⟩ := by
  have hdiscard := discardUnleasedAudio_liveLeases request
  rw [StreamingRequestState.completeCancellation]
  split_ifs
  · exact of_eq rfl
  · split <;> rename_i hresult <;> rw [hresult] at hdiscard <;> exact of_eq hdiscard

theorem step (c : RequestCall) :
    DrawsLeases ⟨request, ids⟩ (RequestSystem.step ⟨request, ids⟩ c) := by
  cases c with
  | publish chunk =>
    have hpublish : DrawsLeases ⟨request, ids⟩ _ := publishAllocating (fun _ => false) chunk
    rwa [StreamingRequestState.publishAllocating_of_none fun _ => rfl] at hpublish
  | discardUnleasedAudio => exact of_eq (discardUnleasedAudio_liveLeases request)
  | requestCancellation =>
    have hdiscard := discardUnleasedAudio_liveLeases { request with cancellationRequested := true }
    simp only [RequestSystem.step, RequestSystem.call, StreamingRequestState.requestCancellation]
    split_ifs
    · exact of_eq rfl
    · exact of_eq rfl
    · exact of_eq rfl
    · split <;> rename_i hresult <;> rw [hresult] at hdiscard
      · exact of_eq hdiscard
      · exact incrementRevision true (of_eq hdiscard)
  | completeCancellation => exact completeCancellation
  | completeCancellationAfterDrain =>
    have hcomplete : DrawsLeases ⟨request, ids⟩ _ := completeCancellation
    simp only [RequestSystem.step, RequestSystem.call,
      StreamingRequestState.completeCancellationAfterDrain]
    split_ifs
    · exact of_eq rfl
    · split <;> rename_i hdone <;> rw [hdone] at hcomplete
      · exact hcomplete
      · exact incrementRevision true hcomplete
  | fail status stage message =>
    have hdiscard := discardUnleasedAudio_liveLeases request
    simp only [RequestSystem.step, RequestSystem.call, StreamingRequestState.fail]
    split_ifs
    · exact of_eq rfl
    · exact of_eq rfl
    · split <;> rename_i hresult <;> rw [hresult] at hdiscard
      · exact of_eq hdiscard
      · exact incrementRevision () (of_eq hdiscard)
  | acquireAudio =>
    have hacquire : DrawsLeases ⟨request, ids⟩ _ := acquireAudioAllocating fun _ => false
    rwa [StreamingRequestState.acquireAudioAllocating_of_none fun _ => rfl] at hacquire
  | releaseAudio leaseId => exact releaseAudio leaseId
  | drawElsewhere => exact of_subset (List.Subset.refl _) (acquire_next_le ids)

end DrawsLeases

/-! ### The reachable handles -/

/-- A call on a request: one of the request state, or a hand-over under some choice of failing
allocations, or a release. -/
inductive HandleCall where
  | request (call : RequestCall)
  | handOver (fails : AllocationPoint → Bool) (call : HandOver)
  | audioRelease (leaseId : ℕ)

namespace RequestHandle

def start (request : StreamingRequestState) (leaseIds : LeaseIdSequence) : RequestHandle where
  request
  leaseIds
  leaseAlignmentEvents := []

def step (self : RequestHandle) : HandleCall → RequestHandle
  | .request call =>
    let next := (⟨self.request, self.leaseIds⟩ : RequestSystem).step call
    { self with request := next.request, leaseIds := next.leaseIds }
  | .handOver fails call => (self.attempt fails call).2
  | .audioRelease leaseId => (self.audioRelease leaseId).2

/-- Every identifier in use lies below the next one. -/
structure Fresh (handle : RequestHandle) : Prop where
  leases : ∀ lease ∈ handle.request.liveLeases, lease.leaseId < handle.leaseIds.next
  table : ∀ entry ∈ handle.leaseAlignmentEvents, entry.1 < handle.leaseIds.next

def system (self : RequestHandle) : RequestSystem := ⟨self.request, self.leaseIds⟩

variable {self : RequestHandle} {fails : AllocationPoint → Bool}

theorem Fresh.of_draws (hfresh : self.Fresh) {next : RequestHandle}
    (hdraws : DrawsLeases self.system next.system)
    (htable : ∀ entry ∈ next.leaseAlignmentEvents,
      entry ∈ self.leaseAlignmentEvents ∨ entry.1 < next.leaseIds.next) : next.Fresh where
  leases := fun lease hmem =>
    (hdraws.leases lease hmem).elim
      (fun hold => (hfresh.leases lease hold).trans_le hdraws.next_le) id
  table := fun entry hmem =>
    (htable entry hmem).elim (fun hold => (hfresh.table entry hold).trans_le hdraws.next_le) id

theorem releaseAcquired_snd {β : Type} (leaseId : ℕ) (outcome : Except HandOverError β) :
    (self.releaseAcquired fails leaseId outcome).2 =
      { self with request := (self.request.releaseAudio leaseId).2 } := by
  rw [releaseAcquired]
  rcases self.request.releaseAudio leaseId with ⟨error | u, request⟩ <;> rfl

theorem Fresh.releaseAcquired {β : Type} (hfresh : self.Fresh) (fails : AllocationPoint → Bool)
    (leaseId : ℕ)
    (outcome : Except HandOverError β) :
    (self.releaseAcquired fails leaseId outcome).2.Fresh := by
  rw [releaseAcquired_snd]
  exact hfresh.of_draws (DrawsLeases.releaseAudio leaseId) fun _ hmem => Or.inl hmem

theorem Fresh.acquireLease (hfresh : self.Fresh) (storage : HostAllocation) :
    (self.acquireLease fails storage).2.Fresh := by
  have hdraws : DrawsLeases self.system _ :=
    DrawsLeases.acquireAudioAllocating fails
  have hid := self.request.acquireAudioAllocating_leaseId fails self.leaseIds
  rw [RequestHandle.acquireLease]
  generalize self.request.acquireAudioAllocating fails self.leaseIds = acquired at hdraws hid ⊢
  obtain ⟨error | view, request, leaseIds⟩ := acquired
  · exact hfresh.of_draws hdraws fun _ hmem => Or.inl hmem
  · have hacquired : ({ self with request, leaseIds } : RequestHandle).Fresh :=
      hfresh.of_draws hdraws fun _ hmem => Or.inl hmem
    simp only
    split_ifs
    · exact hacquired.releaseAcquired _ _ _
    · exact hacquired.releaseAcquired _ _ _
    · have hreleased := hacquired.releaseAcquired fails view.leaseId
        (.ok none : Except HandOverError (Option AudioLeaseV1))
      split <;> rename_i hresult <;> rw [hresult] at hreleased
      · exact hreleased
      · exact hreleased.releaseAcquired _ _ _
    · refine hacquired.of_draws (DrawsLeases.of_eq rfl) fun entry hmem => ?_
      rcases List.mem_append.mp hmem with hold | hnew
      · exact Or.inl hold
      · rw [List.mem_singleton.mp hnew]
        exact Or.inr (hid view rfl)

theorem Fresh.step (hfresh : self.Fresh) (call : HandleCall) : (self.step call).Fresh := by
  cases call with
  | request call => exact hfresh.of_draws (DrawsLeases.step call) fun _ hmem => Or.inl hmem
  | handOver fails call =>
    cases call with
    | publish chunk =>
      exact hfresh.of_draws (DrawsLeases.publishAllocating fails chunk) fun _ hmem => Or.inl hmem
    | acquireAudio =>
      exact hfresh.of_draws (DrawsLeases.acquireAudioAllocating fails) fun _ hmem => Or.inl hmem
    | audioAcquire storage => exact hfresh.acquireLease storage
  | audioRelease leaseId =>
    have hdraws : DrawsLeases self.system _ := DrawsLeases.releaseAudio leaseId
    simp only [RequestHandle.step, audioRelease]
    split_ifs
    · generalize self.request.releaseAudio leaseId = released at hdraws ⊢
      obtain ⟨error | u, request⟩ := released
      · exact hfresh.of_draws hdraws fun _ hmem => Or.inl hmem
      · exact hfresh.of_draws hdraws fun _ hmem => Or.inl (List.eraseP_subset hmem)
    · exact hfresh

/-- The identifiers of every reachable handle are fresh. -/
theorem fresh_run {textTokenCount capacity : ℕ} {request : StreamingRequestState}
    (hrequest : StreamingRequestState.construct textTokenCount capacity = .ok request)
    (leaseIds : LeaseIdSequence) (calls : List HandleCall) :
    (run RequestHandle.step (.start request leaseIds) calls).Fresh := by
  refine run_induction (I := Fresh) (fun _ call hfresh => hfresh.step call) ⟨?_, ?_⟩ calls
  · rw [StreamingRequestState.construct] at hrequest
    split_ifs at hrequest
    rw [← Except.ok.inj hrequest]
    intro lease hmem
    cases hmem
  · intro entry hmem
    cases hmem

/-! ### When a hand-over is atomic -/

theorem addUint64_one_ne (count : ℕ) : addUint64 count 1 ≠ count := by
  rw [addUint64]
  omega

/-- A change of the queue is not atomic. -/
theorem not_keepsAudio_of_queue {before after : StreamingRequestState}
    (hne : after.availableAudio ≠ before.availableAudio) : ¬ KeepsAudio before after :=
  fun hkeeps => hne hkeeps.availableAudio_eq

theorem atomic_publish_iff (chunk : AudioChunk) :
    self.Atomic fails (.publish chunk) ↔
      (self.Proceeds (.publish chunk) → self.AllocatesBehindChecks fails (.publish chunk)) := by
  simp only [Atomic, attempt, Proceeds, AllocatesBehindChecks]
  by_cases hcancelled : self.request.cancellationRequested = true
  · simp only [StreamingRequestState.publishAllocating_of_cancelled hcancelled, hcancelled,
      Bool.true_eq_false, false_and, false_imp_iff, ne_eq, not_true_eq_false]
  rw [Bool.not_eq_true] at hcancelled
  by_cases hvalid : self.request.ValidChunk chunk
  swap
  · obtain ⟨error, -, hallocating⟩ :=
      StreamingRequestState.publishAllocating_of_not_valid hcancelled hvalid
    simp only [hallocating, hvalid, and_false, false_imp_iff, KeepsAudio.refl, implies_true]
  simp only [StreamingRequestState.publishAllocating_of_valid hcancelled hvalid, hcancelled, hvalid,
    and_self, true_imp_iff, Bool.false_eq_true, if_false, ne_eq, HandOverOutcome.published.injEq]
  cases hnode : fails .queueNode with
  | true =>
    -- the counters are ahead of the queue
    have hcounted : ¬ KeepsAudio self.request (self.request.advanceCounters chunk) := fun hkeeps =>
      addUint64_one_ne _ hkeeps.nextSequence_eq
    simp [hcounted, (throwOutcome_ne_badAlloc _).symm]
  | false =>
    have hqueued : ¬ KeepsAudio self.request
        ((self.request.acceptChunk chunk).incrementRevision true).2 := by
      rw [StreamingRequestState.incrementRevision_snd]
      refine not_keepsAudio_of_queue ?_
      rw [RequestHistory.bumped_availableAudio]
      simp [StreamingRequestState.acceptChunk]
    have hne := throwOutcome_incrementRevision_ne_iff fails
      (self.request.acceptChunk chunk) true
    simp only [Bool.false_eq_true, if_false, hqueued, imp_false, hne, true_and]
    simp [StreamingRequestState.acceptChunk]

/-- The checks of `acquire_audio` write nothing. -/
theorem atomic_acquire_of_not_proceeds {call : HandOver}
    (hcall : call = .acquireAudio ∨ ∃ storage, call = .audioAcquire storage)
    (hproceeds : ¬ self.Proceeds call) : self.Atomic fails call := by
  intro _
  rcases hcall with rfl | ⟨storage, rfl⟩
  · obtain ⟨error, -, hallocating⟩ :=
      StreamingRequestState.acquireAudioAllocating_of_not hproceeds
    simp only [attempt, hallocating, KeepsAudio.refl]
  · obtain ⟨error, -, hallocating⟩ :=
      StreamingRequestState.acquireAudioAllocating_of_not hproceeds
    simp only [attempt, acquireLease, hallocating, KeepsAudio.refl]

section Proceeding

variable (hfresh : self.Fresh) {chunk : AudioChunk} {rest : List AudioChunk}
  (havailable : self.request.availableAudio = chunk :: rest) (hids : ¬ self.leaseIds.Exhausted)

include hfresh havailable hids

/-- The front of the queue is on its way to the caller. -/
theorem acquireAudioAllocating_eq (fails : AllocationPoint → Bool) :
    self.request.acquireAudioAllocating fails self.leaseIds =
      if fails .leaseNode then
        (.error .badAlloc, { self.request with availableAudio := rest }, ⟨self.leaseIds.next + 1⟩)
      else
        (throwOutcome fails
          ((self.request.leased rest ⟨self.leaseIds.next, chunk⟩).incrementRevision
            (StoredLease.view ⟨self.leaseIds.next, chunk⟩)).1,
          (self.request.leased rest ⟨self.leaseIds.next, chunk⟩).bumped,
          ⟨self.leaseIds.next + 1⟩) :=
  StreamingRequestState.acquireAudioAllocating_of_cons havailable hids
    fun lease hmem => (hfresh.leases lease hmem).ne

theorem atomic_acquireAudio_iff :
    self.Atomic fails .acquireAudio ↔ self.AllocatesBehindChecks fails .acquireAudio := by
  have hpopped : ∀ request', request'.availableAudio = rest →
      ¬ KeepsAudio self.request request' := by
    intro request' hrest
    refine not_keepsAudio_of_queue ?_
    rw [hrest, havailable]
    exact (List.cons_ne_self chunk rest).symm
  simp only [Atomic, attempt, AllocatesBehindChecks,
    acquireAudioAllocating_eq hfresh havailable hids, Bool.false_eq_true, if_false, ne_eq,
    HandOverOutcome.acquired.injEq]
  cases hnode : fails .leaseNode with
  | true => simp [hpopped, (throwOutcome_ne_badAlloc _).symm]
  | false =>
    have hne := throwOutcome_incrementRevision_ne_iff fails
      (self.request.leased rest ⟨self.leaseIds.next, chunk⟩)
      (StoredLease.view ⟨self.leaseIds.next, chunk⟩)
    have hleased := hpopped (self.request.leased rest ⟨self.leaseIds.next, chunk⟩).bumped
      (RequestHistory.bumped_availableAudio _)
    simp only [Bool.false_eq_true, if_false, hleased, imp_false, hne, true_and]
    simp [StreamingRequestState.leased]

end Proceeding

/-! ### The lease of the C interface -/

/-- A release leaves the queue as it is. -/
theorem releaseAudio_availableAudio (request : StreamingRequestState) (leaseId : ℕ) :
    (request.releaseAudio leaseId).2.availableAudio = request.availableAudio := by
  rw [StreamingRequestState.releaseAudio]
  cases request.liveLeases.find? fun lease => lease.leaseId = leaseId with
  | none => rfl
  | some found =>
    simp only
    split_ifs
    · rfl
    · rw [StreamingRequestState.incrementRevision_snd, RequestHistory.bumped_availableAudio]

/-- The compensating release gives the chunk up, and the call fails. -/
theorem releaseAcquired_badAlloc (self : RequestHandle) (fails : AllocationPoint → Bool)
    (leaseId : ℕ) :
    (∃ error, (self.releaseAcquired fails leaseId
      (.error .badAlloc : Except HandOverError (Option AudioLeaseV1))).1 = .error error) ∧
    (self.releaseAcquired fails leaseId
      (.error .badAlloc : Except HandOverError (Option AudioLeaseV1))).2.request.availableAudio =
      self.request.availableAudio := by
  rw [releaseAcquired_snd]
  refine ⟨?_, releaseAudio_availableAudio _ _⟩
  rw [releaseAcquired]
  rcases self.request.releaseAudio leaseId with ⟨error | u, request⟩
  · exact ⟨_, rfl⟩
  · exact ⟨_, rfl⟩

section Proceeding

variable (hfresh : self.Fresh) {chunk : AudioChunk} {rest : List AudioChunk}
  (havailable : self.request.availableAudio = chunk :: rest) (hids : ¬ self.leaseIds.Exhausted)
  (storage : HostAllocation)

include hfresh havailable hids

/-- Below the last revision, a lease is returned if none of its allocations fails. -/
theorem acquireLease_of_lt (hnode : fails .leaseNode = false)
    (hrevision : self.request.revision ≠ maximumUint64) :
    (self.acquireLease fails storage).2.request.availableAudio = rest ∧
      (if (chunk.alignmentEvents ≠ [] ∧ fails .eventVector = true) ∨ fails .tableNode = true then
        ∃ error, (self.acquireLease fails storage).1 = .error error
      else
        (self.acquireLease fails storage).1 =
          .ok (some (audioLeaseV1 storage (StoredLease.view ⟨self.leaseIds.next, chunk⟩)))) := by
  set view := StoredLease.view ⟨self.leaseIds.next, chunk⟩ with hview
  set leased := self.request.leased rest ⟨self.leaseIds.next, chunk⟩ with hleased
  have hend : leased.incrementRevision view = (.ok view, leased.bumped) := by
    have hleasedRevision : leased.revision ≠ maximumUint64 := hrevision
    rw [← StreamingRequestState.incrementRevision_snd view,
      StreamingRequestState.incrementRevision_of_lt hleasedRevision]
  have hevents : view.alignmentEvents.map alignmentEventV1 ≠ [] ↔ chunk.alignmentEvents ≠ [] := by
    rw [ne_eq, List.map_eq_nil_iff]
    exact Iff.rfl
  have htable : (self.leaseAlignmentEvents.any fun entry => entry.1 = view.leaseId) = false := by
    rw [List.any_eq_false]
    exact fun entry hmem heq => (hfresh.table entry hmem).ne (of_decide_eq_true heq)
  have hqueue : leased.bumped.availableAudio = rest := RequestHistory.bumped_availableAudio _
  rw [acquireLease, acquireAudioAllocating_eq hfresh havailable hids, hnode,
    if_neg Bool.false_ne_true, ← hview, ← hleased, hend]
  simp only [throwOutcome, hevents, htable, Bool.false_eq_true, if_false]
  by_cases hlost :
      (chunk.alignmentEvents ≠ [] ∧ fails .eventVector = true) ∨ fails .tableNode = true
  · have hreleased := releaseAcquired_badAlloc
      { self with request := leased.bumped, leaseIds := ⟨self.leaseIds.next + 1⟩ }
      fails view.leaseId
    rw [if_pos hlost]
    by_cases hvector : chunk.alignmentEvents ≠ [] ∧ fails .eventVector = true
    · rw [if_pos hvector]
      exact ⟨hreleased.2.trans hqueue, hreleased.1⟩
    · rw [if_neg hvector, if_pos (hlost.resolve_left hvector)]
      exact ⟨hreleased.2.trans hqueue, hreleased.1⟩
  · rw [not_or] at hlost
    rw [if_neg hlost.1, if_neg hlost.2, if_neg (not_or.mpr hlost)]
    exact ⟨hqueue, rfl⟩

theorem acquireLease_of_none (hrevision : self.request.revision ≠ maximumUint64) :
    (self.acquireLease (fun _ => false) storage).1 =
      .ok (some (audioLeaseV1 storage (StoredLease.view ⟨self.leaseIds.next, chunk⟩))) := by
  have husual := (@acquireLease_of_lt self (fun _ => false) hfresh chunk rest havailable
      hids storage
    rfl hrevision).2
  simpa only [Bool.false_eq_true, and_false, or_self, if_false] using husual

/-- In the last revision no lease is returned, and the chunk stays on lease. -/
theorem acquireLease_of_eq (hnode : fails .leaseNode = false)
    (hrevision : self.request.revision = maximumUint64) :
    (self.acquireLease fails storage).2.request.availableAudio = rest ∧
      (self.acquireLease fails storage).1 =
        .error (throwState fails ⟨.invalidTransition, "request revision is exhausted", -1⟩) := by
  have hleasedRevision : (self.request.leased rest ⟨self.leaseIds.next, chunk⟩).revision =
      maximumUint64 := hrevision
  rw [acquireLease, acquireAudioAllocating_eq hfresh havailable hids, hnode,
    if_neg Bool.false_ne_true, StreamingRequestState.incrementRevision, if_pos hleasedRevision]
  exact ⟨RequestHistory.bumped_availableAudio _, rfl⟩

theorem acquireLease_of_leaseNode (hnode : fails .leaseNode = true) :
    (self.acquireLease fails storage).2.request.availableAudio = rest ∧
      (self.acquireLease fails storage).1 = .error .badAlloc := by
  rw [acquireLease, acquireAudioAllocating_eq hfresh havailable hids, if_pos hnode]
  exact ⟨rfl, rfl⟩

theorem atomic_audioAcquire_iff :
    self.Atomic fails (.audioAcquire storage) ↔
      self.AllocatesBehindChecks fails (.audioAcquire storage) := by
  have hcarries : self.CarriesEvents ↔ chunk.alignmentEvents ≠ [] := by
    simp [CarriesEvents, havailable]
  -- the queue has lost its front, so the call is atomic if its outcome is the usual one
  have hatomic : (self.acquireLease fails storage).2.request.availableAudio = rest →
      (self.Atomic fails (.audioAcquire storage) ↔
        (self.acquireLease fails storage).1 = (self.acquireLease (fun _ => false) storage).1) := by
    intro hrest
    have hkeeps : ¬ KeepsAudio self.request (self.acquireLease fails storage).2.request := by
      refine not_keepsAudio_of_queue ?_
      rw [hrest, havailable]
      exact (List.cons_ne_self chunk rest).symm
    simp only [Atomic, attempt, hkeeps, imp_false, ne_eq, HandOverOutcome.leased.injEq, not_not]
  simp only [AllocatesBehindChecks, hcarries]
  cases hnode : fails .leaseNode with
  | true =>
    obtain ⟨hrest, houtcome⟩ := acquireLease_of_leaseNode hfresh havailable hids storage hnode
    rw [hatomic hrest, houtcome]
    by_cases hrevision : self.request.revision = maximumUint64
    · rw [(acquireLease_of_eq hfresh havailable hids storage rfl hrevision).2]
      simp [throwState]
    · rw [acquireLease_of_none hfresh havailable hids storage hrevision]
      simp
  | false =>
    by_cases hrevision : self.request.revision = maximumUint64
    · obtain ⟨hrest, houtcome⟩ := acquireLease_of_eq hfresh havailable hids storage hnode hrevision
      rw [hatomic hrest, houtcome,
        (acquireLease_of_eq hfresh havailable hids storage rfl hrevision).2, if_pos hrevision]
      cases htext : fails .errorText <;> simp [throwState, htext]
    · obtain ⟨hrest, houtcome⟩ := acquireLease_of_lt hfresh havailable hids storage hnode hrevision
      rw [hatomic hrest, acquireLease_of_none hfresh havailable hids storage hrevision,
        if_neg hrevision]
      split_ifs at houtcome with hlost
      · obtain ⟨error, herror⟩ := houtcome
        rw [herror]
        rcases hlost with ⟨hevents, hvector⟩ | htable
        · simp [hevents, hvector]
        · simp [htable]
      · rw [not_or, not_and, Bool.not_eq_true, Bool.not_eq_true] at hlost
        exact iff_of_true houtcome ⟨rfl, hlost⟩

end Proceeding

/-! ### The main result -/

/-- **When a hand-over is atomic.** On every reachable request, a call that fails for want of memory
leaves the audio as it was exactly if none of the allocations behind its checks fails: only the text
of an error of the checks may fail to be allocated. -/
theorem atomic_iff {textTokenCount capacity : ℕ} {request : StreamingRequestState}
    (hrequest : StreamingRequestState.construct textTokenCount capacity = .ok request)
    (leaseIds : LeaseIdSequence) (calls : List HandleCall) (fails : AllocationPoint → Bool)
    (call : HandOver) :
    (run step (start request leaseIds) calls).Atomic fails call ↔
      ((run step (start request leaseIds) calls).Proceeds call →
        (run step (start request leaseIds) calls).AllocatesBehindChecks fails call) := by
  have hfresh := fresh_run hrequest leaseIds calls
  generalize run step (start request leaseIds) calls = handle at hfresh ⊢
  -- a call that acquires goes on with the front of the queue
  have hacquire : ∀ call, (call = .acquireAudio ∨ ∃ storage, call = .audioAcquire storage) →
      (∀ chunk rest, handle.request.availableAudio = chunk :: rest → ¬ handle.leaseIds.Exhausted →
        (handle.Atomic fails call ↔ handle.AllocatesBehindChecks fails call)) →
      (handle.Atomic fails call ↔
        (handle.Proceeds call → handle.AllocatesBehindChecks fails call)) := by
    intro call hcall hiff
    by_cases hproceeds : handle.Proceeds call
    · have hchecks : handle.request.availableAudio ≠ [] ∧ ¬ handle.leaseIds.Exhausted := by
        rcases hcall with rfl | ⟨storage, rfl⟩ <;> exact hproceeds
      obtain ⟨chunk, rest, havailable⟩ := List.exists_cons_of_ne_nil hchecks.1
      rw [hiff chunk rest havailable hchecks.2]
      exact ⟨fun h _ => h, fun h => h hproceeds⟩
    · exact iff_of_true (atomic_acquire_of_not_proceeds hcall hproceeds) (absurd · hproceeds)
  cases call with
  | publish chunk => exact atomic_publish_iff chunk
  | acquireAudio =>
    exact hacquire _ (Or.inl rfl) fun _ _ havailable hids =>
      atomic_acquireAudio_iff hfresh havailable hids
  | audioAcquire storage =>
    exact hacquire _ (Or.inr ⟨storage, rfl⟩) fun _ _ havailable hids =>
      atomic_audioAcquire_iff hfresh havailable hids storage

/-- The first chunk of a stream waits in the queue; its lease needs no node of the queue. -/
theorem atomic_iff_first_chunk :
    ∃ request, StreamingRequestState.construct 39 8 = .ok request ∧
      (run step (start request ⟨1⟩)
        [.request (.publish (RequestHistory.streamChunk 0))]).request.availableAudio =
          [RequestHistory.streamChunk 0] ∧
      (run step (start request ⟨1⟩) [.request (.publish (RequestHistory.streamChunk 0))]).Atomic
        (fun point => point = .queueNode) .acquireAudio :=
  ⟨_, rfl, by decide, (@atomic_iff 39 8 _ rfl ⟨1⟩
    [.request (.publish (RequestHistory.streamChunk 0))] (fun point => point = .queueNode)
      .acquireAudio).mpr fun _ => ⟨rfl, fun _ => rfl⟩⟩

/-- The first chunk of a stream is lost, and its frames stay occupied, where the node of the lease
map cannot be allocated. -/
theorem not_atomic_first_chunk :
    ∃ request, StreamingRequestState.construct 39 8 = .ok request ∧
      ¬ (run step (start request ⟨1⟩) [.request (.publish (RequestHistory.streamChunk 0))]).Atomic
        (fun point => point = .leaseNode) .acquireAudio := by
  refine ⟨_, rfl, fun hatomic => ?_⟩
  have hkeeps := hatomic fun heq => ?_
  · exact absurd hkeeps.availableAudio_eq (by decide)
  · exact absurd (HandOverOutcome.acquired.inj heq) (by decide)

end RequestHandle

end MagpieTts.Api
