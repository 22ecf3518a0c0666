import MagpieTts.Runtime.RequestAllocation
import MagpieTts.Runtime.RequestTraffic

/-!
# A request whose counters lead its queue

A publication that fails to grow the queue has advanced the counters, and has taken frames of the
ring for a chunk that is nowhere. The worker fails its request then. Up to that, the calls on the
request do what they would do without the lead.

## Main definitions

* `CounterLead`, `StreamingRequestState.ahead`: the counters, and the lost frames.

## Main results

* `StreamingRequestState.publishAllocating_eq_ahead`: where a lead comes from.
* `RequestHistory.call_ahead`, `RequestHistory.step_ahead`: the calls do not see it.
-/

namespace MagpieTts.Runtime

structure CounterLead where
  committedTextTokens : ℕ
  nextSampleIndex : ℕ
  nextSequence : ℕ
  generatedCodecFrames : ℕ
  publishedSamples : ℕ
  lostFrames : ℕ

variable {lead : CounterLead}

namespace StreamingRequestState

/-- The request with other counters, and with frames of the ring lost. -/
def ahead (lead : CounterLead) (request : StreamingRequestState) : StreamingRequestState :=
  { request with
    committedTextTokens := lead.committedTextTokens
    nextSampleIndex := lead.nextSampleIndex
    nextSequence := lead.nextSequence
    generatedCodecFrames := lead.generatedCodecFrames
    publishedSamples := lead.publishedSamples
    occupiedCodecFrames := request.occupiedCodecFrames + lead.lostFrames }

variable {self : StreamingRequestState}

/-- A publication that reaches its queue and fails to grow it leaves a lead. -/
theorem publishAllocating_eq_ahead (haccounted : self.Accounted) {chunk : AudioChunk}
    {request : StreamingRequestState}
    (hfailed : self.publishAllocating (fun point => point = .queueNode) chunk =
      (.error .badAlloc, request)) : ∃ lead, request = self.ahead lead := by
  by_cases hcancelled : self.cancellationRequested = true
  · rw [publishAllocating_of_cancelled hcancelled] at hfailed
    cases hfailed
  rw [Bool.not_eq_true] at hcancelled
  by_cases hvalid : self.ValidChunk chunk
  · rw [publishAllocating_of_valid hcancelled hvalid, if_pos (decide_eq_true rfl),
      Prod.mk.injEq] at hfailed
    refine ⟨⟨request.committedTextTokens, request.nextSampleIndex, request.nextSequence,
      request.generatedCodecFrames, request.publishedSamples, chunk.codecFrameCount⟩, ?_⟩
    have hfits := hvalid.fits
    rw [haccounted.subUint32_eq] at hfits
    have hle := haccounted.occupied_le
    have hcapacity := haccounted.capacity_le
    rw [← hfailed.2, advanceCounters, addUint32_eq (by omega), ahead]
  · obtain ⟨error, -, hallocating⟩ := publishAllocating_of_not_valid hcancelled hvalid
    rw [hallocating] at hfailed
    simp [throwState] at hfailed

theorem incrementRevision_ahead {β : Type} (value : β) :
    (self.ahead lead).incrementRevision value =
      ((self.incrementRevision value).1, (self.incrementRevision value).2.ahead lead) := by
  rw [incrementRevision, incrementRevision, ahead]
  split_ifs <;> rfl

theorem discardUnleasedAudio_ahead (haccounted : self.Accounted) :
    (self.ahead lead).discardUnleasedAudio = (.ok (), self.withoutQueue.ahead lead) := by
  have hocc := haccounted.occupied_eq
  have hframes := subtractFrames_eq self.availableAudio
    (show _ ≤ self.occupiedCodecFrames + lead.lostFrames by rw [queueFrames] at hocc; omega)
  rw [discardUnleasedAudio]
  simp only [ahead, hframes, withoutQueue]
  have hleft : self.occupiedCodecFrames + lead.lostFrames -
      (self.availableAudio.map AudioChunk.codecFrameCount).sum =
      self.leaseFrames + lead.lostFrames := by
    rw [queueFrames] at hocc
    omega
  rw [hleft]

theorem requestCancellation_ahead (haccounted : self.Accounted) :
    (self.ahead lead).requestCancellation =
      (self.requestCancellation.1, self.requestCancellation.2.ahead lead) := by
  by_cases hrunning : self.state = .running
  swap
  · have hne : (self.ahead lead).state ≠ .running := hrunning
    rw [requestCancellation_of_ne hne, requestCancellation_of_ne hrunning]
    rfl
  by_cases hrequested : self.cancellationRequested = true
  · have hrunning' : (self.ahead lead).state = .running := hrunning
    have hrequested' : (self.ahead lead).cancellationRequested = true := hrequested
    rw [requestCancellation_of_requested hrunning' hrequested',
      requestCancellation_of_requested hrunning hrequested]
  · rw [Bool.not_eq_true] at hrequested
    have hcancelling : ({ self with cancellationRequested := true }).Accounted :=
      ⟨haccounted.occupied_eq, haccounted.occupied_le, haccounted.capacity_le⟩
    have hdiscard : ({ self.ahead lead with cancellationRequested := true }).discardUnleasedAudio =
        (.ok (), self.cancelRequested.ahead lead) := discardUnleasedAudio_ahead hcancelling
    rw [requestCancellation_of_open haccounted hrunning hrequested, ← incrementRevision_ahead,
      requestCancellation, hdiscard]
    simp only [ahead, hrunning, hrequested, reduceCtorEq, if_false, ne_eq, not_true_eq_false,
      Bool.false_eq_true]

theorem fail_ahead (haccounted : self.Accounted) (status stage : ℤ) (message : List UInt8) :
    (self.ahead lead).fail status stage message =
      ((self.fail status stage message).1, (self.fail status stage message).2.ahead lead) := by
  rw [fail, fail, discardUnleasedAudio_ahead haccounted, discardUnleasedAudio_eq haccounted]
  by_cases hargs : RejectsFailure status stage message
  · rw [RejectsFailure] at hargs
    rw [if_pos hargs, if_pos hargs]
  rw [RejectsFailure] at hargs
  rw [if_neg hargs, if_neg hargs]
  by_cases hrunning : self.state = .running
  · have hrunning' : (self.ahead lead).state = .running := hrunning
    have hend : ((self.failed status stage message).ahead lead).incrementRevision () = _ :=
      incrementRevision_ahead ()
    rw [if_neg (not_not.mpr hrunning), if_neg (not_not.mpr hrunning')]
    exact hend
  · have hne : (self.ahead lead).state ≠ .running := hrunning
    rw [if_pos hrunning, if_pos hne]

theorem acquireAudio_ahead (ids : LeaseIdSequence) :
    (self.ahead lead).acquireAudio ids =
      ((self.acquireAudio ids).1, (self.acquireAudio ids).2.1.ahead lead,
        (self.acquireAudio ids).2.2) := by
  cases havailable : self.availableAudio with
  | nil => simp only [acquireAudio, ahead, havailable]
  | cons chunk rest =>
    simp only [acquireAudio, ahead, havailable]
    rcases ids.acquire with ⟨error | leaseId, ids⟩
    · simp only [havailable]
    · simp only
      split_ifs
      · rfl
      · have hend : ((self.leased rest ⟨leaseId, chunk⟩).ahead lead).incrementRevision _ = _ :=
          incrementRevision_ahead (StoredLease.view ⟨leaseId, chunk⟩)
        simp only [leased, ahead] at hend
        simp only [hend]

theorem releaseAudio_ahead (haccounted : self.Accounted) (leaseId : ℕ) :
    (self.ahead lead).releaseAudio leaseId =
      ((self.releaseAudio leaseId).1, (self.releaseAudio leaseId).2.ahead lead) := by
  cases hfind : self.liveLeases.find? fun lease => lease.leaseId = leaseId with
  | none =>
    rw [releaseAudio, releaseAudio]
    simp only [ahead, hfind]
  | some found =>
    have hmem := List.mem_of_find?_eq_some hfind
    have hid : found.leaseId = leaseId := by simpa using List.find?_some hfind
    have hle : found.chunk.codecFrameCount ≤ self.leaseFrames :=
      List.le_sum_of_mem (List.mem_map.mpr ⟨found, hmem, rfl⟩)
    have hocc := haccounted.occupied_eq
    have hfree : ¬ self.occupiedCodecFrames + lead.lostFrames < found.chunk.codecFrameCount := by
      omega
    have hleft : self.occupiedCodecFrames + lead.lostFrames - found.chunk.codecFrameCount =
        self.occupiedCodecFrames - found.chunk.codecFrameCount + lead.lostFrames := by
      omega
    have hend : ((self.unleased found).ahead lead).incrementRevision () = _ :=
      incrementRevision_ahead ()
    rw [releaseAudio_of_some haccounted hfind, ← hend, releaseAudio]
    simp only [ahead, hfind, unleased, hid, hfree, if_false, hleft]

end StreamingRequestState

/-! ### The calls behind a lead -/

namespace RequestHistory

variable {h : RequestHistory} {c : RequestCall}

/-- The history of a request with a lead. -/
def ahead (lead : CounterLead) (h : RequestHistory) : RequestHistory :=
  { h with request := h.request.ahead lead }

/-- The calls of a consumer and of a failing worker. -/
def SeesNoLead : RequestCall → Prop
  | .fail _ _ _ | .requestCancellation | .acquireAudio | .releaseAudio _ | .drawElsewhere => True
  | _ => False

theorem call_ahead (haccounted : h.request.Accounted) (hcall : SeesNoLead c) :
    (h.ahead lead).call c =
      ((h.call c).1, ⟨(h.call c).2.request.ahead lead, (h.call c).2.leaseIds⟩) := by
  cases c with
  | requestCancellation =>
    simp only [RequestSystem.call, ahead,
      StreamingRequestState.requestCancellation_ahead haccounted]
  | fail status stage message =>
    simp only [RequestSystem.call, ahead, StreamingRequestState.fail_ahead haccounted]
  | acquireAudio => simp only [RequestSystem.call, ahead, StreamingRequestState.acquireAudio_ahead]
  | releaseAudio leaseId =>
    simp only [RequestSystem.call, ahead, StreamingRequestState.releaseAudio_ahead haccounted]
  | drawElsewhere => rfl
  | _ => exact hcall.elim

theorem step_ahead (haccounted : h.request.Accounted) (hcall : SeesNoLead c) :
    (h.ahead lead).step c = (h.step c).ahead lead := by
  have hreply : (h.ahead lead).call c = _ := call_ahead haccounted hcall
  simp only [step, RequestSystem.step, hreply]
  cases c <;> rfl

end RequestHistory

end MagpieTts.Runtime
