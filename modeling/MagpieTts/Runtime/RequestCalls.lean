import MagpieTts.Library.LeaseLedger
import MagpieTts.Runtime.RequestStateSpec

/-!
# Runs of calls on a streaming request

The worker and the consumer of a request call its operations in any order; the mutex of the request
makes each call one step. This file has the calls, their replies and the history that an observer of
the calls writes down, and says once what a call can do to that history.

## Main definitions

* `RequestCall`, `RequestReply`, `RequestSystem.call`: the calls and what they answer.
* `RequestHistory`: a request with what was accepted, returned, released and discarded so far.
* `RequestHistory.Move`: what a call can do.

## Main results

* `RequestHistory.move_step`: every call is one of the moves.
-/

namespace MagpieTts.Runtime

open MagpieTts.Library

/-- A call on a request. `drawElsewhere` is a call on another request that draws from the same
lease identifiers. -/
inductive RequestCall where
  | publish (chunk : AudioChunk)
  | discardUnleasedAudio
  | requestCancellation
  | completeCancellation
  | completeCancellationAfterDrain
  | fail (terminalStatus terminalErrorStage : ℤ) (terminalErrorMessage : List UInt8)
  | acquireAudio
  | releaseAudio (leaseId : ℕ)
  | drawElsewhere
  deriving DecidableEq

/-- What a call returns or throws. -/
inductive RequestReply where
  | error (error : RequestStateError)
  | published (accepted : Bool)
  | cancellation (accepted : Bool)
  | drained (completed : Bool)
  | lease (view : AudioLeaseView)
  | done
  deriving DecidableEq

/-- The reply for the outcome of an operation. -/
def RequestReply.of {β : Type} (returned : β → RequestReply) :
    Except RequestStateError β → RequestReply
  | .error e => .error e
  | .ok value => returned value

/-- A request and the lease identifiers it shares with the other requests of the process. -/
structure RequestSystem where
  request : StreamingRequestState
  leaseIds : LeaseIdSequence
  deriving DecidableEq

namespace RequestSystem

/-- The reply of a call and the state it leaves. -/
def call (s : RequestSystem) : RequestCall → RequestReply × RequestSystem
  | .publish chunk =>
    (.of .published (s.request.publish chunk).1, { s with request := (s.request.publish chunk).2 })
  | .discardUnleasedAudio =>
    (.of (fun _ => .done) s.request.discardUnleasedAudio.1,
      { s with request := s.request.discardUnleasedAudio.2 })
  | .requestCancellation =>
    (.of .cancellation s.request.requestCancellation.1,
      { s with request := s.request.requestCancellation.2 })
  | .completeCancellation =>
    (.of (fun _ => .done) s.request.completeCancellation.1,
      { s with request := s.request.completeCancellation.2 })
  | .completeCancellationAfterDrain =>
    (.of .drained s.request.completeCancellationAfterDrain.1,
      { s with request := s.request.completeCancellationAfterDrain.2 })
  | .fail status stage message =>
    (.of (fun _ => .done) (s.request.fail status stage message).1,
      { s with request := (s.request.fail status stage message).2 })
  | .acquireAudio =>
    (.of .lease (s.request.acquireAudio s.leaseIds).1,
      { request := (s.request.acquireAudio s.leaseIds).2.1
        leaseIds := (s.request.acquireAudio s.leaseIds).2.2 })
  | .releaseAudio leaseId =>
    (.of (fun _ => .done) (s.request.releaseAudio leaseId).1,
      { s with request := (s.request.releaseAudio leaseId).2 })
  | .drawElsewhere => (.done, { s with leaseIds := s.leaseIds.acquire.2 })

/-- The state that a call leaves. -/
def step (s : RequestSystem) (c : RequestCall) : RequestSystem := (s.call c).2

end RequestSystem

/-! ### The history of a request -/

/-- A request with what an observer of its calls has seen: the chunks that `publish` accepted, the
leases that entered the lease table, the views that `acquire_audio` returned, and the chunks that
were released and discarded. -/
structure RequestHistory extends RequestSystem where
  accepted : List AudioChunk
  taken : List StoredLease
  returned : List AudioLeaseView
  released : List AudioChunk
  discarded : List AudioChunk

namespace RequestHistory

/-- The history of a request on which nothing was called. -/
def start (request : StreamingRequestState) (leaseIds : LeaseIdSequence) : RequestHistory where
  request := request
  leaseIds := leaseIds
  accepted := []
  taken := []
  returned := []
  released := []
  discarded := []

def acceptedBy : RequestCall → RequestReply → List AudioChunk
  | .publish chunk, .published true => [chunk]
  | _, _ => []

def returnedBy : RequestReply → List AudioLeaseView
  | .lease view => [view]
  | _ => []

/-- The leases that a call adds to the table. -/
def takenBy (before after : StreamingRequestState) : RequestCall → List StoredLease
  | .acquireAudio => after.liveLeases.drop before.liveLeases.length
  | _ => []

/-- The chunks whose lease a call removes from the table. -/
def releasedBy (before after : StreamingRequestState) : RequestCall → List AudioChunk
  | .releaseAudio leaseId =>
    if after.liveLeases.length < before.liveLeases.length then
      (before.liveLeases.find? fun lease => lease.leaseId = leaseId).toList.map StoredLease.chunk
    else
      []
  | _ => []

/-- The chunks that a cancellation, a failure or `discard_unleased` removes from the queue. No other
call discards anything: a chunk that it lost would be missing from the ledger. -/
def discardedBy (before after : StreamingRequestState) : RequestCall → List AudioChunk
  | .discardUnleasedAudio | .requestCancellation | .completeCancellation
  | .completeCancellationAfterDrain | .fail .. =>
    if after.availableAudio = [] then before.availableAudio else []
  | .publish _ | .acquireAudio | .releaseAudio _ | .drawElsewhere => []

/-- The history behind a call. -/
def step (h : RequestHistory) (c : RequestCall) : RequestHistory where
  toRequestSystem := h.toRequestSystem.step c
  accepted := h.accepted ++ acceptedBy c (h.call c).1
  taken := h.taken ++ takenBy h.request (h.call c).2.request c
  returned := h.returned ++ returnedBy (h.call c).1
  released := h.released ++ releasedBy h.request (h.call c).2.request c
  discarded := h.discarded ++ discardedBy h.request (h.call c).2.request c

/-- The ledger of a history. -/
def ledger (h : RequestHistory) : Ledger AudioChunk ℕ where
  accepted := h.accepted
  available := h.request.availableAudio
  leased := h.request.liveLeases.map fun lease => (lease.leaseId, lease.chunk)
  released := h.released
  discarded := h.discarded
  taken := h.taken.map StoredLease.chunk

/-- The calls that empty the queue, and the state they leave. -/
inductive Clears (request : StreamingRequestState) :
    RequestCall → StreamingRequestState → Prop where
  | discardUnleasedAudio : Clears request .discardUnleasedAudio request.withoutQueue
  | requestCancellation (hrunning : request.state = .running)
      (hopen : request.cancellationRequested = false) :
      Clears request .requestCancellation request.cancelRequested.bumped
  | completeCancellation (hrunning : request.state = .running)
      (hrequested : request.cancellationRequested = true) :
      Clears request .completeCancellation request.cancelCompleted
  | completeCancellationAfterDrain (hrunning : request.state = .running)
      (hrequested : request.cancellationRequested = true) :
      Clears request .completeCancellationAfterDrain request.cancelCompleted.bumped
  | fail (status stage : ℤ) (message : List UInt8) (hrunning : request.state = .running)
      (hargs : ¬ StreamingRequestState.RejectsFailure status stage message) :
      Clears request (.fail status stage message) (request.failed status stage message).bumped

/-- What all calls that empty the queue have in common. -/
structure Emptied (before after : StreamingRequestState) : Prop where
  availableAudio_eq : after.availableAudio = []
  liveLeases_eq : after.liveLeases = before.liveLeases
  occupied_eq : after.occupiedCodecFrames = before.leaseFrames
  capacity_eq : after.pcmRingCapacityFrames = before.pcmRingCapacityFrames
  nextSampleIndex_eq : after.nextSampleIndex = before.nextSampleIndex
  nextSequence_eq : after.nextSequence = before.nextSequence
  revision_le : before.revision ≤ after.revision
  revision_max : before.revision ≤ maximumUint64 → after.revision ≤ maximumUint64
  state_of : before.state ≠ .running → after.state = before.state
  cancelled_of : before.cancellationRequested = true → after.cancellationRequested = true

/-- What a call does to the history: nothing that the history sees, or one operation of the ledger.
A publication at the last revision is left out. -/
inductive Move (h : RequestHistory) (c : RequestCall) : RequestHistory → Prop where
  | stay : Move h c h
  | draw (ids : LeaseIdSequence) (hids : h.leaseIds.next ≤ ids.next) :
      Move h c { h with leaseIds := ids }
  | accept (chunk : AudioChunk) (hcall : c = .publish chunk)
      (hopen : h.request.cancellationRequested = false) (hvalid : h.request.ValidChunk chunk)
      (hrevision : h.request.revision ≠ maximumUint64) :
      Move h c
        { h with
          request := (h.request.acceptChunk chunk).bumped
          accepted := h.accepted ++ [chunk] }
  | discard (after : StreamingRequestState) (hclears : Clears h.request c after) :
      Move h c
        { h with
          request := after
          discarded := h.discarded ++ h.request.availableAudio }
  | take (chunk : AudioChunk) (rest : List AudioChunk) (views : List AudioLeaseView)
      (havailable : h.request.availableAudio = chunk :: rest)
      (hviews : (views = [] ∧ h.request.revision = maximumUint64) ∨
        views = [StoredLease.view ⟨h.leaseIds.next, chunk⟩]) :
      Move h c
        { h with
          request := (h.request.leased rest ⟨h.leaseIds.next, chunk⟩).bumped
          leaseIds := ⟨h.leaseIds.next + 1⟩
          taken := h.taken ++ [⟨h.leaseIds.next, chunk⟩]
          returned := h.returned ++ views }
  | release (found : StoredLease) (hcall : c = .releaseAudio found.leaseId)
      (hfind : (h.request.liveLeases.find? fun lease => lease.leaseId = found.leaseId) =
        some found) :
      Move h c
        { h with
          request := (h.request.unleased found).bumped
          released := h.released ++ [found.chunk] }

/-- A valid chunk is offered to an open request at the last revision. -/
def PublishesAtLastRevision (h : RequestHistory) (c : RequestCall) : Prop :=
  ∃ chunk, c = .publish chunk ∧ h.request.cancellationRequested = false ∧
    h.request.ValidChunk chunk ∧ h.request.revision = maximumUint64

variable {h : RequestHistory} {c : RequestCall}

/-- A call that keeps the queue discards nothing. -/
theorem discardedBy_eq_nil {request after : StreamingRequestState}
    (hqueue : after.availableAudio = request.availableAudio) :
    discardedBy request after c = [] := by
  cases c <;> simp [discardedBy, hqueue]

/-- A call that leaves the request alone and reports nothing leaves the history alone. -/
theorem step_eq_self (reply : RequestReply) (hcall : h.call c = (reply, h.toRequestSystem))
    (haccepted : acceptedBy c reply = []) (hreturned : returnedBy reply = []) : h.step c = h := by
  have htaken : takenBy h.request h.request c = [] := by
    cases c <;> simp [takenBy]
  have hreleased : releasedBy h.request h.request c = [] := by
    cases c <;> simp [releasedBy]
  rw [step, RequestSystem.step, hcall]
  simp only [haccepted, hreturned, htaken, hreleased, discardedBy_eq_nil rfl, List.append_nil]

theorem bumped_availableAudio (s : StreamingRequestState) :
    s.bumped.availableAudio = s.availableAudio :=
  StreamingRequestState.bumped_induction (P := fun t => t.availableAudio = s.availableAudio) rfl rfl

theorem bumped_liveLeases (s : StreamingRequestState) : s.bumped.liveLeases = s.liveLeases :=
  StreamingRequestState.bumped_induction (P := fun t => t.liveLeases = s.liveLeases) rfl rfl

namespace Emptied

variable {request after : StreamingRequestState}

theorem bumped (h : Emptied request after) : Emptied request after.bumped := by
  obtain ⟨h1, h2, h3, h4, h5, h6, h7, h8, h9, h10⟩ := h
  rw [StreamingRequestState.bumped]
  split_ifs with hmax
  · exact ⟨h1, h2, h3, h4, h5, h6, h7, h8, h9, h10⟩
  · refine ⟨h1, h2, h3, h4, h5, h6, by simp only; omega, fun hle => ?_, h9, h10⟩
    have := h8 hle
    simp only
    omega

theorem withoutQueue : Emptied request request.withoutQueue :=
  ⟨rfl, rfl, rfl, rfl, rfl, rfl, le_refl _, id, fun _ => rfl, id⟩

theorem cancelRequested : Emptied request request.cancelRequested :=
  ⟨rfl, rfl, rfl, rfl, rfl, rfl, le_refl _, id, fun _ => rfl, fun _ => rfl⟩

theorem cancelCompleted (hrunning : request.state = .running) :
    Emptied request request.cancelCompleted :=
  ⟨rfl, rfl, rfl, rfl, rfl, rfl, le_refl _, id, fun hne => absurd hrunning hne, id⟩

theorem failed (hrunning : request.state = .running) (status stage : ℤ) (message : List UInt8) :
    Emptied request (request.failed status stage message) :=
  ⟨rfl, rfl, rfl, rfl, rfl, rfl, le_refl _, id, fun hne => absurd hrunning hne, id⟩

end Emptied

namespace Clears

variable {request after : StreamingRequestState}

theorem emptied (hclears : Clears request c after) : Emptied request after := by
  cases hclears with
  | discardUnleasedAudio => exact .withoutQueue
  | requestCancellation hrunning hopen => exact Emptied.cancelRequested.bumped
  | completeCancellation hrunning hrequested => exact .cancelCompleted hrunning
  | completeCancellationAfterDrain hrunning hrequested =>
    exact (Emptied.cancelCompleted hrunning).bumped
  | fail status stage message hrunning hargs =>
    exact (Emptied.failed hrunning status stage message).bumped

theorem acceptedBy_eq_nil (hclears : Clears request c after) (reply : RequestReply) :
    acceptedBy c reply = [] := by
  cases hclears <;> rfl

theorem discardedBy_eq (hclears : Clears request c after) :
    discardedBy request after c = request.availableAudio := by
  have hqueue : (if after.availableAudio = [] then request.availableAudio else []) =
      request.availableAudio := if_pos hclears.emptied.availableAudio_eq
  cases hclears <;> exact hqueue

end Clears

/-- The move of a call that empties the queue. -/
theorem move_of_clears {reply : RequestReply} {after : StreamingRequestState}
    (hcall : h.call c = (reply, { h.toRequestSystem with request := after }))
    (hclears : Clears h.request c after) (hreturned : returnedBy reply = []) :
    h.Move c (h.step c) := by
  have hemptied := hclears.emptied
  have htaken : takenBy h.request after c = [] := by
    cases c <;> simp [takenBy, hemptied.liveLeases_eq]
  have hreleased : releasedBy h.request after c = [] := by
    cases c <;> simp [releasedBy, hemptied.liveLeases_eq]
  have hstep : h.step c = { h with
      request := after, discarded := h.discarded ++ h.request.availableAudio } := by
    rw [step, RequestSystem.step, hcall]
    simp only [hclears.acceptedBy_eq_nil, hreturned, htaken, hreleased, hclears.discardedBy_eq,
      List.append_nil]
  rw [hstep]
  exact .discard after hclears

theorem move_publish (chunk : AudioChunk)
    (hrevision : ¬ h.PublishesAtLastRevision (.publish chunk)) :
    h.Move (.publish chunk) (h.step (.publish chunk)) := by
  by_cases hcancelled : h.request.cancellationRequested = true
  · have hpublish : h.request.publish chunk = (.ok false, h.request) :=
      StreamingRequestState.publish_of_cancelled hcancelled
    rw [step_eq_self (.published false) (by simp [RequestSystem.call, hpublish,
      RequestReply.of]) rfl rfl]
    exact .stay
  · have hopen : h.request.cancellationRequested = false := Bool.eq_false_iff.mpr hcancelled
    by_cases hvalid : h.request.ValidChunk chunk
    · have hlast : h.request.revision ≠ maximumUint64 :=
        fun hmax => hrevision ⟨chunk, rfl, hopen, hvalid, hmax⟩
      have hpublish : h.request.publish chunk =
          (.ok true, (h.request.acceptChunk chunk).bumped) := by
        rw [StreamingRequestState.publish_of_valid hopen hvalid,
          ← StreamingRequestState.incrementRevision_snd true,
          StreamingRequestState.incrementRevision_of_lt (by exact hlast)]
      have hstep : h.step (.publish chunk) = { h with
          request := (h.request.acceptChunk chunk).bumped, accepted := h.accepted ++ [chunk] } := by
        simp only [step, RequestSystem.step, RequestSystem.call, hpublish, RequestReply.of,
          acceptedBy, takenBy, returnedBy, releasedBy, discardedBy, List.append_nil]
      rw [hstep]
      exact .accept chunk rfl hopen hvalid hlast
    · obtain ⟨error, hpublish⟩ := StreamingRequestState.publish_of_not_valid hopen hvalid
      rw [step_eq_self (.error error) (by simp [RequestSystem.call, hpublish,
        RequestReply.of]) rfl rfl]
      exact .stay

theorem incrementRevision_reply {β : Type} (s : StreamingRequestState) (value : β)
    (returned : β → RequestReply) :
    RequestReply.of returned (s.incrementRevision value).1 = returned value ∨
      (s.revision = maximumUint64 ∧
        ∃ error, RequestReply.of returned (s.incrementRevision value).1 = .error error) := by
  rw [StreamingRequestState.incrementRevision]
  split
  · exact Or.inr ⟨‹_›, _, rfl⟩
  · exact Or.inl rfl

/-- The move of a call that empties the queue and then moves the revision. -/
theorem move_of_clears_bumped {β : Type} {after : StreamingRequestState} (value : β)
    (returned : β → RequestReply)
    (hcall : h.call c = (.of returned (after.incrementRevision value).1,
      { h.toRequestSystem with request := (after.incrementRevision value).2 }))
    (hclears : Clears h.request c after.bumped) (hreturned : returnedBy (returned value) = []) :
    h.Move c (h.step c) := by
  rw [StreamingRequestState.incrementRevision_snd] at hcall
  refine move_of_clears hcall hclears ?_
  rcases incrementRevision_reply after value returned with hreply | ⟨-, error, hreply⟩
  · rw [hreply, hreturned]
  · rw [hreply]
    rfl

theorem move_requestCancellation (haccounted : h.request.Accounted) :
    h.Move .requestCancellation (h.step .requestCancellation) := by
  by_cases hrunning : h.request.state = .running
  · by_cases hrequested : h.request.cancellationRequested = true
    · have hcancel := StreamingRequestState.requestCancellation_of_requested hrunning hrequested
      rw [step_eq_self (.cancellation true) (by simp [RequestSystem.call, hcancel,
        RequestReply.of]) rfl rfl]
      exact .stay
    · have hcancel := StreamingRequestState.requestCancellation_of_open haccounted hrunning
        (Bool.eq_false_iff.mpr hrequested)
      exact move_of_clears_bumped true .cancellation (by rw [RequestSystem.call, hcancel])
        (.requestCancellation hrunning (Bool.eq_false_iff.mpr hrequested)) rfl
  · have hcancel := StreamingRequestState.requestCancellation_of_ne hrunning
    rw [step_eq_self (.cancellation (h.request.state = .cancelled))
      (by simp [RequestSystem.call, hcancel, RequestReply.of]) rfl rfl]
    exact .stay

theorem move_completeCancellation (haccounted : h.request.Accounted) :
    h.Move .completeCancellation (h.step .completeCancellation) := by
  by_cases hpending : h.request.state = .running ∧ h.request.cancellationRequested = true
  · have hcomplete := StreamingRequestState.completeCancellation_of_requested haccounted hpending.1
      hpending.2
    exact move_of_clears (by rw [RequestSystem.call, hcomplete])
      (.completeCancellation hpending.1 hpending.2) rfl
  · obtain ⟨error, hcomplete⟩ := StreamingRequestState.completeCancellation_of_not hpending
    rw [step_eq_self (.error error) (by simp [RequestSystem.call, hcomplete,
      RequestReply.of]) rfl rfl]
    exact .stay

theorem move_completeCancellationAfterDrain (haccounted : h.request.Accounted) :
    h.Move .completeCancellationAfterDrain (h.step .completeCancellationAfterDrain) := by
  by_cases hpending : h.request.state = .running ∧ h.request.cancellationRequested = true
  · have hcomplete := StreamingRequestState.completeCancellationAfterDrain_of_requested haccounted
      hpending.1 hpending.2
    exact move_of_clears_bumped true .drained (by rw [RequestSystem.call, hcomplete])
      (.completeCancellationAfterDrain hpending.1 hpending.2) rfl
  · have hcomplete := StreamingRequestState.completeCancellationAfterDrain_of_not hpending
    rw [step_eq_self (.drained false) (by simp [RequestSystem.call, hcomplete,
      RequestReply.of]) rfl rfl]
    exact .stay

theorem move_fail (haccounted : h.request.Accounted) (status stage : ℤ) (message : List UInt8) :
    h.Move (.fail status stage message) (h.step (.fail status stage message)) := by
  by_cases hrejected : StreamingRequestState.RejectsFailure status stage message ∨
      h.request.state ≠ .running
  · obtain ⟨error, hfail⟩ := StreamingRequestState.fail_of_not hrejected
    rw [step_eq_self (.error error) (by simp [RequestSystem.call, hfail,
      RequestReply.of]) rfl rfl]
    exact .stay
  · rw [not_or, not_not] at hrejected
    have hfail := StreamingRequestState.fail_of_running haccounted hrejected.1 hrejected.2
    exact move_of_clears_bumped () (fun _ => .done) (by rw [RequestSystem.call, hfail])
      (.fail status stage message hrejected.2 hrejected.1) rfl

theorem move_acquireAudio
    (hfresh : ∀ lease ∈ h.request.liveLeases, lease.leaseId < h.leaseIds.next) :
    h.Move .acquireAudio (h.step .acquireAudio) := by
  have hstay : ∀ error, h.request.acquireAudio h.leaseIds = (.error error, h.request, h.leaseIds) →
      h.Move .acquireAudio (h.step .acquireAudio) := by
    intro error hacquire
    rw [step_eq_self (.error error) (by simp [RequestSystem.call, hacquire,
      RequestReply.of]) rfl rfl]
    exact .stay
  by_cases hexhausted : h.leaseIds.Exhausted
  · obtain ⟨error, hacquire⟩ :
        ∃ error, h.request.acquireAudio h.leaseIds = (.error error, h.request, h.leaseIds) :=
      StreamingRequestState.acquireAudio_of_exhausted hexhausted
    exact hstay error hacquire
  · cases havailable : h.request.availableAudio with
    | nil =>
      obtain ⟨error, hacquire⟩ :
          ∃ error, h.request.acquireAudio h.leaseIds = (.error error, h.request, h.leaseIds) :=
        StreamingRequestState.acquireAudio_of_nil havailable
      exact hstay error hacquire
    | cons chunk rest =>
      have hacquire := StreamingRequestState.acquireAudio_of_cons havailable hexhausted
        fun lease hmem => Nat.ne_of_lt (hfresh lease hmem)
      have hviews := incrementRevision_reply
        (h.request.leased rest ⟨h.leaseIds.next, chunk⟩)
        (StoredLease.view ⟨h.leaseIds.next, chunk⟩) .lease
      have htaken : (h.request.leased rest ⟨h.leaseIds.next, chunk⟩).bumped.liveLeases.drop
          h.request.liveLeases.length = [⟨h.leaseIds.next, chunk⟩] := by
        rw [bumped_liveLeases]
        exact List.drop_left
      have hstep : h.step .acquireAudio = { h with
          request := (h.request.leased rest ⟨h.leaseIds.next, chunk⟩).bumped
          leaseIds := ⟨h.leaseIds.next + 1⟩
          taken := h.taken ++ [⟨h.leaseIds.next, chunk⟩]
          returned := h.returned ++ returnedBy (RequestReply.of .lease
            ((h.request.leased rest ⟨h.leaseIds.next, chunk⟩).incrementRevision
              (StoredLease.view ⟨h.leaseIds.next, chunk⟩)).1) } := by
        simp only [step, RequestSystem.step, RequestSystem.call, hacquire, acceptedBy, takenBy,
          releasedBy, discardedBy, List.append_nil, htaken]
      rw [hstep]
      refine .take chunk rest _ havailable ?_
      rcases hviews with hreply | ⟨hmax, error, hreply⟩
      · rw [hreply]
        exact Or.inr rfl
      · rw [hreply]
        exact Or.inl ⟨rfl, hmax⟩

theorem move_releaseAudio (haccounted : h.request.Accounted) (leaseId : ℕ) :
    h.Move (.releaseAudio leaseId) (h.step (.releaseAudio leaseId)) := by
  cases hfind : h.request.liveLeases.find? fun lease => lease.leaseId = leaseId with
  | none =>
    obtain ⟨error, hrelease⟩ := StreamingRequestState.releaseAudio_of_none hfind
    rw [step_eq_self (.error error) (by simp [RequestSystem.call, hrelease,
      RequestReply.of]) rfl rfl]
    exact .stay
  | some found =>
    have hrelease := StreamingRequestState.releaseAudio_of_some haccounted hfind
    have hid : found.leaseId = leaseId := by simpa using List.find?_some hfind
    have hlength : (h.request.unleased found).bumped.liveLeases.length <
        h.request.liveLeases.length := by
      have hmem := List.mem_of_find?_eq_some hfind
      have hpos := List.length_pos_of_mem hmem
      rw [bumped_liveLeases, StreamingRequestState.unleased,
        List.length_eraseP_of_mem hmem (by simp)]
      omega
    have hqueue : (h.request.unleased found).bumped.availableAudio = h.request.availableAudio := by
      rw [bumped_availableAudio]
      rfl
    have hreply := incrementRevision_reply (h.request.unleased found) () fun _ => .done
    have hreturned : returnedBy (RequestReply.of (fun _ => RequestReply.done)
        ((h.request.unleased found).incrementRevision ()).1) = [] := by
      rcases hreply with hreply | ⟨-, error, hreply⟩ <;> rw [hreply] <;> rfl
    have hstep : h.step (.releaseAudio leaseId) = { h with
        request := (h.request.unleased found).bumped
        released := h.released ++ [found.chunk] } := by
      simp only [step, RequestSystem.step, RequestSystem.call, hrelease, acceptedBy, takenBy,
        releasedBy, List.append_nil, hreturned, StreamingRequestState.incrementRevision_snd,
        if_pos hlength, hfind, discardedBy_eq_nil hqueue]
      rfl
    rw [hstep]
    subst hid
    exact .release found rfl hfind

/-- **What a call can do.** Every call on an accounted request with fresh lease identifiers is a
move, unless it publishes at the last revision. -/
theorem move_step (haccounted : h.request.Accounted)
    (hfresh : ∀ lease ∈ h.request.liveLeases, lease.leaseId < h.leaseIds.next)
    (hrevision : ¬ h.PublishesAtLastRevision c) : h.Move c (h.step c) := by
  cases c with
  | publish chunk => exact move_publish chunk hrevision
  | discardUnleasedAudio =>
    have hdiscard := StreamingRequestState.discardUnleasedAudio_eq haccounted
    exact move_of_clears (by rw [RequestSystem.call, hdiscard]) .discardUnleasedAudio rfl
  | requestCancellation => exact move_requestCancellation haccounted
  | completeCancellation => exact move_completeCancellation haccounted
  | completeCancellationAfterDrain => exact move_completeCancellationAfterDrain haccounted
  | fail status stage message => exact move_fail haccounted status stage message
  | acquireAudio => exact move_acquireAudio hfresh
  | releaseAudio leaseId => exact move_releaseAudio haccounted leaseId
  | drawElsewhere =>
    have hstep : h.step .drawElsewhere = { h with leaseIds := h.leaseIds.acquire.2 } := by
      simp [step, RequestSystem.step, RequestSystem.call, acceptedBy, takenBy, returnedBy,
        releasedBy, discardedBy_eq_nil]
    rw [hstep]
    refine .draw _ ?_
    rw [LeaseIdSequence.acquire]
    split
    · exact le_refl _
    · exact Nat.le_succ _

end RequestHistory

end MagpieTts.Runtime
