import MagpieTts.Runtime.OutputCapacity
import MagpieTts.Runtime.RequestAllocation

/-!
# Draining the startup request

`run_startup_producer_until_drained` runs a producer in a thread of its own and drains what it
publishes with `drain_startup_request_until_finished`. Producer and drain can fail at any point. The
function joins the producer in every case, and reports the failure of the drain before that of the
producer.

## Main definitions

* `DrainPoint`, `StartupRun.drainStep`: the steps of the draining thread.
* `StartupRun.step`: producer and drain, interleaved.
* `ObservedStartup`: a run with the errors that the two threads have thrown.
* `ObservedStartup.StartupDrains`: what holds at the end.

## Main results

* `startupDrain_run`: the end of every run below the last revision.
-/

namespace MagpieTts.Runtime

open MagpieTts.Library

/-- An exception in the drain or in the producer: one of the request state, or any other. -/
inductive StartupException where
  | handOver (error : HandOverError)
  | raised (what : String)
  deriving DecidableEq

/-- The producer thread: in the producer, behind it with the flag still to be set, or done. -/
inductive ProducerState where
  | running
  | ended (error : Option StartupException)
  | done (error : Option StartupException)
  deriving DecidableEq

/-- `producer_done`. -/
def ProducerState.isDone : ProducerState → Bool
  | done _ => true
  | _ => false

/-- A point of the draining thread, named after what it does next. `completed` is
`completion_observed`. -/
inductive DrainPoint where
  | snapshot (completed : Bool)
  | acquire (completed : Bool)
  | release (completed : Bool) (leaseId : ℕ)
  | poll (revision : ℕ)
  | wait (revision : ℕ)
  | blocked (revision : ℕ)
  | caught (error : StartupException)
  | joining (drainError : Option StartupException)
  | ended (drainError : Option StartupException)
  deriving DecidableEq

/-- The startup request with the chunks that were published and consumed so far, and its
producer. -/
structure StartupState where
  request : StreamingRequestState
  leaseIds : LeaseIdSequence
  published : List AudioChunk
  consumed : List AudioChunk
  producer : ProducerState
  deriving DecidableEq

/-- The two threads. -/
structure StartupRun extends StartupState where
  point : DrainPoint
  deriving DecidableEq

/-- A call of the producer, its end, the flag it sets, a step of the drain under a choice of the
allocations that fail, or another exception in an operation of the drain. -/
inductive StartupAction where
  | produce (call : WorkerCall)
  | finish (error : Option StartupException)
  | storeDone
  | drain (fails : AllocationPoint → Bool) (timedOut : Bool)
  | fault (what : String)

namespace StartupState

variable (self : StartupState)

/-- The drain behind a snapshot: the inner loop, the return, or the look at the producer. -/
def observe (fails : AllocationPoint → Bool) (completed : Bool) : DrainPoint :=
  match self.request.snapshot with
  | .error error => .caught (.handOver (throwState fails error))
  | .ok snapshot =>
    if snapshot.availableAudioLeases ≠ 0 then .acquire completed
    else if completed then .joining none
    else .poll snapshot.revision

/-- The loop of `wait_for` in `wait_for_revision`, whose outcome the drain ignores. -/
def sleep (fails : AllocationPoint → Bool) (revision : ℕ) : DrainPoint :=
  if revision < self.request.revision then
    match self.request.snapshot with
    | .error error => .caught (.handOver (throwState fails error))
    | .ok _ => .snapshot false
  else
    .blocked revision

end StartupState

namespace StartupRun

/-- The request is fresh, and so are its lease identifiers. -/
def start (request : StreamingRequestState) : StartupRun where
  request := request
  leaseIds := ⟨1⟩
  published := []
  consumed := []
  producer := .running
  point := .snapshot false

variable (self : StartupRun)

/-- The next step of the draining thread. -/
def drainStep (fails : AllocationPoint → Bool) (timedOut : Bool) : StartupRun :=
  match self.point with
  | .snapshot completed => { self with point := self.observe fails completed }
  | .acquire completed =>
    match self.request.acquireAudioAllocating fails self.leaseIds with
    | (.ok view, request, leaseIds) =>
      { self with request, leaseIds, point := .release completed view.leaseId }
    | (.error error, request, leaseIds) =>
      { self with request, leaseIds, point := .caught (.handOver error) }
  | .release completed leaseId =>
    match self.request.releaseAudio leaseId with
    | (.ok (), request) =>
      { self with
        request
        consumed := self.consumed ++
          (self.request.liveLeases.find? fun lease => lease.leaseId = leaseId).toList.map
            StoredLease.chunk
        point := .snapshot completed }
    | (.error error, request) =>
      { self with request, point := .caught (.handOver (throwState fails error)) }
  | .poll revision =>
    if self.producer.isDone then { self with point := .snapshot true }
    else { self with point := .wait revision }
  | .wait revision => { self with point := self.sleep fails revision }
  | .blocked revision =>
    if timedOut ∧ self.request.revision ≤ revision then { self with point := .snapshot false }
    else { self with point := self.sleep fails revision }
  | .caught error =>
    match self.request.requestCancellation with
    | (.ok _, request) => { self with request, point := .joining (some error) }
    -- an exception of the handler replaces the one it handles, and the thread joins as it unwinds
    | (.error secondary, request) =>
      { self with
        request
        point := .joining (some (.handOver (throwState fails secondary))) }
  | .joining drainError =>
    if self.producer.isDone then { self with point := .ended drainError } else self
  | .ended _ => self

/-- The operations of the drain that can throw, other than the release of its lease. -/
def DrainPoint.Throws : DrainPoint → Bool
  | .snapshot _ => true
  | .acquire _ => true
  | .wait _ => true
  | .blocked _ => true
  | _ => false

def step (self : StartupRun) : StartupAction → StartupRun
  | .produce call =>
    match self.producer with
    | .running =>
      let system : RequestSystem := ⟨self.request, self.leaseIds⟩
      { self with
        request := (system.call call.toRequestCall).2.request
        leaseIds := (system.call call.toRequestCall).2.leaseIds
        published := self.published ++
          RequestHistory.acceptedBy call.toRequestCall (system.call call.toRequestCall).1 }
    | _ => self
  | .finish error =>
    match self.producer with
    | .running => { self with producer := .ended error }
    | _ => self
  | .storeDone =>
    match self.producer with
    | .ended error => { self with producer := .done error }
    | _ => self
  | .drain fails timedOut => self.drainStep fails timedOut
  | .fault what =>
    if DrainPoint.Throws self.point then { self with point := .caught (.raised what) } else self

/-- How the function has ended. -/
def outcome : Option (Except StartupException Unit) :=
  match self.point, self.producer with
  | .ended (some error), _ => some (.error error)
  | .ended none, .done (some error) => some (.error error)
  | .ended none, _ => some (.ok ())
  | _, _ => none

end StartupRun

/-! ### Frames that are at least covered -/

namespace StreamingRequestState

variable {self : StreamingRequestState} {chunk : AudioChunk}

/-- The occupied frames cover the queue and the leases. They may be more: a chunk is lost when its
lease cannot be stored. -/
structure Covered (request : StreamingRequestState) : Prop where
  covers : request.queueFrames + request.leaseFrames ≤ request.occupiedCodecFrames
  occupied_le : request.occupiedCodecFrames ≤ request.pcmRingCapacityFrames
  capacity_le : request.pcmRingCapacityFrames ≤ maximumUint32

/-- The state that the discard of the queue leaves. -/
def discarded (request : StreamingRequestState) : StreamingRequestState :=
  { request with
    occupiedCodecFrames := request.occupiedCodecFrames - request.queueFrames
    availableAudio := [] }

theorem Covered.discardUnleasedAudio_eq (h : self.Covered) :
    self.discardUnleasedAudio = (.ok (), self.discarded) := by
  have hcovers := h.covers
  rw [queueFrames] at hcovers
  rw [discardUnleasedAudio, subtractFrames_eq _ (by omega)]
  rfl

theorem Covered.discarded (h : self.Covered) : self.discarded.Covered := by
  have hcovers := h.covers
  have hle := h.occupied_le
  refine ⟨?_, Nat.le_trans (Nat.sub_le _ _) hle, h.capacity_le⟩
  have hqueue : self.discarded.queueFrames = 0 := rfl
  have hlease : self.discarded.leaseFrames = self.leaseFrames := rfl
  have hoccupied : self.discarded.occupiedCodecFrames =
      self.occupiedCodecFrames - self.queueFrames := rfl
  omega

theorem Covered.bumped (h : self.Covered) : self.bumped.Covered :=
  bumped_induction ⟨h.covers, h.occupied_le, h.capacity_le⟩
    ⟨h.covers, h.occupied_le, h.capacity_le⟩

theorem Covered.acceptChunk (h : self.Covered) (hvalid : self.ValidChunk chunk) :
    (self.acceptChunk chunk).Covered := by
  have hfits := hvalid.fits
  have hcovers := h.covers
  have hle := h.occupied_le
  have hcap := h.capacity_le
  rw [subUint32_eq hle hcap] at hfits
  have hoccupied : (self.acceptChunk chunk).occupiedCodecFrames =
      self.occupiedCodecFrames + chunk.codecFrameCount := addUint32_eq (by omega)
  have hqueue : (self.acceptChunk chunk).queueFrames =
      self.queueFrames + chunk.codecFrameCount := by
    simp [queueFrames, StreamingRequestState.acceptChunk]
  have hlease : (self.acceptChunk chunk).leaseFrames = self.leaseFrames := rfl
  refine ⟨by omega, ?_, hcap⟩
  change _ ≤ self.pcmRingCapacityFrames
  omega

theorem Covered.popped (h : self.Covered) {rest : List AudioChunk}
    (havailable : self.availableAudio = chunk :: rest) :
    Covered { self with availableAudio := rest } := by
  have hcovers := h.covers
  refine ⟨?_, h.occupied_le, h.capacity_le⟩
  simp only [queueFrames, leaseFrames, havailable, List.map_cons, List.sum_cons] at hcovers
  simp only [queueFrames, leaseFrames]
  omega

theorem Covered.leased (h : self.Covered) {rest : List AudioChunk}
    (havailable : self.availableAudio = chunk :: rest) (leaseId : ℕ) :
    (self.leased rest ⟨leaseId, chunk⟩).Covered := by
  have hcovers := h.covers
  refine ⟨?_, h.occupied_le, h.capacity_le⟩
  simp only [queueFrames, leaseFrames, havailable, List.map_cons, List.sum_cons] at hcovers
  simp only [queueFrames, leaseFrames, StreamingRequestState.leased, List.map_append,
    List.map_singleton, List.sum_append, List.sum_singleton]
  omega

/-- The release of the only lease. -/
theorem Covered.releaseAudio_eq (h : self.Covered) {leaseId : ℕ}
    (hleases : self.liveLeases = [⟨leaseId, chunk⟩]) (hrevision : self.revision ≠ maximumUint64) :
    self.releaseAudio leaseId = (.ok (), { self with
      occupiedCodecFrames := self.occupiedCodecFrames - chunk.codecFrameCount
      liveLeases := []
      revision := self.revision + 1 }) ∧
    Covered { self with
      occupiedCodecFrames := self.occupiedCodecFrames - chunk.codecFrameCount
      liveLeases := []
      revision := self.revision + 1 } := by
  have hcovers := h.covers
  have hle := h.occupied_le
  have hlease : self.leaseFrames = chunk.codecFrameCount := by
    rw [leaseFrames, hleases]
    simp
  constructor
  · rw [releaseAudio, hleases]
    simp only [List.find?_singleton, decide_true, if_true]
    rw [if_neg (by omega), incrementRevision_of_lt (by exact hrevision)]
    simp
  · refine ⟨?_, Nat.le_trans (Nat.sub_le _ _) hle, h.capacity_le⟩
    change self.queueFrames + 0 ≤ self.occupiedCodecFrames - chunk.codecFrameCount
    omega

/-- What a call of the producer does. -/
structure Produced (before after : StreamingRequestState) (accepted : List AudioChunk) : Prop where
  covered : after.Covered
  liveLeases_eq : after.liveLeases = before.liveLeases
  cancelled_eq : after.cancellationRequested = before.cancellationRequested
  revision_le : before.revision ≤ after.revision
  failed_of : before.state = .failed → after.state = .failed
  stopped_of : before.state ≠ .running → after.state ≠ .running
  opened : before.cancellationRequested = false →
    (after.state = .failed ∧ after.availableAudio = [] ∧ accepted = []) ∨
    (after.state = before.state ∧ after.availableAudio = before.availableAudio ∧
      accepted = []) ∨
    ∃ chunk, accepted = [chunk] ∧ before.state = .running ∧
      after.availableAudio = before.availableAudio ++ [chunk] ∧
      (after.state = .running → 4 ≤ chunk.codecFrameCount)

theorem Produced.refl (h : self.Covered) : Produced self self [] :=
  ⟨h, rfl, rfl, Nat.le_refl _, id, id, fun _ => Or.inr (Or.inl ⟨rfl, rfl, rfl⟩)⟩

theorem Produced.bumped {after : StreamingRequestState} {accepted : List AudioChunk}
    (h : Produced self after accepted) : Produced self after.bumped accepted := by
  obtain ⟨hcovered, hleases, hcancelled, hrevision, hfailed, hstopped, hopened⟩ := h
  refine ⟨hcovered.bumped, ?_, ?_, ?_, ?_, ?_, ?_⟩
  all_goals
    rw [StreamingRequestState.bumped]
    split_ifs
    · assumption
    · first
      | assumption
      | exact Nat.le_succ_of_le hrevision

theorem produced_publish (h : self.Covered) (chunk : AudioChunk)
    (hrevision : self.revision ≠ maximumUint64) :
    Produced self (self.publish chunk).2
      (RequestHistory.acceptedBy (.publish chunk) (.of .published (self.publish chunk).1)) := by
  by_cases hcancelled : self.cancellationRequested = true
  · rw [publish_of_cancelled hcancelled]
    exact Produced.refl h
  · rw [Bool.not_eq_true] at hcancelled
    by_cases hvalid : self.ValidChunk chunk
    · rw [publish_of_valid hcancelled hvalid, incrementRevision_snd,
        incrementRevision_of_lt (by exact hrevision)]
      refine Produced.bumped ⟨h.acceptChunk hvalid, rfl, rfl, Nat.le_refl _,
        fun hfailed => ?_, fun hne => absurd hvalid.running hne, fun _ => ?_⟩
      · rw [hvalid.running] at hfailed
        cases hfailed
      · refine Or.inr (Or.inr ⟨chunk, rfl, hvalid.running, rfl, fun hrunning => ?_⟩)
        have hfinal : chunk.final = false := by
          by_contra hfinal
          rw [Bool.not_eq_false] at hfinal
          simp [StreamingRequestState.acceptChunk, hfinal] at hrunning
        cases hfirst : chunk.first with
        | true => exact Nat.le_of_eq (hvalid.first_frames hfirst).symm
        | false =>
          rw [hvalid.steady_frames hfirst hfinal]
          decide
    · obtain ⟨error, hpublish⟩ := publish_of_not_valid hcancelled hvalid
      rw [hpublish]
      exact Produced.refl h

theorem produced_completeCancellation (h : self.Covered) :
    Produced self self.completeCancellation.2 [] := by
  rw [completeCancellation]
  split_ifs with hguard
  · exact Produced.refl h
  · rw [not_or, not_not, Bool.not_eq_false] at hguard
    rw [h.discardUnleasedAudio_eq]
    have hdiscarded := h.discarded
    exact
      { covered := ⟨hdiscarded.covers, hdiscarded.occupied_le, hdiscarded.capacity_le⟩
        liveLeases_eq := rfl
        cancelled_eq := rfl
        revision_le := Nat.le_refl _
        failed_of := fun hfailed => by rw [hguard.1] at hfailed; cases hfailed
        stopped_of := fun hne => absurd hguard.1 hne
        opened := fun hopen => by rw [hguard.2] at hopen; cases hopen }

theorem produced_fail (h : self.Covered) (status stage : ℤ) (message : List UInt8) :
    Produced self (self.fail status stage message).2 [] := by
  rw [fail]
  split_ifs with hrejected hrunning
  · exact Produced.refl h
  · exact Produced.refl h
  · rw [not_not] at hrunning
    rw [h.discardUnleasedAudio_eq, incrementRevision_snd]
    have hdiscarded := h.discarded
    exact Produced.bumped
      { covered := ⟨hdiscarded.covers, hdiscarded.occupied_le, hdiscarded.capacity_le⟩
        liveLeases_eq := rfl
        cancelled_eq := rfl
        revision_le := Nat.le_refl _
        failed_of := fun _ => rfl
        stopped_of := fun hne => absurd hrunning hne
        opened := fun _ => Or.inl ⟨rfl, rfl, rfl⟩ }

/-- Every call of the producer. -/
theorem produced_call (h : self.Covered) (hrevision : self.revision ≠ maximumUint64)
    (ids : LeaseIdSequence) (call : WorkerCall) :
    Produced self ((⟨self, ids⟩ : RequestSystem).call call.toRequestCall).2.request
        (RequestHistory.acceptedBy call.toRequestCall
          ((⟨self, ids⟩ : RequestSystem).call call.toRequestCall).1) ∧
      ((⟨self, ids⟩ : RequestSystem).call call.toRequestCall).2.leaseIds = ids := by
  cases call with
  | publish chunk => exact ⟨produced_publish h chunk hrevision, rfl⟩
  | completeCancellation => exact ⟨produced_completeCancellation h, rfl⟩
  | completeCancellationAfterDrain =>
    refine ⟨?_, rfl⟩
    change Produced self self.completeCancellationAfterDrain.2 []
    rw [completeCancellationAfterDrain]
    split_ifs with hguard
    · exact Produced.refl h
    · have hcompleted := produced_completeCancellation h
      cases hcomplete : self.completeCancellation with
      | mk outcome next =>
        rw [hcomplete] at hcompleted
        cases outcome with
        | error error => exact hcompleted
        | ok value =>
          simp only [incrementRevision_snd]
          exact hcompleted.bumped
  | fail status stage message => exact ⟨produced_fail h status stage message, rfl⟩

/-- Below the last revision, a cancellation does not throw, and closes the request. -/
theorem Covered.requestCancellation (h : self.Covered) (hrevision : self.revision ≠ maximumUint64) :
    ∃ accepted after, self.requestCancellation = (.ok accepted, after) ∧ after.Covered ∧
      after.liveLeases = self.liveLeases ∧
      (after.cancellationRequested = true ∨ after.state ≠ .running) ∧
      (self.state = .failed → after.state = .failed) := by
  rw [StreamingRequestState.requestCancellation]
  by_cases hcancelled : self.state = .cancelled
  · refine ⟨true, self, if_pos hcancelled, h, rfl, Or.inr ?_, id⟩
    rw [hcancelled]
    rintro ⟨⟩
  · by_cases hrunning : self.state = .running
    · rw [if_neg hcancelled, if_neg (not_not.mpr hrunning)]
      by_cases hrequested : self.cancellationRequested = true
      · exact ⟨true, self, if_pos hrequested, h, rfl, Or.inl hrequested, id⟩
      · have hcovered : Covered { self with cancellationRequested := true } :=
          ⟨h.covers, h.occupied_le, h.capacity_le⟩
        have hdiscarded := hcovered.discarded
        rw [if_neg hrequested, hcovered.discardUnleasedAudio_eq]
        simp only
        rw [incrementRevision_of_lt (by exact hrevision)]
        exact ⟨true, _, rfl, ⟨hdiscarded.covers, hdiscarded.occupied_le, hdiscarded.capacity_le⟩,
          rfl, Or.inl rfl, id⟩
    · exact ⟨false, self, by rw [if_neg hcancelled, if_pos hrunning], h, rfl, Or.inr hrunning, id⟩

end StreamingRequestState

/-! ### The invariant of a run -/

namespace StartupState

open StreamingRequestState

/-- As long as the drain has not failed: its leases, and the chunks in the order of their
publication, unless the producer has failed the request and so emptied the queue. -/
structure Draining (s : StartupState) (leases : List StoredLease) : Prop where
  liveLeases_eq : s.request.liveLeases = leases
  opened : s.request.cancellationRequested = false
  leaseIds_pos : 0 < s.leaseIds.next
  leaseIds_le : s.leaseIds.next ≤ s.request.revision
  order : s.request.state ≠ .failed → s.published =
    s.consumed ++ leases.map StoredLease.chunk ++ s.request.availableAudio
  frames : ∀ chunk ∈ s.request.availableAudio.dropLast, 4 ≤ chunk.codecFrameCount
  running_frames : s.request.state = .running →
    ∀ chunk ∈ s.request.availableAudio, 4 ≤ chunk.codecFrameCount

/-- An error of the request state is a secondary one: the producer has failed the request. -/
def Original (s : StartupState) (error : StartupException) : Prop :=
  ∀ e, error = .handOver (.state e) → s.request.state = .failed

/-- The drain is over: nothing is queued or leased, and the producer is done. -/
structure Drained (s : StartupState) : Prop extends Draining s [] where
  queue_eq : s.request.availableAudio = []
  done : s.producer.isDone = true

/-- The drain has failed: it holds no lease, and the request is closed. -/
structure DrainFailed (s : StartupState) (error : StartupException) : Prop where
  liveLeases_eq : s.request.liveLeases = []
  closed : s.request.cancellationRequested = true ∨ s.request.state ≠ .running
  original : s.Original error

/-- What is known at a point of the draining thread. -/
def PointHolds (s : StartupState) : DrainPoint → Prop
  | .snapshot completed => s.Draining [] ∧ (completed = true → s.producer.isDone = true)
  | .acquire completed => s.Draining [] ∧ (completed = true → s.producer.isDone = true) ∧
      (s.request.state ≠ .failed → s.request.availableAudio ≠ [])
  | .release completed leaseId => (∃ chunk, s.Draining [⟨leaseId, chunk⟩]) ∧
      (completed = true → s.producer.isDone = true)
  | .poll _ => s.Draining []
  | .wait _ => s.Draining []
  | .blocked _ => s.Draining []
  | .caught error => s.request.liveLeases = [] ∧ s.Original error
  | .joining none => s.Drained
  | .joining (some error) => s.DrainFailed error
  | .ended none => s.Drained
  | .ended (some error) => s.DrainFailed error ∧ s.producer.isDone = true

variable {self : StartupState}

theorem Draining.length_queue_le (h : self.Draining []) (hcovered : self.request.Covered) :
    self.request.availableAudio.length ≤ maximumUint32 := by
  have hcovers := hcovered.covers
  have hle := hcovered.occupied_le
  have hcap := hcovered.capacity_le
  have hsum : self.request.availableAudio.dropLast.length * 4 ≤ self.request.queueFrames := by
    have hdropLast := List.card_nsmul_le_sum
      (self.request.availableAudio.dropLast.map AudioChunk.codecFrameCount) 4
      (List.forall_mem_map.mpr h.frames)
    have hsublist := ((List.dropLast_sublist self.request.availableAudio).map
      AudioChunk.codecFrameCount).sum_le_sum (by simp)
    rw [List.length_map, Nat.nsmul_eq_mul] at hdropLast
    exact Nat.le_trans hdropLast hsublist
  rw [List.length_dropLast] at hsum
  rw [maximumUint32] at hcap ⊢
  omega

theorem Drained.consumed_eq (h : self.Drained)
    (hstate : self.request.state ≠ .failed) :
    self.consumed = self.published := by
  rw [h.order hstate, h.queue_eq, List.map_nil, List.append_nil, List.append_nil]

theorem snapshot_eq_ok (h : self.Draining []) (hcovered : self.request.Covered) :
    ∃ snapshot, self.request.snapshot = .ok snapshot ∧
      snapshot.availableAudioLeases = self.request.availableAudio.length := by
  have hlength := h.length_queue_le hcovered
  rw [StreamingRequestState.snapshot, if_neg (by omega)]
  exact ⟨_, rfl, rfl⟩

/-- A call of the producer keeps what is known, below the last revision. -/
theorem Draining.produce {leases : List StoredLease} (h : self.Draining leases)
    {after : StreamingRequestState} {accepted : List AudioChunk}
    (hproduced : Produced self.request after accepted) :
    Draining { self with request := after, published := self.published ++ accepted } leases := by
  have hrevision := hproduced.revision_le
  have hids := h.leaseIds_le
  refine ⟨hproduced.liveLeases_eq.trans h.liveLeases_eq, hproduced.cancelled_eq.trans h.opened,
    h.leaseIds_pos, Nat.le_trans hids hrevision, ?_, ?_, ?_⟩
  · intro hstate
    rcases hproduced.opened h.opened with ⟨hfailed, -, -⟩ | ⟨hsame, hqueue, rfl⟩ |
      ⟨chunk, rfl, hrunning, hqueue, -⟩
    · exact absurd hfailed hstate
    · change self.published ++ [] = self.consumed ++ _ ++ after.availableAudio
      rw [hqueue, List.append_nil]
      exact h.order fun hfailed => hstate (hproduced.failed_of hfailed)
    · change self.published ++ [chunk] = self.consumed ++ _ ++ after.availableAudio
      rw [hqueue, ← List.append_assoc, ← h.order]
      rw [hrunning]
      exact nofun
  · rcases hproduced.opened h.opened with ⟨-, hqueue, -⟩ | ⟨-, hqueue, -⟩ |
      ⟨chunk, -, hrunning, hqueue, -⟩
    · simp [hqueue]
    · simpa only [hqueue] using h.frames
    · simpa only [hqueue, List.dropLast_concat] using h.running_frames hrunning
  · intro hstate
    rcases hproduced.opened h.opened with ⟨hfailed, -, -⟩ | ⟨hsame, hqueue, -⟩ |
      ⟨chunk, -, hrunning, hqueue, hfour⟩
    · simp only [hfailed] at hstate
      cases hstate
    · simpa only [hqueue] using h.running_frames (hsame ▸ hstate)
    · intro other hmem
      simp only [hqueue] at hmem
      rcases List.mem_append.mp hmem with hold | hnew
      · exact h.running_frames hrunning other hold
      · rw [List.mem_singleton.mp hnew]
        exact hfour hstate

theorem Original.produce {error : StartupException} (h : self.Original error)
    {after : StreamingRequestState} {accepted : List AudioChunk}
    (hproduced : Produced self.request after accepted) :
    Original { self with request := after, published := self.published ++ accepted } error :=
  fun e heq => hproduced.failed_of (h e heq)

theorem DrainFailed.produce {error : StartupException} (h : self.DrainFailed error)
    {after : StreamingRequestState} {accepted : List AudioChunk}
    (hproduced : Produced self.request after accepted) :
    DrainFailed { self with request := after, published := self.published ++ accepted } error where
  liveLeases_eq := hproduced.liveLeases_eq.trans h.liveLeases_eq
  closed := h.closed.imp (fun hcancelled => hproduced.cancelled_eq.trans hcancelled)
    hproduced.stopped_of
  original := h.original.produce hproduced

/-- A call of the producer, which is not done. -/
theorem PointHolds.produce {point : DrainPoint} (hpoint : self.PointHolds point)
    (hrunning : self.producer.isDone = false) {after : StreamingRequestState}
    {accepted : List AudioChunk} (hproduced : Produced self.request after accepted) :
    PointHolds { self with request := after, published := self.published ++ accepted } point := by
  have hnotDone : self.producer.isDone ≠ true := by
    rw [hrunning]
    exact Bool.false_ne_true
  cases point with
  | snapshot completed => exact ⟨hpoint.1.produce hproduced, hpoint.2⟩
  | acquire completed =>
    refine ⟨hpoint.1.produce hproduced, hpoint.2.1, fun hstate => ?_⟩
    rcases hproduced.opened hpoint.1.opened with ⟨hfailed, -, -⟩ | ⟨hsame, hqueue, -⟩ |
      ⟨chunk, -, -, hqueue, -⟩
    · exact absurd hfailed hstate
    · simp only [hqueue]
      exact hpoint.2.2 fun hfailed => hstate (hproduced.failed_of hfailed)
    · simp [hqueue]
  | release completed leaseId =>
    obtain ⟨⟨chunk, hdraining⟩, hdone⟩ := hpoint
    exact ⟨⟨chunk, hdraining.produce hproduced⟩, hdone⟩
  | poll revision => exact Draining.produce hpoint hproduced
  | wait revision => exact Draining.produce hpoint hproduced
  | blocked revision => exact Draining.produce hpoint hproduced
  | caught error => exact ⟨hproduced.liveLeases_eq.trans hpoint.1, hpoint.2.produce hproduced⟩
  | joining drainError =>
    cases drainError with
    | none => exact absurd (Drained.done hpoint) hnotDone
    | some error => exact DrainFailed.produce hpoint hproduced
  | ended drainError =>
    cases drainError with
    | none => exact absurd (Drained.done hpoint) hnotDone
    | some error => exact absurd hpoint.2 hnotDone

theorem Draining.producer {leases : List StoredLease} (h : self.Draining leases)
    (producer : ProducerState) : Draining { self with producer } leases :=
  ⟨h.liveLeases_eq, h.opened, h.leaseIds_pos, h.leaseIds_le, h.order, h.frames, h.running_frames⟩

/-- The producer goes on, and what it has set stays set. -/
theorem PointHolds.producer {point : DrainPoint} (hpoint : self.PointHolds point)
    {producer : ProducerState} (hdone : self.producer.isDone = true → producer.isDone = true) :
    PointHolds { self with producer } point := by
  cases point with
  | snapshot completed => exact ⟨hpoint.1.producer _, fun hcompleted => hdone (hpoint.2 hcompleted)⟩
  | acquire completed =>
    exact ⟨hpoint.1.producer _, fun hcompleted => hdone (hpoint.2.1 hcompleted), hpoint.2.2⟩
  | release completed leaseId =>
    obtain ⟨⟨chunk, hdraining⟩, hcompleted⟩ := hpoint
    exact ⟨⟨chunk, hdraining.producer _⟩, fun h => hdone (hcompleted h)⟩
  | poll revision => exact Draining.producer hpoint _
  | wait revision => exact Draining.producer hpoint _
  | blocked revision => exact Draining.producer hpoint _
  | caught error => exact hpoint
  | joining drainError =>
    cases drainError with
    | none =>
      have hdrained : self.Drained := hpoint
      exact ⟨hdrained.toDraining.producer _, hdrained.queue_eq, hdone hdrained.done⟩
    | some error =>
      have hfailed : self.DrainFailed error := hpoint
      exact ⟨hfailed.liveLeases_eq, hfailed.closed, hfailed.original⟩
  | ended drainError =>
    cases drainError with
    | none =>
      have hdrained : self.Drained := hpoint
      exact ⟨hdrained.toDraining.producer _, hdrained.queue_eq, hdone hdrained.done⟩
    | some error =>
      obtain ⟨hfailed, hend⟩ := hpoint
      exact ⟨⟨hfailed.liveLeases_eq, hfailed.closed, hfailed.original⟩, hdone hend⟩

/-! ### The steps of the drain -/

theorem observe_holds (hcovered : self.request.Covered) {completed : Bool}
    (hpoint : self.PointHolds (.snapshot completed)) (fails : AllocationPoint → Bool) :
    self.PointHolds (self.observe fails completed) := by
  obtain ⟨hdraining, hdone⟩ := hpoint
  obtain ⟨snapshot, hsnapshot, hcount⟩ := snapshot_eq_ok hdraining hcovered
  rw [observe, hsnapshot]
  simp only [hcount]
  split_ifs with hqueue hcompleted
  · refine ⟨hdraining, hdone, fun _ hempty => hqueue ?_⟩
    rw [hempty]
    rfl
  · exact ⟨hdraining, List.length_eq_zero_iff.mp (not_not.mp hqueue), hdone hcompleted⟩
  · exact hdraining

theorem sleep_holds (hcovered : self.request.Covered) (hdraining : self.Draining [])
    (fails : AllocationPoint → Bool) (revision : ℕ) :
    self.PointHolds (self.sleep fails revision) := by
  obtain ⟨snapshot, hsnapshot, -⟩ := snapshot_eq_ok hdraining hcovered
  rw [sleep, hsnapshot]
  split_ifs
  · exact ⟨hdraining, nofun⟩
  · exact hdraining

/-- The front of the queue on lease, below the last revision. -/
theorem Draining.lease (h : self.Draining []) {chunk : AudioChunk} {rest : List AudioChunk}
    (havailable : self.request.availableAudio = chunk :: rest) :
    Draining { self with
      request := { self.request.leased rest ⟨self.leaseIds.next, chunk⟩ with
        revision := self.request.revision + 1 }
      leaseIds := ⟨self.leaseIds.next + 1⟩ } [⟨self.leaseIds.next, chunk⟩] where
  liveLeases_eq := by
    change self.request.liveLeases ++ _ = _
    rw [h.liveLeases_eq, List.nil_append]
  opened := h.opened
  leaseIds_pos := Nat.succ_pos _
  leaseIds_le := Nat.succ_le_succ h.leaseIds_le
  order := by
    intro hstate
    have horder := h.order hstate
    rw [List.map_nil, List.append_nil, havailable] at horder
    change self.published = self.consumed ++ [chunk] ++ rest
    rw [horder, List.append_assoc, List.singleton_append]
  frames := by
    intro other hmem
    refine h.frames other ?_
    rw [havailable]
    cases rest with
    | nil => exact absurd hmem List.not_mem_nil
    | cons next rest => exact List.mem_cons_of_mem _ hmem
  running_frames := by
    intro hstate other hmem
    refine h.running_frames hstate other ?_
    rw [havailable]
    exact List.mem_cons_of_mem _ hmem

end StartupState

namespace StartupRun

open StartupState StreamingRequestState

structure Invariant (s : StartupRun) : Prop where
  covered : s.request.Covered
  point : s.PointHolds s.point

variable {self : StartupRun}

/-- The acquisition of the front of the queue. -/
theorem Invariant.acquire (h : self.Invariant) {completed : Bool}
    (hat : self.point = .acquire completed) (hlt : self.request.revision < maximumUint64)
    (fails : AllocationPoint → Bool) (timedOut : Bool) :
    (self.drainStep fails timedOut).Invariant := by
  have hrevision : self.request.revision ≠ maximumUint64 := Nat.ne_of_lt hlt
  have hpoint := h.point
  rw [hat] at hpoint
  obtain ⟨hdraining, hdone, hqueue⟩ := hpoint
  have hids : ¬ self.leaseIds.Exhausted := by
    have hpositive := hdraining.leaseIds_pos
    have hbound := hdraining.leaseIds_le
    rw [LeaseIdSequence.Exhausted]
    omega
  rw [drainStep, hat]
  simp only
  cases havailable : self.request.availableAudio with
  | nil =>
    have hchecks : ¬ (self.request.availableAudio ≠ [] ∧ ¬ self.leaseIds.Exhausted) :=
      fun hchecks => hchecks.1 havailable
    obtain ⟨error, -, hacquire⟩ := acquireAudioAllocating_of_not hchecks
    rw [hacquire]
    refine ⟨h.covered, hdraining.liveLeases_eq, fun _ _ => ?_⟩
    by_contra hstate
    exact hqueue hstate havailable
  | cons chunk rest =>
    have hleases := hdraining.liveLeases_eq
    rw [acquireAudioAllocating_of_cons havailable hids (by simp [hleases]),
      incrementRevision_of_lt (by exact hrevision)]
    by_cases hnode : fails .leaseNode = true
    · rw [if_pos hnode]
      exact ⟨h.covered.popped havailable, hleases, fun _ habsurd => by cases habsurd⟩
    · rw [if_neg hnode, StreamingRequestState.bumped, if_neg (by exact hrevision)]
      have hcovered := h.covered.leased havailable self.leaseIds.next
      exact ⟨⟨hcovered.covers, hcovered.occupied_le, hcovered.capacity_le⟩,
        ⟨chunk, hdraining.lease havailable⟩, hdone⟩

/-- The release of the lease: its chunk is consumed. -/
theorem Invariant.release (h : self.Invariant) {completed : Bool} {leaseId : ℕ}
    (hat : self.point = .release completed leaseId)
    (hrevision : self.request.revision ≠ maximumUint64) (fails : AllocationPoint → Bool)
    (timedOut : Bool) : (self.drainStep fails timedOut).Invariant := by
  have hpoint := h.point
  rw [hat] at hpoint
  obtain ⟨⟨chunk, hdraining⟩, hdone⟩ := hpoint
  have hleases := hdraining.liveLeases_eq
  obtain ⟨hrelease, hcovered⟩ := h.covered.releaseAudio_eq hleases hrevision
  have hconsumed : (self.request.liveLeases.find? fun lease => lease.leaseId = leaseId).toList.map
      StoredLease.chunk = [chunk] := by
    rw [hleases]
    simp
  rw [drainStep, hat]
  simp only [hrelease, hconsumed]
  refine ⟨hcovered, ?_, hdone⟩
  exact
    { liveLeases_eq := rfl
      opened := hdraining.opened
      leaseIds_pos := hdraining.leaseIds_pos
      leaseIds_le := Nat.le_succ_of_le hdraining.leaseIds_le
      order := by
        intro hstate
        rw [hdraining.order hstate, List.map_nil, List.append_nil]
        rfl
      frames := hdraining.frames
      running_frames := hdraining.running_frames }

/-- A step of the drain keeps the invariant, below the last revision. -/
theorem Invariant.drainStep (h : self.Invariant) (hlt : self.request.revision < maximumUint64)
    (fails : AllocationPoint → Bool) (timedOut : Bool) :
    (self.drainStep fails timedOut).Invariant := by
  have hrevision : self.request.revision ≠ maximumUint64 := Nat.ne_of_lt hlt
  have hpoint := h.point
  have hcovered := h.covered
  cases hat : self.point with
  | snapshot completed =>
    rw [hat] at hpoint
    rw [StartupRun.drainStep, hat]
    exact ⟨hcovered, observe_holds hcovered hpoint fails⟩
  | acquire completed => exact h.acquire hat hlt fails timedOut
  | release completed leaseId => exact h.release hat hrevision fails timedOut
  | poll revision =>
    rw [hat] at hpoint
    rw [StartupRun.drainStep, hat]
    simp only
    split_ifs with hdone
    · exact ⟨hcovered, hpoint, fun _ => hdone⟩
    · exact ⟨hcovered, hpoint⟩
  | wait revision =>
    rw [hat] at hpoint
    rw [StartupRun.drainStep, hat]
    exact ⟨hcovered, sleep_holds hcovered hpoint fails revision⟩
  | blocked revision =>
    rw [hat] at hpoint
    rw [StartupRun.drainStep, hat]
    simp only
    split_ifs
    · exact ⟨hcovered, hpoint, nofun⟩
    · exact ⟨hcovered, sleep_holds hcovered hpoint fails revision⟩
  | caught error =>
    rw [hat] at hpoint
    obtain ⟨accepted, after, hcancel, hafter, hleases, hclosed, hfailed⟩ :=
      hcovered.requestCancellation hrevision
    rw [StartupRun.drainStep, hat]
    simp only [hcancel]
    exact ⟨hafter, hleases.trans hpoint.1, hclosed, fun e heq => hfailed (hpoint.2 e heq)⟩
  | joining drainError =>
    rw [hat] at hpoint
    rw [StartupRun.drainStep, hat]
    simp only
    split_ifs with hdone
    · cases drainError with
      | none => exact ⟨hcovered, hpoint⟩
      | some error => exact ⟨hcovered, hpoint, hdone⟩
    · exact h
  | ended drainError =>
    rw [StartupRun.drainStep, hat]
    exact h

/-- Every step keeps the invariant, below the last revision. -/
theorem Invariant.step (h : self.Invariant) (hlt : self.request.revision < maximumUint64)
    (action : StartupAction) : (self.step action).Invariant := by
  cases action with
  | produce call =>
    rw [StartupRun.step]
    split
    · rename_i hproducer
      obtain ⟨hproduced, hids⟩ :=
        produced_call h.covered (Nat.ne_of_lt hlt) self.leaseIds call
      simp only [hids]
      exact ⟨hproduced.covered, h.point.produce (by rw [hproducer]; rfl) hproduced⟩
    · exact h
  | finish error =>
    rw [StartupRun.step]
    cases hproducer : self.producer with
    | running => exact ⟨h.covered, h.point.producer (by rw [hproducer]; exact nofun)⟩
    | ended error => exact h
    | done error => exact h
  | storeDone =>
    rw [StartupRun.step]
    cases hproducer : self.producer with
    | running => exact h
    | ended error => exact ⟨h.covered, h.point.producer fun _ => rfl⟩
    | done error => exact h
  | drain fails timedOut => exact h.drainStep hlt fails timedOut
  | fault what =>
    rw [StartupRun.step]
    split_ifs with hthrows
    · have hpoint := h.point
      refine ⟨h.covered, ?_, nofun⟩
      change self.request.liveLeases = []
      cases hat : self.point with
      | snapshot completed =>
        rw [hat] at hpoint
        exact hpoint.1.liveLeases_eq
      | acquire completed =>
        rw [hat] at hpoint
        exact hpoint.1.liveLeases_eq
      | wait revision =>
        rw [hat] at hpoint
        exact Draining.liveLeases_eq hpoint
      | blocked revision =>
        rw [hat] at hpoint
        exact Draining.liveLeases_eq hpoint
      | _ =>
        rw [hat] at hthrows
        cases hthrows
    · exact h

theorem invariant_start {textTokenCount capacity : ℕ} {request : StreamingRequestState}
    (hcapacity : capacity ≤ maximumUint32)
    (hrequest : StreamingRequestState.construct textTokenCount capacity = .ok request) :
    (start request).Invariant := by
  rw [StreamingRequestState.construct] at hrequest
  split_ifs at hrequest
  cases hrequest
  refine ⟨⟨Nat.le_refl _, Nat.zero_le _, hcapacity⟩, ?_, fun hstate => by cases hstate⟩
  exact ⟨rfl, rfl, Nat.one_pos, Nat.le_refl _, fun _ => rfl,
    fun _ hmem => absurd hmem List.not_mem_nil,
    fun _ _ hmem => absurd hmem List.not_mem_nil⟩

end StartupRun

/-! ### The errors of a run -/

/-- The error that has just reached the handler of the drain. -/
def DrainPoint.caughtError : DrainPoint → Option StartupException
  | caught error => some error
  | _ => none

/-- The error that the drain holds, for its handler or for the end of the function. -/
def DrainPoint.heldError : DrainPoint → Option StartupException
  | caught error => some error
  | joining drainError => drainError
  | ended drainError => drainError
  | _ => none

/-- The error that the producer holds. -/
def ProducerState.heldError : ProducerState → Option StartupException
  | running => none
  | ended error => error
  | done error => error

/-- The error with which the producer ends in a step. -/
def ProducerState.endsWith : ProducerState → StartupAction → Option StartupException
  | running, .finish error => error
  | _, _ => none

/-- A run with the errors that an observer of the two threads has seen: the first one that reached
the handler of the drain, and the one with which the producer ended. -/
structure ObservedStartup extends StartupRun where
  drainError : Option StartupException
  producerError : Option StartupException
  deriving DecidableEq

theorem DrainPoint.heldError_or_caughtError (point : DrainPoint) :
    point.heldError.or point.caughtError = point.heldError := by
  cases point <;> first | rfl | exact Option.or_none

namespace StartupRun

open StreamingRequestState

variable {self : StartupRun}

/-- The drain keeps its error through the handler and the join, below the last revision. -/
theorem Invariant.heldError_drainStep (h : self.Invariant)
    (hrevision : self.request.revision ≠ maximumUint64) (fails : AllocationPoint → Bool)
    (timedOut : Bool) :
    (self.drainStep fails timedOut).point.heldError =
      self.point.heldError.or (self.drainStep fails timedOut).point.caughtError := by
  have hsleep (revision : ℕ) : (self.sleep fails revision).heldError =
      (self.sleep fails revision).caughtError := by
    rw [StartupState.sleep]
    split_ifs
    · split <;> rfl
    · rfl
  rw [StartupRun.drainStep]
  cases hat : self.point with
  | snapshot completed =>
    change (self.observe fails completed).heldError = (self.observe fails completed).caughtError
    rw [StartupState.observe]
    split
    · rfl
    · split_ifs <;> rfl
  | acquire completed =>
    dsimp only
    split <;> rfl
  | release completed leaseId =>
    dsimp only
    split <;> rfl
  | poll revision =>
    dsimp only
    split_ifs <;> rfl
  | wait revision => exact hsleep revision
  | blocked revision =>
    dsimp only
    split_ifs
    · rfl
    · exact hsleep revision
  | caught error =>
    obtain ⟨accepted, after, hcancel, -⟩ := h.covered.requestCancellation hrevision
    dsimp only
    rw [hcancel]
    rfl
  | joining drainError =>
    dsimp only
    split_ifs
    · exact Option.or_none.symm
    · rw [← hat]
      exact (DrainPoint.heldError_or_caughtError _).symm
  | ended drainError =>
    dsimp only
    rw [← hat]
    exact (DrainPoint.heldError_or_caughtError _).symm

/-- Every step keeps the error of the drain, below the last revision. -/
theorem Invariant.heldError_step (h : self.Invariant)
    (hrevision : self.request.revision ≠ maximumUint64) (action : StartupAction) :
    (self.step action).point.heldError =
      self.point.heldError.or (self.step action).point.caughtError := by
  cases action with
  | drain fails timedOut => exact h.heldError_drainStep hrevision fails timedOut
  | fault what =>
    rw [StartupRun.step]
    split_ifs with hthrows
    · cases hat : self.point <;> rw [hat] at hthrows <;> first | rfl | cases hthrows
    · exact (DrainPoint.heldError_or_caughtError _).symm
  | _ =>
    rw [StartupRun.step]
    split <;> exact (DrainPoint.heldError_or_caughtError _).symm

/-- A step leaves the error of a producer that has ended. -/
theorem heldError_producer_step (self : StartupRun) (action : StartupAction) :
    (self.step action).producer.heldError =
      self.producer.heldError.or (self.producer.endsWith action) := by
  have hkept (next : StartupRun) (hproducer : next.producer = self.producer)
      (hends : self.producer.endsWith action = none) : next.producer.heldError =
        self.producer.heldError.or (self.producer.endsWith action) := by
    rw [hproducer, hends, Option.or_none]
  have hnone (hfinish : ∀ error, action ≠ .finish error) :
      self.producer.endsWith action = none := by
    cases self.producer <;> cases action <;> first | rfl | exact absurd rfl (hfinish _)
  cases action with
  | produce call =>
    refine hkept _ ?_ (hnone fun _ => StartupAction.noConfusion)
    rw [StartupRun.step]
    split <;> rfl
  | finish error =>
    rw [StartupRun.step]
    cases hproducer : self.producer with
    | running => rfl
    | _ => exact (congrArg ProducerState.heldError hproducer).trans Option.or_none.symm
  | storeDone =>
    rw [StartupRun.step]
    cases hproducer : self.producer with
    | ended error => exact Option.or_none.symm
    | _ => exact (congrArg ProducerState.heldError hproducer).trans Option.or_none.symm
  | drain fails timedOut =>
    refine hkept _ ?_ (hnone fun _ => StartupAction.noConfusion)
    rw [StartupRun.step, StartupRun.drainStep]
    split <;> first | rfl | (split <;> rfl)
  | fault what =>
    refine hkept _ ?_ (hnone fun _ => StartupAction.noConfusion)
    rw [StartupRun.step]
    split <;> rfl

end StartupRun

namespace ObservedStartup

/-- Nothing was thrown yet. -/
def start (request : StreamingRequestState) : ObservedStartup where
  toStartupRun := .start request
  drainError := none
  producerError := none

def step (self : ObservedStartup) (action : StartupAction) : ObservedStartup where
  toStartupRun := self.toStartupRun.step action
  drainError := self.drainError.or (self.toStartupRun.step action).point.caughtError
  producerError := self.producerError.or (self.producer.endsWith action)

/-- The threads hold the errors that were observed. -/
structure Invariant (s : ObservedStartup) : Prop where
  run : s.toStartupRun.Invariant
  drainError_eq : s.point.heldError = s.drainError
  producerError_eq : s.producer.heldError = s.producerError

theorem Invariant.step {self : ObservedStartup} (h : self.Invariant)
    (hlt : self.request.revision < maximumUint64) (action : StartupAction) :
    (self.step action).Invariant where
  run := h.run.step hlt action
  drainError_eq := by
    rw [ObservedStartup.step, ← h.drainError_eq]
    exact h.run.heldError_step (Nat.ne_of_lt hlt) action
  producerError_eq := by
    rw [ObservedStartup.step, ← h.producerError_eq]
    exact self.heldError_producer_step action

/-- What holds at the end. A return finds the producer finished, nothing thrown and everything
consumed. Whatever is thrown, the producer was joined and no lease is left. The error is the first
one that the drain has thrown, behind a cancellation; or the drain has thrown none and ended as for
a return, and it is the error of the producer. -/
structure StartupDrains (s : ObservedStartup) : Prop where
  returns : s.outcome = some (.ok ()) → s.producer = .done none ∧
    s.drainError = none ∧ s.producerError = none ∧
    s.request.availableAudio = [] ∧ s.request.liveLeases = [] ∧
    (s.request.state ≠ .failed → s.consumed = s.published)
  throws : ∀ error, s.outcome = some (.error error) → s.producer.isDone = true ∧
    s.request.liveLeases = [] ∧
    ((s.drainError = some error ∧
        (s.request.cancellationRequested = true ∨ s.request.state ≠ .running) ∧
        ∀ e, error = .handOver (.state e) → s.request.state = .failed) ∨
      (s.drainError = none ∧ s.producerError = some error ∧
        s.request.cancellationRequested = false ∧ s.request.availableAudio = [] ∧
        (s.request.state ≠ .failed → s.consumed = s.published)))

theorem Invariant.startupDrains {self : ObservedStartup} (h : self.Invariant) :
    self.StartupDrains := by
  have hpoint := h.run.point
  have hdrain := h.drainError_eq
  have hproducer := h.producerError_eq
  refine ⟨fun houtcome => ?_, fun error houtcome => ?_⟩
  · rw [StartupRun.outcome] at houtcome
    split at houtcome
    · cases houtcome
    · cases houtcome
    · rename_i hat hnotError
      rw [hat] at hpoint hdrain
      have hdrained : self.Drained := hpoint
      have hdone := hdrained.done
      have hfinished : self.producer = .done none := by
        cases hstate : self.producer with
        | running => rw [hstate] at hdone; cases hdone
        | ended error => rw [hstate] at hdone; cases hdone
        | done error =>
          cases error with
          | none => rfl
          | some error => exact absurd hstate (hnotError error)
      rw [hfinished] at hproducer
      exact ⟨hfinished, hdrain.symm, hproducer.symm, hdrained.queue_eq, hdrained.liveLeases_eq,
        hdrained.consumed_eq⟩
    · cases houtcome
  · rw [StartupRun.outcome] at houtcome
    split at houtcome
    · rename_i hat
      cases houtcome
      rw [hat] at hpoint hdrain
      obtain ⟨hfailed, hdone⟩ := hpoint
      exact ⟨hdone, hfailed.liveLeases_eq, Or.inl ⟨hdrain.symm, hfailed.closed, hfailed.original⟩⟩
    · rename_i hat hended
      cases houtcome
      rw [hat] at hpoint hdrain
      rw [hended] at hproducer
      have hdrained : self.Drained := hpoint
      exact ⟨hdrained.done, hdrained.liveLeases_eq, Or.inr ⟨hdrain.symm, hproducer.symm,
        hdrained.opened, hdrained.queue_eq, hdrained.consumed_eq⟩⟩
    · cases houtcome
    · cases houtcome

end ObservedStartup

/-- A producer that publishes one chunk, and a drain that consumes it. -/
def startupCycle : List StartupAction :=
  [.produce (.publish (RequestHistory.streamChunk 0)), .drain (fun _ => false) false,
    .drain (fun _ => false) false, .finish none, .storeDone, .drain (fun _ => false) false,
    .drain (fun _ => false) false, .drain (fun _ => false) false, .drain (fun _ => false) false,
    .drain (fun _ => false) false]

/-- A drain that fails behind its first chunk, and a producer that throws at the cancellation. -/
def startupFault : List StartupAction :=
  [.produce (.publish (RequestHistory.streamChunk 0)), .drain (fun _ => false) false,
    .drain (fun _ => false) false, .drain (fun _ => false) false,
    .fault "injected startup drain failure", .drain (fun _ => false) false,
    .produce .completeCancellationAfterDrain, .finish (some (.raised "cancelled")), .storeDone,
    .drain (fun _ => false) false]

/-- A producer that throws at once. -/
def startupFailure : List StartupAction :=
  [.finish (some (.raised "synthesis failed")), .storeDone, .drain (fun _ => false) false,
    .drain (fun _ => false) false, .drain (fun _ => false) false, .drain (fun _ => false) false]

/-- A producer that publishes one chunk and then fails the request. -/
def startupDiscard : List StartupAction :=
  [.produce (.publish (RequestHistory.streamChunk 0)), .produce (.fail 9 6 [65]), .finish none,
    .storeDone, .drain (fun _ => false) false, .drain (fun _ => false) false,
    .drain (fun _ => false) false, .drain (fun _ => false) false]

end MagpieTts.Runtime
