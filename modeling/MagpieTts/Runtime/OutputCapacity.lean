import MagpieTts.Library.ExceptRules
import MagpieTts.Runtime.RequestTraffic

/-!
# Waiting for output capacity

`await_output_capacity` tests the capacity of the PCM ring, reads the revision, tests again and
sleeps until the revision moves. Each of these is a critical section of its own, and the consumer
acquires, releases and cancels between any two of them. No wake-up is lost as long as every call
that makes room or cancels moves the revision.

## Main definitions

* `CapacityPoint`, `CapacityPoint.advance`: the steps of `await_output_capacity`.
* `CapacityRun.step`: the worker and the consumer of a request, interleaved.
* `CapacityRun.CapacitySound`: what holds while the worker sleeps, and behind the wait.

## Main results

* `CapacityRun.Waits.consumer`: the calls of the consumer keep what the worker knows.
* `outputCapacity_run`: every state of a run is sound, unless a wake-up is lost at the last
  revision. -/

namespace MagpieTts.Runtime

open MagpieTts.Library

/-! ### The accounting of the ring -/

namespace StreamingRequestState

variable {self after : StreamingRequestState} {chunk : AudioChunk}

theorem Accounted.bumped (h : self.Accounted) : self.bumped.Accounted :=
  bumped_induction ⟨h.occupied_eq, h.occupied_le, h.capacity_le⟩
    ⟨h.occupied_eq, h.occupied_le, h.capacity_le⟩

theorem Accounted.acceptChunk (h : self.Accounted) (hvalid : self.ValidChunk chunk) :
    (self.acceptChunk chunk).Accounted := by
  have hfits := hvalid.fits
  have hocc := h.occupied_eq
  have hle := h.occupied_le
  have hcap := h.capacity_le
  rw [h.subUint32_eq] at hfits
  have hoccupied : (self.acceptChunk chunk).occupiedCodecFrames =
      self.occupiedCodecFrames + chunk.codecFrameCount := addUint32_eq (by omega)
  refine ⟨?_, ?_, hcap⟩
  · have hqueue : (self.acceptChunk chunk).queueFrames =
        self.queueFrames + chunk.codecFrameCount := by
      simp [queueFrames, StreamingRequestState.acceptChunk]
    have hlease : (self.acceptChunk chunk).leaseFrames = self.leaseFrames := rfl
    omega
  · change _ ≤ self.pcmRingCapacityFrames
    omega

theorem Accounted.leased (h : self.Accounted) {rest : List AudioChunk}
    (havailable : self.availableAudio = chunk :: rest) (leaseId : ℕ) :
    (self.leased rest ⟨leaseId, chunk⟩).Accounted := by
  have hocc := h.occupied_eq
  refine ⟨?_, h.occupied_le, h.capacity_le⟩
  simp only [queueFrames, leaseFrames, havailable, List.map_cons, List.sum_cons] at hocc
  simp only [queueFrames, leaseFrames, StreamingRequestState.leased, List.map_append,
    List.map_singleton, List.sum_append, List.sum_singleton]
  omega

theorem Accounted.unleased (h : self.Accounted) {found : StoredLease}
    (hfind : (self.liveLeases.find? fun lease => lease.leaseId = found.leaseId) = some found) :
    (self.unleased found).Accounted := by
  have hocc := h.occupied_eq
  have hle := h.occupied_le
  have hsum := ((Ledger.perm_cons_eraseP_of_find? hfind).map
    fun lease => lease.chunk.codecFrameCount).sum_eq
  rw [List.map_cons, List.sum_cons] at hsum
  refine ⟨?_, ?_, h.capacity_le⟩
  · simp only [queueFrames, leaseFrames] at hocc
    simp only [queueFrames, leaseFrames, StreamingRequestState.unleased]
    omega
  · exact Nat.le_trans (Nat.sub_le _ _) hle

theorem Accounted.emptied (h : self.Accounted) (hemptied : RequestHistory.Emptied self after) :
    after.Accounted := by
  have hocc := h.occupied_eq
  have hle := h.occupied_le
  refine ⟨?_, ?_, ?_⟩
  · rw [hemptied.occupied_eq, queueFrames, leaseFrames, leaseFrames, hemptied.availableAudio_eq,
      hemptied.liveLeases_eq, List.map_nil, List.sum_nil, Nat.zero_add]
  · rw [hemptied.occupied_eq, hemptied.capacity_eq]
    omega
  · rw [hemptied.capacity_eq]
    exact h.capacity_le

end StreamingRequestState

/-! ### The wait -/

/-- A point of `await_output_capacity`, named after what it does next. -/
inductive CapacityPoint where
  | canPublish
  | observeFull
  | readRevision
  | recheckCapacity (revision : ℕ)
  | observeRechecked (revision : ℕ)
  | waitForRevision (revision : ℕ)
  | blocked (revision : ℕ)
  | observeCapacity
  deriving DecidableEq

/-- The worker: outside of a wait, in a wait for a number of frames, or behind one. -/
inductive PublisherState where
  | working
  | awaiting (frames : ℕ) (point : CapacityPoint)
  | returned (frames : ℕ) (admitted : Bool)
  | threw (error : RequestStateError)
  deriving DecidableEq

/-- The loop of `wait_for`: sleep as long as the revision has not moved. -/
def wakeOrSleep (request : StreamingRequestState) (frames revision : ℕ) : PublisherState :=
  if revision < request.revision then
    match request.snapshot with
    | .error error => .threw error
    | .ok _ => .awaiting frames .canPublish
  else
    .awaiting frames (.blocked revision)

/-- The next step of the wait. A sleep ends with a notification, without a reason, or because its
time is over. -/
def CapacityPoint.advance (timedOut : Bool) (request : StreamingRequestState) (frames : ℕ) :
    CapacityPoint → PublisherState
  | .canPublish =>
    if request.canPublish frames then .awaiting frames .observeCapacity
    else .awaiting frames .observeFull
  | .observeFull =>
    if request.cancellationPending then .returned frames false
    else .awaiting frames .readRevision
  | .readRevision =>
    match request.snapshot with
    | .error error => .threw error
    | .ok snapshot => .awaiting frames (.recheckCapacity snapshot.revision)
  | .recheckCapacity revision =>
    if request.canPublish frames then .awaiting frames .canPublish
    else .awaiting frames (.observeRechecked revision)
  | .observeRechecked revision =>
    if request.cancellationPending then .returned frames false
    else .awaiting frames (.waitForRevision revision)
  | .waitForRevision revision => wakeOrSleep request frames revision
  | .blocked revision =>
    if timedOut ∧ request.revision ≤ revision then .awaiting frames .canPublish
    else wakeOrSleep request frames revision
  | .observeCapacity => .returned frames (!request.cancellationPending)

/-- A call of the worker outside of a wait. -/
inductive WorkerCall where
  | publish (chunk : AudioChunk)
  | completeCancellation
  | completeCancellationAfterDrain
  | fail (terminalStatus terminalErrorStage : ℤ) (terminalErrorMessage : List UInt8)
  deriving DecidableEq

def WorkerCall.toRequestCall : WorkerCall → RequestCall
  | publish chunk => .publish chunk
  | completeCancellation => .completeCancellation
  | completeCancellationAfterDrain => .completeCancellationAfterDrain
  | fail status stage message => .fail status stage message

/-- A call of the worker, the start of a wait, the next step of the wait, or a call of the
consumer. -/
inductive CapacityAction where
  | work (call : WorkerCall)
  | await (frames : ℕ)
  | advance (timedOut : Bool)
  | consumer (call : ConsumerCall)
  deriving DecidableEq

structure CapacityRun where
  system : RequestSystem
  publisher : PublisherState
  deriving DecidableEq

namespace CapacityRun

def start (request : StreamingRequestState) (leaseIds : LeaseIdSequence) : CapacityRun where
  system := ⟨request, leaseIds⟩
  publisher := .working

/-- The worker is in a wait, or was left by an exception of it. -/
def Occupied (self : CapacityRun) : Prop :=
  match self.publisher with
  | .working => False
  | .returned _ _ => False
  | .awaiting _ _ => True
  | .threw _ => True

instance (self : CapacityRun) : Decidable self.Occupied := by
  unfold Occupied
  split <;> infer_instance

/-- One step. Only the worker ends the request, with its last call, so it starts no wait behind
that. -/
def step (self : CapacityRun) : CapacityAction → CapacityRun
  | .work call =>
    if self.Occupied then self
    else { system := self.system.step call.toRequestCall, publisher := .working }
  | .await frames =>
    if self.Occupied ∨ self.system.request.state ≠ .running then self
    else { self with publisher := .awaiting frames .canPublish }
  | .advance timedOut =>
    match self.publisher with
    | .awaiting frames point =>
      { self with publisher := point.advance timedOut self.system.request frames }
    | _ => self
  | .consumer call => { self with system := self.system.step call.toRequestCall }

end CapacityRun

/-! ### What the calls of a request keep -/

/-- The occupied frames are accounted for, and the next lease identifier is new. -/
structure RequestSystem.Sound (s : RequestSystem) : Prop where
  accounted : s.request.Accounted
  fresh : ∀ lease ∈ s.request.liveLeases, lease.leaseId < s.leaseIds.next

namespace RequestSystem

open RequestHistory (bumped_liveLeases)

variable {s : RequestSystem}

/-- What a call of the consumer leaves. -/
theorem step_consumer (hsound : s.Sound) (call : ConsumerCall) :
    (s.step call.toRequestCall).request = s.request ∨
    (∃ chunk rest, s.request.availableAudio = chunk :: rest ∧
      (s.step call.toRequestCall).request =
        (s.request.leased rest ⟨s.leaseIds.next, chunk⟩).bumped) ∨
    (∃ found ∈ s.request.liveLeases, call = .releaseAudio found.leaseId ∧
      (s.step call.toRequestCall).request = (s.request.unleased found).bumped) ∨
    (call = .requestCancellation ∧ s.request.state = .running ∧
      s.request.cancellationRequested = false ∧
      (s.step call.toRequestCall).request = s.request.cancelRequested.bumped) := by
  have hmove := RequestHistory.move_step (h := .start s.request s.leaseIds)
    (c := call.toRequestCall) hsound.accounted hsound.fresh
    (by rintro ⟨chunk, hcall, -⟩; cases call <;> cases hcall)
  have heq : s.step call.toRequestCall = ((RequestHistory.start s.request s.leaseIds).step
      call.toRequestCall).toRequestSystem := rfl
  rw [heq]
  generalize hcall : call.toRequestCall = c at hmove ⊢
  generalize RequestHistory.step _ c = after at hmove
  cases hmove with
  | stay => exact Or.inl rfl
  | draw ids hids => exact Or.inl rfl
  | accept chunk hpublish hopen hvalid hrevision =>
    subst hpublish
    cases call <;> cases hcall
  | discard after hclears =>
    cases hclears with
    | requestCancellation hrunning hopen =>
      cases call <;> cases hcall
      exact Or.inr (Or.inr (Or.inr ⟨rfl, hrunning, hopen, rfl⟩))
    | _ => cases call <;> cases hcall
  | take chunk rest views havailable hviews =>
    exact Or.inr (Or.inl ⟨chunk, rest, havailable, rfl⟩)
  | release found hrelease hfind =>
    subst hrelease
    cases call with
    | releaseAudio leaseId =>
      cases hcall
      exact Or.inr (Or.inr (Or.inl ⟨found, List.mem_of_find?_eq_some hfind, rfl, rfl⟩))
    | _ => cases hcall

/-- Every call keeps the accounts. A publication at the last revision throws, and still accepts its
chunk. -/
theorem Sound.step (hsound : s.Sound) (c : RequestCall) : (s.step c).Sound := by
  obtain ⟨haccounted, hfresh⟩ := hsound
  by_cases hlast : (RequestHistory.start s.request s.leaseIds).PublishesAtLastRevision c
  · obtain ⟨chunk, rfl, hopen, hvalid, -⟩ := hlast
    have hopen' : s.request.cancellationRequested = false := hopen
    have hpublish := StreamingRequestState.publish_of_valid hopen' hvalid
    have hstep : s.step (.publish chunk) =
        { s with request := (s.request.acceptChunk chunk).bumped } := by
      simp only [RequestSystem.step, call, hpublish, StreamingRequestState.incrementRevision_snd]
    rw [hstep]
    refine ⟨(haccounted.acceptChunk hvalid).bumped, fun lease hmem => hfresh lease ?_⟩
    rwa [bumped_liveLeases] at hmem
  · have hmove := RequestHistory.move_step (h := .start s.request s.leaseIds) haccounted hfresh
      hlast
    have heq : s.step c = ((RequestHistory.start s.request s.leaseIds).step c).toRequestSystem :=
      rfl
    rw [heq]
    generalize RequestHistory.step _ c = after at hmove
    cases hmove with
    | stay => exact ⟨haccounted, hfresh⟩
    | draw ids hids =>
      exact ⟨haccounted, fun lease hmem => Nat.lt_of_lt_of_le (hfresh lease hmem) hids⟩
    | accept chunk hcall hopen hvalid hrevision =>
      refine ⟨(haccounted.acceptChunk hvalid).bumped, fun lease hmem => hfresh lease ?_⟩
      simp only [bumped_liveLeases] at hmem
      exact hmem
    | discard after hclears =>
      refine ⟨haccounted.emptied hclears.emptied, fun lease hmem => hfresh lease ?_⟩
      simp only [hclears.emptied.liveLeases_eq] at hmem
      exact hmem
    | take chunk rest views havailable hviews =>
      refine ⟨(haccounted.leased havailable _).bumped, fun lease hmem => ?_⟩
      simp only [bumped_liveLeases, StreamingRequestState.leased] at hmem
      rcases List.mem_append.mp hmem with hold | hnew
      · exact Nat.lt_succ_of_lt (hfresh lease hold)
      · rw [List.mem_singleton.mp hnew]
        exact Nat.lt_succ_self _
    | release found hcall hfind =>
      refine ⟨(haccounted.unleased hfind).bumped, fun lease hmem => hfresh lease ?_⟩
      simp only [bumped_liveLeases, StreamingRequestState.unleased] at hmem
      exact List.mem_of_mem_eraseP hmem

end RequestSystem

/-! ### What the worker knows -/

/-- The ring has room for these frames, of which there is at least one. -/
def HasRoom (request : StreamingRequestState) (frames : ℕ) : Prop :=
  0 < frames ∧ request.occupiedCodecFrames + frames ≤ request.pcmRingCapacityFrames

/-- What is known at a point of the wait. A revision that was read is a lower bound, and as long as
it is the current one, the tests behind its reading still stand. -/
def CapacityPoint.Knows (request : StreamingRequestState) (frames : ℕ) : CapacityPoint → Prop
  | .recheckCapacity revision => revision ≤ request.revision
  | .observeRechecked revision => revision ≤ request.revision ∧
      (request.revision = revision →
        ¬ HasRoom request frames ∨ request.cancellationRequested = true)
  | .waitForRevision revision => revision ≤ request.revision ∧
      (request.revision = revision →
        ¬ HasRoom request frames ∧ request.cancellationRequested = false)
  | .blocked revision => revision ≤ request.revision ∧
      (request.revision = revision →
        ¬ HasRoom request frames ∧ request.cancellationRequested = false)
  | .observeCapacity => HasRoom request frames
  | _ => True

/-- What is known of the request in a wait, which the worker has not ended, and behind one. -/
def PublisherState.Knows (request : StreamingRequestState) : PublisherState → Prop
  | .awaiting frames point => request.state = .running ∧ point.Knows request frames
  | .returned frames true => HasRoom request frames
  | .returned _ false => request.cancellationRequested = true
  | _ => True

section Steps

variable {request after : StreamingRequestState} {frames : ℕ}

theorem hasRoom_of_canPublish (haccounted : request.Accounted)
    (h : request.canPublish frames = true) : HasRoom request frames := by
  rw [StreamingRequestState.canPublish_iff haccounted] at h
  exact h.2.2

theorem not_hasRoom_of_not_canPublish (haccounted : request.Accounted)
    (hrunning : request.state = .running) (h : ¬ request.canPublish frames = true) :
    ¬ HasRoom request frames ∨ request.cancellationRequested = true := by
  rw [StreamingRequestState.canPublish_iff haccounted] at h
  by_cases hcancelled : request.cancellationRequested = true
  · exact Or.inr hcancelled
  · exact Or.inl fun hroom => h ⟨hrunning, Bool.eq_false_iff.mpr hcancelled, hroom⟩

theorem cancellationPending_eq (hrunning : request.state = .running) :
    request.cancellationPending = request.cancellationRequested := by
  rw [StreamingRequestState.cancellationPending, decide_eq_true hrunning, Bool.true_and]

theorem revision_of_snapshot {snapshot : RequestStateSnapshot}
    (h : request.snapshot = .ok snapshot) : snapshot.revision = request.revision := by
  rw [StreamingRequestState.snapshot] at h
  split_ifs at h
  cases h
  rfl

theorem knows_wakeOrSleep (hrunning : request.state = .running) {revision : ℕ}
    (h : (CapacityPoint.blocked revision).Knows request frames) :
    (wakeOrSleep request frames revision).Knows request := by
  rw [wakeOrSleep]
  split
  · split
    · trivial
    · exact ⟨hrunning, trivial⟩
  · exact ⟨hrunning, h⟩

/-- A step of the wait keeps what is known. -/
theorem CapacityPoint.Knows.advance (haccounted : request.Accounted)
    (hrunning : request.state = .running) {point : CapacityPoint}
    (h : point.Knows request frames) (timedOut : Bool) :
    (point.advance timedOut request frames).Knows request := by
  have hpending := cancellationPending_eq hrunning
  cases point with
  | canPublish =>
    rw [CapacityPoint.advance]
    split
    · exact ⟨hrunning, hasRoom_of_canPublish haccounted ‹_›⟩
    · exact ⟨hrunning, trivial⟩
  | observeFull =>
    rw [CapacityPoint.advance, hpending]
    split
    · assumption
    · exact ⟨hrunning, trivial⟩
  | readRevision =>
    rw [CapacityPoint.advance]
    split
    · trivial
    · exact ⟨hrunning, Nat.le_of_eq (revision_of_snapshot ‹_›)⟩
  | recheckCapacity revision =>
    rw [CapacityPoint.advance]
    split
    · exact ⟨hrunning, trivial⟩
    · exact ⟨hrunning, h, fun _ => not_hasRoom_of_not_canPublish haccounted hrunning ‹_›⟩
  | observeRechecked revision =>
    rw [CapacityPoint.advance, hpending]
    split
    · assumption
    · rename_i hopen
      exact ⟨hrunning, h.1, fun heq =>
        ⟨(h.2 heq).resolve_right hopen, Bool.eq_false_iff.mpr hopen⟩⟩
  | waitForRevision revision =>
    rw [CapacityPoint.advance]
    exact knows_wakeOrSleep hrunning h
  | blocked revision =>
    rw [CapacityPoint.advance]
    split
    · exact ⟨hrunning, trivial⟩
    · exact knows_wakeOrSleep hrunning h
  | observeCapacity =>
    rw [CapacityPoint.advance, hpending]
    cases hcancelled : request.cancellationRequested with
    | false => exact h
    | true => exact hcancelled

/-- What the calls of the consumer do to a wait: room only grows, and a cancellation stays. -/
structure RoomGrows (request after : StreamingRequestState) : Prop where
  state_eq : after.state = request.state
  capacity_eq : after.pcmRingCapacityFrames = request.pcmRingCapacityFrames
  occupied_le : after.occupiedCodecFrames ≤ request.occupiedCodecFrames
  cancelled_of : request.cancellationRequested = true → after.cancellationRequested = true
  revision_le : request.revision ≤ after.revision

theorem RoomGrows.bumped (h : RoomGrows request after) : RoomGrows request after.bumped :=
  StreamingRequestState.bumped_induction ⟨h.state_eq, h.capacity_eq, h.occupied_le, h.cancelled_of,
    h.revision_le⟩ ⟨h.state_eq, h.capacity_eq, h.occupied_le, h.cancelled_of,
    Nat.le_succ_of_le h.revision_le⟩

theorem RequestSystem.roomGrows_consumer {s : RequestSystem} (hsound : s.Sound)
    (call : ConsumerCall) : RoomGrows s.request (s.step call.toRequestCall).request ∧
      ((s.step call.toRequestCall).request.revision = s.request.revision →
        ((s.step call.toRequestCall).request.occupiedCodecFrames = s.request.occupiedCodecFrames ∧
          (s.step call.toRequestCall).request.cancellationRequested =
            s.request.cancellationRequested) ∨
        (s.request.revision = maximumUint64 ∧
          ((∃ lease ∈ s.request.liveLeases, call = .releaseAudio lease.leaseId) ∨
            (call = .requestCancellation ∧ s.request.cancellationRequested = false ∧
              (s.step call.toRequestCall).request.cancellationRequested = true)))) := by
  have hocc := hsound.accounted.occupied_eq
  have hbumped : ∀ request : StreamingRequestState, request.bumped.revision = request.revision →
      request.revision = maximumUint64 := by
    intro request heq
    rw [StreamingRequestState.bumped] at heq
    split_ifs at heq with hmax
    · exact hmax
    · exact absurd heq (Nat.succ_ne_self _)
  rcases RequestSystem.step_consumer hsound call with heq | ⟨chunk, rest, -, heq⟩ |
    ⟨found, hfound, hcall, heq⟩ | ⟨hcall, hrunning, hopen, heq⟩
  · rw [heq]
    exact ⟨⟨rfl, rfl, Nat.le_refl _, id, Nat.le_refl _⟩, fun _ => Or.inl ⟨rfl, rfl⟩⟩
  · rw [heq]
    refine ⟨RoomGrows.bumped ⟨rfl, rfl, Nat.le_refl _, id, Nat.le_refl _⟩, fun _ => Or.inl ⟨?_, ?_⟩⟩
    · exact RequestHistory.bumped_occupiedCodecFrames _
    · exact RequestHistory.bumped_cancellationRequested _
  · rw [heq]
    refine ⟨RoomGrows.bumped ⟨rfl, rfl, Nat.sub_le _ _, id, Nat.le_refl _⟩, fun hrevision => ?_⟩
    exact Or.inr ⟨hbumped (s.request.unleased found) hrevision, Or.inl ⟨found, hfound, hcall⟩⟩
  · rw [heq]
    refine ⟨RoomGrows.bumped ⟨rfl, rfl, ?_, fun _ => rfl, Nat.le_refl _⟩, fun hrevision => ?_⟩
    · change s.request.leaseFrames ≤ _
      omega
    · exact Or.inr ⟨hbumped s.request.cancelRequested hrevision, Or.inr ⟨hcall, hopen,
        RequestHistory.bumped_cancellationRequested _⟩⟩

theorem RoomGrows.hasRoom (h : RoomGrows request after) (hroom : HasRoom request frames) :
    HasRoom after frames := by
  have hle := h.occupied_le
  have hcapacity := h.capacity_eq
  exact ⟨hroom.1, by have := hroom.2; omega⟩

end Steps

/-- The worker has tested the capacity again, behind the reading of the revision. -/
def CapacityPoint.Rechecked : CapacityPoint → Prop
  | .observeRechecked _ => True
  | .waitForRevision _ => True
  | .blocked _ => True
  | _ => False

/-- The worker has looked for a cancellation again, behind the reading of the revision. -/
def CapacityPoint.Observed : CapacityPoint → Prop
  | .waitForRevision _ => True
  | .blocked _ => True
  | _ => False

namespace CapacityRun

/-- At the last revision, which no call can move, the consumer releases a lease behind the second
test of the capacity, or cancels behind the second look for a cancellation. -/
def LosesWakeUp (self : CapacityRun) (action : CapacityAction) : Prop :=
  self.system.request.revision = maximumUint64 ∧ ∃ frames point,
    self.publisher = .awaiting frames point ∧
    ((point.Rechecked ∧ ∃ lease ∈ self.system.request.liveLeases,
        action = .consumer (.releaseAudio lease.leaseId)) ∨
      (point.Observed ∧ self.system.request.cancellationRequested = false ∧
        action = .consumer .requestCancellation))

/-- The property of the wait: a worker that sleeps at the current revision has nothing to wake up
for; behind a wait that admits its frames there is room for them, so the publication of as many is
not refused for its size; and only a cancellation refuses them. -/
structure CapacitySound (s : CapacityRun) : Prop where
  blocked : ∀ frames revision, s.publisher = .awaiting frames (.blocked revision) →
    s.system.request.revision = revision →
    ¬ HasRoom s.system.request frames ∧ s.system.request.cancellationRequested = false
  admitted : ∀ frames, s.publisher = .returned frames true →
    HasRoom s.system.request frames ∧ ∀ chunk, chunk.codecFrameCount ≤ frames →
      ∀ error, (s.system.request.publish chunk).1 = .error error → error.code ≠ .backpressure
  refused : ∀ frames, s.publisher = .returned frames false →
    s.system.request.cancellationRequested = true ∨ s.system.request.state ≠ .running

/-- The invariant of the runs in which no wake-up is lost. -/
structure Waits (s : CapacityRun) : Prop where
  sound : s.system.Sound
  knows : s.publisher.Knows s.system.request

variable {self : CapacityRun}

/-- The calls of the consumer keep what the worker knows. -/
theorem Waits.consumer (h : self.Waits) (call : ConsumerCall)
    (hkept : ¬ self.LosesWakeUp (.consumer call)) :
    self.publisher.Knows (self.system.step call.toRequestCall).request := by
  have hknows := h.knows
  obtain ⟨hgrows, hsame⟩ := RequestSystem.roomGrows_consumer h.sound call
  have hrevision := hgrows.revision_le
  cases hpublisher : self.publisher with
  | working => trivial
  | threw error => trivial
  | returned frames admitted =>
    rw [hpublisher] at hknows
    cases admitted with
    | true => exact hgrows.hasRoom hknows
    | false => exact hgrows.cancelled_of hknows
  | awaiting frames point =>
    rw [hpublisher] at hknows
    obtain ⟨hrunning, hpoint⟩ := hknows
    refine ⟨hgrows.state_eq.trans hrunning, ?_⟩
    have hreleased : point.Rechecked → self.system.request.revision = maximumUint64 →
        ¬ ∃ lease ∈ self.system.request.liveLeases, call = .releaseAudio lease.leaseId := by
      rintro hrechecked hmax ⟨lease, hlease, rfl⟩
      exact hkept ⟨hmax, frames, point, hpublisher, Or.inl ⟨hrechecked, lease, hlease, rfl⟩⟩
    have hcancelled : point.Observed → self.system.request.revision = maximumUint64 →
        self.system.request.cancellationRequested = false → call ≠ .requestCancellation := by
      rintro hobserved hmax hopen rfl
      exact hkept ⟨hmax, frames, point, hpublisher, Or.inr ⟨hobserved, hopen, rfl⟩⟩
    have hroom : (self.system.step call.toRequestCall).request.occupiedCodecFrames =
        self.system.request.occupiedCodecFrames →
        HasRoom (self.system.step call.toRequestCall).request frames →
        HasRoom self.system.request frames := by
      intro heq hroom
      have hcapacity := hgrows.capacity_eq
      exact ⟨hroom.1, by have := hroom.2; omega⟩
    -- A sleep at the current revision: the call moved it, or changed nothing in sight.
    have hasleep : ∀ revision, point.Rechecked → point.Observed →
        revision ≤ self.system.request.revision ∧ (self.system.request.revision = revision →
          ¬ HasRoom self.system.request frames ∧
            self.system.request.cancellationRequested = false) →
        (self.system.step call.toRequestCall).request.revision = revision →
        ¬ HasRoom (self.system.step call.toRequestCall).request frames ∧
          (self.system.step call.toRequestCall).request.cancellationRequested = false := by
      rintro revision hrechecked hobserved ⟨hle, hold⟩ heq
      obtain ⟨hfull, hopen⟩ := hold (by omega)
      rcases hsame (by omega) with ⟨hoccupied, hcancel⟩ | ⟨hmax, hrelease | ⟨hcall, -, -⟩⟩
      · exact ⟨fun hnew => hfull (hroom hoccupied hnew), hcancel.trans hopen⟩
      · exact absurd hrelease (hreleased hrechecked hmax)
      · exact absurd hcall (hcancelled hobserved hmax hopen)
    cases point with
    | canPublish => trivial
    | observeFull => trivial
    | readRevision => trivial
    | recheckCapacity revision => exact Nat.le_trans hpoint hrevision
    | observeRechecked revision =>
      refine ⟨Nat.le_trans hpoint.1 hrevision, fun heq => ?_⟩
      have hle := hpoint.1
      have hold := hpoint.2 (by omega)
      rcases hsame (by omega) with ⟨hoccupied, hcancel⟩ | ⟨hmax, hrelease | ⟨-, -, hcancel⟩⟩
      · exact hold.imp (fun hfull hnew => hfull (hroom hoccupied hnew)) fun h => hcancel.trans h
      · exact absurd hrelease (hreleased trivial hmax)
      · exact Or.inr hcancel
    | waitForRevision revision =>
      exact ⟨Nat.le_trans hpoint.1 hrevision, hasleep revision trivial trivial hpoint⟩
    | blocked revision =>
      exact ⟨Nat.le_trans hpoint.1 hrevision, hasleep revision trivial trivial hpoint⟩
    | observeCapacity => exact hgrows.hasRoom hpoint

/-- Every step keeps the invariant, unless it loses a wake-up. -/
theorem Waits.step (h : self.Waits) (action : CapacityAction)
    (hkept : ¬ self.LosesWakeUp action) : (self.step action).Waits := by
  cases action with
  | work call =>
    rw [CapacityRun.step]
    split
    · exact h
    · exact ⟨h.sound.step _, trivial⟩
  | await frames =>
    rw [CapacityRun.step]
    split
    · exact h
    · rename_i hguard
      rw [not_or, not_not] at hguard
      exact ⟨h.sound, hguard.2, trivial⟩
  | advance timedOut =>
    rw [CapacityRun.step]
    cases hpublisher : self.publisher with
    | awaiting frames point =>
      have hknows := h.knows
      rw [hpublisher] at hknows
      exact ⟨h.sound, hknows.2.advance h.sound.accounted hknows.1 timedOut⟩
    | working => exact h
    | returned frames admitted => exact h
    | threw error => exact h
  | consumer call => exact ⟨h.sound.step _, h.consumer call hkept⟩

theorem failsWith_failStateIf_iff {P : RequestStateError → Prop} {condition : Prop}
    [Decidable condition] {code : RequestStateErrorCode} {detail : String} {index : ℤ} :
    FailsWith P (failStateIf condition code detail index) ↔
      (condition → P ⟨code, detail, index⟩) := by
  rw [failStateIf]
  split_ifs with h <;> simp [h]

theorem failsWith_validateEvents {request : StreamingRequestState} {chunkEnd : ℕ} :
    (events : List AlignmentProgress) → {index previousSample previousTokens : ℕ} →
    FailsWith (fun error => error.code ≠ .backpressure)
      (request.validateEvents chunkEnd index previousSample previousTokens events) := by
  intro events
  induction events with
  | nil => exact failsWith_ok
  | cons event events ih =>
    simp only [StreamingRequestState.validateEvents, failsWith_bind_iff,
      failsWith_failStateIf_iff]
    exact ⟨fun _ => by rintro ⟨⟩, fun _ _ => ⟨fun _ => by rintro ⟨⟩, fun _ _ => ih⟩⟩

/-- A publication of as many frames as there is room for is not refused for its size. -/
theorem publish_ne_backpressure {request : StreamingRequestState} {frames : ℕ}
    (haccounted : request.Accounted) (hroom : HasRoom request frames) {chunk : AudioChunk}
    (hchunk : chunk.codecFrameCount ≤ frames) {error : RequestStateError}
    (h : (request.publish chunk).1 = .error error) : error.code ≠ .backpressure := by
  have hfits : ¬ subUint32 request.pcmRingCapacityFrames request.occupiedCodecFrames <
      chunk.codecFrameCount := by
    have hle := hroom.2
    rw [haccounted.subUint32_eq]
    omega
  have hfails : FailsWith (fun error => error.code ≠ .backpressure)
      (request.validateChunk chunk) := by
    simp [StreamingRequestState.validateChunk, failsWith_bind_iff, failsWith_failStateIf_iff, hfits,
      failsWith_validateEvents]
  rw [StreamingRequestState.publish] at h
  split at h
  · cases h
  · cases hvalidate : request.validateChunk chunk with
    | error failure =>
      rw [hvalidate] at h
      cases h
      exact hfails _ hvalidate
    | ok value =>
      rw [hvalidate] at h
      simp only [StreamingRequestState.incrementRevision] at h
      split at h
      · cases h
        rintro ⟨⟩
      · cases h

theorem Waits.capacitySound (h : self.Waits) : self.CapacitySound := by
  have hknows := h.knows
  refine ⟨fun frames revision hpublisher heq => ?_, fun frames hpublisher => ?_,
    fun frames hpublisher => Or.inl ?_⟩
  · rw [hpublisher] at hknows
    exact hknows.2.2 heq
  · rw [hpublisher] at hknows
    exact ⟨hknows, fun chunk hchunk error =>
      publish_ne_backpressure h.sound.accounted hknows hchunk⟩
  · rw [hpublisher] at hknows
    exact hknows

theorem waits_start {textTokenCount capacity : ℕ} {request : StreamingRequestState}
    (hcapacity : capacity ≤ maximumUint32)
    (hrequest : StreamingRequestState.construct textTokenCount capacity = .ok request)
    (ids : LeaseIdSequence) : (start request ids).Waits := by
  rw [StreamingRequestState.construct] at hrequest
  split_ifs at hrequest
  cases hrequest
  exact ⟨⟨⟨rfl, Nat.zero_le _, hcapacity⟩, fun lease hmem => absurd hmem List.not_mem_nil⟩, trivial⟩

end CapacityRun

/-- **No lost wake-up.** In every run of a worker and a consumer on a request, with waits for any
numbers of frames, every state is sound, as long as no call of the run loses a wake-up at the last
revision. -/
theorem outputCapacity_run {textTokenCount capacity : ℕ} {request : StreamingRequestState}
    (hcapacity : capacity ≤ maximumUint32)
    (hrequest : StreamingRequestState.construct textTokenCount capacity = .ok request)
    (ids : LeaseIdSequence) (actions : List CapacityAction)
    (hkept : StepsMeet CapacityRun.step (fun s action => ¬ s.LosesWakeUp action)
      (.start request ids) actions) :
    (run CapacityRun.step (.start request ids) actions).CapacitySound :=
  CapacityRun.Waits.capacitySound
    (run_induction_of_stepsMeet (fun _ action h hkept => h.step action hkept)
      (CapacityRun.waits_start hcapacity hrequest ids) actions hkept)

/-- The steps of a wait up to its sleep. -/
def fallAsleep (frames : ℕ) : List CapacityAction :=
  .await frames :: List.replicate 6 (.advance false)

theorem outputCapacity_run_first_chunk :
    ∃ request, StreamingRequestState.construct 39 8 = .ok request ∧
      (run CapacityRun.step (.start request ⟨1⟩) (.work (.publish (RequestHistory.streamChunk 0)) ::
        fallAsleep 8)).CapacitySound := by
  have hrequest : StreamingRequestState.construct 39 8 = .ok _ := rfl
  refine ⟨_, hrequest, outputCapacity_run (show 8 ≤ maximumUint32 by decide) hrequest ⟨1⟩ _
    ⟨?_, ?_, ?_, ?_, ?_, ?_, ?_, ?_, trivial⟩⟩
  all_goals exact fun hlost => absurd hlost.1 (by decide)

/-! ### The last revision -/

namespace CapacityRun

open RequestHistory

/-- Chunk number `k` is published, leased and released. -/
def cycleActions (k : ℕ) : List CapacityAction :=
  [.work (.publish (streamChunk k)), .consumer .acquireAudio, .consumer (.releaseAudio (k + 1))]

theorem run_cycleActions (s : RequestSystem) : (n : ℕ) →
    run step ⟨s, .working⟩ ((List.range n).flatMap cycleActions) =
      ⟨run RequestSystem.step s ((List.range n).flatMap streamCycle), .working⟩
  | 0 => rfl
  | n + 1 => by
      rw [List.range_succ, List.flatMap_append, List.flatMap_append, run_append, run_append,
        run_cycleActions s n, List.flatMap_singleton, List.flatMap_singleton]
      rfl

/-- The calls that use up the revisions and leave the ring full, a wait on the full ring, and the
release of the lease just before the worker falls asleep. -/
def lostWakeUp (k : ℕ) : List CapacityAction :=
  (List.range k).flatMap cycleActions ++
    [.work (.publish (streamChunk k)), .consumer .acquireAudio, .await 8, .advance false,
      .advance false, .advance false, .advance false, .advance false,
      .consumer (.releaseAudio (k + 1)), .advance false]

/-- With the ring full at the last revision, a release behind the tests goes unnoticed. -/
theorem blocked_of_full {s : RequestSystem} {leaseId : ℕ} {chunk : AudioChunk}
    (haccounted : s.request.Accounted) (hrunning : s.request.state = .running)
    (hopen : s.request.cancellationRequested = false)
    (hcapacity : s.request.pcmRingCapacityFrames = 8)
    (hoccupied : s.request.occupiedCodecFrames = 8)
    (hleases : s.request.liveLeases = [⟨leaseId, chunk⟩])
    (hqueue : s.request.availableAudio = []) (hrevision : s.request.revision = maximumUint64) :
    run step ⟨s, .working⟩ [.await 8, .advance false, .advance false, .advance false,
      .advance false, .advance false, .consumer (.releaseAudio leaseId), .advance false] =
      ⟨{ s with request := s.request.unleased ⟨leaseId, chunk⟩ },
        .awaiting 8 (.blocked maximumUint64)⟩ := by
  have hfull : s.request.canPublish 8 = false := by
    rw [Bool.eq_false_iff, ne_eq, StreamingRequestState.canPublish_iff haccounted]
    omega
  have hpending : s.request.cancellationPending = false :=
    (cancellationPending_eq hrunning).trans hopen
  have hsnapshot : ∃ snapshot, s.request.snapshot = .ok snapshot ∧
      snapshot.revision = maximumUint64 := by
    rw [StreamingRequestState.snapshot, hqueue, if_neg (by simp)]
    exact ⟨_, rfl, hrevision⟩
  obtain ⟨snapshot, hsnapshot, hread⟩ := hsnapshot
  have hrelease : s.step (.releaseAudio leaseId) =
      { s with request := s.request.unleased ⟨leaseId, chunk⟩ } := by
    have hfind : (s.request.liveLeases.find? fun lease => lease.leaseId = leaseId) =
        some ⟨leaseId, chunk⟩ := by
      rw [hleases]
      simp
    simp only [RequestSystem.step, RequestSystem.call,
      StreamingRequestState.releaseAudio_of_some haccounted hfind,
      StreamingRequestState.incrementRevision_snd]
    rw [StreamingRequestState.bumped, if_pos (by exact hrevision)]
  have hsleep : wakeOrSleep (s.request.unleased ⟨leaseId, chunk⟩) 8 maximumUint64 =
      .awaiting 8 (.blocked maximumUint64) := by
    rw [wakeOrSleep, if_neg]
    change ¬ maximumUint64 < s.request.revision
    omega
  simp [step, Occupied, hrunning, CapacityPoint.advance, hfull, hpending, hsnapshot, hread,
    ConsumerCall.toRequestCall, hrelease, hsleep]

theorem not_capacitySound_lostWakeUp {request : StreamingRequestState}
    (hrequest : StreamingRequestState.construct 39 8 = .ok request) {k : ℕ} (hpositive : k ≠ 0)
    (hk : 3 * k = 18446744073709551612) :
    ¬ (run step (start request ⟨1⟩) (lostWakeUp k)).CapacitySound := by
  have hcycle := (CycleState.of_construct hrequest).run_cycles k (by omega)
  generalize hsystem :
    run RequestSystem.step ⟨request, ⟨1⟩⟩ ((List.range k).flatMap streamCycle) = s
    at hcycle
  have hframes : (streamChunk k).codecFrameCount = 8 := if_neg hpositive
  have hoccupied := hcycle.occupied_leased
  have hrevision := hcycle.revision_eq
  have hleases : (CycleState.leased k s).request.liveLeases = [⟨k + 1, streamChunk k⟩] := by
    change s.request.liveLeases ++ _ = _
    rw [hcycle.leases_eq, List.nil_append]
  have haccounted : (CycleState.leased k s).request.Accounted := by
    refine ⟨?_, ?_, ?_⟩
    · rw [hoccupied, StreamingRequestState.leaseFrames, hleases]
      simp [StreamingRequestState.queueFrames, CycleState.leased, StreamingRequestState.leased]
    · rw [hoccupied, hframes]
      change _ ≤ s.request.pcmRingCapacityFrames
      rw [hcycle.capacity_eq]
    · change s.request.pcmRingCapacityFrames ≤ _
      rw [hcycle.capacity_eq]
      decide
  have hblocked := blocked_of_full haccounted hcycle.running hcycle.opened hcycle.capacity_eq
    (hoccupied.trans hframes) hleases rfl (by
      change s.request.revision + 2 = _
      rw [maximumUint64]
      omega)
  have hrun : run step (start request ⟨1⟩) (lostWakeUp k) =
      ⟨{ CycleState.leased k s with
          request := (CycleState.leased k s).request.unleased ⟨k + 1, streamChunk k⟩ },
        .awaiting 8 (.blocked maximumUint64)⟩ := by
    rw [lostWakeUp, run_append, start, run_cycleActions, hsystem, ← hblocked,
      ← hcycle.step_acquireAudio (by omega), ← hcycle.step_publish]
    rfl
  rw [hrun]
  intro hsound
  refine (hsound.blocked 8 maximumUint64 rfl ?_).1 ⟨by decide, ?_⟩
  · change s.request.revision + 2 = _
    rw [maximumUint64]
    omega
  · change (CycleState.leased k s).request.occupiedCodecFrames - (streamChunk k).codecFrameCount +
      8 ≤ s.request.pcmRingCapacityFrames
    rw [hoccupied, Nat.sub_self, hcycle.capacity_eq]

/-- The ring is full at revision `2 ^ 64 - 1`: the release throws, and the worker sleeps on. -/
theorem not_capacitySound_exhausted :
    ∃ request, StreamingRequestState.construct 39 8 = .ok request ∧
      ¬ (run step (start request ⟨1⟩) (lostWakeUp 6148914691236517204)).CapacitySound :=
  ⟨_, rfl, not_capacitySound_lostWakeUp rfl (by omega) (by omega)⟩

end CapacityRun

end MagpieTts.Runtime
