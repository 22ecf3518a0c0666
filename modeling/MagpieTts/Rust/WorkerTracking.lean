import MagpieTts.Rust.WorkerLedger

/-!
# The active request and the ledger

The functions of `WorkerProgram` that serve the active request perform only the operations that the
ledger allows, whatever the replies are. Each of them has one lemma, which says what it leaves of
the relation between the variables of the worker and the ledger.

## Main definitions

* `Delivery`: how far the events of a stream have got.
* `Tracks`: the variables of a healthy request agree with the ledger.
* `Fails`: the variables of a request that the worker gives up.
* `Cancelled`, `Advanced`: what `cancel_active_request` and `advance_request` leave.

## Main results

* `keeps_cancelActiveRequest`, `keeps_advanceRequest`: the two functions keep the discipline.
-/

namespace MagpieTts.Rust

open MagpieTts.Library MagpieTts.Api

/-! ### The relation of variables and ledger -/

namespace WorkerLedger

/-- The ledger with another live request. -/
def withLive (ledger : WorkerLedger) (live : LiveRequest) : WorkerLedger :=
  { ledger with live := some live }

variable (ledger : WorkerLedger) (live live' : LiveRequest)

@[simp] theorem withLive_withLive :
    (ledger.withLive live).withLive live' = ledger.withLive live' := rfl

@[simp] theorem live_withLive : (ledger.withLive live).live = some live := rfl

@[simp] theorem cancel_withLive : (ledger.withLive live).cancel = ledger.cancel := rfl

@[simp] theorem onLive_withLive (f : LiveRequest → LiveRequest) :
    (ledger.withLive live).onLive f = ledger.withLive (f live) := rfl

theorem withLive_of_live {ledger : WorkerLedger} {live : LiveRequest}
    (h : ledger.live = some live) :
    ledger.withLive live = ledger := by
  rw [withLive, ← h]

end WorkerLedger

/-- How far the events of an attached stream have got: the event that waits for room in the channel,
and whether the terminal event has been queued. -/
inductive Delivery (live : LiveRequest) : Option SynthesisEvent → Bool → Prop where
  | idle (hsent : live.sent = live.audioEvents) : Delivery live none false
  | blocked (chunk : OwnedAudioChunk) (hsent : live.audioEvents = live.sent ++ [.audio chunk]) :
      Delivery live (some (.audio chunk)) false
  | ending (event : SynthesisEvent) (snapshot : RequestSnapshot)
      (hterminal : live.terminal = some snapshot) (hevent : terminalEvent snapshot = .ok event)
      (hsent : live.sent = live.audioEvents) : Delivery live (some event) true
  | ended (event : SynthesisEvent) (snapshot : RequestSnapshot)
      (hterminal : live.terminal = some snapshot) (hevent : terminalEvent snapshot = .ok event)
      (hsent : live.sent = live.audioEvents ++ [event]) : Delivery live none true

/-- The ledger agrees with the variables that describe the native request, which is healthy. -/
structure Holds (active : ActiveRequest) (live : LiveRequest) : Prop where
  identifier : live.identifier = active.identifier
  handle : active.request.handle = some live.handle
  poisoned : active.request.poisoned = false
  closeError : active.request.closeError = none
  lease : live.lease = none
  stopped : live.stopped = false
  failing : live.failing = false
  snapshots : live.snapshots = active.request.snapshots
  terminal : live.terminal = active.terminalSnapshot
  reportable : ∀ snapshot,
    live.terminal = some snapshot → ∃ event, terminalEvent snapshot = .ok event
  finalAcquired : live.finalAcquired = active.request.leases.finalAudioAcquired
  advertised : active.knownAvailableAudio = live.advertised ∨ live.finalAcquired = true

/-- The ledger agrees with the variables that describe the stream. -/
structure Delivers (active : ActiveRequest) (live : LiveRequest) : Prop where
  events : active.events = if live.attached = true then some live.stream else none
  detached : live.attached = false → active.pendingEvent = none
  delivery : live.attached = true →
    Delivery live active.pendingEvent active.terminalEventQueued
  queued : active.terminalEventQueued = true → live.Drained ∧ live.terminal.isSome = true

/-- The ledger agrees with the variables of the active request, which is healthy. -/
structure Tracks (active : ActiveRequest) (live : LiveRequest) : Prop where
  holds : Holds active live
  delivers : Delivers active live

/-- The wrapper can destroy the native request, or it refuses to do so because a release or the
destruction failed. -/
def Closable (request : Request) (live : LiveRequest) : Prop :=
  (request.handle = some live.handle ∧ request.poisoned = false ∧ request.closeError = none ∧
      live.stopped = false) ∨
    ((request.poisoned = true ∨ request.closeError.isSome = true) ∧ live.stopped = true)

/-- The worker gives the request up with an error, which it may report. -/
structure Fails (active : ActiveRequest) (live : LiveRequest) (error : WorkerError) : Prop where
  failing : live.failing = true
  lease : live.lease = none
  events : active.events = if live.attached = true then some live.stream else none
  reports : ∀ e, error = .runtime e → live.attached = true → live.Sends (.runtimeError e)
  closable : Closable active.request live

section Relations

variable {active : ActiveRequest} {live : LiveRequest}

theorem Holds.handlePtr_eq (h : Holds active live) :
    active.request.handlePtr = .ok live.handle := by
  rw [Request.handlePtr, h.poisoned, h.handle]
  rfl

theorem Holds.callable (h : Holds active live) : live.Callable live.handle :=
  ⟨rfl, h.lease, h.stopped⟩

theorem Holds.closable (h : Holds active live) : Closable active.request live :=
  .inl ⟨h.handle, h.poisoned, h.closeError, h.stopped⟩

theorem Holds.drained_of_known_eq_zero (h : Holds active live)
    (hknown : active.knownAvailableAudio = 0) : live.Drained :=
  h.advertised.imp_left fun hadvertised => hadvertised.symm.trans hknown

theorem Holds.not_drained (h : Holds active live) (hknown : 0 < active.knownAvailableAudio)
    (hfinal : active.request.leases.finalAudioAcquired = false) : ¬ live.Drained := by
  have hlive := h.finalAcquired.trans hfinal
  rcases h.advertised with hadvertised | hacquired
  · rintro (hzero | hacquired)
    · omega
    · rw [hlive] at hacquired
      cases hacquired
  · rw [hlive] at hacquired
    cases hacquired

theorem Delivery.sends {event : SynthesisEvent} {queued : Bool}
    (h : Delivery live (some event) queued) (hdrained : queued = true → live.Drained)
    (hhealthy : live.failing = false) : live.Sends event := by
  cases h with
  | blocked chunk hsent => exact hsent
  | ending event snapshot hterminal hevent hsent =>
    have hends := endsRequest_of_terminalEvent hevent
    cases event with
    | audio chunk => exact hends.elim
    | runtimeError error => exact hends.elim
    | completed => exact ⟨hsent, hdrained rfl, hhealthy, snapshot, hterminal, hevent⟩
    | cancelled => exact ⟨hsent, hdrained rfl, hhealthy, snapshot, hterminal, hevent⟩
    | failed error => exact ⟨hsent, hdrained rfl, hhealthy, snapshot, hterminal, hevent⟩

/-- No pending event is a runtime error. -/
theorem Delivery.reports_eq {event : SynthesisEvent} {queued : Bool}
    (h : Delivery live (some event) queued) (ledger : WorkerLedger) :
    ledger.reports event = ledger := by
  cases h with
  | blocked chunk hsent => rfl
  | ending event snapshot hterminal hevent hsent =>
    have hends := endsRequest_of_terminalEvent hevent
    cases event with
    | runtimeError error => exact hends.elim
    | _ => rfl

/-- The delivery of the pending event. -/
theorem Delivery.sent {event : SynthesisEvent} {queued : Bool}
    (h : Delivery live (some event) queued) :
    Delivery { live with sent := live.sent ++ [event] } none queued := by
  cases h with
  | blocked chunk hsent => exact .idle hsent.symm
  | ending event snapshot hterminal hevent hsent =>
    exact .ended event snapshot hterminal hevent (congrArg (· ++ [event]) hsent)

/-- The delivery depends on the events, the chunks and the terminal snapshot. -/
theorem Delivery.congr {live' : LiveRequest} {pendingEvent : Option SynthesisEvent} {queued : Bool}
    (h : Delivery live pendingEvent queued) (hsent : live'.sent = live.sent)
    (hacquired : live'.acquired = live.acquired) (hterminal : live'.terminal = live.terminal) :
    Delivery live' pendingEvent queued := by
  have haudio : live'.audioEvents = live.audioEvents := by
    rw [LiveRequest.audioEvents, LiveRequest.audioEvents, hacquired]
  cases h with
  | idle h => exact .idle (by rw [hsent, h, haudio])
  | blocked chunk h => exact .blocked chunk (by rw [hsent, ← h, haudio])
  | ending event snapshot hsnapshot hevent h =>
    exact .ending event snapshot (hterminal.trans hsnapshot) hevent (by rw [hsent, h, haudio])
  | ended event snapshot hsnapshot hevent h =>
    exact .ended event snapshot (hterminal.trans hsnapshot) hevent (by rw [hsent, h, haudio])

theorem Delivery.sent_prefix {pendingEvent : Option SynthesisEvent}
    (h : Delivery live pendingEvent false) : live.sent <+: live.audioEvents := by
  cases h with
  | idle hsent => exact hsent ▸ List.prefix_rfl
  | blocked chunk hsent => exact ⟨_, hsent.symm⟩

/-- A healthy request whose terminal event has not been queued, and on which a call fails. -/
theorem Tracks.sends_runtimeError (h : Tracks active live)
    (hqueued : active.terminalEventQueued = false) {live' : LiveRequest}
    (hfailing : live'.failing = true) (hattached : live'.attached = live.attached)
    (hsent : live'.sent = live.sent) (hacquired : live.acquired <+: live'.acquired) (e : Error)
    (hlive : live'.attached = true) : live'.Sends (.runtimeError e) := by
  refine ⟨hfailing, .inl ?_⟩
  have hdelivery := h.delivers.delivery (hattached ▸ hlive)
  rw [hqueued] at hdelivery
  rw [hsent]
  obtain ⟨more, hmore⟩ := hacquired
  refine hdelivery.sent_prefix.trans ⟨more.map .audio, ?_⟩
  rw [LiveRequest.audioEvents, LiveRequest.audioEvents, ← List.map_append, hmore]

theorem Tracks.queued_of_terminal_eq_none (h : Tracks active live)
    (hterminal : active.terminalSnapshot = none) : active.terminalEventQueued = false := by
  by_contra hqueued
  have hsome := (h.delivers.queued (by simpa using hqueued)).2
  rw [h.holds.terminal, hterminal] at hsome
  cases hsome

end Relations

/-- The rule of an operation. -/
theorem keeps_perform {α : Type} {operation : WorkerOperation}
    {next : operation.Reply → Worker α} {post : α → WorkerLedger → Prop} {ledger : WorkerLedger}
    (hallows : ledger.Allows operation)
    (hnext : ∀ reply, (next reply).Keeps workerDiscipline post (ledger.step ⟨operation, reply⟩)) :
    (perform operation >>= next).Keeps workerDiscipline post ledger :=
  ⟨hallows, hnext⟩

theorem keeps_abortDropFailure {α : Type} {resource : String} {error : Error}
    {ledger : WorkerLedger} {live : LiveRequest} {post : α → WorkerLedger → Prop}
    (hlive : ledger.live = some live) (hstopped : live.stopped = true) :
    (abortDropFailure resource error).Keeps workerDiscipline post ledger :=
  ⟨⟨live, hlive, hstopped⟩, fun reply => reply.elim⟩

/-! ### The stream -/

section Stream

variable {active : ActiveRequest} {live : LiveRequest} {ledger : WorkerLedger}

/-- The channel of the sender. -/
theorem stream_eq_of_events {stream : ℕ}
    (hevents : active.events = if live.attached = true then some live.stream else none)
    (hstream : active.events = some stream) : live.attached = true ∧ live.stream = stream := by
  rw [hstream] at hevents
  by_cases hattached : live.attached = true
  · rw [if_pos hattached] at hevents
    exact ⟨hattached, (Option.some.inj hevents).symm⟩
  · rw [if_neg hattached] at hevents
    cases hevents

theorem detached_of_events
    (hevents : active.events = if live.attached = true then some live.stream else none)
    (hnone : active.events = none) : live.attached = false := by
  by_contra hattached
  rw [if_pos (by simpa using hattached), hnone] at hevents
  cases hevents

/-- `request.events = None`. -/
theorem keeps_detach (hmay : ledger.Detaches live)
    (hevents : active.events = if live.attached = true then some live.stream else none) :
    active.detach.Keeps workerDiscipline
      (fun detached ledger' => ledger' = ledger.withLive { live with attached := false } ∧
        detached = { active with events := none })
      (ledger.withLive live) := by
  rw [ActiveRequest.detach]
  split
  · rename_i hnone
    have hdetached := detached_of_events hevents hnone
    exact ⟨by rw [← hdetached], by rw [← hnone]⟩
  · rename_i stream hstream
    obtain ⟨-, rfl⟩ := stream_eq_of_events hevents hstream
    refine keeps_perform (fun live' hlive' _ => ?_) fun reply => ⟨?_, rfl⟩
    · cases hlive'
      exact hmay
    · change (ledger.withLive live).onLive _ = _
      rw [WorkerLedger.onLive_withLive, if_pos rfl]

/-- `flush_pending_event`. -/
theorem keeps_flushPendingEvent (h : Tracks active live) :
    (flushPendingEvent active).Keeps workerDiscipline
      (fun flushed ledger' => (∃ live', ledger' = ledger.withLive live' ∧ Tracks flushed live') ∧
        flushed.terminalEventQueued = active.terminalEventQueued ∧
        flushed.terminalSnapshot = active.terminalSnapshot)
      (ledger.withLive live) := by
  rw [flushPendingEvent]
  split
  · exact ⟨⟨live, rfl, h⟩, rfl, rfl⟩
  rename_i event hpending
  split
  · rename_i hnone
    rw [h.delivers.detached (detached_of_events h.delivers.events hnone)] at hpending
    cases hpending
  · rename_i stream hstream
    obtain ⟨hattached, rfl⟩ := stream_eq_of_events h.delivers.events hstream
    have hdelivery := h.delivers.delivery hattached
    rw [hpending] at hdelivery
    have hsends := hdelivery.sends (fun hqueued => (h.delivers.queued hqueued).1) h.holds.failing
    refine keeps_perform ⟨live, rfl, rfl, hattached, h.holds.lease, hsends⟩ fun reply => ?_
    cases reply with
    | sent =>
      refine ⟨⟨{ live with sent := live.sent ++ [event] }, ?_, { h.holds with }, ?_⟩, rfl, rfl⟩
      · change ((ledger.withLive live).sends live.stream event).reports event = _
        rw [hdelivery.reports_eq, WorkerLedger.sends, WorkerLedger.onLive_withLive, if_pos rfl]
      · exact ⟨h.delivers.events, fun _ => rfl, fun _ => hdelivery.sent, h.delivers.queued⟩
    | full =>
      refine ⟨⟨live, ?_, h⟩, rfl, rfl⟩
      change (ledger.withLive live).reports event = _
      rw [hdelivery.reports_eq]
    | disconnected =>
      change (ActiveRequest.detach _).Keeps workerDiscipline _
        (((ledger.withLive live).refuses live.stream).reports event)
      rw [hdelivery.reports_eq, WorkerLedger.refuses, WorkerLedger.onLive_withLive, if_pos rfl]
      have hevents : { active with pendingEvent := none }.events =
        if live.attached = true then some live.stream else none := h.delivers.events
      refine (@keeps_detach _ { live with refused := true } ledger (.inl rfl) hevents).mono ?_
      rintro detached ledger' ⟨rfl, rfl⟩
      refine ⟨⟨_, rfl, { h.holds with }, rfl, fun _ => rfl, fun habsurd => ?_, h.delivers.queued⟩,
        rfl, rfl⟩
      cases habsurd

end Stream

/-! ### The native request -/

section NativeRequest

variable {active : ActiveRequest} {live : LiveRequest} {ledger : WorkerLedger}

/-- What `cancel_active_request` leaves. An error that is not fatal for the sender of a command is
fatal for a request without a stream. -/
def Cancelled (ledger : WorkerLedger) (live : LiveRequest) :
    ActiveRequest × Except WorkerError Unit → WorkerLedger → Prop
  | (cancelled, result), ledger' => ∃ live', ledger' = ledger.withLive live' ∧
      live'.identifier = live.identifier ∧ live'.attached = live.attached ∧
      (live.cancelError = none → result = live'.cancelResult) ∧
      match result with
      | .ok () => Tracks cancelled live'
      | .error error =>
        (ledger.cancel.isSome = true ∧ cancelErrorIsFatal error = false → Tracks cancelled live') ∧
        (ledger.cancel.isSome = false ∨ cancelErrorIsFatal error = true →
          Fails cancelled live' error)

theorem cancelResult_of_cancelError_eq_none (h : live.cancelError = none) :
    live.cancelResult = .ok () := by
  rw [LiveRequest.cancelResult, h]
  split
  · rename_i habsurd
    cases habsurd
  · rfl

theorem cancelResult_of_terminal_eq_none (hterminal : live.terminal = none) {error : Error}
    (hcancel : live.cancelError = some error) : live.cancelResult = .error (.runtime error) := by
  rw [LiveRequest.cancelResult, hterminal, hcancel]

theorem observe_terminal (h : live.terminal = active.terminalSnapshot) {snapshot : RequestSnapshot}
    {snapshots : SnapshotRecord} : (live.observe snapshot snapshots).terminal =
      (ActiveRequest.observeSnapshot active snapshot).terminalSnapshot := by
  rw [LiveRequest.observe, ActiveRequest.observeSnapshot, h]

theorem Tracks.cancelResult_eq_ok (h : Tracks active live)
    (hterminal : active.terminalSnapshot.isSome = true) : live.cancelResult = .ok () := by
  obtain ⟨snapshot, hsnapshot⟩ := Option.isSome_iff_exists.mp hterminal
  rw [LiveRequest.cancelResult, h.holds.terminal, hsnapshot]

/-- The stream is as it was. -/
structure SameStream (active : ActiveRequest) (live : LiveRequest) (active' : ActiveRequest)
    (live' : LiveRequest) : Prop where
  events : active'.events = active.events
  stream : live'.stream = live.stream
  attached : live'.attached = live.attached
  sent : live'.sent = live.sent

/-- A healthy request without a terminal event keeps track of its stream when other facts about the
native request become known. -/
theorem Tracks.sameStream (h : Tracks active live) (hqueued : active.terminalEventQueued = false)
    {active' : ActiveRequest} {live' : LiveRequest} (hholds : Holds active' live')
    (hsame : SameStream active live active' live')
    (hpending : active'.pendingEvent = active.pendingEvent)
    (hqueued' : active'.terminalEventQueued = false)
    (hacquired : live'.acquired = live.acquired) : Tracks active' live' := by
  refine ⟨hholds, ?_, ?_, fun hlive => ?_, fun habsurd => ?_⟩
  · rw [hsame.events, hsame.attached, hsame.stream]
    exact h.delivers.events
  · rw [hsame.attached, hpending]
    exact h.delivers.detached
  · have hdelivery := h.delivers.delivery (hsame.attached ▸ hlive)
    rw [hqueued] at hdelivery
    rw [hpending, hqueued']
    revert hdelivery
    generalize active.pendingEvent = pendingEvent
    rintro (hidle | ⟨chunk, hblocked⟩)
    · refine .idle ?_
      rw [hsame.sent, hidle, LiveRequest.audioEvents, LiveRequest.audioEvents, hacquired]
    · refine .blocked chunk ?_
      rw [hsame.sent, ← hblocked, LiveRequest.audioEvents, LiveRequest.audioEvents, hacquired]
  · exact absurd (hqueued'.symm.trans habsurd) (by decide)

/-- A call failed on a healthy request whose terminal event has not been queued. -/
theorem Tracks.fails (h : Tracks active live) (hqueued : active.terminalEventQueued = false)
    {active' : ActiveRequest} {live' : LiveRequest} {error : WorkerError}
    (hsame : SameStream active live active' live') (hfailing : live'.failing = true)
    (hlease : live'.lease = none) (hacquired : live.acquired <+: live'.acquired)
    (hclosable : Closable active'.request live') : Fails active' live' error := by
  refine ⟨hfailing, hlease, ?_, fun e _ hlive => ?_, hclosable⟩
  · rw [hsame.events, hsame.attached, hsame.stream]
    exact h.delivers.events
  · exact h.sends_runtimeError hqueued hfailing hsame.attached hsame.sent hacquired e hlive

/-- What a validated snapshot has of the raw one. -/
theorem fields_of_validateSnapshot {record record' : SnapshotRecord} {operation : String}
    {raw : PublicSnapshot} {minimumRevisionExclusive : Option ℕ} {snapshot : RequestSnapshot}
    (h : record.validateSnapshot operation raw minimumRevisionExclusive = .ok (snapshot, record')) :
    requestStateFromRaw operation raw.state = .ok snapshot.state ∧
      snapshot.availableAudioLeases = raw.availableAudioLeases ∧
      (snapshot.state = .failed → snapshot.terminalError.isSome = true) := by
  rw [SnapshotRecord.validateSnapshot] at h
  obtain ⟨_, -, h⟩ := exists_of_bind_eq_ok h
  simp only [bind_invalidNativeIf_eq_ok] at h
  obtain ⟨-, -, -, h⟩ := h
  obtain ⟨state, hstate, h⟩ := exists_of_bind_eq_ok h
  simp only [bind_invalidNativeIf_eq_ok] at h
  obtain ⟨-, -, h⟩ := h
  obtain ⟨_, -, h⟩ := exists_of_bind_eq_ok h
  split at h
  · cases h
    exact ⟨hstate, rfl, fun hfailed => by rw [if_pos hfailed]; rfl⟩
  · obtain ⟨_, -, h⟩ := exists_of_bind_eq_ok h
    cases h
    exact ⟨hstate, rfl, fun hfailed => by rw [if_pos hfailed]; rfl⟩

/-- A validated terminal snapshot has its event. -/
theorem exists_terminalEvent_of_validateSnapshot {record record' : SnapshotRecord}
    {operation : String} {raw : PublicSnapshot} {minimumRevisionExclusive : Option ℕ}
    {snapshot : RequestSnapshot}
    (h : record.validateSnapshot operation raw minimumRevisionExclusive = .ok (snapshot, record'))
    (hterminal : snapshot.state ≠ .running) : ∃ event, terminalEvent snapshot = .ok event := by
  obtain ⟨-, -, herror⟩ := fields_of_validateSnapshot h
  rw [terminalEvent]
  cases hstate : snapshot.state with
  | running => exact absurd hstate hterminal
  | completed => exact ⟨_, rfl⟩
  | cancelled => exact ⟨_, rfl⟩
  | failed =>
    obtain ⟨failure, hfailure⟩ := Option.isSome_iff_exists.mp (herror hstate)
    rw [hfailure]
    exact ⟨_, rfl⟩

theorem Holds.reportable_observe {active' : ActiveRequest} {live' : LiveRequest}
    (h : Holds active' live') {snapshot : RequestSnapshot} {snapshots : SnapshotRecord}
    (hreportable : snapshot.state ≠ .running → ∃ event, terminalEvent snapshot = .ok event) :
    ∀ terminal, (live'.observe snapshot snapshots).terminal = some terminal →
      ∃ event, terminalEvent terminal = .ok event := by
  intro terminal hterminal
  change (if snapshot.state ≠ .running then some snapshot else live'.terminal) = some terminal
    at hterminal
  by_cases hrunning : snapshot.state ≠ .running
  · rw [if_pos hrunning] at hterminal
    cases hterminal
    exact hreportable hrunning
  · rw [if_neg hrunning] at hterminal
    exact h.reportable terminal hterminal

/-- The books behind a validated snapshot of a poll. -/
theorem polled_of_validateSnapshot {commanded : Bool} {raw : PublicSnapshot}
    {snapshot : RequestSnapshot} {snapshots : SnapshotRecord}
    (hvalid : live.snapshots.validateSnapshot "request_poll" raw none = .ok (snapshot, snapshots)) :
    live.polled commanded (.ok raw) =
      { live.observe snapshot snapshots with
        failing := live.failing || (snapshot.state = .running && !commanded) } := by
  rw [LiveRequest.polled, hvalid]

/-- `poll`. -/
theorem keeps_poll (h : Holds active live) (hrunning : live.terminal = none)
    (hcancel : live.cancelError.isSome = true) :
    active.request.poll.Keeps workerDiscipline
      (fun polled ledger' =>
        match polled with
        | (request, .ok snapshot) => ∃ snapshots, request = { active.request with snapshots } ∧
            (snapshot.state ≠ .running → ∃ event, terminalEvent snapshot = .ok event) ∧
            ledger' = ledger.withLive
              { live.observe snapshot snapshots with
                failing := live.failing || (snapshot.state = .running && !ledger.cancel.isSome) }
        | (request, .error _) => request = active.request ∧
            ledger' = ledger.withLive
              { live with failing := live.failing || !ledger.cancel.isSome })
      (ledger.withLive live) := by
  rw [Request.poll, h.handlePtr_eq]
  refine keeps_perform ⟨live, rfl, h.callable, hrunning, hcancel⟩ fun reply => ?_
  cases reply with
  | error error => exact ⟨rfl, rfl⟩
  | ok raw =>
    change Program.Keeps _ _ (pure (active.request.acceptSnapshot "request_poll" raw none))
      (ledger.withLive (live.polled ledger.cancel.isSome (.ok raw)))
    rw [Program.keeps_pure, Request.acceptSnapshot, ← h.snapshots]
    rcases hvalid : live.snapshots.validateSnapshot "request_poll" raw none with
      invalid | ⟨snapshot, snapshots⟩
    · rw [LiveRequest.polled, hvalid]
      exact ⟨rfl, rfl⟩
    · rw [polled_of_validateSnapshot hvalid]
      exact ⟨snapshots, rfl, exists_terminalEvent_of_validateSnapshot hvalid, rfl⟩

/-- `wait_after`. -/
theorem keeps_waitAfter (h : Holds active live) (hrunning : live.terminal = none)
    (afterRevision : ℕ) :
    (active.request.waitAfter afterRevision).Keeps workerDiscipline
      (fun waited ledger' =>
        match waited with
        | (request, .ok (some snapshot)) => ∃ snapshots,
            request = { active.request with snapshots } ∧
              (snapshot.state ≠ .running → ∃ event, terminalEvent snapshot = .ok event) ∧
              ledger' = ledger.withLive (live.observe snapshot snapshots)
        | (request, .ok none) => request = active.request ∧ ledger' = ledger.withLive live
        | (request, .error _) =>
          request = active.request ∧ ledger' = ledger.withLive { live with failing := true })
      (ledger.withLive live) := by
  rw [Request.waitAfter, h.handlePtr_eq]
  refine keeps_perform ⟨live, rfl, h.callable, hrunning⟩ fun reply => ?_
  rcases reply with error | _ | raw
  · exact ⟨rfl, rfl⟩
  · exact ⟨rfl, rfl⟩
  · change Program.Keeps _ _
      (pure ((active.request.acceptSnapshot "request_wait" raw (some afterRevision)).1,
        (active.request.acceptSnapshot "request_wait" raw (some afterRevision)).2.map some))
      (ledger.withLive (live.waited afterRevision (.ok (some raw))))
    rw [Program.keeps_pure, Request.acceptSnapshot, ← h.snapshots, LiveRequest.waited]
    rcases hvalid : live.snapshots.validateSnapshot "request_wait" raw (some afterRevision) with
      invalid | ⟨snapshot, snapshots⟩
    · exact ⟨rfl, rfl⟩
    · exact ⟨snapshots, rfl, exists_terminalEvent_of_validateSnapshot hvalid, rfl⟩

/-- A cancel that the native library refused, and that did not race with the terminal state. -/
theorem Tracks.cancelled_of_refused (h : Tracks active live)
    (hqueued : active.terminalEventQueued = false) {cancelError : Error}
    (hharmless : cancelErrorIsFatal (.runtime cancelError) = false) {active' : ActiveRequest}
    {live' : LiveRequest} (hholds : Holds active' live')
    (hsame : SameStream active live active' live')
    (hpending : active'.pendingEvent = active.pendingEvent)
    (hqueued' : active'.terminalEventQueued = false) (hacquired : live'.acquired = live.acquired)
    (hterminal : live'.terminal = none) (hcancelError : live'.cancelError = some cancelError)
    (hidentifier : live'.identifier = live.identifier) :
    Cancelled ledger live (active', .error (.runtime cancelError))
      (ledger.withLive { live' with failing := !ledger.cancel.isSome }) := by
  refine ⟨_, rfl, hidentifier, hsame.attached, fun _ => ?_, fun hcommanded => ?_,
    fun habandoned => ?_⟩
  · exact (@cancelResult_of_terminal_eq_none { live' with failing := !ledger.cancel.isSome }
      hterminal _ hcancelError).symm
  · rw [hcommanded.1]
    exact h.sameStream hqueued { hholds with failing := rfl } { hsame with } hpending hqueued'
      hacquired
  · refine h.fails hqueued { hsame with } ?_ hholds.lease ?_ hholds.closable
    · rw [habandoned.resolve_right (by rw [hharmless]; decide)]
      rfl
    · exact hacquired ▸ List.prefix_rfl

/-- `cancel_active_request`. -/
theorem keeps_cancelActiveRequest (h : Tracks active live)
    (hmay : (ledger.cancel = none ∧ live.attached = false) ∨
      ∃ reply, ledger.cancel = some (live.identifier, reply)) :
    (cancelActiveRequest active).Keeps workerDiscipline (Cancelled ledger live)
      (ledger.withLive live) := by
  rw [cancelActiveRequest]
  split
  · rename_i hterminal
    exact ⟨live, rfl, rfl, rfl, fun _ => (h.cancelResult_eq_ok hterminal).symm, h⟩
  rename_i hterminal
  have hnone : active.terminalSnapshot = none := by simpa using hterminal
  have hnoTerminal := h.holds.terminal.trans hnone
  have hqueued := h.queued_of_terminal_eq_none hnone
  rw [Request.cancel, h.holds.handlePtr_eq]
  refine keeps_perform ⟨live, rfl, h.holds.callable, hnoTerminal, hmay⟩ fun reply => ?_
  cases reply with
  | ok _ =>
    refine ⟨{ live with advertised := 0 }, rfl, rfl, rfl, fun hclean => ?_, ?_⟩
    · exact (@cancelResult_of_cancelError_eq_none { live with advertised := 0 } hclean).symm
    · exact h.sameStream hqueued { h.holds with advertised := .inl rfl } ⟨rfl, rfl, rfl, rfl⟩ rfl
        hqueued rfl
  | error cancelError =>
    change Program.Keeps _ _ (if cancelMayHaveRacedTerminal cancelError = true then _ else _)
      (ledger.withLive (live.cancels (.error cancelError)))
    rw [LiveRequest.cancels, h.holds.failing, Bool.false_or]
    by_cases hraced : cancelMayHaveRacedTerminal cancelError = true
    · have hharmless : cancelErrorIsFatal (.runtime cancelError) = false := by
        rw [cancelErrorIsFatal, hraced]
        rfl
      rw [if_pos hraced, hraced, Program.keeps_bind]
      have hrefused :
          Holds active { live with cancelError := some cancelError, failing := false } :=
        { h.holds with failing := rfl }
      refine (keeps_poll hrefused hnoTerminal rfl).mono ?_
      rintro ⟨request, error | snapshot⟩ ledger'
      · rintro ⟨rfl, rfl⟩
        exact h.cancelled_of_refused hqueued hharmless hrefused ⟨rfl, rfl, rfl, rfl⟩ rfl hqueued rfl
          hnoTerminal rfl rfl
      · rintro ⟨snapshots, rfl, hreportable, rfl⟩
        have hobserved : Holds
            (ActiveRequest.observeSnapshot
              { active with request := { active.request with snapshots } } snapshot)
            (LiveRequest.observe { live with cancelError := some cancelError, failing := false }
              snapshot snapshots) :=
          { hrefused with
            snapshots := rfl
            terminal := observe_terminal hrefused.terminal
            reportable := hrefused.reportable_observe hreportable
            advertised := .inl rfl }
        change Program.Keeps _ _ (if snapshot.state ≠ .running then _ else _) _
        by_cases hrunning : snapshot.state = .running
        · rw [if_neg (not_not.mpr hrunning), decide_eq_true hrunning]
          refine h.cancelled_of_refused hqueued hharmless hobserved ⟨rfl, rfl, rfl, rfl⟩ rfl hqueued
            rfl ?_ rfl rfl
          change (if snapshot.state ≠ .running then some snapshot else live.terminal) = none
          rw [if_neg (not_not.mpr hrunning), hnoTerminal]
        · rw [if_pos hrunning, decide_eq_false hrunning]
          have htracks := h.sameStream hqueued hobserved ⟨rfl, rfl, rfl, rfl⟩ rfl hqueued rfl
          refine ⟨_, rfl, rfl, rfl, fun _ => (htracks.cancelResult_eq_ok ?_).symm, htracks⟩
          change (if snapshot.state ≠ .running then some snapshot else _).isSome = true
          rw [if_pos hrunning]
          rfl
    · have hfatal : cancelErrorIsFatal (.runtime cancelError) = true := by
        rw [cancelErrorIsFatal, Bool.eq_false_iff.mpr hraced]
        rfl
      rw [if_neg hraced, Bool.eq_false_iff.mpr hraced]
      refine ⟨_, rfl, rfl, rfl, fun _ => ?_, fun hcommanded => ?_, fun habandoned => ?_⟩
      · exact (@cancelResult_of_terminal_eq_none
          { live with cancelError := some cancelError, failing := true } hnoTerminal _ rfl).symm
      · exact absurd (hfatal.symm.trans hcommanded.2) (by decide)
      · exact h.fails hqueued ⟨rfl, rfl, rfl, rfl⟩ rfl h.holds.lease List.prefix_rfl
          h.holds.closable

/-! ### Audio -/

/-- What the wrapper records of an accepted lease, and the events it accepts. -/
theorem acceptLease_eq_ok {request : Request} {raw : AudioLeaseV1} {leases : LeaseRecord}
    {alignmentEvents : List AlignmentEvent}
    (h : request.acceptLease raw = (leases, .ok alignmentEvents)) :
    leases.finalAudioAcquired = decide (raw.flags &&& audioFlagFinal ≠ 0) ∧
      alignmentEvents = (raw.eventMemory.take raw.alignmentEventCount).map alignmentEvent := by
  rw [Request.acceptLease] at h
  rcases hvalidated : validateAudioLease request.snapshots.tokenCount request.leases raw with
    ⟨invalid | events, record⟩
  · rw [hvalidated] at h
    cases h
  · rw [hvalidated] at h
    rcases hposition : nextAudioPosition raw with invalid | position
    · rw [hposition] at h
      cases h
    · rw [hposition] at h
      cases h
      exact ⟨rfl, events_eq_of_validateAudioLease (congrArg Prod.fst hvalidated)⟩

theorem releaseAudioId_eq {request : Request} {handle leaseId : ℕ}
    (h : request.handlePtr = .ok handle) :
    request.releaseAudioId leaseId = perform (.audioRelease handle leaseId) := by
  rw [Request.releaseAudioId, h]

/-- `acquire_audio`, asked for because a snapshot advertised audio. -/
theorem keeps_acquireAudio (h : Tracks active live) (hqueued : active.terminalEventQueued = false)
    (hpending : active.pendingEvent = none) (hknown : 0 < active.knownAvailableAudio) :
    active.request.acquireAudio.Keeps workerDiscipline
      (fun acquired ledger' =>
        match acquired with
        | (request, .ok (some (raw, alignmentEvents))) => ∃ leases,
            request = { active.request with leases } ∧
              leases.finalAudioAcquired = decide (raw.flags &&& audioFlagFinal ≠ 0) ∧
              alignmentEvents = (raw.eventMemory.take raw.alignmentEventCount).map alignmentEvent ∧
              ledger' = ledger.withLive
                { live with
                  lease := some raw
                  copied := false
                  advertised := active.knownAvailableAudio - 1 }
        | (request, .ok none) => request = active.request ∧ ∃ live',
            ledger' = ledger.withLive live' ∧
              Tracks { active with knownAvailableAudio := 0 } live'
        | (request, .error error) => ∃ live', ledger' = ledger.withLive live' ∧
            Fails { active with request } live' (.runtime error))
      (ledger.withLive live) := by
  rw [Request.acquireAudio, h.holds.handlePtr_eq]
  change Program.Keeps _ _ (if active.request.leases.finalAudioAcquired = true then _ else _) _
  by_cases hfinal : active.request.leases.finalAudioAcquired = true
  · rw [if_pos hfinal]
    have hacquired : live.finalAcquired = true := h.holds.finalAcquired.trans hfinal
    exact ⟨rfl, live, rfl, h.sameStream hqueued { h.holds with advertised := .inr hacquired }
      ⟨rfl, rfl, rfl, rfl⟩ rfl hqueued rfl⟩
  rw [if_neg hfinal]
  have hnot := h.holds.not_drained hknown (by simpa using hfinal)
  have hidle : live.attached = true → live.sent = live.audioEvents := by
    intro hattached
    have hdelivery := h.delivers.delivery hattached
    rw [hpending, hqueued] at hdelivery
    cases hdelivery with
    | idle hsent => exact hsent
  have hadvertised : live.advertised = active.knownAvailableAudio := by
    rcases h.holds.advertised with hadvertised | hacquired
    · exact hadvertised.symm
    · exact absurd (Or.inr hacquired) hnot
  refine keeps_perform ⟨live, rfl, h.holds.callable, hnot, hidle⟩ fun reply => ?_
  rcases reply with error | _ | raw
  · refine ⟨{ live with failing := true }, rfl, ?_⟩
    exact h.fails hqueued ⟨rfl, rfl, rfl, rfl⟩ rfl h.holds.lease List.prefix_rfl h.holds.closable
  · refine ⟨rfl, { live with advertised := 0 }, rfl, ?_⟩
    exact h.sameStream hqueued { h.holds with advertised := .inl rfl } ⟨rfl, rfl, rfl, rfl⟩ rfl
      hqueued rfl
  · change Program.Keeps _ _ _ (ledger.withLive (live.acquires (.ok (some raw))))
    dsimp only
    rcases haccept : active.request.acceptLease raw with ⟨leases, leaseError | alignmentEvents⟩
    · have hhandle : Request.handlePtr { active.request with leases } = .ok live.handle :=
        h.holds.handlePtr_eq
      change Program.Keeps _ _
        (Request.releaseAudioId { active.request with leases } raw.leaseId >>=
        fun released => _) _
      rw [releaseAudioId_eq hhandle]
      refine keeps_perform ⟨_, rfl, rfl, raw, rfl, rfl⟩ fun reply => ?_
      cases reply with
      | ok _ =>
        refine ⟨{ live.acquires (.ok (some raw)) with lease := none, failing := true }, ?_, ?_⟩
        · change ledger.withLive ((live.acquires (.ok (some raw))).releases (.ok ())) = _
          rw [LiveRequest.releases, LiveRequest.acquires, Bool.not_false, Bool.or_true]
        · exact h.fails hqueued ⟨rfl, rfl, rfl, rfl⟩ rfl rfl List.prefix_rfl h.holds.closable
      | error releaseError =>
        refine ⟨_, rfl, ?_⟩
        exact h.fails hqueued ⟨rfl, rfl, rfl, rfl⟩ rfl rfl List.prefix_rfl (.inr ⟨.inl rfl, rfl⟩)
    · obtain ⟨hfinalAcquired, hevents⟩ := acceptLease_eq_ok haccept
      exact ⟨leases, rfl, hfinalAcquired, hevents, by rw [← hadvertised]; rfl⟩

/-- `acquire_owned_audio`, asked for because a snapshot advertised audio. -/
theorem keeps_acquireOwnedAudio (h : Tracks active live)
    (hqueued : active.terminalEventQueued = false) (hpending : active.pendingEvent = none)
    (hknown : 0 < active.knownAvailableAudio) :
    (acquireOwnedAudio active.request).Keeps workerDiscipline
      (fun acquired ledger' =>
        match acquired with
        | (request, .ok (some chunk)) => ∃ live', ledger' = ledger.withLive live' ∧
            Holds { active with request, knownAvailableAudio := active.knownAvailableAudio - 1 }
              live' ∧
            SameStream active live active live' ∧ live'.acquired = live.acquired ++ [chunk]
        | (request, .ok none) => ∃ live', ledger' = ledger.withLive live' ∧
            Tracks { active with request, knownAvailableAudio := 0 } live'
        | (request, .error error) => ∃ live', ledger' = ledger.withLive live' ∧
            Fails { active with request } live' (.runtime error))
      (ledger.withLive live) := by
  rw [acquireOwnedAudio, Program.keeps_bind]
  refine (keeps_acquireAudio h hqueued hpending hknown).mono ?_
  rintro ⟨request, error | _ | ⟨raw, alignmentEvents⟩⟩ ledger'
  · exact fun hfails => hfails
  · rintro ⟨rfl, live', rfl, htracks⟩
    exact ⟨live', rfl, htracks⟩
  · rintro ⟨leases, rfl, hfinal, rfl, rfl⟩
    have hhandle : Request.handlePtr { active.request with leases } = .ok live.handle :=
      h.holds.handlePtr_eq
    have hgetD : active.request.handle.getD 0 = live.handle := by rw [h.holds.handle]; rfl
    refine keeps_perform ⟨_, rfl, hgetD.symm, rfl, rfl⟩ fun samples => ?_
    change Program.Keeps _ _ (Request.releaseAudioId { active.request with leases } raw.leaseId >>=
      fun released => _) _
    rw [releaseAudioId_eq hhandle]
    refine keeps_perform ⟨_, rfl, rfl, raw, rfl, rfl⟩ fun reply => ?_
    cases reply with
    | ok _ =>
      refine ⟨_, rfl, { h.holds with
        lease := rfl
        failing := ?_
        finalAcquired := hfinal.symm
        advertised := .inl rfl }, ⟨rfl, rfl, rfl, rfl⟩, rfl⟩
      change (live.failing || !true) = false
      rw [h.holds.failing]
      rfl
    | error releaseError => exact keeps_abortDropFailure rfl rfl

/-! ### The stages of `advance_request` -/

/-- What `advance_request` leaves. -/
def Advanced (ledger : WorkerLedger) :
    ActiveRequest × Except WorkerError AdvanceOutcome → WorkerLedger → Prop
  | (active, .ok .finished), ledger' =>
    ledger' = { ledger with live := none, finished := some active.identifier } ∧
      active.request.handle = none ∧ active.request.poisoned = false ∧
      active.request.closeError = none
  | (active, .ok _), ledger' => ∃ live, ledger' = ledger.withLive live ∧ Tracks active live
  | (active, .error error), ledger' => ∃ live, ledger' = ledger.withLive live ∧
      Fails active live error

/-- `close` of a request that is not poisoned. -/
theorem close_eq {request : Request} {handle : ℕ} (hpoisoned : request.poisoned = false)
    (hhandle : request.handle = some handle) : request.close = do
      match ← perform (.requestDestroy handle) with
      | .ok () => return ({ request with handle := none, closeError := none }, .ok ())
      | .error closeError =>
        return ({ request with closeError := some closeError }, .error closeError) := by
  obtain ⟨handle', snapshots, leases, poisoned, closeError⟩ := request
  cases hpoisoned
  cases hhandle
  rfl

/-- The end of `advance_request`: the request is closed. -/
theorem keeps_closeStage (h : Tracks active live) (hqueued : active.terminalEventQueued = true)
    (hpending : active.pendingEvent = none) :
    (closeStage active).Keeps workerDiscipline (Advanced ledger) (ledger.withLive live) := by
  have hended : live.attached = true → ∃ event snapshot, live.terminal = some snapshot ∧
      terminalEvent snapshot = .ok event ∧ live.sent = live.audioEvents ++ [event] := by
    intro hattached
    have hdelivery := h.delivers.delivery hattached
    rw [hpending, hqueued] at hdelivery
    cases hdelivery with
    | ended event snapshot hterminal hevent hsent =>
      exact ⟨event, snapshot, hterminal, hevent, hsent⟩
  obtain ⟨hdrained, hterminal⟩ := h.delivers.queued hqueued
  obtain ⟨snapshot, hsnapshot⟩ := Option.isSome_iff_exists.mp hterminal
  rw [closeStage, close_eq h.holds.poisoned h.holds.handle, Program.keeps_bind]
  refine keeps_perform ⟨live, rfl, h.holds.callable, .inr ⟨hdrained, snapshot, hsnapshot,
    fun hattached => ?_⟩⟩ fun reply => ?_
  · obtain ⟨event, snapshot', hsnapshot', hevent, hsent⟩ := hended hattached
    rw [hsnapshot] at hsnapshot'
    cases hsnapshot'
    exact ⟨event, hevent, hsent⟩
  · cases reply with
    | ok _ =>
      refine ⟨?_, rfl, h.holds.poisoned, rfl⟩
      rw [← h.holds.identifier]
      rfl
    | error closeError =>
      refine ⟨_, rfl, rfl, h.holds.lease, h.delivers.events, fun e he hattached => ?_, ?_⟩
      · cases he
        obtain ⟨event, snapshot', -, hevent, hsent⟩ := hended hattached
        exact ⟨rfl, .inr ⟨rfl, event, endsRequest_of_terminalEvent hevent, hsent⟩⟩
      · exact .inr ⟨.inr rfl, rfl⟩

/-- `advance_request` from the terminal event on. -/
theorem keeps_finishStage (h : Tracks active live) (hpending : active.pendingEvent = none)
    {snapshot : RequestSnapshot} (hterminal : active.terminalSnapshot = some snapshot)
    (hknown : active.knownAvailableAudio = 0) :
    (finishStage active snapshot).Keeps workerDiscipline (Advanced ledger)
      (ledger.withLive live) := by
  rw [finishStage]
  by_cases hqueued : active.terminalEventQueued = true
  · rw [if_pos hqueued]
    exact keeps_closeStage h hqueued hpending
  rw [if_neg hqueued]
  have hnotQueued : active.terminalEventQueued = false := by simpa using hqueued
  have hdrained := h.holds.drained_of_known_eq_zero hknown
  have hsnapshot := h.holds.terminal.trans hterminal
  have hisSome : live.terminal.isSome = true := by rw [hsnapshot]; rfl
  change Program.Keeps _ _ (if active.events.isSome = true then _ else _) _
  by_cases hattached : live.attached = true
  · have hevents : active.events.isSome = true := by
      rw [h.delivers.events, if_pos hattached]
      rfl
    rw [if_pos hevents]
    obtain ⟨event, hevent⟩ := h.holds.reportable snapshot hsnapshot
    rw [hevent]
    have hdelivery := h.delivers.delivery hattached
    rw [hpending, hnotQueued] at hdelivery
    have hending : Tracks { active with pendingEvent := some event, terminalEventQueued := true }
        live := by
      refine ⟨{ h.holds with }, h.delivers.events, fun hdetached => ?_, fun _ => ?_,
        fun _ => ⟨hdrained, hisSome⟩⟩
      · exact absurd (hattached.symm.trans hdetached) (by decide)
      · cases hdelivery with
        | idle hsent => exact .ending event snapshot hsnapshot hevent hsent
    change Program.Keeps _ _ (flushPendingEvent _ >>= _) _
    rw [Program.keeps_bind]
    refine (keeps_flushPendingEvent hending).mono ?_
    rintro flushed ledger' ⟨⟨live', rfl, htracks⟩, hflushed, -⟩
    by_cases hblocked : flushed.pendingEvent.isSome = true
    · rw [if_pos hblocked]
      exact ⟨live', rfl, htracks⟩
    · rw [if_neg hblocked]
      exact keeps_closeStage htracks hflushed (by simpa using hblocked)
  · have hdetached : live.attached = false := by simpa using hattached
    have hevents : ¬ active.events.isSome = true := by
      rw [h.delivers.events, if_neg hattached]
      decide
    rw [if_neg hevents]
    refine keeps_closeStage ⟨{ h.holds with }, h.delivers.events, h.delivers.detached,
      fun habsurd => absurd habsurd hattached, fun _ => ⟨hdrained, hisSome⟩⟩ rfl hpending

/-- `advance_request` from the wait on. -/
theorem keeps_observeStage (h : Tracks active live) (hpending : active.pendingEvent = none) :
    (observeStage active).Keeps workerDiscipline (Advanced ledger) (ledger.withLive live) := by
  rw [observeStage]
  split
  · rename_i hnone
    have hqueued := h.queued_of_terminal_eq_none hnone
    have hrunning := h.holds.terminal.trans hnone
    rw [Program.keeps_bind]
    refine (keeps_waitAfter h.holds hrunning active.observedRevision).mono ?_
    rintro ⟨request, error | _ | snapshot⟩ ledger'
    · rintro ⟨rfl, rfl⟩
      exact ⟨_, rfl, h.fails hqueued ⟨rfl, rfl, rfl, rfl⟩ rfl h.holds.lease List.prefix_rfl
        h.holds.closable⟩
    · rintro ⟨rfl, rfl⟩
      exact ⟨live, rfl, h⟩
    · rintro ⟨snapshots, rfl, hreportable, rfl⟩
      refine ⟨_, rfl, h.sameStream hqueued { h.holds with
        snapshots := rfl
        terminal := observe_terminal h.holds.terminal
        reportable := h.holds.reportable_observe hreportable
        advertised := .inl rfl } ⟨rfl, rfl, rfl, rfl⟩ rfl hqueued rfl⟩
  · rename_i snapshot hterminal
    split
    · exact ⟨live, rfl, h⟩
    · rename_i hknown
      exact keeps_finishStage h hpending hterminal (Nat.eq_zero_of_not_pos hknown)

/-- An acquired chunk waits for its delivery. -/
theorem Tracks.acquired (h : Tracks active live) (hqueued : active.terminalEventQueued = false)
    (hpending : active.pendingEvent = none) {request : Request} {live' : LiveRequest}
    {chunk : OwnedAudioChunk}
    (hholds : Holds
      { active with request, knownAvailableAudio := active.knownAvailableAudio - 1 } live')
    (hsame : SameStream active live active live')
    (hacquired : live'.acquired = live.acquired ++ [chunk]) (hattached : live.attached = true) :
    Tracks { active with
      request
      knownAvailableAudio := active.knownAvailableAudio - 1
      pendingEvent := some (.audio chunk) } live' := by
  refine ⟨{ hholds with }, ?_, fun hdetached => ?_, fun _ => ?_, fun habsurd => ?_⟩
  · rw [hsame.attached, hsame.stream]
    exact h.delivers.events
  · exact absurd (hdetached.symm.trans (hsame.attached.trans hattached)) (by decide)
  · have hdelivery := h.delivers.delivery hattached
    rw [hpending, hqueued] at hdelivery
    change Delivery live' (some (.audio chunk)) active.terminalEventQueued
    rw [hqueued]
    cases hdelivery with
    | idle hsent =>
      refine .blocked chunk ?_
      rw [hsame.sent, hsent, LiveRequest.audioEvents, LiveRequest.audioEvents, hacquired,
        List.map_append]
      rfl
  · exact absurd (hqueued.symm.trans habsurd) (by decide)

/-- `advance_request` from the acquisition of audio on. -/
theorem keeps_acquireStage (h : Tracks active live) (hpending : active.pendingEvent = none) :
    (acquireStage active).Keeps workerDiscipline (Advanced ledger) (ledger.withLive live) := by
  rw [acquireStage]
  split
  · rename_i hasks
    obtain ⟨hqueued, hknown⟩ := hasks
    rw [Program.keeps_bind]
    refine (keeps_acquireOwnedAudio h hqueued hpending hknown).mono ?_
    rintro ⟨request, error | _ | chunk⟩ ledger'
    · exact fun hfails => hfails
    · rintro ⟨live', rfl, htracks⟩
      exact keeps_observeStage htracks hpending
    · rintro ⟨live', rfl, hholds, hsame, hacquired⟩
      change Program.Keeps _ _ (if active.events.isSome = true then _ else _) _
      by_cases hattached : live.attached = true
      · have hevents : active.events.isSome = true := by
          rw [h.delivers.events, if_pos hattached]
          rfl
        rw [if_pos hevents]
        change Program.Keeps _ _ (flushPendingEvent _ >>= _) _
        rw [Program.keeps_bind]
        have hblocked := h.acquired hqueued hpending hholds hsame hacquired hattached
        refine (keeps_flushPendingEvent hblocked).mono ?_
        rintro flushed ledger' ⟨⟨live'', rfl, htracks⟩, -⟩
        split
        · exact ⟨live'', rfl, htracks⟩
        · exact ⟨live'', rfl, htracks⟩
      · have hdetached : live'.attached = false := by
          rw [hsame.attached]
          simpa using hattached
        have hevents : ¬ active.events.isSome = true := by
          rw [h.delivers.events, if_neg hattached]
          decide
        rw [if_neg hevents]
        refine ⟨live', rfl, hholds, ?_, fun _ => hpending, fun habsurd => ?_, fun habsurd => ?_⟩
        · rw [hsame.attached, hsame.stream]
          exact h.delivers.events
        · exact absurd (hdetached.symm.trans habsurd) (by decide)
        · exact absurd (hqueued.symm.trans habsurd) (by decide)
  · exact keeps_observeStage h hpending

/-- `advance_request`, while no cancel is in the worker's hand. -/
theorem keeps_advanceRequest (h : Tracks active live) (hcancel : ledger.cancel = none) :
    (advanceRequest active).Keeps workerDiscipline (Advanced ledger) (ledger.withLive live) := by
  rw [advanceRequest, Program.keeps_bind]
  refine (keeps_flushPendingEvent h).mono ?_
  rintro flushed ledger' ⟨⟨live', rfl, htracks⟩, -⟩
  by_cases hblocked : flushed.pendingEvent.isSome = true
  · rw [if_pos hblocked]
    exact ⟨live', rfl, htracks⟩
  rw [if_neg hblocked]
  have hpending : flushed.pendingEvent = none := by simpa using hblocked
  by_cases habandoned : flushed.events.isNone = true ∧ flushed.terminalSnapshot.isNone = true
  · rw [if_pos habandoned, Program.keeps_bind]
    have hdetached := detached_of_events htracks.delivers.events (by simpa using habandoned.1)
    refine (keeps_cancelActiveRequest htracks (.inl ⟨hcancel, hdetached⟩)).mono ?_
    rintro ⟨cancelled, error | _⟩ ledger' ⟨live'', rfl, -, hattached, -, hresult⟩
    · exact ⟨live'', rfl, hresult.2 (.inl (by rw [hcancel]; rfl))⟩
    · exact keeps_acquireStage hresult (hresult.delivers.detached (hattached.trans hdetached))
  · rw [if_neg habandoned]
    exact keeps_acquireStage htracks hpending

end NativeRequest

end MagpieTts.Rust
