import Mathlib.Data.List.Induction
import MagpieTts.Rust.WorkerChannels

/-!
# The streams of the inference worker

A trace that keeps the discipline, read stream by stream: the events of a stream are those that the
ledger has booked for the request of the stream while it lived.

## Main definitions

* `Orderly`: a trace that keeps the discipline, and whose start commands have streams of their own.
* `SameRequest`: the live request before and behind an operation that sends no event.
* `Attributed`: the events of the trace agree with the books.
* `SynthesisEvent.IsTerminal`, `EndsOnce`: a stream ends with its terminal event.
* `StreamShape`: the events that a stream may carry.

## Main results

* `Orderly.induction`: what every operation preserves holds behind every trace.
* `Orderly.attributed`: the attribution.
* `exists_last_send`: the last event of a stream, with the books at that time.
* `streamShape_run`: the events of every stream in every interleaving.
* `not_endsOnce_destroy_failure`: a stream whose terminal event is not its last one.
-/

namespace MagpieTts.Rust

open MagpieTts.Library MagpieTts.Api

/-! ### Orderly traces -/

/-- The books of a trace. -/
def ledgerOf (trace : WorkerTrace) : WorkerLedger := run WorkerLedger.step .initial trace

theorem ledgerOf_concat (trace : WorkerTrace)
    (entry : Performed WorkerOperation WorkerOperation.Reply) :
    ledgerOf (trace ++ [entry]) = (ledgerOf trace).step entry :=
  run_concat _ _ _

/-- The trace keeps the discipline, and its start commands have streams of their own. -/
structure Orderly (trace : WorkerTrace) : Prop where
  allowed : StepsMeet WorkerLedger.step (fun ledger entry => ledger.Allows entry.1) .initial trace
  nodup : (receivedStreams trace).Nodup

/-- **The trace of every interleaving is orderly.** -/
theorem orderly_run (actions : List WorkerAction) :
    Orderly (run WorkerSystem.step .initial actions).trace :=
  ⟨(WorkerSystem.disciplined_run actions).trace_allowed,
    (WorkerSystem.channelsHold_run actions).nodup.of_append_left⟩

theorem Orderly.of_append {trace trace' : WorkerTrace} (h : Orderly (trace ++ trace')) :
    Orderly trace := by
  refine ⟨((stepsMeet_append _ _).mp h.allowed).1, ?_⟩
  have hnodup := h.nodup
  rw [receivedStreams_append] at hnodup
  exact hnodup.of_append_left

theorem Orderly.allows {trace : WorkerTrace}
    {entry : Performed WorkerOperation WorkerOperation.Reply} {rest : WorkerTrace}
    (h : Orderly (trace ++ entry :: rest)) : (ledgerOf trace).Allows entry.1 :=
  ((stepsMeet_append _ _).mp h.allowed).2.1

/-- What every operation of an orderly trace preserves holds behind it. -/
theorem Orderly.induction {P : WorkerTrace → WorkerLedger → Prop} (hnil : P [] .initial)
    (hconcat : ∀ trace entry, Orderly (trace ++ [entry]) → P trace (ledgerOf trace) →
      P (trace ++ [entry]) ((ledgerOf trace).step entry))
    {trace : WorkerTrace} (h : Orderly trace) : P trace (ledgerOf trace) := by
  induction trace using List.reverseRecOn with
  | nil => exact hnil
  | append_singleton trace entry ih =>
    rw [ledgerOf_concat]
    exact hconcat trace entry h (ih h.of_append)

/-! ### The live request behind an operation -/

/-- A call on the native library. -/
def WorkerOperation.isNativeCall : WorkerOperation → Bool
  | requestStart _ _ | requestCancel _ | requestPoll _ | requestWait _ _ | audioAcquire _
  | copySamples _ _ | audioRelease _ _ | requestDestroy _ => true
  | _ => false

/-- What an operation makes of a live request that stays alive. -/
inductive LiveStep (ledger : WorkerLedger) (live : LiveRequest) :
    Performed WorkerOperation WorkerOperation.Reply → LiveRequest → Prop
  | same {entry : Performed WorkerOperation WorkerOperation.Reply}
      (hsent : ∀ stream event, entry ≠ ⟨.trySend stream event, .sent⟩)
      (hcall : entry.1.isNativeCall = false) : LiveStep ledger live entry live
  | command (requestId reply : ℕ) :
      LiveStep ledger live ⟨.tryReceiveControl, .received (.cancel requestId reply)⟩
        { live with cancelError := none }
  | sent (event : SynthesisEvent) :
      LiveStep ledger live ⟨.trySend live.stream event, .sent⟩
        { live with sent := live.sent ++ [event] }
  | refused (event : SynthesisEvent) :
      LiveStep ledger live ⟨.trySend live.stream event, .disconnected⟩ { live with refused := true }
  | detached : LiveStep ledger live ⟨.dropSender live.stream, ()⟩ { live with attached := false }
  | cancels (handle : ℕ) (reply : Except Error Unit) :
      LiveStep ledger live ⟨.requestCancel handle, reply⟩ (live.cancels reply)
  | polled (handle : ℕ) (reply : Except Error PublicSnapshot) :
      LiveStep ledger live ⟨.requestPoll handle, reply⟩ (live.polled ledger.cancel.isSome reply)
  | waited (handle afterRevision : ℕ) (reply : Except Error (Option PublicSnapshot)) :
      LiveStep ledger live ⟨.requestWait handle afterRevision, reply⟩
        (live.waited afterRevision reply)
  | acquires (handle : ℕ) (reply : Except Error (Option AudioLeaseV1)) :
      LiveStep ledger live ⟨.audioAcquire handle, reply⟩ (live.acquires reply)
  | copies (handle : ℕ) (raw : AudioLeaseV1) (samples : List UInt32) :
      LiveStep ledger live ⟨.copySamples handle raw, samples⟩ (live.copies raw samples)
  | releases (handle leaseId : ℕ) (reply : Except Error Unit) :
      LiveStep ledger live ⟨.audioRelease handle leaseId, reply⟩ (live.releases reply)
  | destroyFails (handle : ℕ) (error : Error) :
      LiveStep ledger live ⟨.requestDestroy handle, .error error⟩
        { live with failing := true, stopped := true, destroyError := some error }

variable {ledger : WorkerLedger}

@[simp] theorem live_reports (ledger : WorkerLedger) (event : SynthesisEvent) :
    (ledger.reports event).live = ledger.live := by
  cases event <;> rfl

@[simp] theorem start_reports (ledger : WorkerLedger) (event : SynthesisEvent) :
    (ledger.reports event).start = ledger.start := by
  cases event <;> rfl

/-- What an operation does to the request that lives. -/
inductive LiveTransition (ledger : WorkerLedger) :
    Performed WorkerOperation WorkerOperation.Reply → Option LiveRequest → Option LiveRequest → Prop
  | idle {entry : Performed WorkerOperation WorkerOperation.Reply}
      (hsent : ∀ stream event, entry ≠ ⟨.trySend stream event, .sent⟩)
      (hcall : entry.1.isNativeCall = false) : LiveTransition ledger entry none none
  | startFails (textTokenIds : List ℤ) (randomSeed : ℕ) {reply : Except Error ℕ}
      (hreply : ∀ handle, reply ≠ .ok (handle + 1)) :
      LiveTransition ledger ⟨.requestStart textTokenIds randomSeed, reply⟩ none none
  | starts (textTokenIds : List ℤ) (randomSeed handle : ℕ) {command : StartCommand}
      (hstart : ledger.start = some command) :
      LiveTransition ledger ⟨.requestStart textTokenIds randomSeed, .ok (handle + 1)⟩ none
        (some (.started (ledger.issued + 1) (handle + 1) command))
  | lives {entry : Performed WorkerOperation WorkerOperation.Reply} {live live' : LiveRequest}
      (hstep : LiveStep ledger live entry live') :
      LiveTransition ledger entry (some live) (some live')
  | destroyed (live : LiveRequest) :
      LiveTransition ledger ⟨.requestDestroy live.handle, .ok ()⟩ (some live) none

section Transition

variable {entry : Performed WorkerOperation WorkerOperation.Reply}

/-- A change of the live request, if there is one. -/
theorem liveTransition_onLive {f : LiveRequest → LiveRequest}
    (hf : ∀ live, ledger.live = some live → LiveStep ledger live entry (f live))
    (hidle : ledger.live = none → (∀ stream event, entry ≠ ⟨.trySend stream event, .sent⟩) ∧
      entry.1.isNativeCall = false) :
    LiveTransition ledger entry ledger.live (ledger.onLive f).live := by
  rw [WorkerLedger.onLive]
  rcases hlive : ledger.live with _ | live
  · exact .idle (hidle hlive).1 (hidle hlive).2
  · exact .lives (hf live hlive)

/-- An operation that leaves the live request as it is. -/
theorem liveTransition_same (hsent : ∀ stream event, entry ≠ ⟨.trySend stream event, .sent⟩)
    (hcall : entry.1.isNativeCall = false) :
    LiveTransition ledger entry ledger.live ledger.live := by
  rcases hlive : ledger.live with _ | live
  · exact .idle hsent hcall
  · exact .lives (.same hsent hcall)

/-- A request lives, so that the operation is not idle. -/
theorem liveTransition_of_live {live : LiveRequest} (hlive : ledger.live = some live)
    {f : LiveRequest → LiveRequest} (hf : LiveStep ledger live entry (f live)) :
    LiveTransition ledger entry ledger.live (ledger.onLive f).live := by
  rw [WorkerLedger.onLive, hlive]
  exact .lives hf

/-- **What an allowed operation does to the request that lives.** -/
theorem liveTransition (hallows : ledger.Allows entry.1) :
    LiveTransition ledger entry ledger.live (ledger.step entry).live := by
  obtain ⟨operation, reply⟩ := entry
  cases operation with
  | tryReceiveControl =>
    rcases reply with (⟨requestId, reply⟩ | reply) | _ | _
    · exact liveTransition_onLive (fun _ _ => .command requestId reply) fun _ => ⟨nofun, rfl⟩
    · exact liveTransition_same nofun rfl
    · exact liveTransition_same nofun rfl
    · exact liveTransition_same nofun rfl
  | tryReceiveStart => rcases reply with command | _ | _ <;> exact liveTransition_same nofun rfl
  | replyStart stream result => cases result <;> exact liveTransition_same nofun rfl
  | trySend stream event =>
    obtain ⟨live, hlive, rfl, -⟩ := hallows
    cases reply with
    | sent =>
      change LiveTransition _ _ _ ((ledger.sends live.stream event).reports event).live
      rw [live_reports]
      refine liveTransition_of_live hlive ?_
      rw [if_pos rfl]
      exact .sent event
    | full =>
      change LiveTransition _ _ _ (ledger.reports event).live
      rw [live_reports]
      exact liveTransition_same nofun rfl
    | disconnected =>
      change LiveTransition _ _ _ ((ledger.refuses live.stream).reports event).live
      rw [live_reports]
      refine liveTransition_of_live hlive ?_
      rw [if_pos rfl]
      exact .refused event
  | dropSender stream =>
    refine liveTransition_onLive (fun live _ => ?_) fun _ => ⟨nofun, rfl⟩
    split
    · rename_i hstream
      subst hstream
      exact .detached
    · exact .same nofun rfl
  | requestStart textTokenIds randomSeed =>
    obtain ⟨hnone, stream, hstart⟩ := hallows
    rcases reply with error | _ | handle
    · change LiveTransition _ _ _ ledger.live
      rw [hnone]
      exact .startFails textTokenIds randomSeed nofun
    · change LiveTransition _ _ _ ledger.live
      rw [hnone]
      exact .startFails textTokenIds randomSeed nofun
    · change LiveTransition _ _ _ (ledger.start.map (.started (ledger.issued + 1) (handle + 1)))
      rw [hnone, hstart]
      exact .starts textTokenIds randomSeed handle hstart
  | requestCancel handle =>
    obtain ⟨live, hlive, -⟩ := hallows
    exact liveTransition_of_live hlive (.cancels handle reply)
  | requestPoll handle =>
    obtain ⟨live, hlive, -⟩ := hallows
    exact liveTransition_of_live hlive (.polled handle reply)
  | requestWait handle afterRevision =>
    obtain ⟨live, hlive, -⟩ := hallows
    exact liveTransition_of_live hlive (.waited handle afterRevision reply)
  | audioAcquire handle =>
    obtain ⟨live, hlive, -⟩ := hallows
    exact liveTransition_of_live hlive (.acquires handle reply)
  | copySamples handle raw =>
    obtain ⟨live, hlive, -⟩ := hallows
    exact liveTransition_of_live hlive (.copies handle raw reply)
  | audioRelease handle leaseId =>
    obtain ⟨live, hlive, -⟩ := hallows
    exact liveTransition_of_live hlive (.releases handle leaseId reply)
  | requestDestroy handle =>
    obtain ⟨live, hlive, ⟨rfl, -⟩, -⟩ := hallows
    cases reply with
    | ok _ =>
      change LiveTransition _ _ _ none
      rw [hlive]
      exact .destroyed live
    | error error => exact liveTransition_of_live hlive (.destroyFails live.handle error)
  | abort resource error => cases reply
  | receiveWake | sleep | replyCancel | dropReceivers => exact liveTransition_same nofun rfl

/-- The request that lives behind an operation either lived before it or has been started by it. -/
theorem live_step_cases (hallows : ledger.Allows entry.1) {live' : LiveRequest}
    (h : (ledger.step entry).live = some live') :
    (∃ live, ledger.live = some live ∧ LiveStep ledger live entry live') ∨
      ∃ textTokenIds randomSeed handle command, ledger.live = none ∧
        entry = ⟨.requestStart textTokenIds randomSeed, .ok (handle + 1)⟩ ∧
        ledger.start = some command ∧
        live' = .started (ledger.issued + 1) (handle + 1) command := by
  have htransition := liveTransition hallows
  rw [h] at htransition
  generalize hlive : ledger.live = live at htransition
  cases htransition with
  | starts textTokenIds randomSeed handle hstart =>
    exact .inr ⟨textTokenIds, randomSeed, handle, _, rfl, rfl, hstart, rfl⟩
  | lives hstep => exact .inl ⟨_, rfl, hstep⟩

end Transition

/-- What holds of a started request and is preserved by every operation on it holds of the live
request of every orderly trace. -/
theorem Orderly.live_induction {P : WorkerTrace → LiveRequest → Prop}
    (hstarted : ∀ trace textTokenIds randomSeed handle command,
      Orderly (trace ++ [⟨.requestStart textTokenIds randomSeed, .ok (handle + 1)⟩]) →
      (ledgerOf trace).start = some command →
      P (trace ++ [⟨.requestStart textTokenIds randomSeed, .ok (handle + 1)⟩])
        (.started ((ledgerOf trace).issued + 1) (handle + 1) command))
    (hstep : ∀ trace entry live live', Orderly (trace ++ [entry]) →
      (ledgerOf trace).live = some live → LiveStep (ledgerOf trace) live entry live' →
      P trace live → P (trace ++ [entry]) live')
    {trace : WorkerTrace} (h : Orderly trace) :
    ∀ live, (ledgerOf trace).live = some live → P trace live := by
  refine Orderly.induction (P := fun trace ledger => ∀ live, ledger.live = some live → P trace live)
    (fun live hlive => nomatch hlive) (fun trace entry horderly ih live' hlive' => ?_) h
  rcases live_step_cases horderly.allows hlive' with
    ⟨live, hlive, hlivestep⟩ | ⟨textTokenIds, randomSeed, handle, command, -, rfl, hstart, rfl⟩
  · exact hstep trace entry live live' horderly hlive hlivestep (ih live hlive)
  · exact hstarted trace textTokenIds randomSeed handle command horderly hstart

/-- A poll changes what is known from the snapshots. -/
theorem LiveRequest.exists_polled (live : LiveRequest) (commanded : Bool)
    (reply : Except Error PublicSnapshot) :
    ∃ snapshots terminal advertised failing,
      live.polled commanded reply = { live with snapshots, terminal, advertised, failing } ∧
        (live.failing = true → failing = true) := by
  rw [polled.eq_def]
  split
  · exact ⟨_, _, _, _, rfl, fun h => by rw [h, Bool.true_or]⟩
  · split
    · exact ⟨_, _, _, _, rfl, fun h => by rw [h, Bool.true_or]⟩
    · exact ⟨_, _, _, _, rfl, fun h => by rw [h, Bool.true_or]⟩

/-- A wait changes what is known from the snapshots. -/
theorem LiveRequest.exists_waited (live : LiveRequest) (afterRevision : ℕ)
    (reply : Except Error (Option PublicSnapshot)) :
    ∃ snapshots terminal advertised failing,
      live.waited afterRevision reply = { live with snapshots, terminal, advertised, failing } ∧
        (live.failing = true → failing = true) := by
  rw [waited.eq_def]
  split
  · exact ⟨_, _, _, _, rfl, fun _ => rfl⟩
  · exact ⟨_, _, _, _, rfl, id⟩
  · split
    · exact ⟨_, _, _, _, rfl, fun _ => rfl⟩
    · exact ⟨_, _, _, _, rfl, id⟩

/-- An operation keeps the identity of the live request. -/
structure SameRequest (live live' : LiveRequest) : Prop where
  identifier : live'.identifier = live.identifier
  stream : live'.stream = live.stream
  handle : live'.handle = live.handle

theorem LiveStep.sameRequest {live live' : LiveRequest}
    {entry : Performed WorkerOperation WorkerOperation.Reply}
    (h : LiveStep ledger live entry live') : SameRequest live live' := by
  cases h with
  | cancels handle reply => cases reply <;> exact ⟨rfl, rfl, rfl⟩
  | polled handle reply =>
    obtain ⟨snapshots, terminal, advertised, failing, heq, -⟩ := live.exists_polled _ reply
    rw [heq]
    exact ⟨rfl, rfl, rfl⟩
  | waited handle afterRevision reply =>
    obtain ⟨snapshots, terminal, advertised, failing, heq, -⟩ :=
      live.exists_waited afterRevision reply
    rw [heq]
    exact ⟨rfl, rfl, rfl⟩
  | acquires handle reply => rcases reply with error | _ | raw <;> exact ⟨rfl, rfl, rfl⟩
  | releases handle leaseId reply => cases reply <;> exact ⟨rfl, rfl, rfl⟩
  | _ => exact ⟨rfl, rfl, rfl⟩

/-- A sender that was dropped does not come back. -/
theorem LiveStep.attached {live live' : LiveRequest}
    {entry : Performed WorkerOperation WorkerOperation.Reply}
    (h : LiveStep ledger live entry live') (hattached : live'.attached = true) :
    live.attached = true := by
  cases h with
  | detached => cases hattached
  | cancels handle reply => cases reply <;> exact hattached
  | polled handle reply =>
    obtain ⟨snapshots, terminal, advertised, failing, heq, -⟩ := live.exists_polled _ reply
    rw [heq] at hattached
    exact hattached
  | waited handle afterRevision reply =>
    obtain ⟨snapshots, terminal, advertised, failing, heq, -⟩ :=
      live.exists_waited afterRevision reply
    rw [heq] at hattached
    exact hattached
  | acquires handle reply => rcases reply with error | _ | raw <;> exact hattached
  | releases handle leaseId reply => cases reply <;> exact hattached
  | _ => exact hattached

/-- Only a successful send changes the events. -/
theorem LiveStep.sent_eq {live live' : LiveRequest}
    {entry : Performed WorkerOperation WorkerOperation.Reply}
    (h : LiveStep ledger live entry live')
    (hsent : ∀ stream event, entry ≠ ⟨.trySend stream event, .sent⟩) : live'.sent = live.sent := by
  cases h with
  | sent event => exact absurd rfl (hsent live.stream event)
  | cancels handle reply => cases reply <;> rfl
  | polled handle reply =>
    obtain ⟨snapshots, terminal, advertised, failing, heq, -⟩ := live.exists_polled _ reply
    rw [heq]
  | waited handle afterRevision reply =>
    obtain ⟨snapshots, terminal, advertised, failing, heq, -⟩ :=
      live.exists_waited afterRevision reply
    rw [heq]
  | acquires handle reply => rcases reply with error | _ | raw <;> rfl
  | releases handle leaseId reply => cases reply <;> rfl
  | _ => rfl

/-- The start command in the worker's hand is the one that was received last. -/
theorem start_of_step {entry : Performed WorkerOperation WorkerOperation.Reply}
    (hreceived : receivedStream? entry = none) {command : StartCommand}
    (h : (ledger.step entry).start = some command) : ledger.start = some command := by
  obtain ⟨operation, reply⟩ := entry
  cases operation with
  | tryReceiveControl => rcases reply with (⟨requestId, reply⟩ | reply) | _ | _ <;> exact h
  | tryReceiveStart =>
    rcases reply with command | _ | _
    · cases hreceived
    · exact h
    · exact h
  | replyStart stream result =>
    cases result with
    | ok identifier => exact h
    | error error => cases h
  | trySend stream event =>
    cases reply <;> cases event <;> exact h
  | requestStart textTokenIds randomSeed =>
    rcases reply with error | _ | handle
    · exact h
    · exact h
    · cases h
  | requestDestroy handle => cases reply <;> exact h
  | abort resource error => cases reply
  | _ => exact h

/-! ### The events of a stream -/

/-- The events of the trace agree with the books: the live request has sent what its stream carries,
and a stream that has not been received, or whose command is still in the worker's hand, is
empty. -/
structure Attributed (trace : WorkerTrace) (ledger : WorkerLedger) : Prop where
  live : ∀ live, ledger.live = some live →
    live.stream ∈ receivedStreams trace ∧ sentEvents trace live.stream = live.sent
  start : ∀ command, ledger.start = some command →
    command.stream ∈ receivedStreams trace ∧ sentEvents trace command.stream = [] ∧
      ∀ live, ledger.live = some live → live.stream ≠ command.stream
  unreceived : ∀ stream, stream ∉ receivedStreams trace → sentEvents trace stream = []

namespace Attributed

variable {trace : WorkerTrace} {entry : Performed WorkerOperation WorkerOperation.Reply}

theorem initial : Attributed [] .initial where
  live live hlive := absurd hlive (Option.some_ne_none live).symm
  start command hcommand := absurd hcommand (Option.some_ne_none command).symm
  unreceived _ _ := rfl

theorem sentEvents_concat_none {stream : ℕ} (h : sentEvent? stream entry = none) :
    sentEvents (trace ++ [entry]) stream = sentEvents trace stream := by
  rw [sentEvents_append]
  change _ ++ List.filterMap _ [entry] = _
  rw [List.filterMap_cons_none h]
  exact List.append_nil _

theorem receivedStreams_concat_none (h : receivedStream? entry = none) :
    receivedStreams (trace ++ [entry]) = receivedStreams trace := by
  rw [receivedStreams_append]
  change _ ++ List.filterMap _ [entry] = _
  rw [List.filterMap_cons_none h]
  exact List.append_nil _

theorem sentEvent?_eq_none (hsent : ∀ stream event, entry ≠ ⟨.trySend stream event, .sent⟩)
    (stream : ℕ) : sentEvent? stream entry = none := by
  obtain ⟨operation, reply⟩ := entry
  cases operation with
  | trySend channel event =>
    cases reply with
    | sent => exact absurd rfl (hsent channel event)
    | full => rfl
    | disconnected => rfl
  | _ => rfl

theorem eq_trySend_of_sentEvent? {stream : ℕ} {event : SynthesisEvent}
    (h : sentEvent? stream entry = some event) : entry = ⟨.trySend stream event, .sent⟩ := by
  by_cases hsend : ∃ channel event', entry = ⟨.trySend channel event', .sent⟩
  · obtain ⟨channel, event', rfl⟩ := hsend
    rw [sentEvent?] at h
    split at h
    · rename_i hchannel
      cases h
      rw [hchannel]
    · cases h
  · rw [sentEvent?_eq_none fun channel event' heq => hsend ⟨channel, event', heq⟩] at h
    cases h

theorem receivedStream?_eq_none
    (hreceived : ∀ command, entry ≠ ⟨.tryReceiveStart, .received command⟩) :
    receivedStream? entry = none := by
  obtain ⟨operation, reply⟩ := entry
  cases operation with
  | tryReceiveStart =>
    cases reply with
    | received command => exact absurd rfl (hreceived command)
    | empty => rfl
    | disconnected => rfl
  | _ => rfl

/-- An operation that neither sends an event, nor receives a start, nor starts a request. -/
theorem quiet (h : Attributed trace ledger) (hallows : ledger.Allows entry.1)
    (hsent : ∀ stream event, entry ≠ ⟨.trySend stream event, .sent⟩)
    (hreceived : receivedStream? entry = none)
    (hstart : ∀ textTokenIds randomSeed handle,
      entry ≠ ⟨.requestStart textTokenIds randomSeed, .ok (handle + 1)⟩) :
    Attributed (trace ++ [entry]) (ledger.step entry) := by
  have hnone : ∀ stream, sentEvent? stream entry = none := sentEvent?_eq_none hsent
  have hbefore : ∀ live', (ledger.step entry).live = some live' →
      ∃ live, ledger.live = some live ∧ LiveStep ledger live entry live' := by
    intro live' hlive'
    rcases live_step_cases hallows hlive' with
      hlive | ⟨textTokenIds, randomSeed, handle, -, -, rfl, -, -⟩
    · exact hlive
    · exact absurd rfl (hstart textTokenIds randomSeed handle)
  refine ⟨fun live' hlive' => ?_, fun command hcommand => ?_, fun stream hstream => ?_⟩
  · obtain ⟨live, hlive, hstep⟩ := hbefore live' hlive'
    rw [receivedStreams_concat_none hreceived, sentEvents_concat_none (hnone _),
      hstep.sameRequest.stream, hstep.sent_eq hsent]
    exact h.live live hlive
  · obtain ⟨hmem, hempty, hother⟩ := h.start command (start_of_step hreceived hcommand)
    rw [receivedStreams_concat_none hreceived, sentEvents_concat_none (hnone _)]
    refine ⟨hmem, hempty, fun live' hlive' => ?_⟩
    obtain ⟨live, hlive, hstep⟩ := hbefore live' hlive'
    rw [hstep.sameRequest.stream]
    exact hother live hlive
  · rw [receivedStreams_concat_none hreceived] at hstream
    rw [sentEvents_concat_none (hnone _)]
    exact h.unreceived stream hstream

/-- The receipt of a start command. -/
theorem receive (h : Attributed trace ledger) {command : StartCommand}
    (hnodup : (receivedStreams (trace ++ [⟨.tryReceiveStart, .received command⟩])).Nodup) :
    Attributed (trace ++ [⟨.tryReceiveStart, .received command⟩])
      (ledger.step ⟨.tryReceiveStart, .received command⟩) := by
  have hreceived : receivedStreams (trace ++ [⟨.tryReceiveStart, .received command⟩]) =
      receivedStreams trace ++ [command.stream] := receivedStreams_append _ _
  rw [hreceived] at hnodup
  have hfresh : command.stream ∉ receivedStreams trace := fun hmem =>
    List.disjoint_of_nodup_append hnodup hmem (List.mem_singleton_self _)
  have hnone : ∀ stream, sentEvents (trace ++ [⟨.tryReceiveStart, .received command⟩]) stream =
      sentEvents trace stream := fun stream => sentEvents_concat_none rfl
  refine ⟨fun live hlive => ?_, fun command' hcommand => ?_, fun stream hstream => ?_⟩
  · rw [hreceived, hnone]
    exact ⟨List.mem_append_left _ (h.live live hlive).1, (h.live live hlive).2⟩
  · cases hcommand
    rw [hreceived, hnone]
    refine ⟨List.mem_append_right _ (List.mem_singleton_self _), h.unreceived _ hfresh,
      fun live hlive hsame => hfresh ?_⟩
    rw [← hsame]
    exact (h.live live hlive).1
  · rw [hreceived] at hstream
    rw [hnone]
    exact h.unreceived stream fun hmem => hstream (List.mem_append_left _ hmem)

/-- The start of a request. -/
theorem started (h : Attributed trace ledger) (textTokenIds : List ℤ) (randomSeed handle : ℕ) :
    Attributed (trace ++ [⟨.requestStart textTokenIds randomSeed, .ok (handle + 1)⟩])
      (ledger.step ⟨.requestStart textTokenIds randomSeed, .ok (handle + 1)⟩) := by
  refine ⟨fun live hlive => ?_, fun command hcommand => (nomatch hcommand),
    fun stream hstream => ?_⟩
  · obtain ⟨command, hcommand, rfl⟩ := Option.map_eq_some_iff.mp hlive
    obtain ⟨hmem, hempty, -⟩ := h.start command hcommand
    rw [receivedStreams_concat_none rfl, sentEvents_concat_none rfl]
    exact ⟨hmem, hempty⟩
  · rw [receivedStreams_concat_none rfl] at hstream
    rw [sentEvents_concat_none rfl]
    exact h.unreceived stream hstream

/-- An event is sent on the stream of the live request. -/
theorem sent (h : Attributed trace ledger) {live : LiveRequest} (hlive : ledger.live = some live)
    (event : SynthesisEvent) :
    Attributed (trace ++ [⟨.trySend live.stream event, .sent⟩])
      (ledger.step ⟨.trySend live.stream event, .sent⟩) := by
  have hstep : (ledger.step ⟨.trySend live.stream event, .sent⟩).live =
      some { live with sent := live.sent ++ [event] } := by
    change ((ledger.sends live.stream event).reports event).live = _
    have hreports : ∀ ledger' : WorkerLedger, (ledger'.reports event).live = ledger'.live := by
      intro ledger'
      cases event <;> rfl
    rw [hreports]
    change ledger.live.map _ = _
    rw [hlive, Option.map_some, if_pos rfl]
  have hstart : (ledger.step ⟨.trySend live.stream event, .sent⟩).start = ledger.start := by
    cases event <;> rfl
  have hother : ∀ stream, stream ≠ live.stream →
      sentEvents (trace ++ [⟨.trySend live.stream event, .sent⟩]) stream =
        sentEvents trace stream := by
    intro stream hne
    rw [sentEvents_append, sentEvents_send_of_ne (Ne.symm hne), List.append_nil]
  refine ⟨fun live' hlive' => ?_, fun command hcommand => ?_, fun stream hstream => ?_⟩
  · rw [hstep] at hlive'
    cases hlive'
    obtain ⟨hmem, hsent⟩ := h.live live hlive
    refine ⟨by rwa [receivedStreams_concat_none rfl], ?_⟩
    rw [sentEvents_append, sentEvents_send_self, hsent]
  · rw [hstart] at hcommand
    obtain ⟨hmem, hempty, hne⟩ := h.start command hcommand
    refine ⟨by rwa [receivedStreams_concat_none rfl], ?_, fun live' hlive' => ?_⟩
    · rw [hother _ (Ne.symm (hne live hlive)), hempty]
    · rw [hstep] at hlive'
      cases hlive'
      exact hne live hlive
  · rw [receivedStreams_concat_none rfl] at hstream
    have hne : stream ≠ live.stream := by
      rintro rfl
      exact hstream (h.live live hlive).1
    rw [hother _ hne]
    exact h.unreceived stream hstream

end Attributed

/-- **The events of an orderly trace agree with the books.** -/
theorem Orderly.attributed {trace : WorkerTrace} (h : Orderly trace) :
    Attributed trace (ledgerOf trace) := by
  refine Orderly.induction (P := Attributed) Attributed.initial
    (fun trace entry horderly ih => ?_) h
  by_cases hsend : ∃ stream event, entry = ⟨.trySend stream event, .sent⟩
  · obtain ⟨stream, event, rfl⟩ := hsend
    obtain ⟨live, hlive, rfl, -⟩ := horderly.allows
    exact ih.sent hlive event
  by_cases hreceive : ∃ command, entry = ⟨.tryReceiveStart, .received command⟩
  · obtain ⟨command, rfl⟩ := hreceive
    exact ih.receive horderly.nodup
  by_cases hstart : ∃ textTokenIds randomSeed handle,
      entry = ⟨.requestStart textTokenIds randomSeed, .ok (handle + 1)⟩
  · obtain ⟨textTokenIds, randomSeed, handle, rfl⟩ := hstart
    exact ih.started textTokenIds randomSeed handle
  · exact ih.quiet horderly.allows (fun stream event heq => hsend ⟨stream, event, heq⟩)
      (Attributed.receivedStream?_eq_none fun command heq => hreceive ⟨command, heq⟩)
      fun textTokenIds randomSeed handle heq => hstart ⟨textTokenIds, randomSeed, handle, heq⟩

/-! ### The end of a stream -/

/-- A send of a terminal snapshot's event is that of a healthy request. -/
theorem LiveRequest.Sends.healthy {live : LiveRequest} {event : SynthesisEvent}
    (h : live.Sends event) (hends : event.EndsRequest) :
    live.sent = live.audioEvents ∧ live.Drained ∧ live.failing = false ∧
      ∃ snapshot, live.terminal = some snapshot ∧ terminalEvent snapshot = .ok event := by
  cases event with
  | audio chunk => exact hends.elim
  | runtimeError error => exact hends.elim
  | completed => exact h
  | cancelled => exact h
  | failed error => exact h

/-- A request that fails goes on failing. -/
theorem LiveStep.failing {live live' : LiveRequest}
    {entry : Performed WorkerOperation WorkerOperation.Reply}
    (h : LiveStep ledger live entry live') (hfailing : live.failing = true) :
    live'.failing = true := by
  cases h with
  | cancels handle reply => cases reply <;> simp [LiveRequest.cancels, hfailing]
  | polled handle reply =>
    obtain ⟨snapshots, terminal, advertised, failing, heq, hkeeps⟩ := live.exists_polled _ reply
    rw [heq]
    exact hkeeps hfailing
  | waited handle afterRevision reply =>
    obtain ⟨snapshots, terminal, advertised, failing, heq, hkeeps⟩ :=
      live.exists_waited afterRevision reply
    rw [heq]
    exact hkeeps hfailing
  | acquires handle reply =>
    rcases reply with error | _ | raw
    · rfl
    · exact hfailing
    · exact hfailing
  | releases handle leaseId reply => cases reply <;> simp [LiveRequest.releases, hfailing]
  | destroyFails handle error => rfl
  | _ => exact hfailing

/-- Only a failed destruction changes its error. -/
theorem LiveStep.destroyError_eq {live live' : LiveRequest}
    {entry : Performed WorkerOperation WorkerOperation.Reply}
    (h : LiveStep ledger live entry live')
    (hdestroy : ∀ handle error, entry ≠ ⟨.requestDestroy handle, .error error⟩) :
    live'.destroyError = live.destroyError := by
  cases h with
  | destroyFails handle error => exact absurd rfl (hdestroy handle error)
  | cancels handle reply => cases reply <;> rfl
  | polled handle reply =>
    obtain ⟨snapshots, terminal, advertised, failing, heq, -⟩ := live.exists_polled _ reply
    rw [heq]
  | waited handle afterRevision reply =>
    obtain ⟨snapshots, terminal, advertised, failing, heq, -⟩ :=
      live.exists_waited afterRevision reply
    rw [heq]
  | acquires handle reply => rcases reply with error | _ | raw <;> rfl
  | releases handle leaseId reply => cases reply <;> rfl
  | _ => rfl

/-- The destruction of the request of the stream failed with the error, when the stream had carried
the events. -/
def DestroyFailed (trace : WorkerTrace) (stream : ℕ) (error : Error)
    (events : List SynthesisEvent) :
    Prop :=
  ∃ before after live, trace = before ++ ⟨.requestDestroy live.handle, .error error⟩ :: after ∧
    (ledgerOf before).live = some live ∧ live.stream = stream ∧ sentEvents before stream = events

theorem DestroyFailed.append {trace : WorkerTrace} {stream : ℕ} {error : Error}
    {events : List SynthesisEvent} (h : DestroyFailed trace stream error events)
    (trace' : WorkerTrace) : DestroyFailed (trace ++ trace') stream error events := by
  obtain ⟨before, after, live, rfl, hlive⟩ := h
  exact ⟨before, after ++ trace', live, List.append_assoc _ _ _, hlive⟩

/-- The error of a failed destruction: no terminal event has been sent since. -/
theorem Orderly.destroyFailed {trace : WorkerTrace} (h : Orderly trace) :
    ∀ live, (ledgerOf trace).live = some live → ∀ error, live.destroyError = some error →
      live.failing = true ∧ ∃ events more, DestroyFailed trace live.stream error events ∧
        live.sent = events ++ more ∧ ∀ event ∈ more, ¬ event.EndsRequest := by
  refine Orderly.live_induction (P := fun trace live => ∀ error, live.destroyError = some error →
    live.failing = true ∧ ∃ events more, DestroyFailed trace live.stream error events ∧
      live.sent = events ++ more ∧ ∀ event ∈ more, ¬ event.EndsRequest)
    (fun _ _ _ _ _ _ _ error herror => nomatch herror) ?_ h
  intro trace entry live live' horderly hlive hstep ih error herror
  by_cases hdestroy : ∃ handle error, entry = ⟨.requestDestroy handle, .error error⟩
  · obtain ⟨handle, error', rfl⟩ := hdestroy
    obtain ⟨live'', hlive'', hcallable, -⟩ := horderly.allows
    cases hlive.symm.trans hlive''
    obtain ⟨rfl, -, -⟩ := hcallable
    cases hstep with
    | same hsent hcall => cases hcall
    | destroyFails handle' error' =>
      cases herror
      refine ⟨rfl, live.sent, [], ⟨trace, [], live, rfl, hlive, rfl, ?_⟩, ?_, nofun⟩
      · exact (horderly.of_append.attributed.live live hlive).2
      · exact (List.append_nil _).symm
  · rw [hstep.destroyError_eq fun handle error heq => hdestroy ⟨handle, error, heq⟩] at herror
    obtain ⟨hfailing, events, more, hfailed, hsent, hmore⟩ := ih error herror
    refine ⟨hstep.failing hfailing, events, ?_⟩
    rw [hstep.sameRequest.stream]
    by_cases hsend : ∃ stream event, entry = ⟨.trySend stream event, .sent⟩
    · obtain ⟨stream, event, rfl⟩ := hsend
      obtain ⟨live'', hlive'', rfl, -, -, hsends⟩ := horderly.allows
      cases hlive.symm.trans hlive''
      cases hstep with
      | same hsent' _ => exact absurd rfl (hsent' live.stream event)
      | sent =>
        refine ⟨more ++ [event], hfailed.append _, ?_, fun event' hmem => ?_⟩
        · rw [hsent, List.append_assoc]
        · rcases List.mem_append.mp hmem with hmem | hmem
          · exact hmore event' hmem
          · rw [List.mem_singleton.mp hmem]
            intro hends
            exact absurd (hfailing.symm.trans (hsends.healthy hends).2.2.1) (by decide)
    · refine ⟨more, hfailed.append _, ?_, hmore⟩
      rw [hstep.sent_eq fun stream event heq => hsend ⟨stream, event, heq⟩, hsent]

/-- The last event of a stream, with the books at that time. -/
theorem Orderly.exists_last_send {trace : WorkerTrace} (h : Orderly trace) {stream : ℕ}
    {events : List SynthesisEvent} {event : SynthesisEvent}
    (hevents : sentEvents trace stream = events ++ [event]) :
    ∃ before after live, trace = before ++ ⟨.trySend stream event, .sent⟩ :: after ∧
      sentEvents after stream = [] ∧ (ledgerOf before).live = some live ∧ live.stream = stream ∧
      live.attached = true ∧ live.Sends event ∧ live.sent = events := by
  obtain ⟨before, rest, rfl, hbefore, hrest⟩ := List.filterMap_eq_append_iff.mp hevents
  obtain ⟨quiet, entry, after, rfl, hquiet, hentry, hafter⟩ := List.filterMap_eq_cons_iff.mp hrest
  have hentry' : entry = ⟨.trySend stream event, .sent⟩ :=
    Attributed.eq_trySend_of_sentEvent? hentry
  subst hentry'
  rw [← List.append_assoc] at h
  have hsame : sentEvents (before ++ quiet) stream = events := by
    rw [sentEvents_append, sentEvents, hbefore, sentEvents, List.filterMap_eq_nil_iff.mpr hquiet,
      List.append_nil]
  obtain ⟨live, hlive, rfl, hattached, -, hsends⟩ := h.allows
  refine ⟨before ++ quiet, after, live, (List.append_assoc _ _ _).symm, hafter, hlive, rfl,
    hattached, hsends, ?_⟩
  rw [← (h.of_append.attributed.live live hlive).2, hsame]

/-- The event reports the end of the request, or of the worker. -/
def SynthesisEvent.IsTerminal : SynthesisEvent → Prop
  | audio _ => False
  | _ => True

theorem SynthesisEvent.EndsRequest.isTerminal {event : SynthesisEvent} (h : event.EndsRequest) :
    event.IsTerminal := by
  cases event with
  | audio chunk => exact h.elim
  | _ => trivial

/-- No event follows a terminal one. -/
def EndsOnce (events : List SynthesisEvent) : Prop :=
  ∀ before event after, events = before ++ event :: after → event.IsTerminal → after = []

/-- The events that the stream carries: the audio, then at most one terminal event; and behind it a
runtime error, when the destruction of the request failed with that error. -/
inductive StreamShape (trace : WorkerTrace) (stream : ℕ) : Prop
  | streaming (chunks : List OwnedAudioChunk)
      (hevents : sentEvents trace stream = chunks.map .audio)
  | ended (chunks : List OwnedAudioChunk) (event : SynthesisEvent) (hevent : event.IsTerminal)
      (hevents : sentEvents trace stream = chunks.map .audio ++ [event])
  | destroyFailed (chunks : List OwnedAudioChunk) (event : SynthesisEvent) (error : Error)
      (hevent : event.EndsRequest)
      (hevents : sentEvents trace stream = chunks.map .audio ++ [event, .runtimeError error])
      (hfailed : DestroyFailed trace stream error (chunks.map .audio ++ [event]))

/-- **The events of every stream of an orderly trace.** -/
theorem Orderly.streamShape {trace : WorkerTrace} (h : Orderly trace) (stream : ℕ) :
    StreamShape trace stream := by
  rcases List.eq_nil_or_concat' (sentEvents trace stream) with hevents | ⟨events, event, hevents⟩
  · exact .streaming [] hevents
  obtain ⟨before, after, live, rfl, -, hlive, rfl, -, hsends, rfl⟩ := h.exists_last_send hevents
  by_cases hends : event.EndsRequest
  · refine .ended live.acquired event hends.isTerminal ?_
    rw [hevents, (hsends.healthy hends).1]
    rfl
  cases event with
  | audio chunk =>
    refine .streaming live.acquired ?_
    rw [hevents]
    exact hsends.symm
  | runtimeError error =>
    obtain ⟨-, hprefix | ⟨herror, event, hevent, hsent⟩⟩ := hsends
    · obtain ⟨chunks, hchunks, hmap⟩ := List.prefix_map_iff.mp hprefix
      exact .ended chunks (.runtimeError error) trivial (by rw [hevents, hmap])
    · obtain ⟨-, sent, more, hfailed, hsplit, hmore⟩ :=
        h.of_append.destroyFailed live hlive error herror
      have hnil : more = [] := by
        rcases List.eq_nil_or_concat' more with hnil | ⟨rest, last, rfl⟩
        · exact hnil
        · rw [hsent, ← List.append_assoc] at hsplit
          have hlast := List.append_inj_right' hsplit rfl
          cases hlast
          exact absurd hevent (hmore event (List.mem_append_right _ (List.mem_singleton_self _)))
      rw [hnil, List.append_nil] at hsplit
      refine .destroyFailed live.acquired event error hevent ?_ ?_
      · rw [hevents, hsent, List.append_assoc]
        rfl
      · have hevents' : sent = live.acquired.map .audio ++ [event] := hsplit.symm.trans hsent
        rw [← hevents']
        exact hfailed.append _
  | _ => exact absurd trivial hends

/-- **The events of every stream in every interleaving.** Its owner receives them in the order in
which they were sent. -/
theorem streamShape_run (actions : List WorkerAction) (stream : ℕ) :
    (run WorkerSystem.step .initial actions).channels.delivered stream <+:
        sentEvents (run WorkerSystem.step .initial actions).trace stream ∧
      StreamShape (run WorkerSystem.step .initial actions).trace stream :=
  ⟨⟨_, (WorkerSystem.channelsHold_run actions).fifo stream⟩,
    (orderly_run actions).streamShape stream⟩

/-! ### A destruction that fails behind the terminal event -/

/-- The snapshot of a request that has not failed. -/
def healthySnapshot (revision : ℕ) (state : Runtime.RequestLifecycleState)
    (availableAudioLeases : ℕ) : PublicSnapshot :=
  publicSnapshot
    { revision, state, availableAudioLeases, generatedCodecFrames := 0, publishedSamples := 0
      committedTextTokens := 0
      terminalStatus := if state = .cancelled then 10 else 0
      terminalErrorStage := if state = .cancelled then 6 else 0
      terminalErrorMessage := [] }

/-- `request_destroy` returns `MTT_STATUS_INTERNAL_ERROR` with a message. -/
def destroyError : Error := .native ⟨"request_destroy", 15, 6, [33]⟩

/-- A native library whose request completes without audio, and whose destruction fails. -/
def destroyFailureReplies : NativeReplies where
  start := .ok 1
  cancel := .ok ()
  poll := .ok (healthySnapshot 1 .completed 0)
  wait := .ok (some (healthySnapshot 1 .completed 0))
  acquire := .ok none
  memory := fun _ => 0
  release := .ok ()
  destroy := .error destroyError

/-- A synthesis whose owner receives every event at once. -/
def destroyFailureActions : List WorkerAction :=
  [.synthesize [7] 0, .notify ⟨0, some 0⟩] ++
    List.replicate 13 (.worker destroyFailureReplies) ++ [.receive 0] ++
    List.replicate 4 (.worker destroyFailureReplies) ++ [.receive 0]

theorem delivered_destroyFailureActions :
    (run WorkerSystem.step .initial destroyFailureActions).channels.delivered 0 =
      [.completed, .runtimeError destroyError] := by
  rfl

/-- **A stream whose terminal event is not its last one.** -/
theorem not_endsOnce_destroy_failure :
    ¬ ∀ (actions : List WorkerAction) (stream : ℕ),
      EndsOnce ((run WorkerSystem.step .initial actions).channels.delivered stream) := by
  intro h
  have hafter := h destroyFailureActions 0 [] .completed [.runtimeError destroyError]
    delivered_destroyFailureActions trivial
  cases hafter

end MagpieTts.Rust
