import Mathlib.Data.List.Nodup
import MagpieTts.Rust.WorkerDiscipline

/-!
# The channels of the inference worker

What the channels add to the discipline of the worker: every start command comes with channels of
its own, and the owner of a stream receives the events in the order in which they were sent.

## Main definitions

* `sentEvents`: the events that entered the channel of a stream.
* `receivedStreams`: the streams of the start commands that the worker has received.
* `ChannelsHold`: the invariant of the channels.

## Main results

* `WorkerSystem.workerStep_cases`: what a step of the worker does.
* `WorkerSystem.channelsHold_run`: the invariant holds in every interleaving.
-/

namespace MagpieTts.Rust

open MagpieTts.Library MagpieTts.Api

/-- The operations of the worker with their replies, in their order. -/
abbrev WorkerTrace := List (Performed WorkerOperation WorkerOperation.Reply)

/-- The event that an operation puts into the channel of the stream. -/
def sentEvent? (stream : ℕ) : Performed WorkerOperation WorkerOperation.Reply →
    Option SynthesisEvent
  | ⟨.trySend channel event, .sent⟩ => if channel = stream then some event else none
  | _ => none

/-- The events that have entered the channel of the stream. -/
def sentEvents (trace : WorkerTrace) (stream : ℕ) : List SynthesisEvent :=
  trace.filterMap (sentEvent? stream)

/-- The stream of a start command that the worker receives. -/
def receivedStream? : Performed WorkerOperation WorkerOperation.Reply → Option ℕ
  | ⟨.tryReceiveStart, .received command⟩ => some command.stream
  | _ => none

/-- The streams of the start commands that the worker has received. -/
def receivedStreams (trace : WorkerTrace) : List ℕ := trace.filterMap receivedStream?

@[simp] theorem sentEvents_nil (stream : ℕ) : sentEvents [] stream = [] := rfl

theorem sentEvents_append (trace trace' : WorkerTrace) (stream : ℕ) :
    sentEvents (trace ++ trace') stream = sentEvents trace stream ++ sentEvents trace' stream :=
  List.filterMap_append

theorem sentEvents_send_self (stream : ℕ) (event : SynthesisEvent) :
    sentEvents [⟨.trySend stream event, .sent⟩] stream = [event] := by
  simp [sentEvents, sentEvent?]

theorem sentEvents_send_of_ne {stream other : ℕ} (hne : stream ≠ other) (event : SynthesisEvent) :
    sentEvents [⟨.trySend stream event, .sent⟩] other = [] := by
  simp [sentEvents, sentEvent?, hne]

theorem receivedStreams_append (trace trace' : WorkerTrace) :
    receivedStreams (trace ++ trace') = receivedStreams trace ++ receivedStreams trace' :=
  List.filterMap_append

namespace WorkerSystem

variable {system : WorkerSystem}

/-- A step of the worker begins the next pass, or is blocked, or performs an operation. -/
theorem workerStep_cases (system : WorkerSystem) (replies : NativeReplies) :
    (∃ phase, system.worker.residual = .done phase ∧
        system.workerStep replies = { system with worker := ⟨phase.pass, system.trace⟩ }) ∨
      (∃ operation next, system.worker.residual = .perform operation next ∧
        system.channels.answer replies operation = none ∧ system.workerStep replies = system) ∨
      ∃ operation next reply, system.worker.residual = .perform operation next ∧
        system.channels.answer replies operation = some reply ∧
        system.workerStep replies = ⟨system.channels.effect operation, next reply,
          system.trace ++ [⟨operation, reply⟩]⟩ := by
  obtain ⟨channels, residual, trace⟩ := system
  cases residual with
  | done phase => exact .inl ⟨phase, rfl, rfl⟩
  | perform operation next =>
    rcases hanswer : channels.answer replies operation with _ | reply
    · refine .inr (.inl ⟨operation, next, rfl, hanswer, ?_⟩)
      rw [workerStep]
      simp only [Thread.advance, hanswer]
      rfl
    · refine .inr (.inr ⟨operation, next, reply, rfl, hanswer, ?_⟩)
      rw [workerStep]
      simp only [Thread.advance, hanswer]
      rfl

end WorkerSystem

/-- The invariant of the channels: the events of a stream are received in their order, and each
start command has a stream of its own. -/
structure ChannelsHold (channels : WorkerChannels) (trace : WorkerTrace) : Prop where
  fifo : ∀ stream, channels.delivered stream ++ channels.events stream = sentEvents trace stream
  nodup : (receivedStreams trace ++ channels.starts.map (·.stream)).Nodup
  below : ∀ stream ∈ receivedStreams trace ++ channels.starts.map (·.stream),
    stream < channels.nextNumber

namespace ChannelsHold

variable {channels channels' : WorkerChannels} {trace : WorkerTrace}
  {entry : Performed WorkerOperation WorkerOperation.Reply}

/-- An operation that neither sends an event nor receives a start. -/
theorem operation (h : ChannelsHold channels trace)
    (hsent : ∀ stream, sentEvent? stream entry = none) (hreceived : receivedStream? entry = none)
    (hevents : channels'.events = channels.events)
    (hdelivered : channels'.delivered = channels.delivered)
    (hstarts : channels'.starts.Sublist channels.starts)
    (hnext : channels'.nextNumber = channels.nextNumber) :
    ChannelsHold channels' (trace ++ [entry]) := by
  have hsame : receivedStreams (trace ++ [entry]) = receivedStreams trace := by
    rw [receivedStreams_append, receivedStreams, receivedStreams,
      List.filterMap_cons_none hreceived]
    exact List.append_nil _
  have hsublist : (receivedStreams (trace ++ [entry]) ++ channels'.starts.map (·.stream)).Sublist
      (receivedStreams trace ++ channels.starts.map (·.stream)) := by
    rw [hsame]
    exact (List.Sublist.refl _).append (hstarts.map _)
  refine ⟨fun stream => ?_, h.nodup.sublist hsublist, fun stream hmem => ?_⟩
  · rw [hevents, hdelivered, h.fifo, sentEvents_append, sentEvents, sentEvents,
      List.filterMap_cons_none (hsent stream)]
    exact (List.append_nil _).symm
  · rw [hnext]
    exact h.below stream (hsublist.subset hmem)

/-- The receipt of a start command. -/
theorem receiveStart (h : ChannelsHold channels trace) {command : StartCommand}
    {rest : List StartCommand} (hstarts : channels.starts = command :: rest) :
    ChannelsHold { channels with starts := rest }
      (trace ++ [⟨.tryReceiveStart, .received command⟩]) := by
  have hsame : receivedStreams (trace ++ [⟨.tryReceiveStart, .received command⟩]) ++
      rest.map (·.stream) = receivedStreams trace ++ channels.starts.map (·.stream) := by
    rw [receivedStreams_append, hstarts, List.map_cons, List.append_assoc]
    rfl
  refine ⟨fun stream => ?_, ?_, ?_⟩
  · rw [h.fifo, sentEvents_append]
    exact (List.append_nil _).symm
  · change (receivedStreams _ ++ rest.map (·.stream)).Nodup
    rw [hsame]
    exact h.nodup
  · change ∀ stream ∈ receivedStreams _ ++ rest.map (·.stream), stream < channels.nextNumber
    rw [hsame]
    exact h.below

/-- An event enters the channel of its stream. -/
theorem sendEvent (h : ChannelsHold channels trace) (stream : ℕ) (event : SynthesisEvent) :
    ChannelsHold
      { channels with
        events := Function.update channels.events stream (channels.events stream ++ [event]) }
      (trace ++ [⟨.trySend stream event, .sent⟩]) := by
  have hsame : receivedStreams (trace ++ [⟨.trySend stream event, .sent⟩]) =
      receivedStreams trace := by
    rw [receivedStreams_append]
    exact List.append_nil _
  refine ⟨fun other => ?_, ?_, ?_⟩
  · rw [sentEvents_append, ← h.fifo]
    change channels.delivered other ++
      Function.update channels.events stream (channels.events stream ++ [event]) other = _
    by_cases hother : other = stream
    · subst hother
      rw [Function.update_self, sentEvents_send_self, List.append_assoc]
    · rw [Function.update_of_ne hother, sentEvents_send_of_ne (Ne.symm hother), List.append_nil]
  · rw [hsame]
    exact h.nodup
  · rw [hsame]
    exact h.below

/-- The operations of the worker. -/
theorem answered (h : ChannelsHold channels trace) {replies : NativeReplies}
    {operation : WorkerOperation} {reply : operation.Reply}
    (hanswer : channels.answer replies operation = some reply) :
    ChannelsHold (channels.effect operation) (trace ++ [⟨operation, reply⟩]) := by
  cases operation with
  | tryReceiveStart =>
    rw [WorkerChannels.answer] at hanswer
    rcases hstarts : channels.starts with _ | ⟨command, rest⟩
    · rw [hstarts] at hanswer
      cases hanswer
      refine h.operation (fun _ => rfl) ?_ rfl rfl ?_ rfl
      · cases channels.handle <;> rfl
      · exact List.tail_sublist _
    · rw [hstarts] at hanswer
      cases hanswer
      have hreceived := h.receiveStart hstarts
      rw [WorkerChannels.effect, hstarts]
      exact hreceived
  | trySend stream event =>
    rw [WorkerChannels.answer] at hanswer
    rw [WorkerChannels.effect]
    by_cases hmem : stream ∈ channels.streams
    · rw [if_pos hmem] at hanswer
      cases hanswer
      by_cases hroom : (channels.events stream).length < eventCapacity
      · rw [if_pos hroom, if_pos ⟨hmem, hroom⟩]
        exact h.sendEvent stream event
      · rw [if_neg hroom, if_neg fun hboth => hroom hboth.2]
        exact h.operation (fun _ => rfl) rfl rfl rfl (List.Sublist.refl _) rfl
    · rw [if_neg hmem] at hanswer
      cases hanswer
      rw [if_neg fun hboth => hmem hboth.1]
      exact h.operation (fun _ => rfl) rfl rfl rfl (List.Sublist.refl _) rfl
  | dropReceivers => exact h.operation (fun _ => rfl) rfl rfl rfl (List.nil_sublist _) rfl
  | abort resource error => cases hanswer
  | _ => exact h.operation (fun _ => rfl) rfl rfl rfl (List.Sublist.refl _) rfl

/-- A new start command. -/
theorem sendStart (h : ChannelsHold channels trace) (textTokenIds : List ℤ) (randomSeed : ℕ) :
    ChannelsHold (channels.sendStart textTokenIds randomSeed) trace := by
  rw [WorkerChannels.sendStart]
  split
  · have hmap : receivedStreams trace ++
        (channels.starts ++ [(⟨textTokenIds, randomSeed, channels.nextNumber⟩ : StartCommand)]).map
          (·.stream) =
        (receivedStreams trace ++ channels.starts.map (·.stream)) ++ [channels.nextNumber] := by
      rw [List.map_append, List.append_assoc]
      rfl
    refine ⟨h.fifo, ?_, ?_⟩
    · change (receivedStreams trace ++ List.map _ (_ ++ _)).Nodup
      rw [hmap, List.nodup_append]
      refine ⟨h.nodup, List.nodup_singleton _, fun stream hmem other hother => ?_⟩
      rw [List.mem_singleton] at hother
      subst hother
      exact Nat.ne_of_lt (h.below stream hmem)
    · change ∀ stream ∈ receivedStreams trace ++ List.map _ (_ ++ _), stream < _ + 1
      rw [hmap]
      intro stream hmem
      rcases List.mem_append.mp hmem with hold | hnew
      · exact Nat.lt_succ_of_lt (h.below stream hold)
      · rw [List.mem_singleton.mp hnew]
        exact Nat.lt_succ_self _
  · exact h

theorem sendControl (h : ChannelsHold channels trace) (command : ℕ → ControlCommand)
    (sender : Option ℕ) : ChannelsHold (channels.sendControl command sender) trace := by
  rw [WorkerChannels.sendControl]
  split
  · exact ⟨h.fifo, h.nodup, fun stream hmem => Nat.lt_succ_of_lt (h.below stream hmem)⟩
  · exact h

theorem notifyWorker (h : ChannelsHold channels trace) (wake : OwedWake) :
    ChannelsHold (channels.notifyWorker wake) trace := by
  rw [WorkerChannels.notifyWorker]
  split
  · exact ⟨h.fifo, h.nodup, h.below⟩
  · exact h

/-- The owner of a stream receives an event. -/
theorem receiveEvent (h : ChannelsHold channels trace) (stream : ℕ) :
    ChannelsHold (channels.receiveEvent stream) trace := by
  rw [WorkerChannels.receiveEvent]
  split
  · exact h
  · rename_i event rest hevents
    refine ⟨fun other => ?_, h.nodup, h.below⟩
    rw [← h.fifo]
    change Function.update channels.delivered stream (channels.delivered stream ++ [event]) other ++
      Function.update channels.events stream rest other = _
    by_cases hother : other = stream
    · subst hother
      rw [Function.update_self, Function.update_self, hevents, List.append_assoc]
      rfl
    · rw [Function.update_of_ne hother, Function.update_of_ne hother]

theorem dropStream (h : ChannelsHold channels trace) (stream : ℕ) :
    ChannelsHold (channels.dropStream stream) trace := by
  rw [WorkerChannels.dropStream]
  split
  · exact h
  · exact ⟨h.fifo, h.nodup, h.below⟩

theorem dropWorker (h : ChannelsHold channels trace) : ChannelsHold channels.dropWorker trace := by
  rw [WorkerChannels.dropWorker]
  split
  · exact h
  · exact ⟨h.fifo, h.nodup, h.below⟩

end ChannelsHold

namespace WorkerSystem

variable {system : WorkerSystem}

theorem channelsHold_initial : ChannelsHold initial.channels initial.trace :=
  ⟨fun _ => rfl, List.nodup_nil, fun _ hmem => nomatch hmem⟩

theorem channelsHold_step (h : ChannelsHold system.channels system.trace) (action : WorkerAction) :
    ChannelsHold (system.step action).channels (system.step action).trace := by
  cases action with
  | worker replies =>
    change ChannelsHold (system.workerStep replies).channels (system.workerStep replies).trace
    rcases workerStep_cases system replies with ⟨phase, -, hstep⟩ | ⟨operation, next, -, -, hstep⟩ |
      ⟨operation, next, reply, -, hanswer, hstep⟩
    · rw [hstep]
      exact h
    · rw [hstep]
      exact h
    · rw [hstep]
      exact h.answered hanswer
  | synthesize textTokenIds randomSeed => exact h.sendStart textTokenIds randomSeed
  | cancel stream requestId =>
    rw [step]
    split
    · exact h.sendControl _ _
    · exact h
  | shutdown =>
    rw [step]
    split
    · exact h.sendControl _ _
    · exact h
  | notify wake => exact h.notifyWorker wake
  | receive stream => exact h.receiveEvent stream
  | dropStream stream => exact h.dropStream stream
  | dropWorker => exact h.dropWorker

/-- **The channels in every interleaving.** -/
theorem channelsHold_run (actions : List WorkerAction) :
    ChannelsHold (run step initial actions).channels (run step initial actions).trace :=
  @run_induction _ _ step (fun system => ChannelsHold system.channels system.trace)
    (fun _ action h => channelsHold_step h action) _ channelsHold_initial actions

end WorkerSystem

end MagpieTts.Rust
