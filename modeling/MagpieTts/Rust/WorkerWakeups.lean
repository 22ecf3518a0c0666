import MagpieTts.Rust.WorkerStreams

/-!
# The wake-ups of the inference worker

A command enters its channel before its sender wakes the worker, and the worker looks into the
command channels after it has taken a wake-up and before it waits for the next one. So a command
that is queued while the worker waits is announced: the wake-up is there, or its sender still owes
it.

## Main definitions

* `WorkerChannels.Announced`: the wake-up for a command is there or is owed.
* `WakesHold`: what the worker knows of the command channels is true of them.

## Main results

* `WorkerSystem.wakesHold_run`: the invariant holds in every interleaving.
* `WorkerSystem.announced_of_waiting`: the commands that are queued while the worker waits.
-/

namespace MagpieTts.Rust

open MagpieTts.Library MagpieTts.Api

/-- The wake-up for the command is there, or its sender still owes it. -/
def WorkerChannels.Announced (channels : WorkerChannels) (command : ℕ) : Prop :=
  channels.wake = true ∨ ∃ wake ∈ channels.owed, wake.command = command

/-- What the worker knows of the command channels is true of them: a channel that it has found empty
since it last took a wake-up has only announced commands, and a channel without senders stays
empty. -/
structure WakesHold (channels : WorkerChannels) (ledger : WorkerLedger) : Prop where
  controls : ledger.controls = .empty →
    ∀ command ∈ channels.controls, channels.Announced command.reply
  starts : ledger.starts = .empty → ∀ command ∈ channels.starts, channels.Announced command.stream
  controlsGone : ledger.controls = .disconnected →
    channels.controls = [] ∧ channels.hasSenders = false
  startsGone : ledger.starts = .disconnected → channels.starts = [] ∧ channels.handle = false
  dropped : channels.receiversDropped = true → channels.starts = [] ∧ channels.controls = []

namespace WakesHold

variable {channels channels' : WorkerChannels} {ledger ledger' : WorkerLedger}
  {entry : Performed WorkerOperation WorkerOperation.Reply}

theorem hasSenders_eq_false (hhandle : channels.handle = false) (hstreams : channels.streams = []) :
    channels.hasSenders = false := by
  rw [WorkerChannels.hasSenders, hhandle, hstreams]
  rfl

theorem of_hasSenders_eq_false (h : channels.hasSenders = false) :
    channels.handle = false ∧ channels.streams = [] := by
  rw [WorkerChannels.hasSenders, Bool.or_eq_false_iff] at h
  exact ⟨h.1, by simpa using h.2⟩

/-- A step that touches neither the commands nor the senders. -/
theorem congr (h : WakesHold channels ledger) (hcontrols : ledger'.controls = ledger.controls)
    (hstarts : ledger'.starts = ledger.starts)
    (hqueued : channels'.controls = channels.controls ∧ channels'.starts = channels.starts)
    (hwake : channels'.wake = channels.wake ∧ channels'.owed = channels.owed)
    (hsenders : channels'.handle = channels.handle ∧ channels'.streams = channels.streams)
    (hdropped : channels'.receiversDropped = channels.receiversDropped) :
    WakesHold channels' ledger' := by
  have hannounced : ∀ command, channels.Announced command → channels'.Announced command := by
    intro command
    rw [WorkerChannels.Announced, WorkerChannels.Announced, hwake.1, hwake.2]
    exact id
  have hhasSenders : channels'.hasSenders = channels.hasSenders := by
    rw [WorkerChannels.hasSenders, WorkerChannels.hasSenders, hsenders.1, hsenders.2]
  refine ⟨fun hempty command hmem => ?_, fun hempty command hmem => ?_, fun hgone => ?_,
    fun hgone => ?_, fun hgone => ?_⟩
  · rw [hqueued.1] at hmem
    exact hannounced _ (h.controls (hcontrols.symm.trans hempty) command hmem)
  · rw [hqueued.2] at hmem
    exact hannounced _ (h.starts (hstarts.symm.trans hempty) command hmem)
  · rw [hqueued.1, hhasSenders]
    exact h.controlsGone (hcontrols.symm.trans hgone)
  · rw [hqueued.2, hsenders.1]
    exact h.startsGone (hstarts.symm.trans hgone)
  · rw [hqueued.1, hqueued.2]
    exact h.dropped (hdropped.symm.trans hgone)

/-- Only the receipts, and the receipt of a wake-up, change what is known of the channels. -/
theorem inspections_step {operation : WorkerOperation} {reply : operation.Reply}
    (hcontrol : operation ≠ .tryReceiveControl) (hstart : operation ≠ .tryReceiveStart)
    (hwake : operation ≠ .receiveWake) :
    (ledger.step ⟨operation, reply⟩).controls = ledger.controls ∧
      (ledger.step ⟨operation, reply⟩).starts = ledger.starts := by
  cases operation with
  | tryReceiveControl => exact absurd rfl hcontrol
  | tryReceiveStart => exact absurd rfl hstart
  | receiveWake => exact absurd rfl hwake
  | replyStart stream result => cases result <;> exact ⟨rfl, rfl⟩
  | trySend stream event => cases reply <;> cases event <;> exact ⟨rfl, rfl⟩
  | requestStart textTokenIds randomSeed =>
    rcases reply with error | _ | handle <;> exact ⟨rfl, rfl⟩
  | requestDestroy handle => cases reply <;> exact ⟨rfl, rfl⟩
  | abort resource error => cases reply
  | _ => exact ⟨rfl, rfl⟩

/-- The worker tries to receive a control command. -/
theorem tryReceiveControl (h : WakesHold channels ledger) {replies : NativeReplies}
    {reply : TryReceive ControlCommand}
    (hanswer : channels.answer replies .tryReceiveControl = some reply) :
    WakesHold { channels with controls := channels.controls.tail }
      (ledger.step ⟨.tryReceiveControl, reply⟩) := by
  rw [WorkerChannels.answer] at hanswer
  rcases hcontrols : channels.controls with _ | ⟨command, rest⟩
  · rw [hcontrols] at hanswer
    rcases hsenders : channels.hasSenders with _ | _
    · rw [hsenders] at hanswer
      cases hanswer
      exact ⟨(by rintro ⟨⟩), h.starts, fun _ => ⟨rfl, hsenders⟩, h.startsGone,
        fun hdropped => ⟨(h.dropped hdropped).1, rfl⟩⟩
    · rw [hsenders] at hanswer
      cases hanswer
      exact ⟨fun _ _ hmem => absurd hmem List.not_mem_nil, h.starts, (by rintro ⟨⟩), h.startsGone,
        fun hdropped => ⟨(h.dropped hdropped).1, rfl⟩⟩
  · rw [hcontrols] at hanswer
    cases hanswer
    have hdropped : channels.receiversDropped = true → channels.starts = [] ∧ rest = [] := by
      intro hdropped
      have hnil := (h.dropped hdropped).2
      rw [hcontrols] at hnil
      cases hnil
    cases command with
    | cancel requestId reply =>
      exact ⟨(by rintro ⟨⟩), h.starts, (by rintro ⟨⟩), h.startsGone, hdropped⟩
    | shutdown reply =>
      exact ⟨(by rintro ⟨⟩), h.starts, (by rintro ⟨⟩), h.startsGone, hdropped⟩

/-- The worker tries to receive a start command. -/
theorem tryReceiveStart (h : WakesHold channels ledger) {replies : NativeReplies}
    {reply : TryReceive StartCommand}
    (hanswer : channels.answer replies .tryReceiveStart = some reply) :
    WakesHold { channels with starts := channels.starts.tail }
      (ledger.step ⟨.tryReceiveStart, reply⟩) := by
  rw [WorkerChannels.answer] at hanswer
  rcases hstarts : channels.starts with _ | ⟨command, rest⟩
  · rw [hstarts] at hanswer
    rcases Bool.eq_false_or_eq_true channels.handle with hhandle | hhandle
    · rw [hhandle] at hanswer
      cases hanswer
      exact ⟨h.controls, fun _ _ hmem => absurd hmem List.not_mem_nil, h.controlsGone,
        (by rintro ⟨⟩), fun hdropped => ⟨rfl, (h.dropped hdropped).2⟩⟩
    · rw [hhandle] at hanswer
      cases hanswer
      exact ⟨h.controls, (by rintro ⟨⟩), h.controlsGone, fun _ => ⟨rfl, hhandle⟩,
        fun hdropped => ⟨rfl, (h.dropped hdropped).2⟩⟩
  · rw [hstarts] at hanswer
    cases hanswer
    refine ⟨h.controls, (by rintro ⟨⟩), h.controlsGone, (by rintro ⟨⟩), fun hdropped => ?_⟩
    have hnil := (h.dropped hdropped).1
    rw [hstarts] at hnil
    cases hnil

/-- The worker takes a wake-up. -/
theorem receiveWake (h : WakesHold channels ledger) (reply : Bool) :
    WakesHold { channels with wake := false } (ledger.step ⟨.receiveWake, reply⟩) := by
  have hempty : ∀ inspection : Inspection, inspection.afterWake ≠ .empty := by
    intro inspection
    cases inspection <;> nofun
  have hgone : ∀ inspection : Inspection, inspection.afterWake = .disconnected →
      inspection = .disconnected := by
    intro inspection
    cases inspection with
    | disconnected => exact fun _ => rfl
    | _ => exact nofun
  exact ⟨fun habsurd => absurd habsurd (hempty _), fun habsurd => absurd habsurd (hempty _),
    fun h' => h.controlsGone (hgone _ h'), fun h' => h.startsGone (hgone _ h'), h.dropped⟩

/-- The operations of the worker. -/
theorem answered (h : WakesHold channels ledger) {replies : NativeReplies}
    {operation : WorkerOperation} {reply : operation.Reply}
    (hanswer : channels.answer replies operation = some reply) :
    WakesHold (channels.effect operation) (ledger.step ⟨operation, reply⟩) := by
  by_cases hcontrol : operation = .tryReceiveControl
  · subst hcontrol
    exact h.tryReceiveControl hanswer
  by_cases hstart : operation = .tryReceiveStart
  · subst hstart
    exact h.tryReceiveStart hanswer
  by_cases hwake : operation = .receiveWake
  · subst hwake
    exact h.receiveWake reply
  obtain ⟨hcontrols, hstarts⟩ := @inspections_step ledger operation reply hcontrol hstart hwake
  cases operation with
  | tryReceiveControl => exact absurd rfl hcontrol
  | tryReceiveStart => exact absurd rfl hstart
  | receiveWake => exact absurd rfl hwake
  | trySend stream event =>
    rw [WorkerChannels.effect]
    split
    · exact h.congr hcontrols hstarts ⟨rfl, rfl⟩ ⟨rfl, rfl⟩ ⟨rfl, rfl⟩ rfl
    · exact h.congr hcontrols hstarts ⟨rfl, rfl⟩ ⟨rfl, rfl⟩ ⟨rfl, rfl⟩ rfl
  | dropReceivers =>
    exact ⟨fun _ _ hmem => absurd hmem List.not_mem_nil,
      fun _ _ hmem => absurd hmem List.not_mem_nil,
      fun hgone => ⟨rfl, (h.controlsGone (hcontrols.symm.trans hgone)).2⟩,
      fun hgone => ⟨rfl, (h.startsGone (hstarts.symm.trans hgone)).2⟩, fun _ => ⟨rfl, rfl⟩⟩
  | _ => exact h.congr hcontrols hstarts ⟨rfl, rfl⟩ ⟨rfl, rfl⟩ ⟨rfl, rfl⟩ rfl

/-- A new start command. -/
theorem sendStart (h : WakesHold channels ledger) (textTokenIds : List ℤ) (randomSeed : ℕ) :
    WakesHold (channels.sendStart textTokenIds randomSeed) ledger := by
  rw [WorkerChannels.sendStart]
  split
  · rename_i hsends
    obtain ⟨hhandle, hreceivers, -⟩ := hsends
    have hold : ∀ command, channels.Announced command → (∃ wake ∈
        (⟨channels.nextNumber, some channels.nextNumber⟩ : OwedWake) :: channels.owed,
          wake.command = command) ∨ channels.wake = true := by
      rintro command (hwake | ⟨wake, hmem, hcommand⟩)
      · exact .inr hwake
      · exact .inl ⟨wake, List.mem_cons_of_mem _ hmem, hcommand⟩
    refine ⟨fun hempty command hmem => (hold _ (h.controls hempty command hmem)).symm,
      fun hempty command hmem => ?_, fun hgone => ?_, fun hgone => ?_, fun hdropped => ?_⟩
    · rcases List.mem_append.mp hmem with hmem | hmem
      · exact (hold _ (h.starts hempty command hmem)).symm
      · rw [List.mem_singleton.mp hmem]
        exact .inr ⟨_, List.mem_cons_self, rfl⟩
    · have habsurd := (of_hasSenders_eq_false (h.controlsGone hgone).2).1
      exact absurd (hhandle.symm.trans habsurd) (by decide)
    · exact absurd (hhandle.symm.trans (h.startsGone hgone).2) (by decide)
    · exact absurd (hreceivers.symm.trans hdropped) (by decide)
  · exact h

/-- A new control command. -/
theorem sendControl (h : WakesHold channels ledger) {command : ℕ → ControlCommand}
    (hnumber : ∀ number, (command number).reply = number) (sender : Option ℕ)
    (hsenders : channels.hasSenders = true) :
    WakesHold (channels.sendControl command sender) ledger := by
  rw [WorkerChannels.sendControl]
  split
  · rename_i hsends
    have hold : ∀ command, channels.Announced command →
        (∃ wake ∈ (⟨channels.nextNumber, sender⟩ : OwedWake) :: channels.owed,
          wake.command = command) ∨ channels.wake = true := by
      rintro command (hwake | ⟨wake, hmem, hcommand⟩)
      · exact .inr hwake
      · exact .inl ⟨wake, List.mem_cons_of_mem _ hmem, hcommand⟩
    refine ⟨fun hempty command' hmem => ?_,
      fun hempty command' hmem => (hold _ (h.starts hempty command' hmem)).symm, fun hgone => ?_,
      h.startsGone, fun hdropped => ?_⟩
    · rcases List.mem_append.mp hmem with hmem | hmem
      · exact (hold _ (h.controls hempty command' hmem)).symm
      · rw [List.mem_singleton.mp hmem, hnumber]
        exact .inr ⟨_, List.mem_cons_self, rfl⟩
    · exact absurd (hsenders.symm.trans (h.controlsGone hgone).2) (by decide)
    · exact absurd (hsends.1.symm.trans hdropped) (by decide)
  · exact h

/-- A sender wakes the worker. -/
theorem notifyWorker (h : WakesHold channels ledger) (wake : OwedWake) :
    WakesHold (channels.notifyWorker wake) ledger := by
  rw [WorkerChannels.notifyWorker]
  split
  · rcases Bool.eq_false_or_eq_true channels.receiversDropped with hdropped | hdropped
    · obtain ⟨hstarts, hcontrols⟩ := h.dropped hdropped
      refine ⟨fun _ command hmem => ?_, fun _ command hmem => ?_, h.controlsGone, h.startsGone,
        fun _ => ⟨hstarts, hcontrols⟩⟩
      · rw [hcontrols] at hmem
        cases hmem
      · rw [hstarts] at hmem
        cases hmem
    · have hwake : (if channels.receiversDropped then channels.wake else true) = true := by
        rw [hdropped]
        rfl
      exact ⟨fun _ _ _ => .inl hwake, fun _ _ _ => .inl hwake, h.controlsGone, h.startsGone,
        h.dropped⟩
  · exact h

/-- A stream is dropped. -/
theorem dropStream (h : WakesHold channels ledger) (stream : ℕ) :
    WakesHold (channels.dropStream stream) ledger := by
  rw [WorkerChannels.dropStream]
  split
  · exact h
  · refine ⟨h.controls, h.starts, fun hgone => ⟨(h.controlsGone hgone).1, ?_⟩, h.startsGone,
      h.dropped⟩
    obtain ⟨hhandle, hstreams⟩ := of_hasSenders_eq_false (h.controlsGone hgone).2
    refine hasSenders_eq_false hhandle ?_
    change channels.streams.filter _ = []
    rw [hstreams]
    rfl

/-- The handle is dropped. -/
theorem dropWorker (h : WakesHold channels ledger) : WakesHold channels.dropWorker ledger := by
  rw [WorkerChannels.dropWorker]
  split
  · exact h
  · refine ⟨h.controls, h.starts, fun hgone => ⟨(h.controlsGone hgone).1, ?_⟩,
      fun hgone => ⟨(h.startsGone hgone).1, rfl⟩, h.dropped⟩
    exact hasSenders_eq_false rfl (of_hasSenders_eq_false (h.controlsGone hgone).2).2

end WakesHold

namespace WorkerSystem

variable {system : WorkerSystem}

theorem wakesHold_initial : WakesHold initial.channels (ledgerOf initial.trace) :=
  ⟨nofun, nofun, nofun, nofun, nofun⟩

theorem hasSenders_of_stream {channels : WorkerChannels} {stream : ℕ}
    (h : stream ∈ channels.streams) : channels.hasSenders = true := by
  by_contra hsenders
  have hnone := (WakesHold.of_hasSenders_eq_false (by simpa using hsenders)).2
  rw [hnone] at h
  cases h

theorem wakesHold_step (h : WakesHold system.channels (ledgerOf system.trace))
    (action : WorkerAction) :
    WakesHold (system.step action).channels (ledgerOf (system.step action).trace) := by
  cases action with
  | worker replies =>
    change WakesHold (system.workerStep replies).channels
      (ledgerOf (system.workerStep replies).trace)
    rcases workerStep_cases system replies with ⟨phase, -, hstep⟩ | ⟨operation, next, -, -, hstep⟩ |
      ⟨operation, next, reply, -, hanswer, hstep⟩
    · rw [hstep]
      exact h
    · rw [hstep]
      exact h
    · rw [hstep]
      change WakesHold (system.channels.effect operation)
        (ledgerOf (system.trace ++ [⟨operation, reply⟩]))
      rw [ledgerOf_concat]
      exact h.answered hanswer
  | synthesize textTokenIds randomSeed => exact h.sendStart textTokenIds randomSeed
  | cancel stream requestId =>
    rw [step]
    split
    · rename_i hmem
      exact h.sendControl (fun _ => rfl) _ (hasSenders_of_stream hmem)
    · exact h
  | shutdown =>
    rw [step]
    split
    · rename_i hhandle
      refine h.sendControl (fun _ => rfl) _ ?_
      rw [WorkerChannels.hasSenders, hhandle, Bool.true_or]
    · exact h
  | notify wake => exact h.notifyWorker wake
  | receive stream =>
    change WakesHold (system.channels.receiveEvent stream) _
    rw [WorkerChannels.receiveEvent]
    split
    · exact h
    · exact h.congr rfl rfl ⟨rfl, rfl⟩ ⟨rfl, rfl⟩ ⟨rfl, rfl⟩ rfl
  | dropStream stream => exact h.dropStream stream
  | dropWorker => exact h.dropWorker

/-- **What the worker knows of the command channels is true of them, in every interleaving.** -/
theorem wakesHold_run (actions : List WorkerAction) :
    WakesHold (run step initial actions).channels (ledgerOf (run step initial actions).trace) :=
  @run_induction _ _ step (fun system => WakesHold system.channels (ledgerOf system.trace))
    (fun _ action h => wakesHold_step h action) _ wakesHold_initial actions

/-- **The commands that are queued while the worker waits are announced**, and no native request
lives. -/
theorem announced_of_waiting (actions : List WorkerAction) {next : Bool → Worker WorkerPhase}
    (hwaits : (run step initial actions).worker.residual = .perform .receiveWake next) :
    (ledgerOf (run step initial actions).trace).live = none ∧
      (∀ command ∈ (run step initial actions).channels.controls,
        (run step initial actions).channels.Announced command.reply) ∧
      ∀ command ∈ (run step initial actions).channels.starts,
        (run step initial actions).channels.Announced command.stream := by
  have hkeeps := (disciplined_run actions).residual_keeps
  rw [hwaits] at hkeeps
  have hallows : (ledgerOf (run step initial actions).trace).Allows .receiveWake := hkeeps.1
  obtain ⟨hlive, hcontrols, hstarts⟩ := hallows
  have hwakes := wakesHold_run actions
  refine ⟨hlive, fun command hmem => ?_, fun command hmem => ?_⟩
  · rcases hinspection : (ledgerOf (run step initial actions).trace).controls with _ | _ | _
    · exact absurd hinspection hcontrols
    · exact hwakes.controls hinspection command hmem
    · rw [(hwakes.controlsGone hinspection).1] at hmem
      cases hmem
  · rcases hinspection : (ledgerOf (run step initial actions).trace).starts with _ | _ | _
    · exact absurd hinspection hstarts
    · exact hwakes.starts hinspection command hmem
    · rw [(hwakes.startsGone hinspection).1] at hmem
      cases hmem

end WorkerSystem

end MagpieTts.Rust
