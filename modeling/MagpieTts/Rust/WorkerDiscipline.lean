import MagpieTts.Rust.WorkerTracking

/-!
# The worker keeps its discipline

The two loops of the worker perform only the operations that the ledger allows, whatever the replies
are and however the other threads run.

## Main definitions

* `LoopHolds`: the variables of `worker_loop` agree with the ledger.
* `WorkerPhase.Inv`: the invariant at the head of the two loops.

## Main results

* `keeps_pass`: every pass keeps the discipline and restores the invariant.
* `disciplined_run`: every interleaving keeps the discipline.
-/

namespace MagpieTts.Rust

open MagpieTts.Library MagpieTts.Api

/-- The active request, if there is one, is the live request of the ledger. -/
def ActiveHolds : Option ActiveRequest → Option LiveRequest → Prop
  | none, request => request = none
  | some active, request => ∃ live, request = some live ∧ Tracks active live

/-- The variables of `worker_loop` agree with the ledger. -/
structure LoopHolds (state : WorkerLoop) (ledger : WorkerLedger) : Prop where
  nextIdentifier : state.nextIdentifier = ledger.issued + 1
  finished : state.mostRecentTerminalIdentifier = ledger.finished
  fatal : ledger.fatal = none
  starts : state.startsConnected = false → ledger.starts = .disconnected
  controls : state.controlsConnected = false → ledger.controls = .disconnected
  active : ActiveHolds state.active ledger.live

/-- The invariant at the head of the loops. -/
def WorkerPhase.Inv : WorkerPhase → WorkerLedger → Prop
  | .loop state, ledger => LoopHolds state ledger ∧ ledger.cancel = none
  | .fatal active event error, ledger => event = pendingErrorEvent error ∧ ledger.cancel = none ∧
      (∀ e, ledger.fatal = some e → error = .runtime e) ∧
        ∃ live, ledger.live = some live ∧ Fails active live error
  | .returned _, _ => True

section Passes

variable {ledger : WorkerLedger} {live : LiveRequest} {active : ActiveRequest}
  {state : WorkerLoop}

/-! ### The return of `worker_loop` -/

theorem keeps_leaveLoop_none (hlive : ledger.live = none) (hcancel : ledger.cancel = none)
    (result : Except WorkerError Unit) :
    (leaveLoop none result).Keeps workerDiscipline WorkerPhase.Inv ledger :=
  ⟨⟨hlive, hcancel⟩, fun _ => trivial⟩

/-- Without a live request the sender of a stream is dropped unnoticed. -/
theorem keeps_detach_of_live_eq_none (hlive : ledger.live = none) :
    active.detach.Keeps workerDiscipline (fun _ ledger' => ledger' = ledger) ledger := by
  rw [ActiveRequest.detach]
  split
  · rfl
  · refine keeps_perform (fun live habsurd => ?_) fun reply => ?_
    · exact nomatch hlive.symm.trans habsurd
    change ledger.onLive _ = ledger
    rw [WorkerLedger.onLive, hlive, Option.map_none, ← hlive]

/-- The fields of a request that is closed are dropped without a native call. -/
theorem keeps_drop_closed (hlive : ledger.live = none) (hhandle : active.request.handle = none)
    (hpoisoned : active.request.poisoned = false) (hclose : active.request.closeError = none) :
    active.drop.Keeps workerDiscipline (fun _ ledger' => ledger' = ledger) ledger := by
  have hdrop : active.request.drop = pure () := by
    rw [Request.drop, hclose, Request.close, hpoisoned, hhandle]
    rfl
  rw [ActiveRequest.drop, hdrop]
  change Program.Keeps _ _ (active.detach >>= fun _ => _) _
  rw [Program.keeps_bind]
  exact keeps_detach_of_live_eq_none hlive

/-- The wrapper of a request that is given up destroys it, or the process aborts. -/
theorem keeps_drop_failing {request : Request} (hfailing : live.failing = true)
    (hlease : live.lease = none) (hclosable : Closable request live) :
    request.drop.Keeps workerDiscipline
      (fun _ ledger' => ledger'.live = none ∧ ledger'.cancel = ledger.cancel)
      (ledger.withLive live) := by
  rw [Request.drop]
  rcases hclosable with ⟨hhandle, hpoisoned, hclose, hstopped⟩ | ⟨hrefused, hstopped⟩
  · rw [hclose, close_eq hpoisoned hhandle]
    refine keeps_perform ⟨live, rfl, ⟨rfl, hlease, hstopped⟩, .inl hfailing⟩ fun reply => ?_
    cases reply with
    | ok _ => exact ⟨rfl, rfl⟩
    | error error => exact keeps_abortDropFailure rfl rfl
  · split
    · exact keeps_abortDropFailure rfl hstopped
    · rename_i hclose
      have hpoisoned : request.poisoned = true :=
        hrefused.resolve_right (by rw [hclose]; decide)
      rw [Request.close, if_pos hpoisoned]
      exact keeps_abortDropFailure rfl hstopped

/-- The return of `worker_loop` with a request that is given up. -/
theorem keeps_leaveLoop_some (hcancel : ledger.cancel = none) (hfailing : live.failing = true)
    (hlease : live.lease = none) (hclosable : Closable active.request live)
    (result : Except WorkerError Unit) :
    (leaveLoop (some active) result).Keeps workerDiscipline WorkerPhase.Inv
      (ledger.withLive live) := by
  rw [leaveLoop]
  simp only [ActiveRequest.drop, Program.keeps_bind]
  refine (keeps_drop_failing hfailing hlease hclosable).mono ?_
  rintro _ ledger' ⟨hlive, hsame⟩
  rw [Program.keeps_bind]
  refine (keeps_detach_of_live_eq_none hlive).mono ?_
  rintro _ _ rfl
  exact ⟨⟨hlive, hsame.trans hcancel⟩, fun _ => trivial⟩

/-- The return of `drive_fatal_request` with the sender dropped. -/
theorem keeps_leaveFatal (hcancel : ledger.cancel = none)
    (hevents : active.events = if live.attached = true then some live.stream else none)
    (hfailing : live.failing = true) (hlease : live.lease = none)
    (hclosable : Closable active.request live) (error : WorkerError) :
    (leaveFatal active error).Keeps workerDiscipline WorkerPhase.Inv (ledger.withLive live) := by
  rw [leaveFatal, Program.keeps_bind]
  refine (keeps_detach (.inr (.inl hfailing)) hevents).mono ?_
  rintro detached _ ⟨rfl, rfl⟩
  exact @keeps_leaveLoop_some ledger { live with attached := false } { active with events := none }
    hcancel hfailing hlease hclosable _

theorem Fails.keeps_leaveFatal {error : WorkerError} (h : Fails active live error)
    (hcancel : ledger.cancel = none) :
    (leaveFatal active error).Keeps workerDiscipline WorkerPhase.Inv (ledger.withLive live) :=
  Rust.keeps_leaveFatal hcancel h.events h.failing h.lease h.closable error

/-! ### The loop of `drive_fatal_request` -/

section Fatal

variable {event : SynthesisEvent} {error : WorkerError}

theorem pendingErrorEvent_eq_some (h : pendingErrorEvent error = some event) :
    ∃ e, error = .runtime e ∧ event = .runtimeError e := by
  cases error with
  | runtime e =>
    cases h
    exact ⟨e, rfl, rfl⟩
  | _ => cases h

/-- The loop goes on with the error that it has tried to report. -/
theorem inv_fatal {e : Error} (h : Fails active live (.runtime e)) (hcancel : ledger.cancel = none)
    (hfatal : ledger.fatal = some e) :
    WorkerPhase.Inv (.fatal active (some (.runtimeError e)) (.runtime e))
      (ledger.withLive live) := by
  refine ⟨rfl, hcancel, fun e' he' => ?_, live, rfl, h⟩
  change ledger.fatal = some e' at he'
  rw [hfatal] at he'
  cases he'
  rfl

theorem keeps_fatalStarts {e : Error} (h : Fails active live (.runtime e))
    (hcancel : ledger.cancel = none) (hfatal : ledger.fatal = some e) (controlsConnected : Bool) :
    (fatalStarts active (.runtimeError e) (.runtime e) controlsConnected).Keeps workerDiscipline
      WorkerPhase.Inv (ledger.withLive live) := by
  refine keeps_perform trivial fun reply => ?_
  cases reply with
  | received command =>
    refine keeps_perform ⟨command, rfl, rfl⟩ fun _ => keeps_perform trivial fun _ => ?_
    exact @inv_fatal
      { ledger with starts := .unknown, start := none } live active e h hcancel hfatal
  | empty =>
    refine keeps_perform trivial fun _ => ?_
    exact @inv_fatal { ledger with starts := .empty } live active e h hcancel hfatal
  | disconnected =>
    cases controlsConnected with
    | true =>
      refine keeps_perform trivial fun _ => ?_
      exact @inv_fatal { ledger with starts := .disconnected } live active e h hcancel hfatal
    | false =>
      exact @Fails.keeps_leaveFatal { ledger with starts := .disconnected } live active _ h hcancel

/-- The answer to a cancel behind a fatal error. -/
theorem answers_of_fatal {ledger : WorkerLedger} {e : Error} {requestId : ℕ}
    (hfatal : ledger.fatal = some e) : ledger.Answers requestId (.error (.runtime e)) := by
  rw [WorkerLedger.Answers, hfatal]

theorem keeps_fatalControls {e : Error} (h : Fails active live (.runtime e))
    (hcancel : ledger.cancel = none) (hfatal : ledger.fatal = some e) :
    (fatalControls active (.runtimeError e) (.runtime e)).Keeps workerDiscipline WorkerPhase.Inv
      (ledger.withLive live) := by
  refine keeps_perform hcancel fun reply => ?_
  rcases reply with (⟨requestId, reply⟩ | reply) | _ | _
  · refine keeps_perform ⟨requestId, rfl, ?_⟩ fun _ => ?_
    · exact answers_of_fatal hfatal
    · exact @keeps_fatalStarts { ledger with controls := .unknown, cancel := none }
        { live with cancelError := none } active e { h with } rfl hfatal true
  · exact @Fails.keeps_leaveFatal
      { ledger with controls := .unknown, shutdown := true } live active _ h
      hcancel
  · exact @keeps_fatalStarts { ledger with controls := .empty } live active e h hcancel hfatal true
  · exact @keeps_fatalStarts
      { ledger with controls := .disconnected } live active e h hcancel hfatal
      false

/-- One pass of the loop of `drive_fatal_request`. -/
theorem keeps_fatalIteration {pendingEvent : Option SynthesisEvent}
    (hinv : WorkerPhase.Inv (.fatal active pendingEvent error) ledger) :
    (fatalIteration active pendingEvent error).Keeps workerDiscipline WorkerPhase.Inv ledger := by
  obtain ⟨rfl, hcancel, hfatal, live, hlive, h⟩ := hinv
  rw [← WorkerLedger.withLive_of_live hlive, fatalIteration.eq_def]
  split
  · exact h.keeps_leaveFatal hcancel
  · rename_i event hevent
    obtain ⟨e, rfl, rfl⟩ := pendingErrorEvent_eq_some hevent
    split
    · exact keeps_leaveLoop_some hcancel h.failing h.lease h.closable _
    · rename_i stream hstream
      obtain ⟨hattached, rfl⟩ := stream_eq_of_events h.events hstream
      refine keeps_perform ⟨live, rfl, rfl, hattached, h.lease, h.reports e rfl hattached⟩
        fun reply => ?_
      cases reply with
      | sent =>
        change (leaveFatal active _).Keeps workerDiscipline _
          (((ledger.withLive live).sends live.stream (.runtimeError e)).reports (.runtimeError e))
        rw [WorkerLedger.sends, WorkerLedger.onLive_withLive, if_pos rfl]
        exact @keeps_leaveFatal { ledger with fatal := some e }
          { live with sent := live.sent ++ [.runtimeError e] } active hcancel h.events h.failing
          h.lease h.closable _
      | full =>
        exact @keeps_fatalControls { ledger with fatal := some e } live active e h hcancel rfl
      | disconnected =>
        change (leaveFatal active _).Keeps workerDiscipline _
          (((ledger.withLive live).refuses live.stream).reports (.runtimeError e))
        rw [WorkerLedger.refuses, WorkerLedger.onLive_withLive, if_pos rfl]
        exact @keeps_leaveFatal { ledger with fatal := some e } { live with refused := true } active
          hcancel h.events h.failing h.lease h.closable _

end Fatal

/-! ### The loop of `worker_loop` -/

section Loop

variable {command : Option AdmittedWorkerCommand} {outcome : Option AdvanceOutcome}

/-- A request whose sender and pending event are dropped stays healthy. -/
theorem Tracks.detach (h : Tracks active live) :
    Tracks { active with events := none, pendingEvent := none } { live with attached := false } :=
  ⟨{ h.holds with }, rfl, fun _ => rfl, fun habsurd => (nomatch habsurd), h.delivers.queued⟩

theorem LoopHolds.withLive (h : LoopHolds state ledger) (htracks : Tracks active live) :
    LoopHolds { state with active := some active } (ledger.withLive live) :=
  { h with active := ⟨live, rfl, htracks⟩ }

theorem LoopHolds.exists_live (h : LoopHolds state ledger) (hactive : state.active = some active) :
    ∃ live, ledger.live = some live ∧ Tracks active live := by
  have hrequest := h.active
  rwa [hactive] at hrequest

theorem LoopHolds.live_eq_none (h : LoopHolds state ledger) (hactive : state.active = none) :
    ledger.live = none := by
  have hrequest := h.active
  rwa [hactive] at hrequest

/-- The end of a pass. -/
theorem keeps_waitStage (h : LoopHolds state ledger) (hcancel : ledger.cancel = none)
    {handled : Bool}
    (hidle : handled = false → ledger.controls ≠ .unknown ∧ ledger.starts ≠ .unknown)
    (houtcome : handled = false → outcome = none → state.active = none) :
    (waitStage state handled outcome).Keeps workerDiscipline WorkerPhase.Inv ledger := by
  rw [waitStage.eq_def]
  cases handled with
  | true => exact ⟨h, hcancel⟩
  | false =>
    rw [if_neg (by decide)]
    obtain ⟨hcontrols, hstarts⟩ := hidle rfl
    split
    · have hnone := houtcome rfl rfl
      have hlive := h.live_eq_none hnone
      refine keeps_perform ⟨hlive, hcontrols, hstarts⟩ fun reply => ?_
      cases reply with
      | true =>
        refine ⟨{ h with starts := fun hconnected => ?_, controls := fun hconnected => ?_ },
          hcancel⟩
        · change ledger.starts.afterWake = .disconnected
          rw [h.starts hconnected]
          rfl
        · change ledger.controls.afterWake = .disconnected
          rw [h.controls hconnected]
          rfl
      | false =>
        rw [hnone]
        exact @keeps_leaveLoop_none (ledger.step ⟨.receiveWake, false⟩) hlive hcancel _
    · exact keeps_perform trivial fun _ => ⟨h, hcancel⟩
    · exact ⟨h, hcancel⟩

/-- A pass from the check of the senders on. -/
theorem keeps_disconnectStage (h : LoopHolds state ledger) (hcancel : ledger.cancel = none)
    {handled : Bool}
    (hidle : handled = false → ledger.controls ≠ .unknown ∧ ledger.starts ≠ .unknown)
    (houtcome : handled = false → outcome = none → state.active = none) :
    (disconnectStage state handled outcome).Keeps workerDiscipline WorkerPhase.Inv ledger := by
  rw [disconnectStage]
  split
  · rename_i hdisconnected
    dsimp only
    split
    · have hclosing : LoopHolds { state with
          shutdownRequested := true
          shutdownError := some .commandChannelClosed } ledger := { h with }
      exact keeps_waitStage hclosing hcancel hidle houtcome
    · rename_i active hactive
      obtain ⟨live, hlive, htracks⟩ := h.exists_live hactive
      rw [← WorkerLedger.withLive_of_live hlive, Program.keeps_bind]
      refine (keeps_detach (.inr (.inr (.inr ⟨h.controls hdisconnected.2.1,
        h.starts hdisconnected.1⟩))) htracks.delivers.events).mono ?_
      rintro detached _ ⟨rfl, rfl⟩
      have hclosing : LoopHolds { state with
          shutdownRequested := true
          shutdownError := some .commandChannelClosed
          active := some { active with events := none, pendingEvent := none } }
          (ledger.withLive { live with attached := false }) :=
        { h with active := ⟨_, rfl, htracks.detach⟩ }
      refine keeps_waitStage hclosing hcancel hidle fun hhandled hnone => ?_
      cases hactive.symm.trans (houtcome hhandled hnone)
  · exact keeps_waitStage h hcancel hidle houtcome

/-- The command that the worker has received is in the ledger. -/
def Admitted (ledger : WorkerLedger) : Option AdmittedWorkerCommand → Prop
  | none => ledger.controls ≠ .unknown ∧ ledger.starts ≠ .unknown
  | some (.control _) => True
  | some (.start command) => ledger.start = some command

/-- The command in the worker's hand does not depend on the requests. -/
theorem Admitted.requests (h : Admitted ledger command) (live : Option LiveRequest)
    (finished : Option ℕ) : Admitted { ledger with live, finished } command := by
  rcases command with _ | ⟨command | command⟩
  · exact h
  · trivial
  · exact h

/-- A request that has just been started is healthy. -/
theorem tracks_started (identifier handle : ℕ) (command : StartCommand) :
    Tracks ⟨identifier, .started handle command.textTokenIds, some command.stream, none, 0, 0, none,
      false⟩ (.started identifier handle command) := by
  refine ⟨⟨rfl, rfl, rfl, rfl, rfl, rfl, rfl, rfl, rfl, fun _ habsurd => ?_, rfl, .inl rfl⟩, rfl,
    fun _ => rfl, fun _ => .idle rfl, fun habsurd => ?_⟩
  · cases habsurd
  · cases habsurd

/-- `start_request` for the command in the worker's hand. -/
theorem keeps_start {command : StartCommand} (hlive : ledger.live = none)
    (hstart : ledger.start = some command) :
    (Request.start command.textTokenIds command.randomSeed).Keeps workerDiscipline
      (fun started ledger' =>
        match started with
        | .ok request => ∃ handle, request = .started handle command.textTokenIds ∧
            ledger' = { ledger with start := none }.withLive
              (.started (ledger.issued + 1) handle command)
        | .error _ => ledger' = ledger)
      ledger := by
  rw [Request.start]
  split
  · rfl
  · refine keeps_perform ⟨hlive, command.stream, hstart⟩ fun reply => ?_
    rcases reply with error | _ | handle
    · rfl
    · rfl
    · have hlive' : ledger.start.map (.started (ledger.issued + 1) (handle + 1)) =
          some (LiveRequest.started (ledger.issued + 1) (handle + 1) command) := by
        rw [hstart]
        rfl
      exact ⟨handle + 1, rfl, congrArg (fun live => { ledger with start := none, live }) hlive'⟩

/-- A pass from the start of a request on. -/
theorem keeps_startStage (h : LoopHolds state ledger) (hcancel : ledger.cancel = none)
    (hcommand : Admitted ledger command) (houtcome : outcome = none → state.active = none) :
    (startStage state command outcome).Keeps workerDiscipline WorkerPhase.Inv ledger := by
  rw [startStage.eq_def]
  split
  · rename_i command
    have hrefuse : ∀ error, (do
        perform (.replyStart command.stream (.error error))
        disconnectStage state true outcome : Worker WorkerPhase).Keeps workerDiscipline
          WorkerPhase.Inv ledger := by
      intro error
      refine keeps_perform ⟨command, hcommand, rfl⟩ fun _ => ?_
      have hrefused : LoopHolds state { ledger with start := none } := { h with }
      exact keeps_disconnectStage hrefused hcancel (fun habsurd => nomatch habsurd)
        fun habsurd => nomatch habsurd
    split
    · exact hrefuse _
    · rename_i hidle
      split
      · exact hrefuse _
      · rw [not_or] at hidle
        have hnone : state.active = none := by simpa using hidle.1
        rw [Program.keeps_bind]
        refine (keeps_start (h.live_eq_none hnone) hcommand).mono ?_
        rintro (error | request) ledger'
        · rintro rfl
          refine keeps_perform ⟨command, hcommand, rfl⟩ fun _ => ?_
          rw [hnone]
          exact @keeps_leaveLoop_none
            { ledger' with start := none } (h.live_eq_none hnone) hcancel _
        · rintro ⟨handle, rfl, rfl⟩
          rw [← h.nextIdentifier]
          refine keeps_perform ⟨h.nextIdentifier, _, rfl, rfl, rfl⟩ fun _ => ?_
          have hstarted : LoopHolds { state with
              nextIdentifier := state.nextIdentifier + 1
              active := some ⟨state.nextIdentifier, .started handle command.textTokenIds,
                some command.stream, none, 0, 0, none, false⟩ }
              { ledger.withLive (.started state.nextIdentifier handle command) with
                start := none
                issued := state.nextIdentifier } :=
            { h with nextIdentifier := rfl, active := ⟨_, rfl, tracks_started _ _ _⟩ }
          exact keeps_disconnectStage hstarted hcancel (fun habsurd => nomatch habsurd)
            fun habsurd => nomatch habsurd
  · exact keeps_disconnectStage h hcancel (fun habsurd => nomatch habsurd)
      fun habsurd => nomatch habsurd
  · exact keeps_disconnectStage h hcancel (fun _ => hcommand) fun _ => houtcome

/-- A pass from the advance of the active request on. -/
theorem keeps_advanceStage (h : LoopHolds state ledger) (hcancel : ledger.cancel = none)
    (hcommand : Admitted ledger command) :
    (advanceStage state command).Keeps workerDiscipline WorkerPhase.Inv ledger := by
  rw [advanceStage]
  split
  · rename_i hnone
    split
    · exact keeps_leaveLoop_none (h.live_eq_none hnone) hcancel _
    · exact keeps_startStage h hcancel hcommand fun _ => hnone
  · rename_i active hactive
    obtain ⟨live, hlive, htracks⟩ := h.exists_live hactive
    rw [← WorkerLedger.withLive_of_live hlive, Program.keeps_bind]
    refine (keeps_advanceRequest htracks hcancel).mono ?_
    rintro ⟨advanced, error | outcome⟩ ledger'
    · rintro ⟨live', rfl, hfails⟩
      refine ⟨rfl, hcancel, fun e hfatal => ?_, live', rfl, { hfails with }⟩
      exact nomatch h.fatal.symm.trans hfatal
    · have hgoOn : (∃ live', ledger' = ledger.withLive live' ∧ Tracks advanced live') →
          (startStage { state with active := some advanced } command (some outcome)).Keeps
            workerDiscipline WorkerPhase.Inv ledger' := by
        rintro ⟨live', rfl, hadvanced⟩
        exact keeps_startStage (h.withLive hadvanced) hcancel
          (hcommand.requests (some live') ledger.finished) fun habsurd => nomatch habsurd
      cases outcome with
      | progressed => exact hgoOn
      | waited => exact hgoOn
      | backpressured => exact hgoOn
      | finished =>
        rintro ⟨rfl, hhandle, hpoisoned, hclose⟩
        change Program.Keeps _ _ (advanced.drop >>= fun _ => _) _
        rw [Program.keeps_bind]
        refine (keeps_drop_closed rfl hhandle hpoisoned hclose).mono ?_
        rintro _ _ rfl
        change Program.Keeps _ _ (if state.shutdownRequested = true then _ else _) _
        split
        · exact @keeps_leaveLoop_none
            { ledger with live := none, finished := some advanced.identifier } rfl hcancel _
        · have hidle : LoopHolds { state with
              mostRecentTerminalIdentifier := some advanced.identifier
              active := none }
              { ledger with live := none, finished := some advanced.identifier } :=
            { h with finished := rfl, active := rfl }
          exact keeps_startStage hidle hcancel
            (hcommand.requests none (some advanced.identifier)) fun habsurd => nomatch habsurd

/-- The answer to a cancel of a request that is not the active one. -/
theorem LoopHolds.answers_answerOther (h : LoopHolds state ledger) {requestId : ℕ}
    (hother : ∀ active, state.active = some active → active.identifier ≠ requestId) :
    ledger.Answers requestId (state.answerOther requestId) := by
  have hfilter : ledger.live.filter (·.identifier = requestId) = none := by
    rw [Option.filter_eq_none_iff]
    intro live hlive
    rcases hactive : state.active with _ | active
    · rw [h.live_eq_none hactive] at hlive
      cases hlive
    · obtain ⟨live', hlive', htracks⟩ := h.exists_live hactive
      rw [hlive'] at hlive
      cases hlive
      rw [htracks.holds.identifier]
      simpa using hother active hactive
  rw [WorkerLedger.Answers, h.fatal, hfilter, WorkerLoop.answerOther, h.finished]

/-- A pass from the receipt of a cancel on. -/
theorem keeps_cancelStage {requestId reply : ℕ} {control : ControlCommand}
    (h : LoopHolds state ledger) (hcancel : ledger.cancel = some (requestId, reply))
    (hclean : ∀ live, ledger.live = some live → live.cancelError = none) :
    (cancelStage state requestId reply (some (.control control))).Keeps workerDiscipline
      WorkerPhase.Inv ledger := by
  have hrest : ∀ {state : WorkerLoop} {ledger : WorkerLedger}, LoopHolds state ledger →
      (advanceStage state (some (.control control))).Keeps workerDiscipline WorkerPhase.Inv
        { ledger with cancel := none } := by
    intro state ledger h
    have hanswered : LoopHolds state { ledger with cancel := none } := { h with }
    exact keeps_advanceStage hanswered rfl trivial
  rw [cancelStage]
  split
  · rename_i active hactive
    obtain ⟨live, hlive, htracks⟩ := h.exists_live hactive
    split
    · rename_i hidentifier
      have hmay : ledger.cancel = some (live.identifier, reply) := by
        rw [hcancel, htracks.holds.identifier, hidentifier]
      rw [← WorkerLedger.withLive_of_live hlive, Program.keeps_bind]
      refine (keeps_cancelActiveRequest htracks (.inr ⟨reply, hmay⟩)).mono ?_
      rintro ⟨cancelled, result⟩ ledger' ⟨live', rfl, hsame, -, hresult, hleft⟩
      have hlive' : live'.identifier = requestId := by
        rw [hsame, htracks.holds.identifier, hidentifier]
      refine keeps_perform ⟨requestId, hcancel, ?_⟩ fun _ => ?_
      · have hfilter : (some live').filter (·.identifier = requestId) = some live' := by
          rw [Option.filter_some, if_pos (by simpa using hlive')]
        rw [WorkerLedger.Answers]
        simp only [WorkerLedger.withLive, h.fatal, hfilter]
        exact hresult (hclean live hlive)
      · have hloop : Tracks cancelled live' →
            (advanceStage { state with active := some cancelled }
              (some (.control control))).Keeps workerDiscipline WorkerPhase.Inv
              { ledger.withLive live' with cancel := none } :=
          fun htracks' => hrest (h.withLive htracks')
        cases result with
        | ok _ => exact hloop hleft
        | error error =>
          change Program.Keeps _ _ (if cancelErrorIsFatal error = true then _ else _) _
          split
          · rename_i hfatal
            refine ⟨rfl, rfl, fun e habsurd => ?_, live', rfl, { hleft.2 (.inr hfatal) with }⟩
            cases h.fatal.symm.trans habsurd
          · rename_i hharmless
            exact hloop (hleft.1 ⟨by rw [hcancel]; rfl, by simpa using hharmless⟩)
    · rename_i hother
      refine keeps_perform ⟨requestId, hcancel, h.answers_answerOther ?_⟩ fun _ => ?_
      · rintro active' hactive'
        rw [hactive] at hactive'
        cases hactive'
        exact hother
      · exact hrest h
  · rename_i hnone
    refine keeps_perform ⟨requestId, hcancel, h.answers_answerOther ?_⟩ fun _ => ?_
    · rintro active hactive
      cases hnone.symm.trans hactive
    · exact hrest h

/-- A pass from the receipt of a shutdown on. -/
theorem keeps_shutdownStage {control : ControlCommand} (h : LoopHolds state ledger)
    (hcancel : ledger.cancel = none) (hshutdown : ledger.shutdown = true) :
    (shutdownStage state (some (.control control))).Keeps workerDiscipline WorkerPhase.Inv
      ledger := by
  rw [shutdownStage]
  dsimp only
  split
  · have hclosing : LoopHolds { state with shutdownRequested := true } ledger := { h with }
    exact keeps_advanceStage hclosing hcancel trivial
  · rename_i active hactive
    obtain ⟨live, hlive, htracks⟩ := h.exists_live hactive
    rw [← WorkerLedger.withLive_of_live hlive, Program.keeps_bind]
    refine (keeps_detach (.inr (.inr (.inl hshutdown))) htracks.delivers.events).mono ?_
    rintro detached _ ⟨rfl, rfl⟩
    have hclosing : LoopHolds { state with
        shutdownRequested := true
        active := some { active with events := none, pendingEvent := none } }
        (ledger.withLive { live with attached := false }) :=
      { h with active := ⟨_, rfl, htracks.detach⟩ }
    exact keeps_advanceStage hclosing hcancel trivial

/-- The receipt of a start, or of nothing. -/
theorem keeps_tryReceiveStarts (h : LoopHolds state ledger) (hcancel : ledger.cancel = none)
    (hcontrols : ledger.controls ≠ .unknown) :
    (tryReceiveStarts state).Keeps workerDiscipline
      (fun received ledger' => LoopHolds received.1 ledger' ∧ ledger'.cancel = none ∧
        (∀ control, received.2 ≠ some (.control control)) ∧ Admitted ledger' received.2)
      ledger := by
  rw [tryReceiveStarts]
  split
  · rename_i hconnected
    refine keeps_perform trivial fun reply => ?_
    cases reply with
    | received command =>
      refine ⟨{ h with starts := fun habsurd => ?_ }, hcancel, (by rintro _ ⟨⟩), rfl⟩
      exact absurd (hconnected.symm.trans habsurd) (by decide)
    | empty =>
      refine ⟨{ h with starts := fun habsurd => ?_ }, hcancel, (by rintro _ ⟨⟩),
        hcontrols, nofun⟩
      exact absurd (hconnected.symm.trans habsurd) (by decide)
    | disconnected =>
      exact ⟨{ h with starts := fun _ => rfl }, hcancel, (by rintro _ ⟨⟩),
        hcontrols, nofun⟩
  · rename_i hconnected
    refine ⟨h, hcancel, (by rintro _ ⟨⟩), hcontrols, ?_⟩
    rw [h.starts (by simpa using hconnected)]
    decide

/-- A pass of the loop from the start channel on. -/
theorem keeps_startsOnward (h : LoopHolds state ledger) (hcancel : ledger.cancel = none)
    (hcontrols : ledger.controls ≠ .unknown) :
    (tryReceiveStarts state).Keeps workerDiscipline
      (fun received => (match received.2 with
        | some (.control (.cancel requestId reply)) =>
          cancelStage received.1 requestId reply received.2
        | some (.control (.shutdown _)) => shutdownStage received.1 received.2
        | _ => advanceStage received.1 received.2).Keeps workerDiscipline WorkerPhase.Inv)
      ledger := by
  refine (keeps_tryReceiveStarts h hcancel hcontrols).mono ?_
  rintro ⟨state', command⟩ ledger' ⟨h', hcancel', hnot, hadmitted⟩
  rcases command with _ | ⟨control | command⟩
  · exact keeps_advanceStage h' hcancel' hadmitted
  · exact absurd rfl (hnot control)
  · exact keeps_advanceStage h' hcancel' hadmitted

/-- One pass of the loop of `worker_loop`. -/
theorem keeps_loopIteration (h : LoopHolds state ledger) (hcancel : ledger.cancel = none) :
    (loopIteration state).Keeps workerDiscipline WorkerPhase.Inv ledger := by
  rw [loopIteration, Program.keeps_bind, tryReceivePrioritized]
  split
  · rename_i hconnected
    have hconnected' : state.controlsConnected = false → ∀ p : Prop, p := fun habsurd =>
      absurd (hconnected.symm.trans habsurd) (by decide)
    refine keeps_perform hcancel fun reply => ?_
    rcases reply with (⟨requestId, reply⟩ | reply) | _ | _
    · have hreceived : LoopHolds state
          { ledger.onLive fun live => { live with cancelError := none } with
            controls := .unknown
            cancel := some (requestId, reply) } := by
        refine { h with controls := fun habsurd => hconnected' habsurd _, active := ?_ }
        rcases hactive : state.active with _ | active
        · change ledger.live.map _ = none
          rw [h.live_eq_none hactive]
          rfl
        · obtain ⟨live, hlive, htracks⟩ := h.exists_live hactive
          refine ⟨{ live with cancelError := none }, ?_, ?_⟩
          · change ledger.live.map _ = _
            rw [hlive]
            rfl
          · exact ⟨{ htracks.holds with }, htracks.delivers.events, htracks.delivers.detached,
              fun hattached => (htracks.delivers.delivery hattached).congr rfl rfl rfl,
              htracks.delivers.queued⟩
      refine keeps_cancelStage hreceived rfl fun live hlive => ?_
      change ledger.live.map _ = some live at hlive
      rw [Option.map_eq_some_iff] at hlive
      obtain ⟨live', -, rfl⟩ := hlive
      rfl
    · have hreceived : LoopHolds state { ledger with controls := .unknown, shutdown := true } :=
        { h with controls := fun habsurd => hconnected' habsurd _ }
      exact keeps_shutdownStage hreceived hcancel rfl
    · have hreceived : LoopHolds state { ledger with controls := .empty } :=
        { h with controls := fun habsurd => hconnected' habsurd _ }
      exact keeps_startsOnward hreceived hcancel (by rintro ⟨⟩)
    · have hreceived : LoopHolds { state with controlsConnected := false }
          { ledger with controls := .disconnected } := { h with controls := fun _ => rfl }
      exact keeps_startsOnward hreceived hcancel (by rintro ⟨⟩)
  · rename_i hconnected
    refine keeps_startsOnward h hcancel ?_
    rw [h.controls (by simpa using hconnected)]
    decide

end Loop

end Passes

/-! ### Every interleaving -/

/-- **Every pass keeps the discipline**, whatever the replies are. -/
theorem keeps_pass (phase : WorkerPhase) (ledger : WorkerLedger) (h : phase.Inv ledger) :
    phase.pass.Keeps workerDiscipline WorkerPhase.Inv ledger := by
  cases phase with
  | loop state => exact keeps_loopIteration h.1 h.2
  | fatal active event error => exact keeps_fatalIteration h
  | returned result => trivial

namespace WorkerSystem

/-- The ledger of the worker's trace. -/
def ledger (system : WorkerSystem) : WorkerLedger :=
  system.worker.ledger workerDiscipline .initial

/-- The worker has kept the discipline, and its variables agree with the ledger. -/
def Disciplined (system : WorkerSystem) : Prop :=
  system.worker.Disciplined workerDiscipline .initial WorkerPhase.Inv

theorem disciplined_initial : initial.Disciplined := by
  refine ⟨trivial, ⟨rfl, rfl, rfl, fun habsurd => ?_, fun habsurd => ?_, rfl⟩, rfl⟩
  · cases habsurd
  · cases habsurd

theorem disciplined_step {system : WorkerSystem} (h : system.Disciplined) (action : WorkerAction) :
    (system.step action).Disciplined := by
  cases action with
  | worker replies => exact Thread.disciplined_advance h keeps_pass _
  | cancel stream requestId =>
    rw [step]
    split
    · exact h
    · exact h
  | shutdown =>
    rw [step]
    split
    · exact h
    · exact h
  | _ => exact h

/-- **Every interleaving keeps the discipline.** -/
theorem disciplined_run (actions : List WorkerAction) : (run step initial actions).Disciplined :=
  @run_induction _ _ step Disciplined (fun _ action h => disciplined_step h action) _
    disciplined_initial actions

end WorkerSystem

end MagpieTts.Rust
