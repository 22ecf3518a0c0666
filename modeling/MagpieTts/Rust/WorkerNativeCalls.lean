import MagpieTts.Rust.WorkerStreams

/-!
# The native calls of the inference worker

The calls of the worker on the native library come in a fixed order: a request is started, called,
and destroyed by one call; a lease is copied and released before any other call. The identifiers are
handed out one behind the other, and every cancel is answered before the next command is received.

## Main definitions

* `NativeState`, `NativeProtocol`: the order of the native calls.
* `issuedIdentifiers`: the identifiers that were handed out.
* `Answered`: the answer to a cancel.
* `WorkerNativeDiscipline`: the order of all calls of a trace.

## Main results

* `Orderly.nativeProtocol`: the calls of an orderly trace are in order.
* `Orderly.answered`: every cancel is answered before the next command.
* `nativeDiscipline_run`: every interleaving.
* `not_answered_ok_of_running`: a cancel of the active request that is not answered with OK.
-/

namespace MagpieTts.Rust

open MagpieTts.Library MagpieTts.Api

/-! ### The order of the native calls -/

/-- The native calls of a trace. -/
def nativeCalls (trace : WorkerTrace) : WorkerTrace := trace.filter (·.1.isNativeCall)

/-- The native request as its calls see it: there is none, it runs, a lease has been acquired and
perhaps been copied, or a release or the destruction has failed. -/
inductive NativeState where
  | idle
  | running (handle : ℕ)
  | leased (handle : ℕ) (raw : AudioLeaseV1) (copied : Bool)
  | stopped

/-- The order of the native calls. A lease is copied, or refused, and then released with its
identifier before any other call; a request is destroyed by one call; behind a failed release or a
failed destruction there is no call. -/
inductive NativeProtocol : WorkerTrace → NativeState → Prop
  | nil : NativeProtocol [] .idle
  | startFails {calls : WorkerTrace} (h : NativeProtocol calls .idle) (textTokenIds : List ℤ)
      (randomSeed : ℕ) {reply : Except Error ℕ} (hreply : ∀ handle, reply ≠ .ok (handle + 1)) :
      NativeProtocol (calls ++ [⟨.requestStart textTokenIds randomSeed, reply⟩]) .idle
  | starts {calls : WorkerTrace} (h : NativeProtocol calls .idle) (textTokenIds : List ℤ)
      (randomSeed handle : ℕ) :
      NativeProtocol (calls ++ [⟨.requestStart textTokenIds randomSeed, .ok (handle + 1)⟩])
        (.running (handle + 1))
  | cancels {calls : WorkerTrace} {handle : ℕ} (h : NativeProtocol calls (.running handle))
      (reply : Except Error Unit) :
      NativeProtocol (calls ++ [⟨.requestCancel handle, reply⟩]) (.running handle)
  | polls {calls : WorkerTrace} {handle : ℕ} (h : NativeProtocol calls (.running handle))
      (reply : Except Error PublicSnapshot) :
      NativeProtocol (calls ++ [⟨.requestPoll handle, reply⟩]) (.running handle)
  | waits {calls : WorkerTrace} {handle : ℕ} (h : NativeProtocol calls (.running handle))
      (afterRevision : ℕ) (reply : Except Error (Option PublicSnapshot)) :
      NativeProtocol (calls ++ [⟨.requestWait handle afterRevision, reply⟩]) (.running handle)
  | acquireFails {calls : WorkerTrace} {handle : ℕ} (h : NativeProtocol calls (.running handle))
      {reply : Except Error (Option AudioLeaseV1)} (hreply : ∀ raw, reply ≠ .ok (some raw)) :
      NativeProtocol (calls ++ [⟨.audioAcquire handle, reply⟩]) (.running handle)
  | acquires {calls : WorkerTrace} {handle : ℕ} (h : NativeProtocol calls (.running handle))
      (raw : AudioLeaseV1) :
      NativeProtocol (calls ++ [⟨.audioAcquire handle, .ok (some raw)⟩]) (.leased handle raw false)
  | copies {calls : WorkerTrace} {handle : ℕ} {raw : AudioLeaseV1}
      (h : NativeProtocol calls (.leased handle raw false)) (samples : List UInt32) :
      NativeProtocol (calls ++ [⟨.copySamples handle raw, samples⟩]) (.leased handle raw true)
  | releases {calls : WorkerTrace} {handle : ℕ} {raw : AudioLeaseV1} {copied : Bool}
      (h : NativeProtocol calls (.leased handle raw copied)) :
      NativeProtocol (calls ++ [⟨.audioRelease handle raw.leaseId, .ok ()⟩]) (.running handle)
  | releaseFails {calls : WorkerTrace} {handle : ℕ} {raw : AudioLeaseV1} {copied : Bool}
      (h : NativeProtocol calls (.leased handle raw copied)) (error : Error) :
      NativeProtocol (calls ++ [⟨.audioRelease handle raw.leaseId, .error error⟩]) .stopped
  | destroys {calls : WorkerTrace} {handle : ℕ} (h : NativeProtocol calls (.running handle)) :
      NativeProtocol (calls ++ [⟨.requestDestroy handle, .ok ()⟩]) .idle
  | destroyFails {calls : WorkerTrace} {handle : ℕ} (h : NativeProtocol calls (.running handle))
      (error : Error) :
      NativeProtocol (calls ++ [⟨.requestDestroy handle, .error error⟩]) .stopped

/-- The native request that the books describe. -/
def LiveRequest.nativeState (live : LiveRequest) : NativeState :=
  if live.stopped then
    .stopped
  else
    match live.lease with
    | none => .running live.handle
    | some raw => .leased live.handle raw live.copied

/-- The native request that the books describe, if there is one. -/
def WorkerLedger.nativeState (ledger : WorkerLedger) : NativeState :=
  match ledger.live with
  | none => .idle
  | some live => live.nativeState

section NativeState

variable {ledger : WorkerLedger} {live : LiveRequest}

theorem WorkerLedger.nativeState_of_none (h : ledger.live = none) : ledger.nativeState = .idle := by
  rw [nativeState, h]

theorem WorkerLedger.nativeState_of_live (h : ledger.live = some live) :
    ledger.nativeState = live.nativeState := by
  rw [nativeState, h]

theorem LiveRequest.nativeState_eq_running (hlease : live.lease = none)
    (hstopped : live.stopped = false) : live.nativeState = .running live.handle := by
  rw [nativeState, hstopped, hlease]
  rfl

theorem LiveRequest.nativeState_eq_leased {raw : AudioLeaseV1} (hlease : live.lease = some raw)
    (hstopped : live.stopped = false) :
    live.nativeState = .leased live.handle raw live.copied := by
  rw [nativeState, hstopped, hlease]
  rfl

theorem LiveRequest.nativeState_eq_stopped (hstopped : live.stopped = true) :
    live.nativeState = .stopped := by
  rw [nativeState, hstopped]
  rfl

theorem LiveRequest.Callable.nativeState_eq {handle : ℕ} (h : live.Callable handle) :
    live.nativeState = .running handle := by
  obtain ⟨rfl, hlease, hstopped⟩ := h
  exact nativeState_eq_running hlease hstopped

end NativeState

theorem nativeCalls_concat {trace : WorkerTrace}
    {entry : Performed WorkerOperation WorkerOperation.Reply} (h : entry.1.isNativeCall = true) :
    nativeCalls (trace ++ [entry]) = nativeCalls trace ++ [entry] := by
  rw [nativeCalls, List.filter_append, List.filter_singleton, h]
  rfl

theorem nativeCalls_concat_none {trace : WorkerTrace}
    {entry : Performed WorkerOperation WorkerOperation.Reply} (h : entry.1.isNativeCall = false) :
    nativeCalls (trace ++ [entry]) = nativeCalls trace := by
  rw [nativeCalls, List.filter_append, List.filter_singleton, h]
  exact List.append_nil _

/-- A request that has a lease goes on. -/
theorem Orderly.stopped_eq_false {trace : WorkerTrace} (h : Orderly trace) :
    ∀ live, (ledgerOf trace).live = some live → ∀ raw, live.lease = some raw →
      live.stopped = false := by
  refine Orderly.live_induction (P := fun _ live => ∀ raw, live.lease = some raw →
    live.stopped = false) (fun _ _ _ _ _ _ _ raw hraw => nomatch hraw) ?_ h
  intro trace entry live live' horderly hlive hstep ih raw hlease
  cases hstep with
  | cancels handle reply => cases reply <;> exact ih raw hlease
  | polled handle reply =>
    obtain ⟨snapshots, terminal, advertised, failing, heq, -⟩ := live.exists_polled _ reply
    rw [heq] at hlease ⊢
    exact ih raw hlease
  | waited handle afterRevision reply =>
    obtain ⟨snapshots, terminal, advertised, failing, heq, -⟩ :=
      live.exists_waited afterRevision reply
    rw [heq] at hlease ⊢
    exact ih raw hlease
  | acquires handle reply =>
    obtain ⟨live', hlive', ⟨-, -, hstopped⟩, -⟩ := horderly.allows
    cases hlive.symm.trans hlive'
    rcases reply with error | _ | raw' <;> exact hstopped
  | releases handle leaseId reply => cases reply <;> cases hlease
  | destroyFails handle error =>
    obtain ⟨live', hlive', ⟨-, hnone, -⟩, -⟩ := horderly.allows
    cases hlive.symm.trans hlive'
    exact nomatch hnone.symm.trans hlease
  | _ => exact ih raw hlease

/-- **The native calls of an orderly trace are in order.** -/
theorem Orderly.nativeProtocol {trace : WorkerTrace} (h : Orderly trace) :
    NativeProtocol (nativeCalls trace) (ledgerOf trace).nativeState := by
  refine Orderly.induction
    (P := fun trace ledger => NativeProtocol (nativeCalls trace) ledger.nativeState) .nil ?_ h
  intro trace entry horderly ih
  have hallows := horderly.allows
  have htransition := liveTransition hallows
  generalize hafter : ((ledgerOf trace).step entry).live = after at htransition
  generalize hlive : (ledgerOf trace).live = before at htransition
  cases htransition with
  | idle hsent hcall =>
    rw [WorkerLedger.nativeState_of_none hlive] at ih
    rw [nativeCalls_concat_none hcall, WorkerLedger.nativeState_of_none hafter]
    exact ih
  | startFails textTokenIds randomSeed hreply =>
    rw [WorkerLedger.nativeState_of_none hlive] at ih
    rw [nativeCalls_concat rfl, WorkerLedger.nativeState_of_none hafter]
    exact .startFails ih textTokenIds randomSeed hreply
  | starts textTokenIds randomSeed handle hstart =>
    rw [WorkerLedger.nativeState_of_none hlive] at ih
    rw [nativeCalls_concat rfl, WorkerLedger.nativeState_of_live hafter]
    exact .starts ih textTokenIds randomSeed handle
  | destroyed live =>
    obtain ⟨live', hlive', hcallable, -⟩ := hallows
    cases hlive.symm.trans hlive'
    rw [WorkerLedger.nativeState_of_live hlive, hcallable.nativeState_eq] at ih
    rw [nativeCalls_concat rfl, WorkerLedger.nativeState_of_none hafter]
    exact .destroys ih
  | lives hstep =>
    rename_i live live'
    rw [WorkerLedger.nativeState_of_live hlive] at ih
    rw [WorkerLedger.nativeState_of_live hafter]
    cases hstep with
    | same hsent hcall =>
      rw [nativeCalls_concat_none hcall]
      exact ih
    | command requestId reply =>
      rw [nativeCalls_concat_none rfl]
      exact ih
    | sent event =>
      rw [nativeCalls_concat_none rfl]
      exact ih
    | refused event =>
      rw [nativeCalls_concat_none rfl]
      exact ih
    | detached =>
      rw [nativeCalls_concat_none rfl]
      exact ih
    | cancels handle reply =>
      obtain ⟨live', hlive', hcallable, -⟩ := hallows
      cases hlive.symm.trans hlive'
      rw [hcallable.nativeState_eq] at ih
      have hsame : (live.cancels reply).Callable handle := by
        cases reply <;> exact hcallable
      rw [nativeCalls_concat rfl, hsame.nativeState_eq]
      exact .cancels ih reply
    | polled handle reply =>
      obtain ⟨live', hlive', hcallable, -⟩ := hallows
      cases hlive.symm.trans hlive'
      rw [hcallable.nativeState_eq] at ih
      obtain ⟨snapshots, terminal, advertised, failing, heq, -⟩ := live.exists_polled _ reply
      have hsame : (live.polled (ledgerOf trace).cancel.isSome reply).Callable handle := by
        rw [heq]
        exact hcallable
      rw [nativeCalls_concat rfl, hsame.nativeState_eq]
      exact .polls ih reply
    | waited handle afterRevision reply =>
      obtain ⟨live', hlive', hcallable, -⟩ := hallows
      cases hlive.symm.trans hlive'
      rw [hcallable.nativeState_eq] at ih
      obtain ⟨snapshots, terminal, advertised, failing, heq, -⟩ :=
        live.exists_waited afterRevision reply
      have hsame : (live.waited afterRevision reply).Callable handle := by
        rw [heq]
        exact hcallable
      rw [nativeCalls_concat rfl, hsame.nativeState_eq]
      exact .waits ih afterRevision reply
    | acquires handle reply =>
      obtain ⟨live', hlive', hcallable, -⟩ := hallows
      cases hlive.symm.trans hlive'
      rw [hcallable.nativeState_eq] at ih
      rw [nativeCalls_concat rfl]
      rcases reply with error | _ | raw
      · have hsame : (live.acquires (.error error)).Callable handle := hcallable
        rw [hsame.nativeState_eq]
        exact .acquireFails ih nofun
      · have hsame : (live.acquires (.ok none)).Callable handle := hcallable
        rw [hsame.nativeState_eq]
        exact .acquireFails ih nofun
      · obtain ⟨rfl, -, hstopped⟩ := hcallable
        have hleased : (live.acquires (.ok (some raw))).nativeState =
          .leased live.handle raw false := LiveRequest.nativeState_eq_leased rfl hstopped
        rw [hleased]
        exact .acquires ih raw
    | copies handle raw samples =>
      obtain ⟨live', hlive', rfl, hlease, hcopied⟩ := hallows
      cases hlive.symm.trans hlive'
      have hstopped := horderly.of_append.stopped_eq_false live hlive raw hlease
      rw [LiveRequest.nativeState_eq_leased hlease hstopped, hcopied] at ih
      have hleased : (live.copies raw samples).nativeState = .leased live.handle raw true :=
        LiveRequest.nativeState_eq_leased hlease hstopped
      rw [nativeCalls_concat rfl, hleased]
      exact .copies ih samples
    | releases handle leaseId reply =>
      obtain ⟨live', hlive', rfl, raw, hlease, rfl⟩ := hallows
      cases hlive.symm.trans hlive'
      have hstopped := horderly.of_append.stopped_eq_false live hlive raw hlease
      rw [LiveRequest.nativeState_eq_leased hlease hstopped] at ih
      rw [nativeCalls_concat rfl]
      cases reply with
      | ok _ =>
        have hrunning : (live.releases (.ok ())).nativeState = .running live.handle :=
          LiveRequest.nativeState_eq_running rfl hstopped
        rw [hrunning]
        exact .releases ih
      | error error =>
        have hdead : (live.releases (.error error)).nativeState = .stopped :=
          LiveRequest.nativeState_eq_stopped rfl
        rw [hdead]
        exact .releaseFails ih error
    | destroyFails handle error =>
      obtain ⟨live', hlive', hcallable, -⟩ := hallows
      cases hlive.symm.trans hlive'
      rw [hcallable.nativeState_eq] at ih
      rw [nativeCalls_concat rfl, LiveRequest.nativeState_eq_stopped rfl]
      exact .destroyFails ih error

/-! ### The identifiers -/

/-- The identifier that an operation hands out. -/
def issuedIdentifier? : Performed WorkerOperation WorkerOperation.Reply → Option ℕ
  | ⟨.replyStart _ (.ok identifier), _⟩ => some identifier
  | _ => none

/-- The identifiers that the worker has handed out. -/
def issuedIdentifiers (trace : WorkerTrace) : List ℕ := trace.filterMap issuedIdentifier?

/-- Only the reply to a start counts as an issue. -/
theorem issued_step {ledger : WorkerLedger}
    (entry : Performed WorkerOperation WorkerOperation.Reply) :
    (ledger.step entry).issued = (issuedIdentifier? entry).getD ledger.issued := by
  obtain ⟨operation, reply⟩ := entry
  cases operation with
  | tryReceiveControl => rcases reply with (⟨requestId, reply⟩ | reply) | _ | _ <;> rfl
  | tryReceiveStart => rcases reply with command | _ | _ <;> rfl
  | replyStart stream result => cases result <;> rfl
  | trySend stream event => cases reply <;> cases event <;> rfl
  | requestStart textTokenIds randomSeed => rcases reply with error | _ | handle <;> rfl
  | requestDestroy handle => cases reply <;> rfl
  | abort resource error => cases reply
  | _ => rfl

/-- **The identifiers are handed out one behind the other.** -/
theorem Orderly.issuedIdentifiers_eq {trace : WorkerTrace} (h : Orderly trace) :
    issuedIdentifiers trace = List.range' 1 (ledgerOf trace).issued := by
  refine Orderly.induction
    (P := fun trace ledger => issuedIdentifiers trace = List.range' 1 ledger.issued) rfl ?_ h
  intro trace entry horderly ih
  rw [issued_step, issuedIdentifiers, List.filterMap_append]
  change issuedIdentifiers trace ++ _ = _
  rw [ih]
  by_cases hissue : ∃ stream identifier, entry = ⟨.replyStart stream (.ok identifier), ()⟩
  · obtain ⟨stream, identifier, rfl⟩ := hissue
    obtain ⟨rfl, -⟩ := horderly.allows
    change _ ++ [_] = List.range' 1 ((ledgerOf trace).issued + 1)
    rw [List.range'_concat, Nat.one_mul, Nat.add_comm]
  · have hnone : issuedIdentifier? entry = none := by
      obtain ⟨operation, reply⟩ := entry
      cases operation with
      | replyStart stream result =>
        cases result with
        | ok identifier => exact absurd ⟨stream, identifier, rfl⟩ hissue
        | error error => rfl
      | _ => rfl
    rw [hnone, List.filterMap_cons_none hnone]
    exact List.append_nil _

/-! ### The cancels -/

/-- The worker may do this while a cancel waits for its answer. -/
def WorkerOperation.ServesCancel : WorkerOperation → Prop
  | tryReceiveControl | dropReceivers | replyCancel _ _ | requestCancel _ => False
  | _ => True

/-- The routing of the cancels. A received cancel waits until it is answered, and neither the next
control command is received nor the receivers are dropped before; meanwhile a native cancel goes to
the live request with the identifier of the command, and at other times to a live request whose
stream has lost its sender. -/
inductive CancelProtocol : WorkerTrace → Option (ℕ × ℕ) → Prop
  | nil : CancelProtocol [] none
  | receives {trace : WorkerTrace} (h : CancelProtocol trace none) (requestId reply : ℕ) :
      CancelProtocol (trace ++ [⟨.tryReceiveControl, .received (.cancel requestId reply)⟩])
        (some (requestId, reply))
  | answers {trace : WorkerTrace} {requestId reply : ℕ}
      (h : CancelProtocol trace (some (requestId, reply))) {result : Except WorkerError Unit}
      (hanswers : (ledgerOf trace).Answers requestId result) :
      CancelProtocol (trace ++ [⟨.replyCancel reply result, ()⟩]) none
  | cancelsCommanded {trace : WorkerTrace} {requestId reply : ℕ} {live : LiveRequest}
      (h : CancelProtocol trace (some (requestId, reply)))
      (hlive : (ledgerOf trace).live = some live) (hidentifier : live.identifier = requestId)
      (result : Except Error Unit) :
      CancelProtocol (trace ++ [⟨.requestCancel live.handle, result⟩]) (some (requestId, reply))
  | cancelsDetached {trace : WorkerTrace} {live : LiveRequest} (h : CancelProtocol trace none)
      (hlive : (ledgerOf trace).live = some live) (hdetached : live.attached = false)
      (result : Except Error Unit) :
      CancelProtocol (trace ++ [⟨.requestCancel live.handle, result⟩]) none
  | serves {trace : WorkerTrace} {pending : Option (ℕ × ℕ)} (h : CancelProtocol trace pending)
      {entry : Performed WorkerOperation WorkerOperation.Reply} (hserves : entry.1.ServesCancel) :
      CancelProtocol (trace ++ [entry]) pending
  | goesOn {trace : WorkerTrace} (h : CancelProtocol trace none)
      {entry : Performed WorkerOperation WorkerOperation.Reply}
      (hentry : entry.1 = .dropReceivers ∨ entry.1 = .tryReceiveControl ∧
        ∀ requestId reply, entry ≠ ⟨.tryReceiveControl, .received (.cancel requestId reply)⟩) :
      CancelProtocol (trace ++ [entry]) none

/-- Only a receipt and an answer change the cancel in the worker's hand. -/
theorem cancel_step {ledger : WorkerLedger}
    {entry : Performed WorkerOperation WorkerOperation.Reply} (h : entry.1.ServesCancel) :
    (ledger.step entry).cancel = ledger.cancel := by
  obtain ⟨operation, reply⟩ := entry
  cases operation with
  | tryReceiveControl => exact h.elim
  | replyCancel channel result => exact h.elim
  | requestCancel handle => exact h.elim
  | dropReceivers => exact h.elim
  | tryReceiveStart => rcases reply with command | _ | _ <;> rfl
  | replyStart stream result => cases result <;> rfl
  | trySend stream event => cases reply <;> cases event <;> rfl
  | requestStart textTokenIds randomSeed => rcases reply with error | _ | handle <;> rfl
  | requestDestroy handle => cases reply <;> rfl
  | abort resource error => cases reply
  | _ => rfl

/-- **The cancels of an orderly trace are routed by their identifiers.** -/
theorem Orderly.cancelProtocol {trace : WorkerTrace} (h : Orderly trace) :
    CancelProtocol trace (ledgerOf trace).cancel := by
  refine Orderly.induction (P := fun trace ledger => CancelProtocol trace ledger.cancel) .nil ?_ h
  intro trace entry horderly ih
  have hallows := horderly.allows
  by_cases hserves : entry.1.ServesCancel
  · rw [cancel_step hserves]
    exact .serves ih hserves
  obtain ⟨operation, reply⟩ := entry
  cases operation with
  | tryReceiveControl =>
    have hnone : (ledgerOf trace).cancel = none := hallows
    rw [hnone] at ih
    rcases reply with (⟨requestId, reply⟩ | reply) | _ | _
    · exact .receives ih requestId reply
    · change CancelProtocol _ (ledgerOf trace).cancel
      rw [hnone]
      exact .goesOn ih (.inr ⟨rfl, nofun⟩)
    · change CancelProtocol _ (ledgerOf trace).cancel
      rw [hnone]
      exact .goesOn ih (.inr ⟨rfl, nofun⟩)
    · change CancelProtocol _ (ledgerOf trace).cancel
      rw [hnone]
      exact .goesOn ih (.inr ⟨rfl, nofun⟩)
  | replyCancel channel result =>
    obtain ⟨requestId, hcancel, hanswers⟩ := hallows
    rw [hcancel] at ih
    exact .answers ih hanswers
  | requestCancel handle =>
    obtain ⟨live, hlive, ⟨rfl, -⟩, -, ⟨hnone, hdetached⟩ | ⟨channel, hcancel⟩⟩ := hallows
    · change CancelProtocol _ (ledgerOf trace).cancel
      rw [hnone] at ih ⊢
      exact .cancelsDetached ih hlive hdetached reply
    · change CancelProtocol _ (ledgerOf trace).cancel
      rw [hcancel] at ih ⊢
      exact .cancelsCommanded ih hlive rfl reply
  | dropReceivers =>
    change CancelProtocol _ (ledgerOf trace).cancel
    rw [hallows.2] at ih ⊢
    exact .goesOn ih (.inl rfl)
  | _ => exact absurd trivial hserves

/-! ### All calls -/

/-- The order of the calls of a worker. The identifiers are handed out one behind the other, each
for the request that lives; the cancels are routed by them; the native calls are in order; a request
is destroyed when a call on it has failed, or when its terminal snapshot has been observed and no
more audio of it is advertised; and when the worker returns, every request that was started has been
destroyed. -/
structure WorkerNativeDiscipline (trace : WorkerTrace) : Prop where
  identifiers : ∃ issued, issuedIdentifiers trace = List.range' 1 issued
  starts : ∀ before stream identifier after,
    trace = before ++ ⟨.replyStart stream (.ok identifier), ()⟩ :: after →
      ∃ live, (ledgerOf before).live = some live ∧ live.identifier = identifier ∧
        live.stream = stream
  cancels : ∃ pending, CancelProtocol trace pending
  calls : ∃ state, NativeProtocol (nativeCalls trace) state
  destroys : ∀ before handle reply after,
    trace = before ++ ⟨.requestDestroy handle, reply⟩ :: after →
      ∃ live, (ledgerOf before).live = some live ∧ live.handle = handle ∧
        (live.failing = true ∨ live.terminal.isSome = true ∧ live.Drained)
  returns : ∀ before after, trace = before ++ ⟨.dropReceivers, ()⟩ :: after →
    NativeProtocol (nativeCalls before) .idle

/-- **The calls of every interleaving are in order.** -/
theorem nativeDiscipline_run (actions : List WorkerAction) :
    WorkerNativeDiscipline (run WorkerSystem.step .initial actions).trace := by
  have h := orderly_run actions
  refine ⟨⟨_, h.issuedIdentifiers_eq⟩, ?_, ⟨_, h.cancelProtocol⟩, ⟨_, h.nativeProtocol⟩, ?_, ?_⟩
  · intro before stream identifier after htrace
    rw [htrace] at h
    obtain ⟨-, hlive⟩ := h.allows
    exact hlive
  · intro before handle reply after htrace
    rw [htrace] at h
    obtain ⟨live, hlive, ⟨hhandle, -⟩, hfailing | ⟨hdrained, snapshot, hterminal, -⟩⟩ := h.allows
    · exact ⟨live, hlive, hhandle, .inl hfailing⟩
    · exact ⟨live, hlive, hhandle, .inr ⟨by rw [hterminal]; rfl, hdrained⟩⟩
  · intro before after htrace
    rw [htrace] at h
    have hcalls := h.of_append.nativeProtocol
    rw [WorkerLedger.nativeState_of_none h.allows.1] at hcalls
    exact hcalls

/-! ### A native cancel that is refused while the request runs -/

/-- `request_cancel` returns `MTT_STATUS_INVALID_ARGUMENT` of the request stage. -/
def refusedCancelError : Error := .native ⟨"request_cancel", 1, 6, [33]⟩

/-- A native library that refuses the cancel of a request that runs. -/
def refusedCancelReplies : NativeReplies where
  start := .ok 1
  cancel := .error refusedCancelError
  poll := .ok (healthySnapshot 1 .running 0)
  wait := .ok none
  acquire := .ok none
  memory := fun _ => 0
  release := .ok ()
  destroy := .ok ()

/-- A synthesis that its owner cancels, up to the reply to the cancel. -/
def refusedCancelActions : List WorkerAction :=
  [.synthesize [7] 0, .notify ⟨0, some 0⟩] ++ List.replicate 5 (.worker refusedCancelReplies) ++
    [.cancel 0 1] ++ List.replicate 4 (.worker refusedCancelReplies)

/-- **A cancel of the active request is not always answered with OK.** -/
theorem not_answered_ok_of_running :
    ¬ ∀ (actions : List WorkerAction) (before after : WorkerTrace) (requestId reply : ℕ)
      (result : Except WorkerError Unit) (live : LiveRequest),
      (run WorkerSystem.step .initial actions).trace =
        before ++ ⟨.replyCancel reply result, ()⟩ :: after →
      (ledgerOf before).cancel = some (requestId, reply) → (ledgerOf before).live = some live →
      live.identifier = requestId → result = .ok () := by
  intro h
  obtain ⟨live, hlive, hidentifier⟩ : ∃ live,
      (ledgerOf (run WorkerSystem.step .initial refusedCancelActions).trace).live = some live ∧
        live.identifier = 1 := ⟨_, rfl, rfl⟩
  have hok := h (refusedCancelActions ++ [.worker refusedCancelReplies])
    (run WorkerSystem.step .initial refusedCancelActions).trace [] 1 1
    (.error (.runtime refusedCancelError)) live rfl rfl hlive hidentifier
  cases hok

end MagpieTts.Rust
