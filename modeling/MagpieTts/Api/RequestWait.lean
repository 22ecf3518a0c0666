import MagpieTts.Api.ErrorBuffer
import MagpieTts.Library.ExceptRules
import MagpieTts.Library.Run
import MagpieTts.Runtime.RequestSnapshots
import MagpieTts.Runtime.SynthesisErrors

/-!
# Waiting for a newer snapshot

`request_wait` of `magpie_tts_rt.cpp`: it checks its arguments, takes the mutex of the request, and
waits on the condition variable of the revision until the revision exceeds the one of the caller or
the timeout is over. The deadline is the clock at the start of the wait plus the timeout, in signed
64-bit nanoseconds. While the call waits, the mutex is free for the other calls on the request; a
wake-up may have any reason or none.

## Main definitions

* `addInt64`: addition of `std::chrono::nanoseconds`.
* `WaitArguments`, `WaitSystem`, `WaitAction`: the arguments of a call, the request with the clock
  and the call on it, and the steps of a run.
* `WaitSystem.step`: one step of the call, of another call on the request, or of the clock.
* `WaitsAsDocumented`: what the interface documents of a call.
* `DeadlineHolds`: the condition under which a deadline is worth its name.

## Main results

* `RequestHistory.revision_le_step`: no call on a request lowers its revision.
* `waitBounds_step`, `pointHolds_step`: what a step keeps, always and when the deadline holds.
* `documented_step`: a call whose deadline holds returns as documented.
* `requestWait_documented_iff`: the calls that wait as documented are those whose deadline holds.
-/

namespace MagpieTts.Runtime

/-! ### Revisions -/

namespace StreamingRequestState

variable (self : StreamingRequestState)

theorem revision_le_incrementRevision {β : Type} {revision : ℕ} {next : StreamingRequestState}
    (heq : next.revision = revision) (value : β) :
    revision ≤ (next.incrementRevision value).2.revision := by
  rw [incrementRevision_snd, ← heq]
  exact bumped_induction (P := fun t => next.revision ≤ t.revision) (Nat.le_refl _) (Nat.le_succ _)

theorem discardUnleasedAudio_revision :
    self.discardUnleasedAudio.2.revision = self.revision := by
  rw [discardUnleasedAudio]
  split <;> rfl

theorem completeCancellation_revision :
    self.completeCancellation.2.revision = self.revision := by
  have hdiscard := self.discardUnleasedAudio_revision
  rw [completeCancellation]
  split_ifs with hclosed
  · rfl
  · split <;> rename_i hresult <;> rw [hresult] at hdiscard <;> exact hdiscard

theorem revision_le_publish (chunk : AudioChunk) :
    self.revision ≤ (self.publish chunk).2.revision := by
  rw [publish]
  split_ifs with hcancelled
  · exact Nat.le_refl _
  · split
    · exact Nat.le_refl _
    · exact revision_le_incrementRevision (by exact rfl) true

theorem revision_le_requestCancellation :
    self.revision ≤ self.requestCancellation.2.revision := by
  have hdiscard := discardUnleasedAudio_revision { self with cancellationRequested := true }
  rw [requestCancellation]
  split_ifs with hcancelled hended hrequested
  · exact Nat.le_refl _
  · exact Nat.le_refl _
  · exact Nat.le_refl _
  · split <;> rename_i next hresult <;> rw [hresult] at hdiscard
    · exact Nat.le_of_eq hdiscard.symm
    · exact revision_le_incrementRevision hdiscard true

theorem revision_le_completeCancellationAfterDrain :
    self.revision ≤ self.completeCancellationAfterDrain.2.revision := by
  have hcomplete := self.completeCancellation_revision
  rw [completeCancellationAfterDrain]
  split_ifs with hclosed
  · exact Nat.le_refl _
  · split <;> rename_i next hresult <;> rw [hresult] at hcomplete
    · exact Nat.le_of_eq hcomplete.symm
    · exact revision_le_incrementRevision hcomplete true

theorem revision_le_fail (status stage : ℤ) (message : List UInt8) :
    self.revision ≤ (self.fail status stage message).2.revision := by
  have hdiscard := self.discardUnleasedAudio_revision
  rw [fail]
  split_ifs with hrejected hended
  · exact Nat.le_refl _
  · exact Nat.le_refl _
  · split <;> rename_i next hresult <;> rw [hresult] at hdiscard
    · exact Nat.le_of_eq hdiscard.symm
    · exact revision_le_incrementRevision (by exact hdiscard) ()

theorem revision_le_acquireAudio (ids : LeaseIdSequence) :
    self.revision ≤ (self.acquireAudio ids).2.1.revision := by
  rw [acquireAudio]
  split
  · exact Nat.le_refl _
  · split
    · exact Nat.le_refl _
    · dsimp only
      split_ifs with hreused
      · exact Nat.le_refl _
      · exact revision_le_incrementRevision (by exact rfl) _

theorem revision_le_releaseAudio (leaseId : ℕ) :
    self.revision ≤ (self.releaseAudio leaseId).2.revision := by
  rw [releaseAudio]
  split
  · exact Nat.le_refl _
  · split_ifs with hunderflow
    · exact Nat.le_refl _
    · exact revision_le_incrementRevision (by exact rfl) _

end StreamingRequestState

/-- No call on a request lowers its revision. -/
theorem RequestHistory.revision_le_step (h : RequestHistory) (c : RequestCall) :
    h.request.revision ≤ (h.step c).request.revision := by
  cases c with
  | publish chunk => exact h.request.revision_le_publish chunk
  | discardUnleasedAudio => exact Nat.le_of_eq h.request.discardUnleasedAudio_revision.symm
  | requestCancellation => exact h.request.revision_le_requestCancellation
  | completeCancellation => exact Nat.le_of_eq h.request.completeCancellation_revision.symm
  | completeCancellationAfterDrain =>
    exact h.request.revision_le_completeCancellationAfterDrain
  | fail status stage message => exact h.request.revision_le_fail status stage message
  | acquireAudio => exact h.request.revision_le_acquireAudio h.leaseIds
  | releaseAudio leaseId => exact h.request.revision_le_releaseAudio leaseId
  | drawElsewhere => exact Nat.le_refl _

end MagpieTts.Runtime

namespace MagpieTts.Api

open MagpieTts.Library MagpieTts.Runtime

/-! ### The call -/

/-- The largest `std::int64_t`. -/
def maximumInt64 : ℤ := 9223372036854775807

/-- Addition of `std::chrono::nanoseconds`, on signed 64-bit words. -/
def addInt64 (a b : ℤ) : ℤ :=
  (a + b + 9223372036854775808) % 18446744073709551616 - 9223372036854775808

/-- What the caller passes, besides the snapshot and the error buffer. -/
structure WaitArguments where
  requestIsNull : Bool
  afterRevision : ℕ
  timeoutNanoseconds : ℕ

/-- Where a call stands: in front of it; behind the checks; with the mutex, before the clock is
read; before the predicate is tested; blocked, without the mutex; awake again, before the clock is
compared; behind an expired deadline; after it. -/
inductive WaitPoint where
  | notCalled
  | checked
  | locked
  | testing (deadline : ℤ)
  | waiting (deadline : ℤ)
  | awake (deadline : ℤ)
  | expired
  | returned (status : ℤ)
  deriving DecidableEq

/-- The call holds the mutex of the request. -/
def WaitPoint.holdsMutex : WaitPoint → Bool
  | locked | testing _ | awake _ | expired => true
  | notCalled | checked | waiting _ | returned _ => false

/-- A request, the monotonic clock, and a call that waits on the request with the snapshot and the
error buffer of its caller. -/
structure WaitSystem where
  history : RequestHistory
  clock : ℤ
  snapshot : Option PublicSnapshot
  error : Option ErrorV1
  point : WaitPoint

/-- A step of the waiting call, a call of another thread on the request, or a tick of the clock. -/
inductive WaitAction where
  | enter
  | lock
  | readClock
  | test
  | wake
  | compareClock
  | testExpired
  | request (call : RequestCall)
  | tick (nanoseconds : ℕ)
  deriving DecidableEq

namespace WaitSystem

/-- `write_error` and the return of its status. -/
def failWith (s : WaitSystem) (failure : ApiFailure) : WaitSystem :=
  { s with
    error := writeError s.error failure.status failure.stage failure.message
    point := .returned failure.status }

/-- `validate_snapshot_output` behind the check of the error buffer, and the check of the
timeout. -/
def checkArguments (args : WaitArguments) (snapshot : Option PublicSnapshot) :
    Except ApiFailure Unit := do
  failIf (args.requestIsNull = true)
    (.text Status.invalidArgument Stage.request "request is null")
  failIf (snapshot = none)
    (.text Status.invalidArgument Stage.request "request snapshot is null")
  failIf (snapshot.any (fun output =>
      hasValidHeader output.structSize output.abiVersion requestSnapshotSize) = false)
    (.text Status.abiMismatch Stage.abi "request snapshot does not match ABI version 1")
  failIf (maximumInt64 < (args.timeoutNanoseconds : ℤ))
    (.text Status.invalidArgument Stage.request
      "wait timeout does not fit the runtime duration type")

/-- The call up to the mutex. -/
def enter (args : WaitArguments) (s : WaitSystem) : WaitSystem :=
  if errorIsUsable s.error = false then { s with point := .returned Status.abiMismatch }
  else
    let cleared := { s with error := clearError s.error }
    match checkArguments args s.snapshot with
    | .error failure => cleared.failWith failure
    | .ok () => { cleared with point := .checked }

/-- The end of a wait that has seen a newer revision. -/
def finish (s : WaitSystem) : WaitSystem :=
  match s.history.request.snapshot with
  | .error caught => s.failWith (.text Status.internalError Stage.request caught.what)
  | .ok result =>
      { s with snapshot := some (publicSnapshot result), point := .returned Status.ok }

/-- The deadline is over: the predicate is tested once more. -/
def timeOut (s : WaitSystem) : WaitSystem :=
  s.failWith ⟨Status.timeout, Stage.request, []⟩

/-- One step. A step that is not due does nothing: a call on the request needs the mutex, and the
clock does not leave its type. -/
def step (args : WaitArguments) (s : WaitSystem) : WaitAction → WaitSystem
  | .enter => if s.point = .notCalled then s.enter args else s
  | .lock => if s.point = .checked then { s with point := .locked } else s
  | .readClock =>
      if s.point = .locked then
        { s with point := .testing (addInt64 s.clock args.timeoutNanoseconds) }
      else s
  | .test =>
      match s.point with
      | .testing deadline =>
          if args.afterRevision < s.history.request.revision then s.finish
          else { s with point := .waiting deadline }
      | _ => s
  | .wake =>
      match s.point with
      | .waiting deadline => { s with point := .awake deadline }
      | _ => s
  | .compareClock =>
      match s.point with
      | .awake deadline =>
          if s.clock < deadline then { s with point := .testing deadline }
          else { s with point := .expired }
      | _ => s
  | .testExpired =>
      if s.point = .expired then
        if args.afterRevision < s.history.request.revision then s.finish else s.timeOut
      else s
  | .request call =>
      if s.point.holdsMutex then s else { s with history := s.history.step call }
  | .tick nanoseconds =>
      if s.clock + nanoseconds ≤ maximumInt64 then { s with clock := s.clock + nanoseconds } else s

end WaitSystem

/-! ### What the interface documents -/

/-- The call passes the checks in front of the wait. -/
def Accepts (args : WaitArguments) (entry : WaitSystem) : Prop :=
  errorIsUsable entry.error = true ∧
    WaitSystem.checkArguments args entry.snapshot = .ok ()

/-- What is documented of a call that is entered in `entry` and whose last step leads from `last` to
`after`, where it has returned `status`. -/
structure ReturnsAsDocumented (args : WaitArguments) (entry last after : WaitSystem) (status : ℤ) :
    Prop where
  ok : status = Status.ok → ∃ result, last.history.request.snapshot = .ok result ∧
    args.afterRevision < result.revision ∧ after.snapshot = some (publicSnapshot result)
  timeout : status = Status.timeout → last.history.request.revision ≤ args.afterRevision ∧
    entry.clock + args.timeoutNanoseconds ≤ last.clock
  unchanged : status ≠ Status.ok → after.snapshot = entry.snapshot
  newer : Accepts args entry → args.afterRevision < entry.history.request.revision →
    status = Status.ok ∨ ∃ caught, last.history.request.snapshot = .error caught

/-- Every return in the run of `actions` is documented, and a call that finds a newer revision on
its entry never waits. -/
structure WaitsAsDocumented (args : WaitArguments) (entry : WaitSystem)
    (actions : List WaitAction) : Prop where
  returns : ∀ before a rest status, actions = before ++ a :: rest →
    (∀ earlier, (run (WaitSystem.step args) entry before).point ≠ .returned earlier) →
    ((run (WaitSystem.step args) entry before).step args a).point = .returned status →
      ReturnsAsDocumented args entry (run (WaitSystem.step args) entry before)
        ((run (WaitSystem.step args) entry before).step args a) status
  immediate : args.afterRevision < entry.history.request.revision →
    ∀ before rest deadline, actions = before ++ rest →
      (run (WaitSystem.step args) entry before).point ≠ .waiting deadline

/-- The deadline that the call computes in `s` is worth its name: the sum fits its type, or it does
not matter, because a newer revision exists or the timeout is over since the entry. -/
def DeadlineHolds (args : WaitArguments) (entry s : WaitSystem) : Prop :=
  s.clock + args.timeoutNanoseconds ≤ maximumInt64 ∨
    args.afterRevision < s.history.request.revision ∨
    entry.clock + args.timeoutNanoseconds ≤ s.clock

/-! ### What every call keeps -/

variable {args : WaitArguments} {entry s : WaitSystem}

theorem addInt64_eq {a b : ℤ} (hlow : -9223372036854775808 ≤ a + b) (hhigh : a + b ≤ maximumInt64) :
    addInt64 a b = a + b := by
  rw [maximumInt64] at hhigh
  rw [addInt64]
  omega

theorem addInt64_le_of_overflow {a b : ℤ} (ha : a ≤ maximumInt64) (hb : b ≤ maximumInt64)
    (hoverflow : maximumInt64 < a + b) : addInt64 a b ≤ a := by
  rw [maximumInt64] at ha hb hoverflow
  rw [addInt64]
  omega

theorem checkArguments_timeout (h : Accepts args entry) :
    (args.timeoutNanoseconds : ℤ) ≤ maximumInt64 := by
  obtain ⟨-, hchecks⟩ := h
  simp only [WaitSystem.checkArguments, bind_eq_ok_iff, failIf_eq_ok_iff] at hchecks
  obtain ⟨_, -, _, -, _, -, htimeout⟩ := hchecks
  exact not_lt.mp htimeout

/-- The call has passed the checks and has not returned. -/
def WaitPoint.inside : WaitPoint → Bool
  | notCalled | returned _ => false
  | checked | locked | testing _ | waiting _ | awake _ | expired => true

/-- What holds at every point of a call that was entered in `entry`. -/
structure WaitBounds (args : WaitArguments) (entry s : WaitSystem) : Prop where
  clock_le : entry.clock ≤ s.clock
  clock_le_maximum : s.clock ≤ maximumInt64
  revision_le : entry.history.request.revision ≤ s.history.request.revision
  fresh : s.point = .notCalled → s.error = entry.error
  unchanged : (∀ status, s.point ≠ .returned status) → s.snapshot = entry.snapshot
  accepted : s.point.inside = true → Accepts args entry

/-- The deadline is not over before the timeout is. -/
def Due (args : WaitArguments) (entry s : WaitSystem) (deadline : ℤ) : Prop :=
  entry.clock + args.timeoutNanoseconds ≤ deadline ∨
    entry.clock + args.timeoutNanoseconds ≤ s.clock

/-- What holds at each point of a call whose deadline holds. -/
def PointHolds (args : WaitArguments) (entry s : WaitSystem) : Prop :=
  match s.point with
  | .testing deadline =>
      args.afterRevision < s.history.request.revision ∨ Due args entry s deadline
  | .waiting deadline | .awake deadline =>
      entry.history.request.revision ≤ args.afterRevision ∧ Due args entry s deadline
  | .expired =>
      entry.history.request.revision ≤ args.afterRevision ∧
        entry.clock + args.timeoutNanoseconds ≤ s.clock
  | .notCalled | .checked | .locked | .returned _ => True

theorem WaitSystem.finish_point (s : WaitSystem) :
    s.finish.point = .returned Status.ok ∨ s.finish.point = .returned Status.internalError := by
  rw [finish]
  split
  · exact Or.inr rfl
  · exact Or.inl rfl

theorem WaitSystem.finish_clock (s : WaitSystem) : s.finish.clock = s.clock := by
  rw [finish]
  split <;> rfl

theorem WaitSystem.finish_history (s : WaitSystem) : s.finish.history = s.history := by
  rw [finish]
  split <;> rfl

/-- A step that only moves the call, between two points inside it. -/
theorem WaitBounds.move {point : WaitPoint} (hs : WaitBounds args entry s)
    (hfrom : s.point.inside = true) (hto : point.inside = true) :
    WaitBounds args entry { s with point := point } where
  clock_le := hs.clock_le
  clock_le_maximum := hs.clock_le_maximum
  revision_le := hs.revision_le
  fresh := fun h => by rw [show point = .notCalled from h] at hto; cases hto
  unchanged := fun _ => hs.unchanged fun status h => by rw [h] at hfrom; cases hfrom
  accepted := fun _ => hs.accepted hfrom

/-- A step with which the call returns. -/
theorem WaitBounds.of_returned {t : WaitSystem} {status : ℤ} (hs : WaitBounds args entry s)
    (hclock : t.clock = s.clock) (hhistory : t.history = s.history)
    (hpoint : t.point = .returned status) : WaitBounds args entry t where
  clock_le := hclock ▸ hs.clock_le
  clock_le_maximum := hclock ▸ hs.clock_le_maximum
  revision_le := hhistory ▸ hs.revision_le
  fresh := fun h => by rw [hpoint] at h; cases h
  unchanged := fun h => absurd hpoint (h status)
  accepted := fun h => by rw [hpoint] at h; cases h

theorem WaitBounds.finish (hs : WaitBounds args entry s) : WaitBounds args entry s.finish := by
  rcases s.finish_point with hpoint | hpoint
  · exact hs.of_returned s.finish_clock s.finish_history hpoint
  · exact hs.of_returned s.finish_clock s.finish_history hpoint

theorem WaitBounds.enter (hs : WaitBounds args entry s) (hpoint : s.point = .notCalled) :
    WaitBounds args entry (s.enter args) := by
  have hsnapshot : s.snapshot = entry.snapshot :=
    hs.unchanged fun status h => by rw [hpoint] at h; cases h
  rw [WaitSystem.enter]
  split_ifs with husable
  · exact hs.of_returned rfl rfl rfl
  · split
    · exact hs.of_returned rfl rfl rfl
    · rename_i hchecks
      rw [hsnapshot] at hchecks
      rw [hs.fresh hpoint, Bool.not_eq_false] at husable
      exact ⟨hs.clock_le, hs.clock_le_maximum, hs.revision_le, fun h => (nomatch h),
        fun _ => hsnapshot, fun _ => ⟨husable, hchecks⟩⟩

/-- Every step keeps the bounds. -/
theorem waitBounds_step (args : WaitArguments) (s : WaitSystem) (a : WaitAction)
    (hs : WaitBounds args entry s) : WaitBounds args entry (s.step args a) := by
  cases a with
  | enter =>
    rw [WaitSystem.step]
    split_ifs with hpoint
    · exact hs.enter hpoint
    · exact hs
  | lock =>
    rw [WaitSystem.step]
    split_ifs with hpoint
    · exact hs.move (by rw [hpoint]; rfl) rfl
    · exact hs
  | readClock =>
    rw [WaitSystem.step]
    split_ifs with hpoint
    · exact hs.move (by rw [hpoint]; rfl) rfl
    · exact hs
  | test =>
    rw [WaitSystem.step]
    split
    · rename_i hpoint
      split_ifs with hnewer
      · exact hs.finish
      · exact hs.move (by rw [hpoint]; rfl) rfl
    · exact hs
  | wake =>
    rw [WaitSystem.step]
    split
    · rename_i hpoint
      exact hs.move (by rw [hpoint]; rfl) rfl
    · exact hs
  | compareClock =>
    rw [WaitSystem.step]
    split
    · rename_i hpoint
      split_ifs with hearly
      · exact hs.move (by rw [hpoint]; rfl) rfl
      · exact hs.move (by rw [hpoint]; rfl) rfl
    · exact hs
  | testExpired =>
    rw [WaitSystem.step]
    split_ifs with hpoint hnewer
    · exact hs.finish
    · exact hs.of_returned rfl rfl rfl
    · exact hs
  | request call =>
    rw [WaitSystem.step]
    split_ifs with hmutex
    · exact hs
    · exact ⟨hs.clock_le, hs.clock_le_maximum,
        Nat.le_trans hs.revision_le (s.history.revision_le_step call), hs.fresh, hs.unchanged,
        hs.accepted⟩
  | tick nanoseconds =>
    rw [WaitSystem.step]
    split_ifs with hroom
    · exact ⟨hs.clock_le.trans (by dsimp only; omega), hroom, hs.revision_le, hs.fresh,
        hs.unchanged, hs.accepted⟩
    · exact hs

/-! ### What a call keeps whose deadline holds -/

/-- The deadline of a call holds when the call computes it. -/
def ComputesDeadline (args : WaitArguments) (entry s : WaitSystem) (a : WaitAction) : Prop :=
  a = .readClock → s.point = .locked → DeadlineHolds args entry s

theorem Due.mono {t : WaitSystem} {deadline : ℤ} (h : Due args entry s deadline)
    (hle : s.clock ≤ t.clock) : Due args entry t deadline :=
  h.imp_right fun hover => hover.trans hle

/-- The deadline that a call computes. -/
theorem due_of_deadlineHolds (hs : WaitBounds args entry s)
    (hlow : -9223372036854775808 ≤ entry.clock)
    (hholds : DeadlineHolds args entry s) :
    args.afterRevision < s.history.request.revision ∨
      Due args entry s (addInt64 s.clock args.timeoutNanoseconds) := by
  have hclock := hs.clock_le
  rcases hholds with hfits | hnewer | hover
  · rw [addInt64_eq (by omega) hfits]
    exact Or.inr (Or.inl (by omega))
  · exact Or.inl hnewer
  · exact Or.inr (Or.inr hover)

/-- Every step keeps what holds at the points of a call whose deadline holds. -/
theorem pointHolds_step (hs : WaitBounds args entry s) (hlow : -9223372036854775808 ≤ entry.clock)
    (hpoint : PointHolds args entry s) {a : WaitAction} (ha : ComputesDeadline args entry s a) :
    PointHolds args entry (s.step args a) := by
  cases a with
  | enter =>
    rw [WaitSystem.step]
    split_ifs with hfresh
    · rw [WaitSystem.enter]
      split_ifs with husable
      · trivial
      · split <;> trivial
    · exact hpoint
  | lock =>
    rw [WaitSystem.step]
    split_ifs with hchecked
    · trivial
    · exact hpoint
  | readClock =>
    rw [WaitSystem.step]
    split_ifs with hlocked
    · have hdue := due_of_deadlineHolds hs hlow (ha rfl hlocked)
      exact hdue
    · exact hpoint
  | test =>
    rw [WaitSystem.step]
    split
    · rename_i deadline htesting
      rw [PointHolds, htesting] at hpoint
      split_ifs with hnewer
      · rcases s.finish_point with h | h <;> rw [PointHolds, h] <;> trivial
      · have hrevision := hs.revision_le
        exact ⟨by omega, hpoint.resolve_left hnewer⟩
    · exact hpoint
  | wake =>
    rw [WaitSystem.step]
    split
    · rename_i deadline hwaiting
      rw [PointHolds, hwaiting] at hpoint
      exact hpoint
    · exact hpoint
  | compareClock =>
    rw [WaitSystem.step]
    split
    · rename_i deadline hawake
      rw [PointHolds, hawake] at hpoint
      split_ifs with hearly
      · exact Or.inr hpoint.2
      · exact ⟨hpoint.1, hpoint.2.elim (fun h => h.trans (not_lt.mp hearly)) id⟩
    · exact hpoint
  | testExpired =>
    rw [WaitSystem.step]
    split_ifs with hexpired hnewer
    · rcases s.finish_point with h | h <;> rw [PointHolds, h] <;> trivial
    · trivial
    · exact hpoint
  | request call =>
    rw [WaitSystem.step]
    split_ifs with hmutex
    · exact hpoint
    · rw [PointHolds] at hpoint ⊢
      -- the points that speak of the revision hold the mutex
      cases hp : s.point <;> simp only [hp] at hpoint ⊢
      case testing deadline => exact absurd (hp ▸ rfl) hmutex
      all_goals exact hpoint
  | tick nanoseconds =>
    rw [WaitSystem.step]
    split_ifs with hroom
    · have hle : s.clock ≤ s.clock + nanoseconds := by omega
      rw [PointHolds] at hpoint ⊢
      cases hp : s.point <;> simp only [hp] at hpoint ⊢
      case testing deadline => exact hpoint.imp_right fun h => h.mono hle
      case waiting deadline => exact ⟨hpoint.1, hpoint.2.mono hle⟩
      case awake deadline => exact ⟨hpoint.1, hpoint.2.mono hle⟩
      case expired => exact ⟨hpoint.1, hpoint.2.trans hle⟩
    · exact hpoint

/-! ### Returns -/

/-- A wait that has seen a newer revision returns as documented. -/
theorem documented_finish (hs : WaitBounds args entry s)
    (hopen : ∀ status, s.point ≠ .returned status)
    (hnewer : args.afterRevision < s.history.request.revision) {status : ℤ}
    (hstatus : s.finish.point = .returned status) :
    ReturnsAsDocumented args entry s s.finish status := by
  have hsnapshot := hs.unchanged hopen
  rw [WaitSystem.finish] at hstatus ⊢
  cases hresult : s.history.request.snapshot with
  | error caught =>
    simp only [hresult] at hstatus ⊢
    obtain rfl : Status.internalError = status := WaitPoint.returned.inj hstatus
    exact ⟨fun h => absurd h (by decide), fun h => absurd h (by decide), fun _ => hsnapshot,
      fun _ _ => Or.inr ⟨caught, hresult⟩⟩
  | ok result =>
    simp only [hresult] at hstatus ⊢
    obtain rfl : Status.ok = status := WaitPoint.returned.inj hstatus
    have hrevision : result.revision = s.history.request.revision := by
      rw [StreamingRequestState.snapshot] at hresult
      split_ifs at hresult
      exact (congrArg RequestStateSnapshot.revision (Except.ok.inj hresult)).symm
    exact ⟨fun _ => ⟨result, hresult, hrevision ▸ hnewer, rfl⟩, fun h => absurd h (by decide),
      fun h => absurd rfl h, fun _ _ => Or.inl rfl⟩

theorem checkArguments_failsWith (args : WaitArguments) (snapshot : Option PublicSnapshot) :
    FailsWith (fun failure => failure.status = Status.invalidArgument ∨
      failure.status = Status.abiMismatch) (WaitSystem.checkArguments args snapshot) := by
  simp only [WaitSystem.checkArguments, failsWith_bind_iff, failsWith_failIf_iff]
  exact ⟨fun _ => Or.inl rfl, fun _ _ => ⟨fun _ => Or.inl rfl, fun _ _ =>
    ⟨fun _ => Or.inr rfl, fun _ _ _ => Or.inl rfl⟩⟩⟩

/-- A call that the checks reject returns as documented. -/
theorem documented_enter (hs : WaitBounds args entry s) (hpoint : s.point = .notCalled)
    {status : ℤ} (hstatus : (s.enter args).point = .returned status) :
    ReturnsAsDocumented args entry s (s.enter args) status := by
  have hsnapshot : s.snapshot = entry.snapshot :=
    hs.unchanged fun status h => by rw [hpoint] at h; cases h
  rw [WaitSystem.enter] at hstatus ⊢
  split_ifs at hstatus ⊢ with husable
  · obtain rfl : Status.abiMismatch = status := WaitPoint.returned.inj hstatus
    refine ⟨fun h => absurd h (by decide), fun h => absurd h (by decide), fun _ => hsnapshot,
      fun h _ => ?_⟩
    rw [hs.fresh hpoint, h.1] at husable
    cases husable
  · cases hchecks : WaitSystem.checkArguments args s.snapshot with
    | ok _ =>
      simp only [hchecks] at hstatus
      cases hstatus
    | error failure =>
      simp only [hchecks] at hstatus ⊢
      obtain rfl : failure.status = status := WaitPoint.returned.inj hstatus
      have hrejected : failure.status ≠ Status.ok ∧ failure.status ≠ Status.timeout := by
        rcases checkArguments_failsWith args _ _ hchecks with h | h <;> rw [h] <;> decide
      refine ⟨fun h => absurd h hrejected.1, fun h => absurd h hrejected.2, fun _ => hsnapshot,
        fun h _ => ?_⟩
      rw [hsnapshot, h.2] at hchecks
      cases hchecks

/-- A call whose deadline holds returns as documented. -/
theorem documented_step (hs : WaitBounds args entry s) (hpoint : PointHolds args entry s)
    (hopen : ∀ status, s.point ≠ .returned status) {a : WaitAction} {status : ℤ}
    (hstatus : (s.step args a).point = .returned status) :
    ReturnsAsDocumented args entry s (s.step args a) status := by
  cases a with
  | enter =>
    rw [WaitSystem.step] at hstatus ⊢
    split_ifs at hstatus ⊢ with hfresh
    · exact documented_enter hs hfresh hstatus
    · exact absurd hstatus (hopen status)
  | lock =>
    rw [WaitSystem.step] at hstatus
    split_ifs at hstatus with hchecked
    exact absurd hstatus (hopen status)
  | readClock =>
    rw [WaitSystem.step] at hstatus
    split_ifs at hstatus with hlocked
    exact absurd hstatus (hopen status)
  | test =>
    rw [WaitSystem.step] at hstatus ⊢
    split at hstatus
    · split_ifs at hstatus ⊢ with hnewer
      exact documented_finish hs hopen hnewer hstatus
    · exact absurd hstatus (hopen status)
  | wake =>
    rw [WaitSystem.step] at hstatus
    split at hstatus
    · cases hstatus
    · exact absurd hstatus (hopen status)
  | compareClock =>
    rw [WaitSystem.step] at hstatus
    split at hstatus
    · split_ifs at hstatus
    · exact absurd hstatus (hopen status)
  | testExpired =>
    rw [WaitSystem.step] at hstatus ⊢
    split_ifs at hstatus ⊢ with hexpired hnewer
    · exact documented_finish hs hopen hnewer hstatus
    · obtain rfl : Status.timeout = status := WaitPoint.returned.inj hstatus
      rw [PointHolds, hexpired] at hpoint
      exact ⟨fun h => absurd h (by decide), fun _ => ⟨not_lt.mp hnewer, hpoint.2⟩,
        fun _ => hs.unchanged hopen, fun _ h => absurd h (Nat.not_lt.mpr hpoint.1)⟩
    · exact absurd hstatus (hopen status)
  | request call =>
    rw [WaitSystem.step] at hstatus
    split_ifs at hstatus <;> exact absurd hstatus (hopen status)
  | tick nanoseconds =>
    rw [WaitSystem.step] at hstatus
    split_ifs at hstatus <;> exact absurd hstatus (hopen status)

/-! ### Whole calls -/

/-- A call about to be entered, with the clock in its type. -/
structure ReadyToEnter (entry : WaitSystem) : Prop where
  point : entry.point = .notCalled
  clock_low : -9223372036854775808 ≤ entry.clock
  clock_high : entry.clock ≤ maximumInt64

theorem ReadyToEnter.bounds (h : ReadyToEnter entry) : WaitBounds args entry entry where
  clock_le := le_rfl
  clock_le_maximum := h.clock_high
  revision_le := le_rfl
  fresh := fun _ => rfl
  unchanged := fun _ => rfl
  accepted := fun hinside => by rw [h.point] at hinside; cases hinside

theorem waitBounds_run (h : ReadyToEnter entry) (actions : List WaitAction) :
    WaitBounds args entry (run (WaitSystem.step args) entry actions) :=
  run_induction (waitBounds_step args) h.bounds actions

/-- A call whose deadline holds keeps the bounds and what holds at its points. -/
theorem pointHolds_run (h : ReadyToEnter entry) (actions : List WaitAction)
    (hdeadline : StepsMeet (WaitSystem.step args) (ComputesDeadline args entry) entry actions) :
    PointHolds args entry (run (WaitSystem.step args) entry actions) := by
  refine (run_induction_of_stepsMeet
    (I := fun s => WaitBounds args entry s ∧ PointHolds args entry s)
    (fun s a hs ha => ⟨waitBounds_step args s a hs.1, pointHolds_step hs.1 h.clock_low hs.2 ha⟩)
    ⟨h.bounds, ?_⟩ actions hdeadline).2
  rw [PointHolds, h.point]
  trivial

/-- Every call whose deadline holds waits and returns as documented. -/
theorem waitsAsDocumented_of_deadline (h : ReadyToEnter entry) {actions : List WaitAction}
    (hdeadline : StepsMeet (WaitSystem.step args) (ComputesDeadline args entry) entry actions) :
    WaitsAsDocumented args entry actions where
  returns := by
    rintro before a rest status rfl hopen hstatus
    rw [stepsMeet_append] at hdeadline
    exact documented_step (waitBounds_run h before) (pointHolds_run h before hdeadline.1) hopen
      hstatus
  immediate := by
    rintro hnewer before rest deadline rfl hwaiting
    rw [stepsMeet_append] at hdeadline
    have hpoint := pointHolds_run h before hdeadline.1
    rw [PointHolds, hwaiting] at hpoint
    exact absurd hnewer (Nat.not_lt.mpr hpoint.1)

/-- The steps of a call that is woken once, at once. -/
def earlyTimeout : List WaitAction := [.test, .wake, .compareClock]

/-- A call whose deadline does not hold has a run in which it times out too early. -/
theorem not_documented_of_not_deadlineHolds (h : ReadyToEnter entry) {during : List WaitAction}
    (hlocked : (run (WaitSystem.step args) entry during).point = .locked)
    (hdeadline : ¬ DeadlineHolds args entry (run (WaitSystem.step args) entry during)) :
    ¬ WaitsAsDocumented args entry (during ++ .readClock :: earlyTimeout ++ [.testExpired]) := by
  have hbounds : WaitBounds args entry (run (WaitSystem.step args) entry during) :=
    waitBounds_run h during
  intro hdocumented
  have hreturn := hdocumented.returns (during ++ .readClock :: earlyTimeout) .testExpired []
    Status.timeout rfl
  generalize hs : run (WaitSystem.step args) entry during = s at hlocked hdeadline hbounds
  rw [DeadlineHolds, not_or, not_or, not_le, not_lt, not_le] at hdeadline
  obtain ⟨hoverflow, hold, hearly⟩ := hdeadline
  have htimeout := checkArguments_timeout (hbounds.accepted (by rw [hlocked]; rfl))
  have hwrapped := addInt64_le_of_overflow hbounds.clock_le_maximum htimeout hoverflow
  have hrun : run (WaitSystem.step args) entry (during ++ .readClock :: earlyTimeout) =
      { s with point := .expired } := by
    rw [run_append, hs, earlyTimeout]
    simp only [run_cons, run_nil, WaitSystem.step, hlocked, if_true, if_neg (Nat.not_lt.mpr hold),
      if_neg (not_lt.mpr hwrapped)]
  rw [hrun] at hreturn
  have hlate := (hreturn (fun earlier => by simp) (by
    simp only [WaitSystem.step, if_true, if_neg (Nat.not_lt.mpr hold)]
    rfl)).timeout rfl
  exact absurd hlate.2 (not_le.mpr hearly)

/-! ### The deadline is computed once -/

/-- The call has computed its deadline. -/
def WaitPoint.pastClock : WaitPoint → Bool
  | notCalled | checked | locked => false
  | testing _ | waiting _ | awake _ | expired | returned _ => true

theorem WaitSystem.finish_pastClock (s : WaitSystem) : s.finish.point.pastClock = true := by
  rcases s.finish_point with h | h <;> rw [h] <;> rfl

theorem pastClock_step (args : WaitArguments) (s : WaitSystem) (a : WaitAction)
    (hs : s.point.pastClock = true) : (s.step args a).point.pastClock = true := by
  cases a with
  | enter =>
    rw [WaitSystem.step, if_neg (by intro h; rw [h] at hs; cases hs)]
    exact hs
  | lock =>
    rw [WaitSystem.step, if_neg (by intro h; rw [h] at hs; cases hs)]
    exact hs
  | readClock =>
    rw [WaitSystem.step, if_neg (by intro h; rw [h] at hs; cases hs)]
    exact hs
  | test =>
    rw [WaitSystem.step]
    split
    · split_ifs
      · exact s.finish_pastClock
      · rfl
    · exact hs
  | wake =>
    rw [WaitSystem.step]
    split
    · rfl
    · exact hs
  | compareClock =>
    rw [WaitSystem.step]
    split
    · split_ifs <;> rfl
    · exact hs
  | testExpired =>
    rw [WaitSystem.step]
    split_ifs
    · exact s.finish_pastClock
    · rfl
    · exact hs
  | request call =>
    rw [WaitSystem.step]
    split_ifs <;> exact hs
  | tick nanoseconds =>
    rw [WaitSystem.step]
    split_ifs <;> exact hs

/-- A call that has computed its deadline does not compute another. -/
theorem computesDeadline_of_pastClock (hs : s.point.pastClock = true)
    (actions : List WaitAction) :
    StepsMeet (WaitSystem.step args) (ComputesDeadline args entry) s actions := by
  refine stepsMeet_iff_getElem.mpr fun i _ _ hlocked => ?_
  have hpast := run_induction (I := fun t : WaitSystem => t.point.pastClock = true)
    (pastClock_step args) hs (actions.take i)
  rw [hlocked] at hpast
  cases hpast

/-- A call that is about to compute its deadline has not computed one. -/
theorem computesDeadline_of_locked {actions : List WaitAction}
    (hlocked : (run (WaitSystem.step args) s actions).point = .locked) :
    StepsMeet (WaitSystem.step args) (ComputesDeadline args entry) s actions := by
  induction actions generalizing s with
  | nil => trivial
  | cons a actions ih =>
    refine ⟨fun hread hpoint => ?_, ih hlocked⟩
    have hpast : (s.step args a).point.pastClock = true := by
      rw [hread, WaitSystem.step, if_pos hpoint]
      rfl
    have hend := run_induction (I := fun t : WaitSystem => t.point.pastClock = true)
      (pastClock_step args) hpast actions
    rw [show run (WaitSystem.step args) (s.step args a) actions = _ from rfl] at hend
    rw [run_cons] at hlocked
    rw [hlocked] at hend
    cases hend

/-! ### Snapshots do not throw -/

/-- A call of the interface on a request below its last revision. -/
def AdmitsRequests (s : WaitSystem) (a : WaitAction) : Prop :=
  ∀ call, a = .request call → s.history.Admitted call

theorem WaitSystem.enter_history (args : WaitArguments) (s : WaitSystem) :
    (s.enter args).history = s.history := by
  rw [enter]
  split_ifs
  · rfl
  · split <;> rfl

theorem history_step (args : WaitArguments) (s : WaitSystem) (a : WaitAction) :
    (s.step args a).history = s.history ∨
      ∃ call, a = .request call ∧ (s.step args a).history = s.history.step call := by
  cases a with
  | request call =>
    rw [WaitSystem.step]
    split_ifs
    · exact Or.inl rfl
    · exact Or.inr ⟨call, rfl, rfl⟩
  | enter =>
    rw [WaitSystem.step]
    split_ifs
    · exact Or.inl (s.enter_history args)
    · exact Or.inl rfl
  | test =>
    rw [WaitSystem.step]
    split
    · split_ifs
      · exact Or.inl s.finish_history
      · exact Or.inl rfl
    · exact Or.inl rfl
  | testExpired =>
    rw [WaitSystem.step]
    split_ifs
    · exact Or.inl s.finish_history
    · exact Or.inl rfl
    · exact Or.inl rfl
  | wake =>
    rw [WaitSystem.step]
    split <;> exact Or.inl rfl
  | compareClock =>
    rw [WaitSystem.step]
    split
    · split_ifs <;> exact Or.inl rfl
    · exact Or.inl rfl
  | lock | readClock | tick =>
    rw [WaitSystem.step]
    split_ifs <;> exact Or.inl rfl

/-- In a run of the calls of the interface no snapshot throws. -/
theorem snapshot_run (hinvariant : entry.history.Invariant) {actions : List WaitAction}
    (hadmitted : StepsMeet (WaitSystem.step args) AdmitsRequests entry actions) :
    ∃ result, (run (WaitSystem.step args) entry actions).history.request.snapshot = .ok result := by
  have hrun : (run (WaitSystem.step args) entry actions).history.Invariant := by
    refine run_induction_of_stepsMeet (I := fun s : WaitSystem => s.history.Invariant)
      (fun s a hs ha => ?_) hinvariant actions hadmitted
    rcases history_step args s a with heq | ⟨call, hcall, heq⟩
    · rw [heq]
      exact hs
    · rw [heq]
      exact hs.step fun ⟨_, _, _, _, hlast⟩ => (ha call hcall).2.2 hlast
  exact ⟨_, hrun.snapshot_eq⟩

/-- The calls that wait and return as documented: every run in which the deadline holds when the
call computes it is one, and when the call is about to compute it, all runs from there are if and
only if it holds. The snapshot of a newer revision throws in no run of the calls of the
interface. -/
theorem requestWait_documented_iff (args : WaitArguments) (entry : WaitSystem)
    (h : ReadyToEnter entry) (during : List WaitAction) :
    (StepsMeet (WaitSystem.step args) (ComputesDeadline args entry) entry (.enter :: during) →
        WaitsAsDocumented args entry (.enter :: during)) ∧
      ((run (WaitSystem.step args) entry (.enter :: during)).point = .locked →
        ((∀ more, WaitsAsDocumented args entry (.enter :: during ++ .readClock :: more)) ↔
          DeadlineHolds args entry (run (WaitSystem.step args) entry (.enter :: during)))) ∧
      (entry.history.Invariant →
        StepsMeet (WaitSystem.step args) AdmitsRequests entry (.enter :: during) →
          ∃ result, (run (WaitSystem.step args) entry
            (.enter :: during)).history.request.snapshot = .ok result) := by
  refine ⟨waitsAsDocumented_of_deadline h,
    fun hlocked => ⟨fun hall => ?_, fun hholds more => ?_⟩,
    fun hinvariant hadmitted => snapshot_run hinvariant hadmitted⟩
  · by_contra hdeadline
    refine not_documented_of_not_deadlineHolds h hlocked hdeadline ?_
    rw [List.append_assoc]
    exact hall (earlyTimeout ++ [.testExpired])
  · refine waitsAsDocumented_of_deadline h ((stepsMeet_append _ _).mpr
      ⟨computesDeadline_of_locked hlocked, fun _ _ => hholds,
        computesDeadline_of_pastClock ?_ more⟩)
    rw [WaitSystem.step, if_pos hlocked]
    rfl

/-- A caller's snapshot with the header of the interface and nothing in it. -/
def emptySnapshot : PublicSnapshot where
  structSize := requestSnapshotSize
  abiVersion := abiVersion1
  revision := 0
  state := 0
  availableAudioLeases := 0
  generatedCodecFrames := 0
  publishedSamples := 0
  committedTextTokens := 0
  terminalStatus := 0
  terminalErrorStage := 0
  terminalErrorMessage := List.replicate errorMessageCapacity 0
  reserved := [0, 0, 0, 0]

/-- A wait of a microsecond on a new request, which nothing happens to. -/
theorem requestWait_documented_quiet :
    ∃ request, StreamingRequestState.construct 39 8 = .ok request ∧
      ∀ more, WaitsAsDocumented ⟨false, 1, 1000⟩
        ⟨.start request ⟨1⟩, 5000, some emptySnapshot, none, .notCalled⟩
        (.enter :: [.lock] ++ .readClock :: more) := by
  refine ⟨_, rfl, ((requestWait_documented_iff ⟨false, 1, 1000⟩ _ ⟨rfl, by decide, by decide⟩
    [.lock]).2.1 rfl).mpr (Or.inl ?_)⟩
  decide

/-- A wait with the longest timeout that the call accepts, on a new request five microseconds after
the start of the clock: it times out at once. -/
theorem requestWait_longest_timeout :
    ∃ request, StreamingRequestState.construct 39 8 = .ok request ∧
      let args : WaitArguments := ⟨false, 1, 9223372036854775807⟩
      let entry : WaitSystem :=
        ⟨.start request ⟨1⟩, 5000, some emptySnapshot, none, .notCalled⟩
      let actions := .enter :: [.lock] ++ .readClock :: earlyTimeout ++ [.testExpired]
      (run (WaitSystem.step args) entry actions).point = .returned Status.timeout ∧
        (run (WaitSystem.step args) entry actions).clock = 5000 ∧
        ¬ WaitsAsDocumented args entry actions := by
  refine ⟨_, rfl, rfl, rfl, not_documented_of_not_deadlineHolds ⟨rfl, by decide, by decide⟩ rfl ?_⟩
  rw [DeadlineHolds]
  decide

end MagpieTts.Api
