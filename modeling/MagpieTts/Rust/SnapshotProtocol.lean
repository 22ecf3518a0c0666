import MagpieTts.Runtime.RequestSnapshots
import MagpieTts.Rust.RequestSnapshot

/-!
# The snapshot protocol between the runtime and the Rust wrapper

Snapshots that are taken along a run of calls, cross the C interface as `publicSnapshot` and are
validated by the wrapper one behind the other.

## Main definitions

* `wrapperSnapshot`: the snapshot that the wrapper keeps of one it accepts.
* `SnapshotProtocol`: the snapshots of a run are consistent, documented, and accepted.

## Main results

* `validateSnapshot_publicSnapshot`: the wrapper accepts a documented snapshot that follows the last
  one.
* `snapshotProtocol_iff_stepsMeet_regular`: the runs that keep the protocol.
-/

namespace MagpieTts.Rust

open MagpieTts.Library MagpieTts.Api MagpieTts.Runtime

/-! ### One snapshot -/

/-- `RequestState` of a snapshot of the runtime. -/
def wrapperState : RequestLifecycleState → RequestState
  | .running => .running
  | .completed => .completed
  | .cancelled => .cancelled
  | .failed => .failed

/-- The snapshot that the wrapper builds from a snapshot of the runtime. -/
def wrapperSnapshot (source : RequestStateSnapshot) : RequestSnapshot where
  revision := source.revision
  state := wrapperState source.state
  availableAudioLeases := source.availableAudioLeases
  generatedCodecFrames := source.generatedCodecFrames
  publishedSamples := source.publishedSamples
  committedTextTokens := source.committedTextTokens
  terminalStatus := source.terminalStatus
  terminalError :=
    if wrapperState source.state = .failed then
      some ⟨"request_terminal", source.terminalStatus, source.terminalErrorStage,
        messageText (copyTerminalMessage source.terminalErrorMessage)⟩
    else
      none

@[simp] theorem invalidNativeIf_of_not {condition : Prop} [Decidable condition]
    {operation field reason : String} (h : ¬ condition) :
    invalidNativeIf condition operation field reason = .ok () :=
  if_neg h

@[simp] theorem wrapperState_eq_running (state : RequestLifecycleState) :
    wrapperState state = .running ↔ state = .running := by
  cases state <;> simp [wrapperState]

@[simp] theorem wrapperState_eq_failed (state : RequestLifecycleState) :
    wrapperState state = .failed ↔ state = .failed := by
  cases state <;> simp [wrapperState]

theorem requestStateFromRaw_publicRequestState (operation : String)
    (state : RequestLifecycleState) :
    requestStateFromRaw operation (publicRequestState state) = .ok (wrapperState state) := by
  cases state <;> rfl

theorem fixedMessageBytes_copyTerminalMessage (message : List UInt8) :
    fixedMessageBytes (copyTerminalMessage message) =
      (messageText (copyTerminalMessage message), true) :=
  if_pos (zero_mem_copyTerminalMessage message)

theorem isTerminalFailure_iff (status : ℤ) :
    isTerminalFailure status = true ↔ status ∈ failureStatuses :=
  decide_eq_true_iff

theorem stageIsDeclared_iff (stage : ℤ) :
    stageIsDeclared stage = true ↔ 0 ≤ stage ∧ stage ≤ 11 := by
  rw [stageIsDeclared, Bool.and_eq_true, decide_eq_true_iff, decide_eq_true_iff]

/-- The stages of the documented table are declared. -/
theorem stageIsDeclared_of_documentedTable {source : RequestStateSnapshot}
    (htable : DocumentedTable (publicSnapshot source)) :
    stageIsDeclared source.terminalErrorStage = true := by
  rw [stageIsDeclared_iff]
  simp only [DocumentedTable, publicSnapshot] at htable
  rcases htable with ⟨-, -, hstage, -⟩ | ⟨-, -, hstage, -⟩ | ⟨-, -, hstage, -⟩ <;> omega

/-- The checks that depend on the state are those of the documented table. -/
theorem validateDiagnostic_of_documentedTable {source : RequestStateSnapshot} (operation : String)
    (htable : DocumentedTable (publicSnapshot source)) :
    validateDiagnostic operation source.terminalStatus source.terminalErrorStage
      (messageText (copyTerminalMessage source.terminalErrorMessage))
      (wrapperState source.state) = .ok () := by
  simp only [DocumentedTable, publicSnapshot] at htable
  rcases htable with ⟨hstate, hstatus, hstage, hmessage⟩ | ⟨hstate, hstatus, hstage, hmessage⟩ |
    ⟨hstate, hstatus, hstage, hmessage⟩
  · cases hsource : source.state <;> simp [hsource, publicRequestState] at hstate
    all_goals
      rw [wrapperState, validateDiagnostic, invalidNativeIf_of_not (not_not_intro hstatus),
        invalidNativeIf_of_not (by simp [hstage, hmessage])]
      rfl
  · cases hsource : source.state <;> simp [hsource, publicRequestState] at hstate
    rw [wrapperState, validateDiagnostic, invalidNativeIf_of_not (not_not_intro hstatus),
      invalidNativeIf_of_not (by simp [hstage, hmessage])]
    rfl
  · cases hsource : source.state <;> simp [hsource, publicRequestState] at hstate
    rw [wrapperState, validateDiagnostic,
      invalidNativeIf_of_not (by simp [(isTerminalFailure_iff _).mpr hstatus]),
      invalidNativeIf_of_not (by omega), invalidNativeIf_of_not hmessage]
    rfl

/-- A snapshot that follows the last one passes the checks against it. -/
theorem validateAgainstPrevious_of_follows {previous source : RequestStateSnapshot}
    (operation : String) (hfollows : previous.Follows source) :
    validateAgainstPrevious operation (wrapperSnapshot source) (wrapperSnapshot previous) =
      .ok () := by
  have hrevision := hfollows.revision_le
  have hgenerated := hfollows.generatedCodecFrames_le
  have hpublished := hfollows.publishedSamples_le
  have hcommitted := hfollows.committedTextTokens_le
  have hcounters : ¬ ((wrapperSnapshot source).revision < (wrapperSnapshot previous).revision ∨
      (wrapperSnapshot source).generatedCodecFrames <
        (wrapperSnapshot previous).generatedCodecFrames ∨
      (wrapperSnapshot source).publishedSamples < (wrapperSnapshot previous).publishedSamples ∨
      (wrapperSnapshot source).committedTextTokens <
        (wrapperSnapshot previous).committedTextTokens) := by
    simp only [wrapperSnapshot, not_or, not_lt]
    exact ⟨hrevision, hgenerated, hpublished, hcommitted⟩
  have hrepeated : ¬ ((wrapperSnapshot source).revision = (wrapperSnapshot previous).revision ∧
      wrapperSnapshot source ≠ wrapperSnapshot previous) := by
    rintro ⟨hsame, hne⟩
    exact hne (congrArg wrapperSnapshot (hfollows.eq_of_revision_eq hsame.symm)).symm
  have hstate : ¬ ((wrapperSnapshot previous).state ≠ .running ∧
      (wrapperSnapshot source).state ≠ (wrapperSnapshot previous).state) := by
    rintro ⟨hne, hchanged⟩
    refine hchanged (congrArg wrapperState (hfollows.state_eq fun hrunning => hne ?_))
    exact (wrapperState_eq_running _).mpr hrunning
  have hterminal : ¬ ((wrapperSnapshot previous).state = .failed ∧
      ((wrapperSnapshot source).terminalStatus ≠ (wrapperSnapshot previous).terminalStatus ∨
        (wrapperSnapshot source).terminalError ≠ (wrapperSnapshot previous).terminalError)) := by
    rintro ⟨hfailed, hchanged⟩
    have hfailed' := (wrapperState_eq_failed _).mp hfailed
    obtain ⟨hstatus, hstage, hmessage⟩ := hfollows.terminal_eq hfailed'
    have hsource := hfollows.state_eq (by rw [hfailed']; decide)
    simp [wrapperSnapshot, hstatus, hstage, hmessage, hsource] at hchanged
  rw [validateAgainstPrevious, invalidNativeIf_of_not hcounters, invalidNativeIf_of_not hrepeated,
    invalidNativeIf_of_not hstate, invalidNativeIf_of_not hterminal]
  rfl

/-- The wrapper accepts a documented snapshot that follows the last one. -/
theorem validateSnapshot_publicSnapshot {self : SnapshotRecord} {source : RequestStateSnapshot}
    (minimum : Option ℕ) (operation : String) (htable : DocumentedTable (publicSnapshot source))
    (hcommitted : source.committedTextTokens ≤ self.tokenCount)
    (hminimum : ∀ m ∈ minimum, m < source.revision)
    (hprevious : ∀ last ∈ self.lastSnapshot,
      ∃ previous : RequestStateSnapshot, last = wrapperSnapshot previous ∧
        previous.Follows source) :
    self.validateSnapshot operation (publicSnapshot source) minimum =
      .ok (wrapperSnapshot source,
        { self with lastSnapshot := some (wrapperSnapshot source) }) := by
  have hheader : validateHeader operation (publicSnapshot source).structSize
      (publicSnapshot source).abiVersion requestSnapshotSize = .ok () := rfl
  have hreserved : ¬ (publicSnapshot source).reserved ≠ [0, 0, 0, 0] := not_not_intro rfl
  have hwithin : ¬ self.tokenCount < (publicSnapshot source).committedTextTokens :=
    not_lt.mpr hcommitted
  have hnotBelow : ¬ ∃ m ∈ minimum, (publicSnapshot source).revision ≤ m := by
    rintro ⟨m, hmem, hle⟩
    exact absurd (hminimum m hmem) (not_lt.mpr hle)
  have hdeclared : ¬ stageIsDeclared (publicSnapshot source).terminalErrorStage = false := by
    rw [Bool.not_eq_false]
    exact stageIsDeclared_of_documentedTable htable
  have hstate : requestStateFromRaw operation (publicSnapshot source).state =
      .ok (wrapperState source.state) := requestStateFromRaw_publicRequestState operation _
  have hmessage : fixedMessageBytes (publicSnapshot source).terminalErrorMessage =
      (messageText (copyTerminalMessage source.terminalErrorMessage), true) :=
    fixedMessageBytes_copyTerminalMessage _
  rw [SnapshotRecord.validateSnapshot, hheader, invalidNativeIf_of_not hreserved,
    invalidNativeIf_of_not hwithin, invalidNativeIf_of_not hnotBelow, hstate, hmessage]
  change (invalidNativeIf (stageIsDeclared (publicSnapshot source).terminalErrorStage = false)
      operation "terminal_error_stage" "is not a declared ABI v1 error stage" >>= fun _ =>
    validateDiagnostic operation source.terminalStatus source.terminalErrorStage
      (messageText (copyTerminalMessage source.terminalErrorMessage))
      (wrapperState source.state) >>= fun _ => _) = _
  rw [invalidNativeIf_of_not hdeclared, validateDiagnostic_of_documentedTable operation htable]
  cases hlast : self.lastSnapshot with
  | none => rfl
  | some last =>
    obtain ⟨previous, rfl, hfollows⟩ := hprevious last hlast
    change (Except.ok () >>= fun _ => Except.ok () >>= fun _ =>
      validateAgainstPrevious operation (wrapperSnapshot source) (wrapperSnapshot previous) >>=
        fun _ => _) = _
    rw [validateAgainstPrevious_of_follows operation hfollows]
    rfl

/-! ### The snapshots of a run -/

/-- `validate_snapshot` of one snapshot behind the other. A snapshot that a wait returned comes with
the revision that it was waited behind. -/
def SnapshotRecord.validateSnapshots (operation : String) (self : SnapshotRecord) :
    List (PublicSnapshot × Option ℕ) → Except InvalidNativeData SnapshotRecord
  | [] => .ok self
  | (raw, minimum) :: rest => do
      let (_, next) ← self.validateSnapshot operation raw minimum
      next.validateSnapshots operation rest

/-- The state behind the first `i` calls. -/
def stateBehind (start : RequestHistory) (calls : List RequestCall) (i : ℕ) : RequestHistory :=
  run RequestHistory.step start (calls.take i)

/-- The snapshots that `snapshots` gives for the states behind the calls of a run keep the
protocol. -/
structure SnapshotProtocol (textTokenCount : ℕ) (start : RequestHistory) (calls : List RequestCall)
    (snapshots : ℕ → RequestStateSnapshot) : Prop where
  taken : ∀ i, (stateBehind start calls i).request.snapshot = .ok (snapshots i)
  follows : ∀ i j, i ≤ j → (snapshots i).Follows (snapshots j)
  documented : ∀ i, DocumentedTable (publicSnapshot (snapshots i))
  accepted : ∀ (operation : String) (points : List (ℕ × Option ℕ)),
    points.Pairwise (fun p q => p.1 ≤ q.1) →
    (∀ p ∈ points, ∀ minimum ∈ p.2, minimum < (snapshots p.1).revision) →
    ∃ last, SnapshotRecord.validateSnapshots operation ⟨textTokenCount, none⟩
      (points.map fun p => (publicSnapshot (snapshots p.1), p.2)) = .ok last

/-- Snapshots that follow each other are accepted, from any record of an earlier one. -/
theorem exists_validateSnapshots_eq_ok {textTokenCount : ℕ} {snapshots : ℕ → RequestStateSnapshot}
    (hfollows : ∀ i j, i ≤ j → (snapshots i).Follows (snapshots j))
    (hdocumented : ∀ i, DocumentedTable (publicSnapshot (snapshots i)))
    (hcommitted : ∀ i, (snapshots i).committedTextTokens ≤ textTokenCount) (operation : String)
    (points : List (ℕ × Option ℕ)) (hsorted : points.Pairwise fun p q => p.1 ≤ q.1)
    (hminimum : ∀ p ∈ points, ∀ minimum ∈ p.2, minimum < (snapshots p.1).revision)
    (self : SnapshotRecord) (htokens : self.tokenCount = textTokenCount)
    (hlast : ∀ last ∈ self.lastSnapshot,
      ∃ i, last = wrapperSnapshot (snapshots i) ∧ ∀ p ∈ points, i ≤ p.1) :
    ∃ last, self.validateSnapshots operation
      (points.map fun p => (publicSnapshot (snapshots p.1), p.2)) = .ok last := by
  induction points generalizing self with
  | nil => exact ⟨self, rfl⟩
  | cons point points ih =>
    obtain ⟨i, minimum⟩ := point
    have haccepted := validateSnapshot_publicSnapshot minimum operation (hdocumented i)
      (htokens ▸ hcommitted i)
      (fun m hmem => hminimum (i, minimum) List.mem_cons_self m hmem)
      (fun last hmem => by
        obtain ⟨k, rfl, hk⟩ := hlast last hmem
        exact ⟨snapshots k, rfl, hfollows k i (hk (i, minimum) List.mem_cons_self)⟩)
    obtain ⟨last, heq⟩ := ih (List.pairwise_cons.mp hsorted).2
      (fun p hmem => hminimum p (List.mem_cons_of_mem _ hmem))
      { self with lastSnapshot := some (wrapperSnapshot (snapshots i)) } htokens
      (fun previous hmem => by
        refine ⟨i, (Option.mem_some.mp hmem).symm, fun p hp => ?_⟩
        exact (List.pairwise_cons.mp hsorted).1 p hp)
    refine ⟨last, ?_⟩
    rw [List.map_cons, SnapshotRecord.validateSnapshots, haccepted]
    exact heq

/-- What the protocol says of a single call. -/
def CallShows (h : RequestHistory) (c : RequestCall) : Prop :=
  DocumentedTable (publicSnapshot (h.step c).request.snapshotRecord) ∧
    h.request.snapshotRecord.Follows (h.step c).request.snapshotRecord

/-- A call of the interface shows the protocol exactly if it is regular. -/
theorem callShows_iff_regular {n : ℕ} {h : RequestHistory} {c : RequestCall}
    (hobservable : RequestHistory.Observable n h) (hadmitted : h.Admitted c) :
    CallShows h c ↔ h.Regular c := by
  refine ⟨fun hshows => ?_, fun hregular => ?_⟩
  · by_contra hregular
    exact RequestHistory.not_follows_of_not_regular hobservable.invariant hadmitted hregular hshows
  · obtain ⟨hreadable, hfollows⟩ := RequestHistory.follows_step hobservable.invariant
      hobservable.readable hadmitted hregular
    exact ⟨hreadable.documentedTable, hfollows⟩

section

variable {n capacity : ℕ} {request : StreamingRequestState} {ids : LeaseIdSequence}
  {calls : List RequestCall}

/-- Along regular calls of the interface the snapshots keep the protocol. -/
theorem snapshotProtocol_of_stepsMeet (hcapacity : capacity ≤ maximumUint32)
    (hrequest : StreamingRequestState.construct n capacity = .ok request)
    (hmeet : StepsMeet RequestHistory.step (fun h c => h.Regular c ∧ h.Admitted c)
      (.start request ids) calls) :
    SnapshotProtocol n (.start request ids) calls fun i =>
      (stateBehind (.start request ids) calls i).request.snapshotRecord := by
  have hstart := RequestHistory.Observable.start hcapacity hrequest ids
  have hstep : ∀ h c, RequestHistory.Observable n h → h.Regular c ∧ h.Admitted c →
      RequestHistory.Observable n (h.step c) := fun h c hobservable hboth =>
    hobservable.step hboth.2 hboth.1
  have hobservable : ∀ i, RequestHistory.Observable n (stateBehind (.start request ids) calls i) :=
    fun i => run_induction_of_stepsMeet hstep hstart _ (stepsMeet_take hmeet i)
  have hfollows : ∀ i j, i ≤ j →
      (stateBehind (.start request ids) calls i).request.snapshotRecord.Follows
        (stateBehind (.start request ids) calls j).request.snapshotRecord := by
    intro i j hij
    refine run_take_related
      (R := fun h h' => h.request.snapshotRecord.Follows h'.request.snapshotRecord)
      (fun h => .refl _) (fun hab hbc => hab.trans hbc) hstep (fun h c hobs hboth => ?_) hstart
      hmeet hij
    exact (RequestHistory.follows_step hobs.invariant hobs.readable hboth.2 hboth.1).2
  have hdocumented : ∀ i, DocumentedTable
      (publicSnapshot (stateBehind (.start request ids) calls i).request.snapshotRecord) :=
    fun i => (hobservable i).readable.documentedTable
  refine ⟨fun i => (hobservable i).invariant.snapshot_eq, hfollows, hdocumented, ?_⟩
  intro operation points hsorted hminimum
  refine exists_validateSnapshots_eq_ok hfollows hdocumented (fun i => ?_) operation points hsorted
    hminimum ⟨n, none⟩ rfl (fun last hmem => by cases hmem)
  exact (hobservable i).textTokenCount_eq ▸ (hobservable i).readable.committed_le

/-- Snapshots that keep the protocol show it at every call. -/
theorem stepsMeet_callShows_of_snapshotProtocol {start : RequestHistory}
    {snapshots : ℕ → RequestStateSnapshot} (hprotocol : SnapshotProtocol n start calls snapshots) :
    StepsMeet RequestHistory.step CallShows start calls := by
  have hrecord : ∀ i,
      (stateBehind start calls i).request.snapshotRecord = snapshots i := by
    intro i
    have htaken := hprotocol.taken i
    rw [StreamingRequestState.snapshot] at htaken
    split_ifs at htaken
    exact Except.ok.inj htaken
  refine stepsMeet_iff_getElem.mpr fun i hi => ?_
  have hnext : run RequestHistory.step start (calls.take (i + 1)) =
      (run RequestHistory.step start (calls.take i)).step calls[i] := run_take_succ hi
  have hi' := hrecord i
  have hsucc := hrecord (i + 1)
  rw [stateBehind] at hi' hsucc
  rw [hnext] at hsucc
  rw [CallShows, hi', hsucc]
  exact ⟨hprotocol.documented (i + 1), hprotocol.follows i (i + 1) (Nat.le_succ i)⟩

/-- **The snapshot protocol over whole runs.** In front of the last revision, the snapshots of a
run of calls of the interface are consistent, documented and accepted by the wrapper if and only if
every accepted failure is a declared one and no publication wraps the count of samples. -/
theorem snapshotProtocol_iff_stepsMeet_regular (n capacity : ℕ)
    (hcapacity : capacity ≤ maximumUint32)
    (request : StreamingRequestState)
    (hrequest : StreamingRequestState.construct n capacity = .ok request) (ids : LeaseIdSequence)
    (calls : List RequestCall)
    (hadmitted : StepsMeet RequestHistory.step RequestHistory.Admitted (.start request ids) calls) :
    (∃ snapshots, SnapshotProtocol n (.start request ids) calls snapshots) ↔
      StepsMeet RequestHistory.step RequestHistory.Regular (.start request ids) calls := by
  have hstart := RequestHistory.Observable.start hcapacity hrequest ids
  constructor
  · rintro ⟨snapshots, hprotocol⟩
    have hshows := stepsMeet_callShows_of_snapshotProtocol hprotocol
    have hboth := (stepsMeet_and calls).mpr ⟨hshows, hadmitted⟩
    have hregular := (stepsMeet_iff_of_invariant (I := RequestHistory.Observable n)
      (C := fun h c => h.Regular c ∧ h.Admitted c)
      (fun h c hobs => and_congr_left fun hadm => callShows_iff_regular hobs hadm)
      (fun h c hobs hregular => hobs.step hregular.2 hregular.1) hstart calls).mp hboth
    exact ((stepsMeet_and calls).mp hregular).1
  · intro hregular
    exact ⟨_, snapshotProtocol_of_stepsMeet hcapacity hrequest
      ((stepsMeet_and calls).mpr ⟨hregular, hadmitted⟩)⟩

end

theorem snapshotProtocol_first_chunk :
    ∃ request, StreamingRequestState.construct 39 8 = .ok request ∧
      ∃ snapshots, SnapshotProtocol 39 (.start request ⟨1⟩)
        [.publish (RequestHistory.streamChunk 0), .acquireAudio, .fail 15 4 [65]] snapshots := by
  refine ⟨_, rfl, (snapshotProtocol_iff_stepsMeet_regular 39 8 (by decide) _ rfl ⟨1⟩ _ ?_).mpr ?_⟩
  · exact ⟨⟨nofun, nofun, by decide⟩, ⟨nofun, nofun, by decide⟩, ⟨nofun, nofun, by decide⟩, trivial⟩
  · refine ⟨⟨nofun, ?_⟩, ⟨nofun, nofun⟩, ⟨?_, nofun⟩, trivial⟩
    · rintro chunk hcall - -
      cases hcall
      decide
    · rintro status stage message hcall - -
      cases hcall
      exact ⟨by decide, by decide, by decide, by decide⟩

/-- Status 99 is not declared, `fail` accepts it, and the snapshot behind it is outside the
documented table. -/
theorem not_snapshotProtocol_undeclared :
    ∃ request, StreamingRequestState.construct 39 8 = .ok request ∧
      StepsMeet RequestHistory.step RequestHistory.Admitted (.start request ⟨1⟩)
        [.fail 99 6 [65]] ∧
      ¬ ∃ snapshots, SnapshotProtocol 39 (.start request ⟨1⟩) [.fail 99 6 [65]] snapshots := by
  refine ⟨_, rfl, ⟨⟨nofun, nofun, by decide⟩, trivial⟩, ?_⟩
  rintro ⟨snapshots, hprotocol⟩
  have hshows := (stepsMeet_callShows_of_snapshotProtocol hprotocol).1
  have hcapacity : 8 ≤ maximumUint32 := by decide
  have hrequest : StreamingRequestState.construct 39 8 = .ok _ := rfl
  have hinv := RequestHistory.invariant_start hcapacity hrequest ⟨1⟩
  refine RequestHistory.not_follows_of_not_regular (c := .fail 99 6 [65]) hinv
    ⟨nofun, nofun, by decide⟩ (fun hregular => ?_) hshows
  have hargs : ¬ StreamingRequestState.RejectsFailure 99 6 [65] := by
    rw [StreamingRequestState.RejectsFailure]
    decide
  have hdeclared := (hregular.1 99 6 [65] rfl rfl hargs).1
  exact absurd hdeclared (by decide)

end MagpieTts.Rust
