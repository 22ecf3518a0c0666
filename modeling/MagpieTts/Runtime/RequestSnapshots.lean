import MagpieTts.Api.PublicSnapshot
import MagpieTts.Runtime.RequestConservation

/-!
# The snapshots of a run of calls

Two snapshots of one request, taken at any points of a run: the later one follows the earlier one.
The relation is a preorder, so it is enough that every call respects it.

## Main definitions

* `RequestStateSnapshot.Follows`: what the later of two snapshots keeps of the earlier one.
* `RequestHistory.Readable`: the invariant that makes every snapshot one of the documented table.
* `RequestHistory.Admitted`, `RequestHistory.Regular`: the calls of the interface below the last
  revision, and those among them that the documented table survives.

## Main results

* `RequestHistory.snapshot_eq`: a snapshot never fails.
* `RequestHistory.follows_step`: a regular call respects the relation and keeps the invariant.
-/

namespace MagpieTts.Runtime

open MagpieTts.Library MagpieTts.Api

/-- The later snapshot `b` of a request follows the earlier one `a`. -/
structure RequestStateSnapshot.Follows (a b : RequestStateSnapshot) : Prop where
  eq_of_revision_eq : a.revision = b.revision → a = b
  revision_le : a.revision ≤ b.revision
  generatedCodecFrames_le : a.generatedCodecFrames ≤ b.generatedCodecFrames
  publishedSamples_le : a.publishedSamples ≤ b.publishedSamples
  committedTextTokens_le : a.committedTextTokens ≤ b.committedTextTokens
  state_eq : a.state ≠ .running → b.state = a.state
  terminal_eq : a.state = .failed → b.terminalStatus = a.terminalStatus ∧
    b.terminalErrorStage = a.terminalErrorStage ∧ b.terminalErrorMessage = a.terminalErrorMessage

namespace RequestStateSnapshot.Follows

variable {a b c : RequestStateSnapshot}

theorem refl (a : RequestStateSnapshot) : a.Follows a :=
  ⟨fun _ => rfl, le_refl _, le_refl _, le_refl _, le_refl _, fun _ => rfl, fun _ => ⟨rfl, rfl, rfl⟩⟩

theorem trans (hab : a.Follows b) (hbc : b.Follows c) : a.Follows c where
  eq_of_revision_eq := by
    intro heq
    have hle := hab.revision_le
    have hle' := hbc.revision_le
    exact (hab.eq_of_revision_eq (by omega)).trans (hbc.eq_of_revision_eq (by omega))
  revision_le := hab.revision_le.trans hbc.revision_le
  generatedCodecFrames_le := hab.generatedCodecFrames_le.trans hbc.generatedCodecFrames_le
  publishedSamples_le := hab.publishedSamples_le.trans hbc.publishedSamples_le
  committedTextTokens_le := hab.committedTextTokens_le.trans hbc.committedTextTokens_le
  state_eq := by
    intro hne
    have hb := hab.state_eq hne
    exact (hbc.state_eq (hb ▸ hne)).trans hb
  terminal_eq := by
    intro hfailed
    have hb := hab.state_eq (by rw [hfailed]; decide)
    obtain ⟨h1, h2, h3⟩ := hab.terminal_eq hfailed
    obtain ⟨h4, h5, h6⟩ := hbc.terminal_eq (hb.trans hfailed)
    exact ⟨h4.trans h1, h5.trans h2, h6.trans h3⟩

end RequestStateSnapshot.Follows

/-- The record that `snapshot` returns when it does not throw. -/
def StreamingRequestState.snapshotRecord (request : StreamingRequestState) :
    RequestStateSnapshot where
  revision := request.revision
  state := request.state
  availableAudioLeases := request.availableAudio.length
  generatedCodecFrames := request.generatedCodecFrames
  publishedSamples := request.publishedSamples
  committedTextTokens := request.committedTextTokens
  terminalStatus := request.terminalStatus
  terminalErrorStage := request.terminalErrorStage
  terminalErrorMessage := request.terminalErrorMessage

namespace RequestHistory

variable {h h' : RequestHistory} {c : RequestCall}

/-- All items but the last are at least four: the length is bounded by the sum. -/
theorem length_le_of_four_le {ι : Type*} (size : ι → ℕ) : (l : List ι) →
    (∀ i (hi : i + 1 < l.length), 4 ≤ size l[i]) → 4 * l.length ≤ (l.map size).sum + 4
  | [], _ => by simp
  | [item], _ => by simp
  | item :: other :: rest, hfour => by
      have hhead : 4 ≤ size item := hfour 0 (by simp)
      have htail := length_le_of_four_le size (other :: rest) fun i hi =>
        hfour (i + 1) (by simpa using hi)
      simp only [List.length_cons, List.map_cons, List.sum_cons] at htail ⊢
      omega

/-- Only the last accepted chunk may be short, so the queue fits the type of its length. -/
theorem Invariant.length_queue_le (hinv : h.Invariant) :
    h.request.availableAudio.length ≤ maximumUint32 := by
  obtain ⟨settled, haccepted, -⟩ := hinv.conserved.order
  change h.accepted = settled ++ h.request.availableAudio at haccepted
  have hfour := length_le_of_four_le AudioChunk.codecFrameCount h.request.availableAudio
    (by
      intro i hi
      have hk : h.accepted[settled.length + i]? = some h.request.availableAudio[i] := by
        rw [haccepted, List.getElem?_append_right (by omega), Nat.add_sub_cancel_left,
          List.getElem?_eq_getElem (by omega)]
      have hstream := hinv.stream _ _ hk
      have hfinal : h.request.availableAudio[i].final = false := by
        by_contra hfinal
        have := hstream.final_last (Bool.eq_true_of_not_eq_false hfinal)
        rw [haccepted, List.length_append] at this
        omega
      rcases Nat.eq_zero_or_pos (settled.length + i) with hzero | hpos
      · rw [hstream.first_frames hzero]
      · rw [hstream.steady_frames hpos hfinal]
        decide)
  have hocc := hinv.accounted.occupied_eq
  have hle := hinv.accounted.occupied_le
  have hcap := hinv.accounted.capacity_le
  rw [StreamingRequestState.queueFrames] at hocc
  rw [maximumUint32] at hcap ⊢
  omega

theorem Invariant.snapshot_eq (hinv : h.Invariant) :
    h.request.snapshot = .ok h.request.snapshotRecord := by
  have hle := hinv.length_queue_le
  rw [StreamingRequestState.snapshot, if_neg (by omega)]
  rfl

/-! ### The calls -/

/-- A call of the interface, in front of the last revision. -/
def Admitted (h : RequestHistory) (c : RequestCall) : Prop :=
  c ≠ .discardUnleasedAudio ∧ c ≠ .completeCancellation ∧ h.request.revision ≠ maximumUint64

/-- A failure that the documented table has. -/
def DeclaredFailure (status stage : ℤ) (message : List UInt8) : Prop :=
  status ∈ failureStatuses ∧ (1 ≤ stage ∧ stage ≤ 11) ∧ message ≠ [] ∧ message.head? ≠ some 0

/-- A failure that `fail` accepts is a declared one, and a publication does not wrap the count of
published samples. -/
def Regular (h : RequestHistory) (c : RequestCall) : Prop :=
  (∀ status stage message, c = .fail status stage message → h.request.state = .running →
    ¬ StreamingRequestState.RejectsFailure status stage message →
    DeclaredFailure status stage message) ∧
  ∀ chunk, c = .publish chunk → h.request.cancellationRequested = false →
    h.request.ValidChunk chunk →
    h.request.publishedSamples + chunk.samples.sampleCount ≤ maximumUint64

/-- Status, stage and message of a request are those of its state. -/
def TerminalFields (request : StreamingRequestState) : Prop :=
  match request.state with
  | .running | .completed => request.terminalStatus = 0 ∧ request.terminalErrorStage = 0 ∧
      request.terminalErrorMessage = []
  | .cancelled => request.terminalStatus = 10 ∧ request.terminalErrorStage = 6 ∧
      request.terminalErrorMessage = []
  | .failed => DeclaredFailure request.terminalStatus request.terminalErrorStage
      request.terminalErrorMessage

/-- What makes the snapshots of a history readable. -/
structure Readable (h : RequestHistory) : Prop where
  committed_le : h.request.committedTextTokens ≤ h.request.textTokenCount
  published_eq : h.request.publishedSamples = h.request.generatedCodecFrames * kCodecSamplesPerFrame
  published_le : h.request.publishedSamples ≤ maximumUint64
  terminal : TerminalFields h.request

/-- The documented table holds of a snapshot exactly if the fields are those of the state. -/
theorem documentedTable_iff (request : StreamingRequestState) :
    DocumentedTable (publicSnapshot request.snapshotRecord) ↔
      match request.state with
      | .running | .completed => request.terminalStatus = 0 ∧ request.terminalErrorStage = 0 ∧
          (request.terminalErrorMessage = [] ∨ request.terminalErrorMessage.head? = some 0)
      | .cancelled => request.terminalStatus = 10 ∧ request.terminalErrorStage = 6 ∧
          (request.terminalErrorMessage = [] ∨ request.terminalErrorMessage.head? = some 0)
      | .failed => DeclaredFailure request.terminalStatus request.terminalErrorStage
          request.terminalErrorMessage := by
  simp only [DocumentedTable, publicSnapshot, StreamingRequestState.snapshotRecord, ne_eq,
    messageText_copyTerminalMessage_eq_nil]
  cases request.state <;> simp [publicRequestState, DeclaredFailure, not_or]

theorem Readable.documentedTable (hreadable : h.Readable) :
    DocumentedTable (publicSnapshot h.request.snapshotRecord) := by
  have hterminal := hreadable.terminal
  rw [documentedTable_iff]
  rw [TerminalFields] at hterminal
  cases hstate : h.request.state with
  | running =>
    simp only [hstate] at hterminal ⊢
    exact ⟨hterminal.1, hterminal.2.1, Or.inl hterminal.2.2⟩
  | completed =>
    simp only [hstate] at hterminal ⊢
    exact ⟨hterminal.1, hterminal.2.1, Or.inl hterminal.2.2⟩
  | cancelled =>
    simp only [hstate] at hterminal ⊢
    exact ⟨hterminal.1, hterminal.2.1, Or.inl hterminal.2.2⟩
  | failed => simpa only [hstate] using hterminal

/-- A snapshot behind a new revision. -/
theorem follows_bumped {before after : StreamingRequestState}
    (hrevision : before.revision ≠ maximumUint64) (heq : after.revision = before.revision)
    (hgenerated : before.generatedCodecFrames ≤ after.generatedCodecFrames)
    (hpublished : before.publishedSamples ≤ after.publishedSamples)
    (hcommitted : before.committedTextTokens ≤ after.committedTextTokens)
    (hstate : before.state ≠ .running → after.state = before.state)
    (hterminal : before.state = .failed → after.terminalStatus = before.terminalStatus ∧
      after.terminalErrorStage = before.terminalErrorStage ∧
      after.terminalErrorMessage = before.terminalErrorMessage) :
    before.snapshotRecord.Follows after.bumped.snapshotRecord := by
  rw [StreamingRequestState.bumped, if_neg (heq ▸ hrevision)]
  refine ⟨fun hsame => ?_, ?_, hgenerated, hpublished, hcommitted, hstate, hterminal⟩
  · simp only [StreamingRequestState.snapshotRecord, heq] at hsame
    omega
  · simp only [StreamingRequestState.snapshotRecord, heq]
    omega

/-- Only what a snapshot does not show, or the terminal fields, changed. -/
theorem Readable.of_bumped (hreadable : h.Readable) {after : StreamingRequestState}
    (hh' : h'.request = after.bumped) (htokens : after.textTokenCount = h.request.textTokenCount)
    (hcommitted : after.committedTextTokens = h.request.committedTextTokens)
    (hgenerated : after.generatedCodecFrames = h.request.generatedCodecFrames)
    (hpublished : after.publishedSamples = h.request.publishedSamples)
    (hterminal : TerminalFields after) : h'.Readable := by
  have hfields : ∀ revision, Readable { h with request := { after with revision := revision } } :=
    fun revision =>
      ⟨by change after.committedTextTokens ≤ after.textTokenCount
          rw [htokens, hcommitted]
          exact hreadable.committed_le,
        by change after.publishedSamples = after.generatedCodecFrames * _
           rw [hpublished, hgenerated]
           exact hreadable.published_eq,
        by change after.publishedSamples ≤ _
           rw [hpublished]
           exact hreadable.published_le,
        hterminal⟩
  have hbumped : Readable { h with request := after.bumped } := by
    rw [StreamingRequestState.bumped]
    split
    · exact hfields after.revision
    · exact hfields (after.revision + 1)
  exact ⟨hh' ▸ hbumped.committed_le, hh' ▸ hbumped.published_eq, hh' ▸ hbumped.published_le,
    hh' ▸ hbumped.terminal⟩

/-- An accepted chunk adds to the counters of the snapshot. -/
theorem follows_accept (hreadable : h.Readable) {chunk : AudioChunk}
    (hvalid : h.request.ValidChunk chunk) (hrevision : h.request.revision ≠ maximumUint64)
    (hfits : h.request.publishedSamples + chunk.samples.sampleCount ≤ maximumUint64)
    (hh' : h'.request = (h.request.acceptChunk chunk).bumped) :
    h'.Readable ∧ h.request.snapshotRecord.Follows h'.request.snapshotRecord := by
  have hcommittedLe := hreadable.committed_le
  have hcount := hvalid.sampleCount_eq
  have hpublishedEq := hreadable.published_eq
  have hterminal := hreadable.terminal
  simp only [TerminalFields, hvalid.running] at hterminal
  rw [kCodecSamplesPerFrame] at hcount hpublishedEq
  have hpublished : addUint64 h.request.publishedSamples chunk.samples.sampleCount =
      h.request.publishedSamples + chunk.samples.sampleCount := addUint64_eq hfits
  have hgenerated : addUint64 h.request.generatedCodecFrames chunk.codecFrameCount =
      h.request.generatedCodecFrames + chunk.codecFrameCount := addUint64_eq (by omega)
  have hcommitted : h.request.committedTextTokens ≤
        (h.request.acceptChunk chunk).committedTextTokens ∧
      (h.request.acceptChunk chunk).committedTextTokens ≤ h.request.textTokenCount := by
    change h.request.committedTextTokens ≤ (if chunk.alignmentValid then _ else _) ∧
      (if chunk.alignmentValid then _ else _) ≤ _
    split_ifs with halignment
    · exact hvalid.committed_range halignment
    · exact ⟨le_refl _, hcommittedLe⟩
  have hreadable' : ∀ revision, Readable { h with
      request := { h.request.acceptChunk chunk with revision := revision } } := fun revision =>
    { committed_le := hcommitted.2
      published_eq := by
        change addUint64 _ _ = addUint64 _ _ * 1024
        rw [hpublished, hgenerated]
        omega
      published_le := by
        change addUint64 _ _ ≤ _
        rw [hpublished]
        exact hfits
      terminal := by
        rw [TerminalFields]
        simp only [StreamingRequestState.acceptChunk, hvalid.running]
        cases chunk.final <;> exact hterminal }
  have hbumped : (h.request.acceptChunk chunk).bumped =
      { h.request.acceptChunk chunk with revision := h.request.revision + 1 } := if_neg hrevision
  constructor
  · have hnext := hreadable' (h.request.revision + 1)
    rw [← hbumped, ← hh'] at hnext
    exact ⟨hnext.committed_le, hnext.published_eq, hnext.published_le, hnext.terminal⟩
  · rw [hh']
    refine follows_bumped hrevision rfl ?_ ?_ hcommitted.1 ?_ ?_
    · change _ ≤ addUint64 _ _
      rw [hgenerated]
      exact Nat.le_add_right _ _
    · change _ ≤ addUint64 _ _
      rw [hpublished]
      exact Nat.le_add_right _ _
    · exact fun hne => absurd hvalid.running hne
    · intro hfailed
      rw [hvalid.running] at hfailed
      cases hfailed

/-- The calls of the interface that empty the queue close the request or its publication. -/
theorem follows_clears (hreadable : h.Readable) {after : StreamingRequestState}
    (hclears : Clears h.request c after) (hadmitted : h.Admitted c) (hregular : h.Regular c)
    (hh' : h'.request = after) :
    h'.Readable ∧ h.request.snapshotRecord.Follows h'.request.snapshotRecord := by
  have hterminal := hreadable.terminal
  cases hclears with
  | discardUnleasedAudio => exact absurd rfl hadmitted.1
  | completeCancellation hrunning hrequested => exact absurd rfl hadmitted.2.1
  | requestCancellation hrunning hopen =>
    refine ⟨hreadable.of_bumped hh' rfl rfl rfl rfl hterminal, ?_⟩
    rw [hh']
    exact follows_bumped hadmitted.2.2 rfl (le_refl _) (le_refl _) (le_refl _) (fun _ => rfl)
      fun _ => ⟨rfl, rfl, rfl⟩
  | completeCancellationAfterDrain hrunning hrequested =>
    refine ⟨hreadable.of_bumped hh' rfl rfl rfl rfl ⟨rfl, rfl, rfl⟩, ?_⟩
    rw [hh']
    refine follows_bumped hadmitted.2.2 rfl (le_refl _) (le_refl _) (le_refl _)
      (fun hne => absurd hrunning hne) fun hfailed => ?_
    rw [hrunning] at hfailed
    cases hfailed
  | fail status stage message hrunning hargs =>
    have hdeclared := hregular.1 status stage message rfl hrunning hargs
    refine ⟨hreadable.of_bumped hh' rfl rfl rfl rfl hdeclared, ?_⟩
    rw [hh']
    refine follows_bumped hadmitted.2.2 rfl (le_refl _) (le_refl _) (le_refl _)
      (fun hne => absurd hrunning hne) fun hfailed => ?_
    rw [hrunning] at hfailed
    cases hfailed

theorem Invariant.move_step (hinv : h.Invariant) (hadmitted : h.Admitted c) :
    h.Move c (h.step c) :=
  RequestHistory.move_step hinv.accounted
    (fun lease hmem => hinv.leaseIds_lt lease (hinv.leases.subset hmem))
    fun ⟨_, _, _, _, hmax⟩ => hadmitted.2.2 hmax

/-- A call of the interface below the last revision, if it is regular, keeps the snapshots readable,
and the snapshot behind it follows the one in front of it. -/
theorem follows_step (hinv : h.Invariant) (hreadable : h.Readable) (hadmitted : h.Admitted c)
    (hregular : h.Regular c) :
    (h.step c).Readable ∧ h.request.snapshotRecord.Follows (h.step c).request.snapshotRecord := by
  have hmove := hinv.move_step hadmitted
  generalize h.step c = h' at hmove
  cases hmove with
  | stay => exact ⟨hreadable, .refl _⟩
  | draw ids hids =>
    exact ⟨⟨hreadable.committed_le, hreadable.published_eq, hreadable.published_le,
      hreadable.terminal⟩, .refl _⟩
  | accept chunk hcall hopen hvalid hrevision =>
    exact follows_accept hreadable hvalid hrevision (hregular.2 chunk hcall hopen hvalid) rfl
  | discard after hclears => exact follows_clears hreadable hclears hadmitted hregular rfl
  | take chunk rest views havailable hviews =>
    refine ⟨hreadable.of_bumped rfl rfl rfl rfl rfl hreadable.terminal, ?_⟩
    exact follows_bumped hadmitted.2.2 rfl (le_refl _) (le_refl _) (le_refl _) (fun _ => rfl)
      fun _ => ⟨rfl, rfl, rfl⟩
  | release found hcall hfind =>
    refine ⟨hreadable.of_bumped rfl rfl rfl rfl rfl hreadable.terminal, ?_⟩
    exact follows_bumped hadmitted.2.2 rfl (le_refl _) (le_refl _) (le_refl _) (fun _ => rfl)
      fun _ => ⟨rfl, rfl, rfl⟩

theorem bumped_textTokenCount (s : StreamingRequestState) :
    s.bumped.textTokenCount = s.textTokenCount :=
  StreamingRequestState.bumped_induction (P := fun t => t.textTokenCount = s.textTokenCount) rfl rfl

/-- No call changes the number of text tokens. -/
theorem Move.textTokenCount_eq (hmove : h.Move c h') :
    h'.request.textTokenCount = h.request.textTokenCount := by
  cases hmove with
  | stay => rfl
  | draw ids hids => rfl
  | accept chunk hcall hopen hvalid hrevision => exact bumped_textTokenCount _
  | discard after hclears =>
    cases hclears with
    | discardUnleasedAudio => rfl
    | completeCancellation hrunning hrequested => rfl
    | requestCancellation hrunning hopen => exact bumped_textTokenCount _
    | completeCancellationAfterDrain hrunning hrequested => exact bumped_textTokenCount _
    | fail status stage message hrunning hargs => exact bumped_textTokenCount _
  | take chunk rest views havailable hviews => exact bumped_textTokenCount _
  | release found hcall hfind => exact bumped_textTokenCount _

theorem readable_start {textTokenCount capacity : ℕ} {request : StreamingRequestState}
    (h : StreamingRequestState.construct textTokenCount capacity = .ok request)
    (ids : LeaseIdSequence) : (start request ids).Readable := by
  rw [StreamingRequestState.construct] at h
  split_ifs at h with hpositive hsteady
  rw [Except.ok.injEq] at h
  subst h
  exact ⟨Nat.zero_le _, (Nat.zero_mul _).symm, Nat.zero_le _, ⟨rfl, rfl, rfl⟩⟩

/-- What a regular call keeps: every snapshot of a request with `n` text tokens is readable. -/
structure Observable (n : ℕ) (h : RequestHistory) : Prop where
  invariant : h.Invariant
  readable : h.Readable
  textTokenCount_eq : h.request.textTokenCount = n

namespace Observable

variable {n : ℕ}

theorem start {capacity : ℕ} {request : StreamingRequestState}
    (hcapacity : capacity ≤ maximumUint32)
    (hrequest : StreamingRequestState.construct n capacity = .ok request) (ids : LeaseIdSequence) :
    Observable n (start request ids) where
  invariant := invariant_start hcapacity hrequest ids
  readable := readable_start hrequest ids
  textTokenCount_eq := by
    rw [StreamingRequestState.construct] at hrequest
    split_ifs at hrequest with hpositive hsteady
    rw [Except.ok.injEq] at hrequest
    subst hrequest
    rfl

theorem step (hobservable : Observable n h) (hadmitted : h.Admitted c) (hregular : h.Regular c) :
    Observable n (h.step c) where
  invariant := hobservable.invariant.step fun ⟨_, _, _, _, hmax⟩ => hadmitted.2.2 hmax
  readable := (follows_step hobservable.invariant hobservable.readable hadmitted hregular).1
  textTokenCount_eq :=
    (hobservable.invariant.move_step hadmitted).textTokenCount_eq.trans
      hobservable.textTokenCount_eq

end Observable

/-- A call that is not regular ends in a snapshot that is not in the documented table, or that does
not follow the one before. -/
theorem not_follows_of_not_regular (hinv : h.Invariant) (hadmitted : h.Admitted c)
    (hregular : ¬ h.Regular c) :
    ¬ (DocumentedTable (publicSnapshot (h.step c).request.snapshotRecord) ∧
      h.request.snapshotRecord.Follows (h.step c).request.snapshotRecord) := by
  rw [Regular, not_and_or] at hregular
  rintro ⟨htable, hfollows⟩
  rcases hregular with hfailure | hpublication
  · push Not at hfailure
    obtain ⟨status, stage, message, rfl, hrunning, hargs, hundeclared⟩ := hfailure
    have hstep : (h.step (.fail status stage message)).request =
        (h.request.failed status stage message).bumped := by
      simp only [step, RequestSystem.step, RequestSystem.call,
        StreamingRequestState.fail_of_running hinv.accounted hargs hrunning,
        StreamingRequestState.incrementRevision_snd]
    rw [hstep, StreamingRequestState.bumped, if_neg (by exact hadmitted.2.2),
      documentedTable_iff] at htable
    exact hundeclared htable
  · push Not at hpublication
    obtain ⟨chunk, rfl, hopen, hvalid, hwraps⟩ := hpublication
    have hstep : (h.step (.publish chunk)).request = (h.request.acceptChunk chunk).bumped := by
      simp only [step, RequestSystem.step, RequestSystem.call,
        StreamingRequestState.publish_of_valid hopen hvalid,
        StreamingRequestState.incrementRevision_snd]
    have hpublished := hfollows.publishedSamples_le
    rw [hstep, StreamingRequestState.bumped, if_neg (by exact hadmitted.2.2)] at hpublished
    change h.request.publishedSamples ≤ addUint64 _ _ at hpublished
    have hcount := hvalid.sampleCount_eq
    have hframes := hvalid.frames_le
    rw [kCodecSamplesPerFrame] at hcount
    rw [maximumUint64] at hwraps
    rw [addUint64] at hpublished
    omega

end RequestHistory

end MagpieTts.Runtime
