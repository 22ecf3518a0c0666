import MagpieTts.Runtime.RequestSnapshots
import MagpieTts.Runtime.SynthesisWorker

/-!
# The calls of a worker and of a consumer

A request is called by one worker, which publishes, completes a cancellation or fails, and by one
consumer, which acquires, releases and cancels. Neither empties the queue while it stays open, so
the chunks are leased in the order of their publication and without a gap; and the revision counts
the calls, so it stays in range while the accepted chunks are few.

## Main definitions

* `RequestHistory.Orderly`: the leased chunks are the first of the accepted ones.
* `RequestHistory.ConsumerKeeps`: what the calls of the consumer keep.

## Main results

* `RequestHistory.Orderly.move`: the calls of worker and consumer keep the order.
* `RequestHistory.Orderly.revision_lt`: the revision is bounded by the accepted chunks.
* `RequestHistory.consumerKeeps_step`: the calls of the consumer.
-/

namespace MagpieTts.Runtime

namespace RequestHistory

variable {h h' : RequestHistory} {c : RequestCall}

/-- No call changes the capacity of the ring. -/
theorem Move.pcmRingCapacityFrames_eq (hmove : h.Move c h') :
    h'.request.pcmRingCapacityFrames = h.request.pcmRingCapacityFrames := by
  have hbumped : ∀ s : StreamingRequestState,
      s.bumped.pcmRingCapacityFrames = s.pcmRingCapacityFrames := fun s =>
    StreamingRequestState.bumped_induction
      (P := fun t => t.pcmRingCapacityFrames = s.pcmRingCapacityFrames) rfl rfl
  cases hmove with
  | stay => rfl
  | draw ids hids => rfl
  | accept chunk hcall hopen hvalid hrevision => exact hbumped _
  | discard after hclears => exact hclears.emptied.capacity_eq
  | take chunk rest views havailable hviews => exact hbumped _
  | release found hcall hfind => exact hbumped _

/-! ### The order of the leases -/

/-- The number of the calls that moved the revision. -/
def revisionBound (h : RequestHistory) : ℕ :=
  1 + h.accepted.length + h.taken.length + h.released.length +
    (if h.request.cancellationRequested then 1 else 0) +
    (if h.request.state = .running then 0 else 1)

/-- Every chunk was leased or is still in the queue; or the publication is closed and the queue was
emptied. -/
structure Orderly (h : RequestHistory) : Prop where
  revision_le : h.request.revision ≤ h.revisionBound
  returned_eq : h.returned = h.taken.map StoredLease.view
  order : h.accepted = h.taken.map StoredLease.chunk ++ h.request.availableAudio ∨
    (h.request.availableAudio = [] ∧
      (h.request.state ≠ .running ∨ h.request.cancellationRequested = true) ∧
      h.taken.map StoredLease.chunk <+: h.accepted)

theorem bumped_revision_le (s : StreamingRequestState) : s.bumped.revision ≤ s.revision + 1 :=
  StreamingRequestState.bumped_induction (P := fun t => t.revision ≤ s.revision + 1)
    (Nat.le_succ _) (le_refl _)

namespace Orderly

theorem taken_prefix (horderly : h.Orderly) : h.taken.map StoredLease.chunk <+: h.accepted := by
  rcases horderly.order with horder | ⟨-, -, hprefix⟩
  · exact ⟨h.request.availableAudio, horder.symm⟩
  · exact hprefix

/-- A queue that is not empty holds what is left of the accepted chunks. -/
theorem accepted_eq_of_cons (horderly : h.Orderly) {chunk : AudioChunk} {rest : List AudioChunk}
    (havailable : h.request.availableAudio = chunk :: rest) :
    h.accepted = h.taken.map StoredLease.chunk ++ chunk :: rest := by
  rcases horderly.order with horder | ⟨hempty, -, -⟩
  · rw [horder, havailable]
  · rw [hempty] at havailable
    cases havailable

/-- A call that empties the queue closes the publication, and moves the revision once at most. -/
theorem clears {after : StreamingRequestState} (hclears : Clears h.request c after)
    (hqueue : c ≠ .discardUnleasedAudio) :
    (after.state ≠ .running ∨ after.cancellationRequested = true) ∧
      after.revision + (if h.request.cancellationRequested then 1 else 0) +
          (if h.request.state = .running then 0 else 1) ≤
        h.request.revision + (if after.cancellationRequested then 1 else 0) +
          (if after.state = .running then 0 else 1) := by
  cases hclears with
  | discardUnleasedAudio => exact absurd rfl hqueue
  | requestCancellation hrunning hopen =>
    have hle := bumped_revision_le h.request.cancelRequested
    rw [bumped_state, bumped_cancellationRequested]
    refine ⟨Or.inr rfl, ?_⟩
    simp only [StreamingRequestState.cancelRequested, StreamingRequestState.withoutQueue, hrunning,
      hopen, Bool.false_eq_true, if_true, if_false] at hle ⊢
    omega
  | completeCancellation hrunning hrequested =>
    refine ⟨Or.inl RequestLifecycleState.noConfusion, ?_⟩
    simp [StreamingRequestState.cancelCompleted, StreamingRequestState.withoutQueue, hrunning]
  | completeCancellationAfterDrain hrunning hrequested =>
    have hle := bumped_revision_le h.request.cancelCompleted
    rw [bumped_state, bumped_cancellationRequested]
    refine ⟨Or.inl RequestLifecycleState.noConfusion, ?_⟩
    simp only [StreamingRequestState.cancelCompleted, StreamingRequestState.withoutQueue, hrunning,
      hrequested, if_true, reduceCtorEq, if_false] at hle ⊢
    omega
  | fail status stage message hrunning hargs =>
    have hle := bumped_revision_le (h.request.failed status stage message)
    rw [bumped_state, bumped_cancellationRequested]
    refine ⟨Or.inl RequestLifecycleState.noConfusion, ?_⟩
    simp only [StreamingRequestState.failed, StreamingRequestState.withoutQueue, hrunning, if_true,
      reduceCtorEq, if_false] at hle ⊢
    omega

theorem accept (horderly : h.Orderly) {chunk : AudioChunk}
    (hopen : h.request.cancellationRequested = false) (hvalid : h.request.ValidChunk chunk) :
    Orderly { h with
      request := (h.request.acceptChunk chunk).bumped, accepted := h.accepted ++ [chunk] } where
  revision_le := by
    have hle := horderly.revision_le
    have hbumped := bumped_revision_le (h.request.acceptChunk chunk)
    have hrevision : (h.request.acceptChunk chunk).revision = h.request.revision := rfl
    simp only [revisionBound, hvalid.running, hopen, Bool.false_eq_true, if_true, if_false] at hle
    simp only [revisionBound, List.length_append, List.length_singleton]
    omega
  returned_eq := horderly.returned_eq
  order := by
    rcases horderly.order with horder | ⟨-, hclosed | hclosed, -⟩
    · left
      simp only [bumped_availableAudio, horder, StreamingRequestState.acceptChunk,
        List.append_assoc]
    · exact absurd hvalid.running hclosed
    · rw [hopen] at hclosed
      cases hclosed

theorem discard (horderly : h.Orderly) {after : StreamingRequestState}
    (hclears : Clears h.request c after) (hqueue : c ≠ .discardUnleasedAudio) :
    Orderly { h with request := after, discarded := h.discarded ++ h.request.availableAudio } where
  revision_le := by
    have hle := horderly.revision_le
    have hrevision := (clears hclears hqueue).2
    simp only [revisionBound] at hle ⊢
    omega
  returned_eq := horderly.returned_eq
  order := Or.inr ⟨hclears.emptied.availableAudio_eq, (clears hclears hqueue).1,
    horderly.taken_prefix⟩

theorem take (horderly : h.Orderly) {chunk : AudioChunk} {rest : List AudioChunk}
    (havailable : h.request.availableAudio = chunk :: rest) :
    Orderly { h with
      request := (h.request.leased rest ⟨h.leaseIds.next, chunk⟩).bumped
      leaseIds := ⟨h.leaseIds.next + 1⟩
      taken := h.taken ++ [⟨h.leaseIds.next, chunk⟩]
      returned := h.returned ++ [StoredLease.view ⟨h.leaseIds.next, chunk⟩] } where
  revision_le := by
    have hle := horderly.revision_le
    have hbumped := bumped_revision_le (h.request.leased rest ⟨h.leaseIds.next, chunk⟩)
    have hrevision : (h.request.leased rest ⟨h.leaseIds.next, chunk⟩).revision =
        h.request.revision := rfl
    simp only [revisionBound, bumped_state, bumped_cancellationRequested,
      StreamingRequestState.leased, List.length_append, List.length_singleton] at hle ⊢
    simp only [StreamingRequestState.leased] at hbumped
    omega
  returned_eq := by
    rw [horderly.returned_eq, List.map_append, List.map_singleton]
  order := by
    left
    simp only [bumped_availableAudio, StreamingRequestState.leased, List.map_append,
      List.map_singleton, List.append_assoc, List.singleton_append,
      horderly.accepted_eq_of_cons havailable]

theorem release (horderly : h.Orderly) {found : StoredLease} :
    Orderly { h with
      request := (h.request.unleased found).bumped
      released := h.released ++ [found.chunk] } where
  revision_le := by
    have hle := horderly.revision_le
    have hbumped := bumped_revision_le (h.request.unleased found)
    have hrevision : (h.request.unleased found).revision = h.request.revision := rfl
    simp only [revisionBound, bumped_state, bumped_cancellationRequested,
      StreamingRequestState.unleased, List.length_append, List.length_singleton] at hle ⊢
    simp only [StreamingRequestState.unleased] at hbumped
    omega
  returned_eq := horderly.returned_eq
  order := by
    simp only [bumped_state, bumped_cancellationRequested, bumped_availableAudio,
      StreamingRequestState.unleased]
    exact horderly.order

/-- Below the last revision, the calls of worker and consumer keep the order. -/
theorem move (horderly : h.Orderly) (hmove : h.Move c h') (hqueue : c ≠ .discardUnleasedAudio)
    (hrevision : h.request.revision ≠ maximumUint64) : h'.Orderly := by
  cases hmove with
  | stay => exact horderly
  | draw ids hids => exact ⟨horderly.revision_le, horderly.returned_eq, horderly.order⟩
  | accept chunk hcall hopen hvalid hrevision => exact horderly.accept hopen hvalid
  | discard after hclears => exact horderly.discard hclears hqueue
  | take chunk rest views havailable hviews =>
    rcases hviews with ⟨-, hmax⟩ | rfl
    · exact absurd hmax hrevision
    · exact horderly.take havailable
  | release found hcall hfind => exact horderly.release

/-- Each accepted chunk moves the revision three times at most. -/
theorem revision_le_length (horderly : h.Orderly) (hinv : h.Invariant) :
    h.request.revision ≤ 3 * h.accepted.length + 3 := by
  have hle := horderly.revision_le
  have htaken := horderly.taken_prefix.length_le
  rw [List.length_map] at htaken
  have hpartition := hinv.conservation.partition.length_eq
  simp only [List.length_append] at hpartition
  rw [revisionBound] at hle
  split_ifs at hle <;> omega

theorem start {textTokenCount capacity : ℕ} {request : StreamingRequestState}
    (hrequest : StreamingRequestState.construct textTokenCount capacity = .ok request)
    (ids : LeaseIdSequence) : (RequestHistory.start request ids).Orderly := by
  rw [StreamingRequestState.construct] at hrequest
  split_ifs at hrequest with hpositive hsteady
  rw [Except.ok.injEq] at hrequest
  subst hrequest
  exact ⟨le_refl _, rfl, Or.inl rfl⟩

end Orderly

/-! ### The calls of the consumer -/

/-- What the calls of the consumer keep: they add no frames and complete nothing, and a cancellation
stays accepted. -/
structure ConsumerKeeps (h h' : RequestHistory) : Prop where
  accepted_eq : h'.accepted = h.accepted
  state_eq : h'.request.state = h.request.state
  committedTextTokens_eq : h'.request.committedTextTokens = h.request.committedTextTokens
  occupied_le : h'.request.occupiedCodecFrames ≤ h.request.occupiedCodecFrames
  cancelled_of : h.request.cancellationRequested = true →
    h'.request.cancellationRequested = true
  terminal_eq : h'.request.terminalStatus = h.request.terminalStatus ∧
    h'.request.terminalErrorStage = h.request.terminalErrorStage ∧
    h'.request.terminalErrorMessage = h.request.terminalErrorMessage

theorem bumped_committedTextTokens (s : StreamingRequestState) :
    s.bumped.committedTextTokens = s.committedTextTokens :=
  StreamingRequestState.bumped_induction
    (P := fun t => t.committedTextTokens = s.committedTextTokens) rfl rfl

theorem bumped_occupiedCodecFrames (s : StreamingRequestState) :
    s.bumped.occupiedCodecFrames = s.occupiedCodecFrames :=
  StreamingRequestState.bumped_induction
    (P := fun t => t.occupiedCodecFrames = s.occupiedCodecFrames) rfl rfl

theorem bumped_terminal (s : StreamingRequestState) :
    s.bumped.terminalStatus = s.terminalStatus ∧
      s.bumped.terminalErrorStage = s.terminalErrorStage ∧
      s.bumped.terminalErrorMessage = s.terminalErrorMessage :=
  StreamingRequestState.bumped_induction
    (P := fun t => t.terminalStatus = s.terminalStatus ∧
      t.terminalErrorStage = s.terminalErrorStage ∧
      t.terminalErrorMessage = s.terminalErrorMessage) ⟨rfl, rfl, rfl⟩ ⟨rfl, rfl, rfl⟩

theorem consumerKeeps_move (hinv : h.Invariant) (call : ConsumerCall)
    (hmove : h.Move call.toRequestCall h') : h.ConsumerKeeps h' := by
  have hocc := hinv.accounted.occupied_eq
  generalize hcall : call.toRequestCall = c at hmove
  cases hmove with
  | stay => exact ⟨rfl, rfl, rfl, le_refl _, id, rfl, rfl, rfl⟩
  | draw ids hids => exact ⟨rfl, rfl, rfl, le_refl _, id, rfl, rfl, rfl⟩
  | accept chunk hpublish hopen hvalid hrevision =>
    subst hpublish
    cases call <;> cases hcall
  | discard after hclears =>
    cases hclears with
    | requestCancellation hrunning hopen =>
      refine ⟨rfl, bumped_state _, bumped_committedTextTokens _, ?_,
        fun _ => bumped_cancellationRequested _, bumped_terminal _⟩
      refine (bumped_occupiedCodecFrames _).le.trans ?_
      change h.request.leaseFrames ≤ _
      omega
    | _ => cases call <;> cases hcall
  | take chunk rest views havailable hviews =>
    exact ⟨rfl, bumped_state _, bumped_committedTextTokens _, (bumped_occupiedCodecFrames _).le,
      fun hcancelled => (bumped_cancellationRequested _).trans hcancelled, bumped_terminal _⟩
  | release found hrelease hfind =>
    refine ⟨rfl, bumped_state _, bumped_committedTextTokens _, ?_,
      fun hcancelled => (bumped_cancellationRequested _).trans hcancelled, bumped_terminal _⟩
    exact (bumped_occupiedCodecFrames _).le.trans (Nat.sub_le _ _)

end RequestHistory

end MagpieTts.Runtime
